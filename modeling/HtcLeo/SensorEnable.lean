import HtcLeo.AkmSensor
import HtcLeo.LevelSensor

/-!
# Driver enable state and the hardware

Each driver remembers which of its sensors are enabled and skips the
`ioctl` when a request changes nothing, so it depends on remembering
right. The board below is the three drivers next to the enable flags of
the hardware: a `SET` that succeeds sets the flag, one that fails leaves
it, and closing the device does not change it.

`setEnable` keeps the two in step in every driver. The constructor of the
proximity driver starts out of step when the hardware is off, so the
state mirrors the hardware in every state exactly when the proximity
sensor was on at construction (`enable_mirrors_iff`).
-/

namespace HtcLeo

section

variable [SensorFloat]

/-! ## Drivers and hardware -/

/-- What the constructors find when `open` and the `GET` calls succeed. -/
structure BoardProbe where
  lightFd : Nat
  lightFlags : Int
  lightAbsinfo : Option Int
  proximityFd : Nat
  proximityFlags : Int
  proximityAbsinfo : Option Int
  akmFd : Nat
  akmFlags : AkmIndex → Int
  akmAbsinfo : Nat → Option Int
  mBuffer : Nat → InputEvent

def BoardProbe.light (p : BoardProbe) : LevelProbe :=
  ⟨p.lightFd, some p.lightFlags, p.lightAbsinfo, p.mBuffer⟩

def BoardProbe.proximity (p : BoardProbe) : LevelProbe :=
  ⟨p.proximityFd, some p.proximityFlags, p.proximityAbsinfo, p.mBuffer⟩

def BoardProbe.akm (p : BoardProbe) : AkmProbe :=
  ⟨p.akmFd, fun j => some (p.akmFlags j), p.akmAbsinfo, p.mBuffer⟩

/-- The drivers and the enable flags of the hardware. -/
structure Board where
  light : LevelSensor
  lightHw : Bool
  proximity : LevelSensor
  proximityHw : Bool
  akm : AkmSensor
  akmHw : AkmIndex → Bool

def Board.init (p : BoardProbe) : Board where
  light := .lightInit p.light
  lightHw := p.lightFlags ≠ 0
  proximity := .proximityInit p.proximity
  proximityHw := p.proximityFlags ≠ 0
  akm := .init p.akm
  akmHw j := p.akmFlags j ≠ 0

/-- A call of `setEnable` of one of the drivers, with the answers it gets. -/
inductive EnableCall where
  | light (en : Int) (io : LevelIo)
  | proximity (en : Int) (io : LevelIo)
  | akm (handle en : Int) (io : AkmSensor.Io)

/-- The hardware flags after a call. -/
def akmHwAfter (hw : AkmIndex → Bool) : Option (AkmIndex × Bool) → AkmIndex → Bool
  | some (j, on) => Function.update hw j on
  | none => hw

def boardStep (b : Board) : EnableCall → Board
  | .light en io =>
      let r := b.light.lightSetEnable en io
      { b with light := r.sensor, lightHw := r.flag.getD b.lightHw }
  | .proximity en io =>
      let r := b.proximity.proximitySetEnable en io
      { b with proximity := r.sensor, proximityHw := r.flag.getD b.proximityHw }
  | .akm handle en io =>
      let r := b.akm.setEnable handle en io
      { b with akm := r.sensor, akmHw := akmHwAfter b.akmHw r.flag }

/-- What the call returns. -/
def EnableCall.ret (b : Board) : EnableCall → Int
  | .light en io => (b.light.lightSetEnable en io).err
  | .proximity en io => (b.proximity.proximitySetEnable en io).err
  | .akm handle en io => (b.akm.setEnable handle en io).err

def EnableCall.en : EnableCall → Int
  | .light en _ | .proximity en _ | .akm _ en _ => en

/-- The hardware flag of the sensor that the call is about. -/
def EnableCall.hw (b : Board) : EnableCall → Bool
  | .light .. => b.lightHw
  | .proximity .. => b.proximityHw
  | .akm handle .. => (AkmSensor.what handle).any b.akmHw

/-! ## The two agree -/

/-- The driver remembers the flag, and has its device open when it is set. -/
structure LevelSensor.Mirrors (s : LevelSensor) (hw : Bool) : Prop where
  enabled : s.mEnabled = if hw then 1 else 0
  device : 0 ≤ s.devFd ↔ s.mEnabled ≠ 0

/-- The driver remembers every flag, and has its device open when one is set. -/
structure AkmSensor.Mirrors (s : AkmSensor) (hw : AkmIndex → Bool) : Prop where
  enabled : s.mEnabled = maskOf hw
  device : 0 ≤ s.devFd ↔ s.mEnabled ≠ 0

structure Board.Mirrors (b : Board) : Prop where
  light : b.light.Mirrors b.lightHw
  proximity : b.proximity.Mirrors b.proximityHw
  akm : b.akm.Mirrors b.akmHw

/-- A request to enable a sensor that returns 0 leaves it on. -/
def EnabledMeansOn (b : Board) (c : EnableCall) : Prop :=
  c.en ≠ 0 → c.ret b = 0 → c.hw (boardStep b c) = true

/-! ## The light and proximity drivers -/

theorem LevelSensor.setInitialState_mEnabled (kind : LevelKind) (absinfo : Option Int)
    (s : LevelSensor) : (s.setInitialState kind absinfo).mEnabled = s.mEnabled := by
  cases absinfo <;> rfl

theorem LevelSensor.setInitialState_devFd (kind : LevelKind) (absinfo : Option Int)
    (s : LevelSensor) : (s.setInitialState kind absinfo).devFd = s.devFd := by
  cases absinfo <;> rfl

/-- After `close_device` on an unused driver, the device is open exactly when it is used. -/
theorem LevelSensor.closeUnused_mirrors {s : LevelSensor} {hw : Bool}
    (henabled : s.mEnabled = if hw then 1 else 0) (hdevice : s.mEnabled ≠ 0 → 0 ≤ s.devFd) :
    s.closeUnused.Mirrors hw := by
  have hfd := closeDevice_iff hdevice
  unfold LevelSensor.closeUnused
  split_ifs with hzero
  · rw [if_pos hzero] at hfd
    exact ⟨henabled, hfd⟩
  · rw [if_neg hzero] at hfd
    exact ⟨henabled, hfd⟩

/-- The driver with its device open for an `ioctl`. -/
theorem LevelSensor.Mirrors.reopen {s : LevelSensor} {hw : Bool} (h : s.Mirrors hw) (opened : Int) :
    (if s.mEnabled = 0 then { s with devFd := openDevice s.devFd opened } else s).mEnabled
        = s.mEnabled
      ∧ (s.mEnabled ≠ 0 →
        0 ≤ (if s.mEnabled = 0 then { s with devFd := openDevice s.devFd opened } else s).devFd) := by
  split_ifs with hzero
  · exact ⟨rfl, fun hne => absurd hzero hne⟩
  · exact ⟨rfl, h.device.mpr⟩

theorem LevelSensor.Mirrors.setEnable (kind : LevelKind) {s : LevelSensor} {hw : Bool}
    (h : s.Mirrors hw) (en : Int) (io : LevelIo) :
    (s.setEnable kind en io).sensor.Mirrors ((s.setEnable kind en io).flag.getD hw) := by
  obtain ⟨hsame, hdevice⟩ := h.reopen io.opened
  have henabled := hsame.trans h.enabled
  unfold LevelSensor.setEnable
  generalize (if s.mEnabled = 0 then { s with devFd := openDevice s.devFd io.opened } else s)
    = s₁ at *
  by_cases hchange : (if en ≠ 0 then 1 else 0 : Int) ≠ s.mEnabled
  · rw [if_pos hchange]
    by_cases herr : ioctlErr s₁.devFd io.setFlag = 0
    · simp only [if_pos herr, Option.getD_some]
      -- the device is open, so whatever the flag is now the driver may keep it
      have hfd := devFd_of_ioctlErr herr
      by_cases hen : en ≠ 0
      · simp only [if_pos hen]
        refine LevelSensor.closeUnused_mirrors ?_ fun _ => ?_
        · rw [LevelSensor.setInitialState_mEnabled]
          simp [hen]
        · rw [LevelSensor.setInitialState_devFd]
          exact hfd
      · simp only [if_neg hen]
        refine LevelSensor.closeUnused_mirrors ?_ fun _ => hfd
        simp [hen]
    · simp only [if_neg herr, Option.getD_none]
      exact LevelSensor.closeUnused_mirrors henabled fun hne => hdevice (hsame ▸ hne)
  · rw [if_neg hchange]
    exact h

/-- Enabling a driver that is in step and returns 0 leaves the hardware on. -/
theorem LevelSensor.Mirrors.setEnable_on (kind : LevelKind) {s : LevelSensor} {hw : Bool}
    (h : s.Mirrors hw) {en : Int} (hen : en ≠ 0) (io : LevelIo)
    (hret : (s.setEnable kind en io).err = 0) :
    (s.setEnable kind en io).flag.getD hw = true := by
  unfold LevelSensor.setEnable at hret ⊢
  by_cases hchange : (if en ≠ 0 then 1 else 0 : Int) ≠ s.mEnabled
  · simp only [if_pos hchange] at hret ⊢
    split_ifs at hret ⊢ <;> simp_all
  · rw [if_neg hchange]
    rw [if_pos hen, h.enabled] at hchange
    cases hw <;> simp_all

/-! ## The AKM driver -/

theorem AkmSensor.closeUnused_mirrors {s : AkmSensor} {hw : AkmIndex → Bool}
    (henabled : s.mEnabled = maskOf hw) (hdevice : s.mEnabled ≠ 0 → 0 ≤ s.devFd) :
    s.closeUnused.Mirrors hw := by
  have hfd := closeDevice_iff hdevice
  unfold AkmSensor.closeUnused
  split_ifs with hzero
  · rw [if_pos hzero] at hfd
    exact ⟨henabled, hfd⟩
  · rw [if_neg hzero] at hfd
    exact ⟨henabled, hfd⟩

theorem AkmSensor.Mirrors.reopen {s : AkmSensor} {hw : AkmIndex → Bool} (h : s.Mirrors hw)
    (opened : Int) :
    (if s.mEnabled = 0 then { s with devFd := openDevice s.devFd opened } else s).mEnabled
        = s.mEnabled
      ∧ (s.mEnabled ≠ 0 →
        0 ≤ (if s.mEnabled = 0 then { s with devFd := openDevice s.devFd opened } else s).devFd) := by
  split_ifs with hzero
  · exact ⟨rfl, fun hne => absurd hzero hne⟩
  · exact ⟨rfl, h.device.mpr⟩

theorem AkmSensor.Mirrors.setEnable {s : AkmSensor} {hw : AkmIndex → Bool} (h : s.Mirrors hw)
    (handle en : Int) (io : AkmSensor.Io) :
    (s.setEnable handle en io).sensor.Mirrors (akmHwAfter hw (s.setEnable handle en io).flag) := by
  unfold AkmSensor.setEnable
  cases AkmSensor.what handle with
  | none => exact h
  | some j =>
      obtain ⟨hsame, hdevice⟩ := h.reopen io.opened
      have henabled := hsame.trans h.enabled
      simp only
      generalize (if s.mEnabled = 0 then { s with devFd := openDevice s.devFd io.opened } else s)
        = s₁ at *
      by_cases hchange : decide (en ≠ 0) ≠ hasBit s.mEnabled j
      · rw [if_pos hchange]
        by_cases herr : ioctlErr s₁.devFd io.setFlag = 0
        · rw [if_pos herr]
          have hfd := devFd_of_ioctlErr herr
          refine AkmSensor.closeUnused_mirrors ?_ fun _ => hfd
          show (s₁.mEnabled &&& ~~~j.bit) ||| _ = _
          rw [henabled]
          exact maskOf_setBit hw j _
        · rw [if_neg herr]
          exact AkmSensor.closeUnused_mirrors henabled fun hne => hdevice (hsame ▸ hne)
      · rw [if_neg hchange]
        exact h

theorem AkmSensor.Mirrors.setEnable_on {s : AkmSensor} {hw : AkmIndex → Bool} (h : s.Mirrors hw)
    {handle en : Int} (hen : en ≠ 0) (io : AkmSensor.Io)
    (hret : (s.setEnable handle en io).err = 0) :
    (AkmSensor.what handle).any (akmHwAfter hw (s.setEnable handle en io).flag) = true := by
  unfold AkmSensor.setEnable at hret ⊢
  cases hwhat : AkmSensor.what handle with
  | none =>
      rw [hwhat] at hret
      simp [einval] at hret
  | some j =>
      rw [hwhat] at hret
      simp only at hret ⊢
      by_cases hchange : decide (en ≠ 0) ≠ hasBit s.mEnabled j
      · rw [if_pos hchange] at hret ⊢
        by_cases herr : ioctlErr (if s.mEnabled = 0 then
            { s with devFd := openDevice s.devFd io.opened } else s).devFd io.setFlag = 0
        · rw [if_pos herr]
          simp [akmHwAfter, hen]
        · rw [if_neg herr] at hret
          exact absurd hret herr
      · rw [if_neg hchange]
        rw [not_not, h.enabled, hasBit_maskOf] at hchange
        simp [akmHwAfter, ← hchange, hen]

/-! ## Every sequence of calls -/

theorem boardStep_mirrors {b : Board} (h : b.Mirrors) (c : EnableCall) : (boardStep b c).Mirrors := by
  cases c with
  | light en io => exact ⟨h.light.setEnable lightKind en io, h.proximity, h.akm⟩
  | proximity en io => exact ⟨h.light, h.proximity.setEnable proximityKind en io, h.akm⟩
  | akm handle en io => exact ⟨h.light, h.proximity, h.akm.setEnable handle en io⟩

theorem Board.Mirrors.enabledMeansOn {b : Board} (h : b.Mirrors) (c : EnableCall) :
    EnabledMeansOn b c := by
  intro hen hret
  cases c with
  | light en io => exact h.light.setEnable_on lightKind hen io hret
  | proximity en io => exact h.proximity.setEnable_on proximityKind hen io hret
  | akm handle en io => exact h.akm.setEnable_on hen io hret

/-- The constructors of the light and the AKM driver start in step, that of the
proximity driver when the hardware is on. -/
theorem Board.init_mirrors {p : BoardProbe} (hp : p.proximityFlags ≠ 0) : (Board.init p).Mirrors := by
  refine ⟨?_, ?_, ?_⟩
  · show (LevelSensor.lightInit p.light).Mirrors (p.lightFlags ≠ 0)
    rw [LevelSensor.lightInit]
    simp only [LevelSensor.opened, BoardProbe.light, ioctlGet_open]
    by_cases hflags : p.lightFlags ≠ 0
    · rw [if_pos hflags]
      refine LevelSensor.closeUnused_mirrors ?_ fun _ => ?_
      · rw [LevelSensor.setInitialState_mEnabled]
        simp [hflags]
      · rw [LevelSensor.setInitialState_devFd]
        exact openDevice_nonneg p.lightFd
    · rw [if_neg hflags]
      refine LevelSensor.closeUnused_mirrors ?_ fun _ => openDevice_nonneg p.lightFd
      simp [hflags]
  · show (LevelSensor.proximityInit p.proximity).Mirrors (p.proximityFlags ≠ 0)
    rw [LevelSensor.proximityInit]
    simp only [LevelSensor.opened, BoardProbe.proximity, ioctlGet_open, if_pos hp]
    refine LevelSensor.closeUnused_mirrors ?_ fun _ => ?_
    · rw [LevelSensor.setInitialState_mEnabled]
      simp [hp]
    · rw [LevelSensor.setInitialState_devFd]
      exact openDevice_nonneg p.proximityFd
  · have hflag : p.akm.flag = fun j => decide (p.akmFlags j ≠ 0) := by
      funext j
      simp only [AkmProbe.flag, BoardProbe.akm, ioctlGet_open]
    have hopen : ¬ maskOf p.akm.flag = 0 → 0 ≤ openDevice (-1) p.akm.opened := fun _ =>
      openDevice_nonneg p.akmFd
    refine ⟨?_, closeDevice_iff hopen⟩
    show maskOf p.akm.flag = _
    rw [hflag]
    rfl

/-- The proximity driver believes that the sensor is on. -/
theorem proximityInit_mEnabled (p : BoardProbe) : (Board.init p).proximity.mEnabled = 1 := by
  show (LevelSensor.proximityInit p.proximity).mEnabled = 1
  simp only [LevelSensor.proximityInit, LevelSensor.opened, BoardProbe.proximity, ioctlGet_open]
  split_ifs <;> simp [LevelSensor.closeUnused, LevelSensor.setInitialState_mEnabled]

/-- **The driver state mirrors the hardware.** In every state that a sequence of
calls goes through the drivers agree with the hardware, and every request to
enable that returns 0 leaves the hardware on, exactly when the proximity sensor
was on at construction. -/
theorem enable_mirrors_iff (p : BoardProbe) (calls : List EnableCall) :
    (∀ before after, calls = before ++ after → (runFrom boardStep (.init p) before).Mirrors)
      ∧ AllSteps boardStep EnabledMeansOn (.init p) calls ↔ p.proximityFlags ≠ 0 := by
  constructor
  · rintro ⟨hmirrors, -⟩ hzero
    have henabled := (hmirrors [] calls rfl).proximity.enabled
    rw [runFrom_nil, proximityInit_mEnabled] at henabled
    simp [Board.init, hzero] at henabled
  · intro hp
    have hreach : ∀ before, (runFrom boardStep (.init p) before).Mirrors :=
      runFrom_inv (I := Board.Mirrors) (fun _ c hb => boardStep_mirrors hb c)
        (Board.init_mirrors hp)
    refine ⟨fun before _ _ => hreach before, ?_⟩
    rw [allSteps_iff_split]
    exact fun before c _ _ => (hreach before).enabledMeansOn c

end

/-- A device in which every sensor is off. -/
def offProbe : BoardProbe where
  lightFd := 3
  lightFlags := 0
  lightAbsinfo := none
  proximityFd := 4
  proximityFlags := 0
  proximityAbsinfo := none
  akmFd := 5
  akmFlags _ := 0
  akmAbsinfo _ := none
  mBuffer _ := ⟨0, 0, 0, 0, 0⟩

/-- The request to enable the proximity sensor returns 0 and the hardware stays off. -/
theorem proximity_stays_off :
    ¬@Board.Mirrors decimalSensorFloat (@Board.init decimalSensorFloat offProbe)
      ∧ @EnableCall.ret decimalSensorFloat (@Board.init decimalSensorFloat offProbe)
        (.proximity 1 ⟨4, 0, none⟩) = 0
      ∧ @Board.proximityHw decimalSensorFloat (@boardStep decimalSensorFloat
        (@Board.init decimalSensorFloat offProbe) (.proximity 1 ⟨4, 0, none⟩)) = false := by
  refine ⟨fun h => ?_, by decide, by decide⟩
  exact absurd (@LevelSensor.Mirrors.enabled decimalSensorFloat _ _
    (@Board.Mirrors.proximity decimalSensorFloat _ h)) (by decide)

end HtcLeo
