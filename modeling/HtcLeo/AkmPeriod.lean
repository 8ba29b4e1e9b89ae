import Mathlib.Order.Bounds.Basic
import HtcLeo.Runs
import HtcLeo.SensorEnable

/-!
# The sampling period of the AKM device (`libsensors/AkmSensor.cpp`)

The three sensors share one device and so one sampling period: after every
change `update_delay` gives the device the smallest delay of the enabled
sensors, in milliseconds. What the sensors are asked to do is a set and a
table of delays (`AkmRequests`), and a control call whose `ioctl`s succeed
changes these as it should (`ControlCall.run_requests`). The smallest delay is
computed right too (`wanted_isLeast`), but it is handed over as a `short`,
so the device gets it exactly when some enabled sensor asks for less than
32768 ms (`sampling_period_iff`).
-/

namespace HtcLeo

/-- What the sensors are asked to do. -/
structure AkmRequests where
  on : AkmIndex → Bool
  delays : AkmIndex → Nat

/-- A control call on a device that opens and whose `ioctl`s succeed; `fd` is the
descriptor, should the call open it. -/
inductive ControlCall where
  | setEnable (handle en : Int) (fd : Nat)
  | setDelay (handle : Int) (ns : BitVec 64)

/-- The requests after a call. A handle of another driver and a negative delay
change nothing. -/
def AkmRequests.after (r : AkmRequests) : ControlCall → AkmRequests
  | .setEnable handle en _ =>
      match AkmSensor.what handle with
      | none => r
      | some j => { r with on := Function.update r.on j (en ≠ 0) }
  | .setDelay handle ns =>
      match AkmSensor.what handle with
      | none => r
      | some j =>
          if ns.toInt < 0 then r
          else { r with delays := Function.update r.delays j ns.toInt.toNat }

/-- A call that changes something and leaves a sensor enabled. -/
def ControlCall.Matters (r : AkmRequests) (c : ControlCall) : Prop :=
  r.after c ≠ r ∧ ∃ j, (r.after c).on j = true

/-- A sensor that is enabled after the call wants less than 32768 ms. -/
def ControlCall.Fits (r : AkmRequests) (c : ControlCall) : Prop :=
  c.Matters r → ∃ j, (r.after c).on j = true ∧ (r.after c).delays j < 32768 * 1000000

section

variable [SensorFloat]

namespace AkmSensor

/-- The requests that a driver remembers. -/
def requests (s : AkmSensor) : AkmRequests := ⟨hasBit s.mEnabled, s.mDelays⟩

/-- The argument of `ECS_IOCTL_APP_SET_DELAY`. -/
def delayMs (s : AkmSensor) : Int :=
  ((BitVec.ofNat 64 s.wanted).toInt.tdiv 1000000).bmod (2 ^ 16)

/-! ## The smallest delay -/

/-- The loop of `update_delay` over any sensors from any start: a lower bound of
what it has seen that is one of the values it has seen. -/
theorem wantedLoop (s : AkmSensor) (l : List AkmIndex) (w : Nat) :
    let r := l.foldl
      (fun w j => if hasBit s.mEnabled j then if w < s.mDelays j then w else s.mDelays j else w) w
    r ≤ w ∧ (∀ j ∈ l, hasBit s.mEnabled j = true → r ≤ s.mDelays j)
      ∧ (r = w ∨ ∃ j ∈ l, hasBit s.mEnabled j = true ∧ r = s.mDelays j) := by
  induction l generalizing w with
  | nil => exact ⟨le_refl _, by simp, .inl rfl⟩
  | cons j l ih =>
      intro r
      obtain ⟨hle, hall, heq⟩ := ih
        (if hasBit s.mEnabled j then if w < s.mDelays j then w else s.mDelays j else w)
      change r ≤ _ at hle
      change ∀ i ∈ l, _ → r ≤ _ at hall
      change r = _ ∨ ∃ i ∈ l, _ ∧ r = _ at heq
      by_cases hj : hasBit s.mEnabled j = true
      · rw [if_pos hj] at hle heq
        refine ⟨by split at hle <;> omega, ?_, ?_⟩
        · rintro i (_ | ⟨_, hi⟩) hbit
          · split at hle <;> omega
          · exact hall i hi hbit
        · rcases heq with heq | ⟨i, hi, hbit, heq⟩
          · split at heq
            · exact .inl heq
            · exact .inr ⟨j, List.mem_cons_self .., hj, heq⟩
          · exact .inr ⟨i, List.mem_cons_of_mem _ hi, hbit, heq⟩
      · rw [if_neg hj] at hle heq
        refine ⟨hle, ?_, ?_⟩
        · rintro i (_ | ⟨_, hi⟩) hbit
          · exact absurd hbit hj
          · exact hall i hi hbit
        · rcases heq with heq | ⟨i, hi, hbit, heq⟩
          · exact .inl heq
          · exact .inr ⟨i, List.mem_cons_of_mem _ hi, hbit, heq⟩

/-- The delays of the enabled sensors. -/
def enabledDelays (s : AkmSensor) : Set Nat := {d | ∃ j, hasBit s.mEnabled j = true ∧ d = s.mDelays j}

/-- The same in whole milliseconds. -/
def enabledMs (s : AkmSensor) : Set Nat :=
  {d | ∃ j, hasBit s.mEnabled j = true ∧ d = s.mDelays j / 1000000}

/-- The sentinel is above every delay, so the loop finds the smallest one. -/
theorem wanted_isLeast {s : AkmSensor} (hon : ∃ j, hasBit s.mEnabled j = true)
    (hdelays : ∀ j, s.mDelays j < 2 ^ 63) : IsLeast s.enabledDelays s.wanted := by
  obtain ⟨-, hall, heq⟩ := s.wantedLoop AkmIndex.all (2 ^ 64 - 1)
  have hbound : ∀ j, hasBit s.mEnabled j = true → s.wanted ≤ s.mDelays j := fun j hj =>
    hall j (AkmIndex.mem_all j) hj
  refine ⟨?_, ?_⟩
  · rcases heq with heq | ⟨j, -, hj, heq⟩
    · obtain ⟨j, hj⟩ := hon
      have hle := hbound j hj
      have hlt := hdelays j
      rw [wanted, heq] at hle
      omega
    · exact ⟨j, hj, heq⟩
  · rintro d ⟨j, hj, rfl⟩
    exact hbound j hj

theorem wanted_div_isLeast {s : AkmSensor} (hon : ∃ j, hasBit s.mEnabled j = true)
    (hdelays : ∀ j, s.mDelays j < 2 ^ 63) : IsLeast s.enabledMs (s.wanted / 1000000) := by
  obtain ⟨⟨j, hj, hwanted⟩, hleast⟩ := wanted_isLeast hon hdelays
  refine ⟨⟨j, hj, by rw [hwanted]⟩, ?_⟩
  rintro d ⟨i, hi, rfl⟩
  exact Nat.div_le_div_right (hleast ⟨i, hi, rfl⟩)

/-- The conversion to `short` keeps the value exactly below 32768 ms. -/
theorem delayMs_eq_iff {s : AkmSensor} (hwanted : s.wanted < 2 ^ 63) :
    s.delayMs = (s.wanted / 1000000 : Nat) ↔ s.wanted < 32768 * 1000000 := by
  have hsigned : (BitVec.ofNat 64 s.wanted).toInt = s.wanted := by
    rw [BitVec.toInt_eq_toNat_bmod, BitVec.toNat_ofNat, Nat.mod_eq_of_lt (by omega),
      Int.bmod_eq_of_le] <;> omega
  have hdiv : (s.wanted : Int).tdiv 1000000 = (s.wanted / 1000000 : Nat) := by
    rw [Int.tdiv_eq_ediv_of_nonneg (Int.natCast_nonneg _)]
    omega
  rw [delayMs, hsigned, hdiv]
  constructor
  · intro h
    have hhi := Int.bmod_lt (x := (s.wanted / 1000000 : Nat)) (m := 2 ^ 16) (by decide)
    omega
  · intro h
    rw [Int.bmod_eq_of_le] <;> omega

end AkmSensor

/-! ## Calls -/

/-- The call as the driver runs it. -/
def ControlCall.run (s : AkmSensor) : ControlCall → AkmSensor.Control
  | .setEnable handle en fd => s.setEnable handle en ⟨fd, 0, 0⟩
  | .setDelay handle ns => s.setDelay handle ns.toInt ⟨0, 0, 0⟩

/-- The driver, and the delay the device was given last. -/
structure AkmTrace where
  sensor : AkmSensor
  lastDelay : Option Int

def akmNext (t : AkmTrace) (c : ControlCall) : AkmTrace :=
  ⟨(c.run t.sensor).sensor, (c.run t.sensor).delay.or t.lastDelay⟩

/-- The driver as the constructor leaves it; the device keeps the delay it has. -/
def AkmTrace.init (probe : AkmProbe) : AkmTrace := ⟨.init probe, none⟩

/-- After a call that changes an enable bit or a delay and leaves a sensor enabled,
the device has been given the smallest delay of the enabled sensors. -/
def ControlCall.GivesSmallest (t : AkmTrace) (c : ControlCall) : Prop :=
  let s := (akmNext t c).sensor
  s.mEnabled ≠ t.sensor.mEnabled ∨ s.mDelays ≠ t.sensor.mDelays →
    s.mEnabled ≠ 0 →
    ∃ m : Nat, IsLeast s.enabledMs m ∧ (akmNext t c).lastDelay = some (m : Int)

/-- The mask is one of sensors, the device is open when one is on, and the delays
are those of an `int64_t`. -/
structure AkmSensor.Ready (s : AkmSensor) : Prop where
  mirrors : s.Mirrors (hasBit s.mEnabled)
  delays : ∀ j, s.mDelays j < 2 ^ 63

theorem AkmSensor.Ready.eq_zero_iff {s : AkmSensor} (h : s.Ready) :
    s.mEnabled = 0 ↔ ∀ j, hasBit s.mEnabled j = false := by
  rw [← maskOf_eq_zero_iff, ← h.mirrors.enabled]

theorem AkmSensor.Ready.on {s : AkmSensor} (h : s.Ready) (hne : s.mEnabled ≠ 0) :
    ∃ j, hasBit s.mEnabled j = true := by
  by_contra hoff
  refine hne (h.eq_zero_iff.mpr fun j => ?_)
  simpa using fun hj => hoff ⟨j, hj⟩

theorem AkmSensor.Ready.init (probe : AkmProbe) : (AkmSensor.init probe).Ready := by
  have hmask : hasBit (AkmSensor.init probe).mEnabled = probe.flag := by
    funext j
    exact hasBit_maskOf probe.flag j
  refine ⟨⟨?_, ?_⟩, fun j => by show 200000000 < 2 ^ 63; decide⟩
  · rw [hmask]
    rfl
  · -- a flag can be read from an open device only
    refine closeDevice_iff fun hne => ?_
    obtain ⟨j, hj⟩ : ∃ j, probe.flag j = true := by
      by_contra hoff
      refine hne ((maskOf_eq_zero_iff _).mpr fun j => ?_)
      simpa using fun hj => hoff ⟨j, hj⟩
    by_contra hclosed
    rw [AkmProbe.flag, ioctlGet, if_pos (not_le.mp hclosed)] at hj
    cases hj

/-- The driver with its device open for an `ioctl`. -/
def AkmSensor.opened (s : AkmSensor) (fd : Nat) : AkmSensor :=
  if s.mEnabled = 0 then { s with devFd := openDevice s.devFd fd } else s

theorem AkmSensor.Ready.opened {s : AkmSensor} (h : s.Ready) (fd : Nat) :
    0 ≤ (s.opened fd).devFd ∧ (s.opened fd).mEnabled = s.mEnabled
      ∧ (s.opened fd).mDelays = s.mDelays := by
  unfold AkmSensor.opened
  split
  · refine ⟨?_, rfl, rfl⟩
    simp only [openDevice]
    split <;> omega
  · exact ⟨h.mirrors.device.mpr ‹_›, rfl, rfl⟩

theorem AkmSensor.closeUnused_keeps (s : AkmSensor) :
    s.closeUnused.mEnabled = s.mEnabled ∧ s.closeUnused.mDelays = s.mDelays := by
  unfold AkmSensor.closeUnused
  split <;> exact ⟨rfl, rfl⟩

/-- A request to enable or disable that changes something: the driver sets the bit and
gives the device a delay. -/
theorem setEnable_change {s : AkmSensor} (h : s.Ready) {handle en : Int} (fd : Nat) {j : AkmIndex}
    (hwhat : AkmSensor.what handle = some j) (hchange : decide (en ≠ 0) ≠ hasBit s.mEnabled j) :
    (s.setEnable handle en ⟨fd, 0, 0⟩).sensor = ((s.opened fd).setBit j (en ≠ 0)).closeUnused
      ∧ (s.setEnable handle en ⟨fd, 0, 0⟩).delay
        = (((s.opened fd).setBit j (en ≠ 0)).updateDelay ⟨fd, 0, 0⟩).2 := by
  have herr : ioctlErr (s.opened fd).devFd 0 = 0 := if_neg (not_lt.mpr (h.opened fd).1)
  unfold AkmSensor.opened at herr
  unfold AkmSensor.setEnable
  rw [hwhat]
  simp only
  rw [if_pos hchange, if_pos herr]
  exact ⟨rfl, rfl⟩

theorem hasBit_setBit {s : AkmSensor} (h : s.Ready) (fd : Nat) (j : AkmIndex) (on : Bool) :
    hasBit ((s.opened fd).setBit j on).mEnabled
      = Function.update (hasBit s.mEnabled) j on := by
  have hmask : ((s.opened fd).setBit j on).mEnabled
      = maskOf (Function.update (hasBit s.mEnabled) j on) := by
    rw [AkmSensor.setBit, (h.opened fd).2.1]
    nth_rewrite 1 [h.mirrors.enabled]
    exact maskOf_setBit _ j on
  funext i
  rw [hmask, hasBit_maskOf]

/-- A request to enable or disable that changes nothing is not passed on. -/
theorem setEnable_same {s : AkmSensor} {handle en : Int} {io : AkmSensor.Io} {j : AkmIndex}
    (hwhat : AkmSensor.what handle = some j) (hsame : decide (en ≠ 0) = hasBit s.mEnabled j) :
    s.setEnable handle en io = { err := 0, sensor := s } := by
  unfold AkmSensor.setEnable
  rw [hwhat]
  simp only
  rw [if_neg (not_not.mpr hsame)]

/-- **A call does what is asked.** -/
theorem ControlCall.run_requests {s : AkmSensor} (h : s.Ready) (c : ControlCall) :
    (c.run s).sensor.requests = s.requests.after c := by
  cases c with
  | setEnable handle en fd =>
      cases hwhat : AkmSensor.what handle with
      | none => simp [ControlCall.run, AkmSensor.setEnable, AkmRequests.after, hwhat]
      | some j =>
          simp only [ControlCall.run, AkmRequests.after, hwhat]
          by_cases hchange : decide (en ≠ 0) ≠ hasBit s.mEnabled j
          · obtain ⟨hsensor, -⟩ := setEnable_change h fd hwhat hchange
            obtain ⟨henabled, hdelays⟩ :=
              ((s.opened fd).setBit j (decide (en ≠ 0))).closeUnused_keeps
            rw [hsensor, AkmSensor.requests, henabled, hdelays, hasBit_setBit h]
            show AkmRequests.mk _ (s.opened fd).mDelays = _
            rw [(h.opened fd).2.2]
            rfl
          · rw [not_not] at hchange
            rw [setEnable_same hwhat hchange, hchange]
            show s.requests
              = { s.requests with on := Function.update s.requests.on j (s.requests.on j) }
            rw [Function.update_eq_self]
  | setDelay handle ns =>
      cases hwhat : AkmSensor.what handle with
      | none => simp [ControlCall.run, AkmSensor.setDelay, AkmRequests.after, hwhat]
      | some j =>
          simp only [ControlCall.run, AkmSensor.setDelay, AkmRequests.after, hwhat]
          split <;> rfl

theorem AkmSensor.Mirrors.self {s : AkmSensor} {hw : AkmIndex → Bool} (h : s.Mirrors hw) :
    s.Mirrors (hasBit s.mEnabled) := by
  have hhw : hasBit s.mEnabled = hw := by
    funext j
    rw [h.enabled, hasBit_maskOf]
  rw [hhw]
  exact h

theorem ControlCall.run_ready {s : AkmSensor} (h : s.Ready) (c : ControlCall) :
    (c.run s).sensor.Ready := by
  cases c with
  | setEnable handle en fd =>
      refine ⟨(h.mirrors.setEnable handle en ⟨fd, 0, 0⟩).self, fun j => ?_⟩
      have hdelays : (s.requests.after (.setEnable handle en fd)).delays = s.mDelays := by
        rw [AkmRequests.after]
        cases AkmSensor.what handle <;> rfl
      have hrun := congrArg AkmRequests.delays (ControlCall.run_requests h (.setEnable handle en fd))
      rw [hdelays] at hrun
      rw [show (ControlCall.run s (.setEnable handle en fd)).sensor.mDelays = s.mDelays from hrun]
      exact h.delays j
  | setDelay handle ns =>
      rw [ControlCall.run, AkmSensor.setDelay]
      cases AkmSensor.what handle with
      | none => exact h
      | some j =>
          simp only
          split
          · exact h
          · refine ⟨⟨h.mirrors.enabled, h.mirrors.device⟩, fun i => ?_⟩
            show Function.update s.mDelays j ns.toInt.toNat i < 2 ^ 63
            rw [Function.update_apply]
            split
            · have := BitVec.toInt_lt (x := ns)
              omega
            · exact h.delays i

theorem updateDelay_delay {s : AkmSensor} (hne : s.mEnabled ≠ 0) (io : AkmSensor.Io) :
    (s.updateDelay io).2 = some s.delayMs := by
  rw [AkmSensor.updateDelay, if_pos hne]
  rfl

/-- A call that matters gives the device the delay of the driver behind it. -/
theorem ControlCall.run_delay {s : AkmSensor} (h : s.Ready) {c : ControlCall}
    (hchange : s.requests.after c ≠ s.requests) (hne : (c.run s).sensor.mEnabled ≠ 0) :
    (c.run s).delay = some (c.run s).sensor.delayMs := by
  cases c with
  | setEnable handle en fd =>
      cases hwhat : AkmSensor.what handle with
      | none => exact absurd (by simp [AkmRequests.after, hwhat]) hchange
      | some j =>
          by_cases hflip : decide (en ≠ 0) ≠ hasBit s.mEnabled j
          · obtain ⟨hsensor, hdelay⟩ := setEnable_change h fd hwhat hflip
            rw [ControlCall.run] at hne ⊢
            rw [hsensor, (AkmSensor.closeUnused_keeps _).1] at hne
            rw [hdelay, hsensor, updateDelay_delay hne, AkmSensor.closeUnused, if_neg hne]
          · rw [not_not] at hflip
            refine absurd ?_ hchange
            rw [← ControlCall.run_requests h, ControlCall.run, setEnable_same hwhat hflip]
  | setDelay handle ns =>
      cases hwhat : AkmSensor.what handle with
      | none => exact absurd (by simp [AkmRequests.after, hwhat]) hchange
      | some j =>
          by_cases hneg : ns.toInt < 0
          · exact absurd (by simp [AkmRequests.after, hwhat, hneg]) hchange
          · simp only [ControlCall.run, AkmSensor.setDelay, hwhat, if_neg hneg] at hne ⊢
            exact updateDelay_delay
              (s := { s with mDelays := Function.update s.mDelays j ns.toInt.toNat }) hne _

/-- The driver's fields change exactly when the requests do. -/
theorem requests_ne_iff {s s' : AkmSensor} (h : s.Ready) (h' : s'.Ready) :
    s'.requests ≠ s.requests ↔ s'.mEnabled ≠ s.mEnabled ∨ s'.mDelays ≠ s.mDelays := by
  rw [← not_and_or, not_iff_not]
  constructor
  · intro heq
    have hon := congrArg AkmRequests.on heq
    have hdelays := congrArg AkmRequests.delays heq
    refine ⟨?_, hdelays⟩
    rw [h'.mirrors.enabled, h.mirrors.enabled]
    exact congrArg maskOf hon
  · rintro ⟨henabled, hdelays⟩
    rw [AkmSensor.requests, AkmSensor.requests, henabled, hdelays]

theorem givesSmallest_iff {t : AkmTrace} (h : t.sensor.Ready) (c : ControlCall) :
    c.GivesSmallest t ↔ c.Fits t.sensor.requests := by
  have hready := ControlCall.run_ready h c
  have hrequests := ControlCall.run_requests h c
  rw [ControlCall.Fits, ControlCall.Matters, ← hrequests, and_imp, requests_ne_iff h hready]
  refine imp_congr_right fun hchange => ?_
  have hon : (c.run t.sensor).sensor.mEnabled ≠ 0 ↔
      ∃ j, (c.run t.sensor).sensor.requests.on j = true := by
    refine ⟨hready.on, fun ⟨j, hj⟩ hzero => ?_⟩
    have hoff := hready.eq_zero_iff.mp hzero j
    exact absurd (hoff.symm.trans hj) (by decide)
  refine imp_congr_ctx hon fun hsome => ?_
  have hdelay := ControlCall.run_delay h
    (by rw [← hrequests]; exact (requests_ne_iff h hready).mpr hchange) (hon.mpr hsome)
  have hleast := AkmSensor.wanted_div_isLeast hsome hready.delays
  obtain ⟨⟨i, hi, hwanted⟩, hle⟩ := AkmSensor.wanted_isLeast hsome hready.delays
  have hbound : (c.run t.sensor).sensor.wanted < 2 ^ 63 := by
    rw [hwanted]
    exact hready.delays i
  have hlast : (akmNext t c).lastDelay = some (c.run t.sensor).sensor.delayMs := by
    rw [akmNext, hdelay]
    rfl
  rw [hlast]
  constructor
  · rintro ⟨m, hm, heq⟩
    obtain rfl := hm.unique hleast
    have hfits := (AkmSensor.delayMs_eq_iff hbound).mp (Option.some.inj heq)
    exact ⟨i, hi, by rw [hwanted] at hfits; exact hfits⟩
  · rintro ⟨j, hj, hfits⟩
    refine ⟨_, hleast, congrArg some ((AkmSensor.delayMs_eq_iff hbound).mpr ?_)⟩
    exact Nat.lt_of_le_of_lt (hle ⟨j, hj, rfl⟩) hfits

/-- **The sampling period.** For every sequence of control calls: after each one that
matters the device has the smallest delay of the enabled sensors, if and only if at
each one some sensor that is then enabled wants less than 32768 ms. -/
theorem sampling_period_iff (probe : AkmProbe) (calls : List ControlCall) :
    AllSteps akmNext (fun t c => c.GivesSmallest t) (.init probe) calls ↔
      AllSteps akmNext (fun t c => c.Fits t.sensor.requests) (.init probe) calls :=
  allSteps_iff (I := fun t => t.sensor.Ready) (fun _ c h => givesSmallest_iff h c)
    (fun _ c h _ => ControlCall.run_ready h c) (AkmSensor.Ready.init probe)

end

/-- The accelerometer is enabled and then asked for a value every 40 s. -/
def fortySeconds : List ControlCall := [.setEnable 0 1 5, .setDelay 0 40000000000]

theorem forty_seconds_truncated :
    letI : SensorFloat := decimalSensorFloat
    (runFrom akmNext (.init offProbe.akm) fortySeconds).lastDelay = some (-25536)
      ∧ ¬AllSteps akmNext (fun t c => c.GivesSmallest t) (.init offProbe.akm) fortySeconds := by
  let _ : SensorFloat := decimalSensorFloat
  have hlast : (runFrom akmNext (.init offProbe.akm) fortySeconds).lastDelay = some (-25536) := by
    decide +kernel
  refine ⟨hlast, ?_⟩
  rintro ⟨-, hsecond, -⟩
  obtain ⟨m, -, heq⟩ := hsecond (.inr fun h => absurd (congrFun h .accelerometer) (by decide +kernel))
    (by decide +kernel)
  have hneg : ((m : Nat) : Int) = -25536 := Option.some.inj (heq.symm.trans hlast)
  omega

end HtcLeo
