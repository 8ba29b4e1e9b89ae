import HtcLeo.SensorBacklog

/-!
# From the device to the framework (`pollEvents` and the AKM driver)

The framework calls `pollEvents` with an array and takes from it as many
events as the call returns. In between lie the ring of a driver, which
keeps what did not fit, the other drivers, which write into the same
array, and the other threads, which switch sensors on and off.

A run here is one of the threads of `SensorWake` with two records beside
it: the events that the AKM device has given, and the events that the
framework has received. `akm_delivered` compares them: leaving the events
of the other sensors out, the framework receives the reference output of
the stream, in its order and without gaps, and at every wait all of it.
-/

namespace HtcLeo

section

variable [SensorFloat]

/-! ## The records -/

/-- What the framework finds in its array. -/
def PollState.received (st : PollState) : List SensorsEvent :=
  (List.range st.nbEvents.toNat).map fun k : Nat => st.array k

/-- The events that a step takes from the AKM device. -/
def akmTaken (w : WakeState) : WakeEvent → List InputEvent
  | .look round =>
      if w.pc = .driver .akm ∧ w.call.LooksAt .akm then
        w.call.ctx.akm.mInputReader.taken round.akmRead
      else []
  | _ => []

structure PollRun where
  wake : WakeState
  stream : List InputEvent
  output : List SensorsEvent

def PollRun.init (ctx : SensorsPollContext) (array : Int → SensorsEvent) : PollRun :=
  ⟨.init ctx array, [], []⟩

def pollRunStep (cap : Nat) (r : PollRun) (e : WakeEvent) : PollRun where
  wake := wakeStep cap r.wake e
  stream := r.stream ++ akmTaken r.wake e
  output := r.output ++
    if r.wake.pc ≠ .idle ∧ (wakeStep cap r.wake e).pc = .idle then
      (wakeStep cap r.wake e).call.received
    else []

/-- What the framework has received, with what the call in progress has for it. -/
def PollRun.soFar (r : PollRun) : List SensorsEvent :=
  r.output ++ if r.wake.pc = .idle then [] else r.wake.call.received

/-- The event is one of the accelerometer, the magnetic field or the orientation. -/
def SensorsEvent.isAkm (e : SensorsEvent) : Bool := e.sensor = .a || e.sensor = .m || e.sensor = .o

/-- A clean step of a run in which `poll` does not fail and the sensors of the AKM
driver are left as they are. -/
def UndisturbedStep (w : WakeState) (e : WakeEvent) : Prop :=
  CleanStep w e ∧
    match e with
    | .poll (.failed _ _) => False
    | .activate handle _ _ => handleToDriver handle ≠ some .akm
    | _ => True

instance (w : WakeState) : (e : WakeEvent) → Decidable (UndisturbedStep w e)
  | .poll (.failed _ _) => inferInstanceAs (Decidable (_ ∧ False))
  | .poll (.ready _ _) => inferInstanceAs (Decidable (_ ∧ True))
  | .activate _ _ _ => inferInstanceAs (Decidable (_ ∧ _ ≠ _))
  | .pollEvents _ _ | .look _ | .readMessage | .writeMessage | .setDelay .. =>
      inferInstanceAs (Decidable (CleanStep w _ ∧ True))

/-! ## The array of a call -/

/-- The framework finds what the drivers have reported, in their order. -/
theorem PollState.Accounts.received_eq {C : Int} {st : PollState} (hacc : st.Accounts C)
    (hunfailed : st.Unfailed) : st.received = delivered st.results := by
  have hlen : st.nbEvents = (delivered st.results).length := by
    rw [hacc.nbEvents, length_delivered hacc.counted, total_of_nonneg hunfailed.nonneg]
  refine List.ext_getElem? fun k => ?_
  rw [PollState.received, List.getElem?_map, hlen, Int.toNat_natCast]
  by_cases hk : k < (delivered st.results).length
  · rw [List.getElem?_range hk, List.getElem?_eq_getElem hk]
    exact congrArg some (hacc.array hunfailed.nonneg k _ (List.getElem?_eq_getElem hk))
  · rw [List.getElem?_eq_none (by simpa using hk), List.getElem?_eq_none (by simpa using hk)]
    rfl

/-! ## Whose events they are -/

theorem LevelSensor.processEvent_sensor (kind : LevelKind) (s : LevelSensor) (event : InputEvent) :
    (s.processEvent kind event).1.mPendingEvent.sensor = s.mPendingEvent.sensor
      ∧ ∀ e ∈ (s.processEvent kind event).2, e.sensor = s.mPendingEvent.sensor := by
  simp only [LevelSensor.processEvent]
  split_ifs <;> simp [SensorsEvent.stamp]

theorem LevelSensor.readLoop_sensor (kind : LevelKind) (rounds : Nat) (s : LevelSensor)
    (count : Nat) :
    (s.readLoop kind rounds count).1.mPendingEvent.sensor = s.mPendingEvent.sensor
      ∧ ∀ e ∈ (s.readLoop kind rounds count).2, e.sensor = s.mPendingEvent.sensor := by
  induction rounds generalizing s count with
  | zero => exact ⟨rfl, by simp [LevelSensor.readLoop]⟩
  | succ rounds ih =>
      rw [LevelSensor.readLoop]
      split_ifs with hgo
      · simp only
        obtain ⟨hsame, hown⟩ := s.processEvent_sensor kind
          (s.mInputReader.mBuffer s.mInputReader.readEvent.1)
        generalize s.processEvent kind (s.mInputReader.mBuffer s.mInputReader.readEvent.1)
          = out at hsame hown ⊢
        obtain ⟨hrest, hothers⟩ := ih
          { out.1 with mInputReader := out.1.mInputReader.next } (count - out.2.length)
        refine ⟨hrest.trans hsame, fun e he => ?_⟩
        rcases List.mem_append.mp he with hfirst | hlater
        · exact hown e hfirst
        · exact (hothers e hlater).trans hsame
      · exact ⟨rfl, by simp⟩

/-- A driver writes events of its own sensor only. -/
theorem LevelSensor.readEvents_sensor (kind : LevelKind) (s : LevelSensor) (count time : Int)
    (result : ReadResult InputEvent) :
    (s.readEvents kind count time result).2.1.mPendingEvent.sensor = s.mPendingEvent.sensor
      ∧ ∀ e ∈ (s.readEvents kind count time result).2.2, e.sensor = s.mPendingEvent.sensor := by
  unfold LevelSensor.readEvents
  split_ifs with hsmall hpending
  · exact ⟨rfl, by simp⟩
  · exact ⟨rfl, by simp [SensorsEvent.stamp]⟩
  · simp only
    split_ifs
    · exact ⟨rfl, by simp⟩
    · exact LevelSensor.readLoop_sensor kind _ _ _

theorem isAkm_assign {code : Nat} {j : AkmIndex} {assign : Int → SensorsEvent → SensorsEvent}
    (hfield : akmField code = some (j, assign)) (v : Int) (e : SensorsEvent) :
    (assign v e).sensor = e.sensor := by
  obtain ⟨pre, post, hfields, -⟩ := List.lookup_eq_some_iff.mp hfield
  have hmem : (code, j, assign) ∈ akmFields := by
    rw [hfields]
    exact List.mem_append_right _ (List.mem_cons_self ..)
  simp only [akmFields, List.mem_cons, List.not_mem_nil, or_false, Prod.mk.injEq] at hmem
  rcases hmem with ⟨-, -, rfl⟩ | ⟨-, -, rfl⟩ | ⟨-, -, rfl⟩ | ⟨-, -, rfl⟩ | ⟨-, -, rfl⟩ |
    ⟨-, -, rfl⟩ | ⟨-, -, rfl⟩ | ⟨-, -, rfl⟩ | ⟨-, -, rfl⟩ | ⟨-, -, rfl⟩ <;> rfl

/-- The reference output has events of the AKM sensors only. -/
theorem isAkm_akmReference {enabled : Word} {updated : AkmIndex → Bool}
    {latest : AkmIndex → SensorsEvent} (h : ∀ j, (latest j).isAkm = true) (es : List InputEvent) :
    ∀ e ∈ akmReference enabled updated latest es, e.isAkm = true := by
  induction es generalizing updated latest with
  | nil => simp [akmReference]
  | cons event es ih =>
      rw [akmReference]
      split_ifs with habs hsyn
      · cases hfield : akmField event.code with
        | none => exact ih h
        | some field =>
            refine ih fun j => ?_
            by_cases hj : j = field.1
            · subst hj
              rw [Function.update_self, SensorsEvent.isAkm, isAkm_assign hfield]
              exact h field.1
            · rw [Function.update_of_ne hj]
              exact h j
      · intro e he
        rcases List.mem_append.mp he with hemit | hrest
        · obtain ⟨j, -, rfl⟩ := List.mem_map.mp hemit
          exact h j
        · exact ih h e hrest
      · exact ih h

theorem AkmProbe.read_sensor (probe : AkmProbe) (code : Nat)
    (assign : Int → SensorsEvent → SensorsEvent) (e : SensorsEvent)
    (hassign : ∀ v e, (assign v e).sensor = e.sensor) :
    (probe.read code assign e).sensor = e.sensor := by
  unfold AkmProbe.read
  cases probe.absinfo code with
  | none => rfl
  | some v => exact hassign v e

theorem AkmSensor.init_isAkm (probe : AkmProbe) (j : AkmIndex) :
    ((AkmSensor.init probe).mPendingEvents j).isAkm = true := by
  have hsame : (probe.pendingEvent j).sensor = (akmPendingEvent j).sensor := by
    have hread := probe.read_sensor
    cases j with
    | accelerometer =>
        refine (hread _ _ _ ?_).trans ((hread _ _ _ ?_).trans (hread _ _ _ ?_)) <;>
          exact fun _ _ => rfl
    | magneticField =>
        refine (hread _ _ _ ?_).trans ((hread _ _ _ ?_).trans (hread _ _ _ ?_)) <;>
          exact fun _ _ => rfl
    | orientation =>
        refine (hread _ _ _ ?_).trans
          ((hread _ _ _ ?_).trans ((hread _ _ _ ?_).trans (hread _ _ _ ?_))) <;>
          exact fun _ _ => rfl
  simp only [AkmSensor.init]
  split_ifs
  · rw [SensorsEvent.isAkm, hsame]
    cases j <;> rfl
  · cases j <;> rfl

/-! ## One look -/

theorem LevelSensor.readEvents_clean_nonneg (kind : LevelKind) (s : LevelSensor) {count : Int}
    (hcount : 1 ≤ count) (time : Int) {result : ReadResult InputEvent}
    (hclean : if s.mHasPendingEvent = true then ¬ s.mInputReader.readEvent.2 ≠ 0
      else result.Whole s.mInputReader.mFreeSpace) :
    0 ≤ (s.readEvents kind count time result).1 := by
  by_cases hpending : s.mHasPendingEvent = true
  · rw [LevelSensor.readEvents, if_neg (by omega), if_pos hpending]
    simp only
    split_ifs <;> decide
  · rw [if_neg hpending] at hclean
    cases result with
    | error errno => exact hclean.elim
    | data events part =>
        cases part with
        | none => exact s.readEvents_nonneg kind hcount time events
        | some part => exact hclean.elim

/-- The light and the proximity driver have their own sensors in their events. -/
structure SensorsPollContext.Sensors (ctx : SensorsPollContext) : Prop where
  light : ctx.light.mPendingEvent.sensor = .l
  proximity : ctx.proximity.mPendingEvent.sensor = .p

/-- What a look at one of the two drivers does not touch. -/
structure LevelLook (st st' : PollState) : Prop where
  unfailed : st'.Unfailed
  accounts : ∀ C, st.Accounts C → st'.Accounts C
  sensors : st'.ctx.Sensors
  akm : st'.ctx.akm = st.ctx.akm
  quiet : (delivered st'.results).filter SensorsEvent.isAkm
    = (delivered st.results).filter SensorsEvent.isAkm

theorem LevelLook.account {st : PollState} {ctx : SensorsPollContext} {r : DriverResult}
    (hunfailed : st.Unfailed) (hok : r.Ok st.count) (hnb : 0 ≤ r.nb) (hsensors : ctx.Sensors)
    (hakm : ctx.akm = st.ctx.akm) (hother : ∀ e ∈ r.written, e.isAkm = false) :
    LevelLook st (st.account ctx r) where
  unfailed := hunfailed.account ctx hok hnb
  accounts _ hacc := hacc.account ctx hok (hunfailed.account ctx hok hnb).safe
  sensors := hsensors
  akm := hakm
  quiet := by
    rw [PollState.account, delivered_append, List.filter_append]
    have hnone : (r.written.take r.nb.toNat).filter SensorsEvent.isAkm = [] :=
      List.filter_eq_nil_iff.mpr fun e he => by simp [hother e (List.mem_of_mem_take he)]
    rw [hnone, List.append_nil]

theorem pollLight_levelLook {round : PollRound} {st : PollState} (hunfailed : st.Unfailed)
    (hsensors : st.ctx.Sensors) (hclean : CleanLook round st .light) :
    LevelLook st (pollLight round st) := by
  unfold pollLight
  split_ifs with hgo
  · have hpos : 1 ≤ st.count := lt_of_le_of_ne hunfailed.room (Ne.symm hgo.1)
    obtain ⟨hsame, hown⟩ := st.ctx.light.readEvents_sensor lightKind st.count round.lightTime
      round.lightRead
    refine LevelLook.account hunfailed (st.ctx.light.readEvents_ok lightKind hpos _ _)
      (st.ctx.light.readEvents_clean_nonneg lightKind hpos _ (hclean hgo))
      ⟨hsame.trans hsensors.light, hsensors.proximity⟩ rfl fun e he => ?_
    rw [SensorsEvent.isAkm, hown e he, hsensors.light]
    rfl
  · exact ⟨hunfailed, fun _ => id, hsensors, rfl, rfl⟩

theorem pollProximity_levelLook {round : PollRound} {st : PollState} (hunfailed : st.Unfailed)
    (hsensors : st.ctx.Sensors) (hclean : CleanLook round st .proximity) :
    LevelLook st (pollProximity round st) := by
  unfold pollProximity
  split_ifs with hgo
  · have hpos : 1 ≤ st.count := lt_of_le_of_ne hunfailed.room (Ne.symm hgo.1)
    obtain ⟨hsame, hown⟩ := st.ctx.proximity.readEvents_sensor proximityKind st.count
      round.proximityTime round.proximityRead
    refine LevelLook.account hunfailed (st.ctx.proximity.readEvents_ok proximityKind hpos _ _)
      (st.ctx.proximity.readEvents_clean_nonneg proximityKind hpos _ (hclean hgo))
      ⟨hsensors.light, hsame.trans hsensors.proximity⟩ rfl fun e he => ?_
    rw [SensorsEvent.isAkm, hown e he, hsensors.proximity]
    rfl
  · exact ⟨hunfailed, fun _ => id, hsensors, rfl, rfl⟩

/-- What was delivered, followed by the output of what the AKM driver has left to do,
is the output of the stream. -/
def AkmOwes (enabled : Word) (latest₀ : AkmIndex → SensorsEvent) (akm : AkmSensor)
    (stream : List InputEvent) (events : List SensorsEvent) : Prop :=
  ∃ updated latest q, akm.Simulates enabled updated latest q
    ∧ ∀ more, akmReference enabled (fun _ => false) latest₀ (stream ++ more)
      = events.filter SensorsEvent.isAkm ++ akmReference enabled updated latest (q ++ more)

variable {enabled : Word} {latest₀ : AkmIndex → SensorsEvent}

/-- The AKM driver delivers what it owes. -/
theorem AkmOwes.readEvents {akm : AkmSensor} {stream : List InputEvent}
    {events : List SensorsEvent} (h : AkmOwes enabled latest₀ akm stream events)
    (hlatest : ∀ j, (latest₀ j).isAkm = true) {count : Int} (hcount : 1 ≤ count)
    {batch : List InputEvent} (hbatch : batch.length ≤ akm.mInputReader.mFreeSpace) :
    AkmOwes enabled latest₀ (akm.readEvents count (.data batch none)).2.1 (stream ++ batch)
      (events ++ (akm.readEvents count (.data batch none)).2.2) := by
  obtain ⟨updated, latest, q, hsim, href⟩ := h
  obtain ⟨updated', latest', q', hsim', href', -, -⟩ := readEvents_spec hsim hcount hbatch
  refine ⟨updated', latest', q', hsim', fun more => ?_⟩
  have hwhole := href (batch ++ more)
  rw [← List.append_assoc q batch more, href' more] at hwhole
  -- the events are part of the reference output, so none of them is left out
  have hown : (akm.readEvents count (.data batch none)).2.2.filter SensorsEvent.isAkm
      = (akm.readEvents count (.data batch none)).2.2 := by
    refine List.filter_eq_self.mpr fun e he => ?_
    have hmem : e ∈ akmReference enabled (fun _ => false) latest₀ (stream ++ (batch ++ more)) := by
      rw [hwhole]
      exact List.mem_append_right _ (List.mem_append_left _ he)
    exact isAkm_akmReference hlatest _ e hmem
  rw [List.append_assoc stream batch more, hwhole, List.filter_append, hown, List.append_assoc]

theorem pollAkm_owes {round : PollRound} {st : PollState} {stream : List InputEvent}
    {output : List SensorsEvent}
    (h : AkmOwes enabled latest₀ st.ctx.akm stream (output ++ delivered st.results))
    (hlatest : ∀ j, (latest₀ j).isAkm = true) (hunfailed : st.Unfailed)
    (hclean : CleanLook round st .akm) :
    (pollAkm round st).Unfailed ∧ (∀ C, st.Accounts C → (pollAkm round st).Accounts C)
      ∧ (pollAkm round st).ctx.light = st.ctx.light
      ∧ (pollAkm round st).ctx.proximity = st.ctx.proximity
      ∧ AkmOwes enabled latest₀ (pollAkm round st).ctx.akm
        (stream ++ if st.LooksAt .akm then st.ctx.akm.mInputReader.taken round.akmRead else [])
        (output ++ delivered (pollAkm round st).results) := by
  by_cases hgo : st.count ≠ 0 ∧ st.ctx.revents .akm &&& pollIn ≠ 0
  · have hlook : st.LooksAt .akm := ⟨hgo.1, .inl hgo.2⟩
    have hpos : 1 ≤ st.count := lt_of_le_of_ne hunfailed.room (Ne.symm hgo.1)
    have hwhole := hclean hlook
    rw [if_neg (by simp [SensorsPollContext.pending])] at hwhole
    rw [if_pos hlook, pollAkm, if_pos hgo]
    change round.akmRead.Whole st.ctx.akm.mInputReader.mFreeSpace at hwhole
    cases hread : round.akmRead with
    | error errno =>
        rw [hread] at hwhole
        exact hwhole.elim
    | data batch part =>
        cases part with
        | some part =>
            rw [hread] at hwhole
            exact hwhole.elim
        | none =>
            rw [hread] at hwhole
            have hbatch : (batch.length : Int) ≤ st.ctx.akm.mInputReader.mFreeSpace := hwhole
            have hok := st.ctx.akm.readEvents_ok hpos (.data batch none)
            have hnb := st.ctx.akm.readEvents_nonneg hpos batch
            have howes := h.readEvents hlatest hpos hbatch
            obtain ⟨updated, latest, q, hsim, -⟩ := h
            obtain ⟨-, -, -, -, -, -, hall⟩ := readEvents_spec hsim hpos hbatch
            have htaken : st.ctx.akm.mInputReader.taken (.data batch none) = batch := by
              rw [InputEventCircularReader.taken]
              split_ifs with hfree
              · rfl
              · exact (List.length_eq_zero_iff.mp (by omega)).symm
            refine ⟨hunfailed.account _ hok hnb,
              fun _ hacc => hacc.account _ hok (hunfailed.account _ hok hnb).safe, rfl, rfl, ?_⟩
            simp only [htaken, PollState.account, delivered_append, hall, Int.toNat_natCast,
              List.take_length, ← List.append_assoc]
            exact howes
  · have hlook : ¬ st.LooksAt .akm := fun hlook => hgo ⟨hlook.1, hlook.2.resolve_right
      (by simp [SensorsPollContext.pending])⟩
    rw [if_neg hlook, pollAkm, if_neg hgo, List.append_nil]
    exact ⟨hunfailed, fun _ => id, rfl, rfl, h⟩

/-! ## The control threads -/

theorem LevelSensor.closeUnused_event (s : LevelSensor) :
    s.closeUnused.mPendingEvent = s.mPendingEvent := by
  unfold LevelSensor.closeUnused
  split_ifs <;> rfl

theorem LevelSensor.setInitialState_sensor (kind : LevelKind) (absinfo : Option Int)
    (s : LevelSensor) :
    (s.setInitialState kind absinfo).mPendingEvent.sensor = s.mPendingEvent.sensor := by
  cases absinfo <;> rfl

theorem LevelSensor.setEnable_sensor (kind : LevelKind) (s : LevelSensor) (en : Int)
    (io : LevelIo) :
    (s.setEnable kind en io).sensor.mPendingEvent.sensor = s.mPendingEvent.sensor := by
  unfold LevelSensor.setEnable
  dsimp only
  split_ifs <;> simp only [closeUnused_event, setInitialState_sensor]

/-- A call for the light or the proximity sensor. -/
theorem SensorsPollContext.setEnable_level {ctx : SensorsPollContext} {handle : Int}
    (h : handleToDriver handle ≠ some .akm) (enabled : Int) (io : ActivateIo)
    (hsensors : ctx.Sensors) :
    (ctx.setEnable handle enabled io).2.Sensors
      ∧ (ctx.setEnable handle enabled io).2.akm = ctx.akm := by
  have hlight := ctx.light.setEnable_sensor lightKind enabled io.level
  have hproximity := ctx.proximity.setEnable_sensor proximityKind enabled io.level
  unfold SensorsPollContext.setEnable
  cases hdriver : handleToDriver handle with
  | none => exact ⟨hsensors, rfl⟩
  | some d =>
      cases d with
      | light => exact ⟨⟨hlight.trans hsensors.light, hsensors.proximity⟩, rfl⟩
      | proximity => exact ⟨⟨hsensors.light, hproximity.trans hsensors.proximity⟩, rfl⟩
      | akm => exact absurd hdriver h

theorem AkmOwes.setDelay {akm : AkmSensor} {stream : List InputEvent} {events : List SensorsEvent}
    (h : AkmOwes enabled latest₀ akm stream events) (handle ns : Int) (io : AkmSensor.Io) :
    AkmOwes enabled latest₀ (akm.setDelay handle ns io).sensor stream events := by
  obtain ⟨updated, latest, q, hsim, href⟩ := h
  refine ⟨updated, latest, q, ?_, href⟩
  unfold AkmSensor.setDelay
  cases AkmSensor.what handle with
  | none => exact hsim
  | some j =>
      dsimp only
      split_ifs
      · exact hsim
      · exact ⟨hsim.enabled, hsim.mask, hsim.values, hsim.holds⟩

/-- A new delay leaves the levels and what the AKM driver owes. -/
theorem SensorsPollContext.setDelay_level {ctx : SensorsPollContext} {stream : List InputEvent}
    {events : List SensorsEvent} (h : ctx.Sensors)
    (howes : AkmOwes enabled latest₀ ctx.akm stream events) (handle ns : Int)
    (io : AkmSensor.Io) :
    (ctx.setDelay handle ns io).2.Sensors
      ∧ AkmOwes enabled latest₀ (ctx.setDelay handle ns io).2.akm stream events := by
  unfold SensorsPollContext.setDelay
  cases handleToDriver handle with
  | none => exact ⟨h, howes⟩
  | some d =>
      cases d with
      | light => exact ⟨⟨h.light, h.proximity⟩, howes⟩
      | proximity => exact ⟨⟨h.light, h.proximity⟩, howes⟩
      | akm => exact ⟨⟨h.light, h.proximity⟩, howes.setDelay handle ns io⟩

/-! ## Every interleaving -/

structure PollRun.Inv (enabled : Word) (latest₀ : AkmIndex → SensorsEvent) (r : PollRun) :
    Prop where
  drains : r.wake.Drains
  unfailed : r.wake.call.Unfailed
  accounts : ∃ C, r.wake.call.Accounts C
  sensors : r.wake.call.ctx.Sensors
  owes : AkmOwes enabled latest₀ r.wake.call.ctx.akm r.stream r.soFar

/-- While a call is in progress, what it has for the framework is what its drivers have
reported. -/
theorem PollRun.soFar_running {r : PollRun} (hpc : r.wake.pc ≠ .idle)
    (hunfailed : r.wake.call.Unfailed) (hacc : ∃ C, r.wake.call.Accounts C) :
    r.soFar = r.output ++ delivered r.wake.call.results := by
  obtain ⟨C, hacc⟩ := hacc
  rw [PollRun.soFar, if_neg hpc, hacc.received_eq hunfailed]

theorem pollRunStep_soFar (cap : Nat) (r : PollRun) (e : WakeEvent) :
    (pollRunStep cap r e).soFar
      = (r.output ++ if r.wake.pc ≠ .idle ∧ (wakeStep cap r.wake e).pc = .idle then
          (wakeStep cap r.wake e).call.received else [])
        ++ if (wakeStep cap r.wake e).pc = .idle then []
          else (wakeStep cap r.wake e).call.received := rfl

/-- A step of a call in progress: if the call returns, the framework receives that. -/
theorem soFar_step {cap : Nat} {r : PollRun} {e : WakeEvent} (hpc : r.wake.pc ≠ .idle)
    (hunfailed : (wakeStep cap r.wake e).call.Unfailed)
    (hacc : ∃ C, (wakeStep cap r.wake e).call.Accounts C) :
    (pollRunStep cap r e).soFar
      = r.output ++ delivered (wakeStep cap r.wake e).call.results := by
  obtain ⟨C, hacc⟩ := hacc
  rw [pollRunStep_soFar, hacc.received_eq hunfailed]
  by_cases hreturn : (wakeStep cap r.wake e).pc = .idle
  · rw [if_pos ⟨hpc, hreturn⟩, if_pos hreturn, List.append_nil]
  · rw [if_neg (fun h => hreturn h.2), if_neg hreturn, List.append_nil]

/-- A step that changes neither where the poll thread is nor what it has reported. -/
theorem PollRun.Inv.still {cap : Nat} {r : PollRun} {e : WakeEvent}
    (h : r.Inv enabled latest₀) (ctx : SensorsPollContext)
    (hdrains : (wakeStep cap r.wake e).Drains)
    (hpc : (wakeStep cap r.wake e).pc = r.wake.pc) (htaken : akmTaken r.wake e = [])
    (hcall : (wakeStep cap r.wake e).call = { r.wake.call with ctx := ctx })
    (hsensors : ctx.Sensors)
    (howes : AkmOwes enabled latest₀ ctx.akm r.stream r.soFar) :
    (pollRunStep cap r e).Inv enabled latest₀ where
  drains := hdrains
  unfailed := by
    change (wakeStep cap r.wake e).call.Unfailed
    rw [hcall]
    exact h.unfailed.withCtx ctx
  accounts := by
    obtain ⟨C, hacc⟩ := h.accounts
    refine ⟨C, ?_⟩
    change (wakeStep cap r.wake e).call.Accounts C
    rw [hcall]
    exact hacc.withCtx ctx
  sensors := by
    change (wakeStep cap r.wake e).call.ctx.Sensors
    rw [hcall]
    exact hsensors
  owes := by
    have hsame : (pollRunStep cap r e).soFar = r.soFar := by
      have hnot : ¬ (r.wake.pc ≠ .idle ∧ r.wake.pc = .idle) := fun hboth => hboth.1 hboth.2
      rw [pollRunStep_soFar, hpc, hcall, if_neg hnot, List.append_nil]
      rfl
    rw [hsame]
    change AkmOwes enabled latest₀ (wakeStep cap r.wake e).call.ctx.akm
      (r.stream ++ akmTaken r.wake e) r.soFar
    rw [hcall, htaken, List.append_nil]
    exact howes

/-- A step that was not enabled. -/
theorem PollRun.Inv.unmoved {cap : Nat} {r : PollRun} {e : WakeEvent} (h : r.Inv enabled latest₀)
    (hwake : wakeStep cap r.wake e = r.wake) (htaken : akmTaken r.wake e = []) :
    (pollRunStep cap r e).Inv enabled latest₀ :=
  h.still r.wake.call.ctx (by rw [hwake]; exact h.drains) (by rw [hwake]) htaken (by rw [hwake])
    h.sensors h.owes

/-- A step of a call in progress that has nothing to do with the AKM driver. -/
theorem PollRun.Inv.level {cap : Nat} {r : PollRun} {e : WakeEvent} (h : r.Inv enabled latest₀)
    (hpc : r.wake.pc ≠ .idle) (hdrains : (wakeStep cap r.wake e).Drains)
    (hlook : LevelLook r.wake.call (wakeStep cap r.wake e).call) (htaken : akmTaken r.wake e = []) :
    (pollRunStep cap r e).Inv enabled latest₀ := by
  obtain ⟨C, hacc⟩ := h.accounts
  have hacc' : ∃ C, (wakeStep cap r.wake e).call.Accounts C := ⟨C, hlook.accounts C hacc⟩
  refine ⟨hdrains, hlook.unfailed, hacc', hlook.sensors, ?_⟩
  have howes := h.owes
  rw [r.soFar_running hpc h.unfailed ⟨C, hacc⟩] at howes
  obtain ⟨updated, latest, q, hsim, href⟩ := howes
  rw [soFar_step hpc hlook.unfailed hacc']
  change AkmOwes enabled latest₀ (wakeStep cap r.wake e).call.ctx.akm
    (r.stream ++ akmTaken r.wake e) _
  rw [htaken, List.append_nil, hlook.akm]
  refine ⟨updated, latest, q, hsim, fun more => ?_⟩
  rw [href more, List.filter_append, List.filter_append, hlook.quiet]

/-- The call goes on with the same results. -/
theorem LevelLook.withCtx {st : PollState} (ctx : SensorsPollContext) (hunfailed : st.Unfailed)
    (hsensors : ctx.Sensors) (hakm : ctx.akm = st.ctx.akm) :
    LevelLook st { st with ctx := ctx } :=
  ⟨hunfailed.withCtx ctx, fun _ hacc => hacc.withCtx ctx, hsensors, hakm, rfl⟩

/-- The AKM driver is looked at. -/
theorem PollRun.Inv.lookAkm {cap : Nat} {r : PollRun} {round : PollRound}
    (h : r.Inv enabled latest₀) (hlatest : ∀ j, (latest₀ j).isAkm = true)
    (hpc : r.wake.pc = .driver .akm) (hdrains : (wakeStep cap r.wake (.look round)).Drains)
    (hclean : CleanLook round r.wake.call .akm) :
    (pollRunStep cap r (.look round)).Inv enabled latest₀ := by
  have hrunning : r.wake.pc ≠ .idle := by
    rw [hpc]
    intro heq
    cases heq
  have hcall : (wakeStep cap r.wake (.look round)).call = pollAkm round r.wake.call := by
    simp only [wakeStep, hpc]
  have howes := h.owes
  rw [r.soFar_running hrunning h.unfailed h.accounts] at howes
  obtain ⟨hunfailed, hacc, hlight, hproximity, howes'⟩ :=
    pollAkm_owes howes hlatest h.unfailed hclean
  rw [← hcall] at hunfailed hacc hlight hproximity howes'
  obtain ⟨C, hC⟩ := h.accounts
  refine ⟨hdrains, hunfailed, ⟨C, hacc C hC⟩, ⟨?_, ?_⟩, ?_⟩
  · change (wakeStep cap r.wake (.look round)).call.ctx.light.mPendingEvent.sensor = .l
    rw [hlight]
    exact h.sensors.light
  · change (wakeStep cap r.wake (.look round)).call.ctx.proximity.mPendingEvent.sensor = .p
    rw [hproximity]
    exact h.sensors.proximity
  · rw [soFar_step hrunning hunfailed ⟨C, hacc C hC⟩]
    change AkmOwes enabled latest₀ (wakeStep cap r.wake (.look round)).call.ctx.akm
      (r.stream ++ akmTaken r.wake (.look round)) _
    simp only [akmTaken, hpc, true_and]
    exact howes'

/-- The drivers are looked at in turn. -/
theorem PollRun.Inv.look {cap : Nat} {r : PollRun} {round : PollRound}
    (h : r.Inv enabled latest₀) (hlatest : ∀ j, (latest₀ j).isAkm = true)
    (hdrains : (wakeStep cap r.wake (.look round)).Drains)
    (hclean : CleanAt round r.wake.call r.wake.pc) :
    (pollRunStep cap r (.look round)).Inv enabled latest₀ := by
  cases hpc : r.wake.pc with
  | driver d =>
      rw [hpc] at hclean
      have hrunning : r.wake.pc ≠ .idle := by
        rw [hpc]
        intro heq
        cases heq
      cases d with
      | light =>
          refine h.level hrunning hdrains ?_ (by simp [akmTaken, hpc])
          simp only [wakeStep, hpc]
          exact pollLight_levelLook h.unfailed h.sensors hclean
      | proximity =>
          refine h.level hrunning hdrains ?_ (by simp [akmTaken, hpc])
          simp only [wakeStep, hpc]
          exact pollProximity_levelLook h.unfailed h.sensors hclean
      | akm => exact h.lookAkm hlatest hpc hdrains hclean
  | _ => exact h.unmoved (by simp only [wakeStep, hpc]) (by simp [akmTaken, hpc])

/-- A call begins with nothing to report. -/
theorem PollRun.Inv.beginCall {cap : Nat} {r : PollRun} {array : Int → SensorsEvent} {count : Int}
    (h : r.Inv enabled latest₀) (hpc : r.wake.pc = .idle) (hint : IsInt count) (hcount : 0 ≤ count)
    (hdrains : (wakeStep cap r.wake (.pollEvents array count)).Drains) :
    (pollRunStep cap r (.pollEvents array count)).Inv enabled latest₀ := by
  have hwake : wakeStep cap r.wake (.pollEvents array count)
      = { r.wake with call := .begin r.wake.call.ctx array count, pc := .driver .light } := by
    rw [wakeStep, if_pos ⟨hpc, hint⟩]
  refine ⟨hdrains, ?_, ⟨count, ?_⟩, ?_, ?_⟩
  · change (wakeStep cap r.wake (.pollEvents array count)).call.Unfailed
    rw [hwake]
    exact PollState.begin_unfailed r.wake.call.ctx array hcount hint.2
  · change (wakeStep cap r.wake (.pollEvents array count)).call.Accounts count
    rw [hwake]
    exact PollState.begin_accounts r.wake.call.ctx array hcount
  · change (wakeStep cap r.wake (.pollEvents array count)).call.ctx.Sensors
    rw [hwake]
    exact h.sensors
  · have hsame : (pollRunStep cap r (.pollEvents array count)).soFar = r.soFar := by
      rw [pollRunStep_soFar, hwake, PollRun.soFar, if_neg (fun hboth => hboth.1 hpc),
        if_pos hpc, if_neg (by intro heq; cases heq), List.append_nil]
      exact List.append_nil _
    rw [hsame]
    change AkmOwes enabled latest₀
      (wakeStep cap r.wake (.pollEvents array count)).call.ctx.akm (r.stream ++ []) _
    rw [hwake, List.append_nil]
    exact h.owes

theorem pollRunStep_inv (cap : Nat) (hlatest : ∀ j, (latest₀ j).isAkm = true) (r : PollRun)
    (e : WakeEvent) (h : r.Inv enabled latest₀) (hstep : UndisturbedStep r.wake e) :
    (pollRunStep cap r e).Inv enabled latest₀ := by
  have hdrains := wakeStep_drains cap r.wake e h.drains hstep.1
  have hrest : ∀ {pc : WakePc}, r.wake.pc = pc → pc ≠ .idle → r.wake.pc ≠ .idle :=
    fun hpc hne => hpc ▸ hne
  cases e with
  | pollEvents array count =>
      by_cases hgo : r.wake.pc = .idle ∧ IsInt count
      · exact h.beginCall hgo.1 hgo.2 hstep.1 hdrains
      · exact h.unmoved (by rw [wakeStep, if_neg hgo]) rfl
  | look round => exact h.look hlatest hdrains hstep.1
  | poll result =>
      cases result with
      | failed errno hpos => exact hstep.2.elim
      | ready n revents =>
          by_cases hpc : r.wake.pc = .poll
          · refine h.level (hrest hpc (by intro heq; cases heq)) hdrains ?_ rfl
            simp only [wakeStep, if_pos hpc]
            exact LevelLook.withCtx _ h.unfailed ⟨h.sensors.light, h.sensors.proximity⟩ rfl
          · exact h.unmoved (by rw [wakeStep, if_neg hpc]) rfl
  | readMessage =>
      cases hpc : r.wake.pc with
      | wake n =>
          refine h.level (hrest hpc (by intro heq; cases heq)) hdrains ?_ rfl
          simp only [wakeStep, hpc]
          exact LevelLook.withCtx r.wake.call.ctx h.unfailed h.sensors rfl
      | _ => exact h.unmoved (by simp only [wakeStep, hpc]) rfl
  | activate handle en io =>
      obtain ⟨hsensors, hakm⟩ :=
        SensorsPollContext.setEnable_level hstep.2 en io h.sensors
      exact h.still _ hdrains rfl rfl rfl hsensors (by rw [hakm]; exact h.owes)
  | writeMessage =>
      refine h.still r.wake.call.ctx hdrains ?_ rfl ?_ h.sensors h.owes
      · rw [wakeStep]
        split_ifs <;> rfl
      · rw [wakeStep]
        split_ifs <;> rfl
  | setDelay handle ns io =>
      obtain ⟨hsensors, howes⟩ := SensorsPollContext.setDelay_level h.sensors h.owes handle ns io
      exact h.still _ hdrains rfl rfl rfl hsensors howes

/-! ## From the constructors on -/

theorem LevelSensor.lightInit_sensor (probe : LevelProbe) :
    (lightInit probe).mPendingEvent.sensor = .l := by
  unfold lightInit
  rw [closeUnused_event]
  split
  · split_ifs
    · rw [setInitialState_sensor]
      rfl
    · rfl
  · rfl

theorem LevelSensor.proximityInit_sensor (probe : LevelProbe) :
    (proximityInit probe).mPendingEvent.sensor = .p := by
  unfold proximityInit
  rw [closeUnused_event]
  split
  · simp only
    split_ifs
    · rw [setInitialState_sensor]
      rfl
    · rfl
  · rfl

/-- The output of a stream, from the constructor of the AKM driver on. -/
def AkmProbe.output (probe : AkmProbe) (stream : List InputEvent) : List SensorsEvent :=
  akmReference (AkmSensor.init probe).mEnabled (fun _ => false)
    (AkmSensor.init probe).mPendingEvents stream

def PollRun.start (light proximity : LevelProbe) (akm : AkmProbe) (array : Int → SensorsEvent) :
    PollRun :=
  .init (.init light proximity akm) array

theorem PollRun.start_inv (light proximity : LevelProbe) (akm : AkmProbe)
    (array : Int → SensorsEvent) :
    (PollRun.start light proximity akm array).Inv (AkmSensor.init akm).mEnabled
      (AkmSensor.init akm).mPendingEvents where
  drains := WakeState.init_drains light proximity akm array
  unfailed := PollState.begin_unfailed _ array le_rfl (by decide)
  accounts := ⟨0, PollState.begin_accounts _ array le_rfl⟩
  sensors := ⟨LevelSensor.lightInit_sensor light, LevelSensor.proximityInit_sensor proximity⟩
  owes := by
    have hmask : (0 : Word) = maskOf fun _ => false :=
      ((maskOf_eq_zero_iff fun _ => false).mpr fun _ => rfl).symm
    exact ⟨_, _, [], ⟨rfl, hmask, .refl _, SensorsPollContext.init_holds light proximity akm .akm⟩,
      fun _ => rfl⟩

/-- What was received is what the stream gives, up to what the driver has left to do. -/
theorem PollRun.Inv.received {r : PollRun} (h : r.Inv enabled latest₀) :
    r.soFar.filter SensorsEvent.isAkm
      <+: akmReference enabled (fun _ => false) latest₀ r.stream := by
  obtain ⟨updated, latest, q, -, href⟩ := h.owes
  rw [← List.append_nil r.stream, href []]
  exact List.prefix_append _ _

/-- A driver whose ring is empty has nothing left to do. -/
theorem PollRun.Inv.received_all {r : PollRun} (h : r.Inv enabled latest₀)
    (hempty : ¬ r.wake.call.ctx.Leftover .akm) :
    r.soFar.filter SensorsEvent.isAkm
      = akmReference enabled (fun _ => false) latest₀ r.stream := by
  obtain ⟨updated, latest, q, hsim, href⟩ := h.owes
  have hq : q = [] := by
    by_contra hne
    exact hempty (hsim.holds.readEvent_ne_zero_iff.mpr hne)
  rw [← List.append_nil r.stream, href [], hq]
  exact (List.append_nil _).symm

end

/-! ## Two accelerations and an array of one event -/

def accelerationAkm : AkmProbe :=
  ⟨5, fun j => if j = .accelerometer then some 1 else none, fun _ => none,
    fun _ => ⟨0, 0, 0, 0, 0⟩⟩

def akmRound (events : List InputEvent) : PollRound :=
  { quietRound with akmRead := .data events none }

/-- The first call returns with the second event still in the ring; the light sensor is
switched on while the third one is about to sleep. -/
def twoAccelerations [SensorFloat] (array : Int → SensorsEvent) : List WakeEvent :=
  [.pollEvents array 1, .look quietRound, .look quietRound, .look quietRound,
    .poll (.ready 1 fun fd => if fd = .akm then pollIn else 0),
    .look quietRound, .look quietRound,
    .look (akmRound [⟨7, 0, evAbs, eventTypeAccelX, 3⟩, ⟨7, 0, evSyn, 0, 0⟩,
      ⟨8, 0, evAbs, eventTypeAccelX, 4⟩, ⟨8, 0, evSyn, 0, 0⟩]),
    .pollEvents array 1, .look quietRound, .look quietRound, .look quietRound,
    .pollEvents array 1, .look quietRound, .look quietRound,
    .activate 4 1 ⟨⟨6, 0, none⟩, ⟨0, 0, 0⟩⟩, .look quietRound]

end HtcLeo
