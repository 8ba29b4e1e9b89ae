import HtcLeo.SensorPoll
import HtcLeo.SensorEnable
import HtcLeo.Runs

/-!
# Waking the poll thread (`sensors_poll_context_t::activate`)

One thread calls `pollEvents` again and again while others call
`activate` and `setDelay`. Enabling the light or the proximity sensor
leaves a pending event in the driver, which is no input and so does not
end a `poll`: `activate` writes a message to the wake pipe after it. The
message can come before the poll thread looks at the drivers, between two
of them or when it is in `poll` already, and messages of several calls
can be read at once or be refused by a full pipe.

A step here is one call of a driver, one system call on the pipe, or one
`poll`, with any answer. Without the other threads these steps are the
loop of `pollEvents` (`poll_thread_runs_pollLoop`). A call in which an
`int` overflows has no meaning in C++, and the poll thread takes no step
after that.

`no_lost_wakeup` says that a poll thread which sleeps without a time
limit has been told about every pending event: a message is in the pipe,
or a call of `activate` is about to write one.
-/

namespace HtcLeo

section

variable [SensorFloat]

/-! ## The threads -/

/-- The constructor, with what those of the drivers find. -/
def SensorsPollContext.init (light proximity : LevelProbe) (akm : AkmProbe) :
    SensorsPollContext where
  light := .lightInit light
  proximity := .proximityInit proximity
  akm := .init akm
  revents _ := 0

/-- The drivers in the order of `mSensors`. -/
inductive SensorDriver where
  | light
  | proximity
  | akm
deriving DecidableEq, Repr

/-- `none` is `-EINVAL`. -/
def handleToDriver (handle : Int) : Option SensorDriver :=
  if handle = SensorId.handle .a ∨ handle = SensorId.handle .m ∨ handle = SensorId.handle .o then
    some .akm
  else if handle = SensorId.handle .p then some .proximity
  else if handle = SensorId.handle .l then some .light
  else none

/-- The answers to `setEnable` of whichever driver is called. -/
structure ActivateIo where
  level : LevelIo
  akm : AkmSensor.Io

/-- `activate` up to the wake message: what it returns, and the drivers. -/
def SensorsPollContext.setEnable (ctx : SensorsPollContext) (handle enabled : Int)
    (io : ActivateIo) : Int × SensorsPollContext :=
  match handleToDriver handle with
  | none => (-einval, ctx)
  | some .light =>
      let r := ctx.light.lightSetEnable enabled io.level
      (r.err, { ctx with light := r.sensor })
  | some .proximity =>
      let r := ctx.proximity.proximitySetEnable enabled io.level
      (r.err, { ctx with proximity := r.sensor })
  | some .akm =>
      let r := ctx.akm.setEnable handle enabled io.akm
      (r.err, { ctx with akm := r.sensor })

/-- Only the AKM driver has a delay; the others inherit `SensorBase::setDelay`. -/
def SensorsPollContext.setDelay (ctx : SensorsPollContext) (handle ns : Int) (io : AkmSensor.Io) :
    Int × SensorsPollContext :=
  match handleToDriver handle with
  | none => (-einval, ctx)
  | some .akm =>
      let r := ctx.akm.setDelay handle ns io
      (r.err, { ctx with akm := r.sensor })
  | some _ => (0, ctx)

/-- Where the poll thread is. -/
inductive WakePc where
  /-- Between two calls of `pollEvents`. -/
  | idle
  /-- About to look at a driver. -/
  | driver (d : SensorDriver)
  | poll
  /-- `poll` has returned `n` and reported the wake pipe. -/
  | wake (n : Nat)
  /-- An `int` of the call has overflowed. -/
  | overflowed
deriving DecidableEq, Repr

structure WakeState where
  /-- The drivers, with the call in progress or the last one. -/
  call : PollState
  pc : WakePc
  /-- Messages in the wake pipe. -/
  pipe : Nat
  /-- Calls of `activate` that are about to write their message. -/
  writers : Nat

inductive WakeEvent where
  | pollEvents (array : Int → SensorsEvent) (count : Int)
  /-- The poll thread looks at the next driver. -/
  | look (round : PollRound)
  | poll (result : PollResult)
  | readMessage
  | activate (handle enabled : Int) (io : ActivateIo)
  | writeMessage
  | setDelay (handle ns : Int) (io : AkmSensor.Io)

def WakeState.init (ctx : SensorsPollContext) (array : Int → SensorsEvent) : WakeState :=
  ⟨.begin ctx array 0, .idle, 0, 0⟩

/-- `while (n && count)`, with room in the array. -/
def pcAfterPoll (n : Nat) : WakePc := if n ≠ 0 then .driver .light else .idle

/-- Where the poll thread goes when a driver has returned. -/
def PollState.goOn (call : PollState) (pc : WakePc) : WakePc :=
  if call.overflow then .overflowed else pc

/-- One step of one of the threads; a step that its thread cannot take changes
nothing. The pipe holds `cap` messages and refuses more. -/
def wakeStep (cap : Nat) (w : WakeState) : WakeEvent → WakeState
  | .pollEvents array count =>
      if w.pc = .idle ∧ IsInt count then
        { w with call := .begin w.call.ctx array count, pc := .driver .light }
      else w
  | .look round =>
      match w.pc with
      | .driver .light =>
          let call := pollLight round w.call
          { w with call := call, pc := call.goOn (.driver .proximity) }
      | .driver .proximity =>
          let call := pollProximity round w.call
          { w with call := call, pc := call.goOn (.driver .akm) }
      | .driver .akm =>
          let call := pollAkm round w.call
          { w with call := call, pc := call.goOn (if call.count ≠ 0 then .poll else .idle) }
      | _ => w
  | .poll result =>
      if w.pc = .poll then
        match result with
        | .failed _ _ => { w with pc := .idle }
        | .ready n revents =>
            { w with
              call := w.call.polled revents
              pc := if revents .wake &&& pollIn ≠ 0 then .wake n else pcAfterPoll n }
      else w
  | .readMessage =>
      match w.pc with
      | .wake n => { w with pipe := w.pipe - 1, pc := pcAfterPoll n }
      | _ => w
  | .activate handle enabled io =>
      let r := w.call.ctx.setEnable handle enabled io
      { w with
        call := { w.call with ctx := r.2 }
        writers := if enabled ≠ 0 ∧ r.1 = 0 then w.writers + 1 else w.writers }
  | .writeMessage =>
      if w.writers ≠ 0 then
        { w with writers := w.writers - 1, pipe := if w.pipe < cap then w.pipe + 1 else w.pipe }
      else w
  | .setDelay handle ns io =>
      { w with call := { w.call with ctx := (w.call.ctx.setDelay handle ns io).2 } }

/-! ## The poll thread alone -/

/-- The steps of the poll thread in one round of its loop. -/
def roundEvents (round : PollRound) : List WakeEvent :=
  [.look round, .look round, .look round, .poll round.poll, .readMessage]

/-- A call that has returned takes no more steps. -/
theorem idle_rounds (cap : Nat) {w : WakeState} (hidle : w.pc = .idle) (rounds : List PollRound) :
    runFrom (wakeStep cap) w (rounds.flatMap roundEvents) = w := by
  induction rounds with
  | nil => rfl
  | cons round rounds ih =>
      rw [List.flatMap_cons, runFrom_append]
      have hround : runFrom (wakeStep cap) w (roundEvents round) = w := by
        simp [roundEvents, wakeStep, hidle]
      rw [hround]
      exact ih

/-- An overflow is not undone. -/
theorem pollLight_safe {round : PollRound} {st : PollState}
    (h : (pollLight round st).overflow = false) : st.overflow = false := by
  unfold pollLight at h
  split_ifs at h
  · exact (PollState.account_exact h).1
  · exact h

theorem pollProximity_safe {round : PollRound} {st : PollState}
    (h : (pollProximity round st).overflow = false) : st.overflow = false := by
  unfold pollProximity at h
  split_ifs at h
  · exact (PollState.account_exact h).1
  · exact h

theorem pollAkm_safe {round : PollRound} {st : PollState}
    (h : (pollAkm round st).overflow = false) : st.overflow = false := by
  unfold pollAkm at h
  split_ifs at h
  · exact (PollState.account_exact h).1
  · exact h

theorem pollDrivers_safe {round : PollRound} {st : PollState}
    (h : (pollDrivers round st).overflow = false) : st.overflow = false :=
  pollLight_safe (pollProximity_safe (pollAkm_safe h))

/-- A loop without an overflow had none in its first round. -/
theorem pollLoop_safe_round {round : PollRound} {rounds : List PollRound} {st : PollState}
    (h : (pollLoop (round :: rounds) st).state.overflow = false) :
    (pollDrivers round st).overflow = false := by
  induction rounds generalizing round st with
  | nil =>
      rw [pollLoop] at h
      split_ifs at h
      · split at h
        · exact h
        · split_ifs at h <;> exact h
      · exact h
  | cons next rounds ih =>
      rw [pollLoop] at h
      split_ifs at h
      · split at h
        · exact h
        · rename_i n revents _
          split_ifs at h
          · have hnext : ((pollDrivers round st).polled revents).overflow = false :=
              pollDrivers_safe (ih h)
            exact hnext
          · exact h
      · exact h

/-- One round: the drivers, then `poll` and the message as far as they are reached. -/
theorem round_run (cap : Nat) {w : WakeState} (hpc : w.pc = .driver .light) (round : PollRound)
    (hsafe : (pollDrivers round w.call).overflow = false) :
    ∃ pipe, runFrom (wakeStep cap) w (roundEvents round) =
      (let call := pollDrivers round w.call
      if call.count ≠ 0 then
        match round.poll with
        | .failed _ _ => ⟨call, .idle, pipe, w.writers⟩
        | .ready n revents => ⟨call.polled revents, pcAfterPoll n, pipe, w.writers⟩
      else ⟨call, .idle, pipe, w.writers⟩) := by
  obtain ⟨call, pc, pipe, writers⟩ := w
  subst hpc
  have hproximity := pollAkm_safe hsafe
  have hlight := pollProximity_safe hproximity
  simp only [pollDrivers] at hsafe
  simp only [roundEvents, runFrom_cons, runFrom_nil, wakeStep, PollState.goOn, hlight, hproximity,
    hsafe, Bool.false_eq_true, if_false]
  change ∃ p, _ = (if (pollDrivers round call).count ≠ 0 then _ else _)
  have hdrivers : pollAkm round (pollProximity round (pollLight round call))
      = pollDrivers round call := rfl
  simp only [hdrivers]
  by_cases hcount : (pollDrivers round call).count ≠ 0
  · simp only [if_pos hcount]
    cases hpoll : round.poll with
    | failed errno hpos => exact ⟨pipe, by simp⟩
    | ready n revents =>
        by_cases hwake : revents .wake &&& pollIn ≠ 0
        · exact ⟨pipe - 1, by simp only [if_true, if_pos hwake]⟩
        · refine ⟨pipe, ?_⟩
          simp only [if_true, if_neg hwake, pcAfterPoll]
          by_cases hn : n ≠ 0
          · simp [if_pos hn]
          · simp [if_neg hn]
  · simp only [if_neg hcount]
    exact ⟨pipe, by simp⟩

/-- Without the other threads, and without an overflow, the steps are the loop of
`pollEvents`. -/
theorem poll_thread_runs_pollLoop (cap : Nat) (rounds : List PollRound) (w : WakeState)
    (hpc : w.pc = .driver .light) (hsafe : (pollLoop rounds w.call).state.overflow = false) :
    (runFrom (wakeStep cap) w (rounds.flatMap roundEvents)).call
      = (pollLoop rounds w.call).state := by
  induction rounds generalizing w with
  | nil => rfl
  | cons round rounds ih =>
      obtain ⟨pipe, hround⟩ := round_run cap hpc round (pollLoop_safe_round hsafe)
      rw [pollLoop] at hsafe
      rw [List.flatMap_cons, runFrom_append, hround, pollLoop]
      simp only
      by_cases hcount : (pollDrivers round w.call).count ≠ 0
      · simp only [if_pos hcount]
        cases hpoll : round.poll with
        | failed errno hpos => simp only; rw [idle_rounds cap rfl]
        | ready n revents =>
            simp only
            by_cases hn : n ≠ 0
            · simp only [if_pos hcount, hpoll, if_pos hn] at hsafe
              rw [if_pos hn]
              exact ih _ (by simp only [pcAfterPoll, if_pos hn]) hsafe
            · rw [if_neg hn, idle_rounds cap (by simp only [pcAfterPoll, if_neg hn])]
      · simp only [if_neg hcount]
        rw [idle_rounds cap rfl]

/-! ## Looking at a driver -/

/-- Whether a driver has an event to send without input. -/
def SensorsPollContext.pending (ctx : SensorsPollContext) : SensorDriver → Bool
  | .light => ctx.light.hasPendingEvents
  | .proximity => ctx.proximity.hasPendingEvents
  | .akm => false

/-- What looking at the driver `d` does to a call. A driver that is given room
sends its pending event, and none takes more room than it was given. -/
structure Looked (d : SensorDriver) (st st' : PollState) : Prop where
  others : ∀ d', d' ≠ d → st'.ctx.pending d' = st.ctx.pending d'
  total : st'.nbEvents + st'.count = st.nbEvents + st.count
  full : st.count = 0 → st'.count = 0
  room : 0 ≤ st.count → 0 ≤ st'.count
  /-- Every driver refuses a negative count. -/
  refused : st.count < 0 → st'.nbEvents ≤ st.nbEvents
  sent : st'.ctx.pending d = true →
    st.count = 0 ∨ st.count < 0 ∧ st'.nbEvents < st.nbEvents

/-- A driver that is left alone. -/
theorem Looked.skip {d : SensorDriver} {st : PollState}
    (h : st.count = 0 ∨ st.ctx.pending d = false) : Looked d st st where
  others _ _ := rfl
  total := rfl
  full := id
  room := id
  refused _ := le_rfl
  sent hpending := by
    rcases h with hfull | hnone
    · exact .inl hfull
    · rw [hnone] at hpending
      cases hpending

/-- A driver that has returned `r`, with a pending event left only when it was
refused. -/
theorem Looked.account {d : SensorDriver} {st : PollState} {ctx : SensorsPollContext}
    {r : DriverResult} (hcount : st.count ≠ 0) (hrefused : st.count < 0 → r.nb < 0)
    (hok : 1 ≤ st.count → r.Ok st.count)
    (hothers : ∀ d', d' ≠ d → ctx.pending d' = st.ctx.pending d')
    (hsent : 1 ≤ st.count → ctx.pending d = false)
    (hsafe : (st.account ctx r).overflow = false) : Looked d st (st.account ctx r) := by
  obtain ⟨-, hleft, hnb⟩ := PollState.account_exact hsafe
  refine ⟨hothers, by omega, fun hfull => absurd hfull hcount, fun hroom => ?_, fun hneg => ?_,
    fun hpending => ?_⟩
  · rw [hleft]
    exact (hok (by omega)).left hroom
  · have := hrefused hneg
    omega
  · rcases lt_or_gt_of_ne hcount with hneg | hpos
    · have := hrefused hneg
      exact .inr ⟨hneg, by omega⟩
    · rw [show (st.account ctx r).ctx = ctx from rfl, hsent (by omega)] at hpending
      cases hpending

omit [SensorFloat] in
theorem neg_einval_neg : -einval < 0 := by decide

theorem LevelSensor.readEvents_refused (kind : LevelKind) (s : LevelSensor) {count : Int}
    (hcount : count < 0) (time : Int) (result : ReadResult InputEvent) :
    (s.readEvents kind count time result).1 < 0 := by
  rw [LevelSensor.readEvents, if_pos (by omega)]
  exact neg_einval_neg

theorem AkmSensor.readEvents_refused (s : AkmSensor) {count : Int} (hcount : count < 0)
    (result : ReadResult InputEvent) : (s.readEvents count result).1 < 0 := by
  rw [AkmSensor.readEvents, if_pos (by omega)]
  exact neg_einval_neg

theorem LevelSensor.processEvent_pending (kind : LevelKind) (s : LevelSensor) (event : InputEvent) :
    (s.processEvent kind event).1.mHasPendingEvent = s.mHasPendingEvent := by
  simp only [LevelSensor.processEvent]
  split_ifs <;> rfl

theorem LevelSensor.readLoop_pending (kind : LevelKind) (rounds : Nat) (s : LevelSensor)
    (count : Nat) : (s.readLoop kind rounds count).1.mHasPendingEvent = s.mHasPendingEvent := by
  induction rounds generalizing s count with
  | zero => rfl
  | succ rounds ih =>
      rw [LevelSensor.readLoop]
      split_ifs with hgo
      · simp only
        rw [ih]
        exact s.processEvent_pending kind _
      · rfl

/-- A driver that is given room has no pending event afterwards. -/
theorem LevelSensor.readEvents_sent (kind : LevelKind) (s : LevelSensor) {count : Int}
    (hcount : 1 ≤ count) (time : Int) (result : ReadResult InputEvent) :
    (s.readEvents kind count time result).2.1.mHasPendingEvent = false := by
  unfold LevelSensor.readEvents
  rw [if_neg (by omega)]
  by_cases hpending : s.mHasPendingEvent = true
  · rw [if_pos hpending]
  · rw [if_neg hpending]
    rw [Bool.not_eq_true] at hpending
    simp only
    split_ifs with hfill
    · exact hpending
    · rw [LevelSensor.readLoop_pending]
      exact hpending

theorem pollLight_looked {round : PollRound} {st : PollState}
    (hsafe : (pollLight round st).overflow = false) : Looked .light st (pollLight round st) := by
  unfold pollLight at hsafe ⊢
  split_ifs at hsafe ⊢ with hgo
  · refine Looked.account hgo.1 (fun hneg => st.ctx.light.readEvents_refused lightKind hneg _ _)
      (fun hpos => st.ctx.light.readEvents_ok lightKind hpos _ _) ?_
      (fun hpos => st.ctx.light.readEvents_sent lightKind hpos _ _) hsafe
    intro d hd
    cases d with
    | light => exact absurd rfl hd
    | proximity => rfl
    | akm => rfl
  · refine Looked.skip ?_
    by_cases hfull : st.count = 0
    · exact .inl hfull
    · exact .inr (Bool.eq_false_iff.mpr fun hpending => hgo ⟨hfull, .inr hpending⟩)

theorem pollProximity_looked {round : PollRound} {st : PollState}
    (hsafe : (pollProximity round st).overflow = false) :
    Looked .proximity st (pollProximity round st) := by
  unfold pollProximity at hsafe ⊢
  split_ifs at hsafe ⊢ with hgo
  · refine Looked.account hgo.1
      (fun hneg => st.ctx.proximity.readEvents_refused proximityKind hneg _ _)
      (fun hpos => st.ctx.proximity.readEvents_ok proximityKind hpos _ _) ?_
      (fun hpos => st.ctx.proximity.readEvents_sent proximityKind hpos _ _) hsafe
    intro d hd
    cases d with
    | light => rfl
    | proximity => exact absurd rfl hd
    | akm => rfl
  · refine Looked.skip ?_
    by_cases hfull : st.count = 0
    · exact .inl hfull
    · exact .inr (Bool.eq_false_iff.mpr fun hpending => hgo ⟨hfull, .inr hpending⟩)

theorem pollAkm_looked {round : PollRound} {st : PollState}
    (hsafe : (pollAkm round st).overflow = false) : Looked .akm st (pollAkm round st) := by
  unfold pollAkm at hsafe ⊢
  split_ifs at hsafe ⊢ with hgo
  · refine Looked.account hgo.1 (fun hneg => st.ctx.akm.readEvents_refused hneg _)
      (fun hpos => st.ctx.akm.readEvents_ok hpos _) ?_ (fun _ => rfl) hsafe
    intro d hd
    cases d with
    | light => rfl
    | proximity => rfl
    | akm => exact absurd rfl hd
  · exact Looked.skip (.inr rfl)

/-! ## No wake-up is lost -/

def SensorDriver.index : SensorDriver → Nat
  | light => 0
  | proximity => 1
  | akm => 2

omit [SensorFloat] in
theorem SensorDriver.index_ne {d d' : SensorDriver} (hne : d' ≠ d) : d'.index ≠ d.index := by
  intro hindex
  cases d <;> cases d' <;> first | exact hne rfl | cases hindex

omit [SensorFloat] in
theorem SensorDriver.index_le (d : SensorDriver) : d.index ≤ 2 := by
  cases d <;> simp [SensorDriver.index]

/-- The poll thread looks at `d` before it can sleep. -/
def WakePc.Ahead (d : SensorDriver) : WakePc → Prop
  | .idle | .wake _ | .overflowed => True
  | .driver d' => d'.index ≤ d.index
  | .poll => False

/-- The call in progress does not sleep: it is full, or it began with a negative
count and a driver has refused that. -/
def PollState.Awake (st : PollState) : Prop :=
  st.count = 0 ∨ st.nbEvents < 0 ∧ st.nbEvents + st.count < 0

/-- A message is in the pipe or on its way. -/
def WakeState.Told (w : WakeState) : Prop := 0 < w.pipe ∨ 0 < w.writers

structure WakeState.Inv (w : WakeState) : Prop where
  refused : w.pc ≠ .overflowed → w.call.count < 0 → w.call.nbEvents ≤ 0
  room : w.pc = .poll → w.call.count ≠ 0
  told : ∀ d, w.call.ctx.pending d = true → w.Told ∨ w.pc.Ahead d ∨ w.call.Awake

theorem Looked.refused_neg {d : SensorDriver} {st st' : PollState} (h : Looked d st st')
    (hneg : st.count < 0 → st.nbEvents ≤ 0) : st'.count < 0 → st'.nbEvents ≤ 0 := by
  intro hcount'
  by_cases hcount : st.count < 0
  · exact le_trans (h.refused hcount) (hneg hcount)
  · exact absurd (h.room (by omega)) (by omega)

theorem Looked.awake {d : SensorDriver} {st st' : PollState} (h : Looked d st st')
    (hawake : st.Awake) : st'.Awake := by
  rcases hawake with hfull | ⟨hnb, htotal⟩
  · exact .inl (h.full hfull)
  · refine .inr ⟨?_, by rw [h.total]; exact htotal⟩
    by_cases hcount : st.count < 0
    · exact lt_of_le_of_lt (h.refused hcount) hnb
    · have hroom := h.room (by omega)
      have hsum := h.total
      omega

/-- A pending event that is left behind was refused, so that the call does not sleep. -/
theorem Looked.awake_of_pending {d : SensorDriver} {st st' : PollState} (h : Looked d st st')
    (hneg : st.count < 0 → st.nbEvents ≤ 0) (hpending : st'.ctx.pending d = true) : st'.Awake := by
  rcases h.sent hpending with hfull | ⟨hcount, hless⟩
  · exact .inl (h.full hfull)
  · have hsum := h.total
    have := hneg hcount
    exact .inr ⟨by omega, by omega⟩

/-- The poll thread goes from one driver to the next. -/
theorem WakeState.Inv.look {w : WakeState} (h : w.Inv) {d : SensorDriver} {call : PollState}
    {pc : WakePc} (hpc : w.pc = .driver d)
    (hlooked : call.overflow = false → Looked d w.call call)
    (hroom : pc = .poll → call.count ≠ 0)
    (hnext : ∀ d', d' ≠ d → d.index ≤ d'.index → pc.Ahead d' ∨ call.Awake) :
    ({ w with call := call, pc := call.goOn pc } : WakeState).Inv := by
  have hbefore : w.call.count < 0 → w.call.nbEvents ≤ 0 :=
    h.refused (by simp [hpc])
  cases hover : call.overflow with
  | true =>
      have hpc' : call.goOn pc = .overflowed := if_pos hover
      rw [hpc']
      exact ⟨fun hgone => absurd rfl hgone, (by intro hpoll; cases hpoll),
        fun _ _ => .inr (.inl trivial)⟩
  | false =>
      have hpc' : call.goOn pc = pc := if_neg (by simp [hover])
      rw [hpc']
      replace hlooked := hlooked hover
      refine ⟨fun _ => hlooked.refused_neg hbefore, hroom, fun d' hpending => ?_⟩
      by_cases hd : d' = d
      · subst hd
        exact .inr (.inr (hlooked.awake_of_pending hbefore hpending))
      · simp only at hpending
        rw [hlooked.others d' hd] at hpending
        rcases h.told d' hpending with htold | hahead | hawake
        · exact .inl htold
        · rw [hpc] at hahead
          exact .inr (hnext d' hd hahead)
        · exact .inr (.inr (hlooked.awake hawake))

theorem LevelSensor.closeUnused_pending (s : LevelSensor) :
    s.closeUnused.mHasPendingEvent = s.mHasPendingEvent := by
  unfold LevelSensor.closeUnused
  split_ifs <;> rfl

/-- Only a request that enables the sensor and succeeds leaves a pending event. -/
theorem LevelSensor.setEnable_pending (kind : LevelKind) (s : LevelSensor) (en : Int) (io : LevelIo)
    (hpending : (s.setEnable kind en io).sensor.mHasPendingEvent = true) :
    s.mHasPendingEvent = true ∨ en ≠ 0 ∧ (s.setEnable kind en io).err = 0 := by
  unfold LevelSensor.setEnable at hpending ⊢
  by_cases hsame : (if en ≠ 0 then 1 else 0) ≠ s.mEnabled
  · simp only [if_pos hsame] at hpending ⊢
    have hopen : ∀ t : LevelSensor, t = (if s.mEnabled = 0 then
        { s with devFd := openDevice s.devFd io.opened } else s) →
        t.mHasPendingEvent = s.mHasPendingEvent := by
      rintro t rfl
      split_ifs <;> rfl
    generalize (if s.mEnabled = 0 then { s with devFd := openDevice s.devFd io.opened } else s)
      = t at hpending hopen ⊢
    have ht := hopen t rfl
    by_cases herr : ioctlErr t.devFd io.setFlag = 0
    · by_cases hen : en ≠ 0
      · exact .inr ⟨hen, by rw [if_pos herr]; exact herr⟩
      · rw [if_pos herr] at hpending
        simp only [if_neg hen, closeUnused_pending, ht] at hpending
        exact .inl hpending
    · rw [if_neg herr] at hpending
      simp only [closeUnused_pending, ht] at hpending
      exact .inl hpending
  · simp only [if_neg hsame] at hpending
    exact .inl hpending

theorem SensorsPollContext.setEnable_pending (ctx : SensorsPollContext) (handle enabled : Int)
    (io : ActivateIo) (d : SensorDriver)
    (hpending : (ctx.setEnable handle enabled io).2.pending d = true) :
    ctx.pending d = true ∨ enabled ≠ 0 ∧ (ctx.setEnable handle enabled io).1 = 0 := by
  unfold SensorsPollContext.setEnable at hpending ⊢
  cases hdriver : handleToDriver handle with
  | none =>
      rw [hdriver] at hpending
      exact .inl hpending
  | some d' =>
      rw [hdriver] at hpending
      cases d' with
      | light =>
          cases d with
          | light => exact ctx.light.setEnable_pending lightKind enabled io.level hpending
          | proximity => exact .inl hpending
          | akm => exact .inl hpending
      | proximity =>
          cases d with
          | light => exact .inl hpending
          | proximity =>
              exact ctx.proximity.setEnable_pending proximityKind enabled io.level hpending
          | akm => exact .inl hpending
      | akm => cases d <;> exact .inl hpending

theorem SensorsPollContext.setDelay_pending (ctx : SensorsPollContext) (handle ns : Int)
    (io : AkmSensor.Io) (d : SensorDriver) :
    (ctx.setDelay handle ns io).2.pending d = ctx.pending d := by
  unfold SensorsPollContext.setDelay
  cases handleToDriver handle with
  | none => rfl
  | some d' => cases d' <;> cases d <;> rfl

omit [SensorFloat] in
theorem pcAfterPoll_ahead (n : Nat) (d : SensorDriver) : (pcAfterPoll n).Ahead d := by
  unfold pcAfterPoll
  split_ifs
  · exact Nat.zero_le _
  · trivial

omit [SensorFloat] in
theorem pcAfterPoll_ne_poll (n : Nat) : pcAfterPoll n ≠ .poll := by
  unfold pcAfterPoll
  split_ifs <;> intro h <;> cases h

theorem WakeState.init_inv (ctx : SensorsPollContext) (array : Int → SensorsEvent) :
    (WakeState.init ctx array).Inv where
  refused _ _ := le_rfl
  room hpc := by cases hpc
  told _ _ := .inr (.inl trivial)

omit [SensorFloat] in
/-- The drivers from `d` on, but `d`, are those from the next one on. -/
theorem WakePc.ahead_next {d next d' : SensorDriver} (hnext : next.index = d.index + 1)
    (hne : d' ≠ d) (hle : d.index ≤ d'.index) : (WakePc.driver next).Ahead d' := by
  have hindex := SensorDriver.index_ne hne
  change next.index ≤ d'.index
  omega

theorem WakeState.Inv.lookStep {w : WakeState} (h : w.Inv) (cap : Nat) (round : PollRound) :
    (wakeStep cap w (.look round)).Inv := by
  rw [wakeStep]
  cases hpc : w.pc with
  | driver d =>
      cases d with
      | light =>
          refine h.look hpc pollLight_looked (fun hpoll => ?_) fun d' hne hle => .inl ?_
          · cases hpoll
          · exact WakePc.ahead_next rfl hne hle
      | proximity =>
          refine h.look hpc pollProximity_looked (fun hpoll => ?_) fun d' hne hle => .inl ?_
          · cases hpoll
          · exact WakePc.ahead_next rfl hne hle
      | akm =>
          refine h.look hpc pollAkm_looked (fun hpoll => ?_) fun d' hne hle => ?_
          · by_contra hfull
            simp [hfull] at hpoll
          · -- no driver comes behind this one
            have hindex := SensorDriver.index_ne hne
            have hlast := d'.index_le
            rw [SensorDriver.index] at hle hindex
            omega
  | _ => exact h

theorem wakeStep_inv {cap : Nat} (hcap : 0 < cap) {w : WakeState} (h : w.Inv) (e : WakeEvent) :
    (wakeStep cap w e).Inv := by
  cases e with
  | pollEvents array count =>
      rw [wakeStep]
      refine guarded h fun _ => ⟨fun _ _ => le_rfl, fun hpc => ?_, fun d _ => ?_⟩
      · cases hpc
      · exact .inr (.inl (Nat.zero_le _))
  | look round => exact h.lookStep cap round
  | poll result =>
      cases result with
      | failed errno hpos =>
          rw [wakeStep]
          refine guarded h fun hpoll => ⟨fun _ => h.refused ?_, (by intro hpoll; cases hpoll),
            fun _ _ => .inr (.inl trivial)⟩
          simp [hpoll]
      | ready n revents =>
          rw [wakeStep]
          refine guarded h fun hpc => ⟨fun _ => h.refused ?_, fun hpoll => ?_,
            fun d _ => .inr (.inl ?_)⟩
          · simp [hpc]
          · simp only at hpoll
            split_ifs at hpoll
            exact absurd hpoll (pcAfterPoll_ne_poll n)
          · simp only
            split_ifs
            · trivial
            · exact pcAfterPoll_ahead n d
  | readMessage =>
      rw [wakeStep]
      cases hpc : w.pc with
      | idle => exact h
      | poll => exact h
      | driver d => exact h
      | overflowed => exact h
      | wake n =>
          exact ⟨fun _ => h.refused (by simp [hpc]),
            fun hpoll => absurd hpoll (pcAfterPoll_ne_poll n),
            fun d _ => .inr (.inl (pcAfterPoll_ahead n d))⟩
  | activate handle enabled io =>
      refine ⟨h.refused, h.room, fun d hpending => ?_⟩
      rcases w.call.ctx.setEnable_pending handle enabled io d hpending with hbefore | hon
      · rcases h.told d hbefore with (hpipe | hwriters) | hrest
        · exact .inl (.inl hpipe)
        · refine .inl (.inr ?_)
          simp only [wakeStep]
          split_ifs <;> omega
        · exact .inr hrest
      · refine .inl (.inr ?_)
        simp only [wakeStep, if_pos hon]
        exact Nat.succ_pos _
  | writeMessage =>
      rw [wakeStep]
      refine guarded h fun hwriter => ⟨h.refused, h.room, fun _ _ => .inl (.inl ?_)⟩
      -- a pipe that refuses the message is full, and so not empty
      simp only
      split_ifs <;> omega
  | setDelay handle ns io =>
      refine ⟨h.refused, h.room, fun d hpending => ?_⟩
      simp only [wakeStep] at hpending
      rw [SensorsPollContext.setDelay_pending] at hpending
      exact h.told d hpending

/-- The poll thread is in `poll` without a time limit. -/
def WakeState.Sleeps (w : WakeState) : Prop := w.pc = .poll ∧ w.call.nbEvents = 0

/-- **No wake-up is lost.** In every interleaving of a poll thread with any number of
threads that call `activate` and `setDelay`, with any answers of the devices and
of `poll` and any capacity of the pipe, a poll thread that sleeps without a time
limit while a driver has a pending event has a message in its pipe, or one is
about to be written. -/
theorem no_lost_wakeup {cap : Nat} (hcap : 0 < cap) (ctx : SensorsPollContext)
    (array : Int → SensorsEvent) (events : List WakeEvent) (d : SensorDriver)
    (hsleeps : (runFrom (wakeStep cap) (.init ctx array) events).Sleeps)
    (hpending : (runFrom (wakeStep cap) (.init ctx array) events).call.ctx.pending d = true) :
    (runFrom (wakeStep cap) (.init ctx array) events).Told := by
  have hinv : (runFrom (wakeStep cap) (.init ctx array) events).Inv :=
    runFrom_inv (I := WakeState.Inv) (fun _ e h => wakeStep_inv hcap h e)
      (WakeState.init_inv ctx array) events
  obtain ⟨hpc, hnb⟩ := hsleeps
  rcases hinv.told d hpending with htold | hahead | hfull | ⟨hneg, -⟩
  · exact htold
  · rw [hpc] at hahead
    cases hahead
  · exact absurd hfull (hinv.room hpc)
  · exact absurd hnb hneg.ne

end

/-! ## A light sensor that is enabled while the poll thread sleeps -/

def offLight : LevelProbe := ⟨3, some 0, none, fun _ => ⟨0, 0, 0, 0, 0⟩⟩
def offProximity : LevelProbe := ⟨4, none, none, fun _ => ⟨0, 0, 0, 0, 0⟩⟩
def offAkm : AkmProbe := ⟨5, fun _ => none, fun _ => none, fun _ => ⟨0, 0, 0, 0, 0⟩⟩

def quietRound : PollRound :=
  ⟨.data [] none, 0, .data [] none, 0, .data [] none, .ready 1 fun _ => 0⟩

def lateEnable [SensorFloat] (array : Int → SensorsEvent) : List WakeEvent :=
  [.pollEvents array 16, .look quietRound, .look quietRound, .look quietRound,
    .activate 4 1 ⟨⟨6, 0, some 5⟩, ⟨0, 0, 0⟩⟩]

theorem no_lost_wakeup_late :
    let _ : SensorFloat := decimalSensorFloat
    let array := fun _ => akmPendingEvent .orientation
    let w := runFrom (wakeStep 1) (.init (.init offLight offProximity offAkm) array)
      (lateEnable array)
    w.Sleeps ∧ w.call.ctx.pending .light = true ∧ w.Told := by
  let _ : SensorFloat := decimalSensorFloat
  exact ⟨⟨by decide, by decide⟩, by decide,
    no_lost_wakeup (by decide) (.init offLight offProximity offAkm) _ (lateEnable _) .light
      ⟨by decide, by decide⟩ (by decide)⟩

end HtcLeo
