import HtcLeo.Mem
import HtcLeo.Runs

/-!
# The position thread (`libgps/leo-gps.c`)

While a session runs, `gps_get_position_thread` asks the modem for a
position and waits on `get_pos_ready_cond` until the answer is there;
between sessions it waits on `get_position_cond`. The control thread
signals the first condition on `CMD_STOP` and the second one on
`CMD_START`, and the RPC callback thread signals the first one for an
event with `PDSM_PD_EVENT_DONE`. The signals are sent without the mutex,
and the waits look at no predicate: a signal that comes before the wait
is lost. `dispatch_pdsm_pd` moreover returns before it gets to `DONE`
when the event carries a position, as the fix then comes over NMEA.

`position_never_stalls` says that these are the only ways to a thread
that waits for a signal nobody is going to send.
-/

namespace HtcLeo

/-! ## The loops -/

/-- Where `gps_get_position_thread` is. -/
inductive PosPc where
  /-- At `while (active)`. -/
  | testActive
  /-- At `while (started)`. -/
  | testStarted
  /-- At `gps_get_position`. -/
  | request
  /-- The request is sent; before the wait for `get_pos_ready_cond`. -/
  | beforeReady
  | waitReady
  /-- Left the inner loop; before the wait for `get_position_cond`. -/
  | beforeStart
  | waitStart
  | exited
deriving DecidableEq, Repr

/-- A step of the thread, which does not leave a wait by itself. -/
def posStep (active started : Bool) : PosPc → PosPc
  | .testActive => if active then .testStarted else .exited
  | .testStarted => if started then .request else .beforeStart
  | .request => .beforeReady
  | .beforeReady => .waitReady
  | .waitReady => .waitReady
  | .beforeStart => .waitStart
  | .waitStart => .waitStart
  | .exited => .exited

/-- `pthread_cond_signal(&get_pos_ready_cond)` -/
def PosPc.signalReady : PosPc → PosPc
  | .waitReady => .testStarted
  | pc => pc

/-- `pthread_cond_signal(&get_position_cond)` -/
def PosPc.signalStart : PosPc → PosPc
  | .waitStart => .testActive
  | pc => pc

/-- `pthread_cond_wait` may return without a signal. -/
def PosPc.spurious (pc : PosPc) : PosPc := pc.signalReady.signalStart

/-! ## Events of the modem -/

def pdsmPdEventPosition : Word := 0x1
def pdsmPdEventVelocity : Word := 0x2
def pdsmPdEventHeight : Word := 0x4
def pdsmPdEventDone : Word := 0x8

/-- The library is built with `ENABLE_NMEA`. -/
def useNmea : Bool := true

/-- Whether `dispatch_pdsm_pd` gets to `pdsm_pd_callback`; `timestamp` is word 8
of the event. -/
def dispatchPdsmPd (event timestamp : Word) : Bool :=
  if event &&& pdsmPdEventPosition ≠ 0 ∧ (useNmea ∨ timestamp = 0) then false
  else if event &&& pdsmPdEventVelocity ≠ 0 ∧ useNmea then false
  else if event &&& pdsmPdEventHeight ≠ 0 ∧ useNmea then false
  else event &&& pdsmPdEventDone ≠ 0

/-- The event carries no part of a fix. -/
def NoFix (event : Word) : Prop :=
  event &&& pdsmPdEventPosition = 0 ∧ event &&& pdsmPdEventVelocity = 0
    ∧ event &&& pdsmPdEventHeight = 0

instance (event : Word) : Decidable (NoFix event) := inferInstanceAs (Decidable (_ ∧ _ ∧ _))

theorem dispatchPdsmPd_noFix {event : Word} (timestamp : Word) (h : NoFix event)
    (hdone : event &&& pdsmPdEventDone ≠ 0) : dispatchPdsmPd event timestamp = true := by
  simpa [dispatchPdsmPd, h.1, h.2.1, h.2.2] using hdone

/-! ## The threads -/

inductive SessionCmd where
  | start
  | stop
deriving DecidableEq, Repr

/-- The control thread waits for a command, or changed `started` and is about to signal. -/
inductive CtlPc where
  | idle
  | signalStart
  | signalReady
deriving DecidableEq, Repr

/-- `outstanding` counts the requests for which no `DONE` event was dispatched;
`commands` are the bytes in the control socket. -/
structure Positioning where
  active : Bool
  started : Bool
  pos : PosPc
  ctl : CtlPc
  commands : List SessionCmd
  outstanding : Nat

/-- After `gps_state_init`. -/
def Positioning.init : Positioning := ⟨true, false, .testActive, .idle, [], 0⟩

/-- `gps_state_thread` at a command, up to the signal and behind it. -/
def ctlStep (s : Positioning) : Positioning :=
  match s.ctl with
  | .idle =>
      match s.commands with
      | [] => s
      | .start :: cs =>
          if !s.started then { s with started := true, ctl := .signalStart, commands := cs }
          else { s with commands := cs }
      | .stop :: cs =>
          if s.started then { s with started := false, ctl := .signalReady, commands := cs }
          else { s with commands := cs }
  | .signalStart => { s with pos := s.pos.signalStart, ctl := .idle }
  | .signalReady => { s with pos := s.pos.signalReady, ctl := .idle }

inductive PosEvent where
  /-- The position thread. -/
  | pos
  | spurious
  /-- The control thread. -/
  | ctl
  /-- `gps_start` or `gps_stop` writes a command. -/
  | send (cmd : SessionCmd)
  /-- The RPC callback thread, with an event of the modem. -/
  | dispatch (event timestamp : Word)

/-- A step. A `DONE` event is the answer to a request; other events do nothing here. -/
def positionNext (s : Positioning) : PosEvent → Positioning
  | .pos =>
      { s with
        pos := posStep s.active s.started s.pos
        outstanding := if s.pos = .request then s.outstanding + 1 else s.outstanding }
  | .spurious => { s with pos := s.pos.spurious }
  | .ctl => ctlStep s
  | .send cmd => { s with commands := s.commands ++ [cmd] }
  | .dispatch event timestamp =>
      if event &&& pdsmPdEventDone ≠ 0 ∧ s.outstanding ≠ 0 then
        { s with
          pos := if dispatchPdsmPd event timestamp then s.pos.signalReady else s.pos
          outstanding := s.outstanding - 1 }
      else s

/-! ## Stalls -/

/-- The thread waits in a session, and nothing is left that will signal it. -/
def Positioning.Stalled (s : Positioning) : Prop :=
  s.active = true ∧ s.started = true ∧ s.commands = []
    ∧ (s.pos = .waitReady ∧ s.outstanding = 0 ∧ s.ctl ≠ .signalReady
      ∨ s.pos = .waitStart ∧ s.ctl ≠ .signalStart)

/-- The last answer comes when the thread is not between its request and its
wait, and if it waits, without a part of a fix; `CMD_START` signals when it is
not between its test of `started` and its wait. -/
def PosEvent.Timely (s : Positioning) : PosEvent → Prop
  | .ctl => s.ctl = .signalStart → s.pos ≠ .beforeStart
  | .dispatch event _ => event &&& pdsmPdEventDone ≠ 0 → s.outstanding = 1 →
      s.pos ≠ .beforeReady ∧ (s.pos = .waitReady → NoFix event)
  | _ => True

instance (s : Positioning) : (e : PosEvent) → Decidable (e.Timely s)
  | .pos | .spurious | .send _ => isTrue trivial
  | .ctl => inferInstanceAs (Decidable (_ → _))
  | .dispatch _ _ => inferInstanceAs (Decidable (_ → _ → _ ∧ _))

/-- Who waits, or is about to, has a signal to come. -/
structure Positioning.Awaited (s : Positioning) : Prop where
  ready : s.pos = .beforeReady ∨ s.pos = .waitReady → 0 < s.outstanding
  start : s.pos = .beforeStart ∨ s.pos = .waitStart → s.started = false ∨ s.ctl = .signalStart

theorem Positioning.Awaited.not_stalled {s : Positioning} (h : s.Awaited) : ¬ s.Stalled := by
  rintro ⟨-, hstarted, -, ⟨hpos, hnone, -⟩ | ⟨hpos, hctl⟩⟩
  · have := h.ready (.inr hpos)
    omega
  · rcases h.start (.inr hpos) with hstop | hsignal
    · rw [hstarted] at hstop
      cases hstop
    · exact hctl hsignal

theorem Positioning.Awaited.pos {s : Positioning} (h : s.Awaited) :
    (positionNext s .pos).Awaited := by
  constructor
  · cases hpc : s.pos with
    | request => simp [positionNext, hpc, posStep]
    | beforeReady => simpa [positionNext, hpc, posStep] using h.ready (.inl hpc)
    | waitReady => simpa [positionNext, hpc, posStep] using h.ready (.inr hpc)
    | testActive => cases hactive : s.active <;> simp [positionNext, hpc, posStep, hactive]
    | testStarted => cases hstarted : s.started <;> simp [positionNext, hpc, posStep, hstarted]
    | beforeStart => simp [positionNext, hpc, posStep]
    | waitStart => simp [positionNext, hpc, posStep]
    | exited => simp [positionNext, hpc, posStep]
  · cases hpc : s.pos with
    | testStarted =>
        -- it goes to the wait because it read `started` as 0
        cases hstarted : s.started <;> simp [positionNext, hpc, posStep, hstarted]
    | beforeStart => simpa [positionNext, hpc, posStep] using h.start (.inl hpc)
    | waitStart => simpa [positionNext, hpc, posStep] using h.start (.inr hpc)
    | testActive => cases hactive : s.active <;> simp [positionNext, hpc, posStep, hactive]
    | request => simp [positionNext, hpc, posStep]
    | beforeReady => simp [positionNext, hpc, posStep]
    | waitReady => simp [positionNext, hpc, posStep]
    | exited => simp [positionNext, hpc, posStep]

theorem Positioning.Awaited.signalReady {s : Positioning} (h : s.Awaited) :
    ({ s with pos := s.pos.signalReady } : Positioning).Awaited := by
  cases hpc : s.pos with
  | waitReady => constructor <;> simp [PosPc.signalReady]
  | _ => simpa only [PosPc.signalReady, ← hpc] using h

theorem Positioning.Awaited.signalStart {s : Positioning} (h : s.Awaited) :
    ({ s with pos := s.pos.signalStart } : Positioning).Awaited := by
  cases hpc : s.pos with
  | waitStart => constructor <;> simp [PosPc.signalStart]
  | _ => simpa only [PosPc.signalStart, ← hpc] using h

/-- The signal of `CMD_START` finds the thread in its wait, or not on the way there. -/
theorem Positioning.Awaited.started {s : Positioning} (h : s.Awaited)
    (hpos : s.pos ≠ .beforeStart) :
    ({ s with pos := s.pos.signalStart, ctl := .idle } : Positioning).Awaited := by
  refine ⟨h.signalStart.ready, ?_⟩
  cases hpc : s.pos with
  | beforeStart => exact absurd hpc hpos
  | _ => simp [PosPc.signalStart]

theorem Positioning.Awaited.ctl {s : Positioning} (h : s.Awaited)
    (ht : PosEvent.ctl.Timely s) : (ctlStep s).Awaited := by
  cases hctl : s.ctl with
  | signalStart =>
      simp only [ctlStep, hctl]
      exact h.started (ht hctl)
  | signalReady =>
      simp only [ctlStep, hctl]
      refine ⟨h.signalReady.ready, fun hpos => ?_⟩
      rcases h.signalReady.start hpos with hstop | hsignal
      · exact .inl hstop
      · exact absurd (hctl.symm.trans hsignal) (by decide)
  | idle =>
      simp only [ctlStep, hctl]
      split
      · exact h
      · split
        · exact ⟨h.ready, fun _ => .inr rfl⟩
        · exact ⟨h.ready, fun hpos => hctl ▸ h.start hpos⟩
      · split
        · exact ⟨h.ready, fun _ => .inl rfl⟩
        · exact ⟨h.ready, fun hpos => hctl ▸ h.start hpos⟩

/-- The answer to a request wakes the thread, or is not the last one it waits for. -/
theorem Positioning.Awaited.dispatch {s : Positioning} (h : s.Awaited) {event timestamp : Word}
    (ht : (PosEvent.dispatch event timestamp).Timely s) :
    (positionNext s (.dispatch event timestamp)).Awaited := by
  rw [positionNext]
  split
  · rename_i hanswer
    obtain ⟨hdone, houtstanding⟩ := hanswer
    constructor
    · intro hpos
      by_contra hlast
      have hone : s.outstanding = 1 := by
        simp only at hlast
        omega
      obtain ⟨hbefore, hnofix⟩ := ht hdone hone
      cases hpc : s.pos with
      | beforeReady => exact hbefore hpc
      | waitReady =>
          have hsignals := dispatchPdsmPd_noFix timestamp (hnofix hpc) hdone
          simp [hsignals, hpc, PosPc.signalReady] at hpos
      | _ => simp [hpc, PosPc.signalReady] at hpos
    · intro hpos
      refine h.start ?_
      revert hpos
      cases hpc : s.pos <;> split <;> simp [PosPc.signalReady]
  · exact h

theorem positionNext_awaited (s : Positioning) (e : PosEvent) (h : s.Awaited) (ht : e.Timely s) :
    (positionNext s e).Awaited := by
  cases e with
  | pos => exact h.pos
  | spurious => exact h.signalReady.signalStart
  | ctl => exact h.ctl ht
  | send cmd => exact ⟨h.ready, h.start⟩
  | dispatch event timestamp => exact h.dispatch ht

theorem Positioning.init_awaited : Positioning.init.Awaited := by
  constructor <;> simp [Positioning.init]

/-- **The position thread never stalls** in a run whose signals are timely. -/
theorem position_never_stalls (events : List PosEvent)
    (h : AllSteps positionNext (fun s e => e.Timely s) Positioning.init events) :
    AllSteps positionNext (fun s e => ¬ (positionNext s e).Stalled) Positioning.init events :=
  h.imp positionNext_awaited
    (fun s e hs ht => (positionNext_awaited s e hs ht).not_stalled) Positioning.init_awaited

theorem dispatchPdsmPd_fix {event : Word} (timestamp : Word) (h : ¬ NoFix event) :
    dispatchPdsmPd event timestamp = false := by
  by_contra hsignals
  refine h ⟨?_, ?_, ?_⟩ <;> by_contra hbit <;> simp [dispatchPdsmPd, useNmea] at hsignals <;>
    tauto

/-- A signal that is not timely stalls the thread, at once or at its next step,
unless a command is still to come. -/
theorem untimely_stalls {s : Positioning} {e : PosEvent} (ht : ¬ e.Timely s)
    (hactive : s.active = true) (hstarted : s.started = true) (hcommands : s.commands = [])
    (hctl : s.ctl ≠ .signalReady) :
    (positionNext s e).Stalled ∨ (positionNext (positionNext s e) .pos).Stalled := by
  cases e with
  | ctl =>
      simp only [PosEvent.Timely, not_forall, not_not] at ht
      obtain ⟨hsignal, hpos⟩ := ht
      refine .inr ⟨?_, ?_, ?_, .inr ⟨?_, ?_⟩⟩ <;>
        simp [positionNext, ctlStep, hsignal, hpos, PosPc.signalStart, posStep, hactive, hstarted,
          hcommands]
  | dispatch event timestamp =>
      simp only [PosEvent.Timely, not_forall] at ht
      obtain ⟨hdone, hlast, hlost⟩ := ht
      have hanswer : event &&& pdsmPdEventDone ≠ 0 ∧ s.outstanding ≠ 0 := ⟨hdone, by omega⟩
      have hnext : positionNext s (.dispatch event timestamp) =
          { s with
            pos := if dispatchPdsmPd event timestamp then s.pos.signalReady else s.pos
            outstanding := s.outstanding - 1 } :=
        if_pos hanswer
      rw [hnext]
      by_cases hpos : s.pos = .beforeReady
      · refine .inr ⟨hactive, hstarted, hcommands, .inl ⟨?_, ?_, hctl⟩⟩ <;>
          simp [positionNext, hpos, PosPc.signalReady, posStep, hlast]
      · obtain ⟨hwait, hfix⟩ := Classical.not_imp.mp fun h => hlost ⟨hpos, h⟩
        refine .inl ⟨hactive, hstarted, hcommands, .inl ⟨?_, ?_, hctl⟩⟩ <;>
          simp [hwait, dispatchPdsmPd_fix timestamp hfix, hlast]
  | pos => exact absurd trivial ht
  | spurious => exact absurd trivial ht
  | send cmd => exact absurd trivial ht

/-- A session starts, and the thread waits for the answer to its request. -/
def firstRequest : List PosEvent :=
  [.pos, .pos, .pos, .send .start, .ctl, .ctl, .pos, .pos, .pos, .pos]

/-- An answer without a fix wakes the thread for the next request. -/
theorem answered_request_runs :
    (runFrom positionNext Positioning.init
        (firstRequest ++ [.dispatch 0x18 0])).pos = .testStarted
      ∧ AllSteps positionNext (fun s e => ¬ (positionNext s e).Stalled) Positioning.init
        (firstRequest ++ [.dispatch 0x18 0]) :=
  ⟨by decide, position_never_stalls _ (by decide)⟩

/-- An answer with a position, `PDSM_PD_EVENT_POSITION | PDSM_PD_EVENT_DONE`,
leaves the thread in its wait. -/
theorem position_event_stalls :
    (runFrom positionNext Positioning.init (firstRequest ++ [.dispatch 0x9 0])).Stalled
      ∧ ¬ AllSteps positionNext (fun s e => ¬ (positionNext s e).Stalled) Positioning.init
        (firstRequest ++ [.dispatch 0x9 0]) := by
  have hstalled : (runFrom positionNext Positioning.init
      (firstRequest ++ [.dispatch 0x9 0])).Stalled :=
    ⟨by decide, by decide, by decide, .inl ⟨by decide, by decide, by decide⟩⟩
  refine ⟨hstalled, fun hall => ?_⟩
  exact allSteps_iff_split.mp hall firstRequest (.dispatch 0x9 0) [] rfl hstalled

end HtcLeo
