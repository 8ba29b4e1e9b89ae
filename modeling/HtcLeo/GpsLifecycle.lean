import HtcLeo.GpsPosition

/-!
# The life cycle of a GPS session (`libgps/leo-gps.c`)

`gps_init` starts the control and the position thread, `gps_start` and
`gps_stop` send a command to the control thread, and `gps_cleanup` sends
`CMD_QUIT` and joins both threads. Three flags follow the session:
`active` and `started`, which the position thread tests, and
`state->init`, which the timer thread tests.

A run is a sequence of calls, each with its command handled, between
which the threads go on. A command that signals once is handled in one
step: what the position thread does beside it could as well come before
or after. `CMD_QUIT` signals twice, and the threads go on in between.

`CMD_QUIT` clears `active` but not `started`: when `gps_cleanup` comes
without `gps_stop`, the position thread may stay in its inner loop for
ever (`unstopped_cleanup_hangs`). And its second signal is the last one:
a thread that is still on its way to a wait then stays there
(`GpsLife.Stuck`). Otherwise the flags stay in step and the threads can
be joined (`lifecycle_iff`).
-/

namespace HtcLeo

/-! ## Calls and commands -/

/-- `state->init` -/
inductive InitState where
  | quit
  | init
  | start
deriving DecidableEq, Repr

inductive GpsCmd where
  | quit
  | start
  | stop
deriving DecidableEq, Repr

inductive GpsCall where
  | init
  | start
  | stop
  | cleanup
deriving DecidableEq, Repr

/-- `timer` says that there is a timer thread, and `sessions` counts those that
were created; `joining` says that `gps_cleanup` waits in `gps_state_done`, and
`quitting` that `CMD_QUIT` is between its two signals. -/
structure GpsLife where
  init : InitState
  active : Bool
  started : Bool
  timer : Bool
  sessions : Nat
  pos : PosPc
  joining : Bool
  quitting : Bool
deriving DecidableEq, Repr

def GpsLife.boot : GpsLife := ⟨.quit, false, false, false, 0, .exited, false, false⟩

/-- `gps_state_init`, with the threads created. It does not touch `started`. -/
def gpsStateInit (s : GpsLife) : GpsLife :=
  { s with init := .init, active := true, pos := .testActive }

/-- A command in `gps_state_thread`, `CMD_QUIT` up to its first signal. -/
def gpsStateThread (s : GpsLife) : GpsCmd → GpsLife
  | .quit => { s with active := false, pos := s.pos.signalReady, quitting := true }
  | .start =>
      if !s.started then
        { s with
          started := true
          pos := s.pos.signalStart
          init := .start
          timer := true
          sessions := s.sessions + 1 }
      else s
  | .stop =>
      if s.started then
        -- the join waits until the timer thread has seen `STATE_INIT`
        { s with started := false, pos := s.pos.signalReady, init := .init, timer := false }
      else s

def gpsInit (s : GpsLife) : GpsLife := if s.init = .quit then gpsStateInit s else s

def gpsStart (s : GpsLife) : GpsLife := if s.init = .quit then s else gpsStateThread s .start

def gpsStop (s : GpsLife) : GpsLife := if s.init = .quit then s else gpsStateThread s .stop

/-- `gps_cleanup` up to the joins. -/
def gpsCleanup (s : GpsLife) : GpsLife :=
  if s.init = .quit then s else { gpsStateThread s .quit with joining := true }

def GpsCall.run (s : GpsLife) : GpsCall → GpsLife
  | .init => gpsInit s
  | .start => gpsStart s
  | .stop => gpsStop s
  | .cleanup => gpsCleanup s

/-- The command that a call sends. -/
def GpsCall.command (s : GpsLife) (c : GpsCall) : Option GpsCmd :=
  if s.init = .quit then none
  else
    match c with
    | .init => none
    | .start => some .start
    | .stop => some .stop
    | .cleanup => some .quit

inductive LifeEvent where
  | call (c : GpsCall)
  /-- The position thread. -/
  | pos
  | spurious
  /-- The second signal of `CMD_QUIT`, behind which the control thread ends. -/
  | ctl
  /-- `pdsm_pd_callback`, for an answer of the modem. -/
  | answer
  /-- The timer thread looks at `state->init`. -/
  | timer
  /-- The position thread is joined, and `gps_state_done` goes on to its end. -/
  | joined
deriving DecidableEq, Repr

/-- A step; the next call comes when `gps_cleanup` has returned. -/
def lifeNext (s : GpsLife) : LifeEvent → GpsLife
  | .call c => if s.joining then s else c.run s
  | .pos => { s with pos := posStep s.active s.started s.pos }
  | .spurious => { s with pos := s.pos.spurious }
  | .ctl => if s.quitting then { s with pos := s.pos.signalStart, quitting := false } else s
  | .answer => { s with pos := s.pos.signalReady }
  | .timer => if s.init = .start then s else { s with timer := false }
  | .joined =>
      if s.joining ∧ s.quitting = false ∧ s.pos = .exited then
        { s with joining := false, init := .quit }
      else s

/-! ## What the commands are to keep -/

/-- `started` says that a session runs. -/
def GpsLife.InStep (s : GpsLife) : Prop :=
  s.started = true ↔ s.init = .start ∧ s.timer = true

/-- A step of a thread, not a call. -/
def LifeEvent.isThread : LifeEvent → Bool
  | .call _ => false
  | _ => true

/-- A step that a thread of the back end takes by itself. -/
def LifeEvent.isOwn : LifeEvent → Bool
  | .pos | .ctl | .timer | .joined => true
  | .call _ | .spurious | .answer => false

def GpsLife.Returned (s : GpsLife) : Prop := s.init = .quit ∧ s.joining = false

/-- Whatever the threads do, they come by themselves to the end of `gps_cleanup`: no
answer of the modem and no wake-up without a signal is needed. -/
def GpsLife.CanReturn (s : GpsLife) : Prop :=
  ∀ es : List LifeEvent, es.all LifeEvent.isThread = true →
    ∃ fs : List LifeEvent, fs.all LifeEvent.isOwn = true
      ∧ (runFrom lifeNext s (es ++ fs)).Returned

/-- After a handled command the flags are in step; after `CMD_QUIT` both are 0 and
the joins can return; `CMD_START` behind `gps_init` launches a session. -/
def LifeEvent.Handled (s : GpsLife) : LifeEvent → Prop
  | .call c => s.joining = false → ∀ cmd, c.command s = some cmd → cmd ≠ .quit →
      (c.run s).InStep
        ∧ (cmd = .start → s.init = .init → (c.run s).started = true
          ∧ (c.run s).sessions = s.sessions + 1)
  | .ctl => s.quitting = true →
      (lifeNext s .ctl).InStep ∧ (lifeNext s .ctl).active = false
        ∧ (lifeNext s .ctl).started = false ∧ (lifeNext s .ctl).CanReturn
  | _ => True

/-- The second signal of `CMD_QUIT` finds no session, and the position thread waiting
for the next one, at its test of `active`, or gone. -/
def LifeEvent.AtRest (s : GpsLife) : LifeEvent → Prop
  | .ctl => s.quitting = true →
      s.started = false ∧ (s.pos = .waitStart ∨ s.pos = .testActive ∨ s.pos = .exited)
  | _ => True

/-! ## The invariant -/

structure GpsLife.Inv (s : GpsLife) : Prop where
  session : s.started = true → s.init = .start ∧ s.timer = true
  noSession : s.started = false → s.init ≠ .start ∧ s.timer = false
  quitting : s.quitting = true → s.joining = true ∧ s.active = false
  joining : s.joining = true → s.quitting = true ∨ s.started = false

theorem GpsLife.boot_inv : GpsLife.boot.Inv := by
  constructor <;> simp [GpsLife.boot]

theorem GpsLife.Inv.inStep {s : GpsLife} (h : s.Inv) : s.InStep := by
  refine ⟨h.session, fun hrun => ?_⟩
  by_contra hstop
  exact (h.noSession (by simpa using hstop)).1 hrun.1

theorem GpsLife.Inv.setPos {s : GpsLife} (h : s.Inv) (pc : PosPc) :
    ({ s with pos := pc } : GpsLife).Inv :=
  ⟨h.session, h.noSession, h.quitting, h.joining⟩

/-- A command is handled to its end before the next call. -/
theorem GpsLife.Inv.notQuitting {s : GpsLife} (h : s.Inv) (hjoin : s.joining = false) :
    s.quitting = false := by
  by_contra hquitting
  rw [(h.quitting (by simpa using hquitting)).1] at hjoin
  cases hjoin

theorem gpsStart_inv {s : GpsLife} (h : s.Inv) (hjoin : s.joining = false) :
    (gpsStateThread s .start).Inv := by
  rw [gpsStateThread]
  split
  · exact ⟨fun _ => ⟨rfl, rfl⟩, fun hstop => by simp at hstop, h.quitting,
      fun hj => by simp [hjoin] at hj⟩
  · exact h

theorem gpsStop_inv {s : GpsLife} (h : s.Inv) : (gpsStateThread s .stop).Inv := by
  rw [gpsStateThread]
  split
  · exact ⟨fun hrun => by simp at hrun, fun _ => ⟨by simp, rfl⟩, h.quitting, fun _ => .inr rfl⟩
  · exact h

theorem gpsInit_inv {s : GpsLife} (h : s.Inv) (hjoin : s.joining = false) :
    (gpsInit s).Inv := by
  rw [gpsInit]
  split
  · rename_i hquit
    have hstop : s.started = false := by
      by_contra hrun
      have hstart := (h.session (by simpa using hrun)).1
      rw [hquit] at hstart
      cases hstart
    refine ⟨fun hrun => by simp [gpsStateInit, hstop] at hrun,
      fun _ => ⟨by simp [gpsStateInit], (h.noSession hstop).2⟩, fun hquitting => ?_,
      fun _ => .inr hstop⟩
    exact absurd ((h.notQuitting hjoin).symm.trans hquitting) (by decide)
  · exact h

theorem gpsCleanup_inv {s : GpsLife} (h : s.Inv) : (gpsCleanup s).Inv := by
  rw [gpsCleanup]
  split
  · exact h
  · exact ⟨h.session, h.noSession, fun _ => ⟨rfl, rfl⟩, fun _ => .inl rfl⟩

theorem GpsCall.run_inv {s : GpsLife} (h : s.Inv) (hjoin : s.joining = false) (c : GpsCall) :
    (c.run s).Inv := by
  cases c with
  | init => exact gpsInit_inv h hjoin
  | start =>
      rw [GpsCall.run, gpsStart]
      split
      · exact h
      · exact gpsStart_inv h hjoin
  | stop =>
      rw [GpsCall.run, gpsStop]
      split
      · exact h
      · exact gpsStop_inv h
  | cleanup => exact gpsCleanup_inv h

theorem lifeNext_inv (s : GpsLife) (e : LifeEvent) (h : s.Inv) (he : e.AtRest s) :
    (lifeNext s e).Inv := by
  cases e with
  | call c =>
      rw [lifeNext]
      split
      · exact h
      · exact GpsCall.run_inv h (by simpa using ‹¬ s.joining = true›) c
  | pos => exact h.setPos _
  | spurious => exact h.setPos _
  | answer => exact h.setPos _
  | ctl =>
      rw [lifeNext]
      split
      · rename_i hquitting
        exact ⟨h.session, h.noSession, fun hq => by simp at hq, fun _ => .inr (he hquitting).1⟩
      · exact h
  | timer =>
      rw [lifeNext]
      split
      · exact h
      · refine ⟨fun hrun => ?_, fun hstop => ⟨(h.noSession hstop).1, rfl⟩, h.quitting, h.joining⟩
        exact absurd (h.session hrun).1 ‹_›
  | joined =>
      rw [lifeNext]
      split
      · rename_i hjoined
        obtain ⟨hjoin, hquitting, -⟩ := hjoined
        have hstop : s.started = false :=
          (h.joining hjoin).resolve_left (by simp [hquitting])
        refine ⟨fun hrun => absurd (hstop.symm.trans hrun) (by decide),
          fun _ => ⟨by simp, (h.noSession hstop).2⟩, fun hq => ?_, fun _ => .inr hstop⟩
        exact absurd (hquitting.symm.trans hq) (by decide)
      · exact h

/-! ## The end of the position thread -/

/-- `CMD_QUIT` was handled, and the position thread has only its test of `active`
before it: the joins wait, or are over. -/
structure GpsLife.Leaving (s : GpsLife) : Prop where
  active : s.active = false
  quitting : s.quitting = false
  pos : s.pos = .testActive ∨ s.pos = .exited
  join : s.joining = true ∨ s.Returned

theorem lifeNext_leaving {s : GpsLife} {e : LifeEvent} (h : s.Leaving)
    (he : e.isThread = true) : (lifeNext s e).Leaving := by
  obtain ⟨hactive, hquitting, hpos, hjoin⟩ := h
  cases e with
  | call c => cases he
  | pos =>
      refine ⟨hactive, hquitting, .inr ?_, hjoin⟩
      rcases hpos with hpos | hpos <;> simp [lifeNext, hpos, posStep, hactive]
  | spurious =>
      refine ⟨hactive, hquitting, ?_, hjoin⟩
      rcases hpos with hpos | hpos <;>
        simp [lifeNext, hpos, PosPc.spurious, PosPc.signalReady, PosPc.signalStart]
  | answer =>
      refine ⟨hactive, hquitting, ?_, hjoin⟩
      rcases hpos with hpos | hpos <;> simp [lifeNext, hpos, PosPc.signalReady]
  | ctl =>
      rw [lifeNext, if_neg (by simp [hquitting])]
      exact ⟨hactive, hquitting, hpos, hjoin⟩
  | timer =>
      rw [lifeNext]
      split
      · exact ⟨hactive, hquitting, hpos, hjoin⟩
      · exact ⟨hactive, hquitting, hpos, hjoin⟩
  | joined =>
      rw [lifeNext]
      split
      · exact ⟨hactive, hquitting, hpos, .inr ⟨rfl, rfl⟩⟩
      · exact ⟨hactive, hquitting, hpos, hjoin⟩

theorem GpsLife.Leaving.returned {s : GpsLife} (h : s.Leaving) :
    (runFrom lifeNext s [.pos, .joined]).Returned := by
  obtain ⟨state, active, started, timer, sessions, pos, joining, quitting⟩ := s
  obtain ⟨hactive, hquitting, hpos, hjoin⟩ := h
  cases hactive
  cases hquitting
  rcases hjoin with hjoin | ⟨hquit, hjoin⟩
  · cases hjoin
    rcases hpos with hpos | hpos <;> cases hpos <;> exact ⟨rfl, rfl⟩
  · cases hquit
    cases hjoin
    rcases hpos with hpos | hpos <;> cases hpos <;> exact ⟨rfl, rfl⟩

theorem GpsLife.Leaving.canReturn {s : GpsLife} (h : s.Leaving) : s.CanReturn := by
  intro es hes
  refine ⟨[.pos, .joined], rfl, ?_⟩
  rw [runFrom_append]
  induction es generalizing s with
  | nil => exact h.returned
  | cons e es ih =>
      rw [List.all_cons, Bool.and_eq_true] at hes
      exact ih (lifeNext_leaving h hes.1) hes.2

/-- `CMD_QUIT` was handled while the position thread was in its loops: it goes on to
the wait for the next session, and nobody signals it there. -/
structure GpsLife.Stuck (s : GpsLife) : Prop where
  started : s.started = false
  joining : s.joining = true
  quitting : s.quitting = false
  pos : s.pos ≠ .testActive ∧ s.pos ≠ .exited

theorem lifeNext_stuck {s : GpsLife} {e : LifeEvent} (h : s.Stuck) (he : e ≠ .spurious) :
    (lifeNext s e).Stuck := by
  obtain ⟨hstarted, hjoin, hquitting, hpos⟩ := h
  cases e with
  | call c =>
      rw [lifeNext, if_pos hjoin]
      exact ⟨hstarted, hjoin, hquitting, hpos⟩
  | spurious => exact absurd rfl he
  | pos =>
      refine ⟨hstarted, hjoin, hquitting, ?_⟩
      revert hpos
      cases hpc : s.pos <;> simp [lifeNext, hpc, posStep, hstarted]
  | answer =>
      refine ⟨hstarted, hjoin, hquitting, ?_⟩
      revert hpos
      cases hpc : s.pos <;> simp [lifeNext, hpc, PosPc.signalReady]
  | ctl =>
      rw [lifeNext, if_neg (by simp [hquitting])]
      exact ⟨hstarted, hjoin, hquitting, hpos⟩
  | timer =>
      rw [lifeNext]
      split
      · exact ⟨hstarted, hjoin, hquitting, hpos⟩
      · exact ⟨hstarted, hjoin, hquitting, hpos⟩
  | joined =>
      rw [lifeNext, if_neg fun hjoined => hpos.2 hjoined.2.2]
      exact ⟨hstarted, hjoin, hquitting, hpos⟩

/-- **A lost wake-up.** Without a wake-up that nobody signalled, `gps_cleanup` never
returns then. -/
theorem GpsLife.Stuck.never_returns {s : GpsLife} (h : s.Stuck) {es : List LifeEvent}
    (hes : .spurious ∉ es) : ¬ (runFrom lifeNext s es).Returned := by
  induction es generalizing s with
  | nil =>
      rintro ⟨-, hjoin⟩
      exact absurd (h.joining.symm.trans hjoin) (by decide)
  | cons e es ih =>
      rw [List.mem_cons, not_or] at hes
      exact ih (lifeNext_stuck h (Ne.symm hes.1)) hes.2

theorem GpsLife.Stuck.not_canReturn {s : GpsLife} (h : s.Stuck) : ¬ s.CanReturn := by
  intro hcan
  obtain ⟨fs, hown, hreturned⟩ := hcan [] rfl
  refine h.never_returns (fun hspurious => ?_) hreturned
  have := List.all_eq_true.mp hown .spurious hspurious
  cases this

/-! ## The life cycle -/

theorem start_handled {s : GpsLife} (h : s.Inv) : (LifeEvent.call .start).Handled s := by
  intro hjoin cmd hcmd _
  by_cases hquit : s.init = .quit
  · simp [GpsCall.command, hquit] at hcmd
  · have hrun : GpsCall.start.run s = gpsStateThread s .start := by
      rw [GpsCall.run, gpsStart, if_neg hquit]
    rw [hrun]
    refine ⟨(gpsStart_inv h hjoin).inStep, fun _ hinit => ?_⟩
    have hstop : s.started = false := by
      by_contra hrun
      have hstart := (h.session (by simpa using hrun)).1
      rw [hinit] at hstart
      cases hstart
    simp [gpsStateThread, hstop]

theorem stop_handled {s : GpsLife} (h : s.Inv) : (LifeEvent.call .stop).Handled s := by
  intro hjoin cmd hcmd _
  have hinv := GpsCall.run_inv h hjoin .stop
  refine ⟨hinv.inStep, fun hstart => ?_⟩
  subst hstart
  by_cases hquit : s.init = .quit <;> simp [GpsCall.command, hquit] at hcmd

theorem quit_handled_iff {s : GpsLife} (h : s.Inv) :
    LifeEvent.ctl.Handled s ↔ LifeEvent.ctl.AtRest s := by
  cases hquitting : s.quitting with
  | false => simp [LifeEvent.Handled, LifeEvent.AtRest, hquitting]
  | true =>
      obtain ⟨hjoin, hactive⟩ := h.quitting hquitting
      have hnext : lifeNext s .ctl = { s with pos := s.pos.signalStart, quitting := false } := by
        rw [lifeNext, if_pos hquitting]
      constructor
      · intro hhandled _
        obtain ⟨-, -, hstop, hcan⟩ := hhandled hquitting
        rw [hnext] at hstop hcan
        refine ⟨hstop, ?_⟩
        by_contra hloops
        rw [not_or, not_or] at hloops
        obtain ⟨hwait, htest, hgone⟩ := hloops
        refine GpsLife.Stuck.not_canReturn ⟨hstop, hjoin, rfl, ?_⟩ hcan
        cases hpc : s.pos <;> simp_all [PosPc.signalStart]
      · intro hrest _
        obtain ⟨hstop, hpos⟩ := hrest hquitting
        refine ⟨(lifeNext_inv s .ctl h hrest).inStep, ?_⟩
        rw [hnext]
        refine ⟨hactive, hstop, GpsLife.Leaving.canReturn ⟨hactive, rfl, ?_, .inl hjoin⟩⟩
        rcases hpos with hpos | hpos | hpos <;> simp [hpos, PosPc.signalStart]

theorem handled_iff_atRest (s : GpsLife) (e : LifeEvent) (h : s.Inv) :
    e.Handled s ↔ e.AtRest s := by
  cases e with
  | call c =>
      refine iff_of_true ?_ trivial
      cases c with
      | init =>
          intro _ cmd hcmd
          simp [GpsCall.command] at hcmd
      | start => exact start_handled h
      | stop => exact stop_handled h
      | cleanup =>
          intro _ cmd hcmd hquit
          by_cases hinit : s.init = .quit
          · simp [GpsCall.command, hinit] at hcmd
          · simp only [GpsCall.command, if_neg hinit, Option.some.injEq] at hcmd
            exact absurd hcmd.symm hquit
  | ctl => exact quit_handled_iff h
  | pos | spurious | answer | timer | joined => exact Iff.rfl

/-- **The life cycle of a session.** In a run of calls and threads, every command
leaves the flags in step, `CMD_QUIT` lets the threads be joined without a wake-up
that nobody signals and `gps_start` behind `gps_init` launches a session, exactly
when every `CMD_QUIT` finds the session stopped and the position thread at rest. -/
theorem lifecycle_iff (events : List LifeEvent) :
    AllSteps lifeNext (fun s e => e.Handled s) GpsLife.boot events ↔
      AllSteps lifeNext (fun s e => e.AtRest s) GpsLife.boot events :=
  allSteps_iff handled_iff_atRest
    (fun s e hs he => lifeNext_inv s e hs ((handled_iff_atRest s e hs).mp he)) GpsLife.boot_inv

/-- `gps_cleanup` waits for a position thread that is in its inner loop, in a
session that was not stopped. -/
structure GpsLife.Hangs (s : GpsLife) : Prop where
  joining : s.joining = true
  started : s.started = true
  pos : s.pos = .testStarted ∨ s.pos = .request ∨ s.pos = .beforeReady ∨ s.pos = .waitReady

theorem lifeNext_hangs (s : GpsLife) (e : LifeEvent) (h : s.Hangs) : (lifeNext s e).Hangs := by
  obtain ⟨hjoin, hstarted, hpos⟩ := h
  cases e with
  | call c =>
      rw [lifeNext, if_pos hjoin]
      exact ⟨hjoin, hstarted, hpos⟩
  | pos =>
      refine ⟨hjoin, hstarted, ?_⟩
      rcases hpos with hpos | hpos | hpos | hpos <;> simp [lifeNext, posStep, hpos, hstarted]
  | spurious =>
      refine ⟨hjoin, hstarted, ?_⟩
      rcases hpos with hpos | hpos | hpos | hpos <;>
        simp [lifeNext, PosPc.spurious, PosPc.signalReady, PosPc.signalStart, hpos]
  | answer =>
      refine ⟨hjoin, hstarted, ?_⟩
      rcases hpos with hpos | hpos | hpos | hpos <;> simp [lifeNext, PosPc.signalReady, hpos]
  | ctl =>
      rw [lifeNext]
      split
      · refine ⟨hjoin, hstarted, ?_⟩
        rcases hpos with hpos | hpos | hpos | hpos <;> simp [PosPc.signalStart, hpos]
      · exact ⟨hjoin, hstarted, hpos⟩
  | timer =>
      rw [lifeNext]
      split
      · exact ⟨hjoin, hstarted, hpos⟩
      · exact ⟨hjoin, hstarted, hpos⟩
  | joined =>
      rw [lifeNext, if_neg]
      · exact ⟨hjoin, hstarted, hpos⟩
      · rintro ⟨-, -, hexited⟩
        rw [hexited] at hpos
        simp at hpos

/-- A session is started and cleaned up without `gps_stop`. -/
def unstoppedCleanup : List LifeEvent :=
  [.call .init, .pos, .pos, .pos, .call .start, .pos, .pos, .call .cleanup, .ctl]

/-- `CMD_QUIT` leaves `started` at 1, and `gps_cleanup` does not return in any
continuation. -/
theorem unstopped_cleanup_hangs :
    (runFrom lifeNext GpsLife.boot unstoppedCleanup).started = true
      ∧ ¬ AllSteps lifeNext (fun s e => e.Handled s) GpsLife.boot unstoppedCleanup
      ∧ ∀ es, (runFrom lifeNext (runFrom lifeNext GpsLife.boot unstoppedCleanup) es).joining
        = true := by
  have hstarted : (runFrom lifeNext GpsLife.boot unstoppedCleanup).started = true := by decide
  refine ⟨hstarted, fun hall => ?_, fun es => ?_⟩
  · have hlast := allSteps_iff_split.mp hall (unstoppedCleanup.take 8) .ctl [] rfl
    obtain ⟨-, -, hstop, -⟩ := hlast (by decide)
    exact absurd (hstarted.symm.trans hstop) (by decide)
  · have hhangs : (runFrom lifeNext GpsLife.boot unstoppedCleanup).Hangs :=
      ⟨by decide, hstarted, by decide⟩
    exact (runFrom_inv lifeNext_hangs hhangs es).joining

end HtcLeo
