import HtcLeo.LightsHistory

/-!
# The thread that polls the battery

A request that finds the battery charging starts a thread, and the next
request cancels it: `handle_speaker_battery_locked` clears
`battery_thread_check`, which the thread tests before each poll. The
requests hold `g_lock`; the threads take no lock. They wait for an older
thread to end and then set `battery_thread_check` themselves.

A step here is one statement, one condition or one write to an LED file,
and a battery check takes its steps in a thread as in a request. What a
request does behind its check is one step: of the variables that a thread
changes it touches none.

A request cancels for good exactly when every thread created before it
has set the flag and is not in the middle of a poll as the request clears
it (`cancel_kept_iff`).
-/

namespace HtcLeo

/-! ## A check in steps -/

/-- Where a party is in `check_battery_level`. -/
inductive CheckPc where
  /-- Before the status file is read. -/
  | read
  /-- At the condition that the last state is neither of the two known ones. -/
  | known (state : Int)
  /-- Before `last_battery_state = BATT_NONE`. -/
  | forget (state : Int)
  /-- At `if (battery_state != last_battery_state)`. -/
  | compare (state : Int)
  /-- Before `last_battery_state = battery_state`. -/
  | store (state : Int)
  /-- At `if (is_lit (&g_battery) && is_lit (&g_notification))`. -/
  | both (state : Int)
  /-- At the same condition in the `else` branch. -/
  | single (state : Int)
  /-- At the writes that are left, with what comes behind them. -/
  | write (writes : List LedWrite) (clears ret : Bool)
  /-- Before `battery_thread_check = 0`. -/
  | drop (ret : Bool)
deriving DecidableEq, Repr

inductive CheckNext where
  | goOn (c : CheckPc)
  | answer (ret : Bool)
deriving DecidableEq, Repr

/-- A step of the check; `ret` is the parameter. -/
def CheckPc.next (status : List Byte) (ret : Bool) (g : Lights) : CheckPc → CheckNext × Lights
  | read => (.goOn (known (batteryState status)), g)
  | known state =>
      if g.lastBatteryState ≠ battCharging ∧ g.lastBatteryState ≠ battFull then
        (.goOn (forget state), g)
      else (.goOn (compare state), g)
  | forget state => (.goOn (compare state), { g with lastBatteryState := battNone })
  | compare state =>
      if state ≠ g.lastBatteryState then (.goOn (store state), g)
      else if ret then (.answer (state = battCharging), g)
      else (.answer ret, g)
  | store state => (.goOn (both state), { g with lastBatteryState := state })
  | both state =>
      if g.gBattery.isLit && g.gNotification.isLit then
        if state = battCharging then (.goOn (write [(.amberBlink, 2), (.greenLed, 0)] false ret), g)
        else (.goOn (write [(.amberLed, 0), (.greenBlink, 3)] true ret), g)
      else (.goOn (single state), g)
  | single state =>
      if !(g.gBattery.isLit && g.gNotification.isLit) then
        if state = battCharging then (.goOn (write [(.amberLed, 1), (.greenLed, 0)] false ret), g)
        else if state = battFull then
          (.goOn (write [(.amberLed, 0), (.greenLed, 1)] true false), g)
        else (.answer ret, g)
      else (.answer ret, g)
  | write (_ :: ws) clears ret => (.goOn (write ws clears ret), g)
  | write [] clears ret => (if clears then .goOn (drop ret) else .answer ret, g)
  | drop ret => (.answer ret, { g with batteryThreadCheck := false })

/-- The write of the step. -/
def CheckPc.writes : CheckPc → List LedWrite
  | write (w :: _) _ _ => [w]
  | _ => []

/-- Steps left, at most. -/
def CheckPc.rank : CheckPc → Nat
  | drop _ => 0
  | write writes _ _ => writes.length + 1
  | single _ => 4
  | both _ => 5
  | store _ => 6
  | compare _ => 7
  | forget _ => 8
  | known _ => 9
  | read => 10

theorem CheckPc.next_rank {c c' : CheckPc} {status : List Byte} {ret : Bool} {g g' : Lights}
    (h : c.next status ret g = (.goOn c', g')) : c'.rank < c.rank := by
  cases c with
  | write writes clears r =>
      cases writes with
      | cons w ws =>
          cases h
          exact Nat.lt_succ_self _
      | nil =>
          rw [next] at h
          split_ifs at h
          · cases h
            exact Nat.zero_lt_one
          · cases h
  | drop r => cases h
  | read =>
      cases h
      exact Nat.lt_succ_self 9
  | forget state =>
      cases h
      exact Nat.lt_succ_self 7
  | store state =>
      cases h
      exact Nat.lt_succ_self 5
  | _ =>
      rw [next] at h
      split_ifs at h <;> cases h <;> simp [rank]

/-- What is behind the branch of a new state. -/
def newBatteryState (state : Int) (ret : Bool) (g : Lights) : Bool × Lights × List LedWrite :=
  if g.gBattery.isLit && g.gNotification.isLit then
    if state = battCharging then (ret, g, [(.amberBlink, 2), (.greenLed, 0)])
    else (ret, { g with batteryThreadCheck := false }, [(.amberLed, 0), (.greenBlink, 3)])
  else if state = battCharging then (ret, g, [(.amberLed, 1), (.greenLed, 0)])
  else if state = battFull then
    (false, { g with batteryThreadCheck := false }, [(.amberLed, 0), (.greenLed, 1)])
  else (ret, g, [])

/-- What the check comes to from here on, if nobody disturbs it: the answer, the
variables and the writes that are left. -/
def CheckPc.result (status : List Byte) (ret : Bool) (g : Lights) :
    CheckPc → Bool × Lights × List LedWrite
  | read => checkBatteryLevel status ret g
  | known state => compareBatteryState state ret (resetLastBatteryState g)
  | forget state => compareBatteryState state ret { g with lastBatteryState := battNone }
  | compare state => compareBatteryState state ret g
  | store state => newBatteryState state ret { g with lastBatteryState := state }
  | both state => newBatteryState state ret g
  | single state =>
      if g.gBattery.isLit && g.gNotification.isLit then (ret, g, [])
      else newBatteryState state ret g
  | write writes clears r =>
      (r, if clears then { g with batteryThreadCheck := false } else g, writes)
  | drop r => (r, { g with batteryThreadCheck := false }, [])

def CheckNext.result (status : List Byte) (ret : Bool) (g : Lights) :
    CheckNext → Bool × Lights × List LedWrite
  | goOn c => c.result status ret g
  | answer r => (r, g, [])

/-- A step leads to what is left. -/
theorem CheckPc.next_result (c : CheckPc) (status : List Byte) (ret : Bool) (g : Lights) :
    c.result status ret g
      = let left := (c.next status ret g).1.result status ret (c.next status ret g).2
        (left.1, left.2.1, c.writes ++ left.2.2) := by
  cases c with
  | read => rfl
  | forget state => rfl
  | store state => rfl
  | drop r => rfl
  | known state =>
      simp only [result, next, resetLastBatteryState]
      split_ifs <;> rfl
  | compare state =>
      by_cases hchanged : state ≠ g.lastBatteryState
      · simp only [result, next, compareBatteryState, if_pos hchanged]
        rfl
      · simp only [result, next, compareBatteryState, if_neg hchanged]
        split_ifs <;> rfl
  | both state =>
      by_cases hlit : (g.gBattery.isLit && g.gNotification.isLit) = true
      · simp only [result, next, newBatteryState, if_pos hlit]
        split_ifs <;> rfl
      · simp only [next, if_neg hlit, CheckNext.result, result]
        rfl
  | single state =>
      by_cases hlit : (g.gBattery.isLit && g.gNotification.isLit) = true
      · simp only [result, next, hlit]
        rfl
      · rw [Bool.not_eq_true] at hlit
        simp only [result, next, newBatteryState, hlit]
        split_ifs <;> first | rfl | contradiction
  | write writes clears r =>
      cases writes with
      | cons w ws => rfl
      | nil => cases clears <;> rfl

/-! ## Threads and requests -/

/-- Where a thread is in `battery_level_check`. -/
inductive PollPc where
  /-- At `while (battery_thread_running)`. -/
  | wait
  /-- Before `battery_thread_running = 1`. -/
  | claim
  /-- Before `battery_thread_check = 1`. -/
  | arm
  /-- At `while (battery_thread_check)`. -/
  | test
  /-- In `check_battery_level (0)`. -/
  | poll (c : CheckPc)
  /-- In `nanosleep (&wait, NULL)`. -/
  | sleep
  /-- Before `battery_thread_running = 0`. -/
  | finish
  | done
deriving DecidableEq, Repr

/-- The thread has yet to set `battery_thread_check`. -/
def PollPc.pending : PollPc → Bool
  | wait | claim | arm => true
  | _ => false

/-- The thread is in the middle of a poll. -/
def PollPc.polling : PollPc → Bool
  | poll _ => true
  | _ => false

/-- The thread has set `battery_thread_running` and not cleared it. -/
def PollPc.active : PollPc → Bool
  | wait | claim | done => false
  | _ => true

/-- Where a request is, between `pthread_mutex_lock` and `pthread_mutex_unlock`. -/
inductive RequestPc where
  | idle
  /-- Before the reset of the thread variables. -/
  | reset
  /-- In `check_battery_level (1)`. -/
  | check (c : CheckPc)
  /-- Behind the check, which returned `ret`. -/
  | answered (ret : Bool)
deriving DecidableEq, Repr

structure LightsSys where
  lights : Lights
  /-- The writes to the LED files so far. -/
  written : List LedWrite
  batteryThreadRunning : Bool
  threads : List PollPc
  request : RequestPc
deriving DecidableEq, Repr

def LightsSys.init : LightsSys := ⟨.init, [], false, [], .idle⟩

def LightsSys.flag (s : LightsSys) : Bool := s.lights.batteryThreadCheck

def LightsSys.setFlag (s : LightsSys) (flag : Bool) : LightsSys :=
  { s with lights := { s.lights with batteryThreadCheck := flag } }

/-! ## Steps -/

/-- The last part of a request, for an answer of the check. -/
def showAnswer (ret created : Bool) (g : Lights) : LightsOut :=
  showLights (fun g => (ret, g, [])) created g

/-- A step of a check, in whichever party. -/
def LightsSys.checked (s : LightsSys) (c : CheckPc) (g : Lights) : LightsSys :=
  { s with lights := g, written := s.written ++ c.writes }

/-- Where a thread goes from its check. -/
def CheckNext.thread : CheckNext → PollPc
  | goOn c => .poll c
  | answer _ => .sleep

/-- Where a request goes from its check. -/
def CheckNext.request : CheckNext → RequestPc
  | goOn c => .check c
  | answer ret => .answered ret

/-- What a step of a thread does besides going on to the next place. -/
def PollPc.next (s : LightsSys) (status : List Byte) : PollPc → PollPc × LightsSys
  | wait => (if s.batteryThreadRunning then wait else claim, s)
  | claim => (arm, { s with batteryThreadRunning := true })
  | arm => (test, s.setFlag true)
  | test => (if s.flag then poll .read else finish, s)
  | poll c =>
      let r := c.next status false s.lights
      (r.1.thread, s.checked c r.2)
  | sleep => (test, s)
  | finish => (done, { s with batteryThreadRunning := false })
  | done => (done, s)

def threadStep (s : LightsSys) (i : Nat) (status : List Byte) : LightsSys :=
  match s.threads[i]? with
  | some pc =>
      let (pc, s) := pc.next s status
      { s with threads := s.threads.set i pc }
  | none => s

def requestStep (s : LightsSys) (status : List Byte) (created : Bool) : LightsSys :=
  match s.request with
  | .idle => s
  | .reset =>
      { s with
        lights := resetThread s.lights
        request := if s.lights.checks then .check .read else .answered false }
  | .check c =>
      let r := c.next status true s.lights
      { s.checked c r.2 with request := r.1.request }
  | .answered ret =>
      let out := showAnswer ret created s.lights
      { s with
        lights := out.lights
        written := s.written ++ out.writes
        threads := if out.started then s.threads ++ [.wait] else s.threads
        request := .idle }

inductive LightsEvent where
  | call (call : LightCall)
  | request (status : List Byte) (created : Bool)
  | thread (i : Nat) (status : List Byte)

/-- A step; a call waits for `g_lock`. -/
def lightsNext (s : LightsSys) : LightsEvent → LightsSys
  | .call call =>
      if s.request = .idle then { s with lights := call.store s.lights, request := .reset } else s
  | .request status created => requestStep s status created
  | .thread i status => threadStep s i status

/-- The step is that of a request which creates a thread. -/
def LightsEvent.starts (s : LightsSys) : LightsEvent → Bool
  | .request _ created =>
      match s.request with
      | .answered ret => (showAnswer ret created s.lights).started
      | _ => false
  | _ => false

/-! ## A request by itself -/

/-- Without the threads, the request in `s` comes to `s'`. -/
def LightsSys.Alone (status : List Byte) (created : Bool) (s s' : LightsSys) : Prop :=
  ∃ n, runFrom lightsNext s (List.replicate n (.request status created)) = s'

theorem LightsSys.Alone.trans {status : List Byte} {created : Bool} {s s' s'' : LightsSys}
    (h : s.Alone status created s') (h' : s'.Alone status created s'') :
    s.Alone status created s'' := by
  obtain ⟨n, hn⟩ := h
  obtain ⟨m, hm⟩ := h'
  refine ⟨n + m, ?_⟩
  rw [List.replicate_add, runFrom_append, hn, hm]

/-- A check that no thread disturbs comes to its result. -/
theorem check_alone {s : LightsSys} {c : CheckPc} (hcheck : s.request = .check c)
    (status : List Byte) (created : Bool) :
    s.Alone status created { s with
      lights := (c.result status true s.lights).2.1
      written := s.written ++ (c.result status true s.lights).2.2
      request := .answered (c.result status true s.lights).1 } := by
  generalize hn : c.rank = n
  induction n using Nat.strongRecOn generalizing s c with
  | ind n ih =>
      have hstep : s.Alone status created
          { s.checked c (c.next status true s.lights).2 with
            request := (c.next status true s.lights).1.request } := by
        refine ⟨1, ?_⟩
        simp only [List.replicate_one, runFrom_cons, runFrom_nil, lightsNext, requestStep, hcheck]
      refine hstep.trans ?_
      rw [c.next_result]
      cases hnext : c.next status true s.lights with
      | mk next g =>
          cases next with
          | goOn c' =>
              have hrest := ih c'.rank (hn ▸ CheckPc.next_rank hnext)
                (s := { s.checked c g with request := .check c' }) rfl rfl
              rwa [LightsSys.checked, List.append_assoc] at hrest
          | answer r =>
              refine ⟨0, ?_⟩
              simp only [List.replicate_zero, runFrom_nil, LightsSys.checked, CheckNext.result,
                CheckNext.request, List.append_nil]

/-- Without a check the request does not ask for its answer. -/
theorem showLights_of_not_checks {g : Lights} (h : g.checks = false)
    (check check' : Lights → Bool × Lights × List LedWrite) (created : Bool) :
    showLights check created g = showLights check' created g := by
  unfold Lights.checks at h
  unfold showLights
  cases hlit : g.gBattery.isLit with
  | false => simp
  | true =>
      rw [hlit, Bool.true_and, Bool.or_eq_false_iff] at h
      simp [h.1, h.2]

theorem showLights_of_checks {g g' : Lights} {check : Lights → Bool × Lights × List LedWrite}
    {ret : Bool} {writes : List LedWrite} (h : g.checks = true)
    (hcheck : check g = (ret, g', writes))
    (hbattery : g'.gBattery = g.gBattery) (hnotification : g'.gNotification = g.gNotification)
    (created : Bool) :
    showLights check created g
      = { showAnswer ret created g' with
          writes := writes ++ (showAnswer ret created g').writes } := by
  unfold Lights.checks at h
  rw [Bool.and_eq_true] at h
  unfold showAnswer showLights
  rw [hbattery, hnotification, h.1]
  cases hnot : g.gNotification.isLit with
  | true =>
      simp only [Bool.and_self, if_true, setSpeakerLightLockedDual, hcheck]
      split_ifs <;> simp
  | false =>
      rw [hnot, Bool.false_or] at h
      simp only [Bool.and_false, Bool.false_eq_true, if_false, if_true, h.2, setGreenBattery,
        hcheck, List.nil_append]

/-- A request that no thread disturbs is the one of `setLight`. -/
theorem request_alone {s : LightsSys} (hidle : s.request = .idle) (r : LightRequest) :
    (lightsNext s (.call r.call)).Alone r.status r.created { s with
      lights := (setLight s.lights r).lights
      written := s.written ++ (setLight s.lights r).writes
      threads := if (setLight s.lights r).started then s.threads ++ [.wait] else s.threads } := by
  rw [lightsNext, if_pos hidle, setLight, handleSpeakerBatteryLocked]
  generalize r.call.store s.lights = g
  have hreset : (resetThread g).checks = g.checks := rfl
  cases hchecks : g.checks with
  | false =>
      rw [hchecks] at hreset
      rw [showLights_of_not_checks hreset _ fun g => (false, g, [])]
      refine ⟨2, ?_⟩
      simp only [List.replicate_succ, List.replicate_zero, runFrom_cons, runFrom_nil, lightsNext,
        requestStep, hchecks, showAnswer, hidle, Bool.false_eq_true, if_false]
      rfl
  | true =>
      rw [hchecks] at hreset
      have hfirst : ({ s with lights := g, request := .reset } : LightsSys).Alone r.status r.created
          { s with lights := resetThread g, request := .check .read } := by
        refine ⟨1, ?_⟩
        simp [lightsNext, requestStep, hchecks]
      refine (hfirst.trans (check_alone rfl r.status r.created)).trans ⟨1, ?_⟩
      obtain ⟨writes, check, hcheck, -⟩ := checkBatteryLevel_spec r.status (resetThread g)
      rw [showLights_of_checks hreset hcheck rfl rfl]
      simp only [List.replicate_one, runFrom_cons, runFrom_nil, lightsNext, requestStep,
        CheckPc.result, hcheck, hidle, List.append_assoc]

/-! ## Cancelled for good -/

/-- The flag is clear, and every thread is beyond setting it and in no poll. -/
structure LightsSys.Quiet (s : LightsSys) : Prop where
  flag : s.flag = false
  threads : ∀ pc ∈ s.threads, pc.pending = false ∧ pc.polling = false

/-- The step leaves the flag clear. If it is one of a thread, it is no step of a poll,
nor the one that goes on to it, and it writes to no LED file. -/
structure StaysCancelled (s : LightsSys) (e : LightsEvent) : Prop where
  flag : (lightsNext s e).flag = false
  polls : ∀ i status pc, e = .thread i status → s.threads[i]? = some pc →
    pc.polling = false ∧ (pc.next s status).1.polling = false
  leds : ∀ i status, e = .thread i status → (lightsNext s e).written = s.written

theorem showAnswer_flag (ret created : Bool) (g : Lights) :
    (showAnswer ret created g).lights.batteryThreadCheck = g.batteryThreadCheck := by
  unfold showAnswer showLights
  split_ifs
  · obtain ⟨checker, h⟩ := @setSpeakerLightLockedDual_lights (fun g => (ret, g, [])) g g ret [] rfl
      created g.gBattery
    rw [h]
  · simp only [setGreenBattery, setSpeakerLightLocked_lights]
    split_ifs
    · obtain ⟨checker, h⟩ := startBatteryThread_keeps created { g with forceLedAmber := true }
      rw [h]
    · rfl
  · simp only [setSpeakerLightLocked_lights]
  · simp only [setSpeakerLightLocked_lights]

/-- No check sets the flag. -/
theorem CheckPc.next_flag {g : Lights} (hflag : g.batteryThreadCheck = false) (c : CheckPc)
    (status : List Byte) (ret : Bool) : (c.next status ret g).2.batteryThreadCheck = false := by
  cases c with
  | write writes clears r => cases writes <;> exact hflag
  | drop r => rfl
  | read => exact hflag
  | forget state => exact hflag
  | store state => exact hflag
  | _ =>
      rw [next]
      split_ifs <;> exact hflag

section Quiet

variable {s : LightsSys}

/-- A thread between two polls leaves the flag clear and does not go on to the next one. -/
theorem PollPc.next_quiet {pc : PollPc} (hpc : pc.pending = false ∧ pc.polling = false)
    (hflag : s.flag = false) (status : List Byte) :
    ((pc.next s status).1.pending = false ∧ (pc.next s status).1.polling = false)
      ∧ (pc.next s status).2.flag = false := by
  cases pc with
  | wait => cases hpc.1
  | claim => cases hpc.1
  | arm => cases hpc.1
  | test =>
      refine ⟨?_, hflag⟩
      rw [PollPc.next, hflag]
      exact ⟨rfl, rfl⟩
  | poll c => cases hpc.2
  | sleep => exact ⟨⟨rfl, rfl⟩, hflag⟩
  | finish => exact ⟨⟨rfl, rfl⟩, hflag⟩
  | done => exact ⟨⟨rfl, rfl⟩, hflag⟩

theorem PollPc.next_threads (pc : PollPc) (s : LightsSys) (status : List Byte) :
    (pc.next s status).2.threads = s.threads := by
  cases pc <;> rfl

/-- Only a poll writes to the LED files. -/
theorem PollPc.next_written {pc : PollPc} (hpc : pc.polling = false) (status : List Byte) :
    (pc.next s status).2.written = s.written := by
  cases pc with
  | poll c => cases hpc
  | _ => rfl

theorem threadStep_of {i : Nat} {pc : PollPc} (hpc : s.threads[i]? = some pc)
    (status : List Byte) :
    threadStep s i status
      = { (pc.next s status).2 with threads := s.threads.set i (pc.next s status).1 } := by
  simp only [threadStep, hpc, PollPc.next_threads]

theorem threadStep_quiet (h : s.Quiet) (i : Nat) (status : List Byte) :
    (threadStep s i status).Quiet := by
  cases hpc : s.threads[i]? with
  | none => simpa [threadStep, hpc] using h
  | some pc =>
      have hnext := PollPc.next_quiet (h.threads pc (List.mem_of_getElem? hpc)) h.flag status
      rw [threadStep_of hpc]
      refine ⟨hnext.2, fun pc' hpc' => ?_⟩
      rcases List.mem_or_eq_of_mem_set hpc' with hold | rfl
      · exact h.threads pc' hold
      · exact hnext.1

theorem requestStep_quiet (h : s.Quiet) {status : List Byte} {created : Bool}
    (hstart : LightsEvent.starts s (.request status created) = false) :
    (requestStep s status created).Quiet := by
  unfold requestStep
  cases hrequest : s.request with
  | idle => exact h
  | reset => exact ⟨rfl, h.threads⟩
  | check c => exact ⟨c.next_flag h.flag status true, h.threads⟩
  | answered ret =>
      simp only [LightsEvent.starts, hrequest] at hstart
      refine ⟨(showAnswer_flag ret created s.lights).trans h.flag, ?_⟩
      simpa [hstart] using h.threads

theorem lightsNext_quiet (h : s.Quiet) {e : LightsEvent} (hstart : e.starts s = false) :
    (lightsNext s e).Quiet := by
  cases e with
  | call call =>
      rw [lightsNext]
      split_ifs
      · exact ⟨by cases call <;> exact h.flag, h.threads⟩
      · exact h
  | request status created => exact requestStep_quiet h hstart
  | thread i status => exact threadStep_quiet h i status

theorem LightsSys.Quiet.staysCancelled (h : s.Quiet) {e : LightsEvent}
    (hstart : e.starts s = false) : StaysCancelled s e := by
  refine ⟨(lightsNext_quiet h hstart).flag, ?_, ?_⟩
  · rintro i status pc rfl hpc
    have hrest := h.threads pc (List.mem_of_getElem? hpc)
    exact ⟨hrest.2, (PollPc.next_quiet hrest h.flag status).1.2⟩
  · rintro i status rfl
    cases hpc : s.threads[i]? with
    | none => simp [lightsNext, threadStep, hpc]
    | some pc =>
        rw [lightsNext, threadStep_of hpc]
        exact PollPc.next_written (h.threads pc (List.mem_of_getElem? hpc)).2 status

end Quiet

/-! ## Cancelled in vain -/

/-- `battery_thread_running` is that of some thread. -/
def LightsSys.Claimed (s : LightsSys) : Prop :=
  s.batteryThreadRunning = true →
    ∃ (i : Nat) (pc : PollPc), s.threads[i]? = some pc ∧ pc.active = true

theorem PollPc.next_running {pc : PollPc} {s : LightsSys} {status : List Byte}
    (h : (pc.next s status).2.batteryThreadRunning = true) :
    (pc.next s status).1.active = true ∨ pc.active = false ∧ s.batteryThreadRunning = true := by
  cases pc with
  | wait => exact .inr ⟨rfl, h⟩
  | claim => exact .inl rfl
  | arm => exact .inl rfl
  | test =>
      rw [PollPc.next]
      split_ifs <;> exact .inl rfl
  | poll c =>
      refine .inl ?_
      rw [PollPc.next]
      cases (c.next status false s.lights).1 <;> rfl
  | sleep => exact .inl rfl
  | finish => cases h
  | done => exact .inr ⟨rfl, h⟩

theorem threadStep_claimed {s : LightsSys} (hs : s.Claimed) (i : Nat) (status : List Byte) :
    (threadStep s i status).Claimed := by
  cases hpc : s.threads[i]? with
  | none => simpa [threadStep, hpc] using hs
  | some pc =>
      have hlt : i < s.threads.length := (List.getElem?_eq_some_iff.mp hpc).1
      rw [threadStep_of hpc]
      intro hrunning
      rcases PollPc.next_running hrunning with hactive | ⟨hidle, hrunning⟩
      · exact ⟨i, _, List.getElem?_set_self hlt, hactive⟩
      · obtain ⟨j, pc', hj, hactive⟩ := hs hrunning
        have hne : i ≠ j := by
          rintro rfl
          rw [hpc] at hj
          cases hj
          exact Bool.false_ne_true (hidle.symm.trans hactive)
        exact ⟨j, pc', (List.getElem?_set_ne hne).trans hj, hactive⟩

theorem requestStep_threads (s : LightsSys) (status : List Byte) (created : Bool) :
    (requestStep s status created).batteryThreadRunning = s.batteryThreadRunning
      ∧ ∃ more, (requestStep s status created).threads = s.threads ++ more := by
  unfold requestStep
  cases s.request with
  | answered ret =>
      refine ⟨rfl, ?_⟩
      simp only
      split_ifs
      · exact ⟨[.wait], rfl⟩
      · exact ⟨[], (List.append_nil _).symm⟩
  | _ => exact ⟨rfl, [], (List.append_nil _).symm⟩

theorem lightsNext_claimed (s : LightsSys) (e : LightsEvent) (hs : s.Claimed) :
    (lightsNext s e).Claimed := by
  cases e with
  | call call =>
      rw [lightsNext]
      split_ifs <;> exact hs
  | request status created =>
      obtain ⟨hsame, more, hmore⟩ := requestStep_threads s status created
      intro hrunning
      obtain ⟨i, pc, hpc, hactive⟩ := hs (hsame.symm.trans hrunning)
      refine ⟨i, pc, ?_, hactive⟩
      rw [lightsNext, hmore, List.getElem?_append_left (List.getElem?_eq_some_iff.mp hpc).1, hpc]
  | thread i status => exact threadStep_claimed hs i status

theorem run_claimed (es : List LightsEvent) : (runFrom lightsNext .init es).Claimed :=
  runFrom_inv lightsNext_claimed (fun h => absurd h Bool.false_ne_true) es

/-- Some run in which no thread is started leads to `Q`. -/
def CanReach (s : LightsSys) (Q : LightsSys → Prop) : Prop :=
  ∃ es, AllSteps lightsNext (fun s e => e.starts s = false) s es ∧ Q (runFrom lightsNext s es)

theorem CanReach.refl {s : LightsSys} {Q : LightsSys → Prop} (h : Q s) : CanReach s Q :=
  ⟨[], trivial, h⟩

theorem CanReach.step {s : LightsSys} {Q : LightsSys → Prop} {e : LightsEvent}
    (hstart : e.starts s = false) (h : CanReach (lightsNext s e) Q) : CanReach s Q := by
  obtain ⟨es, hes, hQ⟩ := h
  exact ⟨e :: es, ⟨hstart, hes⟩, hQ⟩

theorem CanReach.trans {s : LightsSys} {Q R : LightsSys → Prop} (h : CanReach s Q)
    (hnext : ∀ s, Q s → CanReach s R) : CanReach s R := by
  obtain ⟨es, hes, hQ⟩ := h
  obtain ⟨fs, hfs, hR⟩ := hnext _ hQ
  refine ⟨es ++ fs, AllSteps.append.mpr ⟨hes, hfs⟩, ?_⟩
  rwa [runFrom_append]

/-- The threads are where they were, and the flag is not set. -/
structure LightsSys.Undisturbed (s s' : LightsSys) : Prop where
  threads : s'.threads = s.threads
  running : s'.batteryThreadRunning = s.batteryThreadRunning
  flag : s.flag = false → s'.flag = false

theorem LightsSys.Undisturbed.trans {s s' s'' : LightsSys} (h : s.Undisturbed s')
    (h' : s'.Undisturbed s'') : s.Undisturbed s'' :=
  ⟨h'.threads.trans h.threads, h'.running.trans h.running, fun hflag => h'.flag (h.flag hflag)⟩

def RequestPc.rank : RequestPc → Nat
  | idle => 0
  | answered _ => 1
  | check c => c.rank + 2
  | reset => 13

/-- Without `pthread_create` a request starts nothing. -/
theorem showAnswer_not_created (ret : Bool) (g : Lights) :
    (showAnswer ret false g).started = false := by
  have hstart (g : Lights) : (startBatteryThread false g).2 = false := by
    unfold startBatteryThread
    split_ifs <;> rfl
  unfold showAnswer showLights
  split_ifs
  · simp only [setSpeakerLightLockedDual]
    split_ifs <;> first | rfl | exact hstart g
  · simp only [setGreenBattery]
    split_ifs
    · exact hstart _
    · rfl
  · rfl
  · rfl

theorem request_not_starts (s : LightsSys) (status : List Byte) :
    LightsEvent.starts s (.request status false) = false := by
  unfold LightsEvent.starts
  cases s.request with
  | answered ret => exact showAnswer_not_created ret s.lights
  | _ => rfl

/-- One step of a request that starts nothing, towards its end. -/
theorem requestStep_advances (s : LightsSys) (hbusy : s.request ≠ .idle) :
    (requestStep s [] false).request.rank < s.request.rank
      ∧ s.Undisturbed (requestStep s [] false) := by
  unfold requestStep
  cases hrequest : s.request with
  | idle => exact absurd hrequest hbusy
  | reset =>
      refine ⟨?_, rfl, rfl, fun _ => rfl⟩
      simp only
      split_ifs <;> simp [RequestPc.rank, CheckPc.rank]
  | check c =>
      refine ⟨?_, rfl, rfl, fun hflag => c.next_flag hflag [] true⟩
      change (c.next [] true s.lights).1.request.rank < c.rank + 2
      cases hnext : c.next [] true s.lights with
      | mk next g =>
          cases next with
          | goOn c' => exact Nat.add_lt_add_right (CheckPc.next_rank hnext) 2
          | answer ret => exact Nat.lt_add_left c.rank (Nat.lt_succ_self 1)
  | answered ret =>
      refine ⟨Nat.lt_succ_self 0, ?_, rfl,
        fun hflag => (showAnswer_flag ret false s.lights).trans hflag⟩
      simp [showAnswer_not_created]

theorem request_returns (s : LightsSys) :
    CanReach s fun s' => s'.request = .idle ∧ s.Undisturbed s' := by
  generalize hn : s.request.rank = n
  induction n using Nat.strongRecOn generalizing s with
  | ind n ih =>
      by_cases hidle : s.request = .idle
      · exact .refl ⟨hidle, rfl, rfl, id⟩
      · obtain ⟨hrank, hsame⟩ := requestStep_advances s hidle
        have hrest := ih _ (hn ▸ hrank) (lightsNext s (.request [] false)) rfl
        exact .step (request_not_starts s []) (hrest.trans fun s' hs' =>
          .refl ⟨hs'.1, hsame.trans hs'.2⟩)

def PollPc.rank : PollPc → Nat
  | finish => 1
  | test => 2
  | sleep => 3
  | _ => 0

/-- One step of a thread between two polls towards its end, once the flag is clear. -/
theorem PollPc.next_advances {pc : PollPc} {s : LightsSys} (hactive : pc.active = true)
    (hrest : pc.pending = false ∧ pc.polling = false) (hflag : s.flag = false) :
    (pc.next s []).2.batteryThreadRunning = false ∨
      (pc.next s []).1.active = true ∧ (pc.next s []).1.rank < pc.rank := by
  cases pc with
  | wait => cases hactive
  | claim => cases hactive
  | arm => cases hrest.1
  | test =>
      rw [PollPc.next, hflag]
      exact .inr ⟨rfl, Nat.lt_succ_self 1⟩
  | poll c => cases hrest.2
  | sleep => exact .inr ⟨rfl, Nat.lt_succ_self 2⟩
  | finish => exact .inl rfl
  | done => cases hactive

/-- Such a thread can come to its end, with the other threads where they are. -/
theorem thread_ends {s : LightsSys} {i : Nat} {pc : PollPc} (hpc : s.threads[i]? = some pc)
    (hactive : pc.active = true) (hrest : pc.pending = false ∧ pc.polling = false)
    (hflag : s.flag = false) :
    CanReach s fun s' => s'.batteryThreadRunning = false ∧ s'.flag = false
      ∧ ∀ j, i ≠ j → s'.threads[j]? = s.threads[j]? := by
  generalize hn : pc.rank = n
  induction n using Nat.strongRecOn generalizing s pc with
  | ind n ih =>
      have hlt : i < s.threads.length := (List.getElem?_eq_some_iff.mp hpc).1
      have hquiet := PollPc.next_quiet hrest hflag []
      have hstep : lightsNext s (.thread i []) = _ := threadStep_of hpc []
      have hothers (j : Nat) (hne : i ≠ j) :
          (lightsNext s (.thread i [])).threads[j]? = s.threads[j]? := by
        rw [hstep, List.getElem?_set_ne hne]
      refine .step (e := .thread i []) rfl ?_
      rcases PollPc.next_advances hactive hrest hflag with hended | ⟨hactive', hrank⟩
      · refine .refl ⟨?_, ?_, hothers⟩
        · rw [hstep]
          exact hended
        · rw [hstep]
          exact hquiet.2
      · have hrest := ih _ (hn ▸ hrank) (s := lightsNext s (.thread i []))
          (by rw [hstep, List.getElem?_set_self hlt]) hactive' hquiet.1
          (by rw [hstep]; exact hquiet.2) rfl
        exact hrest.trans fun s' hs' =>
          .refl ⟨hs'.1, hs'.2.1, fun j hne => (hs'.2.2 j hne).trans (hothers j hne)⟩

theorem arm_sets_flag {s : LightsSys} {j : Nat} (h : s.threads[j]? = some .arm) :
    CanReach s fun s' => s'.flag = true := by
  refine .step (e := .thread j []) rfl (.refl ?_)
  rw [lightsNext, threadStep_of h]
  rfl

theorem claim_sets_flag {s : LightsSys} {j : Nat} (h : s.threads[j]? = some .claim) :
    CanReach s fun s' => s'.flag = true := by
  refine .step (e := .thread j []) rfl (arm_sets_flag (j := j) ?_)
  rw [lightsNext, threadStep_of h, List.getElem?_set_self (List.getElem?_eq_some_iff.mp h).1]
  rfl

theorem wait_sets_flag {s : LightsSys} {j : Nat} (h : s.threads[j]? = some .wait)
    (hfree : s.batteryThreadRunning = false) : CanReach s fun s' => s'.flag = true := by
  refine .step (e := .thread j []) rfl (claim_sets_flag (j := j) ?_)
  rw [lightsNext, threadStep_of h, List.getElem?_set_self (List.getElem?_eq_some_iff.mp h).1,
    PollPc.next, hfree]
  rfl

/-- With no thread in a poll, one that has yet to set the flag can come to do so. -/
theorem pending_arms {s : LightsSys} (hclaimed : s.Claimed) (hflag : s.flag = false)
    (hnone : ∀ pc ∈ s.threads, pc.polling = false) {j : Nat} {pc : PollPc}
    (hpc : s.threads[j]? = some pc) (hpending : pc.pending = true) :
    CanReach s fun s' => s'.flag = true := by
  cases pc with
  | wait =>
      cases hrunning : s.batteryThreadRunning with
      | false => exact wait_sets_flag hpc hrunning
      | true =>
          -- the thread it waits for ends first, unless that one sets the flag itself
          obtain ⟨i, pc, hi, hactive⟩ := hclaimed hrunning
          cases hpc' : pc.pending with
          | true =>
              cases pc with
              | arm => exact arm_sets_flag hi
              | wait => cases hactive
              | claim => cases hactive
              | _ => cases hpc'
          | false =>
              have hne : i ≠ j := by
                rintro rfl
                rw [hpc] at hi
                cases hi
                cases hactive
              have hrest := hnone pc (List.mem_of_getElem? hi)
              exact (thread_ends hi hactive ⟨hpc', hrest⟩ hflag).trans fun s' hs' =>
                wait_sets_flag ((hs'.2.2 j hne).trans hpc) hs'.1
  | claim => exact claim_sets_flag hpc
  | arm => exact arm_sets_flag hpc
  | _ => cases hpending

/-! ## The cancelling request -/

/-- The step of a request that clears the flag does nothing to the threads. -/
theorem cancel_clears {s : LightsSys} (hreset : s.request = .reset) (status : List Byte)
    (created : Bool) :
    (lightsNext s (.request status created)).flag = false
      ∧ (lightsNext s (.request status created)).threads = s.threads := by
  simp only [lightsNext, requestStep, hreset]
  exact ⟨rfl, trivial⟩

/-- A request, in any reachable state, clears the flag. In every run from there
in which it returns and no thread is started, the flag stays clear and no thread
polls or writes to the LED files, exactly if all threads that exist have set the
flag before and are in no poll. -/
theorem cancel_kept_iff (before : List LightsEvent) (status : List Byte) (created : Bool)
    (hreset : (runFrom lightsNext .init before).request = .reset) :
    let cleared := lightsNext (runFrom lightsNext .init before) (.request status created)
    (∀ during after : List LightsEvent,
        (runFrom lightsNext cleared during).request = .idle →
        AllSteps lightsNext (fun s e => e.starts s = false) cleared (during ++ after) →
        AllSteps lightsNext StaysCancelled cleared (during ++ after))
      ↔ ∀ pc ∈ (runFrom lightsNext .init before).threads,
        pc.pending = false ∧ pc.polling = false := by
  intro cleared
  have hclaimed : cleared.Claimed := lightsNext_claimed _ _ (run_claimed before)
  obtain ⟨hflag, hthreads⟩ := cancel_clears hreset status created
  rw [← hthreads]
  constructor
  · intro hkept
    obtain ⟨during, hduring, hidle, hsame⟩ := request_returns cleared
    have hkept' (after : List LightsEvent)
        (hafter : AllSteps lightsNext (fun s e => e.starts s = false)
          (runFrom lightsNext cleared during) after) :=
      hkept during after hidle (AllSteps.append.mpr ⟨hduring, hafter⟩)
    -- a thread in a poll goes on with it once the request has returned
    have hnone : ∀ pc ∈ cleared.threads, pc.polling = false := by
      intro pc hpc
      obtain ⟨j, hj⟩ := List.getElem?_of_mem hpc
      have hpolls := (AllSteps.append.mp (hkept' [.thread j []] ⟨rfl, trivial⟩)).2.1.polls j [] pc
      rw [hsame.threads] at hpolls
      exact (hpolls rfl hj).1
    intro pc hpc
    refine ⟨?_, hnone pc hpc⟩
    obtain ⟨j, hj⟩ := List.getElem?_of_mem hpc
    cases hpending : pc.pending with
    | false => rfl
    | true =>
        have hclaimed' := runFrom_inv lightsNext_claimed hclaimed during
        obtain ⟨after, hafter, hset⟩ := pending_arms hclaimed' (hsame.flag hflag)
          (by rw [hsame.threads]; exact hnone) (by rw [hsame.threads, hj]) hpending
        have hclear := AllSteps.run_inv (I := fun s => s.flag = false)
          (fun s e _ h => h.flag) hflag (hkept' after hafter)
        rw [runFrom_append, hset] at hclear
        cases hclear
  · intro hnone during after _ hstart
    exact AllSteps.imp (I := LightsSys.Quiet) (fun s e hs he => lightsNext_quiet hs he)
      (fun s e hs he => hs.staysCancelled he) ⟨hflag, hnone⟩ hstart

/-- A steady green battery light while the battery is charging. -/
def chargingRequest : List LightsEvent :=
  .call (.battery ⟨0x00ff00, lightFlashNone⟩) :: List.replicate 12 (.request statusCharging true)

/-- A thread that sleeps between two polls is cancelled by the request that puts the
light out. -/
theorem polling_thread_cancelled :
    let before : List LightsEvent := chargingRequest
      ++ List.replicate 7 (.thread 0 statusCharging) ++ [.call (.battery ⟨0, lightFlashNone⟩)]
    let cleared := lightsNext (runFrom lightsNext .init before) (.request [] false)
    (runFrom lightsNext .init before).threads = [.sleep] ∧
      ∀ during after : List LightsEvent,
        (runFrom lightsNext cleared during).request = .idle →
        AllSteps lightsNext (fun s e => e.starts s = false) cleared (during ++ after) →
        AllSteps lightsNext StaysCancelled cleared (during ++ after) :=
  ⟨by decide, (cancel_kept_iff _ [] false (by decide)).mpr (by decide)⟩

/-- A thread that has not begun when the request puts the light out polls all the same. -/
theorem new_thread_not_cancelled :
    let before : List LightsEvent := chargingRequest ++ [.call (.battery ⟨0, lightFlashNone⟩)]
    let during : List LightsEvent := [.request [] false]
    let after : List LightsEvent := List.replicate 4 (.thread 0 statusCharging)
    let cleared := lightsNext (runFrom lightsNext .init before) (.request [] false)
    (runFrom lightsNext .init before).request = .reset
      ∧ (runFrom lightsNext cleared during).request = .idle
      ∧ AllSteps lightsNext (fun s e => e.starts s = false) cleared (during ++ after)
      ∧ (runFrom lightsNext cleared (during ++ after)).flag = true
      ∧ (runFrom lightsNext cleared (during ++ after)).threads = [.poll .read] := by
  decide

end HtcLeo
