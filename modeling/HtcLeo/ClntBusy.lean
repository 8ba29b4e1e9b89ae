import Mathlib.Logic.Function.Basic
import HtcLeo.Mem
import HtcLeo.Runs

/-!
# The input buffer of a client (`rx_context`, `cb_context`, `clnt_call`)

The RX thread reads every incoming message of a client into one buffer,
marks it busy and hands it over: a reply to the caller that waits in
`clnt_call`, anything else to the callback thread. It reads the next
message only after the one it handed the buffer to has marked it free
again.

The threads are modelled by their program counters. A section that holds
`input_xdr_lock` is one step, and so are the two sections of the RX
thread that hold `wait_reply_lock` or `wait_cb_lock`; these locks, and
`client->lock`, are otherwise held over several steps of a caller or of
the callback thread. Waiting on a condition may end without a signal, and
a signal that nobody waits for is lost.

A message is not always taken: a reply that comes when nobody waits, and
a call for which there is no transport or no service, leave the buffer
busy. In every run without such a message the buffer is always released
(`input_buffer_released`).
-/

namespace HtcLeo

/-! ## Threads -/

inductive RxPc where
  /-- In `select`, or at another client. -/
  | select
  /-- Before `input_xdr_lock`, or in front of the loop around the wait. -/
  | input
  /-- In `pthread_cond_wait` on `input_xdr_wait`. -/
  | waitInput
  /-- A message is read; before `wait_reply_lock` or `wait_cb_lock`. -/
  | deliver
deriving DecidableEq, Repr

inductive CallerPc where
  | idle
  /-- Has `client->lock`. -/
  | encode
  | lockReply
  /-- Has `wait_reply_lock` too. -/
  | send
  /-- In `pthread_cond_wait` on `wait_reply`. -/
  | waitReply
  /-- Signalled; takes `wait_reply_lock` again. -/
  | woken
  | decode
  /-- At `out_unlock`. -/
  | outUnlock
  /-- The buffer is free; the locks are still to be released. -/
  | out
deriving DecidableEq, Repr

inductive CbPc where
  | notStarted
  /-- Before `wait_cb_lock`. -/
  | lock
  /-- At the head of the loop, with `wait_cb_lock`. -/
  | loop
  /-- In `pthread_cond_wait` on `wait_cb`. -/
  | wait
  /-- Signalled; takes `wait_cb_lock` again. -/
  | woken
  /-- `got_cb` is taken; before the test of `the_xprt`. -/
  | lookup
  /-- The service is found and has the message; before `input_xdr_lock`. -/
  | found
  /-- In `svc_dispatch`. -/
  | dispatch
  | exited
deriving DecidableEq, Repr

/-- The callback thread has `wait_cb_lock`. -/
def CbPc.locks : CbPc → Bool
  | loop | lookup | found | dispatch => true
  | _ => false

/-- Words 1, 3 and 4 of a message. -/
structure Incoming where
  isReply : Bool
  prog : Word
  vers : Word
deriving DecidableEq, Repr

/-- `ι` names the threads that use the client. -/
structure Client (ι : Type) where
  inputXdrBusy : Bool
  inMsg : Incoming
  rx : RxPc
  caller : ι → CallerPc
  cb : CbPc
  gotCb : Bool
  cbStop : Int
  lock : Option ι
  waitReplyLock : Option ι
  theXprt : Bool
  services : List (Word × Word)

/-- `clnt_create`, in a process with some transport and services. -/
def clntCreate (ι : Type) (theXprt : Bool) (services : List (Word × Word)) : Client ι where
  inputXdrBusy := false
  inMsg := ⟨false, 0, 0⟩
  rx := .select
  caller := fun _ => .idle
  cb := .notStarted
  gotCb := false
  cbStop := -1
  lock := none
  waitReplyLock := none
  theXprt := theXprt
  services := services

/-! ## Steps -/

variable {ι : Type}

section Steps

variable [DecidableEq ι]

/-- The caller moves on. -/
def Client.setCaller (s : Client ι) (i : ι) (pc : CallerPc) : Client ι :=
  { s with caller := Function.update s.caller i pc }

/-- `input_xdr_busy = 0` and the signal of `input_xdr_wait`. -/
def Client.markFree (s : Client ι) : Client ι :=
  { s with inputXdrBusy := false, rx := if s.rx = .waitInput then .input else s.rx }

/-- The caller that waits for a reply; only the one with `client->lock` can. -/
def Client.waiter (s : Client ι) : Option ι :=
  s.lock.filter fun i => s.caller i = .waitReply

/-- The transport has a service for the message in the buffer. -/
def Client.finds (s : Client ι) : Bool :=
  s.theXprt && s.services.contains (s.inMsg.prog, s.inMsg.vers)

inductive ClntEvent (ι : Type) where
  | rxSelect
  /-- The message is what the driver has, if the buffer is free. -/
  | rxInput (m : Incoming)
  | rxSpurious
  | rxDeliver
  | callLock (i : ι)
  | callEncode (i : ι) (ok : Bool)
  | callLockReply (i : ι)
  | callSend (i : ι) (ok : Bool)
  | callSpurious (i : ι)
  | callRelock (i : ι)
  | callDecode (i : ι)
  | callMarkFree (i : ι)
  | callReturn (i : ι)
  | cbLock
  | cbLoop
  | cbSpurious
  | cbRelock
  | cbLookup
  | cbMarkFree
  | cbDispatched
  /-- Other threads register and unregister transports and services. -/
  | register (theXprt : Bool) (services : List (Word × Word))

/-- The RX thread hands a reply to the waiting caller. -/
def rxReplyStep (s : Client ι) : Client ι :=
  if s.waitReplyLock = none then
    match s.waiter with
    | some i => { s.setCaller i .woken with rx := .select }
    | none => { s with rx := .select }
  else s

/-- The RX thread hands a call to the callback thread, which it may have to start. -/
def rxCallStep (s : Client ι) : Client ι :=
  if s.cb.locks then s
  else if s.cbStop < 0 then { s with gotCb := true, cbStop := 0, cb := .lock, rx := .select }
  else { s with gotCb := true, cb := if s.cb = .wait then .woken else s.cb, rx := .select }

/-- A step of the callback thread that finds or takes a call. -/
def cbTake (s : Client ι) : Client ι :=
  if s.gotCb then { s with gotCb := false, cb := .lookup } else { s with cb := .loop }

/-- A step; an event of a thread that is elsewhere or has to wait for a lock changes nothing. -/
def clntNext (s : Client ι) : ClntEvent ι → Client ι
  | .rxSelect => if s.rx = .select then { s with rx := .input } else s
  | .rxInput m =>
      if s.rx = .input then
        if s.inputXdrBusy then { s with rx := .waitInput }
        else { s with inMsg := m, inputXdrBusy := true, rx := .deliver }
      else s
  | .rxSpurious => if s.rx = .waitInput then { s with rx := .input } else s
  | .rxDeliver =>
      if s.rx = .deliver then if s.inMsg.isReply then rxReplyStep s else rxCallStep s else s
  | .callLock i =>
      if s.caller i = .idle ∧ s.lock = none then { s.setCaller i .encode with lock := some i } else s
  | .callEncode i ok =>
      if s.caller i = .encode then
        if ok then s.setCaller i .lockReply else { s.setCaller i .idle with lock := none }
      else s
  | .callLockReply i =>
      if s.caller i = .lockReply ∧ s.waitReplyLock = none then
        { s.setCaller i .send with waitReplyLock := some i }
      else s
  | .callSend i ok =>
      if s.caller i = .send then
        if ok then { s.setCaller i .waitReply with waitReplyLock := none }
        else s.setCaller i .outUnlock
      else s
  | .callSpurious i => if s.caller i = .waitReply then s.setCaller i .woken else s
  | .callRelock i =>
      if s.caller i = .woken ∧ s.waitReplyLock = none then
        { s.setCaller i .decode with waitReplyLock := some i }
      else s
  | .callDecode i => if s.caller i = .decode then s.setCaller i .outUnlock else s
  | .callMarkFree i => if s.caller i = .outUnlock then (s.setCaller i .out).markFree else s
  | .callReturn i =>
      if s.caller i = .out then { s.setCaller i .idle with waitReplyLock := none, lock := none } else s
  | .cbLock => if s.cb = .lock then { s with cb := .loop } else s
  | .cbLoop =>
      if s.cb = .loop then
        if s.cbStop ≠ 0 then { s with cb := .exited }
        else if s.gotCb then cbTake s
        else { s with cb := .wait }
      else s
  | .cbSpurious => if s.cb = .wait then { s with cb := .woken } else s
  | .cbRelock => if s.cb = .woken then cbTake s else s
  | .cbLookup =>
      if s.cb = .lookup then if s.finds then { s with cb := .found } else { s with cb := .loop } else s
  | .cbMarkFree => if s.cb = .found then { s.markFree with cb := .dispatch } else s
  | .cbDispatched => if s.cb = .dispatch then { s with cb := .loop } else s
  | .register theXprt services => { s with theXprt := theXprt, services := services }

end Steps

/-! ## Who frees the buffer -/

/-- The caller was signalled, or gives up, and has not marked the buffer free yet. -/
def CallerPc.clears : CallerPc → Bool
  | woken | decode | outUnlock => true
  | _ => false

/-- The callback thread has taken a call and not marked the buffer free yet. -/
def CbPc.clears : CbPc → Bool
  | lookup | found => true
  | _ => false

/-- The callback thread comes back to its loop. -/
def CbPc.live : CbPc → Bool
  | notStarted | exited => false
  | _ => true

/-- Some thread has the release of the buffer ahead of it. -/
inductive Client.Clearing (s : Client ι) : Prop
  | rx (h : s.rx = .deliver)
  | caller (i : ι) (h : (s.caller i).clears = true)
  | posted (h : s.gotCb = true) (hlive : s.cb.live = true)
  | callback (h : s.cb.clears = true)

/-- A busy buffer will be released, and the RX thread waits for a busy one only. -/
structure Client.Released (s : Client ι) : Prop where
  clearing : s.inputXdrBusy = true → s.Clearing
  waits : s.rx = .waitInput → s.inputXdrBusy = true

/-- The message that a step hands over is taken: a reply finds a caller that
waits, and a call finds the transport and a service. -/
def Taken (s : Client ι) : ClntEvent ι → Prop
  | .rxDeliver =>
      s.rx = .deliver → s.inMsg.isReply = true → s.waitReplyLock = none → s.waiter.isSome = true
  | .cbLookup => s.cb = .lookup → s.finds = true
  | _ => True

/-- The callback thread is started once, by the first call, and never stopped. -/
def Client.CbStarted (s : Client ι) : Prop :=
  (s.cb = .notStarted ∧ s.cbStop = -1) ∨ (s.cb.live = true ∧ s.cbStop = 0)

structure Client.Inv (s : Client ι) : Prop where
  released : s.Released
  started : s.CbStarted

/-- A step that leaves the buffer and every thread with the release ahead of it
as they are. -/
theorem Client.Inv.quiet {s s' : Client ι} (h : s.Inv) (hbusy : s'.inputXdrBusy = s.inputXdrBusy)
    (hrx : s.rx = .deliver → s'.rx = .deliver)
    (hwait : s'.rx = .waitInput → s.inputXdrBusy = true)
    (hcaller : ∀ i, (s.caller i).clears = true → (s'.caller i).clears = true)
    (hgot : s.gotCb = true → s'.gotCb = true) (hlive : s.cb.live = true → s'.cb.live = true)
    (hcb : s.cb.clears = true → s'.cb.clears = true) (hstarted : s'.CbStarted) : s'.Inv := by
  refine ⟨⟨fun hb => ?_, fun hw => hbusy.trans (hwait hw)⟩, hstarted⟩
  cases h.released.clearing (hbusy.symm.trans hb) with
  | rx h => exact .rx (hrx h)
  | caller i h => exact .caller i (hcaller i h)
  | posted h hl => exact .posted (hgot h) (hlive hl)
  | callback h => exact .callback (hcb h)

theorem Client.markFree_rx (s : Client ι) : s.markFree.rx ≠ .waitInput := by
  simp only [Client.markFree]
  split
  · decide
  · assumption

/-- A step that frees the buffer and wakes the RX thread. -/
theorem Client.Inv.freed {s : Client ι} (hbusy : s.inputXdrBusy = false) (hrx : s.rx ≠ .waitInput)
    (hstarted : s.CbStarted) : s.Inv := by
  refine ⟨⟨fun hb => ?_, fun hw => absurd hw hrx⟩, hstarted⟩
  rw [hbusy] at hb
  cases hb

/-- The RX thread moves on without a message. -/
theorem Client.Inv.setRx {s : Client ι} (h : s.Inv) {pc : RxPc} (hrx : s.rx ≠ .deliver)
    (hwait : pc = .waitInput → s.inputXdrBusy = true) : ({ s with rx := pc } : Client ι).Inv :=
  h.quiet rfl (fun hdeliver => absurd hdeliver hrx) hwait (fun _ => id) id id id h.started

/-- A live callback thread is not to stop. -/
theorem Client.CbStarted.cbStop_eq {s : Client ι} (h : s.CbStarted) (hlive : s.cb.live = true) :
    s.cbStop = 0 := by
  obtain ⟨hnot, -⟩ | ⟨-, hzero⟩ := h
  · rw [hnot] at hlive
    cases hlive
  · exact hzero

/-- The callback thread moves on within its loop. -/
theorem Client.Inv.setCb {s : Client ι} (h : s.Inv) {pc : CbPc} (hlive : s.cb.live = true)
    (hlive' : pc.live = true) (hpc : s.cb.clears = true → pc.clears = true) :
    ({ s with cb := pc } : Client ι).Inv :=
  h.quiet rfl id h.released.waits (fun _ => id) id (fun _ => hlive') hpc
    (Or.inr ⟨hlive', h.started.cbStop_eq hlive⟩)

theorem rxCallStep_inv {s : Client ι} (h : s.Inv) : (rxCallStep s).Inv := by
  rw [rxCallStep]
  split
  · exact h
  · split
    · exact ⟨⟨fun _ => .posted rfl rfl, fun hw => by cases hw⟩, Or.inr ⟨rfl, rfl⟩⟩
    · rename_i hstop
      obtain ⟨-, hneg⟩ | ⟨hlive, hzero⟩ := h.started
      · omega
      · have hlive' : (if s.cb = .wait then CbPc.woken else s.cb).live = true := by
          split
          · rfl
          · exact hlive
        exact ⟨⟨fun _ => .posted rfl hlive', fun hw => by cases hw⟩, Or.inr ⟨hlive', hzero⟩⟩

/-- Taking a call moves the release from the post to the thread. -/
theorem cbTake_inv {s : Client ι} (h : s.Inv) (hlive : s.cb.live = true)
    (hcb : s.cb.clears = false) : (cbTake s).Inv := by
  rw [cbTake]
  split
  · exact ⟨⟨fun _ => .callback rfl, h.released.waits⟩,
      Or.inr ⟨rfl, h.started.cbStop_eq hlive⟩⟩
  · refine h.setCb hlive rfl fun hclears => ?_
    rw [hcb] at hclears
    cases hclears

/-- The locks do not matter. -/
theorem Client.Inv.withLocks {s : Client ι} (h : s.Inv) (lock waitReplyLock : Option ι) :
    ({ s with lock := lock, waitReplyLock := waitReplyLock } : Client ι).Inv :=
  h.quiet rfl id h.released.waits (fun _ => id) id id id h.started

theorem waiter_eq_some {s : Client ι} {i : ι} (h : s.waiter = some i) :
    s.lock = some i ∧ s.caller i = .waitReply := by
  rw [Client.waiter, Option.filter_eq_some_iff] at h
  exact ⟨h.1, of_decide_eq_true h.2⟩

section Preserved

variable [DecidableEq ι]

@[simp] theorem setCaller_self (s : Client ι) (i : ι) (pc : CallerPc) :
    (s.setCaller i pc).caller i = pc := Function.update_self ..

theorem setCaller_of_ne (s : Client ι) {i j : ι} (pc : CallerPc) (h : j ≠ i) :
    (s.setCaller i pc).caller j = s.caller j := Function.update_of_ne h ..

/-- A caller that moves on, and does not skip the release. -/
theorem clears_setCaller {s : Client ι} {i : ι} {pc : CallerPc}
    (h : (s.caller i).clears = true → pc.clears = true) (j : ι) (hj : (s.caller j).clears = true) :
    ((s.setCaller i pc).caller j).clears = true := by
  by_cases hji : j = i
  · subst hji
    rw [setCaller_self]
    exact h hj
  · rw [setCaller_of_ne s pc hji]
    exact hj

theorem Client.Inv.setCaller {s : Client ι} (h : s.Inv) {i : ι} {pc : CallerPc}
    (hpc : (s.caller i).clears = true → pc.clears = true) : (s.setCaller i pc).Inv :=
  h.quiet rfl id h.released.waits (clears_setCaller hpc) id id id h.started

theorem rxReplyStep_inv {s : Client ι} (h : s.Inv)
    (hwaiter : s.waitReplyLock = none → s.waiter.isSome = true) :
    (rxReplyStep s).Inv := by
  rw [rxReplyStep]
  split
  · rename_i hfree
    obtain ⟨i, hi⟩ := Option.isSome_iff_exists.mp (hwaiter hfree)
    rw [hi]
    refine ⟨⟨fun _ => .caller i ?_, fun hw => by cases hw⟩, h.started⟩
    exact congrArg CallerPc.clears (setCaller_self s i .woken)
  · exact h

/-- A caller moves on within `clnt_call`, with other locks. -/
theorem Client.Inv.moveCaller {s : Client ι} (h : s.Inv) {i : ι} {pc : CallerPc}
    (hpc : (s.caller i).clears = true → pc.clears = true) (lock waitReplyLock : Option ι) :
    ({ s.setCaller i pc with lock := lock, waitReplyLock := waitReplyLock } : Client ι).Inv :=
  (h.setCaller hpc).withLocks lock waitReplyLock

/-- A step whose message is taken keeps the invariant. -/
theorem clntNext_inv {s : Client ι} {e : ClntEvent ι} (h : s.Inv) (ht : Taken s e) :
    (clntNext s e).Inv := by
  cases e with
  | rxSelect => exact guarded h fun hrx => h.setRx (by simp [hrx]) (by simp)
  | rxInput m =>
      refine guarded h fun hrx => ?_
      split
      · rename_i hbusy
        exact h.setRx (by simp [hrx]) (fun _ => hbusy)
      · exact ⟨⟨fun _ => .rx rfl, fun hw => by cases hw⟩, h.started⟩
  | rxSpurious => exact guarded h fun hrx => h.setRx (by simp [hrx]) (by simp)
  | rxDeliver =>
      refine guarded h fun hrx => ?_
      split
      · rename_i hreply
        exact rxReplyStep_inv h (ht hrx hreply)
      · exact rxCallStep_inv h
  | callLock i =>
      exact guarded h fun hpc => h.moveCaller (by simp [hpc.1, CallerPc.clears]) _ _
  | callEncode i ok =>
      refine guarded h fun hpc => ?_
      split
      · exact h.setCaller (by simp [hpc, CallerPc.clears])
      · exact h.moveCaller (by simp [hpc, CallerPc.clears]) _ _
  | callLockReply i =>
      exact guarded h fun hpc => h.moveCaller (by simp [hpc.1, CallerPc.clears]) _ _
  | callSend i ok =>
      refine guarded h fun hpc => ?_
      split
      · exact h.moveCaller (by simp [hpc, CallerPc.clears]) _ _
      · exact h.setCaller (by simp [CallerPc.clears])
  | callSpurious i => exact guarded h fun _ => h.setCaller (by simp [CallerPc.clears])
  | callRelock i => exact guarded h fun _ => h.moveCaller (by simp [CallerPc.clears]) _ _
  | callDecode i => exact guarded h fun _ => h.setCaller (by simp [CallerPc.clears])
  | callMarkFree i => exact guarded h fun _ => .freed rfl (Client.markFree_rx _) h.started
  | callReturn i =>
      exact guarded h fun hpc => h.moveCaller (by simp [hpc, CallerPc.clears]) _ _
  | cbLock =>
      refine guarded h fun hcb => ?_
      exact h.setCb (by rw [hcb]; rfl) rfl (by simp [hcb, CbPc.clears])
  | cbLoop =>
      refine guarded h fun hcb => ?_
      have hlive : s.cb.live = true := by rw [hcb]; rfl
      rw [if_neg (not_not.mpr (h.started.cbStop_eq hlive))]
      split
      · exact cbTake_inv h hlive (by rw [hcb]; rfl)
      · exact h.setCb hlive rfl (by simp [hcb, CbPc.clears])
  | cbSpurious =>
      refine guarded h fun hcb => ?_
      exact h.setCb (by rw [hcb]; rfl) rfl (by simp [hcb, CbPc.clears])
  | cbRelock =>
      exact guarded h fun hcb => cbTake_inv h (by rw [hcb]; rfl) (by rw [hcb]; rfl)
  | cbLookup =>
      refine guarded h fun hcb => ?_
      rw [if_pos (ht hcb)]
      exact h.setCb (by rw [hcb]; rfl) rfl (fun _ => rfl)
  | cbMarkFree =>
      refine guarded h fun hcb => ?_
      have hlive : s.cb.live = true := by rw [hcb]; rfl
      exact .freed rfl (Client.markFree_rx s) (Or.inr ⟨rfl, h.started.cbStop_eq hlive⟩)
  | cbDispatched =>
      refine guarded h fun hcb => ?_
      exact h.setCb (by rw [hcb]; rfl) rfl (by simp [hcb, CbPc.clears])
  | register theXprt services =>
      exact h.quiet rfl id h.released.waits (fun _ => id) id id id h.started

/-- **The input buffer is always released.** In every run in which every reply
finds a caller that waits and every call finds a transport and a service, after
every number of steps: if the buffer is busy, some thread has its release ahead
of it, and the RX thread waits for nothing else. -/
theorem input_buffer_released (theXprt : Bool) (services : List (Word × Word))
    (events : List (ClntEvent ι))
    (h : AllSteps clntNext Taken (clntCreate ι theXprt services) events) :
    (runFrom clntNext (clntCreate ι theXprt services) events).Released := by
  have hinit : (clntCreate ι theXprt services).Inv :=
    .freed rfl (by simp [clntCreate]) (Or.inl ⟨rfl, rfl⟩)
  exact (h.run_inv (I := Client.Inv) (fun _ _ hs ht => clntNext_inv hs ht) hinit).released

/-! ## One call at a time -/

/-- Only the thread with `client->lock` is in `clnt_call`. -/
def Client.Exclusive (s : Client ι) : Prop := ∀ i, s.caller i ≠ .idle → s.lock = some i

theorem Client.Exclusive.setCaller {s : Client ι} (h : s.Exclusive) {i : ι}
    (hi : s.caller i ≠ .idle) (pc : CallerPc) : (s.setCaller i pc).Exclusive := by
  intro j hj
  by_cases hji : j = i
  · subst hji
    exact h j hi
  · rw [setCaller_of_ne s pc hji] at hj
    exact h j hj

/-- A caller takes the lock. -/
theorem Client.Exclusive.acquire {s : Client ι} (h : s.Exclusive) (hfree : s.lock = none) (i : ι)
    (pc : CallerPc) : ({ s.setCaller i pc with lock := some i } : Client ι).Exclusive := by
  intro j hj
  by_cases hji : j = i
  · rw [hji]
  · have hlock := h j (ne_of_eq_of_ne (setCaller_of_ne s pc hji).symm hj)
    rw [hfree] at hlock
    cases hlock

/-- A caller returns and gives the lock back. -/
theorem Client.Exclusive.release {s : Client ι} (h : s.Exclusive) {i : ι} (hi : s.caller i ≠ .idle)
    (waitReplyLock : Option ι) :
    ({ s.setCaller i .idle with lock := none, waitReplyLock := waitReplyLock } :
      Client ι).Exclusive := by
  intro j hj
  by_cases hji : j = i
  · exact absurd (hji ▸ setCaller_self s i .idle) hj
  · have hlock := h j (ne_of_eq_of_ne (setCaller_of_ne s .idle hji).symm hj)
    exact absurd (Option.some.inj (hlock.symm.trans (h i hi))) hji

theorem clntNext_exclusive {s : Client ι} (h : s.Exclusive) (e : ClntEvent ι) :
    (clntNext s e).Exclusive := by
  cases e with
  | rxDeliver =>
      simp only [clntNext, rxReplyStep, rxCallStep]
      split_ifs
      · split
        · rename_i i hi
          exact h.setCaller (by rw [(waiter_eq_some hi).2]; decide) .woken
        · exact h
      all_goals exact h
  | callLock i => exact guarded h fun hpc => h.acquire hpc.2 i .encode
  | callEncode i ok =>
      refine guarded h fun hpc => ?_
      split
      · exact h.setCaller (by rw [hpc]; decide) .lockReply
      · exact h.release (by rw [hpc]; decide) s.waitReplyLock
  | callReturn i => exact guarded h fun hpc => h.release (by rw [hpc]; decide) none
  | callLockReply i | callRelock i =>
      exact guarded h fun hpc => h.setCaller (by rw [hpc.1]; decide) _
  | callSend i ok =>
      refine guarded h fun hpc => ?_
      split
      · exact h.setCaller (by rw [hpc]; decide) .waitReply
      · exact h.setCaller (by rw [hpc]; decide) .outUnlock
  | callSpurious i | callDecode i | callMarkFree i =>
      exact guarded h fun hpc => h.setCaller (by rw [hpc]; decide) _
  | register theXprt services => exact h
  | _ =>
      simp only [clntNext, cbTake]
      split_ifs <;> exact h

/-- In every run, whoever waits for a reply is the one that a signal wakes. -/
theorem waiter_unique (theXprt : Bool) (services : List (Word × Word)) (events : List (ClntEvent ι))
    (i : ι) :
    (runFrom clntNext (clntCreate ι theXprt services) events).waiter = some i ↔
      (runFrom clntNext (clntCreate ι theXprt services) events).caller i = .waitReply := by
  have hinit : (clntCreate ι theXprt services).Exclusive := fun _ hi => absurd rfl hi
  have hexcl : (runFrom clntNext (clntCreate ι theXprt services) events).Exclusive :=
    runFrom_inv (I := Client.Exclusive) (fun _ e hs => clntNext_exclusive hs e) hinit events
  constructor
  · intro h
    exact (waiter_eq_some h).2
  · intro h
    rw [Client.waiter, Option.filter_eq_some_iff]
    exact ⟨hexcl i (by rw [h]; decide), decide_eq_true h⟩

end Preserved

/-! ## Messages that are not taken -/

/-- A call for a program that nobody has registered, and the next message. -/
def strayCall : List (ClntEvent Unit) :=
  [.rxSelect, .rxInput ⟨false, 0x3100005b, 0x00010000⟩, .rxDeliver, .cbLock, .cbLoop, .cbLookup,
    .rxSelect, .rxInput ⟨false, 0x3100005b, 0x00010000⟩]

/-- A reply for which no caller waits, and the next message. -/
def strayReply : List (ClntEvent Unit) :=
  [.rxSelect, .rxInput ⟨true, 0, 0⟩, .rxDeliver, .rxSelect, .rxInput ⟨true, 0, 0⟩]

/-- With a transport but no service, without a transport, and for a stray
reply, the RX thread is left waiting. -/
theorem stray_message_keeps_buffer :
    (runFrom clntNext (clntCreate Unit true []) strayCall).rx = .waitInput
      ∧ ¬(runFrom clntNext (clntCreate Unit true []) strayCall).Released
      ∧ ¬(runFrom clntNext (clntCreate Unit false [(0x3100005b, 0x00010000)]) strayCall).Released
      ∧ ¬(runFrom clntNext (clntCreate Unit true []) strayReply).Released := by
  refine ⟨by decide, fun h => ?_, fun h => ?_, fun h => ?_⟩
  all_goals
    cases h.clearing (by decide) with
    | rx h => exact absurd h (by decide)
    | caller i h => exact absurd h (by cases i; decide)
    | posted h _ => exact absurd h (by decide)
    | callback h => exact absurd h (by decide)

/-- A call of the client with its reply, up to the signal. -/
def answeredCall : List (ClntEvent Unit) :=
  [.callLock (), .callEncode () true, .callLockReply (), .callSend () true, .rxSelect,
    .rxInput ⟨true, 0, 0⟩, .rxDeliver]

theorem answered_call_released :
    (runFrom clntNext (clntCreate Unit true []) answeredCall).inputXdrBusy = true
      ∧ (runFrom clntNext (clntCreate Unit true []) answeredCall).Released :=
  ⟨by decide, input_buffer_released true [] answeredCall
    ⟨trivial, trivial, trivial, trivial, trivial, trivial, fun _ _ _ => by decide, trivial⟩⟩

end HtcLeo
