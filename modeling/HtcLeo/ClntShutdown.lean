import HtcLeo.ClntList
import HtcLeo.Runs

/-!
# Stopping the RX thread (`librpc/clnt.c`)

`clnt_create` and `clnt_destroy` change the list of clients under
`rx_mutex`. The RX thread takes this mutex twice in each turn of its
loop, to copy the descriptors before `select` and to walk the list after
it, but tests `num_clients` without it. `clnt_destroy` joins the RX
thread behind the last client, and keeps the mutex while it waits.

Any number of threads `ι` create and destroy clients. A step is a part of
a thread between two points where others can come in; what the RX thread
does with a message is in `HtcLeo.ClntBusy`.

The join hangs when the RX thread is already before one of its locks, or
gets to the second one out of `select`. These are the only ways
(`shutdown_deadlock_iff`), and there is no way out (`deadlock_stays`).
-/

namespace HtcLeo

/-! ## Threads -/

/-- Where the RX thread is in `rx_context`. -/
inductive LoopPc where
  /-- There is no RX thread. -/
  | absent
  /-- At `while (num_clients)`. -/
  | test
  /-- Before the first `pthread_mutex_lock`. -/
  | lock
  /-- Copies `rx_fdset`, with the mutex. -/
  | copy
  | select
  /-- Before the second `pthread_mutex_lock`. -/
  | lockClients
  /-- Walks the list, with the mutex. -/
  | deliver
  /-- Left the loop, but not joined yet. -/
  | exited
deriving DecidableEq, Repr

/-- The RX thread is before `pthread_mutex_lock`. -/
def LoopPc.locks : LoopPc → Bool
  | lock | lockClients => true
  | _ => false

/-- The RX thread has the mutex. -/
def LoopPc.holds : LoopPc → Bool
  | copy | deliver => true
  | _ => false

/-- Where another thread is in `clnt_create` or `clnt_destroy`. -/
inductive UserPc where
  | idle
  | createLock (prog vers : Word) (io : RxGlobals.CreateIo)
  | create (prog vers : Word) (io : RxGlobals.CreateIo)
  | destroyLock (client : Nat)
  | destroy (client : Nat)
  /-- In `pthread_join`, with the mutex. -/
  | join
  | unlock
deriving DecidableEq, Repr

def UserPc.holds : UserPc → Bool
  | create .. | destroy _ | join | unlock => true
  | _ => false

/-- Who has `rx_mutex`. -/
inductive Owner (ι : Type) where
  | rx
  | user (i : ι)
deriving DecidableEq, Repr

structure Shutdown (ι : Type) where
  globals : RxGlobals
  rxMutex : Option (Owner ι)
  rx : LoopPc
  user : ι → UserPc

variable {ι : Type}

def Shutdown.init (ι : Type) : Shutdown ι := ⟨.init, none, .absent, fun _ => .idle⟩

/-! ## Steps -/

section Steps

variable [DecidableEq ι]

def Shutdown.setUser (s : Shutdown ι) (i : ι) (pc : UserPc) : Shutdown ι :=
  { s with user := Function.update s.user i pc }

/-- The RX thread; `n` is what `select` returns. -/
def rxStep (s : Shutdown ι) (n : Int) : Shutdown ι :=
  match s.rx with
  | .absent => s
  | .test => { s with rx := if s.globals.numClients = 0 then .exited else .lock }
  | .lock => if s.rxMutex = none then { s with rxMutex := some .rx, rx := .copy } else s
  | .copy => { s with rxMutex := none, rx := .select }
  | .select =>
      -- an error and a timeout both go back to the test
      { s with rx := if n < 0 then .test else if n ≠ 0 then .lockClients else .test }
  | .lockClients => if s.rxMutex = none then { s with rxMutex := some .rx, rx := .deliver } else s
  | .deliver => { s with rxMutex := none, rx := .test }
  | .exited => s

/-- A thread inside `clnt_create` or `clnt_destroy`. -/
def userStep (s : Shutdown ι) (i : ι) : Shutdown ι :=
  match s.user i with
  | .idle => s
  | .createLock prog vers io =>
      if s.rxMutex = none then { s.setUser i (.create prog vers io) with rxMutex := some (.user i) }
      else s
  | .create prog vers io =>
      let r := s.globals.clntCreate prog vers io
      -- the first client starts the RX thread
      { s.setUser i .unlock with
        globals := r.2
        rx := if r.1.isSome ∧ s.globals.numClients = 0 then .test else s.rx }
  | .destroyLock client =>
      if s.rxMutex = none then { s.setUser i (.destroy client) with rxMutex := some (.user i) }
      else s
  | .destroy client =>
      let globals := s.globals.unlinkClient client
      { s.setUser i (if globals.numClients = 0 then .join else .unlock) with globals := globals }
  | .join =>
      if s.rx = .exited ∨ s.rx = .absent then
        { s.setUser i .unlock with
          globals := { s.globals with rxThread := false }
          rx := .absent }
      else s
  | .unlock => { s.setUser i .idle with rxMutex := none }

inductive ShutdownEvent (ι : Type) where
  | rx (n : Int)
  | callCreate (i : ι) (prog vers : Word) (io : RxGlobals.CreateIo)
  | callDestroy (i : ι) (client : Nat)
  | user (i : ι)

/-- A step; an event of a thread that has to wait changes nothing. -/
def shutdownNext (s : Shutdown ι) : ShutdownEvent ι → Shutdown ι
  | .rx n => rxStep s n
  | .callCreate i prog vers io =>
      -- without memory `clnt_create` returns before the mutex
      if s.user i = .idle ∧ io.client.isSome then s.setUser i (.createLock prog vers io) else s
  | .callDestroy i client =>
      if s.user i = .idle then s.setUser i (.destroyLock client) else s
  | .user i => userStep s i

end Steps

/-! ## Deadlock -/

/-- `clnt_destroy` has the mutex and joins the RX thread, which waits for the mutex. -/
def Shutdown.Deadlock (s : Shutdown ι) : Prop :=
  ∃ i, s.user i = .join ∧ s.rxMutex = some (.user i) ∧ s.rx.locks = true

/-- `clnt_destroy` takes out the last client while the RX thread is not before
a lock, and `select` finds no descriptor ready during a join. -/
def ShutdownEvent.Safe (s : Shutdown ι) : ShutdownEvent ι → Prop
  | .rx n => s.rx = .select → 0 < n → ∀ i, s.user i ≠ .join
  | .user i => ∀ client, s.user i = .destroy client →
      (s.globals.unlinkClient client).numClients = 0 → s.rx.locks = false
  | _ => True

/-- Who is between lock and unlock has the mutex, and a join finds no clients. -/
structure Shutdown.Inv (s : Shutdown ι) : Prop where
  user : ∀ i, (s.user i).holds = true → s.rxMutex = some (.user i)
  rx : s.rx.holds = true → s.rxMutex = some .rx
  join : ∀ i, s.user i = .join → s.globals.numClients = 0

theorem Shutdown.init_inv : (Shutdown.init ι).Inv := by
  constructor <;> simp [Shutdown.init, UserPc.holds, LoopPc.holds]

/-! ## The invariant -/

theorem Shutdown.Inv.eq_of_holds {s : Shutdown ι} (h : s.Inv) {i j : ι}
    (hi : (s.user i).holds = true) (hj : (s.user j).holds = true) : j = i := by
  have hmutex := h.user j hj
  rw [h.user i hi] at hmutex
  cases hmutex
  rfl

theorem Shutdown.Inv.setRx {s : Shutdown ι} (h : s.Inv) {pc : LoopPc} (hpc : pc.holds = false) :
    ({ s with rx := pc } : Shutdown ι).Inv :=
  ⟨h.user, fun hholds => absurd (hpc.symm.trans hholds) (by decide), h.join⟩

theorem Shutdown.Inv.rxAcquire {s : Shutdown ι} (h : s.Inv) (hfree : s.rxMutex = none)
    (pc : LoopPc) : ({ s with rxMutex := some .rx, rx := pc } : Shutdown ι).Inv := by
  refine ⟨fun j hj => ?_, fun _ => rfl, h.join⟩
  have hmutex := h.user j hj
  rw [hfree] at hmutex
  cases hmutex

theorem Shutdown.Inv.rxRelease {s : Shutdown ι} (h : s.Inv) (hrx : s.rx.holds = true)
    {pc : LoopPc} (hpc : pc.holds = false) :
    ({ s with rxMutex := none, rx := pc } : Shutdown ι).Inv := by
  refine ⟨fun j hj => ?_, fun hholds => absurd (hpc.symm.trans hholds) (by decide), h.join⟩
  have hmutex := h.user j hj
  rw [h.rx hrx] at hmutex
  cases hmutex

/-- With the invariant, a deadlock is a join and an RX thread before a lock. -/
theorem Shutdown.Inv.deadlock_iff {s : Shutdown ι} (h : s.Inv) :
    s.Deadlock ↔ (∃ i, s.user i = .join) ∧ s.rx.locks = true := by
  constructor
  · rintro ⟨i, hi, -, hlocks⟩
    exact ⟨⟨i, hi⟩, hlocks⟩
  · rintro ⟨⟨i, hi⟩, hlocks⟩
    exact ⟨i, hi, h.user i (by rw [hi]; rfl), hlocks⟩

/-- A step that makes neither a join nor a wait for the mutex makes no deadlock. -/
theorem Shutdown.Inv.deadlock_of_next {s s' : Shutdown ι} (h : s.Inv) (hd : s'.Deadlock)
    (huser : ∀ j, s'.user j = .join → s.user j = .join)
    (hrx : s'.rx.locks = true → s.rx.locks = true) : s.Deadlock := by
  obtain ⟨i, hi, -, hlocks⟩ := hd
  exact h.deadlock_iff.mpr ⟨⟨i, huser i hi⟩, hrx hlocks⟩

theorem rxStep_inv {s : Shutdown ι} (h : s.Inv) (n : Int) : (rxStep s n).Inv := by
  cases hrx : s.rx with
  | absent => simpa only [rxStep, hrx] using h
  | test =>
      simp only [rxStep, hrx]
      refine h.setRx ?_
      split <;> rfl
  | lock =>
      simp only [rxStep, hrx]
      split
      · exact h.rxAcquire ‹_› .copy
      · exact h
  | copy =>
      simp only [rxStep, hrx]
      exact h.rxRelease (by rw [hrx]; rfl) rfl
  | select =>
      simp only [rxStep, hrx]
      refine h.setRx ?_
      split_ifs <;> rfl
  | lockClients =>
      simp only [rxStep, hrx]
      split
      · exact h.rxAcquire ‹_› .deliver
      · exact h
  | deliver =>
      simp only [rxStep, hrx]
      exact h.rxRelease (by rw [hrx]; rfl) rfl
  | exited => simpa only [rxStep, hrx] using h

theorem rxStep_safe {s : Shutdown ι} (h : s.Inv) (hs : ¬ s.Deadlock) (n : Int) :
    ¬ (rxStep s n).Deadlock ↔ (ShutdownEvent.rx n).Safe s := by
  have hnext := rxStep_inv h n
  rw [hnext.deadlock_iff]
  cases hrx : s.rx with
  | absent => simp [rxStep, hrx, ShutdownEvent.Safe, LoopPc.locks]
  | test =>
      -- the test sees clients only if there is no join
      simp only [rxStep, hrx, ShutdownEvent.Safe, reduceCtorEq, false_implies, iff_true]
      rintro ⟨⟨i, hi⟩, hlocks⟩
      rw [h.join i hi] at hlocks
      cases hlocks
  | lock =>
      rw [h.deadlock_iff, hrx] at hs
      simp only [rxStep, hrx, ShutdownEvent.Safe, reduceCtorEq, false_implies, iff_true]
      split
      · rintro ⟨-, hlocks⟩
        cases hlocks
      · rwa [hrx]
  | copy => simp [rxStep, hrx, ShutdownEvent.Safe, LoopPc.locks]
  | select =>
      simp only [rxStep, hrx, ShutdownEvent.Safe, forall_const]
      rcases lt_trichotomy n 0 with hn | hn | hn
      · simp [hn, LoopPc.locks, not_lt.mpr hn.le]
      · simp [hn, LoopPc.locks]
      · simp [hn, LoopPc.locks, not_lt.mpr hn.le, hn.ne']
  | lockClients =>
      rw [h.deadlock_iff, hrx] at hs
      simp only [rxStep, hrx, ShutdownEvent.Safe, reduceCtorEq, false_implies, iff_true]
      split
      · rintro ⟨-, hlocks⟩
        cases hlocks
      · rwa [hrx]
  | deliver => simp [rxStep, hrx, ShutdownEvent.Safe, LoopPc.locks]
  | exited => simp [rxStep, hrx, ShutdownEvent.Safe, LoopPc.locks]

variable [DecidableEq ι]

theorem Shutdown.setUser_of_ne (s : Shutdown ι) {i j : ι} (pc : UserPc) (h : j ≠ i) :
    (s.setUser i pc).user j = s.user j :=
  Function.update_of_ne h ..

@[simp] theorem Shutdown.setUser_self (s : Shutdown ι) (i : ι) (pc : UserPc) :
    (s.setUser i pc).user i = pc :=
  Function.update_self ..

/-- What is to be checked when a thread moves on, for itself and for the others. -/
theorem Shutdown.Inv.of_setUser {s s' : Shutdown ι} {i : ι} {pc : UserPc}
    (huser : s'.user = (s.setUser i pc).user)
    (hself : pc.holds = true → s'.rxMutex = some (.user i))
    (hjoin : pc = .join → s'.globals.numClients = 0)
    (hrx : s'.rx.holds = true → s'.rxMutex = some .rx)
    (hothers : ∀ j, j ≠ i → ((s.user j).holds = true → s'.rxMutex = some (.user j))
      ∧ (s.user j = .join → s'.globals.numClients = 0)) : s'.Inv := by
  refine ⟨fun j => ?_, hrx, fun j => ?_⟩
  · rw [huser]
    by_cases hji : j = i
    · rw [hji, s.setUser_self]
      exact hself
    · rw [s.setUser_of_ne pc hji]
      exact (hothers j hji).1
  · rw [huser]
    by_cases hji : j = i
    · rw [hji, s.setUser_self]
      exact hjoin
    · rw [s.setUser_of_ne pc hji]
      exact (hothers j hji).2

/-- A thread that calls a function is still outside the mutex. -/
theorem Shutdown.Inv.call {s : Shutdown ι} (h : s.Inv) (i : ι) {pc : UserPc}
    (hpc : pc.holds = false) : (s.setUser i pc).Inv := by
  refine .of_setUser rfl (fun hholds => ?_) (fun hjoin => ?_) h.rx
    fun j _ => ⟨h.user j, h.join j⟩
  · rw [hpc] at hholds
    cases hholds
  · rw [hjoin] at hpc
    cases hpc

theorem Shutdown.Inv.acquire {s : Shutdown ι} (h : s.Inv) (hfree : s.rxMutex = none) (i : ι)
    {pc : UserPc} (hpc : pc ≠ .join) :
    ({ s.setUser i pc with rxMutex := some (.user i) } : Shutdown ι).Inv := by
  refine .of_setUser rfl (fun _ => rfl) (fun hjoin => absurd hjoin hpc) (fun hrx => ?_)
    fun j _ => ⟨fun hholds => ?_, h.join j⟩
  · have hmutex := h.rx hrx
    rw [hfree] at hmutex
    cases hmutex
  · have hmutex := h.user j hholds
    rw [hfree] at hmutex
    cases hmutex

/-- The thread with the mutex changes the list and may start the RX thread. -/
theorem Shutdown.Inv.inside {s : Shutdown ι} (h : s.Inv) {i : ι} (hi : (s.user i).holds = true)
    {pc : UserPc} {globals : RxGlobals} {rx : LoopPc} (hrx : rx.holds = true → s.rx.holds = true)
    (hjoin : pc = .join → globals.numClients = 0) :
    ({ s.setUser i pc with globals := globals, rx := rx } : Shutdown ι).Inv := by
  refine .of_setUser rfl (fun _ => h.user i hi) hjoin (fun hholds => h.rx (hrx hholds))
    fun j hji => ⟨h.user j, fun hj => ?_⟩
  exact absurd (h.eq_of_holds hi (by rw [hj]; rfl)) hji

theorem Shutdown.Inv.release {s : Shutdown ι} (h : s.Inv) {i : ι} (hi : (s.user i).holds = true) :
    ({ s.setUser i .idle with rxMutex := none } : Shutdown ι).Inv := by
  refine .of_setUser rfl (fun hholds => by cases hholds) (fun hjoin => by cases hjoin)
    (fun hrx => ?_) fun j hji => ⟨fun hholds => ?_, h.join j⟩
  · have hmutex := h.rx hrx
    rw [h.user i hi] at hmutex
    cases hmutex
  · exact absurd (h.eq_of_holds hi hholds) hji

theorem userStep_inv {s : Shutdown ι} (h : s.Inv) (i : ι) : (userStep s i).Inv := by
  cases hi : s.user i with
  | idle => simpa only [userStep, hi] using h
  | createLock prog vers io =>
      simp only [userStep, hi]
      split
      · exact h.acquire ‹_› i (by simp)
      · exact h
  | create prog vers io =>
      simp only [userStep, hi]
      refine h.inside (by rw [hi]; rfl) ?_ (by simp)
      split
      · intro hholds
        cases hholds
      · exact id
  | destroyLock client =>
      simp only [userStep, hi]
      split
      · exact h.acquire ‹_› i (by simp)
      · exact h
  | destroy client =>
      simp only [userStep, hi]
      refine h.inside (by rw [hi]; rfl) id ?_
      split
      · exact fun _ => ‹_›
      · simp
  | join =>
      simp only [userStep, hi]
      split
      · refine h.inside (by rw [hi]; rfl) ?_ (by simp)
        intro hholds
        cases hholds
      · exact h
  | unlock =>
      simp only [userStep, hi]
      exact h.release (by rw [hi]; rfl)

theorem shutdownNext_inv (s : Shutdown ι) (e : ShutdownEvent ι) (h : s.Inv) :
    (shutdownNext s e).Inv := by
  cases e with
  | rx n => exact rxStep_inv h n
  | callCreate i prog vers io =>
      rw [shutdownNext]
      split
      · exact h.call i rfl
      · exact h
  | callDestroy i client =>
      rw [shutdownNext]
      split
      · exact h.call i rfl
      · exact h
  | user i => exact userStep_inv h i

/-! ## When the join hangs -/

theorem join_of_setUser {s : Shutdown ι} {i : ι} {pc : UserPc} (hpc : pc ≠ .join) (j : ι)
    (hj : (s.setUser i pc).user j = .join) : s.user j = .join := by
  by_cases hji : j = i
  · subst hji
    rw [s.setUser_self] at hj
    exact absurd hj hpc
  · rwa [s.setUser_of_ne pc hji] at hj

/-- Only the removal of a client can begin a join. -/
theorem userStep_deadlock {s : Shutdown ι} (h : s.Inv) {i : ι}
    (hi : ∀ client, s.user i ≠ .destroy client) (hd : (userStep s i).Deadlock) : s.Deadlock := by
  cases hpc : s.user i with
  | idle => simpa only [userStep, hpc] using hd
  | createLock prog vers io =>
      simp only [userStep, hpc] at hd
      split at hd
      · exact h.deadlock_of_next hd (join_of_setUser (by simp)) id
      · exact hd
  | create prog vers io =>
      simp only [userStep, hpc] at hd
      refine h.deadlock_of_next hd (join_of_setUser (by simp)) ?_
      split
      · intro hlocks
        cases hlocks
      · exact id
  | destroyLock client =>
      simp only [userStep, hpc] at hd
      split at hd
      · exact h.deadlock_of_next hd (join_of_setUser (by simp)) id
      · exact hd
  | destroy client => exact absurd hpc (hi client)
  | join =>
      simp only [userStep, hpc] at hd
      split at hd
      · refine h.deadlock_of_next hd (join_of_setUser (by simp)) ?_
        intro hlocks
        cases hlocks
      · exact hd
  | unlock =>
      simp only [userStep, hpc] at hd
      exact h.deadlock_of_next hd (join_of_setUser (by simp)) id

theorem userStep_safe {s : Shutdown ι} (h : s.Inv) (hs : ¬ s.Deadlock) (i : ι) :
    ¬ (userStep s i).Deadlock ↔ (ShutdownEvent.user i).Safe s := by
  by_cases hdestroy : ∃ client, s.user i = .destroy client
  · obtain ⟨client, hpc⟩ := hdestroy
    by_cases hlast : (s.globals.unlinkClient client).numClients = 0
    · have hjoin : (userStep s i).user i = .join := by
        simp [userStep, hpc, hlast]
      have hrx : (userStep s i).rx = s.rx := by simp only [userStep, hpc, Shutdown.setUser]
      rw [(userStep_inv h i).deadlock_iff, hrx, and_iff_right ⟨i, hjoin⟩]
      simp [ShutdownEvent.Safe, hpc, hlast]
    · refine iff_of_true (fun hd => hs ?_) (by simp [ShutdownEvent.Safe, hpc, hlast])
      simp only [userStep, hpc, if_neg hlast] at hd
      exact h.deadlock_of_next hd (join_of_setUser (by simp)) id
  · have hno : ∀ client, s.user i ≠ .destroy client := fun client hpc => hdestroy ⟨client, hpc⟩
    refine iff_of_true (fun hd => hs (userStep_deadlock h hno hd)) ?_
    exact fun client hpc => absurd hpc (hno client)

theorem shutdownNext_safe {s : Shutdown ι} {e : ShutdownEvent ι} (h : s.Inv) (hs : ¬ s.Deadlock) :
    ¬ (shutdownNext s e).Deadlock ↔ e.Safe s := by
  cases e with
  | rx n => exact rxStep_safe h hs n
  | callCreate i prog vers io =>
      refine iff_of_true (fun hd => hs ?_) trivial
      rw [shutdownNext] at hd
      split at hd
      · exact h.deadlock_of_next hd (join_of_setUser (by simp)) id
      · exact hd
  | callDestroy i client =>
      refine iff_of_true (fun hd => hs ?_) trivial
      rw [shutdownNext] at hd
      split at hd
      · exact h.deadlock_of_next hd (join_of_setUser (by simp)) id
      · exact hd
  | user i => exact userStep_safe h hs i

/-- **Client shutdown.** A run of any threads that create and destroy clients
never comes to a deadlock exactly when each of its steps is safe: the last client
is taken out while the RX thread is not before a lock, and `select` finds nothing
ready during the join. -/
theorem shutdown_deadlock_iff (events : List (ShutdownEvent ι)) :
    AllSteps shutdownNext (fun s e => ¬ (shutdownNext s e).Deadlock) (Shutdown.init ι) events ↔
      AllSteps shutdownNext (fun s e => e.Safe s) (Shutdown.init ι) events := by
  refine allSteps_iff (I := fun s => s.Inv ∧ ¬ s.Deadlock)
    (fun s e hs => shutdownNext_safe hs.1 hs.2)
    (fun s e hs hsafe => ⟨shutdownNext_inv s e hs.1, hsafe⟩) ⟨Shutdown.init_inv, ?_⟩
  rintro ⟨i, hi, -⟩
  cases hi

/-- No thread can end a deadlock. -/
theorem deadlock_stays {s : Shutdown ι} (h : s.Inv) (hd : s.Deadlock) (e : ShutdownEvent ι) :
    (shutdownNext s e).Deadlock := by
  obtain ⟨i, hi, hmutex, hlocks⟩ := id hd
  -- a call by a thread that is outside leaves the two of them where they are
  have hcall : ∀ j pc, s.user j = .idle → (s.setUser j pc).Deadlock := by
    intro j pc hidle
    have hij : i ≠ j := by
      rintro rfl
      rw [hi] at hidle
      cases hidle
    exact ⟨i, by rwa [s.setUser_of_ne pc hij], hmutex, hlocks⟩
  cases e with
  | rx n => cases hrx : s.rx <;> simp_all [shutdownNext, rxStep, LoopPc.locks]
  | callCreate j prog vers io =>
      rw [shutdownNext]
      split
      · exact hcall j _ (by tauto)
      · exact hd
  | callDestroy j client =>
      rw [shutdownNext]
      split
      · exact hcall j _ ‹_›
      · exact hd
  | user j =>
      have hsame : userStep s j = s := by
        by_cases hji : j = i
        · subst hji
          have hrx : ¬ (s.rx = .exited ∨ s.rx = .absent) := by
            rintro (hrx | hrx) <;> rw [hrx] at hlocks <;> cases hlocks
          simp only [userStep, hi, if_neg hrx]
        · have hout : ¬ (s.user j).holds = true := fun hj =>
            hji (h.eq_of_holds (by rw [hi]; rfl) hj)
          cases hj : s.user j <;> simp_all [userStep, UserPc.holds]
      rw [shutdownNext, hsame]
      exact hd

/-- One client; the RX thread saw it and is before its first lock when
`clnt_destroy` takes it out. -/
def hangingDestroy : List (ShutdownEvent Unit) :=
  [.callCreate () 0x3000005B 0x00010001 ⟨some 100, 5⟩, .user (), .user (), .user (), .rx 0,
   .callDestroy () 100, .user (), .user ()]

theorem destroy_hangs :
    (runFrom shutdownNext (Shutdown.init Unit) hangingDestroy).Deadlock
      ∧ ¬ AllSteps shutdownNext (fun s e => ¬ (shutdownNext s e).Deadlock) (Shutdown.init Unit)
        hangingDestroy := by
  have hd : (runFrom shutdownNext (Shutdown.init Unit) hangingDestroy).Deadlock :=
    ⟨(), by decide, by decide, by decide⟩
  refine ⟨hd, fun hall => ?_⟩
  exact allSteps_iff_split.mp hall (hangingDestroy.take 7) (.user ()) [] rfl hd

end HtcLeo
