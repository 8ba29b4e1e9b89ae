import HtcLeo.Linked
import HtcLeo.Runs
import HtcLeo.XdrStd
import Mathlib.Logic.Function.Basic

/-!
# The services of a transport (`librpc/svc.c`)

A transport keeps its services in a linked list, with their number, the
descriptors on which the server thread selects and the largest of these.
`svcRegister` puts an entry in front and `svcUnregister` takes one out
through the pointer to the entry before it. A program number with the bit
`0x01000000` is not a server but the callback client of an RPC client:
its entry has no handle and no descriptor.

Each call is given with what the system answers it. `service_registry`
says that list, number and descriptors stay in step over every sequence
of calls, and that the list holds what the calls put there.
-/

namespace HtcLeo

/-! ## The calls -/

/-- `registered_server`, with its address and without `active`. -/
structure ServerEntry (δ : Type) where
  addr : Nat
  xdr : Option Xdr
  xProg : Word
  xVers : Word
  dispatch : δ

/-- `svcThreads` counts the server threads that were created. -/
structure SvcXprt (δ : Type) where
  fdset : Int → Bool
  maxFd : Int
  servers : List (ServerEntry δ)
  numServers : Int
  svcThreads : Nat

variable {δ : Type}

/-- The transport that `svcrtr_create` allocates. -/
def SvcXprt.empty (δ : Type) : SvcXprt δ := ⟨fun _ => false, 0, [], 0, 0⟩

/-- `prog & 0x01000000` -/
def isCallback (prog : Word) : Bool := prog &&& 0x01000000 ≠ 0

/-- The test of `svc_find_nosync`. -/
def ServerEntry.isFor (prog vers : Word) (svc : ServerEntry δ) : Bool :=
  svc.xProg = prog ∧ svc.xVers = vers

/-- The entry, and the entry before it. -/
def SvcXprt.svcFindNosync (xprt : SvcXprt δ) (prog vers : Word) :
    Option (ServerEntry δ) × Option (ServerEntry δ) :=
  findPrev (ServerEntry.isFor prog vers) none xprt.servers

def SvcXprt.svcFind (xprt : SvcXprt δ) (prog vers : Word) : Option (ServerEntry δ) :=
  (xprt.svcFindNosync prog vers).1

/-- What `malloc`, `open` and `RPC_ROUTER_IOCTL_REGISTER_SERVER` return. -/
structure RegisterIo where
  entry : Nat
  opened : Int
  ioctl : Int

/-- The end of `svc_register`: the entry goes in front of the list. -/
def SvcXprt.insert (xprt : SvcXprt δ) (svc : ServerEntry δ) : SvcXprt δ :=
  { xprt with
    servers := svc :: xprt.servers
    numServers := xprt.numServers + 1
    svcThreads := if xprt.numServers + 1 = 1 then xprt.svcThreads + 1 else xprt.svcThreads }

/-- `FD_SET`, and the largest descriptor. -/
def SvcXprt.watch (xprt : SvcXprt δ) (fd : Int) : SvcXprt δ :=
  { xprt with
    fdset := Function.update xprt.fdset fd true
    maxFd := if fd > xprt.maxFd then fd else xprt.maxFd }

def SvcXprt.svcRegister [DecidableEq δ] (xprt : SvcXprt δ) (prog vers : Word) (dispatch : δ)
    (io : RegisterIo) : Bool × SvcXprt δ :=
  match (xprt.svcFindNosync prog vers).1 with
  | some svc => (svc.dispatch = dispatch, xprt)
  | none =>
      if isCallback prog then (true, xprt.insert ⟨io.entry, none, prog, vers, dispatch⟩)
      else
        match xdrOpen io.opened false with
        | none => (false, xprt)
        | some xdr =>
            if io.ioctl < 0 then (false, xprt)
            else
              let xdr := { xdr with xProg := prog, xVers := vers }
              (true, (xprt.watch xdr.fd).insert ⟨io.entry, some xdr, prog, vers, dispatch⟩)

/-- `FD_CLR` for the entry that was found. Whether `UNREGISTER_SERVER` fails is
only logged, and `max_fd` is not decreased. -/
def SvcXprt.unwatch (xprt : SvcXprt δ) (prog : Word) : Option Xdr → SvcXprt δ
  | some xdr =>
      if isCallback prog then xprt
      else { xprt with fdset := Function.update xprt.fdset xdr.fd false }
  | none => xprt

def SvcXprt.svcUnregister (xprt : SvcXprt δ) (prog vers : Word) : SvcXprt δ :=
  match xprt.svcFindNosync prog vers with
  | (none, _) => xprt
  | (some found, prev) =>
      let xprt := { xprt with servers := unlink ServerEntry.addr prev found xprt.servers }
      let xprt := xprt.unwatch prog found.xdr
      { xprt with numServers := xprt.numServers - 1 }

/-- A call with the answers it gets; `ioctl` is that of `UNREGISTER_SERVER`. -/
inductive SvcCall (δ : Type) where
  | register (prog vers : Word) (dispatch : δ) (io : RegisterIo)
  | unregister (prog vers : Word) (ioctl : Int)

def svcStep [DecidableEq δ] (xprt : SvcXprt δ) : SvcCall δ → SvcXprt δ
  | .register prog vers dispatch io => (xprt.svcRegister prog vers dispatch io).2
  | .unregister prog vers _ => xprt.svcUnregister prog vers

/-! ## What the list holds -/

def ServerEntry.key (svc : ServerEntry δ) : Word × Word := (svc.xProg, svc.xVers)

def ServerEntry.fd (svc : ServerEntry δ) : Option Int := svc.xdr.map Xdr.fd

/-- `malloc` and `open` return what is not in use. -/
def SvcCall.Fresh (xprt : SvcXprt δ) : SvcCall δ → Prop
  | .register _ _ _ io =>
      io.entry ∉ xprt.servers.map ServerEntry.addr
        ∧ some io.opened ∉ xprt.servers.map ServerEntry.fd
  | .unregister .. => True

instance (xprt : SvcXprt δ) : (c : SvcCall δ) → Decidable (c.Fresh xprt)
  | .register _ _ _ _ => inferInstanceAs (Decidable (_ ∧ _))
  | .unregister .. => isTrue trivial

/-- The list, the number of entries and the descriptors fit together. -/
structure SvcXprt.Consistent (xprt : SvcXprt δ) : Prop where
  keys : (xprt.servers.map ServerEntry.key).Nodup
  count : xprt.numServers = xprt.servers.length
  fdset : ∀ fd, xprt.fdset fd = true ↔
    ∃ svc ∈ xprt.servers, isCallback svc.xProg = false ∧ svc.fd = some fd
  maxFd : ∀ svc ∈ xprt.servers, ∀ fd, svc.fd = some fd → fd ≤ xprt.maxFd

/-- Whether `svc_register` gets to the end, if the pair is not in the list. -/
def RegisterIo.Accepts (io : RegisterIo) (prog : Word) : Prop :=
  isCallback prog = true ∨ 0 ≤ io.opened ∧ 0 ≤ io.ioctl

/-- The call puts the pair into the list, if it is not there. -/
def SvcCall.Inserts (prog vers : Word) : SvcCall δ → Prop
  | .register p v _ io =>
      (p = prog ∧ v = vers) ∧ io.Accepts p
  | .unregister .. => False

def SvcCall.Removes (prog vers : Word) : SvcCall δ → Prop
  | .register .. => False
  | .unregister p v _ => p = prog ∧ v = vers

/-- A failed or repeated registration changes nothing; removal takes out the
one entry and leaves the others as they are. -/
def SvcCall.Exact [DecidableEq δ] (xprt : SvcXprt δ) : SvcCall δ → Prop
  | .register prog vers dispatch io =>
      ((xprt.svcRegister prog vers dispatch io).1 = false ∨ (xprt.svcFind prog vers).isSome) →
        (xprt.svcRegister prog vers dispatch io).2 = xprt
  | .unregister prog vers _ =>
      match xprt.svcFind prog vers with
      | none => xprt.svcUnregister prog vers = xprt
      | some svc => ∃ l r, xprt.servers = l ++ svc :: r
          ∧ (xprt.svcUnregister prog vers).servers = l ++ r

/-! ## What a call can do -/

theorem isFor_iff {prog vers : Word} {svc : ServerEntry δ} :
    svc.isFor prog vers = true ↔ svc.key = (prog, vers) := by
  simp [ServerEntry.isFor, ServerEntry.key]

theorem svcFind_eq_find? (xprt : SvcXprt δ) (prog vers : Word) :
    xprt.svcFind prog vers = xprt.servers.find? (ServerEntry.isFor prog vers) :=
  findPrev_fst ..

theorem svcFind_isSome {xprt : SvcXprt δ} {prog vers : Word} :
    (xprt.svcFind prog vers).isSome ↔ (prog, vers) ∈ xprt.servers.map ServerEntry.key := by
  rw [svcFind_eq_find?, List.find?_isSome, List.mem_map]
  simp only [isFor_iff]

theorem svcFind_none {xprt : SvcXprt δ} {prog vers : Word} (h : xprt.svcFind prog vers = none) :
    (prog, vers) ∉ xprt.servers.map ServerEntry.key := by
  rw [← svcFind_isSome, h]
  exact Bool.false_ne_true

/-- The entry of a server. -/
def RegisterIo.server (io : RegisterIo) (prog vers : Word) (dispatch : δ) : ServerEntry δ :=
  ⟨io.entry, some { xdrInitCommon io.opened false with xProg := prog, xVers := vers }, prog, vers,
    dispatch⟩

/-- A registration leaves the transport as it is, or puts the entry of a callback
client or of a server in front. -/
theorem svcRegister_cases [DecidableEq δ] (xprt : SvcXprt δ) (prog vers : Word) (dispatch : δ)
    (io : RegisterIo) :
    ((xprt.svcRegister prog vers dispatch io).2 = xprt
        ∧ ((xprt.svcFind prog vers).isSome ∨ ¬ io.Accepts prog))
      ∨ (xprt.svcFind prog vers = none ∧ isCallback prog = true
        ∧ xprt.svcRegister prog vers dispatch io
          = (true, xprt.insert ⟨io.entry, none, prog, vers, dispatch⟩))
      ∨ (xprt.svcFind prog vers = none ∧ isCallback prog = false ∧ io.Accepts prog
        ∧ xprt.svcRegister prog vers dispatch io
          = (true, (xprt.watch io.opened).insert (io.server prog vers dispatch))) := by
  rcases hfind : xprt.svcFind prog vers with _ | svc
  · have hfind' : (xprt.svcFindNosync prog vers).1 = none := hfind
    cases hcb : isCallback prog with
    | true => exact .inr (.inl ⟨rfl, rfl, by simp [SvcXprt.svcRegister, hfind', hcb]⟩)
    | false =>
        by_cases hopen : io.opened < 0
        · refine .inl ⟨by simp [SvcXprt.svcRegister, hfind', hcb, xdrOpen, hopen], .inr ?_⟩
          simp only [RegisterIo.Accepts, hcb, Bool.false_eq_true, false_or]
          omega
        · by_cases hioctl : io.ioctl < 0
          · refine .inl ⟨?_, .inr ?_⟩
            · simp [SvcXprt.svcRegister, hfind', hcb, xdrOpen, hopen, hioctl]
            · simp only [RegisterIo.Accepts, hcb, Bool.false_eq_true, false_or]
              omega
          · refine .inr (.inr ⟨rfl, rfl, .inr ⟨by omega, by omega⟩, ?_⟩)
            simp [SvcXprt.svcRegister, hfind', hcb, xdrOpen, hopen, hioctl, RegisterIo.server,
              xdrInitCommon]
  · have hfind' : (xprt.svcFindNosync prog vers).1 = some svc := hfind
    exact .inl ⟨by simp [SvcXprt.svcRegister, hfind'], .inl rfl⟩

/-- Removal leaves the transport as it is, or takes one entry out of the list. -/
theorem svcUnregister_cases {xprt : SvcXprt δ} (haddr : (xprt.servers.map ServerEntry.addr).Nodup)
    (prog vers : Word) :
    (xprt.svcFind prog vers = none ∧ xprt.svcUnregister prog vers = xprt)
      ∨ ∃ l svc r, xprt.svcFind prog vers = some svc ∧ svc.key = (prog, vers)
        ∧ xprt.servers = l ++ svc :: r
        ∧ xprt.svcUnregister prog vers = { xprt.unwatch prog svc.xdr with
            servers := l ++ r
            numServers := xprt.numServers - 1 } := by
  rcases hfind : xprt.svcFindNosync prog vers with ⟨_ | svc, prev⟩
  · exact .inl ⟨by simp [SvcXprt.svcFind, hfind], by simp [SvcXprt.svcUnregister, hfind]⟩
  · have hsvc : xprt.svcFind prog vers = some svc := by simp [SvcXprt.svcFind, hfind]
    have hkey : svc.key = (prog, vers) := by
      rw [svcFind_eq_find?] at hsvc
      exact isFor_iff.mp (List.find?_some hsvc)
    obtain ⟨l, r, heq, hunlink⟩ := unlink_of_findPrev haddr hfind
    refine .inr ⟨l, svc, r, hsvc, hkey, heq, ?_⟩
    simp only [SvcXprt.svcUnregister, hfind, hunlink]
    cases hxdr : svc.xdr with
    | none => rfl
    | some xdr =>
        simp only [SvcXprt.unwatch]
        split <;> rfl

/-! ## The invariant -/

/-- What keeps the transport consistent: entries have their own memory and
descriptors, and exactly the callback clients have no handle. -/
structure SvcXprt.Inv (xprt : SvcXprt δ) : Prop where
  keys : (xprt.servers.map ServerEntry.key).Nodup
  addrs : (xprt.servers.map ServerEntry.addr).Nodup
  fds : (xprt.servers.filterMap ServerEntry.fd).Nodup
  handles : ∀ svc ∈ xprt.servers, svc.fd = none ↔ isCallback svc.xProg = true
  count : xprt.numServers = xprt.servers.length
  fdset : Marks xprt.fdset (xprt.servers.filterMap ServerEntry.fd)
  maxFd : ∀ svc ∈ xprt.servers, ∀ fd, svc.fd = some fd → fd ≤ xprt.maxFd

theorem SvcXprt.empty_inv : (SvcXprt.empty δ).Inv := by
  constructor <;> simp [SvcXprt.empty, Marks]

theorem SvcXprt.Inv.consistent {xprt : SvcXprt δ} (h : xprt.Inv) : xprt.Consistent where
  keys := h.keys
  count := h.count
  maxFd := h.maxFd
  fdset fd := by
    rw [h.fdset fd, List.mem_filterMap]
    constructor
    · rintro ⟨svc, hsvc, hfd⟩
      have hhandle := h.handles svc hsvc
      rw [hfd] at hhandle
      exact ⟨svc, hsvc, by simpa using hhandle, hfd⟩
    · rintro ⟨svc, hsvc, -, hfd⟩
      exact ⟨svc, hsvc, hfd⟩

theorem SvcXprt.le_watch_maxFd (xprt : SvcXprt δ) (fd : Int) :
    fd ≤ (xprt.watch fd).maxFd ∧ xprt.maxFd ≤ (xprt.watch fd).maxFd := by
  simp only [SvcXprt.watch]
  split_ifs <;> omega

/-- The entry of a callback client goes in front of the list. -/
theorem SvcXprt.Inv.insert {xprt : SvcXprt δ} (h : xprt.Inv) {svc : ServerEntry δ}
    (hkey : svc.key ∉ xprt.servers.map ServerEntry.key)
    (haddr : svc.addr ∉ xprt.servers.map ServerEntry.addr) (hfd : svc.fd = none)
    (hcb : isCallback svc.xProg = true) : (xprt.insert svc).Inv where
  keys := List.nodup_cons.mpr ⟨hkey, h.keys⟩
  addrs := List.nodup_cons.mpr ⟨haddr, h.addrs⟩
  fds := by
    rw [SvcXprt.insert, List.filterMap_cons_none hfd]
    exact h.fds
  handles := List.forall_mem_cons.mpr ⟨iff_of_true hfd hcb, h.handles⟩
  count := by simp [SvcXprt.insert, h.count]
  fdset := by
    rw [SvcXprt.insert, List.filterMap_cons_none hfd]
    exact h.fdset
  maxFd := by
    refine List.forall_mem_cons.mpr ⟨fun fd hsome => ?_, h.maxFd⟩
    rw [hfd] at hsome
    cases hsome

/-- A server goes in front of the list, and its descriptor into the set. -/
theorem SvcXprt.Inv.insert_watch {xprt : SvcXprt δ} (h : xprt.Inv) {svc : ServerEntry δ}
    {fd : Int} (hkey : svc.key ∉ xprt.servers.map ServerEntry.key)
    (haddr : svc.addr ∉ xprt.servers.map ServerEntry.addr) (hfd : svc.fd = some fd)
    (hfresh : some fd ∉ xprt.servers.map ServerEntry.fd) (hcb : isCallback svc.xProg = false) :
    ((xprt.watch fd).insert svc).Inv where
  keys := List.nodup_cons.mpr ⟨hkey, h.keys⟩
  addrs := List.nodup_cons.mpr ⟨haddr, h.addrs⟩
  fds := by
    rw [SvcXprt.insert, List.filterMap_cons_some hfd]
    refine List.nodup_cons.mpr ⟨fun hmem => hfresh ?_, h.fds⟩
    obtain ⟨x, hx, hxfd⟩ := List.mem_filterMap.mp hmem
    exact List.mem_map.mpr ⟨x, hx, hxfd⟩
  handles := List.forall_mem_cons.mpr ⟨by simp [hfd, hcb], h.handles⟩
  count := by simp [SvcXprt.insert, SvcXprt.watch, h.count]
  fdset := by
    rw [SvcXprt.insert, List.filterMap_cons_some hfd]
    exact h.fdset.cons
  maxFd := by
    have hle := xprt.le_watch_maxFd fd
    refine List.forall_mem_cons.mpr ⟨fun x hsome => ?_, fun x hx y hy => ?_⟩
    · rw [hfd] at hsome
      cases hsome
      exact hle.1
    · exact (h.maxFd x hx y hy).trans hle.2

theorem SvcXprt.unwatch_maxFd (xprt : SvcXprt δ) (prog : Word) (xdr : Option Xdr) :
    (xprt.unwatch prog xdr).maxFd = xprt.maxFd := by
  unfold SvcXprt.unwatch
  split
  · split <;> rfl
  · rfl

/-- The descriptors without the entry that leaves. -/
theorem SvcXprt.Inv.unwatch_fdset {xprt : SvcXprt δ} (h : xprt.Inv) {svc : ServerEntry δ}
    {l r : List (ServerEntry δ)} (heq : xprt.servers = l ++ svc :: r) :
    Marks (xprt.unwatch svc.xProg svc.xdr).fdset ((l ++ r).filterMap ServerEntry.fd) := by
  have hset := h.fdset
  have hfds := h.fds
  have hhandle := h.handles svc (by simp [heq])
  rw [heq, List.filterMap_append] at hset hfds
  rw [List.filterMap_append]
  cases hxdr : svc.xdr with
  | none =>
      have hfd : svc.fd = none := by rw [ServerEntry.fd, hxdr, Option.map_none]
      rwa [List.filterMap_cons_none hfd] at hset
  | some xdr =>
      have hfd : svc.fd = some xdr.fd := by rw [ServerEntry.fd, hxdr, Option.map_some]
      have hcb : isCallback svc.xProg = false := by
        rw [hfd] at hhandle
        simpa using hhandle
      rw [List.filterMap_cons_some hfd] at hset hfds
      simp only [SvcXprt.unwatch, hcb, Bool.false_eq_true, if_false]
      exact hset.erase hfds

/-- An entry that left the list takes its descriptor with it. -/
theorem SvcXprt.Inv.unregister {xprt : SvcXprt δ} (h : xprt.Inv) {svc : ServerEntry δ}
    {l r : List (ServerEntry δ)} (heq : xprt.servers = l ++ svc :: r) :
    ({ xprt.unwatch svc.xProg svc.xdr with
        servers := l ++ r, numServers := xprt.numServers - 1 } : SvcXprt δ).Inv := by
  have hsub : (l ++ r).Sublist xprt.servers := by
    rw [heq]
    exact (List.Sublist.refl l).append (List.sublist_cons_self svc r)
  constructor
  · exact h.keys.sublist (hsub.map _)
  · exact h.addrs.sublist (hsub.map _)
  · exact h.fds.sublist (hsub.filterMap _)
  · exact fun x hx => h.handles x (hsub.subset hx)
  · have hcount := h.count
    rw [heq] at hcount
    simp only [List.length_append, List.length_cons] at hcount ⊢
    omega
  · exact h.unwatch_fdset heq
  · intro x hx fd hfd
    exact (h.maxFd x (hsub.subset hx) fd hfd).trans_eq (xprt.unwatch_maxFd ..).symm

theorem svcStep_inv [DecidableEq δ] (xprt : SvcXprt δ) (c : SvcCall δ) (h : xprt.Inv)
    (hc : c.Fresh xprt) : (svcStep xprt c).Inv := by
  cases c with
  | register prog vers dispatch io =>
      rcases svcRegister_cases xprt prog vers dispatch io with
        ⟨hsame, -⟩ | ⟨hnone, hcb, hnew⟩ | ⟨hnone, hcb, -, hnew⟩
      · rw [svcStep, hsame]
        exact h
      · rw [svcStep, hnew]
        exact h.insert (svcFind_none hnone) hc.1 rfl hcb
      · rw [svcStep, hnew]
        exact h.insert_watch (svcFind_none hnone) hc.1 rfl hc.2 hcb
  | unregister prog vers ioctl =>
      rcases svcUnregister_cases h.addrs prog vers with
        ⟨-, hsame⟩ | ⟨l, svc, r, -, hkey, heq, hrest⟩
      · rw [svcStep, hsame]
        exact h
      · obtain ⟨rfl, -⟩ := Prod.mk.inj hkey
        rw [svcStep, hrest]
        exact h.unregister heq

/-- A registration leaves the pair in the list exactly when it inserted it or it
was there. -/
theorem svcRegister_find [DecidableEq δ] (prog vers : Word) (xprt : SvcXprt δ) (p v : Word)
    (dispatch : δ) (io : RegisterIo) :
    ((svcStep xprt (.register p v dispatch io)).svcFind prog vers).isSome ↔
      (p = prog ∧ v = vers) ∧ io.Accepts p ∨ (xprt.svcFind prog vers).isSome := by
  have hcons : ∀ keys : List (Word × Word), io.Accepts p →
      ((prog, vers) ∈ (p, v) :: keys ↔
        (p = prog ∧ v = vers) ∧ io.Accepts p ∨ (prog, vers) ∈ keys) := by
    intro keys hok
    simp only [List.mem_cons, Prod.mk.injEq, hok, and_true, eq_comm]
  rcases svcRegister_cases xprt p v dispatch io with
    ⟨hsame, hwhy⟩ | ⟨-, hcb, hnew⟩ | ⟨-, -, hok, hnew⟩
  · rw [svcStep, hsame]
    refine ⟨.inr, ?_⟩
    rintro (⟨⟨rfl, rfl⟩, hok⟩ | hfind)
    · exact hwhy.resolve_right (not_not_intro hok)
    · exact hfind
  · rw [svcStep, hnew, svcFind_isSome, svcFind_isSome]
    exact hcons _ (.inl hcb)
  · rw [svcStep, hnew, svcFind_isSome, svcFind_isSome]
    exact hcons _ hok

/-- `svc_unregister` takes its own pair out of the list and no other. -/
theorem svcUnregister_find [DecidableEq δ] (prog vers : Word) {xprt : SvcXprt δ} (h : xprt.Inv)
    (p v : Word) (ioctl : Int) :
    ((svcStep xprt (.unregister p v ioctl)).svcFind prog vers).isSome ↔
      (xprt.svcFind prog vers).isSome ∧ ¬ (p = prog ∧ v = vers) := by
  rcases svcUnregister_cases h.addrs p v with
    ⟨hfind, hsame⟩ | ⟨l, svc, r, -, hkey, heq, hrest⟩
  · rw [svcStep, hsame]
    refine ⟨fun hsome => ⟨hsome, ?_⟩, fun hsome => hsome.1⟩
    rintro ⟨rfl, rfl⟩
    rw [hfind] at hsome
    cases hsome
  · have hnodup := h.keys
    rw [heq, List.map_append, List.map_cons, List.nodup_middle, ← List.map_append,
      hkey] at hnodup
    have hp := (List.nodup_cons.mp hnodup).1
    rw [svcStep, hrest, svcFind_isSome, svcFind_isSome, heq]
    constructor
    · intro hmem
      refine ⟨?_, ?_⟩
      · rw [List.map_append, List.mem_append] at hmem
        rw [List.map_append, List.mem_append, List.map_cons, List.mem_cons]
        exact hmem.imp_right .inr
      · rintro ⟨rfl, rfl⟩
        exact hp hmem
    · rintro ⟨hmem, hne⟩
      rw [List.map_append, List.mem_append, List.map_cons, List.mem_cons, hkey] at hmem
      rw [List.map_append, List.mem_append]
      refine hmem.imp_right fun hmem => hmem.resolve_left fun heq => hne ?_
      exact (Prod.mk.inj heq).imp Eq.symm Eq.symm

/-- The pair is in the list after a call exactly when the call put it there or
it was there and the call did not remove it. -/
theorem svcStep_find [DecidableEq δ] (prog vers : Word) (xprt : SvcXprt δ) (c : SvcCall δ)
    (h : xprt.Inv) :
    ((svcStep xprt c).svcFind prog vers).isSome ↔
      c.Inserts prog vers ∨ (xprt.svcFind prog vers).isSome ∧ ¬ c.Removes prog vers := by
  cases c with
  | register p v dispatch io =>
      simp only [SvcCall.Inserts, SvcCall.Removes, not_false_eq_true, and_true]
      exact svcRegister_find prog vers xprt p v dispatch io
  | unregister p v ioctl =>
      simp only [SvcCall.Inserts, SvcCall.Removes, false_or]
      exact svcUnregister_find prog vers h p v ioctl

theorem svcCall_exact [DecidableEq δ] (xprt : SvcXprt δ) (c : SvcCall δ) (h : xprt.Inv) :
    c.Exact xprt := by
  cases c with
  | register prog vers dispatch io =>
      intro hwhy
      rcases svcRegister_cases xprt prog vers dispatch io with
        ⟨hsame, -⟩ | ⟨hfind, -, hnew⟩ | ⟨hfind, -, -, hnew⟩
      · exact hsame
      · rw [hnew, hfind] at hwhy
        simp at hwhy
      · rw [hnew, hfind] at hwhy
        simp at hwhy
  | unregister prog vers ioctl =>
      rcases svcUnregister_cases h.addrs prog vers with
        ⟨hfind, hsame⟩ | ⟨l, svc, r, hfind, -, heq, hrest⟩
      · simp only [SvcCall.Exact, hfind, hsame]
      · simp only [SvcCall.Exact, hfind, hrest]
        exact ⟨l, r, heq, rfl⟩

theorem svcFind_run [DecidableEq δ] {calls : List (SvcCall δ)}
    (h : AllSteps svcStep (fun xprt c => c.Fresh xprt) (SvcXprt.empty δ) calls)
    (prog vers : Word) :
    ((runFrom svcStep (SvcXprt.empty δ) calls).svcFind prog vers).isSome ↔
      Since (SvcCall.Inserts prog vers) (SvcCall.Removes prog vers) calls := by
  refine AllSteps.iff_since (R := fun xprt => (xprt.svcFind prog vers).isSome = true)
    svcStep_inv (fun xprt c hxprt _ => svcStep_find prog vers xprt c hxprt)
    SvcXprt.empty_inv ?_ h
  simp [SvcXprt.svcFind, SvcXprt.svcFindNosync, SvcXprt.empty, findPrev]

/-- When every pair that was inserted is removed, nothing is left. -/
theorem servers_run_nil [DecidableEq δ] {calls : List (SvcCall δ)}
    (h : AllSteps svcStep (fun xprt c => c.Fresh xprt) (SvcXprt.empty δ) calls)
    (hrem : ∀ prog vers,
      ¬ Since (SvcCall.Inserts prog vers) (SvcCall.Removes prog vers) calls) :
    (runFrom svcStep (SvcXprt.empty δ) calls).servers = []
      ∧ (runFrom svcStep (SvcXprt.empty δ) calls).numServers = 0 := by
  have hnil : (runFrom svcStep (SvcXprt.empty δ) calls).servers = [] := by
    refine List.eq_nil_iff_forall_not_mem.mpr fun svc hsvc => hrem svc.xProg svc.xVers ?_
    rw [← svcFind_run h, svcFind_isSome]
    exact List.mem_map_of_mem hsvc
  refine ⟨hnil, ?_⟩
  rw [(AllSteps.run_inv svcStep_inv SvcXprt.empty_inv h).count, hnil]
  rfl

/-- **The service registry.** After every sequence of registrations and removals,
with any numbers and any answers of the system, the list has no pair twice and
fits the number of servers and the descriptors, `svc_find` finds exactly the
pairs that were inserted and not removed since, and each call on the way changed
no more than its one entry. -/
theorem service_registry [DecidableEq δ] (calls : List (SvcCall δ))
    (h : AllSteps svcStep (fun xprt c => c.Fresh xprt) (SvcXprt.empty δ) calls) :
    (runFrom svcStep (SvcXprt.empty δ) calls).Consistent
      ∧ (∀ prog vers, ((runFrom svcStep (SvcXprt.empty δ) calls).svcFind prog vers).isSome ↔
        Since (SvcCall.Inserts prog vers) (SvcCall.Removes prog vers) calls)
      ∧ AllSteps svcStep (fun xprt c => c.Exact xprt) (SvcXprt.empty δ) calls := by
  refine ⟨?_, svcFind_run h, ?_⟩
  · exact (AllSteps.run_inv svcStep_inv SvcXprt.empty_inv h).consistent
  · exact h.imp svcStep_inv (fun xprt c hxprt _ => svcCall_exact xprt c hxprt)
      SvcXprt.empty_inv

/-- Two servers and a callback client; a second registration and one that the
driver refuses; the client, in the middle of the list, leaves. -/
def sampleRegistrations : List (SvcCall Nat) :=
  [.register 0x3000005b 1 10 ⟨100, 5, 0⟩, .register 0x3100005b 1 11 ⟨101, -1, 0⟩,
   .register 0x3000001d 2 12 ⟨102, 6, 0⟩, .register 0x3000005b 1 13 ⟨103, 7, 0⟩,
   .register 0x30000090 1 14 ⟨103, 7, -1⟩, .unregister 0x3100005b 1 (-1)]

theorem sampleRegistrations_listed :
    (runFrom svcStep (SvcXprt.empty Nat) sampleRegistrations).servers.map ServerEntry.key
        = [(0x3000001d, 2), (0x3000005b, 1)]
      ∧ ((runFrom svcStep (SvcXprt.empty Nat) sampleRegistrations).svcFind 0x3000005b 1).isSome
      ∧ Since (SvcCall.Inserts 0x3000005b 1) (SvcCall.Removes 0x3000005b 1)
        sampleRegistrations := by
  have hfresh : AllSteps svcStep (fun xprt c => c.Fresh xprt) (SvcXprt.empty Nat)
      sampleRegistrations := by decide
  have hfind : ((runFrom svcStep (SvcXprt.empty Nat) sampleRegistrations).svcFind
      0x3000005b 1).isSome := by decide
  exact ⟨by decide, hfind, ((service_registry sampleRegistrations hfresh).2.1 _ _).mp hfind⟩

end HtcLeo
