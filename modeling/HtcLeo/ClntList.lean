import HtcLeo.Linked
import HtcLeo.XdrStd

/-!
# The list of RPC clients (`librpc/clnt.c`)

The clients of a process lie in a linked list, with their number and with
the descriptors on which the RX thread selects. `clntCreate` puts a
client in front of the list and starts the RX thread for the first one;
`clntDestroy` takes the client out and joins the RX thread after the
last one.
-/

namespace HtcLeo

/-- A `CLIENT` as `clnt_create` leaves it, with its address. -/
structure ClientNode where
  addr : Nat
  fd : Int
  xProg : Word
  xVers : Word
deriving DecidableEq, Repr

/-- The static variables of `clnt.c`; `rxThread` says that there is an RX thread
that was not joined. Each client holds a descriptor, so their number stays far
below the range of `num_clients`. -/
structure RxGlobals where
  numClients : Nat
  rxFdset : Int → Bool
  maxRxfd : Int
  clients : List ClientNode
  rxThread : Bool

namespace RxGlobals

def init : RxGlobals := ⟨0, fun _ => false, 0, [], false⟩

/-- For versions like `0x00010001`, only the major version. -/
def majorVers (vers : Word) : Word :=
  if vers ≠ 0x20002 ∧ vers &&& 0xFFF00000 = 0 then vers &&& 0xFFFF0000 else vers

/-- What `calloc` and `open` return; `none` is `NULL`. -/
structure CreateIo where
  client : Option Nat
  opened : Int
deriving DecidableEq, Repr

/-- `FD_ZERO` before the first client. -/
def clearIfNone (g : RxGlobals) : RxGlobals :=
  if g.numClients = 0 then { g with rxFdset := fun _ => false, maxRxfd := 0 } else g

def link (g : RxGlobals) (node : ClientNode) : RxGlobals where
  rxFdset := Function.update g.rxFdset node.fd true
  maxRxfd := if g.maxRxfd < node.fd then node.fd else g.maxRxfd
  clients := node :: g.clients
  rxThread := if g.numClients = 0 then true else g.rxThread
  numClients := g.numClients + 1

def clntCreate (g : RxGlobals) (prog vers : Word) (io : CreateIo) : Option Nat × RxGlobals :=
  match io.client with
  | none => (none, g)
  | some client =>
      match xdrOpen io.opened true with
      | none => (none, g)
      | some xdr => (some client, g.clearIfNone.link ⟨client, xdr.fd, prog, majorVers vers⟩)

/-- The search of `clnt_destroy` for its client. -/
def unlinkClient (g : RxGlobals) (client : Nat) : RxGlobals :=
  match findPrev (fun trav => trav.addr = client) none g.clients with
  | (none, _) => g
  | (some trav, prev) =>
      { g with
        clients := unlink ClientNode.addr prev trav g.clients
        numClients := g.numClients - 1
        rxFdset := Function.update g.rxFdset trav.fd false }

/-- The join of the RX thread behind the last client is taken to return. -/
def clntDestroy (g : RxGlobals) : Option Nat → RxGlobals
  | none => g
  | some client =>
      let g := g.unlinkClient client
      if g.numClients = 0 then { g with rxThread := false } else g

/-! ## The invariant -/

/-- Clients have their own memory and descriptors, and the number, the
descriptors and the RX thread fit the list. -/
structure Inv (g : RxGlobals) : Prop where
  addrs : (g.clients.map ClientNode.addr).Nodup
  fds : (g.clients.map ClientNode.fd).Nodup
  count : g.numClients = g.clients.length
  fdset : Marks g.rxFdset (g.clients.map ClientNode.fd)
  maxFd : ∀ node ∈ g.clients, node.fd ≤ g.maxRxfd

/-- `calloc` and `open` return what is not in use. -/
def CreateIo.Fresh (g : RxGlobals) (io : CreateIo) : Prop :=
  (∀ client, io.client = some client → client ∉ g.clients.map ClientNode.addr)
    ∧ io.opened ∉ g.clients.map ClientNode.fd

variable {g : RxGlobals}

theorem init_inv : init.Inv := by
  constructor <;> simp [init, Marks]

theorem Inv.clearIfNone (h : g.Inv) : g.clearIfNone.Inv := by
  unfold RxGlobals.clearIfNone
  split
  · rename_i hnone
    have hnil : g.clients = [] := List.length_eq_zero_iff.mp (h.count.symm.trans hnone)
    constructor <;> simp [hnil, hnone, Marks]
  · exact h

@[simp] theorem clearIfNone_clients (g : RxGlobals) : g.clearIfNone.clients = g.clients := by
  unfold clearIfNone
  split <;> rfl

theorem Inv.link (h : g.Inv) {node : ClientNode} (haddr : node.addr ∉ g.clients.map ClientNode.addr)
    (hfd : node.fd ∉ g.clients.map ClientNode.fd) : (g.link node).Inv where
  addrs := List.nodup_cons.mpr ⟨haddr, h.addrs⟩
  fds := List.nodup_cons.mpr ⟨hfd, h.fds⟩
  count := by simp [RxGlobals.link, h.count]
  fdset := h.fdset.cons
  maxFd := by
    refine List.forall_mem_cons.mpr ⟨?_, fun x hx => ?_⟩
    · simp only [RxGlobals.link]
      split_ifs <;> omega
    · have := h.maxFd x hx
      simp only [RxGlobals.link]
      split_ifs <;> omega

theorem clntCreate_eq (g : RxGlobals) (prog vers : Word) {io : CreateIo} {client : Nat}
    (hclient : io.client = some client) (hopen : 0 ≤ io.opened) :
    g.clntCreate prog vers io
      = (some client, g.clearIfNone.link ⟨client, io.opened, prog, majorVers vers⟩) := by
  simp [clntCreate, hclient, xdrOpen, not_lt.mpr hopen, xdrInitCommon]

theorem Inv.clntCreate (h : g.Inv) (prog vers : Word) {io : CreateIo} (hio : io.Fresh g) :
    (g.clntCreate prog vers io).2.Inv := by
  rcases hclient : io.client with _ | client
  · simpa [RxGlobals.clntCreate, hclient] using h
  · by_cases hopen : io.opened < 0
    · simpa [RxGlobals.clntCreate, hclient, xdrOpen, hopen] using h
    · rw [clntCreate_eq g prog vers hclient (by omega)]
      refine h.clearIfNone.link ?_ ?_
      · simpa using hio.1 client hclient
      · simpa using hio.2

theorem Inv.unlinkClient (h : g.Inv) (client : Nat) : (g.unlinkClient client).Inv := by
  rcases hfind : findPrev (fun trav => trav.addr = client) none g.clients with ⟨_ | trav, prev⟩
  · simpa only [RxGlobals.unlinkClient, hfind] using h
  · obtain ⟨l, r, heq, hunlink⟩ := unlink_of_findPrev h.addrs hfind
    have hsub : (l ++ r).Sublist g.clients := by
      rw [heq]
      exact (List.Sublist.refl l).append (List.sublist_cons_self trav r)
    simp only [RxGlobals.unlinkClient, hfind, hunlink]
    refine ⟨h.addrs.sublist (hsub.map _), h.fds.sublist (hsub.map _), ?_, ?_, ?_⟩
    · have hcount := h.count
      rw [heq] at hcount
      simp only [List.length_append, List.length_cons] at hcount ⊢
      omega
    · have hset := h.fdset
      have hfds := h.fds
      rw [heq, List.map_append, List.map_cons] at hset hfds
      rw [List.map_append]
      exact hset.erase hfds
    · exact fun x hx => h.maxFd x (hsub.subset hx)

theorem Inv.clntDestroy (h : g.Inv) (client : Option Nat) : (g.clntDestroy client).Inv := by
  cases client with
  | none => exact h
  | some client =>
      have hinv := h.unlinkClient client
      simp only [RxGlobals.clntDestroy]
      split
      · exact ⟨hinv.addrs, hinv.fds, hinv.count, hinv.fdset, hinv.maxFd⟩
      · exact hinv

/-- The client behind the first one leaves. -/
theorem clntDestroy_clients {first second : ClientNode} {rest : List ClientNode}
    (h : g.clients = first :: second :: rest) (hne : first.addr ≠ second.addr) :
    (g.clntDestroy (some second.addr)).clients = first :: rest := by
  have hunlink : (g.unlinkClient second.addr).clients = first :: rest := by
    simp [RxGlobals.unlinkClient, h, findPrev, unlink, nextOf, setNext, hne]
  simp only [RxGlobals.clntDestroy]
  split
  · exact hunlink
  · exact hunlink

end RxGlobals

end HtcLeo
