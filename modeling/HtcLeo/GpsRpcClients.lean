import HtcLeo.ClntList
import HtcLeo.SvcRegistry

/-!
# RPC clients of the GPS library (`libgps/leo-gps-rpc.c`)

`init_leo` creates two RPC clients, one for the position services and one
for the ATL proxy, a transport, and on it four entries for the callbacks.
`cleanup_gps_rpc_clients` takes them away again when the GPS is switched
off. The RPC calls in between leave these lists as they are.

The client of the ATL proxy is kept in a local variable of `init_leo` and
never destroyed: every cycle leaves one client in the list
(`gpsCycle_leaks`), so that the lists are clean only before the first one.
-/

namespace HtcLeo

/-! ## The transport -/

/-- The variables of `svc.c` and `leo-gps-rpc.c` beside those of `clnt.c`, and
the transports in memory. `freed` are the transports that were released, as they
were then; `clnt` and `svc` are `_clnt` and `_svc`. -/
structure GpsRpc where
  rx : RxGlobals
  theXprt : Option Nat
  xprtRefcount : Int
  xprts : Nat → Option (SvcXprt Unit)
  freed : List (SvcXprt Unit)
  clnt : Option Nat
  svc : Nat

namespace GpsRpc

def start : GpsRpc := ⟨.init, none, 0, fun _ => none, [], none, 0⟩

/-- `addr` is what `calloc` returns if it is called. -/
def svcrtrCreate (s : GpsRpc) (addr : Nat) : Nat × GpsRpc :=
  match s.theXprt with
  | some xprt => (xprt, s)
  | none => (addr, { s with xprts := Function.update s.xprts addr (some (.empty Unit)) })

def xprtRegister (s : GpsRpc) (xprt : Nat) : GpsRpc :=
  if s.theXprt = none ∨ s.theXprt = some xprt then
    { s with xprtRefcount := s.xprtRefcount + 1, theXprt := some xprt }
  else s

def xprtUnregister (s : GpsRpc) (xprt : Nat) : GpsRpc :=
  if s.theXprt = some xprt then
    if s.xprtRefcount = 1 then
      { s with
        xprtRefcount := 0
        freed := (s.xprts xprt).toList ++ s.freed
        xprts := Function.update s.xprts xprt none
        theXprt := none }
    else { s with xprtRefcount := s.xprtRefcount - 1 }
  else s

/-- Calls of `svc_register` and `svc_unregister` on a transport. -/
def onXprt (s : GpsRpc) (xprt : Nat) (calls : List (SvcCall Unit)) : GpsRpc :=
  { s with xprts := Function.update s.xprts xprt ((s.xprts xprt).map (runFrom svcStep · calls)) }

end GpsRpc

/-! ## Initialisation and cleanup -/

/-- What the system answers to `init_leo`. -/
structure InitIo where
  clnt : RxGlobals.CreateIo
  clntAtl : RxGlobals.CreateIo
  xprt : Nat
  pd : RegisterIo
  pdZero : RegisterIo
  atl : RegisterIo
  atlZero : RegisterIo

/-- All four are callback clients, with `dispatch` as their service function. -/
def InitIo.registrations (io : InitIo) : List (SvcCall Unit) :=
  [.register 0x3100005b 0x00010001 () io.pd, .register 0x3100005b 0 () io.pdZero,
   .register 0x3100001d 0x00010001 () io.atl, .register 0x3100001d 0 () io.atlZero]

def unregistrations : List (SvcCall Unit) :=
  [.unregister 0x3100005b 0x00010001 0, .unregister 0x3100005b 0 0,
   .unregister 0x3100001d 0x00010001 0, .unregister 0x3100001d 0 0]

def initLeo (s : GpsRpc) (io : InitIo) : Int × GpsRpc :=
  let clnt := s.rx.clntCreate 0x3000005B 0x00010001 io.clnt
  -- the pointer to the second client is not kept
  let clntAtl := clnt.2.clntCreate 0x3000001D 0x00010001 io.clntAtl
  let s := { s with rx := clntAtl.2, clnt := clnt.1 }
  let svc := s.svcrtrCreate io.xprt
  let s := ({ svc.2 with svc := svc.1 } : GpsRpc).xprtRegister svc.1
  let s := s.onXprt svc.1 io.registrations
  (if clnt.1 = none then -1 else 0, s)

def cleanupGpsRpcClients (s : GpsRpc) : GpsRpc :=
  let s := s.onXprt s.svc unregistrations
  let s := s.xprtUnregister s.svc
  { s with rx := s.rx.clntDestroy s.clnt }

/-- The GPS is switched on and off. -/
def gpsCycle (s : GpsRpc) (io : InitIo) : GpsRpc := cleanupGpsRpcClients (initLeo s io).2

/-- Every call succeeds, and the system returns memory and descriptors that are
not in use. -/
structure InitIo.Succeeds (s : GpsRpc) (io : InitIo) : Prop where
  clnt : io.clnt.client.isSome ∧ 0 ≤ io.clnt.opened ∧ io.clnt.Fresh s.rx
  clntAtl : io.clntAtl.client.isSome ∧ 0 ≤ io.clntAtl.opened
    ∧ io.clntAtl.Fresh (s.rx.clntCreate 0x3000005B 0x00010001 io.clnt).2
  xprt : s.xprts io.xprt = none
  services : AllSteps svcStep (fun xprt c => c.Fresh xprt) (.empty Unit) io.registrations

/-- No client is left, the transport is released, and it held no services. -/
structure GpsRpc.Clean (s : GpsRpc) : Prop where
  clients : s.rx.clients = []
  numClients : s.rx.numClients = 0
  rxFdset : ∀ fd, s.rx.rxFdset fd = false
  services : ∀ xprt ∈ s.freed, xprt.servers = [] ∧ xprt.numServers = 0
  released : s.theXprt = none ∧ s.xprtRefcount = 0 ∧ ∀ a, s.xprts a = none

/-! ## One cycle -/

/-- The services that `init_leo` registers are all unregistered. -/
theorem unregistered {io : InitIo}
    (h : AllSteps svcStep (fun xprt c => c.Fresh xprt) (.empty Unit) io.registrations) :
    (runFrom svcStep (.empty Unit) (io.registrations ++ unregistrations)).servers = []
      ∧ (runFrom svcStep (.empty Unit) (io.registrations ++ unregistrations)).numServers = 0 := by
  refine servers_run_nil (AllSteps.append.mpr ⟨h, ?_⟩) fun prog vers hsince => ?_
  · simp [AllSteps, unregistrations, SvcCall.Fresh]
  · rcases since_append.mp hsince with hlate | ⟨hreg, hkept⟩
    · obtain ⟨c, hc, hins⟩ := hlate.exists_mem
      simp only [unregistrations, List.mem_cons, List.not_mem_nil, or_false] at hc
      rcases hc with rfl | rfl | rfl | rfl <;> exact hins
    · obtain ⟨c, hc, hins⟩ := hreg.exists_mem
      simp only [InitIo.registrations, List.mem_cons, List.not_mem_nil, or_false] at hc
      simp only [unregistrations, List.forall_mem_cons] at hkept
      obtain ⟨hpd, hpdZero, hatl, hatlZero, -⟩ := hkept
      rcases hc with rfl | rfl | rfl | rfl
      · exact hpd hins.1
      · exact hpdZero hins.1
      · exact hatl hins.1
      · exact hatlZero hins.1

/-- The clients after a cycle. -/
def rxCycle (rx : RxGlobals) (io : InitIo) : RxGlobals :=
  let clnt := rx.clntCreate 0x3000005B 0x00010001 io.clnt
  (clnt.2.clntCreate 0x3000001D 0x00010001 io.clntAtl).2.clntDestroy clnt.1

/-- Where there is no transport, a cycle allocates one and releases it. -/
theorem gpsCycle_eq {s : GpsRpc} (io : InitIo) (hnone : s.theXprt = none)
    (href : s.xprtRefcount = 0) :
    gpsCycle s io =
      { rx := rxCycle s.rx io
        theXprt := none
        xprtRefcount := 0
        xprts := Function.update s.xprts io.xprt none
        freed := runFrom svcStep (.empty Unit) (io.registrations ++ unregistrations) :: s.freed
        clnt := (s.rx.clntCreate 0x3000005B 0x00010001 io.clnt).1
        svc := io.xprt } := by
  simp [gpsCycle, cleanupGpsRpcClients, initLeo, GpsRpc.svcrtrCreate, GpsRpc.xprtRegister,
    GpsRpc.onXprt, GpsRpc.xprtUnregister, hnone, href, rxCycle, runFrom_append]

/-- The client of the ATL proxy stays. -/
theorem rxCycle_clients {s : GpsRpc} {io : InitIo} (h : io.Succeeds s) :
    ∃ node : ClientNode, node.xProg = 0x3000001D
      ∧ (rxCycle s.rx io).clients = node :: s.rx.clients := by
  obtain ⟨⟨hclnt, hopen, hfresh⟩, ⟨hatl, hopenAtl, hfreshAtl⟩, -, -⟩ := h
  obtain ⟨clnt, hclnt⟩ := Option.isSome_iff_exists.mp hclnt
  obtain ⟨clntAtl, hatl⟩ := Option.isSome_iff_exists.mp hatl
  have hne := hfreshAtl.1 clntAtl hatl
  refine ⟨⟨clntAtl, io.clntAtl.opened, 0x3000001D, RxGlobals.majorVers 0x00010001⟩, rfl, ?_⟩
  rw [rxCycle, RxGlobals.clntCreate_eq _ _ _ hclnt hopen]
  rw [RxGlobals.clntCreate_eq _ _ _ hclnt hopen] at hne
  simp only [RxGlobals.link, List.map_cons, List.mem_cons, not_or] at hne
  rw [RxGlobals.clntCreate_eq _ _ _ hatl hopenAtl]
  have hclients : ∀ first second : ClientNode,
      ((s.rx.clearIfNone.link second).clearIfNone.link first).clients
        = first :: second :: s.rx.clients := by
    intro first second
    simp [RxGlobals.link]
  exact RxGlobals.clntDestroy_clients (hclients _ _) hne.1

theorem rxCycle_inv {s : GpsRpc} {io : InitIo} (h : io.Succeeds s) (hrx : s.rx.Inv) :
    (rxCycle s.rx io).Inv :=
  ((hrx.clntCreate _ _ h.clnt.2.2).clntCreate _ _ h.clntAtl.2.2).clntDestroy _

/-! ## Any number of cycles -/

/-- What holds between two cycles: the transport is released with no services,
and the clients are in order. -/
structure GpsRpc.Idle (s : GpsRpc) : Prop where
  rx : s.rx.Inv
  services : ∀ xprt ∈ s.freed, xprt.servers = [] ∧ xprt.numServers = 0
  released : s.theXprt = none ∧ s.xprtRefcount = 0 ∧ ∀ a, s.xprts a = none

theorem GpsRpc.start_idle : GpsRpc.start.Idle :=
  ⟨RxGlobals.init_inv, by simp [GpsRpc.start], rfl, rfl, fun _ => rfl⟩

/-- What is left of an idle state to be clean is the client list. -/
theorem GpsRpc.Idle.clean_iff {s : GpsRpc} (h : s.Idle) : s.Clean ↔ s.rx.clients = [] := by
  refine ⟨Clean.clients, fun hnil => ⟨hnil, ?_, fun fd => ?_, h.services, h.released⟩⟩
  · rw [h.rx.count, hnil, List.length_nil]
  · have hfd := h.rx.fdset fd
    rw [hnil] at hfd
    simpa using hfd

theorem gpsCycle_idle (s : GpsRpc) (io : InitIo) (h : s.Idle) (hio : io.Succeeds s) :
    (gpsCycle s io).Idle := by
  obtain ⟨hnone, href, hfree⟩ := h.released
  rw [gpsCycle_eq io hnone href]
  refine ⟨rxCycle_inv hio h.rx, ?_, rfl, rfl, fun a => ?_⟩
  · exact List.forall_mem_cons.mpr ⟨unregistered hio.services, h.services⟩
  · by_cases ha : a = io.xprt
    · simp [ha]
    · simp [ha, hfree a]

/-- Each cycle leaves one client behind. -/
theorem gpsCycle_leaks {s : GpsRpc} {io : InitIo} (h : s.Idle) (hio : io.Succeeds s) :
    (gpsCycle s io).rx.clients.length = s.rx.clients.length + 1 := by
  obtain ⟨hnone, href, -⟩ := h.released
  obtain ⟨node, -, hclients⟩ := rxCycle_clients hio
  rw [gpsCycle_eq io hnone href, hclients, List.length_cons]

theorem gpsCycles_leak {s : GpsRpc} {cycles : List InitIo} (h : s.Idle)
    (hcycles : AllSteps gpsCycle (fun s io => io.Succeeds s) s cycles) :
    (runFrom gpsCycle s cycles).rx.clients.length = s.rx.clients.length + cycles.length := by
  induction cycles generalizing s with
  | nil => rfl
  | cons io cycles ih =>
      obtain ⟨hio, hrest⟩ := hcycles
      rw [runFrom_cons, ih (gpsCycle_idle s io h hio) hrest, gpsCycle_leaks h hio,
        List.length_cons]
      omega

/-- **Restarting the GPS.** After any number of cycles in which every call
succeeds, everything is released exactly when there was no cycle. -/
theorem restart_clean_iff (cycles : List InitIo)
    (h : AllSteps gpsCycle (fun s io => io.Succeeds s) GpsRpc.start cycles) :
    (runFrom gpsCycle GpsRpc.start cycles).Clean ↔ cycles.length = 0 := by
  have hidle := AllSteps.run_inv gpsCycle_idle GpsRpc.start_idle h
  have hleak := gpsCycles_leak GpsRpc.start_idle h
  rw [show GpsRpc.start.rx.clients = [] from rfl, List.length_nil, Nat.zero_add] at hleak
  rw [hidle.clean_iff, ← List.length_eq_zero_iff, hleak]

/-- The first restart, with descriptors 5 and 6. -/
def firstCycle : InitIo where
  clnt := ⟨some 100, 5⟩
  clntAtl := ⟨some 101, 6⟩
  xprt := 200
  pd := ⟨300, -1, 0⟩
  pdZero := ⟨301, -1, 0⟩
  atl := ⟨302, -1, 0⟩
  atlZero := ⟨303, -1, 0⟩

theorem firstCycle_succeeds : firstCycle.Succeeds GpsRpc.start where
  clnt := by simp [firstCycle, RxGlobals.CreateIo.Fresh, GpsRpc.start, RxGlobals.init]
  clntAtl := by
    refine ⟨rfl, by decide, fun client hclient => ?_, by decide⟩
    cases hclient
    decide
  xprt := rfl
  services := by decide

theorem firstCycle_clean_iff :
    (gpsCycle GpsRpc.start firstCycle).Clean ↔ [firstCycle].length = 0 :=
  restart_clean_iff [firstCycle] ⟨firstCycle_succeeds, trivial⟩

/-- After one restart the ATL client is still in the list, its descriptor in the
set. -/
theorem atl_client_left :
    firstCycle.Succeeds GpsRpc.start
      ∧ (gpsCycle GpsRpc.start firstCycle).rx.clients = [⟨101, 6, 0x3000001D, 0x00010000⟩]
      ∧ (gpsCycle GpsRpc.start firstCycle).rx.numClients = 1
      ∧ (gpsCycle GpsRpc.start firstCycle).rx.rxFdset 6 = true
      ∧ ¬ (gpsCycle GpsRpc.start firstCycle).Clean := by
  have hleft : (gpsCycle GpsRpc.start firstCycle).rx.clients
      = [⟨101, 6, 0x3000001D, 0x00010000⟩] := by decide
  refine ⟨firstCycle_succeeds, hleft, by decide, by decide, fun hclean => ?_⟩
  rw [hclean.clients] at hleft
  cases hleft

end HtcLeo
