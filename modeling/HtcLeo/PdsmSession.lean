import HtcLeo.GpsXtra
import HtcLeo.PdsmRequest

/-!
# Sessions with the position services (`libgps/leo-gps-rpc.c`)

`init_leo` registers three clients with the modem, which gives each an
ID; the IDs are kept in `client_IDs`, every later request names a client
by its ID, and `cleanup_gps_rpc_clients` deactivates and releases the
three. The library is written down here as a program that makes requests
(`Calls`), so that what it asks for can be said for any answers.

A session is `init_leo`, any operations, and the cleanup. In any sequence
of sessions each request goes out with the ID that the modem gave to its
client in the same session (`sessions_served`), although a release stores
its result in the place of the ID.
-/

namespace HtcLeo

namespace PdsmSession

/-! ## The statics -/

/-- `client_IDs` and `CHECKED[0]` -/
structure GpsRpcState where
  clientIDs : Int → Word
  checked : Bool

/-- The settings that `parse_gps_conf` leaves. -/
structure GpsRpcConf where
  xtraAutoDownloadEnabled : Byte
  xtraDownloadInterval : Byte
  sessionTimeout : Byte

abbrev Prog := Calls PdsmQuery Word

/-! ## Requests -/

/-- `clnt_call` with `xdr_args` -/
def callWords (clnt : PdsmClient) (proc : Word) (par : List Word) : Prog Word :=
  .ask (clnt, ⟨proc, .words par⟩)

def pdsmClientInit (s : GpsRpcState) (client : Int) : Prog GpsRpcState := do
  let res ← callWords .pdsm 0x2 [BitVec.ofInt 32 client]
  return { s with clientIDs := Function.update s.clientIDs client res }

def pdsmClientRelease (s : GpsRpcState) (client : Int) : Prog GpsRpcState := do
  let res ← callWords .pdsm 0x3 [s.clientIDs client]
  return { s with clientIDs := Function.update s.clientIDs client res }

def pdsmAtlL2ProxyReg (val0 val1 val2 : Word) : Prog Word := callWords .atl 0x3 [val0, val1, val2]

def pdsmAtlDnsProxyReg (val0 val1 : Word) : Prog Word := callWords .atl 0x6 [val0, val1]

/-- The registrations of a client, which differ in their procedure. -/
def pdsmClientReg (proc : Word) (s : GpsRpcState) (client : Int) (val0 val1 val2 val3 val4 : Word) :
    Prog Word :=
  callWords .pdsm proc [s.clientIDs client, val0, val1, val2, val3, val4]

def pdsmClientPdReg := pdsmClientReg 0x4
def pdsmClientPaReg := pdsmClientReg 0x5
def pdsmClientLcsReg := pdsmClientReg 0x6
def pdsmClientExtStatusReg := pdsmClientReg 0x8
def pdsmClientXtraReg := pdsmClientReg 0x7

def pdsmClientDeact (s : GpsRpcState) (client : Int) : Prog Word :=
  callWords .pdsm 0xA [s.clientIDs client]

def pdsmClientAct (s : GpsRpcState) (client : Int) : Prog Word :=
  callWords .pdsm 0x9 [s.clientIDs client]

def pdsmXtraSetData (val0 clientID val2 : Word) (xtraData : List Byte) (partLen : Word)
    (part totalParts : Byte) (val3 : Word) : Prog Word :=
  .ask (.pdsm, ⟨0x1A, .xtraData
    ⟨val0, clientID, val2, val3, some xtraData, partLen, part, totalParts⟩⟩)

def pdsmXtraInjectTimeInfo (val0 clientID val2 : Word) (timeInfo : PdsmXtraTimeInfo) : Prog Word :=
  .ask (.pdsm, ⟨0x1E, .xtraTime val0 clientID val2 timeInfo⟩)

def pdsmXtraSetAutoDownloadParams (val0 clientID val2 : Word) (boolean : Byte)
    (interval : BitVec 16) : Prog Word :=
  .ask (.pdsm, ⟨0x1C, .xtraAuto ⟨val0, clientID, val2, boolean, interval⟩⟩)

def pdsmXtraQueryDataValidity (val0 clientID val2 : Word) : Prog Word :=
  .ask (.pdsm, ⟨0x1D, .xtraValidity ⟨val0, clientID, val2⟩⟩)

def pdsmXtraClientInitiateDownloadRequest (val0 clientID val2 : Word) : Prog Word :=
  .ask (.pdsm, ⟨0x1B, .xtraValidity ⟨val0, clientID, val2⟩⟩)

def pdsmGetPosition (vals : List Word) : Prog Word := callWords .pdsm 0xb vals

def pdsmClientEndSession (s : GpsRpcState) (val0 val1 val2 : Word) (client : Int) : Prog Word :=
  callWords .pdsm 0xc [val0, val1, val2, s.clientIDs client]

/-! ## Operations -/

def gpsXtraSetAutoParams (conf : GpsRpcConf) (s : GpsRpcState) : Prog Word :=
  pdsmXtraSetAutoDownloadParams 0 (s.clientIDs 0xb) 0 conf.xtraAutoDownloadEnabled
    (conf.xtraDownloadInterval.setWidth 16)

def gpsXtraInitDownReq (s : GpsRpcState) : Prog Word :=
  pdsmXtraClientInitiateDownloadRequest 0 (s.clientIDs 0xb) 0

def gpsXtraSetData (s : GpsRpcState) (data : List Byte) (c : XtraCall) : Prog Word :=
  pdsmXtraSetData 0 (s.clientIDs 0xb) 0 (c.payload data) c.partLen c.part c.totalParts 1

/-- The part loop of `gps_xtra_inject_xtra_data` from `part` on. -/
def xtraParts (s : GpsRpcState) (data : List Byte) (totalParts : Byte) :
    (fuel : Nat) → (part : Byte) → (lenInjected : BitVec 16) → (retVal : Int) → Prog Int
  | 0, _, _, retVal => return retVal
  | fuel + 1, part, lenInjected, retVal =>
      if part ≤ totalParts then
        let left := (data.length : Int) - (lenInjected.toNat : Int)
        let partLen : Word :=
          if (xtraBlockSize : Int) > left then BitVec.ofInt 32 left
          else BitVec.ofNat 32 xtraBlockSize
        do
          let res ← gpsXtraSetData s data ⟨lenInjected.toNat, partLen, part, totalParts⟩
          if part < totalParts then
            if res.toInt = -1 then return einval
            else
              xtraParts s data totalParts fuel (part + 1) (lenInjected + partLen.setWidth 16) retVal
          else return res.toInt
      else return retVal

def gpsXtraInjectXtraData (s : GpsRpcState) (data : List Byte) : Prog Int :=
  xtraParts s data (xtraTotalParts data.length) 256 1 0 (-1)

/-- The sum is one of `uint64_t`; `elapsed` is `elapsed_realtime()`. -/
def gpsXtraInjectTimeInfo (s : GpsRpcState) (time timeReference elapsed : BitVec 64)
    (uncertainty : Word) : Prog Word :=
  pdsmXtraInjectTimeInfo 0 (s.clientIDs 0xb) 0
    ⟨uncertainty, time + (elapsed - timeReference), 1, 1⟩

def gpsGetPosition (conf : GpsRpcConf) (s : GpsRpcState) : Prog Word :=
  pdsmGetPosition ([0, 0, 1, 1, 1, 0x3B9AC9FF, 1, 0, 0, 0, 0, 0, 0] ++ List.replicate 12 0
    ++ [1, 50, conf.sessionTimeout.setWidth 32, s.clientIDs 2])

def exitGpsRpc (s : GpsRpcState) : Prog Word := pdsmClientEndSession s 0 0 0 2

/-! ## Initialisation and cleanup -/

/-- The end of `init_leo`, in which the settings are read once. -/
def initSettings (conf : GpsRpcConf) (s : GpsRpcState) : Prog GpsRpcState :=
  if s.checked then return s
  else if conf.xtraAutoDownloadEnabled ≠ 0 then do
    let _ ← gpsXtraSetAutoParams conf s
    return { s with checked := true }
  else return { s with checked := true }

/-- The requests of `init_leo`. -/
def initLeo (conf : GpsRpcConf) (s : GpsRpcState) : Prog GpsRpcState := do
  let s ← pdsmClientInit s 2
  let _ ← pdsmClientPdReg s 2 0 0 0 0xF3F0FFFF 0
  let _ ← pdsmClientPaReg s 2 0 2 0 0x7FFEFE0 0
  let _ ← pdsmClientExtStatusReg s 2 0 1 0 4 0
  let _ ← pdsmClientAct s 2
  let s ← pdsmClientInit s 0xb
  let _ ← pdsmClientXtraReg s 0xb 0 3 0 7 0
  let _ ← pdsmClientAct s 0xb
  let _ ← pdsmAtlL2ProxyReg 1 0 0
  let _ ← pdsmAtlDnsProxyReg 1 0
  let s ← pdsmClientInit s 4
  let _ ← pdsmClientLcsReg s 4 0 7 0 0x3F0 0
  let _ ← pdsmClientAct s 4
  initSettings conf s

def cleanupGpsRpcClients (s : GpsRpcState) : Prog GpsRpcState := do
  let _ ← pdsmClientDeact s 2
  let _ ← pdsmClientDeact s 0xb
  let _ ← pdsmClientDeact s 4
  let s ← pdsmClientRelease s 2
  let s ← pdsmClientRelease s 0xb
  pdsmClientRelease s 4

/-- What the HAL does with the library between the two. -/
inductive GpsRpcOp where
  | getPosition
  | endSession
  | setAutoParams
  | initDownReq
  | injectTime (time timeReference elapsed : BitVec 64) (uncertainty : Word)
  | injectData (data : List Byte)

def GpsRpcOp.prog (conf : GpsRpcConf) (s : GpsRpcState) : GpsRpcOp → Prog Unit
  | getPosition => do let _ ← gpsGetPosition conf s
  | endSession => do let _ ← exitGpsRpc s
  | setAutoParams => do let _ ← gpsXtraSetAutoParams conf s
  | initDownReq => do let _ ← gpsXtraInitDownReq s
  | injectTime time timeReference elapsed uncertainty => do
      let _ ← gpsXtraInjectTimeInfo s time timeReference elapsed uncertainty
  | injectData data => do let _ ← gpsXtraInjectXtraData s data

def opsProg (conf : GpsRpcConf) (s : GpsRpcState) : List GpsRpcOp → Prog Unit
  | [] => return ()
  | op :: ops => do
      op.prog conf s
      opsProg conf s ops

def session (conf : GpsRpcConf) (s : GpsRpcState) (ops : List GpsRpcOp) : Prog GpsRpcState := do
  let s ← initLeo conf s
  opsProg conf s ops
  cleanupGpsRpcClients s

def sessions (conf : GpsRpcConf) (s : GpsRpcState) : List (List GpsRpcOp) → Prog GpsRpcState
  | [] => return s
  | ops :: rest => do
      let s ← session conf s ops
      sessions conf s rest

/-! ## What a session asks for -/

/-- The IDs that the modem gave in a session. -/
structure SessionIds where
  pda : Word
  xtra : Word
  ni : Word

def wordsQuery (clnt : PdsmClient) (proc : Word) (par : List Word) : PdsmQuery :=
  (clnt, ⟨proc, .words par⟩)

def initQuery (client : Word) : PdsmQuery := wordsQuery .pdsm 0x2 [client]

/-- The settings go out once. -/
def settingsScript (conf : GpsRpcConf) (checked : Bool) (xtra : Word) : List PdsmQuery :=
  if checked = false ∧ conf.xtraAutoDownloadEnabled ≠ 0 then
    [(.pdsm, ⟨0x1C, .xtraAuto ⟨0, xtra, 0, conf.xtraAutoDownloadEnabled,
      conf.xtraDownloadInterval.setWidth 16⟩⟩)]
  else []

/-- The requests of `init_leo` with the IDs of the session. -/
def initScript (conf : GpsRpcConf) (checked : Bool) (ids : SessionIds) : List PdsmQuery :=
  [initQuery 2, wordsQuery .pdsm 0x4 [ids.pda, 0, 0, 0, 0xF3F0FFFF, 0],
    wordsQuery .pdsm 0x5 [ids.pda, 0, 2, 0, 0x7FFEFE0, 0],
    wordsQuery .pdsm 0x8 [ids.pda, 0, 1, 0, 4, 0], wordsQuery .pdsm 0x9 [ids.pda],
    initQuery 0xb, wordsQuery .pdsm 0x7 [ids.xtra, 0, 3, 0, 7, 0], wordsQuery .pdsm 0x9 [ids.xtra],
    wordsQuery .atl 0x3 [1, 0, 0], wordsQuery .atl 0x6 [1, 0],
    initQuery 4, wordsQuery .pdsm 0x6 [ids.ni, 0, 7, 0, 0x3F0, 0], wordsQuery .pdsm 0x9 [ids.ni]]
  ++ settingsScript conf checked ids.xtra

def cleanupScript (ids : SessionIds) : List PdsmQuery :=
  [wordsQuery .pdsm 0xA [ids.pda], wordsQuery .pdsm 0xA [ids.xtra], wordsQuery .pdsm 0xA [ids.ni],
    wordsQuery .pdsm 0x3 [ids.pda], wordsQuery .pdsm 0x3 [ids.xtra], wordsQuery .pdsm 0x3 [ids.ni]]

/-- `client_IDs` holds the IDs of the session. -/
structure SessionIds.Held (ids : SessionIds) (s : GpsRpcState) : Prop where
  pda : s.clientIDs 2 = ids.pda
  xtra : s.clientIDs 0xb = ids.xtra
  ni : s.clientIDs 4 = ids.ni

theorem initSettings_trace {conf : GpsRpcConf} {s s' : GpsRpcState} {t : List (PdsmQuery × Word)}
    (h : (initSettings conf s).Trace t s') :
    s'.clientIDs = s.clientIDs ∧ s'.checked = true
      ∧ t.map Prod.fst = settingsScript conf s.checked (s.clientIDs 0xb) := by
  unfold initSettings at h
  split at h
  · rename_i hchecked
    obtain ⟨rfl, rfl⟩ := Calls.trace_ret.mp h
    exact ⟨rfl, hchecked, by simp [settingsScript, hchecked]⟩
  · rename_i hchecked
    rw [Bool.not_eq_true] at hchecked
    split at h
    · rename_i hauto
      obtain ⟨res, t, rfl, hrest⟩ := Calls.trace_call.mp h
      obtain ⟨rfl, rfl⟩ := Calls.trace_ret.mp hrest
      refine ⟨rfl, rfl, ?_⟩
      rw [settingsScript, if_pos ⟨hchecked, hauto⟩]
      rfl
    · rename_i hauto
      obtain ⟨rfl, rfl⟩ := Calls.trace_ret.mp h
      refine ⟨rfl, rfl, ?_⟩
      rw [settingsScript, if_neg (fun h => hauto h.2)]
      rfl

theorem initLeo_trace {conf : GpsRpcConf} {s s' : GpsRpcState} {t : List (PdsmQuery × Word)}
    (h : (initLeo conf s).Trace t s') :
    ∃ ids : SessionIds, ids.Held s' ∧ s'.checked = true
      ∧ t.map Prod.fst = initScript conf s.checked ids
      ∧ (initQuery 2, ids.pda) ∈ t ∧ (initQuery 0xb, ids.xtra) ∈ t ∧ (initQuery 4, ids.ni) ∈ t := by
  simp only [initLeo, pdsmClientInit, pdsmClientPdReg, pdsmClientPaReg, pdsmClientExtStatusReg,
    pdsmClientXtraReg, pdsmClientLcsReg, pdsmClientReg, pdsmClientAct, pdsmAtlL2ProxyReg,
    pdsmAtlDnsProxyReg, callWords, Calls.bind_eq, Calls.pure_eq, Calls.ask_bind, Calls.call_bind,
    Calls.ret_bind, Calls.trace_call] at h
  obtain ⟨pda, _, rfl, _, _, rfl, _, _, rfl, _, _, rfl, _, _, rfl, xtra, _, rfl, _, _, rfl, _, _, rfl,
    _, _, rfl, _, _, rfl, ni, _, rfl, _, _, rfl, _, _, rfl, h⟩ := h
  obtain ⟨hids, hchecked, hlast⟩ := initSettings_trace h
  refine ⟨⟨pda, xtra, ni⟩, ⟨?_, ?_, ?_⟩, hchecked, ?_, ?_, ?_, ?_⟩
  · rw [hids]
    rfl
  · rw [hids]
    rfl
  · rw [hids]
    rfl
  · simp only [List.map_cons, hlast]
    rfl
  · exact List.mem_cons_self
  · simp [initQuery, wordsQuery]
  · simp [initQuery, wordsQuery]

theorem cleanupGpsRpcClients_trace {s s' : GpsRpcState} {t : List (PdsmQuery × Word)}
    {ids : SessionIds} (hids : ids.Held s) (h : (cleanupGpsRpcClients s).Trace t s') :
    s'.checked = s.checked ∧ t.map Prod.fst = cleanupScript ids := by
  simp only [cleanupGpsRpcClients, pdsmClientDeact, pdsmClientRelease, callWords, Calls.bind_eq,
    Calls.pure_eq, Calls.ask_bind, Calls.call_bind, Calls.ret_bind, Calls.trace_call,
    Calls.trace_ret] at h
  obtain ⟨_, _, rfl, _, _, rfl, _, _, rfl, _, _, rfl, _, _, rfl, _, _, rfl, rfl, rfl⟩ := h
  refine ⟨rfl, ?_⟩
  -- a release stores its result in its own place only
  simp [cleanupScript, wordsQuery, hids.pda, hids.xtra, hids.ni]

/-- A session with IDs of its own: `init_leo` gets them, the operations run with
them and the cleanup gives them back. -/
def SessionTrace (conf : GpsRpcConf) (checked : Bool) (ops : List GpsRpcOp)
    (t : List (PdsmQuery × Word)) : Prop :=
  ∃ (ids : SessionIds) (s : GpsRpcState) (before during after : List (PdsmQuery × Word)),
    t = before ++ (during ++ after) ∧ before.map Prod.fst = initScript conf checked ids
      ∧ (initQuery 2, ids.pda) ∈ before ∧ (initQuery 0xb, ids.xtra) ∈ before
      ∧ (initQuery 4, ids.ni) ∈ before
      ∧ ids.Held s ∧ (opsProg conf s ops).Trace during () ∧ after.map Prod.fst = cleanupScript ids

def SessionsTrace (conf : GpsRpcConf) : Bool → List (List GpsRpcOp) → List (PdsmQuery × Word) → Prop
  | _, [], t => t = []
  | checked, ops :: rest, t =>
      ∃ t₁ t₂, t = t₁ ++ t₂ ∧ SessionTrace conf checked ops t₁ ∧ SessionsTrace conf true rest t₂

theorem session_trace {conf : GpsRpcConf} {s s' : GpsRpcState} {ops : List GpsRpcOp}
    {t : List (PdsmQuery × Word)} (h : (session conf s ops).Trace t s') :
    s'.checked = true ∧ SessionTrace conf s.checked ops t := by
  obtain ⟨before, rest, s₁, rfl, hinit, h⟩ := Calls.trace_bind.mp h
  obtain ⟨during, after, _, rfl, hops, hcleanup⟩ := Calls.trace_bind.mp h
  obtain ⟨ids, hids, hchecked, hbefore, hpda, hxtra, hni⟩ := initLeo_trace hinit
  obtain ⟨hkept, hafter⟩ := cleanupGpsRpcClients_trace hids hcleanup
  exact ⟨hkept.trans hchecked, ids, s₁, before, during, after, rfl, hbefore, hpda, hxtra, hni, hids,
    hops, hafter⟩

theorem sessions_trace {conf : GpsRpcConf} {ss : List (List GpsRpcOp)} {s s' : GpsRpcState}
    {t : List (PdsmQuery × Word)} (h : (sessions conf s ss).Trace t s') :
    SessionsTrace conf s.checked ss t := by
  induction ss generalizing s t with
  | nil => exact (Calls.trace_ret.mp h).1
  | cons ops ss ih =>
      obtain ⟨t₁, t₂, s₁, rfl, hfirst, hrest⟩ := Calls.trace_bind.mp h
      obtain ⟨hchecked, hsession⟩ := session_trace hfirst
      have hsessions := ih hrest
      rw [hchecked] at hsessions
      exact ⟨t₁, t₂, rfl, hsession, hsessions⟩

/-! ## The formats -/

/-- The wire formats of the procedures that the library calls. -/
def pdsmFormat : PdsmClient → Word → Option Codec
  | .pdsm, proc =>
      if proc ∈ [0x2, 0x3, 0x9, 0xA] then some (wordsCodec 1)
      else if proc ∈ [0x4, 0x5, 0x6, 0x7, 0x8] then some (wordsCodec 6)
      else if proc = 0xb then some (wordsCodec 29)
      else if proc = 0xc then some (wordsCodec 4)
      else if proc = 0x1A then some xtraDataFormat
      else if proc ∈ [0x1B, 0x1D] then some xtraValidityFormat
      else if proc = 0x1C then some xtraAutoFormat
      else if proc = 0x1E then some xtraTimeFormat
      else none
  | .atl, proc =>
      if proc = 0x3 then some (wordsCodec 3)
      else if proc = 0x6 then some (wordsCodec 2)
      else none

/-! ## The parts of the assistance data -/

theorem zero_ne_neg_one : ¬(0 : Int) = -1 := by decide

/-- The request for a part. -/
def xtraQuery (s : GpsRpcState) (data : List Byte) (c : XtraCall) : PdsmQuery :=
  (.pdsm, ⟨0x1A, .xtraData
    ⟨0, s.clientIDs 0xb, 0, 1, some (c.payload data), c.partLen, c.part, c.totalParts⟩⟩)

/-- Whatever the answers, only parts that the loop cuts go out. -/
theorem xtraParts_all {P : PdsmQuery → Prop} {s : GpsRpcState} {data : List Byte}
    {totalParts : Byte}
    {fuel : Nat} {part : Byte} {lenInjected : BitVec 16} {retVal : Int}
    (h : ∀ c ∈ (xtraLoop (fun _ => 0) data.length totalParts fuel part lenInjected retVal).2,
      P (xtraQuery s data c)) :
    (xtraParts s data totalParts fuel part lenInjected retVal).All P := by
  induction fuel generalizing part lenInjected with
  | zero => exact .ret _
  | succ fuel ih =>
      unfold xtraParts
      unfold xtraLoop at h
      split
      · rename_i hle
        simp only [if_pos hle] at h
        simp only [gpsXtraSetData, pdsmXtraSetData, Calls.bind_eq, Calls.ask_bind, Calls.pure_eq]
        by_cases hlt : part < totalParts
        · simp only [if_pos hlt, zero_ne_neg_one, if_false, List.mem_cons, forall_eq_or_imp] at h ⊢
          refine .call h.1 fun res => ?_
          by_cases hres : res.toInt = -1
          · rw [if_pos hres]
            exact .ret _
          · rw [if_neg hres]
            exact ih h.2
        · simp only [if_neg hlt, List.mem_singleton, forall_eq] at h ⊢
          exact .call h fun res => .ret _
      · exact .ret _

/-- While the parts are accepted, the loop sends the parts that it cuts. -/
theorem xtraParts_trace {s : GpsRpcState} {data : List Byte} {totalParts : Byte}
    {fuel : Nat} {part : Byte} {lenInjected : BitVec 16} {retVal ret : Int}
    {t : List (PdsmQuery × Word)}
    (h : (xtraParts s data totalParts fuel part lenInjected retVal).Trace t ret)
    (haccepted : ∀ e ∈ t, e.2.toInt ≠ -1) :
    t.map Prod.fst
      = (xtraLoop (fun _ => 0) data.length totalParts fuel part lenInjected retVal).2.map
          (xtraQuery s data) := by
  induction fuel generalizing part lenInjected t with
  | zero =>
      obtain ⟨rfl, -⟩ := Calls.trace_ret.mp h
      rfl
  | succ fuel ih =>
      unfold xtraParts at h
      unfold xtraLoop
      split at h
      · rename_i hle
        simp only [if_pos hle]
        obtain ⟨res, t, rfl, hrest⟩ := Calls.trace_call.mp h
        obtain ⟨hres, haccepted⟩ := List.forall_mem_cons.mp haccepted
        by_cases hlt : part < totalParts
        · simp only [Calls.ret_bind, if_pos hlt, if_neg hres] at hrest
          simp only [if_pos hlt, zero_ne_neg_one, if_false, List.map_cons, ih hrest haccepted]
          rfl
        · simp only [Calls.ret_bind, if_neg hlt] at hrest ⊢
          obtain ⟨rfl, -⟩ := Calls.trace_ret.mp hrest
          rfl
      · rename_i hle
        obtain ⟨rfl, -⟩ := Calls.trace_ret.mp h
        rw [if_neg hle]
        rfl

/-- A part inside the buffer, of at most a block. -/
def PartInside (length : Nat) (c : XtraCall) : Prop :=
  c.offset + c.partLen.toNat ≤ length ∧ c.partLen.toNat ≤ 400

theorem partLen_inside {length : Nat} {lenInjected : BitVec 16} (h : lenInjected.toNat ≤ length)
    (part totalParts : Byte) :
    PartInside length ⟨lenInjected.toNat,
      if (xtraBlockSize : Int) > (length : Int) - (lenInjected.toNat : Int)
        then BitVec.ofInt 32 ((length : Int) - (lenInjected.toNat : Int))
        else BitVec.ofNat 32 xtraBlockSize, part, totalParts⟩ := by
  unfold PartInside xtraBlockSize
  dsimp only
  split
  · have hleft : (length : Int) - (lenInjected.toNat : Int)
        = ((length - lenInjected.toNat : Nat) : Int) := by
      omega
    rw [hleft, BitVec.ofInt_natCast, BitVec.toNat_ofNat]
    omega
  · rw [BitVec.toNat_ofNat]
    omega

/-- A buffer longer than the 16-bit count reaches has room at any count. -/
theorem xtraLoop_inside {length : Nat} (hlong : 65536 ≤ length) {totalParts : Byte} {fuel : Nat}
    {part : Byte} {lenInjected : BitVec 16} {retVal : Int} :
    ∀ c ∈ (xtraLoop (fun _ => 0) length totalParts fuel part lenInjected retVal).2,
      PartInside length c := by
  induction fuel generalizing part lenInjected with
  | zero =>
      intro c hc
      cases hc
  | succ fuel ih =>
      have hin : lenInjected.toNat ≤ length := by
        have hlt := lenInjected.isLt
        omega
      unfold xtraLoop
      by_cases hle : part ≤ totalParts
      · simp only [if_pos hle]
        by_cases hlt : part < totalParts
        · simp only [if_pos hlt, zero_ne_neg_one, if_false, List.mem_cons, forall_eq_or_imp]
          exact ⟨partLen_inside hin part totalParts, ih⟩
        · simp only [if_neg hlt, List.mem_singleton, forall_eq]
          exact partLen_inside hin part totalParts
      · intro c hc
        rw [if_neg hle] at hc
        cases hc

/-- Every part that the loop cuts is inside the buffer. -/
theorem xtraCalls_inside (length : Nat) :
    ∀ c ∈ (HtcLeo.gpsXtraInjectXtraData true (fun _ => 0) length).2, PartInside length c := by
  by_cases hlong : 65536 ≤ length
  · exact xtraLoop_inside hlong
  · obtain ⟨k, hk⟩ : ∃ k, length / 400 = k := ⟨_, rfl⟩
    rcases Nat.eq_zero_or_pos k with hk0 | hk1
    · rw [xtraCalls_nil (xtraTotalParts_zero (by omega))]
      intro c hc
      cases hc
    · rw [xtraCalls_eq (fun _ => by decide) hk hk1 (by omega)]
      intro c hc
      obtain ⟨j, hj, rfl⟩ := List.mem_map.mp hc
      rw [List.mem_range'_1] at hj
      rw [PartInside, xtraCall_partLen_toNat hk, xtraCall]
      dsimp only
      split <;> omega

/-! ## Served -/

theorem length_payload {data : List Byte} {c : XtraCall} (hc : PartInside data.length c) :
    (c.payload data).length = c.partLen.toNat := by
  have hin := hc.1
  rw [XtraCall.payload, List.length_take, List.length_drop]
  exact Nat.min_eq_left (by omega)

theorem knows_words {m : Modem} (hm : m.format = pdsmFormat) {clnt : PdsmClient} {proc : Word}
    {par : List Word} (hlen : par.length ≤ 502)
    (h : pdsmFormat clnt proc = some (wordsCodec par.length)) :
    m.Knows (clnt, ⟨proc, .words par⟩) :=
  ⟨hlen, by rw [hm]; exact h⟩

theorem knows_xtraQuery {m : Modem} (hm : m.format = pdsmFormat) (s : GpsRpcState)
    {data : List Byte}
    {c : XtraCall} (hc : PartInside data.length c) : m.Knows (xtraQuery s data c) := by
  exact ⟨⟨c.payload data, rfl, length_payload hc, Nat.le_trans hc.2 (by decide)⟩, by rw [hm]; rfl⟩

theorem opProg_all {m : Modem} (hm : m.format = pdsmFormat) (conf : GpsRpcConf) (s : GpsRpcState)
    (op : GpsRpcOp) : (op.prog conf s).All m.Knows := by
  cases op with
  | getPosition => exact .call (knows_words hm (by simp) rfl) fun _ => .ret _
  | endSession => exact .call (knows_words hm (by simp) rfl) fun _ => .ret _
  | setAutoParams => exact .call ⟨trivial, by rw [hm]; rfl⟩ fun _ => .ret _
  | initDownReq => exact .call ⟨trivial, by rw [hm]; rfl⟩ fun _ => .ret _
  | injectTime time timeReference elapsed uncertainty =>
      exact .call ⟨trivial, by rw [hm]; rfl⟩ fun _ => .ret _
  | injectData data =>
      refine (xtraParts_all fun c hc => ?_).bind fun _ => .ret _
      exact knows_xtraQuery hm s (xtraCalls_inside data.length c hc)

theorem opsProg_all {m : Modem} (hm : m.format = pdsmFormat) (conf : GpsRpcConf) (s : GpsRpcState)
    (ops : List GpsRpcOp) : (opsProg conf s ops).All m.Knows := by
  induction ops with
  | nil => exact .ret _
  | cons op ops ih => exact (opProg_all hm conf s op).bind fun _ => ih

theorem initSettings_all {m : Modem} (hm : m.format = pdsmFormat) (conf : GpsRpcConf)
    (s : GpsRpcState) : (initSettings conf s).All m.Knows := by
  unfold initSettings
  split
  · exact .ret _
  · split
    · exact .call ⟨trivial, by rw [hm]; rfl⟩ fun _ => .ret _
    · exact .ret _

theorem initLeo_all {m : Modem} (hm : m.format = pdsmFormat) (conf : GpsRpcConf) (s : GpsRpcState) :
    (initLeo conf s).All m.Knows := by
  simp only [initLeo, pdsmClientInit, pdsmClientPdReg, pdsmClientPaReg, pdsmClientExtStatusReg,
    pdsmClientXtraReg, pdsmClientLcsReg, pdsmClientReg, pdsmClientAct, pdsmAtlL2ProxyReg,
    pdsmAtlDnsProxyReg, callWords, Calls.bind_eq, Calls.pure_eq, Calls.ask_bind, Calls.call_bind,
    Calls.ret_bind]
  iterate 13 refine .call (knows_words hm (by simp) rfl) fun _ => ?_
  exact initSettings_all hm conf _

theorem cleanupGpsRpcClients_all {m : Modem} (hm : m.format = pdsmFormat) (s : GpsRpcState) :
    (cleanupGpsRpcClients s).All m.Knows := by
  simp only [cleanupGpsRpcClients, pdsmClientDeact, pdsmClientRelease, callWords, Calls.bind_eq,
    Calls.pure_eq, Calls.ask_bind, Calls.call_bind, Calls.ret_bind]
  iterate 6 refine .call (knows_words hm (by simp) rfl) fun _ => ?_
  exact .ret _

theorem sessions_all {m : Modem} (hm : m.format = pdsmFormat) (conf : GpsRpcConf) (s : GpsRpcState)
    (ss : List (List GpsRpcOp)) : (sessions conf s ss).All m.Knows := by
  induction ss generalizing s with
  | nil => exact .ret _
  | cons ops ss ih =>
      refine Calls.All.bind ?_ fun s => ih s
      refine (initLeo_all hm conf s).bind fun s => ?_
      exact (opsProg_all hm conf s ops).bind fun _ => cleanupGpsRpcClients_all hm s

/-- **Sessions keep to their IDs.** Over the wire, and for any answers of the
modem, every sequence of sessions ends; what arrives at the modem is, session
after session, the requests of `init_leo`, of the operations and of the cleanup,
in this order and as they were made, each with the ID that the modem gave to its
client in the same session. -/
theorem sessions_served (m : Modem) (conf : GpsRpcConf) (s : GpsRpcState)
    (ss : List (List GpsRpcOp))
    (w : PdsmWire) (hm : m.format = pdsmFormat) (hpid : m.getpid ≠ 0) (hw : w.Matches) :
    ∃ t s' w' ps, (sessions conf s ss).run (PdsmWire.ask m) w = some (s', w')
      ∧ SessionsTrace conf s.checked ss t
      ∧ w'.arrived = w.arrived ++ ps ∧ m.Answers w.arrived t ps := by
  obtain ⟨t, s', w', ps, hrun, htrace, -, harrived, hanswers⟩ :=
    program_served hpid (sessions_all hm conf s ss) hw
  exact ⟨t, s', w', ps, hrun, sessions_trace htrace, harrived, hanswers⟩

/-- A modem that answers with the number of the request. -/
def countingModem : Modem where
  getpid := 1
  format := pdsmFormat
  answer before _ _ := BitVec.ofNat 32 (before.length % 1000 + 1)

/-- Fresh handles on both sides. -/
def freshWire : PdsmWire where
  link c := ⟨{ xdrInitCommon 3 true with xProg := c.prog, xVers := pdsmVers },
    svcRegister 4 c.prog pdsmVers 0⟩
  arrived := []

theorem freshWire_matches : freshWire.Matches := fun _ => ⟨rfl, rfl, rfl, rfl⟩

def defaultConf : GpsRpcConf := ⟨0, 24, 2⟩

def bootState : GpsRpcState := ⟨fun _ => 0, false⟩

/-- Two sessions, the first with a request for the position. -/
theorem two_sessions_served :
    freshWire.Matches ∧ ∃ t s' w' ps,
      (sessions defaultConf bootState [[.getPosition, .endSession], []]).run
        (PdsmWire.ask countingModem) freshWire = some (s', w')
      ∧ SessionsTrace defaultConf false [[.getPosition, .endSession], []] t
      ∧ w'.arrived = [] ++ ps ∧ countingModem.Answers [] t ps :=
  ⟨freshWire_matches, sessions_served countingModem defaultConf bootState
    [[.getPosition, .endSession], []] freshWire rfl (by decide) freshWire_matches⟩

/-! ## The assistance data arrives -/

/-- What a part says to whoever puts the data together. -/
structure XtraPart where
  part : Byte
  totalParts : Byte
  bytes : List Byte

/-- The parts are numbered through, each knows their number and has 1 to 400
bytes, and together they are the data. -/
structure Reassembled (data : List Byte) (parts : List XtraPart) : Prop where
  numbers : parts.map (fun p => p.part.toNat) = List.range' 1 ((data.length + 399) / 400)
  total : ∀ p ∈ parts, p.totalParts.toNat = (data.length + 399) / 400
  size : ∀ p ∈ parts, 1 ≤ p.bytes.length ∧ p.bytes.length ≤ 400
  whole : (parts.map (·.bytes)).flatten = data

def sentPart (data : List Byte) (c : XtraCall) : XtraPart := ⟨c.part, c.totalParts, c.payload data⟩

def receivedPart (p : XtraDataParams) : XtraPart := ⟨p.part, p.totalParts, p.xtraDataPtr.getD []⟩

theorem reassembled_of_lengthOk {data : List Byte} (h : XtraLengthOk data.length) :
    Reassembled data ((HtcLeo.gpsXtraInjectXtraData true (fun _ => 0) data.length).2.map
      (sentPart data)) := by
  obtain ⟨k, hk⟩ : ∃ k, data.length / 400 = k := ⟨_, rfl⟩
  have hcalls : (HtcLeo.gpsXtraInjectXtraData true (fun _ => 0) data.length).2
      = (List.range' 0 (k + 1)).map (xtraCall data.length k) :=
    xtraCalls_eq (fun _ => by decide) hk (by have := h.1; omega) (by have := h.2.1; omega)
  have hinside := xtraCalls_inside data.length
  rw [hcalls] at hinside ⊢
  obtain ⟨hnumbers, htotal, hsize, -, hwhole⟩ := faithful_of_lengthOk hk h
  refine ⟨by rw [List.map_map]; exact hnumbers, List.forall_mem_map.mpr htotal,
    List.forall_mem_map.mpr fun c hc => ?_, by rw [List.map_map]; exact hwhole⟩
  have hc' := hsize c hc
  rw [← length_payload (hinside c hc)] at hc'
  exact hc'

/-- The request with the arguments of a part. -/
def xtraArrival (p : XtraDataParams) : SvcReq × XdrValue :=
  (⟨PdsmClient.pdsm.prog, pdsmVers, 0x1A⟩, ⟨xtraDataFormat, p.wire⟩)

/-- A decoded part, for the client and with the fixed words. -/
structure ArrivedPart (s : GpsRpcState) (data : List Byte) (c : XtraCall) (p : XtraDataParams) :
    Prop where
  words : (p.data0, p.data1, p.data2, p.data3) = (0, s.clientIDs 0xb, 0, 1)
  partLen : p.partLen = c.partLen
  part : receivedPart p = sentPart data c

theorem sameValue_left {c : Codec} {x : c.Obj} {v : XdrValue} (h : SameValue v ⟨c, x⟩) :
    ∃ w, v = ⟨c, w⟩ ∧ c.Same w x := by
  generalize hu : (⟨c, x⟩ : XdrValue) = u at h
  cases h with
  | mk c' hsame =>
      cases hu
      exact ⟨_, rfl, hsame⟩

theorem part_of_sameValue {s : GpsRpcState} {data : List Byte} {c : XtraCall} {v : XdrValue}
    (h : SameValue v (xtraQuery s data c).2.args.value) :
    ∃ p, v = ⟨xtraDataFormat, p.wire⟩ ∧ ArrivedPart s data c p := by
  obtain ⟨⟨data0, data1, data2, len, ⟨ptr, size⟩, part, totalParts, data3⟩, rfl, hsame⟩ :=
    sameValue_left h
  obtain ⟨h0, h1, h2, hlen, ⟨hsize, hitems⟩, hpart, htotal, h3⟩ := hsame
  have hlen : len = c.partLen := hlen
  have hsize : size = c.partLen := hsize
  subst hlen
  subst hsize
  refine ⟨⟨data0, data1, data2, data3, ptr, c.partLen, part, totalParts⟩, rfl, ?_, rfl, ?_⟩
  · exact Prod.ext h0 (Prod.ext h1 (Prod.ext h2 h3))
  · exact (XtraPart.mk.injEq ..).mpr ⟨hpart, htotal, hitems⟩

theorem parts_of_answers {m : Modem} {s : GpsRpcState} {data : List Byte} {calls : List XtraCall}
    {before ps : List (SvcReq × XdrValue)} {t : List (PdsmQuery × Word)}
    (ht : t.map Prod.fst = calls.map (xtraQuery s data)) (h : m.Answers before t ps) :
    ∃ parts, ps = parts.map xtraArrival ∧ List.Forall₂ (ArrivedPart s data) calls parts := by
  induction t generalizing calls before ps with
  | nil =>
      obtain rfl := List.map_eq_nil_iff.mp ht.symm
      exact ⟨[], h, .nil⟩
  | cons e t ih =>
      obtain ⟨c, calls, rfl, hc, hcalls⟩ := List.map_eq_cons_iff.mp ht.symm
      obtain ⟨v, ps, rfl, hsame, -, h⟩ := h
      rw [← hc] at hsame
      obtain ⟨p, rfl, hp⟩ := part_of_sameValue hsame
      obtain ⟨parts, rfl, hparts⟩ := ih hcalls.symm h
      refine ⟨p :: parts, ?_, .cons hp hparts⟩
      rw [List.map_cons, ← hc]
      rfl

theorem arrivedParts {s : GpsRpcState} {data : List Byte} {calls : List XtraCall}
    {parts : List XtraDataParams} (h : List.Forall₂ (ArrivedPart s data) calls parts)
    (hinside : ∀ c ∈ calls, PartInside data.length c) :
    ∀ p ∈ parts, (p.data0, p.data1, p.data2, p.data3) = (0, s.clientIDs 0xb, 0, 1)
      ∧ (p.xtraDataPtr.getD []).length = p.partLen.toNat := by
  induction h with
  | nil =>
      intro p hp
      cases hp
  | @cons c p calls parts hc _ ih =>
      obtain ⟨hin, hinside⟩ := List.forall_mem_cons.mp hinside
      refine List.forall_mem_cons.mpr ⟨⟨hc.words, ?_⟩, ih hinside⟩
      rw [hc.partLen, ← length_payload hin]
      exact congrArg (fun p => p.bytes.length) hc.part

theorem accepted_of_answers {m : Modem}
    (haccept : ∀ before req v, (m.answer before req v).toInt ≠ -1)
    {before ps : List (SvcReq × XdrValue)} {t : List (PdsmQuery × Word)}
    (h : m.Answers before t ps) :
    ∀ e ∈ t, e.2.toInt ≠ -1 := by
  induction t generalizing before ps with
  | nil =>
      intro e he
      cases he
  | cons e t ih =>
      obtain ⟨v, ps, rfl, -, hanswer, h⟩ := h
      refine List.forall_mem_cons.mpr ⟨?_, ih h⟩
      rw [hanswer]
      exact haccept _ _ _

/-- **The assistance data arrives.** Over the wire, with a modem that accepts
every part, the injection of any data ends, and what arrives are the parts that
the loop cuts, for the XTRA client of the session. Data of a length that the
loop handles can be put together from them. -/
theorem xtra_data_served (m : Modem) (s : GpsRpcState) (data : List Byte) (w : PdsmWire)
    (hm : m.format = pdsmFormat) (hpid : m.getpid ≠ 0) (hw : w.Matches)
    (haccept : ∀ before req v, (m.answer before req v).toInt ≠ -1) :
    ∃ (ret : Int) (w' : PdsmWire) (parts : List XtraDataParams),
      (gpsXtraInjectXtraData s data).run (PdsmWire.ask m) w = some (ret, w')
      ∧ w'.arrived = w.arrived ++ parts.map xtraArrival
      ∧ (∀ p ∈ parts, (p.data0, p.data1, p.data2, p.data3) = (0, s.clientIDs 0xb, 0, 1)
        ∧ (p.xtraDataPtr.getD []).length = p.partLen.toNat)
      ∧ parts.map receivedPart
        = (HtcLeo.gpsXtraInjectXtraData true (fun _ => 0) data.length).2.map (sentPart data)
      ∧ (XtraLengthOk data.length → Reassembled data (parts.map receivedPart)) := by
  have hinside := xtraCalls_inside data.length
  obtain ⟨t, ret, w', ps, hrun, htrace, -, harrived, hanswers⟩ :=
    program_served hpid (xtraParts_all fun c hc => knows_xtraQuery hm s (hinside c hc)) hw
  have hcalls := xtraParts_trace htrace (accepted_of_answers haccept hanswers)
  obtain ⟨parts, rfl, hparts⟩ := parts_of_answers hcalls hanswers
  have hreceived : parts.map receivedPart
      = (HtcLeo.gpsXtraInjectXtraData true (fun _ => 0) data.length).2.map (sentPart data) := by
    rw [← List.forall₂_eq_eq_eq, List.forall₂_map_left_iff, List.forall₂_map_right_iff]
    exact .flip (hparts.imp fun _ _ hp => hp.part)
  refine ⟨ret, w', parts, hrun, harrived, arrivedParts hparts hinside, hreceived, fun hok => ?_⟩
  rw [hreceived]
  exact reassembled_of_lengthOk hok

/-- 801 bytes arrive in three parts. -/
theorem xtra_data_served_801 :
    freshWire.Matches ∧ XtraLengthOk (List.replicate 801 (0x5a : Byte)).length
      ∧ ∃ (ret : Int) (w' : PdsmWire) (parts : List XtraDataParams),
        (gpsXtraInjectXtraData bootState (List.replicate 801 0x5a)).run
          (PdsmWire.ask countingModem) freshWire = some (ret, w')
        ∧ w'.arrived = parts.map xtraArrival
        ∧ Reassembled (List.replicate 801 0x5a) (parts.map receivedPart) := by
  have hok : XtraLengthOk (List.replicate 801 (0x5a : Byte)).length := by
    rw [List.length_replicate]
    exact ⟨by decide, by decide, by decide⟩
  have haccept (before : List (SvcReq × XdrValue)) (req : SvcReq) (v : XdrValue) :
      (countingModem.answer before req v).toInt ≠ -1 := by
    have hlt := Nat.mod_lt before.length (show 0 < 1000 by decide)
    simp only [countingModem]
    rw [BitVec.toInt_eq_toNat_of_lt (by rw [BitVec.toNat_ofNat]; omega), BitVec.toNat_ofNat]
    omega
  obtain ⟨ret, w', parts, hrun, harrived, -, -, hdata⟩ := xtra_data_served countingModem bootState
    (List.replicate 801 0x5a) freshWire rfl (by decide) freshWire_matches haccept
  exact ⟨freshWire_matches, hok, ret, w', parts, hrun, harrived, hdata hok⟩

end PdsmSession

end HtcLeo
