import HtcLeo.RpcExchange
import HtcLeo.RpcReply

/-!
# Calls that are cut short (`svc_dispatch` in `librpc/svc.c`)

`xdr_std_read` accepts every message of two words or more, and
`svc_dispatch` reads program, version and procedure at fixed offsets of
the buffer without a look at `in_len`. The buffer is never cleared, so
what a short message does not fill is left from the messages before it.

`servedRequest` is what reaches the service function for one message
after a history of others. It depends on the message alone exactly if the
message has the three words, is no call, or contradicts the numbers of
the server in the bytes it has (`request_own_words_iff`). The service
function goes on to read the credentials behind them: the whole header in
the buffer (`servedHeader`) is the message's own only if the message has
all its ten words (`request_own_bytes_iff`).
-/

namespace HtcLeo

/-- `xdr_std_read` takes the message, and takes all of it. -/
def Accepted (packet : List Byte) : Prop := 8 ≤ packet.length ∧ packet.length ≤ 2048

/-- The messages a server has read, each with the calls its service function made. -/
abbrev SvcHistory := List (List Byte × List ServiceCall)

def SvcHistory.Accepted (history : SvcHistory) : Prop := ∀ round ∈ history, HtcLeo.Accepted round.1

/-- The entry of a true server after the messages. -/
def serverAfter (getpid fd : Int) (prog vers : Word) (active : Int) (history : SvcHistory) :
    RegisteredServer :=
  history.foldl (svcRound getpid) (svcRegister fd prog vers active)

/-- The request with which the next message reaches the service function, if it does. -/
def servedRequest (getpid fd : Int) (prog vers : Word) (active : Int) (history : SvcHistory)
    (packet : List Byte) : Option SvcReq :=
  (svcContext getpid (fun req serv => (serv, req)) (serverAfter getpid fd prog vers active history)
    (some packet)).bind fun r => r.2

/-- The ten words of the header, as the service function then finds them in the buffer. -/
def servedHeader (getpid fd : Int) (prog vers : Word) (active : Int) (history : SvcHistory)
    (packet : List Byte) : Option (List Byte) :=
  (svcContext getpid (fun _ serv => (serv, serv.xdr.inMsg.slice 0 40))
    (serverAfter getpid fd prog vers active history) (some packet)).bind fun r => r.2

/-! ## What is read -/

/-- The checks of `svc_dispatch` on the words of the buffer. -/
def requestIn (prog vers : Word) (m : Mem) : Option SvcReq :=
  if m.getWord 4 = RpcMsgType.call.code ∧ m.getWord 12 = prog ∧ m.getWord 16 = vers then
    some ⟨m.getWord 12, m.getWord 16, m.getWord 20⟩
  else none

theorem serviceCall_xProg (serv : RegisteredServer) (call : ServiceCall) :
    (serviceCall serv call).xProg = serv.xProg := by
  cases call with
  | getargs c args =>
      simp only [serviceCall, svcGetargs]
      split <;> rfl
  | freeargs c args =>
      simp only [serviceCall, svcFreeargs]
      split <;> rfl
  | answer a =>
      cases a with
      | sendreply c results =>
          simp only [serviceCall, Answer.send, svcSendreply]
          split_ifs <;> rfl
      | decode =>
          simp only [serviceCall, Answer.send, svcerrDecode, svcerr]
          split <;> rfl
      | systemerr =>
          simp only [serviceCall, Answer.send, svcerrSystemerr, svcerr]
          split <;> rfl
      | noproc =>
          simp only [serviceCall, Answer.send, svcerrNoproc, svcerr]
          split <;> rfl

theorem serviceCalls_xProg (calls : List ServiceCall) (serv : RegisteredServer) :
    (calls.foldl serviceCall serv).xProg = serv.xProg := by
  induction calls generalizing serv with
  | nil => rfl
  | cons call calls ih => rw [List.foldl_cons, ih, serviceCall_xProg]

theorem svcDispatchBegin_xProg {getpid : Int} {svc serv : RegisteredServer} {req : SvcReq}
    (h : svcDispatchBegin getpid svc = some (req, serv)) : serv.xProg = svc.xProg := by
  simp only [svcDispatchBegin] at h
  split_ifs at h
  obtain ⟨-, rfl⟩ := Prod.mk.inj (Option.some.inj h)
  rfl

theorem svcDispatch_request (getpid : Int) (svc : RegisteredServer) :
    (svcDispatch getpid (fun req serv => (serv, req)) svc).2
      = requestIn svc.xProg svc.xdr.xVers svc.xdr.inMsg := by
  simp only [svcDispatch, svcDispatchBegin, requestIn]
  split_ifs <;> simp_all

theorem svcDispatch_header (getpid : Int) (svc : RegisteredServer) :
    (svcDispatch getpid (fun _ serv => (serv, serv.xdr.inMsg.slice 0 40)) svc).2
      = (requestIn svc.xProg svc.xdr.xVers svc.xdr.inMsg).map fun _ =>
          svc.xdr.inMsg.slice 0 40 := by
  simp only [svcDispatch, svcDispatchBegin, requestIn]
  split_ifs <;> simp_all

/-- What the service function leaves behind: the message in the buffer, the
numbers of the server as they were. -/
theorem svcRound_entry (getpid : Int) (svc : RegisteredServer)
    {round : List Byte × List ServiceCall} (h : Accepted round.1) :
    (svcRound getpid svc round).xProg = svc.xProg
      ∧ (svcRound getpid svc round).xdr.xVers = svc.xdr.xVers
      ∧ (svcRound getpid svc round).xdr.inMsg = svc.xdr.inMsg.write 0 round.1 := by
  simp only [svcRound, svcContext, xdrStdRead_eq svc.xdr h.1 h.2, if_true, svcDispatch]
  split
  · exact ⟨rfl, rfl, rfl⟩
  · rename_i req serv hbegin
    obtain ⟨_, _, _, _, hxdr⟩ :=
      (svcDispatchBegin_coded hbegin).trans (serviceCalls_coded round.2 serv)
    have hprog := svcDispatchBegin_xProg hbegin
    refine ⟨(serviceCalls_xProg round.2 serv).trans hprog, ?_, ?_⟩
    · simp only [hxdr]
    · simp only [hxdr]

theorem serverAfter_numbers (getpid fd : Int) (prog vers : Word) (active : Int)
    {history : SvcHistory} (h : history.Accepted) :
    (serverAfter getpid fd prog vers active history).xProg = prog
      ∧ (serverAfter getpid fd prog vers active history).xdr.xVers = vers := by
  have hkeeps : ∀ svc : RegisteredServer, (history.foldl (svcRound getpid) svc).xProg = svc.xProg
      ∧ (history.foldl (svcRound getpid) svc).xdr.xVers = svc.xdr.xVers := by
    induction history with
    | nil => exact fun _ => ⟨rfl, rfl⟩
    | cons round history ih =>
        intro svc
        obtain ⟨hround, hrest⟩ := List.forall_mem_cons.mp h
        obtain ⟨hprog, hvers, -⟩ := svcRound_entry getpid svc hround
        obtain ⟨hprog', hvers'⟩ := ih hrest (svcRound getpid svc round)
        exact ⟨hprog'.trans hprog, hvers'.trans hvers⟩
  exact hkeeps (svcRegister fd prog vers active)

/-- The request is read from the message and from what lies behind it in the buffer. -/
theorem servedRequest_eq (getpid fd : Int) (prog vers : Word) (active : Int)
    {history : SvcHistory} {packet : List Byte} (h : history.Accepted) (hp : Accepted packet) :
    servedRequest getpid fd prog vers active history packet
      = requestIn prog vers
        ((serverAfter getpid fd prog vers active history).xdr.inMsg.write 0 packet) := by
  obtain ⟨hprog, hvers⟩ := serverAfter_numbers getpid fd prog vers active h
  rw [servedRequest, svcContext, xdrStdRead_eq _ hp.1 hp.2, if_pos rfl, Option.bind_some,
    svcDispatch_request, hprog, hvers]

/-- The header is what the buffer then holds, if there is a request. -/
theorem servedHeader_eq (getpid fd : Int) (prog vers : Word) (active : Int)
    {history : SvcHistory} {packet : List Byte} (h : history.Accepted) (hp : Accepted packet) :
    servedHeader getpid fd prog vers active history packet
      = (servedRequest getpid fd prog vers active history packet).map fun _ =>
          ((serverAfter getpid fd prog vers active history).xdr.inMsg.write 0 packet).slice 0 40 := by
  obtain ⟨hprog, hvers⟩ := serverAfter_numbers getpid fd prog vers active h
  rw [servedRequest_eq getpid fd prog vers active h hp, servedHeader, svcContext,
    xdrStdRead_eq _ hp.1 hp.2, if_pos rfl, Option.bind_some, svcDispatch_header, hprog, hvers]

/-! ## Whose bytes they are -/

/-- The bytes of the registered program and version, as they stand in a call. -/
def numberBytes (prog vers : Word) : List Byte := Mem.wordBytes prog ++ Mem.wordBytes vers

/-- The bytes the message has of these two words are those of the server. -/
def MatchesSoFar (prog vers : Word) (packet : List Byte) : Prop :=
  (packet.drop 12).take 8 <+: numberBytes prog vers

/-- The message has the words that are read, is no call, or contradicts the
numbers of the server in the bytes it has. -/
def DecidesItself (prog vers : Word) (packet : List Byte) : Prop :=
  24 ≤ packet.length ∨ wordAt packet 1 ≠ RpcMsgType.call.code ∨ ¬ MatchesSoFar prog vers packet

/-- The same with the whole header. -/
def CompleteOrRejected (prog vers : Word) (packet : List Byte) : Prop :=
  40 ≤ packet.length ∨ wordAt packet 1 ≠ RpcMsgType.call.code ∨ ¬ MatchesSoFar prog vers packet

/-- The request is that of the message, after every history; a message without
the words that are read makes none. -/
structure OwnRequest (getpid fd : Int) (prog vers : Word) (active : Int)
    (packet : List Byte) : Prop where
  same : ∀ h h' : SvcHistory, h.Accepted → h'.Accepted →
    servedRequest getpid fd prog vers active h packet
      = servedRequest getpid fd prog vers active h' packet
  own : ∀ h : SvcHistory, h.Accepted → ∀ req,
    servedRequest getpid fd prog vers active h packet = some req →
      24 ≤ packet.length ∧ req = ⟨wordAt packet 3, wordAt packet 4, wordAt packet 5⟩

/-- Moreover a message without a whole header makes none: the service function finds
none of the header words of an earlier message. -/
structure OwnBytesOnly (getpid fd : Int) (prog vers : Word) (active : Int)
    (packet : List Byte) : Prop extends OwnRequest getpid fd prog vers active packet where
  header : ∀ h : SvcHistory, h.Accepted → ∀ bytes,
    servedHeader getpid fd prog vers active h packet = some bytes →
      40 ≤ packet.length ∧ bytes = packet.take 40

/-- The words of a complete header are read as they are. -/
theorem requestIn_complete {packet : List Byte} (hlen : 24 ≤ packet.length) (prog vers : Word)
    (m : Mem) :
    requestIn prog vers (m.write 0 packet)
      = if wordAt packet 1 = RpcMsgType.call.code ∧ wordAt packet 3 = prog
          ∧ wordAt packet 4 = vers then
          some ⟨wordAt packet 3, wordAt packet 4, wordAt packet 5⟩
        else none := by
  have hword (k : Nat) (hk : 4 * k + 4 ≤ packet.length) :
      (m.write 0 packet).getWord ((4 * k : Nat) : Int) = wordAt packet k := by
    rw [Nat.cast_mul]
    exact getWord_write_own hk
  have h1 := hword 1 (by omega)
  have h3 := hword 3 (by omega)
  have h4 := hword 4 (by omega)
  have h5 := hword 5 (by omega)
  simp only [Nat.reduceMul, Nat.cast_ofNat] at h1 h3 h4 h5
  rw [requestIn, h1, h3, h4, h5]

theorem requestIn_not_call {packet : List Byte} (hlen : 8 ≤ packet.length)
    (hcall : wordAt packet 1 ≠ RpcMsgType.call.code) (prog vers : Word) (m : Mem) :
    requestIn prog vers (m.write 0 packet) = none := by
  have h1 : (m.write 0 packet).getWord ((4 : Nat) * (1 : Nat)) = wordAt packet 1 :=
    getWord_write_own (by omega)
  exact if_neg fun hwords => hcall (h1.symm.trans hwords.1)

theorem slice_numberBytes {m : Mem} {prog vers : Word} (hprog : m.getWord 12 = prog)
    (hvers : m.getWord 16 = vers) : m.slice 12 8 = numberBytes prog vers := by
  rw [show 8 = 4 + 4 from rfl, Mem.slice_add, Mem.slice_getWord, Mem.slice_getWord, hprog]
  exact congrArg (Mem.wordBytes prog ++ Mem.wordBytes ·) hvers

/-- A request has the numbers of the server, and the message agrees with them as
far as it goes. -/
theorem requestIn_matches {packet : List Byte} {prog vers : Word} {m : Mem} {req : SvcReq}
    (h : requestIn prog vers (m.write 0 packet) = some req) : MatchesSoFar prog vers packet := by
  have hwords : (m.write 0 packet).getWord 12 = prog ∧ (m.write 0 packet).getWord 16 = vers := by
    rw [requestIn] at h
    split_ifs at h with hwords
    exact hwords.2
  rw [MatchesSoFar, ← slice_numberBytes hwords.1 hwords.2]
  have hpacket := (Mem.slice_write m 0 packet).symm
  by_cases hlen : packet.length ≤ 12
  · rw [List.drop_eq_nil_of_le hlen, List.take_nil]
    exact List.nil_prefix
  · have hdrop : packet.drop 12 = (m.write 0 packet).slice 12 (packet.length - 12) := by
      nth_rewrite 1 [hpacket]
      exact Mem.drop_slice (by omega)
    rw [hdrop]
    rcases Nat.le_total (packet.length - 12) 8 with hle | hle
    · rw [List.take_of_length_le (by simpa using hle), ← Mem.take_slice hle]
      exact List.take_prefix ..
    · exact (Mem.take_slice hle) ▸ List.prefix_rfl

/-! ## Served from old bytes -/

/-- The last byte of a word. -/
theorem getWord_lastByte (m : Mem) (i : Int) : m (i + 3) = (m.getWord i).extractLsb' 0 8 := by
  have hslice := m.slice_getWord i
  simp only [Mem.slice, Mem.wordBytes, List.cons.injEq, and_true, Int.add_assoc] at hslice
  exact hslice.2.2.2

/-- A complete call, as an earlier message. -/
def earlierCall (prog vers proc : Word) : SvcHistory := [(callHeader 0 prog vers proc, [])]

theorem earlierCall_accepted (prog vers proc : Word) : (earlierCall prog vers proc).Accepted := by
  intro round hround
  rw [List.mem_singleton.mp hround]
  exact ⟨by simp, by simp⟩

/-- The words it leaves in the buffer. -/
theorem earlierCall_inMsg (getpid fd : Int) (prog vers : Word) (active : Int) (proc : Word) :
    ∃ m, (serverAfter getpid fd prog vers active (earlierCall prog vers proc)).xdr.inMsg = m
      ∧ m.getWord 12 = prog ∧ m.getWord 16 = vers ∧ m.getWord 20 = proc := by
  obtain ⟨-, -, hmsg⟩ := svcRound_entry getpid (svcRegister fd prog vers active)
    (earlierCall_accepted prog vers proc _ (List.mem_singleton.mpr rfl))
  obtain ⟨-, -, hprog, hvers, hproc⟩ := getWord_callHeader
    (svcRegister fd prog vers active).xdr.inMsg 0 prog vers proc []
  rw [List.append_nil] at hprog hvers hproc
  exact ⟨_, hmsg, hprog, hvers, hproc⟩

/-- A call that agrees with the server as far as it goes is served, with what it lacks
of the header from the earlier message. -/
theorem requestIn_stale {packet : List Byte} (hlo : 8 ≤ packet.length)
    (hcall : wordAt packet 1 = RpcMsgType.call.code) {prog vers : Word}
    (hmatch : MatchesSoFar prog vers packet) {m : Mem} (hprog : m.getWord 12 = prog)
    (hvers : m.getWord 16 = vers) :
    ∃ proc, requestIn prog vers (m.write 0 packet) = some ⟨prog, vers, proc⟩
      ∧ (packet.length < 24 → proc.extractLsb' 0 8 = (m.getWord 20).extractLsb' 0 8) := by
  have hnumbers := slice_numberBytes hprog hvers
  have hagree : ∀ k : Nat, k < 8 → m.write 0 packet (12 + k) = m (12 + k) := by
    intro k hk
    have hold := Mem.getElem?_slice (m := m) (i := 12) hk
    by_cases hown : 12 + k < packet.length
    · have hsame := List.prefix_iff_getElem?.mp hmatch k (by simp; omega)
      rw [List.getElem_take, List.getElem_drop] at hsame
      rw [hnumbers, hsame] at hold
      have hwrite := Mem.write_getElem? (m := m) (i := 0) (List.getElem?_eq_getElem hown)
      rw [Int.zero_add, Nat.cast_add] at hwrite
      exact hwrite.trans (Option.some.inj hold)
    · exact Mem.write_of_ge (by omega)
  have hword : ∀ i : Nat, i + 4 ≤ 8 →
      (m.write 0 packet).getWord (12 + i) = m.getWord (12 + i) := by
    intro i hi
    refine Mem.getWord_congr fun j hlo' hhi => ?_
    obtain ⟨k, rfl⟩ : ∃ k : Nat, j = 12 + k := ⟨(j - 12).toNat, by omega⟩
    exact hagree k (by omega)
  have h4 : (m.write 0 packet).getWord ((4 : Nat) * (1 : Nat)) = wordAt packet 1 :=
    getWord_write_own (by omega)
  have h12 : (m.write 0 packet).getWord 12 = prog := (hword 0 (by omega)).trans hprog
  have h16 : (m.write 0 packet).getWord 16 = vers := (hword 4 (by omega)).trans hvers
  refine ⟨(m.write 0 packet).getWord 20, ?_, ?_⟩
  · rw [requestIn, if_pos ⟨h4.trans hcall, h12, h16⟩, h12, h16]
  · intro hshort
    rw [← getWord_lastByte, ← getWord_lastByte]
    exact Mem.write_of_ge (by omega)

/-- Behind a complete call for the server it is served. -/
theorem served_after_call (getpid fd : Int) (prog vers : Word) (active : Int) {packet : List Byte}
    (hp : Accepted packet) (hcall : wordAt packet 1 = RpcMsgType.call.code)
    (hmatch : MatchesSoFar prog vers packet) (proc : Word) :
    ∃ p, servedRequest getpid fd prog vers active (earlierCall prog vers proc) packet
        = some ⟨prog, vers, p⟩
      ∧ (packet.length < 24 → p.extractLsb' 0 8 = proc.extractLsb' 0 8) := by
  obtain ⟨m, hm, hprog, hvers, hproc⟩ := earlierCall_inMsg getpid fd prog vers active proc
  rw [servedRequest_eq getpid fd prog vers active (earlierCall_accepted prog vers proc) hp, hm,
    ← hproc]
  exact requestIn_stale hp.1 hcall hmatch hprog hvers

/-- The request depends on the message's own bytes alone, whatever messages came
before, exactly if the message has the 24 bytes up to the procedure, or is no call, or
contradicts the program or version in the bytes it has. -/
theorem request_own_words_iff (getpid fd : Int) (prog vers : Word) (active : Int)
    (packet : List Byte) (hp : Accepted packet) :
    OwnRequest getpid fd prog vers active packet ↔ DecidesItself prog vers packet := by
  constructor
  · intro h
    by_contra hnot
    obtain ⟨hshort, hcall, hmatch⟩ : packet.length < 24
        ∧ wordAt packet 1 = RpcMsgType.call.code ∧ MatchesSoFar prog vers packet := by
      simpa only [DecidesItself, not_or, not_not, not_le] using hnot
    obtain ⟨p, hreq, hlast⟩ := served_after_call getpid fd prog vers active hp hcall hmatch 0
    obtain ⟨q, hreq', hlast'⟩ := served_after_call getpid fd prog vers active hp hcall hmatch 1
    have hsame := h.same _ _ (earlierCall_accepted prog vers 0) (earlierCall_accepted prog vers 1)
    rw [hreq, hreq'] at hsame
    obtain rfl : p = q := (SvcReq.mk.inj (Option.some.inj hsame)).2.2
    exact absurd ((hlast hshort).symm.trans (hlast' hshort)) (by decide)
  · intro h
    refine ⟨fun h₁ h₂ ha₁ ha₂ => ?_, fun h₁ ha₁ req hreq => ?_⟩
    · rw [servedRequest_eq getpid fd prog vers active ha₁ hp,
        servedRequest_eq getpid fd prog vers active ha₂ hp]
      rcases h with hlen | hcall | hmatch
      · rw [requestIn_complete hlen, requestIn_complete hlen]
      · rw [requestIn_not_call hp.1 hcall, requestIn_not_call hp.1 hcall]
      · have hnone (m : Mem) : requestIn prog vers (m.write 0 packet) = none :=
          Option.eq_none_iff_forall_ne_some.mpr fun req hreq => hmatch (requestIn_matches hreq)
        rw [hnone, hnone]
    · rw [servedRequest_eq getpid fd prog vers active ha₁ hp] at hreq
      rcases h with hlen | hcall | hmatch
      · rw [requestIn_complete hlen] at hreq
        split_ifs at hreq
        exact ⟨hlen, (Option.some.inj hreq).symm⟩
      · rw [requestIn_not_call hp.1 hcall] at hreq
        cases hreq
      · exact absurd (requestIn_matches hreq) hmatch

/-- **Whose bytes a call consists of.** For a true server with any numbers and every
message: whether the service function runs for it, and with which program, version and
procedure, depends on its own bytes alone, whatever messages came before, and the
service function never runs with header words that the message does not have, if and
only if the message has the 40 bytes of the header, or is no call, or contradicts the
program or version in the bytes it has. -/
theorem request_own_bytes_iff (getpid fd : Int) (prog vers : Word) (active : Int)
    (packet : List Byte) (hp : Accepted packet) :
    OwnBytesOnly getpid fd prog vers active packet ↔ CompleteOrRejected prog vers packet := by
  constructor
  · intro h
    by_contra hnot
    obtain ⟨hshort, hcall, hmatch⟩ : packet.length < 40
        ∧ wordAt packet 1 = RpcMsgType.call.code ∧ MatchesSoFar prog vers packet := by
      simpa only [CompleteOrRejected, not_or, not_not, not_le] using hnot
    obtain ⟨p, hreq, -⟩ := served_after_call getpid fd prog vers active hp hcall hmatch 0
    have hheader := servedHeader_eq getpid fd prog vers active (earlierCall_accepted prog vers 0) hp
    rw [hreq, Option.map_some] at hheader
    have := (h.header _ (earlierCall_accepted prog vers 0) _ hheader).1
    omega
  · intro h
    have hown : DecidesItself prog vers packet := h.imp_left (by omega)
    have hrequest := (request_own_words_iff getpid fd prog vers active packet hp).mpr hown
    refine ⟨hrequest, fun history hh bytes hbytes => ?_⟩
    rw [servedHeader_eq getpid fd prog vers active hh hp] at hbytes
    obtain ⟨req, hreq, rfl⟩ := Option.map_eq_some_iff.mp hbytes
    rcases h with hlen | hcall | hmatch
    · refine ⟨hlen, ?_⟩
      rw [← Mem.take_slice (n := packet.length) hlen, Mem.slice_write]
    · rw [servedRequest_eq getpid fd prog vers active hh hp, requestIn_not_call hp.1 hcall] at hreq
      cases hreq
    · rw [servedRequest_eq getpid fd prog vers active hh hp] at hreq
      exact absurd (requestIn_matches hreq) hmatch

theorem sampleCall_own_bytes : OwnBytesOnly 1 4 0x3000005b 0x00010000 0 sampleCall :=
  (request_own_bytes_iff 1 4 0x3000005b 0x00010000 0 sampleCall ⟨by decide, by decide⟩).mpr
    (.inl (by decide))

/-- The first two words of a call. -/
def truncatedCall : List Byte := wordsBytes [8, RpcMsgType.call.code]

/-- Behind a complete call for procedure 9 they are served as a call for it, on
a new server they are not. -/
theorem truncated_call_served :
    servedRequest 1 4 0x3000005b 0x00010000 0 [] truncatedCall = none
      ∧ servedRequest 1 4 0x3000005b 0x00010000 0 [(sampleCall, [])] truncatedCall
        = some ⟨0x3000005b, 0x00010000, 9⟩
      ∧ ¬ OwnBytesOnly 1 4 0x3000005b 0x00010000 0 truncatedCall := by
  have hnew : servedRequest 1 4 0x3000005b 0x00010000 0 [] truncatedCall = none := by
    decide +kernel
  have hstale : servedRequest 1 4 0x3000005b 0x00010000 0 [(sampleCall, [])] truncatedCall
      = some ⟨0x3000005b, 0x00010000, 9⟩ := by
    decide +kernel
  refine ⟨hnew, hstale, fun h => ?_⟩
  have hsame := h.same [] [(sampleCall, [])] (List.forall_mem_nil _)
    (List.forall_mem_singleton.mpr ⟨by decide, by decide⟩)
  rw [hnew, hstale] at hsame
  cases hsame

end HtcLeo
