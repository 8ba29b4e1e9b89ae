import HtcLeo.Svc

/-!
# Replies and their calls

A reply belongs to the call whose XID it carries. `svc_sendreply` copies
the XID of the incoming message into the reply; the error replies leave
what `xdr_std_msg_start` has put there, the counter of the server's own
handle. That counter is zero in every server: it starts at zero, a clone
starts at zero as well, and only calls increment it. Hence an error reply
answers its call exactly if the call has the XID zero
(`reply_answers_call_iff`).
-/

namespace HtcLeo

/-! ## What decoding and encoding leave alone -/

/-- What encoding and decoding may change: the operation, the outgoing message
and the two cursors. -/
def Xdr.Coded (x y : Xdr) : Prop :=
  ∃ op out outNext inNext,
    y = { x with xOp := op, outMsg := out, outNext := outNext, inNext := inNext }

theorem Xdr.Coded.refl (x : Xdr) : x.Coded x := ⟨_, _, _, _, rfl⟩

theorem Xdr.Coded.trans {x y z : Xdr} (h : x.Coded y) (h' : y.Coded z) : x.Coded z := by
  obtain ⟨_, _, _, _, rfl⟩ := h
  obtain ⟨_, _, _, _, rfl⟩ := h'
  exact ⟨_, _, _, _, rfl⟩

/-- The incoming message and the data of the next header are the same. -/
structure Xdr.Keeps (x y : Xdr) : Prop where
  xid : y.xid = x.xid
  verf : y.verf = x.verf
  inMsg : y.inMsg = x.inMsg

theorem Xdr.Coded.keeps {x y : Xdr} (h : x.Coded y) : x.Keeps y := by
  obtain ⟨_, _, _, _, rfl⟩ := h
  exact ⟨rfl, rfl, rfl⟩

theorem Xdr.coded_xOp (x : Xdr) (op : XdrOp) : x.Coded { x with xOp := op } := ⟨_, _, _, _, rfl⟩

/-- A procedure does no more in any operation, whether it succeeds or not. -/
def ProcCoded {α : Type} (proc : XdrProc α) : Prop :=
  ∀ (x : Xdr) (v : α), x.Coded (proc x v).2.1

theorem xdrStdSendUint32_coded (x : Xdr) (v : Word) : x.Coded (xdrStdSendUint32 x v).2 := by
  rw [xdrStdSendUint32]
  split <;> exact ⟨_, _, _, _, rfl⟩

theorem xdrStdSendBytes_coded (x : Xdr) (buf : List Byte) (len : Word) :
    x.Coded (xdrStdSendBytes x buf len).2 := by
  rw [xdrStdSendBytes]
  split <;> exact ⟨_, _, _, _, rfl⟩

theorem xdrStdRecvUint32_coded (x : Xdr) (v : Word) : x.Coded (xdrStdRecvUint32 x v).2.1 := by
  rw [xdrStdRecvUint32]
  split <;> exact ⟨_, _, _, _, rfl⟩

theorem xdrStdRecvBytes_coded (x : Xdr) (buf : List Byte) (len : Word) :
    x.Coded (xdrStdRecvBytes x buf len).2.1 := by
  rw [xdrStdRecvBytes]
  split <;> exact ⟨_, _, _, _, rfl⟩

theorem procCoded_uInt : ProcCoded xdrUInt := by
  intro x v
  simp only [xdrUInt, xdrWord]
  split
  · exact xdrStdSendUint32_coded x v
  · exact xdrStdRecvUint32_coded x v
  · exact .refl x

theorem procCoded_through {proc : XdrProc Word} (h : ProcCoded proc) :
    ProcCoded (xdrThrough proc) := by
  intro x v
  simp only [xdrThrough]
  split <;> exact h x _

theorem procCoded_shortWith (widen : BitVec 16 → Word) :
    ProcCoded (xdrShortWith widen xdrStdSendUint32 xdrStdRecvUint32) := by
  intro x v
  simp only [xdrShortWith]
  split
  · exact xdrStdSendUint32_coded x _
  · split <;> exact xdrStdRecvUint32_coded x _
  · exact .refl x

theorem procCoded_uHyper : ProcCoded xdrUHyper := by
  intro x v
  simp only [xdrUHyper]
  split
  · have hfirst := xdrStdSendUint32_coded x (v.extractLsb' 32 32)
    split
    · exact hfirst.trans (xdrStdSendUint32_coded _ _)
    · exact hfirst
  · have hfirst := xdrStdRecvUint32_coded x 0
    split
    · split <;> exact hfirst.trans (xdrStdRecvUint32_coded _ _)
    · exact hfirst
  · exact .refl x

theorem procCoded_bool : ProcCoded xdrBool := by
  intro x v
  simp only [xdrBool]
  split
  · exact xdrStdSendUint32_coded x _
  · split <;> exact xdrStdRecvUint32_coded x _
  · exact .refl x

theorem procCoded_opaqueData (cnt : Word) : ProcCoded (xdrOpaque cnt) := by
  intro x v
  simp only [xdrOpaque]
  split
  · exact .refl x
  · split
    · exact xdrStdSendBytes_coded x v cnt
    · exact xdrStdRecvBytes_coded x v cnt
    · exact .refl x

theorem procCoded_bytes (maxsize : Word) : ProcCoded (xdrBytes maxsize) := by
  intro x v
  simp only [xdrBytes]
  split
  · have hsize := xdrStdRecvUint32_coded x v.size
    split
    · exact hsize
    · split
      · exact hsize
      · exact hsize.trans (xdrStdRecvBytes_coded _ _ _)
  · have hsize := xdrStdSendUint32_coded x v.size
    split
    · exact hsize.trans (xdrStdSendBytes_coded _ _ _)
    · exact hsize
  · exact .refl x

theorem procCoded_string (maxsize : Word) : ProcCoded (xdrString maxsize) := by
  intro x v
  simp only [xdrString]
  split
  · exact .refl x
  · split <;> exact .refl x
  · exact .refl x
  · split
    · exact procCoded_uInt x _
    · exact (procCoded_uInt x _).trans (procCoded_opaqueData _ _ _)
  · split
    · exact procCoded_uInt x _
    · split
      · exact procCoded_uInt x _
      · exact (procCoded_uInt x _).trans (procCoded_opaqueData _ _ _)

theorem procCoded_elems {α : Type} {elproc : XdrProc α} (h : ProcCoded elproc) (n : Nat) :
    ProcCoded (xdrElems elproc n) := by
  induction n with
  | zero => exact fun x v => .refl x
  | succ n ih =>
      intro x v
      cases v with
      | nil => exact .refl x
      | cons a l =>
          simp only [xdrElems]
          split
          · exact (h x a).trans (ih _ l)
          · exact h x a

theorem procCoded_array {α : Type} {elproc : XdrProc α} (h : ProcCoded elproc) (maxsize : Word)
    (zero : α) : ProcCoded (xdrArray maxsize zero elproc) := by
  intro x v
  have hsize := procCoded_uInt x v.size
  simp only [xdrArray]
  split
  · exact hsize
  · split
    · exact hsize
    · split
      · exact hsize
      · exact hsize.trans (procCoded_elems h _ _ _)
      · split
        · exact hsize
        · exact hsize.trans (procCoded_elems h _ _ _)
      · exact hsize.trans (procCoded_elems h _ _ _)
      · exact hsize

theorem procCoded_reference {α : Type} {proc : XdrProc α} (h : ProcCoded proc) (zero : α) :
    ProcCoded (xdrReference zero proc) := by
  intro x v
  simp only [xdrReference]
  split
  · exact .refl x
  · exact .refl x
  · exact h x zero
  · exact h x _
  · exact h x _

theorem procCoded_pointer {α : Type} {proc : XdrProc α} (h : ProcCoded proc) (zero : α) :
    ProcCoded (xdrPointer zero proc) := by
  intro x v
  simp only [xdrPointer]
  generalize (if v.isSome = true then (1 : Word) else 0) = more
  split
  · exact procCoded_bool x _
  · split
    · exact procCoded_bool x _
    · exact (procCoded_bool x _).trans (procCoded_reference h zero _ _)

theorem procCoded_pair {α β : Type} {p : XdrProc α} {q : XdrProc β} (hp : ProcCoded p)
    (hq : ProcCoded q) : ProcCoded (xdrPair p q) := by
  intro x v
  simp only [xdrPair]
  split
  · exact (hp x v.1).trans (hq _ v.2)
  · exact hp x v.1

theorem Codec.procCoded (c : Codec) : ProcCoded c.proc := by
  induction c with
  | int => exact procCoded_uInt
  | uInt => exact procCoded_uInt
  | long => exact procCoded_uInt
  | uLong => exact procCoded_uInt
  | enum => exact procCoded_uInt
  | char => exact procCoded_through procCoded_uInt
  | uChar => exact procCoded_through procCoded_uInt
  | short => exact procCoded_shortWith _
  | uShort => exact procCoded_shortWith _
  | uQuadT => exact procCoded_uHyper
  | bool => exact procCoded_bool
  | opaqueData cnt => exact procCoded_opaqueData cnt
  | bytes maxsize => exact procCoded_bytes maxsize
  | string maxsize => exact procCoded_string maxsize
  | vector nelem elem ih => exact procCoded_elems ih nelem.toNat
  | array maxsize elem ih => exact procCoded_array ih maxsize elem.fresh
  | pointer obj ih => exact procCoded_pointer ih obj.fresh
  | pair fst snd ihf ihs => exact procCoded_pair ihf ihs

/-! ## Servers and what they are used for -/

/-- The ways to answer. -/
inductive Answer where
  | sendreply (c : Codec) (results : c.Obj)
  | decode
  | systemerr
  | noproc

/-- `svc_sendreply`, with results that are C objects. -/
def Answer.Wf : Answer → Prop
  | sendreply c results => c.Wf results
  | _ => True

def Answer.IsSendreply : Answer → Prop
  | sendreply _ _ => True
  | _ => False

/-- The entry afterwards, and the message handed to `XDR_MSG_SEND`. -/
def Answer.send (serv : RegisteredServer) : Answer → RegisteredServer × Option (List Byte)
  | sendreply c results => (svcSendreply serv c.proc results).2
  | decode => svcerrDecode serv
  | systemerr => svcerrSystemerr serv
  | noproc => svcerrNoproc serv

/-- What a service function may do with its entry. -/
inductive ServiceCall where
  | getargs (c : Codec) (args : c.Obj)
  | freeargs (c : Codec) (args : c.Obj)
  | answer (a : Answer)

def serviceCall (serv : RegisteredServer) : ServiceCall → RegisteredServer
  | .getargs c args => (svcGetargs serv c.proc args).2.1
  | .freeargs c args => (svcFreeargs serv c.proc args).2.1
  | .answer a => (a.send serv).1

/-- A service function that makes some calls and then answers. -/
def serviceFunction (calls : List ServiceCall) (a : Answer) (_ : SvcReq) (serv : RegisteredServer) :
    RegisteredServer × Option (List Byte) :=
  a.send (calls.foldl serviceCall serv)

/-- The entry of a true server in `svc_register`; `active` is not initialised. -/
def svcRegister (fd : Int) (prog vers : Word) (active : Int) : RegisteredServer :=
  ⟨{ xdrInitCommon fd false with xProg := prog, xVers := vers }, prog, vers, active⟩

/-- A packet and the calls its service function makes; the process is gone after `abort`. -/
def svcRound (getpid : Int) (svc : RegisteredServer) (round : List Byte × List ServiceCall) :
    RegisteredServer :=
  match svcContext getpid (fun _ serv => (round.2.foldl serviceCall serv, ())) svc (some round.1) with
  | some r => r.1
  | none => svc

/-- The handle that `cb_context` transplants into the entry of a callback client. -/
def cbTransplant (client : Xdr) (fd : Int) : Xdr :=
  let xdr := xdrClone client fd
  { xdr with
    xProg := client.inMsg.getWord 12
    xVers := client.inMsg.getWord 16
    inMsg := xdr.inMsg.write 0 (client.inMsg.slice 0 client.inLen.toNat)
    outMsg := xdr.outMsg.write 0 (client.outMsg.slice 0 client.outNext.toNat)
    inLen := client.inLen
    outNext := client.outNext }

/-- `cb_context` for a call that is in the client's handle, when `svc_find` has
an entry for its program and version. -/
def cbContext {ρ : Type} (getpid : Int)
    (dispatch : SvcReq → RegisteredServer → RegisteredServer × ρ) (client : Xdr) (fd active : Int) :
    RegisteredServer × Option ρ :=
  svcDispatch getpid dispatch
    ⟨cbTransplant client fd, client.inMsg.getWord 12, client.inMsg.getWord 16, active⟩

/-- Where a call arrives: at a true server that has served a history of packets,
or at a client with any handle, for one of its callback clients. -/
inductive Callee where
  | server (fd : Int) (prog vers : Word) (active : Int)
      (history : List (List Byte × List ServiceCall))
  | callback (client : Xdr) (fd active : Int)

/-- The answer to a packet, if a message is handed over. -/
def Callee.reply (getpid : Int) (packet : List Byte) (calls : List ServiceCall) (a : Answer) :
    Callee → Option (List Byte)
  | server fd prog vers active history =>
      (svcContext getpid (serviceFunction calls a)
        (history.foldl (svcRound getpid) (svcRegister fd prog vers active)) (some packet)).bind
        fun r => r.2.join
  | callback client fd active =>
      let r := xdrStdRead client (some packet)
      if r.1 then (cbContext getpid (serviceFunction calls a) r.2 fd active).2.join else none

/-! ## The handle of a server -/

theorem sendAnd_coded {x : Xdr} {r : Bool × Xdr} {next : Xdr → Bool × Xdr} (h : x.Coded r.2)
    (hnext : ∀ y : Xdr, y.Coded (next y).2) : x.Coded (sendAnd r next).2 := by
  rw [sendAnd]
  split
  · exact h.trans (hnext r.2)
  · exact h

theorem xdrStdMsgStart_reply_coded (x : Xdr) : x.Coded (xdrStdMsgStart x .reply).2 :=
  ⟨_, _, _, _, rfl⟩

theorem xdrSendAuth_coded (x : Xdr) (auth : OpaqueAuth) : x.Coded (xdrSendAuth x auth).2 := by
  refine sendAnd_coded (xdrStdSendUint32_coded x _) fun y => ?_
  refine sendAnd_coded (xdrStdSendUint32_coded y _) fun z => ?_
  split
  · exact .refl z
  · exact xdrStdSendBytes_coded z _ _

theorem xdrReplyMsgStart_coded (x : Xdr) (verf : OpaqueAuth) :
    x.Coded (xdrReplyMsgStart x verf).2 := by
  refine sendAnd_coded (xdrStdMsgStart_reply_coded x) fun y => ?_
  refine sendAnd_coded (xdrStdSendUint32_coded y _) fun z => ?_
  exact sendAnd_coded (xdrSendAuth_coded z verf) fun u => xdrStdSendUint32_coded u _

theorem xdrSendAcceptedReplyHeader_coded (x : Xdr) (ar : RpcAcceptedReplyHeader) :
    x.Coded (xdrSendAcceptedReplyHeader x ar).2 := by
  refine sendAnd_coded (xdrSendAuth_coded x ar.verf) fun y => ?_
  refine sendAnd_coded (xdrStdSendUint32_coded y _) fun z => ?_
  split
  · exact sendAnd_coded (xdrStdSendUint32_coded z _) fun u => xdrStdSendUint32_coded u _
  · exact .refl z

theorem svcerr_coded (stat : RpcAcceptStat) (serv : RegisteredServer) :
    serv.xdr.Coded (svcerr stat serv).1.xdr := by
  simp only [svcerr]
  split
  · refine sendAnd_coded (xdrStdMsgStart_reply_coded serv.xdr) fun y => ?_
    exact sendAnd_coded (xdrStdSendUint32_coded y _) fun z => xdrSendAcceptedReplyHeader_coded z _
  · exact .refl _

theorem svcSendreply_coded (serv : RegisteredServer) (c : Codec) (v : c.Obj) :
    serv.xdr.Coded (svcSendreply serv c.proc v).2.1.xdr := by
  have hstart : serv.xdr.Coded (xdrReplyMsgStart { serv.xdr with xOp := .encode } .none).2 :=
    (serv.xdr.coded_xOp .encode).trans (xdrReplyMsgStart_coded _ .none)
  have hresults := hstart.trans (c.procCoded _ v)
  simp only [svcSendreply]
  split
  · split
    · exact hstart
    · split
      · exact hresults
      · exact hresults.trans ⟨_, _, _, _, rfl⟩
  · exact .refl _

/-- No call of a service function changes the incoming message or the counter. -/
theorem serviceCall_coded (serv : RegisteredServer) (call : ServiceCall) :
    serv.xdr.Coded (serviceCall serv call).xdr := by
  cases call with
  | getargs c args =>
      simp only [serviceCall, svcGetargs]
      split
      · exact c.procCoded serv.xdr args
      · exact .refl _
  | freeargs c args =>
      simp only [serviceCall, svcFreeargs]
      split
      · exact (serv.xdr.coded_xOp .free).trans (c.procCoded _ args)
      · exact .refl _
  | answer a =>
      cases a with
      | sendreply c results => exact svcSendreply_coded serv c results
      | decode => exact svcerr_coded .garbageArgs serv
      | systemerr => exact svcerr_coded .systemErr serv
      | noproc => exact svcerr_coded .procUnavail serv

theorem serviceCalls_coded (calls : List ServiceCall) (serv : RegisteredServer) :
    serv.xdr.Coded (calls.foldl serviceCall serv).xdr := by
  induction calls generalizing serv with
  | nil => exact .refl _
  | cons call calls ih => exact (serviceCall_coded serv call).trans (ih _)

/-- A handle that has never been used for a call of its own. -/
structure Xdr.Fresh (x : Xdr) : Prop where
  xid : x.xid = 0
  verf : x.verf = .none

theorem Xdr.Keeps.fresh {x y : Xdr} (h : x.Keeps y) (hx : x.Fresh) : y.Fresh :=
  ⟨h.xid.trans hx.xid, h.verf.trans hx.verf⟩

theorem Xdr.Fresh.read {x : Xdr} (hx : x.Fresh) (packet : Option (List Byte)) :
    (xdrStdRead x packet).2.Fresh := by
  cases packet with
  | none => exact ⟨hx.xid, hx.verf⟩
  | some packet =>
      simp only [xdrStdRead]
      split <;> exact ⟨hx.xid, hx.verf⟩

theorem svcDispatchBegin_coded {getpid : Int} {svc serv : RegisteredServer} {req : SvcReq}
    (h : svcDispatchBegin getpid svc = some (req, serv)) : svc.xdr.Coded serv.xdr := by
  simp only [svcDispatchBegin] at h
  split at h
  · cases h
  · split at h
    · cases h
    · split at h
      · cases h
      · obtain ⟨-, rfl⟩ := Prod.mk.inj (Option.some.inj h)
        exact ⟨_, _, _, _, rfl⟩

/-- Serving packets does not change that. -/
theorem svcRound_fresh {getpid : Int} {svc : RegisteredServer} (h : svc.xdr.Fresh)
    (round : List Byte × List ServiceCall) : (svcRound getpid svc round).xdr.Fresh := by
  have hread := h.read (some round.1)
  simp only [svcRound, svcContext]
  split
  · rename_i r heq
    split at heq
    · obtain rfl := Option.some.inj heq
      simp only [svcDispatch]
      split
      · exact hread
      · rename_i req serv hbegin
        have hcoded := (svcDispatchBegin_coded hbegin).trans (serviceCalls_coded round.2 serv)
        exact hcoded.keeps.fresh hread
    · cases heq
  · exact h

theorem history_fresh (getpid : Int) (history : List (List Byte × List ServiceCall))
    (svc : RegisteredServer) (h : svc.xdr.Fresh) :
    (history.foldl (svcRound getpid) svc).xdr.Fresh := by
  induction history generalizing svc with
  | nil => exact h
  | cons round history ih => exact ih _ (svcRound_fresh h round)

/-! ## Words of replies -/

/-- Word `i` of a message. -/
def wordAt (message : List Byte) (i : Nat) : Word :=
  Mem.getWord (Mem.write (fun _ => 0) 0 message) (4 * i)

theorem wordAt_words {ws : List Word} {i : Nat} {w : Word} (h : ws[i]? = some w) (rest : List Byte) :
    wordAt (wordsBytes ws ++ rest) i = w := by
  have hword := getWord_write_words (m := fun _ => 0) (i := 0) h rest
  rwa [Int.zero_add] at hword

/-- A word that a message has is read as it is, whatever was in the buffer. -/
theorem getWord_write_own {m : Mem} {packet : List Byte} {i : Nat}
    (h : 4 * i + 4 ≤ packet.length) :
    (m.write 0 packet).getWord (4 * i) = wordAt packet i :=
  Mem.getWord_congr fun j _ _ => Mem.write_congr (by omega) (by omega)

theorem wordAt_take {packet : List Byte} {n i : Nat} (h : 4 * i + 4 ≤ n) :
    wordAt (packet.take n) i = wordAt packet i := by
  by_cases hlen : packet.length ≤ n
  · rw [List.take_of_length_le hlen]
  · have htake : (packet.take n).length = n := List.length_take_of_le (by omega)
    conv_rhs => rw [wordAt, ← List.take_append_drop n packet, Mem.write_append]
    exact Mem.getWord_congr fun j hlo hhi => (Mem.write_of_lt (by omega)).symm

/-- The first word of a message that was read. -/
theorem getWord_read {m : Mem} {packet : List Byte} (h : 4 ≤ (packet.take 2048).length) :
    (m.write 0 (packet.take 2048)).getWord 0 = wordAt packet 0 :=
  (getWord_write_own (i := 0) h).trans (wordAt_take (by decide))

/-- The XID of an answer to a call with the given one. -/
def Answer.xid (callXid : Word) : Answer → Word
  | sendreply _ _ => callXid
  | _ => 0

theorem svcerr_message {stat : RpcAcceptStat} {serv : RegisteredServer} {msg : List Byte}
    (hstat : stat ≠ .progMismatch) (hx : serv.xdr.Fresh) (h : (svcerr stat serv).2 = some msg) :
    ∃ rest, msg = wordsBytes [0, RpcMsgType.reply.code] ++ rest := by
  simp only [svcerr] at h
  split at h
  · rw [sendAnd_msgStart, hx.verf, xdrSendReplyHeader_eq (xdrStdMsgStart_outNext ..) hstat] at h
    refine ⟨wordsBytes (replyWords stat), (Option.some.inj h).symm.trans ?_⟩
    rw [Xdr.message_emit (xdrStdMsgStart_outReady ..).nonneg, xdrStdMsgStart_message]
    rw [RpcMsgType.nextXid, hx.xid]
    rfl
  · cases h

/-- Every answer of a server is a reply; only `svc_sendreply` copies the XID. -/
theorem Answer.send_message {a : Answer} {serv : RegisteredServer} {msg : List Byte} (ha : a.Wf)
    (hx : serv.xdr.Fresh) (h : (a.send serv).2 = some msg) :
    ∃ rest, msg
      = wordsBytes [a.xid (serv.xdr.inMsg.getWord 0), RpcMsgType.reply.code] ++ rest := by
  cases a with
  | sendreply c results =>
      have hactive : serv.active ≠ 0 := by
        intro hactive
        simp only [Answer.send, svcSendreply, hactive, ne_eq, not_true_eq_false, if_false] at h
        cases h
      have hstart : xdrReplyMsgStart { serv.xdr with xOp := .encode } .none
          = (true, serv.xdr.replyStart) := xdrReplyMsgStart_eq _
      have hok : (c.proc serv.xdr.replyStart results).1 = true := by
        by_contra hok
        rw [Bool.not_eq_true] at hok
        simp only [Answer.send, svcSendreply, if_pos hactive, hstart, hok, Bool.not_true,
          Bool.not_false, Bool.false_eq_true, if_false, if_true] at h
        cases h
      obtain ⟨bs, -, hmsg, -, -⟩ := svcSendreply_eq serv ha hactive hok
      refine ⟨wordsBytes (replyWords .success) ++ bs, Option.some.inj (h.symm.trans (hmsg.trans ?_))⟩
      rw [← List.append_assoc, wordsBytes_append]
      rfl
  | decode => exact svcerr_message (by decide) hx h
  | systemerr => exact svcerr_message (by decide) hx h
  | noproc => exact svcerr_message (by decide) hx h

/-! ## Answers to calls -/

/-- The answer that one dispatch hands over. -/
theorem svcDispatch_message {getpid : Int} (svc : RegisteredServer) {calls : List ServiceCall}
    {a : Answer} {msg : List Byte} (ha : a.Wf) (hx : svc.xdr.Fresh)
    (h : (svcDispatch getpid (serviceFunction calls a) svc).2.join = some msg) :
    wordAt msg 0 = a.xid (svc.xdr.inMsg.getWord 0) ∧ wordAt msg 1 = RpcMsgType.reply.code := by
  simp only [svcDispatch] at h
  split at h
  · cases h
  · rename_i req serv hbegin
    have hkeeps := ((svcDispatchBegin_coded hbegin).trans (serviceCalls_coded calls serv)).keeps
    obtain ⟨rest, rfl⟩ := a.send_message ha (hkeeps.fresh hx) h
    rw [hkeeps.inMsg]
    exact ⟨wordAt_words rfl rest, wordAt_words rfl rest⟩

/-- A message that was read starts with the XID of the packet. -/
theorem xdrStdRead_xid {x : Xdr} {packet : List Byte}
    (h : (xdrStdRead x (some packet)).1 = true) :
    (xdrStdRead x (some packet)).2.inMsg.getWord 0 = wordAt packet 0
      ∧ 8 ≤ (xdrStdRead x (some packet)).2.inLen := by
  simp only [xdrStdRead] at h ⊢
  split at h
  · cases h
  · rename_i hlen
    have h8 : ¬(packet.take 2048).length < 8 := hlen
    rw [if_neg hlen]
    exact ⟨getWord_read (by omega), by simp only; omega⟩

theorem cbTransplant_xid {client : Xdr} (fd : Int) (h : 8 ≤ client.inLen) :
    (cbTransplant client fd).inMsg.getWord 0 = client.inMsg.getWord 0 := by
  refine Mem.getWord_congr fun j hlo hhi => ?_
  exact Mem.eq_of_slice_eq (n := client.inLen.toNat) (by
    have := Mem.slice_write (xdrClone client fd).inMsg 0 (client.inMsg.slice 0 client.inLen.toNat)
    rwa [Mem.length_slice] at this) j hlo (by omega)

/-- Every answer handed over has the XID that `Answer.xid` says. -/
theorem Callee.reply_words {callee : Callee} {getpid : Int} {packet : List Byte}
    {calls : List ServiceCall} {a : Answer} {msg : List Byte} (ha : a.Wf)
    (h : callee.reply getpid packet calls a = some msg) :
    wordAt msg 0 = a.xid (wordAt packet 0) ∧ wordAt msg 1 = RpcMsgType.reply.code := by
  cases callee with
  | server fd prog vers active history =>
      simp only [Callee.reply, svcContext] at h
      have hfresh := history_fresh getpid history (svcRegister fd prog vers active) ⟨rfl, rfl⟩
      generalize history.foldl (svcRound getpid) (svcRegister fd prog vers active) = svc at h hfresh
      split at h
      · rename_i hread
        obtain ⟨hxid, htype⟩ := svcDispatch_message { svc with xdr := _ } ha
          (hfresh.read (some packet)) h
        exact ⟨hxid.trans (congrArg (fun w => a.xid w) (xdrStdRead_xid hread).1), htype⟩
      · cases h
  | callback client fd active =>
      simp only [Callee.reply] at h
      split at h
      · rename_i hread
        obtain ⟨hread0, hlen⟩ := xdrStdRead_xid hread
        obtain ⟨hxid, htype⟩ := svcDispatch_message _ ha ⟨rfl, rfl⟩ h
        refine ⟨hxid.trans (congrArg (fun w => a.xid w) ?_), htype⟩
        exact (cbTransplant_xid fd hlen).trans hread0
      · cases h

/-- For every true server with any history and every callback client, every
packet and every answer that is handed to `XDR_MSG_SEND`: the message is a
reply with the XID of the call exactly if it was sent with `svc_sendreply` or
the XID of the call is zero. -/
theorem reply_answers_call_iff (callee : Callee) (getpid : Int) (packet : List Byte)
    (calls : List ServiceCall) (a : Answer) (ha : a.Wf) (msg : List Byte)
    (h : callee.reply getpid packet calls a = some msg) :
    (wordAt msg 0 = wordAt packet 0 ∧ wordAt msg 1 = RpcMsgType.reply.code) ↔
      a.IsSendreply ∨ wordAt packet 0 = 0 := by
  obtain ⟨hxid, htype⟩ := callee.reply_words ha h
  rw [hxid, htype]
  cases a with
  | sendreply c results => exact iff_of_true ⟨rfl, rfl⟩ (Or.inl trivial)
  | _ =>
      constructor
      · rintro ⟨hzero, -⟩
        exact Or.inr hzero.symm
      · rintro (hsend | hzero)
        · cases hsend
        · exact ⟨hzero.symm, rfl⟩

/-- A call with the XID 7 for procedure 9 of a server. -/
def sampleCall : List Byte :=
  wordsBytes [7, RpcMsgType.call.code, rpcMsgVersion, 0x3000005b, 0x00010000, 9, 0, 0, 0, 0]

def sampleCallee : Callee := .server 4 0x3000005b 0x00010000 0 []

/-- The same call on a client, for its callback client. -/
def sampleCallback : Callee := .callback (xdrInitCommon 3 true) 5 0

/-- An unknown procedure at a true server, and garbage arguments at a callback
client: the replies have the XID zero. -/
theorem error_reply_answers_nothing :
    (∃ msg, sampleCallee.reply 1 sampleCall [] .noproc = some msg
      ∧ ¬(wordAt msg 0 = wordAt sampleCall 0 ∧ wordAt msg 1 = RpcMsgType.reply.code))
    ∧ ∃ msg, sampleCallback.reply 1 sampleCall [] .decode = some msg
      ∧ ¬(wordAt msg 0 = wordAt sampleCall 0 ∧ wordAt msg 1 = RpcMsgType.reply.code) := by
  refine ⟨⟨_, rfl, ?_⟩, _, rfl, ?_⟩ <;> decide +kernel

/-- The same call, answered with a number. -/
theorem sendreply_answers_sample :
    ∃ msg, sampleCallee.reply 1 sampleCall [] (.sendreply .int (0 : Word)) = some msg
      ∧ wordAt msg 0 = wordAt sampleCall 0 ∧ wordAt msg 1 = RpcMsgType.reply.code :=
  ⟨_, rfl, (reply_answers_call_iff sampleCallee 1 sampleCall [] (.sendreply .int (0 : Word)) trivial
    _ rfl).mpr (Or.inl trivial)⟩

end HtcLeo
