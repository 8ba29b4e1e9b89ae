import Mathlib.Data.List.Forall2
import HtcLeo.Svc

/-!
# A call and its reply (`clnt_call` in `librpc/clnt.c`)

The client builds the header of a call through the encoders, the server
reads it at fixed word offsets; the server builds the header of the reply
through the encoders, and the client reads it through the decoders. Both
sides agree (`rpc_exchange`): a call reaches the service function with
its program, version, procedure and arguments, and the results come back
to the caller.

`clntCall` is the caller's side. While it waits for the reply, the RX
thread owns the handle; `wait` is what that thread does to it until it
signals, and no result of `clntCall` means that the caller is never
signalled.
-/

namespace HtcLeo

inductive ClntStat where
  | success
  | cantEncodeArgs
  | cantDecodeRes
  | cantSend
  | cantRecv
  | versMismatch
  | authError
  | progUnavail
  | progVersMismatch
  | procUnavail
  | cantDecodeArgs
  | systemError
  | unknownHost
deriving DecidableEq, Repr

/-- `reply_header.u.ar.stat + RPC_AUTHERROR`, in the order of the two enumerations. -/
def RpcAcceptStat.clntStat : RpcAcceptStat → ClntStat
  | success => .authError
  | progUnavail => .progUnavail
  | progMismatch => .progVersMismatch
  | procUnavail => .procUnavail
  | garbageArgs => .cantDecodeArgs
  | systemErr => .systemError
  | progLocked => .unknownHost

/-- `reply_header.u.dr.stat + RPC_VERSMISMATCH`. -/
def RpcDeniedReply.clntStat : RpcDeniedReply → ClntStat
  | mismatch _ _ => .versMismatch
  | authError _ => .authError

/-! ## The caller -/

/-- `clnt_call` up to `XDR_MSG_SEND`. -/
def clntCallStart {α : Type} (client : Xdr) (proc : Word) (xdrArgs : XdrProc α) (args : α) :
    Bool × Xdr :=
  let xdr := { client with xOp := .encode }
  sendAnd (xdrCallMsgStart xdr xdr.xProg xdr.xVers proc .none .none) fun xdr =>
    let r := xdrArgs xdr args
    (r.1, r.2.1)

/-- `clnt_call` from the signal on. -/
def clntCallFinish {β : Type} (xdr : Xdr) (xdrResults : XdrProc β) (rets : β) :
    ClntStat × Xdr × β :=
  if xdr.outMsg.getWord 0 ≠ xdr.inMsg.getWord 0 then (.cantRecv, xdr, rets)
  else
    match xdrRecvReplyHeader xdr with
    | (xdr, none) => (.cantRecv, xdr, rets)
    | (xdr, some (.denied dr)) => (dr.clntStat, xdr, rets)
    | (xdr, some (.accepted ar)) =>
        if ar.stat ≠ .success then (ar.stat.clntStat, xdr, rets)
        else
          let r := xdrResults { xdr with xOp := .decode } rets
          (if r.1 then .success else .cantDecodeRes, r.2.1, r.2.2)

def clntCall {α β : Type} (rWrite : List Byte → Int) (wait : Xdr → Option Xdr) (client : Xdr)
    (proc : Word) (xdrArgs : XdrProc α) (args : α) (xdrResults : XdrProc β) (rets : β) :
    Option (ClntStat × Xdr × β) :=
  let r := clntCallStart client proc xdrArgs args
  if !r.1 then some (.cantEncodeArgs, r.2, rets)
  else if !xdrStdMsgSend rWrite r.2 then some (.cantSend, r.2, rets)
  else (wait r.2).map fun xdr => clntCallFinish xdr xdrResults rets

/-- The RX thread reads a packet into the client's handle and, if it is a reply,
signals the caller. -/
def rxReply (client : Xdr) (packet : List Byte) : Option Xdr :=
  let r := xdrStdRead client (some packet)
  if r.1 = true ∧ r.2.inMsg.getWord 4 = RpcMsgType.reply.code then some r.2 else none

/-! ## The service -/

/-- What a service function was asked, where it found the cursor, what it
decoded and what it sent. -/
structure Served (α : Type) where
  req : SvcReq
  inNext : Int
  args : α
  reply : Option (List Byte)

/-- A service function: decode the arguments, answer with the results. -/
def serve (ca cr : Codec) (results : SvcReq → ca.Obj → cr.Obj) (req : SvcReq)
    (serv : RegisteredServer) : RegisteredServer × Served ca.Obj :=
  let r := svcGetargs serv ca.proc ca.fresh
  if !r.1 then
    let e := svcerrDecode r.2.1
    (e.1, ⟨req, serv.xdr.inNext, r.2.2, e.2⟩)
  else
    let s := svcSendreply r.2.1 cr.proc (results req r.2.2)
    (s.2.1, ⟨req, serv.xdr.inNext, r.2.2, s.2.2⟩)

/-- The message of a call, answered by the server. -/
def serverReply (getpid : Int) (ca cr : Codec) (results : SvcReq → ca.Obj → cr.Obj)
    (svc : RegisteredServer) (message : List Byte) : Option (List Byte) :=
  (svcContext getpid (serve ca cr results) svc (some message)).bind fun r =>
    r.2.bind fun served => served.reply

/-! ## The call arrives -/

/-- The value can be encoded into any message that has `start` bytes. -/
def Codec.Fits (c : Codec) (v : c.Obj) (start : Int) : Prop :=
  ∀ x : Xdr, x.xOp = .encode → x.OutReady → x.outNext = start → (c.proc x v).1 = true

/-- The handle into which `clnt_call` encodes the arguments. -/
def Xdr.callStart (client : Xdr) (proc : Word) : Xdr :=
  (xdrStdMsgStart { client with xOp := .encode, xProc := proc } .call).2.emit
    (wordsBytes (callWords client.xProg client.xVers proc))

theorem Xdr.callStart_outReady (client : Xdr) (proc : Word) : (client.callStart proc).OutReady :=
  (xdrStdMsgStart_outReady ..).emit (by simp [callWords]) (show (40 : Int) ≤ 2048 by decide)

theorem Xdr.callStart_message (client : Xdr) (proc : Word) :
    (client.callStart proc).message
      = wordsBytes ((client.xid + 1) :: RpcMsgType.call.code
          :: callWords client.xProg client.xVers proc) := by
  rw [Xdr.callStart, Xdr.message_emit (xdrStdMsgStart_outReady ..).nonneg, xdrStdMsgStart_message,
    wordsBytes_append]
  rfl

theorem clntCallStart_eq {α : Type} (client : Xdr) (proc : Word) (xdrArgs : XdrProc α) (args : α) :
    clntCallStart client proc xdrArgs args
      = ((xdrArgs (client.callStart proc) args).1, (xdrArgs (client.callStart proc) args).2.1) := by
  rw [clntCallStart, xdrCallMsgStart_eq]
  rfl

/-- The message of a call whose arguments can be encoded. -/
theorem clntCallStart_message {c : Codec} {v : c.Obj} (client : Xdr) (proc : Word) (hwf : c.Wf v)
    (hfits : c.Fits v 40) :
    ∃ bs, clntCallStart client proc c.proc v = (true, (client.callStart proc).emit bs)
      ∧ ((client.callStart proc).emit bs).message
        = wordsBytes ((client.xid + 1) :: RpcMsgType.call.code
            :: callWords client.xProg client.xVers proc) ++ bs
      ∧ 40 + bs.length ≤ 2048 ∧ Decodes c.proc c.fresh c.Same bs v := by
  have hready := client.callStart_outReady proc
  have hnext : (client.callStart proc).outNext = 40 := rfl
  have hok := hfits (client.callStart proc) rfl hready hnext
  rcases hproc : c.proc (client.callStart proc) v with ⟨ok, x, v'⟩
  rw [hproc] at hok
  subst hok
  obtain ⟨-, bs, rfl, -, hfit, hdec⟩ := c.faithful rfl hready hwf hproc
  refine ⟨bs, by rw [clntCallStart_eq, hproc], ?_, by omega, hdec⟩
  rw [Xdr.message_emit hready.nonneg, Xdr.callStart_message]

/-- What follows the header of a message that was read is at the cursor. -/
theorem holds_of_read {y : Xdr} {m : Mem} {hdr bs : List Byte} (hin : y.inMsg = m.write 0 (hdr ++ bs))
    (hnext : y.inNext = hdr.length) (h4 : hdr.length % 4 = 0)
    (hlen : y.inLen = (hdr ++ bs).length) (hmax : (hdr ++ bs).length ≤ 2048) : y.Holds bs where
  nonneg := by omega
  aligned := by omega
  enough := by rw [hlen, hnext, List.length_append]; push_cast; omega
  int := by omega
  bytes := by
    rw [hin, hnext, Mem.write_append, Int.zero_add]
    exact Mem.slice_write ..

/-- The header of a call. -/
def callHeader (xid prog vers proc : Word) : List Byte :=
  wordsBytes (xid :: RpcMsgType.call.code :: callWords prog vers proc)

@[simp] theorem length_callHeader (xid prog vers proc : Word) :
    (callHeader xid prog vers proc).length = 40 := by
  simp [callHeader, callWords]

/-- The words that the server reads at fixed offsets. -/
theorem getWord_callHeader (m : Mem) (xid prog vers proc : Word) (bs : List Byte) :
    (m.write 0 (callHeader xid prog vers proc ++ bs)).getWord 0 = xid
      ∧ (m.write 0 (callHeader xid prog vers proc ++ bs)).getWord 4 = RpcMsgType.call.code
      ∧ (m.write 0 (callHeader xid prog vers proc ++ bs)).getWord 12 = prog
      ∧ (m.write 0 (callHeader xid prog vers proc ++ bs)).getWord 16 = vers
      ∧ (m.write 0 (callHeader xid prog vers proc ++ bs)).getWord 20 = proc := by
  have hword (k : Nat) (w : Word)
      (h : (xid :: RpcMsgType.call.code :: callWords prog vers proc)[k]? = some w) :=
    getWord_write_words (m := m) (i := 0) h bs
  simp only [callWords] at hword
  exact ⟨hword 0 xid (by simp), hword 1 _ (by simp), hword 3 prog (by simp), hword 4 vers (by simp),
    hword 5 proc (by simp)⟩

/-- The entry that the service function finds for a message. -/
def RegisteredServer.called (svc : RegisteredServer) (getpid : Int) (message : List Byte) :
    RegisteredServer :=
  { svc with
    xdr := { svc.xdr with
      inMsg := svc.xdr.inMsg.write 0 message, inLen := message.length, inNext := 40, xOp := .decode }
    active := getpid }

@[simp] theorem called_inMsg (svc : RegisteredServer) (getpid : Int) (message : List Byte) :
    (svc.called getpid message).xdr.inMsg = svc.xdr.inMsg.write 0 message := rfl

/-- The server finds the numbers of the header where the client put them, and
dispatches with the cursor behind the header. -/
theorem svcContext_call {ρ : Type} {svc : RegisteredServer} {prog vers : Word} {bs : List Byte}
    (dispatch : SvcReq → RegisteredServer → RegisteredServer × ρ) (getpid : Int) (xid proc : Word)
    (hprog : svc.xProg = prog) (hvers : svc.xdr.xVers = vers) (hlen : 40 + bs.length ≤ 2048) :
    svcContext getpid dispatch svc (some (callHeader xid prog vers proc ++ bs))
      = some ({ (dispatch ⟨prog, vers, proc⟩
            (svc.called getpid (callHeader xid prog vers proc ++ bs))).1 with active := 0 },
          some (dispatch ⟨prog, vers, proc⟩
            (svc.called getpid (callHeader xid prog vers proc ++ bs))).2) := by
  have hlength : (callHeader xid prog vers proc ++ bs).length = 40 + bs.length := by
    rw [List.length_append, length_callHeader]
  subst hprog hvers
  have hread : xdrStdRead svc.xdr (some (callHeader xid svc.xProg svc.xdr.xVers proc ++ bs)) = _ :=
    xdrStdRead_eq svc.xdr (by omega) (by omega)
  obtain ⟨-, htype, hp, hv, hproc⟩ :=
    getWord_callHeader svc.xdr.inMsg xid svc.xProg svc.xdr.xVers proc bs
  simp only [svcContext, hread, if_true, svcDispatch, svcDispatchBegin, htype, hp, hv, hproc, ne_eq,
    not_true_eq_false, if_false]
  rfl

/-! ## The reply arrives -/

/-- The header of a successful reply. -/
def replyHeader (xid : Word) : List Byte :=
  wordsBytes (xid :: RpcMsgType.reply.code :: replyWords .success)

@[simp] theorem length_replyHeader (xid : Word) : (replyHeader xid).length = 24 := by
  simp [replyHeader, replyWords]

/-- The handle after a message was read. -/
def Xdr.received (x : Xdr) (message : List Byte) : Xdr :=
  { x with inMsg := x.inMsg.write 0 message, inLen := message.length, inNext := 8 }

@[simp] theorem received_inMsg (x : Xdr) (message : List Byte) :
    (x.received message).inMsg = x.inMsg.write 0 message := rfl

/-- A reply wakes the caller up. -/
theorem rxReply_eq (client : Xdr) (xid : Word) {bs : List Byte} (hlen : 24 + bs.length ≤ 2048) :
    rxReply client (replyHeader xid ++ bs) = some (client.received (replyHeader xid ++ bs))
      ∧ (client.received (replyHeader xid ++ bs)).inMsg.getWord 0 = xid := by
  have hlength : (replyHeader xid ++ bs).length = 24 + bs.length := by
    rw [List.length_append, length_replyHeader]
  have hread : xdrStdRead client (some (replyHeader xid ++ bs)) = _ :=
    xdrStdRead_eq client (by omega) (by omega)
  have hword (k : Nat) (w : Word)
      (h : (xid :: RpcMsgType.reply.code :: replyWords .success)[k]? = some w) :
      (client.inMsg.write 0 (replyHeader xid ++ bs)).getWord (0 + 4 * k) = w :=
    getWord_write_words h bs
  have hxid : (client.inMsg.write 0 (replyHeader xid ++ bs)).getWord 0 = xid :=
    hword 0 xid (by simp)
  have htype : (client.inMsg.write 0 (replyHeader xid ++ bs)).getWord 4 = RpcMsgType.reply.code :=
    hword 1 _ (by simp)
  refine ⟨?_, by rw [received_inMsg, hxid]⟩
  simp only [rxReply, hread, htype, and_self, if_true]
  rfl

/-- The reply to the call that is waiting is decoded. -/
theorem clntCallFinish_eq {c : Codec} {v : c.Obj} (client : Xdr) {bs : List Byte}
    (hlen : 24 + bs.length ≤ 2048) (hdec : Decodes c.proc c.fresh c.Same bs v) :
    (clntCallFinish (client.received (replyHeader (client.outMsg.getWord 0) ++ bs)) c.proc
        c.fresh).1 = .success
      ∧ c.Same (clntCallFinish (client.received (replyHeader (client.outMsg.getWord 0) ++ bs)) c.proc
          c.fresh).2.2 v := by
  obtain ⟨-, hxid⟩ := rxReply_eq client (client.outMsg.getWord 0) hlen
  have hlength : (replyHeader (client.outMsg.getWord 0) ++ bs).length = 24 + bs.length := by
    rw [List.length_append, length_replyHeader]
  have hsplit : replyHeader (client.outMsg.getWord 0) ++ bs
      = wordsBytes [client.outMsg.getWord 0, RpcMsgType.reply.code]
        ++ (wordsBytes (replyWords .success) ++ bs) := by
    rw [← List.append_assoc, wordsBytes_append]
    rfl
  generalize hmsg : replyHeader (client.outMsg.getWord 0) ++ bs = message at hxid hlength hsplit ⊢
  have hholds : (client.received message).Holds (wordsBytes (replyWords .success) ++ bs) :=
    holds_of_read (m := client.inMsg) (by rw [← hsplit]; rfl) (by simp; rfl) (by simp)
      (by rw [← hsplit]; rfl) (by rw [← hsplit]; omega)
  have hresults := hholds.right (by simp)
  obtain ⟨r, hr, hsame⟩ := hdec { (client.received message).advance 16 with xOp := .decode } rfl
    ⟨hresults.nonneg, hresults.aligned, hresults.enough, hresults.int, hresults.bytes⟩
  rw [clntCallFinish, if_neg (by rw [hxid]; exact not_not.mpr rfl),
    xdrRecvReplyHeader_success hholds.left]
  simp only [ne_eq, not_true_eq_false, if_false, hr, if_true, true_and]
  exact hsame

/-! ## The exchange -/

/-- The first word of a message is the first word of the buffer. -/
theorem getWord_of_message {x : Xdr} {w : Word} {rest : List Byte}
    (h : x.message = Mem.wordBytes w ++ rest) : x.outMsg.getWord 0 = w := by
  have hlen : 4 ≤ x.outNext.toNat := by
    have hlen := congrArg List.length h
    rw [Xdr.message, Mem.length_slice, List.length_append, Mem.length_wordBytes] at hlen
    omega
  refine Mem.getWord_of_slice ?_
  rw [← Mem.take_slice hlen]
  exact (congrArg (List.take 4) h).trans (List.take_left' rfl)

/-- The service function decodes the arguments and answers with the XID of the call. -/
theorem serve_called {ca cr : Codec} {va : ca.Obj} {bs : List Byte}
    {req : SvcReq} (results : SvcReq → ca.Obj → cr.Obj) (svc : RegisteredServer) {getpid : Int}
    (xid prog vers proc : Word) (hpid : getpid ≠ 0) (hlen : 40 + bs.length ≤ 2048)
    (hdec : Decodes ca.proc ca.fresh ca.Same bs va)
    (hwf : ∀ w, ca.Same w va → cr.Wf (results req w))
    (hfits : ∀ w, ca.Same w va → cr.Fits (results req w) 24) :
    ∃ w rs, ca.Same w va ∧ 24 + rs.length ≤ 2048
      ∧ Decodes cr.proc cr.fresh cr.Same rs (results req w)
      ∧ (serve ca cr results req (svc.called getpid (callHeader xid prog vers proc ++ bs))).2
        = ⟨req, 40, w, some (replyHeader xid ++ rs)⟩ := by
  obtain ⟨hxid, -⟩ := getWord_callHeader svc.xdr.inMsg xid prog vers proc bs
  have hlength : (callHeader xid prog vers proc ++ bs).length = 40 + bs.length := by
    rw [List.length_append, length_callHeader]
  have hholds : (svc.called getpid (callHeader xid prog vers proc ++ bs)).xdr.Holds bs :=
    holds_of_read (called_inMsg ..) (by rw [length_callHeader]; rfl) (by simp) rfl (by omega)
  obtain ⟨w, hw, hsame⟩ := hdec _ rfl hholds
  generalize hserv : svc.called getpid (callHeader xid prog vers proc ++ bs) = serv at hw ⊢
  have hactive : serv.active ≠ 0 := by rw [← hserv]; exact hpid
  have hnext : serv.xdr.inNext = 40 := by rw [← hserv]; rfl
  have hword : serv.xdr.inMsg.getWord 0 = xid := by rw [← hserv, called_inMsg, hxid]
  obtain ⟨rs, hok, hreply, hrs, hrdec⟩ := svcSendreply_eq
    { serv with xdr := serv.xdr.advance bs.length } (hwf w hsame) hactive
    (hfits w hsame _ rfl (Xdr.replyStart_outReady _) rfl)
  refine ⟨w, rs, hsame, hrs, hrdec, ?_⟩
  simp only [serve, svcGetargs, if_pos hactive, hw, Bool.not_true, Bool.false_eq_true, if_false,
    hreply, hnext]
  rw [replyHeader, ← hword]
  rfl

/-- **A call and its reply.** The service function is asked with the numbers and
the arguments of the caller, and the caller gets its results. -/
theorem rpc_exchange {ca cr : Codec} {va : ca.Obj} (results : SvcReq → ca.Obj → cr.Obj)
    (client : Xdr) (svc : RegisteredServer) {getpid : Int} (proc : Word)
    (hprog : svc.xProg = client.xProg) (hvers : svc.xdr.xVers = client.xVers) (hpid : getpid ≠ 0)
    (hwa : ca.Wf va) (hfa : ca.Fits va 40)
    (hwf : ∀ w, ca.Same w va → cr.Wf (results ⟨client.xProg, client.xVers, proc⟩ w))
    (hfits : ∀ w, ca.Same w va → cr.Fits (results ⟨client.xProg, client.xVers, proc⟩ w) 24) :
    ∃ w svc' reply r, ca.Same w va
      ∧ svcContext getpid (serve ca cr results) svc
          (some (clntCallStart client proc ca.proc va).2.message)
        = some (svc', some ⟨⟨client.xProg, client.xVers, proc⟩, 40, w, some reply⟩)
      ∧ clntCall (fun bs => bs.length)
          (fun x => (serverReply getpid ca cr results svc x.message).bind (rxReply x)) client proc
          ca.proc va cr.proc cr.fresh = some r
      ∧ r.1 = .success ∧ cr.Same r.2.2 (results ⟨client.xProg, client.xVers, proc⟩ w) := by
  obtain ⟨bs, hstart, hmsg, hlen, hdec⟩ := clntCallStart_message client proc hwa hfa
  change _ = callHeader (client.xid + 1) client.xProg client.xVers proc ++ bs at hmsg
  obtain ⟨w, rs, hsame, hrs, hrdec, hserve⟩ := serve_called results svc
    (client.xid + 1) client.xProg client.xVers proc hpid hlen hdec hwf hfits
  have hctx := svcContext_call (serve ca cr results) getpid (client.xid + 1) proc hprog hvers hlen
  rw [hserve, ← hmsg] at hctx
  have hxid : ((client.callStart proc).emit bs).outMsg.getWord 0 = client.xid + 1 :=
    getWord_of_message hmsg
  have hsend : xdrStdMsgSend (fun bs => bs.length) ((client.callStart proc).emit bs) = true := by
    rw [xdrStdMsgSend, decide_eq_true_eq, Xdr.message, Mem.length_slice]
    have hnonneg : 0 ≤ (client.callStart proc).outNext := (client.callStart_outReady proc).nonneg
    rw [Xdr.emit_outNext]
    omega
  obtain ⟨hrx, -⟩ := rxReply_eq ((client.callStart proc).emit bs) (client.xid + 1) hrs
  obtain ⟨hstat, hres⟩ := clntCallFinish_eq ((client.callStart proc).emit bs) hrs hrdec
  rw [hxid] at hstat hres
  refine ⟨w, _, replyHeader (client.xid + 1) ++ rs, _, hsame, by rw [hstart]; exact hctx, ?_, hstat,
    hres⟩
  simp only [clntCall, hstart, hsend, Bool.not_true, Bool.false_eq_true, if_false, serverReply, hctx,
    Option.bind_some, hrx, Option.map_some]

/-! ## Sequences of words -/

/-- `n` words through `xdr_vector`. -/
def wordsCodec (n : Nat) : Codec := .vector (BitVec.ofNat 32 n) .uLong

theorem xdrElems_words (ws : List Word) {x : Xdr} (hop : x.xOp = .encode)
    (h : x.outNext + 4 * ws.length ≤ 2048) :
    xdrElems xdrULong ws.length x ws = (true, x.emit (wordsBytes ws), ws) := by
  induction ws generalizing x with
  | nil => simp [xdrElems]
  | cons w ws ih =>
      rw [List.length_cons] at h
      push_cast at h
      have hsend : xdrULong x w = (true, x.emit (Mem.wordBytes w), w) := by
        simp only [xdrULong, xdrWord, hop, xdrStdSendUint32_eq w (show x.outNext ≤ 2044 by omega)]
      have hroom : (x.emit (Mem.wordBytes w)).outNext + 4 * ws.length ≤ 2048 := by
        rw [Xdr.emit_outNext, Mem.length_wordBytes]
        push_cast
        omega
      simp only [List.length_cons, xdrElems, hsend, if_true, ih (x := x.emit _) hop hroom,
        Xdr.emit_emit, wordsBytes_cons]

theorem wordsCodec_proc (ws : List Word) {x : Xdr} (hop : x.xOp = .encode) (hx : 0 ≤ x.outNext)
    (h : x.outNext + 4 * ws.length ≤ 2048) :
    (wordsCodec ws.length).proc x ws = (true, x.emit (wordsBytes ws), ws) := by
  have hcount : (BitVec.ofNat 32 ws.length).toNat = ws.length := by
    rw [BitVec.toNat_ofNat, Nat.mod_eq_of_lt (by omega)]
  have helems := xdrElems_words ws hop h
  rw [← hcount] at helems
  exact helems

theorem wordsCodec_fits {ws : List Word} {start : Int} (hstart : 0 ≤ start)
    (h : start + 4 * ws.length ≤ 2048) : (wordsCodec ws.length).Fits ws start := by
  intro x hop _ hnext
  rw [wordsCodec_proc ws hop (by omega) (by omega)]

theorem wordsCodec_wf {ws : List Word} (h : ws.length < 2 ^ 32) : (wordsCodec ws.length).Wf ws := by
  refine ⟨?_, fun _ _ => trivial⟩
  rw [BitVec.toNat_ofNat, Nat.mod_eq_of_lt h]
  rfl

theorem wordsCodec_same {n : Nat} {vs ws : List Word} (h : (wordsCodec n).Same vs ws) : vs = ws := by
  have hrel : List.Forall₂ (@Eq Word) vs ws := h
  rwa [List.forall₂_eq_eq_eq] at hrel

/-- **Client and server agree on the wire format.** For every program, version
and procedure, all arguments and all results that fit into a message: the call
is dispatched with the same numbers and with the cursor at the first argument,
so that the same arguments are decoded, and the reply gives the caller
`RPC_SUCCESS` and the same results. -/
theorem client_server_agree (prog vers proc : Word) (args results : List Word)
    (service : SvcReq → List Word → List Word) (client : Xdr) (svc : RegisteredServer) (getpid : Int)
    (hclient : client.xProg = prog ∧ client.xVers = vers)
    (hsvc : svc.xProg = prog ∧ svc.xdr.xVers = vers) (hpid : getpid ≠ 0)
    (hservice : service ⟨prog, vers, proc⟩ args = results)
    (hargs : 40 + 4 * args.length ≤ 2048) (hresults : 24 + 4 * results.length ≤ 2048) :
    let ca := wordsCodec args.length
    let cr := wordsCodec results.length
    let message := (clntCallStart client proc ca.proc args).2.message
    message.drop 40 = wordsBytes args
      ∧ (∃ svc' reply, svcContext getpid (serve ca cr service) svc (some message)
          = some (svc', some ⟨⟨prog, vers, proc⟩, 40, args, some reply⟩))
      ∧ ∃ client', clntCall (fun bs => bs.length)
          (fun x => (serverReply getpid ca cr service svc x.message).bind (rxReply x)) client proc
          ca.proc args cr.proc cr.fresh = some (.success, client', results) := by
  obtain ⟨rfl, rfl⟩ := hclient
  intro ca cr message
  have hserved (w : List Word) (hw : ca.Same w args) :
      service ⟨client.xProg, client.xVers, proc⟩ w = results := by
    rw [wordsCodec_same hw, hservice]
  obtain ⟨w, svc', reply, r, hsame, hctx, hcall, hstat, hres⟩ := @rpc_exchange ca cr args service
    client svc getpid proc hsvc.1 hsvc.2 hpid (wordsCodec_wf (by omega))
    (wordsCodec_fits (by decide) (by omega))
    (fun w hw => by rw [hserved w hw]; exact wordsCodec_wf (by omega))
    (fun w hw => by rw [hserved w hw]; exact wordsCodec_fits (by decide) (by omega))
  refine ⟨?_, ⟨svc', reply, ?_⟩, r.2.1, ?_⟩
  · have hready := client.callStart_outReady proc
    have hproc := wordsCodec_proc args (x := client.callStart proc) rfl hready.nonneg
      (show (40 : Int) + _ ≤ 2048 by omega)
    have hmessage : message = callHeader (client.xid + 1) client.xProg client.xVers proc
        ++ wordsBytes args := by
      refine Eq.trans (congrArg (fun r => r.2.message) (clntCallStart_eq client proc ca.proc args)) ?_
      refine Eq.trans (congrArg (fun r => r.2.1.message) hproc) ?_
      rw [Xdr.message_emit hready.nonneg, Xdr.callStart_message]
      rfl
    rw [hmessage]
    exact List.drop_left' (length_callHeader ..)
  · rw [hctx, wordsCodec_same hsame]
  · rw [hserved w hsame] at hres
    rw [hcall]
    exact congrArg some (Prod.ext hstat (Prod.ext rfl (wordsCodec_same hres)))

/-- A client and a server of the same service. -/
def sampleClient : Xdr := { xdrInitCommon 3 true with xProg := 0x3000005b, xVers := 0x00010000 }

def sampleServer : RegisteredServer :=
  ⟨{ xdrInitCommon 4 false with xProg := 0x3000005b, xVers := 0x00010000 }, 0x3000005b, 0x00010000, 0⟩

def sampleArgs : List Word := [20, 22]

/-- A service that adds up its arguments. -/
def sampleService (_ : SvcReq) (ws : List Word) : List Word := [ws.foldl (· + ·) 0]

/-- Two arguments, answered by their sum. -/
theorem sample_call_answered :
    sampleService ⟨0x3000005b, 0x00010000, 5⟩ sampleArgs = [42] ∧
    (∃ svc' reply, svcContext 7
        (serve (wordsCodec sampleArgs.length) (wordsCodec [(42 : Word)].length) sampleService)
        sampleServer
        (some (clntCallStart sampleClient 5 (wordsCodec sampleArgs.length).proc sampleArgs).2.message)
      = some (svc', some ⟨⟨0x3000005b, 0x00010000, 5⟩, 40, sampleArgs, some reply⟩)) ∧
    ∃ client', clntCall (fun bs => bs.length)
        (fun x => (serverReply 7 (wordsCodec sampleArgs.length) (wordsCodec [(42 : Word)].length)
          sampleService sampleServer x.message).bind (rxReply x))
        sampleClient 5 (wordsCodec sampleArgs.length).proc sampleArgs
        (wordsCodec [(42 : Word)].length).proc (wordsCodec [(42 : Word)].length).fresh
      = some (.success, client', [(42 : Word)]) :=
  ⟨rfl, (client_server_agree 0x3000005b 0x00010000 5 sampleArgs [42] sampleService sampleClient
    sampleServer 7 ⟨rfl, rfl⟩ ⟨rfl, rfl⟩ (by decide) rfl (by decide) (by decide)).2⟩

end HtcLeo
