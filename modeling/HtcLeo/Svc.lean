import HtcLeo.RpcMsg

/-!
# RPC servers (`librpc/svc.c`)

A registered server is the XDR handle of a service with its program and
version. `svcDispatch` checks the call that was read into the handle
against these and runs the service function, which decodes the arguments
with `svcGetargs` and answers with `svcSendreply` or one of the error
replies. These work only while `active` is set, that is, inside the
service function.

A function that answers returns the message it hands to `XDR_MSG_SEND`,
if it gets that far; whether the driver takes it makes no difference to
the server.
-/

namespace HtcLeo

structure SvcReq where
  rqProg : Word
  rqVers : Word
  rqProc : Word
deriving DecidableEq, Repr

/-- The entry of a true server, or of a callback client during a dispatch. -/
structure RegisteredServer where
  xdr : Xdr
  xProg : Word
  xVers : Word
  active : Int

/-! ## Dispatch -/

/-- `svc_dispatch` up to the service function: the checks on the message, and
the handle that the service function finds. -/
def svcDispatchBegin (getpid : Int) (svc : RegisteredServer) : Option (SvcReq × RegisteredServer) :=
  let prog := svc.xdr.inMsg.getWord 12
  let vers := svc.xdr.inMsg.getWord 16
  let proc := svc.xdr.inMsg.getWord 20
  if svc.xdr.inMsg.getWord 4 ≠ RpcMsgType.call.code then none
  else if prog ≠ svc.xProg then none
  else if vers ≠ svc.xdr.xVers then none
  else
    some (⟨prog, vers, proc⟩,
      { svc with xdr := { svc.xdr with inNext := (6 + 4) * 4, xOp := .decode }, active := getpid })

/-- `dispatch` is the service function, with a result of its own. -/
def svcDispatch {ρ : Type} (getpid : Int)
    (dispatch : SvcReq → RegisteredServer → RegisteredServer × ρ) (svc : RegisteredServer) :
    RegisteredServer × Option ρ :=
  match svcDispatchBegin getpid svc with
  | none => (svc, none)
  | some (req, svc) =>
      let r := dispatch req svc
      ({ r.1 with active := 0 }, some r.2)

/-- One packet for an entry in `svc_context`; `none` is `abort`. -/
def svcContext {ρ : Type} (getpid : Int)
    (dispatch : SvcReq → RegisteredServer → RegisteredServer × ρ) (svc : RegisteredServer)
    (packet : Option (List Byte)) : Option (RegisteredServer × Option ρ) :=
  let r := xdrStdRead svc.xdr packet
  if r.1 then some (svcDispatch getpid dispatch { svc with xdr := r.2 }) else none

/-! ## Service functions -/

def svcGetargs {α : Type} (serv : RegisteredServer) (xdrArgs : XdrProc α) (args : α) :
    Bool × RegisteredServer × α :=
  if serv.active ≠ 0 then
    let r := xdrArgs serv.xdr args
    (r.1, { serv with xdr := r.2.1 }, r.2.2)
  else (false, serv, args)

def svcFreeargs {α : Type} (serv : RegisteredServer) (xdrArgs : XdrProc α) (args : α) :
    Bool × RegisteredServer × α :=
  if serv.active ≠ 0 then
    let r := xdrArgs { serv.xdr with xOp := .free } args
    (r.1, { serv with xdr := r.2.1 }, r.2.2)
  else (false, serv, args)

/-- The XID of the reply is that of the incoming message. -/
def svcSendreply {α : Type} (serv : RegisteredServer) (xdrResults : XdrProc α) (location : α) :
    Bool × RegisteredServer × Option (List Byte) :=
  if serv.active ≠ 0 then
    let r := xdrReplyMsgStart { serv.xdr with xOp := .encode } .none
    if !r.1 then (false, { serv with xdr := r.2 }, none)
    else
      let q := xdrResults r.2 location
      if !q.1 then (false, { serv with xdr := q.2.1 }, none)
      else
        let xdr := { q.2.1 with outMsg := q.2.1.outMsg.putWord 0 (q.2.1.inMsg.getWord 0) }
        (true, { serv with xdr := xdr }, some xdr.message)
  else (false, serv, none)

/-- `SVCERR_XDR_SEND` with the status of one of the error functions. -/
def svcerr (stat : RpcAcceptStat) (serv : RegisteredServer) :
    RegisteredServer × Option (List Byte) :=
  if serv.active ≠ 0 then
    let reply := .accepted ⟨serv.xdr.verf, stat, 0, 0⟩
    let r := sendAnd (xdrStdMsgStart serv.xdr .reply) fun xdr => xdrSendReplyHeader xdr reply
    ({ serv with xdr := r.2 }, if r.1 then some r.2.message else none)
  else (serv, none)

def svcerrDecode : RegisteredServer → RegisteredServer × Option (List Byte) := svcerr .garbageArgs
def svcerrSystemerr : RegisteredServer → RegisteredServer × Option (List Byte) := svcerr .systemErr
def svcerrNoproc : RegisteredServer → RegisteredServer × Option (List Byte) := svcerr .procUnavail

/-! ## The reply -/

/-- The handle into which `svc_sendreply` encodes the results. -/
def Xdr.replyStart (xdr : Xdr) : Xdr :=
  (xdrStdMsgStart { xdr with xOp := .encode } .reply).2.emit (wordsBytes (replyWords .success))

theorem Xdr.replyStart_outReady (xdr : Xdr) : xdr.replyStart.OutReady :=
  (xdrStdMsgStart_outReady ..).emit rfl (show (24 : Int) ≤ 2048 by decide)

theorem Xdr.replyStart_message (xdr : Xdr) :
    xdr.replyStart.message
      = wordsBytes (xdr.xid :: RpcMsgType.reply.code :: replyWords .success) := by
  rw [Xdr.replyStart, Xdr.message_emit (xdrStdMsgStart_outReady ..).nonneg, xdrStdMsgStart_message]
  rfl

/-- The first word of a message, written again. -/
theorem Xdr.message_putWord {x : Xdr} {u : Word} {rest : List Byte}
    (h : x.message = Mem.wordBytes u ++ rest) (w : Word) :
    ({ x with outMsg := x.outMsg.putWord 0 w } : Xdr).message = Mem.wordBytes w ++ rest := by
  have hlen : x.outNext.toNat = 4 + rest.length := by
    have hlen := congrArg List.length h
    rw [Xdr.message, Mem.length_slice, List.length_append, Mem.length_wordBytes] at hlen
    exact hlen
  rw [Xdr.message, hlen, Mem.slice_add] at h ⊢
  have hrest := (List.append_inj h (by simp)).2
  refine congrArg₂ _ (Mem.slice_write x.outMsg 0 (Mem.wordBytes w)) ?_
  refine (Mem.slice_congr fun j hlo _ => ?_).trans hrest
  exact Mem.putWord_of_ge (by omega)

/-- Results that can be encoded are sent in a reply with the XID of the message
that was read. -/
theorem svcSendreply_eq (serv : RegisteredServer) {c : Codec} {v : c.Obj} (hwf : c.Wf v)
    (hactive : serv.active ≠ 0) (henc : (c.proc serv.xdr.replyStart v).1 = true) :
    ∃ bs, (svcSendreply serv c.proc v).1 = true
      ∧ (svcSendreply serv c.proc v).2.2
        = some (wordsBytes (serv.xdr.inMsg.getWord 0 :: RpcMsgType.reply.code
            :: replyWords .success) ++ bs)
      ∧ 24 + bs.length ≤ 2048 ∧ Decodes c.proc c.fresh c.Same bs v := by
  rcases hproc : c.proc serv.xdr.replyStart v with ⟨ok, x, v'⟩
  rw [hproc] at henc
  subst henc
  obtain ⟨-, bs, rfl, -, hfit, hdec⟩ := c.faithful rfl serv.xdr.replyStart_outReady hwf hproc
  have hmsg : (serv.xdr.replyStart.emit bs).message
      = Mem.wordBytes serv.xdr.xid
        ++ (wordsBytes (RpcMsgType.reply.code :: replyWords .success) ++ bs) := by
    rw [Xdr.message_emit serv.xdr.replyStart_outReady.nonneg, Xdr.replyStart_message,
      wordsBytes_cons, List.append_assoc]
  have hstart : xdrReplyMsgStart { serv.xdr with xOp := .encode } .none
      = (true, serv.xdr.replyStart) := xdrReplyMsgStart_eq _
  have hnext : serv.xdr.replyStart.outNext = 24 := rfl
  simp only [svcSendreply, if_pos hactive, hstart, hproc, Bool.not_true, Bool.false_eq_true,
    if_false, Xdr.message_putWord hmsg]
  refine ⟨bs, trivial, ?_, by omega, hdec⟩
  rw [wordsBytes_cons _ (_ :: _), List.append_assoc]
  rfl

end HtcLeo
