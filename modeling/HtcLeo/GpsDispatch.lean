import Mathlib.Data.Finset.Basic
import HtcLeo.CString
import HtcLeo.GpsPosition
import HtcLeo.NmeaToken
import HtcLeo.RpcReply
import HtcLeo.SvcRegistry

/-!
# Callbacks of the modem (`dispatch` in `libgps/leo-gps-rpc.c`)

The modem calls back over the connections of the RPC clients. The RX thread
reads a message into the handle of a client, the callback thread of the
client looks for the program in the list of servers, hangs a copy of the
handle into the entry it finds and calls `dispatch`, which tells the HAL
and acknowledges; then it destroys the copy.

The handles keep what earlier messages have left in them, callers encode
into the same handle at the same time, and the threads of other clients
are in the middle of theirs. As long as no two threads are at one entry,
and no entry is removed while a thread is at it, none of this shows:
`callbacks_served` compares the threads with a desk that has no memory but
the messages themselves (`Desk`). Two threads at one entry destroy each
other's copies. What shows in any case is a call for a program that is not
registered: its client reads nothing any more.
-/

namespace HtcLeo

/-- What the HAL is told. -/
inductive PdsmNotice where
  | pdCallback
  | xtraDownloadRequest
deriving DecidableEq

namespace GpsDispatch

/-! ## The service function -/

/-- Without `use_nmea`, satellites and a location would be reported too. -/
def dispatchPdsmPd (m : Mem) (data : Int) : List PdsmNotice :=
  if HtcLeo.dispatchPdsmPd (m.getWord (data + 4 * 2)) (m.getWord (data + 4 * 8)) then [.pdCallback]
  else []

/-- `if (use_nmea) return;` -/
def dispatchPdsmExt (_ : Mem) (_ : Int) : List PdsmNotice := []

def xtraBin : List Byte := "xtra.bin".toList.map ch

def dispatchPdsmXtraReq (m : Mem) (data : Int) : List PdsmNotice :=
  let url := m.slice (data + 0x50) 8 ++ [0]
  if cstr url = xtraBin then [.xtraDownloadRequest] else []

def dispatchPdsm (m : Mem) : List PdsmNotice :=
  let procid := m.getWord (4 * 5)
  if procid = 1 then dispatchPdsmPd m (4 * 10)
  else if procid = 4 then dispatchPdsmExt m (4 * 10)
  else if procid = 5 then dispatchPdsmXtraReq m (4 * 10)
  else []

/-- "No clue what happens here." -/
def dispatchAtl (_ : Mem) : List PdsmNotice := []

def dispatch (_ : SvcReq) (svc : RegisteredServer) :
    RegisteredServer × List PdsmNotice × Option (List Byte) :=
  let data := svc.xdr.inMsg
  let svid := data.getWord (4 * 3)
  let notices :=
    if svid = 0x3100005b then dispatchPdsm data
    else if svid = 0x3100001d then dispatchAtl data
    else []
  let ack := svcSendreply svc xdrInt 0
  (ack.2.1, notices, ack.2.2)

/-! ## The threads -/

/-- Where the callback thread of a client is in `cb_context`; an entry is known by its
program and version. -/
inductive CbPc where
  /-- Waiting for `got_cb`. -/
  | wait
  /-- `svc_find` has returned the entry. -/
  | found (entry : Word × Word)
  /-- The entry has its copy of the handle. -/
  | copied (entry : Word × Word)
  /-- The input buffer is free, before `svc_dispatch`. -/
  | freed (entry : Word × Word)
  /-- Behind `svc_dispatch`. -/
  | served (entry : Word × Word)
deriving DecidableEq

def CbPc.entry : CbPc → Option (Word × Word)
  | wait => none
  | found entry | copied entry | freed entry | served entry => some entry

/-- `*svc_xdr`, and the client whose callback thread is at the entry. -/
structure CbEntry where
  xdr : Option Xdr
  user : Option Nat

/-- The input side of an RPC client. -/
structure CbClient where
  xdr : Xdr
  inputXdrBusy : Bool
  gotCb : Bool
  thread : CbPc

/-- The transport exists, and no client is destroyed. `calls` records the calls that were read,
`sent` the messages of the callback threads. After a `fault` the code works on memory that was
freed. -/
structure CbState where
  xprt : SvcXprt Unit
  entries : Word × Word → CbEntry
  clients : Nat → CbClient
  aborted : Bool
  fault : Bool
  calls : List (Nat × List Byte)
  notices : List PdsmNotice
  sent : List (Nat × List Byte)

def CbState.init (handles : Nat → Xdr) : CbState :=
  ⟨.empty Unit, fun _ => ⟨none, none⟩, fun c => ⟨handles c, false, false, .wait⟩, false, false, [],
    [], []⟩

inductive CbEvent where
  /-- `svc_register` or `svc_unregister`. -/
  | service (call : SvcCall Unit)
  /-- The RX thread, with what `read` gives for the client. -/
  | read (c : Nat) (packet : Option (List Byte))
  /-- A caller has encoded something into the handle. -/
  | caller (c : Nat) (outMsg : Mem) (outNext : Int) (xid : Word)
  /-- A caller has its reply. -/
  | takeReply (c : Nat)
  /-- The callback thread, with what `dup` gives it; `active` is what `malloc` has left in the
  entry. -/
  | callback (c : Nat) (fd active : Int)

def CbState.setClient (s : CbState) (c : Nat) (client : CbClient) : CbState :=
  { s with clients := Function.update s.clients c client }

/-- `svc_register` gives a new entry its handle, and `svc_unregister` frees an entry,
whoever is at it. -/
def CbState.service (s : CbState) (call : SvcCall Unit) : CbState :=
  let s' := { s with xprt := svcStep s.xprt call }
  match call with
  | .register prog vers _ _ =>
      match s.xprt.svcFind prog vers with
      | some _ => s'
      | none =>
          { s' with
            entries := Function.update s.entries (prog, vers)
              ⟨(s'.xprt.svcFind prog vers).bind ServerEntry.xdr, none⟩ }
  | .unregister prog vers _ => { s' with fault := (s.entries (prog, vers)).user.isSome }

/-- A message that was read: it goes to a caller or to the callback thread. The RX thread
waits for the lock of the latter, which looks at `got_cb` only when it waits itself. -/
def CbState.readMessage (s : CbState) (c : Nat) (xdr : Xdr) : CbState :=
  let client := s.clients c
  if xdr.inMsg.getWord 4 = RpcMsgType.reply.code then
    s.setClient c { client with xdr := xdr, inputXdrBusy := true }
  else
    { s.setClient c { client with xdr := xdr, inputXdrBusy := true, gotCb := true } with
      calls := s.calls ++ [(c, xdr.inMsg.slice 0 xdr.inLen.toNat)] }

/-- `svc_find` for the program and version of the message. A call without a server leaves the
buffer busy. -/
def CbState.findServer (s : CbState) (c : Nat) : CbState :=
  let client := s.clients c
  let entry := (client.xdr.inMsg.getWord 12, client.xdr.inMsg.getWord 16)
  match s.xprt.svcFind entry.1 entry.2 with
  | none => s.setClient c { client with gotCb := false }
  | some _ =>
      { s.setClient c { client with gotCb := false, thread := .found entry } with
        entries := Function.update s.entries entry { s.entries entry with user := some c } }

/-- The loop of `cb_context`, one step. A handle that stands in the entry is destroyed, and it
is another's; without a descriptor for the copy there is none to write to. -/
def CbState.callback (getpid : Int) (s : CbState) (c : Nat) (fd active : Int) : CbState :=
  let client := s.clients c
  match client.thread with
  | .wait => if client.gotCb then s.findServer c else s
  | .found entry =>
      if (s.entries entry).xdr.isSome ∨ fd < 0 then { s with fault := true }
      else
        { s.setClient c { client with thread := .copied entry } with
          entries := Function.update s.entries entry
            { s.entries entry with xdr := some (cbTransplant client.xdr fd) } }
  | .copied entry => s.setClient c { client with inputXdrBusy := false, thread := .freed entry }
  | .freed entry =>
      match (s.entries entry).xdr with
      | none => { s with fault := true }
      | some xdr =>
          let r := svcDispatch getpid dispatch ⟨xdr, entry.1, entry.2, active⟩
          { s.setClient c { client with thread := .served entry } with
            entries := Function.update s.entries entry
              { s.entries entry with xdr := some r.1.xdr }
            notices := s.notices ++ r.2.elim [] Prod.fst
            sent := s.sent ++ ((r.2.bind Prod.snd).toList.map fun message => (c, message)) }
  | .served entry =>
      if (s.entries entry).xdr.isSome then
        { s.setClient c { client with thread := .wait } with
          entries := Function.update s.entries entry ⟨none, none⟩ }
      else { s with fault := true }

def cbStep (getpid : Int) (s : CbState) (e : CbEvent) : CbState :=
  if s.aborted ∨ s.fault then s
  else
    match e with
    | .service call => s.service call
    | .read c packet =>
        if (s.clients c).inputXdrBusy then s
        else
          let r := xdrStdRead (s.clients c).xdr packet
          if r.1 then s.readMessage c r.2 else { s with aborted := true }
    | .caller c outMsg outNext xid =>
        let client := s.clients c
        s.setClient c { client with
          xdr := { client.xdr with outMsg := outMsg, outNext := outNext, xid := xid } }
    | .takeReply c =>
        let client := s.clients c
        if client.inputXdrBusy ∧ client.xdr.inMsg.getWord 4 = RpcMsgType.reply.code then
          s.setClient c { client with inputXdrBusy := false }
        else s
    | .callback c fd active => s.callback getpid c fd active

/-! ## The desk -/

/-- The line of a client: the message that it is occupied with. -/
inductive Line where
  | free
  | reply
  | call (message : List Byte)
  /-- The call is at the desk. -/
  | taken
  /-- Nobody will take this call. -/
  | stuck (message : List Byte)

/-- What the desk has in hand for a client. -/
inductive Hand where
  | empty
  | taken (message : List Byte)
  | copied (message : List Byte)
  | ready (message : List Byte)
  | answered

/-- The calls of a line that were not taken. -/
def Line.waiting : Line → List (List Byte)
  | .free | .reply | .taken => []
  | .call message | .stuck message => [message]

/-- The calls in hand that were not answered. -/
def Hand.waiting : Hand → List (List Byte)
  | .empty | .answered => []
  | .taken message | .copied message | .ready message => [message]

structure Desk where
  programs : Finset (Word × Word)
  lines : Nat → Line
  hands : Nat → Hand
  closed : Bool
  calls : List (Nat × List Byte)
  notices : List PdsmNotice
  sent : List (Nat × List Byte)

def Desk.empty : Desk := ⟨∅, fun _ => .free, fun _ => .empty, false, [], [], []⟩

/-- What waits for a client, at the desk and on its line. -/
def Desk.waiting (d : Desk) (c : Nat) : List (List Byte) :=
  (d.hands c).waiting ++ (d.lines c).waiting

/-- What a call has for the HAL: that positioning has ended without a fix, or that XTRA
data is wanted. -/
def noticesOf (message : List Byte) : List PdsmNotice :=
  if wordAt message 3 = 0x3100005b then
    if wordAt message 5 = 1 then
      if NoFix (wordAt message 12) ∧ wordAt message 12 &&& pdsmPdEventDone ≠ 0 then [.pdCallback]
      else []
    else if wordAt message 5 = 5 ∧ (message.drop 120).take 8 = xtraBin then [.xtraDownloadRequest]
    else []
  else []

/-- The acknowledgement: the number of the call, success, and a result of 0. -/
def ackOf (message : List Byte) : List Byte :=
  wordsBytes (wordAt message 0 :: RpcMsgType.reply.code :: (replyWords .success ++ [0]))

def IsCall (message : List Byte) : Bool := wordAt message 1 = RpcMsgType.call.code

/-- The program and the version that a call is for. -/
def programOf (message : List Byte) : Word × Word := (wordAt message 3, wordAt message 4)

def Desk.setSeat (d : Desk) (c : Nat) (line : Line) (hand : Hand) : Desk :=
  { d with lines := Function.update d.lines c line, hands := Function.update d.hands c hand }

instance (io : RegisterIo) (prog : Word) : Decidable (io.Accepts prog) :=
  inferInstanceAs (Decidable (_ ∨ _ ∧ _))

def Desk.service (d : Desk) : SvcCall Unit → Desk
  | .register prog vers _ io =>
      if io.Accepts prog then { d with programs := insert (prog, vers) d.programs } else d
  | .unregister prog vers _ => { d with programs := d.programs.erase (prog, vers) }

def Desk.read (d : Desk) (c : Nat) : Option (List Byte) → Desk
  | none => { d with closed := true }
  | some packet =>
      let message := packet.take 2048
      if message.length < 8 then { d with closed := true }
      else if wordAt message 1 = RpcMsgType.reply.code then d.setSeat c .reply (d.hands c)
      else
        { d.setSeat c (.call message) (d.hands c) with calls := d.calls ++ [(c, message)] }

/-- A call that is taken is copied, leaves the line, is answered, and leaves the hand. -/
def Desk.callback (d : Desk) (c : Nat) : Desk :=
  match d.hands c with
  | .empty =>
      match d.lines c with
      | .call message =>
          if programOf message ∈ d.programs then d.setSeat c .taken (.taken message)
          else d.setSeat c (.stuck message) .empty
      | _ => d
  | .taken message => d.setSeat c (d.lines c) (.copied message)
  | .copied message =>
      match d.lines c with
      | .taken => d.setSeat c .free (.ready message)
      | _ => d
  | .ready message =>
      if IsCall message then
        { d.setSeat c (d.lines c) .answered with
          notices := d.notices ++ noticesOf message
          sent := d.sent ++ [(c, ackOf message)] }
      else d.setSeat c (d.lines c) .answered
  | .answered => d.setSeat c (d.lines c) .empty

def deskStep (d : Desk) (e : CbEvent) : Desk :=
  if d.closed then d
  else
    match e with
    | .service call => d.service call
    | .read c packet =>
        match d.lines c with
        | .free => d.read c packet
        | _ => d
    | .caller .. => d
    | .takeReply c =>
        match d.lines c with
        | .reply => d.setSeat c .free (d.hands c)
        | _ => d
    | .callback c _ _ => d.callback c

/-! ## One call -/

theorem dispatchPdsmPd_iff (event timestamp : Word) :
    HtcLeo.dispatchPdsmPd event timestamp = true ↔
      NoFix event ∧ event &&& pdsmPdEventDone ≠ 0 := by
  by_cases hfix : NoFix event
  · refine ⟨fun hdone => ⟨hfix, ?_⟩, fun h => dispatchPdsmPd_noFix timestamp hfix h.2⟩
    simpa [HtcLeo.dispatchPdsmPd, hfix.1, hfix.2.1, hfix.2.2] using hdone
  · rw [dispatchPdsmPd_fix timestamp hfix]
    exact iff_of_false Bool.false_ne_true fun h => hfix h.1

/-- Eight bytes with a NUL behind them spell the name only as they are. -/
theorem cstr_eq_xtraBin {url : List Byte} (hlen : url.length = 8) :
    cstr (url ++ [0]) = xtraBin ↔ url = xtraBin := by
  rw [cstr_append_zero]
  constructor
  · intro h
    have hpre : xtraBin <+: url := h ▸ List.takeWhile_prefix _
    exact (hpre.eq_of_length (hlen ▸ rfl)).symm
  · rintro rfl
    exact cstr_eq_self (by decide)

/-- The name is found exactly in a message that is long enough for it. -/
theorem slice_eq_xtraBin (message : List Byte) :
    Mem.slice (Mem.write (fun _ => 0) 0 message) 120 8 = xtraBin ↔
      (message.drop 120).take 8 = xtraBin := by
  by_cases hlen : 128 ≤ message.length
  · have hwhole := Mem.slice_write (fun _ => 0) 0 message
    have hpart : (message.drop 120).take 8
        = Mem.slice (Mem.write (fun _ => 0) 0 message) 120 8 := by
      conv_lhs => rw [← hwhole]
      rw [Mem.drop_slice (by omega), Mem.take_slice (by omega)]
      rfl
    rw [hpart]
  · refine iff_of_false (fun h => ?_) fun h => ?_
    · have hlast := Mem.getElem?_slice (m := Mem.write (fun _ => 0) 0 message) (i := 120)
        (show 7 < 8 by decide)
      rw [h, Mem.write_of_ge (by push_cast; omega)] at hlast
      exact absurd hlast (by decide)
    · have hshort := congrArg List.length h
      rw [List.length_take, List.length_drop] at hshort
      have height : xtraBin.length = 8 := rfl
      omega

theorem dispatchPdsm_eq {message : List Byte} (hprog : wordAt message 3 = 0x3100005b) :
    dispatchPdsm (Mem.write (fun _ => 0) 0 message) = noticesOf message := by
  rw [noticesOf, if_pos hprog]
  change (if wordAt message 5 = 1 then
      if HtcLeo.dispatchPdsmPd (wordAt message 12) (wordAt message 18) then [.pdCallback] else []
    else if wordAt message 5 = 4 then []
    else if wordAt message 5 = 5 then
      if cstr (Mem.slice (Mem.write (fun _ => 0) 0 message) 120 8 ++ [0]) = xtraBin then
        [PdsmNotice.xtraDownloadRequest]
      else []
    else []) = _
  simp only [dispatchPdsmPd_iff, cstr_eq_xtraBin (Mem.length_slice ..), slice_eq_xtraBin]
  by_cases hpd : wordAt message 5 = 1
  · rw [if_pos hpd, if_pos hpd]
  · rw [if_neg hpd, if_neg hpd]
    by_cases hext : wordAt message 5 = 4
    · rw [if_pos hext, hext, if_neg (by rintro ⟨h, -⟩; cases h)]
    · rw [if_neg hext]
      by_cases hxtra : wordAt message 5 = 5
      · simp only [hxtra, if_true, true_and]
      · rw [if_neg hxtra, if_neg fun h => hxtra h.1]

theorem dispatch_notices (req : SvcReq) {svc : RegisteredServer} {message : List Byte}
    (h : svc.xdr.inMsg = Mem.write (fun _ => 0) 0 message) :
    (dispatch req svc).2.1 = noticesOf message := by
  change (if svc.xdr.inMsg.getWord (4 * 3) = 0x3100005b then dispatchPdsm svc.xdr.inMsg
    else if svc.xdr.inMsg.getWord (4 * 3) = 0x3100001d then [] else []) = _
  rw [h, ite_self]
  change (if wordAt message 3 = 0x3100005b then _ else _) = _
  split_ifs with hprog
  · exact dispatchPdsm_eq hprog
  · rw [noticesOf, if_neg hprog]

theorem dispatch_ack (req : SvcReq) {svc : RegisteredServer} {message : List Byte}
    (hactive : svc.active ≠ 0) (h : svc.xdr.inMsg = Mem.write (fun _ => 0) 0 message) :
    (dispatch req svc).2.2 = some (ackOf message) := by
  have hstart : xdrReplyMsgStart { svc.xdr with xOp := .encode } .none
      = (true, svc.xdr.replyStart) := xdrReplyMsgStart_eq _
  have hnext : svc.xdr.replyStart.outNext = 24 := rfl
  have hint : xdrInt svc.xdr.replyStart 0
      = (true, svc.xdr.replyStart.emit (Mem.wordBytes 0), 0) := by
    change ((xdrStdSendUint32 svc.xdr.replyStart 0).1, (xdrStdSendUint32 svc.xdr.replyStart 0).2,
      (0 : Word)) = _
    rw [xdrStdSendUint32_eq 0 (by omega)]
  have hmsg : (svc.xdr.replyStart.emit (Mem.wordBytes 0)).message
      = Mem.wordBytes svc.xdr.xid
        ++ (wordsBytes (RpcMsgType.reply.code :: replyWords .success) ++ Mem.wordBytes 0) := by
    rw [Xdr.message_emit svc.xdr.replyStart_outReady.nonneg, Xdr.replyStart_message,
      wordsBytes_cons, List.append_assoc]
  change (svcSendreply svc xdrInt 0).2.2 = _
  simp only [svcSendreply, if_pos hactive, hstart, hint, Bool.not_true, Bool.false_eq_true,
    if_false, Xdr.message_putWord hmsg]
  change some (Mem.wordBytes (svc.xdr.inMsg.getWord 0) ++ _) = _
  rw [h]
  rfl

/-! ## The copy of the callback thread -/

/-- The handle holds the message; behind it there may be anything. -/
structure InputIs (x : Xdr) (message : List Byte) : Prop where
  inMsg : ∃ m : Mem, x.inMsg = m.write 0 message
  inLen : x.inLen = message.length

/-- The callback thread has a copy of the message alone. -/
theorem InputIs.cbTransplant {x : Xdr} {message : List Byte} (h : InputIs x message) (fd : Int) :
    (cbTransplant x fd).inMsg = Mem.write (fun _ => 0) 0 message := by
  obtain ⟨m, hm⟩ := h.inMsg
  change Mem.write _ 0 (x.inMsg.slice 0 x.inLen.toNat) = _
  rw [hm, h.inLen, Int.toNat_natCast, Mem.slice_write]
  rfl

theorem InputIs.getWord {x : Xdr} {message : List Byte} (h : InputIs x message) {i : Nat}
    (hi : 4 * i + 4 ≤ message.length) : x.inMsg.getWord (4 * i) = wordAt message i := by
  obtain ⟨m, hm⟩ := h.inMsg
  rw [hm, getWord_write_own hi]

theorem cbContext_dispatch {getpid : Int} (hpid : getpid ≠ 0) {x : Xdr} {message : List Byte}
    (h : InputIs x message) (hlen : 20 ≤ message.length) (fd active : Int) :
    (cbContext getpid dispatch x fd active).2
      = if IsCall message then some (noticesOf message, some (ackOf message)) else none := by
  have hcopy := h.cbTransplant fd
  have hprog : x.inMsg.getWord 12 = wordAt message 3 := h.getWord (i := 3) (by omega)
  have hvers : x.inMsg.getWord 16 = wordAt message 4 := h.getWord (i := 4) (by omega)
  have htype : (cbTransplant x fd).inMsg.getWord 4 = wordAt message 1 := by
    rw [hcopy]
    rfl
  have hprog' : (cbTransplant x fd).inMsg.getWord 12 = x.inMsg.getWord 12 := by
    rw [hprog, hcopy]
    rfl
  have hvers' : (cbTransplant x fd).inMsg.getWord 16 = (cbTransplant x fd).xVers := by
    refine Eq.trans ?_ hvers.symm
    rw [hcopy]
    rfl
  rw [cbContext, svcDispatch, svcDispatchBegin]
  simp only [htype, hprog', hvers', ne_eq, not_true_eq_false, if_false]
  by_cases hcall : wordAt message 1 = RpcMsgType.call.code
  · rw [if_neg (not_not.mpr hcall), IsCall, if_pos (decide_eq_true hcall)]
    exact congrArg some (Prod.ext (dispatch_notices _ hcopy) (dispatch_ack _ hpid hcopy))
  · rw [if_pos hcall, IsCall, if_neg (by simpa using hcall)]

/-! ## The threads and the desk -/

/-- The client whose line is that. -/
def LineShows (client : CbClient) : Line → Prop
  | .free => client.inputXdrBusy = false ∧ client.gotCb = false
  | .reply =>
      client.inputXdrBusy = true ∧ client.gotCb = false
        ∧ client.xdr.inMsg.getWord 4 = RpcMsgType.reply.code
  | .call message =>
      client.inputXdrBusy = true ∧ client.gotCb = true
        ∧ client.xdr.inMsg.getWord 4 ≠ RpcMsgType.reply.code
        ∧ InputIs client.xdr message ∧ 20 ≤ message.length
  | .taken | .stuck _ =>
      client.inputXdrBusy = true ∧ client.gotCb = false
        ∧ client.xdr.inMsg.getWord 4 ≠ RpcMsgType.reply.code

theorem LineShows.setThread {client : CbClient} {line : Line} (h : LineShows client line)
    (thread : CbPc) : LineShows { client with thread := thread } line := by
  cases line <;> exact h

/-- The entry has a copy of a handle that holds the message. -/
def HasCopy (entry : CbEntry) (message : List Byte) : Prop :=
  ∃ x fd, entry.xdr = some (cbTransplant x fd) ∧ InputIs x message ∧ 20 ≤ message.length

/-- The client for which the desk has that in hand, and its line. -/
def HandShows (entries : Word × Word → CbEntry) (client : CbClient) (line : Line) : Hand → Prop
  | .empty => line ≠ .taken ∧ client.thread = .wait
  | .taken message =>
      line = .taken ∧ client.thread = .found (programOf message)
        ∧ (entries (programOf message)).xdr = none ∧ InputIs client.xdr message
        ∧ 20 ≤ message.length
  | .copied message =>
      line = .taken ∧ client.thread = .copied (programOf message)
        ∧ HasCopy (entries (programOf message)) message
  | .ready message =>
      line ≠ .taken ∧ client.thread = .freed (programOf message)
        ∧ HasCopy (entries (programOf message)) message
  | .answered =>
      line ≠ .taken ∧ ∃ entry, client.thread = .served entry
        ∧ (entries entry).xdr.isSome = true

/-- Every entry knows the thread that is at it. -/
def Users (clients : Nat → CbClient) (entries : Word × Word → CbEntry) : Prop :=
  ∀ c entry, (clients c).thread.entry = some entry ↔ (entries entry).user = some c

structure Shows (s : CbState) (d : Desk) : Prop where
  inv : s.xprt.Inv
  programs : ∀ prog vers, (s.xprt.svcFind prog vers).isSome ↔ (prog, vers) ∈ d.programs
  lines : ∀ c, LineShows (s.clients c) (d.lines c)
  hands : ∀ c, HandShows s.entries (s.clients c) (d.lines c) (d.hands c)
  users : Users s.clients s.entries
  /-- The entry that a thread is at is registered. -/
  known : ∀ entry, (s.entries entry).user.isSome = true → entry ∈ d.programs
  /-- An entry that no thread is at has no handle. -/
  bare : ∀ entry, (s.entries entry).user = none → (s.entries entry).xdr = none
  aborted : s.aborted = d.closed
  fault : s.fault = false
  calls : s.calls = d.calls
  notices : s.notices = d.notices
  sent : s.sent = d.sent

/-- No other thread is at the entry that the thread finds, and `dup` gives a descriptor. -/
def CallbackSound (s : CbState) (c : Nat) (fd : Int) : CbPc → Prop
  | .wait =>
      (s.clients c).gotCb = true →
        (s.entries ((s.clients c).xdr.inMsg.getWord 12, (s.clients c).xdr.inMsg.getWord 16)).user
          = none
  | .found _ => 0 ≤ fd
  | .copied _ | .freed _ | .served _ => True

instance (s : CbState) (c : Nat) (fd : Int) : (pc : CbPc) → Decidable (CallbackSound s c fd pc)
  | .wait => inferInstanceAs (Decidable (_ → _))
  | .found _ => inferInstanceAs (Decidable (_ ≤ _))
  | .copied _ | .freed _ | .served _ => inferInstanceAs (Decidable True)

/-- The system gives fresh memory and descriptors, and no message ends between its type and
its version. The programs are callback clients, no entry is removed while a thread is at it,
and no two threads are at one entry. -/
def Sound (s : CbState) : CbEvent → Prop
  | .service (.register prog vers dispatch io) =>
      SvcCall.Fresh s.xprt (.register prog vers dispatch io) ∧ isCallback prog = true
  | .service (.unregister prog vers _) => (s.entries (prog, vers)).user = none
  | .read _ (some packet) => packet.length < 8 ∨ 20 ≤ packet.length
  | .callback c fd _ => CallbackSound s c fd (s.clients c).thread
  | .read _ none | .caller .. | .takeReply _ => True

instance (s : CbState) : (e : CbEvent) → Decidable (Sound s e)
  | .service (.register ..) => inferInstanceAs (Decidable (_ ∧ _))
  | .service (.unregister ..) => inferInstanceAs (Decidable (_ = none))
  | .read _ (some _) => inferInstanceAs (Decidable (_ ∨ _))
  | .callback c fd _ => inferInstanceAs (Decidable (CallbackSound s c fd (s.clients c).thread))
  | .read _ none | .caller .. | .takeReply _ => inferInstanceAs (Decidable True)

/-! ## Who is at an entry -/

section Users

variable {clients : Nat → CbClient} {entries : Word × Word → CbEntry} {c : Nat} {client : CbClient}
  {entry : Word × Word}

theorem Users.keep (h : Users clients entries)
    (hsame : client.thread.entry = (clients c).thread.entry) {entries' : Word × Word → CbEntry}
    (huser : ∀ entry, (entries' entry).user = (entries entry).user) :
    Users (Function.update clients c client) entries' := by
  intro c' entry
  rw [huser, ← h c' entry]
  by_cases hc : c' = c
  · subst hc
    rw [Function.update_self, hsame]
  · rw [Function.update_of_ne hc]

/-- A thread comes to an entry that nobody is at. -/
theorem Users.claim (h : Users clients entries) (hnone : (clients c).thread.entry = none)
    (hclient : client.thread.entry = some entry) (hfree : (entries entry).user = none)
    (xdr : Option Xdr) :
    Users (Function.update clients c client) (Function.update entries entry ⟨xdr, some c⟩) := by
  intro c' entry'
  have hold := h c' entry'
  by_cases hc : c' = c
  · subst hc
    rw [hnone] at hold
    rw [Function.update_self, hclient]
    by_cases he : entry' = entry
    · subst he
      simp
    · rw [Function.update_of_ne he, ← hold]
      simp [Ne.symm he]
  · rw [Function.update_of_ne hc, hold]
    by_cases he : entry' = entry
    · subst he
      rw [hfree, Function.update_self]
      simp [Ne.symm hc]
    · rw [Function.update_of_ne he]

/-- The thread leaves its entry. -/
theorem Users.release (h : Users clients entries) (hentry : (clients c).thread.entry = some entry)
    (hclient : client.thread.entry = none) :
    Users (Function.update clients c client) (Function.update entries entry ⟨none, none⟩) := by
  intro c' entry'
  have hold := h c' entry'
  have huser := (h c entry).mp hentry
  by_cases hc : c' = c
  · subst hc
    rw [hentry] at hold
    rw [Function.update_self, hclient]
    by_cases he : entry' = entry
    · subst he
      simp
    · rw [Function.update_of_ne he, ← hold]
      simp [Ne.symm he]
  · rw [Function.update_of_ne hc, hold]
    by_cases he : entry' = entry
    · subst he
      rw [huser, Function.update_self]
      simp [Ne.symm hc]
    · rw [Function.update_of_ne he]

/-- What happens to an entry does not concern the threads that are at others. -/
theorem HandShows.frame {line : Line} {hand : Hand} (h : HandShows entries client line hand)
    {entries' : Word × Word → CbEntry}
    (hsame : ∀ entry, client.thread.entry = some entry → entries' entry = entries entry) :
    HandShows entries' client line hand := by
  cases hand with
  | empty => exact h
  | taken message =>
      obtain ⟨hline, hthread, hxdr, hin⟩ := h
      refine ⟨hline, hthread, ?_, hin⟩
      rwa [hsame _ (by rw [hthread]; rfl)]
  | copied message =>
      obtain ⟨hline, hthread, hcopy⟩ := h
      refine ⟨hline, hthread, ?_⟩
      rwa [hsame _ (by rw [hthread]; rfl)]
  | ready message =>
      obtain ⟨hline, hthread, hcopy⟩ := h
      refine ⟨hline, hthread, ?_⟩
      rwa [hsame _ (by rw [hthread]; rfl)]
  | answered =>
      obtain ⟨hline, entry, hthread, hxdr⟩ := h
      refine ⟨hline, entry, hthread, ?_⟩
      rwa [hsame _ (by rw [hthread]; rfl)]

end Users

/-- No two threads are at one entry. -/
theorem Shows.apart {s : CbState} {d : Desk} (h : Shows s d) {c c' : Nat} (hc : c' ≠ c)
    {entry entry' : Word × Word} (huser : (s.entries entry).user = some c)
    (hother : (s.clients c').thread.entry = some entry') : entry' ≠ entry := by
  rintro rfl
  have huser' := (h.users c' entry').mp hother
  rw [huser] at huser'
  exact hc (Option.some.inj huser').symm

/-- One client moves, and no entry but its own changes. -/
theorem Shows.move {s : CbState} {d : Desk} (h : Shows s d) (c : Nat) {client : CbClient}
    {line : Line} {hand : Hand} {entries' : Word × Word → CbEntry}
    (hline : LineShows client line) (hhand : HandShows entries' client line hand)
    (hothers : ∀ c', c' ≠ c → ∀ entry, (s.clients c').thread.entry = some entry →
      entries' entry = s.entries entry)
    (husers : Users (Function.update s.clients c client) entries')
    (hknown : ∀ entry, (entries' entry).user.isSome = true → entry ∈ d.programs)
    (hbare : ∀ entry, (entries' entry).user = none → (entries' entry).xdr = none) :
    Shows { s.setClient c client with entries := entries' } (d.setSeat c line hand) where
  inv := h.inv
  programs := h.programs
  lines c' := by
    by_cases hc : c' = c
    · subst hc
      simpa [CbState.setClient, Desk.setSeat] using hline
    · simpa [CbState.setClient, Desk.setSeat, hc] using h.lines c'
  hands c' := by
    by_cases hc : c' = c
    · subst hc
      simpa [CbState.setClient, Desk.setSeat] using hhand
    · simpa [CbState.setClient, Desk.setSeat, hc] using (h.hands c').frame (hothers c' hc)
  users := husers
  known := hknown
  bare := hbare
  aborted := h.aborted
  fault := h.fault
  calls := h.calls
  notices := h.notices
  sent := h.sent

/-- One client moves, and no entry changes. -/
theorem Shows.moveClient {s : CbState} {d : Desk} (h : Shows s d) (c : Nat) {client : CbClient}
    {line : Line} {hand : Hand} (hline : LineShows client line)
    (hhand : HandShows s.entries client line hand)
    (hsame : client.thread.entry = (s.clients c).thread.entry) :
    Shows (s.setClient c client) (d.setSeat c line hand) :=
  h.move c hline hhand (fun _ _ _ _ => rfl) (h.users.keep hsame fun _ => rfl) h.known h.bare

/-- A thread works on the handle of its entry. -/
theorem Shows.moveEntry {s : CbState} {d : Desk} (h : Shows s d) (c : Nat) {client : CbClient}
    {line : Line} {hand : Hand} {entry : Word × Word} {xdr : Option Xdr}
    (hentry : (s.clients c).thread.entry = some entry)
    (hsame : client.thread.entry = (s.clients c).thread.entry) (hline : LineShows client line)
    (hhand : HandShows (Function.update s.entries entry { s.entries entry with xdr := xdr }) client
      line hand) :
    Shows { s.setClient c client with
      entries := Function.update s.entries entry { s.entries entry with xdr := xdr } }
      (d.setSeat c line hand) := by
  have huser := (h.users c entry).mp hentry
  have husers : ∀ entry', (Function.update s.entries entry { s.entries entry with xdr := xdr }
      entry').user = (s.entries entry').user := by
    intro entry'
    by_cases he : entry' = entry
    · rw [he, Function.update_self]
    · rw [Function.update_of_ne he]
  refine h.move c hline hhand (fun c' hc entry' hother => ?_) (h.users.keep hsame husers)
    (fun entry' hsome => h.known entry' (by rwa [husers] at hsome)) fun entry' hnone => ?_
  · exact Function.update_of_ne (h.apart hc huser hother) _ _
  · rw [husers] at hnone
    have he : entry' ≠ entry := by
      rintro rfl
      rw [huser] at hnone
      cases hnone
    rw [Function.update_of_ne he]
    exact h.bare entry' hnone

/-! ## The steps -/

/-- The programs after a call, and what it leaves alone. -/
theorem Desk.service_programs {s : CbState} {d : Desk} (h : Shows s d) (call : SvcCall Unit) :
    ∀ prog vers, ((svcStep s.xprt call).svcFind prog vers).isSome ↔
      (prog, vers) ∈ (d.service call).programs := by
  intro prog vers
  rw [svcStep_find prog vers s.xprt call h.inv, h.programs]
  cases call with
  | register p v dispatch io =>
      simp only [SvcCall.Inserts, SvcCall.Removes, Desk.service]
      split_ifs with hio
      · simp [hio, Prod.ext_iff, eq_comm]
      · simp [hio]
  | unregister p v ioctl =>
      simp only [SvcCall.Inserts, SvcCall.Removes, Desk.service, Finset.mem_erase]
      simp [Prod.ext_iff, eq_comm, and_comm]

/-- The entry of a callback client is made without a handle. -/
theorem svcRegister_bare {xprt : SvcXprt Unit} {prog vers : Word} {dispatch : Unit}
    {io : RegisterIo} (hcallback : isCallback prog = true)
    (hnone : xprt.svcFind prog vers = none) :
    ((svcStep xprt (.register prog vers dispatch io)).svcFind prog vers).bind ServerEntry.xdr
      = none := by
  rcases svcRegister_cases xprt prog vers dispatch io with
    ⟨hsame, -⟩ | ⟨-, -, hinsert⟩ | ⟨-, hreal, -⟩
  · rw [svcStep, hsame, hnone]
    rfl
  · rw [svcStep, hinsert, svcFind_eq_find?]
    simp [SvcXprt.insert, ServerEntry.isFor]
  · rw [hcallback] at hreal
    cases hreal

theorem Shows.register {s : CbState} {d : Desk} (h : Shows s d) {prog vers : Word}
    {dispatch : Unit} {io : RegisterIo}
    (hfresh : SvcCall.Fresh s.xprt (.register prog vers dispatch io))
    (hcallback : isCallback prog = true) :
    Shows (s.service (.register prog vers dispatch io))
      (d.service (.register prog vers dispatch io)) := by
  have hprograms := Desk.service_programs h (.register prog vers dispatch io)
  have hinv := svcStep_inv s.xprt _ h.inv hfresh
  have hmore : d.service (.register prog vers dispatch io)
      = { d with programs := insert (prog, vers) d.programs } := if_pos (.inl hcallback)
  rw [hmore] at hprograms ⊢
  have hknown : ∀ entry, (s.entries entry).user.isSome = true →
      entry ∈ insert (prog, vers) d.programs :=
    fun entry hsome => Finset.mem_insert_of_mem (h.known entry hsome)
  cases hfind : s.xprt.svcFind prog vers with
  | some svc =>
      simp only [CbState.service, hfind]
      exact ⟨hinv, hprograms, h.lines, h.hands, h.users, hknown, h.bare, h.aborted, h.fault,
        h.calls, h.notices, h.sent⟩
  | none =>
      -- nobody is at an entry that does not exist
      have huser : (s.entries (prog, vers)).user = none := by
        cases huser : (s.entries (prog, vers)).user with
        | none => rfl
        | some c =>
            have hmem := (h.programs prog vers).mpr (h.known (prog, vers) (by rw [huser]; rfl))
            rw [hfind] at hmem
            cases hmem
      have hsame : Function.update s.entries (prog, vers)
          ⟨((svcStep s.xprt (.register prog vers dispatch io)).svcFind prog vers).bind
            ServerEntry.xdr, none⟩ = s.entries := by
        rw [svcRegister_bare hcallback hfind]
        refine Function.update_eq_iff.mpr ⟨?_, fun _ _ => rfl⟩
        rw [← huser, ← h.bare _ huser]
      simp only [CbState.service, hfind, hsame]
      exact ⟨hinv, hprograms, h.lines, h.hands, h.users, hknown, h.bare, h.aborted, h.fault,
        h.calls, h.notices, h.sent⟩

theorem Shows.unregister {s : CbState} {d : Desk} (h : Shows s d) {prog vers : Word} {ioctl : Int}
    (hfree : (s.entries (prog, vers)).user = none) :
    Shows (s.service (.unregister prog vers ioctl)) (d.service (.unregister prog vers ioctl)) := by
  have hprograms := Desk.service_programs h (.unregister prog vers ioctl)
  have hinv := svcStep_inv s.xprt (.unregister prog vers ioctl) h.inv trivial
  refine ⟨hinv, hprograms, h.lines, h.hands, h.users, fun entry hsome => ?_, h.bare, h.aborted, ?_,
    h.calls, h.notices, h.sent⟩
  · refine Finset.mem_erase.mpr ⟨?_, h.known entry hsome⟩
    rintro rfl
    rw [show (s.service (.unregister prog vers ioctl)).entries = s.entries from rfl, hfree] at hsome
    cases hsome
  · rw [CbState.service, hfree]
    rfl

/-- What `read` leaves in the handle. -/
theorem xdrStdRead_inputIs {x : Xdr} {packet : List Byte} (hlen : ¬ (packet.take 2048).length < 8) :
    (xdrStdRead x (some packet)).1 = true
      ∧ InputIs (xdrStdRead x (some packet)).2 (packet.take 2048) := by
  have hlen' : ¬ (packet.take rpcrouterMsgsizeMax.toNat).length < 8 := hlen
  simp only [xdrStdRead, if_neg hlen']
  exact ⟨trivial, ⟨⟨x.inMsg, rfl⟩, rfl⟩⟩

theorem InputIs.slice {x : Xdr} {message : List Byte} (h : InputIs x message) :
    x.inMsg.slice 0 x.inLen.toNat = message := by
  obtain ⟨m, hm⟩ := h.inMsg
  rw [hm, h.inLen, Int.toNat_natCast, Mem.slice_write]

/-- On a line that is free, the hand has nothing to do with the handle. -/
theorem HandShows.read {entries : Word × Word → CbEntry} {client client' : CbClient} {line : Line}
    {hand : Hand} (h : HandShows entries client .free hand) (hline : line ≠ .taken)
    (hthread : client'.thread = client.thread) : HandShows entries client' line hand := by
  cases hand with
  | empty => exact ⟨hline, hthread.trans h.2⟩
  | taken message => cases h.1
  | copied message => cases h.1
  | ready message => exact ⟨hline, hthread.trans h.2.1, h.2.2⟩
  | answered =>
      obtain ⟨-, entry, hserved, hxdr⟩ := h
      exact ⟨hline, entry, hthread.trans hserved, hxdr⟩

theorem Shows.read {s : CbState} {d : Desk} (h : Shows s d) (c : Nat)
    {packet : Option (List Byte)} (hsound : Sound s (.read c packet)) (hfree : d.lines c = .free) :
    Shows (let r := xdrStdRead (s.clients c).xdr packet
      if r.1 then s.readMessage c r.2 else { s with aborted := true }) (d.read c packet) := by
  have hline := h.lines c
  have hhand := h.hands c
  rw [hfree] at hline hhand
  have habort : Shows { s with aborted := true } { d with closed := true } :=
    ⟨h.inv, h.programs, h.lines, h.hands, h.users, h.known, h.bare, rfl, h.fault, h.calls,
      h.notices, h.sent⟩
  cases packet with
  | none => exact habort
  | some packet =>
      by_cases hshort : (packet.take 2048).length < 8
      · have hfail : (xdrStdRead (s.clients c).xdr (some packet)).1 = false := by
          have hshort' : (packet.take rpcrouterMsgsizeMax.toNat).length < 8 := hshort
          simp only [xdrStdRead, if_pos hshort']
        simp only [hfail, Bool.false_eq_true, if_false, Desk.read, if_pos hshort]
        exact habort
      · obtain ⟨hok, hin⟩ := xdrStdRead_inputIs (x := (s.clients c).xdr) hshort
        generalize xdrStdRead (s.clients c).xdr (some packet) = r at hok hin
        have htype : r.2.inMsg.getWord 4 = wordAt (packet.take 2048) 1 :=
          hin.getWord (i := 1) (by omega)
        simp only [hok, if_true, CbState.readMessage, Desk.read, if_neg hshort, htype]
        split_ifs with hreply
        · refine h.moveClient c ⟨rfl, hline.2, htype.trans hreply⟩
            (hhand.read ?_ rfl) rfl
          intro heq
          cases heq
        · have hlong : 20 ≤ (packet.take 2048).length := by
            rw [List.length_take] at hshort ⊢
            rcases hsound with hlt | hge <;> omega
          have hset : Shows
              (s.setClient c { s.clients c with xdr := r.2, inputXdrBusy := true, gotCb := true })
              (d.setSeat c (.call (packet.take 2048)) (d.hands c)) :=
            h.moveClient c ⟨rfl, rfl, fun hrep => hreply (htype ▸ hrep), hin, hlong⟩
              (hhand.read (by intro heq; cases heq) rfl) rfl
          refine ⟨hset.inv, hset.programs, hset.lines, hset.hands, hset.users, hset.known,
            hset.bare, hset.aborted, hset.fault, ?_, hset.notices, hset.sent⟩
          rw [hin.slice, h.calls]

/-- A caller writes to the output side of the handle only. -/
theorem Shows.caller {s : CbState} {d : Desk} (h : Shows s d) (c : Nat) (outMsg : Mem)
    (outNext : Int) (xid : Word) :
    Shows (s.setClient c { s.clients c with
      xdr := { (s.clients c).xdr with outMsg := outMsg, outNext := outNext, xid := xid } }) d := by
  have hin : ∀ {message}, InputIs (s.clients c).xdr message →
      InputIs { (s.clients c).xdr with outMsg := outMsg, outNext := outNext, xid := xid } message :=
    fun hin => ⟨hin.inMsg, hin.inLen⟩
  have hsame : d.setSeat c (d.lines c) (d.hands c) = d := by
    rw [Desk.setSeat, Function.update_eq_self, Function.update_eq_self]
  rw [← hsame]
  refine h.moveClient c ?_ ?_ rfl
  · have hline := h.lines c
    cases hd : d.lines c with
    | call message =>
        rw [hd] at hline
        obtain ⟨hbusy, hgot, htype, hmessage, hlen⟩ := hline
        exact ⟨hbusy, hgot, htype, hin hmessage, hlen⟩
    | _ =>
        rw [hd] at hline
        exact hline
  · have hhand := h.hands c
    cases hd : d.hands c with
    | taken message =>
        rw [hd] at hhand
        obtain ⟨htaken, hthread, hxdr, hmessage, hlen⟩ := hhand
        exact ⟨htaken, hthread, hxdr, hin hmessage, hlen⟩
    | _ =>
        rw [hd] at hhand
        exact hhand

theorem Shows.takeReply {s : CbState} {d : Desk} (h : Shows s d) (c : Nat) :
    Shows (let client := s.clients c
      if client.inputXdrBusy ∧ client.xdr.inMsg.getWord 4 = RpcMsgType.reply.code then
        s.setClient c { client with inputXdrBusy := false }
      else s)
      (match d.lines c with
        | .reply => d.setSeat c .free (d.hands c)
        | _ => d) := by
  have hline := h.lines c
  cases hd : d.lines c with
  | reply =>
      rw [hd] at hline
      have hreply : (s.clients c).inputXdrBusy = true
          ∧ (s.clients c).xdr.inMsg.getWord 4 = RpcMsgType.reply.code := ⟨hline.1, hline.2.2⟩
      simp only [if_pos hreply]
      have hhand := h.hands c
      rw [hd] at hhand
      refine h.moveClient c ⟨rfl, hline.2.1⟩ ?_ rfl
      cases hh : d.hands c with
      | taken message =>
          rw [hh] at hhand
          cases hhand.1
      | copied message =>
          rw [hh] at hhand
          cases hhand.1
      | _ =>
          rw [hh] at hhand
          exact ⟨(by intro heq; cases heq), hhand.2⟩
  | free =>
      rw [hd] at hline
      simp only [hline.1, Bool.false_eq_true, false_and, if_false]
      exact h
  | call message =>
      rw [hd] at hline
      simp only [hline.2.2.1, and_false, if_false]
      exact h
  | taken =>
      rw [hd] at hline
      simp only [hline.2.2, and_false, if_false]
      exact h
  | stuck message =>
      rw [hd] at hline
      simp only [hline.2.2, and_false, if_false]
      exact h

/-- The callback thread finds the server of the call on the line, or none. -/
theorem Shows.findServer {s : CbState} {d : Desk} (h : Shows s d) {c : Nat} {message : List Byte}
    (hempty : d.hands c = .empty) (hcall : d.lines c = .call message)
    (hfree : (s.entries ((s.clients c).xdr.inMsg.getWord 12,
      (s.clients c).xdr.inMsg.getWord 16)).user = none) :
    Shows (s.findServer c)
      (if programOf message ∈ d.programs then d.setSeat c .taken (.taken message)
        else d.setSeat c (.stuck message) .empty) := by
  have hline := h.lines c
  have hhand := h.hands c
  rw [hcall] at hline hhand
  rw [hempty] at hhand
  obtain ⟨hbusy, -, htype, hin, hlen⟩ := hline
  have hprog : (s.clients c).xdr.inMsg.getWord 12 = wordAt message 3 :=
    hin.getWord (i := 3) (by omega)
  have hvers : (s.clients c).xdr.inMsg.getWord 16 = wordAt message 4 :=
    hin.getWord (i := 4) (by omega)
  rw [hprog, hvers] at hfree
  have hknown := h.programs (wordAt message 3) (wordAt message 4)
  simp only [CbState.findServer, hprog, hvers]
  cases hfind : s.xprt.svcFind (wordAt message 3) (wordAt message 4) with
  | none =>
      rw [hfind] at hknown
      have hunknown : programOf message ∉ d.programs :=
        fun hmem => Bool.false_ne_true (hknown.mpr hmem)
      rw [if_neg hunknown]
      exact h.moveClient c ⟨hbusy, rfl, htype⟩ ⟨(by intro heq; cases heq), hhand.2⟩ rfl
  | some svc =>
      rw [hfind] at hknown
      have hmem : programOf message ∈ d.programs := hknown.mp rfl
      rw [if_pos hmem]
      have hnone : (s.clients c).thread.entry = none := by rw [hhand.2]; rfl
      refine h.move c ⟨hbusy, rfl, htype⟩
        ⟨rfl, rfl, ?_, hin, hlen⟩ (fun c' hc entry hother => ?_)
        (h.users.claim hnone rfl hfree _) (fun entry hsome => ?_) fun entry huser => ?_
      · rw [programOf, Function.update_self]
        exact h.bare _ hfree
      · refine Function.update_of_ne ?_ _ _
        rintro rfl
        have := (h.users c' _).mp hother
        rw [hfree] at this
        cases this
      · by_cases he : entry = programOf message
        · rw [he]
          exact hmem
        · rw [programOf] at he
          rw [Function.update_of_ne he] at hsome
          exact h.known entry hsome
      · have he : entry ≠ (wordAt message 3, wordAt message 4) := by
          rintro rfl
          rw [Function.update_self] at huser
          cases huser
        rw [Function.update_of_ne he] at huser ⊢
        exact h.bare entry huser

/-- The copy in the entry is dispatched as the handle of the client would be. -/
theorem HasCopy.dispatch {getpid : Int} (hpid : getpid ≠ 0) {entry : CbEntry}
    {message : List Byte} (h : HasCopy entry message) (active : Int) :
    ∃ xdr, entry.xdr = some xdr
      ∧ (svcDispatch getpid GpsDispatch.dispatch
          ⟨xdr, (programOf message).1, (programOf message).2, active⟩).2
        = if IsCall message then some (noticesOf message, some (ackOf message)) else none := by
  obtain ⟨x, fd, hxdr, hin, hlen⟩ := h
  refine ⟨_, hxdr, ?_⟩
  have hprog : x.inMsg.getWord 12 = wordAt message 3 := hin.getWord (i := 3) (by omega)
  have hvers : x.inMsg.getWord 16 = wordAt message 4 := hin.getWord (i := 4) (by omega)
  rw [← cbContext_dispatch hpid hin hlen fd active, cbContext, hprog, hvers]
  rfl

section Callback

variable {getpid : Int} {s : CbState} {d : Desk} {c : Nat} {message : List Byte}

/-- The search, when the thread waits with nothing in hand. -/
theorem Shows.search (h : Shows s d) (hempty : d.hands c = .empty) {fd : Int}
    (hsound : CallbackSound s c fd .wait) :
    Shows (if (s.clients c).gotCb then s.findServer c else s)
      (match d.lines c with
        | .call message =>
            if programOf message ∈ d.programs then d.setSeat c .taken (.taken message)
            else d.setSeat c (.stuck message) .empty
        | _ => d) := by
  have hline := h.lines c
  have hhand := h.hands c
  rw [hempty] at hhand
  cases hl : d.lines c with
  | call message =>
      rw [hl] at hline
      rw [if_pos hline.2.1]
      exact h.findServer hempty hl (hsound hline.2.1)
  | taken => exact absurd hl hhand.1
  | free =>
      rw [hl] at hline
      rw [if_neg (by rw [hline.2]; exact Bool.false_ne_true)]
      exact h
  | _ =>
      rw [hl] at hline
      rw [if_neg (by rw [hline.2.1]; exact Bool.false_ne_true)]
      exact h

/-- The entry gets its copy of the handle. -/
theorem Shows.copy (h : Shows s d) (htaken : d.hands c = .taken message) {fd : Int}
    (hfd : 0 ≤ fd) :
    ¬ ((s.entries (programOf message)).xdr.isSome = true ∨ fd < 0)
      ∧ Shows
        { s.setClient c { s.clients c with thread := .copied (programOf message) } with
          entries := Function.update s.entries (programOf message)
            { s.entries (programOf message) with xdr := some (cbTransplant (s.clients c).xdr fd) } }
        (d.setSeat c (d.lines c) (.copied message)) := by
  have hhand := h.hands c
  rw [htaken] at hhand
  obtain ⟨hline, hthread, hbare, hin, hlen⟩ := hhand
  have hentry : (s.clients c).thread.entry = some (programOf message) := by rw [hthread]; rfl
  constructor
  · rw [hbare]
    simpa using hfd
  · refine h.moveEntry c hentry hentry.symm ((h.lines c).setThread _) ⟨hline, rfl, ?_⟩
    rw [Function.update_self]
    exact ⟨_, fd, rfl, hin, hlen⟩

/-- The input buffer is free again. -/
theorem Shows.freeBuffer (h : Shows s d) (hcopied : d.hands c = .copied message) :
    d.lines c = .taken
      ∧ Shows
        (s.setClient c { s.clients c with
          inputXdrBusy := false, thread := .freed (programOf message) })
        (d.setSeat c .free (.ready message)) := by
  have hline := h.lines c
  have hhand := h.hands c
  rw [hcopied] at hhand
  obtain ⟨htaken, hthread, hcopy⟩ := hhand
  rw [htaken] at hline
  refine ⟨htaken, h.moveClient c ⟨rfl, hline.2.1⟩ ⟨(by intro heq; cases heq), rfl, hcopy⟩ ?_⟩
  rw [hthread]
  rfl

/-- The service function has run on the copy. -/
theorem Shows.serve (h : Shows s d) (hready : d.hands c = .ready message) (xdr : Xdr) :
    Shows
      { s.setClient c { s.clients c with thread := .served (programOf message) } with
        entries := Function.update s.entries (programOf message)
          { s.entries (programOf message) with xdr := some xdr } }
      (d.setSeat c (d.lines c) .answered) := by
  have hhand := h.hands c
  rw [hready] at hhand
  obtain ⟨hline, hthread, -⟩ := hhand
  have hentry : (s.clients c).thread.entry = some (programOf message) := by rw [hthread]; rfl
  refine h.moveEntry c hentry hentry.symm ((h.lines c).setThread _) ⟨hline, _, rfl, ?_⟩
  rw [Function.update_self]
  rfl

/-- The HAL is told, and a message is sent. -/
theorem Shows.tell (h : Shows s d) (notices : List PdsmNotice) (sent : List (Nat × List Byte)) :
    Shows { s with notices := s.notices ++ notices, sent := s.sent ++ sent }
      { d with notices := d.notices ++ notices, sent := d.sent ++ sent } :=
  ⟨h.inv, h.programs, h.lines, h.hands, h.users, h.known, h.bare, h.aborted, h.fault, h.calls,
    congrArg (· ++ notices) h.notices, congrArg (· ++ sent) h.sent⟩

/-- The copy is destroyed, and the entry has no handle. -/
theorem Shows.leave (h : Shows s d) {entry : Word × Word}
    (hthread : (s.clients c).thread = .served entry) (hline : d.lines c ≠ .taken) :
    Shows
      { s.setClient c { s.clients c with thread := .wait } with
        entries := Function.update s.entries entry ⟨none, none⟩ }
      (d.setSeat c (d.lines c) .empty) := by
  have hentry : (s.clients c).thread.entry = some entry := by rw [hthread]; rfl
  have huser := (h.users c entry).mp hentry
  refine h.move c ((h.lines c).setThread _) ⟨hline, rfl⟩
    (fun c' hc entry' hother => Function.update_of_ne (h.apart hc huser hother) _ _)
    (h.users.release hentry rfl) (fun entry' hsome => ?_) fun entry' hnone => ?_
  · have he : entry' ≠ entry := by
      rintro rfl
      rw [Function.update_self] at hsome
      cases hsome
    rw [Function.update_of_ne he] at hsome
    exact h.known entry' hsome
  · by_cases he : entry' = entry
    · rw [he, Function.update_self]
    · rw [Function.update_of_ne he] at hnone ⊢
      exact h.bare entry' hnone

/-- A step of the callback thread is one of the desk. -/
theorem Shows.callback (hpid : getpid ≠ 0) (h : Shows s d) {fd : Int}
    (hsound : CallbackSound s c fd (s.clients c).thread) (active : Int) :
    Shows (s.callback getpid c fd active) (d.callback c) := by
  have hhand := h.hands c
  rw [CbState.callback, Desk.callback]
  cases hd : d.hands c with
  | empty =>
      rw [hd] at hhand
      rw [hhand.2] at hsound
      simp only [hhand.2]
      exact h.search hd hsound
  | taken message =>
      rw [hd] at hhand
      rw [hhand.2.1] at hsound
      obtain ⟨hgo, hcopy⟩ := h.copy hd hsound
      simp only [hhand.2.1, if_neg hgo]
      exact hcopy
  | copied message =>
      rw [hd] at hhand
      obtain ⟨htaken, hfree⟩ := h.freeBuffer hd
      simp only [hhand.2.1, htaken]
      exact hfree
  | ready message =>
      rw [hd] at hhand
      obtain ⟨xdr, hxdr, hanswer⟩ := hhand.2.2.dispatch hpid active
      simp only [hhand.2.1, hxdr, hanswer]
      have hserve := h.serve hd (svcDispatch getpid GpsDispatch.dispatch
        ⟨xdr, (programOf message).1, (programOf message).2, active⟩).1.xdr
      by_cases hiscall : IsCall message = true
      · simp only [if_pos hiscall]
        exact hserve.tell (noticesOf message) [(c, ackOf message)]
      · simp only [if_neg hiscall, Option.elim_none, Option.bind_none, Option.toList_none,
          List.map_nil, List.append_nil]
        exact hserve
  | answered =>
      rw [hd] at hhand
      obtain ⟨hline, entry, hthread, hxdr⟩ := hhand
      simp only [hthread, if_pos hxdr]
      exact h.leave hthread hline

end Callback

theorem cbStep_shows {getpid : Int} (hpid : getpid ≠ 0) (s : CbState) (d : Desk) (e : CbEvent)
    (h : Shows s d) (hsound : Sound s e) : Shows (cbStep getpid s e) (deskStep d e) := by
  unfold cbStep deskStep
  cases hclosed : d.closed with
  | true =>
      rw [if_pos (.inl (h.aborted.trans hclosed)), if_pos rfl]
      exact h
  | false =>
      have hrunning : ¬ (s.aborted = true ∨ s.fault = true) := by
        rw [h.aborted, hclosed, h.fault]
        simp
      rw [if_neg hrunning, if_neg Bool.false_ne_true]
      cases e with
      | service call =>
          cases call with
          | register prog vers dispatch io => exact h.register hsound.1 hsound.2
          | unregister prog vers ioctl => exact h.unregister hsound
      | read c packet =>
          have hline := h.lines c
          cases hd : d.lines c with
          | free =>
              rw [hd] at hline
              simp only [hd, hline.1, Bool.false_eq_true, if_false]
              exact h.read c hsound hd
          | _ =>
              rw [hd] at hline
              simp only [hd, hline.1, if_true]
              exact h
      | caller c outMsg outNext xid => exact h.caller c outMsg outNext xid
      | takeReply c => exact h.takeReply c
      | callback c fd active => exact h.callback hpid hsound active

/-! ## What the desk keeps -/

/-- The messages of one line. -/
def onLine (c : Nat) (log : List (Nat × List Byte)) : List (List Byte) :=
  log.filterMap fun entry => if entry.1 = c then some entry.2 else none

theorem onLine_append (c : Nat) (log more : List (Nat × List Byte)) :
    onLine c (log ++ more) = onLine c log ++ onLine c more :=
  List.filterMap_append

/-- The calls that were read on a line are those the desk is done with and those that wait; of
the former, those of the type of a call were answered, each once and in their order. -/
def Accounted (calls : List (Nat × List Byte)) (waiting : Nat → List (List Byte))
    (answered : List (Nat × List Byte)) : Prop :=
  ∀ c, ∃ done, onLine c calls = done ++ waiting c ∧ onLine c answered = done.filter IsCall

/-- What the HAL was told and what was sent are those of the answered calls. -/
structure Desk.Keeps (d : Desk) (answered : List (Nat × List Byte)) : Prop where
  notices : d.notices = answered.flatMap fun entry => noticesOf entry.2
  sent : d.sent = answered.map fun entry => (entry.1, ackOf entry.2)
  accounted : Accounted d.calls d.waiting answered

variable {d : Desk} {answered : List (Nat × List Byte)}

theorem Desk.waiting_setSeat (d : Desk) (c c' : Nat) (line : Line) (hand : Hand) :
    (d.setSeat c line hand).waiting c'
      = if c' = c then hand.waiting ++ line.waiting else d.waiting c' := by
  by_cases hc : c' = c
  · subst hc
    simp [Desk.waiting, Desk.setSeat]
  · simp [Desk.waiting, Desk.setSeat, hc]

/-- A call goes from the line into the hand, or stays where it is. -/
theorem Desk.Keeps.setSeat (h : d.Keeps answered) {c : Nat} {line : Line} {hand : Hand}
    (hsame : hand.waiting ++ line.waiting = d.waiting c) :
    (d.setSeat c line hand).Keeps answered where
  notices := h.notices
  sent := h.sent
  accounted c' := by
    obtain ⟨done, hcalls, hanswered⟩ := h.accounted c'
    refine ⟨done, hcalls.trans (congrArg (done ++ ·) ?_), hanswered⟩
    rw [Desk.waiting_setSeat]
    split_ifs with hc
    · rw [hc, hsame]
    · rfl

/-- A call is read on a line that is free. -/
theorem Desk.Keeps.call (h : d.Keeps answered) {c : Nat} (hfree : d.lines c = .free)
    (message : List Byte) :
    { d.setSeat c (.call message) (d.hands c) with
      calls := d.calls ++ [(c, message)] }.Keeps answered where
  notices := h.notices
  sent := h.sent
  accounted c' := by
    obtain ⟨done, hcalls, hanswered⟩ := h.accounted c'
    refine ⟨done, ?_, hanswered⟩
    change onLine c' (d.calls ++ [(c, message)])
      = done ++ (d.setSeat c (.call message) (d.hands c)).waiting c'
    rw [onLine_append, hcalls, Desk.waiting_setSeat]
    by_cases hc : c' = c
    · subst hc
      simp [Desk.waiting, hfree, Line.waiting, onLine]
    · simp [hc, Ne.symm hc, onLine]

/-- The call in hand is done with. -/
theorem Accounted.finish (h : Accounted d.calls d.waiting answered) {c : Nat} {message : List Byte}
    (hready : d.hands c = .ready message) :
    Accounted d.calls (d.setSeat c (d.lines c) .answered).waiting
      (answered ++ if IsCall message then [(c, message)] else []) := by
  intro c'
  obtain ⟨done, hcalls, hanswered⟩ := h c'
  rw [Desk.waiting_setSeat]
  by_cases hc : c' = c
  · subst hc
    refine ⟨done ++ [message], ?_, ?_⟩
    · rw [hcalls, if_pos rfl, Desk.waiting, hready]
      simp [Hand.waiting]
    · rw [onLine_append, hanswered, List.filter_append]
      by_cases hiscall : IsCall message = true <;> simp [hiscall, onLine]
  · refine ⟨done, ?_, ?_⟩
    · rw [hcalls, if_neg hc]
    · rw [onLine_append, hanswered]
      by_cases hiscall : IsCall message = true <;> simp [hiscall, onLine, Ne.symm hc]

theorem Desk.Keeps.callback (h : d.Keeps answered) (c : Nat) :
    ∃ answered', (d.callback c).Keeps answered' := by
  rw [Desk.callback]
  cases hd : d.hands c with
  | empty =>
      refine ⟨answered, ?_⟩
      cases hl : d.lines c with
      | call message =>
          have hwaiting : d.waiting c = [message] := by
            rw [Desk.waiting, hd, hl]
            rfl
          simp only
          split_ifs
          · exact h.setSeat hwaiting.symm
          · exact h.setSeat hwaiting.symm
      | _ => exact h
  | taken message =>
      refine ⟨answered, h.setSeat ?_⟩
      rw [Desk.waiting, hd]
      rfl
  | copied message =>
      refine ⟨answered, ?_⟩
      cases hl : d.lines c with
      | taken =>
          refine h.setSeat ?_
          rw [Desk.waiting, hd, hl]
          rfl
      | _ => exact h
  | ready message =>
      simp only
      split_ifs with hiscall
      · refine ⟨answered ++ [(c, message)], ?_, ?_, ?_⟩
        · simp [h.notices]
        · simp [h.sent]
        · have hfinish := h.accounted.finish hd
          rwa [if_pos hiscall] at hfinish
      · refine ⟨answered, h.notices, h.sent, ?_⟩
        have hfinish := h.accounted.finish hd
        rwa [if_neg hiscall, List.append_nil] at hfinish
  | answered =>
      refine ⟨answered, h.setSeat ?_⟩
      rw [Desk.waiting, hd]
      rfl

theorem deskStep_keeps (d : Desk) (e : CbEvent) (h : ∃ answered, d.Keeps answered) :
    ∃ answered, (deskStep d e).Keeps answered := by
  obtain ⟨answered, h⟩ := h
  have hclosed : { d with closed := true }.Keeps answered := ⟨h.notices, h.sent, h.accounted⟩
  unfold deskStep
  split_ifs
  · exact ⟨answered, h⟩
  · cases e with
    | service call =>
        cases call with
        | register prog vers dispatch io =>
            refine ⟨answered, ?_⟩
            simp only [Desk.service]
            split_ifs
            · exact ⟨h.notices, h.sent, h.accounted⟩
            · exact h
        | unregister prog vers ioctl => exact ⟨answered, h.notices, h.sent, h.accounted⟩
    | read c packet =>
        refine ⟨answered, ?_⟩
        cases hd : d.lines c with
        | free =>
            cases packet with
            | none =>
                simp only [hd]
                exact hclosed
            | some packet =>
                simp only [hd, Desk.read]
                split_ifs
                · exact hclosed
                · refine h.setSeat ?_
                  rw [Desk.waiting, hd]
                  rfl
                · exact h.call hd _
        | _ =>
            simp only [hd]
            exact h
    | caller c outMsg outNext xid => exact ⟨answered, h⟩
    | takeReply c =>
        refine ⟨answered, ?_⟩
        cases hd : d.lines c with
        | reply =>
            simp only [hd]
            refine h.setSeat ?_
            rw [Desk.waiting, hd]
            rfl
        | _ =>
            simp only [hd]
            exact h
    | callback c fd active => exact h.callback c

theorem CbState.init_shows (handles : Nat → Xdr) : Shows (.init handles) .empty where
  inv := SvcXprt.empty_inv
  programs prog vers := by
    simp [CbState.init, Desk.empty, SvcXprt.svcFind, SvcXprt.svcFindNosync, SvcXprt.empty, findPrev]
  lines _ := ⟨rfl, rfl⟩
  hands _ := ⟨(by intro heq; cases heq), rfl⟩
  users c entry := by
    constructor
    · intro hentry
      cases hentry
    · intro huser
      cases huser
  known entry hsome := by cases hsome
  bare _ _ := rfl
  aborted := rfl
  fault := rfl
  calls := rfl
  notices := rfl
  sent := rfl

theorem Shows.busy {s : CbState} (h : Shows s d) (c : Nat) :
    (s.clients c).inputXdrBusy = true ↔ d.lines c ≠ .free := by
  have hline := h.lines c
  cases hd : d.lines c with
  | free =>
      rw [hd] at hline
      exact iff_of_false (by simp [hline.1]) (not_not.mpr rfl)
  | _ =>
      rw [hd] at hline
      exact iff_of_true hline.1 (by intro heq; cases heq)

/-- A call with the given number, program, procedure and words of arguments. -/
def modemCall (xid prog proc : Word) (args : List Word) : List Byte :=
  wordsBytes
    ([xid, RpcMsgType.call.code, rpcMsgVersion, prog, 0x00010001, proc, 0, 0, 0, 0] ++ args)

/-- The callback thread serves a call, step by step. -/
def serve (c : Nat) (fd active : Int) : List CbEvent := List.replicate 5 (.callback c fd active)

/-- Positioning has ended, while a caller encodes a request; then a short call that leaves the
rest of the first one in the buffer, and one for a program that is not registered. -/
def modemSession : List CbEvent :=
  [.service (.register 0x3100005b 0x00010001 () ⟨100, -1, 0⟩),
    .read 0 (some (modemCall 7 0x3100005b 1 [0, 0, pdsmPdEventDone, 0, 0])),
    .caller 0 (fun _ => 0x5a) 100 9, .read 0 (some (modemCall 8 0x3100005b 1 []))]
    ++ serve 0 3 0 ++ [.read 0 (some (modemCall 8 0x3100005b 1 []))] ++ serve 0 3 5
    ++ [.read 0 (some (modemCall 9 0x3100001d 1 [])), .callback 0 3 0,
      .read 0 (some (modemCall 10 0x3100005b 1 [])), .callback 0 3 0]

end GpsDispatch

end HtcLeo
