import HtcLeo.RpcExchange
import HtcLeo.RpcReply
import HtcLeo.XdrOut

/-!
# Requests of the GPS library (`pdsm_*` in `libgps/leo-gps-rpc.c`)

The requests to the position services send some words and get one word
back. `xdr_args` and `xdr_result_int` return 1 whatever the handle says,
so `clnt_call` has no way to see that the result is missing: a reply that
ends behind the status of its header is a success, and the caller goes on
with a variable that nobody has set.

The header itself is followed word by word through the message
(`Xdr.At`), and every one of its words is checked. Hence what a caller
takes for a result is the one that was sent exactly if the reply is not
cut between the header and the result (`result_received_iff`).
-/

namespace HtcLeo

/-! ## The procedures -/

/-- `SEND_VAL` does not look at what it gets back. -/
def xdrArgs (clnt : Xdr) (par : List Word) : Bool × Xdr × List Word :=
  (true, par.foldl (fun clnt val => (xdrStdSendUint32 clnt val).2) clnt, par)

def xdrResultInt (clnt : Xdr) (result : Word) : Bool × Xdr × Word :=
  (true, (xdrStdRecvUint32 clnt result).2)

/-- The call in every one of the requests; `res` is the variable on the stack. -/
def pdsmCall (rWrite : List Byte → Int) (wait : Xdr → Option Xdr) (clnt : Xdr) (proc : Word)
    (par : List Word) (res : Word) : Option (ClntStat × Xdr × Word) :=
  clntCall rWrite wait clnt proc xdrArgs par xdrResultInt res

/-- The handle and `client_IDs` afterwards; `some none` is `exit(-1)`. -/
def pdsmClientInit (rWrite : List Byte → Int) (wait : Xdr → Option Xdr) (clnt : Xdr) (client : Int)
    (clientIDs : Int → Word) (res : Word) : Option (Option (Xdr × (Int → Word))) :=
  (pdsmCall rWrite wait clnt 0x2 [BitVec.ofInt 32 client] res).map fun r =>
    if r.1 ≠ .success then none
    else some (r.2.1, Function.update clientIDs client r.2.2)

/-! ## Replies -/

/-- The words of an accepted and successful reply behind the first two. -/
structure SuccessWords (packet : List Byte) : Prop where
  length : 24 ≤ packet.length
  accepted : wordAt packet 2 = 0
  verfLength : wordAt packet 4 = 0
  stat : wordAt packet 5 = RpcAcceptStat.success.code

/-- All words of such a reply to the call `xid`, up to the results. -/
structure SuccessHeader (xid : Word) (packet : List Byte) : Prop extends SuccessWords packet where
  xid : wordAt packet 0 = xid
  type : wordAt packet 1 = RpcMsgType.reply.code

/-- Such a reply that ends before the result does. -/
def CutBeforeResult (xid : Word) (packet : List Byte) : Prop :=
  SuccessHeader xid packet ∧ packet.length < 28

/-- What is expected of a reply: success means that it has a result, which the
caller gets; one without it is an error; an ID that is stored was received. -/
structure ResultReceived (clnt : Xdr) (packet : List Byte) : Prop where
  success : ∀ rWrite proc par res r,
    pdsmCall rWrite (fun x => rxReply x packet) clnt proc par res = some r → r.1 = .success →
      SuccessHeader (clnt.xid + 1) packet ∧ 28 ≤ packet.length ∧ r.2.2 = wordAt packet 6
  short : ∀ rWrite proc par res,
    8 ≤ packet.length → wordAt packet 1 = RpcMsgType.reply.code → packet.length < 28 →
      ∃ r, pdsmCall rWrite (fun x => rxReply x packet) clnt proc par res = some r
        ∧ r.1 ≠ .success
  stored : ∀ rWrite client clientIDs res x ids,
    pdsmClientInit rWrite (fun x => rxReply x packet) clnt client clientIDs res
        = some (some (x, ids)) →
      28 ≤ packet.length ∧ ids = Function.update clientIDs client (wordAt packet 6)

/-! ## Reading a message word by word -/

/-- The handle has a message, and word `i` of it is next. -/
structure Xdr.At (y : Xdr) (msg : List Byte) (i : Nat) : Prop where
  inMsg : ∃ m : Mem, y.inMsg = m.write 0 msg
  inNext : y.inNext = 4 * i
  inLen : y.inLen = msg.length

theorem Xdr.At.recv {y : Xdr} {msg : List Byte} {i : Nat} (h : y.At msg i)
    (hlen : 4 * i + 4 ≤ msg.length) (old : Word) :
    xdrStdRecvUint32 y old = (true, y.advance 4, wordAt msg i) := by
  obtain ⟨m, hm⟩ := h.inMsg
  have hroom : ¬ y.inNext + 4 > y.inLen := by
    rw [h.inNext, h.inLen]
    omega
  rw [xdrStdRecvUint32, if_neg hroom, hm, h.inNext, getWord_write_own hlen]
  simp only [Xdr.advance, h.inNext, hm]
  rfl

theorem Xdr.At.recv_end {y : Xdr} {msg : List Byte} {i : Nat} (h : y.At msg i)
    (hlen : msg.length < 4 * i + 4) (old : Word) : xdrStdRecvUint32 y old = (false, y, old) := by
  have hroom : y.inNext + 4 > y.inLen := by
    rw [h.inNext, h.inLen]
    omega
  rw [xdrStdRecvUint32, if_pos hroom]

theorem Xdr.At.skip {y : Xdr} {msg : List Byte} {i : Nat} (h : y.At msg i) (k : Nat) :
    (y.advance (4 * k)).At msg (i + k) := by
  refine ⟨h.inMsg, ?_, h.inLen⟩
  rw [Xdr.advance_inNext, h.inNext]
  push_cast
  ring

theorem Xdr.At.next {y : Xdr} {msg : List Byte} {i : Nat} (h : y.At msg i) :
    (y.advance 4).At msg (i + 1) := h.skip 1

theorem Xdr.At.recvAuth {y : Xdr} {msg : List Byte} {i : Nat} (h : y.At msg i)
    (hlen : 4 * i + 8 ≤ msg.length) (hempty : wordAt msg (i + 1) = 0) :
    xdrRecvAuth y = (true, y.advance 8, ⟨wordAt msg i, [], 0⟩) := by
  have hflavor := h.recv (by omega)
  have hlength := h.next.recv (by omega)
  simp [xdrRecvAuth, hflavor, hlength, hempty, Xdr.advance_advance]

theorem Xdr.At.recvAuth_false {y : Xdr} {msg : List Byte} {i : Nat} (h : y.At msg i)
    (hno : ¬ (4 * i + 8 ≤ msg.length ∧ wordAt msg (i + 1) = 0)) : (xdrRecvAuth y).1 = false := by
  by_cases hflavor : 4 * i + 4 ≤ msg.length
  · by_cases hlength : 4 * (i + 1) + 4 ≤ msg.length
    · have hbody : wordAt msg (i + 1) ≠ 0 := fun hempty => hno ⟨by omega, hempty⟩
      simp only [xdrRecvAuth, h.recv hflavor, h.next.recv hlength, Bool.not_true,
        Bool.false_eq_true, if_false, if_pos hbody]
    · simp [xdrRecvAuth, h.recv hflavor, h.next.recv_end (Nat.lt_of_not_le hlength)]
  · simp [xdrRecvAuth, h.recv_end (Nat.lt_of_not_le hflavor)]

theorem Xdr.At.recvReplyHeader {y : Xdr} {msg : List Byte} (h : y.At msg 2)
    (hwords : SuccessWords msg) :
    xdrRecvReplyHeader y
        = (y.advance 16, some (.accepted ⟨⟨wordAt msg 3, [], 0⟩, .success, 0, 0⟩))
      ∧ (y.advance 16).At msg 6 := by
  have hlen := hwords.length
  have hstat := h.recv (by omega)
  have hverf := h.next.recvAuth (by omega) hwords.verfLength
  have h5 : ((y.advance 4).advance 8).At msg 5 := h.next.skip 2
  have hacc := h5.recv (by omega)
  have h6 := h5.next
  simp only [hwords.accepted] at hstat
  simp only [hwords.stat, Xdr.advance_advance] at hacc
  rw [Xdr.advance_advance, Xdr.advance_advance] at h6
  refine ⟨?_, h6⟩
  simp only [xdrRecvReplyHeader, xdrRecvAcceptedReplyHeader, hstat, hverf, hacc,
    Xdr.advance_advance, Bool.not_true, Bool.false_eq_true, if_false, if_true]
  rfl

theorem RpcAcceptStat.ofCode_some {w : Word} {stat : RpcAcceptStat} (h : ofCode w = some stat) :
    w = stat.code := by
  have hfound := List.find?_some h
  exact (of_decide_eq_true hfound).symm

/-- What else is accepted is no success. -/
theorem Xdr.At.recvAccepted_not {y : Xdr} {msg : List Byte} (h : y.At msg 3)
    (hno : ¬ (24 ≤ msg.length ∧ wordAt msg 4 = 0 ∧ wordAt msg 5 = RpcAcceptStat.success.code))
    {ar : RpcAcceptedReplyHeader} (hrecv : (xdrRecvAcceptedReplyHeader y).2 = some ar) :
    ar.stat ≠ .success := by
  by_cases hauth : 20 ≤ msg.length ∧ wordAt msg 4 = 0
  · have hverf := h.recvAuth (by omega) hauth.2
    have h5 : (y.advance 8).At msg 5 := h.skip 2
    by_cases hlen : 24 ≤ msg.length
    · have hacc := h5.recv (by omega)
      simp only [xdrRecvAcceptedReplyHeader, hverf, hacc, Bool.not_true, Bool.false_eq_true,
        if_false] at hrecv
      cases hcode : RpcAcceptStat.ofCode (wordAt msg 5) with
      | none =>
          simp only [hcode] at hrecv
          cases hrecv
      | some stat =>
          simp only [hcode] at hrecv
          cases stat with
          | success => exact absurd ⟨hlen, hauth.2, RpcAcceptStat.ofCode_some hcode⟩ hno
          | progMismatch =>
              split_ifs at hrecv
              obtain rfl := Option.some.inj hrecv
              intro heq
              cases heq
          | _ =>
              obtain rfl := Option.some.inj hrecv
              intro heq
              cases heq
    · simp [xdrRecvAcceptedReplyHeader, hverf, h5.recv_end (Nat.lt_of_not_le hlen)] at hrecv
  · simp [xdrRecvAcceptedReplyHeader, h.recvAuth_false hauth] at hrecv

theorem Xdr.At.recvReplyHeader_not {y : Xdr} {msg : List Byte} (h : y.At msg 2)
    (hno : ¬ SuccessWords msg) {ar : RpcAcceptedReplyHeader}
    (hrecv : (xdrRecvReplyHeader y).2 = some (.accepted ar)) : ar.stat ≠ .success := by
  by_cases hlen : 12 ≤ msg.length
  · simp only [xdrRecvReplyHeader, h.recv hlen, Bool.not_true, Bool.false_eq_true, if_false] at hrecv
    split_ifs at hrecv with haccepted hdenied
    · obtain ⟨ar', haccepting, heq⟩ := Option.map_eq_some_iff.mp hrecv
      obtain rfl := RpcReplyHeader.accepted.inj heq
      exact h.next.recvAccepted_not
        (fun hwords => hno ⟨hwords.1, haccepted, hwords.2.1, hwords.2.2⟩) haccepting
    · obtain ⟨dr, -, heq⟩ := Option.map_eq_some_iff.mp hrecv
      cases heq
  · simp [xdrRecvReplyHeader, h.recv_end (Nat.lt_of_not_le hlen)] at hrecv

/-! ## The call -/

theorem RpcAcceptStat.clntStat_ne (stat : RpcAcceptStat) : stat.clntStat ≠ .success := by
  cases stat <;> decide

theorem RpcDeniedReply.clntStat_ne (dr : RpcDeniedReply) : dr.clntStat ≠ .success := by
  cases dr <;> simp [clntStat]

/-- Behind a successful header the result is whatever can be read, and nobody asks. -/
theorem clntCallFinish_success {y : Xdr} {msg : List Byte} (h : y.At msg 2)
    (hxid : y.outMsg.getWord 0 = y.inMsg.getWord 0) (hwords : SuccessWords msg) (res : Word) :
    (clntCallFinish y xdrResultInt res).1 = .success
      ∧ (28 ≤ msg.length → (clntCallFinish y xdrResultInt res).2.2 = wordAt msg 6) := by
  obtain ⟨hheader, h6⟩ := h.recvReplyHeader hwords
  have hresult : ({ y.advance 16 with xOp := .decode } : Xdr).At msg 6 :=
    ⟨h6.inMsg, h6.inNext, h6.inLen⟩
  rw [clntCallFinish, if_neg (not_not.mpr hxid), hheader]
  refine ⟨rfl, fun hlen => ?_⟩
  simp only [ne_eq, not_true_eq_false, if_false, xdrResultInt, hresult.recv hlen]

theorem clntCallFinish_not_success {y : Xdr} {msg : List Byte} (h : y.At msg 2)
    (hno : ¬ (y.outMsg.getWord 0 = y.inMsg.getWord 0 ∧ SuccessWords msg)) (res : Word) :
    (clntCallFinish y xdrResultInt res).1 ≠ .success := by
  by_cases hxid : y.outMsg.getWord 0 = y.inMsg.getWord 0
  · have hwords : ¬ SuccessWords msg := fun hwords => hno ⟨hxid, hwords⟩
    rw [clntCallFinish, if_neg (not_not.mpr hxid)]
    rcases hheader : xdrRecvReplyHeader y with ⟨x, _ | ar | dr⟩
    · intro heq
      cases heq
    · have hstat := h.recvReplyHeader_not hwords (congrArg Prod.snd hheader)
      simp only [if_pos hstat]
      exact RpcAcceptStat.clntStat_ne _
    · exact RpcDeniedReply.clntStat_ne _
  · rw [clntCallFinish, if_pos hxid]
    intro heq
    cases heq

/-- The arguments are appended as far as there is room. -/
theorem xdrArgs_emit (par : List Word) (x : Xdr) : ∃ bs, (xdrArgs x par).2.1 = x.emit bs := by
  induction par generalizing x with
  | nil => exact ⟨[], (Xdr.emit_nil x).symm⟩
  | cons val par ih =>
      obtain ⟨bs, hbs⟩ := ih (xdrStdSendUint32 x val).2
      change (xdrArgs x (val :: par)).2.1 = _ at hbs
      rw [hbs, xdrStdSendUint32_cases]
      split
      · exact ⟨bs, rfl⟩
      · exact ⟨Mem.wordBytes val ++ bs, Xdr.emit_emit ..⟩

/-- Every request is started, with the next XID and the message behind it. -/
theorem pdsmCall_start (clnt : Xdr) (proc : Word) (par : List Word) :
    ∃ x, clntCallStart clnt proc xdrArgs par = (true, x) ∧ x.outMsg.getWord 0 = clnt.xid + 1
      ∧ x.outNext = x.message.length := by
  obtain ⟨bs, hbs⟩ := xdrArgs_emit par (clnt.callStart proc)
  have hready := clnt.callStart_outReady proc
  have hmessage := Xdr.message_emit hready.nonneg bs
  rw [Xdr.callStart_message, wordsBytes_cons, List.append_assoc] at hmessage
  refine ⟨(clnt.callStart proc).emit bs, ?_, getWord_of_message hmessage, ?_⟩
  · rw [clntCallStart_eq, hbs]
    rfl
  · have hnonneg := hready.nonneg
    rw [Xdr.message, Mem.length_slice, Xdr.emit_outNext]
    omega

/-! ## The reply -/

/-- Only the first bytes of a message matter. -/
theorem successWords_take {packet : List Byte} :
    SuccessWords (packet.take 2048) ↔ SuccessWords packet := by
  have hlen : 24 ≤ (packet.take 2048).length ↔ 24 ≤ packet.length := by
    rw [List.length_take]
    omega
  constructor
  · rintro ⟨hlength, haccepted, hverf, hstat⟩
    rw [wordAt_take (by omega)] at haccepted hverf hstat
    exact ⟨hlen.mp hlength, haccepted, hverf, hstat⟩
  · rintro ⟨hlength, haccepted, hverf, hstat⟩
    refine ⟨hlen.mpr hlength, ?_, ?_, ?_⟩
    · rwa [wordAt_take (by omega)]
    · rwa [wordAt_take (by omega)]
    · rwa [wordAt_take (by omega)]

/-- A reply wakes the caller up, and nothing else does. -/
theorem rxReply_cases (x : Xdr) (packet : List Byte) :
    rxReply x packet
      = if 8 ≤ packet.length ∧ wordAt packet 1 = RpcMsgType.reply.code then
          some (x.received (packet.take 2048))
        else none := by
  have htake : 8 ≤ (packet.take 2048).length ↔ 8 ≤ packet.length := by
    rw [List.length_take]
    omega
  by_cases hlen : 8 ≤ packet.length
  · have hread : xdrStdRead x (some packet) = (true, x.received (packet.take 2048)) :=
      if_neg (Nat.not_lt.mpr (htake.mpr hlen))
    have htype : (x.received (packet.take 2048)).inMsg.getWord 4 = wordAt packet 1 :=
      (getWord_write_own (i := 1) (htake.mpr hlen)).trans (wordAt_take (by decide))
    simp only [rxReply, hread, htype, hlen, true_and]
  · have hshort : (packet.take 2048).length < 8 := Nat.lt_of_not_le (mt htake.mp hlen)
    have hread : (xdrStdRead x (some packet)).1 = false := congrArg Prod.fst (if_pos hshort)
    simp only [rxReply, hread, hlen, Bool.false_eq_true, false_and, if_false]

theorem received_at (x : Xdr) (packet : List Byte) :
    (x.received (packet.take 2048)).At (packet.take 2048) 2 := ⟨⟨_, rfl⟩, rfl, rfl⟩

theorem received_xid (x : Xdr) {packet : List Byte} (hlen : 8 ≤ packet.length) :
    (x.received (packet.take 2048)).inMsg.getWord 0 = wordAt packet 0 := by
  refine getWord_read ?_
  rw [List.length_take]
  omega

/-- A reply ends the call, and a request that cannot be sent ends at once. -/
theorem pdsmCall_ends (rWrite : List Byte → Int) (clnt : Xdr) (proc : Word) (par : List Word)
    (res : Word) {packet : List Byte} (hlen : 8 ≤ packet.length)
    (htype : wordAt packet 1 = RpcMsgType.reply.code) :
    ∃ r, pdsmCall rWrite (fun x => rxReply x packet) clnt proc par res = some r := by
  obtain ⟨x, hstart, -, -⟩ := pdsmCall_start clnt proc par
  simp only [pdsmCall, clntCall, hstart, Bool.not_true, Bool.false_eq_true, if_false,
    rxReply_cases, hlen, htype, and_self, if_true, Option.map_some]
  split
  · exact ⟨_, rfl⟩
  · exact ⟨_, rfl⟩

/-- A success has the header of one, and if there is a result it is returned. -/
theorem pdsmCall_success {rWrite : List Byte → Int} {clnt : Xdr} {proc : Word} {par : List Word}
    {res : Word} {packet : List Byte} {r : ClntStat × Xdr × Word}
    (h : pdsmCall rWrite (fun x => rxReply x packet) clnt proc par res = some r)
    (hr : r.1 = .success) :
    SuccessHeader (clnt.xid + 1) packet ∧ (28 ≤ packet.length → r.2.2 = wordAt packet 6) := by
  obtain ⟨x, hstart, hxid, -⟩ := pdsmCall_start clnt proc par
  simp only [pdsmCall, clntCall, hstart, Bool.not_true, Bool.false_eq_true, if_false,
    rxReply_cases] at h
  split_ifs at h with hsend hreply
  · obtain rfl := Option.some.inj h
    cases hr
  · obtain ⟨hlen, htype⟩ := hreply
    have hat := received_at x packet
    have hin := received_xid x hlen
    obtain rfl := Option.some.inj h
    obtain ⟨hsame, hwords⟩ : x.outMsg.getWord 0
          = (x.received (packet.take 2048)).inMsg.getWord 0
        ∧ SuccessWords (packet.take 2048) := by
      by_contra hno
      exact clntCallFinish_not_success hat hno res hr
    refine ⟨⟨successWords_take.mp hwords, ?_, htype⟩, fun hresult => ?_⟩
    · rw [← hin, ← hsame, hxid]
    · have htake : 28 ≤ (packet.take 2048).length := by
        rw [List.length_take]
        omega
      rw [(clntCallFinish_success hat hsame hwords res).2 htake, wordAt_take (by omega)]
  · cases h

/-- Every such header is one, whatever follows. -/
theorem pdsmCall_header {clnt : Xdr} {packet : List Byte} (proc : Word) (par : List Word)
    (res : Word) (h : SuccessHeader (clnt.xid + 1) packet) :
    ∃ r, pdsmCall (fun bs => bs.length) (fun x => rxReply x packet) clnt proc par res = some r
      ∧ r.1 = .success := by
  obtain ⟨x, hstart, hxid, hnext⟩ := pdsmCall_start clnt proc par
  have hlen : 8 ≤ packet.length := Nat.le_trans (by decide) h.length
  have hsend : xdrStdMsgSend (fun bs => bs.length) x = true := decide_eq_true hnext.symm
  have hsame : x.outMsg.getWord 0 = (x.received (packet.take 2048)).inMsg.getWord 0 := by
    rw [received_xid x hlen, h.xid, hxid]
  refine ⟨clntCallFinish (x.received (packet.take 2048)) xdrResultInt res, ?_,
    (clntCallFinish_success (received_at x packet) hsame
      (successWords_take.mpr h.toSuccessWords) res).1⟩
  simp only [pdsmCall, clntCall, hstart, hsend, Bool.not_true, Bool.false_eq_true, if_false,
    rxReply_cases, hlen, h.type, and_self, if_true, Option.map_some]

/-- **Success means that a result was received.** For every handle, every
request and every message that answers it: a success has a result, which the
caller gets, a reply that is too short for it is an error, and
`pdsm_client_init` stores what it received, if and only if the message does not
end between a successful header and the end of the result. -/
theorem result_received_iff (clnt : Xdr) (packet : List Byte) :
    ResultReceived clnt packet ↔ ¬ CutBeforeResult (clnt.xid + 1) packet := by
  constructor
  · rintro h ⟨hheader, hcut⟩
    obtain ⟨r, hcall, hr⟩ := pdsmCall_header 0x2 [] 0 hheader
    obtain ⟨-, hlen, -⟩ := h.success _ _ _ _ r hcall hr
    omega
  · intro hwhole
    have hsuccess : ∀ rWrite proc par res r,
        pdsmCall rWrite (fun x => rxReply x packet) clnt proc par res = some r → r.1 = .success →
          SuccessHeader (clnt.xid + 1) packet ∧ 28 ≤ packet.length
            ∧ r.2.2 = wordAt packet 6 := by
      intro rWrite proc par res r hcall hr
      obtain ⟨hheader, hresult⟩ := pdsmCall_success hcall hr
      have hlen : 28 ≤ packet.length := Nat.le_of_not_lt fun hcut => hwhole ⟨hheader, hcut⟩
      exact ⟨hheader, hlen, hresult hlen⟩
    refine ⟨hsuccess, ?_, ?_⟩
    · intro rWrite proc par res hlen htype hshort
      obtain ⟨r, hcall⟩ := pdsmCall_ends rWrite clnt proc par res hlen htype
      refine ⟨r, hcall, fun hr => ?_⟩
      obtain ⟨-, hresult, -⟩ := hsuccess _ _ _ _ r hcall hr
      omega
    · intro rWrite client clientIDs res x ids hinit
      obtain ⟨r, hcall, hstored⟩ := Option.map_eq_some_iff.mp hinit
      split_ifs at hstored with hr
      obtain ⟨-, hlen, hres⟩ := hsuccess _ _ _ _ r hcall (not_not.mp hr)
      rw [hres] at hstored
      exact ⟨hlen, (Prod.mk.inj (Option.some.inj hstored)).2.symm⟩

/-- The header of a successful reply to the first call, and nothing behind it. -/
def cutReply : List Byte := replyHeader 1

/-- It is a success for `pdsm_client_init`, which stores what the variable was before. -/
theorem unreceived_id_stored :
    let call := pdsmCall (fun bs => bs.length) (fun x => rxReply x cutReply) sampleClient 0x2 [2]
      0xdeadbeef
    let init := pdsmClientInit (fun bs => bs.length) (fun x => rxReply x cutReply) sampleClient 2
      (fun _ => 0) 0xdeadbeef
    cutReply.length = 24 ∧ call.map (fun r => (r.1, r.2.2)) = some (.success, 0xdeadbeef)
      ∧ init.map (fun r => r.map fun r => r.2 2) = some (some 0xdeadbeef)
      ∧ ¬ ResultReceived sampleClient cutReply := by
  intro call init
  have hcall : call.map (fun r => (r.1, r.2.2)) = some (.success, 0xdeadbeef) := by decide +kernel
  have hinit : init.map (fun r => r.map fun r => r.2 2) = some (some 0xdeadbeef) := by
    decide +kernel
  refine ⟨rfl, hcall, hinit, fun h => ?_⟩
  obtain ⟨r, hr, hres⟩ := Option.map_eq_some_iff.mp hcall
  obtain ⟨-, hlen, -⟩ := h.success _ _ _ _ r hr (congrArg Prod.fst hres)
  exact absurd hlen (by decide)

end HtcLeo
