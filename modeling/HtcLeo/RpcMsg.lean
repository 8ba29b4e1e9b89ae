import HtcLeo.XdrCodec

/-!
# RPC messages (`librpc/rpc.c` and the reply headers of `librpc/clnt.c`)

A call is started with its identification and the credentials, a reply
with its status and the verifier; what follows is written and read by
the procedures of the program. The header of a reply is also read back
here, with every status the other side may send.

The words a header consists of are read off in one place: `callWords` and
`replyWords` are the bytes in front of the arguments and the results.
-/

namespace HtcLeo

/-- `a && b` of two functions that send. -/
def sendAnd (r : Bool × Xdr) (next : Xdr → Bool × Xdr) : Bool × Xdr :=
  if r.1 then next r.2 else (false, r.2)

def rpcMsgVersion : Word := 2

/-! ## Status codes -/

inductive RpcAcceptStat where
  | success
  | progUnavail
  | progMismatch
  | procUnavail
  | garbageArgs
  | systemErr
  | progLocked
deriving DecidableEq, Repr

def RpcAcceptStat.code : RpcAcceptStat → Word
  | success => 0
  | progUnavail => 1
  | progMismatch => 2
  | procUnavail => 3
  | garbageArgs => 4
  | systemErr => 5
  | progLocked => 6

/-- The switch on a received status; `none` is its default. -/
def RpcAcceptStat.ofCode (w : Word) : Option RpcAcceptStat :=
  [success, progUnavail, progMismatch, procUnavail, garbageArgs, systemErr, progLocked].find?
    fun stat => stat.code = w

/-- A version range, or the reason of an authentication error. -/
inductive RpcDeniedReply where
  | mismatch (low high : Word)
  | authError (why : Word)
deriving DecidableEq, Repr

/-- `low` and `high` are used for a program mismatch only. -/
structure RpcAcceptedReplyHeader where
  verf : OpaqueAuth
  stat : RpcAcceptStat
  low : Word := 0
  high : Word := 0
deriving DecidableEq

inductive RpcReplyHeader where
  | accepted (ar : RpcAcceptedReplyHeader)
  | denied (dr : RpcDeniedReply)
deriving DecidableEq

/-! ## Sending -/

def xdrSendAuth (xdr : Xdr) (auth : OpaqueAuth) : Bool × Xdr :=
  sendAnd (xdrStdSendInt32 xdr auth.oaFlavor) fun xdr =>
  sendAnd (xdrStdSendUint32 xdr auth.oaLength) fun xdr =>
    if auth.oaLength = 0 then (true, xdr) else xdrStdSendBytes xdr auth.oaBase auth.oaLength

def xdrCallMsgStart (xdr : Xdr) (prog ver proc : Word) (cred verf : OpaqueAuth) : Bool × Xdr :=
  let xdr := { xdr with xProg := prog, xProc := proc }
  sendAnd (xdrStdMsgStart xdr .call) fun xdr =>
  sendAnd (xdrStdSendUint32 xdr rpcMsgVersion) fun xdr =>
  sendAnd (xdrStdSendUint32 xdr prog) fun xdr =>
  sendAnd (xdrStdSendUint32 xdr ver) fun xdr =>
  sendAnd (xdrStdSendUint32 xdr proc) fun xdr =>
  sendAnd (xdrSendAuth xdr cred) fun xdr =>
    xdrSendAuth xdr verf

/-- `RPC_MSG_ACCEPTED` in front of the verifier and `RPC_ACCEPT_SUCCESS` behind it. -/
def xdrReplyMsgStart (xdr : Xdr) (verf : OpaqueAuth) : Bool × Xdr :=
  sendAnd (xdrStdMsgStart xdr .reply) fun xdr =>
  sendAnd (xdrStdSendInt32 xdr 0) fun xdr =>
  sendAnd (xdrSendAuth xdr verf) fun xdr =>
    xdrStdSendInt32 xdr RpcAcceptStat.success.code

def xdrSendAcceptedReplyHeader (xdr : Xdr) (accreply : RpcAcceptedReplyHeader) : Bool × Xdr :=
  sendAnd (xdrSendAuth xdr accreply.verf) fun xdr =>
  sendAnd (xdrStdSendInt32 xdr accreply.stat.code) fun xdr =>
    match accreply.stat with
    | .progMismatch =>
        sendAnd (xdrStdSendUint32 xdr accreply.low) fun xdr => xdrStdSendUint32 xdr accreply.high
    | _ => (true, xdr)

def xdrSendDeniedReply (xdr : Xdr) : RpcDeniedReply → Bool × Xdr
  | .mismatch low high =>
      sendAnd (xdrStdSendInt32 xdr 0) fun xdr =>
      sendAnd (xdrStdSendUint32 xdr low) fun xdr =>
        xdrStdSendUint32 xdr high
  | .authError why =>
      sendAnd (xdrStdSendInt32 xdr 1) fun xdr => xdrStdSendInt32 xdr why

def xdrSendReplyHeader (xdr : Xdr) : RpcReplyHeader → Bool × Xdr
  | .accepted ar => sendAnd (xdrStdSendInt32 xdr 0) fun xdr => xdrSendAcceptedReplyHeader xdr ar
  | .denied dr => sendAnd (xdrStdSendInt32 xdr 1) fun xdr => xdrSendDeniedReply xdr dr

/-! ## Receiving -/

/-- A verifier with a body is read past and refused. -/
def xdrRecvAuth (xdr : Xdr) : Bool × Xdr × OpaqueAuth :=
  let (ok, xdr, flavor) := xdrStdRecvInt32 xdr 0
  if !ok then (false, xdr, .none)
  else
    let (ok, xdr, len) := xdrStdRecvUint32 xdr 0
    if !ok then (false, xdr, .none)
    else if len ≠ 0 then (false, (xdrStdSkipBytes xdr len).2, ⟨flavor, [], len⟩)
    else (true, xdr, ⟨flavor, [], len⟩)

def xdrRecvAcceptedReplyHeader (xdr : Xdr) : Xdr × Option RpcAcceptedReplyHeader :=
  let (ok, xdr, verf) := xdrRecvAuth xdr
  if !ok then (xdr, none)
  else
    let (ok, xdr, stat) := xdrStdRecvInt32 xdr 0
    if !ok then (xdr, none)
    else
      match RpcAcceptStat.ofCode stat with
      | some .progMismatch =>
          let (ok, xdr, low) := xdrStdRecvUint32 xdr 0
          if !ok then (xdr, none)
          else
            let (ok, xdr, high) := xdrStdRecvUint32 xdr 0
            if !ok then (xdr, none) else (xdr, some ⟨verf, .progMismatch, low, high⟩)
      | some stat => (xdr, some ⟨verf, stat, 0, 0⟩)
      | none => (xdr, none)

def xdrRecvDeniedReply (xdr : Xdr) : Xdr × Option RpcDeniedReply :=
  let (ok, xdr, stat) := xdrStdRecvInt32 xdr 0
  if !ok then (xdr, none)
  else if stat = 0 then
    let (ok, xdr, low) := xdrStdRecvUint32 xdr 0
    if !ok then (xdr, none)
    else
      let (ok, xdr, high) := xdrStdRecvUint32 xdr 0
      if !ok then (xdr, none) else (xdr, some (.mismatch low high))
  else if stat = 1 then
    let (ok, xdr, why) := xdrStdRecvInt32 xdr 0
    if !ok then (xdr, none) else (xdr, some (.authError why))
  else (xdr, none)

/-- `none` is `FALSE`. -/
def xdrRecvReplyHeader (xdr : Xdr) : Xdr × Option RpcReplyHeader :=
  let (ok, xdr, stat) := xdrStdRecvInt32 xdr 0
  if !ok then (xdr, none)
  else if stat = 0 then
    let r := xdrRecvAcceptedReplyHeader xdr
    (r.1, r.2.map .accepted)
  else if stat = 1 then
    let r := xdrRecvDeniedReply xdr
    (r.1, r.2.map .denied)
  else (xdr, none)

/-! ## Words of a message -/

/-- The bytes of a sequence of words. -/
def wordsBytes (ws : List Word) : List Byte := ws.flatMap Mem.wordBytes

@[simp] theorem wordsBytes_nil : wordsBytes [] = [] := rfl

@[simp] theorem wordsBytes_cons (w : Word) (ws : List Word) :
    wordsBytes (w :: ws) = Mem.wordBytes w ++ wordsBytes ws := rfl

theorem wordsBytes_append (vs ws : List Word) :
    wordsBytes vs ++ wordsBytes ws = wordsBytes (vs ++ ws) :=
  List.flatMap_append.symm

@[simp] theorem length_wordsBytes (ws : List Word) : (wordsBytes ws).length = 4 * ws.length := by
  induction ws with
  | nil => rfl
  | cons w ws ih =>
      rw [wordsBytes_cons, List.length_append, ih, Mem.length_wordBytes, List.length_cons]
      omega

/-- The word at an index of a message that was stored. -/
theorem getWord_write_words {m : Mem} {i : Int} {ws : List Word} {k : Nat} {w : Word}
    (h : ws[k]? = some w) (bs : List Byte) :
    (m.write i (wordsBytes ws ++ bs)).getWord (i + 4 * k) = w := by
  induction ws generalizing m i k with
  | nil => cases h
  | cons v ws ih =>
      rw [wordsBytes_cons, List.append_assoc, Mem.write_append]
      cases k with
      | zero =>
          rw [List.getElem?_cons_zero, Option.some.injEq] at h
          subst h
          rw [Nat.cast_zero, Int.mul_zero, Int.add_zero]
          refine (Mem.getWord_congr fun j hlo hhi => ?_).trans (Mem.getWord_putWord m i v)
          exact Mem.write_of_lt (by rw [Mem.length_wordBytes]; omega)
      | succ k =>
          rw [List.getElem?_cons_succ] at h
          have hrest := ih (m := m.write i (Mem.wordBytes v)) (i := i + 4) h
          have hindex : i + 4 * ((k + 1 : Nat) : Int) = i + 4 + 4 * k := by
            push_cast
            ring
          rw [Mem.length_wordBytes, hindex]
          exact hrest

theorem Xdr.message_emit {x : Xdr} (hx : 0 ≤ x.outNext) (bs : List Byte) :
    (x.emit bs).message = x.message ++ bs := by
  have hlen : (x.outNext + bs.length).toNat = x.outNext.toNat + bs.length := by omega
  have hnat : (0 : Int) + x.outNext.toNat = x.outNext := by omega
  rw [Xdr.message, Xdr.message, Xdr.emit_outNext, hlen, Mem.slice_add, hnat, Xdr.emit_slice]
  congr 1
  exact Mem.slice_congr fun j _ hhi => Mem.write_of_lt (by omega)

/-- The identification of a started call. -/
def RpcMsgType.nextXid (type : RpcMsgType) (xid : Word) : Word :=
  if type = .call then xid + 1 else xid

theorem xdrStdMsgStart_message (x : Xdr) (type : RpcMsgType) :
    (xdrStdMsgStart x type).2.message = wordsBytes [type.nextXid x.xid, type.code] := by
  have hwords (m : Mem) (v w : Word) :
      ((m.putWord 0 v).putWord 4 w).slice 0 8 = wordsBytes [v, w] := by
    have hslice := Mem.slice_write m 0 (Mem.wordBytes v ++ Mem.wordBytes w)
    rw [Mem.write_append] at hslice
    exact hslice
  cases type with
  | call => exact hwords ..
  | reply => exact hwords ..

/-! ## What a header consists of -/

/-- One more word behind those that are already sent. -/
theorem xdrStdSendUint32_words {x : Xdr} {ws : List Word} (v : Word)
    (h : x.outNext + 4 * ws.length ≤ 2044) :
    xdrStdSendUint32 (x.emit (wordsBytes ws)) v = (true, x.emit (wordsBytes (ws ++ [v]))) := by
  rw [xdrStdSendUint32_eq v (by rw [Xdr.emit_outNext, length_wordsBytes]; push_cast; exact h),
    Xdr.emit_emit, ← wordsBytes_append]
  rfl

theorem sendAnd_word {x : Xdr} {ws : List Word} (v : Word) (next : Xdr → Bool × Xdr)
    (h : x.outNext + 4 * ws.length ≤ 2044) :
    sendAnd (xdrStdSendUint32 (x.emit (wordsBytes ws)) v) next
      = next (x.emit (wordsBytes (ws ++ [v]))) := by
  rw [xdrStdSendUint32_words v h]
  rfl

theorem xdrSendAuth_words {x : Xdr} {ws : List Word} (h : x.outNext + 4 * ws.length ≤ 2040) :
    xdrSendAuth (x.emit (wordsBytes ws)) .none
      = (true, x.emit (wordsBytes (ws ++ [authNone, 0]))) := by
  have hnext : x.outNext + 4 * (ws ++ [authNone]).length ≤ 2044 := by
    rw [List.length_append, List.length_singleton]
    push_cast
    omega
  rw [xdrSendAuth, xdrStdSendInt32, sendAnd_word _ _ (by omega), OpaqueAuth.none,
    sendAnd_word _ _ hnext, if_pos rfl, List.append_assoc]
  rfl

theorem sendAnd_auth {x : Xdr} {ws : List Word} (next : Xdr → Bool × Xdr)
    (h : x.outNext + 4 * ws.length ≤ 2040) :
    sendAnd (xdrSendAuth (x.emit (wordsBytes ws)) .none) next
      = next (x.emit (wordsBytes (ws ++ [authNone, 0]))) := by
  rw [xdrSendAuth_words h]
  rfl

/-- The words of a call between the first two and the arguments. -/
def callWords (prog vers proc : Word) : List Word :=
  [rpcMsgVersion, prog, vers, proc, authNone, 0, authNone, 0]

/-- The words of a reply between the first two and the results. -/
def replyWords (stat : RpcAcceptStat) : List Word := [0, authNone, 0, stat.code]

/-- A started message with nothing behind its first two words. -/
theorem sendAnd_msgStart (x : Xdr) (type : RpcMsgType) (next : Xdr → Bool × Xdr) :
    sendAnd (xdrStdMsgStart x type) next
      = next ((xdrStdMsgStart x type).2.emit (wordsBytes [])) := by
  rw [wordsBytes_nil, Xdr.emit_nil]
  rfl

theorem xdrStdMsgStart_outNext (x : Xdr) (type : RpcMsgType) :
    (xdrStdMsgStart x type).2.outNext = 8 := rfl

theorem xdrCallMsgStart_eq (x : Xdr) (prog vers proc : Word) :
    xdrCallMsgStart x prog vers proc .none .none
      = (true, (xdrStdMsgStart { x with xProg := prog, xProc := proc } .call).2.emit
          (wordsBytes (callWords prog vers proc))) := by
  rw [xdrCallMsgStart, sendAnd_msgStart]
  have h8 := xdrStdMsgStart_outNext { x with xProg := prog, xProc := proc } .call
  generalize (xdrStdMsgStart { x with xProg := prog, xProc := proc } .call).2 = y at h8 ⊢
  rw [sendAnd_word _ _ (by simp [h8]), sendAnd_word _ _ (by simp [h8]),
    sendAnd_word _ _ (by simp [h8]), sendAnd_word _ _ (by simp [h8]), sendAnd_auth _ (by simp [h8]),
    xdrSendAuth_words (by simp [h8])]
  rfl

theorem xdrReplyMsgStart_eq (x : Xdr) :
    xdrReplyMsgStart x .none
      = (true, (xdrStdMsgStart x .reply).2.emit (wordsBytes (replyWords .success))) := by
  rw [xdrReplyMsgStart, sendAnd_msgStart]
  have h8 := xdrStdMsgStart_outNext x .reply
  generalize (xdrStdMsgStart x .reply).2 = y at h8 ⊢
  rw [xdrStdSendInt32, sendAnd_word _ _ (by simp [h8]), sendAnd_auth _ (by simp [h8]),
    xdrStdSendInt32, xdrStdSendUint32_words _ (by simp [h8])]
  rfl

/-- The header of an error reply, with the same words in front of the status. -/
theorem xdrSendReplyHeader_eq {x : Xdr} (hx : x.outNext = 8) {stat : RpcAcceptStat}
    (hstat : stat ≠ .progMismatch) :
    xdrSendReplyHeader (x.emit (wordsBytes [])) (.accepted ⟨.none, stat, 0, 0⟩)
      = (true, x.emit (wordsBytes (replyWords stat))) := by
  rw [xdrSendReplyHeader, xdrStdSendInt32, sendAnd_word _ _ (by simp [hx]),
    xdrSendAcceptedReplyHeader, sendAnd_auth _ (by simp [hx]), xdrStdSendInt32,
    sendAnd_word _ _ (by simp [hx])]
  cases stat with
  | progMismatch => exact absurd rfl hstat
  | _ => rfl

/-- The words of an accepted reply, read back. -/
theorem xdrRecvReplyHeader_success {y : Xdr} (h : y.Holds (wordsBytes (replyWords .success))) :
    xdrRecvReplyHeader y = (y.advance 16, some (.accepted ⟨.none, .success, 0, 0⟩)) := by
  have hstat := h
  rw [replyWords, wordsBytes_cons] at hstat
  have hverf := hstat.right (by simp)
  rw [wordsBytes_cons] at hverf
  have hlen := hverf.right (by simp)
  rw [wordsBytes_cons] at hlen
  have hacc := hlen.right (by simp)
  rw [wordsBytes_cons] at hacc
  simp only [Mem.length_wordBytes, Xdr.advance_advance] at hverf hlen hacc
  simp only [xdrRecvReplyHeader, xdrRecvAcceptedReplyHeader, xdrRecvAuth,
    xdrStdRecvUint32_eq hstat.left, xdrStdRecvUint32_eq hverf.left, xdrStdRecvUint32_eq hlen.left,
    xdrStdRecvUint32_eq hacc.left, Xdr.advance_advance, Bool.not_true, Bool.false_eq_true,
    if_false, if_true, ne_eq, not_true_eq_false]
  rfl

end HtcLeo
