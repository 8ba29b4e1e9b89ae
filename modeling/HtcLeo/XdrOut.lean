import HtcLeo.Runs
import HtcLeo.XdrStd

/-!
# Bounds of the outgoing message

Everything a program encodes goes through `xdr_std_send_uint32` and
`xdr_std_send_bytes`. The first refuses at `RPCROUTER_MSGSIZE_MAX - 3`;
the second compares the end of the bytes with `RPCROUTER_MSGSIZE_MAX`
and pads afterwards. The two tests agree because the cursor stays at a
word boundary: a call appends its padded data or does nothing
(`sendCall_eq`), and all that a run of sends does to the message follows
from that.
-/

namespace HtcLeo

/-- A primitive send; the size of an object is an `int` on the target. -/
inductive SendCall where
  | int8 (value : Byte)
  | int16 (value : BitVec 16)
  | int32 (value : Word)
  | uint8 (value : Byte)
  | uint16 (value : BitVec 16)
  | uint32 (value : Word)
  | bytes (buf : List Byte) (hlen : buf.length < 2 ^ 31)

/-- The status and the handle afterwards. -/
def sendCall (xdr : Xdr) : SendCall → Bool × Xdr
  | .int8 value => xdrStdSendInt8 xdr value
  | .int16 value => xdrStdSendInt16 xdr value
  | .int32 value => xdrStdSendInt32 xdr value
  | .uint8 value => xdrStdSendUint8 xdr value
  | .uint16 value => xdrStdSendUint16 xdr value
  | .uint32 value => xdrStdSendUint32 xdr value
  | .bytes buf _ => xdrStdSendBytes xdr buf (BitVec.ofNat 32 buf.length)

def sendNext (xdr : Xdr) (call : SendCall) : Xdr := (sendCall xdr call).2

/-- A word, or the bytes rounded up to whole words. -/
def SendCall.paddedSize : SendCall → Nat
  | bytes buf _ => (buf.length + 3) / 4 * 4
  | _ => 4

/-- The call stores something at offset `a`, which shows for some message before. -/
def SendCall.Writes (xdr : Xdr) (a : Int) (call : SendCall) : Prop :=
  ∃ m, (sendNext { xdr with outMsg := m } call).outMsg a ≠ m a

/-- The cursor of a message under construction. -/
structure Xdr.OutCursor (xdr : Xdr) : Prop where
  aligned : xdr.outNext % 4 = 0
  lo : 8 ≤ xdr.outNext
  hi : xdr.outNext ≤ 2048

/-- What a call may do to the message. -/
structure SendSafe (xdr : Xdr) (call : SendCall) : Prop where
  before : xdr.OutCursor
  after : (sendNext xdr call).OutCursor
  inside : ∀ a, call.Writes xdr a → 0 ≤ a ∧ a < 2048
  mono : xdr.outNext ≤ (sendNext xdr call).outNext
  keeps : ∀ a, a < xdr.outNext → (sendNext xdr call).outMsg a = xdr.outMsg a
  refused : (sendCall xdr call).1 = false → sendNext xdr call = xdr
  refuses : (sendCall xdr call).1 = false ↔ 2048 < xdr.outNext + call.paddedSize

/-! ## What a call appends -/

def SendCall.data : SendCall → List Byte
  | int8 value => Mem.wordBytes (value.signExtend 32)
  | int16 value => Mem.wordBytes (value.signExtend 32)
  | int32 value => Mem.wordBytes value
  | uint8 value => Mem.wordBytes (value.setWidth 32)
  | uint16 value => Mem.wordBytes (value.setWidth 32)
  | uint32 value => Mem.wordBytes value
  | bytes buf _ => paddedBytes buf

theorem length_paddedBytes (bs : List Byte) : (paddedBytes bs).length = (bs.length + 3) / 4 * 4 := by
  simp only [paddedBytes, padding, List.length_append, List.length_replicate]
  omega

theorem SendCall.length_data (call : SendCall) : call.data.length = call.paddedSize := by
  cases call with
  | bytes buf hlen => exact length_paddedBytes buf
  | _ => rfl

theorem xdrStdSendUint32_cases (xdr : Xdr) (value : Word) :
    xdrStdSendUint32 xdr value
      = if 2048 < xdr.outNext + (4 : Nat) then (false, xdr)
        else (true, xdr.emit (Mem.wordBytes value)) := by
  by_cases hroom : xdr.outNext ≤ 2044
  · rw [xdrStdSendUint32_eq value hroom, if_neg (by omega)]
  · rw [xdrStdSendUint32, if_pos (by rw [rpcrouterMsgsizeMax]; omega), if_pos (by omega)]

/-- At a word boundary the bytes fit exactly when they fit with their padding. -/
theorem xdrStdSendBytes_cases {xdr : Xdr} (hx : xdr.OutCursor) {buf : List Byte}
    (hlen : buf.length < 2 ^ 31) :
    xdrStdSendBytes xdr buf (BitVec.ofNat 32 buf.length)
      = if 2048 < xdr.outNext + ((buf.length + 3) / 4 * 4 : Nat) then (false, xdr)
        else (true, xdr.emit (paddedBytes buf)) := by
  obtain ⟨hal, hlo, hhi⟩ := hx
  have hsize : (BitVec.ofNat 32 buf.length).toNat = buf.length := by
    rw [BitVec.toNat_ofNat]
    omega
  have hready : xdr.OutReady := ⟨by omega, hhi, hal⟩
  rcases hsend : xdrStdSendBytes xdr buf (BitVec.ofNat 32 buf.length) with ⟨ok, xdr'⟩
  cases ok with
  | true =>
      obtain ⟨rfl, hfit⟩ := xdrStdSendBytes_true hready hsize.symm (by omega) hsend
      rw [length_paddedBytes] at hfit
      rw [if_neg (by omega)]
  | false =>
      have hsum : ((BitVec.ofInt 32 xdr.outNext + BitVec.ofNat 32 buf.length).toNat : Int)
          = xdr.outNext + buf.length := by
        rw [BitVec.toNat_add, BitVec.toNat_ofInt, hsize]
        omega
      unfold xdrStdSendBytes at hsend
      rw [hsum, rpcrouterMsgsizeMax] at hsend
      split at hsend
      · rw [← (Prod.mk.inj hsend).2, if_pos (by omega)]
      · cases hsend

/-- A call appends its padded data, if there is room, and otherwise does nothing. -/
theorem sendCall_eq {xdr : Xdr} (hx : xdr.OutCursor) (call : SendCall) :
    sendCall xdr call
      = if 2048 < xdr.outNext + call.paddedSize then (false, xdr)
        else (true, xdr.emit call.data) := by
  cases call with
  | bytes buf hlen => exact xdrStdSendBytes_cases hx hlen
  | _ => exact xdrStdSendUint32_cases ..

/-! ## Runs -/

theorem xdrStdMsgStart_outCursor (xdr : Xdr) (type : RpcMsgType) :
    (xdrStdMsgStart xdr type).2.OutCursor :=
  ⟨rfl, show (8 : Int) ≤ 8 by decide, show (8 : Int) ≤ 2048 by decide⟩

theorem SendCall.paddedSize_mod (call : SendCall) : call.paddedSize % 4 = 0 := by
  cases call with
  | bytes buf hlen => exact Nat.mul_mod_left ..
  | _ => exact Nat.mod_self 4

/-- A call without room for its data. -/
theorem sendSafe_of_full {xdr : Xdr} (hx : xdr.OutCursor) {call : SendCall}
    (hfull : 2048 < xdr.outNext + call.paddedSize) : SendSafe xdr call := by
  have hcall : ∀ x : Xdr, x.OutCursor → 2048 < x.outNext + call.paddedSize →
      sendCall x call = (false, x) := by
    intro x hx hfull
    rw [sendCall_eq hx, if_pos hfull]
  have hnext : sendNext xdr call = xdr := congrArg Prod.snd (hcall xdr hx hfull)
  constructor
  case before => exact hx
  case after =>
    rw [hnext]
    exact hx
  case inside =>
    rintro a ⟨m, hm⟩
    have hsame := hcall { xdr with outMsg := m } ⟨hx.aligned, hx.lo, hx.hi⟩ hfull
    rw [sendNext, hsame] at hm
    exact absurd rfl hm
  case mono => rw [hnext]
  case keeps =>
    rw [hnext]
    exact fun _ _ => rfl
  case refused => exact fun _ => hnext
  case refuses =>
    rw [hcall xdr hx hfull]
    exact iff_of_true rfl hfull

/-- A call with room for its data. -/
theorem sendSafe_of_room {xdr : Xdr} (hx : xdr.OutCursor) {call : SendCall}
    (hroom : ¬ 2048 < xdr.outNext + call.paddedSize) : SendSafe xdr call := by
  have hcall : ∀ x : Xdr, x.OutCursor → ¬ 2048 < x.outNext + call.paddedSize →
      sendCall x call = (true, x.emit call.data) := by
    intro x hx hroom
    rw [sendCall_eq hx, if_neg hroom]
  have hnext : sendNext xdr call = xdr.emit call.data := congrArg Prod.snd (hcall xdr hx hroom)
  have hsize := call.length_data
  have hmod := call.paddedSize_mod
  obtain ⟨hal, hlo, hhi⟩ := hx
  constructor
  case before => exact ⟨hal, hlo, hhi⟩
  case after =>
    rw [hnext]
    refine ⟨?_, ?_, ?_⟩ <;> rw [Xdr.emit_outNext, hsize] <;> omega
  case inside =>
    rintro a ⟨m, hm⟩
    rw [sendNext, hcall { xdr with outMsg := m } ⟨hal, hlo, hhi⟩ hroom] at hm
    have hge : xdr.outNext ≤ a := by
      by_contra hlt
      exact hm (Mem.write_of_lt (Int.not_le.mp hlt))
    have hlt : a < xdr.outNext + call.data.length := by
      by_contra hge'
      exact hm (Mem.write_of_ge (Int.not_lt.mp hge'))
    omega
  case mono =>
    rw [hnext, Xdr.emit_outNext]
    omega
  case keeps =>
    intro a ha
    rw [hnext]
    exact Mem.write_of_lt ha
  case refused =>
    rw [hcall xdr ⟨hal, hlo, hhi⟩ hroom]
    exact nofun
  case refuses =>
    rw [hcall xdr ⟨hal, hlo, hhi⟩ hroom]
    exact iff_of_false nofun hroom

/-- One call at a word boundary. -/
theorem sendSafe {xdr : Xdr} (hx : xdr.OutCursor) (call : SendCall) : SendSafe xdr call := by
  by_cases hfull : 2048 < xdr.outNext + call.paddedSize
  · exact sendSafe_of_full hx hfull
  · exact sendSafe_of_room hx hfull

/-- **Bounds of the outgoing message.** In every run of sends behind a message
start the cursor is at a word boundary between 8 and 2048, what is stored lies in
the message and not in front of the cursor, and a call is refused, without any
effect, exactly when its padded size does not fit. -/
theorem send_buffer_safe (xdr : Xdr) (type : RpcMsgType) (calls : List SendCall) :
    AllSteps sendNext SendSafe (xdrStdMsgStart xdr type).2 calls := by
  rw [allSteps_iff_split]
  intro before call after _
  refine sendSafe ?_ call
  exact runFrom_inv (I := Xdr.OutCursor) (fun x c hx => (sendSafe hx c).after)
    (xdrStdMsgStart_outCursor xdr type) before

end HtcLeo
