import HtcLeo.Runs
import HtcLeo.XdrStd

/-!
# Safety of the receive cursor

Everything a program decodes goes through `xdr_std_recv_uint32` and
`xdr_std_recv_bytes`. The second compares `in_next + (int)len` with
`in_len`, where `len` often comes from the message: a length of `2 ^ 31`
or more is negative after the cast, and one just below makes the sum
overflow. `recv_cursor_safe_iff` says which sequences of calls keep the
cursor and the reads inside the message.
-/

namespace HtcLeo

/-- A receive call; `copy` says that the buffer is not null. -/
inductive RecvCall where
  | uint32
  | bytes (copy : Bool) (len : Word)
deriving DecidableEq, Repr

/-- The bytes the call asks for. -/
def RecvCall.need : RecvCall → Nat
  | uint32 => 4
  | bytes _ len => len.toNat

/-- The status and the handle afterwards. -/
def recvCall (xdr : Xdr) : RecvCall → Bool × Xdr
  | .uint32 => ((xdrStdRecvUint32 xdr 0).1, (xdrStdRecvUint32 xdr 0).2.1)
  | .bytes true len => ((xdrStdRecvBytes xdr [] len).1, (xdrStdRecvBytes xdr [] len).2.1)
  | .bytes false len => xdrStdSkipBytes xdr len

def recvNext (xdr : Xdr) (call : RecvCall) : Xdr := (recvCall xdr call).2

/-- The call copies what it takes out of the message. -/
def RecvCall.copies : RecvCall → Bool
  | uint32 => true
  | bytes copy _ => copy

/-- The call reads offset `a` of the incoming message. -/
def RecvCall.Reads (xdr : Xdr) (a : Int) (call : RecvCall) : Prop :=
  (recvCall xdr call).1 = true ∧ call.copies = true ∧ xdr.inNext ≤ a ∧ a < xdr.inNext + call.need

/-- `in_len` rounded up to whole words. -/
def Xdr.paddedLen (xdr : Xdr) : Int := (xdr.inLen + 3) / 4 * 4

/-- What a call must not do to the message. -/
structure RecvSafe (xdr : Xdr) (call : RecvCall) : Prop where
  inside : ∀ a, call.Reads xdr a → 0 ≤ a ∧ a < xdr.inLen
  mono : xdr.inNext ≤ (recvNext xdr call).inNext
  bound : (recvNext xdr call).inNext ≤ xdr.paddedLen
  refuses : xdr.inLen < xdr.inNext + call.need → (recvCall xdr call).1 = false

/-- The end of the bytes asked for is an `int`. From inside the padding behind
the last byte, lengths next to `2 ^ 32` are refused as well. -/
def RecvInRange (xdr : Xdr) : RecvCall → Prop
  | .uint32 => True
  | .bytes _ len => xdr.inNext + len.toNat < 2 ^ 31 ∨ xdr.inLen + 2 ^ 32 < xdr.inNext + len.toNat

instance (xdr : Xdr) (call : RecvCall) : Decidable (RecvInRange xdr call) :=
  match call with
  | .uint32 => isTrue trivial
  | .bytes _ _ => inferInstanceAs (Decidable (_ ∨ _))

/-- The cursor of a message that was read. -/
structure Xdr.InMessage (xdr : Xdr) : Prop where
  nonneg : 0 ≤ xdr.inNext
  aligned : xdr.inNext % 4 = 0
  bound : xdr.inNext ≤ xdr.paddedLen
  lo : 8 ≤ xdr.inLen
  hi : xdr.inLen ≤ 2048

theorem xdrStdRead_inMessage {xdr : Xdr} {packet : List Byte}
    (h : (xdrStdRead xdr (some packet)).1 = true) :
    (xdrStdRead xdr (some packet)).2.InMessage := by
  have hlen : (packet.take rpcrouterMsgsizeMax.toNat).length ≤ 2048 := by
    rw [List.length_take]
    exact Nat.min_le_left ..
  unfold xdrStdRead at h ⊢
  simp only at h ⊢
  split at h
  · cases h
  · rename_i hlo
    rw [if_neg hlo]
    refine ⟨show (0 : Int) ≤ 8 by decide, rfl, ?_, ?_, ?_⟩
    · simp only [Xdr.paddedLen]
      omega
    · simp only
      omega
    · simp only
      omega

/-! ## One call -/

theorem recvCall_uint32 (xdr : Xdr) :
    recvCall xdr .uint32
      = if xdr.inNext + 4 > xdr.inLen then (false, xdr) else (true, xdr.advance 4) := by
  rw [recvCall, xdrStdRecvUint32]
  split <;> rfl

theorem recvCall_bytes (xdr : Xdr) (copy : Bool) (len : Word) :
    recvCall xdr (.bytes copy len)
      = if recvBytesFails xdr len then (false, xdr) else (true, xdr.skipBytes len) := by
  cases copy with
  | true =>
      rw [recvCall, xdrStdRecvBytes]
      split <;> rfl
  | false => rfl

/-- What the check of a byte call compares, with the overflow resolved. -/
theorem recvBytesFails_iff {xdr : Xdr} (hx : xdr.InMessage) (len : Word) :
    recvBytesFails xdr len ↔
      xdr.inLen < xdr.inNext + len.toNat ∧ RecvInRange xdr (.bytes true len) := by
  obtain ⟨hlo, -, hbound, hlen, hmax⟩ := hx
  have hint := BitVec.toInt_eq_toNat_cond len
  have hlt := len.isLt
  simp only [Xdr.paddedLen] at hbound
  simp only [recvBytesFails, RecvInRange, wrap32, Int.bmod]
  split at hint <;> split <;> omega

/-- The cursor after a byte call that had its bytes. -/
theorem skipBytes_inNext {xdr : Xdr} (len : Word) (hlo : 0 ≤ xdr.inNext)
    (hhi : xdr.inNext + len.toNat ≤ 2048) :
    (xdr.skipBytes len).inNext = (xdr.inNext + len.toNat + 3) / 4 * 4 := by
  simp only [Xdr.skipBytes, roundUp4]
  rw [wrap32_eq (x := xdr.inNext + len.toNat) (by omega) (by omega),
    wrap32_eq (by omega) (by omega)]
  omega

theorem recvSafe_of_refused {xdr : Xdr} {call : RecvCall} (hx : xdr.InMessage)
    (h : recvCall xdr call = (false, xdr)) : RecvSafe xdr call where
  inside := by
    rintro a ⟨hok, -⟩
    rw [h] at hok
    cases hok
  mono := by rw [recvNext, h]
  bound := by rw [recvNext, h]; exact hx.bound
  refuses := fun _ => by rw [h]

theorem recvSafe_of_taken {xdr xdr' : Xdr} {call : RecvCall} (hx : xdr.InMessage)
    (h : recvCall xdr call = (true, xdr')) (hfits : xdr.inNext + call.need ≤ xdr.inLen)
    (hnext : xdr'.inNext = (xdr.inNext + call.need + 3) / 4 * 4) : RecvSafe xdr call where
  inside := by
    rintro a ⟨-, -, hge, hlt⟩
    have := hx.nonneg
    omega
  mono := by simp only [recvNext, h]; omega
  bound := by simp only [recvNext, h, Xdr.paddedLen]; omega
  refuses := fun hshort => by omega

/-- A call is safe exactly if the end of its bytes is in range. -/
theorem recvSafe_iff {xdr : Xdr} (hx : xdr.InMessage) (call : RecvCall) :
    RecvSafe xdr call ↔ RecvInRange xdr call := by
  have hlo := hx.nonneg
  have hmax := hx.hi
  cases call with
  | uint32 =>
      refine iff_of_true ?_ trivial
      have hcall := recvCall_uint32 xdr
      split at hcall
      · exact recvSafe_of_refused hx hcall
      · have hal := hx.aligned
        refine recvSafe_of_taken hx hcall ?_ ?_
        · simp only [RecvCall.need]
          omega
        · simp only [Xdr.advance_inNext, RecvCall.need]
          omega
  | bytes copy len =>
      have hcall := recvCall_bytes xdr copy len
      have hfails := recvBytesFails_iff hx len
      constructor
      · intro hsafe
        by_contra hrange
        -- Out of range there are never enough bytes, but the check passes.
        have hshort : xdr.inLen < xdr.inNext + len.toNat := by
          simp only [RecvInRange] at hrange
          omega
        have hrefused := hsafe.refuses hshort
        rw [hcall, if_neg fun hf => hrange (hfails.mp hf).2] at hrefused
        cases hrefused
      · intro hrange
        split at hcall
        · exact recvSafe_of_refused hx hcall
        · rename_i hpass
          have hfits : xdr.inNext + len.toNat ≤ xdr.inLen := by
            by_contra hshort
            exact hpass (hfails.mpr ⟨by omega, hrange⟩)
          exact recvSafe_of_taken hx hcall hfits (skipBytes_inNext len hlo (by omega))

/-! ## Runs of calls -/

theorem recvNext_inLen (xdr : Xdr) (call : RecvCall) : (recvNext xdr call).inLen = xdr.inLen := by
  cases call with
  | uint32 => rw [recvNext, recvCall_uint32]; split <;> rfl
  | bytes copy len => rw [recvNext, recvCall_bytes]; split <;> rfl

theorem recvNext_aligned {xdr : Xdr} (call : RecvCall) (hal : xdr.inNext % 4 = 0) :
    (recvNext xdr call).inNext % 4 = 0 := by
  cases call with
  | uint32 =>
      rw [recvNext, recvCall_uint32]
      split
      · exact hal
      · simp only [Xdr.advance_inNext]
        omega
  | bytes copy len =>
      rw [recvNext, recvCall_bytes]
      split
      · exact hal
      · simp only [Xdr.skipBytes, roundUp4]
        omega

theorem RecvSafe.inMessage {xdr : Xdr} {call : RecvCall} (h : RecvSafe xdr call)
    (hx : xdr.InMessage) : (recvNext xdr call).InMessage where
  nonneg := Int.le_trans hx.nonneg h.mono
  aligned := recvNext_aligned call hx.aligned
  bound := by simpa only [Xdr.paddedLen, recvNext_inLen] using h.bound
  lo := by rw [recvNext_inLen]; exact hx.lo
  hi := by rw [recvNext_inLen]; exact hx.hi

/-- For every message that was read and every sequence of receive calls: no call
reads outside the message, moves the cursor back or too far, or succeeds
without its bytes, exactly if every call asks for bytes that end in range. -/
theorem recv_cursor_safe_iff (xdr : Xdr) (packet : List Byte)
    (hread : (xdrStdRead xdr (some packet)).1 = true) (calls : List RecvCall) :
    AllSteps recvNext RecvSafe (xdrStdRead xdr (some packet)).2 calls ↔
      AllSteps recvNext RecvInRange (xdrStdRead xdr (some packet)).2 calls :=
  allSteps_iff (I := Xdr.InMessage) (fun _ call hx => recvSafe_iff hx call)
    (fun _ _ hx hsafe => hsafe.inMessage hx) (xdrStdRead_inMessage hread)

/-- A reply up to its verifier, whose length field is `2 ^ 32 - 4`. -/
def hugeVerifierReply : List Byte :=
  [1, 1, 0, 0, 0xfffffffc].flatMap (fun w : Word => Mem.wordBytes w)

/-- A handle that has read it. -/
def hugeVerifierXdr : Xdr := (xdrStdRead (xdrInitCommon 3 true) (some hugeVerifierReply)).2

/-- The calls of `xdr_recv_reply_header`: reply status, flavour and length of
the verifier, and the body of that length. -/
def verifierCalls : List RecvCall := [.uint32, .uint32, .uint32, .bytes false 0xfffffffc]

/-- The body is "received" although the message ends before it, and the cursor
goes back by one word. -/
theorem huge_verifier_moves_back :
    (xdrStdRead (xdrInitCommon 3 true) (some hugeVerifierReply)).1 = true
      ∧ (runFrom recvNext hugeVerifierXdr (verifierCalls.take 3)).inNext = 20
      ∧ (recvCall (runFrom recvNext hugeVerifierXdr (verifierCalls.take 3))
          (.bytes false 0xfffffffc)).1 = true
      ∧ (runFrom recvNext hugeVerifierXdr verifierCalls).inNext = 16
      ∧ ¬ AllSteps recvNext RecvSafe hugeVerifierXdr verifierCalls := by
  refine ⟨by decide, by decide, by decide, by decide, ?_⟩
  rintro ⟨-, -, -, hsafe, -⟩
  exact absurd hsafe.mono (by decide)

/-- The same calls with a verifier of one word. -/
theorem short_verifier_safe :
    AllSteps recvNext RecvSafe
      (xdrStdRead (xdrInitCommon 3 true)
        (some ([1, 1, 0, 0, 4, 7].flatMap fun w : Word => Mem.wordBytes w))).2
      [.uint32, .uint32, .uint32, .bytes false 4] :=
  (recv_cursor_safe_iff _ _ (by decide) _).mpr (by decide)

end HtcLeo
