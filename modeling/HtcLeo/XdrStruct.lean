import HtcLeo.RpcExchange
import HtcLeo.XdrOut

/-!
# Structures, field by field

The argument procedures of a program built on `xdr.c` hand the fields of
a structure one after the other to the procedures of the library and give
up at the first that fails (`xdrField`). Encoding such a structure is
encoding a nested pair of its fields (`Encodes`), so what is known of the
codecs carries over to them. Whether a value still fits into a message is
read off the number of bytes it takes (`Codec.Takes`).
-/

namespace HtcLeo

section

variable {α β : Type}

/-- `if (!proc(xdrs, &field)) return 0;` and the rest of the procedure. -/
def xdrField (proc : XdrProc β) (get : α → β) (set : α → β → α) (rest : XdrProc α) : XdrProc α :=
  fun xdrs v =>
    let r := proc xdrs (get v)
    if !r.1 then (false, r.2.1, set v r.2.2) else rest r.2.1 (set v r.2.2)

/-- `return 1;` -/
def xdrDone : XdrProc α := fun xdrs v => (true, xdrs, v)

/-- Encoding the object is encoding the value of the codec. -/
def Encodes (proc : XdrProc α) (a : α) (c : Codec) (v : c.Obj) : Prop :=
  ∀ x : Xdr, x.xOp = .encode → x.OutReady →
    (proc x a).1 = (c.proc x v).1 ∧ (proc x a).2.1 = (c.proc x v).2.1

theorem encodes_self (c : Codec) (v : c.Obj) : Encodes c.proc v c v := fun _ _ _ => ⟨rfl, rfl⟩

/-- The last field. -/
theorem Encodes.last {proc : XdrProc β} {get : α → β} {a : α} {c : Codec} {v : c.Obj}
    (h : Encodes proc (get a) c v) (set : α → β → α) :
    Encodes (xdrField proc get set xdrDone) a c v := by
  intro x hop hx
  obtain ⟨hok, hnext⟩ := h x hop hx
  rw [← hok, ← hnext, xdrField]
  cases (proc x (get a)).1 <;> exact ⟨rfl, rfl⟩

/-- A field before the rest. -/
theorem Encodes.field {rest : XdrProc α} {a : α} {c : Codec} {v : c.Obj}
    (h : Encodes rest a c v) (c₀ : Codec) {get : α → c₀.Obj} {set : α → c₀.Obj → α}
    (hset : set a (get a) = a) (hwf : c₀.Wf (get a)) :
    Encodes (xdrField c₀.proc get set rest) a (.pair c₀ c) (get a, v) := by
  intro x hop hx
  rcases hfirst : c₀.proc x (get a) with ⟨ok, x', b⟩
  cases ok with
  | false =>
      change _ = (xdrPair c₀.proc c.proc x (get a, v)).1
        ∧ _ = (xdrPair c₀.proc c.proc x (get a, v)).2.1
      simp [xdrField, xdrPair, hfirst]
  | true =>
      obtain ⟨rfl, bs, rfl, h4, hfit, -⟩ := c₀.faithful hop hx hwf hfirst
      obtain ⟨hok, hnext⟩ := h (x.emit bs) hop (hx.emit h4 hfit)
      change _ = (xdrPair c₀.proc c.proc x (get a, v)).1
        ∧ _ = (xdrPair c₀.proc c.proc x (get a, v)).2.1
      simp [xdrField, xdrPair, hfirst, hset, hok, hnext]

/-- An object behind a pointer. -/
theorem Encodes.pointer {proc : XdrProc α} {a : α} {c : Codec} {v : c.Obj} (h : Encodes proc a c v)
    (zero : α) : Encodes (xdrPointer zero proc) (some a) (.pointer c) (some v : Option c.Obj) := by
  intro x hop hx
  change _ = (xdrPointer c.fresh c.proc x (some v)).1
    ∧ _ = (xdrPointer c.fresh c.proc x (some v)).2.1
  simp only [xdrPointer, Option.isSome_some, if_true]
  rcases hbool : xdrBool x 1 with ⟨ok, x', b⟩
  cases ok with
  | false => exact ⟨rfl, rfl⟩
  | true =>
      obtain ⟨rfl, bs, rfl, h4, hfit, -⟩ := faithful_bool 0 hop hx trivial hbool
      obtain ⟨hok, hnext⟩ := h (x.emit bs) hop (hx.emit h4 hfit)
      have hop' : (x.emit bs).xOp = .encode := hop
      simp only [Bool.not_true, Bool.false_eq_true, if_false, one_ne_zero_word, xdrReference, hop']
      exact ⟨hok, hnext⟩

/-- The call of a client that encodes its arguments so. -/
theorem Encodes.clntCallStart {proc : XdrProc α} {a : α} {c : Codec} {v : c.Obj}
    (h : Encodes proc a c v) (client : Xdr) (procno : Word) :
    clntCallStart client procno proc a = clntCallStart client procno c.proc v := by
  obtain ⟨hok, hnext⟩ := h (client.callStart procno) rfl (client.callStart_outReady procno)
  rw [clntCallStart_eq, clntCallStart_eq, hok, hnext]

end

/-! ## Sizes -/

/-- The value takes `n` bytes of any message that has room for them. -/
def Codec.Takes (c : Codec) (v : c.Obj) (n : Nat) : Prop :=
  ∀ x : Xdr, x.xOp = .encode → x.OutCursor → x.outNext + n ≤ 2048 →
    (c.proc x v).1 = true ∧ (c.proc x v).2.1.outNext = x.outNext + n

theorem Xdr.OutCursor.ready {x : Xdr} (h : x.OutCursor) : x.OutReady :=
  ⟨Int.le_trans (by decide) h.lo, h.hi, h.aligned⟩

theorem Codec.Takes.fits {c : Codec} {v : c.Obj} {n : Nat} (h : c.Takes v n) {start : Int}
    (hlo : 8 ≤ start) (hroom : start + n ≤ 2048) : c.Fits v start := by
  intro x hop hx hstart
  subst hstart
  exact (h x hop ⟨hx.aligned, hlo, hx.fits⟩ hroom).1

theorem sendUint32_takes {x : Xdr} (v : Word) (hroom : x.outNext + (4 : Nat) ≤ 2048) :
    (xdrStdSendUint32 x v).1 = true ∧ (xdrStdSendUint32 x v).2.outNext = x.outNext + (4 : Nat) := by
  rw [xdrStdSendUint32_eq v (by omega)]
  exact ⟨rfl, rfl⟩

theorem takes_uLong (v : Word) : Codec.uLong.Takes v 4 := by
  intro x hop _ hroom
  change (xdrULong x v).1 = true ∧ (xdrULong x v).2.1.outNext = _
  simp only [xdrULong, xdrWord, hop]
  exact sendUint32_takes v hroom

theorem takes_int (v : Word) : Codec.int.Takes v 4 := by
  intro x hop _ hroom
  change (xdrInt x v).1 = true ∧ (xdrInt x v).2.1.outNext = _
  simp only [xdrInt, xdrWord, hop]
  exact sendUint32_takes v hroom

theorem takes_uChar (c : Byte) : Codec.uChar.Takes c 4 := by
  intro x hop _ hroom
  obtain ⟨hok, hnext⟩ := sendUint32_takes (c.setWidth 32) hroom
  change (xdrUChar x c).1 = true ∧ (xdrUChar x c).2.1.outNext = _
  simp only [xdrUChar, xdrThrough, xdrUInt, xdrWord, hop, hok, if_true, hnext, and_self]

theorem takes_uShort (s : BitVec 16) : Codec.uShort.Takes s 4 := by
  intro x hop _ hroom
  change (xdrUShort x s).1 = true ∧ (xdrUShort x s).2.1.outNext = _
  simp only [xdrUShort, xdrShortWith, hop]
  exact sendUint32_takes _ hroom

theorem takes_uQuadT (v : BitVec 64) : Codec.uQuadT.Takes v 8 := by
  intro x hop _ hroom
  have hhigh := xdrStdSendUint32_eq (v.extractLsb' 32 32) (show x.outNext ≤ 2044 by omega)
  obtain ⟨hok, hnext⟩ := sendUint32_takes (x := x.emit (Mem.wordBytes (v.extractLsb' 32 32)))
    (v.extractLsb' 0 32) (by rw [Xdr.emit_outNext, Mem.length_wordBytes]; omega)
  rw [Xdr.emit_outNext, Mem.length_wordBytes] at hnext
  change (xdrUQuadT x v).1 = true ∧ (xdrUQuadT x v).2.1.outNext = _
  simp only [xdrUQuadT, xdrUHyper, hop, xdrStdSendInt32, hhigh, if_true]
  exact ⟨hok, hnext.trans (by omega)⟩

/-- A byte string takes a word for its size and whole words for its bytes. -/
theorem takes_bytes {bs : List Byte} {size : Word} (hlen : bs.length = size.toNat)
    (hint : size.toNat < 2 ^ 31) {maxsize : Word} (hmax : size ≤ maxsize) :
    (Codec.bytes maxsize).Takes ⟨some bs, size⟩ (4 + (bs.length + 3) / 4 * 4) := by
  intro x hop hx hroom
  have hsize : BitVec.ofNat 32 bs.length = size := by
    rw [hlen, BitVec.ofNat_toNat, BitVec.setWidth_eq]
  have hcursor : (x.emit (Mem.wordBytes size)).OutCursor := by
    have hnext : (x.emit (Mem.wordBytes size)).outNext = x.outNext + 4 := by simp
    obtain ⟨hal, hlo, -⟩ := hx
    exact ⟨by omega, by omega, by omega⟩
  have hsend := xdrStdSendBytes_cases hcursor (hlen ▸ hint)
  rw [hsize, Xdr.emit_outNext, Mem.length_wordBytes, if_neg (by omega)] at hsend
  change (xdrBytes maxsize x ⟨some bs, size⟩).1 = true
    ∧ (xdrBytes maxsize x ⟨some bs, size⟩).2.1.outNext = _
  simp only [xdrBytes, hop, xdrStdSendUint32_eq size (show x.outNext ≤ 2044 by omega),
    Bool.true_and, hmax, decide_true, if_true, Counted.items, Option.getD_some, hsend]
  refine ⟨trivial, ?_⟩
  rw [Xdr.emit_outNext, Xdr.emit_outNext, length_paddedBytes, Mem.length_wordBytes]
  push_cast
  omega

theorem Codec.Takes.pair {c₀ c : Codec} {u : c₀.Obj} {v : c.Obj} {m n : Nat} (h₀ : c₀.Takes u m)
    (hwf : c₀.Wf u) (h : c.Takes v n) : (Codec.pair c₀ c).Takes (u, v) (m + n) := by
  intro x hop hx hroom
  rcases hfirst : c₀.proc x u with ⟨ok, x', u'⟩
  obtain ⟨hok, hnext⟩ := h₀ x hop hx (by omega)
  rw [hfirst] at hok hnext
  simp only at hok hnext
  subst hok
  obtain ⟨-, bs, rfl, h4, hfit, -⟩ := c₀.faithful hop hx.ready hwf hfirst
  have hcursor : (x.emit bs).OutCursor := by
    obtain ⟨hal, hlo, -⟩ := hx
    exact ⟨by rw [Xdr.emit_outNext]; omega, by rw [Xdr.emit_outNext]; omega, by
      rw [Xdr.emit_outNext]; exact hfit⟩
  obtain ⟨hok', hnext'⟩ := h (x.emit bs) hop hcursor (by rw [hnext]; push_cast at hroom; omega)
  change (xdrPair c₀.proc c.proc x (u, v)).1 = true
    ∧ (xdrPair c₀.proc c.proc x (u, v)).2.1.outNext = _
  simp only [xdrPair, hfirst, if_true]
  exact ⟨hok', by rw [hnext', hnext]; push_cast; omega⟩

/-- A pointer to an object takes a word more than the object. -/
theorem Codec.Takes.pointer {c : Codec} {v : c.Obj} {n : Nat} (h : c.Takes v n) :
    (Codec.pointer c).Takes (some v : Option c.Obj) (4 + n) := by
  intro x hop hx hroom
  have hbool : xdrBool x 1 = (true, x.emit (Mem.wordBytes 1), 1) := by
    simp only [xdrBool, hop]
    rw [xdrStdSendUint32_eq _ (by omega)]
    rfl
  have hnext : (x.emit (Mem.wordBytes 1)).outNext = x.outNext + 4 := by simp
  have hcursor : (x.emit (Mem.wordBytes 1)).OutCursor := by
    obtain ⟨hal, hlo, -⟩ := hx
    exact ⟨by omega, by omega, by omega⟩
  obtain ⟨hok', hnext'⟩ := h (x.emit (Mem.wordBytes 1)) hop hcursor
    (by rw [hnext]; push_cast at hroom; omega)
  have hop' : (x.emit (Mem.wordBytes 1)).xOp = .encode := hop
  change (xdrPointer c.fresh c.proc x (some v)).1 = true
    ∧ (xdrPointer c.fresh c.proc x (some v)).2.1.outNext = _
  simp only [xdrPointer, Option.isSome_some, if_true, hbool, Bool.not_true,
    Bool.false_eq_true, if_false, one_ne_zero_word, xdrReference, hop']
  exact ⟨hok', by rw [hnext', hnext]; push_cast; omega⟩

end HtcLeo
