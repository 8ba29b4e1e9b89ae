import HtcLeo.Xdr

/-!
# Decoding undoes encoding

`Faithful` is what a procedure has to satisfy: a successful encoding
appends some bytes, and decoding consumes exactly these bytes and gives
an equal object. It is proved for each procedure of `HtcLeo.Xdr`, for the
combinators under the assumption that it holds of their elements. A
`Codec` names a procedure built from them, with its type of objects, and
the result for all of them is an induction over `Codec`
(`Codec.faithful`). A sequence of values follows from one value
(`xdr_decode_undoes_encode`).
-/

namespace HtcLeo

/-! ## Faithful procedures -/

/-- From any message that has `bs` at the cursor the procedure decodes `v`. -/
def Decodes {α : Type} (proc : XdrProc α) (fresh : α) (Same : α → α → Prop) (bs : List Byte)
    (v : α) : Prop :=
  ∀ y : Xdr, y.xOp = .decode → y.Holds bs →
    ∃ w, proc y fresh = (true, y.advance bs.length, w) ∧ Same w v

/-- Encoding a well-formed object appends whole words, from which decoding into
a fresh object gives the same object. -/
def Faithful {α : Type} (proc : XdrProc α) (fresh : α) (Wf : α → Prop) (Same : α → α → Prop) :
    Prop :=
  ∀ {x x' : Xdr} {v v' : α}, x.xOp = .encode → x.OutReady → Wf v →
    proc x v = (true, x', v') →
      v' = v ∧ ∃ bs, x' = x.emit bs ∧ bs.length % 4 = 0 ∧ x.outNext + bs.length ≤ 2048
        ∧ Decodes proc fresh Same bs v

/-- Two parts appended one after the other. -/
theorem emit_append_bounds {x : Xdr} {as bs : List Byte} (has : as.length % 4 = 0)
    (hbs : bs.length % 4 = 0) (hfit : (x.emit as).outNext + bs.length ≤ 2048) :
    (as ++ bs).length % 4 = 0 ∧ x.outNext + (as ++ bs).length ≤ 2048 := by
  rw [Xdr.emit_outNext] at hfit
  rw [List.length_append]
  push_cast
  omega

/-! ## Numbers -/

theorem faithful_uInt (fresh : Word) : Faithful xdrUInt fresh (fun _ => True) Eq := by
  intro x x' v v' hop hx _ h
  simp only [xdrUInt, xdrWord, hop, Prod.mk.injEq] at h
  obtain ⟨hok, hx', rfl⟩ := h
  obtain ⟨rfl, hroom⟩ := xdrStdSendUint32_true (Prod.ext hok hx')
  refine ⟨rfl, Mem.wordBytes v, rfl, by simp, by simp; omega, fun y hy hholds => ⟨v, ?_, rfl⟩⟩
  simp only [xdrUInt, xdrWord, hy]
  exact xdrStdRecvUint32_eq hholds fresh

/-- The signed procedures move the same words. -/
theorem faithful_int (fresh : Word) : Faithful xdrInt fresh (fun _ => True) Eq :=
  faithful_uInt fresh

theorem one_ne_zero_word : ¬(1 : Word) = 0 := by decide

theorem setWidth_setWidth_byte (c : Byte) : (c.setWidth 32).setWidth 8 = c := by
  simp

theorem faithful_through {proc : XdrProc Word} (h : ∀ fresh, Faithful proc fresh (fun _ => True) Eq)
    (fresh : Byte) : Faithful (xdrThrough proc) fresh (fun _ => True) Eq := by
  intro x x' v v' hop hx _ henc
  simp only [xdrThrough] at henc
  split at henc
  · rename_i hok
    simp only [Prod.mk.injEq, true_and] at henc
    obtain ⟨rfl, rfl⟩ := henc
    obtain ⟨hv, bs, hbs, hlen, hfit, hdec⟩ := h (fresh.setWidth 32) hop hx trivial
      (show proc x (v.setWidth 32) = (true, _, _) from Prod.ext hok rfl)
    refine ⟨by rw [hv, setWidth_setWidth_byte], bs, hbs, hlen, hfit, fun y hy hholds => ?_⟩
    obtain ⟨w, hw, rfl⟩ := hdec y hy hholds
    refine ⟨v, ?_, rfl⟩
    simp only [xdrThrough, hw, if_true, setWidth_setWidth_byte]
  · cases henc

theorem faithful_shortWith {widen : BitVec 16 → Word} (hwiden : ∀ s, (widen s).setWidth 16 = s)
    (fresh : BitVec 16) :
    Faithful (xdrShortWith widen xdrStdSendUint32 xdrStdRecvUint32) fresh (fun _ => True) Eq := by
  intro x x' v v' hop hx _ h
  simp only [xdrShortWith, hop, Prod.mk.injEq] at h
  obtain ⟨hok, hx', rfl⟩ := h
  obtain ⟨rfl, hroom⟩ := xdrStdSendUint32_true (Prod.ext hok hx')
  refine ⟨rfl, Mem.wordBytes (widen v), rfl, by simp, by simp; omega,
    fun y hy hholds => ⟨v, ?_, rfl⟩⟩
  simp only [xdrShortWith, hy, xdrStdRecvUint32_eq hholds, if_true, hwiden]
  rfl

theorem setWidth_signExtend_short (s : BitVec 16) : (s.signExtend 32).setWidth 16 = s := by
  apply BitVec.eq_of_getLsbD_eq
  intro i hi
  rw [BitVec.getLsbD_setWidth, BitVec.getLsbD_signExtend, if_pos hi, decide_eq_true hi,
    decide_eq_true (show i < 32 by omega), Bool.true_and, Bool.true_and]

theorem faithful_short (fresh : BitVec 16) : Faithful xdrShort fresh (fun _ => True) Eq :=
  faithful_shortWith setWidth_signExtend_short fresh

theorem faithful_uShort (fresh : BitVec 16) : Faithful xdrUShort fresh (fun _ => True) Eq :=
  faithful_shortWith (fun s => by simp) fresh

theorem append_halves (v : BitVec 64) :
    (v.extractLsb' 32 32 ++ v.extractLsb' 0 32 : BitVec 64) = v := by
  rw [BitVec.extractLsb'_append_extractLsb'_eq_extractLsb' (by rfl)]
  exact BitVec.extractLsb'_eq_self

theorem faithful_uHyper (fresh : BitVec 64) : Faithful xdrUHyper fresh (fun _ => True) Eq := by
  intro x x' v v' hop hx _ h
  rcases hsend : xdrStdSendInt32 x (v.extractLsb' 32 32) with ⟨ok, x1⟩
  simp only [xdrUHyper, hop, hsend] at h
  cases ok with
  | false => cases h
  | true =>
      obtain ⟨rfl, hroom1⟩ := xdrStdSendUint32_true hsend
      simp only [if_true, Prod.mk.injEq] at h
      obtain ⟨hok2, hx2, rfl⟩ := h
      obtain ⟨rfl, hroom2⟩ := xdrStdSendUint32_true (Prod.ext hok2 hx2)
      simp only [Xdr.emit_outNext, Mem.length_wordBytes] at hroom2
      refine ⟨rfl, Mem.wordBytes (v.extractLsb' 32 32) ++ Mem.wordBytes (v.extractLsb' 0 32),
        Xdr.emit_emit .., by simp, by simp; omega, fun y hy hholds => ⟨v, ?_, rfl⟩⟩
      have hfirst := xdrStdRecvUint32_eq hholds.left 0
      have hsecond := xdrStdRecvUint32_eq (hholds.right (by simp)) 0
      rw [Mem.length_wordBytes] at hsecond
      simp only [xdrUHyper, hy, hfirst, if_true, hsecond, append_halves,
        Xdr.advance_advance, List.length_append, Mem.length_wordBytes]

/-- Up to the truth value. -/
theorem faithful_bool (fresh : Word) :
    Faithful xdrBool fresh (fun _ => True) (fun w v => w = 0 ↔ v = 0) := by
  intro x x' v v' hop hx _ h
  simp only [xdrBool, hop, Prod.mk.injEq] at h
  obtain ⟨hok, hx', rfl⟩ := h
  obtain ⟨rfl, hroom⟩ := xdrStdSendUint32_true (Prod.ext hok hx')
  refine ⟨rfl, Mem.wordBytes (if v ≠ 0 then 1 else 0), rfl, by simp, by simp; omega,
    fun y hy hholds => ⟨if v = 0 then 0 else 1, ?_, ?_⟩⟩
  · simp only [xdrBool, hy, xdrStdRecvUint32_eq hholds, if_true]
    by_cases hv : v = 0
    · rw [hv]; rfl
    · rw [if_pos hv, if_neg hv]; rfl
  · by_cases hv : v = 0
    · rw [hv]; decide
    · rw [if_neg hv]
      exact iff_of_false (by decide) hv

/-! ## Byte strings -/

/-- Bytes that are sent and received with their count. -/
theorem faithful_opaqueData (cnt : Word) :
    Faithful (xdrOpaque cnt) (List.replicate cnt.toNat 0)
      (fun v => v.length = cnt.toNat ∧ cnt.toNat < 2 ^ 31) Eq := by
  rintro x x' v v' hop hx ⟨hlen, hcnt⟩ h
  by_cases hzero : cnt = 0
  · simp only [xdrOpaque, if_pos hzero, Prod.mk.injEq, true_and] at h
    obtain ⟨rfl, rfl⟩ := h
    refine ⟨rfl, [], (Xdr.emit_nil x).symm, rfl, by simpa using hx.fits, fun y _ _ => ?_⟩
    have hnil : v = [] := List.length_eq_zero_iff.mp (by rw [hlen, hzero]; rfl)
    refine ⟨[], ?_, hnil.symm⟩
    simp [xdrOpaque, hzero, Xdr.advance]
  · simp only [xdrOpaque, if_neg hzero, hop, Prod.mk.injEq] at h
    obtain ⟨hok, hx', rfl⟩ := h
    obtain ⟨rfl, hfit⟩ := xdrStdSendBytes_true hx hlen hcnt (Prod.ext hok hx')
    refine ⟨rfl, paddedBytes v, rfl, length_paddedBytes_mod v, hfit, fun y hy hholds => ⟨v, ?_, rfl⟩⟩
    simp only [xdrOpaque, if_neg hzero, hy, xdrStdRecvBytes_eq hholds hlen hcnt]
    rw [List.drop_eq_nil_of_le (by simp), List.append_nil]

/-- A count in front of something else: the word goes out first and is read first. -/
theorem xdrStdSendUint32_then {x x1 : Xdr} {v : Word} (hx : x.OutReady)
    (h : xdrStdSendUint32 x v = (true, x1)) :
    x1 = x.emit (Mem.wordBytes v) ∧ x1.OutReady := by
  obtain ⟨rfl, hroom⟩ := xdrStdSendUint32_true h
  exact ⟨rfl, hx.emit (by simp) (by simp; omega)⟩

/-- The size and the bytes. -/
def Counted.Matches {α : Type} (a : Counted α) : Prop := a.items.length = a.size.toNat

theorem faithful_bytes (maxsize : Word) :
    Faithful (xdrBytes maxsize) ⟨none, 0⟩ (fun b => b.Matches ∧ b.size.toNat < 2 ^ 31)
      (fun w v => w.size = v.size ∧ w.items = v.items) := by
  rintro x x' v v' hop hx ⟨hlen, hint⟩ h
  rcases hsend : xdrStdSendUint32 x v.size with ⟨ok, x1⟩
  simp only [xdrBytes, hop, hsend] at h
  split at h
  · rename_i hguard
    rw [Bool.and_eq_true, decide_eq_true_eq] at hguard
    obtain ⟨rfl, hmax⟩ := hguard
    obtain ⟨rfl, hx1⟩ := xdrStdSendUint32_then hx hsend
    simp only [Prod.mk.injEq] at h
    obtain ⟨hok, hx', rfl⟩ := h
    obtain ⟨rfl, hfit⟩ := xdrStdSendBytes_true hx1 hlen hint (Prod.ext hok hx')
    obtain ⟨h4, hfit'⟩ := emit_append_bounds (by simp) (length_paddedBytes_mod v.items) hfit
    refine ⟨rfl, Mem.wordBytes v.size ++ paddedBytes v.items, Xdr.emit_emit .., h4, hfit',
      fun y hy hholds => ?_⟩
    have hfirst := xdrStdRecvUint32_eq hholds.left 0
    have hrest := hholds.right (by simp)
    rw [Mem.length_wordBytes] at hrest
    simp only [xdrBytes, hy, hfirst, Bool.not_true, Bool.false_or]
    rw [if_neg (by simpa using hmax)]
    by_cases hzero : v.size = 0
    · -- an empty string: no bytes are read, and none are there
      have hnil : v.items = [] := List.length_eq_zero_iff.mp (by rw [hlen, hzero]; rfl)
      refine ⟨⟨none, v.size⟩, ?_, rfl, hnil.symm⟩
      rw [if_pos hzero, hnil]
      rfl
    · refine ⟨⟨some v.items, v.size⟩, ?_, rfl, rfl⟩
      have hrecv := xdrStdRecvBytes_eq hrest hlen hint (List.replicate v.size.toNat 0)
      rw [List.drop_eq_nil_of_le (by simp), List.append_nil] at hrecv
      simp only [if_neg hzero, Option.getD_none, hrecv, Xdr.advance_advance, List.length_append,
        Mem.length_wordBytes]
  · cases h

theorem xdrStdSendBytes_take (x : Xdr) (buf : List Byte) (len : Word) :
    xdrStdSendBytes x (buf.take len.toNat) len = xdrStdSendBytes x buf len := by
  simp only [xdrStdSendBytes, List.take_take, Nat.min_self]

theorem cString_append_nul {bs : List Byte} (h : ∀ b ∈ bs, b ≠ 0) (rest : List Byte) :
    cString (bs ++ 0 :: rest) = bs := by
  rw [cString, List.takeWhile_append_of_pos (by simpa using h), List.takeWhile_cons_of_neg (by simp),
    List.append_nil]

theorem take_length_cString (cp : List Byte) : cp.take (cString cp).length = cString cp := by
  exact (List.prefix_iff_eq_take.mp (List.takeWhile_prefix _)).symm

theorem cString_nul_free (cp : List Byte) : ∀ b ∈ cString cp, b ≠ 0 := by
  intro b hb
  simpa using List.all_eq_true.mp List.all_takeWhile b hb

/-- The count of a string that fits an `int`. -/
theorem toNat_strlen {cp : List Byte} (h : (cString cp).length < 2 ^ 31) :
    (BitVec.ofNat 32 (cString cp).length).toNat = (cString cp).length := by
  rw [BitVec.toNat_ofNat, Nat.mod_eq_of_lt (by omega)]

/-- The bytes of a string, sent from longer storage. -/
theorem xdrOpaque_encode_string {x x' : Xdr} {cp cp' : List Byte} {len : Word}
    (hop : x.xOp = .encode) (hx : x.OutReady) (hlen : (cString cp).length = len.toNat)
    (hint : len.toNat < 2 ^ 31) (h : xdrOpaque len x cp = (true, x', cp')) :
    cp' = cp ∧ x' = x.emit (paddedBytes (cString cp))
      ∧ x.outNext + (paddedBytes (cString cp)).length ≤ 2048 := by
  by_cases hzero : len = 0
  · have hnil : cString cp = [] := List.length_eq_zero_iff.mp (by rw [hlen, hzero]; rfl)
    simp only [xdrOpaque, if_pos hzero, Prod.mk.injEq, true_and] at h
    rw [hnil, ← h.1, ← h.2]
    exact ⟨rfl, (Xdr.emit_nil x).symm, by simpa [paddedBytes, padding] using hx.fits⟩
  · simp only [xdrOpaque, if_neg hzero, hop, Prod.mk.injEq] at h
    obtain ⟨hok, hx', rfl⟩ := h
    rw [← xdrStdSendBytes_take, ← hlen, take_length_cString] at hok hx'
    exact ⟨rfl, xdrStdSendBytes_true hx hlen hint (Prod.ext hok hx')⟩

/-- Reading them back into storage with a NUL behind. -/
theorem xdrOpaque_decode_string {y : Xdr} {bs : List Byte} {len : Word} (hop : y.xOp = .decode)
    (hholds : y.Holds (paddedBytes bs)) (hlen : bs.length = len.toNat) (hint : len.toNat < 2 ^ 31) :
    xdrOpaque len y ((List.replicate (len.toNat + 1) 0).set len.toNat 0)
      = (true, y.advance (paddedBytes bs).length, bs ++ [0]) := by
  have hdrop : ((List.replicate (len.toNat + 1) (0 : Byte)).set len.toNat 0).drop len.toNat
      = [0] := by
    rw [List.set_replicate_self]
    simp
  by_cases hzero : len = 0
  · subst hzero
    obtain rfl : bs = [] := List.length_eq_zero_iff.mp hlen
    simp [xdrOpaque, Xdr.advance, paddedBytes, padding]
  · simp only [xdrOpaque, if_neg hzero, hop, xdrStdRecvBytes_eq hholds hlen hint, hdrop]

theorem faithful_string (maxsize : Word) :
    Faithful (xdrString maxsize) none (fun v => ∀ cp, v = some cp → (cString cp).length < 2 ^ 31)
      (fun w v => w.map cString = v.map cString) := by
  intro x x' v v' hop hx hwf h
  cases v with
  | none => simp only [xdrString, hop] at h; cases h
  | some cp =>
      have hint := hwf cp rfl
      have htoNat := toNat_strlen hint
      rcases hsend : xdrStdSendUint32 x (BitVec.ofNat 32 (cString cp).length) with ⟨ok, x1⟩
      simp only [xdrString, hop, xdrUInt, xdrWord, hsend] at h
      split at h
      · cases h
      · rename_i hguard
        simp only [Bool.or_eq_true, Bool.not_eq_true', decide_eq_true_eq, not_or,
          Bool.not_eq_false] at hguard
        obtain ⟨rfl, hmax⟩ := hguard
        obtain ⟨rfl, hx1⟩ := xdrStdSendUint32_then hx hsend
        rcases hopq : xdrOpaque (BitVec.ofNat 32 (cString cp).length)
          (x.emit (Mem.wordBytes (BitVec.ofNat 32 (cString cp).length))) cp with ⟨ok, x2, cp2⟩
        rw [hopq] at h
        simp only [Prod.mk.injEq] at h
        obtain ⟨rfl, rfl, rfl⟩ := h
        obtain ⟨rfl, rfl, hfit⟩ := xdrOpaque_encode_string (x := x.emit _) hop hx1
          htoNat.symm (by omega) hopq
        obtain ⟨h4, hfit'⟩ :=
          emit_append_bounds (by simp) (length_paddedBytes_mod (cString cp2)) hfit
        refine ⟨rfl, Mem.wordBytes (BitVec.ofNat 32 (cString cp2).length)
          ++ paddedBytes (cString cp2), Xdr.emit_emit .., h4, hfit', fun y hy hholds => ?_⟩
        have hfirst := xdrStdRecvUint32_eq hholds.left 0
        have hrest := hholds.right (by simp)
        rw [Mem.length_wordBytes] at hrest
        have hnode : (BitVec.ofNat 32 (cString cp2).length + 1).toNat
            = (BitVec.ofNat 32 (cString cp2).length).toNat + 1 := by
          rw [BitVec.toNat_add, htoNat, show (1 : Word).toNat = 1 from rfl]
          exact Nat.mod_eq_of_lt (by omega)
        have hne : ¬BitVec.ofNat 32 (cString cp2).length + 1 = 0 := fun heq => by
          rw [heq] at hnode
          cases hnode
        refine ⟨some (cString cp2 ++ [0]), ?_, ?_⟩
        · simp only [xdrString, hy, xdrUInt, xdrWord, hfirst, Bool.not_true, Bool.false_or]
          rw [if_neg (by simpa using hmax), if_neg hne, Option.getD_none, hnode,
            xdrOpaque_decode_string (y := y.advance 4) hy hrest htoNat.symm (by omega)]
          simp only [Xdr.advance_advance, List.length_append, Mem.length_wordBytes]
        · exact congrArg some (cString_append_nul (cString_nul_free cp2) [])

/-! ## Constructed types -/

theorem faithful_elems {α : Type} {elproc : XdrProc α} {zero : α} {Wf : α → Prop}
    {Same : α → α → Prop} (helem : Faithful elproc zero Wf Same) (n : Nat) :
    Faithful (xdrElems elproc n) (List.replicate n zero)
      (fun l => l.length = n ∧ ∀ a ∈ l, Wf a) (List.Forall₂ Same) := by
  induction n with
  | zero =>
      rintro x x' v v' hop hx ⟨hlen, -⟩ h
      obtain rfl := List.length_eq_zero_iff.mp hlen
      simp only [xdrElems, Prod.mk.injEq, true_and] at h
      obtain ⟨rfl, rfl⟩ := h
      refine ⟨rfl, [], (Xdr.emit_nil x).symm, rfl, by simpa using hx.fits, fun y _ _ => ?_⟩
      exact ⟨[], by simp [xdrElems, Xdr.advance], List.Forall₂.nil⟩
  | succ n ih =>
      rintro x x' v v' hop hx ⟨hlen, hwf⟩ h
      cases v with
      | nil => cases hlen
      | cons a l =>
          rcases hel : elproc x a with ⟨ok, x1, a1⟩
          simp only [xdrElems, hel] at h
          split at h
          · rename_i hok
            subst hok
            obtain ⟨rfl, as, rfl, has4, hasfit, hasdec⟩ := helem hop hx (hwf a (by simp)) hel
            rcases hels : xdrElems elproc n (x.emit as) l with ⟨ok, x2, l2⟩
            rw [hels] at h
            simp only [Prod.mk.injEq] at h
            obtain ⟨rfl, rfl, rfl⟩ := h
            obtain ⟨rfl, bs, rfl, hbs4, hbsfit, hbsdec⟩ := ih (x := x.emit as) hop
              (hx.emit has4 hasfit) ⟨by simpa using hlen, fun b hb => hwf b (by simp [hb])⟩ hels
            obtain ⟨h4, hfit⟩ := emit_append_bounds has4 hbs4 hbsfit
            refine ⟨rfl, as ++ bs, Xdr.emit_emit .., h4, hfit, fun y hy hholds => ?_⟩
            obtain ⟨w, hw, hsame⟩ := hasdec y hy hholds.left
            obtain ⟨ws, hws, hsames⟩ := hbsdec (y.advance as.length) hy (hholds.right has4)
            refine ⟨w :: ws, ?_, List.Forall₂.cons hsame hsames⟩
            rw [List.replicate_succ]
            simp only [xdrElems, hw, if_true, hws, Xdr.advance_advance, List.length_append]
          · cases h

/-- An array that is encoded is its size and then its elements. A null array has
no elements, so the loop is the same for it. -/
theorem xdrArray_encode_true {α : Type} {elproc : XdrProc α} {zero : α} {maxsize : Word}
    {x x' : Xdr} {v v' : Counted α} (hop : x.xOp = .encode) (hlen : v.Matches)
    (h : xdrArray maxsize zero elproc x v = (true, x', v')) :
    (¬ v.size > maxsize) ∧ ∃ x1 l, xdrStdSendUint32 x v.size = (true, x1)
      ∧ xdrElems elproc v.size.toNat x1 v.items = (true, x', l)
      ∧ v' = { v with ptr := v.ptr.map fun _ => l } := by
  rcases hsend : xdrStdSendUint32 x v.size with ⟨ok, x1⟩
  cases ok with
  | false =>
      simp only [xdrArray, xdrUInt, xdrWord, hop, hsend] at h
      cases h
  | true =>
      by_cases hmax : v.size > maxsize
      · simp [xdrArray, xdrUInt, xdrWord, hop, hsend, hmax] at h
      refine ⟨hmax, x1, ?_⟩
      cases hptr : v.ptr with
      | none =>
          have hzero : v.size.toNat = 0 := by
            rw [← hlen, Counted.items, hptr]; rfl
          simp only [xdrArray, xdrUInt, xdrWord, hop, hsend, hmax, hptr, Bool.not_true,
            Bool.false_eq_true, if_false, false_and, Prod.mk.injEq, true_and] at h
          refine ⟨[], rfl, ?_, ?_⟩
          · rw [hzero, Counted.items, hptr, ← h.1]; rfl
          · rw [← h.2, Option.map_none]
      | some items =>
          rcases hels : xdrElems elproc v.size.toNat x1 items with ⟨ok, x2, l⟩
          simp only [xdrArray, xdrUInt, xdrWord, hop, hsend, hmax, hptr, hels, Bool.not_true,
            Bool.false_eq_true, if_false, false_and, Prod.mk.injEq] at h
          obtain ⟨rfl, rfl, rfl⟩ := h
          refine ⟨l, rfl, ?_, by rw [Option.map_some]⟩
          rw [Counted.items, hptr]
          exact hels

theorem faithful_array {α : Type} {elproc : XdrProc α} {zero : α} {Wf : α → Prop}
    {Same : α → α → Prop} (helem : Faithful elproc zero Wf Same) (maxsize : Word) :
    Faithful (xdrArray maxsize zero elproc) ⟨none, 0⟩
      (fun a => a.Matches ∧ ∀ e ∈ a.items, Wf e)
      (fun w v => w.size = v.size ∧ List.Forall₂ Same w.items v.items) := by
  rintro x x' v v' hop hx ⟨hlen, hwf⟩ h
  obtain ⟨hmax, x1, l, hsend, hels, rfl⟩ := xdrArray_encode_true hop hlen h
  obtain ⟨rfl, hx1⟩ := xdrStdSendUint32_then hx hsend
  obtain ⟨rfl, bs, rfl, hbs4, hbsfit, hbsdec⟩ :=
    faithful_elems helem v.size.toNat (x := x.emit _) hop hx1 ⟨hlen, hwf⟩ hels
  obtain ⟨h4, hfit⟩ := emit_append_bounds (by simp) hbs4 hbsfit
  refine ⟨?_, Mem.wordBytes v.size ++ bs, Xdr.emit_emit .., h4, hfit, fun y hy hholds => ?_⟩
  · cases v with
    | mk ptr size =>
        cases ptr with
        | none => rfl
        | some l => rfl
  · have hfirst := xdrStdRecvUint32_eq hholds.left 0
    obtain ⟨ws, hws, hsames⟩ := hbsdec (y.advance (Mem.wordBytes v.size).length) hy
      (hholds.right (by simp))
    rw [Mem.length_wordBytes] at hws
    by_cases hzero : v.size = 0
    · have hnil : v.items = [] := List.length_eq_zero_iff.mp (by rw [hlen, hzero]; rfl)
      rw [show v.size.toNat = 0 by rw [hzero]; rfl] at hws
      have hadv : y.advance 4 = (y.advance 4).advance bs.length :=
        (Prod.mk.inj (Prod.mk.inj hws).2).1
      refine ⟨⟨none, v.size⟩, ?_, rfl, by rw [hnil]; exact List.Forall₂.nil⟩
      simp only [xdrArray, xdrUInt, xdrWord, hy, hfirst, hmax, Bool.not_true, Bool.false_eq_true,
        if_false, false_and, if_pos hzero, List.length_append, Mem.length_wordBytes]
      rw [← Xdr.advance_advance, ← hadv]
    · refine ⟨⟨some ws, v.size⟩, ?_, rfl, hsames⟩
      simp only [xdrArray, xdrUInt, xdrWord, hy, hfirst, hmax, Bool.not_true, Bool.false_eq_true,
        if_false, false_and, if_neg hzero, hws, Xdr.advance_advance, List.length_append,
        Mem.length_wordBytes]

theorem faithful_pointer {α : Type} {proc : XdrProc α} {zero : α} {Wf : α → Prop}
    {Same : α → α → Prop} (hobj : Faithful proc zero Wf Same) :
    Faithful (xdrPointer zero proc) none (fun p => ∀ v ∈ p, Wf v) (Option.Rel Same) := by
  intro x x' v v' hop hx hwf h
  cases v with
  | none =>
      rcases hsend : xdrStdSendUint32 x 0 with ⟨ok, x1⟩
      simp only [xdrPointer, xdrBool, hop, Option.isSome_none, Bool.false_eq_true, if_false, ne_eq,
        not_true_eq_false, hsend] at h
      cases ok with
      | false => cases h
      | true =>
          simp only [Bool.not_true, Bool.false_eq_true, if_false, if_true, Prod.mk.injEq,
            true_and] at h
          obtain ⟨rfl, rfl⟩ := h
          obtain ⟨rfl, hroom⟩ := xdrStdSendUint32_true hsend
          refine ⟨rfl, Mem.wordBytes 0, rfl, by simp, by simp; omega, fun y hy hholds => ?_⟩
          refine ⟨none, ?_, Option.Rel.none⟩
          simp only [xdrPointer, xdrBool, hy, xdrStdRecvUint32_eq hholds, if_true, Bool.not_true,
            Bool.false_eq_true, if_false, Mem.length_wordBytes]
  | some a =>
      rcases hsend : xdrStdSendUint32 x 1 with ⟨ok, x1⟩
      simp only [xdrPointer, xdrBool, hop, Option.isSome_some, if_true, ne_eq, one_ne_zero_word,
        not_false_eq_true, hsend] at h
      cases ok with
      | false => cases h
      | true =>
          obtain ⟨rfl, hx1⟩ := xdrStdSendUint32_then hx hsend
          rcases hproc : proc (x.emit (Mem.wordBytes 1)) a with ⟨ok, x2, a2⟩
          simp only [Bool.not_true, Bool.false_eq_true, if_false, xdrReference, Xdr.emit_xOp, hop,
            hproc, Prod.mk.injEq] at h
          obtain ⟨rfl, rfl, rfl⟩ := h
          obtain ⟨rfl, bs, rfl, hbs4, hbsfit, hbsdec⟩ := hobj (x := x.emit _) hop hx1
            (hwf a rfl) hproc
          obtain ⟨h4, hfit⟩ := emit_append_bounds (by simp) hbs4 hbsfit
          refine ⟨rfl, Mem.wordBytes 1 ++ bs, Xdr.emit_emit .., h4, hfit, fun y hy hholds => ?_⟩
          have hfirst := xdrStdRecvUint32_eq hholds.left 0
          obtain ⟨w, hw, hsame⟩ := hbsdec (y.advance (Mem.wordBytes 1).length) hy
            (hholds.right (by simp))
          rw [Mem.length_wordBytes] at hw
          refine ⟨some w, ?_, Option.Rel.some hsame⟩
          simp only [xdrPointer, xdrBool, hy, hfirst, if_true, one_ne_zero_word, if_false,
            Bool.not_true, Bool.false_eq_true, xdrReference, Xdr.advance_xOp, hw,
            Xdr.advance_advance, List.length_append, Mem.length_wordBytes]

theorem faithful_pair {α β : Type} {p : XdrProc α} {q : XdrProc β} {zp : α} {zq : β}
    {Wp : α → Prop} {Wq : β → Prop} {Sp : α → α → Prop} {Sq : β → β → Prop}
    (hp : Faithful p zp Wp Sp) (hq : Faithful q zq Wq Sq) :
    Faithful (xdrPair p q) (zp, zq) (fun v => Wp v.1 ∧ Wq v.2)
      (fun w v => Sp w.1 v.1 ∧ Sq w.2 v.2) := by
  rintro x x' ⟨a, b⟩ v' hop hx ⟨hwa, hwb⟩ h
  rcases hfst : p x a with ⟨ok, x1, a1⟩
  simp only [xdrPair, hfst] at h
  cases ok with
  | false => cases h
  | true =>
      obtain ⟨rfl, as, rfl, has4, hasfit, hasdec⟩ := hp hop hx hwa hfst
      rcases hsnd : q (x.emit as) b with ⟨ok, x2, b2⟩
      simp only [if_true, hsnd, Prod.mk.injEq] at h
      obtain ⟨rfl, rfl, rfl⟩ := h
      obtain ⟨rfl, bs, rfl, hbs4, hbsfit, hbsdec⟩ := hq (x := x.emit as) hop
        (hx.emit has4 hasfit) hwb hsnd
      obtain ⟨h4, hfit⟩ := emit_append_bounds has4 hbs4 hbsfit
      refine ⟨rfl, as ++ bs, Xdr.emit_emit .., h4, hfit, fun y hy hholds => ?_⟩
      obtain ⟨w, hw, hsame⟩ := hasdec y hy hholds.left
      obtain ⟨u, hu, hsame'⟩ := hbsdec (y.advance as.length) hy (hholds.right has4)
      refine ⟨(w, u), ?_, hsame, hsame'⟩
      simp only [xdrPair, hw, if_true, hu, Xdr.advance_advance, List.length_append]

/-! ## Codecs -/

/-- The procedures built from those of `xdr.c`. -/
inductive Codec where
  | int
  | uInt
  | long
  | uLong
  | enum
  | char
  | uChar
  | short
  | uShort
  | uQuadT
  | bool
  | opaqueData (cnt : Word)
  | bytes (maxsize : Word)
  | string (maxsize : Word)
  | vector (nelem : Word) (elem : Codec)
  | array (maxsize : Word) (elem : Codec)
  | pointer (obj : Codec)
  | pair (fst snd : Codec)

namespace Codec

/-- The C objects a codec applies to. -/
def Obj : Codec → Type
  | int | uInt | long | uLong | enum | bool => Word
  | char | uChar => Byte
  | short | uShort => BitVec 16
  | uQuadT => BitVec 64
  | opaqueData _ => List Byte
  | bytes _ => Counted Byte
  | string _ => Option (List Byte)
  | vector _ elem => List elem.Obj
  | array _ elem => Counted elem.Obj
  | pointer obj => Option obj.Obj
  | pair fst snd => fst.Obj × snd.Obj

/-- An object in zeroed memory. -/
def fresh : (c : Codec) → c.Obj
  | int | uInt | long | uLong | enum | bool => (0 : Word)
  | char | uChar => (0 : Byte)
  | short | uShort => (0 : BitVec 16)
  | uQuadT => (0 : BitVec 64)
  | opaqueData cnt => List.replicate cnt.toNat (0 : Byte)
  | bytes _ => (⟨none, 0⟩ : Counted Byte)
  | string _ => (none : Option (List Byte))
  | vector nelem elem => List.replicate nelem.toNat elem.fresh
  | array _ elem => (⟨none, 0⟩ : Counted elem.Obj)
  | pointer obj => (none : Option obj.Obj)
  | pair fst snd => (fst.fresh, snd.fresh)

def proc : (c : Codec) → XdrProc c.Obj
  | int => xdrInt
  | uInt => xdrUInt
  | long => xdrLong
  | uLong => xdrULong
  | enum => xdrEnum
  | char => xdrChar
  | uChar => xdrUChar
  | short => xdrShort
  | uShort => xdrUShort
  | uQuadT => xdrUQuadT
  | bool => xdrBool
  | opaqueData cnt => xdrOpaque cnt
  | bytes maxsize => xdrBytes maxsize
  | string maxsize => xdrString maxsize
  | vector nelem elem => xdrVector nelem elem.proc
  | array maxsize elem => xdrArray maxsize elem.fresh elem.proc
  | pointer obj => xdrPointer obj.fresh obj.proc
  | pair fst snd => xdrPair fst.proc snd.proc

/-- The storage of an object has the size the object says, and the size of a
byte string is that of a C object. -/
def Wf : (c : Codec) → c.Obj → Prop
  | int | uInt | long | uLong | enum | bool => fun _ => True
  | char | uChar => fun _ => True
  | short | uShort => fun _ => True
  | uQuadT => fun _ => True
  | opaqueData cnt => fun v : List Byte => v.length = cnt.toNat ∧ cnt.toNat < 2 ^ 31
  | bytes _ => fun b : Counted Byte => b.Matches ∧ b.size.toNat < 2 ^ 31
  | string _ => fun v : Option (List Byte) => ∀ cp, v = some cp → (cString cp).length < 2 ^ 31
  | vector nelem elem => fun l : List elem.Obj => l.length = nelem.toNat ∧ ∀ a ∈ l, elem.Wf a
  | array _ elem => fun a : Counted elem.Obj => a.Matches ∧ ∀ e ∈ a.items, elem.Wf e
  | pointer obj => fun p : Option obj.Obj => ∀ v ∈ p, obj.Wf v
  | pair fst snd => fun v => fst.Wf v.1 ∧ snd.Wf v.2

/-- Equal values: booleans up to truth, strings up to their storage. -/
def Same : (c : Codec) → c.Obj → c.Obj → Prop
  | int | uInt | long | uLong | enum => Eq
  | bool => fun w v : Word => w = 0 ↔ v = 0
  | char | uChar => Eq
  | short | uShort => Eq
  | uQuadT => Eq
  | opaqueData _ => Eq
  | bytes _ => fun w v : Counted Byte => w.size = v.size ∧ w.items = v.items
  | string _ => fun w v : Option (List Byte) => w.map cString = v.map cString
  | vector _ elem => List.Forall₂ elem.Same
  | array _ elem => fun w v : Counted elem.Obj =>
      w.size = v.size ∧ List.Forall₂ elem.Same w.items v.items
  | pointer obj => Option.Rel obj.Same
  | pair fst snd => fun w v => fst.Same w.1 v.1 ∧ snd.Same w.2 v.2

/-- **Every codec is faithful.** -/
theorem faithful (c : Codec) : Faithful c.proc c.fresh c.Wf c.Same := by
  induction c with
  | int => exact faithful_int 0
  | uInt => exact faithful_uInt 0
  | long => exact faithful_int 0
  | uLong => exact faithful_uInt 0
  | enum => exact faithful_int 0
  | char => exact faithful_through faithful_int 0
  | uChar => exact faithful_through faithful_uInt 0
  | short => exact faithful_short 0
  | uShort => exact faithful_uShort 0
  | uQuadT => exact faithful_uHyper 0
  | bool => exact faithful_bool 0
  | opaqueData cnt => exact faithful_opaqueData cnt
  | bytes maxsize => exact faithful_bytes maxsize
  | string maxsize => exact faithful_string maxsize
  | vector nelem elem ih => exact faithful_elems ih nelem.toNat
  | array maxsize elem ih => exact faithful_array ih maxsize
  | pointer obj ih => exact faithful_pointer ih
  | pair fst snd ihf ihs => exact faithful_pair ihf ihs

end Codec

/-! ## Sequences -/

/-- A value with its codec. -/
abbrev XdrValue := (c : Codec) × c.Obj

def encodeAll : Xdr → List XdrValue → Bool × Xdr
  | x, [] => (true, x)
  | x, v :: vs =>
      let r := v.1.proc x v.2
      if r.1 then encodeAll r.2.1 vs else (false, r.2.1)

/-- Decode into fresh objects, one after the other. -/
def decodeAll : Xdr → List Codec → Bool × Xdr × List XdrValue
  | y, [] => (true, y, [])
  | y, c :: cs =>
      let r := c.proc y c.fresh
      if r.1 then
        let q := decodeAll r.2.1 cs
        (q.1, q.2.1, ⟨c, r.2.2⟩ :: q.2.2)
      else (false, r.2.1, [])

inductive SameValue : XdrValue → XdrValue → Prop where
  | mk (c : Codec) {w v : c.Obj} : c.Same w v → SameValue ⟨c, w⟩ ⟨c, v⟩

theorem encodeAll_true {vs : List XdrValue} {x x' : Xdr} (hop : x.xOp = .encode) (hx : x.OutReady)
    (hwf : ∀ v ∈ vs, v.1.Wf v.2) (h : encodeAll x vs = (true, x')) :
    ∃ bs, x' = x.emit bs ∧ ∀ y : Xdr, y.xOp = .decode → y.Holds bs →
      ∃ ws, decodeAll y (vs.map Sigma.fst) = (true, y.advance bs.length, ws)
        ∧ List.Forall₂ SameValue ws vs := by
  induction vs generalizing x with
  | nil =>
      obtain rfl := (Prod.mk.inj h).2
      refine ⟨[], (Xdr.emit_nil x).symm, fun y _ _ => ⟨[], ?_, List.Forall₂.nil⟩⟩
      simp [decodeAll, Xdr.advance]
  | cons v vs ih =>
      rcases hproc : v.1.proc x v.2 with ⟨ok, x1, v1⟩
      simp only [encodeAll, hproc] at h
      cases ok with
      | false => cases h
      | true =>
          obtain ⟨-, as, rfl, has4, hasfit, hasdec⟩ :=
            v.1.faithful hop hx (hwf v (by simp)) hproc
          obtain ⟨bs, rfl, hdec⟩ := ih (x := x.emit as) hop (hx.emit has4 hasfit)
            (fun w hw => hwf w (by simp [hw])) h
          refine ⟨as ++ bs, Xdr.emit_emit .., fun y hy hholds => ?_⟩
          obtain ⟨w, hw, hsame⟩ := hasdec y hy hholds.left
          obtain ⟨ws, hws, hsames⟩ := hdec (y.advance as.length) hy (hholds.right has4)
          refine ⟨⟨v.1, w⟩ :: ws, ?_, List.Forall₂.cons (.mk v.1 hsame) hsames⟩
          simp only [List.map_cons, decodeAll, hw, if_true, hws, Xdr.advance_advance,
            List.length_append]

/-- `y` decodes what was encoded from `x` to `x'`: its message has the same
bytes between the two offsets, and its cursor is at the first. -/
structure Replays (x x' y : Xdr) : Prop where
  op : y.xOp = .decode
  start : y.inNext = x.outNext
  enough : x'.outNext ≤ y.inLen
  int : y.inLen < 2 ^ 31
  bytes : ∀ j, x.outNext ≤ j → j < x'.outNext → y.inMsg j = x'.outMsg j

theorem Replays.holds {x y : Xdr} {bs : List Byte} (h : Replays x (x.emit bs) y)
    (hx : x.OutReady) : y.Holds bs where
  nonneg := by rw [h.start]; exact hx.nonneg
  aligned := by rw [h.start]; exact hx.aligned
  enough := by rw [h.start]; exact h.enough
  int := h.int
  bytes := by
    rw [h.start]
    refine Eq.trans (Mem.slice_congr fun j hlo hhi => ?_) (x.emit_slice bs)
    exact h.bytes j hlo hhi

/-- **Decoding undoes encoding.** Whenever encoding a value succeeds, decoding
its bytes from the same offset succeeds, gives an equal value and stops where
the encoder stopped; and so for any sequence of values. -/
theorem xdr_decode_undoes_encode :
    (∀ (c : Codec) (v v' : c.Obj) (x x' y : Xdr), c.Wf v → x.xOp = .encode → x.OutReady →
      c.proc x v = (true, x', v') → Replays x x' y →
        ∃ y' w, c.proc y c.fresh = (true, y', w) ∧ c.Same w v ∧ y'.inNext = x'.outNext)
    ∧ ∀ (vs : List XdrValue) (x x' y : Xdr), (∀ v ∈ vs, v.1.Wf v.2) → x.xOp = .encode →
      x.OutReady → encodeAll x vs = (true, x') → Replays x x' y →
        ∃ y' ws, decodeAll y (vs.map Sigma.fst) = (true, y', ws)
          ∧ List.Forall₂ SameValue ws vs ∧ y'.inNext = x'.outNext := by
  constructor
  · intro c v v' x x' y hwf hop hx henc hreplay
    obtain ⟨-, bs, rfl, -, -, hdec⟩ := c.faithful hop hx hwf henc
    obtain ⟨w, hw, hsame⟩ := hdec y hreplay.op (hreplay.holds hx)
    exact ⟨_, w, hw, hsame, by simp [hreplay.start]⟩
  · intro vs x x' y hwf hop hx henc hreplay
    obtain ⟨bs, rfl, hdec⟩ := encodeAll_true hop hx hwf henc
    obtain ⟨ws, hws, hsames⟩ := hdec y hreplay.op (hreplay.holds hx)
    exact ⟨_, ws, hws, hsames, by simp [hreplay.start]⟩

/-- The handle that reads back what was written from `start` to the end of a message. -/
def Xdr.replay (x : Xdr) (start : Int) : Xdr :=
  { x with xOp := .decode, inMsg := x.outMsg, inNext := start, inLen := x.outNext }

/-- A string of two characters and a counted array of two shorts. -/
def sampleCodec : Codec := .pair (.string 10) (.array 4 .short)

def sampleValue : sampleCodec.Obj :=
  (some ([104, 105, 0] : List Byte), (⟨some [5, 0xFFFF], 2⟩ : Counted (BitVec 16)))

/-- The sample, decoded from a call message it was encoded into. -/
theorem sample_decodes :
    (sampleCodec.proc (xdrStdMsgStart (xdrInitCommon 3 true) .call).2 sampleValue).1 = true
      ∧ ∃ y' w, sampleCodec.proc ((sampleCodec.proc (xdrStdMsgStart (xdrInitCommon 3 true) .call).2
            sampleValue).2.1.replay 8) sampleCodec.fresh = (true, y', w)
          ∧ sampleCodec.Same w sampleValue ∧ y'.inNext = 28 := by
  have hwf : sampleCodec.Wf sampleValue := by
    refine ⟨fun cp hcp => ?_, rfl, fun _ _ => trivial⟩
    obtain rfl := Option.some.inj hcp
    decide
  refine ⟨rfl, xdr_decode_undoes_encode.1 sampleCodec sampleValue sampleValue
    (xdrStdMsgStart (xdrInitCommon 3 true) .call).2 _ _ hwf rfl
    (xdrStdMsgStart_outReady ..) rfl ⟨rfl, rfl, le_refl _, by decide, fun _ _ _ => rfl⟩⟩

end HtcLeo
