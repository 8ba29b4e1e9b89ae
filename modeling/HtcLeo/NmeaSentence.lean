import HtcLeo.NmeaEffects

/-!
# Sentences without the buffer around them

The parser reads a sentence in the reader's buffer, where the remains of
earlier, longer sentences follow it. Nothing of them is ever looked at:
a token ends inside the sentence, and an empty token is followed by the
comma that ended it. So the kind of a sentence, its fields and their
first characters are functions of its text (`textTokens`, `textKind`), and
`Token.Same` carries the facts about them to the buffer.
-/

namespace HtcLeo

/-- The same text at the same place, with the first character readable. -/
structure Token.Same (t t' : Token) : Prop where
  p : t.p = t'.p
  stop : t.stop = t'.stop
  first : t.first = t'.first
  mem : ∀ j : Int, t.p ≤ j → j < t.stop → t.mem j = t'.mem j

theorem Token.Same.bytes {t t' : Token} (h : t.Same t') : t.bytes = t'.bytes := by
  rw [Token.bytes, Token.bytes, ← h.p, ← h.stop]
  exact Mem.slice_congr fun j hlo hhi => h.mem j hlo (by omega)

theorem Token.Same.sub {t t' : Token} (h : t.Same t') {a b : Nat} (hb : t.p + b ≤ t.stop) :
    t.sub a b = t'.sub a b := by
  rw [Token.sub, Token.sub, ← h.p]
  exact Mem.slice_congr fun j hlo hhi => h.mem j (by omega) (by omega)

section Agree

variable {m m' : Mem} {stop : Nat}

theorem memchr_congr {c : Byte} {p n : Nat} (h : ∀ j : Int, p ≤ j → j < p + n → m j = m' j) :
    memchr m c p n = memchr m' c p n := by
  induction n generalizing p with
  | zero => rfl
  | succ n ih =>
      rw [memchr, memchr, h p (by omega) (by omega), ih fun j hlo hhi => h j (by omega) (by omega)]

/-- Memories that agree up to `stop` give the same tokens. -/
theorem tokenizeLoop_same (h : ∀ j : Int, 0 ≤ j → j < stop → m j = m' j) {fuel p count i : Nat} :
    Token.Same ((tokenizeLoop m stop fuel p count).getD i .dummy)
      ((tokenizeLoop m' stop fuel p count).getD i .dummy) := by
  induction fuel generalizing p count i with
  | zero => exact ⟨rfl, rfl, rfl, fun _ _ _ => rfl⟩
  | succ fuel ih =>
      have hchr : memchr m (ch ',') p (stop - p) = memchr m' (ch ',') p (stop - p) :=
        memchr_congr fun j hlo hhi => h j (by omega) (by omega)
      rw [tokenizeLoop, tokenizeLoop, hchr]
      by_cases hp : p < stop
      · simp only [if_pos hp]
        by_cases hc : count < maxNmeaTokens
        · simp only [if_pos hc]
          cases i with
          | zero =>
              -- a token starts before `stop`, so its first character is shared
              have hq : (memchr m' (ch ',') p (stop - p)).getD stop ≤ stop := by
                cases hm : memchr m' (ch ',') p (stop - p) with
                | none => exact le_refl _
                | some q => have := memchr_some hm; simp only [Option.getD_some]; omega
              exact ⟨rfl, rfl, h p (by omega) (by omega),
                fun j hlo hhi => h j (by omega) (by simp only [List.getD_cons_zero] at hhi; omega)⟩
          | succ i => exact ih
        · simp only [if_neg hc]
          exact ih
      · simp only [if_neg hp]
        exact ⟨rfl, rfl, rfl, fun _ _ _ => rfl⟩

theorem skipDollar_congr (h : ∀ j : Int, 0 ≤ j → j < stop → m j = m' j) :
    skipDollar m 0 stop = skipDollar m' 0 stop := by
  unfold skipDollar
  by_cases hpos : 0 < stop
  · rw [h (0 : Nat) (by omega) (by omega)]
  · rw [if_neg (fun hc => hpos hc.1), if_neg (fun hc => hpos hc.1)]

theorem dropNewline_congr (h : ∀ j : Int, 0 ≤ j → j < stop → m j = m' j) (p : Nat) :
    dropNewline m p stop = dropNewline m' p stop := by
  unfold dropNewline
  by_cases hp : p < stop
  · rw [h (stop - 1 : Nat) (by omega) (by omega)]
    by_cases hp' : p < stop - 1
    · rw [h (stop - 2 : Nat) (by omega) (by omega)]
    · simp only [hp', false_and, if_false]
  · simp only [hp, false_and, if_false]

theorem dropNewline_le (m : Mem) (p stop : Nat) : dropNewline m p stop ≤ stop := by
  unfold dropNewline
  split
  · split <;> omega
  · exact le_refl _

theorem dropChecksum_congr {q : Nat} (hq : q ≤ stop)
    (h : ∀ j : Int, 0 ≤ j → j < stop → m j = m' j) (p : Nat) :
    dropChecksum m p q = dropChecksum m' p q := by
  unfold dropChecksum
  by_cases hp : p + 3 ≤ q
  · rw [h (q - 3 : Nat) (by omega) (by omega)]
  · simp only [hp, false_and, if_false]

theorem dropChecksum_le (m : Mem) (p stop : Nat) : dropChecksum m p stop ≤ stop := by
  unfold dropChecksum
  split <;> omega

theorem bodyStop_le (m : Mem) (p stop : Nat) : bodyStop m p stop ≤ stop :=
  le_trans (dropChecksum_le ..) (dropNewline_le ..)

/-- The tokens of a sentence depend on the sentence only. -/
theorem nmeaTokenizerGet_same (h : ∀ j : Int, 0 ≤ j → j < stop → m j = m' j) (i : Nat) :
    Token.Same (nmeaTokenizerGet (nmeaTokenizerInit m 0 stop) i)
      (nmeaTokenizerGet (nmeaTokenizerInit m' 0 stop) i) := by
  have hstart : bodyStart m 0 stop = bodyStart m' 0 stop := skipDollar_congr h
  have hstop : bodyStop m 0 stop = bodyStop m' 0 stop := by
    rw [bodyStop, bodyStop, skipDollar_congr h, dropNewline_congr h,
      dropChecksum_congr (dropNewline_le ..) h]
  rw [nmeaTokenizerGet_eq, nmeaTokenizerGet_eq, nmeaTokenizerInit, nmeaTokenizerInit, hstart, hstop]
  refine tokenizeLoop_same fun j hlo hhi => h j hlo ?_
  have := bodyStop_le m' 0 stop
  omega

/-- So does its kind. -/
theorem bufferKind_congr (h : ∀ j : Int, 0 ≤ j → j < stop → m j = m' j) :
    bufferKind m stop = bufferKind m' stop := by
  unfold bufferKind
  split
  · rfl
  · have hsame := nmeaTokenizerGet_same h 0
    simp only
    rw [← hsame.p, ← hsame.stop]
    split
    · rfl
    · rw [hsame.sub (by omega)]

end Agree

/-! ## Texts -/

/-- A buffer with nothing but the sentence. -/
def textMem (s : List Byte) : Mem := Mem.write (fun _ => 0) 0 s

/-- The tokens of a sentence. -/
def textTokens (s : List Byte) : NmeaTokenizer := nmeaTokenizerInit (textMem s) 0 s.length

/-- Field `i` of a sentence. -/
def textField (s : List Byte) (i : Nat) : List Byte := (nmeaTokenizerGet (textTokens s) i).bytes

/-- The character the parser sees first at field `i`. -/
def textFirst (s : List Byte) (i : Nat) : Byte := (nmeaTokenizerGet (textTokens s) i).first

/-- What kind of sentence it is. -/
def textKind (s : List Byte) : SentenceKind := bufferKind (textMem s) s.length

variable {m : Mem} {s : List Byte}

/-- A buffer that starts with the sentence agrees with one that holds nothing else. -/
theorem textMem_agree (h : m.slice 0 s.length = s) :
    ∀ j : Int, 0 ≤ j → j < s.length → m j = textMem s j := fun j hlo hhi =>
  Mem.eq_of_slice_eq (n := s.length) (h.trans (Mem.slice_write _ 0 s).symm) j hlo (by omega)

theorem textTokens_same (h : m.slice 0 s.length = s) (i : Nat) :
    Token.Same (nmeaTokenizerGet (nmeaTokenizerInit m 0 s.length) i)
      (nmeaTokenizerGet (textTokens s) i) :=
  nmeaTokenizerGet_same (textMem_agree h) i

theorem bufferKind_eq_textKind (h : m.slice 0 s.length = s) :
    bufferKind m s.length = textKind s :=
  bufferKind_congr (textMem_agree h)

/-! ## Framed texts -/

/-- How a sentence ends: an optional checksum, an optional `\r`, a newline. -/
structure SentenceTail where
  checksum : Option (Byte × Byte)
  cr : Bool

/-- `*` and the two digits, if there are any. -/
def SentenceTail.check (t : SentenceTail) : List Byte :=
  match t.checksum with
  | some (a, b) => [ch '*', a, b]
  | none => []

def SentenceTail.text (t : SentenceTail) : List Byte :=
  t.check ++ if t.cr then [ch '\r', ch '\n'] else [ch '\n']

/-- The checksum digits are no line ends. -/
def SentenceTail.WellFormed (t : SentenceTail) : Prop :=
  ∀ a b, t.checksum = some (a, b) → a ≠ ch '\r' ∧ b ≠ ch '\r'

/-- `$`, the body, the tail. -/
def frameText (body : List Byte) (tail : SentenceTail) : List Byte :=
  ch '$' :: (body ++ tail.text)

theorem textMem_at {a c : List Byte} {b : Byte} {k : Nat} (hk : k = a.length) :
    textMem (a ++ b :: c) k = b := by
  have hget := Mem.getElem?_slice (m := textMem (a ++ b :: c)) (i := 0)
    (n := (a ++ b :: c).length) (k := k) (by simp [hk])
  rw [textMem, Mem.slice_write, Int.zero_add, hk, List.getElem?_append_right (le_refl _),
    Nat.sub_self, List.getElem?_cons_zero] at hget
  rw [hk]
  exact (Option.some.inj hget).symm

theorem textMem_mem {a b c : List Byte} {k : Nat} (hlo : a.length ≤ k)
    (hhi : k < a.length + b.length) : textMem (a ++ (b ++ c)) k ∈ b := by
  have hget := Mem.getElem?_slice (m := textMem (a ++ (b ++ c))) (i := 0)
    (n := (a ++ (b ++ c)).length) (k := k) (by simp; omega)
  rw [textMem, Mem.slice_write, Int.zero_add, List.getElem?_append_right hlo,
    List.getElem?_append_left (by omega)] at hget
  exact List.mem_of_getElem? hget

theorem bodyStart_frame (body : List Byte) (tail : SentenceTail) :
    bodyStart (textMem (frameText body tail)) 0 (frameText body tail).length = 1 :=
  if_pos ⟨by simp [frameText], textMem_at (a := []) rfl⟩

/-- A newline and the `\r` before it are cut off, and nothing else. -/
theorem dropNewline_text {x : List Byte} (hx : ∀ b ∈ x, b ≠ ch '\r') {p : Nat} (hp : p ≤ x.length)
    (cr : Bool) :
    dropNewline (textMem (x ++ if cr then [ch '\r', ch '\n'] else [ch '\n'])) p
      (x ++ if cr then [ch '\r', ch '\n'] else [ch '\n']).length = x.length := by
  rw [dropNewline]
  cases cr with
  | true =>
      simp only [if_true, List.length_append, List.length_cons, List.length_nil]
      have hlast : textMem (x ++ [ch '\r', ch '\n']) ((x.length + 2 - 1 : Nat) : Int) = ch '\n' := by
        rw [show x ++ [ch '\r', ch '\n'] = (x ++ [ch '\r']) ++ [ch '\n'] by simp]
        exact textMem_at (by simp)
      have hcr : textMem (x ++ [ch '\r', ch '\n']) ((x.length + 2 - 2 : Nat) : Int) = ch '\r' :=
        textMem_at (by omega)
      rw [if_pos ⟨by omega, hlast⟩, if_pos ⟨by omega, hcr⟩]
      omega
  | false =>
      simp only [Bool.false_eq_true, if_false, List.length_append, List.length_cons, List.length_nil]
      have hlast : textMem (x ++ [ch '\n']) ((x.length + 1 - 1 : Nat) : Int) = ch '\n' :=
        textMem_at (by omega)
      rw [if_pos ⟨by omega, hlast⟩, if_neg]
      · omega
      · rintro ⟨hlt, hcr⟩
        exact hx _ (textMem_mem (a := []) (b := x) (c := [ch '\n']) (by simp)
          (by simp; omega)) hcr

theorem frameText_eq (body : List Byte) (tail : SentenceTail) :
    frameText body tail = (ch '$' :: (body ++ tail.check))
      ++ if tail.cr then [ch '\r', ch '\n'] else [ch '\n'] := by
  simp [frameText, SentenceTail.text]

theorem SentenceTail.check_ne_cr {tail : SentenceTail} (htail : tail.WellFormed) :
    ∀ b ∈ tail.check, b ≠ ch '\r' := by
  intro b hb
  rw [SentenceTail.check] at hb
  split at hb
  · rename_i x y hc
    obtain ⟨hx, hy⟩ := htail x y hc
    simp only [List.mem_cons, List.not_mem_nil, or_false] at hb
    rcases hb with rfl | rfl | rfl
    · decide
    · exact hx
    · exact hy
  · cases hb

/-- Without its newline, a framed sentence loses its checksum and nothing else. -/
theorem dropChecksum_frame {body : List Byte} (tail : SentenceTail)
    (hbody : ∀ b ∈ body, b ≠ ch '*') :
    dropChecksum (textMem (frameText body tail)) 1 (ch '$' :: (body ++ tail.check)).length
      = 1 + body.length := by
  rw [dropChecksum]
  cases hc : tail.checksum with
  | some ab =>
      have hcheck : tail.check = [ch '*', ab.1, ab.2] := by rw [SentenceTail.check, hc]
      have hstar : textMem (frameText body tail)
          (((ch '$' :: (body ++ tail.check)).length - 3 : Nat) : Int) = ch '*' := by
        have hsplit : frameText body tail = (ch '$' :: body) ++ ch '*' :: ([ab.1, ab.2]
            ++ if tail.cr then [ch '\r', ch '\n'] else [ch '\n']) := by
          rw [frameText_eq, hcheck]
          simp
        rw [hsplit]
        exact textMem_at (by simp [hcheck])
      rw [if_pos ⟨by simp [hcheck], hstar⟩]
      simp only [hcheck, List.length_cons, List.length_append, List.length_nil]
      omega
  | none =>
      have hcheck : tail.check = [] := by rw [SentenceTail.check, hc]
      rw [if_neg]
      · simp [hcheck, Nat.add_comm]
      · rintro ⟨hlen, hstar⟩
        simp only [hcheck, List.append_nil, List.length_cons] at hlen hstar
        exact hbody _ (textMem_mem (a := [ch '$']) (c := tail.text) (by simp; omega)
          (by simp; omega)) hstar

theorem bodyStop_frame {body : List Byte} {tail : SentenceTail}
    (hbody : ∀ b ∈ body, b ≠ ch '*' ∧ b ≠ ch '\r') (htail : tail.WellFormed) :
    bodyStop (textMem (frameText body tail)) 0 (frameText body tail).length
      = 1 + body.length := by
  have hstart := bodyStart_frame body tail
  rw [bodyStart] at hstart
  have hline : ∀ b ∈ ch '$' :: (body ++ tail.check), b ≠ ch '\r' := by
    intro b hb
    rcases List.mem_cons.mp hb with rfl | hb
    · decide
    rcases List.mem_append.mp hb with hb | hb
    · exact (hbody b hb).2
    · exact SentenceTail.check_ne_cr htail b hb
  have hnewline := dropNewline_text hline (p := 1) (by simp) tail.cr
  rw [← frameText_eq] at hnewline
  rw [bodyStop, hstart, hnewline, dropChecksum_frame tail fun b hb => (hbody b hb).1]

/-- **Framing is transparent.** The parser finds the body of a framed sentence. -/
theorem sentenceBody_frame {body : List Byte} {tail : SentenceTail}
    (hbody : ∀ b ∈ body, b ≠ ch '*' ∧ b ≠ ch '\r') (htail : tail.WellFormed) :
    sentenceBody (textMem (frameText body tail)) 0 (frameText body tail).length = body := by
  have hslice := Mem.slice_write (fun _ => 0) 0 (frameText body tail)
  rw [sentenceBody, bodyStart_frame, bodyStop_frame hbody htail, Nat.add_sub_cancel_left]
  have hlen : 1 + body.length ≤ (frameText body tail).length := by
    simp [frameText]
    omega
  have htake := Mem.take_slice (m := textMem (frameText body tail)) (i := 1)
    (n := (frameText body tail).length - 1) (k := body.length) (by omega)
  have hdrop := Mem.drop_slice (m := textMem (frameText body tail)) (i := 0)
    (n := (frameText body tail).length) (k := 1) (by omega)
  rw [show (0 : Int) + (1 : Nat) = 1 by rfl] at hdrop
  rw [Nat.cast_one, ← htake, ← hdrop, textMem, hslice, frameText, List.drop_one, List.tail_cons,
    List.take_left]

theorem mem_intercalate {x b : Byte} {fields : List (List Byte)}
    (h : b ∈ [x].intercalate fields) : (∃ f ∈ fields, b ∈ f) ∨ b = x := by
  induction fields with
  | nil => cases h
  | cons f fields ih =>
      cases fields with
      | nil => exact Or.inl ⟨f, List.mem_singleton.mpr rfl, by simpa using h⟩
      | cons g fields =>
          rw [List.intercalate_cons_cons, List.append_assoc, List.mem_append, List.mem_append,
            List.mem_singleton] at h
          rcases h with h | h | h
          · exact Or.inl ⟨f, List.mem_cons_self .., h⟩
          · exact Or.inr h
          · exact (ih h).imp_left fun ⟨e, he, hb⟩ => ⟨e, List.mem_cons_of_mem _ he, hb⟩

/-- The fields of a framed sentence are the parts between its commas. -/
theorem textField_frame {fields : List (List Byte)} {tail : SentenceTail} (hne : fields ≠ [])
    (hfields : ∀ f ∈ fields, ∀ b ∈ f, b ≠ ch ',' ∧ b ≠ ch '*' ∧ b ≠ ch '\r')
    (htail : tail.WellFormed) {i : Nat} (hi : i < maxNmeaTokens) :
    textField (frameText ([ch ','].intercalate fields) tail) i = fields.getD i [] := by
  have hbody : ∀ b ∈ [ch ','].intercalate fields, b ≠ ch '*' ∧ b ≠ ch '\r' := by
    intro b hb
    rcases mem_intercalate hb with ⟨f, hf, hbf⟩ | rfl
    · exact (hfields f hf b hbf).2
    · decide
  have hcomma : ∀ f ∈ fields, ch ',' ∉ f := fun f hf hmem => (hfields f hf _ hmem).1 rfl
  rw [textField, textTokens, nmeaTokenizerGet_bytes, if_pos hi, sentenceBody_frame hbody htail,
    List.splitOn_intercalate _ hcomma hne]

/-- The three characters after the talker decide the kind. -/
theorem textKind_of_field {s talker : List Byte} (id : List Byte) (hlen : 9 ≤ s.length)
    (htalker : talker.length = 2) (hid : id.length = 3) (hfield : textField s 0 = talker ++ id) :
    textKind s = sentenceKind id := by
  have hsize := (nmeaTokenizerGet (textTokens s) 0).length_bytes
  rw [← textField, hfield, List.length_append, htalker, hid] at hsize
  have hsub := Token.sub_eq (t := nmeaTokenizerGet (textTokens s) 0) (a := 2) (b := 5)
    (by omega) (by omega)
  rw [← textField, hfield, ← htalker, List.drop_left, List.take_of_length_le (by omega),
    htalker] at hsub
  rw [textKind, bufferKind, if_neg (by omega)]
  simp only
  rw [← textTokens, if_neg (by omega), hsub]

end HtcLeo
