import HtcLeo.GsvTable

/-!
# The body of a sentence decides

A sentence can start with `$` or not, end with a checksum or not, and
stand at any place before any remains in the buffer. The parser cuts the
frame off (`sentenceBody_slice`) and goes by the fields of the body.

It also reads the first character of a field that may be empty. That
character is the comma behind the field, or the terminating zero of the
empty string for a field that is not there; both are determined by the
body, and none passes for a character that the parser looks for
(`Token.TestsOwn`).

The fields are read while the satellites of the sentence are stored, and
one stored far behind the table lands in the buffer. So the body decides
exactly where the stores stay in the table (`framing_transparent_iff`).
-/

namespace HtcLeo

/-! ## Cutting the frame off -/

def stripDollar (s : List Byte) : List Byte :=
  if s.head? = some (ch '$') then s.tail else s

/-- Without `\n` or `\r\n` at the end. -/
def stripNewline (s : List Byte) : List Byte :=
  if s.getLast? = some (ch '\n') then
    if s.dropLast.getLast? = some (ch '\r') then s.dropLast.dropLast else s.dropLast
  else s

/-- Without `*` and two characters at the end. -/
def stripChecksum (s : List Byte) : List Byte :=
  if 3 ≤ s.length ∧ s[s.length - 3]? = some (ch '*') then s.take (s.length - 3) else s

def stripFrame (s : List Byte) : List Byte := stripChecksum (stripNewline (stripDollar s))

section Strip

variable {m : Mem} {p stop : Nat}

theorem slice_dropLast (m : Mem) (i : Int) (n : Nat) :
    (m.slice i n).dropLast = m.slice i (n - 1) := by
  rw [List.dropLast_eq_take, Mem.length_slice, Mem.take_slice (by omega)]

theorem slice_getLast? (h : p < stop) :
    (m.slice p (stop - p)).getLast? = some (m (stop - 1 : Nat)) := by
  rw [List.getLast?_eq_getElem?, Mem.length_slice, Mem.getElem?_slice (by omega)]
  congr 2
  omega

theorem skipDollar_slice (m : Mem) (p stop : Nat) :
    m.slice (skipDollar m p stop) (stop - skipDollar m p stop)
      = stripDollar (m.slice p (stop - p)) := by
  unfold skipDollar stripDollar
  by_cases hlt : p < stop
  · obtain ⟨n, hn⟩ : ∃ n, stop - p = n + 1 := ⟨stop - p - 1, by omega⟩
    simp only [hn, Mem.slice, List.head?_cons, Option.some.injEq, List.tail_cons]
    by_cases hdollar : m p = ch '$'
    · rw [if_pos ⟨hlt, hdollar⟩, if_pos hdollar, show stop - (p + 1) = n by omega]
      rfl
    · rw [if_neg fun h => hdollar h.2, if_neg hdollar, hn]
      rfl
  · rw [if_neg fun h => hlt h.1, show stop - p = 0 by omega]
    rfl

theorem dropNewline_slice (m : Mem) (p stop : Nat) :
    m.slice p (dropNewline m p stop - p) = stripNewline (m.slice p (stop - p)) := by
  unfold dropNewline stripNewline
  by_cases hlt : p < stop
  · rw [slice_getLast? hlt, slice_dropLast]
    by_cases hnl : m (stop - 1 : Nat) = ch '\n'
    · rw [if_pos ⟨hlt, hnl⟩, if_pos (congrArg some hnl), show stop - p - 1 = stop - 1 - p by omega]
      by_cases hlt' : p < stop - 1
      · rw [slice_getLast? hlt', slice_dropLast, Nat.sub_sub stop 1 1]
        by_cases hcr : m (stop - 2 : Nat) = ch '\r'
        · rw [if_pos ⟨hlt', hcr⟩, if_pos (congrArg some hcr),
            show stop - 1 - p - 1 = stop - 2 - p by omega]
        · rw [if_neg fun h => hcr h.2, if_neg fun h => hcr (Option.some.inj h)]
      · rw [if_neg fun h => hlt' h.1, show stop - 1 - p = 0 by omega]
        simp [Mem.slice]
    · rw [if_neg fun h => hnl h.2, if_neg fun h => hnl (Option.some.inj h)]
  · rw [if_neg fun h => hlt h.1, show stop - p = 0 by omega]
    simp [Mem.slice]

theorem dropChecksum_slice (m : Mem) (p stop : Nat) :
    m.slice p (dropChecksum m p stop - p) = stripChecksum (m.slice p (stop - p)) := by
  unfold dropChecksum stripChecksum
  rw [Mem.length_slice]
  by_cases hlen : p + 3 ≤ stop
  · have hget : (m.slice p (stop - p))[stop - p - 3]? = some (m (stop - 3 : Nat)) := by
      rw [Mem.getElem?_slice (by omega)]
      congr 2
      omega
    rw [hget, Mem.take_slice (by omega)]
    by_cases hstar : m (stop - 3 : Nat) = ch '*'
    · rw [if_pos ⟨hlen, hstar⟩, if_pos ⟨by omega, congrArg some hstar⟩,
        show stop - p - 3 = stop - 3 - p by omega]
    · rw [if_neg fun h => hstar h.2, if_neg fun h => hstar (Option.some.inj h.2)]
  · rw [if_neg fun h => hlen h.1, if_neg fun h => by omega]

/-- What the tokenizer takes for the body is the text without its frame. -/
theorem sentenceBody_slice (m : Mem) (p stop : Nat) :
    sentenceBody m p stop = stripFrame (m.slice p (stop - p)) := by
  rw [stripFrame, ← skipDollar_slice, ← dropNewline_slice, ← dropChecksum_slice]
  rfl

theorem sentenceBody_eq (m : Mem) (stop : Nat) :
    sentenceBody m 0 stop = stripFrame (m.slice 0 stop) := sentenceBody_slice m 0 stop

end Strip

/-! ## Tokens of equal bodies -/

/-- The same text, with the same character read first. -/
structure Token.Like (t t' : Token) : Prop where
  bytes : t.bytes = t'.bytes
  first : t.first = t'.first

theorem Token.Like.length {t t' : Token} (h : t.Like t') : t.stop - t.p = t'.stop - t'.p := by
  rw [← t.length_bytes, ← t'.length_bytes, h.bytes]

theorem Token.Like.sub {t t' : Token} (h : t.Like t') {a b : Nat} (hab : a ≤ b)
    (hb : b ≤ t.stop - t.p) (hb' : 0 < b) : t.sub a b = t'.sub a b := by
  have hlen := h.length
  rw [Token.sub_eq hab (by omega), Token.sub_eq hab (by omega), h.bytes]

theorem memchr_shift {m m' : Mem} {c : Byte} {p p' n : Nat}
    (h : m.slice p n = m'.slice p' n) :
    memchr m' c p' n = (memchr m c p n).map fun q => q - p + p' := by
  induction n generalizing p p' with
  | zero => rfl
  | succ n ih =>
      obtain ⟨hhead, htail⟩ := List.cons.inj h
      have hslice : m.slice (p + 1 : Nat) n = m'.slice (p' + 1 : Nat) n := by exact_mod_cast htail
      have hrest := ih hslice
      rw [memchr, memchr, ← hhead]
      split_ifs with hc
      · simp
      · rw [hrest]
        refine Option.map_congr fun q hq => ?_
        have := memchr_some hq
        omega

section Loop

variable {m m' : Mem} {stop stop' p p' : Nat}

/-- Equal ranges are equal from the same place on. -/
theorem slice_from (h : m.slice p (stop - p) = m'.slice p' (stop' - p')) {k : Nat}
    (hk : k ≤ stop - p) :
    m.slice (p + k : Nat) (stop - (p + k)) = m'.slice (p' + k : Nat) (stop' - (p' + k)) := by
  have hlen : stop - p = stop' - p' := by
    rw [← Mem.length_slice m p (stop - p), h, Mem.length_slice]
  have hdrop := congrArg (List.drop k) h
  rw [Mem.drop_slice hk, Mem.drop_slice (by omega)] at hdrop
  rw [← Nat.sub_sub, ← Nat.sub_sub]
  exact_mod_cast hdrop

/-- The token up to the same place, with its first character. -/
theorem token_like (h : m.slice p (stop - p) = m'.slice p' (stop' - p')) (hp : p < stop) {k : Nat}
    (hk : k ≤ stop - p) : Token.Like ⟨m, p, p + k⟩ ⟨m', p', p' + k⟩ := by
  have hlen : stop - p = stop' - p' := by
    rw [← Mem.length_slice m p (stop - p), h, Mem.length_slice]
  refine ⟨?_, ?_⟩
  · have htake := congrArg (List.take k) h
    rw [Mem.take_slice hk, Mem.take_slice (by omega)] at htake
    simp only [Token.bytes, Nat.add_sub_cancel_left]
    exact htake
  · have hhead := congrArg (fun l => l[0]?) h
    rw [Mem.getElem?_slice (by omega), Mem.getElem?_slice (by omega), Option.some.injEq] at hhead
    simpa [Token.first] using hhead

/-- The first tokens of equal bodies end after `k` characters, and the next ones
start at `next`. -/
theorem tokenEnd_shift (h : m.slice p (stop - p) = m'.slice p' (stop' - p')) (hp : p < stop) :
    ∃ k next, k ≤ stop - p ∧ next ≤ stop - p
      ∧ (memchr m (ch ',') p (stop - p)).getD stop = p + k
      ∧ (memchr m' (ch ',') p' (stop' - p')).getD stop' = p' + k
      ∧ (if p + k < stop then p + k + 1 else p + k) = p + next
      ∧ (if p' + k < stop' then p' + k + 1 else p' + k) = p' + next := by
  have hlen : stop - p = stop' - p' := by
    rw [← Mem.length_slice m p (stop - p), h, Mem.length_slice]
  rw [← hlen] at h ⊢
  have hshift := memchr_shift (c := ch ',') h
  cases hm : memchr m (ch ',') p (stop - p) with
  | none =>
      rw [hm] at hshift
      refine ⟨stop - p, stop - p, le_refl _, le_refl _, ?_, ?_, ?_, ?_⟩
      · simp only [Option.getD_none]
        omega
      · rw [hshift]
        simp only [Option.map_none, Option.getD_none]
        omega
      · rw [if_neg (by omega)]
      · rw [if_neg (by omega)]
  | some q =>
      have hbounds := memchr_some hm
      rw [hm] at hshift
      refine ⟨q - p, q - p + 1, by omega, by omega, ?_, ?_, ?_, ?_⟩
      · simp only [Option.getD_some]
        omega
      · rw [hshift]
        simp only [Option.map_some, Option.getD_some]
        omega
      · rw [if_pos (by omega)]
        omega
      · rw [if_pos (by omega)]
        omega

/-- The loops over equal bodies, wherever they stand, store like tokens. -/
theorem tokenizeLoop_like {fuel count : Nat}
    (h : m.slice p (stop - p) = m'.slice p' (stop' - p')) (i : Nat) :
    Token.Like ((tokenizeLoop m stop fuel p count).getD i .dummy)
      ((tokenizeLoop m' stop' fuel p' count).getD i .dummy) := by
  induction fuel generalizing p p' count i with
  | zero => exact ⟨rfl, rfl⟩
  | succ fuel ih =>
      have hlen : stop - p = stop' - p' := by
        rw [← Mem.length_slice m p (stop - p), h, Mem.length_slice]
      rw [tokenizeLoop, tokenizeLoop]
      by_cases hp : p < stop
      · obtain ⟨k, next, hk, hnext, hq, hq', hn, hn'⟩ := tokenEnd_shift h hp
        simp only [if_pos hp, if_pos (by omega : p' < stop'), hq, hq', hn, hn']
        split_ifs
        · cases i with
          | zero => exact token_like h hp hk
          | succ i => exact ih (slice_from h hnext) i
        · exact ih (slice_from h hnext) i
      · rw [if_neg hp, if_neg (by omega : ¬ p' < stop')]
        exact ⟨rfl, rfl⟩

/-- Sentences with the same body have like fields. -/
theorem nmeaTokenizerGet_like {n n' : Nat} (h : sentenceBody m 0 n = sentenceBody m' 0 n')
    (i : Nat) :
    Token.Like (nmeaTokenizerGet (nmeaTokenizerInit m 0 n) i)
      (nmeaTokenizerGet (nmeaTokenizerInit m' 0 n') i) := by
  have hlen : bodyStop m 0 n - bodyStart m 0 n = bodyStop m' 0 n' - bodyStart m' 0 n' := by
    have hlength := congrArg List.length h
    rwa [sentenceBody, sentenceBody, Mem.length_slice, Mem.length_slice] at hlength
  rw [nmeaTokenizerGet_eq, nmeaTokenizerGet_eq, nmeaTokenizerInit, nmeaTokenizerInit, hlen]
  exact tokenizeLoop_like h i

end Loop

theorem bufferKind_of_body {m m' : Mem} {n n' : Nat} (hn : 9 ≤ n) (hn' : 9 ≤ n')
    (h : sentenceBody m 0 n = sentenceBody m' 0 n') : bufferKind m n = bufferKind m' n' := by
  have hlike := nmeaTokenizerGet_like h 0
  have hlen := hlike.length
  unfold bufferKind
  simp only [if_neg (by omega : ¬ n < 9), if_neg (by omega : ¬ n' < 9)]
  split_ifs with hshort hshort' hshort'
  · rfl
  · omega
  · omega
  · rw [hlike.sub (by omega) (by omega) (by omega)]

theorem gsaLoop_congr {tz tz' : NmeaTokenizer}
    (htz : ∀ i, (nmeaTokenizerGet tz i).Like (nmeaTokenizerGet tz' i)) (n i : Nat) (mask : Word) :
    gsaLoop tz n i mask = gsaLoop tz' n i mask := by
  induction n generalizing i mask with
  | zero => rfl
  | succ n ih => simp only [gsaLoop, (htz i).bytes, ih]

/-! ## The first character of a field -/

/-- The tests that the parser makes on the first character say what they would
say of the text of the field alone. -/
structure Token.TestsOwn (t : Token) : Prop where
  aboveZero : t.first.toNat > (ch '0').toNat ↔
    ∃ b, t.bytes.head? = some b ∧ b.toNat > (ch '0').toNat
  letter : ∀ c ∈ ['A', 'S', 'W', '2', '3'], t.first = ch c ↔ t.bytes.head? = some (ch c)

theorem Token.testsOwn_of_empty {t : Token}
    (h : t.bytes = [] → t.first = ch ',' ∨ t.first = 0) : t.TestsOwn := by
  cases hbytes : t.bytes with
  | nil =>
      have hother : ¬ t.first.toNat > (ch '0').toNat
          ∧ ∀ c ∈ ['A', 'S', 'W', '2', '3'], t.first ≠ ch c := by
        simp only [List.forall_mem_cons, List.not_mem_nil, IsEmpty.forall_iff, implies_true, and_true]
        rcases h hbytes with hfirst | hfirst
        · rw [hfirst]
          decide
        · rw [hfirst]
          decide
      refine ⟨iff_of_false hother.1 ?_, fun c hc => iff_of_false (hother.2 c hc) ?_⟩
      · simp [hbytes]
      · simp [hbytes]
  | cons b rest =>
      have hfirst : t.first = b := by
        have hlen : 0 < t.stop - t.p := by
          rw [← t.length_bytes, hbytes]
          exact Nat.succ_pos _
        have hhead := Mem.getElem?_slice (m := t.mem) (i := t.p) hlen
        rw [← Token.bytes, hbytes] at hhead
        simpa [Token.first] using hhead.symm
      refine ⟨?_, fun c _ => ?_⟩
      · rw [hfirst, hbytes]
        simp
      · rw [hfirst, hbytes]
        simp

/-- Behind an empty field stands the comma that ended it. -/
theorem tokenizeLoop_first {m : Mem} {stop fuel p count : Nat} (i : Nat)
    (h : ((tokenizeLoop m stop fuel p count).getD i .dummy).bytes = []) :
    ((tokenizeLoop m stop fuel p count).getD i .dummy).first = ch ','
      ∨ ((tokenizeLoop m stop fuel p count).getD i .dummy).first = 0 := by
  induction fuel generalizing p count i with
  | zero => exact .inr rfl
  | succ fuel ih =>
      rw [tokenizeLoop] at h ⊢
      by_cases hp : p < stop
      · by_cases hcount : count < maxNmeaTokens
        · simp only [if_pos hp, if_pos hcount] at h ⊢
          cases i with
          | zero =>
              have hlen := congrArg List.length h
              simp only [List.getD_cons_zero, Token.length_bytes, List.length_nil] at hlen ⊢
              cases hm : memchr m (ch ',') p (stop - p) with
              | none =>
                  rw [hm, Option.getD_none] at hlen
                  omega
              | some q =>
                  rw [hm, Option.getD_some] at hlen
                  obtain ⟨hlo, -, -, hq⟩ := memchr_some hm
                  obtain rfl : q = p := by omega
                  exact .inl hq
          | succ i => exact ih i h
        · simp only [if_pos hp, if_neg hcount] at h ⊢
          exact ih i h
      · rw [if_neg hp]
        exact .inr rfl

theorem nmeaTokenizerGet_testsOwn (m : Mem) (n i : Nat) :
    (nmeaTokenizerGet (nmeaTokenizerInit m 0 n) i).TestsOwn := by
  refine Token.testsOwn_of_empty fun h => ?_
  rw [nmeaTokenizerGet_eq] at h ⊢
  exact tokenizeLoop_first i h

/-! ## The updates -/

section

variable [CFloat]

open CFloat

/-- `r'` differs from `r` at most in the character buffer. -/
def SameState (r r' : NmeaReader) : Prop := ∃ m pos, r' = { r with inBuf := m, pos := pos }

theorem SameState.refl (r : NmeaReader) : SameState r r := ⟨r.inBuf, r.pos, rfl⟩

section Updates

variable {r r' : NmeaReader} {t t' u u' : Token}

theorem withDate_same (env : NmeaEnv) (m : Mem) (pos : Nat) (r : NmeaReader) :
    withDate env { r with inBuf := m, pos := pos }
      = { withDate env r with inBuf := m, pos := pos } := by
  unfold withDate
  split_ifs <;> rfl

theorem nmeaReaderUpdateTime_same (env : NmeaEnv) (h : SameState r r') (ht : t.Like t') :
    SameState (nmeaReaderUpdateTime env r t).2 (nmeaReaderUpdateTime env r' t').2 := by
  obtain ⟨m, pos, rfl⟩ := h
  have hlen := ht.length
  unfold nmeaReaderUpdateTime
  by_cases hshort : t.p + 6 > t.stop
  · rw [if_pos hshort, if_pos (by omega)]
    exact ⟨m, pos, rfl⟩
  · have hhour := ht.sub (a := 0) (b := 2) (by omega) (by omega) (by omega)
    have hmin := ht.sub (a := 2) (b := 4) (by omega) (by omega) (by omega)
    have hsec := ht.sub (a := 4) (b := t.stop - t.p) (by omega) (by omega) (by omega)
    rw [if_neg hshort, if_neg (by omega), ← hlen]
    refine ⟨m, pos, ?_⟩
    simp only [hhour, hmin, hsec, withDate_same]

theorem nmeaReaderUpdateDate_same (env : NmeaEnv) (h : SameState r r') (ht : t.Like t')
    (hu : u.Like u') :
    SameState (nmeaReaderUpdateDate env r t u).2 (nmeaReaderUpdateDate env r' t' u').2 := by
  obtain ⟨m, pos, rfl⟩ := h
  have hlen := ht.length
  unfold nmeaReaderUpdateDate
  by_cases hsix : t.p + 6 = t.stop
  · have hday := ht.sub (a := 0) (b := 2) (by omega) (by omega) (by omega)
    have hmon := ht.sub (a := 2) (b := 4) (by omega) (by omega) (by omega)
    have hyear := ht.sub (a := 4) (b := 6) (by omega) (by omega) (by omega)
    simp only [if_neg (by omega : ¬ t.p + 6 ≠ t.stop), if_neg (by omega : ¬ t'.p + 6 ≠ t'.stop),
      hday, hmon, hyear]
    split_ifs
    · exact ⟨m, pos, rfl⟩
    · exact nmeaReaderUpdateTime_same env ⟨m, pos, rfl⟩ hu
  · rw [if_pos hsix, if_pos (by omega : t'.p + 6 ≠ t'.stop)]
    exact ⟨m, pos, rfl⟩

theorem nmeaReaderUpdateLatlong_same (h : SameState r r') (ht : t.Like t') (hu : u.Like u')
    (latHemi lonHemi : Byte) :
    SameState (nmeaReaderUpdateLatlong r t latHemi u lonHemi).2
      (nmeaReaderUpdateLatlong r' t' latHemi u' lonHemi).2 := by
  obtain ⟨m, pos, rfl⟩ := h
  have hlen := ht.length
  have hlen' := hu.length
  unfold nmeaReaderUpdateLatlong convertFromHhmm
  rw [ht.bytes, hu.bytes]
  by_cases hlat : t.p + 6 > t.stop
  · rw [if_pos hlat, if_pos (by omega)]
    exact ⟨m, pos, rfl⟩
  · rw [if_neg hlat, if_neg (by omega : ¬ t'.p + 6 > t'.stop)]
    by_cases hlon : u.p + 6 > u.stop
    · simp only [if_pos hlon, if_pos (by omega : u'.p + 6 > u'.stop)]
      exact ⟨m, pos, rfl⟩
    · simp only [if_neg hlon, if_neg (by omega : ¬ u'.p + 6 > u'.stop)]
      exact ⟨m, pos, rfl⟩

theorem nmeaReaderUpdateAltitude_same (h : SameState r r') (ht : t.Like t') (hu : u.Like u') :
    SameState (nmeaReaderUpdateAltitude r t u).2 (nmeaReaderUpdateAltitude r' t' u').2 := by
  obtain ⟨m, pos, rfl⟩ := h
  have hlen := ht.length
  have hlen' := hu.length
  unfold nmeaReaderUpdateAltitude
  rw [ht.bytes, hu.bytes]
  by_cases halt : t.p ≥ t.stop
  · rw [if_pos halt, if_pos (by omega)]
    exact ⟨m, pos, rfl⟩
  · rw [if_neg halt, if_neg (by omega : ¬ t'.p ≥ t'.stop)]
    by_cases hgeoid : u.p ≥ u.stop
    · rw [if_pos hgeoid, if_pos (by omega)]
      exact ⟨m, pos, rfl⟩
    · rw [if_neg hgeoid, if_neg (by omega : ¬ u'.p ≥ u'.stop)]
      exact ⟨m, pos, rfl⟩

/-- An update of the fix by the text of one field, if it is not empty. -/
theorem update_same (fix : GpsLocation → List Byte → GpsLocation) (h : SameState r r')
    (ht : t.Like t') :
    SameState (if t.p ≥ t.stop then ((-1 : Int), r) else (0, { r with fix := fix r.fix t.bytes })).2
      (if t'.p ≥ t'.stop then ((-1 : Int), r')
        else (0, { r' with fix := fix r'.fix t'.bytes })).2 := by
  obtain ⟨m, pos, rfl⟩ := h
  have hlen := ht.length
  rw [ht.bytes]
  by_cases hempty : t.p ≥ t.stop
  · rw [if_pos hempty, if_pos (by omega)]
    exact ⟨m, pos, rfl⟩
  · rw [if_neg hempty, if_neg (by omega)]
    exact ⟨m, pos, rfl⟩

theorem nmeaReaderUpdateAccuracy_same (env : NmeaEnv) (h : SameState r r') (ht : t.Like t') :
    SameState (nmeaReaderUpdateAccuracy env r t).2 (nmeaReaderUpdateAccuracy env r' t').2 :=
  update_same (fun fix text => { fix with
    flags := fix.flags ||| gpsLocationHasAccuracy
    accuracy := mulFloat (toFloat (str2float text)) (ofByte env.getPrecisionValue) }) h ht

theorem nmeaReaderUpdateBearing_same (h : SameState r r') (ht : t.Like t') :
    SameState (nmeaReaderUpdateBearing r t).2 (nmeaReaderUpdateBearing r' t').2 :=
  update_same (fun fix text => { fix with
    flags := fix.flags ||| gpsLocationHasBearing
    bearing := toFloat (str2float text) }) h ht

theorem nmeaReaderUpdateSpeed_same (h : SameState r r') (ht : t.Like t') :
    SameState (nmeaReaderUpdateSpeed r t).2 (nmeaReaderUpdateSpeed r' t').2 :=
  update_same (fun fix text => { fix with
    flags := fix.flags ||| gpsLocationHasSpeed
    speed := toFloat (div (mul (ofFloat (toFloat (str2float text))) (literal 1852 3))
      (literal 36 1)) }) h ht

end Updates

/-! ## The sentences -/

section Sentences

variable {r r' : NmeaReader} {tz tz' : NmeaTokenizer}

theorem parseGga_same (env : NmeaEnv) (h : SameState r r')
    (htz : ∀ i, (nmeaTokenizerGet tz i).Like (nmeaTokenizerGet tz' i)) :
    SameState (parseGga env r tz).reader (parseGga env r' tz').reader := by
  unfold parseGga
  rw [(htz 6).first, (htz 3).first, (htz 5).first]
  split_ifs
  · have htime := nmeaReaderUpdateTime_same env h (htz 1)
    have hpos := nmeaReaderUpdateLatlong_same htime (htz 2) (htz 4) (nmeaTokenizerGet tz' 3).first
      (nmeaTokenizerGet tz' 5).first
    have hacc := nmeaReaderUpdateAccuracy_same env hpos (htz 8)
    exact nmeaReaderUpdateAltitude_same hacc (htz 9) (htz 11)
  · exact h

theorem parseRmc_same (env : NmeaEnv) (h : SameState r r')
    (htz : ∀ i, (nmeaTokenizerGet tz i).Like (nmeaTokenizerGet tz' i)) :
    SameState (parseRmc env r tz).reader (parseRmc env r' tz').reader := by
  unfold parseRmc
  rw [(htz 2).first, (htz 4).first, (htz 6).first]
  split_ifs
  · have hdate := nmeaReaderUpdateDate_same env h (htz 9) (htz 1)
    have hpos := nmeaReaderUpdateLatlong_same hdate (htz 3) (htz 5) (nmeaTokenizerGet tz' 4).first
      (nmeaTokenizerGet tz' 6).first
    have hbearing := nmeaReaderUpdateBearing_same hpos (htz 8)
    exact nmeaReaderUpdateSpeed_same hbearing (htz 7)
  · exact h

theorem parseGsv_same (h : SameState r r')
    (htz : ∀ i, (nmeaTokenizerGet tz i).Like (nmeaTokenizerGet tz' i)) :
    SameState (parseGsv r tz).reader (parseGsv r' tz').reader := by
  obtain ⟨m, pos, rfl⟩ := h
  rw [parseGsv_congr fun i => (htz i).bytes]
  unfold parseGsv gsvBegin
  split_ifs <;> exact ⟨m, pos, rfl⟩

theorem parseGsa_same (h : SameState r r')
    (htz : ∀ i, (nmeaTokenizerGet tz i).Like (nmeaTokenizerGet tz' i)) :
    SameState (parseGsa r tz).reader (parseGsa r' tz').reader := by
  obtain ⟨m, pos, rfl⟩ := h
  unfold parseGsa
  rw [(htz 2).first, gsaLoop_congr htz]
  exact ⟨m, pos, rfl⟩

end Sentences

/-- Two sentences of at least 9 bytes, in any two buffers, whose bodies are equal leave
the same reader behind, up to the buffer. -/
theorem parse_same_of_body (env : NmeaEnv) (r : NmeaReader) {m m' : Mem} {n n' : Nat}
    (hn : 9 ≤ n) (hn' : 9 ≤ n') (hbody : sentenceBody m 0 n = sentenceBody m' 0 n') :
    SameState (nmeaReaderParse env { r with inBuf := m, pos := n }).reader
      (nmeaReaderParse env { r with inBuf := m', pos := n' }).reader := by
  have hkind := bufferKind_of_body hn hn' hbody
  have htz := nmeaTokenizerGet_like hbody
  have hreader : SameState { r with inBuf := m, pos := n } { r with inBuf := m', pos := n' } :=
    ⟨m', n', rfl⟩
  rw [nmeaReaderParse_eq, nmeaReaderParse_eq]
  simp only [← hkind]
  cases bufferKind m n with
  | gsv => exact parseGsv_same hreader htz
  | gga => exact parseGga_same env hreader htz
  | rmc => exact parseRmc_same env hreader htz
  | gsa => exact parseGsa_same hreader htz
  | unknown => exact hreader

/-- They store satellites at the same places. -/
theorem parse_svWrites_of_body (env : NmeaEnv) (r : NmeaReader) {m m' : Mem} {n n' : Nat}
    (hn : 9 ≤ n) (hn' : 9 ≤ n') (hbody : sentenceBody m 0 n = sentenceBody m' 0 n') :
    (nmeaReaderParse env { r with inBuf := m, pos := n }).svWrites
      = (nmeaReaderParse env { r with inBuf := m', pos := n' }).svWrites := by
  have hkind := bufferKind_of_body hn hn' hbody
  have htz := nmeaTokenizerGet_like hbody
  by_cases hgsv : bufferKind m n = .gsv
  · rw [nmeaReaderParse_eq, nmeaReaderParse_eq]
    simp only [← hkind, hgsv]
    rw [parseGsv_congr fun i => (htz i).bytes]
    unfold parseGsv gsvBegin
    split_ifs <;> rfl
  · rw [parse_svWrites_eq_nil (r := { r with inBuf := m, pos := n }) hgsv,
      parse_svWrites_eq_nil (r := { r with inBuf := m', pos := n' }) (by rwa [← hkind])]

/-- **Framing does not matter.** For two sentences of at least 9 bytes, in any two
buffers, whose bodies are equal: neither stores a satellite over another member of the
reader, both leave the same reader behind, up to the buffer, and what the parser tests
about the first character of a field is decided by the field, if and only if the
sentence, when it is a GSV sentence that stores something, has a number from 1 to 8. -/
theorem framing_transparent_iff (env : NmeaEnv) (r : NmeaReader) {m m' : Mem} {n n' : Nat}
    (hn : 9 ≤ n) (hn' : 9 ≤ n')
    (hbody : stripFrame (m.slice 0 n) = stripFrame (m'.slice 0 n')) :
    (InTable (nmeaReaderParse env { r with inBuf := m, pos := n }).svWrites
        ∧ InTable (nmeaReaderParse env { r with inBuf := m', pos := n' }).svWrites
        ∧ SameState (nmeaReaderParse env { r with inBuf := m, pos := n }).reader
          (nmeaReaderParse env { r with inBuf := m', pos := n' }).reader
        ∧ ∀ i, (nmeaTokenizerGet (nmeaTokenizerInit m 0 n) i).TestsOwn)
      ↔ TextInTable r.svStatus.numSvs (m.slice 0 n) := by
  rw [← sentenceBody_eq, ← sentenceBody_eq] at hbody
  have hstores : InTable (nmeaReaderParse env { r with inBuf := m, pos := n }).svWrites
      ↔ TextInTable r.svStatus.numSvs (m.slice 0 n) :=
    parse_stores_iff env { r with inBuf := m, pos := n }
  rw [← parse_svWrites_of_body env r hn hn' hbody, hstores]
  constructor
  · rintro ⟨htext, -⟩
    exact htext
  · intro htext
    exact ⟨htext, htext, parse_same_of_body env r hn hn' hbody, nmeaTokenizerGet_testsOwn m n⟩

end

/-- A GGA sentence as the receiver sends it, and its bare body. -/
def framedGga : List Byte := "$GPGGA,,,,,,0,,,,,,,*66\r\n".toList.map ch
def bareGga : List Byte := "GPGGA,,,,,,0,,,,,,,".toList.map ch

theorem framed_gga_same :
    letI : CFloat := decimalFloat
    SameState
      (nmeaReaderParse quietEnv { nmeaReaderInit 0 with inBuf := textMem framedGga, pos := 25 }).reader
      (nmeaReaderParse quietEnv { nmeaReaderInit 0 with inBuf := textMem bareGga, pos := 19 }).reader :=
  letI : CFloat := decimalFloat
  have hgga : textKind ((textMem framedGga).slice 0 25) ≠ .gsv := by decide +kernel
  ((framing_transparent_iff quietEnv (nmeaReaderInit 0) (by decide) (by decide)
    (by decide +kernel)).mpr fun hgsv => absurd hgsv hgga).2.2.1

/-- A tenth GSV sentence with `$`, and without it. -/
def framedTenthGsv : List Byte :=
  "$GPGSV,3,10,12,01,40,083,46,02,40,083,,03,40,083.0,,04,40,083,46\n".toList.map ch
def bareTenthGsv : List Byte :=
  "GPGSV,3,10,12,01,40,083,46,02,40,083,,03,40,083.0,,04,40,083,46\n".toList.map ch

/-- Its first satellite is stored in the buffer, over the fields still to be read. -/
theorem tenth_gsv_stored_in_buffer :
    letI : CFloat := decimalFloat
    stripFrame framedTenthGsv = stripFrame bareTenthGsv
      ∧ 36 ∈ (nmeaReaderParse quietEnv ((nmeaReaderInit 0).load framedTenthGsv)).svWrites
      ∧ (∀ w, ReaderMember.inBuf.HitBy 36 w)
      ∧ ¬ (InTable (nmeaReaderParse quietEnv ((nmeaReaderInit 0).load framedTenthGsv)).svWrites
        ∧ InTable (nmeaReaderParse quietEnv ((nmeaReaderInit 0).load bareTenthGsv)).svWrites
        ∧ SameState (nmeaReaderParse quietEnv ((nmeaReaderInit 0).load framedTenthGsv)).reader
          (nmeaReaderParse quietEnv ((nmeaReaderInit 0).load bareTenthGsv)).reader) := by
  let _ := decimalFloat
  have hstored :
      36 ∈ (nmeaReaderParse quietEnv ((nmeaReaderInit 0).load framedTenthGsv)).svWrites := by
    decide +kernel
  refine ⟨by decide +kernel, hstored, ?_, ?_⟩
  · intro w
    cases w <;> decide
  · rintro ⟨hstores, -⟩
    exact absurd (hstores 36 hstored).2 (by decide)

end HtcLeo
