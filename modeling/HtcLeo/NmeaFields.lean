import HtcLeo.Loops
import HtcLeo.NmeaBody

/-!
# The fields of a buffer (`nmea_tokenizer_init`, `nmea_tokenizer_get`)

The tokenizer on any range of memory, with nothing assumed about the text
in it. Its loop is given here round by round (`tokenizeStep`), as the
source has it, and ends in the tokens that `nmeaTokenizerInit` computes
(`tokenize_loopsTo`). The body is the text without its frame
(`sentenceBody_slice`), at any place of the memory.
-/

namespace HtcLeo

/-- The pointer and the tokens at the head of the loop. -/
structure TokenScan where
  p : Nat
  tokens : List Token

/-- One round of `while (p < end)`; there is none where the loop is left. -/
def tokenizeStep (m : Mem) (stop : Nat) (s : TokenScan) : Option TokenScan :=
  if s.p < stop then
    let q := (memchr m (ch ',') s.p (stop - s.p)).getD stop
    some
      { tokens := if s.tokens.length < maxNmeaTokens then s.tokens ++ [⟨m, s.p, q⟩] else s.tokens
        p := if q < stop then q + 1 else q }
  else none

/-- `nmea_tokenizer_get` with any `int`. -/
def nmeaTokenizerGetInt (t : NmeaTokenizer) (index : Int) : Token :=
  if index < 0 ∨ index ≥ t.count then .dummy else t.tokens.getD index.toNat .dummy

/-! ## The loop -/

/-- Each round leaves the pointer behind the token. -/
theorem memchr_getD_bounds (m : Mem) {c : Byte} {p stop : Nat} (h : p < stop) :
    p ≤ (memchr m c p (stop - p)).getD stop ∧ (memchr m c p (stop - p)).getD stop ≤ stop := by
  cases hm : memchr m c p (stop - p) with
  | none =>
      rw [Option.getD_none]
      omega
  | some q =>
      obtain ⟨hle, hlt, -, -⟩ := memchr_some hm
      rw [Option.getD_some]
      omega

/-- The loop of the source ends, with the tokens of the model. -/
theorem tokenize_loopsTo {m : Mem} {stop fuel p : Nat} (hfuel : stop - p ≤ fuel)
    (tokens : List Token) :
    ∃ p', LoopsTo (tokenizeStep m stop) ⟨p, tokens⟩
      ⟨p', tokens ++ tokenizeLoop m stop fuel p tokens.length⟩ := by
  induction fuel generalizing p tokens with
  | zero =>
      refine ⟨p, ?_⟩
      rw [tokenizeLoop, List.append_nil]
      exact .stop (if_neg (by simp only; omega))
  | succ fuel ih =>
      rw [tokenizeLoop]
      by_cases hp : p < stop
      · obtain ⟨hlo, hhi⟩ := memchr_getD_bounds m (c := ch ',') hp
        generalize hq : (memchr m (ch ',') p (stop - p)).getD stop = q at hlo hhi
        have hnext : stop - (if q < stop then q + 1 else q) ≤ fuel := by
          split_ifs <;> omega
        rw [if_pos hp]
        by_cases hcount : tokens.length < maxNmeaTokens
        · obtain ⟨p', hrest⟩ := ih hnext (tokens ++ [⟨m, p, q⟩])
          rw [List.length_append, List.length_singleton, List.append_assoc] at hrest
          refine ⟨p', ?_⟩
          rw [if_pos hcount]
          refine .round ?_ hrest
          simp only [tokenizeStep, if_pos hp, hq, if_pos hcount]
        · obtain ⟨p', hrest⟩ := ih hnext tokens
          refine ⟨p', ?_⟩
          rw [if_neg hcount]
          refine .round ?_ hrest
          simp only [tokenizeStep, if_pos hp, hq, if_neg hcount]
      · refine ⟨p, ?_⟩
        rw [if_neg hp, List.append_nil]
        exact .stop (if_neg hp)

/-- A token that lies in the range. -/
structure Token.Within (t : Token) (m : Mem) (p stop : Nat) : Prop where
  mem : t.mem = m
  lo : p ≤ t.p
  order : t.p ≤ t.stop
  hi : t.stop ≤ stop

/-- What holds at the head of the loop. -/
structure TokenScan.Inv (m : Mem) (p stop : Nat) (s : TokenScan) : Prop where
  start : p ≤ s.p
  count : s.tokens.length ≤ maxNmeaTokens
  within : ∀ t ∈ s.tokens, t.Within m p stop

theorem tokenizeStep_inv {m : Mem} {p stop : Nat} {s s' : TokenScan} (h : s.Inv m p stop)
    (hstep : tokenizeStep m stop s = some s') : s'.Inv m p stop := by
  unfold tokenizeStep at hstep
  by_cases hp : s.p < stop
  · obtain ⟨hlo, hhi⟩ := memchr_getD_bounds m (c := ch ',') hp
    rw [if_pos hp] at hstep
    generalize (memchr m (ch ',') s.p (stop - s.p)).getD stop = q at hlo hhi hstep
    obtain rfl := Option.some.inj hstep
    have hstart := h.start
    have hnext : p ≤ if q < stop then q + 1 else q := by
      split_ifs <;> omega
    by_cases hcount : s.tokens.length < maxNmeaTokens
    · simp only [if_pos hcount]
      refine ⟨hnext, ?_, fun t ht => ?_⟩
      · rw [List.length_append, List.length_singleton]
        exact hcount
      · rcases List.mem_append.mp ht with ht | ht
        · exact h.within t ht
        · rw [List.mem_singleton.mp ht]
          exact ⟨rfl, hstart, hlo, hhi⟩
    · simp only [if_neg hcount]
      exact ⟨hnext, h.count, h.within⟩
  · rw [if_neg hp] at hstep
    cases hstep

/-! ## The fields -/

theorem le_skipDollar (m : Mem) (p stop : Nat) : p ≤ skipDollar m p stop := by
  unfold skipDollar
  split_ifs <;> omega

/-- An index that no token has gives the empty string. -/
theorem nmeaTokenizerGetInt_eq (t : NmeaTokenizer) (index : Int) :
    nmeaTokenizerGetInt t index
      = if 0 ≤ index then nmeaTokenizerGet t index.toNat else .dummy := by
  unfold nmeaTokenizerGetInt
  by_cases hneg : index < 0
  · rw [if_pos (.inl hneg), if_neg (by omega)]
  · rw [if_pos (Int.not_lt.mp hneg), nmeaTokenizerGet]
    by_cases hcount : index ≥ t.count
    · rw [if_pos (.inr hcount), if_pos (by omega)]
    · rw [if_neg (not_or.mpr ⟨hneg, hcount⟩), if_neg (by omega)]

/-- **The tokenizer.** For every range of memory and every index: the token is
field `i` of the body, the text without its frame split at commas, for the first
32, empty where there is no such field, and every other token is empty. There are
at most 32 tokens, each within the range, and the loop that stores them ends. -/
theorem tokenizer_fields (m : Mem) (p stop : Nat) :
    (∀ i : Int, (nmeaTokenizerGetInt (nmeaTokenizerInit m p stop) i).bytes
        = if 0 ≤ i ∧ i < 32 then
            ((stripFrame (m.slice p (stop - p))).splitOn (ch ',')).getD i.toNat []
          else [])
      ∧ (nmeaTokenizerInit m p stop).count ≤ 32
      ∧ (∀ t ∈ (nmeaTokenizerInit m p stop).tokens, t.Within m p stop)
      ∧ ∃ p', LoopsTo (tokenizeStep m (bodyStop m p stop)) ⟨bodyStart m p stop, []⟩
          ⟨p', (nmeaTokenizerInit m p stop).tokens⟩ := by
  obtain ⟨p', hloop⟩ := tokenize_loopsTo (m := m) (le_refl (bodyStop m p stop - bodyStart m p stop)) []
  have hinit : TokenScan.Inv m (bodyStart m p stop) (bodyStop m p stop) ⟨bodyStart m p stop, []⟩ :=
    ⟨le_refl _, Nat.zero_le _, by simp⟩
  have hinv := hloop.inv (fun s s' hs hstep => tokenizeStep_inv hs hstep) hinit
  refine ⟨fun i => ?_, hinv.count, fun t ht => ?_, p', hloop⟩
  · rw [nmeaTokenizerGetInt_eq, ← sentenceBody_slice]
    by_cases hi : 0 ≤ i
    · have hrange : i.toNat < maxNmeaTokens ↔ 0 ≤ i ∧ i < 32 := by
        rw [maxNmeaTokens]
        omega
      rw [if_pos hi, nmeaTokenizerGet_bytes]
      simp only [hrange]
    · rw [if_neg hi, if_neg fun h => hi h.1]
      rfl
  · obtain ⟨hmem, hlo, horder, hhi⟩ := hinv.within t ht
    exact ⟨hmem, (le_skipDollar m p stop).trans hlo, horder, hhi.trans (bodyStop_le m p stop)⟩

end HtcLeo
