import Mathlib.Data.List.GetD
import HtcLeo.GsvTable

/-!
# From a GSV group to the framework

A group of GSV sentences lists the satellites in view, four to a
sentence. The parser stores satellite number `i` at index `i` of the
table but counts only the tracked ones, those with a positive SNR; the
shim (`gpsshim/gps.c`) and the framework then read the first `num_svs`
entries.

`TableHolds` says what the table holds after the first satellites of the
group. Each sentence extends it by its satellites (`gsvSentence_step`), so
after the group the table is known entry by entry, and its first entries
are the tracked satellites exactly when no untracked satellite stands
before a tracked one (`gsv_group_handed_over_iff`).
-/

namespace HtcLeo

/-! ## Groups of sentences -/

/-- The four fields of a satellite, as they stand in a sentence. -/
structure Satellite where
  prn : List Byte
  elevation : List Byte
  azimuth : List Byte
  snr : List Byte
deriving DecidableEq

def Satellite.fields (x : Satellite) : List (List Byte) := [x.prn, x.elevation, x.azimuth, x.snr]

/-- A GSV sentence: the talker, the three numbers and the satellites. -/
structure GsvSentence where
  talker : List Byte
  total : List Byte
  number : List Byte
  count : List Byte
  sats : List Satellite
  tail : SentenceTail

def GsvSentence.fields (g : GsvSentence) : List (List Byte) :=
  (g.talker ++ [ch 'G', ch 'S', ch 'V']) :: g.total :: g.number :: g.count
    :: g.sats.flatMap Satellite.fields

def GsvSentence.text (g : GsvSentence) : List Byte :=
  frameText ([ch ','].intercalate g.fields) g.tail

/-- A nonempty string of digits with value `n`. -/
def IsNumber (s : List Byte) (n : Nat) : Prop :=
  s ≠ [] ∧ (∀ b ∈ s, IsDigit b) ∧ decValue 0 s = n

theorem IsNumber.str2int {s : List Byte} {n : Nat} (h : IsNumber s n) (hn : n < 2 ^ 31) :
    str2int s = n := by
  rw [str2int_digits h.1 h.2.1 (h.2.2 ▸ hn), h.2.2]

/-- Sentence `number` of `total`, with `sats` of the `count` satellites. -/
structure GsvSentence.WellFormed (g : GsvSentence) (total number count : Nat)
    (sats : List Satellite) : Prop where
  talker : g.talker.length = 2
  plain : ∀ f ∈ g.fields, ∀ b ∈ f, b ≠ ch ',' ∧ b ≠ ch '*' ∧ b ≠ ch '\r' ∧ b ≠ ch '\n'
  total : IsNumber g.total total
  number : IsNumber g.number number
  count : IsNumber g.count count
  sats : g.sats = sats
  tail : g.tail.WellFormed

/-- The sentences `1 .. ⌈N / 4⌉` for `N` satellites, four to a sentence. -/
structure WellFormedGroup (sats : List Satellite) (gs : List (NmeaEnv × GsvSentence)) : Prop where
  pos : 0 < sats.length
  fits : sats.length ≤ 32
  length : gs.length = (sats.length + 3) / 4
  sentence : ∀ (k : Nat) (eg : NmeaEnv × GsvSentence), gs[k]? = some eg →
    eg.2.WellFormed gs.length (k + 1) sats.length ((sats.drop (4 * k)).take 4)

/-- The events of a group. -/
def groupEvents (gs : List (NmeaEnv × GsvSentence)) : List GpsEvent :=
  gs.map fun eg => .sentence eg.1 eg.2.text

/-! ## Fields of a sentence -/

theorem getD_flatMap_fields (sats : List Satellite) (i : Nat) {k : Nat} (hk : k < 4) :
    (sats.flatMap Satellite.fields).getD (i * 4 + k) []
      = ((sats[i]?).map fun x => x.fields.getD k []).getD [] := by
  induction sats generalizing i with
  | nil => simp
  | cons x sats ih =>
      rw [List.flatMap_cons]
      cases i with
      | zero =>
          rw [Nat.zero_mul, Nat.zero_add, List.getD_append _ _ _ _ (by simpa [Satellite.fields])]
          rfl
      | succ i =>
          rw [List.getD_append_right _ _ _ _ (by simp [Satellite.fields]; omega),
            List.getElem?_cons_succ, ← ih]
          congr 1
          simp [Satellite.fields]
          omega

section

variable {g : GsvSentence} {T n N : Nat} {sats : List Satellite}

theorem GsvSentence.WellFormed.field (h : g.WellFormed T n N sats) {i : Nat}
    (hi : i < maxNmeaTokens) : textField g.text i = g.fields.getD i [] :=
  textField_frame (by simp [GsvSentence.fields])
    (fun f hf b hb => ⟨(h.plain f hf b hb).1, (h.plain f hf b hb).2.1, (h.plain f hf b hb).2.2.1⟩)
    h.tail hi

/-- Field `k` of entry `i`, empty when the sentence has no such entry. -/
theorem GsvSentence.WellFormed.entryField (h : g.WellFormed T n N sats) {i k : Nat}
    (hi : i < 4) (hk : k < 4) :
    textField g.text (i * 4 + (k + 4)) = ((sats[i]?).map fun x => x.fields.getD k []).getD [] := by
  rw [h.field (by rw [maxNmeaTokens]; omega), ← h.sats, ← getD_flatMap_fields g.sats i hk,
    ← Nat.add_assoc]
  rfl

theorem GsvSentence.WellFormed.kind (h : g.WellFormed T n N sats) : textKind g.text = .gsv := by
  refine textKind_of_field [ch 'G', ch 'S', ch 'V'] ?_ h.talker rfl
    (h.field (i := 0) (by decide))
  have htotal : 0 < g.total.length := List.length_pos_iff.mpr h.total.1
  have htail : 0 < g.tail.text.length := by
    simp only [SentenceTail.text, List.length_append]
    split <;> simp
  simp only [GsvSentence.text, frameText, GsvSentence.fields, List.intercalate_cons_cons,
    List.length_cons, List.length_append, h.talker, List.length_nil]
  omega

/-- The three numbers of a sentence. -/
theorem GsvSentence.WellFormed.numbers (h : g.WellFormed T n N sats) (hT : T < 2 ^ 31)
    (hn : n < 2 ^ 31) (hN : N < 2 ^ 31) :
    gsvTotalSentences (textTokens g.text) = T ∧ gsvSentenceNo (textTokens g.text) = n
      ∧ gsvNumSvs (textTokens g.text) = N := by
  refine ⟨?_, ?_, ?_⟩
  · exact (congrArg str2int (h.field (i := 1) (by decide))).trans (h.total.str2int hT)
  · exact (congrArg str2int (h.field (i := 2) (by decide))).trans (h.number.str2int hn)
  · exact (congrArg str2int (h.field (i := 3) (by decide))).trans (h.count.str2int hN)

end

/-! ## The shim -/

section

variable [CFloat]

open CFloat

/-- An entry as the framework declares it, with the size of the structure. -/
structure ShimSvInfo where
  size : Nat
  prn : Int
  snr : float
  elevation : float
  azimuth : float

structure ShimSvStatus where
  size : Nat
  numSvs : Int
  svList : Int → ShimSvInfo
  ephemerisMask : Word
  almanacMask : Word
  usedInFixMask : Word

/-- Static storage before the first call. -/
def ShimSvStatus.zero : ShimSvStatus :=
  ⟨0, 0, fun _ => ⟨0, 0, zeroFloat, zeroFloat, zeroFloat⟩, 0, 0, 0⟩

/-- An entry copied field by field; `size` is `sizeof(GpsSvInfo)`. -/
def shimSvInfo (size : Nat) (x : GpsSvInfo) : ShimSvInfo :=
  ⟨size, x.prn, x.snr, x.elevation, x.azimuth⟩

/-- The copy loop, `n` rounds from index `i` on. -/
def svstatusCopy (size : Nat) (src : Int → GpsSvInfo) :
    (n : Nat) → (i : Int) → (Int → ShimSvInfo) → Int → ShimSvInfo
  | 0, _, l => l
  | n + 1, i, l =>
      svstatusCopy size src n (i + 1) (Function.update l i (shimSvInfo size (src i)))

/-- `newSvStatus` is the static result of the previous call; the sizes are
those of the framework's structures. -/
def svstatusCallbackWrapper (svInfoSize svStatusSize : Nat) (newSvStatus : ShimSvStatus)
    (svInfo : GpsSvStatus) : ShimSvStatus where
  size := svStatusSize
  numSvs := svInfo.numSvs
  svList := svstatusCopy svInfoSize svInfo.svList svInfo.numSvs.toNat 0 newSvStatus.svList
  ephemerisMask := svInfo.ephemerisMask
  almanacMask := svInfo.almanacMask
  usedInFixMask := svInfo.usedInFixMask

/-- The first `num_svs` entries. -/
def ShimSvStatus.entries (sv : ShimSvStatus) : List ShimSvInfo :=
  (List.range sv.numSvs.toNat).map fun i : Nat => sv.svList i

theorem svstatusCopy_of_lt (size : Nat) (src : Int → GpsSvInfo) (n : Nat) (i j : Int)
    (l : Int → ShimSvInfo) (h : j < i) : svstatusCopy size src n i l j = l j := by
  induction n generalizing i l with
  | zero => rfl
  | succ n ih => rw [svstatusCopy, ih _ _ (by omega), Function.update_of_ne (by omega)]

theorem svstatusCopy_eq (size : Nat) (src : Int → GpsSvInfo) (n : Nat) (i : Int)
    (l : Int → ShimSvInfo) {k : Nat} (hk : k < n) :
    svstatusCopy size src n i l (i + k) = shimSvInfo size (src (i + k)) := by
  induction n generalizing i l k with
  | zero => omega
  | succ n ih =>
      rw [svstatusCopy]
      cases k with
      | zero =>
          rw [Nat.cast_zero, Int.add_zero, svstatusCopy_of_lt _ _ _ _ _ _ (by omega),
            Function.update_self]
      | succ k =>
          rw [show i + ((k + 1 : Nat) : Int) = i + 1 + (k : Nat) by push_cast; ring]
          exact ih _ _ (by omega)

/-- The shim hands over the entries below `num_svs` as they are. -/
theorem entries_svstatusCallbackWrapper (a b : Nat) (old : ShimSvStatus) (sv : GpsSvStatus) :
    (svstatusCallbackWrapper a b old sv).entries
      = (List.range sv.numSvs.toNat).map fun i : Nat => shimSvInfo a (sv.svList i) := by
  refine List.map_congr_left fun i hi => ?_
  have hcopy := svstatusCopy_eq a sv.svList sv.numSvs.toNat 0 old.svList (List.mem_range.mp hi)
  rw [Int.zero_add] at hcopy
  exact hcopy

/-! ## What the table holds -/

def Satellite.tracked (x : Satellite) : Bool := isPos (toFloat (str2float x.snr))

def Satellite.info (x : Satellite) : GpsSvInfo where
  prn := str2int x.prn
  snr := toFloat (str2float x.snr)
  elevation := toFloat (str2float x.elevation)
  azimuth := toFloat (str2float x.azimuth)

/-- Entry `i` after the satellites of a list. -/
def tableEntry (l : List Satellite) (i : Nat) : GpsSvInfo :=
  match l[i]? with
  | some x => if x.tracked then x.info else .zero
  | none => .zero

/-- The table after the satellites of a list. -/
structure TableHolds (sv : GpsSvStatus) (l : List Satellite) : Prop where
  count : sv.numSvs = l.countP Satellite.tracked
  entry : ∀ i : Nat, i < 32 → sv.svList i = tableEntry l i

theorem tableEntry_append_of_ne {l : List Satellite} {x : Satellite} {i : Nat}
    (h : i ≠ l.length) : tableEntry (l ++ [x]) i = tableEntry l i := by
  rw [tableEntry, tableEntry]
  rcases Nat.lt_or_gt_of_ne h with hlt | hgt
  · rw [List.getElem?_append_left hlt]
  · rw [List.getElem?_eq_none (by simp; omega), List.getElem?_eq_none (by omega)]

theorem tableEntry_append_self (l : List Satellite) (x : Satellite) :
    tableEntry (l ++ [x]) l.length = if x.tracked then x.info else .zero := by
  rw [tableEntry, List.getElem?_append_right (Nat.le_refl _), Nat.sub_self,
    List.getElem?_cons_zero]

theorem tableEntry_length (l : List Satellite) : tableEntry l l.length = .zero := by
  rw [tableEntry, List.getElem?_eq_none (Nat.le_refl _)]

theorem TableHolds.append_untracked {sv : GpsSvStatus} {l : List Satellite} {x : Satellite}
    (h : TableHolds sv l) (hx : x.tracked = false) : TableHolds sv (l ++ [x]) where
  count := by rw [h.count, List.countP_append]; simp [hx]
  entry i hi := by
    rw [h.entry i hi]
    by_cases hil : i = l.length
    · rw [hil, tableEntry_append_self, tableEntry_length, hx]; rfl
    · exact (tableEntry_append_of_ne hil).symm

theorem TableHolds.append_tracked {sv : GpsSvStatus} {l : List Satellite} {x : Satellite}
    (h : TableHolds sv l) (hx : x.tracked = true) :
    TableHolds { sv with
      svList := Function.update sv.svList l.length x.info, numSvs := sv.numSvs + 1 } (l ++ [x]) where
  count := by
    simp only [h.count, List.countP_append, List.countP_singleton, hx, if_true]
    push_cast
    rfl
  entry i hi := by
    by_cases hil : i = l.length
    · subst hil
      rw [tableEntry_append_self, hx]
      exact Function.update_self ..
    · rw [tableEntry_append_of_ne hil, ← h.entry i hi]
      exact Function.update_of_ne (by omega) ..

/-! ## One sentence -/

/-- Entries without a positive SNR change nothing. -/
theorem gsvLoop_untracked {tz : NmeaTokenizer} {N : Int} {n i : Nat} {curr : Int}
    {sv : GpsSvStatus} (h : ∀ k, i ≤ k → k < i + n → isPos (gsvSnr tz k) = false) :
    (gsvLoop tz N n i curr sv).1 = sv := by
  induction n generalizing i curr with
  | zero => rfl
  | succ n ih =>
      have hi : isPos (gsvSnr tz i) = false := h i (by omega) (by omega)
      rw [gsvLoop]
      split
      · simp only [hi, Bool.false_eq_true, if_false]
        exact ih fun k hlo hhi => h k (by omega) (by omega)
      · rfl

/-- The entries of a tokenized sentence are the satellites of a list. -/
def HasEntries (tz : NmeaTokenizer) (i n : Nat) (sats : List Satellite) : Prop :=
  ∀ k, k < n →
    match sats[k]? with
    | some x => gsvInfo tz (i + k) = x.info
    | none => isPos (gsvSnr tz (i + k)) = false

theorem HasEntries.tail {tz : NmeaTokenizer} {i n : Nat} {x : Satellite} {sats : List Satellite}
    (h : HasEntries tz i (n + 1) (x :: sats)) : HasEntries tz (i + 1) n sats := by
  intro k hk
  have := h (k + 1) (by omega)
  rwa [List.getElem?_cons_succ, show i + (k + 1) = i + 1 + k by omega] at this

/-- The loop stores the sentence's satellites behind those before. -/
theorem gsvLoop_tableHolds {tz : NmeaTokenizer} {N : Int} {n i : Nat} {curr : Int}
    {sv : GpsSvStatus} {done sats : List Satellite} (hentries : HasEntries tz i n sats)
    (hlen : sats.length ≤ n) (hN : (done.length + sats.length : Nat) ≤ N)
    (hcurr : curr = done.length) (h : TableHolds sv done) :
    TableHolds (gsvLoop tz N n i curr sv).1 (done ++ sats) := by
  induction n generalizing i curr sv done sats with
  | zero =>
      obtain rfl : sats = [] := List.length_eq_zero_iff.mp (by omega)
      rw [List.append_nil]
      exact h
  | succ n ih =>
      cases sats with
      | nil =>
          rw [gsvLoop_untracked, List.append_nil]
          · exact h
          · intro k hlo hhi
            have := hentries (k - i) (by omega)
            rwa [List.getElem?_nil, show i + (k - i) = k by omega] at this
      | cons x sats =>
          have hx : gsvInfo tz i = x.info := hentries 0 (by omega)
          have hsnr : gsvSnr tz i = toFloat (str2float x.snr) := congrArg GpsSvInfo.snr hx
          have hroom : sv.numSvs < N := by
            have := List.countP_le_length (p := Satellite.tracked) (l := done)
            rw [h.count]
            rw [List.length_cons] at hN
            omega
          rw [List.length_cons] at hlen hN
          rw [gsvLoop, if_pos hroom, hx, hsnr]
          rw [show done ++ x :: sats = (done ++ [x]) ++ sats by simp]
          cases htracked : x.tracked with
          | true =>
              rw [Satellite.tracked] at htracked
              simp only [htracked, if_true]
              refine ih hentries.tail (by omega) (by simp; omega) (by simp [hcurr]) ?_
              rw [hcurr]
              exact h.append_tracked htracked
          | false =>
              rw [Satellite.tracked] at htracked
              simp only [htracked, Bool.false_eq_true, if_false]
              exact ih hentries.tail (by omega) (by simp; omega) (by simp [hcurr])
                (h.append_untracked htracked)

theorem GsvSentence.WellFormed.hasEntries {g : GsvSentence} {T n N : Nat}
    {sats : List Satellite} (h : g.WellFormed T n N sats) :
    HasEntries (textTokens g.text) 0 4 sats := by
  intro k hk
  have hfield : ∀ j, j < 4 → (nmeaTokenizerGet (textTokens g.text) (k * 4 + (j + 4))).bytes
      = ((sats[k]?).map fun x => x.fields.getD j []).getD [] := fun j hj => h.entryField hk hj
  rw [Nat.zero_add]
  cases hx : sats[k]? with
  | some x =>
      simp only [hx, Option.map_some, Option.getD_some] at hfield
      simp only [gsvInfo, gsvSnr]
      rw [hfield 0 (by omega), hfield 1 (by omega), hfield 2 (by omega), hfield 3 (by omega)]
      rfl
  | none =>
      simp only [hx, Option.map_none, Option.getD_none] at hfield
      simp only [gsvSnr]
      rw [hfield 3 (by omega)]
      exact isPos_minusOne

/-- **A sentence of a group.** Sentence `k + 1` adds its satellites to those of
the sentences before; the first one starts from an empty table. The last one
marks the table as changed. -/
theorem gsvSentence_step {g : GsvSentence} {T k N : Nat} (done : List Satellite)
    {sats : List Satellite}
    (h : g.WellFormed T (k + 1) N sats) (hT : T ≤ 8) (hk : k < T) (hN : N ≤ 32)
    (hpos : 0 < N) (hdone : done.length = 4 * k) (hlen : sats.length ≤ 4)
    (hfit : done.length + sats.length ≤ N) (r : NmeaReader) (env : NmeaEnv)
    (hr : 0 < k → TableHolds r.svStatus done) :
    TableHolds (gpsNext r (.sentence env g.text)).svStatus (done ++ sats)
      ∧ (k + 1 = T → (gpsNext r (.sentence env g.text)).svStatusChanged = true) := by
  obtain ⟨htotal, hno, hnum⟩ := h.numbers (by omega) (by omega) (by omega)
  have hcurr : gsvCurr (textTokens g.text) = done.length := by
    rw [gsvCurr, hno, hdone, wrap32_eq (x := ((k + 1 : Nat) : Int) - 1) (by omega) (by omega),
      wrap32_eq (by omega) (by omega)]
    omega
  have hbegin : TableHolds (gsvBegin (r.load g.text) (textTokens g.text)).svStatus done := by
    rw [gsvBegin, hno]
    rcases Nat.eq_zero_or_pos k with rfl | hk0
    · obtain rfl : done = [] := List.length_eq_zero_iff.mp (by omega)
      rw [if_pos (by rfl)]
      refine ⟨rfl, fun i hi => if_pos ?_⟩
      rw [gpsMaxSvs]
      omega
    · rw [if_neg (by omega)]
      exact hr hk0
  have hroom : ((done.length + sats.length : Nat) : Int) ≤ gsvNumSvs (textTokens g.text) := by
    rw [hnum]
    exact_mod_cast hfit
  have hloop := gsvLoop_tableHolds h.hasEntries hlen hroom hcurr hbegin
  rw [(gpsStep_gsv h.kind r env).2, parseGsv, if_pos (by omega)]
  simp only
  refine ⟨hloop, fun hlast => ?_⟩
  rw [htotal, hno, hlast, if_pos rfl]

/-! ## The group -/

/-- After `k` sentences the table holds their satellites. -/
theorem group_tableHolds {sats : List Satellite} {gs : List (NmeaEnv × GsvSentence)}
    (h : WellFormedGroup sats gs) (r : NmeaReader) {k : Nat} (hk : k ≤ gs.length) :
    (0 < k → TableHolds (runFrom gpsNext r (groupEvents (gs.take k))).svStatus (sats.take (4 * k)))
      ∧ (0 < k → k = gs.length →
        (runFrom gpsNext r (groupEvents (gs.take k))).svStatusChanged = true) := by
  have hlen := h.length
  have hfits := h.fits
  induction k with
  | zero => exact ⟨fun hpos => absurd hpos (by omega), fun hpos => absurd hpos (by omega)⟩
  | succ k ih =>
      have hget : gs[k]? = some gs[k] := List.getElem?_eq_getElem (by omega)
      have hrun : runFrom gpsNext r (groupEvents (gs.take (k + 1)))
          = gpsNext (runFrom gpsNext r (groupEvents (gs.take k)))
            (.sentence gs[k].1 gs[k].2.text) := by
        rw [List.take_add_one, hget, groupEvents, List.map_append, runFrom_append]
        rfl
      have hstep := gsvSentence_step (sats.take (4 * k)) (h.sentence k gs[k] hget)
        (by omega) (by omega) hfits h.pos (by rw [List.length_take]; omega)
        (by rw [List.length_take]; omega) (by simp; omega)
        (runFrom gpsNext r (groupEvents (gs.take k))) gs[k].1 (ih (by omega)).1
      rw [hrun, show 4 * (k + 1) = 4 * k + 4 by ring, List.take_add]
      exact ⟨fun _ => hstep.1, fun _ hlast => hstep.2 hlast⟩

/-- The table given to the shim by the round after the group. -/
theorem group_published {sats : List Satellite} {gs : List (NmeaEnv × GsvSentence)}
    (h : WellFormedGroup sats gs) (r : NmeaReader) :
    ∃ sv, (gpsStep (runFrom gpsNext r (groupEvents gs)) .tick).2.svStatus = some sv
      ∧ TableHolds sv sats := by
  have hlen := h.length
  have hpos := h.pos
  obtain ⟨htable, hchanged⟩ := group_tableHolds h r (Nat.le_refl gs.length)
  rw [List.take_length] at htable hchanged
  have hall := htable (by omega)
  rw [List.take_of_length_le (by omega)] at hall
  obtain ⟨hsv, hch⟩ := gpsTimerLocation_keeps (runFrom gpsNext r (groupEvents gs))
  refine ⟨_, ?_, hall⟩
  rw [gpsStep, gpsTimerTick]
  simp only [hch, hchanged (by omega) rfl, if_true, hsv]

/-! ## What the framework sees -/

/-- No tracked satellite stands behind an untracked one. -/
def TrackedFirst (sats : List Satellite) : Prop :=
  sats.Pairwise fun x y => y.tracked = true → x.tracked = true

instance (sats : List Satellite) : Decidable (TrackedFirst sats) :=
  inferInstanceAs (Decidable (List.Pairwise _ sats))

/-- Tracked satellites come first when as many satellites from the front are tracked as there are. -/
theorem trackedFirst_iff (sats : List Satellite) :
    TrackedFirst sats ↔
      ∀ i, i < sats.countP Satellite.tracked → ∃ x, sats[i]? = some x ∧ x.tracked = true := by
  induction sats with
  | nil => exact iff_of_true List.Pairwise.nil fun i hi => absurd hi (by simp)
  | cons a sats ih =>
      rw [TrackedFirst, List.pairwise_cons, ← TrackedFirst, ih]
      cases ha : a.tracked with
      | true =>
          simp only [implies_true, true_and, List.countP_cons, ha, if_true]
          constructor
          · intro h i hi
            cases i with
            | zero => exact ⟨a, rfl, ha⟩
            | succ i => exact h i (by omega)
          · intro h i hi
            exact h (i + 1) (by omega)
      | false =>
          simp only [List.countP_cons, ha, Bool.false_eq_true, if_false, Nat.add_zero]
          constructor
          · rintro ⟨hnone, -⟩ i hi
            obtain ⟨y, hy, htracked⟩ := List.countP_pos_iff.mp (Nat.zero_lt_of_lt hi)
            exact (hnone y hy htracked).elim
          · intro h
            have hzero : sats.countP Satellite.tracked = 0 := by
              by_contra hne
              obtain ⟨x, hx, htracked⟩ := h 0 (by omega)
              rw [List.getElem?_cons_zero, Option.some.injEq] at hx
              rw [← hx, ha] at htracked
              cases htracked
            refine ⟨fun y hy htracked => ?_, fun i hi => by omega⟩
            exact absurd htracked (List.countP_eq_zero.mp hzero y hy)

theorem TrackedFirst.filter_eq {sats : List Satellite} (h : TrackedFirst sats) :
    sats.filter Satellite.tracked = sats.take (sats.countP Satellite.tracked) := by
  induction sats with
  | nil => rfl
  | cons a sats ih =>
      obtain ⟨hfirst, hrest⟩ := List.pairwise_cons.mp h
      cases ha : a.tracked with
      | true =>
          rw [List.filter_cons_of_pos ha, List.countP_cons_of_pos ha, List.take_succ_cons, ih hrest]
      | false =>
          have hnone : ∀ y ∈ sats, ¬y.tracked = true := fun y hy htracked => by
            rw [hfirst y hy htracked] at ha
            cases ha
          rw [List.filter_cons_of_neg (by simp [ha]), List.countP_cons_of_neg (by simp [ha]),
            List.countP_eq_zero.mpr hnone, List.filter_eq_nil_iff.mpr hnone, List.take_zero]

/-- An entry of the table with a positive SNR is that of a tracked satellite. -/
theorem tableEntry_tracked {sats : List Satellite} {i : Nat}
    (h : isPos (tableEntry sats i).snr = true) : ∃ x, sats[i]? = some x ∧ x.tracked = true := by
  rw [tableEntry] at h
  cases hx : sats[i]? with
  | none =>
      simp only [hx, GpsSvInfo.zero, isPos_zeroFloat] at h
      cases h
  | some x =>
      refine ⟨x, rfl, ?_⟩
      by_contra htracked
      simp only [hx, htracked, GpsSvInfo.zero] at h
      rw [if_neg (by simp), isPos_zeroFloat] at h
      cases h

/-- What the shim hands over of the table of the group. -/
theorem TableHolds.entries {sats : List Satellite} (hfits : sats.length ≤ 32) {sv : GpsSvStatus}
    (h : TableHolds sv sats) (a b : Nat) (old : ShimSvStatus) :
    (svstatusCallbackWrapper a b old sv).entries
      = (List.range (sats.countP Satellite.tracked)).map
        fun i : Nat => shimSvInfo a (tableEntry sats i) := by
  have hcount := List.countP_le_length (p := Satellite.tracked) (l := sats)
  rw [entries_svstatusCallbackWrapper, h.count, Int.toNat_natCast]
  refine List.map_congr_left fun i hi => ?_
  rw [h.entry i (by have := List.mem_range.mp hi; omega)]

/-- The entries handed to the framework, given the table of the group, are its
tracked satellites in order exactly when the tracked ones come first. -/
theorem entries_eq_tracked_iff {sats : List Satellite} (hfits : sats.length ≤ 32)
    {sv : GpsSvStatus} (h : TableHolds sv sats) (a b : Nat) (old : ShimSvStatus) :
    (svstatusCallbackWrapper a b old sv).entries
        = (sats.filter Satellite.tracked).map (fun x => shimSvInfo a x.info)
      ↔ TrackedFirst sats := by
  rw [h.entries hfits]
  constructor
  · intro heq
    rw [trackedFirst_iff]
    intro i hi
    -- entry `i` is that of some tracked satellite, so its SNR is positive
    have hmem : shimSvInfo a (tableEntry sats i)
        ∈ (sats.filter Satellite.tracked).map (fun x => shimSvInfo a x.info) := by
      rw [← heq]
      exact List.mem_map.mpr ⟨i, List.mem_range.mpr hi, rfl⟩
    obtain ⟨y, hy, heq'⟩ := List.mem_map.mp hmem
    apply tableEntry_tracked
    rw [← show y.info.snr = (tableEntry sats i).snr from congrArg ShimSvInfo.snr heq']
    exact (List.mem_filter.mp hy).2
  · intro hfirst
    rw [hfirst.filter_eq]
    refine List.ext_getElem? fun i => ?_
    rw [List.getElem?_map, List.getElem?_map]
    rcases Nat.lt_or_ge i (sats.countP Satellite.tracked) with hi | hi
    · obtain ⟨x, hx, htracked⟩ := (trackedFirst_iff sats).mp hfirst i hi
      rw [List.getElem?_range hi, List.getElem?_take_of_lt hi, hx, Option.map_some, Option.map_some,
        tableEntry, hx]
      simp only [htracked, if_true]
    · rw [List.getElem?_eq_none (by simpa using hi), List.getElem?_eq_none (by simp; omega)]
      rfl

/-- What reaches the framework in the round after a group: the first `num_svs`
entries are the tracked satellites, in order, each once. -/
def HandsOverTracked (r : NmeaReader) (gs : List (NmeaEnv × GsvSentence))
    (sats : List Satellite) (svInfoSize svStatusSize : Nat) (old : ShimSvStatus) : Prop :=
  ∃ sv, (gpsStep (runFrom gpsNext r (groupEvents gs)) .tick).2.svStatus = some sv
    ∧ (svstatusCallbackWrapper svInfoSize svStatusSize old sv).entries
      = (sats.filter Satellite.tracked).map (fun x => shimSvInfo svInfoSize x.info)

/-- **Satellites handed over.** After a well-formed GSV group the framework is
given exactly the tracked satellites if and only if none of them stands behind
an untracked one. -/
theorem gsv_group_handed_over_iff {sats : List Satellite} {gs : List (NmeaEnv × GsvSentence)}
    (h : WellFormedGroup sats gs) (r : NmeaReader) (svInfoSize svStatusSize : Nat)
    (old : ShimSvStatus) :
    HandsOverTracked r gs sats svInfoSize svStatusSize old ↔ TrackedFirst sats := by
  obtain ⟨sv, hsv, htable⟩ := group_published h r
  rw [← entries_eq_tracked_iff h.fits htable svInfoSize svStatusSize old]
  constructor
  · rintro ⟨sv', hsv', heq⟩
    obtain rfl := Option.some.inj (hsv.symm.trans hsv')
    exact heq
  · exact fun heq => ⟨sv, hsv, heq⟩

end

/-! ## Two satellites -/

/-- A satellite in view but not tracked: no SNR. -/
def satelliteInView : Satellite where
  prn := "01".toList.map ch
  elevation := "40".toList.map ch
  azimuth := "083".toList.map ch
  snr := []

def satelliteTracked : Satellite where
  prn := "02".toList.map ch
  elevation := "30".toList.map ch
  azimuth := "120".toList.map ch
  snr := "46".toList.map ch

/-- One sentence with two satellites, such as `$GPGSV,1,1,02,01,40,083,,02,30,120,46`. -/
def pairSentence (x y : Satellite) : GsvSentence where
  talker := [ch 'G', ch 'P']
  total := [ch '1']
  number := [ch '1']
  count := [ch '0', ch '2']
  sats := [x, y]
  tail := ⟨none, true⟩

theorem pair_wellFormed {x y : Satellite}
    (hplain : ∀ f ∈ (pairSentence x y).fields, ∀ b ∈ f,
      b ≠ ch ',' ∧ b ≠ ch '*' ∧ b ≠ ch '\r' ∧ b ≠ ch '\n') :
    WellFormedGroup [x, y] [(quietEnv, pairSentence x y)] where
  pos := Nat.zero_lt_succ 1
  fits := show 2 ≤ 32 by decide
  length := show 1 = (2 + 3) / 4 by decide
  sentence k eg h := by
    cases k with
    | zero =>
        rw [List.getElem?_cons_zero, Option.some.injEq] at h
        rw [← h]
        have hone : IsNumber [ch '1'] 1 := ⟨by decide, by decide, by decide⟩
        have htwo : IsNumber [ch '0', ch '2'] 2 := ⟨by decide, by decide, by decide⟩
        refine ⟨rfl, hplain, hone, hone, htwo, rfl, ?_⟩
        intro a b hc
        cases hc
    | succ k => cases h

/-- With the tracked satellite first, it reaches the framework. -/
theorem tracked_first_handed_over :
    @HandsOverTracked decimalFloat (@nmeaReaderInit decimalFloat 0)
      [(quietEnv, pairSentence satelliteTracked satelliteInView)]
      [satelliteTracked, satelliteInView] 20 660 (@ShimSvStatus.zero decimalFloat) :=
  (@gsv_group_handed_over_iff decimalFloat _ _ (pair_wellFormed (by decide +kernel))
    (@nmeaReaderInit decimalFloat 0) 20 660 (@ShimSvStatus.zero decimalFloat)).mpr (by decide +kernel)

/-- With the untracked satellite first, an empty entry reaches the framework
and the tracked satellite does not. -/
theorem untracked_first_loses_satellite :
    WellFormedGroup [satelliteInView, satelliteTracked]
        [(quietEnv, pairSentence satelliteInView satelliteTracked)]
      ∧ ¬@HandsOverTracked decimalFloat (@nmeaReaderInit decimalFloat 0)
        [(quietEnv, pairSentence satelliteInView satelliteTracked)]
        [satelliteInView, satelliteTracked] 20 660 (@ShimSvStatus.zero decimalFloat) := by
  refine ⟨pair_wellFormed (by decide +kernel), ?_⟩
  rintro ⟨sv, hsv, heq⟩
  have hprn := congrArg (List.map (@ShimSvInfo.prn decimalFloat)) heq
  have hpublished : (@GpsOut.svStatus decimalFloat (@gpsStep decimalFloat
      (runFrom (@gpsNext decimalFloat) (@nmeaReaderInit decimalFloat 0)
        (groupEvents [(quietEnv, pairSentence satelliteInView satelliteTracked)])) .tick).2).map
        (fun sv => (@ShimSvStatus.entries decimalFloat
          (@svstatusCallbackWrapper decimalFloat 20 660 (@ShimSvStatus.zero decimalFloat) sv)).map
            (@ShimSvInfo.prn decimalFloat)) = some [0] := by
    decide +kernel
  rw [hsv, Option.map_some, Option.some.injEq, hprn] at hpublished
  exact absurd hpublished (by decide +kernel)

end HtcLeo
