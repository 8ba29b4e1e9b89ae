import Mathlib.Data.List.Range
import HtcLeo.GpsSession

/-!
# Bounds of the satellite table

A GSV sentence stores entry `i` at `(sentence_no - 1) * 4 + i` and counts
the entries stored; neither the sentence number nor the announced number
of satellites is compared with the size of the table. A store before or
behind the table changes another member of the reader (`ReaderMember`).

The loop is summarised by where it stores and by how far it counts; from
that the texts whose stores stay in the table are characterised exactly
(`parse_stores_iff`), and so are the runs that keep the stores and the
count in bounds (`satellite_table_safe_iff`).
-/

namespace HtcLeo

/-- The first index is in the table's range exactly for sentence numbers 1 to 8. -/
theorem gsvCurr_bounds (tz : NmeaTokenizer) :
    (0 ≤ gsvCurr tz ∧ gsvCurr tz ≤ 28) ↔ (gsvSentenceNo tz - 1) % 2 ^ 30 < 8 := by
  have hmod := wrap32_emod (wrap32 (gsvSentenceNo tz - 1) * 4)
  have hmod' := wrap32_emod (gsvSentenceNo tz - 1)
  have hlo := wrap32_lo (wrap32 (gsvSentenceNo tz - 1) * 4)
  have hhi := wrap32_hi (wrap32 (gsvSentenceNo tz - 1) * 4)
  rw [gsvCurr]
  omega

theorem gsvCurr_mod (tz : NmeaTokenizer) : gsvCurr tz % 4 = 0 := wrap32_mul_four _

/-! ## Around the table -/

/-- The members of `NmeaReader`, those of `fix` and `sv_status` one by one. -/
inductive ReaderMember where
  | pos
  | overflow
  | utcYear
  | utcMon
  | utcDay
  | utcDiff
  | fixFlags
  | latitude
  | longitude
  | altitude
  | speed
  | bearing
  | accuracy
  | timestamp
  | numSvs
  | svList
  | ephemerisMask
  | almanacMask
  | usedInFixMask
  | svStatusChanged
  | fixFlagsCached
  | inBuf
deriving DecidableEq, Repr

/-- Offset and size in bytes on the target, which aligns `double` and
`long long` to 8. -/
def ReaderMember.place : ReaderMember → Int × Int
  | pos => (0, 4)
  | overflow => (4, 4)
  | utcYear => (8, 4)
  | utcMon => (12, 4)
  | utcDay => (16, 4)
  | utcDiff => (20, 4)
  | fixFlags => (24, 2)
  | latitude => (32, 8)
  | longitude => (40, 8)
  | altitude => (48, 8)
  | speed => (56, 4)
  | bearing => (60, 4)
  | accuracy => (64, 4)
  | timestamp => (72, 8)
  | numSvs => (80, 4)
  | svList => (84, 512)
  | ephemerisMask => (596, 4)
  | almanacMask => (600, 4)
  | usedInFixMask => (604, 4)
  | svStatusChanged => (608, 4)
  | fixFlagsCached => (612, 2)
  | inBuf => (614, 256)

/-- The words of a `GpsSvInfo`. -/
inductive SvWord where
  | prn
  | snr
  | elevation
  | azimuth
deriving DecidableEq, Repr

def SvWord.index : SvWord → Int
  | prn => 0
  | snr => 1
  | elevation => 2
  | azimuth => 3

/-- Where a word of `sv_list[i]` is stored, for any `i`. -/
def svWordOffset (i : Int) (w : SvWord) : Int := 84 + 16 * i + 4 * w.index

/-- A store to the word changes bytes of the member. -/
def ReaderMember.HitBy (m : ReaderMember) (i : Int) (w : SvWord) : Prop :=
  m.place.1 < svWordOffset i w + 4 ∧ svWordOffset i w < m.place.1 + m.place.2

instance (m : ReaderMember) (i : Int) (w : SvWord) : Decidable (m.HitBy i w) :=
  inferInstanceAs (Decidable (_ ∧ _))

/-- The words of the table are those of the entries 0 to 31. -/
theorem svList_hitBy_iff (i : Int) (w : SvWord) :
    ReaderMember.svList.HitBy i w ↔ 0 ≤ i ∧ i < gpsMaxSvs := by
  rw [ReaderMember.HitBy, svWordOffset, gpsMaxSvs]
  cases w with
  | prn | snr | elevation | azimuth =>
      simp only [ReaderMember.place, SvWord.index]
      omega

/-- They hit no other member, and the entries up to 6 before the table and up to 18
behind it do. -/
theorem other_hitBy_iff (i : Int) :
    (∃ m w, m ≠ .svList ∧ ReaderMember.HitBy m i w)
      ↔ -6 ≤ i ∧ i < 0 ∨ gpsMaxSvs ≤ i ∧ i < gpsMaxSvs + 18 := by
  constructor
  · rintro ⟨m, w, hm, hlo, hhi⟩
    rw [svWordOffset] at hlo hhi
    rw [gpsMaxSvs]
    cases m with
    | svList => exact absurd rfl hm
    | pos | overflow | utcYear | utcMon | utcDay | utcDiff | fixFlags | latitude | longitude
    | altitude | speed | bearing | accuracy | timestamp | numSvs | ephemerisMask | almanacMask
    | usedInFixMask | svStatusChanged | fixFlagsCached | inBuf =>
        cases w with
        | prn | snr | elevation | azimuth =>
            simp only [ReaderMember.place, SvWord.index] at hlo hhi
            omega
  · rw [gpsMaxSvs]
    rintro (⟨hlo, hhi⟩ | ⟨hlo, hhi⟩)
    · obtain rfl | rfl | rfl | rfl | rfl | rfl :
          i = -6 ∨ i = -5 ∨ i = -4 ∨ i = -3 ∨ i = -2 ∨ i = -1 := by omega
      · exact ⟨.pos, .azimuth, by decide, by decide⟩
      · exact ⟨.overflow, .prn, by decide, by decide⟩
      · exact ⟨.fixFlags, .snr, by decide, by decide⟩
      · exact ⟨.latitude, .prn, by decide, by decide⟩
      · exact ⟨.altitude, .prn, by decide, by decide⟩
      · exact ⟨.timestamp, .snr, by decide, by decide⟩
    · by_cases hfirst : i = 32
      · exact ⟨.svStatusChanged, .azimuth, by decide, by rw [hfirst]; decide⟩
      · refine ⟨.inBuf, .prn, by decide, ?_⟩
        rw [ReaderMember.HitBy, svWordOffset]
        simp only [ReaderMember.place, SvWord.index]
        omega

section

variable [CFloat]

open CFloat

/-- The entries of a GSV sentence with a positive SNR, among `n` from `i` on. -/
def gsvTracked (tz : NmeaTokenizer) (i n : Nat) : Nat :=
  (List.range' i n).countP fun k => isPos (gsvSnr tz k)

theorem gsvTracked_succ (tz : NmeaTokenizer) (i n : Nat) :
    gsvTracked tz i (n + 1)
      = gsvTracked tz (i + 1) n + if isPos (gsvSnr tz i) then 1 else 0 := by
  rw [gsvTracked, List.range'_succ, List.countP_cons]
  rfl

/-! ## The entry loop -/

theorem gsvLoop_writes (tz : NmeaTokenizer) (numSvs : Int) (n i : Nat) (curr : Int)
    (sv : GpsSvStatus) :
    ∀ w ∈ (gsvLoop tz numSvs n i curr sv).2, curr ≤ w ∧ w < curr + n := by
  induction n generalizing i curr sv with
  | zero => intro w hw; cases hw
  | succ n ih =>
      intro w hw
      rw [gsvLoop] at hw
      split at hw
      · split at hw
        · rcases List.mem_cons.mp hw with rfl | hw
          · omega
          · have := ih _ _ _ w hw
            omega
        · have := ih _ _ _ w hw
          omega
      · cases hw

/-- Something is stored when there is room and a tracked entry. -/
theorem gsvLoop_writes_eq_nil (tz : NmeaTokenizer) (numSvs : Int) (n i : Nat) (curr : Int)
    (sv : GpsSvStatus) :
    (gsvLoop tz numSvs n i curr sv).2 = [] ↔ (sv.numSvs < numSvs → gsvTracked tz i n = 0) := by
  induction n generalizing i curr sv with
  | zero => exact iff_of_true rfl fun _ => rfl
  | succ n ih =>
      rw [gsvLoop, gsvTracked_succ]
      by_cases hroom : sv.numSvs < numSvs
      · by_cases htracked : isPos (gsvSnr tz i) = true
        · simp [hroom, htracked]
        · simp only [hroom, htracked, if_true, forall_const]
          rw [if_neg (by simp), ih, if_neg (by simp)]
          simp [hroom]
      · simp [hroom]

theorem gsvLoop_numSvs (tz : NmeaTokenizer) (numSvs : Int) (n i : Nat) (curr : Int)
    (sv : GpsSvStatus) :
    (gsvLoop tz numSvs n i curr sv).1.numSvs
      = if sv.numSvs < numSvs then min (sv.numSvs + gsvTracked tz i n) numSvs else sv.numSvs := by
  induction n generalizing i curr sv with
  | zero =>
      simp only [gsvLoop, gsvTracked, List.range'_zero, List.countP_nil, Nat.cast_zero, Int.add_zero]
      by_cases hroom : sv.numSvs < numSvs
      · rw [if_pos hroom, min_eq_left (by omega)]
      · rw [if_neg hroom]
  | succ n ih =>
      rw [gsvLoop, gsvTracked_succ]
      by_cases hroom : sv.numSvs < numSvs
      · by_cases htracked : isPos (gsvSnr tz i) = true
        · simp only [hroom, htracked, if_true]
          rw [ih]
          push_cast
          split <;> omega
        · simp only [hroom, htracked, if_true]
          rw [if_neg (by simp), ih, if_pos hroom, if_neg (by simp)]
          rfl
      · rw [if_neg hroom, if_neg hroom]

/-! ## The sentence -/

theorem gsvLoop_congr {tz tz' : NmeaTokenizer}
    (h : ∀ i, (nmeaTokenizerGet tz i).bytes = (nmeaTokenizerGet tz' i).bytes) (numSvs : Int)
    (n i : Nat) (curr : Int) (sv : GpsSvStatus) :
    gsvLoop tz numSvs n i curr sv = gsvLoop tz' numSvs n i curr sv := by
  have hsnr : ∀ i, gsvSnr tz i = gsvSnr tz' i := fun i => by rw [gsvSnr, gsvSnr, h]
  have hinfo : ∀ i, gsvInfo tz i = gsvInfo tz' i := fun i => by
    rw [gsvInfo, gsvInfo, hsnr, h, h, h]
  induction n generalizing i curr sv with
  | zero => rfl
  | succ n ih => simp only [gsvLoop, hsnr, hinfo, ih]

/-- The GSV branch sees the texts of the fields only. -/
theorem parseGsv_congr {tz tz' : NmeaTokenizer}
    (h : ∀ i, (nmeaTokenizerGet tz i).bytes = (nmeaTokenizerGet tz' i).bytes) (r : NmeaReader) :
    parseGsv r tz = parseGsv r tz' := by
  have hnum : gsvNumSvs tz = gsvNumSvs tz' := by rw [gsvNumSvs, gsvNumSvs, h]
  have hno : gsvSentenceNo tz = gsvSentenceNo tz' := by rw [gsvSentenceNo, gsvSentenceNo, h]
  have htotal : gsvTotalSentences tz = gsvTotalSentences tz' := by
    rw [gsvTotalSentences, gsvTotalSentences, h]
  have hcurr : gsvCurr tz = gsvCurr tz' := by rw [gsvCurr, gsvCurr, hno]
  have hbegin : gsvBegin r tz = gsvBegin r tz' := by rw [gsvBegin, gsvBegin, hno]
  rw [parseGsv, parseGsv, hnum, hno, htotal, hcurr, hbegin]
  simp only [gsvLoop_congr h]

/-- Only a GSV sentence stores satellites. -/
theorem parse_svWrites_eq_nil {env : NmeaEnv} {r : NmeaReader}
    (h : bufferKind r.inBuf r.pos ≠ .gsv) : (nmeaReaderParse env r).svWrites = [] := by
  rw [nmeaReaderParse_eq]
  cases hs : bufferKind r.inBuf r.pos with
  | gsv => exact absurd hs h
  | gga =>
      simp only [parseGga]
      split <;> rfl
  | rmc =>
      simp only [parseRmc]
      split <;> rfl
  | gsa => rfl
  | unknown => rfl

theorem gpsStep_gsv {s : List Byte} (hk : textKind s = .gsv) (r : NmeaReader) (env : NmeaEnv) :
    (gpsStep r (.sentence env s)).2.svWrites = (parseGsv (r.load s) (textTokens s)).svWrites
      ∧ gpsNext r (.sentence env s)
        = { (parseGsv (r.load s) (textTokens s)).reader with pos := 0 } := by
  have hkind : bufferKind (r.load s).inBuf (r.load s).pos = .gsv :=
    (bufferKind_eq_textKind (r.load_slice s)).trans hk
  have hparse : nmeaReaderParse env (r.load s) = parseGsv (r.load s) (textTokens s) := by
    rw [nmeaReaderParse_eq, hkind]
    exact parseGsv_congr (fun i => (textTokens_same (r.load_slice s) i).bytes) _
  rw [gpsNext, gpsStep, hparse]
  exact ⟨rfl, rfl⟩

/-- No other sentence touches the entries or the count. -/
theorem gpsStep_not_gsv {s : List Byte} (hk : textKind s ≠ .gsv) (r : NmeaReader) (env : NmeaEnv) :
    (gpsStep r (.sentence env s)).2.svWrites = []
      ∧ (gpsNext r (.sentence env s)).svStatus.numSvs = r.svStatus.numSvs := by
  have hkind : bufferKind (r.load s).inBuf (r.load s).pos = textKind s :=
    bufferKind_eq_textKind (r.load_slice s)
  refine ⟨parse_svWrites_eq_nil (r := r.load s) (by rwa [hkind]), ?_⟩
  rw [gpsNext, gpsStep, nmeaReaderParse_eq, hkind]
  cases hs : textKind s with
  | gsv => exact absurd hs hk
  | gga =>
      obtain ⟨_, _, _, _, h⟩ := parseGga_fixStep env (r.load s)
        (nmeaTokenizerInit (r.load s).inBuf 0 (r.load s).pos)
      simp only [h]
      rfl
  | rmc =>
      obtain ⟨_, _, _, _, h⟩ := parseRmc_fixStep env (r.load s)
        (nmeaTokenizerInit (r.load s).inBuf 0 (r.load s).pos)
      simp only [h]
      rfl
  | gsa => rfl
  | unknown => rfl

/-! ## Staying in the table -/

/-- The entries assigned lie in the table. -/
def InTable (writes : List Int) : Prop := ∀ i ∈ writes, 0 ≤ i ∧ i < gpsMaxSvs

omit [CFloat] in
/-- Entries in the table are those that change no other member of the reader, and
nothing around it. -/
theorem inTable_iff_hitBy (writes : List Int) :
    InTable writes ↔ ∀ i ∈ writes, ∀ w, ReaderMember.svList.HitBy i w := by
  simp only [InTable, svList_hitBy_iff]
  exact forall₂_congr fun i _ => ⟨fun h _ => h, fun h => h .prn⟩

/-- The four entries from `curr` are in the table when the first one is. -/
theorem gsvWrites_in_table {tz : NmeaTokenizer} {numSvs : Int} {sv : GpsSvStatus} :
    (∀ w ∈ (gsvLoop tz numSvs 4 0 (gsvCurr tz) sv).2, 0 ≤ w ∧ w < gpsMaxSvs) ↔
      (sv.numSvs < numSvs → 0 < gsvTracked tz 0 4 → (gsvSentenceNo tz - 1) % 2 ^ 30 < 8) := by
  rw [← gsvCurr_bounds]
  have hmod := gsvCurr_mod tz
  have hwrites := gsvLoop_writes tz numSvs 4 0 (gsvCurr tz) sv
  constructor
  · intro h hroom htracked
    obtain ⟨w, hw⟩ := List.exists_mem_of_ne_nil _ fun hnil =>
      absurd ((gsvLoop_writes_eq_nil tz numSvs 4 0 (gsvCurr tz) sv).mp hnil hroom) (by omega)
    have := h w hw
    have := hwrites w hw
    rw [gpsMaxSvs] at *
    omega
  · intro h w hw
    have hne : ¬(sv.numSvs < numSvs → gsvTracked tz 0 4 = 0) := fun hz => by
      rw [(gsvLoop_writes_eq_nil tz numSvs 4 0 (gsvCurr tz) sv).mpr hz] at hw
      cases hw
    obtain ⟨hroom, htracked⟩ := Classical.not_imp.mp hne
    have := h hroom (by omega)
    have := hwrites w hw
    rw [gpsMaxSvs]
    omega

/-- The count a GSV sentence starts from: the first one of a group starts afresh. -/
def gsvCountBefore (r : NmeaReader) (s : List Byte) : Int :=
  if gsvSentenceNo (textTokens s) = 1 then 0 else r.svStatus.numSvs

theorem gsvBegin_numSvs (r : NmeaReader) (s : List Byte) :
    (gsvBegin r (textTokens s)).svStatus.numSvs = gsvCountBefore r s := by
  unfold gsvBegin gsvCountBefore
  split <;> rfl

/-- With `numSvs` satellites counted so far: a GSV sentence that has something to store
has a number from 1 to 8, up to the wrap of the index computation. -/
def TextInTable (numSvs : Int) (s : List Byte) : Prop :=
  textKind s = .gsv → 0 < gsvNumSvs (textTokens s) →
    (if gsvSentenceNo (textTokens s) = 1 then 0 else numSvs) < gsvNumSvs (textTokens s) →
      0 < gsvTracked (textTokens s) 0 4 → (gsvSentenceNo (textTokens s) - 1) % 2 ^ 30 < 8

/-- **The stores of a parse** stay in the table exactly when the text in the buffer
says so. -/
theorem parse_stores_iff (env : NmeaEnv) (r : NmeaReader) :
    InTable (nmeaReaderParse env r).svWrites
      ↔ TextInTable r.svStatus.numSvs (r.inBuf.slice 0 r.pos) := by
  have hslice : r.inBuf.slice 0 (r.inBuf.slice 0 r.pos).length = r.inBuf.slice 0 r.pos := by
    rw [Mem.length_slice]
  have hkind := bufferKind_eq_textKind hslice
  have hsame := textTokens_same hslice
  rw [Mem.length_slice] at hkind hsame
  by_cases hgsv : textKind (r.inBuf.slice 0 r.pos) = .gsv
  · have hparse : nmeaReaderParse env r = parseGsv r (textTokens (r.inBuf.slice 0 r.pos)) := by
      rw [nmeaReaderParse_eq, hkind, hgsv]
      exact parseGsv_congr (fun i => (hsame i).bytes) r
    rw [hparse, parseGsv, TextInTable]
    simp only [hgsv, forall_const]
    by_cases hcount : gsvNumSvs (textTokens (r.inBuf.slice 0 r.pos)) > 0
    · rw [if_pos hcount, forall_prop_of_true hcount]
      simp only [InTable, gsvWrites_in_table, gsvBegin_numSvs, gsvCountBefore]
    · simp only [if_neg hcount]
      exact iff_of_true (List.forall_mem_nil _) fun h => absurd h hcount
  · rw [parse_svWrites_eq_nil (by rwa [hkind])]
    exact iff_of_true (List.forall_mem_nil _) fun h => absurd h hgsv

/-- Every store of the event stays in the table. -/
def StoresInTable (r : NmeaReader) (e : GpsEvent) : Prop := InTable (gpsStep r e).2.svWrites

def GsvInTable (r : NmeaReader) : GpsEvent → Prop
  | .sentence _ s => TextInTable r.svStatus.numSvs s
  | _ => True

theorem gpsTimerTick_numSvs (r : NmeaReader) :
    (gpsTimerTick r).2.svWrites = [] ∧ (gpsTimerTick r).1.svStatus.numSvs = r.svStatus.numSvs := by
  unfold gpsTimerTick
  simp only
  split <;> exact ⟨rfl, congrArg GpsSvStatus.numSvs (gpsTimerLocation_keeps r).1⟩

theorem storesInTable_iff (r : NmeaReader) (e : GpsEvent) :
    StoresInTable r e ↔ GsvInTable r e := by
  cases e with
  | tick =>
      rw [StoresInTable, gpsStep, (gpsTimerTick_numSvs r).1]
      exact iff_of_true (List.forall_mem_nil _) trivial
  | sessionStart => exact iff_of_true (List.forall_mem_nil _) trivial
  | sentence env s =>
      have hparse := parse_stores_iff env (r.load s)
      rwa [show (r.load s).inBuf.slice 0 (r.load s).pos = s from r.load_slice s] at hparse

theorem run_stores_iff (r : NmeaReader) (es : List GpsEvent) :
    AllSteps gpsNext StoresInTable r es ↔ AllSteps gpsNext GsvInTable r es :=
  allSteps_iff (I := fun _ => True) (fun r e _ => storesInTable_iff r e)
    (fun _ _ _ _ => trivial) trivial

/-! ## Staying in bounds -/

/-- Every entry written lies in the table, and the count afterwards is a number of entries. -/
def SvSafe (r : NmeaReader) (e : GpsEvent) : Prop :=
  (∀ i ∈ (gpsStep r e).2.svWrites, 0 ≤ i ∧ i < gpsMaxSvs)
    ∧ 0 ≤ (gpsNext r e).svStatus.numSvs ∧ (gpsNext r e).svStatus.numSvs ≤ gpsMaxSvs

/-- A GSV sentence that has something to store has a number from 1 to 8, up to
the wrap of the index computation, and does not count past the table. -/
def GsvInRange (r : NmeaReader) : GpsEvent → Prop
  | .sentence _ s =>
      textKind s = .gsv → gsvCountBefore r s < gsvNumSvs (textTokens s) →
        0 < gsvTracked (textTokens s) 0 4 →
          (gsvSentenceNo (textTokens s) - 1) % 2 ^ 30 < 8
            ∧ min (gsvCountBefore r s + gsvTracked (textTokens s) 0 4) (gsvNumSvs (textTokens s))
              ≤ gpsMaxSvs
  | _ => True

/-- One event from a count in range. -/
theorem svSafe_iff_gsvInRange {r : NmeaReader} (e : GpsEvent)
    (hr : 0 ≤ r.svStatus.numSvs ∧ r.svStatus.numSvs ≤ gpsMaxSvs) :
    SvSafe r e ↔ GsvInRange r e := by
  cases e with
  | tick =>
      obtain ⟨hwrites, hnum⟩ := gpsTimerTick_numSvs r
      rw [SvSafe, gpsNext, gpsStep, hwrites, hnum]
      exact iff_of_true ⟨List.forall_mem_nil _, hr⟩ trivial
  | sessionStart =>
      refine iff_of_true ⟨List.forall_mem_nil _, le_refl _, ?_⟩ trivial
      exact show (0 : Int) ≤ gpsMaxSvs by decide
  | sentence env s =>
      by_cases hk : textKind s = .gsv
      · obtain ⟨hwrites, hnext⟩ := gpsStep_gsv hk r env
        have hbefore : 0 ≤ gsvCountBefore r s ∧ gsvCountBefore r s ≤ gpsMaxSvs := by
          unfold gsvCountBefore
          split
          · exact ⟨by decide, by decide⟩
          · exact hr
        have hbegin : (gsvBegin (r.load s) (textTokens s)).svStatus.numSvs = gsvCountBefore r s :=
          gsvBegin_numSvs (r.load s) s
        rw [SvSafe, hwrites, hnext, GsvInRange, parseGsv]
        by_cases hN : gsvNumSvs (textTokens s) > 0
        · simp only [if_pos hN, gsvWrites_in_table, gsvLoop_numSvs, hbegin, hk,
            forall_const]
          by_cases hroom : gsvCountBefore r s < gsvNumSvs (textTokens s)
          · simp only [hroom, if_true, forall_const]
            by_cases htracked : 0 < gsvTracked (textTokens s) 0 4
            · simp only [htracked, forall_const]
              rw [and_congr_right_iff]
              intro _
              omega
            · simp only [htracked, false_implies, true_and, iff_true]
              omega
          · simp only [hroom, if_false, false_implies, true_and, iff_true]
            exact hbefore
        · simp only [if_neg hN]
          refine iff_of_true ⟨List.forall_mem_nil _, hr⟩ fun _ hroom => ?_
          omega
      · obtain ⟨hwrites, hnum⟩ := gpsStep_not_gsv hk r env
        rw [SvSafe, hwrites, hnum]
        exact iff_of_true ⟨List.forall_mem_nil _, hr⟩ fun h => absurd h hk

/-- **Bounds of the satellite table.** Over any history of the reader, every
entry written lies in the table and the count stays between 0 and 32 if and
only if every GSV sentence that stores something has a number from 1 to 8 and
does not take the count past 32. -/
theorem satellite_table_safe_iff (utcDiff : Int) (es : List GpsEvent) :
    AllSteps gpsNext SvSafe (nmeaReaderInit utcDiff) es ↔
      AllSteps gpsNext GsvInRange (nmeaReaderInit utcDiff) es :=
  allSteps_iff (I := fun r => 0 ≤ r.svStatus.numSvs ∧ r.svStatus.numSvs ≤ gpsMaxSvs)
    (fun _ e hr => svSafe_iff_gsvInRange e hr) (fun _ _ _ h => h.2)
    ⟨le_refl _, show (0 : Int) ≤ gpsMaxSvs by decide⟩

end

/-- `$GPGSV,3,9,12,01,40,083,46` and a newline: the ninth sentence of a group of three. -/
def strayGsv : List Byte := "$GPGSV,3,9,12,01,40,083,46\n".toList.map ch

/-- Sentence number 9 is stored behind the table. -/
theorem gsv_sentence_nine_overruns :
    @GpsOut.svWrites decimalFloat (@gpsStep decimalFloat (@nmeaReaderInit decimalFloat 0)
        (.sentence quietEnv strayGsv)).2 = [32]
      ∧ ¬@AllSteps _ _ (@gpsNext decimalFloat) (@SvSafe decimalFloat)
        (@nmeaReaderInit decimalFloat 0) [.sentence quietEnv strayGsv] := by
  have hwrites : @GpsOut.svWrites decimalFloat (@gpsStep decimalFloat
      (@nmeaReaderInit decimalFloat 0) (.sentence quietEnv strayGsv)).2 = [32] := by
    decide +kernel
  refine ⟨hwrites, fun h => ?_⟩
  have hsafe := h.1.1 32 (by rw [hwrites]; exact List.mem_singleton.mpr rfl)
  exact absurd hsafe.2 (by decide)

end HtcLeo
