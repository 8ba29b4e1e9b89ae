import HtcLeo.GsvTable

/-!
# Time and position of a published fix

A GGA or RMC sentence updates the shared fix field by field and ignores
the status of each update, so a sentence can set the position and leave
the time of an earlier one, or the other way round; the next round of
`gps_timer_thread` publishes the mixture.

Which of the two a sentence sets is a function of its text (`setsTime`,
`setsPosition`). `FixTrace` runs the reader beside a record of the
sentence each of the two was last taken from, and `fix_consistency_iff`
says exactly which histories publish consistent fixes only. A satellite
stored before the table lands in the fix, so the histories are those whose
stores stay in the table.
-/

namespace HtcLeo

/-! ## What a sentence sets -/

/-- The date `nmea_reader_update_date` accepts: six characters, day and month
numbers; the year cannot be negative after 2000 is added. -/
def dateAccepted (date : List Byte) : Bool :=
  date.length = 6
    && !anyNegative (str2int (date.take 2)) (str2int ((date.drop 2).take 2))
      (str2int ((date.drop 4).take 2) + 2000)

/-- The sentence reports a fix at all: quality above `'0'`, status `'A'`. -/
def reportsFix (s : List Byte) : Bool :=
  match textKind s with
  | .gga => (textFirst s 6).toNat > (ch '0').toNat
  | .rmc => textFirst s 2 = ch 'A'
  | _ => false

/-- The sentence assigns the timestamp of the fix. -/
def setsTime (s : List Byte) : Bool :=
  reportsFix s
    && match textKind s with
      | .gga => 6 ≤ (textField s 1).length
      | .rmc => dateAccepted (textField s 9) && 6 ≤ (textField s 1).length
      | _ => false

/-- The sentence assigns latitude and longitude. -/
def setsPosition (s : List Byte) : Bool :=
  reportsFix s
    && match textKind s with
      | .gga => 6 ≤ (textField s 2).length && 6 ≤ (textField s 4).length
      | .rmc => 6 ≤ (textField s 3).length && 6 ≤ (textField s 5).length
      | _ => false

/-- Setting the flags of a mask adds a position exactly when the mask has its flag. -/
theorem hasLatLong_or (f m : BitVec 16) :
    (f ||| m) &&& gpsLocationHasLatLong ≠ 0 ↔
      f &&& gpsLocationHasLatLong ≠ 0 ∨ m &&& gpsLocationHasLatLong ≠ 0 := by
  rw [BitVec.and_or_distrib_right, ← not_and_or, ne_eq, not_iff_not]
  exact BitVec.or_eq_zero_iff

theorem not_hasLatLong_zero : ¬(0 : BitVec 16) &&& gpsLocationHasLatLong ≠ 0 := by decide

@[simp] theorem mem_assignedIf (status : Int) (field f : FixField) :
    f ∈ assignedIf status field ↔ status = 0 ∧ f = field := by
  unfold assignedIf
  split <;> simp [*]

section

variable [CFloat]

/-! ## Effects of the updates -/

/-- A position is waiting to be published. -/
def NmeaReader.HasLatLong (r : NmeaReader) : Prop := r.fix.flags &&& gpsLocationHasLatLong ≠ 0

instance (r : NmeaReader) : Decidable r.HasLatLong := inferInstanceAs (Decidable (_ ≠ _))

/-- What a part of a parse did to the fix: whether it set the timestamp, and
whether it set the position. -/
structure FixEffect (r r' : NmeaReader) (time pos : Bool) : Prop where
  timestamp : time = false → r'.fix.timestamp = r.fix.timestamp
  latLong : pos = false → r'.fix.latitude = r.fix.latitude ∧ r'.fix.longitude = r.fix.longitude
  pending : r'.HasLatLong ↔ r.HasLatLong ∨ pos = true

theorem FixEffect.refl (r : NmeaReader) : FixEffect r r false false :=
  ⟨fun _ => rfl, fun _ => ⟨rfl, rfl⟩, by simp⟩

theorem FixEffect.trans {r r' r'' : NmeaReader} {t p t' p' : Bool} (h : FixEffect r r' t p)
    (h' : FixEffect r' r'' t' p') : FixEffect r r'' (t || t') (p || p') where
  timestamp ht := by
    rw [Bool.or_eq_false_iff] at ht
    rw [h'.timestamp ht.2, h.timestamp ht.1]
  latLong hp := by
    rw [Bool.or_eq_false_iff] at hp
    rw [(h'.latLong hp.2).1, (h'.latLong hp.2).2]
    exact h.latLong hp.1
  pending := by rw [h'.pending, h.pending, Bool.or_eq_true, or_assoc]

/-- An update of another field: the timestamp and the position stay, and the
flag it sets is not that of the position. -/
theorem FixEffect.other {r r' : NmeaReader} {m : BitVec 16}
    (hm : m &&& gpsLocationHasLatLong = 0) (hflags : r'.fix.flags = r.fix.flags ||| m)
    (htime : r'.fix.timestamp = r.fix.timestamp)
    (hpos : r'.fix.latitude = r.fix.latitude ∧ r'.fix.longitude = r.fix.longitude) :
    FixEffect r r' false false := by
  refine ⟨fun _ => htime, fun _ => hpos, ?_⟩
  rw [NmeaReader.HasLatLong, hflags, hasLatLong_or, hm]
  simp [NmeaReader.HasLatLong]

theorem withDate_fix (env : NmeaEnv) (r : NmeaReader) : (withDate env r).fix = r.fix := by
  unfold withDate
  split <;> rfl

theorem nmeaReaderUpdateTime_effect (env : NmeaEnv) (r : NmeaReader) (tok : Token) :
    ((nmeaReaderUpdateTime env r tok).1 = 0 ↔ 6 ≤ tok.bytes.length)
      ∧ FixEffect r (nmeaReaderUpdateTime env r tok).2 (6 ≤ tok.bytes.length) false := by
  rw [Token.length_bytes]
  unfold nmeaReaderUpdateTime
  by_cases hshort : tok.p + 6 > tok.stop
  · rw [if_pos hshort, show decide (6 ≤ tok.stop - tok.p) = false by simp; omega]
    exact ⟨by simp; omega, .refl r⟩
  · rw [if_neg hshort, show decide (6 ≤ tok.stop - tok.p) = true by simp; omega]
    refine ⟨by simp; omega, fun h => (by cases h), fun _ => ?_, ?_⟩
    · simp [withDate_fix]
    · simp [NmeaReader.HasLatLong, withDate_fix]

theorem nmeaReaderUpdateDate_effect (env : NmeaEnv) (r : NmeaReader) (date time : Token) :
    ((nmeaReaderUpdateDate env r date time).1 = 0 ↔
        dateAccepted date.bytes = true ∧ 6 ≤ time.bytes.length)
      ∧ FixEffect r (nmeaReaderUpdateDate env r date time).2
        (dateAccepted date.bytes && 6 ≤ time.bytes.length) false := by
  unfold nmeaReaderUpdateDate dateAccepted
  rw [Token.length_bytes]
  by_cases hlen : date.p + 6 = date.stop
  · have h02 := Token.sub_eq (t := date) (a := 0) (b := 2) (by omega) (by omega)
    have h24 := Token.sub_eq (t := date) (a := 2) (b := 4) (by omega) (by omega)
    have h46 := Token.sub_eq (t := date) (a := 4) (b := 6) (by omega) (by omega)
    rw [List.drop_zero] at h02
    rw [if_neg (by simpa using hlen), h02, h24, h46, show decide (date.stop - date.p = 6) = true by
      simp; omega]
    simp only [Bool.true_and]
    cases anyNegative (str2int (date.bytes.take 2)) (str2int ((date.bytes.drop 2).take 2))
        (str2int ((date.bytes.drop 4).take 2) + 2000) with
    | true => exact ⟨by simp, .refl r⟩
    | false =>
        obtain ⟨hstatus, heffect⟩ := nmeaReaderUpdateTime_effect env { r with
          utcYear := str2int ((date.bytes.drop 4).take 2) + 2000
          utcMon := str2int ((date.bytes.drop 2).take 2)
          utcDay := str2int (date.bytes.take 2) } time
        exact ⟨by simpa using hstatus, ⟨heffect.timestamp, heffect.latLong, heffect.pending⟩⟩
  · rw [if_pos (by simpa using hlen), show decide (date.stop - date.p = 6) = false by simp; omega]
    exact ⟨by simp, .refl r⟩

theorem nmeaReaderUpdateLatlong_effect (r : NmeaReader) (lat : Token) (latHemi : Byte)
    (lon : Token) (lonHemi : Byte) :
    ((nmeaReaderUpdateLatlong r lat latHemi lon lonHemi).1 = 0 ↔
        6 ≤ lat.bytes.length ∧ 6 ≤ lon.bytes.length)
      ∧ FixEffect r (nmeaReaderUpdateLatlong r lat latHemi lon lonHemi).2 false
        (6 ≤ lat.bytes.length && 6 ≤ lon.bytes.length) := by
  unfold nmeaReaderUpdateLatlong
  rw [lat.length_bytes, lon.length_bytes]
  by_cases hlat : lat.p + 6 > lat.stop
  · rw [if_pos hlat, show decide (6 ≤ lat.stop - lat.p) = false by simp; omega]
    exact ⟨by simp; omega, .refl r⟩
  rw [if_neg hlat, show decide (6 ≤ lat.stop - lat.p) = true by simp; omega]
  by_cases hlon : lon.p + 6 > lon.stop
  · simp only [if_pos hlon, show decide (6 ≤ lon.stop - lon.p) = false by simp; omega]
    exact ⟨by simp; omega, .refl r⟩
  simp only [if_neg hlon, show decide (6 ≤ lon.stop - lon.p) = true by simp; omega]
  refine ⟨by simp; omega, fun _ => rfl, fun h => (by cases h), ?_⟩
  rw [NmeaReader.HasLatLong, hasLatLong_or]
  exact iff_of_true (Or.inr (by decide)) (Or.inr rfl)

theorem nmeaReaderUpdateAltitude_effect (r : NmeaReader) (alt geoid : Token) :
    FixEffect r (nmeaReaderUpdateAltitude r alt geoid).2 false false := by
  unfold nmeaReaderUpdateAltitude
  split
  · exact .refl r
  · split
    · exact .refl r
    · exact .other (m := gpsLocationHasAltitude) (by decide) rfl rfl ⟨rfl, rfl⟩

theorem nmeaReaderUpdateAccuracy_effect (env : NmeaEnv) (r : NmeaReader) (tok : Token) :
    FixEffect r (nmeaReaderUpdateAccuracy env r tok).2 false false := by
  unfold nmeaReaderUpdateAccuracy
  split
  · exact .refl r
  · exact .other (m := gpsLocationHasAccuracy) (by decide) rfl rfl ⟨rfl, rfl⟩

theorem nmeaReaderUpdateBearing_effect (r : NmeaReader) (tok : Token) :
    FixEffect r (nmeaReaderUpdateBearing r tok).2 false false := by
  unfold nmeaReaderUpdateBearing
  split
  · exact .refl r
  · exact .other (m := gpsLocationHasBearing) (by decide) rfl rfl ⟨rfl, rfl⟩

theorem nmeaReaderUpdateSpeed_effect (r : NmeaReader) (tok : Token) :
    FixEffect r (nmeaReaderUpdateSpeed r tok).2 false false := by
  unfold nmeaReaderUpdateSpeed
  split
  · exact .refl r
  · exact .other (m := gpsLocationHasSpeed) (by decide) rfl rfl ⟨rfl, rfl⟩

/-! ## Effects of a sentence -/

/-- What a parse did to the fix, with the fields it records as assigned. -/
structure SentenceEffect (r : NmeaReader) (out : ParseOut) (time pos : Bool) : Prop where
  timeAssigned : FixField.timestamp ∈ out.assigned ↔ time = true
  posAssigned : FixField.latLong ∈ out.assigned ↔ pos = true
  effect : FixEffect r out.reader time pos

theorem SentenceEffect.none {r : NmeaReader} {out : ParseOut} (hassigned : out.assigned = [])
    (hfix : out.reader.fix = r.fix) : SentenceEffect r out false false := by
  refine ⟨by simp [hassigned], by simp [hassigned], ?_⟩
  refine ⟨fun _ => by rw [hfix], fun _ => by rw [hfix]; exact ⟨rfl, rfl⟩, ?_⟩
  rw [NmeaReader.HasLatLong, NmeaReader.HasLatLong, hfix]
  simp

theorem parseGga_effect (env : NmeaEnv) (r : NmeaReader) (tz : NmeaTokenizer) :
    SentenceEffect r (parseGga env r tz)
      (decide ((nmeaTokenizerGet tz 6).first.toNat > (ch '0').toNat)
        && 6 ≤ (nmeaTokenizerGet tz 1).bytes.length)
      (decide ((nmeaTokenizerGet tz 6).first.toNat > (ch '0').toNat)
        && (6 ≤ (nmeaTokenizerGet tz 2).bytes.length
          && 6 ≤ (nmeaTokenizerGet tz 4).bytes.length)) := by
  by_cases hfix : (nmeaTokenizerGet tz 6).first.toNat > (ch '0').toNat
  · have htime := nmeaReaderUpdateTime_effect env r (nmeaTokenizerGet tz 1)
    have hpos := nmeaReaderUpdateLatlong_effect
      (nmeaReaderUpdateTime env r (nmeaTokenizerGet tz 1)).2 (nmeaTokenizerGet tz 2)
      (nmeaTokenizerGet tz 3).first (nmeaTokenizerGet tz 4) (nmeaTokenizerGet tz 5).first
    have hrest := (htime.2.trans hpos.2).trans
      ((nmeaReaderUpdateAccuracy_effect env _ (nmeaTokenizerGet tz 8)).trans
        (nmeaReaderUpdateAltitude_effect _ (nmeaTokenizerGet tz 9) (nmeaTokenizerGet tz 11)))
    rw [parseGga, if_pos hfix, decide_eq_true hfix]
    refine ⟨?_, ?_, by simpa using hrest⟩
    · simp [htime.1]
    · simp [hpos.1]
  · rw [parseGga, if_neg hfix, decide_eq_false hfix]
    exact .none rfl rfl

theorem parseRmc_effect (env : NmeaEnv) (r : NmeaReader) (tz : NmeaTokenizer) :
    SentenceEffect r (parseRmc env r tz)
      (decide ((nmeaTokenizerGet tz 2).first = ch 'A')
        && (dateAccepted (nmeaTokenizerGet tz 9).bytes
          && 6 ≤ (nmeaTokenizerGet tz 1).bytes.length))
      (decide ((nmeaTokenizerGet tz 2).first = ch 'A')
        && (6 ≤ (nmeaTokenizerGet tz 3).bytes.length
          && 6 ≤ (nmeaTokenizerGet tz 5).bytes.length)) := by
  by_cases hfix : (nmeaTokenizerGet tz 2).first = ch 'A'
  · have htime := nmeaReaderUpdateDate_effect env r (nmeaTokenizerGet tz 9) (nmeaTokenizerGet tz 1)
    have hpos := nmeaReaderUpdateLatlong_effect
      (nmeaReaderUpdateDate env r (nmeaTokenizerGet tz 9) (nmeaTokenizerGet tz 1)).2
      (nmeaTokenizerGet tz 3) (nmeaTokenizerGet tz 4).first (nmeaTokenizerGet tz 5)
      (nmeaTokenizerGet tz 6).first
    have hrest := (htime.2.trans hpos.2).trans
      ((nmeaReaderUpdateBearing_effect _ (nmeaTokenizerGet tz 8)).trans
        (nmeaReaderUpdateSpeed_effect _ (nmeaTokenizerGet tz 7)))
    rw [parseRmc, if_pos hfix, decide_eq_true hfix]
    refine ⟨?_, ?_, by simpa using hrest⟩
    · simp [htime.1]
    · simp [hpos.1]
  · rw [parseRmc, if_neg hfix, decide_eq_false hfix]
    exact .none rfl rfl

/-- The effect of a sentence is that of its text. -/
theorem nmeaReaderParse_effect (env : NmeaEnv) (r : NmeaReader) (s : List Byte) :
    SentenceEffect (r.load s) (nmeaReaderParse env (r.load s)) (setsTime s) (setsPosition s) := by
  have hkind : bufferKind (r.load s).inBuf (r.load s).pos = textKind s :=
    bufferKind_eq_textKind (r.load_slice s)
  have hfield : ∀ i, (nmeaTokenizerGet
      (nmeaTokenizerInit (r.load s).inBuf 0 (r.load s).pos) i).bytes = textField s i :=
    fun i => (textTokens_same (r.load_slice s) i).bytes
  have hfirst : ∀ i, (nmeaTokenizerGet
      (nmeaTokenizerInit (r.load s).inBuf 0 (r.load s).pos) i).first = textFirst s i :=
    fun i => (textTokens_same (r.load_slice s) i).first
  rw [nmeaReaderParse_eq, hkind, setsTime, setsPosition, reportsFix]
  cases textKind s with
  | gga =>
      have h := parseGga_effect env (r.load s)
        (nmeaTokenizerInit (r.load s).inBuf 0 (r.load s).pos)
      simpa only [hfield, hfirst] using h
  | rmc =>
      have h := parseRmc_effect env (r.load s)
        (nmeaTokenizerInit (r.load s).inBuf 0 (r.load s).pos)
      simpa only [hfield, hfirst] using h
  | gsv =>
      obtain ⟨_, _, h⟩ := parseGsv_svStep (r.load s)
        (nmeaTokenizerInit (r.load s).inBuf 0 (r.load s).pos)
      refine .none ?_ (by simp only [h])
      simp only [parseGsv]
      split <;> rfl
  | gsa => exact .none rfl rfl
  | unknown => exact .none rfl rfl

/-! ## Where time and position come from -/

/-- The reader, the number of sentences so far, and the sentences the timestamp
and the position were taken from; `none` is the initialisation. -/
structure FixTrace where
  reader : NmeaReader
  sentences : Nat
  timeFrom : Option Nat
  posFrom : Option Nat

def FixTrace.init (utcDiff : Int) : FixTrace := ⟨nmeaReaderInit utcDiff, 0, none, none⟩

def FixTrace.next (t : FixTrace) (e : GpsEvent) : FixTrace where
  reader := gpsNext t.reader e
  sentences :=
    match e with
    | .sentence .. => t.sentences + 1
    | _ => t.sentences
  timeFrom := if .timestamp ∈ (gpsStep t.reader e).2.assigned then some t.sentences else t.timeFrom
  posFrom := if .latLong ∈ (gpsStep t.reader e).2.assigned then some t.sentences else t.posFrom

/-- Time and position were taken from one sentence. -/
def FixTrace.Consistent (t : FixTrace) : Prop := ∃ k, t.timeFrom = some k ∧ t.posFrom = some k

/-- A location published by the event is consistent. -/
def PublishesConsistent (t : FixTrace) (e : GpsEvent) : Prop :=
  (gpsStep t.reader e).2.location.isSome = true → t.Consistent

end

/-- A position was set since the last round or session start. -/
def positionPending (es : List GpsEvent) : Bool :=
  es.foldl (fun pending e =>
    match e with
    | .sentence _ s => pending || setsPosition s
    | .tick => false
    | .sessionStart => false) false

/-- The last sentence that set the time or the position set both. -/
def lastFixComplete (es : List GpsEvent) : Bool :=
  es.foldl (fun complete e =>
    match e with
    | .sentence _ s =>
        if setsTime s || setsPosition s then setsTime s && setsPosition s else complete
    | .tick => complete
    | .sessionStart => complete) false

theorem positionPending_snoc (es : List GpsEvent) (e : GpsEvent) :
    positionPending (es ++ [e]) =
      match e with
      | .sentence _ s => positionPending es || setsPosition s
      | .tick => false
      | .sessionStart => false := by
  rw [positionPending, List.foldl_append]
  rfl

theorem lastFixComplete_snoc (es : List GpsEvent) (e : GpsEvent) :
    lastFixComplete (es ++ [e]) =
      match e with
      | .sentence _ s =>
          if setsTime s || setsPosition s then setsTime s && setsPosition s else lastFixComplete es
      | .tick => lastFixComplete es
      | .sessionStart => lastFixComplete es := by
  rw [lastFixComplete, List.foldl_append]
  rfl

section

variable [CFloat]

/-- The trace after the events `es`. -/
structure TraceOf (t : FixTrace) (es : List GpsEvent) : Prop where
  pending : t.reader.HasLatLong ↔ positionPending es = true
  consistent : t.Consistent ↔ lastFixComplete es = true
  timeFrom : ∀ k, t.timeFrom = some k → k < t.sentences
  posFrom : ∀ k, t.posFrom = some k → k < t.sentences

theorem traceOf_init (utcDiff : Int) : TraceOf (FixTrace.init utcDiff) [] where
  pending := iff_of_false not_hasLatLong_zero (by decide)
  consistent := iff_of_false (by rintro ⟨k, hk, -⟩; cases hk) (by decide)
  timeFrom k hk := by cases hk
  posFrom k hk := by cases hk

theorem traceOf_sentence {t : FixTrace} {es : List GpsEvent} (h : TraceOf t es) (env : NmeaEnv)
    (s : List Byte) : TraceOf (t.next (.sentence env s)) (es ++ [.sentence env s]) := by
  have heffect := nmeaReaderParse_effect env t.reader s
  have htime : (t.next (.sentence env s)).timeFrom
      = if setsTime s then some t.sentences else t.timeFrom :=
    if_congr heffect.timeAssigned rfl rfl
  have hpos : (t.next (.sentence env s)).posFrom
      = if setsPosition s then some t.sentences else t.posFrom :=
    if_congr heffect.posAssigned rfl rfl
  refine ⟨?_, ?_, ?_, ?_⟩
  · rw [positionPending_snoc, Bool.or_eq_true]
    exact heffect.effect.pending.trans (or_congr_left h.pending)
  · rw [lastFixComplete_snoc, FixTrace.Consistent, htime, hpos]
    simp only
    -- a sentence that sets one of the two only leaves an older number in the other
    cases setsTime s with
    | true =>
        cases setsPosition s with
        | true => simp
        | false =>
            refine iff_of_false ?_ (by simp)
            rintro ⟨k, hk, hk'⟩
            obtain rfl := Option.some.inj hk
            exact absurd (h.posFrom _ hk') (Nat.lt_irrefl _)
    | false =>
        cases setsPosition s with
        | true =>
            refine iff_of_false ?_ (by simp)
            rintro ⟨k, hk, hk'⟩
            obtain rfl := Option.some.inj hk'
            exact absurd (h.timeFrom _ hk) (Nat.lt_irrefl _)
        | false => exact h.consistent
  · intro k hk
    rw [htime] at hk
    split at hk
    · obtain rfl := Option.some.inj hk
      exact Nat.lt_succ_self _
    · exact Nat.lt_succ_of_lt (h.timeFrom k hk)
  · intro k hk
    rw [hpos] at hk
    split at hk
    · obtain rfl := Option.some.inj hk
      exact Nat.lt_succ_self _
    · exact Nat.lt_succ_of_lt (h.posFrom k hk)

theorem gpsTimerTick_location (r : NmeaReader) :
    ((gpsTimerTick r).2.location.isSome = true ↔ r.HasLatLong)
      ∧ ¬(gpsTimerTick r).1.HasLatLong ∧ (gpsTimerTick r).2.assigned = [] := by
  unfold gpsTimerTick gpsTimerLocation
  by_cases h : r.fix.flags &&& gpsLocationHasLatLong ≠ 0
  · rw [if_pos h]
    simp only
    split
    · exact ⟨iff_of_true rfl h, not_hasLatLong_zero, rfl⟩
    · exact ⟨iff_of_true rfl h, not_hasLatLong_zero, rfl⟩
  · rw [if_neg h]
    simp only
    split
    · exact ⟨iff_of_false (by simp) h, h, rfl⟩
    · exact ⟨iff_of_false (by simp) h, h, rfl⟩

theorem traceOf_tick {t : FixTrace} {es : List GpsEvent} (h : TraceOf t es) :
    TraceOf (t.next .tick) (es ++ [.tick]) := by
  obtain ⟨-, hflags, hassigned⟩ := gpsTimerTick_location t.reader
  have hnext : t.next .tick = { t with reader := gpsNext t.reader .tick } := by
    simp [FixTrace.next, gpsStep, hassigned]
  rw [hnext]
  exact ⟨iff_of_false hflags (by simp [positionPending_snoc]),
    h.consistent.trans (by simp [lastFixComplete_snoc]), h.timeFrom, h.posFrom⟩

theorem traceOf_sessionStart {t : FixTrace} {es : List GpsEvent} (h : TraceOf t es) :
    TraceOf (t.next .sessionStart) (es ++ [.sessionStart]) where
  pending := iff_of_false not_hasLatLong_zero (by simp [positionPending_snoc])
  consistent := h.consistent.trans (by simp [lastFixComplete_snoc])
  timeFrom := h.timeFrom
  posFrom := h.posFrom

theorem traceOf_run (utcDiff : Int) (es : List GpsEvent) :
    TraceOf (runFrom FixTrace.next (FixTrace.init utcDiff) es) es := by
  induction es using List.reverseRecOn with
  | nil => exact traceOf_init utcDiff
  | append_singleton es e ih =>
      rw [runFrom_append]
      cases e with
      | sentence env s => exact traceOf_sentence ih env s
      | tick => exact traceOf_tick ih
      | sessionStart => exact traceOf_sessionStart ih

/-- Every published location is consistent exactly when, at every round that finds a
position, the last sentence that set the time or the position set both. -/
theorem publishes_consistent_iff (utcDiff : Int) (es : List GpsEvent) :
    AllSteps FixTrace.next PublishesConsistent (FixTrace.init utcDiff) es ↔
      ∀ before after, es = before ++ .tick :: after →
        positionPending before = true → lastFixComplete before = true := by
  rw [allSteps_iff_split]
  constructor
  · intro h before after hes hpending
    have htrace := traceOf_run utcDiff before
    refine htrace.consistent.mp (h before .tick after hes ?_)
    exact (gpsTimerTick_location _).1.mpr (htrace.pending.mpr hpending)
  · intro h before e after hes hlocation
    have htrace := traceOf_run utcDiff before
    cases e with
    | sentence env s => cases hlocation
    | sessionStart => cases hlocation
    | tick =>
        refine htrace.consistent.mpr (h before after hes (htrace.pending.mp ?_))
        exact (gpsTimerTick_location _).1.mp hlocation

/-- **Consistency of published fixes.** No satellite is stored over the fix or
another member of the reader, and every published location has its time and its
position from one sentence, if and only if every GSV sentence that stores something
has a number from 1 to 8 and, at every round that finds a position, the last
sentence that set the time or the position set both. -/
theorem fix_consistency_iff (utcDiff : Int) (es : List GpsEvent) :
    AllSteps gpsNext StoresInTable (nmeaReaderInit utcDiff) es
        ∧ AllSteps FixTrace.next PublishesConsistent (FixTrace.init utcDiff) es
      ↔ AllSteps gpsNext GsvInTable (nmeaReaderInit utcDiff) es
        ∧ ∀ before after, es = before ++ .tick :: after →
          positionPending before = true → lastFixComplete before = true :=
  and_congr (run_stores_iff _ es) (publishes_consistent_iff utcDiff es)

end

/-- A GGA sentence with a position and an empty time field. -/
def untimedGga : List Byte := "$GPGGA,,4717.11,N,00833.91,E,1,08,0.9,499.6,M,48.0,M,,\n".toList.map ch

/-- Its position is published with the timestamp of the initialisation. -/
theorem untimed_position_published :
    (@GpsOut.location decimalFloat (@gpsStep decimalFloat (@gpsNext decimalFloat
        (@nmeaReaderInit decimalFloat 0) (.sentence quietEnv untimedGga)) .tick).2).map
        (@GpsLocation.timestamp decimalFloat) = some 0
      ∧ @AllSteps _ _ (@gpsNext decimalFloat) (@StoresInTable decimalFloat)
        (@nmeaReaderInit decimalFloat 0) [.sentence quietEnv untimedGga, .tick]
      ∧ ¬@AllSteps _ _ (@FixTrace.next decimalFloat) (@PublishesConsistent decimalFloat)
        (@FixTrace.init decimalFloat 0) [.sentence quietEnv untimedGga, .tick] := by
  have hgga : textKind untimedGga ≠ .gsv := by decide +kernel
  refine ⟨by decide +kernel, ?_, ?_⟩
  · rw [@run_stores_iff decimalFloat]
    exact ⟨fun hgsv => absurd hgsv hgga, trivial, trivial⟩
  rintro ⟨-, hpublish, -⟩
  obtain ⟨k, hk, -⟩ := hpublish (by decide +kernel)
  have hnone : @FixTrace.timeFrom decimalFloat (@FixTrace.next decimalFloat
      (@FixTrace.init decimalFloat 0) (.sentence quietEnv untimedGga)) = none := by
    decide +kernel
  rw [hnone] at hk
  cases hk

end HtcLeo
