import HtcLeo.GpsFix

/-!
# Flags of a published location

The update functions raise a flag of the fix for each field they assign.
A published location takes these flags with it, together with those of
the locations published before, which are kept in `fix_flags_cached`.

`parse_flags` says exactly which flags a sentence raises: those of the
fields it assigns. The flags that a round can publish are therefore those
of the fields assigned since the session began (`flags_assigned`), and
`fix_flags_cached` has all that were published.

A satellite of a sentence numbered 0 is stored before the table, its
signal over the flags; the flags are truthful exactly in the sessions
whose stores stay in the table (`location_flags_truthful_iff`).
-/

namespace HtcLeo

/-- The flag of a field; the timestamp has none. -/
def FixField.flag : FixField → BitVec 16
  | timestamp => 0
  | latLong => gpsLocationHasLatLong
  | altitude => gpsLocationHasAltitude
  | accuracy => gpsLocationHasAccuracy
  | bearing => gpsLocationHasBearing
  | speed => gpsLocationHasSpeed

/-- The flags of some fields. -/
def fieldFlags : List FixField → BitVec 16
  | [] => 0
  | field :: fields => field.flag ||| fieldFlags fields

theorem fieldFlags_append (fs gs : List FixField) :
    fieldFlags (fs ++ gs) = fieldFlags fs ||| fieldFlags gs := by
  induction fs with
  | nil => simp [fieldFlags]
  | cons f fs ih => rw [List.cons_append, fieldFlags, fieldFlags, ih, BitVec.or_assoc]

theorem getLsbD_fieldFlags (fs : List FixField) (i : Nat) :
    (fieldFlags fs).getLsbD i = true ↔ ∃ f ∈ fs, f.flag.getLsbD i = true := by
  induction fs with
  | nil => simp [fieldFlags]
  | cons f fs ih => simp [fieldFlags, ih]

section

variable [CFloat]

/-! ## The updates -/

/-- An update raises the flag of its field when it assigns it. -/
def Raises (r : NmeaReader) (field : FixField) (out : Int × NmeaReader) : Prop :=
  out.2.fix.flags = r.fix.flags ||| fieldFlags (assignedIf out.1 field)

theorem Raises.failed (r : NmeaReader) (field : FixField) : Raises r field (-1, r) := by
  simp [Raises, assignedIf, fieldFlags]

theorem Raises.assigned {r r' : NmeaReader} {field : FixField}
    (h : r'.fix.flags = r.fix.flags ||| field.flag) : Raises r field (0, r') := by
  simp [Raises, assignedIf, fieldFlags, h]

theorem nmeaReaderUpdateTime_raises (env : NmeaEnv) (r : NmeaReader) (tok : Token) :
    Raises r .timestamp (nmeaReaderUpdateTime env r tok) := by
  unfold nmeaReaderUpdateTime
  split
  · exact .failed r _
  · refine .assigned ?_
    simp [withDate_fix, FixField.flag]

theorem nmeaReaderUpdateDate_raises (env : NmeaEnv) (r : NmeaReader) (date time : Token) :
    Raises r .timestamp (nmeaReaderUpdateDate env r date time) := by
  unfold nmeaReaderUpdateDate
  split
  · exact .failed r _
  · simp only
    split
    · exact .failed r _
    · exact nmeaReaderUpdateTime_raises env _ time

theorem nmeaReaderUpdateLatlong_raises (r : NmeaReader) (lat : Token) (latHemi : Byte)
    (lon : Token) (lonHemi : Byte) :
    Raises r .latLong (nmeaReaderUpdateLatlong r lat latHemi lon lonHemi) := by
  unfold nmeaReaderUpdateLatlong
  split
  · exact .failed r _
  · simp only
    split
    · exact .failed r _
    · exact .assigned rfl

theorem nmeaReaderUpdateAltitude_raises (r : NmeaReader) (alt geoid : Token) :
    Raises r .altitude (nmeaReaderUpdateAltitude r alt geoid) := by
  unfold nmeaReaderUpdateAltitude
  split
  · exact .failed r _
  · split
    · exact .failed r _
    · exact .assigned rfl

theorem nmeaReaderUpdateAccuracy_raises (env : NmeaEnv) (r : NmeaReader) (tok : Token) :
    Raises r .accuracy (nmeaReaderUpdateAccuracy env r tok) := by
  unfold nmeaReaderUpdateAccuracy
  split
  · exact .failed r _
  · exact .assigned rfl

theorem nmeaReaderUpdateBearing_raises (r : NmeaReader) (tok : Token) :
    Raises r .bearing (nmeaReaderUpdateBearing r tok) := by
  unfold nmeaReaderUpdateBearing
  split
  · exact .failed r _
  · exact .assigned rfl

theorem nmeaReaderUpdateSpeed_raises (r : NmeaReader) (tok : Token) :
    Raises r .speed (nmeaReaderUpdateSpeed r tok) := by
  unfold nmeaReaderUpdateSpeed
  split
  · exact .failed r _
  · exact .assigned rfl

/-! ## Sentences and rounds -/

theorem parseGga_flags (env : NmeaEnv) (r : NmeaReader) (tz : NmeaTokenizer) :
    (parseGga env r tz).reader.fix.flags
      = r.fix.flags ||| fieldFlags (parseGga env r tz).assigned := by
  unfold parseGga
  split
  · simp only [fieldFlags_append]
    rw [nmeaReaderUpdateAltitude_raises, nmeaReaderUpdateAccuracy_raises,
      nmeaReaderUpdateLatlong_raises, nmeaReaderUpdateTime_raises]
    simp only [BitVec.or_assoc]
  · simp [fieldFlags]

theorem parseRmc_flags (env : NmeaEnv) (r : NmeaReader) (tz : NmeaTokenizer) :
    (parseRmc env r tz).reader.fix.flags
      = r.fix.flags ||| fieldFlags (parseRmc env r tz).assigned := by
  unfold parseRmc
  split
  · simp only [fieldFlags_append]
    rw [nmeaReaderUpdateSpeed_raises, nmeaReaderUpdateBearing_raises,
      nmeaReaderUpdateLatlong_raises, nmeaReaderUpdateDate_raises]
    simp only [BitVec.or_assoc]
  · simp [fieldFlags]

/-- A sentence raises the flags of the fields it assigns, and no others. -/
theorem parse_flags (env : NmeaEnv) (r : NmeaReader) :
    (nmeaReaderParse env r).reader.fix.flags
      = r.fix.flags ||| fieldFlags (nmeaReaderParse env r).assigned := by
  rw [nmeaReaderParse_eq]
  cases bufferKind r.inBuf r.pos with
  | gga => exact parseGga_flags ..
  | rmc => exact parseRmc_flags ..
  | gsv =>
      obtain ⟨_, _, h⟩ := parseGsv_svStep r (nmeaTokenizerInit r.inBuf 0 r.pos)
      have hassigned : (parseGsv r (nmeaTokenizerInit r.inBuf 0 r.pos)).assigned = [] := by
        unfold parseGsv
        split <;> rfl
      simp [h, hassigned, fieldFlags]
  | gsa => exact (BitVec.or_zero).symm
  | unknown => exact (BitVec.or_zero).symm

theorem parse_flagsCached (env : NmeaEnv) (r : NmeaReader) :
    (nmeaReaderParse env r).reader.fixFlagsCached = r.fixFlagsCached := by
  rcases nmeaReaderParse_step env r with ⟨_, _, _, _, h⟩ | ⟨_, _, h⟩
  · rw [h]
  · rw [h]

/-- A round with a position publishes the flags raised since the last one together
with those published before, and keeps them. -/
theorem gpsTimerTick_flags (r : NmeaReader) :
    (r.HasLatLong ∧ (gpsTimerTick r).1.fix.flags = 0
        ∧ (gpsTimerTick r).1.fixFlagsCached = r.fix.flags ||| r.fixFlagsCached
        ∧ (gpsTimerTick r).2.location
          = some { r.fix with flags := r.fix.flags ||| r.fixFlagsCached })
      ∨ (gpsTimerTick r).1.fix.flags = r.fix.flags
        ∧ (gpsTimerTick r).1.fixFlagsCached = r.fixFlagsCached
        ∧ (gpsTimerTick r).2.location = none := by
  have hcached : (if r.fixFlagsCached > 0 then r.fix.flags ||| r.fixFlagsCached else r.fix.flags)
      = r.fix.flags ||| r.fixFlagsCached := by
    split_ifs with h
    · rfl
    · rw [show r.fixFlagsCached = 0#16 from BitVec.le_zero_iff.mp (BitVec.not_lt.mp h),
        BitVec.or_zero]
  unfold gpsTimerTick gpsTimerLocation
  rw [hcached]
  by_cases h : r.fix.flags &&& gpsLocationHasLatLong ≠ 0
  · rw [if_pos h]
    left
    simp only
    split <;> exact ⟨h, rfl, rfl, rfl⟩
  · rw [if_neg h]
    right
    simp only
    split <;> exact ⟨rfl, rfl, rfl⟩

/-! ## A session -/

/-- `f` is assigned by one of the sentences of a run. -/
def AssignedIn (r : NmeaReader) (es : List GpsEvent) (f : FixField) : Prop :=
  ∃ before env s after, es = before ++ .sentence env s :: after
    ∧ f ∈ (gpsStep (runFrom gpsNext r before) (.sentence env s)).2.assigned

theorem AssignedIn.append {r : NmeaReader} {es : List GpsEvent} {f : FixField}
    (h : AssignedIn r es f) (fs : List GpsEvent) : AssignedIn r (es ++ fs) f := by
  obtain ⟨before, env, s, after, rfl, hf⟩ := h
  exact ⟨before, env, s, after ++ fs, by simp, hf⟩

/-- What can be published was assigned since the session began. -/
theorem flags_assigned (r : NmeaReader) {es : List GpsEvent} (hes : .sessionStart ∉ es) {i : Nat}
    (h : ((runFrom gpsNext (gpsTimerStart r) es).fix.flags
      ||| (runFrom gpsNext (gpsTimerStart r) es).fixFlagsCached).getLsbD i = true) :
    ∃ f, f.flag.getLsbD i = true ∧ AssignedIn (gpsTimerStart r) es f := by
  induction es using List.reverseRecOn with
  | nil => simp [gpsTimerStart] at h
  | append_singleton es e ih =>
      rw [List.mem_append, not_or] at hes
      rw [runFrom_append, runFrom_cons, runFrom_nil] at h
      have hbefore (hold : ((runFrom gpsNext (gpsTimerStart r) es).fix.flags
          ||| (runFrom gpsNext (gpsTimerStart r) es).fixFlagsCached).getLsbD i = true) :
          ∃ f, f.flag.getLsbD i = true ∧ AssignedIn (gpsTimerStart r) (es ++ [e]) f := by
        obtain ⟨f, hf, hassigned⟩ := ih hes.1 hold
        exact ⟨f, hf, hassigned.append [e]⟩
      cases e with
      | sessionStart => exact absurd (List.mem_singleton.mpr rfl) hes.2
      | tick =>
          refine hbefore ?_
          rcases gpsTimerTick_flags (runFrom gpsNext (gpsTimerStart r) es)
            with ⟨-, hflags, hcached, -⟩ | ⟨hflags, hcached, -⟩
          · rw [gpsNext, gpsStep, hflags, hcached] at h
            simpa using h
          · rwa [gpsNext, gpsStep, hflags, hcached] at h
      | sentence env s =>
          have hflags := parse_flags env ((runFrom gpsNext (gpsTimerStart r) es).load s)
          have hcached := parse_flagsCached env ((runFrom gpsNext (gpsTimerStart r) es).load s)
          simp only [gpsNext, gpsStep, hflags, hcached, BitVec.getLsbD_or, Bool.or_eq_true] at h
          rcases h with (h | h) | h
          · exact hbefore (by rw [BitVec.getLsbD_or, Bool.or_eq_true]; exact .inl h)
          · obtain ⟨f, hf, hbit⟩ := (getLsbD_fieldFlags _ i).mp h
            exact ⟨f, hbit, es, env, s, [], rfl, hf⟩
          · exact hbefore (by rw [BitVec.getLsbD_or, Bool.or_eq_true]; exact .inr h)

/-- Within a session `fix_flags_cached` only grows. -/
theorem flagsCached_grows (r : NmeaReader) {es : List GpsEvent} (hes : .sessionStart ∉ es) {i : Nat}
    (h : r.fixFlagsCached.getLsbD i = true) :
    (runFrom gpsNext r es).fixFlagsCached.getLsbD i = true := by
  induction es generalizing r with
  | nil => exact h
  | cons e es ih =>
      rw [List.mem_cons, not_or] at hes
      refine ih (gpsNext r e) hes.2 ?_
      cases e with
      | sessionStart => exact absurd rfl hes.1
      | tick =>
          rcases gpsTimerTick_flags r with ⟨-, -, hcached, -⟩ | ⟨-, hcached, -⟩
          · rw [gpsNext, gpsStep, hcached, BitVec.getLsbD_or, h, Bool.or_true]
          · rwa [gpsNext, gpsStep, hcached]
      | sentence env s => exact (parse_flagsCached env (r.load s)).symm ▸ h

/-- The flags of a location, published in a session after the events `before`. -/
structure TruthfulFlags (start : NmeaReader) (before : List GpsEvent) (location : GpsLocation) :
    Prop where
  latLong : location.flags &&& gpsLocationHasLatLong ≠ 0
  sticky : ∀ earlier later earlierLocation, before = earlier ++ .tick :: later →
    (gpsStep (runFrom gpsNext start earlier) .tick).2.location = some earlierLocation →
      ∀ i, earlierLocation.flags.getLsbD i = true → location.flags.getLsbD i = true
  assigned : ∀ i, location.flags.getLsbD i = true →
    ∃ f, f.flag.getLsbD i = true ∧ AssignedIn start before f

/-- A location published in a session has a position, keeps the flags of the locations
published before it, and has only flags of fields that a sentence of the session
assigned. -/
theorem published_flags_truthful (r : NmeaReader) (before : List GpsEvent)
    (hsession : .sessionStart ∉ before) (location : GpsLocation)
    (hpublished : (gpsStep (runFrom gpsNext (gpsTimerStart r) before) .tick).2.location
      = some location) : TruthfulFlags (gpsTimerStart r) before location := by
  rcases gpsTimerTick_flags (runFrom gpsNext (gpsTimerStart r) before)
    with ⟨hpos, -, -, hlocation⟩ | ⟨-, -, hlocation⟩
  · obtain rfl := Option.some.inj (hlocation.symm.trans hpublished)
    refine ⟨?_, ?_, fun i h => flags_assigned r hsession h⟩
    · exact hasLatLong_or _ _ |>.mpr (.inl hpos)
    · rintro earlier later earlierLocation rfl hearlier i hbit
      rcases gpsTimerTick_flags (runFrom gpsNext (gpsTimerStart r) earlier)
        with ⟨-, -, hcached, hlocation'⟩ | ⟨-, -, hlocation'⟩
      · obtain rfl := Option.some.inj (hlocation'.symm.trans hearlier)
        rw [List.mem_append, List.mem_cons, not_or, not_or] at hsession
        have hgrows := flagsCached_grows
          (gpsNext (runFrom gpsNext (gpsTimerStart r) earlier) .tick) hsession.2.2 (i := i)
          (by rw [gpsNext, gpsStep, hcached]; exact hbit)
        rw [runFrom_append, runFrom_cons]
        simp only [BitVec.getLsbD_or, hgrows, Bool.or_true]
      · rw [gpsStep, hlocation'] at hearlier
        cases hearlier
  · rw [gpsStep, hlocation] at hpublished
    cases hpublished

/-- Every location that the session publishes has truthful flags. -/
def PublishesTruthful (start : NmeaReader) (es : List GpsEvent) : Prop :=
  ∀ before after location, es = before ++ .tick :: after →
    (gpsStep (runFrom gpsNext start before) .tick).2.location = some location →
      TruthfulFlags start before location

/-- **Truthful flags.** In a session no satellite is stored over the flags or another
member of the reader, and every published location has a position, keeps the flags of
the locations published before it and has only flags of fields that a sentence of the
session assigned, if and only if every GSV sentence that stores something has a number
from 1 to 8. -/
theorem location_flags_truthful_iff (r : NmeaReader) (es : List GpsEvent)
    (hsession : .sessionStart ∉ es) :
    AllSteps gpsNext StoresInTable (gpsTimerStart r) es ∧ PublishesTruthful (gpsTimerStart r) es
      ↔ AllSteps gpsNext GsvInTable (gpsTimerStart r) es := by
  rw [run_stores_iff, and_iff_left_iff_imp]
  rintro - before after location rfl hpublished
  refine published_flags_truthful r before (fun h => hsession ?_) location hpublished
  exact List.mem_append_left _ h

end

/-- An RMC sentence with a position, a speed and a bearing. -/
def movingRmc : List Byte :=
  "$GPRMC,123519,A,4807.03,N,01131.00,E,022.4,084.4,230394,,\n".toList.map ch

/-- A GGA sentence is published, then an RMC sentence: the second location has
the flags of both. -/
theorem gga_rmc_flags_truthful :
    let start := @gpsTimerStart decimalFloat (@nmeaReaderInit decimalFloat 0)
    let before : List GpsEvent :=
      [.sentence quietEnv untimedGga, .tick, .sentence quietEnv movingRmc]
    ∃ location, @GpsOut.location decimalFloat
        (@gpsStep decimalFloat (runFrom (@gpsNext decimalFloat) start before) .tick).2 = some location
      ∧ @GpsLocation.flags decimalFloat location = 0x001f
      ∧ @TruthfulFlags decimalFloat start before location := by
  intro start before
  have hflags : (@GpsOut.location decimalFloat (@gpsStep decimalFloat
      (runFrom (@gpsNext decimalFloat) start before) .tick).2).map (@GpsLocation.flags decimalFloat)
        = some 0x001f := by
    decide +kernel
  obtain ⟨location, hpublished, hlocation⟩ := Option.map_eq_some_iff.mp hflags
  have hgga : textKind untimedGga ≠ .gsv := by decide +kernel
  have hrmc : textKind movingRmc ≠ .gsv := by decide +kernel
  have hstores : @AllSteps _ _ (@gpsNext decimalFloat) (@GsvInTable decimalFloat) start
      (before ++ [.tick]) := by
    simp only [before, List.cons_append, List.nil_append, AllSteps]
    exact ⟨fun h => absurd h hgga, trivial, fun h => absurd h hrmc, trivial, trivial⟩
  have htruthful := (@location_flags_truthful_iff decimalFloat (@nmeaReaderInit decimalFloat 0)
    (before ++ [.tick]) (by simp [before])).mpr hstores
  exact ⟨location, hpublished, hlocation, htruthful.2 before [] location rfl hpublished⟩

/-- A GSV sentence without a first one: its number is 0. -/
def zerothGsv : List Byte := "$GPGSV,1,0,04,01,40,083,46.3\n".toList.map ch

/-- Its satellite is stored before the table, the signal over the flags of the fix. -/
theorem signal_stored_over_flags :
    let start := @gpsTimerStart decimalFloat (@nmeaReaderInit decimalFloat 0)
    let es : List GpsEvent := [.sentence quietEnv zerothGsv, .tick]
    @GpsOut.svWrites decimalFloat
        (@gpsStep decimalFloat start (.sentence quietEnv zerothGsv)).2 = [-4]
      ∧ ReaderMember.fixFlags.HitBy (-4) .snr
      ∧ ¬ (@AllSteps _ _ (@gpsNext decimalFloat) (@StoresInTable decimalFloat) start es
        ∧ @PublishesTruthful decimalFloat start es) := by
  intro start es
  have hwrites : @GpsOut.svWrites decimalFloat
      (@gpsStep decimalFloat start (.sentence quietEnv zerothGsv)).2 = [-4] := by
    decide +kernel
  refine ⟨hwrites, by decide, ?_⟩
  rintro ⟨⟨hstores, -⟩, -⟩
  exact absurd (hstores (-4) (by rw [hwrites]; exact List.mem_singleton.mpr rfl)).1 (by decide)

end HtcLeo
