import HtcLeo.GsvTable

/-!
# When the satellite table is published

The table is built over the sentences of a GSV group, and the next round
of `gps_timer_thread` publishes it if `sv_status_changed` is set. The first
sentence of a group clears that flag and the last one sets it; but a GSA
sentence sets it wherever it comes.

The flag is read off the events (`svStatusChanged_iff_since`), and so is
whether a group is open. A round publishes a table that is half built
exactly when it comes into an open group with the flag set
(`svstatus_whole_iff`). The flag stands right behind the masks of the
table, where a satellite of a ninth sentence is stored; the histories are
those whose stores stay in the table.
-/

namespace HtcLeo

/-! ## The events -/

/-- A GSV sentence with a positive satellite count. -/
def GsvCounts : GpsEvent → Prop
  | .sentence _ s => textKind s = .gsv ∧ 0 < gsvNumSvs (textTokens s)
  | _ => False

/-- Its number is the announced total. -/
def GsvEnds : GpsEvent → Prop
  | .sentence _ s => gsvSentenceNo (textTokens s) = gsvTotalSentences (textTokens s)
  | _ => False

def GsvBegins : GpsEvent → Prop
  | .sentence _ s => gsvSentenceNo (textTokens s) = 1
  | _ => False

def IsGsa : GpsEvent → Prop
  | .sentence _ s => textKind s = .gsa
  | _ => False

/-- The last GSV sentence with a positive count was not the last of its group. -/
def GroupOpen (es : List GpsEvent) : Prop :=
  Since (fun e => GsvCounts e ∧ ¬ GsvEnds e) GsvCounts es

/-- A GSA sentence, or the last sentence of a group. -/
def SetsChanged (e : GpsEvent) : Prop := IsGsa e ∨ GsvCounts e ∧ GsvEnds e

/-- A round, the start of a session, or the first sentence of a group. -/
def ClearsChanged (e : GpsEvent) : Prop :=
  e = .tick ∨ e = .sessionStart ∨ GsvCounts e ∧ GsvBegins e

section

variable [CFloat]

/-! ## The flag -/

theorem gpsNext_gsv_changed {s : List Byte} (hk : textKind s = .gsv) (r : NmeaReader)
    (env : NmeaEnv) :
    (gpsNext r (.sentence env s)).svStatusChanged
      = if 0 < gsvNumSvs (textTokens s) then
          if gsvSentenceNo (textTokens s) = gsvTotalSentences (textTokens s) then true
          else if gsvSentenceNo (textTokens s) = 1 then false
          else r.svStatusChanged
        else r.svStatusChanged := by
  rw [(gpsStep_gsv hk r env).2, parseGsv]
  by_cases hcount : gsvNumSvs (textTokens s) > 0
  · simp only [if_pos hcount, gsvBegin]
    split_ifs <;> rfl
  · simp only [if_neg hcount]
    rfl

/-- The other sentences leave the flag, except for GSA. -/
theorem gpsNext_not_gsv_changed {s : List Byte} (hk : textKind s ≠ .gsv) (r : NmeaReader)
    (env : NmeaEnv) :
    (gpsNext r (.sentence env s)).svStatusChanged
      = if textKind s = .gsa then true else r.svStatusChanged := by
  have hkind : bufferKind (r.load s).inBuf (r.load s).pos = textKind s :=
    bufferKind_eq_textKind (r.load_slice s)
  rw [gpsNext, gpsStep, nmeaReaderParse_eq, hkind]
  cases hs : textKind s with
  | gsv => exact absurd hs hk
  | gga =>
      obtain ⟨_, _, _, _, h⟩ := parseGga_fixStep env (r.load s)
        (nmeaTokenizerInit (r.load s).inBuf 0 (r.load s).pos)
      simp only [h]
      rfl
  | rmc =>
      obtain ⟨_, _, _, _, h⟩ := parseRmc_fixStep env (r.load s)
        (nmeaTokenizerInit (r.load s).inBuf 0 (r.load s).pos)
      simp only [h]
      rfl
  | gsa => rfl
  | unknown => rfl

theorem gpsTimerTick_changed (r : NmeaReader) : (gpsTimerTick r).1.svStatusChanged = false := by
  unfold gpsTimerTick
  simp only
  split
  · rfl
  · rename_i h
    exact Bool.not_eq_true _ ▸ h

/-- A round publishes the table exactly when the flag is set. -/
theorem gpsTimerTick_publishes (r : NmeaReader) :
    (gpsTimerTick r).2.svStatus.isSome = r.svStatusChanged := by
  have hkeeps := (gpsTimerLocation_keeps r).2
  unfold gpsTimerTick
  simp only [hkeeps]
  cases r.svStatusChanged <;> rfl

/-- What an event does to the flag. -/
theorem gpsNext_changed (r : NmeaReader) (e : GpsEvent) :
    (gpsNext r e).svStatusChanged = true
      ↔ SetsChanged e ∨ r.svStatusChanged = true ∧ ¬ ClearsChanged e := by
  cases e with
  | tick =>
      rw [gpsNext, gpsStep, gpsTimerTick_changed]
      simp [SetsChanged, ClearsChanged, IsGsa, GsvCounts]
  | sessionStart => simp [gpsNext, gpsStep, gpsTimerStart, SetsChanged, ClearsChanged, IsGsa, GsvCounts]
  | sentence env s =>
      simp only [SetsChanged, ClearsChanged, IsGsa, GsvCounts, GsvEnds, GsvBegins, reduceCtorEq,
        false_or]
      by_cases hk : textKind s = .gsv
      · rw [gpsNext_gsv_changed hk]
        simp only [hk, reduceCtorEq, true_and, false_or]
        split_ifs <;> simp_all
      · rw [gpsNext_not_gsv_changed hk]
        simp only [hk, false_and, or_false, not_false_eq_true, and_true]
        split_ifs with hgsa <;> simp [hgsa]

theorem svStatusChanged_iff_since (utcDiff : Int) (es : List GpsEvent) :
    (runFrom gpsNext (nmeaReaderInit utcDiff) es).svStatusChanged = true
      ↔ Since SetsChanged ClearsChanged es := by
  induction es using List.reverseRecOn with
  | nil => exact iff_of_false Bool.false_ne_true (since_nil _ _)
  | append_singleton es e ih =>
      rw [runFrom_append, runFrom_cons, runFrom_nil, gpsNext_changed, ih, since_concat]

/-! ## Published tables -/

/-- No round publishes the table while a GSV group is open exactly when every round
that comes into an open group finds no GSA sentence and no last sentence of a group
since the round before, the start of the session or the first sentence of a group. -/
theorem publishes_whole_iff (utcDiff : Int) (es : List GpsEvent) :
    (∀ before after, es = before ++ .tick :: after →
        (gpsStep (runFrom gpsNext (nmeaReaderInit utcDiff) before) .tick).2.svStatus.isSome = true →
          ¬ GroupOpen before)
      ↔ ∀ before after, es = before ++ .tick :: after →
          GroupOpen before → ¬ Since SetsChanged ClearsChanged before := by
  have hpublishes (before : List GpsEvent) :
      (gpsStep (runFrom gpsNext (nmeaReaderInit utcDiff) before) .tick).2.svStatus.isSome = true
        ↔ Since SetsChanged ClearsChanged before := by
    rw [gpsStep, gpsTimerTick_publishes, svStatusChanged_iff_since]
  constructor
  · intro h before after hes hopen hsince
    exact h before after hes ((hpublishes before).mpr hsince) hopen
  · intro h before after hes hpublished hopen
    exact h before after hes hopen ((hpublishes before).mp hpublished)

/-- **No half-built tables.** Over any history of the reader, no satellite is stored
over another member of the reader and no round publishes the table while a GSV group
is open, if and only if every GSV sentence that stores something has a number from 1
to 8 and every round that comes into an open group finds no GSA sentence and no last
sentence of a group since the round before, the start of the session or the first
sentence of a group. -/
theorem svstatus_whole_iff (utcDiff : Int) (es : List GpsEvent) :
    AllSteps gpsNext StoresInTable (nmeaReaderInit utcDiff) es
        ∧ (∀ before after, es = before ++ .tick :: after →
          (gpsStep (runFrom gpsNext (nmeaReaderInit utcDiff) before) .tick).2.svStatus.isSome
              = true →
            ¬ GroupOpen before)
      ↔ AllSteps gpsNext GsvInTable (nmeaReaderInit utcDiff) es
        ∧ ∀ before after, es = before ++ .tick :: after →
          GroupOpen before → ¬ Since SetsChanged ClearsChanged before :=
  and_congr (run_stores_iff _ es) (publishes_whole_iff utcDiff es)

end

/-- `$GPGSV,2,1,05,01,40,083,46` and a newline: the first sentence of a group of two. -/
def firstOfTwoGsv : List Byte := "$GPGSV,2,1,05,01,40,083,46\n".toList.map ch

def plainGsa : List Byte := "$GPGSA,A,3,01,,,,,,,,,,,,2.5,1.3,2.1\n".toList.map ch

/-- A GSA sentence after the first of two GSV sentences has the table published
before the second one. -/
theorem gsa_publishes_open_group :
    let before : List GpsEvent := [.sentence quietEnv firstOfTwoGsv, .sentence quietEnv plainGsa]
    Option.isSome (@GpsOut.svStatus decimalFloat (@gpsStep decimalFloat
        (runFrom (@gpsNext decimalFloat) (@nmeaReaderInit decimalFloat 0) before) .tick).2) = true
      ∧ GroupOpen before := by
  refine ⟨by decide +kernel, [], _, _, rfl, ⟨⟨by decide +kernel, by decide +kernel⟩, ?_⟩, ?_⟩
  · rw [GsvEnds]
    decide +kernel
  · intro c hc
    rw [List.mem_singleton.mp hc]
    rintro ⟨hk, -⟩
    exact absurd hk (by decide +kernel)

end HtcLeo
