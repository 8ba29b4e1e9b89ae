import HtcLeo.GpsReceiver
import HtcLeo.NmeaSentence
import HtcLeo.PositionTexts

/-!
# A position on its way to the framework

`PositionReport` is what a receiver knows when it writes a GGA sentence,
and `PositionReport.sentence` is the sentence. `position_published` follows
it through the reader and the timer: the framework gets the sentence, and
with the next round a location that agrees with the report
(`PositionReport.Agrees`).
-/

namespace HtcLeo

/-! ## The sentence -/

/-- A position, with the texts of the fields that the parser does not compute with. -/
structure PositionReport where
  talker : List Byte
  time : TimeOfDay
  latitude : Angle 2
  longitude : Angle 3
  quality : Byte
  satellites : List Byte
  hdop : List Byte
  altitude : Height
  geoidHeight : Height
  age : List Byte
  station : List Byte
  talker_length : talker.length = 2
  /-- `0` is no fix. -/
  quality_fix : quality.toNat > (ch '0').toNat
  plain : ∀ f ∈ [talker, [quality], satellites, hdop, age, station], ∀ b ∈ f, IsPlain b

namespace PositionReport

variable (p : PositionReport)

def fields : List (List Byte) :=
  [p.talker ++ [ch 'G', ch 'G', ch 'A'], p.time.text,
    p.latitude.text, [if p.latitude.negative then ch 'S' else ch 'N'],
    p.longitude.text, [if p.longitude.negative then ch 'W' else ch 'E'],
    [p.quality], p.satellites, p.hdop, p.altitude.text, [ch 'M'], p.geoidHeight.text, [ch 'M'],
    p.age, p.station]

def sentence (tail : SentenceTail) : List Byte :=
  frameText ([ch ','].intercalate p.fields) tail

end PositionReport

/-- The checksum is two plain characters. -/
def SentenceTail.Plain (t : SentenceTail) : Prop :=
  ∀ a b, t.checksum = some (a, b) → IsPlain a ∧ IsPlain b

theorem Angle.text_plain {width : Nat} (a : Angle width) {b : Byte} (hb : b ∈ a.text) :
    IsPlain b := by
  rw [Angle.text, List.mem_append] at hb
  rcases hb with hb | hb
  · exact (isDigit_of_mem hb).plain
  · exact a.minutes.text_plain hb

theorem TimeOfDay.text_plain (t : TimeOfDay) {b : Byte} (hb : b ∈ t.text) : IsPlain b := by
  rw [TimeOfDay.text, List.mem_append, List.mem_append] at hb
  rcases hb with hb | hb | hb
  · exact (isDigit_of_mem hb).plain
  · exact (isDigit_of_mem hb).plain
  · exact t.seconds.text_plain hb

theorem PositionReport.fields_plain (p : PositionReport) :
    ∀ f ∈ p.fields, ∀ b ∈ f, IsPlain b := by
  obtain ⟨htalker, hquality, hsatellites, hhdop, hage, hstation⟩ := by
    simpa only [List.forall_mem_cons, List.not_mem_nil, IsEmpty.forall_iff, implies_true,
      and_true] using p.plain
  simp only [fields, List.forall_mem_cons, List.not_mem_nil, IsEmpty.forall_iff, implies_true,
    and_true, List.forall_mem_append]
  refine ⟨⟨htalker, by decide, by decide, by decide⟩, fun b => p.time.text_plain,
    fun b => p.latitude.text_plain, ?_, fun b => p.longitude.text_plain, ?_, hquality, hsatellites,
    hhdop, fun b => p.altitude.text_plain, by decide, fun b => p.geoidHeight.text_plain,
    by decide, hage, hstation⟩
  · cases p.latitude.negative <;> decide
  · cases p.longitude.negative <;> decide

theorem SentenceTail.Plain.wellFormed {t : SentenceTail} (h : t.Plain) : t.WellFormed := by
  intro a b hab
  obtain ⟨ha, hb⟩ := h a b hab
  exact ⟨ha.2.2.2.1, hb.2.2.2.1⟩

namespace PositionReport

variable (p : PositionReport) {tail : SentenceTail}

theorem body_plain : ∀ b ∈ [ch ','].intercalate p.fields,
    b ≠ ch '*' ∧ b ≠ ch '\r' ∧ b ≠ ch '\n' := by
  intro b hb
  rcases mem_intercalate hb with ⟨f, hf, hbf⟩ | rfl
  · exact (p.fields_plain f hf b hbf).2.2
  · decide

/-- The parser sees the fields. -/
theorem fieldsOf_sentence (htail : tail.Plain) {i : Nat} (hi : i < maxNmeaTokens) :
    fieldsOf (p.sentence tail) i = p.fields.getD i [] := by
  have hbody := sentenceBody_frame
    (fun b hb => ⟨(p.body_plain b hb).1, (p.body_plain b hb).2.1⟩) htail.wellFormed
  have hcomma : ∀ f ∈ p.fields, ch ',' ∉ f := fun f hf hmem => (p.fields_plain f hf _ hmem).2.1 rfl
  have hslice := Mem.slice_write (fun _ => 0) 0 (p.sentence tail)
  rw [sentenceBody_eq, textMem, ← sentence, hslice] at hbody
  rw [fieldsOf, if_pos hi, hbody, List.splitOn_intercalate _ hcomma (List.cons_ne_nil _ _)]

theorem length_sentence : 9 ≤ (p.sentence tail).length := by
  have htime := p.time.length_text
  rw [sentence, frameText, fields, List.intercalate_cons_cons, List.intercalate_cons_cons]
  simp only [List.length_cons, List.length_append, List.length_nil, htime]
  omega

theorem lineKind_sentence (htail : tail.Plain) : lineKind (p.sentence tail) = .gga := by
  have hname : fieldsOf (p.sentence tail) 0 = p.talker ++ [ch 'G', ch 'G', ch 'A'] :=
    p.fieldsOf_sentence htail (by decide)
  have hlen : 9 ≤ (p.sentence tail).length := p.length_sentence
  rw [lineKind, if_neg (by omega), hname, List.drop_left' p.talker_length]
  rfl

/-- The newline is the last character. -/
theorem sentence_line (htail : tail.Plain) :
    ∃ cs, p.sentence tail = cs ++ [ch '\n'] ∧ ch '\n' ∉ cs := by
  have hcheck : ch '\n' ∉ tail.check := by
    rw [SentenceTail.check]
    split
    · rename_i a b hab
      obtain ⟨ha, hb⟩ := htail a b hab
      simp only [List.mem_cons, List.not_mem_nil, or_false, not_or]
      exact ⟨by decide, ha.2.2.2.2.symm, hb.2.2.2.2.symm⟩
    · exact List.not_mem_nil
  have hbody : ch '\n' ∉ [ch ','].intercalate p.fields := fun hmem => (p.body_plain _ hmem).2.2 rfl
  refine ⟨ch '$' :: ([ch ','].intercalate p.fields ++ tail.check
    ++ if tail.cr then [ch '\r'] else []), ?_, ?_⟩
  · rw [sentence, frameText_eq]
    cases tail.cr <;> simp
  · simp only [List.mem_cons, List.mem_append, not_or]
    refine ⟨by decide, ⟨hbody, hcheck⟩, ?_⟩
    cases tail.cr <;> decide

end PositionReport

/-! ## The location -/

section Location

variable [CFloat] {rnd : ℚ → ℚ} {value : CFloat.double → Option ℚ}

open CFloat

/-- What the framework learns of a position, with the date that the reader has. -/
structure PositionReport.Agrees (value : double → Option ℚ) (env : NmeaEnv) (v : GpsView)
    (p : PositionReport) (location : GpsLocation) : Prop where
  hasLatLong : location.flags &&& gpsLocationHasLatLong ≠ 0
  hasAltitude : location.flags &&& gpsLocationHasAltitude ≠ 0
  latitude : Near value location.latitude p.latitude.value (1 / 10 ^ 13)
  longitude : Near value location.longitude p.longitude.value (1 / 10 ^ 13)
  altitude : Near value location.altitude (p.altitude.value + p.geoidHeight.value) (1 / 10 ^ 10)
  timestamp : ∃ m : ℤ, location.timestamp
      = wrap32 (env.mktime
          { tmHour := p.time.hour, tmMin := p.time.minute, tmSec := p.time.seconds.whole
            tmYear := (v.dated env).utcYear - 1900, tmMon := (v.dated env).utcMon - 1
            tmMday := (v.dated env).utcDay } + v.utcDiff) * 1000 + m
    ∧ 0 ≤ m ∧ m ≤ p.time.millis ∧ p.time.millis ≤ m + 1

omit [CFloat] in
theorem or_and_ne_zero {f m : BitVec 16} (g : BitVec 16) (h : f &&& m ≠ 0) :
    (f ||| g) &&& m ≠ 0 := by
  rw [BitVec.and_or_distrib_right]
  exact fun hzero => h (BitVec.or_eq_zero_iff.mp hzero).1

/-- More flags do no harm. -/
theorem PositionReport.Agrees.addFlags {env : NmeaEnv} {v : GpsView} {p : PositionReport}
    {location : GpsLocation} (h : p.Agrees value env v location) (flags : BitVec 16) :
    p.Agrees value env v { location with flags := location.flags ||| flags } where
  hasLatLong := or_and_ne_zero flags h.hasLatLong
  hasAltitude := or_and_ne_zero flags h.hasAltitude
  latitude := h.latitude
  longitude := h.longitude
  altitude := h.altitude
  timestamp := h.timestamp

theorem GpsView.dated_fix (env : NmeaEnv) (v : GpsView) : (v.dated env).fix = v.fix := by
  unfold GpsView.dated
  split <;> rfl

theorem GpsView.dated_utcDiff (env : NmeaEnv) (v : GpsView) :
    (v.dated env).utcDiff = v.utcDiff := by
  unfold GpsView.dated
  split <;> rfl

/-- The accuracy, if there is one, leaves the rest of the fix alone. -/
theorem GpsView.withAccuracy_fix (env : NmeaEnv) (v : GpsView) (hdop : List Byte) :
    ∃ flags accuracy, (v.withAccuracy env hdop).fix
      = { v.fix with flags := v.fix.flags ||| flags, accuracy := accuracy } := by
  unfold GpsView.withAccuracy
  split
  · exact ⟨0, v.fix.accuracy, by simp⟩
  · exact ⟨_, _, rfl⟩

/-- The time, if there is one, leaves the rest of the fix alone. -/
theorem GpsView.atTime_fix (env : NmeaEnv) (v : GpsView) (text : List Byte) :
    ∃ timestamp, (v.atTime env text).fix = { v.fix with timestamp := timestamp } := by
  unfold GpsView.atTime
  split
  · exact ⟨v.fix.timestamp, rfl⟩
  · simp only [GpsView.dated_fix]
    exact ⟨_, rfl⟩

theorem GpsView.atTime_text (hd : Doubles binary64 rnd value) (env : NmeaEnv) (v : GpsView)
    (t : TimeOfDay) :
    ∃ m : ℤ, (v.atTime env t.text).fix
        = { v.fix with timestamp := wrap32 (env.mktime
            { tmHour := t.hour, tmMin := t.minute, tmSec := t.seconds.whole
              tmYear := (v.dated env).utcYear - 1900, tmMon := (v.dated env).utcMon - 1
              tmMday := (v.dated env).utcDay } + v.utcDiff) * 1000 + m }
      ∧ 0 ≤ m ∧ m ≤ t.millis ∧ t.millis ≤ m + 1 := by
  obtain ⟨hseconds, m, hm, hbounds⟩ := millis_read hd t
  obtain ⟨hhour, hminute, hrest⟩ := t.text_parts
  have hh := t.hour_lt
  have hmin := t.minute_lt
  have hlen := t.length_text
  refine ⟨m, ?_, hbounds⟩
  rw [GpsView.atTime, if_neg (by omega), hhour, hminute, hrest, str2int_text (by decide) (by omega)
    (by omega), str2int_text (by decide) (by omega) (by omega)]
  simp only [hseconds, hm, GpsView.dated_fix, GpsView.dated_utcDiff]

/-- Which parts of the fix the sentence sets. -/
theorem hear_fix (p : PositionReport) {tail : SentenceTail} (htail : tail.Plain) (env : NmeaEnv)
    (v : GpsView) :
    ∃ flags accuracy, (v.hear env (p.sentence tail)).fix
      = { v.fix with
          flags := v.fix.flags ||| gpsLocationHasLatLong ||| flags ||| gpsLocationHasAltitude
          latitude := GpsView.signedAngle p.latitude.text
            [if p.latitude.negative then ch 'S' else ch 'N'] (ch 'S')
          longitude := GpsView.signedAngle p.longitude.text
            [if p.longitude.negative then ch 'W' else ch 'E'] (ch 'W')
          altitude := add (str2float p.altitude.text) (str2float p.geoidHeight.text)
          accuracy := accuracy
          timestamp := (v.atTime env p.time.text).fix.timestamp } := by
  have hf {i : Nat} (hi : i < maxNmeaTokens) := p.fieldsOf_sentence htail hi
  have h1 : fieldsOf (p.sentence tail) 1 = p.time.text := hf (by decide)
  have h2 : fieldsOf (p.sentence tail) 2 = p.latitude.text := hf (by decide)
  have h3 : fieldsOf (p.sentence tail) 3 = [if p.latitude.negative then ch 'S' else ch 'N'] :=
    hf (by decide)
  have h4 : fieldsOf (p.sentence tail) 4 = p.longitude.text := hf (by decide)
  have h5 : fieldsOf (p.sentence tail) 5 = [if p.longitude.negative then ch 'W' else ch 'E'] :=
    hf (by decide)
  have h6 : fieldsOf (p.sentence tail) 6 = [p.quality] := hf (by decide)
  have h8 : fieldsOf (p.sentence tail) 8 = p.hdop := hf (by decide)
  have h9 : fieldsOf (p.sentence tail) 9 = p.altitude.text := hf (by decide)
  have h11 : fieldsOf (p.sentence tail) 11 = p.geoidHeight.text := hf (by decide)
  have hquality :
      (([p.quality] : List Byte).head?.any fun b => b.toNat > (ch '0').toNat) = true := by
    simpa using p.quality_fix
  have hplace : ¬(p.latitude.text.length < 6 ∨ p.longitude.text.length < 6) := by
    have hlat := p.latitude.length_text
    have hlon := p.longitude.length_text
    have hlatPlaces := p.latitude.places_pos
    have hlonPlaces := p.longitude.places_pos
    omega
  have hheights : ¬(p.altitude.text = [] ∨ p.geoidHeight.text = []) :=
    not_or.mpr ⟨p.altitude.text_ne, p.geoidHeight.text_ne⟩
  obtain ⟨flags, accuracy, haccuracy⟩ := GpsView.withAccuracy_fix env
    ((v.atTime env p.time.text).atPlace p.latitude.text
      [if p.latitude.negative then ch 'S' else ch 'N'] p.longitude.text
      [if p.longitude.negative then ch 'W' else ch 'E']) p.hdop
  obtain ⟨timestamp, htime⟩ := v.atTime_fix env p.time.text
  refine ⟨flags, accuracy, ?_⟩
  simp only [GpsView.hear, p.lineKind_sentence htail, h1, h2, h3, h4, h5, h6, h8, h9, h11,
    hquality, if_true]
  rw [GpsView.atAltitude, if_neg hheights]
  simp only [haccuracy]
  rw [GpsView.atPlace, if_neg hplace]
  simp only [htime]

/-- The sentence says what the report says. -/
theorem hear_sentence (hd : Doubles binary64 rnd value) (p : PositionReport) {tail : SentenceTail}
    (htail : tail.Plain) (env : NmeaEnv) (v : GpsView) :
    p.Agrees value env v (v.hear env (p.sentence tail)).fix := by
  obtain ⟨flags, accuracy, hheard⟩ := hear_fix p htail env v
  obtain ⟨m, htime, hm⟩ := v.atTime_text hd env p.time
  have hset {f g : BitVec 16} (h : g &&& g ≠ 0) : (f ||| g) &&& g ≠ 0 := by
    rw [BitVec.or_comm]
    exact or_and_ne_zero f h
  rw [hheard]
  refine ⟨or_and_ne_zero _ (or_and_ne_zero flags (hset (by decide))), hset (by decide),
    signedAngle_near hd p.latitude (by decide), signedAngle_near hd p.longitude (by decide),
    altitude_near hd p.altitude p.geoidHeight, m, ?_, hm⟩
  rw [htime]

/-! ## The way of a sentence -/

omit [CFloat] in
/-- A line that fits is heard as a whole. -/
theorem heardFrom_line (env : NmeaEnv) (tvSec tvUsec : Int) (es : List ReceiverEvent)
    {cs : List Byte} (hcs : ch '\n' ∉ cs) {acc : List Byte}
    (hfits : (acc ++ cs ++ [ch '\n']).length ≤ nmeaMaxSize) :
    heardFrom false acc ((cs ++ [ch '\n']).map (.char env tvSec tvUsec) ++ es)
      = .line env tvSec tvUsec (acc ++ cs ++ [ch '\n']) :: heardFrom false [] es := by
  induction cs generalizing acc with
  | nil =>
      rw [List.append_nil] at hfits ⊢
      exact (if_pos rfl).trans (if_pos ⟨rfl, hfits⟩)
  | cons c cs ih =>
      rw [List.mem_cons, not_or] at hcs
      have hshift : acc ++ (c :: cs) = acc ++ [c] ++ cs := by simp
      rw [hshift] at hfits ⊢
      exact (if_neg (Ne.symm hcs.1)).trans (ih hcs.2 hfits)

end Location

/-- 12:35:56.5, 47°30' N 11°15' E, 499.5 m above the geoid: all of them are doubles. -/
def sampleReport : PositionReport where
  talker := [ch 'G', ch 'P']
  time :=
    { hour := 12, minute := 35, seconds := ⟨56, 1, 5, by decide⟩, hour_lt := by decide
      minute_lt := by decide, seconds_lt := by decide, places_le := by decide }
  latitude :=
    { degrees := 47, minutes := ⟨30, 2, 0, by decide⟩, negative := false, degrees_le := by decide
      degrees_lt := by decide, minutes_lt := by decide, width_pos := by decide
      places_pos := by decide, length_lt := by decide }
  longitude :=
    { degrees := 11, minutes := ⟨15, 2, 0, by decide⟩, negative := false, degrees_le := by decide
      degrees_lt := by decide, minutes_lt := by decide, width_pos := by decide
      places_pos := by decide, length_lt := by decide }
  quality := ch '1'
  satellites := [ch '0', ch '8']
  hdop := []
  altitude :=
    { negative := false, width := 3, size := ⟨499, 1, 5, by decide⟩, whole_lt := by decide
      width_pos := by decide, width_le := by decide, length_lt := by decide }
  geoidHeight :=
    { negative := false, width := 2, size := ⟨48, 1, 0, by decide⟩, whole_lt := by decide
      width_pos := by decide, width_le := by decide, length_lt := by decide }
  age := []
  station := []
  talker_length := rfl
  quality_fix := by decide
  plain := by decide

def sampleTail : SentenceTail := ⟨none, false⟩

end HtcLeo
