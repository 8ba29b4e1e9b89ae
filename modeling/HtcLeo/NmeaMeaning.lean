import HtcLeo.NmeaBody
import HtcLeo.NmeaEffects

/-!
# What a sentence says

The reader collects characters in a buffer, keeps pointers into it and
lets earlier lines stand behind the current one. What it does with all
that can be said without a buffer: a line is a list of fields, and each
kind of sentence updates the view of the receiver by the texts of its
fields (`GpsView.hear`).
-/

namespace HtcLeo

/-! ## Tokens -/

theorem Token.short_iff {t : Token} {n : Nat} (hn : 0 < n) :
    t.p + n > t.stop ↔ t.bytes.length < n := by
  rw [t.length_bytes]
  omega

theorem Token.empty_iff {t : Token} : t.p ≥ t.stop ↔ t.bytes = [] := by
  rw [← List.length_eq_zero_iff, t.length_bytes]
  omega

theorem Token.sub_drop {t : Token} {a : Nat} (ha : 0 < a) (h : a ≤ t.bytes.length) :
    t.sub a (t.stop - t.p) = t.bytes.drop a := by
  have hlen := t.length_bytes
  rw [Token.sub_eq (by omega) (by omega), List.take_of_length_le (by rw [List.length_drop]; omega)]

theorem Token.sub_take {t : Token} {a b : Nat} (hab : a < b) (h : b ≤ t.bytes.length) :
    t.sub a b = (t.bytes.drop a).take (b - a) := by
  have hlen := t.length_bytes
  exact Token.sub_eq (by omega) (by omega)

section

variable [CFloat]

open CFloat

/-! ## Fields -/

/-- The reader without its buffer. -/
structure GpsView where
  utcYear : Int
  utcMon : Int
  utcDay : Int
  utcDiff : Int
  fix : GpsLocation
  svStatus : GpsSvStatus
  svStatusChanged : Bool
  fixFlagsCached : BitVec 16

def NmeaReader.view (r : NmeaReader) : GpsView where
  utcYear := r.utcYear
  utcMon := r.utcMon
  utcDay := r.utcDay
  utcDiff := r.utcDiff
  fix := r.fix
  svStatus := r.svStatus
  svStatusChanged := r.svStatusChanged
  fixFlagsCached := r.fixFlagsCached

/-- Field `i` of a line, counted from the name of the sentence. -/
def fieldsOf (line : List Byte) (i : Nat) : List Byte :=
  if i < maxNmeaTokens then ((stripFrame line).splitOn (ch ',')).getD i [] else []

/-- The kind of a line; the reader does not look at one of less than nine characters. -/
def lineKind (line : List Byte) : SentenceKind :=
  if line.length < 9 then .unknown else sentenceKind (((fieldsOf line 0).drop 2).take 3)

namespace GpsView

/-- Without a date, today's. -/
def dated (env : NmeaEnv) (v : GpsView) : GpsView :=
  if v.utcYear < 0 then
    { v with
      utcYear := env.gmtimeNow.tmYear + 1900
      utcMon := env.gmtimeNow.tmMon + 1
      utcDay := env.gmtimeNow.tmMday }
  else v

/-- `hhmmss` with decimals of the second. -/
def atTime (env : NmeaEnv) (v : GpsView) (time : List Byte) : GpsView :=
  if time.length < 6 then v
  else
    let v := v.dated env
    let seconds : double := str2float (time.drop 4)
    let tm : Tm :=
      { tmHour := str2int (time.take 2), tmMin := str2int ((time.drop 2).take 2)
        tmSec := toInt seconds, tmYear := v.utcYear - 1900, tmMon := v.utcMon - 1
        tmMday := v.utcDay }
    { v with fix := { v.fix with
        timestamp := wrap32 (env.mktime tm + v.utcDiff) * 1000
          + (toInt (mul seconds (ofInt 1000))).tmod 1000 } }

/-- `ddmmyy`. -/
def onDate (env : NmeaEnv) (v : GpsView) (date time : List Byte) : GpsView :=
  let day := str2int (date.take 2)
  let mon := str2int ((date.drop 2).take 2)
  let year := str2int (date.drop 4) + 2000
  if date.length ≠ 6 ∨ anyNegative day mon year then v
  else atTime env { v with utcYear := year, utcMon := mon, utcDay := day } time

/-- Degrees and minutes. -/
def angle (text : List Byte) : double :=
  let val : double := str2float text
  let degrees := toInt (div (floor val) (ofInt 100))
  add (ofInt degrees) (div (sub val (mul (ofInt degrees) (literal 100 0))) (literal 60 0))

/-- An angle on one of two hemispheres; `south` is the one with a sign. -/
def signedAngle (text hemisphere : List Byte) (south : Byte) : double :=
  if hemisphere.head? = some south then neg (angle text) else angle text

def atPlace (v : GpsView) (latitude latitudeHemi longitude longitudeHemi : List Byte) : GpsView :=
  if latitude.length < 6 ∨ longitude.length < 6 then v
  else
    { v with fix := { v.fix with
        flags := v.fix.flags ||| gpsLocationHasLatLong
        latitude := signedAngle latitude latitudeHemi (ch 'S')
        longitude := signedAngle longitude longitudeHemi (ch 'W') } }

def atAltitude (v : GpsView) (altitude geoidHeight : List Byte) : GpsView :=
  if altitude = [] ∨ geoidHeight = [] then v
  else
    { v with fix := { v.fix with
        flags := v.fix.flags ||| gpsLocationHasAltitude
        altitude := add (str2float altitude) (str2float geoidHeight) } }

def withAccuracy (env : NmeaEnv) (v : GpsView) (hdop : List Byte) : GpsView :=
  if hdop = [] then v
  else
    { v with fix := { v.fix with
        flags := v.fix.flags ||| gpsLocationHasAccuracy
        accuracy := mulFloat (toFloat (str2float hdop)) (ofByte env.getPrecisionValue) } }

def withBearing (v : GpsView) (bearing : List Byte) : GpsView :=
  if bearing = [] then v
  else
    { v with fix := { v.fix with
        flags := v.fix.flags ||| gpsLocationHasBearing
        bearing := toFloat (str2float bearing) } }

/-- The speed is given in knots. -/
def withSpeed (v : GpsView) (speed : List Byte) : GpsView :=
  if speed = [] then v
  else
    { v with fix := { v.fix with
        flags := v.fix.flags ||| gpsLocationHasSpeed
        speed := toFloat (div (mul (ofFloat (toFloat (str2float speed))) (literal 1852 3))
          (literal 36 1)) } }

/-- The satellite with the fields from `4 * i + 4` on. -/
def satellite (f : Nat → List Byte) (i : Nat) : GpsSvInfo where
  prn := str2int (f (i * 4 + 4))
  snr := toFloat (str2float (f (i * 4 + 7)))
  elevation := toFloat (str2float (f (i * 4 + 5)))
  azimuth := toFloat (str2float (f (i * 4 + 6)))

/-- Satellites with a signal go to their places in the table, as long as fewer than `total`
are in it. -/
def withSatellites (f : Nat → List Byte) (total : Int) :
    (n i : Nat) → (place : Int) → GpsSvStatus → GpsSvStatus
  | 0, _, _, sv => sv
  | n + 1, i, place, sv =>
      if sv.numSvs < total then
        withSatellites f total n (i + 1) (place + 1)
          (if isPos (satellite f i).snr then
            { sv with
              svList := Function.update sv.svList place (satellite f i)
              numSvs := sv.numSvs + 1 }
          else sv)
      else sv

/-- The sentence `no` of a group of `of`. -/
def inView (v : GpsView) (f : Nat → List Byte) : GpsView :=
  let no := str2int (f 2)
  if str2int (f 3) > 0 then
    let v :=
      if no = 1 then
        { v with
          svStatusChanged := false
          svStatus := { v.svStatus with numSvs := 0, svList := clearSvList v.svStatus.svList } }
      else v
    { v with
      svStatus :=
        withSatellites f (str2int (f 3)) 4 0 (wrap32 (wrap32 (no - 1) * 4)) v.svStatus
      svStatusChanged := if no = str2int (f 1) then true else v.svStatusChanged }
  else v

/-- The satellites of the fields from `i` on. -/
def usedMask (f : Nat → List Byte) : (n i : Nat) → Word → Word
  | 0, _, mask => mask
  | n + 1, i, mask =>
      usedMask f n (i + 1)
        (if str2int (f i) > 0 then mask ||| shiftOne (str2int (f i) - 1) else mask)

def active (v : GpsView) (f : Nat → List Byte) : GpsView :=
  let fixed := (f 2).head? = some (ch '3') ∨ (f 2).head? = some (ch '2')
  { v with
    svStatus := { v.svStatus with usedInFixMask := if fixed then usedMask f 12 3 0 else 0 }
    svStatusChanged := true }

def hear (env : NmeaEnv) (v : GpsView) (line : List Byte) : GpsView :=
  let f := fieldsOf line
  match lineKind line with
  | .gsv => v.inView f
  | .gga =>
      if (f 6).head?.any fun b => b.toNat > (ch '0').toNat then
        (((v.atTime env (f 1)).atPlace (f 2) (f 3) (f 4) (f 5)).withAccuracy env (f 8)).atAltitude
          (f 9) (f 11)
      else v
  | .rmc =>
      if (f 2).head? = some (ch 'A') then
        (((v.onDate env (f 9) (f 1)).atPlace (f 3) (f 4) (f 5) (f 6)).withBearing (f 8)).withSpeed
          (f 7)
      else v
  | .gsa => v.active f
  | .unknown => v

end GpsView

/-! ## The updates of the reader -/

section Updates

variable (env : NmeaEnv) (r : NmeaReader)

theorem withDate_view : (withDate env r).view = r.view.dated env := by
  unfold withDate GpsView.dated
  change (if r.utcYear < 0 then _ else r).view = if r.utcYear < 0 then _ else _
  split_ifs <;> rfl

theorem updateTime_view (tok : Token) :
    (nmeaReaderUpdateTime env r tok).2.view = r.view.atTime env tok.bytes := by
  unfold nmeaReaderUpdateTime GpsView.atTime
  simp only [Token.short_iff (show 0 < 6 by decide)]
  split_ifs with hshort
  · rfl
  · rw [← withDate_view, Token.sub_take (by decide) (by omega),
      Token.sub_take (by decide) (by omega), Token.sub_drop (by decide) (by omega)]
    rfl

theorem updateDate_view (date time : Token) :
    (nmeaReaderUpdateDate env r date time).2.view
      = r.view.onDate env date.bytes time.bytes := by
  unfold nmeaReaderUpdateDate GpsView.onDate
  have hlen := date.length_bytes
  by_cases hsix : date.bytes.length = 6
  · have hlast : ((date.bytes.drop 4).take 2) = date.bytes.drop 4 :=
      List.take_of_length_le (by rw [List.length_drop]; omega)
    rw [if_neg (show ¬ date.p + 6 ≠ date.stop by omega), Token.sub_take (by decide) (by omega),
      Token.sub_take (by decide) (by omega), Token.sub_take (by decide) (by omega), hlast]
    simp only [hsix, ne_eq, not_true_eq_false, false_or, List.drop_zero]
    split_ifs
    · rfl
    · exact updateTime_view env _ time
  · rw [if_pos (show date.p + 6 ≠ date.stop by omega), if_pos (.inl hsix)]

theorem signedAngle_token {tok : Token} {hemi : Token} (hown : hemi.TestsOwn) {c : Char}
    (hc : c ∈ ['A', 'S', 'W', '2', '3']) :
    (if hemi.first = ch c then neg (convertFromHhmm tok) else convertFromHhmm tok)
      = GpsView.signedAngle tok.bytes hemi.bytes (ch c) := by
  rw [GpsView.signedAngle]
  simp only [hown.letter c hc]
  rfl

theorem updateLatlong_view {lat latHemi lon lonHemi : Token} (hlat : latHemi.TestsOwn)
    (hlon : lonHemi.TestsOwn) :
    (nmeaReaderUpdateLatlong r lat latHemi.first lon lonHemi.first).2.view
      = r.view.atPlace lat.bytes latHemi.bytes lon.bytes lonHemi.bytes := by
  unfold nmeaReaderUpdateLatlong GpsView.atPlace
  simp only [Token.short_iff (show 0 < 6 by decide), signedAngle_token hlat (c := 'S') (by simp),
    signedAngle_token hlon (c := 'W') (by simp)]
  by_cases hl : lat.bytes.length < 6
  · rw [if_pos hl, if_pos (.inl hl)]
  · by_cases ho : lon.bytes.length < 6
    · rw [if_neg hl, if_pos ho, if_pos (.inr ho)]
    · rw [if_neg hl, if_neg ho, if_neg (not_or.mpr ⟨hl, ho⟩)]
      rfl

theorem updateAltitude_view (altitude geoid : Token) :
    (nmeaReaderUpdateAltitude r altitude geoid).2.view
      = r.view.atAltitude altitude.bytes geoid.bytes := by
  unfold nmeaReaderUpdateAltitude GpsView.atAltitude
  simp only [Token.empty_iff]
  by_cases ha : altitude.bytes = []
  · rw [if_pos ha, if_pos (.inl ha)]
  · by_cases hg : geoid.bytes = []
    · rw [if_neg ha, if_pos hg, if_pos (.inr hg)]
    · rw [if_neg ha, if_neg hg, if_neg (not_or.mpr ⟨ha, hg⟩)]
      rfl

theorem updateAccuracy_view (tok : Token) :
    (nmeaReaderUpdateAccuracy env r tok).2.view = r.view.withAccuracy env tok.bytes := by
  unfold nmeaReaderUpdateAccuracy GpsView.withAccuracy
  simp only [Token.empty_iff]
  split_ifs <;> rfl

theorem updateBearing_view (tok : Token) :
    (nmeaReaderUpdateBearing r tok).2.view = r.view.withBearing tok.bytes := by
  unfold nmeaReaderUpdateBearing GpsView.withBearing
  simp only [Token.empty_iff]
  split_ifs <;> rfl

theorem updateSpeed_view (tok : Token) :
    (nmeaReaderUpdateSpeed r tok).2.view = r.view.withSpeed tok.bytes := by
  unfold nmeaReaderUpdateSpeed GpsView.withSpeed
  simp only [Token.empty_iff]
  split_ifs <;> rfl

end Updates

/-! ## The sentences -/

section Sentences

variable {tz : NmeaTokenizer} {f : Nat → List Byte}

theorem gsvLoop_view (hf : ∀ i, (nmeaTokenizerGet tz i).bytes = f i) (total : Int) (n i : Nat)
    (place : Int) (sv : GpsSvStatus) :
    (gsvLoop tz total n i place sv).1 = GpsView.withSatellites f total n i place sv := by
  induction n generalizing i place sv with
  | zero => rfl
  | succ n ih =>
      have hinfo : gsvInfo tz i = GpsView.satellite f i := by
        simp only [gsvInfo, gsvSnr, GpsView.satellite, hf]
      have hsnr : gsvSnr tz i = (GpsView.satellite f i).snr := by
        simp only [gsvSnr, GpsView.satellite, hf]
      rw [gsvLoop, GpsView.withSatellites]
      split_ifs with hroom hsignal hsignal'
      · simp only [hinfo, ih]
      · rw [hsnr] at hsignal
        exact absurd hsignal ‹_›
      · rw [hsnr] at hsignal
        exact absurd ‹_› hsignal
      · exact ih ..
      · rfl

omit [CFloat] in
theorem gsaLoop_view (hf : ∀ i, (nmeaTokenizerGet tz i).bytes = f i) (n i : Nat) (mask : Word) :
    (gsaLoop tz n i mask).1 = GpsView.usedMask f n i mask := by
  induction n generalizing i mask with
  | zero => rfl
  | succ n ih =>
      rw [gsaLoop, GpsView.usedMask, hf]
      simp only
      split_ifs <;> exact ih ..

variable (env : NmeaEnv) (r : NmeaReader)

theorem parseGsv_view (hf : ∀ i, (nmeaTokenizerGet tz i).bytes = f i) :
    (parseGsv r tz).reader.view = r.view.inView f := by
  have hbegin : (gsvBegin r tz).view
      = if str2int (f 2) = 1 then
          { r.view with
            svStatusChanged := false
            svStatus :=
              { r.view.svStatus with numSvs := 0, svList := clearSvList r.view.svStatus.svList } }
        else r.view := by
    unfold gsvBegin gsvSentenceNo
    rw [hf]
    split_ifs <;> rfl
  unfold parseGsv GpsView.inView
  simp only [gsvNumSvs, gsvCurr, gsvSentenceNo, gsvTotalSentences, hf, gsvLoop_view hf]
  by_cases htotal : str2int (f 3) > 0
  · rw [if_pos htotal, if_pos htotal, ← hbegin]
    rfl
  · rw [if_neg htotal, if_neg htotal]

theorem parseGga_view (hf : ∀ i, (nmeaTokenizerGet tz i).bytes = f i)
    (hown : ∀ i, (nmeaTokenizerGet tz i).TestsOwn) :
    (parseGga env r tz).reader.view
      = if (f 6).head?.any fun b => b.toNat > (ch '0').toNat then
          (((r.view.atTime env (f 1)).atPlace (f 2) (f 3) (f 4) (f 5)).withAccuracy env
            (f 8)).atAltitude (f 9) (f 11)
        else r.view := by
  have hquality : (nmeaTokenizerGet tz 6).first.toNat > (ch '0').toNat
      ↔ ((f 6).head?.any fun b => b.toNat > (ch '0').toNat) = true := by
    rw [(hown 6).aboveZero, hf]
    simp [Option.any_eq_true]
  unfold parseGga
  by_cases hfix : (nmeaTokenizerGet tz 6).first.toNat > (ch '0').toNat
  · rw [if_pos hfix, if_pos (hquality.mp hfix)]
    simp only [updateAltitude_view, updateAccuracy_view, updateLatlong_view _ (hown 3) (hown 5),
      updateTime_view, hf]
  · rw [if_neg hfix, if_neg fun h => hfix (hquality.mpr h)]

theorem parseRmc_view (hf : ∀ i, (nmeaTokenizerGet tz i).bytes = f i)
    (hown : ∀ i, (nmeaTokenizerGet tz i).TestsOwn) :
    (parseRmc env r tz).reader.view
      = if (f 2).head? = some (ch 'A') then
          (((r.view.onDate env (f 9) (f 1)).atPlace (f 3) (f 4) (f 5) (f 6)).withBearing
            (f 8)).withSpeed (f 7)
        else r.view := by
  have hstatus : (nmeaTokenizerGet tz 2).first = ch 'A' ↔ (f 2).head? = some (ch 'A') := by
    rw [(hown 2).letter 'A' (by simp), hf]
  unfold parseRmc
  by_cases hactive : (nmeaTokenizerGet tz 2).first = ch 'A'
  · rw [if_pos hactive, if_pos (hstatus.mp hactive)]
    simp only [updateSpeed_view, updateBearing_view, updateLatlong_view _ (hown 4) (hown 6),
      updateDate_view, hf]
  · rw [if_neg hactive, if_neg fun h => hactive (hstatus.mpr h)]

theorem parseGsa_view (hf : ∀ i, (nmeaTokenizerGet tz i).bytes = f i)
    (hown : ∀ i, (nmeaTokenizerGet tz i).TestsOwn) :
    (parseGsa r tz).reader.view = r.view.active f := by
  have hthree := (hown 2).letter '3' (by simp)
  have htwo := (hown 2).letter '2' (by simp)
  rw [hf] at hthree htwo
  unfold parseGsa GpsView.active
  simp only [hthree, htwo]
  split_ifs with hfixed
  · rw [← gsaLoop_view hf]
    rfl
  · rfl

end Sentences

omit [CFloat] in
/-- The fields of the line in the buffer. -/
theorem fieldsOf_bytes {m : Mem} {n : Nat} {line : List Byte} (hline : m.slice 0 n = line)
    (i : Nat) : (nmeaTokenizerGet (nmeaTokenizerInit m 0 n) i).bytes = fieldsOf line i := by
  rw [nmeaTokenizerGet_bytes, sentenceBody_eq, hline, fieldsOf]

omit [CFloat] in
/-- A name of less than five characters names no sentence. -/
theorem bufferKind_line {m : Mem} {n : Nat} {line : List Byte} (hline : m.slice 0 n = line) :
    bufferKind m n = lineKind line := by
  have hlength : line.length = n := by rw [← hline, Mem.length_slice]
  have hbytes := fieldsOf_bytes hline 0
  rw [bufferKind, lineKind, hlength]
  by_cases hn : n < 9
  · rw [if_pos hn, if_pos hn]
  rw [if_neg hn, if_neg hn]
  simp only [Token.short_iff (show 0 < 5 by decide), hbytes]
  split_ifs with hshort
  · have hlen : (((fieldsOf line 0).drop 2).take 3).length ≠ 3 := by
      rw [List.length_take, List.length_drop]
      omega
    unfold sentenceKind
    split_ifs with h h h h
    all_goals first | rfl | exact absurd (congrArg List.length h) hlen
  · rw [Token.sub_take (by decide) (by rw [hbytes]; omega), hbytes]

/-- **One line.** The parser does with the buffer what the line says. -/
theorem nmeaReaderParse_view (env : NmeaEnv) (r : NmeaReader) :
    (nmeaReaderParse env r).reader.view = r.view.hear env (r.inBuf.slice 0 r.pos) := by
  have hf := fieldsOf_bytes (m := r.inBuf) (n := r.pos) rfl
  have hown := nmeaTokenizerGet_testsOwn r.inBuf r.pos
  rw [nmeaReaderParse_eq, bufferKind_line rfl, GpsView.hear]
  cases lineKind (r.inBuf.slice 0 r.pos) with
  | gsv => exact parseGsv_view r hf
  | gga => exact parseGga_view env r hf hown
  | rmc => exact parseRmc_view env r hf hown
  | gsa => exact parseGsa_view r hf hown
  | unknown => rfl

end

end HtcLeo
