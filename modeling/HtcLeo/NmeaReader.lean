import HtcLeo.NmeaToken

/-!
# NMEA reader (`libgps/leo-gps.c`)

The reader collects the characters of a sentence (`nmeaReaderAddc`) and
parses each complete sentence into the current fix and satellite table
(`nmeaReaderParse`). The clock, the C library's `mktime` and the
configured precision are inputs of a parse (`NmeaEnv`).

A parse returns, beside the reader, what it did on the way: the indices
of `sv_list` it assigned, the amounts it shifted by, the fields of the
fix it assigned, and whether it reported the sentence. The update
functions return the source's status code, `0` or `-1`, with the reader;
the parser ignores the code, and the trace is the only other use of it.

The parser can store at an index outside `sv_list`, where the program has
other members of the reader (`HtcLeo.GsvTable` lays them out). The index
is recorded like any other, but what the store does to the member is not
modelled: results about the reader ask that the stores stay in the table.
-/

namespace HtcLeo

/-- The fields of `struct tm` that `mktime` reads; `tm_isdst` is 0. -/
structure Tm where
  tmHour : Int
  tmMin : Int
  tmSec : Int
  tmYear : Int
  tmMon : Int
  tmMday : Int

/-- What a parse takes from outside the reader. -/
structure NmeaEnv where
  /-- `gmtime_r` of the current time. -/
  gmtimeNow : Tm
  mktime : Tm → Int
  getPrecisionValue : Byte

def gpsMaxSvs : Int := 32

def nmeaMaxSize : Nat := 255

def gpsLocationHasLatLong : BitVec 16 := 0x0001
def gpsLocationHasAltitude : BitVec 16 := 0x0002
def gpsLocationHasSpeed : BitVec 16 := 0x0004
def gpsLocationHasBearing : BitVec 16 := 0x0008
def gpsLocationHasAccuracy : BitVec 16 := 0x0010

section

variable [CFloat]

open CFloat

structure GpsLocation where
  flags : BitVec 16
  latitude : double
  longitude : double
  altitude : double
  speed : float
  bearing : float
  accuracy : float
  timestamp : Int

structure GpsSvInfo where
  prn : Int
  snr : float
  elevation : float
  azimuth : float

/-- Entries `0 .. gpsMaxSvs - 1` of `svList` are the array. At the other indices
stand the other members of the reader, and nothing below reads them. -/
structure GpsSvStatus where
  numSvs : Int
  svList : Int → GpsSvInfo
  ephemerisMask : Word
  almanacMask : Word
  usedInFixMask : Word

structure NmeaReader where
  pos : Nat
  overflow : Bool
  utcYear : Int
  utcMon : Int
  utcDay : Int
  utcDiff : Int
  fix : GpsLocation
  svStatus : GpsSvStatus
  svStatusChanged : Bool
  fixFlagsCached : BitVec 16
  /-- The array `in[NMEA_MAX_SIZE + 1]`. -/
  inBuf : Mem

/-- What `memset` leaves in an entry of the table. -/
def GpsSvInfo.zero : GpsSvInfo := ⟨0, zeroFloat, zeroFloat, zeroFloat⟩

/-- `memset(sv_list, 0, sizeof(sv_list))`. -/
def clearSvList (l : Int → GpsSvInfo) : Int → GpsSvInfo := fun i =>
  if 0 ≤ i ∧ i < gpsMaxSvs then .zero else l i

/-- The fields of the fix a sentence can assign. -/
inductive FixField where
  | timestamp
  | latLong
  | altitude
  | accuracy
  | bearing
  | speed
deriving DecidableEq, Repr

/-- The reader after a parse, and what the parse did. -/
structure ParseOut where
  reader : NmeaReader
  /-- Indices of `sv_list` assigned. -/
  svWrites : List Int := []
  /-- Amounts `1ul` was shifted by. -/
  shifts : List Int := []
  /-- Fields of the fix assigned. -/
  assigned : List FixField := []
  /-- Whether `update_gps_nmea` was called. -/
  reported : Bool := false

/-! ## Field updates -/

/-- `memset` and the explicit assignments; `utc_diff` is computed from the
local time zone. -/
def nmeaReaderInit (utcDiff : Int) : NmeaReader where
  pos := 0
  overflow := false
  utcYear := -1
  utcMon := -1
  utcDay := -1
  utcDiff := utcDiff
  fix := ⟨0, zeroDouble, zeroDouble, zeroDouble, zeroFloat, zeroFloat, zeroFloat, 0⟩
  svStatus := ⟨0, fun _ => .zero, 0, 0, 0⟩
  svStatusChanged := false
  fixFlagsCached := 0
  inBuf := fun _ => 0

/-- The date used while none was received: the current one. -/
def withDate (env : NmeaEnv) (r : NmeaReader) : NmeaReader :=
  if r.utcYear < 0 then
    { r with
      utcYear := env.gmtimeNow.tmYear + 1900
      utcMon := env.gmtimeNow.tmMon + 1
      utcDay := env.gmtimeNow.tmMday }
  else r

def nmeaReaderUpdateTime (env : NmeaEnv) (r : NmeaReader) (tok : Token) : Int × NmeaReader :=
  if tok.p + 6 > tok.stop then (-1, r)
  else
    let r := withDate env r
    let hour := str2int (tok.sub 0 2)
    let minute := str2int (tok.sub 2 4)
    let seconds : double := str2float (tok.sub 4 (tok.stop - tok.p))
    let tm : Tm :=
      { tmHour := hour, tmMin := minute, tmSec := toInt seconds
        tmYear := r.utcYear - 1900, tmMon := r.utcMon - 1, tmMday := r.utcDay }
    let fixTime := wrap32 (env.mktime tm + r.utcDiff)
    let millis := (toInt (mul seconds (ofInt 1000))).tmod 1000
    (0, { r with fix := { r.fix with timestamp := fixTime * 1000 + millis } })

/-- `(day|mon|year) < 0`: the bitwise or of `int`s is negative when one is. -/
def anyNegative (day mon year : Int) : Bool := day < 0 || mon < 0 || year < 0

def nmeaReaderUpdateDate (env : NmeaEnv) (r : NmeaReader) (date time : Token) :
    Int × NmeaReader :=
  if date.p + 6 ≠ date.stop then (-1, r)
  else
    let day := str2int (date.sub 0 2)
    let mon := str2int (date.sub 2 4)
    let year := str2int (date.sub 4 6) + 2000
    if anyNegative day mon year then (-1, r)
    else
      nmeaReaderUpdateTime env { r with utcYear := year, utcMon := mon, utcDay := day } time

def convertFromHhmm (tok : Token) : double :=
  let val : double := str2float tok.bytes
  let degrees := toInt (div (floor val) (ofInt 100))
  let minutes := sub val (mul (ofInt degrees) (literal 100 0))
  add (ofInt degrees) (div minutes (literal 60 0))

def nmeaReaderUpdateLatlong (r : NmeaReader) (latitude : Token) (latitudeHemi : Byte)
    (longitude : Token) (longitudeHemi : Byte) : Int × NmeaReader :=
  if latitude.p + 6 > latitude.stop then (-1, r)
  else
    let lat := convertFromHhmm latitude
    let lat := if latitudeHemi = ch 'S' then neg lat else lat
    if longitude.p + 6 > longitude.stop then (-1, r)
    else
      let lon := convertFromHhmm longitude
      let lon := if longitudeHemi = ch 'W' then neg lon else lon
      (0, { r with fix := { r.fix with
        flags := r.fix.flags ||| gpsLocationHasLatLong, latitude := lat, longitude := lon } })

def nmeaReaderUpdateAltitude (r : NmeaReader) (altitude geoidHeight : Token) : Int × NmeaReader :=
  if altitude.p ≥ altitude.stop then (-1, r)
  else if geoidHeight.p ≥ geoidHeight.stop then (-1, r)
  else
    (0, { r with fix := { r.fix with
      flags := r.fix.flags ||| gpsLocationHasAltitude
      altitude := add (str2float altitude.bytes) (str2float geoidHeight.bytes) } })

def nmeaReaderUpdateAccuracy (env : NmeaEnv) (r : NmeaReader) (accuracy : Token) :
    Int × NmeaReader :=
  if accuracy.p ≥ accuracy.stop then (-1, r)
  else
    let precision := ofByte env.getPrecisionValue
    (0, { r with fix := { r.fix with
      flags := r.fix.flags ||| gpsLocationHasAccuracy
      accuracy := mulFloat (toFloat (str2float accuracy.bytes)) precision } })

def nmeaReaderUpdateBearing (r : NmeaReader) (bearing : Token) : Int × NmeaReader :=
  if bearing.p ≥ bearing.stop then (-1, r)
  else
    (0, { r with fix := { r.fix with
      flags := r.fix.flags ||| gpsLocationHasBearing
      bearing := toFloat (str2float bearing.bytes) } })

def nmeaReaderUpdateSpeed (r : NmeaReader) (speed : Token) : Int × NmeaReader :=
  if speed.p ≥ speed.stop then (-1, r)
  else
    let knots := ofFloat (toFloat (str2float speed.bytes))
    (0, { r with fix := { r.fix with
      flags := r.fix.flags ||| gpsLocationHasSpeed
      speed := toFloat (div (mul knots (literal 1852 3)) (literal 36 1)) } })

/-- The field, when its update returned 0. -/
def assignedIf (status : Int) (field : FixField) : List FixField :=
  if status = 0 then [field] else []

/-! ## Sentences -/

/-- The four fields of entry `i` of a GSV sentence. -/
def gsvSnr (tz : NmeaTokenizer) (i : Nat) : float :=
  toFloat (str2float (nmeaTokenizerGet tz (i * 4 + 7)).bytes)

def gsvInfo (tz : NmeaTokenizer) (i : Nat) : GpsSvInfo where
  prn := str2int (nmeaTokenizerGet tz (i * 4 + 4)).bytes
  snr := gsvSnr tz i
  elevation := toFloat (str2float (nmeaTokenizerGet tz (i * 4 + 5)).bytes)
  azimuth := toFloat (str2float (nmeaTokenizerGet tz (i * 4 + 6)).bytes)

/-- The entry loop of a GSV sentence: `n` rounds are left, the next one at
entry `i` and index `curr`. Returns the indices assigned with the table. -/
def gsvLoop (tz : NmeaTokenizer) (numSvs : Int) :
    (n i : Nat) → (curr : Int) → GpsSvStatus → GpsSvStatus × List Int
  | 0, _, _, sv => (sv, [])
  | n + 1, i, curr, sv =>
      if sv.numSvs < numSvs then
        if isPos (gsvSnr tz i) then
          let sv' := { sv with
            svList := Function.update sv.svList curr (gsvInfo tz i)
            numSvs := sv.numSvs + 1 }
          let (sv'', writes) := gsvLoop tz numSvs n (i + 1) (curr + 1) sv'
          (sv'', curr :: writes)
        else
          gsvLoop tz numSvs n (i + 1) (curr + 1) sv
      else (sv, [])

/-- The number of satellites announced by a GSV sentence. -/
def gsvNumSvs (tz : NmeaTokenizer) : Int := str2int (nmeaTokenizerGet tz 3).bytes

def gsvTotalSentences (tz : NmeaTokenizer) : Int := str2int (nmeaTokenizerGet tz 1).bytes

def gsvSentenceNo (tz : NmeaTokenizer) : Int := str2int (nmeaTokenizerGet tz 2).bytes

/-- Index of the sentence's first entry: `(sentence_no - 1) * 4`. -/
def gsvCurr (tz : NmeaTokenizer) : Int := wrap32 (wrap32 (gsvSentenceNo tz - 1) * 4)

/-- The first sentence of a group starts a new table. -/
def gsvBegin (r : NmeaReader) (tz : NmeaTokenizer) : NmeaReader :=
  if gsvSentenceNo tz = 1 then
    { r with
      svStatusChanged := false
      svStatus := { r.svStatus with numSvs := 0, svList := clearSvList r.svStatus.svList } }
  else r

/-- Satellites in View. -/
def parseGsv (r : NmeaReader) (tz : NmeaTokenizer) : ParseOut :=
  if gsvNumSvs tz > 0 then
    let r := gsvBegin r tz
    let loop := gsvLoop tz (gsvNumSvs tz) 4 0 (gsvCurr tz) r.svStatus
    { reader := { r with
        svStatus := loop.1
        svStatusChanged :=
          if gsvSentenceNo tz = gsvTotalSentences tz then true else r.svStatusChanged }
      svWrites := loop.2 }
  else { reader := r }

/-- GPS fix. -/
def parseGga (env : NmeaEnv) (r : NmeaReader) (tz : NmeaTokenizer) : ParseOut :=
  -- fix quality: {0 = invalid}, {1 = GPS fix}, ...; `char` is unsigned on the target
  if (nmeaTokenizerGet tz 6).first.toNat > (ch '0').toNat then
    let (tTime, r) := nmeaReaderUpdateTime env r (nmeaTokenizerGet tz 1)
    let (tPos, r) := nmeaReaderUpdateLatlong r (nmeaTokenizerGet tz 2)
      (nmeaTokenizerGet tz 3).first (nmeaTokenizerGet tz 4) (nmeaTokenizerGet tz 5).first
    let (tAcc, r) := nmeaReaderUpdateAccuracy env r (nmeaTokenizerGet tz 8)
    let (tAlt, r) := nmeaReaderUpdateAltitude r (nmeaTokenizerGet tz 9) (nmeaTokenizerGet tz 11)
    { reader := r
      assigned := assignedIf tTime .timestamp ++ assignedIf tPos .latLong
        ++ assignedIf tAcc .accuracy ++ assignedIf tAlt .altitude
      reported := true }
  else { reader := r, reported := true }

/-- Recommended minimum specific GPS/Transit data. -/
def parseRmc (env : NmeaEnv) (r : NmeaReader) (tz : NmeaTokenizer) : ParseOut :=
  -- status: {A = active} or {V = void}
  if (nmeaTokenizerGet tz 2).first = ch 'A' then
    let (tTime, r) := nmeaReaderUpdateDate env r (nmeaTokenizerGet tz 9) (nmeaTokenizerGet tz 1)
    let (tPos, r) := nmeaReaderUpdateLatlong r (nmeaTokenizerGet tz 3)
      (nmeaTokenizerGet tz 4).first (nmeaTokenizerGet tz 5) (nmeaTokenizerGet tz 6).first
    let (tBear, r) := nmeaReaderUpdateBearing r (nmeaTokenizerGet tz 8)
    let (tSpd, r) := nmeaReaderUpdateSpeed r (nmeaTokenizerGet tz 7)
    { reader := r
      assigned := assignedIf tTime .timestamp ++ assignedIf tPos .latLong
        ++ assignedIf tBear .bearing ++ assignedIf tSpd .speed
      reported := true }
  else { reader := r, reported := true }

/-- `1ul << n` on the target: the register shift takes the low byte of the
amount and gives 0 from 32 on. -/
def shiftOne (n : Int) : Word :=
  BitVec.ofNat 32 (1 <<< (n % 256).toNat)

/-- The PRN loop of a GSA sentence over the fields from `i` on. -/
def gsaLoop (tz : NmeaTokenizer) : (n i : Nat) → Word → Word × List Int
  | 0, _, mask => (mask, [])
  | n + 1, i, mask =>
      let prn := str2int (nmeaTokenizerGet tz i).bytes
      if prn > 0 then
        let (mask', shifts) := gsaLoop tz n (i + 1) (mask ||| shiftOne (prn - 1))
        (mask', (prn - 1) :: shifts)
      else gsaLoop tz n (i + 1) mask

/-- GPS DOP and active satellites. -/
def parseGsa (r : NmeaReader) (tz : NmeaTokenizer) : ParseOut :=
  let fixStatus := (nmeaTokenizerGet tz 2).first
  -- {3 = 3D fix}, {2 = 2D fix}, {1 = no fix}
  let (mask, shifts) := if fixStatus = ch '3' ∨ fixStatus = ch '2' then gsaLoop tz 12 3 0
    else (0, [])
  { reader := { r with
      svStatus := { r.svStatus with usedInFixMask := mask }
      svStatusChanged := true }
    shifts := shifts
    reported := true }

/-- The sentence kinds the parser tells apart by the three characters after
the talker. -/
inductive SentenceKind where
  | gsv
  | gga
  | rmc
  | gsa
  | unknown
deriving DecidableEq, Repr

/-- The chain of `memcmp`s on the sentence id. -/
def sentenceKind (id : List Byte) : SentenceKind :=
  if id = [ch 'G', ch 'S', ch 'V'] then .gsv
  else if id = [ch 'G', ch 'G', ch 'A'] then .gga
  else if id = [ch 'R', ch 'M', ch 'C'] then .rmc
  else if id = [ch 'G', ch 'S', ch 'A'] then .gsa
  else .unknown

def nmeaReaderParse (env : NmeaEnv) (r : NmeaReader) : ParseOut :=
  if r.pos < 9 then { reader := r }
  else
    let tz := nmeaTokenizerInit r.inBuf 0 r.pos
    let tok := nmeaTokenizerGet tz 0
    if tok.p + 5 > tok.stop then { reader := r }
    else
      match sentenceKind (tok.sub 2 5) with
      | .gsv => parseGsv r tz
      | .gga => parseGga env r tz
      | .rmc => parseRmc env r tz
      | .gsa => parseGsa r tz
      | .unknown => { reader := r }

/-! ## Characters -/

/-- One character. With the reader, returns the buffers `in[0 .. pos)` that
`nmea_reader_parse` was called with. -/
def nmeaReaderAddc (env : NmeaEnv) (r : NmeaReader) (c : Byte) : NmeaReader × List (List Byte) :=
  if r.overflow then ({ r with overflow := c ≠ ch '\n' }, [])
  else if r.pos ≥ nmeaMaxSize then ({ r with overflow := true, pos := 0 }, [])
  else
    let r := { r with inBuf := Function.update r.inBuf r.pos c, pos := r.pos + 1 }
    if c = ch '\n' then
      ({ (nmeaReaderParse env r).reader with pos := 0 }, [r.inBuf.slice 0 r.pos])
    else (r, [])

/-- Characters one by one, each with the environment at its time. -/
def nmeaReaderFeed (r : NmeaReader) : List (NmeaEnv × Byte) → NmeaReader × List (List Byte)
  | [] => (r, [])
  | (env, c) :: rest =>
      let (r', lines) := nmeaReaderAddc env r c
      let (r'', more) := nmeaReaderFeed r' rest
      (r'', lines ++ more)

end

end HtcLeo
