import HtcLeo.NmeaReader

/-!
# What a sentence can change

The parser is one dispatch on the sentence kind (`nmeaReaderParse_eq`).
GGA and RMC sentences touch the fix and the date (`FixStep`), GSV and
GSA sentences the satellite table (`SvStep`); nothing touches the
character buffer. The invariants of the later files are proved from
these two relations and from the status codes of the updates, without
unfolding the parser again.
-/

namespace HtcLeo

variable [CFloat]

/-! ## Dispatch -/

/-- The kind of the sentence in `m[0 .. pos)`; a sentence that is too short is
ignored like an unknown one. -/
def bufferKind (m : Mem) (pos : Nat) : SentenceKind :=
  if pos < 9 then .unknown
  else
    let tok := nmeaTokenizerGet (nmeaTokenizerInit m 0 pos) 0
    if tok.p + 5 > tok.stop then .unknown else sentenceKind (tok.sub 2 5)

theorem nmeaReaderParse_eq (env : NmeaEnv) (r : NmeaReader) :
    nmeaReaderParse env r =
      match bufferKind r.inBuf r.pos with
      | .gsv => parseGsv r (nmeaTokenizerInit r.inBuf 0 r.pos)
      | .gga => parseGga env r (nmeaTokenizerInit r.inBuf 0 r.pos)
      | .rmc => parseRmc env r (nmeaTokenizerInit r.inBuf 0 r.pos)
      | .gsa => parseGsa r (nmeaTokenizerInit r.inBuf 0 r.pos)
      | .unknown => { reader := r } := by
  unfold nmeaReaderParse bufferKind
  by_cases hpos : r.pos < 9
  · simp only [hpos, if_true]
  · simp only [hpos, if_false]
    split
    · rfl
    · rfl

/-! ## Steps on the fix -/

/-- `r'` differs from `r` at most in the fix and the date. -/
def FixStep (r r' : NmeaReader) : Prop :=
  ∃ fix year mon day,
    r' = { r with fix := fix, utcYear := year, utcMon := mon, utcDay := day }

theorem FixStep.refl (r : NmeaReader) : FixStep r r := ⟨_, _, _, _, rfl⟩

theorem FixStep.trans {r r' r'' : NmeaReader} (h : FixStep r r') (h' : FixStep r' r'') :
    FixStep r r'' := by
  obtain ⟨_, _, _, _, rfl⟩ := h
  obtain ⟨_, _, _, _, rfl⟩ := h'
  exact ⟨_, _, _, _, rfl⟩

theorem withDate_fixStep (env : NmeaEnv) (r : NmeaReader) : FixStep r (withDate env r) := by
  unfold withDate
  split
  · exact ⟨_, _, _, _, rfl⟩
  · exact .refl r

theorem nmeaReaderUpdateTime_fixStep (env : NmeaEnv) (r : NmeaReader) (tok : Token) :
    FixStep r (nmeaReaderUpdateTime env r tok).2 := by
  unfold nmeaReaderUpdateTime
  split
  · exact .refl r
  · exact (withDate_fixStep env r).trans ⟨_, _, _, _, rfl⟩

theorem nmeaReaderUpdateDate_fixStep (env : NmeaEnv) (r : NmeaReader) (date time : Token) :
    FixStep r (nmeaReaderUpdateDate env r date time).2 := by
  unfold nmeaReaderUpdateDate
  split
  · exact .refl r
  · simp only
    split
    · exact .refl r
    · exact FixStep.trans ⟨_, _, _, _, rfl⟩ (nmeaReaderUpdateTime_fixStep env _ time)

theorem nmeaReaderUpdateLatlong_fixStep (r : NmeaReader) (lat : Token) (latHemi : Byte)
    (lon : Token) (lonHemi : Byte) :
    FixStep r (nmeaReaderUpdateLatlong r lat latHemi lon lonHemi).2 := by
  unfold nmeaReaderUpdateLatlong
  split
  · exact .refl r
  · simp only
    split
    · exact .refl r
    · exact ⟨_, _, _, _, rfl⟩

theorem nmeaReaderUpdateAltitude_fixStep (r : NmeaReader) (alt geoid : Token) :
    FixStep r (nmeaReaderUpdateAltitude r alt geoid).2 := by
  unfold nmeaReaderUpdateAltitude
  split
  · exact .refl r
  · split
    · exact .refl r
    · exact ⟨_, _, _, _, rfl⟩

theorem nmeaReaderUpdateAccuracy_fixStep (env : NmeaEnv) (r : NmeaReader) (tok : Token) :
    FixStep r (nmeaReaderUpdateAccuracy env r tok).2 := by
  unfold nmeaReaderUpdateAccuracy
  split
  · exact .refl r
  · exact ⟨_, _, _, _, rfl⟩

theorem nmeaReaderUpdateBearing_fixStep (r : NmeaReader) (tok : Token) :
    FixStep r (nmeaReaderUpdateBearing r tok).2 := by
  unfold nmeaReaderUpdateBearing
  split
  · exact .refl r
  · exact ⟨_, _, _, _, rfl⟩

theorem nmeaReaderUpdateSpeed_fixStep (r : NmeaReader) (tok : Token) :
    FixStep r (nmeaReaderUpdateSpeed r tok).2 := by
  unfold nmeaReaderUpdateSpeed
  split
  · exact .refl r
  · exact ⟨_, _, _, _, rfl⟩

theorem parseGga_fixStep (env : NmeaEnv) (r : NmeaReader) (tz : NmeaTokenizer) :
    FixStep r (parseGga env r tz).reader := by
  unfold parseGga
  split
  · exact ((nmeaReaderUpdateTime_fixStep ..).trans (nmeaReaderUpdateLatlong_fixStep ..)).trans
      ((nmeaReaderUpdateAccuracy_fixStep ..).trans (nmeaReaderUpdateAltitude_fixStep ..))
  · exact .refl r

theorem parseRmc_fixStep (env : NmeaEnv) (r : NmeaReader) (tz : NmeaTokenizer) :
    FixStep r (parseRmc env r tz).reader := by
  unfold parseRmc
  split
  · exact ((nmeaReaderUpdateDate_fixStep ..).trans (nmeaReaderUpdateLatlong_fixStep ..)).trans
      ((nmeaReaderUpdateBearing_fixStep ..).trans (nmeaReaderUpdateSpeed_fixStep ..))
  · exact .refl r

/-! ## Steps on the satellite table -/

/-- `r'` differs from `r` at most in the satellite table and its changed flag. -/
def SvStep (r r' : NmeaReader) : Prop :=
  ∃ sv changed, r' = { r with svStatus := sv, svStatusChanged := changed }

theorem SvStep.refl (r : NmeaReader) : SvStep r r := ⟨_, _, rfl⟩

theorem parseGsv_svStep (r : NmeaReader) (tz : NmeaTokenizer) :
    SvStep r (parseGsv r tz).reader := by
  unfold parseGsv
  split
  · unfold gsvBegin
    split
    · exact ⟨_, _, rfl⟩
    · exact ⟨_, _, rfl⟩
  · exact .refl r

theorem parseGsa_svStep (r : NmeaReader) (tz : NmeaTokenizer) :
    SvStep r (parseGsa r tz).reader :=
  ⟨_, _, rfl⟩

/-- A parse is a step on the fix or a step on the satellite table. -/
theorem nmeaReaderParse_step (env : NmeaEnv) (r : NmeaReader) :
    FixStep r (nmeaReaderParse env r).reader ∨ SvStep r (nmeaReaderParse env r).reader := by
  rw [nmeaReaderParse_eq]
  cases bufferKind r.inBuf r.pos with
  | gsv => exact Or.inr (parseGsv_svStep ..)
  | gga => exact Or.inl (parseGga_fixStep ..)
  | rmc => exact Or.inl (parseRmc_fixStep ..)
  | gsa => exact Or.inr (parseGsa_svStep ..)
  | unknown => exact Or.inl (.refl r)

/-- The parser leaves the character buffer alone. -/
theorem nmeaReaderParse_keeps (env : NmeaEnv) (r : NmeaReader) :
    (nmeaReaderParse env r).reader.pos = r.pos
      ∧ (nmeaReaderParse env r).reader.overflow = r.overflow
      ∧ (nmeaReaderParse env r).reader.inBuf = r.inBuf := by
  rcases nmeaReaderParse_step env r with ⟨_, _, _, _, h⟩ | ⟨_, _, h⟩
  · rw [h]; exact ⟨rfl, rfl, rfl⟩
  · rw [h]; exact ⟨rfl, rfl, rfl⟩

end HtcLeo
