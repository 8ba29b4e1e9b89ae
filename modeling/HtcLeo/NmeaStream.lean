import HtcLeo.GsvTable

/-!
# Streams of characters

A character that ends a line has the line parsed, and the parse may store
a satellite over `pos` or `overflow`, which decide what becomes of the
characters after it. A stream is framed as `HtcLeo.NmeaFraming` says as
long as the stores of its lines stay in the table; whether they do can be
told from the reader before each character.
-/

namespace HtcLeo

section

variable [CFloat]

/-- The reader with a character behind the others. -/
def NmeaReader.store (r : NmeaReader) (c : Byte) : NmeaReader :=
  { r with inBuf := Function.update r.inBuf r.pos c, pos := r.pos + 1 }

/-- The reader that the character hands to the parser. -/
def addcParses (r : NmeaReader) (c : Byte) : Option NmeaReader :=
  if r.overflow = false ∧ r.pos < nmeaMaxSize ∧ c = ch '\n' then some (r.store c) else none

/-- Indices of `sv_list` assigned at a character. -/
def addcSvWrites (env : NmeaEnv) (r : NmeaReader) (c : Byte) : List Int :=
  match addcParses r c with
  | some r' => (nmeaReaderParse env r').svWrites
  | none => []

/-- The buffers that `nmeaReaderAddc` has parsed are those of `addcParses`. -/
theorem nmeaReaderAddc_eq (env : NmeaEnv) (r : NmeaReader) (c : Byte) :
    (nmeaReaderAddc env r c).2
        = (addcParses r c).toList.map (fun r' => r'.inBuf.slice 0 r'.pos)
      ∧ ∀ r', addcParses r c = some r' →
        (nmeaReaderAddc env r c).1 = { (nmeaReaderParse env r').reader with pos := 0 } := by
  by_cases hparse : r.overflow = false ∧ r.pos < nmeaMaxSize ∧ c = ch '\n'
  · obtain ⟨hov, hpos, rfl⟩ := hparse
    have hparses : addcParses r (ch '\n') = some (r.store (ch '\n')) := if_pos ⟨hov, hpos, rfl⟩
    rw [hparses, nmeaReaderAddc, if_neg (by simp [hov]), if_neg (by omega)]
    refine ⟨rfl, ?_⟩
    rintro _ ⟨⟩
    rfl
  · rw [addcParses, if_neg hparse]
    refine ⟨?_, fun r' h => (by cases h)⟩
    cases hov : r.overflow with
    | true => rw [addc_overflow hov]; rfl
    | false =>
        by_cases hfull : nmeaMaxSize ≤ r.pos
        · rw [addc_full hov hfull]
          rfl
        · have hc : c ≠ ch '\n' := fun hc => hparse ⟨hov, by omega, hc⟩
          rw [addc_store hov (by omega) hc]
          rfl

/-! ## Runs -/

/-- The reader after a character, with the environment at its time. -/
def addcNext (r : NmeaReader) (c : NmeaEnv × Byte) : NmeaReader := (nmeaReaderAddc c.1 r c.2).1

theorem nmeaReaderFeed_run (r : NmeaReader) (s : List (NmeaEnv × Byte)) :
    (nmeaReaderFeed r s).1 = runFrom addcNext r s := by
  induction s generalizing r with
  | nil => rfl
  | cons c s ih => exact ih (addcNext r c)

/-- Every store at the character stays in the table. -/
def CharStoresInTable (r : NmeaReader) (c : NmeaEnv × Byte) : Prop :=
  InTable (addcSvWrites c.1 r c.2)

/-- The line that the character ends, if it ends one, stays in the table. -/
def CharInTable (r : NmeaReader) (c : NmeaEnv × Byte) : Prop :=
  ∀ r', addcParses r c.2 = some r' →
    TextInTable r'.svStatus.numSvs (r'.inBuf.slice 0 r'.pos)

theorem charStoresInTable_iff (r : NmeaReader) (c : NmeaEnv × Byte) :
    CharStoresInTable r c ↔ CharInTable r c := by
  unfold CharStoresInTable CharInTable addcSvWrites
  cases addcParses r c.2 with
  | none =>
      refine iff_of_true (List.forall_mem_nil _) ?_
      intro r' h
      cases h
  | some r' =>
      rw [parse_stores_iff]
      constructor
      · rintro h _ ⟨⟩
        exact h
      · intro h
        exact h r' rfl

/-- **Framing.** No satellite of a line is stored over another member of the reader,
and the reader parses exactly the lines of at most 255 characters, if and only if
every GSV line that stores something has a number from 1 to 8 and each line that fits
follows an even number (possibly none) of consecutive 256-character lines. -/
theorem nmea_framing_iff (r : NmeaReader) (s : List (NmeaEnv × Byte)) :
    AllSteps addcNext CharStoresInTable r.atLineStart s ∧ ParsesLinesThatFit r.atLineStart s
      ↔ AllSteps addcNext CharInTable r.atLineStart s
        ∧ FitsAfterEvenRuns nmeaMaxSize (lines (ch '\n') (s.map Prod.snd)) := by
  refine and_congr ?_ (parsesLinesThatFit_iff r s)
  exact allSteps_iff (I := fun _ => True) (fun r c _ => charStoresInTable_iff r c)
    (fun _ _ _ _ => trivial) trivial

end

/-- 255 characters and a newline, then a one-character line. -/
def swallowingStream : List Byte :=
  List.replicate 255 (ch 'a') ++ ch '\n' :: [ch 'b', ch '\n']

/-- The line after a 256-character line is lost. -/
theorem nmea_framing_swallows :
    ¬@ParsesLinesThatFit decimalFloat (@NmeaReader.atLineStart decimalFloat
      (@nmeaReaderInit decimalFloat 0)) (swallowingStream.map fun c => (quietEnv, c)) := by
  intro h
  have hmap : (swallowingStream.map fun c => (quietEnv, c)).map Prod.snd = swallowingStream := by
    simp [List.map_map, Function.comp_def]
  have hlines : lines (ch '\n') swallowingStream
      = [List.replicate 255 (ch 'a') ++ [ch '\n'], [ch 'b', ch '\n']] := by
    have hbody : ch '\n' ∉ List.replicate 255 (ch 'a') := fun hmem =>
      absurd (List.eq_of_mem_replicate hmem) (by decide)
    rw [swallowingStream, lines_line _ _ _ hbody]
    rfl
  have hframe := (@feed_atLineStart decimalFloat _ _).symm.trans h
  rw [hmap, hlines] at hframe
  exact absurd hframe (by decide +kernel)

end HtcLeo
