import HtcLeo.DecimalFloat
import HtcLeo.Lines
import HtcLeo.NmeaEffects

/-!
# Line framing of the NMEA stream

`nmea_reader_addc` sees one character at a time and keeps three pieces of
state: the buffer, its fill `pos` and the `overflow` flag. `Framing`
relates that state to the part of the current line already read and to
one bit, whether this whole line is going to be skipped. With it the
reader is the line framer of `HtcLeo.Lines`: it parses the lines that fit
into the buffer, but the newline of a line of exactly 256 characters is
taken for the character that overflows the buffer, and the reader then
discards everything up to the *next* newline.
-/

namespace HtcLeo

section Framing

variable [CFloat]

/-- `r` has read `acc` of the current line; `skip` says that the line was
already given up at its first character. -/
structure Framing (r : NmeaReader) (skip : Bool) (acc : List Byte) : Prop where
  overflow : r.overflow = true ↔ skip = true ∨ nmeaMaxSize < acc.length
  pos_of_overflow : r.overflow = true → r.pos = 0
  pos : r.overflow = false → r.pos = acc.length
  buffer : r.overflow = false → r.inBuf.slice 0 acc.length = acc

/-- The reader at the start of a stream: nothing read, nothing to discard. -/
def NmeaReader.atLineStart (r : NmeaReader) : NmeaReader := { r with pos := 0, overflow := false }

theorem framing_atLineStart (r : NmeaReader) : Framing r.atLineStart false [] where
  overflow := by simp [NmeaReader.atLineStart]
  pos_of_overflow h := rfl
  pos _ := rfl
  buffer _ := rfl

/-! ## One character -/

/-- While a line is being discarded only its newline changes anything. -/
theorem addc_overflow {env : NmeaEnv} {r : NmeaReader} {c : Byte} (h : r.overflow = true) :
    nmeaReaderAddc env r c = ({ r with overflow := c ≠ ch '\n' }, []) := by
  rw [nmeaReaderAddc, if_pos h]

/-- The character that does not fit is dropped, whatever it is. -/
theorem addc_full {env : NmeaEnv} {r : NmeaReader} {c : Byte} (h : r.overflow = false)
    (hpos : nmeaMaxSize ≤ r.pos) :
    nmeaReaderAddc env r c = ({ r with overflow := true, pos := 0 }, []) := by
  rw [nmeaReaderAddc, if_neg (by simp [h]), if_pos hpos]

theorem addc_store {env : NmeaEnv} {r : NmeaReader} {c : Byte} (h : r.overflow = false)
    (hpos : r.pos < nmeaMaxSize) (hc : c ≠ ch '\n') :
    nmeaReaderAddc env r c
      = ({ r with inBuf := Function.update r.inBuf r.pos c, pos := r.pos + 1 }, []) := by
  rw [nmeaReaderAddc, if_neg (by simp [h]), if_neg (by omega)]
  simp only [hc, if_false]

theorem addc_newline (env : NmeaEnv) {r : NmeaReader} (h : r.overflow = false)
    (hpos : r.pos < nmeaMaxSize) :
    ∃ r', nmeaReaderAddc env r (ch '\n') = (r', [r.inBuf.slice 0 r.pos ++ [ch '\n']])
      ∧ r'.overflow = false ∧ r'.pos = 0 := by
  rw [nmeaReaderAddc, if_neg (by simp [h]), if_neg (by omega)]
  have hslice := Mem.slice_update_end r.inBuf 0 r.pos (ch '\n')
  rw [Int.zero_add] at hslice
  simp only [if_true, hslice]
  exact ⟨_, rfl, (nmeaReaderParse_keeps env _).2.1.trans h, rfl⟩

/-- A buffer that has not overflowed holds the whole line so far. -/
theorem Framing.open {r : NmeaReader} {skip : Bool} {acc : List Byte} (h : Framing r skip acc)
    (hr : r.overflow = false) : skip = false ∧ acc.length ≤ nmeaMaxSize := by
  have hno : ¬(skip = true ∨ nmeaMaxSize < acc.length) := fun hor => by
    rw [h.overflow.mpr hor] at hr
    cases hr
  rw [not_or, Bool.not_eq_true] at hno
  exact ⟨hno.1, by omega⟩

/-- A character inside a line keeps the relation and parses nothing. -/
theorem addc_inside (env : NmeaEnv) {r : NmeaReader} {skip : Bool} {acc : List Byte} {c : Byte}
    (h : Framing r skip acc) (hc : c ≠ ch '\n') :
    ∃ r', nmeaReaderAddc env r c = (r', []) ∧ Framing r' skip (acc ++ [c]) := by
  cases hr : r.overflow with
  | true =>
      refine ⟨_, addc_overflow hr, ?_, fun _ => h.pos_of_overflow hr, ?_, ?_⟩
      · have hor := h.overflow.mp hr
        simp only [hc, ne_eq, not_false_eq_true, decide_true, List.length_append,
          List.length_singleton, true_iff]
        exact hor.imp id (by omega)
      · intro h'; simp [hc] at h'
      · intro h'; simp [hc] at h'
  | false =>
      obtain ⟨rfl, hle⟩ := h.open hr
      have hpos := h.pos hr
      by_cases hfull : nmeaMaxSize ≤ r.pos
      · refine ⟨_, addc_full hr hfull, ?_, fun _ => rfl, ?_, ?_⟩
        · simp only [List.length_append, List.length_singleton, true_iff]
          exact Or.inr (by omega)
        · intro h'; cases h'
        · intro h'; cases h'
      · refine ⟨_, addc_store hr (by omega) hc, ?_, ?_, ?_, ?_⟩
        · simp only [hr, List.length_append, List.length_singleton, Bool.false_eq_true,
            false_or, false_iff]
          omega
        · intro h'; rw [hr] at h'; cases h'
        · intro _; simp [hpos]
        · intro _
          have hslice := Mem.slice_update_end r.inBuf 0 acc.length c
          rw [Int.zero_add, h.buffer hr] at hslice
          simpa [hpos] using hslice

/-- A newline ends the line: the reader parses it, drops it, or, when the line
has exactly one character too many, drops it and the line after it. -/
theorem addc_end (env : NmeaEnv) {r : NmeaReader} {skip : Bool} {acc : List Byte}
    (h : Framing r skip acc) :
    ∃ r', nmeaReaderAddc env r (ch '\n')
        = (r', if skip = false ∧ (acc ++ [ch '\n']).length ≤ nmeaMaxSize
            then [acc ++ [ch '\n']] else [])
      ∧ Framing r' (!skip && (acc ++ [ch '\n']).length = nmeaMaxSize + 1) [] := by
  simp only [List.length_append, List.length_singleton]
  cases hr : r.overflow with
  | true =>
      have hor := h.overflow.mp hr
      refine ⟨{ r with overflow := false }, ?_, ?_, fun _ => h.pos_of_overflow hr,
        fun _ => h.pos_of_overflow hr, fun _ => rfl⟩
      · have hno : ¬(skip = false ∧ acc.length + 1 ≤ nmeaMaxSize) := by
          rintro ⟨rfl, hle⟩
          rcases hor with hskip | hlong
          · cases hskip
          · omega
        rw [addc_overflow hr, if_neg hno]
        simp
      · rcases hor with rfl | hlong
        · simp
        · have : ¬acc.length = nmeaMaxSize := by omega
          simp [this]
  | false =>
      obtain ⟨rfl, hle⟩ := h.open hr
      have hpos := h.pos hr
      by_cases hfull : nmeaMaxSize ≤ r.pos
      · -- the newline itself is the character that does not fit
        refine ⟨_, by rw [addc_full hr hfull, if_neg (by omega)], ?_, fun _ => rfl, ?_, ?_⟩
        · have : acc.length = nmeaMaxSize := by omega
          simp [this]
        · intro h'; cases h'
        · intro h'; cases h'
      · obtain ⟨r', hr', hov', hpos'⟩ := addc_newline env hr (by omega)
        refine ⟨r', ?_, ?_, fun _ => hpos', fun _ => hpos', fun _ => rfl⟩
        · rw [hr', hpos, h.buffer hr, if_pos ⟨rfl, by omega⟩]
        · have : ¬acc.length = nmeaMaxSize := by omega
          simp [hov', this]

/-! ## Whole streams -/

/-- From a state in the middle of a line the reader parses what the framer keeps. -/
theorem feed_eq_frame {r : NmeaReader} {skip : Bool} {acc : List Byte}
    (h : Framing r skip acc) (s : List (NmeaEnv × Byte)) :
    (nmeaReaderFeed r s).2
      = frame nmeaMaxSize skip (linesFrom (ch '\n') acc (s.map Prod.snd)) := by
  induction s generalizing r skip acc with
  | nil => rfl
  | cons ec rest ih =>
      obtain ⟨env, c⟩ := ec
      rw [nmeaReaderFeed, List.map_cons, linesFrom]
      by_cases hc : c = ch '\n'
      · subst hc
        obtain ⟨r', hr', hf'⟩ := addc_end env h
        simp only [hr', if_true, ih hf']
        cases skip with
        | true => simp [frame]
        | false =>
            rw [frame]
            by_cases hle : (acc ++ [ch '\n']).length ≤ nmeaMaxSize
            · have hne : ¬(acc ++ [ch '\n']).length = nmeaMaxSize + 1 := by omega
              simp only [hle, hne, and_self, if_true, decide_false, Bool.and_false,
                List.singleton_append]
            · simp only [hle, and_false, if_false, Bool.not_false, Bool.true_and,
                List.nil_append]
      · obtain ⟨r', hr', hf'⟩ := addc_inside env h hc
        simp only [hr', hc, if_false, ih hf', List.nil_append]

/-- What the reader parses is what the line framer keeps. -/
theorem feed_atLineStart (r : NmeaReader) (s : List (NmeaEnv × Byte)) :
    (nmeaReaderFeed r.atLineStart s).2
      = frame nmeaMaxSize false (lines (ch '\n') (s.map Prod.snd)) :=
  feed_eq_frame (framing_atLineStart r) s

/-- The reader parses exactly the lines of the stream that fit, in order. -/
def ParsesLinesThatFit (r : NmeaReader) (s : List (NmeaEnv × Byte)) : Prop :=
  (nmeaReaderFeed r s).2
    = (lines (ch '\n') (s.map Prod.snd)).filter (fun l => l.length ≤ nmeaMaxSize)

/-- The lines that fit are parsed exactly when each of them follows an even number
(possibly none) of consecutive 256-character lines. -/
theorem parsesLinesThatFit_iff (r : NmeaReader) (s : List (NmeaEnv × Byte)) :
    ParsesLinesThatFit r.atLineStart s ↔
      FitsAfterEvenRuns nmeaMaxSize (lines (ch '\n') (s.map Prod.snd)) := by
  rw [ParsesLinesThatFit, feed_atLineStart]
  exact frame_eq_filter_iff nmeaMaxSize _

end Framing

/-- An environment for concrete runs. -/
def quietEnv : NmeaEnv := ⟨⟨0, 0, 0, 110, 0, 1⟩, fun _ => 0, 10⟩

end HtcLeo
