import HtcLeo.NmeaFraming
import HtcLeo.NmeaSentence
import HtcLeo.Runs

/-!
# The reader between the two GPS threads

`gps_state_thread` parses a sentence whenever a line is complete, and
`gps_timer_thread` publishes what has been collected once per round; the
semaphore `fix_sem` makes each of the two atomic. A session starts with a
new timer thread, which resets the fix and the satellite table. A history
of the reader is therefore a list of `GpsEvent`s run through `gpsStep`.

`nmeaReaderFeed_line` ties the sentence event to the characters: feeding
a line that fits is the same as one sentence event.
-/

namespace HtcLeo

/-- What can happen to the reader. -/
inductive GpsEvent where
  /-- A complete sentence, with the environment of its parse. -/
  | sentence (env : NmeaEnv) (s : List Byte)
  /-- A round of `gps_timer_thread`. -/
  | tick
  /-- `gps_timer_thread` starts. -/
  | sessionStart

variable [CFloat]

/-- What an event does beside changing the reader. -/
structure GpsOut where
  /-- Indices of `sv_list` assigned. -/
  svWrites : List Int := []
  /-- Fields of the fix assigned. -/
  assigned : List FixField := []
  /-- The location given to `update_gps_location`. -/
  location : Option GpsLocation := none
  /-- The table given to `update_gps_svstatus`. -/
  svStatus : Option GpsSvStatus := none

/-- The reader with a sentence in its buffer. -/
def NmeaReader.load (r : NmeaReader) (s : List Byte) : NmeaReader :=
  { r with inBuf := r.inBuf.write 0 s, pos := s.length }

theorem NmeaReader.load_slice (r : NmeaReader) (s : List Byte) :
    (r.load s).inBuf.slice 0 s.length = s :=
  Mem.slice_write ..

/-- The location part of a round: the flags of the last published fix are kept. -/
def gpsTimerLocation (r : NmeaReader) : NmeaReader × Option GpsLocation :=
  if r.fix.flags &&& gpsLocationHasLatLong ≠ 0 then
    let flags := if r.fixFlagsCached > 0 then r.fix.flags ||| r.fixFlagsCached else r.fix.flags
    ({ r with fix := { r.fix with flags := 0 }, fixFlagsCached := flags },
      some { r.fix with flags := flags })
  else (r, none)

/-- The loop body of `gps_timer_thread`. -/
def gpsTimerTick (r : NmeaReader) : NmeaReader × GpsOut :=
  let (r, location) := gpsTimerLocation r
  if r.svStatusChanged then
    ({ r with svStatusChanged := false }, { location := location, svStatus := some r.svStatus })
  else (r, { location := location })

/-- What `gps_timer_thread` does before its loop. -/
def gpsTimerStart (r : NmeaReader) : NmeaReader :=
  { r with
    fix := { r.fix with flags := 0 }
    fixFlagsCached := 0
    svStatusChanged := false
    svStatus := { r.svStatus with numSvs := 0, svList := clearSvList r.svStatus.svList } }

def gpsStep (r : NmeaReader) : GpsEvent → NmeaReader × GpsOut
  | .sentence env s =>
      let out := nmeaReaderParse env (r.load s)
      ({ out.reader with pos := 0 }, { svWrites := out.svWrites, assigned := out.assigned })
  | .tick => gpsTimerTick r
  | .sessionStart => (gpsTimerStart r, {})

/-- The reader after an event. -/
def gpsNext (r : NmeaReader) (e : GpsEvent) : NmeaReader := (gpsStep r e).1

theorem gpsTimerLocation_keeps (r : NmeaReader) :
    (gpsTimerLocation r).1.svStatus = r.svStatus
      ∧ (gpsTimerLocation r).1.svStatusChanged = r.svStatusChanged := by
  unfold gpsTimerLocation
  split <;> exact ⟨rfl, rfl⟩

/-! ## A line is a sentence event -/

/-- Characters other than the newline are stored one after the other. -/
theorem nmeaReaderFeed_inside {cs : List (NmeaEnv × Byte)} (hcs : ch '\n' ∉ cs.map Prod.snd)
    {r : NmeaReader} (hov : r.overflow = false) (hlen : r.pos + cs.length ≤ nmeaMaxSize)
    (rest : List (NmeaEnv × Byte)) :
    nmeaReaderFeed r (cs ++ rest)
      = nmeaReaderFeed { r with
          inBuf := r.inBuf.write r.pos (cs.map Prod.snd), pos := r.pos + cs.length } rest := by
  induction cs generalizing r with
  | nil => rfl
  | cons c cs ih =>
      obtain ⟨env, c⟩ := c
      simp only [List.map_cons, List.mem_cons, not_or] at hcs
      simp only [List.length_cons] at hlen
      rw [List.cons_append, nmeaReaderFeed, addc_store hov (by omega) (Ne.symm hcs.1)]
      simp only [List.nil_append, Prod.mk.eta]
      have hlen' : r.pos + 1 + cs.length ≤ nmeaMaxSize := by omega
      refine (ih (r := { r with inBuf := Function.update r.inBuf r.pos c, pos := r.pos + 1 })
        hcs.2 hov hlen').trans ?_
      simp only [List.map_cons, List.length_cons, Mem.write, Nat.cast_add, Nat.cast_one]
      rw [Nat.add_assoc, Nat.add_comm 1]

/-- **Feeding a line that fits is one sentence event.** -/
theorem nmeaReaderFeed_line {cs : List (NmeaEnv × Byte)} (hcs : ch '\n' ∉ cs.map Prod.snd)
    (hlen : cs.length < nmeaMaxSize) {r : NmeaReader} (hpos : r.pos = 0)
    (hov : r.overflow = false) (env : NmeaEnv) :
    (nmeaReaderFeed r (cs ++ [(env, ch '\n')])).1
      = gpsNext r (.sentence env (cs.map Prod.snd ++ [ch '\n'])) := by
  rw [nmeaReaderFeed_inside hcs hov (by omega)]
  simp only [nmeaReaderFeed, nmeaReaderAddc, hov, hpos, Bool.false_eq_true, if_false, if_true,
    gpsNext, gpsStep, NmeaReader.load, Nat.zero_add]
  rw [if_neg (by omega), Mem.write_append]
  simp [Mem.write]

end HtcLeo
