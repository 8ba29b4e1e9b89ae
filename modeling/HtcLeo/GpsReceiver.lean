import HtcLeo.NmeaMeaning
import HtcLeo.NmeaStream

/-!
# The receiver

`gps_state_thread` hands the reader one character after the other,
`gps_timer_thread` publishes the fix and the satellites once per round,
and each session starts with a new timer thread. The framework hears of
all this through `update_gps_location`, `update_gps_svstatus` and
`update_gps_nmea`.

Seen from there the receiver has no buffer and no characters: it hears
lines, and reports what they say (`GpsView.step`). `receiver_reports`
says that the threads report just that, for any characters and any
rounds and session starts between them, as long as the lines heard store
no satellite outside the table; which lines are heard is the business of
the framer.
-/

namespace HtcLeo

section

variable [CFloat]

/-! ## The threads -/

/-- A call of the framework. -/
inductive GpsReport where
  | location (location : GpsLocation)
  | svStatus (svStatus : GpsSvStatus)
  | nmea (timestamp : Int) (text : List Byte)

/-- `tv.tv_sec*1000+tv.tv_usec/1000` in a `long`. -/
def millisecondsOf (tvSec tvUsec : Int) : Int := wrap32 (tvSec * 1000 + tvUsec / 1000)

/-- The reports of a parse. -/
def parseReports (env : NmeaEnv) (tvSec tvUsec : Int) (r : NmeaReader) : List GpsReport :=
  if (nmeaReaderParse env r).reported then
    [.nmea (millisecondsOf tvSec tvUsec) (r.inBuf.slice 0 r.pos)]
  else []

/-- The reports of a round. -/
def GpsOut.reports (out : GpsOut) : List GpsReport :=
  (out.location.map GpsReport.location).toList ++ (out.svStatus.map GpsReport.svStatus).toList

inductive ReceiverEvent where
  /-- A character, with what `gettimeofday` gives if it ends a line. -/
  | char (env : NmeaEnv) (tvSec tvUsec : Int) (c : Byte)
  /-- A round of `gps_timer_thread`. -/
  | tick
  /-- `gps_timer_thread` starts. -/
  | sessionStart

/-- A line was parsed when `nmeaReaderAddc` says so. -/
def receiverStep (r : NmeaReader) : ReceiverEvent → NmeaReader × List GpsReport
  | .char env tvSec tvUsec c =>
      ((nmeaReaderAddc env r c).1,
        (nmeaReaderAddc env r c).2.flatMap fun _ => parseReports env tvSec tvUsec (r.store c))
  | .tick => ((gpsTimerTick r).1, (gpsTimerTick r).2.reports)
  | .sessionStart => (gpsTimerStart r, [])

def receiverNext (r : NmeaReader) (e : ReceiverEvent) : NmeaReader := (receiverStep r e).1

/-- Every store at the event stays in the table. -/
def ReceiverStoresInTable (r : NmeaReader) : ReceiverEvent → Prop
  | .char env _ _ c => CharStoresInTable r (env, c)
  | .tick => StoresInTable r .tick
  | .sessionStart => StoresInTable r .sessionStart

def receiverRun (r : NmeaReader) : List ReceiverEvent → NmeaReader × List GpsReport
  | [] => (r, [])
  | e :: es =>
      let (r', reports) := receiverStep r e
      let (r'', more) := receiverRun r' es
      (r'', reports ++ more)

/-! ## What is heard -/

inductive Heard where
  | line (env : NmeaEnv) (tvSec tvUsec : Int) (text : List Byte)
  | tick
  | sessionStart

namespace GpsView

/-- A new session knows no fix and no satellites. -/
def started (v : GpsView) : GpsView :=
  { v with
    fix := { v.fix with flags := 0 }
    fixFlagsCached := 0
    svStatusChanged := false
    svStatus := { v.svStatus with numSvs := 0, svList := clearSvList v.svStatus.svList } }

/-- A position is published once, with the fields of the earlier ones. -/
def published (v : GpsView) : GpsView × List GpsReport :=
  if v.fix.flags &&& gpsLocationHasLatLong ≠ 0 then
    ({ v with
        fix := { v.fix with flags := 0 }
        fixFlagsCached := v.fix.flags ||| v.fixFlagsCached },
      [.location { v.fix with flags := v.fix.flags ||| v.fixFlagsCached }])
  else (v, [])

/-- A table is published once. -/
def surveyed (v : GpsView) : GpsView × List GpsReport :=
  if v.svStatusChanged then ({ v with svStatusChanged := false }, [.svStatus v.svStatus])
  else (v, [])

/-- The sentences that the framework gets word for word. -/
def isForwarded (text : List Byte) : Bool :=
  match lineKind text with
  | .gga | .rmc | .gsa => true
  | .gsv | .unknown => false

def step (v : GpsView) : Heard → GpsView × List GpsReport
  | .line env tvSec tvUsec text =>
      (v.hear env text, if isForwarded text then [.nmea (millisecondsOf tvSec tvUsec) text] else [])
  | .tick =>
      let (v', position) := v.published
      let (v'', satellites) := v'.surveyed
      (v'', position ++ satellites)
  | .sessionStart => (v.started, [])

def run (v : GpsView) : List Heard → GpsView × List GpsReport
  | [] => (v, [])
  | h :: hs =>
      let (v', reports) := v.step h
      let (v'', more) := v'.run hs
      (v'', reports ++ more)

def next (v : GpsView) (h : Heard) : GpsView := (v.step h).1

/-- A line that stores a satellite outside the table is not one of those. -/
def HearsInTable (v : GpsView) : Heard → Prop
  | .line _ _ _ text => TextInTable v.svStatus.numSvs text
  | .tick | .sessionStart => True

end GpsView

/-- The lines that the framer keeps, with the rounds and session starts around them; `acc` is
the part of the first line already read, and `skip` says that it will be skipped. -/
def heardFrom : (skip : Bool) → (acc : List Byte) → List ReceiverEvent → List Heard
  | _, _, [] => []
  | skip, acc, .char env tvSec tvUsec c :: es =>
      if c = ch '\n' then
        if skip = false ∧ (acc ++ [c]).length ≤ nmeaMaxSize then
          .line env tvSec tvUsec (acc ++ [c]) :: heardFrom false [] es
        else heardFrom (!skip && (acc ++ [c]).length = nmeaMaxSize + 1) [] es
      else heardFrom skip (acc ++ [c]) es
  | skip, acc, .tick :: es => .tick :: heardFrom skip acc es
  | skip, acc, .sessionStart :: es => .sessionStart :: heardFrom skip acc es

def Heard.text : Heard → Option (List Byte)
  | .line _ _ _ text => some text
  | .tick | .sessionStart => none

def ReceiverEvent.character : ReceiverEvent → Option Byte
  | .char _ _ _ c => some c
  | .tick | .sessionStart => none

/-! ## The timer -/

/-- Only the characters of a line change where the reader is in it. -/
theorem Framing.keep {r r' : NmeaReader} {skip : Bool} {acc : List Byte} (h : Framing r skip acc)
    (hov : r'.overflow = r.overflow) (hpos : r'.pos = r.pos) (hbuf : r'.inBuf = r.inBuf) :
    Framing r' skip acc where
  overflow := by rw [hov]; exact h.overflow
  pos_of_overflow := by rw [hov, hpos]; exact h.pos_of_overflow
  pos := by rw [hov, hpos]; exact h.pos
  buffer := by rw [hov, hbuf]; exact h.buffer

theorem gpsTimerTick_framing {r : NmeaReader} {skip : Bool} {acc : List Byte}
    (h : Framing r skip acc) : Framing (gpsTimerTick r).1 skip acc := by
  have hlocation : Framing (gpsTimerLocation r).1 skip acc := by
    unfold gpsTimerLocation
    split
    · exact h.keep rfl rfl rfl
    · exact h
  unfold gpsTimerTick
  simp only
  split
  · exact hlocation.keep rfl rfl rfl
  · exact hlocation

/-- The cached flags are added whether there are any or not. -/
theorem gpsTimerLocation_published (r : NmeaReader) :
    (gpsTimerLocation r).1.view = r.view.published.1
      ∧ ((gpsTimerLocation r).2.map GpsReport.location).toList = r.view.published.2 := by
  have hflags : (if r.fixFlagsCached > 0 then r.fix.flags ||| r.fixFlagsCached else r.fix.flags)
      = r.fix.flags ||| r.fixFlagsCached := by
    split
    · rfl
    · have hzero : r.fixFlagsCached = 0 := by bv_omega
      rw [hzero]
      simp
  unfold gpsTimerLocation GpsView.published
  rw [hflags]
  by_cases hpos : r.fix.flags &&& gpsLocationHasLatLong ≠ 0
  · rw [if_pos hpos, if_pos (show r.view.fix.flags &&& _ ≠ 0 from hpos)]
    exact ⟨rfl, rfl⟩
  · rw [if_neg hpos, if_neg (show ¬ r.view.fix.flags &&& _ ≠ 0 from hpos)]
    exact ⟨rfl, rfl⟩

theorem gpsTimerTick_step (r : NmeaReader) :
    (gpsTimerTick r).1.view = (r.view.step .tick).1
      ∧ (gpsTimerTick r).2.reports = (r.view.step .tick).2 := by
  obtain ⟨hview, hreports⟩ := gpsTimerLocation_published r
  simp only [gpsTimerTick, GpsView.step, GpsView.surveyed, ← hview, ← hreports]
  cases hchanged : (gpsTimerLocation r).1.svStatusChanged with
  | true => simp [NmeaReader.view, hchanged, GpsOut.reports]
  | false => simp [NmeaReader.view, hchanged, GpsOut.reports]

/-! ## The characters -/

/-- The parser forwards the sentences that it looks into for a fix. -/
theorem parseReports_eq (env : NmeaEnv) (tvSec tvUsec : Int) (r : NmeaReader) :
    parseReports env tvSec tvUsec r
      = if GpsView.isForwarded (r.inBuf.slice 0 r.pos) then
          [.nmea (millisecondsOf tvSec tvUsec) (r.inBuf.slice 0 r.pos)]
        else [] := by
  have hreported : (nmeaReaderParse env r).reported
      = GpsView.isForwarded (r.inBuf.slice 0 r.pos) := by
    rw [nmeaReaderParse_eq, bufferKind_line rfl, GpsView.isForwarded]
    cases lineKind (r.inBuf.slice 0 r.pos) with
    | gsv => simp only [parseGsv]; split <;> rfl
    | gga => simp only [parseGga]; split <;> rfl
    | rmc => simp only [parseRmc]; split <;> rfl
    | gsa => rfl
    | unknown => rfl
  rw [parseReports, hreported]

section Characters

variable {env : NmeaEnv} {r : NmeaReader} {skip : Bool} {acc : List Byte} {c : Byte}

/-- A character inside a line says nothing. -/
theorem addc_inside_view (hc : c ≠ ch '\n') : (nmeaReaderAddc env r c).1.view = r.view := by
  rw [nmeaReaderAddc]
  split_ifs
  · rfl
  · rfl
  · rfl

/-- Neither does the end of a line that does not fit. -/
theorem addc_skipped_view (h : Framing r skip acc)
    (hkept : ¬ (skip = false ∧ (acc ++ [ch '\n']).length ≤ nmeaMaxSize)) :
    (nmeaReaderAddc env r (ch '\n')).1.view = r.view := by
  rw [List.length_append, List.length_singleton] at hkept
  cases hr : r.overflow with
  | true => rw [addc_overflow hr]; rfl
  | false =>
      obtain ⟨rfl, hle⟩ := h.open hr
      have hfull : nmeaMaxSize ≤ r.pos := by
        rw [h.pos hr]
        by_contra hroom
        exact hkept ⟨rfl, by omega⟩
      rw [addc_full hr hfull]
      rfl

/-- A line that fits stands in the buffer when its end is read. -/
theorem Framing.line (h : Framing r false acc) (hfits : (acc ++ [c]).length ≤ nmeaMaxSize) :
    r.overflow = false ∧ r.pos < nmeaMaxSize
      ∧ (r.store c).inBuf.slice 0 (r.store c).pos = acc ++ [c] := by
  rw [List.length_append, List.length_singleton] at hfits
  have hr : r.overflow = false := by
    rw [← Bool.not_eq_true, h.overflow]
    rintro (hskip | hlong)
    · cases hskip
    · omega
  have hslice := Mem.slice_update_end r.inBuf 0 r.pos c
  rw [Int.zero_add, h.pos hr, h.buffer hr] at hslice
  refine ⟨hr, by rw [h.pos hr]; omega, ?_⟩
  rw [NmeaReader.store, h.pos hr]
  exact hslice

/-- A line that fits is heard at its end. -/
theorem addc_line_view (h : Framing r false acc)
    (hfits : (acc ++ [ch '\n']).length ≤ nmeaMaxSize) :
    (nmeaReaderAddc env r (ch '\n')).1.view = r.view.hear env (acc ++ [ch '\n']) := by
  obtain ⟨hr, hpos, hline⟩ := h.line hfits
  have hview := nmeaReaderParse_view env (r.store (ch '\n'))
  rw [hline] at hview
  rw [nmeaReaderAddc, if_neg (by simp [hr]), if_neg (by omega)]
  exact hview

/-- The stores at the end of a line that fits are those that its text says. -/
theorem line_stores_iff (h : Framing r false acc)
    (hfits : (acc ++ [ch '\n']).length ≤ nmeaMaxSize) :
    CharStoresInTable r (env, ch '\n')
      ↔ TextInTable r.view.svStatus.numSvs (acc ++ [ch '\n']) := by
  obtain ⟨hr, hpos, hline⟩ := h.line hfits
  have hparses : addcParses r (ch '\n') = some (r.store (ch '\n')) := if_pos ⟨hr, hpos, rfl⟩
  have hstores := parse_stores_iff env (r.store (ch '\n'))
  rw [hline] at hstores
  rw [CharStoresInTable, addcSvWrites, hparses]
  exact hstores

/-- The other characters have nothing parsed. -/
theorem charStoresInTable_of_lines {env : NmeaEnv} (h : (nmeaReaderAddc env r c).2 = []) :
    CharStoresInTable r (env, c) := by
  have hlines := (nmeaReaderAddc_eq env r c).1
  rw [h] at hlines
  rw [CharStoresInTable, addcSvWrites]
  cases hparses : addcParses r c with
  | none => exact List.forall_mem_nil _
  | some r' =>
      rw [hparses] at hlines
      cases hlines

/-- The step of the characters: what the reader reports and where it is then, and
whether its stores stay in the table. -/
theorem char_step (h : Framing r skip acc) (env : NmeaEnv) (tvSec tvUsec : Int) (c : Byte)
    (es : List ReceiverEvent) :
    ∃ skip' acc' hs,
      Framing (receiverStep r (.char env tvSec tvUsec c)).1 skip' acc'
        ∧ heardFrom skip acc (.char env tvSec tvUsec c :: es) = hs ++ heardFrom skip' acc' es
        ∧ (r.view.run hs).1 = (receiverStep r (.char env tvSec tvUsec c)).1.view
        ∧ (r.view.run hs).2 = (receiverStep r (.char env tvSec tvUsec c)).2
        ∧ (ReceiverStoresInTable r (.char env tvSec tvUsec c)
          ↔ AllSteps GpsView.next GpsView.HearsInTable r.view hs) := by
  rw [heardFrom]
  by_cases hc : c = ch '\n'
  · subst hc
    obtain ⟨r', hr', hframe⟩ := addc_end env h
    rw [receiverStep, if_pos rfl]
    by_cases hkept : skip = false ∧ (acc ++ [ch '\n']).length ≤ nmeaMaxSize
    · obtain ⟨rfl, hfits⟩ := hkept
      have hne : ¬ (acc ++ [ch '\n']).length = nmeaMaxSize + 1 := by omega
      have hview : (nmeaReaderAddc env r (ch '\n')).1.view = r.view.hear env (acc ++ [ch '\n']) :=
        addc_line_view h hfits
      have hreports := parseReports_eq env tvSec tvUsec (r.store (ch '\n'))
      rw [(h.line hfits).2.2] at hreports
      rw [if_pos ⟨rfl, hfits⟩]
      refine ⟨false, [], [.line env tvSec tvUsec (acc ++ [ch '\n'])], ?_, rfl, hview.symm, ?_, ?_⟩
      · rw [hr']
        simpa only [hne, decide_false, Bool.and_false] using hframe
      · rw [hr', if_pos ⟨rfl, hfits⟩]
        simp only [List.flatMap_cons, List.flatMap_nil, hreports]
        rfl
      · exact (line_stores_iff h hfits).trans (and_iff_left trivial).symm
    · have hview : (nmeaReaderAddc env r (ch '\n')).1.view = r.view := addc_skipped_view h hkept
      rw [if_neg hkept]
      refine ⟨_, _, [], ?_, rfl, hview.symm, ?_, iff_of_true ?_ trivial⟩
      · rw [hr']
        exact hframe
      · rw [hr', if_neg hkept]
        rfl
      · exact charStoresInTable_of_lines (by rw [hr', if_neg hkept])
  · obtain ⟨r', hr', hframe⟩ := addc_inside env h hc
    rw [receiverStep, if_neg hc]
    refine ⟨skip, acc ++ [c], [], ?_, rfl, (addc_inside_view hc).symm, ?_, iff_of_true ?_ trivial⟩
    · rw [hr']
      exact hframe
    · rw [hr']
      rfl
    · exact charStoresInTable_of_lines (by rw [hr'])

end Characters

/-! ## Runs -/

theorem GpsView.run_append (v : GpsView) (hs hs' : List Heard) :
    v.run (hs ++ hs')
      = (((v.run hs).1.run hs').1, (v.run hs).2 ++ ((v.run hs).1.run hs').2) := by
  induction hs generalizing v with
  | nil => rfl
  | cons h hs ih => simp only [List.cons_append, GpsView.run, ih, List.append_assoc]

theorem GpsView.run_fst (v : GpsView) (hs : List Heard) :
    (v.run hs).1 = runFrom GpsView.next v hs := by
  induction hs generalizing v with
  | nil => rfl
  | cons h hs ih => exact ih (v.next h)

/-- From the middle of a line on, the threads report what is heard, and store satellites
in the table exactly when the lines heard say so. -/
theorem receiverRun_eq {r : NmeaReader} {skip : Bool} {acc : List Byte} (h : Framing r skip acc)
    (es : List ReceiverEvent) :
    (receiverRun r es).1.view = (r.view.run (heardFrom skip acc es)).1
      ∧ (receiverRun r es).2 = (r.view.run (heardFrom skip acc es)).2
      ∧ (AllSteps receiverNext ReceiverStoresInTable r es
        ↔ AllSteps GpsView.next GpsView.HearsInTable r.view (heardFrom skip acc es)) := by
  induction es generalizing r skip acc with
  | nil => exact ⟨rfl, rfl, Iff.rfl⟩
  | cons e es ih =>
      simp only [receiverRun, AllSteps]
      cases e with
      | char env tvSec tvUsec c =>
          obtain ⟨skip', acc', hs, hframe, hheard, hview, hreports, hstores⟩ :=
            char_step h env tvSec tvUsec c es
          obtain ⟨ihview, ihreports, ihstores⟩ := ih hframe
          rw [hheard, GpsView.run_append, hview, hreports, ihview, ihreports, hstores,
            AllSteps.append, ← GpsView.run_fst, hview]
          exact ⟨rfl, rfl, and_congr_right fun _ => ihstores⟩
      | tick =>
          obtain ⟨hview, hreports⟩ := gpsTimerTick_step r
          obtain ⟨ihview, ihreports, ihstores⟩ := ih (gpsTimerTick_framing h)
          have hstores : ReceiverStoresInTable r .tick := (storesInTable_iff r .tick).mpr trivial
          simp only [heardFrom, GpsView.run, receiverStep, ihview, ihreports, hview, hreports,
            AllSteps, hstores, true_and, GpsView.HearsInTable]
          rw [GpsView.next, ← hview]
          exact ihstores
      | sessionStart =>
          obtain ⟨ihview, ihreports, ihstores⟩ := ih (r := gpsTimerStart r) (h.keep rfl rfl rfl)
          have hstores : ReceiverStoresInTable r .sessionStart :=
            (storesInTable_iff r .sessionStart).mpr trivial
          simp only [heardFrom, GpsView.run, receiverStep, ihview, ihreports, AllSteps, hstores,
            true_and, GpsView.HearsInTable]
          exact ⟨rfl, rfl, ihstores⟩

omit [CFloat] in
/-- The lines heard are those that the framer keeps. -/
theorem heardFrom_text (skip : Bool) (acc : List Byte) (es : List ReceiverEvent) :
    (heardFrom skip acc es).filterMap Heard.text
      = frame nmeaMaxSize skip
        (linesFrom (ch '\n') acc (es.filterMap ReceiverEvent.character)) := by
  induction es generalizing skip acc with
  | nil => rfl
  | cons e es ih =>
      cases e with
      | char env tvSec tvUsec c =>
          have hchar : (ReceiverEvent.char env tvSec tvUsec c).character = some c := rfl
          have hline : (Heard.line env tvSec tvUsec (acc ++ [c])).text = some (acc ++ [c]) := rfl
          rw [heardFrom, List.filterMap_cons_some hchar, linesFrom]
          by_cases hc : c = ch '\n'
          · rw [if_pos hc, if_pos hc]
            cases skip with
            | true =>
                rw [if_neg (by simp), ih, frame]
                rfl
            | false =>
                rw [frame]
                by_cases hfits : (acc ++ [c]).length ≤ nmeaMaxSize
                · rw [if_pos ⟨rfl, hfits⟩, if_pos hfits, List.filterMap_cons_some hline, ih]
                · rw [if_neg fun h => hfits h.2, if_neg hfits, ih]
                  rfl
          · rw [if_neg hc, if_neg hc, ih]
      | tick => exact ih skip acc
      | sessionStart => exact ih skip acc

/-- **The receiver.** Whatever characters, rounds and session starts the reader sees, from the
start of a line on: if no line that the framer keeps is a GSV sentence with something to store
and a number other than 1 to 8, then no satellite is stored outside the table, the framework is
told what these lines say, each at its place between the rounds and session starts, and the
reader is left with what they say. -/
theorem receiver_reports (r : NmeaReader) (es : List ReceiverEvent)
    (hheard : AllSteps GpsView.next GpsView.HearsInTable r.view (heardFrom false [] es)) :
    AllSteps receiverNext ReceiverStoresInTable r.atLineStart es
      ∧ (receiverRun r.atLineStart es).2 = (r.view.run (heardFrom false [] es)).2
      ∧ (receiverRun r.atLineStart es).1.view = (r.view.run (heardFrom false [] es)).1
      ∧ (heardFrom false [] es).filterMap Heard.text
        = frame nmeaMaxSize false (lines (ch '\n') (es.filterMap ReceiverEvent.character)) := by
  obtain ⟨hview, hreports, hstores⟩ := receiverRun_eq (framing_atLineStart r) es
  exact ⟨hstores.mpr hheard, hreports, hview, heardFrom_text false [] es⟩

end

def oneSatelliteGsv : List Byte := "$GPGSV,1,1,01,01,40,083,46\n".toList.map ch

/-- A GSV sentence of one satellite, character by character, and a round: the table is
reported. -/
theorem one_satellite_reported :
    letI : CFloat := decimalFloat
    let es := oneSatelliteGsv.map (.char quietEnv 0 0) ++ [.tick]
    AllSteps receiverNext ReceiverStoresInTable (nmeaReaderInit 0).atLineStart es
      ∧ (receiverRun (nmeaReaderInit 0).atLineStart es).2.map (fun report =>
          match report with
          | .svStatus sv => some (sv.numSvs, (sv.svList 0).prn)
          | .location _ | .nmea _ _ => none) = [some (1, 1)] := by
  let _ := decimalFloat
  intro es
  have hlines : heardFrom false [] es = [.line quietEnv 0 0 oneSatelliteGsv, .tick] := rfl
  have hnumber : gsvSentenceNo (textTokens oneSatelliteGsv) = 1 := by decide +kernel
  obtain ⟨hstores, hreports, -⟩ := receiver_reports (nmeaReaderInit 0) es (by
    rw [hlines]
    refine ⟨?_, trivial, trivial⟩
    intro _ _ _ _
    rw [hnumber]
    decide)
  refine ⟨hstores, ?_⟩
  rw [hreports, hlines]
  decide +kernel

end HtcLeo
