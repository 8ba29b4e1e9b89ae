import HtcLeo.GsvGroup
import HtcLeo.Runs

/-!
# Callbacks through the shim (`gpsshim/gps.c`)

The shim takes the callbacks of the GPS library and starts a thread for
each, in which the framework's callback gets the report. The report does
not go with the thread: it is parked in static storage, one place for
each kind of report, and of a sentence only the pointer into the line
buffer of the library is kept. A thread hands over what it finds when it
runs.

`ShimRun` keeps, beside the storage, what was reported and what each
thread was started for. A thread hands over its own report exactly when
the latest callback of its kind says the same (`shim_delivers_iff`).
-/

namespace HtcLeo

section

variable [CFloat]

open CFloat

/-! ## Wrappers and threads -/

/-- A location as the framework declares it. -/
structure ShimLocation extends GpsLocation where
  size : Nat

/-- The sizes of the framework's structures. -/
structure ShimSizes where
  location : Nat
  svInfo : Nat
  svStatus : Nat

inductive ShimKind where
  | location
  | svStatus
  | nmea
deriving DecidableEq, Repr

/-- A callback of the GPS library; a status has no more satellites than its array, and a
sentence is a pointer and a length. -/
inductive HalCallback where
  | location (location : GpsLocation)
  | svStatus (svInfo : GpsSvStatus) (fits : svInfo.numSvs ≤ 32)
  | nmea (timestamp ptr length : Int)

def HalCallback.kind : HalCallback → ShimKind
  | .location _ => .location
  | .svStatus .. => .svStatus
  | .nmea .. => .nmea

/-- What the framework's callbacks are given. -/
inductive ShimReport where
  | location (location : GpsLocation)
  | svStatus (numSvs : Int) (svList : List ShimSvInfo)
      (ephemerisMask almanacMask usedInFixMask : Word)
  | nmea (timestamp : Int) (nmea : List Byte)

/-- What a callback reports, with the memory of the library. -/
def HalCallback.report (sizes : ShimSizes) (mem : Mem) : HalCallback → ShimReport
  | .location l => .location l
  | .svStatus sv _ =>
      .svStatus sv.numSvs
        ((List.range sv.numSvs.toNat).map fun i : Nat => shimSvInfo sizes.svInfo (sv.svList i))
        sv.ephemerisMask sv.almanacMask sv.usedInFixMask
  | .nmea timestamp ptr length => .nmea timestamp (mem.slice ptr length.toNat)

/-- The static variables of the shim. -/
structure GpsShim where
  newLocation : ShimLocation
  newSvStatus : ShimSvStatus
  nmeasaveTimestamp : Int
  nmeasaveNmea : Int
  nmeasaveLength : Int

def locationCallbackWrapper (size : Nat) (location : GpsLocation) : ShimLocation where
  size := size
  flags := location.flags
  latitude := location.latitude
  longitude := location.longitude
  altitude := location.altitude
  speed := location.speed
  bearing := location.bearing
  accuracy := location.accuracy
  timestamp := location.timestamp

/-- The wrappers up to `create_thread_cb`. -/
def GpsShim.wrapper (sizes : ShimSizes) (shim : GpsShim) : HalCallback → GpsShim
  | .location l => { shim with newLocation := locationCallbackWrapper sizes.location l }
  | .svStatus sv _ =>
      { shim with
        newSvStatus := svstatusCallbackWrapper sizes.svInfo sizes.svStatus shim.newSvStatus sv }
  | .nmea timestamp ptr length =>
      { shim with
        nmeasaveTimestamp := timestamp
        nmeasaveNmea := ptr
        nmeasaveLength := length }

/-- What a thread hands over when it runs. -/
def GpsShim.deliver (shim : GpsShim) (mem : Mem) : ShimKind → ShimReport
  | .location => .location shim.newLocation.toGpsLocation
  | .svStatus =>
      .svStatus shim.newSvStatus.numSvs shim.newSvStatus.entries shim.newSvStatus.ephemerisMask
        shim.newSvStatus.almanacMask shim.newSvStatus.usedInFixMask
  | .nmea => .nmea shim.nmeasaveTimestamp (mem.slice shim.nmeasaveNmea shim.nmeasaveLength.toNat)

theorem deliver_wrapper_self (sizes : ShimSizes) (shim : GpsShim) (mem : Mem) (c : HalCallback) :
    (shim.wrapper sizes c).deliver mem c.kind = c.report sizes mem := by
  cases c with
  | location l => rfl
  | svStatus sv fits =>
      simp only [GpsShim.wrapper, HalCallback.kind, GpsShim.deliver, HalCallback.report,
        entries_svstatusCallbackWrapper]
      rfl
  | nmea timestamp ptr length => rfl

theorem deliver_wrapper_of_ne (sizes : ShimSizes) (shim : GpsShim) (mem : Mem) {c : HalCallback}
    {k : ShimKind} (h : c.kind ≠ k) :
    (shim.wrapper sizes c).deliver mem k = shim.deliver mem k := by
  cases c <;> cases k <;> first | rfl | exact absurd rfl h

/-! ## Runs -/

/-- The shim with its threads. `callbacks` are the callbacks so far, the latest
first, and `made` what they reported; `pending` are the threads that did not run
yet, each with the report it was started for, and `delivered` such reports with
what was handed over. -/
structure ShimRun where
  shim : GpsShim
  mem : Mem
  callbacks : List HalCallback
  made : List ShimReport
  pending : List (ShimKind × ShimReport)
  delivered : List (ShimReport × ShimReport)

def ShimRun.init (shim : GpsShim) (mem : Mem) : ShimRun := ⟨shim, mem, [], [], [], []⟩

inductive ShimEvent where
  | callback (c : HalCallback)
  /-- The library stores a character, as `nmea_reader_addc` does. -/
  | store (addr : Int) (c : Byte)
  /-- One of the pending threads runs. -/
  | run (i : Nat)

def shimNext (sizes : ShimSizes) (s : ShimRun) : ShimEvent → ShimRun
  | .callback c =>
      { s with
        shim := s.shim.wrapper sizes c
        callbacks := c :: s.callbacks
        made := c.report sizes s.mem :: s.made
        pending := s.pending ++ [(c.kind, c.report sizes s.mem)] }
  | .store addr c => { s with mem := Function.update s.mem addr c }
  | .run i =>
      match s.pending[i]? with
      | some (k, r) =>
          { s with
            pending := s.pending.eraseIdx i
            delivered := (r, s.shim.deliver s.mem k) :: s.delivered }
      | none => s

/-- The latest callback of a kind. -/
def ShimRun.latest (s : ShimRun) (k : ShimKind) : Option HalCallback :=
  s.callbacks.find? fun c => c.kind = k

/-- A thread that runs hands over the report it was started for. -/
def ShimEvent.Exact (s : ShimRun) : ShimEvent → Prop
  | .run i => ∀ k r, s.pending[i]? = some (k, r) → s.shim.deliver s.mem k = r
  | _ => True

/-- A thread runs when the latest callback of its kind, with the memory as it is
now, says the same as the callback that started it. -/
def ShimEvent.Undisturbed (sizes : ShimSizes) (s : ShimRun) : ShimEvent → Prop
  | .run i => ∀ k r, s.pending[i]? = some (k, r) →
      ∃ c, s.latest k = some c ∧ c.report sizes s.mem = r
  | _ => True

/-! ## What the storage holds -/

/-- The storage of a kind holds what its latest callback says, and every thread
was started by a callback. -/
structure ShimRun.Inv (sizes : ShimSizes) (s : ShimRun) : Prop where
  slots : ∀ k c, s.latest k = some c → ∀ mem, s.shim.deliver mem k = c.report sizes mem
  started : ∀ t ∈ s.pending, (s.latest t.1).isSome

theorem ShimRun.init_inv (sizes : ShimSizes) (shim : GpsShim) (mem : Mem) :
    (ShimRun.init shim mem).Inv sizes := by
  constructor <;> simp [ShimRun.init, ShimRun.latest]

theorem latest_callback (sizes : ShimSizes) (s : ShimRun) (c : HalCallback) (k : ShimKind) :
    (shimNext sizes s (.callback c)).latest k = if c.kind = k then some c else s.latest k := by
  by_cases hk : c.kind = k
  · rw [if_pos hk]
    exact List.find?_cons_of_pos (by simpa using hk)
  · rw [if_neg hk]
    exact List.find?_cons_of_neg (by simpa using hk)

theorem shimNext_inv {sizes : ShimSizes} (s : ShimRun) (e : ShimEvent) (h : s.Inv sizes) :
    (shimNext sizes s e).Inv sizes := by
  cases e with
  | callback c =>
      constructor
      · intro k c' hlatest mem
        rw [latest_callback] at hlatest
        split at hlatest
        · rename_i hk
          cases hlatest
          rw [← hk]
          exact deliver_wrapper_self sizes s.shim mem c
        · rename_i hk
          exact (deliver_wrapper_of_ne sizes s.shim mem hk).trans (h.slots k c' hlatest mem)
      · intro t ht
        rw [latest_callback]
        split
        · rfl
        · rename_i hk
          rcases List.mem_append.mp ht with ht | ht
          · exact h.started t ht
          · rw [List.mem_singleton.mp ht] at hk
            exact absurd rfl hk
  | store addr c => exact ⟨h.slots, h.started⟩
  | run i =>
      rw [shimNext]
      split
      · exact ⟨h.slots, fun t ht => h.started t (List.mem_of_mem_eraseIdx ht)⟩
      · exact h

/-- A thread gets the report of the latest callback of its kind. -/
theorem exact_iff_undisturbed {sizes : ShimSizes} (s : ShimRun) (e : ShimEvent)
    (h : s.Inv sizes) : e.Exact s ↔ e.Undisturbed sizes s := by
  cases e with
  | run i =>
      refine forall_congr' fun k => forall_congr' fun r => imp_congr_right fun hget => ?_
      obtain ⟨c, hc⟩ := Option.isSome_iff_exists.mp (h.started _ (List.mem_of_getElem? hget))
      rw [h.slots k c hc]
      constructor
      · intro hr
        exact ⟨c, hc, hr⟩
      · rintro ⟨c', hc', hr⟩
        rw [hc] at hc'
        cases hc'
        exact hr
  | callback c => exact Iff.rfl
  | store addr c => exact Iff.rfl

/-! ## Every report once -/

/-- The reports that the framework got. -/
def ShimRun.received (s : ShimRun) : List ShimReport := s.delivered.map Prod.snd

/-- The reports of the threads that did not run yet. -/
def ShimRun.waiting (s : ShimRun) : List ShimReport := s.pending.map Prod.snd

/-- Each report that was made has one thread, and every thread that ran handed
over its report. -/
structure ShimRun.Accounted (s : ShimRun) : Prop where
  once : (s.delivered.map Prod.fst ++ s.waiting).Perm s.made
  same : ∀ d ∈ s.delivered, d.2 = d.1

theorem ShimRun.Accounted.perm {s : ShimRun} (h : s.Accounted) :
    (s.received ++ s.waiting).Perm s.made := by
  have hsame : s.received = s.delivered.map Prod.fst := List.map_congr_left h.same
  rw [hsame]
  exact h.once

theorem shimNext_accounted {sizes : ShimSizes} (s : ShimRun) (e : ShimEvent) (h : s.Accounted)
    (he : e.Exact s) : (shimNext sizes s e).Accounted := by
  cases e with
  | callback c =>
      refine ⟨?_, h.same⟩
      simp only [shimNext, ShimRun.waiting, List.map_append, List.map_cons, List.map_nil]
      rw [← List.append_assoc]
      exact (List.perm_append_singleton ..).trans (h.once.cons _)
  | store addr c => exact ⟨h.once, h.same⟩
  | run i =>
      rw [shimNext]
      split
      · rename_i k r hget
        obtain ⟨hi, heq⟩ := List.getElem?_eq_some_iff.mp hget
        have hperm : (r :: (s.pending.eraseIdx i).map Prod.snd).Perm s.waiting := by
          have hcons := (List.getElem_cons_eraseIdx_perm hi).map Prod.snd
          rwa [heq, List.map_cons] at hcons
        refine ⟨?_, List.forall_mem_cons.mpr ⟨he k r hget, h.same⟩⟩
        refine List.Perm.trans ?_ h.once
        exact (List.perm_middle.symm).trans (hperm.append_left _)
      · exact h

/-- **Delivery through the shim.** In a run of callbacks, stores of the library
and threads, every thread hands over the report it was started for exactly when
each runs undisturbed; the framework then gets the reports that were made, each
once, but for those whose threads did not run yet. -/
theorem shim_delivers_iff (sizes : ShimSizes) (shim : GpsShim) (mem : Mem)
    (events : List ShimEvent) :
    (AllSteps (shimNext sizes) (fun s e => e.Exact s) (ShimRun.init shim mem) events ↔
        AllSteps (shimNext sizes) (fun s e => e.Undisturbed sizes s) (ShimRun.init shim mem) events)
      ∧ (AllSteps (shimNext sizes) (fun s e => e.Undisturbed sizes s) (ShimRun.init shim mem)
          events →
        ((runFrom (shimNext sizes) (ShimRun.init shim mem) events).received
            ++ (runFrom (shimNext sizes) (ShimRun.init shim mem) events).waiting).Perm
          (runFrom (shimNext sizes) (ShimRun.init shim mem) events).made) := by
  have hiff : AllSteps (shimNext sizes) (fun s e => e.Exact s) (ShimRun.init shim mem) events ↔
      AllSteps (shimNext sizes) (fun s e => e.Undisturbed sizes s) (ShimRun.init shim mem)
        events :=
    allSteps_iff exact_iff_undisturbed (fun s e hs _ => shimNext_inv s e hs)
      (ShimRun.init_inv sizes shim mem)
  refine ⟨hiff, fun h => ?_⟩
  have hinit : (ShimRun.init shim mem).Accounted :=
    ⟨List.Perm.refl _, by simp [ShimRun.init]⟩
  exact (AllSteps.run_inv shimNext_accounted hinit (hiff.mpr h)).perm

/-- A location at the origin. -/
def GpsLocation.originAt (timestamp : Int) : GpsLocation :=
  ⟨gpsLocationHasLatLong, zeroDouble, zeroDouble, zeroDouble, zeroFloat, zeroFloat, zeroFloat,
    timestamp⟩

/-- Static storage before the first call. -/
def GpsShim.zero : GpsShim where
  newLocation := ⟨⟨0, zeroDouble, zeroDouble, zeroDouble, zeroFloat, zeroFloat, zeroFloat, 0⟩, 0⟩
  newSvStatus := .zero
  nmeasaveTimestamp := 0
  nmeasaveNmea := 0
  nmeasaveLength := 0

/-- Two locations come before the first thread runs. -/
def twoLocations : List ShimEvent :=
  [.callback (.location (.originAt 1000)), .callback (.location (.originAt 2000)), .run 0, .run 0]

end

def sampleSizes : ShimSizes := ⟨56, 20, 660⟩

/-- The framework gets the second location twice and the first one never. -/
theorem first_location_lost :
    @ShimRun.made decimalFloat (runFrom (@shimNext decimalFloat sampleSizes)
        (@ShimRun.init decimalFloat (@GpsShim.zero decimalFloat) fun _ => 0)
        (@twoLocations decimalFloat))
      = [@ShimReport.location decimalFloat (@GpsLocation.originAt decimalFloat 2000),
         @ShimReport.location decimalFloat (@GpsLocation.originAt decimalFloat 1000)]
    ∧ @ShimRun.received decimalFloat (runFrom (@shimNext decimalFloat sampleSizes)
        (@ShimRun.init decimalFloat (@GpsShim.zero decimalFloat) fun _ => 0)
        (@twoLocations decimalFloat))
      = [@ShimReport.location decimalFloat (@GpsLocation.originAt decimalFloat 2000),
         @ShimReport.location decimalFloat (@GpsLocation.originAt decimalFloat 2000)]
    ∧ ¬ AllSteps (@shimNext decimalFloat sampleSizes)
        (fun s e => @ShimEvent.Exact decimalFloat s e)
        (@ShimRun.init decimalFloat (@GpsShim.zero decimalFloat) fun _ => 0)
        (@twoLocations decimalFloat) := by
  refine ⟨rfl, rfl, fun hall => ?_⟩
  have hfirst := hall.2.2.1 .location
    (@ShimReport.location decimalFloat (@GpsLocation.originAt decimalFloat 1000)) rfl
  have htime := congrArg (@GpsLocation.timestamp decimalFloat)
    (@ShimReport.location.inj decimalFloat _ _ hfirst)
  exact absurd htime (by decide)

end HtcLeo
