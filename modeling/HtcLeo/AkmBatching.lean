import HtcLeo.AkmSensor

/-!
# AKM events do not depend on batching

`akmReference` is what the driver is for, stated over the whole stream of
input events: every `EV_SYN` sends, for each enabled sensor that was
updated since the last one, its latest values with the time of the
`EV_SYN`.

The driver reads the stream in pieces and writes into arrays of any size.
`readLoop_spec` is the simulation step: what a call writes, followed by
the reference output of what it leaves behind, is the reference output of
what it found. An `EV_SYN` that a call leaves half done is left behind
with the sensors that are still marked.
-/

namespace HtcLeo

section

variable [SensorFloat]

/-! ## The reference output -/

/-- What an `EV_SYN` sends: the latest values of the updated sensors among `js`. -/
def akmEmit (enabled : Word) (updated : AkmIndex → Bool) (latest : AkmIndex → SensorsEvent)
    (time : Int) (js : List AkmIndex) : List SensorsEvent :=
  (js.filter fun j => updated j && hasBit enabled j).map fun j => (latest j).stamp time

/-- The output for a stream, from the sensors updated and their latest values on. -/
def akmReference (enabled : Word) :
    (updated : AkmIndex → Bool) → (latest : AkmIndex → SensorsEvent) → List InputEvent →
      List SensorsEvent
  | _, _, [] => []
  | updated, latest, e :: es =>
      if e.type = evAbs then
        match akmField e.code with
        | some (j, assign) =>
            akmReference enabled (Function.update updated j true)
              (Function.update latest j (assign e.value (latest j))) es
        | none => akmReference enabled updated latest es
      else if e.type = evSyn then
        akmEmit enabled updated latest e.timevalToNano AkmIndex.all
          ++ akmReference enabled (fun _ => false) latest es
      else akmReference enabled updated latest es

/-- Values that differ in their time stamps only. -/
def SameValues (l l' : AkmIndex → SensorsEvent) : Prop :=
  ∀ j time, (l j).stamp time = (l' j).stamp time

variable {enabled : Word} {updated : AkmIndex → Bool} {latest latest' : AkmIndex → SensorsEvent}

theorem SameValues.refl (l : AkmIndex → SensorsEvent) : SameValues l l := fun _ _ => rfl

/-- An assignment of `processEvent` commutes with the time stamp. -/
theorem akmField_stamp {code : Nat} {j : AkmIndex}
    {assign : Int → SensorsEvent → SensorsEvent} (h : akmField code = some (j, assign)) (v : Int)
    (e : SensorsEvent) (time : Int) : assign v (e.stamp time) = (assign v e).stamp time := by
  obtain ⟨pre, post, hfields, -⟩ := List.lookup_eq_some_iff.mp h
  have hmem : (code, j, assign) ∈ akmFields := by
    rw [hfields]
    exact List.mem_append_right _ (List.mem_cons_self ..)
  simp only [akmFields, List.mem_cons, List.not_mem_nil, or_false, Prod.mk.injEq] at hmem
  rcases hmem with ⟨-, -, rfl⟩ | ⟨-, -, rfl⟩ | ⟨-, -, rfl⟩ | ⟨-, -, rfl⟩ | ⟨-, -, rfl⟩ |
    ⟨-, -, rfl⟩ | ⟨-, -, rfl⟩ | ⟨-, -, rfl⟩ | ⟨-, -, rfl⟩ | ⟨-, -, rfl⟩ <;> rfl

theorem SameValues.assign {code : Nat} {j : AkmIndex}
    {assign : Int → SensorsEvent → SensorsEvent} (hfield : akmField code = some (j, assign))
    (h : SameValues latest latest') (v : Int) :
    SameValues (Function.update latest j (assign v (latest j)))
      (Function.update latest' j (assign v (latest' j))) := by
  intro i time
  by_cases hi : i = j
  · subst hi
    rw [Function.update_self, Function.update_self, ← akmField_stamp hfield,
      ← akmField_stamp hfield, h i time]
  · rw [Function.update_of_ne hi, Function.update_of_ne hi]
    exact h i time

/-- A time stamp of its own makes no difference to a pending event. -/
theorem SameValues.stamp (h : SameValues latest latest') (j : AkmIndex) (time : Int) :
    SameValues (Function.update latest j ((latest j).stamp time)) latest' := by
  intro i t
  by_cases hi : i = j
  · subst hi
    rw [Function.update_self]
    exact h i t
  · rw [Function.update_of_ne hi]
    exact h i t

/-! ## The simulation -/

/-- The sensor has the marks `updated`, values that agree with `latest`, and the
events `q` in its ring. -/
structure AkmSensor.Simulates (s : AkmSensor) (enabled : Word) (updated : AkmIndex → Bool)
    (latest : AkmIndex → SensorsEvent) (q : List InputEvent) : Prop where
  enabled : s.mEnabled = enabled
  mask : s.mPendingMask = maskOf updated
  values : SameValues s.mPendingEvents latest
  holds : s.mInputReader.Holds q

variable {s : AkmSensor} {q : List InputEvent}

theorem akmEmit_cons (time : Int) (j : AkmIndex) (js : List AkmIndex) :
    akmEmit enabled updated latest time (j :: js)
      = (if updated j && hasBit enabled j then [(latest j).stamp time] else [])
        ++ akmEmit enabled updated latest time js := by
  rw [akmEmit, List.filter_cons]
  split <;> rfl

/-- What is sent depends on the marks of the sensors in question. -/
theorem akmEmit_congr_updated {updated' : AkmIndex → Bool} {js : List AkmIndex}
    (h : ∀ j ∈ js, updated j = updated' j) (time : Int) :
    akmEmit enabled updated latest time js = akmEmit enabled updated' latest time js := by
  rw [akmEmit, akmEmit, List.filter_congr fun j hj => by rw [h j hj]]

/-- The loop body for one sensor. -/
theorem synBody_spec (h : s.Simulates enabled updated latest q) (time : Int) {count : Nat}
    (hcount : count ≠ 0) (j : AkmIndex) :
    (s.synBody time count j).sensor.Simulates enabled (Function.update updated j false) latest q
      ∧ (s.synBody time count j).data
        = (if updated j && hasBit enabled j then [(latest j).stamp time] else [])
      ∧ count = (s.synBody time count j).count + (s.synBody time count j).data.length := by
  obtain ⟨rfl, hmask, hvalues, hholds⟩ := h
  rw [AkmSensor.synBody, hmask, hasBit_maskOf]
  cases hj : updated j with
  | false =>
      have hsame : Function.update updated j false = updated := by
        rw [← hj, Function.update_eq_self]
      rw [hsame]
      exact ⟨⟨rfl, hmask, hvalues, hholds⟩, by simp, by simp⟩
  | true =>
      have hclear := maskOf_clear updated j
      have hstamp := hvalues.stamp j time
      simp only [if_true, Bool.true_and]
      split
      · refine ⟨⟨rfl, hclear, hstamp, hholds⟩, ?_, ?_⟩
        · rw [hvalues j time]
        · simp only [List.length_singleton]
          omega
      · exact ⟨⟨rfl, hclear, hstamp, hholds⟩, rfl, rfl⟩

/-- The loop over the sensors at an `EV_SYN`: it sends the marked sensors in
order and clears their marks, until there is no room. -/
theorem synLoop_spec (h : s.Simulates enabled updated latest q) (time : Int) (count : Nat)
    {js : List AkmIndex} (hjs : js.Nodup) :
    ∃ updated', (AkmSensor.synLoop time js s count).sensor.Simulates enabled updated' latest q
      ∧ akmEmit enabled updated latest time js
        = (AkmSensor.synLoop time js s count).data ++ akmEmit enabled updated' latest time js
      ∧ count = (AkmSensor.synLoop time js s count).count
        + (AkmSensor.synLoop time js s count).data.length
      ∧ ((AkmSensor.synLoop time js s count).count ≠ 0 → ∀ j ∈ js, updated' j = false)
      ∧ ∀ j ∉ js, updated' j = updated j := by
  induction js generalizing s updated count with
  | nil => exact ⟨updated, h, rfl, rfl, by simp, fun _ _ => rfl⟩
  | cons j js ih =>
      obtain ⟨hj, hjs⟩ := List.nodup_cons.mp hjs
      rw [AkmSensor.synLoop]
      by_cases hgo : count ≠ 0 ∧ s.mPendingMask ≠ 0
      · rw [if_pos hgo]
        obtain ⟨hbody, hdata, hroom⟩ := synBody_spec h time hgo.1 j
        obtain ⟨updated', hsim, hemit, hlen, hdone, hother⟩ :=
          ih hbody (s.synBody time count j).count hjs
        have hjother := hother j hj
        rw [Function.update_self] at hjother
        refine ⟨updated', hsim, ?_, ?_, ?_, ?_⟩
        · -- the marks of the later sensors are still as they were
          have hlater : akmEmit enabled (Function.update updated j false) latest time js
              = akmEmit enabled updated latest time js :=
            akmEmit_congr_updated (fun i hi => Function.update_of_ne (by rintro rfl; exact hj hi) ..)
              time
          rw [akmEmit_cons, akmEmit_cons, hjother, ← hlater, hemit, ← hdata]
          simp
        · simp only [List.length_append]
          omega
        · intro hcount i hi
          rcases List.mem_cons.mp hi with rfl | hi
          · exact hjother
          · exact hdone hcount i hi
        · intro i hi
          rw [List.mem_cons, not_or] at hi
          rw [hother i hi.2, Function.update_of_ne hi.1]
      · rw [if_neg hgo]
        refine ⟨updated, h, rfl, rfl, fun hcount i _ => ?_, fun _ _ => rfl⟩
        have hmask : maskOf updated = 0 := by
          rw [← h.mask]
          by_contra hne
          exact hgo ⟨hcount, hne⟩
        exact (maskOf_eq_zero_iff updated).mp hmask i

/-- The sensor goes on to the next event of the ring. -/
theorem AkmSensor.Simulates.next {e : InputEvent}
    (h : s.Simulates enabled updated latest (e :: q)) :
    s.next.Simulates enabled updated latest q :=
  ⟨h.enabled, h.mask, h.values, h.holds.next⟩

/-- An `EV_ABS` event does to the sensor what it does to the reference. -/
theorem AkmSensor.Simulates.processEvent {e : InputEvent}
    (h : s.Simulates enabled updated latest (e :: q)) (habs : e.type = evAbs) :
    ∃ updated' latest',
      (s.processEvent e.code e.value).next.Simulates enabled updated' latest' q
      ∧ ∀ more, akmReference enabled updated latest (e :: q ++ more)
        = akmReference enabled updated' latest' (q ++ more) := by
  simp only [List.cons_append, akmReference, if_pos habs, AkmSensor.processEvent]
  cases hfield : akmField e.code with
  | none => exact ⟨updated, latest, h.next, fun _ => rfl⟩
  | some field =>
      obtain ⟨j, assign⟩ := field
      refine ⟨_, _, ⟨h.enabled, ?_, h.values.assign hfield e.value, h.holds.next⟩, fun _ => rfl⟩
      show s.mPendingMask ||| j.bit = _
      rw [h.mask, maskOf_set]

/-- An `EV_SYN`: what is sent, and what is left to do when there was no room. -/
theorem AkmSensor.Simulates.syn {e : InputEvent}
    (h : s.Simulates enabled updated latest (e :: q)) (hsyn : e.type = evSyn) (count : Nat) :
    ∃ updated' q', ((if (synLoop e.timevalToNano AkmIndex.all s count).sensor.mPendingMask = 0
        then (synLoop e.timevalToNano AkmIndex.all s count).sensor.next
        else (synLoop e.timevalToNano AkmIndex.all s count).sensor) : AkmSensor).Simulates
          enabled updated' latest q'
      ∧ (∀ more, akmReference enabled updated latest (e :: q ++ more)
        = (synLoop e.timevalToNano AkmIndex.all s count).data
          ++ akmReference enabled updated' latest (q' ++ more))
      ∧ count = (synLoop e.timevalToNano AkmIndex.all s count).count
        + (synLoop e.timevalToNano AkmIndex.all s count).data.length
      ∧ ((synLoop e.timevalToNano AkmIndex.all s count).count ≠ 0 → q' = q) := by
  have hnabs : e.type ≠ evAbs := by rw [hsyn]; decide
  have href : ∀ (f : AkmIndex → Bool) (more : List InputEvent),
      akmReference enabled f latest (e :: q ++ more)
        = akmEmit enabled f latest e.timevalToNano AkmIndex.all
          ++ akmReference enabled (fun _ => false) latest (q ++ more) := by
    intro f more
    rw [List.cons_append, akmReference, if_neg hnabs, if_pos hsyn]
  obtain ⟨updated', hsim, hemit, hlen, hdone, -⟩ :=
    synLoop_spec h e.timevalToNano count AkmIndex.nodup_all
  by_cases hmask : (synLoop e.timevalToNano AkmIndex.all s count).sensor.mPendingMask = 0
  · -- every mark is cleared, and the event is done
    rw [if_pos hmask]
    have hnone := (maskOf_eq_zero_iff updated').mp (hsim.mask.symm.trans hmask)
    obtain rfl : updated' = fun _ => false := funext hnone
    refine ⟨fun _ => false, q, hsim.next, fun more => ?_, hlen, fun _ => rfl⟩
    rw [href, hemit]
    simp [akmEmit]
  · rw [if_neg hmask]
    refine ⟨updated', e :: q, hsim, fun more => ?_, hlen, fun hcount => ?_⟩
    · rw [href, href, hemit, List.append_assoc]
    · refine absurd ?_ hmask
      rw [hsim.mask, maskOf_eq_zero_iff]
      exact fun j => hdone hcount j j.mem_all

/-- Without room the loop stops. -/
theorem readLoop_zero (rounds : Nat) (s : AkmSensor) :
    AkmSensor.readLoop rounds s 0 = { sensor := s, count := 0 } := by
  cases rounds with
  | zero => rfl
  | succ rounds => rw [AkmSensor.readLoop, if_neg (fun h => h.1 rfl)]

/-- **The simulation step.** What the loop writes, followed by the reference
output of what it leaves behind, is the reference output of what it found; with
room left, it leaves no event behind. The induction is on the rounds, of which
there are as many as events. -/
theorem readLoop_spec (h : s.Simulates enabled updated latest q) (count : Nat) {rounds : Nat}
    (hrounds : q.length ≤ rounds) :
    ∃ updated' latest' q',
      (AkmSensor.readLoop rounds s count).sensor.Simulates enabled updated' latest' q'
      ∧ (∀ more, akmReference enabled updated latest (q ++ more)
        = (AkmSensor.readLoop rounds s count).data
          ++ akmReference enabled updated' latest' (q' ++ more))
      ∧ count = (AkmSensor.readLoop rounds s count).count
        + (AkmSensor.readLoop rounds s count).data.length
      ∧ ((AkmSensor.readLoop rounds s count).count ≠ 0 → q' = []) := by
  induction rounds generalizing s updated latest q count with
  | zero =>
      obtain rfl := List.length_eq_zero_iff.mp (Nat.le_zero.mp hrounds)
      exact ⟨updated, latest, [], h, fun _ => rfl, rfl, fun _ => rfl⟩
  | succ rounds ih =>
      rw [AkmSensor.readLoop, h.holds.readEvent]
      by_cases hcount : count = 0
      · rw [if_neg (fun hgo => hgo.1 hcount)]
        exact ⟨updated, latest, q, h, fun _ => rfl, rfl, fun hne => absurd hcount hne⟩
      cases q with
      | nil =>
          rw [if_neg (fun hgo => hgo.2 rfl)]
          exact ⟨updated, latest, [], h, fun _ => rfl, rfl, fun _ => rfl⟩
      | cons e q =>
          rw [List.length_cons] at hrounds
          rw [if_pos ⟨hcount, by simp⟩]
          simp only [h.holds.front]
          by_cases habs : e.type = evAbs
          · obtain ⟨f, l, hsim, href⟩ := h.processEvent habs
            obtain ⟨f', l', q', hsim', href', hlen, hleft⟩ := ih hsim count (by omega)
            rw [if_pos habs]
            exact ⟨f', l', q', hsim', fun more => (href more).trans (href' more), hlen, hleft⟩
          rw [if_neg habs]
          by_cases hsyn : e.type = evSyn
          · obtain ⟨f, q₁, hsim, href, hlen, hleft⟩ := h.syn hsyn count
            rw [if_pos hsyn]
            generalize AkmSensor.synLoop e.timevalToNano AkmIndex.all s count = out at *
            generalize (if out.sensor.mPendingMask = 0 then out.sensor.next else out.sensor) = s' at *
            by_cases hroom : out.count = 0
            · rw [hroom, readLoop_zero]
              refine ⟨f, latest, q₁, hsim, fun more => ?_, ?_, fun hne => absurd rfl hne⟩
              · rw [href, List.append_nil]
              · simp only [List.append_nil]
                omega
            · obtain rfl := hleft hroom
              obtain ⟨f', l', q', hsim', href', hlen', hleft'⟩ := ih hsim out.count (by omega)
              refine ⟨f', l', q', hsim', fun more => ?_, ?_, hleft'⟩
              · rw [href, href', List.append_assoc]
              · simp only [List.length_append]
                omega
          · obtain ⟨f', l', q', hsim', href', hlen, hleft⟩ := ih h.next count (by omega)
            rw [if_neg hsyn]
            refine ⟨f', l', q', hsim', fun more => ?_, hlen, hleft⟩
            rw [← href', List.cons_append, akmReference, if_neg habs, if_neg hsyn]

/-- A call of `readEvents` whose read succeeds. -/
theorem readEvents_spec (h : s.Simulates enabled updated latest q) {count : Int}
    (hcount : 1 ≤ count) {batch : List InputEvent}
    (hbatch : batch.length ≤ s.mInputReader.mFreeSpace) :
    ∃ updated' latest' q',
      (s.readEvents count (.data batch none)).2.1.Simulates enabled updated' latest' q'
      ∧ (∀ more, akmReference enabled updated latest (q ++ batch ++ more)
        = (s.readEvents count (.data batch none)).2.2
          ++ akmReference enabled updated' latest' (q' ++ more))
      ∧ ((s.readEvents count (.data batch none)).2.2.length : Int) ≤ count
      ∧ (s.readEvents count (.data batch none)).1
        = (s.readEvents count (.data batch none)).2.2.length := by
  have hfits : s.mInputReader.Fits (.data batch none) := by
    simpa [InputEventCircularReader.Fits] using hbatch
  have htaken : s.mInputReader.taken (.data batch none) = batch := by
    rw [InputEventCircularReader.taken]
    split_ifs with hfree
    · rfl
    · exact (List.length_eq_zero_iff.mp (by omega)).symm
  have hholds := h.holds.fill hfits
  rw [htaken] at hholds
  have hret := s.mInputReader.fill_ret_nonneg batch
  rw [AkmSensor.readEvents, if_neg (by omega)]
  simp only [if_neg (by omega : ¬(s.mInputReader.fill (.data batch none)).ret < 0)]
  generalize (s.mInputReader.fill (.data batch none)).reader = reader at *
  have hsim : AkmSensor.Simulates { s with mInputReader := reader } enabled updated latest
      (q ++ batch) := ⟨h.enabled, h.mask, h.values, hholds⟩
  have hfree := hholds.free
  have hrounds : (q ++ batch).length ≤ (reader.numEvents - reader.mFreeSpace).toNat := by omega
  obtain ⟨f', l', q', hsim', href, hlen, -⟩ := readLoop_spec hsim count.toNat hrounds
  exact ⟨f', l', q', hsim', href, by omega, trivial⟩

/-! ## Every sequence of calls -/

/-- A call of `readEvents`: `count`, and the events that its read gives. -/
structure AkmCall where
  count : Int
  batch : List InputEvent

/-- The driver with the events it was given and those it has written. -/
structure AkmRun where
  sensor : AkmSensor
  stream : List InputEvent
  output : List SensorsEvent

/-- A new driver whose enable mask was set to `enabled`. -/
def AkmRun.init (probe : AkmProbe) (enabled : Word) : AkmRun :=
  ⟨{ AkmSensor.init probe with mEnabled := enabled }, [], []⟩

def akmStep (r : AkmRun) (c : AkmCall) : AkmRun where
  sensor := (r.sensor.readEvents c.count (.data c.batch none)).2.1
  stream := r.stream ++ c.batch
  output := r.output ++ (r.sensor.readEvents c.count (.data c.batch none)).2.2

/-- The count is positive and the read gives no more than it was asked for. -/
def AkmLegal (r : AkmRun) (c : AkmCall) : Prop :=
  1 ≤ c.count ∧ c.batch.length ≤ r.sensor.mInputReader.mFreeSpace

instance (r : AkmRun) (c : AkmCall) : Decidable (AkmLegal r c) :=
  inferInstanceAs (Decidable (_ ∧ _))

/-- A call writes at most `count` events and returns their number. -/
def AkmBounded (r : AkmRun) (c : AkmCall) : Prop :=
  ((r.sensor.readEvents c.count (.data c.batch none)).2.2.length : Int) ≤ c.count
    ∧ (r.sensor.readEvents c.count (.data c.batch none)).1
      = (r.sensor.readEvents c.count (.data c.batch none)).2.2.length

/-- What was written, followed by the output of what is left, is the output of
the whole stream. -/
def AkmRun.Inv (enabled : Word) (latest₀ : AkmIndex → SensorsEvent) (r : AkmRun) : Prop :=
  ∃ updated latest q, r.sensor.Simulates enabled updated latest q
    ∧ ∀ more, akmReference enabled (fun _ => false) latest₀ (r.stream ++ more)
      = r.output ++ akmReference enabled updated latest (q ++ more)

variable {latest₀ : AkmIndex → SensorsEvent} {r : AkmRun} {c : AkmCall}

theorem akmStep_inv (h : r.Inv enabled latest₀) (hlegal : AkmLegal r c) :
    (akmStep r c).Inv enabled latest₀ := by
  obtain ⟨f, l, q, hsim, href⟩ := h
  obtain ⟨f', l', q', hsim', href', -, -⟩ := readEvents_spec hsim hlegal.1 hlegal.2
  refine ⟨f', l', q', hsim', fun more => ?_⟩
  show akmReference enabled (fun _ => false) latest₀ (r.stream ++ c.batch ++ more) = _
  rw [List.append_assoc, href, ← List.append_assoc, href', ← List.append_assoc]
  rfl

theorem akmStep_bounded (h : r.Inv enabled latest₀) (hlegal : AkmLegal r c) : AkmBounded r c := by
  obtain ⟨f, l, q, hsim, -⟩ := h
  obtain ⟨_, _, _, _, _, hcount, hret⟩ := readEvents_spec hsim hlegal.1 hlegal.2
  exact ⟨hcount, hret⟩

theorem stream_run (probe : AkmProbe) (enabled : Word) (calls : List AkmCall) :
    (runFrom akmStep (.init probe enabled) calls).stream = (calls.map AkmCall.batch).flatten := by
  have hrun : ∀ (r : AkmRun), (runFrom akmStep r calls).stream
      = r.stream ++ (calls.map AkmCall.batch).flatten := by
    induction calls with
    | nil => simp
    | cons c calls ih =>
        intro r
        rw [runFrom_cons, ih]
        simp [akmStep]
  exact hrun _

/-- **The events delivered do not depend on batching.** For every stream,
however the reads split it and whatever the counts are: every call writes at
most `count` events; together they have written a prefix of the reference output
of the stream, and all of it for what was read once the ring is drained. -/
theorem akm_batching_invariant (probe : AkmProbe) (enabled : Word) (calls : List AkmCall)
    (hlegal : AllSteps akmStep AkmLegal (.init probe enabled) calls) (rest : List InputEvent) :
    AllSteps akmStep AkmBounded (.init probe enabled) calls
      ∧ (runFrom akmStep (.init probe enabled) calls).output
        <+: akmReference enabled (fun _ => false) (AkmSensor.init probe).mPendingEvents
          ((calls.map AkmCall.batch).flatten ++ rest)
      ∧ ((runFrom akmStep (.init probe enabled) calls).sensor.mInputReader.readEvent.2 = 0 →
        (runFrom akmStep (.init probe enabled) calls).output
          = akmReference enabled (fun _ => false) (AkmSensor.init probe).mPendingEvents
            (calls.map AkmCall.batch).flatten) := by
  have hinit : (AkmRun.init probe enabled).Inv enabled (AkmSensor.init probe).mPendingEvents := by
    refine ⟨fun _ => false, (AkmSensor.init probe).mPendingEvents, [], ⟨rfl, ?_, .refl _, ?_⟩,
      fun more => rfl⟩
    · rfl
    · exact InputEventCircularReader.init_holds (by decide) probe.mBuffer
  obtain ⟨f, l, q, hsim, href⟩ := hlegal.run_inv
    (I := AkmRun.Inv enabled (AkmSensor.init probe).mPendingEvents)
    (fun _ _ hr hl => akmStep_inv hr hl) hinit
  rw [stream_run] at href
  refine ⟨hlegal.imp (I := AkmRun.Inv enabled (AkmSensor.init probe).mPendingEvents)
    (fun _ _ hr hl => akmStep_inv hr hl) (fun _ _ hr hl => akmStep_bounded hr hl) hinit, ?_, ?_⟩
  · exact ⟨_, (href rest).symm⟩
  · intro hdrained
    rw [hsim.holds.readEvent] at hdrained
    have hq : q = [] := by
      by_contra hne
      simp [hne] at hdrained
    have hall := href []
    rw [hq, List.append_nil] at hall
    rw [hall]
    simp [akmReference]

end

/-- A device that is switched off. -/
def idleProbe : AkmProbe where
  opened := 5
  getFlag _ := some 0
  absinfo _ := none
  mBuffer _ := ⟨0, 0, 0, 0, 0⟩

/-- Two sensors are updated before an `EV_SYN`, and the calls have room for one
event each. -/
def sampleCalls : List AkmCall :=
  [⟨1, [⟨7, 0, evAbs, eventTypeAccelX, 720⟩, ⟨7, 0, evAbs, eventTypeMagvX, 16⟩,
      ⟨7, 1, evSyn, 0, 0⟩]⟩, ⟨1, []⟩]

theorem sampleCalls_batched :
    letI := decimalSensorFloat
    ((runFrom akmStep (.init idleProbe 7) sampleCalls).output.map fun e => (e.sensor, e.timestamp))
        = [(.a, 7000001000), (.m, 7000001000)]
      ∧ (runFrom akmStep (.init idleProbe 7) sampleCalls).output
        <+: akmReference 7 (fun _ => false) (AkmSensor.init idleProbe).mPendingEvents
          ((sampleCalls.map AkmCall.batch).flatten ++ []) :=
  letI := decimalSensorFloat
  ⟨by decide, (akm_batching_invariant idleProbe 7 sampleCalls (by decide) []).2.1⟩

end HtcLeo
