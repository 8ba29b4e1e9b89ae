import HtcLeo.CInt
import HtcLeo.Ring
import HtcLeo.Runs

/-!
# The circular reader of input events (`libsensors/InputEventReader.cpp`)

A sensor driver reads the events of its input device through a ring of
`numEvents` entries in a buffer of twice that size. `fill` reads as many
events as the ring has room for in one `read`, `readEvent` points at the
oldest event that was not taken yet and `next` takes it.

Pointers are offsets from `mBuffer`. `fill` returns, beside the reader,
the entries that `read` and the copy to the front have written.

`circular_reader_fifo` says that over every sequence of operations the
reader is a queue: what goes in through `fill` comes out in order.
-/

namespace HtcLeo

variable {ε : Type*}

/-- What `read` gives: an error, or whole events and perhaps a part of one
more. The part is given as what its entry holds afterwards. -/
inductive ReadResult (ε : Type*) where
  | error (errno : Nat)
  | data (events : List ε) (part : Option ε)
deriving DecidableEq, Repr

structure InputEventCircularReader (ε : Type*) where
  /-- `mBufferEnd - mBuffer`. -/
  numEvents : Nat
  mBuffer : Nat → ε
  mHead : Nat
  mCurr : Nat
  mFreeSpace : Int

/-- What `fill` returns, the reader after it, and the entries it has written. -/
structure FillOut (ε : Type*) where
  ret : Int
  reader : InputEventCircularReader ε
  /-- Entries written by `read`. -/
  stored : List Nat := []
  /-- Entries written by `memcpy`. -/
  copied : List Nat := []

namespace InputEventCircularReader

/-- The constructor; `new` leaves the entries as they are. -/
def init (numEvents : Nat) (mBuffer : Nat → ε) : InputEventCircularReader ε :=
  ⟨numEvents, mBuffer, 0, 0, numEvents⟩

/-- `fill` after a `read` of whole events. -/
def fillWhole (r : InputEventCircularReader ε) (events : List ε) : FillOut ε :=
  let numEventsRead := events.length
  let mBuffer := store r.mBuffer r.mHead events
  let mHead := r.mHead + numEventsRead
  if numEventsRead ≠ 0 then
    if mHead > r.numEvents then
      let s := mHead - r.numEvents
      { ret := numEventsRead
        reader := { r with
          mBuffer := copyEntries mBuffer 0 r.numEvents s
          mHead := s
          mFreeSpace := r.mFreeSpace - numEventsRead }
        stored := List.range' r.mHead numEventsRead
        copied := List.range s }
    else
      { ret := numEventsRead
        reader := { r with
          mBuffer := mBuffer, mHead := mHead, mFreeSpace := r.mFreeSpace - numEventsRead }
        stored := List.range' r.mHead numEventsRead }
  else { ret := 0, reader := r }

def fill (r : InputEventCircularReader ε) (result : ReadResult ε) : FillOut ε :=
  if r.mFreeSpace ≠ 0 then
    match result with
    | .error errno => { ret := -errno, reader := r }
    | .data events (some part) =>
        -- we got a partial event
        { ret := -einval
          reader := { r with mBuffer := store r.mBuffer r.mHead (events ++ [part]) }
          stored := List.range' r.mHead (events.length + 1) }
    | .data events none => r.fillWhole events
  else { ret := 0, reader := r }

/-- The pointer to the event, and whether there is one. -/
def readEvent (r : InputEventCircularReader ε) : Nat × Int :=
  let available : Int := r.numEvents - r.mFreeSpace
  (r.mCurr, if available ≠ 0 then 1 else 0)

def next (r : InputEventCircularReader ε) : InputEventCircularReader ε :=
  { r with
    mCurr := if r.mCurr + 1 ≥ r.numEvents then 0 else r.mCurr + 1
    mFreeSpace := r.mFreeSpace + 1 }

/-! ## What each operation does to the queue -/

/-- The reader holds the events `q`, oldest first. -/
structure Holds (r : InputEventCircularReader ε) (q : List ε) : Prop where
  queued : Queued r.mBuffer r.numEvents r.mCurr q
  curr : r.mCurr < r.numEvents
  head : r.mHead ≤ r.numEvents
  tail : TailAt r.numEvents r.mCurr q.length r.mHead
  room : q.length ≤ r.numEvents
  free : r.mFreeSpace = r.numEvents - q.length

/-- The result of a `read` that was given room for `mFreeSpace` events. -/
def Fits (r : InputEventCircularReader ε) : ReadResult ε → Prop
  | .error _ => True
  | .data events part => (events ++ part.toList).length ≤ r.mFreeSpace

instance (r : InputEventCircularReader ε) : (result : ReadResult ε) → Decidable (r.Fits result)
  | .error _ => isTrue trivial
  | .data _ _ => inferInstanceAs (Decidable (_ ≤ _))

theorem init_holds {numEvents : Nat} (h : 0 < numEvents) (mBuffer : Nat → ε) :
    (init numEvents mBuffer).Holds [] where
  queued := Queued.nil _ _ _
  curr := h
  head := Nat.zero_le _
  tail := Or.inl rfl
  room := Nat.zero_le _
  free := by simp [init]

variable {r : InputEventCircularReader ε} {q : List ε}

theorem fill_numEvents (r : InputEventCircularReader ε) (result : ReadResult ε) :
    (r.fill result).reader.numEvents = r.numEvents := by
  simp only [fill, fillWhole]
  split
  · split
    · rfl
    · rfl
    · split_ifs <;> rfl
  · rfl

/-- Whole events are appended to the queue. -/
theorem Holds.fillWhole (h : r.Holds q) {events : List ε}
    (hfits : events.length ≤ r.mFreeSpace) :
    (r.fillWhole events).ret = events.length
      ∧ (r.fillWhole events).reader.Holds (q ++ events) := by
  have hfree := h.free
  have hroom : events.length + q.length ≤ r.numEvents := by omega
  have hqueued := h.queued.extend h.curr h.head h.tail hroom
  have htail := h.tail.advance h.curr h.head hroom
  rw [← List.length_append] at htail
  have hlen : (q ++ events).length = q.length + events.length := List.length_append
  have hroom' : (q ++ events).length ≤ r.numEvents := by omega
  unfold InputEventCircularReader.fillWhole
  by_cases hzero : events.length = 0
  · obtain rfl := List.length_eq_zero_iff.mp hzero
    rw [if_neg (by simp), List.append_nil]
    exact ⟨rfl, h⟩
  · rw [if_pos hzero]
    by_cases hwrap : r.numEvents < r.mHead + events.length
    · rw [if_pos hwrap] at hqueued htail
      simp only [if_pos hwrap]
      refine ⟨trivial, hqueued, h.curr, ?_, htail, hroom', ?_⟩
      · have := h.head
        show r.mHead + events.length - r.numEvents ≤ r.numEvents
        omega
      · show r.mFreeSpace - events.length = r.numEvents - ((q ++ events).length : Int)
        omega
    · rw [if_neg hwrap] at hqueued htail
      simp only [if_neg hwrap]
      refine ⟨trivial, hqueued, h.curr, ?_, htail, hroom', ?_⟩
      · show r.mHead + events.length ≤ r.numEvents
        omega
      · show r.mFreeSpace - events.length = r.numEvents - ((q ++ events).length : Int)
        omega

/-- The events a `fill` has read. -/
def taken (r : InputEventCircularReader ε) : ReadResult ε → List ε
  | .data events none => if r.mFreeSpace ≠ 0 then events else []
  | _ => []

/-- A `fill` appends what it has read; one that fails leaves the queue alone. -/
theorem Holds.fill (h : r.Holds q) {result : ReadResult ε} (hfits : r.Fits result) :
    (r.fill result).reader.Holds (q ++ r.taken result) := by
  unfold InputEventCircularReader.fill taken
  by_cases hfree : r.mFreeSpace = 0
  · rw [if_neg (not_not.mpr hfree)]
    cases result with
    | error errno => simpa using h
    | data events part => cases part <;> simpa [hfree] using h
  · rw [if_pos hfree]
    cases result with
    | error errno => simpa using h
    | data events part =>
        cases part with
        | none =>
            simp only [if_pos hfree]
            exact (h.fillWhole (by simpa [Fits] using hfits)).2
        | some part =>
            have hlen : (events ++ [part]).length + q.length ≤ r.numEvents := by
              have := h.free
              simp only [Fits, Option.toList_some] at hfits
              omega
            rw [List.append_nil]
            exact ⟨h.queued.store h.tail hlen, h.curr, h.head, h.tail, h.room, h.free⟩

/-- A `fill` fails only when its `read` fails or stops inside an event. -/
theorem fill_ret_nonneg (r : InputEventCircularReader ε) (events : List ε) :
    0 ≤ (r.fill (.data events none)).ret := by
  simp only [InputEventCircularReader.fill, InputEventCircularReader.fillWhole]
  split_ifs <;> simp

/-- A `fill` that fails has read no event. -/
theorem taken_of_failed (r : InputEventCircularReader ε) {result : ReadResult ε}
    (hret : (r.fill result).ret < 0) : r.taken result = [] := by
  cases result with
  | error errno => rfl
  | data events part =>
      cases part with
      | none => exact absurd hret (not_lt.mpr (r.fill_ret_nonneg events))
      | some part => rfl

/-- An event is reported exactly when the queue is not empty. -/
theorem Holds.readEvent (h : r.Holds q) : r.readEvent = (r.mCurr, if q = [] then 0 else 1) := by
  have hfree := h.free
  rw [InputEventCircularReader.readEvent]
  by_cases hq : q = []
  · rw [if_pos hq, if_neg (by rw [hfree, hq]; simp)]
  · have hpos := List.length_pos_iff.mpr hq
    rw [if_neg hq, if_pos (by omega)]

theorem Holds.readEvent_ne_zero_iff (h : r.Holds q) : r.readEvent.2 ≠ 0 ↔ q ≠ [] := by
  rw [h.readEvent]
  by_cases hq : q = [] <;> simp [hq]

/-- The event at `mCurr` is the oldest one. -/
theorem Holds.front {x : ε} (h : r.Holds (x :: q)) : r.mBuffer r.mCurr = x := by
  have hx := h.queued 0 x rfl
  rwa [ringSlot, Nat.add_zero, if_pos h.curr] at hx

theorem Holds.next {x : ε} (h : r.Holds (x :: q)) : r.next.Holds q := by
  have hroom : q.length < r.numEvents := h.room
  have hfree : r.mFreeSpace = r.numEvents - ((q.length : Int) + 1) := by simpa using h.free
  have hcurr := h.curr
  refine ⟨h.queued.next h.curr hroom, ?_, h.head, h.tail.next h.curr h.head, Nat.le_of_lt hroom, ?_⟩
  · show (if r.numEvents ≤ r.mCurr + 1 then 0 else r.mCurr + 1) < r.numEvents
    split_ifs <;> omega
  · show r.mFreeSpace + 1 = r.numEvents - (q.length : Int)
    omega

end InputEventCircularReader

/-! ## Every sequence of operations -/

inductive ReaderOp (ε : Type*) where
  | fill (result : ReadResult ε)
  | readEvent
  | next
deriving DecidableEq, Repr

/-- A reader with the events that `fill` has read and those taken by `next`. -/
structure ReaderRun (ε : Type*) where
  reader : InputEventCircularReader ε
  filled : List ε
  seen : List ε

def ReaderRun.init (numEvents : Nat) (mBuffer : Nat → ε) : ReaderRun ε :=
  ⟨.init numEvents mBuffer, [], []⟩

def readerStep (s : ReaderRun ε) : ReaderOp ε → ReaderRun ε
  | .fill result =>
      { s with
        reader := (s.reader.fill result).reader, filled := s.filled ++ s.reader.taken result }
  | .readEvent => s
  | .next =>
      { s with
        reader := s.reader.next, seen := s.seen ++ [s.reader.mBuffer s.reader.readEvent.1] }

/-- A `read` gives no more than it was asked for, and `next` follows an event. -/
def ReaderLegal (s : ReaderRun ε) : ReaderOp ε → Prop
  | .fill result => s.reader.Fits result
  | .readEvent => True
  | .next => s.reader.readEvent.2 ≠ 0

instance (s : ReaderRun ε) : (op : ReaderOp ε) → Decidable (ReaderLegal s op)
  | .fill result => inferInstanceAs (Decidable (s.reader.Fits result))
  | .readEvent => isTrue trivial
  | .next => inferInstanceAs (Decidable (_ ≠ _))

/-- The number of events that were read and not taken yet. -/
def ReaderRun.unread (s : ReaderRun ε) : Nat := s.filled.length - s.seen.length

/-- The entry of an event that was not taken yet. -/
def ReaderRun.IsUnread (s : ReaderRun ε) (i : Nat) : Prop :=
  ∃ k < s.unread, i = ringSlot s.reader.numEvents (s.reader.mCurr + k)

/-- The reader is a queue between the events read and the events taken. -/
structure ReaderRun.Fifo (N : Nat) (s : ReaderRun ε) : Prop where
  seen : s.seen <+: s.filled
  reports : s.reader.readEvent.2 = if s.seen.length < s.filled.length then 1 else 0
  event : s.seen.length < s.filled.length →
    s.filled[s.seen.length]? = some (s.reader.mBuffer s.reader.readEvent.1)
  free : s.reader.mFreeSpace = (N : Int) - s.unread
  curr : s.reader.mCurr < N
  head : s.reader.mHead ≤ N

/-- A `fill` writes inside the buffer, copies over no event that was not taken,
and when it fails leaves the pointers and these events as they are. -/
structure ReaderRun.FillSafe (s : ReaderRun ε) (N : Nat) (out : FillOut ε) : Prop where
  inside : ∀ i ∈ out.stored ++ out.copied, i < 2 * N
  copied : ∀ i ∈ out.copied, ¬s.IsUnread i
  failed : out.ret < 0 →
    out.reader.mHead = s.reader.mHead ∧ out.reader.mCurr = s.reader.mCurr
      ∧ out.reader.mFreeSpace = s.reader.mFreeSpace
      ∧ ∀ i, s.IsUnread i → out.reader.mBuffer i = s.reader.mBuffer i

def ReaderSafe (N : Nat) (s : ReaderRun ε) : ReaderOp ε → Prop
  | .fill result => s.FillSafe N (s.reader.fill result)
  | _ => True

/-- The reader holds exactly what was read and not taken. -/
structure ReaderRun.Inv (N : Nat) (s : ReaderRun ε) : Prop where
  numEvents : s.reader.numEvents = N
  holds : ∃ q, s.filled = s.seen ++ q ∧ s.reader.Holds q

theorem ReaderRun.Inv.fifo {N : Nat} {s : ReaderRun ε} (h : s.Inv N) : s.Fifo N := by
  obtain ⟨rfl, q, hq, hr⟩ := h
  have hlen : s.filled.length = s.seen.length + q.length := by rw [hq, List.length_append]
  refine ⟨⟨q, hq.symm⟩, ?_, fun hlt => ?_, ?_, hr.curr, hr.head⟩
  · rw [hr.readEvent]
    cases q with
    | nil => simp [hlen]
    | cons x q => simp [hlen]
  · cases q with
    | nil =>
        rw [List.length_nil] at hlen
        omega
    | cons x q =>
        rw [hr.readEvent, hr.front, hq, List.getElem?_append_right (Nat.le_refl _), Nat.sub_self]
        rfl
  · rw [hr.free, ReaderRun.unread, hlen, Nat.add_sub_cancel_left]

theorem readerStep_inv {N : Nat} {s : ReaderRun ε} {op : ReaderOp ε} (h : s.Inv N)
    (hlegal : ReaderLegal s op) : (readerStep s op).Inv N := by
  obtain ⟨hN, q, hq, hr⟩ := h
  cases op with
  | fill result =>
      refine ⟨(s.reader.fill_numEvents result).trans hN, q ++ s.reader.taken result, ?_,
        hr.fill hlegal⟩
      show s.filled ++ s.reader.taken result = s.seen ++ (q ++ s.reader.taken result)
      rw [hq, List.append_assoc]
  | readEvent => exact ⟨hN, q, hq, hr⟩
  | next =>
      cases q with
      | nil =>
          rw [ReaderLegal, hr.readEvent] at hlegal
          exact absurd rfl hlegal
      | cons x q =>
          refine ⟨hN, q, ?_, hr.next⟩
          have hx : s.reader.mBuffer s.reader.readEvent.1 = x := by rw [hr.readEvent, hr.front]
          show s.filled = s.seen ++ [_] ++ q
          rw [hx, hq, List.append_assoc]
          rfl

/-- A `fill` that reads nothing. -/
theorem ReaderRun.FillSafe.idle (N : Nat) (s : ReaderRun ε) (ret : Int) :
    s.FillSafe N { ret := ret, reader := s.reader } :=
  ⟨by simp, by simp, fun _ => ⟨rfl, rfl, rfl, fun _ _ => rfl⟩⟩

theorem ReaderRun.unread_eq {s : ReaderRun ε} {q : List ε} (hq : s.filled = s.seen ++ q) :
    s.unread = q.length := by
  rw [ReaderRun.unread, hq, List.length_append, Nat.add_sub_cancel_left]

/-- A partial event is stored behind the events that were not taken. -/
theorem fillPart_safe {s : ReaderRun ε} {q : List ε} (hq : s.filled = s.seen ++ q)
    (hr : s.reader.Holds q) {events : List ε} {part : ε}
    (hfits : events.length + 1 ≤ s.reader.mFreeSpace) :
    s.FillSafe s.reader.numEvents
      { ret := -einval
        reader := { s.reader with
          mBuffer := store s.reader.mBuffer s.reader.mHead (events ++ [part]) }
        stored := List.range' s.reader.mHead (events.length + 1) } := by
  have hfree := hr.free
  have hhead := hr.head
  refine ⟨?_, by simp, fun _ => ⟨rfl, rfl, rfl, ?_⟩⟩
  · simp only [List.append_nil, List.mem_range'_1]
    omega
  · rintro i ⟨k, hk, rfl⟩
    have hlen : (events ++ [part]).length + q.length ≤ s.reader.numEvents := by
      rw [List.length_append, List.length_singleton]
      omega
    rw [ReaderRun.unread_eq hq] at hk
    obtain ⟨x, hx⟩ : ∃ x, q[k]? = some x := ⟨_, List.getElem?_eq_getElem hk⟩
    exact (hr.queued.store hr.tail hlen k x hx).trans (hr.queued k x hx).symm

theorem fillWhole_safe {s : ReaderRun ε} {q : List ε} (hq : s.filled = s.seen ++ q)
    (hr : s.reader.Holds q) {events : List ε} (hfits : events.length ≤ s.reader.mFreeSpace) :
    s.FillSafe s.reader.numEvents (s.reader.fillWhole events) := by
  have hfree := hr.free
  have hhead := hr.head
  simp only [InputEventCircularReader.fillWhole]
  split_ifs with hzero hwrap
  · refine ⟨?_, ?_, fun hneg => ?_⟩
    · simp only [List.mem_append, List.mem_range'_1, List.mem_range]
      omega
    · rintro i hi ⟨k, hk, rfl⟩
      have := copy_avoids (m := events.length) hr.head hr.tail (by omega)
        (ReaderRun.unread_eq hq ▸ hk)
      rw [List.mem_range] at hi
      omega
    · simp only at hneg
      omega
  · refine ⟨?_, by simp, fun hneg => ?_⟩
    · simp only [List.append_nil, List.mem_range'_1]
      omega
    · simp only at hneg
      omega
  · exact ReaderRun.FillSafe.idle _ s 0

/-- The entries that a `fill` writes, for a reader that holds `q`. -/
theorem fill_safe {N : Nat} {s : ReaderRun ε} (h : s.Inv N) {result : ReadResult ε}
    (hfits : s.reader.Fits result) : s.FillSafe N (s.reader.fill result) := by
  obtain ⟨rfl, q, hq, hr⟩ := h
  unfold InputEventCircularReader.fill
  split
  · cases result with
    | error errno => exact ReaderRun.FillSafe.idle _ s _
    | data events part =>
        simp only [InputEventCircularReader.Fits, List.length_append] at hfits
        cases part with
        | some part => exact fillPart_safe hq hr hfits
        | none => exact fillWhole_safe hq hr hfits
  · exact ReaderRun.FillSafe.idle _ s 0

/-- **The circular reader is a FIFO.** For every capacity and every sequence of
operations, what was taken is a prefix of what was read and the event reported
next is the one that follows; the bookkeeping of the ring is exact, and every
`fill` of the sequence is safe. -/
theorem circular_reader_fifo (N : Nat) (hN : 1 ≤ N) (mBuffer : Nat → ε) (ops : List (ReaderOp ε))
    (hlegal : AllSteps readerStep ReaderLegal (.init N mBuffer) ops) :
    (runFrom readerStep (.init N mBuffer) ops).Fifo N
      ∧ AllSteps readerStep (ReaderSafe N) (.init N mBuffer) ops := by
  have hinit : (ReaderRun.init N mBuffer).Inv N :=
    ⟨rfl, [], rfl, InputEventCircularReader.init_holds hN mBuffer⟩
  refine ⟨?_, ?_⟩
  · exact (hlegal.run_inv (I := ReaderRun.Inv N) (fun _ _ hs hl => readerStep_inv hs hl)
      hinit).fifo
  · refine hlegal.imp (I := ReaderRun.Inv N) (fun _ _ hs hl => readerStep_inv hs hl)
      (fun s op hs hl => ?_) hinit
    cases op with
    | fill result => exact fill_safe hs hl
    | readEvent => trivial
    | next => trivial

/-- A run in which the write position rests on the end, wraps and meets a
partial event. -/
def sampleOps : List (ReaderOp Nat) :=
  [.fill (.data [1, 2, 3] none), .next, .readEvent, .next, .fill (.data [4] (some 99)),
    .fill (.data [5, 6] none), .next, .next]

theorem sampleOps_fifo :
    (runFrom readerStep (.init 3 fun _ => 0) sampleOps).seen = [1, 2, 3, 5]
      ∧ (runFrom readerStep (.init 3 fun _ => 0) sampleOps).Fifo 3 :=
  ⟨by decide, (circular_reader_fifo 3 (by decide) (fun _ => 0) sampleOps (by decide)).1⟩

end HtcLeo
