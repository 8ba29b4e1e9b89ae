import Mathlib.Algebra.Order.BigOperators.Group.List
import HtcLeo.AkmSensor
import HtcLeo.LevelSensor

/-!
# Polling the sensors (`sensors_poll_context_t::pollEvents`)

`pollEvents` lets the drivers write into the caller's array one after the
other and moves `data`, `count` and `nbEvents` by what each returns; it
goes on until the array is full or `poll` has nothing more. A driver that
cannot read its device returns a negative code, which moves them back.

The caller's array is the memory around it, so that a write in front of
it is visible. `count` and `nbEvents` are `int`s; a call in which one of
them overflows has no meaning in C++, and from there on the model only
knows that it has (`overflow`). A call is run on a script: for every round, what the
devices of the drivers give and what `poll` answers. When the script ends
before the call does, the call is still running.

`poll_inside_iff` says exactly for which results of the drivers a call
keeps to the array and reports what it has written.
-/

namespace HtcLeo

section

variable [SensorFloat]

/-! ## The context -/

inductive PollFd where
  | light
  | proximity
  | akm
  | wake
deriving DecidableEq, Repr

def pollIn : BitVec 16 := 1

structure SensorsPollContext where
  light : LevelSensor
  proximity : LevelSensor
  akm : AkmSensor
  revents : PollFd → BitVec 16

/-- What `poll` answers: an error, or the number of descriptors and their events. -/
inductive PollResult where
  | failed (errno : Nat) (hpos : 0 < errno)
  | ready (n : Nat) (revents : PollFd → BitVec 16)

/-- What one round of the loop gets from the system. -/
structure PollRound where
  lightRead : ReadResult InputEvent
  lightTime : Int
  proximityRead : ReadResult InputEvent
  proximityTime : Int
  akmRead : ReadResult InputEvent
  poll : PollResult

/-- What a driver returns, and the events it writes from `data` on. -/
structure DriverResult where
  nb : Int
  written : List SensorsEvent

/-- A call in progress: the driver state, the caller's array with the entries
written, the results of the drivers, and whether an `int` has overflowed. -/
structure PollState where
  ctx : SensorsPollContext
  data : Int
  count : Int
  nbEvents : Int
  array : Int → SensorsEvent
  writes : List Int
  results : List DriverResult
  overflow : Bool

/-- A call begins. -/
def PollState.begin (ctx : SensorsPollContext) (array : Int → SensorsEvent) (count : Int) :
    PollState :=
  ⟨ctx, 0, count, 0, array, [], [], false⟩

inductive PollEnd where
  /-- The script is over and the call is not. -/
  | running
  | failed (errno : Nat) (hpos : 0 < errno)
  | done

structure PollOut where
  state : PollState
  stop : PollEnd

/-- What the call returns. -/
def PollOut.ret (out : PollOut) : Option Int :=
  match out.stop with
  | .running => none
  | .failed errno _ => some (-errno)
  | .done => some out.state.nbEvents

/-- Write events to consecutive entries. -/
def writeEvents (a : Int → SensorsEvent) (i : Int) : List SensorsEvent → Int → SensorsEvent
  | [] => a
  | e :: es => writeEvents (Function.update a i e) (i + 1) es

/-! ## The loop -/

/-- The value of an `int`. -/
def IsInt (n : Int) : Prop := -2 ^ 31 ≤ n ∧ n < 2 ^ 31

instance (n : Int) : Decidable (IsInt n) := inferInstanceAs (Decidable (_ ∧ _))

/-- A driver has written and returned. -/
def PollState.account (st : PollState) (ctx : SensorsPollContext) (r : DriverResult) :
    PollState where
  ctx := ctx
  data := wrap32 (st.data + r.nb)
  count := wrap32 (st.count - r.nb)
  nbEvents := wrap32 (st.nbEvents + r.nb)
  overflow := st.overflow || !(IsInt (st.count - r.nb) && IsInt (st.nbEvents + r.nb))
  array := writeEvents st.array st.data r.written
  writes := st.writes ++ (List.range r.written.length).map fun k : Nat => st.data + k
  results := st.results ++ [r]

/-- No more data for this sensor. -/
def clearRevents (revents : PollFd → BitVec 16) (fd : PollFd) (nb count : Int) :
    PollFd → BitVec 16 :=
  if nb < count then Function.update revents fd 0 else revents

def pollLight (round : PollRound) (st : PollState) : PollState :=
  if st.count ≠ 0 ∧ (st.ctx.revents .light &&& pollIn ≠ 0 ∨ st.ctx.light.hasPendingEvents = true) then
    let r := st.ctx.light.readEvents lightKind st.count round.lightTime round.lightRead
    st.account { st.ctx with
      light := r.2.1, revents := clearRevents st.ctx.revents .light r.1 st.count } ⟨r.1, r.2.2⟩
  else st

def pollProximity (round : PollRound) (st : PollState) : PollState :=
  if st.count ≠ 0 ∧
      (st.ctx.revents .proximity &&& pollIn ≠ 0 ∨ st.ctx.proximity.hasPendingEvents = true) then
    let r := st.ctx.proximity.readEvents proximityKind st.count round.proximityTime
      round.proximityRead
    st.account { st.ctx with
      proximity := r.2.1, revents := clearRevents st.ctx.revents .proximity r.1 st.count }
      ⟨r.1, r.2.2⟩
  else st

/-- The AKM driver has no pending events of its own. -/
def pollAkm (round : PollRound) (st : PollState) : PollState :=
  if st.count ≠ 0 ∧ st.ctx.revents .akm &&& pollIn ≠ 0 then
    let r := st.ctx.akm.readEvents st.count round.akmRead
    st.account { st.ctx with
      akm := r.2.1, revents := clearRevents st.ctx.revents .akm r.1 st.count } ⟨r.1, r.2.2⟩
  else st

/-- The loop over the drivers. -/
def pollDrivers (round : PollRound) (st : PollState) : PollState :=
  pollAkm round (pollProximity round (pollLight round st))

/-- The events that `poll` has reported; the wake message is read and dropped. -/
def PollState.polled (st : PollState) (revents : PollFd → BitVec 16) : PollState :=
  { st with ctx := { st.ctx with
      revents := if revents .wake &&& pollIn ≠ 0 then Function.update revents .wake 0 else revents } }

def pollLoop : List PollRound → PollState → PollOut
  | [], st => ⟨st, .running⟩
  | round :: rounds, st =>
      let st := pollDrivers round st
      if st.count ≠ 0 then
        match round.poll with
        | .failed errno hpos => ⟨st, .failed errno hpos⟩
        | .ready n revents =>
            if n ≠ 0 then pollLoop rounds (st.polled revents) else ⟨st.polled revents, .done⟩
      else ⟨st, .done⟩

/-- A call with an array of `count` entries. -/
def pollEvents (ctx : SensorsPollContext) (array : Int → SensorsEvent) (count : Int)
    (rounds : List PollRound) : PollOut :=
  pollLoop rounds (.begin ctx array count)

/-! ## What the drivers can return -/

/-- A driver that is given room for `count` events writes no more and returns no
more; it returns the number of events written, or 0 for a pending event of a
disabled sensor, or an error code without writing. -/
structure DriverResult.Ok (r : DriverResult) (count : Int) : Prop where
  room : (r.written.length : Int) ≤ count
  counted : 0 ≤ r.nb → r.nb ≤ r.written.length
  failed : r.nb < 0 → r.written = []

theorem LevelSensor.processEvent_length (kind : LevelKind) (s : LevelSensor) (event : InputEvent) :
    (s.processEvent kind event).2.length ≤ 1 := by
  simp only [LevelSensor.processEvent]
  split_ifs <;> simp

theorem LevelSensor.readLoop_length (kind : LevelKind) (rounds : Nat) (s : LevelSensor)
    (count : Nat) : (s.readLoop kind rounds count).2.length ≤ count := by
  induction rounds generalizing s count with
  | zero => exact Nat.zero_le _
  | succ rounds ih =>
      rw [LevelSensor.readLoop]
      split_ifs with hgo
      · have hone := s.processEvent_length kind
          (s.mInputReader.mBuffer s.mInputReader.readEvent.1)
        simp only [List.length_append]
        refine le_trans (Nat.add_le_add_left (ih _ _) _) ?_
        omega
      · exact Nat.zero_le _

theorem LevelSensor.readEvents_ok (kind : LevelKind) (s : LevelSensor) {count : Int}
    (hcount : 1 ≤ count) (time : Int) (result : ReadResult InputEvent) :
    DriverResult.Ok ⟨(s.readEvents kind count time result).1,
      (s.readEvents kind count time result).2.2⟩ count := by
  unfold LevelSensor.readEvents
  rw [if_neg (by omega)]
  by_cases hpending : s.mHasPendingEvent = true
  · simp only [if_pos hpending]
    refine ⟨by simpa using hcount, fun _ => ?_, fun hneg => ?_⟩
    · split_ifs <;> simp
    · simp only at hneg
      split_ifs at hneg <;> omega
  · simp only [if_neg hpending]
    split_ifs with hfill
    · exact ⟨by simp; omega, fun hpos => by simp only at hpos; omega, fun _ => rfl⟩
    · have hlen := LevelSensor.readLoop_length kind
        ((s.mInputReader.fill result).reader.numEvents
          - (s.mInputReader.fill result).reader.mFreeSpace).toNat
        { s with mInputReader := (s.mInputReader.fill result).reader } count.toNat
      refine ⟨?_, fun _ => le_refl _, fun hneg => ?_⟩
      · simp only
        omega
      · simp only at hneg
        omega

/-- The room left and the events written add up to `count`. -/
theorem AkmSensor.synLoop_length (time : Int) (js : List AkmIndex) (s : AkmSensor) (count : Nat) :
    (AkmSensor.synLoop time js s count).count + (AkmSensor.synLoop time js s count).data.length
      = count := by
  induction js generalizing s count with
  | nil => rfl
  | cons j js ih =>
      rw [AkmSensor.synLoop]
      split_ifs with hgo
      · have hbody : (s.synBody time count j).count + (s.synBody time count j).data.length
            = count := by
          simp only [AkmSensor.synBody]
          split_ifs
          · have := hgo.1
            simp only [List.length_singleton]
            omega
          · rfl
          · rfl
        have hrest := ih (s.synBody time count j).sensor (s.synBody time count j).count
        simp only [List.length_append]
        omega
      · rfl

theorem AkmSensor.readLoop_length (rounds : Nat) (s : AkmSensor) (count : Nat) :
    (AkmSensor.readLoop rounds s count).data.length ≤ count := by
  induction rounds generalizing s count with
  | zero => exact Nat.zero_le _
  | succ rounds ih =>
      rw [AkmSensor.readLoop]
      split
      · simp only
        split
        · exact ih _ _
        · split
          · have hsyn := AkmSensor.synLoop_length
              (s.mInputReader.mBuffer s.mInputReader.readEvent.1).timevalToNano AkmIndex.all s count
            simp only [List.length_append]
            refine le_trans (Nat.add_le_add_left (ih _ _) _) ?_
            omega
          · exact ih _ _
      · exact Nat.zero_le _

theorem AkmSensor.readEvents_ok (s : AkmSensor) {count : Int} (hcount : 1 ≤ count)
    (result : ReadResult InputEvent) :
    DriverResult.Ok ⟨(s.readEvents count result).1, (s.readEvents count result).2.2⟩ count := by
  unfold AkmSensor.readEvents
  rw [if_neg (by omega)]
  simp only
  split_ifs with hfill
  · exact ⟨by simp; omega, fun hpos => by simp only at hpos; omega, fun _ => rfl⟩
  · have hlen := AkmSensor.readLoop_length
      ((s.mInputReader.fill result).reader.numEvents
        - (s.mInputReader.fill result).reader.mFreeSpace).toNat
      { s with mInputReader := (s.mInputReader.fill result).reader } count.toNat
    refine ⟨?_, fun _ => le_refl _, fun hneg => ?_⟩
    · simp only
      omega
    · simp only at hneg
      omega

/-! ## Accounting -/

/-- What the drivers have returned altogether. -/
def totalNb (results : List DriverResult) : Int := (results.map DriverResult.nb).sum

/-- The events that the drivers have reported. -/
def delivered (results : List DriverResult) : List SensorsEvent :=
  results.flatMap fun r => r.written.take r.nb.toNat

theorem totalNb_append (rs : List DriverResult) (r : DriverResult) :
    totalNb (rs ++ [r]) = totalNb rs + r.nb := by
  simp [totalNb]

theorem delivered_append (rs : List DriverResult) (r : DriverResult) :
    delivered (rs ++ [r]) = delivered rs ++ r.written.take r.nb.toNat := by
  simp [delivered]

theorem writeEvents_of_lt {a : Int → SensorsEvent} {i j : Int} {es : List SensorsEvent}
    (h : j < i) : writeEvents a i es j = a j := by
  induction es generalizing a i with
  | nil => rfl
  | cons e es ih => rw [writeEvents, ih (by omega), Function.update_of_ne (by omega)]

theorem writeEvents_get {a : Int → SensorsEvent} {i : Int} {k : Nat} {es : List SensorsEvent}
    {e : SensorsEvent} (h : es[k]? = some e) : writeEvents a i es (i + k) = e := by
  induction es generalizing a i k with
  | nil => simp at h
  | cons x es ih =>
      cases k with
      | zero =>
          rw [List.getElem?_cons_zero] at h
          rw [Nat.cast_zero, add_zero, writeEvents, writeEvents_of_lt (by omega),
            Function.update_self]
          exact Option.some.inj h
      | succ k =>
          rw [List.getElem?_cons_succ] at h
          rw [writeEvents, show i + ((k + 1 : Nat) : Int) = i + 1 + k by push_cast; ring]
          exact ih h

/-- Without an overflow `count` and `nbEvents` are what the driver makes of them. -/
theorem PollState.account_exact {st : PollState} {ctx : SensorsPollContext} {r : DriverResult}
    (h : (st.account ctx r).overflow = false) :
    st.overflow = false ∧ (st.account ctx r).count = st.count - r.nb
      ∧ (st.account ctx r).nbEvents = st.nbEvents + r.nb := by
  simp only [PollState.account, Bool.or_eq_false_iff, Bool.not_eq_false', Bool.and_eq_true,
    decide_eq_true_eq] at h ⊢
  obtain ⟨hbefore, ⟨hlo, hhi⟩, hlo', hhi'⟩ := h
  exact ⟨hbefore, wrap32_eq hlo hhi, wrap32_eq hlo' hhi'⟩

theorem PollState.account_safe {st : PollState} {ctx : SensorsPollContext} {r : DriverResult}
    (h : st.overflow = false) (hcount : IsInt (st.count - r.nb))
    (hnb : IsInt (st.nbEvents + r.nb)) : (st.account ctx r).overflow = false := by
  simp [PollState.account, h, hcount, hnb]

/-- As long as nothing has overflowed: how `data`, `count`, the writes and the array
follow from the results of the drivers, for an array of `C` entries. -/
structure PollState.Accounts (C : Int) (st : PollState) : Prop where
  data : st.data = totalNb st.results
  nbEvents : st.nbEvents = totalNb st.results
  count : st.count = C - totalNb st.results
  room : 0 ≤ st.count
  counted : ∀ r ∈ st.results, 0 ≤ r.nb → r.nb ≤ r.written.length
  written : ∀ i, i ∈ st.writes ↔ ∃ pre r, pre ++ [r] <+: st.results
    ∧ ∃ k : Nat, k < r.written.length ∧ i = totalNb pre + k
  below : ∀ i ∈ st.writes, i < C
  /-- As long as no driver has failed. -/
  array : (∀ r ∈ st.results, 0 ≤ r.nb) →
    ∀ (k : Nat) e, (delivered st.results)[k]? = some e → st.array k = e

theorem length_delivered {rs : List DriverResult}
    (h : ∀ r ∈ rs, 0 ≤ r.nb → r.nb ≤ r.written.length) :
    ((delivered rs).length : Int) = (rs.map fun r => max r.nb 0).sum := by
  induction rs with
  | nil => rfl
  | cons r rs ih =>
      have hr := h r (List.mem_cons_self ..)
      have hrest := ih fun r' hr' => h r' (List.mem_cons_of_mem _ hr')
      rw [delivered, List.flatMap_cons, List.length_append, List.length_take, List.map_cons,
        List.sum_cons, ← hrest]
      simp only [delivered]
      omega

/-- The drivers have reported as many events as they have returned only if none
of them has failed. -/
theorem nonneg_of_total {rs : List DriverResult}
    (h : totalNb rs = (rs.map fun r => max r.nb 0).sum) : ∀ r ∈ rs, 0 ≤ r.nb := by
  have hle : ∀ rs : List DriverResult, totalNb rs ≤ (rs.map fun r => max r.nb 0).sum := by
    intro rs
    induction rs with
    | nil => exact le_refl _
    | cons r rs ih =>
        simp only [totalNb, List.map_cons, List.sum_cons] at ih ⊢
        omega
  induction rs with
  | nil => simp
  | cons r rs ih =>
      have hrest := hle rs
      simp only [totalNb, List.map_cons, List.sum_cons] at h hrest
      intro r' hr'
      rcases List.mem_cons.mp hr' with rfl | hr'
      · omega
      · exact ih (by simp only [totalNb]; omega) r' hr'

/-- Without a failure they have. -/
theorem total_of_nonneg {rs : List DriverResult} (h : ∀ r ∈ rs, 0 ≤ r.nb) :
    totalNb rs = (rs.map fun r => max r.nb 0).sum :=
  congrArg List.sum (List.map_congr_left fun r hr => (max_eq_left (h r hr)).symm)

/-- The writes of the next driver are those behind the results before it. -/
theorem PollState.Accounts.account_written {C : Int} {st : PollState} (h : st.Accounts C)
    (ctx : SensorsPollContext) (r : DriverResult) (i : Int) :
    i ∈ (st.account ctx r).writes ↔ ∃ pre r', pre ++ [r'] <+: st.results ++ [r]
      ∧ ∃ k : Nat, k < r'.written.length ∧ i = totalNb pre + k := by
  simp only [PollState.account, List.mem_append, h.written, List.mem_map, List.mem_range,
    List.prefix_concat_iff]
  constructor
  · rintro (⟨pre, r', hpre, hk⟩ | ⟨k, hk, rfl⟩)
    · exact ⟨pre, r', Or.inr hpre, hk⟩
    · exact ⟨st.results, r, Or.inl rfl, k, hk, by rw [h.data]⟩
  · rintro ⟨pre, r', hpre | hpre, k, hk, rfl⟩
    · obtain ⟨rfl, hr'⟩ := List.append_inj' hpre rfl
      obtain rfl := List.singleton_inj.mp hr'
      exact Or.inr ⟨k, hk, by rw [h.data]⟩
    · exact Or.inl ⟨pre, r', hpre, k, hk, rfl⟩

/-- Without a failure it appends its events to those in the array. -/
theorem PollState.Accounts.account_array {C : Int} {st : PollState} (h : st.Accounts C)
    (ctx : SensorsPollContext) {r : DriverResult} (hnonneg : ∀ r' ∈ st.results ++ [r], 0 ≤ r'.nb)
    {k : Nat} {e : SensorsEvent} (hk : (delivered (st.results ++ [r]))[k]? = some e) :
    (st.account ctx r).array k = e := by
  have hold : ∀ r' ∈ st.results, 0 ≤ r'.nb := fun r' hr' =>
    hnonneg r' (List.mem_append_left _ hr')
  have hnew : 0 ≤ r.nb := hnonneg r (List.mem_append_right _ (List.mem_singleton_self r))
  have hoff : st.data = (delivered st.results).length := by
    rw [h.data, length_delivered h.counted, total_of_nonneg hold]
  show writeEvents st.array st.data r.written k = e
  rw [delivered_append] at hk
  by_cases hlt : k < (delivered st.results).length
  · rw [List.getElem?_append_left hlt] at hk
    rw [writeEvents_of_lt (by omega)]
    exact h.array hold k e hk
  · rw [List.getElem?_append_right (by omega), List.getElem?_take] at hk
    split_ifs at hk
    rw [show (k : Int) = st.data + (k - (delivered st.results).length : Nat) by omega]
    exact writeEvents_get hk

/-- What a driver that keeps to its room leaves of `count`. -/
theorem DriverResult.Ok.left {r : DriverResult} {count : Int} (h : r.Ok count)
    (hcount : 0 ≤ count) : 0 ≤ count - r.nb := by
  by_cases hneg : r.nb < 0
  · omega
  · have hcounted := h.counted (by omega)
    have hlen := h.room
    omega

/-- A driver that keeps to its room keeps the accounts. -/
theorem PollState.Accounts.account {C : Int} {st : PollState} (h : st.Accounts C)
    (ctx : SensorsPollContext) {r : DriverResult} (hr : r.Ok st.count)
    (hsafe : (st.account ctx r).overflow = false) :
    (st.account ctx r).Accounts C := by
  obtain ⟨-, hcount, hnb⟩ := PollState.account_exact hsafe
  refine ⟨?_, ?_, ?_, ?_, ?_, h.account_written ctx r, ?_,
    fun hnonneg k e hk => h.account_array ctx hnonneg hk⟩
  · have hdata : (st.account ctx r).data = (st.account ctx r).nbEvents := by
      simp only [PollState.account, h.data, h.nbEvents]
    rw [hdata, hnb, h.nbEvents]
    exact (totalNb_append st.results r).symm
  · rw [hnb, h.nbEvents]
    exact (totalNb_append st.results r).symm
  · have htotal : totalNb (st.account ctx r).results = totalNb st.results + r.nb :=
      totalNb_append st.results r
    have := h.count
    omega
  · rw [hcount]
    exact hr.left h.room
  · intro r' hr'
    rcases List.mem_append.mp hr' with hr' | hr'
    · exact h.counted r' hr'
    · obtain rfl := List.mem_singleton.mp hr'
      exact hr.counted
  · intro i hi
    rcases List.mem_append.mp hi with hi | hi
    · exact h.below i hi
    · obtain ⟨k, hk, rfl⟩ := List.mem_map.mp hi
      rw [List.mem_range] at hk
      have hdata := h.data
      have hcount := h.count
      have hlen := hr.room
      omega

/-- The accounts do not mention the drivers and the descriptors. -/
theorem PollState.Accounts.withCtx {C : Int} {st : PollState} (h : st.Accounts C)
    (ctx : SensorsPollContext) : ({ st with ctx := ctx } : PollState).Accounts C :=
  ⟨h.data, h.nbEvents, h.count, h.room, h.counted, h.written, h.below, h.array⟩

/-! ## The call -/

/-- The books of a call on an array of `C` entries: they are right as long as the
error codes leave `count` an `int`. -/
inductive PollState.Audited (C : Int) (st : PollState) : Prop where
  | right (safe : st.overflow = false) (accounts : st.Accounts C)
      (small : ∀ pre, pre <+: st.results → C - totalNb pre < 2 ^ 31)
  | overflowed (flagged : st.overflow = true)
      (large : ∃ pre, pre <+: st.results ∧ 2 ^ 31 ≤ C - totalNb pre)

theorem PollState.Audited.withCtx {C : Int} {st : PollState} (h : st.Audited C)
    (ctx : SensorsPollContext) : ({ st with ctx := ctx } : PollState).Audited C := by
  cases h with
  | right safe accounts small => exact .right safe (accounts.withCtx ctx) small
  | overflowed flagged large => exact .overflowed flagged large

/-- The books after a driver that keeps to the room it is given. -/
theorem PollState.Audited.account {C : Int} (hC : 0 ≤ C ∧ C < 2 ^ 31) {st : PollState}
    (h : st.Audited C) (hfull : st.count ≠ 0) (ctx : SensorsPollContext) {r : DriverResult}
    (hr : 1 ≤ st.count → r.Ok st.count) : (st.account ctx r).Audited C := by
  have htotal : totalNb (st.account ctx r).results = totalNb st.results + r.nb :=
    totalNb_append st.results r
  cases h with
  | overflowed flagged large =>
      obtain ⟨pre, hpre, hlarge⟩ := large
      refine .overflowed ?_ ⟨pre, hpre.trans (List.prefix_append ..), hlarge⟩
      simp [PollState.account, flagged]
  | right safe accounts small =>
      have hok := hr (lt_of_le_of_ne accounts.room (Ne.symm hfull))
      have hroom := accounts.room
      have hleft := hok.left hroom
      have hcount := accounts.count
      have hnb := accounts.nbEvents
      cases hsafe : (st.account ctx r).overflow with
      | false =>
          obtain ⟨-, hcount', hnb'⟩ := PollState.account_exact hsafe
          refine .right hsafe (accounts.account ctx hok hsafe) fun pre hpre => ?_
          rcases List.prefix_concat_iff.mp hpre with rfl | hpre
          · have hint : IsInt (st.count - r.nb) := by
              by_contra hnot
              simp [PollState.account, hnot] at hsafe
            have := hint.2
            rw [totalNb_append]
            omega
          · exact small pre hpre
      | true =>
          refine .overflowed hsafe ⟨_, List.prefix_refl _, ?_⟩
          rw [htotal]
          -- `count` cannot get negative, and `nbEvents` not larger than the array
          by_contra hsmall
          have hint : IsInt (st.count - r.nb) := ⟨by omega, by omega⟩
          have hint' : IsInt (st.nbEvents + r.nb) := ⟨by omega, by omega⟩
          rw [PollState.account_safe safe hint hint'] at hsafe
          cases hsafe

theorem pollDrivers_audited {C : Int} (hC : 0 ≤ C ∧ C < 2 ^ 31) {st : PollState} (h : st.Audited C)
    (round : PollRound) : (pollDrivers round st).Audited C := by
  have hlight : (pollLight round st).Audited C := by
    simp only [pollLight]
    split_ifs with hgo
    · exact h.account hC hgo.1 _ fun hroom => LevelSensor.readEvents_ok lightKind _ hroom _ _
    · exact h
  have hproximity : (pollProximity round (pollLight round st)).Audited C := by
    simp only [pollProximity]
    split_ifs with hgo
    · exact hlight.account hC hgo.1 _ fun hroom =>
        LevelSensor.readEvents_ok proximityKind _ hroom _ _
    · exact hlight
  simp only [pollDrivers, pollAkm]
  split_ifs with hgo
  · exact hproximity.account hC hgo.1 _ fun hroom => AkmSensor.readEvents_ok _ hroom _
  · exact hproximity

theorem pollLoop_audited {C : Int} (hC : 0 ≤ C ∧ C < 2 ^ 31) (rounds : List PollRound)
    {st : PollState} (h : st.Audited C) : (pollLoop rounds st).state.Audited C := by
  induction rounds generalizing st with
  | nil => exact h
  | cons round rounds ih =>
      have hround := pollDrivers_audited hC h round
      rw [pollLoop]
      split_ifs
      · split
        · exact hround
        · split_ifs
          · exact ih (hround.withCtx _)
          · exact hround.withCtx _
      · exact hround

theorem PollState.begin_accounts (ctx : SensorsPollContext) (array : Int → SensorsEvent)
    {count : Int} (hcount : 0 ≤ count) : (PollState.begin ctx array count).Accounts count where
  data := rfl
  nbEvents := rfl
  count := by simp [PollState.begin, totalNb]
  room := hcount
  counted := by simp [PollState.begin]
  written := by simp [PollState.begin]
  below := by simp [PollState.begin]
  array := by simp [PollState.begin, delivered]

theorem PollState.begin_audited (ctx : SensorsPollContext) (array : Int → SensorsEvent)
    {count : Int} (hcount : 0 ≤ count) (hint : count < 2 ^ 31) :
    (PollState.begin ctx array count).Audited count := by
  refine .right rfl (PollState.begin_accounts ctx array hcount) fun pre hpre => ?_
  rw [List.prefix_nil.mp hpre]
  simpa [totalNb] using hint

/-- The error code of one of the drivers, or of `poll`. -/
def PollOut.ErrorCode (out : PollOut) (code : Int) : Prop :=
  code < 0 ∧ ((∃ r ∈ out.state.results, r.nb = code)
    ∨ ∃ errno hpos, out.stop = .failed errno hpos ∧ code = -errno)

/-- A call keeps to the array of `count` entries and to its `int`s; what it returns is
the error code of a driver or of `poll`, or the number of events that the drivers have
reported, and these are the first entries of the array. -/
structure PollOut.Inside (out : PollOut) (count : Int) : Prop where
  defined : out.state.overflow = false
  inside : ∀ i ∈ out.state.writes, 0 ≤ i ∧ i < count
  ret : ∀ r, out.ret = some r → out.ErrorCode r ∨
    (0 ≤ r ∧ r ≤ count ∧ r = (delivered out.state.results).length
      ∧ ∀ (k : Nat) e, (delivered out.state.results)[k]? = some e → out.state.array k = e)

/-- The error codes that the drivers return never bring `count` to 2^31, no driver
writes when those before it in the call outweigh the events, and, unless `poll` fails,
no driver has returned an error code, or all that they have returned comes to one. -/
structure PollOut.Harmless (out : PollOut) (count : Int) : Prop where
  small : ∀ pre, pre <+: out.state.results → count - totalNb pre < 2 ^ 31
  before : ∀ pre r, pre ++ [r] <+: out.state.results → r.written ≠ [] → 0 ≤ totalNb pre
  after : out.stop = .done →
    (∃ r ∈ out.state.results, r.nb < 0 ∧ r.nb = totalNb out.state.results)
      ∨ ∀ r ∈ out.state.results, 0 ≤ r.nb

/-- **When a call of `pollEvents` stays inside the caller's array.** -/
theorem poll_inside_iff (ctx : SensorsPollContext) (array : Int → SensorsEvent) (count : Int)
    (hcount : 0 < count) (hint : count < 2 ^ 31) (rounds : List PollRound) :
    (pollEvents ctx array count rounds).Inside count
      ↔ (pollEvents ctx array count rounds).Harmless count := by
  have haudited := pollLoop_audited ⟨hcount.le, hint⟩ rounds
    (PollState.begin_audited ctx array hcount.le hint)
  rw [← pollEvents] at haudited
  generalize pollEvents ctx array count rounds = out at haudited
  cases haudited with
  | overflowed flagged large =>
      obtain ⟨pre, hpre, hlarge⟩ := large
      constructor
      · intro h
        exact absurd (flagged.symm.trans h.defined) (by decide)
      · intro h
        have := h.small pre hpre
        omega
  | right safe hacc small =>
      have hlen := length_delivered hacc.counted
      constructor
      · intro h
        refine ⟨small, fun pre r hpre hwritten => ?_, fun hdone => ?_⟩
        · have hmem : totalNb pre + (0 : Nat) ∈ out.state.writes :=
            (hacc.written _).mpr ⟨pre, r, hpre, 0, List.length_pos_iff.mpr hwritten, rfl⟩
          have := (h.inside _ hmem).1
          omega
        · have hret : out.ret = some out.state.nbEvents := by rw [PollOut.ret, hdone]
          rw [← hacc.nbEvents]
          rcases h.ret _ hret with ⟨hneg, hcode⟩ | ⟨-, -, heq, -⟩
          · rcases hcode with ⟨r, hr, hcode⟩ | ⟨errno, hpos, hfailed, -⟩
            · exact Or.inl ⟨r, hr, by omega, hcode⟩
            · rw [hdone] at hfailed
              cases hfailed
          · refine Or.inr (nonneg_of_total ?_)
            rw [← hacc.nbEvents, heq, hlen]
      · intro h
        refine ⟨safe, fun i hi => ⟨?_, hacc.below i hi⟩, fun r hr => ?_⟩
        · obtain ⟨pre, r, hpre, k, hk, rfl⟩ := (hacc.written i).mp hi
          have := h.before pre r hpre (List.length_pos_iff.mp (by omega))
          omega
        · cases hstop : out.stop with
          | running => simp [PollOut.ret, hstop] at hr
          | failed errno hpos =>
              simp only [PollOut.ret, hstop, Option.some.injEq] at hr
              exact Or.inl ⟨by omega, Or.inr ⟨errno, hpos, hstop, hr.symm⟩⟩
          | done =>
              simp only [PollOut.ret, hstop, Option.some.injEq] at hr
              have hnb := hacc.nbEvents
              have hcnt := hacc.count
              have hroom := hacc.room
              rcases h.after hstop with ⟨d, hd, hneg, hcode⟩ | hnonneg
              · exact Or.inl ⟨by omega, Or.inl ⟨d, hd, by omega⟩⟩
              · have htotal := total_of_nonneg hnonneg
                exact Or.inr ⟨by omega, by omega, by omega, hacc.array hnonneg⟩

/-! ## Reads that succeed -/

/-- Every device of the round gives whole events. -/
def PollRound.Whole (round : PollRound) : Prop :=
  ∃ light proximity akm, round.lightRead = .data light none
    ∧ round.proximityRead = .data proximity none ∧ round.akmRead = .data akm none

theorem LevelSensor.readEvents_nonneg (kind : LevelKind) (s : LevelSensor) {count : Int}
    (hcount : 1 ≤ count) (time : Int) (events : List InputEvent) :
    0 ≤ (s.readEvents kind count time (.data events none)).1 := by
  have hfill := s.mInputReader.fill_ret_nonneg events
  simp only [LevelSensor.readEvents]
  split_ifs <;> omega

theorem AkmSensor.readEvents_nonneg (s : AkmSensor) {count : Int} (hcount : 1 ≤ count)
    (events : List InputEvent) : 0 ≤ (s.readEvents count (.data events none)).1 := by
  have hfill := s.mInputReader.fill_ret_nonneg events
  simp only [AkmSensor.readEvents]
  split_ifs <;> omega

/-- No driver has failed so far, in a call on an array with an `int` of entries. -/
structure PollState.Unfailed (st : PollState) : Prop where
  room : 0 ≤ st.count
  reported : 0 ≤ st.nbEvents
  entries : st.nbEvents + st.count < 2 ^ 31
  safe : st.overflow = false
  nonneg : ∀ r ∈ st.results, 0 ≤ r.nb

theorem PollState.Unfailed.account {st : PollState} (h : st.Unfailed) (ctx : SensorsPollContext)
    {r : DriverResult} (hr : r.Ok st.count) (hnb : 0 ≤ r.nb) : (st.account ctx r).Unfailed := by
  obtain ⟨hroom, hreported, hentries, hsafe, hnonneg⟩ := h
  have hleft := hr.left hroom
  have hint : IsInt (st.count - r.nb) := ⟨by omega, by omega⟩
  have hint' : IsInt (st.nbEvents + r.nb) := ⟨by omega, by omega⟩
  have hsafe' : (st.account ctx r).overflow = false := PollState.account_safe hsafe hint hint'
  obtain ⟨-, hcount, hnbEvents⟩ := PollState.account_exact hsafe'
  refine ⟨by omega, by omega, by omega, hsafe', fun r' hr' => ?_⟩
  rcases List.mem_append.mp hr' with hr' | hr'
  · exact hnonneg r' hr'
  · rw [List.mem_singleton.mp hr']
    exact hnb

theorem PollState.begin_unfailed (ctx : SensorsPollContext) (array : Int → SensorsEvent)
    {count : Int} (hcount : 0 ≤ count) (hint : count < 2 ^ 31) :
    (PollState.begin ctx array count).Unfailed :=
  ⟨hcount, le_rfl, by simpa [PollState.begin] using hint, rfl, by simp [PollState.begin]⟩

theorem PollState.Unfailed.withCtx {st : PollState} (h : st.Unfailed)
    (ctx : SensorsPollContext) : ({ st with ctx := ctx } : PollState).Unfailed :=
  ⟨h.room, h.reported, h.entries, h.safe, h.nonneg⟩

theorem pollDrivers_unfailed {st : PollState} (h : st.Unfailed) {round : PollRound}
    (hround : round.Whole) : (pollDrivers round st).Unfailed := by
  obtain ⟨light, proximity, akm, hlight, hproximity, hakm⟩ := hround
  have hpos : ∀ {st : PollState}, st.Unfailed → st.count ≠ 0 → 1 ≤ st.count := by
    intro st h hne
    have := h.room
    omega
  have h₁ : (pollLight round st).Unfailed := by
    simp only [pollLight, hlight]
    split_ifs with hgo
    · exact h.account _ (LevelSensor.readEvents_ok lightKind _ (hpos h hgo.1) _ _)
        (LevelSensor.readEvents_nonneg lightKind _ (hpos h hgo.1) _ _)
    · exact h
  have h₂ : (pollProximity round (pollLight round st)).Unfailed := by
    simp only [pollProximity, hproximity]
    split_ifs with hgo
    · exact h₁.account _ (LevelSensor.readEvents_ok proximityKind _ (hpos h₁ hgo.1) _ _)
        (LevelSensor.readEvents_nonneg proximityKind _ (hpos h₁ hgo.1) _ _)
    · exact h₁
  simp only [pollDrivers, pollAkm, hakm]
  split_ifs with hgo
  · exact h₂.account _ (AkmSensor.readEvents_ok _ (hpos h₂ hgo.1) _)
      (AkmSensor.readEvents_nonneg _ (hpos h₂ hgo.1) _)
  · exact h₂

theorem pollLoop_unfailed {rounds : List PollRound} (hrounds : ∀ round ∈ rounds, round.Whole)
    {st : PollState} (h : st.Unfailed) : (pollLoop rounds st).state.Unfailed := by
  induction rounds generalizing st with
  | nil => exact h
  | cons round rounds ih =>
      have hround := pollDrivers_unfailed h (hrounds round (List.mem_cons_self ..))
      rw [pollLoop]
      split_ifs
      · split
        · exact hround
        · split_ifs
          · exact ih (fun r hr => hrounds r (List.mem_cons_of_mem _ hr)) (hround.withCtx _)
          · exact hround.withCtx _
      · exact hround

/-- A call in which every read gives whole events meets the condition. -/
theorem pollEvents_harmless (ctx : SensorsPollContext) (array : Int → SensorsEvent) {count : Int}
    (hcount : 0 < count) (hint : count < 2 ^ 31) {rounds : List PollRound}
    (hrounds : ∀ round ∈ rounds, round.Whole) :
    (pollEvents ctx array count rounds).Harmless count := by
  have hend := (pollLoop_unfailed hrounds
    (PollState.begin_unfailed ctx array hcount.le hint)).nonneg
  rw [← pollEvents] at hend
  have htotal : ∀ pre, pre <+: (pollEvents ctx array count rounds).state.results →
      0 ≤ totalNb pre := by
    intro pre hpre
    refine List.sum_nonneg fun x hx => ?_
    obtain ⟨r', hr', rfl⟩ := List.mem_map.mp hx
    exact hend r' (hpre.subset hr')
  refine ⟨fun pre hpre => ?_, fun pre r hpre _ => ?_, fun _ => Or.inr hend⟩
  · have := htotal pre hpre
    omega
  · exact htotal pre ((List.prefix_append ..).trans hpre)

end

/-! ## A partial event of the light sensor -/

section

/-- The drivers after construction, with the accelerometer enabled. -/
def sampleContext [SensorFloat] : SensorsPollContext where
  light := .lightInit ⟨3, some 0, none, fun _ => ⟨0, 0, 0, 0, 0⟩⟩
  proximity := .proximityInit ⟨4, some 0, none, fun _ => ⟨0, 0, 0, 0, 0⟩⟩
  akm := .init ⟨5, fun j => some (if j = .accelerometer then 1 else 0), fun _ => none,
    fun _ => ⟨0, 0, 0, 0, 0⟩⟩
  revents _ := 0

/-- Light and AKM have input, and the light device gives `lightRead`. -/
def sampleRounds (lightRead : ReadResult InputEvent) : List PollRound :=
  [⟨.data [] none, 0, .data [] none, 0, .data [] none,
      .ready 2 fun fd => if fd = .light ∨ fd = .akm then pollIn else 0⟩,
    ⟨lightRead, 0, .data [] none, 0,
      .data [⟨7, 0, evAbs, eventTypeAccelX, 720⟩, ⟨7, 1, evSyn, 0, 0⟩] none,
      .ready 0 fun _ => 0⟩]

/-- A call with room for one event. -/
def samplePoll [SensorFloat] (lightRead : ReadResult InputEvent) : PollOut :=
  pollEvents sampleContext (fun _ => akmPendingEvent .accelerometer) 1 (sampleRounds lightRead)

/-- The entries that the sample call writes, in exact arithmetic. -/
def samplePollWrites (lightRead : ReadResult InputEvent) : List Int :=
  @PollState.writes decimalSensorFloat
    (@PollOut.state decimalSensorFloat (@samplePoll decimalSensorFloat lightRead))

/-- With whole events everywhere, the event of the accelerometer is the only one. -/
theorem whole_reads_inside :
    samplePollWrites (.data [] none) = [0]
      ∧ @PollOut.Inside decimalSensorFloat (@samplePoll decimalSensorFloat (.data [] none)) 1 := by
  refine ⟨by decide,
    (@poll_inside_iff decimalSensorFloat _ _ 1 (by decide) (by decide) _).mpr ?_⟩
  refine @pollEvents_harmless decimalSensorFloat _ _ 1 (by decide) (by decide) _
    fun round hround => ?_
  simp only [sampleRounds, List.mem_cons, List.not_mem_nil, or_false] at hround
  rcases hround with rfl | rfl
  · exact ⟨_, _, _, rfl, rfl, rfl⟩
  · exact ⟨_, _, _, rfl, rfl, rfl⟩

/-- After a partial event the accelerometer writes 22 entries in front of the array. -/
theorem partial_event_underruns :
    samplePollWrites (.data [] (some ⟨0, 0, 0, 0, 0⟩)) = [-22]
      ∧ ¬@PollOut.Inside decimalSensorFloat
        (@samplePoll decimalSensorFloat (.data [] (some ⟨0, 0, 0, 0, 0⟩))) 1 := by
  have hwrites : samplePollWrites (.data [] (some ⟨0, 0, 0, 0, 0⟩)) = [-22] := by decide
  refine ⟨hwrites, fun h => ?_⟩
  have hmem : (-22 : Int) ∈ samplePollWrites (.data [] (some ⟨0, 0, 0, 0, 0⟩)) := by
    rw [hwrites]
    exact List.mem_singleton_self _
  have hlow := (@PollOut.Inside.inside decimalSensorFloat _ 1 h (-22) hmem).1
  omega

end

end HtcLeo
