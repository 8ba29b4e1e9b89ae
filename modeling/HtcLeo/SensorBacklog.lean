import HtcLeo.AkmBatching
import HtcLeo.SensorWake

/-!
# Input that has been read already (`InputEventCircularReader`, `pollEvents`)

A driver reads its device into a ring and takes events from there until
the caller's array is full. What is left in the ring is no longer in the
device, so `poll` does not report it; `pollEvents` keeps `POLLIN` set for
the driver until it has returned fewer events than there was room for.

A driver that sends a pending event returns without looking at its ring,
and one that cannot read its device returns before it. Either way
`pollEvents` takes the ring to be empty (`LevelSensor.readEvents_leftover`).
Where neither happens to a ring that holds events, the poll thread never
waits with an event in a ring (`no_stranded_input`).
-/

namespace HtcLeo

/-- A `read` gave whole events, no more than there was room for. -/
def ReadResult.Whole (free : Int) : ReadResult InputEvent → Prop
  | .data events none => events.length ≤ free
  | _ => False

instance (free : Int) : (result : ReadResult InputEvent) → Decidable (result.Whole free)
  | .data events none => inferInstanceAs (Decidable ((events.length : Int) ≤ free))
  | .data _ (some _) => inferInstanceAs (Decidable False)
  | .error _ => inferInstanceAs (Decidable False)

section

variable [SensorFloat]

/-! ## The rings -/

def SensorsPollContext.ring (ctx : SensorsPollContext) :
    SensorDriver → InputEventCircularReader InputEvent
  | .light => ctx.light.mInputReader
  | .proximity => ctx.proximity.mInputReader
  | .akm => ctx.akm.mInputReader

def SensorDriver.fd : SensorDriver → PollFd
  | light => .light
  | proximity => .proximity
  | akm => .akm

/-- A driver has an event in its ring. -/
def SensorsPollContext.Leftover (ctx : SensorsPollContext) (d : SensorDriver) : Prop :=
  (ctx.ring d).readEvent.2 ≠ 0

/-- The rings hold events, and the AKM driver marks only sensors that it has. -/
structure SensorsPollContext.Rings (ctx : SensorsPollContext) : Prop where
  holds : ∀ d, ∃ q, (ctx.ring d).Holds q
  mask : ∃ updated, ctx.akm.mPendingMask = maskOf updated

/-! ## What a driver leaves in its ring -/

theorem LevelSensor.processEvent_ring (kind : LevelKind) (s : LevelSensor) (event : InputEvent) :
    (s.processEvent kind event).1.mInputReader = s.mInputReader := by
  simp only [LevelSensor.processEvent]
  split_ifs <;> rfl

/-- With as many rounds as events, the loop stops because the array is full or the
ring is empty. -/
theorem LevelSensor.readLoop_drains (kind : LevelKind) (rounds : Nat) (s : LevelSensor)
    (count : Nat) {q : List InputEvent} (h : s.mInputReader.Holds q) (hrounds : q.length ≤ rounds) :
    ∃ q', (s.readLoop kind rounds count).1.mInputReader.Holds q'
      ∧ ((s.readLoop kind rounds count).2.length = count ∨ q' = []) := by
  induction rounds generalizing s count q with
  | zero =>
      obtain rfl := List.length_eq_zero_iff.mp (Nat.le_zero.mp hrounds)
      exact ⟨[], h, .inr rfl⟩
  | succ rounds ih =>
      rw [LevelSensor.readLoop, h.readEvent]
      by_cases hcount : count = 0
      · rw [if_neg (fun hgo => hgo.1 hcount)]
        exact ⟨q, h, .inl hcount.symm⟩
      cases q with
      | nil =>
          rw [if_neg (fun hgo => hgo.2 rfl)]
          exact ⟨[], h, .inr rfl⟩
      | cons e q =>
          rw [if_pos ⟨hcount, by simp⟩]
          simp only [h.front]
          have hone := s.processEvent_length kind e
          have hring := s.processEvent_ring kind e
          generalize s.processEvent kind e = out at hone hring ⊢
          have hnext : ({ out.1 with mInputReader := out.1.mInputReader.next } :
              LevelSensor).mInputReader.Holds q := by
            rw [hring]
            exact h.next
          obtain ⟨q', hholds, hend⟩ := ih _ (count - out.2.length) hnext
            (by rw [List.length_cons] at hrounds; omega)
          refine ⟨q', hholds, ?_⟩
          rcases hend with hfull | hempty
          · refine .inl ?_
            rw [List.length_append, hfull]
            omega
          · exact .inr hempty

/-- **The ring after a call.** A driver that sends its pending event or cannot read
leaves the ring as it was; otherwise it empties the ring or fills the array. -/
theorem LevelSensor.readEvents_leftover (kind : LevelKind) (s : LevelSensor) {count : Int}
    (hcount : 1 ≤ count) (time : Int) (result : ReadResult InputEvent) {q : List InputEvent}
    (h : s.mInputReader.Holds q)
    (hfits : s.mHasPendingEvent = false → s.mInputReader.Fits result) :
    ∃ q', (s.readEvents kind count time result).2.1.mInputReader.Holds q'
      ∧ if s.mHasPendingEvent = true ∨ (s.mInputReader.fill result).ret < 0 then q' = q
        else q' = [] ∨ (s.readEvents kind count time result).1 = count := by
  unfold LevelSensor.readEvents
  rw [if_neg (by omega)]
  by_cases hpending : s.mHasPendingEvent = true
  · rw [if_pos hpending]
    exact ⟨q, h, by rw [if_pos (.inl hpending)]⟩
  · rw [if_neg hpending]
    have hholds := h.fill (hfits (Bool.eq_false_iff.mpr hpending))
    by_cases hret : (s.mInputReader.fill result).ret < 0
    · rw [s.mInputReader.taken_of_failed hret, List.append_nil] at hholds
      simp only [if_pos hret]
      exact ⟨q, hholds, by rw [if_pos (.inr hret)]⟩
    · simp only [if_neg hret]
      have hfree := hholds.free
      obtain ⟨q', hholds', hend⟩ := LevelSensor.readLoop_drains kind
        ((s.mInputReader.fill result).reader.numEvents
          - (s.mInputReader.fill result).reader.mFreeSpace).toNat
        { s with mInputReader := (s.mInputReader.fill result).reader } count.toNat hholds
        (by omega)
      refine ⟨q', hholds', ?_⟩
      rw [if_neg (not_or.mpr ⟨hpending, hret⟩)]
      rcases hend with hfull | hempty
      · exact .inr (by rw [hfull]; omega)
      · exact .inl hempty

/-- The AKM driver has no pending event that it sends without input. -/
theorem AkmSensor.readEvents_leftover (s : AkmSensor) {count : Int} (hcount : 1 ≤ count)
    {result : ReadResult InputEvent} {q : List InputEvent} {updated : AkmIndex → Bool}
    (h : s.mInputReader.Holds q) (hmask : s.mPendingMask = maskOf updated)
    (hfits : s.mInputReader.Fits result) :
    (∃ updated', (s.readEvents count result).2.1.mPendingMask = maskOf updated')
      ∧ ∃ q', (s.readEvents count result).2.1.mInputReader.Holds q'
        ∧ if (s.mInputReader.fill result).ret < 0 then q' = q
          else q' = [] ∨ (s.readEvents count result).1 = count := by
  have hholds := h.fill hfits
  unfold AkmSensor.readEvents
  rw [if_neg (by omega)]
  by_cases hret : (s.mInputReader.fill result).ret < 0
  · rw [s.mInputReader.taken_of_failed hret, List.append_nil] at hholds
    simp only [if_pos hret]
    exact ⟨⟨updated, hmask⟩, q, hholds, rfl⟩
  · simp only [if_neg hret]
    have hfree := hholds.free
    have hsim : AkmSensor.Simulates { s with mInputReader := (s.mInputReader.fill result).reader }
        s.mEnabled updated s.mPendingEvents (q ++ s.mInputReader.taken result) :=
      ⟨rfl, hmask, SameValues.refl _, hholds⟩
    obtain ⟨updated', _, q', hsim', _, hlen, hleft⟩ := readLoop_spec hsim count.toNat
      (by omega : _ ≤ ((s.mInputReader.fill result).reader.numEvents
        - (s.mInputReader.fill result).reader.mFreeSpace).toNat)
    refine ⟨⟨updated', hsim'.mask⟩, q', hsim'.holds, ?_⟩
    refine or_iff_not_imp_left.mpr fun hne => ?_
    have hfull := not_not.mp (mt hleft hne)
    omega

/-! ## Looking at a driver -/

def PollRound.read (round : PollRound) : SensorDriver → ReadResult InputEvent
  | .light => round.lightRead
  | .proximity => round.proximityRead
  | .akm => round.akmRead

/-- The condition of the loop body of `pollEvents`. -/
def PollState.LooksAt (st : PollState) (d : SensorDriver) : Prop :=
  st.count ≠ 0 ∧ (st.ctx.revents d.fd &&& pollIn ≠ 0 ∨ st.ctx.pending d = true)

/-- A driver that is looked at sends a pending event only when its ring is empty,
and otherwise reads whole events. -/
def CleanLook (round : PollRound) (st : PollState) (d : SensorDriver) : Prop :=
  st.LooksAt d →
    if st.ctx.pending d = true then ¬ st.ctx.Leftover d
    else (round.read d).Whole (st.ctx.ring d).mFreeSpace

/-- `POLLIN` is set for every driver with an event in its ring. -/
def SensorsPollContext.Seen (ctx : SensorsPollContext) : Prop :=
  ∀ d, ctx.Leftover d → ctx.revents d.fd &&& pollIn ≠ 0

/-- What looking at the driver `d` does to the rings: an event is left in its ring
only when the array is full. -/
structure Drained (d : SensorDriver) (st st' : PollState) : Prop where
  rings : st'.ctx.Rings
  ring : ∀ d', d' ≠ d → st'.ctx.ring d' = st.ctx.ring d'
  revents : ∀ d', d' ≠ d → st'.ctx.revents d'.fd = st.ctx.revents d'.fd
  left : st'.ctx.Leftover d → st'.count = 0 ∧ st'.ctx.revents d.fd &&& pollIn ≠ 0

theorem Drained.skip {d : SensorDriver} {st : PollState} (hrings : st.ctx.Rings)
    (hseen : st.ctx.Seen) (hgo : ¬ st.LooksAt d) : Drained d st st where
  rings := hrings
  ring _ _ := rfl
  revents _ _ := rfl
  left hleft := by
    have hin := hseen d hleft
    by_contra hnot
    exact hgo ⟨fun hfull => hnot ⟨hfull, hin⟩, .inl hin⟩

omit [SensorFloat] in
theorem ReadResult.Whole.fits {r : InputEventCircularReader InputEvent}
    {result : ReadResult InputEvent} (h : result.Whole r.mFreeSpace) :
    r.Fits result ∧ ¬ (r.fill result).ret < 0 := by
  cases result with
  | error errno => exact h.elim
  | data events part =>
      cases part with
      | none =>
          have hlen : (events.length : Int) ≤ r.mFreeSpace := h
          exact ⟨by simpa [InputEventCircularReader.Fits] using hlen,
            not_lt.mpr (r.fill_ret_nonneg events)⟩
      | some part => exact h.elim

/-- A clean call leaves events in the ring only when it fills the array with others. -/
theorem LevelSensor.readEvents_clean (kind : LevelKind) (s : LevelSensor) {count : Int}
    (hcount : 1 ≤ count) (time : Int) (result : ReadResult InputEvent)
    (h : ∃ q, s.mInputReader.Holds q)
    (hclean : if s.mHasPendingEvent = true then ¬ s.mInputReader.readEvent.2 ≠ 0
      else result.Whole s.mInputReader.mFreeSpace) :
    ∃ q', (s.readEvents kind count time result).2.1.mInputReader.Holds q'
      ∧ (q' ≠ [] → s.mHasPendingEvent = false
        ∧ (s.readEvents kind count time result).1 = count) := by
  obtain ⟨q, hq⟩ := h
  by_cases hpending : s.mHasPendingEvent = true
  · rw [if_pos hpending, hq.readEvent_ne_zero_iff, not_not] at hclean
    obtain ⟨q', hq', hend⟩ := s.readEvents_leftover kind hcount time result hq
      (fun hno => by rw [hno] at hpending; cases hpending)
    rw [if_pos (.inl hpending)] at hend
    exact ⟨q', hq', fun hne => absurd (hend.trans hclean) hne⟩
  · rw [if_neg hpending] at hclean
    obtain ⟨hfits, hret⟩ := hclean.fits
    obtain ⟨q', hq', hend⟩ := s.readEvents_leftover kind hcount time result hq (fun _ => hfits)
    rw [if_neg (not_or.mpr ⟨hpending, hret⟩)] at hend
    exact ⟨q', hq', fun hne => ⟨Bool.eq_false_iff.mpr hpending, hend.resolve_left hne⟩⟩

omit [SensorFloat] in
theorem SensorDriver.fd_injective {d d' : SensorDriver} (h : d.fd = d'.fd) : d = d' := by
  cases d <;> cases d' <;> first | rfl | cases h

/-- A driver that has returned `r`, with an event left in its ring only when it has
filled the array from its input. -/
theorem Drained.account {d : SensorDriver} {st : PollState} {ctx : SensorsPollContext}
    {r : DriverResult} (hrings : ctx.Rings)
    (hring : ∀ d', d' ≠ d → ctx.ring d' = st.ctx.ring d')
    (hrevents : ctx.revents = clearRevents st.ctx.revents d.fd r.nb st.count)
    (hleft : ctx.Leftover d → r.nb = st.count ∧ st.ctx.revents d.fd &&& pollIn ≠ 0) :
    Drained d st (st.account ctx r) where
  rings := hrings
  ring := hring
  revents d' hd := by
    change ctx.revents d'.fd = _
    rw [hrevents, clearRevents]
    split_ifs
    · exact Function.update_of_ne (fun heq => hd (SensorDriver.fd_injective heq)) ..
    · rfl
  left hlast := by
    obtain ⟨hfull, hin⟩ := hleft hlast
    refine ⟨by simp only [PollState.account, hfull, sub_self]; rfl, ?_⟩
    change ctx.revents d.fd &&& pollIn ≠ 0
    rw [hrevents, clearRevents, if_neg (by omega)]
    exact hin

theorem pollLight_drained {round : PollRound} {st : PollState} (hcount : 0 ≤ st.count)
    (hrings : st.ctx.Rings) (hseen : st.ctx.Seen) (hclean : CleanLook round st .light) :
    Drained .light st (pollLight round st) := by
  unfold pollLight
  split_ifs with hgo
  · have hpos : 1 ≤ st.count := lt_of_le_of_ne hcount (Ne.symm hgo.1)
    obtain ⟨q', hq', hend⟩ := st.ctx.light.readEvents_clean lightKind hpos round.lightTime
      round.lightRead (hrings.holds .light) (hclean hgo)
    refine Drained.account ⟨fun d => ?_, hrings.mask⟩ (fun d hd => ?_) rfl fun hleft => ?_
    · cases d with
      | light => exact ⟨q', hq'⟩
      | proximity => exact hrings.holds .proximity
      | akm => exact hrings.holds .akm
    · cases d with
      | light => exact absurd rfl hd
      | proximity => rfl
      | akm => rfl
    · obtain ⟨hnone, hfull⟩ := hend (hq'.readEvent_ne_zero_iff.mp hleft)
      exact ⟨hfull, hgo.2.resolve_right (Bool.eq_false_iff.mp hnone)⟩
  · exact Drained.skip hrings hseen hgo

theorem pollProximity_drained {round : PollRound} {st : PollState} (hcount : 0 ≤ st.count)
    (hrings : st.ctx.Rings) (hseen : st.ctx.Seen) (hclean : CleanLook round st .proximity) :
    Drained .proximity st (pollProximity round st) := by
  unfold pollProximity
  split_ifs with hgo
  · have hpos : 1 ≤ st.count := lt_of_le_of_ne hcount (Ne.symm hgo.1)
    obtain ⟨q', hq', hend⟩ := st.ctx.proximity.readEvents_clean proximityKind hpos
      round.proximityTime round.proximityRead (hrings.holds .proximity) (hclean hgo)
    refine Drained.account ⟨fun d => ?_, hrings.mask⟩ (fun d hd => ?_) rfl fun hleft => ?_
    · cases d with
      | light => exact hrings.holds .light
      | proximity => exact ⟨q', hq'⟩
      | akm => exact hrings.holds .akm
    · cases d with
      | light => rfl
      | proximity => exact absurd rfl hd
      | akm => rfl
    · obtain ⟨hnone, hfull⟩ := hend (hq'.readEvent_ne_zero_iff.mp hleft)
      exact ⟨hfull, hgo.2.resolve_right (Bool.eq_false_iff.mp hnone)⟩
  · exact Drained.skip hrings hseen hgo

theorem pollAkm_drained {round : PollRound} {st : PollState} (hcount : 0 ≤ st.count)
    (hrings : st.ctx.Rings) (hseen : st.ctx.Seen) (hclean : CleanLook round st .akm) :
    Drained .akm st (pollAkm round st) := by
  unfold pollAkm
  split_ifs with hgo
  · have hpos : 1 ≤ st.count := lt_of_le_of_ne hcount (Ne.symm hgo.1)
    have hwhole := hclean ⟨hgo.1, .inl hgo.2⟩
    rw [if_neg (by simp [SensorsPollContext.pending])] at hwhole
    obtain ⟨hfits, hret⟩ := hwhole.fits
    obtain ⟨q, hq⟩ := hrings.holds .akm
    obtain ⟨updated, hmask⟩ := hrings.mask
    obtain ⟨hmask', q', hq', hend⟩ := st.ctx.akm.readEvents_leftover hpos hq hmask hfits
    rw [if_neg (show ¬ (st.ctx.akm.mInputReader.fill (round.read .akm)).ret < 0 from hret)] at hend
    refine Drained.account ⟨fun d => ?_, hmask'⟩ (fun d hd => ?_) rfl fun hleft => ?_
    · cases d with
      | light => exact hrings.holds .light
      | proximity => exact hrings.holds .proximity
      | akm => exact ⟨q', hq'⟩
    · cases d with
      | light => rfl
      | proximity => rfl
      | akm => exact absurd rfl hd
    · exact ⟨hend.resolve_left (hq'.readEvent_ne_zero_iff.mp hleft), hgo.2⟩
  · refine Drained.skip hrings hseen fun hlook => hgo ⟨hlook.1, hlook.2.resolve_right ?_⟩
    simp [SensorsPollContext.pending]

/-! ## The control threads -/

theorem LevelSensor.closeUnused_ring (s : LevelSensor) :
    s.closeUnused.mInputReader = s.mInputReader := by
  unfold LevelSensor.closeUnused
  split_ifs <;> rfl

theorem LevelSensor.setInitialState_ring (kind : LevelKind) (absinfo : Option Int)
    (s : LevelSensor) : (s.setInitialState kind absinfo).mInputReader = s.mInputReader := by
  cases absinfo <;> rfl

theorem LevelSensor.setEnable_ring (kind : LevelKind) (s : LevelSensor) (en : Int) (io : LevelIo) :
    (s.setEnable kind en io).sensor.mInputReader = s.mInputReader := by
  unfold LevelSensor.setEnable
  dsimp only
  split_ifs <;> simp only [closeUnused_ring, setInitialState_ring]

/-- The control calls leave the ring and the marks of the AKM driver alone. -/
theorem AkmSensor.setEnable_input (s : AkmSensor) (handle en : Int) (io : AkmSensor.Io) :
    (s.setEnable handle en io).sensor.mInputReader = s.mInputReader
      ∧ (s.setEnable handle en io).sensor.mPendingMask = s.mPendingMask := by
  have hclose : ∀ t : AkmSensor, t.closeUnused.mInputReader = t.mInputReader
      ∧ t.closeUnused.mPendingMask = t.mPendingMask := by
    intro t
    unfold AkmSensor.closeUnused
    split_ifs <;> exact ⟨rfl, rfl⟩
  unfold AkmSensor.setEnable
  cases AkmSensor.what handle with
  | none => exact ⟨rfl, rfl⟩
  | some j =>
      dsimp only
      split_ifs <;> simp [hclose, AkmSensor.setBit]

theorem AkmSensor.setDelay_input (s : AkmSensor) (handle ns : Int) (io : AkmSensor.Io) :
    (s.setDelay handle ns io).sensor.mInputReader = s.mInputReader
      ∧ (s.setDelay handle ns io).sensor.mPendingMask = s.mPendingMask := by
  unfold AkmSensor.setDelay
  cases AkmSensor.what handle with
  | none => exact ⟨rfl, rfl⟩
  | some j =>
      dsimp only
      split_ifs <;> exact ⟨rfl, rfl⟩

/-- What a control call leaves alone. -/
structure SameInput (ctx ctx' : SensorsPollContext) : Prop where
  ring : ∀ d, ctx'.ring d = ctx.ring d
  mask : ctx'.akm.mPendingMask = ctx.akm.mPendingMask
  revents : ctx'.revents = ctx.revents

theorem SensorsPollContext.setEnable_input (ctx : SensorsPollContext) (handle enabled : Int)
    (io : ActivateIo) : SameInput ctx (ctx.setEnable handle enabled io).2 := by
  have hlight := ctx.light.setEnable_ring lightKind enabled io.level
  have hproximity := ctx.proximity.setEnable_ring proximityKind enabled io.level
  have hakm := ctx.akm.setEnable_input handle enabled io.akm
  unfold SensorsPollContext.setEnable
  cases handleToDriver handle with
  | none => exact ⟨fun _ => rfl, rfl, rfl⟩
  | some d =>
      cases d with
      | light => exact ⟨fun d => by cases d <;> first | exact hlight | rfl, rfl, rfl⟩
      | proximity => exact ⟨fun d => by cases d <;> first | exact hproximity | rfl, rfl, rfl⟩
      | akm => exact ⟨fun d => by cases d <;> first | exact hakm.1 | rfl, hakm.2, rfl⟩

theorem SensorsPollContext.setDelay_input (ctx : SensorsPollContext) (handle ns : Int)
    (io : AkmSensor.Io) : SameInput ctx (ctx.setDelay handle ns io).2 := by
  have hakm := ctx.akm.setDelay_input handle ns io
  unfold SensorsPollContext.setDelay
  cases handleToDriver handle with
  | none => exact ⟨fun _ => rfl, rfl, rfl⟩
  | some d =>
      cases d with
      | light => exact ⟨fun _ => rfl, rfl, rfl⟩
      | proximity => exact ⟨fun _ => rfl, rfl, rfl⟩
      | akm => exact ⟨fun d => by cases d <;> first | exact hakm.1 | rfl, hakm.2, rfl⟩

/-! ## Every interleaving -/

/-- The poll thread is about to look at a driver, if it is. -/
def CleanAt (round : PollRound) (st : PollState) : WakePc → Prop
  | .driver d => CleanLook round st d
  | _ => True

/-- A step of a run whose calls have room for events, whose devices give whole
events, and in which no pending event is sent over a ring that holds events. -/
def CleanStep (w : WakeState) : WakeEvent → Prop
  | .pollEvents _ count => 0 ≤ count
  | .look round => CleanAt round w.call w.pc
  | _ => True

instance (ctx : SensorsPollContext) (d : SensorDriver) : Decidable (ctx.Leftover d) :=
  inferInstanceAs (Decidable (_ ≠ _))

instance (st : PollState) (d : SensorDriver) : Decidable (st.LooksAt d) :=
  inferInstanceAs (Decidable (_ ∧ _))

instance (round : PollRound) (st : PollState) (d : SensorDriver) :
    Decidable (CleanLook round st d) :=
  inferInstanceAs (Decidable (st.LooksAt d →
    if st.ctx.pending d = true then ¬ st.ctx.Leftover d
    else (round.read d).Whole (st.ctx.ring d).mFreeSpace))

instance (round : PollRound) (st : PollState) : (pc : WakePc) → Decidable (CleanAt round st pc)
  | .driver d => inferInstanceAs (Decidable (CleanLook round st d))
  | .idle | .poll | .wake _ | .overflowed => inferInstanceAs (Decidable True)

instance (w : WakeState) : (e : WakeEvent) → Decidable (CleanStep w e)
  | .pollEvents _ _ => inferInstanceAs (Decidable (_ ≤ _))
  | .look round => inferInstanceAs (Decidable (CleanAt round w.call w.pc))
  | .poll _ | .readMessage | .activate .. | .writeMessage | .setDelay .. =>
      inferInstanceAs (Decidable True)

/-- The poll thread has looked at `d` since it last came back from `poll`. -/
def WakePc.Past (d : SensorDriver) : WakePc → Prop
  | .driver d' => d.index < d'.index
  | .poll => True
  | .idle | .wake _ | .overflowed => False

structure WakeState.Drains (w : WakeState) : Prop where
  count : w.pc ≠ .overflowed → 0 ≤ w.call.count
  room : w.pc = .poll → w.call.count ≠ 0
  rings : w.call.ctx.Rings
  seen : w.call.ctx.Seen
  empty : ∀ d, w.pc.Past d → w.call.count ≠ 0 → ¬ w.call.ctx.Leftover d

theorem SameInput.rings {ctx ctx' : SensorsPollContext} (h : SameInput ctx ctx')
    (hrings : ctx.Rings) : ctx'.Rings where
  holds d := by
    rw [h.ring]
    exact hrings.holds d
  mask := by
    rw [h.mask]
    exact hrings.mask

theorem SameInput.leftover {ctx ctx' : SensorsPollContext} (h : SameInput ctx ctx')
    (d : SensorDriver) : ctx'.Leftover d ↔ ctx.Leftover d := by
  rw [SensorsPollContext.Leftover, h.ring]
  rfl

theorem WakeState.Drains.control {w : WakeState} (h : w.Drains) {ctx : SensorsPollContext}
    (hsame : SameInput w.call.ctx ctx) (pipe writers : Nat) :
    (⟨{ w.call with ctx := ctx }, w.pc, pipe, writers⟩ : WakeState).Drains where
  count := h.count
  room := h.room
  rings := hsame.rings h.rings
  seen d hleft := by
    simp only [hsame.revents]
    exact h.seen d ((hsame.leftover d).mp hleft)
  empty d hpast hroom hleft := h.empty d hpast hroom ((hsame.leftover d).mp hleft)

/-- The poll thread goes from one driver to the next. -/
theorem WakeState.Drains.look {w : WakeState} (h : w.Drains) {d : SensorDriver} {call : PollState}
    {pc : WakePc} (hpc : w.pc = .driver d)
    (hlooked : call.overflow = false → Looked d w.call call) (hdrained : Drained d w.call call)
    (hroom : pc = .poll → call.count ≠ 0)
    (hnext : ∀ d', d' ≠ d → pc.Past d' → d'.index < d.index) :
    ({ w with call := call, pc := call.goOn pc } : WakeState).Drains := by
  have hseen : call.ctx.Seen := by
    intro d' hleft
    by_cases hd : d' = d
    · subst hd
      exact (hdrained.left hleft).2
    · rw [hdrained.revents d' hd]
      rw [SensorsPollContext.Leftover, hdrained.ring d' hd] at hleft
      exact h.seen d' hleft
  cases hover : call.overflow with
  | true =>
      have hpc' : call.goOn pc = .overflowed := if_pos hover
      rw [hpc']
      exact ⟨fun hgone => absurd rfl hgone, (by intro hpoll; cases hpoll), hdrained.rings, hseen,
        fun _ hpast => hpast.elim⟩
  | false =>
      have hpc' : call.goOn pc = pc := if_neg (by simp [hover])
      rw [hpc']
      replace hlooked := hlooked hover
      refine ⟨fun _ => hlooked.room (h.count (by simp [hpc])), hroom,
        hdrained.rings, hseen, fun d' hpast hcount hleft => ?_⟩
      by_cases hd : d' = d
      · subst hd
        exact hcount (hdrained.left hleft).1
      · rw [SensorsPollContext.Leftover, hdrained.ring d' hd] at hleft
        refine h.empty d' ?_ (fun hfull => hcount (hlooked.full hfull)) hleft
        rw [hpc]
        exact hnext d' hd hpast

theorem PollState.polled_ring (st : PollState) (revents : PollFd → BitVec 16) (d : SensorDriver) :
    (st.polled revents).ctx.ring d = st.ctx.ring d := by
  cases d <;> rfl

omit [SensorFloat] in
/-- The drivers before the next one, but `d`, are those before `d`. -/
theorem WakePc.past_next {d next d' : SensorDriver} (hnext : next.index = d.index + 1)
    (hne : d' ≠ d) (hpast : (WakePc.driver next).Past d') : d'.index < d.index := by
  have hindex := SensorDriver.index_ne hne
  have hbefore : d'.index < next.index := hpast
  omega

theorem WakeState.Drains.lookStep {w : WakeState} (h : w.Drains) (cap : Nat) {round : PollRound}
    (hclean : CleanAt round w.call w.pc) : (wakeStep cap w (.look round)).Drains := by
  rw [wakeStep]
  cases hpc : w.pc with
  | driver d =>
      rw [hpc] at hclean
      have hcount : 0 ≤ w.call.count := h.count (by simp [hpc])
      cases d with
      | light =>
          refine h.look hpc pollLight_looked (pollLight_drained hcount h.rings h.seen hclean)
            (fun hpoll => ?_) fun d' hne hpast => WakePc.past_next rfl hne hpast
          cases hpoll
      | proximity =>
          refine h.look hpc pollProximity_looked
            (pollProximity_drained hcount h.rings h.seen hclean)
            (fun hpoll => ?_) fun d' hne hpast => WakePc.past_next rfl hne hpast
          cases hpoll
      | akm =>
          refine h.look hpc pollAkm_looked (pollAkm_drained hcount h.rings h.seen hclean)
            (fun hpoll => ?_) fun d' hne _ => ?_
          · by_contra hfull
            simp [hfull] at hpoll
          · exact lt_of_le_of_ne d'.index_le (SensorDriver.index_ne hne)
  | _ => exact h

theorem wakeStep_drains (cap : Nat) (w : WakeState) (e : WakeEvent) (h : w.Drains)
    (hclean : CleanStep w e) : (wakeStep cap w e).Drains := by
  cases e with
  | pollEvents array count =>
      rw [wakeStep]
      refine guarded h fun _ => ⟨fun _ => hclean, fun hpc => ?_, h.rings, h.seen, fun d hpast => ?_⟩
      · cases hpc
      · exact absurd hpast (Nat.not_lt_zero _)
  | look round => exact h.lookStep cap hclean
  | poll result =>
      cases result with
      | failed errno hpos =>
          rw [wakeStep]
          refine guarded h fun hpoll => ⟨fun _ => h.count ?_, (by intro hpc; cases hpc), h.rings,
            h.seen, fun _ hpast => hpast.elim⟩
          simp [hpoll]
      | ready n revents =>
          rw [wakeStep]
          refine guarded h fun hpc => ?_
          -- no ring holds events here, so `poll` may clear every `POLLIN`
          have hempty : ∀ d, ¬ w.call.ctx.Leftover d := fun d =>
            h.empty d (by rw [hpc]; trivial) (h.room hpc)
          have hempty' : ∀ d, ¬ (w.call.polled revents).ctx.Leftover d := by
            intro d
            rw [SensorsPollContext.Leftover, PollState.polled_ring]
            exact hempty d
          refine ⟨fun _ => h.count (by simp [hpc]), fun _ => h.room hpc,
            ⟨fun d => ?_, h.rings.mask⟩,
            fun d hleft => absurd hleft (hempty' d), fun d _ _ => hempty' d⟩
          simp only [PollState.polled_ring]
          exact h.rings.holds d
  | readMessage =>
      rw [wakeStep]
      cases hpc : w.pc with
      | idle => exact h
      | poll => exact h
      | driver d => exact h
      | overflowed => exact h
      | wake n =>
          refine ⟨fun _ => h.count (by simp [hpc]),
            fun hpoll => absurd hpoll (pcAfterPoll_ne_poll n), h.rings, h.seen,
            fun d hpast => ?_⟩
          have hnone : ¬ (pcAfterPoll n).Past d := by
            unfold pcAfterPoll
            split_ifs
            · exact Nat.not_lt_zero _
            · exact not_false
          exact absurd hpast hnone
  | activate handle enabled io =>
      exact h.control (w.call.ctx.setEnable_input handle enabled io) _ _
  | writeMessage =>
      rw [wakeStep]
      exact guarded h fun _ => ⟨h.count, h.room, h.rings, h.seen, h.empty⟩
  | setDelay handle ns io =>
      exact h.control (w.call.ctx.setDelay_input handle ns io) _ _

theorem LevelSensor.lightInit_ring (probe : LevelProbe) :
    (LevelSensor.lightInit probe).mInputReader = .init 4 probe.mBuffer := by
  unfold LevelSensor.lightInit
  rw [closeUnused_ring]
  split
  · split_ifs
    · rw [setInitialState_ring]
      rfl
    · rfl
  · rfl

theorem LevelSensor.proximityInit_ring (probe : LevelProbe) :
    (LevelSensor.proximityInit probe).mInputReader = .init 4 probe.mBuffer := by
  unfold LevelSensor.proximityInit
  rw [closeUnused_ring]
  split
  · dsimp only
    split_ifs
    · rw [setInitialState_ring]
      rfl
    · rfl
  · rfl

/-- The constructor leaves every ring empty. -/
theorem SensorsPollContext.init_holds (light proximity : LevelProbe) (akm : AkmProbe)
    (d : SensorDriver) : ((SensorsPollContext.init light proximity akm).ring d).Holds [] := by
  cases d with
  | light =>
      change (LevelSensor.lightInit light).mInputReader.Holds []
      rw [LevelSensor.lightInit_ring]
      exact InputEventCircularReader.init_holds (by decide) _
  | proximity =>
      change (LevelSensor.proximityInit proximity).mInputReader.Holds []
      rw [LevelSensor.proximityInit_ring]
      exact InputEventCircularReader.init_holds (by decide) _
  | akm => exact InputEventCircularReader.init_holds (by decide) _

theorem WakeState.init_drains (light proximity : LevelProbe) (akm : AkmProbe)
    (array : Int → SensorsEvent) :
    (WakeState.init (.init light proximity akm) array).Drains := by
  have hholds := SensorsPollContext.init_holds light proximity akm
  have hnone : ∀ d, ¬ (SensorsPollContext.init light proximity akm).Leftover d := fun d hleft =>
    (hholds d).readEvent_ne_zero_iff.mp hleft rfl
  have hmask : (0 : Word) = maskOf fun _ => false :=
    ((maskOf_eq_zero_iff fun _ => false).mpr fun _ => rfl).symm
  exact ⟨fun _ => le_rfl, (by intro hpc; cases hpc), ⟨fun d => ⟨[], hholds d⟩, _, hmask⟩,
    fun d hleft => absurd hleft (hnone d), fun d _ _ => hnone d⟩

end

/-! ## A reading that does not fit -/

def lightRound (events : List InputEvent) : PollRound :=
  { quietRound with lightRead := .data events none }

/-- Two readings of the light sensor, and room for one: the second call finds the
other one in the ring. -/
def twoReadings [SensorFloat] (array : Int → SensorsEvent) : List WakeEvent :=
  [.activate 4 1 ⟨⟨6, 0, none⟩, ⟨0, 0, 0⟩⟩, .writeMessage,
    .pollEvents array 1, .look quietRound, .look quietRound, .look quietRound,
    .poll (.ready 1 fun fd => if fd = .light then pollIn else 0),
    .look (lightRound [⟨7, 0, evAbs, eventTypeLight, 3⟩, ⟨7, 0, evSyn, 0, 0⟩,
      ⟨8, 0, evAbs, eventTypeLight, 4⟩, ⟨8, 0, evSyn, 0, 0⟩]),
    .look quietRound, .look quietRound,
    .pollEvents array 16, .look quietRound, .look quietRound, .look quietRound]

end HtcLeo
