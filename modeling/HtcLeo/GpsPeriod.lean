import HtcLeo.CInt
import HtcLeo.GpsLifecycle
import HtcLeo.Mem

/-!
# The report period (`libgps/leo-gps.c`, `gpsshim/gps.c`)

The timer thread sleeps for `fix_freq` seconds less half a second between
two reports. `fix_freq` comes from the framework: the shim turns its
interval into seconds (`setPositionModeWrapper`), `gps_set_position_mode`
clamps them, and `gps_state_init` resets the field to `-1`, which nothing
looks for before the thread multiplies by it.

So the sleep is sane exactly in the runs in which the framework sets the
position mode between `gps_init` and every sleep (`report_period_iff`). The
run has the life cycle of `GpsLifecycle` as a component: which calls are
taken, and when there is a timer thread, is decided there.
-/

namespace HtcLeo

/-! ## Calls -/

/-- The life cycle and `fix_freq`. The code does not keep `modeSet`: it says whether a
`gps_set_position_mode` was taken since `gps_state_init`. -/
structure GpsPeriod where
  life : GpsLife
  fixFreq : Int
  modeSet : Bool

/-- `_gps_state` is static, so `fix_freq` is 0. -/
def GpsPeriod.boot : GpsPeriod := ⟨.boot, 0, false⟩

/-- The `fix_frequency` that the shim passes on; `min_interval` is unsigned. -/
def setPositionModeWrapper (recurrence minInterval : Word) : Int :=
  if recurrence ≠ 0 then 0 else wrap32 (minInterval.toNat / 1000 : Nat)

/-- The clamp of `gps_set_position_mode`. -/
def clampFixFrequency (fixFrequency : Int) : Int :=
  -- single shot requests are not handled: one report a second
  if fixFrequency = 0 then 1 else if fixFrequency > 1800 then 1800 else fixFrequency

def gpsSetPositionMode (s : GpsPeriod) (fixFrequency : Int) : GpsPeriod :=
  if s.life.init = .quit then s
  else { s with fixFreq := clampFixFrequency fixFrequency, modeSet := true }

/-- `(state->fix_freq * 1000000) - 500000` is computed in `int` and kept in a `uint64_t`. -/
def microseconds (fixFreq : Int) : Int := wrap32 (wrap32 (fixFreq * 1000000) - 500000) % 2 ^ 64

/-- What `usleep` is called with: `useconds_t` has 32 bits. -/
def sleepTime (fixFreq : Int) : Int := microseconds fixFreq % 2 ^ 32

inductive PeriodEvent where
  /-- A call or a thread of the life cycle. -/
  | life (e : LifeEvent)
  | setPositionMode (recurrence minInterval : Word)
  /-- The timer thread, if there is one, sleeps. -/
  | sleep

/-- `gps_init` gets to `gps_state_init`. -/
def LifeEvent.Initialises (s : GpsLife) (e : LifeEvent) : Prop :=
  e = .call .init ∧ s.joining = false ∧ s.init = .quit

instance (s : GpsLife) (e : LifeEvent) : Decidable (e.Initialises s) :=
  inferInstanceAs (Decidable (_ ∧ _ ∧ _))

/-- A step; `gps_cleanup` does something only if `gps.conf` leaves that on. -/
def periodNext (getCleanupValue : Bool) (s : GpsPeriod) : PeriodEvent → GpsPeriod
  | .life e =>
      if e = .call .cleanup ∧ getCleanupValue = false then s
      else if e.Initialises s.life then
        { life := lifeNext s.life e, fixFreq := -1, modeSet := false }
      else { s with life := lifeNext s.life e }
  | .setPositionMode recurrence minInterval =>
      if s.life.joining = true then s
      else gpsSetPositionMode s (setPositionModeWrapper recurrence minInterval)
  | .sleep => s

/-! ## Sane sleeps -/

/-- The period is between a second and half an hour, and so is the sleep. -/
structure SanePeriod (fixFreq : Int) : Prop where
  range : 1 ≤ fixFreq ∧ fixFreq ≤ 1800
  product : -2 ^ 31 ≤ fixFreq * 1000000 ∧ fixFreq * 1000000 < 2 ^ 31
  sleep : 500000 ≤ sleepTime fixFreq ∧ sleepTime fixFreq ≤ 1799500000

/-- Every sleep of the timer thread is sane. -/
def PeriodEvent.Sane (s : GpsPeriod) : PeriodEvent → Prop
  | .sleep => s.life.timer = true → SanePeriod s.fixFreq
  | _ => True

/-- The timer thread sleeps only after the position mode was set. -/
def PeriodEvent.AfterMode (s : GpsPeriod) : PeriodEvent → Prop
  | .sleep => s.life.timer = true → s.modeSet = true
  | _ => True

theorem sanePeriod_of_range {fixFreq : Int} (hlo : 1 ≤ fixFreq) (hhi : fixFreq ≤ 1800) :
    SanePeriod fixFreq := by
  have hproduct : wrap32 (fixFreq * 1000000) = fixFreq * 1000000 :=
    wrap32_eq (by omega) (by omega)
  have hsub : wrap32 (fixFreq * 1000000 - 500000) = fixFreq * 1000000 - 500000 :=
    wrap32_eq (by omega) (by omega)
  refine ⟨⟨hlo, hhi⟩, ⟨by omega, by omega⟩, ?_⟩
  have hwide : (fixFreq * 1000000 - 500000) % 2 ^ 64 = fixFreq * 1000000 - 500000 :=
    Int.emod_eq_of_lt (by omega) (by omega)
  rw [sleepTime, microseconds, hproduct, hsub, hwide, Int.emod_eq_of_lt (by omega) (by omega)]
  omega

/-- Whatever the framework asks for, the clamp leaves a period in range. -/
theorem clampFixFrequency_range (recurrence minInterval : Word) :
    1 ≤ clampFixFrequency (setPositionModeWrapper recurrence minInterval)
      ∧ clampFixFrequency (setPositionModeWrapper recurrence minInterval) ≤ 1800 := by
  have hseconds : wrap32 (minInterval.toNat / 1000 : Nat) = (minInterval.toNat / 1000 : Nat) := by
    have := minInterval.isLt
    exact wrap32_eq (by omega) (by omega)
  rw [setPositionModeWrapper, hseconds, clampFixFrequency]
  split_ifs <;> omega

/-! ## The invariant -/

structure GpsPeriod.Inv (s : GpsPeriod) : Prop where
  set : s.modeSet = true → 1 ≤ s.fixFreq ∧ s.fixFreq ≤ 1800
  unset : s.modeSet = false → s.fixFreq = -1 ∨ s.life.init = .quit ∧ s.life.timer = false

/-- Without `gps_state_init` there is never a timer thread. -/
theorem lifeNext_idle {s : GpsLife} {e : LifeEvent} (hquit : s.init = .quit)
    (htimer : s.timer = false) (he : ¬e.Initialises s) :
    (lifeNext s e).init = .quit ∧ (lifeNext s e).timer = false := by
  cases e with
  | call c =>
      rw [lifeNext]
      split
      · exact ⟨hquit, htimer⟩
      · rename_i hjoin
        cases c with
        | init => exact absurd ⟨rfl, by simpa using hjoin, hquit⟩ he
        | start => simp [GpsCall.run, gpsStart, hquit, htimer]
        | stop => simp [GpsCall.run, gpsStop, hquit, htimer]
        | cleanup => simp [GpsCall.run, gpsCleanup, hquit, htimer]
  | pos => exact ⟨hquit, htimer⟩
  | spurious => exact ⟨hquit, htimer⟩
  | answer => exact ⟨hquit, htimer⟩
  | ctl =>
      rw [lifeNext]
      split <;> exact ⟨hquit, htimer⟩
  | timer => simp [lifeNext, hquit]
  | joined =>
      rw [lifeNext]
      split
      · exact ⟨rfl, htimer⟩
      · exact ⟨hquit, htimer⟩

theorem periodNext_inv (getCleanupValue : Bool) {s : GpsPeriod} (h : s.Inv) (e : PeriodEvent) :
    (periodNext getCleanupValue s e).Inv := by
  cases e with
  | life e =>
      rw [periodNext]
      split
      · exact h
      · split
        · exact ⟨fun hset => by simp at hset, fun _ => .inl rfl⟩
        · rename_i hinit
          refine ⟨h.set, fun hunset => ?_⟩
          rcases h.unset hunset with hreset | ⟨hquit, htimer⟩
          · exact .inl hreset
          · exact .inr (lifeNext_idle hquit htimer hinit)
  | setPositionMode recurrence minInterval =>
      rw [periodNext]
      split
      · exact h
      · rw [gpsSetPositionMode]
        split
        · exact h
        · exact ⟨fun _ => clampFixFrequency_range recurrence minInterval, fun hunset => by
            simp at hunset⟩
  | sleep => exact h

theorem sane_iff_afterMode {s : GpsPeriod} (h : s.Inv) (e : PeriodEvent) :
    e.Sane s ↔ e.AfterMode s := by
  cases e with
  | sleep =>
      constructor
      · intro hsane htimer
        by_contra hunset
        rcases h.unset (by simpa using hunset) with hreset | ⟨-, hnone⟩
        · have := (hsane htimer).range.1
          omega
        · rw [htimer] at hnone
          cases hnone
      · intro hmode htimer
        obtain ⟨hlo, hhi⟩ := h.set (hmode htimer)
        exact sanePeriod_of_range hlo hhi
  | life e => exact Iff.rfl
  | setPositionMode recurrence minInterval => exact Iff.rfl

/-- **The report period.** In a run of calls and threads, in any order, every sleep of
the timer thread is sane if and only if each comes after a `gps_set_position_mode`
that was taken since `gps_state_init`. -/
theorem report_period_iff (getCleanupValue : Bool) (es : List PeriodEvent) :
    AllSteps (periodNext getCleanupValue) (fun s e => e.Sane s) .boot es ↔
      AllSteps (periodNext getCleanupValue) (fun s e => e.AfterMode s) .boot es :=
  allSteps_iff (I := GpsPeriod.Inv) (fun _ e hs => sane_iff_afterMode hs e)
    (fun _ e hs _ => periodNext_inv getCleanupValue hs e)
    ⟨fun hset => by simp [GpsPeriod.boot] at hset, fun _ => .inr ⟨rfl, rfl⟩⟩

/-- A session started without a position mode sleeps for more than an hour. -/
theorem unset_mode_sleeps :
    let es : List PeriodEvent := [.life (.call .init), .life (.call .start), .sleep]
    (runFrom (periodNext true) .boot es).life.timer = true
      ∧ (runFrom (periodNext true) .boot es).fixFreq = -1
      ∧ sleepTime (-1) = 4293467296
      ∧ ¬AllSteps (periodNext true) (fun s e => e.Sane s) .boot es := by
  refine ⟨by decide, by decide, by decide, ?_⟩
  rintro ⟨-, -, hsleep, -⟩
  have hrange := (hsleep (by decide)).range.1
  exact absurd hrange (by decide)

end HtcLeo
