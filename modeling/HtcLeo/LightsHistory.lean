import HtcLeo.Lights
import HtcLeo.Runs

/-!
# What the LEDs show and what came before

The states to show are not all that a request goes by. Its battery check
compares the status with the one of the last check and answers
differently when they differ, and a steady green light is amber while
`force_led_amber` is left from an earlier request.

`shown` puts the choice of a request in one place, as a function of the
two lights, the battery state, whether that state is new, and the flag.
`led_choice_settled_iff` says for which requests neither of the last two
matters.
-/

namespace HtcLeo

/-! ## The check -/

/-- The last battery state as the comparison finds it. -/
def Lights.knownState (g : Lights) : Int := (resetLastBatteryState g).lastBatteryState

/-- Whether the check calls the battery charging. -/
def checkAnswer (state : Int) (changed both : Bool) : Bool :=
  if changed then both || state ≠ battFull else state = battCharging

/-- What the check shows by itself. -/
def checkShown (state : Int) (changed both : Bool) : Option LedShown :=
  if changed then
    if both then some (if state = battCharging then .amber true else .green true)
    else if state = battCharging then some (.amber false)
    else if state = battFull then some (.green false)
    else none
  else none

theorem resetLastBatteryState_keeps (g : Lights) :
    ∃ last, resetLastBatteryState g = { g with lastBatteryState := last } := by
  unfold resetLastBatteryState
  split
  · exact ⟨_, rfl⟩
  · exact ⟨g.lastBatteryState, rfl⟩

theorem Lights.knownState_eq (g : Lights) :
    g.knownState = if g.lastBatteryState ≠ battCharging ∧ g.lastBatteryState ≠ battFull then battNone
      else g.lastBatteryState := by
  unfold Lights.knownState resetLastBatteryState
  split_ifs <;> rfl

/-- A state that is not new is one of three. -/
theorem knownState_cases (g : Lights) :
    g.knownState = battNone ∨ g.knownState = battFull ∨ g.knownState = battCharging := by
  rw [Lights.knownState_eq]
  split
  · exact .inl rfl
  · rename_i h
    rw [not_and_or, not_not, not_not] at h
    exact .inr h.symm

/-- What a check answers, shows and leaves behind. -/
theorem checkBatteryLevel_spec (status : List Byte) (g : Lights) :
    ∃ writes check, checkBatteryLevel status true g
        = (checkAnswer (batteryState status) (batteryState status ≠ g.knownState)
            (g.gBattery.isLit && g.gNotification.isLit),
          { g with lastBatteryState := batteryState status, batteryThreadCheck := check }, writes)
      ∧ ledShown writes = checkShown (batteryState status) (batteryState status ≠ g.knownState)
          (g.gBattery.isLit && g.gNotification.isLit) := by
  obtain ⟨last, hreset⟩ := resetLastBatteryState_keeps g
  have hknown : g.knownState = last := by rw [Lights.knownState, hreset]
  rw [checkBatteryLevel, hreset, hknown, compareBatteryState]
  generalize batteryState status = state
  by_cases hchanged : state = last
  · subst hchanged
    simp only [ne_eq, not_true_eq_false, if_false, if_true, checkAnswer, checkShown, decide_false,
      Bool.false_eq_true]
    exact ⟨[], g.batteryThreadCheck, rfl, rfl⟩
  · simp only [ne_eq, hchanged, not_false_eq_true, if_true, checkAnswer, checkShown, decide_true]
    split_ifs with hboth hcharging hcharging hfull
    · exact ⟨_, g.batteryThreadCheck, Prod.ext (by simp [hboth]) rfl, rfl⟩
    · exact ⟨_, false, Prod.ext (by simp [hboth]) rfl, rfl⟩
    · exact ⟨_, g.batteryThreadCheck,
        Prod.ext (by simp [hcharging, battCharging, battFull]) rfl, rfl⟩
    · exact ⟨_, false, Prod.ext (by simp [hboth, hfull]) rfl, rfl⟩
    · exact ⟨_, g.batteryThreadCheck, Prod.ext (by simp [hfull]) rfl, rfl⟩

/-! ## The choice -/

/-- What `set_speaker_light_locked` shows. -/
def speakerShown (state : LightState) (force : Bool) : Option LedShown :=
  ledShown (speakerWrites state.flashMode
    (if state.flashMode = lightFlashNone ∧ state.led = .green ∧ force = true then .amber
      else state.led))

/-- What a request shows. `changed` says that the battery state is not that of
the last check, `force` is `force_led_amber` before the request. -/
def shown (b n : LightState) (state : Int) (changed force : Bool) : Option LedShown :=
  if b.isLit && n.isLit then
    if b.hasAmber then some (.amber true)
    else if b.hasGreen then
      some (if checkAnswer state changed true then .amber true else .green true)
    else checkShown state changed true
  else if b.isLit then
    if b.hasGreen then
      (speakerShown b (force || checkAnswer state changed false)).or (checkShown state changed false)
    else speakerShown b force
  else speakerShown n force

theorem ledShown_append (ws : List LedWrite) (v w : LedWrite) :
    ledShown (ws ++ [v, w]) = ledShown [v, w] := by
  simp [ledShown]

theorem speakerWrites_cases (flashMode : Int) (color : Led) :
    speakerWrites flashMode color = [] ∨ ∃ v w, speakerWrites flashMode color = [v, w] := by
  unfold speakerWrites
  split_ifs
  · cases color <;> exact .inr ⟨_, _, rfl⟩
  · cases color <;> exact .inr ⟨_, _, rfl⟩
  · exact .inl rfl

/-- The light decides, if its flash mode is known. -/
theorem ledShown_speaker (ws : List LedWrite) (flashMode : Int) (color : Led) :
    ledShown (ws ++ speakerWrites flashMode color)
      = (ledShown (speakerWrites flashMode color)).or (ledShown ws) := by
  rcases speakerWrites_cases flashMode color with hnil | ⟨v, w, hpair⟩
  · rw [hnil, List.append_nil]
    rfl
  · rw [hpair, ledShown_append]
    rfl

theorem setSpeakerLightLocked_shown (g : Lights) (state : LightState) (ws : List LedWrite) :
    ledShown (ws ++ (setSpeakerLightLocked g state).2)
      = (speakerShown state g.forceLedAmber).or (ledShown ws) := by
  unfold setSpeakerLightLocked speakerShown
  split_ifs
  · exact ledShown_speaker ws state.flashMode .amber
  · exact ledShown_speaker ws state.flashMode state.led

theorem startBatteryThread_keeps (created : Bool) (g : Lights) :
    ∃ checker, (startBatteryThread created g).1 = { g with tBatteryChecker := checker } := by
  unfold startBatteryThread
  split
  · exact ⟨_, rfl⟩
  · exact ⟨g.tBatteryChecker, rfl⟩

section

variable {check : Lights → Bool × Lights × List LedWrite} {g g' : Lights} {answer : Bool}
  {writes : List LedWrite}

theorem setSpeakerLightLockedDual_shown (hcheck : check g = (answer, g', writes)) (created : Bool)
    (b : LightState) :
    ledShown (setSpeakerLightLockedDual check created g b).writes
      = if b.hasAmber then some (.amber true)
        else if b.hasGreen then some (if answer then .amber true else .green true)
        else ledShown writes := by
  simp only [setSpeakerLightLockedDual, hcheck]
  by_cases hamber : b.hasAmber = true
  · simp [hamber, ledShown_append]
    rfl
  · by_cases hgreen : b.hasGreen = true
    · cases answer with
      | true =>
          simp [hamber, hgreen, ledShown_append]
          rfl
      | false =>
          simp [hamber, hgreen, ledShown_append]
          rfl
    · simp [hamber, hgreen]

theorem setGreenBattery_shown (hcheck : check g = (answer, g', writes)) (created : Bool) :
    ledShown (setGreenBattery check created g).writes
      = (speakerShown g'.gBattery (g'.forceLedAmber || answer)).or (ledShown writes) := by
  simp only [setGreenBattery, hcheck]
  cases answer with
  | true =>
      obtain ⟨checker, hstart⟩ := startBatteryThread_keeps created { g' with forceLedAmber := true }
      simp only [hstart, if_true, setSpeakerLightLocked_shown, Bool.or_true]
  | false => simp only [Bool.false_eq_true, if_false, setSpeakerLightLocked_shown, Bool.or_false]

end

/-- The choice of a request, in terms of the state before it. -/
theorem showLights_shown (status : List Byte) (created : Bool) (g : Lights) :
    ledShown (showLights (checkBatteryLevel status true) created g).writes
      = shown g.gBattery g.gNotification (batteryState status)
          (batteryState status ≠ g.knownState) g.forceLedAmber := by
  obtain ⟨writes, check, hcheck, hshown⟩ := checkBatteryLevel_spec status g
  unfold showLights shown
  by_cases hboth : (g.gBattery.isLit && g.gNotification.isLit) = true
  · rw [hboth] at hcheck hshown
    rw [if_pos hboth, if_pos hboth, setSpeakerLightLockedDual_shown hcheck, hshown]
  · rw [if_neg hboth, if_neg hboth]
    rw [Bool.not_eq_true] at hboth
    rw [hboth] at hcheck hshown
    by_cases hlit : g.gBattery.isLit = true
    · rw [if_pos hlit, if_pos hlit]
      by_cases hgreen : g.gBattery.hasGreen = true
      · rw [if_pos hgreen, if_pos hgreen, setGreenBattery_shown hcheck, hshown]
      · rw [if_neg hgreen, if_neg hgreen]
        have hspeaker := setSpeakerLightLocked_shown g g.gBattery []
        simpa [ledShown] using hspeaker
    · rw [if_neg hlit, if_neg hlit]
      have hspeaker := setSpeakerLightLocked_shown g g.gNotification []
      simpa [ledShown] using hspeaker

/-! ## What a request leaves behind -/

/-- The flag after `set_speaker_light_locked`. -/
def forceAfter (state : LightState) (force : Bool) : Bool :=
  force && !decide (state.flashMode = lightFlashNone ∧ state.led = .green)

theorem setSpeakerLightLocked_lights (g : Lights) (state : LightState) :
    (setSpeakerLightLocked g state).1
      = { g with forceLedAmber := forceAfter state g.forceLedAmber } := by
  unfold setSpeakerLightLocked forceAfter
  by_cases hsteady : state.flashMode = lightFlashNone ∧ state.led = .green
  · cases hforce : g.forceLedAmber with
    | true => simp [hsteady]
    | false =>
        rw [if_neg fun h => absurd h.2.2 Bool.false_ne_true, Bool.false_and, ← hforce]
  · rw [if_neg fun h => hsteady ⟨h.1, h.2.1⟩]
    simp [hsteady]

theorem setSpeakerLightLockedDual_lights {check : Lights → Bool × Lights × List LedWrite}
    {g g' : Lights} {answer : Bool} {writes : List LedWrite}
    (hcheck : check g = (answer, g', writes)) (created : Bool) (b : LightState) :
    ∃ checker, (setSpeakerLightLockedDual check created g b).lights
      = { g' with tBatteryChecker := checker } := by
  have hstart := startBatteryThread_keeps created g'
  simp only [setSpeakerLightLockedDual, hcheck]
  cases b.hasAmber with
  | true => exact ⟨g'.tBatteryChecker, by simp⟩
  | false =>
      cases b.hasGreen with
      | true =>
          cases answer with
          | true =>
              obtain ⟨checker, hstart⟩ := hstart
              exact ⟨checker, by simpa using hstart⟩
          | false => exact ⟨g'.tBatteryChecker, by simp⟩
      | false => exact ⟨g'.tBatteryChecker, by simp⟩

/-- The flag after a request. -/
def Lights.forceNext (g : Lights) (state : Int) : Bool :=
  if g.gBattery.isLit && g.gNotification.isLit then g.forceLedAmber
  else if g.gBattery.isLit then
    forceAfter g.gBattery (g.forceLedAmber
      || g.gBattery.hasGreen && checkAnswer state (state ≠ g.knownState) false)
  else forceAfter g.gNotification g.forceLedAmber

/-- A request changes the thread variables, and besides them the last state, if
it checks the battery, and the flag. -/
theorem showLights_lights (status : List Byte) (created : Bool) (g : Lights) :
    ∃ checker check, (showLights (checkBatteryLevel status true) created g).lights
      = { g with
          tBatteryChecker := checker
          batteryThreadCheck := check
          lastBatteryState := if g.checks then batteryState status else g.lastBatteryState
          forceLedAmber := g.forceNext (batteryState status) } := by
  obtain ⟨writes, check, hcheck, -⟩ := checkBatteryLevel_spec status g
  unfold showLights Lights.forceNext Lights.checks
  by_cases hlit : g.gBattery.isLit = true
  · by_cases hnot : g.gNotification.isLit = true
    · obtain ⟨checker, hdual⟩ := setSpeakerLightLockedDual_lights hcheck created g.gBattery
      simp only [hlit, hnot, Bool.and_self, Bool.true_or, if_true, hdual]
      exact ⟨checker, check, rfl⟩
    · rw [Bool.not_eq_true] at hnot
      simp only [hlit, hnot, Bool.and_false, Bool.true_and, Bool.false_or, Bool.false_eq_true,
        if_false, if_true] at hcheck ⊢
      by_cases hgreen : g.gBattery.hasGreen = true
      · simp only [hgreen, if_true, setGreenBattery, hcheck, setSpeakerLightLocked_lights,
          Bool.true_and]
        split_ifs with hanswer
        · obtain ⟨checker, hstart⟩ := startBatteryThread_keeps created { g with
            lastBatteryState := batteryState status
            batteryThreadCheck := check
            forceLedAmber := true }
          refine ⟨checker, check, ?_⟩
          rw [hstart, hanswer, Bool.or_true]
        · refine ⟨g.tBatteryChecker, check, ?_⟩
          rw [Bool.not_eq_true] at hanswer
          rw [hanswer, Bool.or_false]
      · simp only [hgreen, if_false, Bool.false_and, Bool.or_false, Bool.false_eq_true,
          setSpeakerLightLocked_lights]
        exact ⟨_, _, rfl⟩
  · rw [Bool.not_eq_true] at hlit
    simp only [hlit, Bool.false_and, Bool.false_eq_true, if_false, setSpeakerLightLocked_lights]
    exact ⟨_, _, rfl⟩

/-! ## Histories -/

/-- Requests, and the checks of the polling threads in between. -/
inductive LightEvent where
  | request (r : LightRequest)
  | poll (status : List Byte)

def lightStep (g : Lights) : LightEvent → Lights
  | .request r => (setLight g r).lights
  | .poll status => (checkBatteryLevel status false g).2.1

/-- The light that a call does not set. -/
def LightCall.other (g : Lights) : LightCall → LightState
  | battery _ => g.gNotification
  | notifications _ => g.gBattery

/-- The battery and the notification light after a call. -/
def LightCall.lights (other : LightState) : LightCall → LightState × LightState
  | battery state => (state, other)
  | notifications state => (other, state)

/-- The history decides what these lights show. -/
def HistoryDecides (b n : LightState) (state : Int) : Prop :=
  if b.isLit && n.isLit then
    b.hasAmber = false ∧
      (state = battNone ∨ state = battFull ∨ state = battCharging ∧ b.hasGreen = false)
  else if b.isLit then
    b.hasGreen = true ∧
      if b.flashMode = lightFlashNone then
        b.hasAmber = false ∧ (state = battNone ∨ state = battFull)
      else b.flashMode ≠ lightFlashTimed ∧ (state = battFull ∨ state = battCharging)
  else n.flashMode = lightFlashNone ∧ n.led = .green

theorem setLight_shown (g : Lights) (call : LightCall) (status : List Byte) (created : Bool) :
    ledShown (setLight g ⟨call, status, created⟩).writes
      = shown (call.lights (call.other g)).1 (call.lights (call.other g)).2 (batteryState status)
          (batteryState status ≠ g.knownState) g.forceLedAmber := by
  rw [setLight, handleSpeakerBatteryLocked, showLights_shown, Lights.knownState_eq,
    Lights.knownState_eq g]
  cases call <;> rfl

/-! ### Where the history does not matter -/

theorem LightState.led_eq_green (state : LightState) :
    state.led = .green ↔ state.hasGreen = true ∧ state.hasAmber = false := by
  unfold LightState.led
  cases state.hasAmber <;> cases state.hasGreen <;> cases state.hasBlue <;> simp

/-- Only a steady green light looks at the flag. -/
theorem speakerShown_of_not_steady {state : LightState}
    (h : ¬ (state.flashMode = lightFlashNone ∧ state.led = .green)) (force : Bool) :
    speakerShown state force = ledShown (speakerWrites state.flashMode state.led) := by
  rw [speakerShown, if_neg fun hf => h ⟨hf.1, hf.2.1⟩]

theorem speakerShown_of_steady {state : LightState} (hnone : state.flashMode = lightFlashNone)
    (hgreen : state.led = .green) (force : Bool) :
    speakerShown state force = some (if force then .amber false else .green false) := by
  rw [speakerShown, hnone, hgreen]
  cases force <;> rfl

theorem speakerShown_of_known {state : LightState}
    (hknown : state.flashMode = lightFlashNone ∨ state.flashMode = lightFlashTimed)
    (h : ¬ (state.flashMode = lightFlashNone ∧ state.led = .green)) :
    ∃ led, ∀ force, speakerShown state force = some led := by
  simp only [speakerShown_of_not_steady h, forall_const]
  rcases hknown with hmode | hmode
  · rw [hmode]
    cases state.led <;> exact ⟨_, rfl⟩
  · rw [hmode]
    cases state.led <;> exact ⟨_, rfl⟩

theorem speakerShown_of_unknown {state : LightState} (hnone : state.flashMode ≠ lightFlashNone)
    (htimed : state.flashMode ≠ lightFlashTimed) (force : Bool) :
    speakerShown state force = none := by
  rw [speakerShown_of_not_steady fun h => hnone h.1]
  unfold speakerWrites
  rw [if_neg htimed, if_neg hnone]
  rfl

/-- Away from the states that can be old, every check says that the battery is charging. -/
theorem checkAnswer_of_settled {state : Int} {changed : Bool} (both : Bool)
    (hnone : state ≠ battNone) (hfull : state ≠ battFull)
    (hold : changed = false → state = battNone ∨ state = battFull ∨ state = battCharging) :
    checkAnswer state changed both = true := by
  cases changed with
  | true => simp [checkAnswer, hfull]
  | false =>
      have hcharging : state = battCharging :=
        ((hold rfl).resolve_left hnone).resolve_left hfull
      simp [checkAnswer, hcharging]

/-- Both lights are lit, and the battery light is not amber. -/
theorem bothShown_settled {b : LightState} {state : Int} {changed : Bool} (hnone : state ≠ battNone)
    (hfull : state ≠ battFull) (hcharging : ¬ (state = battCharging ∧ b.hasGreen = false))
    (hold : changed = false → state = battNone ∨ state = battFull ∨ state = battCharging) :
    (if b.hasGreen then
        some (if checkAnswer state changed true then LedShown.amber true else .green true)
      else checkShown state changed true)
      = if b.hasGreen then some (if checkAnswer state true true then .amber true else .green true)
        else checkShown state true true := by
  have hnew : true = false → state = battNone ∨ state = battFull ∨ state = battCharging := nofun
  cases hgreen : b.hasGreen with
  | true =>
      simp only [if_true, checkAnswer_of_settled true hnone hfull hold,
        checkAnswer_of_settled true hnone hfull hnew]
  | false =>
      -- no state can be old here
      simp only [hgreen, and_true] at hcharging
      cases changed with
      | true => rfl
      | false => exact absurd (hold rfl) (by simp [hnone, hfull, hcharging])

/-- Only the battery light is lit, and it has green in it. -/
theorem greenShown_settled {b : LightState} {state : Int} {changed : Bool}
    (hgreen : b.hasGreen = true)
    (h : ¬ if b.flashMode = lightFlashNone then
        b.hasAmber = false ∧ (state = battNone ∨ state = battFull)
      else b.flashMode ≠ lightFlashTimed ∧ (state = battFull ∨ state = battCharging))
    (hold : changed = false → state = battNone ∨ state = battFull ∨ state = battCharging)
    (force : Bool) :
    (speakerShown b (force || checkAnswer state changed false)).or (checkShown state changed false)
      = (speakerShown b (false || checkAnswer state true false)).or
        (checkShown state true false) := by
  have hnew : true = false → state = battNone ∨ state = battFull ∨ state = battCharging := nofun
  by_cases hnoflash : b.flashMode = lightFlashNone
  · simp only [if_pos hnoflash, not_and, not_or] at h
    cases hamber : b.hasAmber with
    | true =>
        obtain ⟨led, hled⟩ := speakerShown_of_known (.inl hnoflash) fun hs => by
          rw [LightState.led_eq_green, hamber] at hs
          exact Bool.false_ne_true hs.2.2.symm
        simp only [hled, Option.some_or]
    | false =>
        obtain ⟨hnone, hfull⟩ := h hamber
        have hled := speakerShown_of_steady hnoflash
          ((LightState.led_eq_green b).mpr ⟨hgreen, hamber⟩)
        simp only [checkAnswer_of_settled false hnone hfull hold,
          checkAnswer_of_settled false hnone hfull hnew, Bool.or_true, hled, Option.some_or]
  · simp only [if_neg hnoflash, not_and, not_or, ne_eq] at h
    by_cases htimed : b.flashMode = lightFlashTimed
    · obtain ⟨led, hled⟩ := speakerShown_of_known (.inr htimed) fun hs => hnoflash hs.1
      simp only [hled, Option.some_or]
    · obtain ⟨hfull, hcharging⟩ := h htimed
      simp only [speakerShown_of_unknown hnoflash htimed, Option.none_or, checkShown, hfull,
        hcharging, if_false, ite_self, Bool.false_eq_true]

/-- Where the history does not decide, the choice is that of a first request. -/
theorem shown_settled {b n : LightState} {state : Int} {changed : Bool}
    (h : ¬ HistoryDecides b n state)
    (hold : changed = false → state = battNone ∨ state = battFull ∨ state = battCharging)
    (force : Bool) : shown b n state changed force = shown b n state true false := by
  unfold HistoryDecides at h
  unfold shown
  by_cases hboth : (b.isLit && n.isLit) = true
  · simp only [if_pos hboth] at h ⊢
    cases hamber : b.hasAmber with
    | true => rfl
    | false =>
        simp only [hamber, true_and, not_or] at h
        obtain ⟨hnone, hfull, hcharging⟩ := h
        simp only [Bool.false_eq_true, if_false]
        exact bothShown_settled hnone hfull hcharging hold
  · simp only [if_neg hboth] at h ⊢
    by_cases hlit : b.isLit = true
    · simp only [if_pos hlit] at h ⊢
      cases hgreen : b.hasGreen with
      | false =>
          refine (speakerShown_of_not_steady (fun hs => ?_) force).trans
            (speakerShown_of_not_steady (fun hs => ?_) false).symm
          all_goals
            rw [LightState.led_eq_green, hgreen] at hs
            exact Bool.false_ne_true hs.2.1
      | true =>
          simp only [hgreen, true_and] at h
          exact greenShown_settled hgreen h hold force
    · simp only [if_neg hlit] at h ⊢
      rw [speakerShown_of_not_steady h, speakerShown_of_not_steady h]

/-! ### Where it does -/

/-- Last states and flags that some history leaves. -/
def pasts : List (Int × Bool) := [(battNone, false), (battFull, false), (battCharging, true)]

theorem shown_decided {b n : LightState} {state : Int} (h : HistoryDecides b n state) :
    ∃ p ∈ pasts, ∃ q ∈ pasts,
      shown b n state (state ≠ p.1) p.2 ≠ shown b n state (state ≠ q.1) q.2 := by
  have h1 : (battNone, false) ∈ pasts := by simp [pasts]
  have h5 : (battFull, false) ∈ pasts := by simp [pasts]
  have h9 : (battCharging, true) ∈ pasts := by simp [pasts]
  unfold HistoryDecides at h
  unfold shown
  by_cases hboth : (b.isLit && n.isLit) = true
  · simp only [if_pos hboth] at h ⊢
    obtain ⟨hamber, rfl | rfl | ⟨rfl, hgreen⟩⟩ := h
    · refine ⟨_, h1, _, h5, ?_⟩
      cases hgreen : b.hasGreen <;>
        simp [hamber, checkAnswer, checkShown, battNone, battFull, battCharging]
    · refine ⟨_, h1, _, h5, ?_⟩
      cases hgreen : b.hasGreen <;>
        simp [hamber, checkAnswer, checkShown, battNone, battFull, battCharging]
    · refine ⟨_, h1, _, h9, ?_⟩
      simp [hamber, hgreen, checkShown, battNone, battCharging]
  · simp only [if_neg hboth] at h ⊢
    by_cases hlit : b.isLit = true
    · simp only [if_pos hlit] at h ⊢
      obtain ⟨hgreen, h⟩ := h
      simp only [if_pos hgreen]
      by_cases hnoflash : b.flashMode = lightFlashNone
      · rw [if_pos hnoflash] at h
        obtain ⟨hamber, hstate⟩ := h
        have hled := speakerShown_of_steady hnoflash
          ((LightState.led_eq_green b).mpr ⟨hgreen, hamber⟩)
        simp only [hled, Option.some_or]
        rcases hstate with rfl | rfl
        · exact ⟨_, h1, _, h9, by simp [checkAnswer, battNone, battCharging]⟩
        · exact ⟨_, h5, _, h9, by simp [checkAnswer, battFull, battCharging]⟩
      · rw [if_neg hnoflash] at h
        obtain ⟨htimed, hstate⟩ := h
        simp only [speakerShown_of_unknown hnoflash htimed, Option.none_or]
        rcases hstate with rfl | rfl
        · exact ⟨_, h1, _, h5, by simp [checkShown, battNone, battFull, battCharging]⟩
        · exact ⟨_, h1, _, h9, by simp [checkShown, battNone, battCharging]⟩
    · simp only [if_neg hlit] at h ⊢
      simp only [speakerShown_of_steady h.1 h.2]
      exact ⟨_, h1, _, h9, by simp⟩

/-! ### Histories that leave them -/

section

variable (g : Lights) (r : LightRequest)

theorem setLight_lights :
    ∃ checker check, (setLight g r).lights
      = { r.call.store g with
          tBatteryChecker := checker
          batteryThreadCheck := check
          lastBatteryState :=
            if (r.call.store g).checks then batteryState r.status else g.lastBatteryState
          forceLedAmber := (r.call.store g).forceNext (batteryState r.status) } := by
  obtain ⟨checker, check, hshow⟩ :=
    showLights_lights r.status r.created (resetThread (r.call.store g))
  refine ⟨checker, check, hshow.trans ?_⟩
  simp only [Lights.forceNext, Lights.knownState_eq]
  cases r.call <;> rfl

theorem setLight_gBattery : (setLight g r).lights.gBattery = (r.call.store g).gBattery := by
  obtain ⟨checker, check, h⟩ := setLight_lights g r
  rw [h]

theorem setLight_gNotification :
    (setLight g r).lights.gNotification = (r.call.store g).gNotification := by
  obtain ⟨checker, check, h⟩ := setLight_lights g r
  rw [h]

theorem setLight_lastBatteryState : (setLight g r).lights.lastBatteryState
    = if (r.call.store g).checks then batteryState r.status else g.lastBatteryState := by
  obtain ⟨checker, check, h⟩ := setLight_lights g r
  rw [h]

theorem setLight_forceLedAmber : (setLight g r).lights.forceLedAmber
    = (r.call.store g).forceNext (batteryState r.status) := by
  obtain ⟨checker, check, h⟩ := setLight_lights g r
  rw [h]

end

def greenBlinking : LightState := ⟨0x00ff00, lightFlashTimed⟩
def redSteady : LightState := ⟨0xff0000, lightFlashNone⟩

/-- The text of the status file when the battery is full. -/
def statusFull : List Byte := [0x46, 0x75, 0x6c, 0x6c, 0x0a]
def statusCharging : List Byte := [0x43, 0x68, 0x61, 0x72, 0x67, 0x69, 0x6e, 0x67, 0x0a]

def SamePast (g g' : Lights) : Prop :=
  g'.lastBatteryState = g.lastBatteryState ∧ g'.forceLedAmber = g.forceLedAmber

/-- Over a red notification a battery light changes neither the last state nor
the flag, if the status is the last one. -/
theorem setLight_battery_over_red {g : Lights} {status : List Byte}
    (hred : g.gNotification = redSteady) (hlast : batteryState status = g.lastBatteryState)
    (other : LightState) :
    SamePast g (setLight g ⟨.battery other, status, false⟩).lights := by
  have hlit : redSteady.isLit = true := by decide
  have hled : redSteady.led ≠ .green := by decide
  rw [SamePast, setLight_lastBatteryState, setLight_forceLedAmber, hlast]
  cases hother : other.isLit with
  | true => simp [LightCall.store, Lights.forceNext, hred, hlit, hother]
  | false => simp [LightCall.store, Lights.forceNext, hred, hother, forceAfter, hled]

/-- Over a blinking green battery light a notification changes neither the last
state nor the flag, if the status is the last one and the flag was set on it. -/
theorem setLight_notifications_over_green {g : Lights} {status : List Byte}
    (hgreen : g.gBattery = greenBlinking) (hlast : batteryState status = g.lastBatteryState)
    (hknown : g.knownState = g.lastBatteryState)
    (hforce : g.forceLedAmber = decide (g.lastBatteryState = battCharging)) (other : LightState) :
    SamePast g (setLight g ⟨.notifications other, status, false⟩).lights := by
  have hlit : greenBlinking.isLit = true := by decide
  have hhas : greenBlinking.hasGreen = true := by decide
  have hflash : greenBlinking.flashMode ≠ lightFlashNone := by decide
  rw [SamePast, setLight_lastBatteryState, setLight_forceLedAmber, hlast]
  rw [Lights.knownState_eq] at hknown
  cases hother : other.isLit with
  | true => simp [LightCall.store, Lights.forceNext, hgreen, hlit, hother]
  | false =>
      simp [LightCall.store, Lights.forceNext, Lights.knownState_eq, hgreen, hlit, hhas, hother,
        forceAfter, hflash, checkAnswer, hforce, hknown]

theorem setLight_notifications_over_dark {g : Lights} (hdark : g.gBattery.isLit = false)
    (hforce : g.forceLedAmber = false) (status : List Byte) (other : LightState) :
    SamePast g (setLight g ⟨.notifications other, status, false⟩).lights := by
  rw [SamePast, setLight_lastBatteryState, setLight_forceLedAmber]
  simp [LightCall.store, Lights.checks, Lights.forceNext, forceAfter, hdark, hforce]

theorem SamePast.knownState {g g' : Lights} (h : SamePast g g') : g'.knownState = g.knownState := by
  rw [Lights.knownState_eq, Lights.knownState_eq, h.1]

theorem pasts_left_battery (other : LightState) {p : Int × Bool} (hp : p ∈ pasts) :
    ∃ events, (runFrom lightStep .init events).gBattery = other
      ∧ (runFrom lightStep .init events).knownState = p.1
      ∧ (runFrom lightStep .init events).forceLedAmber = p.2 := by
  have hleft (before : List LightEvent) (status : List Byte)
      (hred : (runFrom lightStep .init before).gNotification = redSteady)
      (hlast : batteryState status = (runFrom lightStep .init before).lastBatteryState)
      (hknown : (runFrom lightStep .init before).knownState = p.1)
      (hforce : (runFrom lightStep .init before).forceLedAmber = p.2) :
      ∃ events, (runFrom lightStep .init events).gBattery = other
        ∧ (runFrom lightStep .init events).knownState = p.1
        ∧ (runFrom lightStep .init events).forceLedAmber = p.2 := by
    have hsame := setLight_battery_over_red hred hlast other
    refine ⟨before ++ [.request ⟨.battery other, status, false⟩], ?_⟩
    rw [runFrom_append]
    exact ⟨setLight_gBattery _ _, hsame.knownState.trans hknown, hsame.2.trans hforce⟩
  simp only [pasts, List.mem_cons, List.not_mem_nil, or_false] at hp
  rcases hp with rfl | rfl | rfl
  · exact hleft [.request ⟨.notifications redSteady, [], false⟩] [] rfl rfl rfl rfl
  · exact hleft [.request ⟨.battery greenBlinking, statusFull, false⟩,
      .request ⟨.notifications redSteady, statusFull, false⟩] statusFull rfl rfl rfl rfl
  · exact hleft [.request ⟨.battery greenBlinking, statusCharging, false⟩,
      .request ⟨.notifications redSteady, statusCharging, false⟩] statusCharging rfl rfl rfl rfl

theorem pasts_left_notifications (other : LightState) {p : Int × Bool} (hp : p ∈ pasts) :
    ∃ events, (runFrom lightStep .init events).gNotification = other
      ∧ (runFrom lightStep .init events).knownState = p.1
      ∧ (runFrom lightStep .init events).forceLedAmber = p.2 := by
  have hleft (status : List Byte)
      (hlast : batteryState status = p.1)
      (hknown : (setLight .init ⟨.battery greenBlinking, status, false⟩).lights.knownState = p.1)
      (hforce : (setLight .init ⟨.battery greenBlinking, status, false⟩).lights.forceLedAmber = p.2)
      (hset : p.2 = decide (p.1 = battCharging)) :
      ∃ events, (runFrom lightStep .init events).gNotification = other
        ∧ (runFrom lightStep .init events).knownState = p.1
        ∧ (runFrom lightStep .init events).forceLedAmber = p.2 := by
    have hchecks : (LightCall.store .init (.battery greenBlinking)).checks = true := by decide
    have hlast' : (setLight .init ⟨.battery greenBlinking, status, false⟩).lights.lastBatteryState
        = batteryState status :=
      (setLight_lastBatteryState _ _).trans (if_pos hchecks)
    have hsame := setLight_notifications_over_green (setLight_gBattery _ _) hlast'.symm
      (by rw [hknown, hlast', hlast]) (by rw [hforce, hset, hlast', hlast]) other
    exact ⟨[.request ⟨.battery greenBlinking, status, false⟩,
        .request ⟨.notifications other, status, false⟩],
      setLight_gNotification _ _, hsame.knownState.trans hknown, hsame.2.trans hforce⟩
  simp only [pasts, List.mem_cons, List.not_mem_nil, or_false] at hp
  rcases hp with rfl | rfl | rfl
  · have hsame := setLight_notifications_over_dark (g := .init) (by decide) rfl [] other
    exact ⟨[.request ⟨.notifications other, [], false⟩], setLight_gNotification _ _,
      hsame.knownState, hsame.2⟩
  · exact hleft statusFull rfl rfl rfl rfl
  · exact hleft statusCharging rfl rfl rfl rfl

/-- Each of the pasts comes before a call that leaves `other` in place. -/
theorem pasts_left (call : LightCall) (other : LightState) {p : Int × Bool} (hp : p ∈ pasts) :
    ∃ events, call.other (runFrom lightStep .init events) = other
      ∧ (runFrom lightStep .init events).knownState = p.1
      ∧ (runFrom lightStep .init events).forceLedAmber = p.2 := by
  cases call with
  | battery state => exact pasts_left_notifications other hp
  | notifications state => exact pasts_left_battery other hp

/-! ## The choice and the history -/

/-- Two histories that come to the same request, with the same other light and
the same battery status, show the same, whatever they are, exactly for the
lights and battery states where the last check and the flag do not decide. -/
theorem led_choice_settled_iff (call : LightCall) (other : LightState) (status : List Byte) :
    (∀ (events₁ events₂ : List LightEvent) (created₁ created₂ : Bool),
        call.other (runFrom lightStep .init events₁) = other →
        call.other (runFrom lightStep .init events₂) = other →
        ledShown (setLight (runFrom lightStep .init events₁) ⟨call, status, created₁⟩).writes
          = ledShown (setLight (runFrom lightStep .init events₂) ⟨call, status, created₂⟩).writes)
      ↔ ¬ HistoryDecides (call.lights other).1 (call.lights other).2 (batteryState status) := by
  constructor
  · intro hsame hdecides
    obtain ⟨p, hp, q, hq, hne⟩ := shown_decided hdecides
    obtain ⟨events₁, hother₁, hknown₁, hforce₁⟩ := pasts_left call other hp
    obtain ⟨events₂, hother₂, hknown₂, hforce₂⟩ := pasts_left call other hq
    have h := hsame events₁ events₂ false false hother₁ hother₂
    rw [setLight_shown, setLight_shown, hother₁, hother₂, hknown₁, hknown₂, hforce₁, hforce₂] at h
    exact hne h
  · intro hsettled events₁ events₂ created₁ created₂ hother₁ hother₂
    have hold (g : Lights) (h : decide (batteryState status ≠ g.knownState) = false) :
        batteryState status = battNone ∨ batteryState status = battFull
          ∨ batteryState status = battCharging := by
      rw [decide_eq_false_iff_not, not_not] at h
      rw [h]
      exact knownState_cases g
    have hfirst (g : Lights) (force : Bool) := shown_settled hsettled (hold g) force
    rw [setLight_shown, setLight_shown, hother₁, hother₂, hfirst, hfirst]

/-- A full battery behind a notification is shown as charging by the first
request and as full by the same request made again. -/
theorem full_battery_shown_as_charging :
    let call : LightCall := .notifications redSteady
    let green : LightEvent := .request ⟨.battery ⟨0x00ff00, lightFlashNone⟩, [], true⟩
    let first : List LightEvent := [green]
    let again : List LightEvent := [green, .request ⟨call, statusFull, true⟩]
    call.other (runFrom lightStep .init first) = call.other (runFrom lightStep .init again)
      ∧ ledShown (setLight (runFrom lightStep .init first) ⟨call, statusFull, true⟩).writes
          = some (.amber true)
      ∧ ledShown (setLight (runFrom lightStep .init again) ⟨call, statusFull, true⟩).writes
          = some (.green true) := by
  decide

end HtcLeo
