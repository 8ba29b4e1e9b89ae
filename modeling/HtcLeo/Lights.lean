import HtcLeo.Mem

/-!
# Battery and notification light (`liblights/lights.c`)

The device has an amber and a green LED that show the battery and the
notifications. Every request stores the new state and then decides afresh
what to show (`handleSpeakerBatteryLocked`); where a green battery light
is asked for, the decision depends on whether the battery is charging,
which `checkBatteryLevel` reads off the length of the status text.

A function returns the values written to the LED files, in order, beside
the static variables of the library. What a request shows is decided by
its last two writes (`ledShown`), one for each LED.

The code that follows a battery check takes the check as a parameter:
the library runs it in one go here, and in steps beside the thread that
polls the battery in `LightsThread`.
-/

namespace HtcLeo

/-! ## States -/

/-- The fields of `light_state_t` that the library reads. -/
structure LightState where
  color : Word
  flashMode : Int
deriving DecidableEq, Repr

def lightFlashNone : Int := 0
def lightFlashTimed : Int := 1

/-- Not zero when the light is on. -/
def LightState.isLit (state : LightState) : Bool := state.color &&& 0x00ffffff ≠ 0

/-- The red byte of the colour, shown by the amber LED. -/
def LightState.hasAmber (state : LightState) : Bool :=
  ((state.color &&& 0xffffff) >>> 16) &&& 0xff ≠ 0

def LightState.hasGreen (state : LightState) : Bool :=
  ((state.color &&& 0xffffff) >>> 8) &&& 0xff ≠ 0

def LightState.hasBlue (state : LightState) : Bool := (state.color &&& 0xffffff) &&& 0xff ≠ 0

def battNone : Int := 1
def battFull : Int := 5
def battCharging : Int := 9

/-- The static variables; a thread identifier is known by not being zero. -/
structure Lights where
  gNotification : LightState
  gBattery : LightState
  tBatteryChecker : Bool
  batteryThreadCheck : Bool
  lastBatteryState : Int
  forceLedAmber : Bool
deriving DecidableEq, Repr

/-- As the library is loaded. -/
def Lights.init : Lights := ⟨⟨0, 0⟩, ⟨0, 0⟩, false, true, 0, false⟩

inductive LedFile where
  | amberLed
  | greenLed
  | amberBlink
  | greenBlink
deriving DecidableEq, Repr

abbrev LedWrite := LedFile × Int

inductive Led where
  | amber
  | green
  | blue
  | blank
deriving DecidableEq, Repr

/-! ## One light -/

/-- The colour that `set_speaker_light_locked` goes by. -/
def LightState.led (state : LightState) : Led :=
  let color := Led.blank
  let color := if state.hasBlue then .blue else color
  let color := if state.hasGreen then .green else color
  if state.hasAmber then .amber else color

/-- The writes for a flash mode and a colour; another mode is only logged. -/
def speakerWrites (flashMode : Int) (color : Led) : List LedWrite :=
  if flashMode = lightFlashTimed then
    match color with
    | .amber => [(.amberBlink, 2), (.greenLed, 0)]
    | .green => [(.greenBlink, 3), (.amberLed, 0)]
    | .blue => [(.greenBlink, 3), (.amberLed, 0)]
    | .blank => [(.amberBlink, 0), (.greenBlink, 0)]
  else if flashMode = lightFlashNone then
    match color with
    | .amber => [(.amberLed, 1), (.greenLed, 0)]
    | .green => [(.amberLed, 0), (.greenLed, 1)]
    | .blue => [(.amberLed, 0), (.greenLed, 1)]
    | .blank => [(.amberLed, 0), (.greenLed, 0)]
  else []

/-- A steady green light becomes amber once after `force_led_amber` was set. -/
def setSpeakerLightLocked (g : Lights) (state : LightState) : Lights × List LedWrite :=
  if state.flashMode = lightFlashNone ∧ state.led = .green ∧ g.forceLedAmber = true then
    ({ g with forceLedAmber := false }, speakerWrites state.flashMode .amber)
  else (g, speakerWrites state.flashMode state.led)

/-! ## The battery -/

/-- What `sprintf` returns for the text of the status file; the texts of the
driver are shorter than the buffer. -/
def batteryState (status : List Byte) : Int := ((status.take 20).takeWhile (· ≠ 0)).length

/-- A last state that is none of the two known ones is reset. -/
def resetLastBatteryState (g : Lights) : Lights :=
  if g.lastBatteryState ≠ battCharging ∧ g.lastBatteryState ≠ battFull then
    { g with lastBatteryState := battNone }
  else g

/-- `check_battery_level` from the comparison with the last state on; `ret` is
the parameter and the result. -/
def compareBatteryState (state : Int) (ret : Bool) (g : Lights) : Bool × Lights × List LedWrite :=
  if state ≠ g.lastBatteryState then
    let g := { g with lastBatteryState := state }
    if g.gBattery.isLit && g.gNotification.isLit then
      if state = battCharging then (ret, g, [(.amberBlink, 2), (.greenLed, 0)])
      else (ret, { g with batteryThreadCheck := false }, [(.amberLed, 0), (.greenBlink, 3)])
    else if state = battCharging then (ret, g, [(.amberLed, 1), (.greenLed, 0)])
    else if state = battFull then
      (false, { g with batteryThreadCheck := false }, [(.amberLed, 0), (.greenLed, 1)])
    else (ret, g, [])
  else if ret then (state = battCharging, g, [])
  else (ret, g, [])

def checkBatteryLevel (status : List Byte) (ret : Bool) (g : Lights) :
    Bool × Lights × List LedWrite :=
  compareBatteryState (batteryState status) ret (resetLastBatteryState g)

/-! ## Requests -/

/-- `pthread_create` if there is no thread; whether one is created comes last. -/
def startBatteryThread (created : Bool) (g : Lights) : Lights × Bool :=
  if g.tBatteryChecker = false then
    ({ g with tBatteryChecker := created }, created)
  else (g, false)

/-- What a request leaves: the variables, the writes, and whether it started a thread. -/
structure LightsOut where
  lights : Lights
  writes : List LedWrite
  started : Bool := false

/-- Battery and notification together. -/
def setSpeakerLightLockedDual (check : Lights → Bool × Lights × List LedWrite) (created : Bool)
    (g : Lights) (bstate : LightState) : LightsOut :=
  let (isCharging, g, writes) := check g
  let bcolor := Led.blank
  let bcolor := if bstate.hasGreen then .green else bcolor
  let bcolor := if bstate.hasAmber then .amber else bcolor
  if bcolor = .green ∧ isCharging = true then
    let (g, started) := startBatteryThread created g
    ⟨g, writes ++ [(.amberBlink, 2), (.greenLed, 0)], started⟩
  else if bcolor = .amber then ⟨g, writes ++ [(.amberBlink, 2), (.greenLed, 0)], false⟩
  else if bcolor = .green then ⟨g, writes ++ [(.amberLed, 0), (.greenBlink, 3)], false⟩
  else ⟨g, writes, false⟩

/-- A green battery light alone: amber first if the battery is still charging. -/
def setGreenBattery (check : Lights → Bool × Lights × List LedWrite) (created : Bool)
    (g : Lights) : LightsOut :=
  let (ret, g, writes) := check g
  let (g, started) :=
    if ret then startBatteryThread created { g with forceLedAmber := true } else (g, false)
  let (g, more) := setSpeakerLightLocked g g.gBattery
  ⟨g, writes ++ more, started⟩

/-- `handle_speaker_battery_locked` behind the reset of the thread variables. -/
def showLights (check : Lights → Bool × Lights × List LedWrite) (created : Bool) (g : Lights) :
    LightsOut :=
  if g.gBattery.isLit && g.gNotification.isLit then
    setSpeakerLightLockedDual check created g g.gBattery
  else if g.gBattery.isLit then
    if g.gBattery.hasGreen then setGreenBattery check created g
    else
      let (g, writes) := setSpeakerLightLocked g g.gBattery
      ⟨g, writes, false⟩
  else
    let (g, writes) := setSpeakerLightLocked g g.gNotification
    ⟨g, writes, false⟩

/-- `showLights` comes to the check. -/
def Lights.checks (g : Lights) : Bool :=
  g.gBattery.isLit && (g.gNotification.isLit || g.gBattery.hasGreen)

/-- `t_battery_checker = 0; battery_thread_check = 0` -/
def resetThread (g : Lights) : Lights :=
  { g with tBatteryChecker := false, batteryThreadCheck := false }

/-- `status` is the text of the status file and `created` the success of
`pthread_create`, if it comes to that. -/
def handleSpeakerBatteryLocked (status : List Byte) (created : Bool) (g : Lights) : LightsOut :=
  showLights (checkBatteryLevel status true) created (resetThread g)

inductive LightCall where
  | battery (state : LightState)
  | notifications (state : LightState)
deriving DecidableEq, Repr

def LightCall.store (g : Lights) : LightCall → Lights
  | battery state => { g with gBattery := state }
  | notifications state => { g with gNotification := state }

/-- `set_light_battery` or `set_light_notifications`, with what it meets outside. -/
structure LightRequest where
  call : LightCall
  status : List Byte
  created : Bool

def setLight (g : Lights) (r : LightRequest) : LightsOut :=
  handleSpeakerBatteryLocked r.status r.created (r.call.store g)

/-! ## What is shown -/

inductive LedShown where
  | off
  | amber (blinking : Bool)
  | green (blinking : Bool)
deriving DecidableEq, Repr

/-- The LED that a write turns on. -/
def LedFile.shows (file : LedFile) (value : Int) : Option LedShown :=
  if value = 0 then none
  else
    match file with
    | amberLed => some (.amber false)
    | greenLed => some (.green false)
    | amberBlink => some (.amber true)
    | greenBlink => some (.green true)

/-- A choice is two writes, one for each LED; without a write nothing is chosen. -/
def ledShown (writes : List LedWrite) : Option LedShown :=
  match writes.reverse with
  | [] => none
  | w :: rest => some (((w :: rest.take 1).findSome? fun w => w.1.shows w.2).getD .off)

end HtcLeo
