import HtcLeo.SensorBase

/-!
# The light and proximity drivers (`LightSensor.cpp`, `ProximitySensor.cpp`)

Both drivers report one value. They share everything but the table of
their values, the event they listen to and the constructor: the proximity
driver takes a successful `GET_ENABLED` as "enabled" without looking at
the flag it has read.

An event that is pending without input, from enabling the sensor, is sent
first, and it is written to the caller's array even when the sensor was
disabled in the meantime.
-/

namespace HtcLeo

section

variable [SensorFloat]

open CFloat SensorFloat

/-- What tells the two drivers apart. -/
structure LevelKind where
  sensor : SensorId
  type : SensorType
  /-- The code of the driver's `EV_ABS` events. -/
  code : Nat
  /-- Whether a value is taken; the light driver skips `-1`. -/
  accepts : Int → Bool
  indexToValue : Nat → float

/-- The conversion of an `int` to `size_t`. -/
def sizeOfInt (value : Int) : Nat := (value % 2 ^ 32).toNat

def luxValues : List float :=
  [floatLiteral 100 1, floatLiteral 1600 1, floatLiteral 2250 1, floatLiteral 3200 1,
    floatLiteral 6400 1, floatLiteral 12800 1, floatLiteral 26000 1, floatLiteral 58000 1,
    floatLiteral 80000 1, floatLiteral 102400 1]

def lightKind : LevelKind where
  sensor := .l
  type := .light
  code := eventTypeLight
  accepts value := value ≠ -1
  indexToValue index := luxValues.getD (if index > 9 then 9 else index) zeroFloat

def proximityKind : LevelKind where
  sensor := .p
  type := .proximity
  code := eventTypeProximity
  accepts _ := true
  indexToValue index := mulFloat (floatOfInt index) (floatLiteral 90 1)

structure LevelSensor where
  devFd : Int
  mEnabled : Int
  mInputReader : InputEventCircularReader InputEvent
  mPendingEvent : SensorsEvent
  mHasPendingEvent : Bool

/-- What a constructor finds; `absinfo` is the current value of the axis. -/
structure LevelProbe where
  opened : Int
  getEnabled : Option Int
  absinfo : Option Int
  mBuffer : Nat → InputEvent

/-- The answers of the system to `setEnable`. -/
structure LevelIo where
  opened : Int
  setFlag : Int
  absinfo : Option Int

/-- A call of `setEnable`: what it returns, the sensor, and the flag it has set
in the hardware. -/
structure LevelControl where
  err : Int
  sensor : LevelSensor
  flag : Option Bool := none

namespace LevelSensor

/-! ## Construction and control -/

def setInitialState (kind : LevelKind) (absinfo : Option Int) (s : LevelSensor) : LevelSensor :=
  match absinfo with
  | some value =>
      { s with
        mPendingEvent := { s.mPendingEvent with x := kind.indexToValue (sizeOfInt value) }
        mHasPendingEvent := true }
  | none => s

/-- `if (!mEnabled) close_device()`. -/
def closeUnused (s : LevelSensor) : LevelSensor :=
  if s.mEnabled = 0 then { s with devFd := closeDevice s.devFd } else s

/-- A constructor up to the `ioctl`. -/
def opened (kind : LevelKind) (probe : LevelProbe) : LevelSensor where
  devFd := openDevice (-1) probe.opened
  mEnabled := 0
  mInputReader := .init 4 probe.mBuffer
  mPendingEvent := ⟨kind.sensor, kind.type, 0, zeroFloat, zeroFloat, zeroFloat, 0⟩
  mHasPendingEvent := false

/-- The constructor of `LightSensor`. -/
def lightInit (probe : LevelProbe) : LevelSensor :=
  let s := opened lightKind probe
  closeUnused <|
    match ioctlGet s.devFd probe.getEnabled with
    | some flags =>
        if flags ≠ 0 then setInitialState lightKind probe.absinfo { s with mEnabled := 1 } else s
    | none => s

/-- The constructor of `ProximitySensor`. -/
def proximityInit (probe : LevelProbe) : LevelSensor :=
  let s := opened proximityKind probe
  closeUnused <|
    match ioctlGet s.devFd probe.getEnabled with
    | some flags =>
        let s := { s with mEnabled := 1 }
        if flags ≠ 0 then setInitialState proximityKind probe.absinfo s else s
    | none => s

def setEnable (kind : LevelKind) (s : LevelSensor) (en : Int) (io : LevelIo) : LevelControl :=
  let flags : Int := if en ≠ 0 then 1 else 0
  if flags ≠ s.mEnabled then
    let s := if s.mEnabled = 0 then { s with devFd := openDevice s.devFd io.opened } else s
    let err := ioctlErr s.devFd io.setFlag
    if err = 0 then
      let s := { s with mEnabled := flags }
      let s := if en ≠ 0 then setInitialState kind io.absinfo s else s
      { err := err, sensor := s.closeUnused, flag := some (en ≠ 0) }
    else { err := err, sensor := s.closeUnused }
  else { err := 0, sensor := s }

def lightSetEnable : LevelSensor → Int → LevelIo → LevelControl := setEnable lightKind
def proximitySetEnable : LevelSensor → Int → LevelIo → LevelControl := setEnable proximityKind

/-! ## Reading -/

def hasPendingEvents (s : LevelSensor) : Bool := s.mHasPendingEvent

/-- What an event changes, and the events it sends. -/
def processEvent (kind : LevelKind) (s : LevelSensor) (event : InputEvent) :
    LevelSensor × List SensorsEvent :=
  if event.type = evAbs then
    if event.code = kind.code ∧ kind.accepts event.value = true then
      ({ s with
        mPendingEvent := { s.mPendingEvent with x := kind.indexToValue (sizeOfInt event.value) } },
        [])
    else (s, [])
  else if event.type = evSyn then
    let s := { s with mPendingEvent := s.mPendingEvent.stamp event.timevalToNano }
    if s.mEnabled ≠ 0 then (s, [s.mPendingEvent]) else (s, [])
  else (s, [])

/-- The loop of `readEvents`. Every round takes an event from the ring, so as
many rounds as there are events are enough. -/
def readLoop (kind : LevelKind) :
    (rounds : Nat) → LevelSensor → (count : Nat) → LevelSensor × List SensorsEvent
  | 0, s, _ => (s, [])
  | rounds + 1, s, count =>
      if count ≠ 0 ∧ s.mInputReader.readEvent.2 ≠ 0 then
        let event := s.mInputReader.mBuffer s.mInputReader.readEvent.1
        let out := s.processEvent kind event
        let s := { out.1 with mInputReader := out.1.mInputReader.next }
        let rest := readLoop kind rounds s (count - out.2.length)
        (rest.1, out.2 ++ rest.2)
      else (s, [])

/-- What `readEvents` returns, the sensor, and the events it has written to the
caller's array from its start on; `timestamp` is that of `getTimestamp`. -/
def readEvents (kind : LevelKind) (s : LevelSensor) (count timestamp : Int)
    (result : ReadResult InputEvent) : Int × LevelSensor × List SensorsEvent :=
  if count < 1 then (-einval, s, [])
  else if s.mHasPendingEvent then
    let s := { s with
      mHasPendingEvent := false, mPendingEvent := s.mPendingEvent.stamp timestamp }
    (if s.mEnabled ≠ 0 then 1 else 0, s, [s.mPendingEvent])
  else
    let n := s.mInputReader.fill result
    let s := { s with mInputReader := n.reader }
    if n.ret < 0 then (n.ret, s, [])
    else
      let available := (s.mInputReader.numEvents - s.mInputReader.mFreeSpace).toNat
      let out := readLoop kind available s count.toNat
      (out.2.length, out.1, out.2)

end LevelSensor

end

end HtcLeo
