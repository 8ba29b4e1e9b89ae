import HtcLeo.CInt
import HtcLeo.DecimalFloat
import HtcLeo.InputEventReader

/-!
# What the sensor drivers share (`libsensors/SensorBase.cpp`, `nusensors.h`)

The events that come in from the input devices and the events that go out
to the framework, the device descriptor of a driver, and the conversions
of sensor values. Values are C `float`s: `SensorFloat` adds to `CFloat`
the operations that the drivers use, and nothing about rounding is
assumed.
-/

namespace HtcLeo

/-! ## Events -/

/-- `struct input_event`. -/
structure InputEvent where
  tvSec : Int
  tvUsec : Int
  type : Nat
  code : Nat
  value : Int
deriving DecidableEq, Repr

def evSyn : Nat := 0
def evAbs : Nat := 3

/-- `timevalToNano`; the product of the microseconds is a 32-bit one. -/
def InputEvent.timevalToNano (e : InputEvent) : Int :=
  e.tvSec * 1000000000 + wrap32 (e.tvUsec * 1000)

/-- The sensor handles `ID_A` to `ID_L`. -/
inductive SensorId where
  | a
  | m
  | o
  | p
  | l
deriving DecidableEq, Repr

def SensorId.handle : SensorId → Int
  | a => 0
  | m => 1
  | o => 2
  | p => 3
  | l => 4

/-- The types of `hardware/sensors.h` that the drivers use. -/
inductive SensorType where
  | accelerometer
  | magneticField
  | orientation
  | light
  | proximity
deriving DecidableEq, Repr

class SensorFloat extends CFloat where
  /-- A `float` constant `n / 10 ^ k`. -/
  floatLiteral : Int → Nat → CFloat.float
  /-- The conversion of an integer operand. -/
  floatOfInt : Int → CFloat.float
  negFloat : CFloat.float → CFloat.float
  divFloat : CFloat.float → CFloat.float → CFloat.float

/-- The exact arithmetic of `decimalFloat`. -/
abbrev decimalSensorFloat : SensorFloat where
  toCFloat := decimalFloat
  floatLiteral n k := (n : Rat) / 10 ^ k
  floatOfInt n := (n : Rat)
  negFloat := fun (x : Rat) => -x
  divFloat := fun (x y : Rat) => x / y

section

variable [SensorFloat]

open CFloat SensorFloat

/-- `sensors_event_t`, with the part of its union that the drivers use: three
values (`azimuth`, `pitch` and `roll` of an orientation; `light` and `distance`
are the first of them) and a status. -/
structure SensorsEvent where
  sensor : SensorId
  type : SensorType
  timestamp : Int
  x : float
  y : float
  z : float
  status : Int

def SensorsEvent.stamp (e : SensorsEvent) (time : Int) : SensorsEvent :=
  { e with timestamp := time }

/-! ## Conversions -/

def gravityEarth : float := floatLiteral 980665 5

def convertA : float := divFloat gravityEarth (floatLiteral 7200 1)
def convertAX : float := negFloat convertA
def convertAY : float := convertA
def convertAZ : float := negFloat convertA

def convertM : float := divFloat (floatLiteral 10 1) (floatLiteral 160 1)
def convertMX : float := negFloat convertM
def convertMY : float := negFloat convertM
def convertMZ : float := convertM

def convertO : float := floatLiteral 10 1
def convertOY : float := convertO
def convertOP : float := convertO
def convertOR : float := negFloat convertO

end

/-- `uint8_t(value & SENSOR_STATE_MASK)`. -/
def sensorState (value : Int) : Int := value % 2 ^ 15 % 2 ^ 8

/-! ## Event codes -/

def eventTypeAccelX : Nat := 0x00
def eventTypeAccelY : Nat := 0x02
def eventTypeAccelZ : Nat := 0x01

def eventTypeYaw : Nat := 0x03
def eventTypePitch : Nat := 0x04
def eventTypeRoll : Nat := 0x05
def eventTypeOrientStatus : Nat := 0x07

def eventTypeMagvX : Nat := 0x10
def eventTypeMagvY : Nat := 0x11
def eventTypeMagvZ : Nat := 0x0a

def eventTypeProximity : Nat := 0x19
def eventTypeLight : Nat := 0x28

/-! ## The device descriptor -/

/-- `open_device`; `opened` is what `open` returns. -/
def openDevice (devFd opened : Int) : Int := if devFd < 0 then opened else devFd

/-- `close_device`. -/
def closeDevice (devFd : Int) : Int := if devFd ≥ 0 then -1 else devFd

/-- The result of an `ioctl` that the driver answers with `err`, 0 or `-errno`.
Without an open descriptor it fails with `EBADF`. -/
def ioctlErr (devFd err : Int) : Int := if devFd < 0 then -9 else err

/-- The value an `ioctl` reads, if it succeeds. -/
def ioctlGet {α : Type} (devFd : Int) (value : Option α) : Option α :=
  if devFd < 0 then none else value

theorem openDevice_nonneg (fd : Nat) : 0 ≤ openDevice (-1) fd := by
  rw [openDevice, if_pos (by decide)]
  omega

theorem ioctlGet_open {α : Type} (fd : Nat) (value : Option α) :
    ioctlGet (openDevice (-1) fd) value = value :=
  if_neg (not_lt.mpr (openDevice_nonneg fd))

/-- A device that is closed when it is not used, and open otherwise. -/
theorem closeDevice_iff {unused : Prop} [Decidable unused] {devFd : Int}
    (h : ¬unused → 0 ≤ devFd) :
    0 ≤ (if unused then closeDevice devFd else devFd) ↔ ¬unused := by
  unfold closeDevice
  split_ifs with hunused hfd
  · simp [hunused]
  · simp [hunused, hfd]
  · simp [hunused, h hunused]

/-- An `ioctl` that succeeds was made on an open device. -/
theorem devFd_of_ioctlErr {devFd err : Int} (h : ioctlErr devFd err = 0) : 0 ≤ devFd := by
  unfold ioctlErr at h
  split at h <;> omega

end HtcLeo
