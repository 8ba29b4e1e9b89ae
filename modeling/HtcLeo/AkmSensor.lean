import HtcLeo.SensorBase

/-!
# The AKM driver (`libsensors/AkmSensor.cpp`)

Accelerometer, magnetic field and orientation come from one input device.
`EV_ABS` events change the pending event of a sensor and mark it;
`EV_SYN` sends the marked ones of the enabled sensors out. When the
caller's array is full in the middle of an `EV_SYN`, that event stays in
the ring and the sensors that are still marked follow with the next call.

The masks are the 32-bit words of the source. `maskOf` is the word of a
set of sensors; every test and update of a mask is stated through it once.
-/

namespace HtcLeo

inductive AkmIndex where
  | accelerometer
  | magneticField
  | orientation
deriving DecidableEq, Repr

namespace AkmIndex

/-- The order of the loops over the sensors. -/
def all : List AkmIndex := [accelerometer, magneticField, orientation]

/-- `1 << j`. -/
def bit : AkmIndex → Word
  | accelerometer => 1
  | magneticField => 2
  | orientation => 4

theorem mem_all (j : AkmIndex) : j ∈ all := by cases j <;> decide

theorem nodup_all : all.Nodup := by decide

end AkmIndex

/-- Whether the bit of a sensor is set. -/
def hasBit (mask : Word) (j : AkmIndex) : Bool := mask &&& j.bit ≠ 0

/-- The mask of a set of sensors. -/
def maskOf (f : AkmIndex → Bool) : Word :=
  (if f .accelerometer then 1 else 0) ||| (if f .magneticField then 2 else 0)
    ||| (if f .orientation then 4 else 0)

theorem hasBit_maskOf (f : AkmIndex → Bool) (j : AkmIndex) : hasBit (maskOf f) j = f j := by
  unfold maskOf
  cases j <;> cases f .accelerometer <;> cases f .magneticField <;> cases f .orientation <;> decide

theorem maskOf_eq_zero_iff (f : AkmIndex → Bool) : maskOf f = 0 ↔ ∀ j, f j = false := by
  constructor
  · intro h j
    rw [← hasBit_maskOf f j, h]
    cases j <;> decide
  · intro h
    simp [maskOf, h]

theorem maskOf_set (f : AkmIndex → Bool) (j : AkmIndex) :
    maskOf f ||| j.bit = maskOf (Function.update f j true) := by
  cases j <;> simp only [maskOf, Function.update_apply, reduceCtorEq, if_true, if_false] <;>
    cases f .accelerometer <;> cases f .magneticField <;> cases f .orientation <;> decide

theorem maskOf_clear (f : AkmIndex → Bool) (j : AkmIndex) :
    maskOf f &&& ~~~j.bit = maskOf (Function.update f j false) := by
  cases j <;> simp only [maskOf, Function.update_apply, reduceCtorEq, if_true, if_false] <;>
    cases f .accelerometer <;> cases f .magneticField <;> cases f .orientation <;> decide

theorem maskOf_setBit (hw : AkmIndex → Bool) (j : AkmIndex) (on : Bool) :
    (maskOf hw &&& ~~~j.bit) ||| (if on then j.bit else 0) = maskOf (Function.update hw j on) := by
  rw [maskOf_clear]
  cases on with
  | false => simp
  | true => rw [if_pos rfl, maskOf_set, Function.update_idem]

section

variable [SensorFloat]

open CFloat SensorFloat

structure AkmSensor where
  devFd : Int
  mEnabled : Word
  mPendingMask : Word
  mInputReader : InputEventCircularReader InputEvent
  mPendingEvents : AkmIndex → SensorsEvent
  mDelays : AkmIndex → Nat

/-! ## Construction and control -/

/-- What the constructor finds: the descriptor, the enable flags and the current
values of the axes; `mBuffer` is the new ring. -/
structure AkmProbe where
  opened : Int
  getFlag : AkmIndex → Option Int
  absinfo : Nat → Option Int
  mBuffer : Nat → InputEvent

/-- The pending events before anything was read; the status is
`SENSOR_STATUS_ACCURACY_HIGH`. -/
def akmPendingEvent : AkmIndex → SensorsEvent
  | .accelerometer => ⟨.a, .accelerometer, 0, zeroFloat, zeroFloat, zeroFloat, 3⟩
  | .magneticField => ⟨.m, .magneticField, 0, zeroFloat, zeroFloat, zeroFloat, 3⟩
  | .orientation => ⟨.o, .orientation, 0, zeroFloat, zeroFloat, zeroFloat, 3⟩

/-- A field gets the current value of its axis, if that can be read. -/
def AkmProbe.read (probe : AkmProbe) (code : Nat) (assign : Int → SensorsEvent → SensorsEvent)
    (e : SensorsEvent) : SensorsEvent :=
  match probe.absinfo code with
  | some v => assign v e
  | none => e

/-- The pending event of a sensor that is enabled already. -/
def AkmProbe.pendingEvent (probe : AkmProbe) : AkmIndex → SensorsEvent
  | .accelerometer =>
      probe.read eventTypeAccelZ (fun v e => { e with z := mulFloat (floatOfInt v) convertAZ })
        (probe.read eventTypeAccelY (fun v e => { e with y := mulFloat (floatOfInt v) convertAY })
          (probe.read eventTypeAccelX (fun v e => { e with x := mulFloat (floatOfInt v) convertAX })
            (akmPendingEvent .accelerometer)))
  | .magneticField =>
      probe.read eventTypeMagvZ (fun v e => { e with z := mulFloat (floatOfInt v) convertMZ })
        (probe.read eventTypeMagvY (fun v e => { e with y := mulFloat (floatOfInt v) convertMY })
          (probe.read eventTypeMagvX (fun v e => { e with x := mulFloat (floatOfInt v) convertMX })
            (akmPendingEvent .magneticField)))
  | .orientation =>
      -- without the conversions that `processEvent` applies
      probe.read eventTypeOrientStatus (fun v e => { e with status := sensorState v })
        (probe.read eventTypeRoll (fun v e => { e with z := floatOfInt (-v) })
          (probe.read eventTypePitch (fun v e => { e with y := floatOfInt v })
            (probe.read eventTypeYaw (fun v e => { e with x := floatOfInt v })
              (akmPendingEvent .orientation))))

/-- The enable flag of a sensor, as far as it can be read. -/
def AkmProbe.flag (probe : AkmProbe) (j : AkmIndex) : Bool :=
  match ioctlGet (openDevice (-1) probe.opened) (probe.getFlag j) with
  | some flags => flags ≠ 0
  | none => false

namespace AkmSensor

/-- The constructor. -/
def init (probe : AkmProbe) : AkmSensor where
  devFd :=
    if maskOf probe.flag = 0 then closeDevice (openDevice (-1) probe.opened)
    else openDevice (-1) probe.opened
  mEnabled := maskOf probe.flag
  mPendingMask := 0
  mInputReader := .init 32 probe.mBuffer
  mPendingEvents j := if probe.flag j then probe.pendingEvent j else akmPendingEvent j
  mDelays _ := 200000000

/-- The sensor of a handle. -/
def what (handle : Int) : Option AkmIndex :=
  if handle = SensorId.handle .a then some .accelerometer
  else if handle = SensorId.handle .m then some .magneticField
  else if handle = SensorId.handle .o then some .orientation
  else none

/-- The answers of the system to a control call: what `open` returns, and the
results of the two `ioctl`s, 0 or `-errno`. -/
structure Io where
  opened : Int
  setFlag : Int
  setDelay : Int

/-- A control call: what it returns, the sensor, the flag it has set in the
hardware and the delay it has asked for. -/
structure Control where
  err : Int
  sensor : AkmSensor
  flag : Option (AkmIndex × Bool) := none
  delay : Option Int := none

/-- The smallest delay of the enabled sensors. -/
def wanted (s : AkmSensor) : Nat :=
  AkmIndex.all.foldl
    (fun w j => if hasBit s.mEnabled j then if w < s.mDelays j then w else s.mDelays j else w)
    (2 ^ 64 - 1)

/-- The result and the delay given to the driver; `delay` is a `short`. -/
def updateDelay (s : AkmSensor) (io : Io) : Int × Option Int :=
  if s.mEnabled ≠ 0 then
    let delay := ((BitVec.ofNat 64 s.wanted).toInt.tdiv 1000000).bmod (2 ^ 16)
    (ioctlErr s.devFd io.setDelay, some delay)
  else (0, none)

/-- The sensor after a flag was set in the hardware. -/
def setBit (s : AkmSensor) (j : AkmIndex) (on : Bool) : AkmSensor :=
  { s with mEnabled := (s.mEnabled &&& ~~~j.bit) ||| if on then j.bit else 0 }

/-- `if (!mEnabled) close_device()`. -/
def closeUnused (s : AkmSensor) : AkmSensor :=
  if s.mEnabled = 0 then { s with devFd := closeDevice s.devFd } else s

def setEnable (s : AkmSensor) (handle en : Int) (io : Io) : Control :=
  match what handle with
  | none => { err := -einval, sensor := s }
  | some j =>
      let newState : Bool := en ≠ 0
      if newState ≠ hasBit s.mEnabled j then
        let s := if s.mEnabled = 0 then { s with devFd := openDevice s.devFd io.opened } else s
        let err := ioctlErr s.devFd io.setFlag
        if err = 0 then
          let s := s.setBit j newState
          { err := err, sensor := s.closeUnused, flag := some (j, newState),
            delay := (s.updateDelay io).2 }
        else { err := err, sensor := s.closeUnused }
      else { err := 0, sensor := s }

def setDelay (s : AkmSensor) (handle ns : Int) (io : Io) : Control :=
  match what handle with
  | none => { err := -einval, sensor := s }
  | some j =>
      if ns < 0 then { err := -einval, sensor := s }
      else
        let s := { s with mDelays := Function.update s.mDelays j ns.toNat }
        { err := (s.updateDelay io).1, sensor := s, delay := (s.updateDelay io).2 }

end AkmSensor

/-! ## Input events -/

/-- The cases of `processEvent`: a code, its sensor and the value it sets. -/
def akmFields : List (Nat × AkmIndex × (Int → SensorsEvent → SensorsEvent)) :=
  [(eventTypeAccelX, .accelerometer,
      fun v e => { e with x := mulFloat (floatOfInt v) convertAX }),
    (eventTypeAccelY, .accelerometer,
      fun v e => { e with y := mulFloat (floatOfInt v) convertAY }),
    (eventTypeAccelZ, .accelerometer,
      fun v e => { e with z := mulFloat (floatOfInt v) convertAZ }),
    (eventTypeMagvX, .magneticField,
      fun v e => { e with x := mulFloat (floatOfInt v) convertMX }),
    (eventTypeMagvY, .magneticField,
      fun v e => { e with y := mulFloat (floatOfInt v) convertMY }),
    (eventTypeMagvZ, .magneticField,
      fun v e => { e with z := mulFloat (floatOfInt v) convertMZ }),
    (eventTypeYaw, .orientation, fun v e => { e with x := mulFloat (floatOfInt v) convertOY }),
    (eventTypePitch, .orientation, fun v e => { e with y := mulFloat (floatOfInt v) convertOP }),
    (eventTypeRoll, .orientation, fun v e => { e with z := mulFloat (floatOfInt v) convertOR }),
    (eventTypeOrientStatus, .orientation, fun v e => { e with status := sensorState v })]

/-- The case for a code, if there is one. -/
def akmField (code : Nat) : Option (AkmIndex × (Int → SensorsEvent → SensorsEvent)) :=
  akmFields.lookup code

namespace AkmSensor

def processEvent (s : AkmSensor) (code : Nat) (value : Int) : AkmSensor :=
  match akmField code with
  | none => s
  | some (j, assign) =>
      { s with
        mPendingMask := s.mPendingMask ||| j.bit
        mPendingEvents :=
          Function.update s.mPendingEvents j (assign value (s.mPendingEvents j)) }

/-- The sensor, the room left in the caller's array and the events written. -/
structure Out where
  sensor : AkmSensor
  count : Nat
  data : List SensorsEvent := []

/-- The body of the loop over the sensors at an `EV_SYN`. -/
def synBody (s : AkmSensor) (time : Int) (count : Nat) (j : AkmIndex) : Out :=
  if hasBit s.mPendingMask j then
    let event := (s.mPendingEvents j).stamp time
    let s := { s with
      mPendingMask := s.mPendingMask &&& ~~~j.bit
      mPendingEvents := Function.update s.mPendingEvents j event }
    if hasBit s.mEnabled j then { sensor := s, count := count - 1, data := [event] }
    else { sensor := s, count := count }
  else { sensor := s, count := count }

def synLoop (time : Int) : List AkmIndex → AkmSensor → Nat → Out
  | [], s, count => { sensor := s, count := count }
  | j :: js, s, count =>
      if count ≠ 0 ∧ s.mPendingMask ≠ 0 then
        let out := s.synBody time count j
        let rest := synLoop time js out.sensor out.count
        { rest with data := out.data ++ rest.data }
      else { sensor := s, count := count }

/-- `mInputReader.next()`. -/
def next (s : AkmSensor) : AkmSensor := { s with mInputReader := s.mInputReader.next }

/-- The loop of `readEvents`. A round takes an event from the ring or fills the
caller's array, so as many rounds as there are events are enough. -/
def readLoop : (rounds : Nat) → AkmSensor → (count : Nat) → Out
  | 0, s, count => { sensor := s, count := count }
  | rounds + 1, s, count =>
      if count ≠ 0 ∧ s.mInputReader.readEvent.2 ≠ 0 then
        let event := s.mInputReader.mBuffer s.mInputReader.readEvent.1
        if event.type = evAbs then
          readLoop rounds (s.processEvent event.code event.value).next count
        else if event.type = evSyn then
          let out := synLoop event.timevalToNano AkmIndex.all s count
          let s := if out.sensor.mPendingMask = 0 then out.sensor.next else out.sensor
          let rest := readLoop rounds s out.count
          { rest with data := out.data ++ rest.data }
        else
          -- unknown event
          readLoop rounds s.next count
      else { sensor := s, count := count }

/-- What `readEvents` returns, the sensor, and the events it has written to the
caller's array from its start on. -/
def readEvents (s : AkmSensor) (count : Int) (result : ReadResult InputEvent) :
    Int × AkmSensor × List SensorsEvent :=
  if count < 1 then (-einval, s, [])
  else
    let n := s.mInputReader.fill result
    let s := { s with mInputReader := n.reader }
    if n.ret < 0 then (n.ret, s, [])
    else
      let available := (s.mInputReader.numEvents - s.mInputReader.mFreeSpace).toNat
      let out := readLoop available s count.toNat
      (out.data.length, out.sensor, out.data)

end AkmSensor

end

end HtcLeo
