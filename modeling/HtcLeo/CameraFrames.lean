import HtcLeo.CameraRecord
import HtcLeo.PreviewDecode

/-!
# The way of a frame (`camera/QcomCamera.cpp`)

`libcamera.so` hands every frame to `cam_data_callback` or, when it is
recorded, to `cam_data_callback_timestamp`. The wrapper draws a preview
frame into a buffer of the window and gives the client a copy of each
frame in memory that the client provides. Windows, callbacks and the
allocator change between the frames, and any of them can be missing or
fail.

`frames_delivered` says what comes of a run: the windows and the client
get the frames that they are there for, with the right contents
(`CameraHal.deliveries`), and what is taken from them, buffers and memory,
is used in the order they prescribe and given back once (`Held.step`).
The recording frames among them are those of `CameraRecord`, which has
them without their memory (`cameraRun_records`).
-/

namespace HtcLeo

/-! ## Copies -/

/-- `*dest++ = *src++` for elements of `width` bytes; `n` rounds are left. -/
def copyLoop (width : Nat) : (n : Nat) → (dest src : Int) → Mem → Mem
  | 0, _, _, m => m
  | n + 1, dest, src, m =>
      copyLoop width n (dest + width) (src + width) (m.write dest (m.slice src width))

/-- Whole words first, then the bytes that are left; the computation is unsigned. -/
def internalCopybuffersSw (dest src : Int) (size : Word) (m : Mem) : Mem :=
  let numWords := size.toNat / 4
  let m := copyLoop 4 numWords dest src m
  let numBytes := size - BitVec.ofNat 32 (numWords * 4)
  if numBytes > 0 then
    copyLoop 1 numBytes.toNat (dest + 4 * numWords) (src + 4 * numWords) m
  else m

/-- Two ranges of `n` bytes that do not overlap. -/
def Apart (a b : Int) (n : Nat) : Prop := a + n ≤ b ∨ b + n ≤ a

instance (a b : Int) (n : Nat) : Decidable (Apart a b n) := inferInstanceAs (Decidable (_ ∨ _))

theorem Mem.slice_write_apart {m : Mem} {dest i : Int} {bs : List Byte} {n : Nat}
    (h : i + n ≤ dest ∨ dest + bs.length ≤ i) : (m.write dest bs).slice i n = m.slice i n := by
  refine Mem.slice_congr fun j hlo hhi => ?_
  rcases h with h | h
  · exact Mem.write_of_lt (by omega)
  · exact Mem.write_of_ge (by omega)

/-- The loop copies the range, whatever the width of its elements. -/
theorem copyLoop_eq {width n : Nat} {dest src : Int} (h : Apart dest src (width * n)) (m : Mem) :
    copyLoop width n dest src m = m.write dest (m.slice src (width * n)) := by
  induction n generalizing dest src m with
  | zero => rfl
  | succ n ih =>
      rw [Apart, Nat.mul_succ] at h
      push_cast at h
      have hrest : Apart (dest + width) (src + width) (width * n) := by
        rw [Apart]
        push_cast
        omega
      have hsrc : (m.write dest (m.slice src width)).slice (src + width) (width * n)
          = m.slice (src + width) (width * n) :=
        Mem.slice_write_apart (by rw [Mem.length_slice]; push_cast; omega)
      rw [copyLoop, ih hrest, hsrc, Nat.mul_succ, Nat.add_comm, Mem.slice_add, Mem.write_append,
        Mem.length_slice]

/-- **Exactly `size` bytes are copied**, also where `size` is not positive as an `int`. -/
theorem internalCopybuffersSw_eq {dest src : Int} {size : Word} (h : Apart dest src size.toNat)
    (m : Mem) : internalCopybuffersSw dest src size m = m.write dest (m.slice src size.toNat) := by
  obtain ⟨q, hq⟩ : ∃ q, q = size.toNat / 4 := ⟨_, rfl⟩
  have hsize := size.isLt
  have hleft : (size - BitVec.ofNat 32 (q * 4)).toNat = size.toNat - 4 * q := by
    rw [BitVec.toNat_sub_of_le (by rw [BitVec.le_def, BitVec.toNat_ofNat]; omega),
      BitVec.toNat_ofNat]
    omega
  rw [Apart] at h
  rw [internalCopybuffersSw, ← hq]
  simp only [copyLoop_eq (show Apart dest src (4 * q) by rw [Apart]; omega)]
  by_cases hbytes : size - BitVec.ofNat 32 (q * 4) > 0
  · have hsplit : size.toNat = 4 * q + 1 * (size.toNat - 4 * q) := by omega
    have hsrc : (m.write dest (m.slice src (4 * q))).slice (src + 4 * q) (1 * (size.toNat - 4 * q))
        = m.slice (src + 4 * q) (1 * (size.toNat - 4 * q)) :=
      Mem.slice_write_apart (by rw [Mem.length_slice]; omega)
    rw [if_pos hbytes, hleft, copyLoop_eq (by rw [Apart]; omega), hsrc]
    conv_rhs => rw [hsplit, Mem.slice_add, Mem.write_append, Mem.length_slice]
    push_cast
    rfl
  · have hexact : size.toNat = 4 * q := by
      rw [BitVec.not_lt, BitVec.le_def, hleft] at hbytes
      have hzero : (0 : Word).toNat = 0 := rfl
      omega
    rw [if_neg hbytes, hexact]

/-! ## The callbacks -/

def cameraMsgPreviewFrame : Int := 0x10

/-- A frame in the memory of the camera: at `mHeap->base() + offset`. -/
structure CameraFrame where
  mem : Mem
  base : Int
  size : Word

def CameraFrame.data (f : CameraFrame) : List Byte := f.mem.slice f.base f.size.toNat

/-- What the camera, the window and the buffer mapper answer at a preview frame. A mapper
without `bits` leaves the pointer as it is. -/
structure PreviewAnswers where
  previewWidth : Int
  previewHeight : Int
  previewEnabled : Bool
  setBuffersGeometry : Int
  dequeueBuffer : Int
  lockBuffer : Int
  bufHandle : Nat
  bits : Option (Int → Word)

/-- The calls of the window, the mapper and the client, with what they were given. -/
inductive CameraCall where
  | setUsage (window : Nat)
  | setBuffersGeometry (window : Nat) (width height : Int)
  | dequeueBuffer (window : Nat) (bufHandle : Option Nat)
  | lockBuffer (window bufHandle : Nat) (locked : Bool)
  | mapperLock (bufHandle : Nat)
  | mapperUnlock (bufHandle : Nat)
  | enqueueBuffer (window bufHandle : Nat) (pixels : Int → Word)
  | cancelBuffer (window bufHandle : Nat)
  | getMemory (size : Word) (memory : Option Int)
  | notifyCb (msgType ext1 ext2 : Int)
  | dataCb (msgType memory : Int) (data : List Byte)
  | dataCbTimestamp (timestamp msgType memory : Int) (data : List Byte)
  | release (memory : Int)
  | releaseRecordingFrame

/-- The window and the callbacks, as far as they are set. -/
structure CameraHal where
  mWindow : Option Nat
  origNotifyCb : Bool
  origDataCb : Bool
  origDataTsCb : Bool
  origCamReqMemory : Bool

def CameraHal.boot : CameraHal := ⟨none, false, false, false, false⟩

/-- No value where the frame is read out of bounds or an unmapped buffer is drawn into. -/
def internalHandlePreview (frame : CameraFrame) (mWindow : Option Nat) (getMemory : Bool)
    (answers : PreviewAnswers) : Option (List CameraCall) :=
  match mWindow, getMemory with
  | some window, true =>
      let calls := [.setUsage window,
        .setBuffersGeometry window answers.previewWidth answers.previewHeight]
      if answers.setBuffersGeometry = 0 then
        if answers.dequeueBuffer = 0 then
          if answers.lockBuffer = 0 then do
            let bits ← answers.bits
            let (pixels, _) ← internalDecodeSw answers.previewEnabled bits frame.data
              answers.previewWidth answers.previewHeight
            return calls ++ [.dequeueBuffer window (some answers.bufHandle),
              .lockBuffer window answers.bufHandle true, .mapperLock answers.bufHandle,
              .mapperUnlock answers.bufHandle, .enqueueBuffer window answers.bufHandle pixels]
          else
            some (calls ++ [.dequeueBuffer window (some answers.bufHandle),
              .lockBuffer window answers.bufHandle false,
              .cancelBuffer window answers.bufHandle])
        else some (calls ++ [.dequeueBuffer window none])
      else some calls
  | _, _ => some []

/-- The client's memory with the copy, if the client has memory. -/
def generateClientData (frame : CameraFrame) (memory : Option Int) : Option (Int × List Byte) :=
  memory.map fun dest =>
    (dest, (internalCopybuffersSw dest frame.base frame.size frame.mem).slice dest
      frame.size.toNat)

/-- A copy for the client, `post` and `release`. -/
def postCopy (frame : CameraFrame) (memory : Option Int)
    (post : Int → List Byte → List CameraCall) : List CameraCall :=
  .getMemory frame.size memory ::
    match generateClientData frame memory with
    | some (clientData, data) => post clientData data ++ [.release clientData]
    | none => []

namespace CameraHal

variable (s : CameraHal)

def camNotifyCallback (msgType ext1 ext2 : Int) : List CameraCall :=
  if s.origNotifyCb then [.notifyCb msgType ext1 ext2] else []

def camDataCallback (msgType : Int) (frame : CameraFrame) (answers : PreviewAnswers)
    (memory : Option Int) : Option (List CameraCall) := do
  let preview ←
    if msgType = cameraMsgPreviewFrame then
      internalHandlePreview frame s.mWindow s.origCamReqMemory answers
    else some []
  return preview ++
    if s.origDataCb && s.origCamReqMemory then
      postCopy frame memory fun clientData data => [.dataCb msgType clientData data]
    else []

def camDataTsCallback (timestamp msgType : Int) (frame : CameraFrame) (memory : Option Int) :
    List CameraCall :=
  if s.origDataTsCb && s.origCamReqMemory then
    postCopy frame memory fun clientData data =>
      [.dataCbTimestamp timestamp msgType clientData data, .releaseRecordingFrame]
  else []

end CameraHal

inductive CameraEvent where
  /-- `set_preview_window`; without a device it fails. -/
  | setPreviewWindow (device : Bool) (window : Option Nat)
  | setCallbacks (notifyCb dataCb dataCbTimestamp getMemory : Bool)
  | notify (msgType ext1 ext2 : Int)
  | data (msgType : Int) (frame : CameraFrame) (answers : PreviewAnswers) (memory : Option Int)
  | dataTimestamp (timestamp msgType : Int) (frame : CameraFrame) (memory : Option Int)

def CameraHal.next (s : CameraHal) : CameraEvent → CameraHal
  | .setPreviewWindow device window => if device then { s with mWindow := window } else s
  | .setCallbacks notifyCb dataCb dataCbTimestamp getMemory =>
      { s with
        origNotifyCb := notifyCb, origDataCb := dataCb, origDataTsCb := dataCbTimestamp
        origCamReqMemory := getMemory }
  | .notify .. | .data .. | .dataTimestamp .. => s

def CameraHal.calls (s : CameraHal) : CameraEvent → Option (List CameraCall)
  | .setPreviewWindow .. | .setCallbacks .. => some []
  | .notify msgType ext1 ext2 => some (s.camNotifyCallback msgType ext1 ext2)
  | .data msgType frame answers memory => s.camDataCallback msgType frame answers memory
  | .dataTimestamp timestamp msgType frame memory =>
      some (s.camDataTsCallback timestamp msgType frame memory)

def cameraRun (s : CameraHal) : List CameraEvent → Option (List CameraCall)
  | [] => some []
  | e :: es => do
      let calls ← s.calls e
      let more ← cameraRun (s.next e) es
      return calls ++ more

/-! ## Deliveries -/

/-- What the windows and the client get. -/
inductive Delivery where
  | notified (msgType ext1 ext2 : Int)
  | shown (window bufHandle : Nat) (pixels : Int → Word)
  | posted (msgType : Int) (data : List Byte)
  | recorded (timestamp msgType : Int) (data : List Byte)

def CameraCall.delivery : CameraCall → Option Delivery
  | .notifyCb msgType ext1 ext2 => some (.notified msgType ext1 ext2)
  | .enqueueBuffer window bufHandle pixels => some (.shown window bufHandle pixels)
  | .dataCb msgType _ data => some (.posted msgType data)
  | .dataCbTimestamp timestamp msgType _ data => some (.recorded timestamp msgType data)
  | _ => none

/-- The window gives a buffer and lets it be drawn into. -/
def PreviewAnswers.accepted (answers : PreviewAnswers) : Bool :=
  answers.setBuffersGeometry = 0 && answers.dequeueBuffer = 0 && answers.lockBuffer = 0

/-- The buffer with the picture in it, row after row without a stride, while the preview is
enabled. -/
def PreviewAnswers.picture (answers : PreviewAnswers) (data : List Byte) : Int → Word :=
  let w := answers.previewWidth.toNat
  let h := answers.previewHeight.toNat
  fun k =>
    if answers.previewEnabled ∧ 0 ≤ k ∧ k < (w * h : Nat) then
      pixelAt data w h (k.toNat % w) (k.toNat / w)
    else answers.bits.elim 0 fun bits => bits k

def CameraHal.shows (s : CameraHal) (msgType : Int) (frame : CameraFrame)
    (answers : PreviewAnswers) : List Delivery :=
  match s.mWindow with
  | some window =>
      if msgType = cameraMsgPreviewFrame ∧ s.origCamReqMemory = true ∧ answers.accepted = true then
        [.shown window answers.bufHandle (answers.picture frame.data)]
      else []
  | none => []

/-- What comes of an event. -/
def CameraHal.deliveries (s : CameraHal) : CameraEvent → List Delivery
  | .setPreviewWindow .. | .setCallbacks .. => []
  | .notify msgType ext1 ext2 => if s.origNotifyCb then [.notified msgType ext1 ext2] else []
  | .data msgType frame answers memory =>
      s.shows msgType frame answers ++
        if s.origDataCb && s.origCamReqMemory && memory.isSome then [.posted msgType frame.data]
        else []
  | .dataTimestamp timestamp msgType frame memory =>
      if s.origDataTsCb && s.origCamReqMemory && memory.isSome then
        [.recorded timestamp msgType frame.data]
      else []

def cameraDeliveries (s : CameraHal) : List CameraEvent → List Delivery
  | [] => []
  | e :: es => s.deliveries e ++ cameraDeliveries (s.next e) es

/-! ## Custody -/

/-- How far a buffer is. -/
inductive BufferPhase where
  | dequeued
  | locked
  | mapped
deriving DecidableEq, Repr

/-- What the wrapper has of the window and of the client. -/
structure Held where
  buffer : Option (Nat × Nat × BufferPhase)
  memory : Option Int
deriving DecidableEq

def Held.nothing : Held := ⟨none, none⟩

/-- The calls that are allowed with what is held. -/
def Held.step (h : Held) : CameraCall → Option Held
  | .setUsage _ | .setBuffersGeometry .. | .dequeueBuffer _ none | .getMemory _ none
  | .notifyCb .. | .releaseRecordingFrame => some h
  | .dequeueBuffer window (some b) =>
      if h.buffer = none then some { h with buffer := some (window, b, .dequeued) } else none
  | .lockBuffer window b locked =>
      if h.buffer = some (window, b, .dequeued) then
        some (if locked then { h with buffer := some (window, b, .locked) } else h)
      else none
  | .mapperLock b =>
      match h.buffer with
      | some (window, b', .locked) =>
          if b' = b then some { h with buffer := some (window, b, .mapped) } else none
      | _ => none
  | .mapperUnlock b =>
      match h.buffer with
      | some (window, b', .mapped) =>
          if b' = b then some { h with buffer := some (window, b, .locked) } else none
      | _ => none
  | .enqueueBuffer window b _ =>
      if h.buffer = some (window, b, .locked) then some { h with buffer := none } else none
  | .cancelBuffer window b =>
      if h.buffer = some (window, b, .dequeued) then some { h with buffer := none } else none
  | .getMemory _ (some memory) =>
      if h.memory = none then some { h with memory := some memory } else none
  | .dataCb _ memory _ | .dataCbTimestamp _ _ memory _ =>
      if h.memory = some memory then some h else none
  | .release memory => if h.memory = some memory then some { h with memory := none } else none

/-- The calls are allowed one after the other, and nothing is held in the end. -/
def InOrder (calls : List CameraCall) : Prop := calls.foldlM Held.step .nothing = some .nothing

theorem InOrder.append {calls calls' : List CameraCall} (h : InOrder calls) (h' : InOrder calls') :
    InOrder (calls ++ calls') := by
  rw [InOrder, List.foldlM_append, h]
  exact h'

/-! ## One event -/

/-- Client memory lies apart from the frame; a preview frame has the preview's size, and its
buffer can be mapped. -/
def CameraEvent.Sound : CameraEvent → Prop
  | .data msgType frame answers memory =>
      (∀ dest ∈ memory, Apart dest frame.base frame.size.toNat)
        ∧ (msgType = cameraMsgPreviewFrame →
          PreviewFrame frame.data answers.previewWidth.toNat answers.previewHeight.toNat
            ∧ 0 ≤ answers.previewWidth ∧ 0 ≤ answers.previewHeight ∧ answers.bits.isSome = true)
  | .dataTimestamp _ _ frame memory => ∀ dest ∈ memory, Apart dest frame.base frame.size.toNat
  | .setPreviewWindow .. | .setCallbacks .. | .notify .. => True

/-- The copy is the frame. -/
theorem generateClientData_eq {frame : CameraFrame} {memory : Option Int}
    (h : ∀ dest ∈ memory, Apart dest frame.base frame.size.toNat) :
    generateClientData frame memory = memory.map fun dest => (dest, frame.data) := by
  cases memory with
  | none => rfl
  | some dest =>
      have hslice := Mem.slice_write frame.mem dest frame.data
      rw [CameraFrame.data, Mem.length_slice] at hslice
      rw [generateClientData, Option.map_some, Option.map_some,
        internalCopybuffersSw_eq (h dest rfl), CameraFrame.data, hslice]

theorem postCopy_spec {frame : CameraFrame} {memory : Option Int}
    (h : ∀ dest ∈ memory, Apart dest frame.base frame.size.toNat)
    {post : Int → List Byte → List CameraCall} {d : Delivery}
    (hpost : ∀ dest, (post dest frame.data).filterMap CameraCall.delivery = [d]
      ∧ (post dest frame.data).foldlM Held.step ⟨none, some dest⟩ = some ⟨none, some dest⟩) :
    (postCopy frame memory post).filterMap CameraCall.delivery
        = (if memory.isSome then [d] else [])
      ∧ InOrder (postCopy frame memory post) := by
  rw [postCopy, generateClientData_eq h]
  cases memory with
  | none => exact ⟨rfl, rfl⟩
  | some dest =>
      obtain ⟨hdelivery, horder⟩ := hpost dest
      constructor
      · change List.filterMap _ (post dest frame.data ++ [.release dest]) = [d]
        rw [List.filterMap_append, hdelivery]
        rfl
      · change (post dest frame.data ++ [CameraCall.release dest]).foldlM Held.step
            ⟨none, some dest⟩ = _
        rw [List.foldlM_append, horder]
        simp [Held.step, Held.nothing]

/-- The picture is what the conversion makes of the frame. -/
theorem internalDecodeSw_picture {frame : CameraFrame} {answers : PreviewAnswers}
    (hf : PreviewFrame frame.data answers.previewWidth.toNat answers.previewHeight.toNat)
    (hw : 0 ≤ answers.previewWidth) (hh : 0 ≤ answers.previewHeight) {bits : Int → Word}
    (hbits : answers.bits = some bits) :
    ∃ writes, internalDecodeSw answers.previewEnabled bits frame.data answers.previewWidth
      answers.previewHeight = some (answers.picture frame.data, writes) := by
  obtain ⟨w, hw⟩ := Int.eq_ofNat_of_zero_le hw
  obtain ⟨h, hh⟩ := Int.eq_ofNat_of_zero_le hh
  unfold PreviewAnswers.picture
  rw [hw, hh] at hf ⊢
  simp only [Int.toNat_natCast, hbits, Option.elim_some] at hf ⊢
  cases answers.previewEnabled with
  | false =>
      have hsize := hf.size
      have hint := hf.length_lt
      refine ⟨[], ?_⟩
      rw [internalDecodeSw, ← Nat.cast_mul, int32_eq (by omega) (by omega)]
      simp
  | true =>
      obtain ⟨rgb', hrun, hpixels, hrest⟩ := preview_decoded hf bits
      have hpicture : rgb' = fun k : Int =>
          if true = true ∧ 0 ≤ k ∧ k < (w * h : Nat) then
            pixelAt frame.data w h (k.toNat % w) (k.toNat / w)
          else bits k := by
        funext k
        split_ifs with hk
        · obtain ⟨-, hlo, hhi⟩ := hk
          obtain ⟨k, rfl⟩ := Int.eq_ofNat_of_zero_le hlo
          have hrow : k / w < h := (Nat.div_lt_iff_lt_mul hf.width).mpr (by
            rw [Nat.mul_comm]
            exact_mod_cast hhi)
          have hpixel := hpixels (k % w) (k / w) (Nat.mod_lt _ hf.width) hrow
          rw [Nat.mul_comm, Nat.div_add_mod] at hpixel
          exact hpixel
        · simp only [true_and, not_and_or, not_le, not_lt] at hk
          exact hrest k hk
      exact ⟨_, hrun.trans (by rw [hpicture])⟩

/-- A buffer is drawn into and shown, or given back, or there is none. -/
theorem internalHandlePreview_spec (s : CameraHal) {frame : CameraFrame}
    {answers : PreviewAnswers} {memory : Option Int}
    (hsound : (CameraEvent.data cameraMsgPreviewFrame frame answers memory).Sound) :
    ∃ calls, internalHandlePreview frame s.mWindow s.origCamReqMemory answers = some calls
      ∧ calls.filterMap CameraCall.delivery = s.shows cameraMsgPreviewFrame frame answers
      ∧ InOrder calls := by
  obtain ⟨hf, hw, hh, hmapped⟩ := hsound.2 rfl
  obtain ⟨bits, hbits⟩ := Option.isSome_iff_exists.mp hmapped
  obtain ⟨writes, hdecode⟩ := internalDecodeSw_picture hf hw hh hbits
  unfold internalHandlePreview CameraHal.shows PreviewAnswers.accepted
  cases s.mWindow with
  | none => exact ⟨[], rfl, rfl, rfl⟩
  | some window =>
      cases s.origCamReqMemory with
      | false => exact ⟨[], rfl, rfl, rfl⟩
      | true =>
          simp only [true_and, Bool.and_eq_true, decide_eq_true_eq]
          by_cases hgeometry : answers.setBuffersGeometry = 0
          · by_cases hdequeue : answers.dequeueBuffer = 0
            · by_cases hlock : answers.lockBuffer = 0
              · rw [if_pos hgeometry, if_pos hdequeue, if_pos hlock, hbits,
                  if_pos ⟨⟨hgeometry, hdequeue⟩, hlock⟩]
                simp only [Option.bind_eq_bind, Option.bind_some, hdecode]
                exact ⟨_, rfl, rfl, by simp [InOrder, Held.step, Held.nothing]⟩
              · rw [if_pos hgeometry, if_pos hdequeue, if_neg hlock, if_neg fun h => hlock h.2]
                exact ⟨_, rfl, rfl, by simp [InOrder, Held.step, Held.nothing]⟩
            · rw [if_pos hgeometry, if_neg hdequeue, if_neg fun h => hdequeue h.1.2]
              exact ⟨_, rfl, rfl, rfl⟩
          · rw [if_neg hgeometry, if_neg fun h => hgeometry h.1.1]
            exact ⟨_, rfl, rfl, rfl⟩

/-- The client's part of a callback that is set, or not. -/
theorem client_spec {frame : CameraFrame} {memory : Option Int}
    (h : ∀ dest ∈ memory, Apart dest frame.base frame.size.toNat) (set : Bool)
    (post : Int → List Byte → List CameraCall) (d : Delivery)
    (hpost : ∀ dest, (post dest frame.data).filterMap CameraCall.delivery = [d]
      ∧ (post dest frame.data).foldlM Held.step ⟨none, some dest⟩ = some ⟨none, some dest⟩) :
    (if set then postCopy frame memory post else []).filterMap CameraCall.delivery
        = (if set && memory.isSome then [d] else [])
      ∧ InOrder (if set then postCopy frame memory post else []) := by
  cases set with
  | false => exact ⟨rfl, rfl⟩
  | true => simpa using postCopy_spec h hpost

theorem calls_spec (s : CameraHal) {e : CameraEvent} (he : e.Sound) :
    ∃ calls, s.calls e = some calls ∧ calls.filterMap CameraCall.delivery = s.deliveries e
      ∧ InOrder calls := by
  cases e with
  | setPreviewWindow device window => exact ⟨[], rfl, rfl, rfl⟩
  | setCallbacks notifyCb dataCb dataCbTimestamp getMemory => exact ⟨[], rfl, rfl, rfl⟩
  | notify msgType ext1 ext2 =>
      unfold CameraHal.calls CameraHal.deliveries CameraHal.camNotifyCallback
      cases s.origNotifyCb with
      | false => exact ⟨[], rfl, rfl, rfl⟩
      | true => exact ⟨_, rfl, rfl, rfl⟩
  | data msgType frame answers memory =>
      obtain ⟨hdelivery, horder⟩ := client_spec he.1 (s.origDataCb && s.origCamReqMemory)
        (fun clientData data => [.dataCb msgType clientData data]) (.posted msgType frame.data)
        fun dest => ⟨rfl, by simp [Held.step]⟩
      rw [CameraHal.calls, CameraHal.camDataCallback, CameraHal.deliveries, ← hdelivery]
      by_cases hpreview : msgType = cameraMsgPreviewFrame
      · subst hpreview
        obtain ⟨calls, hcalls, hshown, hcallsOrder⟩ := internalHandlePreview_spec s he
        refine ⟨_, by rw [if_pos rfl, hcalls]; rfl, ?_, hcallsOrder.append horder⟩
        rw [List.filterMap_append, hshown]
      · have hnone : s.shows msgType frame answers = [] := by
          unfold CameraHal.shows
          cases s.mWindow with
          | none => rfl
          | some window => exact if_neg fun h => hpreview h.1
        rw [if_neg hpreview, hnone]
        exact ⟨_, rfl, rfl, horder⟩
  | dataTimestamp timestamp msgType frame memory =>
      obtain ⟨hdelivery, horder⟩ := client_spec he (s.origDataTsCb && s.origCamReqMemory)
        (fun clientData data =>
          [.dataCbTimestamp timestamp msgType clientData data, .releaseRecordingFrame])
        (.recorded timestamp msgType frame.data) fun dest => ⟨rfl, by simp [Held.step]⟩
      exact ⟨_, rfl, hdelivery, horder⟩

/-- **Frames.** In a run of notifications, frames, windows and callbacks in any order, whatever
the windows and the client's allocator answer, the code reads only the frames, the windows and
the client get what they are there for, and their buffers and memory are used in order and all
given back. -/
theorem frames_delivered (es : List CameraEvent) (h : ∀ e ∈ es, e.Sound) :
    ∃ calls, cameraRun .boot es = some calls
      ∧ calls.filterMap CameraCall.delivery = cameraDeliveries .boot es
      ∧ InOrder calls := by
  generalize CameraHal.boot = s
  induction es generalizing s with
  | nil => exact ⟨[], rfl, rfl, rfl⟩
  | cons e es ih =>
      obtain ⟨he, hes⟩ := List.forall_mem_cons.mp h
      obtain ⟨calls, hcalls, hdelivery, horder⟩ := calls_spec s he
      obtain ⟨more, hmore, hmoreDelivery, hmoreOrder⟩ := ih hes (s.next e)
      refine ⟨calls ++ more, ?_, ?_, horder.append hmoreOrder⟩
      · rw [cameraRun, hcalls, Option.bind_eq_bind, Option.bind_some, hmore]
        rfl
      · rw [List.filterMap_append, hdelivery, hmoreDelivery, cameraDeliveries]

/-- A frame of two by two pixels in the memory of the camera. -/
def storedFrame : CameraFrame := ⟨Mem.write (fun _ => 0) 100 smallFrame, 100, 6⟩

/-- A window that gives a buffer for it. -/
def givenBuffer : PreviewAnswers := ⟨2, 2, true, 0, 0, 0, 3, some fun _ => 0⟩

/-- A preview frame, one that the window has no buffer for, and a recorded one. -/
def threeFrames : List CameraEvent :=
  [.setCallbacks true true true true, .setPreviewWindow true (some 1),
    .data cameraMsgPreviewFrame storedFrame givenBuffer (some 0),
    .data cameraMsgPreviewFrame storedFrame { givenBuffer with dequeueBuffer := -16 } none,
    .dataTimestamp 40 0x20 storedFrame (some 200)]

theorem three_frames_delivered :
    (∀ e ∈ threeFrames, e.Sound)
      ∧ ∃ calls, cameraRun .boot threeFrames = some calls
        ∧ calls.filterMap CameraCall.delivery = cameraDeliveries .boot threeFrames
        ∧ InOrder calls := by
  have hdata : storedFrame.data = smallFrame := Mem.slice_write _ 100 smallFrame
  have hf : PreviewFrame smallFrame 2 2 := by
    constructor <;> decide
  have hsound : ∀ e ∈ threeFrames, e.Sound := by
    intro e he
    simp only [threeFrames, List.mem_cons, List.not_mem_nil, or_false] at he
    rcases he with rfl | rfl | rfl | rfl | rfl
    · trivial
    · trivial
    · refine ⟨by simp [Apart, storedFrame], fun _ => ⟨?_, by decide, by decide, rfl⟩⟩
      rw [hdata]
      exact hf
    · refine ⟨by simp, fun _ => ⟨?_, by decide, by decide, rfl⟩⟩
      rw [hdata]
      exact hf
    · intro dest hdest
      obtain rfl := Option.some.inj hdest
      decide
  exact ⟨hsound, frames_delivered threeFrames hsound⟩

/-! ## The recording frames -/

/-- What the event is for the pool of recording buffers. -/
def CameraEvent.record : CameraEvent → Option RecordEvent
  | .setCallbacks _ _ dataCbTimestamp getMemory => some (.setCallbacks dataCbTimestamp getMemory)
  | .dataTimestamp timestamp msgType frame memory =>
      some (.frame timestamp msgType frame.data memory.isSome)
  | _ => none

/-- What the client records. -/
def CameraCall.recorded : CameraCall → Option (Int × Int × List Byte)
  | .dataCbTimestamp timestamp msgType _ data => some (timestamp, msgType, data)
  | _ => none

def CameraCall.releases : CameraCall → Bool
  | releaseRecordingFrame => true
  | _ => false

/-- The recording callbacks that are set. -/
structure CameraHal.Records (s : CameraHal) (r : RecordHal) : Prop where
  origDataTsCb : s.origDataTsCb = r.origDataTsCb
  origCamReqMemory : s.origCamReqMemory = r.origCamReqMemory

/-- Preview has no part in it. -/
theorem internalHandlePreview_records {frame : CameraFrame} {mWindow : Option Nat}
    {getMemory : Bool} {answers : PreviewAnswers} {calls : List CameraCall}
    (h : internalHandlePreview frame mWindow getMemory answers = some calls) :
    calls.filterMap CameraCall.recorded = [] ∧ calls.countP CameraCall.releases = 0 := by
  unfold internalHandlePreview at h
  split at h
  · split_ifs at h
    · cases hbits : answers.bits with
      | none => simp [hbits] at h
      | some bits =>
          cases hdecode : internalDecodeSw answers.previewEnabled bits frame.data
              answers.previewWidth answers.previewHeight with
          | none => simp [hbits, hdecode] at h
          | some drawn =>
              simp only [hbits, hdecode, Option.bind_eq_bind, Option.bind_some] at h
              obtain rfl := Option.some.inj h
              exact ⟨rfl, rfl⟩
    all_goals
      obtain rfl := Option.some.inj h
      exact ⟨rfl, rfl⟩
  · obtain rfl := Option.some.inj h
    exact ⟨rfl, rfl⟩

/-- One event, with its calls. -/
theorem calls_records {s : CameraHal} {r : RecordHal} (hset : s.Records r) {e : CameraEvent}
    (he : e.Sound) {calls : List CameraCall} (hcalls : s.calls e = some calls) :
    (s.next e).Records (runFrom recordNext r e.record.toList)
      ∧ (runFrom recordNext r e.record.toList).posted
        = r.posted ++ calls.filterMap CameraCall.recorded
      ∧ (runFrom recordNext r e.record.toList).released.length
        = r.released.length + calls.countP CameraCall.releases := by
  cases e with
  | setPreviewWindow device window =>
      obtain rfl := Option.some.inj hcalls
      refine ⟨?_, by simp [CameraEvent.record], by simp [CameraEvent.record]⟩
      rw [CameraHal.next]
      split_ifs
      · exact ⟨hset.origDataTsCb, hset.origCamReqMemory⟩
      · exact hset
  | setCallbacks notifyCb dataCb dataCbTimestamp getMemory =>
      obtain rfl := Option.some.inj hcalls
      exact ⟨⟨rfl, rfl⟩, by simp [CameraEvent.record, recordNext],
        by simp [CameraEvent.record, recordNext]⟩
  | notify msgType ext1 ext2 =>
      obtain rfl := Option.some.inj hcalls
      refine ⟨hset, ?_, ?_⟩ <;> unfold CameraHal.camNotifyCallback <;> split_ifs <;>
        simp [CameraEvent.record, CameraCall.recorded, CameraCall.releases]
  | data msgType frame answers memory =>
      obtain ⟨preview, hpreview, rfl⟩ : ∃ preview, (preview.filterMap CameraCall.recorded = []
          ∧ preview.countP CameraCall.releases = 0) ∧ calls = preview ++
            if s.origDataCb && s.origCamReqMemory then
              postCopy frame memory fun clientData data => [.dataCb msgType clientData data]
            else [] := by
        rw [CameraHal.calls, CameraHal.camDataCallback] at hcalls
        by_cases hframe : msgType = cameraMsgPreviewFrame
        · rw [if_pos hframe] at hcalls
          obtain ⟨preview, hpreview, hrest⟩ := Option.bind_eq_some_iff.mp hcalls
          exact ⟨preview, internalHandlePreview_records hpreview, (Option.some.inj hrest).symm⟩
        · rw [if_neg hframe] at hcalls
          exact ⟨[], ⟨rfl, rfl⟩, (Option.some.inj hcalls).symm⟩
      rw [List.filterMap_append, List.countP_append, hpreview.1, hpreview.2]
      refine ⟨hset, ?_⟩
      split_ifs
      · cases memory <;> exact ⟨(List.append_nil _).symm, rfl⟩
      · exact ⟨(List.append_nil _).symm, rfl⟩
  | dataTimestamp timestamp msgType frame memory =>
      obtain rfl := Option.some.inj hcalls
      have hstep : runFrom recordNext r
          (CameraEvent.dataTimestamp timestamp msgType frame memory).record.toList
          = camDataCallbackTimestamp r timestamp msgType frame.data memory.isSome := rfl
      rw [hstep]
      simp only [CameraHal.camDataTsCallback, camDataCallbackTimestamp,
        internalGenerateClientData, hset.origDataTsCb, hset.origCamReqMemory, postCopy,
        generateClientData_eq he, Bool.and_eq_true]
      split_ifs with hboth hmemory
      · obtain ⟨dest, rfl⟩ := Option.isSome_iff_exists.mp hmemory
        exact ⟨⟨hset.origDataTsCb, hset.origCamReqMemory⟩, rfl, List.length_append⟩
      · rw [Bool.not_eq_true, Option.isSome_eq_false_iff, Option.isNone_iff_eq_none] at hmemory
        subst hmemory
        exact ⟨⟨hset.origDataTsCb, hset.origCamReqMemory⟩, (List.append_nil _).symm, rfl⟩
      · exact ⟨⟨hset.origDataTsCb, hset.origCamReqMemory⟩, (List.append_nil _).symm, rfl⟩

/-- The recordings of a run are those of `CameraRecord`: the client is given the same data,
and as many frames are given back. -/
theorem cameraRun_records {s : CameraHal} {r : RecordHal} (hset : s.Records r)
    {es : List CameraEvent} (h : ∀ e ∈ es, e.Sound) {calls : List CameraCall}
    (hcalls : cameraRun s es = some calls) :
    (runFrom recordNext r (es.filterMap CameraEvent.record)).posted
        = r.posted ++ calls.filterMap CameraCall.recorded
      ∧ (runFrom recordNext r (es.filterMap CameraEvent.record)).released.length
        = r.released.length + calls.countP CameraCall.releases := by
  induction es generalizing s r calls with
  | nil =>
      obtain rfl := Option.some.inj hcalls
      simp
  | cons e es ih =>
      obtain ⟨he, hes⟩ := List.forall_mem_cons.mp h
      rw [cameraRun] at hcalls
      obtain ⟨now, hnow, hrest⟩ := Option.bind_eq_some_iff.mp hcalls
      obtain ⟨more, hmore, heq⟩ := Option.bind_eq_some_iff.mp hrest
      obtain rfl := Option.some.inj heq
      obtain ⟨hset', hposted, hreleased⟩ := calls_records hset he hnow
      obtain ⟨hposted', hreleased'⟩ := ih hset' hes hmore
      have hsplit : (e :: es).filterMap CameraEvent.record
          = e.record.toList ++ es.filterMap CameraEvent.record := by
        cases hrecord : e.record <;> simp [hrecord]
      rw [hsplit, runFrom_append]
      refine ⟨?_, ?_⟩
      · rw [hposted', hposted, List.filterMap_append, List.append_assoc]
      · rw [hreleased', hreleased, List.countP_append, Nat.add_assoc]

end HtcLeo
