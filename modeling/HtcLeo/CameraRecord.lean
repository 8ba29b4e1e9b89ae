import HtcLeo.Mem
import HtcLeo.Runs

/-!
# Recording frames (`camera/QcomCamera.cpp`)

The camera has a fixed pool of recording buffers. A frame it delivers to
`cam_data_callback_timestamp` is out of the pool until it is released, and
the only place that releases one is that callback itself, after it has made
a copy for the client: `release_recording_frame`, which the client calls
when it is done, does nothing on purpose. So a frame that the callback
does not copy is lost to the pool (`frames_released_iff`).
-/

namespace HtcLeo

/-- The callbacks, as far as they are set, and what happened so far. Frames are numbered
in the order in which they were delivered. -/
structure RecordHal where
  origDataTsCb : Bool
  origCamReqMemory : Bool
  delivered : Nat
  /-- The frames given to `qCamera->releaseRecordingFrame`. -/
  released : List Nat
  /-- What the client was given: timestamp, message type and data. -/
  posted : List (Int × Int × List Byte)

inductive RecordEvent where
  /-- `set_callbacks`, with whether the two arguments that matter here are set. -/
  | setCallbacks (dataCbTimestamp getMemory : Bool)
  /-- A frame, and whether the client's allocator has memory for it. -/
  | frame (timestamp msgType : Int) (data : List Byte) (allocated : Bool)
  /-- `release_recording_frame` -/
  | releaseRecordingFrame (dataPtr : Nat)

def RecordHal.boot : RecordHal := ⟨false, false, 0, [], []⟩

/-- The copy of a frame in the client's memory. -/
def internalGenerateClientData (data : List Byte) (allocated : Bool) : Option (List Byte) :=
  if allocated then some data else none

def camDataCallbackTimestamp (s : RecordHal) (timestamp msgType : Int) (data : List Byte)
    (allocated : Bool) : RecordHal :=
  let dataPtr := s.delivered
  let s := { s with delivered := s.delivered + 1 }
  if s.origDataTsCb = true ∧ s.origCamReqMemory = true then
    match internalGenerateClientData data allocated with
    | some clientData =>
        { s with
          posted := s.posted ++ [(timestamp, msgType, clientData)]
          released := s.released ++ [dataPtr] }
    | none => s
  else s

def recordNext (s : RecordHal) : RecordEvent → RecordHal
  | .setCallbacks dataCbTimestamp getMemory =>
      { s with origDataTsCb := dataCbTimestamp, origCamReqMemory := getMemory }
  | .frame timestamp msgType data allocated =>
      camDataCallbackTimestamp s timestamp msgType data allocated
  | .releaseRecordingFrame _ => s

/-! ## Every frame is given back -/

/-- Each frame delivered was released exactly once, and nothing else was. -/
def RecordHal.AllReleased (s : RecordHal) : Prop :=
  ∀ n, s.released.count n = if n < s.delivered then 1 else 0

/-- A frame meets both callbacks set and memory for its copy. -/
def RecordEvent.Copied (s : RecordHal) : RecordEvent → Prop
  | .frame _ _ _ allocated =>
      s.origDataTsCb = true ∧ s.origCamReqMemory = true ∧ allocated = true
  | _ => True

/-- What the callback does with a frame. -/
theorem camDataCallbackTimestamp_cases (s : RecordHal) (timestamp msgType : Int)
    (data : List Byte) (allocated : Bool) :
    let s' := camDataCallbackTimestamp s timestamp msgType data allocated
    s'.delivered = s.delivered + 1
      ∧ ((RecordEvent.frame timestamp msgType data allocated).Copied s
          ∧ s'.released = s.released ++ [s.delivered]
        ∨ ¬(RecordEvent.frame timestamp msgType data allocated).Copied s
          ∧ s'.released = s.released) := by
  simp only [camDataCallbackTimestamp, internalGenerateClientData, RecordEvent.Copied]
  by_cases hset : s.origDataTsCb = true ∧ s.origCamReqMemory = true
  · cases allocated with
    | true => exact ⟨by simp [hset], .inl ⟨⟨hset.1, hset.2, rfl⟩, by simp [hset]⟩⟩
    | false => exact ⟨by simp [hset], .inr ⟨by simp, by simp [hset]⟩⟩
  · rw [if_neg hset]
    exact ⟨rfl, .inr ⟨fun hcopied => hset ⟨hcopied.1, hcopied.2.1⟩, rfl⟩⟩

theorem recordNext_released {s : RecordHal} {e : RecordEvent} (h : s.AllReleased)
    (he : e.Copied s) : (recordNext s e).AllReleased := by
  cases e with
  | setCallbacks dataCbTimestamp getMemory => exact h
  | releaseRecordingFrame dataPtr => exact h
  | frame timestamp msgType data allocated =>
      obtain ⟨hdelivered, ⟨-, hreleased⟩ | ⟨hnot, -⟩⟩ :=
        camDataCallbackTimestamp_cases s timestamp msgType data allocated
      · intro n
        rw [recordNext, hdelivered, hreleased, List.count_append, h n, List.count_singleton]
        by_cases hn : s.delivered = n
        · simp [hn]
        · have hlt : n < s.delivered + 1 ↔ n < s.delivered := by omega
          simp [hlt, hn]
      · exact absurd he hnot

/-- A frame that is not copied stays out of the pool. -/
theorem copied_of_released {s : RecordHal} {e : RecordEvent} (h : s.AllReleased)
    (h' : (recordNext s e).AllReleased) : e.Copied s := by
  cases e with
  | setCallbacks dataCbTimestamp getMemory => trivial
  | releaseRecordingFrame dataPtr => trivial
  | frame timestamp msgType data allocated =>
      obtain ⟨hdelivered, ⟨hcopied, -⟩ | ⟨-, hreleased⟩⟩ :=
        camDataCallbackTimestamp_cases s timestamp msgType data allocated
      · exact hcopied
      · have hlost := h' s.delivered
        rw [recordNext, hdelivered, hreleased, h s.delivered, if_neg (lt_irrefl _),
          if_pos (Nat.lt_succ_self _)] at hlost
        cases hlost

/-- **Recording frames.** In a run of `set_callbacks`, frames and client releases in any
order, every frame delivered has been released exactly once in every state, if and only if
each frame comes when both callbacks are set and the client has memory for it. -/
theorem frames_released_iff (es : List RecordEvent) :
    (∀ before after, es = before ++ after → (runFrom recordNext .boot before).AllReleased) ↔
      AllSteps recordNext (fun s e => e.Copied s) .boot es := by
  constructor
  · intro h
    rw [allSteps_iff_split]
    intro before e after hsplit
    refine copied_of_released (h before (e :: after) hsplit) ?_
    have hnext := h (before ++ [e]) after (by rw [hsplit, List.append_assoc]; rfl)
    rwa [runFrom_append, runFrom_cons, runFrom_nil] at hnext
  · rintro h before after rfl
    refine AllSteps.run_inv (I := RecordHal.AllReleased)
      (fun _ _ hs he => recordNext_released hs he) ?_ (AllSteps.append.mp h).1
    intro n
    rfl

/-- The callbacks are set and the client's allocator has no memory for the first frame. -/
def failedAllocation : List RecordEvent :=
  [.setCallbacks true true, .frame 1000 32 [0x10, 0x80, 0x80] false, .releaseRecordingFrame 0]

/-- The frame is never released. -/
theorem failed_allocation_leaks :
    (runFrom recordNext .boot failedAllocation).delivered = 1
      ∧ (runFrom recordNext .boot failedAllocation).released = []
      ∧ ¬∀ before after, failedAllocation = before ++ after →
        (runFrom recordNext .boot before).AllReleased := by
  refine ⟨rfl, rfl, fun h => ?_⟩
  have hlost := h failedAllocation [] (List.append_nil _).symm 0
  exact absurd hlost (by decide)

end HtcLeo
