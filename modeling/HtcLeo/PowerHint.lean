import Mathlib.Data.List.DropRight
import HtcLeo.PowerMetadata

/-!
# Power hints (`power/power.c`)

A video hint ends in votes that are cast in an optional library: one that
turns off `io_is_busy` of the `ondemand` governor and one that lowers its
sampling down factor. The library and its two functions are looked up as
they are needed. The handle is kept once the library is open, and a
library or a function that is not there is not looked for again.

A hint comes here with everything that the system says during it, so that
the governor can change between hints. `power_votes` gives the votes of a
whole run by the hints that ask for one.
-/

namespace HtcLeo

/-! ## The code -/

inductive PowerHintKind where
  | vsync
  | interaction
  | videoEncode
  | other
deriving DecidableEq, Repr

/-- The two functions of the library. -/
inductive PowerVote where
  | turnoffOndemandIoBusy
  | lowerOndemandSdf
deriving DecidableEq, Repr

/-- A call of `power_hint`, with what the system answers during it. -/
structure HintCall where
  /-- What `power_hint_override` returns. -/
  override : Int
  hint : PowerHintKind
  data : Option CText
  /-- The governor in sysfs, if it can be read. -/
  scalingGovernor : Option (List Byte)
  /-- `ro.vendor.extension_library`; empty when it does not exist. -/
  extensionLibrary : List Byte
  dlopen : List Byte → Option Nat
  dlsym : Nat → PowerVote → Bool
  /-- What the arrays hold before. -/
  governor : Mem
  attr : Mem
  value : Mem

/-- The statics, and the calls of the library. -/
structure PowerHal where
  qcoptHandle : Option Nat
  qcoptHandleUnavailable : Bool
  /-- `perf_vote_ondemand_io_busy_unavailable` and `perf_vote_ondemand_sdf_unavailable`. -/
  unavailable : PowerVote → Bool
  votes : List (PowerVote × Int)

namespace PowerHal

def init : PowerHal := ⟨none, false, fun _ => false, []⟩

def getQcoptHandle (c : HintCall) (s : PowerHal) : Option Nat × PowerHal :=
  if s.qcoptHandleUnavailable then (none, s)
  else
    match s.qcoptHandle with
    | some handle => (some handle, s)
    | none =>
        if c.extensionLibrary.length ≠ 0 then
          match c.dlopen c.extensionLibrary with
          | some handle => (some handle, { s with qcoptHandle := some handle })
          | none => (none, { s with qcoptHandleUnavailable := true })
        else (none, { s with qcoptHandleUnavailable := true })

/-- `sysfs_read`: what it returns, and the array. -/
def sysfsRead (file : Option (List Byte)) (s : Mem) (numBytes : Nat) : Int × Mem :=
  match file with
  | none => (-1, s)
  | some bytes =>
      let got := bytes.take (numBytes - 1)
      (0, Function.update (s.write 0 got) got.length 0)

def isNewline (b : Byte) : Bool := b = ch '\n' || b = ch '\r'

/-- The loop that strips the newlines before `len`. -/
def stripNewlines (governor : Mem) : (len : Nat) → Mem
  | 0 => governor
  | len + 1 =>
      if isNewline (governor len) then stripNewlines (Function.update governor len 0) len
      else governor

def getScalingGovernor (c : HintCall) (size : Nat) : Int × Mem :=
  let r := sysfsRead c.scalingGovernor c.governor size
  if r.1 = -1 then (-1, r.2) else (0, stripNewlines r.2 (bufferText size r.2).length)

/-- One of the functions is looked up and called. -/
def castVote (c : HintCall) (handle : Nat) (vote : Int) (s : PowerHal) (v : PowerVote) : PowerHal :=
  if s.unavailable v then s
  else if c.dlsym handle v then { s with votes := s.votes ++ [(v, vote)] }
  else { s with unavailable := Function.update s.unavailable v true }

def ondemandName : List Byte := "ondemand".toList.map ch

/-- `strlen` and `strncmp`. -/
def isOndemand (governor : Mem) : Bool :=
  (bufferText 80 governor).length = ondemandName.length
    && (bufferText 80 governor).take ondemandName.length = ondemandName

/-- What is done with the state that the metadata gave. -/
def voteForState (c : HintCall) (governor : Mem) (state : Int) (s : PowerHal) : PowerHal :=
  match s.getQcoptHandle c with
  | (none, s) => s
  | (some handle, s) =>
      if state = 1 then
        if isOndemand governor then
          (s.castVote c handle 1 .turnoffOndemandIoBusy).castVote c handle 1 .lowerOndemandSdf
        else s
      else if state = 0 then
        if isOndemand governor then
          (s.castVote c handle 0 .turnoffOndemandIoBusy).castVote c handle 0 .lowerOndemandSdf
        else s
      else s

/-- `process_video_encode_hint` leaves `s'`. -/
def ProcessVideoEncodeHint (c : HintCall) (s s' : PowerHal) : Prop :=
  let governor := getScalingGovernor c 80
  if governor.1 = -1 then s' = s
  else
    match c.data with
    | none => s' = s
    | some metadata =>
        ∃ ret p, MetadataParser.ParseVideoMetadata (.init metadata c.attr c.value (-1)) ret p ∧
          s' = if ret = -1 then s else s.voteForState c governor.2 p.state

/-- `power_hint` leaves `s'`. -/
def PowerHint (s : PowerHal) (c : HintCall) (s' : PowerHal) : Prop :=
  if c.override = 0 then s' = s
  else
    match c.hint with
    | .videoEncode => ProcessVideoEncodeHint c s s'
    | _ => s' = s

/-- A run over the hints ends in the last state. -/
def PowerRun : PowerHal → List HintCall → PowerHal → Prop
  | s, [], s' => s' = s
  | s, c :: cs, s' => ∃ t, PowerHint s c t ∧ PowerRun t cs s'

/-- The votes that one of the functions got. -/
def votesFor (s : PowerHal) (v : PowerVote) : List Int :=
  (s.votes.filter (·.1 = v)).map Prod.snd

end PowerHal

/-! ## What a hint asks for -/

/-- The hint gets as far as its metadata. -/
def HintCall.Reaches (c : HintCall) : Prop :=
  c.override ≠ 0 ∧ c.hint = .videoEncode ∧ c.scalingGovernor.isSome ∧ c.data.isSome

instance (c : HintCall) : Decidable c.Reaches := inferInstanceAs (Decidable (_ ∧ _ ∧ _ ∧ _))

/-- The state that the metadata sets, and -1 without one. -/
def HintCall.state (c : HintCall) : Int :=
  lastState (-1) (segments (ch ';') ((c.data.map CText.chars).getD []))

/-- The name of the governor, without the newlines behind it. -/
def HintCall.governorName (c : HintCall) : List Byte :=
  (cstr ((c.scalingGovernor.getD []).take 79)).rdropWhile PowerHal.isNewline

/-- The hint asks for votes. -/
def HintCall.Asks (c : HintCall) : Prop :=
  c.Reaches ∧ c.governorName = PowerHal.ondemandName ∧ (c.state = 0 ∨ c.state = 1)

instance (c : HintCall) : Decidable c.Asks := inferInstanceAs (Decidable (_ ∧ _ ∧ _))

/-- The library, as the hint finds it. -/
def HintCall.library (c : HintCall) : Option Nat :=
  if c.extensionLibrary = [] then none else c.dlopen c.extensionLibrary

/-- The votes for a function of an open library: those of the hints that ask, up to the first
that does not find it. -/
def votesOf (handle : Nat) (v : PowerVote) (calls : List HintCall) : List Int :=
  ((calls.filter (·.Asks)).takeWhile (·.dlsym handle v)).map HintCall.state

/-- The votes of a run: the first hint that gets as far as its metadata decides whether there
is a library. -/
def expectedVotes (v : PowerVote) (calls : List HintCall) : List Int :=
  match (calls.find? (·.Reaches)).bind HintCall.library with
  | some handle => votesOf handle v calls
  | none => []

/-! ## Strings in an array -/

/-- The string in an array that has a NUL. -/
theorem bufferText_nul {size : Nat} {m : Mem} (h : (bufferText size m).length < size) :
    m.slice 0 (bufferText size m).length = bufferText size m
      ∧ m (bufferText size m).length = 0 := by
  have hsplit : bufferText size m ++ (m.slice 0 size).dropWhile (· ≠ 0) = m.slice 0 size :=
    List.takeWhile_append_dropWhile
  generalize hn : (bufferText size m).length = n at h ⊢
  obtain ⟨d, rfl⟩ := Nat.exists_eq_add_of_lt h
  have hslice : m.slice 0 (n + d + 1) = m.slice 0 n ++ m.slice n (d + 1) := by
    rw [Nat.add_assoc, Mem.slice_add, zero_add]
  rw [hslice] at hsplit
  obtain ⟨hfront, hback⟩ := List.append_inj hsplit (by rw [hn, Mem.length_slice])
  refine ⟨hfront.symm, ?_⟩
  have hhead := List.head?_dropWhile_not (fun b : Byte => b ≠ 0) (m.slice 0 (n + d + 1))
  rw [hslice, hback, Mem.slice] at hhead
  simpa using hhead

theorem cstr_slice_of_nul {m : Mem} {n size : Nat} (hn : n < size) (hnul : (0 : Byte) ∉ m.slice 0 n)
    (hend : m n = 0) : cstr (m.slice 0 size) = m.slice 0 n := by
  obtain ⟨d, rfl⟩ := Nat.exists_eq_add_of_lt hn
  rw [Nat.add_assoc, Mem.slice_add, zero_add, Mem.slice, hend, cstr_append_zero,
    cstr_eq_self hnul]

namespace PowerHal

/-- The loop leaves the string without its last newlines. -/
theorem bufferText_stripNewlines {size len : Nat} {m : Mem} (hlen : len < size)
    (hnul : (0 : Byte) ∉ m.slice 0 len) (hend : m len = 0) :
    bufferText size (stripNewlines m len) = (m.slice 0 len).rdropWhile isNewline := by
  induction len generalizing m with
  | zero => exact cstr_slice_of_nul hlen hnul hend
  | succ len ih =>
      rw [Mem.slice_succ_right, zero_add] at hnul
      rw [stripNewlines, Mem.slice_succ_right, zero_add]
      by_cases hnew : isNewline (m len) = true
      · have hsame : Mem.slice (Function.update m len 0) 0 len = m.slice 0 len :=
          Mem.slice_congr fun j _ hj => Function.update_of_ne (by omega) ..
        rw [if_pos hnew, List.rdropWhile_concat_pos _ _ _ hnew, ← hsame]
        refine ih (by omega) ?_ (Function.update_self ..)
        rw [hsame]
        exact fun h => hnul (List.mem_append_left _ h)
      · rw [if_neg hnew, List.rdropWhile_concat_neg _ _ _ hnew]
        have hwhole := cstr_slice_of_nul hlen
          (by rw [Mem.slice_succ_right, zero_add]; exact hnul) hend
        rw [Mem.slice_succ_right, zero_add] at hwhole
        exact hwhole

theorem bufferText_sysfsRead (bytes : List Byte) (m : Mem) :
    bufferText 80 (sysfsRead (some bytes) m 80).2 = cstr (bytes.take 79) := by
  have hlen : (bytes.take 79).length < 80 := by
    rw [List.length_take]
    omega
  change cstr
    (Mem.slice (Function.update (m.write 0 (bytes.take 79)) (bytes.take 79).length 0) 0 80)
    = _
  generalize bytes.take 79 = got at hlen ⊢
  obtain ⟨d, hd⟩ := Nat.exists_eq_add_of_lt hlen
  have hfront : Mem.slice (Function.update (m.write 0 got) got.length 0) 0 got.length = got := by
    conv_rhs => rw [← Mem.slice_write m 0 got]
    exact Mem.slice_congr fun j _ hj => Function.update_of_ne (by omega) ..
  rw [hd, Nat.add_assoc, Mem.slice_add, hfront, zero_add, Mem.slice, Function.update_self,
    cstr_append_zero]

/-- The name that `process_video_encode_hint` compares. -/
theorem bufferText_getScalingGovernor {c : HintCall} (h : c.scalingGovernor.isSome) :
    (getScalingGovernor c 80).1 = 0
      ∧ bufferText 80 (getScalingGovernor c 80).2 = c.governorName := by
  obtain ⟨bytes, hbytes⟩ := Option.isSome_iff_exists.mp h
  have hread := bufferText_sysfsRead bytes c.governor
  have hret : (sysfsRead (some bytes) c.governor 80).1 = 0 := rfl
  rw [getScalingGovernor, HtcLeo.HintCall.governorName, hbytes, Option.getD_some]
  generalize sysfsRead (some bytes) c.governor 80 = r at hread hret ⊢
  simp only [hret]
  have hlen : (bufferText 80 r.2).length < 80 := by
    rw [hread]
    refine Nat.lt_of_le_of_lt (length_cstr_le _) ?_
    rw [List.length_take]
    omega
  obtain ⟨hslice, hend⟩ := bufferText_nul hlen
  refine ⟨rfl, ?_⟩
  change bufferText 80 (stripNewlines r.2 _) = _
  rw [bufferText_stripNewlines hlen ?_ hend, hslice, hread]
  rw [hslice, bufferText, cstr]
  intro hzero
  simpa using List.mem_takeWhile_imp hzero

theorem isOndemand_iff (m : Mem) : isOndemand m = true ↔ bufferText 80 m = ondemandName := by
  rw [isOndemand, Bool.and_eq_true, decide_eq_true_eq, decide_eq_true_eq]
  constructor
  · rintro ⟨hlen, htake⟩
    rwa [← hlen, List.take_length] at htake
  · intro h
    rw [h]
    exact ⟨rfl, List.take_length⟩

/-! ## One hint -/

theorem parse_ends (metadata : CText) (attr value : Mem) :
    ∃ ret p, MetadataParser.ParseVideoMetadata (.init metadata attr value (-1)) ret p := by
  obtain ⟨p, hp⟩ := exists_loopsTo MetadataParser.left
    (fun p p' hp h => MetadataParser.Within.round metadata.noNul metadata.size hp h)
    (MetadataParser.Within.init metadata attr value (-1))
  exact ⟨_, _, p, hp, rfl, rfl⟩

theorem parse_state {metadata : CText} {attr value : Mem} {ret : Int} {p : MetadataParser}
    (h : MetadataParser.ParseVideoMetadata (.init metadata attr value (-1)) ret p) :
    ret ≠ -1 ∧ p.state = lastState (-1) (segments (ch ';') metadata.chars) := by
  obtain ⟨q, hq, rfl, rfl⟩ := h
  have hin := hq.inv
    (fun p p' hp h => (MetadataParser.Within.round metadata.noNul metadata.size hp h).1)
    (MetadataParser.Within.init metadata attr value (-1))
  obtain ⟨hdone, hsegs⟩ := MetadataParser.videoRound_none hq.ends
  have hstate := hin.state
  rw [hsegs] at hstate
  rw [hdone]
  exact ⟨by simp, hstate⟩

/-- What a hint does. -/
def hinted (s : PowerHal) (c : HintCall) : PowerHal :=
  if c.Reaches then s.voteForState c (getScalingGovernor c 80).2 c.state else s

/-- Every hint ends, in the state that its metadata gives. -/
theorem powerHint_iff (s : PowerHal) (c : HintCall) (s' : PowerHal) :
    PowerHint s c s' ↔ s' = s.hinted c := by
  by_cases hreach : c.Reaches
  · obtain ⟨hoverride, hhint, hgovernor, hdata⟩ := id hreach
    obtain ⟨metadata, hmetadata⟩ := Option.isSome_iff_exists.mp hdata
    have hret := (bufferText_getScalingGovernor hgovernor).1
    have hstate : c.state = lastState (-1) (segments (ch ';') metadata.chars) := by
      rw [HintCall.state, hmetadata]
      rfl
    rw [PowerHint, if_neg hoverride, hhint, hinted, if_pos hreach]
    simp only [ProcessVideoEncodeHint, hret, hmetadata, hstate]
    rw [if_neg (by decide)]
    constructor
    · rintro ⟨ret, p, hparse, rfl⟩
      rw [if_neg (parse_state hparse).1, (parse_state hparse).2]
    · rintro rfl
      obtain ⟨ret, p, hparse⟩ := parse_ends metadata c.attr c.value
      refine ⟨ret, p, hparse, ?_⟩
      rw [if_neg (parse_state hparse).1, (parse_state hparse).2]
  · rw [hinted, if_neg hreach, PowerHint]
    by_cases hoverride : c.override = 0
    · rw [if_pos hoverride]
    · rw [if_neg hoverride]
      cases hhint : c.hint with
      | vsync => rfl
      | interaction => rfl
      | other => rfl
      | videoEncode =>
          simp only [ProcessVideoEncodeHint]
          by_cases hgovernor : c.scalingGovernor.isSome
          · have hdata : c.data = none := by
              rw [← Option.not_isSome_iff_eq_none]
              exact fun hdata => hreach ⟨hoverride, hhint, hgovernor, hdata⟩
            rw [(bufferText_getScalingGovernor hgovernor).1, if_neg (by decide), hdata]
          · rw [Option.not_isSome_iff_eq_none] at hgovernor
            rw [getScalingGovernor, hgovernor]
            rfl

/-! ## The votes of a run -/

/-- What the hints to come will add to the votes. -/
def owed (s : PowerHal) (v : PowerVote) (calls : List HintCall) : List Int :=
  if s.qcoptHandleUnavailable ∨ s.unavailable v then []
  else
    match s.qcoptHandle with
    | some handle => votesOf handle v calls
    | none => expectedVotes v calls

theorem votesFor_castVote (c : HintCall) (handle : Nat) (vote : Int) (s : PowerHal)
    (v v' : PowerVote) :
    votesFor (s.castVote c handle vote v') v
      = votesFor s v
        ++ if v' = v ∧ s.unavailable v = false ∧ c.dlsym handle v = true then [vote] else [] := by
  unfold castVote
  by_cases hv : v' = v
  · subst hv
    cases hgone : s.unavailable v' with
    | true => simp
    | false =>
        cases hsym : c.dlsym handle v' with
        | true => simp [votesFor]
        | false => simp [votesFor]
  · split_ifs <;> simp_all [votesFor]

theorem unavailable_castVote (c : HintCall) (handle : Nat) (vote : Int) (s : PowerHal)
    (v v' : PowerVote) :
    (s.castVote c handle vote v').unavailable v
      = (s.unavailable v || (v' = v && !c.dlsym handle v)) := by
  unfold castVote
  by_cases hv : v' = v
  · subst hv
    cases hgone : s.unavailable v' with
    | true => simp [hgone]
    | false =>
        cases hsym : c.dlsym handle v' with
        | true => simp [hgone]
        | false => simp
  · have hne : v ≠ v' := Ne.symm hv
    split_ifs <;> simp [hv, hne]

/-- Both functions are called, as far as they are there. -/
def castBoth (c : HintCall) (handle : Nat) (vote : Int) (s : PowerHal) : PowerHal :=
  (s.castVote c handle vote .turnoffOndemandIoBusy).castVote c handle vote .lowerOndemandSdf

theorem votesFor_castBoth (c : HintCall) (handle : Nat) (vote : Int) (s : PowerHal)
    (v : PowerVote) :
    votesFor (s.castBoth c handle vote) v
      = votesFor s v
        ++ if s.unavailable v = false ∧ c.dlsym handle v = true then [vote] else [] := by
  rw [castBoth, votesFor_castVote, votesFor_castVote, unavailable_castVote]
  cases v <;> simp

theorem unavailable_castBoth (c : HintCall) (handle : Nat) (vote : Int) (s : PowerHal)
    (v : PowerVote) :
    (s.castBoth c handle vote).unavailable v = (s.unavailable v || !c.dlsym handle v) := by
  rw [castBoth, unavailable_castVote, unavailable_castVote]
  cases v <;> simp

theorem castVote_handle (c : HintCall) (handle : Nat) (vote : Int) (s : PowerHal) (v : PowerVote) :
    (s.castVote c handle vote v).qcoptHandle = s.qcoptHandle
      ∧ (s.castVote c handle vote v).qcoptHandleUnavailable = s.qcoptHandleUnavailable := by
  unfold castVote
  split_ifs <;> exact ⟨rfl, rfl⟩

theorem castBoth_handle (c : HintCall) (handle : Nat) (vote : Int) (s : PowerHal) :
    (s.castBoth c handle vote).qcoptHandle = s.qcoptHandle
      ∧ (s.castBoth c handle vote).qcoptHandleUnavailable = s.qcoptHandleUnavailable := by
  have hfirst := s.castVote_handle c handle vote .turnoffOndemandIoBusy
  have hsecond := (s.castVote c handle vote .turnoffOndemandIoBusy).castVote_handle c handle vote
    .lowerOndemandSdf
  exact ⟨hsecond.1.trans hfirst.1, hsecond.2.trans hfirst.2⟩

/-- A hint that gets as far as its metadata and has a library. -/
theorem voteForState_open {c : HintCall} {s s₁ : PowerHal} {handle : Nat} (hreach : c.Reaches)
    (hget : s.getQcoptHandle c = (some handle, s₁)) :
    s.voteForState c (getScalingGovernor c 80).2 c.state
      = if c.Asks then s₁.castBoth c handle c.state else s₁ := by
  have hname := (bufferText_getScalingGovernor hreach.2.2.1).2
  have hondemand := isOndemand_iff (getScalingGovernor c 80).2
  rw [hname] at hondemand
  simp only [voteForState, hget, hondemand, HintCall.Asks, hreach, true_and]
  by_cases hone : c.state = 1
  · rw [if_pos hone]
    simp only [hone, or_true, and_true]
    rfl
  · rw [if_neg hone]
    by_cases hzero : c.state = 0
    · rw [if_pos hzero]
      simp only [hzero, true_or, and_true]
      rfl
    · rw [if_neg hzero, if_neg (fun h => h.2.elim hzero hone)]

/-- With an open library, a hint adds the vote that was owed for it. -/
theorem owed_open {c : HintCall} {s : PowerHal} {handle : Nat} (hopen : s.qcoptHandle = some handle)
    (hthere : s.qcoptHandleUnavailable = false) (cs : List HintCall) (v : PowerVote) :
    let s' := if c.Asks then s.castBoth c handle c.state else s
    votesFor s' v ++ owed s' v cs = votesFor s v ++ owed s v (c :: cs) := by
  by_cases hasks : c.Asks
  · obtain ⟨hhandle, hgone⟩ := s.castBoth_handle c handle c.state
    simp only [if_pos hasks, owed, hhandle, hgone, hopen, hthere, votesFor_castBoth,
      unavailable_castBoth]
    cases hun : s.unavailable v with
    | true => simp
    | false =>
        rw [votesOf, votesOf, List.filter_cons_of_pos (by simpa using hasks)]
        cases hsym : c.dlsym handle v with
        | true => simp [hsym]
        | false => simp [hsym]
  · simp only [if_neg hasks, owed, hopen, hthere]
    rw [votesOf, votesOf, List.filter_cons_of_neg (by simpa using hasks)]

/-- **One hint.** The votes cast and those still owed add up to the same. -/
theorem owed_hinted (s : PowerHal) (c : HintCall) (cs : List HintCall) (v : PowerVote) :
    votesFor (s.hinted c) v ++ owed (s.hinted c) v cs = votesFor s v ++ owed s v (c :: cs) := by
  by_cases hreach : c.Reaches
  · rw [hinted, if_pos hreach]
    cases hgone : s.qcoptHandleUnavailable with
    | true =>
        have hget : s.getQcoptHandle c = (none, s) := by rw [getQcoptHandle, if_pos hgone]
        simp only [voteForState, hget, owed, hgone, true_or, if_true]
    | false =>
        cases hopen : s.qcoptHandle with
        | some handle =>
            have hget : s.getQcoptHandle c = (some handle, s) := by
              rw [getQcoptHandle, if_neg (by simp [hgone]), hopen]
            rw [voteForState_open hreach hget]
            exact owed_open hopen hgone cs v
        | none =>
            have hfirst : ((c :: cs).find? (·.Reaches)).bind HintCall.library = c.library := by
              rw [List.find?_cons_of_pos (by simpa using hreach)]
              rfl
            cases hlib : c.library with
            | some handle =>
                have hget : s.getQcoptHandle c
                    = (some handle, { s with qcoptHandle := some handle }) := by
                  rw [HintCall.library] at hlib
                  split_ifs at hlib with hempty
                  rw [getQcoptHandle, if_neg (by simp [hgone]), hopen]
                  simp only [hlib, if_pos (mt List.length_eq_zero_iff.mp hempty)]
                rw [voteForState_open hreach hget]
                have hnext := owed_open (c := c) (s := { s with qcoptHandle := some handle })
                  rfl hgone cs v
                have howed : owed { s with qcoptHandle := some handle } v (c :: cs)
                    = owed s v (c :: cs) := by
                  simp only [owed, hopen, expectedVotes, hfirst, hlib]
                rw [howed] at hnext
                exact hnext
            | none =>
                have hget : s.getQcoptHandle c
                    = (none, { s with qcoptHandleUnavailable := true }) := by
                  rw [HintCall.library] at hlib
                  rw [getQcoptHandle, if_neg (by simp [hgone]), hopen]
                  split_ifs at hlib with hempty
                  · simp [hempty]
                  · simp only [hlib, if_pos (mt List.length_eq_zero_iff.mp hempty)]
                simp only [voteForState, hget, owed, true_or, if_true, hopen, expectedVotes, hfirst,
                  hlib, ite_self, votesFor]
  · have hnot : ¬ c.Asks := fun hasks => hreach hasks.1
    have hfilter : (c :: cs).filter (·.Asks) = cs.filter (·.Asks) :=
      List.filter_cons_of_neg (by simpa using hnot)
    have hfind : (c :: cs).find? (·.Reaches) = cs.find? (·.Reaches) :=
      List.find?_cons_of_neg (by simpa using hreach)
    simp only [hinted, if_neg hreach, owed, votesOf, expectedVotes, hfilter, hfind]

end PowerHal

open PowerHal

/-- **The votes of every run.** A run over any hints ends, and each of the two functions has
got exactly the votes of the hints that ask for one, from the library that the first hint with
metadata found, until it was looked up without success. -/
theorem power_votes (calls : List HintCall) :
    (∃ s, PowerRun .init calls s)
      ∧ ∀ s, PowerRun .init calls s → ∀ v, s.votesFor v = expectedVotes v calls := by
  have hrun : ∀ (s : PowerHal) (calls : List HintCall),
      (∃ s', PowerRun s calls s')
        ∧ ∀ s', PowerRun s calls s' → ∀ v, s'.votesFor v = s.votesFor v ++ s.owed v calls := by
    intro s calls
    induction calls generalizing s with
    | nil =>
        refine ⟨⟨s, rfl⟩, ?_⟩
        rintro s' rfl v
        have hnone : owed s' v [] = [] := by
          rw [owed]
          split_ifs
          · rfl
          · cases s'.qcoptHandle <;> rfl
        rw [hnone, List.append_nil]
    | cons c cs ih =>
        obtain ⟨⟨s', hs'⟩, hvotes⟩ := ih (s.hinted c)
        refine ⟨⟨s', s.hinted c, (powerHint_iff s c _).mpr rfl, hs'⟩, ?_⟩
        rintro s'' ⟨t, ht, hrest⟩ v
        obtain rfl := (powerHint_iff s c t).mp ht
        rw [hvotes s'' hrest v]
        exact owed_hinted s c cs v
  obtain ⟨hends, hvotes⟩ := hrun .init calls
  exact ⟨hends, fun s hs v => hvotes s hs v⟩

end HtcLeo
