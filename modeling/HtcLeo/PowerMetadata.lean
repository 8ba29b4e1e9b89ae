import HtcLeo.CInt
import HtcLeo.CString
import HtcLeo.Loops
import HtcLeo.NmeaToken

/-!
# The metadata of a power hint (`power/metadata-parser.c`)

A video hint comes with a text such as `state=1;height=720`. `parse_metadata`
takes the next segment off the text with `strtok_r` and copies what stands
before and behind its first `=` into two arrays, each as far as there is
room. `parse_video_metadata` calls it until the text is used up and keeps the
number of every `state`, so that the last one stands.

The log of a run is the list of its writes: to the two arrays, and to the
text itself, where `strtok_r` puts a NUL in place of a delimiter.
-/

namespace HtcLeo

/-- A string in memory, without its NUL. It is no larger than an object of the target can
be, so that the difference of two pointers into it is an `int`. -/
structure CText where
  chars : List Byte
  noNul : (0 : Byte) ∉ chars
  size : chars.length < 2 ^ 31

/-! ## The code -/

/-- The macro `MIN`. -/
def cMin (x y : Int) : Int := if x > y then y else x

/-- The conversion to `unsigned int`. -/
def toUnsigned (x : Int) : Nat := (x % 2 ^ 32).toNat

inductive MetadataStatus where
  | parsingErr
  | parsingContinue
  | parsingDone
deriving DecidableEq, Repr

inductive MetadataWrite where
  | attr (index : Nat)
  | value (index : Nat)
  | metadata (index : Nat)
deriving DecidableEq, Repr

structure MetadataParser where
  /-- The string the next `strtok_r` works on: `metadata` at first, then `saveptr`. -/
  text : Option (List Byte)
  /-- Where it stands in `metadata`. -/
  offset : Nat
  /-- The array `attribute`. -/
  attr : Mem
  value : Mem
  state : Int
  log : List MetadataWrite

/-- The string in an array of `size` characters. -/
def bufferText (size : Nat) (m : Mem) : List Byte := cstr (m.slice 0 size)

/-- `strncpy(dst, src, n)` and `dst[n] = '\0'`. -/
def copyText (dst : Mem) (src : List Byte) (n : Nat) : Mem :=
  Function.update (strncpy dst src n) n 0

namespace MetadataParser

/-- What `strtok_r` leaves, and `attribute[0] = value[0] = '\0'`. -/
def takeSegment (p : MetadataParser) (r : Strtok) : MetadataParser :=
  let stop := p.offset + r.skipped + r.token.length
  { p with
    text := r.rest
    offset := stop + 1
    attr := Function.update p.attr 0 0
    value := Function.update p.value 0 0
    log := p.log ++ (if r.rest.isSome then [.metadata stop] else []) ++ [.value 0, .attr 0] }

/-- The characters of `attribute_string` before `delim`. -/
def copyAttribute (attributeSize : Int) (token : List Byte) (delim : Nat) (p : MetadataParser) :
    MetadataParser :=
  let bytesToCopy := toUnsigned (cMin (wrap32 delim) (attributeSize - 1))
  { p with
    attr := copyText p.attr token bytesToCopy
    log := p.log ++ (List.range (bytesToCopy + 1)).map .attr }

/-- The characters behind `delim`. Their number is counted from the length of what was
copied before, and compared as unsigned. -/
def copyValue (attributeSize valueSize : Int) (token : List Byte) (delim : Nat)
    (p : MetadataParser) : MetadataParser :=
  let attributeLen := (bufferText attributeSize.toNat p.attr).length
  let bytesToCopy :=
    toUnsigned (cMin (toUnsigned (token.length - attributeLen - 1)) (toUnsigned (valueSize - 1)))
  { p with
    value := copyText p.value (token.drop (delim + 1)) bytesToCopy
    log := p.log ++ (List.range (bytesToCopy + 1)).map .value }

def copySegment (attributeSize valueSize : Int) (token : List Byte) (p : MetadataParser) :
    MetadataParser :=
  match strchr (ch '=') token with
  | none => p
  | some delim =>
      (p.copyAttribute attributeSize token delim).copyValue attributeSize valueSize token delim

/-- `parse_metadata`. -/
def parseMetadata (attributeSize valueSize : Int) (p : MetadataParser) :
    MetadataStatus × MetadataParser :=
  match p.text.bind (strtokR (ch ';')) with
  | none => (.parsingDone, { p with text := none })
  | some r => (.parsingContinue, (p.takeSegment r).copySegment attributeSize valueSize r.token)

end MetadataParser

def stateName : List Byte := "state".toList.map ch

namespace MetadataParser

/-- The body of the loop of `parse_video_metadata`. -/
def storeState (p : MetadataParser) : MetadataParser :=
  let attr := bufferText 1024 p.attr
  let value := bufferText 1024 p.value
  if attr.length = stateName.length ∧ attr.take stateName.length = stateName then
    if value.length > 0 then { p with state := atoi value } else p
  else p

/-- A round of the loop, with none where its condition fails. -/
def videoRound (p : MetadataParser) : Option MetadataParser :=
  match p.parseMetadata 1024 1024 with
  | (.parsingContinue, p) => some p.storeState
  | _ => none

/-- `parse_video_metadata` returns `ret` and leaves `p`. -/
def ParseVideoMetadata (p₀ : MetadataParser) (ret : Int) (p : MetadataParser) : Prop :=
  ∃ s, LoopsTo videoRound p₀ s ∧ (s.parseMetadata 1024 1024).2 = p ∧
    ret = if (s.parseMetadata 1024 1024).1 = .parsingErr then -1 else 0

/-- The call for a text, with anything in the two arrays. -/
def init (metadata : CText) (attr value : Mem) (state : Int) : MetadataParser :=
  ⟨some metadata.chars, 0, attr, value, state, []⟩

end MetadataParser

/-! ## The last state of a text -/

/-- The text of a segment before its first `=`. -/
def attributeOf (segment : List Byte) : List Byte := segment.takeWhile (· ≠ ch '=')

/-- The text behind it. -/
def valueOf (segment : List Byte) : List Byte := (segment.dropWhile (· ≠ ch '=')).tail

def setsState (segment : List Byte) : Bool := attributeOf segment = stateName && valueOf segment ≠ []

/-- The state that a list of segments gives, if `old` is the one before. -/
def lastState (old : Int) (segs : List (List Byte)) : Int :=
  match (segs.filter setsState).getLast? with
  | none => old
  | some segment => atoi ((valueOf segment).take 1023)

theorem lastState_cons (old : Int) (segment : List Byte) (segs : List (List Byte)) :
    lastState old (segment :: segs)
      = lastState (if setsState segment then atoi ((valueOf segment).take 1023) else old) segs := by
  by_cases hsets : setsState segment = true
  · rw [lastState, lastState, List.filter_cons_of_pos hsets, if_pos hsets, List.getLast?_cons]
    cases (segs.filter setsState).getLast? with
    | none => rfl
    | some last => rfl
  · rw [lastState, lastState, List.filter_cons_of_neg hsets, if_neg hsets]

/-- The writes to an array of 1024 characters, and of NULs over the delimiters of the text. -/
def MetadataWrite.Allowed (text : List Byte) : MetadataWrite → Prop
  | .attr index => index < 1024
  | .value index => index < 1024
  | .metadata index => text[index]? = some (ch ';')

/-! ## A segment -/

theorem cMin_eq (x y : Int) : cMin x y = min x y := by
  rw [cMin]
  split <;> omega

/-- The characters copied into `attribute`. -/
theorem attributeBytes_eq {delim : Nat} (h : delim < 2 ^ 31) :
    toUnsigned (cMin (wrap32 delim) (1024 - 1)) = min delim 1023 := by
  rw [wrap32_eq (by omega) (by omega), cMin_eq, toUnsigned]
  omega

/-- The characters copied into `value`, when `n` are in `attribute`. -/
theorem valueBytes_eq {len n : Nat} (hlen : len < 2 ^ 31) (hn : n < len) :
    toUnsigned (cMin (toUnsigned (len - n - 1)) (toUnsigned (1024 - 1)))
      = min (len - n - 1) 1023 := by
  rw [cMin_eq, toUnsigned, toUnsigned, toUnsigned]
  omega

/-- An array starts with the empty string once its first character is NUL. -/
theorem bufferText_update_zero (m : Mem) (n : Nat) :
    bufferText (n + 1) (Function.update m 0 0) = [] := by
  rw [bufferText, Mem.slice, Function.update_self, cstr_zero_cons]

theorem attribute_cut_iff {token : List Byte} {delim : Nat} (h : delim < token.length) :
    token.take (min delim 1023) = stateName ↔ token.take delim = stateName := by
  by_cases hle : delim ≤ 1023
  · rw [Nat.min_eq_left hle]
  · have hname : stateName.length = 5 := rfl
    constructor
    · intro heq
      have := congrArg List.length heq
      rw [List.length_take, hname] at this
      omega
    · intro heq
      have := congrArg List.length heq
      rw [List.length_take, hname] at this
      omega

/-- Where the attribute is not cut, the value is cut only at the end of its array. -/
theorem value_cut {token : List Byte} {delim : Nat} (hname : token.take delim = stateName)
    (h : delim < token.length) :
    (token.drop (delim + 1)).take (min (token.length - min delim 1023 - 1) 1023)
      = (token.drop (delim + 1)).take 1023 := by
  have hdelim : delim = 5 := by
    have := congrArg List.length hname
    rw [List.length_take, show stateName.length = 5 from rfl] at this
    omega
  rw [List.take_eq_take_iff, List.length_drop]
  omega

/-- The state by the two texts as they are cut is the state by the segment. -/
theorem state_of_cut {token : List Byte} {delim : Nat} (h : strchr (ch '=') token = some delim)
    (old : Int) :
    (if token.take (min delim 1023) = stateName ∧
        (token.drop (delim + 1)).take (min (token.length - min delim 1023 - 1) 1023) ≠ []
      then atoi ((token.drop (delim + 1)).take (min (token.length - min delim 1023 - 1) 1023))
      else old)
      = if setsState token then atoi ((valueOf token).take 1023) else old := by
  obtain ⟨hlt, htake, hdrop⟩ := strchr_some h
  have hvalue : valueOf token = token.drop (delim + 1) := by
    rw [valueOf, hdrop, List.tail_drop]
  simp only [attribute_cut_iff hlt]
  rw [setsState, attributeOf, htake, hvalue]
  by_cases hname : token.take delim = stateName
  · rw [value_cut hname hlt]
    simp [hname]
  · simp [hname]

namespace MetadataParser

variable {token : List Byte} {delim : Nat} {p : MetadataParser}

/-- The body of the loop touches nothing but the state. -/
theorem storeState_eq (p : MetadataParser) :
    p.storeState = { p with state := p.storeState.state } := by
  rw [storeState]
  split
  · split <;> rfl
  · rfl

theorem storeState_state (p : MetadataParser) :
    p.storeState.state
      = if bufferText 1024 p.attr = stateName ∧ bufferText 1024 p.value ≠ []
        then atoi (bufferText 1024 p.value) else p.state := by
  rw [storeState]
  by_cases hattr : bufferText 1024 p.attr = stateName
  · rw [if_pos ⟨by rw [hattr], by rw [hattr]; rfl⟩]
    by_cases hvalue : bufferText 1024 p.value = []
    · rw [if_neg (by rw [hvalue]; decide), if_neg fun h => h.2 hvalue]
    · rw [if_pos (List.length_pos_iff.mpr hvalue), if_pos ⟨hattr, hvalue⟩]
  · have hcmp : ¬((bufferText 1024 p.attr).length = stateName.length ∧
        (bufferText 1024 p.attr).take stateName.length = stateName) := by
      rintro ⟨hlen, htake⟩
      rw [← hlen, List.take_length] at htake
      exact hattr htake
    rw [if_neg hcmp, if_neg fun h => hattr h.1]

/-- A segment without `=` leaves the two arrays empty. -/
theorem copySegment_none (h : strchr (ch '=') token = none) :
    p.copySegment 1024 1024 token = p := by
  rw [copySegment, h]

/-- The two texts of a segment with `=`, as they are cut. -/
theorem copySegment_some (hnul : (0 : Byte) ∉ token) (hsize : token.length < 2 ^ 31)
    (h : strchr (ch '=') token = some delim) :
    ∃ attr value n m, p.copySegment 1024 1024 token
        = { p with
            attr := attr
            value := value
            log := p.log ++ (List.range (n + 1)).map .attr ++ (List.range (m + 1)).map .value } ∧
      n = min delim 1023 ∧ m = min (token.length - n - 1) 1023 ∧
      bufferText 1024 attr = token.take n ∧
      bufferText 1024 value = (token.drop (delim + 1)).take m := by
  have hlt := (strchr_some h).1
  have hattr : bufferText 1024 (copyText p.attr token (min delim 1023))
      = token.take (min delim 1023) :=
    cstr_strncpy hnul _ (by omega)
  have hlen : (token.take (min delim 1023)).length = min delim 1023 := by
    rw [List.length_take]
    omega
  have hvalue : bufferText 1024 (copyText p.value (token.drop (delim + 1))
        (min (token.length - min delim 1023 - 1) 1023))
      = (token.drop (delim + 1)).take (min (token.length - min delim 1023 - 1) 1023) :=
    cstr_strncpy (fun h => hnul (List.mem_of_mem_drop h)) _ (by omega)
  refine ⟨_, _, _, _, ?_, rfl, rfl, hattr, hvalue⟩
  rw [copySegment, h]
  simp only [copyAttribute, copyValue]
  rw [attributeBytes_eq (by omega), show (1024 : Int).toNat = 1024 from rfl, hattr, hlen,
    valueBytes_eq hsize (by omega)]

/-- What a round does with a segment: it sets the state as the segment says, and writes only
into the arrays. -/
theorem segment_stored (text : List Byte) (hnul : (0 : Byte) ∉ token)
    (hsize : token.length < 2 ^ 31) (hempty : bufferText 1024 p.attr = []) :
    ∃ attr value writes, (p.copySegment 1024 1024 token).storeState
        = { p with
            attr := attr
            value := value
            state := if setsState token then atoi ((valueOf token).take 1023) else p.state
            log := p.log ++ writes } ∧
      ∀ w ∈ writes, MetadataWrite.Allowed text w := by
  cases hdelim : strchr (ch '=') token with
  | none =>
      have hvalue : valueOf token = [] := by
        rw [valueOf, List.dropWhile_eq_nil_iff.mpr]
        · rfl
        · intro b hb
          simp only [decide_eq_true_eq]
          rintro rfl
          exact strchr_none hdelim hb
      refine ⟨p.attr, p.value, [], ?_, fun w hw => absurd hw List.not_mem_nil⟩
      rw [copySegment_none hdelim, storeState_eq, storeState_state, hempty,
        if_neg fun h => absurd h.1 (by decide), List.append_nil, if_neg (by simp [setsState, hvalue])]
  | some delim =>
      obtain ⟨attr, value, n, m, heq, hn, hm, hattr, hvalue⟩ :=
        copySegment_some (p := p) hnul hsize hdelim
      refine ⟨attr, value, (List.range (n + 1)).map .attr ++ (List.range (m + 1)).map .value,
        ?_, ?_⟩
      · rw [storeState_eq, storeState_state, heq, hattr, hvalue, hm, hn, state_of_cut hdelim,
          List.append_assoc]
      · intro w hw
        rcases List.mem_append.mp hw with hw | hw
        · obtain ⟨i, hi, rfl⟩ := List.mem_map.mp hw
          have := List.mem_range.mp hi
          show i < 1024
          omega
        · obtain ⟨i, hi, rfl⟩ := List.mem_map.mp hw
          have := List.mem_range.mp hi
          show i < 1024
          omega

/-! ## The whole text -/

variable {p' : MetadataParser} {text : List Byte} {old : Int}

theorem videoRound_some (h : videoRound p = some p') :
    ∃ t r, p.text = some t ∧ strtokR (ch ';') t = some r ∧
      p' = ((p.takeSegment r).copySegment 1024 1024 r.token).storeState := by
  rw [videoRound, parseMetadata] at h
  cases htok : p.text.bind (strtokR (ch ';')) with
  | none =>
      rw [htok] at h
      cases h
  | some r =>
      rw [htok] at h
      obtain ⟨t, ht, hr⟩ := Option.bind_eq_some_iff.mp htok
      exact ⟨t, r, ht, hr, (Option.some.inj h).symm⟩

theorem videoRound_none (h : videoRound p = none) :
    p.parseMetadata 1024 1024 = (.parsingDone, { p with text := none }) ∧
      segments (ch ';') (p.text.getD []) = [] := by
  rw [videoRound, parseMetadata] at h
  rw [parseMetadata]
  cases htok : p.text.bind (strtokR (ch ';')) with
  | none =>
      refine ⟨rfl, ?_⟩
      cases ht : p.text with
      | none => rfl
      | some t =>
          rw [ht] at htok
          exact strtokR_none htok
  | some r =>
      rw [htok] at h
      cases h

/-- What is left to read. -/
def left (p : MetadataParser) : Nat := (p.text.map (·.length + 1)).getD 0

/-- A state on the way through `text`: the segments read and those left give what the whole
text does. -/
structure Within (text : List Byte) (old : Int) (p : MetadataParser) : Prop where
  rest : ∀ t, p.text = some t → text.drop p.offset = t
  state : lastState p.state (segments (ch ';') (p.text.getD []))
    = lastState old (segments (ch ';') text)
  log : ∀ w ∈ p.log, w.Allowed text

/-- The writes before the segment is copied. -/
theorem takeSegment_log {t : List Byte} {r : Strtok} (hdrop : text.drop p.offset = t)
    (hr : strtokR (ch ';') t = some r) (hlog : ∀ w ∈ p.log, w.Allowed text) :
    ∀ w ∈ (p.takeSegment r).log, w.Allowed text := by
  intro w hw
  rcases List.mem_append.mp hw with hw | hw
  · rcases List.mem_append.mp hw with hw | hw
    · exact hlog w hw
    · cases hrest : r.rest with
      | none =>
          rw [hrest] at hw
          cases hw
      | some u =>
          rw [hrest] at hw
          obtain rfl := List.mem_singleton.mp hw
          have hdelim := (strtokR_rest hr hrest).1
          rw [← hdrop, List.getElem?_drop, ← Nat.add_assoc] at hdelim
          exact hdelim
  · simp only [List.mem_cons, List.not_mem_nil, or_false] at hw
    rcases hw with rfl | rfl <;> exact Nat.zero_lt_succ _

theorem takeSegment_left {t : List Byte} {r : Strtok} (ht : p.text = some t)
    (hr : strtokR (ch ';') t = some r) : (p.takeSegment r).left < p.left := by
  rw [left, left, ht]
  show (r.rest.map (·.length + 1)).getD 0 < t.length + 1
  cases hrest : r.rest with
  | none => exact Nat.succ_pos _
  | some u =>
      have hlen := congrArg List.length (strtokR_rest hr hrest).2
      have hlt := (List.getElem?_eq_some_iff.mp (strtokR_rest hr hrest).1).1
      rw [List.length_drop] at hlen
      show u.length + 1 < t.length + 1
      omega

theorem Within.round (hnul : (0 : Byte) ∉ text) (hsize : text.length < 2 ^ 31)
    (hp : Within text old p) (h : videoRound p = some p') :
    Within text old p' ∧ p'.left < p.left := by
  obtain ⟨t, r, ht, hr, rfl⟩ := videoRound_some h
  have hdrop := hp.rest t ht
  have htoken : r.token <:+: text :=
    (infix_of_strtokR hr).trans (hdrop ▸ (List.drop_suffix _ _).isInfix)
  obtain ⟨attr, value, writes, heq, hwrites⟩ :=
    segment_stored (p := p.takeSegment r) text (fun h => hnul (htoken.subset h))
      (Nat.lt_of_le_of_lt htoken.length_le hsize) (bufferText_update_zero p.attr 1023)
  rw [heq]
  refine ⟨⟨?_, ?_, ?_⟩, takeSegment_left ht hr⟩
  · intro u hrest
    rw [← (strtokR_rest hr hrest).2, ← hdrop, List.drop_drop]
    show text.drop (p.offset + r.skipped + r.token.length + 1) = _
    congr 1
    omega
  · have hstate := hp.state
    rw [ht, Option.getD_some, segments_of_strtokR hr, lastState_cons] at hstate
    exact hstate
  · intro w hw
    rcases List.mem_append.mp hw with hw | hw
    · exact takeSegment_log hdrop hr hp.log w hw
    · exact hwrites w hw

theorem Within.init (metadata : CText) (attr value : Mem) (state : Int) :
    Within metadata.chars state (init metadata attr value state) :=
  ⟨fun _ ht => Option.some.inj ht, rfl, fun _ hw => absurd hw List.not_mem_nil⟩

end MetadataParser

open MetadataParser

/-- `parse_video_metadata` ends on every text, and however it ends it returns 0, has written
only into its arrays (and, in `strtok_r`, over delimiters of the text), and leaves the
state of the last segment that sets one. -/
theorem video_metadata_parsed (metadata : CText) (attr value : Mem) (state : Int) :
    (∃ ret p, ParseVideoMetadata (init metadata attr value state) ret p) ∧
    ∀ ret p, ParseVideoMetadata (init metadata attr value state) ret p →
      ret = 0 ∧ (∀ w ∈ p.log, w.Allowed metadata.chars) ∧
      p.state = lastState state (segments (ch ';') metadata.chars) := by
  have hround : ∀ p p', Within metadata.chars state p → videoRound p = some p' →
      Within metadata.chars state p' ∧ p'.left < p.left :=
    fun p p' hp h => hp.round metadata.noNul metadata.size h
  have hinit := Within.init metadata attr value state
  constructor
  · obtain ⟨s, hs⟩ := exists_loopsTo left hround hinit
    exact ⟨_, _, s, hs, rfl, rfl⟩
  · rintro ret p ⟨s, hs, rfl, rfl⟩
    have hin := hs.inv (fun p p' hp h => (hround p p' hp h).1) hinit
    obtain ⟨hdone, hsegs⟩ := videoRound_none hs.ends
    rw [hdone]
    refine ⟨rfl, hin.log, ?_⟩
    have hstate := hin.state
    rw [hsegs] at hstate
    exact hstate

/-- The text of two hints in one; its last state counts. -/
def twoStates : CText where
  chars := "state=1;height=720;state=0".toList.map ch
  noNul := by decide
  size := by decide

example : lastState 5 (segments (ch ';') twoStates.chars) = 0 := by decide

end HtcLeo
