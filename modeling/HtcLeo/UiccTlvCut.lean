import Mathlib.Data.List.Basic
import Mathlib.Data.List.GetD
import Mathlib.Data.List.Induction
import HtcLeo.UiccTlv

/-!
# A response that is cut off

A SIM response may end inside an object. What `parse` returns then should
be what the complete objects before it give. Every object is taken as a
whole by `parseTag_object`, so that complete objects amount to a fold over
them; the beginning of one does nothing (`parseTag_cut`), except for the
descriptor of a record file, which assigns the record length before it
reads its last byte. `cut_response_iff` says when that shows.
-/

namespace HtcLeo

/-! ## Objects -/

/-- A complete object: a tag, a byte for the length, and the value. A file descriptor has two
or five bytes. -/
structure TlvObject where
  tag : Byte
  value : List Byte
  short : value.length < 256
  descriptor : tag.toNat = 0x82 → value.length = 2 ∨ value.length = 5

namespace TlvObject

def encode (o : TlvObject) : List Byte := o.tag :: BitVec.ofNat 8 o.value.length :: o.value

/-- What a complete object does to the fields. -/
def apply (t : UiccTlvData) (o : TlvObject) : UiccTlvData :=
  if o.tag.toNat = 0x82 then
    if o.value.length = 5 then
      ⟨recordLengthOf o.value, wrap32 (recordLengthOf o.value * (o.value.getD 4 0).toNat),
        (o.value.getD 4 0).toNat, 5⟩
    else { t with mNumRecords := 1, mFileType := 2 }
  else if o.tag.toNat = 0x80 then
    { t with
      mFileSize := sizeFrom 0 o.value
      mRecordSize := if t.mFileType = 2 then sizeFrom 0 o.value else t.mRecordSize }
  else t

/-- The object is the descriptor of a record file and its last byte, the number of records,
is missing from `part`. -/
def LacksCount (o : TlvObject) (part : List Byte) : Prop :=
  o.tag.toNat = 0x82 ∧ o.value.length = 5 ∧ part.length = 6

instance (o : TlvObject) (part : List Byte) : Decidable (o.LacksCount part) :=
  inferInstanceAs (Decidable (_ ∧ _ ∧ _))

/-- What the first bytes of an object do to the fields. -/
def applyCut (part : List Byte) (t : UiccTlvData) (o : TlvObject) : UiccTlvData :=
  if o.LacksCount part then { t with mRecordSize := recordLengthOf o.value } else t

theorem applyCut_nil (o : TlvObject) (t : UiccTlvData) : o.applyCut [] t = t :=
  if_neg (by simp [LacksCount])

theorem length_byte (o : TlvObject) : (BitVec.ofNat 8 o.value.length).toNat = o.value.length := by
  rw [BitVec.toNat_ofNat, Nat.mod_eq_of_lt o.short]

end TlvObject

section Objects

variable {data : List Byte} {t : UiccTlvData} {loc : Nat} {o : TlvObject}

theorem parseTag_cons (hsize : data.length < 2 ^ 31) {n : Byte} {v : List Byte}
    (hp : data.drop loc = n :: v) :
    parseTag data loc t =
      if n.toNat = 0x82 then parseFileDescriptor data (loc + 1 : Nat) t
      else if n.toNat = 0x80 then parseFileSize data (loc + 1 : Nat) t
      else parseSomeTag data (loc + 1 : Nat) t := by
  rw [parseTag, bind_ok (load_head hp), next_location hsize hp]
  by_cases hdescriptor : n.toNat = 0x82
  · rw [if_pos (by rw [hdescriptor]; rfl), if_pos hdescriptor]
  · rw [if_neg (by unfold UiccTlvData.tagFileDescriptor; omega), if_neg hdescriptor]
    by_cases hfile : n.toNat = 0x80
    · rw [if_pos (by rw [hfile]; rfl), if_pos hfile]
    · rw [if_neg (by unfold UiccTlvData.tagFileSize; omega), if_neg hfile]

theorem recordLengthOf_append {v w : List Byte} (hv : 4 ≤ v.length) :
    recordLengthOf (v ++ w) = recordLengthOf v := by
  rw [recordLengthOf, recordLengthOf, List.getD_append _ _ _ _ (by omega),
    List.getD_append _ _ _ _ (by omega)]

/-- **A complete object** does what it says and leads to the next one. -/
theorem parseTag_object (hsize : data.length < 2 ^ 31) {rest : List Byte}
    (hp : data.drop loc = o.encode ++ rest) :
    parseTag data loc t = .ok ((loc + o.encode.length : Nat) : Int) (o.apply t) := by
  rw [TlvObject.encode, List.cons_append, List.cons_append] at hp
  have hlen := length_of_drop hp
  have hnext := drop_next hp
  rw [List.length_cons, List.length_append] at hlen
  have hend : wrap32 (((loc + 1 + 1 : Nat) : Int) + o.value.length)
      = ((loc + o.encode.length : Nat) : Int) := by
    rw [wrap32_eq (by omega) (by omega), TlvObject.encode, List.length_cons, List.length_cons]
    omega
  rw [parseTag_cons hsize hp, TlvObject.apply]
  have hbyte := o.length_byte
  split
  · rename_i htag
    rcases o.descriptor htag with hv | hv
    · rw [parseFileDescriptor_two hsize hnext (by omega) (by rw [List.length_append]; omega),
        if_neg (by omega), ← hend, hv]
      rfl
    · rw [parseFileDescriptor_five hsize hnext (by omega) (by rw [List.length_append]; omega),
        if_pos hv, ← hend, hv, recordLengthOf_append (by omega), List.getD_append _ _ _ _ (by omega)]
      rfl
  · split
    · rw [parseFileSize_ok hsize hnext (by rw [List.length_append]; omega), hbyte,
        List.take_left', hend]
      rfl
    · rw [parseSomeTag_cons hsize hnext, hbyte, hend]

theorem parseTag_last (hsize : data.length < 2 ^ 31) {n : Byte} (hp : data.drop loc = [n]) :
    parseTag data loc t = .error .arrayIndexOutOfBounds t := by
  have hend := load_end (t := t) (drop_next hp)
  rw [parseTag_cons hsize hp]
  split
  · rw [parseFileDescriptor, bind_error hend]
  · split
    · rw [parseFileSize, bind_error hend]
    · rw [parseSomeTag, bind_error hend]

/-- The beginning of an object is its tag alone, or both its tag and its length with less than
its value. -/
theorem TlvObject.beginning {part : List Byte} (hbegin : part <+: o.encode)
    (hne : part ≠ o.encode) (hnil : part ≠ []) :
    part = [o.tag] ∨ ∃ v more, part = o.tag :: BitVec.ofNat 8 o.value.length :: v ∧
      v ++ more = o.value ∧ v.length < o.value.length := by
  obtain ⟨more, hmore⟩ := hbegin
  match part, hmore with
  | [], _ => exact absurd rfl hnil
  | [n], hmore =>
      rw [TlvObject.encode, List.singleton_append, List.cons.injEq] at hmore
      exact .inl (by rw [hmore.1])
  | n :: m :: v, hmore =>
      rw [TlvObject.encode, List.cons_append, List.cons_append, List.cons.injEq,
        List.cons.injEq] at hmore
      obtain ⟨rfl, rfl, hvalue⟩ := hmore
      refine .inr ⟨v, more, rfl, hvalue, ?_⟩
      rw [← hvalue, List.length_append]
      refine Nat.lt_add_of_pos_right (List.length_pos_iff.mpr ?_)
      rintro rfl
      rw [List.append_nil] at hvalue
      exact hne (by rw [TlvObject.encode, hvalue])

/-- The descriptor is the one object whose beginning can change a field. -/
theorem parseFileDescriptor_cut (hsize : data.length < 2 ^ 31) {v more : List Byte}
    (htag : o.tag.toNat = 0x82) (hp : data.drop loc = BitVec.ofNat 8 o.value.length :: v)
    (hvalue : v ++ more = o.value) (hshort : v.length < o.value.length) :
    parseFileDescriptor data loc t = .error .arrayIndexOutOfBounds
      (o.applyCut (o.tag :: BitVec.ofNat 8 o.value.length :: v) t) := by
  have hbyte := o.length_byte
  rw [TlvObject.applyCut]
  rcases o.descriptor htag with hv | hv
  · rw [parseFileDescriptor_one hsize hp (by omega) (by omega),
      if_neg fun hlacks => by have := hlacks.2.1; omega]
  · by_cases hfour : v.length = 4
    · rw [parseFileDescriptor_four hsize hp (by omega) hfour,
        if_pos ⟨htag, hv, by simp [hfour]⟩, ← hvalue, recordLengthOf_append (by omega)]
    · rw [parseFileDescriptor_less hsize hp (by omega) (by omega), if_neg]
      rintro ⟨-, -, hsix⟩
      simp only [List.length_cons] at hsix
      omega

/-- **The beginning of an object**: a read past the end throws, or a skip leads past it, where
it may have wrapped around. -/
theorem parseTag_cut (hsize : data.length < 2 ^ 31) {part : List Byte} (hp : data.drop loc = part)
    (hbegin : part <+: o.encode) (hne : part ≠ o.encode) (hnil : part ≠ []) :
    parseTag data loc t = .error .arrayIndexOutOfBounds (o.applyCut part t) ∨
      ∃ l, parseTag data loc t = .ok l (o.applyCut part t) ∧ (l < 0 ∨ data.length ≤ l) := by
  rcases TlvObject.beginning hbegin hne hnil with rfl | ⟨v, more, rfl, hvalue, hshort⟩
  · refine .inl ?_
    rw [parseTag_last hsize hp, TlvObject.applyCut, if_neg (by simp [TlvObject.LacksCount])]
  · have hbyte := o.length_byte
    have hnext := drop_next hp
    have hlen := length_of_drop hnext
    rw [parseTag_cons hsize hp]
    by_cases htag : o.tag.toNat = 0x82
    · rw [if_pos htag]
      exact .inl (parseFileDescriptor_cut hsize htag hnext hvalue hshort)
    · have hcounts : ¬o.LacksCount (o.tag :: BitVec.ofNat 8 o.value.length :: v) :=
        fun hlacks => htag hlacks.1
      rw [if_neg htag, TlvObject.applyCut, if_neg hcounts]
      split
      · exact .inl (parseFileSize_error hsize hnext (by omega))
      · refine .inr ⟨_, parseSomeTag_cons hsize hnext, ?_⟩
        have hsmall := o.short
        rw [hbyte, wrap32, Int.bmod_def]
        split <;> omega

/-! ## The loop -/

theorem tlvRound_ok {l : Int} {t' : UiccTlvData} (hloc : l < data.length) {l' : Int}
    (h : parseTag data l t = .ok l' t') : tlvRound data ⟨l, t, none⟩ = some ⟨l', t', none⟩ := by
  rw [tlvRound, if_pos ⟨rfl, hloc⟩, h]

theorem tlvRound_error {l : Int} {t' : UiccTlvData} {e : JavaException} (hloc : l < data.length)
    (h : parseTag data l t = .error e t') : tlvRound data ⟨l, t, none⟩ = some ⟨l, t', some e⟩ := by
  rw [tlvRound, if_pos ⟨rfl, hloc⟩, h]

theorem loopsTo_thrown {l : Int} {e : JavaException} :
    LoopsTo (tlvRound data) ⟨l, t, some e⟩ ⟨l, t, some e⟩ :=
  .stop (if_neg fun h => by cases h.1)

theorem loopsTo_end {l : Int} (hloc : data.length ≤ l) :
    LoopsTo (tlvRound data) ⟨l, t, none⟩ ⟨l, t, none⟩ :=
  .stop (if_neg fun h => by have := h.2; dsimp only at this; omega)

/-- The loop goes through the complete objects. -/
theorem loopsTo_objects (hsize : data.length < 2 ^ 31) {objs : List TlvObject} {part : List Byte}
    {s : TlvLoop} (hp : data.drop loc = objs.flatMap TlvObject.encode ++ part)
    (hrest : LoopsTo (tlvRound data)
      ⟨(loc + (objs.flatMap TlvObject.encode).length : Nat), objs.foldl TlvObject.apply t, none⟩ s) :
    LoopsTo (tlvRound data) ⟨loc, t, none⟩ s := by
  induction objs generalizing loc t with
  | nil => exact hrest
  | cons o objs ih =>
      rw [List.flatMap_cons, List.append_assoc] at hp
      have hlen := length_of_drop hp
      refine .round (tlvRound_ok (by omega) (parseTag_object hsize hp)) (ih ?_ ?_)
      · rw [← List.drop_drop, hp, List.drop_left]
      · rw [List.flatMap_cons, List.length_append, ← Nat.add_assoc] at hrest
        exact hrest

/-- The loop ends on the beginning of an object. -/
theorem loopsTo_cut (hsize : data.length < 2 ^ 31) {part : List Byte} (hp : data.drop loc = part)
    (hbegin : part <+: o.encode) (hne : part ≠ o.encode) :
    ∃ s, LoopsTo (tlvRound data) ⟨loc, t, none⟩ s ∧ s.result = .ok (o.applyCut part t) := by
  by_cases hnil : part = []
  · rw [hnil, List.drop_eq_nil_iff] at hp
    refine ⟨_, loopsTo_end (by omega), ?_⟩
    rw [hnil, TlvObject.applyCut_nil]
    rfl
  · have hloc : loc < data.length := by
      by_contra hge
      exact hnil (hp ▸ List.drop_eq_nil_iff.mpr (by omega))
    rcases parseTag_cut (t := t) hsize hp hbegin hne hnil with herror | ⟨l, hok, hl⟩
    · exact ⟨_, .round (tlvRound_error (by omega) herror) loopsTo_thrown, rfl⟩
    · have hround := tlvRound_ok (by omega) hok
      rcases hl with hneg | hpast
      · have hagain : parseTag data l (o.applyCut part t)
            = .error .arrayIndexOutOfBounds (o.applyCut part t) := by
          rw [parseTag, bind_error (load_out (.inl hneg))]
        exact ⟨_, .round hround (.round (tlvRound_error (by omega) hagain) loopsTo_thrown), rfl⟩
      · exact ⟨_, .round hround (loopsTo_end hpast), rfl⟩

end Objects

/-- What `parse` returns for complete objects and the beginning of another one. -/
theorem parse_objects {data part : List Byte} {objs : List TlvObject} {o : TlvObject}
    (hsize : data.length < 2 ^ 31) (hfirst : data.head? = some 0x62)
    (hbody : data.drop 2 = objs.flatMap TlvObject.encode ++ part)
    (hbegin : part <+: o.encode) (hne : part ≠ o.encode) (res : Except JavaException UiccTlvData) :
    UiccTlvData.Parse data res ↔
      res = .ok (o.applyCut part (objs.foldl TlvObject.apply UiccTlvData.new)) := by
  have hformat : ¬(data.length = 0 ∨ UiccTlvData.tlvFormatId ≠ ((data.getD 0 0).toNat : Int)) := by
    obtain ⟨rest, rfl⟩ := List.head?_eq_some_iff.mp hfirst
    rw [List.length_cons]
    rintro (hlen | hid)
    · omega
    · exact hid rfl
  have hpart : data.drop (2 + (objs.flatMap TlvObject.encode).length) = part := by
    rw [← List.drop_drop, hbody, List.drop_left]
  obtain ⟨s, hs, hres⟩ := loopsTo_cut (t := objs.foldl TlvObject.apply UiccTlvData.new) hsize hpart
    hbegin hne
  have hrun := loopsTo_objects hsize hbody hs
  rw [UiccTlvData.Parse, if_neg hformat, ← hres]
  constructor
  · rintro ⟨s', hs', rfl⟩
    exact congrArg TlvLoop.result (hs'.unique hrun)
  · rintro rfl
    exact ⟨s, hrun, rfl⟩

/-! ## The record length that objects state -/

/-- The number of bytes of the last file descriptor. -/
def lastDescriptor (objs : List TlvObject) : Option Nat :=
  (objs.filter fun o => o.tag.toNat = 0x82).getLast?.map fun o => o.value.length

/-- The record length that an object behind `before` states: a descriptor of five bytes has
one, and the size of a file whose descriptor has two is one. -/
def TlvObject.states (before : List TlvObject) (o : TlvObject) : Option Int :=
  if o.tag.toNat = 0x82 then
    if o.value.length = 5 then some (recordLengthOf o.value) else none
  else if o.tag.toNat = 0x80 ∧ lastDescriptor before = some 2 then some (sizeFrom 0 o.value)
  else none

/-- The last record length that is stated, and `-1` if none is. -/
def statedRecordLength (objs : List TlvObject) : Int :=
  ((List.range objs.length).filterMap fun i =>
    objs[i]?.bind (TlvObject.states (objs.take i))).getLast?.getD (-1)

theorem lastDescriptor_concat (objs : List TlvObject) (o : TlvObject) :
    lastDescriptor (objs ++ [o])
      = if o.tag.toNat = 0x82 then some o.value.length else lastDescriptor objs := by
  rw [lastDescriptor, List.filter_append]
  split
  · rename_i htag
    rw [List.filter_cons_of_pos (by simpa using htag), List.filter_nil, List.getLast?_concat]
    rfl
  · rename_i htag
    rw [List.filter_cons_of_neg (by simpa using htag), List.filter_nil, List.append_nil]
    rfl

theorem statedRecordLength_concat (objs : List TlvObject) (o : TlvObject) :
    statedRecordLength (objs ++ [o]) = (o.states objs).getD (statedRecordLength objs) := by
  have hbefore : ((List.range objs.length).filterMap fun i =>
        (objs ++ [o])[i]?.bind (TlvObject.states ((objs ++ [o]).take i)))
      = (List.range objs.length).filterMap fun i =>
        objs[i]?.bind (TlvObject.states (objs.take i)) := by
    apply List.filterMap_congr
    intro i hi
    have hlt := List.mem_range.mp hi
    rw [List.getElem?_append_left hlt, List.take_append_of_le_length (by omega)]
  rw [statedRecordLength, List.length_append, List.length_singleton, List.range_succ,
    List.filterMap_append, hbefore]
  have hlast : ((objs ++ [o])[objs.length]?.bind (TlvObject.states ((objs ++ [o]).take objs.length)))
      = o.states objs := by
    rw [List.getElem?_concat_length, List.take_left]
    rfl
  cases hstates : o.states objs with
  | none =>
      rw [List.filterMap_cons, hlast, hstates]
      dsimp only
      rw [List.filterMap_nil, List.append_nil]
      rfl
  | some len =>
      rw [List.filterMap_cons, hlast, hstates]
      dsimp only
      rw [List.filterMap_nil, List.getLast?_concat]
      rfl

/-- The fields after complete objects: the record length is the one that they state, and the
type is that of the last descriptor. -/
theorem foldl_apply_fields (objs : List TlvObject) :
    (objs.foldl TlvObject.apply UiccTlvData.new).mRecordSize = statedRecordLength objs ∧
      ((objs.foldl TlvObject.apply UiccTlvData.new).mFileType = 2 ↔ lastDescriptor objs = some 2) := by
  induction objs using List.reverseRecOn with
  | nil => exact ⟨rfl, by decide⟩
  | append_singleton objs o ih =>
      obtain ⟨hrecord, htype⟩ := ih
      rw [List.foldl_append, List.foldl_cons, List.foldl_nil, statedRecordLength_concat,
        lastDescriptor_concat, TlvObject.apply, TlvObject.states]
      by_cases htag : o.tag.toNat = 0x82
      · rw [if_pos htag, if_pos htag, if_pos htag]
        rcases o.descriptor htag with hv | hv
        · simp [hv, hrecord]
        · simp [hv]
      · rw [if_neg htag, if_neg htag, if_neg htag]
        by_cases hsize : o.tag.toNat = 0x80
        · by_cases htwo : lastDescriptor objs = some 2
          · simp [hsize, htwo, htype.mpr htwo]
          · have hother := mt htype.mp htwo
            simp [hsize, htwo, hother, hrecord]
        · simp [hsize, hrecord, htype]

/-! ## A response that is cut off -/

/-- What the callers of `parse` take from its result is the same. -/
structure UiccTlvData.Agrees (t t' : UiccTlvData) : Prop where
  recordSize : t.mRecordSize = t'.mRecordSize
  fileSize : t.mFileSize = t'.mFileSize
  numRecords : t.mNumRecords = t'.mNumRecords
  incomplete : t.isIncomplete = t'.isIncomplete

/-- An array that starts as a response does and, from its third byte on, consists of complete
objects and the beginning of another one, the last byte of which is missing at least. -/
structure CutResponse where
  data : List Byte
  objects : List TlvObject
  last : TlvObject
  part : List Byte
  size : data.length < 2 ^ 31
  first : data.head? = some 0x62
  body : data.drop 2 = objects.flatMap TlvObject.encode ++ part
  isBeginning : part <+: last.encode
  isCut : part ≠ last.encode

namespace CutResponse

/-- The array without the beginning of the last object. -/
def complete (r : CutResponse) : List Byte := r.data.take (r.data.length - r.part.length)

theorem complete_eq (r : CutResponse) :
    r.complete = r.data.take 2 ++ r.objects.flatMap TlvObject.encode := by
  have hdata : r.data = r.data.take 2 ++ r.objects.flatMap TlvObject.encode ++ r.part := by
    rw [List.append_assoc, ← r.body, List.take_append_drop]
  have hlen := congrArg List.length hdata
  rw [List.length_append] at hlen
  have hcut : r.data.length - r.part.length
      = (r.data.take 2 ++ r.objects.flatMap TlvObject.encode).length := by omega
  rw [complete, hcut]
  nth_rewrite 2 [hdata]
  exact List.take_left

theorem complete_body (r : CutResponse) :
    r.complete.drop 2 = r.objects.flatMap TlvObject.encode := by
  rw [r.complete_eq]
  by_cases hlen : 2 ≤ r.data.length
  · rw [List.drop_left' (by rw [List.length_take]; omega)]
  · have hbody := r.body
    rw [List.drop_eq_nil_of_le (by omega)] at hbody
    have hnone : r.objects.flatMap TlvObject.encode = [] := by
      have := congrArg List.length hbody
      rw [List.length_nil, List.length_append] at this
      exact List.eq_nil_of_length_eq_zero (by omega)
    rw [hnone, List.append_nil, List.drop_eq_nil_of_le (by rw [List.length_take]; omega)]

theorem complete_first (r : CutResponse) : r.complete.head? = some 0x62 := by
  obtain ⟨rest, hdata⟩ := List.head?_eq_some_iff.mp r.first
  rw [r.complete_eq, hdata]
  rfl

theorem complete_size (r : CutResponse) : r.complete.length < 2 ^ 31 := by
  have hsize := r.size
  rw [complete, List.length_take]
  omega

end CutResponse

/-- **A response that is cut off.** Both arrays are parsed to one result each. The results
agree if and only if the response is not cut just before the last byte of the descriptor of
a record file, or the descriptor has the record length that the objects before it state. -/
theorem cut_response_iff (r : CutResponse) :
    ∃ t t', (∀ res, UiccTlvData.Parse r.data res ↔ res = .ok t) ∧
      (∀ res, UiccTlvData.Parse r.complete res ↔ res = .ok t') ∧
      (t.Agrees t' ↔ (r.last.LacksCount r.part →
        recordLengthOf r.last.value = statedRecordLength r.objects)) := by
  have hcomplete := r.complete_body
  rw [← List.append_nil (r.objects.flatMap TlvObject.encode)] at hcomplete
  refine ⟨_, _, parse_objects r.size r.first r.body r.isBeginning r.isCut,
    parse_objects (o := r.last) r.complete_size r.complete_first hcomplete List.nil_prefix
      (List.cons_ne_nil _ _).symm, ?_⟩
  rw [TlvObject.applyCut_nil, TlvObject.applyCut]
  by_cases hlacks : r.last.LacksCount r.part
  · rw [if_pos hlacks, ← (foldl_apply_fields r.objects).1]
    constructor
    · intro hsame _
      exact hsame.recordSize
    · intro hsame
      rw [hsame hlacks]
      exact ⟨rfl, rfl, rfl, rfl⟩
  · rw [if_neg hlacks]
    exact iff_of_true ⟨rfl, rfl, rfl, rfl⟩ fun h => absurd h hlacks

/-- The descriptor of a file of ten records of 28 bytes. -/
def recordDescriptor : TlvObject where
  tag := 0x82
  value := [0x42, 0x21, 0x00, 0x1c, 0x0a]
  short := by decide
  descriptor := fun _ => .inr rfl

/-- A response with nothing but this descriptor, without its last byte. -/
def cutDescriptor : CutResponse where
  data := [0x62, 0x07, 0x82, 0x05, 0x42, 0x21, 0x00, 0x1c]
  objects := []
  last := recordDescriptor
  part := [0x82, 0x05, 0x42, 0x21, 0x00, 0x1c]
  size := by decide
  first := rfl
  body := rfl
  isBeginning := ⟨[0x0a], rfl⟩
  isCut := by decide

theorem cut_descriptor_assigned :
    UiccTlvData.Parse cutDescriptor.data (.ok ⟨28, -1, -1, -1⟩)
      ∧ UiccTlvData.Parse cutDescriptor.complete (.ok ⟨-1, -1, -1, -1⟩)
      ∧ ¬UiccTlvData.Agrees ⟨28, -1, -1, -1⟩ ⟨-1, -1, -1, -1⟩ := by
  refine ⟨?_, ?_, fun h => ?_⟩
  · rw [UiccTlvData.Parse, if_neg (by decide)]
    have hround : tlvRound cutDescriptor.data ⟨2, UiccTlvData.new, none⟩
        = some ⟨2, ⟨28, -1, -1, -1⟩, some .arrayIndexOutOfBounds⟩ := by decide +kernel
    exact ⟨_, .round hround loopsTo_thrown, rfl⟩
  · rw [UiccTlvData.Parse, if_neg (by decide)]
    exact ⟨_, loopsTo_end (by decide), rfl⟩
  · exact absurd h.recordSize (by decide)

end HtcLeo
