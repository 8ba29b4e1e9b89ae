import HtcLeo.CInt
import HtcLeo.Loops
import HtcLeo.Mem

/-!
# Responses of a SIM (`frameworks_opt`, `UiccTlvData.java`)

A SIM describes a file in tag-length-value objects. `parse` goes through
them and keeps what it finds in the fields of a `UiccTlvData`; a read past
the end of the array throws, which ends the loop with the fields as they
are then. The model is that of the class with both patches applied, where
every tag but two is skipped.

The fields are the state of `TlvM`, which keeps them when an exception is
thrown: what a method assigned before it threw stays assigned. An `int`
location wraps around, also where it leads past the end of a large array;
a negative index throws like one that is too large.
-/

namespace HtcLeo

/-! ## The code -/

inductive JavaException where
  | arrayIndexOutOfBounds
  | iccFileTypeMismatch
deriving DecidableEq, Repr

structure UiccTlvData where
  mRecordSize : Int
  mFileSize : Int
  mNumRecords : Int
  mFileType : Int
deriving DecidableEq, Repr

namespace UiccTlvData

def tlvFormatId : Int := 0x62

def tagFileDescriptor : Int := 0x82

def tagFileSize : Int := 0x80

def type5 : Int := 5

def type2 : Int := 2

/-- The constructor. -/
def new : UiccTlvData := ⟨-1, -1, -1, -1⟩

def isIncomplete (t : UiccTlvData) : Bool :=
  t.mNumRecords = -1 || t.mFileSize = -1 || t.mRecordSize = -1 || t.mFileType = -1

end UiccTlvData

/-- A method of the class: it may throw, and keeps what it assigned before. -/
abbrev TlvM := EStateM JavaException UiccTlvData

section Methods

variable (data : List Byte)

/-- `data[i] & 0xFF`. -/
def load (i : Int) : TlvM Int :=
  if 0 ≤ i ∧ i < data.length then pure (data.getD i.toNat 0).toNat
  else throw .arrayIndexOutOfBounds

/-- `x << d`, where the five low bits of the distance count. -/
def shiftLeft (x d : Int) : Int := wrap32 (x * 2 ^ (d % 32).toNat)

/-- The loop of `parseFileSize`: `n` rounds are left, the next one for `i`. -/
def addBytes (currentLocation length : Int) : (n : Nat) → (i fileSize : Int) → TlvM Int
  | 0, _, fileSize => pure fileSize
  | n + 1, i, fileSize => do
      let b ← load data (wrap32 (currentLocation + i))
      addBytes currentLocation length n (i + 1)
        (wrap32 (fileSize + shiftLeft b (8 * (length - i - 1))))

def parseFileSize (currentLocation : Int) : TlvM Int := do
  let length ← load data currentLocation
  let currentLocation := wrap32 (currentLocation + 1)
  let fileSize ← addBytes data currentLocation length length.toNat 0 0
  modify fun t => { t with
    mFileSize := fileSize
    mRecordSize := if t.mFileType = UiccTlvData.type2 then fileSize else t.mRecordSize }
  return wrap32 (currentLocation + length)

def parseSomeTag (currentLocation : Int) : TlvM Int := do
  let length ← load data currentLocation
  let currentLocation := wrap32 (currentLocation + 1)
  return wrap32 (currentLocation + length)

def parseFileDescriptor (currentLocation : Int) : TlvM Int := do
  let length ← load data currentLocation
  let currentLocation := wrap32 (currentLocation + 1)
  if length = 5 then
    let high ← load data (wrap32 (currentLocation + 2))
    let low ← load data (wrap32 (currentLocation + 3))
    modify fun t => { t with mRecordSize := wrap32 (shiftLeft high 8 + low) }
    let numRecords ← load data (wrap32 (currentLocation + 4))
    modify fun t => { t with mNumRecords := numRecords }
    modify fun t => { t with mFileSize := wrap32 (t.mRecordSize * t.mNumRecords) }
    modify fun t => { t with mFileType := UiccTlvData.type5 }
    return wrap32 (currentLocation + 5)
  else if length = 2 then
    let _descriptorByte ← load data (wrap32 (currentLocation + 1))
    modify fun t => { t with mNumRecords := 1 }
    modify fun t => { t with mFileType := UiccTlvData.type2 }
    return wrap32 (currentLocation + 2)
  else throw .iccFileTypeMismatch

/-- The body of the loop of `parse`. The tags that the source lists and skips and those it
does not know are handled alike, up to a line in the log. -/
def parseTag (currentLocation : Int) : TlvM Int := do
  let currentTag ← load data currentLocation
  let currentLocation := wrap32 (currentLocation + 1)
  if currentTag = UiccTlvData.tagFileDescriptor then parseFileDescriptor data currentLocation
  else if currentTag = UiccTlvData.tagFileSize then parseFileSize data currentLocation
  else parseSomeTag data currentLocation

end Methods

structure TlvLoop where
  currentLocation : Int
  parsedData : UiccTlvData
  /-- What ended the loop, if it was an exception. -/
  thrown : Option JavaException
deriving DecidableEq, Repr

def tlvRound (data : List Byte) (s : TlvLoop) : Option TlvLoop :=
  if s.thrown = none ∧ s.currentLocation < data.length then
    match parseTag data s.currentLocation s.parsedData with
    | .ok currentLocation t => some ⟨currentLocation, t, none⟩
    | .error e t => some ⟨s.currentLocation, t, some e⟩
  else none

/-- The `try` around the loop: an index out of bounds is ignored. -/
def TlvLoop.result (s : TlvLoop) : Except JavaException UiccTlvData :=
  match s.thrown with
  | none => .ok s.parsedData
  | some .arrayIndexOutOfBounds => .ok s.parsedData
  | some .iccFileTypeMismatch => .error .iccFileTypeMismatch

/-- `UiccTlvData.parse(data)` ends with `res`: the object it returns, or an exception. -/
def UiccTlvData.Parse (data : List Byte) (res : Except JavaException UiccTlvData) : Prop :=
  if data.length = 0 ∨ tlvFormatId ≠ ((data.getD 0 0).toNat : Int) then
    res = .error .iccFileTypeMismatch
  else ∃ s, LoopsTo (tlvRound data) ⟨2, UiccTlvData.new, none⟩ s ∧ s.result = res

/-! ## Methods that throw -/

section Throwing

variable {ε σ α β : Type} {x : EStateM ε σ α} {f : α → EStateM ε σ β} {s s' : σ}

theorem bind_ok {a : α} (h : x s = .ok a s') : (x >>= f) s = f a s' := by
  show EStateM.bind x f s = f a s'
  rw [EStateM.bind, h]

theorem bind_error {e : ε} (h : x s = .error e s') : (x >>= f) s = .error e s' := by
  show EStateM.bind x f s = .error e s'
  rw [EStateM.bind, h]

theorem bind_modify (g : σ → σ) (f : PUnit → EStateM ε σ β) (s : σ) :
    ((modify g : EStateM ε σ PUnit) >>= f) s = f ⟨⟩ (g s) :=
  rfl

end Throwing

/-! ## Reading the array -/

section Reading

variable {data : List Byte} {t : UiccTlvData} {loc : Nat} {n : Byte} {v : List Byte}

theorem load_lt {i : Nat} (hi : i < data.length) : load data i t = .ok (data.getD i 0).toNat t := by
  rw [load, if_pos ⟨by omega, by omega⟩, Int.toNat_natCast]
  rfl

theorem load_out {i : Int} (hi : i < 0 ∨ data.length ≤ i) :
    load data i t = .error .arrayIndexOutOfBounds t := by
  rw [load, if_neg (by omega)]
  rfl

/-- Past the largest `int` an index is negative, and past the end of the array as well. -/
theorem load_wrap_out (hsize : data.length < 2 ^ 31) {i : Nat} (hlo : data.length ≤ i)
    (hhi : i < 2 ^ 32) : load data (wrap32 i) t = .error .arrayIndexOutOfBounds t := by
  apply load_out
  rw [wrap32, Int.bmod_def]
  split <;> omega

theorem length_of_drop (hp : data.drop loc = n :: v) : loc + 1 + v.length = data.length := by
  have hlen := congrArg List.length hp
  rw [List.length_drop, List.length_cons] at hlen
  omega

theorem drop_next (hp : data.drop loc = n :: v) : data.drop (loc + 1) = v := by
  rw [← List.drop_drop, hp]
  rfl

theorem next_location (hsize : data.length < 2 ^ 31) (hp : data.drop loc = n :: v) :
    wrap32 ((loc : Int) + 1) = ((loc + 1 : Nat) : Int) := by
  have hlen := length_of_drop hp
  rw [wrap32_eq (by omega) (by omega)]
  rfl

theorem load_head (hp : data.drop loc = n :: v) : load data loc t = .ok n.toNat t := by
  have hlen := length_of_drop hp
  have hn : data.getD loc 0 = n := by
    rw [List.getD_eq_getElem?_getD, ← Nat.add_zero loc, ← List.getElem?_drop, hp]
    rfl
  rw [load_lt (by omega), hn]

theorem load_end (hp : data.drop loc = []) : load data loc t = .error .arrayIndexOutOfBounds t :=
  load_out (.inr (by exact_mod_cast List.drop_eq_nil_iff.mp hp))

/-- Byte `j` behind the length byte. -/
theorem load_value (hsize : data.length < 2 ^ 31) (hp : data.drop loc = n :: v) {i : Int} {j : Nat}
    (hi : i = j) (hj : j < v.length) (t : UiccTlvData) :
    load data (wrap32 (((loc + 1 : Nat) : Int) + i)) t = .ok (v.getD j 0).toNat t := by
  have hlen := length_of_drop hp
  have hv : data.getD (loc + 1 + j) 0 = v.getD j 0 := by
    rw [List.getD_eq_getElem?_getD, List.getD_eq_getElem?_getD, ← List.getElem?_drop, drop_next hp]
  rw [hi, ← Int.natCast_add, wrap32_eq (by omega) (by omega), load_lt (by omega), hv]

theorem load_value_end (hsize : data.length < 2 ^ 31) (hp : data.drop loc = n :: v) {i : Int}
    (hlo : v.length ≤ i) (hhi : i < 256) (t : UiccTlvData) :
    load data (wrap32 (((loc + 1 : Nat) : Int) + i)) t = .error .arrayIndexOutOfBounds t := by
  have hlen := length_of_drop hp
  obtain ⟨j, rfl⟩ := Int.eq_ofNat_of_zero_le (show 0 ≤ i by omega)
  rw [← Int.natCast_add, load_wrap_out hsize (by omega) (by omega)]

end Reading

/-! ## The methods on what is left of the array -/

/-- The number in the bytes of a size, as the loop adds it up. -/
def sizeFrom (fileSize : Int) : List Byte → Int
  | [] => fileSize
  | b :: rest => sizeFrom (wrap32 (fileSize + shiftLeft b.toNat (8 * rest.length))) rest

/-- The record length in the value of a descriptor. -/
def recordLengthOf (v : List Byte) : Int := 256 * (v.getD 2 0).toNat + (v.getD 3 0).toNat

section Methods

variable {data : List Byte} {t : UiccTlvData} {loc : Nat} {n : Byte} {v : List Byte}

theorem parseSomeTag_cons (hsize : data.length < 2 ^ 31) (hp : data.drop loc = n :: v) :
    parseSomeTag data loc t = .ok (wrap32 (((loc + 1 : Nat) : Int) + n.toNat)) t := by
  rw [parseSomeTag, bind_ok (load_head hp), next_location hsize hp]
  rfl

theorem addBytes_ok {l : Int}
    (hload : ∀ j < v.length, load data (wrap32 (l + (j : Nat))) t = .ok (v.getD j 0).toNat t)
    {length i k : Nat} (hk : i + k = length) (hlen : length ≤ v.length) (fileSize : Int) :
    addBytes data l length k i fileSize t = .ok (sizeFrom fileSize ((v.drop i).take k)) t := by
  induction k generalizing i fileSize with
  | zero => rfl
  | succ k ih =>
      have hi : i < v.length := by omega
      have hdrop : v.drop i = v.getD i 0 :: v.drop (i + 1) := by
        rw [List.drop_eq_getElem_cons hi, List.getD_eq_getElem?_getD, List.getElem?_eq_getElem hi]
        rfl
      have hshift : (8 : Int) * ((length : Int) - i - 1)
          = 8 * (((v.drop (i + 1)).take k).length : Int) := by
        rw [List.length_take, List.length_drop]
        omega
      rw [addBytes, bind_ok (hload i hi), hshift, hdrop, List.take_succ_cons, sizeFrom]
      exact ih (i := i + 1) (by omega) _

theorem addBytes_error {l : Int}
    (hload : ∀ j < v.length, load data (wrap32 (l + (j : Nat))) t = .ok (v.getD j 0).toNat t)
    (hend : load data (wrap32 (l + (v.length : Nat))) t = .error .arrayIndexOutOfBounds t)
    {length i k : Nat} (hk : i + k = length) (hlen : v.length < length) (hi : i ≤ v.length)
    (fileSize : Int) :
    addBytes data l length k i fileSize t = .error .arrayIndexOutOfBounds t := by
  induction k generalizing i fileSize with
  | zero => omega
  | succ k ih =>
      by_cases hlast : i = v.length
      · rw [addBytes, hlast, bind_error hend]
      · rw [addBytes, bind_ok (hload i (by omega))]
        exact ih (i := i + 1) (by omega) (by omega) _

theorem parseFileSize_ok (hsize : data.length < 2 ^ 31) (hp : data.drop loc = n :: v)
    (hn : n.toNat ≤ v.length) :
    parseFileSize data loc t = .ok (wrap32 (((loc + 1 : Nat) : Int) + n.toNat))
      { t with
        mFileSize := sizeFrom 0 (v.take n.toNat)
        mRecordSize := if t.mFileType = 2 then sizeFrom 0 (v.take n.toNat) else t.mRecordSize } := by
  have hadd := addBytes_ok (fun j hj => load_value hsize hp rfl hj t) (Nat.zero_add _) hn 0
  rw [Int.natCast_zero, List.drop_zero] at hadd
  rw [parseFileSize, bind_ok (load_head hp), next_location hsize hp, Int.toNat_natCast, bind_ok hadd]
  rfl

/-- Nothing is assigned before the last byte is read. -/
theorem parseFileSize_error (hsize : data.length < 2 ^ 31) (hp : data.drop loc = n :: v)
    (hn : v.length < n.toNat) :
    parseFileSize data loc t = .error .arrayIndexOutOfBounds t := by
  have hbyte := n.isLt
  have hadd := addBytes_error (fun j hj => load_value hsize hp rfl hj t)
    (load_value_end hsize hp (le_refl _) (by omega) t) (Nat.zero_add _) hn (Nat.zero_le _) 0
  rw [parseFileSize, bind_ok (load_head hp), next_location hsize hp, Int.toNat_natCast]
  exact bind_error hadd

/-- `((high & 0xFF) << 8) + (low & 0xFF)`. -/
theorem recordSize_eq (high low : Byte) :
    wrap32 (shiftLeft high.toNat 8 + low.toNat) = 256 * high.toNat + low.toNat := by
  have hhigh := high.isLt
  have hlow := low.isLt
  have hshift : shiftLeft high.toNat 8 = (high.toNat : Int) * 256 := by
    rw [shiftLeft, show (2 : Int) ^ ((8 : Int) % 32).toNat = 256 from rfl,
      wrap32_eq (by omega) (by omega)]
  rw [hshift, wrap32_eq (by omega) (by omega)]
  omega

theorem parseFileDescriptor_five (hsize : data.length < 2 ^ 31) (hp : data.drop loc = n :: v)
    (hn : n.toNat = 5) (hv : 5 ≤ v.length) :
    parseFileDescriptor data loc t = .ok (wrap32 (((loc + 1 : Nat) : Int) + 5))
      ⟨recordLengthOf v, wrap32 (recordLengthOf v * (v.getD 4 0).toNat), (v.getD 4 0).toNat, 5⟩ := by
  have h2 := load_value hsize hp (i := 2) (j := 2) rfl (by omega)
  have h3 := load_value hsize hp (i := 3) (j := 3) rfl (by omega)
  have h4 := load_value hsize hp (i := 4) (j := 4) rfl (by omega)
  rw [parseFileDescriptor, bind_ok (load_head hp), next_location hsize hp, if_pos (by omega),
    bind_ok (h2 _), bind_ok (h3 _), recordSize_eq, bind_modify, bind_ok (h4 _), bind_modify,
    bind_modify, bind_modify]
  dsimp only
  rfl

/-- All but the last byte: the record length is assigned. -/
theorem parseFileDescriptor_four (hsize : data.length < 2 ^ 31) (hp : data.drop loc = n :: v)
    (hn : n.toNat = 5) (hv : v.length = 4) :
    parseFileDescriptor data loc t
      = .error .arrayIndexOutOfBounds { t with mRecordSize := recordLengthOf v } := by
  have h2 := load_value hsize hp (i := 2) (j := 2) rfl (by omega)
  have h3 := load_value hsize hp (i := 3) (j := 3) rfl (by omega)
  have h4 := load_value_end hsize hp (i := 4) (by omega) (by decide)
  rw [parseFileDescriptor, bind_ok (load_head hp), next_location hsize hp, if_pos (by omega),
    bind_ok (h2 _), bind_ok (h3 _), recordSize_eq, bind_modify, bind_error (h4 _)]
  rfl

theorem parseFileDescriptor_less (hsize : data.length < 2 ^ 31) (hp : data.drop loc = n :: v)
    (hn : n.toNat = 5) (hv : v.length < 4) :
    parseFileDescriptor data loc t = .error .arrayIndexOutOfBounds t := by
  rw [parseFileDescriptor, bind_ok (load_head hp), next_location hsize hp, if_pos (by omega)]
  by_cases h3 : v.length = 3
  · have h2 := load_value hsize hp (i := 2) (j := 2) rfl (by omega) t
    have hend := load_value_end hsize hp (i := 3) (by omega) (by decide) t
    rw [bind_ok h2, bind_error hend]
  · have hend := load_value_end hsize hp (i := 2) (by omega) (by decide) t
    rw [bind_error hend]

theorem parseFileDescriptor_two (hsize : data.length < 2 ^ 31) (hp : data.drop loc = n :: v)
    (hn : n.toNat = 2) (hv : 2 ≤ v.length) :
    parseFileDescriptor data loc t = .ok (wrap32 (((loc + 1 : Nat) : Int) + 2))
      { t with mNumRecords := 1, mFileType := 2 } := by
  have h1 := load_value hsize hp (i := 1) (j := 1) rfl (by omega) t
  rw [parseFileDescriptor, bind_ok (load_head hp), next_location hsize hp, if_neg (by omega),
    if_pos (by omega), bind_ok h1]
  rfl

theorem parseFileDescriptor_one (hsize : data.length < 2 ^ 31) (hp : data.drop loc = n :: v)
    (hn : n.toNat = 2) (hv : v.length < 2) :
    parseFileDescriptor data loc t = .error .arrayIndexOutOfBounds t := by
  have hend := load_value_end hsize hp (i := 1) (by omega) (by decide) t
  rw [parseFileDescriptor, bind_ok (load_head hp), next_location hsize hp, if_neg (by omega),
    if_pos (by omega), bind_error hend]

end Methods

end HtcLeo
