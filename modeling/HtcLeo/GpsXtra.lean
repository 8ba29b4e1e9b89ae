import Mathlib.Algebra.Order.Group.Nat
import Mathlib.Data.List.Range
import HtcLeo.CInt
import HtcLeo.Mem

/-!
# XTRA data injection (`gps_xtra_inject_xtra_data`)

The assistance data is handed to the modem in parts of 400 bytes. The
loop keeps the part number and the number of parts in a `uint8_t` and
the bytes injected so far in a `uint16_t`, and decides on a last partial
part by testing `total_parts`, not `length`, for a remainder.

`xtraCalls_eq` gives the calls the loop makes in closed form; which
lengths are chunked faithfully is read off it (`xtra_chunking_iff`).
-/

namespace HtcLeo

def xtraBlockSize : Nat := 400

/-- One call of `gps_xtra_set_data`; the data pointer as an offset into the buffer. -/
structure XtraCall where
  offset : Nat
  partLen : Word
  part : Byte
  totalParts : Byte
deriving DecidableEq, Repr

/-- The bytes a call passes. -/
def XtraCall.payload (data : List Byte) (c : XtraCall) : List Byte :=
  (data.drop c.offset).take c.partLen.toNat

/-- `total_parts` as the source computes it. -/
def xtraTotalParts (length : Int) : Byte :=
  let totalParts : Byte := BitVec.ofInt 8 (length.tdiv xtraBlockSize)
  if totalParts.toNat % xtraBlockSize ≠ 0 then totalParts + 1 else totalParts

/-- The part loop from `part` on, with the result so far. A part number is a
byte, so 256 rounds are enough. -/
def xtraLoop (setData : XtraCall → Int) (length : Int) (totalParts : Byte) :
    (fuel : Nat) → (part : Byte) → (lenInjected : BitVec 16) → (retVal : Int) →
      Int × List XtraCall
  | 0, _, _, retVal => (retVal, [])
  | fuel + 1, part, lenInjected, retVal =>
      if part ≤ totalParts then
        let left := length - (lenInjected.toNat : Int)
        let partLen : Word :=
          if (xtraBlockSize : Int) > left then BitVec.ofInt 32 left
          else BitVec.ofNat 32 xtraBlockSize
        let call : XtraCall := ⟨lenInjected.toNat, partLen, part, totalParts⟩
        if part < totalParts then
          if setData call = -1 then (einval, [call])
          else
            let (ret, calls) := xtraLoop setData length totalParts fuel (part + 1)
              (lenInjected + partLen.setWidth 16) retVal
            (ret, call :: calls)
        else (setData call, [call])
      else (retVal, [])

/-- The return value, and the calls made on the way; `init` is the HAL state. -/
def gpsXtraInjectXtraData (init : Bool) (setData : XtraCall → Int) (length : Int) :
    Int × List XtraCall :=
  if init then xtraLoop setData length (xtraTotalParts length) 256 1 0 (-1) else (0, [])

/-! ## The calls in closed form -/

/-- Call number `j` (from 0) for `k` full blocks and `length` bytes. -/
def xtraCall (length k : Nat) (j : Nat) : XtraCall where
  offset := 400 * j % 65536
  partLen := BitVec.ofNat 32 (if j < k ∨ 65536 ≤ 400 * k then 400 else length - 400 * k)
  part := BitVec.ofNat 8 (j + 1)
  totalParts := BitVec.ofNat 8 (k + 1)

theorem xtraTotalParts_eq {length k : Nat} (hk : length / 400 = k) (hk1 : 1 ≤ k)
    (hk2 : k ≤ 255) : xtraTotalParts length = BitVec.ofNat 8 (k + 1) := by
  have hdiv : (length : Int).tdiv (xtraBlockSize : Nat) = k := by
    rw [xtraBlockSize, ← hk, Int.tdiv_eq_ediv_of_nonneg (by omega)]
    omega
  have hto : (BitVec.ofInt 8 (k : Int)).toNat = k := by
    rw [BitVec.ofInt_natCast, BitVec.toNat_ofNat, Nat.mod_eq_of_lt (by omega)]
  rw [xtraTotalParts, hdiv]
  simp only [hto, xtraBlockSize]
  rw [if_pos (by omega)]
  apply BitVec.eq_of_toNat_eq
  rw [BitVec.toNat_add, hto, BitVec.toNat_ofNat]
  rfl

/-- Below one block the loop runs no round. -/
theorem xtraTotalParts_zero {length : Nat} (h : length < 400) : xtraTotalParts length = 0 := by
  have hdiv : (length : Int).tdiv (xtraBlockSize : Nat) = 0 := by
    rw [xtraBlockSize, Int.tdiv_eq_ediv_of_nonneg (by omega)]
    omega
  rw [xtraTotalParts, hdiv]
  rfl

/-- Where a part has 400 bytes, they are inside the buffer. -/
theorem xtraBlock_inside {length k j : Nat} (hk : length / 400 = k) (hk2 : k ≤ 254) (hj : j ≤ k)
    (hfull : j < k ∨ 65536 ≤ 400 * k) : 400 * j % 65536 + 400 ≤ length := by
  have hle := Nat.mod_le (400 * j) 65536
  rcases Nat.lt_or_ge j k with hjk | hjk
  · omega
  · have hwrap : 400 * j % 65536 = 400 * j - 65536 := by omega
    omega

/-- The length the loop computes for part `j`. -/
theorem xtraPartLen_eq {length k j : Nat} (hk : length / 400 = k) (hk2 : k ≤ 254) (hj : j ≤ k) :
    (if (xtraBlockSize : Int) > (length : Int) - ((400 * j % 65536 : Nat) : Int)
      then BitVec.ofInt 32 ((length : Int) - ((400 * j % 65536 : Nat) : Int))
      else BitVec.ofNat 32 xtraBlockSize)
      = BitVec.ofNat 32 (if j < k ∨ 65536 ≤ 400 * k then 400 else length - 400 * k) := by
  rw [xtraBlockSize]
  by_cases hfull : j < k ∨ 65536 ≤ 400 * k
  · have hleft := xtraBlock_inside hk hk2 hj hfull
    rw [if_neg (by omega), if_pos hfull]
  · have hoff : 400 * j % 65536 = 400 * k := by omega
    rw [if_pos (by omega), if_neg hfull, hoff, ← BitVec.ofInt_natCast]
    congr 1
    omega

/-- The loop from part `j + 1` on. The induction is on the parts left; every
part but the last has 400 bytes, so the 16-bit count is `400 * j` reduced. -/
theorem xtraLoop_eq {setData : XtraCall → Int} (hset : ∀ c, setData c ≠ -1) {length k : Nat}
    (hk : length / 400 = k) (hk2 : k ≤ 254) {n j fuel : Nat} (hn : j + n = k)
    (hfuel : n < fuel) (ret : Int) :
    (xtraLoop setData length (BitVec.ofNat 8 (k + 1)) fuel (BitVec.ofNat 8 (j + 1))
      (BitVec.ofNat 16 (400 * j)) ret).2 = (List.range' j (n + 1)).map (xtraCall length k) := by
  induction n generalizing j fuel with
  | zero =>
      obtain ⟨fuel, rfl⟩ := Nat.exists_eq_add_of_lt hfuel
      obtain rfl : j = k := by omega
      rw [Nat.zero_add, xtraLoop, if_pos (BitVec.le_refl _)]
      simp only [BitVec.lt_irrefl, if_false, BitVec.toNat_ofNat]
      rw [show (400 * j) % 2 ^ 16 = 400 * j % 65536 from rfl, xtraPartLen_eq hk hk2 (le_refl _)]
      rfl
  | succ n ih =>
      obtain ⟨fuel, rfl⟩ := Nat.exists_eq_add_of_lt hfuel
      have hlt : BitVec.ofNat 8 (j + 1) < BitVec.ofNat 8 (k + 1) := by
        rw [BitVec.lt_def, BitVec.toNat_ofNat, BitVec.toNat_ofNat]
        omega
      have hpart : BitVec.ofNat 8 (j + 1) + 1 = BitVec.ofNat 8 (j + 1 + 1) := by
        apply BitVec.eq_of_toNat_eq
        simp
      have hlen : BitVec.ofNat 16 (400 * j) + (BitVec.ofNat 32 400).setWidth 16
          = BitVec.ofNat 16 (400 * (j + 1)) := by
        apply BitVec.eq_of_toNat_eq
        simp
        omega
      have hfull : j < k ∨ 65536 ≤ 400 * k := Or.inl (by omega)
      rw [xtraLoop, if_pos (BitVec.le_of_lt hlt)]
      simp only [hlt, if_true, hset, if_false, BitVec.toNat_ofNat]
      rw [show (400 * j) % 2 ^ 16 = 400 * j % 65536 from rfl,
        xtraPartLen_eq hk hk2 (by omega), if_pos hfull, hpart, hlen,
        ih (by omega) (by omega), List.range'_succ, List.map_cons, List.range'_succ,
        List.map_cons]
      simp [xtraCall, hfull, List.range'_succ]

/-- The calls for one to 254 full blocks. -/
theorem xtraCalls_eq {setData : XtraCall → Int} (hset : ∀ c, setData c ≠ -1) {length k : Nat}
    (hk : length / 400 = k) (hk1 : 1 ≤ k) (hk2 : k ≤ 254) :
    (gpsXtraInjectXtraData true setData length).2
      = (List.range' 0 (k + 1)).map (xtraCall length k) := by
  rw [gpsXtraInjectXtraData, if_pos rfl, xtraTotalParts_eq hk hk1 (by omega)]
  exact xtraLoop_eq hset hk hk2 (Nat.zero_add k) (by omega) (-1)

/-- With `total_parts` 0 nothing is sent. -/
theorem xtraCalls_nil {setData : XtraCall → Int} {length : Int}
    (h : xtraTotalParts length = 0) : (gpsXtraInjectXtraData true setData length).2 = [] := by
  rw [gpsXtraInjectXtraData, if_pos rfl, h]
  rfl

/-! ## Faithful chunking -/

/-- The calls carry the buffer in `⌈length / 400⌉` numbered parts: the part
numbers in order, the same total in each, between 1 and 400 bytes inside the
buffer per part, and the payloads together are the buffer. -/
structure FaithfulChunking (data : List Byte) (calls : List XtraCall) : Prop where
  parts : calls.map (fun c => c.part.toNat) = List.range' 1 ((data.length + 399) / 400)
  total : ∀ c ∈ calls, c.totalParts.toNat = (data.length + 399) / 400
  size : ∀ c ∈ calls, 1 ≤ c.partLen.toNat ∧ c.partLen.toNat ≤ 400
  inside : ∀ c ∈ calls, c.offset + c.partLen.toNat ≤ data.length
  whole : (calls.map (XtraCall.payload data)).flatten = data

/-- The lengths the 16-bit byte count and the remainder test handle. -/
def XtraLengthOk (length : Nat) : Prop :=
  400 < length ∧ length < 65600 ∧ length % 400 ≠ 0

theorem xtraCall_partLen_toNat {length k j : Nat} (hk : length / 400 = k) :
    (xtraCall length k j).partLen.toNat
      = if j < k ∨ 65536 ≤ 400 * k then 400 else length - 400 * k := by
  rw [xtraCall, BitVec.toNat_ofNat]
  split
  · rfl
  · exact Nat.mod_eq_of_lt (by omega)

/-- Without wrapping the payloads from part `j` on are the rest of the buffer. -/
theorem flatten_payload {data : List Byte} {k n j : Nat} (hk : data.length / 400 = k)
    (hk2 : 400 * k < 65536) (hn : j + n = k) :
    (((List.range' j (n + 1)).map (xtraCall data.length k)).map
      (XtraCall.payload data)).flatten = data.drop (400 * j) := by
  induction n generalizing j with
  | zero =>
      obtain rfl : j = k := by omega
      have hlen : (data.drop (400 * j)).length ≤ data.length - 400 * j := by simp
      rw [Nat.zero_add, List.range'_one, List.map_singleton, List.map_singleton,
        List.flatten_singleton, XtraCall.payload, xtraCall_partLen_toNat hk, if_neg (by omega),
        xtraCall,
        Nat.mod_eq_of_lt (by omega), List.take_of_length_le hlen]
  | succ n ih =>
      rw [List.range'_succ, List.map_cons, List.map_cons, List.flatten_cons, ih (by omega),
        XtraCall.payload, xtraCall_partLen_toNat hk, if_pos (Or.inl (by omega)), xtraCall,
        Nat.mod_eq_of_lt (by omega), show 400 * (j + 1) = 400 * j + 400 by ring,
        ← List.drop_drop, List.take_append_drop]

/-- Once the byte count wraps, every part has 400 bytes. -/
theorem length_payload_wrapped {data : List Byte} {k j : Nat} (hk : data.length / 400 = k)
    (hk2 : k ≤ 254) (hwrap : 65536 ≤ 400 * k) (hj : j ≤ k) :
    (XtraCall.payload data (xtraCall data.length k j)).length = 400 := by
  have hin := xtraBlock_inside hk hk2 hj (Or.inr hwrap)
  rw [XtraCall.payload, xtraCall_partLen_toNat hk, if_pos (Or.inr hwrap), List.length_take,
    List.length_drop]
  exact Nat.min_eq_left (Nat.le_sub_of_add_le (Nat.add_comm _ _ ▸ hin))

theorem faithful_of_lengthOk {data : List Byte} {k : Nat} (hk : data.length / 400 = k)
    (h : XtraLengthOk data.length) :
    FaithfulChunking data ((List.range' 0 (k + 1)).map (xtraCall data.length k)) := by
  obtain ⟨hlo, hhi, hmod⟩ := h
  have hceil : (data.length + 399) / 400 = k + 1 := by omega
  refine ⟨?_, ?_, ?_, ?_, by
    rw [flatten_payload hk (by omega) (Nat.zero_add k), Nat.mul_zero, List.drop_zero]⟩
  · rw [List.map_map, hceil, show List.range' 1 (k + 1) = (List.range' 0 (k + 1)).map (1 + ·) by
      rw [List.map_add_range']]
    refine List.map_congr_left fun j hj => ?_
    rw [List.mem_range'_1] at hj
    rw [Function.comp_apply, xtraCall, BitVec.toNat_ofNat]
    omega
  all_goals
    intro c hc
    obtain ⟨j, hj, rfl⟩ := List.mem_map.mp hc
    rw [List.mem_range'_1] at hj
  · rw [hceil, xtraCall, BitVec.toNat_ofNat]
    omega
  · rw [xtraCall_partLen_toNat hk]
    split <;> omega
  · rw [xtraCall_partLen_toNat hk, xtraCall]
    simp only
    split <;> omega

/-- **XTRA chunking.** With the HAL initialised and every part accepted, a
buffer of 1 to 102000 bytes is chunked faithfully exactly when it is longer
than one block, shorter than 65600 bytes and not a whole number of blocks. -/
theorem xtra_chunking_iff (data : List Byte) (hlo : 1 ≤ data.length)
    (hhi : data.length ≤ 102000) (setData : XtraCall → Int) (hset : ∀ c, setData c ≠ -1) :
    FaithfulChunking data (gpsXtraInjectXtraData true setData data.length).2 ↔
      XtraLengthOk data.length := by
  have hne : data ≠ [] := List.ne_nil_of_length_pos hlo
  -- nothing sent is never the whole buffer
  have hnil : ¬FaithfulChunking data [] := fun h => hne h.whole.symm
  obtain ⟨k, hk⟩ : ∃ k, data.length / 400 = k := ⟨_, rfl⟩
  rcases Nat.eq_zero_or_pos k with hk0 | hk1
  · rw [xtraCalls_nil (xtraTotalParts_zero (by omega))]
    exact iff_of_false hnil (fun h => by have := h.1; omega)
  rcases Nat.lt_or_ge 254 k with hk255 | hk254
  · obtain rfl : k = 255 := by omega
    rw [xtraCalls_nil ((xtraTotalParts_eq hk (by omega) (le_refl _)).trans rfl)]
    exact iff_of_false hnil (fun h => by have := h.2.1; omega)
  rw [xtraCalls_eq hset hk hk1 hk254]
  refine ⟨fun h => ?_, faithful_of_lengthOk hk⟩
  have hmod : data.length % 400 ≠ 0 := by
    intro hmod
    have htotal := h.total (xtraCall data.length k 0)
      (List.mem_map.mpr ⟨0, by simp [List.mem_range'_1], rfl⟩)
    rw [xtraCall, BitVec.toNat_ofNat] at htotal
    omega
  refine ⟨by omega, ?_, hmod⟩
  by_contra hlong
  -- all parts have 400 bytes, so the payloads are a whole number of blocks
  have hlen := congrArg List.length h.whole
  have hall : (((List.range' 0 (k + 1)).map (xtraCall data.length k)).map
      (XtraCall.payload data)).map List.length = List.replicate (k + 1) 400 := by
    rw [List.map_map, List.map_map, List.eq_replicate_iff]
    refine ⟨by simp, fun n hn => ?_⟩
    obtain ⟨j, hj, rfl⟩ := List.mem_map.mp hn
    rw [List.mem_range'_1] at hj
    exact length_payload_wrapped hk hk254 (by omega) (by omega)
  rw [List.length_flatten, hall, List.sum_replicate_nat] at hlen
  omega

/-- A buffer of 401 bytes goes out in two parts. -/
theorem xtra_chunking_401 :
    XtraLengthOk (List.replicate 401 (0 : Byte)).length ∧
      FaithfulChunking (List.replicate 401 (0 : Byte))
        (gpsXtraInjectXtraData true (fun _ => 0) (List.replicate 401 (0 : Byte)).length).2 := by
  have hok : XtraLengthOk (List.replicate 401 (0 : Byte)).length := by
    rw [List.length_replicate]; exact ⟨by decide, by decide, by decide⟩
  refine ⟨hok, (xtra_chunking_iff _ ?_ ?_ (fun _ => 0) ?_).mpr hok⟩
  · rw [List.length_replicate]; decide
  · rw [List.length_replicate]; decide
  · intro _; decide

/-- A buffer of one block is announced as two parts, the second one empty. -/
theorem xtra_one_block_misnumbered :
    (gpsXtraInjectXtraData true (fun _ => 0) (List.replicate 400 (0 : Byte)).length).2
        = [⟨0, 400, 1, 2⟩, ⟨400, 0, 2, 2⟩]
      ∧ ¬FaithfulChunking (List.replicate 400 (0 : Byte))
        (gpsXtraInjectXtraData true (fun _ => 0) (List.replicate 400 (0 : Byte)).length).2 := by
  have hcalls : (gpsXtraInjectXtraData true (fun _ => 0) (List.replicate 400 (0 : Byte)).length).2
      = [⟨0, 400, 1, 2⟩, ⟨400, 0, 2, 2⟩] := by
    rw [List.length_replicate]; decide +kernel
  refine ⟨hcalls, fun h => ?_⟩
  rw [hcalls] at h
  have := (h.size ⟨400, 0, 2, 2⟩ (by simp)).1
  exact absurd this (by decide)

end HtcLeo
