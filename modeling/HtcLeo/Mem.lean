import Mathlib.Data.Int.Basic
import Mathlib.Logic.Function.Basic
import Mathlib.Tactic.Ring

/-!
# Byte memory around a C array

A C array is modelled as the memory around it: a byte for every signed
offset from the array's first element. An index past either end is then
an ordinary address, so an out-of-bounds access is visible in the model
instead of being cut off by the type, and the bounds of the array are
something to prove.

`slice` reads a range as a list, `write` stores a list at consecutive
addresses. Words are stored most significant byte first, the network
order that `htonl` produces.
-/

namespace HtcLeo

abbrev Byte := BitVec 8

abbrev Word := BitVec 32

/-- The bytes at every offset from the start of an array. -/
abbrev Mem := Int → Byte

namespace Mem

/-- The `n` bytes from offset `i` on. -/
def slice (m : Mem) (i : Int) : Nat → List Byte
  | 0 => []
  | n + 1 => m i :: slice m (i + 1) n

/-- Store the bytes of a list at consecutive offsets from `i`. -/
def write (m : Mem) (i : Int) : List Byte → Mem
  | [] => m
  | b :: bs => write (Function.update m i b) (i + 1) bs

/-! ## Reading a range -/

@[simp] theorem length_slice (m : Mem) (i : Int) (n : Nat) :
    (m.slice i n).length = n := by
  induction n generalizing i with
  | zero => rfl
  | succ n ih => simp [slice, ih]

theorem slice_add (m : Mem) (i : Int) (a b : Nat) :
    m.slice i (a + b) = m.slice i a ++ m.slice (i + a) b := by
  induction a generalizing i with
  | zero => simp [slice]
  | succ a ih =>
      rw [Nat.succ_add, slice, slice, ih, List.cons_append]
      congr 3
      push_cast
      ring

theorem slice_succ_right (m : Mem) (i : Int) (n : Nat) :
    m.slice i (n + 1) = m.slice i n ++ [m (i + n)] := by
  rw [slice_add]; rfl

theorem slice_congr {m m' : Mem} {i : Int} {n : Nat}
    (h : ∀ j, i ≤ j → j < i + n → m j = m' j) : m.slice i n = m'.slice i n := by
  induction n generalizing i with
  | zero => rfl
  | succ n ih =>
      rw [slice, slice, h i (by omega) (by push_cast; omega),
        ih fun j hj hj' => h j (by omega) (by push_cast; omega)]

theorem getElem?_slice {m : Mem} {i : Int} {n k : Nat} (hk : k < n) :
    (m.slice i n)[k]? = some (m (i + k)) := by
  induction n generalizing i k with
  | zero => omega
  | succ n ih =>
      cases k with
      | zero => simp [slice]
      | succ k =>
          rw [slice, List.getElem?_cons_succ, ih (by omega)]
          congr 2
          push_cast
          ring

theorem take_slice {m : Mem} {i : Int} {n k : Nat} (hk : k ≤ n) :
    (m.slice i n).take k = m.slice i k := by
  obtain ⟨d, rfl⟩ := Nat.exists_eq_add_of_le hk
  rw [slice_add, List.take_append_of_le_length (by simp), List.take_of_length_le (by simp)]

theorem drop_slice {m : Mem} {i : Int} {n k : Nat} (hk : k ≤ n) :
    (m.slice i n).drop k = m.slice (i + k) (n - k) := by
  obtain ⟨d, rfl⟩ := Nat.exists_eq_add_of_le hk
  rw [slice_add, List.drop_append_of_le_length (by simp), List.drop_eq_nil_of_le (by simp),
    Nat.add_sub_cancel_left, List.nil_append]

/-- Equal ranges hold equal bytes. -/
theorem eq_of_slice_eq {m m' : Mem} {i : Int} {n : Nat} (h : m.slice i n = m'.slice i n) :
    ∀ j, i ≤ j → j < i + n → m j = m' j := by
  intro j hlo hhi
  obtain ⟨k, rfl⟩ : ∃ k : Nat, j = i + k := ⟨(j - i).toNat, by omega⟩
  have hk : k < n := by omega
  have hget := getElem?_slice (m := m) (i := i) hk
  rw [h, getElem?_slice hk] at hget
  exact (Option.some.inj hget).symm

/-! ## Storing a list -/

theorem write_of_lt {m : Mem} {i j : Int} {bs : List Byte} (h : j < i) :
    m.write i bs j = m j := by
  induction bs generalizing m i with
  | nil => rfl
  | cons b bs ih =>
      rw [write, ih (by omega), Function.update_of_ne (by omega)]

theorem write_of_ge {m : Mem} {i j : Int} {bs : List Byte} (h : i + bs.length ≤ j) :
    m.write i bs j = m j := by
  induction bs generalizing m i with
  | nil => rfl
  | cons b bs ih =>
      rw [List.length_cons] at h
      push_cast at h
      rw [write, ih (by omega), Function.update_of_ne (by omega)]

theorem slice_write (m : Mem) (i : Int) (bs : List Byte) :
    (m.write i bs).slice i bs.length = bs := by
  induction bs generalizing m i with
  | nil => rfl
  | cons b bs ih =>
      rw [List.length_cons, slice, write, ih, write_of_lt (by omega), Function.update_self]

theorem write_append (m : Mem) (i : Int) (as bs : List Byte) :
    m.write i (as ++ bs) = (m.write i as).write (i + as.length) bs := by
  induction as generalizing m i with
  | nil => simp [write]
  | cons a as ih =>
      rw [List.cons_append, write, write, ih, List.length_cons]
      congr 1
      push_cast
      ring

/-- What was stored does not depend on what was there before. -/
theorem write_congr {m m' : Mem} {i j : Int} {bs : List Byte} (hlo : i ≤ j)
    (hhi : j < i + bs.length) : m.write i bs j = m'.write i bs j :=
  eq_of_slice_eq ((slice_write m i bs).trans (slice_write m' i bs).symm) j hlo hhi

theorem write_getElem? {m : Mem} {i : Int} {bs : List Byte} {k : Nat} {b : Byte}
    (h : bs[k]? = some b) : m.write i bs (i + k) = b := by
  have hk : k < bs.length := (List.getElem?_eq_some_iff.mp h).1
  have hget := getElem?_slice (m := m.write i bs) (i := i) hk
  rw [slice_write, h] at hget
  exact (Option.some.inj hget).symm

/-- Appending one byte to the filled prefix of a buffer. -/
theorem slice_update_end (m : Mem) (i : Int) (n : Nat) (b : Byte) :
    slice (Function.update m (i + n) b) i (n + 1) = m.slice i n ++ [b] := by
  rw [slice_succ_right, Function.update_self]
  congr 1
  exact slice_congr fun j _ hj => Function.update_of_ne (by omega) ..

/-! ## Words in network byte order -/

/-- The four bytes of a word, most significant first. -/
def wordBytes (w : Word) : List Byte :=
  [w.extractLsb' 24 8, w.extractLsb' 16 8, w.extractLsb' 8 8, w.extractLsb' 0 8]

/-- `ntohl` of the word at offset `i`. -/
def getWord (m : Mem) (i : Int) : Word :=
  m i ++ m (i + 1) ++ m (i + 2) ++ m (i + 3)

/-- Store `htonl(w)` at offset `i`. -/
def putWord (m : Mem) (i : Int) (w : Word) : Mem :=
  m.write i (wordBytes w)

@[simp] theorem length_wordBytes (w : Word) : (wordBytes w).length = 4 := rfl

theorem append_extract_bytes (w : Word) :
    (w.extractLsb' 24 8 ++ w.extractLsb' 16 8 ++ w.extractLsb' 8 8 ++ w.extractLsb' 0 8 : Word)
      = w := by
  rw [BitVec.extractLsb'_append_extractLsb'_eq_extractLsb' (by rfl),
    BitVec.extractLsb'_append_extractLsb'_eq_extractLsb' (by rfl),
    BitVec.extractLsb'_append_extractLsb'_eq_extractLsb' (by rfl)]
  exact BitVec.extractLsb'_eq_self

/-- A word depends only on its four bytes. -/
theorem getWord_congr {m m' : Mem} {i : Int}
    (h : ∀ j, i ≤ j → j < i + 4 → m j = m' j) : m.getWord i = m'.getWord i := by
  simp only [getWord]
  rw [h i (by omega) (by omega), h (i + 1) (by omega) (by omega),
    h (i + 2) (by omega) (by omega), h (i + 3) (by omega) (by omega)]

/-- The four bytes of a slice determine the word read there. -/
theorem getWord_of_slice {m : Mem} {i : Int} {w : Word}
    (h : m.slice i 4 = wordBytes w) : m.getWord i = w := by
  simp only [slice, wordBytes, List.cons.injEq, and_true] at h
  obtain ⟨h0, h1, h2, h3⟩ := h
  rw [getWord, h0, h1, show i + 2 = i + 1 + 1 by ring, h2,
    show i + 3 = i + 1 + 1 + 1 by ring, h3, append_extract_bytes]

theorem wordBytes_append (a b c d : Byte) : wordBytes (a ++ b ++ c ++ d) = [a, b, c, d] := by
  have hword (start : Nat) : BitVec.extractLsb' start 8 (a ++ b ++ c ++ d : Word)
      = BitVec.extractLsb' start 8 (a ++ b ++ c ++ d : BitVec (8 + 8 + 8 + 8)) := rfl
  simp only [wordBytes, hword, BitVec.extractLsb'_append_eq_ite]
  simp

/-- The four bytes at an offset are those of the word there. -/
theorem slice_getWord (m : Mem) (i : Int) : m.slice i 4 = wordBytes (m.getWord i) := by
  rw [getWord, wordBytes_append]
  simp only [slice, Int.add_assoc]
  rfl

@[simp] theorem getWord_putWord (m : Mem) (i : Int) (w : Word) :
    (m.putWord i w).getWord i = w :=
  getWord_of_slice (slice_write m i (wordBytes w))

theorem putWord_of_ge {m : Mem} {i j : Int} {w : Word} (h : i + 4 ≤ j) :
    m.putWord i w j = m j :=
  write_of_ge (by simpa using h)

end Mem

end HtcLeo
