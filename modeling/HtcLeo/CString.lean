import Mathlib.Data.List.TakeWhile
import HtcLeo.Mem

/-!
# Strings of the C library

Functions of `string.h`, `stdlib.h` and `stdio.h` on the characters of a
string, given without its terminating NUL. `atoi` is the library's: blanks,
a sign, digits, and the nearest `int` for a number that is none; on the
target it is a `strtol` with a 32-bit `long`.
-/

namespace HtcLeo

/-- The string at the start of some memory: up to the first NUL. -/
def cstr (s : List Byte) : List Byte := s.takeWhile (· ≠ 0)

theorem cstr_zero_cons (s : List Byte) : cstr (0 :: s) = [] :=
  List.takeWhile_cons_of_neg (by decide)

theorem cstr_cons {b : Byte} (hb : b ≠ 0) (s : List Byte) : cstr (b :: s) = b :: cstr s :=
  List.takeWhile_cons_of_pos (by simpa using hb)

theorem cstr_eq_self {s : List Byte} (h : (0 : Byte) ∉ s) : cstr s = s := by
  induction s with
  | nil => rfl
  | cons b s ih =>
      rw [List.mem_cons, not_or] at h
      rw [cstr_cons (Ne.symm h.1), ih h.2]

/-- What stands behind the NUL does not matter. -/
theorem cstr_append_zero (s rest : List Byte) : cstr (s ++ 0 :: rest) = cstr s := by
  induction s with
  | nil => exact cstr_zero_cons rest
  | cons b s ih =>
      by_cases hb : b = 0
      · rw [hb, List.cons_append, cstr_zero_cons, cstr_zero_cons]
      · rw [List.cons_append, cstr_cons hb, cstr_cons hb, ih]

theorem length_cstr_le (s : List Byte) : (cstr s).length ≤ s.length :=
  (List.takeWhile_prefix _).length_le

/-- A string that starts inside a string is the rest of it. -/
theorem cstr_drop {s : List Byte} {k : Nat} (hk : k ≤ (cstr s).length) :
    cstr (s.drop k) = (cstr s).drop k := by
  induction k generalizing s with
  | zero => rfl
  | succ k ih =>
      cases s with
      | nil => rfl
      | cons b s =>
          by_cases hb : b = 0
          · rw [hb, cstr_zero_cons] at hk
            exact absurd hk (by simp)
          · rw [cstr_cons hb, List.length_cons] at hk
            rw [cstr_cons hb, List.drop_succ_cons, List.drop_succ_cons]
            exact ih (by omega)

/-! ## Numbers -/

def isSpace (b : Byte) : Bool := b.toNat = 32 || (9 ≤ b.toNat && b.toNat ≤ 13)

def isDigit (b : Byte) : Bool := 48 ≤ b.toNat && b.toNat ≤ 57

/-- The value of the digits at the start. -/
def digitsValue (s : List Byte) : Nat :=
  (s.takeWhile isDigit).foldl (fun n b => 10 * n + (b.toNat - 48)) 0

/-- The number after the blanks, cut off at the ends of the `int` range. -/
def atoi (s : List Byte) : Int :=
  match s.dropWhile isSpace with
  | [] => 0
  | b :: rest =>
      if b.toNat = 45 then max (-2 ^ 31) (-digitsValue rest)
      else if b.toNat = 43 then min (2 ^ 31 - 1) (digitsValue rest)
      else min (2 ^ 31 - 1) (digitsValue (b :: rest))

/-! ## Searching -/

/-- Where the first occurrence of `needle` starts. -/
def strstr (needle : List Byte) : List Byte → Option Nat
  | [] => if needle = [] then some 0 else none
  | b :: rest =>
      if needle.isPrefixOf (b :: rest) then some 0 else (strstr needle rest).map (· + 1)

theorem strstr_prefix {needle hay : List Byte} (h : needle <+: hay) : strstr needle hay = some 0 := by
  cases hay with
  | nil => rw [strstr, if_pos (List.prefix_nil.mp h)]
  | cons b rest => rw [strstr, if_pos (List.isPrefixOf_iff_prefix.mpr h)]

/-- Where the first `c` stands. -/
def strchr (c : Byte) (s : List Byte) : Option Nat := s.findIdx? (· = c)

theorem strchr_some {c : Byte} {s : List Byte} {i : Nat} (h : strchr c s = some i) :
    i < s.length ∧ s.takeWhile (· ≠ c) = s.take i ∧ s.dropWhile (· ≠ c) = s.drop i := by
  obtain ⟨hi, rfl⟩ := List.findIdx?_eq_some_iff_findIdx_eq.mp h
  refine ⟨hi, ?_, ?_⟩
  · rw [List.takeWhile_eq_take_findIdx_not]
    simp
  · rw [List.dropWhile_eq_drop_findIdx_not]
    simp

theorem strchr_none {c : Byte} {s : List Byte} (h : strchr c s = none) : c ∉ s := by
  intro hc
  exact of_decide_eq_false (List.findIdx?_eq_none_iff.mp h c hc) rfl

/-- The words that `fscanf` reads with `%s`, one after the other. -/
def scanWords (s : List Byte) : List (List Byte) := (s.splitOnP isSpace).filter (· ≠ [])

/-! ## Tokens -/

/-- What `strtok_r` finds: how many delimiters it skips, the token, and the string it saves
for the next call, which is a null pointer when the token ended the string. -/
structure Strtok where
  skipped : Nat
  token : List Byte
  rest : Option (List Byte)
deriving DecidableEq, Repr

/-- `strtok_r` with one delimiter, on the string given or saved. -/
def strtokR (delim : Byte) : List Byte → Option Strtok
  | [] => none
  | b :: s =>
      if b = delim then (strtokR delim s).map fun r => { r with skipped := r.skipped + 1 }
      else some ⟨0, (b :: s).takeWhile (· ≠ delim), ((b :: s).dropWhile (· ≠ delim)).tail?⟩

/-- The parts between the delimiters, without the empty ones. -/
def segments (delim : Byte) (s : List Byte) : List (List Byte) :=
  (s.splitOn delim).filter (· ≠ [])

section Tokens

variable {delim : Byte} {s : List Byte} {r : Strtok}

/-- The string from the delimiter on, when `rest` is what stands behind it. -/
def fromDelim (delim : Byte) (rest : Option (List Byte)) : List Byte :=
  (rest.map (delim :: ·)).getD []

theorem takeWhile_append_fromDelim (s : List Byte) :
    s.takeWhile (· ≠ delim) ++ fromDelim delim (s.dropWhile (· ≠ delim)).tail? = s := by
  induction s with
  | nil => rfl
  | cons b s ih =>
      by_cases hb : b = delim
      · rw [List.takeWhile_cons_of_neg (by simpa using hb),
          List.dropWhile_cons_of_neg (by simpa using hb), hb]
        rfl
      · rw [List.takeWhile_cons_of_pos (by simpa using hb),
          List.dropWhile_cons_of_pos (by simpa using hb), List.cons_append, ih]

/-- The string is the delimiters skipped, the token, and what follows it. -/
theorem strtokR_some (h : strtokR delim s = some r) :
    s = List.replicate r.skipped delim ++ (r.token ++ fromDelim delim r.rest) ∧
      r.token ≠ [] ∧ delim ∉ r.token := by
  induction s generalizing r with
  | nil => cases h
  | cons b s ih =>
      rw [strtokR] at h
      split at h
      · rename_i hb
        obtain ⟨r', hr', rfl⟩ := Option.map_eq_some_iff.mp h
        obtain ⟨hs, hne, hnot⟩ := ih hr'
        refine ⟨?_, hne, hnot⟩
        rw [List.replicate_succ, List.cons_append, ← hs, hb]
      · rename_i hb
        obtain rfl := Option.some.inj h
        refine ⟨(takeWhile_append_fromDelim (b :: s)).symm, ?_, ?_⟩
        · rw [List.takeWhile_cons_of_pos (by simpa using hb)]
          exact List.cons_ne_nil _ _
        · intro hmem
          simpa using List.mem_takeWhile_imp hmem

theorem infix_of_strtokR (h : strtokR delim s = some r) : r.token <:+: s := by
  rw [(strtokR_some h).1]
  exact ⟨List.replicate r.skipped delim, fromDelim delim r.rest, List.append_assoc ..⟩

/-- The delimiter behind the token, and what is saved behind it. -/
theorem strtokR_rest {u : List Byte} (h : strtokR delim s = some r) (hrest : r.rest = some u) :
    s[r.skipped + r.token.length]? = some delim ∧
      s.drop (r.skipped + r.token.length + 1) = u := by
  have hs := (strtokR_some h).1
  rw [hrest, ← List.append_assoc] at hs
  have hlen : (List.replicate r.skipped delim ++ r.token).length = r.skipped + r.token.length := by
    simp
  rw [hs, ← hlen]
  constructor
  · rw [List.getElem?_append_right (Nat.le_refl _), Nat.sub_self]
    rfl
  · rw [List.drop_length_add_append]
    rfl

theorem segments_delim_cons (s : List Byte) : segments delim (delim :: s) = segments delim s := by
  rw [segments, List.splitOn_cons_eq_if_modifyHead, if_pos (beq_self_eq_true delim)]
  rfl

theorem strtokR_none (h : strtokR delim s = none) : segments delim s = [] := by
  induction s with
  | nil => rfl
  | cons b s ih =>
      rw [strtokR] at h
      split at h
      · rename_i hb
        rw [hb, segments_delim_cons]
        exact ih (Option.map_eq_none_iff.mp h)
      · cases h

theorem segments_replicate (n : Nat) (s : List Byte) :
    segments delim (List.replicate n delim ++ s) = segments delim s := by
  induction n with
  | zero => rfl
  | succ n ih => rw [List.replicate_succ, List.cons_append, segments_delim_cons, ih]

/-- A token is the next segment of the string. -/
theorem segments_of_strtokR (h : strtokR delim s = some r) :
    segments delim s = r.token :: segments delim (r.rest.getD []) := by
  obtain ⟨hs, hne, hnot⟩ := strtokR_some h
  rw [hs, segments_replicate]
  cases hrest : r.rest with
  | none =>
      simp [fromDelim, segments, List.splitOn_eq_singleton hnot, hne]
  | some u =>
      simp [fromDelim, segments, List.splitOn_append_cons_self_of_not_mem hnot, hne]

end Tokens

/-! ## Copying -/

/-- `strncpy(dst, src, n)` to the start of an array: `n` characters, with NULs behind a
string that is shorter. -/
def strncpy (dst : Mem) (src : List Byte) (n : Nat) : Mem :=
  dst.write 0 ((src ++ List.replicate n 0).take n)

theorem cstr_append_replicate {s : List Byte} (h : (0 : Byte) ∉ s) (n : Nat) :
    cstr (s ++ List.replicate n 0) = s := by
  cases n with
  | zero => rw [List.replicate_zero, List.append_nil, cstr_eq_self h]
  | succ n => rw [List.replicate_succ, cstr_append_zero, cstr_eq_self h]

/-- The string in an array of `size` characters, after `strncpy` and a NUL behind what was
copied. -/
theorem cstr_strncpy {src : List Byte} (hsrc : (0 : Byte) ∉ src) (dst : Mem) {n size : Nat}
    (hn : n < size) :
    cstr (Mem.slice (Function.update (strncpy dst src n) n 0) 0 size) = src.take n := by
  have hcopied : Mem.slice (Function.update (strncpy dst src n) n 0) 0 n
      = (src ++ List.replicate n 0).take n := by
    have hlen : ((src ++ List.replicate n (0 : Byte)).take n).length = n := by simp
    have hslice := Mem.slice_write dst 0 ((src ++ List.replicate n 0).take n)
    rw [hlen] at hslice
    rw [← hslice, strncpy]
    exact Mem.slice_congr fun j _ hj => Function.update_of_ne (by omega) ..
  obtain ⟨d, rfl⟩ := Nat.exists_eq_add_of_lt hn
  rw [Nat.add_assoc, Mem.slice_add, hcopied, Nat.add_comm d 1, Mem.slice_add]
  have hnul : Mem.slice (Function.update (strncpy dst src n) n 0) (0 + n) 1 = [0] := by
    rw [Int.zero_add, Mem.slice, Function.update_self]
    rfl
  rw [hnul, List.singleton_append, cstr_append_zero, List.take_append, List.take_replicate]
  exact cstr_append_replicate (fun h => hsrc (List.mem_of_mem_take h)) _

end HtcLeo
