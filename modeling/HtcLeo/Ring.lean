import Mathlib.Data.List.Basic
import Mathlib.Logic.Function.Basic

/-!
# A queue in a ring with a spill area

A queue lies in an array of `2 * N` entries of which the first `N` are
the ring: its elements follow each other from `curr` on and go on at the
front behind entry `N - 1`. New elements are stored in one piece from the
write position on, so that they may run into the second half of the
array; what lies there is then copied to the front.

The write position may rest on entry `N` instead of entry `0`
(`TailAt`), so that the two ends of the queue wrap differently.
`Queued.extend` says that storing and copying append to the queue.
-/

namespace HtcLeo

variable {α : Type*}

/-- Store a list at consecutive entries from `i` on. -/
def store (b : Nat → α) (i : Nat) : List α → Nat → α
  | [] => b
  | x :: xs => store (Function.update b i x) (i + 1) xs

/-- Copy `n` entries from `src` on to the entries from `dst` on. -/
def copyEntries (b : Nat → α) (dst src n : Nat) : Nat → α := fun j =>
  if dst ≤ j ∧ j < dst + n then b (src + (j - dst)) else b j

/-- The ring entry of position `i`, counted from the front without wrapping. -/
def ringSlot (N i : Nat) : Nat := if i < N then i else i - N

/-- The elements of `q` lie in the ring from `curr` on. -/
def Queued (b : Nat → α) (N curr : Nat) (q : List α) : Prop :=
  ∀ k x, q[k]? = some x → b (ringSlot N (curr + k)) = x

/-- The write position `head` is `n` entries behind `curr`, where the ends of
the ring count as one entry. -/
def TailAt (N curr n head : Nat) : Prop :=
  head = curr + n ∨ head + N = curr + n ∨ head = curr + n + N

/-! ## Storing and copying -/

theorem store_of_lt {b : Nat → α} {i j : Nat} {xs : List α} (h : j < i) :
    store b i xs j = b j := by
  induction xs generalizing b i with
  | nil => rfl
  | cons x xs ih => rw [store, ih (by omega), Function.update_of_ne (by omega)]

theorem store_of_ge {b : Nat → α} {i j : Nat} {xs : List α} (h : i + xs.length ≤ j) :
    store b i xs j = b j := by
  induction xs generalizing b i with
  | nil => rfl
  | cons x xs ih =>
      rw [List.length_cons] at h
      rw [store, ih (by omega), Function.update_of_ne (by omega)]

theorem store_get {b : Nat → α} {i k : Nat} {xs : List α} {x : α} (h : xs[k]? = some x) :
    store b i xs (i + k) = x := by
  induction xs generalizing b i k with
  | nil => simp at h
  | cons y xs ih =>
      cases k with
      | zero =>
          rw [List.getElem?_cons_zero] at h
          rw [Nat.add_zero, store, store_of_lt (by omega), Function.update_self]
          exact Option.some.inj h
      | succ k =>
          rw [List.getElem?_cons_succ] at h
          rw [store, show i + (k + 1) = i + 1 + k by omega]
          exact ih h

theorem copyEntries_of_ge {b : Nat → α} {dst src n j : Nat} (h : dst + n ≤ j) :
    copyEntries b dst src n j = b j :=
  if_neg (by omega)

theorem copyEntries_front {b : Nat → α} {src n j : Nat} (h : j < n) :
    copyEntries b 0 src n j = b (src + j) := by
  rw [copyEntries, if_pos (by omega), Nat.sub_zero]

/-! ## The queue -/

theorem Queued.nil (b : Nat → α) (N curr : Nat) : Queued b N curr [] := by
  intro k x hk
  simp at hk

/-- A queue depends only on its own entries. -/
theorem Queued.congr {b b' : Nat → α} {N curr : Nat} {q : List α} (h : Queued b N curr q)
    (hb : ∀ k < q.length, b' (ringSlot N (curr + k)) = b (ringSlot N (curr + k))) :
    Queued b' N curr q := by
  intro k x hk
  obtain ⟨hlt, -⟩ := List.getElem?_eq_some_iff.mp hk
  rw [hb k hlt]
  exact h k x hk

theorem Queued.append {b : Nat → α} {N curr : Nat} {q xs : List α} (h : Queued b N curr q)
    (hxs : Queued b N (curr + q.length) xs) : Queued b N curr (q ++ xs) := by
  intro k x hk
  by_cases hlt : k < q.length
  · rw [List.getElem?_append_left hlt] at hk
    exact h k x hk
  · rw [List.getElem?_append_right (by omega)] at hk
    have hx := hxs (k - q.length) x hk
    rwa [show curr + q.length + (k - q.length) = curr + k by omega] at hx

/-- The front of the queue leaves, and the read position wraps at the end. -/
theorem Queued.next {b : Nat → α} {N curr : Nat} {x : α} {q : List α}
    (h : Queued b N curr (x :: q)) (hcurr : curr < N) (hlen : q.length < N) :
    Queued b N (if N ≤ curr + 1 then 0 else curr + 1) q := by
  intro k y hk
  obtain ⟨hlt, -⟩ := List.getElem?_eq_some_iff.mp hk
  have hy := h (k + 1) y hk
  rw [← hy]
  congr 1
  simp only [ringSlot]
  split_ifs <;> omega

/-- What is stored at the write position leaves the queue alone, as long as
there is room for it. -/
theorem Queued.store {b : Nat → α} {N curr head : Nat} {q xs : List α} (h : Queued b N curr q)
    (htail : TailAt N curr q.length head) (hroom : xs.length + q.length ≤ N) :
    Queued (HtcLeo.store b head xs) N curr q := by
  refine h.congr fun k hk => ?_
  by_cases hlt : ringSlot N (curr + k) < head
  · exact store_of_lt hlt
  · refine store_of_ge ?_
    simp only [ringSlot, TailAt] at *
    split_ifs at * <;> omega

/-- The entries the copy writes are not entries of the queue. -/
theorem copy_avoids {N curr head n m k : Nat} (hhead : head ≤ N)
    (htail : TailAt N curr n head) (hroom : m + n ≤ N) (hk : k < n) :
    head + m - N ≤ ringSlot N (curr + k) := by
  simp only [ringSlot, TailAt] at *
  split_ifs <;> omega

/-- **Storing and copying append to the queue.** The elements `xs` are stored at
the write position; what runs over the end of the ring is copied to its front. -/
theorem Queued.extend {b : Nat → α} {N curr head : Nat} {q xs : List α} (h : Queued b N curr q)
    (hcurr : curr < N) (hhead : head ≤ N) (htail : TailAt N curr q.length head)
    (hroom : xs.length + q.length ≤ N) :
    Queued (if N < head + xs.length
        then copyEntries (HtcLeo.store b head xs) 0 N (head + xs.length - N)
        else HtcLeo.store b head xs) N curr (q ++ xs) := by
  have hold := h.store htail hroom
  split
  · -- the copy writes in front of the old elements, and the new ones lie behind
    -- `head` or are copied
    refine (hold.congr fun k hk => ?_).append fun k x hk => ?_
    · exact copyEntries_of_ge (by have := copy_avoids hhead htail hroom hk; omega)
    · obtain ⟨hlt, -⟩ := List.getElem?_eq_some_iff.mp hk
      have hget := store_get (b := b) (i := head) hk
      by_cases hfront : ringSlot N (curr + q.length + k) < head + xs.length - N
      · rw [copyEntries_front hfront, ← hget]
        congr 1
        simp only [ringSlot, TailAt] at *
        split_ifs at * <;> omega
      · rw [copyEntries_of_ge (by omega), ← hget]
        congr 1
        simp only [ringSlot, TailAt] at *
        split_ifs at * <;> omega
  · refine hold.append fun k x hk => ?_
    obtain ⟨hlt, -⟩ := List.getElem?_eq_some_iff.mp hk
    rw [← store_get (b := b) (i := head) hk]
    congr 1
    simp only [ringSlot, TailAt] at *
    split_ifs <;> omega

/-- The write position after storing `m` elements, brought back into the ring. -/
theorem TailAt.advance {N curr n head m : Nat} (hcurr : curr < N) (hhead : head ≤ N)
    (htail : TailAt N curr n head) (hroom : m + n ≤ N) :
    TailAt N curr (n + m) (if N < head + m then head + m - N else head + m) := by
  simp only [TailAt] at *
  split_ifs <;> omega

theorem TailAt.next {N curr n head : Nat} (hcurr : curr < N) (hhead : head ≤ N)
    (htail : TailAt N curr (n + 1) head) :
    TailAt N (if N ≤ curr + 1 then 0 else curr + 1) n head := by
  simp only [TailAt] at *
  split_ifs <;> omega

end HtcLeo
