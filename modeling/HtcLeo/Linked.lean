import Mathlib.Data.List.Basic
import Mathlib.Data.List.Nodup
import Mathlib.Logic.Function.Basic

/-!
# Singly linked lists with a previous pointer

A linked list is given by its nodes in order, each with an address. What
lies behind a node in the list is what its `next` field points to, so
that a store to this field (`setNext`) puts another list there.

The usual search keeps a pointer to the node before the current one
(`findPrev`), and the node it finds leaves the list by a store through
that pointer, or to the head of the list where there is none (`unlink`).
`unlink_of_findPrev` says that this takes out the one node. That a node is
in front of another one is a sublist of two. `Marks` is for a set with the
members of the list, updated as nodes come and go.
-/

namespace HtcLeo

variable {α : Type*}

/-- The first node that satisfies `p`, and the previous pointer there. -/
def findPrev (p : α → Bool) (prev : Option α) : List α → Option α × Option α
  | [] => (none, prev)
  | x :: xs => if p x then (some x, prev) else findPrev p (some x) xs

/-- What the `next` field of the node at `a` points to. -/
def nextOf (addr : α → Nat) (a : Nat) : List α → List α
  | [] => []
  | x :: xs => if addr x = a then xs else nextOf addr a xs

/-- A store to the `next` field of the node at `a`. -/
def setNext (addr : α → Nat) (a : Nat) (tail : List α) : List α → List α
  | [] => []
  | x :: xs => if addr x = a then x :: tail else x :: setNext addr a tail xs

/-- Take `x` out of the list through the previous pointer. -/
def unlink (addr : α → Nat) (prev : Option α) (x : α) (xs : List α) : List α :=
  match prev with
  | some y => setNext addr (addr y) (nextOf addr (addr x) xs) xs
  | none => nextOf addr (addr x) xs

theorem findPrev_fst (p : α → Bool) (prev : Option α) (xs : List α) :
    (findPrev p prev xs).1 = xs.find? p := by
  induction xs generalizing prev with
  | nil => rfl
  | cons x xs ih =>
      by_cases hx : p x
      · rw [findPrev, if_pos hx, List.find?_cons_of_pos hx]
      · rw [findPrev, if_neg hx, List.find?_cons_of_neg hx, ih]

/-- The previous pointer is the node in front of the one found. -/
theorem findPrev_eq_some {p : α → Bool} {prev prev' : Option α} {x : α} {xs : List α}
    (h : findPrev p prev xs = (some x, prev')) :
    ∃ l r, xs = l ++ x :: r ∧ prev' = l.getLast?.or prev := by
  induction xs generalizing prev with
  | nil => simp [findPrev] at h
  | cons y xs ih =>
      by_cases hy : p y
      · rw [findPrev, if_pos hy] at h
        obtain ⟨hx, hprev⟩ := Prod.mk.inj h
        cases hx
        exact ⟨[], xs, rfl, hprev.symm⟩
      · rw [findPrev, if_neg hy] at h
        obtain ⟨l, r, rfl, rfl⟩ := ih h
        refine ⟨y :: l, r, rfl, ?_⟩
        cases l <;> simp [List.getLast?_cons]

variable {addr : α → Nat}

theorem nextOf_append {l r : List α} {x : α} (h : addr x ∉ l.map addr) :
    nextOf addr (addr x) (l ++ x :: r) = r := by
  induction l with
  | nil => exact if_pos rfl
  | cons y l ih =>
      rw [List.map_cons, List.mem_cons, not_or] at h
      rw [List.cons_append, nextOf, if_neg (Ne.symm h.1), ih h.2]

theorem setNext_append {l r tail : List α} {x : α} (h : addr x ∉ l.map addr) :
    setNext addr (addr x) tail (l ++ x :: r) = l ++ x :: tail := by
  induction l with
  | nil => exact if_pos rfl
  | cons y l ih =>
      rw [List.map_cons, List.mem_cons, not_or] at h
      rw [List.cons_append, setNext, if_neg (Ne.symm h.1), ih h.2, List.cons_append]

/-- Where no two nodes share an address, the node found leaves the list and the
others keep their order. -/
theorem unlink_of_findPrev {p : α → Bool} {x : α} {prev : Option α} {xs : List α}
    (hnodup : (xs.map addr).Nodup) (h : findPrev p none xs = (some x, prev)) :
    ∃ l r, xs = l ++ x :: r ∧ unlink addr prev x xs = l ++ r := by
  obtain ⟨l, r, rfl, rfl⟩ := findPrev_eq_some h
  refine ⟨l, r, rfl, ?_⟩
  rw [List.map_append, List.map_cons, List.nodup_append'] at hnodup
  obtain ⟨hl, -, hdisj⟩ := hnodup
  have hx : addr x ∉ l.map addr := fun hmem => hdisj hmem (List.mem_cons_self ..)
  rcases List.eq_nil_or_concat l with rfl | ⟨l, y, rfl⟩
  · exact nextOf_append hx
  · -- the store goes to the last node of the front part
    rw [List.concat_eq_append] at hl hx ⊢
    have hy : addr y ∉ l.map addr := by
      rw [List.map_append, List.nodup_append'] at hl
      exact fun hmem => hl.2.2 hmem (by simp)
    have hprev : (l ++ [y]).getLast?.or none = some y := by simp
    rw [hprev]
    show setNext addr (addr y) (nextOf addr (addr x) (l ++ [y] ++ x :: r)) _ = _
    rw [nextOf_append hx, List.append_assoc, List.singleton_append, setNext_append hy,
      List.append_assoc, List.singleton_append]

/-! ## The order of the nodes -/

section
variable {l r : List α} {a b x : α}

/-- `a` comes before `b` in a list without duplicates. -/
theorem pair_sublist_middle (h : (l ++ b :: r).Nodup) :
    [a, b].Sublist (l ++ b :: r) ↔ a ∈ l := by
  obtain ⟨-, hr, hdisj⟩ := List.nodup_append'.mp h
  obtain ⟨hb, -⟩ := List.nodup_cons.mp hr
  constructor
  · intro hsub
    obtain ⟨front, back, heq, hfront, hback⟩ := List.sublist_append_iff.mp hsub
    cases front with
    | nil =>
        -- the pair lies behind the front part, so `b` is there twice
        obtain rfl : [a, b] = back := heq
        have hmem : b ∈ r := by
          rcases List.sublist_cons_iff.mp hback with hrest | ⟨rest, hrest, hmem⟩
          · exact hrest.subset (by simp)
          · obtain ⟨-, rfl⟩ := List.cons.inj hrest
            exact hmem.subset (by simp)
        exact absurd hmem hb
    | cons y front =>
        obtain ⟨rfl, -⟩ := List.cons.inj heq
        exact hfront.subset (List.mem_cons_self ..)
  · intro ha
    exact (List.singleton_sublist.mpr ha).append (List.singleton_sublist.mpr (by simp))

/-- A node that leaves takes with it the pairs it is in. -/
theorem pair_sublist_remove (h : (l ++ x :: r).Nodup) :
    [a, b].Sublist (l ++ r) ↔ [a, b].Sublist (l ++ x :: r) ∧ ¬ (x = a ∨ x = b) := by
  rw [List.nodup_middle, List.nodup_cons] at h
  constructor
  · intro hsub
    refine ⟨hsub.trans ((List.Sublist.refl l).append (List.sublist_cons_self x r)), ?_⟩
    rintro (rfl | rfl)
    · exact h.1 (hsub.subset (by simp))
    · exact h.1 (hsub.subset (by simp))
  · rintro ⟨hsub, hne⟩
    exact (List.sublist_or_mem_of_sublist hsub).resolve_right (by simpa using hne)

end

/-! ## A set kept beside the list -/

variable {ι : Type*} [DecidableEq ι] {set : ι → Bool} {l r : List ι} {i : ι}

/-- The set holds exactly the members of the list. -/
def Marks (set : ι → Bool) (l : List ι) : Prop := ∀ i, set i = true ↔ i ∈ l

theorem Marks.cons (h : Marks set l) : Marks (Function.update set i true) (i :: l) := by
  intro j
  by_cases hj : j = i
  · simp [hj]
  · rw [Function.update_of_ne hj, h j, List.mem_cons, or_iff_right hj]

theorem Marks.erase (h : Marks set (l ++ i :: r)) (hnodup : (l ++ i :: r).Nodup) :
    Marks (Function.update set i false) (l ++ r) := by
  intro j
  rw [List.nodup_middle, List.nodup_cons] at hnodup
  by_cases hj : j = i
  · subst hj
    simpa using hnodup.1
  · rw [Function.update_of_ne hj, h j, List.perm_middle.mem_iff, List.mem_cons, or_iff_right hj]

end HtcLeo
