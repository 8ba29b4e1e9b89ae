import Mathlib.Algebra.Group.Nat.Even
import Mathlib.Data.List.Basic
import Mathlib.Data.List.Induction

/-!
# Lines of a stream and a framer that can lose one

`lines d s` lists the complete lines of a stream, each with its
delimiter; what follows the last delimiter is not a line yet.

`frame` describes a line reader with room for `lim` elements that drops
longer lines but mistakes the end of a line of exactly `lim + 1` elements
for the start of the overlong part, so that it also skips the line after
it. `frame_eq_filter_iff` says on which line sequences it nevertheless
keeps every line that fits: each of those lines must have an even number
of lines of exactly `lim + 1` elements directly before it.
-/

namespace HtcLeo

variable {α : Type*}

section Lines

variable [DecidableEq α]

/-- The lines that end in the stream, the first of them starting with `acc`. -/
def linesFrom (d : α) : List α → List α → List (List α)
  | _, [] => []
  | acc, c :: rest =>
      if c = d then (acc ++ [c]) :: linesFrom d [] rest else linesFrom d (acc ++ [c]) rest

/-- The complete lines of a stream, with their delimiters. -/
def lines (d : α) (s : List α) : List (List α) := linesFrom d [] s

/-- The line containing the first delimiter of the stream. -/
theorem linesFrom_line (d : α) (acc body rest : List α) (hbody : d ∉ body) :
    linesFrom d acc (body ++ d :: rest) = (acc ++ body ++ [d]) :: linesFrom d [] rest := by
  induction body generalizing acc with
  | nil => simp [linesFrom]
  | cons b body ih =>
      rw [List.mem_cons, not_or] at hbody
      rw [List.cons_append, linesFrom, if_neg (fun h => hbody.1 h.symm), ih _ hbody.2]
      simp

theorem lines_line (d : α) (body rest : List α) (hbody : d ∉ body) :
    lines d (body ++ d :: rest) = (body ++ [d]) :: lines d rest :=
  linesFrom_line d [] body rest hbody

end Lines

section Frame

variable (lim : Nat)

/-- The lines the framer keeps; the flag says that it will skip the next line. -/
def frame : Bool → List (List α) → List (List α)
  | _, [] => []
  | true, _ :: ls => frame false ls
  | false, l :: ls =>
      if l.length ≤ lim then l :: frame false ls else frame (l.length = lim + 1) ls

/-- Whether the line after `pre` is skipped. -/
def skipsAfter : Bool → List (List α) → Bool
  | skip, [] => skip
  | skip, l :: ls => skipsAfter (!skip && l.length = lim + 1) ls

/-- The number of lines of exactly `lim + 1` elements at the end of `pre`. -/
def fullRun (pre : List (List α)) : Nat :=
  (pre.reverse.takeWhile (fun l => l.length = lim + 1)).length

/-- Every line that fits comes after an even number of lines of exactly
`lim + 1` elements. -/
def FitsAfterEvenRuns (ls : List (List α)) : Prop :=
  ∀ pre l post, ls = pre ++ l :: post → l.length ≤ lim → Even (fullRun lim pre)

theorem skipsAfter_concat (skip : Bool) (pre : List (List α)) (l : List α) :
    skipsAfter lim skip (pre ++ [l]) = (!skipsAfter lim skip pre && l.length = lim + 1) := by
  induction pre generalizing skip with
  | nil => rfl
  | cons x pre ih => exact ih _

theorem fullRun_concat (pre : List (List α)) (l : List α) :
    fullRun lim (pre ++ [l]) = if l.length = lim + 1 then fullRun lim pre + 1 else 0 := by
  rw [fullRun, List.reverse_append, List.reverse_singleton, List.singleton_append,
    List.takeWhile_cons]
  by_cases h : l.length = lim + 1
  · simp [h, fullRun]
  · simp [h]

/-- The framer skips a line exactly after an odd run of `lim + 1` element lines. -/
theorem skipsAfter_eq_false_iff (pre : List (List α)) :
    skipsAfter lim false pre = false ↔ Even (fullRun lim pre) := by
  induction pre using List.reverseRecOn with
  | nil => simp [skipsAfter, fullRun]
  | append_singleton pre l ih =>
      rw [skipsAfter_concat, fullRun_concat]
      by_cases h : l.length = lim + 1
      · rw [if_pos h, Nat.even_add_one, ← ih]
        simp [h]
      · simp [h]

theorem length_frame_le (skip : Bool) (ls : List (List α)) :
    (frame lim skip ls).length ≤ (ls.filter (fun l => l.length ≤ lim)).length := by
  induction ls generalizing skip with
  | nil => simp [frame]
  | cons l ls ih =>
      cases skip with
      | true =>
          rw [frame]
          exact le_trans (ih false) (((List.sublist_cons_self l ls).filter _).length_le)
      | false =>
          by_cases h : l.length ≤ lim
          · simpa [frame, h] using ih false
          · simpa [frame, h] using ih _

/-- The framer keeps exactly the lines that fit when it skips none of them. -/
theorem frame_eq_filter_iff_skips (skip : Bool) (ls : List (List α)) :
    frame lim skip ls = ls.filter (fun l => l.length ≤ lim) ↔
      ∀ pre l post, ls = pre ++ l :: post → l.length ≤ lim → skipsAfter lim skip pre = false := by
  induction ls generalizing skip with
  | nil => simp [frame]
  | cons x ls ih =>
      -- the head is the first line of the split, or the split is one of the tail
      have hsplit : (∀ pre l post, x :: ls = pre ++ l :: post → l.length ≤ lim →
            skipsAfter lim skip pre = false) ↔
          (x.length ≤ lim → skip = false) ∧
            ∀ pre l post, ls = pre ++ l :: post → l.length ≤ lim →
              skipsAfter lim (!skip && x.length = lim + 1) pre = false := by
        constructor
        · intro h
          refine ⟨fun hx => h [] x ls rfl hx, fun pre l post hls hl => ?_⟩
          exact h (x :: pre) l post (by rw [hls, List.cons_append]) hl
        · rintro ⟨hhead, htail⟩ pre l post heq hl
          cases pre with
          | nil =>
              obtain ⟨rfl, -⟩ := List.cons.inj heq
              exact hhead hl
          | cons y pre =>
              obtain ⟨rfl, hls⟩ := List.cons.inj heq
              exact htail pre l post hls hl
      rw [hsplit]
      cases skip with
      | true =>
          by_cases hx : x.length ≤ lim
          · -- a line that fits is lost, so the framer returns too few lines
            have hlen := length_frame_le lim false ls
            simp only [hx, frame, List.filter_cons_of_pos, decide_true, forall_const,
              Bool.true_eq_false, false_and, iff_false]
            intro heq
            rw [heq, List.length_cons] at hlen
            omega
          · simpa [frame, hx] using ih false
      | false =>
          by_cases hx : x.length ≤ lim
          · have hne : ¬x.length = lim + 1 := by omega
            simpa [frame, hx, hne] using ih false
          · simpa [frame, hx] using ih _

theorem frame_eq_filter_iff (ls : List (List α)) :
    frame lim false ls = ls.filter (fun l => l.length ≤ lim) ↔ FitsAfterEvenRuns lim ls := by
  rw [frame_eq_filter_iff_skips]
  simp only [skipsAfter_eq_false_iff]
  rfl

end Frame

end HtcLeo
