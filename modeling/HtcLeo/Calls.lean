import Mathlib.Logic.Basic

/-!
# Programs that make calls

A program that asks questions and goes on with the answers (`Calls`),
for any type of questions and of answers. What it asks, and what it
returns, is a matter of the answers it gets (`Calls.Trace`); who answers
is left open.

Whoever answers can be run against the program (`Calls.run`). If each
single question is answered, from a state with an invariant and with a
relation between the state before and the state after, then the program
ends, and its questions and answers are one of its traces, which leads
from the first state to the last (`run_trace`).
-/

namespace HtcLeo

variable {Q R α β σ : Type}

inductive Calls (Q R α : Type) where
  | ret (a : α)
  | call (q : Q) (next : R → Calls Q R α)

namespace Calls

def bind (p : Calls Q R α) (f : α → Calls Q R β) : Calls Q R β :=
  match p with
  | ret a => f a
  | call q next => call q fun r => (next r).bind f

instance : Monad (Calls Q R) where
  pure := ret
  bind := bind

/-- A question by itself. -/
def ask (q : Q) : Calls Q R R := call q ret

@[simp] theorem pure_eq (a : α) : (pure a : Calls Q R α) = ret a := rfl

@[simp] theorem bind_eq (p : Calls Q R α) (f : α → Calls Q R β) : p >>= f = p.bind f := rfl

@[simp] theorem ret_bind (a : α) (f : α → Calls Q R β) : (ret a).bind f = f a := rfl

@[simp] theorem call_bind (q : Q) (next : R → Calls Q R α) (f : α → Calls Q R β) :
    (call q next).bind f = call q fun r => (next r).bind f := rfl

@[simp] theorem ask_bind (q : Q) (f : R → Calls Q R β) : (ask q).bind f = call q f := rfl

/-! ## Traces -/

/-- The questions with their answers, up to a result. -/
inductive Trace : Calls Q R α → List (Q × R) → α → Prop where
  | ret (a : α) : Trace (ret a) [] a
  | call (q : Q) {next : R → Calls Q R α} {r : R} {t : List (Q × R)} {a : α} :
      Trace (next r) t a → Trace (call q next) ((q, r) :: t) a

@[simp] theorem trace_ret {a b : α} {t : List (Q × R)} : (ret a).Trace t b ↔ t = [] ∧ a = b := by
  constructor
  · intro h
    cases h
    exact ⟨rfl, rfl⟩
  · rintro ⟨rfl, rfl⟩
    exact .ret a

@[simp] theorem trace_call {q : Q} {next : R → Calls Q R α} {t : List (Q × R)} {a : α} :
    (call q next).Trace t a ↔ ∃ r t', t = (q, r) :: t' ∧ (next r).Trace t' a := by
  constructor
  · intro h
    cases h with
    | call _ h => exact ⟨_, _, rfl, h⟩
  · rintro ⟨r, t', rfl, h⟩
    exact .call q h

/-- One program after the other. -/
theorem trace_bind {p : Calls Q R α} {f : α → Calls Q R β} {t : List (Q × R)} {b : β} :
    (p.bind f).Trace t b ↔ ∃ t₁ t₂ a, t = t₁ ++ t₂ ∧ p.Trace t₁ a ∧ (f a).Trace t₂ b := by
  constructor
  · intro h
    induction p generalizing t with
    | ret a => exact ⟨[], t, a, rfl, .ret a, h⟩
    | call q next ih =>
        obtain ⟨r, t', rfl, hnext⟩ := trace_call.mp h
        obtain ⟨t₁, t₂, a, rfl, h₁, h₂⟩ := ih r hnext
        exact ⟨(q, r) :: t₁, t₂, a, rfl, .call q h₁, h₂⟩
  · rintro ⟨t₁, t₂, a, rfl, h₁, h₂⟩
    induction h₁ with
    | ret a => exact h₂
    | call q _ ih => exact .call q (ih h₂)

/-! ## All questions -/

/-- Whatever the answers, the program asks only such questions. -/
inductive All (P : Q → Prop) : Calls Q R α → Prop where
  | ret (a : α) : All P (ret a)
  | call {q : Q} {next : R → Calls Q R α} : P q → (∀ r, All P (next r)) → All P (call q next)

theorem All.bind {P : Q → Prop} {p : Calls Q R α} {f : α → Calls Q R β} (hp : p.All P)
    (hf : ∀ a, (f a).All P) : (p.bind f).All P := by
  induction hp with
  | ret a => exact hf a
  | call hq _ ih => exact .call hq ih

/-! ## Runs -/

/-- Run against somebody with a state who answers, or does not. -/
def run (answer : σ → Q → Option (R × σ)) : σ → Calls Q R α → Option (α × σ)
  | s, ret a => some (a, s)
  | s, call q next => (answer s q).bind fun r => run answer r.2 (next r.1)

/-- A way from state to state along the questions and answers. -/
inductive Path (Rel : σ → Q × R → σ → Prop) : σ → List (Q × R) → σ → Prop where
  | refl (s : σ) : Path Rel s [] s
  | step {s s' s'' : σ} {e : Q × R} {t : List (Q × R)} :
      Rel s e s' → Path Rel s' t s'' → Path Rel s (e :: t) s''

/-- **Every run is a trace.** -/
theorem run_trace {answer : σ → Q → Option (R × σ)} {P : Q → Prop} {Inv : σ → Prop}
    {Rel : σ → Q × R → σ → Prop}
    (hstep : ∀ s q, Inv s → P q → ∃ r s', answer s q = some (r, s') ∧ Inv s' ∧ Rel s (q, r) s')
    {p : Calls Q R α} (hp : p.All P) {s : σ} (hs : Inv s) :
    ∃ t a s', run answer s p = some (a, s') ∧ p.Trace t a ∧ Inv s' ∧ Path Rel s t s' := by
  induction hp generalizing s with
  | ret a => exact ⟨[], a, s, rfl, .ret a, hs, .refl s⟩
  | @call q next hq _ ih =>
      obtain ⟨r, s₁, hanswer, hs₁, hrel⟩ := hstep s q hs hq
      obtain ⟨t, a, s', hrun, htrace, hs', hpath⟩ := ih r hs₁
      refine ⟨(q, r) :: t, a, s', ?_, .call q htrace, hs', .step hrel hpath⟩
      rw [run, hanswer]
      exact hrun

end Calls

end HtcLeo
