import Mathlib.Data.List.Basic
import Mathlib.Data.List.Induction

/-!
# Runs of a step function

A run is a list of events folded through a step function. `AllSteps P`
says that every step of the run, taken at the state it starts from,
satisfies `P`. The rules here reduce a statement about a whole run to
one about a single step: `AllSteps.run_inv` carries an invariant to the
end of a run, `AllSteps.run_rel` a relation between two systems,
`allSteps_iff` exchanges one step property for another that is equivalent
to it wherever the invariant holds, and `AllSteps.iff_since` reads a
property of the last state off the events, `AllSteps.iff_sinceAt` one
whose setting depends on the state as well, and `mem_runFrom_log` finds
the step that an entry of a log comes from. A step that waits for a
condition is `guarded`.
-/

namespace HtcLeo

variable {σ ε : Type*} {step : σ → ε → σ} {P Q : σ → ε → Prop} {I : σ → Prop}

/-- Every step of the run over the events satisfies `P` at the state before it. -/
def AllSteps (step : σ → ε → σ) (P : σ → ε → Prop) : σ → List ε → Prop
  | _, [] => True
  | s, e :: es => P s e ∧ AllSteps step P (step s e) es

instance decidableAllSteps [h : ∀ s e, Decidable (P s e)] :
    (s : σ) → (es : List ε) → Decidable (AllSteps step P s es)
  | _, [] => isTrue trivial
  | s, e :: es =>
      have := decidableAllSteps (h := h) (step s e) es
      inferInstanceAs (Decidable (P s e ∧ AllSteps step P (step s e) es))

/-- The state after the events. -/
def runFrom (step : σ → ε → σ) (s : σ) (es : List ε) : σ := es.foldl step s

@[simp] theorem runFrom_nil (s : σ) : runFrom step s [] = s := rfl

@[simp] theorem runFrom_cons (s : σ) (e : ε) (es : List ε) :
    runFrom step s (e :: es) = runFrom step (step s e) es := rfl

theorem runFrom_append (s : σ) (es fs : List ε) :
    runFrom step s (es ++ fs) = runFrom step (runFrom step s es) fs := by
  simp [runFrom]

/-- An invariant that every `P`-step keeps holds at the end of a run of `P`-steps. -/
theorem AllSteps.run_inv (hstep : ∀ s e, I s → P s e → I (step s e)) :
    ∀ {s : σ} {es : List ε}, I s → AllSteps step P s es → I (runFrom step s es)
  | _, [], hs, _ => hs
  | s, e :: _, hs, ⟨hP, hrest⟩ =>
      AllSteps.run_inv (s := step s e) hstep (hstep s e hs hP) hrest

/-- Two systems that take the same events side by side: a relation that every `P`-step
keeps holds at the end. -/
theorem AllSteps.run_rel {τ : Type*} {step' : τ → ε → τ} {R : σ → τ → Prop}
    (hstep : ∀ s t e, R s t → P s e → R (step s e) (step' t e)) :
    ∀ {s : σ} {t : τ} {es : List ε}, R s t → AllSteps step P s es →
      R (runFrom step s es) (runFrom step' t es)
  | _, _, [], hR, _ => hR
  | s, t, e :: _, hR, ⟨hP, hrest⟩ =>
      AllSteps.run_rel (s := step s e) (t := step' t e) hstep (hstep s t e hR hP) hrest

/-- A step property that follows from `P` wherever an invariant of the `P`-steps holds. -/
theorem AllSteps.imp (hstep : ∀ s e, I s → P s e → I (step s e))
    (himp : ∀ s e, I s → P s e → Q s e) :
    ∀ {s : σ} {es : List ε}, I s → AllSteps step P s es → AllSteps step Q s es
  | _, [], _, _ => trivial
  | s, e :: _, hs, ⟨hP, hrest⟩ =>
      ⟨himp s e hs hP, AllSteps.imp (s := step s e) hstep himp (hstep s e hs hP) hrest⟩

/-- An invariant that every step keeps holds at the end of every run. -/
theorem runFrom_inv (hstep : ∀ s e, I s → I (step s e)) {s : σ} (hs : I s) (es : List ε) :
    I (runFrom step s es) := by
  induction es generalizing s with
  | nil => exact hs
  | cons e es ih => exact ih (hstep s e hs)

/-- A step that is taken under a condition, and changes nothing without it. -/
theorem guarded {s s' : σ} {p : Prop} [Decidable p] (h : I s) (hstep : p → I s') :
    I (if p then s' else s) := by
  split
  · exact hstep ‹_›
  · exact h

/-- An event that `sets` at the state before it, and none that `clears` came after it. -/
def SinceAt (step : σ → ε → σ) (sets : σ → ε → Prop) (clears : ε → Prop) (s : σ)
    (es : List ε) : Prop :=
  ∃ before e after, es = before ++ e :: after ∧ sets (runFrom step s before) e
    ∧ ∀ c ∈ after, ¬ clears c

theorem sinceAt_nil (sets : σ → ε → Prop) (clears : ε → Prop) (s : σ) :
    ¬ SinceAt step sets clears s [] := by
  rintro ⟨before, e, after, h, -⟩
  simp at h

theorem sinceAt_concat {sets : σ → ε → Prop} {clears : ε → Prop} {s : σ} {es : List ε} {e : ε} :
    SinceAt step sets clears s (es ++ [e]) ↔
      sets (runFrom step s es) e ∨ SinceAt step sets clears s es ∧ ¬ clears e := by
  constructor
  · rintro ⟨before, x, after, heq, hset, hclear⟩
    rcases List.eq_nil_or_concat after with rfl | ⟨after, y, rfl⟩
    · obtain ⟨rfl, hx⟩ := List.append_inj' heq rfl
      obtain ⟨rfl, -⟩ := List.cons.inj hx
      exact .inl hset
    · rw [List.concat_eq_append] at heq hclear
      rw [← List.cons_append, ← List.append_assoc] at heq
      obtain ⟨rfl, hy⟩ := List.append_inj' heq rfl
      obtain ⟨rfl, -⟩ := List.cons.inj hy
      exact .inr ⟨⟨before, x, after, rfl, hset, fun c hc => hclear c (by simp [hc])⟩,
        hclear e (by simp)⟩
  · rintro (hset | ⟨⟨before, x, after, rfl, hset, hclear⟩, hlast⟩)
    · exact ⟨es, e, [], rfl, hset, by simp⟩
    · refine ⟨before, x, after ++ [e], by simp, hset, fun c hc => ?_⟩
      rcases List.mem_append.mp hc with hc | hc
      · exact hclear c hc
      · rwa [List.mem_singleton.mp hc]

/-- An event that `sets` occurred, and none that `clears` came after it. -/
def Since (sets clears : ε → Prop) (es : List ε) : Prop :=
  ∃ before e after, es = before ++ e :: after ∧ sets e ∧ ∀ c ∈ after, ¬ clears c

theorem since_nil (sets clears : ε → Prop) : ¬ Since sets clears [] :=
  @sinceAt_nil Unit ε (fun u _ => u) (fun _ => sets) clears ()

theorem since_concat {sets clears : ε → Prop} {es : List ε} {e : ε} :
    Since sets clears (es ++ [e]) ↔ sets e ∨ Since sets clears es ∧ ¬ clears e :=
  @sinceAt_concat Unit ε (fun u _ => u) (fun _ => sets) clears () es e

theorem since_append {sets clears : ε → Prop} {es fs : List ε} :
    Since sets clears (es ++ fs) ↔
      Since sets clears fs ∨ Since sets clears es ∧ ∀ c ∈ fs, ¬ clears c := by
  induction fs using List.reverseRecOn with
  | nil => simp [since_nil]
  | append_singleton fs e ih =>
      rw [← List.append_assoc, since_concat, ih, since_concat, List.forall_mem_append,
        List.forall_mem_singleton]
      tauto

theorem Since.exists_mem {sets clears : ε → Prop} {es : List ε} (h : Since sets clears es) :
    ∃ e ∈ es, sets e := by
  obtain ⟨before, e, after, rfl, hset, -⟩ := h
  exact ⟨e, by simp, hset⟩

theorem AllSteps.append : ∀ {s : σ} {es fs : List ε}, AllSteps step P s (es ++ fs) ↔
    AllSteps step P s es ∧ AllSteps step P (runFrom step s es) fs
  | _, [], _ => by simp [AllSteps]
  | s, e :: es, fs => by
      rw [List.cons_append, AllSteps, AllSteps, AllSteps.append, runFrom_cons, and_assoc]

/-- A property of the state that each step sets, clears or keeps holds at the end
of a run exactly when it was set and not cleared since. -/
theorem AllSteps.iff_sinceAt {R : σ → Prop} {sets : σ → ε → Prop} {clears : ε → Prop}
    (hinv : ∀ s e, I s → P s e → I (step s e))
    (hR : ∀ s e, I s → P s e → (R (step s e) ↔ sets s e ∨ R s ∧ ¬ clears e)) {s : σ} (hs : I s)
    (hnot : ¬ R s) {es : List ε} (h : AllSteps step P s es) :
    R (runFrom step s es) ↔ SinceAt step sets clears s es := by
  induction es using List.reverseRecOn with
  | nil => exact iff_of_false hnot (sinceAt_nil sets clears s)
  | append_singleton es e ih =>
      obtain ⟨hes, he, -⟩ := AllSteps.append.mp h
      rw [runFrom_append, runFrom_cons, runFrom_nil, hR _ _ (AllSteps.run_inv hinv hs hes) he,
        ih hes, sinceAt_concat]

/-- The same where the event alone says what it sets. -/
theorem AllSteps.iff_since {R : σ → Prop} {sets clears : ε → Prop}
    (hinv : ∀ s e, I s → P s e → I (step s e))
    (hR : ∀ s e, I s → P s e → (R (step s e) ↔ sets e ∨ R s ∧ ¬ clears e)) {s : σ} (hs : I s)
    (hnot : ¬ R s) {es : List ε} (h : AllSteps step P s es) :
    R (runFrom step s es) ↔ Since sets clears es :=
  AllSteps.iff_sinceAt hinv hR hs hnot h

/-- Two step properties that agree on the states of an invariant, which the
steps that satisfy them keep, hold of the same runs. -/
theorem allSteps_iff (hiff : ∀ s e, I s → (P s e ↔ Q s e))
    (hstep : ∀ s e, I s → P s e → I (step s e)) :
    ∀ {s : σ} {es : List ε}, I s → (AllSteps step P s es ↔ AllSteps step Q s es)
  | _, [], _ => Iff.rfl
  | s, e :: es, hs => by
      constructor
      · rintro ⟨hP, hrest⟩
        exact ⟨(hiff s e hs).mp hP, (allSteps_iff hiff hstep (hstep s e hs hP)).mp hrest⟩
      · rintro ⟨hQ, hrest⟩
        have hP := (hiff s e hs).mpr hQ
        exact ⟨hP, (allSteps_iff hiff hstep (hstep s e hs hP)).mpr hrest⟩

/-- Every step of a run, each with the events before it. -/
theorem allSteps_iff_split : ∀ {s : σ} {es : List ε},
    AllSteps step P s es ↔
      ∀ before e after, es = before ++ e :: after → P (runFrom step s before) e
  | _, [] => iff_of_true trivial fun before e after h => by simp at h
  | s, e :: es => by
      rw [AllSteps, allSteps_iff_split]
      constructor
      · rintro ⟨hP, hrest⟩ before e' after heq
        cases before with
        | nil =>
            obtain ⟨rfl, -⟩ := List.cons.inj heq
            exact hP
        | cons b before =>
            obtain ⟨rfl, hes⟩ := List.cons.inj heq
            exact hrest before e' after hes
      · intro h
        refine ⟨h [] e es rfl, fun before e' after heq => ?_⟩
        exact h (e :: before) e' after (by rw [heq, List.cons_append])

/-- What a run leaves in a log that every step only adds to. -/
theorem mem_runFrom_log {β : Type*} (log : σ → List β) {adds : σ → ε → β → Prop}
    (hstep : ∀ s e b, b ∈ log (step s e) ↔ b ∈ log s ∨ adds s e b) {s : σ} {es : List ε} {b : β} :
    b ∈ log (runFrom step s es) ↔
      b ∈ log s ∨ ∃ before e after, es = before ++ e :: after ∧ adds (runFrom step s before) e b := by
  induction es generalizing s with
  | nil => simp
  | cons e es ih =>
      rw [runFrom_cons, ih, hstep, or_assoc]
      refine or_congr_right ?_
      constructor
      · rintro (he | ⟨before, e', after, rfl, he'⟩)
        · exact ⟨[], e, es, rfl, he⟩
        · exact ⟨e :: before, e', after, rfl, he'⟩
      · rintro ⟨before, e', after, heq, he'⟩
        cases before with
        | nil =>
            obtain ⟨rfl, -⟩ := List.cons.inj heq
            exact .inl he'
        | cons d before =>
            obtain ⟨rfl, rfl⟩ := List.cons.inj heq
            exact .inr ⟨before, e', after, rfl, he'⟩

end HtcLeo
