import Mathlib.Logic.Relation

/-!
# Finite runs of labelled transition systems

A run records the labels of its steps in order. Every safety result about sequences of calls or
interleavings of threads is an instance of the invariant rule. A step is often a call that can
fail; the first lemmas take the successful result of such calls apart.
-/

namespace Singularity.Foundation

universe u v
variable {σ : Type u} {α : Type v} {ε : Type*} {x : Except ε σ}

/-- If a sequence of two fallible computations succeeds, both do. -/
lemma ok_of_bind {β : Type u} {f : σ → Except ε β} {b : β}
    (h : x >>= f = .ok b) : ∃ a, x = .ok a ∧ f a = .ok b := by
  cases x with
  | error e => cases h
  | ok a => exact ⟨a, rfl, h⟩

lemma ok_of_map {β : Type v} {f : σ → β} {b : β}
    (h : x.map f = .ok b) : ∃ a, x = .ok a ∧ f a = b := by
  cases x with
  | error e => cases h
  | ok a => exact ⟨a, rfl, Except.ok.inj h⟩

lemma ok_of_toOption (h : x.toOption = some a) : x = .ok a := by
  cases x with
  | error e => cases h
  | ok b =>
    cases h
    rfl

section
variable {c : Prop} [Decidable c] {x y z : σ}

/-- A result that the second branch does not have comes from the first one. -/
lemma then_of_ite (h : (if c then x else y) = z) (hne : y ≠ z := by simp) : c ∧ x = z := by
  split at h
  case isTrue hc => exact ⟨hc, h⟩
  · exact absurd h hne

lemma else_of_ite (h : (if c then x else y) = z) (hne : x ≠ z := by simp) : ¬ c ∧ y = z := by
  split at h
  · exact absurd h hne
  case isFalse hc => exact ⟨hc, h⟩

end

/-- A finite run of a labelled transition relation, with its labels in order. -/
inductive Run (step : σ → α → σ → Prop) : σ → List α → σ → Prop
  | nil (s : σ) : Run step s [] s
  | cons {s t u : σ} {a : α} {as : List α} (head : step s a t) (tail : Run step t as u) :
      Run step s (a :: as) u

namespace Run

variable {step : σ → α → σ → Prop} {s t u : σ} {as : List α}

/-- A property kept by every step is kept by every run. -/
lemma invariant {I : σ → Prop} (hstep : ∀ s a t, I s → step s a t → I t) (run : Run step s as t)
    (h : I s) : I t := by
  induction run with
  | nil s => exact h
  | cons head _ ih => exact ih (hstep _ _ _ h head)

lemma append (left : Run step s as t) (right : Run step t bs u) : Run step s (as ++ bs) u := by
  induction left with
  | nil s => exact right
  | cons head _ ih => exact Run.cons head (ih right)

lemma single (h : step s a t) : Run step s [a] t := Run.cons h (Run.nil t)

/-- Runs of a finer relation are runs of a coarser one. -/
lemma mono {step' : σ → α → σ → Prop} (h : ∀ s a t, step s a t → step' s a t)
    (run : Run step s as t) : Run step' s as t := by
  induction run with
  | nil s => exact Run.nil s
  | cons head _ ih => exact Run.cons (h _ _ _ head) ih

/-- Execute a partial step function along a list of labels. -/
def exec (f : σ → α → Option σ) : σ → List α → Option σ
  | s, [] => some s
  | s, a :: as => (f s a).bind fun t => exec f t as

section
variable {f : σ → α → Option σ} (hf : ∀ s a t, f s a = some t → step s a t)
include hf

/-- A successful execution is a run of any relation that contains the step function. -/
lemma of_exec (h : exec f s as = some t) : Run step s as t := by
  induction as generalizing s with
  | nil =>
    cases h
    exact Run.nil t
  | cons a as ih =>
    obtain ⟨u, hu, h⟩ := Option.bind_eq_some_iff.mp h
    exact Run.cons (hf _ _ _ hu) (ih h)

/-- An execution whose last state passes a test is a run to a state with what the test shows. -/
lemma exists_of_exec {P Q : σ → Prop} [DecidablePred P]
    (h : ((exec f s as).any fun t => decide (P t)) = true) (hQ : ∀ t, Run step s as t → P t → Q t) :
    ∃ t, Run step s as t ∧ Q t := by
  obtain ⟨t, ht, hP⟩ := (Option.any_eq_true _ _).mp h
  have run := of_exec hf ht
  exact ⟨t, run, hQ t run (of_decide_eq_true hP)⟩

end

end Run

end Singularity.Foundation
