import Mathlib.Data.Finset.Card
import Mathlib.Logic.Function.Basic

/-!
# Counting threads by what they do

`Census p f n` says that exactly `n` threads are in a state with `p`. A thread that changes
its state enters the count, leaves it, or does neither.
-/

namespace Singularity.Foundation

open Function Finset

variable {τ β : Type*}

/-- A value after an update is the new one, or an old one of another thread. -/
lemma update_eq_iff [DecidableEq τ] {f : τ → β} {t t' : τ} {b c : β} :
    update f t b t' = c ↔ (t' = t ∧ b = c) ∨ (t' ≠ t ∧ f t' = c) := by
  by_cases heq : t' = t
  · subst heq
    simp
  · simp [heq]

/-- The threads with `p` are `n` in number. -/
def Census (p : β → Prop) (f : τ → β) (n : Nat) : Prop :=
  ∃ s : Finset τ, s.card = n ∧ ∀ t, t ∈ s ↔ p (f t)

namespace Census

variable {p : β → Prop} {f : τ → β} {n : Nat} {t : τ} {b : β}

lemma zero (h : ∀ t, ¬p (f t)) : Census p f 0 := ⟨∅, rfl, fun t => by simp [h t]⟩

variable (h : Census p f n)
include h

lemma eq_zero_iff : n = 0 ↔ ∀ t, ¬p (f t) := by
  obtain ⟨s, rfl, hs⟩ := h
  rw [Finset.card_eq_zero, eq_empty_iff_forall_notMem]
  exact forall_congr' fun t => not_congr (hs t)

lemma pos_iff : 0 < n ↔ ∃ t, p (f t) := by
  rw [Nat.pos_iff_ne_zero, ne_eq, h.eq_zero_iff, not_forall_not]

variable [DecidableEq τ]

/-- A thread starts to be counted. -/
lemma enter (hold : ¬p (f t)) (hnew : p b) : Census p (update f t b) (n + 1) := by
  obtain ⟨s, rfl, hs⟩ := h
  have hmem : t ∉ s := fun hmem => hold ((hs t).mp hmem)
  refine ⟨insert t s, card_insert_of_notMem hmem, fun t' => ?_⟩
  by_cases heq : t' = t
  · subst heq
    simp [hnew]
  · simp [heq, hs]

/-- A thread is not counted any more. -/
lemma leave (hold : p (f t)) (hnew : ¬p b) : Census p (update f t b) (n - 1) := by
  obtain ⟨s, rfl, hs⟩ := h
  refine ⟨s.erase t, card_erase_of_mem ((hs t).mpr hold), fun t' => ?_⟩
  by_cases heq : t' = t
  · subst heq
    simp [hnew]
  · simp [heq, hs]

/-- A thread is counted as before. -/
lemma stay (hsame : p b ↔ p (f t)) : Census p (update f t b) n := by
  obtain ⟨s, hcard, hs⟩ := h
  refine ⟨s, hcard, fun t' => ?_⟩
  rw [update_apply]
  split_ifs with heq
  · subst heq
    rw [hsame]
    exact hs t'
  · exact hs t'

end Census

end Singularity.Foundation
