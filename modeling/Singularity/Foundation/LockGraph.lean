import Mathlib.Algebra.Order.Group.Nat

/-!
# Lock tables and the wait-for relation

A lock table records which thread holds each lock. A thread that requests a lock waits for its
holder, which may be the thread itself. The threads are deadlocked if this relation has a cycle;
a rank that drops along every wait excludes cycles.
-/

namespace Singularity.Foundation

open Function

universe u v
variable {τ : Type u} {κ : Type v} {wants : τ → Option κ} {holder : κ → Option τ}

/-- `t` requests a lock that `u` holds. -/
def WaitsFor (wants : τ → Option κ) (holder : κ → Option τ) (t u : τ) : Prop :=
  ∃ l, wants t = some l ∧ holder l = some u

/-- No thread waits for itself, directly or through others. -/
def DeadlockFree (wants : τ → Option κ) (holder : κ → Option τ) : Prop :=
  ∀ t, ¬ Relation.TransGen (WaitsFor wants holder) t t

/-- A rank that drops along every wait excludes deadlocks. -/
lemma deadlockFree_of_rank (rank : τ → Nat)
    (hrank : ∀ t u, WaitsFor wants holder t u → rank u < rank t) : DeadlockFree wants holder := by
  have hchain : ∀ t u, Relation.TransGen (WaitsFor wants holder) t u → rank u < rank t := by
    intro t u h
    induction h with
    | single h => exact hrank _ _ h
    | tail _ h ih => exact (hrank _ _ h).trans ih
  intro t h
  exact lt_irrefl _ (hchain t t h)

/-- The table agrees with what each thread believes to hold. -/
def Tabled (holder : κ → Option τ) (holds : τ → List κ) : Prop :=
  ∀ l t, holder l = some t ↔ l ∈ holds t

variable {holds : τ → List κ} (h : Tabled holder holds)
include h

/-- A lock has one holder. -/
lemma Tabled.unique (ht : l ∈ holds t) (hu : l ∈ holds u) : t = u :=
  Option.some.inj (((h l t).mpr ht).symm.trans ((h l u).mpr hu))

variable [DecidableEq τ]

/-- A thread goes on without touching a lock. -/
lemma Tabled.same (hls : ∀ k, k ∈ ls ↔ k ∈ holds t) : Tabled holder (update holds t ls) := by
  intro k u
  rw [h k u]
  rw [update_apply]
  split_ifs with hu
  · subst hu
    rw [hls]
  · rfl

variable [DecidableEq κ]

/-- Taking a free lock. -/
lemma Tabled.acquire (hfree : holder l = none) (hls : ∀ k, k ∈ ls ↔ k = l ∨ k ∈ holds t) :
    Tabled (update holder l (some t)) (update holds t ls) := by
  have hnone : ∀ u, l ∉ holds u := by
    intro u hu
    rw [(h l u).mpr hu] at hfree
    cases hfree
  intro k u
  rw [update_apply]
  split_ifs with hk
  · subst hk
    rw [Option.some.injEq]
    rw [update_apply]
    split_ifs with hu
    · subst hu
      rw [hls]
      exact iff_of_true rfl (.inl rfl)
    · exact iff_of_false (Ne.symm hu) (hnone u)
  · rw [h k u]
    rw [update_apply]
    split_ifs with hu
    · subst hu
      rw [hls]
      exact (or_iff_right hk).symm
    · rfl

/-- Giving a lock back. -/
lemma Tabled.release (hheld : l ∈ holds t) (hls : ∀ k, k ∈ ls ↔ k ≠ l ∧ k ∈ holds t) :
    Tabled (update holder l none) (update holds t ls) := by
  intro k u
  rw [update_apply]
  split_ifs with hk
  · subst hk
    refine iff_of_false (by simp) ?_
    rw [update_apply]
    split_ifs with hu
    · rw [hls]
      exact fun hmem => hmem.1 rfl
    · exact fun hmem => hu (h.unique hmem hheld)
  · rw [h k u]
    rw [update_apply]
    split_ifs with hu
    · subst hu
      rw [hls]
      exact (and_iff_right hk).symm
    · rfl

end Singularity.Foundation
