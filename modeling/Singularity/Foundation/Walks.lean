import Mathlib.Data.Set.Card
import Mathlib.Logic.Relation

/-!
# Walks along links

A loop that follows links has one state for each pass, and its step gives the next one or none. A
walk ends if a measure gets smaller with every pass; over finitely many states it ends exactly if
no place that it reaches leads back to itself.
-/

namespace Singularity.Foundation

open Relation

/-- The state of pass `n`. -/
def visit {σ : Type*} (step : σ → Option σ) (s : σ) : Nat → Option σ
  | 0 => some s
  | n + 1 => (visit step s n).bind step

def Halts {σ : Type*} (step : σ → Option σ) (s : σ) : Prop := ∃ n, visit step s n = none

/-- Some place that can be reached by the links leads back to itself. -/
def Cyclic {σ : Type*} (link : σ → σ → Prop) (s : σ) : Prop :=
  ∃ x, ReflTransGen link s x ∧ TransGen link x x

variable {σ : Type*} {step : σ → Option σ} {link : σ → σ → Prop} {s x : σ}

theorem visit_of_step (h : step s = some x) (n : Nat) : visit step s (n + 1) = visit step x n := by
  induction n with
  | zero => exact h
  | succ n ih => exact congrArg (Option.bind · step) ih

theorem Halts.next (hs : Halts step s) (h : step s = some x) : Halts step x := by
  obtain ⟨n, hn⟩ := hs
  cases n with
  | zero => cases hn
  | succ n => exact ⟨n, (visit_of_step h n).symm.trans hn⟩

/-- The variant rule: what holds at the start and is kept by every pass may be used for the
progress of the measure. -/
theorem halts_of_decreases (measure : σ → Nat) {I : σ → Prop} (hs : I s)
    (hstep : ∀ x y, I x → step x = some y → I y ∧ measure y < measure x) : Halts step s := by
  generalize hm : measure s = m
  induction m using Nat.strong_induction_on generalizing s with
  | _ m ih =>
      cases hnext : step s with
      | none => exact ⟨1, hnext⟩
      | some x =>
          obtain ⟨hx, hlt⟩ := hstep s x hs hnext
          obtain ⟨n, hn⟩ := ih (measure x) (hm ▸ hlt) hx rfl
          exact ⟨n + 1, (visit_of_step hnext n).trans hn⟩

section

variable (hlink : ∀ x y, step x = some y ↔ link x y)

include hlink

/-- A walk that ends does not come to a place that leads back to itself. -/
theorem Halts.not_cyclic (hs : Halts step s) : ¬ Cyclic link s := by
  rintro ⟨x, hreach, hback⟩
  have hx : Halts step x := by
    clear hback
    induction hreach with
    | refl => exact hs
    | tail _ h ih => exact ih.next ((hlink _ _).mpr h)
  obtain ⟨n, hn⟩ := hx
  clear hreach
  -- the cycle is followed from its next place, with one pass less to go
  induction n generalizing x with
  | zero => cases hn
  | succ n ih =>
      obtain ⟨y, hxy, hyx⟩ := TransGen.head'_iff.mp hback
      exact ih y (TransGen.tail' hyx hxy)
        ((visit_of_step ((hlink x y).mpr hxy) n).symm.trans hn)

theorem halts_iff_not_cyclic [Finite σ] : Halts step s ↔ ¬ Cyclic link s := by
  refine ⟨Halts.not_cyclic hlink, fun hacyclic => ?_⟩
  -- the number of places ahead gets smaller
  refine halts_of_decreases (fun x => {y | TransGen link x y}.ncard)
    (I := fun x => ReflTransGen link s x) .refl fun x y hx hxy => ?_
  rw [hlink] at hxy
  have hy := hx.tail hxy
  refine ⟨hy, Set.ncard_lt_ncard ⟨fun z hz => .head hxy hz, fun hsub => ?_⟩ (Set.toFinite _)⟩
  exact hacyclic ⟨y, hy, hsub (.single hxy)⟩

end

theorem not_halts_of_fixed (h : step s = some s) : ¬ Halts step s :=
  fun hs => hs.not_cyclic (fun _ _ => Iff.rfl) ⟨s, .refl, .single h⟩

end Singularity.Foundation
