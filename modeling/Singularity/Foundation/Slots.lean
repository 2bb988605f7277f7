import Mathlib.Algebra.BigOperators.Group.Finset.Piecewise

/-!
# Slots with a free list

A slot table is a map from numbers to optional contents. Slot zero is never given out;
`FreeSlots` says that a list holds exactly the other empty slots below a bound, each once.
`slotCount` counts the slots whose content passes a test.
-/

namespace Singularity.Foundation

open Function Finset

universe u
variable {α : Type u} {n i : Nat} {slots : Nat → Option α} {free : List Nat} {p : Option α → Bool}

/-- The list holds exactly the empty slots from `1` to `n - 1`, each once. -/
structure FreeSlots (n : Nat) (slots : Nat → Option α) (free : List Nat) : Prop where
  nodup : free.Nodup
  mem_iff : ∀ i, i ∈ free ↔ (0 < i ∧ i < n) ∧ slots i = none

namespace FreeSlots

lemma take (h : FreeSlots n slots (i :: free)) (a : α) :
    FreeSlots n (update slots i (some a)) free := by
  obtain ⟨hnotMem, hnodup⟩ := List.nodup_cons.mp h.nodup
  refine ⟨hnodup, fun j => ?_⟩
  by_cases hj : j = i
  · subst hj
    simp [hnotMem]
  · rw [update_of_ne hj, ← h.mem_iff j, List.mem_cons]
    simp [hj]

lemma release (h : FreeSlots n slots free) (hbd : 0 < i ∧ i < n) (hfull : slots i ≠ none) :
    FreeSlots n (update slots i none) (i :: free) := by
  refine ⟨List.nodup_cons.mpr ⟨fun hmem => hfull ((h.mem_iff i).mp hmem).2, h.nodup⟩, fun j => ?_⟩
  by_cases hj : j = i
  · subst hj
    simp [hbd]
  · rw [update_of_ne hj, ← h.mem_iff j, List.mem_cons]
    simp [hj]

end FreeSlots

/-- The number of slots below `n` whose content passes a test. -/
def slotCount (n : Nat) (slots : Nat → Option α) (p : Option α → Bool) : Nat :=
  ((Finset.range n).filter fun i => p (slots i) = true).card

/-- Writing a place of a sum takes away what it counted for and adds what it counts for now. -/
lemma sum_update_add {ι β : Type*} [DecidableEq ι] {s : Finset ι} {i : ι} (hi : i ∈ s)
    (w : β → Nat) (f : ι → β) (x : β) :
    ∑ j ∈ s, w (update f i x j) + w (f i) = ∑ j ∈ s, w (f j) + w x := by
  have hrest : ∑ j ∈ s.erase i, w (update f i x j) = ∑ j ∈ s.erase i, w (f j) :=
    sum_congr rfl fun j hj => by rw [update_of_ne (ne_of_mem_erase hj)]
  rw [← add_sum_erase s _ hi, ← add_sum_erase s (fun j => w (f j)) hi, hrest, update_self]
  omega

lemma slotCount_update (hi : i < n) (x : Option α) (p : Option α → Bool) :
    slotCount n (update slots i x) p + (p (slots i)).toNat =
      slotCount n slots p + (p x).toNat := by
  have hsum (f : Nat → Option α) : slotCount n f p = ∑ j ∈ Finset.range n, (p (f j)).toNat := by
    rw [slotCount, card_filter]
    exact sum_congr rfl fun j _ => by cases p (f j) <;> rfl
  rw [hsum, hsum]
  exact sum_update_add (mem_range.mpr hi) (fun x => (p x).toNat) slots x

lemma slotCount_pos (hi : i < n) (hp : p (slots i) = true) : 0 < slotCount n slots p :=
  card_pos.mpr ⟨i, mem_filter.mpr ⟨mem_range.mpr hi, hp⟩⟩

lemma slotCount_eq_zero : slotCount n slots p = 0 ↔ ∀ i < n, p (slots i) = false := by
  rw [slotCount, card_eq_zero, filter_eq_empty_iff]
  simp

end Singularity.Foundation
