import Mathlib.Data.List.Basic

/-!
# Growable vectors in blocks of storage

A block has a fixed length, and an access that leaves it has no result. A vector is kept in the
front of a block; behind it the block holds anything. Vectors grow by a filling element.
-/

namespace Singularity.Foundation

open List

variable {α : Type*} {a : α} {v b data : List α} {i n : Nat}

namespace Block

/-- Read `n` elements of a block. -/
def load (b : List α) (i n : Nat) : Option (List α) :=
  if i + n ≤ b.length then some ((b.drop i).take n) else none

/-- Overwrite a range of a block. -/
def store (b : List α) (i : Nat) (data : List α) : Option (List α) :=
  if i + data.length ≤ b.length then some (b.take i ++ data ++ b.drop (i + data.length)) else none

end Block

namespace Vec

/-- The elements of a range, as far as the vector has them. -/
def slice (v : List α) (i n : Nat) : List α := (v.drop i).take n

/-- Grow a vector to at least `n` elements. -/
def extend (a : α) (v : List α) (n : Nat) : List α := v ++ List.replicate (n - v.length) a

/-- Replace a range that starts in the vector or at its end; the vector grows if needed. -/
def patch (v : List α) (i : Nat) (data : List α) : List α :=
  v.take i ++ data ++ v.drop (i + data.length)

def write (a : α) (v : List α) (i : Nat) (data : List α) : List α := patch (extend a v i) i data

def resize (a : α) (v : List α) (n : Nat) : List α := (extend a v n).take n

@[simp] lemma length_extend : (extend a v n).length = max v.length n := by
  rw [extend, length_append, length_replicate]
  omega

lemma extend_of_le (h : n ≤ v.length) : extend a v n = v := by
  rw [extend, Nat.sub_eq_zero_of_le h, replicate_zero, append_nil]

lemma length_patch (h : i ≤ v.length) :
    (patch v i data).length = max v.length (i + data.length) := by
  simp only [patch, length_append, length_take, length_drop]
  omega

lemma length_resize : (resize a v n).length = n := by
  rw [resize, length_take, length_extend]
  omega

end Vec

namespace Block

/-- The front of a block is read as the vector in it. -/
lemma load_of_prefix (h : v <+: b) (hn : i + n ≤ v.length) :
    load b i n = some (Vec.slice v i n) := by
  obtain ⟨rest, rfl⟩ := h
  rw [load, if_pos (by rw [length_append]; omega), Vec.slice,
    drop_append_of_le_length (by omega),
    take_append_of_le_length (by rw [length_drop]; omega)]

lemma length_store (h : store b i data = some b') : b'.length = b.length := by
  rw [store] at h
  split at h <;> cases h
  case isTrue hroom =>
    simp only [length_append, length_take, length_drop]
    omega

/-- A store into the front of a block, or right behind it, patches the vector. -/
lemma store_of_prefix (data : List α) (h : v <+: b) (hi : i ≤ v.length)
    (hroom : i + data.length ≤ b.length) :
    ∃ b', store b i data = some b' ∧ b'.length = b.length ∧ Vec.patch v i data <+: b' := by
  have hstore : store b i data = some (b.take i ++ data ++ b.drop (i + data.length)) :=
    if_pos hroom
  refine ⟨_, hstore, length_store hstore, ?_⟩
  obtain ⟨rest, rfl⟩ := h
  rw [Vec.patch, take_append_of_le_length hi]
  apply (prefix_append_right_inj _).mpr
  obtain hle | hle := Nat.le_total (i + data.length) v.length
  · rw [drop_append_of_le_length hle]
    exact prefix_append _ _
  · rw [drop_eq_nil_of_le hle]
    exact nil_prefix

/-- A store of the filling element behind the vector extends it. -/
lemma store_fill (h : v <+: b) (hv : v.length ≤ n) (hroom : n ≤ b.length) :
    ∃ b', store b v.length (List.replicate (n - v.length) a) = some b' ∧ b'.length = b.length ∧
      Vec.extend a v n <+: b' := by
  obtain ⟨b', hstore, hlen, hprefix⟩ := store_of_prefix (List.replicate (n - v.length) a) h
    (Nat.le_refl _) (by rw [length_replicate]; omega)
  refine ⟨b', hstore, hlen, ?_⟩
  rwa [Vec.patch, take_length, drop_eq_nil_of_le (Nat.le_add_right _ _), append_nil] at hprefix

end Block

end Singularity.Foundation
