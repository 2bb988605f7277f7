import Singularity.Foundation.Memory

/-!
# Loops over bytes and blocks

Routines on memory walk over their range in blocks and end with the bytes that are left. A loop
that makes of each member of a family of states the next one ends at a member of the family.
-/

namespace Singularity.Foundation

open Function Nat

/-- `while (num >= units) { body; i += bytes; num -= units; }`, with the state, the offset and the
count behind the loop. -/
def blockLoop {σ : Type*} (units bytes : Nat) (body : σ → Nat → σ) (s : σ) (i num : Nat) :
    σ × Nat × Nat :=
  if _h : 0 < units ∧ units ≤ num then
    blockLoop units bytes body (body s i) (i + bytes) (num - units)
  else (s, i, num)
termination_by num

section
variable {σ : Type*}

/-- A loop whose body leads from each state of a family to the next one. -/
lemma blockLoop_eq {I : Nat → Prop} (target : Nat → σ) (hunits : 0 < units)
    (hbody : ∀ i, I i → body (target i) i = target (i + bytes) ∧ I (i + bytes)) (hi : I i)
    (num : Nat) :
    blockLoop units bytes body (target i) i num =
      (target (i + bytes * (num / units)), i + bytes * (num / units), num % units) := by
  induction num using Nat.strong_induction_on generalizing i with
  | _ num ih =>
    rw [blockLoop]
    split_ifs with h
    · obtain ⟨hnext, hi'⟩ := hbody i hi
      rw [hnext, ih (num - units) (by omega) hi', div_eq_sub_div hunits h.2,
        mod_eq_sub_mod h.2, mul_succ]
      simp only [Nat.add_assoc, Nat.add_comm bytes]
    · have hlt : num < units := by omega
      simp [div_eq_of_lt hlt, mod_eq_of_lt hlt]

/-- A loop over single bytes goes to the end. -/
lemma blockLoop_bytes (target : Nat → σ) (hbody : ∀ i, body (target i) i = target (i + 1))
    (i num : Nat) : blockLoop 1 1 body (target i) i num = (target (i + num), i + num, 0) := by
  rw [blockLoop_eq (I := fun _ => True) target Nat.one_pos (fun i _ => ⟨hbody i, trivial⟩) trivial]
  simp [mod_one]

end

namespace Mem

variable {m : Mem} {a d s k n x : Nat}

lemma copy_copy (m : Mem) (a k n : Nat) (f : Nat → UInt8) :
    (m.copy a k f).copy (a + k) n (fun i => f (k + i)) = m.copy a (k + n) f := by
  funext x
  unfold copy
  split_ifs with h1 h2 h3 h4
  · exact congrArg f (by omega)
  all_goals first | rfl | omega

lemma fill_fill (m : Mem) (a k n : Nat) (b : UInt8) :
    (m.fill a k b).fill (a + k) n b = m.fill a (k + n) b := copy_copy m a k n fun _ => b

lemma update_eq_fill (m : Mem) (a : Nat) (b : UInt8) : update m a b = m.fill a 1 b := by
  funext x
  rw [update_apply, fill]
  congr 1
  exact propext (by omega)

lemma fill_of_le (h : k ≤ n) : (m.fill a k b).fill a n b = m.fill a n b := by
  funext x
  unfold fill
  split_ifs <;> first | rfl | omega

lemma fill_zero (m : Mem) (a : Nat) (b : UInt8) : m.fill a 0 b = m := by
  funext x
  exact if_neg (by omega)

/-- The bytes at an address. -/
def load (m : Mem) (s : Nat) : Nat → UInt8 := fun i => m (s + i)

lemma load_add (m : Mem) (s k : Nat) : m.load (s + k) = fun i => m.load s (k + i) :=
  funext fun i => congrArg m (Nat.add_assoc s k i)

/-- The bytes of a range are put into another one, all at once. -/
def move (m : Mem) (d s n : Nat) : Mem := m.copy d n (m.load s)

lemma update_eq_move (m : Mem) (d s : Nat) : update m d (m s) = m.move d s 1 := by
  funext x
  rw [update_apply, move, copy, load]
  by_cases hx : x = d
  · simp [hx]
  · rw [if_neg hx, if_neg (by omega)]

lemma move_zero (m : Mem) (d s : Nat) : m.move d s 0 = m := by
  funext x
  exact if_neg (by omega)

lemma move_self (m : Mem) (d n : Nat) : m.move d d n = m := by
  funext x
  unfold move copy load
  split_ifs
  · exact congrArg m (by omega)
  · rfl

/-- Towards lower addresses, a part that is moved leaves the rest of the source as it is. -/
lemma move_move (hds : d ≤ s) (k n : Nat) :
    (m.move d s k).move (d + k) (s + k) n = m.move d s (k + n) := by
  have hload : (m.move d s k).load (s + k) = fun i => m.load s (k + i) := by
    funext i
    rw [load, move, copy, if_neg (by omega), load, Nat.add_assoc]
  rw [move, hload]
  exact copy_copy m d k n (m.load s)

end Mem

end Singularity.Foundation
