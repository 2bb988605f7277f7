import Mathlib.Data.Nat.Bitwise

/-!
# Unsigned machine words as natural numbers

A 64-bit word is a natural number below `2 ^ 64`. The operations reduce their
result modulo the word size, as unsigned C arithmetic and release-mode Rust
arithmetic do. `alignUp` is the usual mask formula, including its wrap-around.
An `int` that is used as a counter is a bit vector; away from its ends it counts.
-/

namespace Singularity.Foundation.Word

open Nat

/-- Unsigned 64-bit addition. -/
def add (a b : Nat) : Nat := (a + b) % 2 ^ 64

/-- Unsigned 64-bit subtraction of words. -/
def sub (a b : Nat) : Nat := (a + 2 ^ 64 - b) % 2 ^ 64

/-- Unsigned 64-bit multiplication. -/
def mul (a b : Nat) : Nat := (a * b) % 2 ^ 64

/-- Bitwise complement of a 64-bit word. -/
def compl (a : Nat) : Nat := 2 ^ 64 - 1 - a

/-- Truncation to 32 bits. -/
def low32 (a : Nat) : Nat := a % 2 ^ 32

/-- The formula `(x + (a - 1)) & ~(a - 1)` on 64-bit words. -/
def alignUp (x a : Nat) : Nat := add x (sub a 1) &&& compl (sub a 1)

lemma add_lt (a b : Nat) : add a b < 2 ^ 64 := mod_lt _ (by decide)

variable {count : BitVec 32}

lemma add_eq (h : a + b < 2 ^ 64) : add a b = a + b := mod_eq_of_lt h

lemma sub_eq (ha : a < 2 ^ 64) (h : b ≤ a) : sub a b = a - b := by
  unfold sub
  omega

lemma mul_eq (h : a * b < 2 ^ 64) : mul a b = a * b := mod_eq_of_lt h

lemma low32_eq (h : a < 2 ^ 32) : low32 a = a := mod_eq_of_lt h

private lemma toNat_and_not_add (x k : BitVec w) :
    (x &&& ~~~k).toNat + (x &&& k).toNat = x.toNat := by
  have h0 : (x &&& ~~~k) &&& (x &&& k) = 0#w := by
    ext i
    simp only [BitVec.getElem_and, BitVec.getElem_not, BitVec.getElem_zero]
    cases x[i] <;> cases k[i] <;> rfl
  have hor : (x &&& ~~~k) ||| (x &&& k) = x := by
    ext i
    simp only [BitVec.getElem_or, BitVec.getElem_and, BitVec.getElem_not]
    cases x[i] <;> cases k[i] <;> rfl
  rw [← BitVec.toNat_add_of_and_eq_zero h0, BitVec.add_eq_or_of_and_eq_zero _ _ h0, hor]

/-- Masking off the low `k` bits rounds down to a multiple of `2 ^ k`. -/
lemma and_compl_two_pow (hy : y < 2 ^ 64) (hk : k ≤ 64) :
    y &&& compl (2 ^ k - 1) = y / 2 ^ k * 2 ^ k := by
  have hpos : 0 < 2 ^ k := Nat.two_pow_pos k
  have hle : 2 ^ k ≤ 2 ^ 64 := Nat.pow_le_pow_right (by decide) hk
  have hc : compl (2 ^ k - 1) = 2 ^ 64 - (2 ^ k - 1 + 1) := by
    unfold compl
    omega
  apply eq_of_testBit_eq
  intro i
  rw [hc, testBit_and, testBit_two_pow_sub_succ (by omega), testBit_two_pow_sub_one,
    testBit_mul_two_pow, testBit_div_two_pow]
  by_cases hi : i < k
  · have : ¬ k ≤ i := by omega
    simp [hi]
  have hki : k ≤ i := by omega
  have hsum : i - k + k = i := by omega
  by_cases h64 : i < 64
  · simp [hi, hki, hsum, h64]
  · have hbit : y.testBit i = false :=
      Nat.testBit_lt_two_pow (hy.trans_le (Nat.pow_le_pow_right (by decide) (by omega)))
    simp [hi, hki, hsum, h64, hbit]

/-- For a power of two the mask of `alignUp` rounds the word sum down. -/
lemma alignUp_eq (hk : k ≤ 64) (x : Nat) :
    alignUp x (2 ^ k) = add x (2 ^ k - 1) / 2 ^ k * 2 ^ k := by
  have hpos : 0 < 2 ^ k := Nat.two_pow_pos k
  have hle : 2 ^ k ≤ 2 ^ 64 := Nat.pow_le_pow_right (by decide) hk
  have hs : sub (2 ^ k) 1 = 2 ^ k - 1 := by
    unfold sub
    omega
  rw [alignUp, hs, and_compl_two_pow (add_lt _ _) hk]

lemma dvd_alignUp (hk : k ≤ 64) (x : Nat) : 2 ^ k ∣ alignUp x (2 ^ k) := by
  rw [alignUp_eq hk]
  exact dvd_mul_left _ _

/-- Without wrap-around `alignUp` rounds up to the next multiple of a power of two. -/
lemma alignUp_two_pow (h : x + 2 ^ k ≤ 2 ^ 64) :
    alignUp x (2 ^ k) = (x + (2 ^ k - 1)) / 2 ^ k * 2 ^ k := by
  have hpos : 0 < 2 ^ k := Nat.two_pow_pos k
  have hk : k ≤ 64 := by
    by_contra hlt
    have hp : 2 ^ 64 < 2 ^ k := Nat.pow_lt_pow_right (by decide) (by omega)
    omega
  have ha : add x (2 ^ k - 1) = x + (2 ^ k - 1) := add_eq (by omega)
  rw [alignUp_eq hk, ha]

/-- A word is the sum of its parts outside and inside a mask. -/
lemma and_compl_add (hy : y < 2 ^ 64) (hm : m < 2 ^ 64) : (y &&& compl m) + (y &&& m) = y := by
  have h := toNat_and_not_add (BitVec.ofNat 64 y) (BitVec.ofNat 64 m)
  simp only [BitVec.toNat_and, BitVec.toNat_not, BitVec.toNat_ofNat, mod_eq_of_lt hy,
    mod_eq_of_lt hm] at h
  exact h

/-- Without wrap-around `alignUp` moves up by less than the alignment, power of two or not. -/
lemma alignUp_bounds (ha : 0 < a) (h : x + a ≤ 2 ^ 64) : x ≤ alignUp x a ∧ alignUp x a < x + a := by
  have hs : sub a 1 = a - 1 := by
    unfold sub
    omega
  have hadd : add x (a - 1) = x + (a - 1) := add_eq (by omega)
  have hsplit := and_compl_add (y := x + (a - 1)) (m := a - 1) (by omega) (by omega)
  have hmask : (x + (a - 1)) &&& (a - 1) ≤ a - 1 := and_le_right
  rw [alignUp, hs, hadd]
  omega

lemma le_alignUp (ha : 0 < a) (h : x + a ≤ 2 ^ 64) : x ≤ alignUp x a :=
  (alignUp_bounds ha h).1

/-- A factor `2 ^ k` of the alignment divides the result. -/
lemma two_pow_dvd_alignUp (hk : k ≤ 64) (ha : 0 < a) (hlt : a < 2 ^ 64)
    (hdvd : 2 ^ k ∣ a) (x : Nat) : 2 ^ k ∣ alignUp x a := by
  have hs : sub a 1 = a - 1 := by
    unfold sub
    omega
  have hmask : compl (a - 1) = 2 ^ 64 - a := by
    unfold compl
    omega
  have h0 : (2 ^ 64 - a) % 2 ^ k = 0 :=
    mod_eq_zero_of_dvd (dvd_sub (pow_dvd_pow 2 hk) hdvd)
  rw [alignUp, hs, hmask]
  apply dvd_of_mod_eq_zero
  rw [and_mod_two_pow, h0, and_zero]

lemma alignUp_one (hx : x < 2 ^ 64) : alignUp x 1 = x := by
  have h := alignUp_two_pow (x := x) (k := 0) (by omega)
  simpa using h

/-- However the mask behaves, a small word is never moved into the last `2 ^ 52` words. -/
lemma alignUp_lt_of_lt (hx : x < 2 ^ 53) : alignUp x a < 2 ^ 64 - 2 ^ 52 := by
  by_contra hge
  have hm : alignUp x a ≤ compl (sub a 1) := and_le_right
  have hl : alignUp x a ≤ add x (sub a 1) := and_le_left
  unfold compl at hm
  have hs : sub a 1 < 2 ^ 52 := by omega
  have ha : add x (sub a 1) = x + sub a 1 := add_eq (by omega)
  omega

lemma testBit_of_bounds (hlo : 2 ^ k ≤ x) (hhi : x < 2 ^ (k + 1)) : x.testBit k = true := by
  have hdiv : x / 2 ^ k = 1 := by
    apply Nat.div_eq_of_lt_le
    · rwa [Nat.one_mul]
    · rwa [mul_comm, ← pow_succ]
  rw [testBit_eq_decide_div_mod_eq, hdiv]
  rfl

/-- The usual test for a power of two. -/
lemma exists_two_pow_of_and_pred (hne : a ≠ 0) (hand : a &&& (a - 1) = 0) : ∃ k, a = 2 ^ k := by
  refine ⟨a.log2, ?_⟩
  by_contra hnot
  have hlo : 2 ^ a.log2 ≤ a := log2_self_le hne
  have hhi : a < 2 ^ (a.log2 + 1) := lt_log2_self
  have hbit : (a &&& (a - 1)).testBit a.log2 = true := by
    rw [testBit_and, testBit_of_bounds hlo hhi, testBit_of_bounds (by omega) (by omega)]
    rfl
  rw [hand, zero_testBit] at hbit
  cases hbit

lemma toInt_pred (h : 0 < count.toInt) : (count - 1).toInt = count.toInt - 1 := by
  have := count.toInt_lt
  rw [BitVec.toInt_sub, Int.bmod_eq_of_le] <;> simp <;> omega

lemma toInt_succ (h : count.toInt < 2 ^ 31 - 1) : (count + 1).toInt = count.toInt + 1 := by
  have := count.le_toInt
  rw [BitVec.toInt_add, Int.bmod_eq_of_le] <;> simp <;> omega

end Singularity.Foundation.Word
