import Mathlib.Tactic.Ring

/-!
# Byte-addressed memory

A memory gives a byte to every address. Words are stored with the least
significant byte first, at any address. `SameOutside` says which bytes an
operation may have changed; reads of other bytes are unaffected.
-/

namespace Singularity.Foundation

/-- A byte-addressed memory. -/
abbrev Mem := Nat → UInt8

namespace Mem

/-- The number stored in `n` bytes. -/
def readBytes (m : Mem) : Nat → Nat → Nat
  | _, 0 => 0
  | a, n + 1 => (m a).toNat + 256 * readBytes m (a + 1) n

/-- Store the low `n` bytes of a number. -/
def writeBytes (m : Mem) (a n w : Nat) : Mem := fun x =>
  if a ≤ x ∧ x < a + n then UInt8.ofNat (w / 256 ^ (x - a)) else m x

def read64 (m : Mem) (a : Nat) : Nat := readBytes m a 8

def write64 (m : Mem) (a w : Nat) : Mem := writeBytes m a 8 w

/-- Store one byte at `n` addresses. -/
def fill (m : Mem) (a n : Nat) (b : UInt8) : Mem := fun x =>
  if a ≤ x ∧ x < a + n then b else m x

/-- Store one word `n` times in a row. -/
def fill64 (w : Nat) : Mem → Nat → Nat → Mem
  | m, _, 0 => m
  | m, a, n + 1 => fill64 w (write64 m a w) (a + 8) n

/-- Only the `n` bytes at `a` may differ. -/
def SameOutside (a n : Nat) (m m' : Mem) : Prop := ∀ x, x < a ∨ a + n ≤ x → m' x = m x

lemma SameOutside.refl (a n : Nat) (m : Mem) : SameOutside a n m m := fun _ _ => rfl

variable {a n b k w x : Nat} {m m' src : Mem}

lemma SameOutside.trans (h : SameOutside a n m1 m2) (h' : SameOutside a n m2 m3) :
    SameOutside a n m1 m3 :=
  fun x hx => (h' x hx).trans (h x hx)

/-- A change to a part of a range is a change to the range. -/
lemma SameOutside.mono (h : SameOutside b k m m') (hlo : a ≤ b)
    (hhi : b + k ≤ a + n) : SameOutside a n m m' := by
  intro x hx
  apply h x
  omega

lemma sameOutside_writeBytes (m : Mem) (a n w : Nat) : SameOutside a n m (writeBytes m a n w) := by
  intro x hx
  exact if_neg (by omega)

lemma sameOutside_write64 (m : Mem) (a w : Nat) : SameOutside a 8 m (write64 m a w) :=
  sameOutside_writeBytes m a 8 w

lemma sameOutside_fill (m : Mem) (a n : Nat) (b : UInt8) : SameOutside a n m (fill m a n b) := by
  intro x hx
  exact if_neg (by omega)

lemma sameOutside_fill64 (w : Nat) (m : Mem) (a n : Nat) :
    SameOutside a (8 * n) m (fill64 w m a n) := by
  induction n generalizing m a with
  | zero => exact SameOutside.refl _ _ _
  | succ n ih =>
    have hfirst : SameOutside a (8 * (n + 1)) m (write64 m a w) :=
      (sameOutside_write64 m a w).mono le_rfl (by omega)
    exact hfirst.trans ((ih (write64 m a w) (a + 8)).mono (by omega) (by omega))

lemma readBytes_congr (h : ∀ x, a ≤ x → x < a + n → m' x = m x) :
    readBytes m' a n = readBytes m a n := by
  induction n generalizing a with
  | zero => rfl
  | succ n ih =>
    simp only [readBytes]
    rw [h a le_rfl (by omega), ih fun x hlo hhi => h x (by omega) (by omega)]

lemma read64_congr (h : ∀ x, a ≤ x → x < a + 8 → m' x = m x) : read64 m' a = read64 m a :=
  readBytes_congr h

/-- A word outside the changed range is read as before. -/
lemma SameOutside.read64 (h : SameOutside a n m m')
    (hb : b + 8 ≤ a ∨ a + n ≤ b) : m'.read64 b = m.read64 b := by
  apply read64_congr
  intro x hlo hhi
  apply h x
  omega

lemma readBytes_writeBytes (m : Mem) (a n w : Nat) :
    readBytes (writeBytes m a n w) a n = w % 256 ^ n := by
  induction n generalizing m a w with
  | zero => simp [readBytes, Nat.mod_one]
  | succ n ih =>
    have hfirst : (writeBytes m a (n + 1) w a).toNat = w % 256 := by
      simp [writeBytes]
    have hrest : readBytes (writeBytes m a (n + 1) w) (a + 1) n = w / 256 % 256 ^ n := by
      rw [← ih m (a + 1) (w / 256)]
      apply readBytes_congr
      intro x hlo hhi
      have hx : x - a = (x - (a + 1)) + 1 := by omega
      have hin : a ≤ x ∧ x < a + (n + 1) := by omega
      have hin' : a + 1 ≤ x ∧ x < a + 1 + n := by omega
      simp only [writeBytes, if_pos hin, if_pos hin', hx, pow_succ', Nat.div_div_eq_div_mul]
    rw [readBytes, hfirst, hrest, pow_succ', Nat.mod_mul]

lemma read64_write64 (hw : w < 2 ^ 64) : (m.write64 a w).read64 a = w := by
  rw [read64, write64, readBytes_writeBytes]
  exact Nat.mod_eq_of_lt hw

/-- Words outside the changed range are read as before. -/
lemma SameOutside.readBytes (h : SameOutside a n m m')
    (hb : b + k ≤ a ∨ a + n ≤ b) : m'.readBytes b k = m.readBytes b k := by
  apply readBytes_congr
  intro x hlo hhi
  apply h x
  omega

/-- Copy `n` bytes of another memory. -/
def copy (m : Mem) (a n : Nat) (src : Mem) : Mem := fun x =>
  if a ≤ x ∧ x < a + n then src (x - a) else m x

lemma sameOutside_copy (m : Mem) (a n : Nat) (src : Mem) : SameOutside a n m (copy m a n src) := by
  intro x hx
  exact if_neg (by omega)

lemma readBytes_writeBytes_of_disjoint
    (h : b + k ≤ a ∨ a + n ≤ b) : (m.writeBytes a n w).readBytes b k = m.readBytes b k :=
  (sameOutside_writeBytes m a n w).readBytes h

lemma readBytes_copy_of_disjoint (h : b + k ≤ a ∨ a + n ≤ b) :
    (m.copy a n src).readBytes b k = m.readBytes b k :=
  (sameOutside_copy m a n src).readBytes h

lemma copy_apply (hx : x < n) : m.copy a n src (a + x) = src x := by
  rw [copy, if_pos (by omega), Nat.add_sub_cancel_left]

lemma fill_apply {b : UInt8} (hlo : a ≤ x) (hhi : x < a + n) : m.fill a n b x = b :=
  if_pos ⟨hlo, hhi⟩

end Mem

end Singularity.Foundation
