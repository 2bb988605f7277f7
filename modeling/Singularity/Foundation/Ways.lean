import Mathlib.Data.Fin.Basic
import Mathlib.Data.List.FinRange
import Mathlib.Logic.Function.Basic

/-!
# Set-associative tables

A table has a fixed number of ways in every set. A line is found by its key in the set to which
an index function sends the key. In a sound table every valid line stands in the set of its key
and no two valid lines have one key; the lines mirror a function if they hold its values.
-/

namespace Singularity.Foundation

open Function

universe u v w

/-- One way of a set. -/
structure Line (κ : Type u) (δ : Type v) where
  key : κ
  data : δ
  valid : Bool
  lastAccess : Nat

/-- The lines of all sets. -/
abbrev WayTable (ι : Type w) (ways : Nat) (κ : Type u) (δ : Type v) := ι → Fin ways → Line κ δ

namespace WayTable

variable {ι : Type w} [DecidableEq ι] {ways : Nat} {κ : Type u} [DecidableEq κ] {δ : Type v}

/-- A set of the table holds a valid line with the key. -/
def HoldsAt (t : WayTable ι ways κ δ) (i : ι) (j : Fin ways) (k : κ) : Prop :=
  (t i j).valid = true ∧ (t i j).key = k

/-- The first way of a set with the key. -/
def lookup (t : WayTable ι ways κ δ) (i : ι) (k : κ) : Option (Fin ways) :=
  (List.finRange ways).find? fun j => (t i j).valid && decide ((t i j).key = k)

/-- Store a line in a way. -/
def put (t : WayTable ι ways κ δ) (i : ι) (j : Fin ways) (line : Line κ δ) :
    WayTable ι ways κ δ :=
  update t i (update (t i) j line)

/-- Invalidate the lines of one set whose keys satisfy a test. -/
def dropIn (t : WayTable ι ways κ δ) (i : ι) (p : κ → Bool) : WayTable ι ways κ δ :=
  update t i fun j => { t i j with valid := (t i j).valid && !p (t i j).key }

/-- Look through the ways of a set for the one to replace: the first invalid one, or the first
of those that have not been used for longest. -/
def victimLoop (lines : Fin ways → Line κ δ) : List (Fin ways) → Fin ways → Nat → Fin ways
  | [], victim, _ => victim
  | j :: rest, victim, oldest =>
    if (lines j).valid then
      if (lines j).lastAccess < oldest then victimLoop lines rest j (lines j).lastAccess
      else victimLoop lines rest victim oldest
    else j

/-- Valid lines stand where they are looked for, and no key has two of them. -/
structure Sound (index : κ → ι) (t : WayTable ι ways κ δ) : Prop where
  placed : ∀ i j k, t.HoldsAt i j k → index k = i
  unique : ∀ i j j' k, t.HoldsAt i j k → t.HoldsAt i j' k → j = j'

/-- Valid lines hold the values of a function. -/
def Mirrors (t : WayTable ι ways κ δ) (f : κ → δ) : Prop :=
  ∀ i j k, t.HoldsAt i j k → (t i j).data = f k

variable {t : WayTable ι ways κ δ} {i i' : ι} {j j' : Fin ways} {k k' : κ} {line : Line κ δ}
  {index : κ → ι} {f g : κ → δ} {p : κ → Bool}

omit [DecidableEq ι] in
lemma holdsAt_of_lookup (h : t.lookup i k = some j) : t.HoldsAt i j k := by
  have hfound := List.find?_some h
  rwa [Bool.and_eq_true, decide_eq_true_eq] at hfound

omit [DecidableEq ι] in
lemma not_holdsAt_of_lookup (h : t.lookup i k = none) (j : Fin ways) : ¬t.HoldsAt i j k := by
  intro hholds
  have hnot := List.find?_eq_none.mp h j (List.mem_finRange j)
  exact hnot (Bool.and_eq_true_iff.mpr ⟨hholds.1, decide_eq_true hholds.2⟩)

omit [DecidableEq ι] in
/-- A key that is not found in its set has no valid line in the table. -/
lemma Sound.not_holdsAt (ht : t.Sound index) (h : t.lookup (index k) k = none) (i : ι)
    (j : Fin ways) : ¬t.HoldsAt i j k := by
  intro hholds
  have hi := ht.placed i j k hholds
  subst hi
  exact not_holdsAt_of_lookup h j hholds

omit [DecidableEq ι] in
/-- A valid line of a key is the one that is found. -/
lemma Sound.eq_of_lookup (ht : t.Sound index) (h : t.lookup (index k) k = some j)
    (hholds : t.HoldsAt i' j' k) : i' = index k ∧ j' = j := by
  have hi := ht.placed i' j' k hholds
  subst hi
  exact ⟨rfl, ht.unique _ _ _ _ hholds (holdsAt_of_lookup h)⟩

omit [DecidableEq κ] in
lemma put_self : t.put i j line i j = line := by
  simp [put]

omit [DecidableEq κ] in
lemma put_of_ne (h : i' ≠ i ∨ j' ≠ j) : t.put i j line i' j' = t i' j' := by
  rw [put, update_apply]
  split_ifs with hi
  · subst hi
    rw [update_of_ne (h.resolve_left (· rfl))]
  · rfl

omit [DecidableEq κ] in
/-- A valid line behind a store is the stored one or was there before. -/
lemma HoldsAt.of_put (h : (t.put i j line).HoldsAt i' j' k') :
    i' = i ∧ j' = j ∧ line.valid = true ∧ line.key = k' ∨
      (i' ≠ i ∨ j' ≠ j) ∧ t.HoldsAt i' j' k' := by
  by_cases hij : i' = i ∧ j' = j
  · obtain ⟨rfl, rfl⟩ := hij
    rw [HoldsAt, put_self] at h
    exact .inl ⟨rfl, rfl, h.1, h.2⟩
  have hne : i' ≠ i ∨ j' ≠ j := by
    by_cases hi : i' = i
    · exact .inr fun hj => hij ⟨hi, hj⟩
    · exact .inl hi
  rw [HoldsAt, put_of_ne hne] at h
  exact .inr ⟨hne, h⟩

omit [DecidableEq κ] in
/-- A line is stored whose key has no valid line elsewhere. -/
lemma Sound.put (ht : t.Sound index) (hidx : index line.key = i)
    (hfree : ∀ i' j', t.HoldsAt i' j' line.key → i' = i ∧ j' = j) :
    (t.put i j line).Sound index where
  placed i' j' k' h := by
    obtain ⟨rfl, -, -, hkey⟩ | ⟨-, h⟩ := h.of_put
    · rwa [← hkey]
    · exact ht.placed i' j' k' h
  unique i' j1 j2 k' h1 h2 := by
    obtain ⟨-, rfl, -, hkey⟩ | ⟨-, hold1⟩ := h1.of_put
    · obtain ⟨-, rfl, -⟩ | ⟨-, hold2⟩ := h2.of_put
      · rfl
      · exact (hfree i' j2 (hkey ▸ hold2)).2.symm
    · obtain ⟨-, rfl, -, hkey⟩ | ⟨-, hold2⟩ := h2.of_put
      · exact (hfree i' j1 (hkey ▸ hold1)).2
      · exact ht.unique i' j1 j2 k' hold1 hold2

omit [DecidableEq κ] in
/-- A line is stored with the value of its key. -/
lemma Mirrors.put (hf : t.Mirrors f) (hdata : line.data = g line.key)
    (hg : ∀ i' j' k', t.HoldsAt i' j' k' → (i' ≠ i ∨ j' ≠ j) → g k' = f k') :
    (t.put i j line).Mirrors g := by
  intro i' j' k' h
  obtain ⟨rfl, rfl, -, rfl⟩ | ⟨hne, h⟩ := h.of_put
  · rwa [put_self]
  · rw [put_of_ne hne, hg i' j' k' h hne]
    exact hf i' j' k' h

omit [DecidableEq κ] in
lemma holdsAt_dropIn :
    (t.dropIn i p).HoldsAt i' j' k' ↔ t.HoldsAt i' j' k' ∧ (i' = i → p k' = false) := by
  unfold HoldsAt dropIn
  by_cases hi : i' = i
  · subst hi
    rw [update_self]
    constructor
    · rintro ⟨hval, rfl⟩
      rw [Bool.and_eq_true] at hval
      exact ⟨⟨hval.1, rfl⟩, fun _ => by simpa using hval.2⟩
    · rintro ⟨⟨hval, rfl⟩, hp⟩
      rw [hval, hp rfl]
      exact ⟨rfl, rfl⟩
  · rw [update_of_ne hi]
    exact ⟨fun h => ⟨h, fun heq => absurd heq hi⟩, fun h => h.1⟩

omit [DecidableEq κ] in
lemma data_dropIn : (t.dropIn i p i' j').data = (t i' j').data := by
  rw [dropIn, update_apply]
  split_ifs with hi
  · rw [hi]
  · rfl

omit [DecidableEq κ] in
lemma Sound.dropIn (ht : t.Sound index) (i : ι) (p : κ → Bool) : (t.dropIn i p).Sound index where
  placed i' j' k' h := ht.placed i' j' k' (holdsAt_dropIn.mp h).1
  unique i' j1 j2 k' h1 h2 :=
    ht.unique i' j1 j2 k' (holdsAt_dropIn.mp h1).1 (holdsAt_dropIn.mp h2).1

omit [DecidableEq κ] in
lemma Mirrors.dropIn (hf : t.Mirrors f) (i : ι) (p : κ → Bool) : (t.dropIn i p).Mirrors f := by
  intro i' j' k' h
  rw [data_dropIn]
  exact hf i' j' k' (holdsAt_dropIn.mp h).1

end WayTable

end Singularity.Foundation
