import Singularity.Paging.Walk

/-!
# Well-formed page-table hierarchies

The tables of a hierarchy have depths: the root has depth 0, and page tables have depth 3. In a
well-formed hierarchy no table is used at two depths and no table lies in a frame that the
allocator may still hand out. `createNextLevel` keeps this, and it keeps every way through the
tables that was there before.
-/

namespace Singularity.Paging

open Foundation Nat Tables

/-- The tables at each depth. -/
def TableAt (t : Tables) (root : Nat) : Nat → Nat → Prop
  | 0, a => a = root
  | d + 1, a => a ≠ 0 ∧ ∃ parent i, TableAt t root d parent ∧ i < 512 ∧
      getNextLevel t parent i = a

/-- Tables of different depths differ, none is a free frame, and large pages are present. -/
structure WellFormed (t : Tables) (root : Nat) (free : Nat → Prop) : Prop where
  apart : ∀ d d' a, d ≤ 3 → d' ≤ 3 → TableAt t root d a → TableAt t root d' a → d = d'
  used : ∀ d a, d ≤ 3 → TableAt t root d a → ¬free a
  huge : ∀ d a i, d ≤ 2 → TableAt t root d a → i < 512 → getFlag (t a i) pagePresent = false →
    getFlag (t a i) pageHuge = false

/-- Frames are page aligned; a frame that is handed out was free and is not free any more. -/
structure FrameSource.Sound {σ : Type} (source : FrameSource σ) (free : σ → Nat → Prop) : Prop where
  aligned : ∀ s a s', source.alloc s = some (a, s') → getAddress a = a
  was_free : ∀ s a s', source.alloc s = some (a, s') → a ≠ 0 → free s a
  taken : ∀ s a s', source.alloc s = some (a, s') → ¬free s' a
  shrinks : ∀ s a s', source.alloc s = some (a, s') → ∀ b, free s' b → free s b

lemma getAddress_or_eq (a b : Nat) : getAddress (a ||| b) = getAddress a ||| getAddress b :=
  Nat.and_or_distrib_right a b addressMask

lemma getAddress_idem (a : Nat) : getAddress (getAddress a) = getAddress a := by
  rw [getAddress, getAddress, Nat.and_assoc, Nat.and_self]

/-- A table entry as `createNextLevel` stores it. -/
lemma getAddress_setAddress (old : Nat) (h : getAddress phys = phys) :
    getAddress (setAddress old phys ||| tableFlags) = phys := by
  have hold : getAddress (old &&& 0xFFF0000000000FFF) = 0 := by
    rw [getAddress, Nat.and_assoc]
    exact and_zero old
  have hflags : getAddress tableFlags = 0 := by decide
  have hphys : getAddress (phys &&& addressMask) = phys := by
    rw [← getAddress, getAddress_idem, h]
  rw [getAddress_or_eq, setAddress, getAddress_or_eq, hold, hflags, hphys, zero_or, or_zero]

lemma present_setAddress (old phys : Nat) :
    getFlag (setAddress old phys ||| tableFlags) pagePresent = true := by
  have hbit : pagePresent = 2 ^ 0 := rfl
  rw [hbit, getFlag_two_pow, testBit_or]
  have hflags : tableFlags.testBit 0 = true := by decide
  rw [hflags, Bool.or_true]

lemma huge_setAddress (phys : Nat) (h : getFlag old pageHuge = false) :
    getFlag (setAddress old phys ||| tableFlags) pageHuge = false := by
  have hbit : pageHuge = 2 ^ 7 := rfl
  rw [hbit, getFlag_two_pow] at h ⊢
  have hflags : tableFlags.testBit 7 = false := by decide
  have hmask : addressMask.testBit 7 = false := by decide
  rw [setAddress, testBit_or, testBit_or, testBit_and, testBit_and, h, hflags,
    hmask, Bool.and_false, Bool.false_and]
  rfl

section
variable {σ : Type} {source : FrameSource σ} {free : σ → Nat → Prop} {t t' : Tables}
  {frames frames' : σ} {root table i a d : Nat} {created : Bool}

/-- What `createNextLevel` returns: the table that is there, or a new one. -/
lemma createNextLevel_cases
    (h : createNextLevel source t frames table i tableFlags = some (a, created, t', frames'))
    (ha : a ≠ 0) :
    (getNextLevel t table i = a ∧ t' = t ∧ frames' = frames) ∨
      (getFlag (t table i) pagePresent = false ∧ source.alloc frames = some (a, frames') ∧
        t' = (t.zero a).setRaw table i
          (setAddress (t.zero a table i) a ||| tableFlags)) := by
  unfold createNextLevel at h
  split at h
  case isTrue hpres =>
    cases h
    exact .inl ⟨rfl, rfl, rfl⟩
  case isFalse hpres =>
    rw [Bool.not_eq_true] at hpres
    obtain ⟨⟨phys, s⟩, halloc, h⟩ := Option.bind_eq_some_iff.mp h
    dsimp only at h
    split at h <;> cases h
    case isTrue h0 => exact absurd rfl ha
    case isFalse h0 =>
      refine .inr ⟨hpres, halloc, ?_⟩
      funext x j
      simp only [setRaw]
      split <;> rfl

/-- The ways through the tables that are kept. -/
def Keeps (t t' : Tables) (root : Nat) : Prop :=
  ∀ d parent j, d ≤ 2 → TableAt t root d parent → j < 512 → getNextLevel t parent j ≠ 0 →
    getNextLevel t' parent j = getNextLevel t parent j

lemma Keeps.refl (t : Tables) (root : Nat) : Keeps t t root := fun _ _ _ _ _ _ _ => rfl

lemma Keeps.tableAt (h : Keeps t t' root) (hd : d ≤ 3) (ha : TableAt t root d a) :
    TableAt t' root d a := by
  induction d generalizing a with
  | zero => exact ha
  | succ d ih =>
    obtain ⟨hne, parent, j, hparent, hj, hnext⟩ := ha
    refine ⟨hne, parent, j, ih (by omega) hparent, hj, ?_⟩
    rw [h d parent j (by omega) hparent hj (by rwa [hnext]), hnext]

/-- A new table in an entry that was not present. -/
structure Grown (t t' : Tables) (table i a : Nat) : Prop where
  entry : getNextLevel t' table i = a
  fresh : ∀ j, t' a j = 0
  same : ∀ b j, b ≠ a → ¬(b = table ∧ j = i) → t' b j = t b j

lemma grown_of_create (hsound : source.Sound free) (hwf : WellFormed t root (free frames))
    (hd : d ≤ 2) (htab : TableAt t root d table) (hi : i < 512)
    (hpres : getFlag (t table i) pagePresent = false)
    (halloc : source.alloc frames = some (a, frames')) (ha : a ≠ 0) :
    Grown t ((t.zero a).setRaw table i (setAddress (t.zero a table i) a ||| tableFlags))
      table i a := by
  have hne : table ≠ a := by
    rintro rfl
    exact hwf.used d table (by omega) htab (hsound.was_free _ _ _ halloc ha)
  have hold : t.zero a table i = t table i := if_neg hne
  refine ⟨?_, fun j => ?_, fun b j hb hij => ?_⟩
  · have hentry : (t.zero a).setRaw table i (setAddress (t.zero a table i) a ||| tableFlags)
        table i = setAddress (t table i) a ||| tableFlags := by
      rw [setRaw, if_pos ⟨rfl, rfl⟩, hold]
    rw [getNextLevel, hentry, present_setAddress,
      huge_setAddress a (hwf.huge d table i hd htab hi hpres),
      getAddress_setAddress _ (hsound.aligned _ _ _ halloc)]
    rfl
  · rw [setRaw, if_neg fun h => hne h.1.symm, Tables.zero, if_pos rfl]
  · rw [setRaw, if_neg hij, Tables.zero, if_neg hb]

section
variable (hgrown : Grown t t' table i a) (hwf : WellFormed t root (free frames))
  (hd : d ≤ 2) (htab : TableAt t root d table) (hi : i < 512)
  (hpres : getFlag (t table i) pagePresent = false) (hfree : free frames a) (ha : a ≠ 0)

include hgrown hwf hpres hfree in
lemma Grown.keeps : Keeps t t' root := by
  intro e parent j he hparent hj hne
  have hparent' : parent ≠ a := by
    rintro rfl
    exact hwf.used e parent (by omega) hparent hfree
  have hother : ¬(parent = table ∧ j = i) := by
    rintro ⟨rfl, rfl⟩
    rw [(present_of_getNextLevel hne).1] at hpres
    cases hpres
  rw [getNextLevel, getNextLevel, hgrown.same parent j hparent' hother]

include hgrown hwf hd htab hi hpres hfree ha in
lemma Grown.tableAt_iff (he : e ≤ 3) :
    TableAt t' root e b ↔ TableAt t root e b ∨ e = d + 1 ∧ b = a := by
  constructor
  · intro hb
    induction e generalizing b with
    | zero => exact .inl hb
    | succ e ih =>
      obtain ⟨hne, parent, j, hparent, hj, hnext⟩ := hb
      obtain hold | ⟨-, rfl⟩ := ih (by omega) hparent
      · have hparent' : parent ≠ a := by
          rintro rfl
          exact hwf.used e parent (by omega) hold hfree
        by_cases hentry : parent = table ∧ j = i
        · obtain ⟨rfl, rfl⟩ := hentry
          rw [hgrown.entry] at hnext
          have hdepth := hwf.apart e d parent (by omega) (by omega) hold htab
          exact .inr ⟨congrArg Nat.succ hdepth, hnext.symm⟩
        · refine .inl ⟨hne, parent, j, hold, hj, ?_⟩
          rw [← hnext, getNextLevel, getNextLevel, hgrown.same parent j hparent' hentry]
      · -- the entries of the new table are zero
        rw [getNextLevel, hgrown.fresh j, getFlag_zero] at hnext
        exact absurd hnext.symm hne
  · rintro (hb | ⟨rfl, rfl⟩)
    · exact (hgrown.keeps hwf hpres hfree).tableAt he hb
    · exact ⟨ha, table, i, (hgrown.keeps hwf hpres hfree).tableAt (by omega) htab, hi,
        hgrown.entry⟩

end

/-- A successful `createNextLevel` keeps the hierarchy well-formed and everything that was in it. -/
lemma createNextLevel_spec (hsound : source.Sound free) (hwf : WellFormed t root (free frames))
    (hd : d ≤ 2) (htab : TableAt t root d table) (hi : i < 512)
    (h : createNextLevel source t frames table i tableFlags = some (a, created, t', frames'))
    (ha : a ≠ 0) :
    WellFormed t' root (free frames') ∧ Keeps t t' root ∧ TableAt t' root (d + 1) a ∧
      getNextLevel t' table i = a := by
  obtain ⟨hnext, rfl, rfl⟩ | ⟨hpres, halloc, rfl⟩ := createNextLevel_cases h ha
  · exact ⟨hwf, .refl t' root, ⟨ha, table, i, htab, hi, hnext⟩, hnext⟩
  have hfree := hsound.was_free _ _ _ halloc ha
  have hgrown := grown_of_create hsound hwf hd htab hi hpres halloc ha
  generalize (t.zero a).setRaw table i (setAddress (t.zero a table i) a ||| tableFlags) = new
    at hgrown
  have hiff {e b : Nat} (he : e ≤ 3) :=
    hgrown.tableAt_iff (b := b) hwf hd htab hi hpres hfree ha he
  refine ⟨⟨?_, ?_, ?_⟩, hgrown.keeps hwf hpres hfree, ?_, hgrown.entry⟩
  · intro e e' b he he' hb hb'
    obtain hold | ⟨rfl, rfl⟩ := (hiff he).mp hb
    · obtain hold' | ⟨-, rfl⟩ := (hiff he').mp hb'
      · exact hwf.apart e e' b he he' hold hold'
      · exact absurd hfree (hwf.used e b he hold)
    · obtain hold' | ⟨rfl, -⟩ := (hiff he').mp hb'
      · exact absurd hfree (hwf.used e' b he' hold')
      · rfl
  · intro e b he hb hfree'
    obtain hold | ⟨-, rfl⟩ := (hiff he).mp hb
    · exact hwf.used e b he hold (hsound.shrinks _ _ _ halloc b hfree')
    · exact hsound.taken _ _ _ halloc hfree'
  · intro e b j he hb hj hnot
    by_cases hba : b = a
    · rw [hba, hgrown.fresh j, getFlag_zero]
    by_cases hentry : b = table ∧ j = i
    · obtain ⟨rfl, rfl⟩ := hentry
      have hnext := hgrown.entry
      rw [getNextLevel, hnot] at hnext
      exact absurd hnext.symm ha
    · rw [hgrown.same b j hba hentry] at hnot ⊢
      obtain hold | ⟨-, rfl⟩ := (hiff (by omega)).mp hb
      · exact hwf.huge e b j he hold hj hnot
      · exact absurd rfl hba
  · exact (hiff (by omega)).mpr (.inr ⟨rfl, rfl⟩)

end

end Singularity.Paging
