import Singularity.Foundation.Runs
import Singularity.Paging.Tables

/-!
# Walks through the page tables

The processor's walk, the walk of the paging code down to a page table, and
`virt_to_phys_asm`. `unmapPage` stores zero in one entry; in tables whose page-table entries
serve one page each (`Separate`) this takes away the mapping of that page and no other.
-/

namespace Singularity.Paging

open Foundation Tables List

/-- The physical address the tables give for any address. -/
def walk (t : Tables) (cr3 virt : Nat) : Option Nat :=
  let ix := getIndexes virt
  let e4 := t (getAddress cr3) ix.p4
  let e3 := t (getAddress e4) ix.p3
  let e2 := t (getAddress e3) ix.p2
  let e1 := t (getAddress e2) ix.p1
  if !getFlag e4 pagePresent then none
  else if !getFlag e3 pagePresent then none
  else if getFlag e3 pageHuge then some (getAddress e3 / 2 ^ 30 * 2 ^ 30 + virt % 2 ^ 30)
  else if !getFlag e2 pagePresent then none
  else if getFlag e2 pageHuge then some (getAddress e2 / 2 ^ 21 * 2 ^ 21 + virt % 2 ^ 21)
  else if !getFlag e1 pagePresent then none
  else some (getAddress e1 + virt % 2 ^ 12)

lemma translate_eq_walk (t : Tables) (cr3 virt : Nat) :
    translate t cr3 virt = if Canonical virt then walk t cr3 virt else none := by
  by_cases hcanon : Canonical virt
  · simp only [translate, walk, hcanon, not_true_eq_false, if_false, if_true]
  · simp [translate, hcanon]

/-- The page table the handler finds for an address, null if it stops before. -/
def pageTable (t : Tables) (cr3 virt : Nat) : Nat :=
  let ix := getIndexes virt
  let pdp := getNextLevel t (getAddress cr3) ix.p4
  let pd := getNextLevel t pdp ix.p3
  if pdp = 0 then 0 else if pd = 0 then 0 else getNextLevel t pd ix.p2

/-- The page-table entry of an address. -/
def pageEntry (t : Tables) (cr3 virt : Nat) : Nat := t (pageTable t cr3 virt) (getIndexes virt).p1

/-- The physical address of a page, or zero. -/
def virtToPhysAsm (t : Tables) (cr3 virt : Nat) : Nat :=
  let ix := getIndexes virt
  let e4 := t (getAddress cr3) ix.p4
  let e3 := t (getAddress e4) ix.p3
  let e2 := t (getAddress e3) ix.p2
  let e1 := t (getAddress e2) ix.p1
  if !getFlag e4 pagePresent then 0
  else if !getFlag e3 pagePresent then 0
  else if getFlag e3 pageHuge then (e3 &&& 0x000FFFFC0000000) + (virt &&& 0x3FFFFFFF)
  else if !getFlag e2 pagePresent then 0
  else if getFlag e2 pageHuge then (e2 &&& 0x000FFFFFE00000) + (virt &&& 0x1FFFFF)
  else if !getFlag e1 pagePresent then 0
  else getAddress e1 + (virt &&& 0xFFF)

/-- The page-table entry that maps an address, if it is present. -/
def mappedEntry (t : Tables) (cr3 virt : Nat) : Option Nat :=
  if pageTable t cr3 virt = 0 then none
  else if getFlag (pageEntry t cr3 virt) pagePresent then some (pageEntry t cr3 virt)
  else none

/-- The entries of the upper three levels that lead to the page table of an address. -/
def upperEntries (t : Tables) (cr3 virt : Nat) : List (Nat × Nat) :=
  let ix := getIndexes virt
  let pdp := getNextLevel t (getAddress cr3) ix.p4
  [(getAddress cr3, ix.p4), (pdp, ix.p3), (getNextLevel t pdp ix.p3, ix.p2)]

/-- Each page-table entry serves one page and is no entry of an upper level. -/
structure Separate (t : Tables) (cr3 : Nat) : Prop where
  upper : ∀ v v', pageTable t cr3 v ≠ 0 → pageTable t cr3 v' ≠ 0 →
    (pageTable t cr3 v, (getIndexes v).p1) ∉ upperEntries t cr3 v'
  page : ∀ v v', pageTable t cr3 v ≠ 0 → pageTable t cr3 v = pageTable t cr3 v' →
    (getIndexes v).p1 = (getIndexes v').p1 → getIndexes v = getIndexes v'

/-- The address is not part of a large page. -/
def SmallPage (t : Tables) (cr3 virt : Nat) : Prop :=
  walk t cr3 virt = none ∨ pageTable t cr3 virt ≠ 0

variable {t : Tables} {cr3 virt table i : Nat}

lemma getIndexes_page (haddr : addr < 2 ^ 64) :
    getIndexes (addr &&& Word.compl 0xFFF) = getIndexes addr := by
  have hpage : addr &&& Word.compl 0xFFF = addr / 2 ^ 12 * 2 ^ 12 :=
    Word.and_compl_two_pow (k := 12) haddr (by decide)
  rw [hpage, getIndexes_eq, getIndexes_eq]
  simp only [Indexes.mk.injEq]
  omega

lemma present_of_getNextLevel (h : getNextLevel t table i ≠ 0) :
    getFlag (t table i) pagePresent = true ∧ getFlag (t table i) pageHuge = false ∧
      getNextLevel t table i = getAddress (t table i) := by
  unfold getNextLevel at h ⊢
  split at h
  · exact absurd rfl h
  case isFalse hcond =>
    rw [if_neg hcond]
    simpa using hcond

section
variable (h : pageTable t cr3 virt ≠ 0)
include h

lemma pageTable_ne_zero :
    getNextLevel t (getAddress cr3) (getIndexes virt).p4 ≠ 0 ∧
      getNextLevel t (getNextLevel t (getAddress cr3) (getIndexes virt).p4)
        (getIndexes virt).p3 ≠ 0 ∧
      pageTable t cr3 virt = getNextLevel t (getNextLevel t
        (getNextLevel t (getAddress cr3) (getIndexes virt).p4) (getIndexes virt).p3)
        (getIndexes virt).p2 := by
  unfold pageTable at h ⊢
  dsimp only at h ⊢
  split at h
  · exact absurd rfl h
  case isFalse hpdp =>
    split at h
    · exact absurd rfl h
    case isFalse hpd => exact ⟨hpdp, hpd, by rw [if_neg hpdp, if_neg hpd]⟩

lemma pageTable_levels :
    let ix := getIndexes virt
    let e4 := t (getAddress cr3) ix.p4
    let e3 := t (getAddress e4) ix.p3
    let e2 := t (getAddress e3) ix.p2
    getFlag e4 pagePresent = true ∧
      (getFlag e3 pagePresent = true ∧ getFlag e3 pageHuge = false) ∧
      (getFlag e2 pagePresent = true ∧ getFlag e2 pageHuge = false) ∧
      t (getAddress e2) ix.p1 = pageEntry t cr3 virt := by
  obtain ⟨hpdp, hpd, hpt⟩ := pageTable_ne_zero h
  obtain ⟨hpresent4, -, haddr4⟩ := present_of_getNextLevel hpdp
  obtain ⟨hpresent3, hhuge3, haddr3⟩ := present_of_getNextLevel hpd
  rw [hpt] at h
  obtain ⟨hpresent2, hhuge2, haddr2⟩ := present_of_getNextLevel h
  rw [pageEntry, hpt, haddr2, haddr3, haddr4]
  rw [haddr3, haddr4] at hpresent2 hhuge2
  rw [haddr4] at hpresent3 hhuge3
  exact ⟨hpresent4, ⟨hpresent3, hhuge3⟩, ⟨hpresent2, hhuge2⟩, rfl⟩

lemma walk_eq_of_pageTable :
    walk t cr3 virt =
      if getFlag (pageEntry t cr3 virt) pagePresent then
        some (getAddress (pageEntry t cr3 virt) + virt % 2 ^ 12)
      else none := by
  obtain ⟨h4, ⟨h3, hhuge3⟩, ⟨h2, hhuge2⟩, h1⟩ := pageTable_levels h
  simp only [walk, h4, h3, hhuge3, h2, hhuge2, h1]
  cases getFlag (pageEntry t cr3 virt) pagePresent <;> simp

lemma virtToPhysAsm_of_pageTable :
    virtToPhysAsm t cr3 virt =
      if getFlag (pageEntry t cr3 virt) pagePresent then
        getAddress (pageEntry t cr3 virt) + virt % 2 ^ 12
      else 0 := by
  obtain ⟨h4, ⟨h3, hhuge3⟩, ⟨h2, hhuge2⟩, h1⟩ := pageTable_levels h
  have hoffset : virt &&& 0xFFF = virt % 2 ^ 12 := Nat.and_two_pow_sub_one_eq_mod virt 12
  simp only [virtToPhysAsm, h4, h3, hhuge3, h2, hhuge2, h1, hoffset]
  cases getFlag (pageEntry t cr3 virt) pagePresent <;> simp

end

lemma virtToPhysAsm_of_walk (h : walk t cr3 virt = none) : virtToPhysAsm t cr3 virt = 0 := by
  unfold walk at h
  unfold virtToPhysAsm
  dsimp only at h ⊢
  split_ifs at h ⊢ <;> rfl

lemma pageTable_of_levels (hlevels : ∀ table i, getNextLevel t' table i ≠ 0 →
      getNextLevel t' table i = getNextLevel t table i) (hne : pageTable t' cr3 virt ≠ 0) :
    pageTable t' cr3 virt = pageTable t cr3 virt ∧
      upperEntries t' cr3 virt = upperEntries t cr3 virt := by
  obtain ⟨hpdp, hpd, hpt⟩ := pageTable_ne_zero hne
  rw [hpt] at hne
  have hpdp' := hlevels _ _ hpdp
  have hpd' := hlevels _ _ hpd
  have hpt' := hlevels _ _ hne
  rw [hpdp'] at hpdp hpd hpd' hpt' hpt
  rw [hpd'] at hpd hpt' hpt
  rw [hpt, hpt']
  simp only [pageTable, upperEntries, if_neg hpdp, if_neg hpd, hpdp', hpd', and_self]

lemma getNextLevel_setRaw (hne : getNextLevel t table i ≠ 0)
    (hentry : getFlag (t table' i') pagePresent = false) :
    getNextLevel (t.setRaw table' i' value) table i = getNextLevel t table i := by
  have hother : ¬ (table = table' ∧ i = i') := by
    rintro ⟨rfl, rfl⟩
    rw [(present_of_getNextLevel hne).1] at hentry
    cases hentry
  simp only [getNextLevel, setRaw, if_neg hother]

lemma pageTable_setRaw (value : Nat) (hne : pageTable t cr3 virt ≠ 0)
    (hentry : getFlag (t table i) pagePresent = false) :
    pageTable (t.setRaw table i value) cr3 virt = pageTable t cr3 virt :=
  (pageTable_of_levels (fun _ _ h => (getNextLevel_setRaw h hentry).symm) hne).1.symm

lemma getNextLevel_zero (hne : getNextLevel (t.zero frame) table i ≠ 0) :
    getNextLevel (t.zero frame) table i = getNextLevel t table i := by
  have hother : table ≠ frame := by
    rintro rfl
    have hpres := (present_of_getNextLevel hne).1
    simp [Tables.zero, getFlag_zero] at hpres
  simp only [getNextLevel, Tables.zero, if_neg hother]

lemma pageTable_zero (hne : pageTable (t.zero frame) cr3 virt ≠ 0) :
    pageTable (t.zero frame) cr3 virt = pageTable t cr3 virt :=
  (pageTable_of_levels (fun _ _ => getNextLevel_zero) hne).1

lemma pageEntry_zero (hne : pageTable (t.zero frame) cr3 virt ≠ 0)
    (hentry : pageEntry (t.zero frame) cr3 virt ≠ 0) :
    pageEntry (t.zero frame) cr3 virt = pageEntry t cr3 virt := by
  unfold pageEntry at hentry ⊢
  rw [pageTable_zero hne] at hentry ⊢
  unfold Tables.zero at hentry ⊢
  split
  case isTrue heq => simp [heq] at hentry
  · rfl

lemma getNextLevel_setRaw_of_ne (value : Nat) (h : ¬ (table = a ∧ i = j)) :
    getNextLevel (t.setRaw a j value) table i = getNextLevel t table i := by
  simp only [getNextLevel, setRaw, if_neg h]

lemma getNextLevel_clear (h : getNextLevel (t.setRaw a j 0) table i ≠ 0) :
    getNextLevel (t.setRaw a j 0) table i = getNextLevel t table i := by
  apply getNextLevel_setRaw_of_ne 0
  rintro ⟨rfl, rfl⟩
  have hpres := (present_of_getNextLevel h).1
  simp [setRaw, getFlag_zero] at hpres

lemma pageTable_clear (h : pageTable (t.setRaw a j 0) cr3 v ≠ 0) :
    pageTable (t.setRaw a j 0) cr3 v = pageTable t cr3 v ∧
      upperEntries (t.setRaw a j 0) cr3 v = upperEntries t cr3 v :=
  pageTable_of_levels (fun _ _ => getNextLevel_clear) h

lemma pageTable_setRaw_of_notMem (value : Nat) (h : (a, j) ∉ upperEntries t cr3 v) :
    pageTable (t.setRaw a j value) cr3 v = pageTable t cr3 v := by
  simp only [upperEntries, mem_cons, Prod.mk.injEq, not_mem_nil, or_false, not_or] at h
  obtain ⟨h4, h3, h2⟩ := h
  have hpdp := getNextLevel_setRaw_of_ne (t := t) value
    (fun heq : getAddress cr3 = a ∧ _ => h4 ⟨heq.1.symm, heq.2.symm⟩)
  have hpd := getNextLevel_setRaw_of_ne (t := t) value
    (fun heq : _ = a ∧ _ => h3 ⟨heq.1.symm, heq.2.symm⟩)
  have hpt := getNextLevel_setRaw_of_ne (t := t) value
    (fun heq : _ = a ∧ _ => h2 ⟨heq.1.symm, heq.2.symm⟩)
  simp only [pageTable, hpdp, hpd, hpt]

lemma mappedEntry_eq_some : mappedEntry t cr3 v = some e ↔
    pageTable t cr3 v ≠ 0 ∧ getFlag (pageEntry t cr3 v) pagePresent = true ∧
      pageEntry t cr3 v = e := by
  unfold mappedEntry
  split
  case isTrue h => simp [h]
  case isFalse h =>
    split
    case isTrue hpres => simp [h, hpres]
    case isFalse hpres => simp [hpres]

lemma mappedEntry_clear (h : mappedEntry (t.setRaw a j 0) cr3 v = some e) :
    mappedEntry t cr3 v = some e ∧ (a, j) ≠ (pageTable t cr3 v, (getIndexes v).p1) := by
  obtain ⟨hpt, hpres, hentry⟩ := mappedEntry_eq_some.mp h
  have htab := (pageTable_clear hpt).1
  have hother : ¬ (pageTable t cr3 v = a ∧ (getIndexes v).p1 = j) := by
    intro heq
    rw [pageEntry, htab, setRaw, if_pos heq, getFlag_zero] at hpres
    cases hpres
  have hsame : pageEntry (t.setRaw a j 0) cr3 v = pageEntry t cr3 v := by
    rw [pageEntry, htab, setRaw, if_neg hother, pageEntry]
  rw [hsame] at hpres hentry
  rw [htab] at hpt
  refine ⟨mappedEntry_eq_some.mpr ⟨hpt, hpres, hentry⟩, fun heq => hother ?_⟩
  exact ⟨(congrArg Prod.fst heq).symm, (congrArg Prod.snd heq).symm⟩

lemma mappedEntry_setRaw_of_ne (hupper : (a, j) ∉ upperEntries t cr3 v)
    (hpage : (a, j) ≠ (pageTable t cr3 v, (getIndexes v).p1)) :
    mappedEntry (t.setRaw a j value) cr3 v = mappedEntry t cr3 v := by
  have htab := pageTable_setRaw_of_notMem value hupper
  have hentry : pageEntry (t.setRaw a j value) cr3 v = pageEntry t cr3 v := by
    rw [pageEntry, htab, setRaw, if_neg, pageEntry]
    rintro ⟨rfl, rfl⟩
    exact hpage rfl
  simp only [mappedEntry, htab, hentry]

lemma present_of_mem_upperEntries (h : pageTable t cr3 v ≠ 0)
    (hmem : (a, j) ∈ upperEntries t cr3 v) : getFlag (t a j) pagePresent = true := by
  obtain ⟨hpdp, hpd, hpt⟩ := pageTable_ne_zero h
  rw [hpt] at h
  simp only [upperEntries, mem_cons, Prod.mk.injEq, not_mem_nil, or_false] at hmem
  obtain ⟨rfl, rfl⟩ | ⟨rfl, rfl⟩ | ⟨rfl, rfl⟩ := hmem
  · exact (present_of_getNextLevel hpdp).1
  · exact (present_of_getNextLevel hpd).1
  · exact (present_of_getNextLevel h).1

lemma mappedEntry_clear_of_notPresent (h : getFlag (t a j) pagePresent = false) :
    mappedEntry (t.setRaw a j 0) cr3 v = some e ↔ mappedEntry t cr3 v = some e := by
  refine ⟨fun hafter => (mappedEntry_clear hafter).1, fun hbefore => ?_⟩
  obtain ⟨hpt, hpres, -⟩ := mappedEntry_eq_some.mp hbefore
  rw [mappedEntry_setRaw_of_ne, hbefore]
  · intro hmem
    rw [present_of_mem_upperEntries hpt hmem] at h
    cases h
  · rintro ⟨⟩
    rw [pageEntry, h] at hpres
    cases hpres

lemma pageTable_congr (h : getIndexes v = getIndexes virt) :
    pageTable t cr3 v = pageTable t cr3 virt := by
  simp only [pageTable, h]

lemma mappedEntry_congr (h : getIndexes v = getIndexes virt) :
    mappedEntry t cr3 v = mappedEntry t cr3 virt := by
  unfold mappedEntry pageEntry
  rw [pageTable_congr h, h]

/-- What `unmapPage` clears in the tables of a page that is not large. -/
lemma unmapEntry_of_smallPage (hsmall : SmallPage t cr3 virt)
    (h : unmapEntry cr3 t virt = some (a, j)) :
    pageTable t cr3 virt ≠ 0 ∧ (a, j) = (pageTable t cr3 virt, (getIndexes virt).p1) ∨
      pageTable t cr3 virt = 0 ∧ getFlag (t a j) pagePresent = false := by
  unfold unmapEntry at h
  obtain ⟨hpdp, h⟩ := else_of_ite h
  obtain ⟨hpd, h⟩ := else_of_ite h
  have htab : pageTable t cr3 virt = getNextLevel t (getNextLevel t
      (getNextLevel t (getAddress cr3) (getIndexes virt).p4) (getIndexes virt).p3)
      (getIndexes virt).p2 := by
    simp only [pageTable, if_neg hpdp, if_neg hpd]
  split at h
  case isTrue hhuge =>
    have h0 : pageTable t cr3 virt = 0 := by
      rw [htab, getNextLevel, hhuge]
      simp
    right
    refine ⟨h0, ?_⟩
    cases h
    -- were it present, the walk would end at a large page
    obtain hnone | hne := hsmall
    · obtain ⟨hpresent4, -, haddr4⟩ := present_of_getNextLevel hpdp
      obtain ⟨hpresent3, hhuge3, haddr3⟩ := present_of_getNextLevel hpd
      rw [haddr4] at hpresent3 hhuge3 haddr3
      rw [haddr4, haddr3] at hhuge ⊢
      simp only [walk, hpresent4, hpresent3, hhuge3, hhuge] at hnone
      simpa using hnone
    · exact absurd h0 hne
  · obtain ⟨hpt, ⟨⟩⟩ := else_of_ite h
    left
    rw [htab]
    exact ⟨hpt, rfl⟩

lemma unmapEntry_ne_none (h : pageTable t cr3 virt ≠ 0) : unmapEntry cr3 t virt ≠ none := by
  obtain ⟨hpdp, hpd, hpt⟩ := pageTable_ne_zero h
  rw [hpt] at h
  intro hentry
  simp only [unmapEntry, if_neg hpdp, if_neg hpd, if_neg h] at hentry
  split at hentry <;> cases hentry

/-- In separate tables `unmapPage` takes away the mapping of one page. -/
lemma mappedEntry_unmapPage (hsep : Separate t cr3) (hsmall : SmallPage t cr3 virt) :
    mappedEntry (unmapPage cr3 t virt) cr3 v = some e ↔
      mappedEntry t cr3 v = some e ∧ getIndexes v ≠ getIndexes virt := by
  have hunmapped (h : pageTable t cr3 virt = 0) : mappedEntry t cr3 v = some e →
      getIndexes v ≠ getIndexes virt := by
    intro hv heq
    rw [mappedEntry_congr heq, mappedEntry, if_pos h] at hv
    cases hv
  unfold unmapPage
  cases hentry : unmapEntry cr3 t virt with
  | none =>
    have h0 : pageTable t cr3 virt = 0 := by
      by_contra hne
      exact unmapEntry_ne_none hne hentry
    exact ⟨fun h => ⟨h, hunmapped h0 h⟩, fun h => h.1⟩
  | some entry =>
    obtain ⟨a, j⟩ := entry
    obtain ⟨hne, heq⟩ | ⟨h0, hpres⟩ := unmapEntry_of_smallPage hsmall hentry
    · constructor
      · intro h
        obtain ⟨hbefore, hother⟩ := mappedEntry_clear h
        refine ⟨hbefore, fun hix => hother ?_⟩
        rw [heq, pageTable_congr hix, hix]
      · rintro ⟨hbefore, hix⟩
        obtain ⟨hpt, -, -⟩ := mappedEntry_eq_some.mp hbefore
        rw [mappedEntry_setRaw_of_ne, hbefore]
        · rw [heq]
          exact hsep.upper virt v hne hpt
        rw [heq]
        intro hsame
        exact hix (hsep.page virt v hne (congrArg Prod.fst hsame) (congrArg Prod.snd hsame)).symm
    · rw [mappedEntry_clear_of_notPresent hpres]
      exact ⟨fun h => ⟨h, hunmapped h0 h⟩, fun h => h.1⟩

lemma Separate.unmapPage (hsep : Separate t cr3) : Separate (unmapPage cr3 t virt) cr3 := by
  unfold Paging.unmapPage
  cases unmapEntry cr3 t virt with
  | none => exact hsep
  | some entry =>
    obtain ⟨a, j⟩ := entry
    constructor
    · intro v v' hne hne'
      obtain ⟨htab, -⟩ := pageTable_clear hne
      obtain ⟨htable', hupper⟩ := pageTable_clear hne'
      rw [htab] at hne ⊢
      rw [htable'] at hne'
      rw [hupper]
      exact hsep.upper v v' hne hne'
    · intro v v' hne heq
      have hne' := hne
      rw [heq] at hne'
      rw [(pageTable_clear hne').1, (pageTable_clear hne).1] at heq
      rw [(pageTable_clear hne).1] at hne
      exact hsep.page v v' hne heq

end Singularity.Paging
