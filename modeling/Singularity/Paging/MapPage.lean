import Singularity.Paging.Hierarchy

/-!
# Mapping a page and translating its addresses

`mapPage` and `mapPage1G` store a physical address and flags in one entry; `virt_to_phys_asm` takes
the address out of the entry again with a mask of its own for each page size. The masks for large
pages are short: they keep the bits up to 43 of a 2 MiB page and up to 47 of a 1 GiB page.
`mapPage1G` starts at the root that `init` has read from `cr3`, which is never changed.
-/

namespace Singularity.Paging

open Foundation Nat Option

variable {σ : Type} {k l p f cr3 v flags : Nat} {t : Tables}

def pageSizeHuge : Nat := 0x40000000

/-- The stored flags: no execute bit without support for it, and kernel pages are global. -/
def storedFlags (nxEnabled : Bool) (virt flags : Nat) : Nat :=
  let flags := if nxEnabled then flags else flags &&& Word.compl pageNx
  if !getFlag flags pageUser && decide (kernelSpaceBase ≤ virt) then flags ||| pageGlobal else flags

/-- `PagingManager::mapPage`. -/
def mapPage (source : FrameSource σ) (nxEnabled : Bool) (cr3 : Nat) (t : Tables) (frames : σ)
    (virt phys flags : Nat) : Option (Bool × Tables × σ) := do
  let ix := getIndexes virt
  let pml4 := getAddress cr3
  let (pdp, c4, t, frames) ← createNextLevel source t frames pml4 ix.p4 tableFlags
  if pdp = 0 then some (false, t, frames)
  else do
    let (pd, c3, t, frames) ← createNextLevel source t frames pdp ix.p3 tableFlags
    if pd = 0 then do
      let (t, frames) ← dropTable source t frames pml4 ix.p4 c4
      some (false, t, frames)
    else
      let flags := storedFlags nxEnabled virt flags
      if getFlag flags pageHuge then
        if getFlag (t pd ix.p2) pagePresent && !getFlag (t pd ix.p2) pageHuge then
          some (false, t, frames)
        else some (true, t.setRaw pd ix.p2 (phys ||| flags), frames)
      else do
        let (pt, _, t, frames) ← createNextLevel source t frames pd ix.p2 tableFlags
        if pt = 0 then do
          let (t, frames) ← dropTable source t frames pdp ix.p3 c3
          let (t, frames) ← dropTable source t frames pml4 ix.p4 c4
          some (false, t, frames)
        else some (true, t.setRaw pt ix.p1 (phys ||| flags), frames)

/-- `PagingManager::mapPage1G`. -/
def mapPage1G (source : FrameSource σ) (nxEnabled : Bool) (cr3 : Nat) (t : Tables) (frames : σ)
    (virt phys flags : Nat) : Option (Bool × Tables × σ) :=
  if phys &&& (pageSizeHuge - 1) ≠ 0 then some (false, t, frames)
  else if virt &&& (pageSizeHuge - 1) ≠ 0 then some (false, t, frames)
  else do
    let ix := getIndexes virt
    let pml4 := getAddress cr3
    let (pdp, c4, t, frames) ← createNextLevel source t frames pml4 ix.p4 tableFlags
    if pdp = 0 then some (false, t, frames)
    else
      let flags := storedFlags nxEnabled virt flags ||| pageHuge
      if getFlag (t pdp ix.p3) pagePresent then do
        let (t, frames) ← dropTable source t frames pml4 ix.p4 c4
        some (false, t, frames)
      else some (true, t.setRaw pdp ix.p3 (phys ||| flags), frames)

/-- The two calls. -/
inductive MapCall where
  | page
  | page1G

namespace MapCall

def run (source : FrameSource σ) (nxEnabled : Bool) (cr3 : Nat) (t : Tables) (frames : σ)
    (virt phys flags : Nat) : MapCall → Option (Bool × Tables × σ)
  | page => mapPage source nxEnabled cr3 t frames virt phys flags
  | page1G => mapPage1G source nxEnabled cr3 t frames virt phys flags

/-- The number of offset bits of the page that a call maps. -/
def offsetBits (flags : Nat) : MapCall → Nat
  | page => if getFlag flags pageHuge then 21 else 12
  | page1G => 30

/-- The number of address bits that `virt_to_phys_asm` keeps for such a page. -/
def addressBits (flags : Nat) : MapCall → Nat
  | page => if getFlag flags pageHuge then 44 else 52
  | page1G => 48

end MapCall

/-- The page and its address can be told from the entry: the virtual address is that of the page,
the entry is present, the address has no bits that the mask drops, and the flags have no address
bits beside those of the address. -/
structure Encodes (k l v p flags : Nat) : Prop where
  aligned : v % 2 ^ k = 0
  present : getFlag flags pagePresent = true
  fits : p < 2 ^ l
  flags_sub : ∀ i, k ≤ i → i < l → flags.testBit i = true → p.testBit i = true

/-- The bits from `k` up to `l`. -/
def fieldMask (k l : Nat) : Nat := (2 ^ l - 1) / 2 ^ k * 2 ^ k

lemma testBit_fieldMask (k l i : Nat) :
    (fieldMask k l).testBit i = (decide (k ≤ i) && decide (i < l)) := by
  rw [fieldMask, testBit_mul_two_pow, testBit_div_two_pow, testBit_two_pow_sub_one]
  by_cases hi : k ≤ i
  · have hsum : i - k + k = i := by omega
    simp [hi, hsum]
  · simp [hi]

lemma testBit_eq_false_of_mod (hp : p % 2 ^ k = 0) (hi : i < k) : p.testBit i = false := by
  have hpage : p / 2 ^ k * 2 ^ k = p := Nat.div_mul_cancel (dvd_of_mod_eq_zero hp)
  rw [← hpage, testBit_mul_two_pow]
  simp [not_le.mpr hi]

lemma and_mod_two_pow (hm : m % 2 ^ k = 0) : (e &&& m) % 2 ^ k = 0 := by
  apply eq_of_testBit_eq
  intro i
  rw [testBit_mod_two_pow, testBit_and, zero_testBit]
  by_cases hi : i < k
  · rw [testBit_eq_false_of_mod hm hi, Bool.and_false, Bool.and_false]
  · simp [hi]

lemma or_and_fieldMask_eq_iff (hp : p % 2 ^ k = 0) :
    (p ||| f) &&& fieldMask k l = p ↔
      p < 2 ^ l ∧ ∀ i, k ≤ i → i < l → f.testBit i = true → p.testBit i = true := by
  constructor
  · intro h
    constructor
    · have hle : p ≤ fieldMask k l := h ▸ and_le_right
      have hmask : fieldMask k l ≤ 2 ^ l - 1 := div_mul_le_self _ _
      have hpos := Nat.two_pow_pos l
      omega
    · intro i hk hl hf
      rw [← h, testBit_and, testBit_or, testBit_fieldMask, hf]
      simp [hk, hl]
  · rintro ⟨hlt, hsub⟩
    apply eq_of_testBit_eq
    intro i
    rw [testBit_and, testBit_or, testBit_fieldMask]
    by_cases hk : k ≤ i
    · by_cases hl : i < l
      · have hbit := hsub i hk hl
        cases hf : f.testBit i with
        | false => simp [hk, hl]
        | true =>
          rw [hbit hf]
          simp [hk, hl]
      · have hlarge : p.testBit i = false := testBit_lt_two_pow
          (Nat.lt_of_lt_of_le hlt (Nat.pow_le_pow_right (by decide) (Nat.le_of_not_lt hl)))
        simp [hl, hlarge]
    · rw [testBit_eq_false_of_mod hp (by omega)]
      simp [hk]

lemma addressMask_eq : addressMask = fieldMask 12 52 := by decide

lemma largeMask_eq : 0x000FFFFFE00000 = fieldMask 21 44 := by decide

lemma hugeMask_eq : 0x000FFFFC0000000 = fieldMask 30 48 := by decide

/-- The stored flags differ from those of the call in no bit of an address, and not in the
presence of the page or its size. -/
lemma testBit_storedFlags (nxEnabled : Bool) (virt flags : Nat) (hi : i < 52)
    (hglobal : i ≠ 8) : (storedFlags nxEnabled virt flags).testBit i = flags.testBit i := by
  have hnx : (if nxEnabled = true then flags else flags &&& Word.compl pageNx).testBit i =
      flags.testBit i := by
    split
    · rfl
    · have hcompl : Word.compl pageNx = 2 ^ 63 - 1 := by decide
      rw [hcompl, testBit_and, testBit_two_pow_sub_one]
      simp [show i < 63 by omega]
  unfold storedFlags
  dsimp only
  generalize (if nxEnabled = true then flags else flags &&& Word.compl pageNx) = kept at hnx ⊢
  split
  · have hbit : pageGlobal = 2 ^ 8 := rfl
    rw [testBit_or, hnx, hbit, testBit_two_pow_of_ne (Ne.symm hglobal), Bool.or_false]
  · exact hnx

/-- The address is in the page of `v`. -/
def SamePage (k v x : Nat) : Prop := x / 2 ^ k % 2 ^ (48 - k) = v / 2 ^ k % 2 ^ (48 - k)

/-- All addresses of the page are translated by one entry. -/
def TranslatedBy (t : Tables) (cr3 k l v entry : Nat) : Prop :=
  ∀ x, SamePage k v x → virtToPhysAsm t cr3 x =
    if getFlag entry pagePresent then (entry &&& fieldMask k l) + x % 2 ^ k else 0

lemma virtToPhysAsm_mod (t : Tables) (cr3 virt : Nat) :
    virtToPhysAsm t cr3 virt = 0 ∨ virtToPhysAsm t cr3 virt % 2 ^ 12 = virt % 2 ^ 12 := by
  have hsmall (e : Nat) : (getAddress e + (virt &&& 0xFFF)) % 2 ^ 12 = virt % 2 ^ 12 := by
    rw [getAddress_eq, show virt &&& 0xFFF = virt % 2 ^ 12 from
      and_two_pow_sub_one_eq_mod virt 12]
    omega
  unfold virtToPhysAsm
  dsimp only
  split
  · exact .inl rfl
  split
  · exact .inl rfl
  split
  · right
    rw [show virt &&& 0x3FFFFFFF = virt % 2 ^ 30 from and_two_pow_sub_one_eq_mod virt 30,
      add_mod, and_mod_two_pow (by decide)]
    omega
  · split
    · exact .inl rfl
    split
    · right
      rw [show virt &&& 0x1FFFFF = virt % 2 ^ 21 from
        and_two_pow_sub_one_eq_mod virt 21, add_mod, and_mod_two_pow (by decide)]
      omega
    · split
      · exact .inl rfl
      · exact .inr (hsmall _)

lemma virtToPhysAsm_congr (h : x % 2 ^ 48 = y % 2 ^ 48) :
    virtToPhysAsm t cr3 x = virtToPhysAsm t cr3 y := by
  have hindexes : getIndexes x = getIndexes y := by
    rw [getIndexes_eq, getIndexes_eq]
    simp only [Indexes.mk.injEq]
    omega
  have hlow (n : Nat) (hn : n ≤ 48) : x &&& (2 ^ n - 1) = y &&& (2 ^ n - 1) := by
    have hdvd : 2 ^ n ∣ 2 ^ 48 := pow_dvd_pow 2 hn
    rw [and_two_pow_sub_one_eq_mod, and_two_pow_sub_one_eq_mod,
      ← mod_mod_of_dvd x hdvd, h, mod_mod_of_dvd y hdvd]
  have h12 : x &&& 0xFFF = y &&& 0xFFF := hlow 12 (by decide)
  have h21 : x &&& 0x1FFFFF = y &&& 0x1FFFFF := hlow 21 (by decide)
  have h30 : x &&& 0x3FFFFFFF = y &&& 0x3FFFFFFF := hlow 30 (by decide)
  simp only [virtToPhysAsm, hindexes, h12, h21, h30]

lemma samePage_add (h : v % 2 ^ k + o < 2 ^ k) : SamePage k v (v + o) := by
  have hsum : v + o = 2 ^ k * (v / 2 ^ k) + (v % 2 ^ k + o) := by
    rw [← add_assoc, div_add_mod]
  rw [SamePage, hsum, mul_add_div (Nat.two_pow_pos k), div_eq_of_lt h, Nat.add_zero]

lemma TranslatedBy.present (h : TranslatedBy t cr3 k l v entry) (hk : 12 ≤ k)
    (h0 : virtToPhysAsm t cr3 v = p) (hone : virtToPhysAsm t cr3 (v + 1) = p + 1) :
    getFlag entry pagePresent = true := by
  by_contra hnot
  have hself := h v rfl
  rw [if_neg hnot] at hself
  have hmod := (virtToPhysAsm_mod t cr3 (v + 1)).resolve_left (by omega)
  -- so `v` is the address of a small page, and its second byte is in the page of `v`
  have hv : v % 2 ^ 12 = 0 := by omega
  have hdvd : 2 ^ 12 ∣ 2 ^ k := pow_dvd_pow 2 hk
  have hoff : v % 2 ^ k % 2 ^ 12 = 0 := by rw [mod_mod_of_dvd v hdvd, hv]
  have hlt := mod_lt v (Nat.two_pow_pos k)
  obtain ⟨c, hc⟩ := hdvd
  have hnext := h (v + 1) (samePage_add (by omega))
  rw [if_neg hnot] at hnext
  omega

/-- A page with the entry of `p` is translated to `p` if and only if the entry tells `p`. -/
lemma TranslatedBy.iff_encodes (h : TranslatedBy t cr3 k l v (p ||| f)) (hk : 12 ≤ k)
    (hl : l ≤ 52) (hp : p % 2 ^ k = 0)
    (hf : ∀ i, i < 52 → i ≠ 8 → i ≠ 7 → f.testBit i = flags.testBit i) :
    (∀ o, o < 2 ^ k → virtToPhysAsm t cr3 (Word.add v o) = p + o) ↔ Encodes k l v p flags := by
  have hpow : 2 ^ 12 ≤ 2 ^ k := Nat.pow_le_pow_right (by decide) hk
  have hadd (o : Nat) : virtToPhysAsm t cr3 (Word.add v o) = virtToPhysAsm t cr3 (v + o) := by
    apply virtToPhysAsm_congr
    rw [Word.add]
    exact mod_mod_of_dvd _ (by decide)
  have hpres : getFlag (p ||| f) pagePresent = getFlag flags pagePresent := by
    have hbit : pagePresent = 2 ^ 0 := rfl
    rw [hbit, getFlag_two_pow, getFlag_two_pow, testBit_or,
      testBit_eq_false_of_mod hp (by omega), Bool.false_or,
      hf 0 (by decide) (by decide) (by decide)]
  have hsub : (∀ i, k ≤ i → i < l → f.testBit i = true → p.testBit i = true) ↔
      ∀ i, k ≤ i → i < l → flags.testBit i = true → p.testBit i = true := by
    refine forall_congr' fun i => forall_congr' fun hki => forall_congr' fun hil => ?_
    rw [hf i (by omega) (by omega) (by omega)]
  have hfield : ((p ||| f) &&& fieldMask k l) % 2 ^ k = 0 :=
    and_mod_two_pow (mul_mod_left _ _)
  constructor
  · intro htrans
    have h0 := htrans 0 (by omega)
    rw [hadd, Nat.add_zero, Nat.add_zero] at h0
    have hone := htrans 1 (by omega)
    rw [hadd] at hone
    have hfound := h.present hk h0 hone
    have hself := h v rfl
    rw [if_pos hfound, h0] at hself
    have hv : v % 2 ^ k = 0 := by
      have hmod : p % 2 ^ k = v % 2 ^ k := by
        rw [hself, add_mod, hfield, zero_add, mod_mod, mod_mod]
      rw [← hmod, hp]
    rw [hv, Nat.add_zero] at hself
    obtain ⟨hfits, hbits⟩ := (or_and_fieldMask_eq_iff hp).mp hself.symm
    exact ⟨hv, hpres.symm.trans hfound, hfits, hsub.mp hbits⟩
  · rintro ⟨hv, hfound, hfits, hbits⟩ o ho
    have hmod : (v + o) % 2 ^ k = o := by
      rw [add_mod, hv, zero_add, mod_mod, mod_eq_of_lt ho]
    rw [hadd, h (v + o) (samePage_add (by omega)), if_pos (hpres.trans hfound),
      (or_and_fieldMask_eq_iff hp).mpr ⟨hfits, hsub.mpr hbits⟩, hmod]

section
variable {pdp pd pt : Nat}

lemma samePage_small (h : SamePage 12 v x) : getIndexes x = getIndexes v := by
  unfold SamePage at h
  rw [getIndexes_eq, getIndexes_eq]
  simp only [Indexes.mk.injEq]
  omega

/-- The way to a page table. -/
structure Path (t : Tables) (cr3 v pdp pd : Nat) : Prop where
  pdp_ne : pdp ≠ 0
  pdp_eq : getNextLevel t (getAddress cr3) (getIndexes v).p4 = pdp
  pd_ne : pd ≠ 0
  pd_eq : getNextLevel t pdp (getIndexes v).p3 = pd

lemma translatedBy_small (h : Path t cr3 v pdp pd) (hpt : pt ≠ 0)
    (hnext : getNextLevel t pd (getIndexes v).p2 = pt) :
    TranslatedBy t cr3 12 52 v (t pt (getIndexes v).p1) := by
  intro x hx
  have hindexes := samePage_small hx
  have htab : pageTable t cr3 x = pt := by
    simp only [pageTable, hindexes, h.pdp_eq, h.pd_eq, hnext, if_neg h.pdp_ne, if_neg h.pd_ne]
  rw [virtToPhysAsm_of_pageTable (by rwa [htab]), pageEntry, htab, hindexes, getAddress,
    addressMask_eq]

lemma translatedBy_large (h : Path t cr3 v pdp pd)
    (hhuge : getFlag (t pd (getIndexes v).p2) pageHuge = true) :
    TranslatedBy t cr3 21 44 v (t pd (getIndexes v).p2) := by
  intro x hx
  have hindexes : (getIndexes x).p4 = (getIndexes v).p4 ∧ (getIndexes x).p3 = (getIndexes v).p3 ∧
      (getIndexes x).p2 = (getIndexes v).p2 := by
    unfold SamePage at hx
    rw [getIndexes_eq, getIndexes_eq]
    dsimp only
    omega
  obtain ⟨h4, h3, h2⟩ := hindexes
  obtain ⟨hpdp, hpdpEq, hpd, hpdEq⟩ := h
  obtain ⟨hpresent4, -, haddr4⟩ := present_of_getNextLevel (by rwa [hpdpEq])
  obtain ⟨hpresent3, hhuge3, haddr3⟩ := present_of_getNextLevel (by rwa [hpdEq])
  rw [hpdpEq] at haddr4
  rw [hpdEq] at haddr3
  have hoffset : x &&& 0x1FFFFF = x % 2 ^ 21 := and_two_pow_sub_one_eq_mod x 21
  simp only [virtToPhysAsm, h4, h3, h2, ← haddr4, ← haddr3, hpresent4, hpresent3, hhuge3, hhuge,
    hoffset, largeMask_eq]
  cases getFlag (t pd (getIndexes v).p2) pagePresent <;> simp

lemma translatedBy_huge (hpdp : pdp ≠ 0)
    (hpdpEq : getNextLevel t (getAddress cr3) (getIndexes v).p4 = pdp)
    (hhuge : getFlag (t pdp (getIndexes v).p3) pageHuge = true) :
    TranslatedBy t cr3 30 48 v (t pdp (getIndexes v).p3) := by
  intro x hx
  have hindexes : (getIndexes x).p4 = (getIndexes v).p4 ∧
      (getIndexes x).p3 = (getIndexes v).p3 := by
    unfold SamePage at hx
    rw [getIndexes_eq, getIndexes_eq]
    dsimp only
    omega
  obtain ⟨h4, h3⟩ := hindexes
  obtain ⟨hpresent4, -, haddr4⟩ := present_of_getNextLevel (by rwa [hpdpEq])
  rw [hpdpEq] at haddr4
  have hoffset : x &&& 0x3FFFFFFF = x % 2 ^ 30 := and_two_pow_sub_one_eq_mod x 30
  simp only [virtToPhysAsm, h4, h3, ← haddr4, hpresent4, hhuge, hoffset, hugeMask_eq]
  cases getFlag (t pdp (getIndexes v).p3) pagePresent <;> simp

end

section
variable {source : FrameSource σ} {free : σ → Nat → Prop} {frames frames' : σ}

lemma indexes_lt (virt : Nat) : (getIndexes virt).p4 < 512 ∧ (getIndexes virt).p3 < 512 ∧
    (getIndexes virt).p2 < 512 ∧ (getIndexes virt).p1 < 512 := by
  rw [getIndexes_eq]
  dsimp only
  omega

lemma getFlag_storedFlags_huge :
    getFlag (storedFlags nxEnabled v flags) pageHuge = getFlag flags pageHuge := by
  have hbit : pageHuge = 2 ^ 7 := rfl
  rw [hbit, getFlag_two_pow, getFlag_two_pow, testBit_storedFlags _ _ _ (by decide) (by decide)]

/-- The state of `mapPage` when the directories are there. -/
structure Descended (t : Tables) (cr3 v pdp pd : Nat) (free : Nat → Prop) : Prop where
  wellFormed : WellFormed t (getAddress cr3) free
  path : Path t cr3 v pdp pd
  pdp_at : TableAt t (getAddress cr3) 1 pdp
  pd_at : TableAt t (getAddress cr3) 2 pd

lemma Descended.setRaw {free : Nat → Prop} (h : Descended t cr3 v pdp pd free) (i value : Nat)
    (hd : 2 ≤ d) (hd' : d ≤ 3) (htab : TableAt t (getAddress cr3) d table) :
    Path (t.setRaw table i value) cr3 v pdp pd := by
  have hroot : getAddress cr3 ≠ table := by
    intro heq
    have := h.wellFormed.apart 0 d table (by decide) hd' heq.symm htab
    omega
  have hpdp : pdp ≠ table := by
    rintro rfl
    have := h.wellFormed.apart 1 d pdp (by decide) hd' h.pdp_at htab
    omega
  refine ⟨h.path.pdp_ne, ?_, h.path.pd_ne, ?_⟩
  · rw [getNextLevel_setRaw_of_ne value fun heq => hroot heq.1, h.path.pdp_eq]
  · rw [getNextLevel_setRaw_of_ne value fun heq => hpdp heq.1, h.path.pd_eq]

section
variable (hsound : source.Sound free) (hwf : WellFormed t (getAddress cr3) (free frames))
include hsound hwf

/-- A page that `mapPage` has mapped is translated by the new entry. -/
lemma mapPage_translatedBy
    (h : mapPage source nxEnabled cr3 t frames v p flags = some (true, t', frames')) :
    TranslatedBy t' cr3 (MapCall.offsetBits flags .page) (MapCall.addressBits flags .page) v
      (p ||| storedFlags nxEnabled v flags) := by
  obtain ⟨h4, h3, h2, -⟩ := indexes_lt v
  obtain ⟨⟨pdp, c4, t1, frames1⟩, hcreate1, h⟩ := bind_eq_some_iff.mp h
  obtain ⟨hpdp, h⟩ := else_of_ite h
  obtain ⟨hwf1, hkeeps1, hat1, hnext1⟩ :=
    createNextLevel_spec (d := 0) hsound hwf (by decide) rfl h4 hcreate1 hpdp
  obtain ⟨⟨pd, c3, t2, frames2⟩, hcreate2, h⟩ := bind_eq_some_iff.mp h
  dsimp only at h
  split at h
  · obtain ⟨⟨t3, frames3⟩, -, ⟨⟩⟩ := bind_eq_some_iff.mp h
  case isFalse hpd =>
    obtain ⟨hwf2, hkeeps2, hat2, hnext2⟩ :=
      createNextLevel_spec hsound hwf1 (by decide) hat1 h3 hcreate2 hpd
    have hnext1' : getNextLevel t2 (getAddress cr3) (getIndexes v).p4 = pdp := by
      rw [hkeeps2 0 _ _ (by decide) rfl h4 (by rwa [hnext1]), hnext1]
    have hdesc : Descended t2 cr3 v pdp pd (free frames2) :=
      ⟨hwf2, ⟨hpdp, hnext1', hpd, hnext2⟩, hkeeps2.tableAt (by decide) hat1, hat2⟩
    rw [getFlag_storedFlags_huge] at h
    split at h
    case isTrue hhuge =>
      rw [MapCall.offsetBits, MapCall.addressBits, if_pos hhuge, if_pos hhuge]
      obtain ⟨-, ⟨⟩⟩ := else_of_ite h
      have hpath := hdesc.setRaw (getIndexes v).p2 (p ||| storedFlags nxEnabled v flags)
        (le_refl 2) (by decide) hat2
      have hentry : t2.setRaw pd (getIndexes v).p2 (p ||| storedFlags nxEnabled v flags) pd
          (getIndexes v).p2 = p ||| storedFlags nxEnabled v flags := if_pos ⟨rfl, rfl⟩
      have hleaf := translatedBy_large hpath (by
        have hbit : pageHuge = 2 ^ 7 := rfl
        rw [hentry, hbit, getFlag_two_pow, testBit_or,
          testBit_storedFlags _ _ _ (by decide) (by decide), ← getFlag_two_pow flags 7, ← hbit,
          hhuge, Bool.or_true])
      rwa [hentry] at hleaf
    case isFalse hhuge =>
      rw [MapCall.offsetBits, MapCall.addressBits, if_neg hhuge, if_neg hhuge]
      obtain ⟨⟨pt, c2, t3, frames3⟩, hcreate3, h⟩ := bind_eq_some_iff.mp h
      dsimp only at h
      split_ifs at h with hpt
      · obtain ⟨⟨t4, frames4⟩, -, h⟩ := bind_eq_some_iff.mp h
        obtain ⟨⟨t5, frames5⟩, -, ⟨⟩⟩ := bind_eq_some_iff.mp h
      · obtain ⟨hwf3, hkeeps3, hat3, hnext3⟩ :=
          createNextLevel_spec hsound hwf2 (by decide) hat2 h2 hcreate3 hpt
        cases h
        have hdesc3 : Descended t3 cr3 v pdp pd (free frames') := by
          refine ⟨hwf3, ⟨hpdp, ?_, hpd, ?_⟩, hkeeps3.tableAt (by decide) hdesc.pdp_at,
            hkeeps3.tableAt (by decide) hat2⟩
          · rw [hkeeps3 0 _ _ (by decide) rfl h4 (by rwa [hnext1']), hnext1']
          · rw [hkeeps3 1 _ _ (by decide) hdesc.pdp_at h3 (by rwa [hnext2]), hnext2]
        have hne : pd ≠ pt := by
          rintro rfl
          have := hwf3.apart 2 3 pd (by decide) (by decide) hdesc3.pd_at hat3
          omega
        have hpath := hdesc3.setRaw (getIndexes v).p1 (p ||| storedFlags nxEnabled v flags)
          (by decide) (le_refl 3) hat3
        have hentry : t3.setRaw pt (getIndexes v).p1 (p ||| storedFlags nxEnabled v flags) pt
            (getIndexes v).p1 = p ||| storedFlags nxEnabled v flags := if_pos ⟨rfl, rfl⟩
        have hleaf := translatedBy_small hpath hpt (by
          rw [getNextLevel_setRaw_of_ne _ fun heq => hne heq.1, hnext3])
        rwa [hentry] at hleaf

/-- A page that `mapPage1G` has mapped is translated by the new entry. -/
lemma mapPage1G_translatedBy
    (h : mapPage1G source nxEnabled cr3 t frames v p flags = some (true, t', frames')) :
    TranslatedBy t' cr3 30 48 v (p ||| (storedFlags nxEnabled v flags ||| pageHuge)) := by
  obtain ⟨h4, h3, -, -⟩ := indexes_lt v
  obtain ⟨-, h⟩ := else_of_ite h
  obtain ⟨-, h⟩ := else_of_ite h
  obtain ⟨⟨pdp, c4, t1, frames1⟩, hcreate1, h⟩ := bind_eq_some_iff.mp h
  obtain ⟨hpdp, h⟩ := else_of_ite h
  obtain ⟨hwf1, -, hat1, hnext1⟩ :=
    createNextLevel_spec (d := 0) hsound hwf (by decide) rfl h4 hcreate1 hpdp
  split at h
  · obtain ⟨⟨t2, frames2⟩, -, ⟨⟩⟩ := bind_eq_some_iff.mp h
  · cases h
    have hroot : getAddress cr3 ≠ pdp := by
      intro heq
      have := hwf1.apart 0 1 pdp (by decide) (by decide) heq.symm hat1
      omega
    generalize hvalue : p ||| (storedFlags nxEnabled v flags ||| pageHuge) = value
    have hentry : t1.setRaw pdp (getIndexes v).p3 value pdp (getIndexes v).p3 = value :=
      if_pos ⟨rfl, rfl⟩
    have hleaf : TranslatedBy (t1.setRaw pdp (getIndexes v).p3 value) cr3 30 48 v _ :=
      translatedBy_huge hpdp (by rw [getNextLevel_setRaw_of_ne _ fun heq => hroot heq.1, hnext1])
      (by
        have hbit : pageHuge = 2 ^ 7 := rfl
        have hself : pageHuge.testBit 7 = true := by decide
        rw [hentry, ← hvalue, hbit, getFlag_two_pow, ← hbit, testBit_or, testBit_or,
          hself, Bool.or_true, Bool.or_true])
    rwa [hentry] at hleaf

end

end

/-- In every well-formed hierarchy, a page that a call has mapped to an aligned address below 2^52
is translated to it if and only if the virtual address is that of the page, the flags have the
present bit and no address bits beside those of the address, and the address is below 2^52 for a 4
KiB page, 2^44 for a 2 MiB page and 2^48 for a 1 GiB page. -/
theorem mapped_translates_iff {source : FrameSource σ} {free : σ → Nat → Prop}
    (hsound : source.Sound free) {t t' : Tables} {frames frames' : σ} {cr3 : Nat}
    (hwf : WellFormed t (getAddress cr3) (free frames)) {call : MapCall} {nxEnabled : Bool}
    {v p flags : Nat} (halign : p % 2 ^ call.offsetBits flags = 0)
    (h : call.run source nxEnabled cr3 t frames v p flags = some (true, t', frames')) :
    (∀ o, o < 2 ^ call.offsetBits flags → virtToPhysAsm t' cr3 (Word.add v o) = p + o) ↔
      Encodes (call.offsetBits flags) (call.addressBits flags) v p flags := by
  have hstored (i : Nat) (hi : i < 52) (h8 : i ≠ 8) :=
    testBit_storedFlags nxEnabled v flags hi h8
  cases call with
  | page =>
    refine (mapPage_translatedBy hsound hwf h).iff_encodes ?_ ?_ halign
      fun i hi h8 _ => hstored i hi h8
    · rw [MapCall.offsetBits]
      split <;> decide
    · rw [MapCall.addressBits]
      split <;> decide
  | page1G =>
    refine (mapPage1G_translatedBy hsound hwf h).iff_encodes (by decide) (by decide) halign ?_
    intro i hi h8 h7
    have hbit : pageHuge = 2 ^ 7 := rfl
    rw [testBit_or, hstored i hi h8, hbit, testBit_two_pow_of_ne (Ne.symm h7), Bool.or_false]

/-- A source of the frames from 8 KiB up to 64 KiB. -/
def smallSource : FrameSource Nat where
  alloc n := if n < 14 then some (4096 * (n + 2), n + 1) else some (0, n)
  free n _ := some n

lemma smallSource_sound :
    smallSource.Sound fun n a => ∃ m, n ≤ m ∧ m < 14 ∧ a = 4096 * (m + 2) := by
  have halloc {s a s' : Nat} (h : smallSource.alloc s = some (a, s')) :
      s < 14 ∧ a = 4096 * (s + 2) ∧ s' = s + 1 ∨ 14 ≤ s ∧ a = 0 ∧ s' = s := by
    unfold smallSource at h
    dsimp only at h
    split at h <;> cases h
    case isTrue hlt => exact .inl ⟨hlt, rfl, rfl⟩
    case isFalse hge => exact .inr ⟨by omega, rfl, rfl⟩
  refine ⟨fun s a s' h => ?_, fun s a s' h ha => ?_, fun s a s' h => ?_, fun s a s' h b => ?_⟩
  · rw [getAddress_eq]
    obtain ⟨hlt, rfl, -⟩ | ⟨-, rfl, -⟩ := halloc h
    · omega
    · rfl
  · obtain ⟨hlt, rfl, -⟩ | ⟨-, rfl, -⟩ := halloc h
    · exact ⟨s, le_refl s, hlt, rfl⟩
    · exact absurd rfl ha
  · rintro ⟨m, hm, hlt, hb⟩
    rcases halloc h with ⟨-, rfl, rfl⟩ | ⟨-, rfl, -⟩ <;> omega
  · rintro ⟨m, hm, hlt, rfl⟩
    obtain ⟨-, -, rfl⟩ | ⟨hge, -, rfl⟩ := halloc h
    · exact ⟨m, by omega, hlt, rfl⟩
    · exact ⟨m, hm, hlt, rfl⟩

lemma wellFormed_empty {free : Nat → Prop} (h : ¬free 0x1000) :
    WellFormed (fun _ _ => 0) 0x1000 free := by
  have honly {d a : Nat} (ha : TableAt (fun _ _ => 0) 0x1000 d a) : d = 0 ∧ a = 0x1000 := by
    cases d with
    | zero => exact ⟨rfl, ha⟩
    | succ d =>
      obtain ⟨hne, parent, i, -, -, hnext⟩ := ha
      have h0 : getNextLevel (fun _ _ => 0) parent i = 0 := by
        simp [getNextLevel, getFlag_zero]
      exact absurd (hnext.symm.trans h0) hne
  refine ⟨fun d d' a _ _ ha ha' => ?_, fun d a _ ha => ?_, fun d a i _ _ _ _ => rfl⟩
  · rw [(honly ha).1, (honly ha').1]
  · rwa [(honly ha).2]

/-- A large page at 8 TiB is translated as it was mapped. -/
theorem largePage_translates : ∃ t' frames',
    mapPage smallSource true 0x1000 (fun _ _ => 0) 0 0x40000000 (2 ^ 43) 0x83 =
        some (true, t', frames') ∧
      ∀ o, o < 2 ^ 21 → virtToPhysAsm t' 0x1000 (Word.add 0x40000000 o) = 2 ^ 43 + o := by
  have hmapped : ∃ t' frames', mapPage smallSource true 0x1000 (fun _ _ => 0) 0 0x40000000
      (2 ^ 43) 0x83 = some (true, t', frames') := ⟨_, _, rfl⟩
  obtain ⟨t', frames', h⟩ := hmapped
  refine ⟨t', frames', h, (mapped_translates_iff (σ := Nat) smallSource_sound
    (wellFormed_empty ?_) (by decide) (show MapCall.page.run _ _ _ _ _ _ _ _ = _ from h)).mpr
    ⟨by decide, by decide, by decide, ?_⟩⟩
  · rintro ⟨m, -, -, hm⟩
    omega
  intro i hlow hhigh hbit
  rw [testBit_lt_two_pow (Nat.lt_of_lt_of_le (by decide : 0x83 < 2 ^ 21)
    (Nat.pow_le_pow_right (by decide) hlow))] at hbit
  cases hbit

/-- A large page at 16 TiB and a huge page at 256 TiB are translated to address 0. -/
theorem highPages_translate_to_zero :
    (∃ t' frames', mapPage smallSource true 0x1000 (fun _ _ => 0) 0 0x40000000 (2 ^ 44) 0x83 =
        some (true, t', frames') ∧ virtToPhysAsm t' 0x1000 0x40000000 = 0) ∧
      ∃ t' frames', mapPage1G smallSource true 0x1000 (fun _ _ => 0) 0 0x40000000 (2 ^ 48) 0x03 =
        some (true, t', frames') ∧ virtToPhysAsm t' 0x1000 0x40000000 = 0 :=
  ⟨⟨_, _, rfl, by decide⟩, ⟨_, _, rfl, by decide⟩⟩

end Singularity.Paging
