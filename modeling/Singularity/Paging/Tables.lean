import Singularity.Foundation.Word

/-!
# Four-level page tables

The tables are the words stored at table addresses: a table is known by its
physical address, and since physical memory is accessed through the identity map
this is also its pointer, with zero as the null pointer. Frames come from a
`FrameSource`, whose calls may fail to return: then the operation on the tables
does not return either and the result is `none`.
-/

namespace Singularity.Paging

open Foundation Nat

def pagePresent : Nat := 0x01
def pageWrite : Nat := 0x02
def pageUser : Nat := 0x04
def pageHuge : Nat := 0x80
def pageGlobal : Nat := 0x100
def pageNx : Nat := 2 ^ 63
def smallPageSize : Nat := 4096
def pageSizeLarge : Nat := 0x200000
def kernelSpaceBase : Nat := 0xFFFF800000000000
def addressMask : Nat := 0x000FFFFFFFFFF000

/-- The raw entry of each table at each index. -/
abbrev Tables := Nat → Nat → Nat

/-- Store one entry. -/
def Tables.setRaw (t : Tables) (table i value : Nat) : Tables :=
  fun a j => if a = table ∧ j = i then value else t a j

/-- Clear a whole table, as `memset` does. -/
def Tables.zero (t : Tables) (table : Nat) : Tables := fun a j => if a = table then 0 else t a j

def getFlag (value flag : Nat) : Bool := value &&& flag != 0

def getAddress (value : Nat) : Nat := value &&& addressMask

def setAddress (value physAddr : Nat) : Nat :=
  (value &&& 0xFFF0000000000FFF) ||| (physAddr &&& addressMask)

/-- The table indexes of a virtual address. -/
structure Indexes where
  p4 : Nat
  p3 : Nat
  p2 : Nat
  p1 : Nat

def getIndexes (virt : Nat) : Indexes where
  p4 := (virt >>> 39) &&& 0x1FF
  p3 := (virt >>> 30) &&& 0x1FF
  p2 := (virt >>> 21) &&& 0x1FF
  p1 := (virt >>> 12) &&& 0x1FF

/-- The calls that page-table code makes into a frame allocator with states `σ`. -/
structure FrameSource (σ : Type) where
  alloc : σ → Option (Nat × σ)
  free : σ → Nat → Option σ

def getNextLevel (t : Tables) (table i : Nat) : Nat :=
  if !getFlag (t table i) pagePresent || getFlag (t table i) pageHuge then 0
  else getAddress (t table i)

variable {σ : Type}

/-- The next table, created if there is none; the flag tells whether it was. -/
def createNextLevel (source : FrameSource σ) (t : Tables) (frames : σ) (table i flags : Nat) :
    Option (Nat × Bool × Tables × σ) :=
  if getFlag (t table i) pagePresent then some (getNextLevel t table i, false, t, frames)
  else do
    let (phys, frames) ← source.alloc frames
    if phys = 0 then some (0, false, t, frames)
    else
      let t := t.zero phys
      let t := t.setRaw table i (setAddress (t table i) phys)
      let t := t.setRaw table i (t table i ||| flags)
      some (phys, true, t, frames)

/-- Take back a table that was created in vain. -/
def dropTable (source : FrameSource σ) (t : Tables) (frames : σ) (table i : Nat) (created : Bool) :
    Option (Tables × σ) :=
  if created then do
    let phys := getAddress (t table i)
    let t := t.setRaw table i 0
    let frames ← source.free frames phys
    some (t, frames)
  else some (t, frames)

/-- The flags of the entries that point to tables. -/
def tableFlags : Nat := pagePresent ||| pageWrite ||| pageUser

/-- The loop body of `mapPagesBulk`; `false` stands for a table that could not be created. -/
def mapEntry (source : FrameSource σ) (pml4 : Nat) (t : Tables) (frames : σ)
    (v p flags : Nat) : Option (Bool × Tables × σ) := do
  let ix := getIndexes v
  let (pdp, c4, t, frames) ← createNextLevel source t frames pml4 ix.p4 tableFlags
  if pdp = 0 then some (false, t, frames)
  else do
    let (pd, c3, t, frames) ← createNextLevel source t frames pdp ix.p3 tableFlags
    if pd = 0 then do
      let (t, frames) ← dropTable source t frames pml4 ix.p4 c4
      some (false, t, frames)
    else
      let ff := if !getFlag flags pageUser && decide (kernelSpaceBase ≤ v)
        then flags ||| pageGlobal else flags
      if getFlag flags pageHuge then some (true, t.setRaw pd ix.p2 (p ||| ff), frames)
      else do
        let (pt, _, t, frames) ← createNextLevel source t frames pd ix.p2 tableFlags
        if pt = 0 then do
          let (t, frames) ← dropTable source t frames pdp ix.p3 c3
          let (t, frames) ← dropTable source t frames pml4 ix.p4 c4
          some (false, t, frames)
        else some (true, t.setRaw pt ix.p1 (p ||| ff), frames)

/-- Clear the entry of one page that was mapped before a failure. -/
def rollbackEntry (pml4 : Nat) (flags : Nat) (t : Tables) (v : Nat) : Tables :=
  let ix := getIndexes v
  let pdp := getNextLevel t pml4 ix.p4
  let pd := getNextLevel t pdp ix.p3
  let pt := getNextLevel t pd ix.p2
  if pdp = 0 then t
  else if pd = 0 then t
  else if getFlag flags pageHuge then t.setRaw pd ix.p2 0
  else if pt = 0 then t
  else t.setRaw pt ix.p1 0

/-- The loop of `mapPagesBulk` over the `n` pages that remain, from page `i` on. -/
def mapLoop (source : FrameSource σ) (pml4 vs ps sz flags : Nat) :
    Nat → Nat → Tables → σ → Option (Bool × Tables × σ)
  | 0, _, t, frames => some (true, t, frames)
  | n + 1, i, t, frames => do
      let (done, t, frames) ← mapEntry source pml4 t frames
        (Word.add vs (Word.mul i sz)) (Word.add ps (Word.mul i sz)) flags
      if done then mapLoop source pml4 vs ps sz flags n (i + 1) t frames
      else
        let pages := (List.range i).map fun j => Word.add vs (Word.mul j sz)
        some (false, pages.foldl (rollbackEntry pml4 flags) t, frames)

/-- Map `count` pages from `vs` to `ps`. -/
def mapPagesBulk (source : FrameSource σ) (nxEnabled : Bool) (cr3 : Nat) (t : Tables) (frames : σ)
    (vs ps count flags : Nat) : Option (Bool × Tables × σ) :=
  if count = 0 then some (true, t, frames)
  else
    let flags := if nxEnabled then flags else flags &&& Word.compl pageNx
    let sz := if getFlag flags pageHuge then pageSizeLarge else smallPageSize
    mapLoop source (getAddress cr3) vs ps sz flags count 0 t frames

/-- The entry that `unmapPage` clears: the page-table entry, or that of the large page. -/
def unmapEntry (cr3 : Nat) (t : Tables) (virt : Nat) : Option (Nat × Nat) :=
  let ix := getIndexes virt
  let pdp := getNextLevel t (getAddress cr3) ix.p4
  let pd := getNextLevel t pdp ix.p3
  let pt := getNextLevel t pd ix.p2
  if pdp = 0 then none
  else if pd = 0 then none
  else if getFlag (t pd ix.p2) pageHuge then some (pd, ix.p2)
  else if pt = 0 then none
  else some (pt, ix.p1)

def unmapPage (cr3 : Nat) (t : Tables) (virt : Nat) : Tables :=
  match unmapEntry cr3 t virt with
  | none => t
  | some (table, i) => t.setRaw table i 0

variable {flags address table i : Nat} {t : Tables}

/-- The addresses a 48-bit processor accepts. -/
def Canonical (virt : Nat) : Prop :=
  virt < 2 ^ 47 ∨ (2 ^ 64 - 2 ^ 47 ≤ virt ∧ virt < 2 ^ 64)

instance : DecidablePred Canonical := fun _ => inferInstanceAs (Decidable (_ ∨ _))

/-- The physical address that the processor computes, if the page is present. -/
def translate (t : Tables) (cr3 virt : Nat) : Option Nat :=
  let ix := getIndexes virt
  let e4 := t (getAddress cr3) ix.p4
  let e3 := t (getAddress e4) ix.p3
  let e2 := t (getAddress e3) ix.p2
  let e1 := t (getAddress e2) ix.p1
  if ¬ Canonical virt then none
  else if !getFlag e4 pagePresent then none
  else if !getFlag e3 pagePresent then none
  else if getFlag e3 pageHuge then some (getAddress e3 / 2 ^ 30 * 2 ^ 30 + virt % 2 ^ 30)
  else if !getFlag e2 pagePresent then none
  else if getFlag e2 pageHuge then some (getAddress e2 / 2 ^ 21 * 2 ^ 21 + virt % 2 ^ 21)
  else if !getFlag e1 pagePresent then none
  else some (getAddress e1 + virt % 2 ^ 12)

def pageTableCount : Nat := 4

/-- The tables that the boot code leaves: `p3_table` and the tables at `p2_tables`
follow `p4_table`, and each of the first 2048 large pages is mapped to itself. -/
def bootTables (p4Table : Nat) (memory : Tables) : Tables :=
  let p3Table := p4Table + 4096
  let p2Tables := p3Table + 4096
  fun table i =>
    if table = p4Table then if i = 0 then p3Table ||| 0b11 else 0
    else if table = p3Table then
      if i < pageTableCount then (4096 * i + p2Tables) ||| 0b11 else 0
    else if p2Tables ≤ table ∧ table < p2Tables + 4096 * pageTableCount then
      (0x200000 * ((table - p2Tables) / 4096 * 512 + i)) ||| 0b10000011
    else memory table i

lemma getAddress_eq (value : Nat) : getAddress value = value % 2 ^ 52 / 2 ^ 12 * 2 ^ 12 := by
  have hmask : addressMask = (2 ^ 52 - 1) / 2 ^ 12 * 2 ^ 12 := by decide
  apply eq_of_testBit_eq
  intro i
  rw [getAddress, hmask, testBit_and, testBit_mul_two_pow, testBit_mul_two_pow,
    testBit_div_two_pow, testBit_div_two_pow, testBit_two_pow_sub_one,
    testBit_mod_two_pow]
  by_cases hi : 12 ≤ i
  · have hsum : i - 12 + 12 = i := by omega
    simp [hi, hsum, Bool.and_comm]
  · simp [hi]

section
variable (halign : address % 2 ^ 12 = 0)
include halign

lemma or_eq_add (hflags : flags < 2 ^ 12) : address ||| flags = address + flags := by
  have hpage : 2 ^ 12 * (address / 2 ^ 12) = address := by omega
  rw [← hpage]
  exact (two_pow_add_eq_or_of_lt hflags _).symm

lemma getAddress_or (hlt : address < 2 ^ 52)
    (hflags : flags < 2 ^ 12) : getAddress (address ||| flags) = address := by
  rw [or_eq_add halign hflags, getAddress_eq]
  omega

omit halign in
lemma getFlag_two_pow (value k : Nat) : getFlag value (2 ^ k) = value.testBit k := by
  rw [getFlag, and_two_pow]
  cases value.testBit k <;> simp

lemma getFlag_or (hk : k < 12) (flags : Nat) :
    getFlag (address ||| flags) (2 ^ k) = flags.testBit k := by
  have hpage : address / 2 ^ 12 * 2 ^ 12 = address := by omega
  rw [getFlag_two_pow, testBit_or, ← hpage, testBit_mul_two_pow]
  have hlt : ¬ 12 ≤ k := by omega
  simp [hlt]

lemma present_or (flags : Nat) : getFlag (address ||| flags) pagePresent = flags.testBit 0 :=
  getFlag_or (k := 0) halign (by decide) flags

lemma huge_or (flags : Nat) : getFlag (address ||| flags) pageHuge = flags.testBit 7 :=
  getFlag_or (k := 7) halign (by decide) flags

end

lemma getIndexes_eq (virt : Nat) : getIndexes virt =
    ⟨virt / 2 ^ 39 % 512, virt / 2 ^ 30 % 512, virt / 2 ^ 21 % 512, virt / 2 ^ 12 % 512⟩ := by
  have hmask : ∀ x, x &&& 0x1FF = x % 512 := fun x => and_two_pow_sub_one_eq_mod x 9
  simp only [getIndexes, shiftRight_eq_div_pow, hmask]

section
variable (p4Table : Nat) (memory : Tables)

lemma bootTables_p4 (i : Nat) : bootTables p4Table memory p4Table i =
    if i = 0 then (p4Table + 4096) ||| 0b11 else 0 := by
  simp [bootTables]

lemma bootTables_p3 (i : Nat) : bootTables p4Table memory (p4Table + 4096) i =
    if i < 4 then (4096 * i + (p4Table + 8192)) ||| 0b11 else 0 := by
  simp [bootTables, pageTableCount, add_assoc]

lemma bootTables_p2 (hj : j < 4) (i : Nat) :
    bootTables p4Table memory (4096 * j + (p4Table + 8192)) i =
      (0x200000 * (j * 512 + i)) ||| 0b10000011 := by
  have h4 : 4096 * j + (p4Table + 8192) ≠ p4Table := by omega
  have h3 : 4096 * j + (p4Table + 8192) ≠ p4Table + 4096 := by omega
  have h2 : p4Table + 4096 + 4096 ≤ 4096 * j + (p4Table + 8192) ∧
      4096 * j + (p4Table + 8192) < p4Table + 4096 + 4096 + 4096 * 4 := by omega
  have hidx : (4096 * j + (p4Table + 8192) - (p4Table + 4096 + 4096)) / 4096 = j := by omega
  simp only [bootTables, pageTableCount, if_neg h4, if_neg h3, if_pos h2, hidx]

lemma getFlag_zero (flag : Nat) : getFlag 0 flag = false := by simp [getFlag]

variable {p4Table} (halign : p4Table % 2 ^ 12 = 0) (hlow : p4Table + 0x6000 ≤ 2 ^ 32)

section
include halign

lemma p3Table_aligned : (p4Table + 4096) % 2 ^ 12 = 0 := by omega

lemma p2Table_aligned (i : Nat) : (4096 * i + (p4Table + 8192)) % 2 ^ 12 = 0 := by omega

end

include halign hlow

lemma getAddress_p4Table : getAddress p4Table = p4Table := by
  rw [getAddress_eq]
  omega

lemma getAddress_p3Table : getAddress ((p4Table + 4096) ||| 0b11) = p4Table + 4096 :=
  getAddress_or (p3Table_aligned halign) (by omega) (by decide)

/-- Below four gibibytes the walk ends at the large page of the address itself. -/
lemma translate_bootTables_of_lt (hvirt : virt < 2 ^ 32) :
    translate (bootTables p4Table memory) p4Table virt = some virt := by
  have hnumber : virt / 2 ^ 30 % 512 * 512 + virt / 2 ^ 21 % 512 = virt / 2 ^ 21 := by omega
  have hpage : 0x200000 * (virt / 2 ^ 21) % 2 ^ 12 = 0 := by omega
  have h4 : virt / 2 ^ 39 % 512 = 0 := by omega
  have h3 : virt / 2 ^ 30 % 512 < 4 := by omega
  have hoffset : 0x200000 * (virt / 2 ^ 21) / 2 ^ 21 * 2 ^ 21 + virt % 2 ^ 21 = virt := by
    rw [show 0x200000 * (virt / 2 ^ 21) / 2 ^ 21 = virt / 2 ^ 21 from
      Nat.mul_div_cancel_left _ (by decide)]
    exact div_add_mod' virt (2 ^ 21)
  have hp3Table := p3Table_aligned halign
  have hp2Table := p2Table_aligned halign (virt / 2 ^ 30 % 512)
  have hread4 : bootTables p4Table memory (getAddress p4Table) (getIndexes virt).p4 =
      (p4Table + 4096) ||| 0b11 := by
    rw [getAddress_p4Table halign hlow, bootTables_p4, getIndexes_eq, if_pos h4]
  have hread3 : bootTables p4Table memory (getAddress ((p4Table + 4096) ||| 0b11))
      (getIndexes virt).p3 = (4096 * (virt / 2 ^ 30 % 512) + (p4Table + 8192)) ||| 0b11 := by
    rw [getAddress_p3Table halign hlow, bootTables_p3, getIndexes_eq, if_pos h3]
  have hread2 : bootTables p4Table memory
      (getAddress ((4096 * (virt / 2 ^ 30 % 512) + (p4Table + 8192)) ||| 0b11))
      (getIndexes virt).p2 = (0x200000 * (virt / 2 ^ 21)) ||| 0b10000011 := by
    rw [getAddress_or hp2Table (by omega) (by decide), bootTables_p2 _ _ h3, getIndexes_eq, hnumber]
  have hcanon : Canonical virt := .inl (by omega)
  simp only [translate, hcanon, hread4, present_or hp3Table, hread3, present_or hp2Table,
    huge_or hp2Table, hread2, present_or hpage, huge_or hpage]
  rw [if_neg (by simp), if_neg (by decide), if_neg (by decide), if_neg (by decide),
    if_neg (by decide), if_pos (by decide), getAddress_or hpage (by omega) (by decide), hoffset]

lemma translate_bootTables (virt : Nat) :
    translate (bootTables p4Table memory) p4Table virt =
      if virt < 2 ^ 32 then some virt else none := by
  split_ifs with hvirt
  · exact translate_bootTables_of_lt memory halign hlow hvirt
  · by_cases hcanon : Canonical virt
    · by_cases h4 : virt / 2 ^ 39 % 512 = 0
      · have h3 : ¬ virt / 2 ^ 30 % 512 < 4 := by
          unfold Canonical at hcanon
          omega
        simp only [translate, getIndexes_eq, getAddress_p4Table halign hlow, h4, bootTables_p4,
          if_true, getAddress_p3Table halign hlow, bootTables_p3, if_neg h3, getFlag_zero]
        simp
      · simp only [translate, getIndexes_eq, getAddress_p4Table halign hlow, bootTables_p4,
          if_neg h4, getFlag_zero]
        simp
    · simp [translate, hcanon]

lemma mapEntry_bootTables_waits (halloc : source.alloc frames = none) (p flags : Nat) :
    mapEntry source p4Table (bootTables p4Table memory) frames (2 ^ 32) p flags = none := by
  have hindexes : getIndexes (2 ^ 32) = ⟨0, 4, 0, 0⟩ := by
    rw [getIndexes_eq]
    rfl
  have hentry : bootTables p4Table memory p4Table 0 = (p4Table + 4096) ||| 0b11 := by
    rw [bootTables_p4, if_pos rfl]
  have hpres : getFlag (bootTables p4Table memory p4Table 0) pagePresent = true := by
    rw [hentry, present_or (p3Table_aligned halign)]
    decide
  have hhuge : getFlag (bootTables p4Table memory p4Table 0) pageHuge = false := by
    rw [hentry, huge_or (p3Table_aligned halign)]
    decide
  have hnext : getNextLevel (bootTables p4Table memory) p4Table 0 = p4Table + 4096 := by
    rw [getNextLevel, if_neg (by simp [hpres, hhuge]), hentry, getAddress_p3Table halign hlow]
  have hmissing : getFlag (bootTables p4Table memory (p4Table + 4096) 4) pagePresent = false := by
    rw [bootTables_p3, if_neg (by decide), getFlag_zero]
  simp only [mapEntry, hindexes, createNextLevel, hpres, hnext, if_true]
  simp [hmissing, halloc]

end

end Singularity.Paging
