import Singularity.Foundation.Runs
import Singularity.Storage.Gpt

/-!
# The partition table stays valid

On a disk that was initialised, any sequence of creations and deletions keeps the two copies of
header and table in order: the checksums are right, the copies agree, and the partitions lie apart
from each other and from the copies.
-/

namespace Singularity.Storage.Gpt

open Foundation Nat Sectors UInt64 Option List GptHeader

/-- The header in a sector. -/
def headerAt (d : Sectors) (lba : Nat) : GptHeader := .fromBuffer (d lba)

/-- The table that belongs to the header in a sector. -/
def tableAt (bs : Nat) (d : Sectors) (lba : Nat) : Mem :=
  d.image bs (headerAt d lba).partitionEntryLba.toNat

/-- The header in a sector carries the right checksums of itself and of its table. -/
structure SelfConsistent (bs : Nat) (d : Sectors) (lba : Nat) : Prop where
  signature : (headerAt d lba).signature = gptSignature
  size_ge : 92 ≤ (headerAt d lba).headerSize.toNat
  size_le : (headerAt d lba).headerSize.toNat ≤ bs
  header_crc : crc32 (slice (writeU32 (d lba) 16 0) (headerAt d lba).headerSize.toNat) =
    (headerAt d lba).crc32Header
  table_crc : crc32 (slice (tableAt bs d lba) (headerAt d lba).totalSize) =
    (headerAt d lba).crc32PartitionArray

/-- The sectors of the table that belongs to the header in a sector. -/
def InTable (bs : Nat) (d : Sectors) (lba l : Nat) : Prop :=
  (headerAt d lba).partitionEntryLba.toNat ≤ l ∧
    l < (headerAt d lba).partitionEntryLba.toNat + (headerAt d lba).sectorsToRead bs

/-- The entries in use are disjoint, start at a boundary of 1 MiB and lie between two sectors. -/
structure Tidy (bs first last : Nat) (table : Mem) (size count : Nat) : Prop where
  disjoint : ∀ i j, i < count → j < count → i ≠ j → used table size i = true →
    used table size j = true → (endOf table size i).toNat < (startOf table size j).toNat ∨
      (endOf table size j).toNat < (startOf table size i).toNat
  aligned : ∀ i, i < count → used table size i = true →
    (startOf table size i).toNat * bs % (1024 * 1024) = 0
  inside : ∀ i, i < count → used table size i = true → first ≤ (startOf table size i).toNat ∧
    (startOf table size i).toNat ≤ (endOf table size i).toNat ∧
    (endOf table size i).toNat ≤ last

/-- A valid partition table. -/
structure GptValid (bs : Nat) (d : Sectors) : Prop where
  current : (headerAt d 1).currentLba = 1
  primary : SelfConsistent bs d 1
  backup : SelfConsistent bs d (headerAt d 1).backupLba.toNat
  mirror_header : ∃ entryLba crc, headerAt d (headerAt d 1).backupLba.toNat =
    { headerAt d 1 with
      currentLba := (headerAt d 1).backupLba
      backupLba := (headerAt d 1).currentLba
      partitionEntryLba := entryLba
      crc32Header := crc }
  mirror_table : ∀ i, i < (headerAt d 1).totalSize →
    tableAt bs d (headerAt d 1).backupLba.toNat i = tableAt bs d 1 i
  tidy : Tidy bs (headerAt d 1).firstUsableLba.toNat (headerAt d 1).lastUsableLba.toNat
    (tableAt bs d 1) (headerAt d 1).sizePartitionEntry.toNat
    (headerAt d 1).numPartitionEntries.toNat
  apart : ∀ l, (headerAt d 1).firstUsableLba.toNat ≤ l → l ≤ (headerAt d 1).lastUsableLba.toNat →
    l ≠ 1 ∧ l ≠ (headerAt d 1).backupLba.toNat ∧ ¬InTable bs d 1 l ∧
      ¬InTable bs d (headerAt d 1).backupLba.toNat l

variable {n bs size j total : Nat} {table : Mem}

lemma slice_congr (h : ∀ i, i < n → buf i = buf' i) : slice buf n = slice buf' n :=
  map_congr_left fun i hi => h i (mem_range.mp hi)

section
variable {first last count i : Nat} {table' : Mem}

/-- Entry `i` reads the same in both tables. -/
structure SameEntry (size : Nat) (table table' : Mem) (i : Nat) : Prop where
  used_eq : used table' size i = used table size i
  start_eq : startOf table' size i = startOf table size i
  end_eq : endOf table' size i = endOf table size i

lemma sameEntry_of_agree (hsz : 48 ≤ size)
    (h : ∀ x, i * size ≤ x → x < i * size + size → table' x = table x) :
    SameEntry size table table' i where
  used_eq := by
    have hguid : readGuid table' (i * size) = readGuid table (i * size) := by
      funext k
      exact h _ (by omega) (by omega)
    rw [used, used, hguid]
  start_eq := by
    rw [startOf, startOf, readU64, readU64,
      Mem.readBytes_congr fun x hlo hhi => h x (by omega) (by omega)]
  end_eq := by
    rw [endOf, endOf, readU64, readU64,
      Mem.readBytes_congr fun x hlo hhi => h x (by omega) (by omega)]

lemma sameEntry_of_sameOutside (hsz : 48 ≤ size) (hn : n ≤ size) (hij : i ≠ j)
    (h : Mem.SameOutside (j * size) n table table') : SameEntry size table table' i := by
  apply sameEntry_of_agree hsz
  intro x hlo hhi
  apply h x
  obtain hlt | hgt := lt_or_gt_of_ne hij
  · have hmul := mul_le_mul_right size (succ_le_of_lt hlt)
    rw [succ_mul] at hmul
    omega
  · have hmul := mul_le_mul_right size (succ_le_of_lt hgt)
    rw [succ_mul] at hmul
    omega

variable (h : Tidy bs first last table size count)
include h

lemma Tidy.congr
    (hsame : ∀ i, i < count → used table' size i = true → SameEntry size table table' i) :
    Tidy bs first last table' size count := by
  refine ⟨?_, ?_, ?_⟩
  · intro i k hi hk hik hui huk
    have hsi := hsame i hi hui
    have hsk := hsame k hk huk
    rw [hsi.start_eq, hsi.end_eq, hsk.start_eq, hsk.end_eq]
    exact h.disjoint i k hi hk hik (hsi.used_eq ▸ hui) (hsk.used_eq ▸ huk)
  · intro i hi hui
    have hsi := hsame i hi hui
    rw [hsi.start_eq]
    exact h.aligned i hi (hsi.used_eq ▸ hui)
  · intro i hi hui
    have hsi := hsame i hi hui
    rw [hsi.start_eq, hsi.end_eq]
    exact h.inside i hi (hsi.used_eq ▸ hui)

lemma Tidy.remove (hsame : ∀ i, i ≠ j → SameEntry size table table' i)
    (hj : used table' size j = false) : Tidy bs first last table' size count := by
  refine h.congr fun i _ hi => hsame i ?_
  rintro rfl
  rw [hj] at hi
  cases hi

/-- A table with a further entry behind all others is tidy. -/
lemma Tidy.insert (hsame : ∀ i, i ≠ j → SameEntry size table table' i)
    (halign : (startOf table' size j).toNat * bs % (1024 * 1024) = 0)
    (hlow : first ≤ (startOf table' size j).toNat)
    (hle : (startOf table' size j).toNat ≤ (endOf table' size j).toNat)
    (hhigh : (endOf table' size j).toNat ≤ last)
    (hbehind : ∀ i, i < count → used table size i = true →
      (endOf table size i).toNat < (startOf table' size j).toNat) :
    Tidy bs first last table' size count := by
  refine ⟨?_, ?_, ?_⟩
  · intro i k hi hk hik hui huk
    by_cases hij : i = j
    · subst hij
      have hsk := hsame k (Ne.symm hik)
      rw [hsk.used_eq] at huk
      rw [hsk.end_eq]
      exact .inr (hbehind k hk huk)
    · have hsi := hsame i hij
      rw [hsi.used_eq] at hui
      rw [hsi.end_eq, hsi.start_eq]
      by_cases hkj : k = j
      · subst hkj
        exact .inl (hbehind i hi hui)
      have hsk := hsame k hkj
      rw [hsk.used_eq] at huk
      rw [hsk.end_eq, hsk.start_eq]
      exact h.disjoint i k hi hk hik hui huk
  · intro i hi hui
    by_cases hij : i = j
    · subst hij
      exact halign
    have hsi := hsame i hij
    rw [hsi.used_eq] at hui
    rw [hsi.start_eq]
    exact h.aligned i hi hui
  · intro i hi hui
    by_cases hij : i = j
    · subst hij
      exact ⟨hlow, hle, hhigh⟩
    have hsi := hsame i hij
    rw [hsi.used_eq] at hui
    rw [hsi.start_eq, hsi.end_eq]
    exact h.inside i hi hui

end

/-- What the loop knows behind the first `n` entries. -/
structure Scanned (table : Mem) (size : Nat) (low : UInt64) (n : Nat)
    (s : Option Nat × UInt64) : Prop where
  free : ∀ j, s.1 = some j → j < n ∧ used table size j = false ∧
    ∀ i, i < j → used table size i = true
  full : s.1 = none → ∀ i, i < n → used table size i = true
  above : ∀ i, i < n → used table size i = true → (endOf table size i).toNat ≤ s.2.toNat
  low_le : low.toNat ≤ s.2.toNat
  attained : s.2 = low ∨ ∃ i, i < n ∧ used table size i = true ∧ s.2 = endOf table size i

lemma lt_of_unused (hunused : ¬used table size n = true) (hi : i < n + 1)
    (hui : used table size i = true) : i < n := by
  obtain hlt | rfl := Nat.lt_succ_iff_lt_or_eq.mp hi
  · exact hlt
  · exact absurd hui hunused

lemma Scanned.step (h : Scanned table size low n s) :
    Scanned table size low (n + 1) (scanStep table size s n) := by
  unfold scanStep
  split
  case isTrue hused =>
    have hmax : ((if s.2 < endOf table size n then endOf table size n else s.2) : UInt64).toNat =
        max s.2.toNat (endOf table size n).toNat := by
      split
      case isTrue hlt =>
        have := lt_iff_toNat_lt.mp hlt
        omega
      case isFalse hle =>
        have := mt lt_iff_toNat_lt.mpr hle
        omega
    have hbelow := h.low_le
    refine ⟨?_, ?_, ?_, ?_, ?_⟩
    · intro j hj
      obtain ⟨hlt, hfree, hfirst⟩ := h.free j hj
      exact ⟨lt_succ_of_lt hlt, hfree, hfirst⟩
    · intro hnone i hi
      obtain hlt | rfl := Nat.lt_succ_iff_lt_or_eq.mp hi
      · exact h.full hnone i hlt
      · exact hused
    · intro i hi hui
      dsimp only
      rw [hmax]
      obtain hlt | rfl := Nat.lt_succ_iff_lt_or_eq.mp hi
      · have := h.above i hlt hui
        omega
      · omega
    · dsimp only
      rw [hmax]
      omega
    · dsimp only
      split
      · exact .inr ⟨n, lt_succ_self n, hused, rfl⟩
      · exact h.attained.imp_right fun ⟨i, hi, hend⟩ => ⟨i, lt_succ_of_lt hi, hend⟩
  case isFalse hunused =>
    refine ⟨?_, ?_, fun i hi hui => h.above i (lt_of_unused hunused hi hui) hui, h.low_le,
      h.attained.imp_right fun ⟨i, hi, hend⟩ => ⟨i, lt_succ_of_lt hi, hend⟩⟩
    · intro j hj
      cases hs : s.1 with
      | some k =>
        rw [hs, some_or, Option.some.injEq] at hj
        subst hj
        obtain ⟨hlt, hfree, hfirst⟩ := h.free k hs
        exact ⟨lt_succ_of_lt hlt, hfree, hfirst⟩
      | none =>
        rw [hs, none_or, Option.some.injEq] at hj
        subst hj
        exact ⟨lt_succ_self _, Bool.eq_false_of_not_eq_true hunused, h.full hs⟩
    · intro hnone
      cases (or_eq_none_iff.mp hnone).2

lemma scanned_scanTable (table : Mem) (size count : Nat) (first : UInt64) :
    Scanned table size (first - 1) count (scanTable table size count first) := by
  unfold scanTable
  induction count with
  | zero =>
    refine ⟨nofun, fun _ i hi => absurd hi (not_lt_zero i), fun i hi => absurd hi
      (not_lt_zero i), le_refl _, .inl rfl⟩
  | succ n ih =>
    rw [range_succ, foldl_append]
    exact ih.step

lemma sameOutside_writeName (buf : Mem) (offset : Nat) (name : List Char) :
    Mem.SameOutside offset 72 buf (writeName buf offset name) := by
  have hwrites (l : List (Char × Nat)) (hl : ∀ c ∈ l, c.2 < 35) (buf : Mem) :
      Mem.SameOutside offset 72 buf (l.foldl
        (fun buf c => buf.writeBytes (offset + 2 * c.2) 2 (c.1.toNat % 2 ^ 16)) buf) := by
    induction l generalizing buf with
    | nil => exact Mem.SameOutside.refl _ _ _
    | cons c l ih =>
      have hc := hl c mem_cons_self
      have hfirst := (Mem.sameOutside_writeBytes buf (offset + 2 * c.2) 2
        (c.1.toNat % 2 ^ 16)).mono (a := offset) (n := 72) (by omega) (by omega)
      exact hfirst.trans (ih (fun c hc => hl c (mem_cons_of_mem _ hc)) _)
  apply hwrites
  intro c hc
  have hlt := snd_lt_of_mem_zipIdx hc
  rw [length_take] at hlt
  omega

lemma sameOutside_writeEntry (table : Mem) (offset : Nat) (r : CreateRequest)
    (startLba endLba : UInt64) :
    Mem.SameOutside offset 128 table (writeEntry table offset r startLba endLba) := by
  intro x hx
  unfold writeEntry
  rw [sameOutside_writeName _ _ _ x (by omega), Mem.sameOutside_fill _ _ _ _ x (by omega),
    sameOutside_writeU64 _ _ _ x (by omega), sameOutside_writeU64 _ _ _ x (by omega),
    sameOutside_writeU64 _ _ _ x (by omega), sameOutside_writeGuid _ _ _ x (by omega),
    sameOutside_writeGuid _ _ _ x (by omega)]

lemma readU64_writeEntry_start : readU64 (writeEntry table offset r startLba endLba)
    (offset + 32) = startLba := by
  rw [writeEntry, readU64_of_sameOutside (sameOutside_writeName _ _ _) (by omega),
    readU64_of_sameOutside (Mem.sameOutside_fill _ _ _ _) (by omega),
    readU64_of_sameOutside (sameOutside_writeU64 _ _ _) (by omega),
    readU64_of_sameOutside (sameOutside_writeU64 _ _ _) (by omega), readU64_writeU64]

lemma readU64_writeEntry_end : readU64 (writeEntry table offset r startLba endLba)
    (offset + 40) = endLba := by
  rw [writeEntry, readU64_of_sameOutside (sameOutside_writeName _ _ _) (by omega),
    readU64_of_sameOutside (Mem.sameOutside_fill _ _ _ _) (by omega),
    readU64_of_sameOutside (sameOutside_writeU64 _ _ _) (by omega), readU64_writeU64]

lemma readGuid_writeEntry : readGuid (writeEntry table offset r startLba endLba) offset =
    getGuidForType r.typeStr := by
  rw [writeEntry, readGuid_of_sameOutside (sameOutside_writeName _ _ _) (by omega),
    readGuid_of_sameOutside (Mem.sameOutside_fill _ _ _ _) (by omega),
    readGuid_of_sameOutside (sameOutside_writeU64 _ _ _) (by omega),
    readGuid_of_sameOutside (sameOutside_writeU64 _ _ _) (by omega),
    readGuid_of_sameOutside (sameOutside_writeU64 _ _ _) (by omega),
    readGuid_of_sameOutside (sameOutside_writeGuid _ _ _) (by omega), readGuid_writeGuid]

lemma isUnusedGuid_getGuidForType (typeStr : String) :
    isUnusedGuid (getGuidForType typeStr) = false := by
  unfold getGuidForType
  split
  · decide
  · split <;> decide

lemma used_writeEntry : used (writeEntry table (j * size) r startLba endLba) size j = true := by
  rw [used, readGuid_writeEntry, isUnusedGuid_getGuidForType]
  rfl

lemma used_fill (hsz : 16 ≤ size) : used (table.fill (j * size) size 0) size j = false := by
  have hguid : readGuid (table.fill (j * size) size 0) (j * size) = fun _ => 0 := by
    funext i
    exact Mem.fill_apply (by omega) (by omega)
  rw [used, hguid]
  rfl

/-- The disks that the calls are made for. -/
structure Geometry (bs total : Nat) : Prop where
  bs_ge : 512 ≤ bs
  bs_dvd : bs ∣ 1024 * 1024
  total_ge : 68 ≤ total
  total_lt : total * bs < 2 ^ 64

section
variable (hg : Geometry bs total)
include hg

lemma Geometry.bs_le : bs ≤ 1024 * 1024 :=
  le_of_dvd (by decide) hg.bs_dvd

lemma Geometry.total_small : total < 2 ^ 55 := by
  have hmul := mul_le_mul_left total hg.bs_ge
  have hlt := hg.total_lt
  omega

lemma Geometry.align_mul : 1024 * 1024 / bs * bs = 1024 * 1024 :=
  Nat.div_mul_cancel hg.bs_dvd

lemma Geometry.align_pos : 0 < 1024 * 1024 / bs :=
  div_pos hg.bs_le (lt_of_lt_of_le (by decide) hg.bs_ge)

lemma Geometry.align_le : 1024 * 1024 / bs ≤ 2048 :=
  Nat.div_le_of_le_mul (by have := hg.bs_ge; omega)

/-- The start is rounded up to a boundary of 1 MiB. -/
lemma alignStart_spec (lba : UInt64) (hlba : lba.toNat < 2 ^ 60) :
    lba.toNat ≤ (alignStart bs lba).toNat ∧ (alignStart bs lba).toNat < lba.toNat + 2048 ∧
      (alignStart bs lba).toNat * bs % (1024 * 1024) = 0 := by
  have hpos := hg.align_pos
  have hle := hg.align_le
  have hmul := hg.align_mul
  generalize ha : 1024 * 1024 / bs = a at hpos hle hmul
  have hofNat : (UInt64.ofNat a).toNat = a := toNat_ofNat_of_lt' (by
    have : UInt64.size = 2 ^ 64 := rfl
    omega)
  have hmod : (lba % UInt64.ofNat a).toNat = lba.toNat % a := by rw [UInt64.toNat_mod, hofNat]
  have h0 : lba % UInt64.ofNat a = 0 ↔ lba.toNat % a = 0 := by
    rw [← UInt64.toNat_inj, hmod]
    rfl
  have hboundary (k : Nat) : a * k * bs % (1024 * 1024) = 0 := by
    rw [← hmul, mul_right_comm]
    exact mul_mod_right _ _
  have hdiv := div_add_mod lba.toNat a
  have hlt := mod_lt lba.toNat hpos
  unfold alignStart
  rw [ha]
  dsimp only
  split
  case isTrue heq =>
    have hmul' : lba.toNat = a * (lba.toNat / a) := by
      have := h0.mp heq
      omega
    refine ⟨le_refl _, by omega, ?_⟩
    rw [hmul']
    exact hboundary _
  case isFalse hne =>
    have hne' : lba.toNat % a ≠ 0 := mt h0.mpr hne
    have hsub : (UInt64.ofNat a - lba % UInt64.ofNat a).toNat = a - lba.toNat % a := by
      rw [UInt64.toNat_sub_of_le _ _ (UInt64.le_iff_toNat_le.mpr (by omega)), hofNat, hmod]
    have hnext : (lba + (UInt64.ofNat a - lba % UInt64.ofNat a)).toNat =
        a * (lba.toNat / a + 1) := by
      rw [UInt64.toNat_add, hsub, mul_succ]
      omega
    rw [hnext, mul_succ]
    refine ⟨by omega, by omega, ?_⟩
    rw [← mul_succ]
    exact hboundary _

lemma toNat_sectorCount (sizeMb : UInt32) :
    (sizeMb.toUInt64 * 1024 * 1024 / UInt64.ofNat bs).toNat =
      sizeMb.toNat * (1024 * 1024) / bs := by
  have hbs := hg.bs_le
  have hsz := sizeMb.toNat_lt
  have hofNat : (UInt64.ofNat bs).toNat = bs := toNat_ofNat_of_lt' (by
    have : UInt64.size = 2 ^ 64 := rfl
    omega)
  have h1024 : (1024 : UInt64).toNat = 1024 := rfl
  rw [UInt64.toNat_div, hofNat, UInt64.toNat_mul, UInt64.toNat_mul, UInt32.toNat_toUInt64, h1024]
  congr 1
  omega

end

/-- The header of a disk that was initialised. -/
structure Standard (total : Nat) (h : GptHeader) : Prop where
  signature : h.signature = gptSignature
  headerSize : h.headerSize = 92
  currentLba : h.currentLba = 1
  backupLba : h.backupLba.toNat = total - 1
  firstUsableLba : h.firstUsableLba = 34
  lastUsableLba : h.lastUsableLba.toNat = total - 34
  partitionEntryLba : h.partitionEntryLba = 2
  numPartitionEntries : h.numPartitionEntries = 128
  sizePartitionEntry : h.sizePartitionEntry = 128

section
variable {h : GptHeader} (hstd : Standard total h)
include hstd

lemma Standard.size_eq : h.sizePartitionEntry.toNat = 128 := by
  rw [hstd.sizePartitionEntry]
  rfl

lemma Standard.count_eq : h.numPartitionEntries.toNat = 128 := by
  rw [hstd.numPartitionEntries]
  rfl

lemma Standard.table_lba : h.partitionEntryLba.toNat = 2 := by
  rw [hstd.partitionEntryLba]
  rfl

end

/-- A new partition gets the first free entry, and sectors behind all partitions. -/
structure Fitting (bs total : Nat) (table : Mem) (p : Place) : Prop where
  index_lt : p.index < 128
  free : used table 128 p.index = false
  first : ∀ i, i < p.index → used table 128 i = true
  aligned : p.startLba.toNat * bs % (1024 * 1024) = 0
  low : 34 ≤ p.startLba.toNat
  le : p.startLba.toNat ≤ p.endLba.toNat
  high : p.endLba.toNat ≤ total - 34
  behind : ∀ i, i < 128 → used table 128 i = true →
    (endOf table 128 i).toNat < p.startLba.toNat

lemma fitting_of_choosePlace (hg : Geometry bs total) (hstd : Standard total g.header)
    (htidy : Tidy bs 34 (total - 34) g.table 128 128) (hsz : sizeMb ≠ 0)
    (h : choosePlace bs g sizeMb = some p) : Fitting bs total g.table p := by
  have hscan := scanned_scanTable g.table 128 128 34
  have hsmall := hg.total_small
  simp only [choosePlace, hstd.size_eq, hstd.count_eq, hstd.firstUsableLba] at h
  obtain ⟨index, hidx, h⟩ := bind_eq_some_iff.mp h
  generalize scanTable g.table 128 128 34 = s at hscan h hidx
  obtain ⟨hlt, hfree, hfirst⟩ := hscan.free index hidx
  obtain ⟨hfits, ⟨⟩⟩ := else_of_ite h
  have hlow := hscan.low_le
  have h33 : (34 - 1 : UInt64).toNat = 33 := rfl
  have hbound : s.2.toNat < 2 ^ 55 := by
    obtain heq | ⟨i, hi, hui, heq⟩ := hscan.attained
    · rw [heq, h33]
      decide
    · have := (htidy.inside i hi hui).2.2
      rw [heq]
      omega
  have hone : (1 : UInt64).toNat = 1 := rfl
  have hnext : (s.2 + 1).toNat = s.2.toNat + 1 := by
    rw [UInt64.toNat_add, hone]
    omega
  obtain ⟨hle, hnear, haligned⟩ := alignStart_spec hg (s.2 + 1) (by omega)
  have hcnt := toNat_sectorCount hg sizeMb
  have hpos : 0 < sizeMb.toNat := pos_of_ne_zero fun h0 =>
    hsz (UInt32.toNat_inj.mp h0)
  have hbs := hg.bs_le
  have hbs' := hg.bs_ge
  have hmany : 1 ≤ sizeMb.toNat * (1024 * 1024) / bs :=
    (one_le_div_iff (by omega)).mpr
      (hbs.trans (Nat.le_mul_of_pos_left _ hpos))
  have hfew : sizeMb.toNat * (1024 * 1024) / bs ≤ sizeMb.toNat * (1024 * 1024) :=
    div_le_self _ _
  have hsizeMb := sizeMb.toNat_lt
  generalize sizeMb.toUInt64 * 1024 * 1024 / UInt64.ofNat bs = count at hcnt hfits
  generalize hstart : alignStart bs (s.2 + 1) = startLba at hle hnear haligned hfits
  have hend : (startLba + count - 1).toNat = startLba.toNat + count.toNat - 1 := by
    have hsum : (startLba + count).toNat = startLba.toNat + count.toNat := by
      rw [UInt64.toNat_add]
      omega
    rw [UInt64.toNat_sub_of_le _ _ (UInt64.le_iff_toNat_le.mpr (by omega)), hsum, hone]
  have hfits' : startLba.toNat + count.toNat - 1 ≤ total - 34 := by
    have := mt lt_iff_toNat_lt.mpr hfits
    rw [hstd.lastUsableLba, hend] at this
    omega
  exact {
    index_lt := hlt
    free := hfree
    first := hfirst
    aligned := haligned
    low := by dsimp only; omega
    le := by dsimp only; omega
    high := by dsimp only; omega
    behind := by
      intro i hi hui
      have := hscan.above i hi hui
      dsimp only
      omega }

section
variable {d : Sectors} {g : GptImage}

/-- The number of sectors of the table. -/
def tableSectors (bs : Nat) : Nat := (16384 + bs - 1) / bs

variable (hg : Geometry bs total)

section
include hg

lemma Geometry.tableSectors_le : tableSectors bs ≤ 32 := by
  have hbs := hg.bs_ge
  exact Nat.le_of_lt_succ (Nat.div_lt_of_lt_mul (by omega))

lemma Geometry.le_tableSectors : 16384 ≤ tableSectors bs * bs := by
  have hbs := hg.bs_ge
  have hdiv := div_add_mod (16384 + bs - 1) bs
  have hlt := mod_lt (16384 + bs - 1) (show 0 < bs by omega)
  rw [tableSectors, mul_comm]
  omega

end

variable {h : GptHeader}

lemma Standard.totalSize_eq (hstd : Standard total h) : h.totalSize = 16384 := by
  rw [GptHeader.totalSize, hstd.numPartitionEntries, hstd.sizePartitionEntry]
  rfl

lemma Standard.sectorsToRead_eq (hstd : Standard total h) :
    h.sectorsToRead bs = tableSectors bs := by
  rw [sectorsToRead, hstd.totalSize_eq, tableSectors]

lemma Standard.blockCount_eq (hstd : Standard total h) (hg : Geometry bs total) :
    h.blockCount bs = tableSectors bs := by
  have hle := hg.tableSectors_le
  rw [blockCount, hstd.sectorsToRead_eq, mod_eq_of_lt (by omega)]

lemma backup_fields (h : GptHeader) (bs : Nat) : ∃ crc, h.backup bs =
    { h with
      currentLba := h.backupLba
      backupLba := h.currentLba
      partitionEntryLba := UInt64.ofNat (h.backupLba.toNat - h.sectorsToRead bs)
      crc32Header := crc } := ⟨_, GptHeader.sealed_eq _⟩

lemma sealed_fields (g : GptImage) : ∃ crc, g.sealed.header =
    { g.header with
      crc32PartitionArray := crc32 (slice g.table g.header.totalSize)
      crc32Header := crc } := ⟨_, GptHeader.sealed_eq _⟩

lemma table_mk (h : GptHeader) (table : Mem) : (GptImage.mk h table).table = table := rfl

lemma sealed_table (g : GptImage) : g.sealed.table = g.table := table_mk _ _

variable (hstd : Standard total g.header)

/-- The disk holds a table in memory twice, with sealed headers. -/
structure Stored (bs total : Nat) (d : Sectors) (g : GptImage) : Prop where
  standard : Standard total g.header
  table_crc : g.header.crc32PartitionArray = crc32 (slice g.table 16384)
  header_crc : crc32 (slice (writeU32 g.header.sector 16 0) 92) = g.header.crc32Header
  primary_header : d 1 = g.header.sector
  primary_table : ∀ i, i < 16384 → d.image bs 2 i = g.table i
  backup_header : d (total - 1) = (g.header.backup bs).sector
  backup_table : ∀ i, i < 16384 → d.image bs (total - 1 - tableSectors bs) i = g.table i

lemma Standard.backup_table_lba (hstd : Standard total h) (hg : Geometry bs total) :
    (h.backup bs).partitionEntryLba.toNat = total - 1 - tableSectors bs := by
  obtain ⟨crc, hbackup⟩ := backup_fields h bs
  have hsmall := hg.total_small
  rw [hbackup, hstd.backupLba, hstd.sectorsToRead_eq]
  exact toNat_ofNat_of_lt' (by
    have : UInt64.size = 2 ^ 64 := rfl
    omega)

lemma Standard.backup_header_lba (hstd : Standard total h) :
    (h.backup bs).currentLba.toNat = total - 1 := by
  obtain ⟨crc, hbackup⟩ := backup_fields h bs
  rw [hbackup]
  exact hstd.backupLba

include hstd in
lemma Standard.sealed : Standard total g.sealed.header := by
  obtain ⟨crc, hsealed⟩ := sealed_fields g
  rw [hsealed]
  exact ⟨hstd.signature, hstd.headerSize, hstd.currentLba, hstd.backupLba, hstd.firstUsableLba,
    hstd.lastUsableLba, hstd.partitionEntryLba, hstd.numPartitionEntries, hstd.sizePartitionEntry⟩

section
include hg hstd

/-- The writes of the second copy leave the first one alone. -/
lemma stored_of_primary (hheader : d 1 = g.sealed.header.sector)
    (htab : ∀ i, i < 16384 → d.image bs 2 i = g.table i) :
    Stored bs total (d.putAll (Sectors.blocks bs (g.sealed.header.backup bs).partitionEntryLba.toNat
          (g.sealed.header.blockCount bs) g.table ++
        [⟨(g.sealed.header.backup bs).currentLba.toNat, (g.sealed.header.backup bs).sector⟩]))
      g.sealed := by
  have hle := hg.tableSectors_le
  have hlarge := hg.le_tableSectors
  have htotal := hg.total_ge
  have hsealed := hstd.sealed
  rw [hsealed.backup_table_lba hg, hsealed.backup_header_lba, hsealed.blockCount_eq hg,
    putAll_append, putAll_cons, putAll_nil]
  generalize hbackup : (⟨total - 1, (g.sealed.header.backup bs).sector⟩ : SectorWrite) = w
  have hlba : w.lba = total - 1 := by rw [← hbackup]
  have hdata : w.data = (g.sealed.header.backup bs).sector := by rw [← hbackup]
  -- sectors in front of the backup table are as before
  have hfront (l : Nat) (hl : l < total - 1 - tableSectors bs) :
      ((d.putAll (Sectors.blocks bs (total - 1 - tableSectors bs) (tableSectors bs) g.table)).put w)
        l = d l := by
    rw [put_of_ne (by omega), putAll_blocks_of_not_mem (.inl hl)]
  exact {
    standard := hsealed
    table_crc := by
      obtain ⟨crc, hfields⟩ := sealed_fields g
      rw [hfields, hstd.totalSize_eq, sealed_table]
    header_crc := crc32_sealed _
    primary_header := by rw [hfront 1 (by omega), hheader]
    primary_table := by
      intro i hi
      rw [sealed_table, ← htab i hi]
      exact image_congr (tableSectors bs) (fun k hk => hfront _ (by omega))
        (by omega)
    backup_header := by rw [← hlba, put_self, hdata]
    backup_table := by
      intro i hi
      have hread := image_putAll_blocks d g.table (total - 1 - tableSectors bs)
        (show i < tableSectors bs * bs by omega)
      rw [sealed_table, ← hread]
      exact image_congr (tableSectors bs)
        (fun k hk => put_of_ne (by omega)) (by omega) }

lemma stored_writes (d : Sectors) : Stored bs total (d.putAll (g.sealed.writes bs)) g.sealed := by
  have hlarge := hg.le_tableSectors
  have hsealed := hstd.sealed
  rw [GptImage.writes, sealed_table, putAll_append, putAll_cons]
  refine stored_of_primary hg hstd ?_ ?_
  · exact put_self _ ⟨1, g.sealed.header.sector⟩
  intro i hi
  rw [hsealed.table_lba, hsealed.blockCount_eq hg]
  have hread := image_putAll_blocks d g.table 2
    (show i < tableSectors bs * bs by omega)
  rw [← hread]
  exact image_congr (tableSectors bs)
    (fun k hk => put_of_ne (by dsimp only; omega)) (by omega)

end

include hg in
/-- The table of an initialised disk is empty. -/
lemma stored_initWrites (hcapacity : total = capacity.toNat / bs)
    (h : initWrites bs capacity ticks = some ws) (d : Sectors) :
    ∃ header, Stored bs total (d.putAll ws) (GptImage.sealed ⟨header, zeros⟩) := by
  have hbs := hg.bs_le
  have hbs' := hg.bs_ge
  have hlarge := hg.le_tableSectors
  have hofNat : (UInt64.ofNat bs).toNat = bs := toNat_ofNat_of_lt' (by
    have : UInt64.size = 2 ^ 64 := rfl
    omega)
  have htotal : (capacity / UInt64.ofNat bs).toNat = total := by
    rw [UInt64.toNat_div, hofNat, hcapacity]
  have hge := hg.total_ge
  have hsub (k : UInt64) (hk : k.toNat ≤ 68) :
      (capacity / UInt64.ofNat bs - k).toNat = total - k.toNat := by
    rw [UInt64.toNat_sub_of_le _ _ (UInt64.le_iff_toNat_le.mpr (by omega)), htotal]
  unfold initWrites at h
  dsimp only at h
  obtain ⟨-, h⟩ := else_of_ite h
  rw [Option.some.injEq] at h
  generalize capacity / UInt64.ofNat bs = n at h htotal hsub
  have hstd : Standard total (initHeader n ticks) :=
    ⟨rfl, rfl, rfl, hsub 1 (by decide), rfl, hsub 34 (by decide), rfl, rfl, rfl⟩
  generalize initHeader n ticks = header at h hstd
  refine ⟨header, ?_⟩
  have hcnt := (hstd.sealed (g := ⟨header, zeros⟩)).blockCount_eq hg
  rw [← h, append_assoc, putAll_cons, putAll_cons, putAll_append]
  refine stored_of_primary hg hstd ?_ ?_
  · rw [hcnt, putAll_blocks_of_not_mem (.inl (by decide))]
    exact put_self _ ⟨1, _⟩
  · intro i hi
    rw [hcnt]
    exact image_putAll_blocks _ _ _ (by omega)

lemma Stored.headerAt_eq (h : Stored bs total d g) : headerAt d 1 = g.header := by
  rw [headerAt, h.primary_header, fromBuffer_sector]

lemma Stored.readGpt_eq (h : Stored bs total d g) (hg : Geometry bs total)
    (hread : readGpt bs d reads = some g') :
    g'.header = g.header ∧ ∀ i, i < 16384 → g'.table i = g.table i := by
  have hheader : fromBuffer (d 1) = g.header := h.headerAt_eq
  have hlarge := hg.le_tableSectors
  simp only [readGpt, hheader, h.standard.table_lba, h.standard.blockCount_eq hg] at hread
  obtain ⟨-, ⟨⟩⟩ := else_of_ite hread
  refine ⟨rfl, fun i hi => ?_⟩
  dsimp only
  rw [if_pos (by omega), h.primary_table i hi]

lemma Tidy.of_agree (h : Tidy bs first last table 128 128)
    (hsame : ∀ i, i < 16384 → table' i = table i) : Tidy bs first last table' 128 128 :=
  h.congr fun i hi _ => sameEntry_of_agree (by decide) fun x _ hx => hsame x (by omega)

/-- The disk holds a tidy table. -/
def Inv (bs total : Nat) (d : Sectors) : Prop :=
  ∃ g, Stored bs total d g ∧ Tidy bs 34 (total - 34) g.table 128 128

/-- Creations are made for partitions of at least 1 MiB. -/
def GptCall.Sized : GptCall → Prop
  | .create r => r.sizeMb ≠ 0
  | .delete _ => True

/-- The place that a call of `rust_gpt_create_partition` chooses fits the table it reads. -/
lemma Stored.createImage_fitting (h : Stored bs total d g) (hg : Geometry bs total)
    (htidy : Tidy bs 34 (total - 34) g.table 128 128) (hsz : r.sizeMb ≠ 0)
    (hcreate : createImage bs d r = some g') :
    ∃ table p, (∀ i, i < 16384 → table i = g.table i) ∧ Fitting bs total table p ∧
      g' = ⟨g.header, writeEntry table (p.index * 128) r p.startLba p.endLba⟩ := by
  obtain ⟨g0, hread, hcreate⟩ := bind_eq_some_iff.mp hcreate
  obtain ⟨p, hplace, rfl⟩ := map_eq_some_iff.mp hcreate
  obtain ⟨hheader, htab⟩ := h.readGpt_eq hg hread
  have hstd : Standard total g0.header := hheader ▸ h.standard
  refine ⟨g0.table, p, htab, ?_, ?_⟩
  · exact fitting_of_choosePlace hg hstd (htidy.of_agree htab) hsz hplace
  · rw [hstd.size_eq, hheader]

lemma Tidy.createImage (htidy : Tidy bs 34 (total - 34) table 128 128)
    (hfit : Fitting bs total table p) (r : CreateRequest) :
    Tidy bs 34 (total - 34) (writeEntry table (p.index * 128) r p.startLba p.endLba) 128 128 := by
  have hstart : startOf (writeEntry table (p.index * 128) r p.startLba p.endLba) 128 p.index =
      p.startLba := readU64_writeEntry_start
  have hend : endOf (writeEntry table (p.index * 128) r p.startLba p.endLba) 128 p.index =
      p.endLba := readU64_writeEntry_end
  refine htidy.insert (j := p.index) (fun i hi => sameEntry_of_sameOutside (by decide)
    (le_refl _) hi (sameOutside_writeEntry _ _ _ _ _)) ?_ ?_ ?_ ?_ ?_
  · rw [hstart]
    exact hfit.aligned
  · rw [hstart]
    exact hfit.low
  · rw [hstart, hend]
    exact hfit.le
  · rw [hend]
    exact hfit.high
  · intro i hi hui
    rw [hstart]
    exact hfit.behind i hi hui

include hg in
lemma Inv.step (h : Inv bs total d) {c : GptCall} (hc : c.Sized) :
    Inv bs total (d.putAll (c.writes bs d)) := by
  obtain ⟨g, hstored, htidy⟩ := h
  unfold GptCall.writes
  cases himage : c.image bs d with
  | none => exact ⟨g, hstored, htidy⟩
  | some g' =>
    suffices hnew : Standard total g'.header ∧ Tidy bs 34 (total - 34) g'.table 128 128 by
      refine ⟨g'.sealed, stored_writes hg hnew.1 d, ?_⟩
      rw [sealed_table]
      exact hnew.2
    cases c with
    | create r =>
      obtain ⟨table, p, htab, hfit, rfl⟩ :=
        hstored.createImage_fitting hg htidy hc himage
      exact ⟨hstored.standard, (htidy.of_agree htab).createImage hfit r⟩
    | delete r =>
      obtain ⟨g0, hread, hdelete⟩ := bind_eq_some_iff.mp himage
      obtain ⟨j, -, rfl⟩ := map_eq_some_iff.mp hdelete
      obtain ⟨hheader, htab⟩ := hstored.readGpt_eq hg hread
      have hstd : Standard total g0.header := hheader ▸ hstored.standard
      refine ⟨hstd, ?_⟩
      dsimp only
      rw [hstd.size_eq]
      exact (htidy.of_agree htab).remove (fun i hi => sameEntry_of_sameOutside (by decide)
        (le_refl _) hi (Mem.sameOutside_fill _ _ _ _)) (used_fill (by decide))

lemma selfConsistent_of_sector (table : Mem) (hbs : 92 ≤ bs) (hsector : d lba = h.sector)
    (hsignature : h.signature = gptSignature) (hsz : h.headerSize = 92)
    (hheader : crc32 (slice (writeU32 h.sector 16 0) 92) = h.crc32Header)
    (htab : ∀ i, i < h.totalSize → d.image bs h.partitionEntryLba.toNat i = table i)
    (hcrc : h.crc32PartitionArray = crc32 (slice table h.totalSize)) : SelfConsistent bs d lba := by
  have hread : headerAt d lba = h := by rw [headerAt, hsector, fromBuffer_sector]
  have h92 : (92 : UInt32).toNat = 92 := rfl
  exact {
    signature := by rw [hread, hsignature]
    size_ge := by rw [hread, hsz, h92]
    size_le := by rwa [hread, hsz, h92]
    header_crc := by rw [hread, hsector, hsz, h92, hheader]
    table_crc := by rw [hread, tableAt, hread, hcrc, slice_congr htab] }

include hg in
/-- A stored table that is tidy is valid. -/
lemma Inv.gptValid (h : Inv bs total d) : GptValid bs d := by
  obtain ⟨g, hstored, htidy⟩ := h
  have hstd := hstored.standard
  have hprimary := hstored.headerAt_eq
  have hbackup : headerAt d (total - 1) = g.header.backup bs := by
    rw [headerAt, hstored.backup_header, fromBuffer_sector]
  have hlba := hstd.table_lba
  have hfirst : g.header.firstUsableLba.toNat = 34 := by
    rw [hstd.firstUsableLba]
    rfl
  have hbs := hg.bs_ge
  have htotal := hg.total_ge
  have hle := hg.tableSectors_le
  have hsz := hstd.totalSize_eq
  have hbackupLba := hstd.backup_table_lba hg
  obtain ⟨crc, hfields⟩ := backup_fields g.header bs
  have hbackupSize : (g.header.backup bs).totalSize = 16384 := by
    rwa [hfields]
  have hbackupSectors : (g.header.backup bs).sectorsToRead bs = tableSectors bs := by
    rw [sectorsToRead, hbackupSize, tableSectors]
  exact {
    current := by rw [hprimary, hstd.currentLba]
    primary := by
      refine selfConsistent_of_sector g.table (by omega) hstored.primary_header
        hstd.signature hstd.headerSize hstored.header_crc ?_ ?_
      · rw [hsz, hlba]
        exact hstored.primary_table
      · rw [hsz, hstored.table_crc]
    backup := by
      rw [hprimary, hstd.backupLba]
      refine selfConsistent_of_sector g.table (by omega) hstored.backup_header ?_ ?_
        (crc32_sealed _) ?_ ?_
      · rw [hfields]
        exact hstd.signature
      · rw [hfields]
        exact hstd.headerSize
      · rw [hbackupSize, hbackupLba]
        exact hstored.backup_table
      · rw [hbackupSize, ← hstored.table_crc, hfields]
    mirror_header := by
      rw [hprimary, hstd.backupLba, hbackup]
      exact ⟨_, crc, hfields⟩
    mirror_table := by
      rw [hprimary, hsz, hstd.backupLba]
      intro i hi
      rw [tableAt, tableAt, hbackup, hprimary, hbackupLba, hlba, hstored.backup_table i hi,
        hstored.primary_table i hi]
    tidy := by
      rw [tableAt, hprimary, hfirst, hstd.lastUsableLba, hstd.size_eq, hstd.count_eq, hlba]
      exact htidy.of_agree hstored.primary_table
    apart := by
      rw [hprimary, hfirst, hstd.lastUsableLba, hstd.backupLba]
      intro l hlow hhigh
      unfold InTable
      rw [hprimary, hbackup, hlba, hbackupLba, hbackupSectors, hstd.sectorsToRead_eq]
      omega }

end

variable {capacity : UInt64}

/-- After the initialisation of a disk and any sequence of calls it holds a tidy table. -/
lemma inv_of_run {ticks : UInt64} (hg : Geometry bs (capacity.toNat / bs))
    {ws : List SectorWrite} (hinit : initWrites bs capacity ticks = some ws) {start d : Sectors}
    {calls : List GptCall}
    (run : Run (fun d (c : GptCall) d' => c.Sized ∧ d' = d.putAll (c.writes bs d))
      (start.putAll ws) calls d) : Inv bs (capacity.toNat / bs) d := by
  apply run.invariant (I := Inv bs (capacity.toNat / bs))
  · intro d c d' h hstep
    rw [hstep.2]
    exact h.step hg hstep.1
  obtain ⟨header, hstored⟩ := stored_initWrites hg rfl hinit start
  refine ⟨_, hstored, ?_⟩
  have hempty (i : Nat) (hi : used zeros 128 i = true) : False := by cases hi
  rw [sealed_table]
  exact ⟨fun i _ _ _ _ hi => (hempty i hi).elim, fun i _ hi => (hempty i hi).elim,
    fun i _ hi => (hempty i hi).elim⟩

lemma geometry_of_capacity (hbs : 512 ≤ bs) (hdvd : bs ∣ 1024 * 1024)
    (htotal : 68 ≤ capacity.toNat / bs) : Geometry bs (capacity.toNat / bs) :=
  ⟨hbs, hdvd, htotal, lt_of_le_of_lt (div_mul_le_self _ _) capacity.toNat_lt⟩

/-- After the initialisation and any creations and deletions the partition table is valid. -/
theorem gptValid_of_run {bs : Nat} (hbs : 512 ≤ bs) (hdvd : bs ∣ 1024 * 1024)
    {capacity ticks : UInt64} (htotal : 68 ≤ capacity.toNat / bs) {ws : List SectorWrite}
    (hinit : initWrites bs capacity ticks = some ws) {start d : Sectors} {calls : List GptCall}
    (run : Run (fun d (c : GptCall) d' => c.Sized ∧ d' = d.putAll (c.writes bs d))
      (start.putAll ws) calls d) : GptValid bs d :=
  have hg := geometry_of_capacity hbs hdvd htotal
  (inv_of_run hg hinit run).gptValid hg

/-- Two partitions are created on a disk of 64 MiB, and the first of them is deleted. -/
theorem createDelete_gptValid :
    let reads : Reads := ⟨true, true⟩
    ∃ ws, initWrites 512 0x4000000 7 = some ws ∧
      ∃ d, Run (fun d (c : GptCall) d' => c.Sized ∧ d' = d.putAll (c.writes 512 d))
        (Sectors.putAll (fun _ _ => 0xFF) ws)
        [.create ⟨8, ['a'], "ext4", 8, reads⟩, .create ⟨4, ['b'], "fat32", 9, reads⟩,
          .delete ⟨2048, reads⟩] d ∧ GptValid 512 d := by
  intro reads
  have hsome : (initWrites 512 0x4000000 7).isSome = true := by decide
  obtain ⟨ws, hws⟩ := isSome_iff_exists.mp hsome
  have run : Run (fun d (c : GptCall) d' => c.Sized ∧ d' = d.putAll (c.writes 512 d))
      (Sectors.putAll (fun _ _ => 0xFF) ws)
      [.create ⟨8, ['a'], "ext4", 8, reads⟩, .create ⟨4, ['b'], "fat32", 9, reads⟩,
        .delete ⟨2048, reads⟩] _ :=
    .cons ⟨show (8 : UInt32) ≠ 0 by decide, rfl⟩ <|
      .cons ⟨show (4 : UInt32) ≠ 0 by decide, rfl⟩ <| .cons ⟨trivial, rfl⟩ <| .nil _
  exact ⟨ws, hws, _, run, gptValid_of_run (by decide) (by decide) (by decide) hws run⟩

end Singularity.Storage.Gpt
