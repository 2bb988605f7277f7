import Mathlib.Data.Nat.Count
import Mathlib.Data.Nat.Digits.Defs
import Singularity.Storage.GptValidity

/-!
# The names of partitions

`rust_gpt_scan_partitions` registers a device for each entry in use and numbers them in the order
of the table. `rust_gpt_create_partition` reports the number of entries in use as the number of
the new partition, and the shell formats the device of that name. The new partition takes the first
free entry, so it is the last one in use only if no entry in front of another was ever freed.
-/

namespace Singularity.Storage.Gpt

open Foundation List Option Nat

/-- `format!("{}_p{}", disk, number)`. -/
def partName (disk : List Char) (number : Nat) : List Char :=
  disk ++ '_' :: 'p' :: Nat.toDigits 10 number

def isSlash (c : Char) : Bool := decide (c = '/' ∨ c = '\\')

/-- Names in the object namespace have no slashes. -/
def Plain (name : List Char) : Prop := ∀ c ∈ name, isSlash c = false

abbrev DiskName := { name : List Char // Plain name }

/-- The sectors of a partition device. -/
structure Partition where
  startLba : UInt64
  endLba : UInt64
  deriving DecidableEq

/-- The partition devices in `/devices`. -/
structure Registry where
  bindings : List (List Char × Partition)
  plain : ∀ b ∈ bindings, Plain b.1

lemma plain_partName (disk : DiskName) (number : Nat) : Plain (partName disk number) := by
  intro c hc
  obtain hc | hc := mem_append.mp hc
  · exact disk.2 c hc
  obtain rfl | hc := mem_cons.mp hc
  · decide
  obtain rfl | hc := mem_cons.mp hc
  · decide
  · have hdigit := isDigit_of_mem_toDigits (by decide) (by decide) hc
    rw [isSlash, decide_eq_false_iff_not]
    rintro (rfl | rfl) <;> exact absurd hdigit (by decide)

namespace Registry

/-- `cpp_create_partition_device`: a name that is taken is left alone, and a device keeps 31
characters of its name. -/
def register (reg : Registry) (disk : DiskName) (number : Nat) (p : Partition) : Registry :=
  if (reg.bindings.lookup (partName disk number)).isSome ||
      (reg.bindings.lookup ((partName disk number).take 31)).isSome then reg
  else
    { bindings := ((partName disk number).take 31, p) :: reg.bindings
      plain := by
        rintro b (_ | ⟨_, hb⟩)
        · exact fun c hc => plain_partName disk number c (mem_of_mem_take hc)
        · exact reg.plain b hb }

/-- `remove_old_partitions`. -/
def removeOldPartitions (reg : Registry) (disk : DiskName) : Registry where
  bindings := reg.bindings.filter fun b => !(disk.1 ++ ['_', 'p']).isPrefixOf b.1
  plain := fun b hb => reg.plain b (mem_of_mem_filter hb)

/-- One round of the loop that registers the entries in use. -/
def scanStep (disk : DiskName) (table : Mem) (size : Nat) (s : Registry × Nat) (i : Nat) :
    Registry × Nat :=
  if used table size i then
    (s.1.register disk s.2 ⟨startOf table size i, endOf table size i⟩, s.2 + 1)
  else s

/-- The devices for the entries of a table. -/
def scanTable (reg : Registry) (disk : DiskName) (table : Mem) (size count : Nat) : Registry :=
  ((List.range count).foldl (scanStep disk table size) (reg, 1)).1

end Registry

/-- `rust_gpt_scan_partitions` on a disk that can be read. -/
def scanPartitions (bs : Nat) (d : Sectors) (disk : DiskName) (reg : Registry) : Registry :=
  match readGpt bs d ⟨true, true⟩ with
  | none => reg.removeOldPartitions disk
  | some g =>
    (reg.removeOldPartitions disk).scanTable disk g.table g.header.sizePartitionEntry.toNat
      g.header.numPartitionEntries.toNat

/-- The number of entries in use among the first `n`. -/
def countUsed (table : Mem) (size n : Nat) : Nat := ((List.range n).filter (used table size)).length

/-- The name that `rust_gpt_create_partition` reports. -/
def createdName (bs : Nat) (d : Sectors) (r : CreateRequest) (devName : List Char) :
    Option (List Char) :=
  (createImage bs d r).map fun g =>
    partName devName (countUsed g.table g.header.sizePartitionEntry.toNat
      g.header.numPartitionEntries.toNat)

/-- The place of the partition that `rust_gpt_create_partition` creates. -/
def createPlace (bs : Nat) (d : Sectors) (r : CreateRequest) : Option Place :=
  (readGpt bs d r.reads).bind fun g => choosePlace bs g r.sizeMb

/-- `device_get` finds a disk by its name, also with slashes in front of it. -/
def Spells (devName : List Char) (disk : DiskName) : Prop := devName.dropWhile isSlash = disk.1

/-- No entry in use comes behind a free one. -/
def Packed (table : Mem) (size count : Nat) : Prop :=
  ∀ i j, i < j → j < count → used table size i = false → used table size j = false

lemma partName_injective (disk : List Char) : Function.Injective (partName disk) := by
  intro n k h
  have hdigits := append_cancel_left h
  rw [List.cons.injEq, List.cons.injEq] at hdigits
  calc
    n = ofDigitChars 10 (toDigits 10 n) 0 := ofDigitChars_ten_toDigits.symm
    _ = ofDigitChars 10 (toDigits 10 k) 0 := by rw [hdigits.2.2]
    _ = k := ofDigitChars_ten_toDigits

lemma prefix_partName (disk : List Char) (n : Nat) : disk ++ ['_', 'p'] <+: partName disk n := by
  refine ⟨toDigits 10 n, ?_⟩
  rw [partName, append_assoc]
  rfl

lemma length_partName_mono (disk : List Char) (h : n ≤ k) :
    (partName disk n).length ≤ (partName disk k).length := by
  have hk : k < 10 ^ (toDigits 10 k).length :=
    (length_toDigits_le_iff (by decide) length_toDigits_pos).mp (le_refl _)
  have hle := (length_toDigits_le_iff (b := 10) (by decide) length_toDigits_pos).mpr
    (lt_of_le_of_lt h hk)
  simp only [partName, length_append, length_cons]
  omega

lemma eq_of_spells_of_plain (h : Spells devName disk) (hplain : Plain (devName ++ rest)) :
    devName = disk.1 := by
  rw [← h]
  cases devName with
  | nil => rfl
  | cons c devName =>
    have hc : isSlash c = false := hplain c mem_cons_self
    rw [dropWhile_cons_of_neg (by rw [hc]; decide)]

variable {table : Mem} {size : Nat}

lemma countUsed_eq_count (table : Mem) (size n : Nat) :
    countUsed table size n = n.count fun i => used table size i = true := by
  rw [countUsed, ← countP_eq_length_filter, Nat.count]
  exact countP_congr fun i _ => by rw [decide_eq_true_iff]

lemma countUsed_succ (table : Mem) (size n : Nat) :
    countUsed table size (n + 1) =
      if used table size n then countUsed table size n + 1 else countUsed table size n := by
  rw [countUsed_eq_count, countUsed_eq_count, count_succ]
  split <;> rfl

lemma countUsed_mono (table : Mem) (size : Nat) : Monotone (countUsed table size) := by
  intro m n hmn
  rw [countUsed_eq_count, countUsed_eq_count]
  exact count_monotone _ hmn

lemma countUsed_lt (hij : i < j) (hi : used table size i = true) :
    countUsed table size i < countUsed table size j := by
  rw [countUsed_eq_count, countUsed_eq_count]
  exact count_strict_mono hi hij

lemma countUsed_eq_iff (hmn : m ≤ n) :
    countUsed table size n = countUsed table size m ↔
      ∀ i, m ≤ i → i < n → used table size i = false := by
  obtain ⟨k, rfl⟩ := Nat.exists_eq_add_of_le hmn
  rw [countUsed_eq_count, countUsed_eq_count, count_add, add_eq_left, count_iff_forall_not]
  constructor
  · intro h i hmi hin
    have hfree := h (i - m) (by omega)
    rwa [Nat.add_sub_cancel' hmi, Bool.not_eq_true] at hfree
  · intro h i hi
    rw [h (m + i) (by omega) (by omega)]
    decide

variable {table' : Mem} {n : Nat}

section
variable {base : Registry} {disk : DiskName} {s : Registry × Nat}

/-- The sectors of an entry. -/
def partition (table : Mem) (size i : Nat) : Partition := ⟨startOf table size i, endOf table size i⟩

/-- The number of an entry in the scan. -/
def number (table : Mem) (size i : Nat) : Nat := countUsed table size i + 1

/-- What the loop has registered behind the first `n` entries. -/
structure Registered (base : Registry) (disk : DiskName) (table : Mem) (size n : Nat)
    (s : Registry × Nat) : Prop where
  next : s.2 = number table size n
  found : ∀ i, i < n → used table size i = true →
    (partName disk (number table size i)).length ≤ 31 →
    s.1.bindings.lookup (partName disk (number table size i)) = some (partition table size i)
  source : ∀ b ∈ s.1.bindings, b ∈ base.bindings ∨ ∃ i, i < n ∧ used table size i = true ∧
    b = ((partName disk (number table size i)).take 31, partition table size i)

lemma mem_of_lookup {bindings : List (List Char × Partition)} {name : List Char} {p : Partition}
    (h : bindings.lookup name = some p) : (name, p) ∈ bindings := by
  obtain ⟨front, back, rfl, -⟩ := lookup_eq_some_iff.mp h
  exact mem_append_right _ mem_cons_self

section
variable (hbase : ∀ b ∈ base.bindings, ¬(disk.1 ++ ['_', 'p']) <+: b.1)
include hbase

lemma Registered.lookup_eq_none (h : Registered base disk table size n s)
    (hshort : (partName disk (number table size n)).length ≤ 31) :
    s.1.bindings.lookup (partName disk (number table size n)) = none := by
  apply eq_none_iff_forall_ne_some.mpr
  intro p hp
  obtain hold | ⟨i, hi, hui, heq⟩ := h.source _ (mem_of_lookup hp)
  · exact hbase _ hold (prefix_partName _ _)
  -- an entry in front has a shorter name or one of the same length, and another number
  have hlt : number table size i < number table size n := succ_lt_succ (countUsed_lt hi hui)
  have hlen := length_partName_mono disk.1 (le_of_lt hlt)
  have hname := congrArg Prod.fst heq
  dsimp only at hname
  rw [take_of_length_le (hlen.trans hshort)] at hname
  have := partName_injective disk.1 hname
  omega

lemma Registered.step (h : Registered base disk table size n s) :
    Registered base disk table size (n + 1) (Registry.scanStep disk table size s n) := by
  have hsource (b : List Char × Partition) (hb : b ∈ s.1.bindings) : b ∈ base.bindings ∨
      ∃ i, i < n + 1 ∧ used table size i = true ∧
        b = ((partName disk (number table size i)).take 31, partition table size i) :=
    (h.source b hb).imp_right fun ⟨i, hi, heq⟩ => ⟨i, lt_succ_of_lt hi, heq⟩
  unfold Registry.scanStep
  split
  case isFalse hunused =>
    refine ⟨?_, fun i hi hui => h.found i (lt_of_unused hunused hi hui) hui, hsource⟩
    rw [h.next, number, number, countUsed_succ, if_neg hunused]
  case isTrue hused =>
    rw [h.next]
    have hnext : number table size n + 1 = number table size (n + 1) := by
      rw [number, number, countUsed_succ, if_pos hused]
    unfold Registry.register
    split
    case isTrue htaken =>
      refine ⟨hnext, fun i hi hui hshort => ?_, hsource⟩
      obtain hlt | rfl := Nat.lt_succ_iff_lt_or_eq.mp hi
      · exact h.found i hlt hui hshort
      -- a short name is never taken
      have hnone := h.lookup_eq_none hbase hshort
      rw [take_of_length_le hshort, hnone] at htaken
      cases htaken
    case isFalse hfree =>
      refine ⟨hnext, ?_, ?_⟩
      · intro i hi hui hshort
        dsimp only
        obtain hlt | rfl := Nat.lt_succ_iff_lt_or_eq.mp hi
        · have hne : partName disk.1 (number table size i) ≠
              (partName disk.1 (number table size n)).take 31 := by
            intro heq
            have hfound := h.found i hlt hui hshort
            rw [heq] at hfound
            apply hfree
            rw [hfound, isSome_some, Bool.or_true]
          rw [lookup_cons, beq_false_of_ne hne]
          exact h.found i hlt hui hshort
        · rw [take_of_length_le hshort, lookup_cons, beq_self_eq_true]
          rfl
      · rintro b (_ | ⟨_, hb⟩)
        · exact .inr ⟨n, lt_succ_self n, hused, rfl⟩
        · exact hsource b hb

lemma registered_scanTable (table : Mem) (size count : Nat) :
    Registered base disk table size count
      ((List.range count).foldl (Registry.scanStep disk table size) (base, 1)) := by
  induction count with
  | zero => exact ⟨rfl, nofun, fun b hb => .inl hb⟩
  | succ n ih =>
    rw [range_succ, foldl_append]
    exact ih.step hbase

end

lemma not_prefix_removeOldPartitions (reg : Registry) (disk : DiskName) :
    ∀ b ∈ (reg.removeOldPartitions disk).bindings, ¬(disk.1 ++ ['_', 'p']) <+: b.1 := by
  intro b hb hprefix
  have hkept := (mem_filter.mp hb).2
  have hall := isPrefixOf_iff_prefix.mpr hprefix
  rw [hall] at hkept
  cases hkept

lemma scanTable_congr {count : Nat} (h : ∀ i, i < count → SameEntry size table table' i) :
    base.scanTable disk table' size count = base.scanTable disk table size count := by
  unfold Registry.scanTable
  congr 1
  apply foldl_ext
  intro s i hi
  have hsame := h i (mem_range.mp hi)
  rw [Registry.scanStep, Registry.scanStep, hsame.used_eq, hsame.start_eq, hsame.end_eq]

end

variable {bs total : Nat} {d : Sectors} {g : GptImage} {r : CreateRequest}

section
variable {j : Nat}

lemma countUsed_insert (hsame : ∀ i, i ≠ j → used table' size i = used table size i)
    (hold : used table size j = false) (hnew : used table' size j = true) (hj : j < n) :
    countUsed table' size n = countUsed table size n + 1 := by
  have hfront : countUsed table' size j = countUsed table size j := by
    unfold countUsed
    congr 1
    apply filter_congr
    intro i hi
    exact hsame i (Nat.ne_of_lt (mem_range.mp hi))
  obtain ⟨k, rfl⟩ := Nat.exists_eq_add_of_lt hj
  clear hj
  induction k with
  | zero =>
    rw [add_zero, countUsed_succ, countUsed_succ, if_pos hnew, hold, if_neg (by decide),
      hfront]
  | succ k ih =>
    have hnext : j + (k + 1) + 1 = j + k + 1 + 1 := by omega
    rw [hnext, countUsed_succ, countUsed_succ table, ih, hsame _ (by omega)]
    split <;> rfl

lemma Tidy.index_eq {first last count : Nat} (h : Tidy bs first last table size count)
    {i : Nat} (hi : i < count) (hj : j < count) (hui : used table size i = true)
    (huj : used table size j = true) (heq : partition table size i = partition table size j) :
    i = j := by
  by_contra hne
  rw [partition, partition, Partition.mk.injEq] at heq
  obtain ⟨hstart, hend⟩ := heq
  have hle := (h.inside j hj huj).2.1
  have hdisjoint := h.disjoint i j hi hj hne hui huj
  rw [hstart, hend] at hdisjoint
  omega

lemma Stored.readGpt_isSome (h : Stored bs total d g) :
    (readGpt bs d ⟨true, true⟩).isSome = true := by
  have hheader : GptHeader.fromBuffer (d 1) = g.header := h.headerAt_eq
  simp [readGpt, hheader, h.standard.signature]

lemma sameEntry_of_agree_all (h : ∀ i, i < 16384 → table' i = table i) :
    ∀ i, i < 128 → SameEntry 128 table table' i := fun i hi =>
  sameEntry_of_agree (by decide) fun x _ hx => h x (by omega)

lemma Stored.scanPartitions_eq (h : Stored bs total d g) (hg : Geometry bs total)
    (disk : DiskName) (reg : Registry) :
    scanPartitions bs d disk reg =
      (reg.removeOldPartitions disk).scanTable disk g.table 128 128 := by
  obtain ⟨g', hread⟩ := isSome_iff_exists.mp h.readGpt_isSome
  obtain ⟨hheader, htab⟩ := h.readGpt_eq hg hread
  rw [scanPartitions, hread]
  dsimp only
  rw [hheader, h.standard.size_eq, h.standard.count_eq]
  exact scanTable_congr (sameEntry_of_agree_all htab)

/-- The disk holds a given table. -/
def Carries (bs total : Nat) (d : Sectors) (table : Mem) : Prop :=
  ∃ g, Stored bs total d g ∧ ∀ i, i < 16384 → g.table i = table i

lemma Carries.primary (h : Carries bs total d table) :
    (headerAt d 1).sizePartitionEntry.toNat = 128 ∧
      (headerAt d 1).numPartitionEntries.toNat = 128 ∧
      ∀ i, i < 128 → SameEntry 128 table (tableAt bs d 1) i := by
  obtain ⟨g, hstored, htab⟩ := h
  have hstd := hstored.standard
  rw [tableAt, hstored.headerAt_eq, hstd.table_lba]
  refine ⟨hstd.size_eq, hstd.count_eq, sameEntry_of_agree_all fun i hi => ?_⟩
  rw [hstored.primary_table i (by omega), htab i hi]

/-- When the reported name is the name of the new device: the disk was called by its own name, no
entry in use comes behind a free one, and the name has at most 31 characters. -/
structure WellNamed (bs : Nat) (d : Sectors) (disk : DiskName) (devName : List Char) : Prop where
  exact : devName = disk.1
  packed : Packed (tableAt bs d 1) (headerAt d 1).sizePartitionEntry.toNat
    (headerAt d 1).numPartitionEntries.toNat
  short : (partName disk (countUsed (tableAt bs d 1) (headerAt d 1).sizePartitionEntry.toNat
    (headerAt d 1).numPartitionEntries.toNat + 1)).length ≤ 31

/-- The table that a creation reads, its new place and the table that it writes. -/
structure Creation (bs total : Nat) (d : Sectors) (r : CreateRequest) (p : Place)
    (table : Mem) : Prop where
  same : ∀ i, i < 128 → SameEntry 128 table (tableAt bs d 1) i
  size_eq : (headerAt d 1).sizePartitionEntry.toNat = 128
  count_eq : (headerAt d 1).numPartitionEntries.toNat = 128
  tidy : Tidy bs 34 (total - 34) table 128 128
  fitting : Fitting bs total table p
  image : ∃ header, Standard total header ∧
    createImage bs d r = some ⟨header, writeEntry table (p.index * 128) r p.startLba p.endLba⟩

lemma Inv.creation (hg : Geometry bs total) (h : Inv bs total d)
    (hsize : r.sizeMb ≠ 0) (hplace : createPlace bs d r = some p) :
    ∃ table, Creation bs total d r p table := by
  obtain ⟨g, hstored, htidy⟩ := h
  obtain ⟨g0, hread, hchoose⟩ := bind_eq_some_iff.mp hplace
  obtain ⟨hheader, htab⟩ := hstored.readGpt_eq hg hread
  have hstd : Standard total g0.header := hheader ▸ hstored.standard
  have hcarry : Carries bs total d g0.table := ⟨g, hstored, fun i hi => (htab i hi).symm⟩
  obtain ⟨hsize0, hcount0, hsame⟩ := hcarry.primary
  have htidy0 := htidy.of_agree htab
  refine ⟨g0.table, hsame, hsize0, hcount0, htidy0,
    fitting_of_choosePlace hg hstd htidy0 hsize hchoose, g0.header, hstd, ?_⟩
  rw [createImage, hread, bind_some, hchoose, map_some, hstd.size_eq]

variable {p : Place}

lemma writes_of_image {c : GptCall} (himage : c.image bs d = some g) :
    c.writes bs d = g.sealed.writes bs := by
  rw [GptCall.writes, himage]

/-- The new table, and the numbers of the new entry: the one in the scan and the reported one. -/
structure Numbered (bs total : Nat) (d : Sectors) (r : CreateRequest) (p : Place)
    (table' : Mem) : Prop where
  tidy : Tidy bs 34 (total - 34) table' 128 128
  index_lt : p.index < 128
  used_new : used table' 128 p.index = true
  partition_new : partition table' 128 p.index = ⟨p.startLba, p.endLba⟩
  number_new : number table' 128 p.index = p.index + 1
  le_count : p.index + 1 ≤ countUsed table' 128 128
  count_eq : countUsed table' 128 128 =
    countUsed (tableAt bs d 1) (headerAt d 1).sizePartitionEntry.toNat
      (headerAt d 1).numPartitionEntries.toNat + 1
  packed_iff : countUsed table' 128 128 = p.index + 1 ↔
    Packed (tableAt bs d 1) (headerAt d 1).sizePartitionEntry.toNat
      (headerAt d 1).numPartitionEntries.toNat

lemma Creation.numbered (h : Creation bs total d r p table) :
    Numbered bs total d r p (writeEntry table (p.index * 128) r p.startLba p.endLba) := by
  have hfit := h.fitting
  have hsame (i : Nat) (hi : i ≠ p.index) : SameEntry 128 table
      (writeEntry table (p.index * 128) r p.startLba p.endLba) i :=
    sameEntry_of_sameOutside (by decide) (le_refl _) hi (sameOutside_writeEntry _ _ _ _ _)
  have hnew : used (writeEntry table (p.index * 128) r p.startLba p.endLba) 128 p.index = true :=
    used_writeEntry
  have hold (i : Nat) (hi : i < 128) : used (tableAt bs d 1) 128 i = used table 128 i :=
    (h.same i hi).used_eq
  have hcountOld : countUsed (tableAt bs d 1) 128 128 = countUsed table 128 128 := by
    unfold countUsed
    congr 1
    exact filter_congr fun i hi => hold i (mem_range.mp hi)
  have hfront : countUsed (writeEntry table (p.index * 128) r p.startLba p.endLba) 128 p.index =
      p.index :=
    (countUsed_eq_count _ _ _).trans (count_of_forall fun i hi =>
      (hsame i (Nat.ne_of_lt hi)).used_eq.trans (hfit.first i hi))
  have hnext : countUsed (writeEntry table (p.index * 128) r p.startLba p.endLba) 128
      (p.index + 1) = p.index + 1 := by
    rw [countUsed_succ, if_pos hnew, hfront]
  have hcnt := countUsed_insert (fun i hi => (hsame i hi).used_eq) hfit.free hnew hfit.index_lt
  have hle := countUsed_mono (writeEntry table (p.index * 128) r p.startLba p.endLba) 128
    (succ_le_of_lt hfit.index_lt)
  rw [succ_eq_add_one, hnext] at hle
  exact {
    tidy := h.tidy.createImage hfit r
    index_lt := hfit.index_lt
    used_new := hnew
    partition_new := by rw [partition, startOf, endOf, readU64_writeEntry_start,
      readU64_writeEntry_end]
    number_new := by rw [number, hfront]
    le_count := hle
    count_eq := by rw [h.size_eq, h.count_eq, hcountOld, hcnt]
    packed_iff := by
      rw [h.size_eq, h.count_eq, ← hnext, countUsed_eq_iff (succ_le_of_lt hfit.index_lt)]
      constructor
      · intro hbehind i j hij hj hi
        rw [hold i (by omega)] at hi
        -- the entries in front of the new one are all in use
        have hge : p.index ≤ i := by
          by_contra hlt
          rw [hfit.first i (by omega)] at hi
          cases hi
        rw [hold j hj, ← (hsame j (by omega)).used_eq]
        exact hbehind j (by omega) hj
      · intro hpacked j hj hlt
        rw [(hsame j (by omega)).used_eq, ← hold j hlt]
        refine hpacked p.index j (by omega) hlt ?_
        rw [hold p.index hfit.index_lt, hfit.free] }

/-- With a tidy table, the reported name is that of the new device iff the disk is well named. -/
lemma Inv.lookup_createdName_iff (hg : Geometry bs total) (h : Inv bs total d)
    (hsize : r.sizeMb ≠ 0) (hplace : createPlace bs d r = some p) {disk : DiskName}
    {devName : List Char} (hdev : Spells devName disk) (reg : Registry) {name : List Char}
    (hname : createdName bs d r devName = some name) :
    (scanPartitions bs (d.putAll ((GptCall.create r).writes bs d)) disk reg).bindings.lookup name =
        some ⟨p.startLba, p.endLba⟩ ↔ WellNamed bs d disk devName := by
  obtain ⟨table, hcreation⟩ := h.creation hg hsize hplace
  have hnumbered := hcreation.numbered
  obtain ⟨header, hstd, himage⟩ := hcreation.image
  generalize writeEntry table (p.index * 128) r p.startLba p.endLba = table' at hnumbered himage
  have hname' : name = partName devName (countUsed table' 128 128) := by
    rw [createdName, himage, map_some, hstd.size_eq, hstd.count_eq, Option.some.injEq]
      at hname
    exact hname.symm
  have hstored := stored_writes (g := ⟨header, table'⟩) hg hstd d
  rw [writes_of_image (c := .create r) himage, hstored.scanPartitions_eq hg, sealed_table]
  have hscan := registered_scanTable (not_prefix_removeOldPartitions reg disk) table' 128 128
  have hfound := hscan.found p.index hnumbered.index_lt hnumbered.used_new
  rw [hnumbered.number_new, hnumbered.partition_new] at hfound
  constructor
  · intro hlookup
    have hmem := mem_of_lookup hlookup
    have hplain : Plain name := Registry.plain _ _ hmem
    rw [hname'] at hplain
    have hexact := eq_of_spells_of_plain hdev hplain
    rw [hname', hexact] at hmem
    obtain hold | ⟨i, hi, hui, heq⟩ := hscan.source _ hmem
    · exact absurd (prefix_partName _ _) (not_prefix_removeOldPartitions reg disk _ hold)
    have hpart := congrArg Prod.snd heq
    dsimp only at hpart
    rw [← hnumbered.partition_new] at hpart
    have hidx := hnumbered.tidy.index_eq hnumbered.index_lt hi hnumbered.used_new hui hpart
    have htake := congrArg Prod.fst heq
    dsimp only at htake
    rw [← hidx, hnumbered.number_new] at htake
    -- a cut name would be shorter than the reported one
    have hmono := length_partName_mono disk.1 hnumbered.le_count
    have hshort : (partName disk.1 (p.index + 1)).length ≤ 31 := by
      have hlen := congrArg List.length htake
      rw [length_take] at hlen
      omega
    rw [take_of_length_le hshort] at htake
    have hcnt := partName_injective disk.1 htake
    refine ⟨hexact, hnumbered.packed_iff.mp hcnt, ?_⟩
    rwa [← hnumbered.count_eq, hcnt]
  · rintro ⟨hexact, hpacked, hshort⟩
    have hcnt := hnumbered.packed_iff.mpr hpacked
    rw [← hnumbered.count_eq, hcnt] at hshort
    rw [hname', hexact, hcnt]
    exact hfound hshort

end

section
variable {h0 : GptHeader}

lemma scanTable_eq_of_same {count : Nat} (h : ∀ i, i < count → SameEntry size table table' i)
    (first : UInt64) : scanTable table' size count first = scanTable table size count first := by
  apply foldl_ext
  intro s i hi
  have hsame := h i (mem_range.mp hi)
  rw [scanStep, scanStep, hsame.used_eq, hsame.end_eq]

lemma choosePlace_congr {g' : GptImage} (hstd : Standard total g.header)
    (hstd' : Standard total g'.header) (h : ∀ i, i < 128 → SameEntry 128 g.table g'.table i)
    (sizeMb : UInt32) : choosePlace bs g' sizeMb = choosePlace bs g sizeMb := by
  have hlast : g'.header.lastUsableLba = g.header.lastUsableLba :=
    UInt64.toNat_inj.mp (hstd'.lastUsableLba.trans hstd.lastUsableLba.symm)
  simp only [choosePlace, hlast, hstd.size_eq, hstd'.size_eq, hstd.count_eq, hstd'.count_eq,
    hstd.firstUsableLba, hstd'.firstUsableLba, scanTable_eq_of_same h]

variable (h : Carries bs total d table) (hg : Geometry bs total)

section
include h hg

lemma Carries.scanPartitions_eq (disk : DiskName) (reg : Registry) : scanPartitions bs d disk reg =
      (reg.removeOldPartitions disk).scanTable disk table 128 128 := by
  obtain ⟨g, hstored, htab⟩ := h
  rw [hstored.scanPartitions_eq hg]
  exact scanTable_congr (sameEntry_of_agree_all htab)

lemma Carries.readGpt_eq :
    ∃ g, readGpt bs d ⟨true, true⟩ = some g ∧ Standard total g.header ∧
      ∀ i, i < 16384 → g.table i = table i := by
  obtain ⟨g, hstored, htab⟩ := h
  obtain ⟨g', hread⟩ := isSome_iff_exists.mp hstored.readGpt_isSome
  obtain ⟨hheader, htable'⟩ := hstored.readGpt_eq hg hread
  exact ⟨g', hread, hheader ▸ hstored.standard, fun i hi => (htable' i hi).trans (htab i hi)⟩

end

lemma writeEntry_congr (h : buf x = buf' x) (offset : Nat)
    (r : CreateRequest) (startLba endLba : UInt64) :
    writeEntry buf offset r startLba endLba x = writeEntry buf' offset r startLba endLba x := by
  have hname (l : List (Char × Nat)) {buf buf' : Mem} (h : buf x = buf' x) :
      l.foldl (fun buf c => buf.writeBytes (offset + 56 + 2 * c.2) 2 (c.1.toNat % 2 ^ 16)) buf x =
        l.foldl (fun buf c => buf.writeBytes (offset + 56 + 2 * c.2) 2 (c.1.toNat % 2 ^ 16))
          buf' x := by
    induction l generalizing buf buf' with
    | nil => exact h
    | cons c l ih =>
      apply ih
      simp only [Mem.writeBytes, h]
  apply hname
  simp only [writeGuid, writeU64, Mem.writeBytes, Mem.copy, Mem.fill, h]

lemma countUsed_congr (h : ∀ i, i < n → SameEntry size table table' i) :
    countUsed table' size n = countUsed table size n := by
  unfold countUsed
  rw [filter_congr fun i hi => (h i (mem_range.mp hi)).used_eq]

include hg in
lemma carries_writes (hstd : Standard total g.header)
    {c : GptCall} (himage : c.image bs d = some g) (htab : ∀ i, i < 16384 → g.table i = table i) :
    Carries bs total (d.putAll (c.writes bs d)) table := by
  rw [writes_of_image himage]
  refine ⟨_, stored_writes hg hstd d, ?_⟩
  rwa [sealed_table]

include h hg in
/-- A creation enters its place into the table. -/
lemma Carries.create (hreads : r.reads = ⟨true, true⟩) (hstd0 : Standard total h0) {p : Place}
    (hplace : choosePlace bs ⟨h0, table⟩ r.sizeMb = some p) :
    createPlace bs d r = some p ∧
      Carries bs total (d.putAll ((GptCall.create r).writes bs d))
        (writeEntry table (p.index * 128) r p.startLba p.endLba) ∧
      ∀ devName, createdName bs d r devName = some (partName devName
        (countUsed (writeEntry table (p.index * 128) r p.startLba p.endLba) 128 128)) := by
  obtain ⟨g, hread, hstd, htab⟩ := h.readGpt_eq hg
  have hchoose : choosePlace bs g r.sizeMb = some p := by
    rw [← hplace]
    exact choosePlace_congr (g := ⟨h0, table⟩) hstd0 hstd (sameEntry_of_agree_all htab) _
  have himage : createImage bs d r =
      some ⟨g.header, writeEntry g.table (p.index * 128) r p.startLba p.endLba⟩ := by
    rw [createImage, hreads, hread, bind_some, hchoose, map_some, hstd.size_eq]
  have hagree (i : Nat) (hi : i < 16384) := writeEntry_congr (htab i hi) (p.index * 128) r
    p.startLba p.endLba
  generalize writeEntry g.table (p.index * 128) r p.startLba p.endLba = new at himage hagree
  refine ⟨by rw [createPlace, hreads, hread, bind_some, hchoose], ?_, ?_⟩
  · exact carries_writes (g := ⟨g.header, new⟩) hg hstd himage hagree
  · intro devName
    rw [createdName, himage, map_some, hstd.size_eq, hstd.count_eq,
      countUsed_congr (sameEntry_of_agree_all hagree)]

include h hg in
lemma Carries.delete (target : UInt64) (hfind : (List.range 128).find? (fun i =>
      used table 128 i && decide (startOf table 128 i = target)) = some j) :
    Carries bs total (d.putAll ((GptCall.delete ⟨target, true, true⟩).writes bs d))
      (table.fill (j * 128) 128 0) := by
  obtain ⟨g, hread, hstd, htab⟩ := h.readGpt_eq hg
  have hfind' : (List.range 128).find? (fun i =>
      used g.table 128 i && decide (startOf g.table 128 i = target)) = some j := by
    rw [← hfind, ← head?_filter, ← head?_filter]
    refine congrArg head? (filter_congr fun i hi => ?_)
    have hsame := sameEntry_of_agree_all htab i (mem_range.mp hi)
    rw [hsame.used_eq, hsame.start_eq]
  have himage : deleteImage bs d ⟨target, true, true⟩ =
      some ⟨g.header, g.table.fill (j * 128) 128 0⟩ := by
    rw [deleteImage, hread, bind_some, hstd.size_eq, hstd.count_eq]
    dsimp only
    rw [hfind', map_some]
  refine carries_writes (g := ⟨_, g.table.fill (j * 128) 128 0⟩) hg hstd himage fun i hi => ?_
  simp only [Mem.fill, htab i hi]

include hg in
lemma carries_initWrites (hcapacity : total = capacity.toNat / bs)
    (h : initWrites bs capacity ticks = some ws) (d : Sectors) :
    Carries bs total (d.putAll ws) zeros := by
  obtain ⟨header, hstored⟩ := stored_initWrites hg hcapacity h d
  refine ⟨_, hstored, fun i _ => ?_⟩
  rw [sealed_table]

end

/-- On every disk that was initialised and then changed by creations and deletions, a creation
reports the name of the device that the scan registers for the new partition if and only if the disk
was called by its own name, no entry in use comes behind a free one, and the name has at most 31
characters. -/
theorem createdName_registered_iff {bs : Nat} (hbs : 512 ≤ bs) (hdvd : bs ∣ 1024 * 1024)
    {capacity ticks : UInt64} (htotal : 68 ≤ capacity.toNat / bs) {ws : List SectorWrite}
    (hinit : initWrites bs capacity ticks = some ws) {start d : Sectors} {calls : List GptCall}
    (run : Run (fun d (c : GptCall) d' => c.Sized ∧ d' = d.putAll (c.writes bs d))
      (start.putAll ws) calls d)
    {r : CreateRequest} (hsize : r.sizeMb ≠ 0) {p : Place} (hplace : createPlace bs d r = some p)
    {disk : DiskName} {devName : List Char} (hdev : Spells devName disk) (reg : Registry)
    {name : List Char} (hname : createdName bs d r devName = some name) :
    (scanPartitions bs (d.putAll ((GptCall.create r).writes bs d)) disk reg).bindings.lookup name =
        some ⟨p.startLba, p.endLba⟩ ↔ WellNamed bs d disk devName := by
  have hg := geometry_of_capacity hbs hdvd htotal
  exact (inv_of_run hg hinit run).lookup_createdName_iff hg hsize hplace hdev reg hname

lemma geometry_64MiB : Geometry 512 (0x4000000 / 512) :=
  ⟨by decide, by decide, by decide, by decide⟩

lemma standard_initHeader : Standard (0x4000000 / 512) (initHeader 0x20000 7) :=
  ⟨rfl, rfl, rfl, rfl, rfl, rfl, rfl, rfl, rfl⟩

def disk0 : DiskName := ⟨['d', 'i', 's', 'k', '0'], by simp [Plain, isSlash]⟩

/-- `part create` with a size in MiB. -/
def request (sizeMb : UInt32) : CreateRequest := ⟨sizeMb, ['d'], "ext4", 8, true, true⟩

/-- The first partition of a disk is registered under the reported name. -/
theorem firstPartition_registered :
    ∃ ws, initWrites 512 0x4000000 7 = some ws ∧
      ∃ name, createdName 512 (Sectors.putAll (fun _ _ => 0xFF) ws) (request 8) disk0 =
          some name ∧
        (scanPartitions 512 ((Sectors.putAll (fun _ _ => 0xFF) ws).putAll
          ((GptCall.create (request 8)).writes 512 (Sectors.putAll (fun _ _ => 0xFF) ws))) disk0
          ⟨[], nofun⟩).bindings.lookup name = some ⟨2048, 18431⟩ := by
  have hsome : (initWrites 512 0x4000000 7).isSome = true := by decide
  obtain ⟨ws, hws⟩ := isSome_iff_exists.mp hsome
  have hcarry := carries_initWrites geometry_64MiB rfl hws fun _ _ => 0xFF
  have hplace : choosePlace 512 ⟨initHeader 0x20000 7, zeros⟩ 8 = some ⟨0, 2048, 18431⟩ := by
    decide +kernel
  obtain ⟨hcreate, -, hname⟩ :=
    hcarry.create (r := request 8) geometry_64MiB rfl standard_initHeader hplace
  obtain ⟨hsize, hcnt, hsame⟩ := hcarry.primary
  refine ⟨ws, hws, _, hname disk0, (createdName_registered_iff (by decide) (by decide) (by decide)
    hws (.nil _) (by decide) hcreate (by unfold Spells; decide +kernel) _ (hname disk0)).mpr ?_⟩
  refine ⟨rfl, ?_, ?_⟩
  · rw [hsize, hcnt]
    intro i j _ hj _
    rw [(hsame j hj).used_eq]
    exact (by decide +kernel : ∀ j, j < 128 → used zeros 128 j = false) j hj
  · rw [hsize, hcnt, countUsed_congr hsame]
    decide +kernel

/-- After the first of two partitions was deleted, the next one takes its entry and is reported
under the name of the other. -/
theorem reusedEntry_misnamed :
    ∃ ws d, initWrites 512 0x4000000 7 = some ws ∧
      Run (fun d (c : GptCall) d' => c.Sized ∧ d' = d.putAll (c.writes 512 d))
        (Sectors.putAll (fun _ _ => 0) ws)
        [.create (request 8), .create (request 4), .delete ⟨2048, true, true⟩] d ∧
      createPlace 512 d (request 4) = some ⟨0, 26624, 34815⟩ ∧
      createdName 512 d (request 4) disk0 = some ['d', 'i', 's', 'k', '0', '_', 'p', '2'] ∧
      (scanPartitions 512 (d.putAll ((GptCall.create (request 4)).writes 512 d)) disk0
        ⟨[], nofun⟩).bindings.lookup ['d', 'i', 's', 'k', '0', '_', 'p', '2'] =
          some ⟨18432, 26623⟩ := by
  have hsome : (initWrites 512 0x4000000 7).isSome = true := by decide
  obtain ⟨ws, hws⟩ := isSome_iff_exists.mp hsome
  have hinit := carries_initWrites geometry_64MiB rfl hws fun _ _ => 0
  obtain ⟨-, hfirst, -⟩ := hinit.create (r := request 8) geometry_64MiB rfl standard_initHeader
    (p := ⟨0, 2048, 18431⟩) (by decide +kernel)
  obtain ⟨-, hsecond, -⟩ := hfirst.create (r := request 4) geometry_64MiB rfl standard_initHeader
    (p := ⟨1, 18432, 26623⟩) (by decide +kernel)
  have hdelete := hsecond.delete geometry_64MiB 2048 (j := 0) (by decide +kernel)
  obtain ⟨hplace, hthird, hname⟩ := hdelete.create (r := request 4) geometry_64MiB rfl
    standard_initHeader (p := ⟨0, 26624, 34815⟩) (by decide +kernel)
  refine ⟨ws, _, hws, .cons ⟨by unfold GptCall.Sized; decide, rfl⟩ <|
    .cons ⟨by unfold GptCall.Sized; decide, rfl⟩ <| .cons ⟨trivial, rfl⟩ <| .nil _,
    hplace, ?_, ?_⟩
  · rw [hname]
    decide +kernel
  · rw [hthird.scanPartitions_eq geometry_64MiB]
    decide +kernel

end Singularity.Storage.Gpt
