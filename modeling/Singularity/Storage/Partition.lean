import Mathlib.Data.UInt

/-!
# Partitions of a disk

A partition forwards block and vector calls to its parent disk after a check of its bounds. The
check of a vector call adds up the whole blocks of the vectors in 32 bits; the parent goes by the
sizes themselves. A transfer records which sectors of the parent a call touches, in order.
-/

namespace Singularity.Storage

open List

/-- `kiovec_t`. -/
structure IoVec where
  physAddr : UInt64
  virtAddr : UInt64
  size : UInt64

/-- One access to `count` sectors of the parent disk from `lba` on. -/
structure Access where
  lba : UInt64
  count : Nat
  deriving DecidableEq

/-- What a call returns, and what it does to the parent disk. -/
structure Transfer where
  result : UInt32
  accesses : List Access

namespace Transfer

/-- The call returns 0 and does nothing. -/
def refused : Transfer := ⟨0, []⟩

end Transfer

/-- How a disk answers: to block accesses, in the DMA guard, in the construction of the scatter
list and to a vector command. -/
structure Answers where
  block : UInt64 → UInt32 → Bool
  guard : List IoVec → Bool
  chain : List IoVec → Bool
  command : UInt64 → List IoVec → Bool

/-- Disks use `Device::read_vector` and `Device::write_vector`, or those of `NVMeDriver`. -/
inductive DiskKind where
  | generic
  | nvme
  deriving DecidableEq

structure Disk where
  kind : DiskKind
  blockSize : UInt32
  writeProtected : Bool

namespace IoVec

/-- The size is not a positive number of blocks. -/
def ragged (blockSize : UInt32) (v : IoVec) : Bool :=
  decide (v.size = 0) || decide (v.size % blockSize.toUInt64 ≠ 0)

/-- The number of blocks, as `Device` counts them. -/
def blocks (blockSize : UInt32) (v : IoVec) : UInt32 := (v.size / blockSize.toUInt64).toUInt32

/-- The test of `NVMeDriver` on every vector but the first. -/
def pageAligned (v : IoVec) : Bool :=
  decide (v.physAddr &&& 0xFFF = 0) && decide (v.size % 4096 = 0)

end IoVec

namespace Disk

/-- The loop of `Device::read_vector` and `Device::write_vector`. -/
def vectorLoop (blockSize : UInt32) (ok : UInt64 → UInt32 → Bool) :
    UInt64 → UInt32 → List IoVec → Transfer
  | _, total, [] => ⟨total, []⟩
  | currentLba, total, v :: vectors =>
    if v.ragged blockSize then .refused
    else
      let count := v.blocks blockSize
      if ok currentLba count then
        let rest := vectorLoop blockSize ok (currentLba + count.toUInt64) (total + count) vectors
        ⟨rest.result, ⟨currentLba, count.toNat⟩ :: rest.accesses⟩
      else ⟨0, [⟨currentLba, count.toNat⟩]⟩

/-- `Device::read_vector` and `Device::write_vector` behind the test of the write protection. -/
def deviceVector (disk : Disk) (answers : Answers) (lba : UInt64) (vectors : List IoVec) :
    Transfer :=
  if disk.blockSize = 0 then .refused
  else vectorLoop disk.blockSize answers.block lba 0 vectors

/-- `total_bytes / 512` in 32 bits. -/
def totalSectors (vectors : List IoVec) : UInt32 :=
  (vectors.foldl (fun (total : UInt64) v => total + v.size) 0 / 512).toUInt32

/-- The number of logical blocks that `cdw12` of an NVMe command asks for, counted from zero. -/
def commandSectors (vectors : List IoVec) : Nat :=
  ((totalSectors vectors - 1) &&& 0xFFFF).toNat + 1

/-- `NVMeDriver::read_vector` and `NVMeDriver::write_vector` behind the write protection. -/
def nvmeVector (disk : Disk) (answers : Answers) (lba : UInt64) (vectors : List IoVec) :
    Transfer :=
  if vectors.isEmpty || !answers.guard vectors then .refused
  else if vectors.tail.all IoVec.pageAligned then
    if answers.chain vectors then
      ⟨if answers.command lba vectors then totalSectors vectors else 0,
        [⟨lba, commandSectors vectors⟩]⟩
    else .refused
  else disk.deviceVector answers lba vectors

def vector (disk : Disk) (answers : Answers) (write : Bool) (lba : UInt64)
    (vectors : List IoVec) : Transfer :=
  if write && disk.writeProtected then .refused
  else
    match disk.kind with
    | .generic => disk.deviceVector answers lba vectors
    | .nvme => disk.nvmeVector answers lba vectors

/-- `readBlock` and `writeBlock`. -/
def block (answers : Answers) (lba : UInt64) (count : UInt32) : Transfer :=
  ⟨if answers.block lba count then 1 else 0, [⟨lba, count.toNat⟩]⟩

end Disk

structure PartitionDevice where
  startLba : UInt64
  sectorCount : UInt64
  writeProtected : Bool

/-- A block or vector call. -/
inductive Request where
  | block (write : Bool) (lba : UInt64) (count : UInt32)
  | vector (write : Bool) (lba : UInt64) (vectors : List IoVec)

variable {lba : UInt64}

namespace PartitionDevice

/-- The constructor of `PartitionDevice`. -/
def make (start last : UInt64) (writeProtected : Bool) : PartitionDevice where
  startLba := start
  sectorCount := if start ≤ last then last - start + 1 else 0
  writeProtected := writeProtected

/-- The two tests of every call. -/
def inBounds (p : PartitionDevice) (lba : UInt64) (count : UInt32) : Bool :=
  !decide (lba + count.toUInt64 < lba) && !decide (p.sectorCount < lba + count.toUInt64)

/-- The sum over the vectors that `read_vector` and `write_vector` check. -/
def totalBlocks (blockSize : UInt32) (vectors : List IoVec) : UInt32 :=
  vectors.foldl
    (fun (total : UInt32) v => (total.toUInt64 + v.size / blockSize.toUInt64).toUInt32) 0

def block (p : PartitionDevice) (answers : Answers) (write : Bool) (lba : UInt64)
    (count : UInt32) : Transfer :=
  if write && p.writeProtected then .refused
  else if p.inBounds lba count then Disk.block answers (p.startLba + lba) count
  else .refused

def vector (p : PartitionDevice) (disk : Disk) (answers : Answers) (write : Bool) (lba : UInt64)
    (vectors : List IoVec) : Transfer :=
  if write && p.writeProtected then .refused
  else if disk.blockSize = 0 then .refused
  else if p.inBounds lba (totalBlocks disk.blockSize vectors) then
    disk.vector answers write (p.startLba + lba) vectors
  else .refused

def perform (p : PartitionDevice) (disk : Disk) (answers : Answers) : Request → Transfer
  | .block write lba count => p.block answers write lba count
  | .vector write lba vectors => p.vector disk answers write lba vectors

/-- The sector is one of the partition. -/
def Owns (p : PartitionDevice) (sector : Nat) : Prop :=
  p.startLba.toNat ≤ sector ∧ sector < p.startLba.toNat + p.sectorCount.toNat

/-- Every sector that the access covers is one of the partition. -/
def Covers (p : PartitionDevice) (a : Access) : Prop :=
  ∀ sector, a.lba.toNat ≤ sector → sector < a.lba.toNat + a.count → p.Owns sector

/-- The call stays inside the partition; if it does not touch the parent it returns 0. -/
def Contains (p : PartitionDevice) (t : Transfer) : Prop :=
  (∀ a ∈ t.accesses, p.Covers a) ∧ (t.accesses = [] → t.result = 0)

lemma make_end (start last : UInt64) (locked : Bool) :
    (make start last locked).sectorCount.toNat + start.toNat ≤ 2 ^ 64 := by
  unfold make
  have hstart := start.toNat_lt
  have hlast := last.toNat_lt
  split
  case isTrue hle =>
    have hle' := UInt64.le_iff_toNat_le.mp hle
    rw [UInt64.toNat_add, UInt64.toNat_sub_of_le _ _ hle]
    have hone : (1 : UInt64).toNat = 1 := rfl
    omega
  · simp; omega

lemma inBounds_iff (p : PartitionDevice) (lba : UInt64) (count : UInt32) :
    p.inBounds lba count = true ↔ lba.toNat + count.toNat ≤ p.sectorCount.toNat := by
  have hlba := lba.toNat_lt
  have hcnt := count.toNat_lt
  have hsectors := p.sectorCount.toNat_lt
  have hadd : (lba + count.toUInt64).toNat = (lba.toNat + count.toNat) % 2 ^ 64 := by
    rw [UInt64.toNat_add, UInt32.toNat_toUInt64]
  simp only [inBounds, Bool.and_eq_true, Bool.not_eq_true', decide_eq_false_iff_not,
    UInt64.lt_iff_toNat_lt, hadd]
  omega

lemma covers_iff {p : PartitionDevice} (hend : p.sectorCount.toNat + p.startLba.toNat ≤ 2 ^ 64)
    (hlba : lba.toNat ≤ p.sectorCount.toNat) (count : Nat) :
    p.Covers ⟨p.startLba + lba, count⟩ ↔ lba.toNat + count ≤ p.sectorCount.toNat := by
  have hlt := lba.toNat_lt
  have haddr : (p.startLba + lba).toNat = (p.startLba.toNat + lba.toNat) % 2 ^ 64 :=
    UInt64.toNat_add ..
  unfold Covers Owns
  dsimp only
  rw [haddr]
  constructor
  · intro hcovers
    by_contra hover
    by_cases hwrap : p.startLba.toNat + lba.toNat = 2 ^ 64
    · -- the access starts at sector 0, and a partition with sector 0 does not end that late
      have h0 := hcovers 0 (by omega) (by omega)
      omega
    · have hbehind := hcovers (p.startLba.toNat + p.sectorCount.toNat) (by omega) (by omega)
      omega
  · intro hfits sector hlow hhigh
    omega

end PartitionDevice

namespace Disk

/-- The sectors that `Device::read_vector` goes through, up to the first ragged vector. -/
def wholeBlocks (blockSize : UInt32) : List IoVec → Nat
  | [] => 0
  | v :: vectors =>
    if v.ragged blockSize then 0
    else (v.blocks blockSize).toNat + wholeBlocks blockSize vectors

/-- The sectors that a vector call goes through. -/
def sectors (disk : Disk) (vectors : List IoVec) : Nat :=
  match disk.kind with
  | .generic => wholeBlocks disk.blockSize vectors
  | .nvme =>
    if vectors.isEmpty then 0
    else if vectors.tail.all IoVec.pageAligned then commandSectors vectors
    else wholeBlocks disk.blockSize vectors

/-- A disk that answers every access goes through all of them. -/
def willing : Answers := ⟨fun _ _ => true, fun _ => true, fun _ => true, fun _ _ => true⟩

section
variable (blockSize : UInt32) (ok : UInt64 → UInt32 → Bool) (lba : UInt64)

lemma accesses_vectorLoop_subset (total : UInt32) (vectors : List IoVec) :
    (vectorLoop blockSize ok lba total vectors).accesses ⊆
      (vectorLoop blockSize (fun _ _ => true) lba total vectors).accesses := by
  induction vectors generalizing lba total with
  | nil => exact List.Subset.refl _
  | cons v vectors ih =>
    simp only [vectorLoop]
    split
    · exact List.Subset.refl _
    · rw [if_true]
      split
      · exact cons_subset_cons _ (ih _ _)
      · exact cons_subset_cons _ (nil_subset _)

lemma result_vectorLoop (vectors : List IoVec)
    (hnone : (vectorLoop blockSize ok lba 0 vectors).accesses = []) :
    (vectorLoop blockSize ok lba 0 vectors).result = 0 := by
  cases vectors with
  | nil => rfl
  | cons v vectors =>
    simp only [vectorLoop] at hnone ⊢
    split
    · rfl
    case isFalse hragged =>
      rw [if_neg hragged] at hnone
      split at hnone <;> cases hnone

end

lemma nvmeVector_cons (disk : Disk) (answers : Answers) (lba : UInt64) (v : IoVec)
    (vectors : List IoVec) :
    disk.nvmeVector answers lba (v :: vectors) =
      if answers.guard (v :: vectors) then
        if vectors.all IoVec.pageAligned then
          if answers.chain (v :: vectors) then
            ⟨if answers.command lba (v :: vectors) then totalSectors (v :: vectors) else 0,
              [⟨lba, commandSectors (v :: vectors)⟩]⟩
          else .refused
        else disk.deviceVector answers lba (v :: vectors)
      else .refused := by
  unfold nvmeVector
  cases answers.guard (v :: vectors) <;> rfl

lemma contains_refused (p : PartitionDevice) : p.Contains .refused :=
  ⟨fun _ ha => absurd ha not_mem_nil, fun _ => rfl⟩

section
variable {p : PartitionDevice} (disk : Disk)
  (hend : p.sectorCount.toNat + p.startLba.toNat ≤ 2 ^ 64)
  (hlba : lba.toNat ≤ p.sectorCount.toNat)
include hend hlba

/-- The loop stays inside a partition if and only if its sectors fit. -/
lemma covers_vectorLoop_iff (blockSize total : UInt32) (vectors : List IoVec) :
    (∀ a ∈ (vectorLoop blockSize (fun _ _ => true) (p.startLba + lba) total vectors).accesses,
      p.Covers a) ↔ lba.toNat + wholeBlocks blockSize vectors ≤ p.sectorCount.toNat := by
  induction vectors generalizing lba total with
  | nil => simpa [vectorLoop, wholeBlocks] using hlba
  | cons v vectors ih =>
    simp only [vectorLoop, wholeBlocks]
    split
    · simpa [Transfer.refused] using hlba
    · rw [if_true, forall_mem_cons, PartitionDevice.covers_iff hend hlba]
      by_cases hfits : lba.toNat + (v.blocks blockSize).toNat ≤ p.sectorCount.toNat
      · have hsectors := p.sectorCount.toNat_lt
        have hnext : (lba + (v.blocks blockSize).toUInt64).toNat =
            lba.toNat + (v.blocks blockSize).toNat := by
          rw [UInt64.toNat_add, UInt32.toNat_toUInt64]
          omega
        have hle : (lba + (v.blocks blockSize).toUInt64).toNat ≤ p.sectorCount.toNat := by
          omega
        have hrest := ih hle (total + v.blocks blockSize)
        rw [← UInt64.add_assoc, hnext] at hrest
        rw [hrest]
        omega
      · have hover : ¬lba.toNat + ((v.blocks blockSize).toNat + wholeBlocks blockSize vectors) ≤
            p.sectorCount.toNat := by omega
        exact iff_of_false (fun h => hfits h.1) hover

variable (hsz : disk.blockSize ≠ 0)
include hsz

/-- Whatever the disk answers, the loop stays inside the partition if and only if it fits. -/
lemma contains_deviceVector_iff (vectors : List IoVec) :
    (∀ answers, p.Contains (disk.deviceVector answers (p.startLba + lba) vectors)) ↔
      lba.toNat + wholeBlocks disk.blockSize vectors ≤ p.sectorCount.toNat := by
  unfold deviceVector
  simp only [if_neg hsz]
  rw [← covers_vectorLoop_iff hend hlba disk.blockSize 0 vectors]
  constructor
  · exact fun h => (h willing).1
  · intro hcovers answers
    refine ⟨fun a ha => hcovers a ?_, result_vectorLoop _ _ _ _⟩
    exact accesses_vectorLoop_subset _ _ _ _ _ ha

lemma contains_nvmeVector_iff {v : IoVec} (vectors : List IoVec) :
    (∀ answers, p.Contains (disk.nvmeVector answers (p.startLba + lba) (v :: vectors))) ↔
      lba.toNat + (if vectors.all IoVec.pageAligned then commandSectors (v :: vectors)
        else wholeBlocks disk.blockSize (v :: vectors)) ≤ p.sectorCount.toNat := by
  simp only [nvmeVector_cons]
  by_cases halign : vectors.all IoVec.pageAligned = true
  · simp only [if_pos halign]
    rw [← PartitionDevice.covers_iff hend hlba]
    constructor
    · exact fun h => (h willing).1 _ (mem_singleton.mpr rfl)
    intro hcovers answers
    split
    · split
      · exact ⟨forall_mem_singleton.mpr hcovers, nofun⟩
      · exact contains_refused p
    · exact contains_refused p
  · simp only [if_neg halign]
    rw [← contains_deviceVector_iff disk hend hlba hsz]
    constructor
    · intro h answers
      -- the guard does not matter for the loop
      exact h { answers with guard := fun _ => true }
    · intro h answers
      split
      · exact h answers
      · exact contains_refused p

/-- Whatever the disk answers, the vector call stays inside the partition if and only if it fits. -/
lemma contains_vector_iff {write : Bool} (hwrite : ¬(write && disk.writeProtected) = true)
    (vectors : List IoVec) :
    (∀ answers, p.Contains (disk.vector answers write (p.startLba + lba) vectors)) ↔
      lba.toNat + disk.sectors vectors ≤ p.sectorCount.toNat := by
  unfold vector sectors
  simp only [if_neg hwrite]
  cases disk.kind with
  | generic => exact contains_deviceVector_iff disk hend hlba hsz vectors
  | nvme =>
    cases vectors with
    | nil => exact iff_of_true (fun _ => contains_refused p) hlba
    | cons v vectors => exact contains_nvmeVector_iff disk hend hlba hsz vectors

end

end Disk

namespace PartitionDevice

/-- The call is refused, or the sectors that the disk goes through lie in the partition. -/
def Fits (p : PartitionDevice) (disk : Disk) : Request → Prop
  | .block _ _ _ => True
  | .vector write lba vectors =>
    write = true ∧ (p.writeProtected = true ∨ disk.writeProtected = true) ∨
      disk.blockSize = 0 ∨ p.inBounds lba (totalBlocks disk.blockSize vectors) = false ∨
      lba.toNat + disk.sectors vectors ≤ p.sectorCount.toNat

lemma contains_block (p : PartitionDevice)
    (hend : p.sectorCount.toNat + p.startLba.toNat ≤ 2 ^ 64) (answers : Answers) (write : Bool)
    (lba : UInt64) (count : UInt32) : p.Contains (p.block answers write lba count) := by
  unfold block
  split
  · exact Disk.contains_refused p
  · split
    case isTrue hbd =>
      have hfits := (inBounds_iff p lba count).mp hbd
      have hcovers := (covers_iff hend (by omega) count.toNat).mpr hfits
      exact ⟨forall_mem_singleton.mpr hcovers, nofun⟩
    · exact Disk.contains_refused p

end PartitionDevice

end Singularity.Storage
