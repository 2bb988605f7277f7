import Mathlib.Data.UInt
import Singularity.Foundation.Memory
import Singularity.Foundation.Runs

/-!
# Mounting a volume

`kom_mount_provider` takes a reference to the device for the mount object of a file system, which
gives it back when it is dropped. A file system that builds its mount object and then cannot read
the root directory drops the object and returns a null pointer, for which the caller gives the
reference back once more. Device counts do not reach the end of a word.
-/

namespace Singularity.Storage.Mounting

open Foundation Function

inductive MountPanic where
  | divisionByZero
  | indexOutOfBounds
  | refCountUnderflow
  deriving DecidableEq

/-- The bytes of a buffer and their number. -/
structure Buffer where
  bytes : Mem
  len : Nat

namespace Buffer

/-- A number of `width` bytes; beyond the buffer it is zero. -/
def readLe (buf : Buffer) (offset width : Nat) : Nat :=
  if buf.len < offset + width then 0 else buf.bytes.readBytes offset width

def readU8 (buf : Buffer) (offset : Nat) : UInt8 := .ofNat (buf.readLe offset 1)

def readU16Le (buf : Buffer) (offset : Nat) : UInt16 := .ofNat (buf.readLe offset 2)

def readU32Le (buf : Buffer) (offset : Nat) : UInt32 := .ofNat (buf.readLe offset 4)

def readU64Le (buf : Buffer) (offset : Nat) : UInt64 := .ofNat (buf.readLe offset 8)

def drop (buf : Buffer) (n : Nat) : Buffer := ⟨fun i => buf.bytes (n + i), buf.len - n⟩

end Buffer

def verifyTag (buf : Buffer) (expectedId : UInt16) : Bool :=
  16 ≤ buf.len ∧ buf.readU16Le 0 = expectedId ∧
    (((List.range 16).filter (· ≠ 4)).map buf.bytes).sum = buf.bytes 4

structure LongAd where
  len : UInt32
  loc : UInt32
  partRef : UInt16

structure UdfMount where
  partitionStart : UInt32
  blockSize : UInt32

def readLongAd (buf : Buffer) (base : Nat) : LongAd :=
  ⟨buf.readU32Le base, buf.readU32Le (base + 4), buf.readU16Le (base + 8)⟩

/-- One round over the main volume descriptors: the start of partition 0, and where the file set
descriptor is. -/
def scanDescriptor (mvds : Buffer) (found : UInt32 × Option LongAd) (offset : Nat) :
    UInt32 × Option LongAd :=
  let tag := mvds.drop offset
  let partStart :=
    if verifyTag tag 5 ∧ mvds.readU16Le (offset + 22) = 0 then mvds.readU32Le (offset + 188)
    else found.1
  (partStart, if verifyTag tag 6 then some (readLongAd mvds (offset + 248)) else found.2)

/-- The loop stops at the terminating descriptor or at the end of the buffer. -/
def descriptors (mvds : Buffer) (bs : Nat) : List Nat :=
  ((List.range (mvds.len / bs + 1)).map (· * bs)).takeWhile fun offset =>
    offset + 16 ≤ mvds.len ∧ mvds.readU16Le offset ≠ 8

structure ExtInodeData where
  iMode : UInt16
  iSize : UInt32
  iFlags : UInt32
  iBlock : Fin 15 → UInt32

structure ExtMount where
  blockSize : UInt32
  inodesPerGroup : UInt32
  inodeSize : UInt32
  bgdtStartBlock : UInt32

/-- What the device of a volume answers; a read can fail. -/
structure Disk where
  blockSize : UInt32
  diskCacheReadBlock : UInt64 → UInt32 → Option Mem
  deviceReadBlock : UInt64 → UInt32 → Option Mem

namespace Disk

variable (disk : Disk)

/-- Read through the cache, in sectors of 512 bytes. -/
def readCached (lba : UInt64) (count : UInt32) : Option Buffer :=
  (disk.diskCacheReadBlock lba count).map (⟨·, 512 * count.toNat⟩)

def readSector (lba : UInt64) (count : UInt32) : Option Buffer :=
  (disk.deviceReadBlock lba count).map (⟨·, (count * disk.blockSize).toNat⟩)

/-- The root of a FAT32 volume needs no more than a valid boot sector. A root is `none` if the
file system builds no mount object, and else tells whether the root directory can be read. -/
def fat32Root : Except MountPanic (Option Bool) :=
  .ok <| (disk.readCached 0 1).bind fun buf =>
    if buf.bytes 510 = 0x55 ∧ buf.bytes 511 = 0xAA ∧
        ¬(buf.readU16Le 11 = 0 ∨ buf.readU8 13 = 0) then some true
    else none

def iso9660Root : Except MountPanic (Option Bool) :=
  if disk.blockSize = 0 then .ok none
  else match disk.readSector (if disk.blockSize = 2048 then 16 else 64) 1 with
    | none => .ok none
    | some data =>
      if data.bytes 0 = 1 then
        if data.len < 6 then .error .indexOutOfBounds
        else if [1, 2, 3, 4, 5].map data.bytes = [0x43, 0x44, 0x30, 0x30, 0x31] then .ok (some true)
        else .ok none
      else .ok none

def anchorAt (lba : UInt64) (bs : UInt32) : Option (UInt32 × UInt32 × UInt32) :=
  (disk.readSector lba 4).bind fun buf =>
    if verifyTag buf 2 then some (buf.readU32Le 20, buf.readU32Le 16, bs) else none

def findAnchor : Option (UInt32 × UInt32 × UInt32) :=
  (disk.anchorAt 256 512).or (disk.anchorAt 1024 2048)

/-- The mount object of a UDF volume and the place of its root. -/
def udfMount : Option (UdfMount × LongAd) := do
  let (_, mvdsLen, bs) ← disk.findAnchor
  let mult := bs / 512
  let sectors := (mvdsLen.toNat + bs.toNat - 1) / bs.toNat
  let mvds ← disk.readSector (256 * mult).toUInt64 (.ofNat sectors)
  let (partStart, fsd) := (descriptors mvds bs.toNat).foldl (scanDescriptor mvds) (0, none)
  let fsdLoc ← fsd
  let fsdBuf ← disk.readSector ((partStart + fsdLoc.loc) * mult).toUInt64 4
  if verifyTag fsdBuf 256 then some (⟨partStart, bs⟩, readLongAd fsdBuf 400) else none

/-- The size of a node and whether it is a directory. -/
def initializeNode (mount : UdfMount) (icbLoc : LongAd) : Option (UInt64 × Bool) := do
  let sector := (mount.partitionStart + icbLoc.loc) * (mount.blockSize / 512)
  let buf ← disk.readSector sector.toUInt64 4
  let tagId := buf.readU16Le 0
  let infoLen ← if tagId = 261 then some 56 else if tagId = 266 then some 64 else none
  return (buf.readU64Le infoLen, buf.readU8 27 = 4)

def udfRoot : Except MountPanic (Option Bool) :=
  .ok (disk.udfMount.map fun (mount, rootIcb) => (disk.initializeNode mount rootIcb).isSome)

def readInode (mount : ExtMount) (ino : UInt32) : Except MountPanic (Option ExtInodeData) :=
  let group := (ino - 1) / mount.inodesPerGroup
  let bgOffset := group * 32
  let sectors := mount.blockSize.toUInt64 / 512
  if ino = 0 then .ok none
  else if mount.inodesPerGroup = 0 then .error .divisionByZero
  else match disk.readCached
      (mount.bgdtStartBlock.toUInt64 * sectors + (bgOffset / 512).toUInt64) 1 with
    | none => .ok none
    | some buf =>
      let inodeTableBlock := buf.readU32Le ((bgOffset % 512).toNat + 8)
      let inTable := (ino - 1) % mount.inodesPerGroup * mount.inodeSize
      let block := inodeTableBlock.toUInt64 + (inTable / mount.blockSize).toUInt64
      let base := (inTable % mount.blockSize).toNat
      if mount.blockSize = 0 then .error .divisionByZero
      else .ok <| (disk.readCached (block * sectors) (mount.blockSize / 512)).map fun buf =>
        ⟨buf.readU16Le base, buf.readU32Le (base + 4), buf.readU32Le (base + 32),
          fun i => buf.readU32Le (base + 40 + i * 4)⟩

/-- The mount object of a volume with the signature of ext2. -/
def extMount : Option ExtMount :=
  (disk.readCached 2 2).bind fun buf =>
    let blockSize := 1024 <<< buf.readU32Le 24
    if buf.readU16Le 56 = 0xEF53 then
      some ⟨blockSize, buf.readU32Le 40,
        if 1 ≤ buf.readU32Le 76 then (buf.readU16Le 88).toUInt32 else 128,
        if blockSize = 1024 then 2 else 1⟩
    else none

def ext4Root : Except MountPanic (Option Bool) :=
  match disk.extMount with
  | none => .ok none
  | some mount => (disk.readInode mount 2).map fun root => some root.isSome

/-- The file system of a provider type. -/
def root? (providerType : String) : Option (Except MountPanic (Option Bool)) :=
  if providerType = "fat32" then some disk.fat32Root
  else if providerType = "iso9660" ∨ providerType = "cdfs" then some disk.iso9660Root
  else if providerType = "udf" then some disk.udfRoot
  else if providerType = "ext4" ∨ providerType = "linux" then some disk.ext4Root
  else none

end Disk

/-- The device is deleted with its last reference. -/
def deviceRelease (refs : Nat) : Except MountPanic Nat :=
  if refs = 0 then .error .refCountUnderflow else .ok (refs - 1)

/-- The mount function of a file system: whether it returns a root node, and the references. The
node owns the mount object; without a node the object is dropped, which releases the device. -/
def rustMount (refs : Nat) : Option Bool → Except MountPanic (Bool × Nat)
  | none => .ok (false, refs)
  | some true => .ok (true, refs)
  | some false => (deviceRelease refs).map (false, ·)

/-- The references to devices, the next drive letter and the volumes under `/volumes`. -/
structure Mounts (δ : Type) where
  refs : δ → Nat
  nextDriveLetter : UInt8
  volumes : List (UInt8 × δ)

/-- A call for a device that is registered, what is on it, and the answer of `ons_bind`. -/
structure Attempt (δ : Type) where
  dev : δ
  disk : Disk
  providerType : String
  bound : Bool

namespace Mounts

variable {δ : Type} [DecidableEq δ] (s : Mounts δ)

def setRefs (dev : δ) (refs : Nat) : Mounts δ := { s with refs := update s.refs dev refs }

/-- The destructor of the root container releases the node, its mount object and the device. -/
def komMountProvider (a : Attempt δ) : Except MountPanic (Mounts δ) := do
  let refs := s.refs a.dev + 1
  match a.disk.root? a.providerType with
  | none => return s.setRefs a.dev (← deviceRelease refs)
  | some root =>
    let (mounted, refs) ← rustMount refs (← root)
    if mounted then
      if s.nextDriveLetter ≤ 'Z'.toUInt8 then
        let t := { s with nextDriveLetter := s.nextDriveLetter + 1 }
        if a.bound then
          return { t.setRefs a.dev refs with volumes := (s.nextDriveLetter, a.dev) :: s.volumes }
        else return t.setRefs a.dev (← deviceRelease refs)
      else
        let refs ← deviceRelease refs
        return s.setRefs a.dev (← deviceRelease refs)
    else return s.setRefs a.dev (← deviceRelease refs)

/-- One more reference if there is one more volume, and else no change. -/
def Balanced (dev : δ) (s' : Mounts δ) : Prop :=
  (s'.volumes = s.volumes ∧ s'.refs = s.refs) ∨
    ∃ letter, s'.volumes = (letter, dev) :: s.volumes ∧
      s'.refs = update s.refs dev (s.refs dev + 1)

/-- A file system with a mount object can read the root directory, and a drive letter is left. -/
def Keeps (a : Attempt δ) : Prop :=
  a.disk.root? a.providerType ≠ some (.ok (some false)) ∧
    (a.disk.root? a.providerType = some (.ok (some true)) → s.nextDriveLetter ≤ 'Z'.toUInt8)

/-- A returning call for a registered device, under the condition. -/
def Step (s : Mounts δ) (a : Attempt δ) (s' : Mounts δ) : Prop :=
  0 < s.refs a.dev ∧ s.Keeps a ∧ s.komMountProvider a = .ok s'

variable {s s' t : Mounts δ} {dev : δ} {a : Attempt δ}

lemma balanced_setRefs_iff (s : Mounts δ) (dev : δ) (letter : UInt8) (n : Nat) :
    s.Balanced dev (setRefs { s with nextDriveLetter := letter } dev n) ↔ n = s.refs dev := by
  have hne (x : UInt8 × δ) : s.volumes ≠ x :: s.volumes := (List.cons_ne_self x _).symm
  simp only [Balanced, setRefs, hne, false_and, exists_false, or_false, true_and]
  exact update_eq_self_iff

lemma balanced_iff (hlive : 0 < s.refs a.dev) (hok : s.komMountProvider a = .ok s') :
    s.Balanced a.dev s' ↔ s.Keeps a := by
  obtain ⟨n, hn⟩ : ∃ n, s.refs a.dev = n + 1 := ⟨_, (Nat.succ_pred_eq_of_pos hlive).symm⟩
  have hsame (letter : UInt8) := (balanced_setRefs_iff s a.dev letter (n + 1)).mpr hn.symm
  have hless (letter : UInt8) := mt (balanced_setRefs_iff s a.dev letter n).mp (by omega)
  simp only [komMountProvider, hn] at hok
  rw [Keeps]
  cases hroot : a.disk.root? a.providerType with
  | none =>
    rw [hroot] at hok
    cases hok
    exact iff_of_true (hsame _) ⟨nofun, nofun⟩
  | some root =>
    rw [hroot] at hok
    match root with
    | .error _ => cases hok
    | .ok none =>
      cases hok
      exact iff_of_true (hsame _) ⟨nofun, nofun⟩
    | .ok (some false) =>
      cases hok
      exact iff_of_false (hless _) fun h => h.1 rfl
    | .ok (some true) =>
      simp only [ne_eq, Option.some.injEq, Except.ok.injEq, Bool.true_eq_false, not_false_eq_true,
        true_and, forall_true_left]
      by_cases hletter : s.nextDriveLetter ≤ 'Z'.toUInt8
      · refine iff_of_true ?_ hletter
        cases hbound : a.bound with
        | false =>
          simp only [rustMount, hletter, hbound] at hok
          cases hok
          exact hsame _
        | true =>
          simp only [rustMount, hletter, hbound] at hok
          cases hok
          exact .inr ⟨_, rfl, by rw [hn]; rfl⟩
      · simp only [rustMount, hletter] at hok
        cases hok
        exact iff_of_false (hless _) hletter

lemma Step.refs_le (h : Step s a s') (d : δ) : s.refs d ≤ s'.refs d := by
  obtain ⟨hlive, hkeeps, hok⟩ := h
  obtain ⟨-, hrefs⟩ | ⟨letter, -, hrefs⟩ := (balanced_iff hlive hok).mpr hkeeps
  · rw [hrefs]
  · rw [hrefs, update_apply]
    split_ifs with heq
    · exact heq ▸ Nat.le_succ _
    · exact le_rfl

/-- One registered device and no volume. -/
def registered : Mounts Unit := ⟨fun _ => 1, 'D'.toUInt8, []⟩

def fatVolume : Attempt Unit where
  dev := ()
  disk := ⟨512, fun _ _ => some fun i => if i = 510 then 0x55 else if i = 511 then 0xAA else 1,
    fun _ _ => none⟩
  providerType := "fat32"
  bound := true

/-- The superblock of an ext4 volume on a disk on which no other sector can be read. -/
def bareSuperblock : Attempt Unit where
  dev := ()
  disk := ⟨512, fun lba _ => if lba = 2 then
      some fun i => if i = 56 then 0x53 else if i = 57 then 0xEF else 1 else none, fun _ _ => none⟩
  providerType := "ext4"
  bound := true

end Mounts

end Singularity.Storage.Mounting
