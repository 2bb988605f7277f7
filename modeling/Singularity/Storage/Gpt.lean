import Mathlib.Data.Fin.VecNotation
import Mathlib.Data.Fintype.Pi
import Mathlib.Data.UInt
import Mathlib.Logic.Function.Iterate
import Mathlib.Tactic.Common
import Singularity.Foundation.Sectors

/-!
# The partition table

A disk holds a header and a table of partition entries near its start, and a copy of both at its
end. `rust_gpt_init_disk` writes an empty table, `rust_gpt_create_partition` fills the first free
entry with sectors behind all others, and `rust_gpt_delete_partition` clears an entry. The last two
write the primary table, the primary header, the backup table and the backup header, in this
order, with new checksums.
-/

namespace Singularity.Storage.Gpt

open Foundation

/-- A buffer of `vec![0u8; n]`. -/
def zeros : Mem := fun _ => 0

/-- The first `n` bytes of a buffer. -/
def slice (buf : Mem) (n : Nat) : List UInt8 := (List.range n).map buf

def readU32 (buf : Mem) (offset : Nat) : UInt32 := UInt32.ofNat (buf.readBytes offset 4)

def readU64 (buf : Mem) (offset : Nat) : UInt64 := UInt64.ofNat (buf.readBytes offset 8)

def writeU32 (buf : Mem) (offset : Nat) (val : UInt32) : Mem := buf.writeBytes offset 4 val.toNat

def writeU64 (buf : Mem) (offset : Nat) (val : UInt64) : Mem := buf.writeBytes offset 8 val.toNat

abbrev Guid := Fin 16 → UInt8

def readGuid (buf : Mem) (offset : Nat) : Guid := fun i => buf (offset + i)

/-- `write_bytes` with a GUID. -/
def writeGuid (buf : Mem) (offset : Nat) (guid : Guid) : Mem :=
  buf.copy offset 16 fun i => if h : i < 16 then guid ⟨i, h⟩ else 0

/-- One round of the inner loop of `crc32`. -/
def crcBit (crc : UInt32) : UInt32 :=
  if crc &&& 1 ≠ 0 then (crc >>> 1) ^^^ 0xEDB88320 else crc >>> 1

def crcByte (crc : UInt32) (byte : UInt8) : UInt32 := crcBit^[8] (crc ^^^ byte.toUInt32)

def crc32 (buf : List UInt8) : UInt32 := ~~~(buf.foldl crcByte 0xFFFFFFFF)

/-- `GptHeaderLogic`. -/
@[ext] structure GptHeader where
  signature : UInt64
  revision : UInt32
  headerSize : UInt32
  crc32Header : UInt32
  reserved : UInt32
  currentLba : UInt64
  backupLba : UInt64
  firstUsableLba : UInt64
  lastUsableLba : UInt64
  diskGuid : Guid
  partitionEntryLba : UInt64
  numPartitionEntries : UInt32
  sizePartitionEntry : UInt32
  crc32PartitionArray : UInt32

/-- `GPT_SIGNATURE`. -/
def gptSignature : UInt64 := 0x5452415020494645

namespace GptHeader

def fromBuffer (buf : Mem) : GptHeader where
  signature := readU64 buf 0
  revision := readU32 buf 8
  headerSize := readU32 buf 12
  crc32Header := readU32 buf 16
  reserved := readU32 buf 20
  currentLba := readU64 buf 24
  backupLba := readU64 buf 32
  firstUsableLba := readU64 buf 40
  lastUsableLba := readU64 buf 48
  diskGuid := readGuid buf 56
  partitionEntryLba := readU64 buf 72
  numPartitionEntries := readU32 buf 80
  sizePartitionEntry := readU32 buf 84
  crc32PartitionArray := readU32 buf 88

/-- The part of `write_to_buffer` in front of the checksum. -/
def writeStart (h : GptHeader) (buf : Mem) : Mem :=
  let buf := writeU64 buf 0 h.signature
  let buf := writeU32 buf 8 h.revision
  writeU32 buf 12 h.headerSize

/-- The part of `write_to_buffer` behind the checksum. -/
def writeRest (h : GptHeader) (buf : Mem) : Mem :=
  let buf := writeU32 buf 20 h.reserved
  let buf := writeU64 buf 24 h.currentLba
  let buf := writeU64 buf 32 h.backupLba
  let buf := writeU64 buf 40 h.firstUsableLba
  let buf := writeU64 buf 48 h.lastUsableLba
  let buf := writeGuid buf 56 h.diskGuid
  let buf := writeU64 buf 72 h.partitionEntryLba
  let buf := writeU32 buf 80 h.numPartitionEntries
  let buf := writeU32 buf 84 h.sizePartitionEntry
  writeU32 buf 88 h.crc32PartitionArray

def writeToBuffer (h : GptHeader) (buf : Mem) : Mem :=
  h.writeRest (writeU32 (h.writeStart buf) 16 h.crc32Header)

/-- The sector that is written for a header. -/
def sector (h : GptHeader) : Mem := h.writeToBuffer zeros

/-- The checksum is taken with its own field cleared. -/
def checksum (h : GptHeader) : UInt32 :=
  crc32 (slice ({ h with crc32Header := 0 } : GptHeader).sector 92)

def sealed (h : GptHeader) : GptHeader := { h with crc32Header := h.checksum }

/-- `entry_count * entry_size`. -/
def totalSize (h : GptHeader) : Nat := h.numPartitionEntries.toNat * h.sizePartitionEntry.toNat

/-- `sectors_to_read`. -/
def sectorsToRead (h : GptHeader) (bs : Nat) : Nat := (h.totalSize + bs - 1) / bs

/-- The device takes the number of sectors in 32 bits. -/
def blockCount (h : GptHeader) (bs : Nat) : Nat := h.sectorsToRead bs % 2 ^ 32

/-- The header at the end of the disk. -/
def backup (h : GptHeader) (bs : Nat) : GptHeader :=
  sealed { h with
    currentLba := h.backupLba
    backupLba := h.currentLba
    partitionEntryLba := UInt64.ofNat (h.backupLba.toNat - h.sectorsToRead bs) }

end GptHeader

def isUnusedGuid (guid : Guid) : Bool := decide (∀ i, guid i = 0)

def getGuidForType (typeStr : String) : Guid :=
  if typeStr = "linux" ∨ typeStr = "ext4" then
    ![0xAF, 0x3D, 0xC6, 0x0F, 0x83, 0x84, 0x72, 0x47,
      0x8E, 0x79, 0x3D, 0x69, 0xD8, 0x47, 0x7D, 0xE4]
  else if typeStr = "efi" then
    ![0x28, 0x73, 0x2A, 0xC1, 0x1F, 0xF8, 0xD2, 0x11,
      0xBA, 0x4B, 0x00, 0xA0, 0xC9, 0x3E, 0xC9, 0x3B]
  else
    ![0xA2, 0xA0, 0xD0, 0xEB, 0xE5, 0xB9, 0x33, 0x44,
      0x87, 0xC0, 0x68, 0xB6, 0xB7, 0x26, 0x99, 0xC7]

/-- The ticks of the system clock fill the first half. -/
def generatePseudoGuid (ticks : UInt64) : Guid := fun i =>
  if i.val < 8 then UInt8.ofNat (ticks.toNat / 256 ^ i.val) else 0xAA

/-- A header and its table in memory. -/
structure GptImage where
  header : GptHeader
  table : Mem

namespace GptImage

/-- The checksums of the table and of the header are renewed. -/
def sealed (g : GptImage) : GptImage :=
  { g with
    header := GptHeader.sealed
      { g.header with crc32PartitionArray := crc32 (slice g.table g.header.totalSize) } }

/-- The sector writes of an update, in their order. -/
def writes (g : GptImage) (bs : Nat) : List SectorWrite :=
  Sectors.blocks bs g.header.partitionEntryLba.toNat (g.header.blockCount bs) g.table ++
    ⟨1, g.header.sector⟩ ::
    (Sectors.blocks bs (g.header.backup bs).partitionEntryLba.toNat (g.header.blockCount bs)
        g.table ++
      [⟨(g.header.backup bs).currentLba.toNat, (g.header.backup bs).sector⟩])

end GptImage

/-- Whether the device reads the header and the table. -/
structure Reads where
  header : Bool
  table : Bool

/-- The start of an update: header and table are read. -/
def readGpt (bs : Nat) (d : Sectors) (reads : Reads) : Option GptImage :=
  let header := GptHeader.fromBuffer (d 1)
  if !reads.header || decide (header.signature ≠ gptSignature) || !reads.table then none
  else
    let count := header.blockCount bs
    some ⟨header, fun i =>
      if i < count * bs then d.image bs header.partitionEntryLba.toNat i else 0⟩

/-- Entry `i` of the table is in use. -/
def used (table : Mem) (size i : Nat) : Bool := !isUnusedGuid (readGuid table (i * size))

def startOf (table : Mem) (size i : Nat) : UInt64 := readU64 table (i * size + 32)

def endOf (table : Mem) (size i : Nat) : UInt64 := readU64 table (i * size + 40)

/-- One round of the loop that looks for a free entry and for the highest end. -/
def scanStep (table : Mem) (size : Nat) (s : Option Nat × UInt64) (i : Nat) : Option Nat × UInt64 :=
  if used table size i then
    (s.1, if s.2 < endOf table size i then endOf table size i else s.2)
  else (s.1.or (some i), s.2)

def scanTable (table : Mem) (size count : Nat) (first : UInt64) : Option Nat × UInt64 :=
  (List.range count).foldl (scanStep table size) (none, first - 1)

/-- The arguments of `rust_gpt_create_partition`, and the state of the clock. -/
structure CreateRequest where
  sizeMb : UInt32
  name : List Char
  typeStr : String
  ticks : UInt64
  reads : Reads

/-- The first sector at a boundary of 1 MiB. -/
def alignStart (bs : Nat) (lba : UInt64) : UInt64 :=
  let alignBlocks := UInt64.ofNat (1024 * 1024 / bs)
  if lba % alignBlocks = 0 then lba else lba + (alignBlocks - lba % alignBlocks)

/-- At most 35 characters of the name, two bytes each. -/
def writeName (buf : Mem) (offset : Nat) (name : List Char) : Mem :=
  ((name.take 35).zipIdx).foldl
    (fun buf c => buf.writeBytes (offset + 2 * c.2) 2 (c.1.toNat % 2 ^ 16)) buf

/-- A new entry. -/
def writeEntry (buf : Mem) (offset : Nat) (r : CreateRequest) (startLba endLba : UInt64) : Mem :=
  let buf := writeGuid buf offset (getGuidForType r.typeStr)
  let buf := writeGuid buf (offset + 16) (generatePseudoGuid r.ticks)
  let buf := writeU64 buf (offset + 32) startLba
  let buf := writeU64 buf (offset + 40) endLba
  let buf := writeU64 buf (offset + 48) 0
  let buf := buf.fill (offset + 56) 72 0
  writeName buf (offset + 56) r.name

/-- The place of a new partition: its entry, its first and its last sector. -/
structure Place where
  index : Nat
  startLba : UInt64
  endLba : UInt64
  deriving DecidableEq

/-- The choice of the entry and of the sectors in `rust_gpt_create_partition`. -/
def choosePlace (bs : Nat) (g : GptImage) (sizeMb : UInt32) : Option Place :=
  let scan := scanTable g.table g.header.sizePartitionEntry.toNat
    g.header.numPartitionEntries.toNat g.header.firstUsableLba
  scan.1.bind fun index =>
    let startLba := alignStart bs (scan.2 + 1)
    let endLba := startLba + sizeMb.toUInt64 * 1024 * 1024 / UInt64.ofNat bs - 1
    if g.header.lastUsableLba < endLba then none else some ⟨index, startLba, endLba⟩

/-- The table with the new entry. -/
def createImage (bs : Nat) (d : Sectors) (r : CreateRequest) : Option GptImage :=
  (readGpt bs d r.reads).bind fun g =>
    (choosePlace bs g r.sizeMb).map fun p =>
      { g with
        table := writeEntry g.table (p.index * g.header.sizePartitionEntry.toNat) r p.startLba
          p.endLba }

/-- The first sector of the partition device, and what the device reads. -/
structure DeleteRequest where
  targetStart : UInt64
  reads : Reads

/-- The table without the entry that starts where the partition starts. -/
def deleteImage (bs : Nat) (d : Sectors) (r : DeleteRequest) : Option GptImage :=
  (readGpt bs d r.reads).bind fun g =>
    let size := g.header.sizePartitionEntry.toNat
    ((List.range g.header.numPartitionEntries.toNat).find? fun i =>
        used g.table size i && decide (startOf g.table size i = r.targetStart)).map fun i =>
      { g with table := g.table.fill (i * size) size 0 }

/-- A call that changes the table. -/
inductive GptCall where
  | create (r : CreateRequest)
  | delete (r : DeleteRequest)

namespace GptCall

/-- The changed table; none if the call returns before it writes. -/
def image (bs : Nat) (d : Sectors) : GptCall → Option GptImage
  | .create r => createImage bs d r
  | .delete r => deleteImage bs d r

/-- The sector writes of a call. -/
def writes (bs : Nat) (d : Sectors) (c : GptCall) : List SectorWrite :=
  match c.image bs d with
  | none => []
  | some g => g.sealed.writes bs

end GptCall

/-- The protective boot record. -/
def mbr (totalSectors : UInt64) : Mem := fun i =>
  match i with
  | 448 => 0x02
  | 450 => 0xEE
  | 451 => 0xFF
  | 452 => 0xFF
  | 453 => 0xFF
  | 454 => 1
  | 510 => 0x55
  | 511 => 0xAA
  | i =>
    let size : Nat := if 0xFFFFFFFF < totalSectors then 0xFFFFFFFF else (totalSectors - 1).toNat
    (zeros.writeBytes 458 4 size) i

/-- The header of an empty table. -/
def initHeader (totalSectors : UInt64) (ticks : UInt64) : GptHeader where
  signature := gptSignature
  revision := 0x00010000
  headerSize := 92
  crc32Header := 0
  reserved := 0
  currentLba := 1
  backupLba := totalSectors - 1
  firstUsableLba := 34
  lastUsableLba := totalSectors - 34
  diskGuid := generatePseudoGuid ticks
  partitionEntryLba := 2
  numPartitionEntries := 128
  sizePartitionEntry := 128
  crc32PartitionArray := 0

/-- The sector writes of `rust_gpt_init_disk`; none if the disk is too small. -/
def initWrites (bs : Nat) (capacity ticks : UInt64) : Option (List SectorWrite) :=
  let totalSectors := capacity / UInt64.ofNat bs
  if totalSectors < 68 then none
  else
    let g : GptImage := GptImage.sealed ⟨initHeader totalSectors ticks, zeros⟩
    some (⟨0, mbr totalSectors⟩ :: ⟨1, g.header.sector⟩ ::
      (Sectors.blocks bs 2 (g.header.blockCount bs) zeros ++
        Sectors.blocks bs (g.header.backup bs).partitionEntryLba.toNat (g.header.blockCount bs)
          zeros ++
        [⟨(g.header.backup bs).currentLba.toNat, (g.header.backup bs).sector⟩]))

lemma readU64_writeU64 (buf : Mem) (a : Nat) (v : UInt64) : readU64 (writeU64 buf a v) a = v := by
  rw [readU64, writeU64, Mem.readBytes_writeBytes,
    Nat.mod_eq_of_lt (show v.toNat < 256 ^ 8 from v.toNat_lt)]
  exact UInt64.ofNat_toNat

lemma readGuid_writeGuid (buf : Mem) (a : Nat) (g : Guid) : readGuid (writeGuid buf a g) a = g := by
  funext i
  rw [readGuid, writeGuid, Mem.copy_apply i.isLt]
  exact dif_pos i.isLt

lemma sameOutside_writeU32 (buf : Mem) (a : Nat) (v : UInt32) :
    Mem.SameOutside a 4 buf (writeU32 buf a v) := Mem.sameOutside_writeBytes _ _ _ _

lemma sameOutside_writeU64 (buf : Mem) (a : Nat) (v : UInt64) :
    Mem.SameOutside a 8 buf (writeU64 buf a v) := Mem.sameOutside_writeBytes _ _ _ _

lemma sameOutside_writeGuid (buf : Mem) (a : Nat) (g : Guid) :
    Mem.SameOutside a 16 buf (writeGuid buf a g) := Mem.sameOutside_copy _ _ _ _

lemma readU64_of_sameOutside (h : Mem.SameOutside a n buf buf')
    (hb : b + 8 ≤ a ∨ a + n ≤ b) : readU64 buf' b = readU64 buf b := by
  rw [readU64, readU64, h.readBytes hb]

lemma readGuid_of_sameOutside (h : Mem.SameOutside a n buf buf')
    (hb : b + 16 ≤ a ∨ a + n ≤ b) : readGuid buf' b = readGuid buf b := by
  funext i
  exact h _ (by omega)

lemma readGuid_writeBytes_of_disjoint (h : b + 16 ≤ a ∨ a + n ≤ b) :
    readGuid (buf.writeBytes a n w) b = readGuid buf b :=
  readGuid_of_sameOutside (Mem.sameOutside_writeBytes buf a n w) h

namespace GptHeader

variable (h : GptHeader)
include h

lemma fromBuffer_writeToBuffer (buf : Mem) : fromBuffer (h.writeToBuffer buf) = h := by
  have h32 (v : UInt32) : v.toNat % 256 ^ 4 = v.toNat := Nat.mod_eq_of_lt v.toNat_lt
  have h64 (v : UInt64) : v.toNat % 256 ^ 8 = v.toNat := Nat.mod_eq_of_lt v.toNat_lt
  ext1
  case diskGuid =>
    simp (disch := decide) only [fromBuffer, writeToBuffer, writeRest, writeU32, writeU64,
      readGuid_writeBytes_of_disjoint, readGuid_writeGuid]
  all_goals
    simp (disch := decide) only [fromBuffer, writeToBuffer, writeRest, writeStart, readU32, readU64,
      writeU32, writeU64, writeGuid, Mem.readBytes_writeBytes_of_disjoint,
      Mem.readBytes_copy_of_disjoint, Mem.readBytes_writeBytes, h32, h64, UInt32.ofNat_toNat,
      UInt64.ofNat_toNat]

lemma fromBuffer_sector : fromBuffer h.sector = h :=
  h.fromBuffer_writeToBuffer zeros

lemma writeRest_congr (hx : m x = m' x) : h.writeRest m x = h.writeRest m' x := by
  simp only [writeRest, writeU32, writeU64, writeGuid, Mem.writeBytes, Mem.copy, hx]

lemma sameOutside_writeRest (m : Mem) : Mem.SameOutside 20 72 m (h.writeRest m) := by
  intro x hx
  simp only [writeRest, writeU32, writeU64, writeGuid, Mem.writeBytes, Mem.copy]
  repeat rw [if_neg (by omega)]

lemma clear_crc (buf : Mem) :
    writeU32 (h.writeToBuffer buf) 16 0 =
      ({ h with crc32Header := 0 } : GptHeader).writeToBuffer buf := by
  funext x
  by_cases hx : 16 ≤ x ∧ x < 16 + 4
  · have hrest := ({ h with crc32Header := 0 } : GptHeader).sameOutside_writeRest
      (writeU32 (h.writeStart buf) 16 0) x (by omega)
    refine Eq.trans ?_ hrest.symm
    rw [writeU32, writeU32, Mem.writeBytes, Mem.writeBytes, if_pos hx, if_pos hx]
  · rw [sameOutside_writeU32 _ 16 0 x (by omega)]
    apply writeRest_congr
    rw [sameOutside_writeU32 _ 16 _ x (by omega)]
    exact (sameOutside_writeU32 (h.writeStart buf) 16 0 x (by omega)).symm

lemma sealed_eq : h.sealed = { h with crc32Header := h.checksum } := rfl

lemma crc32_sealed : crc32 (slice (writeU32 h.sealed.sector 16 0) 92) = h.sealed.crc32Header := by
  have hchecksum : h.checksum = crc32 (slice ({ h with crc32Header := 0 } : GptHeader).sector 92) :=
    by rw [checksum]
  rw [sector, clear_crc, sealed_eq, ← sector]
  -- from here on the checksum is any number, so that nobody computes it
  generalize h.checksum = crc at hchecksum
  exact hchecksum.symm

end GptHeader

end Singularity.Storage.Gpt
