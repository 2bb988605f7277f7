import Singularity.Foundation.Runs
import Singularity.Foundation.Ways
import Singularity.Storage.Partition

/-!
# The disk cache

`DiskCache` keeps single sectors in a set-associative table. A line is named by the device object
and the sector number of a call; a disk and its partitions are different objects, and the vector
calls go past the table. A sector holds the latest write to it, or else its original contents.
Sectors are 512 bytes on every device here.
-/

namespace Singularity.Storage

open Foundation Option Nat

universe u

/-- The original contents of a disk and the writes since, the latest first. -/
structure DiskContents (α : Type u) where
  sectors : Nat
  capacity : sectors * 512 < 2 ^ 64
  original : Nat → α
  writes : List (Nat × α)

variable {α : Type u}

namespace DiskContents

variable (d : DiskContents α)

/-- The latest write to a sector, or its original contents. -/
def read (sector : Nat) : α :=
  ((d.writes.find? fun w => decide (w.1 = sector)).map Prod.snd).getD (d.original sector)

def writeSectors (start : Nat) (data : Nat → α) : Nat → DiskContents α
  | 0 => d
  | count + 1 =>
    let before := writeSectors start data count
    { before with writes := (start + count, data count) :: before.writes }

lemma read_writeSectors (start : Nat) (data : Nat → α) (count sector : Nat) :
    (d.writeSectors start data count).read sector =
      if start ≤ sector ∧ sector < start + count then data (sector - start)
      else d.read sector := by
  induction count with
  | zero => rw [if_neg (by omega), writeSectors]
  | succ count ih =>
    rw [writeSectors, read, List.find?_cons]
    by_cases hlast : start + count = sector
    · subst hlast
      rw [if_pos (by omega)]
      simp
    · simp only [hlast, decide_false]
      rw [← read, ih]
      by_cases hin : start ≤ sector ∧ sector < start + count
      · rw [if_pos hin, if_pos (by omega)]
      · rw [if_neg hin, if_neg (by omega)]

end DiskContents

/-- The disk, or one of its partitions. -/
inductive DeviceKind where
  | disk (writeProtected : Bool)
  | partition (p : PartitionDevice)

variable {lba : UInt64}

namespace DeviceKind

/-- The sector of the disk that a sector of the device is. -/
def sector : DeviceKind → UInt64 → Nat
  | .disk _, lba => lba.toNat
  | .partition p, lba => (p.startLba + lba).toNat

/-- The place on the disk of a block call that succeeds. -/
def locate (kind : DeviceKind) (sectors : Nat) (lba : UInt64) (count : UInt32) : Option Nat :=
  match kind with
  | .disk _ => if lba.toNat + count.toNat ≤ sectors then some lba.toNat else none
  | .partition p =>
    if p.inBounds lba count ∧ (p.startLba + lba).toNat + count.toNat ≤ sectors then
      some (p.startLba + lba).toNat
    else none

def writeProtected : DeviceKind → Bool
  | .disk locked => locked
  | .partition p => p.writeProtected

lemma sector_of_locate {kind : DeviceKind} {sectors start : Nat} {count : UInt32}
    (h : kind.locate sectors lba count = some start) :
    start = kind.sector lba ∧ start + count.toNat ≤ sectors := by
  cases kind with
  | disk locked =>
    simp only [locate, ite_none_right_eq_some, Option.some.injEq] at h
    exact ⟨h.2.symm, h.2 ▸ h.1⟩
  | partition p =>
    simp only [locate, ite_none_right_eq_some, Option.some.injEq] at h
    exact ⟨h.2.symm, h.2 ▸ h.1.2⟩

lemma eq_add_of_sector (kind : DeviceKind) (h : kind.sector lba' = kind.sector lba + i) :
    lba' = lba + UInt64.ofNat i := by
  have hlt := lba'.toNat_lt
  cases kind with
  | disk locked =>
    apply UInt64.toNat_inj.mp
    simp only [sector] at h
    rw [UInt64.toNat_add, UInt64.toNat_ofNat', add_mod_mod, ← h, mod_eq_of_lt hlt]
  | partition p =>
    have hlt' := (p.startLba + lba').toNat_lt
    have hsum : p.startLba + lba' = p.startLba + (lba + UInt64.ofNat i) := by
      apply UInt64.toNat_inj.mp
      simp only [sector] at h
      rw [← UInt64.add_assoc, UInt64.toNat_add (p.startLba + lba), UInt64.toNat_ofNat',
        add_mod_mod, ← h, mod_eq_of_lt hlt']
    exact (UInt64.add_right_inj _).mp hsum

end DeviceKind

/-- One step of the hash: a byte is mixed in. -/
def hashByte (hash : UInt32) (value : UInt64) : UInt32 :=
  (hash ^^^ (value &&& 0xFF).toUInt32) * 16777619

def hashBytes : Nat → UInt32 → UInt64 → UInt32
  | 0, hash, _ => hash
  | n + 1, hash, value => hashBytes n (hashByte hash value) (value >>> 8)

/-- `DiskCache::hash`, with the address of the device object. -/
def hash (key : UInt64 × UInt64) : Fin 256 :=
  Fin.ofNat 256 (hashBytes 8 (hashBytes 8 2166136261 key.1) key.2).toNat

/-- The cache and the disk below it. -/
structure DiskCache (α : Type u) where
  contents : DiskContents α
  lines : WayTable (Fin 256) 4 (UInt64 × UInt64) α

/-- What a call meets: the clock, and whether there is a mapping and memory for a bounce buffer. -/
structure CallEnv where
  now : Nat
  mapped : Bool
  bounce : Bool

/-- The calls, with the device object they are given. The data of a write are given by sector. -/
inductive CacheCall (α : Type u) where
  | readBlock (dev lba : UInt64) (count : UInt32) (buffer : UInt64) (env : CallEnv)
  | writeBlock (dev lba : UInt64) (count : UInt32) (buffer : UInt64) (data : Nat → α)
      (env : CallEnv)
  | readVector (dev lba : UInt64) (vectors : List IoVec)
  | writeVector (dev lba : UInt64) (vectors : List (IoVec × (Nat → α)))
  | invalidateDevice (dev : UInt64)

namespace DiskCache

variable (devices : UInt64 → DeviceKind) (s : DiskCache α) {contents : DiskContents α}

/-- The device's own `readBlock`. -/
def deviceRead (dev lba : UInt64) (count : UInt32) : Option (List α) :=
  ((devices dev).locate s.contents.sectors lba count).map fun start =>
    (List.range count.toNat).map fun i => s.contents.read (start + i)

/-- The device's own `writeBlock`. -/
def deviceWrite (dev lba : UInt64) (count : UInt32) (data : Nat → α) : Option (DiskContents α) :=
  if (devices dev).writeProtected then none
  else
    ((devices dev).locate s.contents.sectors lba count).map fun start =>
      s.contents.writeSectors start data count.toNat

instance neZeroWays : NeZero 4 := ⟨by decide⟩

/-- The way of a set to be replaced. -/
def victimWay (set : Fin 256) : Fin 4 :=
  WayTable.victimLoop (s.lines set) (List.finRange 4) 0 (2 ^ 64 - 1)

/-- A sector gets into the table in place of another one. -/
def insert (key : UInt64 × UInt64) (data : α) (now : Nat) :
    WayTable (Fin 256) 4 (UInt64 × UInt64) α :=
  s.lines.put (hash key) (s.victimWay (hash key)) ⟨key, data, true, now⟩

/-- The test with which calls go past the table. -/
def bypasses (count : UInt32) (buffer : UInt64) : Bool :=
  decide (1 < count) || decide (buffer &&& 0x1FF ≠ 0)

/-- `DiskCache::readBlock`; `none` is the result 0. The loop has no more than one round, since a
call for more sectors goes past the table. -/
def readBlock (dev lba : UInt64) (count : UInt32) (buffer : UInt64) (env : CallEnv) :
    Option (List α) × DiskCache α :=
  if bypasses count buffer then (s.deviceRead devices dev lba count, s)
  else if count = 0 then (some [], s)
  else
    let set := hash (dev, lba)
    match s.lines.lookup set (dev, lba) with
    | some way =>
      let line := s.lines set way
      let s' := { s with lines := s.lines.put set way { line with lastAccess := env.now } }
      if env.mapped then (some [line.data], s') else (none, s')
    | none =>
      if env.bounce then
        match (devices dev).locate s.contents.sectors lba 1 with
        | none => (none, s)
        | some start =>
          let data := s.contents.read start
          if env.mapped then
            (some [data], { s with lines := s.insert (dev, lba) data env.now })
          else (none, s)
      else (none, s)

/-- The invalidation of sectors that are written past the table. -/
def dropLoop (dev lba : UInt64) (lines : WayTable (Fin 256) 4 (UInt64 × UInt64) α) :
    Nat → WayTable (Fin 256) 4 (UInt64 × UInt64) α
  | 0 => lines
  | i + 1 =>
    let key := (dev, lba + UInt64.ofNat i)
    (dropLoop dev lba lines i).dropIn (hash key) fun k => decide (k = key)

/-- `DiskCache::writeBlock`; a result `some []` stands for 1. -/
def writeBlock (dev lba : UInt64) (count : UInt32) (buffer : UInt64) (data : Nat → α)
    (env : CallEnv) : Option (List α) × DiskCache α :=
  if bypasses count buffer then
    let s' := { s with lines := dropLoop dev lba s.lines count.toNat }
    match s.deviceWrite devices dev lba count data with
    | none => (none, s')
    | some contents => (some [], { s' with contents })
  else if count = 0 then (some [], s)
  else if env.bounce && env.mapped then
    match s.deviceWrite devices dev lba 1 data with
    | none => (none, s)
    | some contents =>
      let set := hash (dev, lba)
      match s.lines.lookup set (dev, lba) with
      | some way =>
        let line := { s.lines set way with
          lastAccess := env.now
          data := data 0 }
        (some [], { contents, lines := s.lines.put set way line })
      | none => (some [], { contents, lines := s.insert (dev, lba) (data 0) env.now })
  else (none, s)

/-- The loop of `Device::read_vector` on the disk. -/
def readVectorLoop (contents : DiskContents α) : UInt64 → List IoVec → Option (List α)
  | _, [] => some []
  | lba, v :: vectors =>
    if v.ragged 512 ∨ contents.sectors < lba.toNat + (v.blocks 512).toNat then none
    else
      (readVectorLoop contents (lba + (v.blocks 512).toUInt64) vectors).map fun rest =>
        (List.range (v.blocks 512).toNat).map (fun i => contents.read (lba.toNat + i)) ++ rest

/-- The loop of `Device::write_vector` on the disk; it may fail half way. -/
def writeVectorLoop (contents : DiskContents α) :
    UInt64 → List (IoVec × (Nat → α)) → Bool × DiskContents α
  | _, [] => (true, contents)
  | lba, (v, data) :: vectors =>
    if v.ragged 512 ∨ contents.sectors < lba.toNat + (v.blocks 512).toNat then (false, contents)
    else
      writeVectorLoop (contents.writeSectors lba.toNat data (v.blocks 512).toNat)
        (lba + (v.blocks 512).toUInt64) vectors

/-- The address at which a vector call reaches the disk. -/
def vectorStart (kind : DeviceKind) (lba : UInt64) (vectors : List IoVec) : Option UInt64 :=
  match kind with
  | .disk _ => some lba
  | .partition p =>
    if p.inBounds lba (PartitionDevice.totalBlocks 512 vectors) then some (p.startLba + lba)
    else none

/-- `DiskCache::readVector`. -/
def readVector (dev lba : UInt64) (vectors : List IoVec) : Option (List α) × DiskCache α :=
  if vectors.isEmpty then (none, s)
  else
    match vectorStart (devices dev) lba vectors with
    | none => (none, s)
    | some start => (readVectorLoop s.contents start vectors, s)

/-- `DiskCache::writeVector`. -/
def writeVector (dev lba : UInt64) (vectors : List (IoVec × (Nat → α))) :
    Option (List α) × DiskCache α :=
  if vectors.isEmpty || (devices dev).writeProtected then (none, s)
  else
    match vectorStart (devices dev) lba (vectors.map Prod.fst) with
    | none => (none, s)
    | some start =>
      let written := writeVectorLoop s.contents start vectors
      (if written.1 then some [] else none, { s with contents := written.2 })

/-- `DiskCache::invalidateDevice`. -/
def invalidateDevice (dev : UInt64) : DiskCache α :=
  { s with lines := fun set => s.lines.dropIn set (fun k => decide (k.1 = dev)) set }

def call : CacheCall α → Option (List α) × DiskCache α
  | .readBlock dev lba count buffer env => s.readBlock devices dev lba count buffer env
  | .writeBlock dev lba count buffer data env => s.writeBlock devices dev lba count buffer data env
  | .readVector dev lba vectors => s.readVector devices dev lba vectors
  | .writeVector dev lba vectors => s.writeVector devices dev lba vectors
  | .invalidateDevice dev => (none, s.invalidateDevice dev)

/-- The sectors of the disk from the given one on. -/
def sectorsFrom (start count : Nat) : List α :=
  (List.range count).map fun i => s.contents.read (start + i)

/-- A read that succeeds returns what the sectors hold. -/
def ReadsBack : CacheCall α → Prop
  | .readBlock dev lba count buffer env => ∀ found,
      (s.readBlock devices dev lba count buffer env).1 = some found →
        found = s.sectorsFrom ((devices dev).sector lba) count.toNat
  | .readVector dev lba vectors => ∀ found,
      (s.readVector devices dev lba vectors).1 = some found →
        found = s.sectorsFrom ((devices dev).sector lba) (Disk.wholeBlocks 512 vectors)
  | _ => True

/-- What is written is in the table under no other name than that of the call. -/
def Meets : CacheCall α → Prop
  | .writeBlock dev lba count _ _ _ => ∀ set way key, s.lines.HoldsAt set way key →
      (devices dev).sector lba ≤ (devices key.1).sector key.2 →
      (devices key.1).sector key.2 < (devices dev).sector lba + count.toNat → key.1 = dev
  | .writeVector dev lba vectors => ∀ set way key, s.lines.HoldsAt set way key →
      ¬((devices dev).sector lba ≤ (devices key.1).sector key.2 ∧
        (devices key.1).sector key.2 < (devices dev).sector lba +
          Disk.wholeBlocks 512 (vectors.map Prod.fst))
  | _ => True

/-- The lines stand where they are looked for and hold what the sectors hold. -/
structure Coherent : Prop where
  sound : s.lines.Sound hash
  mirrors : s.lines.Mirrors fun key => s.contents.read ((devices key.1).sector key.2)

section
variable {devices s} {key : UInt64 × UInt64} (h : s.Coherent devices) {way : Fin 4}
include h

section
variable
  (hothers : ∀ set way k, s.lines.HoldsAt set way k → k ≠ key →
    contents.read ((devices k.1).sector k.2) = s.contents.read ((devices k.1).sector k.2))
include hothers

lemma Coherent.insert (hmiss : s.lines.lookup (hash key) key = none)
    (hdata : data = contents.read ((devices key.1).sector key.2)) (now : Nat) :
    Coherent devices { contents, lines := s.insert key data now } where
  sound := h.sound.put rfl fun i j hholds => absurd hholds (h.sound.not_holdsAt hmiss i j)
  mirrors := by
    refine h.mirrors.put hdata fun i j k hholds _ => hothers i j k hholds ?_
    rintro rfl
    exact h.sound.not_holdsAt hmiss i j hholds

lemma Coherent.overwrite (hhit : s.lines.lookup (hash key) key = some way) (hkey : line.key = key)
    (hdata : line.data = contents.read ((devices key.1).sector key.2)) :
    Coherent devices { contents, lines := s.lines.put (hash key) way line } where
  sound := by
    refine h.sound.put (congrArg hash hkey) fun i j hholds => ?_
    rw [hkey] at hholds
    exact h.sound.eq_of_lookup hhit hholds
  mirrors := by
    refine h.mirrors.put ?_ fun i j k hholds hne => hothers i j k hholds ?_
    · rwa [hkey]
    · rintro rfl
      obtain ⟨hi, hj⟩ := h.sound.eq_of_lookup hhit hholds
      exact hne.elim (absurd hi) (absurd hj)

end

lemma Coherent.dropLoop (dev lba : UInt64) (count : Nat) :
    Coherent devices { s with lines := dropLoop dev lba s.lines count } := by
  induction count with
  | zero => exact h
  | succ count ih =>
    let key := (dev, lba + UInt64.ofNat count)
    exact ⟨ih.sound.dropIn (hash key) fun k => decide (k = key),
      ih.mirrors.dropIn (hash key) fun k => decide (k = key)⟩

lemma holdsAt_of_dropLoop {dev lba : UInt64} {count : Nat} {set : Fin 256}
    (hholds : (DiskCache.dropLoop dev lba s.lines count).HoldsAt set way key) :
    s.lines.HoldsAt set way key ∧ ∀ i, i < count → key ≠ (dev, lba + UInt64.ofNat i) := by
  induction count with
  | zero => exact ⟨hholds, fun i hi => absurd hi (Nat.not_lt_zero i)⟩
  | succ count ih =>
    obtain ⟨hbefore, hset⟩ := WayTable.holdsAt_dropIn.mp hholds
    obtain ⟨hfirst, hne⟩ := ih hbefore
    refine ⟨hfirst, fun i hi heq => ?_⟩
    obtain hlt | rfl := Nat.lt_succ_iff_lt_or_eq.mp hi
    · exact hne i hlt heq
    have hplaced := h.sound.placed set way key hfirst
    have hkept := hset (by rw [← hplaced, heq])
    rw [decide_eq_false_iff_not] at hkept
    exact hkept heq

end

lemma toNat_next {v : IoVec} (hrange : ¬contents.sectors < lba.toNat + (v.blocks 512).toNat) :
    (lba + (v.blocks 512).toUInt64).toNat = lba.toNat + (v.blocks 512).toNat := by
  have hcapacity := contents.capacity
  rw [UInt64.toNat_add, UInt32.toNat_toUInt64]
  omega

lemma readVectorLoop_eq {vectors : List IoVec} {found : List α}
    (h : readVectorLoop contents lba vectors = some found) :
    found = (List.range (Disk.wholeBlocks 512 vectors)).map fun i =>
      contents.read (lba.toNat + i) := by
  induction vectors generalizing lba found with
  | nil =>
    cases h
    rfl
  | cons v vectors ih =>
    simp only [readVectorLoop, ite_none_left_eq_some, not_or] at h
    obtain ⟨⟨hragged, hrange⟩, h⟩ := h
    obtain ⟨rest, hrest, rfl⟩ := map_eq_some_iff.mp h
    rw [ih hrest, toNat_next hrange, Disk.wholeBlocks, if_neg hragged, List.range_add,
      List.map_append, List.map_map]
    simp only [Function.comp_def, Nat.add_assoc]

lemma read_writeVectorLoop {vectors : List (IoVec × (Nat → α))} {sector : Nat}
    (hout : ¬(lba.toNat ≤ sector ∧
      sector < lba.toNat + Disk.wholeBlocks 512 (vectors.map Prod.fst))) :
    (writeVectorLoop contents lba vectors).2.read sector = contents.read sector := by
  induction vectors generalizing contents lba with
  | nil => rfl
  | cons v vectors ih =>
    obtain ⟨v, data⟩ := v
    simp only [writeVectorLoop]
    split
    · rfl
    case isFalse hrange =>
      rw [not_or] at hrange
      rw [List.map_cons, Disk.wholeBlocks, if_neg hrange.1] at hout
      dsimp only at hout
      rw [ih, DiskContents.read_writeSectors, if_neg (by omega)]
      rw [toNat_next hrange.2]
      omega

lemma toNat_vectorStart (h : vectorStart kind lba vectors = some start) :
    start.toNat = kind.sector lba := by
  cases kind with
  | disk locked =>
    cases h
    rfl
  | partition p =>
    simp only [vectorStart, ite_none_right_eq_some, Option.some.injEq] at h
    rw [← h.2]
    rfl

section
variable {devices s} {count : UInt32} {dev buffer : UInt64} {env : CallEnv}

lemma eq_one_of_cached (hcached : ¬bypasses count buffer = true) (h0 : ¬count = 0) : count = 1 := by
  simp only [bypasses, Bool.or_eq_true, decide_eq_true_eq, not_or, UInt32.lt_iff_toNat_lt]
    at hcached
  have hne : count.toNat ≠ 0 := fun heq => h0 (UInt32.toNat_inj.mp heq)
  apply UInt32.toNat_inj.mp
  have hone : (1 : UInt32).toNat = 1 := rfl
  omega

lemma Coherent.readBlock (h : s.Coherent devices) (dev lba : UInt64) (count : UInt32)
    (buffer : UInt64) (env : CallEnv) :
    s.ReadsBack devices (.readBlock dev lba count buffer env) ∧
      Coherent devices (s.readBlock devices dev lba count buffer env).2 := by
  simp only [ReadsBack, DiskCache.readBlock]
  split
  · refine ⟨fun found hfound => ?_, h⟩
    obtain ⟨start, hstart, rfl⟩ := map_eq_some_iff.mp hfound
    rw [(DeviceKind.sector_of_locate hstart).1]
    rfl
  case isFalse hcached =>
    split
    case isTrue h0 =>
      refine ⟨fun found hfound => ?_, h⟩
      cases hfound
      rw [h0]
      rfl
    case isFalse h0 =>
      rw [eq_one_of_cached hcached h0]
      have hsector : s.sectorsFrom ((devices dev).sector lba) 1 =
          [s.contents.read ((devices dev).sector lba)] := rfl
      split
      case h_1 way hhit =>
        have hholds := WayTable.holdsAt_of_lookup hhit
        have hdata := h.mirrors _ _ _ hholds
        have htouched : Coherent devices { s with
            lines := s.lines.put (hash (dev, lba)) way
              { s.lines (hash (dev, lba)) way with lastAccess := env.now } } :=
          h.overwrite (fun _ _ _ _ _ => rfl) hhit hholds.2 hdata
        split
        · refine ⟨fun found hfound => ?_, htouched⟩
          cases hfound
          rw [hdata]
          exact hsector.symm
        · exact ⟨nofun, htouched⟩
      case h_2 hmiss =>
        split
        · split
          · exact ⟨nofun, h⟩
          case h_2 start hstart =>
            rw [(DeviceKind.sector_of_locate hstart).1]
            split
            · refine ⟨fun found hfound => ?_, h.insert (fun _ _ _ _ _ => rfl) hmiss rfl env.now⟩
              cases hfound
              exact hsector.symm
            · exact ⟨nofun, h⟩
        · exact ⟨nofun, h⟩

lemma read_deviceWrite {data : Nat → α} {contents : DiskContents α}
    (hwrite : s.deviceWrite devices dev lba count data = some contents) (sector : Nat) :
    contents.read sector =
      if (devices dev).sector lba ≤ sector ∧ sector < (devices dev).sector lba + count.toNat then
        data (sector - (devices dev).sector lba)
      else s.contents.read sector := by
  simp only [deviceWrite, ite_none_left_eq_some] at hwrite
  obtain ⟨start, hstart, rfl⟩ := map_eq_some_iff.mp hwrite.2
  rw [(DeviceKind.sector_of_locate hstart).1]
  exact DiskContents.read_writeSectors ..

lemma key_of_meets {data : Nat → α}
    (hmeets : s.Meets devices (.writeBlock dev lba count buffer data env))
    {set : Fin 256} {way : Fin 4} {key : UInt64 × UInt64} (hholds : s.lines.HoldsAt set way key)
    (hlow : (devices dev).sector lba ≤ (devices key.1).sector key.2)
    (hhigh : (devices key.1).sector key.2 < (devices dev).sector lba + count.toNat) :
    ∃ i, i < count.toNat ∧ key = (dev, lba + UInt64.ofNat i) := by
  obtain ⟨dev', lba'⟩ := key
  have hdev : dev' = dev := hmeets set way _ hholds hlow hhigh
  subst hdev
  dsimp only at hlow hhigh
  refine ⟨(devices dev').sector lba' - (devices dev').sector lba, by omega, ?_⟩
  rw [Prod.mk.injEq]
  exact ⟨rfl, (devices dev').eq_add_of_sector (by omega)⟩

section
variable (h : s.Coherent devices)
include h

lemma Coherent.writeBlock {data : Nat → α}
    (hmeets : s.Meets devices (.writeBlock dev lba count buffer data env)) :
    Coherent devices (s.writeBlock devices dev lba count buffer data env).2 := by
  simp only [DiskCache.writeBlock]
  split
  · have hdropped := h.dropLoop dev lba count.toNat
    split
    · exact hdropped
    case h_2 contents hwrite =>
      refine ⟨hdropped.sound, fun set way key hholds => ?_⟩
      obtain ⟨hbefore, hne⟩ := holdsAt_of_dropLoop h hholds
      rw [hdropped.mirrors set way key hholds]
      dsimp only
      rw [read_deviceWrite hwrite, if_neg]
      rintro ⟨hlow, hhigh⟩
      obtain ⟨i, hi, hkey⟩ := key_of_meets hmeets hbefore hlow hhigh
      exact hne i hi hkey
  case isFalse hcached =>
    split
    · exact h
    case isFalse h0 =>
      have hone := eq_one_of_cached hcached h0
      subst hone
      split
      · split
        · exact h
        case h_2 contents hwrite =>
          have hdata : data 0 = contents.read ((devices dev).sector lba) := by
            rw [read_deviceWrite hwrite, if_pos ⟨le_rfl, lt_succ_self _⟩, Nat.sub_self]
          have hothers (set : Fin 256) (way : Fin 4) (k : UInt64 × UInt64)
              (hholds : s.lines.HoldsAt set way k) (hne : k ≠ (dev, lba)) :
              contents.read ((devices k.1).sector k.2) =
                s.contents.read ((devices k.1).sector k.2) := by
            rw [read_deviceWrite hwrite, if_neg]
            rintro ⟨hlow, hhigh⟩
            obtain ⟨i, hi, hkey⟩ := key_of_meets hmeets hholds hlow hhigh
            have h0 : i = 0 := lt_one_iff.mp hi
            subst h0
            exact hne (by rw [hkey]; simp)
          split
          case h_1 way hhit =>
            exact h.overwrite hothers hhit (WayTable.holdsAt_of_lookup hhit).2 hdata
          case h_2 hmiss => exact h.insert hothers hmiss hdata env.now
      · exact h

lemma Coherent.readVector (dev lba : UInt64) (vectors : List IoVec) :
    s.ReadsBack devices (.readVector dev lba vectors) ∧
      Coherent devices (s.readVector devices dev lba vectors).2 := by
  simp only [ReadsBack, DiskCache.readVector]
  split
  · exact ⟨nofun, h⟩
  · split
    · exact ⟨nofun, h⟩
    case h_2 start hstart =>
      refine ⟨fun found hfound => ?_, h⟩
      rw [readVectorLoop_eq hfound, toNat_vectorStart hstart]
      rfl

lemma Coherent.writeVector (hmeets : s.Meets devices (.writeVector dev lba vectors)) :
    Coherent devices (s.writeVector devices dev lba vectors).2 := by
  simp only [DiskCache.writeVector]
  split
  · exact h
  · split
    · exact h
    case h_2 start hstart =>
      refine ⟨h.sound, fun set way key hholds => ?_⟩
      dsimp only
      rw [read_writeVectorLoop]
      · exact h.mirrors set way key hholds
      · rw [toNat_vectorStart hstart]
        exact hmeets set way key hholds

lemma Coherent.invalidateDevice (dev : UInt64) : Coherent devices (s.invalidateDevice dev) := by
  have hbefore {set : Fin 256} {way : Fin 4} {key : UInt64 × UInt64}
      (hholds : (s.invalidateDevice dev).lines.HoldsAt set way key) :
      s.lines.HoldsAt set way key := (WayTable.holdsAt_dropIn.mp hholds).1
  refine ⟨⟨fun i j k hk => h.sound.placed i j k (hbefore hk),
    fun i j j' k hk hk' => h.sound.unique i j j' k (hbefore hk) (hbefore hk')⟩, ?_⟩
  intro i j k hk
  exact WayTable.data_dropIn.trans (h.mirrors i j k (hbefore hk))

lemma Coherent.call (hmeets : s.Meets devices c) : Coherent devices (s.call devices c).2 := by
  cases c with
  | readBlock dev lba count buffer env => exact (h.readBlock dev lba count buffer env).2
  | writeBlock dev lba count buffer data env => exact h.writeBlock hmeets
  | readVector dev lba vectors => exact (h.readVector dev lba vectors).2
  | writeVector dev lba vectors => exact h.writeVector hmeets
  | invalidateDevice dev => exact h.invalidateDevice dev

lemma Coherent.readsBack (c : CacheCall α) : s.ReadsBack devices c := by
  cases c with
  | readBlock dev lba count buffer env => exact (h.readBlock dev lba count buffer env).1
  | readVector dev lba vectors => exact (h.readVector dev lba vectors).1
  | writeBlock | writeVector | invalidateDevice => trivial

end

/-- `DiskCache::init`: there is nothing in the table. -/
def Initial (s : DiskCache α) : Prop := ∀ set way, (s.lines set way).valid = false

lemma Initial.coherent (hinit : s.Initial) : s.Coherent devices := by
  have hnone {set : Fin 256} {way : Fin 4} {key : UInt64 × UInt64}
      (hholds : s.lines.HoldsAt set way key) : False := by
    cases (hinit set way).symm.trans hholds.1
  exact ⟨⟨fun _ _ _ h => (hnone h).elim, fun _ _ _ _ h => (hnone h).elim⟩,
    fun _ _ _ h => (hnone h).elim⟩

/-- Every read in a run returns what was written last, if no sector is written that is in the
table under another name. -/
theorem readsBack_of_run {s₀ : DiskCache α} {calls : List (CacheCall α)} (hinit : s₀.Initial)
    (run : Run (fun s c s' => Meets devices s c ∧ (s.call devices c).2 = s') s₀ calls s)
    (c : CacheCall α) : s.ReadsBack devices c := by
  have hcoherent : s.Coherent devices := by
    refine run.invariant (I := fun s => s.Coherent devices) ?_ hinit.coherent
    rintro s c s' h ⟨hmeets, rfl⟩
    exact h.call hmeets
  exact hcoherent.readsBack c

end

/-- The device at address 1 is a partition that starts at sector 4, the others are the disk. -/
def smallDevices (dev : UInt64) : DeviceKind :=
  if dev = 1 then .partition (.make 4 7 false) else .disk false

/-- A disk of eight sectors, all of which hold 0, and an empty table. -/
def emptyCache : DiskCache Nat where
  contents := ⟨8, by decide, fun _ => 0, []⟩
  lines _ _ := ⟨(0, 0), 0, false, 0⟩

lemma emptyCache_initial : emptyCache.Initial := fun _ _ => rfl

/-- The sector 5 is read, written and read through the partition. -/
theorem samePartition_readsBack :
    ∃ s, Run (fun s c s' => Meets smallDevices s c ∧ (s.call smallDevices c).2 = s') emptyCache
        [.readBlock 1 1 1 0 ⟨0, true, true⟩, .writeBlock 1 1 1 0 (fun _ => 9) ⟨1, true, true⟩] s ∧
      s.contents.read 5 = 9 ∧ s.ReadsBack smallDevices (.readBlock 1 1 1 0 ⟨2, true, true⟩) := by
  have hread : (emptyCache.call smallDevices (.readBlock 1 1 1 0 ⟨0, true, true⟩)).2.lines =
      emptyCache.insert (1, 1) 0 0 := rfl
  have hmeets : Meets smallDevices
      (emptyCache.call smallDevices (.readBlock 1 1 1 0 ⟨0, true, true⟩)).2
      (.writeBlock 1 1 1 0 (fun _ => 9) ⟨1, true, true⟩) := by
    intro set way key hholds _ _
    rw [hread] at hholds
    obtain ⟨-, -, -, rfl⟩ | ⟨-, hbefore⟩ := hholds.of_put
    · rfl
    · cases hbefore.1
  have run : Run (fun s c s' => Meets smallDevices s c ∧ (s.call smallDevices c).2 = s') emptyCache
      [.readBlock 1 1 1 0 ⟨0, true, true⟩, .writeBlock 1 1 1 0 (fun _ => 9) ⟨1, true, true⟩] _ :=
    .cons ⟨trivial, rfl⟩ <| .cons ⟨hmeets, rfl⟩ <| .nil _
  exact ⟨_, run, by decide +kernel, readsBack_of_run emptyCache_initial run _⟩

/-- The sector 5 is read through the disk. It is written through the partition, or with a vector
call, and the disk still shows what it held before. -/
theorem otherName_and_vector_not_readsBack :
    (∃ s, Run (fun s c s' => (s.call smallDevices c).2 = s') emptyCache
        [.readBlock 2 5 1 0 ⟨0, true, true⟩, .writeBlock 1 1 1 0 (fun _ => 9) ⟨1, true, true⟩] s ∧
      ¬s.ReadsBack smallDevices (.readBlock 2 5 1 0 ⟨2, true, true⟩)) ∧
    ∃ s, Run (fun s c s' => (s.call smallDevices c).2 = s') emptyCache
        [.readBlock 2 5 1 0 ⟨0, true, true⟩, .writeVector 2 5 [(⟨0, 0, 512⟩, fun _ => 9)]] s ∧
      ¬s.ReadsBack smallDevices (.readBlock 2 5 1 0 ⟨2, true, true⟩) := by
  constructor
  all_goals
    refine ⟨_, .cons rfl <| .cons rfl <| .nil _, fun hback => ?_⟩
    exact absurd (hback [0] (by decide +kernel)) (by decide +kernel)

end DiskCache

end Singularity.Storage
