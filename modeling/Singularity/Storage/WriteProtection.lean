import Singularity.Storage.ScatterList

/-!
# Write protection of disks and partitions

Every disk and every partition has a flag of its own, which is set when the device is made. A write
through a partition passes the test of the partition and then that of the driver. `unlockWrite` and
`lockWrite` of `Device` are not virtual, so a call through a pointer to `Device` changes only the
flag of that object; those of `PartitionDevice` also change the flag of the disk. While the kernel
is locked down no flag can be cleared.
-/

namespace Singularity.Storage

open Function List

/-- `DEVICE_MAGIC_UNLOCK`. -/
def deviceMagicUnlock : UInt32 := 0x1337BEEF

/-- A write command that a driver has handed to its hardware. -/
structure Command where
  lba : UInt64
  count : Nat
  deriving DecidableEq

/-- What a write returns, and the commands that it has submitted. -/
structure Written where
  result : UInt32
  commands : List Command
  deriving DecidableEq

/-- The write returns 0 and submits nothing. -/
def Written.refused : Written := ⟨0, []⟩

/-- How the hardware, and the allocations for its commands, answer during one call. -/
structure Hardware where
  prepared : UInt64 → Nat → Bool
  completed : UInt64 → Nat → Bool
  chain : Bool

/-- The drivers of disks; a port of the AHCI controller may have an ATAPI device. -/
inductive Driver where
  | nvme
  | ahci (isAtapi : Bool)
  | virtio
  deriving DecidableEq

namespace Driver

def blockSize : Driver → UInt32
  | .ahci true => 2048
  | _ => 512

/-- The loop of the drivers, one command for each chunk of at most `maxSectors` sectors. -/
def submit (hw : Hardware) (maxSectors : Nat) (lba : UInt64) (count : Nat) : Nat → Nat → Written
  | 0, _ => ⟨1, []⟩
  | rounds + 1, written =>
    let chunk := min maxSectors (count - written)
    let current := lba + UInt64.ofNat written
    if hw.prepared current chunk then
      if hw.completed current chunk then
        let rest := submit hw maxSectors lba count rounds (written + chunk)
        ⟨rest.result, ⟨current, chunk⟩ :: rest.commands⟩
      else ⟨0, [⟨current, chunk⟩]⟩
    else .refused

/-- The common part of the drivers: the DMA guard, then the loop. -/
def guarded (hw : Hardware) (maxSectors : Nat) (lba : UInt64) (count : UInt32) (buffer : UInt64) :
    Written :=
  if dmaGuardValidate [⟨0, buffer, count.toUInt64 * 512⟩] then
    submit hw maxSectors lba count.toNat ((count.toNat + maxSectors - 1) / maxSectors) 0
  else .refused

/-- `NVMeDriver::writeBlock`. -/
def nvmeWriteBlock (writeProtected : Bool) (hw : Hardware) (lba : UInt64) (count : UInt32)
    (buffer : UInt64) : Written :=
  if count = 0 then .refused
  else if writeProtected then .refused
  else guarded hw 2048 lba count buffer

/-- `AHCISubDevice::writeBlock` and `AHCIPort::write`. -/
def ahciWriteBlock (isAtapi writeProtected : Bool) (hw : Hardware) (lba : UInt64) (count : UInt32)
    (buffer : UInt64) : Written :=
  if writeProtected then .refused
  else if isAtapi then .refused
  else guarded hw 1024 lba count buffer

/-- `VirtIODriver::writeBlock`. -/
def virtioWriteBlock (writeProtected : Bool) (hw : Hardware) (lba : UInt64) (count : UInt32)
    (buffer : UInt64) : Written :=
  if writeProtected then .refused else guarded hw 1 lba count buffer

def writeBlock : Driver → Bool → Hardware → UInt64 → UInt32 → UInt64 → Written
  | .nvme => nvmeWriteBlock
  | .ahci isAtapi => ahciWriteBlock isAtapi
  | .virtio => virtioWriteBlock

/-- The loop of `Device::write_vector` over a `writeBlock`. -/
def vectorLoop (blockSize : UInt32) (writeBlock : UInt64 → UInt32 → UInt64 → Written) :
    UInt64 → UInt32 → List IoVec → Written
  | _, total, [] => ⟨total, []⟩
  | currentLba, total, v :: vectors =>
    if v.ragged blockSize then .refused
    else
      let count := v.blocks blockSize
      let w := writeBlock currentLba count v.virtAddr
      if w.result = 1 then
        let rest := vectorLoop blockSize writeBlock (currentLba + count.toUInt64) (total + count)
          vectors
        ⟨rest.result, w.commands ++ rest.commands⟩
      else ⟨0, w.commands⟩

/-- `Device::write_vector`. -/
def deviceWriteVector (driver : Driver) (writeProtected : Bool) (hw : Hardware) (lba : UInt64)
    (vectors : List IoVec) : Written :=
  if writeProtected then .refused
  else vectorLoop driver.blockSize (driver.writeBlock writeProtected hw) lba 0 vectors

/-- `NVMeDriver::write_vector`. -/
def nvmeWriteVector (writeProtected : Bool) (hw : Hardware) (lba : UInt64) (vectors : List IoVec) :
    Written :=
  if writeProtected then .refused
  else if vectors.isEmpty then .refused
  else if !dmaGuardValidate vectors then .refused
  else if !vectors.tail.all IoVec.pageAligned then
    deviceWriteVector .nvme writeProtected hw lba vectors
  else if hw.chain then
    ⟨if hw.completed lba (Disk.commandSectors vectors) then Disk.totalSectors vectors else 0,
      [⟨lba, Disk.commandSectors vectors⟩]⟩
  else .refused

def writeVector : Driver → Bool → Hardware → UInt64 → List IoVec → Written
  | .nvme => nvmeWriteVector
  | driver => deviceWriteVector driver

end Driver

/-- The disk or one of its partitions. -/
inductive Target (ι : Type) where
  | disk
  | part (i : ι)
  deriving DecidableEq

/-- A disk with its partitions and their flags. -/
structure DiskSet (ι : Type) where
  lockdown : Bool
  driver : Driver
  diskProtected : Bool
  parts : ι → PartitionDevice

/-- `unlockWrite` and `lockWrite` through a pointer to `Device`. -/
inductive DeviceCall (ι : Type) where
  | unlockWrite (target : Target ι) (magic : UInt32)
  | lockWrite (target : Target ι)
  deriving DecidableEq

/-- A write to a device; a cached write comes with the answers of the allocator and of the page
tables and with the address of the bounce buffer. -/
inductive WriteCall where
  | block (lba : UInt64) (count : UInt32) (buffer : UInt64)
  | vector (lba : UInt64) (vectors : List IoVec)
  | cachedBlock (lba : UInt64) (count : UInt32) (buffer : UInt64) (bounce : Option UInt64)
      (mapped : Bool)
  | cachedVector (lba : UInt64) (vectors : List IoVec)

/-- The calls of a run. -/
inductive DiskCall (ι : Type) where
  | device (c : DeviceCall ι)
  | unlockPartition (i : ι) (magic : UInt32)
  | lockPartition (i : ι)
  | write (target : Target ι) (c : WriteCall) (hw : Hardware)

variable {ι : Type}

namespace DiskSet

/-- The constructors of `Device` protect disks and partitions. -/
def make (lockdown : Bool) (driver : Driver) (ranges : ι → UInt64 × UInt64) : DiskSet ι where
  lockdown := lockdown
  driver := driver
  diskProtected := true
  parts i := .make (ranges i).1 (ranges i).2 true

def isWriteProtected (s : DiskSet ι) : Target ι → Bool
  | .disk => s.diskProtected
  | .part i => (s.parts i).writeProtected

/-- The virtual `writeBlock` of a device. -/
def writeBlock (s : DiskSet ι) (hw : Hardware) (target : Target ι) (lba : UInt64) (count : UInt32)
    (buffer : UInt64) : Written :=
  match target with
  | .disk => s.driver.writeBlock s.diskProtected hw lba count buffer
  | .part i =>
    if (s.parts i).writeProtected then .refused
    else if (s.parts i).inBounds lba count then
      s.driver.writeBlock s.diskProtected hw ((s.parts i).startLba + lba) count buffer
    else .refused

/-- The virtual `write_vector` of a device. -/
def writeVector (s : DiskSet ι) (hw : Hardware) (target : Target ι) (lba : UInt64)
    (vectors : List IoVec) : Written :=
  match target with
  | .disk => s.driver.writeVector s.diskProtected hw lba vectors
  | .part i =>
    if (s.parts i).writeProtected then .refused
    else if (s.parts i).inBounds lba (PartitionDevice.totalBlocks s.driver.blockSize vectors) then
      s.driver.writeVector s.diskProtected hw ((s.parts i).startLba + lba) vectors
    else .refused

/-- `DiskCache::writeBlock`; the bypass hands the buffer over, the other way at most one sector goes
through a bounce buffer. -/
def cachedWriteBlock (s : DiskSet ι) (hw : Hardware) (target : Target ι) (lba : UInt64)
    (count : UInt32) (buffer : UInt64) (bounce : Option UInt64) (mapped : Bool) : Written :=
  if s.driver.blockSize ≠ 512 ∨ 1 < count ∨ buffer &&& 0x1FF ≠ 0 then
    s.writeBlock hw target lba count buffer
  else if count = 0 then ⟨1, []⟩
  else
    match bounce with
    | none => .refused
    | some bounceBuf =>
      if mapped then
        let w := s.writeBlock hw target lba 1 bounceBuf
        if w.result = 0 then w else ⟨1, w.commands⟩
      else .refused

def write (s : DiskSet ι) (hw : Hardware) (target : Target ι) : WriteCall → Written
  | .block lba count buffer => s.writeBlock hw target lba count buffer
  | .vector lba vectors => s.writeVector hw target lba vectors
  | .cachedBlock lba count buffer bounce mapped =>
    s.cachedWriteBlock hw target lba count buffer bounce mapped
  | .cachedVector lba vectors =>
    if vectors.isEmpty then .refused else s.writeVector hw target lba vectors

variable [DecidableEq ι]

def setProtected (s : DiskSet ι) (flag : Bool) : Target ι → DiskSet ι
  | .disk => { s with diskProtected := flag }
  | .part i =>
    { s with parts := update s.parts i { s.parts i with writeProtected := flag } }

/-- `Device::unlockWrite`. -/
def unlockWrite (s : DiskSet ι) (target : Target ι) (magic : UInt32) : DiskSet ι :=
  if s.lockdown then s
  else if magic = deviceMagicUnlock then s.setProtected false target
  else s

/-- `Device::lockWrite`. -/
def lockWrite (s : DiskSet ι) (target : Target ι) : DiskSet ι := s.setProtected true target

def deviceCall (s : DiskSet ι) : DeviceCall ι → DiskSet ι
  | .unlockWrite target magic => s.unlockWrite target magic
  | .lockWrite target => s.lockWrite target

def deviceCalls (s : DiskSet ι) (calls : List (DeviceCall ι)) : DiskSet ι :=
  calls.foldl deviceCall s

/-- A call with the commands that it submits. `PartitionDevice::unlockWrite` and `lockWrite` also go
to the disk. -/
def call (s : DiskSet ι) : DiskCall ι → DiskSet ι × List Command
  | .device c => (s.deviceCall c, [])
  | .unlockPartition i magic => ((s.unlockWrite (.part i) magic).unlockWrite .disk magic, [])
  | .lockPartition i => ((s.lockWrite (.part i)).lockWrite .disk, [])
  | .write target c hw => (s, (s.write hw target c).commands)

/-- All commands that a sequence of calls submits. -/
def commands (s : DiskSet ι) : List (DiskCall ι) → List Command
  | [] => []
  | c :: calls => (s.call c).2 ++ (s.call c).1.commands calls

end DiskSet

variable {s : DiskSet ι}

section
variable {hw : Hardware}

lemma Driver.writeBlock_of_protected (driver : Driver) (hw : Hardware) (lba : UInt64)
    (count : UInt32) (buffer : UInt64) : driver.writeBlock true hw lba count buffer = .refused := by
  cases driver with
  | nvme =>
    rw [writeBlock, nvmeWriteBlock, if_pos rfl]
    exact ite_self _
  | ahci isAtapi => rfl
  | virtio => rfl

lemma Driver.writeVector_of_protected (driver : Driver) (hw : Hardware) (lba : UInt64)
    (vectors : List IoVec) : driver.writeVector true hw lba vectors = .refused := by
  cases driver <;> rfl

namespace DiskSet

variable {target : Target ι}

lemma writeBlock_of_protected (h : s.isWriteProtected target = true) (lba : UInt64)
    (count : UInt32) (buffer : UInt64) : s.writeBlock hw target lba count buffer = .refused := by
  cases target with
  | disk =>
    rw [isWriteProtected] at h
    rw [writeBlock, h, Driver.writeBlock_of_protected]
  | part i =>
    rw [isWriteProtected] at h
    rw [writeBlock, if_pos h]

lemma writeVector_of_protected (h : s.isWriteProtected target = true) (lba : UInt64)
    (vectors : List IoVec) : s.writeVector hw target lba vectors = .refused := by
  cases target with
  | disk =>
    rw [isWriteProtected] at h
    rw [writeVector, h, Driver.writeVector_of_protected]
  | part i =>
    rw [isWriteProtected] at h
    rw [writeVector, if_pos h]

/-- No write to the device submits a command. -/
def Closed (s : DiskSet ι) (target : Target ι) : Prop :=
  ∀ hw c, (s.write hw target c).commands = []

lemma closed_of_protected (h : s.isWriteProtected target = true) : s.Closed target := by
  intro hw c
  cases c with
  | block lba count buffer => rw [write, writeBlock_of_protected h, Written.refused]
  | vector lba vectors => rw [write, writeVector_of_protected h, Written.refused]
  | cachedBlock lba count buffer bounce mapped =>
    simp only [write, cachedWriteBlock, writeBlock_of_protected h, Written.refused]
    split
    · rfl
    · split
      · rfl
      · cases bounce <;> cases mapped <;> rfl
  | cachedVector lba vectors =>
    rw [write, writeVector_of_protected h, ite_self, Written.refused]

end DiskSet

end

section
variable [DecidableEq ι]

namespace DiskSet

/-- The kernel is locked down, and the disk and all partitions are protected. -/
structure LockedDown (s : DiskSet ι) : Prop where
  lockdown : s.lockdown = true
  isWriteProtected : ∀ target, s.isWriteProtected target = true

lemma LockedDown.unlockWrite (h : LockedDown s) (target : Target ι) (magic : UInt32) :
    s.unlockWrite target magic = s :=
  if_pos h.lockdown

lemma isWriteProtected_setProtected (s : DiskSet ι) (flag : Bool) (target t : Target ι) :
    (s.setProtected flag target).isWriteProtected t =
      if t = target then flag else s.isWriteProtected t := by
  cases target with
  | disk => cases t <;> rfl
  | part i =>
    cases t with
    | disk => rfl
    | part j =>
      simp only [setProtected, isWriteProtected, update_apply, Target.part.injEq]
      split <;> rfl

lemma LockedDown.lockWrite (h : LockedDown s) (target : Target ι) :
    LockedDown (s.lockWrite target) where
  lockdown := by
    cases target <;> exact h.lockdown
  isWriteProtected := by
    intro t
    rw [DiskSet.lockWrite, isWriteProtected_setProtected, h.isWriteProtected, ite_self]

lemma LockedDown.call (h : LockedDown s) (c : DiskCall ι) :
    LockedDown (s.call c).1 ∧ (s.call c).2 = [] := by
  cases c with
  | device c =>
    cases c with
    | unlockWrite target magic =>
      rw [DiskSet.call, deviceCall, h.unlockWrite]
      exact ⟨h, rfl⟩
    | lockWrite target => exact ⟨h.lockWrite target, rfl⟩
  | unlockPartition i magic =>
    rw [DiskSet.call, h.unlockWrite, h.unlockWrite]
    exact ⟨h, rfl⟩
  | lockPartition i => exact ⟨(h.lockWrite (.part i)).lockWrite .disk, rfl⟩
  | write target c hw => exact ⟨h, closed_of_protected (h.isWriteProtected target) hw c⟩

/-- While the kernel is locked down, no calls on a disk and its partitions submit a write. -/
theorem no_command_of_lockdown (driver : Driver) (ranges : ι → UInt64 × UInt64)
    (calls : List (DiskCall ι)) : (make true driver ranges).commands calls = [] := by
  have hmade : LockedDown (make true driver ranges) := ⟨rfl, fun target => by cases target <;> rfl⟩
  generalize make true driver ranges = s at hmade
  induction calls generalizing s with
  | nil => rfl
  | cons c calls ih =>
    obtain ⟨hnext, hcommands⟩ := hmade.call c
    rw [commands, hcommands, ih _ hnext]
    rfl

end DiskSet

end

/-- An unlock with the right magic was not followed by a lock of the same device. -/
def Outstanding (target : Target ι) (calls : List (DeviceCall ι)) : Prop :=
  ∃ front back, calls = front ++ .unlockWrite target deviceMagicUnlock :: back ∧
    .lockWrite target ∉ back

lemma not_outstanding_nil (target : Target ι) : ¬Outstanding target [] := by
  rintro ⟨front, back, h, -⟩
  exact append_ne_nil_of_right_ne_nil _ (cons_ne_nil _ _) h.symm

lemma outstanding_append (target : Target ι) (calls : List (DeviceCall ι)) (c : DeviceCall ι) :
    Outstanding target (calls ++ [c]) ↔
      c = .unlockWrite target deviceMagicUnlock ∨
        c ≠ .lockWrite target ∧ Outstanding target calls := by
  constructor
  · rintro ⟨front, back, h, hback⟩
    obtain rfl | ⟨back, last, rfl⟩ := eq_nil_or_concat back
    · have hlast := append_inj_right' h rfl
      exact .inl (singleton_inj.mp hlast)
    rw [concat_eq_append, ← cons_append, ← append_assoc] at h
    obtain ⟨hfront, hlast⟩ := append_inj' h rfl
    rw [concat_eq_append, mem_append, not_or, mem_singleton] at hback
    rw [singleton_inj] at hlast
    subst hlast
    exact .inr ⟨fun heq => hback.2 heq.symm, front, back, hfront, hback.1⟩
  · rintro (rfl | ⟨hne, front, back, rfl, hback⟩)
    · exact ⟨calls, [], rfl, not_mem_nil⟩
    · refine ⟨front, back ++ [c], by rw [append_assoc, cons_append], ?_⟩
      rw [mem_append, not_or, mem_singleton]
      exact ⟨hback, fun heq => hne heq.symm⟩

namespace DiskSet

/-- What calls through pointers to `Device` leave as it is. -/
structure SameShape (s s' : DiskSet ι) : Prop where
  lockdown : s'.lockdown = s.lockdown
  driver : s'.driver = s.driver
  startLba : ∀ i, (s'.parts i).startLba = (s.parts i).startLba
  sectorCount : ∀ i, (s'.parts i).sectorCount = (s.parts i).sectorCount

lemma sameShape_refl (s : DiskSet ι) : SameShape s s :=
  ⟨rfl, rfl, fun _ => rfl, fun _ => rfl⟩

/-- A write in the range of the partition is what the driver makes of it behind its flag. -/
def Writable (s : DiskSet ι) (i : ι) : Prop :=
  ∀ hw lba count buffer, (s.parts i).inBounds lba count = true →
    s.writeBlock hw (.part i) lba count buffer =
      s.driver.writeBlock false hw ((s.parts i).startLba + lba) count buffer

/-- No write can change the partition: it has no sectors, or the disk is an ATAPI device. -/
def ReadOnly (s : DiskSet ι) (i : ι) : Prop :=
  (s.parts i).sectorCount = 0 ∨ s.driver = .ahci true

variable [DecidableEq ι]

lemma sameShape_setProtected (s : DiskSet ι) (flag : Bool) (target : Target ι) :
    SameShape s (s.setProtected flag target) := by
  cases target with
  | disk => exact ⟨rfl, rfl, fun _ => rfl, fun _ => rfl⟩
  | part j =>
    have hparts (i : ι) : ((s.setProtected flag (.part j)).parts i).startLba =
        (s.parts i).startLba ∧ ((s.setProtected flag (.part j)).parts i).sectorCount =
        (s.parts i).sectorCount := by
      simp only [setProtected, update_apply]
      split_ifs with heq
      · rw [heq]; exact ⟨rfl, rfl⟩
      · exact ⟨rfl, rfl⟩
    exact ⟨rfl, rfl, fun i => (hparts i).1, fun i => (hparts i).2⟩

lemma deviceCall_spec (hs : s.lockdown = false) (c : DeviceCall ι) :
    SameShape s (s.deviceCall c) ∧ ∀ target, (s.deviceCall c).isWriteProtected target = false ↔
      c = .unlockWrite target deviceMagicUnlock ∨
        c ≠ .lockWrite target ∧ s.isWriteProtected target = false := by
  cases c with
  | unlockWrite t magic =>
    rw [deviceCall, unlockWrite, if_neg (by rw [hs]; decide)]
    split_ifs with hmagic
    · refine ⟨sameShape_setProtected s false t, fun target => ?_⟩
      rw [isWriteProtected_setProtected, hmagic, DeviceCall.unlockWrite.injEq]
      by_cases h : target = t
      · simp [h]
      · simp [h, Ne.symm h]
    · refine ⟨sameShape_refl s, fun target => ?_⟩
      simp [hmagic]
  | lockWrite t =>
    refine ⟨sameShape_setProtected s true t, fun target => ?_⟩
    rw [deviceCall, lockWrite, isWriteProtected_setProtected, Ne, DeviceCall.lockWrite.injEq]
    by_cases h : target = t
    · simp [h]
    · simp [h, Ne.symm h]

lemma deviceCalls_spec (driver : Driver) (ranges : ι → UInt64 × UInt64)
    (calls : List (DeviceCall ι)) :
    SameShape (make false driver ranges) ((make false driver ranges).deviceCalls calls) ∧
      ∀ target, ((make false driver ranges).deviceCalls calls).isWriteProtected target = false ↔
        Outstanding target calls := by
  induction calls using List.reverseRecOn with
  | nil =>
    refine ⟨sameShape_refl _, fun target => ?_⟩
    refine iff_of_false ?_ (not_outstanding_nil target)
    cases target <;> exact Bool.noConfusion
  | append_singleton calls c ih =>
    obtain ⟨hshape, hprotected⟩ := ih
    obtain ⟨hstep, hflag⟩ := deviceCall_spec hshape.lockdown c
    rw [deviceCalls, foldl_append]
    refine ⟨⟨hstep.lockdown.trans hshape.lockdown, hstep.driver.trans hshape.driver,
      fun i => (hstep.startLba i).trans (hshape.startLba i),
      fun i => (hstep.sectorCount i).trans (hshape.sectorCount i)⟩, fun target => ?_⟩
    rw [outstanding_append, ← hprotected target]
    exact hflag target

end DiskSet

/-- The hardware that does every command. -/
def Hardware.willing : Hardware := ⟨fun _ _ => true, fun _ _ => true, true⟩

namespace Driver

lemma writeBlock_zero (driver : Driver) (hw : Hardware) (lba buffer : UInt64) :
    driver.writeBlock false hw lba 0 buffer = .refused := by
  have hguarded (n : Nat) : guarded hw n lba 0 buffer = .refused := rfl
  cases driver with
  | nvme => rfl
  | ahci isAtapi =>
    rw [writeBlock, ahciWriteBlock, if_neg (by decide), hguarded, ite_self]
  | virtio => exact hguarded 1

lemma writeBlock_one {driver : Driver} (h : driver ≠ .ahci true) (lba : UInt64) :
    (driver.writeBlock false .willing lba 1 0xFFFF800000200000).result = 1 := by
  cases driver with
  | nvme => rfl
  | ahci isAtapi =>
    cases isAtapi with
    | true => exact absurd rfl h
    | false => rfl
  | virtio => rfl

end Driver

namespace DiskSet

variable {i : ι}

/-- An unprotected partition is writable if and only if its disk is not protected either, or
nothing can be written at all. -/
lemma writable_iff (hpart : s.isWriteProtected (.part i) = false) :
    s.Writable i ↔ s.isWriteProtected .disk = false ∨ s.ReadOnly i := by
  have hpass : ¬(s.parts i).writeProtected = true := by
    rw [isWriteProtected] at hpart
    rw [hpart]
    decide
  constructor
  · intro h
    by_contra hnot
    rw [not_or, Bool.not_eq_false, isWriteProtected] at hnot
    obtain ⟨hdisk, hreadOnly⟩ := hnot
    rw [ReadOnly, not_or] at hreadOnly
    have hcnt : 0 < (s.parts i).sectorCount.toNat :=
      Nat.pos_of_ne_zero fun h0 => hreadOnly.1 (UInt64.toNat_inj.mp h0)
    have hbd : (s.parts i).inBounds 0 1 = true := by
      rwa [PartitionDevice.inBounds_iff]
    have hwrite := h .willing 0 1 0xFFFF800000200000 hbd
    rw [writeBlock, if_neg hpass, if_pos hbd, hdisk, Driver.writeBlock_of_protected] at hwrite
    have hone := Driver.writeBlock_one hreadOnly.2 ((s.parts i).startLba + 0)
    rw [← hwrite] at hone
    exact absurd hone (by decide)
  · intro h hw lba count buffer hbd
    rw [writeBlock, if_neg hpass, if_pos hbd]
    obtain hdisk | hempty | hatapi := h
    · rw [isWriteProtected] at hdisk
      rw [hdisk]
    · rw [PartitionDevice.inBounds_iff, hempty, UInt64.toNat_zero] at hbd
      have h0 : count = 0 := UInt32.toNat_inj.mp (by rw [UInt32.toNat_zero]; omega)
      rw [h0, Driver.writeBlock_zero]
      cases s.diskProtected with
      | false => exact Driver.writeBlock_zero ..
      | true => exact Driver.writeBlock_of_protected ..
    · rw [hatapi]
      cases s.diskProtected <;> rfl

variable [DecidableEq ι]

/-- With lockdown off, after any calls through pointers to `Device`: a partition with an outstanding
unlock is writable if and only if an unlock of the disk itself is outstanding, or nothing can be
written to it at all; a partition without one is closed, and so is the disk if nothing is
outstanding. -/
theorem writable_iff_disk_outstanding (driver : Driver) (ranges : ι → UInt64 × UInt64)
    (calls : List (DeviceCall ι)) (i : ι) :
    (Outstanding (.part i) calls → (((make false driver ranges).deviceCalls calls).Writable i ↔
        Outstanding .disk calls ∨ (make false driver ranges).ReadOnly i)) ∧
    (¬Outstanding (.part i) calls →
      ((make false driver ranges).deviceCalls calls).Closed (.part i)) ∧
    ((∀ target, ¬Outstanding target calls) →
      ((make false driver ranges).deviceCalls calls).Closed .disk) := by
  obtain ⟨hshape, hprotected⟩ := deviceCalls_spec driver ranges calls
  have hclosed {target : Target ι} (h : ¬Outstanding target calls) :
      ((make false driver ranges).deviceCalls calls).Closed target := by
    apply closed_of_protected
    rwa [← Bool.not_eq_false, hprotected]
  refine ⟨fun h => ?_, hclosed, fun h => hclosed (h .disk)⟩
  have hreadOnly : ((make false driver ranges).deviceCalls calls).ReadOnly i ↔
      (make false driver ranges).ReadOnly i := by
    rw [ReadOnly, ReadOnly, hshape.sectorCount, hshape.driver]
  rw [writable_iff ((hprotected _).mpr h), hprotected, hreadOnly]

/-- A partition of an NVMe disk. -/
def onePartition : Unit → UInt64 × UInt64 := fun _ => (2048, 4095)

/-- The disk is unlocked first, as nothing in the kernel does. -/
theorem diskAndPartition_writable :
    ((make false .nvme onePartition).deviceCalls
      [.unlockWrite .disk deviceMagicUnlock, .unlockWrite (.part ()) deviceMagicUnlock]).Writable
        () := by
  refine ((writable_iff_disk_outstanding .nvme onePartition _ ()).1 ?_).mpr (.inl ?_)
  · exact ⟨[.unlockWrite .disk deviceMagicUnlock], [], rfl, not_mem_nil⟩
  · exact ⟨[], [.unlockWrite (.part ()) deviceMagicUnlock], rfl, by decide⟩

/-- `mkfs` unlocks the partition; the driver of the disk still refuses its first write. -/
theorem unlockedPartition_refused :
    Outstanding (.part ()) [.unlockWrite (.part ()) deviceMagicUnlock] ∧
      (((make false .nvme onePartition).deviceCalls
        [.unlockWrite (.part ()) deviceMagicUnlock]).writeBlock .willing (.part ()) 0 1
          0xFFFF800000200000) = .refused ∧
      Driver.writeBlock .nvme false .willing 2048 1 0xFFFF800000200000 = ⟨1, [⟨2048, 1⟩]⟩ := by
  refine ⟨⟨[], [], rfl, not_mem_nil⟩, by decide, by decide⟩

end DiskSet

end Singularity.Storage
