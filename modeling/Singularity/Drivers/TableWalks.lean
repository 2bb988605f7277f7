import Singularity.Foundation.Walks

/-!
# Walks of hardware tables

The walks follow offsets of the configuration space or the lengths in the SRAT, as device and
firmware have them. What a pass notes down does not change where the walk goes and is left out.
The conditions for their end are about the bytes: next pointers that form no cycle, and subtables
that are not empty.
-/

namespace Singularity.Drivers

open Foundation Relation

/-- The configuration space of a device, reached by ECAM or by the legacy ports. -/
structure ConfigSpace where
  byte : Nat → UInt8
  legacy : Bool

namespace ConfigSpace

def readByte (c : ConfigSpace) (offset : Nat) : UInt8 :=
  if c.legacy ∧ 256 ≤ offset then 0xFF else c.byte offset

def readWord (c : ConfigSpace) (offset : Nat) : Nat :=
  if c.legacy ∧ 256 ≤ offset then 0xFFFF
  else
    let offset := if c.legacy then offset / 2 * 2 else offset
    (c.byte offset).toNat + 256 * (c.byte (offset + 1)).toNat

/-- Bit 4 of the status: there is a list of capabilities. -/
def hasCapabilities (c : ConfigSpace) : Bool := (c.readWord 0x06).testBit 4

/-- `PcieDevice::wakeup` stops at the power management capability. -/
def wakeup (c : ConfigSpace) (capPtr : UInt8) : Option UInt8 :=
  let capReg := c.readWord capPtr.toNat
  if capPtr = 0 ∨ capReg % 256 = 0x01 then none else some (.ofNat (capReg / 256))

/-- `PCIeDevice::enable_msi` goes through the whole list. -/
def enableMsi (c : ConfigSpace) (capOffset : UInt8) : Option UInt8 :=
  if capOffset ≠ 0 ∧ capOffset ≠ 0xFF then some (c.readByte (capOffset.toNat + 1)) else none

/-- `VirtIODriver::mapCapability` stops at the vendor's capability of the type. -/
def mapCapability (c : ConfigSpace) (targetType capOffset : UInt8) : Option UInt8 :=
  if capOffset = 0 ∨
      c.readByte capOffset.toNat = 0x09 ∧ c.readByte (capOffset.toNat + 3) = targetType then none
  else some (c.readByte (capOffset.toNat + 1))

end ConfigSpace

/-- `init_numa` adds the length in the second byte of the subtable. -/
def initNuma (memory : UInt64 → UInt8) (tableEnd ptr : UInt64) : Option UInt64 :=
  if ptr < tableEnd then some (ptr + (memory (ptr + 1)).toUInt64) else none

/-- The place of the SRAT; it does not end in the last 255 bytes of the address space. -/
structure Srat where
  address : UInt64
  length : UInt32
  fits : address.toNat + length.toNat + 255 ≤ 2 ^ 64

/-- All four walks are `P`; the header of the SRAT has 48 bytes. -/
def AllWalks (P : ∀ {σ : Type}, (σ → Option σ) → σ → Prop) (c : ConfigSpace) (targetType : UInt8)
    (memory : UInt64 → UInt8) (srat : Srat) : Prop :=
  (c.hasCapabilities → P c.wakeup (.ofNat (c.readWord 0x34))) ∧
    (c.hasCapabilities → P c.enableMsi (c.readByte 0x34)) ∧
    P (c.mapCapability targetType) (c.readByte 0x34) ∧
    P (initNuma memory (srat.address + srat.length.toUInt64)) (srat.address + 48)

namespace ConfigSpace

variable (c : ConfigSpace) (targetType a b : UInt8)

/-- Where a word at an offset begins; the legacy ports have words at even offsets only. -/
def wordOffset : Nat := if c.legacy then a.toNat / 2 * 2 else a.toNat

/-- The capability at `a` is not power management, and the pointer behind its identifier is `b`. -/
def PowerLink : Prop :=
  a ≠ 0 ∧ c.byte (c.wordOffset a) ≠ 0x01 ∧ c.byte (c.wordOffset a + 1) = b

def MsiLink : Prop := a ≠ 0 ∧ a ≠ 0xFF ∧ c.byte (a.toNat + 1) = b

/-- The capability at `a` is not the one that is looked for, and its next one is `b`; behind
offset 255 the legacy ports have bytes `0xFF` only. -/
def VirtioLink : Prop :=
  a ≠ 0 ∧
    ¬(c.byte a.toNat = 0x09 ∧
      (if c.legacy ∧ 253 ≤ a.toNat then 0xFF else c.byte (a.toNat + 3)) = targetType) ∧
    (if c.legacy ∧ a.toNat = 255 then 0xFF else c.byte (a.toNat + 1)) = b

theorem readWord_eq : c.readWord a.toNat =
    (c.byte (c.wordOffset a)).toNat + 256 * (c.byte (c.wordOffset a + 1)).toNat := by
  have hlt := a.toNat_lt
  have hin : ¬(c.legacy ∧ 256 ≤ a.toNat) := fun h => by omega
  rw [readWord, if_neg hin, wordOffset]

theorem low_of_word (x y : UInt8) : (x.toNat + 256 * y.toNat) % 256 = x.toNat := by
  have := x.toNat_lt
  omega

theorem high_of_word (x y : UInt8) : (x.toNat + 256 * y.toNat) / 256 = y.toNat := by
  have := x.toNat_lt
  omega

theorem wakeup_eq_some_iff : c.wakeup a = some b ↔ c.PowerLink a b := by
  have hid (x : UInt8) : x.toNat = 1 ↔ x = 0x01 := by
    rw [← UInt8.toNat_inj]
    rfl
  simp only [wakeup, PowerLink, readWord_eq, low_of_word, high_of_word, UInt8.ofNat_toNat, hid]
  by_cases h : a = 0 ∨ c.byte (c.wordOffset a) = 0x01
  · grind
  · grind

theorem readByte_of_lt {offset : Nat} (hlt : offset < 256) : c.readByte offset = c.byte offset :=
  if_neg fun h => Nat.not_le.mpr hlt h.2

theorem enableMsi_eq_some_iff : c.enableMsi a = some b ↔ c.MsiLink a b := by
  unfold enableMsi MsiLink
  by_cases h : a ≠ 0 ∧ a ≠ 0xFF
  · have hlt : a.toNat + 1 < 256 := by
      have hmax : a.toNat ≠ 255 := fun heq => h.2 (UInt8.toNat_inj.mp heq)
      have := a.toNat_lt
      omega
    rw [if_pos h, c.readByte_of_lt hlt, Option.some_inj]
    grind
  · grind

theorem mapCapability_eq_some_iff :
    c.mapCapability targetType a = some b ↔ c.VirtioLink targetType a b := by
  have hlt := a.toNat_lt
  have htype : 256 ≤ a.toNat + 3 ↔ 253 ≤ a.toNat := by omega
  have hnext : 256 ≤ a.toNat + 1 ↔ a.toNat = 255 := by omega
  rw [mapCapability, VirtioLink, c.readByte_of_lt hlt]
  simp only [readByte, htype, hnext]
  grind

/-- None of the three walks comes to a cycle of next pointers; `enable_msi` and `wakeup` look at
the list only if the status announces one. -/
def ListsEnd : Prop :=
  (c.hasCapabilities → ¬ Cyclic c.PowerLink (c.byte 0x34) ∧ ¬ Cyclic c.MsiLink (c.byte 0x34)) ∧
    ¬ Cyclic (c.VirtioLink targetType) (c.byte 0x34)

end ConfigSpace

/-- Where the subtables of the SRAT begin, by the lengths in their second bytes. -/
inductive Subtable (table : Nat → UInt8) : Nat → Prop
  | first : Subtable table 48
  | next {k : Nat} : Subtable table k → Subtable table (k + (table (k + 1)).toNat)

namespace Srat

variable (srat : Srat) (memory : UInt64 → UInt8) {k : Nat}

def byte (k : Nat) : UInt8 := memory (srat.address + .ofNat k)

/-- No subtable within the table is empty. -/
def Filled : Prop :=
  ∀ k < srat.length.toNat, Subtable (srat.byte memory) k → srat.byte memory (k + 1) ≠ 0

theorem toNat_address (hk : k ≤ srat.length.toNat + 254) :
    (srat.address + .ofNat k).toNat = srat.address.toNat + k := by
  have := srat.fits
  rw [UInt64.toNat_add, UInt64.toNat_ofNat']
  omega

/-- One pass, from the offset of a subtable to that of the next one. -/
theorem initNuma_address (hk : k ≤ srat.length.toNat + 254) :
    initNuma memory (srat.address + srat.length.toUInt64) (srat.address + .ofNat k) =
      if k < srat.length.toNat then
        some (srat.address + .ofNat (k + (srat.byte memory (k + 1)).toNat))
      else none := by
  have hend : (srat.address + srat.length.toUInt64).toNat =
      srat.address.toNat + srat.length.toNat := by
    have := srat.fits
    rw [UInt64.toNat_add, UInt32.toNat_toUInt64]
    omega
  have hlt : srat.address + .ofNat k < srat.address + srat.length.toUInt64 ↔
      k < srat.length.toNat := by
    rw [UInt64.lt_iff_toNat_lt, srat.toNat_address hk, hend]
    omega
  have hsecond : srat.address + .ofNat k + 1 = srat.address + .ofNat (k + 1) := by
    rw [UInt64.ofNat_add, UInt64.add_assoc]
    rfl
  rw [initNuma, hsecond]
  simp only [hlt, byte, UInt64.ofNat_add, UInt64.ofNat_uInt8ToNat, UInt64.add_assoc]

/-- The subtable walk ends exactly if no subtable is empty: the offset grows with every pass. -/
theorem initNuma_halts_iff :
    Halts (initNuma memory (srat.address + srat.length.toUInt64)) (srat.address + 48) ↔
      srat.Filled memory := by
  constructor
  · intro hhalts k hk hsub hempty
    refine hhalts.not_cyclic (fun _ _ => Iff.rfl) ⟨srat.address + .ofNat k, ?_, .single ?_⟩
    · clear hempty
      induction hsub with
      | first => exact .refl
      | @next k _ ih =>
          have hk' : k < srat.length.toNat := by omega
          refine (ih hk').tail ?_
          rw [srat.initNuma_address memory (by omega), if_pos hk']
    · rw [srat.initNuma_address memory (by omega), if_pos hk, hempty]
      rfl
  · intro hfilled
    refine halts_of_decreases (fun p => srat.address.toNat + srat.length.toNat - p.toNat)
      (I := fun p => ∃ k ≤ srat.length.toNat + 254, Subtable (srat.byte memory) k ∧
        p = srat.address + .ofNat k) ⟨48, by omega, .first, rfl⟩ ?_
    rintro _ p ⟨k, hk, hsub, rfl⟩ hstep
    rw [srat.initNuma_address memory hk] at hstep
    split_ifs at hstep with hin
    cases hstep
    have hlen := (srat.byte memory (k + 1)).toNat_lt
    have hpos : 0 < (srat.byte memory (k + 1)).toNat :=
      Nat.pos_of_ne_zero fun h0 => hfilled k hin hsub (UInt8.toNat_inj.mp h0)
    have hk' : k + (srat.byte memory (k + 1)).toNat ≤ srat.length.toNat + 254 := by omega
    refine ⟨⟨_, hk', hsub.next, rfl⟩, ?_⟩
    rw [srat.toNat_address hk, srat.toNat_address hk']
    omega

end Srat

instance finiteU8 : Finite UInt8 := .of_injective UInt8.toFin fun _ _ => UInt8.toFin_inj.mp

/-- The four walks end exactly if their next pointers form no cycle and no subtable is empty. -/
theorem walks_halt_iff (c : ConfigSpace) (targetType : UInt8) (memory : UInt64 → UInt8)
    (srat : Srat) :
    AllWalks Halts c targetType memory srat ↔ c.ListsEnd targetType ∧ srat.Filled memory := by
  have hfirst : UInt8.ofNat (c.readWord 0x34) = c.byte 0x34 := by
    have hword : c.wordOffset 0x34 = 0x34 := by
      unfold ConfigSpace.wordOffset
      split <;> rfl
    have hread := c.readWord_eq 0x34
    rw [hword] at hread
    rw [show (0x34 : Nat) = (0x34 : UInt8).toNat from rfl, hread]
    simp
  rw [AllWalks, hfirst, c.readByte_of_lt (by decide), srat.initNuma_halts_iff,
    halts_iff_not_cyclic c.wakeup_eq_some_iff, halts_iff_not_cyclic c.enableMsi_eq_some_iff,
    halts_iff_not_cyclic (c.mapCapability_eq_some_iff targetType), ConfigSpace.ListsEnd]
  tauto

/-- A capability that is its own next one, and a subtable of no length. -/
theorem walks_endless :
    (ConfigSpace.mk (fun _ => 0x50) false).hasCapabilities ∧
      AllWalks (fun step s => ¬ Halts step s) ⟨fun _ => 0x50, false⟩ 1 (fun _ => 0)
        ⟨0x1000, 64, by decide⟩ :=
  ⟨by decide, fun _ => not_halts_of_fixed (by decide), fun _ => not_halts_of_fixed (by decide),
    not_halts_of_fixed (by decide), not_halts_of_fixed (by decide)⟩

end Singularity.Drivers
