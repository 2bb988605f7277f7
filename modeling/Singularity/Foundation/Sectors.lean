import Singularity.Foundation.Memory

/-!
# Disks as sectors

A disk gives a buffer to every sector number; only the first bytes of the buffer, as many as a
sector has, are part of the disk. Writes of several sectors are lists of writes of one sector, so
that a prefix of such a list is what a disk holds when the power fails.
-/

namespace Singularity.Foundation

open List

/-- The sectors of a disk. -/
abbrev Sectors := Nat → Mem

/-- A write of one sector. -/
structure SectorWrite where
  lba : Nat
  data : Mem

namespace Sectors

variable {bs : Nat} {d d' : Sectors} {buf : Mem}

def put (d : Sectors) (w : SectorWrite) : Sectors := fun l => if l = w.lba then w.data else d l

def putAll (d : Sectors) (ws : List SectorWrite) : Sectors := ws.foldl put d

/-- The bytes from sector `lba` on, for sectors of `bs` bytes. -/
def image (d : Sectors) (bs lba : Nat) : Mem := fun i => d (lba + i / bs) (i % bs)

/-- A buffer is written to `count` sectors from `lba` on. -/
def blocks (bs lba count : Nat) (buf : Mem) : List SectorWrite :=
  (List.range count).map fun k => ⟨lba + k, fun i => buf (k * bs + i)⟩

@[simp] lemma putAll_nil (d : Sectors) : d.putAll [] = d := rfl

@[simp] lemma putAll_cons (d : Sectors) (w : SectorWrite) (ws : List SectorWrite) :
    d.putAll (w :: ws) = (d.put w).putAll ws := rfl

@[simp] lemma putAll_append (d : Sectors) (ws ws' : List SectorWrite) :
    d.putAll (ws ++ ws') = (d.putAll ws).putAll ws' := List.foldl_append

@[simp] lemma put_self (d : Sectors) (w : SectorWrite) : d.put w w.lba = w.data := if_pos rfl

variable {l lba count i : Nat} {w : SectorWrite}

lemma put_of_ne (h : l ≠ w.lba) : d.put w l = d l := if_neg h

/-- Sectors that are not written keep their bytes. -/
lemma putAll_of_forall_ne (h : ∀ w ∈ ws, l ≠ w.lba) : d.putAll ws l = d l := by
  induction ws generalizing d with
  | nil => rfl
  | cons w ws ih =>
    rw [putAll_cons, ih fun w hw => h w (mem_cons_of_mem _ hw), put_of_ne (h w mem_cons_self)]

lemma mem_blocks (h : w ∈ blocks bs lba count buf) : lba ≤ w.lba ∧ w.lba < lba + count := by
  obtain ⟨k, hk, rfl⟩ := mem_map.mp h
  have hlt := mem_range.mp hk
  dsimp only
  omega

lemma putAll_blocks_of_not_mem (h : l < lba ∨ lba + count ≤ l) :
    d.putAll (blocks bs lba count buf) l = d l := by
  apply putAll_of_forall_ne
  intro w hw
  have := mem_blocks hw
  omega

/-- A written sector holds its part of the buffer. -/
lemma putAll_blocks_of_mem (h : k < count) :
    d.putAll (blocks bs lba count buf) (lba + k) = fun i => buf (k * bs + i) := by
  induction count with
  | zero => cases h
  | succ count ih =>
    have hsplit : blocks bs lba (count + 1) buf = blocks bs lba count buf ++
        [⟨lba + count, fun i => buf (count * bs + i)⟩] := by
      rw [blocks, range_succ, map_append]
      rfl
    rw [hsplit, putAll_append, putAll_cons, putAll_nil]
    obtain hlt | rfl := Nat.lt_succ_iff_lt_or_eq.mp h
    · rw [put_of_ne (by dsimp only; omega), ih hlt]
    · exact if_pos rfl

/-- The written bytes are read back. -/
lemma image_putAll_blocks (d : Sectors) (buf : Mem) (lba : Nat) (hi : i < count * bs) :
    (d.putAll (blocks bs lba count buf)).image bs lba i = buf i := by
  have hk : i / bs < count := Nat.div_lt_of_lt_mul (by rwa [Nat.mul_comm])
  rw [image, putAll_blocks_of_mem hk]
  dsimp only
  rw [Nat.mul_comm, Nat.div_add_mod]

/-- Bytes are read from the sectors that hold them. -/
lemma image_congr (count : Nat) (h : ∀ k, k < count → d' (lba + k) = d (lba + k))
    (hi : i < count * bs) : d'.image bs lba i = d.image bs lba i := by
  rw [image, image, h _ (Nat.div_lt_of_lt_mul (by rwa [Nat.mul_comm]))]

end Sectors

end Singularity.Foundation
