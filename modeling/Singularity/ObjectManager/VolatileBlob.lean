import Mathlib.Algebra.Group.Nat.Defs
import Singularity.Foundation.ByteVector
import Singularity.Foundation.Runs

/-!
# Volatile blobs

`KVolatileBlob` keeps its bytes in a block of the heap that only grows. Shrinking leaves the old
bytes in the block, so every operation that makes the blob longer has to overwrite them. Here the
blob is compared with a vector of bytes: its contents are the first `size` bytes of the block.
-/

namespace Singularity.ObjectManager

open Foundation List UInt64 Option

/-- An access outside the block of a blob. -/
inductive BlobFault where
  | outOfBounds
  deriving DecidableEq

inductive BlobStatus where
  | ok
  | noMemory
  | io
  deriving DecidableEq

/-- An answer of the heap: null, or a block with these bytes. -/
abbrev Allocation := Option (Nat → UInt8)

/-- The block that `kmalloc` returns for a request. -/
def Allocation.block (alloc : Allocation) (size : UInt64) : Option (List UInt8) :=
  alloc.map fun bytes => (List.range size.toNat).map bytes

/-- The buffer is null or a block of `capacity` bytes. -/
structure KVolatileBlob where
  buffer : Option (List UInt8)
  capacity : UInt64
  size : UInt64

/-- What a call returns: its status, the bytes in the caller's buffer and the reported count. -/
structure BlobReply where
  status : BlobStatus
  bytes : List UInt8
  count : UInt64
  deriving DecidableEq

namespace KVolatileBlob

def empty : KVolatileBlob := ⟨none, 0, 0⟩

/-- `memcpy` out of the buffer. -/
def load (b : KVolatileBlob) (offset count : UInt64) : Except BlobFault (List UInt8) :=
  match Block.load (b.buffer.getD []) offset.toNat count.toNat with
  | some bytes => .ok bytes
  | none => .error .outOfBounds

/-- `memcpy` or `memset` into the buffer. -/
def store (b : KVolatileBlob) (offset : UInt64) (bytes : List UInt8) :
    Except BlobFault KVolatileBlob :=
  match Block.store (b.buffer.getD []) offset.toNat bytes with
  | some block => .ok { b with buffer := b.buffer.map fun _ => block }
  | none => .error .outOfBounds

/-- Move to a larger block if the blob has to hold `newCap` bytes; no result if there is none. -/
def reserve (b : KVolatileBlob) (newCap : UInt64) (alloc : Allocation) :
    Except BlobFault (Option KVolatileBlob) :=
  if b.capacity < newCap then
    match alloc.block newCap with
    | none => .ok none
    | some newBuf =>
      if b.buffer.isSome then do
        let old ← b.load 0 b.size
        let moved ← KVolatileBlob.store ⟨some newBuf, newCap, b.size⟩ 0 old
        .ok (some moved)
      else .ok (some ⟨some newBuf, newCap, b.size⟩)
  else .ok (some b)

/-- Overwrite the bytes between `size` and the new end with zeros. -/
def clear (b : KVolatileBlob) (stop : UInt64) : Except BlobFault KVolatileBlob :=
  if b.size < stop then b.store b.size (List.replicate (stop - b.size).toNat 0) else .ok b

def read (b : KVolatileBlob) (offset count : UInt64) : Except BlobFault BlobReply :=
  if b.size ≤ offset then .ok ⟨.ok, [], 0⟩
  else do
    let available := b.size - offset
    let toRead := if count < available then count else available
    let bytes ← b.load offset toRead
    .ok ⟨.ok, bytes, toRead⟩

def write (b : KVolatileBlob) (offset count : UInt64) (buf : Nat → UInt8) (alloc : Allocation) :
    Except BlobFault (BlobReply × KVolatileBlob) :=
  if offset + count < offset then .ok (⟨.io, [], 0⟩, b)
  else do
    match ← b.reserve (offset + count) alloc with
    | none => .ok (⟨.noMemory, [], 0⟩, b)
    | some b =>
      let b ← b.clear offset
      let b ← b.store offset ((List.range count.toNat).map buf)
      let size := if b.size < offset + count then offset + count else b.size
      .ok (⟨.ok, [], count⟩, { b with size })

def resize (b : KVolatileBlob) (newSize : UInt64) (alloc : Allocation) :
    Except BlobFault (BlobReply × KVolatileBlob) := do
  match ← b.reserve newSize alloc with
  | none => .ok (⟨.noMemory, [], 0⟩, b)
  | some b =>
    let b ← b.clear newSize
    .ok (⟨.ok, [], 0⟩, { b with size := newSize })

end KVolatileBlob

/-- The calls with their arguments; `alloc` is the answer of the heap to a request for a block. -/
inductive BlobCall where
  | read (offset count : UInt64)
  | write (offset count : UInt64) (buf : Nat → UInt8) (alloc : Allocation)
  | resize (newSize : UInt64) (alloc : Allocation)

namespace KVolatileBlob

def call (b : KVolatileBlob) : BlobCall → Except BlobFault (BlobReply × KVolatileBlob)
  | .read offset count => (b.read offset count).map fun reply => (reply, b)
  | .write offset count buf alloc => b.write offset count buf alloc
  | .resize newSize alloc => b.resize newSize alloc

/-- A sequence of calls with the replies to them. -/
def calls (b : KVolatileBlob) : List BlobCall → Except BlobFault (List BlobReply × KVolatileBlob)
  | [] => .ok ([], b)
  | c :: cs => do
      let (reply, b) ← b.call c
      let (replies, b) ← b.calls cs
      .ok (reply :: replies, b)

end KVolatileBlob

/-- What the calls mean for a vector of bytes: a call that fails changes nothing, and it fails only
if the range of a write leaves the 64-bit offsets or there is no memory. -/
inductive VectorStep : List UInt8 → BlobCall × BlobReply → List UInt8 → Prop
  | read (v : List UInt8) (offset count n : UInt64)
      (hn : n.toNat = min count.toNat (v.length - offset.toNat)) :
      VectorStep v (.read offset count, ⟨.ok, Vec.slice v offset.toNat count.toNat, n⟩) v
  | write (v : List UInt8) (offset count : UInt64) (buf : Nat → UInt8) (alloc : Allocation) :
      VectorStep v (.write offset count buf alloc, ⟨.ok, [], count⟩)
        (Vec.write 0 v offset.toNat ((List.range count.toNat).map buf))
  | writeRange (v : List UInt8) (offset count : UInt64) (buf : Nat → UInt8) (alloc : Allocation)
      (h : 2 ^ 64 ≤ offset.toNat + count.toNat) :
      VectorStep v (.write offset count buf alloc, ⟨.io, [], 0⟩) v
  | writeFailed (v : List UInt8) (offset count : UInt64) (buf : Nat → UInt8) :
      VectorStep v (.write offset count buf none, ⟨.noMemory, [], 0⟩) v
  | resize (v : List UInt8) (newSize : UInt64) (alloc : Allocation) :
      VectorStep v (.resize newSize alloc, ⟨.ok, [], 0⟩) (Vec.resize 0 v newSize.toNat)
  | resizeFailed (v : List UInt8) (newSize : UInt64) :
      VectorStep v (.resize newSize none, ⟨.noMemory, [], 0⟩) v

namespace KVolatileBlob

/-- The blob holds the vector in front of its block. -/
structure Holds (b : KVolatileBlob) (v : List UInt8) : Prop where
  size_eq : b.size.toNat = v.length
  capacity_eq : (b.buffer.getD []).length = b.capacity.toNat
  contents : v <+: b.buffer.getD []

variable {b : KVolatileBlob} {v : List UInt8}

section
variable {offset : UInt64}

lemma Holds.size_le (h : Holds b v) : b.size ≤ b.capacity := by
  rw [le_iff_toNat_le, h.size_eq, ← h.capacity_eq]
  exact h.contents.length_le

lemma holds_empty : Holds empty [] := ⟨rfl, rfl, nil_prefix⟩

/-- A block that `store` has changed. -/
lemma store_eq (h : Block.store (b.buffer.getD []) offset.toNat bytes = some block) :
    ∃ b', b.store offset bytes = .ok b' ∧ b'.size = b.size ∧ b'.capacity = b.capacity ∧
      b'.buffer.getD [] = block := by
  refine ⟨{ b with buffer := b.buffer.map fun _ => block }, ?_, rfl, rfl, ?_⟩
  · rw [store, h]
  cases hbuffer : b.buffer with
  | some old => rfl
  | none =>
    -- a store into the null buffer stores nothing
    rw [hbuffer, getD_none] at h
    have hlen := Block.length_store h
    rw [length_nil, length_eq_zero_iff] at hlen
    rw [hlen]
    rfl

lemma store_patch (bytes : List UInt8)
    (hcapacity : (b.buffer.getD []).length = b.capacity.toNat) (hcontents : v <+: b.buffer.getD [])
    (hoffset : offset.toNat ≤ v.length) (hroom : offset.toNat + bytes.length ≤ b.capacity.toNat) :
    ∃ b', b.store offset bytes = .ok b' ∧ b'.size = b.size ∧ b'.capacity = b.capacity ∧
      (b'.buffer.getD []).length = b'.capacity.toNat ∧
      Vec.patch v offset.toNat bytes <+: b'.buffer.getD [] := by
  rw [← hcapacity] at hroom
  obtain ⟨block, hblock, hlen, hprefix⟩ := Block.store_of_prefix bytes hcontents hoffset hroom
  obtain ⟨b', hstore, hsz, hcap, hbuffer⟩ := store_eq hblock
  refine ⟨b', hstore, hsz, hcap, ?_, ?_⟩
  · rw [hbuffer, hlen, hcapacity, hcap]
  · rwa [hbuffer]

/-- Moving to a larger block keeps the vector. -/
lemma Holds.reserve (h : Holds b v) (newCap : UInt64) (alloc : Allocation) :
    (b.reserve newCap alloc = .ok none ∧ alloc = none) ∨
      ∃ b', b.reserve newCap alloc = .ok (some b') ∧ Holds b' v ∧ newCap ≤ b'.capacity := by
  unfold KVolatileBlob.reserve
  split
  case isFalse hfits => exact .inr ⟨b, rfl, h, UInt64.not_lt.mp hfits⟩
  case isTrue hgrow =>
    cases alloc with
    | none => exact .inl ⟨rfl, rfl⟩
    | some bytes =>
      right
      have hnew : ((range newCap.toNat).map bytes).length = newCap.toNat := by
        rw [length_map, length_range]
      have hroom : v.length ≤ newCap.toNat := by
        rw [← h.size_eq]
        exact Nat.le_of_lt (lt_iff_toNat_lt.mp (UInt64.lt_of_le_of_lt h.size_le hgrow))
      rw [Allocation.block, map_some]
      dsimp only
      split
      case isTrue hsome =>
        have hload : b.load 0 b.size = .ok v := by
          have hblock := Block.load_of_prefix (i := 0) h.contents (Nat.le_of_eq (Nat.zero_add _))
          rw [load, h.size_eq, UInt64.toNat_zero, hblock, Vec.slice, drop_zero, take_length]
        obtain ⟨moved, hstore, hsz, hcap, hlen, hprefix⟩ := store_patch (v := [])
          (b := ⟨some ((range newCap.toNat).map bytes), newCap, b.size⟩) v hnew
          nil_prefix (Nat.le_refl (0 : UInt64).toNat)
          (by rwa [UInt64.toNat_zero, Nat.zero_add])
        refine ⟨moved, ?_, ⟨?_, hlen, ?_⟩, ?_⟩
        · rw [hload]
          simp only [bind, Except.bind, hstore]
        · rw [hsz, h.size_eq]
        · rwa [Vec.patch, take_nil, drop_nil, nil_append, append_nil]
            at hprefix
        · exact UInt64.le_of_eq hcap.symm
      case isFalse hnone =>
        rw [Bool.not_eq_true, isSome_eq_false_iff, isNone_iff_eq_none] at hnone
        have hv : v = [] := by
          have hprefix := h.contents
          rw [hnone] at hprefix
          exact prefix_nil.mp hprefix
        refine ⟨_, rfl, ⟨h.size_eq, hnew, ?_⟩, UInt64.le_refl _⟩
        rw [hv]
        exact nil_prefix

/-- Behind `clear` the vector is followed by zeros up to the new end. -/
lemma Holds.clear (h : Holds b v) (hroom : stop ≤ b.capacity) :
    ∃ b', b.clear stop = .ok b' ∧ b'.size = b.size ∧ b'.capacity = b.capacity ∧
      (b'.buffer.getD []).length = b'.capacity.toNat ∧
      Vec.extend 0 v stop.toNat <+: b'.buffer.getD [] := by
  unfold KVolatileBlob.clear
  split
  case isFalse hle =>
    have hshort : stop.toNat ≤ v.length := by
      rw [← h.size_eq]
      exact le_iff_toNat_le.mp (UInt64.not_lt.mp hle)
    refine ⟨b, rfl, rfl, rfl, h.capacity_eq, ?_⟩
    rw [Vec.extend_of_le hshort]
    exact h.contents
  case isTrue hlt =>
    have hsub : (stop - b.size).toNat = stop.toNat - v.length := by
      rw [UInt64.toNat_sub_of_le _ _ (UInt64.le_of_lt hlt), h.size_eq]
    have hle : v.length ≤ stop.toNat := by
      rw [← h.size_eq]
      exact Nat.le_of_lt (lt_iff_toNat_lt.mp hlt)
    rw [le_iff_toNat_le, ← h.capacity_eq] at hroom
    obtain ⟨block, hblock, hlen, hprefix⟩ :=
      Block.store_fill (a := (0 : UInt8)) h.contents hle hroom
    rw [← hsub, ← h.size_eq] at hblock
    obtain ⟨b', hstore, hsz, hcap, hbuffer⟩ := store_eq hblock
    refine ⟨b', hstore, hsz, hcap, ?_, ?_⟩
    · rw [hbuffer, hlen, h.capacity_eq, hcap]
    · rwa [hbuffer]

end

section
/-- One call of the blob is the call of the vector. -/
def Refines (b : KVolatileBlob) (v : List UInt8) (c : BlobCall) : Prop :=
  ∃ reply b' v', b.call c = .ok (reply, b') ∧ VectorStep v (c, reply) v' ∧ Holds b' v'

variable (h : Holds b v)
include h

lemma Holds.read (offset count : UInt64) : Refines b v (.read offset count) := by
  rw [Refines, call, KVolatileBlob.read]
  split
  case isTrue hend =>
    have hpast : v.length ≤ offset.toNat := by
      rw [← h.size_eq]
      exact le_iff_toNat_le.mp hend
    have hslice : Vec.slice v offset.toNat count.toNat = [] := by
      rw [Vec.slice, drop_eq_nil_of_le hpast, take_nil]
    refine ⟨_, b, v, rfl, ?_, h⟩
    have hstep := VectorStep.read v offset count 0 (by rw [UInt64.toNat_zero]; omega)
    rwa [hslice] at hstep
  case isFalse hinside =>
    have hlt := UInt64.not_le.mp hinside
    have havailable : (b.size - offset).toNat = v.length - offset.toNat := by
      rw [UInt64.toNat_sub_of_le _ _ (UInt64.le_of_lt hlt), h.size_eq]
    have hle : offset.toNat ≤ v.length := by
      rw [← h.size_eq]
      exact Nat.le_of_lt (lt_iff_toNat_lt.mp hlt)
    generalize hn : (if count < b.size - offset then count else b.size - offset) = toRead
    have hmin : toRead.toNat = min count.toNat (v.length - offset.toNat) := by
      rw [← hn, ← havailable]
      split
      case isTrue hless =>
        exact (Nat.min_eq_left (Nat.le_of_lt (lt_iff_toNat_lt.mp hless))).symm
      case isFalse hmore =>
        exact (Nat.min_eq_right (le_iff_toNat_le.mp (UInt64.not_lt.mp hmore))).symm
    have hload : b.load offset toRead = .ok (Vec.slice v offset.toNat count.toNat) := by
      have hblock := Block.load_of_prefix (i := offset.toNat) (n := toRead.toNat) h.contents
        (by omega)
      rw [load, hblock, hmin, Vec.slice, ← length_drop, ← take_eq_take_min]
      rfl
    refine ⟨⟨.ok, Vec.slice v offset.toNat count.toNat, toRead⟩, b, v, ?_, .read v _ _ _ hmin, h⟩
    simp only [hn, hload, bind, Except.bind, Except.map]

lemma Holds.write (offset count : UInt64) (buf : Nat → UInt8)
    (alloc : Allocation) : Refines b v (.write offset count buf alloc) := by
  rw [Refines, call, KVolatileBlob.write]
  split_ifs with hwrap
  · refine ⟨_, b, v, rfl, .writeRange v _ _ _ _ ?_, h⟩
    rw [lt_iff_toNat_lt, UInt64.toNat_add] at hwrap
    have := offset.toNat_lt
    omega
  · have hend : (offset + count).toNat = offset.toNat + count.toNat := by
      rw [UInt64.not_lt, le_iff_toNat_le, UInt64.toNat_add] at hwrap
      rw [UInt64.toNat_add]
      have := offset.toNat_lt
      have := count.toNat_lt
      omega
    obtain ⟨hnone, rfl⟩ | ⟨b1, hreserve, h1, hcap⟩ := h.reserve (offset + count) alloc
    · refine ⟨⟨.noMemory, [], 0⟩, b, v, ?_, .writeFailed v _ _ _, h⟩
      simp only [hnone, bind, Except.bind]
    rw [le_iff_toNat_le, hend] at hcap
    have hoffset : offset ≤ b1.capacity := le_iff_toNat_le.mpr (by omega)
    obtain ⟨b2, hclear, hsize2, hcap2, hlength2, hprefix2⟩ := h1.clear hoffset
    obtain ⟨b3, hstore, hsize3, hcap3, hlength3, hprefix3⟩ := store_patch
      ((range count.toNat).map buf) hlength2 hprefix2
      (show offset.toNat ≤ _ by rw [Vec.length_extend]; omega)
      (by rw [length_map, length_range, hcap2]; omega)
    have hsz : b3.size.toNat = v.length := by rw [hsize3, hsize2, h1.size_eq]
    refine ⟨⟨.ok, [], count⟩, { b3 with
      size := if b3.size < offset + count then offset + count else b3.size }, _, ?_,
      .write v _ _ _ _, ⟨?_, hlength3, hprefix3⟩⟩
    · simp only [hreserve, hclear, hstore, bind, Except.bind]
    have hlen : (Vec.write 0 v offset.toNat ((range count.toNat).map buf)).length =
        max v.length (offset.toNat + count.toNat) := by
      rw [Vec.write, Vec.length_patch (by rw [Vec.length_extend]; omega), Vec.length_extend,
        length_map, length_range]
      omega
    rw [hlen]
    split
    case isTrue hgrows =>
      rw [lt_iff_toNat_lt, hsz, hend] at hgrows
      rw [hend, Nat.max_eq_right (Nat.le_of_lt hgrows)]
    case isFalse hkeeps =>
      rw [UInt64.not_lt, le_iff_toNat_le, hsz, hend] at hkeeps
      rw [hsz, Nat.max_eq_left hkeeps]

lemma Holds.resize (newSize : UInt64) (alloc : Allocation) :
    Refines b v (.resize newSize alloc) := by
  rw [Refines, call, KVolatileBlob.resize]
  obtain ⟨hnone, rfl⟩ | ⟨b1, hreserve, h1, hcap⟩ := h.reserve newSize alloc
  · refine ⟨⟨.noMemory, [], 0⟩, b, v, ?_, .resizeFailed v _, h⟩
    simp only [hnone, bind, Except.bind]
  obtain ⟨b2, hclear, -, -, hlen, hprefix⟩ := h1.clear hcap
  refine ⟨⟨.ok, [], 0⟩, { b2 with size := newSize }, _, ?_, .resize v _ _, ⟨?_, hlen, ?_⟩⟩
  · simp only [hreserve, hclear, bind, Except.bind]
  · rw [Vec.length_resize]
  · -- a cut vector is still in front of the block
    exact take_prefix _ _ |>.trans hprefix

lemma Holds.call (c : BlobCall) : Refines b v c := by
  cases c with
  | read offset count => exact h.read offset count
  | write offset count buf alloc => exact h.write offset count buf alloc
  | resize newSize alloc => exact h.resize newSize alloc

lemma Holds.calls (cs : List BlobCall) :
    ∃ replies b' v', b.calls cs = .ok (replies, b') ∧ replies.length = cs.length ∧
      Run VectorStep v (cs.zip replies) v' ∧ Holds b' v' := by
  induction cs generalizing b v with
  | nil => exact ⟨[], b, v, rfl, rfl, .nil v, h⟩
  | cons c cs ih =>
    obtain ⟨reply, b1, v1, hcall, hstep, h1⟩ := h.call c
    obtain ⟨replies, b', v', hcalls, hlen, hrun, h'⟩ := ih h1
    refine ⟨reply :: replies, b', v', ?_, congrArg Nat.succ hlen, .cons hstep hrun, h'⟩
    simp only [KVolatileBlob.calls, hcall, hcalls, bind, Except.bind]

end

/-- For every sequence of calls with all offsets, sizes and answers of the heap, an empty blob never
leaves its block, replies as a vector of bytes that starts empty, and holds that vector in front of
a block of `capacity` bytes, which `size` does not exceed. -/
theorem calls_refine_vector (cs : List BlobCall) :
    ∃ replies b v, empty.calls cs = .ok (replies, b) ∧ replies.length = cs.length ∧
      Run VectorStep [] (cs.zip replies) v ∧ Holds b v ∧ b.size ≤ b.capacity := by
  obtain ⟨replies, b, v, hcalls, hlen, hrun, h⟩ := holds_empty.calls cs
  exact ⟨replies, b, v, hcalls, hlen, hrun, h, h.size_le⟩

end KVolatileBlob

end Singularity.ObjectManager
