import Singularity.KernelHeap.GwpAsan
import Singularity.KernelHeap.SlabCache

/-!
# The kernel heap

`malloc` puts a header of two words before the bytes of the user and a canary behind them. Blocks
of at most 4096 bytes in all are objects of the eight slab caches, larger ones are page ranges of
the arena; `free` tells them apart by the header. The frame allocator and the page tables are the
environment: they map every page of a range or the call is rolled back.
-/

namespace Singularity.KernelHeap

open Foundation Function

def numBuckets : Nat := 8
def asmThreshold : Nat := 256
def largePageSize : Nat := 0x200000
def poisonValue : UInt8 := 0xBD

def bucketSize (idx : Nat) : Nat := bucketSizes.getD idx 0

/-- `__builtin_clz` of a 32-bit word that is not zero. -/
def clz32 (x : Nat) : Nat := 31 - Nat.log2 x

/-- The bucket of a size; no result stands for the index `-1`. -/
def getBucketIndex (size : Nat) : Option Nat :=
  if size = 0 ∨ 4096 < size then none
  else if size ≤ 32 then some 0
  else some (32 - clz32 (size - 1) - 5)

/-- The panics of the heap with the values they print, and what the code does not check. -/
inductive HeapFault where
  | doubleFree (ptr caller : Nat)
  | userSizeExceedsBucket
  | canaryOverwritten (found canary size : Nat)
  | gwpUnknownFree
  | slab (fault : SlabFault)
  | regionsOverrun
  deriving DecidableEq

/-- The answers of the environment to one request: the caller, the frame for a sampled
page, null if there is none, and the frames for a page range if all of them can be mapped. -/
structure Supply where
  caller : Nat
  frame : Nat
  pages : Option (Nat → Nat)

/-- A contiguous block of frames at a multiple of 2 MiB, if there is one for an aligned request:
how many entries of 2 MiB find their page tables, and the bytes that are seen through them. -/
structure LargeBlock where
  phys : Nat
  aligned : largePageSize ∣ phys
  written : Nat
  bytes : Mem

structure Heap where
  mem : Mem
  frames : Nat → Nat
  arena : VmArena
  buckets : Nat → SlabCache
  gwp : Gwp
  magic : Nat
  canary : Nat

/-- Map a page range; the table gives the frame of every page address, null if unmapped. -/
def mapPages (frames : Nat → Nat) (virt : Nat) (supply : Nat → Nat) : Nat → Nat → Nat
  | 0 => frames
  | n + 1 => update (mapPages frames virt supply n) (virt + n * pageSize) (supply n)

/-- Unmap a page range; the frames go back to the frame allocator. -/
def unmapPages (frames : Nat → Nat) (virt pages : Nat) : Nat → Nat :=
  mapPages frames virt (fun _ => 0) pages

def fastPoison (m : Mem) (ptr size : Nat) : Mem :=
  if size = 0 then m
  else if size < asmThreshold then m.fill ptr size poisonValue
  else
    let qw := size / 8
    let m := Mem.fill64 0xBDBDBDBDBDBDBDBD m ptr qw
    let rem := size % 8
    if 0 < rem then m.fill (ptr + 8 * qw) rem poisonValue else m

namespace Heap

/-- The random words of `init` are 64-bit; null is replaced. -/
def init (magic canary aslr : Nat) : Heap where
  mem := fun _ => 0
  frames := fun _ => 0
  arena := VmArena.init (heapStart aslr) heapEnd
  buckets := fun i => SlabCache.init (bucketSize i)
  gwp := Gwp.init
  magic := if magic % 2 ^ 64 = 0 then 0xC0FFEE1234567890 else magic % 2 ^ 64
  canary := if canary % 2 ^ 64 = 0 then 0xDEADBEEFCAFEBABE else canary % 2 ^ 64

def setBucket (h : Heap) (idx : Nat) (c : SlabCache) : Heap :=
  { h with buckets := update h.buckets idx c }

/-- The common loop of `free` and `freeSlab`, followed by the release of the range. -/
def freePages (h : Heap) (virt pages : Nat) : Except HeapFault Heap :=
  match h.arena.free virt pages with
  | some arena => .ok { h with arena, frames := unmapPages h.frames virt pages }
  | none => .error .regionsOverrun

/-- What `vmm_alloc` and `vmm_alloc_aligned` do with the answer of the arena. -/
def mapRange (h : Heap) (pages : Nat) (r : Nat × VmArena) (supply : Option (Nat → Nat)) :
    Except HeapFault (Nat × Heap) :=
  if r.1 = 0 then .ok (0, { h with arena := r.2 })
  else
    match supply with
    | some frames =>
      .ok (r.1, { h with
        arena := r.2
        frames := mapPages h.frames r.1 frames pages
        mem := h.mem.fill r.1 (Word.mul pages pageSize) 0 })
    | none =>
      match r.2.free r.1 pages with
      | some arena => .ok (0, { h with arena })
      | none => .error .regionsOverrun

def vmmAlloc (h : Heap) (pages : Nat) (supply : Option (Nat → Nat)) :
    Except HeapFault (Nat × Heap) :=
  h.mapRange pages (h.arena.alloc pages) supply

/-- `map_pages_bulk` with `PAGE_HUGE`: it counts entries of 2 MiB, as many as there are pages, so
that they cover 512 times the range and whatever else is mapped there. A rollback clears the
entries that were written. -/
def mapHuge (h : Heap) (pages : Nat) (r : Nat × VmArena) (block : LargeBlock) :
    Except HeapFault (Nat × Heap) :=
  if pages ≤ block.written then
    let seen : Mem := fun a =>
      if r.1 ≤ a ∧ a < r.1 + pages * largePageSize then block.bytes a else h.mem a
    .ok (r.1, { h with
      arena := r.2
      frames := mapPages h.frames r.1 (fun i => block.phys + i * pageSize) (512 * pages)
      mem := seen.fill r.1 (Word.mul pages pageSize) 0 })
  else
    match r.2.free r.1 pages with
    | some arena =>
      .ok (0, { h with arena, frames := unmapPages h.frames r.1 (512 * block.written) })
    | none => .error .regionsOverrun

/-- `use_huge`, for a range that was found. -/
def useHuge (pages virt : Nat) : Bool := virt ≠ 0 ∧ 512 ≤ pages ∧ virt &&& 0x1FFFFF = 0

def vmmAllocAligned (h : Heap) (pages alignPages : Nat) (supply : Option (Nat → Nat))
    (block : Option LargeBlock) : Except HeapFault (Nat × Heap) :=
  let r := h.arena.allocAligned pages alignPages
  match if useHuge pages r.1 then block else none with
  | some block => h.mapHuge pages r block
  | none => h.mapRange pages r supply

/-- `SlabCache::createSlab` with the range from the arena. -/
def createSlab (h : Heap) (idx : Nat) (supply : Option (Nat → Nat)) :
    Except HeapFault (Nat × Heap) :=
  let pages := slabPages (h.buckets idx).objSize
  let r := h.arena.allocAligned pages pages
  if r.1 = 0 then .ok (0, { h with arena := r.2 })
  else
    match supply with
    | some frames =>
      let s := (h.buckets idx).createSlab h.mem r.1
      .ok (r.1, { h.setBucket idx s.2 with
        arena := r.2
        frames := mapPages h.frames r.1 frames pages
        mem := s.1 })
    | none =>
      match r.2.free r.1 pages with
      | some arena => .ok (0, { h with arena })
      | none => .error .regionsOverrun

/-- `SlabCache::alloc` of one bucket. -/
def slabAlloc (h : Heap) (idx : Nat) (supply : Option (Nat → Nat)) :
    Except HeapFault (Nat × Heap) :=
  match SlabCache.allocCached h.mem (h.buckets idx) with
  | .error fault => .error (.slab fault)
  | .ok (some (obj, c)) => .ok (obj, h.setBucket idx c)
  | .ok none => do
      let (ns, h) ← h.createSlab idx supply
      let h ←
        if ns ≠ 0 ∧ (h.buckets idx).head .partly ≠ 0 then
          h.freePages ns (slabPages (h.buckets idx).objSize)
        else .ok h
      match SlabCache.allocCreated h.mem (h.buckets idx) ns with
      | .error fault => .error (.slab fault)
      | .ok (obj, c) => .ok (obj, h.setBucket idx c)

/-- Header and canary of a block. -/
def stamp (h : Heap) (ptr bucketSize size : Nat) : Heap :=
  { h with
    mem := ((h.mem.write64 ptr bucketSize).write64 (Word.add ptr 8) (size ^^^ h.magic)).write64
      (Word.add (Word.add ptr heapHeaderSize) size) h.canary }

/-- The block of a reserved piece of memory, or null. -/
def finish (size bucketSize : Nat) : Nat × Heap → Nat × Heap
  | (ptr, h) =>
    if ptr = 0 then (0, h) else (Word.add ptr heapHeaderSize, h.stamp ptr bucketSize size)

/-- `malloc` behind the sampling. -/
def mallocUnsampled (h : Heap) (size : Nat) (supply : Option (Nat → Nat)) :
    Except HeapFault (Nat × Heap) :=
  let totalReq := Word.add (Word.add heapHeaderSize size) heapFooterSize
  if totalReq < size then .ok (0, h)
  else if totalReq ≤ 4096 then
    match getBucketIndex totalReq with
    | some idx =>
      if idx < numBuckets then
        (h.slabAlloc idx supply).map (finish size (bucketSize idx))
      else .ok (0, h)
    | none => .ok (0, h)
  else
    let pages := Word.alignUp totalReq pageSize / pageSize
    (h.vmmAlloc pages supply).map (finish size (Word.mul pages pageSize))

def gwpAsanMalloc (h : Heap) (size caller frame : Nat) : Nat × Heap :=
  if h.gwp.initialized = false ∨ size = 0 ∨ pageSize ≤ size then (0, h)
  else
    match h.gwp.findSlot fun s => s.state == .free with
    | none => (0, h)
    | some slot =>
      if frame = 0 then (0, h)
      else
        (Gwp.userVirt slot size, { h with
          frames := update h.frames (slotDataPage slot) frame
          mem := h.mem.fill (slotDataPage slot) pageSize 0
          gwp := h.gwp.activate slot size caller })

def gwpAsanFree (h : Heap) (ptr caller : Nat) : Except HeapFault Heap :=
  match h.gwp.findSlot fun s => s.state == .active && s.userPtr == ptr with
  | none => .error .gwpUnknownFree
  | some slot =>
    .ok { h with
      frames := update h.frames (slotDataPage slot) 0
      mem := h.mem.fill (slotDataPage slot) pageSize 0xDE
      gwp := h.gwp.retire slot caller }

def malloc (h : Heap) (size : Nat) (supply : Supply) : Except HeapFault (Nat × Heap) :=
  if size = 0 then .ok (0, h)
  else if size < pageSize then
    let r := h.gwp.shouldSample
    let h := { h with gwp := r.2 }
    if r.1 then
      let r := h.gwpAsanMalloc size supply.caller supply.frame
      if r.1 ≠ 0 then .ok r else r.2.mallocUnsampled size supply.pages
    else h.mallocUnsampled size supply.pages
  else h.mallocUnsampled size supply.pages

def calloc (h : Heap) (num size : Nat) (supply : Supply) : Except HeapFault (Nat × Heap) :=
  if num ≠ 0 ∧ (2 ^ 64 - 1) / num < size then .ok (0, h)
  else
    (h.malloc (Word.mul num size) supply).map fun (p, h) =>
      if p ≠ 0 then (p, { h with mem := h.mem.fill p (Word.mul num size) 0 }) else (p, h)

/-- What `free` does with a block that passed its checks. -/
def release (h : Heap) (real bucketSize : Nat) : Except HeapFault Heap :=
  if bucketSize ≤ 4096 then
    match getBucketIndex bucketSize with
    | some idx =>
      if idx < numBuckets then
        let r := SlabCache.free h.mem (h.buckets idx) real
        .ok { h.setBucket idx r.2.2 with mem := r.2.1 }
      else .ok h
    | none => .ok h
  else h.freePages real (bucketSize / pageSize)

def free (h : Heap) (ptr caller : Nat) : Except HeapFault Heap :=
  if ptr = 0 then .ok h
  else if gwpAsanIsManaged ptr then h.gwpAsanFree ptr caller
  else if ptr < kheapStartVirtual ∨ heapEnd < ptr then .ok h
  else if ptr &&& 0x7 ≠ 0 then .ok h
  else
    let real := Word.sub ptr heapHeaderSize
    let bucketSize := h.mem.read64 real
    if bucketSize &&& 2 ^ 63 ≠ 0 then .error (.doubleFree ptr caller)
    else
      let userSize := h.mem.read64 (Word.add real 8) ^^^ h.magic
      if bucketSize < userSize then .error .userSizeExceedsBucket
      else
        let footer := h.mem.read64 (Word.add ptr userSize)
        if footer ≠ h.canary then .error (.canaryOverwritten footer h.canary userSize)
        else
          { h with
            mem := (fastPoison h.mem ptr userSize).write64 real
              (bucketSize ||| 2 ^ 63) }.release real bucketSize

/-- The page count of a range without a header. -/
def dmaPages (size : Nat) : Nat := Word.alignUp size pageSize / pageSize

def mallocDma (h : Heap) (size alignment : Nat) (supply : Option (Nat → Nat))
    (block : Option LargeBlock) : Except HeapFault (Nat × Heap) :=
  if size = 0 ∨ alignment = 0 then .ok (0, h)
  else
    let alignment := if alignment < pageSize then pageSize else alignment
    h.vmmAllocAligned (dmaPages size) (alignment / pageSize) supply block

def freeDma (h : Heap) (ptr size : Nat) : Except HeapFault Heap :=
  if ptr = 0 ∨ size = 0 then .ok h
  else ({ h with mem := fastPoison h.mem ptr size } : Heap).freePages ptr (dmaPages size)

/-- The aligned pointer inside a block; the word before it is the pointer `free` needs. -/
def alignBlock (alignment : Nat) : Nat × Heap → Nat × Heap
  | (raw, h) =>
    if raw = 0 then (0, h)
    else
      let aligned := Word.alignUp (Word.add raw 8) alignment
      (aligned, { h with mem := h.mem.write64 (Word.sub aligned 8) raw })

def mallocAligned (h : Heap) (size alignment : Nat) (supply : Supply)
    (block : Option LargeBlock) : Except HeapFault (Nat × Heap) :=
  if alignment = 0 ∨ alignment &&& (alignment - 1) ≠ 0 then .ok (0, h)
  else if pageSize ≤ alignment then h.mallocDma size alignment supply.pages block
  else
    let total := Word.add (Word.add size alignment) 8
    if total < size then .ok (0, h)
    else (h.malloc total supply).map (alignBlock alignment)

def freeAligned (h : Heap) (ptr caller : Nat) : Except HeapFault Heap :=
  if ptr = 0 then .ok h
  else if ptr &&& (pageSize - 1) = 0 then h.free ptr caller
  else h.free (h.mem.read64 (Word.sub ptr 8)) caller

end Heap

end Singularity.KernelHeap
