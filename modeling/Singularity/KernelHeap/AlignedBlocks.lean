import Singularity.KernelHeap.HeapRuns

/-!
# Aligned blocks

For an alignment below a page `mallocAligned` takes a block of `malloc`, returns an aligned
pointer into it and stores the pointer to the block in the word before. For larger
alignments it returns a range of the arena without a header. `freeAligned` tells the two
apart by the address alone: it takes a page-aligned pointer for the pointer to a block.
-/

namespace Singularity.KernelHeap

open Foundation Function List Nat

/-- The size of the block behind an aligned pointer. -/
def alignedTotal (size alignment : Nat) : Nat := size + alignment + 8

/-- The words `free` reads as a header. -/
def headerReads (ptr : Nat) : List Nat :=
  if ptr = 0 ∨ gwpAsanIsManaged ptr ∨ ptr < kheapStartVirtual ∨ heapEnd < ptr ∨ ptr &&& 0x7 ≠ 0
  then []
  else [Word.sub ptr heapHeaderSize, Word.add (Word.sub ptr heapHeaderSize) 8]

/-- The words `freeAligned` reads to find the block and its size. -/
def Heap.alignedReads (h : Heap) (ptr : Nat) : List Nat :=
  if ptr &&& (pageSize - 1) = 0 then headerReads ptr
  else Word.sub ptr 8 :: headerReads (h.mem.read64 (Word.sub ptr 8))

/-- Start and length of the memory reserved for an aligned pointer: the page range, the
data page of a slot, or the block with the length in its header. -/
def Heap.allocation (h : Heap) (ptr size alignment : Nat) : Nat × Nat :=
  if pageSize ≤ alignment then (ptr, Heap.dmaPages size * pageSize)
  else
    let raw := h.mem.read64 (Word.sub ptr 8)
    if gwpAsanIsManaged raw then (raw / pageSize * pageSize, pageSize)
    else (Word.sub raw heapHeaderSize, h.mem.read64 (Word.sub raw heapHeaderSize))

/-- The heap has the blocks, slabs, free addresses, frames and sampled objects that `h` has. -/
structure Restored (aslr : Nat) (pinned : List VmRange) (h : Heap) (live : List Block)
    (slabs : List (Nat × Nat)) (h' : Heap) : Prop where
  before : HeapInv aslr pinned h live slabs
  after : HeapInv aslr pinned h' live slabs
  mem : ∀ q : Piece, q.Of slabs (largeOf live ++ pinned) → q.Used (objsOf live) →
    ∀ x, q.lo ≤ x → x < q.lo + q.len → h'.mem x = h.mem x
  arena : ∀ x, h'.arena.Vacant x ↔ h.arena.Vacant x
  frames : h'.frames = h.frames
  slots : ∀ i < gwpAsanSlots,
    ((h'.gwp.slots i).state = .active ↔ (h.gwp.slots i).state = .active) ∧
      ((h.gwp.slots i).state = .active → h'.gwp.slots i = h.gwp.slots i ∧
        ∀ x, slotDataPage i ≤ x → x < slotDataPage i + pageSize → h'.mem x = h.mem x)

/-- The pointer `ptr` of a request to `h` that left `h₁` is aligned, and whatever its owner
writes, `freeAligned` reads its header from the memory reserved for the pointer and
restores the heap. -/
structure RoundTrip (aslr : Nat) (pinned : List VmRange) (h : Heap) (live : List Block)
    (h₁ : Heap) (ptr size alignment : Nat) : Prop where
  aligned : alignment ∣ ptr
  inside : heapStart aslr ≤ (h₁.allocation ptr size alignment).1 ∧
      (h₁.allocation ptr size alignment).1 + (h₁.allocation ptr size alignment).2 ≤ heapEnd ∨
    alignment < pageSize ∧
      ∃ i < gwpAsanSlots, h₁.allocation ptr size alignment = (slotDataPage i, pageSize)
  covers : (h₁.allocation ptr size alignment).1 ≤ ptr ∧
    ptr + size ≤ (h₁.allocation ptr size alignment).1 + (h₁.allocation ptr size alignment).2
  freed : ∀ m caller, Mem.SameOutside ptr size h₁.mem m →
    (∀ a ∈ ({ h₁ with mem := m } : Heap).alignedReads ptr,
      (h₁.allocation ptr size alignment).1 ≤ a ∧
        a + 8 ≤ (h₁.allocation ptr size alignment).1 + (h₁.allocation ptr size alignment).2) ∧
    ∃ slabs h₂, ({ h₁ with mem := m } : Heap).freeAligned ptr caller = .ok h₂ ∧
      Restored aslr pinned h live slabs h₂

/-- The condition for the round trip: the alignment is below a page, the block is not too
large, and unless the request is sampled its bucket has a free object, or the arena has
room to take its pages back. -/
def Heap.Returns (h : Heap) (size alignment : Nat) (supply : Supply) : Prop :=
  alignment < pageSize ∧ alignedTotal size alignment < blockLimit ∧
    (¬ h.Sampled (alignedTotal size alignment) supply →
      match sizeBucket (alignedTotal size alignment) with
      | some i => (h.buckets i).head .partly ≠ 0 ∨ (h.buckets i).head .empty ≠ 0
      | none => h.arena.regions.length < vmArenaMaxRegions ∨
          h.arena.ExactFit (blockPages (alignedTotal size alignment)))

variable {k aslr size i : Nat} {pinned : List VmRange} {h : Heap} {live : List Block}
  {slabs : List (Nat × Nat)} {b : Block}

/-- Where an aligned pointer lies in the block at `raw`. -/
structure AlignedIn (raw size k ptr : Nat) : Prop where
  dvd : 2 ^ k ∣ ptr
  lo : raw + 8 ≤ ptr
  hi : ptr + size ≤ raw + alignedTotal size (2 ^ k)
  word : Word.sub ptr 8 = ptr - 8
  off_page : ptr &&& (pageSize - 1) ≠ 0

lemma exponent_lt (hk : 2 ^ k < pageSize) : k < 12 :=
  (Nat.pow_lt_pow_iff_right (by decide : 1 < 2)).mp hk

lemma alignedIn (hk : 2 ^ k < pageSize) (hend : raw + alignedTotal size (2 ^ k) < 2 ^ 64)
    (hpos : 0 < (raw + 8) % pageSize) (hwindow : (raw + 8) % pageSize + 2 ^ k ≤ pageSize) :
    AlignedIn raw size k (Word.alignUp (Word.add raw 8) (2 ^ k)) := by
  have hlt := exponent_lt hk
  have hpow := Nat.two_pow_pos k
  have hadd : Word.add raw 8 = raw + 8 := by
    apply Word.add_eq
    unfold alignedTotal at hend
    omega
  have hfit : raw + 8 + 2 ^ k ≤ 2 ^ 64 := by
    unfold alignedTotal at hend
    omega
  obtain ⟨hlo, hhi⟩ := Word.alignUp_bounds hpow hfit
  have hdvd := Word.dvd_alignUp (k := k) (by omega) (raw + 8)
  rw [hadd]
  generalize Word.alignUp (raw + 8) (2 ^ k) = ptr at hlo hhi hdvd
  have hmask : ptr &&& (pageSize - 1) = ptr % 2 ^ 12 := and_two_pow_sub_one_eq_mod ptr 12
  refine ⟨hdvd, hlo, ?_, Word.sub_eq (by omega) (by omega), ?_⟩
  · unfold alignedTotal
    omega
  · rw [hmask]
    unfold pageSize at hpos hwindow
    omega

lemma bucket_window : ∀ i < numBuckets, ∀ j < objectCount (bucketObjSize i),
    0 < (slabHeaderBytes + j * bucketObjSize i + 24) % pageSize ∧
      (slabHeaderBytes + j * bucketObjSize i + 24) % pageSize + bucketSize i / 2 ≤ pageSize := by
  decide

lemma two_pow_le_half (h : 2 ^ k < 2 ^ (n + 1)) : 2 ^ k ≤ 2 ^ (n + 1) / 2 := by
  have hlt : k < n + 1 := (Nat.pow_lt_pow_iff_right (by decide : 1 < 2)).mp h
  rw [Nat.pow_succ, Nat.mul_div_cancel _ (by decide)]
  exact Nat.pow_le_pow_right (by decide) (by omega)

lemma HeapInv.block_window (hI : HeapInv aslr pinned h live slabs) (hb : b ∈ live)
    (hsz : b.size = alignedTotal size (2 ^ k)) (hk : 2 ^ k < pageSize) :
    0 < (b.ptr + 8) % pageSize ∧ (b.ptr + 8) % pageSize + 2 ^ k ≤ pageSize := by
  have hof := (hI.piece_of hb).1
  cases hbucket : sizeBucket b.size with
  | some i =>
    obtain ⟨hi, hle⟩ := sizeBucket_some hbucket
    simp only [Block.piece, hbucket, Piece.Of] at hof
    obtain ⟨j, hj, hreal⟩ := mem_objects.mp hof.2
    obtain ⟨hpos, hwindow⟩ := bucket_window i hi j hj
    have hpage : pageSize ∣ slabOf (bucketObjSize i) b.real :=
      (Dvd.intro_left _ rfl : pageSize ∣ slabBytes (bucketObjSize i)).trans
        (hI.layout.slab_placed hof.1).2.1
    have hhalf : 2 ^ k ≤ bucketSize i / 2 := by
      rw [(bucketSize_spec i hi).1] at hle ⊢
      refine two_pow_le_half (n := i + 4) (lt_of_lt_of_le ?_ hle)
      unfold totalSize alignedTotal at *
      omega
    have hmod : (b.ptr + 8) % pageSize =
        (slabHeaderBytes + j * bucketObjSize i + 24) % pageSize := by
      have hsum : b.ptr + 8 = slabOf (bucketObjSize i) b.real +
          (slabHeaderBytes + j * bucketObjSize i + 24) := by
        unfold Block.ptr heapHeaderSize
        omega
      obtain ⟨q, hq⟩ := hpage
      rw [hsum, hq, mul_add_mod]
    rw [hmod]
    exact ⟨hpos, (Nat.add_le_add_left hhalf _).trans hwindow⟩
  | none =>
    simp only [Block.piece, hbucket, Piece.Of] at hof
    have hpage := (hI.layout.held.valid b.range (mem_append_right _ hof)).2.2
    have hmod : (b.ptr + 8) % pageSize = 24 := by
      obtain ⟨q, hq⟩ := hpage
      have hsum : b.ptr + 8 = pageSize * q + 24 := by
        unfold Block.ptr heapHeaderSize
        simp only [Block.range] at hq
        omega
      rw [hsum, mul_add_mod]
      rfl
    have hhalf : 2 ^ k ≤ 2 ^ (11 + 1) / 2 := two_pow_le_half hk
    rw [hmod]
    unfold pageSize
    omega

lemma slot_window (hi : i < gwpAsanSlots) (hsz : alignedTotal size (2 ^ k) < pageSize) :
    0 < (Gwp.userVirt i (alignedTotal size (2 ^ k)) + 8) % pageSize ∧
      (Gwp.userVirt i (alignedTotal size (2 ^ k)) + 8) % pageSize + 2 ^ k ≤ pageSize := by
  obtain ⟨hlo, hhi⟩ := userVirt_bounds hi hsz
  have hpow := Nat.two_pow_pos k
  generalize Gwp.userVirt i (alignedTotal size (2 ^ k)) = raw at hlo hhi
  unfold alignedTotal at hhi
  unfold slotDataPage slotBase gwpVirtBase slotStride pageSize at *
  omega

lemma alignedIn_slot (hi : i < gwpAsanSlots) (hk : 2 ^ k < pageSize)
    (hsz : alignedTotal size (2 ^ k) < pageSize) :
    AlignedIn (Gwp.userVirt i (alignedTotal size (2 ^ k))) size k
      (Word.alignUp (Word.add (Gwp.userVirt i (alignedTotal size (2 ^ k))) 8) (2 ^ k)) := by
  obtain ⟨hpos, hwindow⟩ := slot_window hi hsz
  refine alignedIn hk ?_ hpos hwindow
  have hhi := (userVirt_bounds hi hsz).2
  have hlimit := (slotDataPage_bounds hi).2
  unfold gwpVirtLimit gwpVirtBase gwpAsanSlots pageSize at hlimit
  unfold pageSize at hhi
  omega

variable {h' : Heap} {ptr : Nat} {m : Mem} {g : Gwp}

section
variable {slabs' : List (Nat × Nat)} {raw : Nat}

section
variable (hin : AlignedIn raw size k ptr) (hword : m.read64 (Word.sub ptr 8) = raw) (h : Heap)
include hin hword

lemma AlignedIn.freeAligned_eq (caller : Nat) :
    ({ h with mem := m } : Heap).freeAligned ptr caller =
      ({ h with mem := m } : Heap).free raw caller := by
  have hne : ptr ≠ 0 := by
    have := hin.lo
    omega
  rw [Heap.freeAligned, if_neg hne, if_neg hin.off_page, hword]

lemma AlignedIn.alignedReads_eq :
    ({ h with mem := m } : Heap).alignedReads ptr = (ptr - 8) :: headerReads raw := by
  rw [Heap.alignedReads, if_neg hin.off_page, hword, hin.word]

end

lemma AlignedIn.owner_write (hin : AlignedIn raw size k ptr) (hraw : raw < 2 ^ 64)
    (hm : Mem.SameOutside ptr size (m0.write64 (Word.sub ptr 8) raw) m) :
    m.read64 (Word.sub ptr 8) = raw ∧
      Mem.SameOutside raw (alignedTotal size (2 ^ k)) m0 m := by
  have hlo := hin.lo
  have hhi := hin.hi
  have hword := hin.word
  constructor
  · rw [hm.read64 (by omega)]
    exact Mem.read64_write64 hraw
  refine Mem.SameOutside.trans ((Mem.sameOutside_write64 m0 _ raw).mono ?_ ?_)
    (hm.mono ?_ hhi)
  · omega
  · omega
  · omega

variable (hI : HeapInv aslr pinned h live slabs)

section
include hI

lemma HeapInv.ptr_lt (hb : b ∈ live) : b.ptr + b.size < 2 ^ 64 := by
  have hlimit := (hI.block_limit hb).2
  have hend : heapEnd < 2 ^ 64 := (placed_heap aslr).limit_lt
  unfold Block.ptr
  unfold totalSize at hlimit
  omega

lemma HeapInv.alignedIn (hb : b ∈ live)
    (hsz : b.size = alignedTotal size (2 ^ k)) (hk : 2 ^ k < pageSize) :
    AlignedIn b.ptr size k (Word.alignUp (Word.add b.ptr 8) (2 ^ k)) := by
  obtain ⟨hpos, hwindow⟩ := hI.block_window hb hsz hk
  refine KernelHeap.alignedIn hk ?_ hpos hwindow
  rw [← hsz]
  exact hI.ptr_lt hb

lemma HeapInv.aligned_write (hb : b ∈ live)
    (hsz : b.size = alignedTotal size (2 ^ k)) (hin : AlignedIn b.ptr size k ptr)
    (hm : Mem.SameOutside ptr size (h.mem.write64 (Word.sub ptr 8) b.ptr) m) :
    m.read64 (Word.sub ptr 8) = b.ptr ∧ Mem.SameOutside b.ptr b.size h.mem m ∧
      HeapInv aslr pinned { h with mem := m } live slabs := by
  have hlt := hI.ptr_lt hb
  obtain ⟨hword, hsame⟩ := hin.owner_write (by omega) hm
  rw [← hsz] at hsame
  exact ⟨hword, hsame, hI.user_write hb hsame⟩

end

lemma blockBytes_le (b : Block) : blockBytes b.size ≤ b.piece.len := by
  cases hbucket : sizeBucket b.size with
  | some i =>
    simp only [blockBytes, Block.piece, hbucket, Piece.len]
    exact (bucketSize_spec i (sizeBucket_some hbucket).1).2.2.2.1
  | none =>
    simp only [blockBytes, Block.piece, hbucket, Piece.len, Block.range]
    exact le_rfl

lemma ptr_sub (hreal : b.ptr < 2 ^ 64) : Word.sub b.ptr heapHeaderSize = b.real := by
  rw [Word.sub_eq hreal (le_add_left _ _)]
  exact Nat.add_sub_cancel _ _

lemma HeapInv.allocation_eq (hI : HeapInv aslr pinned { h with mem := m } live slabs)
    (hb : b ∈ live) (hword : m.read64 (Word.sub ptr 8) = b.ptr) (hk : 2 ^ k < pageSize)
    (size : Nat) : ({ h with mem := m } : Heap).allocation ptr size (2 ^ k) =
      (b.real, blockBytes b.size) := by
  have hlt := hI.ptr_lt hb
  have hbytes : m.read64 b.real = blockBytes b.size := (hI.intact b hb).bytes
  simp only [Heap.allocation, if_neg (not_le.mpr hk), hword, if_neg (hI.not_managed hb),
    ptr_sub (by omega : b.ptr < 2 ^ 64), hbytes]

include hI in
lemma HeapInv.headerReads_inside (hb : b ∈ live) :
    ∀ a ∈ headerReads b.ptr, b.real ≤ a ∧ a + 8 ≤ b.real + blockBytes b.size := by
  have hlt := hI.ptr_lt hb
  have hbytes := (piece_len b).2.2
  have hnext : Word.add b.real 8 = b.real + 8 := by
    apply Word.add_eq
    unfold Block.ptr heapHeaderSize at hlt
    omega
  intro a ha
  unfold headerReads at ha
  split at ha
  · cases ha
  · rw [ptr_sub (by omega), hnext] at ha
    unfold totalSize heapHeaderSize at hbytes
    obtain rfl | rfl := mem_pair.mp ha
    · omega
    · omega

/-- The words `freeAligned` reads lie in the block. -/
lemma HeapInv.reads_inside (hI : HeapInv aslr pinned { h with mem := m } live slabs)
    (hb : b ∈ live) (hsz : b.size = alignedTotal size (2 ^ k))
    (hin : AlignedIn b.ptr size k ptr) (hword : m.read64 (Word.sub ptr 8) = b.ptr) :
    ∀ a ∈ ({ h with mem := m } : Heap).alignedReads ptr,
      b.real ≤ a ∧ a + 8 ≤ b.real + blockBytes b.size := by
  intro a ha
  rw [hin.alignedReads_eq hword] at ha
  obtain rfl | ha := mem_cons.mp ha
  · have hlo := hin.lo
    have hhi := hin.hi
    have hbytes := (piece_len b).2.2
    rw [← hsz] at hhi
    unfold totalSize at hbytes
    unfold Block.ptr at hlo hhi
    omega
  · exact hI.headerReads_inside hb a ha

lemma BlockGrant.piece_ne (hgrant : BlockGrant aslr pinned h live slabs b h' slabs')
    (hof : q.Of slabs (largeOf live ++ pinned)) (hused : q.Used (objsOf live)) : q ≠ b.piece := by
  have hI := hgrant.inv
  rintro rfl
  cases hbucket : sizeBucket b.size with
  | some i =>
    simp only [Block.piece, hbucket, Piece.Used] at hused
    obtain ⟨b', hb', -, hreal⟩ := mem_objsOf.mp hused
    refine (nodup_cons.mp hI.distinct).1 ?_
    rw [← hreal]
    exact mem_map_of_mem hb'
  | none =>
    simp only [Block.piece, hbucket, Piece.Of] at hof
    have hlarge : largeOf (b :: live) ++ pinned = b.range :: (largeOf live ++ pinned) := by
      rw [largeOf_cons b live hbucket, cons_append]
    have happart := hI.layout.held.apart
    have hval := hI.layout.held.valid b.range
      (mem_append_right _ (hlarge ▸ mem_cons_self))
    simp only [reserved, hlarge] at happart
    have hhead := (pairwise_cons.mp (pairwise_append.mp happart).2.1).1 b.range hof
    refine hhead ⟨b.range.base, ⟨le_rfl, ?_⟩, ⟨le_rfl, ?_⟩⟩
    all_goals
      simp only [hi_vmRange]
      have := mul_pos hval.2.1 (by decide : 0 < pageSize)
      omega

lemma BlockGrant.mem_elsewhere (hgrant : BlockGrant aslr pinned h live slabs b h' slabs')
    (hsub : ∀ x ∈ slabs, x ∈ slabs') (hm : Mem.SameOutside b.real b.piece.len h'.mem m) :
    (∀ q : Piece, q.Of slabs (largeOf live ++ pinned) → q.Used (objsOf live) →
      ∀ x, q.lo ≤ x → x < q.lo + q.len → m x = h.mem x) ∧
    ∀ x, heapEnd ≤ x → m x = h.mem x := by
  have hof := (hgrant.inv.piece_of mem_cons_self).1
  constructor
  · intro q hq hused x hlo hhi
    have hne := hgrant.piece_ne hq hused
    have hapart := hgrant.inv.layout.apart (hq.mono hsub fun r hr => mem_largeOf_cons hr) hof hne
    rw [(piece_len b).1] at hapart
    rw [hm x (by omega)]
    exact hgrant.mem q hq hne x hlo hhi
  · intro x hx
    have hlimit := (hgrant.inv.layout.piece_limit hof).2
    rw [(piece_len b).1] at hlimit
    rw [hm x (by omega)]
    exact hgrant.outside x hx

/-- What the round trip of a block needs: no new slab, or room for its pages. -/
def Block.Returns (h h' : Heap) (b : Block) : Prop :=
  match sizeBucket b.size with
  | some i => SlabCache.allocCached h.mem (h.buckets i) ≠ .ok none
  | none => h'.arena.regions.length < vmArenaMaxRegions

variable (hI : HeapInv aslr pinned h live slabs)
include hI

lemma HeapInv.frames_granted (hgr : Granted (heapStart aslr) heapEnd h.arena virt pages arena) :
    ∀ i < pages, h.frames (virt + i * pageSize) = 0 := by
  intro i hi
  have hend := hgr.end_le.trans hgr.shape.watermark_le
  have hlt : virt + i * pageSize < virt + pages * pageSize := by
    unfold pageSize
    omega
  apply hI.layout.unmapped _ (by omega) ((Nat.dvd_add_right hgr.aligned).mpr (Nat.dvd_mul_left ..))
  intro hcov
  have hoff := hI.layout.granted_off hgr hcov
  omega

section
variable (hslots : g.slots = h.gwp.slots)
  (hgrant : BlockGrant aslr pinned { h with gwp := g } live slabs b h' slabs')
  (hready : b.Returns h h')
include hslots hgrant hready

/-- Freeing a block that was just granted restores the heap, apart from the cases in which
the arena does not get back what it gave. -/
lemma BlockGrant.free_restored (hm : Mem.SameOutside b.ptr b.size h'.mem m)
    (hnew : HeapInv aslr pinned { h' with mem := m } (b :: live) slabs') (caller : Nat) :
    ∃ h₂, ({ h' with mem := m } : Heap).free b.ptr caller = .ok h₂ ∧
      Restored aslr pinned h live slabs h₂ := by
  have hroom : sizeBucket b.size = none → h'.arena.regions.length < vmArenaMaxRegions := by
    intro hnone
    simpa only [Block.Returns, hnone] using hready
  obtain ⟨h₂, hok, hafter, hreturned, hgwp, hsame, -⟩ := hnew.free (List.Perm.refl _) caller hroom
  have hblock : Mem.SameOutside b.real b.piece.len h'.mem h₂.mem := by
    refine (hm.mono ?_ ?_).trans hsame
    · exact le_add_right _ _
    have hfit := (piece_len b).2.1
    unfold totalSize at hfit
    unfold Block.ptr
    omega
  have hgwp2 : h₂.gwp.slots = h.gwp.slots := by
    rw [hgwp, hgrant.gwp, hslots]
  have horigin : Origin aslr h slabs b h' slabs' := hgrant.origin
  refine ⟨h₂, hok, ?_⟩
  have hparts : slabs' = slabs ∧ (∀ x, h₂.arena.Vacant x ↔ h.arena.Vacant x) ∧
      h₂.frames = h.frames := by
    cases hbucket : sizeBucket b.size with
    | some i =>
      simp only [Origin, Returned, Block.Returns, hbucket] at horigin hreturned hready
      obtain ⟨-, -, -, -, harena, hframes⟩ := hreturned
      obtain ⟨hslabs, -, harena', hframes'⟩ | ⟨s, -, hnone, -⟩ := horigin
      · refine ⟨hslabs, fun x => ?_, hframes.trans hframes'⟩
        rw [harena, harena']
      · exact absurd hnone hready
    | none =>
      simp only [Origin, Returned, hbucket] at horigin hreturned
      obtain ⟨hslabs, halloc, hgr, frames, hmap⟩ := horigin
      obtain ⟨-, hfree, hframes⟩ := hreturned
      have hne : b.real ≠ 0 := ((heapStart_pos aslr).trans_le hgr.start_le).ne'
      have hpages := (blockPages_eq (hgrant.inv.sized b mem_cons_self).2).2
      refine ⟨hslabs, ?_, ?_⟩
      · exact vacant_free_alloc (placed_heap aslr) hI.layout.held.shape hpages halloc hgr hne
          (hroom hbucket) hfree
      · rw [hframes, hmap]
        exact unmapPages_mapPages (hI.frames_granted hgr)
  obtain ⟨rfl, harena, hframes⟩ := hparts
  obtain ⟨hpieces, houtside⟩ := hgrant.mem_elsewhere (fun x hx => hx) hblock
  refine ⟨hI, hafter, hpieces, harena, hframes, fun i hi => ⟨by rw [hgwp2], fun _ => ⟨by rw [hgwp2],
    fun x hlo hhi => ?_⟩⟩⟩
  apply houtside
  have hbase := (slotDataPage_bounds hi).1
  have hend := heapEnd_lt_gwp
  omega

lemma BlockGrant.roundTrip (hsz : b.size = alignedTotal size (2 ^ k)) (hk : 2 ^ k < pageSize)
    (hin : AlignedIn b.ptr size k ptr) :
    RoundTrip aslr pinned h live { h' with mem := h'.mem.write64 (Word.sub ptr 8) b.ptr } ptr size
      (2 ^ k) := by
  have hb : b ∈ b :: live := mem_cons_self
  obtain ⟨hword, -, hstored⟩ := hgrant.inv.aligned_write hb hsz hin (Mem.SameOutside.refl _ _ _)
  have halloc := hstored.allocation_eq hb hword hk size
  have hlimit := hstored.layout.piece_limit (hstored.piece_of hb).1
  obtain ⟨hpiece, -, hbytes⟩ := piece_len b
  have hlen := blockBytes_le b
  rw [hpiece] at hlimit
  have hcover : b.real ≤ ptr ∧ ptr + size ≤ b.real + blockBytes b.size := by
    have hlo := hin.lo
    have hhi := hin.hi
    rw [← hsz] at hhi
    unfold totalSize at hbytes
    unfold Block.ptr at hlo hhi
    omega
  refine ⟨hin.dvd, ?_, ?_, fun m caller hm => ?_⟩
  · rw [halloc]
    exact .inl ⟨hlimit.1, by omega⟩
  · rwa [halloc]
  · rw [halloc]
    dsimp only at hm ⊢
    obtain ⟨hkept, hsame, hnew⟩ := hgrant.inv.aligned_write hb hsz hin hm
    obtain ⟨h₂, hok, hrestored⟩ := free_restored hI hslots hgrant hready hsame hnew caller
    refine ⟨hnew.reads_inside hb hsz hin hkept, slabs, h₂, ?_, hrestored⟩
    rwa [hin.freeAligned_eq hkept]

end

variable (hgrant : BlockGrant aslr pinned { h with gwp := g } live slabs b h' slabs')

include hgrant in
omit hI in
/-- A slab that was made for the block stays with its bucket. -/
lemma BlockGrant.not_roundTrip_of_slab (hsz : b.size = alignedTotal size (2 ^ k))
    (hin : AlignedIn b.ptr size k ptr) (hbucket : sizeBucket b.size = some i)
    (hnone : SlabCache.allocCached h.mem (h.buckets i) = .ok none) :
    ¬ RoundTrip aslr pinned h live { h' with mem := h'.mem.write64 (Word.sub ptr 8) b.ptr } ptr
      size (2 ^ k) := by
  intro htrip
  have hb : b ∈ b :: live := mem_cons_self
  obtain ⟨-, _, h₂, hfreed, hrestored⟩ := htrip.freed _ 0 (Mem.SameOutside.refl _ _ _)
  obtain ⟨hword, -, hstored⟩ := hgrant.inv.aligned_write hb hsz hin (Mem.SameOutside.refl _ _ _)
  obtain ⟨h2', hok, -, hreturned, -⟩ :=
    hstored.free (List.Perm.refl _) 0 (fun hlarge => by rw [hlarge] at hbucket; cases hbucket)
  dsimp only at hfreed
  rw [hin.freeAligned_eq hword, hok] at hfreed
  injection hfreed with heq
  rw [← heq] at hrestored
  have horigin : Origin aslr h slabs b h' slabs' := hgrant.origin
  simp only [Origin, Returned, hbucket] at horigin hreturned
  obtain ⟨-, -, -, -, harena, -⟩ := hreturned
  obtain ⟨-, hsome, -⟩ | ⟨s, -, -, hgr⟩ := horigin
  · exact hsome hnone
  have hpos := mul_pos hgr.pages_pos (by decide : 0 < pageSize)
  have hwithin : Span.Within (⟨s, slabPages (bucketObjSize i)⟩ : VmRange) s :=
    ⟨le_rfl, Nat.lt_add_of_pos_right hpos⟩
  have hvacant : h2'.arena.Vacant s := (hrestored.arena s).mpr (hgr.fresh s hwithin)
  rw [harena] at hvacant
  obtain hcov | hwm := hvacant
  · exact hgr.taken s hwithin hcov
  · have hend := hgr.end_le
    omega

lemma HeapInv.room_of_free (hb : b ∈ live) (hfreed : h.free b.ptr caller = .ok h')
    (hbucket : sizeBucket b.size = none) : h.arena.regions.length < vmArenaMaxRegions := by
  by_contra hfull
  obtain ⟨m', -, -, hchecked⟩ := hI.free_checked hb caller
  have hpages := blockPages_eq (hI.sized b hb).2
  have hpos : 0 < blockPages b.size := by
    have hbd := (blockPages_bounds b.size).1
    have hgt := sizeBucket_none hbucket
    exact pos_of_ne_zero fun h0 => by rw [h0] at hbd; omega
  have hne : b.real ≠ 0 := ((heapStart_pos aslr).trans_le (hI.block_limit hb).1).ne'
  have hfree := free_eq (placed_heap aslr) hI.layout.held.shape hne hpos hpages.2
  rw [if_neg hfull] at hfree
  rw [hchecked, release_large _ _ hbucket, Heap.freePages] at hfreed
  rw [hfree] at hfreed
  cases hfreed

include hgrant in
omit hI in
lemma BlockGrant.not_roundTrip_of_full
    (hsz : b.size = alignedTotal size (2 ^ k)) (hin : AlignedIn b.ptr size k ptr)
    (hbucket : sizeBucket b.size = none) (hfull : ¬ h'.arena.regions.length < vmArenaMaxRegions) :
    ¬ RoundTrip aslr pinned h live { h' with mem := h'.mem.write64 (Word.sub ptr 8) b.ptr } ptr
      size (2 ^ k) := by
  intro htrip
  have hb : b ∈ b :: live := mem_cons_self
  obtain ⟨-, -, h₂, hfreed, -⟩ := htrip.freed _ 0 (Mem.SameOutside.refl _ _ _)
  obtain ⟨hword, -, hstored⟩ := hgrant.inv.aligned_write hb hsz hin (Mem.SameOutside.refl _ _ _)
  dsimp only at hfreed
  rw [hin.freeAligned_eq hword] at hfreed
  exact hfull (hstored.room_of_free hb hfreed hbucket)

end

lemma userVirt_managed (hi : i < gwpAsanSlots) (hsmall : total < pageSize) :
    gwpAsanIsManaged (Gwp.userVirt i total) := by
  obtain ⟨hlo, hhi⟩ := userVirt_bounds hi hsmall
  obtain ⟨hbase, hlimit⟩ := slotDataPage_bounds hi
  exact ⟨by omega, by omega⟩

section
variable (hI : HeapInv aslr pinned h live slabs) (hslots : g.slots = h.gwp.slots)
  (hi : i < gwpAsanSlots)
include hI hslots hi

/-- Freeing a sampled object restores the heap. -/
lemma HeapInv.free_sampled (hst : (h.gwp.slots i).state = .free) (hsmall : total < pageSize)
    (allocCaller frame : Nat) (hm : Mem.SameOutside (slotDataPage i) pageSize h.mem m)
    (caller : Nat) :
    ∃ h₂, ({ h with
      frames := update h.frames (slotDataPage i) frame
      mem := m
      gwp := g.activate i total allocCaller } : Heap).free (Gwp.userVirt i total) caller =
        .ok h₂ ∧ Restored aslr pinned h live slabs h₂ := by
  obtain ⟨hbase, hlimit⟩ := slotDataPage_bounds hi
  have hmanaged := userVirt_managed hi hsmall
  have hg : GwpOk (g.activate i total allocCaller)
      (update h.frames (slotDataPage i) frame) :=
    (hI.gwp.congr hslots fun _ _ => rfl : GwpOk g h.frames).activate hi hsmall allocCaller frame
  have hact := hI.setGwp (m := m) hg (fun x hx => hm x (by omega))
    (fun v hv => update_of_ne (by omega) _ _)
  have hslot : (g.activate i total allocCaller).slots i =
      ⟨Gwp.userVirt i total, total, allocCaller, 0, .active⟩ := update_self ..
  obtain ⟨hfree, hafter⟩ := hact.gwpAsanFree hi (congrArg GwpSlot.state hslot)
    (congrArg GwpSlot.userPtr hslot) caller
  have hne : Gwp.userVirt i total ≠ 0 := by
    have := hmanaged.1
    unfold gwpVirtBase at this
    omega
  have houtside : ∀ x, x < slotDataPage i ∨ slotDataPage i + pageSize ≤ x →
      m.fill (slotDataPage i) pageSize 0xDE x = h.mem x := fun x hx =>
    (Mem.sameOutside_fill m _ _ _ x hx).trans (hm x hx)
  refine ⟨_, ?_, hI, hafter, fun q hq hused x hlo hhi => ?_, fun x => Iff.rfl, ?_, fun j hj => ?_⟩
  · rw [Heap.free, if_neg hne, if_pos hmanaged, hfree]
  · have hend := (hI.layout.piece_limit hq).2
    have hheap := heapEnd_lt_gwp
    exact houtside x (by omega)
  · rw [update_idem, ← hI.gwp.unmapped i hi (by simp [hst]), update_eq_self]
  by_cases hji : j = i
  · subst hji
    simp [Gwp.retire, Gwp.activate, hst]
  have hslot : ((g.activate i total allocCaller).retire i caller).slots j =
      h.gwp.slots j := by
    simp [Gwp.retire, Gwp.activate, hji, hslots]
  refine ⟨by rw [hslot], fun _ => ⟨hslot, fun x hlo hhi => houtside x ?_⟩⟩
  have hapart : slotDataPage j + pageSize ≤ slotDataPage i ∨
      slotDataPage i + pageSize ≤ slotDataPage j := by
    unfold slotDataPage slotBase slotStride pageSize
    omega
  omega

/-- The round trip of an aligned pointer into a sampled object. -/
lemma HeapInv.roundTrip_sampled (hfree : (h.gwp.slots i).state = .free) (hk : 2 ^ k < pageSize)
    (hsmall : alignedTotal size (2 ^ k) < pageSize) (caller frame : Nat)
    (hin : AlignedIn (Gwp.userVirt i (alignedTotal size (2 ^ k))) size k ptr) :
    RoundTrip aslr pinned h live { h with
      frames := update h.frames (slotDataPage i) frame
      mem := (h.mem.fill (slotDataPage i) pageSize 0).write64 (Word.sub ptr 8)
        (Gwp.userVirt i (alignedTotal size (2 ^ k)))
      gwp := g.activate i (alignedTotal size (2 ^ k)) caller } ptr size (2 ^ k) := by
  have hmanaged := userVirt_managed hi hsmall
  obtain ⟨hlo, hhi⟩ := userVirt_bounds hi hsmall
  have hfreed := fun m hm => hI.free_sampled (m := m) hslots hi hfree hsmall caller frame hm
  have hhdr : headerReads (Gwp.userVirt i (alignedTotal size (2 ^ k))) = [] := by
    simp only [headerReads, hmanaged, true_or, or_true, if_true]
  generalize Gwp.userVirt i (alignedTotal size (2 ^ k)) = raw at *
  have hplo := hin.lo
  have hphi := hin.hi
  have hpow := Nat.two_pow_pos k
  have hraw : raw < 2 ^ 64 := by
    have := hmanaged.2
    unfold gwpVirtLimit gwpVirtBase gwpAsanSlots pageSize at this
    omega
  have hfloor : raw / pageSize * pageSize = slotDataPage i := by
    unfold alignedTotal slotDataPage slotBase gwpVirtBase slotStride pageSize at *
    omega
  have hstored : Mem.SameOutside ptr size
      ((h.mem.fill (slotDataPage i) pageSize 0).write64 (Word.sub ptr 8) raw) _ :=
    Mem.SameOutside.refl _ _ _
  have hword := (hin.owner_write hraw hstored).1
  have halloc : ({ h with
      frames := update h.frames (slotDataPage i) frame
      mem := (h.mem.fill (slotDataPage i) pageSize 0).write64 (Word.sub ptr 8) raw
      gwp := g.activate i (alignedTotal size (2 ^ k)) caller } : Heap).allocation ptr size
        (2 ^ k) = (slotDataPage i, pageSize) := by
    simp only [Heap.allocation, if_neg (not_le.mpr hk), hword, if_pos hmanaged, hfloor]
  refine ⟨hin.dvd, ?_, ?_, fun m caller' hm => ?_⟩
  · rw [halloc]
    exact .inr ⟨hk, i, hi, rfl⟩
  · rw [halloc]
    omega
  rw [halloc]
  dsimp only at hm ⊢
  obtain ⟨hkept, hsame⟩ := hin.owner_write hraw hm
  have hpage : Mem.SameOutside (slotDataPage i) pageSize h.mem m :=
    (Mem.sameOutside_fill _ _ _ _).trans (hsame.mono hlo hhi)
  obtain ⟨h₂, hok, hrestored⟩ := hfreed m hpage caller'
  refine ⟨fun a ha => ?_, slabs, h₂, ?_, hrestored⟩
  · have hreads := hin.alignedReads_eq hkept { h with
      frames := update h.frames (slotDataPage i) frame
      gwp := g.activate i (alignedTotal size (2 ^ k)) caller }
    rw [hreads, hhdr, mem_singleton] at ha
    omega
  · exact (hin.freeAligned_eq hkept { h with
      frames := update h.frames (slotDataPage i) frame
      gwp := g.activate i (alignedTotal size (2 ^ k)) caller } caller').trans hok

end

lemma createSlab_none (h : Heap) (idx : Nat) :
    (∃ h', h.createSlab idx none = .ok (0, h')) ∨
      ∃ fault, h.createSlab idx none = .error fault := by
  unfold Heap.createSlab
  dsimp only
  split
  · exact .inl ⟨_, rfl⟩
  · split
    · exact .inl ⟨_, rfl⟩
    · exact .inr ⟨_, rfl⟩

lemma slabAlloc_supply (hok : h.slabAlloc idx none = .ok (ptr, h')) (hne : ptr ≠ 0)
    (frames : Nat → Nat) : h.slabAlloc idx (some frames) = .ok (ptr, h') := by
  unfold Heap.slabAlloc at hok ⊢
  cases hcached : SlabCache.allocCached h.mem (h.buckets idx) with
  | error fault =>
    rw [hcached] at hok
    cases hok
  | ok found =>
    rw [hcached] at hok
    cases found with
    | some found => exact hok
    | none =>
      obtain ⟨h₁, hcreate⟩ | ⟨fault, hcreate⟩ := createSlab_none h idx
      · simp [hcreate, bind, Except.bind, SlabCache.allocCreated] at hok
        exact absurd hok.1.symm hne
      · simp [hcreate, bind, Except.bind] at hok

lemma vmmAlloc_none (hok : h.vmmAlloc pages none = .ok (ptr, h')) : ptr = 0 := by
  unfold Heap.vmmAlloc Heap.mapRange at hok
  split at hok
  · cases hok
    rfl
  · dsimp only at hok
    split at hok <;> cases hok
    · rfl

lemma finish_ne_zero (hok : Heap.finish size bytes r = (ptr, h')) (hne : ptr ≠ 0) : r.1 ≠ 0 := by
  intro h0
  simp only [Heap.finish, h0, if_true, Prod.mk.injEq] at hok
  exact hne hok.1.symm

lemma mallocUnsampled_supply (hok : h.mallocUnsampled size none = .ok (ptr, h'))
    (hne : ptr ≠ 0) (frames : Nat → Nat) :
    h.mallocUnsampled size (some frames) = .ok (ptr, h') := by
  unfold Heap.mallocUnsampled at hok ⊢
  dsimp only at hok ⊢
  split at hok
  case isTrue hwrap => rwa [if_pos hwrap]
  case isFalse hwrap =>
    rw [if_neg hwrap]
    split at hok
    case isTrue hsmall =>
      rw [if_pos hsmall]
      split at hok
      case h_1 idx hidx =>
        split at hok
        case isTrue hlt =>
          obtain ⟨r, hr, hfinish⟩ := ok_of_map hok
          have hsome := slabAlloc_supply hr (finish_ne_zero hfinish hne) frames
          rw [if_pos hlt, hsome, ← hfinish]
          rfl
        case isFalse hge => rwa [if_neg hge]
      · exact hok
    · obtain ⟨r, hr, hfinish⟩ := ok_of_map hok
      exact absurd (vmmAlloc_none hr) (finish_ne_zero hfinish hne)

lemma allocCached_none_iff (m : Mem) (c : SlabCache) :
    SlabCache.allocCached m c = .ok none ↔ ¬ (c.head .partly ≠ 0 ∨ c.head .empty ≠ 0) := by
  have hsome : ∀ x : Except SlabFault (Nat × SlabCache), x.map some ≠ .ok none := by
    rintro (fault | found) heq
    · cases heq
    · cases heq
  unfold SlabCache.allocCached
  split
  case isTrue hpartly => simp [hpartly, hsome]
  case isFalse hpartly =>
    split
    case isTrue hempty => simp [hempty, hsome]
    case isFalse hempty => simp [hpartly, hempty]

section
variable {h₁ : Heap} {supply : Supply}

/-- A page range without a header does not make the round trip. -/
lemma not_roundTrip_of_page (hk : pageSize ≤ 2 ^ k) (hne : ptr ≠ 0) :
    ¬ RoundTrip aslr pinned h live h₁ ptr size (2 ^ k) := by
  intro htrip
  have hexp : 12 ≤ k := (Nat.pow_le_pow_iff_right (by decide : 1 < 2)).mp hk
  have hpage : 2 ^ 12 ∣ ptr := (pow_dvd_pow 2 hexp).trans htrip.aligned
  have hmask : ptr &&& (pageSize - 1) = 0 := by
    have hmod : ptr &&& (pageSize - 1) = ptr % 2 ^ 12 := and_two_pow_sub_one_eq_mod ptr 12
    rw [hmod]
    exact mod_eq_zero_of_dvd hpage
  have halloc : h₁.allocation ptr size (2 ^ k) = (ptr, Heap.dmaPages size * pageSize) := by
    rw [Heap.allocation, if_pos hk]
  have hinside := htrip.inside
  have hreads := (htrip.freed h₁.mem 0 (Mem.SameOutside.refl _ _ _)).1
  rw [halloc] at hinside hreads
  have hheap := hinside.resolve_right fun hslot => absurd hslot.1 (not_lt.mpr hk)
  have hstart := le_heapStart aslr
  have hend := heapEnd_lt_gwp
  have hheader : headerReads ptr =
      [Word.sub ptr heapHeaderSize, Word.add (Word.sub ptr heapHeaderSize) 8] := by
    have hword : ptr &&& 0x7 = 0 := by
      have hmod : ptr &&& 0x7 = ptr % 2 ^ 3 := and_two_pow_sub_one_eq_mod ptr 3
      rw [hmod]
      omega
    rw [headerReads, if_neg]
    rintro (h0 | hmanaged | hlow | hhigh | hodd)
    · exact hne h0
    · exact absurd hmanaged.1 (by omega)
    · omega
    · omega
    · exact hodd hword
  have hfirst := hreads (Word.sub ptr heapHeaderSize) (by
    simp [Heap.alignedReads, hmask, hheader])
  have hlt : ptr < 2 ^ 64 := by
    have := (placed_heap aslr).limit_lt
    omega
  rw [Word.sub_eq hlt (by unfold heapHeaderSize; omega)] at hfirst
  unfold heapHeaderSize at hfirst
  omega

lemma not_roundTrip_of_large (hk : 2 ^ k < pageSize)
    (hsz : blockLimit ≤ alignedTotal size (2 ^ k)) :
    ¬ RoundTrip aslr pinned h live h₁ ptr size (2 ^ k) := by
  intro htrip
  have hcovers := htrip.covers
  have hstart := le_heapStart aslr
  unfold alignedTotal blockLimit at hsz
  obtain hheap | ⟨-, i, -, hslot⟩ := htrip.inside
  · have hend : heapEnd = 0xFFFF900020FFFFFF := by decide
    unfold kheapStartVirtual at hstart
    unfold pageSize at hk
    omega
  · rw [hslot] at hcovers
    unfold pageSize at *
    omega

/-- A pointer with an alignment below a page comes from `malloc`. -/
lemma mallocAligned_eq (h : Heap) (supply : Supply) (block : Option LargeBlock)
    (hk : 2 ^ k < pageSize) (hsz : alignedTotal size (2 ^ k) < blockLimit) :
    h.mallocAligned size (2 ^ k) supply block =
      (h.malloc (alignedTotal size (2 ^ k)) supply).map (Heap.alignBlock (2 ^ k)) := by
  have hpow : 2 ^ k &&& (2 ^ k - 1) = 0 := by
    rw [and_two_pow_sub_one_eq_mod, mod_self]
  have hpos := Nat.two_pow_pos k
  have hval : ¬ (2 ^ k = 0 ∨ 2 ^ k &&& (2 ^ k - 1) ≠ 0) := by
    simp [hpow]
  have htot : Word.add (Word.add size (2 ^ k)) 8 = alignedTotal size (2 ^ k) := by
    unfold alignedTotal blockLimit at *
    have hsum : Word.add size (2 ^ k) = size + 2 ^ k := Word.add_eq (by omega)
    rw [hsum, Word.add_eq (by omega)]
  have hwrap : ¬ alignedTotal size (2 ^ k) < size := by
    unfold alignedTotal
    omega
  simp only [Heap.mallocAligned, if_neg hval, if_neg (not_le.mpr hk), htot, if_neg hwrap]

lemma mallocAligned_inside (hk : 2 ^ k < pageSize) (hsz : alignedTotal size (2 ^ k) < blockLimit)
    (hok : h.mallocAligned size (2 ^ k) supply block = .ok (ptr, h₁)) (hne : ptr ≠ 0) :
    ∃ raw h', raw ≠ 0 ∧ h.malloc (alignedTotal size (2 ^ k)) supply = .ok (raw, h') ∧
      ptr = Word.alignUp (Word.add raw 8) (2 ^ k) ∧
      h₁ = { h' with mem := h'.mem.write64 (Word.sub ptr 8) raw } := by
  rw [mallocAligned_eq h supply block hk hsz] at hok
  obtain ⟨⟨raw, h'⟩, hraw, halign⟩ := ok_of_map hok
  unfold Heap.alignBlock at halign
  dsimp only at halign
  split at halign <;> cases halign
  · exact absurd rfl hne
  case isFalse h0 => exact ⟨raw, h', h0, hraw, rfl, rfl⟩

variable (hI : HeapInv aslr pinned h live slabs)
include hI

lemma HeapInv.malloc_grant (hpos : 0 < total) (hsz : total < blockLimit)
    (hs : ¬ h.Sampled total supply) (hok : h.malloc total supply = .ok (raw, h')) (hne : raw ≠ 0) :
    ∃ b slabs', ∃ g : Gwp, g.slots = h.gwp.slots ∧ b.size = total ∧ b.ptr = raw ∧
      BlockGrant aslr pinned { h with gwp := g } live slabs b h' slabs' := by
  obtain ⟨g, hslots, heq⟩ := malloc_of_not_sampled hpos hs
  rw [heq] at hok
  obtain ⟨frames, hsome⟩ : ∃ frames : Nat → Nat,
      ({ h with gwp := g } : Heap).mallocUnsampled total (some frames) = .ok (raw, h') := by
    cases hpages : supply.pages with
    | some frames => exact ⟨frames, hpages ▸ hok⟩
    | none => exact ⟨fun _ => 0, mallocUnsampled_supply (hpages ▸ hok) hne _⟩
  have hinv' : HeapInv aslr pinned { h with gwp := g } live slabs :=
    hI.setGwp (hI.gwp.congr hslots fun _ _ => rfl) (fun _ _ => rfl) (fun _ _ => rfl)
  have hroom : some frames = none → h.arena.regions.length + 1 < vmArenaMaxRegions := by
    rintro ⟨⟩
  rcases hinv'.mallocUnsampled hpos hsz hroom with
    ⟨arena, hnull, -⟩ | ⟨b, h'', slabs', hblock, hbsize, hgrant⟩
  · rw [hnull] at hsome
    cases hsome
    exact absurd rfl hne
  · rw [hblock] at hsome
    cases hsome
    exact ⟨b, slabs', g, hslots, hbsize, rfl, hgrant⟩

lemma Block.returns_iff
    (hgrant : BlockGrant aslr pinned { h with gwp := g } live slabs b h' slabs') :
    b.Returns h h' ↔
      match sizeBucket b.size with
      | some i => (h.buckets i).head .partly ≠ 0 ∨ (h.buckets i).head .empty ≠ 0
      | none => h.arena.regions.length < vmArenaMaxRegions ∨
          h.arena.ExactFit (blockPages b.size) := by
  have horigin : Origin aslr h slabs b h' slabs' := hgrant.origin
  cases hbucket : sizeBucket b.size with
  | some i =>
    simp only [Block.Returns, hbucket, ne_eq, allocCached_none_iff, not_not]
  | none =>
    simp only [Origin, hbucket] at horigin
    obtain ⟨-, halloc, hgr, -⟩ := horigin
    have hpages := (blockPages_eq (hgrant.inv.sized b mem_cons_self).2).2
    have hlength := length_alloc_lt_iff hI.layout.held.shape.room hgr.pages_pos hpages
    rw [halloc] at hlength
    simpa only [Block.Returns, hbucket] using hlength

/-- An aligned pointer makes the round trip exactly if the condition holds when it is asked for. -/
lemma HeapInv.roundTrip_iff
    (hok : h.mallocAligned size (2 ^ k) supply block = .ok (ptr, h₁)) (hne : ptr ≠ 0) :
    RoundTrip aslr pinned h live h₁ ptr size (2 ^ k) ↔ h.Returns size (2 ^ k) supply := by
  by_cases hk : 2 ^ k < pageSize
  · by_cases hsz : alignedTotal size (2 ^ k) < blockLimit
    · obtain ⟨raw, h', hraw, hmalloc, rfl, rfl⟩ := mallocAligned_inside hk hsz hok hne
      have hpos : 0 < alignedTotal size (2 ^ k) := succ_pos _
      by_cases hs : h.Sampled (alignedTotal size (2 ^ k)) supply
      · have hret : h.Returns size (2 ^ k) supply := ⟨hk, hsz, fun hnot => absurd hs hnot⟩
        obtain ⟨i, hi, g, hslots, hst, hsampled⟩ := malloc_of_sampled hpos hs
        rw [hmalloc] at hsampled
        cases hsampled
        exact iff_of_true (hI.roundTrip_sampled hslots hi hst hk hs.1 _ _
          (alignedIn_slot hi hk hs.1)) hret
      · obtain ⟨b, slabs', g, hslots, hbsize, rfl, hgrant⟩ :=
          hI.malloc_grant hpos hsz hs hmalloc hraw
        have hin := hgrant.inv.alignedIn mem_cons_self hbsize hk
        have hret : h.Returns size (2 ^ k) supply ↔ b.Returns h h' := by
          rw [Block.returns_iff hI hgrant, hbsize, Heap.Returns]
          exact ⟨fun hret => hret.2.2 hs, fun hret => ⟨hk, hsz, fun _ => hret⟩⟩
        rw [hret]
        by_cases hready : b.Returns h h'
        · exact iff_of_true (hgrant.roundTrip hI hslots hready hbsize hk hin) hready
        refine iff_of_false ?_ hready
        cases hbucket : sizeBucket b.size with
        | some i =>
          simp only [Block.Returns, hbucket, ne_eq, not_not] at hready
          exact hgrant.not_roundTrip_of_slab hbsize hin hbucket hready
        | none =>
          simp only [Block.Returns, hbucket] at hready
          exact hgrant.not_roundTrip_of_full hbsize hin hbucket hready
    · exact iff_of_false (not_roundTrip_of_large hk (not_lt.mp hsz)) fun hret =>
        hsz hret.2.1
  · exact iff_of_false (not_roundTrip_of_page (not_lt.mp hk) hne) fun hret => hk hret.1

end

end Singularity.KernelHeap
