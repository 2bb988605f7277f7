import Singularity.KernelHeap.HeapLayout

/-!
# Blocks of the heap

A block is the header, the bytes of the user and the canary, inside one object of a
slab or inside the pages reserved for it. `HeapInv` adds to the layout of the heap that
the headers and canaries of the live blocks are intact. `malloc` and `free` keep it, and
so do writes of the users to their own bytes.
-/

namespace Singularity.KernelHeap

open Foundation Function List Nat Mem Heap Span

/-- A block by the address of its header and the number of bytes asked for. -/
structure Block where
  real : Nat
  size : Nat
  deriving DecidableEq

/-- Header, bytes of the user and canary. -/
def totalSize (size : Nat) : Nat := heapHeaderSize + size + heapFooterSize

/-- The bucket for a block; no result for a block with pages of its own. -/
def sizeBucket (size : Nat) : Option Nat :=
  if totalSize size ≤ 4096 then getBucketIndex (totalSize size) else none

def blockPages (size : Nat) : Nat := (totalSize size + (pageSize - 1)) / pageSize

/-- The first word of the header. -/
def blockBytes (size : Nat) : Nat :=
  match sizeBucket size with
  | some i => bucketSize i
  | none => blockPages size * pageSize

namespace Block

/-- What the user gets. -/
def ptr (b : Block) : Nat := b.real + heapHeaderSize

def range (b : Block) : VmRange := ⟨b.real, blockPages b.size⟩

/-- The piece of memory the block lives in. -/
def piece (b : Block) : Piece :=
  match sizeBucket b.size with
  | some i => .object i (slabOf (bucketObjSize i) b.real) b.real
  | none => .range b.range

end Block

/-- The objects of one bucket that hold blocks. -/
def objsOf (live : List Block) (i : Nat) : List Nat :=
  (live.filter fun b => sizeBucket b.size == some i).map Block.real

/-- The ranges of the blocks with pages of their own. -/
def largeOf (live : List Block) : List VmRange :=
  (live.filter fun b => sizeBucket b.size == none).map Block.range

/-- Header and canary of a block are as `malloc` wrote them. -/
structure Intact (magic canary : Nat) (m : Mem) (b : Block) : Prop where
  bytes : m.read64 b.real = blockBytes b.size
  size : m.read64 (b.real + 8) = b.size ^^^ magic
  footer : m.read64 (b.ptr + b.size) = canary

/-- What is left of the header of a freed object: a link of the free list and the size. -/
structure Stale (magic : Nat) (m : Mem) (b : Block) : Prop where
  link : m.read64 b.real = 0 ∨ m.read64 b.real &&& 2 ^ 63 ≠ 0
  size : m.read64 (b.real + 8) = b.size ^^^ magic

/-- Below this size no page count of a block is cut to 32 bits. -/
def blockLimit : Nat := 2 ^ 43

/-- The heap between two calls, with its live blocks and slabs; `pinned` are ranges of the
arena that are in use without a header. -/
structure HeapInv (aslr : Nat) (pinned : List VmRange) (h : Heap) (live : List Block)
    (slabs : List (Nat × Nat)) : Prop where
  layout : HeapLayout (heapStart aslr) heapEnd h slabs (objsOf live) (largeOf live ++ pinned)
  sized : ∀ b ∈ live, 0 < b.size ∧ b.size < blockLimit
  distinct : (live.map Block.real).Nodup
  intact : ∀ b ∈ live, Intact h.magic h.canary h.mem b
  magic_lt : h.magic < 2 ^ 64
  canary_lt : h.canary < 2 ^ 64
  gwp : GwpOk h.gwp h.frames

variable {size : Nat}

lemma getBucketIndex_spec (hpos : 0 < n) (hle : n ≤ 4096) :
    ∃ i < numBuckets, getBucketIndex n = some i ∧ n ≤ 2 ^ (i + 5) := by
  rw [getBucketIndex, if_neg (by omega)]
  split
  case isTrue hsmall => exact ⟨0, by decide, rfl, hsmall⟩
  case isFalse hlarge =>
    have hne : n - 1 ≠ 0 := by omega
    have hlo : 5 ≤ log2 (n - 1) := (le_log2 hne).mpr (by omega)
    have hhi : log2 (n - 1) < 12 := (log2_lt hne).mpr (by omega)
    have hlt : n - 1 < 2 ^ (log2 (n - 1) + 1) := lt_log2_self
    have hidx : 32 - clz32 (n - 1) - 5 + 5 = log2 (n - 1) + 1 := by
      unfold clz32
      omega
    refine ⟨_, ?_, rfl, ?_⟩
    · unfold clz32 numBuckets
      omega
    · rw [hidx]
      omega

lemma bucketSize_spec : ∀ i < numBuckets, bucketSize i = 2 ^ (i + 5) ∧ bucketSize i ≤ 4096 ∧
    getBucketIndex (bucketSize i) = some i ∧ bucketSize i ≤ bucketObjSize i ∧
    bucketObjSize i ≤ 4128 := by
  decide

lemma sizeBucket_some (h : sizeBucket size = some i) :
    i < numBuckets ∧ totalSize size ≤ bucketSize i := by
  obtain ⟨hle, h⟩ := then_of_ite h
  have hpos : 0 < totalSize size := by
    unfold totalSize heapHeaderSize
    omega
  obtain ⟨j, hj, hidx, hroom⟩ := getBucketIndex_spec hpos hle
  have hij : j = i := Option.some.inj (hidx.symm.trans h)
  subst hij
  rw [(bucketSize_spec j hj).1]
  exact ⟨hj, hroom⟩

lemma sizeBucket_none (h : sizeBucket size = none) : 4096 < totalSize size := by
  unfold sizeBucket at h
  split at h
  case isTrue hle =>
    have hpos : 0 < totalSize size := by
      unfold totalSize heapHeaderSize
      omega
    obtain ⟨j, -, hidx, -⟩ := getBucketIndex_spec hpos hle
    rw [hidx] at h
    cases h
  case isFalse hgt => omega

lemma blockPages_bounds (size : Nat) :
    totalSize size ≤ blockPages size * pageSize ∧
      blockPages size * pageSize < totalSize size + pageSize := by
  unfold blockPages pageSize
  omega

lemma piece_len (b : Block) :
    b.piece.lo = b.real ∧ totalSize b.size ≤ b.piece.len ∧
      totalSize b.size ≤ blockBytes b.size := by
  unfold Block.piece blockBytes
  split
  case h_1 i hi =>
    obtain ⟨hlt, hroom⟩ := sizeBucket_some hi
    exact ⟨rfl, hroom.trans (bucketSize_spec i hlt).2.2.2.1, hroom⟩
  · exact ⟨rfl, (blockPages_bounds _).1, (blockPages_bounds _).1⟩

variable {live live' : List Block} {i magic x aslr : Nat} {b : Block} {m m' : Mem}
  {pinned : List VmRange} {h' h : Heap} {slabs : List (Nat × Nat)}

lemma mem_objsOf : o ∈ objsOf live i ↔ ∃ b ∈ live, sizeBucket b.size = some i ∧ b.real = o := by
  simp [objsOf, and_assoc]

lemma mem_largeOf : r ∈ largeOf live ↔ ∃ b ∈ live, sizeBucket b.size = none ∧ b.range = r := by
  simp [largeOf, and_assoc]

lemma objsOf_perm (h : live.Perm live') (i : Nat) : (objsOf live i).Perm (objsOf live' i) :=
  (h.filter _).map _

lemma largeOf_perm (h : live.Perm live') : (largeOf live).Perm (largeOf live') :=
  (h.filter _).map _

lemma objsOf_cons (b : Block) (live : List Block) (hi : sizeBucket b.size = some i) :
    objsOf (b :: live) = update (objsOf live) i (b.real :: objsOf live i) := by
  funext j
  by_cases hj : j = i
  · subst hj
    simp [objsOf, hi]
  · rw [update_of_ne hj]
    simp [objsOf, hi, Ne.symm hj]

lemma objsOf_cons_large (b : Block) (live : List Block) (hb : sizeBucket b.size = none) :
    objsOf (b :: live) = objsOf live := by
  funext j
  simp [objsOf, hb]

lemma largeOf_cons (b : Block) (live : List Block) (hb : sizeBucket b.size = none) :
    largeOf (b :: live) = b.range :: largeOf live := by
  simp [largeOf, hb]

lemma largeOf_cons_small (b : Block) (live : List Block)
    (hi : sizeBucket b.size = some i) : largeOf (b :: live) = largeOf live := by
  simp [largeOf, hi]

lemma Intact.congr {canary : Nat} (h : Intact magic canary m b)
    (hmem : ∀ x, b.real ≤ x → x < b.real + heapHeaderSize ∨
      b.ptr + b.size ≤ x ∧ x < b.real + totalSize b.size → m' x = m x) :
    Intact magic canary m' b := by
  unfold Block.ptr totalSize heapHeaderSize heapFooterSize at hmem
  refine ⟨(read64_congr fun x hlo hhi => ?_).trans h.bytes,
    (read64_congr fun x hlo hhi => ?_).trans h.size,
    (read64_congr fun x hlo hhi => ?_).trans h.footer⟩
  · exact hmem x hlo (.inl (by omega))
  · exact hmem x (by omega) (.inl (by omega))
  · unfold Block.ptr heapHeaderSize at hlo hhi
    exact hmem x (by omega) (.inr (by omega))

section
variable (hI : HeapInv aslr pinned h live slabs)
include hI

variable (hb : b ∈ live)
include hb

lemma HeapInv.piece_of :
    b.piece.Of slabs (largeOf live ++ pinned) ∧ b.piece.Used (objsOf live) := by
  unfold Block.piece
  split
  case h_1 i hi =>
    have hobj : b.real ∈ objsOf live i := mem_objsOf.mpr ⟨b, hb, hi, rfl⟩
    exact ⟨hI.layout.object_of (sizeBucket_some hi).1 hobj, hobj⟩
  case h_2 hnone => exact ⟨mem_append_left _ (mem_largeOf.mpr ⟨b, hb, hnone, rfl⟩), trivial⟩

lemma HeapInv.piece_ne (hb' : b' ∈ live) (hne : b ≠ b') : b.piece ≠ b'.piece := by
  intro heq
  have hreal : b.real = b'.real := by
    rw [← (piece_len b).1, ← (piece_len b').1, heq]
  exact hne (inj_on_of_nodup_map hI.distinct hb hb' hreal)

lemma HeapInv.apart (hb' : b' ∈ live) (hne : b ≠ b') :
    b.real + b.piece.len ≤ b'.real ∨ b'.real + b'.piece.len ≤ b.real := by
  have hapart := hI.layout.apart (hI.piece_of hb).1 (hI.piece_of hb').1
    (hI.piece_ne hb hb' hne)
  rwa [(piece_len b).1, (piece_len b').1] at hapart

lemma HeapInv.block_limit : heapStart aslr ≤ b.real ∧ b.real + totalSize b.size ≤ heapEnd := by
  obtain ⟨hlo, hlen, -⟩ := piece_len b
  obtain ⟨hstart, hend⟩ := hI.layout.piece_limit (hI.piece_of hb).1
  rw [hlo] at hstart hend
  exact ⟨hstart, (Nat.add_le_add_left hlen _).trans hend⟩

lemma HeapInv.user_write (hm : Mem.SameOutside b.ptr b.size h.mem m) :
    HeapInv aslr pinned { h with mem := m } live slabs := by
  obtain ⟨hlo, hlen, -⟩ := piece_len b
  obtain ⟨hof, hused⟩ := hI.piece_of hb
  have hpiece : Mem.SameOutside b.piece.lo b.piece.len h.mem m := by
    refine hm.mono ?_ ?_
    · rw [hlo]
      exact le_add_right _ _
    rw [hlo]
    unfold Block.ptr
    unfold totalSize at hlen
    omega
  refine ⟨hI.layout.write_piece hof hused hpiece, hI.sized, hI.distinct, fun b' hb' => ?_,
    hI.magic_lt, hI.canary_lt, hI.gwp⟩
  apply (hI.intact b' hb').congr
  intro x hx hin
  by_cases hne : b' = b
  · subst hne
    apply hm x
    unfold Block.ptr heapHeaderSize at hin ⊢
    omega
  · have hapart := hI.apart hb' hb hne
    have hlen' := (piece_len b').2.1
    apply hpiece x
    rw [hlo]
    unfold Block.ptr totalSize heapHeaderSize at *
    omega

end

lemma stamp_arena (h : Heap) (ptr bytes size : Nat) :
    (h.stamp ptr bytes size).arena = h.arena := rfl

/-- The header and the canary are written inside the block, and read back as written. -/
lemma stamp_block (hend : b.real + totalSize b.size ≤ heapEnd) (hsz : b.size < 2 ^ 64)
    (hmagic : h.magic < 2 ^ 64) (hcanary : h.canary < 2 ^ 64)
    (hbytes : blockBytes b.size < 2 ^ 64) :
    Mem.SameOutside b.real (totalSize b.size) h.mem
        (h.stamp b.real (blockBytes b.size) b.size).mem ∧
      Intact h.magic h.canary (h.stamp b.real (blockBytes b.size) b.size).mem b := by
  have hlimit : heapEnd < 2 ^ 64 := (placed_heap 0).limit_lt
  unfold totalSize heapHeaderSize heapFooterSize at hend
  have hsecond : Word.add b.real 8 = b.real + 8 := Word.add_eq (by omega)
  have hfooter : Word.add (Word.add b.real heapHeaderSize) b.size = b.ptr + b.size := by
    unfold Block.ptr heapHeaderSize
    rw [Word.add_eq (by omega : b.real + 16 < 2 ^ 64), Word.add_eq (by omega)]
  simp only [stamp, hsecond, hfooter]
  have hxor : b.size ^^^ h.magic < 2 ^ 64 := xor_lt_two_pow hsz hmagic
  constructor
  · refine ((sameOutside_write64 _ _ _).mono le_rfl ?_).trans
      (((sameOutside_write64 _ _ _).mono (le_add_right _ _) ?_).trans
        ((sameOutside_write64 _ _ _).mono ?_ ?_))
    · unfold totalSize heapHeaderSize
      omega
    · unfold totalSize heapHeaderSize
      omega
    · unfold Block.ptr
      omega
    · unfold Block.ptr totalSize heapFooterSize
      omega
  · refine ⟨?_, ?_, read64_write64 hcanary⟩
    · rw [(sameOutside_write64 _ _ _).read64 (.inl ?_),
        (sameOutside_write64 _ _ _).read64 (.inl (le_refl _)),
        read64_write64 hbytes]
      unfold Block.ptr heapHeaderSize
      omega
    · rw [(sameOutside_write64 _ _ _).read64 (.inl ?_), read64_write64 hxor]
      unfold Block.ptr heapHeaderSize
      omega

lemma blockBytes_lt (hsz : size < blockLimit) : blockBytes size < 2 ^ 44 := by
  unfold blockBytes
  split
  case h_1 i hi =>
    have hle := (bucketSize_spec i (sizeBucket_some hi).1).2.1
    omega
  · have hlt := (blockPages_bounds size).2
    unfold totalSize heapHeaderSize heapFooterSize pageSize at hlt
    unfold blockLimit at hsz
    unfold pageSize
    omega

/-- A block on a fresh piece of memory becomes live. -/
lemma HeapInv.add_block (hI : HeapInv aslr pinned h live slabs) (hpos : 0 < b.size)
    (hsz : b.size < blockLimit)
    (hlayout : HeapLayout (heapStart aslr) heapEnd h' slabs' (objsOf (b :: live))
      (largeOf (b :: live) ++ pinned))
    (hsub : ∀ x ∈ slabs, x ∈ slabs') (hfresh : ∀ b' ∈ live, b'.piece ≠ b.piece)
    (hmem : ∀ x, Covered (reserved slabs (largeOf live ++ pinned)) x → h'.mem x = h.mem x)
    (hmagic : h'.magic = h.magic) (hcanary : h'.canary = h.canary) (hgwp : h'.gwp = h.gwp)
    (hframes : ∀ v, heapEnd < v → h'.frames v = h.frames v) :
    HeapInv aslr pinned (h'.stamp b.real (blockBytes b.size) b.size) (b :: live) slabs' ∧
      Mem.SameOutside b.real b.piece.len h'.mem
        (h'.stamp b.real (blockBytes b.size) b.size).mem := by
  have hnew : b.piece.Of slabs' (largeOf (b :: live) ++ pinned) ∧
      b.piece.Used (objsOf (b :: live)) := by
    unfold Block.piece
    split
    case h_1 i hi =>
      have hobj : b.real ∈ objsOf (b :: live) i := mem_objsOf.mpr ⟨b, mem_cons_self, hi, rfl⟩
      exact ⟨hlayout.object_of (sizeBucket_some hi).1 hobj, hobj⟩
    case h_2 hnone =>
      exact ⟨mem_append_left _ (mem_largeOf.mpr ⟨b, mem_cons_self, hnone, rfl⟩), trivial⟩
  have hold : ∀ b' ∈ live, b'.piece.Of slabs' (largeOf (b :: live) ++ pinned) := by
    intro b' hb'
    have hof := (hI.piece_of hb').1
    unfold Block.piece at hof ⊢
    split
    case h_1 i hi =>
      rw [hi] at hof
      exact ⟨hsub _ hof.1, hof.2⟩
    case h_2 hnone =>
      exact mem_append_left _ (mem_largeOf.mpr ⟨b', mem_cons_of_mem _ hb', hnone, rfl⟩)
  obtain ⟨hlo, hlen, -⟩ := piece_len b
  have hend : b.real + totalSize b.size ≤ heapEnd := by
    have hlimit := (hlayout.piece_limit hnew.1).2
    rw [hlo] at hlimit
    omega
  have hbytes := blockBytes_lt hsz
  obtain ⟨hsame, hintact⟩ := stamp_block (h := h') hend (by unfold blockLimit at hsz; omega)
    (hmagic ▸ hI.magic_lt) (hcanary ▸ hI.canary_lt) (by omega)
  have hpiece : Mem.SameOutside b.piece.lo b.piece.len h'.mem
      (h'.stamp b.real (blockBytes b.size) b.size).mem :=
    hsame.mono hlo.le (by rw [hlo]; omega)
  have hapart : ∀ b' ∈ live, b'.real + b'.piece.len ≤ b.real ∨ b.real + b.piece.len ≤ b'.real := by
    intro b' hb'
    have := hlayout.apart (hold b' hb') hnew.1 (hfresh b' hb')
    rwa [(piece_len b').1, hlo] at this
  have htot : ∀ size, 0 < totalSize size := by
    intro size
    unfold totalSize heapHeaderSize
    omega
  rw [hlo] at hpiece
  refine ⟨⟨hlayout.write_piece hnew.1 hnew.2 (by rwa [hlo]),
    forall_mem_cons.mpr ⟨⟨hpos, hsz⟩, hI.sized⟩, ?_,
    forall_mem_cons.mpr ⟨hintact, fun b' hb' => ?_⟩, hmagic ▸ hI.magic_lt,
    hcanary ▸ hI.canary_lt, hI.gwp.congr (congrArg Gwp.slots hgwp) hframes⟩, hpiece⟩
  · rw [map_cons, nodup_cons]
    refine ⟨fun hmem => ?_, hI.distinct⟩
    obtain ⟨b', hb', hreal⟩ := mem_map.mp hmem
    have := hapart b' hb'
    have := (piece_len b').2.1
    have := htot b.size
    have := htot b'.size
    omega
  · have hbefore : Intact h'.magic h'.canary h'.mem b' := by
      rw [hmagic, hcanary]
      apply (hI.intact b' hb').congr
      intro x hx hin
      apply hmem x
      apply Piece.covered (hI.piece_of hb').1
      · rwa [(piece_len b').1]
      rw [(piece_len b').1]
      have := (piece_len b').2.1
      unfold totalSize at *
      omega
    apply hbefore.congr
    intro x hx hin
    have := hapart b' hb'
    have := (piece_len b').2.1
    apply hsame x
    unfold totalSize at *
    omega

/-- Where a new block comes from: an object of a bucket, perhaps in a new slab, or the arena. -/
def Origin (aslr : Nat) (h : Heap) (slabs : List (Nat × Nat)) (b : Block) (h' : Heap)
    (slabs' : List (Nat × Nat)) : Prop :=
  match sizeBucket b.size with
  | some i => slabs' = slabs ∧ SlabCache.allocCached h.mem (h.buckets i) ≠ .ok none ∧
        h'.arena = h.arena ∧ h'.frames = h.frames ∨
      ∃ s, slabs' = (i, s) :: slabs ∧ SlabCache.allocCached h.mem (h.buckets i) = .ok none ∧
        Granted (heapStart aslr) heapEnd h.arena s (slabPages (bucketObjSize i)) h'.arena
  | none => slabs' = slabs ∧ h.arena.alloc (blockPages b.size) = (b.real, h'.arena) ∧
      Granted (heapStart aslr) heapEnd h.arena b.real (blockPages b.size) h'.arena ∧
      ∃ frames, h'.frames = mapPages h.frames b.real frames (blockPages b.size)

/-- The heap gave out the block `b` and became `h'`. -/
structure BlockGrant (aslr : Nat) (pinned : List VmRange) (h : Heap) (live : List Block)
    (slabs : List (Nat × Nat)) (b : Block) (h' : Heap) (slabs' : List (Nat × Nat)) : Prop where
  inv : HeapInv aslr pinned h' (b :: live) slabs'
  gwp : h'.gwp = h.gwp
  mem : ∀ q : Piece, q.Of slabs (largeOf live ++ pinned) → q ≠ b.piece →
    ∀ x, q.lo ≤ x → x < q.lo + q.len → h'.mem x = h.mem x
  outside : ∀ x, heapEnd ≤ x → h'.mem x = h.mem x
  origin : Origin aslr h slabs b h' slabs'

lemma mem_largeOf_cons (hr : r ∈ largeOf live ++ pinned) : r ∈ largeOf (b :: live) ++ pinned := by
  obtain hlarge | hpinned := mem_append.mp hr
  · obtain ⟨c, hc, hnone, hrange⟩ := mem_largeOf.mp hlarge
    exact mem_append_left _ (mem_largeOf.mpr ⟨c, mem_cons_of_mem _ hc, hnone, hrange⟩)
  · exact mem_append_right _ hpinned

lemma blockGrant_of_inv {aslr : Nat} {h h1 : Heap}
    {slabs slabs' : List (Nat × Nat)} (hinv' : HeapInv aslr pinned h' (b :: live) slabs')
    (hsub : ∀ x ∈ slabs, x ∈ slabs') (hsame : Mem.SameOutside b.real b.piece.len h1.mem h'.mem)
    (hmem : ∀ x, Covered (reserved slabs (largeOf live ++ pinned)) x ∨ heapEnd ≤ x → h1.mem x =
      h.mem x)
    (hgwp : h'.gwp = h.gwp) (horigin : Origin aslr h slabs b h' slabs') :
    BlockGrant aslr pinned h live slabs b h' slabs' := by
  refine ⟨hinv', hgwp, fun q hq hne x hlo hhi => ?_, fun x hx => ?_, horigin⟩
  · have hapart := hinv'.layout.apart (hq.mono hsub fun r hr => mem_largeOf_cons hr)
      (hinv'.piece_of mem_cons_self).1 hne
    rw [(piece_len b).1] at hapart
    rw [hsame x (by omega)]
    exact hmem x (.inl (Piece.covered hq hlo hhi))
  · have hlimit := (hinv'.layout.piece_limit (hinv'.piece_of mem_cons_self).1).2
    rw [(piece_len b).1] at hlimit
    rw [hsame x (by omega)]
    exact hmem x (.inr hx)

/-- Where a block goes to: the object to its bucket, or the pages to the arena. -/
def Returned (h : Heap) (b : Block) (h' : Heap) : Prop :=
  match sizeBucket b.size with
  | some i => ∃ m c, SlabCache.free m (h.buckets i) b.real = (true, h'.mem, c) ∧
      h'.buckets = update h.buckets i c ∧ h'.arena = h.arena ∧ h'.frames = h.frames
  | none => h'.buckets = h.buckets ∧
      h.arena.free b.real (blockPages b.size) = some h'.arena ∧
      h'.frames = unmapPages h.frames b.real (blockPages b.size)

section
lemma heapStart_pos (aslr : Nat) : 0 < heapStart aslr := by
  have hshort := (placed_heap aslr).short
  have hend : heapEnd = 0xFFFF900020FFFFFF := by decide
  omega

lemma heapEnd_room : heapEnd + 4 * pageSize ≤ 2 ^ 64 := by decide

variable (hI : HeapInv aslr pinned h live slabs)

include hI in
lemma HeapInv.setArena {arena : VmArena}
    (hlayout : HeapLayout (heapStart aslr) heapEnd { h with arena } slabs (objsOf live)
      (largeOf live ++ pinned)) : HeapInv aslr pinned { h with arena } live slabs :=
  ⟨hlayout, hI.sized, hI.distinct, hI.intact, hI.magic_lt, hI.canary_lt, hI.gwp⟩

lemma totalReq_eq (hsz : size < blockLimit) :
    Word.add (Word.add heapHeaderSize size) heapFooterSize = totalSize size := by
  unfold blockLimit at hsz
  unfold totalSize heapHeaderSize heapFooterSize
  rw [Word.add_eq (by omega : 16 + size < 2 ^ 64), Word.add_eq (by omega)]

/-- The outcome of a request behind the sampling: null, or a new block. -/
inductive UnsampledOutcome (aslr : Nat) (pinned : List VmRange) (h : Heap) (live : List Block)
    (slabs : List (Nat × Nat)) (size : Nat) (answer : Except HeapFault (Nat × Heap)) : Prop
  | null (arena : VmArena) (hok : answer = .ok (0, { h with arena }))
      (hI : HeapInv aslr pinned { h with arena } live slabs)
  | block (b : Block) (h' : Heap) (slabs' : List (Nat × Nat)) (hok : answer = .ok (b.ptr, h'))
      (hsz : b.size = size) (hgrant : BlockGrant aslr pinned h live slabs b h' slabs')

include hI in
/-- A small block is an object of its bucket. -/
lemma HeapInv.malloc_small (hpos : 0 < size)
    (hsz : size < blockLimit) (hi : sizeBucket size = some i)
    (hroom : supply = none → h.arena.regions.length + 1 < vmArenaMaxRegions) :
    UnsampledOutcome aslr pinned h live slabs size (h.mallocUnsampled size supply) := by
  obtain ⟨hlt, hfit⟩ := sizeBucket_some hi
  have hle : totalSize size ≤ 4096 := hfit.trans (bucketSize_spec i hlt).2.1
  have hidx : getBucketIndex (totalSize size) = some i := by
    rwa [sizeBucket, if_pos hle] at hi
  have hnwrap : ¬ totalSize size < size := by
    unfold totalSize
    omega
  have heq : h.mallocUnsampled size supply =
      (h.slabAlloc i supply).map (finish size (bucketSize i)) := by
    simp [mallocUnsampled, totalReq_eq hsz, hnwrap, hle, hidx, hlt]
  rw [heq]
  rcases hI.layout.slabAlloc (placed_heap aslr) (heapStart_pos aslr) heapEnd_room hlt hroom with
    ⟨arena, hok, hlayout⟩ | ⟨o, h', slabs', hok, hg⟩
  · refine .null arena ?_ (hI.setArena hlayout)
    rw [hok]
    simp [Except.map, finish]
  · have hlayout := hg.layout
    rw [← objsOf_cons ⟨o, size⟩ live hi, ← largeOf_cons_small ⟨o, size⟩ live hi] at hlayout
    have hobj : o ∈ objsOf (⟨o, size⟩ :: live) i :=
      mem_objsOf.mpr ⟨⟨o, size⟩, mem_cons_self, hi, rfl⟩
    have hlimit := (hlayout.piece_limit (hlayout.object_of hlt hobj)).2
    have hptr : Word.add o heapHeaderSize = (⟨o, size⟩ : Block).ptr := by
      apply Word.add_eq
      have hend : heapEnd < 2 ^ 64 := (placed_heap aslr).limit_lt
      have hlarge := (bucketGeometry hlt).large
      simp only [Piece.lo, Piece.len] at hlimit
      unfold heapHeaderSize
      omega
    have hsub : ∀ x ∈ slabs, x ∈ slabs' := by
      obtain ⟨hsame, -⟩ | ⟨s, hcons, -⟩ := hg.slabs
      · rw [hsame]
        exact fun x hx => hx
      · rw [hcons]
        exact fun x hx => mem_cons_of_mem _ hx
    have hfresh : ∀ b' ∈ live, b'.piece ≠ (⟨o, size⟩ : Block).piece := by
      intro b' hb' heq
      have hobj' : b'.piece = .object i (slabOf (bucketObjSize i) o) o := by
        rw [heq]
        simp [Block.piece, hi]
      unfold Block.piece at hobj'
      split at hobj'
      case h_1 j hj =>
        injection hobj' with hji _ hreal
        subst hji
        exact hg.fresh (mem_objsOf.mpr ⟨b', hb', hj, hreal⟩)
      · cases hobj'
    obtain ⟨hinv', hsame⟩ := hI.add_block hpos hsz hlayout hsub hfresh
      (fun x hx => hg.mem x (.inl hx)) hg.magic hg.canary hg.gwp hg.frames
    refine .block ⟨o, size⟩ _ slabs' ?_ rfl (blockGrant_of_inv hinv' hsub hsame hg.mem hg.gwp ?_)
    · have hbytes : blockBytes size = bucketSize i := by simp [blockBytes, hi]
      rw [hok, hbytes]
      simp [Except.map, finish, hg.ne_zero, hptr]
    · simp only [Origin, hi]
      exact hg.slabs

lemma blockPages_eq (hsz : size < blockLimit) :
    Word.alignUp (totalSize size) pageSize / pageSize = blockPages size ∧
      blockPages size < 2 ^ 32 := by
  unfold blockLimit at hsz
  have htot : totalSize size ≤ 2 ^ 43 + 24 := by
    unfold totalSize heapHeaderSize heapFooterSize
    omega
  have halign : Word.alignUp (totalSize size) pageSize =
      (totalSize size + (2 ^ 12 - 1)) / 2 ^ 12 * 2 ^ 12 :=
    Word.alignUp_two_pow (k := 12) (by omega)
  rw [halign]
  unfold blockPages pageSize
  omega

lemma mallocUnsampled_large (h : Heap) (hsz : size < blockLimit)
    (hnone : sizeBucket size = none) (supply : Option (Nat → Nat)) :
    h.mallocUnsampled size supply =
      (h.vmmAlloc (blockPages size) supply).map (Heap.finish size (blockBytes size)) := by
  have hgt := sizeBucket_none hnone
  obtain ⟨hpages, hlt⟩ := blockPages_eq hsz
  have hnwrap : ¬ totalSize size < size := by
    unfold totalSize
    omega
  have hmul : Word.mul (blockPages size) pageSize = blockBytes size := by
    rw [Word.mul_eq (by unfold pageSize; omega)]
    simp [blockBytes, hnone]
  simp [mallocUnsampled, totalReq_eq hsz, hnwrap, not_le.mpr hgt, hpages, hmul]

include hI

/-- A large block has pages of its own. -/
lemma HeapInv.malloc_large (hpos : 0 < size)
    (hsz : size < blockLimit) (hnone : sizeBucket size = none)
    (hroom : supply = none → h.arena.regions.length < vmArenaMaxRegions) :
    UnsampledOutcome aslr pinned h live slabs size (h.mallocUnsampled size supply) := by
  have hgt := sizeBucket_none hnone
  obtain ⟨hpages, hlt⟩ := blockPages_eq hsz
  rw [mallocUnsampled_large h hsz hnone]
  have hout := hI.layout.vmmAlloc (placed_heap aslr) (heapStart_pos aslr) hlt hroom
  generalize halloc : h.arena.alloc (blockPages size) = r at hout
  obtain ⟨virt, arena⟩ := r
  cases hout with
  | null arena hok hlayout =>
    refine .null arena ?_ (hI.setArena hlayout)
    rw [hok]
    simp [Except.map, finish]
  | range frames _ hne hgr hok hlayout =>
    have hrange : (⟨virt, blockPages size⟩ : VmRange) = (⟨virt, size⟩ : Block).range := rfl
    rw [hrange, ← cons_append, ← largeOf_cons ⟨virt, size⟩ live hnone,
      ← objsOf_cons_large ⟨virt, size⟩ live hnone]
      at hlayout
    have hend : virt + blockPages size * pageSize ≤ heapEnd :=
      hgr.end_le.trans hgr.shape.watermark_le
    have hfit := (blockPages_bounds size).1
    have hptr : Word.add virt heapHeaderSize = (⟨virt, size⟩ : Block).ptr := by
      apply Word.add_eq
      have hlimit : heapEnd < 2 ^ 64 := (placed_heap aslr).limit_lt
      unfold totalSize at hfit
      omega
    have hoff : ∀ x, Covered (reserved slabs (largeOf live ++ pinned)) x →
        x < virt ∨ virt + blockPages size * pageSize ≤ x := fun x hx =>
      hI.layout.granted_off hgr hx
    have hmem : ∀ x, Covered (reserved slabs (largeOf live ++ pinned)) x ∨ heapEnd ≤ x →
        h.mem.fill virt (blockPages size * pageSize) 0 x = h.mem x := by
      intro x hx
      apply sameOutside_fill
      obtain hx | hx := hx
      · exact hoff x hx
      · exact .inr (hend.trans hx)
    have hfresh : ∀ b' ∈ live, b'.piece ≠ (⟨virt, size⟩ : Block).piece := by
      intro b' hb' heq
      have hof := (hI.piece_of hb').1
      have hpiece : (⟨virt, size⟩ : Block).piece = .range ⟨virt, blockPages size⟩ := by
        simp [Block.piece, hnone, Block.range]
      rw [heq, hpiece] at hof
      have hcov : Covered (reserved slabs (largeOf live ++ pinned)) virt := by
        apply Piece.covered hof le_rfl
        simp only [Piece.lo, Piece.len]
        omega
      have := hoff virt hcov
      omega
    obtain ⟨hinv', hsame⟩ := hI.add_block hpos hsz hlayout (fun x hx => hx) hfresh
      (fun x hx => hmem x (.inl hx)) rfl rfl rfl fun v hv => mapPages_behind hend hv
    refine .block ⟨virt, size⟩ _ slabs ?_ rfl
      (blockGrant_of_inv hinv' (fun x hx => hx) hsame hmem rfl ?_)
    · rw [hok]
      simp only [Except.map, finish, if_neg hne, hptr]
    · simp only [Origin, hnone]
      exact ⟨trivial, halloc, hgr, frames, rfl⟩

lemma HeapInv.mallocUnsampled (hpos : 0 < size) (hsz : size < blockLimit)
    (hroom : supply = none → h.arena.regions.length + 1 < vmArenaMaxRegions) :
    UnsampledOutcome aslr pinned h live slabs size (h.mallocUnsampled size supply) := by
  cases hbucket : sizeBucket size with
  | some i => exact hI.malloc_small hpos hsz hbucket hroom
  | none => exact hI.malloc_large hpos hsz hbucket fun hs => (le_succ _).trans_lt (hroom hs)

end

lemma sameOutside_fastPoison (m : Mem) (ptr size : Nat) :
    Mem.SameOutside ptr size m (fastPoison m ptr size) := by
  unfold fastPoison
  split
  · exact Mem.SameOutside.refl _ _ _
  split
  · exact sameOutside_fill _ _ _ _
  have hwords : Mem.SameOutside ptr size m
      (Mem.fill64 0xBDBDBDBDBDBDBDBD m ptr (size / 8)) :=
    (sameOutside_fill64 _ _ _ _).mono le_rfl (by omega)
  dsimp only
  split
  · exact hwords.trans ((sameOutside_fill _ _ _ _).mono (by omega) (by omega))
  · exact hwords

lemma and_two_pow_of_lt (h : x < 2 ^ k) : x &&& 2 ^ k = 0 := by
  apply eq_of_testBit_eq
  intro i
  rw [testBit_and, testBit_two_pow, zero_testBit]
  by_cases hi : k = i
  · subst hi
    rw [testBit_lt_two_pow h, Bool.false_and]
  · simp [hi]

section
lemma le_heapStart (aslr : Nat) : kheapStartVirtual ≤ heapStart aslr := by
  have hshort := (placed_heap aslr)
  have hle : getAslrOffset aslr ≤ heapAslrMask := and_le_left.trans and_le_right
  have hadd : heapStart aslr = kheapStartVirtual + getAslrOffset aslr := by
    apply Word.add_eq
    unfold kheapStartVirtual
    unfold heapAslrMask at hle
    omega
  omega

lemma and_two_pow_of_ge (hlo : kheapStartVirtual ≤ x) (hhi : x < 2 ^ 64) : x &&& 2 ^ 63 ≠ 0 := by
  have hbit : x.testBit 63 = true := by
    rw [testBit_eq_decide_div_mod_eq, decide_eq_true_iff]
    unfold kheapStartVirtual at hlo
    omega
  rw [and_two_pow, hbit]
  decide

/-- The pointer to a block passes the checks of `free` on the address. -/
lemma HeapLayout.ptr_checked
    (hl : HeapLayout (heapStart aslr) heapEnd h slabs objs large) (hof : b.piece.Of slabs large) :
    b.ptr ≠ 0 ∧ ¬ gwpAsanIsManaged b.ptr ∧ ¬ (b.ptr < kheapStartVirtual ∨ heapEnd < b.ptr) ∧
      b.ptr &&& 0x7 = 0 ∧ Word.sub b.ptr heapHeaderSize = b.real ∧
      Word.add b.real 8 = b.real + 8 := by
  obtain ⟨hlo, hlen, -⟩ := piece_len b
  obtain ⟨hstart, hend⟩ := hl.piece_limit hof
  have hvirtual := le_heapStart aslr
  have hheapEnd : heapEnd = 0xFFFF900020FFFFFF := by decide
  have halign : 16 ∣ b.real := by
    unfold Block.piece at hof
    split at hof
    · exact hl.object_aligned hof
    · have hpage : 16 ∣ pageSize := by decide
      exact hpage.trans (hl.held.valid _ (mem_append_right _ hof)).2.2
  rw [hlo] at hstart hend
  unfold totalSize heapHeaderSize heapFooterSize at hlen
  unfold kheapStartVirtual at hvirtual
  have hptr : b.ptr = b.real + 16 := rfl
  refine ⟨by omega, ?_, ?_, ?_, ?_, Word.add_eq (by omega)⟩
  · unfold gwpAsanIsManaged gwpVirtBase
    omega
  · unfold kheapStartVirtual
    omega
  · rw [show (0x7 : Nat) = 2 ^ 3 - 1 from rfl, and_two_pow_sub_one_eq_mod]
    omega
  · rw [heapHeaderSize, Word.sub_eq (by omega) (by omega)]
    omega

lemma Stale.congr (hstale : Stale magic m b)
    (hmem : ∀ x, b.real ≤ x → x < b.real + heapHeaderSize → m' x = m x) : Stale magic m' b := by
  unfold heapHeaderSize at hmem
  have hlink : m'.read64 b.real = m.read64 b.real :=
    read64_congr fun x hlo hhi => hmem x hlo (by omega)
  refine ⟨?_, (read64_congr fun x hlo hhi => ?_).trans hstale.size⟩
  · rw [hlink]
    exact hstale.link
  · exact hmem x (by omega) (by omega)

variable (hI : HeapInv aslr pinned h live slabs)

include hI in
/-- A live block passes every check of `free`. -/
lemma HeapInv.free_checked (hb : b ∈ live) (caller : Nat) :
    ∃ m, Mem.SameOutside b.real b.piece.len h.mem m ∧ m.read64 (b.real + 8) = b.size ^^^ h.magic ∧
      h.free b.ptr caller = ({ h with mem := m } : Heap).release b.real (blockBytes b.size) := by
  obtain ⟨hlo, hlen, hbytes⟩ := piece_len b
  have hend := (hI.block_limit hb).2
  obtain ⟨hfirst, hsecond, hfooter⟩ := hI.intact b hb
  have hlt := blockBytes_lt (hI.sized b hb).2
  have hheapEnd : heapEnd < 2 ^ 64 := (placed_heap aslr).limit_lt
  obtain ⟨hne, hgwp, hin, hmask, hreal, hnext⟩ := hI.layout.ptr_checked (hI.piece_of hb).1
  unfold totalSize heapHeaderSize heapFooterSize at hlen hend hbytes
  have hptr : b.ptr = b.real + 16 := rfl
  have hcanary : Word.add b.ptr b.size = b.ptr + b.size := Word.add_eq (by omega)
  have hbit : blockBytes b.size &&& 2 ^ 63 = 0 := and_two_pow_of_lt (by omega)
  refine ⟨(fastPoison h.mem b.ptr b.size).write64 b.real (blockBytes b.size ||| 2 ^ 63), ?_, ?_, ?_⟩
  · refine ((sameOutside_fastPoison _ _ _).mono (by omega) (by omega)).trans
      ((sameOutside_write64 _ _ _).mono le_rfl (by omega))
  · rw [(sameOutside_write64 _ _ _).read64 (.inr le_rfl),
      (sameOutside_fastPoison _ _ _).read64 (.inl (by omega)), hsecond]
  · simp only [free, if_neg hne, if_neg hgwp, if_neg hin, hmask, hreal, hfirst, hbit, hnext,
      hsecond, xor_xor_cancel_right, hcanary, hfooter, ne_eq, not_true_eq_false, if_false]
    exact if_neg (by omega)

/-- `free` does not accept the pointer to a freed object. -/
lemma Stale.free_panics
    (hstale : Stale h.magic h.mem b) (hl : HeapLayout (heapStart aslr) heapEnd h slabs objs large)
    (hof : b.piece.Of slabs large) (hpos : 0 < b.size) (caller : Nat) :
    h.free b.ptr caller = .error (.doubleFree b.ptr caller) ∨
      h.free b.ptr caller = .error .userSizeExceedsBucket := by
  obtain ⟨hne, hgwp, hin, hmask, hreal, hnext⟩ := hl.ptr_checked hof
  obtain h0 | hbit := hstale.link
  · right
    simp [free, hne, hgwp, hin, hmask, hreal, h0, hnext, hstale.size, hpos]
  · left
    simp only [free, if_neg hne, if_neg hgwp, if_neg hin, hmask, hreal, ne_eq,
      not_true_eq_false, if_false, if_pos hbit]

include hI in
lemma HeapInv.remove (hperm : live.Perm (b :: rest))
    (hlayout : HeapLayout (heapStart aslr) heapEnd h' slabs (objsOf rest) (largeOf rest ++ pinned))
    (hmem : Mem.SameOutside b.real b.piece.len h.mem h'.mem) (hmagic : h'.magic = h.magic)
    (hcanary : h'.canary = h.canary) (hgwp : h'.gwp = h.gwp)
    (hframes : ∀ v, heapEnd < v → h'.frames v = h.frames v) :
    HeapInv aslr pinned h' rest slabs := by
  have hb : b ∈ live := hperm.mem_iff.mpr mem_cons_self
  have hsub : ∀ b' ∈ rest, b' ∈ live := fun b' hb' =>
    hperm.mem_iff.mpr (mem_cons_of_mem _ hb')
  have hdistinct : ((b :: rest).map Block.real).Nodup :=
    (hperm.map Block.real).nodup_iff.mp hI.distinct
  refine ⟨hlayout, fun b' hb' => hI.sized b' (hsub b' hb'), (nodup_cons.mp hdistinct).2,
    fun b' hb' => ?_, hmagic ▸ hI.magic_lt, hcanary ▸ hI.canary_lt,
    hI.gwp.congr (congrArg Gwp.slots hgwp) hframes⟩
  have hne : b' ≠ b := by
    rintro rfl
    exact (nodup_cons.mp hdistinct).1 (mem_map_of_mem hb')
  have hapart := hI.apart (hsub b' hb') hb hne
  have hlen := (piece_len b').2.1
  rw [hmagic, hcanary]
  apply (hI.intact b' (hsub b' hb')).congr
  intro x hx hin
  apply hmem x
  unfold totalSize at *
  omega

lemma release_large (h : Heap) (real : Nat) (hnone : sizeBucket size = none) :
    h.release real (blockBytes size) = h.freePages real (blockPages size) := by
  have hbytes : blockBytes size = blockPages size * pageSize := by simp [blockBytes, hnone]
  have hgt := sizeBucket_none hnone
  have hfit := (blockPages_bounds size).1
  have hnsmall : ¬ blockPages size * pageSize ≤ 4096 := by omega
  have hdiv : blockPages size * pageSize / pageSize = blockPages size :=
    Nat.mul_div_cancel _ (by decide)
  rw [hbytes, release, if_neg hnsmall, hdiv]

include hI in
/-- Freeing a live block; the pages of a large one need room in the array of the arena. -/
lemma HeapInv.free (hperm : live.Perm (b :: rest)) (caller : Nat)
    (hroom : sizeBucket b.size = none → h.arena.regions.length < vmArenaMaxRegions) :
    ∃ h', h.free b.ptr caller = .ok h' ∧ HeapInv aslr pinned h' rest slabs ∧ Returned h b h' ∧
      h'.gwp = h.gwp ∧ Mem.SameOutside b.real b.piece.len h.mem h'.mem ∧ h'.magic = h.magic ∧
      (sizeBucket b.size ≠ none → Stale h.magic h'.mem b) := by
  have hb : b ∈ live := hperm.mem_iff.mpr mem_cons_self
  obtain ⟨hlo, hlen, -⟩ := piece_len b
  obtain ⟨hof, hused⟩ := hI.piece_of hb
  obtain ⟨m, hm, hsecond, hfree⟩ := hI.free_checked hb caller
  have hlayout := hI.layout.write_piece hof hused (by rwa [hlo])
  cases hbucket : sizeBucket b.size with
  | some i =>
    obtain ⟨hi, -⟩ := sizeBucket_some hbucket
    obtain ⟨-, hsmall, hidx, -⟩ := bucketSize_spec i hi
    have hbytes : blockBytes b.size = bucketSize i := by simp [blockBytes, hbucket]
    have hobj : b.real ∈ objsOf live i := mem_objsOf.mpr ⟨b, hb, hbucket, rfl⟩
    obtain ⟨c, w, hslab, hw, hlayout'⟩ := hlayout.slabFree hi hobj
    have hmem : Mem.SameOutside b.real b.piece.len h.mem (m.write64 b.real w) := by
      refine hm.trans ((sameOutside_write64 m b.real w).mono le_rfl ?_)
      unfold totalSize heapFooterSize at hlen
      omega
    have hstart := le_heapStart aslr
    have hend : heapEnd < 2 ^ 64 := (placed_heap aslr).limit_lt
    refine ⟨{ h.setBucket i c with mem := m.write64 b.real w }, ?_, ?_, ?_, rfl, hmem, rfl,
      fun _ => ⟨?_, ?_⟩⟩
    · rw [hfree, hbytes, release, if_pos hsmall, hidx]
      dsimp only at hslab ⊢
      rw [if_pos hi, hslab]
      rfl
    · refine hI.remove hperm (hlayout'.perm (fun j => ?_) ?_) hmem rfl rfl rfl fun _ _ => rfl
      · have hcons := objsOf_perm hperm j
        rw [objsOf_cons b rest hbucket] at hcons
        rw [update_apply] at hcons ⊢
        split_ifs at hcons ⊢ with hj
        · subst hj
          have herase := hcons.erase b.real
          rwa [erase_cons_head] at herase
        · exact hcons
      · have hcons := (largeOf_perm hperm).append_right pinned
        rwa [largeOf_cons_small b rest hbucket] at hcons
    · simp only [Returned, hbucket]
      exact ⟨m, c, hslab, rfl, rfl, rfl⟩
    · rw [read64_write64 (by omega)]
      exact hw.imp_right fun hin => and_two_pow_of_ge (by omega) (by omega)
    · rw [(sameOutside_write64 m _ _).read64 (.inr le_rfl)]
      exact hsecond
  | none =>
    have hlarge : b.range ∈ largeOf live ++ pinned :=
      mem_append_left _ (mem_largeOf.mpr ⟨b, hb, hbucket, rfl⟩)
    obtain ⟨arena, harena, -, hpages, hlayout'⟩ :=
      hlayout.freePages (placed_heap aslr) hlarge (hroom hbucket)
    refine ⟨{ h with
      arena, mem := m, frames := unmapPages h.frames b.real (blockPages b.size) }, ?_, ?_, ?_,
      rfl, hm, rfl, nofun⟩
    · rw [hfree, release_large _ _ hbucket]
      exact hpages
    · refine hI.remove hperm (hlayout'.perm (fun j => ?_) ?_) hm rfl rfl rfl fun v hv => ?_
      · have hcons := objsOf_perm hperm j
        rwa [objsOf_cons_large b rest hbucket] at hcons
      · have hcons := ((largeOf_perm hperm).append_right pinned).erase b.range
        rwa [largeOf_cons b rest hbucket, cons_append, erase_cons_head] at hcons
      · apply mapPages_outside
        intro hin
        have hlimit := (hI.layout.piece_limit hof).2
        simp only [Block.piece, hbucket, Piece.lo, Piece.len, Block.range] at hlimit
        exact absurd hin.2 (not_lt.mpr (hlimit.trans hv.le))
    · simp only [Returned, hbucket]
      exact ⟨trivial, harena, trivial⟩

end

end Singularity.KernelHeap
