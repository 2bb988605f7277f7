import Singularity.KernelHeap.ArenaRuns
import Singularity.KernelHeap.Heap
import Singularity.KernelHeap.SlabInvariant

/-!
# The layout of the heap

The arena ranges in use are the slabs of the buckets and the ranges of large blocks.
`HeapLayout` ties the arena, the eight caches and the page mappings together; the
pieces of memory it knows of, objects of slabs and large ranges, are pairwise disjoint.
-/

namespace Singularity.KernelHeap

open Foundation Function List Span

def bucketObjSize (idx : Nat) : Nat := objSizeOf (bucketSize idx)

variable {idx s start limit i pages : Nat} {slabs : List (Nat × Nat)} {large : List VmRange}
  {p : Piece} {h : Heap} {objs : Nat → List Nat}

lemma bucketSize_mem (h : idx < numBuckets) : bucketSize idx ∈ bucketSizes := by
  have hall : ∀ idx < numBuckets, bucketSize idx ∈ bucketSizes := by decide
  exact hall idx h

lemma bucketGeometry (h : idx < numBuckets) : Geometry (bucketObjSize idx) :=
  geometry_bucket (bucketSize_mem h)

/-- The range of a slab, given by its bucket and its address. -/
def slabRange (x : Nat × Nat) : VmRange := ⟨x.2, slabPages (bucketObjSize x.1)⟩

/-- The slabs of one bucket. -/
def heldOf (slabs : List (Nat × Nat)) (idx : Nat) : List Nat :=
  (slabs.filter fun x => x.1 == idx).map Prod.snd

lemma mem_heldOf : s ∈ heldOf slabs idx ↔ (idx, s) ∈ slabs := by
  simp [heldOf]

/-- The arena ranges in use. -/
def reserved (slabs : List (Nat × Nat)) (large : List VmRange) : List VmRange :=
  slabs.map slabRange ++ large

lemma erase_append_perm {k l : List VmRange} {r : VmRange} (hr : r ∈ l) :
    ((k ++ l).erase r).Perm (k ++ l.erase r) := by
  have hfirst : (k ++ l).Perm (r :: (k ++ l.erase r)) :=
    ((perm_cons_erase hr).append_left _).trans perm_middle
  have herase := hfirst.erase r
  rwa [erase_cons_head] at herase

/-- What the arena, the caches and the mappings have in common: `slabs` are the slabs of
all buckets, `objs` the objects given out by each bucket and `large` the other ranges. -/
structure HeapLayout (start limit : Nat) (h : Heap) (slabs : List (Nat × Nat))
    (objs : Nat → List Nat) (large : List VmRange) : Prop where
  held : Held start limit ⟨h.arena, reserved slabs large⟩
  bucket_lt : ∀ x ∈ slabs, x.1 < numBuckets
  objSize : ∀ i < numBuckets, (h.buckets i).objSize = bucketObjSize i
  cache : ∀ i < numBuckets, ∃ L,
    CacheInv h.mem (h.buckets i) (heldOf slabs i) (objs i) (fun _ => False) L
  unmapped : ∀ v ≤ limit, pageSize ∣ v → ¬ Covered (reserved slabs large) v → h.frames v = 0

/-- A piece of memory that is given out as a whole. -/
inductive Piece where
  | object (bucket slab obj : Nat)
  | range (r : VmRange)
  deriving DecidableEq

namespace Piece

def lo : Piece → Nat
  | object _ _ obj => obj
  | range r => r.base

def len : Piece → Nat
  | object bucket _ _ => bucketObjSize bucket
  | range r => r.pages * pageSize

/-- The pieces of a layout. -/
def Of (slabs : List (Nat × Nat)) (large : List VmRange) : Piece → Prop
  | object bucket slab obj => (bucket, slab) ∈ slabs ∧ obj ∈ objects (bucketObjSize bucket) slab
  | range r => r ∈ large

/-- The pieces that are in use. -/
def Used (objs : Nat → List Nat) : Piece → Prop
  | object bucket _ obj => obj ∈ objs bucket
  | range _ => True

/-- The arena range around a piece. -/
def around : Piece → VmRange
  | object bucket slab _ => slabRange (bucket, slab)
  | range r => r

lemma around_mem (h : p.Of slabs large) : p.around ∈ reserved slabs large := by
  cases p with
  | object bucket slab obj => exact mem_append_left _ (mem_map_of_mem h.1)
  | range r => exact mem_append_right _ h

lemma Of.mono (h : p.Of slabs large) (hslabs : ∀ x ∈ slabs, x ∈ slabs')
    (hlarge : ∀ r ∈ large, r ∈ large') : p.Of slabs' large' := by
  cases p with
  | object bucket slab obj => exact ⟨hslabs _ h.1, h.2⟩
  | range r => exact hlarge r h

lemma inside (h : p.Of slabs large) :
    p.around.base ≤ p.lo ∧ p.lo + p.len ≤ p.around.base + p.around.pages * pageSize := by
  cases p with
  | object bucket slab obj =>
    obtain ⟨hlo, hhi⟩ := object_bounds h.2
    exact ⟨(Nat.le_add_right _ _).trans hlo, hhi⟩
  | range r => exact ⟨le_rfl, le_rfl⟩

end Piece

section
variable {h' : Heap} (hl : HeapLayout start limit h slabs objs large)
include hl

variable {m : Mem}

lemma HeapLayout.geometry (hi : i < numBuckets) : Geometry (h.buckets i).objSize := by
  rw [hl.objSize i hi]
  exact bucketGeometry hi

lemma HeapLayout.slab_placed (hs : (i, s) ∈ slabs) :
    s ≠ 0 ∧ slabBytes (bucketObjSize i) ∣ s ∧ s + slabBytes (bucketObjSize i) < 2 ^ 64 := by
  have hi := hl.bucket_lt _ hs
  obtain ⟨L, hcache⟩ := hl.cache i hi
  have hplaced := hcache.placed s (mem_heldOf.mpr hs)
  rwa [hl.objSize i hi] at hplaced

lemma HeapLayout.object_of (hi : i < numBuckets) (ho : o ∈ objs i) :
    (Piece.object i (slabOf (bucketObjSize i) o) o).Of slabs large := by
  obtain ⟨L, hcache⟩ := hl.cache i hi
  have hheld := hcache.live_held o ho
  have hobj := hcache.live_object ho
  rw [hl.objSize i hi] at hheld hobj
  exact ⟨mem_heldOf.mp hheld, hobj⟩

lemma HeapLayout.piece_limit (hp : p.Of slabs large) : start ≤ p.lo ∧ p.lo + p.len ≤ limit := by
  obtain ⟨hlo, hhi⟩ := Piece.inside hp
  obtain ⟨hstart, hend⟩ := hl.held.inside _ (Piece.around_mem hp)
  exact ⟨hstart.trans hlo, hhi.trans (hend.trans hl.held.shape.watermark_le)⟩

/-- Distinct pieces share no byte. -/
lemma HeapLayout.apart (hp : p.Of slabs large) (hq : q.Of slabs large) (hne : p ≠ q) :
    p.lo + p.len ≤ q.lo ∨ q.lo + q.len ≤ p.lo := by
  have hsymm := symm_not_meets
  obtain ⟨hslabs, hlarge, hcross⟩ := pairwise_append.mp hl.held.apart
  have hfar : ¬ Meets p.around q.around →
      p.lo + p.len ≤ q.lo ∨ q.lo + q.len ≤ p.lo := by
    intro hmeets
    obtain ⟨hplo, hphi⟩ := Piece.inside hp
    obtain ⟨hqlo, hqhi⟩ := Piece.inside hq
    have hppos := (hl.held.valid _ (Piece.around_mem hp)).2.1
    have hqpos := (hl.held.valid _ (Piece.around_mem hq)).2.1
    obtain hle | hle := disjoint_of_not_meets hppos hqpos hmeets
    · exact .inl (hphi.trans (hle.trans hqlo))
    · exact .inr (hqhi.trans (hle.trans hplo))
  cases p with
  | object i s o =>
    cases q with
    | object j t u =>
      by_cases hsame : (i, s) = (j, t)
      · cases hsame
        have hou : o ≠ u := fun heq => hne (by rw [heq])
        have hdvd := (hl.slab_placed hp.1).2.1
        exact objects_apart hdvd hdvd hp.2 hq.2 hou
      · have hsym : Std.Symm fun x y : Nat × Nat =>
            ¬ Meets (slabRange x) (slabRange y) :=
          ⟨fun _ _ hxy => hsymm.symm _ _ hxy⟩
        exact hfar ((pairwise_map.mp hslabs).forall hp.1 hq.1 hsame)
    | range r => exact hfar (hcross _ (mem_map_of_mem hp.1) r hq)
  | range r =>
    cases q with
    | object j t u =>
      exact hfar (hsymm.symm _ _ (hcross _ (mem_map_of_mem hq.1) r hp))
    | range r' =>
      have hr : r ≠ r' := fun heq => hne (by rw [heq])
      exact hfar (hlarge.forall hp hq hr)

lemma HeapLayout.setMem (hmem : ∀ p : Piece, p.Of slabs large → ¬ p.Used objs →
      ∀ x, p.lo ≤ x → x < p.lo + p.len → m x = h.mem x) :
    HeapLayout start limit { h with mem := m } slabs objs large := by
  refine ⟨hl.held, hl.bucket_lt, hl.objSize, fun i hi => ?_, hl.unmapped⟩
  obtain ⟨L, hcache⟩ := hl.cache i hi
  refine ⟨L, hcache.toCacheBase.congr_mem (hl.geometry hi) fun s hs o ho hfree => ?_,
    hcache.counted⟩
  rw [hl.objSize i hi] at ho
  intro x hlo hhi
  have hlen : 16 ≤ bucketObjSize i := (bucketGeometry hi).large
  exact hmem (.object i s o) ⟨mem_heldOf.mp hs, ho⟩ hfree x hlo (hhi.trans_le (by
    simp only [Piece.lo, Piece.len]
    omega))

lemma HeapLayout.write_piece (hp : p.Of slabs large) (hused : p.Used objs)
    (hm : Mem.SameOutside p.lo p.len h.mem m) :
    HeapLayout start limit { h with mem := m } slabs objs large := by
  apply hl.setMem
  intro q hq hfree x hlo hhi
  have hne : q ≠ p := by
    rintro rfl
    exact hfree hused
  have hapart := hl.apart hq hp hne
  apply hm x
  omega

lemma HeapLayout.write_outside (hm : ∀ x, start ≤ x → x < limit → m x = h.mem x) :
    HeapLayout start limit { h with mem := m } slabs objs large := by
  apply hl.setMem
  intro q hq hfree x hlo hhi
  obtain ⟨hstart, hend⟩ := hl.piece_limit hq
  exact hm x (hstart.trans hlo) (hhi.trans_le hend)

lemma HeapLayout.congr (hmem : h'.mem = h.mem) (harena : h'.arena = h.arena)
    (hbuckets : h'.buckets = h.buckets) (hframes : ∀ v ≤ limit, h'.frames v = h.frames v) :
    HeapLayout start limit h' slabs objs large := by
  refine ⟨?_, hl.bucket_lt, ?_, ?_, fun v hv hdvd hoff => ?_⟩
  · rw [harena]
    exact hl.held
  · rw [hbuckets]
    exact hl.objSize
  · rw [hmem, hbuckets]
    exact hl.cache
  · rw [hframes v hv]
    exact hl.unmapped v hv hdvd hoff

lemma HeapLayout.perm (hobjs : ∀ i, (objs i).Perm (objs' i)) (hlarge : large.Perm large') :
    HeapLayout start limit h slabs objs' large' := by
  have hperm : (reserved slabs large).Perm (reserved slabs large') := hlarge.append_left _
  refine ⟨hl.held.perm hperm, hl.bucket_lt, hl.objSize, fun i hi => ?_, fun v hv hpage hcov => ?_⟩
  · obtain ⟨L, hcache⟩ := hl.cache i hi
    exact ⟨L, hcache.perm_live (hobjs i)⟩
  · refine hl.unmapped v hv hpage ?_
    rintro ⟨r, hr, hrv⟩
    exact hcov ⟨r, hperm.mem_iff.mp hr, hrv⟩

lemma HeapLayout.setBucket (hsz : c.objSize = bucketObjSize i)
    (hcache : ∃ L, CacheInv h.mem c (heldOf slabs i) os (fun _ => False) L) :
    HeapLayout start limit (h.setBucket i c) slabs (update objs i os) large := by
  refine ⟨hl.held, hl.bucket_lt, ?_, ?_, hl.unmapped⟩
  · exact (forall_update_iff _ fun j (c : SlabCache) =>
      j < numBuckets → c.objSize = bucketObjSize j).mpr ⟨fun _ => hsz, fun j _ => hl.objSize j⟩
  · exact forall_update₂ (fun j c os => j < numBuckets →
      ∃ L, CacheInv h.mem c (heldOf slabs j) os (fun _ => False) L) (fun _ => hcache)
      fun j _ => hl.cache j

end

section
variable {frames supply : Nat → Nat} {virt v : Nat}

lemma mapPages_of_ne (h : ∀ i < pages, v ≠ virt + i * pageSize) :
    mapPages frames virt supply pages v = frames v := by
  induction pages with
  | zero => rfl
  | succ n ih =>
    rw [mapPages, update_of_ne (h n (Nat.lt_succ_self n))]
    exact ih fun i hi => h i (Nat.lt_succ_of_lt hi)

lemma mapPages_at (hi : i < pages) :
    mapPages frames virt supply pages (virt + i * pageSize) = supply i := by
  induction pages with
  | zero => cases hi
  | succ n ih =>
    rw [mapPages]
    by_cases hin : i = n
    · rw [hin, update_self]
    have hne : virt + i * pageSize ≠ virt + n * pageSize := by
      unfold pageSize
      omega
    rw [update_of_ne hne]
    exact ih (by omega)

lemma mapPages_outside (h : ¬ Within (⟨virt, pages⟩ : VmRange) v) :
    mapPages frames virt supply pages v = frames v := by
  apply mapPages_of_ne
  rintro i hi rfl
  simp only [within_vmRange, pageSize] at h
  omega

lemma mapPages_behind (hend : virt + pages * pageSize ≤ limit) (hv : limit < v) :
    mapPages frames virt supply pages v = frames v :=
  mapPages_outside fun hin => absurd hin.2 (Nat.not_lt.mpr (hend.trans hv.le))

lemma unmapPages_mapPages (h : ∀ i < pages, frames (virt + i * pageSize) = 0) :
    unmapPages (mapPages frames virt supply pages) virt pages = frames := by
  funext v
  by_cases hv : ∃ i < pages, v = virt + i * pageSize
  · obtain ⟨i, hi, rfl⟩ := hv
    exact (mapPages_at hi).trans (h i hi).symm
  · have hne : ∀ i < pages, v ≠ virt + i * pageSize := fun i hi heq => hv ⟨i, hi, heq⟩
    exact (mapPages_of_ne hne).trans (mapPages_of_ne hne)

end

/-- What changes when an object is taken from a bucket: nothing but the cache, or a new
slab on a range that was not in use. -/
structure ObjectGrant (start limit : Nat) (h : Heap) (slabs : List (Nat × Nat))
    (objs : Nat → List Nat) (large : List VmRange) (i o : Nat) (h' : Heap)
    (slabs' : List (Nat × Nat)) : Prop where
  layout : HeapLayout start limit h' slabs' (update objs i (o :: objs i)) large
  ne_zero : o ≠ 0
  fresh : o ∉ objs i
  magic : h'.magic = h.magic
  canary : h'.canary = h.canary
  gwp : h'.gwp = h.gwp
  mem : ∀ x, Covered (reserved slabs large) x ∨ limit ≤ x → h'.mem x = h.mem x
  frames : ∀ v, limit < v → h'.frames v = h.frames v
  slabs : slabs' = slabs ∧ SlabCache.allocCached h.mem (h.buckets i) ≠ .ok none ∧
      h'.arena = h.arena ∧ h'.frames = h.frames ∨
    ∃ s, slabs' = (i, s) :: slabs ∧ SlabCache.allocCached h.mem (h.buckets i) = .ok none ∧
      Granted start limit h.arena s (slabPages (bucketObjSize i)) h'.arena

lemma head_partly_of_none (h : SlabCache.allocCached m c = .ok none) : c.head .partly = 0 := by
  by_contra hne
  rw [SlabCache.allocCached, if_pos hne] at h
  cases htake : SlabCache.takeObject m c (c.head .partly) with
  | error e =>
    rw [htake] at h
    cases h
  | ok r =>
    rw [htake] at h
    cases h

lemma slabPages_two_pow (objSize : Nat) : ∃ k ≤ 1, slabPages objSize = 2 ^ k := by
  unfold slabPages
  split
  · exact ⟨1, le_rfl, rfl⟩
  · exact ⟨0, Nat.zero_le _, rfl⟩

section
variable (hplace : Placed start limit) (hstart : 0 < start) (htop : limit + 4 * pageSize ≤ 2 ^ 64)
include htop in
lemma Shape.fitsAligned (hs : Shape start limit a) (objSize : Nat) :
    ArenaOp.FitsAligned a (slabPages objSize) (slabPages objSize) := by
  obtain ⟨k, hk, hpages⟩ := slabPages_two_pow objSize
  have hle : 2 ^ k ≤ 2 := Nat.pow_le_pow_right (by decide) hk
  have hpos : 0 < 2 ^ k := Nat.two_pow_pos k
  have hwm := hs.watermark_le
  rw [hpages]
  unfold pageSize at htop
  constructor
  · unfold pageSize
    omega
  intro r hr _
  obtain ⟨-, hend⟩ := hs.fits r hr
  have hmul : Word.mul (2 ^ k) pageSize = 2 ^ k * pageSize := by
    apply Word.mul_eq
    unfold pageSize
    omega
  have hbase : r.base ≤ a.watermark := (Nat.le_add_right _ _).trans hend
  have hwrap : r.base + 2 ^ k * pageSize ≤ 2 ^ 64 := by
    unfold pageSize
    omega
  have hab : 0 < 2 ^ k * pageSize := Nat.mul_pos hpos (by decide)
  obtain ⟨hlo, hup⟩ := Word.alignUp_bounds hab hwrap
  have hlt : Word.alignUp r.base (2 ^ k * pageSize) < 2 ^ 64 := by omega
  rw [hmul, VmArena.gap, Word.sub_eq hlt hlo]
  unfold pageSize at hup ⊢
  omega

variable {supply : Option (Nat → Nat)}

section
variable (hl : HeapLayout start limit h slabs objs large) {b : VmArena} {x : Nat}
include hl

include hplace hstart htop in
lemma HeapLayout.slabRange_granted (hi : i < numBuckets) :
    h.arena.allocAligned (slabPages (h.buckets i).objSize) (slabPages (h.buckets i).objSize) =
        (0, h.arena) ∨
      ∃ s b, h.arena.allocAligned (slabPages (h.buckets i).objSize)
          (slabPages (h.buckets i).objSize) = (s, b) ∧ s ≠ 0 ∧
        slabBytes (bucketObjSize i) ∣ s ∧
        Granted start limit h.arena s (slabPages (bucketObjSize i)) b := by
  have hfits := hl.held.shape.fitsAligned htop (bucketObjSize i)
  rw [hl.objSize i hi]
  obtain hnull | hg := allocAligned_granted hplace hl.held.shape hfits.1 hfits.2
  · exact .inl hnull
  refine .inr ⟨_, _, rfl, ?_, ?_, hg⟩
  · exact (hstart.trans_le hg.start_le).ne'
  obtain ⟨k, hk, hpages⟩ := slabPages_two_pow (bucketObjSize i)
  have hlt : 2 ^ k * pageSize < 2 ^ 64 := by
    have hle : 2 ^ k ≤ 2 := Nat.pow_le_pow_right (by decide) hk
    unfold pageSize
    omega
  rw [slabBytes, hpages]
  exact dvd_allocAligned h.arena (2 ^ k) k hlt

lemma HeapLayout.granted_off (hg : Granted start limit h.arena s pages b)
    (hx : Covered (reserved slabs large) x) : x < s ∨ s + pages * pageSize ≤ x := by
  obtain ⟨r, hr, hrx⟩ := hx
  by_contra hin
  have hwithin : Within (⟨s, pages⟩ : VmRange) x := by
    rw [within_vmRange]
    dsimp only
    omega
  exact hl.held.not_meets hg hr ⟨x, hwithin, hrx⟩

omit hl in
lemma Piece.covered (hp : p.Of slabs large) (hlo : p.lo ≤ x) (hhi : x < p.lo + p.len) :
    Covered (reserved slabs large) x := by
  obtain ⟨hbase, hend⟩ := Piece.inside hp
  exact ⟨p.around, Piece.around_mem hp, hbase.trans hlo, hhi.trans_le hend⟩

include hplace in
/-- Taking the first object of a new slab. -/
lemma HeapLayout.slabAlloc_new
    (hi : i < numBuckets) (hnone : SlabCache.allocCached h.mem (h.buckets i) = .ok none)
    (hpair : h.arena.allocAligned (slabPages (h.buckets i).objSize)
      (slabPages (h.buckets i).objSize) = (s, b))
    (hne : s ≠ 0) (hdvd : slabBytes (bucketObjSize i) ∣ s)
    (hgr : Granted start limit h.arena s (slabPages (bucketObjSize i)) b) (frames : Nat → Nat) :
    ∃ o h', h.slabAlloc i (some frames) = .ok (o, h') ∧
      ObjectGrant start limit h slabs objs large i o h' ((i, s) :: slabs) := by
  obtain ⟨L, hcache⟩ := hl.cache i hi
  have hsz := hl.objSize i hi
  have hend : s + slabBytes (bucketObjSize i) ≤ limit :=
    hgr.end_le.trans hgr.shape.watermark_le
  have hoff : ∀ x, Covered (reserved slabs large) x →
      x < s ∨ s + slabBytes (bucketObjSize i) ≤ x := fun x hx => hl.granted_off hgr hx
  have hnew : s ∉ heldOf slabs i := by
    intro hs
    have hpos : 0 < slabBytes (bucketObjSize i) := by
      have hge := slabBytes_ge (bucketObjSize i)
      omega
    have hcov : Covered (reserved slabs large) s :=
      ⟨slabRange (i, s), mem_append_left _ (mem_map_of_mem (mem_heldOf.mp hs)), le_rfl,
        Nat.lt_add_of_pos_right hpos⟩
    have := hoff s hcov
    omega
  obtain ⟨m, c, hcreate⟩ : ∃ m c, SlabCache.createSlab h.mem (h.buckets i) s = (m, c) :=
    ⟨_, _, rfl⟩
  have hok := createSlab_ok (hl.geometry hi) (by rwa [hsz])
    (by rw [hsz]; exact hend.trans_lt hplace.limit_lt) hcache hne hnew
  have hhead : c.head .partly = 0 := by
    have hsame : (SlabCache.createSlab h.mem (h.buckets i) s).2.head = (h.buckets i).head := rfl
    rw [hcreate] at hsame
    exact (congrFun hsame _).trans (head_partly_of_none hnone)
  rw [hcreate, hsz] at hok
  obtain ⟨hcsize, hsame, hI⟩ := hok
  have hcg : Geometry c.objSize := by
    rw [hcsize]
    exact bucketGeometry hi
  have hnew : (fun x => False ∨ x = s) s := Or.inr rfl
  obtain ⟨o, c', hcreated, htaken⟩ := allocCreated_taken hcg hI hnew
  rw [if_neg (not_not.mpr hhead)] at htaken
  have hloose : (fun x => (False ∨ x = s) ∧ x ≠ s) = fun _ => False := by
    funext x
    simp
  rw [hloose] at htaken
  refine ⟨o, ({ h.setBucket i c with
      arena := b
      frames := mapPages h.frames s frames (slabPages (bucketObjSize i))
      mem := m } : Heap).setBucket i c', ?_, ?_⟩
  · have hcreateSlab : h.createSlab i (some frames) = .ok (s, { h.setBucket i c with
        arena := b
        frames := mapPages h.frames s frames (slabPages (bucketObjSize i))
        mem := m }) := by
      rw [← hsz]
      simp [Heap.createSlab, hpair, hne, hcreate]
    simp only [Heap.slabAlloc, hnone, hcreateSlab]
    simp [bind, Except.bind, Heap.setBucket, hhead, hcreated]
  · have hmem : HeapLayout start limit { h with mem := m } slabs objs large := by
      apply hl.setMem
      intro q hq hfree x hlo hhi
      exact hsame x (hoff x (Piece.covered hq hlo hhi))
    refine ⟨⟨hl.held.grant hgr hne, forall_mem_cons.mpr ⟨hi, hl.bucket_lt⟩, fun j hj => ?_,
      fun j hj => ?_, fun v hv hpage hcov => ?_⟩, htaken.ne_zero, htaken.fresh, rfl, rfl, rfl, ?_,
      fun v hv => mapPages_behind hend hv,
      Or.inr ⟨s, rfl, hnone, hgr⟩⟩
    · by_cases hji : j = i
      · subst hji
        simpa [Heap.setBucket] using htaken.objSize.trans hcsize
      · simpa [Heap.setBucket, update_of_ne hji] using hl.objSize j hj
    · by_cases hji : j = i
      · subst hji
        simpa [Heap.setBucket, heldOf] using htaken.inv
      · simpa [Heap.setBucket, update_of_ne hji, heldOf, Ne.symm hji] using hmem.cache j hj
    · have hrest : ¬ Within (slabRange (i, s)) v ∧ ¬ Covered (reserved slabs large) v :=
        not_or.mp fun hor => hcov ((covered_cons _ _ _).mpr hor)
      exact (mapPages_outside hrest.1).trans (hl.unmapped v hv hpage hrest.2)
    · intro x hx
      apply hsame x
      obtain hx | hx := hx
      · exact hoff x hx
      · exact .inr (hend.trans hx)

include hplace hstart htop in
/-- Taking an object from a bucket; with no frames the array of the arena needs room to
take the range back. -/
lemma HeapLayout.slabAlloc (hi : i < numBuckets)
    (hroom : supply = none → h.arena.regions.length + 1 < vmArenaMaxRegions) :
    (∃ arena, h.slabAlloc i supply = .ok (0, { h with arena }) ∧
      HeapLayout start limit { h with arena } slabs objs large) ∨
    ∃ o h' slabs', h.slabAlloc i supply = .ok (o, h') ∧
      ObjectGrant start limit h slabs objs large i o h' slabs' := by
  obtain ⟨L, hcache⟩ := hl.cache i hi
  have hsz := hl.objSize i hi
  have hg := hl.geometry hi
  obtain hnone | ⟨o, c, hsome, htaken⟩ := allocCached_taken hg hcache
  · have hhead := head_partly_of_none hnone
    have hnull : SlabCache.allocCreated h.mem (h.buckets i) 0 = .ok (0, h.buckets i) := if_pos rfl
    have hself : ∀ arena, ({ h with arena } : Heap).setBucket i (h.buckets i) =
        { h with arena } := fun arena => by
      simp [Heap.setBucket]
    obtain hfail | ⟨s, b, hpair, hne, hdvd, hgr⟩ := hl.slabRange_granted hplace hstart htop hi
    · left
      refine ⟨h.arena, ?_, hl⟩
      have hcreate : h.createSlab i supply = .ok (0, h) := by
        simp [Heap.createSlab, hfail]
      simp only [Heap.slabAlloc, hnone, hcreate]
      simp [bind, Except.bind, hnull, Heap.setBucket]
    · cases supply with
      | none =>
        left
        have hlen : b.regions.length < vmArenaMaxRegions := by
          have hle := length_allocAligned_le h.arena (slabPages (h.buckets i).objSize)
            (slabPages (h.buckets i).objSize)
          rw [hpair] at hle
          exact Nat.lt_of_le_of_lt hle (hroom rfl)
        obtain ⟨b', hb', hheld⟩ := hl.held.refund hplace hgr hne hlen
        refine ⟨b', ?_, hheld, hl.bucket_lt, hl.objSize, hl.cache, hl.unmapped⟩
        have hcreate : h.createSlab i none = .ok (0, { h with arena := b' }) := by
          rw [← hsz] at hb'
          simp [Heap.createSlab, hpair, hne, hb']
        simp only [Heap.slabAlloc, hnone, hcreate]
        simp [bind, Except.bind, hnull, hself]
      | some frames =>
        right
        obtain ⟨o, h', hok, hgrant⟩ :=
          hl.slabAlloc_new hplace hi hnone hpair hne hdvd hgr frames
        exact ⟨o, h', _, hok, hgrant⟩
  · right
    refine ⟨o, h.setBucket i c, slabs, ?_, ?_, htaken.ne_zero, htaken.fresh, rfl, rfl, rfl,
      fun _ _ => rfl, fun _ _ => rfl, .inl ⟨rfl, by simp [hsome], rfl, rfl⟩⟩
    · simp [Heap.slabAlloc, hsome]
    · exact hl.setBucket (htaken.objSize.trans hsz) htaken.inv

lemma HeapLayout.map_granted (hgr : Granted start limit h.arena virt pages arena) (hne : virt ≠ 0)
    (frames : Nat → Nat) :
    HeapLayout start limit { h with
      arena
      frames := mapPages h.frames virt frames pages
      mem := h.mem.fill virt (pages * pageSize) 0 } slabs objs (⟨virt, pages⟩ :: large) := by
  have hmem : HeapLayout start limit { h with mem := h.mem.fill virt (pages * pageSize) 0 }
      slabs objs large := by
    apply hl.setMem
    intro q hq hfree x hlo hhi
    apply Mem.sameOutside_fill
    exact hl.granted_off hgr (Piece.covered hq hlo hhi)
  have hperm : (⟨virt, pages⟩ :: reserved slabs large).Perm
      (reserved slabs (⟨virt, pages⟩ :: large)) := perm_middle.symm
  refine ⟨(hl.held.grant hgr hne).perm hperm, hl.bucket_lt, hl.objSize, hmem.cache,
    fun v hv hpage hcov => ?_⟩
  have hrest : ¬ Within (⟨virt, pages⟩ : VmRange) v ∧
      ¬ Covered (reserved slabs large) v :=
    not_or.mp fun hor => hcov (by
      obtain ⟨r, hr, hrv⟩ := (covered_cons _ _ _).mpr hor
      exact ⟨r, hperm.mem_iff.mp hr, hrv⟩)
  exact (mapPages_outside hrest.1).trans (hl.unmapped v hv hpage hrest.2)

end

/-- A request for aligned pages is answered with entries of 2 MiB. -/
def Heap.usesHuge (h : Heap) (pages alignPages : Nat) (block : Option LargeBlock) : Bool :=
  block.isSome && useHuge pages (h.arena.allocAligned pages alignPages).1

lemma Heap.vmmAllocAligned_small (h : Heap) (hsmall : h.usesHuge pages alignPages block = false)
    (supply : Option (Nat → Nat)) : h.vmmAllocAligned pages alignPages supply block =
      h.mapRange pages (h.arena.allocAligned pages alignPages) supply := by
  unfold Heap.usesHuge at hsmall
  unfold Heap.vmmAllocAligned
  cases block with
  | none => simp
  | some block => simp_all

/-- The outcome of a request for pages: null, or the range with its pages mapped and zeroed. -/
inductive RangeOutcome (start limit : Nat) (h : Heap) (slabs : List (Nat × Nat))
    (objs : Nat → List Nat) (large : List VmRange) (pages : Nat) (r : Nat × VmArena)
    (supply : Option (Nat → Nat)) (answer : Except HeapFault (Nat × Heap)) : Prop
  | null (arena : VmArena) (hok : answer = .ok (0, { h with arena }))
      (hl : HeapLayout start limit { h with arena } slabs objs large)
  | range (frames : Nat → Nat) (hsupply : supply = some frames) (hne : r.1 ≠ 0)
      (hgr : Granted start limit h.arena r.1 pages r.2) (hok : answer = .ok (r.1, { h with
        arena := r.2
        frames := mapPages h.frames r.1 frames pages
        mem := h.mem.fill r.1 (pages * pageSize) 0 }))
      (hl : HeapLayout start limit { h with
        arena := r.2
        frames := mapPages h.frames r.1 frames pages
        mem := h.mem.fill r.1 (pages * pageSize) 0 } slabs objs (⟨r.1, pages⟩ :: large))

variable (hl : HeapLayout start limit h slabs objs large) {o : Nat}
include hl

section
include hplace hstart

lemma HeapLayout.mapRange (hr : r = (0, h.arena) ∨ Granted start limit h.arena r.1 pages r.2)
    (hroom : supply = none → r.2.regions.length < vmArenaMaxRegions) :
    RangeOutcome start limit h slabs objs large pages r supply (h.mapRange pages r supply) := by
  obtain rfl | hgr := hr
  · exact .null h.arena rfl hl
  have hne : r.1 ≠ 0 := (hstart.trans_le hgr.start_le).ne'
  cases supply with
  | none =>
    obtain ⟨b, hb, hheld⟩ := hl.held.refund hplace hgr hne (hroom rfl)
    refine .null b ?_ ⟨hheld, hl.bucket_lt, hl.objSize, hl.cache, hl.unmapped⟩
    simp [Heap.mapRange, hne, hb]
  | some frames =>
    have hbytes : pages * pageSize < 2 ^ 64 := by
      have hend := hgr.end_le.trans hgr.shape.watermark_le
      have hlimit := hplace.limit_lt
      omega
    refine .range frames rfl hne hgr ?_ (hl.map_granted hgr hne frames)
    simp [Heap.mapRange, hne, Word.mul_eq hbytes]

lemma HeapLayout.vmmAlloc
    (hpages : pages < 2 ^ 32) (hroom : supply = none → h.arena.regions.length < vmArenaMaxRegions) :
    RangeOutcome start limit h slabs objs large pages (h.arena.alloc pages) supply
      (h.vmmAlloc pages supply) := by
  have hbytes : pages * pageSize < 2 ^ 64 := by
    unfold pageSize
    omega
  exact hl.mapRange hplace hstart
    (alloc_granted hplace hl.held.shape hbytes fun _ _ _ => hpages)
    fun hs => (length_alloc_le _ _).trans_lt (hroom hs)

lemma HeapLayout.vmmAllocAligned (hfits : ArenaOp.FitsAligned h.arena pages alignPages)
    (hroom : supply = none → h.arena.regions.length + 1 < vmArenaMaxRegions)
    (hsmall : h.usesHuge pages alignPages block = false) :
    RangeOutcome start limit h slabs objs large pages (h.arena.allocAligned pages alignPages)
      supply (h.vmmAllocAligned pages alignPages supply block) := by
  rw [h.vmmAllocAligned_small hsmall]
  exact hl.mapRange hplace hstart (allocAligned_granted hplace hl.held.shape hfits.1 hfits.2)
    fun hs => (length_allocAligned_le _ _ _).trans_lt (hroom hs)

end

lemma HeapLayout.object_aligned (hof : (Piece.object i s o).Of slabs large) : 16 ∣ o := by
  obtain ⟨k, -, rfl⟩ := mem_objects.mp hof.2
  have hbytes : 16 ∣ slabBytes (bucketObjSize i) := Nat.dvd_mul_left_of_dvd (by decide) _
  have hslab := hbytes.trans (hl.slab_placed hof.1).2.1
  have hobj := (bucketGeometry (hl.bucket_lt _ hof.1)).aligned
  exact Nat.dvd_add (Nat.dvd_add hslab (by decide)) (hobj.mul_left _)

lemma HeapLayout.slabFree (hi : i < numBuckets) (ho : o ∈ objs i) :
    ∃ c w, SlabCache.free h.mem (h.buckets i) o = (true, h.mem.write64 o w, c) ∧
      (w = 0 ∨ start ≤ w ∧ w < limit) ∧
      HeapLayout start limit { h.setBucket i c with mem := h.mem.write64 o w } slabs
        (update objs i ((objs i).erase o)) large := by
  obtain ⟨L, hcache⟩ := hl.cache i hi
  obtain ⟨c, L', hfree, hsz, hI⟩ := free_ok (hl.geometry hi) hcache ho
  have hof := hl.object_of hi ho
  have hlarge := (bucketGeometry hi).large
  refine ⟨c, _, hfree, ?_, ?_⟩
  · -- The link is the first free object of the slab.
    obtain ⟨l, hok⟩ := hcache.slab _ (hcache.live_held o ho)
    cases l with
    | nil => exact .inl hok.chain
    | cons a l =>
      have ha := hok.objects.subset (mem_append_left _ mem_cons_self)
      rw [hok.chain.1]
      rw [hl.objSize i hi] at ha
      have hlimit := hl.piece_limit (p := .object i (slabOf (bucketObjSize i) o) a) ⟨hof.1, ha⟩
      simp only [Piece.lo, Piece.len] at hlimit
      exact .inr (by omega)
  have hmem := hl.write_piece hof ho ((Mem.sameOutside_write64 h.mem o
    ((h.buckets i).slabs (slabOf (h.buckets i).objSize o)).freeList).mono le_rfl
      (by simp only [Piece.lo, Piece.len]; omega))
  exact hmem.setBucket (hsz.trans (hl.objSize i hi)) ⟨L', hI⟩

include hplace in
/-- Giving the range of a large block back to the arena. -/
lemma HeapLayout.freePages {r : VmRange}
    (hr : r ∈ large) (hroom : h.arena.regions.length < vmArenaMaxRegions) :
    ∃ arena, h.arena.free r.base r.pages = some arena ∧
      Released start limit h.arena r.base r.pages arena ∧
      h.freePages r.base r.pages =
        .ok { h with arena, frames := unmapPages h.frames r.base r.pages } ∧
      HeapLayout start limit { h with arena, frames := unmapPages h.frames r.base r.pages } slabs
        objs (large.erase r) := by
  have hmem : r ∈ reserved slabs large := mem_append_right _ hr
  obtain ⟨b, hb, hrel⟩ := hl.held.free_released hplace hmem hroom
  have hperm : ((reserved slabs large).erase r).Perm (reserved slabs (large.erase r)) :=
    erase_append_perm hr
  refine ⟨b, hb, hrel, by simp [Heap.freePages, hb],
    (hl.held.release hmem hrel).perm hperm, hl.bucket_lt, hl.objSize, hl.cache,
    fun v hv hpage hcov => ?_⟩
  by_cases hin : Within r v
  · have hvirt := (hl.held.valid r hmem).2.2
    have hat : v = r.base + (v - r.base) / pageSize * pageSize ∧
        (v - r.base) / pageSize < r.pages := by
      simp only [within_vmRange, pageSize] at hin hvirt hpage ⊢
      omega
    rw [hat.1]
    exact mapPages_at hat.2
  refine (mapPages_outside hin).trans (hl.unmapped v hv hpage ?_)
  rintro ⟨c, hc, hcv⟩
  have hcr : c ≠ r := by
    rintro rfl
    exact hin hcv
  exact hcov ⟨c, hperm.mem_iff.mp ((mem_erase_of_ne hcr).mpr hc), hcv⟩

end

end Singularity.KernelHeap
