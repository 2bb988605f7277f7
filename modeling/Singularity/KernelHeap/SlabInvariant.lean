import Singularity.KernelHeap.SlabCache

/-!
# The invariant of a slab cache

The objects of a slab are exactly its free list and its live objects. `SlabOk` says so
for one slab, `CacheBase` for all slabs a cache has, and `Counted` adds that each slab
stands in the list its count belongs to. The sections of `alloc`, `free` and `trim`
keep both; the slabs in `loose` belong to calls between `createSlab` and the second
section of `alloc`.
-/

namespace Singularity.KernelHeap

open Foundation Function List SlabCache Nat Word Mem Slab

def objectCount (objSize : Nat) : Nat := (slabBytes objSize - slabHeaderBytes) / objSize

/-- The addresses of the objects of a slab. -/
def objects (objSize s : Nat) : List Nat :=
  (List.range (objectCount objSize)).map fun i => s + slabHeaderBytes + i * objSize

/-- The slab an address belongs to. -/
def slabOf (objSize o : Nat) : Nat := o / slabBytes objSize * slabBytes objSize

/-- The object sizes a slab can be divided into. -/
structure Geometry (objSize : Nat) : Prop where
  large : 16 ≤ objSize
  aligned : 16 ∣ objSize
  count_pos : 0 < objectCount objSize

lemma geometry_bucket {size : Nat} (h : size ∈ bucketSizes) : Geometry (objSizeOf size) := by
  have hall : ∀ size ∈ bucketSizes, 16 ≤ objSizeOf size ∧ 16 ∣ objSizeOf size ∧
      0 < objectCount (objSizeOf size) := by decide
  obtain ⟨hlarge, haligned, hpos⟩ := hall size h
  exact ⟨hlarge, haligned, hpos⟩

lemma slabBytes_eq (objSize : Nat) : slabBytes objSize = 2 ^ 12 ∨ slabBytes objSize = 2 ^ 13 := by
  unfold slabBytes slabPages
  split
  · exact .inr rfl
  · exact .inl rfl

lemma slabBytes_ge (objSize : Nat) : 2 ^ 12 ≤ slabBytes objSize := by
  obtain h | h := slabBytes_eq objSize
  · exact h.ge
  · rw [h]
    decide

lemma page_dvd_slabBytes (objSize : Nat) : 2 ^ 12 ∣ slabBytes objSize := Dvd.intro_left _ rfl

variable {objSize s o t : Nat}

lemma mem_objects :
    o ∈ objects objSize s ↔ ∃ i < objectCount objSize, o = s + slabHeaderBytes + i * objSize := by
  simp only [objects, mem_map, mem_range, eq_comm]

lemma length_objects : (objects objSize s).length = objectCount objSize := by
  simp [objects]

lemma objectCount_mul_le : objectCount objSize * objSize ≤ slabBytes objSize - slabHeaderBytes :=
  div_mul_le_self _ _

lemma Geometry.count_lt (hg : Geometry objSize) : objectCount objSize < 2 ^ 16 := by
  have hle : objectCount objSize * 16 ≤ slabBytes objSize - slabHeaderBytes :=
    (mul_le_mul_left _ hg.large).trans objectCount_mul_le
  obtain h | h := slabBytes_eq objSize
  · omega
  · omega

lemma object_bounds (ho : o ∈ objects objSize s) :
    s + slabHeaderBytes ≤ o ∧ o + objSize ≤ s + slabBytes objSize := by
  obtain ⟨i, hi, rfl⟩ := mem_objects.mp ho
  have hle : (i + 1) * objSize ≤ slabBytes objSize - slabHeaderBytes :=
    (mul_le_mul_right _ hi).trans objectCount_mul_le
  have hge := slabBytes_ge objSize
  rw [succ_mul] at hle
  unfold slabHeaderBytes at *
  omega

lemma object_ne_zero (ho : o ∈ objects objSize s) : o ≠ 0 := by
  have hlo := (object_bounds ho).1
  unfold slabHeaderBytes at hlo
  omega

lemma objects_nodup (hg : Geometry objSize) : (objects objSize s).Nodup := by
  apply List.Nodup.map _ nodup_range
  intro i j hij
  have hpos : 0 < objSize := by
    have := hg.large
    omega
  exact eq_of_mul_eq_mul_right hpos (by simpa using hij)

lemma slabOf_eq (hs : slabBytes objSize ∣ s) (hlo : s ≤ o) (hhi : o < s + slabBytes objSize) :
    slabOf objSize o = s := by
  obtain ⟨q, rfl⟩ := hs
  have hpos : 0 < slabBytes objSize := (by decide : 0 < 2 ^ 12).trans_le (slabBytes_ge objSize)
  have hdiv : o / slabBytes objSize = q := by
    apply Nat.div_eq_of_lt_le
    · rwa [Nat.mul_comm]
    · rwa [succ_mul, Nat.mul_comm]
  rw [slabOf, hdiv, Nat.mul_comm]

lemma slabOf_object (hg : Geometry objSize) (hs : slabBytes objSize ∣ s)
    (ho : o ∈ objects objSize s) : slabOf objSize o = s := by
  obtain ⟨hlo, hhi⟩ := object_bounds ho
  have := hg.large
  apply slabOf_eq hs
  · omega
  · omega

lemma slabs_apart (hs : slabBytes objSize ∣ s) (ht : slabBytes objSize ∣ t)
    (hne : s ≠ t) : s + slabBytes objSize ≤ t ∨ t + slabBytes objSize ≤ s := by
  by_contra hno
  rw [not_or] at hno
  apply hne
  obtain hst | hts := le_total s t
  · exact ((slabOf_eq hs hst (by omega)).symm.trans (slabOf_eq ht le_rfl (by omega)))
  · exact ((slabOf_eq hs le_rfl (by omega)).symm.trans (slabOf_eq ht hts (by omega)))

lemma objects_apart (hs : slabBytes objSize ∣ s) (ht : slabBytes objSize ∣ t)
    (ho : o ∈ objects objSize s) (hp : p ∈ objects objSize t) (hne : o ≠ p) :
    o + objSize ≤ p ∨ p + objSize ≤ o := by
  by_cases hst : s = t
  · subst hst
    obtain ⟨i, -, rfl⟩ := mem_objects.mp ho
    obtain ⟨j, -, rfl⟩ := mem_objects.mp hp
    obtain hij | rfl | hji := lt_trichotomy i j
    · have hle : (i + 1) * objSize ≤ j * objSize := mul_le_mul_right _ hij
      rw [succ_mul] at hle
      omega
    · exact absurd rfl hne
    · have hle : (j + 1) * objSize ≤ i * objSize := mul_le_mul_right _ hji
      rw [succ_mul] at hle
      omega
  · obtain ⟨hlo, hhi⟩ := object_bounds ho
    obtain ⟨hlo', hhi'⟩ := object_bounds hp
    obtain h | h := slabs_apart hs ht hst
    · omega
    · omega

lemma slab_end (hend : s + slabBytes objSize < 2 ^ 64) :
    Word.add s (Word.mul (slabPages objSize) pageSize) = s + slabBytes objSize := by
  have hmul : Word.mul (slabPages objSize) pageSize = slabBytes objSize :=
    mul_eq ((le_add_left _ s).trans_lt hend)
  rw [hmul, add_eq hend]

/-- The mask of `free` finds the slab. -/
lemma mask_eq_slabOf (ho : o < 2 ^ 64) :
    o &&& Word.compl (Word.sub (slabBytes objSize) 1) = slabOf objSize o := by
  unfold slabOf
  obtain h | h := slabBytes_eq objSize
  · rw [h]
    exact and_compl_two_pow (k := 12) ho (by decide)
  · rw [h]
    exact and_compl_two_pow (k := 13) ho (by decide)

/-- The live objects of one slab. -/
def liveOf (objSize : Nat) (live : List Nat) (s : Nat) : List Nat :=
  live.filter fun o => decide (slabOf objSize o = s)

/-- A slab whose objects are the free list `l` and the live objects in it. -/
structure SlabOk (m : Mem) (objSize : Nat) (live : List Nat) (s : Nat) (b : Slab)
    (l : List Nat) : Prop where
  dataPage : b.dataPage = s
  pageCount : b.pageCount = slabPages objSize
  totalCount : b.totalCount = objectCount objSize
  usedCount : b.usedCount = (liveOf objSize live s).length
  chain : Chain m.read64 b.freeList l
  objects : (l ++ liveOf objSize live s).Perm (objects objSize s)

variable {m m' : Mem} {live live' : List Nat}

section
variable {b : Slab} {l : List Nat} (h : SlabOk m objSize live s b l)
include h

lemma SlabOk.length_add : l.length + b.usedCount = objectCount objSize := by
  have hlen := h.objects.length_eq
  rwa [length_append, length_objects, ← h.usedCount] at hlen

lemma SlabOk.mem_objects (ho : o ∈ l) : o ∈ KernelHeap.objects objSize s :=
  h.objects.subset (mem_append_left _ ho)

lemma SlabOk.live_mem_objects (ho : o ∈ live)
    (hs : slabOf objSize o = s) : o ∈ KernelHeap.objects objSize s :=
  h.objects.subset (mem_append_right _ (mem_filter.mpr ⟨ho, by simpa using hs⟩))

lemma SlabOk.not_live (hg : Geometry objSize)
    (hs : slabBytes objSize ∣ s) (ho : o ∈ l) : o ∉ live := by
  intro hlive
  have hnodup := h.objects.nodup_iff.mpr (objects_nodup hg)
  have hmem : o ∈ liveOf objSize live s :=
    mem_filter.mpr ⟨hlive, by simpa using slabOf_object hg hs (h.mem_objects ho)⟩
  exact disjoint_of_nodup_append hnodup ho hmem

/-- The slab depends on its header up to the links, on the first words of its free
objects and on its own live objects. -/
lemma SlabOk.congr (hb : b' = { b with toLinks := b'.toLinks }) (hlive : liveOf objSize live' s =
      liveOf objSize live s) (hmem : ∀ o ∈ l, m'.read64 o = m.read64 o) :
    SlabOk m' objSize live' s b' l := by
  rw [hb]
  exact ⟨h.dataPage, h.pageCount, h.totalCount, by rw [hlive]; exact h.usedCount,
    h.chain.congr hmem, by rw [hlive]; exact h.objects⟩

end

/-- What belongs into a list by the number of objects in use. -/
def InList (total : Nat) : SlabList → Nat → Prop
  | .partly, used => 0 < used ∧ used < total
  | .full, used => used = total
  | .empty, used => used = 0

/-- The slabs of a cache: `held` are all of them, `live` the objects given out. -/
structure CacheBase (m : Mem) (c : SlabCache) (held live : List Nat) (loose : Nat → Prop)
    (L : SlabList → List Nat) : Prop where
  listed : Listed c L
  placed : ∀ s ∈ held, s ≠ 0 ∧ slabBytes c.objSize ∣ s ∧ s + slabBytes c.objSize < 2 ^ 64
  slab : ∀ s ∈ held, ∃ l, SlabOk m c.objSize live s (c.slabs s) l
  held_iff : ∀ s, s ∈ held ↔ (∃ i, s ∈ L i) ∨ loose s
  loose_off : ∀ s i, loose s → s ∉ L i
  loose_unused : ∀ s, loose s → (c.slabs s).usedCount = 0
  live_held : ∀ o ∈ live, slabOf c.objSize o ∈ held

/-- Every slab other than `x` stands in the list its count belongs to. -/
def CountedBut (c : SlabCache) (L : SlabList → List Nat) (x : Nat) : Prop :=
  ∀ i, ∀ s ∈ L i, s ≠ x → InList (objectCount c.objSize) i (c.slabs s).usedCount

def Counted (c : SlabCache) (L : SlabList → List Nat) : Prop :=
  ∀ i, ∀ s ∈ L i, InList (objectCount c.objSize) i (c.slabs s).usedCount

/-- Two caches that differ only in list heads and links. -/
structure SameBodies (c c' : SlabCache) : Prop where
  objSize : c'.objSize = c.objSize
  slabs : ∀ x, c'.slabs x = { c.slabs x with toLinks := (c'.slabs x).toLinks }

lemma SameBodies.trans (h : SameBodies c1 c2) (h' : SameBodies c2 c3) : SameBodies c1 c3 where
  objSize := h'.objSize.trans h.objSize
  slabs x := by
    rw [h'.slabs x, h.slabs x]

variable {c : SlabCache} {L : SlabList → List Nat} {held : List Nat} {loose : Nat → Prop}

lemma SameBodies.usedCount (h : SameBodies c c') (x : Nat) :
    (c'.slabs x).usedCount = (c.slabs x).usedCount := by
  rw [h.slabs x]

lemma sameBodies_remove (c : SlabCache) (s : Nat) (i : SlabList) :
    SameBodies c (c.removeSlabFromList s i) := by
  rw [removeSlabFromList_eq]
  exact ⟨rfl, fun _ => rfl⟩

lemma sameBodies_add (c : SlabCache) (s : Nat) (i : SlabList) :
    SameBodies c (c.addSlabToList s i) := by
  rw [addSlabToList_eq]
  exact ⟨rfl, fun _ => rfl⟩

lemma sameBodies_move (c : SlabCache) (s : Nat) (i j : SlabList) :
    SameBodies c ((c.removeSlabFromList s i).addSlabToList s j) :=
  (sameBodies_remove c s i).trans (sameBodies_add _ s j)

lemma CountedBut.setSlab (h : CountedBut c L s) (b : Slab) : CountedBut (c.setSlab s b) L s := by
  intro i t ht hts
  rw [c.setSlab_slabs_of_ne b hts]
  exact h i t ht hts

section
section
variable (h : CacheBase m c held live loose L)
include h

lemma CacheBase.live_object (ho : o ∈ live) : o ∈ objects c.objSize (slabOf c.objSize o) := by
  obtain ⟨l, hok⟩ := h.slab _ (h.live_held o ho)
  exact hok.live_mem_objects ho rfl

lemma CacheBase.used_pos (ho : o ∈ live) : 0 < (c.slabs (slabOf c.objSize o)).usedCount := by
  obtain ⟨l, hok⟩ := h.slab _ (h.live_held o ho)
  rw [hok.usedCount]
  exact length_pos_of_mem (mem_filter.mpr ⟨ho, by simp⟩)

lemma CacheBase.relist {loose' : Nat → Prop} (hb : SameBodies c c') (hl : Listed c' L')
    (hkept : ∀ x ∈ held, x ∈ held' ∨ (c.slabs x).usedCount = 0) (hsub : held' ⊆ held)
    (hheld : ∀ x, x ∈ held' ↔ (∃ i, x ∈ L' i) ∨ loose' x)
    (hloose : ∀ x, loose' x → loose x ∧ ∀ i, x ∉ L' i) : CacheBase m c' held' live loose' L' := by
  refine ⟨hl, ?_, ?_, hheld, fun x i hx => (hloose x hx).2 i, ?_, ?_⟩
  · intro x hx
    rw [hb.objSize]
    exact h.placed x (hsub hx)
  · intro x hx
    obtain ⟨l, hok⟩ := h.slab x (hsub hx)
    rw [hb.objSize]
    exact ⟨l, hok.congr (hb.slabs x) rfl fun _ _ => rfl⟩
  · intro x hx
    rw [hb.usedCount x]
    exact h.loose_unused x (hloose x hx).1
  · intro o ho
    rw [hb.objSize]
    exact (hkept _ (h.live_held o ho)).resolve_right (h.used_pos ho).ne'

lemma CacheBase.move (hij : i ≠ j) (hs : s ∈ L i) :
    CacheBase m ((c.removeSlabFromList s i).addSlabToList s j) held live loose
      (moved L s i j) := by
  have hmem (x : Nat) : (∃ k, x ∈ moved L s i j k) ↔ ∃ k, x ∈ L k := by
    constructor
    · rintro ⟨k, hk⟩
      rw [mem_moved h.listed hij hs] at hk
      split at hk
      case isTrue hx => exact ⟨i, hx ▸ hs⟩
      · exact ⟨k, hk⟩
    · rintro ⟨k, hk⟩
      by_cases hx : x = s
      · exact ⟨j, (mem_moved h.listed hij hs).mpr (by simp [hx])⟩
      · exact ⟨k, (mem_moved h.listed hij hs).mpr (by simpa [hx] using hk)⟩
  refine h.relist (sameBodies_move c s i j) (h.listed.move hij hs) (fun x hx => .inl hx)
    (List.Subset.refl _) (fun x => ?_) (fun x hx => ⟨hx, fun k hk => ?_⟩)
  · rw [h.held_iff x, hmem x]
  · obtain ⟨k, hk⟩ := (hmem x).mp ⟨k, hk⟩
    exact h.loose_off x k hx hk

end

section
variable (h : CountedBut c L s) (hl : Listed c L) (hs : s ∈ L i)
include h hl hs

lemma CountedBut.move (hij : i ≠ j) :
    CountedBut ((c.removeSlabFromList s i).addSlabToList s j) (moved L s i j) s := by
  have hb := sameBodies_move c s i j
  intro k x hx hne
  rw [mem_moved hl hij hs, if_neg hne] at hx
  rw [hb.objSize, hb.usedCount]
  exact h k x hx hne

lemma CountedBut.counted_move (hij : i ≠ j)
    (hcnt : InList (objectCount c.objSize) j (c.slabs s).usedCount) :
    Counted ((c.removeSlabFromList s i).addSlabToList s j) (moved L s i j) := by
  have hb := sameBodies_move c s i j
  intro k x hx
  by_cases hne : x = s
  · subst hne
    rw [mem_moved hl hij hs, if_pos rfl] at hx
    rwa [hb.objSize, hb.usedCount, hx]
  · exact h.move hl hs hij k x hx hne

lemma CountedBut.counted_stay (hcnt : InList (objectCount c.objSize) i (c.slabs s).usedCount) :
    Counted c L := by
  intro k x hx
  by_cases hne : x = s
  · subst hne
    have hk : k = i := by
      by_contra hki
      exact hl.disjoint k i hki x hx hs
    rwa [hk]
  · exact h k x hx hne

end

variable (h : CacheBase m c held live loose L)
include h

/-- The header, the objects and the live objects of one slab change; the other slabs do not. -/
lemma CacheBase.change {b : Slab}
    (hb : b.toLinks = (c.slabs s).toLinks) (hok : ∃ l, SlabOk m' c.objSize live' s b l)
    (hmem : ∀ t ∈ held, t ≠ s → ∀ x, t ≤ x → x < t + slabBytes c.objSize → m' x = m x)
    (hlive : ∀ t, t ≠ s → liveOf c.objSize live' t = liveOf c.objSize live t)
    (hheld : ∀ o ∈ live', slabOf c.objSize o ∈ held) (hg : Geometry c.objSize)
    (hloose : ¬ loose s) : CacheBase m' (c.setSlab s b) held live' loose L := by
  refine ⟨h.listed.setSlab hb, h.placed, ?_, h.held_iff, h.loose_off, ?_, hheld⟩
  · intro t ht
    by_cases hts : t = s
    · subst hts
      rwa [setSlab_slabs_self]
    obtain ⟨l, hok'⟩ := h.slab t ht
    rw [c.setSlab_slabs_of_ne b hts]
    refine ⟨l, hok'.congr rfl (hlive t hts) fun o ho => ?_⟩
    obtain ⟨hlo, hhi⟩ := object_bounds (hok'.mem_objects ho)
    have hlarge := hg.large
    apply read64_congr
    intro x hx hx'
    exact hmem t ht hts x (by omega) (by omega)
  · intro t ht
    have hts : t ≠ s := by
      rintro rfl
      exact hloose ht
    rw [c.setSlab_slabs_of_ne b hts]
    exact h.loose_unused t ht

lemma CacheBase.congr_mem (hg : Geometry c.objSize)
    (hmem : ∀ s ∈ held, ∀ o ∈ objects c.objSize s, o ∉ live → ∀ x, o ≤ x → x < o + 8 → m' x = m x) :
    CacheBase m' c held live loose L := by
  refine ⟨h.listed, h.placed, ?_, h.held_iff, h.loose_off, h.loose_unused, h.live_held⟩
  intro s hs
  obtain ⟨l, hok⟩ := h.slab s hs
  refine ⟨l, hok.congr rfl rfl fun o ho => ?_⟩
  apply read64_congr
  exact hmem s hs o (hok.mem_objects ho) (hok.not_live hg (h.placed s hs).2.1 ho)

lemma CacheBase.zero_not_live : 0 ∉ live :=
  fun h0 => object_ne_zero (h.live_object h0) rfl

end

lemma liveOf_cons_of_ne
    (ht : slabOf objSize o ≠ t) : liveOf objSize (o :: live) t = liveOf objSize live t := by
  simp [liveOf, ht]

lemma liveOf_cons_self
    (ht : slabOf objSize o = t) : liveOf objSize (o :: live) t = o :: liveOf objSize live t := by
  simp [liveOf, ht]

/-- Taking an object from a slab of the partial list with a free object left. -/
lemma takeObject_ok (hg : Geometry c.objSize) (h : CacheBase m c held live loose L)
    (hcnt : CountedBut c L s) (hs : s ∈ L .partly)
    (hused : (c.slabs s).usedCount < objectCount c.objSize) :
    ∃ o c' L', SlabCache.takeObject m c s = .ok (o, c') ∧ c'.objSize = c.objSize ∧
      o ∈ objects c.objSize s ∧ o ∉ live ∧ CacheBase m c' held (o :: live) loose L' ∧
      Counted c' L' := by
  have hheld : s ∈ held := (h.held_iff s).mpr (.inl ⟨_, hs⟩)
  have hloose : ¬ loose s := fun hl => h.loose_off s _ hl hs
  obtain ⟨hne, hdvd, hend⟩ := h.placed s hheld
  obtain ⟨l, hok⟩ := h.slab s hheld
  have hlen := hok.length_add
  have hcountLt := hg.count_lt
  cases l with
  | nil =>
    simp only [length_nil] at hlen
    omega
  | cons o l =>
    obtain ⟨hhead, hone, hchain⟩ := hok.chain
    have hobj := hok.mem_objects mem_cons_self
    have hnot := hok.not_live hg hdvd mem_cons_self
    obtain ⟨hlo, hhi⟩ := object_bounds hobj
    have hlarge := hg.large
    have hsend := slab_end hend
    have hguard : ¬ (o ≠ 0 ∧ (o < s ∨ s + slabBytes c.objSize ≤ o)) := by omega
    have hslabOf := slabOf_object hg hdvd hobj
    have htake := (c.slabs s).take_usedCount (m.read64 o) (by omega)
    have hok' : SlabOk m c.objSize (o :: live) s ((c.slabs s).take (m.read64 o)) l := by
      constructor
      · rw [take_dataPage, hok.dataPage]
      · rw [take_pageCount, hok.pageCount]
      · rw [take_totalCount, hok.totalCount]
      · rw [htake, liveOf_cons_self hslabOf, length_cons, ← hok.usedCount]
      · rwa [take_freeList]
      · rw [liveOf_cons_self hslabOf]
        exact perm_middle.trans hok.objects
    have hin : ∀ p ∈ o :: live, slabOf c.objSize p ∈ held := by
      intro p hp
      obtain rfl | hp := mem_cons.mp hp
      · rwa [hslabOf]
      · exact h.live_held p hp
    have hother : ∀ t, t ≠ s → liveOf c.objSize (o :: live) t = liveOf c.objSize live t := by
      intro t ht
      apply liveOf_cons_of_ne
      rw [hslabOf]
      exact Ne.symm ht
    have hlinks := (c.slabs s).take_toLinks (m.read64 o)
    have hbase := h.change hlinks ⟨l, hok'⟩ (fun _ _ _ _ _ _ => rfl) hother hin hg hloose
    have hcount' := hcnt.setSlab ((c.slabs s).take (m.read64 o))
    simp only [takeObject, hhead, hok.dataPage, hok.pageCount, hsend, if_neg hguard,
      if_neg hone, setSlab_slabs_self, take_freeList]
    simp only [length_cons] at hlen
    split
    case isTrue h0 =>
      have hl : l = [] := hchain.eq_nil h0
      refine ⟨_, _, _, rfl, (sameBodies_move _ s .partly .full).objSize, hobj, hnot,
        hbase.move (by decide) hs, hcount'.counted_move hbase.listed hs (by decide) ?_⟩
      rw [setSlab_slabs_self, htake]
      simp only [hl, length_nil] at hlen
      show (c.slabs s).usedCount + 1 = objectCount c.objSize
      omega
    case isFalse hnonzero =>
      have hpos : 0 < l.length := length_pos_of_ne_nil (hchain.ne_nil hnonzero)
      refine ⟨_, _, _, rfl, rfl, hobj, hnot, hbase, hcount'.counted_stay hbase.listed hs ?_⟩
      rw [setSlab_slabs_self, htake]
      show 0 < (c.slabs s).usedCount + 1 ∧ (c.slabs s).usedCount + 1 < objectCount c.objSize
      omega

/-- The cache between two sections. -/
structure CacheInv (m : Mem) (c : SlabCache) (held live : List Nat) (loose : Nat → Prop)
    (L : SlabList → List Nat) : Prop extends CacheBase m c held live loose L where
  counted : Counted c L

lemma cacheInv_init (m : Mem) (size : Nat) :
    CacheInv m (SlabCache.init size) [] [] (fun _ => False) (fun _ => []) where
  listed := ⟨fun _ => rfl, by simp⟩
  placed := by simp
  slab := by simp
  held_iff := by simp
  loose_off := by simp
  loose_unused := by simp
  live_held := by simp
  counted := by simp [Counted]

lemma CacheInv.perm_live {loose : Nat → Prop} (h : CacheInv m c held live loose L)
    (hperm : live.Perm live') : CacheInv m c held live' loose L := by
  have hof : ∀ s, (liveOf c.objSize live s).Perm (liveOf c.objSize live' s) := fun s =>
    hperm.filter _
  refine ⟨⟨h.listed, h.placed, fun s hs => ?_, h.held_iff, h.loose_off, h.loose_unused,
    fun o ho => h.live_held o (hperm.mem_iff.mpr ho)⟩, h.counted⟩
  obtain ⟨l, hok⟩ := h.slab s hs
  exact ⟨l, hok.dataPage, hok.pageCount, hok.totalCount, hok.usedCount.trans (hof s).length_eq,
    hok.chain, ((hof s).symm.append_left l).trans hok.objects⟩

/-- An object that was not live has been taken from the cache `c`, which is now `c'`. -/
structure Taken (m : Mem) (c : SlabCache) (held live : List Nat) (loose : Nat → Prop)
    (o : Nat) (c' : SlabCache) : Prop where
  objSize : c'.objSize = c.objSize
  ne_zero : o ≠ 0
  fresh : o ∉ live
  inv : ∃ L, CacheInv m c' held (o :: live) loose L

lemma takeObject_taken (hg : Geometry c.objSize) (h : CacheBase m c held live loose L)
    (hcnt : CountedBut c L s) (hs : s ∈ L .partly)
    (hused : (c.slabs s).usedCount < objectCount c.objSize) :
    ∃ o c', SlabCache.takeObject m c s = .ok (o, c') ∧ Taken m c held live loose o c' := by
  obtain ⟨o, c', L', htake, hsz, hobj, hfresh, hbase, hcounted⟩ :=
    takeObject_ok hg h hcnt hs hused
  exact ⟨o, c', htake, hsz, object_ne_zero hobj, hfresh, L', hbase, hcounted⟩

lemma Counted.but (h : Counted c L) (s : Nat) : CountedBut c L s := fun i t ht _ => h i t ht

section
variable (hg : Geometry c.objSize) (h : CacheInv m c held live loose L)
include hg h

lemma CacheInv.take_partly (hne : c.head .partly ≠ 0) :
    ∃ o c', SlabCache.takeObject m c (c.head .partly) = .ok (o, c') ∧
      Taken m c held live loose o c' := by
  obtain ⟨rest, hrest⟩ := (h.listed.linked .partly).eq_cons hne
  have hs : c.head .partly ∈ L .partly := by simp [hrest]
  exact takeObject_taken hg h.toCacheBase (h.counted.but _) hs (h.counted .partly _ hs).2

/-- The first section of `alloc` takes a free object or finds none in the cache. -/
lemma allocCached_taken :
    SlabCache.allocCached m c = .ok none ∨
      ∃ o c', SlabCache.allocCached m c = .ok (some (o, c')) ∧
        Taken m c held live loose o c' := by
  unfold allocCached
  split
  case isTrue hne =>
    obtain ⟨o, c', htake, htaken⟩ := h.take_partly hg hne
    exact .inr ⟨o, c', congrArg (Except.map some) htake, htaken⟩
  · split
    case isTrue hne =>
      obtain ⟨rest, hrest⟩ := (h.listed.linked .empty).eq_cons hne
      have hs : c.head .empty ∈ L .empty := by simp [hrest]
      have hb := sameBodies_move c (c.head .empty) .empty .partly
      have h0 : (c.slabs (c.head .empty)).usedCount = 0 := h.counted .empty _ hs
      have hmoved := h.toCacheBase.move (j := .partly) (by decide) hs
      obtain ⟨o, c', htake, htaken⟩ := takeObject_taken (hb.objSize ▸ hg) hmoved
        ((h.counted.but _).move h.listed hs (by decide))
        ((mem_moved h.listed (by decide) hs).mpr (by simp))
        (by rw [hb.usedCount, hb.objSize, h0]; exact hg.count_pos)
      exact .inr ⟨o, c', congrArg (Except.map some) htake, htaken.objSize.trans hb.objSize,
        htaken.ne_zero, htaken.fresh, htaken.inv⟩
    · exact .inl rfl

end

lemma CacheInv.discard (h : CacheInv m c held live loose L) (hns : loose ns) :
    CacheInv m c (held.filter fun x => x ≠ ns) live (fun x => loose x ∧ x ≠ ns) L := by
  have hsub : ∀ x, x ∈ held.filter (fun x => x ≠ ns) ↔ x ∈ held ∧ x ≠ ns := by simp
  refine ⟨h.relist ⟨rfl, fun _ => rfl⟩ h.listed (fun x hx => ?_) (filter_subset_self _)
    (fun x => ?_) fun x hx => ⟨hx.1, fun i => h.loose_off x i hx.1⟩, h.counted⟩
  · by_cases hxn : x = ns
    · exact .inr (hxn ▸ h.loose_unused ns hns)
    · exact .inl ((hsub x).mpr ⟨hx, hxn⟩)
  · rw [hsub, h.held_iff]
    constructor
    · rintro ⟨hin | hl, hne⟩
      · exact .inl hin
      · exact .inr ⟨hl, hne⟩
    · rintro (⟨i, hi⟩ | ⟨hl, hne⟩)
      · refine ⟨.inl ⟨i, hi⟩, ?_⟩
        rintro rfl
        exact h.loose_off x i hns hi
      · exact ⟨.inr hl, hne⟩

lemma mem_adopted (L : SlabList → List Nat) :
    x ∈ update L .partly (ns :: L .partly) i ↔ x = ns ∧ i = .partly ∨ x ∈ L i := by
  by_cases hi : i = .partly
  · subst hi
    simp
  · simp [hi]

lemma CacheBase.adopt (h : CacheBase m c held live loose L) (hns : loose ns) :
    CacheBase m (c.addSlabToList ns .partly) held live (fun x => loose x ∧ x ≠ ns)
      (update L .partly (ns :: L .partly)) := by
  have hheld : ns ∈ held := (h.held_iff ns).mpr (.inr hns)
  refine h.relist (sameBodies_add c ns .partly)
    (h.listed.add (h.placed ns hheld).1 fun i => h.loose_off ns i hns) (fun x hx => .inl hx)
    (List.Subset.refl _) (fun x => ?_) (fun x hx => ⟨hx.1, fun i hxi => ?_⟩)
  · rw [h.held_iff x]
    constructor
    · rintro (⟨i, hi⟩ | hl)
      · exact .inl ⟨i, (mem_adopted L).mpr (.inr hi)⟩
      · by_cases hx : x = ns
        · exact .inl ⟨.partly, by simp [hx]⟩
        · exact .inr ⟨hl, hx⟩
    · rintro (⟨i, hi⟩ | hl)
      · obtain ⟨rfl, -⟩ | hi := (mem_adopted L).mp hi
        · exact .inr hns
        · exact .inl ⟨i, hi⟩
      · exact .inr hl.1
  · exact h.loose_off x i hx.1 (((mem_adopted L).mp hxi).resolve_left fun heq => hx.2 heq.1)

/-- The second section of `alloc` with a new slab takes a free object; the slab is in the
cache afterwards or has been given back. -/
lemma allocCreated_taken (hg : Geometry c.objSize) (h : CacheInv m c held live loose L)
    (hns : loose ns) :
    ∃ o c', SlabCache.allocCreated m c ns = .ok (o, c') ∧
      Taken m c (if c.head .partly ≠ 0 then held.filter fun x => x ≠ ns else held) live
        (fun x => loose x ∧ x ≠ ns) o c' := by
  have hne : ns ≠ 0 := (h.placed ns ((h.held_iff ns).mpr (.inr hns))).1
  rw [allocCreated, if_neg hne]
  split_ifs with hpartly
  · exact (h.discard hns).take_partly hg hpartly
  · have hb := sameBodies_add c ns .partly
    have hcnt : CountedBut (c.addSlabToList ns .partly)
        (update L .partly (ns :: L .partly)) ns := by
      intro i x hx hxne
      rw [hb.objSize, hb.usedCount]
      exact h.counted i x (((mem_adopted L).mp hx).resolve_left fun heq => hxne heq.1)
    obtain ⟨o, c', htake, htaken⟩ := takeObject_taken (hb.objSize ▸ hg)
      (h.toCacheBase.adopt hns) hcnt (by simp)
      (by rw [hb.usedCount, hb.objSize, h.loose_unused ns hns]; exact hg.count_pos)
    exact ⟨o, c', htake, htaken.objSize.trans hb.objSize, htaken.ne_zero, htaken.fresh, htaken.inv⟩

lemma liveOf_erase_of_ne (ht : slabOf objSize o ≠ t) :
    liveOf objSize (live.erase o) t = liveOf objSize live t := by
  induction live with
  | nil => rfl
  | cons p live ih =>
    by_cases hp : p = o
    · subst hp
      rw [erase_cons_head, liveOf_cons_of_ne ht]
    · rw [erase_cons_tail (by simpa using hp)]
      simp only [liveOf, filter_cons] at ih ⊢
      rw [ih]

/-- The slab of an object that is put back on its free list. -/
lemma SlabOk.put (hg : Geometry objSize) (hs : slabBytes objSize ∣ s)
    (hend : s + slabBytes objSize < 2 ^ 64) (h : SlabOk m objSize live s b l) (ho : o ∈ live)
    (hslab : slabOf objSize o = s) :
    SlabOk (m.write64 o b.freeList) objSize (live.erase o) s (b.put o) (o :: l) := by
  have hobj := h.live_mem_objects ho hslab
  have hlarge := hg.large
  have hcountLt := hg.count_lt
  have hlen := h.length_add
  have hperm : (liveOf objSize live s).Perm (o :: liveOf objSize (live.erase o) s) := by
    rw [← liveOf_cons_self hslab]
    exact (perm_cons_erase ho).filter _
  have hused := h.usedCount
  rw [hperm.length_eq, length_cons] at hused
  have hword : b.freeList < 2 ^ 64 := by
    cases l with
    | nil =>
      have h0 : b.freeList = 0 := h.chain
      rw [h0]
      decide
    | cons p l =>
      obtain ⟨hhead, -⟩ := h.chain
      have hbd := object_bounds (h.mem_objects mem_cons_self)
      omega
  constructor
  · rw [put_dataPage, h.dataPage]
  · rw [put_pageCount, h.pageCount]
  · rw [put_totalCount, h.totalCount]
  · rw [put_usedCount _ _ (by omega) (by omega)]
    omega
  · rw [put_freeList]
    refine ⟨rfl, object_ne_zero hobj, ?_⟩
    rw [read64_write64 hword]
    apply h.chain.congr
    intro p hp
    have hpo : p ≠ o := by
      rintro rfl
      exact h.not_live hg hs hp ho
    apply (sameOutside_write64 m o b.freeList).read64
    have hapart := objects_apart hs hs (h.mem_objects hp) hobj hpo
    omega
  · have hmiddle : (o :: l ++ liveOf objSize (live.erase o) s).Perm
        (l ++ o :: liveOf objSize (live.erase o) s) := perm_middle.symm
    exact hmiddle.trans ((hperm.symm.append_left l).trans h.objects)

/-- The end of `free`: a partial slab without live objects goes to the empty list. -/
lemma CacheBase.settle (h : CacheBase m c held live loose L) (hcnt : CountedBut c L s)
    (hs : s ∈ L .partly) (hused : (c.slabs s).usedCount < objectCount c.objSize) :
    ∃ L', (if (c.slabs s).usedCount = 0 then
          (c.removeSlabFromList s .partly).addSlabToList s .empty else c).objSize = c.objSize ∧
      CacheInv m (if (c.slabs s).usedCount = 0 then
          (c.removeSlabFromList s .partly).addSlabToList s .empty else c) held live loose L' := by
  split
  case isTrue h0 =>
    exact ⟨_, (sameBodies_move c s .partly .empty).objSize, h.move (by decide) hs,
      hcnt.counted_move h.listed hs (by decide) h0⟩
  case isFalse hne =>
    exact ⟨L, rfl, h, hcnt.counted_stay h.listed hs ⟨pos_of_ne_zero hne, hused⟩⟩

/-- Freeing a live object puts it back into its slab. -/
lemma free_ok (hg : Geometry c.objSize) (h : CacheInv m c held live loose L) (ho : o ∈ live) :
    ∃ c' L', SlabCache.free m c o =
        (true, m.write64 o (c.slabs (slabOf c.objSize o)).freeList, c') ∧
      c'.objSize = c.objSize ∧
      CacheInv (m.write64 o (c.slabs (slabOf c.objSize o)).freeList) c' held (live.erase o)
        loose L' := by
  obtain ⟨s, hslab⟩ : ∃ s, slabOf c.objSize o = s := ⟨_, rfl⟩
  have hobj := h.live_object ho
  have hheld := h.live_held o ho
  have hpos := h.used_pos ho
  rw [hslab] at hobj hheld hpos ⊢
  obtain ⟨hne, hdvd, hend⟩ := h.placed s hheld
  obtain ⟨l, hok⟩ := h.slab s hheld
  obtain ⟨hlo, hhi⟩ := object_bounds hobj
  have hlarge := hg.large
  have hcountLt := hg.count_lt
  have hlen := hok.length_add
  have hput := (c.slabs s).put_usedCount o hpos (by omega)
  have hloose : ¬ loose s := by
    intro hl
    rw [h.loose_unused s hl] at hpos
    exact absurd hpos (lt_irrefl 0)
  have hmem : ∀ t ∈ held, t ≠ s → ∀ x, t ≤ x → x < t + slabBytes c.objSize →
      (m.write64 o (c.slabs s).freeList) x = m x := by
    intro t ht hts x hx hx'
    have hapart := slabs_apart (h.placed t ht).2.1 hdvd hts
    apply sameOutside_write64
    omega
  have hbase := h.toCacheBase.change ((c.slabs s).put_toLinks o)
    ⟨_, hok.put hg hdvd hend ho hslab⟩ hmem
    (fun t ht => liveOf_erase_of_ne (hslab ▸ Ne.symm ht))
    (fun p hp => h.live_held p (mem_of_mem_erase hp)) hg hloose
  have hcnt := (h.counted.but s).setSlab ((c.slabs s).put o)
  have hmask : o &&& Word.compl (Word.sub (slabBytes c.objSize) 1) = s :=
    (mask_eq_slabOf (by omega)).trans hslab
  have hguard : ¬ (slabPages c.objSize ≠ slabPages c.objSize ∨ objectCount c.objSize = 0) := by
    have := hg.count_pos
    omega
  simp only [free, if_neg (object_ne_zero hobj), hmask, hok.pageCount, hok.totalCount,
    if_neg hguard]
  obtain ⟨i, hi⟩ := ((h.held_iff s).mp hheld).resolve_right hloose
  have hin := h.counted i s hi
  cases i with
  | partly =>
    have hnotFull : ¬ (c.slabs s).usedCount = objectCount c.objSize := hin.2.ne
    rw [if_neg hnotFull]
    obtain ⟨L', hsz, hI⟩ := hbase.settle hcnt hi (by
      rw [setSlab_slabs_self, hput]
      exact (sub_le _ _).trans_lt hin.2)
    exact ⟨_, L', rfl, hsz, hI⟩
  | full =>
    have hfull : (c.slabs s).usedCount = objectCount c.objSize := hin
    have hb := sameBodies_move (c.setSlab s ((c.slabs s).put o)) s .full .partly
    have hij : SlabList.full ≠ .partly := by decide
    rw [if_pos hfull]
    obtain ⟨L', hsz, hI⟩ := (hbase.move hij hi).settle (hcnt.move hbase.listed hi hij)
      ((mem_moved hbase.listed hij hi).mpr (by simp)) (by
        rw [hb.usedCount, hb.objSize, setSlab_slabs_self, hput]
        show (c.slabs s).usedCount - 1 < objectCount c.objSize
        omega)
    exact ⟨_, L', rfl, hsz.trans hb.objSize, hI⟩
  | empty =>
    rw [show (c.slabs s).usedCount = 0 from hin] at hpos
    exact absurd hpos (lt_irrefl 0)

/-- One round of `trim`: the first empty slab leaves the cache. -/
lemma CacheInv.drop (h : CacheInv m c held live loose L) (hempty : L .empty = s :: rest) :
    CacheInv m (c.removeSlabFromList s .empty) (held.filter fun x => x ≠ s) live loose
      (update L .empty rest) := by
  have hs : s ∈ L .empty := by simp [hempty]
  have hb := sameBodies_remove c s .empty
  have hsub : ∀ x, x ∈ held.filter (fun x => x ≠ s) ↔ x ∈ held ∧ x ≠ s := by simp
  have hlisted : Listed (c.removeSlabFromList s .empty) (update L .empty rest) :=
    h.listed.remove (hempty.trans (nil_append _).symm)
  have hnodup := (h.listed.linked .empty).nodup
  rw [hempty] at hnodup
  have hmem : ∀ x i, x ∈ update L .empty rest i ↔ x ∈ L i ∧ x ≠ s := by
    intro x i
    rw [update_apply]
    split_ifs with hi
    · subst hi
      rw [hempty]
      constructor
      · intro hx
        refine ⟨mem_cons_of_mem s hx, ?_⟩
        rintro rfl
        exact (nodup_cons.mp hnodup).1 hx
      · rintro ⟨hx, hne⟩
        exact (mem_cons.mp hx).resolve_left hne
    · constructor
      · intro hx
        refine ⟨hx, ?_⟩
        rintro rfl
        exact h.listed.disjoint i .empty hi x hx hs
      · exact fun hx => hx.1
  refine ⟨h.relist hb hlisted (fun x hx => ?_) (filter_subset_self _) (fun x => ?_)
    fun x hx => ⟨hx, fun i hxi => h.loose_off x i hx ((hmem x i).mp hxi).1⟩, fun i x hx => ?_⟩
  · by_cases hxs : x = s
    · exact .inr (hxs ▸ h.counted .empty s hs)
    · exact .inl ((hsub x).mpr ⟨hx, hxs⟩)
  · rw [hsub, h.held_iff]
    constructor
    · rintro ⟨⟨i, hi⟩ | hl, hne⟩
      · exact .inl ⟨i, (hmem x i).mpr ⟨hi, hne⟩⟩
      · exact .inr hl
    rintro (⟨i, hi⟩ | hl)
    · obtain ⟨hx, hne⟩ := (hmem x i).mp hi
      exact ⟨.inl ⟨i, hx⟩, hne⟩
    · refine ⟨.inr hl, ?_⟩
      rintro rfl
      exact h.loose_off x .empty hl hs
  · rw [hb.objSize, hb.usedCount]
    exact h.counted i x ((hmem x i).mp hx).1

/-- The loop of `trim` visits every empty slab. -/
lemma trimLoop_ok (n : Nat) (h : CacheInv m c held live loose L) (hn : (L .empty).length ≤ n) :
    (SlabCache.trimLoop n c held (c.head .empty)).1.objSize = c.objSize ∧
      CacheInv m (SlabCache.trimLoop n c held (c.head .empty)).1
        (SlabCache.trimLoop n c held (c.head .empty)).2 live loose
        (update L .empty []) := by
  induction n generalizing c held L with
  | zero =>
    have hempty : L .empty = [] := eq_nil_of_length_eq_zero (by omega)
    rw [← hempty, update_eq_self]
    exact ⟨rfl, h⟩
  | succ n ih =>
    have hlinked := h.listed.linked .empty
    by_cases hhead : c.head .empty = 0
    · rw [trimLoop, if_pos hhead, ← hlinked.eq_nil hhead, update_eq_self]
      exact ⟨rfl, h⟩
    obtain ⟨rest, hrest⟩ := hlinked.eq_cons hhead
    have hdrop := h.drop hrest
    have hnext : (c.removeSlabFromList (c.head .empty) .empty).head .empty =
        (c.slabs (c.head .empty)).next := by
      rw [hrest] at hlinked
      obtain ⟨-, -, hprev, -⟩ := hlinked
      rw [removeSlabFromList_eq]
      simp only [Links.unlink, hprev, update_self, if_true]
      rfl
    have hlen : ((update L .empty rest) .empty).length ≤ n := by
      rw [update_self]
      simpa [hrest] using hn
    have hrec := ih hdrop hlen
    rw [hnext, update_idem] at hrec
    simp only [trimLoop, if_neg hhead]
    exact ⟨hrec.1.trans (sameBodies_remove c _ .empty).objSize, hrec.2⟩

lemma CacheBase.length_le (h : CacheBase m c held live loose L) (i : SlabList) :
    (L i).length ≤ maxSlabs := by
  have hpage : ∀ s ∈ L i, 2 ^ 12 ∣ s ∧ s < 2 ^ 64 := by
    intro s hs
    obtain ⟨-, hdvd, hend⟩ := h.placed s ((h.held_iff s).mpr (.inl ⟨i, hs⟩))
    exact ⟨(page_dvd_slabBytes c.objSize).trans hdvd, by omega⟩
  have hnodup : ((L i).map fun s => s / 2 ^ 12).Nodup := by
    apply List.Nodup.map_on _ (h.listed.linked i).nodup
    intro s hs t ht heq
    have := (hpage s hs).1
    have := (hpage t ht).1
    omega
  have hsub : ((L i).map fun s => s / 2 ^ 12).toFinset ⊆ Finset.range maxSlabs := by
    intro x hx
    obtain ⟨s, hs, rfl⟩ := mem_map.mp (mem_toFinset.mp hx)
    have := (hpage s hs).2
    rw [Finset.mem_range]
    unfold maxSlabs
    omega
  have hcard := Finset.card_le_card hsub
  rwa [toFinset_card_of_nodup hnodup, length_map, Finset.card_range] at hcard

/-- `trim` gives every empty slab back to the arena. -/
lemma trim_ok (h : CacheInv m c held live loose L) :
    (c.trim held).1.objSize = c.objSize ∧
      CacheInv m (c.trim held).1 (c.trim held).2 live loose (update L .empty []) :=
  trimLoop_ok maxSlabs h (h.length_le .empty)

section
/-- The links of a new slab run through its objects in order. -/
lemma threadObjects_ok (hsz : 8 ≤ objSize) (n : Nat) (hptr : ptr ≠ 0)
    (hend : ptr + (n + 1) * objSize < 2 ^ 64) :
    Mem.SameOutside ptr ((n + 1) * objSize) m (threadObjects objSize m ptr n) ∧
      Chain (threadObjects objSize m ptr n).read64 ptr
        ((List.range (n + 1)).map fun i => ptr + i * objSize) := by
  induction n generalizing m ptr with
  | zero =>
    refine ⟨(sameOutside_write64 m ptr 0).mono le_rfl (by omega), ?_⟩
    have hrange : (List.range (0 + 1)).map (fun i => ptr + i * objSize) = [ptr] := by simp
    rw [hrange, threadObjects]
    exact ⟨rfl, hptr, read64_write64 (by decide)⟩
  | succ n ih =>
    have hmul : (n + 1 + 1) * objSize = objSize + (n + 1) * objSize := by
      rw [succ_mul, add_comm]
    rw [hmul] at hend ⊢
    have hnext : Word.add ptr objSize = ptr + objSize := add_eq (by omega)
    obtain ⟨hsame, hchain⟩ := ih (m := m.write64 ptr (ptr + objSize))
      (by omega : ptr + objSize ≠ 0) (by omega)
    simp only [threadObjects, hnext]
    constructor
    · exact ((sameOutside_write64 m ptr (ptr + objSize)).mono le_rfl (by omega)).trans
        (hsame.mono (by omega) (by omega))
    have hread : (threadObjects objSize (m.write64 ptr (ptr + objSize)) (ptr + objSize)
        n).read64 ptr = ptr + objSize := by
      rw [hsame.read64 (by omega), read64_write64 (by omega)]
    rw [range_succ_eq_map, map_cons, map_map, zero_mul, add_zero]
    refine ⟨rfl, hptr, ?_⟩
    rw [hread]
    have hshift : ((fun i => ptr + i * objSize) ∘ Nat.succ) =
        fun i => ptr + objSize + i * objSize := by
      funext i
      simp only [comp_apply, succ_mul]
      omega
    rwa [hshift]

variable {page : Nat}

lemma firstObject_eq (hdvd : slabBytes objSize ∣ page) (hend : page + slabBytes objSize < 2 ^ 64) :
    Word.alignUp (Word.add page slabHeaderBytes) 16 = page + slabHeaderBytes := by
  have hge := slabBytes_ge objSize
  have hpage : 2 ^ 12 ∣ page := (page_dvd_slabBytes objSize).trans hdvd
  rw [slabHeaderBytes, add_eq (by omega)]
  have halign : Word.alignUp (page + 48) 16 = (page + 48 + 15) / 16 * 16 :=
    alignUp_two_pow (k := 4) (by omega)
  omega

section
variable (hg : Geometry c.objSize) (hdvd : slabBytes c.objSize ∣ page)
  (hend : page + slabBytes c.objSize < 2 ^ 64)
include hg hdvd hend

/-- `createSlab` on a fresh range: a slab with all its objects on the free list. -/
lemma createSlab_eq :
    SlabCache.createSlab m c page =
      (threadObjects c.objSize (m.fill page (slabBytes c.objSize) 0) (page + slabHeaderBytes)
          (objectCount c.objSize - 1),
        c.setSlab page ⟨⟨0, 0⟩, page + slabHeaderBytes, 0, objectCount c.objSize, page,
          slabPages c.objSize⟩) := by
  have hge := slabBytes_ge c.objSize
  have havail : Word.sub (slabBytes c.objSize) (Word.sub (page + slabHeaderBytes) page) =
      slabBytes c.objSize - slabHeaderBytes := by
    have hinner : Word.sub (page + slabHeaderBytes) page = slabHeaderBytes := by
      rw [slabHeaderBytes, sub_eq (by omega) (by omega), Nat.add_sub_cancel_left]
    rw [hinner]
    unfold slabHeaderBytes
    exact sub_eq (by omega) (by omega)
  have htot : (slabBytes c.objSize - slabHeaderBytes) / c.objSize % 2 ^ 16 =
      objectCount c.objSize := mod_eq_of_lt hg.count_lt
  simp only [createSlab, firstObject_eq hdvd hend, havail, htot]

/-- A fresh range becomes a slab of the cache that is in no list yet. -/
lemma createSlab_ok (h : CacheInv m c held live loose L) (hne : page ≠ 0) (hnew : page ∉ held) :
    (SlabCache.createSlab m c page).2.objSize = c.objSize ∧
      Mem.SameOutside page (slabBytes c.objSize) m (SlabCache.createSlab m c page).1 ∧
      CacheInv (SlabCache.createSlab m c page).1 (SlabCache.createSlab m c page).2 (page :: held)
        live (fun x => loose x ∨ x = page) L := by
  rw [createSlab_eq hg hdvd hend]
  have hge := slabBytes_ge c.objSize
  have hlarge := hg.large
  have hpos := hg.count_pos
  have hcnt : objectCount c.objSize - 1 + 1 = objectCount c.objSize := by omega
  have hfit : objectCount c.objSize * c.objSize ≤ slabBytes c.objSize - slabHeaderBytes :=
    objectCount_mul_le
  have hhead : slabHeaderBytes ≤ slabBytes c.objSize := (by decide : 48 ≤ 2 ^ 12).trans hge
  obtain ⟨hsame, hchain⟩ := threadObjects_ok (by omega : 8 ≤ c.objSize)
    (objectCount c.objSize - 1) (m := m.fill page (slabBytes c.objSize) 0)
    (by omega : page + slabHeaderBytes ≠ 0) (by rw [hcnt]; omega)
  rw [hcnt] at hsame hchain
  have hsame' := (sameOutside_fill m page (slabBytes c.objSize) 0).trans
    (hsame.mono (by omega) (by omega))
  have hoff : ∀ i, page ∉ L i := fun i hi => hnew ((h.held_iff page).mpr (.inl ⟨i, hi⟩))
  have hloose : ¬ loose page := fun hl => hnew ((h.held_iff page).mpr (.inr hl))
  have hnone : liveOf c.objSize live page = [] := by
    apply filter_eq_nil_iff.mpr
    intro o ho heq
    exact hnew (of_decide_eq_true heq ▸ h.live_held o ho)
  refine ⟨rfl, hsame', ⟨h.listed.setSlab_off hoff, ?_, ?_, ?_, ?_, ?_, ?_⟩, ?_⟩
  · intro s hs
    obtain rfl | hs := mem_cons.mp hs
    · exact ⟨hne, hdvd, hend⟩
    · exact h.placed s hs
  · intro s hs
    obtain rfl | hs := mem_cons.mp hs
    · rw [setSlab_slabs_self]
      refine ⟨objects c.objSize s, rfl, rfl, rfl, ?_, hchain, ?_⟩
      · show 0 = (liveOf c.objSize live s).length
        rw [hnone]
        rfl
      · show (objects c.objSize s ++ liveOf c.objSize live s).Perm (objects c.objSize s)
        rw [hnone, append_nil]
    · have hsp : s ≠ page := fun heq => hnew (heq ▸ hs)
      obtain ⟨l, hok⟩ := h.slab s hs
      rw [setSlab_slabs_of_ne _ _ hsp]
      refine ⟨l, hok.congr rfl rfl fun o ho => hsame'.read64 ?_⟩
      obtain ⟨hlo, hhi⟩ := object_bounds (hok.mem_objects ho)
      have hapart := slabs_apart (h.placed s hs).2.1 hdvd hsp
      omega
  · intro s
    rw [mem_cons, h.held_iff]
    tauto
  · rintro s i (hl | rfl)
    · exact h.loose_off s i hl
    · exact hoff i
  · rintro s (hl | rfl)
    · have hsp : s ≠ page := by
        rintro rfl
        exact hloose hl
      rw [setSlab_slabs_of_ne _ _ hsp]
      exact h.loose_unused s hl
    · rw [setSlab_slabs_self]
  · intro o ho
    exact mem_cons_of_mem page (h.live_held o ho)
  · intro i s hs
    have hsp : s ≠ page := by
      rintro rfl
      exact hoff i hs
    rw [setSlab_slabs_of_ne _ _ hsp]
    exact h.counted i s hs

end

end

end Singularity.KernelHeap
