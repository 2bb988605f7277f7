import Singularity.Foundation.LinkedList
import Singularity.Foundation.Memory
import Singularity.KernelHeap.VmArena

/-!
# The slab cache of a bucket

A slab is one or two pages that start with a header and hold objects of one size behind it. Free
objects form a list through their first words. The headers are kept apart from the bytes of the
objects, by the address of the slab. `SlabList` names the heads of the three doubly linked lists
of slabs.

`alloc` takes the lock twice: `allocCached` is its first section, and when that finds no slab,
`createSlab` runs without the lock and `allocCreated` is the second section.
-/

namespace Singularity.KernelHeap

open Foundation Function List

def heapHeaderSize : Nat := 16
def heapFooterSize : Nat := 8
def slabSmallPages : Nat := 1
def slabLargePages : Nat := 2

/-- `sizeof(Slab)`. -/
def slabHeaderBytes : Nat := 48

def bucketSizes : List Nat := [32, 64, 128, 256, 512, 1024, 2048, 4096]

/-- The header at the start of a slab. -/
structure Slab extends Links where
  freeList : Nat
  usedCount : Nat
  totalCount : Nat
  dataPage : Nat
  pageCount : Nat
  deriving DecidableEq

/-- The header after its first free object was taken; `next` is the one behind it. -/
def Slab.take (b : Slab) (next : Nat) : Slab :=
  { b with freeList := next, usedCount := (b.usedCount + 1) % 2 ^ 16 }

/-- The header after an object was put on the free list. -/
def Slab.put (b : Slab) (ptr : Nat) : Slab :=
  { b with freeList := ptr, usedCount := (b.usedCount + 2 ^ 16 - 1) % 2 ^ 16 }

/-- The list heads of a cache. -/
inductive SlabList where
  | partly
  | full
  | empty
  deriving DecidableEq

structure SlabCache where
  objSize : Nat
  head : SlabList → Nat
  slabs : Nat → Slab

/-- A read through a null `free_list`. -/
inductive SlabFault where
  | nullDereference
  deriving DecidableEq

/-- Room for header and footer, rounded up to 16 bytes. -/
def objSizeOf (size : Nat) : Nat :=
  Word.alignUp (Word.add (Word.add size heapHeaderSize) heapFooterSize) 16

def slabPages (objSize : Nat) : Nat := if 2048 < objSize then slabLargePages else slabSmallPages

def slabBytes (objSize : Nat) : Nat := slabPages objSize * pageSize

/-- No more slabs than pages fit into the address space. -/
def maxSlabs : Nat := 2 ^ 52

/-- Link the objects of a new slab; `n` objects follow the one at `ptr`. -/
def threadObjects (objSize : Nat) : Mem → Nat → Nat → Mem
  | m, ptr, 0 => m.write64 ptr 0
  | m, ptr, n + 1 =>
    threadObjects objSize (m.write64 ptr (Word.add ptr objSize)) (Word.add ptr objSize) n

namespace SlabCache

def init (size : Nat) : SlabCache :=
  ⟨objSizeOf size, fun _ => 0, fun _ => ⟨⟨0, 0⟩, 0, 0, 0, 0, 0⟩⟩

def setSlab (c : SlabCache) (s : Nat) (slab : Slab) : SlabCache :=
  { c with slabs := update c.slabs s slab }

def removeSlabFromList (c : SlabCache) (s : Nat) (h : SlabList) : SlabCache :=
  let prev := (c.slabs s).prev
  let next := (c.slabs s).next
  let c :=
    if prev = 0 then { c with head := update c.head h next }
    else c.setSlab prev { c.slabs prev with next := next }
  let c := if next = 0 then c else c.setSlab next { c.slabs next with prev := prev }
  c.setSlab s { c.slabs s with next := 0, prev := 0 }

def addSlabToList (c : SlabCache) (s : Nat) (h : SlabList) : SlabCache :=
  let old := c.head h
  let c := c.setSlab s { c.slabs s with next := old, prev := 0 }
  let c := if old = 0 then c else c.setSlab old { c.slabs old with prev := s }
  { c with head := update c.head h s }

/-- Write the header of a slab on fresh zeroed pages and link its objects. -/
def createSlab (m : Mem) (c : SlabCache) (page : Nat) : Mem × SlabCache :=
  let ds := Word.alignUp (Word.add page slabHeaderBytes) 16
  let avail := Word.sub (slabBytes c.objSize) (Word.sub ds page)
  let total := avail / c.objSize % 2 ^ 16
  (threadObjects c.objSize (m.fill page (slabBytes c.objSize) 0) ds (total - 1),
    c.setSlab page ⟨⟨0, 0⟩, ds, 0, total, page, slabPages c.objSize⟩)

/-- The common end of both sections of `alloc`: take the first free object of a slab. -/
def takeObject (m : Mem) (c : SlabCache) (slab : Nat) : Except SlabFault (Nat × SlabCache) :=
  let s := c.slabs slab
  let obj := s.freeList
  let send := Word.add s.dataPage (Word.mul s.pageCount pageSize)
  if obj ≠ 0 ∧ (obj < s.dataPage ∨ send ≤ obj) then .ok (0, c)
  else if obj = 0 then .error .nullDereference
  else
    let c := c.setSlab slab (s.take (m.read64 obj))
    if (c.slabs slab).freeList = 0 then
      .ok (obj, (c.removeSlabFromList slab .partly).addSlabToList slab .full)
    else .ok (obj, c)

/-- `alloc` up to the point where the lock is dropped; no result if a slab is missing. -/
def allocCached (m : Mem) (c : SlabCache) : Except SlabFault (Option (Nat × SlabCache)) :=
  if c.head .partly ≠ 0 then (takeObject m c (c.head .partly)).map some
  else if c.head .empty ≠ 0 then
    let slab := c.head .empty
    (takeObject m ((c.removeSlabFromList slab .empty).addSlabToList slab .partly) slab).map some
  else .ok none

/-- `alloc` after `createSlab`, with the lock taken again. The new slab is given back if
another thread has filled the partial list meanwhile. -/
def allocCreated (m : Mem) (c : SlabCache) (ns : Nat) : Except SlabFault (Nat × SlabCache) :=
  if ns = 0 then .ok (0, c)
  else if c.head .partly ≠ 0 then takeObject m c (c.head .partly)
  else takeObject m (c.addSlabToList ns .partly) ns

def free (m : Mem) (c : SlabCache) (ptr : Nat) : Bool × Mem × SlabCache :=
  if ptr = 0 then (false, m, c)
  else
    let found := ptr &&& Word.compl (Word.sub (slabBytes c.objSize) 1)
    let s := c.slabs found
    if s.pageCount ≠ slabPages c.objSize ∨ s.totalCount = 0 then (false, m, c)
    else
      let c := c.setSlab found (s.put ptr)
      let c :=
        if s.usedCount = s.totalCount then
          (c.removeSlabFromList found .full).addSlabToList found .partly
        else c
      let c :=
        if (c.slabs found).usedCount = 0 then
          (c.removeSlabFromList found .partly).addSlabToList found .empty
        else c
      (true, m.write64 ptr s.freeList, c)

/-- The loop of `trim`; the slab ranges still reserved are carried along. -/
def trimLoop : Nat → SlabCache → List Nat → Nat → SlabCache × List Nat
  | 0, c, held, _ => (c, held)
  | n + 1, c, held, s =>
    if s = 0 then (c, held)
    else
      let next := (c.slabs s).next
      trimLoop n (c.removeSlabFromList s .empty) (held.filter fun x => x ≠ s) next

def trim (c : SlabCache) (held : List Nat) : SlabCache × List Nat :=
  trimLoop maxSlabs c held (c.head .empty)

end SlabCache

section
variable (b : Slab) (n : Nat)

@[simp] lemma Slab.take_toLinks : (b.take n).toLinks = b.toLinks := rfl
@[simp] lemma Slab.take_freeList : (b.take n).freeList = n := rfl
@[simp] lemma Slab.take_totalCount : (b.take n).totalCount = b.totalCount := rfl
@[simp] lemma Slab.take_dataPage : (b.take n).dataPage = b.dataPage := rfl
@[simp] lemma Slab.take_pageCount : (b.take n).pageCount = b.pageCount := rfl
@[simp] lemma Slab.put_toLinks : (b.put n).toLinks = b.toLinks := rfl
@[simp] lemma Slab.put_freeList : (b.put n).freeList = n := rfl
@[simp] lemma Slab.put_totalCount : (b.put n).totalCount = b.totalCount := rfl
@[simp] lemma Slab.put_dataPage : (b.put n).dataPage = b.dataPage := rfl
@[simp] lemma Slab.put_pageCount : (b.put n).pageCount = b.pageCount := rfl

lemma Slab.take_usedCount (h : b.usedCount + 1 < 2 ^ 16) : (b.take n).usedCount = b.usedCount + 1 :=
  Nat.mod_eq_of_lt h

lemma Slab.put_usedCount (hpos : 0 < b.usedCount) (h : b.usedCount < 2 ^ 16) :
    (b.put n).usedCount = b.usedCount - 1 := by
  simp only [Slab.put]
  omega

end

@[simp] lemma SlabCache.setSlab_slabs_self (c : SlabCache) (s : Nat) (b : Slab) :
    (c.setSlab s b).slabs s = b :=
  update_self _ _ _

lemma SlabCache.setSlab_slabs_of_ne (c : SlabCache) (b : Slab) (h : t ≠ s) :
    (c.setSlab s b).slabs t = c.slabs t :=
  update_of_ne h _ _

/-- The link fields of the headers. -/
def SlabCache.links (c : SlabCache) : Nat → Links := fun x => (c.slabs x).toLinks

/-- Headers with other link fields. -/
def relink (slabs : Nat → Slab) (k : Nat → Links) : Nat → Slab :=
  fun x => { slabs x with toLinks := k x }

lemma relink_update (slabs : Nat → Slab) (k : Nat → Links) (x : Nat) (n : Links) :
    update (relink slabs k) x { relink slabs k x with toLinks := n } =
      relink slabs (update k x n) := by
  funext y
  by_cases hy : y = x
  · subst hy
    simp [relink]
  · simp [relink, update_of_ne hy]

lemma setSlab_relink (objSize : Nat) (head : SlabList → Nat) (slabs : Nat → Slab)
    (k : Nat → Links) (x : Nat) (n : Links) :
    (⟨objSize, head, relink slabs k⟩ : SlabCache).setSlab x { relink slabs k x with toLinks := n } =
      ⟨objSize, head, relink slabs (update k x n)⟩ :=
  congrArg (SlabCache.mk objSize head) (relink_update slabs k x n)

lemma removeSlabFromList_eq (c : SlabCache) (s : Nat) (h : SlabList) :
    c.removeSlabFromList s h =
      ⟨c.objSize, update c.head h (Links.unlink c.links (c.head h) s).2,
        relink c.slabs (Links.unlink c.links (c.head h) s).1⟩ := by
  -- The three stores of the code, one after the other, as updates of the link fields.
  have hprev : (if (c.slabs s).prev = 0 then
        ({ c with head := update c.head h (c.slabs s).next } : SlabCache)
      else c.setSlab (c.slabs s).prev { c.slabs (c.slabs s).prev with next := (c.slabs s).next }) =
        ⟨c.objSize, update c.head h (if (c.links s).prev = 0 then (c.links s).next else c.head h),
          relink c.slabs (if (c.links s).prev = 0 then c.links
            else update c.links (c.links s).prev
              { c.links (c.links s).prev with next := (c.links s).next })⟩ := by
    split
    case isTrue hp =>
      have hp' : (c.links s).prev = 0 := hp
      rw [if_pos hp', if_pos hp']
      rfl
    case isFalse hp =>
      have hp' : ¬ (c.links s).prev = 0 := hp
      rw [if_neg hp', if_neg hp', update_eq_self]
      exact setSlab_relink c.objSize c.head c.slabs c.links _ _
  have hnext : ∀ (head : SlabList → Nat) (k : Nat → Links),
      (if (c.slabs s).next = 0 then (⟨c.objSize, head, relink c.slabs k⟩ : SlabCache)
        else (⟨c.objSize, head, relink c.slabs k⟩ : SlabCache).setSlab (c.slabs s).next
          { relink c.slabs k (c.slabs s).next with prev := (c.slabs s).prev }) =
        ⟨c.objSize, head, relink c.slabs (if (c.links s).next = 0 then k
          else update k (c.links s).next
            { k (c.links s).next with prev := (c.links s).prev })⟩ := by
    intro head k
    split
    case isTrue hn =>
      have hn' : (c.links s).next = 0 := hn
      rw [if_pos hn']
    case isFalse hn =>
      have hn' : ¬ (c.links s).next = 0 := hn
      rw [if_neg hn']
      exact setSlab_relink c.objSize head c.slabs k _ _
  simp only [SlabCache.removeSlabFromList, hprev, hnext]
  exact setSlab_relink c.objSize _ c.slabs _ s ⟨0, 0⟩

lemma addSlabToList_eq (c : SlabCache) (s : Nat) (h : SlabList) :
    c.addSlabToList s h =
      ⟨c.objSize, update c.head h s, relink c.slabs (Links.push c.links (c.head h) s)⟩ := by
  have hfirst : c.setSlab s { c.slabs s with next := c.head h, prev := 0 } =
      ⟨c.objSize, c.head, relink c.slabs (update c.links s ⟨c.head h, 0⟩)⟩ :=
    setSlab_relink c.objSize c.head c.slabs c.links s ⟨c.head h, 0⟩
  simp only [SlabCache.addSlabToList, Links.push, hfirst]
  split
  · rfl
  · exact congrArg (SlabCache.mk c.objSize (update c.head h s))
      (relink_update c.slabs _ (c.head h) _)

/-- The three lists of a cache hold the slabs `L`. -/
structure Listed (c : SlabCache) (L : SlabList → List Nat) : Prop where
  linked : ∀ i, Links.Linked c.links 0 (c.head i) (L i)
  disjoint : ∀ i j, i ≠ j → ∀ s ∈ L i, s ∉ L j

section
variable {c : SlabCache} {L : SlabList → List Nat} {s : Nat} {i j : SlabList}

lemma Listed.setSlab (hl : Listed c L) (hb : b.toLinks = (c.slabs s).toLinks) :
    Listed (c.setSlab s b) L := by
  have hlinks : (c.setSlab s b).links = c.links := by
    funext x
    by_cases hx : x = s
    · subst hx
      simp [SlabCache.links, hb]
    · simp [SlabCache.links, c.setSlab_slabs_of_ne b hx]
  refine ⟨fun i => ?_, hl.disjoint⟩
  rw [hlinks]
  exact hl.linked i

lemma Listed.setSlab_off (hl : Listed c L) (hoff : ∀ i, s ∉ L i) : Listed (c.setSlab s b) L := by
  refine ⟨fun i => (hl.linked i).congr fun x hx => ?_, hl.disjoint⟩
  have hne : x ≠ s := by
    rintro rfl
    exact hoff i hx
  simp only [SlabCache.links, c.setSlab_slabs_of_ne b hne]

lemma Listed.remove (hl : Listed c L) (hi : L i = pre ++ s :: post) :
    Listed (c.removeSlabFromList s i) (update L i (pre ++ post)) := by
  have hlist := hl.linked i
  rw [hi] at hlist
  have hsub : ∀ x ∈ pre ++ post, x ∈ L i := by
    intro x hx
    rw [hi]
    obtain hx | hx := mem_append.mp hx
    · exact mem_append_left _ hx
    · exact mem_append_right _ (mem_cons_of_mem s hx)
  have hmem : ∀ j, ∀ x ∈ update L i (pre ++ post) j, x ∈ L j := by
    intro j x hx
    rw [update_apply] at hx
    split_ifs at hx with hj
    · subst hj
      exact hsub x hx
    · exact hx
  rw [removeSlabFromList_eq]
  constructor
  · intro j
    simp only [update_apply]
    split_ifs with hj
    · exact Links.linked_unlink hlist
    · exact (hl.linked j).unlink_other hlist fun x hx =>
        hl.disjoint i j (Ne.symm hj) x (hi ▸ hx)
  · intro j k hjk x hx hx'
    exact hl.disjoint j k hjk x (hmem j x hx) (hmem k x hx')

lemma Listed.add (hl : Listed c L) (hs : s ≠ 0)
    (hoff : ∀ j, s ∉ L j) : Listed (c.addSlabToList s i) (update L i (s :: L i)) := by
  rw [addSlabToList_eq]
  constructor
  · intro j
    simp only [update_apply]
    split_ifs with hj
    · subst hj
      exact Links.linked_push (hl.linked j) hs (hoff j)
    · exact (hl.linked j).push_other (hl.linked i) (hoff j) (hl.disjoint i j (Ne.symm hj))
  · intro j k hjk x hx hx'
    rw [update_apply] at hx
    split_ifs at hx with hj
    · subst hj
      rw [update_of_ne (Ne.symm hjk)] at hx'
      obtain rfl | hx := mem_cons.mp hx
      · exact hoff k hx'
      · exact hl.disjoint j k hjk x hx hx'
    · rw [update_apply] at hx'
      split_ifs at hx' with hk
      · subst hk
        obtain rfl | hx' := mem_cons.mp hx'
        · exact hoff j hx
        · exact hl.disjoint j k hjk x hx hx'
      · exact hl.disjoint j k hjk x hx hx'

/-- A slab goes from one list to the head of another. -/
def moved (L : SlabList → List Nat) (s : Nat) (i j : SlabList) : SlabList → List Nat :=
  update (update L i ((L i).erase s)) j (s :: L j)

lemma Listed.move (hl : Listed c L) (hij : i ≠ j) (hs : s ∈ L i) :
    Listed ((c.removeSlabFromList s i).addSlabToList s j) (moved L s i j) := by
  obtain ⟨pre, post, hi⟩ := append_of_mem hs
  have hnodup := (hl.linked i).nodup
  have herase : (L i).erase s = pre ++ post := by
    rw [hi] at hnodup ⊢
    have hpre : s ∉ pre := fun hmem =>
      (disjoint_of_nodup_append hnodup) hmem mem_cons_self
    rw [erase_append_right _ hpre, erase_cons_head]
  have hoff : ∀ k, s ∉ update L i (pre ++ post) k := by
    intro k hk
    rw [update_apply] at hk
    split_ifs at hk with hki
    · rw [← herase] at hk
      exact hnodup.not_mem_erase hk
    · exact hl.disjoint i k (Ne.symm hki) s hs hk
  have hadd := (hl.remove hi).add (i := j) ((hl.linked i).ne_zero hs) hoff
  rw [update_of_ne (Ne.symm hij)] at hadd
  rwa [moved, herase]

lemma mem_moved (hl : Listed c L) (hij : i ≠ j) (hs : s ∈ L i) :
    x ∈ moved L s i j k ↔ if x = s then k = j else x ∈ L k := by
  unfold moved
  by_cases hkj : k = j
  · subst hkj
    rw [update_self, mem_cons]
    by_cases hx : x = s
    · simp [hx]
    · simp [hx]
  · rw [update_of_ne hkj]
    by_cases hki : k = i
    · subst hki
      rw [update_self, (hl.linked k).nodup.mem_erase_iff]
      by_cases hx : x = s
      · simp [hx, hkj]
      · simp [hx]
    · rw [update_of_ne hki]
      by_cases hx : x = s
      · simp only [hx, if_true, hkj, iff_false]
        exact hl.disjoint i k (Ne.symm hki) s hs
      · simp [hx]

end

end Singularity.KernelHeap
