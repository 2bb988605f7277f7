import Singularity.Foundation.Runs
import Singularity.Foundation.Spans
import Singularity.Foundation.Word

/-!
# The virtual address arena of the kernel heap

`VmArena` hands out page ranges of a fixed part of the address space: first fit
from a sorted array of free regions, then from a watermark. The model keeps the
live prefix `regions_[0..count_]`. Addresses are 64-bit words and page counts of
regions are 32-bit words; requests are of type `size_t`. An insertion into a full
array would write behind it, and `free` then has no result.
-/

namespace Singularity.KernelHeap

open Foundation Span List

def pageSize : Nat := 4096
def vmArenaMaxRegions : Nat := 512

def kheapStartVirtual : Nat := 0xFFFF900000000000
def kheapMaxSize : Nat := 0x20000000
def heapAslrMask : Nat := 0xFFFFFF

/-- A whole number of pages from a random word. -/
def getAslrOffset (random : Nat) : Nat := (random &&& heapAslrMask) &&& Word.compl 0xFFF

/-- The bounds `KernelHeap::init` gives to the arena. -/
def heapStart (random : Nat) : Nat := Word.add kheapStartVirtual (getAslrOffset random)
def heapEnd : Nat := Word.add (Word.add kheapStartVirtual kheapMaxSize) heapAslrMask

/-- A free region. -/
structure VmRange where
  base : Nat
  pages : Nat
  deriving DecidableEq, Inhabited

instance : Span VmRange where
  lo r := r.base
  hi r := r.base + r.pages * pageSize

structure VmArena where
  regions : List VmRange
  watermark : Nat
  limit : Nat
  deriving DecidableEq

def VmArena.init (start limit : Nat) : VmArena := ⟨[], start, limit⟩

/-- The binary search on `[lo, hi)`; each round shortens the interval. -/
def lowerBoundLoop (regions : List VmRange) (addr : Nat) : Nat → Nat → Nat → Nat
  | 0, lo, _ => lo
  | n + 1, lo, hi =>
    if lo < hi then
      let mid := (lo + hi) / 2
      if (regions.getD mid default).base < addr then lowerBoundLoop regions addr n (mid + 1) hi
      else lowerBoundLoop regions addr n lo mid
    else lo

def lowerBound (regions : List VmRange) (addr : Nat) : Nat :=
  lowerBoundLoop regions addr regions.length 0 regions.length

/-- Shift the tail of the array and store a region; the array must have room. -/
def insertAt (regions : List VmRange) (idx base pages : Nat) : List VmRange :=
  regions.insertIdx idx ⟨base, pages⟩

def removeAt (regions : List VmRange) (idx : Nat) : List VmRange := regions.eraseIdx idx

/-- Join a region with its successor in the array if they are adjacent. -/
def mergeAt (regions : List VmRange) (idx : Nat) : List VmRange :=
  let a := regions.getD idx default
  let b := regions.getD (idx + 1) default
  if Word.add a.base (Word.mul a.pages pageSize) = b.base then
    removeAt (regions.set idx ⟨a.base, Word.low32 (a.pages + b.pages)⟩) (idx + 1)
  else regions

def coalesceAround (regions : List VmRange) (idx : Nat) : List VmRange :=
  let regions := if idx + 1 < regions.length then mergeAt regions idx else regions
  if 0 < idx then mergeAt regions (idx - 1) else regions

namespace VmArena

/-- First fit; the page count is compared after truncation to 32 bits. -/
def alloc (a : VmArena) (pages : Nat) : Nat × VmArena :=
  if pages = 0 then (0, a)
  else
    match a.regions.findIdx? fun r => decide (Word.low32 pages ≤ r.pages) with
    | some i =>
      let r := a.regions.getD i default
      let regions :=
        if r.pages = Word.low32 pages then removeAt a.regions i
        else a.regions.set i
          ⟨Word.add r.base (Word.mul pages pageSize), r.pages - Word.low32 pages⟩
      (r.base, { a with regions })
    | none =>
      let top := Word.add a.watermark (Word.mul pages pageSize)
      if a.limit < top ∨ top < a.watermark then (0, a)
      else (a.watermark, { a with watermark := top })

/-- The pages before the first aligned address of a region. -/
def gap (ab : Nat) (r : VmRange) : Nat := Word.sub (Word.alignUp r.base ab) r.base / pageSize

/-- What is left of a region when the aligned range is taken out of it. -/
def carve (regions : List VmRange) (i pages ab : Nat) : List VmRange :=
  let r := regions.getD i default
  let aligned := Word.alignUp r.base ab
  let rem := r.pages - Word.low32 (Word.add (gap ab r) pages)
  let tb := Word.add aligned (Word.mul pages pageSize)
  if 0 < gap ab r then
    let regions := regions.set i ⟨r.base, Word.low32 (gap ab r)⟩
    if 0 < rem ∧ regions.length < vmArenaMaxRegions then
      insertAt regions (lowerBound regions tb) tb (Word.low32 rem)
    else regions
  else if rem = 0 then removeAt regions i
  else regions.set i ⟨tb, Word.low32 rem⟩

/-- Keep the pages below the aligned address as a region, if the array has room. -/
def keepGap (a : VmArena) (aligned : Nat) : List VmRange :=
  if a.watermark < aligned ∧ a.regions.length < vmArenaMaxRegions then
    let ins := lowerBound a.regions a.watermark
    let gapPages := Word.low32 (Word.sub aligned a.watermark / pageSize)
    coalesceAround (insertAt a.regions ins a.watermark gapPages) ins
  else a.regions

def allocAligned (a : VmArena) (pages alignPages : Nat) : Nat × VmArena :=
  if pages = 0 ∨ alignPages = 0 then (0, a)
  else
    let ab := Word.mul alignPages pageSize
    match a.regions.findIdx? fun r =>
        decide (Word.low32 (Word.add (gap ab r) pages) ≤ r.pages) with
    | some i =>
      (Word.alignUp (a.regions.getD i default).base ab,
        { a with regions := carve a.regions i pages ab })
    | none =>
      let aligned := Word.alignUp a.watermark ab
      let top := Word.add aligned (Word.mul pages pageSize)
      if a.limit < top then (0, a)
      else (aligned, { a with regions := keepGap a aligned, watermark := top })

/-- Insert a region and coalesce around it. A nearly full array is coalesced at its
end first; if it is still full the insertion writes behind the array. -/
def free (a : VmArena) (base pages : Nat) : Option VmArena :=
  if base = 0 ∨ pages = 0 then some a
  else
    let regions :=
      if vmArenaMaxRegions - 2 ≤ a.regions.length then
        coalesceAround a.regions (a.regions.length - 1)
      else a.regions
    let pg := if 0xFFFFFFFF < pages then 0xFFFFFFFF else pages
    let idx := lowerBound regions base
    if regions.length < vmArenaMaxRegions then
      some { a with regions := coalesceAround (insertAt regions idx base pg) idx }
    else none

end VmArena

@[simp] lemma lo_vmRange (r : VmRange) : lo r = r.base := rfl

@[simp] lemma hi_vmRange (r : VmRange) : hi r = r.base + r.pages * pageSize := rfl

@[simp] lemma within_vmRange (r : VmRange) (x : Nat) :
    Within r x ↔ r.base ≤ x ∧ x < r.base + r.pages * pageSize := Iff.rfl

/-- The binary search finds the boundary of any partition of the array by `base < addr`. -/
lemma lowerBound_append (hpre : ∀ r ∈ pre, r.base < addr) (hpost : ∀ r ∈ post, addr ≤ r.base) :
    lowerBound (pre ++ post) addr = pre.length := by
  have hloop : ∀ n lo hi, hi - lo ≤ n → lo ≤ pre.length → pre.length ≤ hi →
      hi ≤ (pre ++ post).length → lowerBoundLoop (pre ++ post) addr n lo hi = pre.length := by
    intro n
    induction n with
    | zero =>
      intro lo hi hn hlo hhi _
      simp only [lowerBoundLoop]
      omega
    | succ n ih =>
      intro lo hi hn hlo hhi hlen
      simp only [lowerBoundLoop]
      split
      case isTrue hlt =>
        by_cases hmid : (lo + hi) / 2 < pre.length
        · have hget : (pre ++ post).getD ((lo + hi) / 2) default = pre[(lo + hi) / 2] := by
            rw [getD_eq_getElem _ _ (by simp; omega), getElem_append_left hmid]
          rw [hget, if_pos (hpre _ (getElem_mem hmid))]
          exact ih _ _ (by omega) (by omega) hhi hlen
        · have hin : (lo + hi) / 2 < (pre ++ post).length := by omega
          have hget : (pre ++ post).getD ((lo + hi) / 2) default ∈ post := by
            rw [getD_eq_getElem _ _ hin, getElem_append_right (by omega)]
            exact getElem_mem _
          rw [if_neg (Nat.not_lt.mpr (hpost _ hget))]
          exact ih _ _ (by omega) hlo (by omega) (by omega)
      case isFalse hge => omega
  exact hloop _ _ _ (by simp) (Nat.zero_le _) (by simp) le_rfl

lemma insertAt_append (pre post : List VmRange) (base pages : Nat) :
    insertAt (pre ++ post) pre.length base pages = pre ++ ⟨base, pages⟩ :: post := by
  unfold insertAt
  induction pre with
  | nil => simp
  | cons a pre ih => simp [ih]

/-- Two adjacent regions as one. -/
def VmRange.join (a b : VmRange) : VmRange := ⟨a.base, a.pages + b.pages⟩

lemma join_isMerge : IsMerge VmRange.join := by
  intro a b hadj _
  simp only [hi_vmRange, lo_vmRange] at hadj
  refine ⟨rfl, ?_⟩
  simp only [VmRange.join, hi_vmRange, ← hadj, Nat.add_mul, Nat.add_assoc]

/-- The regions lie in a part of the address space of less than `2 ^ 32` pages, so
that no sum of their ends or page counts wraps around. -/
def Fits (start top : Nat) (regions : List VmRange) : Prop :=
  ∀ r ∈ regions, start ≤ r.base ∧ r.base + r.pages * pageSize ≤ top

section
variable {start top : Nat} (htop : top < 2 ^ 64) (hspan : top < start + 2 ^ 44)

include htop in
lemma vmRange_end {r : VmRange} (h : r.base + r.pages * pageSize ≤ top) :
    Word.add r.base (Word.mul r.pages pageSize) = r.base + r.pages * pageSize := by
  rw [Word.mul_eq (by omega), Word.add_eq (by omega)]

variable {pre post regions : List VmRange} {x : VmRange}

include htop hspan in
lemma mergeAt_append {a b : VmRange} (hfits : Fits start top (pre ++ a :: b :: post)) :
    mergeAt (pre ++ a :: b :: post) pre.length =
      pre ++ absorb VmRange.join a (b :: post) := by
  obtain ⟨hstart, hend⟩ := hfits a (by simp)
  obtain ⟨hstart', hend'⟩ := hfits b (by simp)
  have ha : (pre ++ a :: b :: post).getD pre.length default = a := by simp
  have hb : (pre ++ a :: b :: post).getD (pre.length + 1) default = b := by simp
  simp only [mergeAt, ha, hb, vmRange_end htop hend, absorb, hi_vmRange, lo_vmRange]
  split_ifs with hadj
  · have hsum : a.pages + b.pages < 2 ^ 32 := by
      unfold pageSize at *
      omega
    rw [Word.low32_eq hsum]
    simp [removeAt, VmRange.join, eraseIdx_append_of_length_le]
  · rfl

lemma fits_of_covered (hl : Fits start top l) (hprop : ∀ r ∈ l', lo r < hi r)
    (hcov : ∀ x, Covered l' x → Covered l x) : Fits start top l' := by
  intro r hr
  have hpos := hprop r hr
  obtain ⟨c, hc, hfirst⟩ := hcov (lo r) ⟨r, hr, le_rfl, hpos⟩
  obtain ⟨d, hd, hlast⟩ := hcov (hi r - 1) ⟨r, hr, by omega, by omega⟩
  have hstart := (hl c hc).1
  have hend := (hl d hd).2
  simp only [within_vmRange, lo_vmRange, hi_vmRange] at hfirst hlast hpos
  constructor
  · omega
  · omega

section
include htop hspan

/-- The first half of `coalesce_around`: the region joins its successor. -/
lemma mergeAt_next (hfits : Fits start top (pre ++ x :: post)) :
    (if pre.length + 1 < (pre ++ x :: post).length then mergeAt (pre ++ x :: post) pre.length
      else pre ++ x :: post) = pre ++ absorb VmRange.join x post := by
  cases post with
  | nil => simp [absorb]
  | cons y post =>
    rw [if_pos (by simp), mergeAt_append htop hspan hfits]

/-- The second half of `coalesce_around`: the predecessor joins what the first half left. -/
lemma mergeAt_previous (hfits : Fits start top (front ++ w :: rest)) (hrest : rest ≠ []) :
    mergeAt (front ++ [w] ++ rest) ((front ++ [w]).length - 1) =
      front ++ absorb VmRange.join w rest := by
  obtain ⟨c, rest, rfl⟩ := exists_cons_of_ne_nil hrest
  simpa using mergeAt_append htop hspan hfits

/-- `coalesce_around` on a new region in an otherwise separated array. -/
lemma coalesceAround_append (hfits : Fits start top (pre ++ x :: post))
    (hord : Ordered (pre ++ x :: post)) (hsep : Separated (pre ++ post)) :
    Separated (coalesceAround (pre ++ x :: post) pre.length) ∧
      (∀ y, Covered (coalesceAround (pre ++ x :: post) pre.length) y ↔
        Covered (pre ++ x :: post) y) ∧
      (coalesceAround (pre ++ x :: post) pre.length).length ≤ (pre ++ x :: post).length := by
  obtain ⟨hleft, hright, hcross⟩ := pairwise_append.mp hord.apart
  have hordPost : Ordered (x :: post) :=
    ⟨fun r hr => hord.proper r (mem_append_right _ hr), hright⟩
  have hsepPost : Separated post := hsep.sublist (sublist_append_right _ _)
  have hnext := absorb_separated join_isMerge hordPost hsepPost
  have hnextCov := covered_absorb join_isMerge hordPost
  have hnextLen : (absorb VmRange.join x post).length ≤ post.length + 1 :=
    length_absorb_le x post
  simp only [coalesceAround, mergeAt_next htop hspan hfits]
  obtain rfl | ⟨front, w, rfl⟩ := eq_nil_or_concat' pre
  · rw [if_neg (by simp)]
    exact ⟨hnext, hnextCov, by simpa using hnextLen⟩
  have hmem : w ∈ front ++ [w] := by simp
  have hordBoth : Ordered (w :: absorb VmRange.join x post) := by
    refine ⟨fun r hr => ?_, pairwise_cons.mpr ⟨fun r hr => ?_, hnext.ordered.apart⟩⟩
    · obtain rfl | hr := mem_cons.mp hr
      · exact hord.proper r (mem_append_left _ hmem)
      · exact hnext.proper r hr
    · exact (hcross w hmem x mem_cons_self).trans
        (le_lo_of_mem_absorb join_isMerge hordPost hr)
  have hfits' : Fits start top (front ++ w :: absorb VmRange.join x post) := by
    apply fits_of_covered hfits
    · intro r hr
      obtain hr | hr := mem_append.mp hr
      · exact hord.proper r (by simp [hr])
      · exact hordBoth.proper r hr
    · intro y
      simp only [covered_append, covered_cons, hnextCov, covered_nil]
      tauto
  rw [if_pos (by simp), mergeAt_previous htop hspan hfits' (absorb_ne_nil x post)]
  refine ⟨?_, ?_, ?_⟩
  · refine ⟨fun r hr => ?_, pairwise_append.mpr
      ⟨hsep.gaps.sublist (by simp), (absorb_separated join_isMerge hordBoth hnext).gaps, ?_⟩⟩
    · obtain hr | hr := mem_append.mp hr
      · exact hord.proper r (by simp [hr])
      · exact (absorb_separated join_isMerge hordBoth hnext).proper r hr
    intro r hr c hc
    have hrw : hi r < lo w := by
      have hgaps := hsep.gaps
      rw [append_assoc] at hgaps
      exact (pairwise_append.mp hgaps).2.2 r hr w (by simp)
    exact hrw.trans_le (le_lo_of_mem_absorb join_isMerge hordBoth hc)
  · intro y
    simp only [covered_append, covered_absorb join_isMerge hordBoth,
      covered_cons, hnextCov, covered_nil, or_false, or_assoc]
  · have hlen : (absorb VmRange.join w (absorb VmRange.join x post)).length ≤
        (absorb VmRange.join x post).length + 1 := length_absorb_le w _
    simp only [length_append, length_cons, length_nil]
    omega

end

section
variable (htop : top < 2 ^ 64) (hspan : top < start + 2 ^ 44) (hsep : Separated regions)
  (hfits : Fits start top regions)
include htop hspan hsep hfits

/-- A free range put into a separated array is covered in addition to the regions. -/
lemma coalesceAround_insertAt (hpages : 0 < pages) (hbase : start ≤ base)
    (hend : base + pages * pageSize ≤ top)
    (hfree : ∀ x, Within (⟨base, pages⟩ : VmRange) x → ¬ Covered regions x) :
    Separated (coalesceAround (insertAt regions (lowerBound regions base) base pages)
        (lowerBound regions base)) ∧
      (∀ x, Covered (coalesceAround (insertAt regions (lowerBound regions base) base pages)
          (lowerBound regions base)) x ↔
        Within (⟨base, pages⟩ : VmRange) x ∨ Covered regions x) ∧
      (coalesceAround (insertAt regions (lowerBound regions base) base pages)
        (lowerBound regions base)).length ≤ regions.length + 1 := by
  obtain ⟨pre, post, rfl, hpre, hpost⟩ := hsep.ordered.split base
  have hprop : lo (⟨base, pages⟩ : VmRange) < hi (⟨base, pages⟩ : VmRange) := by
    simp only [lo_vmRange, hi_vmRange, pageSize]
    omega
  have hord := hsep.ordered.insert_between hprop hfree hpre hpost
  have hfits' : Fits start top (pre ++ ⟨base, pages⟩ :: post) := by
    intro r hr
    obtain hr | hr := mem_append.mp hr
    · exact hfits r (mem_append_left _ hr)
    · obtain rfl | hr := mem_cons.mp hr
      · exact ⟨hbase, hend⟩
      · exact hfits r (mem_append_right _ hr)
  rw [lowerBound_append hpre hpost, insertAt_append]
  obtain ⟨hsep', hcov, hlen⟩ := coalesceAround_append htop hspan hfits' hord hsep
  refine ⟨hsep', fun x => ?_, ?_⟩
  · rw [hcov]
    simp only [covered_append, covered_cons]
    tauto
  · simpa [Nat.add_assoc] using hlen

lemma coalesceAround_last : coalesceAround regions (regions.length - 1) = regions := by
  obtain rfl | ⟨front, x, rfl⟩ := eq_nil_or_concat' regions
  · rfl
  obtain rfl | ⟨front, w, rfl⟩ := eq_nil_or_concat' front
  · simp [coalesceAround]
  have hgap : hi w < lo x := by
    have hgaps := hsep.gaps
    exact (pairwise_append.mp hgaps).2.2 w (by simp) x (by simp)
  have hfits' : Fits start top (front ++ [w, x]) := by simpa using hfits
  have hmerge := mergeAt_append htop hspan hfits'
  have hidx : (front ++ [w] ++ [x]).length - 1 = front.length + 1 := by simp
  have hlast : ¬ front.length + 1 + 1 < (front ++ [w] ++ [x]).length := by simp
  simp only [absorb, if_neg hgap.ne] at hmerge
  rw [hidx, coalesceAround, if_neg hlast, if_pos (Nat.succ_pos _)]
  simpa using hmerge

end

end

end Singularity.KernelHeap
