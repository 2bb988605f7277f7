import Singularity.Foundation.Runs
import Singularity.Foundation.Spans
import Singularity.Foundation.Word

/-!
# The extent list of the physical memory manager

`pmm.rs` keeps the free frames as an array of extents, of which the first
`extent_count` are live. The model keeps exactly the live prefix. Frame numbers
are addresses divided by the page size, so sums of a start and a count do not
wrap; the sums that involve a caller's alignment or page count use word
arithmetic.
-/

namespace Singularity.PhysicalMemory

open Foundation Span List

def pageSize : Nat := 4096
def maxNumaNodes : Nat := 8
def maxCpus : Nat := 32
def magazineSize : Nat := 32
def maxExtents : Nat := 1024

/-- A run of `count` free frames that begins at frame `start`. -/
structure Extent where
  start : Nat
  count : Nat
  deriving DecidableEq

instance : Span Extent where
  lo e := e.start
  hi e := e.start + e.count

/-- The frame range that the firmware tables assign to one NUMA node. -/
structure NumaNode where
  active : Bool
  startFrame : Nat
  endFrame : Nat
  deriving DecidableEq

/-- The ways the manager stops the kernel; the last one is a bounds check of Rust. -/
inductive Panic where
  | extentArrayOverflow
  | doubleFree (frame : Nat)
  | indexOutOfBounds
  deriving DecidableEq

/-- Join an extent with the one that starts where it ends. -/
def Extent.join (w r : Extent) : Extent := { w with count := w.count + r.count }

/-- Insert a region in start order, then coalesce the whole array. -/
def freeRegionInternal (extents : List Extent) (start count : Nat) :
    Except Panic (List Extent) :=
  if count = 0 then .ok extents
  else if maxExtents ≤ extents.length then .error .extentArrayOverflow
  else
    match Span.insert ⟨start, count⟩ extents with
    | [] => .ok []
    | w :: rest => .ok (coalesce Extent.join w rest)

/-- What is left of one extent when `[resStart, resEnd)` is reserved. -/
def reservePieces (resStart resEnd : Nat) (extent : Extent) : List Extent :=
  if resStart < extent.start + extent.count ∧ extent.start < resEnd then
    (if extent.start < resStart then [⟨extent.start, resStart - extent.start⟩] else []) ++
    (if resEnd < extent.start + extent.count then
      [⟨resEnd, extent.start + extent.count - resEnd⟩] else [])
  else [extent]

/-- Append to the new array while it has room; a piece that does not fit is dropped. -/
def pushExtent (out : List Extent) (extent : Extent) : List Extent :=
  if out.length < maxExtents then out ++ [extent] else out

/-- Remove a frame range from the extents, rebuilding the array from left to right. -/
def reserveRegionInternal (extents : List Extent) (resStart resCount : Nat) : List Extent :=
  if resCount = 0 then extents
  else
    extents.foldl
      (fun out extent => (reservePieces resStart (resStart + resCount) extent).foldl pushExtent out)
      []

/-- The node filter of the allocation loop; no preference accepts every extent. -/
def validNode (nodes : Nat → NumaNode) (preferredNode : Option Nat)
    (alignedStart count : Nat) : Bool :=
  match preferredNode with
  | none => true
  | some nodeId =>
    if nodeId < maxNumaNodes then
      (nodes nodeId).active && decide ((nodes nodeId).startFrame ≤ alignedStart) &&
        decide (Word.add alignedStart count ≤ (nodes nodeId).endFrame)
    else false

/-- The extent can hold `count` aligned frames, as the loop body tests it. -/
def fits (nodes : Nat → NumaNode) (count align : Nat) (preferredNode : Option Nat)
    (extent : Extent) : Bool :=
  let alignedStart := Word.alignUp extent.start align
  decide (extent.start ≤ alignedStart) && validNode nodes preferredNode alignedStart count &&
    decide (Word.add (alignedStart - extent.start) count ≤ extent.count)

/-- The guarded call `if count > 0 { free_region_internal(..) }`. -/
def freeRegionIfAny (extents : List Extent) (start count : Nat) : Except Panic (List Extent) :=
  if 0 < count then freeRegionInternal extents start count else .ok extents

/-- First-fit allocation: take the first extent that fits out of the array and
free its tail and its head again. -/
def allocContiguousInternal (nodes : Nat → NumaNode) (extents : List Extent)
    (count align : Nat) (preferredNode : Option Nat) :
    Except Panic (Option (Nat × List Extent)) :=
  match extents.find? (fits nodes count align preferredNode) with
  | none => .ok none
  | some extent => do
      let alignedStart := Word.alignUp extent.start align
      let shift := alignedStart - extent.start
      let remStart := Word.add alignedStart count
      let remCount := Word.sub (extent.start + extent.count) remStart
      let rest := extents.eraseP (fits nodes count align preferredNode)
      let rest ← freeRegionIfAny rest remStart remCount
      let rest ← freeRegionIfAny rest extent.start shift
      return some (alignedStart, rest)

@[simp] lemma lo_extent (e : Extent) : lo e = e.start := rfl

@[simp] lemma hi_extent (e : Extent) : hi e = e.start + e.count := rfl

@[simp] lemma within_extent (e : Extent) (x : Nat) :
    Within e x ↔ e.start ≤ x ∧ x < e.start + e.count := Iff.rfl

lemma join_isMerge : IsMerge Extent.join := by
  intro a b hadj _
  simp only [hi_extent, lo_extent] at hadj
  refine ⟨rfl, ?_⟩
  simp only [Extent.join, hi_extent]
  omega

/-- The effect of freeing `count` frames from `start` on a well-formed extent list. -/
structure Freed (before : List Extent) (start count : Nat) (after : List Extent) : Prop where
  separated : Separated after
  covered : ∀ x, Covered after x ↔ Covered before x ∨ (start ≤ x ∧ x < start + count)
  size : size after = size before + count

variable {extents after : List Extent} {start count : Nat}

section
variable (hok : freeRegionInternal extents start count = .ok after)
include hok

/-- What freeing does to any list of non-empty extents, sorted or not. -/
lemma freeRegionInternal_adds (hprop : ∀ e ∈ extents, lo e < hi e) :
    (∀ e ∈ after, lo e < hi e) ∧
      (∀ x, Covered after x ↔ Covered extents x ∨ (start ≤ x ∧ x < start + count)) ∧
      size after = size extents + count := by
  unfold freeRegionInternal at hok
  split at hok
  case isTrue h0 =>
    cases hok
    have hnone : ∀ x, ¬ (start ≤ x ∧ x < start + count) := by
      intro x
      omega
    exact ⟨hprop, fun x => by simp [hnone], by omega⟩
  case isFalse hpos =>
    split at hok
    · cases hok
    have hall : ∀ e ∈ Span.insert (⟨start, count⟩ : Extent) extents, lo e < hi e := by
      intro e he
      obtain rfl | he := (mem_insert _ _ _).mp he
      · simp only [lo_extent, hi_extent]
        omega
      · exact hprop e he
    have hcov := covered_insert (⟨start, count⟩ : Extent) extents
    have hsz := size_insert (⟨start, count⟩ : Extent) extents
    cases hins : Span.insert (⟨start, count⟩ : Extent) extents with
    | nil =>
      have hlen := length_insert (⟨start, count⟩ : Extent) extents
      rw [hins] at hlen
      simp at hlen
    | cons w rest =>
      rw [hins] at hok hall hcov hsz
      cases hok
      refine ⟨coalesce_proper join_isMerge hall, ?_, ?_⟩
      · intro x
        rw [covered_coalesce join_isMerge hall, hcov, within_extent]
        exact or_comm
      · rw [size_coalesce join_isMerge hall, hsz]
        simp only [lo_extent, hi_extent]
        omega

section
variable (hsep : Separated extents)
  (hfree : ∀ x, start ≤ x → x < start + count → ¬ Covered extents x)
include hsep hfree

lemma freeRegionInternal_separated : Separated after := by
  unfold freeRegionInternal at hok
  split at hok
  · cases hok
    exact hsep
  case isFalse hpos =>
    split at hok
    · cases hok
    have hord : Ordered (Span.insert (⟨start, count⟩ : Extent) extents) := by
      apply insert_ordered hsep.ordered
      · simp only [lo_extent, hi_extent]
        omega
      · intro x hx
        exact hfree x hx.1 hx.2
    split at hok <;> cases hok
    · exact separated_nil
    case h_2 hins =>
      rw [hins] at hord
      exact (coalesce_separated join_isMerge hord).1

lemma freeRegionInternal_freed : Freed extents start count after := by
  obtain ⟨-, hcov, hsz⟩ := freeRegionInternal_adds hok hsep.proper
  exact ⟨freeRegionInternal_separated hok hsep hfree, hcov, hsz⟩

end

/-- `free_region_internal` panics before the array is exceeded. -/
lemma length_freeRegionInternal_le
    (hlen : extents.length ≤ maxExtents) : after.length ≤ maxExtents := by
  unfold freeRegionInternal at hok
  split at hok
  · cases hok
    exact hlen
  split at hok
  · cases hok
  have hins := length_insert (⟨start, count⟩ : Extent) extents
  split at hok <;> cases hok
  · exact Nat.zero_le _
  case h_2 w rest hcons =>
    rw [hcons, length_cons] at hins
    have hle : (coalesce Extent.join w rest).length ≤ rest.length + 1 :=
      length_coalesce_le w rest
    omega

end

lemma exists_freeRegionInternal (hlen : extents.length < maxExtents)
    (start count : Nat) : ∃ after, freeRegionInternal extents start count = .ok after := by
  unfold freeRegionInternal
  split
  · exact ⟨_, rfl⟩
  rw [if_neg (by omega)]
  split
  · exact ⟨_, rfl⟩
  · exact ⟨_, rfl⟩

/-- The effect of taking `count` frames from `start` out of a well-formed extent list. -/
structure Taken (before : List Extent) (start count : Nat) (after : List Extent) : Prop where
  separated : Separated after
  covered : ∀ x, Covered before x ↔ Covered after x ∨ (start ≤ x ∧ x < start + count)
  removed : ∀ x, start ≤ x → x < start + count → ¬ Covered after x
  size : size before = size after + count

/-- Every covered frame number is below twice the number of frames of a 64-bit space. -/
def Bounded (extents : List Extent) : Prop := ∀ x, Covered extents x → x < 2 ^ 53

lemma Bounded.end_le (h : Bounded extents) (hsep : Separated extents)
    (he : e ∈ extents) : e.start + e.count ≤ 2 ^ 53 := by
  have hprop := hsep.proper e he
  simp only [lo_extent, hi_extent] at hprop
  have hlast : Covered extents (e.start + e.count - 1) :=
    ⟨e, he, by simp only [within_extent]; omega⟩
  have := h _ hlast
  omega

lemma size_le_of_bounded (hsep : Separated extents)
    (h : ∀ x, Covered extents x → x < limit) : size extents ≤ limit := by
  apply hsep.ordered.size_le (m := 0) (Nat.zero_le limit) (fun e _ => Nat.zero_le _)
  intro e he
  have hprop := hsep.proper e he
  simp only [lo_extent, hi_extent] at hprop ⊢
  have hlast := h (e.start + e.count - 1) ⟨e, he, by simp only [within_extent]; omega⟩
  omega

lemma size_eq_sum (extents : List Extent) : size extents = (extents.map Extent.count).sum := by
  induction extents with
  | nil => rfl
  | cons e l ih => simp [ih]

/-- Requests whose size test cannot wrap around: page counts below `2 ^ 52`, and
any page count if no alignment is asked for. -/
def PlainRequest (count align : Nat) : Prop := count < 2 ^ 52 ∨ (align = 1 ∧ count < 2 ^ 64)

lemma fits_range (hfit : fits nodes count align preferredNode e = true)
    (hplain : PlainRequest count align) (hend : e.start + e.count ≤ 2 ^ 53) (hpos : 0 < e.count) :
    e.start ≤ Word.alignUp e.start align ∧
      Word.alignUp e.start align + count ≤ e.start + e.count := by
  simp only [fits, Bool.and_eq_true, decide_eq_true_eq] at hfit
  obtain ⟨⟨hstart, -⟩, hroom⟩ := hfit
  obtain hcnt | ⟨halign, hcnt⟩ := hplain
  · have hbound : Word.alignUp e.start align < 2 ^ 64 - 2 ^ 52 :=
      Word.alignUp_lt_of_lt (by omega)
    rw [Word.add_eq (by omega)] at hroom
    exact ⟨hstart, by omega⟩
  · subst halign
    rw [Word.alignUp_one (by omega)] at hroom ⊢
    rw [Word.add_eq (by omega)] at hroom
    omega

/-- The guard around a call of `free_region_internal` repeats the test inside it. -/
lemma freeRegionIfAny_eq (extents : List Extent) (start count : Nat) :
    freeRegionIfAny extents start count = freeRegionInternal extents start count := by
  unfold freeRegionIfAny
  by_cases h : 0 < count
  · rw [if_pos h]
  · have h0 : count = 0 := by omega
    rw [if_neg h, h0]
    rfl

lemma allocContiguousInternal_eq
    (hfind : extents.find? (fits nodes count align preferredNode) = some e)
    (hplain : PlainRequest count align) (hpos : 0 < e.count) (hend : e.start + e.count ≤ 2 ^ 53) :
    ∃ as bs, extents = as ++ e :: bs ∧
      (∀ c ∈ as, fits nodes count align preferredNode c = false) ∧
      e.start ≤ Word.alignUp e.start align ∧
      Word.alignUp e.start align + count ≤ e.start + e.count ∧
      allocContiguousInternal nodes extents count align preferredNode = (do
        let middle ← freeRegionInternal (as ++ bs) (Word.alignUp e.start align + count)
          (e.start + e.count - (Word.alignUp e.start align + count))
        let rest ← freeRegionInternal middle e.start (Word.alignUp e.start align - e.start)
        return some (Word.alignUp e.start align, rest)) := by
  obtain ⟨hfit, as, bs, hl, hnone⟩ := find?_eq_some_iff_append.mp hfind
  have herase : extents.eraseP (fits nodes count align preferredNode) = as ++ bs := by
    rw [hl, eraseP_append_right _ (by simpa using hnone), eraseP_cons_of_pos hfit]
  obtain ⟨hstart, hroom⟩ := fits_range hfit hplain hend hpos
  refine ⟨as, bs, hl, by simpa using hnone, hstart, hroom, ?_⟩
  simp only [allocContiguousInternal, hfind, herase, freeRegionIfAny_eq]
  rw [Word.add_eq (by omega), Word.sub_eq (by omega) hroom]

/-- A successful allocation takes exactly the returned frames out of the list. -/
lemma allocContiguousInternal_taken
    (hok : allocContiguousInternal nodes extents count align preferredNode = .ok (some (start,
      after)))
    (hsep : Separated extents) (hbound : Bounded extents) (hplain : PlainRequest count align) :
    Taken extents start count after := by
  cases hfind : extents.find? (fits nodes count align preferredNode) with
  | none => simp only [allocContiguousInternal, hfind] at hok; cases hok
  | some e =>
    have hmem := mem_of_find?_eq_some hfind
    have hpos := hsep.proper e hmem
    simp only [lo_extent, hi_extent] at hpos
    obtain ⟨as, bs, hl, -, hstart, hroom, heq⟩ :=
      allocContiguousInternal_eq hfind hplain (by omega) (hbound.end_le hsep hmem)
    rw [heq] at hok
    obtain ⟨middle, htail, hok⟩ := ok_of_bind hok
    obtain ⟨last, hhead, ⟨⟩⟩ := ok_of_bind hok
    have hord : Ordered (as ++ e :: bs) := hl ▸ hsep.ordered
    have hout : ∀ x, e.start ≤ x → x < e.start + e.count → ¬ Covered (as ++ bs) x :=
      fun x h1 h2 => not_covered_of_removed hord ⟨h1, h2⟩
    have hrest : Separated (as ++ bs) := hsep.sublist (by rw [hl]; simp)
    have hfreedTail := freeRegionInternal_freed htail hrest
      (fun x h1 h2 => hout x (by omega) (by omega))
    have hfreedHead := freeRegionInternal_freed hhead hfreedTail.separated (by
      intro x h1 h2 hx
      obtain hx | hx := (hfreedTail.covered x).mp hx
      · exact hout x h1 (by omega) hx
      · omega)
    have hcov : ∀ x, Covered after x ↔ Covered (as ++ bs) x ∨
        (Word.alignUp e.start align + count ≤ x ∧ x < e.start + e.count) ∨
        (e.start ≤ x ∧ x < Word.alignUp e.start align) := by
      intro x
      rw [hfreedHead.covered, hfreedTail.covered, or_assoc]
      apply or_congr_right
      omega
    refine ⟨hfreedHead.separated, ?_, ?_, ?_⟩
    · intro x
      -- the extent is its tail, its head and the range taken
      have hparts : e.start ≤ x ∧ x < e.start + e.count ↔
          (Word.alignUp e.start align + count ≤ x ∧ x < e.start + e.count ∨
            e.start ≤ x ∧ x < Word.alignUp e.start align) ∨
          Word.alignUp e.start align ≤ x ∧ x < Word.alignUp e.start align + count := by
        omega
      rw [hcov, hl]
      simp only [covered_append, covered_cons, within_extent, hparts]
      grind only
    · intro x h1 h2 hx
      obtain hx | hx | hx := (hcov x).mp hx
      · exact hout x (by omega) (by omega) hx
      · omega
      · omega
    · rw [hfreedHead.size, hfreedTail.size, hl]
      simp only [size_append, size_cons, lo_extent, hi_extent]
      omega

lemma foldl_pushExtent (h : out.length ≤ maxExtents) (l : List Extent) :
    l.foldl pushExtent out = (out ++ l).take maxExtents := by
  induction l generalizing out with
  | nil => simp [take_of_length_le h]
  | cons e l ih =>
    by_cases hroom : out.length < maxExtents
    · rw [foldl_cons, show pushExtent out e = out ++ [e] from if_pos hroom,
        ih (by simpa using Nat.succ_le_of_lt hroom), append_assoc, singleton_append]
    · have hlen : out.length = maxExtents := by omega
      rw [foldl_cons, show pushExtent out e = out from if_neg hroom, ih h,
        take_append_of_le_length hlen.ge, take_append_of_le_length hlen.ge]

private lemma take_take_append {α : Type*} (m : Nat) (a b : List α) :
    (a.take m ++ b).take m = (a ++ b).take m := by
  have hlen : m - min m a.length = m - a.length := by omega
  rw [take_append, take_take, min_self, take_append, length_take, hlen]

variable {resStart resCount : Nat}

lemma reserveRegionInternal_eq (hpos : 0 < resCount) (extents : List Extent) :
    reserveRegionInternal extents resStart resCount =
      (extents.flatMap (reservePieces resStart (resStart + resCount))).take maxExtents := by
  have hfold : ∀ out : List Extent, out.length ≤ maxExtents →
      extents.foldl (fun out extent =>
        (reservePieces resStart (resStart + resCount) extent).foldl pushExtent out) out =
      (out ++ extents.flatMap (reservePieces resStart (resStart + resCount))).take maxExtents := by
    intro out hout
    induction extents generalizing out with
    | nil => simp [take_of_length_le hout]
    | cons e l ih =>
      rw [foldl_cons, foldl_pushExtent hout, ih _ (by simp), flatMap_cons,
        ← append_assoc, take_take_append]
  rw [reserveRegionInternal, if_neg (by omega), hfold [] (by simp), nil_append]

variable {resEnd : Nat}

lemma mem_reservePieces (hp : p ∈ reservePieces resStart resEnd e) (he : 0 < e.count) :
    e.start ≤ p.start ∧ p.start + p.count ≤ e.start + e.count ∧ 0 < p.count ∧
      (p.start + p.count ≤ resStart ∨ resEnd ≤ p.start) := by
  unfold reservePieces at hp
  split at hp
  case isTrue hmeet =>
    obtain hp | hp := mem_append.mp hp
    all_goals
      split at hp
      · simp only [mem_singleton] at hp
        subst hp
        simp only
        omega
      · simp at hp
  case isFalse hmiss =>
    simp only [mem_singleton] at hp
    subst hp
    omega

section
variable (hres : resStart < resEnd)
include hres

lemma reservePieces_gaps (e : Extent) :
    (reservePieces resStart resEnd e).Pairwise fun a b => a.start + a.count < b.start := by
  unfold reservePieces
  split
  · split
    · split
      · simp only [singleton_append, pairwise_cons, mem_singleton, forall_eq,
          not_mem_nil, IsEmpty.forall_iff, implies_true, List.Pairwise.nil, and_true]
        omega
      · simp
    · split
      · simp
      · simp
  · simp

lemma covered_reservePieces (e : Extent) (x : Nat) :
    Covered (reservePieces resStart resEnd e) x ↔
      Within e x ∧ ¬ (resStart ≤ x ∧ x < resEnd) := by
  unfold reservePieces
  split
  · split
    · split
      · simp only [covered_append, covered_cons, covered_nil, within_extent, or_false]
        omega
      · simp only [covered_append, covered_cons, covered_nil, within_extent, or_false]
        omega
    · split
      · simp only [covered_append, covered_cons, covered_nil, within_extent, or_false, false_or]
        omega
      · simp only [covered_append, covered_nil, within_extent, or_self, false_iff]
        omega
  · simp only [covered_cons, covered_nil, within_extent, or_false]
    omega

lemma separated_flatMap_reservePieces (h : Separated extents) :
    Separated (extents.flatMap (reservePieces resStart resEnd)) where
  proper p hp := by
    obtain ⟨e, he, hp⟩ := mem_flatMap.mp hp
    have hprop := h.proper e he
    simp only [lo_extent, hi_extent] at hprop ⊢
    have := mem_reservePieces hp (by omega)
    omega
  gaps := by
    refine pairwise_flatMap.mpr ⟨fun e _ => reservePieces_gaps hres e, ?_⟩
    apply h.gaps.imp_of_mem
    intro a b ha hb hab p hp q hq
    have hpa := h.proper a ha
    have hpb := h.proper b hb
    simp only [lo_extent, hi_extent] at hab hpa hpb ⊢
    have h1 := mem_reservePieces hp (by omega)
    have h2 := mem_reservePieces hq (by omega)
    omega

lemma covered_flatMap_reservePieces (extents : List Extent) (x : Nat) :
    Covered (extents.flatMap (reservePieces resStart resEnd)) x ↔
      Covered extents x ∧ ¬ (resStart ≤ x ∧ x < resEnd) := by
  induction extents with
  | nil => simp
  | cons e l ih =>
    rw [flatMap_cons, covered_append, covered_reservePieces hres, ih, covered_cons, or_and_right]

end

lemma reserveRegionInternal_separated (h : Separated extents) (resStart resCount : Nat) :
    Separated (reserveRegionInternal extents resStart resCount) := by
  obtain h0 | hpos := Nat.eq_zero_or_pos resCount
  · subst h0
    exact h
  · rw [reserveRegionInternal_eq hpos]
    exact (separated_flatMap_reservePieces (by omega) h).sublist (take_sublist _ _)

lemma covered_of_reserveRegionInternal
    (hx : Covered (reserveRegionInternal extents resStart resCount) x) :
    Covered extents x ∧ ¬ (resStart ≤ x ∧ x < resStart + resCount) := by
  obtain h0 | hpos := Nat.eq_zero_or_pos resCount
  · subst h0
    exact ⟨hx, by omega⟩
  rw [reserveRegionInternal_eq hpos] at hx
  obtain ⟨p, hp, hpx⟩ := hx
  exact (covered_flatMap_reservePieces (by omega) extents x).mp
    ⟨p, mem_of_mem_take hp, hpx⟩

lemma reserveRegionInternal_proper (h : ∀ e ∈ extents, lo e < hi e)
    (resStart resCount : Nat) :
    ∀ e ∈ reserveRegionInternal extents resStart resCount, lo e < hi e := by
  obtain h0 | hpos := Nat.eq_zero_or_pos resCount
  · have hsame : reserveRegionInternal extents resStart resCount = extents := if_pos h0
    rwa [hsame]
  rw [reserveRegionInternal_eq hpos]
  intro p hp
  obtain ⟨e, he, hp⟩ := mem_flatMap.mp (mem_of_mem_take hp)
  have hprop := h e he
  simp only [lo_extent, hi_extent] at hprop ⊢
  have := mem_reservePieces hp (by omega)
  omega

lemma length_reserveRegionInternal_le (h : extents.length ≤ maxExtents) (resStart resCount : Nat) :
    (reserveRegionInternal extents resStart resCount).length ≤ maxExtents := by
  obtain h0 | hpos := Nat.eq_zero_or_pos resCount
  · have hsame : reserveRegionInternal extents resStart resCount = extents := if_pos h0
    rwa [hsame]
  · rw [reserveRegionInternal_eq hpos]
    exact length_take_le _ _

end Singularity.PhysicalMemory
