import Singularity.PhysicalMemory.Ownership

/-!
# The frames that a manager can ever hand out

`Pool P` says that all frames in the extents, and all frames whose count is not the reserved one,
satisfy `P`. It needs neither sorted nor disjoint extents, so it holds for every memory map and
whenever owners release what they got. In the other direction a run of single-frame allocations
reaches every frame of the extents.
-/

namespace Singularity.PhysicalMemory

open Foundation Multiset Span

variable {f ptr : Nat} {s : PmmState} {P Q : Nat → Prop}

/-- All frames that the locked state can give out or take back satisfy `P`. -/
structure Pool (P : Nat → Prop) (s : PmmState) : Prop where
  proper : ∀ e ∈ s.extents, lo e < hi e
  covered : ∀ f, Covered s.extents f → P f
  refs : ∀ f, f < s.totalFrames → s.refCounts f ≠ refReserved → P f

namespace Pool

variable {s' : PmmState}

section
variable (h : Pool P s)
include h

variable {count frame start : Nat}

lemma free (hin : RangeIn P start count)
    (hok : freeRegionInternal s.extents start count = .ok extents) : Pool P { s with extents } := by
  obtain ⟨hprop, hcov, -⟩ := freeRegionInternal_adds hok h.proper
  refine ⟨hprop, fun f hf => ?_, h.refs⟩
  obtain hf | hf := (hcov f).mp hf
  · exact h.covered f hf
  · exact hin f hf.1 hf.2

lemma setRefs (hin : RangeIn P start count) (value : Nat) :
    Pool P { s with refCounts := fillRefs s.refCounts start count value } := by
  refine ⟨h.proper, h.covered, fun f hf href => ?_⟩
  simp only [fillRefs] at href
  split_ifs at href with hrange
  · exact hin f hrange.1 hrange.2
  · exact h.refs f hf href

lemma incRef : Pool P (pmmIncRef s ptr) := by
  dsimp only [pmmIncRef]
  split
  · exact h
  split
  · exact h
  split
  · exact h
  split
  · exact h
  split
  case isTrue hframe href _ =>
    exact h.setRefs (rangeIn_one (h.refs _ (by omega) href)) _
  · exact h

end

/-- A set `P` of frame numbers of the manager and the set `Q` of the frames that
its users see: the address of a range in `P` names frames in `Q`, and these may
come back. The two differ only by the wrap-around of addresses. -/
structure Closed (P Q : Nat → Prop) : Prop where
  bound : ∀ f, P f → f < 2 ^ 53
  handed : ∀ start count, RangeIn P start count → ∀ f ∈ framesAt (framePtr start) count, Q f
  returned : ∀ f, Q f → P f

section
variable (hP : Closed P Q)
include hP in
/-- An allocation takes its frames out of one extent and frees the rest of it again. -/
lemma claim {start count align : Nat} {node : Option Nat} (h : Pool P s)
    (hplain : PlainRequest count align)
    (hok : claimFrames s count align node = .ok (some (start, s'))) :
    Pool P s' ∧ RangeIn P start count := by
  obtain ⟨result, halloc, hok⟩ := ok_of_bind hok
  cases result with
  | none => cases hok
  | some taken =>
    cases hok
    cases hfind : s.extents.find? (fits s.nodes count align node) with
    | none => simp only [allocContiguousInternal, hfind] at halloc; cases halloc
    | some e =>
      have hmem : e ∈ s.extents := List.mem_of_find?_eq_some hfind
      have hpos := h.proper e hmem
      simp only [lo_extent, hi_extent] at hpos
      have hin : RangeIn P e.start e.count := fun f hlo hhi => h.covered f ⟨e, hmem, hlo, hhi⟩
      have hlast := hP.bound _ (hin (e.start + e.count - 1) (by omega) (by omega))
      obtain ⟨as, bs, hl, -, hstart, hroom, heq⟩ :=
        allocContiguousInternal_eq hfind hplain (by omega) (by omega)
      rw [heq] at halloc
      obtain ⟨middle, htail, halloc⟩ := ok_of_bind halloc
      obtain ⟨last, hhead, ⟨⟩⟩ := ok_of_bind halloc
      have hsub : (as ++ bs).Sublist s.extents := by simp [hl]
      have hrest : Pool P { s with extents := as ++ bs } := by
        refine ⟨fun c hc => h.proper c (hsub.subset hc), ?_, h.refs⟩
        rintro f ⟨c, hc, hcf⟩
        exact h.covered f ⟨c, hsub.subset hc, hcf⟩
      have hmiddle := hrest.free (fun f hlo hhi => hin f (by omega) (by omega)) htail
      have hfreed := hmiddle.free (fun f hlo hhi => hin f (by omega) (by omega)) hhead
      have hrange : RangeIn P (Word.alignUp e.start align) count :=
        fun f hlo hhi => hin f (by omega) (by omega)
      exact ⟨hfreed.setRefs hrange 1, hrange⟩

/-- The pool with the frames on their way into the extents. -/
def With (P pending : Nat → Prop) (_slack : Nat) (s : PmmState) : Prop :=
  Pool P s ∧ ∀ f, pending f → P f ∧ s.refCounts f = refFree

include hP in
lemma kept : Kept P Q (With P) where
  managed h := h.1.refs _
  unpended h hf := (h.2 _ hf).2
  setRef {_ _ frame _ _} h hgood hfree _ := by
    refine ⟨h.1.setRefs (rangeIn_one hgood) _, fun f hf => ⟨(h.2 f hf).1, ?_⟩⟩
    have hne : f ≠ frame := by
      rintro rfl
      exact hfree (h.2 f hf).2
    exact (if_neg (by omega)).trans (h.2 f hf).2
  dropLast h hgood _ _ := by
    have hset := h.1.setRefs (rangeIn_one hgood) refFree
    refine ⟨⟨hset.proper, hset.covered, hset.refs⟩, fun f hf => ?_⟩
    obtain hf | rfl := hf
    · exact ⟨(h.2 f hf).1, ite_eq_left_iff.mpr fun _ => (h.2 f hf).2⟩
    · exact ⟨hgood, if_pos (by omega)⟩
  release rest _ _ _ _ _ h hpend _ hok :=
    ⟨h.1.free (fun f hlo hhi => (h.2 f ((hpend f).mpr (.inl ⟨hlo, hhi⟩))).1) hok,
      fun f hf => h.2 f ((hpend f).mpr (.inr hf))⟩
  claim h hplain hok := by
    obtain ⟨hmid, hrange⟩ := h.1.claim hP hplain hok
    exact ⟨⟨hmid, fun _ hf => hf.elim⟩, hrange⟩
  addUsed h := ⟨⟨h.1.proper, h.1.covered, h.1.refs⟩, h.2⟩
  setNodes _ h := ⟨⟨h.1.proper, h.1.covered, h.1.refs⟩, h.2⟩
  handed := hP.handed _ _

end

end Pool

/-- The pool extended to the magazines. -/
structure PoolPmm (P : Nat → Prop) (pmm : Pmm) : Prop where
  state : Pool P pmm.state
  parked : ∀ cpu, ∀ f ∈ pmm.magazines cpu, P f

namespace PoolPmm

section
variable (hP : Pool.Closed P Q)
include hP

/-- A call that releases only frames of the pool keeps the pool and hands out frames of it. -/
lemma exec (h : PoolPmm P pmm) (hplain : PlainCall call) (hrel : ∀ f ∈ released call, P f)
    (hok : exec pmm call = .ok (ptr, pmm')) : PoolPmm P pmm' ∧ ∀ f ∈ handedOut ptr call, Q f := by
  have hbetween : Between P (Pool.With P) pmm := ⟨⟨h.state, fun _ hf => hf.elim⟩, h.parked⟩
  obtain ⟨hnext, hhanded⟩ := hbetween.exec (Pool.kept hP) hplain hrel
    (fun p _ => ⟨h.state.incRef, fun _ hf => hf.elim⟩) hok
  exact ⟨⟨hnext.state.1, hnext.parked⟩, hhanded⟩

/-- In every run of a user that keeps to the rules all frames stay in the pool. -/
lemma run (hrun : Run UseStep u calls u') (h : PoolPmm P u.pmm) (howned : ∀ f ∈ u.owned, Q f) :
    PoolPmm P u'.pmm ∧ ∀ f ∈ u'.owned, Q f := by
  refine hrun.invariant (I := fun u => PoolPmm P u.pmm ∧ ∀ f ∈ u.owned, Q f) ?_ ⟨h, howned⟩
  rintro v call w ⟨hpool, hall⟩ ⟨⟨hplain, hrel, -⟩, ptr, pmm', hok, rfl⟩
  obtain ⟨hnext, hhanded⟩ := hpool.exec hP hplain
    (fun f hf => hP.returned f (hall f (mem_of_le hrel hf))) hok
  refine ⟨hnext, fun f hf => ?_⟩
  obtain hf | hf := mem_add.mp hf
  · exact hhanded f hf
  · exact hall f (mem_of_le (Multiset.sub_le_self _ _) hf)

end

end PoolPmm

lemma allocContiguousInternal_first (nodes : Nat → NumaNode) (hpos : 0 < e.count)
    (hend : e.start + e.count ≤ 2 ^ 53) (hlen : rest.length < maxExtents) :
    ∃ after, freeRegionInternal rest (e.start + 1) (e.count - 1) = .ok after ∧
      allocContiguousInternal nodes (e :: rest) 1 1 none = .ok (some (e.start, after)) := by
  obtain ⟨after, hfree⟩ := exists_freeRegionInternal hlen (e.start + 1) (e.count - 1)
  have hstart : Word.alignUp e.start 1 = e.start := Word.alignUp_one (by omega)
  have hone : Word.add 0 1 = 1 := rfl
  have hfits : fits nodes 1 1 none e = true := by
    simp only [fits, hstart, validNode, le_refl, decide_true, Bool.and_self, Nat.sub_self, hone,
      Bool.true_and, decide_eq_true_eq]
    exact hpos
  have hrest : Word.sub (e.start + e.count) (e.start + 1) = e.count - 1 := by
    rw [Word.sub_eq (by omega) (by omega)]
    omega
  have hhead : freeRegionInternal after e.start 0 = .ok after := rfl
  refine ⟨after, hfree, ?_⟩
  rw [allocContiguousInternal, List.find?_cons_of_pos hfits, List.eraseP_cons_of_pos hfits]
  simp only [freeRegionIfAny_eq, hstart, Nat.sub_self]
  rw [Word.add_eq (by omega), hrest, hfree]
  change (freeRegionInternal after e.start 0 >>= fun rest => pure (some (e.start, rest))) = _
  rw [hhead]
  rfl

/-- A manager that serves requests for single frames until its extents are empty. -/
structure Stocked (s : PmmState) : Prop where
  initialized : s.initialized = true
  proper : ∀ e ∈ s.extents, lo e < hi e
  length_le : s.extents.length ≤ maxExtents
  bounded : Bounded s.extents

lemma Stocked.allocContiguous_one (h : Stocked s) (hf : Covered s.extents f) :
    ∃ g s', pmmAllocContiguous s 1 = .ok (framePtr g, s') ∧ Stocked s' ∧
      (f = g ∨ Covered s'.extents f) ∧ size s'.extents + 1 = size s.extents := by
  cases hextents : s.extents with
  | nil =>
    rw [hextents] at hf
    exact absurd hf (covered_nil f)
  | cons e rest =>
    have hprop := h.proper
    have hlen := h.length_le
    have hbounded := h.bounded
    rw [hextents] at hf hprop hlen hbounded
    have hpos : 0 < e.count := by simpa using hprop e List.mem_cons_self
    have hlast := hbounded (e.start + e.count - 1)
      ⟨e, List.mem_cons_self, by simp only [within_extent]; omega⟩
    have hroom : rest.length < maxExtents := hlen
    obtain ⟨after, hfree, halloc⟩ :=
      allocContiguousInternal_first s.nodes hpos (by omega) hroom
    obtain ⟨hproper', hcov, hsz⟩ := freeRegionInternal_adds hfree
      (fun c hc => hprop c (List.mem_cons_of_mem e hc))
    have hclaim : claimFrames s 1 1 none = .ok (some (e.start,
        { s with extents := after, refCounts := fillRefs s.refCounts e.start 1 1 })) := by
      rw [claimFrames, hextents, halloc]
      rfl
    have hpmm : pmmAllocContiguous s 1 = .ok (framePtr e.start, PmmState.addUsed
        { s with extents := after, refCounts := fillRefs s.refCounts e.start 1 1 } 1) := by
      unfold pmmAllocContiguous pmmAllocContiguousAligned
      rw [if_neg (by decide), if_neg (by simp [h.initialized]), if_neg (by decide)]
      dsimp only
      rw [hclaim]
      rfl
    refine ⟨e.start, _, hpmm, ⟨h.initialized, hproper', ?_, fun x hx => ?_⟩, ?_, ?_⟩
    · exact length_freeRegionInternal_le hfree hroom.le
    · apply hbounded
      obtain hx | hx := (hcov x).mp hx
      · exact (covered_cons e rest x).mpr (.inr hx)
      · refine ⟨e, List.mem_cons_self, ?_⟩
        simp only [within_extent]
        omega
    · obtain hf | hf := (covered_cons e rest f).mp hf
      · simp only [within_extent] at hf
        by_cases heq : f = e.start
        · exact .inl heq
        · exact .inr ((hcov f).mpr (.inr (by omega)))
      · exact .inr ((hcov f).mpr (.inl hf))
    · have hafter : size after + 1 = size (e :: rest) := by
        rw [hsz, size_cons]
        simp only [lo_extent, hi_extent]
        omega
      exact hafter

lemma Stocked.reaches (h : Stocked u.pmm.state) (hf : Covered u.pmm.state.extents f) :
    ∃ calls u' pmm', Run UseStep u calls u' ∧
      exec u'.pmm (.allocContiguous 1) = .ok (framePtr f, pmm') := by
  induction hn : size u.pmm.state.extents generalizing u with
  | zero =>
    obtain ⟨g, s', -, -, -, hsz⟩ := h.allocContiguous_one hf
    omega
  | succ n ih =>
    obtain ⟨g, s', halloc, hstocked, hcov, hsz⟩ := h.allocContiguous_one hf
    have hexec : exec u.pmm (.allocContiguous 1) =
        .ok (framePtr g, { u.pmm with state := s' }) := by
      simp only [exec, Pmm.locked, halloc]
      rfl
    obtain rfl | hcov := hcov
    · exact ⟨[], u, _, Run.nil u, hexec⟩
    let v := u.after (.allocContiguous 1) (framePtr g) { u.pmm with state := s' }
    have hstep : UseStep u (.allocContiguous 1) v :=
      ⟨⟨by decide, Multiset.zero_le _, Multiset.zero_le _⟩, _, _, hexec, rfl⟩
    have hleft : size s'.extents = n := by omega
    obtain ⟨calls, u', pmm', hrun, hlast⟩ := ih (u := v) hstocked hcov hleft
    exact ⟨.allocContiguous 1 :: calls, u', pmm', Run.cons hstep hrun, hlast⟩

/-- After `pmm_init`, on any memory map, single-frame requests are served. -/
lemma pmmInit_stocked (hok : pmmInit PmmState.static mb kernelEnd = .ok s) : Stocked s := by
  obtain ⟨scan, hscan, -, -, hextents, -, -, hinit⟩ := pmmInit_ok hok
  obtain ⟨hprop, hcov⟩ := scanEntries_covered hscan (by simp)
  have hlen := length_scanEntries_le hscan (Nat.zero_le _)
  refine ⟨hinit, ?_, ?_, ?_⟩
  · rw [hextents]
    exact reserveBoot_rule (P := fun es => ∀ e ∈ es, lo e < hi e)
      (fun _ => reserveRegionInternal_proper) hprop
  · rw [hextents]
    exact reserveBoot_rule (P := (·.length ≤ maxExtents))
      (fun _ => length_reserveRegionInternal_le) hlen
  · intro f hf
    rw [hextents] at hf
    have husable := (hcov f).mp (covered_of_reserveBoot hf).1
    exact usableFrame_lt (by simpa using husable)

/-- After `pmm_init` the pool is what the extents hold. -/
lemma pmmInit_pool {P : Nat → Prop} (hok : pmmInit PmmState.static mb kernelEnd = .ok s)
    (hcov : ∀ f, Covered s.extents f → P f) : PoolPmm P (Pmm.boot s) := by
  obtain ⟨-, -, -, -, -, hrefs, -, -⟩ := pmmInit_ok hok
  refine ⟨⟨(pmmInit_stocked hok).proper, hcov, fun f hf href => hcov f ?_⟩, by simp [Pmm.boot]⟩
  change s.refCounts f ≠ refReserved at href
  change f < s.totalFrames at hf
  rw [hrefs] at href
  by_contra hnot
  simp only [initRefs, if_neg hnot, if_pos hf] at href
  exact href rfl

end Singularity.PhysicalMemory
