import Singularity.PhysicalMemory.CallRules
import Singularity.PhysicalMemory.Init

/-!
# Extents, reference counts and the frame counter stay in step

The invariant `Books` relates the three views of free memory, up to the frames that are
pending and to the slack. Between calls nothing is pending and the slack is zero.
-/

namespace Singularity.PhysicalMemory

open Foundation Span

/-- The three views agree up to the pending frames and the slack. There are
`total` frames, and every frame in an extent is below `limit`. -/
structure Books (total limit : Nat) (pending : Nat → Prop) (slack : Nat) (s : PmmState) : Prop where
  separated : Separated s.extents
  bounded : ∀ f, Covered s.extents f → f < limit
  total_eq : s.totalFrames = total
  total_le : s.totalFrames ≤ limit
  limit_le : limit ≤ 2 ^ 53
  refs : ∀ f, f < s.totalFrames →
    ((Covered s.extents f ∨ pending f) ↔ s.refCounts f = refFree)
  fresh : ∀ f, pending f → f < s.totalFrames ∧ ¬ Covered s.extents f
  used : (s.usedFrames + size s.extents + slack) % 2 ^ 64 = s.totalFrames
  used_lt : s.usedFrames < 2 ^ 64

variable {total limit slack : Nat} {pending : Nat → Prop} {s : PmmState}

section
variable (h : Books total limit pending slack s)
include h

lemma Books.extents_bounded : Bounded s.extents :=
  fun f hf => (h.bounded f hf).trans_le h.limit_le

lemma Books.setRef (href : s.refCounts frame ≠ refFree) (hvalue : value ≠ refFree) :
    Books total limit pending slack { s with
      refCounts := fillRefs s.refCounts frame 1 value } := by
  refine { h with refs := fun f hf => ?_ }
  rw [h.refs f hf]
  simp only [fillRefs]
  split_ifs with hin
  · have heq : f = frame := by omega
    subst heq
    exact iff_of_false href hvalue
  · rfl

lemma Books.dropLast (hframe : frame < s.totalFrames) (href : s.refCounts frame ≠ refFree) :
    Books total limit (fun f => pending f ∨ f = frame) (slack + 1)
      { s with
        refCounts := fillRefs s.refCounts frame 1 refFree
        usedFrames := Word.sub s.usedFrames 1 } := by
  refine { h with
    refs := fun f hf => ?_
    fresh := ?_
    used := ?_
    used_lt := Nat.mod_lt _ (by decide) }
  · simp only [fillRefs]
    split
    case isTrue hin =>
      have heq : f = frame := by omega
      exact iff_of_true (.inr (.inr heq)) rfl
    case isFalse hout =>
      have hne : f ≠ frame := by omega
      simp only [hne, or_false]
      exact h.refs f hf
  · rintro f (hf | rfl)
    · exact h.fresh f hf
    · exact ⟨hframe, fun hcov => href ((h.refs _ hframe).mp (.inl hcov))⟩
  · have hused := h.used
    simp only [Word.sub]
    omega

end

variable {count align : Nat}

lemma Books.release (rest : Nat → Prop) (h : Books total limit pending (count + slack) s)
    (hpend : ∀ f, pending f ↔ (start ≤ f ∧ f < start + count) ∨ rest f)
    (hrest : ∀ f, rest f → ¬ (start ≤ f ∧ f < start + count))
    (hok : freeRegionInternal s.extents start count = .ok extents) :
    Books total limit rest slack { s with extents } := by
  have hregion : ∀ f, start ≤ f ∧ f < start + count → pending f :=
    fun f hf => (hpend f).mpr (.inl hf)
  have hfreed := freeRegionInternal_freed hok h.separated
    (fun f h1 h2 => (h.fresh f (hregion f ⟨h1, h2⟩)).2)
  refine ⟨hfreed.separated, ?_, h.total_eq, h.total_le, h.limit_le, ?_, ?_, ?_, h.used_lt⟩
  · intro f hf
    obtain hf | hf := (hfreed.covered f).mp hf
    · exact h.bounded f hf
    · exact ((h.fresh f (hregion f hf)).1).trans_le h.total_le
  · intro f hf
    rw [hfreed.covered, or_assoc, ← hpend]
    exact h.refs f hf
  · intro f hf
    have hfresh := h.fresh f ((hpend f).mpr (.inr hf))
    refine ⟨hfresh.1, fun hcov => ?_⟩
    obtain hcov | hcov := (hfreed.covered f).mp hcov
    · exact hfresh.2 hcov
    · exact hrest f hf hcov
  · have hused := h.used
    simp only [hfreed.size]
    omega

lemma Books.claim (h : Books total limit noFrame slack s) (hplain : PlainRequest count align)
    (hok : allocContiguousInternal s.nodes s.extents count align node = .ok (some (start,
      extents))) :
    Books total limit noFrame (slack + count)
      { s with extents, refCounts := fillRefs s.refCounts start count 1 } := by
  have htaken := allocContiguousInternal_taken hok h.separated h.extents_bounded hplain
  refine ⟨htaken.separated, ?_, h.total_eq, h.total_le, h.limit_le, ?_, ?_, ?_, h.used_lt⟩
  · intro f hf
    exact h.bounded f ((htaken.covered f).mpr (.inl hf))
  · intro f hf
    simp only [noFrame, or_false, fillRefs]
    split
    case isTrue hin => exact iff_of_false (htaken.removed f hin.1 hin.2) (by decide)
    case isFalse hout =>
      have hrefs := h.refs f hf
      simp only [noFrame, or_false, htaken.covered f, hout] at hrefs
      exact hrefs
  · intro f hf
    exact hf.elim
  · have hused := h.used
    have hsz := htaken.size
    simp only at hused ⊢
    omega

lemma Books.addUsed (h : Books total limit pending (slack + n) s) :
    Books total limit pending slack (s.addUsed n) := by
  refine { h with used := ?_, used_lt := Word.add_lt _ _ }
  have hused := h.used
  simp only [PmmState.addUsed, Word.add]
  omega

variable {ptr : Nat}

lemma pmmIncRef_books (h : Books total limit noFrame 0 s)
    (href : ptr / pageSize < s.totalFrames → s.refCounts (ptr / pageSize) ≠ refFree) :
    Books total limit noFrame 0 (pmmIncRef s ptr) := by
  dsimp only [pmmIncRef]
  split
  · exact h
  split
  · exact h
  split
  · exact h
  split
  · exact h
  split
  case isTrue hframe _ _ =>
    exact h.setRef (href (by omega)) (by simp [refFree])
  · exact h

lemma claimFrames_books (h : Books total limit noFrame slack s) (hplain : PlainRequest count align)
    (hok : claimFrames s count align node = .ok (some (start, s'))) :
    Books total limit noFrame (slack + count) s' := by
  obtain ⟨result, halloc, hok⟩ := ok_of_bind hok
  cases result with
  | none => cases hok
  | some taken =>
    cases hok
    exact h.claim hplain halloc

lemma Books.kept : Kept (fun _ => True) (fun _ => True) (Books total limit) where
  managed _ _ _ := trivial
  unpended h hf := (h.refs _ (h.fresh _ hf).1).mp (.inr hf)
  setRef h _ := h.setRef
  dropLast h _ := h.dropLast
  release rest _ _ _ _ _ h := h.release rest
  claim h hplain hok := ⟨claimFrames_books h hplain hok, fun _ _ _ => trivial⟩
  addUsed := Books.addUsed
  setNodes _ h := ⟨h.separated, h.bounded, h.total_eq, h.total_le, h.limit_le, h.refs, h.fresh,
    h.used, h.used_lt⟩
  handed _ _ _ := trivial

variable {pmm pmm' : Pmm} {call : Call}

/-- The calls that may be made: page counts below `2 ^ 52`, and references are
only added to frames that have one. -/
def Admissible (pmm : Pmm) : Call → Prop
  | .allocContiguous count => count < 2 ^ 52
  | .allocContiguousAligned count _ => count < 2 ^ 52
  | .incRef ptr => ptr / pageSize < pmm.state.totalFrames →
      pmm.state.refCounts (ptr / pageSize) ≠ refFree
  | _ => True

/-- One admissible call that does not panic. -/
def CallStep (pmm : Pmm) (call : Call) (pmm' : Pmm) : Prop :=
  Admissible pmm call ∧ ∃ ptr, exec pmm call = .ok (ptr, pmm')

instance (pmm : Pmm) : (call : Call) → Decidable (Admissible pmm call)
  | .allocContiguous count => inferInstanceAs (Decidable (count < 2 ^ 52))
  | .allocContiguousAligned count _ => inferInstanceAs (Decidable (count < 2 ^ 52))
  | .incRef _ => inferInstanceAs (Decidable (_ → _))
  | .allocFrame _ | .freeFrame _ _ | .freeContiguous _ _ | .decRef _ | .flushMagazines _
  | .registerRegion _ _ _ => .isTrue trivial

/-- The step relation as a partial function. -/
def callStep? (pmm : Pmm) (call : Call) : Option Pmm :=
  if Admissible pmm call then (exec pmm call).toOption.map Prod.snd else none

lemma callStep_of_callStep? (h : callStep? pmm call = some pmm') : CallStep pmm call pmm' := by
  obtain ⟨hadm, h⟩ := then_of_ite h
  obtain ⟨result, hexec, rfl⟩ := Option.map_eq_some_iff.mp h
  exact ⟨hadm, result.1, ok_of_toOption hexec⟩

/-- Boot, then make a list of calls. -/
def bootCalls (mb : MultibootInfo) (kernelEnd : UInt64) (calls : List Call) : Option Pmm :=
  (pmmInit PmmState.static mb kernelEnd).toOption.bind fun s =>
    Run.exec callStep? (Pmm.boot s) calls

variable {mb : MultibootInfo} {kernelEnd : UInt64} {calls : List Call}

lemma bootCalls_run (h : bootCalls mb kernelEnd calls = some pmm) :
    ∃ s₀, pmmInit PmmState.static mb kernelEnd = .ok s₀ ∧
      Run CallStep (Pmm.boot s₀) calls pmm := by
  obtain ⟨s₀, hinit, hexec⟩ := Option.bind_eq_some_iff.mp h
  exact ⟨s₀, ok_of_toOption hinit, Run.of_exec (fun _ _ _ => callStep_of_callStep?) hexec⟩

lemma callStep_books (h : Books total limit noFrame 0 pmm.state)
    (hstep : CallStep pmm call pmm') : Books total limit noFrame 0 pmm'.state := by
  obtain ⟨hadm, ptr, hok⟩ := hstep
  have hbetween : Between (fun _ => True) (Books total limit) pmm := ⟨h, fun _ _ _ => trivial⟩
  have hplain : PlainCall call := by
    cases call with
    | allocContiguous count => exact hadm.trans (by decide)
    | allocContiguousAligned count alignPages => exact hadm
    | _ => trivial
  refine (hbetween.exec Books.kept hplain (fun _ _ => trivial) (fun p hp => ?_) hok).1.state
  subst hp
  exact pmmIncRef_books h hadm

/-- After `pmm_init` the books are in order; the usable frames bound the extents. -/
lemma pmmInit_books (hmap : mb.NonOverlapping) (hok : pmmInit PmmState.static mb kernelEnd = .ok s)
    (husable : ∀ f, UsableFrame mb.entries f → f < limit) (htot : s.totalFrames ≤ limit)
    (hlimit : limit ≤ 2 ^ 53) : Books s.totalFrames limit noFrame 0 s := by
  obtain ⟨scan, hscan, -, -, hextents, hrefs, hused, -⟩ := pmmInit_ok hok
  obtain ⟨hsep, hcov⟩ := scanEntries_extents hmap hscan
  have hsepInit : Separated s.extents :=
    hextents ▸ reserveBoot_rule (fun _ => reserveRegionInternal_separated) hsep
  have hbound : ∀ f, Covered s.extents f → f < limit := by
    intro f hf
    rw [hextents] at hf
    exact husable f ((hcov f).mp (covered_of_reserveBoot hf).1)
  refine ⟨hsepInit, hbound, rfl, htot, hlimit, ?_, fun f hf => hf.elim, ?_, ?_⟩
  · intro f hf
    rw [hrefs]
    simp only [noFrame, or_false, initRefs, hf, if_true]
    split_ifs with hc
    · exact iff_of_true hc rfl
    · exact iff_of_false hc (by decide)
  · have hsz := size_le_of_bounded hsepInit hbound
    rw [hused]
    unfold Word.sub
    omega
  · rw [hused]
    exact Nat.mod_lt _ (by decide)

/-- The agreement of the three views between two calls: the extents are
non-empty, sorted, disjoint and never adjacent, they hold exactly the frames
with count `REF_FREE`, and `used_frames` is the difference of the totals. -/
structure Bookkeeping (s : PmmState) : Prop where
  separated : Separated s.extents
  free_iff : ∀ f, f < s.totalFrames →
    (Covered s.extents f ↔ s.refCounts f = refFree)
  used : s.usedFrames = Word.sub s.totalFrames (s.extents.map Extent.count).sum

lemma Books.bookkeeping (h : Books total limit noFrame 0 s) : Bookkeeping s where
  separated := h.separated
  free_iff f hf := by simpa [noFrame] using h.refs f hf
  used := by
    have hused := h.used
    have hlt := h.used_lt
    have hsz := size_le_of_bounded h.separated h.bounded
    have hlimit := h.limit_le
    rw [← size_eq_sum]
    unfold Word.sub
    omega

/-- When every frame in an extent is below `total_frames` the difference does not wrap. -/
lemma Books.used_add_sum (h : Books total total noFrame 0 s) :
    s.usedFrames + (s.extents.map Extent.count).sum = s.totalFrames := by
  have hused := h.used
  have hlt := h.used_lt
  have hsz := size_le_of_bounded h.separated h.bounded
  have hlimit := h.limit_le
  have htot := h.total_eq
  rw [← size_eq_sum]
  omega

lemma run_books (hrun : Run CallStep pmm calls pmm')
    (h : Books total limit noFrame 0 pmm.state) : Books total limit noFrame 0 pmm'.state :=
  hrun.invariant (I := fun pmm => Books total limit noFrame 0 pmm.state)
    (fun _ _ _ hI hstep => callStep_books hI hstep) h

lemma usableFrame_lt (h : UsableFrame entries f) : f < 2 ^ 53 := by
  obtain ⟨e, -, -, hf⟩ := h
  exact hf.lt

lemma usableFrame_lt_total (hok : pmmInit PmmState.static mb kernelEnd = .ok s)
    (hfit : ∀ e ∈ mb.entries, e.addr.toNat + e.len.toNat < 2 ^ 64)
    (h : UsableFrame mb.entries f) : f < s.totalFrames := by
  obtain ⟨scan, hscan, htot, -⟩ := pmmInit_ok hok
  obtain ⟨e, he, -, hf⟩ := h
  have hend := (scanEntries_maxRamAddr hscan (by simp)).2.2 e he
  rw [Word.add_eq (hfit e he)] at hend
  unfold MmapEntry.Frame at hf
  rw [htot]
  unfold pageSize at hf ⊢
  omega

lemma totalFrames_le (hok : pmmInit PmmState.static mb kernelEnd = .ok s) :
    s.totalFrames ≤ 2 ^ 52 := by
  obtain ⟨scan, hscan, htot, -⟩ := pmmInit_ok hok
  have hlt := (scanEntries_maxRamAddr hscan (by simp)).1
  rw [htot]
  unfold pageSize
  omega

/-- After `pmm_init` on a memory map without overlaps and any run of admissible
calls that do not panic, the extents, the reference counts and `used_frames`
agree. The counter is a machine word; if no entry reaches the end of the 64-bit
space the equation also holds without wrap-around. -/
theorem bookkeeping_run {mb : MultibootInfo} {kernelEnd : UInt64} {s₀ : PmmState}
    {calls : List Call} (hmap : mb.NonOverlapping)
    (hinit : pmmInit PmmState.static mb kernelEnd = .ok s₀)
    (hrun : Run CallStep (Pmm.boot s₀) calls pmm) :
    Bookkeeping pmm.state ∧
      ((∀ e ∈ mb.entries, e.addr.toNat + e.len.toNat < 2 ^ 64) →
        pmm.state.usedFrames + (pmm.state.extents.map Extent.count).sum =
          pmm.state.totalFrames) := by
  have htot := totalFrames_le hinit
  constructor
  · have hbooks : Books s₀.totalFrames (2 ^ 53) noFrame 0 s₀ :=
      pmmInit_books hmap hinit (fun f hf => usableFrame_lt hf) (by omega) le_rfl
    exact (run_books hrun hbooks).bookkeeping
  · intro hfit
    have hbooks := pmmInit_books hmap hinit (fun f hf => usableFrame_lt_total hinit hfit hf)
      le_rfl (by omega)
    exact (run_books hrun hbooks).used_add_sum

/-- A machine with 4 MiB of memory: low memory, the kernel image up to 2 MiB and
one page of reference counts are reserved. -/
def smallMachine : MultibootInfo where
  addr := 0x9000
  size := 64
  tags := [.mmap 40 [⟨0, 0x400000, 1⟩]]

lemma smallMachine_nonOverlapping : smallMachine.NonOverlapping := List.pairwise_singleton _ _

/-- The run theorem at an allocation, a reference and two releases. -/
theorem bookkeeping_run_smallMachine :
    ∃ s₀ pmm, pmmInit PmmState.static smallMachine 0x200000 = .ok s₀ ∧
      Run CallStep (Pmm.boot s₀)
        [.allocContiguous 2, .incRef 0x201000, .decRef 0x201000, .freeContiguous 0x201000 2] pmm ∧
      Bookkeeping pmm.state := by
  have hsome : (bootCalls smallMachine 0x200000
      [.allocContiguous 2, .incRef 0x201000, .decRef 0x201000,
        .freeContiguous 0x201000 2]).isSome = true := by decide
  obtain ⟨pmm, hpmm⟩ := Option.isSome_iff_exists.mp hsome
  obtain ⟨s₀, hinit, hrun⟩ := bootCalls_run hpmm
  exact ⟨s₀, pmm, hinit, hrun, (bookkeeping_run smallMachine_nonOverlapping hinit hrun).1⟩

end Singularity.PhysicalMemory
