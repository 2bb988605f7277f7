import Singularity.PhysicalMemory.Manager

/-!
# A rule for the invariants of the manager

The functions of the manager change the locked state in a few ways only. An invariant that stands
these changes is kept by every call. In the middle of a call some frames are `pending`: their last
reference is gone but they are not in an extent yet. The `slack` counts frames that are taken out
of the extents and not added to `used_frames` yet.
-/

namespace Singularity.PhysicalMemory

open Foundation List Pmm Span

/-- Nothing is pending between calls. -/
def noFrame : Nat → Prop := fun _ => False

/-- All frames of a range satisfy `P`. -/
def RangeIn (P : Nat → Prop) (start count : Nat) : Prop := ∀ f, start ≤ f → f < start + count → P f

lemma rangeIn_one {P : Nat → Prop} (h : P f) : RangeIn P f 1 := by
  intro g hlo hhi
  have heq : g = f := by omega
  rwa [heq]

/-- The frames of a block that starts at `ptr`; the null pointer stands for none. -/
def framesAt (ptr count : Nat) : Multiset Nat :=
  if ptr = 0 then 0 else List.range' (ptr / pageSize) count

@[simp] lemma framesAt_null (count : Nat) : framesAt 0 count = 0 := rfl

lemma framesAt_one (h : ptr ≠ 0) : framesAt ptr 1 = {ptr / pageSize} := by
  rw [framesAt, if_neg h]
  rfl

/-- The frames that a call with result `ptr` hands out. -/
def handedOut (ptr : Nat) : Call → Multiset Nat
  | .allocFrame _ => framesAt ptr 1
  | .allocContiguous count => framesAt ptr count
  | .allocContiguousAligned count _ => framesAt ptr count
  | _ => 0

/-- The frames whose owner releases them with a call. -/
def released : Call → Multiset Nat
  | .freeFrame _ ptr => framesAt ptr 1
  | .freeContiguous ptr count => framesAt ptr count
  | _ => 0

/-- Page counts are machine words; those of aligned requests stay below `2 ^ 52`. -/
def PlainCall : Call → Prop
  | .allocContiguous count => count < 2 ^ 64
  | .allocContiguousAligned count _ => count < 2 ^ 52
  | _ => True

/-- `I` stands the changes of the locked state. What is `good` holds of every frame in
circulation, what is `seen` of the frames at the addresses that are handed out. -/
structure Kept (good seen : Nat → Prop) (I : (Nat → Prop) → Nat → PmmState → Prop) : Prop where
  managed {pending : Nat → Prop} {slack f : Nat} {s : PmmState} : I pending slack s →
    f < s.totalFrames → s.refCounts f ≠ refReserved → good f
  unpended {pending : Nat → Prop} {slack f : Nat} {s : PmmState} : I pending slack s →
    pending f → s.refCounts f = refFree
  setRef {pending : Nat → Prop} {slack frame value : Nat} {s : PmmState} : I pending slack s →
    good frame → s.refCounts frame ≠ refFree → value ≠ refFree →
    I pending slack { s with refCounts := fillRefs s.refCounts frame 1 value }
  dropLast {pending : Nat → Prop} {slack frame : Nat} {s : PmmState} : I pending slack s →
    good frame → frame < s.totalFrames → s.refCounts frame ≠ refFree →
    I (fun f => pending f ∨ f = frame) (slack + 1)
      { s with
        refCounts := fillRefs s.refCounts frame 1 refFree
        usedFrames := Word.sub s.usedFrames 1 }
  release {pending : Nat → Prop} (rest : Nat → Prop) {slack start count : Nat} {s : PmmState}
    {extents : List Extent} : I pending (count + slack) s →
    (∀ f, pending f ↔ (start ≤ f ∧ f < start + count) ∨ rest f) →
    (∀ f, rest f → ¬ (start ≤ f ∧ f < start + count)) →
    freeRegionInternal s.extents start count = .ok extents → I rest slack { s with extents }
  claim {slack start count align : Nat} {node : Option Nat} {s s' : PmmState} :
    I noFrame slack s → PlainRequest count align →
    claimFrames s count align node = .ok (some (start, s')) →
    I noFrame (slack + count) s' ∧ RangeIn good start count
  addUsed {pending : Nat → Prop} {slack n : Nat} {s : PmmState} : I pending (slack + n) s →
    I pending slack (s.addUsed n)
  setNodes {s : PmmState} (nodes : Nat → NumaNode) : I noFrame 0 s → I noFrame 0 { s with nodes }
  handed {start count : Nat} : RangeIn good start count →
    ∀ f ∈ framesAt (framePtr start) count, seen f

variable {good seen : Nat → Prop} {I : (Nat → Prop) → Nat → PmmState → Prop} {ptr frame : Nat}

namespace Kept

variable (hI : Kept good seen I) {s s' : PmmState} {count n : Nat} {batch batch' : Extent}
include hI

lemma releaseRef (h : I noFrame 0 s) (hframe : frame < s.totalFrames)
    (hfree : s.refCounts frame ≠ refFree) (hres : s.refCounts frame ≠ refReserved)
    (hok : releaseRef s frame = .ok s') : I noFrame 0 s' := by
  have hgood := hI.managed h hframe hres
  dsimp only [PhysicalMemory.releaseRef] at hok
  split at hok
  case isTrue hlast =>
    obtain ⟨extents, hregion, ⟨⟩⟩ := ok_of_bind hok
    rw [hlast]
    have hdrop := hI.dropLast h hgood hframe hfree
    rw [Nat.add_comm] at hdrop
    exact hI.release noFrame hdrop
      (fun f => by simp only [noFrame, false_or, or_false]; omega) (fun f hf => hf.elim) hregion
  case isFalse hmore =>
    cases hok
    exact hI.setRef h hgood hfree hmore

lemma freeFrameLocked (h : I noFrame 0 s) (hok : freeFrameLocked s ptr = .ok s') :
    I noFrame 0 s' := by
  dsimp only [PhysicalMemory.freeFrameLocked] at hok
  split at hok
  · cases hok; exact h
  split at hok
  · cases hok; exact h
  case isFalse hframe =>
    obtain ⟨hrefs, hok⟩ := else_of_ite hok
    obtain ⟨hfree, hres⟩ := not_or.mp hrefs
    exact hI.releaseRef h (by omega) hfree hres hok

lemma decRef (h : I noFrame 0 s) (hok : pmmDecRef s ptr = .ok s') : I noFrame 0 s' := by
  dsimp only [pmmDecRef] at hok
  split at hok
  · cases hok; exact h
  split at hok
  · cases hok; exact h
  split at hok
  · cases hok; exact h
  split at hok
  · cases hok; exact h
  case isFalse hframe hres =>
    obtain ⟨hfree, hok⟩ := else_of_ite hok
    exact hI.releaseRef h (by omega) hfree hres hok

/-- Adding a frame to the batch, before `used_frames` is decremented for it. -/
lemma batchFrame (h : I (Within batch) batch.count s)
    (hgood : good frame) (hframe : frame < s.totalFrames) (hfree : s.refCounts frame ≠ refFree)
    (hok : batchFrame { s with refCounts := fillRefs s.refCounts frame 1 refFree } batch frame =
      .ok (s', batch')) :
    I (Within batch') batch'.count { s' with usedFrames := Word.sub s'.usedFrames 1 } := by
  have hdrop := hI.dropLast h hgood hframe hfree
  have hpend : ∀ {b : Extent},
      (∀ f, Within b f ↔ Within batch f ∨ f = frame) →
      (fun f => Within batch f ∨ f = frame) = Within b :=
    fun hb => funext fun f => propext (hb f).symm
  unfold PhysicalMemory.batchFrame at hok
  split at hok
  case isTrue hempty =>
    cases hok
    have heq := hpend (b := ⟨frame, 1⟩) (by
      intro f
      simp only [within_extent]
      omega)
    rwa [heq, hempty] at hdrop
  case isFalse hsome =>
    split at hok
    case isTrue hadj =>
      cases hok
      have heq := hpend (b := ⟨batch.start, batch.count + 1⟩) (by
        intro f
        simp only [within_extent]
        omega)
      rwa [heq] at hdrop
    · obtain ⟨extents, hregion, ⟨⟩⟩ := ok_of_bind hok
      have hone (f : Nat) : Within (⟨frame, 1⟩ : Extent) f ↔ f = frame := by
        simp only [within_extent]
        omega
      have hrel := hI.release (Within (⟨frame, 1⟩ : Extent)) hdrop
        (fun f => or_congr Iff.rfl (hone f).symm)
        (fun f hf hb => hfree (hI.unpended h ((hone f).mp hf ▸ hb))) hregion
      exact hrel

lemma freeContiguousLoop (h : I (Within batch) batch.count s)
    (hok : freeContiguousLoop n frame s batch = .ok (s', batch')) :
    I (Within batch') batch'.count s' := by
  induction n generalizing frame s batch with
  | zero => cases hok; exact h
  | succ n ih =>
    dsimp only [PhysicalMemory.freeContiguousLoop] at hok
    split at hok
    · cases hok; exact h
    case isFalse hframe =>
      obtain ⟨hrefs, hok⟩ := else_of_ite hok
      obtain ⟨hfree, hres⟩ := not_or.mp hrefs
      have hgood := hI.managed h (by omega) hres
      split at hok
      case isTrue hlast =>
        obtain ⟨⟨mid, next⟩, hbatch, hok⟩ := ok_of_bind hok
        rw [hlast] at hbatch
        exact ih (hI.batchFrame h hgood (by omega) hfree hbatch) hok
      case isFalse hmore => exact ih (hI.setRef h hgood hfree hmore) hok

section
variable (h : I noFrame 0 s)
include h

lemma freeContiguous (hok : pmmFreeContiguous s ptr count = .ok s') : I noFrame 0 s' := by
  dsimp only [pmmFreeContiguous] at hok
  split at hok
  · cases hok; exact h
  split at hok
  · cases hok; exact h
  split at hok
  · cases hok; exact h
  obtain ⟨⟨mid, batch⟩, hloop, hok⟩ := ok_of_bind hok
  obtain ⟨extents, hregion, ⟨⟩⟩ := ok_of_bind hok
  rw [freeRegionIfAny_eq] at hregion
  have hstart : I (Within (⟨0, 0⟩ : Extent)) 0 s := by
    have heq : Within (⟨0, 0⟩ : Extent) = noFrame := by
      funext f
      simp [noFrame]
    rwa [heq]
  exact hI.release noFrame (hI.freeContiguousLoop hstart hloop)
    (fun f => by simp [noFrame]) (fun f hf => hf.elim) hregion

lemma registerRegion {nodeId base length : Nat} :
    I noFrame 0 (pmmRegisterRegion s nodeId base length) := by
  dsimp only [pmmRegisterRegion]
  split
  · exact h
  · exact hI.setNodes _ h

lemma flushFrames (hok : flushFrames frames s = .ok s') : I noFrame 0 s' := by
  induction frames generalizing s with
  | nil => cases hok; exact h
  | cons frame rest ih =>
    obtain ⟨mid, hfree, hok⟩ := ok_of_bind hok
    exact ih (hI.freeFrameLocked h hfree) hok

lemma allocFromOrder (hok : allocFromOrder s order = .ok (ptr, s')) :
    I noFrame 0 s' ∧ ∀ f ∈ framesAt ptr 1, seen f := by
  induction order with
  | nil =>
    cases hok
    exact ⟨h, by simp⟩
  | cons node rest ih =>
    obtain ⟨result, hclaim, hok⟩ := ok_of_bind hok
    cases result with
    | none => exact ih hok
    | some taken =>
      cases hok
      obtain ⟨hmid, hrange⟩ := hI.claim h (.inl (by decide)) hclaim
      exact ⟨hI.addUsed hmid, hI.handed hrange⟩

lemma allocContiguousAligned
    (hplain : PlainRequest count (if alignPages = 0 then 1 else alignPages))
    (hok : pmmAllocContiguousAligned s count alignPages = .ok (ptr, s')) :
    I noFrame 0 s' ∧ ∀ f ∈ framesAt ptr count, seen f := by
  have hnull : (0, s) = (ptr, s') → I noFrame 0 s' ∧ ∀ f ∈ framesAt ptr count, seen f := by
    rintro ⟨⟩
    exact ⟨h, by simp⟩
  unfold pmmAllocContiguousAligned at hok
  split at hok
  · exact hnull (Except.ok.inj hok)
  split at hok
  · exact hnull (Except.ok.inj hok)
  obtain ⟨result, hclaim, hok⟩ := ok_of_bind hok
  cases result with
  | none => exact hnull (Except.ok.inj hok)
  | some taken =>
    cases hok
    obtain ⟨hmid, hrange⟩ := hI.claim h hplain hclaim
    exact ⟨hI.addUsed hmid, hI.handed hrange⟩

end

lemma refillSingles (h : I noFrame frames.length s) (hframes : ∀ f ∈ frames, good f)
    (hok : refillSingles n s frames = .ok (s', frames')) :
    I noFrame frames'.length s' ∧ ∀ f ∈ frames', good f := by
  induction n generalizing s frames with
  | zero =>
    cases hok
    exact ⟨h, hframes⟩
  | succ n ih =>
    obtain ⟨result, hclaim, hok⟩ := ok_of_bind hok
    cases result with
    | none =>
      cases hok
      exact ⟨h, hframes⟩
    | some taken =>
      obtain ⟨hmid, hrange⟩ := hI.claim h (.inl (by decide)) hclaim
      refine ih (by simpa using hmid) (fun f hf => ?_) hok
      obtain hf | hf := mem_append.mp hf
      · exact hframes f hf
      · rw [List.mem_singleton.mp hf]
        exact hrange _ le_rfl (Nat.lt_succ_self _)

lemma refillFrames (h : I noFrame 0 s) (hok : refillFrames s = .ok (s', frames)) :
    I noFrame frames.length s' ∧ ∀ f ∈ frames, good f := by
  obtain ⟨result, hclaim, hok⟩ := ok_of_bind hok
  cases result with
  | none =>
    have hnone : I noFrame ([] : List Nat).length s := h
    exact hI.refillSingles hnone (by simp) hok
  | some taken =>
    cases hok
    obtain ⟨hmid, hrange⟩ := hI.claim h (.inl (by decide)) hclaim
    refine ⟨by simpa using hmid, fun f hf => ?_⟩
    obtain ⟨hlo, hhi⟩ := mem_range'_1.mp hf
    exact hrange f hlo hhi

end Kept

/-- The invariant with the magazines, between two calls. -/
structure Between (good : Nat → Prop) (I : (Nat → Prop) → Nat → PmmState → Prop) (pmm : Pmm) :
    Prop where
  state : I noFrame 0 pmm.state
  parked : ∀ cpu, ∀ f ∈ pmm.magazines cpu, good f

namespace Between

variable {pmm pmm' : Pmm} {cpu : Nat}

lemma update (h : Between good I pmm) {state : PmmState} (hst : I noFrame 0 state)
    {frames : List Nat} (hframes : ∀ f ∈ frames, good f) (total : Nat) :
    Between good I ⟨state, Function.update pmm.magazines cpu frames, total⟩ :=
  ⟨hst, (Function.forall_update_iff pmm.magazines fun _ frames => ∀ f ∈ frames, good f).mpr
    ⟨hframes, fun c _ => h.parked c⟩⟩

variable (hI : Kept good seen I) (h : Between good I pmm)
include hI h

lemma popMagazine (hok : popMagazine pmm cpu = .ok (frame, pmm')) :
    Between good I pmm' ∧ ∀ f ∈ framesAt (framePtr frame) 1, seen f := by
  unfold PhysicalMemory.popMagazine at hok
  split at hok <;> cases hok
  case h_2 hlast =>
    have hgood := h.parked cpu _ (mem_of_getLast? hlast)
    refine ⟨h.update h.state (fun f hf => ?_) _, hI.handed (rangeIn_one hgood)⟩
    exact h.parked cpu f (mem_of_mem_dropLast hf)

lemma magazineFlush (hok : magazineFlush pmm cpu = .ok pmm') : Between good I pmm' := by
  unfold PhysicalMemory.magazineFlush at hok
  split at hok
  · cases hok; exact h
  split at hok
  · cases hok; exact h
  · obtain ⟨mid, hflush, ⟨⟩⟩ := ok_of_bind hok
    exact h.update (hI.flushFrames h.state hflush) (by simp) _

lemma freeFrame (hframe : ptr ≠ 0 → good (ptr / pageSize))
    (hok : pmmFreeFrame pmm cpu ptr = .ok pmm') : Between good I pmm' := by
  dsimp only [pmmFreeFrame] at hok
  split at hok
  · cases hok; exact h
  case isFalse hnull =>
    have hsingle : ∀ f ∈ [ptr / pageSize], good f := by simpa using hframe hnull
    split at hok
    · split at hok
      · cases hok
        exact h.update h.state (forall_mem_append.mpr ⟨h.parked cpu, hsingle⟩) _
      · obtain ⟨mid, hflush, ⟨⟩⟩ := ok_of_bind hok
        have hmid := h.magazineFlush hI hflush
        exact hmid.update hmid.state hsingle _
    · obtain ⟨mid, hfree, ⟨⟩⟩ := ok_of_bind hok
      exact ⟨hI.freeFrameLocked h.state hfree, h.parked⟩

lemma magazineRefill {loaded : Nat} (hok : magazineRefill pmm cpu = .ok (loaded, pmm')) :
    Between good I pmm' := by
  unfold PhysicalMemory.magazineRefill at hok
  split at hok
  · cases hok; exact h
  split at hok
  · cases hok; exact h
  obtain ⟨⟨mid, frames⟩, hrefill, ⟨⟩⟩ := ok_of_bind hok
  obtain ⟨hmid, hframes⟩ := hI.refillFrames h.state hrefill
  exact h.update (hI.addUsed (by simpa using hmid)) hframes _

lemma allocLocked (hok : allocLocked pmm = .ok (ptr, pmm')) :
    Between good I pmm' ∧ ∀ f ∈ framesAt ptr 1, seen f := by
  unfold PhysicalMemory.allocLocked at hok
  split at hok
  · cases hok
    exact ⟨h, by simp⟩
  obtain ⟨⟨p, mid⟩, halloc, ⟨⟩⟩ := ok_of_bind hok
  obtain ⟨hmid, hframes⟩ := hI.allocFromOrder h.state halloc
  exact ⟨⟨hmid, h.parked⟩, hframes⟩

lemma allocFrame (hok : pmmAllocFrame pmm cpu = .ok (ptr, pmm')) :
    Between good I pmm' ∧ ∀ f ∈ framesAt ptr 1, seen f := by
  unfold pmmAllocFrame at hok
  split at hok
  · split at hok
    · obtain ⟨⟨frame, mid⟩, hpop, ⟨⟩⟩ := ok_of_bind hok
      exact h.popMagazine hI hpop
    obtain ⟨⟨loaded, mid⟩, hrefill, hok⟩ := ok_of_bind hok
    have hmid := h.magazineRefill hI hrefill
    dsimp only at hok
    split at hok
    · obtain ⟨⟨frame, last⟩, hpop, ⟨⟩⟩ := ok_of_bind hok
      exact hmid.popMagazine hI hpop
    · exact hmid.allocLocked hI hok
  · exact h.allocLocked hI hok

/-- Every call keeps the invariant and hands out frames that may be seen, if the frames it
releases are good and the invariant stands the reference that it may add. -/
lemma exec {call : Call} (hplain : PlainCall call) (hrel : ∀ f ∈ released call, good f)
    (hinc : ∀ p, call = .incRef p → I noFrame 0 (pmmIncRef pmm.state p))
    (hok : exec pmm call = .ok (ptr, pmm')) :
    Between good I pmm' ∧ ∀ f ∈ handedOut ptr call, seen f := by
  unfold PhysicalMemory.exec at hok
  cases call with
  | allocFrame cpu => exact h.allocFrame hI hok
  | freeFrame cpu p =>
    obtain ⟨mid, hfree, ⟨⟩⟩ := ok_of_bind hok
    refine ⟨h.freeFrame hI (fun hnull => hrel _ ?_) hfree, by simp [handedOut]⟩
    rw [released, framesAt_one hnull]
    exact Multiset.mem_singleton_self _
  | allocContiguous count =>
    obtain ⟨s', hrun, rfl⟩ := locked_ok hok
    obtain ⟨hst, hframes⟩ := hI.allocContiguousAligned h.state (.inr ⟨rfl, hplain⟩) hrun
    exact ⟨⟨hst, h.parked⟩, hframes⟩
  | allocContiguousAligned count alignPages =>
    obtain ⟨s', hrun, rfl⟩ := locked_ok hok
    obtain ⟨hst, hframes⟩ := hI.allocContiguousAligned h.state (.inl hplain) hrun
    exact ⟨⟨hst, h.parked⟩, hframes⟩
  | freeContiguous p count =>
    obtain ⟨s', hrun, rfl⟩ := locked_ok hok
    obtain ⟨mid, hfree, ⟨⟩⟩ := ok_of_bind hrun
    exact ⟨⟨hI.freeContiguous h.state hfree, h.parked⟩, by simp [handedOut]⟩
  | incRef p =>
    obtain ⟨s', hrun, rfl⟩ := locked_ok hok
    cases hrun
    exact ⟨⟨hinc p rfl, h.parked⟩, by simp [handedOut]⟩
  | decRef p =>
    obtain ⟨s', hrun, rfl⟩ := locked_ok hok
    obtain ⟨mid, hfree, ⟨⟩⟩ := ok_of_bind hrun
    exact ⟨⟨hI.decRef h.state hfree, h.parked⟩, by simp [handedOut]⟩
  | flushMagazines cpu =>
    obtain ⟨mid, hflush, ⟨⟩⟩ := ok_of_bind hok
    exact ⟨h.magazineFlush hI hflush, by simp [handedOut]⟩
  | registerRegion nodeId base length =>
    obtain ⟨s', hrun, rfl⟩ := locked_ok hok
    cases hrun
    exact ⟨⟨hI.registerRegion h.state, h.parked⟩, by simp [handedOut]⟩

end Between

end Singularity.PhysicalMemory
