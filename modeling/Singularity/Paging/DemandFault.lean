import Singularity.KernelHeap.GwpAsan
import Singularity.Paging.Walk

/-!
# The page-fault handler and demand paging

`handleDemandFault` takes a frame before it looks at the tables, and gives it back unless the
entry of the page waits for one. `page_fault_handler` resumes the faulting instruction if the
answer is `true`; otherwise a fault in the slots of GWP-ASAN goes to `gwp_asan_check_fault`. The
copy-on-write handler, for pages that are present, is a parameter.
-/

namespace Singularity.Paging

open Foundation Option KernelHeap
open Singularity.KernelHeap (Gwp GwpReport gwpAsanIsManaged)

def pageDemand : Nat := 0x400

variable {σ : Type} {frame : Nat}

/-- The entry of a demand page with the frame it waited for. -/
def demandEntry (e frame : Nat) : Nat :=
  frame ||| ((e &&& (0xFFF ||| pageNx ||| pageGlobal)) &&& Word.compl pageDemand ||| pagePresent)

def handleDemandFault (source : FrameSource σ) (cr3 : Nat) (t : Tables) (frames : σ)
    (faultAddr : Nat) : Option (Bool × Tables × σ) := do
  let page := faultAddr &&& Word.compl 0xFFF
  let (frame, frames) ← source.alloc frames
  if frame = 0 then some (false, t, frames)
  else
    let t := t.zero frame
    let ix := getIndexes page
    let pdp := getNextLevel t (getAddress cr3) ix.p4
    if pdp = 0 then do
      let frames ← source.free frames frame
      some (false, t, frames)
    else
      let pd := getNextLevel t pdp ix.p3
      if pd = 0 then do
        let frames ← source.free frames frame
        some (false, t, frames)
      else
        let pt := getNextLevel t pd ix.p2
        if pt = 0 then do
          let frames ← source.free frames frame
          some (false, t, frames)
        else
          let e := t pt ix.p1
          if getFlag e pagePresent || !getFlag e pageDemand then do
            let frames ← source.free frames frame
            some (true, t, frames)
          else some (true, t.setRaw pt ix.p1 (demandEntry e frame), frames)

/-- The part of the interrupt frame that the handler reads. -/
structure Registers where
  rip : Nat
  errCode : Nat
  deriving DecidableEq

inductive FaultType where
  | nxViolation
  | reservedBit
  | notPresent
  | writeToReadOnly
  | unknown
  deriving DecidableEq

namespace Registers

def present (regs : Registers) : Bool := getFlag regs.errCode 0x01
def write (regs : Registers) : Bool := getFlag regs.errCode 0x02
def user (regs : Registers) : Bool := getFlag regs.errCode 0x04
def reserved (regs : Registers) : Bool := getFlag regs.errCode 0x08
def nxFetch (regs : Registers) : Bool := getFlag regs.errCode 0x10

def faultType (regs : Registers) : FaultType :=
  if regs.nxFetch then .nxViolation
  else if regs.reserved then .reservedBit
  else if !regs.present then .notPresent
  else if regs.write then .writeToReadOnly
  else .unknown

end Registers

/-- How the handler ends: the processor halts, resumes the instruction, or the kernel
panics with the values it prints. -/
inductive FaultOutcome where
  | halt
  | resume
  | gwpAsan (report : GwpReport)
  | panic (addr : Nat) (regs : Registers) (type : FaultType)
  deriving DecidableEq

/-- The call of `gwp_asan_check_fault` and what follows if it returns. -/
def checkGwpFault (gwp : Gwp) (regs : Registers) (addr : Nat) : FaultOutcome :=
  match gwp.checkFault addr with
  | some report => .gwpAsan report
  | none => .panic addr regs regs.faultType

def pageFaultHandler (source : FrameSource σ)
    (handleCowFault : Tables → σ → Nat → Option (Bool × Tables × σ))
    (globalPanicActive gPaging : Bool) (gwp : Gwp) (cr3 : Nat) (regs : Registers) (addr : Nat)
    (t : Tables) (frames : σ) : Option (FaultOutcome × Tables × σ) :=
  if globalPanicActive then some (.halt, t, frames)
  else do
    let (resolved, t, frames) ←
      if !regs.present && gPaging then handleDemandFault source cr3 t frames addr
      else some (false, t, frames)
    if resolved then some (.resume, t, frames)
    else do
      let (resolved, t, frames) ←
        if regs.present && regs.write && !regs.user && !regs.nxFetch && gPaging then
          handleCowFault t frames addr
        else some (false, t, frames)
      if resolved then some (.resume, t, frames)
      else if !regs.user && decide (gwpAsanIsManaged addr) then
        some (checkGwpFault gwp regs addr, t, frames)
      else some (.panic addr regs regs.faultType, t, frames)

/-- A page that waits for a frame. -/
def OnDemand (t : Tables) (cr3 virt : Nat) : Prop :=
  pageTable t cr3 virt ≠ 0 ∧ getFlag (pageEntry t cr3 virt) pageDemand = true

/-- What the answer to a fault is to mean: `frame` is the frame that was taken, null if there
was none, and `frames` the allocator without it. The frame itself is no page table. -/
structure Answered (source : FrameSource σ) (cr3 : Nat) (t : Tables) (frames₀ : σ) (addr : Nat)
    (frame : Nat) (frames : σ) (resolved : Bool) (t' : Tables) (frames' : σ) : Prop where
  present : resolved = true → (walk t' cr3 addr).isSome = true
  unchanged : resolved = false → ∀ table i, table ≠ frame → t' table i = t table i
  frame : frame ≠ 0 → walk t' cr3 addr = some (frame + addr % 2 ^ 12) ∧ frames' = frames ∨
    source.free frames frame = some frames'
  gwp : gwpAsanIsManaged addr → walk t cr3 addr = none → ¬ OnDemand t cr3 addr →
    ∀ handleCowFault gwp regs, regs.present = false → regs.user = false →
      pageFaultHandler source handleCowFault false true gwp cr3 regs addr t frames₀ =
        some (checkGwpFault gwp regs addr, t', frames')

lemma getAddress_demandEntry (halign : frame % 2 ^ 12 = 0) (hlt : frame < 2 ^ 52) :
    getAddress (demandEntry e frame) = frame := by
  have hflags : ((e &&& (0xFFF ||| pageNx ||| pageGlobal)) &&& Word.compl pageDemand |||
      pagePresent) &&& addressMask = 0 := by
    have hmask :
        (0xFFF ||| pageNx ||| pageGlobal) &&& Word.compl pageDemand &&& addressMask = 0 := by decide
    have hpres : pagePresent &&& addressMask = 0 := by decide
    rw [Nat.and_or_distrib_right, hpres, Nat.or_zero, Nat.and_assoc, Nat.and_assoc,
      ← Nat.and_assoc _ _ addressMask, hmask, Nat.and_zero]
  have hframe : frame &&& addressMask = frame := by
    have heq := getAddress_eq frame
    unfold getAddress at heq
    rw [heq]
    omega
  rw [demandEntry, getAddress, Nat.and_or_distrib_right, hframe, hflags, Nat.or_zero]

lemma present_demandEntry (halign : frame % 2 ^ 12 = 0) :
    getFlag (demandEntry e frame) pagePresent = true := by
  rw [demandEntry, present_or halign, Nat.testBit_or]
  have hbit : pagePresent.testBit 0 = true := by decide
  rw [hbit, Bool.or_true]

section
variable {source : FrameSource σ} {cr3 addr : Nat} {t t' : Tables} {frames₀ frames frames' : σ}
  {resolved : Bool}

/-- The handler by the page table and the entry it finds. -/
lemma handleDemandFault_eq (haddr : addr < 2 ^ 64)
    (halloc : source.alloc frames₀ = some (frame, frames)) :
    handleDemandFault source cr3 t frames₀ addr =
      if frame = 0 then some (false, t, frames)
      else if pageTable (t.zero frame) cr3 addr = 0 then
        (source.free frames frame).map fun frames => (false, t.zero frame, frames)
      else if getFlag (pageEntry (t.zero frame) cr3 addr) pagePresent ||
          !getFlag (pageEntry (t.zero frame) cr3 addr) pageDemand then
        (source.free frames frame).map fun frames => (true, t.zero frame, frames)
      else some (true, (t.zero frame).setRaw (pageTable (t.zero frame) cr3 addr)
        (getIndexes addr).p1 (demandEntry (pageEntry (t.zero frame) cr3 addr) frame), frames) := by
  have hmap : ∀ r : Bool, (source.free frames frame).bind (fun frames =>
      some (r, t.zero frame, frames)) =
        (source.free frames frame).map fun frames => (r, t.zero frame, frames) := fun r => by
    cases source.free frames frame <;> rfl
  simp only [handleDemandFault, halloc, getIndexes_page haddr, bind_eq_bind,
    bind_some, hmap, pageEntry]
  by_cases hframe : frame = 0
  · simp only [if_pos hframe]
  by_cases hpdp : getNextLevel (t.zero frame) (getAddress cr3) (getIndexes addr).p4 = 0
  · simp [pageTable, hpdp]
  by_cases hpd : getNextLevel (t.zero frame)
      (getNextLevel (t.zero frame) (getAddress cr3) (getIndexes addr).p4)
      (getIndexes addr).p3 = 0
  · simp [pageTable, hpdp, hpd]
  · simp only [pageTable, if_neg hpdp, if_neg hpd]

lemma pageFaultHandler_notPresent
    (hret : handleDemandFault source cr3 t frames₀ addr = some (resolved, t', frames'))
    (hmanaged : gwpAsanIsManaged addr)
    (handleCowFault : Tables → σ → Nat → Option (Bool × Tables × σ)) (gwp : Gwp)
    {regs : Registers} (hpres : regs.present = false) (huser : regs.user = false) :
    pageFaultHandler source handleCowFault false true gwp cr3 regs addr t frames₀ =
      some (if resolved then .resume else checkGwpFault gwp regs addr, t', frames') := by
  cases resolved with
  | true => simp [pageFaultHandler, hpres, hret]
  | false => simp [pageFaultHandler, hpres, huser, hret, hmanaged]

lemma ne_zero_of_getFlag (hflag : getFlag entry bit = true) : entry ≠ 0 := by
  rintro rfl
  rw [getFlag_zero] at hflag
  cases hflag

lemma walk_of_zero (hne : pageTable (t.zero frame) cr3 addr ≠ 0)
    (hpres : getFlag (pageEntry (t.zero frame) cr3 addr) pagePresent = true) :
    walk t cr3 addr ≠ none := by
  have hentry := ne_zero_of_getFlag hpres
  have htab := pageTable_zero hne
  rw [pageEntry_zero hne hentry] at hpres
  rw [htab] at hne
  rw [walk_eq_of_pageTable hne, if_pos hpres]
  exact some_ne_none _

lemma onDemand_of_zero (hne : pageTable (t.zero frame) cr3 addr ≠ 0)
    (hdemand : getFlag (pageEntry (t.zero frame) cr3 addr) pageDemand = true) :
    OnDemand t cr3 addr := by
  have hentry := ne_zero_of_getFlag hdemand
  refine ⟨?_, ?_⟩
  · rwa [← pageTable_zero hne]
  · rwa [← pageEntry_zero hne hentry]

lemma walk_demandEntry (hne : pageTable t cr3 addr ≠ 0)
    (hpres : getFlag (pageEntry t cr3 addr) pagePresent = false) (halign : frame % 2 ^ 12 = 0)
    (hlt : frame < 2 ^ 52) :
    walk (t.setRaw (pageTable t cr3 addr) (getIndexes addr).p1
      (demandEntry (pageEntry t cr3 addr) frame)) cr3 addr = some (frame + addr % 2 ^ 12) := by
  have htab := pageTable_setRaw (demandEntry (pageEntry t cr3 addr) frame) hne hpres
  have hentry : pageEntry (t.setRaw (pageTable t cr3 addr) (getIndexes addr).p1
      (demandEntry (pageEntry t cr3 addr) frame)) cr3 addr =
        demandEntry (pageEntry t cr3 addr) frame := by
    unfold pageEntry at htab ⊢
    rw [htab]
    simp [Tables.setRaw]
  have hne' := hne
  rw [← htab] at hne'
  rw [walk_eq_of_pageTable hne', hentry, if_pos (present_demandEntry halign),
    getAddress_demandEntry halign hlt]

/-- The answer is right unless there is a frame and the page has a page-table entry that is
neither present nor waits for a frame. -/
theorem handleDemandFault_answered_iff (haddr : addr < 2 ^ 64)
    (halloc : source.alloc frames₀ = some (frame, frames)) (halign : frame % 2 ^ 12 = 0)
    (hlt : frame < 2 ^ 52)
    (hret : handleDemandFault source cr3 t frames₀ addr = some (resolved, t', frames')) :
    Answered source cr3 t frames₀ addr frame frames resolved t' frames' ↔
      frame = 0 ∨ pageTable (t.zero frame) cr3 addr = 0 ∨
        getFlag (pageEntry (t.zero frame) cr3 addr) pagePresent = true ∨
        getFlag (pageEntry (t.zero frame) cr3 addr) pageDemand = true := by
  have hhandler := pageFaultHandler_notPresent hret
  rw [handleDemandFault_eq haddr halloc] at hret
  by_cases hframe : frame = 0
  · rw [if_pos hframe] at hret
    cases hret
    refine iff_of_true ⟨fun h => absurd h (by decide), fun _ _ _ _ => rfl,
      fun hne => absurd hframe hne, fun hmanaged _ _ cow gwp regs hpres huser => ?_⟩ (.inl hframe)
    exact hhandler hmanaged cow gwp hpres huser
  rw [if_neg hframe] at hret
  by_cases hpt : pageTable (t.zero frame) cr3 addr = 0
  · rw [if_pos hpt] at hret
    obtain ⟨_, hfree, ⟨⟩⟩ := map_eq_some_iff.mp hret
    refine iff_of_true ⟨fun h => absurd h (by decide), fun _ table i hne => if_neg hne,
      fun _ => .inr hfree, fun hmanaged _ _ cow gwp regs hpres huser => ?_⟩
      (.inr (.inl hpt))
    exact hhandler hmanaged cow gwp hpres huser
  rw [if_neg hpt] at hret
  by_cases hpres : getFlag (pageEntry (t.zero frame) cr3 addr) pagePresent = true
  · rw [if_pos (by rw [hpres, Bool.true_or])] at hret
    obtain ⟨_, hfree, ⟨⟩⟩ := map_eq_some_iff.mp hret
    refine iff_of_true ⟨fun _ => ?_, fun h => absurd h (by decide), fun _ => .inr hfree,
      fun _ hnone => absurd hnone (walk_of_zero hpt hpres)⟩ (.inr (.inr (.inl hpres)))
    rw [walk_eq_of_pageTable hpt, if_pos hpres]
    rfl
  by_cases hdemand : getFlag (pageEntry (t.zero frame) cr3 addr) pageDemand = true
  · rw [if_neg (by simp [hpres, hdemand])] at hret
    cases hret
    have hmapped := walk_demandEntry hpt (Bool.not_eq_true _ ▸ hpres) halign hlt
    refine iff_of_true ⟨fun _ => ?_, fun h => absurd h (by decide),
      fun _ => .inl ⟨hmapped, rfl⟩, fun _ _ hnot => absurd (onDemand_of_zero hpt hdemand) hnot⟩
      (.inr (.inr (.inr hdemand)))
    rw [hmapped]
    rfl
  · -- the entry is neither present nor waits for a frame, and yet the answer is `true`
    rw [if_pos (by simp [hpres, hdemand])] at hret
    obtain ⟨_, hfree, ⟨⟩⟩ := map_eq_some_iff.mp hret
    refine iff_of_false (fun hanswered => ?_) (by simp [hframe, hpt, hpres, hdemand])
    have hsome := hanswered.present rfl
    rw [walk_eq_of_pageTable hpt, if_neg hpres] at hsome
    cases hsome

end

/-- Frames from a list; the null pointer is returned when it is empty. -/
def frameList : FrameSource (List Nat) where
  alloc
    | [] => some (0, [])
    | frame :: frames => some (frame, frames)
  free frames frame := some (frame :: frames)

/-- Tables at `0x1000` in which the data page of the first GWP-ASAN slot has an entry. -/
def slotTables (phys flags : Nat) : Option (Bool × Tables × List Nat) :=
  mapPagesBulk frameList true 0x1000 (fun _ _ => 0) [0x2000, 0x3000, 0x4000, 0x5000]
    (KernelHeap.slotDataPage 0) phys 1 flags

theorem slotTables_demand_answered :
    ∃ t t' frames', slotTables 0 (pageDemand ||| pageWrite) = some (true, t, [0x5000]) ∧
      Answered frameList 0x1000 t [0x5000] (KernelHeap.slotDataPage 0) 0x5000 [] true t' frames' ∧
      walk t' 0x1000 (KernelHeap.slotDataPage 0) = some 0x5000 := by
  have hrun : (slotTables 0 (pageDemand ||| pageWrite)).any (fun r =>
      r.1 && decide (r.2.2 = [0x5000]) &&
      getFlag (pageEntry (Tables.zero r.2.1 0x5000) 0x1000 (slotDataPage 0))
        pageDemand &&
      (handleDemandFault frameList 0x1000 r.2.1 [0x5000] (slotDataPage 0)).any fun r =>
        r.1 && decide (walk r.2.1 0x1000 (slotDataPage 0) = some 0x5000)) = true := by
    decide +kernel
  obtain ⟨⟨done, t, frames⟩, htables, hrun⟩ := (any_eq_true _ _).mp hrun
  simp only [Bool.and_eq_true, decide_eq_true_eq] at hrun
  obtain ⟨⟨⟨rfl, rfl⟩, hdemand⟩, hfault⟩ := hrun
  obtain ⟨⟨resolved, t', frames'⟩, hfault, hans⟩ := (any_eq_true _ _).mp hfault
  simp only [Bool.and_eq_true, decide_eq_true_eq] at hans
  obtain ⟨rfl, hwalk⟩ := hans
  refine ⟨t, t', frames', htables, ?_, hwalk⟩
  exact (handleDemandFault_answered_iff (by decide) rfl (by decide) (by decide) hfault).mpr
    (.inr (.inr (.inr hdemand)))

/-- The first GWP-ASAN slot is freed and its page unmapped: an access to it is resumed, with the
page still missing, although `gwp_asan_check_fault` would report the use after free. -/
theorem freed_slot_fault_resumed :
    ∃ t t' frames frames',
      slotTables 0x8000 (pagePresent ||| pageWrite ||| pageNx) = some (true, t, frames) ∧
      let gwp := ((Gwp.init.activate 0 64 0).retire 0 0)
      let addr := KernelHeap.slotDataPage 0
      let freed := unmapPage 0x1000 t addr
      walk t 0x1000 addr = some 0x8000 ∧ walk freed 0x1000 addr = none ∧
        ¬ OnDemand freed 0x1000 addr ∧
        gwp.checkFault addr = some (.useAfterFree addr (addr + 4032) 64 0 0) ∧
        pageFaultHandler frameList (fun t frames _ => some (false, t, frames)) false true gwp
          0x1000 ⟨0, 0⟩ addr freed (0x8000 :: frames) = some (.resume, t', frames') ∧
        walk t' 0x1000 addr = none := by
  have hrun : (slotTables 0x8000 (pagePresent ||| pageWrite ||| pageNx)).any (fun r =>
      let gwp := ((Gwp.init.activate 0 64 0).retire 0 0)
      let addr := slotDataPage 0
      let freed := unmapPage 0x1000 r.2.1 addr
      r.1 && decide (walk r.2.1 0x1000 addr = some 0x8000) &&
      decide (walk freed 0x1000 addr = none) &&
      decide (getFlag (pageEntry freed 0x1000 addr) pageDemand = false) &&
      decide (gwp.checkFault addr = some (.useAfterFree addr (addr + 4032) 64 0 0)) &&
      (pageFaultHandler frameList (fun t frames _ => some (false, t, frames)) false true gwp
        0x1000 ⟨0, 0⟩ addr freed (0x8000 :: r.2.2)).any fun r =>
          decide (r.1 = .resume) && decide (walk r.2.1 0x1000 addr = none)) = true := by
    decide +kernel
  obtain ⟨⟨done, t, frames⟩, htables, hrun⟩ := (any_eq_true _ _).mp hrun
  simp only [Bool.and_eq_true, decide_eq_true_eq] at hrun
  obtain ⟨⟨⟨⟨⟨rfl, hmapped⟩, hfreed⟩, hdemand⟩, hcheck⟩, hfault⟩ := hrun
  obtain ⟨⟨outcome, t', frames'⟩, hfault, hans⟩ := (any_eq_true _ _).mp hfault
  simp only [Bool.and_eq_true, decide_eq_true_eq] at hans
  obtain ⟨rfl, hwalk⟩ := hans
  refine ⟨t, t', frames, frames', htables, hmapped, hfreed, ?_, hcheck, hfault, hwalk⟩
  rintro ⟨-, hon⟩
  rw [hdemand] at hon
  cases hon

end Singularity.Paging
