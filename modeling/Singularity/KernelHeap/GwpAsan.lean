import Singularity.KernelHeap.VmArena

/-!
# The sampled allocations of GWP-ASAN

One of `GWP_ASAN_SAMPLE_RATE` small requests is answered from a slot of three pages
of its own: a guard page, the data page and another guard page. A slot is used once;
after the release its data page stays unmapped, so that later accesses fault.
-/

namespace Singularity.KernelHeap

open Foundation

def gwpAsanSlots : Nat := 64
def gwpAsanSampleRate : Nat := 16
def gwpVirtBase : Nat := 0xFFFFB00000000000
def gwpVirtLimit : Nat := gwpVirtBase + gwpAsanSlots * 4 * pageSize
def slotStride : Nat := 3 * pageSize

inductive GwpSlotState where
  | free
  | active
  | freed
  deriving DecidableEq

structure GwpSlot where
  userPtr : Nat
  userSize : Nat
  allocCaller : Nat
  freeCaller : Nat
  state : GwpSlotState
  deriving DecidableEq

def slotBase (idx : Nat) : Nat := gwpVirtBase + idx * slotStride
def slotDataPage (idx : Nat) : Nat := slotBase idx + pageSize

def gwpAsanIsManaged (ptr : Nat) : Prop := gwpVirtBase ≤ ptr ∧ ptr < gwpVirtLimit

instance (ptr : Nat) : Decidable (gwpAsanIsManaged ptr) := inferInstanceAs (Decidable (_ ∧ _))

structure Gwp where
  initialized : Bool
  sampleCounter : Nat
  slots : Nat → GwpSlot

namespace Gwp

/-- Before `gwp_asan_init` nothing is sampled. -/
def uninitialized : Gwp := ⟨false, 0, fun _ => ⟨0, 0, 0, 0, .free⟩⟩

def init : Gwp := { uninitialized with initialized := true }

/-- Every sixteenth request is sampled; the counter is a 32-bit word. -/
def shouldSample (g : Gwp) : Bool × Gwp :=
  if g.initialized then
    (g.sampleCounter % gwpAsanSampleRate == 0,
      { g with sampleCounter := (g.sampleCounter + 1) % 2 ^ 32 })
  else (false, g)

/-- The first slot that passes a test. -/
def findSlot (g : Gwp) (p : GwpSlot → Bool) : Option Nat :=
  (List.range gwpAsanSlots).find? fun i => p (g.slots i)

/-- The object stands at the end of the data page, at a multiple of eight. -/
def userVirt (idx size : Nat) : Nat :=
  let virt := (slotDataPage idx + pageSize - size) &&& Word.compl 7
  if virt < slotDataPage idx then slotDataPage idx else virt

def activate (g : Gwp) (idx size caller : Nat) : Gwp :=
  { g with slots := Function.update g.slots idx ⟨userVirt idx size, size, caller, 0, .active⟩ }

def retire (g : Gwp) (idx caller : Nat) : Gwp :=
  { g with
    slots := Function.update g.slots idx
      { g.slots idx with freeCaller := caller, state := .freed } }

end Gwp

/-- The kinds of access `gwp_asan_check_fault` tells apart. -/
inductive GwpAccess where
  | bufferOverflow
  | bufferUnderflow
  | guardPageViolation
  deriving DecidableEq

/-- The panics of `gwp_asan_check_fault` with the values they print. -/
inductive GwpReport where
  | useAfterFree (faultAddr userPtr userSize allocCaller freeCaller : Nat)
  | outOfBounds (kind : GwpAccess) (faultAddr userPtr userSize allocCaller : Nat)
  | unallocated (slot faultAddr : Nat)
  deriving DecidableEq

/-- The report for a faulting address; no result if the address is not in a slot. -/
def Gwp.checkFault (g : Gwp) (faultAddr : Nat) : Option GwpReport :=
  if ¬ g.initialized then none
  else if faultAddr < gwpVirtBase ∨ gwpVirtLimit ≤ faultAddr then none
  else
    let offset := faultAddr - gwpVirtBase
    let slot := offset / slotStride
    let inSlot := offset % slotStride
    if gwpAsanSlots ≤ slot then none
    else
      let s := g.slots slot
      match s.state with
      | .freed => some (.useAfterFree faultAddr s.userPtr s.userSize s.allocCaller s.freeCaller)
      | .active =>
        let kind : GwpAccess :=
          if 2 * pageSize ≤ inSlot then .bufferOverflow
          else if inSlot < pageSize then .bufferUnderflow
          else .guardPageViolation
        some (.outOfBounds kind faultAddr s.userPtr s.userSize s.allocCaller)
      | .free => some (.unallocated slot faultAddr)

lemma slotDataPage_bounds (hi : i < gwpAsanSlots) :
    gwpVirtBase < slotDataPage i ∧ slotDataPage i + pageSize < gwpVirtLimit := by
  unfold gwpAsanSlots at hi
  unfold slotDataPage slotBase gwpVirtLimit gwpVirtBase slotStride gwpAsanSlots pageSize
  omega

lemma slotDataPage_injective (h : slotDataPage i = slotDataPage j) : i = j := by
  unfold slotDataPage slotBase slotStride pageSize at h
  omega

lemma heapEnd_lt_gwp : heapEnd < gwpVirtBase := by decide

/-- The object of an active slot lies in the data page of the slot, and the data pages of
the other slots are not mapped. -/
structure GwpOk (g : Gwp) (frames : Nat → Nat) : Prop where
  object : ∀ i < gwpAsanSlots, (g.slots i).state = .active →
    slotDataPage i ≤ (g.slots i).userPtr ∧
      (g.slots i).userPtr + (g.slots i).userSize ≤ slotDataPage i + pageSize
  unmapped : ∀ i < gwpAsanSlots, (g.slots i).state ≠ .active → frames (slotDataPage i) = 0

lemma GwpOk.congr (h : GwpOk g frames) (hslots : g'.slots = g.slots)
    (hframes : ∀ v, heapEnd < v → frames' v = frames v) : GwpOk g' frames' := by
  refine ⟨fun i hi hact => ?_, fun i hi hact => ?_⟩
  · rw [hslots] at hact ⊢
    exact h.object i hi hact
  · rw [hslots] at hact
    rw [hframes _ (heapEnd_lt_gwp.trans (slotDataPage_bounds hi).1)]
    exact h.unmapped i hi hact

end Singularity.KernelHeap
