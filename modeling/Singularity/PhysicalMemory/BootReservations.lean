import Singularity.PhysicalMemory.Bookkeeping

/-!
# What the boot reservations keep

`pmm_init` drops extents that do not fit into the array, so the frames it leaves allocatable
depend on how many runs of free frames lie below them. The first part computes these frames from
the multiboot block alone. The second part compares them with the bytes that must not be handed
out: low memory, the kernel image, the multiboot block, the reference-count array and the boot
modules that `kmain` reads later.
-/

namespace Singularity.PhysicalMemory

open Foundation Span List MultibootInfo

/-- A well-formed extent array within its capacity that holds exactly the frames of `S`. -/
structure Holds (extents : List Extent) (S : Nat → Prop) : Prop where
  separated : Separated extents
  length_le : extents.length ≤ maxExtents
  covered : ∀ x, Covered extents x ↔ S x

namespace Holds

variable {extents : List Extent} {S T : Nat → Prop} {resStart resCount : Nat}

lemma congr (h : Holds extents S) (hST : ∀ x, S x ↔ T x) : Holds extents T :=
  ⟨h.separated, h.length_le, fun x => (h.covered x).trans (hST x)⟩

lemma runsBelow_lt [DecidablePred S] (h : Holds extents S) (hx : S x) :
    runsBelow S x < maxExtents := by
  have hcov := (h.covered x).mpr hx
  rw [← take_of_length_le h.length_le, h.separated.ordered.covered_take,
    h.separated.countP_hi_le] at hcov
  rw [← runsBelow_congr fun y _ => h.covered y]
  exact hcov.2

lemma of_take [DecidablePred S] (hsep : Separated pieces)
    (hcov : ∀ x, Covered pieces x ↔ S x) :
    Holds (pieces.take maxExtents) fun x => S x ∧ runsBelow S x < maxExtents where
  separated := hsep.sublist (List.take_sublist _ _)
  length_le := List.length_take_le _ _
  covered x := by
    rw [hsep.ordered.covered_take, hsep.countP_hi_le, hcov, runsBelow_congr fun y _ => hcov y]

section
variable [DecidablePred T] (hT : ∀ x, T x ↔ S x ∧ ¬ (resStart ≤ x ∧ x < resStart + resCount))
include hT

lemma reserve (h : Holds extents S) :
    Holds (reserveRegionInternal extents resStart resCount)
      fun x => T x ∧ runsBelow T x < maxExtents := by
  by_cases h0 : resCount = 0
  · have hST : ∀ x, S x ↔ T x := by
      intro x
      have hnot : ¬ (resStart ≤ x ∧ x < resStart + resCount) := by omega
      simp [hT, hnot]
    have hsame : reserveRegionInternal extents resStart resCount = extents := if_pos h0
    rw [hsame]
    apply h.congr
    intro x
    rw [hST]
    exact ⟨fun hx => ⟨hx, (h.congr hST).runsBelow_lt hx⟩, And.left⟩
  · have hres : resStart < resStart + resCount := by omega
    rw [reserveRegionInternal_eq (by omega)]
    apply of_take (separated_flatMap_reservePieces hres h.separated)
    intro x
    rw [covered_flatMap_reservePieces hres, h.covered, hT]

/-- A reservation on an array that was already cut: below a frame that is still
there nothing was missing, so the runs may be counted in the uncut sets. -/
lemma reserve_cut [DecidablePred S]
    (h : Holds extents fun x => S x ∧ runsBelow S x < maxExtents) :
    Holds (reserveRegionInternal extents resStart resCount)
      fun x => T x ∧ runsBelow S x < maxExtents ∧ runsBelow T x < maxExtents := by
  have hcut : ∀ x, (T x ∧ runsBelow S x < maxExtents) ↔
      (S x ∧ runsBelow S x < maxExtents) ∧ ¬ (resStart ≤ x ∧ x < resStart + resCount) := by
    intro x
    rw [hT, and_right_comm]
  apply (h.reserve hcut).congr
  intro x
  rw [and_assoc]
  apply and_congr_right
  intro _
  apply and_congr_right
  intro hruns
  have hsame : runsBelow (fun y => T y ∧ runsBelow S y < maxExtents) x =
      runsBelow T x := by
    apply runsBelow_congr
    intro y hy
    have hlt := (runsBelow_mono S hy).trans_lt hruns
    simp only [hlt, and_true]
  rw [hsame]

end

lemma reserve_below [DecidablePred S] (h : Holds extents S) (resCount : Nat)
    (hclear : ∀ x, S x → resStart ≤ x) :
    Holds (reserveRegionInternal extents resStart resCount)
      fun x => S x ∧ resStart + resCount ≤ x := by
  have hrest : ∀ x, (S x ∧ resStart + resCount ≤ x) ↔
      S x ∧ ¬ (resStart ≤ x ∧ x < resStart + resCount) := by
    intro x
    apply and_congr_right
    intro hx
    have := hclear x hx
    omega
  apply (h.reserve hrest).congr
  intro x
  refine ⟨And.left, fun hx => ⟨hx, ?_⟩⟩
  calc runsBelow (fun y => S y ∧ resStart + resCount ≤ y) x
      ≤ runsBelow S x := runsBelow_above_le S _ x
    _ < maxExtents := h.runsBelow_lt hx.1

end Holds

/-- The first frame behind low memory and the kernel image. -/
def kernelEndFrame (kernelEnd : UInt64) : Nat :=
  0x100000 / pageSize + divCeil (Word.sub kernelEnd.toNat 0x100000) pageSize

/-- The first frame behind the ones that are reserved for the multiboot block. -/
def MultibootInfo.endFrame (mb : MultibootInfo) : Nat :=
  mb.addr.toNat / pageSize + divCeil mb.size.toNat pageSize

/-- The end of the highest entry, as the scan computes it. -/
def MultibootInfo.maxRamAddr (mb : MultibootInfo) : Nat :=
  mb.entries.foldl (fun top e => max top (Word.add e.addr.toNat e.len.toNat)) 0

/-- The number of frames the manager keeps counts for. -/
def MultibootInfo.totalFrames (mb : MultibootInfo) : Nat := mb.maxRamAddr / pageSize

/-- Usable frames outside the first three reservations. -/
def OpenFrame (mb : MultibootInfo) (kernelEnd : UInt64) (f : Nat) : Prop :=
  UsableFrame mb.entries f ∧ kernelEndFrame kernelEnd ≤ f ∧
    ¬ (mb.addr.toNat / pageSize ≤ f ∧ f < mb.endFrame)

instance (mb : MultibootInfo) (kernelEnd : UInt64) : DecidablePred (OpenFrame mb kernelEnd) :=
  fun _ => inferInstanceAs (Decidable (_ ∧ _ ∧ _))

/-- Usable frames outside all four reservations. -/
def FreeFrame (mb : MultibootInfo) (kernelEnd : UInt64) (f : Nat) : Prop :=
  OpenFrame mb kernelEnd f ∧ ¬ (refStart mb kernelEnd / pageSize ≤ f ∧
    f < refStart mb kernelEnd / pageSize + divCeil mb.totalFrames pageSize)

instance (mb : MultibootInfo) (kernelEnd : UInt64) : DecidablePred (FreeFrame mb kernelEnd) :=
  fun _ => inferInstanceAs (Decidable (_ ∧ _))

/-- The frames that are allocatable after `pmm_init`: the free ones for which
neither the third nor the fourth reservation has dropped the extent. -/
def Allocatable (mb : MultibootInfo) (kernelEnd : UInt64) (f : Nat) : Prop :=
  FreeFrame mb kernelEnd f ∧ runsBelow (OpenFrame mb kernelEnd) f < maxExtents ∧
    runsBelow (FreeFrame mb kernelEnd) f < maxExtents

instance (mb : MultibootInfo) (kernelEnd : UInt64) : DecidablePred (Allocatable mb kernelEnd) :=
  fun _ => inferInstanceAs (Decidable (_ ∧ _ ∧ _))

lemma scanEntries_maxRamAddr_eq {entries : List MmapEntry} {scan scan' : Scan}
    (hok : scanEntries entries scan = .ok scan') :
    scan'.maxRamAddr =
      entries.foldl (fun top e => max top (Word.add e.addr.toNat e.len.toNat)) scan.maxRamAddr := by
  induction entries generalizing scan with
  | nil =>
    cases hok
    rfl
  | cons e rest ih =>
    obtain ⟨next, hstep, hok⟩ := ok_of_bind hok
    rw [ih hok, foldl_cons, scanEntry_maxRamAddr hstep]

variable {mb : MultibootInfo} {kernelEnd : UInt64}

lemma holds_reserveBoot (h : Holds extents (UsableFrame mb.entries)) :
    Holds (reserveBoot mb kernelEnd mb.totalFrames extents) (Allocatable mb kernelEnd) := by
  have hlow := h.reserve_below (0x100000 / pageSize) fun x _ => Nat.zero_le x
  have hkernel := hlow.reserve_below
    (divCeil (Word.sub kernelEnd.toNat 0x100000) pageSize) fun x hx => by simpa using hx.2
  have hopen : ∀ x, OpenFrame mb kernelEnd x ↔
      ((UsableFrame mb.entries x ∧ 0 + 0x100000 / pageSize ≤ x) ∧ kernelEndFrame kernelEnd ≤ x) ∧
      ¬ (mb.addr.toNat / pageSize ≤ x ∧ x < mb.endFrame) := by
    intro x
    have hle : kernelEndFrame kernelEnd ≤ x → 0 + 0x100000 / pageSize ≤ x := by
      unfold kernelEndFrame
      omega
    unfold OpenFrame
    tauto
  exact (hkernel.reserve hopen).reserve_cut fun x => Iff.rfl

/-- The extents that `pmm_init` leaves hold exactly the allocatable frames. -/
lemma pmmInit_holds {s : PmmState}
    (hmap : mb.NonOverlapping) (hok : pmmInit PmmState.static mb kernelEnd = .ok s) :
    s.totalFrames = mb.totalFrames ∧ Holds s.extents (Allocatable mb kernelEnd) := by
  obtain ⟨scan, hscan, htot, -, hextents, -⟩ := pmmInit_ok hok
  have htotal' : s.totalFrames = mb.totalFrames := by
    rw [htot, scanEntries_maxRamAddr_eq hscan]
    rfl
  obtain ⟨hsep, hcov⟩ := scanEntries_extents hmap hscan
  have hscanned : Holds scan.extents (UsableFrame mb.entries) :=
    ⟨hsep, length_scanEntries_le hscan (Nat.zero_le _), hcov⟩
  refine ⟨htotal', ?_⟩
  rw [hextents, htotal']
  exact holds_reserveBoot hscanned

/-- The bytes from `first` up to and excluding `last`. -/
structure ByteRange where
  first : Nat
  last : Nat
  deriving DecidableEq

instance : Span ByteRange where
  lo r := r.first
  hi r := r.last

@[simp] lemma lo_byteRange (r : ByteRange) : lo r = r.first := rfl

@[simp] lemma hi_byteRange (r : ByteRange) : hi r = r.last := rfl

/-- The bytes of a frame. -/
def frameBytes (f : Nat) : ByteRange := ⟨f * pageSize, (f + 1) * pageSize⟩

/-- The bytes of the multiboot block. -/
def MultibootInfo.bytes (mb : MultibootInfo) : ByteRange :=
  ⟨mb.addr.toNat, mb.addr.toNat + mb.size.toNat⟩

/-- The bytes of the reference-count array. -/
def refBytes (mb : MultibootInfo) (kernelEnd : UInt64) : ByteRange :=
  ⟨refStart mb kernelEnd, refStart mb kernelEnd + mb.totalFrames⟩

def Tag.size : Tag → UInt32
  | .mmap size _ => size
  | .module size _ _ => size
  | .other size => size

def multibootStorageSize : Nat := 32768

/-- The module loop of `kmain` over the copied block, from the tag at `offset` on:
the ranges it passes to `tar_inflater_init`. Tags that were not copied are not seen. -/
def moduleLoop (copied : Nat) : Nat → List Tag → List ByteRange
  | _, [] => []
  | offset, tag :: rest =>
    if copied < offset + 16 then []
    else
      (match tag with
      | .module _ modStart modEnd =>
        [⟨modStart.toNat, modStart.toNat + (modEnd - modStart).toNat⟩]
      | _ => []) ++
      moduleLoop copied (offset + (tag.size.toNat + 7) % 2 ^ 32 / 8 * 8) rest

/-- The boot modules that `kmain` later passes to `tar_inflater_init`. -/
def MultibootInfo.modules (mb : MultibootInfo) : List ByteRange :=
  moduleLoop (min mb.size.toNat multibootStorageSize) 8 mb.tags

/-- The bytes in use at boot besides the reference-count array: low memory, the
kernel image, the multiboot block and the boot modules. -/
def bootRegions (mb : MultibootInfo) (kernelEnd : UInt64) : List ByteRange :=
  ⟨0, 0x100000⟩ :: ⟨0x100000, kernelEnd.toNat⟩ :: mb.bytes :: mb.modules

/-- What the boot reservations are for: an allocatable frame is usable memory as
a whole and shares no byte with anything that is in use, and the reference-count
array lies apart from all the others. -/
structure BootSafe (mb : MultibootInfo) (kernelEnd : UInt64) (s : PmmState) : Prop where
  usable : ∀ f, Covered s.extents f → ∃ e ∈ mb.entries, e.typ = 1 ∧
    e.addr.toNat ≤ f * pageSize ∧ (f + 1) * pageSize ≤ e.addr.toNat + e.len.toNat
  regions : ∀ f, Covered s.extents f →
    ∀ r ∈ bootRegions mb kernelEnd, ¬ Meets (frameBytes f) r
  refs : ∀ f, Covered s.extents f → ¬ Meets (frameBytes f) (refBytes mb kernelEnd)
  refs_regions : ∀ r ∈ bootRegions mb kernelEnd, ¬ Meets (refBytes mb kernelEnd) r

/-- The boot layouts for which the rounding and the missing reservations do no harm: no usable entry
starts inside an allocatable frame, the multiboot block reaches into none behind its reserved ones,
no module is in one, and the reference-count array neither wraps around nor reaches a module. -/
structure BootCondition (mb : MultibootInfo) (kernelEnd : UInt64) : Prop where
  entries : ∀ e ∈ mb.entries, e.typ = 1 → pageSize ≤ e.len.toNat → e.addr.toNat % pageSize ≠ 0 →
    ¬ Allocatable mb kernelEnd (e.addr.toNat / pageSize)
  block : Meets (frameBytes mb.endFrame) mb.bytes → ¬ Allocatable mb kernelEnd mb.endFrame
  modules : ∀ r ∈ mb.modules, ∀ f, Allocatable mb kernelEnd f → ¬ Meets (frameBytes f) r
  array : 0 < mb.totalFrames →
    max kernelEnd.toNat (Word.add mb.addr.toNat mb.size.toNat) + pageSize ≤ 2 ^ 64 ∧
    (2 ^ 64 ≤ mb.addr.toNat + mb.size.toNat → ¬ Meets (refBytes mb kernelEnd) mb.bytes) ∧
    ∀ r ∈ mb.modules, ¬ Meets (refBytes mb kernelEnd) r

section
variable {s : PmmState} {f : Nat}

lemma refStart_eq (mb : MultibootInfo) (kernelEnd : UInt64) :
    refStart mb kernelEnd =
      Word.alignUp (max kernelEnd.toNat (Word.add mb.addr.toNat mb.size.toNat)) (2 ^ 12) := by
  dsimp only [refStart]
  split_ifs with h
  · rw [max_eq_right h.le]; rfl
  · rw [max_eq_left (Nat.le_of_not_lt h)]; rfl

lemma refStart_wrapped
    (h : 2 ^ 64 < max kernelEnd.toNat (Word.add mb.addr.toNat mb.size.toNat) + pageSize) :
    refStart mb kernelEnd = 0 := by
  have hend := Word.add_lt mb.addr.toNat mb.size.toNat
  have hkernel := kernelEnd.toNat_lt
  rw [refStart_eq, Word.alignUp_eq (by decide)]
  unfold Word.add pageSize at *
  omega

section
variable (h : Allocatable mb kernelEnd f)
include h

lemma Allocatable.kernelEnd_le (hkernel : 0x100000 ≤ kernelEnd) :
    0x100000 ≤ f * pageSize ∧ kernelEnd.toNat ≤ f * pageSize := by
  have hle := h.1.1.2.1
  have hbase : 0x100000 ≤ kernelEnd.toNat := hkernel
  unfold kernelEndFrame divCeil at hle
  rw [Word.sub_eq kernelEnd.toNat_lt hbase] at hle
  unfold pageSize at *
  omega

lemma Allocatable.not_meets_refBytes : ¬ Meets (frameBytes f) (refBytes mb kernelEnd) := by
  intro hmeets
  obtain ⟨page, hpage⟩ : pageSize ∣ refStart mb kernelEnd := by
    rw [refStart_eq]
    exact Word.dvd_alignUp (by decide) _
  have hout := h.1.2
  have hshare := meets_iff.mp hmeets
  simp only [frameBytes, refBytes, lo_byteRange, hi_byteRange] at hshare
  rw [hpage] at hout hshare
  unfold divCeil at hout
  unfold pageSize at *
  omega

lemma Allocatable.eq_endFrame (hmeets : Meets (frameBytes f) mb.bytes) : f = mb.endFrame := by
  have hout := h.1.1.2.2
  have hshare := meets_iff.mp hmeets
  simp only [frameBytes, bytes, lo_byteRange, hi_byteRange] at hshare
  unfold endFrame divCeil at *
  unfold pageSize at *
  omega

end

lemma mem_bootRegions : r ∈ bootRegions mb kernelEnd ↔
    r = ⟨0, 0x100000⟩ ∨ r = ⟨0x100000, kernelEnd.toNat⟩ ∨ r = mb.bytes ∨ r ∈ mb.modules := by
  simp only [bootRegions, mem_cons]

/-- A boot layout without harm is safe after `pmm_init`. -/
lemma bootSafe_of_condition (hkernel : 0x100000 ≤ kernelEnd)
    (hholds : Holds s.extents (Allocatable mb kernelEnd)) (h : BootCondition mb kernelEnd) :
    BootSafe mb kernelEnd s := by
  have hbase : 0x100000 ≤ kernelEnd.toNat := hkernel
  constructor
  case usable =>
    intro f hf
    have halloc := (hholds.covered f).mp hf
    obtain ⟨e, he, htyp, hframe⟩ := halloc.1.1.1
    refine ⟨e, he, htyp, ?_⟩
    -- An unaligned entry contributes the frame before its first byte.
    have hfirst : e.addr.toNat % pageSize ≠ 0 → f ≠ e.addr.toNat / pageSize := by
      rintro hmis rfl
      have hlen : pageSize ≤ e.len.toNat := by
        unfold MmapEntry.Frame pageSize at *
        omega
      exact h.entries e he htyp hlen hmis halloc
    unfold MmapEntry.Frame pageSize at *
    omega
  case regions =>
    intro f hf r hr
    have halloc := (hholds.covered f).mp hf
    obtain ⟨hlow, hend⟩ := halloc.kernelEnd_le hkernel
    obtain rfl | rfl | rfl | hr := mem_bootRegions.mp hr
    iterate 2
      · simp only [meets_iff, frameBytes, lo_byteRange, hi_byteRange]
        omega
    · intro hmeets
      obtain rfl := halloc.eq_endFrame hmeets
      exact h.block hmeets halloc
    · exact h.modules r hr f halloc
  case refs =>
    intro f hf
    exact ((hholds.covered f).mp hf).not_meets_refBytes
  case refs_regions =>
    intro r hr hmeets
    have hshare := meets_iff.mp hmeets
    simp only [refBytes, lo_byteRange, hi_byteRange] at hshare
    obtain ⟨hfit, hblock, hmodules⟩ := h.array (by omega)
    have hle := Word.le_alignUp (a := 2 ^ 12) (by decide) hfit
    rw [← refStart_eq] at hle
    obtain rfl | rfl | rfl | hr := mem_bootRegions.mp hr
    · simp only at hshare
      omega
    · simp only at hshare
      omega
    · by_cases hwrap : 2 ^ 64 ≤ mb.addr.toNat + mb.size.toNat
      · exact hblock hwrap hmeets
      · rw [Word.add_eq (by omega)] at hle
        simp only [bytes] at hshare
        omega
    · exact hmodules r hr hmeets

/-- Conversely each kind of harm shows in the state after `pmm_init`. -/
lemma condition_of_bootSafe (hmap : mb.NonOverlapping)
    (hholds : Holds s.extents (Allocatable mb kernelEnd)) (h : BootSafe mb kernelEnd s) :
    BootCondition mb kernelEnd := by
  constructor
  case entries =>
    intro e he htyp hlen hmis halloc
    obtain ⟨c, hc, -, hlo, hhi⟩ := h.usable _ ((hholds.covered _).mpr halloc)
    have hee : Within e e.addr.toNat := by
      simp only [within_mmapEntry]
      unfold pageSize at hlen
      omega
    have hce : Within c e.addr.toNat := by
      simp only [within_mmapEntry]
      unfold pageSize at hlo hhi
      omega
    have hne : e ≠ c := by
      rintro rfl
      unfold pageSize at hlo hmis
      omega
    have : Std.Symm fun a b : MmapEntry => ∀ x, Within a x → ¬ Within b x :=
      ⟨fun _ _ h x hb ha => h x ha hb⟩
    exact List.Pairwise.forall hmap he hc hne _ hee hce
  case block =>
    intro hmeets halloc
    have hcov := (hholds.covered _).mpr halloc
    exact h.regions _ hcov _ (mem_bootRegions.mpr (.inr (.inr (.inl rfl)))) hmeets
  case modules =>
    intro r hr f halloc
    have hcov := (hholds.covered _).mpr halloc
    exact h.regions _ hcov r (mem_bootRegions.mpr (.inr (.inr (.inr hr))))
  case array =>
    intro htot
    refine ⟨?_, fun _ => ?_, fun r hr => ?_⟩
    · by_contra hwrap
      have h0 : refStart mb kernelEnd = 0 := refStart_wrapped (by omega)
      apply h.refs_regions _ (mem_bootRegions.mpr (.inl rfl))
      simp only [meets_iff, refBytes, lo_byteRange, hi_byteRange, h0]
      omega
    · exact h.refs_regions _ (mem_bootRegions.mpr (.inr (.inr (.inl rfl))))
    · exact h.refs_regions r (mem_bootRegions.mpr (.inr (.inr (.inr hr))))

/-- The state after `pmm_init` is safe exactly for the boot layouts without harm. -/
theorem bootSafe_iff (hmap : mb.NonOverlapping) (hkernel : 0x100000 ≤ kernelEnd)
    (hok : pmmInit PmmState.static mb kernelEnd = .ok s) :
    BootSafe mb kernelEnd s ↔ BootCondition mb kernelEnd := by
  have hholds := (pmmInit_holds hmap hok).2
  constructor
  · exact condition_of_bootSafe hmap hholds
  · exact bootSafe_of_condition hkernel hholds

end

lemma smallMachine_bootCondition : BootCondition smallMachine 0x200000 where
  entries := by decide
  block := by
    have hno : ¬ Meets (frameBytes smallMachine.endFrame) smallMachine.bytes := by
      rw [meets_iff]
      decide
    exact fun hmeets => absurd hmeets hno
  modules := by
    have hnone : smallMachine.modules = [] := by decide
    simp [hnone]
  array := by
    have hnone : smallMachine.modules = [] := by decide
    intro _
    refine ⟨by decide, fun hwrap => absurd hwrap (by decide), by simp [hnone]⟩

/-- The small machine boots safely. -/
theorem bootSafe_smallMachine :
    ∃ s, pmmInit PmmState.static smallMachine 0x200000 = .ok s ∧
      BootSafe smallMachine 0x200000 s := by
  have hsome : (pmmInit PmmState.static smallMachine 0x200000).toOption.isSome = true := by decide
  obtain ⟨s, hs⟩ := Option.isSome_iff_exists.mp hsome
  have hok := ok_of_toOption hs
  exact ⟨s, hok, (bootSafe_iff smallMachine_nonOverlapping (by decide) hok).mpr
    smallMachine_bootCondition⟩

/-- The small machine with a boot module in its third mebibyte. -/
def moduleMachine : MultibootInfo where
  addr := 0x9000
  size := 72
  tags := [.mmap 40 [⟨0, 0x400000, 1⟩], .module 16 0x300000 0x301000]

/-- The first frame of the module is free memory after `pmm_init`. -/
theorem module_frame_allocatable :
    moduleMachine.NonOverlapping ∧
      ∃ s, pmmInit PmmState.static moduleMachine 0x200000 = .ok s ∧
        Covered s.extents 0x300 ∧ ⟨0x300000, 0x301000⟩ ∈ moduleMachine.modules ∧
        ¬ BootSafe moduleMachine 0x200000 s := by
  refine ⟨pairwise_singleton _ _, ?_⟩
  have hany : ((pmmInit PmmState.static moduleMachine 0x200000).toOption.any
      fun s => decide (Covered s.extents 0x300)) = true := by decide
  obtain ⟨s, hs, hdecided⟩ := (Option.any_eq_true _ _).mp hany
  have hcov : Covered s.extents 0x300 := of_decide_eq_true hdecided
  have hmem : ⟨0x300000, 0x301000⟩ ∈ moduleMachine.modules := by decide
  refine ⟨s, ok_of_toOption hs, hcov, hmem, fun h => ?_⟩
  apply h.regions 0x300 hcov _ (mem_bootRegions.mpr (.inr (.inr (.inr hmem))))
  rw [meets_iff]
  decide

end Singularity.PhysicalMemory
