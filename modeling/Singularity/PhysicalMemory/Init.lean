import Singularity.PhysicalMemory.Manager

/-!
# Boot-time initialisation of the physical memory manager

The multiboot information block is modelled by its address, its total size and
its decoded tags; the end tag is the end of the list. `pmmInit` follows
`pmm_init`: one pass over all memory-map entries, four reservations, and the
reference-count array with one byte for each frame.
-/

namespace Singularity.PhysicalMemory

open Foundation List Span

/-- A memory-map entry; type 1 is usable RAM. -/
structure MmapEntry where
  addr : UInt64
  len : UInt64
  typ : UInt32
  deriving DecidableEq

/-- The bytes of a memory-map entry. -/
instance : Span MmapEntry where
  lo e := e.addr.toNat
  hi e := e.addr.toNat + e.len.toNat

/-- A decoded tag with its size field: a memory map (type 6), a boot module
(type 3), or a tag that neither `pmm_init` nor the module loop looks at. -/
inductive Tag where
  | mmap (size : UInt32) (entries : List MmapEntry)
  | module (size modStart modEnd : UInt32)
  | other (size : UInt32)
  deriving DecidableEq

/-- The multiboot information block. `size` is its first word. -/
structure MultibootInfo where
  addr : UInt64
  size : UInt32
  tags : List Tag
  deriving DecidableEq

/-- All memory-map entries in the order in which `pmm_init` reads them. -/
def MultibootInfo.entries (mb : MultibootInfo) : List MmapEntry :=
  mb.tags.flatMap fun
    | .mmap _ entries => entries
    | _ => []

/-- No byte belongs to two entries. -/
def MultibootInfo.NonOverlapping (mb : MultibootInfo) : Prop :=
  mb.entries.Pairwise fun a b => ∀ x, Within a x → ¬ Within b x

/-- Division rounding up. -/
def divCeil (a b : Nat) : Nat := (a + (b - 1)) / b

/-- The extents, the highest region end and the usable bytes seen so far. -/
structure Scan where
  extents : List Extent
  maxRamAddr : Nat
  usableRam : Nat

/-- The loop body over memory-map entries. -/
def scanEntry (scan : Scan) (entry : MmapEntry) : Except Panic Scan :=
  let regionEnd := Word.add entry.addr.toNat entry.len.toNat
  let maxRamAddr := max scan.maxRamAddr regionEnd
  if entry.typ = 1 then do
    let extents ← freeRegionInternal scan.extents
      (entry.addr.toNat / pageSize) (entry.len.toNat / pageSize)
    return ⟨extents, maxRamAddr, Word.add scan.usableRam entry.len.toNat⟩
  else
    return ⟨scan.extents, maxRamAddr, scan.usableRam⟩

def scanEntries : List MmapEntry → Scan → Except Panic Scan
  | [], scan => .ok scan
  | entry :: rest, scan => do
      let scan ← scanEntry scan entry
      scanEntries rest scan

/-- The page-aligned address of the counts, behind the kernel image and the multiboot block. -/
def refStart (mb : MultibootInfo) (kernelEnd : UInt64) : Nat :=
  let mbEnd := Word.add mb.addr.toNat mb.size.toNat
  let safeAfter := if kernelEnd.toNat < mbEnd then mbEnd else kernelEnd.toNat
  Word.alignUp safeAfter pageSize

/-- The four reservations: low memory, the kernel image, the multiboot block and
the reference-count array. -/
def reserveBoot (mb : MultibootInfo) (kernelEnd : UInt64) (totalFrames : Nat)
    (extents : List Extent) : List Extent :=
  let extents := reserveRegionInternal extents 0 (0x100000 / pageSize)
  let extents := reserveRegionInternal extents (0x100000 / pageSize)
    (divCeil (Word.sub kernelEnd.toNat 0x100000) pageSize)
  let extents := reserveRegionInternal extents (mb.addr.toNat / pageSize)
    (divCeil mb.size.toNat pageSize)
  reserveRegionInternal extents (refStart mb kernelEnd / pageSize) (divCeil totalFrames pageSize)

/-- Every frame is marked reserved, then the frames of the extents are marked free. -/
def initRefs (extents : List Extent) (totalFrames : Nat) (refs : Nat → Nat) : Nat → Nat :=
  fun f => if Covered extents f then refFree
    else if f < totalFrames then refReserved else refs f

def pmmInit (state : PmmState) (mb : MultibootInfo) (kernelEnd : UInt64) :
    Except Panic PmmState :=
  if state.initialized then .ok state
  else do
    let scan ← scanEntries mb.entries ⟨state.extents, 0, 0⟩
    let totalFrames := scan.maxRamAddr / pageSize
    let extents := reserveBoot mb kernelEnd totalFrames scan.extents
    let usedFrames := Word.sub totalFrames (size extents)
    let hwReservedFrames := totalFrames - scan.usableRam / pageSize
    return { state with
      extents, totalFrames, usedFrames, hwReservedFrames
      refCounts := initRefs extents totalFrames state.refCounts
      reservedFrames := usedFrames - hwReservedFrames
      totalUsableMemoryBytes := scan.usableRam
      initialized := true }

/-- The manager as `kmain` has it after `pmm_init`: all magazines are empty. -/
def Pmm.boot (state : PmmState) : Pmm := ⟨state, fun _ => [], 0⟩

@[simp] lemma within_mmapEntry (e : MmapEntry) (x : Nat) :
    Within e x ↔ e.addr.toNat ≤ x ∧ x < e.addr.toNat + e.len.toNat := Iff.rfl

/-- The frames that an entry contributes to the extents. -/
def MmapEntry.Frame (e : MmapEntry) (f : Nat) : Prop :=
  e.addr.toNat / pageSize ≤ f ∧ f < e.addr.toNat / pageSize + e.len.toNat / pageSize

instance (e : MmapEntry) (f : Nat) : Decidable (e.Frame f) := inferInstanceAs (Decidable (_ ∧ _))

/-- The frames of all usable entries. -/
def UsableFrame (entries : List MmapEntry) (f : Nat) : Prop :=
  ∃ e ∈ entries, e.typ = 1 ∧ e.Frame f

instance (entries : List MmapEntry) (f : Nat) : Decidable (UsableFrame entries f) :=
  inferInstanceAs (Decidable (∃ e ∈ entries, _))

variable {e : MmapEntry} {f : Nat} {mb : MultibootInfo}

lemma MmapEntry.Frame.lt (h : e.Frame f) : f < 2 ^ 53 := by
  have ha := e.addr.toNat_lt
  have hl := e.len.toNat_lt
  unfold Frame pageSize at h
  omega

lemma MmapEntry.Frame.disjoint {a b : MmapEntry}
    (hab : ∀ x, Within a x → ¬ Within b x) (ha : a.Frame f) : ¬ b.Frame f := by
  intro hb
  unfold Frame pageSize at ha hb
  have hlow := hab a.addr.toNat
  have hhigh := hab b.addr.toNat
  simp only [within_mmapEntry] at hlow hhigh
  omega

variable {scan scan' : Scan}

lemma scanEntry_adds (hok : scanEntry scan e = .ok scan')
    (hprop : ∀ c ∈ scan.extents, lo c < hi c) :
    (∀ c ∈ scan'.extents, lo c < hi c) ∧
      ∀ f, Covered scan'.extents f ↔
        Covered scan.extents f ∨ (e.typ = 1 ∧ e.Frame f) := by
  unfold scanEntry at hok
  split_ifs at hok with husable
  · obtain ⟨extents, hfree, ⟨⟩⟩ := ok_of_bind hok
    obtain ⟨hproper', hcov, -⟩ := freeRegionInternal_adds hfree hprop
    refine ⟨hproper', fun f => ?_⟩
    rw [hcov]
    simp only [husable, true_and]
    rfl
  · cases hok
    exact ⟨hprop, fun f => by simp [husable]⟩

variable {entries : List MmapEntry}

section
variable (hok : scanEntries entries scan = .ok scan')
include hok

lemma scanEntries_covered (hprop : ∀ c ∈ scan.extents, lo c < hi c) :
    (∀ c ∈ scan'.extents, lo c < hi c) ∧
      ∀ f, Covered scan'.extents f ↔ Covered scan.extents f ∨ UsableFrame entries f := by
  induction entries generalizing scan with
  | nil =>
    cases hok
    exact ⟨hprop, fun f => by simp [UsableFrame]⟩
  | cons e rest ih =>
    obtain ⟨next, hstep, hok⟩ := ok_of_bind hok
    obtain ⟨hnext, hadds⟩ := scanEntry_adds hstep hprop
    obtain ⟨hlast, hcov⟩ := ih hok hnext
    refine ⟨hlast, fun f => ?_⟩
    rw [hcov, hadds, or_assoc]
    simp only [UsableFrame, mem_cons, exists_eq_or_imp]

lemma scanEntries_separated
    (hdisj : entries.Pairwise fun a b => ∀ x, Within a x → ¬ Within b x)
    (hsep : Separated scan.extents)
    (hfresh : ∀ e ∈ entries, ∀ f, e.Frame f → ¬ Covered scan.extents f) :
    Separated scan'.extents := by
  induction entries generalizing scan with
  | nil =>
    cases hok
    exact hsep
  | cons e rest ih =>
    obtain ⟨next, hstep, hok⟩ := ok_of_bind hok
    obtain ⟨hhead, htail⟩ := pairwise_cons.mp hdisj
    have hadds := (scanEntry_adds hstep hsep.proper).2
    apply ih hok htail
    · unfold scanEntry at hstep
      split at hstep
      · obtain ⟨extents, hfree, ⟨⟩⟩ := ok_of_bind hstep
        exact freeRegionInternal_separated hfree hsep
          (fun x h1 h2 => hfresh e mem_cons_self x ⟨h1, h2⟩)
      · cases hstep
        exact hsep
    · intro c hc f hf hx
      obtain hx | ⟨-, hx⟩ := (hadds f).mp hx
      · exact hfresh c (mem_cons_of_mem e hc) f hf hx
      · exact MmapEntry.Frame.disjoint (hhead c hc) hx hf

omit hok in
lemma scanEntries_extents (hmap : mb.NonOverlapping)
    (hok : scanEntries mb.entries ⟨[], 0, 0⟩ = .ok scan) :
    Separated scan.extents ∧
      ∀ f, Covered scan.extents f ↔ UsableFrame mb.entries f := by
  refine ⟨scanEntries_separated hok hmap separated_nil
    (fun _ _ _ _ => covered_nil _), fun f => ?_⟩
  rw [(scanEntries_covered hok (by simp)).2]
  simp

lemma length_scanEntries_le
    (hlen : scan.extents.length ≤ maxExtents) : scan'.extents.length ≤ maxExtents := by
  induction entries generalizing scan with
  | nil =>
    cases hok
    exact hlen
  | cons e rest ih =>
    obtain ⟨next, hstep, hok⟩ := ok_of_bind hok
    apply ih hok
    unfold scanEntry at hstep
    split at hstep
    · obtain ⟨extents, hfree, ⟨⟩⟩ := ok_of_bind hstep
      exact length_freeRegionInternal_le hfree hlen
    · cases hstep
      exact hlen

omit hok in
lemma scanEntry_maxRamAddr (hok : scanEntry scan e = .ok scan') :
    scan'.maxRamAddr = max scan.maxRamAddr (Word.add e.addr.toNat e.len.toNat) := by
  unfold scanEntry at hok
  split at hok
  · obtain ⟨extents, -, ⟨⟩⟩ := ok_of_bind hok
    rfl
  · cases hok
    rfl

lemma scanEntries_maxRamAddr (hlt : scan.maxRamAddr < 2 ^ 64) :
    scan'.maxRamAddr < 2 ^ 64 ∧ scan.maxRamAddr ≤ scan'.maxRamAddr ∧
      ∀ e ∈ entries, Word.add e.addr.toNat e.len.toNat ≤ scan'.maxRamAddr := by
  induction entries generalizing scan with
  | nil =>
    cases hok
    exact ⟨hlt, le_rfl, by simp⟩
  | cons e rest ih =>
    obtain ⟨next, hstep, hok⟩ := ok_of_bind hok
    have hnext := scanEntry_maxRamAddr hstep
    have hend := Word.add_lt e.addr.toNat e.len.toNat
    obtain ⟨hlt', hle, hall⟩ := ih hok (by omega)
    refine ⟨hlt', by omega, ?_⟩
    intro c hc
    obtain rfl | hc := mem_cons.mp hc
    · omega
    · exact hall c hc

end

variable {kernelEnd : UInt64}

/-- What every reservation keeps, the four reservations of `pmm_init` keep. -/
lemma reserveBoot_rule {P : List Extent → Prop}
    (hkeep : ∀ extents, P extents → ∀ start count, P (reserveRegionInternal extents start count))
    (h : P extents) : P (reserveBoot mb kernelEnd totalFrames extents) := by
  apply hkeep
  apply hkeep
  apply hkeep
  exact hkeep _ h _ _

/-- The frames that the four reservations of `pmm_init` cover. -/
def ReservedFrame (mb : MultibootInfo) (kernelEnd : UInt64) (totalFrames f : Nat) : Prop :=
  f < 0x100000 / pageSize ∨
  (0x100000 / pageSize ≤ f ∧
    f < 0x100000 / pageSize + divCeil (Word.sub kernelEnd.toNat 0x100000) pageSize) ∨
  (mb.addr.toNat / pageSize ≤ f ∧ f < mb.addr.toNat / pageSize + divCeil mb.size.toNat pageSize) ∨
  (refStart mb kernelEnd / pageSize ≤ f ∧
    f < refStart mb kernelEnd / pageSize + divCeil totalFrames pageSize)

instance (mb : MultibootInfo) (kernelEnd : UInt64) (totalFrames f : Nat) :
    Decidable (ReservedFrame mb kernelEnd totalFrames f) := inferInstanceAs (Decidable (_ ∨ _))

lemma covered_of_reserveBoot (h : Covered (reserveBoot mb kernelEnd totalFrames extents) f) :
    Covered extents f ∧ ¬ ReservedFrame mb kernelEnd totalFrames f := by
  obtain ⟨h, hrefs⟩ := covered_of_reserveRegionInternal h
  obtain ⟨h, hblock⟩ := covered_of_reserveRegionInternal h
  obtain ⟨h, hkernel⟩ := covered_of_reserveRegionInternal h
  obtain ⟨h, hlow⟩ := covered_of_reserveRegionInternal h
  refine ⟨h, ?_⟩
  unfold ReservedFrame
  omega

/-- What `pmm_init` leaves behind when it does not panic, with the totals of its scan. -/
lemma pmmInit_ok (hok : pmmInit PmmState.static mb kernelEnd = .ok s) :
    ∃ scan, scanEntries mb.entries ⟨[], 0, 0⟩ = .ok scan ∧
      s.totalFrames = scan.maxRamAddr / pageSize ∧
      s.totalUsableMemoryBytes = scan.usableRam ∧
      s.extents = reserveBoot mb kernelEnd s.totalFrames scan.extents ∧
      s.refCounts = initRefs s.extents s.totalFrames (fun _ => 0) ∧
      s.usedFrames = Word.sub s.totalFrames (size s.extents) ∧ s.initialized = true := by
  obtain ⟨scan, hscan, ⟨⟩⟩ := ok_of_bind hok
  exact ⟨scan, hscan, rfl, rfl, rfl, rfl, rfl, rfl⟩

end Singularity.PhysicalMemory
