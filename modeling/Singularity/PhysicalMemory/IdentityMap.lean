import Singularity.PhysicalMemory.BootReservations
import Singularity.PhysicalMemory.FramePool
import Singularity.PhysicalMemory.LockOrder
import Singularity.Paging.Tables

/-!
# Are the allocatable frames identity mapped?

The boot tables map the first four gibibytes. `pmm_map_remaining_memory` is to
extend this to the rest of the memory, but it compares the sum of the usable
bytes with four gibibytes, not an address, and calls `map_pages_bulk` while it
holds the `PMM` lock.
-/

namespace Singularity.PhysicalMemory

open Foundation Pmm Paging Option Span
open Singularity.Paging (Tables FrameSource bootTables translate)

/-- `pmm_alloc_frame` and `pmm_free_frame` for a caller that holds the `PMM` lock.
Only the paths that end in a magazine return; every other path requests the lock
again. -/
def heldFrames (cpu : Nat) : FrameSource Pmm where
  alloc pmm :=
    if cpu < maxCpus ∧ pmm.magazines cpu ≠ [] then
      (popMagazine pmm cpu).toOption.map fun result => (framePtr result.1, result.2)
    else none
  free pmm ptr :=
    if ptr = 0 then some pmm
    else if cpu < maxCpus ∧ (pmm.magazines cpu).length < magazineSize then
      some (pushMagazine pmm cpu (ptr / pageSize))
    else none

/-- The flags of the pages that `pmm_map_remaining_memory` maps. -/
def remainingFlags : Nat :=
  Paging.pagePresent ||| Paging.pageWrite ||| Paging.pageHuge ||| Paging.pageGlobal

/-- `pmm_map_remaining_memory` on the CPU with index `cpu`; `none` if it never returns. -/
def pmmMapRemainingMemory (pmm : Pmm) (cpu : Nat) (nxEnabled : Bool) (cr3 : Nat) (t : Tables) :
    Option (Pmm × Tables) :=
  let totalRam := pmm.state.totalUsableMemoryBytes
  if totalRam ≤ mappedLimit then some (pmm, t)
  else do
    let pages2mb := divCeil (totalRam - mappedLimit) 0x200000
    let (_, t, pmm) ← Paging.mapPagesBulk (heldFrames cpu) nxEnabled cr3 t pmm
      mappedLimit mappedLimit pages2mb remainingFlags
    return (pmm, t)

/-- Whatever later calls of a user that keeps to the rules hand out is mapped to itself. -/
def ReturnsMapped (t : Tables) (cr3 : Nat) (pmm : Pmm) : Prop :=
  ∀ calls u call ptr pmm', Run UseStep ⟨pmm, 0, 0⟩ calls u → PlainCall call →
    exec u.pmm call = .ok (ptr, pmm') → ∀ f ∈ handedOut ptr call,
      ∀ x, f * pageSize ≤ x → x < (f + 1) * pageSize → translate t cr3 x = some x

/-- The frame numbers of the manager whose address lies below four gibibytes. -/
def LowFrame (f : Nat) : Prop := f < 2 ^ 53 ∧ framePtr f < mappedLimit

lemma lowFrame_iff : LowFrame f ↔ f < 2 ^ 53 ∧ f % 2 ^ 52 < 2 ^ 20 := by
  apply and_congr_right
  intro _
  unfold framePtr Word.mul pageSize mappedLimit
  omega

lemma lowFrame_closed : Pool.Closed LowFrame (· < 2 ^ 20) where
  bound f hf := hf.1
  handed start count hrange f hf := by
    unfold framesAt at hf
    split at hf
    · exact absurd hf (Multiset.notMem_zero f)
    obtain ⟨hlo, hhi⟩ := List.mem_range'_1.mp (Multiset.mem_coe.mp hf)
    have haddr : framePtr start / pageSize = start % 2 ^ 52 := by
      unfold framePtr Word.mul pageSize
      omega
    rw [haddr] at hlo hhi
    by_contra hhigh
    have hfirst := lowFrame_iff.mp
      (hrange (start + (2 ^ 20 - start % 2 ^ 52)) (by omega) (by omega))
    have hstart := lowFrame_iff.mp (hrange start le_rfl (by omega))
    omega
  returned f hf := lowFrame_iff.mpr ⟨by omega, by omega⟩

section
variable {p4Table : Nat} (halign : p4Table % 2 ^ 12 = 0) (hlow : p4Table + 0x6000 ≤ 2 ^ 32)
  (memory : Tables) {s : PmmState}

include halign hlow

/-- At boot the first page behind four gibibytes needs a table, and the request for
its frame waits for the lock that the caller holds. -/
lemma pmmMapRemainingMemory_waits (cpu : Nat) (nxEnabled : Bool)
    (hram : mappedLimit < s.totalUsableMemoryBytes) :
    pmmMapRemainingMemory (Pmm.boot s) cpu nxEnabled p4Table (bootTables p4Table memory) =
      none := by
  have halloc : (heldFrames cpu).alloc (boot s) = none := if_neg fun h => h.2 rfl
  have hpages : divCeil (s.totalUsableMemoryBytes - mappedLimit) 0x200000 ≠ 0 := by
    unfold divCeil
    omega
  obtain ⟨n, hn⟩ := Nat.exists_eq_succ_of_ne_zero hpages
  have hfirst : ∀ sz, Word.add mappedLimit (Word.mul 0 sz) = 2 ^ 32 := by
    intro sz
    simp [Word.add, Word.mul, mappedLimit]
  have hbulk : ∀ flags, mapPagesBulk (heldFrames cpu) nxEnabled p4Table
      (bootTables p4Table memory) (boot s) mappedLimit mappedLimit (n + 1) flags = none := by
    intro flags
    simp only [mapPagesBulk, Nat.succ_ne_zero, if_false, mapLoop,
      getAddress_p4Table halign hlow, hfirst,
      mapEntry_bootTables_waits memory halign hlow halloc]
    rfl
  have hmore : ¬ (boot s).state.totalUsableMemoryBytes ≤ mappedLimit := Nat.not_le.mpr hram
  dsimp only [pmmMapRemainingMemory]
  rw [if_neg hmore]
  change Option.bind (mapPagesBulk (heldFrames cpu) nxEnabled p4Table
    (bootTables p4Table memory) (boot s) mappedLimit mappedLimit
    (divCeil (s.totalUsableMemoryBytes - mappedLimit) 0x200000) remainingFlags) _ = none
  rw [hn, hbulk]
  rfl

/-- While only the boot tables map memory, users are served mapped frames exactly
if the extents end below four gibibytes. -/
lemma returnsMapped_bootTables (hinit : pmmInit PmmState.static mb kernelEnd = .ok s) :
    ReturnsMapped (bootTables p4Table memory) p4Table (Pmm.boot s) ↔
      ∀ f, Covered s.extents f → framePtr f < mappedLimit := by
  have hstocked := pmmInit_stocked hinit
  constructor
  · intro hmapped f hf
    obtain ⟨calls, u, pmm', hrun, hexec⟩ := hstocked.reaches (u := ⟨boot s, 0, 0⟩) hf
    by_cases hnull : framePtr f = 0
    · rw [hnull]
      decide
    have hmem : framePtr f / pageSize ∈ handedOut (framePtr f) (.allocContiguous 1) := by
      rw [handedOut, framesAt_one hnull]
      exact Multiset.mem_singleton_self _
    have hpage : framePtr f / pageSize * pageSize = framePtr f := by
      unfold framePtr Word.mul pageSize
      omega
    have hwalk := hmapped calls u _ _ pmm' hrun (by decide) hexec _ hmem (framePtr f) hpage.le
      (by rw [Nat.add_mul, hpage]; exact Nat.lt_add_of_pos_right (by decide))
    rw [translate_bootTables memory halign hlow] at hwalk
    obtain ⟨hlt, hwalk⟩ := then_of_ite hwalk
    exact hlt
  · intro hcov calls u call ptr pmm' hrun hplain hexec f hf x hlo hhi
    have hpool : PoolPmm LowFrame (boot s) :=
      pmmInit_pool hinit fun f hf => ⟨hstocked.bounded f hf, hcov f hf⟩
    have hrunPool := (PoolPmm.run lowFrame_closed hrun hpool (by simp)).1
    have hlowf : f < 2 ^ 20 := by
      cases call with
      | allocFrame _ | allocContiguous _ | allocContiguousAligned _ _ =>
        exact (hrunPool.exec lowFrame_closed hplain (by simp [released]) hexec).2 f hf
      | freeFrame _ _ | freeContiguous _ _ | incRef _ | decRef _ | flushMagazines _
      | registerRegion _ _ _ => simp [handedOut] at hf
    rw [translate_bootTables memory halign hlow, if_pos]
    unfold pageSize at hhi
    omega

end

/-- For every memory map: after `pmm_init` and `pmm_map_remaining_memory` on the boot
tables, everything that later calls hand out is identity mapped exactly if the
mapping call never returns, because there is more than four gibibytes of usable
memory, or no extent reaches beyond four gibibytes. -/
theorem returnsMapped_iff {mb : MultibootInfo} {kernelEnd : UInt64} {s : PmmState} {p4Table : Nat}
    (hinit : pmmInit PmmState.static mb kernelEnd = .ok s) (halign : p4Table % 2 ^ 12 = 0)
    (hlow : p4Table + 0x6000 ≤ 2 ^ 32) (memory : Tables) (cpu : Nat) (nxEnabled : Bool) :
    (∀ pmm t, pmmMapRemainingMemory (Pmm.boot s) cpu nxEnabled p4Table
        (bootTables p4Table memory) = some (pmm, t) → ReturnsMapped t p4Table pmm) ↔
      mappedLimit < s.totalUsableMemoryBytes ∨
        ∀ f, Covered s.extents f → framePtr f < mappedLimit := by
  obtain hram | hram := Nat.lt_or_ge mappedLimit s.totalUsableMemoryBytes
  · rw [pmmMapRemainingMemory_waits halign hlow memory cpu nxEnabled hram]
    simp [hram]
  have hreturns : pmmMapRemainingMemory (boot s) cpu nxEnabled p4Table
      (bootTables p4Table memory) = some (boot s, bootTables p4Table memory) := if_pos hram
  rw [hreturns, ← returnsMapped_bootTables halign hlow memory hinit]
  constructor
  · intro h
    exact .inr (h _ _ rfl)
  rintro (h | h) pmm t heq
  · omega
  · cases heq
    exact h

/-- The lengths of the usable entries, added up in a machine word. -/
def MultibootInfo.usableBytes (mb : MultibootInfo) : Nat :=
  (mb.entries.filter (·.typ = 1)).foldl (fun sum e => Word.add sum e.len.toNat) 0

theorem scanEntries_usableRam {entries : List MmapEntry} {scan scan' : Scan}
    (hok : scanEntries entries scan = .ok scan') :
    scan'.usableRam =
      (entries.filter (·.typ = 1)).foldl (fun sum e => Word.add sum e.len.toNat)
        scan.usableRam := by
  induction entries generalizing scan with
  | nil =>
      cases hok
      rfl
  | cons e rest ih =>
      obtain ⟨next, hstep, hok⟩ := ok_of_bind hok
      rw [ih hok]
      unfold scanEntry at hstep
      split at hstep
      case isTrue htyp =>
        obtain ⟨extents, -, ⟨⟩⟩ := ok_of_bind hstep
        simp [htyp]
      case isFalse htyp =>
        cases hstep
        simp [htyp]

/-- For a memory map without overlaps the condition is one on the map: the usable entries have
more than four gibibytes, or every frame that they leave allocatable lies below four gibibytes. -/
theorem mapped_iff_memoryMap {mb : MultibootInfo} {kernelEnd : UInt64} {s : PmmState}
    (hmap : mb.NonOverlapping) (hinit : pmmInit PmmState.static mb kernelEnd = .ok s) :
    (mappedLimit < s.totalUsableMemoryBytes ∨
        ∀ f, Covered s.extents f → framePtr f < mappedLimit) ↔
      mappedLimit < mb.usableBytes ∨
        ∀ f, Allocatable mb kernelEnd f → framePtr f < mappedLimit := by
  obtain ⟨scan, hscan, -, hbytes, -⟩ := pmmInit_ok hinit
  have husable : s.totalUsableMemoryBytes = mb.usableBytes :=
    hbytes.trans (scanEntries_usableRam hscan)
  have hcovered := (pmmInit_holds hmap hinit).2.covered
  simp only [husable, hcovered]

/-- The small machine boots with all of its memory mapped. -/
theorem returnsMapped_smallMachine :
    ∃ s, pmmInit PmmState.static smallMachine 0x200000 = .ok s ∧
      ∀ pmm t, pmmMapRemainingMemory (Pmm.boot s) 0 true 0x110000
        (bootTables 0x110000 fun _ _ => 0) = some (pmm, t) → ReturnsMapped t 0x110000 pmm := by
  have hany : ((pmmInit PmmState.static smallMachine 0x200000).toOption.any fun s =>
      decide (s.extents = [⟨0x201, 0x1FF⟩])) = true := by decide
  obtain ⟨s, hs, hdecided⟩ := (Option.any_eq_true _ _).mp hany
  have hextents : s.extents = [⟨0x201, 0x1FF⟩] := of_decide_eq_true hdecided
  have hinit := ok_of_toOption hs
  refine ⟨s, hinit, (returnsMapped_iff hinit (by decide) (by decide) _ 0 true).mpr (.inr ?_)⟩
  intro f hf
  rw [hextents] at hf
  simp only [covered_cons, within_extent, covered_nil, or_false] at hf
  unfold framePtr Word.mul pageSize mappedLimit
  omega

/-- A machine with four gibibytes of memory, three of them above four gibibytes. -/
def holeMachine : MultibootInfo where
  addr := 0x9000
  size := 88
  tags := [.mmap 64 [⟨0, 0x40000000, 1⟩, ⟨0x100000000, 0xC0000000, 1⟩]]

/-- Its usable bytes do not exceed four gibibytes, so nothing more is mapped, and a
request for two gibibytes returns an unmapped address. -/
theorem hole_frame_unmapped :
    ∃ s pmm t pmm', pmmInit PmmState.static holeMachine 0x200000 = .ok s ∧
      pmmMapRemainingMemory (Pmm.boot s) 0 true 0x110000 (bootTables 0x110000 fun _ _ => 0) =
        some (pmm, t) ∧
      exec pmm (.allocContiguous 0x80000) = .ok (0x100000000, pmm') ∧
      translate t 0x110000 0x100000000 = none := by
  have hsome : ((pmmInit PmmState.static holeMachine 0x200000).toOption.bind fun s =>
      (pmmMapRemainingMemory (boot s) 0 true 0x110000 (bootTables 0x110000 fun _ _ => 0)).bind
        fun mapped => (exec mapped.1 (.allocContiguous 0x80000)).toOption.map fun result =>
          (result.1, translate mapped.2 0x110000 0x100000000)) = some (0x100000000, none) := by
    decide +kernel
  obtain ⟨s, hinit, hsome⟩ := bind_eq_some_iff.mp hsome
  obtain ⟨⟨pmm, t⟩, hmap, hsome⟩ := bind_eq_some_iff.mp hsome
  obtain ⟨⟨ptr, pmm'⟩, hexec, hsome⟩ := map_eq_some_iff.mp hsome
  simp only [Prod.mk.injEq] at hsome
  obtain ⟨rfl, hwalk⟩ := hsome
  exact ⟨s, pmm, t, pmm', ok_of_toOption hinit, hmap, ok_of_toOption hexec, hwalk⟩

end Singularity.PhysicalMemory
