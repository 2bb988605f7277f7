import Singularity.KernelHeap.ArenaCalls

/-!
# Sequences of arena calls

The users of the arena hold the ranges they were given and free only those. `Held`
relates the free regions to the ranges in use; it is kept by every call whose page
counts are not cut and that finds room in the array of regions.
-/

namespace Singularity.KernelHeap

open Foundation List Nat Span

/-- A call to the arena. -/
inductive ArenaOp where
  | alloc (pages : Nat)
  | allocAligned (pages alignPages : Nat)
  | free (base pages : Nat)
  deriving DecidableEq

/-- The arena with the ranges that are in use. -/
structure ArenaUse where
  arena : VmArena
  live : List VmRange
  deriving DecidableEq

namespace ArenaUse

def init (start limit : Nat) : ArenaUse := ⟨VmArena.init start limit, []⟩

/-- The caller keeps the range at a non-zero address. -/
def receive (s : ArenaUse) (pages : Nat) (result : Nat × VmArena) : ArenaUse :=
  ⟨result.2, if result.1 = 0 then s.live else ⟨result.1, pages⟩ :: s.live⟩

/-- One call; only ranges in use are freed. -/
def exec (s : ArenaUse) : ArenaOp → Option ArenaUse
  | .alloc pages => some (s.receive pages (s.arena.alloc pages))
  | .allocAligned pages alignPages =>
    some (s.receive pages (s.arena.allocAligned pages alignPages))
  | .free base pages =>
    if ⟨base, pages⟩ ∈ s.live then
      (s.arena.free base pages).map fun arena => ⟨arena, s.live.erase ⟨base, pages⟩⟩
    else none

end ArenaUse

namespace ArenaOp

/-- The sums of an aligned request do not wrap around, and no region accepts it only
because the number of pages it needs is cut to 32 bits. -/
def FitsAligned (a : VmArena) (pages alignPages : Nat) : Prop :=
  a.watermark + (alignPages + pages) * pageSize ≤ 2 ^ 64 ∧
    ∀ r ∈ a.regions,
      Word.low32 (Word.add (VmArena.gap (Word.mul alignPages pageSize) r) pages) ≤ r.pages →
        VmArena.gap (Word.mul alignPages pageSize) r + pages < 2 ^ 32

/-- No count of the call is cut, and a release finds room in the array. -/
def Fair (a : VmArena) : ArenaOp → Prop
  | alloc pages => pages * pageSize < 2 ^ 64 ∧
      ∀ r ∈ a.regions, Word.low32 pages ≤ r.pages → pages < 2 ^ 32
  | allocAligned pages alignPages => FitsAligned a pages alignPages
  | free _ _ => a.regions.length < vmArenaMaxRegions

/-- The page counts of the call fit in 32 bits. -/
def Narrow : ArenaOp → Prop
  | alloc pages => pages < 2 ^ 32
  | allocAligned pages _ => pages < 2 ^ 32
  | free _ pages => pages < 2 ^ 32

/-- Aligned requests are computed without loss, and a release finds room in the array. -/
def Roomy (a : VmArena) : ArenaOp → Prop
  | alloc _ => True
  | allocAligned pages alignPages => FitsAligned a pages alignPages
  | free _ _ => a.regions.length < vmArenaMaxRegions

instance (a : VmArena) (pages alignPages : Nat) : Decidable (FitsAligned a pages alignPages) :=
  inferInstanceAs (Decidable (_ ∧ _))

instance (a : VmArena) (op : ArenaOp) : Decidable (op.Fair a) :=
  match op with
  | alloc _ => inferInstanceAs (Decidable (_ ∧ _))
  | allocAligned pages alignPages => inferInstanceAs (Decidable (FitsAligned a pages alignPages))
  | free _ _ => inferInstanceAs (Decidable (_ < _))

instance (op : ArenaOp) : Decidable op.Narrow :=
  match op with
  | alloc _ => inferInstanceAs (Decidable (_ < _))
  | allocAligned _ _ => inferInstanceAs (Decidable (_ < _))
  | free _ _ => inferInstanceAs (Decidable (_ < _))

instance (a : VmArena) (op : ArenaOp) : Decidable (op.Roomy a) :=
  match op with
  | alloc _ => inferInstanceAs (Decidable True)
  | allocAligned pages alignPages => inferInstanceAs (Decidable (FitsAligned a pages alignPages))
  | free _ _ => inferInstanceAs (Decidable (_ < _))

lemma Roomy.fair {a : VmArena} {op : ArenaOp} (hnarrow : op.Narrow) (h : op.Roomy a) :
    op.Fair a := by
  cases op with
  | alloc pages =>
    have hlt : pages < 2 ^ 32 := hnarrow
    refine ⟨?_, fun _ _ _ => hlt⟩
    unfold pageSize
    omega
  | allocAligned pages alignPages => exact h
  | free base pages => exact h

end ArenaOp

variable {r : VmRange} {start limit : Nat} {s : ArenaUse}

lemma disjoint_of_not_meets {c : VmRange} (hr : 0 < r.pages) (hc : 0 < c.pages)
    (h : ¬ Meets r c) :
    r.base + r.pages * pageSize ≤ c.base ∨ c.base + c.pages * pageSize ≤ r.base := by
  rw [meets_iff] at h
  simp only [lo_vmRange, hi_vmRange, pageSize] at h ⊢
  omega

lemma symm_not_meets : Std.Symm fun r c : VmRange => ¬ Meets r c :=
  ⟨fun _ _ hrc hcr => hrc (hcr.imp fun _ hx => hx.symm)⟩

/-- The ranges in use are disjoint from each other and from the free regions. -/
structure Held (start limit : Nat) (s : ArenaUse) : Prop where
  shape : Shape start limit s.arena
  inside : Fits start s.arena.watermark s.live
  valid : ∀ r ∈ s.live, r.base ≠ 0 ∧ 0 < r.pages ∧ pageSize ∣ r.base
  apart : s.live.Pairwise fun r c => ¬ Meets r c
  offRegions : ∀ r ∈ s.live, ∀ x, Within r x → ¬ Covered s.arena.regions x

section
variable (hplace : Placed start limit)
include hplace in
lemma held_init : Held start limit (ArenaUse.init start limit) where
  shape := hplace.shape_init
  inside := by simp [Fits, ArenaUse.init]
  valid := by simp [ArenaUse.init]
  apart := List.Pairwise.nil
  offRegions := by simp [ArenaUse.init]

variable {addr pages : Nat} {b : VmArena} (h : Held start limit s)
include h

variable (hg : Granted start limit s.arena addr pages b)

include hg in
lemma Held.not_meets (hr : r ∈ s.live) : ¬ Meets (⟨addr, pages⟩ : VmRange) r := by
  rintro ⟨x, hx, hrx⟩
  obtain hcov | hge := hg.fresh x hx
  · exact h.offRegions r hr x hrx hcov
  · have hend := (h.inside r hr).2
    have hlt : x < r.base + r.pages * pageSize := hrx.2
    omega

lemma Held.receive
    (hresult : result = (0, s.arena) ∨ Granted start limit s.arena result.1 pages result.2) :
    Held start limit (s.receive pages result) := by
  obtain rfl | hg := hresult
  · simpa [ArenaUse.receive] using h
  have hold : ∀ r ∈ s.live, start ≤ r.base ∧
      r.base + r.pages * pageSize ≤ result.2.watermark := fun r hr =>
    ⟨(h.inside r hr).1, (h.inside r hr).2.trans hg.watermark_le⟩
  have hoff : ∀ r ∈ s.live, ∀ x, Within r x → ¬ Covered result.2.regions x := by
    intro r hr x hx hcov
    obtain hold | hge := hg.onlyFree x hcov
    · exact h.offRegions r hr x hx hold
    · have hend := (h.inside r hr).2
      have hlt : x < r.base + r.pages * pageSize := hx.2
      omega
  unfold ArenaUse.receive
  split_ifs with hne
  · exact ⟨hg.shape, hold, h.valid, h.apart, hoff⟩
  · refine ⟨hg.shape, forall_mem_cons.mpr ⟨⟨hg.start_le, hg.end_le⟩, hold⟩,
      forall_mem_cons.mpr ⟨⟨hne, hg.pages_pos, hg.aligned⟩, h.valid⟩,
      pairwise_cons.mpr ⟨fun r hr => h.not_meets hg hr, h.apart⟩,
      forall_mem_cons.mpr ⟨hg.taken, hoff⟩⟩

lemma Held.release (hr : r ∈ s.live) (hb : Released start limit s.arena r.base r.pages b) :
    Held start limit ⟨b, s.live.erase r⟩ := by
  have hsub := erase_sublist (a := r) (l := s.live)
  have hrest : ∀ c ∈ s.live.erase r, ¬ Meets r c :=
    (pairwise_cons.mp (h.apart.perm (perm_cons_erase hr) (symm_not_meets.symm _ _))).1
  refine ⟨hb.shape, fun c hc => ?_, fun c hc => h.valid c (hsub.subset hc), h.apart.sublist hsub,
    fun c hc x hx hcov => ?_⟩
  · rw [hb.watermark_eq]
    exact h.inside c (hsub.subset hc)
  · obtain hrx | hcov := (hb.covered x).mp hcov
    · exact hrest c hc ⟨x, hrx, hx⟩
    · exact h.offRegions c (hsub.subset hc) x hx hcov

include hplace in
lemma Held.free_released (hr : r ∈ s.live) (hroom : s.arena.regions.length < vmArenaMaxRegions) :
    ∃ b, s.arena.free r.base r.pages = some b ∧
      Released start limit s.arena r.base r.pages b := by
  obtain ⟨hbase, hpages, hdvd⟩ := h.valid r hr
  obtain ⟨hstart, hend⟩ := h.inside r hr
  exact KernelHeap.free_released hplace h.shape hbase hstart hpages hend hdvd
    (h.offRegions r hr) hroom

omit h in
lemma Held.perm (h : Held start limit ⟨a, l⟩) (hperm : l.Perm l') : Held start limit ⟨a, l'⟩ where
  shape := h.shape
  inside r hr := h.inside r (hperm.mem_iff.mpr hr)
  valid r hr := h.valid r (hperm.mem_iff.mpr hr)
  apart := h.apart.perm hperm (symm_not_meets.symm _ _)
  offRegions r hr := h.offRegions r (hperm.mem_iff.mpr hr)

include hg in
lemma Held.grant (hne : addr ≠ 0) : Held start limit ⟨b, ⟨addr, pages⟩ :: s.live⟩ := by
  have hreceive : Held start limit (s.receive pages (addr, b)) := h.receive (.inr hg)
  rwa [ArenaUse.receive, if_neg hne] at hreceive

include hplace hg in
lemma Held.refund (hne : addr ≠ 0) (hroom : b.regions.length < vmArenaMaxRegions) :
    ∃ b', b.free addr pages = some b' ∧ Held start limit ⟨b', s.live⟩ := by
  have hheld := h.grant hg hne
  obtain ⟨b', hb', hrel⟩ := hheld.free_released hplace mem_cons_self hroom
  have hrelease := hheld.release mem_cons_self hrel
  rw [erase_cons_head] at hrelease
  exact ⟨b', hb', hrelease⟩

include hplace in
lemma Held.step (hfair : op.Fair s.arena) (hexec : s.exec op = some t) : Held start limit t := by
  cases op with
  | alloc pages =>
    cases hexec
    exact h.receive (alloc_granted hplace h.shape hfair.1 hfair.2)
  | allocAligned pages alignPages =>
    cases hexec
    exact h.receive (allocAligned_granted hplace h.shape hfair.1 hfair.2)
  | free base pages =>
    obtain ⟨hr, hexec⟩ := then_of_ite hexec
    obtain ⟨b, hb, hrel⟩ := h.free_released hplace hr hfair
    rw [hb] at hexec
    cases hexec
    exact h.release hr hrel

omit h in
include hplace in
lemma held_of_run (hrun : Run (fun s op t => op.Fair s.arena ∧ s.exec op = some t)
      (ArenaUse.init start limit) ops s) : Held start limit s :=
  hrun.invariant (I := Held start limit) (fun _ _ _ h hstep => h.step hplace hstep.1 hstep.2)
    (held_init hplace)

end

/-- The range at `addr` lies in the arena and overlaps no range in use and no free region. -/
structure Exclusive (start limit : Nat) (s : ArenaUse) (addr pages : Nat) (b : VmArena) : Prop where
  noWrap : addr + pages * pageSize < 2 ^ 64
  start_le : start ≤ addr
  end_le : addr + pages * pageSize ≤ limit
  offLive : ∀ r ∈ s.live, ¬ Meets (⟨addr, pages⟩ : VmRange) r
  offRegions : ∀ r ∈ b.regions, ¬ Meets (⟨addr, pages⟩ : VmRange) r

lemma Held.exclusive (hplace : Placed start limit) (h : Held start limit s)
    (hg : Granted start limit s.arena addr pages b) : Exclusive start limit s addr pages b := by
  have hend := hg.end_le.trans hg.shape.watermark_le
  refine ⟨hend.trans_lt hplace.limit_lt, hg.start_le, hend, fun r hr => h.not_meets hg hr, ?_⟩
  rintro r hr ⟨x, hx, hrx⟩
  exact hg.taken x hx ⟨r, hr, hrx⟩

lemma dvd_allocAligned (a : VmArena) (pages k : Nat) (hk : 2 ^ k * pageSize < 2 ^ 64) :
    2 ^ k * pageSize ∣ (a.allocAligned pages (2 ^ k)).1 := by
  have hab : 2 ^ k * pageSize = 2 ^ (k + 12) := by
    rw [pow_add]
    rfl
  have hle : k + 12 ≤ 64 := by
    by_contra hgt
    have hpow : 2 ^ 64 < 2 ^ (k + 12) := Nat.pow_lt_pow_right (by decide) (by omega)
    omega
  rw [VmArena.allocAligned, Word.mul_eq hk, hab]
  split
  · exact Nat.dvd_zero _
  · dsimp only
    split
    · exact Word.dvd_alignUp hle _
    · split
      · exact Nat.dvd_zero _
      · exact Word.dvd_alignUp hle _

/-- In every sequence of calls whose counts are not cut, each non-null result is an
aligned range of the arena that nothing else uses. -/
theorem arena_results_exclusive {start limit : Nat} (hplace : Placed start limit)
    {ops : List ArenaOp} {s : ArenaUse}
    (hrun : Run (fun s op t => op.Fair s.arena ∧ s.exec op = some t)
      (ArenaUse.init start limit) ops s) :
    (∀ pages, (ArenaOp.alloc pages).Fair s.arena → (s.arena.alloc pages).1 ≠ 0 →
      pageSize ∣ (s.arena.alloc pages).1 ∧
        Exclusive start limit s (s.arena.alloc pages).1 pages (s.arena.alloc pages).2) ∧
    ∀ pages k, (ArenaOp.allocAligned pages (2 ^ k)).Fair s.arena →
      (s.arena.allocAligned pages (2 ^ k)).1 ≠ 0 →
      2 ^ k * pageSize ∣ (s.arena.allocAligned pages (2 ^ k)).1 ∧
        Exclusive start limit s (s.arena.allocAligned pages (2 ^ k)).1 pages
          (s.arena.allocAligned pages (2 ^ k)).2 := by
  have hheld := held_of_run hplace hrun
  constructor
  · intro pages hfair hne
    obtain hnull | hg := alloc_granted hplace hheld.shape hfair.1 hfair.2
    · rw [hnull] at hne
      exact absurd rfl hne
    · exact ⟨hg.aligned, hheld.exclusive hplace hg⟩
  · intro pages k hfair hne
    obtain hnull | hg := allocAligned_granted hplace hheld.shape hfair.1 hfair.2
    · rw [hnull] at hne
      exact absurd rfl hne
    have hwrap := hfair.1
    have hpos : 0 < pages * pageSize := Nat.mul_pos hg.pages_pos (by decide)
    rw [add_mul] at hwrap
    exact ⟨dvd_allocAligned s.arena pages k (by omega), hheld.exclusive hplace hg⟩

/-- The calls that meet a condition on the arena before them, as a partial function. -/
def ArenaUse.execIf (p : VmArena → ArenaOp → Prop) [∀ a op, Decidable (p a op)] (s : ArenaUse)
    (op : ArenaOp) : Option ArenaUse :=
  if p s.arena op then s.exec op else none

lemma ArenaUse.execIf_some {p : VmArena → ArenaOp → Prop} [∀ a op, Decidable (p a op)]
    (s : ArenaUse) (op : ArenaOp) (t : ArenaUse) (h : s.execIf p op = some t) :
    p s.arena op ∧ s.exec op = some t := by
  obtain ⟨hp, h⟩ := then_of_ite h
  exact ⟨hp, h⟩

/-- Two ranges taken and one given back in the heap's arena. -/
def arenaOps : List ArenaOp :=
  [.alloc 1, .allocAligned 2 2, .free kheapStartVirtual 1]

theorem arenaOps_results_exclusive :
    ∃ s, Run (fun s op t => op.Fair s.arena ∧ s.exec op = some t)
        (ArenaUse.init (heapStart 0) heapEnd) arenaOps s ∧
      (s.arena.alloc 1).1 ≠ 0 ∧
      Exclusive (heapStart 0) heapEnd s (s.arena.alloc 1).1 1 (s.arena.alloc 1).2 ∧
      Exclusive (heapStart 0) heapEnd s (s.arena.allocAligned 3 (2 ^ 2)).1 3
        (s.arena.allocAligned 3 (2 ^ 2)).2 := by
  refine Run.exists_of_exec (P := fun s => (ArenaOp.alloc 1).Fair s.arena ∧
    (s.arena.alloc 1).1 ≠ 0 ∧ (ArenaOp.allocAligned 3 (2 ^ 2)).Fair s.arena ∧
      (s.arena.allocAligned 3 (2 ^ 2)).1 ≠ 0) ArenaUse.execIf_some (by decide +kernel) ?_
  rintro s hrun ⟨hfair, hne, hfair', hne'⟩
  obtain ⟨halloc, halign⟩ := arena_results_exclusive (placed_heap 0) hrun
  exact ⟨hne, (halloc 1 hfair hne).2, (halign 3 2 hfair' hne').2⟩

/-- A request whose count is cut to one page is answered from a region of one page; the
range asked for leaves the arena. -/
theorem wide_request_leaves_arena :
    ∃ s, Run (fun s op t => s.exec op = some t) (ArenaUse.init (heapStart 0) heapEnd)
        [.alloc 1, .alloc 1, .free kheapStartVirtual 1] s ∧
      (s.arena.alloc (2 ^ 32 + 1)).1 = kheapStartVirtual ∧
      heapEnd < kheapStartVirtual + (2 ^ 32 + 1) * pageSize ∧
      ∃ r ∈ s.live, Meets (⟨kheapStartVirtual, 2 ^ 32 + 1⟩ : VmRange) r := by
  refine Run.exists_of_exec (P := fun s => (s.arena.alloc (2 ^ 32 + 1)).1 = kheapStartVirtual ∧
    s.live = [⟨kheapStartVirtual + pageSize, 1⟩]) (fun _ _ _ h => h) (by decide +kernel) ?_
  rintro s - ⟨haddr, hlive⟩
  refine ⟨haddr, by decide, ⟨kheapStartVirtual + pageSize, 1⟩, by simp [hlive], ?_⟩
  apply meets_iff.mpr
  decide

/-- In every sequence of calls with 32-bit page counts whose releases find room, the
array stays sorted, disjoint, below the watermark and within its capacity, and a
release leaves no two adjacent regions. -/
theorem arena_regions_wellFormed {start limit : Nat} (hplace : Placed start limit)
    {ops : List ArenaOp} {s : ArenaUse}
    (hrun : Run (fun s op t => op.Narrow ∧ op.Roomy s.arena ∧ s.exec op = some t)
      (ArenaUse.init start limit) ops s) :
    Ordered s.arena.regions ∧
      (∀ r ∈ s.arena.regions, hi r ≤ s.arena.watermark) ∧
      s.arena.regions.length ≤ vmArenaMaxRegions ∧
      ∀ r ∈ s.live, (ArenaOp.free r.base r.pages).Roomy s.arena →
        ∃ b, s.arena.free r.base r.pages = some b ∧ Separated b.regions ∧
          b.regions.length ≤ vmArenaMaxRegions := by
  have hheld := held_of_run hplace (hrun.mono fun _ _ _ h => ⟨h.2.1.fair h.1, h.2.2⟩)
  refine ⟨hheld.shape.separated.ordered, fun r hr => (hheld.shape.fits r hr).2,
    hheld.shape.room, fun r hr hroom => ?_⟩
  obtain ⟨b, hb, hrel⟩ := hheld.free_released hplace hr hroom
  exact ⟨b, hb, hrel.shape.separated, hrel.shape.room⟩

theorem arenaOps_regions_wellFormed :
    ∃ s, Run (fun s op t => op.Narrow ∧ op.Roomy s.arena ∧ s.exec op = some t)
        (ArenaUse.init (heapStart 0) heapEnd) arenaOps s ∧
      s.arena.regions ≠ [] ∧ Ordered s.arena.regions ∧
      ∀ r ∈ s.live, ∃ b, s.arena.free r.base r.pages = some b ∧ Separated b.regions := by
  refine Run.exists_of_exec (f := ArenaUse.execIf fun a op => op.Narrow ∧ op.Roomy a)
    (P := fun s => s.arena.regions ≠ [] ∧ s.arena.regions.length < vmArenaMaxRegions)
    (fun s op t h => and_assoc.mp (ArenaUse.execIf_some s op t h)) (by decide +kernel) ?_
  rintro s hrun ⟨hne, hroom⟩
  obtain ⟨hord, -, -, hfree⟩ := arena_regions_wellFormed (placed_heap 0) hrun
  refine ⟨hne, hord, fun r hr => ?_⟩
  obtain ⟨b, hb, hsep, -⟩ := hfree r hr hroom
  exact ⟨b, hb, hsep⟩

section
variable {p : Nat}

/-- The range with a given number when the arena is cut into ranges of `p` pages. -/
def stripe (start p i : Nat) : VmRange := ⟨start + i * (p * pageSize), p⟩

/-- Every other range. -/
def evenStripes (start p n : Nat) : List VmRange :=
  (List.range n).map fun i => stripe start p (2 * i)

lemma hi_stripe (i : Nat) : hi (stripe start p i) = start + (i + 1) * (p * pageSize) := by
  simp only [stripe, hi_vmRange, succ_mul, add_assoc]

variable {i j n m : Nat} {a : VmArena}

lemma stripe_le (h : i ≤ j) : start + i * (p * pageSize) ≤ start + j * (p * pageSize) :=
  Nat.add_le_add_left (Nat.mul_le_mul_right _ h) _

lemma stripe_lt (hp : 0 < p) (h : i < j) :
    start + i * (p * pageSize) < start + j * (p * pageSize) :=
  Nat.add_lt_add_left (Nat.mul_lt_mul_of_pos_right h (Nat.mul_pos hp (by decide))) _

lemma stripe_injective (hp : 0 < p) (h : stripe start p i = stripe start p j) : i = j := by
  have hbase : start + i * (p * pageSize) = start + j * (p * pageSize) := congrArg VmRange.base h
  obtain hlt | heq | hlt := lt_trichotomy i j
  · exact absurd hbase (stripe_lt hp hlt).ne
  · exact heq
  · exact absurd hbase (stripe_lt hp hlt).ne'

lemma dvd_stripe (hstart : pageSize ∣ start) (i : Nat) : pageSize ∣ start + i * (p * pageSize) :=
  Nat.dvd_add hstart ((Nat.dvd_mul_left pageSize p).mul_left i)

lemma mem_evenStripes (hr : r ∈ evenStripes start p n) : ∃ i < n, r = stripe start p (2 * i) := by
  obtain ⟨i, hi, rfl⟩ := mem_map.mp hr
  exact ⟨i, mem_range.mp hi, rfl⟩

lemma length_evenStripes (n : Nat) : (evenStripes start p n).length = n := by
  simp [evenStripes]

lemma evenStripes_succ (n : Nat) :
    evenStripes start p (n + 1) = evenStripes start p n ++ [stripe start p (2 * n)] := by
  simp [evenStripes, range_succ]

lemma evenStripes_separated (hp : 0 < p) (n : Nat) : Separated (evenStripes start p n) := by
  induction n with
  | zero => exact separated_nil
  | succ n ih =>
    constructor
    · intro r hr
      obtain ⟨i, -, rfl⟩ := mem_evenStripes hr
      rw [hi_stripe]
      exact stripe_lt hp (lt_succ_self _)
    · rw [evenStripes_succ]
      refine pairwise_append.mpr ⟨ih.gaps, pairwise_singleton _ _, ?_⟩
      intro r hr c hc
      obtain ⟨i, hi, rfl⟩ := mem_evenStripes hr
      rw [mem_singleton.mp hc, hi_stripe]
      exact stripe_lt hp (by omega)

lemma alloc_stripe (hp : 0 < p) (hlimit : limit < 2 ^ 64)
    (hend : start + (n + 1) * (p * pageSize) ≤ limit) :
    VmArena.alloc ⟨[], start + n * (p * pageSize), limit⟩ p =
      (start + n * (p * pageSize), ⟨[], start + (n + 1) * (p * pageSize), limit⟩) := by
  have hlt : start + n * (p * pageSize) < start + (n + 1) * (p * pageSize) :=
    stripe_lt hp (lt_succ_self n)
  have hsum : start + (n + 1) * (p * pageSize) = start + n * (p * pageSize) + p * pageSize := by
    rw [succ_mul, ← add_assoc]
  have htop : Word.add (start + n * (p * pageSize)) (Word.mul p pageSize) =
      start + (n + 1) * (p * pageSize) := by
    rw [Word.mul_eq (by omega), hsum]
    exact Word.add_eq (by omega)
  have hfit : ¬ (limit < start + (n + 1) * (p * pageSize) ∨
      start + (n + 1) * (p * pageSize) < start + n * (p * pageSize)) := by
    omega
  simp only [VmArena.alloc, findIdx?_nil, htop, if_neg hfit, if_neg hp.ne']

lemma exec_stripe (hstart : 0 < start) (halloc : s.arena.alloc p = ((stripe start p i).base, a)) :
    s.exec (.alloc p) = some ⟨a, stripe start p i :: s.live⟩ := by
  have hne : (stripe start p i).base ≠ 0 := (hstart.trans_le (le_add_right _ _)).ne'
  simp only [ArenaUse.exec, halloc, ArenaUse.receive, if_neg hne]
  rfl

lemma exec_freeStripe (hi : stripe start p i ∈ s.live)
    (hfree : s.arena.free (stripe start p i).base p = some a) :
    s.exec (.free (stripe start p i).base p) = some ⟨a, s.live.erase (stripe start p i)⟩ := by
  simp only [ArenaUse.exec, hfree]
  exact if_pos hi

variable (hplace : Placed start limit) (hp : 0 < p) (hend : start + m * (p * pageSize) ≤ limit)
include hplace hp hend

lemma shape_evenStripes (hm : 2 * n ≤ m) (hn : n ≤ vmArenaMaxRegions) :
    Shape start limit ⟨evenStripes start p n, start + m * (p * pageSize), limit⟩ where
  limit_eq := rfl
  aligned := dvd_stripe hplace.aligned m
  start_le := le_add_right _ _
  watermark_le := hend
  separated := evenStripes_separated hp n
  fits := by
    intro r hr
    obtain ⟨i, hi, rfl⟩ := mem_evenStripes hr
    refine ⟨le_add_right _ _, (hi_stripe (2 * i)).le.trans ?_⟩
    exact stripe_le (by omega)
  pageBases := by
    intro r hr
    obtain ⟨i, -, rfl⟩ := mem_evenStripes hr
    exact dvd_stripe hplace.aligned _
  room := by simpa [length_evenStripes] using hn

/-- Giving back the next even range appends a region of its own. -/
lemma free_evenStripe (hstart : 0 < start) (hnarrow : p < 2 ^ 32) (hm : 2 * n + 2 ≤ m)
    (hn : n < vmArenaMaxRegions) :
    VmArena.free ⟨evenStripes start p n, start + m * (p * pageSize), limit⟩
        (stripe start p (2 * n)).base p =
      some ⟨evenStripes start p (n + 1), start + m * (p * pageSize), limit⟩ := by
  have hshape := shape_evenStripes hplace hp hend (n := n) (by omega) hn.le
  have hshape' := shape_evenStripes hplace hp hend (n := n + 1) (by omega) hn
  have hpre : ∀ r ∈ evenStripes start p n, r.base < (stripe start p (2 * n)).base := by
    intro r hr
    obtain ⟨i, hi, rfl⟩ := mem_evenStripes hr
    exact stripe_lt hp (by omega)
  have hidx := lowerBound_append hpre (fun r hr => absurd hr not_mem_nil)
  have hins := insertAt_append (evenStripes start p n) [] (stripe start p (2 * n)).base p
  have hlast := coalesceAround_last (hend.trans_lt hplace.limit_lt) (hend.trans_lt hplace.short)
    hshape'.separated hshape'.fits
  rw [append_nil, length_evenStripes] at hidx
  rw [append_nil, length_evenStripes] at hins
  rw [length_evenStripes, Nat.add_sub_cancel] at hlast
  have hbase : (stripe start p (2 * n)).base ≠ 0 := by
    simp only [stripe]
    omega
  rw [free_eq hplace hshape hbase hp hnarrow, if_pos (by rwa [length_evenStripes]), hidx, hins]
  rw [evenStripes_succ] at hlast ⊢
  exact congrArg some (congrArg (VmArena.mk · _ _) hlast)

lemma free_full (hnarrow : p < 2 ^ 32) (hbase : base ≠ 0) (hm : 2 * vmArenaMaxRegions ≤ m) :
    VmArena.free ⟨evenStripes start p vmArenaMaxRegions, start + m * (p * pageSize), limit⟩ base p =
      none := by
  have hshape := shape_evenStripes hplace hp hend hm le_rfl
  rw [free_eq hplace hshape hbase hp hnarrow, length_evenStripes, if_neg (lt_irrefl _)]

/-- A system that takes `m` ranges of its arena in a row and gives back every other one of the
first leaves one region for each of them. -/
lemma exists_striped {σ α : Type} (step : σ → α → σ → Prop) (s0 : σ) (arena : σ → VmArena)
    (has : σ → Nat → Prop) (hinit : arena s0 = VmArena.init start limit)
    (halloc : ∀ as s i b, Run step s0 as s → start + (i + 1) * (p * pageSize) ≤ limit →
      (arena s).alloc p = ((stripe start p i).base, b) →
      ∃ a t, step s a t ∧ arena t = b ∧ ∀ j, j = i ∨ has s j → has t j)
    (hfree : ∀ as s i b, Run step s0 as s → has s i → (arena s).regions.length < vmArenaMaxRegions →
      (arena s).free (stripe start p i).base p = some b →
      ∃ a t, step s a t ∧ arena t = b ∧ ∀ j, j ≠ i → has s j → has t j)
    (hstart : 0 < start) (hnarrow : p < 2 ^ 32) (n : Nat) (hm : 2 * n ≤ m)
    (hn : n ≤ vmArenaMaxRegions) :
    ∃ as s, Run step s0 as s ∧
      arena s = ⟨evenStripes start p n, start + m * (p * pageSize), limit⟩ ∧
      ∀ i < m, (∀ j < n, i ≠ 2 * j) → has s i := by
  induction n with
  | zero =>
    clear hm
    induction m with
    | zero => exact ⟨[], s0, .nil _, by simpa [VmArena.init, evenStripes] using hinit, by omega⟩
    | succ m ih =>
      obtain ⟨as, s, hrun, harena, hhas⟩ := ih ((stripe_le (le_succ m)).trans hend)
      have hnext := alloc_stripe hp hplace.limit_lt hend
      obtain ⟨a, t, hstep, ht, hkeep⟩ := halloc as s m _ hrun hend (by rw [harena]; exact hnext)
      refine ⟨_, t, hrun.append (.single hstep), ht, fun i hi _ => hkeep i ?_⟩
      exact (Nat.lt_succ_iff_lt_or_eq.mp hi).symm.imp_right fun hlt => hhas i hlt (by omega)
  | succ n ih =>
    obtain ⟨as, s, hrun, harena, hhas⟩ := ih (by omega) (by omega)
    have hnext := free_evenStripe hplace hp hend hstart hnarrow hm hn
    obtain ⟨a, t, hstep, ht, hkeep⟩ := hfree as s (2 * n) _ hrun (hhas _ (by omega) (by omega))
      (by rw [harena]; exact (length_evenStripes n).trans_lt hn) (by rw [harena]; exact hnext)
    refine ⟨_, t, hrun.append (.single hstep), ht, fun i hi hodd => ?_⟩
    exact hkeep i (hodd n (by omega)) (hhas i hi fun j hj => hodd j (by omega))

end

/-- After 1024 one-page requests and 512 releases of every other page the array is full,
and the next release writes behind it. -/
theorem full_array_release_overruns :
    ∃ ops s, Run (fun s op t => op.Narrow ∧ s.exec op = some t)
        (ArenaUse.init (heapStart 0) heapEnd) ops s ∧
      s.arena.regions.length = vmArenaMaxRegions ∧
      ∃ r ∈ s.live, r.pages = 1 ∧ s.arena.free r.base r.pages = none := by
  have hplace := placed_heap 0
  have hend : heapStart 0 + 1024 * (1 * pageSize) ≤ heapEnd := by decide
  obtain ⟨ops, s, hrun, harena, hlive⟩ := exists_striped hplace one_pos hend
    (fun s (op : ArenaOp) t => op.Narrow ∧ s.exec op = some t) (.init (heapStart 0) heapEnd)
    ArenaUse.arena (fun s i => stripe (heapStart 0) 1 i ∈ s.live) rfl
    (fun _ s i b _ _ halloc => ⟨.alloc 1, ⟨b, stripe _ 1 i :: s.live⟩,
      ⟨by decide, exec_stripe (by decide) halloc⟩, rfl, fun j hj =>
        mem_cons.mpr (hj.imp_left (congrArg _))⟩)
    (fun _ s i b _ hi _ hfree => ⟨.free (stripe _ 1 i).base 1, ⟨b, s.live.erase (stripe _ 1 i)⟩,
      ⟨show 1 < 2 ^ 32 by decide, exec_freeStripe hi hfree⟩, rfl, fun j hj =>
        (mem_erase_of_ne fun heq => hj (stripe_injective one_pos heq)).mpr⟩)
    (by decide) (by decide) vmArenaMaxRegions (by decide) le_rfl
  refine ⟨ops, s, hrun, ?_, stripe (heapStart 0) 1 1, hlive 1 (by decide) (by omega), rfl, ?_⟩
  · rw [harena, length_evenStripes]
  · rw [harena]
    exact free_full hplace one_pos hend (by decide) (by decide) (by decide)

end Singularity.KernelHeap
