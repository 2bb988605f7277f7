import Singularity.KernelHeap.AlignedBlocks

/-!
# Sequences of calls with aligned pointers and page ranges

The calls of `HeapRuns` together with `kmalloc_aligned`, `kfree_aligned`, `kmalloc_dma` and
`kfree_dma`. Users give back page ranges with `kfree_dma` only. In every state reached so
the round trip of an aligned pointer has the condition of `Heap.Returns`.
-/

namespace Singularity.KernelHeap

open Foundation List Heap HeapState

inductive AlignedOp where
  | heap (op : HeapOp)
  | kmallocAligned (size alignment : Nat) (supply : Supply) (block : Option LargeBlock)
  | kfreeAligned (ptr caller : Nat)
  | kmallocDma (size alignment : Nat) (supply : Option (Nat → Nat)) (block : Option LargeBlock)
  | kfreeDma (ptr size : Nat)
  | writeDma (a : Nat) (v : UInt8)

/-- The heap, its blocks in use and the page ranges without a header in use. -/
structure AlignedState extends HeapState where
  dma : List VmRange

namespace AlignedState

def init (magic canary aslr : Nat) : AlignedState := ⟨HeapState.init magic canary aslr, []⟩

def receiveDma (s : AlignedState) (size : Nat) (r : Nat × Heap) : AlignedState :=
  ⟨{ s.toHeapState with heap := r.2 },
    if r.1 = 0 then s.dma else ⟨r.1, Heap.dmaPages size⟩ :: s.dma⟩

/-- The page range, or the block whose pointer stands in the word before. -/
def receiveAligned (s : AlignedState) (size alignment : Nat) (r : Nat × Heap) : AlignedState :=
  if pageSize ≤ alignment then s.receiveDma size r
  else if r.1 = 0 then { s with heap := r.2 }
  else { s with
    toHeapState := s.receive (alignedTotal size alignment)
      (r.2.mem.read64 (Word.sub r.1 8), r.2) }

/-- One step; no result if the users do not behave. -/
def exec (s : AlignedState) : AlignedOp → Option (Except HeapFault AlignedState)
  | .heap op => (s.toHeapState.exec op).map fun r => r.map fun t => { s with toHeapState := t }
  | .kmallocAligned size alignment supply block =>
    some ((s.heap.mallocAligned size alignment supply block).map (s.receiveAligned size alignment))
  | .kfreeAligned ptr caller =>
    let raw := s.heap.mem.read64 (Word.sub ptr 8)
    if ptr &&& (pageSize - 1) ≠ 0 ∧ s.Owned raw then
      some ((s.heap.freeAligned ptr caller).map fun heap =>
        { s with toHeapState := ⟨heap, s.live.eraseP fun b => b.ptr == raw⟩ })
    else none
  | .kmallocDma size alignment supply block =>
    some ((s.heap.mallocDma size alignment supply block).map (s.receiveDma size))
  | .kfreeDma ptr size =>
    if 0 < size ∧ size < 2 ^ 64 ∧ ⟨ptr, Heap.dmaPages size⟩ ∈ s.dma then
      some ((s.heap.freeDma ptr size).map fun heap =>
        ⟨{ s.toHeapState with heap }, s.dma.erase ⟨ptr, Heap.dmaPages size⟩⟩)
    else none
  | .writeDma a v =>
    if ∃ r ∈ s.dma, r.base ≤ a ∧ a < r.base + r.pages * pageSize then
      some (.ok { s with heap := { s.heap with mem := s.heap.mem.fill a 1 v } })
    else none

end AlignedState

namespace AlignedOp

/-- No count is cut, the arena has room for what comes back, and no entry of 2 MiB is used. -/
def Fair (s : AlignedState) : AlignedOp → Prop
  | heap op => op.Sized ∧ op.Roomy s.toHeapState
  | kmallocAligned size alignment supply block =>
    (if pageSize ≤ alignment then
      ArenaOp.FitsAligned s.heap.arena (Heap.dmaPages size) (alignment / pageSize) ∧
        s.heap.usesHuge (Heap.dmaPages size) (alignment / pageSize) block = false
    else alignedTotal size alignment < blockLimit) ∧
      (supply.pages = none → s.heap.arena.regions.length + 1 < vmArenaMaxRegions)
  | kfreeAligned ptr caller =>
    (HeapOp.kfree (s.heap.mem.read64 (Word.sub ptr 8)) caller).Roomy s.toHeapState
  | kmallocDma size alignment supply block =>
    let alignPages := (if alignment < pageSize then pageSize else alignment) / pageSize
    (ArenaOp.FitsAligned s.heap.arena (Heap.dmaPages size) alignPages ∧
        s.heap.usesHuge (Heap.dmaPages size) alignPages block = false) ∧
      (supply = none → s.heap.arena.regions.length + 1 < vmArenaMaxRegions)
  | kfreeDma _ _ => s.heap.arena.regions.length < vmArenaMaxRegions
  | writeDma _ _ => True

instance (s : AlignedState) (op : AlignedOp) : Decidable (op.Fair s) :=
  match op with
  | heap op => inferInstanceAs (Decidable (op.Sized ∧ op.Roomy s.toHeapState))
  | kmallocAligned _ _ _ _ => inferInstanceAs (Decidable (ite _ _ _ ∧ _))
  | kfreeAligned ptr caller => inferInstanceAs (Decidable
      ((HeapOp.kfree (s.heap.mem.read64 (Word.sub ptr 8)) caller).Roomy s.toHeapState))
  | kmallocDma _ _ _ _ => inferInstanceAs (Decidable ((ArenaOp.FitsAligned _ _ _ ∧ _) ∧ _))
  | kfreeDma _ _ => inferInstanceAs (Decidable (_ < _))
  | writeDma _ _ => inferInstanceAs (Decidable True)

end AlignedOp

variable {aslr : Nat}

section
variable {pinned : List VmRange} {h : Heap} {live : List Block} {slabs : List (Nat × Nat)}
  (hI : HeapInv aslr pinned h live slabs)
include hI

lemma HeapInv.piece_ne_pinned (hb : b ∈ live) (hr : r ∈ pinned) : b.piece ≠ .range r := by
  intro heq
  cases hbucket : sizeBucket b.size with
  | some i => simp [Block.piece, hbucket] at heq
  | none =>
    simp only [Block.piece, hbucket, Piece.range.injEq] at heq
    have hlarge : r ∈ largeOf live := mem_largeOf.mpr ⟨b, hb, hbucket, heq⟩
    have hapart := (pairwise_append.mp hI.layout.held.apart).2.1
    have hval := hI.layout.held.valid r
      (mem_append_right _ (mem_append_right _ hr))
    have hpos := Nat.mul_pos hval.2.1 (by decide : 0 < pageSize)
    have hself : Span.Within r r.base := ⟨le_rfl, Nat.lt_add_of_pos_right hpos⟩
    exact (pairwise_append.mp hapart).2.2 r hlarge r hr ⟨r.base, hself, hself⟩

lemma HeapInv.write_pinned (hr : r ∈ pinned)
    (hm : Mem.SameOutside r.base (r.pages * pageSize) h.mem m) :
    HeapInv aslr pinned { h with mem := m } live slabs := by
  have hof : (Piece.range r).Of slabs (largeOf live ++ pinned) := mem_append_right _ hr
  refine ⟨hI.layout.write_piece hof trivial hm, hI.sized, hI.distinct, fun b hb => ?_,
    hI.magic_lt, hI.canary_lt, hI.gwp⟩
  have hapart := hI.layout.apart (hI.piece_of hb).1 hof (hI.piece_ne_pinned hb hr)
  obtain ⟨hlo, hlen, -⟩ := piece_len b
  rw [hlo] at hapart
  change b.real + b.piece.len ≤ r.base ∨ r.base + r.pages * pageSize ≤ b.real at hapart
  apply (hI.intact b hb).congr
  intro x hx hin
  apply hm x
  unfold totalSize Block.ptr at *
  omega

lemma HeapInv.vmmAllocAligned (hfits : ArenaOp.FitsAligned h.arena pages alignPages)
    (hsmall : h.usesHuge pages alignPages block = false)
    (hroom : supply = none → h.arena.regions.length + 1 < vmArenaMaxRegions) :
    ∃ virt h', h.vmmAllocAligned pages alignPages supply block = .ok (virt, h') ∧
      HeapInv aslr (if virt = 0 then pinned else ⟨virt, pages⟩ :: pinned) h' live slabs := by
  cases hI.layout.vmmAllocAligned (placed_heap aslr) (heapStart_pos aslr) hfits hroom hsmall with
  | null arena hok hlayout => exact ⟨0, _, hok, by simpa using hI.setArena hlayout⟩
  | range frames _ hne hgr hok hlayout =>
    refine ⟨_, _, hok, ?_⟩
    rw [if_neg hne]
    refine ⟨hlayout.perm (fun _ => List.Perm.refl _) perm_middle.symm, hI.sized,
      hI.distinct, fun b hb => ?_, hI.magic_lt, hI.canary_lt, hI.gwp.congr rfl
        fun v hv => mapPages_behind (hgr.end_le.trans hgr.shape.watermark_le) hv⟩
    apply (hI.intact b hb).congr
    intro x hx hin
    apply Mem.sameOutside_fill
    apply hI.layout.granted_off hgr
    obtain ⟨hlo, hlen, -⟩ := piece_len b
    apply Piece.covered (hI.piece_of hb).1
    · rwa [hlo]
    · rw [hlo]
      unfold totalSize Block.ptr at *
      omega

lemma HeapInv.freePages_pinned (hr : r ∈ pinned)
    (hroom : h.arena.regions.length < vmArenaMaxRegions) :
    ∃ h', h.freePages r.base r.pages = .ok h' ∧
      HeapInv aslr (pinned.erase r) h' live slabs := by
  have hlarge : r ∈ largeOf live ++ pinned := mem_append_right _ hr
  obtain ⟨arena, -, -, hok, hlayout⟩ := hI.layout.freePages (placed_heap aslr) hlarge hroom
  exact ⟨_, hok, hlayout.perm (fun _ => List.Perm.refl _) (erase_append_perm hr), hI.sized,
    hI.distinct, hI.intact, hI.magic_lt, hI.canary_lt, hI.gwp.congr rfl fun v hv =>
      mapPages_behind (hI.layout.piece_limit (p := .range r) hlarge).2 hv⟩

end

namespace AlignedState
variable {s t : AlignedState}

/-- The invariant of heap and users. -/
def Inv (aslr : Nat) (s : AlignedState) : Prop := s.toHeapState.Inv aslr s.dma

lemma mallocDma_step (hI : Inv aslr s) {alignment : Nat} {supply : Option (Nat → Nat)}
    (hfair : (AlignedOp.kmallocDma size alignment supply block).Fair s) :
    ∃ r, s.heap.mallocDma size alignment supply block = .ok r ∧ Inv aslr (s.receiveDma size r) := by
  obtain ⟨slabs, hI⟩ := hI
  unfold mallocDma
  split
  · exact ⟨_, rfl, slabs, by simpa [receiveDma] using hI⟩
  · obtain ⟨virt, h', hok, hnew⟩ := hI.vmmAllocAligned hfair.1.1 hfair.1.2 hfair.2
    exact ⟨_, hok, slabs, hnew⟩

lemma size_le_dmaPages (hlt : size < 2 ^ 64) (hpos : 0 < Heap.dmaPages size) :
    size ≤ Heap.dmaPages size * pageSize := by
  have hpages : dmaPages size = (size + 4095) % 2 ^ 64 / 4096 := by
    have halign : Word.alignUp size pageSize = Word.add size (2 ^ 12 - 1) / 2 ^ 12 * 2 ^ 12 :=
      Word.alignUp_eq (k := 12) (by decide) size
    rw [dmaPages, halign, Word.add]
    exact Nat.mul_div_cancel _ (by decide)
  rw [hpages] at hpos ⊢
  unfold pageSize
  omega

lemma freeDma_step (hI : Inv aslr s) (hpos : 0 < size) (hlt : size < 2 ^ 64)
    (hmem : ⟨ptr, Heap.dmaPages size⟩ ∈ s.dma)
    (hroom : s.heap.arena.regions.length < vmArenaMaxRegions) :
    ∃ h, s.heap.freeDma ptr size = .ok h ∧
      HeapState.Inv aslr (s.dma.erase ⟨ptr, Heap.dmaPages size⟩) ⟨h, s.live⟩ := by
  obtain ⟨slabs, hI⟩ := hI
  have hval := hI.layout.held.valid _ (mem_append_right _ (mem_append_right _ hmem))
  have hwritten := hI.write_pinned hmem
    ((sameOutside_fastPoison s.heap.mem ptr size).mono le_rfl
      (Nat.add_le_add_left (size_le_dmaPages hlt hval.2.1) _))
  obtain ⟨h', hok, hnew⟩ := hwritten.freePages_pinned hmem hroom
  refine ⟨h', ?_, slabs, hnew⟩
  rw [freeDma, if_neg (by rintro (h0 | h0); exacts [hval.1 h0, hpos.ne' h0])]
  exact hok

lemma receiveAligned_block (hk : 2 ^ k < pageSize) (hraw : raw ≠ 0) (hlt : raw < 2 ^ 64)
    (hin : AlignedIn raw size k (Word.alignUp (Word.add raw 8) (2 ^ k))) (h : Heap) :
    s.receiveAligned size (2 ^ k) (Heap.alignBlock (2 ^ k) (raw, h)) =
      ⟨s.receive (alignedTotal size (2 ^ k)) (raw, { h with
        mem := h.mem.write64 (Word.sub (Word.alignUp (Word.add raw 8) (2 ^ k)) 8) raw }),
        s.dma⟩ := by
  have hptr : Word.alignUp (Word.add raw 8) (2 ^ k) ≠ 0 := by
    have := hin.lo
    omega
  simp only [receiveAligned, alignBlock, if_neg (Nat.not_le.mpr hk), if_neg hraw, if_neg hptr,
    Mem.read64_write64 hlt]

/-- A pointer with an alignment below a page, whatever the outcome of `malloc`. -/
lemma mallocAligned_step (hI : Inv aslr s) (hk : 2 ^ k < pageSize)
    (hsz : alignedTotal size (2 ^ k) < blockLimit)
    (hroom : supply.pages = none → s.heap.arena.regions.length + 1 < vmArenaMaxRegions) :
    ∃ r, s.heap.mallocAligned size (2 ^ k) supply block = .ok r ∧
      Inv aslr (s.receiveAligned size (2 ^ k) r) := by
  obtain ⟨slabs, hI⟩ := hI
  rw [mallocAligned_eq s.heap supply block hk hsz]
  cases hI.malloc hsz hroom with
  | null h' hok hnew =>
    refine ⟨(0, h'), by simp [hok, Except.map, alignBlock], slabs, ?_⟩
    simpa [receiveAligned, Nat.not_le.mpr hk] using hnew
  | sampled i g hs hi hpos hst hslots hok =>
    have hin := alignedIn_slot hi hk hs.1
    have hmanaged := userVirt_managed hi hs.1
    have hact := hI.activate hslots supply.caller supply.frame hi hs.1
    generalize Gwp.userVirt i (alignedTotal size (2 ^ k)) = raw at *
    have hbd : raw ≠ 0 ∧ raw < 2 ^ 64 := by
      obtain ⟨hlo, hhi⟩ := hmanaged
      unfold gwpVirtLimit gwpVirtBase gwpAsanSlots pageSize at *
      omega
    refine ⟨_, by rw [hok]; rfl, ?_⟩
    rw [receiveAligned_block hk hbd.1 hbd.2 hin]
    refine ⟨slabs, ?_⟩
    simp only [receive, hmanaged, or_true, if_true]
    refine hact.setGwp hact.gwp (fun x hx => ?_) (fun _ _ => rfl)
    have hlo := hin.lo
    have hword := hin.word
    have hbase := hmanaged.1
    apply Mem.sameOutside_write64
    omega
  | block b h' slabs' g hnot hslots hbsize hok hgrant =>
    have hb : b ∈ b :: s.live := mem_cons_self
    have hin := hgrant.inv.alignedIn hb hbsize hk
    have hlt := hgrant.inv.ptr_lt hb
    have hne : b.ptr ≠ 0 := by
      unfold Block.ptr heapHeaderSize
      omega
    refine ⟨_, by rw [hok]; rfl, ?_⟩
    rw [receiveAligned_block hk hne (by omega) hin]
    have hmanaged := hgrant.inv.not_managed hb
    rw [receive_block hbsize hmanaged]
    exact ⟨slabs', (hgrant.inv.aligned_write hb hbsize hin (Mem.SameOutside.refl _ _ _)).2.2⟩

/-- Every step of well-behaved users is without fault and keeps the invariant. -/
lemma exec_ok (hI : Inv aslr s) (hfair : op.Fair s) (hexec : s.exec op = some r) :
    ∃ t, r = .ok t ∧ Inv aslr t := by
  cases op with
  | heap op =>
    obtain ⟨r', hr', rfl⟩ := Option.map_eq_some_iff.mp hexec
    obtain ⟨t, rfl, ht⟩ := HeapState.exec_ok hI hfair.1 hfair.2 hr'
    exact ⟨_, rfl, ht⟩
  | kmallocAligned size alignment supply block =>
    cases hexec
    obtain ⟨hsized, hroom⟩ := hfair
    by_cases hval : alignment = 0 ∨ alignment &&& (alignment - 1) ≠ 0
    · refine ⟨_, by rw [mallocAligned, if_pos hval]; rfl, ?_⟩
      unfold receiveAligned receiveDma
      split
      · exact hI
      · exact hI
    · by_cases hpage : pageSize ≤ alignment
      · rw [if_pos hpage] at hsized
        have hdma : (AlignedOp.kmallocDma size alignment supply.pages block).Fair s := by
          refine ⟨?_, hroom⟩
          rwa [if_neg (Nat.not_lt.mpr hpage)]
        obtain ⟨r, hok, hnew⟩ := mallocDma_step hI hdma
        refine ⟨_, by rw [mallocAligned, if_neg hval, if_pos hpage, hok]; rfl, ?_⟩
        rwa [receiveAligned, if_pos hpage]
      · rw [if_neg hpage] at hsized
        rw [not_or, not_not] at hval
        obtain ⟨k, rfl⟩ := Word.exists_two_pow_of_and_pred hval.1 hval.2
        obtain ⟨r, hok, hnew⟩ := mallocAligned_step hI (Nat.not_le.mp hpage) hsized hroom
        exact ⟨_, by rw [hok]; rfl, hnew⟩
  | kfreeAligned ptr caller =>
    obtain ⟨hcond, ⟨⟩⟩ := then_of_ite hexec
    have hne : ptr ≠ 0 := by
      rintro rfl
      exact hcond.1 (Nat.zero_and _)
    obtain ⟨h, hok, hnew⟩ := free_step hI hcond.2 hfair
    rw [freeAligned, if_neg hne, if_neg hcond.1, hok]
    exact ⟨_, rfl, hnew⟩
  | kmallocDma size alignment supply block =>
    cases hexec
    obtain ⟨r, hok, hnew⟩ := mallocDma_step hI hfair
    exact ⟨_, by rw [hok]; rfl, hnew⟩
  | kfreeDma ptr size =>
    obtain ⟨hcond, ⟨⟩⟩ := then_of_ite hexec
    obtain ⟨h, hok, hnew⟩ := freeDma_step hI hcond.1 hcond.2.1 hcond.2.2 hfair
    rw [hok]
    exact ⟨_, rfl, hnew⟩
  | writeDma a v =>
    obtain ⟨hcond, ⟨⟩⟩ := then_of_ite hexec
    obtain ⟨slabs, hI⟩ := hI
    obtain ⟨r, hr, hlo, hhi⟩ := hcond
    exact ⟨_, rfl, slabs, hI.write_pinned hr ((Mem.sameOutside_fill _ _ _ _).mono hlo (by omega))⟩

/-- A step of a sequence of calls. -/
def Step (s : AlignedState) (op : AlignedOp) (t : AlignedState) : Prop :=
  op.Fair s ∧ s.exec op = some (.ok t)

lemma inv_of_run {magic canary : Nat} {ops : List AlignedOp}
    (hrun : Run Step (init magic canary aslr) ops s) : Inv aslr s := by
  refine hrun.invariant (I := Inv aslr) (fun s op t hI hstep => ?_)
    (inv_init magic canary aslr)
  obtain ⟨t', heq, ht'⟩ := exec_ok hI hstep.1 hstep.2
  cases heq
  exact ht'

end AlignedState

/-- A step as a partial function. -/
def AlignedState.tryStep (s : AlignedState) (op : AlignedOp) : Option AlignedState :=
  if op.Fair s then (s.exec op).bind Except.toOption else none

lemma AlignedState.step_of_tryStep (s : AlignedState) (op : AlignedOp) (t : AlignedState)
    (h : s.tryStep op = some t) : s.Step op t := by
  obtain ⟨hfair, h⟩ := then_of_ite h
  obtain ⟨r, hr, ht⟩ := Option.bind_eq_some_iff.mp h
  exact ⟨hfair, by rw [hr, ok_of_toOption ht]⟩

/-- A sampled block, a page range and a small block. -/
def alignedOps : List AlignedOp :=
  [.heap (.kmalloc 100 plenty), .kmallocDma 5000 4096 plenty.pages none,
    .heap (.kmalloc 100 plenty)]

end Singularity.KernelHeap
