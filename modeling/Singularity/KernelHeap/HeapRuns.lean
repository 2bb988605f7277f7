import Singularity.KernelHeap.Blocks

/-!
# Sequences of heap calls

Users keep the blocks they were given, write only to the bytes they asked for and free
each block once. Some requests are sampled and answered by GWP-ASAN; the other blocks
are the live blocks of the state. Every call keeps the invariant of the heap as long as
the arena finds room for the ranges that are given back.
-/

namespace Singularity.KernelHeap

open Foundation Function List Span

/-- A call to the heap or a write of a user. -/
inductive HeapOp where
  | kmalloc (size : Nat) (supply : Supply)
  | kcalloc (num size : Nat) (supply : Supply)
  | kfree (ptr caller : Nat)
  | write (a : Nat) (v : UInt8)

/-- The heap with the blocks that are in use and not sampled. -/
structure HeapState where
  heap : Heap
  live : List Block

namespace HeapState

def init (magic canary aslr : Nat) : HeapState := ⟨Heap.init magic canary aslr, []⟩

/-- The block of a pointer from the part of `malloc` behind the sampling. -/
def receive (s : HeapState) (size : Nat) (r : Nat × Heap) : HeapState :=
  ⟨r.2, if r.1 = 0 ∨ gwpAsanIsManaged r.1 then s.live
    else ⟨r.1 - heapHeaderSize, size⟩ :: s.live⟩

/-- A pointer some user holds. -/
def Owned (s : HeapState) (ptr : Nat) : Prop :=
  (∃ b ∈ s.live, b.ptr = ptr) ∨
    ∃ i < gwpAsanSlots, (s.heap.gwp.slots i).state = .active ∧ (s.heap.gwp.slots i).userPtr = ptr

/-- A byte some user asked for. -/
def Writable (s : HeapState) (a : Nat) : Prop :=
  (∃ b ∈ s.live, b.ptr ≤ a ∧ a < b.ptr + b.size) ∨
    ∃ i < gwpAsanSlots, (s.heap.gwp.slots i).state = .active ∧
      (s.heap.gwp.slots i).userPtr ≤ a ∧
      a < (s.heap.gwp.slots i).userPtr + (s.heap.gwp.slots i).userSize

instance (s : HeapState) (ptr : Nat) : Decidable (s.Owned ptr) :=
  inferInstanceAs (Decidable (_ ∨ _))

instance (s : HeapState) (a : Nat) : Decidable (s.Writable a) :=
  inferInstanceAs (Decidable (_ ∨ _))

/-- One step; no result if the users do not behave. -/
def exec (s : HeapState) : HeapOp → Option (Except HeapFault HeapState)
  | .kmalloc size supply => some ((s.heap.malloc size supply).map (s.receive size))
  | .kcalloc num size supply =>
    some ((s.heap.calloc num size supply).map (s.receive (Word.mul num size)))
  | .kfree ptr caller =>
    if s.Owned ptr then
      some ((s.heap.free ptr caller).map fun heap =>
        ⟨heap, s.live.eraseP fun b => b.ptr == ptr⟩)
    else none
  | .write a v =>
    if s.Writable a then some (.ok { s with heap := { s.heap with mem := s.heap.mem.fill a 1 v } })
    else none

end HeapState

namespace HeapOp

/-- The sizes asked for are at most `KHEAP_MAX_SIZE`, or too large for a word. -/
def Sized : HeapOp → Prop
  | kmalloc size _ => size ≤ kheapMaxSize
  | kcalloc num size _ => num * size ≤ kheapMaxSize ∨ 2 ^ 64 ≤ num * size
  | _ => True

/-- The arena has room for the ranges the call gives back: the pages of a freed block, or
those of a request that got no frames. -/
def Roomy (s : HeapState) : HeapOp → Prop
  | kmalloc _ supply =>
    supply.pages = none → s.heap.arena.regions.length + 1 < vmArenaMaxRegions
  | kcalloc _ _ supply =>
    supply.pages = none → s.heap.arena.regions.length + 1 < vmArenaMaxRegions
  | kfree ptr _ => ∀ b ∈ s.live, b.ptr = ptr → sizeBucket b.size = none →
      s.heap.arena.regions.length < vmArenaMaxRegions
  | write _ _ => True

instance (op : HeapOp) : Decidable op.Sized :=
  match op with
  | kmalloc _ _ => inferInstanceAs (Decidable (_ ≤ _))
  | kcalloc _ _ _ => inferInstanceAs (Decidable (_ ∨ _))
  | kfree _ _ => inferInstanceAs (Decidable True)
  | write _ _ => inferInstanceAs (Decidable True)

instance (s : HeapState) (op : HeapOp) : Decidable (op.Roomy s) :=
  match op with
  | kmalloc _ _ => inferInstanceAs (Decidable (_ → _))
  | kcalloc _ _ _ => inferInstanceAs (Decidable (_ → _))
  | kfree _ _ => inferInstanceAs (Decidable (∀ b ∈ s.live, _ → _ → _))
  | write _ _ => inferInstanceAs (Decidable True)

end HeapOp

lemma kheapMaxSize_lt : kheapMaxSize < blockLimit := by decide

variable {g : Gwp} {i size : Nat}

lemma findSlot_some (h : g.findSlot p = some i) : i < gwpAsanSlots ∧ p (g.slots i) = true :=
  ⟨mem_range.mp (mem_of_find?_eq_some h), find?_some (p := fun i => p (g.slots i)) h⟩

lemma findSlot_isSome (hi : i < gwpAsanSlots)
    (hp : p (g.slots i) = true) : ∃ j, g.findSlot p = some j := by
  apply Option.isSome_iff_exists.mp
  rw [Gwp.findSlot, find?_isSome]
  exact ⟨i, mem_range.mpr hi, hp⟩

section
variable (hi : i < gwpAsanSlots) (hsz : size < pageSize)
include hi hsz

lemma userVirt_eq : Gwp.userVirt i size = (slotDataPage i + pageSize - size) / 8 * 8 := by
  have hlt := (slotDataPage_bounds hi).2
  have hlimit : gwpVirtLimit < 2 ^ 64 := by decide
  have hdvd : 8 ∣ slotDataPage i := by
    unfold slotDataPage slotBase gwpVirtBase slotStride pageSize
    omega
  have hmask : (slotDataPage i + pageSize - size) &&& Word.compl 7 =
      (slotDataPage i + pageSize - size) / 8 * 8 :=
    Word.and_compl_two_pow (k := 3) (by omega) (by decide)
  rw [Gwp.userVirt, hmask]
  exact if_neg (by omega)

lemma userVirt_bounds :
    slotDataPage i ≤ Gwp.userVirt i size ∧
      Gwp.userVirt i size + size ≤ slotDataPage i + pageSize := by
  have hdvd : 8 ∣ slotDataPage i := by
    unfold slotDataPage slotBase gwpVirtBase slotStride pageSize
    omega
  rw [userVirt_eq hi hsz]
  omega

lemma GwpOk.activate (h : GwpOk g frames) (caller frame : Nat) :
    GwpOk (g.activate i size caller) (update frames (slotDataPage i) frame) := by
  refine ⟨fun j hj hact => ?_, fun j hj hact => ?_⟩
  · by_cases hji : j = i
    · subst hji
      simp only [Gwp.activate, update_self]
      exact userVirt_bounds hi hsz
    · simp only [Gwp.activate, update_of_ne hji] at hact ⊢
      exact h.object j hj hact
  · by_cases hji : j = i
    · subst hji
      simp [Gwp.activate] at hact
    · simp only [Gwp.activate, update_of_ne hji] at hact
      rw [update_of_ne fun heq => hji (slotDataPage_injective heq)]
      exact h.unmapped j hj hact

end

lemma GwpOk.retire (h : GwpOk g frames) (i caller : Nat) :
    GwpOk (g.retire i caller) (update frames (slotDataPage i) 0) := by
  refine ⟨fun j hj hact => ?_, fun j hj hact => ?_⟩
  · by_cases hji : j = i
    · subst hji
      simp [Gwp.retire] at hact
    · simp only [Gwp.retire, update_of_ne hji] at hact ⊢
      exact h.object j hj hact
  · by_cases hji : j = i
    · rw [hji, update_self]
    · simp only [Gwp.retire, update_of_ne hji] at hact
      rw [update_of_ne fun heq => hji (slotDataPage_injective heq)]
      exact h.unmapped j hj hact

lemma GwpOk.slot_unique (h : GwpOk g frames) (hi : i < gwpAsanSlots) (hj : j < gwpAsanSlots)
    (hact : (g.slots i).state = .active) (hactive' : (g.slots j).state = .active)
    (hptr : (g.slots i).userPtr = (g.slots j).userPtr) : i = j := by
  obtain ⟨hlo, hhi⟩ := h.object i hi hact
  obtain ⟨hlo', hhi'⟩ := h.object j hj hactive'
  unfold slotDataPage slotBase slotStride pageSize at *
  omega

lemma shouldSample_slots (g : Gwp) : g.shouldSample.2.slots = g.slots := by
  unfold Gwp.shouldSample
  split
  · rfl
  · rfl

variable {aslr : Nat} {pinned : List VmRange} {slabs : List (Nat × Nat)} {supply : Supply}

section
variable {h : Heap} {live : List Block}

section
variable (hI : HeapInv aslr pinned h live slabs)
include hI

lemma HeapInv.setGwp (hg : GwpOk g frames) (hm : ∀ x, x < gwpVirtBase → m x = h.mem x)
    (hframes : ∀ v, v < gwpVirtBase → frames v = h.frames v) :
    HeapInv aslr pinned { h with gwp := g, mem := m, frames } live slabs := by
  have hend := heapEnd_lt_gwp
  have hmem : HeapLayout (heapStart aslr) heapEnd { h with mem := m } slabs (objsOf live)
      (largeOf live ++ pinned) :=
    hI.layout.write_outside fun x _ hx => hm x (hx.trans hend)
  refine ⟨hmem.congr rfl rfl rfl fun v hv => hframes v (hv.trans_lt hend), hI.sized,
    hI.distinct, fun b hb => ?_, hI.magic_lt, hI.canary_lt, hg⟩
  apply (hI.intact b hb).congr
  intro x hx hin
  apply hm x
  have hlimit := (hI.block_limit hb).2
  unfold totalSize at *
  omega

lemma HeapInv.not_managed (hb : b ∈ live) : ¬ gwpAsanIsManaged b.ptr := by
  rintro ⟨hlo, -⟩
  have hlimit := (hI.block_limit hb).2
  have hend := heapEnd_lt_gwp
  unfold Block.ptr at hlo
  unfold totalSize at hlimit
  omega

lemma HeapInv.activate (hslots : g.slots = h.gwp.slots) (caller frame : Nat)
    (hi : i < gwpAsanSlots) (hsz : size < pageSize) :
    HeapInv aslr pinned { h with
      frames := update h.frames (slotDataPage i) frame
      mem := h.mem.fill (slotDataPage i) pageSize 0
      gwp := g.activate i size caller } live slabs := by
  have hbase := (slotDataPage_bounds hi).1
  have hg : GwpOk g h.frames := hI.gwp.congr hslots fun _ _ => rfl
  refine hI.setGwp (hg.activate hi hsz caller frame) (fun x hx => ?_) (fun v hv => ?_)
  · apply Mem.sameOutside_fill
    omega
  · exact update_of_ne (by omega) _ _

lemma HeapInv.gwpAsanFree (hi : i < gwpAsanSlots) (hact : (h.gwp.slots i).state = .active)
    (hptr : (h.gwp.slots i).userPtr = ptr) (caller : Nat) :
    h.gwpAsanFree ptr caller = .ok { h with
        frames := update h.frames (slotDataPage i) 0
        mem := h.mem.fill (slotDataPage i) pageSize 0xDE
        gwp := h.gwp.retire i caller } ∧
      HeapInv aslr pinned { h with
        frames := update h.frames (slotDataPage i) 0
        mem := h.mem.fill (slotDataPage i) pageSize 0xDE
        gwp := h.gwp.retire i caller } live slabs := by
  obtain ⟨slot, hslot⟩ := findSlot_isSome (g := h.gwp)
    (p := fun s => s.state == .active && s.userPtr == ptr) hi (by simp [hact, hptr])
  obtain ⟨hlt, hfound⟩ := findSlot_some hslot
  rw [Bool.and_eq_true, beq_iff_eq, beq_iff_eq] at hfound
  obtain rfl : slot = i := hI.gwp.slot_unique hlt hi hfound.1 hact (hfound.2.trans hptr.symm)
  have hbase := (slotDataPage_bounds hi).1
  refine ⟨by rw [Heap.gwpAsanFree, hslot], hI.setGwp (hI.gwp.retire slot caller)
    (fun x hx => ?_) (fun v hv => ?_)⟩
  · apply Mem.sameOutside_fill
    omega
  · exact update_of_ne (by omega) _ _

end

/-- The request is answered by GWP-ASAN. -/
def Heap.Sampled (h : Heap) (size : Nat) (supply : Supply) : Prop :=
  size < pageSize ∧ h.gwp.shouldSample.1 = true ∧
    (∃ i < gwpAsanSlots, (h.gwp.slots i).state = .free) ∧ supply.frame ≠ 0

instance (h : Heap) (size : Nat) (supply : Supply) : Decidable (h.Sampled size supply) :=
  inferInstanceAs (Decidable (_ ∧ _))

lemma shouldSample_initialized (hs : g.shouldSample.1 = true) :
    g.shouldSample.2.initialized = true := by
  unfold Gwp.shouldSample at hs ⊢
  split_ifs with hinit
  · exact hinit
  · rw [if_neg hinit] at hs
    cases hs

lemma malloc_of_sampled (hpos : 0 < size) (hs : h.Sampled size supply) :
    ∃ i < gwpAsanSlots, ∃ g : Gwp, g.slots = h.gwp.slots ∧ (h.gwp.slots i).state = .free ∧
      h.malloc size supply = .ok (Gwp.userVirt i size, { h with
        frames := update h.frames (slotDataPage i) supply.frame
        mem := h.mem.fill (slotDataPage i) pageSize 0
        gwp := g.activate i size supply.caller }) := by
  obtain ⟨hsmall, hsample, ⟨j, hj, hfree⟩, hframe⟩ := hs
  have hinit := shouldSample_initialized hsample
  have hslots := shouldSample_slots h.gwp
  obtain ⟨i, hfind⟩ := findSlot_isSome (g := h.gwp.shouldSample.2)
    (p := fun s => s.state == .free) hj (by simp [hslots, hfree])
  obtain ⟨hi, hst⟩ := findSlot_some hfind
  rw [beq_iff_eq, hslots] at hst
  have hne : Gwp.userVirt i size ≠ 0 := by
    have hlo := (userVirt_bounds hi hsmall).1
    have hbase := (slotDataPage_bounds hi).1
    omega
  refine ⟨i, hi, h.gwp.shouldSample.2, hslots, hst, ?_⟩
  simp [Heap.malloc, Heap.gwpAsanMalloc, hpos.ne', hsmall, Nat.not_le.mpr hsmall, hsample, hinit,
    hfind, hframe, hne]

lemma malloc_of_not_sampled (hpos : 0 < size) (hs : ¬ h.Sampled size supply) :
    ∃ g : Gwp, g.slots = h.gwp.slots ∧
      h.malloc size supply = ({ h with gwp := g } : Heap).mallocUnsampled size supply.pages := by
  by_cases hsmall : size < pageSize
  · have hslots := shouldSample_slots h.gwp
    refine ⟨h.gwp.shouldSample.2, hslots, ?_⟩
    by_cases hsample : h.gwp.shouldSample.1 = true
    · have hnull : (({ h with gwp := h.gwp.shouldSample.2 } : Heap).gwpAsanMalloc size
          supply.caller supply.frame) = (0, { h with gwp := h.gwp.shouldSample.2 }) := by
        unfold Heap.gwpAsanMalloc
        split
        · rfl
        · split
          · rfl
          case h_2 slot hslot =>
            obtain ⟨hlt, hfree⟩ := findSlot_some hslot
            rw [beq_iff_eq, hslots] at hfree
            have hframe : supply.frame = 0 := by
              by_contra hne
              exact hs ⟨hsmall, hsample, ⟨slot, hlt, hfree⟩, hne⟩
            rw [if_pos hframe]
      simp [Heap.malloc, hpos.ne', hsmall, hsample, hnull]
    · simp [Heap.malloc, hpos.ne', hsmall, hsample]
  · exact ⟨h.gwp, rfl, by simp [Heap.malloc, hpos.ne', hsmall]⟩

/-- The three outcomes of `malloc`. -/
inductive MallocOutcome (aslr : Nat) (pinned : List VmRange) (h : Heap) (live : List Block)
    (slabs : List (Nat × Nat)) (size : Nat) (supply : Supply) : Prop
  | null (h' : Heap) (hok : h.malloc size supply = .ok (0, h'))
      (hI : HeapInv aslr pinned h' live slabs)
  | sampled (i : Nat) (g : Gwp) (hsampled : h.Sampled size supply) (hi : i < gwpAsanSlots)
      (hpos : 0 < size) (hfree : (h.gwp.slots i).state = .free) (hslots : g.slots = h.gwp.slots)
      (hok : h.malloc size supply = .ok (Gwp.userVirt i size, { h with
        frames := update h.frames (slotDataPage i) supply.frame
        mem := h.mem.fill (slotDataPage i) pageSize 0
        gwp := g.activate i size supply.caller }))
  | block (b : Block) (h' : Heap) (slabs' : List (Nat × Nat)) (g : Gwp)
      (hnot : ¬ h.Sampled size supply) (hslots : g.slots = h.gwp.slots) (hsz : b.size = size)
      (hok : h.malloc size supply = .ok (b.ptr, h'))
      (hgrant : BlockGrant aslr pinned { h with gwp := g } live slabs b h' slabs')

lemma HeapInv.malloc (hI : HeapInv aslr pinned h live slabs) (hsz : size < blockLimit)
    (hroom : supply.pages = none → h.arena.regions.length + 1 < vmArenaMaxRegions) :
    MallocOutcome aslr pinned h live slabs size supply := by
  by_cases h0 : size = 0
  · exact .null h (by rw [Heap.malloc, if_pos h0]) hI
  have hpos : 0 < size := Nat.pos_of_ne_zero h0
  by_cases hs : h.Sampled size supply
  · obtain ⟨i, hi, g, hslots, hfree, hok⟩ := malloc_of_sampled hpos hs
    exact .sampled i g hs hi hpos hfree hslots hok
  obtain ⟨g, hslots, heq⟩ := malloc_of_not_sampled hpos hs
  have hinv' : HeapInv aslr pinned { h with gwp := g } live slabs :=
    hI.setGwp (hI.gwp.congr hslots fun _ _ => rfl) (fun _ _ => rfl) (fun _ _ => rfl)
  cases hinv'.mallocUnsampled hpos hsz hroom with
  | null arena hok hnull => exact .null _ (heq.trans hok) hnull
  | block b h' slabs' hok hbsize hgrant =>
    exact .block b h' slabs' g hs hslots hbsize (heq.trans hok) hgrant

end

variable {s : HeapState}

namespace HeapState

/-- The invariant of heap and users. -/
def Inv (aslr : Nat) (pinned : List VmRange) (s : HeapState) : Prop :=
  ∃ slabs, HeapInv aslr pinned s.heap s.live slabs

variable {t : HeapState}

lemma inv_init (magic canary aslr : Nat) : Inv aslr [] (init magic canary aslr) := by
  have hword : ∀ x d : Nat, d < 2 ^ 64 → (if x % 2 ^ 64 = 0 then d else x % 2 ^ 64) < 2 ^ 64 := by
    intro x d hd
    split
    · exact hd
    · exact Nat.mod_lt _ (by decide)
  refine ⟨[], ⟨held_init (placed_heap aslr), by simp, fun i _ => rfl,
    fun i _ => ⟨_, cacheInv_init _ (bucketSize i)⟩, fun v _ _ _ => rfl⟩, by simp [init],
    nodup_nil, by simp [init], hword _ _ (by decide), hword _ _ (by decide), ?_⟩
  exact ⟨fun i _ hact => (by cases hact), fun i _ _ => rfl⟩

lemma receive_block (hsz : b.size = size) (hmanaged : ¬ gwpAsanIsManaged b.ptr) (s : HeapState) :
    s.receive size (b.ptr, h) = ⟨h, b :: s.live⟩ := by
  have hcond : ¬ (b.ptr = 0 ∨ gwpAsanIsManaged b.ptr) := by
    rintro (h0 | hm)
    · unfold Block.ptr heapHeaderSize at h0
      omega
    · exact hmanaged hm
  have hreal : b.ptr - heapHeaderSize = b.real := Nat.add_sub_cancel _ _
  simp only [receive, if_neg hcond, hreal, ← hsz]

/-- A request keeps the invariant, whatever its outcome, and a user may write the bytes. -/
lemma malloc_step (hI : Inv aslr pinned s) (hsz : size < blockLimit)
    (hroom : supply.pages = none → s.heap.arena.regions.length + 1 < vmArenaMaxRegions) :
    ∃ p h, s.heap.malloc size supply = .ok (p, h) ∧ Inv aslr pinned (s.receive size (p, h)) ∧
      (p ≠ 0 → ∀ m, Mem.SameOutside p size h.mem m →
        Inv aslr pinned (s.receive size (p, { h with mem := m }))) := by
  obtain ⟨slabs, hI⟩ := hI
  cases hI.malloc hsz hroom with
  | null h hok hnew => exact ⟨0, h, hok, ⟨slabs, hnew⟩, fun hne => absurd rfl hne⟩
  | sampled i g hs hi hpos hfree hslots hok =>
    have hnew := hI.activate hslots supply.caller supply.frame hi hs.1
    obtain ⟨hlo, hhi⟩ := userVirt_bounds hi hs.1
    obtain ⟨hbase, hlimit⟩ := slotDataPage_bounds hi
    have hmanaged : gwpAsanIsManaged (Gwp.userVirt i size) := ⟨by omega, by omega⟩
    have hlive : ∀ h', s.receive size (Gwp.userVirt i size, h') = ⟨h', s.live⟩ := fun h' => by
      simp [receive, hmanaged]
    refine ⟨_, _, hok, ?_, fun _ m hm => ?_⟩
    · rw [hlive]
      exact ⟨slabs, hnew⟩
    rw [hlive]
    refine ⟨slabs, hnew.setGwp hnew.gwp (fun x hx => ?_) (fun _ _ => rfl)⟩
    apply hm x
    omega
  | block b h slabs' g hnot hslots hbsize hok hgrant =>
    have hb := hgrant.inv
    have hmanaged := hb.not_managed mem_cons_self
    refine ⟨b.ptr, h, hok, ?_, fun _ m hm => ?_⟩
    · rw [receive_block hbsize hmanaged]
      exact ⟨slabs', hb⟩
    · rw [receive_block hbsize hmanaged]
      refine ⟨slabs', hb.user_write mem_cons_self ?_⟩
      rwa [hbsize]

lemma mul_lt_of_fits (hnum : ¬ (num ≠ 0 ∧ (2 ^ 64 - 1) / num < size)) : num * size < 2 ^ 64 := by
  by_cases h0 : num = 0
  · simp [h0]
  have hle : size ≤ (2 ^ 64 - 1) / num := by
    by_contra hlt
    exact hnum ⟨h0, Nat.not_le.mp hlt⟩
  have := (Nat.le_div_iff_mul_le (Nat.pos_of_ne_zero h0)).mp hle
  rw [Nat.mul_comm] at this
  omega

lemma calloc_step (hI : Inv aslr pinned s) (hsz : num * size ≤ kheapMaxSize ∨ 2 ^ 64 ≤ num * size)
    (hroom : supply.pages = none → s.heap.arena.regions.length + 1 < vmArenaMaxRegions) :
    ∃ p h, s.heap.calloc num size supply = .ok (p, h) ∧
      Inv aslr pinned (s.receive (Word.mul num size) (p, h)) ∧
      (p ≠ 0 → ∀ x, p ≤ x → x < p + num * size → h.mem x = 0) := by
  by_cases hover : num ≠ 0 ∧ (2 ^ 64 - 1) / num < size
  · refine ⟨0, s.heap, if_pos hover, ?_, fun hne => absurd rfl hne⟩
    simpa [receive] using hI
  have hlt := mul_lt_of_fits hover
  have hmul : Word.mul num size = num * size := Word.mul_eq hlt
  have hmax : num * size < blockLimit :=
    (hsz.resolve_right (Nat.not_le.mpr hlt)).trans_lt kheapMaxSize_lt
  obtain ⟨p, h, hok, hnew, hfill⟩ := malloc_step hI hmax hroom
  rw [Heap.calloc, if_neg hover, hmul, hok]
  by_cases hp : p = 0
  · refine ⟨p, h, ?_, hnew, fun hne => absurd hp hne⟩
    simp [Except.map, hp]
  · refine ⟨p, { h with mem := h.mem.fill p (num * size) 0 }, ?_,
      hfill hp _ (Mem.sameOutside_fill _ _ _ _), fun _ x hlo hhi => Mem.fill_apply hlo hhi⟩
    simp [Except.map, hp]

lemma perm_eraseP (hI : HeapInv aslr pinned s.heap s.live slabs) (hb : b ∈ s.live) :
    s.live.Perm (b :: s.live.eraseP fun c => c.ptr == b.ptr) := by
  obtain ⟨c, pre, post, -, hc, hsplit, herase⟩ :=
    exists_of_eraseP (p := fun c : Block => c.ptr == b.ptr) hb (beq_self_eq_true _)
  have hreal : c.real = b.real := Nat.add_right_cancel (beq_iff_eq.mp hc)
  obtain rfl := inj_on_of_nodup_map hI.distinct (by simp [hsplit]) hb hreal
  rw [herase, hsplit]
  exact perm_middle

/-- A pointer in use is that of a live block, or GWP-ASAN takes it. -/
lemma free_cases (hI : HeapInv aslr pinned s.heap s.live slabs)
    (howned : s.Owned ptr) (caller : Nat) :
    (∃ b ∈ s.live, b.ptr = ptr) ∨
      ∃ m frames g, (∀ x, x < gwpVirtBase → m x = s.heap.mem x) ∧
        s.heap.free ptr caller = .ok { s.heap with gwp := g, mem := m, frames } ∧
        HeapInv aslr pinned { s.heap with gwp := g, mem := m, frames } s.live slabs ∧
        (s.live.eraseP fun b => b.ptr == ptr) = s.live := by
  by_cases hlive : ∃ b ∈ s.live, b.ptr = ptr
  · exact .inl hlive
  obtain ⟨i, hi, hact, hptr⟩ := howned.resolve_left hlive
  obtain ⟨hok, hnew⟩ := hI.gwpAsanFree hi hact hptr caller
  obtain ⟨hlo, hhi⟩ := hI.gwp.object i hi hact
  obtain ⟨hbase, hlimit⟩ := slotDataPage_bounds hi
  have hmanaged : gwpAsanIsManaged ptr := by
    exact ⟨by omega, by omega⟩
  have hne : ptr ≠ 0 := by
    omega
  refine .inr ⟨_, _, _, fun x hx => ?_, ?_, hnew, ?_⟩
  · apply Mem.sameOutside_fill
    omega
  · rwa [Heap.free, if_neg hne, if_pos hmanaged]
  · apply eraseP_of_forall_not
    intro b hb hbptr
    exact hlive ⟨b, hb, beq_iff_eq.mp hbptr⟩

lemma free_step (hI : Inv aslr pinned s) (howned : s.Owned ptr)
    (hroom : HeapOp.Roomy s (.kfree ptr caller)) :
    ∃ h, s.heap.free ptr caller = .ok h ∧
      Inv aslr pinned ⟨h, s.live.eraseP fun b => b.ptr == ptr⟩ := by
  obtain ⟨slabs, hI⟩ := hI
  obtain ⟨b, hb, rfl⟩ | ⟨m, frames, g, -, hok, hnew, herase⟩ := free_cases hI howned caller
  · obtain ⟨h, hok, hnew, -⟩ := hI.free (perm_eraseP hI hb) caller (hroom b hb rfl)
    exact ⟨h, hok, slabs, hnew⟩
  · rw [herase]
    exact ⟨_, hok, slabs, hnew⟩

lemma write_step (hI : Inv aslr pinned s) (hwritable : s.Writable a) :
    Inv aslr pinned { s with heap := { s.heap with mem := s.heap.mem.fill a 1 v } } := by
  obtain ⟨slabs, hI⟩ := hI
  obtain ⟨b, hb, hlo, hhi⟩ | ⟨i, hi, hact, hlo, -⟩ := hwritable
  · exact ⟨slabs, hI.user_write hb ((Mem.sameOutside_fill _ _ _ _).mono hlo hhi)⟩
  obtain ⟨hpage, -⟩ := hI.gwp.object i hi hact
  have hbase := (slotDataPage_bounds hi).1
  refine ⟨slabs, hI.setGwp hI.gwp (fun x hx => ?_) (fun _ _ => rfl)⟩
  apply Mem.sameOutside_fill
  omega

lemma exec_ok (hI : Inv aslr pinned s) (hsized : op.Sized) (hroom : op.Roomy s)
    (hexec : s.exec op = some r) : ∃ t, r = .ok t ∧ Inv aslr pinned t := by
  cases op with
  | kmalloc size supply =>
    obtain ⟨p, h, hok, hnew, -⟩ := malloc_step hI (hsized.trans_lt kheapMaxSize_lt) hroom
    cases hexec
    exact ⟨_, by rw [hok]; rfl, hnew⟩
  | kcalloc num size supply =>
    obtain ⟨p, h, hok, hnew, -⟩ := calloc_step hI hsized hroom
    cases hexec
    exact ⟨_, by rw [hok]; rfl, hnew⟩
  | kfree ptr caller =>
    obtain ⟨howned, hexec⟩ := then_of_ite hexec
    obtain ⟨h, hok, hnew⟩ := free_step hI howned hroom
    cases hexec
    exact ⟨_, by rw [hok]; rfl, hnew⟩
  | write a v =>
    obtain ⟨hwritable, ⟨⟩⟩ := then_of_ite hexec
    exact ⟨_, rfl, write_step hI hwritable⟩

/-- A step of a sequence of calls. -/
def Step (s : HeapState) (op : HeapOp) (t : HeapState) : Prop :=
  op.Sized ∧ op.Roomy s ∧ s.exec op = some (.ok t)

lemma inv_of_run (hrun : Run Step (init magic canary aslr) ops s) : Inv aslr [] s := by
  refine hrun.invariant (I := Inv aslr []) (fun s op t hI hstep => ?_) (inv_init magic canary aslr)
  obtain ⟨t', ht', hnew⟩ := exec_ok hI hstep.1 hstep.2.1 hstep.2.2
  cases ht'
  exact hnew

end HeapState

/-- Header, bytes of the user and canary of a block lie in one object of a slab of its
bucket, or in pages of its own that the arena does not have. -/
def Contained (h : Heap) (b : Block) : Prop :=
  match sizeBucket b.size with
  | some i => totalSize b.size ≤ (h.buckets i).objSize ∧
      ∃ j L slab, Links.Linked (h.buckets i).links 0 ((h.buckets i).head j) L ∧ slab ∈ L ∧
        b.real ∈ objects (h.buckets i).objSize slab
  | none => totalSize b.size ≤ blockPages b.size * pageSize ∧
      b.real + blockPages b.size * pageSize ≤ h.arena.watermark ∧
      ∀ x, Within b.range x → ¬ Covered h.arena.regions x

lemma HeapInv.contained (hI : HeapInv aslr pinned h live slabs) (hb : b ∈ live) :
    Contained h b := by
  have hof := (hI.piece_of hb).1
  have hlen := (piece_len b).2.1
  unfold Contained
  unfold Block.piece at hof hlen
  split
  case h_1 i hi =>
    rw [hi] at hof hlen
    have hlt := (sizeBucket_some hi).1
    obtain ⟨L, hcache⟩ := hI.layout.cache i hlt
    obtain ⟨j, hj⟩ := ((hcache.held_iff _).mp (mem_heldOf.mpr hof.1)).resolve_right not_false
    rw [hI.layout.objSize i hlt]
    exact ⟨hlen, j, L j, _, hcache.listed.linked j, hj, hof.2⟩
  case h_2 hnone =>
    rw [hnone] at hof
    have hmem : b.range ∈ reserved slabs (largeOf live ++ pinned) := mem_append_right _ hof
    exact ⟨(blockPages_bounds _).1, (hI.layout.held.inside _ hmem).2,
      hI.layout.held.offRegions _ hmem⟩

/-- A step as a partial function. -/
def HeapState.tryStep (s : HeapState) (op : HeapOp) : Option HeapState :=
  if op.Sized ∧ op.Roomy s then (s.exec op).bind Except.toOption else none

lemma HeapState.step_of_tryStep (s : HeapState) (op : HeapOp) (t : HeapState)
    (h : s.tryStep op = some t) : s.Step op t := by
  obtain ⟨hcond, h⟩ := then_of_ite h
  obtain ⟨r, hr, ht⟩ := Option.bind_eq_some_iff.mp h
  exact ⟨hcond.1, hcond.2, by rw [hr, ok_of_toOption ht]⟩

/-- A sampled, a small and two large blocks, a write, and a release. -/
def heapOps : List HeapOp :=
  let supply : Supply := ⟨0, 0x5000, some fun i => 0x100000 + i * pageSize⟩
  [.kmalloc 100 supply, .kmalloc 2000 supply, .kmalloc 5000 supply, .kcalloc 9 1000 supply,
    .write (kheapStartVirtual + 0x2010) 7, .kfree (kheapStartVirtual + 0x2010) 0]

/-- The block with a given number when blocks of two pages are taken in a row. -/
def bigBlock (aslr i : Nat) : Block := ⟨heapStart aslr + i * (2 * pageSize), 5000⟩

lemma bigBlock_facts : sizeBucket 5000 = none ∧ blockPages 5000 = 2 ∧ 5000 ≤ kheapMaxSize := by
  decide

/-- Frames for every page. -/
def plenty : Supply := ⟨0, 1, some fun _ => 1⟩

/-- A request for a large block takes two pages. -/
lemma exec_bigBlock (hend : heapStart aslr + (i + 1) * (2 * pageSize) ≤ heapEnd)
    (halloc : s.heap.arena.alloc 2 = ((bigBlock aslr i).real, a)) :
    ∃ t, s.Step (.kmalloc 5000 plenty) t ∧ t.heap.arena = a ∧
      t.live = bigBlock aslr i :: s.live := by
  obtain ⟨hnone, hpages, hsz⟩ := bigBlock_facts
  have hstart := heapStart_pos aslr
  have hbd : (bigBlock aslr i).real ≠ 0 ∧ (bigBlock aslr i).ptr < gwpVirtBase := by
    have hgwp := heapEnd_lt_gwp
    unfold Block.ptr bigBlock heapHeaderSize
    unfold pageSize at *
    dsimp only
    omega
  have hgwp : gwpVirtBase < 2 ^ 64 := by decide
  have hptr : Word.add (bigBlock aslr i).real heapHeaderSize = (bigBlock aslr i).ptr :=
    Word.add_eq (hbd.2.trans hgwp)
  have hmanaged : ¬ gwpAsanIsManaged (bigBlock aslr i).ptr := fun hin =>
    absurd hin.1 (Nat.not_le.mpr hbd.2)
  have hmalloc : s.heap.malloc 5000 plenty =
      (s.heap.vmmAlloc 2 plenty.pages).map (Heap.finish 5000 (blockBytes 5000)) := by
    rw [← hpages, ← mallocUnsampled_large s.heap (hsz.trans_lt kheapMaxSize_lt) hnone]
    simp [Heap.malloc, pageSize]
  obtain ⟨h, hvmm, hnew⟩ : ∃ h, s.heap.vmmAlloc 2 plenty.pages =
      .ok ((bigBlock aslr i).real, h) ∧ h.arena = a := by
    simp only [Heap.vmmAlloc, Heap.mapRange, halloc, if_neg hbd.1, plenty]
    exact ⟨_, rfl, rfl⟩
  refine ⟨⟨h.stamp (bigBlock aslr i).real (blockBytes 5000) 5000, bigBlock aslr i :: s.live⟩,
    ⟨hsz, by rintro ⟨⟩, ?_⟩, (stamp_arena h _ _ _).trans hnew, rfl⟩
  simp only [HeapState.exec, hmalloc, hvmm, Except.map, Heap.finish, if_neg hbd.1, hptr]
  have hsz : (bigBlock aslr i).size = 5000 := rfl
  rw [HeapState.receive_block hsz hmanaged]

lemma exec_freeBigBlock (hI : s.Inv aslr pinned) (hb : bigBlock aslr i ∈ s.live)
    (hroom : s.heap.arena.regions.length < vmArenaMaxRegions) :
    ∃ t, s.Step (.kfree (bigBlock aslr i).ptr 0) t ∧
      s.heap.arena.free (bigBlock aslr i).real 2 = some t.heap.arena ∧
      ∀ j, j ≠ i → bigBlock aslr j ∈ s.live → bigBlock aslr j ∈ t.live := by
  obtain ⟨hnone, hpages, -⟩ := bigBlock_facts
  obtain ⟨slabs, hheap⟩ := hI
  obtain ⟨h, hok, -, hret, -⟩ :=
    hheap.free (perm_cons_erase hb) 0 fun _ => hroom
  have howned : s.Owned (bigBlock aslr i).ptr := Or.inl ⟨_, hb, rfl⟩
  refine ⟨⟨h, s.live.eraseP fun b => b.ptr == (bigBlock aslr i).ptr⟩,
    ⟨trivial, fun _ _ _ _ => hroom, ?_⟩, ?_, fun j hj hmem => ?_⟩
  · simp only [HeapState.exec, if_pos howned, hok]
    rfl
  · rw [← hpages]
    exact hret.2.1
  · refine (mem_eraseP_of_neg ?_).mpr hmem
    simp only [beq_iff_eq]
    refine fun heq => hj ?_
    unfold Block.ptr bigBlock pageSize at heq
    dsimp only at heq
    omega

end Singularity.KernelHeap
