import Singularity.Foundation.Runs
import Singularity.Paging.Walk
import Mathlib.Data.Fintype.Basic
import Mathlib.Logic.Function.Basic

/-!
# Translation lookaside buffers and the release of frames

Each CPU caches translations it used. `unmapPage` clears the page-table entry, invalidates
the page on its own CPU and broadcasts an interrupt without waiting for an answer; the other
CPUs reload CR3 in `tlb_flush_handler`, which keeps their global translations. The loop of
`KernelHeap::free` and `SlabCache::freeSlab` releases a frame after `unmapPage`, the loop of
`freeStack` before it.
-/

namespace Singularity.Paging

open Foundation Function List Option

def tlbInvlpgThreshold : Nat := 32
def vmmStart : Nat := 0xFFFF800000000000
def vmmSize : Nat := 0x100000000

/-- The part of an address that selects its page. -/
def pageNumber (virt : Nat) : Nat := virt / 2 ^ 12 % 2 ^ 36

/-- A cached translation. -/
structure Translation where
  page : Nat
  frame : Nat
  global : Bool
  deriving DecidableEq

/-- The two loops that release pages; `freeStack` invalidates its range once more at the end. -/
inductive Loop where
  | heap
  | stack (base pages : Nat)
  deriving DecidableEq

/-- What a CPU does next: `pages` counts the pages after the one at `virt`, and `pa` is what
`get_physical_address` returned for it. -/
inductive Phase where
  | idle
  | next (loop : Loop) (virt pages : Nat)
  | unmap (loop : Loop) (virt pages pa : Nat)
  | invalidate (loop : Loop) (virt pages pa : Nat)
  | broadcast (loop : Loop) (virt pages pa : Nat)
  | release (loop : Loop) (virt pages pa : Nat)
  | flush (base pages : Nat)
  | flushBroadcast
  deriving DecidableEq

/-- The tables, and each CPU's cached translations, pending flush interrupt and place in a loop. -/
structure Machine (κ : Type) where
  tables : Tables
  tlb : κ → List Translation
  ipi : κ → Bool
  phase : κ → Phase

inductive Event (κ : Type) where
  /-- An access to a mapped page. -/
  | use (c : κ) (virt : Nat)
  /-- The buffer drops a page of its own accord. -/
  | evict (c : κ) (page : Nat)
  /-- The loops of `KernelHeap::free` and `SlabCache::freeSlab`. -/
  | freePages (c : κ) (virt pages : Nat)
  | freeStack (c : κ) (base pages : Nat)
  /-- The next action of a loop; `sent` tells whether the APIC took the interrupt. -/
  | advance (c : κ) (sent : Bool)
  /-- The flush interrupt is handled. -/
  | tlbFlushHandler (c : κ)
  deriving DecidableEq

/-- The buffer after `tlbInvalidate` on its own CPU. -/
def invalidateLocal (start pages : Nat) (tlb : List Translation) : List Translation :=
  if pages ≤ tlbInvlpgThreshold then
    tlb.filter fun τ => (List.range pages).all fun i =>
      let addr := Word.add (start &&& Word.compl 0xFFF) (i * 4096)
      !(decide (Canonical addr) && decide (pageNumber addr = τ.page))
  else tlb.filter (·.global)

/-- The continuation of a loop behind `unmapPage`. -/
def Loop.unmapped : Loop → (virt pages pa : Nat) → Phase
  | heap, virt, pages, pa =>
    if pa = 0 then .next heap (Word.add virt 4096) pages else .release heap virt pages pa
  | stack base n, virt, pages, _ => .next (stack base n) (Word.add virt 4096) pages

variable {κ : Type} {c d : κ}

namespace Machine

variable [DecidableEq κ]

def boot (tables : Tables) : Machine κ := ⟨tables, fun _ => [], fun _ => false, fun _ => .idle⟩

def setPhase (m : Machine κ) (c : κ) (p : Phase) : Machine κ :=
  { m with phase := update m.phase c p }

def setTlb (m : Machine κ) (c : κ) (tlb : List Translation) : Machine κ :=
  { m with tlb := update m.tlb c tlb }

section
variable {m : Machine κ}

@[simp] lemma setPhase_self (p : Phase) : (m.setPhase c p).phase c = p :=
  update_self ..

lemma setPhase_of_ne (hd : d ≠ c) (p : Phase) : (m.setPhase c p).phase d = m.phase d :=
  update_of_ne hd ..

@[simp] lemma setTlb_self (tlb : List Translation) : (m.setTlb c tlb).tlb c = tlb :=
  update_self ..

end

/-- The broadcast to all other CPUs. -/
def sendIpi (m : Machine κ) (numCpus : Nat) (c : κ) (sent : Bool) : Machine κ :=
  if 1 < numCpus ∧ sent = true then
    { m with ipi := fun d => if d = c then m.ipi d else true }
  else m

@[simp] lemma sendIpi_phase (m : Machine κ) (numCpus : Nat) (c : κ) (sent : Bool) :
    (m.sendIpi numCpus c sent).phase = m.phase := by
  unfold sendIpi
  split <;> rfl

@[simp] lemma sendIpi_tables (m : Machine κ) (numCpus : Nat) (c : κ) (sent : Bool) :
    (m.sendIpi numCpus c sent).tables = m.tables := by
  unfold sendIpi
  split <;> rfl

/-- The next action of the loop a CPU is in. -/
def advance (m : Machine κ) (cr3 numCpus : Nat) (c : κ) (sent : Bool) : Option (Machine κ) :=
  match m.phase c with
  | .idle => none
  | .next .heap _ 0 => some (m.setPhase c .idle)
  | .next (.stack base n) _ 0 => some (m.setPhase c (.flush base n))
  | .next .heap virt (pages + 1) =>
    some (m.setPhase c (.unmap .heap virt pages (virtToPhysAsm m.tables cr3 virt)))
  | .next (.stack base n) virt (pages + 1) =>
    let pa := virtToPhysAsm m.tables cr3 virt
    if pa = 0 then some (m.setPhase c (.unmap (.stack base n) virt pages pa))
    else some (m.setPhase c (.release (.stack base n) virt pages pa))
  | .unmap loop virt pages pa =>
    let next := if (unmapEntry cr3 m.tables virt).isSome then
      Phase.invalidate loop virt pages pa else loop.unmapped virt pages pa
    some ({ m with tables := unmapPage cr3 m.tables virt }.setPhase c next)
  | .invalidate loop virt pages pa =>
    some ((m.setTlb c (invalidateLocal virt 1 (m.tlb c))).setPhase c
      (.broadcast loop virt pages pa))
  | .broadcast loop virt pages pa =>
    some ((m.sendIpi numCpus c sent).setPhase c (loop.unmapped virt pages pa))
  | .release .heap virt pages _ =>
    some (m.setPhase c (.next .heap (Word.add virt 4096) pages))
  | .release (.stack base n) virt pages pa =>
    some (m.setPhase c (.unmap (.stack base n) virt pages pa))
  | .flush base pages =>
    if pages = 0 then some (m.setPhase c .idle)
    else some ((m.setTlb c (invalidateLocal base pages (m.tlb c))).setPhase c .flushBroadcast)
  | .flushBroadcast => some ((m.sendIpi numCpus c sent).setPhase c .idle)

def step? (cr3 numCpus : Nat) (m : Machine κ) : Event κ → Option (Machine κ)
  | .use c virt =>
    if Canonical virt then
      (mappedEntry m.tables cr3 virt).map fun e =>
        m.setTlb c (⟨pageNumber virt, getAddress e, getFlag e pageGlobal⟩ :: m.tlb c)
    else none
  | .evict c page => some (m.setTlb c ((m.tlb c).filter fun τ => τ.page ≠ page))
  | .freePages c virt pages =>
    if m.phase c = .idle then some (m.setPhase c (.next .heap virt pages)) else none
  | .freeStack c base pages =>
    if m.phase c = .idle then
      let guard := Word.sub base 4096
      if base = 0 then some m
      else if guard < vmmStart ∨ vmmStart + vmmSize ≤ guard then some m
      else some (m.setPhase c (.next (.stack base pages) base pages))
    else none
  | .advance c sent => m.advance cr3 numCpus c sent
  | .tlbFlushHandler c =>
    if m.ipi c then
      some ({ m with ipi := update m.ipi c false }.setTlb c ((m.tlb c).filter (·.global)))
    else none

/-- No CPU and no page-table entry leads to the frame of a physical address. -/
def Unreferenced (m : Machine κ) (cr3 pa : Nat) : Prop :=
  (∀ d, ∀ τ ∈ m.tlb d, τ.frame ≠ pa / 2 ^ 12 * 2 ^ 12) ∧
    ∀ v e, mappedEntry m.tables cr3 v = some e → getAddress e ≠ pa / 2 ^ 12 * 2 ^ 12

end Machine

section
variable [DecidableEq κ]

/-- The condition on an action of a loop, in the state before it. -/
def LoopCondition (cr3 numCpus : Nat) (home : Nat → κ) (m : Machine κ) (c : κ) (sent : Bool) :
    Phase → Prop
  | .next .heap virt (_ + 1) =>
    (home (pageNumber virt) = c ∧ virt % 2 ^ 12 = 0 ∧ Canonical virt) ∧
      SmallPage m.tables cr3 virt
  | .unmap .heap virt _ _ => SmallPage m.tables cr3 virt
  | .next (.stack ..) virt (_ + 1) | .unmap (.stack ..) virt _ _ => walk m.tables cr3 virt = none
  | .broadcast .heap .. => (∀ d, d = c) ∨ 1 < numCpus ∧ sent = true
  | .release .heap .. => ∀ d, d ≠ c → m.ipi d = false
  | _ => True

/-- Global pages are used and released on one CPU, `home`; a frame is released when the other
CPUs have handled their flush interrupts; stacks that are still mapped are not freed. -/
def Condition (cr3 numCpus : Nat) (home : Nat → κ) (m : Machine κ) : Event κ → Prop
  | .use c virt => ∀ e ∈ mappedEntry m.tables cr3 virt,
      getFlag e pageGlobal = true → home (pageNumber virt) = c
  | .advance c sent => LoopCondition cr3 numCpus home m c sent (m.phase c)
  | _ => True

/-- A step that meets the condition. -/
def ConditionStep (cr3 numCpus : Nat) (home : Nat → κ) (m : Machine κ) (event : Event κ)
    (m' : Machine κ) : Prop :=
  Condition cr3 numCpus home m event ∧ m.step? cr3 numCpus event = some m'

end

/-- A page-table entry maps a page to a frame. -/
def Maps (t : Tables) (cr3 page frame : Nat) : Prop :=
  ∃ v e, pageNumber v = page ∧ mappedEntry t cr3 v = some e ∧ getAddress e = frame

variable {t : Tables} {virt : Nat}

section
variable {cr3 page frame frame' : Nat}

lemma getIndexes_eq_iff (v v' : Nat) :
    getIndexes v = getIndexes v' ↔ pageNumber v = pageNumber v' := by
  rw [getIndexes_eq, getIndexes_eq, Indexes.mk.injEq, pageNumber, pageNumber]
  omega

lemma Maps.unique (h : Maps t cr3 page frame) (h' : Maps t cr3 page frame') : frame = frame' := by
  obtain ⟨v, e, hv, he, rfl⟩ := h
  obtain ⟨v', e', hv', he', rfl⟩ := h'
  have hix := (getIndexes_eq_iff v v').mpr (hv.trans hv'.symm)
  rw [mappedEntry_congr hix, he'] at he
  cases he
  rfl

/-- `unmapPage` takes away one page. -/
lemma maps_unmapPage (hsep : Separate t cr3) (hsmall : SmallPage t cr3 virt)
    (page frame : Nat) : Maps (unmapPage cr3 t virt) cr3 page frame ↔
      Maps t cr3 page frame ∧ page ≠ pageNumber virt := by
  constructor
  · rintro ⟨v, e, rfl, he, rfl⟩
    obtain ⟨hbefore, hix⟩ := (mappedEntry_unmapPage hsep hsmall).mp he
    exact ⟨⟨v, e, rfl, hbefore, rfl⟩, fun heq => hix ((getIndexes_eq_iff v virt).mpr heq)⟩
  · rintro ⟨⟨v, e, rfl, he, rfl⟩, hne⟩
    refine ⟨v, e, rfl, (mappedEntry_unmapPage hsep hsmall).mpr ⟨he, fun hix => hne ?_⟩, rfl⟩
    exact (getIndexes_eq_iff v virt).mp hix

lemma mappedEntry_of_walk (h : walk t cr3 virt = none) : mappedEntry t cr3 virt = none := by
  unfold mappedEntry
  split
  · rfl
  case isFalse hne =>
    rw [walk_eq_of_pageTable hne] at h
    obtain ⟨hpres, h⟩ := else_of_ite h
    exact if_neg hpres

lemma not_maps_of_walk (h : walk t cr3 virt = none) : ¬ Maps t cr3 (pageNumber virt) frame := by
  rintro ⟨v, e, hv, he, -⟩
  rw [mappedEntry_congr ((getIndexes_eq_iff v virt).mpr hv), mappedEntry_of_walk h] at he
  cases he

/-- What `get_physical_address` returns for the address of a page. -/
lemma virtToPhysAsm_maps (hsmall : SmallPage t cr3 virt) (halign : virt % 2 ^ 12 = 0) :
    virtToPhysAsm t cr3 virt % 2 ^ 12 = 0 ∧
      (∀ f, Maps t cr3 (pageNumber virt) f → f = virtToPhysAsm t cr3 virt) ∧
      (virtToPhysAsm t cr3 virt ≠ 0 → Maps t cr3 (pageNumber virt) (virtToPhysAsm t cr3 virt)) := by
  by_cases hne : pageTable t cr3 virt = 0
  · have hnone := hsmall.resolve_right (fun h => h hne)
    rw [virtToPhysAsm_of_walk hnone]
    exact ⟨rfl, fun f hf => absurd hf (not_maps_of_walk hnone), fun h => absurd rfl h⟩
  rw [virtToPhysAsm_of_pageTable hne, halign, Nat.add_zero]
  split_ifs with hpres
  · have hmaps : Maps t cr3 (pageNumber virt) (getAddress (pageEntry t cr3 virt)) :=
      ⟨virt, _, rfl, mappedEntry_eq_some.mpr ⟨hne, hpres, rfl⟩, rfl⟩
    refine ⟨?_, fun f hf => hf.unique hmaps, fun _ => hmaps⟩
    rw [getAddress_eq]
    exact Nat.mul_mod_left _ _
  · have hnone : walk t cr3 virt = none := by rw [walk_eq_of_pageTable hne, if_neg hpres]
    exact ⟨rfl, fun f hf => absurd hf (not_maps_of_walk hnone), fun h => absurd rfl h⟩

end

section
variable {cr3 numCpus : Nat} {home : Nat → κ} {m m' : Machine κ}

/-- The page and the frame of a CPU between the clearing of the entry and the release. -/
def Phase.retired : Phase → Option (Nat × Nat)
  | .invalidate .heap virt _ pa | .broadcast .heap virt _ pa | .release .heap virt _ pa =>
    some (pageNumber virt, pa)
  | _ => none

/-- A translation that CPU `d` may still hold while CPU `c` is about to release its frame. -/
def Lingers (c d : κ) (ipi : Bool) (τ : Translation) : Phase → Prop
  | .invalidate .heap virt _ pa =>
    (pageNumber virt = τ.page ∧ pa = τ.frame) ∧ (d ≠ c → τ.global = false)
  | .broadcast .heap virt _ pa =>
    (pageNumber virt = τ.page ∧ pa = τ.frame) ∧ d ≠ c ∧ τ.global = false
  | .release .heap virt _ pa =>
    (pageNumber virt = τ.page ∧ pa = τ.frame) ∧ d ≠ c ∧ τ.global = false ∧ ipi = true
  | _ => False

/-- The page a loop is at belongs to its CPU. -/
structure OwnPage (home : Nat → κ) (c : κ) (virt pa : Nat) : Prop where
  home : home (pageNumber virt) = c
  aligned : virt % 2 ^ 12 = 0
  canonical : Canonical virt
  frame : pa % 2 ^ 12 = 0

def PhaseOk (t : Tables) (cr3 : Nat) (home : Nat → κ) (c : κ) : Phase → Prop
  | .unmap .heap virt _ pa =>
    OwnPage home c virt pa ∧ (∀ f, Maps t cr3 (pageNumber virt) f → f = pa) ∧
      (pa ≠ 0 → Maps t cr3 (pageNumber virt) pa)
  | .invalidate .heap virt _ pa | .broadcast .heap virt _ pa =>
    OwnPage home c virt pa ∧ (pa ≠ 0 → ∀ p, ¬ Maps t cr3 p pa)
  | .release .heap _ _ pa => pa % 2 ^ 12 = 0 ∧ pa ≠ 0 ∧ ∀ p, ¬ Maps t cr3 p pa
  | .release (.stack ..) .. => False
  | _ => True

/-- A translation to a frame other than frame zero is that of the tables, or lingers on until
the frame is released. -/
structure TlbInv (cr3 : Nat) (home : Nat → κ) (m : Machine κ) : Prop where
  separate : Separate m.tables cr3
  injective : ∀ p p' f, Maps m.tables cr3 p f → Maps m.tables cr3 p' f → p = p'
  tlb : ∀ d, ∀ τ ∈ m.tlb d, τ.frame ≠ 0 → Maps m.tables cr3 τ.page τ.frame ∨
    ∃ c, Lingers c d (m.ipi d) τ (m.phase c)
  global : ∀ d, ∀ τ ∈ m.tlb d, τ.global = true → home τ.page = d
  phase : ∀ c, PhaseOk m.tables cr3 home c (m.phase c)
  distinct : ∀ c c' p p' f, (m.phase c).retired = some (p, f) →
    (m.phase c').retired = some (p', f) → f ≠ 0 → c = c'

variable {ipi : Bool} {τ : Translation} {p : Phase}

lemma Lingers.retired (h : Lingers c d ipi τ p) : p.retired = some (τ.page, τ.frame) := by
  unfold Lingers at h
  split at h
  case h_4 => exact h.elim
  all_goals
    obtain ⟨⟨hpage, hframe⟩, -⟩ := h
    rw [Phase.retired, hpage, hframe]

lemma Lingers.mono (h : Lingers c d ipi τ p) : Lingers c d true τ p := by
  unfold Lingers at h ⊢
  split at h
  case h_3 => exact ⟨h.1, h.2.1, h.2.2.1, rfl⟩
  all_goals exact h

lemma Lingers.of_global (h : Lingers c d ipi τ p) (hglobal : τ.global = true) (ipi' : Bool) :
    Lingers c d ipi' τ p := by
  unfold Lingers at h ⊢
  split at h
  case h_3 =>
    rw [hglobal] at h
    cases h.2.2.1
  all_goals exact h

lemma PhaseOk.mono (h : PhaseOk t cr3 home c p) (hmaps : ∀ p f, Maps t' cr3 p f → Maps t cr3 p f)
    (hown : ∀ p f, home p = c → Maps t cr3 p f → Maps t' cr3 p f) : PhaseOk t' cr3 home c p := by
  unfold PhaseOk at h ⊢
  split at h
  · obtain ⟨hpage, hall, hframe⟩ := h
    exact ⟨hpage, fun f hf => hall f (hmaps _ _ hf), fun hne => hown _ _ hpage.home (hframe hne)⟩
  · exact ⟨h.1, fun hne p hp => h.2 hne p (hmaps _ _ hp)⟩
  · exact ⟨h.1, fun hne p hp => h.2 hne p (hmaps _ _ hp)⟩
  · exact ⟨h.1, h.2.1, fun p hp => h.2.2 p (hmaps _ _ hp)⟩
  · exact h
  · trivial

namespace TlbInv

lemma congr_tables (h : TlbInv cr3 home m) (hsep : Separate t cr3)
    (hmaps : ∀ p f, Maps t cr3 p f ↔ Maps m.tables cr3 p f) :
    TlbInv cr3 home { m with tables := t } := by
  refine ⟨hsep, ?_, ?_, h.global, ?_, h.distinct⟩
  · intro p p' f hp hp'
    exact h.injective p p' f ((hmaps p f).mp hp) ((hmaps p' f).mp hp')
  · intro d τ hτ hframe
    obtain hcur | hlingers := h.tlb d τ hτ hframe
    · exact .inl ((hmaps _ _).mpr hcur)
    · exact .inr hlingers
  · intro c
    exact (h.phase c).mono (fun p f => (hmaps p f).mp) (fun p f _ => (hmaps p f).mpr)

lemma unmap_stack (h : TlbInv cr3 home m) (hwalk : walk m.tables cr3 virt = none) :
    TlbInv cr3 home { m with tables := unmapPage cr3 m.tables virt } := by
  apply h.congr_tables h.separate.unmapPage
  intro p f
  rw [maps_unmapPage h.separate (.inl hwalk)]
  refine ⟨fun hp => hp.1, fun hp => ⟨hp, ?_⟩⟩
  rintro rfl
  exact not_maps_of_walk hwalk hp

lemma boot (hsep : Separate t cr3) (hinj : ∀ p p' f, Maps t cr3 p f → Maps t cr3 p' f → p = p') :
    TlbInv cr3 home (Machine.boot t) := by
  refine ⟨hsep, hinj, ?_, ?_, fun _ => trivial, ?_⟩
  · rintro d τ ⟨⟩
  · rintro d τ ⟨⟩
  · rintro c c' p p' f ⟨⟩

variable {pages pa : Nat} {sent : Bool}

lemma unreferenced (h : TlbInv cr3 home m) (hphase : m.phase c = .release loop virt pages pa)
    (hcond : Condition cr3 numCpus home m (.advance c sent)) : m.Unreferenced cr3 pa := by
  have hok := h.phase c
  simp only [Condition, hphase] at hcond
  rw [hphase] at hok
  cases loop with
  | stack base n => exact hok.elim
  | heap =>
    obtain ⟨halign, hpa, hgone⟩ := hok
    have hframe : pa / 2 ^ 12 * 2 ^ 12 = pa := by omega
    rw [Machine.Unreferenced, hframe]
    constructor
    · intro d τ hτ heq
      obtain hmaps | ⟨c', hc'⟩ := h.tlb d τ hτ (heq ▸ hpa)
      · rw [heq] at hmaps
        exact hgone _ hmaps
      have hretired := hc'.retired
      rw [heq] at hretired
      have hsame := h.distinct c' c _ _ pa hretired (by rw [hphase]; rfl) hpa
      rw [hsame, hphase] at hc'
      obtain ⟨-, hd, -, hipi⟩ := hc'
      rw [hcond d hd] at hipi
      cases hipi
    · intro v e he heq
      exact hgone _ ⟨v, e, rfl, he, heq⟩

variable [DecidableEq κ] {tlb : List Translation}

section
variable (h : TlbInv cr3 home m)
include h

lemma setTlb (hnew : ∀ τ ∈ tlb, τ ∈ m.tlb c ∨
      Maps m.tables cr3 τ.page τ.frame ∧ (τ.global = true → home τ.page = c)) :
    TlbInv cr3 home (m.setTlb c tlb) := by
  have htlbs (P : κ → List Translation → Prop) (hc : P c tlb) (hothers : ∀ d, P d (m.tlb d)) :
      ∀ d, P d ((m.setTlb c tlb).tlb d) :=
    (forall_update_iff m.tlb P).mpr ⟨hc, fun d _ => hothers d⟩
  refine ⟨h.separate, h.injective, htlbs (fun d tlb => ∀ τ ∈ tlb, τ.frame ≠ 0 →
      Maps m.tables cr3 τ.page τ.frame ∨ ∃ c, Lingers c d (m.ipi d) τ (m.phase c)) ?_ h.tlb,
    htlbs (fun d tlb => ∀ τ ∈ tlb, τ.global = true → home τ.page = d) ?_ h.global, h.phase,
    h.distinct⟩
  · intro τ hτ hframe
    obtain hold | hmaps := hnew τ hτ
    · exact h.tlb c τ hold hframe
    · exact .inl hmaps.1
  · intro τ hτ hglobal
    obtain hold | hmaps := hnew τ hτ
    · exact h.global c τ hold hglobal
    · exact hmaps.2 hglobal

lemma setPhase (hok : PhaseOk m.tables cr3 home c p)
    (hlingers : ∀ d, ∀ τ ∈ m.tlb d, τ.frame ≠ 0 → Lingers c d (m.ipi d) τ (m.phase c) →
      Lingers c d (m.ipi d) τ p)
    (hretired : ∀ x, p.retired = some x → (m.phase c).retired = some x) :
    TlbInv cr3 home (m.setPhase c p) := by
  have hphases (P : κ → Phase → Prop) (hc : P c p) (hothers : ∀ d, P d (m.phase d)) :
      ∀ d, P d ((m.setPhase c p).phase d) :=
    (forall_update_iff m.phase P).mpr ⟨hc, fun d _ => hothers d⟩
  have hback := hphases (fun d p => ∀ x, p.retired = some x → (m.phase d).retired = some x)
    hretired fun _ _ hx => hx
  refine ⟨h.separate, h.injective, fun d τ hτ hframe => ?_, h.global,
    hphases (fun d p => PhaseOk m.tables cr3 home d p) hok h.phase, ?_⟩
  · refine (h.tlb d τ hτ hframe).imp_right fun ⟨c', hc'⟩ => ⟨c', ?_⟩
    exact hphases (fun c' p => Lingers c' d (m.ipi d) τ (m.phase c') → Lingers c' d (m.ipi d) τ p)
      (hlingers d τ hτ hframe) (fun _ h => h) c' hc'
  · intro d d' q q' f hq hq' hf
    exact h.distinct d d' q q' f (hback d _ hq) (hback d' _ hq') hf

lemma setPhase_of_retired (hphase : m.phase c = q) (hold : q.retired = none)
    (hnew : p.retired = none) (hok : PhaseOk m.tables cr3 home c p) :
    TlbInv cr3 home (m.setPhase c p) := by
  apply h.setPhase hok
  · intro d τ _ _ hlingers
    rw [← hphase, hlingers.retired] at hold
    cases hold
  · intro x hx
    rw [hnew] at hx
    cases hx

lemma sendIpi (c : κ) (sent : Bool) : TlbInv cr3 home (m.sendIpi numCpus c sent) := by
  unfold Machine.sendIpi
  split
  case isFalse => exact h
  case isTrue =>
    refine ⟨h.separate, h.injective, ?_, h.global, h.phase, h.distinct⟩
    intro d τ hτ hframe
    obtain hmaps | ⟨c', hc'⟩ := h.tlb d τ hτ hframe
    · exact .inl hmaps
    right
    refine ⟨c', ?_⟩
    dsimp only
    split
    · exact hc'
    · exact hc'.mono

/-- The handler drops the translations that are not global, and only those can linger on a
CPU that does not release them. -/
lemma tlbFlushHandler (c : κ) :
    TlbInv cr3 home ({ m with ipi := update m.ipi c false }.setTlb c
      ((m.tlb c).filter (·.global))) := by
  have hfiltered : TlbInv cr3 home (m.setTlb c ((m.tlb c).filter (·.global))) :=
    h.setTlb fun τ hτ => .inl (mem_filter.mp hτ).1
  refine ⟨h.separate, h.injective, ?_, hfiltered.global, h.phase, h.distinct⟩
  intro d τ hτ hframe
  obtain hmaps | ⟨c', hc'⟩ := hfiltered.tlb d τ hτ hframe
  · exact .inl hmaps
  right
  refine ⟨c', ?_⟩
  by_cases hd : d = c
  · subst hd
    have hglobal : τ.global = true := by
      rw [Machine.setTlb_self, mem_filter] at hτ
      exact hτ.2
    exact hc'.of_global hglobal _
  · simpa only [Machine.setTlb, update_of_ne hd] using hc'

/-- The loop of the heap clears the entry of its page; the translations of the page linger. -/
lemma unmap_heap
    (hphase : m.phase c = .unmap .heap virt pages pa) (hsmall : SmallPage m.tables cr3 virt) :
    TlbInv cr3 home ({ m with tables := unmapPage cr3 m.tables virt }.setPhase c
      (.invalidate .heap virt pages pa)) := by
  have hok := h.phase c
  rw [hphase] at hok
  obtain ⟨hown, hall, hframe⟩ := hok
  have hmaps := maps_unmapPage h.separate hsmall
  have hretired : (m.phase c).retired = none := by rw [hphase]; rfl
  have hgone (p : Nat) (hpa : pa ≠ 0) : ¬ Maps (unmapPage cr3 m.tables virt) cr3 p pa := by
    intro hp
    obtain ⟨hp, hne⟩ := (hmaps p pa).mp hp
    exact hne (h.injective _ _ _ hp (hframe hpa))
  refine ⟨h.separate.unmapPage, ?_, ?_, h.global, ?_, ?_⟩
  · intro p p' f hp hp'
    exact h.injective p p' f ((hmaps p f).mp hp).1 ((hmaps p' f).mp hp').1
  · intro d τ hτ hne
    obtain hcur | ⟨c', hc'⟩ := h.tlb d τ hτ hne
    · by_cases hpage : τ.page = pageNumber virt
      · right
        refine ⟨c, ?_⟩
        rw [Machine.setPhase_self]
        rw [hpage] at hcur
        refine ⟨⟨hpage.symm, (hall _ hcur).symm⟩, fun hd => ?_⟩
        -- a global translation would belong to the CPU of the loop
        by_contra hglobal
        rw [Bool.not_eq_false] at hglobal
        apply hd
        rw [← h.global d τ hτ hglobal, hpage, hown.home]
      · exact .inl ((hmaps _ _).mpr ⟨hcur, hpage⟩)
    · right
      refine ⟨c', ?_⟩
      have hne : c' ≠ c := by
        rintro rfl
        rw [hc'.retired] at hretired
        cases hretired
      rwa [Machine.setPhase_of_ne hne]
  · intro d
    by_cases hd : d = c
    · subst hd
      rw [Machine.setPhase_self]
      exact ⟨hown, fun hpa p => hgone p hpa⟩
    rw [Machine.setPhase_of_ne hd]
    apply (h.phase d).mono
    · exact fun p f hp => ((hmaps p f).mp hp).1
    intro p f hhome hp
    refine (hmaps p f).mpr ⟨hp, ?_⟩
    rintro rfl
    exact hd (hhome.symm.trans hown.home)
  · -- no other CPU releases the frame, since this one had it mapped
    have hfresh (d : κ) (q : Nat) (hq : (m.phase d).retired = some (q, pa)) (hpa : pa ≠ 0) :
        False := by
      have hok := h.phase d
      unfold Phase.retired at hq
      split at hq <;> cases hq
      all_goals rename_i heq; rw [heq] at hok
      · exact hok.2 hpa _ (hframe hpa)
      · exact hok.2 hpa _ (hframe hpa)
      · exact hok.2.2 _ (hframe hpa)
    have hback := (forall_update_iff (b := .invalidate .heap virt pages pa) m.phase
        fun d p => ∀ x, p.retired = some x →
          (m.phase d).retired = some x ∨ d = c ∧ (pageNumber virt, pa) = x).mpr
      ⟨fun x hx => .inr ⟨rfl, Option.some.inj hx⟩, fun d _ x hx => .inl hx⟩
    intro d d' q q' f hq hq' hf
    obtain hold | ⟨rfl, heq⟩ := hback d _ hq <;> obtain hold' | ⟨rfl, heq'⟩ := hback d' _ hq'
    · exact h.distinct d d' q q' f hold hold' hf
    · cases heq'
      exact (hfresh d q hold hf).elim
    · cases heq
      exact (hfresh d' q' hold' hf).elim
    · rfl

end

/-- `invlpg` on the page of the loop. -/
lemma not_mem_invalidateLocal (halign : virt % 2 ^ 12 = 0) (hcanon : Canonical virt)
    (hτ : τ ∈ invalidateLocal virt 1 tlb) :
    pageNumber virt ≠ τ.page := by
  have haddr : Word.add (virt &&& Word.compl 0xFFF) (0 * 4096) = virt := by
    have hlt : virt < 2 ^ 64 := by
      unfold Canonical at hcanon
      omega
    have hpage : virt &&& Word.compl 0xFFF = virt / 2 ^ 12 * 2 ^ 12 :=
      Word.and_compl_two_pow (k := 12) hlt (by decide)
    rw [hpage, Word.add]
    omega
  rw [invalidateLocal, if_pos (by decide), mem_filter] at hτ
  have hrange := hτ.2
  simp only [range_one, all_cons, all_nil, Bool.and_true, haddr, hcanon,
    decide_true, Bool.true_and, Bool.not_eq_true', decide_eq_false_iff_not] at hrange
  exact hrange

lemma mem_of_mem_invalidateLocal (hτ : τ ∈ invalidateLocal start pages tlb) : τ ∈ tlb := by
  unfold invalidateLocal at hτ
  split at hτ <;> exact (mem_filter.mp hτ).1

variable (h : TlbInv cr3 home m)
include h

lemma invalidateLocal (c : κ) (start pages : Nat) :
    TlbInv cr3 home (m.setTlb c (invalidateLocal start pages (m.tlb c))) :=
  h.setTlb fun _ hτ => .inl (mem_of_mem_invalidateLocal hτ)

lemma invalidate_heap (hphase : m.phase c = .invalidate .heap virt pages pa) :
    TlbInv cr3 home ((m.setTlb c (Paging.invalidateLocal virt 1 (m.tlb c))).setPhase c
      (.broadcast .heap virt pages pa)) := by
  have hok := h.phase c
  rw [hphase] at hok
  refine (h.invalidateLocal c virt 1).setPhase hok ?_ ?_
  · intro d τ hτ _ hlingers
    change Lingers c d _ τ (m.phase c) at hlingers
    rw [hphase] at hlingers
    obtain ⟨heq, hglobal⟩ := hlingers
    have hd : d ≠ c := by
      rintro rfl
      rw [Machine.setTlb_self] at hτ
      exact not_mem_invalidateLocal hok.1.aligned hok.1.canonical hτ heq.1
    exact ⟨heq, hd, hglobal hd⟩
  · intro x hx
    change (m.phase c).retired = some x
    rwa [hphase]

lemma broadcast_heap (hphase : m.phase c = .broadcast .heap virt pages pa)
    (hsent : (∀ d, d = c) ∨ 1 < numCpus ∧ sent = true) :
    TlbInv cr3 home ((m.sendIpi numCpus c sent).setPhase c (Loop.heap.unmapped virt pages pa)) := by
  have hok := h.phase c
  rw [hphase] at hok
  have hipi (d : κ) (hd : d ≠ c) : (m.sendIpi numCpus c sent).ipi d = true := by
    obtain hone | hsent := hsent
    · exact absurd (hone d) hd
    · rw [Machine.sendIpi, if_pos hsent]
      exact if_neg hd
  unfold Loop.unmapped
  dsimp only
  split_ifs with hpa
  · refine (h.sendIpi c sent).setPhase trivial ?_ ?_
    · intro d τ _ hframe hlingers
      rw [Machine.sendIpi_phase, hphase] at hlingers
      exact absurd (hlingers.1.2.symm.trans hpa) hframe
    · rintro x ⟨⟩
  · apply (h.sendIpi c sent).setPhase
    · rw [Machine.sendIpi_tables]
      exact ⟨hok.1.frame, hpa, hok.2 hpa⟩
    · intro d τ _ _ hlingers
      rw [Machine.sendIpi_phase, hphase] at hlingers
      exact ⟨hlingers.1, hlingers.2.1, hlingers.2.2, hipi d hlingers.2.1⟩
    · intro x hx
      rwa [Machine.sendIpi_phase, hphase]

lemma release_heap
    (hphase : m.phase c = .release .heap virt pages pa) (hipi : ∀ d, d ≠ c → m.ipi d = false)
    (virt' : Nat) : TlbInv cr3 home (m.setPhase c (.next .heap virt' pages)) := by
  refine h.setPhase trivial ?_ ?_
  · intro d τ _ _ hlingers
    rw [hphase] at hlingers
    obtain ⟨-, hd, -, hset⟩ := hlingers
    rw [hipi d hd] at hset
    cases hset
  · rintro x ⟨⟩

lemma advance (hcond : LoopCondition cr3 numCpus home m c sent (m.phase c))
    (hstep : m.advance cr3 numCpus c sent = some m') : TlbInv cr3 home m' := by
  have hok := h.phase c
  unfold Machine.advance at hstep
  cases hphase : m.phase c <;> rw [hphase] at hcond hok <;>
    simp only [hphase, Option.some.injEq, reduceCtorEq] at hstep <;> try cases hstep
  case next loop virt pages =>
    cases loop <;> cases pages
    case heap.succ pages =>
      cases hstep
      obtain ⟨⟨hhome, halign, hcanon⟩, hsmall⟩ := hcond
      obtain ⟨hframe, hmaps⟩ := virtToPhysAsm_maps hsmall halign
      exact h.setPhase_of_retired hphase rfl rfl ⟨⟨hhome, halign, hcanon, hframe⟩, hmaps⟩
    case stack.succ base n pages =>
      simp only [virtToPhysAsm_of_walk hcond, if_true] at hstep
      cases hstep
      exact h.setPhase_of_retired hphase rfl rfl trivial
    all_goals
      cases hstep
      exact h.setPhase_of_retired hphase rfl rfl trivial
  case unmap loop virt pages pa =>
    cases loop with
    | heap =>
      cases hentry : unmapEntry cr3 m.tables virt with
      | some entry => exact h.unmap_heap hphase hcond
      | none =>
        -- there is no page table, hence nothing to release
        have h0 : pa = 0 := by
          by_contra hpa
          obtain ⟨v, e, hv, he, -⟩ := hok.2.2 hpa
          rw [mappedEntry_congr ((getIndexes_eq_iff v virt).mpr hv)] at he
          exact unmapEntry_ne_none (mappedEntry_eq_some.mp he).1 hentry
        simp only [unmapPage, hentry, Loop.unmapped, h0, if_true]
        exact h.setPhase_of_retired hphase rfl rfl trivial
    | stack base n =>
      apply (h.unmap_stack hcond).setPhase_of_retired hphase rfl
      · split <;> rfl
      · split <;> trivial
  case invalidate loop virt pages pa =>
    cases loop with
    | heap => exact h.invalidate_heap hphase
    | stack base n =>
      exact (h.invalidateLocal c virt 1).setPhase_of_retired hphase rfl rfl trivial
  case broadcast loop virt pages pa =>
    cases loop with
    | heap => exact h.broadcast_heap hphase hcond
    | stack base n =>
      have hphase' := (congrFun (m.sendIpi_phase numCpus c sent) c).trans hphase
      exact (h.sendIpi c sent).setPhase_of_retired hphase' rfl rfl trivial
  case release loop virt pages pa =>
    cases loop with
    | heap =>
      cases hstep
      exact h.release_heap hphase hcond _
    | stack base n => exact hok.elim
  case flush base pages =>
    split at hstep <;> cases hstep
    · exact h.setPhase_of_retired hphase rfl rfl trivial
    · exact (h.invalidateLocal c base pages).setPhase_of_retired hphase rfl rfl trivial
  case flushBroadcast =>
    have hphase' := (congrFun (m.sendIpi_phase numCpus c sent) c).trans hphase
    exact (h.sendIpi c sent).setPhase_of_retired hphase' rfl rfl trivial

lemma step (hstep : ConditionStep cr3 numCpus home m event m') : TlbInv cr3 home m' := by
  obtain ⟨hcond, hstep⟩ := hstep
  cases event with
  | use c virt =>
    obtain ⟨-, hstep⟩ := then_of_ite hstep
    obtain ⟨e, he, rfl⟩ := map_eq_some_iff.mp hstep
    apply h.setTlb
    intro τ hτ
    obtain rfl | hold := mem_cons.mp hτ
    · exact .inr ⟨⟨virt, e, rfl, he, rfl⟩, hcond e he⟩
    · exact .inl hold
  | evict c page =>
    cases hstep
    exact h.setTlb fun τ hτ => .inl (mem_filter.mp hτ).1
  | freePages c virt pages =>
    obtain ⟨hidle, ⟨⟩⟩ := then_of_ite hstep
    exact h.setPhase_of_retired hidle rfl rfl trivial
  | freeStack c base pages =>
    obtain ⟨hidle, hstep⟩ := then_of_ite hstep
    split_ifs at hstep <;> cases hstep
    · exact h
    · exact h
    · exact h.setPhase_of_retired hidle rfl rfl trivial
  | advance c sent => exact h.advance hcond hstep
  | tlbFlushHandler c =>
    obtain ⟨-, ⟨⟩⟩ := then_of_ite hstep
    exact h.tlbFlushHandler c

end TlbInv

/-- In every interleaving that meets the condition, from tables in which each frame is mapped
once, no translation to a frame is left when `pmm_free_frame` is called for it. -/
theorem pmmFreeFrame_unreferenced [DecidableEq κ] {t : Tables} {events : List (Event κ)} {c : κ}
    {sent : Bool} {loop : Loop} {virt pages pa : Nat} (hsep : Separate t cr3)
    (hinj : ∀ p p' f, Maps t cr3 p f → Maps t cr3 p' f → p = p')
    (hrun : Run (ConditionStep cr3 numCpus home) (Machine.boot t) events m)
    (hphase : m.phase c = .release loop virt pages pa)
    (hcall : ConditionStep cr3 numCpus home m (.advance c sent) m') : m.Unreferenced cr3 pa := by
  have hI : TlbInv cr3 home m :=
    hrun.invariant (fun _ _ _ h hstep => h.step hstep) (TlbInv.boot hsep hinj)
  exact hI.unreferenced hphase hcall.1

end

section

instance (t : Tables) (cr3 virt : Nat) : Decidable (SmallPage t cr3 virt) :=
  inferInstanceAs (Decidable (_ ∨ _))

variable [DecidableEq κ] [Fintype κ] (cr3 numCpus : Nat) (home : Nat → κ) (m : Machine κ)

instance (c : κ) (sent : Bool) (p : Phase) :
    Decidable (LoopCondition cr3 numCpus home m c sent p) := by
  unfold LoopCondition
  split <;> infer_instance

instance (event : Event κ) : Decidable (Condition cr3 numCpus home m event) := by
  unfold Condition
  split <;> infer_instance

def conditionStep? (event : Event κ) : Option (Machine κ) :=
  if Condition cr3 numCpus home m event then m.step? cr3 numCpus event else none

variable {cr3 numCpus home m}

lemma conditionStep_of_conditionStep? (h : conditionStep? cr3 numCpus home m event = some m') :
    ConditionStep cr3 numCpus home m event m' := by
  obtain ⟨hcond, h⟩ := then_of_ite h
  exact ⟨hcond, h⟩

/-- Two pages of the heap: the translation of the first is global, that of the second is not. -/
def twoPages : Tables := fun table i =>
  if table = 0x1000 ∧ i = 288 then 0x2003
  else if table = 0x2000 ∧ i = 0 then 0x3003
  else if table = 0x3000 ∧ i = 0 then 0x4003
  else if table = 0x4000 ∧ i = 1 then 0x8103
  else if table = 0x4000 ∧ i = 2 then 0x9003
  else 0

lemma twoPages_getNextLevel (h : getNextLevel twoPages table i ≠ 0) :
    (table = 0x1000 ∧ i = 288) ∨ (table = 0x2000 ∧ i = 0) ∨ (table = 0x3000 ∧ i = 0) ∨
      (table = 0x4000 ∧ (i = 1 ∨ i = 2)) := by
  have hpres := (present_of_getNextLevel h).1
  unfold twoPages at hpres
  split_ifs at hpres with h1 h2 h3 h4 h5
  · exact .inl h1
  · exact .inr (.inl h2)
  · exact .inr (.inr (.inl h3))
  · exact .inr (.inr (.inr ⟨h4.1, .inl h4.2⟩))
  · exact .inr (.inr (.inr ⟨h5.1, .inr h5.2⟩))
  · rw [getFlag_zero] at hpres
    cases hpres

lemma twoPages_pageTable (h : pageTable twoPages 0x1000 v ≠ 0) :
    (getIndexes v).p4 = 288 ∧ (getIndexes v).p3 = 0 ∧ (getIndexes v).p2 = 0 := by
  obtain ⟨hpdp, hpd, hpt⟩ := pageTable_ne_zero h
  rw [hpt] at h
  have haddr : getAddress 0x1000 = 0x1000 := by decide
  have hpdp' := twoPages_getNextLevel hpdp
  rw [haddr] at hpdp' hpd h
  have h4 : (getIndexes v).p4 = 288 := by omega
  have hlevel4 : getNextLevel twoPages 0x1000 288 = 0x2000 := by decide
  rw [h4, hlevel4] at hpd h
  have hpd' := twoPages_getNextLevel hpd
  have h3 : (getIndexes v).p3 = 0 := by omega
  have hlevel3 : getNextLevel twoPages 0x2000 0 = 0x3000 := by decide
  rw [h3, hlevel3] at h
  have hpt' := twoPages_getNextLevel h
  exact ⟨h4, h3, by omega⟩

lemma twoPages_levels (h : pageTable twoPages 0x1000 v ≠ 0) :
    pageTable twoPages 0x1000 v = 0x4000 ∧
      upperEntries twoPages 0x1000 v = [(0x1000, 288), (0x2000, 0), (0x3000, 0)] := by
  obtain ⟨h4, h3, h2⟩ := twoPages_pageTable h
  have haddr : getAddress 0x1000 = 0x1000 := by decide
  have hlevel4 : getNextLevel twoPages 0x1000 288 = 0x2000 := by decide
  have hlevel3 : getNextLevel twoPages 0x2000 0 = 0x3000 := by decide
  have hlevel2 : getNextLevel twoPages 0x3000 0 = 0x4000 := by decide
  simp [pageTable, upperEntries, haddr, h4, h3, h2, hlevel4, hlevel3, hlevel2]

lemma twoPages_separate : Separate twoPages 0x1000 := by
  constructor
  · intro v v' h h'
    rw [(twoPages_levels h).1, (twoPages_levels h').2]
    simp
  intro v v' h htab h1
  have h' : pageTable twoPages 0x1000 v' ≠ 0 := htab ▸ h
  have hupper := twoPages_pageTable h
  have hupper' := twoPages_pageTable h'
  cases hix : getIndexes v
  cases hix' : getIndexes v'
  simp_all

lemma twoPages_injective (p p' f : Nat) (h : Maps twoPages 0x1000 p f)
    (h' : Maps twoPages 0x1000 p' f) : p = p' := by
  have hentry {v e : Nat} (he : mappedEntry twoPages 0x1000 v = some e) :
      pageTable twoPages 0x1000 v ≠ 0 ∧
        ((getIndexes v).p1 = 1 ∧ getAddress e = 0x8000 ∨
          (getIndexes v).p1 = 2 ∧ getAddress e = 0x9000) := by
    obtain ⟨hpt, hpres, rfl⟩ := mappedEntry_eq_some.mp he
    refine ⟨hpt, ?_⟩
    rw [pageEntry, (twoPages_levels hpt).1] at hpres ⊢
    unfold twoPages at hpres ⊢
    split_ifs at hpres ⊢ with h1 h2 h3 h4 h5
    · exact absurd h1.1 (by decide)
    · exact absurd h2.1 (by decide)
    · exact absurd h3.1 (by decide)
    · exact .inl ⟨h4.2, by decide⟩
    · exact .inr ⟨h5.2, by decide⟩
    · rw [getFlag_zero] at hpres
      cases hpres
  obtain ⟨v, e, rfl, he, rfl⟩ := h
  obtain ⟨v', e', rfl, he', hf⟩ := h'
  obtain ⟨hpt, h1⟩ := hentry he
  obtain ⟨hpt', h1'⟩ := hentry he'
  apply (getIndexes_eq_iff v v').mp
  apply twoPages_separate.page v v' hpt
  · rw [(twoPages_levels hpt).1, (twoPages_levels hpt').1]
  · omega

/-- Both CPUs use the second page; CPU `false` releases both pages, and waits each time until
the other CPU has handled the interrupt. -/
def twoPagesEvents : List (Event Bool) :=
  [.use false 0xFFFF900000001000, .use false 0xFFFF900000002000, .use true 0xFFFF900000002000,
    .freePages false 0xFFFF900000001000 2, .advance false true, .advance false true,
    .advance false true, .advance false true, .tlbFlushHandler true, .advance false true,
    .use true 0xFFFF900000002000, .advance false true, .advance false true, .advance false true,
    .advance false true, .tlbFlushHandler true]

theorem twoPages_unreferenced :
    ∃ m m', Run (ConditionStep 0x1000 2 fun _ => false) (Machine.boot twoPages) twoPagesEvents m ∧
      ConditionStep 0x1000 2 (fun _ => false) m (.advance false true) m' ∧
      m.phase false = .release .heap 0xFFFF900000002000 0 0x9000 ∧
      m.Unreferenced 0x1000 0x9000 := by
  have hsome : ((Run.exec (conditionStep? 0x1000 2 fun _ => false) (Machine.boot twoPages)
      twoPagesEvents).bind fun m =>
        (conditionStep? 0x1000 2 (fun _ => false) m (.advance false true)).map fun _ =>
          decide (m.phase false = .release .heap 0xFFFF900000002000 0 0x9000)) = some true := by
    decide +kernel
  obtain ⟨m, hexec, hsome⟩ := bind_eq_some_iff.mp hsome
  obtain ⟨m', hcall, hphase⟩ := map_eq_some_iff.mp hsome
  have hrun := Run.of_exec (fun _ _ _ => conditionStep_of_conditionStep?) hexec
  have hcall := conditionStep_of_conditionStep? hcall
  have hphase := of_decide_eq_true hphase
  exact ⟨m, m', hrun, hcall, hphase,
    pmmFreeFrame_unreferenced twoPages_separate twoPages_injective hrun hphase hcall⟩

/-- One page, mapped by `mapPagesBulk` with the flags of the heap. -/
def heapPage (virt : Nat) : Option (Bool × Tables × List Nat) :=
  mapPagesBulk (σ := List Nat)
    ⟨fun frames => some (frames.headD 0, frames.tail), fun frames frame => some (frame :: frames)⟩
    true 0x1000 (fun _ _ => 0) [0x2000, 0x3000, 0x4000] virt 0x8000 1
    (pagePresent ||| pageWrite ||| pageNx)

omit [Fintype κ] in
lemma exists_heapPage_run {P : Machine κ → Prop} [DecidablePred P]
    (h : (heapPage virt).any (fun r => r.1 &&
      (Run.exec (Machine.step? 0x1000 numCpus) (Machine.boot r.2.1) events).any fun m =>
        decide (P m)) = true) :
    ∃ t frames m, heapPage virt = some (true, t, frames) ∧
      Run (fun m e m' => Machine.step? 0x1000 numCpus m e = some m') (Machine.boot t) events m ∧
      P m := by
  obtain ⟨⟨done, t, frames⟩, hpage, hrun⟩ := (Option.any_eq_true _ _).mp h
  obtain ⟨rfl, hrun⟩ := (Bool.and_eq_true _ _).mp hrun
  obtain ⟨m, hexec, hfacts⟩ := (Option.any_eq_true _ _).mp hrun
  exact ⟨t, frames, m, hpage, Run.of_exec (fun _ _ _ h => h) hexec, of_decide_eq_true hfacts⟩

/-- CPU `true` uses a page of the heap that CPU `false` frees: when the frame is released,
`true` still has the translation, although it has handled the interrupt. On one CPU,
`freeStack` releases a frame that is still mapped. -/
theorem pmmFreeFrame_referenced :
    (∃ t frames m, heapPage 0xFFFF900000001000 = some (true, t, frames) ∧
      Run (fun m e m' => Machine.step? 0x1000 2 m e = some m') (Machine.boot (κ := Bool) t)
        [.use true 0xFFFF900000001000, .freePages false 0xFFFF900000001000 1,
          .advance false true, .advance false true, .advance false true, .advance false true,
          .tlbFlushHandler true] m ∧
      m.phase false = .release .heap 0xFFFF900000001000 0 0x8000 ∧
      (∀ c, m.ipi c = false) ∧ ∃ τ ∈ m.tlb true, τ.frame = 0x8000) ∧
    ∃ t frames m, heapPage 0xFFFF800000002000 = some (true, t, frames) ∧
      Run (fun m e m' => Machine.step? 0x1000 1 m e = some m') (Machine.boot (κ := Unit) t)
        [.freeStack () 0xFFFF800000002000 1, .advance () true] m ∧
      m.phase () = .release (.stack 0xFFFF800000002000 1) 0xFFFF800000002000 0 0x8000 ∧
      (mappedEntry m.tables 0x1000 0xFFFF800000002000).map getAddress = some 0x8000 := by
  exact ⟨exists_heapPage_run (by decide +kernel), exists_heapPage_run (by decide +kernel)⟩

end

end Singularity.Paging
