import Singularity.PhysicalMemory.Bookkeeping
import Mathlib.Algebra.BigOperators.Group.Finset.Basic
import Mathlib.Algebra.Order.BigOperators.Group.Finset
import Mathlib.Data.Multiset.Count
import Mathlib.Tactic.Abel

/-!
# Who holds which frame

The manager does not know who a frame belongs to. The ledger adds it as ghost state: the frames
handed to owners, the references added by `pmm_inc_ref` and not dropped yet, and the frames parked
in magazines. The reference count of every frame that is not reserved is the number of these
holds. Each lemma moves frames between the columns as one lock-protected section does.
-/

namespace Singularity.PhysicalMemory

open Foundation Function Multiset Span

/-- The frames in the magazines of all CPUs. -/
def parked (magazines : Nat → List Nat) : Multiset Nat :=
  ∑ cpu ∈ Finset.range maxCpus, (magazines cpu : Multiset Nat)

lemma parked_update (magazines : Nat → List Nat) (hcpu : cpu < maxCpus) (frames : List Nat) :
    parked (update magazines cpu frames) + (magazines cpu : Multiset Nat) =
      parked magazines + (frames : Multiset Nat) := by
  have hmem : cpu ∈ Finset.range maxCpus := Finset.mem_range.mpr hcpu
  have hrest : ∑ c ∈ (Finset.range maxCpus).erase cpu,
      (update magazines cpu frames c : Multiset Nat) =
      ∑ c ∈ (Finset.range maxCpus).erase cpu, (magazines c : Multiset Nat) := by
    apply Finset.sum_congr rfl
    intro c hc
    rw [update_of_ne (Finset.ne_of_mem_erase hc)]
  unfold parked
  rw [← Finset.add_sum_erase _ _ hmem, hrest, update_self, ← Finset.add_sum_erase _ _ hmem]
  abel

/-- The reference count of every managed frame is the number of its holds: at most one owner or
magazine slot, and the pins of frames with an owner. `s₀` is the state after boot, which has the
same frames and the same reserved ones. -/
structure Ledger (s₀ : PmmState) (slack : Nat) (s : PmmState) (owned pins park : Multiset Nat) :
    Prop where
  books : Books s₀.totalFrames s₀.totalFrames noFrame slack s
  total_le : s₀.totalFrames ≤ 2 ^ 52
  initialized : s.initialized = true
  zero : 0 < s₀.totalFrames → s.refCounts 0 = refReserved
  small : ∀ f, s.refCounts f ≤ refReserved
  reserved : ∀ f, f < s₀.totalFrames →
    (s.refCounts f = refReserved ↔ s₀.refCounts f = refReserved)
  counted : ∀ f, f < s₀.totalFrames → s.refCounts f ≠ refReserved →
    s.refCounts f = owned.count f + pins.count f + park.count f
  managed : ∀ f, f ∈ owned + park → f < s₀.totalFrames ∧ s.refCounts f ≠ refReserved
  once : ∀ f, (owned + park).count f ≤ 1
  unpinned : ∀ f ∈ park, f ∉ pins

variable {s₀ s s' : PmmState} {slack f start n : Nat} {owned pins park : Multiset Nat}

lemma Ledger.no_holds (h : Ledger s₀ slack s owned pins park)
    (hf : Covered s.extents f) : f ∉ owned ∧ f ∉ pins ∧ f ∉ park := by
  have htot : f < s₀.totalFrames := h.books.bounded f hf
  have hfree : s.refCounts f = refFree :=
    (h.books.refs f (h.books.total_eq ▸ htot)).mp (.inl hf)
  have hcnt := h.counted f htot (by rw [hfree]; decide)
  rw [hfree, refFree] at hcnt
  refine ⟨?_, ?_, ?_⟩
  all_goals exact count_eq_zero.mp (by omega)

lemma Ledger.framePtr_eq (h : Ledger s₀ slack s owned pins park)
    (hf : f ∈ owned + park) : framePtr f ≠ 0 ∧ framePtr f / pageSize = f := by
  obtain ⟨htot, hres⟩ := h.managed f hf
  have hle := h.total_le
  have h0 : f ≠ 0 := by
    intro hf0
    subst hf0
    exact hres (h.zero htot)
  rw [framePtr, pageSize, Word.mul_eq (by omega)]
  omega

lemma Ledger.pop (h : Ledger s₀ slack s owned pins (f ::ₘ park)) :
    Ledger s₀ slack s (f ::ₘ owned) pins park ∧ f ∉ owned ∧ f ∉ pins := by
  have hmove : f ::ₘ owned + park = owned + f ::ₘ park := by simp
  have honce := h.once f
  simp only [count_add, count_cons_self] at honce
  refine ⟨⟨h.books, h.total_le, h.initialized, h.zero, h.small, h.reserved, ?_, ?_, ?_, ?_⟩, ?_,
    h.unpinned f (mem_cons_self f park)⟩
  · intro g hg hres
    have hcnt := h.counted g hg hres
    rw [count_cons] at hcnt ⊢
    omega
  · rw [hmove]
    exact h.managed
  · rw [hmove]
    exact h.once
  · intro g hg
    exact h.unpinned g (mem_cons_of_mem hg)
  · exact count_eq_zero.mp (by omega)

section
variable {frames : Multiset Nat} (h : Ledger s₀ slack s (frames + owned) pins park)
include h

lemma Ledger.push (hpins : ∀ f ∈ frames, f ∉ pins) :
    Ledger s₀ slack s owned pins (frames + park) := by
  have hmove : owned + (frames + park) = frames + owned + park := by abel
  refine ⟨h.books, h.total_le, h.initialized, h.zero, h.small, h.reserved, ?_, ?_, ?_, ?_⟩
  · intro g hg hres
    have hcnt := h.counted g hg hres
    rw [count_add] at hcnt ⊢
    omega
  · rw [hmove]
    exact h.managed
  · rw [hmove]
    exact h.once
  · intro g hg
    obtain hg | hg := mem_add.mp hg
    · exact hpins g hg
    · exact h.unpinned g hg

/-- Give back frames that have an owner: each of them loses one reference. -/
lemma Ledger.release (hbooks : Books s₀.totalFrames s₀.totalFrames noFrame slack' s')
    (hinit : s'.initialized = s.initialized)
    (hrefs : ∀ f, s'.refCounts f = s.refCounts f - frames.count f) :
    Ledger s₀ slack' s' owned pins park := by
  have hsame : ∀ f, f ∉ frames → s'.refCounts f = s.refCounts f := by
    intro f hf
    rw [hrefs, count_eq_zero.mpr hf, Nat.sub_zero]
  have hapart : ∀ f, f ∈ owned + park → f ∉ frames := by
    intro f hf hin
    have honce := h.once f
    have hpos := one_le_count_iff_mem.mpr hf
    have hpos' := one_le_count_iff_mem.mpr hin
    rw [add_assoc, count_add] at honce
    omega
  have hmanaged : ∀ f ∈ frames, f < s₀.totalFrames ∧ s.refCounts f ≠ refReserved := by
    intro f hf
    exact h.managed f (mem_add.mpr (.inl (mem_add.mpr (.inl hf))))
  have hiff : ∀ f, s'.refCounts f = refReserved ↔ s.refCounts f = refReserved := by
    intro f
    by_cases hf : f ∈ frames
    · have hsmall := h.small f
      have hres := (hmanaged f hf).2
      rw [hrefs]
      exact iff_of_false (by omega) hres
    · rw [hsame f hf]
  refine ⟨hbooks, h.total_le, hinit.trans h.initialized, ?_, ?_, ?_, ?_, ?_, ?_, h.unpinned⟩
  · intro hpos
    exact (hiff 0).mpr (h.zero hpos)
  · intro f
    rw [hrefs]
    exact (Nat.sub_le _ _).trans (h.small f)
  · intro f hf
    exact (hiff f).trans (h.reserved f hf)
  · intro f hf hres
    have hcnt := h.counted f hf (mt (hiff f).mpr hres)
    rw [count_add] at hcnt
    rw [hrefs]
    omega
  · intro f hf
    have hf' : f ∈ frames + owned + park := by
      rw [add_assoc]
      exact mem_add.mpr (.inr hf)
    rw [hsame f (hapart f hf)]
    exact h.managed f hf'
  · intro f
    apply le_trans _ (h.once f)
    rw [add_assoc]
    exact count_le_of_le f (le_add_left _ _)

end

variable {frame : Nat}

/-- Change the count of one frame along with its pins. -/
lemma Ledger.recount (h : Ledger s₀ 0 s owned pins park)
    (hbooks : Books s₀.totalFrames s₀.totalFrames noFrame 0 s')
    (hinit : s'.initialized = s.initialized)
    (hrefs : s'.refCounts = fillRefs s.refCounts frame 1 value)
    (hres : s.refCounts frame ≠ refReserved) (hvalue : value < refReserved)
    (hother : ∀ f, f ≠ frame → pins'.count f = pins.count f)
    (hcnt : frame < s₀.totalFrames → value =
      owned.count frame + pins'.count frame + park.count frame)
    (hpark : frame ∈ park → frame ∉ pins') : Ledger s₀ 0 s' owned pins' park := by
  have hself : s'.refCounts frame = value := by
    rw [hrefs]
    simp [fillRefs]
  have hne : ∀ f, f ≠ frame → s'.refCounts f = s.refCounts f := by
    intro f hf
    rw [hrefs, fillRefs, if_neg (by omega)]
  have hiff : ∀ f, s'.refCounts f = refReserved ↔ s.refCounts f = refReserved := by
    intro f
    by_cases hf : f = frame
    · subst hf
      rw [hself]
      exact iff_of_false hvalue.ne hres
    · rw [hne f hf]
  refine ⟨hbooks, h.total_le, hinit.trans h.initialized, ?_, ?_, ?_, ?_, ?_, h.once, ?_⟩
  · intro hpos
    exact (hiff 0).mpr (h.zero hpos)
  · intro f
    by_cases hf : f = frame
    · subst hf
      exact hself.trans_le hvalue.le
    · rw [hne f hf]
      exact h.small f
  · intro f hf
    exact (hiff f).trans (h.reserved f hf)
  · intro f htot hfres
    by_cases hf : f = frame
    · subst hf
      rw [hself]
      exact hcnt htot
    · rw [hne f hf, hother f hf]
      exact h.counted f htot (mt (hiff f).mpr hfres)
  · intro f hf
    obtain ⟨htot, hfres⟩ := h.managed f hf
    exact ⟨htot, mt (hiff f).mp hfres⟩
  · intro f hf
    by_cases heq : f = frame
    · subst heq
      exact hpark hf
    · rw [← count_eq_zero, hother f heq, count_eq_zero]
      exact h.unpinned f hf

lemma Ledger.repin (h : Ledger s₀ slack s owned pins park)
    (hsame : ∀ f, f < s₀.totalFrames → s.refCounts f ≠ refReserved → pins'.count f = pins.count f) :
    Ledger s₀ slack s owned pins' park := by
  refine ⟨h.books, h.total_le, h.initialized, h.zero, h.small, h.reserved, ?_, h.managed,
    h.once, ?_⟩
  · intro f hf hres
    rw [hsame f hf hres]
    exact h.counted f hf hres
  · intro f hf hpin
    obtain ⟨htot, hres⟩ := h.managed f (mem_add.mpr (.inr hf))
    apply h.unpinned f hf
    rw [← one_le_count_iff_mem, ← hsame f htot hres]
    exact one_le_count_iff_mem.mpr hpin

lemma releaseRef_refs (hok : releaseRef s frame = .ok s') :
    s'.refCounts = fillRefs s.refCounts frame 1 (s.refCounts frame - 1) ∧
      s'.initialized = s.initialized := by
  dsimp only [releaseRef] at hok
  split at hok
  · obtain ⟨extents, -, ⟨⟩⟩ := ok_of_bind hok
    exact ⟨rfl, rfl⟩
  · cases hok
    exact ⟨rfl, rfl⟩

lemma fillRefs_one (refs : Nat → Nat) (frame value f : Nat) :
    fillRefs refs frame 1 value f = if f = frame then value else refs f := by
  exact if_congr (by omega) rfl rfl

lemma Ledger.freeFrameLocked (h : Ledger s₀ 0 s (ptr / pageSize ::ₘ owned) pins park)
    (hptr : ptr ≠ 0) (hok : freeFrameLocked s ptr = .ok s') : Ledger s₀ 0 s' owned pins park := by
  have hbooks := Books.kept.freeFrameLocked h.books hok
  obtain ⟨htot, -⟩ := h.managed (ptr / pageSize) (by simp)
  dsimp only [PhysicalMemory.freeFrameLocked] at hok
  rw [if_neg hptr, if_neg (by rw [h.books.total_eq]; exact htot.not_ge)] at hok
  split at hok
  · cases hok
  obtain ⟨hrefs, hinit⟩ := releaseRef_refs hok
  rw [← singleton_add] at h
  apply h.release hbooks hinit
  intro f
  rw [hrefs, fillRefs_one, count_singleton]
  split
  case isTrue heq => rw [heq]
  · rfl

/-- `pmm_dec_ref` drops a pin. -/
lemma Ledger.decRef (h : Ledger s₀ 0 s owned (ptr / pageSize ::ₘ pins) park) (hptr : ptr ≠ 0)
    (hok : pmmDecRef s ptr = .ok s') : Ledger s₀ 0 s' owned pins park := by
  have hbooks := Books.kept.decRef h.books hok
  dsimp only [pmmDecRef] at hok
  rw [if_neg hptr, if_neg (by simp [h.initialized])] at hok
  split at hok
  case isTrue hout =>
    cases hok
    apply h.repin
    intro f hf _
    have hne : f ≠ ptr / pageSize := by
      rintro rfl
      exact hf.not_ge (h.books.total_eq ▸ hout)
    rw [count_cons_of_ne hne]
  · split at hok
    case isTrue hres =>
      cases hok
      apply h.repin
      intro f _ hf
      have hne : f ≠ ptr / pageSize := by
        rintro rfl
        exact hf hres
      rw [count_cons_of_ne hne]
    case isFalse hres =>
      split at hok
      · cases hok
      obtain ⟨hrefs, hinit⟩ := releaseRef_refs hok
      have hsmall := h.small (ptr / pageSize)
      refine h.recount hbooks hinit hrefs hres (by omega) ?_ ?_ ?_
      · intro f hf
        rw [count_cons_of_ne hf]
      · intro htot
        have hcnt := h.counted _ htot hres
        rw [count_cons_self] at hcnt
        omega
      · intro hpark hpin
        exact h.unpinned _ hpark (mem_cons_of_mem hpin)

/-- `pmm_inc_ref` pins a frame that is held, as long as the count does not saturate. -/
lemma Ledger.incRef (h : Ledger s₀ 0 s owned pins park) (hptr : ptr ≠ 0)
    (hheld : ptr / pageSize < s₀.totalFrames → s.refCounts (ptr / pageSize) ≠ refReserved →
      ptr / pageSize ∈ owned + pins ∧ (owned + pins).count (ptr / pageSize) < 254) :
    Ledger s₀ 0 (pmmIncRef s ptr) owned (ptr / pageSize ::ₘ pins) park := by
  set frame := ptr / pageSize with hframe
  by_cases hmanaged : frame < s₀.totalFrames ∧ s.refCounts frame ≠ refReserved
  case neg =>
    have hst : pmmIncRef s ptr = s := by
      unfold pmmIncRef
      simp only [hptr, h.initialized, h.books.total_eq, ← hframe, if_false, Bool.true_eq_false]
      split
      · rfl
      · rw [if_pos (by by_contra hres; exact hmanaged ⟨by omega, hres⟩)]
    rw [hst]
    apply h.repin
    intro f hf hres
    have hne : f ≠ frame := by
      rintro rfl
      exact hmanaged ⟨hf, hres⟩
    rw [count_cons_of_ne hne]
  case pos =>
    obtain ⟨htot, hres⟩ := hmanaged
    obtain ⟨hmem, hlt⟩ := hheld htot hres
    have hcnt := h.counted frame htot hres
    have hpark : frame ∉ park := by
      intro hin
      obtain howned | hpin := mem_add.mp hmem
      · have honce := h.once frame
        have hpos := one_le_count_iff_mem.mpr hin
        have hpos' := one_le_count_iff_mem.mpr howned
        rw [count_add] at honce
        omega
      · exact h.unpinned frame hin hpin
    rw [count_eq_zero.mpr hpark, Nat.add_zero, ← count_add] at hcnt
    have hpos := one_le_count_iff_mem.mpr hmem
    have hfree : s.refCounts frame ≠ refFree := by
      rw [hcnt, refFree]
      omega
    have hbooks := pmmIncRef_books h.books (fun _ => hfree)
    have hst : pmmIncRef s ptr =
        { s with refCounts := fillRefs s.refCounts frame 1 (s.refCounts frame + 1) } := by
      unfold pmmIncRef
      simp only [hptr, h.initialized, h.books.total_eq, ← hframe, if_false, Bool.true_eq_false,
        htot.not_ge, hres]
      rw [if_pos (by omega)]
    rw [hst] at hbooks ⊢
    refine h.recount hbooks rfl rfl hres (by unfold refReserved; omega) ?_ ?_ ?_
    · intro f hf
      rw [count_cons_of_ne hf]
    · intro _
      rw [count_cons_self, count_eq_zero.mpr hpark, hcnt, count_add]
      omega
    · intro hin
      exact absurd hin hpark

variable {count align : Nat} {node : Option Nat}

section
variable (hplain : PlainRequest count align)
  (hok : claimFrames s count align node = .ok (some (start, s')))
include hplain hok

lemma claimFrames_covered (h : Books s₀.totalFrames s₀.totalFrames noFrame slack s) :
    (∀ f ∈ List.range' start count, Covered s.extents f) ∧
      s'.refCounts = fillRefs s.refCounts start count 1 ∧ s'.initialized = s.initialized := by
  obtain ⟨result, halloc, hok⟩ := ok_of_bind hok
  cases result with
  | none => cases hok
  | some taken =>
    cases hok
    have htaken := allocContiguousInternal_taken halloc h.separated h.extents_bounded hplain
    refine ⟨?_, rfl, rfl⟩
    intro f hf
    apply (htaken.covered f).mpr
    exact .inr (by simpa [List.mem_range'_1] using hf)

/-- Claimed frames had no holds and get an owner. -/
lemma Ledger.claim (h : Ledger s₀ slack s owned pins park) :
    Ledger s₀ (slack + count) s' (List.range' start count + owned) pins park ∧
      ∀ f ∈ List.range' start count, f ∉ owned ∧ f ∉ pins := by
  have hbooks := claimFrames_books h.books hplain hok
  obtain ⟨hcov, hrefs, hinit⟩ := claimFrames_covered hplain hok h.books
  have hnone : ∀ f ∈ List.range' start count, f ∉ owned ∧ f ∉ pins ∧ f ∉ park :=
    fun f hf => h.no_holds (hcov f hf)
  have hin : ∀ f ∈ List.range' start count, s'.refCounts f = 1 := by
    intro f hf
    rw [List.mem_range'_1] at hf
    rw [hrefs, fillRefs, if_pos hf]
  have hout : ∀ f, f ∉ List.range' start count → s'.refCounts f = s.refCounts f := by
    intro f hf
    rw [List.mem_range'_1] at hf
    rw [hrefs, fillRefs, if_neg hf]
  have hone : ∀ f ∈ List.range' start count, (List.range' start count).count f = 1 :=
    fun f hf => List.count_eq_one_of_mem (List.nodup_range') hf
  have hiff : ∀ f, s'.refCounts f = refReserved ↔ s.refCounts f = refReserved := by
    intro f
    by_cases hf : f ∈ List.range' start count
    · have hlt : f < s.totalFrames := h.books.total_eq ▸ h.books.bounded f (hcov f hf)
      have hfree : s.refCounts f = refFree := (h.books.refs f hlt).mp (.inl (hcov f hf))
      rw [hin f hf, hfree]
      exact iff_of_false (by decide) (by decide)
    · rw [hout f hf]
  refine ⟨⟨hbooks, h.total_le, hinit.trans h.initialized, ?_, ?_, ?_, ?_, ?_, ?_, h.unpinned⟩,
    fun f hf => ⟨(hnone f hf).1, (hnone f hf).2.1⟩⟩
  · intro hpos
    exact (hiff 0).mpr (h.zero hpos)
  · intro f
    by_cases hf : f ∈ List.range' start count
    · rw [hin f hf]
      decide
    · rw [hout f hf]
      exact h.small f
  · intro f hf
    exact (hiff f).trans (h.reserved f hf)
  · intro f htot hres
    rw [count_add, coe_count]
    by_cases hf : f ∈ List.range' start count
    · obtain ⟨howned, hpins, hpark⟩ := hnone f hf
      rw [hin f hf, hone f hf, count_eq_zero.mpr howned,
        count_eq_zero.mpr hpins, count_eq_zero.mpr hpark]
    · rw [hout f hf] at hres ⊢
      rw [List.count_eq_zero.mpr hf, Nat.zero_add]
      exact h.counted f htot hres
  · intro f hf
    by_cases hnew : f ∈ List.range' start count
    · refine ⟨h.books.bounded f (hcov f hnew), ?_⟩
      rw [hin f hnew]
      decide
    · rw [hout f hnew]
      apply h.managed f
      simpa [hnew] using hf
  · intro f
    rw [add_assoc, count_add, coe_count]
    by_cases hf : f ∈ List.range' start count
    · obtain ⟨howned, -, hpark⟩ := hnone f hf
      rw [hone f hf, count_eq_zero.mpr (by simp [howned, hpark])]
    · rw [List.count_eq_zero.mpr hf, Nat.zero_add]
      exact h.once f

end

lemma Ledger.addUsed (h : Ledger s₀ (slack + n) s owned pins park) :
    Ledger s₀ slack (s.addUsed n) owned pins park :=
  ⟨h.books.addUsed, h.total_le, h.initialized, h.zero, h.small, h.reserved, h.counted, h.managed,
    h.once, h.unpinned⟩

/-- An allocation gave out these frames: they had neither an owner nor a pin. -/
structure Granted (s₀ : PmmState) (owned pins park frames : Multiset Nat) (s' : PmmState) :
    Prop where
  ledger : Ledger s₀ 0 s' (frames + owned) pins park
  unused : ∀ f ∈ frames, f ∉ owned ∧ f ∉ pins

section
variable (h : Ledger s₀ 0 s owned pins park)
include h

lemma Ledger.granted_null (count : Nat) : Granted s₀ owned pins park (framesAt 0 count) s :=
  ⟨by simpa using h, by simp⟩

lemma Ledger.claim_granted (hplain : PlainRequest count align) (hcnt : 0 < count)
    (hok : claimFrames s count align node = .ok (some (start, s'))) :
    Granted s₀ owned pins park (framesAt (framePtr start) count) (s'.addUsed count) := by
  obtain ⟨hledger, hunused⟩ := h.claim hplain hok
  have hmem : start ∈ List.range' start count + owned + park := by
    simp [List.mem_range'_1, hcnt]
  obtain ⟨hnull, hdiv⟩ := hledger.framePtr_eq hmem
  rw [framesAt, if_neg hnull, hdiv]
  exact ⟨hledger.addUsed, hunused⟩

lemma Ledger.allocFromOrder (hok : allocFromOrder s order = .ok (ptr, s')) :
    Granted s₀ owned pins park (framesAt ptr 1) s' := by
  induction order with
  | nil =>
    cases hok
    exact h.granted_null 1
  | cons node rest ih =>
    obtain ⟨result, hclaim, hok⟩ := ok_of_bind hok
    cases result with
    | none => exact ih hok
    | some taken =>
      cases hok
      exact h.claim_granted (.inl (by decide)) Nat.one_pos hclaim

lemma Ledger.allocContiguousAligned
    (hplain : PlainRequest count (if alignPages = 0 then 1 else alignPages))
    (hok : pmmAllocContiguousAligned s count alignPages = .ok (ptr, s')) :
    Granted s₀ owned pins park (framesAt ptr count) s' := by
  unfold pmmAllocContiguousAligned at hok
  split at hok
  · cases hok
    exact h.granted_null count
  case isFalse hcnt =>
    split at hok
    · cases hok
      exact h.granted_null count
    obtain ⟨result, hclaim, hok⟩ := ok_of_bind hok
    cases result with
    | none =>
      cases hok
      exact h.granted_null count
    | some taken =>
      cases hok
      exact h.claim_granted hplain (Nat.pos_of_ne_zero hcnt) hclaim

end

lemma batchFrame_refs (hok : batchFrame s batch frame = .ok (s', batch')) :
    s'.refCounts = s.refCounts ∧ s'.totalFrames = s.totalFrames ∧
      s'.initialized = s.initialized := by
  unfold batchFrame at hok
  split at hok
  · cases hok
    exact ⟨rfl, rfl, rfl⟩
  split at hok
  · cases hok
    exact ⟨rfl, rfl, rfl⟩
  · obtain ⟨extents, -, ⟨⟩⟩ := ok_of_bind hok
    exact ⟨rfl, rfl, rfl⟩

/-- The loop over managed frames takes one reference from each of them. -/
lemma freeContiguousLoop_refs (hin : frame + n ≤ s.totalFrames)
    (hok : freeContiguousLoop n frame s batch = .ok (s', batch')) :
    (∀ f, s'.refCounts f = s.refCounts f - (List.range' frame n).count f) ∧
      s'.initialized = s.initialized := by
  induction n generalizing frame s batch with
  | zero =>
    cases hok
    simp
  | succ n ih =>
    have hstep : ∀ f, fillRefs s.refCounts frame 1 (s.refCounts frame - 1) f -
        (List.range' (frame + 1) n).count f =
        s.refCounts f - (List.range' frame (n + 1)).count f := by
      intro f
      rw [List.range'_succ, List.count_cons, fillRefs_one]
      by_cases heq : f = frame
      · subst heq
        rw [if_pos rfl, if_pos (beq_self_eq_true f)]
        omega
      · rw [if_neg heq, if_neg (by simpa using Ne.symm heq)]
        rfl
    dsimp only [freeContiguousLoop] at hok
    rw [if_neg (by omega)] at hok
    split at hok
    · cases hok
    split at hok
    · obtain ⟨⟨mid, next⟩, hbatch, hok⟩ := ok_of_bind hok
      obtain ⟨hrefs, htot, hinit⟩ := batchFrame_refs hbatch
      obtain ⟨hrest, hinit'⟩ := ih (by dsimp only at htot ⊢; omega) hok
      refine ⟨?_, hinit'.trans hinit⟩
      intro f
      rw [hrest, ← hstep]
      rw [hrefs]
    · obtain ⟨hrest, hinit⟩ := ih (by dsimp only; omega) hok
      exact ⟨fun f => (hrest f).trans (hstep f), hinit⟩

/-- An owned block ends below `total_frames`. -/
lemma Ledger.range_le (h : Ledger s₀ slack s (List.range' start count + owned) pins park)
    (hcnt : count ≠ 0) : start + count ≤ s.totalFrames := by
  have hlast : start + count - 1 ∈ List.range' start count := by
    rw [List.mem_range'_1]
    omega
  have hmanaged := (h.managed (start + count - 1) (by
    simp only [mem_add, mem_coe, hlast, true_or])).1
  rw [h.books.total_eq]
  omega

/-- `pmm_free_contiguous` takes its frames from their owners. -/
lemma Ledger.freeContiguous (h : Ledger s₀ 0 s (framesAt ptr count + owned) pins park)
    (hok : pmmFreeContiguous s ptr count = .ok s') : Ledger s₀ 0 s' owned pins park := by
  have hbooks := Books.kept.freeContiguous h.books hok
  dsimp only [pmmFreeContiguous] at hok
  split at hok
  case isTrue hnone =>
    cases hok
    obtain rfl | rfl := hnone
    · simpa using h
    · simpa [framesAt] using h
  case isFalse hsome =>
    obtain ⟨hptr, hcnt⟩ := not_or.mp hsome
    rw [framesAt, if_neg hptr] at h
    have hend := h.range_le hcnt
    rw [if_neg (by simp [h.initialized]), if_neg (by omega)] at hok
    obtain ⟨⟨mid, batch⟩, hloop, hok⟩ := ok_of_bind hok
    obtain ⟨extents, -, ⟨⟩⟩ := ok_of_bind hok
    obtain ⟨hrefs, hinit⟩ := freeContiguousLoop_refs hend hloop
    exact h.release hbooks hinit (by simpa using hrefs)

/-- The ledger of the whole manager between two sections. -/
def Accounts (s₀ : PmmState) (pmm : Pmm) (owned pins : Multiset Nat) : Prop :=
  Ledger s₀ 0 pmm.state owned pins (parked pmm.magazines)

variable {pmm pmm' : Pmm} {cpu : Nat}

lemma Accounts.popMagazine (h : Accounts s₀ pmm owned pins) (hcpu : cpu < maxCpus)
    (hok : popMagazine pmm cpu = .ok (frame, pmm')) :
    Accounts s₀ pmm' (frame ::ₘ owned) pins ∧ frame ∉ owned ∧ frame ∉ pins := by
  unfold PhysicalMemory.popMagazine at hok
  split at hok <;> cases hok
  case h_2 last hlast =>
    have hslots : pmm.magazines cpu = (pmm.magazines cpu).dropLast ++ [frame] :=
      (List.dropLast_append_getLast? frame hlast).symm
    have hpark : parked pmm.magazines =
        frame ::ₘ parked (update pmm.magazines cpu (pmm.magazines cpu).dropLast) := by
      have hupdate := parked_update pmm.magazines hcpu (pmm.magazines cpu).dropLast
      rw [← singleton_add]
      apply add_right_cancel (b := ((pmm.magazines cpu).dropLast : Multiset Nat))
      rw [← hupdate]
      nth_rewrite 2 [hslots]
      rw [← coe_add, coe_singleton]
      abel
    unfold Accounts at h
    rw [hpark] at h
    exact h.pop

variable {frames : List Nat}

lemma Ledger.load (h : Ledger s₀ slack s (frames + owned) pins (parked pmm.magazines))
    (hcpu : cpu < maxCpus) (hpins : ∀ f ∈ frames, f ∉ pins) :
    Ledger s₀ slack s owned pins
      (parked (update pmm.magazines cpu (pmm.magazines cpu ++ frames))) := by
  have hpark : parked (update pmm.magazines cpu (pmm.magazines cpu ++ frames)) =
      frames + parked pmm.magazines := by
    apply add_right_cancel (b := (pmm.magazines cpu : Multiset Nat))
    rw [parked_update pmm.magazines hcpu, ← coe_add]
    abel
  rw [hpark]
  exact h.push hpins

section
variable (h : Accounts s₀ pmm (frame ::ₘ owned) pins) (hcpu : cpu < maxCpus) (hpins : frame ∉ pins)
include h hcpu hpins

lemma Accounts.pushMagazine : Accounts s₀ (pushMagazine pmm cpu frame) owned pins := by
  have hsingle : Ledger s₀ 0 pmm.state (([frame] : List Nat) + owned) pins
      (parked pmm.magazines) := by
    rwa [coe_singleton, singleton_add]
  exact hsingle.load hcpu (by simpa using hpins)

lemma Accounts.storeMagazine (hempty : pmm.magazines cpu = []) :
    Accounts s₀ (storeMagazine pmm cpu frame) owned pins := by
  have hpush := h.pushMagazine hcpu hpins
  unfold PhysicalMemory.pushMagazine at hpush
  rwa [hempty] at hpush

end

lemma Ledger.refillSingles (h : Ledger s₀ frames.length s (frames + owned) pins park)
    (hpins : ∀ f ∈ frames, f ∉ pins) (hok : refillSingles n s frames = .ok (s', frames')) :
    Ledger s₀ frames'.length s' (frames' + owned) pins park ∧ ∀ f ∈ frames', f ∉ pins := by
  induction n generalizing s frames with
  | zero =>
    cases hok
    exact ⟨h, hpins⟩
  | succ n ih =>
    obtain ⟨result, hclaim, hok⟩ := ok_of_bind hok
    cases result with
    | none =>
      cases hok
      exact ⟨h, hpins⟩
    | some taken =>
      obtain ⟨hledger, hunused⟩ := h.claim (.inl (by decide)) hclaim
      refine ih ?_ ?_ hok
      · have hmove : ((List.range' taken.1 1 : List Nat) : Multiset Nat) + (frames + owned) =
            ((frames ++ [taken.1] : List Nat) : Multiset Nat) + owned := by
          rw [← coe_add, List.range'_one]
          abel
        rwa [List.length_append, ← hmove]
      · intro f hf
        obtain hf | hf := List.mem_append.mp hf
        · exact hpins f hf
        · exact (hunused f (by simpa [List.range'_one] using hf)).2

lemma Ledger.refillFrames (h : Ledger s₀ 0 s owned pins park)
    (hok : refillFrames s = .ok (s', frames)) :
    Ledger s₀ frames.length s' (frames + owned) pins park ∧ ∀ f ∈ frames, f ∉ pins := by
  obtain ⟨result, hclaim, hok⟩ := ok_of_bind hok
  cases result with
  | none =>
    have hnone : Ledger s₀ ([] : List Nat).length s (([] : List Nat) + owned) pins park := by
      simpa using h
    exact hnone.refillSingles (by simp) hok
  | some taken =>
    cases hok
    obtain ⟨hledger, hunused⟩ := h.claim (.inl (by decide)) hclaim
    refine ⟨?_, fun f hf => (hunused f hf).2⟩
    rw [List.length_range']
    simpa using hledger

variable (h : Accounts s₀ pmm owned pins)
include h

lemma Accounts.magazineRefill (hempty : pmm.magazines cpu = [])
    (hok : magazineRefill pmm cpu = .ok (loaded, pmm')) : Accounts s₀ pmm' owned pins := by
  unfold PhysicalMemory.magazineRefill at hok
  split at hok
  · cases hok
    exact h
  case isFalse hcpu =>
    split at hok
    · cases hok
      exact h
    obtain ⟨⟨mid, frames⟩, hrefill, ⟨⟩⟩ := ok_of_bind hok
    obtain ⟨hledger, hpins⟩ := h.refillFrames hrefill
    rw [← Nat.zero_add frames.length] at hledger
    have hpark := hledger.addUsed.load (Nat.lt_of_not_le hcpu) hpins
    rwa [hempty] at hpark

omit h in
lemma Ledger.flushFrames (h : Ledger s₀ 0 s owned pins (frames + park))
    (hok : flushFrames frames s = .ok s') : Ledger s₀ 0 s' owned pins park := by
  induction frames generalizing s with
  | nil =>
    cases hok
    simpa using h
  | cons frame rest ih =>
    obtain ⟨mid, hfree, hok⟩ := ok_of_bind hok
    obtain ⟨hnull, hdiv⟩ := h.framePtr_eq (f := frame) (by simp)
    rw [← cons_coe, cons_add] at h
    obtain ⟨hpopped, -⟩ := h.pop
    rw [← hdiv] at hpopped
    exact ih (hpopped.freeFrameLocked hnull hfree) hok

lemma Accounts.magazineFlush
    (hok : magazineFlush pmm cpu = .ok pmm') : Accounts s₀ pmm' owned pins := by
  unfold PhysicalMemory.magazineFlush at hok
  split at hok
  · cases hok
    exact h
  case isFalse hcpu =>
    split at hok
    · cases hok
      exact h
    obtain ⟨mid, hflush, ⟨⟩⟩ := ok_of_bind hok
    have hupdate := parked_update pmm.magazines (Nat.lt_of_not_le hcpu) []
    rw [coe_nil, add_zero, add_comm] at hupdate
    apply Ledger.flushFrames _ hflush
    rwa [hupdate]

lemma Accounts.allocLocked (hok : allocLocked pmm = .ok (ptr, pmm')) :
    Accounts s₀ pmm' (framesAt ptr 1 + owned) pins ∧
      ∀ f ∈ framesAt ptr 1, f ∉ owned ∧ f ∉ pins := by
  unfold PhysicalMemory.allocLocked at hok
  split at hok
  · cases hok
    exact ⟨by simpa using h, by simp⟩
  obtain ⟨⟨ptr', mid⟩, halloc, ⟨⟩⟩ := ok_of_bind hok
  obtain ⟨hledger, hunused⟩ := Ledger.allocFromOrder h halloc
  exact ⟨hledger, hunused⟩

lemma Accounts.popMagazine_granted (hcpu : cpu < maxCpus)
    (hok : PhysicalMemory.popMagazine pmm cpu = .ok (frame, pmm')) :
    Accounts s₀ pmm' (framesAt (framePtr frame) 1 + owned) pins ∧
      ∀ f ∈ framesAt (framePtr frame) 1, f ∉ owned ∧ f ∉ pins := by
  obtain ⟨hacc, howned, hpins⟩ := h.popMagazine hcpu hok
  obtain ⟨hnull, hdiv⟩ := Ledger.framePtr_eq hacc (f := frame) (by simp)
  rw [framesAt_one hnull, hdiv, singleton_add]
  refine ⟨hacc, ?_⟩
  intro f hf
  rw [mem_singleton.mp hf]
  exact ⟨howned, hpins⟩

omit h in
/-- After `pmm_init` nothing is held. -/
lemma pmmInit_accounts (hmap : mb.NonOverlapping)
    (hfit : ∀ e ∈ mb.entries, e.addr.toNat + e.len.toNat < 2 ^ 64)
    (hok : pmmInit PmmState.static mb kernelEnd = .ok s) : Accounts s (Pmm.boot s) 0 0 := by
  have htot := totalFrames_le hok
  have hbooks := pmmInit_books hmap hok (fun f hf => usableFrame_lt_total hok hfit hf) le_rfl
    (by omega)
  obtain ⟨scan, -, -, -, hextents, hrefs, -, hinit⟩ := pmmInit_ok hok
  have hpark : parked (Pmm.boot s).magazines = 0 := Finset.sum_const_zero
  rw [Accounts, hpark]
  refine ⟨hbooks, htot, hinit, ?_, ?_, fun _ _ => Iff.rfl, ?_, by simp, by simp, by simp⟩
  · intro hpos
    have hlow : ¬ Covered s.extents 0 := by
      intro hcov
      rw [hextents] at hcov
      exact (covered_of_reserveBoot hcov).2 (.inl (by decide))
    show s.refCounts 0 = refReserved
    rw [hrefs, initRefs, if_neg hlow, if_pos hpos]
  · intro f
    show s.refCounts f ≤ refReserved
    rw [hrefs, initRefs]
    split
    · decide
    · split
      · exact le_rfl
      · decide
  · intro f hf hres
    change s.refCounts f ≠ refReserved at hres
    show s.refCounts f = _
    rw [hrefs, initRefs] at hres ⊢
    by_cases hcov : Covered s.extents f
    · simp [hcov, refFree]
    · rw [if_neg hcov, if_pos hf] at hres
      exact absurd rfl hres

end Singularity.PhysicalMemory
