import Mathlib.Algebra.BigOperators.Group.List.Basic
import Mathlib.Algebra.Order.Group.Nat
import Mathlib.Algebra.Ring.Nat
import Mathlib.Data.List.Pairwise
import Mathlib.Data.Nat.Count

/-!
# Lists of half-open spans

A span covers the natural numbers from `lo` up to and excluding `hi`. A list of
spans is a concrete representation of a finite set of numbers: `Ordered` lists
are sorted and disjoint, `Separated` lists also leave a gap between neighbours.
Insertion by start, one coalescing pass and removal are given with what they do
to the covered set and to its size.
-/

namespace Singularity.Foundation

open List Nat

universe u v

/-- A type whose values denote half-open intervals of natural numbers. -/
class Span (α : Type u) where
  lo : α → Nat
  hi : α → Nat

namespace Span

variable {α : Type u} [Span α]

/-- The number `x` lies in the span `a`. -/
def Within (a : α) (x : Nat) : Prop := lo a ≤ x ∧ x < hi a

instance (a : α) (x : Nat) : Decidable (Within a x) := inferInstanceAs (Decidable (_ ∧ _))

/-- The number `x` lies in some span of the list. -/
def Covered (l : List α) (x : Nat) : Prop := ∃ a ∈ l, Within a x

instance (l : List α) (x : Nat) : Decidable (Covered l x) :=
  inferInstanceAs (Decidable (∃ a ∈ l, _))

/-- Two spans share a number. -/
def Meets {β : Type v} [Span β] (a : α) (b : β) : Prop := ∃ x, Within a x ∧ Within b x

variable {a : α}

/-- The larger of the two starts is the first number that both spans can share. -/
lemma meets_iff {β : Type v} [Span β] {b : β} :
    Meets a b ↔ (lo a < hi a ∧ lo b < hi b) ∧ lo a < hi b ∧ lo b < hi a := by
  constructor
  · rintro ⟨x, ha, hb⟩
    have := ha.1
    have := ha.2
    have := hb.1
    have := hb.2
    omega
  · rintro ⟨⟨ha, hb⟩, hab, hba⟩
    exact ⟨max (lo a) (lo b), ⟨le_max_left _ _, max_lt ha hba⟩, le_max_right _ _, max_lt hab hb⟩

/-- The total length of the spans of a list. -/
def size (l : List α) : Nat := (l.map fun a => hi a - lo a).sum

/-- Non-empty spans, sorted and pairwise disjoint. -/
structure Ordered (l : List α) : Prop where
  proper : ∀ a ∈ l, lo a < hi a
  apart : l.Pairwise fun a b => hi a ≤ lo b

/-- Non-empty spans, sorted, pairwise disjoint and never adjacent. -/
structure Separated (l : List α) : Prop where
  proper : ∀ a ∈ l, lo a < hi a
  gaps : l.Pairwise fun a b => hi a < lo b

@[simp] lemma covered_nil (x : Nat) : ¬ Covered ([] : List α) x := by simp [Covered]

@[simp] lemma covered_cons (a : α) (l : List α) (x : Nat) :
    Covered (a :: l) x ↔ Within a x ∨ Covered l x := by
  simp [Covered]

@[simp] lemma covered_append (l k : List α) (x : Nat) :
    Covered (l ++ k) x ↔ Covered l x ∨ Covered k x := by
  simp [Covered, or_and_right, exists_or]

@[simp] lemma size_nil : size ([] : List α) = 0 := rfl

@[simp] lemma size_cons (a : α) (l : List α) : size (a :: l) = (hi a - lo a) + size l := by
  simp [size]

@[simp] lemma size_append (l k : List α) : size (l ++ k) = size l + size k := by
  simp [size]

variable {l k pre post : List α} {x : Nat} {merge : α → α → α}

lemma Separated.ordered (h : Separated l) : Ordered l :=
  ⟨h.proper, h.gaps.imp Nat.le_of_lt⟩

lemma separated_nil : Separated ([] : List α) := ⟨by simp, List.Pairwise.nil⟩

lemma ordered_cons : Ordered (a :: l) ↔ lo a < hi a ∧ (∀ b ∈ l, hi a ≤ lo b) ∧ Ordered l := by
  constructor
  · rintro ⟨hprop, hapart⟩
    obtain ⟨ha, hl⟩ := forall_mem_cons.mp hprop
    obtain ⟨hfirst, hrest⟩ := pairwise_cons.mp hapart
    exact ⟨ha, hfirst, hl, hrest⟩
  · rintro ⟨ha, hfirst, hl⟩
    exact ⟨forall_mem_cons.mpr ⟨ha, hl.proper⟩, pairwise_cons.mpr ⟨hfirst, hl.apart⟩⟩

lemma separated_cons : Separated (a :: l) ↔ lo a < hi a ∧ (∀ b ∈ l, hi a < lo b) ∧ Separated l := by
  constructor
  · rintro ⟨hprop, hgaps⟩
    obtain ⟨ha, hl⟩ := forall_mem_cons.mp hprop
    obtain ⟨hfirst, hrest⟩ := pairwise_cons.mp hgaps
    exact ⟨ha, hfirst, hl, hrest⟩
  · rintro ⟨ha, hfirst, hl⟩
    exact ⟨forall_mem_cons.mpr ⟨ha, hl.proper⟩, pairwise_cons.mpr ⟨hfirst, hl.gaps⟩⟩

lemma Ordered.tail (h : Ordered (a :: l)) : Ordered l := (ordered_cons.mp h).2.2

lemma Ordered.head_le (h : Ordered (a :: l)) (hb : b ∈ l) : hi a ≤ lo b :=
  (ordered_cons.mp h).2.1 b hb

lemma Separated.sublist (h : Separated l) (hk : k.Sublist l) : Separated k :=
  ⟨fun a ha => h.proper a (hk.subset ha), h.gaps.sublist hk⟩

/-- Disjoint spans between two bounds are together no longer than the distance. -/
lemma Ordered.size_le (h : Ordered l) (hmn : m ≤ n) (hlo : ∀ a ∈ l, m ≤ lo a)
    (hhi : ∀ a ∈ l, hi a ≤ n) : size l ≤ n - m := by
  induction l generalizing m with
  | nil => simp
  | cons a l ih =>
    have ha := h.proper a mem_cons_self
    have hla := hlo a mem_cons_self
    have hha := hhi a mem_cons_self
    have hrest := ih h.tail hha (fun b hb => h.head_le hb)
      (fun b hb => hhi b (mem_cons_of_mem a hb))
    rw [size_cons]
    omega

/-- A span disjoint from the covered set lies entirely on one side of each member. -/
lemma before_or_after (hl : ∀ c ∈ l, lo c < hi c) (ha : lo a < hi a)
    (hfree : ∀ x, Within a x → ¬ Covered l x) (hb : b ∈ l) : hi b ≤ lo a ∨ hi a ≤ lo b := by
  have hprop := hl b hb
  by_contra hno
  rw [not_or] at hno
  have hin : ∀ x, Within b x → Covered l x := fun x hx => ⟨b, hb, hx⟩
  obtain h | h := Nat.le_total (lo a) (lo b)
  · exact hfree (lo b) ⟨h, by omega⟩ (hin _ ⟨le_rfl, hprop⟩)
  · exact hfree (lo a) ⟨le_rfl, ha⟩ (hin _ ⟨h, by omega⟩)

/-- Insert a span before the first one that starts after it. -/
def insert (a : α) : List α → List α
  | [] => [a]
  | b :: l => if lo a < lo b then a :: b :: l else b :: insert a l

lemma mem_insert (a b : α) (l : List α) : b ∈ insert a l ↔ b = a ∨ b ∈ l := by
  induction l with
  | nil => simp [insert]
  | cons c l ih =>
    unfold insert
    split
    · simp
    · simp only [mem_cons, ih]
      tauto

lemma length_insert (a : α) (l : List α) : (insert a l).length = l.length + 1 := by
  induction l with
  | nil => rfl
  | cons c l ih =>
    unfold insert
    split
    · rfl
    · simp [ih]

lemma covered_insert (a : α) (l : List α) (x : Nat) :
    Covered (insert a l) x ↔ Within a x ∨ Covered l x := by
  simp [Covered, mem_insert]

lemma size_insert (a : α) (l : List α) : size (insert a l) = (hi a - lo a) + size l := by
  induction l with
  | nil => simp [insert]
  | cons c l ih =>
    unfold insert
    split
    · simp
    · simp only [size_cons, ih]
      omega

/-- Inserting a fresh span keeps the list sorted and disjoint. -/
lemma insert_ordered (hl : Ordered l) (ha : lo a < hi a) (hfree : ∀ x, Within a x → ¬ Covered l x) :
    Ordered (insert a l) := by
  induction l with
  | nil => exact ⟨by simpa [insert] using ha, by simp [insert]⟩
  | cons b l ih =>
    obtain ⟨hb, hbehind, htail⟩ := ordered_cons.mp hl
    have hside := before_or_after hl.proper ha hfree mem_cons_self
    unfold insert
    split
    case isTrue hlt =>
      have hab : hi a ≤ lo b := by omega
      exact ordered_cons.mpr ⟨ha, forall_mem_cons.mpr
        ⟨hab, fun c hc => hab.trans (hb.le.trans (hbehind c hc))⟩, hl⟩
    case isFalse hge =>
      have hrest : Ordered (insert a l) :=
        ih htail fun x hx hc => hfree x hx ((covered_cons b l x).mpr (.inr hc))
      refine ordered_cons.mpr ⟨hb, fun c hc => ?_, hrest⟩
      obtain rfl | hc := (mem_insert a c l).mp hc
      · omega
      · exact hbehind c hc

/-- Two adjacent spans joined into one. -/
def IsMerge (merge : α → α → α) : Prop :=
  ∀ a b, hi a = lo b → lo b ≤ hi b → lo (merge a b) = lo a ∧ hi (merge a b) = hi b

/-- One left-to-right pass that joins adjacent neighbours; `w` is the span being written. -/
def coalesce (merge : α → α → α) : α → List α → List α
  | w, [] => [w]
  | w, r :: l => if hi w = lo r then coalesce merge (merge w r) l else w :: coalesce merge r l

section
variable (hmerge : IsMerge merge) {w r : α}
include hmerge

private lemma merge_proper (h : ∀ a ∈ w :: r :: l, lo a < hi a) (hadj : hi w = lo r) :
    ∀ a ∈ merge w r :: l, lo a < hi a := by
  have hw := h w mem_cons_self
  have hr := h r (by simp)
  obtain ⟨hlo, hhi⟩ := hmerge w r hadj hr.le
  exact forall_mem_cons.mpr ⟨by omega, fun c hc => h c (by simp [hc])⟩

private lemma merge_ordered (h : Ordered (w :: r :: l)) (hadj : hi w = lo r) :
    Ordered (merge w r :: l) := by
  obtain ⟨hr, hbehind, hl⟩ := ordered_cons.mp h.tail
  obtain ⟨-, hhi⟩ := hmerge w r hadj hr.le
  exact ordered_cons.mpr
    ⟨merge_proper hmerge h.proper hadj _ mem_cons_self, by rwa [hhi], hl⟩

private lemma covered_merge (h : ∀ a ∈ w :: r :: l, lo a < hi a) (hadj : hi w = lo r) (x : Nat) :
    Covered (merge w r :: l) x ↔ Covered (w :: r :: l) x := by
  have hw := h w mem_cons_self
  have hr := h r (by simp)
  obtain ⟨hlo, hhi⟩ := hmerge w r hadj hr.le
  simp only [covered_cons, Within, hlo, hhi, ← or_assoc]
  apply or_congr_left
  omega

section
variable (h : ∀ a ∈ w :: l, lo a < hi a)
include h

/-- The pass keeps the covered set, also of a list that is not sorted. -/
lemma covered_coalesce (x : Nat) : Covered (coalesce merge w l) x ↔ Covered (w :: l) x := by
  induction l generalizing w with
  | nil => rfl
  | cons r l ih =>
    unfold coalesce
    split_ifs with hadj
    · rw [ih (merge_proper hmerge h hadj), covered_merge hmerge h hadj]
    · rw [covered_cons, ih fun a ha => h a (mem_cons_of_mem w ha), covered_cons w]

lemma size_coalesce : size (coalesce merge w l) = size (w :: l) := by
  induction l generalizing w with
  | nil => rfl
  | cons r l ih =>
    unfold coalesce
    split_ifs with hadj
    · have hw := h w mem_cons_self
      have hr := h r (by simp)
      obtain ⟨hlo, hhi⟩ := hmerge w r hadj hr.le
      rw [ih (merge_proper hmerge h hadj)]
      simp only [size_cons, hlo, hhi]
      omega
    · rw [size_cons, ih fun a ha => h a (mem_cons_of_mem w ha), size_cons w]

lemma coalesce_proper : ∀ a ∈ coalesce merge w l, lo a < hi a := by
  induction l generalizing w with
  | nil => exact h
  | cons r l ih =>
    unfold coalesce
    split_ifs with hadj
    · exact ih (merge_proper hmerge h hadj)
    · obtain ⟨hw, hrest⟩ := forall_mem_cons.mp h
      exact forall_mem_cons.mpr ⟨hw, ih hrest⟩

end

omit hmerge in
lemma length_coalesce_le (w : α) (l : List α) : (coalesce merge w l).length ≤ l.length + 1 := by
  induction l generalizing w with
  | nil => simp [coalesce]
  | cons r l ih =>
    unfold coalesce
    split
    · exact (ih (merge w r)).trans (by simp)
    · simpa using ih r

lemma coalesce_separated (h : Ordered (w :: l)) :
    Separated (coalesce merge w l) ∧ ∀ c ∈ coalesce merge w l, lo w ≤ lo c := by
  induction l generalizing w with
  | nil =>
    exact ⟨⟨h.proper, pairwise_singleton _ _⟩, by simp [coalesce]⟩
  | cons r l ih =>
    obtain ⟨hw, hbehind, htail⟩ := ordered_cons.mp h
    unfold coalesce
    split
    case isTrue hadj =>
      obtain ⟨hlo, -⟩ := hmerge w r hadj (htail.proper r mem_cons_self).le
      have hrec := ih (merge_ordered hmerge h hadj)
      rwa [hlo] at hrec
    case isFalse hgap =>
      obtain ⟨hsep, hle⟩ := ih htail
      have hwr : hi w < lo r := lt_of_le_of_ne (hbehind r mem_cons_self) hgap
      have hfar (c : α) (hc : c ∈ coalesce merge r l) : hi w < lo c := hwr.trans_le (hle c hc)
      exact ⟨separated_cons.mpr ⟨hw, hfar, hsep⟩,
        forall_mem_cons.mpr ⟨le_rfl, fun c hc => (hw.trans (hfar c hc)).le⟩⟩

end

/-- Join a span with the first one behind it if they are adjacent. -/
def absorb (merge : α → α → α) (a : α) : List α → List α
  | [] => [a]
  | b :: l => if hi a = lo b then merge a b :: l else a :: b :: l

section
variable (hmerge : IsMerge merge)
include hmerge

lemma covered_absorb (h : Ordered (a :: l)) (x : Nat) :
    Covered (absorb merge a l) x ↔ Covered (a :: l) x := by
  cases l with
  | nil => rfl
  | cons b l =>
    simp only [absorb]
    split_ifs with hadj
    · exact covered_merge hmerge h.proper hadj x
    · rfl

lemma le_lo_of_mem_absorb (h : Ordered (a :: l)) (hc : c ∈ absorb merge a l) : lo a ≤ lo c := by
  have hbehind : ∀ d ∈ l, lo a ≤ lo d := fun d hd =>
    ((h.proper a mem_cons_self).trans_le (h.head_le hd)).le
  cases l with
  | nil => rw [mem_singleton.mp hc]
  | cons b l =>
    simp only [absorb] at hc
    split_ifs at hc with hadj
    · have hb := h.proper b (by simp)
      obtain rfl | hc := mem_cons.mp hc
      · exact (hmerge a b hadj hb.le).1.ge
      · exact hbehind c (mem_cons_of_mem b hc)
    · obtain rfl | hc := mem_cons.mp hc
      · exact le_rfl
      · exact hbehind c hc

/-- Absorbing the first span of a separated list leaves a separated list. -/
lemma absorb_separated (h : Ordered (a :: l)) (hl : Separated l) :
    Separated (absorb merge a l) := by
  cases l with
  | nil => exact ⟨h.proper, pairwise_singleton _ _⟩
  | cons b l =>
    have ha := h.proper a mem_cons_self
    obtain ⟨hb, hfirst, hrest⟩ := separated_cons.mp hl
    simp only [absorb]
    split
    case isTrue hadj =>
      obtain ⟨hlo, hhi⟩ := hmerge a b hadj hb.le
      exact separated_cons.mpr ⟨by omega, by rwa [hhi], hrest⟩
    case isFalse hgap =>
      have hab : hi a < lo b := lt_of_le_of_ne (h.head_le mem_cons_self) hgap
      exact separated_cons.mpr ⟨ha, forall_mem_cons.mpr
        ⟨hab, fun c hc => hab.trans (hb.trans (hfirst c hc))⟩, hl⟩

end

lemma absorb_ne_nil (a : α) (l : List α) : absorb merge a l ≠ [] := by
  cases l with
  | nil => simp [absorb]
  | cons b l =>
    simp only [absorb]
    split
    · simp
    · simp

lemma length_absorb_le (a : α) (l : List α) : (absorb merge a l).length ≤ l.length + 1 := by
  cases l with
  | nil => exact le_rfl
  | cons b l =>
    simp only [absorb]
    split
    · simp
    · simp

/-- A sorted list splits where the spans start at or behind a given number. -/
lemma Ordered.split (h : Ordered l) (n : Nat) :
    ∃ pre post, l = pre ++ post ∧ (∀ a ∈ pre, lo a < n) ∧ ∀ a ∈ post, n ≤ lo a := by
  induction l with
  | nil => exact ⟨[], [], rfl, by simp, by simp⟩
  | cons a l ih =>
    by_cases ha : lo a < n
    · obtain ⟨pre, post, rfl, hpre, hpost⟩ := ih h.tail
      exact ⟨a :: pre, post, rfl, forall_mem_cons.mpr ⟨ha, hpre⟩, hpost⟩
    · obtain ⟨hprop, hbehind, -⟩ := ordered_cons.mp h
      refine ⟨[], a :: l, rfl, by simp, forall_mem_cons.mpr ⟨by omega, fun b hb => ?_⟩⟩
      have := hbehind b hb
      omega

/-- A fresh span fits between the spans that start before it and the others. -/
lemma Ordered.insert_between (h : Ordered (pre ++ post)) (ha : lo a < hi a)
    (hfree : ∀ x, Within a x → ¬ Covered (pre ++ post) x) (hpre : ∀ b ∈ pre, lo b < lo a)
    (hpost : ∀ b ∈ post, lo a ≤ lo b) : Ordered (pre ++ a :: post) := by
  obtain ⟨hleft, hright, hcross⟩ := pairwise_append.mp h.apart
  have hside : ∀ b ∈ pre ++ post, hi b ≤ lo a ∨ hi a ≤ lo b :=
    fun b hb => before_or_after h.proper ha hfree hb
  obtain ⟨hpreProper, hpostProper⟩ := forall_mem_append.mp h.proper
  constructor
  · exact forall_mem_append.mpr ⟨hpreProper, forall_mem_cons.mpr ⟨ha, hpostProper⟩⟩
  · refine pairwise_append.mpr ⟨hleft, pairwise_cons.mpr ⟨fun b hb => ?_, hright⟩, ?_⟩
    · have hb' := hpostProper b hb
      have := hpost b hb
      obtain hba | hab := hside b (mem_append_right _ hb)
      · omega
      · exact hab
    · intro b hb c hc
      obtain rfl | hc := mem_cons.mp hc
      · have := hpre b hb
        obtain hba | hab := hside b (mem_append_left _ hb)
        · exact hba
        · omega
      · exact hcross b hb c hc

/-- A member of a separated list may be replaced by separated parts of it. -/
lemma Separated.splice (h : Separated (pre ++ a :: post)) (hmid : Separated mid)
    (hin : ∀ c ∈ mid, lo a ≤ lo c ∧ hi c ≤ hi a) : Separated (pre ++ (mid ++ post)) := by
  obtain ⟨hpre, hpost, hcross⟩ := pairwise_append.mp h.gaps
  obtain ⟨hfirst, hrest⟩ := pairwise_cons.mp hpost
  obtain ⟨hpreProper, hpostProper⟩ := forall_mem_append.mp h.proper
  constructor
  · exact forall_mem_append.mpr ⟨hpreProper,
      forall_mem_append.mpr ⟨hmid.proper, (forall_mem_cons.mp hpostProper).2⟩⟩
  · refine pairwise_append.mpr ⟨hpre, pairwise_append.mpr ⟨hmid.gaps, hrest, ?_⟩, ?_⟩
    · intro c hc d hd
      exact (hin c hc).2.trans_lt (hfirst d hd)
    intro c hc d hd
    obtain hd | hd := mem_append.mp hd
    · exact (hcross c hc a mem_cons_self).trans_le (hin d hd).1
    · exact hcross c hc d (mem_cons_of_mem a hd)

/-- Removing one member of a sorted disjoint list uncovers exactly that member. -/
lemma not_covered_of_removed (h : Ordered (as ++ a :: bs)) (hx : Within a x) :
    ¬ Covered (as ++ bs) x := by
  obtain ⟨-, hbs, hcross⟩ := pairwise_append.mp h.apart
  rintro ⟨c, hc, hcx⟩
  obtain hc | hc := mem_append.mp hc
  · have := hcross c hc a mem_cons_self
    exact absurd hx.1 (by have := hcx.2; omega)
  · have := (pairwise_cons.mp hbs).1 c hc
    exact absurd hx.2 (by have := hcx.1; omega)

/-- The spans of a separated list start where spans of any list for the covered set start. -/
lemma Separated.exists_lo_eq (h : Separated l)
    (hcov : ∀ x, Covered l x ↔ Covered k x) (ha : a ∈ l) : ∃ b ∈ k, lo b = lo a := by
  have hprop := h.proper a ha
  obtain ⟨b, hb, hle, hlt⟩ := (hcov (lo a)).mp ⟨a, ha, le_rfl, hprop⟩
  refine ⟨b, hb, le_antisymm hle (Nat.le_of_not_lt fun hbefore => ?_)⟩
  obtain ⟨c, hc, hcle, hclt⟩ := (hcov (lo a - 1)).mpr ⟨b, hb, by omega, by omega⟩
  have hne : a ≠ c := by
    rintro rfl
    omega
  have hsym : l.Pairwise fun a b => hi a < lo b ∨ hi b < lo a := h.gaps.imp Or.inl
  have : Std.Symm fun a b : α => hi a < lo b ∨ hi b < lo a := ⟨fun _ _ h => h.symm⟩
  obtain hac | hca := hsym.forall ha hc hne
  · omega
  · omega

/-- In an ordered list a covered number lies in one span. -/
lemma Ordered.countP_within (h : Ordered l) (x : Nat) :
    l.countP (fun a => decide (Within a x)) = if Covered l x then 1 else 0 := by
  induction l with
  | nil => simp
  | cons a rest ih =>
    rw [countP_cons, ih h.tail]
    by_cases ha : Within a x
    · have hrest : ¬ Covered rest x := by
        rintro ⟨b, hb, hbx⟩
        have hle := h.head_le hb
        have hlt := ha.2
        have hge := hbx.1
        omega
      simp [ha, hrest]
    · simp [ha]

/-- The number of maximal runs of a set of numbers that end at or below `x`. -/
def runsBelow (S : Nat → Prop) [DecidablePred S] (x : Nat) : Nat :=
  Nat.count (fun y => S y ∧ ¬ S (y + 1)) x

lemma runsBelow_congr {S T : Nat → Prop} [DecidablePred S] [DecidablePred T]
    (h : ∀ y, y ≤ x → (S y ↔ T y)) : runsBelow S x = runsBelow T x := by
  induction x with
  | zero => simp [runsBelow]
  | succ x ih =>
    have hx := h x (le_succ x)
    have hsucc := h (x + 1) le_rfl
    have hrest := ih fun y hy => h y (le_succ_of_le hy)
    simp only [runsBelow, count_succ] at hrest ⊢
    simp only [hrest, hx, hsucc]

lemma runsBelow_mono (S : Nat → Prop) [DecidablePred S] (h : x ≤ y) :
    runsBelow S x ≤ runsBelow S y :=
  count_monotone _ h

/-- Removing everything below a bound creates no new run. -/
lemma runsBelow_above_le (S : Nat → Prop) [DecidablePred S] (bound x : Nat) :
    runsBelow (fun y => S y ∧ bound ≤ y) x ≤ runsBelow S x := by
  apply count_mono_left
  rintro y - ⟨⟨hy, hbound⟩, hnext⟩
  refine ⟨hy, fun hsucc => hnext ⟨hsucc, ?_⟩⟩
  omega

/-- A new first span adds the run that it is. -/
private lemma runsBelow_cons (h : Separated (a :: l)) (x : Nat) :
    runsBelow (Covered (a :: l)) x = runsBelow (Covered l) x + if hi a ≤ x then 1 else 0 := by
  have hprop : lo a < hi a := h.proper a mem_cons_self
  have hafter : ∀ z, Covered l z → hi a < z := by
    rintro z ⟨b, hb, hbz⟩
    exact ((pairwise_cons.mp h.gaps).1 b hb).trans_le hbz.1
  induction x with
  | zero =>
    rw [if_neg (by omega)]
    simp [runsBelow]
  | succ x ih =>
    have hstep : (Covered (a :: l) x ∧ ¬ Covered (a :: l) (x + 1)) ↔
        hi a = x + 1 ∨ (Covered l x ∧ ¬ Covered l (x + 1)) := by
      have h0 := hafter x
      have h1 := hafter (x + 1)
      simp only [covered_cons, Within]
      by_cases hx : Covered l x
      · have := h0 hx
        by_cases hx' : Covered l (x + 1)
        · simp only [hx, hx', or_true, not_true, and_false, or_false, false_iff]
          omega
        · simp only [hx, hx', or_true, or_false, not_false_iff, and_true, true_and, or_true,
            iff_true]
          omega
      · by_cases hx' : Covered l (x + 1)
        · have := h1 hx'
          simp only [hx, hx', or_true, not_true, and_false, or_false, false_iff]
          omega
        · simp only [hx, hx', or_false, false_and]
          omega
    have hexcl : hi a = x + 1 → ¬ Covered l x := by
      intro heq hcov
      have := hafter x hcov
      omega
    simp only [runsBelow, count_succ] at ih ⊢
    rw [ih, if_congr hstep rfl rfl]
    by_cases heq : hi a = x + 1
    · simp [heq, hexcl heq]
    · have hle : hi a ≤ x + 1 ↔ hi a ≤ x := by omega
      simp only [heq, false_or, hle]
      exact Nat.add_right_comm _ _ _

/-- In a separated list the spans are the maximal runs. -/
lemma Separated.countP_hi_le (h : Separated l) (x : Nat) :
    l.countP (fun a => decide (hi a ≤ x)) = runsBelow (Covered l) x := by
  induction l with
  | nil => simp [runsBelow]
  | cons a rest ih =>
    rw [countP_cons, ih (h.sublist (sublist_cons_self a rest)), runsBelow_cons h]
    simp

/-- Cutting an ordered list keeps the numbers with few enough spans below them. -/
lemma Ordered.covered_take (h : Ordered l) (n x : Nat) :
    Covered (l.take n) x ↔ Covered l x ∧ l.countP (fun a => decide (hi a ≤ x)) < n := by
  induction l generalizing n with
  | nil => simp
  | cons a rest ih =>
    cases n with
    | zero => simp
    | succ n =>
      rw [take_succ_cons, covered_cons, covered_cons, ih h.tail, countP_cons]
      by_cases ha : Within a x
      · have hnone : rest.countP (fun b => decide (hi b ≤ x)) = 0 := by
          apply countP_eq_zero.mpr
          intro b hb
          have hle := h.head_le hb
          have hb' := h.proper b (mem_cons_of_mem a hb)
          have hx := ha.2
          simp only [decide_eq_true_eq]
          omega
        have hx : ¬ hi a ≤ x := by
          have := ha.2
          omega
        simp [ha, hnone, hx]
      · by_cases hrest : Covered rest x
        · obtain ⟨b, hb, hbx⟩ := hrest
          have hx : hi a ≤ x := (h.head_le hb).trans hbx.1
          have hcov : Covered rest x := ⟨b, hb, hbx⟩
          simp [ha, hcov, hx]
        · simp [ha, hrest]

end Span

end Singularity.Foundation
