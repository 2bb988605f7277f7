import Mathlib.Data.List.Nodup
import Mathlib.Logic.Function.Basic

/-!
# Linked lists in a store

Nodes are named by non-zero addresses; zero is the end of a list. `Chain` reads a singly linked
list, `Linked` a doubly linked one, and `Ends` are the two pointers of a queue. The lemmas say
which list stands in the store after the operations of pointer code.
-/

namespace Singularity.Foundation

open Function List Option

section
variable {α κ : Type*} [DecidableEq κ] {l : κ → List α} {ls : List α} {a x : α} {q q' : κ}

/-- One list of a family gets an element at its end. -/
lemma mem_update_append : a ∈ update l q (l q ++ [x]) q' ↔ (a = x ∧ q' = q) ∨ a ∈ l q' := by
  rw [update_apply]
  split_ifs with heq
  · subst heq
    rw [mem_append, mem_singleton]
    simp [or_comm]
  · simp [heq]

/-- One list of a family loses elements. -/
lemma mem_of_mem_update (hsub : ls ⊆ l q) (ha : a ∈ update l q ls q') : a ∈ l q' := by
  rw [update_apply] at ha
  split_ifs at ha with heq
  · subst heq
    exact hsub ha
  · exact ha

/-- What holds of the new members and of the other members holds of two changed families. -/
lemma forall_update₂ {β : Type*} {f : κ → α} {g : κ → β} {b : β}
    (P : κ → α → β → Prop) (hq : P q a b) (hothers : ∀ q' ≠ q, P q' (f q') (g q')) (q' : κ) :
    P q' (update f q a q') (update g q b q') := by
  simp only [update_apply]
  split_ifs with heq
  · rwa [heq]
  · exact hothers q' heq

/-- A list without repetitions loses the one occurrence of an element. -/
lemma erase_middle [DecidableEq α] (hnodup : (pre ++ a :: post).Nodup) :
    (pre ++ a :: post).erase a = pre ++ post := by
  have hpre : a ∉ pre := fun hin => (nodup_append.mp hnodup).2.2 a hin a (by simp) rfl
  rw [erase_append_right _ hpre, erase_cons_head]

end

/-- The nodes from `h` on, following `next` to the end. -/
def Chain (next : Nat → Nat) : Nat → List Nat → Prop
  | h, [] => h = 0
  | h, a :: l => h = a ∧ a ≠ 0 ∧ Chain next (next a) l

/-- The nodes that are met in so many hops. -/
def walk (next : Nat → Nat) : Nat → Nat → List Nat
  | 0, _ => []
  | hops + 1, h => if h = 0 then [] else h :: walk next hops (next h)

variable {next next' : Nat → Nat} {h : Nat}

namespace Chain

def decide (next : Nat → Nat) : (h : Nat) → (l : List Nat) → Decidable (Chain next h l)
  | h, [] => inferInstanceAs (Decidable (h = 0))
  | h, a :: l =>
    have := decide next (next a) l
    inferInstanceAs (Decidable (h = a ∧ a ≠ 0 ∧ Chain next (next a) l))

instance (next : Nat → Nat) (h : Nat) (l : List Nat) : Decidable (Chain next h l) :=
  decide next h l

variable {a : Nat} {l : List Nat}

section
variable (hc : Chain next h l)
include hc

lemma congr (heq : ∀ a ∈ l, next' a = next a) : Chain next' h l := by
  induction l generalizing h with
  | nil => exact hc
  | cons a l ih =>
    obtain ⟨rfl, hne, hc⟩ := hc
    refine ⟨rfl, hne, ?_⟩
    rw [heq h mem_cons_self]
    exact ih hc fun b hb => heq b (mem_cons_of_mem h hb)

lemma eq_nil (h0 : h = 0) : l = [] := by
  cases l with
  | nil => rfl
  | cons a l =>
    obtain ⟨rfl, hne, -⟩ := hc
    exact absurd h0 hne

lemma ne_nil (hne : h ≠ 0) : l ≠ [] := by
  rintro rfl
  exact hne hc

lemma head_eq : h = l.head?.getD 0 := by
  cases l with
  | nil => exact hc
  | cons a l => exact hc.1

lemma unique (hc' : Chain next h l') : l = l' := by
  induction l generalizing h l' with
  | nil =>
    cases l' with
    | nil => rfl
    | cons b l' =>
      obtain ⟨rfl, hne, -⟩ := hc'
      exact absurd hc hne
  | cons a l ih =>
    obtain ⟨rfl, hne, hc⟩ := hc
    cases l' with
    | nil => exact absurd hc' hne
    | cons b l' =>
      obtain ⟨rfl, -, hc'⟩ := hc'
      rw [ih hc hc']

lemma tail_of_mem (ha : a ∈ l) : ∃ pre post, l = pre ++ a :: post ∧ Chain next a (a :: post) := by
  induction l generalizing h with
  | nil => simp at ha
  | cons b l ih =>
    obtain ⟨rfl, hne, hc⟩ := hc
    obtain rfl | ha := mem_cons.mp ha
    · exact ⟨[], l, rfl, rfl, hne, hc⟩
    · obtain ⟨pre, post, rfl, hpost⟩ := ih hc ha
      exact ⟨h :: pre, post, rfl, hpost⟩

/-- A chain that ends has no cycle. -/
lemma nodup : l.Nodup := by
  induction l generalizing h with
  | nil => exact nodup_nil
  | cons a l ih =>
    have hwhole := hc
    obtain ⟨rfl, hne, hc⟩ := hc
    refine nodup_cons.mpr ⟨fun hmem => ?_, ih hc⟩
    obtain ⟨pre, post, rfl, hpost⟩ := hc.tail_of_mem hmem
    have heq := congrArg List.length (hwhole.unique hpost)
    simp at heq
    omega

lemma ne_zero (ha : a ∈ l) : a ≠ 0 := by
  induction l generalizing h with
  | nil => cases ha
  | cons b l ih =>
    obtain ⟨rfl, hne, hc⟩ := hc
    obtain rfl | ha := mem_cons.mp ha
    · exact hne
    · exact ih hc ha

end

/-- The node behind the last one is the new end. -/
lemma concat (hc : Chain next h (l ++ [b])) (ha : a ≠ 0) (hl : a ∉ l ++ [b]) (hend : next a = 0) :
    Chain (update next b a) h (l ++ [b] ++ [a]) := by
  induction l generalizing h with
  | nil =>
    obtain ⟨rfl, hne, -⟩ := hc
    have hah : a ≠ h := fun heq => hl (by simp [heq])
    refine ⟨rfl, hne, ?_⟩
    rw [update_self]
    refine ⟨rfl, ha, ?_⟩
    rwa [update_of_ne hah]
  | cons c l ih =>
    have hnodup := nodup hc
    obtain ⟨rfl, hne, hc⟩ := hc
    have hcb : h ≠ b := by
      rintro rfl
      exact (nodup_cons.mp hnodup).1 (by simp)
    refine ⟨rfl, hne, ?_⟩
    rw [update_of_ne hcb]
    exact ih hc fun hmem => hl (mem_cons_of_mem h hmem)

end Chain

/-- The first and the last node of a queue. -/
structure Ends where
  head : Nat
  tail : Nat
  deriving DecidableEq

namespace Ends

def empty : Ends := ⟨0, 0⟩

/-- The nodes of the queue: the tail is the last of them. -/
structure Holds (next : Nat → Nat) (q : Ends) (l : List Nat) : Prop where
  chain : Chain next q.head l
  tail : q.tail = l.getLast?.getD 0

instance (next : Nat → Nat) (q : Ends) (l : List Nat) : Decidable (Holds next q l) :=
  decidable_of_iff (Chain next q.head l ∧ q.tail = l.getLast?.getD 0)
    ⟨fun h => ⟨h.1, h.2⟩, fun h => ⟨h.chain, h.tail⟩⟩

/-- Put a node behind the tail. -/
def append (next : Nat → Nat) (q : Ends) (a : Nat) : (Nat → Nat) × Ends :=
  let next := update next a 0
  if q.head = 0 then (next, ⟨a, a⟩) else (update next q.tail a, { q with tail := a })

/-- The queue without its first node. -/
def rest (next : Nat → Nat) (q : Ends) : Ends :=
  ⟨next q.head, if next q.head = 0 then 0 else q.tail⟩

variable {q : Ends} {a x : Nat} {l : List Nat}

lemma holds_empty (next : Nat → Nat) : Holds next empty [] := ⟨rfl, rfl⟩

variable (hq : Holds next q l)
include hq

lemma Holds.congr (heq : ∀ a ∈ l, next' a = next a) : Holds next' q l :=
  ⟨hq.chain.congr heq, hq.tail⟩

lemma Holds.head_eq_zero : q.head = 0 ↔ l = [] := by
  constructor
  · exact hq.chain.eq_nil
  · rintro rfl
    exact hq.chain

omit hq in
lemma Holds.head_eq (hq : Holds next q (a :: l)) : q.head = a := hq.chain.1

/-- A queue whose ends are the same node has no other. -/
lemma Holds.tail_eq_nil (heq : q.head = q.tail) : l.tail = [] := by
  cases l with
  | nil => rfl
  | cons a l =>
    by_contra hnil
    have hne : l ≠ [] := hnil
    have htail : q.tail = l.getLast hne := by
      rw [hq.tail, getLast?_cons, getLast?_eq_some_getLast hne]
      rfl
    have hlast : a ∈ l := by
      rw [← hq.head_eq, heq, htail]
      exact getLast_mem hne
    exact (nodup_cons.mp hq.chain.nodup).1 hlast

lemma Holds.append (ha : a ≠ 0) (hl : a ∉ l) :
    Holds (append next q a).1 (append next q a).2 (l ++ [a]) := by
  unfold Ends.append
  split
  case isTrue h0 =>
    rw [hq.head_eq_zero.mp h0]
    exact ⟨⟨rfl, ha, update_self ..⟩, rfl⟩
  case isFalse hne =>
    have hnil := hq.chain.ne_nil hne
    obtain ⟨l, b, rfl⟩ := l.eq_nil_or_concat'.resolve_left hnil
    have htail : q.tail = b := by rw [hq.tail]; simp
    have hchain : Chain (update next a 0) q.head (l ++ [b]) :=
      hq.chain.congr fun x hx => update_of_ne (fun heq : x = a => hl (heq ▸ hx)) ..
    refine ⟨?_, by simp⟩
    rw [htail]
    exact hchain.concat ha hl (update_self ..)

/-- Only the new node and the last one get another successor. -/
lemma Holds.append_other (ha : x ≠ a) (hx : x ∉ l) : (Ends.append next q a).1 x = next x := by
  unfold Ends.append
  split_ifs with hne
  · exact update_of_ne ha ..
  · have hnil := hq.chain.ne_nil hne
    have htail : q.tail ∈ l := by
      rw [hq.tail, getLast?_eq_some_getLast hnil]
      exact getLast_mem hnil
    have hxt : x ≠ q.tail := fun heq => hx (heq ▸ htail)
    exact (update_of_ne hxt ..).trans (update_of_ne ha ..)

omit hq in
lemma Holds.rest (hq : Holds next q (a :: l)) : Holds next (rest next q) l := by
  obtain ⟨hhead, hne, hchain⟩ := hq.chain
  rw [Ends.rest, hhead]
  refine ⟨hchain, ?_⟩
  split
  case isTrue h0 => rw [hchain.eq_nil h0]; rfl
  case isFalse hmore =>
    have hnil := hchain.ne_nil hmore
    rw [hq.tail, getLast?_cons, getLast?_eq_some_getLast hnil]
    rfl

end Ends

/-- The two link fields of a node. -/
structure Links where
  next : Nat
  prev : Nat
  deriving DecidableEq

variable {pre post : List Nat}

namespace Links

/-- The nodes from `h` on, each with the right predecessor; `p` is the one of `h`. -/
def Linked (k : Nat → Links) : Nat → Nat → List Nat → Prop
  | _, h, [] => h = 0
  | p, h, a :: l => h = a ∧ a ≠ 0 ∧ (k a).prev = p ∧ Linked k a (k a).next l

/-- Put a node before the head `h`. -/
def push (k : Nat → Links) (h a : Nat) : Nat → Links :=
  let k := update k a ⟨h, 0⟩
  if h = 0 then k else update k h { k h with prev := a }

/-- Take a node out of the list with head `h`; the result has the new head. -/
def unlink (k : Nat → Links) (h a : Nat) : (Nat → Links) × Nat :=
  let p := (k a).prev
  let n := (k a).next
  let k₁ := if p = 0 then k else update k p { k p with next := n }
  let k₂ := if n = 0 then k₁ else update k₁ n { k₁ n with prev := p }
  (update k₂ a ⟨0, 0⟩, if p = 0 then n else h)

variable {k k' : Nat → Links} {p a h' : Nat} {l : List Nat}

section
variable (hl : Linked k p h l)
include hl

lemma Linked.congr (heq : ∀ a ∈ l, k' a = k a) : Linked k' p h l := by
  induction l generalizing p h with
  | nil => exact hl
  | cons a l ih =>
    obtain ⟨rfl, hne, hprev, hl⟩ := hl
    have hk := heq h mem_cons_self
    refine ⟨rfl, hne, by rwa [hk], ?_⟩
    rw [hk]
    exact ih hl fun b hb => heq b (mem_cons_of_mem h hb)

lemma Linked.chain : Chain (fun a => (k a).next) h l := by
  induction l generalizing p h with
  | nil => exact hl
  | cons a l ih =>
    obtain ⟨rfl, hne, -, hl⟩ := hl
    exact ⟨rfl, hne, ih hl⟩

lemma Linked.nodup : l.Nodup := hl.chain.nodup

lemma Linked.ne_zero (ha : a ∈ l) : a ≠ 0 := hl.chain.ne_zero ha

lemma Linked.eq_nil (h0 : h = 0) : l = [] := hl.chain.eq_nil h0

lemma Linked.eq_cons (hne : h ≠ 0) : ∃ rest, l = h :: rest := by
  cases l with
  | nil => exact absurd hl hne
  | cons a l =>
    obtain ⟨rfl, -⟩ := hl
    exact ⟨l, rfl⟩

end

lemma push_of_ne (ha : x ≠ a) (hh : x ≠ h) : push k h a x = k x := by
  unfold push
  split
  · rw [update_of_ne ha]
  · rw [update_of_ne hh, update_of_ne ha]

/-- A new head: the old one gets it as predecessor. -/
lemma linked_push (hl : Linked k 0 h l) (hne : a ≠ 0) (ha : a ∉ l) :
    Linked (push k h a) 0 a (a :: l) := by
  cases l with
  | nil =>
    have hh : h = 0 := hl
    simp [Linked, push, hh, hne]
  | cons b l =>
    obtain ⟨rfl, hb, hprev, hrest⟩ := hl
    have hab : a ≠ h := fun heq => ha (heq ▸ mem_cons_self)
    have hnodup := (nodup_cons.mp (Linked.nodup (p := 0) ⟨rfl, hb, hprev, hrest⟩)).1
    have hhead : push k h a a = ⟨h, 0⟩ := by
      simp [push, hb, update_of_ne hab]
    have hold : push k h a h = { k h with prev := a } := by
      simp [push, hb, update_of_ne hab.symm]
    refine ⟨rfl, hne, by rw [hhead], ?_⟩
    rw [hhead]
    refine ⟨rfl, hb, by rw [hold], ?_⟩
    rw [hold]
    apply hrest.congr
    intro x hx
    apply push_of_ne
    · rintro rfl
      exact ha (mem_cons_of_mem h hx)
    · rintro rfl
      exact hnodup hx

/-- Other lists do not notice a push. -/
lemma Linked.push_other (hl : Linked k p h l) (hl' : Linked k 0 h' l')
    (ha : a ∉ l) (hdisj : ∀ x ∈ l', x ∉ l) : Linked (push k h' a) p h l := by
  apply hl.congr
  intro x hx
  cases l' with
  | nil =>
    have h0 : h' = 0 := hl'
    apply push_of_ne
    · rintro rfl
      exact ha hx
    · rw [h0]
      exact hl.ne_zero hx
  | cons b l' =>
    obtain ⟨rfl, -⟩ := hl'
    apply push_of_ne
    · rintro rfl
      exact ha hx
    · rintro rfl
      exact hdisj x mem_cons_self hx

variable (hl : Linked k p h (pre ++ a :: post))

section
include hl

lemma Linked.behind : Linked k a (k a).next post := by
  induction pre generalizing p h with
  | nil =>
    obtain ⟨rfl, -, -, hl⟩ := hl
    exact hl
  | cons c pre ih =>
    obtain ⟨-, -, -, hl⟩ := hl
    exact ih hl

/-- The predecessor of a node is the node before it, or `p` for the first one. -/
lemma Linked.before : (pre = [] ∧ (k a).prev = p) ∨ (k a).prev ∈ pre := by
  induction pre generalizing p h with
  | nil =>
    obtain ⟨rfl, -, hprev, -⟩ := hl
    exact .inl ⟨rfl, hprev⟩
  | cons c pre ih =>
    obtain ⟨rfl, -, -, hl⟩ := hl
    right
    obtain ⟨-, hprev⟩ | hmem := ih hl
    · rw [hprev]
      exact mem_cons_self
    · exact mem_cons_of_mem h hmem

end

lemma Linked.next_eq_zero_or_mem (hl : Linked k p h l) : h = 0 ∨ h ∈ l := by
  cases l with
  | nil => exact .inl hl
  | cons b l =>
    obtain ⟨rfl, -⟩ := hl
    exact .inr mem_cons_self

/-- Make two nodes neighbours; a null one is left out. -/
private lemma joined_apply (hx : x ≠ 0)
    (hk1 : k₁ = if p = 0 then k else update k p { k p with next := n }) :
    (if n = 0 then k₁ else update k₁ n { k₁ n with prev := p }) x =
      ⟨if x = p then n else (k x).next, if x = n then p else (k x).prev⟩ := by
  have hfirst : k₁ x = ⟨if x = p then n else (k x).next, (k x).prev⟩ := by
    rw [hk1]
    by_cases hxp : x = p
    · rw [if_neg (hxp ▸ hx), if_pos hxp, hxp, update_self]
    rw [if_neg hxp]
    split
    · rfl
    · rw [update_of_ne hxp]
  by_cases hxn : x = n
  · rw [if_neg (hxn ▸ hx), if_pos hxn, ← hxn, update_self, hfirst, hxn]
  rw [if_neg hxn, ← hfirst]
  split
  · rfl
  · rw [update_of_ne hxn]

/-- Away from the node itself, its two neighbours are joined. -/
lemma unlink_apply (ha : x ≠ a) (hx : x ≠ 0) :
    (unlink k h a).1 x =
      ⟨if x = (k a).prev then (k a).next else (k x).next,
        if x = (k a).next then (k a).prev else (k x).prev⟩ := by
  simp only [unlink]
  rw [update_of_ne ha]
  exact joined_apply hx rfl

include hl in
private lemma linked_joined (hnodup : (pre ++ a :: post).Nodup) (hp : p ∉ pre ++ a :: post)
    (hk : ∀ x ∈ pre ++ post, k' x = ⟨if x = (k a).prev then (k a).next else (k x).next, if x =
      (k a).next then (k a).prev else (k x).prev⟩) :
    Linked k' p (if pre = [] then (k a).next else h) (pre ++ post) := by
  induction pre generalizing p h with
  | nil =>
    obtain ⟨rfl, -, hprev, hl⟩ := hl
    obtain ⟨hhead, hnodup⟩ := nodup_cons.mp hnodup
    rw [if_pos rfl]
    cases post with
    | nil => exact hl
    | cons b post =>
      obtain ⟨hnext, hb, -, hrest⟩ := hl
      have hbp : b ≠ p := fun heq => hp (by simp [heq])
      have hkb := hk b mem_cons_self
      rw [hprev, if_neg hbp, if_pos hnext.symm] at hkb
      refine ⟨hnext, hb, by rw [hkb], ?_⟩
      rw [hkb]
      apply hrest.congr
      intro x hx
      have hxp : x ≠ p := fun heq => hp (by simp [← heq, hx])
      have hxb : x ≠ (k h).next := by
        rintro rfl
        exact (nodup_cons.mp hnodup).1 (hnext ▸ hx)
      rw [hk x (mem_cons_of_mem b hx), hprev, if_neg hxp, if_neg hxb]
  | cons c pre ih =>
    have hwhole := hl
    obtain ⟨rfl, hc, hprev, hl⟩ := hl
    obtain ⟨hhead, hnodup⟩ := nodup_cons.mp hnodup
    have hrec := ih hl hnodup hhead fun x hx => hk x (mem_cons_of_mem h hx)
    have hkc := hk h mem_cons_self
    have hcn : h ≠ (k a).next := by
      intro heq
      obtain h0 | hmem := hl.behind.next_eq_zero_or_mem
      · exact hc (heq.trans h0)
      · exact hhead (by simp [heq, hmem])
    rw [if_neg hcn] at hkc
    rw [if_neg (cons_ne_nil h pre)]
    refine ⟨rfl, hc, by rw [hkc]; exact hprev, ?_⟩
    rw [hkc]
    obtain ⟨hpre, hap⟩ | hmem := hl.before
    · rw [if_pos hap.symm]
      simpa [hpre] using hrec
    have hne : h ≠ (k a).prev := by
      rintro rfl
      exact hhead (mem_append_left _ hmem)
    have hpre : pre ≠ [] := ne_nil_of_mem hmem
    rw [if_neg hne]
    simpa [hpre] using hrec

/-- Unlinking a node joins what stands before and behind it. -/
lemma linked_unlink (hl : Linked k 0 h (pre ++ a :: post)) :
    Linked (unlink k h a).1 0 (unlink k h a).2 (pre ++ post) := by
  have hnodup := hl.nodup
  have h0 : 0 ∉ pre ++ a :: post := fun hmem => hl.ne_zero hmem rfl
  have hoff : a ∉ pre ++ post := (nodup_middle.mp hnodup |> nodup_cons.mp).1
  have hhead : (unlink k h a).2 = if pre = [] then (k a).next else h := by
    simp only [unlink]
    obtain ⟨hpre, hprev⟩ | hmem := hl.before
    · rw [if_pos hprev, if_pos hpre]
    · have hprev : (k a).prev ≠ 0 := hl.ne_zero (mem_append_left _ hmem)
      rw [if_neg hprev, if_neg (ne_nil_of_mem hmem)]
  rw [hhead]
  apply linked_joined hl hnodup h0
  intro x hx
  apply unlink_apply
  · rintro rfl
    exact hoff hx
  rintro rfl
  apply h0
  obtain hx | hx := mem_append.mp hx
  · exact mem_append_left _ hx
  · exact mem_append_right _ (mem_cons_of_mem a hx)

/-- Other lists do not notice that a node is unlinked. -/
lemma Linked.unlink_other (hl : Linked k p h l)
    (hl' : Linked k 0 h' (pre ++ a :: post)) (hdisj : ∀ x ∈ pre ++ a :: post, x ∉ l) :
    Linked (unlink k h' a).1 p h l := by
  apply hl.congr
  intro x hx
  have hne : x ≠ 0 := hl.ne_zero hx
  have hoff : ∀ y ∈ pre ++ a :: post, x ≠ y := by
    rintro y hy rfl
    exact hdisj x hy hx
  have hprev : x ≠ (k a).prev := by
    obtain ⟨-, h0⟩ | hmem := hl'.before
    · rwa [h0]
    · exact hoff _ (mem_append_left _ hmem)
  have hnext : x ≠ (k a).next := by
    obtain h0 | hmem := hl'.behind.next_eq_zero_or_mem
    · rwa [h0]
    · exact hoff _ (mem_append_right _ (mem_cons_of_mem a hmem))
  rw [unlink_apply (hoff a (by simp)) hne, if_neg hprev, if_neg hnext]

section
include hl

/-- The predecessor of a node is the last one before it, or `p`. -/
lemma Linked.prev_eq : (k a).prev = pre.getLast?.getD p := by
  induction pre generalizing p h with
  | nil =>
    obtain ⟨rfl, -, hprev, -⟩ := hl
    exact hprev
  | cons c pre ih =>
    obtain ⟨-, -, -, hl⟩ := hl
    rw [ih hl, getLast?_cons]
    rfl

lemma Linked.next_eq : (k a).next = post.head?.getD 0 := hl.behind.chain.head_eq

end

/-- The node behind the last one is the new end. -/
lemma Linked.concat (hl : Linked k p h (l ++ [b])) (ha : a ≠ 0) (hmem : a ∉ l ++ [b])
    (hnew : k a = ⟨0, b⟩) : Linked (update k b { k b with next := a }) p h (l ++ [b] ++ [a]) := by
  induction l generalizing p h with
  | nil =>
    obtain ⟨rfl, hne, hprev, -⟩ := hl
    have hah : a ≠ h := fun heq => hmem (by simp [heq])
    refine ⟨rfl, hne, by rw [update_self]; exact hprev, ?_⟩
    rw [update_self]
    refine ⟨rfl, ha, ?_, ?_⟩
    · rw [update_of_ne hah, hnew]
    · rw [update_of_ne hah, hnew]
      rfl
  | cons c l ih =>
    have hnodup := hl.nodup
    obtain ⟨rfl, hne, hprev, hl⟩ := hl
    have hcb : h ≠ b := by
      rintro rfl
      exact (nodup_cons.mp hnodup).1 (by simp)
    refine ⟨rfl, hne, by rw [update_of_ne hcb]; exact hprev, ?_⟩
    rw [update_of_ne hcb]
    exact ih hl fun hin => hmem (mem_cons_of_mem h hin)

/-- The nodes of a doubly linked queue: the tail is the last of them. -/
structure Held (k : Nat → Links) (q : Ends) (l : List Nat) : Prop where
  linked : Linked k 0 q.head l
  tail : q.tail = l.getLast?.getD 0

/-- Put a node behind the tail of a doubly linked queue. -/
def append (k : Nat → Links) (q : Ends) (a : Nat) : (Nat → Links) × Ends :=
  let k := update k a ⟨0, q.tail⟩
  if q.tail = 0 then (k, ⟨a, a⟩)
  else (update k q.tail { k q.tail with next := a }, { q with tail := a })

/-- Take a node out of a doubly linked queue. -/
def remove (k : Nat → Links) (q : Ends) (a : Nat) : (Nat → Links) × Ends :=
  ((unlink k q.head a).1, ⟨(unlink k q.head a).2, if (k a).next = 0 then (k a).prev else q.tail⟩)

variable {q : Ends}

lemma held_empty (k : Nat → Links) : Held k .empty [] := ⟨rfl, rfl⟩

section
variable (hq : Held k q l)
include hq

lemma Held.congr (heq : ∀ a ∈ l, k' a = k a) : Held k' q l :=
  ⟨hq.linked.congr heq, hq.tail⟩

lemma Held.ne_zero (ha : a ∈ l) : a ≠ 0 := hq.linked.ne_zero ha

lemma Held.head_eq : q.head = l.head?.getD 0 := hq.linked.chain.head_eq

lemma Held.tail_eq_zero : q.tail = 0 ↔ l = [] := by
  constructor
  · intro h0
    by_contra hne
    have hlast := hq.tail
    rw [getLast?_eq_some_getLast hne, getD_some] at hlast
    exact hq.ne_zero (getLast_mem hne) (hlast.symm.trans h0)
  · rintro rfl
    exact hq.tail

lemma Held.tail_mem (hne : q.tail ≠ 0) : q.tail ∈ l := by
  have hnil : l ≠ [] := fun hnil => hne (hq.tail_eq_zero.mpr hnil)
  rw [hq.tail, getLast?_eq_some_getLast hnil]
  exact getLast_mem hnil

lemma Held.append (ha : a ≠ 0) (hl : a ∉ l) :
    Held (append k q a).1 (append k q a).2 (l ++ [a]) := by
  unfold Links.append
  split
  case isTrue h0 =>
    rw [hq.tail_eq_zero.mp h0, h0]
    have hnew : update k a ⟨0, 0⟩ a = ⟨0, 0⟩ := update_self ..
    refine ⟨⟨rfl, ha, ?_, ?_⟩, rfl⟩
    · exact congrArg Links.prev hnew
    · exact congrArg Links.next hnew
  case isFalse hne =>
    have hnil : l ≠ [] := fun hnil => hne (hq.tail_eq_zero.mpr hnil)
    obtain ⟨l, b, rfl⟩ := l.eq_nil_or_concat'.resolve_left hnil
    have htail : q.tail = b := by rw [hq.tail]; simp
    have hlinked : Linked (update k a ⟨0, b⟩) 0 q.head (l ++ [b]) :=
      hq.linked.congr fun x hx => update_of_ne (fun heq : x = a => hl (heq ▸ hx)) ..
    refine ⟨?_, by simp⟩
    rw [htail]
    exact hlinked.concat ha hl (update_self ..)

/-- Only the new node and the last one are changed. -/
lemma Held.append_other (ha : x ≠ a) (hx : x ∉ l) : (Links.append k q a).1 x = k x := by
  unfold Links.append
  split_ifs with hne
  · exact update_of_ne ha ..
  · have hxt : x ≠ q.tail := fun heq => hx (heq ▸ hq.tail_mem hne)
    exact (update_of_ne hxt ..).trans (update_of_ne ha ..)

end

lemma Held.remove (hq : Held k q (pre ++ a :: post)) :
    Held (remove k q a).1 (remove k q a).2 (pre ++ post) := by
  refine ⟨linked_unlink hq.linked, ?_⟩
  have hnext := hq.linked.next_eq
  have hprev := hq.linked.prev_eq
  unfold Links.remove
  cases post with
  | nil =>
    rw [if_pos (show (k a).next = 0 from hnext), hprev, append_nil]
  | cons b post =>
    have hb : b ≠ 0 := hq.ne_zero (by simp)
    have hne : (k a).next ≠ 0 := by
      rwa [hnext]
    rw [if_neg hne, hq.tail]
    simp [getLast?_append, getLast?_cons]

end Links

namespace Chain

/-- Take a node out of a chain with head `h`; `prev` is the node before it, or zero. -/
def cut (next : Nat → Nat) (h prev a : Nat) : (Nat → Nat) × Nat :=
  (update (if prev = 0 then next else update next prev (next a)) a 0,
    if prev = 0 then next a else h)

/-- Look for a node from `p` on and take it out, in so many hops. -/
def drop (a h : Nat) (next : Nat → Nat) : Nat → Nat → Nat → Option ((Nat → Nat) × Nat)
  | 0, _, p => if p = 0 then some (next, h) else none
  | hops + 1, prev, p =>
    if p = 0 then some (next, h)
    else if p = a then some (cut next h prev a)
    else drop a h next hops p (next p)

variable {a b : Nat} {l : List Nat}
variable (hc : Chain next h (pre ++ a :: post))

include hc in
lemma behind : Chain next (next a) post := by
  induction pre generalizing h with
  | nil =>
    obtain ⟨rfl, -, hc⟩ := hc
    exact hc
  | cons c pre ih =>
    obtain ⟨-, -, hc⟩ := hc
    exact ih hc

private lemma cut_behind (hc : Chain next h (pre ++ b :: a :: post)) :
    Chain (update (update next b (next a)) a 0) h (pre ++ b :: post) := by
  induction pre generalizing h with
  | nil =>
    obtain ⟨hb, hnodup⟩ := nodup_cons.mp hc.nodup
    obtain ⟨ha, -⟩ := nodup_cons.mp hnodup
    obtain ⟨rfl, hne, -, -, hc⟩ := hc
    have hba : h ≠ a := fun heq => hb (heq ▸ mem_cons_self)
    refine ⟨rfl, hne, ?_⟩
    rw [update_of_ne hba, update_self]
    apply hc.congr
    intro x hx
    have hxa : x ≠ a := fun heq => ha (heq ▸ hx)
    have hxb : x ≠ h := fun heq => hb (heq ▸ mem_cons_of_mem a hx)
    rw [update_of_ne hxa, update_of_ne hxb]
  | cons c pre ih =>
    obtain ⟨hoff, -⟩ := nodup_cons.mp hc.nodup
    obtain ⟨rfl, hne, hc⟩ := hc
    have hca : h ≠ a := fun heq => hoff (by simp [heq])
    have hcb : h ≠ b := fun heq => hoff (by simp [heq])
    refine ⟨rfl, hne, ?_⟩
    rw [update_of_ne hca, update_of_ne hcb]
    exact ih hc

section
include hc

/-- What is left of the chain when the node behind `pre` is taken out. -/
lemma cut_chain :
    Chain (cut next h (pre.getLast?.getD 0) a).1 (cut next h (pre.getLast?.getD 0) a).2
      (pre ++ post) := by
  unfold cut
  obtain rfl | ⟨pre, b, rfl⟩ := pre.eq_nil_or_concat'
  · obtain ⟨hoff, -⟩ := nodup_cons.mp hc.nodup
    obtain ⟨rfl, -, hc⟩ := hc
    apply hc.congr
    intro x hx
    exact update_of_ne (fun heq : x = h => hoff (heq ▸ hx)) ..
  · have hb : b ≠ 0 := hc.ne_zero (by simp)
    rw [append_assoc, singleton_append] at hc
    simp only [getLast?_concat, getD_some, if_neg hb, append_assoc, singleton_append]
    exact cut_behind hc

/-- Other nodes keep their successors. -/
lemma cut_other (hx : x ∉ pre ++ a :: post) :
    (cut next h (pre.getLast?.getD 0) a).1 x = next x := by
  have hxa : x ≠ a := fun heq => hx (by simp [heq])
  unfold cut
  dsimp only
  rw [update_of_ne hxa]
  split_ifs with hne
  · rfl
  · apply update_of_ne
    rintro rfl
    obtain rfl | ⟨pre, b, rfl⟩ := pre.eq_nil_or_concat'
    · exact hne rfl
    · exact hx (by simp)

end

/-- The node is taken out if the chain has it, and otherwise nothing is changed. -/
lemma drop_eq (pre : List Nat) (hc : Chain next h (pre ++ l)) (ha : a ∉ pre)
    (hdrop : drop a h next hops (pre.getLast?.getD 0) (l.head?.getD 0) = some r) :
    (a ∉ l ∧ r = (next, h)) ∨
      ∃ before after, pre ++ l = before ++ a :: after ∧
        r = cut next h (before.getLast?.getD 0) a := by
  induction hops generalizing pre l with
  | zero =>
    simp only [drop] at hdrop
    split at hdrop
    case isTrue h0 =>
      cases l with
      | nil => exact .inl ⟨not_mem_nil, (Option.some.inj hdrop).symm⟩
      | cons b l => exact absurd h0 (hc.ne_zero (by simp))
    · cases hdrop
  | succ hops ih =>
    simp only [drop] at hdrop
    cases l with
    | nil =>
      rw [head?_nil, getD_none, if_pos rfl] at hdrop
      exact .inl ⟨not_mem_nil, (Option.some.inj hdrop).symm⟩
    | cons b l =>
      have hb : b ≠ 0 := hc.ne_zero (by simp)
      rw [head?_cons, getD_some, if_neg hb] at hdrop
      split at hdrop
      case isTrue heq =>
        subst heq
        exact .inr ⟨pre, l, rfl, (Option.some.inj hdrop).symm⟩
      case isFalse hne =>
        have hnext : next b = l.head?.getD 0 := hc.behind.head_eq
        have hlast : b = (pre ++ [b]).getLast?.getD 0 := by simp
        rw [hnext] at hdrop
        nth_rewrite 1 [hlast] at hdrop
        have hwhole : pre ++ b :: l = pre ++ [b] ++ l := by simp
        rw [hwhole] at hc ⊢
        have hoff : a ∉ pre ++ [b] := by simp [ha, Ne.symm hne]
        obtain ⟨hl, hr⟩ | hfound := ih (pre ++ [b]) hc hoff hdrop
        · exact .inl ⟨by simp [hl, Ne.symm hne], hr⟩
        · exact .inr hfound

end Chain

end Singularity.Foundation
