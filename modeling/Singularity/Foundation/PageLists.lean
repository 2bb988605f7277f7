import Mathlib.Data.List.GetD
import Mathlib.Data.List.Range
import Mathlib.Tactic.Common

/-!
# Linked lists of pages

A transfer can be described by a list of pages in list pages of `links + 1` slots. A reader who
knows the number of entries takes the last slot as a link to the next list page if more entries
remain than the page has slots. `layout` is what a writer leaves who puts `links` entries into
each list page and links a page only when a further entry follows.
-/

namespace Singularity.Foundation

open List Nat

/-- The sizes of pages and list pages. -/
structure PageFormat where
  page : Nat
  links : Nat
  page_pos : 0 < page
  links_large : 1 < links

namespace PageFormat

variable (f : PageFormat) {n : Nat}

/-- The addresses of `n` bytes that fill the given pages in order. -/
def scatter : List Nat → Nat → List Nat
  | [], _ => []
  | e :: es, n => List.range' e (min n f.page) ++ scatter es (n - f.page)

/-- The number of pages for `n` bytes. -/
def pagesFor (n : Nat) : Nat := (n + f.page - 1) / f.page

/-- The first `n` slots of a list page. -/
def row (slot : Nat → Nat → Nat) (list n : Nat) : List Nat := (List.range n).map (slot list)

/-- A reader takes `n` entries from the list pages. -/
def entries (slot : Nat → Nat → Nat) (list n : Nat) : List Nat :=
  if f.links + 1 < n then
    row slot list f.links ++ entries slot (slot list f.links) (n - f.links)
  else row slot list n
termination_by n
decreasing_by
  have := f.links_large
  omega

/-- Slot `i` of list page `q`, where the list pages lie in a row from `base` on. -/
def layout (base : Nat) (es : List Nat) (q i : Nat) : Nat :=
  if i < f.links then es.getD (q * f.links + i) 0
  else if (q + 1) * f.links < es.length then base + (q + 1) * f.page
  else 0

section
variable {f}

/-- Whole pages need no further page. -/
lemma pagesFor_mul (k : Nat) : f.pagesFor (k * f.page) = k := by
  have hpage := f.page_pos
  rw [pagesFor, Nat.add_sub_assoc hpage, Nat.mul_comm, Nat.mul_add_div hpage,
    div_eq_of_lt (by omega), Nat.add_zero]

variable {e : Nat}

/-- More bytes than fit into `k` pages need a further page. -/
lemma lt_pagesFor (h : k * f.page < n) : k < f.pagesFor n := by
  have hpage := f.page_pos
  rw [pagesFor, lt_iff_add_one_le, le_div_iff_mul_le hpage, succ_mul]
  omega

lemma scatter_cons_of_le (es : List Nat) (h : f.page ≤ n) :
    f.scatter (e :: es) n = List.range' e f.page ++ f.scatter es (n - f.page) := by
  rw [scatter, min_eq_right h]

/-- The first address is the first page's. -/
lemma head?_scatter_cons (es : List Nat) (h : 0 < n) : (f.scatter (e :: es) n).head? = some e := by
  have hpage := f.page_pos
  obtain ⟨k, hk⟩ : ∃ k, min n f.page = k + 1 := ⟨min n f.page - 1, by omega⟩
  rw [scatter, hk, range'_succ]
  rfl

/-- Full pages are those of spans of one page each. -/
lemma scatter_eq_flatMap (es : List Nat) :
    f.scatter es (es.length * f.page) = es.flatMap fun e => List.range' e f.page := by
  induction es with
  | nil => rfl
  | cons e es ih =>
    have hlen : (e :: es).length * f.page = es.length * f.page + f.page := by
      rw [length_cons, succ_mul]
    rw [hlen, scatter_cons_of_le es (Nat.le_add_left ..), Nat.add_sub_cancel, ih, flatMap_cons]

/-- Full pages determine where they start. -/
lemma flatMap_range'_injective {es es' : List Nat}
    (h : (es.flatMap fun e => List.range' e f.page) = es'.flatMap fun e => List.range' e f.page) :
    es = es' := by
  have hpage := f.page_pos
  obtain ⟨k, hk⟩ : ∃ k, f.page = k + 1 := ⟨f.page - 1, by omega⟩
  induction es generalizing es' with
  | nil =>
    cases es' with
    | nil => rfl
    | cons e' es' => simp [hk, range'_succ] at h
  | cons e es ih =>
    cases es' with
    | nil => simp [hk, range'_succ] at h
    | cons e' es' =>
      rw [flatMap_cons, flatMap_cons] at h
      obtain ⟨hhead, htail⟩ := append_inj h (by simp)
      rw [hk, range'_succ, range'_succ, List.cons.injEq] at hhead
      rw [hhead.1, ih htail]

/-- If every span is at least a page long, and as many pages as there are spans come before a
page at address 0, then the spans are the pages only if nothing is carried over and each span is
one page. -/
lemma no_carry (spans : List (Nat × Nat)) (carry : List Nat) (hlong : ∀ s ∈ spans, f.page ≤ s.2)
    (hpos : ∀ a ∈ carry, 0 < a)
    (hlen : (carry ++ spans.flatMap fun s => List.range' s.1 s.2).length ≤ n)
    (h : carry ++ (spans.flatMap fun s => List.range' s.1 s.2) =
      f.scatter (spans.map Prod.fst ++ 0 :: more) n) : carry = [] ∧ ∀ s ∈ spans, s.2 = f.page := by
  -- a carried byte shifts all later spans: each page's start is then a carried byte itself, so no
  -- span behind the carry starts at 0, and the page at 0 is read in the end
  induction spans generalizing carry n with
  | nil =>
    rw [flatMap_nil, append_nil] at h hlen
    cases carry with
    | nil => exact ⟨rfl, nofun⟩
    | cons a carry =>
      have hn : 0 < n := lt_of_lt_of_le (by simp) hlen
      have hhead := congrArg List.head? h
      rw [map_nil, nil_append, head?_scatter_cons more hn, head?_cons, Option.some.injEq] at hhead
      exact absurd (hpos a mem_cons_self) (by omega)
  | cons s spans ih =>
    have hs := hlong s mem_cons_self
    have hrest : ∀ t ∈ spans, f.page ≤ t.2 := fun t ht => hlong t (mem_cons_of_mem _ ht)
    have hpage := f.page_pos
    rw [flatMap_cons] at h hlen
    have hn : f.page ≤ n := by
      simp only [length_append, length_range'] at hlen
      omega
    rw [map_cons, cons_append, scatter_cons_of_le _ hn] at h
    -- what is left of the carry and this span behind one page is carried on
    have hcut : f.page ≤ (carry ++ range' s.1 s.2).length := by
      rw [length_append, length_range']
      omega
    have hsplit : carry ++ (range' s.1 s.2 ++ spans.flatMap fun s => range' s.1 s.2) =
        (carry ++ range' s.1 s.2).take f.page ++
          ((carry ++ range' s.1 s.2).drop f.page ++ spans.flatMap fun s => range' s.1 s.2) := by
      rw [← append_assoc, ← append_assoc, take_append_drop]
    rw [hsplit] at h hlen
    obtain ⟨hfirst, hnext⟩ := append_inj h (by
      rw [length_take, length_range', min_eq_left hcut])
    have hstart : carry ≠ [] → 0 < s.1 := by
      intro hne
      obtain ⟨a, carry, rfl⟩ := exists_cons_of_ne_nil hne
      obtain ⟨k, hk⟩ : ∃ k, f.page = k + 1 := ⟨f.page - 1, by omega⟩
      rw [hk, cons_append, take_succ_cons, range'_succ, List.cons.injEq] at hfirst
      rw [← hfirst.1]
      exact hpos a mem_cons_self
    have hcarry : ∀ a ∈ (carry ++ range' s.1 s.2).drop f.page, 0 < a := by
      intro a ha
      by_cases hne : carry = []
      · subst hne
        rw [nil_append, drop_range', mem_range'_1] at ha
        omega
      · obtain hin | hin := mem_append.mp (mem_of_mem_drop ha)
        · exact hpos a hin
        · have := hstart hne
          rw [mem_range'_1] at hin
          omega
    obtain ⟨hnone, hpages⟩ := ih _ hrest hcarry (by
      rw [length_append, length_take, min_eq_left hcut] at hlen
      omega) hnext
    rw [drop_eq_nil_iff, length_append, length_range'] at hnone
    have hempty : carry.length = 0 := by omega
    refine ⟨length_eq_zero_iff.mp hempty, ?_⟩
    rintro t (_ | ⟨_, ht⟩)
    · omega
    · exact hpages t ht

end

section
variable {f} {base pages q : Nat} {es : List Nat} {slot : Nat → Nat → Nat}

lemma layout_entry (hi : i < f.links) :
    f.layout base es q i = es.getD (q * f.links + i) 0 := if_pos hi

lemma layout_link (base : Nat) (es : List Nat) (q : Nat) :
    f.layout base es q f.links =
      if (q + 1) * f.links < es.length then base + (q + 1) * f.page else 0 :=
  if_neg (lt_irrefl _)

/-- The empty layout is all zero. -/
lemma layout_nil (base q i : Nat) : f.layout base [] q i = 0 := by
  unfold layout
  split <;> simp

/-- A further entry changes its own slot, and the link to its page if it is the first there. -/
lemma layout_append (base : Nat) (es : List Nat) (e q i : Nat) (hi : i ≤ f.links) :
    f.layout base (es ++ [e]) q i =
      if q * f.links + i = es.length ∧ i < f.links then e
      else if (q + 1) * f.links = es.length ∧ i = f.links then base + (q + 1) * f.page
      else f.layout base es q i := by
  by_cases hlink : i < f.links
  · rw [layout_entry hlink, layout_entry hlink]
    by_cases hlast : q * f.links + i = es.length
    · rw [if_pos ⟨hlast, hlink⟩, hlast]
      simp
    rw [if_neg (fun h => hlast h.1), if_neg (fun h => by omega), getD_eq_getElem?_getD,
      getD_eq_getElem?_getD]
    obtain hlt | hgt := lt_or_gt_of_ne hlast
    · rw [getElem?_append_left hlt]
    · rw [getElem?_eq_none (by simp; omega), getElem?_eq_none (by omega)]
  · have hi' : i = f.links := by omega
    subst hi'
    have hcond : ¬(q * f.links + f.links = es.length ∧ f.links < f.links) := fun h => hlink h.2
    rw [layout_link, layout_link, if_neg hcond, length_append, length_singleton]
    by_cases hfull : (q + 1) * f.links = es.length
    · have hnew : (q + 1) * f.links = es.length ∧ f.links = f.links := ⟨hfull, rfl⟩
      rw [if_pos hnew, if_pos (lt_succ_of_le (le_of_eq hfull))]
    have hold : ¬((q + 1) * f.links = es.length ∧ f.links = f.links) := fun h => hfull h.1
    rw [if_neg hold]
    refine if_congr ?_ rfl rfl
    generalize (q + 1) * f.links = k at hfull ⊢
    omega

/-- The list pages hold the layout of the entries. -/
def Holds (f : PageFormat) (slot : Nat → Nat → Nat) (base : Nat) (es : List Nat)
    (pages : Nat) : Prop :=
  ∀ q i, q < pages → i ≤ f.links → slot (base + q * f.page) i = f.layout base es q i

/-- Slots in front of the link are the entries of the page, and zeros behind the last entry. -/
lemma Holds.row_eq (hholds : f.Holds slot base es pages) (hq : q < pages) (hn : n ≤ f.links) :
    row slot (base + q * f.page) n =
      (List.range n).map fun i => (es.drop (q * f.links)).getD i 0 := by
  apply map_congr_left
  intro i hi
  have hi' : i < n := mem_range.mp hi
  rw [hholds q i hq (by omega), layout_entry (by omega), getD_eq_getElem?_getD,
    getD_eq_getElem?_getD, getElem?_drop]

lemma map_getD_range (l : List Nat) (n : Nat) (h : n ≤ l.length) :
    ((List.range n).map fun i => l.getD i 0) = l.take n := by
  apply ext_getElem
  · simp [h]
  · intro i h1 h2
    simp only [getElem_map, getElem_range, getElem_take]
    exact getD_eq_getElem _ _ _

lemma map_getD_range_of_lt (l : List Nat) (n : Nat) (h : l.length < n) :
    ∃ more, ((List.range n).map fun i => l.getD i 0) = l ++ 0 :: more := by
  induction l generalizing n with
  | nil =>
    obtain ⟨m, rfl⟩ : ∃ m, n = m + 1 := ⟨n - 1, by simp at h; omega⟩
    exact ⟨_, by rw [range_succ_eq_map, map_cons]; rfl⟩
  | cons a l ih =>
    obtain ⟨m, rfl⟩ : ∃ m, n = m + 1 := ⟨n - 1, by simp at h; omega⟩
    obtain ⟨more, hmore⟩ := ih m (by simpa using h)
    refine ⟨more, ?_⟩
    rw [range_succ_eq_map, map_cons, map_map, cons_append, ← hmore]
    rfl

lemma length_row (slot : Nat → Nat → Nat) (list n : Nat) : (row slot list n).length = n := by
  rw [row, length_map, length_range]

lemma length_entries (slot : Nat → Nat → Nat) (list n : Nat) :
    (f.entries slot list n).length = n := by
  induction n using Nat.strong_induction_on generalizing list with
  | _ n ih =>
    have hlinks := f.links_large
    rw [entries]
    split_ifs with hlong
    · rw [length_append, length_row, ih (n - f.links) (by omega)]
      omega
    · exact length_row ..

/-- The entries start with the slots of the first list page. -/
lemma row_prefix_entries (slot : Nat → Nat → Nat) (list n : Nat) :
    ∃ rest, f.entries slot list n = row slot list (min n f.links) ++ rest := by
  rw [entries]
  split_ifs with hlong
  · rw [min_eq_right (by omega)]
    exact ⟨_, rfl⟩
  · refine ⟨(row slot list n).drop (min n f.links), ?_⟩
    have htake : row slot list (min n f.links) = (row slot list n).take (min n f.links) := by
      rw [row, row, ← map_take, take_range, min_eq_left (min_le_left ..)]
    rw [htake, take_append_drop]

lemma entries_head (slot : Nat → Nat → Nat) (list : Nat) (hn : 0 < n) :
    ∃ rest, f.entries slot list n = slot list 0 :: rest := by
  have hlinks := f.links_large
  obtain ⟨rest, hrest⟩ := row_prefix_entries (f := f) slot list n
  obtain ⟨m, hm⟩ : ∃ m, min n f.links = m + 1 := ⟨min n f.links - 1, by omega⟩
  rw [hrest, hm, row, range_succ_eq_map, map_cons]
  exact ⟨_, rfl⟩

variable (hholds : f.Holds slot base es pages)
include hholds

variable (hpages : es.length ≤ pages * f.links) {j : Nat}
include hpages

lemma Holds.entries_drop
    (hlone : ¬(f.links < es.length ∧ es.length % f.links = 1)) (hq : q * f.links < es.length) :
    f.entries slot (base + q * f.page) (es.length - q * f.links) = es.drop (q * f.links) := by
  induction hn : es.length - q * f.links using Nat.strong_induction_on generalizing q with
  | _ n ih =>
    have hlinks := f.links_large
    have hpage : q < pages := Nat.lt_of_mul_lt_mul_right (a := f.links) (by omega)
    have hsucc : (q + 1) * f.links = q * f.links + f.links := succ_mul ..
    have hlength : (es.drop (q * f.links)).length = n := by rw [length_drop, hn]
    rw [entries]
    split
    case isTrue hlong =>
      rw [hholds.row_eq hpage (le_refl _), map_getD_range _ _ (by omega),
        hholds q f.links hpage (le_refl _), layout_link, if_pos (by omega),
        ih (n - f.links) (by omega) (by omega) (by omega), hsucc, ← drop_drop,
        take_append_drop]
    case isFalse hshort =>
      have hfits : n ≤ f.links := by
        by_contra hfull
        apply hlone
        have hlen : es.length = 1 + f.links * (q + 1) := by
          rw [Nat.mul_comm, hsucc]
          omega
        refine ⟨by omega, ?_⟩
        rw [hlen, add_mul_mod_self_left, mod_eq_of_lt hlinks]
      rw [hholds.row_eq hpage hfits, map_getD_range _ _ (by omega),
        take_of_length_le (by omega)]

lemma Holds.getLast?_entries_drop (hlen : es.length = (j + 1) * f.links + 1) (hq : q ≤ j) :
    (f.entries slot (base + q * f.page) (es.length - q * f.links)).getLast? =
      some (base + (j + 1) * f.page) := by
  induction hd : j - q generalizing q with
  | zero =>
    have hqj : q = j := by omega
    subst hqj
    have hlinks := f.links_large
    have hsucc : (q + 1) * f.links = q * f.links + f.links := succ_mul ..
    have hpage : q < pages := Nat.lt_of_mul_lt_mul_right (a := f.links) (by omega)
    have hn : es.length - q * f.links = f.links + 1 := by omega
    rw [hn, entries, if_neg (lt_irrefl _), row, range_succ, map_append,
      map_singleton, getLast?_concat, hholds q f.links hpage (le_refl _),
      layout_link, if_pos (by omega)]
  | succ d ih =>
    have hlinks := f.links_large
    have hsucc : (q + 1) * f.links = q * f.links + f.links := succ_mul ..
    have hmore := mul_le_mul_right f.links (show q + 2 ≤ j + 1 by omega)
    have htwo : (q + 2) * f.links = q * f.links + f.links + f.links := by
      rw [succ_mul, hsucc]
    have hpage : q < pages := Nat.lt_of_mul_lt_mul_right (a := f.links) (by omega)
    have hnext : es.length - q * f.links - f.links = es.length - (q + 1) * f.links := by omega
    rw [entries, if_pos (by omega), hholds q f.links hpage (le_refl _), layout_link,
      if_pos (by omega), hnext, getLast?_append, ih (by omega) (by omega)]
    rfl

omit hpages in
lemma Holds.overread_drop (hpages : es.length < pages * f.links) (h0 : slot 0 0 = 0)
    (hq : q * f.links ≤ es.length) (hn : es.length - q * f.links < n) :
    ∃ more, f.entries slot (base + q * f.page) n = es.drop (q * f.links) ++ 0 :: more := by
  induction hk : es.length - q * f.links using Nat.strong_induction_on generalizing q n with
  | _ k ih =>
    have hlinks := f.links_large
    have hpage : q < pages := Nat.lt_of_mul_lt_mul_right (a := f.links) (by omega)
    have hsucc : (q + 1) * f.links = q * f.links + f.links := succ_mul ..
    have hlength : (es.drop (q * f.links)).length = k := by rw [length_drop, hk]
    by_cases hpart : k < f.links
    · -- the zero is still on this list page
      obtain ⟨rest, hrest⟩ := row_prefix_entries (f := f) slot (base + q * f.page) n
      obtain ⟨more, hmore⟩ := map_getD_range_of_lt (es.drop (q * f.links)) (min n f.links)
        (by omega)
      rw [hrest, hholds.row_eq hpage (min_le_right ..), hmore, append_assoc]
      exact ⟨_, rfl⟩
    · have hrow : row slot (base + q * f.page) f.links =
          (es.drop (q * f.links)).take f.links := by
        rw [hholds.row_eq hpage (le_refl _), map_getD_range _ _ (by omega)]
      have hlink := hholds q f.links hpage (le_refl _)
      rw [layout_link] at hlink
      by_cases hlast : (q + 1) * f.links < es.length
      · rw [if_pos hlast] at hlink
        obtain ⟨more, hmore⟩ := ih (es.length - (q + 1) * f.links) (by omega)
          (le_of_lt hlast) (show _ < n - f.links by omega) rfl
        rw [entries, if_pos (by omega), hlink, hmore, hrow, hsucc, ← drop_drop,
          ← append_assoc, take_append_drop]
        exact ⟨_, rfl⟩
      · -- the page is full and has no link
        rw [if_neg hlast] at hlink
        have hall : (es.drop (q * f.links)).take f.links = es.drop (q * f.links) :=
          take_of_length_le (by omega)
        rw [entries]
        split
        case isTrue hlong =>
          obtain ⟨rest, hrest⟩ := entries_head (f := f) slot 0 (show 0 < n - f.links by omega)
          rw [hlink, hrest, h0, hrow, hall]
          exact ⟨_, rfl⟩
        case isFalse hshort =>
          have hn' : n = f.links + 1 := by omega
          have hrow' : row slot (base + q * f.page) (f.links + 1) =
              row slot (base + q * f.page) f.links ++ [slot (base + q * f.page) f.links] := by
            rw [row, range_succ, map_append]
            rfl
          rw [hn', hrow', hrow, hall, hlink]
          exact ⟨_, rfl⟩

/-- A reader of as many entries as were written gets them, unless the last of them would be alone
on its list page. -/
lemma Holds.entries_eq (hlone : ¬(f.links < es.length ∧ es.length % f.links = 1)) (hes : es ≠ []) :
    f.entries slot base es.length = es := by
  have h := hholds.entries_drop hpages hlone (q := 0)
    (by rw [Nat.zero_mul]; exact length_pos_of_ne_nil hes)
  simpa only [Nat.zero_mul, Nat.add_zero, Nat.sub_zero, drop_zero] using h

/-- Where the last entry is alone on its list page, the reader takes the link for it. -/
lemma Holds.getLast?_entries (hlen : es.length = (j + 1) * f.links + 1) :
    (f.entries slot base es.length).getLast? = some (base + (j + 1) * f.page) := by
  have h := hholds.getLast?_entries_drop hpages hlen (Nat.zero_le j)
  simpa only [Nat.zero_mul, Nat.add_zero, Nat.sub_zero] using h

omit hpages in
/-- A reader of more entries than were written finds a page at address 0 behind them, if the list
page at address 0 starts with a zero. -/
lemma Holds.entries_overread (hpages : es.length < pages * f.links) (h0 : slot 0 0 = 0)
    (hn : es.length < n) : ∃ more, f.entries slot base n = es ++ 0 :: more := by
  have h := hholds.overread_drop hpages h0 (q := 0) (by rw [Nat.zero_mul]; exact Nat.zero_le _)
    (by rwa [Nat.zero_mul, Nat.sub_zero])
  simpa only [Nat.zero_mul, Nat.add_zero, Nat.sub_zero, drop_zero] using h

end

end PageFormat

end Singularity.Foundation
