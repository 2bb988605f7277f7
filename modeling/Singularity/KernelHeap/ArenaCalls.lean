import Singularity.KernelHeap.VmArena

/-!
# What one call does to the arena

`Shape` is what holds of the arena between two calls. `Granted` and `Released` say
once what a successful call does to the covered addresses; the lemmas of this module
show that the calls do so whenever no sum or page count is cut.
-/

namespace Singularity.KernelHeap

open Foundation List Word Span

/-- The part of the address space an arena is initialised with. -/
structure Placed (start limit : Nat) : Prop where
  aligned : pageSize ∣ start
  le : start ≤ limit
  limit_lt : limit < 2 ^ 64
  short : limit < start + 2 ^ 44

lemma placed_heap (random : Nat) : Placed (heapStart random) heapEnd := by
  have hmask : random &&& heapAslrMask = random % 2 ^ 24 := Nat.and_two_pow_sub_one_eq_mod _ 24
  have hoffset : getAslrOffset random = random % 2 ^ 24 / 2 ^ 12 * 2 ^ 12 := by
    rw [getAslrOffset, hmask]
    exact and_compl_two_pow (k := 12) (by omega) (by decide)
  have hstart : heapStart random = kheapStartVirtual + random % 2 ^ 24 / 2 ^ 12 * 2 ^ 12 := by
    rw [heapStart, hoffset]
    apply add_eq
    unfold kheapStartVirtual
    omega
  have hend : heapEnd = kheapStartVirtual + kheapMaxSize + heapAslrMask := by decide
  rw [hstart, hend]
  unfold kheapStartVirtual kheapMaxSize heapAslrMask
  refine ⟨?_, ?_, ?_, ?_⟩
  · unfold pageSize
    omega
  · omega
  · omega
  · omega

/-- What holds of the arena between two calls. -/
structure Shape (start limit : Nat) (a : VmArena) : Prop where
  limit_eq : a.limit = limit
  aligned : pageSize ∣ a.watermark
  start_le : start ≤ a.watermark
  watermark_le : a.watermark ≤ limit
  separated : Separated a.regions
  fits : Fits start a.watermark a.regions
  pageBases : ∀ r ∈ a.regions, pageSize ∣ r.base
  room : a.regions.length ≤ vmArenaMaxRegions

/-- An address that no range in use has. -/
def VmArena.Vacant (a : VmArena) (x : Nat) : Prop := Covered a.regions x ∨ a.watermark ≤ x

/-- The arena gave out the range of `pages` pages at `addr` and became `b`. -/
structure Granted (start limit : Nat) (a : VmArena) (addr pages : Nat) (b : VmArena) : Prop where
  shape : Shape start limit b
  pages_pos : 0 < pages
  aligned : pageSize ∣ addr
  start_le : start ≤ addr
  end_le : addr + pages * pageSize ≤ b.watermark
  watermark_le : a.watermark ≤ b.watermark
  fresh : ∀ x, Within (⟨addr, pages⟩ : VmRange) x →
    Covered a.regions x ∨ a.watermark ≤ x
  taken : ∀ x, Within (⟨addr, pages⟩ : VmRange) x → ¬ Covered b.regions x
  onlyFree : ∀ x, Covered b.regions x → Covered a.regions x ∨ a.watermark ≤ x

/-- The arena took the range back and became `b`. -/
structure Released (start limit : Nat) (a : VmArena) (base pages : Nat) (b : VmArena) : Prop where
  shape : Shape start limit b
  watermark_eq : b.watermark = a.watermark
  covered : ∀ x, Covered b.regions x ↔
    Within (⟨base, pages⟩ : VmRange) x ∨ Covered a.regions x

lemma Placed.shape_init (h : Placed start limit) :
    Shape start limit (VmArena.init start limit) where
  limit_eq := rfl
  aligned := h.aligned
  start_le := le_rfl
  watermark_le := h.le
  separated := separated_nil
  fits := by simp [Fits, VmArena.init]
  pageBases := by simp [VmArena.init]
  room := by simp [VmArena.init]

variable {regions : List VmRange}

lemma findIdx_split (h : regions.findIdx? p = some i) :
    ∃ pre r post, regions = pre ++ r :: post ∧ pre.length = i ∧ p r = true := by
  obtain ⟨hi, hp, -⟩ := findIdx?_eq_some_iff_getElem.mp h
  refine ⟨regions.take i, regions[i], regions.drop (i + 1), ?_, ?_, hp⟩
  · rw [getElem_cons_drop, take_append_drop]
  · exact length_take_of_le hi.le

section
variable {start limit pages ab base aligned : Nat} (hplace : Placed start limit) {a : VmArena}
  (h : Shape start limit a) {r : VmRange}

section
include h

/-- A range is cut out of one region, of which only the parts in `mid` stay. -/
lemma granted_of_splice (hregs : a.regions = pre ++ r :: post) (hpages : 0 < pages)
    (haligned : pageSize ∣ addr) (hlo : r.base ≤ addr)
    (hhi : addr + pages * pageSize ≤ r.base + r.pages * pageSize) (hmid : Separated mid)
    (hin : ∀ c ∈ mid, lo r ≤ lo c ∧ hi c ≤ hi r)
    (hbases : ∀ c ∈ mid, pageSize ∣ c.base)
    (hoff : ∀ c ∈ mid, hi c ≤ addr ∨ addr + pages * pageSize ≤ lo c)
    (hroom : (pre ++ (mid ++ post)).length ≤ vmArenaMaxRegions) :
    Granted start limit a addr pages { a with regions := pre ++ (mid ++ post) } := by
  have hsep := h.separated
  have hfits := h.fits
  have hpage := h.pageBases
  rw [hregs] at hsep hfits hpage
  obtain ⟨hrstart, hrend⟩ := hfits r (by simp)
  have hcov : ∀ x, Covered (pre ++ (mid ++ post)) x → Covered a.regions x := by
    rintro x ⟨c, hc, hx⟩
    rw [hregs]
    simp only [mem_append] at hc
    obtain hc | hc | hc := hc
    · exact ⟨c, by simp [hc], hx⟩
    · exact ⟨r, by simp, (hin c hc).1.trans hx.1, hx.2.trans_le (hin c hc).2⟩
    · exact ⟨c, by simp [hc], hx⟩
  have hsep' := hsep.splice hmid hin
  refine ⟨⟨h.limit_eq, h.aligned, h.start_le, h.watermark_le, hsep', ?_, ?_, hroom⟩, hpages,
    haligned, hrstart.trans hlo, hhi.trans hrend, le_rfl, ?_, ?_, ?_⟩
  · exact fits_of_covered h.fits hsep'.proper hcov
  · intro c hc
    simp only [mem_append] at hc
    obtain hc | hc | hc := hc
    · exact hpage c (by simp [hc])
    · exact hbases c hc
    · exact hpage c (by simp [hc])
  · intro x hx
    left
    rw [hregs]
    exact ⟨r, by simp, hlo.trans hx.1, hx.2.trans_le hhi⟩
  · rintro x hx ⟨c, hc, hcx⟩
    have hr : Within r x := ⟨hlo.trans hx.1, hx.2.trans_le hhi⟩
    have hrest := not_covered_of_removed hsep.ordered hr
    simp only [mem_append] at hc
    obtain hc | hc | hc := hc
    · exact hrest ⟨c, by simp [hc], hcx⟩
    · have hxlo : addr ≤ x := hx.1
      have hxhi : x < addr + pages * pageSize := hx.2
      have hclo := hcx.1
      have hchi := hcx.2
      obtain hside | hside := hoff c hc
      · omega
      · omega
    · exact hrest ⟨c, by simp [hc], hcx⟩
  · intro x hx
    exact .inl (hcov x hx)

/-- The range behind the watermark is given out; a gap before it may become a region. -/
lemma granted_of_watermark (hpages : 0 < pages)
    (haligned : pageSize ∣ aligned) (hge : a.watermark ≤ aligned)
    (hend : aligned + pages * pageSize ≤ limit) (hsep : Separated regions)
    (hcov : ∀ x, Covered regions x → Covered a.regions x ∨ a.watermark ≤ x ∧ x < aligned)
    (hbases : ∀ r ∈ regions, pageSize ∣ r.base) (hroom : regions.length ≤ vmArenaMaxRegions) :
    Granted start limit a aligned pages
      { a with regions := regions, watermark := aligned + pages * pageSize } := by
  have hbelow : ∀ x, Covered a.regions x → start ≤ x ∧ x < a.watermark := by
    rintro x ⟨r, hr, hx⟩
    obtain ⟨hlo, hhi⟩ := h.fits r hr
    exact ⟨hlo.trans hx.1, hx.2.trans_le hhi⟩
  have hstart := h.start_le
  have hin : ∀ x, Covered regions x → start ≤ x ∧ x < aligned := by
    intro x hx
    obtain hx | hx := hcov x hx
    · have := hbelow x hx
      omega
    · omega
  refine ⟨⟨h.limit_eq, ?_, ?_, hend, hsep, ?_, hbases, hroom⟩, hpages, haligned, ?_, le_rfl, ?_,
    ?_, ?_, ?_⟩
  · exact Nat.dvd_add haligned (Nat.dvd_mul_left _ _)
  · show start ≤ aligned + pages * pageSize
    omega
  · intro r hr
    have hprop := hsep.proper r hr
    have hfirst := hin (lo r) ⟨r, hr, le_rfl, hprop⟩
    have hlast := hin (hi r - 1) ⟨r, hr, by omega, by omega⟩
    simp only [lo_vmRange, hi_vmRange] at hprop hfirst hlast
    constructor
    · exact hfirst.1
    · show r.base + r.pages * pageSize ≤ aligned + pages * pageSize
      omega
  · omega
  · show a.watermark ≤ aligned + pages * pageSize
    omega
  · intro x hx
    exact .inr (hge.trans hx.1)
  · intro x hx hx'
    have hlo : aligned ≤ x := hx.1
    have := hin x hx'
    omega
  · intro x hx
    obtain hx | hx := hcov x hx
    · exact .inl hx
    · exact .inr hx.1

end

section
include hplace h

/-- A call of `alloc` either fails and changes nothing or grants the range at its result. -/
lemma alloc_granted (hpages : pages * pageSize < 2 ^ 64)
    (hnarrow : ∀ r ∈ a.regions, Word.low32 pages ≤ r.pages → pages < 2 ^ 32) :
    a.alloc pages = (0, a) ∨
      Granted start limit a (a.alloc pages).1 pages (a.alloc pages).2 := by
  unfold VmArena.alloc
  split_ifs with hpos
  · exact .inl rfl
  · split
    case h_1 i hfind =>
      obtain ⟨pre, r, post, hregs, rfl, hfit⟩ := findIdx_split hfind
      have hfit : Word.low32 pages ≤ r.pages := of_decide_eq_true hfit
      have hlow := low32_eq (hnarrow r (by simp [hregs]) hfit)
      obtain ⟨hlo, hhi⟩ := h.fits r (by simp [hregs])
      have hdvd : pageSize ∣ r.base := h.pageBases r (by simp [hregs])
      have hget : a.regions.getD pre.length default = r := by simp [hregs]
      have hlen := h.room
      have hwm := h.watermark_le
      have hlim := hplace.limit_lt
      rw [hregs] at hlen
      rw [hlow] at hfit
      have hmul : pages * pageSize ≤ r.pages * pageSize := Nat.mul_le_mul_right _ hfit
      right
      simp only [hget, hlow]
      split
      case isTrue heq =>
        have hrm : removeAt a.regions pre.length = pre ++ ([] ++ post) := by
          simp [removeAt, hregs, eraseIdx_append_of_length_le]
        rw [hrm]
        refine granted_of_splice h hregs (Nat.pos_of_ne_zero hpos) hdvd le_rfl (by omega)
          separated_nil (by simp) (by simp) (by simp) ?_
        simp only [nil_append, length_append, length_cons] at hlen ⊢
        omega
      case isFalse hne =>
        have hbase : Word.add r.base (Word.mul pages pageSize) = r.base + pages * pageSize := by
          rw [mul_eq hpages, add_eq (by omega)]
        have hset : a.regions.set pre.length
            ⟨r.base + pages * pageSize, r.pages - pages⟩ =
              pre ++ ([⟨r.base + pages * pageSize, r.pages - pages⟩] ++ post) := by
          simp [hregs]
        have hend : r.base + pages * pageSize + (r.pages - pages) * pageSize =
            r.base + r.pages * pageSize := by
          rw [Nat.sub_mul]
          omega
        rw [hbase, hset]
        refine granted_of_splice h hregs (Nat.pos_of_ne_zero hpos) hdvd le_rfl (by omega)
          ⟨?_, pairwise_singleton _ _⟩ ?_ ?_ ?_ ?_
        · simp only [mem_singleton, forall_eq, lo_vmRange, hi_vmRange, pageSize]
          omega
        · simp only [mem_singleton, forall_eq, lo_vmRange, hi_vmRange, hend]
          omega
        · simp only [mem_singleton, forall_eq]
          exact Nat.dvd_add hdvd (Nat.dvd_mul_left _ _)
        · simp only [mem_singleton, forall_eq, lo_vmRange]
          omega
        · simpa using hlen
    case h_2 hnone =>
      dsimp only
      split_ifs with hfits
      · exact .inl rfl
      · have hwm := h.watermark_le
        have hlim := hplace.limit_lt
        rw [h.limit_eq, mul_eq hpages] at hfits
        have htop : Word.add a.watermark (pages * pageSize) = a.watermark + pages * pageSize := by
          apply add_eq
          unfold Word.add at hfits
          omega
        rw [htop] at hfits
        rw [mul_eq hpages, htop]
        right
        exact granted_of_watermark h (Nat.pos_of_ne_zero hpos) h.aligned le_rfl (by omega)
          h.separated (fun x hx => .inl hx) h.pageBases h.room

/-- Apart from the range it grants, `alloc` keeps what is vacant. -/
lemma alloc_kept (hpages : pages * pageSize < 2 ^ 64)
    (hnarrow : ∀ r ∈ a.regions, Word.low32 pages ≤ r.pages → pages < 2 ^ 32) (hx : a.Vacant x) :
    Within (⟨(a.alloc pages).1, pages⟩ : VmRange) x ∨ (a.alloc pages).2.Vacant x := by
  unfold VmArena.alloc
  split
  · exact .inr hx
  case isFalse hpos =>
    split
    case h_1 i hfind =>
      obtain ⟨pre, r, post, hregs, rfl, hfit⟩ := findIdx_split hfind
      have hfit : Word.low32 pages ≤ r.pages := of_decide_eq_true hfit
      have hlow := low32_eq (hnarrow r (by simp [hregs]) hfit)
      have hget : a.regions.getD pre.length default = r := by simp [hregs]
      have hhi := (h.fits r (by simp [hregs])).2
      have hwm := h.watermark_le
      have hlim := hplace.limit_lt
      rw [hlow] at hfit
      have hmul : pages * pageSize ≤ r.pages * pageSize := Nat.mul_le_mul_right _ hfit
      simp only [hget, hlow]
      obtain ⟨c, hc, hcx⟩ | hx := hx
      · rw [hregs] at hc
        obtain hpre | hrest := mem_append.mp hc
        · right
          left
          refine ⟨c, ?_, hcx⟩
          split
          · simp [removeAt, hregs, eraseIdx_append_of_length_le, hpre]
          · simp [hregs, hpre]
        · obtain rfl | hpost := mem_cons.mp hrest
          · split
            case isTrue heq =>
              left
              rwa [← heq]
            case isFalse hne =>
              have hbase : Word.add c.base (Word.mul pages pageSize) =
                  c.base + pages * pageSize := by
                rw [mul_eq hpages, add_eq (by omega)]
              have hend : (c.pages - pages) * pageSize = c.pages * pageSize - pages * pageSize :=
                Nat.sub_mul _ _ _
              by_cases hlt : x < c.base + pages * pageSize
              · exact .inl ⟨hcx.1, hlt⟩
              right
              left
              refine ⟨⟨c.base + pages * pageSize, c.pages - pages⟩, by simp [hregs, hbase], ?_⟩
              simp only [within_vmRange] at hcx ⊢
              omega
          · right
            left
            refine ⟨c, ?_, hcx⟩
            split
            · simp [removeAt, hregs, eraseIdx_append_of_length_le, hpost]
            · simp [hregs, hpost]
      · exact .inr (.inr hx)
    case h_2 hfind =>
      simp only [mul_eq hpages]
      split
      · exact .inr hx
      case isFalse hfits =>
        obtain hx | hx := hx
        · exact .inr (.inl hx)
        have hwm := h.watermark_le
        have hlim := hplace.limit_lt
        have htop : Word.add a.watermark (pages * pageSize) = a.watermark + pages * pageSize := by
          apply add_eq
          by_contra hge
          have hwrap : Word.add a.watermark (pages * pageSize) < a.watermark := by
            unfold Word.add
            omega
          exact hfits (.inr hwrap)
        by_cases hlt : x < a.watermark + pages * pageSize
        · exact .inl ⟨hx, hlt⟩
        right
        right
        rw [htop]
        exact Nat.not_lt.mp hlt

end

lemma alignUp_eq_gap (hab : 0 < ab) (hlt : ab < 2 ^ 64) (hdvd : pageSize ∣ ab)
    (hend : r.base + ab ≤ 2 ^ 64) (hbase : pageSize ∣ r.base) :
    pageSize ∣ Word.alignUp r.base ab ∧
      Word.alignUp r.base ab = r.base + VmArena.gap ab r * pageSize := by
  obtain ⟨hle, hup⟩ := alignUp_bounds hab hend
  have hpage : pageSize ∣ Word.alignUp r.base ab :=
    two_pow_dvd_alignUp (k := 12) (by decide) hab hlt hdvd r.base
  have hsub : Word.sub (Word.alignUp r.base ab) r.base = Word.alignUp r.base ab - r.base :=
    sub_eq (by omega) hle
  refine ⟨hpage, ?_⟩
  rw [VmArena.gap, hsub, Nat.div_mul_cancel (Nat.dvd_sub hpage hbase)]
  omega

include hplace h in
lemma pages_lt_of_mem (hr : r ∈ a.regions) : r.pages < 2 ^ 32 := by
  obtain ⟨hlo, hhi⟩ := h.fits r hr
  have hwm := h.watermark_le
  have hshort := hplace.short
  unfold pageSize at hhi
  omega

/-- What `alloc_aligned` leaves of a region when nothing wraps around: some of the gap
before and the tail behind the aligned range, and never more than the array holds. -/
lemma carve_append (hord : Ordered (pre ++ r :: post)) (hpages : 0 < pages)
    (haligned : Word.alignUp r.base ab = r.base + VmArena.gap ab r * pageSize)
    (hrem : r.pages = VmArena.gap ab r + pages + rem) (hnarrow : r.pages < 2 ^ 32)
    (hend : r.base + r.pages * pageSize < 2 ^ 64)
    (hlen : (pre ++ r :: post).length ≤ vmArenaMaxRegions) :
    ∃ mid : List VmRange,
      VmArena.carve (pre ++ r :: post) pre.length pages ab = pre ++ (mid ++ post) ∧
        mid.Sublist [⟨r.base, VmArena.gap ab r⟩, ⟨Word.alignUp r.base ab + pages * pageSize, rem⟩] ∧
        (∀ c ∈ mid, 0 < c.pages) ∧ (pre ++ (mid ++ post)).length ≤ vmArenaMaxRegions := by
  have hget : (pre ++ r :: post).getD pre.length default = r := by simp
  have hset : ∀ c : VmRange, (pre ++ r :: post).set pre.length c = pre ++ c :: post := by simp
  have hsplit : r.pages * pageSize =
      VmArena.gap ab r * pageSize + pages * pageSize + rem * pageSize := by
    rw [hrem, Nat.add_mul, Nat.add_mul]
  have hadd : Word.add (VmArena.gap ab r) pages = VmArena.gap ab r + pages :=
    add_eq (by omega)
  have hneed : Word.low32 (VmArena.gap ab r + pages) = VmArena.gap ab r + pages :=
    low32_eq (by omega)
  have hgapLow : Word.low32 (VmArena.gap ab r) = VmArena.gap ab r := low32_eq (by omega)
  have hremEq : r.pages - (VmArena.gap ab r + pages) = rem := by omega
  have hremLow : Word.low32 rem = rem := low32_eq (by omega)
  have htail : Word.add (Word.alignUp r.base ab) (Word.mul pages pageSize) =
      Word.alignUp r.base ab + pages * pageSize := by
    rw [mul_eq (by omega), add_eq (by omega)]
  simp only [VmArena.carve, hget, hset, hadd, hneed, hgapLow, hremEq, hremLow, htail]
  simp only [length_append, length_cons] at hlen
  split
  case isTrue hgap =>
    split
    case isTrue hroom =>
      obtain ⟨-, hbehind, hbefore⟩ := pairwise_append.mp hord.apart
      have hr := hord.proper r (by simp)
      have hpre : ∀ c ∈ pre ++ [(⟨r.base, VmArena.gap ab r⟩ : VmRange)],
          c.base < Word.alignUp r.base ab + pages * pageSize := by
        intro c hc
        obtain hc | hc := mem_append.mp hc
        · have hle := hbefore c hc r mem_cons_self
          simp only [lo_vmRange, hi_vmRange, pageSize] at hle ⊢
          omega
        · rw [mem_singleton.mp hc]
          simp only [pageSize]
          omega
      have hpost : ∀ c ∈ post, Word.alignUp r.base ab + pages * pageSize ≤ c.base := by
        intro c hc
        have hle := (pairwise_cons.mp hbehind).1 c hc
        simp only [lo_vmRange, hi_vmRange] at hle
        omega
      have hidx := lowerBound_append hpre hpost
      have hins := insertAt_append (pre ++ [(⟨r.base, VmArena.gap ab r⟩ : VmRange)]) post
        (Word.alignUp r.base ab + pages * pageSize) rem
      simp only [append_assoc, singleton_append] at hidx hins
      have hlen' := hroom.2
      simp only [length_append, length_cons] at hlen'
      refine ⟨_, (by rw [hidx, hins]; rfl), List.Sublist.refl _, ?_, ?_⟩
      · simpa using ⟨hgap, hroom.1⟩
      · simp only [length_append, length_cons, length_nil]
        omega
    · refine ⟨[⟨r.base, VmArena.gap ab r⟩], rfl, by simp, by simpa using hgap, ?_⟩
      simpa using hlen
  case isFalse hgap =>
    split
    case isTrue h0 =>
      refine ⟨[], ?_, by simp, by simp, ?_⟩
      · simp [removeAt, eraseIdx_append_of_length_le]
      · simp only [nil_append, length_append]
        omega
    case isFalse h0 =>
      refine ⟨[⟨Word.alignUp r.base ab + pages * pageSize, rem⟩], rfl, by simp, ?_, ?_⟩
      · simpa using Nat.pos_of_ne_zero h0
      · simpa using hlen

include hplace h in
/-- The aligned range is cut out of the region. -/
lemma carve_granted (hregs : a.regions = pre ++ r :: post)
    (hpages : 0 < pages) (hab : 0 < ab) (hlt : ab < 2 ^ 64) (hdvd : pageSize ∣ ab)
    (hend : r.base + ab ≤ 2 ^ 64) (hneed : VmArena.gap ab r + pages ≤ r.pages) :
    Granted start limit a (Word.alignUp r.base ab) pages
      { a with regions := VmArena.carve a.regions pre.length pages ab } := by
  have hmem : r ∈ a.regions := by simp [hregs]
  obtain ⟨-, hhi⟩ := h.fits r hmem
  have hbase : pageSize ∣ r.base := h.pageBases r hmem
  have hwm := h.watermark_le
  have hlim := hplace.limit_lt
  obtain ⟨haligned, heq⟩ := alignUp_eq_gap hab hlt hdvd hend hbase
  obtain ⟨rem, hrem⟩ := Nat.exists_eq_add_of_le hneed
  have hsplit : r.pages * pageSize =
      VmArena.gap ab r * pageSize + pages * pageSize + rem * pageSize := by
    rw [hrem, Nat.add_mul, Nat.add_mul]
  have hord : Ordered (pre ++ r :: post) := hregs ▸ h.separated.ordered
  obtain ⟨mid, hcarve, hsub, hpos, hroom⟩ := carve_append hord hpages heq hrem
    (pages_lt_of_mem hplace h hmem) (by omega) (hregs ▸ h.room)
  have hparts : ∀ c ∈ mid, c = ⟨r.base, VmArena.gap ab r⟩ ∨
      c = ⟨Word.alignUp r.base ab + pages * pageSize, rem⟩ := by
    intro c hc
    simpa using hsub.subset hc
  have hsep : Separated mid := by
    refine ⟨fun c hc => ?_, List.Pairwise.sublist hsub ?_⟩
    · have := hpos c hc
      simp only [lo_vmRange, hi_vmRange, pageSize]
      omega
    · simp only [pairwise_pair, lo_vmRange, hi_vmRange, pageSize]
      unfold pageSize at heq
      omega
  rw [hregs, hcarve]
  refine granted_of_splice h hregs hpages haligned (by omega) (by omega) hsep ?_ ?_ ?_ hroom
  · intro c hc
    obtain rfl | rfl := hparts c hc
    · simp only [lo_vmRange, hi_vmRange]
      omega
    · simp only [lo_vmRange, hi_vmRange]
      omega
  · intro c hc
    obtain rfl | rfl := hparts c hc
    · exact hbase
    · exact Nat.dvd_add haligned (Nat.dvd_mul_left _ _)
  · intro c hc
    obtain rfl | rfl := hparts c hc
    · simp only [hi_vmRange]
      omega
    · simp only [lo_vmRange]
      omega

lemma pageBases_of_covered {l : List VmRange} (hsep : Separated l)
    (hcov : ∀ x, Covered l x ↔ Within (⟨base, pages⟩ : VmRange) x ∨
      Covered regions x)
    (hbase : pageSize ∣ base) (hbases : ∀ r ∈ regions, pageSize ∣ r.base) :
    ∀ r ∈ l, pageSize ∣ r.base := by
  intro r hr
  obtain ⟨c, hc, heq⟩ := hsep.exists_lo_eq
    (fun x => (hcov x).trans (covered_cons ⟨base, pages⟩ regions x).symm) hr
  simp only [lo_vmRange] at heq
  rw [← heq]
  obtain rfl | hc := mem_cons.mp hc
  · exact hbase
  · exact hbases c hc

include hplace h

/-- The gap before an aligned range behind the watermark becomes a free region. -/
lemma keepGap_spec (hge : a.watermark ≤ aligned) (hle : aligned ≤ limit)
    (hdvd : pageSize ∣ aligned) :
    Separated (a.keepGap aligned) ∧
      (∀ x, Covered (a.keepGap aligned) x →
        Covered a.regions x ∨ a.watermark ≤ x ∧ x < aligned) ∧
      (∀ r ∈ a.keepGap aligned, pageSize ∣ r.base) ∧
      (a.keepGap aligned).length ≤ vmArenaMaxRegions := by
  unfold VmArena.keepGap
  split_ifs with hkeep
  · have hlim := hplace.limit_lt
    have hshort := hplace.short
    have hstart := h.start_le
    obtain ⟨n, hn⟩ := Nat.dvd_sub hdvd h.aligned
    have hsub : Word.sub aligned a.watermark = n * pageSize := by
      rw [sub_eq (by omega) hge, hn, Nat.mul_comm]
    have hnlt : n < 2 ^ 32 := by
      unfold pageSize at hn
      omega
    have hnpos : 0 < n := by
      unfold pageSize at hn
      omega
    have hpages : Word.low32 (Word.sub aligned a.watermark / pageSize) = n := by
      rw [hsub, Nat.mul_div_cancel n (by decide), low32_eq hnlt]
    have hend : a.watermark + n * pageSize = aligned := by
      rw [Nat.mul_comm]
      omega
    have hfits : Fits start aligned a.regions := fun r hr =>
      ⟨(h.fits r hr).1, (h.fits r hr).2.trans hge⟩
    have hfree : ∀ x, Within (⟨a.watermark, n⟩ : VmRange) x → ¬ Covered a.regions x := by
      rintro x hx ⟨r, hr, hrx⟩
      have hlo : a.watermark ≤ x := hx.1
      have hhi := (h.fits r hr).2
      have hlt : x < r.base + r.pages * pageSize := hrx.2
      omega
    obtain ⟨hsep, hcov, hlen⟩ := coalesceAround_insertAt (by omega) (by omega) h.separated hfits
      hnpos hstart hend.le hfree
    simp only [hpages]
    refine ⟨hsep, ?_, ?_, ?_⟩
    · intro x hx
      obtain hx | hx := (hcov x).mp hx
      · exact .inr ⟨hx.1, hend ▸ hx.2⟩
      · exact .inl hx
    · exact pageBases_of_covered hsep hcov h.aligned h.pageBases
    · exact hlen.trans hkeep.2
  · exact ⟨h.separated, fun x hx => .inl hx, h.pageBases, h.room⟩

/-- A call of `alloc_aligned` fails and changes nothing or grants the range at its result. -/
lemma allocAligned_granted (hwrap : a.watermark + (alignPages + pages) * pageSize ≤ 2 ^ 64)
    (hnarrow : ∀ r ∈ a.regions,
      Word.low32 (Word.add (VmArena.gap (Word.mul alignPages pageSize) r) pages) ≤ r.pages →
      VmArena.gap (Word.mul alignPages pageSize) r + pages < 2 ^ 32) :
    a.allocAligned pages alignPages = (0, a) ∨
      Granted start limit a (a.allocAligned pages alignPages).1 pages
        (a.allocAligned pages alignPages).2 := by
  unfold VmArena.allocAligned
  split_ifs with hpos
  · exact .inl rfl
  · obtain ⟨hpages, halign⟩ : 0 < pages ∧ 0 < alignPages := by omega
    rw [Nat.add_mul] at hwrap
    have hpagesPos : 0 < pages * pageSize := Nat.mul_pos hpages (by decide)
    have hab : Word.mul alignPages pageSize = alignPages * pageSize := mul_eq (by omega)
    have habPos : 0 < alignPages * pageSize := Nat.mul_pos halign (by decide)
    have hdvd : pageSize ∣ alignPages * pageSize := Nat.dvd_mul_left _ _
    simp only [hab] at hnarrow ⊢
    split
    case h_1 i hfind =>
      obtain ⟨pre, r, post, hregs, rfl, hfit⟩ := findIdx_split hfind
      have hfit := of_decide_eq_true hfit
      have hmem : r ∈ a.regions := by simp [hregs]
      have hlt := hnarrow r hmem hfit
      rw [add_eq (by omega), low32_eq hlt] at hfit
      have hget : a.regions.getD pre.length default = r := by simp [hregs]
      have hhi := (h.fits r hmem).2
      right
      simp only [hget]
      exact carve_granted hplace h hregs hpages habPos (by omega) hdvd (by omega) hfit
    · have hwm := h.watermark_le
      obtain ⟨hle, hup⟩ := alignUp_bounds (x := a.watermark) habPos (by omega)
      have hpage : pageSize ∣ Word.alignUp a.watermark (alignPages * pageSize) :=
        two_pow_dvd_alignUp (k := 12) (by decide) habPos (by omega) hdvd a.watermark
      have htop : Word.add (Word.alignUp a.watermark (alignPages * pageSize))
          (Word.mul pages pageSize) =
            Word.alignUp a.watermark (alignPages * pageSize) + pages * pageSize := by
        rw [mul_eq (by omega), add_eq (by omega)]
      simp only [htop]
      split_ifs with hfits
      · exact .inl rfl
      · rw [h.limit_eq] at hfits
        obtain ⟨hsep, hcov, hbases, hroom⟩ := keepGap_spec hplace h hle (by omega) hpage
        right
        exact granted_of_watermark h hpages hpage hle (by omega) hsep hcov hbases hroom

/-- The forced coalescing does nothing, so the insertion of `free` writes behind a full array. -/
lemma free_eq (hbase : base ≠ 0) (hpages : 0 < pages) (hnarrow : pages < 2 ^ 32) :
    a.free base pages =
      if a.regions.length < vmArenaMaxRegions then
        some ⟨coalesceAround (insertAt a.regions (lowerBound a.regions base) base pages)
          (lowerBound a.regions base), a.watermark, a.limit⟩
      else none := by
  have hwm := h.watermark_le
  have hlim := hplace.limit_lt
  have hshort := hplace.short
  have hforced := coalesceAround_last (by omega) (by omega) h.separated h.fits
  have hpg : ¬ 0xFFFFFFFF < pages := by omega
  have harg : ¬ (base = 0 ∨ pages = 0) := by omega
  simp only [VmArena.free, hforced, ite_self, if_neg hpg, if_neg harg]

lemma free_released (hbase : base ≠ 0) (hstart : start ≤ base) (hpages : 0 < pages)
    (hend : base + pages * pageSize ≤ a.watermark) (hdvd : pageSize ∣ base)
    (hfree : ∀ x, Within (⟨base, pages⟩ : VmRange) x → ¬ Covered a.regions x)
    (hroom : a.regions.length < vmArenaMaxRegions) :
    ∃ b, a.free base pages = some b ∧ Released start limit a base pages b := by
  have hwm := h.watermark_le
  have hlim := hplace.limit_lt
  have hshort := hplace.short
  have hnarrow : pages < 2 ^ 32 := by
    unfold pageSize at hend
    omega
  obtain ⟨hsep, hcov, hlen⟩ := coalesceAround_insertAt (by omega) (by omega) h.separated h.fits
    hpages hstart hend hfree
  have hfits : Fits start a.watermark (⟨base, pages⟩ :: a.regions) := by
    intro r hr
    obtain rfl | hr := mem_cons.mp hr
    · exact ⟨hstart, hend⟩
    · exact h.fits r hr
  refine ⟨_, (free_eq hplace h hbase hpages hnarrow).trans (if_pos hroom),
    ⟨h.limit_eq, h.aligned, h.start_le, hwm, hsep, ?_, ?_, hlen.trans hroom⟩, rfl, hcov⟩
  · apply fits_of_covered hfits hsep.proper
    intro x hx
    exact (covered_cons _ _ x).mpr ((hcov x).mp hx)
  · exact pageBases_of_covered hsep hcov hdvd h.pageBases

/-- Giving back what `alloc` granted leaves the vacant addresses as they were. -/
lemma vacant_free_alloc (hpages : pages < 2 ^ 32) (halloc : a.alloc pages = (virt, b))
    (hgr : Granted start limit a virt pages b) (hne : virt ≠ 0)
    (hroom : b.regions.length < vmArenaMaxRegions) (hfree : b.free virt pages = some c) (x : Nat) :
    c.Vacant x ↔ a.Vacant x := by
  obtain ⟨c', hc', hrel⟩ := free_released hplace hgr.shape hne hgr.start_le hgr.pages_pos
    hgr.end_le hgr.aligned hgr.taken hroom
  obtain rfl : c' = c := Option.some.inj (hc'.symm.trans hfree)
  have hkept := alloc_kept hplace h (x := x) (by unfold pageSize; omega) (fun _ _ _ => hpages)
  rw [halloc] at hkept
  unfold VmArena.Vacant at *
  rw [hrel.covered, hrel.watermark_eq]
  constructor
  · rintro ((hin | hcov) | hwm)
    · exact hgr.fresh x hin
    · exact hgr.onlyFree x hcov
    · exact .inr (hgr.watermark_le.trans hwm)
  · intro hx
    obtain hin | hcov | hwm := hkept hx
    · exact .inl (.inl hin)
    · exact .inl (.inr hcov)
    · exact .inr hwm

end

lemma length_mergeAt_le (regions : List VmRange) (idx : Nat) :
    (mergeAt regions idx).length ≤ regions.length := by
  unfold mergeAt
  dsimp only
  split
  · exact (length_eraseIdx_le _ _).trans (length_set).le
  · exact le_rfl

lemma length_coalesceAround_le (regions : List VmRange) (idx : Nat) :
    (coalesceAround regions idx).length ≤ regions.length := by
  have hfirst : (if idx + 1 < regions.length then mergeAt regions idx else regions).length ≤
      regions.length := by
    split
    · exact length_mergeAt_le regions idx
    · exact le_rfl
  unfold coalesceAround
  dsimp only
  split
  · exact (length_mergeAt_le _ _).trans hfirst
  · exact hfirst

lemma length_insertAt_le (regions : List VmRange) (idx base pages : Nat) :
    (insertAt regions idx base pages).length ≤ regions.length + 1 := by
  rw [insertAt, length_insertIdx]
  split
  · exact le_rfl
  · exact Nat.le_succ _

lemma length_alloc_le (a : VmArena) (pages : Nat) :
    (a.alloc pages).2.regions.length ≤ a.regions.length := by
  unfold VmArena.alloc
  split
  · exact le_rfl
  split
  · dsimp only
    split
    · exact length_eraseIdx_le _ _
    · exact (length_set).le
  · dsimp only
    split
    · exact le_rfl
    · exact le_rfl

/-- First fit finds a region of exactly this length. -/
def VmArena.ExactFit (a : VmArena) (pages : Nat) : Prop :=
  (a.regions.findIdx? fun r => decide (pages ≤ r.pages)).map
    (fun i => (a.regions.getD i default).pages) = some pages

/-- After a request the array has room if it had room before or a region was used up. -/
lemma length_alloc_lt_iff {a : VmArena} {pages : Nat} (hlen : a.regions.length ≤ vmArenaMaxRegions)
    (hpos : 0 < pages) (hpages : pages < 2 ^ 32) :
    (a.alloc pages).2.regions.length < vmArenaMaxRegions ↔
      a.regions.length < vmArenaMaxRegions ∨ a.ExactFit pages := by
  have hlow := low32_eq hpages
  cases hfind : a.regions.findIdx? fun r => decide (pages ≤ r.pages) with
  | some i =>
    obtain ⟨pre, r, post, hregs, rfl, -⟩ := findIdx_split hfind
    have hget : a.regions.getD pre.length default = r := by simp [hregs]
    have hexact : a.ExactFit pages ↔ r.pages = pages := by
      simp only [VmArena.ExactFit, hfind, Option.map_some, hget, Option.some.injEq]
    rw [hexact]
    simp only [VmArena.alloc, hlow, hfind, if_neg hpos.ne', hget]
    rw [hregs] at hlen ⊢
    by_cases heq : r.pages = pages
    · have hshort : (removeAt (pre ++ r :: post) pre.length).length < vmArenaMaxRegions := by
        simp only [removeAt, eraseIdx_append_of_length_le (le_refl pre.length),
          length_append, length_cons, Nat.sub_self, eraseIdx_cons_zero] at hlen ⊢
        omega
      simp [heq, hshort]
    · simp [heq]
  | none =>
    have hexact : ¬ a.ExactFit pages := by
      simp [VmArena.ExactFit, hfind]
    simp only [VmArena.alloc, hlow, hfind, if_neg hpos.ne', hexact, or_false]
    split
    · rfl
    · rfl

lemma length_allocAligned_le (a : VmArena) (pages alignPages : Nat) :
    (a.allocAligned pages alignPages).2.regions.length ≤ a.regions.length + 1 := by
  have hcarve : ∀ i ab, (VmArena.carve a.regions i pages ab).length ≤ a.regions.length + 1 := by
    intro i ab
    unfold VmArena.carve
    dsimp only
    split
    · split
      · exact (length_insertAt_le _ _ _ _).trans_eq (congrArg (· + 1) (length_set))
      · exact (length_set).le.trans (Nat.le_succ _)
    · split
      · exact (length_eraseIdx_le _ _).trans (Nat.le_succ _)
      · exact (length_set).le.trans (Nat.le_succ _)
  have hkeep : ∀ aligned, (a.keepGap aligned).length ≤ a.regions.length + 1 := by
    intro aligned
    unfold VmArena.keepGap
    split
    · exact (length_coalesceAround_le _ _).trans (length_insertAt_le _ _ _ _)
    · exact Nat.le_succ _
  unfold VmArena.allocAligned
  split
  · exact Nat.le_succ _
  dsimp only
  split
  · exact hcarve _ _
  · split
    · exact Nat.le_succ _
    · exact hkeep _

end Singularity.KernelHeap
