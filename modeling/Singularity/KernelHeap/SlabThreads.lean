import Singularity.KernelHeap.SlabInvariant

/-!
# Threads on a slab cache

Each section of `alloc`, `free` and `trim` holds the lock of the cache and is one step. Between
the two sections of an `alloc` that found no slab, `createSlab` runs without the lock and is a
step of its own. The arena answers it with null or with a range that is aligned to the size of a
slab and not part of another slab; `ArenaRuns` says when it takes slabs back. Users write only to
live objects and outside the slabs.
-/

namespace Singularity.KernelHeap

open Foundation Function SlabCache

/-- Where a thread is in `alloc`. -/
inductive AllocPhase where
  | idle
  | creating
  | created (ns : Nat)
  deriving DecidableEq

/-- A cache with the threads that use it; `held` are the slab ranges it has from the
arena and `live` the objects given out. -/
structure CacheState (τ : Type) where
  mem : Mem
  cache : SlabCache
  phase : τ → AllocPhase
  held : List Nat
  live : List Nat

inductive CacheOp (τ : Type) where
  | alloc (t : τ)
  | create (t : τ) (page : Nat)
  | finish (t : τ)
  | free (ptr : Nat)
  | trim
  | write (a : Nat) (b : UInt8)

/-- A slab range the arena may give out. -/
def FreshSlab (objSize : Nat) (held : List Nat) (page : Nat) : Prop :=
  page ≠ 0 ∧ slabBytes objSize ∣ page ∧ page + slabBytes objSize < 2 ^ 64 ∧ page ∉ held

instance (objSize : Nat) (held : List Nat) (page : Nat) : Decidable (FreshSlab objSize held page) :=
  inferInstanceAs (Decidable (_ ∧ _))

variable {τ : Type}

namespace CacheState

variable [DecidableEq τ]

def init (size : Nat) : CacheState τ := ⟨fun _ => 0, SlabCache.init size, fun _ => .idle, [], []⟩

/-- A byte that is not the cache's own. -/
def Writable (s : CacheState τ) (a : Nat) : Prop :=
  (∃ o ∈ s.live, o ≤ a ∧ a < o + s.cache.objSize) ∨
    ∀ p ∈ s.held, a < p ∨ p + slabBytes s.cache.objSize ≤ a

instance (s : CacheState τ) (a : Nat) : Decidable (s.Writable a) :=
  inferInstanceAs (Decidable (_ ∨ _))

/-- The caller of `alloc` keeps a non-null object. -/
def receive (s : CacheState τ) (o : Nat) (c : SlabCache) : CacheState τ :=
  { s with cache := c, live := if o = 0 then s.live else o :: s.live }

def setPhase (s : CacheState τ) (t : τ) (p : AllocPhase) : CacheState τ :=
  { s with phase := update s.phase t p }

/-- One step; no result if the step is not possible in this state. -/
def exec (s : CacheState τ) : CacheOp τ → Option (Except SlabFault (CacheState τ))
  | .alloc t =>
    if s.phase t = .idle then
      some ((SlabCache.allocCached s.mem s.cache).map fun
        | some (o, c) => s.receive o c
        | none => s.setPhase t .creating)
    else none
  | .create t page =>
    if s.phase t = .creating then
      if page = 0 then some (.ok (s.setPhase t (.created 0)))
      else if FreshSlab s.cache.objSize s.held page then
        let r := SlabCache.createSlab s.mem s.cache page
        some (.ok ({ s with mem := r.1, cache := r.2, held := page :: s.held }.setPhase t
          (.created page)))
      else none
    else none
  | .finish t =>
    match s.phase t with
    | .created ns =>
      let held :=
        if ns ≠ 0 ∧ s.cache.head .partly ≠ 0 then s.held.filter fun x => x ≠ ns else s.held
      some ((SlabCache.allocCreated s.mem s.cache ns).map fun r =>
        ({ s with held }.receive r.1 r.2).setPhase t .idle)
    | _ => none
  | .free ptr =>
    if ptr ∈ s.live then
      let r := SlabCache.free s.mem s.cache ptr
      some (.ok { s with mem := r.2.1, cache := r.2.2, live := s.live.erase ptr })
    else none
  | .trim =>
    let r := s.cache.trim s.held
    some (.ok { s with cache := r.1, held := r.2 })
  | .write a b =>
    if s.Writable a then some (.ok { s with mem := s.mem.fill a 1 b }) else none

/-- A slab between `createSlab` and the second section of its thread. -/
def Loose (phase : τ → AllocPhase) (x : Nat) : Prop := x ≠ 0 ∧ ∃ t, phase t = .created x

/-- The invariant of cache and threads. -/
structure Inv (s : CacheState τ) : Prop where
  geometry : Geometry s.cache.objSize
  cache : ∃ L, CacheInv s.mem s.cache s.held s.live (Loose s.phase) L
  owner : ∀ t t' ns, ns ≠ 0 → s.phase t = .created ns → s.phase t' = .created ns → t = t'

end CacheState

variable {t : τ}

section
variable [DecidableEq τ] {phase : τ → AllocPhase} {p : AllocPhase}

lemma loose_update_of_null (hold : ∀ x, phase t = .created x → x = 0)
    (hnew : ∀ x, p = .created x → x = 0) :
    CacheState.Loose (update phase t p) = CacheState.Loose phase := by
  funext x
  apply propext
  constructor
  · rintro ⟨hx, u, hu⟩
    rw [update_apply] at hu
    split_ifs at hu
    · exact absurd (hnew x hu) hx
    · exact ⟨hx, u, hu⟩
  · rintro ⟨hx, u, hu⟩
    have hut : u ≠ t := by
      rintro rfl
      exact hx (hold x hu)
    exact ⟨hx, u, by rwa [update_of_ne hut]⟩

lemma loose_update_created (hpage : page ≠ 0) (hold : ∀ x, phase t = .created x → x = 0) :
    CacheState.Loose (update phase t (.created page)) =
      fun x => CacheState.Loose phase x ∨ x = page := by
  funext x
  apply propext
  constructor
  · rintro ⟨hx, u, hu⟩
    rw [update_apply] at hu
    split_ifs at hu
    · exact .inr (AllocPhase.created.inj hu).symm
    · exact .inl ⟨hx, u, hu⟩
  · rintro (⟨hx, u, hu⟩ | rfl)
    · have hut : u ≠ t := by
        rintro rfl
        exact hx (hold x hu)
      exact ⟨hx, u, by rwa [update_of_ne hut]⟩
    · exact ⟨hpage, t, update_self _ _ _⟩

lemma loose_update_idle (hns : ns ≠ 0) (ht : phase t = .created ns)
    (howner : ∀ u, phase u = .created ns → u = t) :
    CacheState.Loose (update phase t .idle) =
      fun x => CacheState.Loose phase x ∧ x ≠ ns := by
  funext x
  apply propext
  constructor
  · rintro ⟨hx, u, hu⟩
    have hut : u ≠ t := by
      rintro rfl
      rw [update_self] at hu
      cases hu
    rw [update_of_ne hut] at hu
    refine ⟨⟨hx, u, hu⟩, ?_⟩
    rintro rfl
    exact hut (howner u hu)
  · rintro ⟨⟨hx, u, hu⟩, hne⟩
    have hut : u ≠ t := by
      rintro rfl
      rw [ht] at hu
      exact hne (AllocPhase.created.inj hu).symm
    exact ⟨hx, u, by rwa [update_of_ne hut]⟩

lemma owner_update
    (howner : ∀ u u' ns, ns ≠ 0 → phase u = .created ns → phase u' = .created ns → u = u')
    (hp : ∀ ns, ns ≠ 0 → p = .created ns → ∀ u, u ≠ t → phase u ≠ .created ns) :
    ∀ u u' ns, ns ≠ 0 → update phase t p u = .created ns →
      update phase t p u' = .created ns → u = u' := by
  intro u u' ns hns hu hu'
  rw [update_apply] at hu
  split_ifs at hu with hut
  · subst hut
    by_contra hne
    rw [update_of_ne (Ne.symm hne)] at hu'
    exact hp ns hns hu u' (Ne.symm hne) hu'
  · by_cases hut' : u' = t
    · subst hut'
      rw [update_self] at hu'
      exact absurd hu (hp ns hns hu' u hut)
    · rw [update_of_ne hut'] at hu'
      exact howner u u' ns hns hu hu'

end

namespace CacheState

variable [DecidableEq τ] {s : CacheState τ}
omit [DecidableEq τ] in
lemma inv_init (hsize : size ∈ bucketSizes) : (CacheState.init size : CacheState τ).Inv := by
  have hloose : Loose (CacheState.init size : CacheState τ).phase = fun _ => False := by
    funext x
    simp [Loose, init]
  refine ⟨geometry_bucket hsize, ⟨fun _ => [], ?_⟩, by simp [init]⟩
  rw [hloose]
  exact cacheInv_init _ size

variable (h : s.Inv)
include h

omit [DecidableEq τ] in
lemma Inv.geometry_of {c : SlabCache} (hsize : c.objSize = s.cache.objSize) :
    Geometry c.objSize := by
  rw [hsize]
  exact h.geometry

omit [DecidableEq τ] in
lemma Inv.receive_taken {o : Nat} {c : SlabCache}
    (htaken : Taken s.mem s.cache s.held s.live (Loose s.phase) o c) : (s.receive o c).Inv := by
  obtain ⟨L, hI⟩ := htaken.inv
  have hlive : (s.receive o c).live = o :: s.live := if_neg htaken.ne_zero
  refine ⟨h.geometry_of htaken.objSize, ⟨L, ?_⟩, h.owner⟩
  rwa [hlive]

variable {r : Except SlabFault (CacheState τ)}

lemma Inv.alloc (hexec : s.exec (.alloc t) = some r) : ∃ s', r = .ok s' ∧ s'.Inv := by
  obtain ⟨L, hI⟩ := h.cache
  obtain ⟨hidle, ⟨⟩⟩ := then_of_ite hexec
  obtain hnone | ⟨o, c, hsome, htaken⟩ := allocCached_taken h.geometry hI
  · rw [hnone]
    refine ⟨_, rfl, h.geometry, ⟨L, ?_⟩, owner_update h.owner (by simp)⟩
    have hloose : Loose (update s.phase t .creating) = Loose s.phase :=
      loose_update_of_null (by simp [hidle]) (by simp)
    show CacheInv s.mem s.cache s.held s.live (Loose (update s.phase t .creating)) L
    rwa [hloose]
  · rw [hsome]
    exact ⟨_, rfl, h.receive_taken htaken⟩

lemma Inv.create {page : Nat} (hexec : s.exec (.create t page) = some r) :
    ∃ s', r = .ok s' ∧ s'.Inv := by
  obtain ⟨L, hI⟩ := h.cache
  obtain ⟨hcreating, hexec⟩ := then_of_ite hexec
  have hold : ∀ x, s.phase t = .created x → x = 0 := by simp [hcreating]
  split at hexec
  case isTrue hnull =>
    cases hexec
    refine ⟨_, rfl, h.geometry, ⟨L, ?_⟩, owner_update h.owner ?_⟩
    · have hloose : Loose (update s.phase t (.created 0)) = Loose s.phase :=
        loose_update_of_null hold (by simp)
      show CacheInv s.mem s.cache s.held s.live
        (Loose (update s.phase t (.created 0))) L
      rwa [hloose]
    · intro ns hns heq
      exact absurd (AllocPhase.created.inj heq).symm hns
  case isFalse hne =>
    obtain ⟨hfresh, hexec⟩ := then_of_ite hexec
    obtain ⟨-, hdvd, hend, hnew⟩ := hfresh
    obtain ⟨hsize, -, hinv'⟩ := createSlab_ok h.geometry hdvd hend hI hne hnew
    obtain ⟨m, c, hcreate⟩ : ∃ m c, createSlab s.mem s.cache page = (m, c) :=
      ⟨_, _, rfl⟩
    simp only [hcreate] at hexec hsize hinv'
    cases hexec
    refine ⟨_, rfl, h.geometry_of hsize, ⟨L, ?_⟩, owner_update h.owner ?_⟩
    · have hloose := loose_update_created hne hold
      show CacheInv m c (page :: s.held) s.live
        (Loose (update s.phase t (.created page))) L
      rwa [hloose]
    · intro ns hns heq u hu hphase
      rw [AllocPhase.created.inj heq] at hnew
      exact hnew ((hI.held_iff ns).mpr (.inr ⟨hns, u, hphase⟩))

lemma Inv.finish (hexec : s.exec (.finish t) = some r) : ∃ s', r = .ok s' ∧ s'.Inv := by
  obtain ⟨L, hI⟩ := h.cache
  simp only [exec] at hexec
  split at hexec <;> cases hexec
  case h_1 ns hphase =>
    have howner : ∀ u u' ns, ns ≠ 0 → update s.phase t .idle u = .created ns →
        update s.phase t .idle u' = .created ns → u = u' :=
      owner_update h.owner (by simp)
    by_cases hns : ns = 0
    · subst hns
      have hloose : Loose (update s.phase t .idle) = Loose s.phase :=
        loose_update_of_null (by simp [hphase]) (by simp)
      have hnull : allocCreated s.mem s.cache 0 = .ok (0, s.cache) := if_pos rfl
      rw [hnull, if_neg (fun hno => hno.1 rfl)]
      refine ⟨_, rfl, h.geometry, ⟨L, ?_⟩, howner⟩
      show CacheInv s.mem s.cache s.held s.live (Loose (update s.phase t .idle)) L
      rwa [hloose]
    · obtain ⟨o, c, hcreated, htaken⟩ := allocCreated_taken h.geometry hI ⟨hns, t, hphase⟩
      obtain ⟨L', hinv'⟩ := htaken.inv
      have hloose := loose_update_idle hns hphase fun u hu => h.owner u t ns hns hu hphase
      rw [hcreated]
      refine ⟨_, rfl, h.geometry_of htaken.objSize, ⟨L', ?_⟩, howner⟩
      show CacheInv s.mem c
        (if ns ≠ 0 ∧ s.cache.head .partly ≠ 0 then s.held.filter fun x => x ≠ ns else s.held)
        (if o = 0 then s.live else o :: s.live) (Loose (update s.phase t .idle)) L'
      rw [hloose, if_neg htaken.ne_zero]
      simpa only [hns, ne_eq, not_false_eq_true, true_and] using hinv'

lemma Inv.free {ptr : Nat} (hexec : s.exec (.free ptr) = some r) : ∃ s', r = .ok s' ∧ s'.Inv := by
  obtain ⟨L, hI⟩ := h.cache
  obtain ⟨hlive, hexec⟩ := then_of_ite hexec
  obtain ⟨c, L', hfree, hsize, hinv'⟩ := free_ok h.geometry hI hlive
  rw [hfree] at hexec
  cases hexec
  exact ⟨_, rfl, h.geometry_of hsize, ⟨L', hinv'⟩, h.owner⟩

lemma Inv.trim (hexec : s.exec .trim = some r) : ∃ s', r = .ok s' ∧ s'.Inv := by
  obtain ⟨L, hI⟩ := h.cache
  obtain ⟨hsize, hinv'⟩ := trim_ok hI
  obtain ⟨c, held, htrim⟩ : ∃ c held, s.cache.trim s.held = (c, held) := ⟨_, _, rfl⟩
  rw [htrim] at hsize hinv'
  simp only [exec, htrim, Option.some.injEq] at hexec
  subst hexec
  exact ⟨_, rfl, h.geometry_of hsize, ⟨_, hinv'⟩, h.owner⟩

/-- A user's write touches no free object. -/
lemma Inv.write (hexec : s.exec (.write a b) = some r) : ∃ s', r = .ok s' ∧ s'.Inv := by
  obtain ⟨L, hI⟩ := h.cache
  obtain ⟨hwritable, ⟨⟩⟩ := then_of_ite hexec
  refine ⟨_, rfl, h.geometry, ⟨L, ?_, hI.counted⟩, h.owner⟩
  apply hI.toCacheBase.congr_mem h.geometry
  intro p hp o ho hfree x hlo hhi
  apply Mem.sameOutside_fill
  have hlarge := h.geometry.large
  obtain ⟨hbegin, hend⟩ := object_bounds ho
  obtain ⟨o', hlive, hlo', hhi'⟩ | hout := hwritable
  · have hne : o ≠ o' := by
      rintro rfl
      exact hfree hlive
    have hapart := objects_apart (hI.placed p hp).2.1
      (hI.placed _ (hI.live_held o' hlive)).2.1 ho (hI.live_object hlive) hne
    omega
  · have := hout p hp
    omega

/-- Every possible step succeeds and keeps the invariant. -/
lemma Inv.exec_ok (hexec : s.exec op = some r) : ∃ s', r = .ok s' ∧ s'.Inv := by
  cases op with
  | alloc t => exact h.alloc hexec
  | create t page => exact h.create hexec
  | finish t => exact h.finish hexec
  | free ptr => exact h.free hexec
  | trim => exact h.trim hexec
  | write a b => exact h.write hexec

omit h in
lemma inv_of_run (hsize : size ∈ bucketSizes)
    (hrun : Run (fun s op t => s.exec op = some (.ok t)) (CacheState.init size) ops s) : s.Inv := by
  apply hrun.invariant (I := Inv) _ (inv_init hsize)
  intro s op t h hexec
  obtain ⟨s', heq, h'⟩ := h.exec_ok hexec
  cases heq
  exact h'

end CacheState

/-- Two threads miss at the same time, the second new slab is given back, and one of the two
objects is freed. -/
def racingOps : List (CacheOp Bool) :=
  [.alloc true, .alloc false, .create true 0x10000, .create false 0x20000, .finish true,
    .finish false, .write 0x10030 7, .free 0x10030]

lemma allocCached_eq_none {m : Mem} {c : SlabCache} :
    allocCached m c = .ok none ↔ c.head .partly = 0 ∧ c.head .empty = 0 := by
  have hmap : ∀ x : Except SlabFault (Nat × SlabCache), x.map some ≠ .ok none := by
    rintro (_ | _) ⟨⟩
  unfold allocCached
  split_ifs with hpartly hempty
  · simp [hmap, hpartly]
  · simp [hmap, hempty]
  · simp_all

/-- The objects of a slab are all in use if the count says so. -/
lemma SlabOk.full_iff {m : Mem} {objSize x : Nat} {live l : List Nat} {b : Slab}
    (hok : SlabOk m objSize live x b l) (hg : Geometry objSize) (hx : slabBytes objSize ∣ x) :
    (∀ o ∈ KernelHeap.objects objSize x, o ∈ live) ↔ b.usedCount = objectCount objSize := by
  have hlen := hok.length_add
  constructor
  · intro hall
    have hnil : l = [] := List.eq_nil_iff_forall_not_mem.mpr fun o ho =>
      hok.not_live hg hx ho (hall o (hok.mem_objects ho))
    simpa [hnil] using hlen
  · intro hused o ho
    have hnil : l = [] := List.eq_nil_of_length_eq_zero (by omega)
    have hmem := hok.objects.symm.subset ho
    rw [hnil, List.nil_append] at hmem
    exact List.mem_of_mem_filter hmem

/-- A new slab is asked for exactly if every object of every slab of the cache is in use;
slabs that a thread has created and not yet linked do not count. -/
theorem slab_created_iff_full {τ : Type} [DecidableEq τ] {size : Nat} (hsize : size ∈ bucketSizes)
    {ops : List (CacheOp τ)} {s : CacheState τ}
    (hrun : Run (fun s op t => s.exec op = some (.ok t)) (CacheState.init size) ops s) :
    allocCached s.mem s.cache = .ok none ↔ ∀ x ∈ s.held, (∀ t, s.phase t ≠ .created x) →
      ∀ o ∈ objects s.cache.objSize x, o ∈ s.live := by
  have hI := CacheState.inv_of_run hsize hrun
  obtain ⟨L, hcache⟩ := hI.cache
  have hfull : ∀ x ∈ s.held, (∀ o ∈ objects s.cache.objSize x, o ∈ s.live) ↔
      (s.cache.slabs x).usedCount = objectCount s.cache.objSize := by
    intro x hx
    obtain ⟨l, hok⟩ := hcache.slab x hx
    exact hok.full_iff hI.geometry (hcache.placed x hx).2.1
  rw [allocCached_eq_none]
  constructor
  · rintro ⟨hpartly, hempty⟩ x hx hphase
    have hloose : ¬ CacheState.Loose s.phase x := fun ⟨_, t, ht⟩ => hphase t ht
    obtain ⟨i, hi⟩ := ((hcache.held_iff x).mp hx).resolve_right hloose
    cases i with
    | partly => simp [(hcache.listed.linked .partly).eq_nil hpartly] at hi
    | empty => simp [(hcache.listed.linked .empty).eq_nil hempty] at hi
    | full => exact (hfull x hx).mpr (hcache.counted .full x hi)
  · intro hall
    -- a slab at the head of a list has the count of that list, and here also the full count
    have hused : ∀ i, s.cache.head i ≠ 0 → InList (objectCount s.cache.objSize) i
        (objectCount s.cache.objSize) := by
      intro i hne
      obtain ⟨rest, hrest⟩ := (hcache.listed.linked i).eq_cons hne
      have hmem : s.cache.head i ∈ L i := by simp [hrest]
      have hheld := (hcache.held_iff _).mpr (.inl ⟨i, hmem⟩)
      have hlive := hall _ hheld fun t ht => hcache.loose_off _ i ⟨hne, t, ht⟩ hmem
      exact (hfull _ hheld).mp hlive ▸ hcache.counted i _ hmem
    constructor
    · by_contra hne
      exact lt_irrefl _ (hused .partly hne).2
    · by_contra hne
      exact hI.geometry.count_pos.ne' (hused .empty hne)

theorem slab_created_iff_full_racing :
    ∃ s : CacheState Bool, Run (fun s op t => s.exec op = some (.ok t)) (CacheState.init 2048)
        racingOps s ∧ allocCached s.mem s.cache ≠ .ok none := by
  refine Run.exists_of_exec (f := fun s op => (CacheState.exec s op).bind Except.toOption)
    (P := fun s => s.held = [0x10000] ∧ s.live = [0x10850] ∧ s.phase true = .idle ∧
      s.phase false = .idle ∧ 0x10030 ∈ objects s.cache.objSize 0x10000) (fun s op t h => ?_)
    (by decide +kernel) ?_
  · obtain ⟨r, hr, ht⟩ := Option.bind_eq_some_iff.mp h
    rw [hr, ok_of_toOption ht]
  rintro s hrun ⟨hheld, hlive, htrue, hfalse, hobj⟩ hnone
  have hall := (slab_created_iff_full (by decide) hrun).mp hnone 0x10000 (by simp [hheld])
    (by simp [htrue, hfalse]) 0x10030 hobj
  simp [hlive] at hall

end Singularity.KernelHeap
