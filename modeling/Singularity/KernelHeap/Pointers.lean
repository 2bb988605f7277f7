import Singularity.KernelHeap.AlignedBlocks

/-!
# The pointers of the heap

Blocks of slabs and blocks with pages of their own start at multiples of 16. The address
of a sampled block is rounded to a multiple of 8 only. A block of a slab that was freed
is recognised when it is freed once more, as long as its object is not given out again.
-/

namespace Singularity.KernelHeap

open Foundation List

section
variable {start limit p size : Nat} {h h' : Heap} {slabs : List (Nat × Nat)} {objs : Nat → List Nat}
  {large : List VmRange} {supply : Option (Nat → Nat)}

lemma dvd_alloc (hs : Shape start limit a) (pages : Nat) : pageSize ∣ (a.alloc pages).1 := by
  unfold VmArena.alloc
  split
  · exact Nat.dvd_zero _
  · split
    case h_1 i hfind =>
      obtain ⟨pre, r, post, hregs, rfl, -⟩ := findIdx_split hfind
      have hget : a.regions.getD pre.length default = r := by simp [hregs]
      rw [hget]
      exact hs.pageBases r (by simp [hregs])
    · dsimp only
      split
      · exact Nat.dvd_zero _
      · exact hs.aligned

lemma vmmAlloc_aligned (hs : Shape start limit h.arena)
    (hok : h.vmmAlloc pages supply = .ok (p, h')) : 16 ∣ p := by
  have hpage : 16 ∣ (h.arena.alloc pages).1 :=
    (by decide : 16 ∣ pageSize).trans (dvd_alloc hs pages)
  cases supply with
  | none =>
    rw [vmmAlloc_none hok]
    exact Nat.dvd_zero _
  | some frames =>
    simp only [Heap.vmmAlloc, Heap.mapRange] at hok
    split at hok
    all_goals cases hok
    · exact Nat.dvd_zero _
    · exact hpage

lemma HeapLayout.slabAlloc_aligned (hplace : Placed start limit) (hstart : 0 < start)
    (htop : limit + 4 * pageSize ≤ 2 ^ 64) (hl : HeapLayout start limit h slabs objs large)
    (hi : i < numBuckets) (hok : h.slabAlloc i supply = .ok (p, h')) : 16 ∣ p := by
  by_cases hp : p = 0
  · rw [hp]
    exact Nat.dvd_zero _
  obtain ⟨frames, hok⟩ : ∃ frames, h.slabAlloc i (some frames) = .ok (p, h') := by
    cases supply with
    | none => exact ⟨fun _ => 0, slabAlloc_supply hok hp _⟩
    | some frames => exact ⟨frames, hok⟩
  have hroom : some frames = none → h.arena.regions.length + 1 < vmArenaMaxRegions := nofun
  obtain ⟨arena, hnull, -⟩ | ⟨o, h1, slabs', hobj, hg⟩ := hl.slabAlloc hplace hstart htop hi hroom
  · rw [hnull] at hok
    cases hok
    exact absurd rfl hp
  · rw [hobj] at hok
    cases hok
    exact hg.layout.object_aligned (hg.layout.object_of hi (by simp))

lemma finish_aligned (hr : 16 ∣ r.1) (hok : Heap.finish size bytes r = (p, h')) : 16 ∣ p := by
  simp only [Heap.finish] at hok
  split at hok
  all_goals cases hok
  · exact Nat.dvd_zero _
  · exact (Nat.dvd_mod_iff (by decide : 16 ∣ 2 ^ 64)).mpr (Nat.dvd_add hr (by decide))

lemma mallocUnsampled_aligned (hl : HeapLayout (heapStart aslr) heapEnd h slabs objs large)
    (hok : h.mallocUnsampled size supply = .ok (p, h')) : 16 ∣ p := by
  have hnull : (0, h) = (p, h') → 16 ∣ p := by
    rintro ⟨⟩
    exact Nat.dvd_zero _
  unfold Heap.mallocUnsampled at hok
  dsimp only at hok
  split at hok
  · exact hnull (Except.ok.inj hok)
  · split at hok
    · split at hok
      case h_1 idx _ =>
        split_ifs at hok with hi
        · obtain ⟨r, hr, hfinish⟩ := ok_of_map hok
          exact finish_aligned (hl.slabAlloc_aligned (placed_heap aslr) (heapStart_pos aslr)
            heapEnd_room hi hr) hfinish
        · exact hnull (Except.ok.inj hok)
      · exact hnull (Except.ok.inj hok)
    · obtain ⟨r, hr, hfinish⟩ := ok_of_map hok
      exact finish_aligned (vmmAlloc_aligned hl.held.shape hr) hfinish

end

/-- The pointer `kmalloc` returns is a multiple of 16 unless the request is sampled and its
size leaves a remainder from 1 to 8. -/
theorem kmalloc_aligned_iff {aslr : Nat} {pinned : List VmRange} {s : HeapState}
    (hinv : s.Inv aslr pinned) (size : Nat) (supply : Supply) :
    (∀ p h, s.heap.malloc size supply = .ok (p, h) → p ≠ 0 → 16 ∣ p) ↔
      (s.heap.Sampled size supply → size % 16 = 0 ∨ 8 < size % 16) := by
  by_cases h0 : size = 0
  · have hnull : s.heap.malloc size supply = .ok (0, s.heap) := if_pos h0
    rw [hnull, h0]
    exact ⟨fun _ _ => .inl rfl, fun _ p h hok hne => absurd (by cases hok; rfl) hne⟩
  have hpos : 0 < size := Nat.pos_of_ne_zero h0
  by_cases hs : s.heap.Sampled size supply
  · obtain ⟨i, hi, g, -, -, hok⟩ := malloc_of_sampled hpos hs
    have hlo := (userVirt_bounds hi hs.1).1
    have hbase := (slotDataPage_bounds hi).1
    have hiff : 16 ∣ Gwp.userVirt i size ↔ size % 16 = 0 ∨ 8 < size % 16 := by
      have hsmall := hs.1
      rw [userVirt_eq hi hs.1]
      unfold slotDataPage slotBase gwpVirtBase slotStride pageSize at *
      omega
    rw [← hiff]
    constructor
    · exact fun hall _ => hall _ _ hok (by omega)
    · intro hdvd p h hp _
      rw [hok] at hp
      cases hp
      exact hdvd hs
  · obtain ⟨slabs, hheap⟩ := hinv
    obtain ⟨g, -, heq⟩ := malloc_of_not_sampled hpos hs
    refine ⟨fun _ hsampled => absurd hsampled hs, fun _ p h hok _ => ?_⟩
    have hl : HeapLayout (heapStart aslr) heapEnd { s.heap with gwp := g } slabs (objsOf s.live)
        (largeOf s.live ++ pinned) := hheap.layout.congr rfl rfl rfl fun _ _ => rfl
    exact mallocUnsampled_aligned hl (heq.symm.trans hok)

/-- The first request after the start is sampled. -/
theorem sampled_pointer_misaligned :
    ∃ p h, (HeapState.init 11 13 0).heap.malloc 8 ⟨0, 0x5000, none⟩ = .ok (p, h) ∧ p ≠ 0 ∧
      ¬ 16 ∣ p :=
  ⟨slotDataPage 0 + 4088, _, rfl, by decide, by decide⟩

theorem sampled_pointer_aligned :
    (HeapState.init 11 13 0).heap.Sampled 32 ⟨0, 0x5000, none⟩ ∧
      ∃ p h, (HeapState.init 11 13 0).heap.malloc 32 ⟨0, 0x5000, none⟩ = .ok (p, h) ∧ p ≠ 0 ∧
        16 ∣ p := by
  have hdvd := (kmalloc_aligned_iff (HeapState.inv_init 11 13 0) 32 ⟨0, 0x5000, none⟩).mpr
    fun _ => .inl rfl
  have hne : slotDataPage 0 + 4064 ≠ 0 := by decide
  exact ⟨⟨by decide, rfl, ⟨0, by decide, rfl⟩, by decide⟩, _, _, rfl, hne, hdvd _ _ rfl hne⟩

namespace HeapState

variable {aslr caller ptr : Nat} {pinned : List VmRange} {s t u : HeapState} {b : Block}

/-- The object of the block `b` was given back to its slab and is not in use. -/
def Freed (aslr : Nat) (pinned : List VmRange) (b : Block) (s : HeapState) : Prop :=
  ∃ slabs, HeapInv aslr pinned s.heap s.live slabs ∧ (∀ large, b.piece.Of slabs large) ∧
    (∀ c ∈ s.live, c.piece ≠ b.piece) ∧ Stale s.heap.magic s.heap.mem b

lemma exec_kfree (hexec : s.exec (.kfree ptr caller) = some (.ok t)) :
    s.Owned ptr ∧ ∃ h, s.heap.free ptr caller = .ok h ∧
      t = ⟨h, s.live.eraseP fun b => b.ptr == ptr⟩ := by
  obtain ⟨howned, hexec⟩ := then_of_ite hexec
  obtain ⟨h, hok, rfl⟩ := ok_of_map (Option.some.inj hexec)
  exact ⟨howned, h, hok, rfl⟩

lemma freed_of_kfree (hinv : s.Inv aslr pinned) (hb : b ∈ s.live)
    (hsmall : sizeBucket b.size ≠ none) (hexec : s.exec (.kfree b.ptr caller) = some (.ok t)) :
    Freed aslr pinned b t := by
  obtain ⟨slabs, hinv⟩ := hinv
  obtain ⟨-, h, hok, rfl⟩ := exec_kfree hexec
  have hperm := perm_eraseP hinv hb
  obtain ⟨h', hok', hnew, -, -, -, hmagic, hstale⟩ :=
    hinv.free hperm caller fun hnone => absurd hnone hsmall
  rw [hok] at hok'
  cases hok'
  have hof := (hinv.piece_of hb).1
  obtain ⟨i, hi⟩ := Option.ne_none_iff_exists'.mp hsmall
  have hpiece : b.piece = .object i (slabOf (bucketObjSize i) b.real) b.real := by
    simp [Block.piece, hi]
  rw [hpiece] at hof
  refine ⟨slabs, hnew, fun large => by rwa [hpiece], fun c hc => ?_,
    by rw [hmagic]; exact hstale hsmall⟩
  have hnodup := (hperm.map Block.real).nodup_iff.mp hinv.distinct
  rw [map_cons, nodup_cons] at hnodup
  refine hinv.piece_ne (hperm.mem_iff.mpr (mem_cons_of_mem _ hc)) hb ?_
  rintro rfl
  exact hnodup.1 (List.mem_map_of_mem hc)

/-- Freeing another block or a sampled object leaves the freed object as it is. -/
lemma Freed.step (hfreed : Freed aslr pinned b s)
    (hexec : s.exec (.kfree ptr caller) = some (.ok t)) : Freed aslr pinned b t := by
  obtain ⟨slabs, hinv, hof, hne, hstale⟩ := hfreed
  obtain ⟨howned, h, hok, rfl⟩ := exec_kfree hexec
  obtain ⟨hlo, hlen, -⟩ := piece_len b
  obtain ⟨c, hc, rfl⟩ | ⟨m, frames, g, hm, hok', hnew, herase⟩ := free_cases hinv howned caller
  · have hperm := perm_eraseP hinv hc
    obtain ⟨h', hok', hnew, -, -, hmem, hmagic, -⟩ :=
      hinv.free hperm caller (hinv.room_of_free hc hok)
    rw [hok] at hok'
    cases hok'
    have hapart := hinv.layout.apart (hinv.piece_of hc).1 (hof _) (hne c hc)
    rw [(piece_len c).1, hlo] at hapart
    refine ⟨slabs, hnew, hof, fun c' hc' => ?_, ?_⟩
    · exact hne c' (hperm.mem_iff.mpr (mem_cons_of_mem _ hc'))
    · rw [hmagic]
      refine hstale.congr fun x hx hhi => hmem x ?_
      unfold totalSize at hlen
      omega
  · rw [hok] at hok'
    cases hok'
    rw [herase]
    refine ⟨slabs, hnew, hof, hne, hstale.congr fun x _ hhi => hm x ?_⟩
    have hend := (hinv.layout.piece_limit (hof _)).2
    have hgwp := heapEnd_lt_gwp
    rw [hlo] at hend
    unfold totalSize at hlen
    omega

/-- A block of a slab is freed, then others; freeing it again panics before anything is written. -/
theorem double_free_caught (hinv : s.Inv aslr pinned) (hb : b ∈ s.live)
    (hsmall : sizeBucket b.size ≠ none) (hfree : s.exec (.kfree b.ptr caller) = some (.ok t))
    {frees : List (Nat × Nat)}
    (hrun : Run (fun s p t => s.exec (.kfree p.1 p.2) = some (.ok t)) t frees u) (caller' : Nat) :
    u.heap.free b.ptr caller' = .error (.doubleFree b.ptr caller') ∨
      u.heap.free b.ptr caller' = .error .userSizeExceedsBucket := by
  have hpos : 0 < b.size := by
    obtain ⟨slabs, hheap⟩ := hinv
    exact (hheap.sized b hb).1
  obtain ⟨slabs, hheap, hof, -, hstale⟩ := hrun.invariant (I := Freed aslr pinned b)
    (fun _ _ _ hfreed hexec => hfreed.step hexec) (freed_of_kfree hinv hb hsmall hfree)
  exact hstale.free_panics hheap.layout (hof _) hpos caller'

/-- A sampled block and two blocks of one slab. -/
def slabOps : List HeapOp :=
  let supply : Supply := ⟨0, 0x5000, some fun i => 0x100000 + i * pageSize⟩
  [.kmalloc 8 supply, .kmalloc 1000 supply, .kmalloc 1000 supply]

/-- The blocks of the slab are freed, and the first one again. -/
theorem freed_object_caught :
    ∃ s, Run Step (init 11 13 0) slabOps s ∧
      ∃ t u, s.exec (.kfree (kheapStartVirtual + 0x40) 0) = some (.ok t) ∧
        t.exec (.kfree (kheapStartVirtual + 0x460) 0) = some (.ok u) ∧
        (u.heap.free (kheapStartVirtual + 0x40) 7 =
            .error (.doubleFree (kheapStartVirtual + 0x40) 7) ∨
          u.heap.free (kheapStartVirtual + 0x40) 7 = .error .userSizeExceedsBucket) := by
  refine Run.exists_of_exec (P := fun s => ⟨kheapStartVirtual + 0x30, 1000⟩ ∈ s.live ∧
    ((s.tryStep (.kfree (kheapStartVirtual + 0x40) 0)).any fun t =>
      (t.tryStep (.kfree (kheapStartVirtual + 0x460) 0)).isSome) = true) step_of_tryStep
    (by decide +kernel) ?_
  rintro s hrun ⟨hb, hfrees⟩
  obtain ⟨t, ht, hfrees⟩ := (Option.any_eq_true _ _).mp hfrees
  obtain ⟨u, hu⟩ := Option.isSome_iff_exists.mp hfrees
  have hfirst := (step_of_tryStep _ _ _ ht).2.2
  have hsecond := (step_of_tryStep _ _ _ hu).2.2
  have hfrees : Run (fun s p t => s.exec (.kfree p.1 p.2) = some (.ok t)) t
      [(kheapStartVirtual + 0x460, 0)] u := .single hsecond
  exact ⟨t, u, hfirst, hsecond, double_free_caught (inv_of_run hrun) hb (by decide) hfirst hfrees 7⟩

end HeapState

end Singularity.KernelHeap
