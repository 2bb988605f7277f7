import Singularity.ObjectManager.HandleRuns
import Singularity.ObjectManager.Syscalls
import Mathlib.Data.Nat.ModEq

/-!
# Sends that fail after the handles have moved

A write moves the handles that it is given, and then it may still fail. A moved handle is in its
old slot, in the next generation: the handle of the sender is refused from then on, unless the
slot goes through all of its generations in the same call. `moveCount` is the number of moves
of a slot, read off the passed handles and the generation of the slot before the call.
-/

namespace Singularity.ObjectManager

open Foundation Function List Nat

lemma nextGeneration_cycle (generation : BitVec 16) :
    (nextGeneration generation).toNat = generation.toNat % 65535 + 1 := by
  by_cases hlast : generation = 0xFFFF
  · rw [hlast]
    rfl
  · have hlt := generation.isLt
    have hne : generation.toNat ≠ 65535 := fun heq => hlast (BitVec.eq_of_toNat_eq heq)
    rw [nextGeneration_toNat hlast, mod_eq_of_lt (by omega)]

lemma nextGeneration_iterate_cycle (h : generation ≠ 0) (n : Nat) :
    (nextGeneration^[n] generation).toNat = (generation.toNat - 1 + n) % 65535 + 1 := by
  have hpos : 0 < generation.toNat := by
    rw [pos_iff_ne_zero]
    exact fun heq => h (BitVec.eq_of_toNat_eq heq)
  induction n with
  | zero =>
    have hlt := generation.isLt
    rw [Function.iterate_zero_apply, add_zero, mod_eq_of_lt (by omega)]
    omega
  | succ n ih =>
    rw [Function.iterate_succ_apply', nextGeneration_cycle, ih, ← add_assoc, mod_add_mod]

lemma nextGeneration_iterate_inj (h : generation ≠ 0) :
    nextGeneration^[m] generation = nextGeneration^[n] generation ↔ m ≡ n [MOD 65535] := by
  rw [← BitVec.toNat_inj, nextGeneration_iterate_cycle h, nextGeneration_iterate_cycle h]
  constructor
  · intro heq
    exact Nat.ModEq.add_left_cancel' (generation.toNat - 1) (Nat.succ.inj heq)
  · intro heq
    exact congrArg Nat.succ (Nat.ModEq.add_left (generation.toNat - 1) heq)

/-- The number of times that the handles, one after another, move the entry of a slot. -/
def moveCount (idx : Nat) : BitVec 16 → List (BitVec 64) → Nat
  | _, [] => 0
  | generation, h :: hs =>
    if handleIndex h = idx ∧ handleGeneration h = generation then
      moveCount idx (nextGeneration generation) hs + 1
    else moveCount idx generation hs

namespace Kom

/-- The object and the capabilities of the entry that a handle names. -/
def lookup (k : Kom) (h : BitVec 64) : Option (Nat × BitVec 16) :=
  (k.find h).map fun entry => (entry.2, (k.entries entry.1).caps)

def occupied (k : Kom) : Nat := slotCount capacity k.slots Option.isSome

/-- The number of moves of a slot. -/
def moves (k : Kom) (hs : List (BitVec 64)) (i : Nat) : Nat :=
  if (0 < i ∧ i < capacity) ∧ (k.slots i).isSome = true then
    moveCount i (k.entries i).generation hs
  else 0

/-- The entries refer to objects that exist. -/
structure Sound (k : Kom) : Prop where
  table : k.TableOk
  refs : k.RefsOk k.refs
  slots : ∀ i < capacity, ∀ o, k.slots i = some o → 0 < k.refs o

variable {k k' : Kom} {h : BitVec 64} {hs rs : List (BitVec 64)} {i o : Nat}

section
variable {r : BitVec 64}

lemma moves_congr (hents : k'.entries = k.entries) : k'.moves hs i = k.moves hs i := by
  rw [moves, moves, slots_congr hents, hents]

lemma moves_nil (k : Kom) (i : Nat) : k.moves [] i = 0 := by simp [moves, moveCount]

lemma transfer_generation (hok : k.transfer h = .ok (r, k')) (i : Nat) :
    (k'.entries i).generation = if (k.find h).map Prod.fst = some i then
      nextGeneration (k.entries i).generation else (k.entries i).generation := by
  cases hfind : k.find h with
  | none =>
    rw [(refused_of_find hfind).2.2.1] at hok
    cases hok
    rfl
  | some entry =>
    rw [generation_of_transfer hok hfind, generation_retire]
    by_cases hi : i = entry.1
    · simp [hi]
    · simp [hi, Ne.symm hi]

/-- A handle moves its slot once, and the others follow in the new generation. -/
lemma moves_cons (hok : k.transfer h = .ok (r, k')) : k.moves (h :: hs) i =
    k'.moves hs i + if (k.find h).map Prod.fst = some i then 1 else 0 := by
  have hslot : k'.slots i = k.slots i := (transfer_kept hok i).1
  have hgeneration := transfer_generation hok i
  unfold moves
  rw [hslot]
  by_cases hfull : (0 < i ∧ i < capacity) ∧ (k.slots i).isSome = true
  · obtain ⟨o, ho⟩ := Option.isSome_iff_exists.mp hfull.2
    have hnames : (k.find h).map Prod.fst = some i ↔
        handleIndex h = i ∧ handleGeneration h = (k.entries i).generation := by
      constructor
      · intro hmap
        obtain ⟨⟨idx, o'⟩, hfind, rfl⟩ := Option.map_eq_some_iff.mp hmap
        obtain ⟨hidx, -, hgen, -⟩ := find_eq_some.mp hfind
        exact ⟨hidx, hgen.symm⟩
      · rintro ⟨hidx, hgen⟩
        rw [find_eq_some.mpr ⟨hidx, hfull.1, hgen.symm, ho⟩]
        rfl
    rw [if_pos hfull, if_pos hfull, moveCount, hgeneration]
    by_cases hmoved : (k.find h).map Prod.fst = some i
    · rw [if_pos hmoved, if_pos hmoved, if_pos (hnames.mp hmoved)]
    · rw [if_neg hmoved, if_neg hmoved, if_neg fun heq => hmoved (hnames.mpr heq)]
      rfl
  · rw [if_neg hfull, if_neg hfull, if_neg]
    intro hmap
    obtain ⟨⟨idx, o⟩, hfind, rfl⟩ := Option.map_eq_some_iff.mp hmap
    obtain ⟨-, hbd, -, ho⟩ := find_eq_some.mp hfind
    exact hfull ⟨hbd, by rw [ho]; rfl⟩

section
variable (hok : k.transferAll hs = .ok (rs, k'))
include hok

lemma transferAll_generation (i : Nat) :
    (k'.entries i).generation = nextGeneration^[k.moves hs i] (k.entries i).generation := by
  induction hs generalizing k rs with
  | nil =>
    cases hok
    rw [moves_nil, Function.iterate_zero_apply]
  | cons h hs ih =>
    obtain ⟨r, k1, rest, hhead, htail, -⟩ := transferAll_cons hok
    rw [ih htail, moves_cons hhead, transfer_generation hhead]
    split
    · rw [Function.iterate_succ_apply]
    · rw [add_zero]

omit hok in
lemma transfer_result (hok : k.transfer h = .ok (r, k')) (hi : 0 < i ∧ i < capacity) :
    handleIndex r = i ↔ (k.find h).map Prod.fst = some i := by
  cases hfind : k.find h with
  | none =>
    rw [(refused_of_find hfind).2.2.1] at hok
    cases hok
    have h0 : handleIndex 0 = 0 := by decide
    simp only [h0, Option.map_none, reduceCtorEq, iff_false]
    omega
  | some entry =>
    obtain ⟨rfl, -⟩ := transfer_entries hok hfind
    obtain ⟨-, hbd, -⟩ := find_eq_some.mp hfind
    rw [handleIndex_makeHandle _ _ (hbd.2.trans (by decide))]
    simp

lemma transferAll_count (hi : 0 < i ∧ i < capacity) (generation : BitVec 16) :
    rs.countP (fun r => handleIndex r == i && handleGeneration r == generation) =
      ((List.range (k.moves hs i)).map fun m =>
        nextGeneration^[m + 1] (k.entries i).generation).count generation := by
  induction hs generalizing k rs with
  | nil =>
    cases hok
    rw [moves_nil]
    rfl
  | cons h hs ih =>
    obtain ⟨r, k1, rest, hhead, htail, rfl⟩ := transferAll_cons hok
    have hresult := transfer_result hhead hi
    rw [countP_cons, ih htail, moves_cons hhead, transfer_generation hhead]
    by_cases hmoved : (k.find h).map Prod.fst = some i
    · obtain ⟨entry, hfind, hentry⟩ := Option.map_eq_some_iff.mp hmoved
      obtain ⟨hr, -⟩ := transfer_entries hhead hfind
      have hgen : handleGeneration r = nextGeneration (k.entries i).generation := by
        rw [hr, hentry, handleGeneration_makeHandle _ _ (hi.2.trans (by decide))]
      rw [if_pos hmoved, if_pos hmoved, range_succ_eq_map, map_cons, map_map,
        count_cons, hresult.mpr hmoved, hgen]
      simp [comp_def]
    · have hne : handleIndex r ≠ i := fun heq => hmoved (hresult.mp heq)
      rw [if_neg hmoved, if_neg hmoved]
      simp [hne]

omit hok in
/-- The last handle made for a slot is the only one of its generation, unless the slot goes
through more than a whole cycle. -/
lemma count_cycle (h : generation ≠ 0) (hn : 0 < n) :
    ((List.range n).map fun m => nextGeneration^[m + 1] generation).count
      (nextGeneration^[n] generation) = 1 ↔ n ≤ 65535 := by
  obtain ⟨n, rfl⟩ := exists_eq_succ_of_ne_zero hn.ne'
  rw [range_succ, map_append, count_append, map_cons, map_nil,
    count_singleton_self, succ_eq_add_one, add_eq_right, count_eq_zero]
  constructor
  · intro hnone
    by_contra hlt
    apply hnone
    refine mem_map.mpr ⟨n - 65535, mem_range.mpr (by omega), ?_⟩
    rw [nextGeneration_iterate_inj h, Nat.ModEq]
    omega
  · intro hle hmem
    obtain ⟨m, hm, heq⟩ := mem_map.mp hmem
    have hlt := mem_range.mp hm
    rw [nextGeneration_iterate_inj h, Nat.ModEq] at heq
    omega

lemma transferAll_made (hpos : 0 < k.moves hs i) :
    makeHandle (k'.entries i).caps (k'.entries i).generation i ∈ rs := by
  induction hs generalizing k rs with
  | nil =>
    rw [moves_nil] at hpos
    exact absurd hpos (lt_irrefl 0)
  | cons h hs ih =>
    obtain ⟨r, k1, rest, hhead, htail, rfl⟩ := transferAll_cons hok
    by_cases hlater : 0 < k1.moves hs i
    · exact mem_cons_of_mem r (ih htail hlater)
    -- the last move of the slot is that of the first handle
    have h0 : k1.moves hs i = 0 := Nat.eq_zero_of_not_pos hlater
    have hmoved : (k.find h).map Prod.fst = some i := by
      by_contra hne
      rw [moves_cons hhead, h0, if_neg hne] at hpos
      exact absurd hpos (lt_irrefl 0)
    obtain ⟨entry, hfind, rfl⟩ := Option.map_eq_some_iff.mp hmoved
    obtain ⟨rfl, hents, -⟩ := transfer_entries hhead hfind
    have hgen := transferAll_generation htail entry.1
    rw [h0, Function.iterate_zero_apply, hents, update_self] at hgen
    have hcaps := (transferAll_kept htail entry.1).2
    rw [hents, update_self] at hcaps
    rw [hgen, hcaps]
    exact mem_cons_self

lemma transferAll_away (hv : v ∈ movedAway hs rs) : 0 < k.moves hs (handleIndex v) := by
  induction hs generalizing k rs with
  | nil => cases hv
  | cons h hs ih =>
    obtain ⟨r, k1, rest, hhead, htail, rfl⟩ := transferAll_cons hok
    rw [moves_cons hhead]
    have hcases : v = h ∧ r ≠ 0 ∨ v ∈ movedAway hs rest := by
      simp only [movedAway, zip_cons_cons, filter_cons] at hv ⊢
      split_ifs at hv with hr
      · obtain rfl | hv := mem_cons.mp hv
        · exact .inl ⟨rfl, by simpa using hr⟩
        · exact .inr hv
      · exact .inr hv
    obtain ⟨rfl, hr⟩ | hv := hcases
    · cases hfind : k.find v with
      | none =>
        rw [(refused_of_find hfind).2.2.1] at hhead
        cases hhead
        exact absurd rfl hr
      | some entry =>
        obtain ⟨hidx, -⟩ := find_eq_some.mp hfind
        rw [Option.map_some, hidx, if_pos rfl]
        exact succ_pos _
    · exact Nat.add_pos_left (ih htail hv) _

end

/-- The table after the handles were moved, and the handles that were made. -/
structure Moved (k : Kom) (hs rs : List (BitVec 64)) (k' : Kom) : Prop where
  kept : ∀ i, (k'.entries i).obj = (k.entries i).obj ∧ (k'.entries i).caps = (k.entries i).caps
  generation : ∀ i, (k'.entries i).generation =
    nextGeneration^[k.moves hs i] (k.entries i).generation
  count : ∀ i, 0 < i ∧ i < capacity → ∀ generation,
    rs.countP (fun r => handleIndex r == i && handleGeneration r == generation) =
      ((List.range (k.moves hs i)).map fun m =>
        nextGeneration^[m + 1] (k.entries i).generation).count generation
  made : ∀ i, 0 < k.moves hs i →
    makeHandle (k'.entries i).caps (k'.entries i).generation i ∈ rs
  away : ∀ h ∈ movedAway hs rs, 0 < k.moves hs (handleIndex h)

lemma moved_of_transferAll (hok : k.transferAll hs = .ok (rs, k')) : Moved k hs rs k' :=
  ⟨transferAll_kept hok, transferAll_generation hok, fun _ hi => transferAll_count hok hi,
    fun _ => transferAll_made hok, fun _ => transferAll_away hok⟩

lemma Moved.congr (hmoved : Moved k hs rs k') (hents : k1.entries = k.entries)
    (hentries' : k1'.entries = k'.entries) : Moved k1 hs rs k1' := by
  constructor
  · simpa only [hents, hentries'] using hmoved.kept
  · simpa only [hents, hentries', moves_congr hents] using hmoved.generation
  · simpa only [hents, moves_congr hents] using hmoved.count
  · simpa only [hentries', moves_congr hents] using hmoved.made
  · simpa only [moves_congr hents] using hmoved.away

end

/-- The object that `resolve` returns. -/
def resolved (k : Kom) (h : BitVec 64) (reqCaps : BitVec 16) : Option Nat :=
  if handleCaps h &&& reqCaps ≠ reqCaps then none
  else (k.find h).bind fun entry =>
    if (k.entries entry.1).caps &&& reqCaps ≠ reqCaps then none else some entry.2

/-- The endpoint that a write goes to. -/
def writeTarget (k : Kom) (h : BitVec 64) : Option KObject :=
  (k.resolved h kapWrite).bind fun o => (k.objects o).filter fun obj => obj.type == .channel

lemma resolve_eq (k : Kom) (h : BitVec 64) (reqCaps : BitVec 16) :
    k.resolve h reqCaps = match k.resolved h reqCaps with
      | none => .ok (none, k)
      | some o => (k.kobjectRef o).map fun k => (some o, k) := by
  unfold resolve resolved
  split
  · rfl
  · cases k.find h with
    | none => rfl
    | some entry =>
      dsimp only [Option.bind_some]
      split
      · rfl
      · dsimp only
        cases k.kobjectRef entry.2 <;> rfl

lemma slot_of_resolved (h' : k.resolved h reqCaps = some o) :
    ∃ i < capacity, k.slots i = some o := by
  unfold resolved at h'
  split at h'
  · cases h'
  · obtain ⟨entry, hfind, hsome⟩ := Option.bind_eq_some_iff.mp h'
    obtain ⟨-, ⟨⟩⟩ := else_of_ite hsome
    obtain ⟨-, hbd, -, hslot⟩ := find_eq_some.mp hfind
    exact ⟨entry.1, hbd.2, hslot⟩

/-- Moving handles returns, with references added and nothing else changed but the table. -/
lemma transferAll_spec (hrefs : RefsOk k n)
    (hslots : ∀ i < capacity, ∀ o, k.slots i = some o → 0 < n o)
    (hroom : ∀ v ∈ hs, ∀ o, k.slots (handleIndex v) = some o → n o + hs.length + 1 < 2 ^ 32) :
    ∃ rs k' n', k.transferAll hs = .ok (rs, k') ∧ RefsOk k' n' ∧ (∀ o, n o ≤ n' o) ∧
      Frame k k' ∧ rs.length = hs.length := by
  induction hs generalizing k n with
  | nil => exact ⟨[], k, n, rfl, hrefs, fun _ => le_rfl, Frame.refl k, rfl⟩
  | cons h hs ih =>
    have hhead : ∃ r k1 n1, k.transfer h = .ok (r, k1) ∧ RefsOk k1 n1 ∧
        (∀ o, n o ≤ n1 o ∧ n1 o ≤ n o + 1) ∧ Frame k k1 := by
      cases hfind : k.find h with
      | none =>
        exact ⟨0, k, n, (refused_of_find hfind).2.2.1, hrefs,
          fun o => ⟨le_rfl, le_succ _⟩, Frame.refl k⟩
      | some entry =>
        obtain ⟨hidx, hbd, -, hslot⟩ := find_eq_some.mp hfind
        have hlt := hroom h mem_cons_self entry.2 (by rw [hidx, hslot])
        rw [length_cons] at hlt
        obtain ⟨r, k1, hok, hrefs1, hframe⟩ :=
          transfer_spec hrefs hfind (hslots entry.1 hbd.2 entry.2 hslot) (by omega)
        refine ⟨r, k1, _, hok, hrefs1, fun o => ?_, hframe⟩
        rw [update_apply]
        split_ifs with heq
        · rw [heq]
          omega
        · omega
    obtain ⟨r, k1, n1, hok, hrefs1, hle, hframe⟩ := hhead
    have hsame : k1.slots = k.slots := funext fun i => (transfer_kept hok i).1
    obtain ⟨rs, k', n', hok', hrefs', hle', hframe', hlen⟩ := ih hrefs1
      (fun i hi o hslot => by
        rw [hsame] at hslot
        exact (hslots i hi o hslot).trans_le (hle o).1)
      (fun v hv o hslot => by
        rw [hsame] at hslot
        have hlt := hroom v (mem_cons_of_mem h hv) o hslot
        rw [length_cons] at hlt
        have := (hle o).2
        omega)
    refine ⟨r :: rs, k', n', ?_, hrefs', fun o => (hle o).1.trans (hle' o),
      hframe.trans hframe', congrArg Nat.succ hlen⟩
    simp only [transferAll, hok, hok', bind, Except.bind]

lemma Sound.refs_pos (hk : k.Sound) (hresolve : k.resolved h reqCaps = some o) : 0 < k.refs o := by
  obtain ⟨i, hi, hslot⟩ := slot_of_resolved hresolve
  exact hk.slots i hi o hslot

lemma open_resolved (hk : k.Sound)
    (hresolve : k.resolved h reqCaps = some o) (hroom : k.refs o + 1 < 2 ^ 32) :
    ∃ obj k1, k.kobjectRef o = .ok k1 ∧ k1.objects o = some obj ∧
      (k.objects o).map KObject.shape = some obj.shape ∧
      RefsOk k1 (update k.refs o (k.refs o + 1)) ∧ k1.entries = k.entries ∧
      k1.freelist = k.freelist ∧ Frame k k1 := by
  obtain ⟨k1, href, hrefs1, hentries1, hfree1, -⟩ :=
    hk.refs.kobjectRef (hk.refs_pos hresolve) hroom
  have hframe := frame_of_kobjectRef href
  cases hobj : k1.objects o with
  | none =>
    have h0 := hrefs1.objects_eq_none.mp hobj
    rw [update_self] at h0
    omega
  | some obj =>
    refine ⟨obj, k1, href, hobj, ?_, hrefs1, hentries1, hfree1, hframe⟩
    rw [← hframe.shape o, hobj]
    rfl

lemma close_resolved (hrefs : RefsOk k n) (hmore : 1 < n o) :
    ∃ k', k.kobjectUnref o = .ok k' ∧ RefsOk k' (update n o (n o - 1)) ∧
      k'.entries = k.entries ∧ k'.freelist = k.freelist ∧ Frame k k' := by
  obtain ⟨k', hunref, hrefs', hents, hfree⟩ := hrefs.kobjectUnref (o := o) (by omega)
  refine ⟨k', hunref, hrefs', hents, hfree, frame_of_kobjectUnref hunref ?_⟩
  rw [hrefs.count]
  omega

lemma writeTarget_of_resolved {obj : KObject} (hresolve : k.resolved h kapWrite = some o)
    (hobj : (k.objects o).map KObject.shape = some obj.shape) (htype : obj.type = .channel) :
    ∃ ep, k.writeTarget h = some ep ∧ ep.shape = obj.shape := by
  obtain ⟨ep, hep, hshape⟩ := Option.map_eq_some_iff.mp hobj
  refine ⟨ep, ?_, hshape⟩
  have heq : ep.type = .channel := (congrArg Prod.fst hshape).trans htype
  simp [writeTarget, hresolve, hep, heq]

/-- No reference count comes around in a write. -/
def Room (k : Kom) (h : BitVec 64) (hs : List (BitVec 64)) : Prop :=
  (∀ o ∈ k.resolved h kapWrite, k.refs o + 1 < 2 ^ 32) ∧
    ∀ v ∈ hs, ∀ o ∈ k.slots (handleIndex v), k.refs o + hs.length + 2 < 2 ^ 32

instance (k : Kom) (h : BitVec 64) (hs : List (BitVec 64)) : Decidable (k.Room h hs) :=
  @instDecidableAnd _ _ inferInstance (List.decidableBAll _ hs)

/-- References are added to the objects that there are. -/
structure Grown (k k' : Kom) : Prop where
  refs : k'.RefsOk k'.refs
  le : ∀ o, k.refs o ≤ k'.refs o
  shape : ∀ o, (k'.objects o).map KObject.shape = (k.objects o).map KObject.shape

lemma grown_of_update (hrefs : RefsOk k' (update n o (n o - 1)))
    (hle : ∀ o', update k.refs o (k.refs o + 1) o' ≤ n o')
    (hshape : ∀ o', (k'.objects o').map KObject.shape = (k.objects o').map KObject.shape) :
    Grown k k' := by
  refine ⟨⟨fun _ => rfl, hrefs.live⟩, fun o' => ?_, hshape⟩
  have hn := hle o'
  rw [hrefs.count]
  by_cases heq : o' = o
  · rw [heq, update_self] at hn
    rw [heq, update_self]
    omega
  · rw [update_of_ne heq] at hn ⊢
    exact hn

/-- A write that does not come to its endpoint with the moved handles changes nothing. -/
lemma komChannelWrite_refused (data : Buffer UInt8) (hk : k.Sound) (hroom : k.Room h handles.toList)
    (hsent : ¬∃ ep, k.writeTarget h = some ep ∧ (handles.toList = [] ∨ mem.moved = true)) :
    ∃ status k', k.komChannelWrite h data handles mem = .ok (⟨status, []⟩, k') ∧ status ≠ .ok ∧
      k'.entries = k.entries ∧ k'.channels = k.channels ∧ Grown k k' := by
  rw [komChannelWrite, resolve_eq]
  cases hresolve : k.resolved h kapWrite with
  | none =>
    exact ⟨.capDenied, k, rfl, by decide, rfl, rfl, hk.refs, fun _ => le_rfl, fun _ => rfl⟩
  | some o =>
    obtain ⟨obj, k1, href, hobj, hshape, hrefs1, hentries1, -, hframe1⟩ :=
      open_resolved hk hresolve (hroom.1 o hresolve)
    have hpos := hk.refs_pos hresolve
    obtain ⟨k2, hunref, hrefs2, hentries2, -, hframe2⟩ :=
      close_resolved (o := o) hrefs1 (by rw [update_self]; omega)
    have hents : k2.entries = k.entries := hentries2.trans hentries1
    have hframe : Frame k k2 := hframe1.trans hframe2
    have hgrown : Grown k k2 := grown_of_update hrefs2 (fun _ => le_rfl) hframe.shape
    by_cases htype : obj.type = .channel
    · obtain ⟨ep, htarget, -⟩ := writeTarget_of_resolved hresolve hshape htype
      obtain ⟨hne, hmem⟩ := not_or.mp fun hor => hsent ⟨ep, htarget, hor⟩
      have hmove : k1.moveHandles handles mem = .ok (none, k1) := by
        cases handles with
        | null count => exact absurd rfl hne
        | items hs =>
          change hs ≠ [] at hne
          simp [moveHandles, hne, hmem]
      refine ⟨.noMemory, k2, ?_, by decide, hents, hframe.channels, hgrown⟩
      simp [href, Except.map, bind, Except.bind, writeEndpoint, hobj, htype, hmove, hunref]
    · refine ⟨.invalidType, k2, ?_, by decide, hents, hframe.channels, hgrown⟩
      simp [href, Except.map, bind, Except.bind, writeEndpoint, hobj, htype, hunref]

lemma moveHandles_sent (mem : WriteMemory) (hrefs : RefsOk k n)
    (hslots : ∀ i < capacity, ∀ o, k.slots i = some o → 0 < n o)
    (hroom : ∀ v ∈ handles.toList, ∀ o, k.slots (handleIndex v) = some o →
      n o + handles.toList.length + 1 < 2 ^ 32)
    (hmem : handles.toList = [] ∨ mem.moved = true) :
    ∃ sent k' n', k.moveHandles handles mem = .ok (some sent, k') ∧
      sent.missing = handles.missing ∧ sent.count = handles.count ∧
      Moved k handles.toList sent.toList k' ∧ RefsOk k' n' ∧ (∀ o, n o ≤ n' o) ∧ Frame k k' := by
  cases handles with
  | null count =>
    exact ⟨.null count, k, n, rfl, rfl, rfl, moved_of_transferAll rfl, hrefs, fun _ => le_rfl,
      Frame.refl k⟩
  | items hs =>
    by_cases hempty : hs = []
    · subst hempty
      exact ⟨.null 0, k, n, rfl, rfl, rfl, moved_of_transferAll rfl, hrefs, fun _ => le_rfl,
        Frame.refl k⟩
    · have hmem : mem.moved = true := hmem.resolve_left hempty
      obtain ⟨rs, k', n', hok, hrefs', hle, hframe, hlen⟩ := transferAll_spec hrefs hslots hroom
      change k.transferAll hs = _ at hok
      refine ⟨.items rs, k', n', ?_, rfl, hlen, moved_of_transferAll hok, hrefs', hle, hframe⟩
      simp [moveHandles, hempty, hmem, hok, bind, Except.bind]

lemma endpointWrite_eq (k : Kom) (ep : KObject) (data : Buffer UInt8)
    (handles : Buffer (BitVec 64)) (mem : WriteMemory) :
    k.endpointWrite ep data handles mem =
      ((k.channels ep.state).writeStatus ep.myId data handles mem,
        if (k.channels ep.state).writeStatus ep.myId data handles mem = .ok then
          k.setChannel ep.state ((k.channels ep.state).enqueue (!ep.myId)
            ⟨data.toList, handles.toList⟩)
        else k) := by
  unfold endpointWrite
  dsimp only
  cases (k.channels ep.state).writeStatus ep.myId data handles mem <;> rfl

/-- A write moves the handles and then asks the channel. -/
lemma komChannelWrite_sent (data : Buffer UInt8) {ep : KObject} (hk : k.Sound)
    (hroom : k.Room h handles.toList) (htarget : k.writeTarget h = some ep)
    (hmem : handles.toList = [] ∨ mem.moved = true) :
    ∃ rs k', k.komChannelWrite h data handles mem =
        .ok (⟨(k.channels ep.state).writeStatus ep.myId data handles mem, rs⟩, k') ∧
      Moved k handles.toList rs k' ∧ Grown k k' ∧
      k'.channels = if (k.channels ep.state).writeStatus ep.myId data handles mem = .ok then
        update k.channels ep.state
          ((k.channels ep.state).enqueue (!ep.myId) ⟨data.toList, rs⟩)
      else k.channels := by
  obtain ⟨o, hresolve, hfilter⟩ := Option.bind_eq_some_iff.mp htarget
  obtain ⟨obj, k1, href, hobj, hshape, hrefs1, hentries1, -, hframe1⟩ :=
    open_resolved hk hresolve (hroom.1 o hresolve)
  obtain ⟨hep, htype⟩ := Option.filter_eq_some_iff.mp hfilter
  rw [hep, Option.map_some, Option.some.injEq] at hshape
  obtain ⟨htype', hst, hid⟩ : ep.type = obj.type ∧ ep.state = obj.state ∧ ep.myId = obj.myId := by
    simpa [KObject.shape] using hshape
  have hpos := hk.refs_pos hresolve
  have hself : update k.refs o (k.refs o + 1) o = k.refs o + 1 := update_self ..
  have hmono (o' : Nat) : k.refs o' ≤ update k.refs o (k.refs o + 1) o' ∧
      update k.refs o (k.refs o + 1) o' ≤ k.refs o' + 1 := by
    by_cases heq : o' = o
    · rw [heq, hself]
      omega
    · rw [update_of_ne heq]
      omega
  obtain ⟨sent, k2, n2, hmove, hmissing, hcnt, hmoved, hrefs2, hle, hframe2⟩ :=
    moveHandles_sent mem hrefs1
      (fun i hi o' hslot => by
        rw [slots_congr hentries1] at hslot
        exact (hk.slots i hi o' hslot).trans_le (hmono o').1)
      (fun v hv o' hslot => by
        rw [slots_congr hentries1] at hslot
        have := hroom.2 v hv o' hslot
        have := (hmono o').2
        omega) hmem
  have hstatus : (k2.channels obj.state).writeStatus obj.myId data sent mem =
      (k.channels ep.state).writeStatus ep.myId data handles mem := by
    rw [(hframe1.trans hframe2).channels, hst, hid]
    simp only [ChannelState.writeStatus, hmissing, hcnt]
  have hwrite := k2.endpointWrite_eq obj data sent mem
  have hrefs3 : RefsOk (k2.endpointWrite obj data sent mem).2 n2 := by
    rw [hwrite]
    split
    · exact hrefs2.congr rfl
    · exact hrefs2
  obtain ⟨k', hunref, hrefs', hentries', -, hframe'⟩ := close_resolved (o := o) hrefs3 (by
    have := hle o
    omega)
  have hshape3 (o : Nat) : ((k2.endpointWrite obj data sent mem).2.objects o).map KObject.shape =
      (k2.objects o).map KObject.shape := by
    rw [hwrite]
    split <;> rfl
  refine ⟨sent.toList, k', ?_, ?_, ?_, ?_⟩
  · have htype1 : obj.type = .channel := htype'.symm.trans (by simpa using htype)
    have hresult : (k2.endpointWrite obj data sent mem).1 =
        (k.channels ep.state).writeStatus ep.myId data handles mem := by rw [hwrite, hstatus]
    rw [komChannelWrite, resolve_eq, hresolve]
    simp only [href, Except.map, bind, Except.bind, writeEndpoint, hobj, htype1, hmove, hunref,
      hresult, ne_eq, not_true_eq_false, if_false]
  · exact hmoved.congr hentries1.symm (hentries'.trans (endpointWrite_table ..).1)
  · exact grown_of_update hrefs' hle fun o' =>
      (hframe'.shape o').trans ((hshape3 o').trans ((hframe1.trans hframe2).shape o'))
  · rw [hframe'.channels, hwrite, hstatus, (hframe1.trans hframe2).channels, hst, hid]
    split
    · rw [setChannel, (hframe1.trans hframe2).channels]
    · exact (hframe1.trans hframe2).channels

section
variable {v : BitVec 64}

lemma lookup_slot (hi : 0 < i ∧ i < capacity) (ho : k.slots i = some o)
    (hv : handleIndex v = i) : k.lookup v =
      if (k.entries i).generation = handleGeneration v then some (o, (k.entries i).caps)
      else none := by
  unfold lookup
  split_ifs with hgen
  · rw [find_eq_some.mpr ⟨hv, hi, hgen, ho⟩]
    rfl
  · rw [Option.map_eq_none_iff, Option.eq_none_iff_forall_ne_some]
    rintro ⟨idx, o'⟩ hfind
    obtain ⟨hidx, -, hgen', -⟩ := find_eq_some.mp hfind
    rw [← hidx, hv] at hgen'
    exact hgen hgen'

variable {entry : Nat × BitVec 16} {ep : KObject}

lemma slot_of_lookup (hlookup : k.lookup v = some entry) :
    (0 < handleIndex v ∧ handleIndex v < capacity) ∧ k.slots (handleIndex v) = some entry.1 ∧
      (k.entries (handleIndex v)).caps = entry.2 ∧
      (k.entries (handleIndex v)).generation = handleGeneration v := by
  obtain ⟨⟨idx, o⟩, hfind, rfl⟩ := Option.map_eq_some_iff.mp hlookup
  obtain ⟨hidx, hbd, hgen, hslot⟩ := find_eq_some.mp hfind
  rw [hidx]
  exact ⟨hbd, hslot, rfl, hgen⟩

lemma moves_pos_of_mem (hlookup : k.lookup v = some entry) (hmem : v ∈ hs) :
    0 < k.moves hs (handleIndex v) := by
  obtain ⟨hbd, hslot, -, hgen⟩ := slot_of_lookup hlookup
  rw [moves, if_pos ⟨hbd, by rw [hslot]; rfl⟩, hgen]
  induction hs with
  | nil => cases hmem
  | cons h hs ih =>
    rw [moveCount]
    split_ifs with hne
    · exact succ_pos _
    · obtain rfl | hmem := mem_cons.mp hmem
      · exact absurd ⟨rfl, rfl⟩ hne
      · exact ih hmem

lemma mem_of_moves_pos (hpos : 0 < k.moves hs i) :
    ∃ w ∈ hs, handleIndex w = i ∧ (k.lookup w).isSome = true := by
  unfold moves at hpos
  split at hpos
  case isFalse => exact absurd hpos (lt_irrefl 0)
  case isTrue hfull =>
    obtain ⟨o, ho⟩ := Option.isSome_iff_exists.mp hfull.2
    have hfirst : ∃ w ∈ hs, handleIndex w = i ∧ handleGeneration w = (k.entries i).generation := by
      induction hs with
      | nil => exact absurd hpos (lt_irrefl 0)
      | cons h hs ih =>
        rw [moveCount] at hpos
        split_ifs at hpos with heq
        · exact ⟨h, mem_cons_self, heq⟩
        · obtain ⟨w, hmem, hw⟩ := ih hpos
          exact ⟨w, mem_cons_of_mem h hmem, hw⟩
    obtain ⟨w, hmem, hw, hgen⟩ := hfirst
    refine ⟨w, hmem, hw, ?_⟩
    rw [lookup_slot hfull.1 ho hw, if_pos hgen.symm]
    rfl

section
variable (hmoved : Moved k hs rs k') (htab : TableOk k) (hlookup : k.lookup v = some entry)
include hmoved htab hlookup

lemma Moved.lookup_eq :
    k'.lookup v = if 65535 ∣ k.moves hs (handleIndex v) then some entry else none := by
  obtain ⟨hbd, hslot, hcaps, hgen⟩ := slot_of_lookup hlookup
  have hslot' : k'.slots (handleIndex v) = some entry.1 := (hmoved.kept _).1.trans hslot
  have hne := htab.generation (handleIndex v) hbd.1 hbd.2
  have hcycle : (k'.entries (handleIndex v)).generation = handleGeneration v ↔
      65535 ∣ k.moves hs (handleIndex v) := by
    rw [hmoved.generation, ← hgen, ← modEq_zero_iff_dvd]
    exact nextGeneration_iterate_inj (n := 0) hne
  rw [lookup_slot hbd hslot' rfl, (hmoved.kept _).2, hcaps]
  exact if_congr hcycle rfl rfl

lemma Moved.count_eq_one (hmem : v ∈ hs) :
    rs.countP (fun r => handleIndex r == handleIndex v && k'.lookup r == some entry) = 1 ↔
      k.moves hs (handleIndex v) ≤ 65535 := by
  obtain ⟨hbd, hslot, hcaps, hgen⟩ := slot_of_lookup hlookup
  have hslot' : k'.slots (handleIndex v) = some entry.1 := (hmoved.kept _).1.trans hslot
  have hne := htab.generation (handleIndex v) hbd.1 hbd.2
  rw [← count_cycle hne (moves_pos_of_mem hlookup hmem), ← hmoved.count _ hbd]
  have hsame : (fun r => handleIndex r == handleIndex v && k'.lookup r == some entry) =
      fun r => handleIndex r == handleIndex v &&
        handleGeneration r == nextGeneration^[k.moves hs (handleIndex v)]
          (k.entries (handleIndex v)).generation := by
    funext r
    by_cases hr : handleIndex r = handleIndex v
    · rw [lookup_slot hbd hslot' hr, (hmoved.kept _).2, hcaps, hmoved.generation]
      by_cases hgen' : handleGeneration r = nextGeneration^[k.moves hs (handleIndex v)]
          (k.entries (handleIndex v)).generation
      · simp [hgen']
      · simp [hgen', Ne.symm hgen']
    · rw [beq_eq_false_iff_ne.mpr hr, Bool.false_and, Bool.false_and]
  rw [hsame]

end

/-- What a send promises: all or nothing. -/
def SendAtomic (k : Kom) (h : BitVec 64) (hs : List (BitVec 64)) (status : KomStatus) (k' : Kom) :
    Prop :=
  if status = .ok then
    ∃ ep msg, k.writeTarget h = some ep ∧
      (k'.channels ep.state).queue (!ep.myId) = (k.channels ep.state).queue (!ep.myId) ++ [msg] ∧
      ∀ v ∈ hs, ∀ entry, k.lookup v = some entry → k'.lookup v = none ∧
        msg.handles.countP
          (fun r => handleIndex r == handleIndex v && k'.lookup r == some entry) = 1
  else (∀ v ∈ hs, k'.lookup v = k.lookup v) ∧ k'.occupied = k.occupied ∧
    ∀ state, (k'.channels state).queue = (k.channels state).queue

/-- When the handles are moved, no valid handle is passed to a write that fails then (or its slot
goes through whole cycles of generations), and no slot is moved through a cycle otherwise. -/
def SendCondition (k : Kom) (h : BitVec 64) (data : Buffer UInt8) (handles : Buffer (BitVec 64))
    (mem : WriteMemory) : Prop :=
  ∀ ep, k.writeTarget h = some ep → mem.moved = true →
    ∀ v ∈ handles.toList, (k.lookup v).isSome = true →
      if (k.channels ep.state).writeStatus ep.myId data handles mem = .ok then
        k.moves handles.toList (handleIndex v) < 65535
      else 65535 ∣ k.moves handles.toList (handleIndex v)

lemma occupied_of_kept (hkept : ∀ i, (k'.entries i).obj = (k.entries i).obj) :
    k'.occupied = k.occupied := by
  have hslots : k'.slots = k.slots := funext hkept
  rw [occupied, occupied, hslots]

/-- A handle that was refused before is refused after moves in whole cycles. -/
lemma Moved.lookup_eq_of_dvd (hmoved : Moved k hs rs k') (htab : TableOk k)
    (hcycles : ∀ w ∈ hs, (k.lookup w).isSome = true → 65535 ∣ k.moves hs (handleIndex w)) :
    k'.lookup v = k.lookup v := by
  by_cases hfull : (0 < handleIndex v ∧ handleIndex v < capacity) ∧
      (k.slots (handleIndex v)).isSome = true
  · obtain ⟨hbd, hsome⟩ := hfull
    obtain ⟨o, ho⟩ := Option.isSome_iff_exists.mp hsome
    have ho' : k'.slots (handleIndex v) = some o := (hmoved.kept _).1.trans ho
    have hdvd : 65535 ∣ k.moves hs (handleIndex v) := by
      obtain h0 | hpos := Nat.eq_zero_or_pos (k.moves hs (handleIndex v))
      · rw [h0]
        exact dvd_zero _
      · obtain ⟨w, hmem, hw, hval⟩ := mem_of_moves_pos hpos
        exact hw ▸ hcycles w hmem hval
    have hgen : (k'.entries (handleIndex v)).generation =
        (k.entries (handleIndex v)).generation := by
      rw [hmoved.generation]
      exact (nextGeneration_iterate_inj (n := 0) (htab.generation _ hbd.1 hbd.2)).mpr
        (modEq_zero_iff_dvd.mpr hdvd)
    rw [lookup_slot hbd ho' rfl, lookup_slot hbd ho rfl, hgen, (hmoved.kept _).2]
  · have hnone {k1 : Kom} (hslot : k1.slots (handleIndex v) = k.slots (handleIndex v)) :
        k1.lookup v = none := by
      rw [Option.eq_none_iff_forall_ne_some]
      intro entry hentry
      obtain ⟨hbd, hfilled, -⟩ := slot_of_lookup hentry
      exact hfull ⟨hbd, by rw [← hslot, hfilled]; rfl⟩
    rw [hnone rfl, hnone (hmoved.kept _).1]

lemma sendCondition_iff (htarget : k.writeTarget h = some ep)
    (hmem : handles.toList = [] ∨ mem.moved = true) :
    k.SendCondition h data handles mem ↔ ∀ v ∈ handles.toList, (k.lookup v).isSome = true →
      if (k.channels ep.state).writeStatus ep.myId data handles mem = .ok then
        k.moves handles.toList (handleIndex v) < 65535
      else 65535 ∣ k.moves handles.toList (handleIndex v) := by
  constructor
  · intro hcond v hv
    have hmoved : mem.moved = true := hmem.resolve_left (ne_nil_of_mem hv)
    exact hcond ep htarget hmoved v hv
  · intro hcond ep' htarget' _
    cases htarget.symm.trans htarget'
    exact hcond

/-- A message with the moved handles is queued. -/
lemma Moved.atomic_ok_iff (hmoved : Moved k hs rs k') (htab : TableOk k)
    (htarget : k.writeTarget h = some ep) (hchans : k'.channels = update k.channels ep.state
      ((k.channels ep.state).enqueue (!ep.myId) ⟨data, rs⟩)) :
    k.SendAtomic h hs .ok k' ↔ ∀ v ∈ hs, (k.lookup v).isSome = true →
      k.moves hs (handleIndex v) < 65535 := by
  have hqueue : (k'.channels ep.state).queue (!ep.myId) =
      (k.channels ep.state).queue (!ep.myId) ++ [⟨data, rs⟩] := by
    rw [hchans, update_self]
    exact update_self ..
  rw [SendAtomic, if_pos rfl]
  constructor
  · rintro ⟨ep', msg, htarget', hqueue', hall⟩ v hv hval
    cases htarget.symm.trans htarget'
    rw [hqueue, append_cancel_left_eq, List.cons.injEq] at hqueue'
    obtain ⟨rfl, -⟩ := hqueue'
    obtain ⟨entry, hlookup⟩ := Option.isSome_iff_exists.mp hval
    obtain ⟨hgone, hcnt⟩ := hall v hv entry hlookup
    have hle := (hmoved.count_eq_one htab hlookup hv).mp hcnt
    rw [hmoved.lookup_eq htab hlookup] at hgone
    apply lt_of_le_of_ne hle
    intro heq
    rw [heq, if_pos (dvd_refl _)] at hgone
    cases hgone
  · intro hall
    refine ⟨ep, ⟨data, rs⟩, htarget, hqueue, fun v hv entry hlookup => ⟨?_, ?_⟩⟩
    · have hlt := hall v hv (by rw [hlookup]; rfl)
      have hpos := moves_pos_of_mem hlookup hv
      rw [hmoved.lookup_eq htab hlookup, if_neg]
      exact fun hdvd => absurd (le_of_dvd hpos hdvd) (by omega)
    · exact (hmoved.count_eq_one htab hlookup hv).mpr (hall v hv (by rw [hlookup]; rfl)).le

lemma Moved.atomic_error_iff (hmoved : Moved k hs rs k') (htab : TableOk k) (hne : status ≠ .ok)
    (hchans : k'.channels = k.channels) :
    k.SendAtomic h hs status k' ↔ ∀ v ∈ hs, (k.lookup v).isSome = true →
      65535 ∣ k.moves hs (handleIndex v) := by
  rw [SendAtomic, if_neg hne]
  constructor
  · rintro ⟨hsame, -⟩ v hv hval
    obtain ⟨entry, hlookup⟩ := Option.isSome_iff_exists.mp hval
    have hlookup' := hsame v hv
    rw [hmoved.lookup_eq htab hlookup, hlookup] at hlookup'
    by_contra hdvd
    rw [if_neg hdvd] at hlookup'
    cases hlookup'
  · intro hall
    exact ⟨fun v _ => hmoved.lookup_eq_of_dvd htab hall,
      occupied_of_kept fun i => (hmoved.kept i).1, fun state => by rw [hchans]⟩

/-- A write is all or nothing exactly under the condition. -/
theorem komChannelWrite_atomic_iff (h : BitVec 64) (data : Buffer UInt8)
    (handles : Buffer (BitVec 64)) (mem : WriteMemory) (hk : k.Sound)
    (hroom : k.Room h handles.toList) :
    ∃ result k', k.komChannelWrite h data handles mem = .ok (result, k') ∧
      (k.SendAtomic h handles.toList result.status k' ↔ k.SendCondition h data handles mem) := by
  by_cases hsent : ∃ ep, k.writeTarget h = some ep ∧ (handles.toList = [] ∨ mem.moved = true)
  · obtain ⟨ep, htarget, hmem⟩ := hsent
    obtain ⟨rs, k', hok, hmoved, -, hchans⟩ :=
      komChannelWrite_sent data hk hroom htarget hmem
    refine ⟨_, k', hok, ?_⟩
    rw [sendCondition_iff htarget hmem]
    split_ifs at hchans with hstatus
    · simp only [hstatus, if_true]
      exact hmoved.atomic_ok_iff hk.table htarget hchans
    · simp only [if_neg hstatus]
      exact hmoved.atomic_error_iff hk.table hstatus hchans
  · obtain ⟨status, k', hok, hne, hents, hchans, -⟩ :=
      komChannelWrite_refused data hk hroom hsent
    refine ⟨_, k', hok, iff_of_true ?_ ?_⟩
    · rw [SendAtomic, if_neg hne]
      refine ⟨fun v _ => ?_, occupied_of_kept fun i => by rw [hents], fun state => by rw [hchans]⟩
      rw [lookup, lookup, find_congr hents, hents]
    · exact fun ep htarget hmem => (hsent ⟨ep, htarget, .inr hmem⟩).elim

end

/-- A channel whose two endpoints have one handle each and one reference elsewhere. -/
def pairKom : Kom :=
  let k := Kom.init (fun _ => none) Session.idleChannels
  let entries := update k.entries 1 ⟨some 1, channelCaps, (k.entries 1).generation⟩
  { k with
    entries := update entries 2 ⟨some 2, channelCaps, (entries 2).generation⟩
    freelist := (List.range' 1 (capacity - 1)).drop 2
    objects := update (update (fun _ => none) 1 (some ⟨.channel, 2, 0, false⟩)) 2
      (some ⟨.channel, 2, 0, true⟩) }

lemma pairKom_refCount (hobj : pairKom.objects o = some obj) : obj.refCount = 2 := by
  by_cases h2 : o = 2
  · subst h2
    cases hobj
    rfl
  · by_cases h1 : o = 1
    · subst h1
      cases hobj
      rfl
    · simp [pairKom, h1, h2] at hobj

lemma pairKom_sound : pairKom.Sound := by
  refine ⟨?_, ⟨fun _ => rfl, fun o obj hobj => ?_⟩, fun i hi o hslot => ?_⟩
  · have hinit := (Session.inv_init Session.idleChannels).table
    obtain ⟨hfirst, -⟩ := hinit.publish
      (rfl : (init (fun _ => none) Session.idleChannels).publish 1 channelCaps = some (_, _))
    obtain ⟨hsecond, -⟩ := hfirst.publish (rfl : Kom.publish _ 2 channelCaps = some (_, _))
    exact hsecond.congr rfl rfl
  · rw [pairKom_refCount hobj]
    decide
  · have ho : o = 1 ∨ o = 2 := by
      by_cases h2 : i = 2
      · subst h2
        exact .inr (Option.some.inj hslot).symm
      by_cases h1 : i = 1
      · subst h1
        exact .inl (Option.some.inj hslot).symm
      · simp [pairKom, slots, init, h1, h2] at hslot
    obtain rfl | rfl := ho <;> decide

/-- One endpoint is sent over the other: it arrives, and the sender has lost it. -/
theorem pairKom_atomic :
    ∃ result k', pairKom.komChannelWrite 0xC400000100000001 (.items [7])
        (.items [0xC400000100000002]) ⟨true, true, true, true⟩ = .ok (result, k') ∧
      pairKom.SendAtomic 0xC400000100000001 [0xC400000100000002] result.status k' := by
  obtain ⟨result, k', hok, hiff⟩ := komChannelWrite_atomic_iff 0xC400000100000001 (.items [7])
    (.items [0xC400000100000002]) ⟨true, true, true, true⟩ pairKom_sound (by decide +kernel)
  refine ⟨result, k', hok, hiff.mpr fun ep htarget _ v hv _ => ?_⟩
  cases mem_singleton.mp hv
  have htarget' : pairKom.writeTarget 0xC400000100000001 = some ⟨.channel, 2, 0, false⟩ := by
    decide +kernel
  cases htarget'.symm.trans htarget
  decide +kernel

/-- The allocation of the message fails: the sender has lost its handle, and nobody has got it. -/
theorem failed_send_loses_handle :
    ∃ result k', pairKom.komChannelWrite 0xC400000100000001 (.items [7])
        (.items [0xC400000100000002]) ⟨true, false, true, true⟩ = .ok (result, k') ∧
      result.status = .noMemory ∧ pairKom.lookup 0xC400000100000002 = some (2, channelCaps) ∧
      k'.lookup 0xC400000100000002 = none ∧ (k'.channels 0).queue true = [] := by
  have hsome : ((pairKom.komChannelWrite 0xC400000100000001 (.items [7])
      (.items [0xC400000100000002]) ⟨true, false, true, true⟩).toOption.any fun r =>
        decide (r.1.status = .noMemory ∧ pairKom.lookup 0xC400000100000002 = some (2, channelCaps) ∧
          r.2.lookup 0xC400000100000002 = none ∧ (r.2.channels 0).queue true = [])) = true := by
    decide +kernel
  obtain ⟨⟨result, k'⟩, hok, hfacts⟩ := (Option.any_eq_true _ _).mp hsome
  exact ⟨result, k', ok_of_toOption hok, of_decide_eq_true hfacts⟩

end Kom

end Singularity.ObjectManager
