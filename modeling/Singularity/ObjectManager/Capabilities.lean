import Singularity.ObjectManager.HandleRuns
import Singularity.ObjectManager.Syscalls

/-!
# Capabilities along sequences of system calls

Handles are arbitrary words: the capability bits in a handle can be forged, those in the table
cannot. Every entry descends from an entry of the same object that has its capabilities: a
duplicate from the entry that it was made of, a moved handle from itself. The rights to
duplicate and to transfer are not looked at by the calls; they are kept when the callers ask
for them.
-/

namespace Singularity.ObjectManager

open Foundation Function Kom Session

variable {k k' : Kom} {h r : BitVec 64} {o : Nat} {caps : BitVec 16}

namespace Kom
variable {k'' : Kom}

/-- There is an entry of the object with all of the capabilities. -/
def Grants (k : Kom) (o : Nat) (caps : BitVec 16) : Prop :=
  ∃ i, (0 < i ∧ i < capacity) ∧ k.slots i = some o ∧ (k.entries i).caps &&& caps = caps

/-- Whatever the entries of the second table grant is granted by those of the first. -/
def Descends (k k' : Kom) : Prop := ∀ o caps, k'.Grants o caps → k.Grants o caps

lemma grants_of_find (hfind : k.find h = some (idx, o))
    (hcaps : (k.entries idx).caps &&& caps = caps) : k.Grants o caps := by
  obtain ⟨-, hbd, -, hslot⟩ := find_eq_some.mp hfind
  exact ⟨idx, hbd, hslot, hcaps⟩

lemma Grants.mono (hk : k.Grants o caps) (hle : caps &&& fewer = fewer) : k.Grants o fewer := by
  obtain ⟨i, hbd, hslot, hcaps⟩ := hk
  refine ⟨i, hbd, hslot, ?_⟩
  calc (k.entries i).caps &&& fewer = (k.entries i).caps &&& (caps &&& fewer) := by rw [hle]
    _ = ((k.entries i).caps &&& caps) &&& fewer := (BitVec.and_assoc ..).symm
    _ = fewer := by rw [hcaps, hle]

lemma Descends.trans (hk : Descends k k') (hk' : Descends k' k'') : Descends k k'' :=
  fun o caps hgrants => hk o caps (hk' o caps hgrants)

lemma descends_of_kept (hkept : ∀ i, (k'.entries i).obj = (k.entries i).obj ∧
    (k'.entries i).caps = (k.entries i).caps) : Descends k k' := by
  rintro o caps ⟨i, hbd, hslot, hcaps⟩
  refine ⟨i, hbd, (hkept i).1.symm.trans hslot, ?_⟩
  rwa [← (hkept i).2]

lemma descends_of_entries (hents : k'.entries = k.entries) : Descends k k' :=
  descends_of_kept fun i => by rw [hents]; exact ⟨rfl, rfl⟩

lemma descends_alloc (hok : k.alloc (some o) caps = .ok (r, k')) (hgrants : k.Grants o caps) :
    Descends k k' := by
  obtain ⟨-, -, rfl⟩ | ⟨k1, hpub, href⟩ := alloc_ok hok
  · exact descends_of_entries rfl
  obtain ⟨idx, freelist, -, -, rfl⟩ := publish_eq_some.mp hpub
  rintro o' caps' ⟨i, hbd, hslot, hcaps⟩
  rw [slots, (table_of_kobjectRef href).1] at hslot
  rw [(table_of_kobjectRef href).1] at hcaps
  by_cases hi : i = idx
  · subst hi
    simp only [update_self, Option.some.injEq] at hslot hcaps
    subst hslot
    exact hgrants.mono hcaps
  · simp only [update_of_ne hi] at hslot hcaps
    exact ⟨i, hbd, hslot, hcaps⟩

lemma descends_dup (hok : k.dup h caps = .ok (r, k')) : Descends k k' := by
  obtain ⟨-, rfl⟩ | ⟨idx, o, hfind, hcaps, halloc⟩ := dup_ok hok
  · exact descends_of_entries rfl
  · exact descends_alloc halloc (grants_of_find hfind hcaps)

lemma descends_close (hok : k.close h = .ok k') : Descends k k' := by
  obtain ⟨-, rfl⟩ | ⟨idx, o, hfind, hunref⟩ := close_ok hok
  · exact descends_of_entries rfl
  rintro o' caps' ⟨i, hbd, hslot, hcaps⟩
  rw [slots, (table_of_kobjectUnref hunref).1] at hslot
  rw [(table_of_kobjectUnref hunref).1] at hcaps
  by_cases hi : i = idx
  · subst hi
    simp [retire] at hslot
  · simp only [retire, update_of_ne hi] at hslot hcaps
    exact ⟨i, hbd, hslot, hcaps⟩

end Kom

variable {s s' : System} {call : Syscall}

namespace System
/-- The calls that work on the handles of the starting table. -/
def NoCreate : System → Syscall → Prop
  | _, .komChannelCreate _ _ _ => False
  | _, _ => True

lemma descends_of_step (hstep : Step NoCreate s call s') : s.kom.Descends s'.kom := by
  obtain ⟨-, hcond, hexec⟩ := hstep
  cases call with
  | komDuplicate h requestedCaps =>
    obtain ⟨r, hok, -⟩ := exec_komDuplicate hexec
    exact Kom.descends_dup hok
  | komChannelCreate outA outB mem => exact hcond.elim
  | komChannelWrite h data handles mem =>
    obtain ⟨result, hok, -⟩ := exec_komChannelWrite hexec
    exact Kom.descends_of_kept (komChannelWrite_kept hok)
  | komChannelRead h args =>
    obtain ⟨outcome, hok, -⟩ := exec_komChannelRead hexec
    exact Kom.descends_of_entries (komChannelRead_table hok).1
  | wakeReader o args =>
    obtain ⟨outcome, hok, -⟩ := exec_wakeReader hexec
    exact Kom.descends_of_entries (readEndpoint_table hok).1
  | komClose h =>
    obtain ⟨hok, -⟩ := exec_komClose hexec
    exact Kom.descends_close hok

/-- Capabilities are not amplified: what a handle resolves with was granted by an entry of the
same object in the starting table. -/
theorem resolve_granted {s₀ : System} {calls : List Syscall}
    (hrun : Run (Step NoCreate) s₀ calls s) {h : BitVec 64} {reqCaps : BitVec 16} {o : Nat}
    {k : Kom} (hresolve : s.kom.resolve h reqCaps = .ok (some o, k)) :
    ∃ i, (0 < i ∧ i < capacity) ∧ (s₀.kom.entries i).obj = some o ∧
      (s₀.kom.entries i).caps &&& reqCaps = reqCaps := by
  have hdescends : s₀.kom.Descends s.kom :=
    Run.invariant (I := fun s => s₀.kom.Descends s.kom)
      (fun _ _ _ h hstep => h.trans (descends_of_step hstep)) hrun (Kom.descends_of_entries rfl)
  obtain ⟨hnone, -⟩ | ⟨idx, o', htarget, hfind, hcaps, -⟩ := resolve_ok hresolve
  · cases hnone
  · cases htarget
    exact hdescends o reqCaps (Kom.grants_of_find hfind hcaps)

instance (s : System) (call : Syscall) : Decidable (NoCreate s call) := by
  unfold NoCreate
  split <;> infer_instance

/-- A duplicate of one endpoint of a channel is sent over the channel and received. -/
def passDuplicate : List Syscall :=
  [.komDuplicate 0xC400000100000001 kapRead,
    .komChannelWrite 0xC400000100000001 (.items [7]) (.items [0x8000000100000003])
      ⟨true, true, true, true⟩,
    .komChannelRead 0xC400000100000002 ⟨some 8, some 4, true, true⟩,
    .komClose 0xC400000100000001]

def newChannel : Syscall := .komChannelCreate true true (some ⟨0, 1, 2⟩)

theorem passDuplicate_granted :
    ∃ s₀ s k, Run (Step NoCreate) s₀ passDuplicate s ∧
      s.kom.resolve 0x8000000200000003 kapRead = .ok (some 1, k) ∧
      ∃ i, (0 < i ∧ i < capacity) ∧ (s₀.kom.entries i).obj = some 1 ∧
        (s₀.kom.entries i).caps &&& kapRead = kapRead := by
  have hsome : ((step? (fun _ _ => True) (boot idleChannels)
      newChannel).any fun s₀ => (Run.exec (step? NoCreate) s₀ passDuplicate).any fun s =>
        (s.kom.resolve 0x8000000200000003 kapRead).toOption.any fun result =>
          decide (result.1 = some 1)) = true := by
    decide +kernel
  obtain ⟨s₀, -, hsome⟩ := (Option.any_eq_true _ _).mp hsome
  obtain ⟨s, hexec, hsome⟩ := (Option.any_eq_true _ _).mp hsome
  obtain ⟨⟨target, k⟩, hresolve, htarget⟩ := (Option.any_eq_true _ _).mp hsome
  have htarget : target = some 1 := of_decide_eq_true htarget
  subst htarget
  have hrun := Run.of_exec (fun _ _ _ => step_of_step?) hexec
  have hresolve := ok_of_toOption hresolve
  exact ⟨s₀, s, k, hrun, hresolve, resolve_granted hrun hresolve⟩

end System

namespace Kom
variable {o' idx i : Nat} {outA outB : Bool}

/-- The object has at most one handle, and no right to duplicate it. -/
structure Single (k : Kom) (o : Nat) : Prop where
  holders : k.holders o ≤ 1
  dupFree : ∀ i < capacity, k.slots i = some o → (k.entries i).caps &&& kapDup ≠ kapDup

lemma Single.of_kept (hk : Single k o) (hkept : ∀ i, (k'.entries i).obj = (k.entries i).obj ∧
    (k'.entries i).caps = (k.entries i).caps) : Single k' o := by
  have hslots : k'.slots = k.slots := funext fun i => (hkept i).1
  constructor
  · rw [Kom.holders, hslots]
    exact hk.holders
  intro i hi hslot
  rw [hslots] at hslot
  rw [(hkept i).2]
  exact hk.dupFree i hi hslot

lemma Single.congr (hk : Single k o) (hents : k'.entries = k.entries) : Single k' o :=
  hk.of_kept fun i => by rw [hents]; exact ⟨rfl, rfl⟩

lemma Single.alloc (hk : Single k o) (htable : TableOk k)
    (hok : k.alloc (some o') caps = .ok (r, k'))
    (hother : o' = o → k.holders o = 0 ∧ caps &&& kapDup ≠ kapDup) : Single k' o := by
  obtain ⟨-, -, rfl⟩ | ⟨k1, hpub, href⟩ := alloc_ok hok
  · exact hk
  refine Single.congr (k := k1) ⟨?_, fun i hlt hslot => ?_⟩ (table_of_kobjectRef href).1
  · have hcnt := htable.holders_publish hpub o
    have hle := hk.holders
    by_cases heq : o' = o
    · have h0 := (hother heq).1
      rw [heq, if_pos rfl] at hcnt
      omega
    · rw [if_neg (Ne.symm heq)] at hcnt
      omega
  · obtain ⟨idx, freelist, -, -, rfl⟩ := publish_eq_some.mp hpub
    unfold slots at hslot
    by_cases hi : i = idx
    · subst hi
      simp only [update_self, Option.some.injEq] at hslot ⊢
      exact (hother hslot).2
    · simp only [update_of_ne hi] at hslot ⊢
      exact hk.dupFree i hlt hslot

lemma Single.close (hk : Single k o) (hok : k.close h = .ok k') : Single k' o := by
  obtain ⟨-, rfl⟩ | ⟨idx, o', hfind, hunref⟩ := close_ok hok
  · exact hk
  obtain ⟨-, hbd, -, hslot⟩ := find_eq_some.mp hfind
  refine Single.congr (k := k.retire idx) ⟨?_, fun i hlt hfilled => ?_⟩
    (table_of_kobjectUnref hunref).1
  · have hcnt := holders_retire hbd.2 hslot o
    have hle := hk.holders
    omega
  rw [slots_retire] at hfilled
  rw [update_apply] at hfilled
  split_ifs at hfilled with hi
  simp only [retire, update_of_ne hi]
  exact hk.dupFree i hlt hfilled

lemma dup_right (hcaps : (k.entries idx).caps &&& caps = caps)
    (hasked : caps &&& kapDup = kapDup) : (k.entries idx).caps &&& kapDup = kapDup := by
  calc (k.entries idx).caps &&& kapDup = (k.entries idx).caps &&& (caps &&& kapDup) := by
        rw [hasked]
    _ = ((k.entries idx).caps &&& caps) &&& kapDup := (BitVec.and_assoc ..).symm
    _ = kapDup := by rw [hcaps, hasked]

lemma Single.dup (hk : Single k o) (htable : TableOk k) (hok : k.dup h caps = .ok (r, k'))
    (hasked : caps &&& kapDup = kapDup) : Single k' o := by
  obtain ⟨-, rfl⟩ | ⟨idx, o', hfind, hcaps, halloc⟩ := dup_ok hok
  · exact hk
  refine hk.alloc htable halloc fun heq => ?_
  obtain ⟨-, hbd, -, hslot⟩ := find_eq_some.mp hfind
  exact absurd (dup_right hcaps hasked) (hk.dupFree idx hbd.2 (heq ▸ hslot))

lemma transferAll_changed (hok : k.transferAll hs = .ok (rs, k'))
    (hchanged : k'.entries i ≠ k.entries i) :
    ∃ h ∈ hs, handleIndex h = i ∧ (k.slots i).isSome = true := by
  induction hs generalizing k rs with
  | nil =>
    cases hok
    exact absurd rfl hchanged
  | cons h hs ih =>
    obtain ⟨r, k1, rest, hhead, htail, -⟩ := transferAll_cons hok
    by_cases hsame : k1.entries i = k.entries i
    · rw [← hsame] at hchanged
      obtain ⟨h', hmem, hidx, hslot⟩ := ih htail hchanged
      rw [slots, hsame] at hslot
      exact ⟨h', List.mem_cons_of_mem h hmem, hidx, hslot⟩
    · cases hfind : k.find h with
      | none =>
        rw [(refused_of_find hfind).2.2.1] at hhead
        cases hhead
        exact absurd rfl hsame
      | some entry =>
        obtain ⟨-, hents, -⟩ := transfer_entries hhead hfind
        obtain ⟨hidx, -, -, hslot⟩ := find_eq_some.mp hfind
        have hi : i = entry.1 := by
          by_contra hne
          rw [hents, update_of_ne hne] at hsame
          exact hsame rfl
        refine ⟨h, List.mem_cons_self, hidx.trans hi.symm, ?_⟩
        rw [hi, hslot]
        rfl

lemma komChannelWrite_changed (hok : k.komChannelWrite h data handles mem = .ok (result, k'))
    (hchanged : k'.entries i ≠ k.entries i) :
    ∃ h ∈ handles.toList, handleIndex h = i ∧ (k.slots i).isSome = true := by
  obtain ⟨⟨target, k1⟩, hresolve, hok⟩ := ok_of_bind hok
  have hents := (resolve_table hresolve).1
  rw [← hents] at hchanged
  rw [← slots_congr hents]
  cases target with
  | none =>
    cases hok
    exact absurd rfl hchanged
  | some o =>
    obtain ⟨obj, -, ⟨-, -, hunref⟩ | ⟨-, -, -, hunref⟩ | ⟨-, sent, k2, hmove, -, hunref⟩⟩ :=
      writeEndpoint_ok hok
    · rw [(table_of_kobjectUnref hunref).1] at hchanged
      exact absurd rfl hchanged
    · rw [(table_of_kobjectUnref hunref).1] at hchanged
      exact absurd rfl hchanged
    · rw [(table_of_kobjectUnref hunref).1, (endpointWrite_table ..).1] at hchanged
      obtain ⟨rfl, -⟩ | ⟨rfl, -⟩ | ⟨rs, hall, -⟩ := moveHandles_ok hmove
      · exact absurd rfl hchanged
      · exact absurd rfl hchanged
      · exact transferAll_changed hall hchanged

/-- The handle that `alloc` returns names the new entry. -/
lemma find_of_alloc (htable : TableOk k) (hok : k.alloc (some o) caps = .ok (r, k'))
    (hne : r ≠ 0) : ∃ idx, k'.find r = some (idx, o) ∧ (k'.entries idx).caps = caps ∧
      handleCaps r = caps ∧ k.slots idx = none := by
  obtain ⟨-, h0, -⟩ | ⟨k1, hpub, href⟩ := alloc_ok hok
  · exact absurd h0 hne
  obtain ⟨-, hbd, hslots, hempty, hr⟩ := htable.publish hpub
  have hents := (table_of_kobjectRef href).1
  have hlt : handleIndex r < 2 ^ 32 := hbd.2.trans (by decide)
  have hentry : k'.entries (handleIndex r) =
      ⟨some o, caps, (k.entries (handleIndex r)).generation⟩ := by
    rw [hents]
    obtain ⟨idx, freelist, -, -, rfl⟩ := publish_eq_some.mp hpub
    have hi : handleIndex r = idx := by
      by_contra hne
      have hfilled := congrFun hslots (handleIndex r)
      rw [update_self, slots] at hfilled
      simp only [update_of_ne hne] at hfilled
      cases hempty.symm.trans hfilled
    rw [hi]
    exact update_self ..
  refine ⟨handleIndex r, find_eq_some.mpr ⟨rfl, hbd, ?_, ?_⟩, by rw [hentry], ?_, hempty⟩
  · rw [hentry, hr, handleGeneration_makeHandle _ _ hlt, ← hr]
  · rw [slots, hentry]
  · rw [hr, handleCaps_makeHandle _ _ hlt]

/-- `alloc` leaves the entries alone that are in use. -/
lemma alloc_keeps (htable : TableOk k) (hok : k.alloc (some o) caps = .ok (r, k'))
    (hfull : k.slots i ≠ none) : k'.entries i = k.entries i := by
  obtain ⟨-, -, rfl⟩ | ⟨k1, hpub, href⟩ := alloc_ok hok
  · rfl
  rw [(table_of_kobjectRef href).1]
  obtain ⟨idx, freelist, hfree, -, rfl⟩ := publish_eq_some.mp hpub
  have hmem : idx ∈ k.freelist := hfree ▸ List.mem_cons_self
  have hne : i ≠ idx := by
    rintro rfl
    exact hfull ((htable.free.mem_iff i).mp hmem).2
  exact update_of_ne hne ..

section
variable {mem : Option ChannelMemory} {result : CreateResult} (htable : TableOk k)
  (hok : k.komChannelCreate outA outB mem = .ok (result, k'))
include htable hok

lemma komChannelCreate_handles (hr : r = result.a ∨ r = result.b) (hne : r ≠ 0) :
    ∃ idx o, k'.find r = some (idx, o) ∧ (k'.entries idx).caps = channelCaps ∧
      handleCaps r = channelCaps := by
  obtain ⟨-, -, ha, hb⟩ | ⟨new, k1, k2, k3, -, -, ha, hb, hunref, hunref'⟩ :=
    komChannelCreate_ok hok
  · rw [ha, hb, or_self] at hr
    exact absurd hr hne
  have hk : TableOk (k.kchannelCreate new) := htable.congr rfl rfl
  have hents : k'.entries = k2.entries :=
    (table_of_kobjectUnref hunref').1.trans (table_of_kobjectUnref hunref).1
  rw [find_congr hents, hents]
  obtain rfl | rfl := hr
  · obtain ⟨idx, hfind, hcaps, hbits, -⟩ := find_of_alloc hk ha hne
    obtain ⟨hidx, hbd, hgen, hslot⟩ := find_eq_some.mp hfind
    have hkeep : k2.entries idx = k1.entries idx :=
      alloc_keeps (hk.alloc ha) hb (by rw [hslot]; exact Option.some_ne_none _)
    refine ⟨idx, new.a, find_eq_some.mpr ⟨hidx, hbd, ?_, ?_⟩, ?_, hbits⟩
    · rw [hkeep, hgen]
    · rwa [slots, hkeep]
    · rw [hkeep, hcaps]
  · obtain ⟨idx, hfind, hcaps, hbits, -⟩ := find_of_alloc (hk.alloc ha) hb hne
    exact ⟨idx, new.b, hfind, hcaps, hbits⟩

lemma Single.komChannelCreate (hk : Single k o)
    (hnew : ∀ new ∈ mem, new.a ≠ new.b ∧ (new.a = o ∨ new.b = o → k.holders o = 0)) :
    Single k' o := by
  obtain ⟨rfl, -⟩ | ⟨new, k1, k2, k3, rfl, -, ha, hb, hunref, hunref'⟩ := komChannelCreate_ok hok
  · exact hk
  obtain ⟨hne, hfirst⟩ := hnew new rfl
  have hcaps : channelCaps &&& kapDup ≠ kapDup := by decide
  have hk0 : Single (k.kchannelCreate new) o := hk.congr rfl
  have htable0 : TableOk (k.kchannelCreate new) := htable.congr rfl rfl
  have hk1 : Single k1 o := hk0.alloc htable0 ha fun heq => ⟨hfirst (.inl heq), hcaps⟩
  have hk2 : Single k2 o := by
    refine hk1.alloc (htable0.alloc ha) hb fun heq => ⟨?_, hcaps⟩
    -- the first of the two handles is one of the other endpoint
    have h0 : (k.kchannelCreate new).holders o = 0 := hfirst (.inr heq)
    obtain ⟨-, -, rfl⟩ | ⟨k4, hpub, href⟩ := alloc_ok ha
    · exact h0
    · rw [holders_congr (table_of_kobjectRef href).1, htable0.holders_publish hpub, h0,
        if_neg fun hsame => hne (hsame.symm.trans heq.symm)]
  exact (hk2.congr (table_of_kobjectUnref hunref).1).congr (table_of_kobjectUnref hunref').1

end

end Kom

/-- The call creates an endpoint at the address. -/
def Syscall.Creates (o : Nat) : Syscall → Prop
  | .komChannelCreate _ _ (some mem) => mem.a = o ∨ mem.b = o
  | _ => False

namespace System
/-- A duplicate is asked for with the right to duplicate; a handle that is passed on has the
right to be transferred among its bits, and these bits are those of its entry. -/
def Guarded (s : System) : Syscall → Prop
  | .komDuplicate _ requestedCaps => requestedCaps &&& kapDup = kapDup
  | .komChannelWrite _ _ handles _ => ∀ h ∈ handles.toList,
      (s.kom.slots (handleIndex h)).isSome = true →
        handleCaps h = (s.kom.entries (handleIndex h)).caps ∧ handleCaps h &&& kapXfer = kapXfer
  | _ => True

/-- Entries are duplicated and moved only with the right for it. The handles of a new channel
can be transferred and not duplicated, and each of its endpoints has one handle at most. -/
structure RightsEnforced (s : System) : Prop where
  duplicate : ∀ h requestedCaps s', Step Guarded s (.komDuplicate h requestedCaps) s' →
    s'.kom.entries ≠ s.kom.entries → ∃ idx o, s.kom.find h = some (idx, o) ∧
      (s.kom.entries idx).caps &&& kapDup = kapDup
  write : ∀ h data handles mem s', Step Guarded s (.komChannelWrite h data handles mem) s' →
    ∀ i, s'.kom.entries i ≠ s.kom.entries i → (s.kom.entries i).caps &&& kapXfer = kapXfer
  create : ∀ outA outB mem result k, s.kom.komChannelCreate outA outB mem = .ok (result, k) →
    ∀ r, r = result.a ∨ r = result.b → r ≠ 0 → ∃ idx o, k.find r = some (idx, o) ∧
      (k.entries idx).caps &&& kapXfer = kapXfer ∧ (k.entries idx).caps &&& kapDup = 0
  once : ∀ outA outB mem s₁ calls s₂ o, mem.a = o ∨ mem.b = o → s.kom.holders o = 0 →
    Step Guarded s (.komChannelCreate outA outB (some mem)) s₁ →
    Run (Step fun s call => s.Guarded call ∧ ¬call.Creates o) s₁ calls s₂ →
      s₂.kom.holders o ≤ 1

lemma single_of_step (htable : s.kom.TableOk) (hs : s.kom.Single o)
    (hstep : Step (fun s call => s.Guarded call ∧ ¬call.Creates o) s call s') :
    s'.kom.Single o := by
  obtain ⟨hallow, ⟨hguarded, hcreates⟩, hexec⟩ := hstep
  cases call with
  | komDuplicate h requestedCaps =>
    obtain ⟨r, hok, -⟩ := exec_komDuplicate hexec
    exact hs.dup htable hok hguarded
  | komChannelCreate outA outB mem =>
    obtain ⟨result, hok, -⟩ := exec_komChannelCreate hexec
    refine hs.komChannelCreate htable hok fun new hnew => ?_
    cases hnew
    exact ⟨hallow.2.2.1, fun heq => absurd heq hcreates⟩
  | komChannelWrite h data handles mem =>
    obtain ⟨result, hok, -⟩ := exec_komChannelWrite hexec
    exact hs.of_kept (komChannelWrite_kept hok)
  | komChannelRead h args =>
    obtain ⟨outcome, hok, -⟩ := exec_komChannelRead hexec
    exact hs.congr (komChannelRead_table hok).1
  | wakeReader o args =>
    obtain ⟨outcome, hok, -⟩ := exec_wakeReader hexec
    exact hs.congr (readEndpoint_table hok).1
  | komClose h =>
    obtain ⟨hok, -⟩ := exec_komClose hexec
    exact hs.close hok

lemma holders_le_one (htable : s.kom.TableOk) (h0 : s.kom.holders o = 0)
    (hcreate : Step Guarded s (.komChannelCreate outA outB (some mem)) s₁)
    (hrun : Run (Step fun s call => s.Guarded call ∧ ¬call.Creates o) s₁ calls s₂) :
    s₂.kom.holders o ≤ 1 := by
  obtain ⟨hallow, -, hexec⟩ := hcreate
  obtain ⟨result, hok, -⟩ := exec_komChannelCreate hexec
  have hempty : s.kom.Single o := by
    refine ⟨by omega, fun i hi hslot => ?_⟩
    have hnone := slotCount_eq_zero.mp h0 i hi
    simp [hslot] at hnone
  have hsingle : s₁.kom.Single o := by
    refine hempty.komChannelCreate htable hok fun new hnew => ?_
    cases hnew
    exact ⟨hallow.2.2.1, fun _ => h0⟩
  have hI : s₂.kom.TableOk ∧ s₂.kom.Single o :=
    Run.invariant (I := fun s => s.kom.TableOk ∧ s.kom.Single o)
      (fun _ _ _ h hstep => ⟨table_of_exec h.1 hstep.2.2, single_of_step h.1 h.2 hstep⟩) hrun
      ⟨table_of_exec htable hexec, hsingle⟩
  exact hI.2.holders

/-- In every sequence of calls that ask for the rights they need, these rights are enforced. -/
theorem rightsEnforced_run {s₀ : System} {calls : List Syscall} (htable : s₀.kom.TableOk)
    (hrun : Run (Step Guarded) s₀ calls s) : s.RightsEnforced := by
  have htable : s.kom.TableOk :=
    Run.invariant (I := fun s => s.kom.TableOk) (fun _ _ _ h hstep => table_of_exec h hstep.2.2)
      hrun htable
  refine ⟨?_, ?_, ?_, ?_⟩
  · rintro h requestedCaps s' ⟨-, hguarded, hexec⟩ hchanged
    obtain ⟨r, hok, -⟩ := exec_komDuplicate hexec
    obtain ⟨-, heq⟩ | ⟨idx, o, hfind, hcaps, -⟩ := Kom.dup_ok hok
    · rw [heq] at hchanged
      exact absurd rfl hchanged
    · exact ⟨idx, o, hfind, Kom.dup_right hcaps hguarded⟩
  · rintro h data handles mem s' ⟨-, hguarded, hexec⟩ i hchanged
    obtain ⟨result, hok, -⟩ := exec_komChannelWrite hexec
    obtain ⟨h', hmem, rfl, hslot⟩ := Kom.komChannelWrite_changed hok hchanged
    obtain ⟨hbits, hxfer⟩ := hguarded h' hmem hslot
    rwa [← hbits]
  · intro outA outB mem result k hok r hr hne
    obtain ⟨idx, o, hfind, hcaps, -⟩ := Kom.komChannelCreate_handles htable hok hr hne
    refine ⟨idx, o, hfind, ?_, ?_⟩
    · rw [hcaps]
      decide
    · rw [hcaps]
      decide
  · intro outA outB mem s₁ calls s₂ o _ h0 hcreate hrun
    exact holders_le_one htable h0 hcreate hrun

instance (s : System) : (call : Syscall) → Decidable (s.Guarded call)
  | .komDuplicate _ requestedCaps => inferInstanceAs (Decidable (requestedCaps &&& kapDup = kapDup))
  | .komChannelWrite _ _ handles _ => List.decidableBAll (fun h =>
    (s.kom.slots (handleIndex h)).isSome = true →
      handleCaps h = (s.kom.entries (handleIndex h)).caps ∧
        handleCaps h &&& kapXfer = kapXfer) handles.toList
  | .komChannelCreate _ _ _ | .komChannelRead _ _ | .wakeReader _ _ | .komClose _ => isTrue trivial

/-- The second endpoint is sent to itself; a duplicate with the right to duplicate is refused. -/
def passEndpoint : List Syscall :=
  [newChannel, .komDuplicate 0xC400000100000001 (kapRead ||| kapDup),
    .komChannelWrite 0xC400000100000001 (.items [7]) (.items [0xC400000100000002])
      ⟨true, true, true, true⟩]

theorem passEndpoint_enforced :
    ∃ s, Run (Step Guarded) (boot Session.idleChannels) passEndpoint s ∧ s.RightsEnforced ∧
      s.kom.find 0xC400000200000002 = some (2, 2) ∧ s.kom.find 0xC400000100000002 = none := by
  refine Run.exists_of_exec (P := fun s => s.kom.find 0xC400000200000002 = some (2, 2) ∧
    s.kom.find 0xC400000100000002 = none) (fun _ _ _ => step_of_step?) (by decide +kernel) ?_
  intro s hrun hfind
  exact ⟨rightsEnforced_run (inv_init _).table hrun, hfind⟩

/-- A new endpoint is duplicated without the right to duplicate it, and the duplicate is moved
into a message without the right to transfer it. -/
theorem rights_not_checked :
    ∃ s₁ s₂ s₃, Step (fun _ _ => True) (boot Session.idleChannels) newChannel s₁ ∧
      s₁.kom.find 0xC400000100000001 = some (1, 1) ∧ (s₁.kom.entries 1).caps &&& kapDup = 0 ∧
      Step (fun _ _ => True) s₁ (.komDuplicate 0xC400000100000001 kapRead) s₂ ∧
      s₂.kom.find 0xC400000100000001 = some (1, 1) ∧
      s₂.kom.find 0x8000000100000003 = some (3, 1) ∧ (s₂.kom.entries 3).caps &&& kapXfer = 0 ∧
      Step (fun _ _ => True) s₂ (.komChannelWrite 0xC400000100000001 (.items [7])
        (.items [0x8000000100000003]) ⟨true, true, true, true⟩) s₃ ∧
      s₃.kom.find 0x8000000100000003 = none ∧
      (s₃.kom.channels 0).queue true = [⟨[7], [0x8000000200000003]⟩] := by
  have hsome : ((step? (fun _ _ => True) (boot idleChannels) newChannel).any fun s₁ =>
      decide (s₁.kom.find 0xC400000100000001 = some (1, 1) ∧
        (s₁.kom.entries 1).caps &&& kapDup = 0) &&
      (step? (fun _ _ => True) s₁ (.komDuplicate 0xC400000100000001 kapRead)).any fun s₂ =>
        decide (s₂.kom.find 0xC400000100000001 = some (1, 1) ∧
          s₂.kom.find 0x8000000100000003 = some (3, 1) ∧
          (s₂.kom.entries 3).caps &&& kapXfer = 0) &&
        (step? (fun _ _ => True) s₂ (.komChannelWrite 0xC400000100000001 (.items [7])
          (.items [0x8000000100000003]) ⟨true, true, true, true⟩)).any fun s₃ =>
            decide (s₃.kom.find 0x8000000100000003 = none ∧
              (s₃.kom.channels 0).queue true = [⟨[7], [0x8000000200000003]⟩])) = true := by
    decide +kernel
  obtain ⟨s₁, hcreate, hsome⟩ := (Option.any_eq_true _ _).mp hsome
  obtain ⟨hnew, hsome⟩ := (Bool.and_eq_true _ _).mp hsome
  obtain ⟨hfind, hcaps⟩ := of_decide_eq_true hnew
  obtain ⟨s₂, hdup, hsome⟩ := (Option.any_eq_true _ _).mp hsome
  obtain ⟨hdoubled, hsome⟩ := (Bool.and_eq_true _ _).mp hsome
  obtain ⟨hold, hnew, hxfer⟩ := of_decide_eq_true hdoubled
  obtain ⟨s₃, hwrite, hmoved⟩ := (Option.any_eq_true _ _).mp hsome
  exact ⟨s₁, s₂, s₃, step_of_step? hcreate, hfind, hcaps, step_of_step? hdup, hold, hnew, hxfer,
    step_of_step? hwrite, of_decide_eq_true hmoved⟩

end System

namespace Session

variable {s : Session}

/-- A handle for an object is refused only by a full table. It names the object until it is
closed, which leaves slots and reference counts as they were; other entries are not touched. -/
theorem handle_roundTrip_of_run {channels : Nat → ChannelState} {ops : List TableOp}
    (hrun : Run (Step Bounded) (init channels) ops s) (hout : 0 < s.outside o)
    (hlt : s.kom.refs o + 1 < 2 ^ 32) (caps : BitVec 16) :
    ∃ h k, s.kom.alloc (some o) caps = .ok (h, k) ∧
      (h = 0 ↔ ∀ i, 0 < i → i < capacity → s.kom.slots i ≠ none) ∧
      (h ≠ 0 → s.kom.find h = none ∧
        (∃ idx, k.find h = some (idx, o) ∧ (k.entries idx).caps = caps ∧ handleCaps h = caps) ∧
        (∀ i, s.kom.slots i ≠ none → k.entries i = s.kom.entries i) ∧
        ∃ k', k.close h = .ok k' ∧ k'.slots = s.kom.slots ∧ k'.refs = s.kom.refs) := by
  have hI := inv_run hrun
  have hpos : 0 < s.expected o := Nat.add_pos_left (Nat.add_pos_left hout _) _
  rw [hI.refs.count] at hlt
  obtain ⟨h, k, halloc, hI'⟩ := hI.alloc hpos hlt caps
  refine ⟨h, k, halloc, ?_⟩
  obtain ⟨hnone, rfl, -⟩ | ⟨k1, hpub, href⟩ := alloc_ok halloc
  · have hfree : s.kom.freelist = [] := by
      unfold Kom.publish at hnone
      split at hnone
      case h_1 hfree => exact hfree
      · cases hnone
    refine ⟨iff_of_true rfl fun i h0 hi hempty => ?_, fun hne => absurd rfl hne⟩
    have hmem := (hI.table.free.mem_iff i).mpr ⟨⟨h0, hi⟩, hempty⟩
    rw [hfree] at hmem
    cases hmem
  obtain ⟨-, hbd, hslots, hempty, -⟩ := hI.table.publish hpub
  rw [← slots_congr (table_of_kobjectRef href).1] at hslots
  have hne : h ≠ 0 := by
    rintro rfl
    exact absurd hbd.1 (by decide)
  refine ⟨iff_of_false hne fun hfull => hfull _ hbd.1 hbd.2 hempty, fun _ => ?_⟩
  obtain ⟨idx, hfind, hcaps, hhandle, -⟩ := find_of_alloc hI.table halloc hne
  obtain ⟨rfl, -⟩ := find_eq_some.mp hfind
  obtain ⟨k', hclose, hI''⟩ := hI'.close hfind
  have hback : k'.slots = s.kom.slots := by
    simp only [Kom.close, hfind] at hclose
    rw [slots_congr (table_of_kobjectUnref hclose).1, slots_retire, hslots, update_idem, ← hempty,
      update_eq_self]
  refine ⟨?_, ⟨_, hfind, hcaps, hhandle⟩, fun i hi => alloc_keeps hI.table halloc hi, k', hclose,
    hback, funext fun o' => ?_⟩
  · rw [Option.eq_none_iff_forall_ne_some]
    rintro ⟨idx, o'⟩ hfound
    obtain ⟨rfl, -, -, hslot⟩ := find_eq_some.mp hfound
    cases hempty.symm.trans hslot
  · rw [hI''.refs.count, hI.refs.count]
    simp only [expected, Kom.holders, hback]

theorem handle_roundTrip_twoHandles :
    ∃ s, Run (Step Bounded) (init idleChannels) twoHandles s ∧ ∃ h k,
      s.kom.alloc (some 1) kapRead = .ok (h, k) ∧
        (h = 0 ↔ ∀ i, 0 < i → i < capacity → s.kom.slots i ≠ none) := by
  refine Run.exists_of_exec (P := fun s => 0 < s.outside 1 ∧ s.kom.refs 1 + 1 < 2 ^ 32)
    (fun _ _ _ => step_of_step?) (by decide +kernel) fun s hrun ⟨hout, hlt⟩ => ?_
  obtain ⟨h, k, halloc, hfull, -⟩ := handle_roundTrip_of_run hrun hout hlt kapRead
  exact ⟨h, k, halloc, hfull⟩

end Session

end Singularity.ObjectManager
