import Singularity.ObjectManager.Sends

/-!
# Handles in messages

The entries of the table are reached from the handles of the callers and from the messages that
are queued for an open endpoint, one that a handle names. The calls of the object manager are
sequences of smaller steps: a reference is taken or dropped, an entry filled or emptied, a message
queued or removed. Each keeps the invariant, where `extra` counts the references that are held by
calls and by blocked readers.
-/

namespace Singularity.ObjectManager

open Foundation Function List

namespace ChannelState

/-- A reader with these sizes removes the first message. -/
def takes (c : ChannelState) (id : Bool) (args : ReadArgs) : Bool :=
  match args.dataSize, args.handleCount, c.queue id with
  | some dataSize, some handleCount, msg :: _ =>
    decide (¬(dataSize < msg.data.length ∨ handleCount < msg.handles.length))
  | _, _, _ => false

end ChannelState

variable {s : System}

namespace Kom

/-- The channel and the side of an endpoint that exists. -/
def endpoint (k : Kom) (o : Nat) : Option (Nat × Bool) :=
  ((k.objects o).map KObject.shape).bind fun shape =>
    if shape.1 = .channel then some shape.2 else none

/-- The messages that are queued for an endpoint. -/
def inbox (k : Kom) (e : Nat × Bool) : List KMessage := (k.channels e.1).queue e.2

/-- None of the handles in the messages is valid. -/
def spent (k : Kom) (msgs : List KMessage) : Bool :=
  msgs.all fun msg => msg.handles.all fun v => (k.lookup v).isNone

/-- The handle of an entry. -/
def entryHandle (k : Kom) (i : Nat) : BitVec 64 :=
  makeHandle (k.entries i).caps (k.entries i).generation i

/-- Some entry of the table names the endpoint. An endpoint whose handles are closed may still
exist, because a reader or a lost reference keeps its object; it is not open. -/
def Open (k : Kom) (e : Nat × Bool) : Prop := ∃ i < capacity, (k.slots i).bind k.endpoint = some e

/-- The handle was returned to a caller, or it is in a message for an open endpoint. -/
def Reached (k : Kom) (owned : List (BitVec 64)) (v : BitVec 64) : Prop :=
  v ∈ owned ∨ ∃ e, k.Open e ∧ ∃ msg ∈ k.inbox e, v ∈ msg.handles

/-- The endpoints that exist and the flags and counts of their channels. -/
structure Wired (k : Kom) : Prop where
  unique : ∀ o o' e, k.endpoint o = some e → k.endpoint o' = some e → o = o'
  own : ∀ o e, k.endpoint o = some e → (k.channels e.1).closed e.2 = false
  count : ∀ o e, k.endpoint o = some e →
    (k.channels e.1).refCount = if (k.channels e.1).closed (!e.2) then 1 else 2

/-- Every entry is reached, and the references cover the entries and the calls. -/
structure Delivery (k : Kom) (extra : Nat → Nat) (owned : List (BitVec 64)) : Prop where
  table : k.TableOk
  refs : k.RefsOk k.refs
  held : ∀ o, k.holders o + extra o ≤ k.refs o
  wired : k.Wired
  reached : ∀ i < capacity, ∀ o, k.slots i = some o → k.Reached owned (k.entryHandle i)

variable {k k' : Kom} {o : Nat} {owned : List (BitVec 64)}

lemma endpoint_eq_some : k.endpoint o = some e ↔
    ∃ obj, k.objects o = some obj ∧ obj.type = .channel ∧ (obj.state, obj.myId) = e := by
  unfold endpoint
  cases k.objects o with
  | none => simp
  | some obj => simp [KObject.shape]

lemma endpoint_of_shape
    (hshape : (k'.objects o).map KObject.shape = (k.objects o).map KObject.shape) :
    k'.endpoint o = k.endpoint o := by
  rw [endpoint, endpoint, hshape]

lemma Wired.congr (hk : k.Wired) (hendpoint : ∀ o, k'.endpoint o = k.endpoint o)
    (hflags : ∀ c, (k'.channels c).closed = (k.channels c).closed ∧
      (k'.channels c).refCount = (k.channels c).refCount) : k'.Wired := by
  have hclosed (c : Nat) := (hflags c).1
  have hcnt (c : Nat) := (hflags c).2
  constructor
  · simpa only [hendpoint] using hk.unique
  · simpa only [hendpoint, hclosed] using hk.own
  · simpa only [hendpoint, hclosed, hcnt] using hk.count

lemma flags_update (hclosed : ch.closed = (k.channels c).closed)
    (hcnt : ch.refCount = (k.channels c).refCount) (c' : Nat) :
    (update k.channels c ch c').closed = (k.channels c').closed ∧
      (update k.channels c ch c').refCount = (k.channels c').refCount := by
  rw [update_apply]
  split_ifs with heq
  · exact heq ▸ ⟨hclosed, hcnt⟩
  · exact ⟨rfl, rfl⟩

lemma Wired.frame (hk : k.Wired) (hframe : Frame k k') : k'.Wired :=
  hk.congr (fun o => endpoint_of_shape (hframe.shape o)) fun c => by simp [hframe.channels]

lemma open_iff : k.Open e ↔ ∃ i < capacity, ∃ o, k.slots i = some o ∧ k.endpoint o = some e := by
  simp only [Open, Option.bind_eq_some_iff]

/-- An endpoint stays open if its entry and its object stay. -/
lemma Open.mono (he : k.Open e) (hkeeps : ∀ i o, k.slots i = some o → k.endpoint o = some e →
    k'.slots i = some o ∧ k'.endpoint o = some e) : k'.Open e := by
  obtain ⟨i, hi, o, hslot, ho⟩ := open_iff.mp he
  exact open_iff.mpr ⟨i, hi, o, hkeeps i o hslot ho⟩

lemma Reached.frame (hv : k.Reached owned v) (hframe : Frame k k')
    (hslots : ∀ i o, k.slots i = some o → k'.slots i = some o) (hsub : owned ⊆ owned') :
    k'.Reached owned' v := by
  obtain hv | ⟨e, he, msg, hmsg, hv⟩ := hv
  · exact .inl (hsub hv)
  refine .inr ⟨e, he.mono fun i o hslot ho => ⟨hslots i o hslot, ?_⟩, msg, ?_, hv⟩
  · rw [endpoint_of_shape (hframe.shape o), ho]
  · rwa [inbox, hframe.channels]

lemma spent_iff : k.spent msgs = true ↔ ∀ msg ∈ msgs, ∀ v ∈ msg.handles, k.lookup v = none := by
  simp [spent]

lemma spent_congr (hents : k'.entries = k.entries) : k'.spent msgs = k.spent msgs := by
  simp only [spent, lookup, find_congr hents, hents]

lemma index_entryHandle (k : Kom) (hi : i < capacity) : handleIndex (k.entryHandle i) = i :=
  handleIndex_makeHandle _ _ (hi.trans (by decide))

lemma lookup_entryHandle (hi : 0 < i ∧ i < capacity) (ho : k.slots i = some o) :
    k.lookup (k.entryHandle i) = some (o, (k.entries i).caps) := by
  rw [lookup_slot hi ho (k.index_entryHandle hi.2), entryHandle,
    handleGeneration_makeHandle _ _ (hi.2.trans (by decide)), if_pos rfl]

lemma TableOk.pos (hk : k.TableOk) (ho : k.slots i = some o) : 0 < i := by
  by_contra h0
  rw [Nat.eq_zero_of_not_pos h0, hk.zero] at ho
  cases ho

lemma mem_without (hv : v ∈ s.owned) (hother : ∀ h ∈ gone, sameEntry v h = false) :
    v ∈ s.without gone := by
  apply mem_filter.mpr
  refine ⟨hv, ?_⟩
  rw [Bool.not_eq_true', any_eq_false]
  intro h hh
  rw [hother h hh]
  decide

lemma mem_without_singleton (hv : v ∈ s.owned)
    (hother : sameEntry v h = false) : v ∈ s.without [h] :=
  mem_without hv (by simpa using hother)

lemma sameEntry_of_index_ne (hne : handleIndex v ≠ handleIndex h) : sameEntry v h = false := by
  simp [sameEntry, hne]

variable {extra : Nat → Nat}

section
section
variable (hk : Delivery k extra owned)
include hk

lemma Delivery.sound : k.Sound := by
  refine ⟨hk.table, hk.refs, fun i hi o hslot => ?_⟩
  have hpos : 0 < k.holders o := slotCount_pos hi (by simp [hslot])
  have hheld := hk.held o
  omega

lemma Delivery.frame (hframe : Frame k k') (hents : k'.entries = k.entries) (htab : k'.TableOk)
    (hrefs : k'.RefsOk k'.refs) (hheld : ∀ o, k.holders o + extra' o ≤ k'.refs o) :
    Delivery k' extra' owned := by
  refine ⟨htab, hrefs, fun o => ?_, hk.wired.frame hframe, ?_⟩
  · rw [holders_congr hents]
    exact hheld o
  intro i hi o hslot
  rw [slots_congr hents] at hslot
  rw [entryHandle, hents]
  refine (hk.reached i hi o hslot).frame hframe (fun j o' hj => ?_) (List.Subset.refl _)
  rw [slots_congr hents, hj]

lemma Delivery.mono (hsub : owned ⊆ owned') : Delivery k extra owned' :=
  ⟨hk.table, hk.refs, hk.held, hk.wired, fun i hi o hslot =>
    (hk.reached i hi o hslot).frame (Frame.refl k) (fun _ _ hj => hj) hsub⟩

omit hk in
lemma RefsOk.pos_of_kobjectRef {refs : Nat → Nat} (hk : k.RefsOk refs)
    (hok : k.kobjectRef o = .ok k') : 0 < refs o := by
  apply Nat.pos_of_ne_zero
  intro h0
  rw [Kom.kobjectRef, hk.objects_eq_none.mpr h0] at hok
  cases hok

lemma Delivery.kobjectRef (hok : k.kobjectRef o = .ok k')
    (hlt : k.refs o + 1 < 2 ^ 32) : Delivery k' (update extra o (extra o + 1)) owned := by
  obtain ⟨k1, hok1, hrefs, hents, hfree, -⟩ :=
    hk.refs.kobjectRef (hk.refs.pos_of_kobjectRef hok) hlt
  cases hok.symm.trans hok1
  refine hk.frame (frame_of_kobjectRef hok) hents (hk.table.congr hents hfree)
    ⟨fun _ => rfl, hrefs.live⟩ fun o' => ?_
  have hheld := hk.held o'
  grind [hrefs.count, update_apply]

end

variable {r : BitVec 64} {caps : BitVec 16}

/-- The destructor of an endpoint leaves the other ones as they are. -/
lemma Wired.delete (hk : k.Wired) (ho : k.endpoint o = some e)
    (hendpoint : ∀ o', k'.endpoint o' = if o' = o then none else k.endpoint o')
    (hchans : k'.channels = update k.channels e.1 ((k.channels e.1).closeEndpoint e.2)) :
    k'.Wired := by
  have hold {o' : Nat} {e' : Nat × Bool} (ho' : k'.endpoint o' = some e') :
      o' ≠ o ∧ k.endpoint o' = some e' := by
    rw [hendpoint] at ho'
    split at ho' <;> simp_all
  -- the other endpoint of the channel, or an endpoint of another channel
  have hcases {o' : Nat} {e' : Nat × Bool} (ho' : k'.endpoint o' = some e') :
      e' = (e.1, !e.2) ∨ e'.1 ≠ e.1 := by
    obtain ⟨hne, ho'⟩ := hold ho'
    by_cases hstate : e'.1 = e.1
    · left
      refine Prod.ext hstate ?_
      cases hid : e'.2 <;> cases hid' : e.2 <;> try rfl
      all_goals
        exact absurd (hk.unique o' o e (by rw [ho', Prod.ext hstate (hid.trans hid'.symm)]) ho) hne
    · exact .inr hstate
  have hown := hk.own o e ho
  constructor
  · intro o1 o2 e' ho1 ho2
    exact hk.unique o1 o2 e' (hold ho1).2 (hold ho2).2
  · intro o' e' ho'
    have hopen := hk.own o' e' (hold ho').2
    obtain rfl | hstate := hcases ho'
    · simpa [hchans, ChannelState.closeEndpoint] using hopen
    · simpa [hchans, hstate] using hopen
  · intro o' e' ho'
    have hcnt := hk.count o' e' (hold ho').2
    obtain rfl | hstate := hcases ho'
    · simp only [Bool.not_not, hown] at hcnt
      simp [hchans, ChannelState.closeEndpoint, hcnt]
    · rwa [hchans, update_of_ne hstate]

lemma endpoint_delete (obj : KObject) (o' : Nat) :
    (k.delete o obj).endpoint o' = if o' = o then none else k.endpoint o' := by
  have hobjects : (k.delete o obj).objects = update k.objects o none := by
    unfold Kom.delete
    split <;> rfl
  unfold endpoint
  rw [hobjects]
  by_cases heq : o' = o
  · simp [heq]
  · simp [heq]

lemma inbox_delete (hk : k.Wired) (hobj : k.objects o = some obj)
    (ho' : k.endpoint o' = some e) (hne : o' ≠ o) : (k.delete o obj).inbox e = k.inbox e := by
  unfold Kom.delete
  split
  case isFalse => rfl
  case isTrue htype =>
    have ho : k.endpoint o = some (obj.state, obj.myId) :=
      endpoint_eq_some.mpr ⟨obj, hobj, htype, rfl⟩
    simp only [inbox, setObject]
    rw [update_apply]
    split_ifs with hstate
    · rw [hstate]
      have hid : e.2 ≠ obj.myId := fun hid =>
        hne (hk.unique o' o _ (ho'.trans (congrArg some (Prod.ext hstate hid))) ho)
      exact update_of_ne hid ..
    · rfl

lemma Wired.deleted (hk : k.Wired) (hobj : k.objects o = some obj) : (k.delete o obj).Wired := by
  by_cases htype : obj.type = .channel
  · have ho : k.endpoint o = some (obj.state, obj.myId) :=
      endpoint_eq_some.mpr ⟨obj, hobj, htype, rfl⟩
    refine hk.delete ho (endpoint_delete obj) ?_
    simp [Kom.delete, htype, setObject]
  · have hnone : k.endpoint o = none := by
      rw [Option.eq_none_iff_forall_ne_some]
      intro e he
      obtain ⟨obj', hobj', htype', -⟩ := endpoint_eq_some.mp he
      cases hobj.symm.trans hobj'
      exact htype htype'
    have hchans : (k.delete o obj).channels = k.channels := by
      simp [Kom.delete, htype, setObject]
    refine hk.congr (fun o' => ?_) fun c => by simp [hchans]
    rw [endpoint_delete]
    split
    case isTrue heq => rw [heq, hnone]
    · rfl

lemma delete_of_kobjectUnref (hok : k.kobjectUnref o = .ok k') (hlast : k.refs o = 1) :
    ∃ obj, k.objects o = some obj ∧ k' = k.delete o obj := by
  cases hobj : k.objects o with
  | none => simp [Kom.refs, hobj] at hlast
  | some obj =>
    have hone : obj.refCount = 1 := by
      apply BitVec.eq_of_toNat_eq
      simpa [Kom.refs, hobj] using hlast
    refine ⟨obj, rfl, ?_⟩
    simpa [Kom.kobjectUnref, hobj, hone, eq_comm] using hok

variable (hk : Delivery k extra owned)

section
variable (hok : k.kobjectUnref o = .ok k') (hpos : 0 < extra o)

include hk hok hpos

/-- The object of an open endpoint has the reference of an entry, besides the dropped one. -/
lemma Delivery.open_kobjectUnref (he : k.Open e) : k'.Open e ∧ k'.inbox e = k.inbox e := by
  have hents := (table_of_kobjectUnref hok).1
  by_cases hlast : k.refs o = 1
  case neg =>
    have hframe := frame_of_kobjectUnref hok hlast
    refine ⟨he.mono fun i o' hslot ho' => ?_, by rw [inbox, hframe.channels]; rfl⟩
    rw [slots_congr hents, endpoint_of_shape (hframe.shape o')]
    exact ⟨hslot, ho'⟩
  obtain ⟨obj, hobj, rfl⟩ := delete_of_kobjectUnref hok hlast
  have hne {i o' : Nat} (hi : i < capacity) (hslot : k.slots i = some o') : o' ≠ o := by
    rintro rfl
    have hheld := hk.held o'
    have hholders : 0 < k.holders o' := slotCount_pos hi (by simp [hslot])
    omega
  obtain ⟨i, hi, o', hslot, ho'⟩ := open_iff.mp he
  refine ⟨open_iff.mpr ⟨i, hi, o', ?_, ?_⟩, inbox_delete hk.wired hobj ho' (hne hi hslot)⟩
  · rw [slots_congr hents, hslot]
  · rw [endpoint_delete, if_neg (hne hi hslot), ho']

lemma Delivery.kobjectUnref : Delivery k' (update extra o (extra o - 1)) owned := by
  have hheld := hk.held o
  obtain ⟨k1, hok1, hrefs, hents, hfree⟩ := hk.refs.kobjectUnref (o := o) (by omega)
  cases hok.symm.trans hok1
  refine ⟨hk.table.congr hents hfree, ⟨fun _ => rfl, hrefs.live⟩, fun o' => ?_, ?_,
    fun i hi o' hslot => ?_⟩
  · have hheld' := hk.held o'
    rw [holders_congr hents]
    grind [hrefs.count, update_apply]
  · by_cases hlast : k.refs o = 1
    · obtain ⟨obj, hobj, rfl⟩ := delete_of_kobjectUnref hok hlast
      exact hk.wired.deleted hobj
    · exact hk.wired.frame (frame_of_kobjectUnref hok hlast)
  rw [slots_congr hents] at hslot
  rw [entryHandle, hents]
  obtain hv | ⟨e, he, msg, hmsg, hv⟩ := hk.reached i hi o' hslot
  · exact .inl hv
  obtain ⟨he', hinbox⟩ := hk.open_kobjectUnref hok hpos he
  exact .inr ⟨e, he', msg, hinbox ▸ hmsg, hv⟩

end

variable (hok : k.alloc (some o) caps = .ok (r, k'))

section
include hok

lemma frame_of_alloc : Frame k k' := by
  obtain ⟨-, -, rfl⟩ | ⟨k1, hpub, href⟩ := alloc_ok hok
  · exact Frame.refl k'
  · obtain ⟨hobjects, hchans⟩ := objects_of_publish hpub
    have hframe : Frame k k1 := ⟨hchans, fun o => by rw [hobjects]⟩
    exact hframe.trans (frame_of_kobjectRef href)

lemma refs_of_alloc (hne : o' ≠ o) : k'.refs o' = k.refs o' := by
  obtain ⟨-, -, rfl⟩ | ⟨k1, hpub, href⟩ := alloc_ok hok
  · rfl
  · unfold Kom.kobjectRef at href
    split at href <;> cases href
    simp [Kom.refs, setObject, hne, (objects_of_publish hpub).1]

end

include hk hok in
lemma Delivery.alloc (hlt : k.refs o + 1 < 2 ^ 32) : Delivery k' extra (r :: owned) := by
  have hframe := frame_of_alloc hok
  have htab := hk.table.alloc hok
  obtain ⟨-, -, rfl⟩ | ⟨k1, hpub, href⟩ := alloc_ok hok
  · exact hk.mono (subset_cons_self r owned)
  obtain ⟨hobjects, -⟩ := objects_of_publish hpub
  obtain ⟨-, -, hslots, hempty, -⟩ := hk.table.publish hpub
  have hrefs1 : k1.RefsOk k.refs := hk.refs.congr hobjects
  obtain ⟨k2, href2, hrefs, hents, -, -⟩ :=
    hrefs1.kobjectRef (hrefs1.pos_of_kobjectRef href) hlt
  cases href.symm.trans href2
  refine ⟨htab, ⟨fun _ => rfl, hrefs.live⟩, fun o' => ?_, hk.wired.frame hframe, ?_⟩
  · have hheld := hk.held o'
    rw [holders_congr hents, hk.table.holders_publish hpub]
    grind [hrefs.count, update_apply]
  · intro i hi o' hslot
    obtain ⟨idx, freelist, -, rfl, rfl⟩ := publish_eq_some.mp hpub
    rw [slots_congr hents] at hslot
    rw [entryHandle, hents]
    dsimp only [slots] at hslot ⊢
    by_cases heq : i = idx
    · subst heq
      rw [update_self]
      exact .inl mem_cons_self
    · rw [update_of_ne heq] at hslot ⊢
      refine (hk.reached i hi o' hslot).frame hframe (fun j o1 hj => ?_) (subset_cons_self _ owned)
      rw [slots_congr hents, hslots, update_of_ne, hj]
      rintro rfl
      cases hempty.symm.trans hj

/-- If no other entry names the endpoint of a closed handle, the messages for it have no handle
that is still valid. -/
def Disposes (k : Kom) (entry : Nat × Nat) : Prop :=
  ∀ e ∈ k.endpoint entry.2,
    (k.retire entry.1).Open e ∨ (k.retire entry.1).spent (k.inbox e) = true

lemma Disposes.retire (hspent : k.Disposes (idx, o)) (hslot : k.slots idx = some o)
    (he : k.Open e) : (k.retire idx).Open e ∨ (k.retire idx).spent (k.inbox e) = true := by
  obtain ⟨i, hi, o', hslot', ho'⟩ := open_iff.mp he
  by_cases heq : i = idx
  · subst heq
    cases hslot.symm.trans hslot'
    exact hspent e ho'
  · exact .inl (open_iff.mpr ⟨i, hi, o', by rw [slots_retire, update_of_ne heq, hslot'], ho'⟩)

lemma Delivery.retire (hk : Delivery k extra s.owned) (hfind : k.find h = some (idx, o))
    (hspent : k.Disposes (idx, o)) :
    Delivery (k.retire idx) (update extra o (extra o + 1)) (s.without [h]) := by
  obtain ⟨hidx, hbd, -, hslot⟩ := find_eq_some.mp hfind
  have htab : (k.retire idx).TableOk := hk.table.retire hbd (by simp [hslot])
  refine ⟨htab, hk.refs.congr rfl, fun o' => ?_,
    hk.wired.frame ⟨rfl, fun _ => rfl⟩, fun i hi o' hslot' => ?_⟩
  · have hheld := hk.held o'
    have hholders := holders_retire hbd.2 hslot o'
    change _ ≤ k.refs o'
    grind [update_apply]
  · have hval := lookup_entryHandle ⟨htab.pos hslot', hi⟩ hslot'
    rw [slots_retire] at hslot'
    have heq : i ≠ idx := by
      rintro rfl
      rw [update_self] at hslot'
      cases hslot'
    rw [update_of_ne heq] at hslot'
    have hhandle : (k.retire idx).entryHandle i = k.entryHandle i := by
      simp only [entryHandle, Kom.retire, update_of_ne heq]
    rw [hhandle] at hval ⊢
    obtain hv | ⟨e, he, msg, hmsg, hv⟩ := hk.reached i hi o' hslot'
    · refine .inl (mem_without_singleton hv (sameEntry_of_index_ne ?_))
      rwa [hidx, k.index_entryHandle hi]
    obtain he' | hnone := hspent.retire hslot he
    · exact .inr ⟨e, he', msg, hmsg, hv⟩
    · rw [spent_iff.mp hnone msg hmsg _ hv] at hval
      cases hval

include hk in
/-- The first message is removed, and its handles go to the caller. -/
lemma Delivery.dequeue (hinbox : k.inbox e = msg :: rest)
    (hhandles : handles = msg.handles ∨ k.spent [msg] = true) :
    Delivery (k.setChannel e.1 ((k.channels e.1).dequeue e.2 rest)) extra (handles ++ owned) := by
  have hrest {e' : Nat × Bool} {msg' : KMessage} (hmsg : msg' ∈ k.inbox e') :
      (e' = e ∧ msg' = msg) ∨
        msg' ∈ (k.setChannel e.1 ((k.channels e.1).dequeue e.2 rest)).inbox e' := by
    by_cases heq : e' = e
    · subst heq
      rw [hinbox] at hmsg
      obtain rfl | hmsg := mem_cons.mp hmsg
      · exact .inl ⟨rfl, rfl⟩
      · right
        simpa [inbox, setChannel, ChannelState.dequeue] using hmsg
    · right
      by_cases hstate : e'.1 = e.1
      · have hid : e'.2 ≠ e.2 := fun hid => heq (Prod.ext hstate hid)
        simp only [inbox, setChannel, hstate, update_self, ChannelState.dequeue, update_of_ne hid]
        simpa [inbox, hstate] using hmsg
      · simpa [inbox, setChannel, hstate] using hmsg
  refine ⟨hk.table.congr rfl rfl, hk.refs.congr rfl, hk.held,
    hk.wired.congr (fun _ => rfl) (flags_update rfl rfl), ?_⟩
  intro i hi o hslot
  change k.slots i = some o at hslot
  obtain hv | ⟨e', he', msg', hmsg, hv⟩ := hk.reached i hi o hslot
  · exact .inl (mem_append_right _ hv)
  obtain ⟨rfl, rfl⟩ | hmsg := hrest hmsg
  · obtain rfl | hspent := hhandles
    · exact .inl (mem_append_left _ hv)
    · have hnone := spent_iff.mp hspent _ mem_cons_self _ hv
      rw [lookup_entryHandle ⟨hk.table.pos hslot, hi⟩ hslot] at hnone
      cases hnone
  · exact .inr ⟨e', he', msg', hmsg, hv⟩

lemma endpoint_kchannelCreate (mem : ChannelMemory) (o : Nat) :
    (k.kchannelCreate mem).endpoint o =
      if o = mem.b then some (mem.state, true)
      else if o = mem.a then some (mem.state, false) else k.endpoint o := by
  unfold endpoint kchannelCreate setObject
  by_cases hb : o = mem.b
  · simp [hb, KObject.shape]
  by_cases ha : o = mem.a
  · subst ha
    simp [hb, KObject.shape]
  · simp [hb, ha, setChannel]

lemma endpoint_kchannelCreate_of_some (ha : k.objects mem.a = none) (hb : k.objects mem.b = none)
    (ho : k.endpoint o = some e) : (k.kchannelCreate mem).endpoint o = some e := by
  rw [endpoint_kchannelCreate, if_neg, if_neg, ho]
  · rintro rfl
    simp [endpoint, ha] at ho
  · rintro rfl
    simp [endpoint, hb] at ho

lemma Wired.state_ne (hk : k.Wired) (ho : k.endpoint o = some e)
    (hfree : (k.channels state).refCount = 0) : e.1 ≠ state := by
  rintro rfl
  have hcnt := hk.count o e ho
  rw [hfree] at hcnt
  split at hcnt <;> exact absurd hcnt (by decide)

lemma Wired.create (hk : k.Wired)
    (hfree : (k.channels mem.state).refCount = 0) : (k.kchannelCreate mem).Wired := by
  have hchans : (k.kchannelCreate mem).channels = update k.channels mem.state .new :=
    rfl
  have hcases {o : Nat} {e : Nat × Bool} (ho : (k.kchannelCreate mem).endpoint o = some e) :
      (o = mem.b ∧ e = (mem.state, true)) ∨ (o = mem.a ∧ e = (mem.state, false)) ∨
        (k.endpoint o = some e ∧ e.1 ≠ mem.state) := by
    rw [endpoint_kchannelCreate] at ho
    split at ho
    case isTrue heq => exact .inl ⟨heq, (Option.some.inj ho).symm⟩
    · split at ho
      case isTrue heq => exact .inr (.inl ⟨heq, (Option.some.inj ho).symm⟩)
      · exact .inr (.inr ⟨ho, hk.state_ne ho hfree⟩)
  constructor
  · intro o o' e ho ho'
    obtain ⟨rfl, rfl⟩ | ⟨rfl, rfl⟩ | ⟨ho, hstate⟩ := hcases ho <;>
      obtain ⟨rfl, heq⟩ | ⟨rfl, heq⟩ | ⟨ho', hstate'⟩ := hcases ho' <;> try simp_all
    exact hk.unique o o' e ho ho'
  all_goals
    intro o e ho
    obtain ⟨-, rfl⟩ | ⟨-, rfl⟩ | ⟨ho, hstate⟩ := hcases ho
    · simp [hchans, ChannelState.new]
    · simp [hchans, ChannelState.new]
    rw [hchans, update_of_ne hstate]
  · exact hk.own o e ho
  · exact hk.count o e ho

include hk in
lemma Delivery.create (ha : k.objects mem.a = none)
    (hb : k.objects mem.b = none) (hfree : (k.channels mem.state).refCount = 0) :
    Delivery (k.kchannelCreate mem) (update (update extra mem.a 1) mem.b 1) owned := by
  have hrefs : (k.kchannelCreate mem).RefsOk
      (update (update k.refs mem.a 1) mem.b 1) := by
    have hrefs1 : (k.setChannel mem.state .new).RefsOk k.refs := hk.refs.congr rfl
    exact (hrefs1.setObject ⟨.channel, 1, mem.state, false⟩ (by simp)).setObject
      ⟨.channel, 1, mem.state, true⟩ (by simp)
  refine ⟨hk.table.congr rfl rfl, ⟨fun _ => rfl, hrefs.live⟩, fun o => ?_,
    hk.wired.create hfree, fun i hi o hslot => ?_⟩
  · have hheld := hk.held o
    have h0 (hnone : k.objects o = none) : k.holders o = 0 := by
      have := hk.refs.objects_eq_none.mp hnone
      omega
    change k.holders o + _ ≤ _
    grind [hrefs.count, update_apply]
  · obtain hv | ⟨e, he, msg, hmsg, hv⟩ := hk.reached i hi o hslot
    · exact .inl hv
    obtain ⟨-, -, o', -, ho'⟩ := open_iff.mp he
    have hstate := hk.wired.state_ne ho' hfree
    refine .inr ⟨e, he.mono fun j o1 hj ho1 =>
      ⟨hj, endpoint_kchannelCreate_of_some ha hb ho1⟩, msg, ?_, hv⟩
    change msg ∈ (update k.channels mem.state ChannelState.new e.1).queue e.2
    rwa [update_of_ne hstate]

end

section
variable {args : ReadArgs}

/-- The two handles of a new channel go to the caller. -/
lemma Delivery.komChannelCreate (hk : Delivery k extra owned)
    (hok : k.komChannelCreate outA outB mem = .ok (result, k'))
    (hnew : ∀ new, mem = some new → k.objects new.a = none ∧ k.objects new.b = none ∧
      new.a ≠ new.b ∧ (k.channels new.state).refCount = 0) :
    Delivery k' extra (result.a :: result.b :: owned) := by
  obtain ⟨rfl, -⟩ | ⟨new, k1, k2, k3, rfl, -, halloc, halloc', hunref, hunref'⟩ :=
    komChannelCreate_ok hok
  · exact hk.mono (subset_cons_of_subset _ (subset_cons_self _ _))
  obtain ⟨ha, hb, hne, hfree⟩ := hnew new rfl
  have hextra {o : Nat} (hnone : k.objects o = none) : extra o = 0 := by
    have := hk.refs.objects_eq_none.mp hnone
    have := hk.held o
    omega
  have hrefs_a : (k.kchannelCreate new).refs new.a = 1 := by
    simp [Kom.refs, kchannelCreate, setObject, hne]
  have hrefs_b : (k.kchannelCreate new).refs new.b = 1 := by
    simp [Kom.refs, kchannelCreate, setObject]
  have hk1 := (hk.create ha hb hfree).alloc halloc (by rw [hrefs_a]; decide)
  have hk2 := hk1.alloc halloc' (by rw [refs_of_alloc halloc hne.symm, hrefs_b]; decide)
  have hk3 := hk2.kobjectUnref hunref (by simp [hne])
  have hk4 := hk3.kobjectUnref hunref' (by simp [hne.symm])
  have hsame : extra = update (update (update (update extra new.a 1) new.b 1) new.a 0) new.b 0 := by
    funext o
    grind [update_apply]
  rw [hsame]
  simp only [update_self, update_of_ne hne, update_of_ne hne.symm, Nat.sub_self] at hk4
  exact hk4.mono (List.Perm.swap ..).subset

lemma endpointRead_ok (hok : k.endpointRead ep args = some (result, k')) :
    (k' = k ∧ result.handles = [] ∧ (k.channels ep.state).takes ep.myId args = false) ∨
      ∃ msg rest, k.inbox (ep.state, ep.myId) = msg :: rest ∧
        (k.channels ep.state).takes ep.myId args = true ∧
        result.handles = (if args.handles then msg.handles else []) ∧
        k' = k.setChannel ep.state ((k.channels ep.state).dequeue ep.myId rest) := by
  unfold endpointRead at hok
  split at hok
  case h_1 dataSize handleCount hsz hcnt =>
    dsimp only at hok
    split at hok
    case h_1 msg rest hqueue =>
      split at hok <;> cases hok
      case isTrue hsmall =>
        exact .inl ⟨rfl, rfl, by simp [ChannelState.takes, hsz, hcnt, hqueue, hsmall]⟩
      case isFalse hfits =>
        refine .inr ⟨msg, rest, hqueue, ?_, rfl, rfl⟩
        simp only [ChannelState.takes, hsz, hcnt, hqueue, hfits, decide_not, decide_false,
          Bool.not_false]
    case h_2 hqueue =>
      split at hok <;> cases hok
      exact .inl ⟨rfl, rfl, by simp [ChannelState.takes, hsz, hcnt, hqueue]⟩
  case h_2 dataSize handleCount hnone =>
    cases hok
    refine .inl ⟨rfl, rfl, ?_⟩
    unfold ChannelState.takes
    split
    case h_1 dataSize handleCount _ _ hsz hcnt _ => exact (hnone _ _ hsz hcnt).elim
    · rfl

/-- A reader blocks, or returns with its reference dropped. -/
lemma readEndpoint_ok (hok : k.readEndpoint o args = .ok (outcome, k')) :
    (outcome = .blocked o ∧ k' = k) ∨
      ∃ result k1, outcome = .returned result ∧ k1.kobjectUnref o = .ok k' ∧
        ((k1 = k ∧ result.handles = [] ∧
            ∀ e ∈ k.endpoint o, (k.channels e.1).takes e.2 args = false) ∨
          ∃ e msg rest, k.endpoint o = some e ∧ k.inbox e = msg :: rest ∧
            (k.channels e.1).takes e.2 args = true ∧
            result.handles = (if args.handles then msg.handles else []) ∧
            k1 = k.setChannel e.1 ((k.channels e.1).dequeue e.2 rest)) := by
  unfold readEndpoint at hok
  split at hok
  · cases hok
  case h_2 obj hobj =>
    split_ifs at hok with htype
    · obtain ⟨k1, hunref, ⟨⟩⟩ := ok_of_bind hok
      refine .inr ⟨_, k, rfl, hunref, .inl ⟨rfl, rfl, fun e he => ?_⟩⟩
      obtain ⟨obj', hobj', htype', -⟩ := endpoint_eq_some.mp he
      cases hobj.symm.trans hobj'
      exact absurd htype' htype
    · have hend : k.endpoint o = some (obj.state, obj.myId) :=
        endpoint_eq_some.mpr ⟨obj, hobj, not_not.mp htype, rfl⟩
      split at hok
      · cases hok
        exact .inl ⟨rfl, rfl⟩
      case h_2 result k1 hread =>
        obtain ⟨k2, hunref, ⟨⟩⟩ := ok_of_bind hok
        refine .inr ⟨result, k1, rfl, hunref, ?_⟩
        obtain ⟨rfl, hnone, hkept⟩ | ⟨msg, rest, hinbox, htakes, hhandles, rfl⟩ :=
          endpointRead_ok hread
        · refine .inl ⟨rfl, hnone, fun e he => ?_⟩
          cases hend.symm.trans he
          exact hkept
        · exact .inr ⟨_, msg, rest, hend, hinbox, htakes, hhandles, rfl⟩

/-- A message that is removed has no valid handle, or there is a buffer for them. -/
def Delivers (k : Kom) (o : Nat) (args : ReadArgs) : Prop :=
  ∀ e ∈ k.endpoint o, (k.channels e.1).takes e.2 args = true → args.handles = false →
    k.spent ((k.inbox e).take 1) = true

lemma Delivers.frame (hk : k.Delivers o args) (hframe : Frame k k')
    (hents : k'.entries = k.entries) : k'.Delivers o args := by
  intro e he htakes hbuffer
  rw [endpoint_of_shape (hframe.shape o)] at he
  rw [hframe.channels] at htakes
  rw [spent_congr hents, inbox, hframe.channels]
  exact hk e he htakes hbuffer

/-- A reader that has a reference to the endpoint. -/
lemma Delivery.readEndpoint (hk : Delivery k extra owned)
    (hok : k.readEndpoint o args = .ok (outcome, k')) (hpos : 0 < extra o)
    (hdelivers : k.Delivers o args) :
    (outcome = .blocked o ∧ k' = k) ∨ ∃ result, outcome = .returned result ∧
      Delivery k' (update extra o (extra o - 1)) (result.handles ++ owned) := by
  obtain hblk | ⟨result, k1, rfl, hunref, hread⟩ := readEndpoint_ok hok
  · exact .inl hblk
  refine .inr ⟨result, rfl, ?_⟩
  obtain ⟨rfl, hnone, hkept⟩ | ⟨e, msg, rest, hend, hinbox, htakes, hhandles, rfl⟩ := hread
  · rw [hnone]
    exact hk.kobjectUnref hunref hpos
  · have hgiven : result.handles = msg.handles ∨ k.spent [msg] = true := by
      cases hbuffer : args.handles with
      | true => exact .inl (by rw [hhandles, hbuffer]; rfl)
      | false =>
        have hfirst := hdelivers e hend htakes hbuffer
        rw [hinbox] at hfirst
        exact .inr hfirst
    exact (hk.dequeue hinbox hgiven).kobjectUnref hunref hpos

/-- A read with a handle keeps the reference of the entry. -/
lemma Delivery.komChannelRead (hk : Delivery k extra owned)
    (hok : k.komChannelRead h args = .ok (outcome, k'))
    (hroom : ∀ o ∈ k.resolved h kapRead, k.refs o + 1 < 2 ^ 32 ∧ k.Delivers o args) :
    (∃ o, outcome = .blocked o ∧ Delivery k' (update extra o (extra o + 1)) owned) ∨
      ∃ result, outcome = .returned result ∧ Delivery k' extra (result.handles ++ owned) := by
  rw [Kom.komChannelRead, resolve_eq] at hok
  cases hresolve : k.resolved h kapRead with
  | none =>
    rw [hresolve] at hok
    cases hok
    exact .inr ⟨_, rfl, hk⟩
  | some o =>
    obtain ⟨hlt, hdelivers⟩ := hroom o hresolve
    obtain ⟨obj, k1, href, -⟩ := open_resolved hk.sound hresolve hlt
    have hok : k1.readEndpoint o args = .ok (outcome, k') := by
      simpa [hresolve, href, Except.map, bind, Except.bind] using hok
    have hk1 := hk.kobjectRef href hlt
    obtain ⟨rfl, rfl⟩ | ⟨result, rfl, hk'⟩ := hk1.readEndpoint hok (by simp)
      (hdelivers.frame (frame_of_kobjectRef href) (table_of_kobjectRef href).1)
    · exact .inl ⟨o, rfl, hk1⟩
    refine .inr ⟨result, rfl, ?_⟩
    rwa [update_self, Nat.add_sub_cancel, update_idem, update_eq_self] at hk'

lemma inbox_of_enqueue {c : Nat} {id : Bool} {msg : KMessage}
    (hchans : k'.channels = update k.channels c ((k.channels c).enqueue id msg))
    (e : Nat × Bool) : k'.inbox e = k.inbox e ++ if e = (c, id) then [msg] else [] := by
  unfold inbox
  rw [hchans]
  by_cases hstate : e.1 = c
  · by_cases hid : e.2 = id
    · rw [if_pos (Prod.ext hstate hid), hstate, hid, update_self]
      exact update_self ..
    · rw [if_neg fun heq => hid (congrArg Prod.snd heq), hstate, update_self, append_nil]
      exact update_of_ne hid ..
  · rw [if_neg fun heq => hstate (congrArg Prod.fst heq), update_of_ne hstate, append_nil]

/-- A write moves the handles into a message for an endpoint that is open. -/
lemma Delivery.komChannelWrite {handles : Buffer (BitVec 64)}
    {mem : WriteMemory} {result : WriteResult} (hk : Delivery k extra s.owned)
    (hok : k.komChannelWrite h data handles mem = .ok (result, k'))
    (hroom : k.Room h handles.toList) (hval : ∀ ep ∈ k.writeTarget h, mem.moved = true →
      (handles.toList.all fun v => (k.lookup v).isNone) = true ∨
        (k.channels ep.state).writeStatus ep.myId data handles mem = .ok ∧
          k.Open (ep.state, !ep.myId)) :
    Delivery k' extra (s.without (movedAway handles.toList result.moved)) := by
  have htab := hk.table.komChannelWrite hok
  by_cases hsent : ∃ ep, k.writeTarget h = some ep ∧ (handles.toList = [] ∨ mem.moved = true)
  case neg =>
    obtain ⟨status, k1, hok1, -, hents, hchans, hgrown⟩ :=
      komChannelWrite_refused data hk.sound hroom hsent
    cases hok.symm.trans hok1
    have hk' : Delivery k' extra s.owned :=
      hk.frame ⟨hchans, hgrown.shape⟩ hents htab hgrown.refs fun o =>
        (hk.held o).trans (hgrown.le o)
    exact hk'.mono fun v hv => mem_without hv fun h hh => by simp [movedAway] at hh
  obtain ⟨ep, htarget, hmem⟩ := hsent
  obtain ⟨rs, k1, hok1, hmoved, hgrown, hchans⟩ :=
    komChannelWrite_sent data hk.sound hroom htarget hmem
  cases hok.symm.trans hok1
  have hslots : k'.slots = k.slots := funext fun i => (hmoved.kept i).1
  have hendpoint (o : Nat) : k'.endpoint o = k.endpoint o := endpoint_of_shape (hgrown.shape o)
  have hopen {e : Nat × Bool} (he : k.Open e) : k'.Open e :=
    he.mono fun i o hslot ho => by rw [hslots, hendpoint]; exact ⟨hslot, ho⟩
  -- the messages that were queued before are still queued
  have hqueued {e : Nat × Bool} {msg : KMessage} (hmsg : msg ∈ k.inbox e) : msg ∈ k'.inbox e := by
    split at hchans
    · rw [inbox_of_enqueue hchans]
      exact mem_append_left _ hmsg
    · rwa [inbox, hchans]
  have hflags (c : Nat) : (k'.channels c).closed = (k.channels c).closed ∧
      (k'.channels c).refCount = (k.channels c).refCount := by
    rw [hchans]
    split
    · exact flags_update (by rfl) (by rfl) c
    · exact ⟨rfl, rfl⟩
  refine ⟨htab, hgrown.refs, fun o => ?_, hk.wired.congr hendpoint hflags, fun i hi o hslot => ?_⟩
  · rw [holders, hslots]
    exact (hk.held o).trans (hgrown.le o)
  rw [hslots] at hslot
  obtain h0 | hpos := Nat.eq_zero_or_pos (k.moves handles.toList i)
  · -- the entry was not moved
    have hhandle : k'.entryHandle i = k.entryHandle i := by
      have hgen := hmoved.generation i
      rw [h0, Function.iterate_zero_apply] at hgen
      rw [entryHandle, entryHandle, hgen, (hmoved.kept i).2]
    rw [hhandle]
    obtain hv | ⟨e, he, msg, hmsg, hv⟩ := hk.reached i hi o hslot
    · refine .inl (mem_without hv fun w hw => sameEntry_of_index_ne fun heq => ?_)
      have hpos := hmoved.away w hw
      rw [← heq, k.index_entryHandle hi, h0] at hpos
      exact absurd hpos (lt_irrefl 0)
    · exact .inr ⟨e, hopen he, msg, hqueued hmsg, hv⟩
  · -- its handle is in the new message
    obtain ⟨w, hw, -, hsome⟩ := mem_of_moves_pos hpos
    have hmem : mem.moved = true := hmem.resolve_left (ne_nil_of_mem hw)
    obtain ⟨hstatus, hpeer⟩ : (k.channels ep.state).writeStatus ep.myId data handles mem = .ok ∧
        k.Open (ep.state, !ep.myId) := by
      refine (hval ep htarget hmem).resolve_left fun hnone => ?_
      have hnone := all_eq_true.mp hnone w hw
      rw [Option.isNone_iff_eq_none.mp hnone] at hsome
      cases hsome
    rw [if_pos hstatus] at hchans
    refine .inr ⟨_, hopen hpeer, ⟨data.toList, rs⟩, ?_, hmoved.made i hpos⟩
    rw [inbox_of_enqueue hchans, if_pos rfl]
    exact mem_append_right _ mem_cons_self

lemma Delivery.close (hk : Delivery k extra s.owned) (hok : k.close h = .ok k')
    (hspent : ∀ entry ∈ k.find h, k.Disposes entry) : Delivery k' extra (s.without [h]) := by
  obtain ⟨hfind, rfl⟩ | ⟨idx, o, hfind, hunref⟩ := close_ok hok
  · refine ⟨hk.table, hk.refs, hk.held, hk.wired, fun i hi o hslot => ?_⟩
    obtain hv | hmsg := hk.reached i hi o hslot
    · refine .inl (mem_without_singleton hv (Bool.eq_false_iff.mpr fun hsame => ?_))
      -- the handle of an entry in use is valid, and the closed one is not
      obtain ⟨hidx, hgen⟩ : handleIndex (k'.entryHandle i) = handleIndex h ∧
          handleGeneration (k'.entryHandle i) = handleGeneration h := by
        simpa [sameEntry] using hsame
      rw [k'.index_entryHandle hi] at hidx
      have hval := find_eq_some.mpr ⟨hidx.symm, ⟨hk.table.pos hslot, hi⟩, ?_, hslot⟩
      · cases hfind.symm.trans hval
      · rw [← hgen, entryHandle, handleGeneration_makeHandle _ _ (hi.trans (by decide))]
    · exact .inr hmsg
  · have hk' := (hk.retire hfind (hspent _ hfind)).kobjectUnref hunref (by simp)
    rwa [update_self, Nat.add_sub_cancel, update_idem, update_eq_self] at hk'

end

end Kom

namespace System

/-- Every entry is reached. -/
def NoneLost (s : System) : Prop :=
  ∀ i < capacity, ∀ o, s.kom.slots i = some o → s.kom.Reached s.owned (s.kom.entryHandle i)

/-- The handles in the messages for an endpoint that is no longer open are closed. -/
def ClosesCarried (s s' : System) : Prop :=
  ∀ e, s.kom.Open e → ¬ s'.kom.Open e →
    ∀ msg ∈ s.kom.inbox e, ∀ v ∈ msg.handles, s'.kom.lookup v = none

/-- No endpoint is closed while a message for it has a valid handle, no message with a valid handle
is read without a buffer for it, handles are moved only by a write that succeeds and only to an
open endpoint, and no reference count comes around. -/
def Keeps (s : System) : Syscall → Prop
  | .komDuplicate _ _ => False
  | .komChannelCreate _ _ _ => True
  | .komChannelWrite h data handles mem => s.kom.Room h handles.toList ∧
      ∀ ep ∈ s.kom.writeTarget h, mem.moved = true →
        (handles.toList.all fun v => (s.kom.lookup v).isNone) = true ∨
          (s.kom.channels ep.state).writeStatus ep.myId data handles mem = .ok ∧
            s.kom.Open (ep.state, !ep.myId)
  | .komChannelRead h args =>
    ∀ o ∈ s.kom.resolved h kapRead, s.kom.refs o + 1 < 2 ^ 32 ∧ s.kom.Delivers o args
  | .wakeReader o args => s.kom.Delivers o args
  | .komClose h => ∀ entry ∈ s.kom.find h, s.kom.Disposes entry

variable {s' : System} {call : Syscall}

def Inv (s : System) : Prop := s.kom.Delivery s.sleepers s.owned

lemma Inv.boot (channels : Nat → ChannelState) : (boot channels).Inv := by
  have hnone (o : Nat) : (System.boot channels).kom.endpoint o = none := rfl
  refine ⟨(Session.inv_init channels).table, ⟨fun _ => rfl, fun o obj hobj => by cases hobj⟩,
    fun o => ?_, ⟨?_, ?_, ?_⟩, fun i hi o hslot => by cases hslot⟩
  · have hholders : (System.boot channels).kom.holders o = 0 :=
      slotCount_eq_zero.mpr fun _ _ => rfl
    rw [hholders]
    rfl
  all_goals
    intro o
    simp [hnone]

lemma Inv.step (hs : s.Inv) (hstep : Step Keeps s call s') : s'.Inv := by
  obtain ⟨hallow, hcond, hexec⟩ := hstep
  cases call with
  | komDuplicate h requestedCaps => exact hcond.elim
  | komChannelCreate outA outB mem =>
    obtain ⟨result, hok, hsleepers, howned⟩ := exec_komChannelCreate hexec
    rw [Inv, hsleepers, howned]
    refine hs.komChannelCreate hok fun new hnew => ?_
    subst hnew
    exact hallow
  | komChannelWrite h data handles mem =>
    obtain ⟨result, hok, hsleepers, howned⟩ := exec_komChannelWrite hexec
    rw [Inv, hsleepers, howned]
    exact hs.komChannelWrite hok hcond.1 hcond.2
  | komChannelRead h args =>
    obtain ⟨outcome, hok, hout⟩ := exec_komChannelRead hexec
    obtain ⟨o, rfl, hk⟩ | ⟨result, rfl, hk⟩ := Kom.Delivery.komChannelRead hs hok hcond
    · obtain ⟨result, heq, -⟩ | ⟨o', heq, howned, hsleepers⟩ := hout <;> cases heq
      rwa [Inv, hsleepers, howned]
    · obtain ⟨result', heq, hsleepers, howned⟩ | ⟨o', heq, -⟩ := hout <;> cases heq
      rwa [Inv, hsleepers, howned]
  | wakeReader o args =>
    obtain ⟨outcome, hok, hout⟩ := exec_wakeReader hexec
    obtain ⟨rfl, hk⟩ | ⟨result, rfl, hk⟩ :=
      Kom.Delivery.readEndpoint hs hok hallow hcond
    · obtain ⟨result, heq, -⟩ | ⟨o', -, hsleepers, howned⟩ := hout
      · cases heq
      · rwa [Inv, hsleepers, howned, hk]
    · obtain ⟨result', heq, howned, hsleepers⟩ | ⟨o', heq, -⟩ := hout <;> cases heq
      rwa [Inv, hsleepers, howned]
  | komClose h =>
    obtain ⟨hok, hsleepers, howned⟩ := exec_komClose hexec
    rw [Inv, hsleepers, howned]
    exact hs.close hok hcond

lemma Inv.closesCarried (hs : s.Inv) (hstep : Step Keeps s (.komClose h) s') :
    s.ClosesCarried s' := by
  obtain ⟨-, hcond, hexec⟩ := hstep
  obtain ⟨hok, -⟩ := exec_komClose hexec
  intro e he hclosed msg hmsg v hv
  obtain ⟨-, hsame⟩ | ⟨idx, o, hfind, hunref⟩ := Kom.close_ok hok
  · exact absurd (hsame ▸ he) hclosed
  have hents := (Kom.table_of_kobjectUnref hunref).1
  have hspent := hcond _ hfind
  obtain he' | hnone := hspent.retire (Kom.find_eq_some.mp hfind).2.2.2 he
  · have hretired := Kom.Delivery.retire hs hfind hspent
    exact absurd (hretired.open_kobjectUnref hunref (by simp) he').1 hclosed
  · rw [Kom.lookup, Kom.find_congr hents, hents]
    exact Kom.spent_iff.mp hnone msg hmsg v hv

/-- In a run that drops no valid handle, every entry is reached, and closing the last handle of an
endpoint leaves no valid handle behind in the messages for it. -/
theorem delivered_run {channels : Nat → ChannelState} {calls : List Syscall}
    (hrun : Run (Step Keeps) (boot channels) calls s) :
    s.NoneLost ∧ ∀ h s', Step Keeps s (.komClose h) s' → s.ClosesCarried s' := by
  have hI : s.Inv := hrun.invariant (I := Inv) (fun _ _ _ hs hstep => hs.step hstep)
    (Inv.boot channels)
  exact ⟨hI.reached, fun h s' hstep => hI.closesCarried hstep⟩

instance (k : Kom) (e : Nat × Bool) : Decidable (k.Open e) :=
  decidable_of_iff ((range capacity).any fun i => (k.slots i).bind k.endpoint == some e)
    (by simp [Kom.Open])

instance (k : Kom) (entry : Nat × Nat) : Decidable (k.Disposes entry) :=
  inferInstanceAs (Decidable (∀ e ∈ k.endpoint entry.2, _ ∨ _))

instance (k : Kom) (o : Nat) (args : ReadArgs) : Decidable (k.Delivers o args) :=
  inferInstanceAs (Decidable (∀ e ∈ k.endpoint o, _ → _ → _))

instance (s : System) : ∀ call, Decidable (s.Keeps call)
  | .komDuplicate _ _ => inferInstanceAs (Decidable False)
  | .komChannelCreate _ _ _ => inferInstanceAs (Decidable True)
  | .komChannelWrite _ _ _ _ => inferInstanceAs (Decidable (_ ∧ ∀ ep ∈ _, _ → _ ∨ _ ∧ _))
  | .komChannelRead _ _ => inferInstanceAs (Decidable (∀ o ∈ _, _ ∧ _))
  | .wakeReader o args => inferInstanceAs (Decidable (s.kom.Delivers o args))
  | .komClose h => inferInstanceAs (Decidable (∀ entry ∈ s.kom.find h, _))

/-- Two channels; one end of the second is sent over the first. -/
def sendEnd : List Syscall :=
  [.komChannelCreate true true (some ⟨0, 1, 2⟩), .komChannelCreate true true (some ⟨1, 3, 4⟩),
    .komChannelWrite 0xC400000100000001 (.items [7]) (.items [0xC400000100000003])
      ⟨true, true, true, true⟩]

/-- The handle is received before the endpoints are closed. -/
def passEnd : List Syscall :=
  sendEnd ++ [.komChannelRead 0xC400000100000002 ⟨some 8, some 1, true, true⟩,
    .komClose 0xC400000100000002]

theorem passEnd_delivered :
    ∃ s, Run (Step Keeps) (boot Session.idleChannels) passEnd s ∧ s.kom.slots 3 = some 3 ∧
      s.NoneLost ∧ ∀ h s', Step Keeps s (.komClose h) s' → s.ClosesCarried s' := by
  refine Run.exists_of_exec (P := fun s => s.kom.slots 3 = some 3) (fun _ _ _ => step_of_step?)
    (by decide +kernel) ?_
  intro s hrun hslot
  exact ⟨hslot, delivered_run hrun⟩

/-- The receiving endpoint is closed instead. -/
def dropEnd : List Syscall := sendEnd ++ [.komClose 0xC400000100000002]

/-- The moved handle was in a message that the destructor of the endpoint has dropped: its entry
is occupied and cannot be reached. -/
theorem dropEnd_loses_handle :
    ∃ s, Run (Step fun _ _ => True) (boot Session.idleChannels) dropEnd s ∧
      s.kom.slots 3 = some 3 ∧ ¬s.NoneLost := by
  refine Run.exists_of_exec (P := fun s => s.kom.slots 3 = some 3 ∧
      s.kom.entryHandle 3 ∉ s.owned ∧ (range capacity).all fun i =>
        ((s.kom.slots i).bind s.kom.endpoint).all fun e => s.kom.inbox e == [])
    (fun _ _ _ => step_of_step?) (by decide +kernel) ?_
  rintro s - ⟨hslot, howned, hempty⟩
  refine ⟨hslot, fun hreached => ?_⟩
  obtain hv | ⟨e, ⟨i, hi, he⟩, msg, hmsg, -⟩ := hreached 3 (by decide) 3 hslot
  · exact howned hv
  · have hall := all_eq_true.mp hempty i (mem_range.mpr hi)
    rw [he, Option.all_some, beq_iff_eq] at hall
    rw [hall] at hmsg
    cases hmsg

end System

end Singularity.ObjectManager
