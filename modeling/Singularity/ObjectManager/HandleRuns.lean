import Singularity.ObjectManager.HandleTable

/-!
# Sequences of handle-table operations

A session is the table together with the references that are held outside of it. `transfer`
takes a reference for the new entry but never drops that of the old one: `moved` counts these
references, and the count of an object is the sum of the three. Generations only go up until
the counter of a slot comes around.
-/

namespace Singularity.ObjectManager

open Foundation Function Option Kom

/-- The table, the references held outside of it, and the handles moved by `transfer`. -/
structure Session where
  kom : Kom
  outside : Nat → Nat
  moved : Nat → Nat

/-- Operations with arbitrary handles, and what the holders of references do. -/
inductive TableOp where
  | create (o : Nat) (type : KObjectType) (state : Nat) (myId : Bool)
  | kobjectRef (o : Nat)
  | kobjectUnref (o : Nat)
  | alloc (obj : Option Nat) (caps : BitVec 16)
  | resolve (h : BitVec 64) (reqCaps : BitVec 16)
  | dup (h : BitVec 64) (newCaps : BitVec 16)
  | transfer (h : BitVec 64)
  | close (h : BitVec 64)
  deriving DecidableEq

namespace Session

def init (channels : Nat → ChannelState) : Session :=
  ⟨Kom.init (fun _ => none) channels, fun _ => 0, fun _ => 0⟩

/-- The references to an object. -/
def expected (s : Session) (o : Nat) : Nat := s.outside o + s.kom.holders o + s.moved o

/-- What a caller is allowed to do: only a holder of a reference passes an object on, and an
object is created at an address that is not in use. -/
def Allowed (s : Session) : TableOp → Prop
  | .create o _ _ _ => s.kom.objects o = none
  | .kobjectRef o | .kobjectUnref o | .alloc (some o) _ => 0 < s.outside o
  | _ => True

def exec (s : Session) : TableOp → Except KomFault Session
  | .create o type state myId =>
    .ok { s with
      kom := s.kom.setObject o (some ⟨type, 1, state, myId⟩)
      outside := update s.outside o 1 }
  | .kobjectRef o => do
      let k ← s.kom.kobjectRef o
      .ok { s with kom := k, outside := update s.outside o (s.outside o + 1) }
  | .kobjectUnref o => do
      let k ← s.kom.kobjectUnref o
      .ok { s with kom := k, outside := update s.outside o (s.outside o - 1) }
  | .alloc obj caps => do
      let (_, k) ← s.kom.alloc obj caps
      .ok { s with kom := k }
  | .resolve h reqCaps => do
      let (target, k) ← s.kom.resolve h reqCaps
      match target with
      | none => .ok { s with kom := k }
      | some o => .ok { s with kom := k, outside := update s.outside o (s.outside o + 1) }
  | .dup h newCaps => do
      let (_, k) ← s.kom.dup h newCaps
      .ok { s with kom := k }
  | .transfer h => do
      let (_, k) ← s.kom.transfer h
      match s.kom.find h with
      | none => .ok { s with kom := k }
      | some (_, o) => .ok { s with kom := k, moved := update s.moved o (s.moved o + 1) }
  | .close h => do
      let k ← s.kom.close h
      .ok { s with kom := k }

/-- No reference count comes around in the next operation. -/
def Bounded (s : Session) : TableOp → Prop
  | .kobjectRef o | .alloc (some o) _ => s.kom.refs o + 1 < 2 ^ 32
  | .resolve h _ | .dup h _ => ∀ e ∈ s.kom.find h, s.kom.refs e.2 + 1 < 2 ^ 32
  | .transfer h => ∀ e ∈ s.kom.find h, s.kom.refs e.2 + 2 < 2 ^ 32
  | _ => True

/-- No valid handle is transferred. -/
def Keeps (s : Session) : TableOp → Prop
  | .transfer h => s.kom.find h = none
  | _ => True

/-- The bookkeeping of the table and of the reference counts. -/
structure Consistent (s : Session) : Prop where
  free : FreeSlots capacity s.kom.slots s.kom.freelist
  zero : s.kom.slots 0 = none
  generation : ∀ i, 0 < i → i < capacity → (s.kom.entries i).generation ≠ 0
  refCount : ∀ o obj, s.kom.objects o = some obj →
    obj.refCount.toNat = s.outside o + s.kom.holders o
  deleted : ∀ o, s.kom.objects o = none ↔ s.outside o = 0 ∧ s.kom.holders o = 0

structure Inv (s : Session) : Prop where
  table : s.kom.TableOk
  refs : s.kom.RefsOk s.expected

end Session

variable {o idx : Nat}

namespace Kom
lemma RefsOk.of_eq (hk : RefsOk k n) (heq : ∀ o, n o = n' o) : RefsOk k n' :=
  (funext heq : n = n') ▸ hk

/-- A new entry adds one holder and one reference. -/
lemma alloc_spec (htab : TableOk k) (hrefs : RefsOk k n) (hpos : 0 < n o)
    (hlt : n o + 1 < 2 ^ 32) (caps : BitVec 16) :
    (k.freelist = [] ∧ k.alloc (some o) caps = .ok (0, k)) ∨
      ∃ h k', k.alloc (some o) caps = .ok (h, k') ∧ TableOk k' ∧
        RefsOk k' (update n o (n o + 1)) ∧
        ∀ o', k'.holders o' = k.holders o' + if o' = o then 1 else 0 := by
  cases hpub : k.publish o caps with
  | none =>
    left
    constructor
    · unfold publish at hpub
      split at hpub
      case h_1 hfree => exact hfree
      · cases hpub
    · simp only [alloc, hpub]
  | some result =>
    right
    obtain ⟨h, k1⟩ := result
    obtain ⟨k', href, hrefs', hents, hfree, -⟩ :=
      (hrefs.congr (objects_of_publish hpub).1).kobjectRef hpos hlt
    refine ⟨h, k', ?_, (htab.publish hpub).1.congr hents hfree, hrefs', fun o' => ?_⟩
    · simp only [alloc, hpub, href]
      rfl
    · rw [holders_congr hents]
      exact htab.holders_publish hpub o'

end Kom

namespace Session
variable {s s' : Session} {op : TableOp}

lemma expected_pos_of_find (hfind : s.kom.find hd = some (idx, o)) : 0 < s.expected o := by
  obtain ⟨-, hbd, -, hslot⟩ := find_eq_some.mp hfind
  have hpos : 0 < s.kom.holders o := slotCount_pos hbd.2 (by simp [hslot])
  unfold expected
  omega

lemma Inv.setOutside (h : s.Inv) (hents : k.entries = s.kom.entries)
    (hfree : k.freelist = s.kom.freelist) (hrefs : k.RefsOk (update s.expected o m))
    (hm : m + s.outside o = s.expected o + n) :
    ({ s with kom := k, outside := update s.outside o n } : Session).Inv := by
  refine ⟨h.table.congr hents hfree, hrefs.of_eq fun o' => ?_⟩
  have hholders := Kom.holders_congr hents o'
  by_cases heq : o' = o
  · subst heq
    simp only [expected, update_self, hholders] at hm ⊢
    omega
  · simp only [expected, update_of_ne heq, hholders]

/-- The session after `alloc` of an object with references. -/
lemma Inv.alloc (h : s.Inv) (hpos : 0 < s.expected o)
    (hlt : s.expected o + 1 < 2 ^ 32) (caps : BitVec 16) :
    ∃ r k, s.kom.alloc (some o) caps = .ok (r, k) ∧ ({ s with kom := k } : Session).Inv := by
  obtain ⟨-, halloc⟩ | ⟨r, k, halloc, htab, hrefs, hholders⟩ :=
    Kom.alloc_spec h.table h.refs hpos hlt caps
  · exact ⟨0, s.kom, halloc, h⟩
  refine ⟨r, k, halloc, htab, hrefs.of_eq fun o' => ?_⟩
  by_cases heq : o' = o
  · subst heq
    simp only [expected, update_self, hholders, if_true]
    omega
  · simp only [expected, update_of_ne heq, hholders, if_neg heq, Nat.add_zero]

/-- `transfer` moves an entry and leaves one reference behind. -/
lemma Inv.transfer (h : s.Inv)
    (hfind : s.kom.find hd = some (idx, o)) (hlt : s.expected o + 2 < 2 ^ 32) :
    ∃ r k, s.kom.transfer hd = .ok (r, k) ∧
      ({ s with kom := k, moved := update s.moved o (s.moved o + 1) } : Session).Inv := by
  obtain ⟨-, hbd, -, hslot⟩ := find_eq_some.mp hfind
  have hpos := expected_pos_of_find hfind
  obtain ⟨k1, href, hrefs1, hentries1, hfree1, -⟩ := h.refs.kobjectRef hpos (by omega)
  have hslot1 : k1.slots idx = some o := by rw [slots_congr hentries1, hslot]
  have htable2 : (k1.retire idx).TableOk :=
    (h.table.congr hentries1 hfree1).retire hbd (by rw [hslot1]; exact some_ne_none o)
  have hself : update s.expected o (s.expected o + 1) o = s.expected o + 1 :=
    update_self ..
  -- the slot that was just retired is on top of the free list
  obtain ⟨hempty, -⟩ | ⟨r, k3, halloc, htable3, hrefs3, hholders3⟩ :=
    Kom.alloc_spec htable2 (hrefs1.congr rfl) (by rw [hself]; omega) (by rw [hself]; omega)
      (s.kom.entries idx).caps
  · cases hempty
  rw [hself, update_idem] at hrefs3
  obtain ⟨k4, hunref, hrefs4, hentries4, hfree4⟩ :=
    hrefs3.kobjectUnref (by rw [update_self]; omega)
  rw [update_self, update_idem] at hrefs4
  refine ⟨r, k4, ?_, htable3.congr hentries4 hfree4, hrefs4.of_eq fun o' => ?_⟩
  · simp only [Kom.transfer, hfind, href, halloc, hunref, bind, Except.bind]
  have hretire := holders_retire hbd.2 hslot1 o'
  have hsame := Kom.holders_congr hentries1 o'
  have hnew := hholders3 o'
  have hlast := Kom.holders_congr hentries4 o'
  have htot : k4.holders o' = s.kom.holders o' := by omega
  by_cases heq : o' = o
  · subst heq
    simp only [expected, update_self, htot]
    omega
  · simp only [expected, update_of_ne heq, htot]

lemma Inv.close (h : s.Inv) (hfind : s.kom.find hd = some (idx, o)) :
    ∃ k, s.kom.close hd = .ok k ∧ ({ s with kom := k } : Session).Inv := by
  obtain ⟨-, hbd, -, hslot⟩ := find_eq_some.mp hfind
  have hpos := expected_pos_of_find hfind
  have htab : (s.kom.retire idx).TableOk :=
    h.table.retire hbd (by rw [hslot]; exact some_ne_none o)
  have hrefs : (s.kom.retire idx).RefsOk s.expected := h.refs.congr rfl
  obtain ⟨k, hunref, hrefs', hents, hfree⟩ := hrefs.kobjectUnref hpos
  refine ⟨k, ?_, htab.congr hents hfree, hrefs'.of_eq fun o' => ?_⟩
  · simp only [Kom.close, hfind, hunref]
  have hretire := holders_retire hbd.2 hslot o'
  have hsame := Kom.holders_congr hents o'
  by_cases heq : o' = o
  · subst heq
    rw [if_pos rfl] at hretire
    simp only [expected, update_self]
    omega
  · rw [if_neg heq] at hretire
    simp only [expected, update_of_ne heq]
    omega

/-- Every operation returns and keeps the invariant. -/
lemma Inv.exec (h : s.Inv) (hallow : s.Allowed op) (hbounded : s.Bounded op) :
    ∃ s', s.exec op = .ok s' ∧ s'.Inv := by
  cases op with
  | create o type state myId =>
    have h0 := h.refs.objects_eq_none.mp hallow
    unfold expected at h0
    obtain ⟨houtside, hholders, hmoved⟩ :
        s.outside o = 0 ∧ s.kom.holders o = 0 ∧ s.moved o = 0 := by omega
    refine ⟨_, rfl, h.table.congr rfl rfl, ?_⟩
    have hone : (1 : BitVec 32) ≠ 0 := by decide
    apply (h.refs.setObject (o := o) ⟨type, 1, state, myId⟩ hone).of_eq
    intro o'
    by_cases heq : o' = o
    · subst heq
      simp only [expected, update_self, hmoved]
      exact (congrArg (1 + · + 0) hholders).symm
    · simp only [expected, update_of_ne heq]
      rfl
  | kobjectRef o =>
    have hpos : 0 < s.expected o := Nat.add_pos_left (Nat.add_pos_left hallow _) _
    have hlt : s.expected o + 1 < 2 ^ 32 := h.refs.count o ▸ hbounded
    obtain ⟨k, href, hrefs, hents, hfree, -⟩ := h.refs.kobjectRef hpos hlt
    refine ⟨_, ?_, h.setOutside hents hfree hrefs
      (show _ = _ + (s.outside o + 1) by omega)⟩
    simp only [Session.exec, href, bind, Except.bind]
  | kobjectUnref o =>
    have hallow : 0 < s.outside o := hallow
    have hpos : 0 < s.expected o := Nat.add_pos_left (Nat.add_pos_left hallow _) _
    obtain ⟨k, hunref, hrefs, hents, hfree⟩ := h.refs.kobjectUnref hpos
    refine ⟨_, ?_, h.setOutside hents hfree hrefs
      (show _ = _ + (s.outside o - 1) by omega)⟩
    simp only [Session.exec, hunref, bind, Except.bind]
  | alloc obj caps =>
    cases obj with
    | none => exact ⟨s, rfl, h⟩
    | some o =>
      have hpos : 0 < s.expected o := Nat.add_pos_left (Nat.add_pos_left hallow _) _
      have hlt : s.expected o + 1 < 2 ^ 32 := h.refs.count o ▸ hbounded
      obtain ⟨r, k, halloc, hI⟩ := h.alloc hpos hlt caps
      refine ⟨_, ?_, hI⟩
      simp only [Session.exec, halloc, bind, Except.bind]
  | resolve hd reqCaps =>
    obtain hrefused | ⟨idx, o, hfind, -, href⟩ := s.kom.resolve_cases hd reqCaps
    · refine ⟨s, ?_, h⟩
      simp only [Session.exec, hrefused, bind, Except.bind]
    have hpos := expected_pos_of_find hfind
    have hlt : s.expected o + 1 < 2 ^ 32 := h.refs.count o ▸ hbounded (idx, o) hfind
    obtain ⟨k, hok, hrefs, hents, hfree, -⟩ := h.refs.kobjectRef hpos hlt
    refine ⟨_, ?_, h.setOutside hents hfree hrefs
      (show _ = _ + (s.outside o + 1) by omega)⟩
    simp only [Session.exec, href, hok, Except.map, bind, Except.bind]
  | dup hd newCaps =>
    obtain hrefused | ⟨idx, o, hfind, -, halloc⟩ := s.kom.dup_cases hd newCaps
    · refine ⟨s, ?_, h⟩
      simp only [Session.exec, hrefused, bind, Except.bind]
    have hlt : s.expected o + 1 < 2 ^ 32 := h.refs.count o ▸ hbounded (idx, o) hfind
    obtain ⟨r, k, hok, hI⟩ := h.alloc (expected_pos_of_find hfind) hlt newCaps
    refine ⟨_, ?_, hI⟩
    simp only [Session.exec, halloc, hok, bind, Except.bind]
  | transfer hd =>
    cases hfind : s.kom.find hd with
    | none =>
      refine ⟨s, ?_, h⟩
      simp only [Session.exec, (refused_of_find hfind).2.2.1, hfind, bind, Except.bind]
    | some entry =>
      obtain ⟨idx, o⟩ := entry
      have hlt : s.expected o + 2 < 2 ^ 32 := h.refs.count o ▸ hbounded (idx, o) hfind
      obtain ⟨r, k, hok, hI⟩ := h.transfer hfind hlt
      refine ⟨_, ?_, hI⟩
      simp only [Session.exec, hok, hfind, bind, Except.bind]
  | close hd =>
    cases hfind : s.kom.find hd with
    | none =>
      refine ⟨s, ?_, h⟩
      simp only [Session.exec, (refused_of_find hfind).2.2.2, bind, Except.bind]
    | some entry =>
      obtain ⟨idx, o⟩ := entry
      obtain ⟨k, hok, hI⟩ := h.close hfind
      refine ⟨_, ?_, hI⟩
      simp only [Session.exec, hok, bind, Except.bind]

/-- An operation that the callers are allowed to do and that meets a condition. -/
def Step (cond : Session → TableOp → Prop) (s : Session) (op : TableOp) (s' : Session) : Prop :=
  s.Allowed op ∧ cond s op ∧ s.exec op = .ok s'

lemma inv_init (channels : Nat → ChannelState) : (init channels).Inv := by
  have hslots (i : Nat) : (init channels).kom.slots i = none := rfl
  refine ⟨⟨⟨List.nodup_range', fun i => ?_⟩, rfl, ?_⟩, ⟨fun o => ?_, ?_⟩⟩
  · simp only [init, Kom.init, List.mem_range'_1, slots, and_true]
    omega
  · intro i hpos hi
    simp [init, Kom.init, hpos, hi]
  · have hholders : (init channels).kom.holders o = 0 :=
      slotCount_eq_zero.mpr fun i _ => by rw [hslots]; rfl
    simp only [expected, hholders]
    rfl
  · rintro o obj ⟨⟩

/-- The invariant holds in every sequence of operations in which no count comes around. -/
lemma inv_run {channels : Nat → ChannelState} {ops : List TableOp}
    (hrun : Run (Step Bounded) (init channels) ops s) : s.Inv := by
  refine hrun.invariant (fun s op s' hs hstep => ?_) (inv_init channels)
  obtain ⟨hallow, hbounded, hexec⟩ := hstep
  obtain ⟨t, ht, hI⟩ := hs.exec hallow hbounded
  rw [hexec] at ht
  cases ht
  exact hI

lemma Inv.consistent (h : s.Inv) (hmoved : ∀ o, s.moved o = 0) : s.Consistent := by
  refine ⟨h.table.free, h.table.zero, h.table.generation, ?_, ?_⟩
  · intro o obj hobj
    have hcnt := h.refs.count o
    rwa [Kom.refs, hobj, expected, hmoved, Nat.add_zero] at hcnt
  · intro o
    rw [h.refs.objects_eq_none, expected, hmoved]
    omega

lemma moved_of_exec (hkeeps : s.Keeps op) (hexec : s.exec op = .ok s') : s'.moved = s.moved := by
  cases op with
  | create o type state myId => cases hexec; rfl
  | kobjectRef | kobjectUnref | alloc | dup | close =>
    obtain ⟨_, -, ⟨⟩⟩ := ok_of_bind hexec
    rfl
  | resolve hd reqCaps =>
    obtain ⟨⟨target, k⟩, -, heq⟩ := ok_of_bind hexec
    cases target <;> cases heq <;> rfl
  | transfer hd =>
    obtain ⟨⟨r, k⟩, -, heq⟩ := ok_of_bind hexec
    rw [show s.kom.find hd = none from hkeeps] at heq
    cases heq
    rfl

/-- No valid handle is transferred and no count comes around. -/
def Counted (s : Session) (op : TableOp) : Prop := s.Bounded op ∧ s.Keeps op

/-- In every sequence of operations that transfers no valid handle, the table and the counts
are right, and the next operation returns. -/
theorem consistent_run {channels : Nat → ChannelState} {ops : List TableOp}
    (hrun : Run (Step Counted) (init channels) ops s) :
    s.Consistent ∧ ∀ op, s.Allowed op → s.Counted op → ∃ s', s.exec op = .ok s' := by
  have hI : s.Inv := inv_run (hrun.mono fun _ _ _ h => ⟨h.1, h.2.1.1, h.2.2⟩)
  have hmoved : s.moved = fun _ => 0 :=
    Run.invariant (I := fun s => s.moved = fun _ => 0)
      (fun _ _ _ h hstep => (moved_of_exec hstep.2.1.2 hstep.2.2).trans h) hrun rfl
  refine ⟨hI.consistent (congrFun hmoved), fun op hallow hcounted => ?_⟩
  obtain ⟨s', hexec, -⟩ := hI.exec hallow hcounted.1
  exact ⟨s', hexec⟩

instance (s : Session) (op : TableOp) : Decidable (s.Allowed op) := by
  unfold Allowed
  split <;> infer_instance

instance (s : Session) (op : TableOp) : Decidable (s.Bounded op) := by
  unfold Bounded
  split <;> infer_instance

instance (s : Session) (op : TableOp) : Decidable (s.Keeps op) := by
  unfold Keeps
  split <;> infer_instance

instance (s : Session) (op : TableOp) : Decidable (s.Counted op) :=
  inferInstanceAs (Decidable (_ ∧ _))

def step? (cond : Session → TableOp → Prop) [∀ s op, Decidable (cond s op)] (s : Session)
    (op : TableOp) : Option Session :=
  if s.Allowed op ∧ cond s op then (s.exec op).toOption else none

lemma step_of_step? {cond : Session → TableOp → Prop} [∀ s op, Decidable (cond s op)]
    (h : s.step? cond op = some s') : Step cond s op s' := by
  obtain ⟨hcond, h⟩ := then_of_ite h
  exact ⟨hcond.1, hcond.2, ok_of_toOption h⟩

/-- An object with two handles, one of them duplicated, is deleted, and its slot used again. -/
def twoHandles : List TableOp :=
  [.create 1 .event 0 false, .alloc (some 1) 0xFFFF, .resolve 0xFFFF000100000001 kapRead,
    .dup 0xFFFF000100000001 kapRead, .transfer 0x1234, .kobjectUnref 1, .kobjectUnref 1,
    .close 0xFFFF000100000001, .close 0x8000000100000002, .create 1 .timer 0 false,
    .alloc (some 1) kapRead]

def idleChannels : Nat → ChannelState := fun _ => ⟨fun _ => [], fun _ => false, 0⟩

theorem twoHandles_consistent :
    ∃ s, Run (Step Counted) (init idleChannels) twoHandles s ∧ s.Consistent ∧
      s.kom.find 0x8000000100000002 = none ∧ s.kom.find 0x8000000200000002 = some (2, 1) := by
  refine Run.exists_of_exec (P := fun s => s.kom.find 0x8000000100000002 = none ∧
    s.kom.find 0x8000000200000002 = some (2, 1)) (fun _ _ _ => step_of_step?) (by decide +kernel) ?_
  intro s hrun hfind
  exact ⟨(consistent_run hrun).1, hfind⟩

/-- One object with one handle that is transferred once: one reference is held outside and one
by the table, but the count is three. -/
theorem transfer_leaves_reference :
    ∃ s obj, Run (Step Bounded) (init idleChannels)
        [.create 1 .event 0 false, .alloc (some 1) 0xFFFF, .transfer 0xFFFF000100000001] s ∧
      s.kom.objects 1 = some obj ∧ obj.refCount = 3 ∧ s.outside 1 = 1 ∧ s.kom.holders 1 = 1 := by
  have hsome : ((Run.exec (step? Bounded) (init idleChannels)
      [.create 1 .event 0 false, .alloc (some 1) 0xFFFF, .transfer 0xFFFF000100000001]).any fun s =>
      (s.kom.objects 1).any fun obj =>
        decide (obj.refCount = 3 ∧ s.outside 1 = 1 ∧ s.moved 1 = 1)) = true := by
    decide +kernel
  obtain ⟨s, hexec, hfacts⟩ := (any_eq_true _ _).mp hsome
  obtain ⟨obj, hobj, hfacts⟩ := (any_eq_true _ _).mp hfacts
  obtain ⟨hcnt, houtside, hmoved⟩ := of_decide_eq_true hfacts
  have hrun := Run.of_exec (fun _ _ _ => step_of_step?) hexec
  have hrefs := (inv_run hrun).refs.count 1
  have hthree : s.kom.refs 1 = 3 := by
    simp only [Kom.refs, hobj, hcnt]
    rfl
  rw [hthree, expected, houtside, hmoved] at hrefs
  exact ⟨s, obj, hrun, hobj, hcnt, houtside, by omega⟩

/-- No entry is retired in the last generation of its slot. -/
def Fresh (s : Session) : TableOp → Prop
  | .close h | .transfer h => ∀ e ∈ s.kom.find h, (s.kom.entries e.1).generation ≠ 0xFFFF
  | _ => True

/-- The generation of a slot, as a number. -/
def generation (s : Session) (i : Nat) : Nat := (s.kom.entries i).generation.toNat

/-- Only `close` and `transfer` of a valid handle change a generation. -/
lemma generation_of_exec (hexec : s.exec op = .ok s') :
    (∃ h idx o, (op = .close h ∨ op = .transfer h) ∧ s.kom.find h = some (idx, o) ∧
      ∀ i, (s'.kom.entries i).generation = ((s.kom.retire idx).entries i).generation) ∨
    ((∀ h, op = .close h ∨ op = .transfer h → s.kom.find h = none) ∧
      ∀ i, (s'.kom.entries i).generation = (s.kom.entries i).generation) := by
  cases op with
  | create o type state myId =>
    cases hexec
    exact .inr ⟨by simp, fun _ => rfl⟩
  | kobjectRef o =>
    obtain ⟨k, hok, ⟨⟩⟩ := ok_of_bind hexec
    exact .inr ⟨by simp, fun i => by rw [(table_of_kobjectRef hok).1]⟩
  | kobjectUnref o =>
    obtain ⟨k, hok, ⟨⟩⟩ := ok_of_bind hexec
    exact .inr ⟨by simp, fun i => by rw [(table_of_kobjectUnref hok).1]⟩
  | alloc obj caps =>
    obtain ⟨⟨r, k⟩, hok, ⟨⟩⟩ := ok_of_bind hexec
    exact .inr ⟨by simp, generation_of_alloc hok⟩
  | resolve hd reqCaps =>
    obtain ⟨⟨target, k⟩, hok, heq⟩ := ok_of_bind hexec
    have hents : k.entries = s.kom.entries := by
      obtain ⟨-, rfl⟩ | ⟨_, _, -, -, -, href⟩ := resolve_ok hok
      · rfl
      · exact (table_of_kobjectRef href).1
    refine .inr ⟨by simp, fun i => ?_⟩
    cases target <;> cases heq <;> exact congrArg (fun e => (e i).generation) hents
  | dup hd newCaps =>
    obtain ⟨⟨r, k⟩, hok, ⟨⟩⟩ := ok_of_bind hexec
    refine .inr ⟨by simp, fun i => ?_⟩
    obtain ⟨-, rfl⟩ | ⟨_, _, -, -, halloc⟩ := dup_ok hok
    · rfl
    · exact generation_of_alloc halloc i
  | transfer hd =>
    obtain ⟨⟨r, k⟩, hok, heq⟩ := ok_of_bind hexec
    cases hfind : s.kom.find hd with
    | none =>
      rw [hfind] at heq
      cases heq
      rw [(refused_of_find hfind).2.2.1] at hok
      cases hok
      exact .inr ⟨by simp [hfind], fun _ => rfl⟩
    | some entry =>
      rw [hfind] at heq
      cases heq
      exact .inl ⟨hd, entry.1, entry.2, .inr rfl, hfind, generation_of_transfer hok hfind⟩
  | close hd =>
    obtain ⟨k, hok, ⟨⟩⟩ := ok_of_bind hexec
    cases hfind : s.kom.find hd with
    | none =>
      rw [(refused_of_find hfind).2.2.2] at hok
      cases hok
      exact .inr ⟨by simp [hfind], fun _ => rfl⟩
    | some entry =>
      exact .inl ⟨hd, entry.1, entry.2, .inl rfl, hfind, generation_of_close hok hfind⟩

lemma generation_le_of_step (hstep : Step Fresh s op s') (i : Nat) :
    s.generation i ≤ s'.generation i := by
  obtain ⟨-, hfresh, hexec⟩ := hstep
  obtain ⟨h, idx, o, hop, hfind, hgen⟩ | ⟨-, hgen⟩ := generation_of_exec hexec
  · rw [generation, generation, hgen, generation_retire]
    split
    case isFalse => exact le_rfl
    case isTrue heq =>
      have hne : (s.kom.entries idx).generation ≠ 0xFFFF := by
        obtain rfl | rfl := hop <;> exact hfresh (idx, o) hfind
      rw [heq, nextGeneration_toNat hne]
      exact Nat.le_succ _
  · rw [generation, generation, hgen]

lemma generation_lt_of_step (hstep : Step Fresh s op s') (hop : op = .close h ∨ op = .transfer h)
    (hvalid : (s.kom.find h).isSome = true) :
    (handleGeneration h).toNat < s'.generation (handleIndex h) := by
  obtain ⟨-, hfresh, hexec⟩ := hstep
  obtain ⟨h', idx, o, hop', hfind, hgen⟩ | ⟨hnone, -⟩ := generation_of_exec hexec
  · have hsame : h' = h := by
      obtain rfl | rfl := hop <;> simpa [eq_comm] using hop'
    subst hsame
    have hne : (s.kom.entries idx).generation ≠ 0xFFFF := by
      obtain rfl | rfl := hop <;> exact hfresh (idx, o) hfind
    obtain ⟨hidx, -, hcur, -⟩ := find_eq_some.mp hfind
    rw [generation, hgen, hidx, generation_retire, if_pos rfl, nextGeneration_toNat hne, hcur]
    exact Nat.lt_succ_self _
  · rw [hnone h hop] at hvalid
    cases hvalid

/-- Once a handle has been closed or transferred away, every handle with its index and its
generation is refused by every operation, as long as no slot runs out of generations. -/
theorem retired_handle_refused {h h' : BitVec 64} {s₁ s₂ s₃ : Session} {after : List TableOp}
    (hop : op = .close h ∨ op = .transfer h) (hvalid : (s₁.kom.find h).isSome = true)
    (hstep : Step Fresh s₁ op s₂) (hafter : Run (Step Fresh) s₂ after s₃)
    (hindex : handleIndex h' = handleIndex h)
    (hgeneration : handleGeneration h' = handleGeneration h) :
    (∀ reqCaps, s₃.kom.resolve h' reqCaps = .ok (none, s₃.kom)) ∧
      (∀ caps, s₃.kom.dup h' caps = .ok (0, s₃.kom)) ∧
      s₃.kom.transfer h' = .ok (0, s₃.kom) ∧ s₃.kom.close h' = .ok s₃.kom := by
  apply refused_of_find
  have hbehind : (handleGeneration h).toNat < s₃.generation (handleIndex h) :=
    Run.invariant (I := fun s => (handleGeneration h).toNat < s.generation (handleIndex h))
      (fun _ _ _ hlt hstep => hlt.trans_le (generation_le_of_step hstep _)) hafter
      (generation_lt_of_step hstep hop hvalid)
  cases hfind : s₃.kom.find h' with
  | none => rfl
  | some entry =>
    obtain ⟨hidx, -, hcur, -⟩ := find_eq_some.mp hfind
    rw [← hidx, hindex, hgeneration] at hcur
    rw [generation, hcur] at hbehind
    exact absurd hbehind (lt_irrefl _)

instance (s : Session) (op : TableOp) : Decidable (s.Fresh op) := by
  unfold Fresh
  split <;> infer_instance

theorem closed_handle_refused :
    ∃ s₁ s₂ s₃, s₁.kom.find 0xFFFF000100000001 = some (1, 1) ∧
      Step Fresh s₁ (.close 0xFFFF000100000001) s₂ ∧
      Run (Step Fresh) s₂ [.alloc (some 1) 0xFFFF] s₃ ∧
      s₃.kom.find 0xFFFF000200000001 = some (1, 1) ∧
      s₃.kom.close 0xFFFF000100000001 = .ok s₃.kom := by
  have hsome : ((Run.exec (step? Fresh) (init idleChannels)
      [.create 1 .event 0 false, .alloc (some 1) 0xFFFF]).any fun s₁ =>
        decide (s₁.kom.find 0xFFFF000100000001 = some (1, 1)) &&
        (s₁.step? Fresh (.close 0xFFFF000100000001)).any fun s₂ =>
          (Run.exec (step? Fresh) s₂ [.alloc (some 1) 0xFFFF]).any fun s₃ =>
            decide (s₃.kom.find 0xFFFF000200000001 = some (1, 1))) = true := by
    decide +kernel
  obtain ⟨s₁, -, hsome⟩ := (any_eq_true _ _).mp hsome
  obtain ⟨hfind, hsome⟩ := (Bool.and_eq_true _ _).mp hsome
  have hfind := of_decide_eq_true hfind
  obtain ⟨s₂, hclose, hsome⟩ := (any_eq_true _ _).mp hsome
  obtain ⟨s₃, hexec, hnew⟩ := (any_eq_true _ _).mp hsome
  have hstep := step_of_step? hclose
  have hrun := Run.of_exec (fun _ _ _ => step_of_step?) hexec
  exact ⟨s₁, s₂, s₃, hfind, hstep, hrun, of_decide_eq_true hnew,
    (retired_handle_refused (.inl rfl) (by rw [hfind]; rfl) hstep hrun rfl rfl).2.2.2⟩

/-- Two objects and an empty table whose first slot has reached a generation. -/
def slotSession (generation : BitVec 16) : Session where
  kom :=
    { entries := update (Kom.init (fun _ => none) idleChannels).entries 1
        ⟨none, 0, generation⟩
      freelist := 1 :: List.range' 2 (capacity - 2)
      objects := update (update (fun _ => none) 1 (some ⟨.event, 1, 0, false⟩)) 2
        (some ⟨.event, 1, 0, false⟩)
      channels := idleChannels }
  outside := update (update (fun _ => 0) 1 1) 2 1
  moved := fun _ => 0

/-- The first slot holds a handle to one of the objects. -/
def filledSession (generation : BitVec 16) (o : Nat) : Session :=
  { slotSession generation with
    kom :=
      { (slotSession generation).kom with
        entries := update (slotSession generation).kom.entries 1
          ⟨some o, kapRead, generation⟩
        freelist := List.range' 2 (capacity - 2)
        objects := update (slotSession generation).kom.objects o
          (some ⟨.event, 2, 0, false⟩) } }

section
variable (generation : BitVec 16)

lemma slotSession_alloc (ho : o = 1 ∨ o = 2) :
    Step (fun _ _ => True) (slotSession generation) (.alloc (some o) kapRead)
      (filledSession generation o) := by
  refine ⟨?_, trivial, ?_⟩
  · obtain rfl | rfl := ho <;> exact Nat.one_pos
  · obtain rfl | rfl := ho <;> rfl

lemma filledSession_find (o : Nat) :
    (filledSession generation o).kom.find (makeHandle kapRead generation 1) = some (1, o) := by
  refine find_eq_some.mpr ⟨handleIndex_makeHandle _ _ (by decide), by decide, ?_, rfl⟩
  rw [handleGeneration_makeHandle _ _ (by decide)]
  rfl

lemma filledSession_close (ho : o = 1 ∨ o = 2) :
    Step (fun _ _ => True) (filledSession generation o)
      (.close (makeHandle kapRead generation 1)) (slotSession (nextGeneration generation)) := by
  have hobject : (slotSession generation).kom.objects o = some ⟨.event, 1, 0, false⟩ := by
    obtain rfl | rfl := ho <;> rfl
  have hunref : ((filledSession generation o).kom.retire 1).kobjectUnref o =
      .ok (slotSession (nextGeneration generation)).kom := by
    have hobject' : ((filledSession generation o).kom.retire 1).objects o =
        some ⟨.event, 2, 0, false⟩ := update_self ..
    have hobjects : update (filledSession generation o).kom.objects o
        (some ⟨.event, 1, 0, false⟩) = (slotSession generation).kom.objects := by
      rw [filledSession, update_idem, ← hobject, update_eq_self]
    have hents : ((filledSession generation o).kom.retire 1).entries =
        (slotSession (nextGeneration generation)).kom.entries := by
      simp only [retire, filledSession, slotSession, update_idem, update_self]
    rw [Kom.kobjectUnref, hobject']
    exact congrArg Except.ok (Kom.mk.injEq .. ▸ ⟨hents, rfl, hobjects, rfl⟩)
  refine ⟨trivial, trivial, ?_⟩
  simp only [exec, Kom.close, filledSession_find, hunref, bind, Except.bind]
  rfl

end

lemma slotSession_rounds (n : Nat) (generation : BitVec 16) :
    ∃ ops, Run (Step fun _ _ => True) (slotSession generation) ops
      (slotSession (nextGeneration^[n] generation)) := by
  induction n generalizing generation with
  | zero => exact ⟨[], Run.nil _⟩
  | succ n ih =>
    obtain ⟨ops, hrun⟩ := ih (nextGeneration generation)
    exact ⟨_, Run.cons (slotSession_alloc generation (.inr rfl))
      (Run.cons (filledSession_close generation (.inr rfl)) hrun)⟩

lemma slotSession_reached : Run (Step fun _ _ => True) (init idleChannels)
    [.create 1 .event 0 false, .create 2 .event 0 false] (slotSession 1) := by
  have hents : (slotSession 1).kom.entries = (init idleChannels).kom.entries :=
    update_eq_self 1 (init idleChannels).kom.entries
  have hlast : (⟨{ (init idleChannels).kom with
      objects := (slotSession 1).kom.objects }, (slotSession 1).outside, fun _ => 0⟩ : Session) =
        slotSession 1 := by
    rw [Session.mk.injEq, Kom.mk.injEq]
    exact ⟨⟨hents.symm, rfl, rfl, rfl⟩, rfl, rfl⟩
  rw [← hlast]
  exact Run.cons ⟨rfl, trivial, rfl⟩ (Run.single ⟨rfl, trivial, rfl⟩)

lemma nextGeneration_iterate {n : Nat} {generation : BitVec 16}
    (h : generation.toNat + n < 2 ^ 16) :
    (nextGeneration^[n] generation).toNat = generation.toNat + n := by
  induction n generalizing generation with
  | zero => rfl
  | succ n ih =>
    have hne : generation ≠ 0xFFFF := by
      rintro rfl
      rw [show (0xFFFF : BitVec 16).toNat = 2 ^ 16 - 1 from rfl] at h
      omega
    have hnext := nextGeneration_toNat hne
    rw [iterate_succ_apply, ih (by omega), hnext]
    omega

/-- After the close of a handle to object 1 the slot is used 65534 times for object 2; then the
next handle to object 2 is the closed one. -/
theorem closed_handle_revived :
    ∃ before after s₁ s₂ s₃, Run (Step fun _ _ => True) (init idleChannels) before s₁ ∧
      s₁.kom.find 0x8000000100000001 = some (1, 1) ∧
      Step (fun _ _ => True) s₁ (.close 0x8000000100000001) s₂ ∧
      Run (Step fun _ _ => True) s₂ after s₃ ∧
      s₃.kom.find 0x8000000100000001 = some (1, 2) := by
  have hhandle : (0x8000000100000001 : BitVec 64) = makeHandle kapRead 1 1 := by decide
  have hwrap : nextGeneration^[65534] (nextGeneration 1) = 1 := by
    have hlast : nextGeneration^[65533] (nextGeneration 1) = 0xFFFF :=
      BitVec.eq_of_toNat_eq (nextGeneration_iterate (by decide))
    rw [iterate_succ_apply', hlast]
    decide
  obtain ⟨ops, hrun⟩ := slotSession_rounds 65534 (nextGeneration 1)
  rw [hwrap] at hrun
  rw [hhandle]
  refine ⟨_, _, filledSession 1 1, _, filledSession 1 2,
    slotSession_reached.append (Run.single (slotSession_alloc 1 (.inl rfl))),
    filledSession_find 1 1, filledSession_close 1 (.inl rfl),
    hrun.append (Run.single (slotSession_alloc 1 (.inr rfl))), filledSession_find 1 2⟩

end Session

end Singularity.ObjectManager
