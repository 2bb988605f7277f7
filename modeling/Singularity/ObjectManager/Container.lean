import Singularity.ObjectManager.HandleRuns

/-!
# Containers of named objects

A container keeps its bindings in a list with the newest first. It is compared with a partial
map from names to objects. The references to an object are those of the bindings and those
that others hold; `outside` counts the latter. The objects in a container hold no references
of their own.
-/

namespace Singularity.ObjectManager

open Foundation Function

/-- The text before the zero byte; `none` is the null pointer. -/
abbrev CString := Option (List UInt8)

structure OnsBinding where
  name : List UInt8
  obj : Nat

inductive ContainerStatus where
  | ok
  | invalidType
  | noMemory
  | collision
  | notFound
  | unsupported
  deriving DecidableEq

structure KContainer where
  kom : Kom
  bindings : List OnsBinding
  outside : Nat → Nat

/-- The calls of a container, and a holder of a reference that gives it back. The flags are
the outcomes of `kmalloc`; `address` is where the new object of `create_child` is placed. -/
inductive ContainerCall where
  | bind (name : CString) (obj : Option Nat) (memory : Bool)
  | unbind (name : CString)
  | lookup (name : CString)
  | createChild (name : CString) (type : KObjectType) (address : Nat) (memory : Bool)
  | kobjectUnref (obj : Nat)

namespace KContainer

variable {s : KContainer} {name : List UInt8} {o : Nat} {k : Kom} {b : OnsBinding}
  {l r : List OnsBinding} {n : Nat → Nat} {call : ContainerCall}

def find (s : KContainer) (name : List UInt8) : Option OnsBinding :=
  s.bindings.find? fun b => b.name = name

def bind (s : KContainer) (name : CString) (obj : Option Nat) (memory : Bool) :
    Except KomFault (ContainerStatus × KContainer) :=
  match name, obj with
  | some name, some o =>
    if 64 ≤ name.length then .ok (.noMemory, s)
    else if (s.find name).isSome then .ok (.collision, s)
    else if memory = false then .ok (.noMemory, s)
    else do
      let k ← s.kom.kobjectRef o
      .ok (.ok, { s with kom := k, bindings := ⟨name.take 63, o⟩ :: s.bindings })
  | _, _ => .ok (.invalidType, s)

def unbind (s : KContainer) (name : CString) :
    Except KomFault (ContainerStatus × KContainer) :=
  match name with
  | none => .ok (.invalidType, s)
  | some name =>
    match s.find name with
    | none => .ok (.notFound, s)
    | some b => do
      let k ← s.kom.kobjectUnref b.obj
      .ok (.ok, { s with kom := k, bindings := s.bindings.eraseP fun b => b.name = name })

/-- The caller of `lookup` gets a reference of its own. -/
def lookup (s : KContainer) (name : CString) :
    Except KomFault (Option Nat × KContainer) :=
  match name.bind s.find with
  | none => .ok (none, s)
  | some b => do
    let k ← s.kom.kobjectRef b.obj
    .ok (some b.obj, { s with kom := k, outside := update s.outside b.obj (s.outside b.obj + 1) })

def createChild (s : KContainer) (name : CString) (type : KObjectType)
    (address : Nat) (memory : Bool) : Except KomFault (ContainerStatus × KContainer) :=
  if type = .container then do
    let k := s.kom.setObject address (some ⟨.container, 1, 0, false⟩)
    let (res, s) ← { s with kom := k }.bind name (some address) memory
    let k ← s.kom.kobjectUnref address
    .ok (res, { s with kom := k })
  else .ok (.unsupported, s)

def enumerate (s : KContainer) (index : Nat) : CString :=
  s.bindings[index]?.map fun b => b.name.take 63

/-- The loop of the destructor. -/
def destroy (s : KContainer) : Except KomFault Kom :=
  s.bindings.foldlM (fun k b => k.kobjectUnref b.obj) s.kom

def exec (s : KContainer) :
    ContainerCall → Except KomFault ((ContainerStatus × Option Nat) × KContainer)
  | .bind name obj memory => (s.bind name obj memory).map fun r => ((r.1, none), r.2)
  | .unbind name => (s.unbind name).map fun r => ((r.1, none), r.2)
  | .lookup name => (s.lookup name).map fun r => ((.ok, r.1), r.2)
  | .createChild name type address memory =>
    (s.createChild name type address memory).map fun r => ((r.1, none), r.2)
  | .kobjectUnref o => (s.kom.kobjectUnref o).map fun k =>
    ((.ok, none), { s with kom := k, outside := update s.outside o (s.outside o - 1) })

/-- Who binds an object or gives it back has a reference to it, a new object gets a place of
its own, and no reference count comes around. -/
def Proper (s : KContainer) : ContainerCall → Prop
  | .bind _ obj _ => ∀ o ∈ obj, 0 < s.outside o ∧ s.kom.refs o + 1 < 2 ^ 32
  | .lookup name => ∀ b ∈ name.bind s.find, s.kom.refs b.obj + 1 < 2 ^ 32
  | .createChild _ _ address _ => s.kom.objects address = none
  | .kobjectUnref o => 0 < s.outside o
  | .unbind _ => True

def Step (s : KContainer) (e : ContainerCall × ContainerStatus × Option Nat) (s' : KContainer) :
    Prop :=
  s.Proper e.1 ∧ s.exec e.1 = .ok (e.2, s')

/-- What a container is for: a partial map whose names have fewer than 64 bytes. -/
def mapCall (m : List UInt8 → Option Nat) :
    ContainerCall → (ContainerStatus × Option Nat) × (List UInt8 → Option Nat)
  | .bind (some name) (some o) memory | .createChild (some name) .container o memory =>
    if 64 ≤ name.length then ((.noMemory, none), m)
    else if (m name).isSome then ((.collision, none), m)
    else if memory = false then ((.noMemory, none), m)
    else ((.ok, none), update m name (some o))
  | .bind .. | .createChild none .container _ _ | .unbind none => ((.invalidType, none), m)
  | .createChild .. => ((.unsupported, none), m)
  | .unbind (some name) =>
    if (m name).isSome then ((.ok, none), update m name none) else ((.notFound, none), m)
  | .lookup name => ((.ok, name.bind m), m)
  | .kobjectUnref _ => ((.ok, none), m)

def names (s : KContainer) (name : List UInt8) : Option Nat := (s.find name).map OnsBinding.obj

/-- The references to an object, of which the bindings do not hold `n o`. -/
def held (s : KContainer) (n : Nat → Nat) (o : Nat) : Nat :=
  n o + (s.bindings.map OnsBinding.obj).count o

structure Inv (s : KContainer) (n : Nat → Nat) : Prop where
  nodup : (s.bindings.map OnsBinding.name).Nodup
  length : ∀ b ∈ s.bindings, b.name.length ≤ 63
  refs : s.kom.RefsOk (s.held n)

lemma isSome_names : (s.names name).isSome = (s.find name).isSome := Option.isSome_map ..

lemma mem_of_find (h : s.find name = some b) : b ∈ s.bindings ∧ b.name = name :=
  ⟨List.mem_of_find?_eq_some h, by simpa using List.find?_some h⟩

lemma held_pos (h : s.find name = some b) : 0 < s.held n b.obj :=
  Nat.lt_add_left _ (List.count_pos_iff.mpr (List.mem_map_of_mem (mem_of_find h).1))

/-- The references from outside change, and the count of the object with them. -/
lemma Inv.outside (h : s.Inv n) (hrefs : k.RefsOk (update (s.held n) o count))
    (hcount : count + n o = m + s.held n o) (f : Nat → Nat) :
    { s with kom := k, outside := f }.Inv (update n o m) := by
  refine ⟨h.nodup, h.length, hrefs.of_eq fun o' => ?_⟩
  unfold held at *
  rw [update_apply, update_apply]
  split_ifs with ho
  · subst ho
    dsimp only
    omega
  · rfl

lemma eraseP_of_find (h : s.find name = some b) :
    ∃ l r, s.bindings = l ++ b :: r ∧ s.bindings.eraseP (fun b => b.name = name) = l ++ r := by
  obtain ⟨hb, l, r, hs, hl⟩ := List.find?_eq_some_iff_append.mp h
  refine ⟨l, r, hs, ?_⟩
  rw [hs, List.eraseP_append_right _ (by simpa using hl), List.eraseP_cons_of_pos (by exact hb)]

/-- The bindings without one of them, which takes its reference and its name with it. -/
lemma Inv.erase (h : s.Inv n) (hs : s.bindings = l ++ b :: r)
    (hrefs : k.RefsOk (update (s.held n) b.obj (s.held n b.obj - 1))) :
    { s with kom := k, bindings := l ++ r }.Inv n ∧
      { s with kom := k, bindings := l ++ r }.names = update s.names b.name none := by
  have hnodup := h.nodup
  rw [hs, List.map_append, List.map_cons, List.nodup_middle, ← List.map_append] at hnodup
  obtain ⟨hnot, hnodup⟩ := List.nodup_cons.mp hnodup
  refine ⟨⟨hnodup, fun b hb => h.length b ?_, hrefs.of_eq fun o => ?_⟩, funext fun name => ?_⟩
  · rw [hs]
    exact ((List.sublist_cons_self ..).append_left l).subset hb
  · simp only [held, hs, update_apply, List.map_append, List.map_cons, List.count_append,
      List.count_cons, beq_iff_eq]
    by_cases ho : o = b.obj
    · subst ho
      simp only [if_true]
      omega
    · simp [ho, Ne.symm ho]
  · rw [update_apply]
    split_ifs with hname
    · subst hname
      simp only [names, find, Option.map_eq_none_iff, List.find?_eq_none, decide_eq_true_eq]
      exact fun b' hb' heq => hnot (heq ▸ List.mem_map_of_mem hb')
    · simp [names, find, hs, List.find?_append, Ne.symm hname]

/-- A binding is added in front. -/
lemma Inv.insert (h : s.Inv n) (hnew : s.find name = none) (hlen : name.length ≤ 63)
    (hrefs : k.RefsOk (update (s.held n) o (s.held n o + 1))) :
    { s with kom := k, bindings := ⟨name, o⟩ :: s.bindings }.Inv n ∧
      { s with kom := k, bindings := ⟨name, o⟩ :: s.bindings }.names =
        update s.names name (some o) := by
  have hnot : name ∉ s.bindings.map OnsBinding.name := by
    simpa [find] using hnew
  refine ⟨⟨List.nodup_cons.mpr ⟨hnot, h.nodup⟩, List.forall_mem_cons.mpr ⟨hlen, h.length⟩,
    hrefs.of_eq fun o' => ?_⟩, funext fun name' => ?_⟩
  · simp only [held, update_apply, List.map_cons, List.count_cons, beq_iff_eq]
    by_cases ho : o' = o
    · simp [ho, add_assoc]
    · simp [ho, Ne.symm ho]
  · rw [update_apply]
    split_ifs with hname
    · simp [names, find, hname]
    · simp [names, find, Ne.symm hname]

lemma bind_spec (h : s.Inv n) (name : CString) (memory : Bool)
    (hp : ∀ o ∈ obj, 0 < s.held n o ∧ s.kom.refs o + 1 < 2 ^ 32) :
    ∃ status s', s.bind name obj memory = .ok (status, s') ∧ s'.Inv n ∧ s'.outside = s.outside ∧
      mapCall s.names (.bind name obj memory) = ((status, none), s'.names) := by
  cases name with
  | none => exact ⟨_, s, rfl, h, rfl, rfl⟩
  | some name =>
    cases obj with
    | none => exact ⟨_, s, rfl, h, rfl, rfl⟩
    | some o =>
      obtain ⟨hpos, hlt⟩ := hp o rfl
      simp only [bind, mapCall, isSome_names]
      split_ifs with hlen hfind hmem
      · exact ⟨_, s, rfl, h, rfl, rfl⟩
      · exact ⟨_, s, rfl, h, rfl, rfl⟩
      · exact ⟨_, s, rfl, h, rfl, rfl⟩
      rw [h.refs.count] at hlt
      obtain ⟨k, href, hrefs, -⟩ := h.refs.kobjectRef hpos hlt
      rw [href, List.take_of_length_le (by omega)]
      obtain ⟨hinv, hnames⟩ := h.insert (by simpa using hfind) (by omega) hrefs
      exact ⟨_, _, rfl, hinv, rfl, by rw [hnames]⟩

/-- The new object is bound, or deleted again. -/
lemma createChild_spec (h : s.Inv s.outside) (name : CString) (memory : Bool)
    (hp : s.kom.objects o = none) :
    ∃ status s', s.createChild name .container o memory = .ok (status, s') ∧ s'.Inv s'.outside ∧
      mapCall s.names (.bind name (some o) memory) = ((status, none), s'.names) := by
  have hzero : s.held s.outside o = 0 := h.refs.objects_eq_none.mp hp
  have hout : s.outside o = 0 := (Nat.add_eq_zero_iff.mp hzero).1
  let k := s.kom.setObject o (some ⟨.container, 1, 0, false⟩)
  have hrefs : k.RefsOk (update (s.held s.outside) o 1) := h.refs.setObject _ (by decide)
  have hnew : { s with kom := k }.Inv (update s.outside o 1) := h.outside hrefs (by omega) _
  have hone : k.refs o = 1 := by rw [hrefs.count, update_self]
  have hproper : ∀ o' ∈ some o, 0 < { s with kom := k }.held (update s.outside o 1) o' ∧
      k.refs o' + 1 < 2 ^ 32 := by
    rintro _ ⟨⟩
    rw [← hnew.refs.count, hone]
    decide
  obtain ⟨status, s', hbind, hs', hout', hmap⟩ := bind_spec hnew name memory hproper
  obtain ⟨k', href, hrefs', -⟩ := hs'.refs.kobjectUnref (o := o) (by simp [held])
  have hfinal := hs'.outside hrefs' (m := 0) (by simp only [held, update_self]; omega) s.outside
  rw [update_idem, ← hout, update_eq_self] at hfinal
  refine ⟨status, { s' with kom := k' }, ?_, by rwa [hout'], hmap⟩
  simp only [createChild, if_true]
  change { s with kom := k }.bind name (some o) memory >>= _ = _
  rw [hbind]
  change s'.kom.kobjectUnref o >>= _ = _
  rw [href]
  rfl

/-- Every proper call succeeds, keeps the invariant and answers as the map does. -/
lemma Inv.exec (h : s.Inv s.outside) (hp : s.Proper call) :
    ∃ answer s', s.exec call = .ok (answer, s') ∧ s'.Inv s'.outside ∧
      mapCall s.names call = (answer, s'.names) := by
  cases call with
  | bind name obj memory =>
    obtain ⟨status, s', hbind, hinv, hout, hmap⟩ := bind_spec h name memory fun o ho =>
      ⟨Nat.lt_add_right _ (hp o ho).1, (hp o ho).2⟩
    exact ⟨_, s', by rw [KContainer.exec, hbind]; rfl, hout ▸ hinv, hmap⟩
  | unbind name =>
    cases name with
    | none => exact ⟨_, s, rfl, h, rfl⟩
    | some name =>
      simp only [KContainer.exec, unbind, mapCall, isSome_names]
      cases hfind : s.find name with
      | none => exact ⟨_, s, rfl, h, rfl⟩
      | some b =>
        obtain ⟨k, href, hrefs, -⟩ := h.refs.kobjectUnref (held_pos hfind)
        obtain ⟨l, r, hs, herase⟩ := eraseP_of_find hfind
        obtain ⟨hinv, hnames⟩ := h.erase hs hrefs
        rw [(mem_of_find hfind).2] at hnames
        simp only [href, herase]
        exact ⟨_, _, rfl, hinv, by rw [hnames]; rfl⟩
  | lookup name =>
    have hmap : name.bind s.names = (name.bind s.find).map OnsBinding.obj := by
      cases name <;> rfl
    simp only [KContainer.exec, lookup, mapCall, hmap]
    cases hfind : name.bind s.find with
    | none => exact ⟨_, s, rfl, h, rfl⟩
    | some b =>
      obtain ⟨name, rfl, hb⟩ := Option.bind_eq_some_iff.mp hfind
      have hlt := hp b hfind
      rw [h.refs.count] at hlt
      obtain ⟨k, href, hrefs, -⟩ := h.refs.kobjectRef (held_pos hb) hlt
      simp only [href]
      exact ⟨_, _, rfl, h.outside hrefs (by omega) _, rfl⟩
  | createChild name type address memory =>
    cases type with
    | container =>
      obtain ⟨status, s', hchild, hinv, hmap⟩ := createChild_spec h name memory hp
      exact ⟨_, s', by rw [KContainer.exec, hchild]; rfl, hinv, by cases name <;> exact hmap⟩
    | _ => cases name <;> exact ⟨_, s, rfl, h, rfl⟩
  | kobjectUnref o =>
    have hpos : 0 < s.outside o := hp
    have hheld : s.outside o ≤ s.held s.outside o := Nat.le_add_right ..
    obtain ⟨k, href, hrefs, -⟩ := h.refs.kobjectUnref (hpos.trans_le hheld)
    simp only [KContainer.exec, href]
    exact ⟨_, _, rfl, h.outside hrefs (by omega) _, rfl⟩

lemma Inv.destroy (h : s.Inv n) : ∃ k, s.destroy = .ok k ∧ k.RefsOk n := by
  obtain ⟨k, bindings, f⟩ := s
  have hrefs : k.RefsOk fun o => n o + (bindings.map OnsBinding.obj).count o := h.refs
  clear h
  unfold KContainer.destroy
  -- each turn of the loop gives the reference of the first binding back
  induction bindings generalizing k with
  | nil => exact ⟨k, rfl, hrefs⟩
  | cons b bs ih =>
    obtain ⟨k', href, hrefs', -⟩ := hrefs.kobjectUnref (o := b.obj) (by simp)
    simp only [List.foldlM_cons, href]
    refine ih k' (hrefs'.of_eq fun o => ?_)
    rw [update_apply]
    split_ifs with ho
    · simp [ho]
    · simp [Ne.symm ho]

lemma Inv.run (hrun : Run Step s calls s') (h : s.Inv s.outside) :
    s'.Inv s'.outside ∧ Run (fun m e m' => mapCall m e.1 = (e.2, m')) s.names calls s'.names := by
  induction hrun with
  | nil s => exact ⟨h, .nil _⟩
  | cons head _ ih =>
    obtain ⟨answer, s1, hexec, h1, hmap⟩ := h.exec head.1
    cases head.2.symm.trans hexec
    exact ⟨(ih h1).1, .cons hmap (ih h1).2⟩

lemma Inv.empty (hrefs : k.RefsOk n) : Inv ⟨k, [], n⟩ n := ⟨List.nodup_nil, by simp, hrefs⟩

/-- A listing names every binding once, by the name that `lookup` finds. -/
theorem enumerate_of_run (hrefs : k.RefsOk n) (hrun : Run Step ⟨k, [], n⟩ calls s) :
    (s.names name).isSome ↔ ∃! index, s.enumerate index = some name := by
  obtain ⟨h, -⟩ := Inv.run hrun (Inv.empty hrefs)
  have hlist : ∀ index, s.enumerate index = (s.bindings.map OnsBinding.name)[index]? := by
    intro index
    rw [enumerate, List.getElem?_map]
    refine Option.map_congr fun b hb => List.take_of_length_le ?_
    exact h.length b (List.mem_of_getElem? hb)
  have hmem : (s.names name).isSome ↔ name ∈ s.bindings.map OnsBinding.name := by
    simp [isSome_names, find]
  simp only [hlist, hmem, List.mem_iff_getElem?]
  constructor
  · rintro ⟨i, hi⟩
    refine ⟨i, hi, fun j hj => ?_⟩
    obtain ⟨hlt, -⟩ := List.getElem?_eq_some_iff.mp hj
    exact (List.getElem?_inj hlt h.nodup).mp (hj.trans hi.symm)
  · exact ExistsUnique.exists

def oneEvent : KContainer where
  kom := .init (fun o => if o = 1 then some ⟨.event, 1, 0, false⟩ else none)
    fun _ => ⟨fun _ => [], fun _ => false, 0⟩
  bindings := []
  outside o := if o = 1 then 1 else 0

lemma oneEvent_refs : oneEvent.kom.RefsOk oneEvent.outside := by
  refine ⟨fun o => ?_, fun o obj => ?_⟩
  all_goals
    simp only [oneEvent, Kom.refs, Kom.init]
    split_ifs
  · rfl
  · rfl
  · rintro ⟨⟩
    decide
  · simp

def bindAndLookup : List (ContainerCall × ContainerStatus × Option Nat) :=
  [(.bind (some [97]) (some 1) true, .ok, none), (.lookup (some [97]), .ok, some 1)]

lemma exists_run : ∃ s, Run Step oneEvent bindAndLookup s := by
  refine ⟨_, .cons ⟨?_, rfl⟩ (.cons ⟨?_, rfl⟩ (.nil _))⟩
  all_goals
    rintro _ ⟨⟩
    decide

theorem enumerate_of_run_oneEvent : ∃ s, Run Step oneEvent bindAndLookup s ∧
    ((s.names [97]).isSome ↔ ∃! index, s.enumerate index = some [97]) := by
  obtain ⟨s, hrun⟩ := exists_run
  exact ⟨s, hrun, enumerate_of_run oneEvent_refs hrun⟩

end KContainer

end Singularity.ObjectManager
