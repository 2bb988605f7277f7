import Singularity.ObjectManager.HandleRuns
import Mathlib.Algebra.Order.BigOperators.Group.Finset
import Mathlib.Data.Fintype.BigOperators

/-!
# Concurrent handle-table operations

Threads interleave at the sections of the table lock and at the updates of reference counts.
`alloc` publishes an entry before it takes the reference of the entry, and `dup` reads an object
without taking a reference. In such a gap the count of an object falls short by the references
that threads are about to take, and the object is lost when the count reaches zero.
-/

namespace Singularity.ObjectManager

open Foundation Function Finset Kom

/-- What a thread does next: `…Ref` and `…Unref` stand for updates of the count of `o`,
`…Alloc` for the section of `alloc`. -/
inductive Phase where
  | idle
  | allocRef (o idx : Nat)
  | dupAlloc (o : Nat) (caps : BitVec 16)
  | dupRef (o idx : Nat)
  | transferAlloc (o : Nat) (caps : BitVec 16)
  | transferRef (o idx : Nat)
  | transferUnref (o : Nat)
  | closeUnref (o : Nat)
  deriving DecidableEq

/-- A thread and the references it holds. -/
structure Caller where
  phase : Phase
  owned : Nat → Nat

structure Threads (τ : Type) where
  kom : Kom
  callers : τ → Caller
  moved : Nat → Nat

inductive ThreadEvent (τ : Type) where
  | create (t : τ) (o : Nat) (type : KObjectType) (state : Nat) (myId : Bool)
  | kobjectRef (t : τ) (o : Nat)
  | kobjectUnref (t : τ) (o : Nat)
  | alloc (t : τ) (o : Nat) (caps : BitVec 16)
  | resolve (t : τ) (h : BitVec 64) (reqCaps : BitVec 16)
  | dup (t : τ) (h : BitVec 64) (newCaps : BitVec 16)
  | transfer (t : τ) (h : BitVec 64)
  | close (t : τ) (h : BitVec 64)
  | resume (t : τ)
  deriving DecidableEq

/-- The thread that acts. -/
def ThreadEvent.thread {τ : Type} : ThreadEvent τ → τ
  | .create t _ _ _ _ | .kobjectRef t _ | .kobjectUnref t _ | .alloc t _ _ | .resolve t _ _
  | .dup t _ _ | .transfer t _ | .close t _ | .resume t => t

namespace Phase

/-- The object of an entry whose reference is still to be taken. -/
def pending : Phase → Option Nat
  | .allocRef o _ | .dupRef o _ | .transferRef o _ => some o
  | _ => none

/-- The object to which the operation itself holds a reference. -/
def held : Phase → Option Nat
  | .transferAlloc o _ | .transferRef o _ | .transferUnref o | .closeUnref o => some o
  | _ => none

/-- The object to which a reference is going to be taken without a check. -/
def gap : Phase → Option Nat
  | .dupAlloc o _ => some o
  | p => p.pending

def pends (p : Phase) (o : Nat) : Nat := if p.pending = some o then 1 else 0

end Phase

/-- The references of a thread to an object. -/
def Caller.refs (c : Caller) (o : Nat) : Nat :=
  c.owned o + if c.phase.held = some o then 1 else 0

/-- One reference more. -/
def Caller.take (c : Caller) (o : Nat) : Caller :=
  { c with owned := update c.owned o (c.owned o + 1) }

def Caller.drop (c : Caller) (o : Nat) : Caller :=
  { c with owned := update c.owned o (c.owned o - 1) }

variable {τ : Type}

namespace Threads

variable [DecidableEq τ]

def boot (channels : Nat → ChannelState) : Threads τ :=
  ⟨Kom.init (fun _ => none) channels, fun _ => ⟨.idle, fun _ => 0⟩, fun _ => 0⟩

def set (m : Threads τ) (t : τ) (c : Caller) (k : Kom) : Threads τ :=
  { m with kom := k, callers := update m.callers t c }

def setPhase (m : Threads τ) (t : τ) (p : Phase) (k : Kom) : Threads τ :=
  m.set t { m.callers t with phase := p } k

lemma set_set (m : Threads τ) (t : τ) (c c' : Caller) (k k' : Kom) :
    (m.set t c k).set t c' k' = m.set t c' k' := by
  simp only [set, update_idem]

/-- The section of `alloc`, entered with the phases for success and for a full table. -/
def publish (m : Threads τ) (t : τ) (o : Nat) (caps : BitVec 16) (done : Nat → Phase)
    (full : Phase) : Threads τ :=
  match m.kom.publish o caps with
  | none => m.setPhase t full m.kom
  | some (h, k) => m.setPhase t (done (handleIndex h)) k

/-- The next action of an operation. -/
def resume (m : Threads τ) (t : τ) : Except KomFault (Threads τ) :=
  match (m.callers t).phase with
  | .idle => .ok m
  | .allocRef o _ | .dupRef o _ => do
      let k ← m.kom.kobjectRef o
      .ok (m.setPhase t .idle k)
  | .dupAlloc o caps => .ok (m.publish t o caps (.dupRef o) .idle)
  | .transferAlloc o caps => .ok (m.publish t o caps (.transferRef o) (.transferUnref o))
  | .transferRef o _ => do
      let k ← m.kom.kobjectRef o
      .ok (m.setPhase t (.transferUnref o) k)
  | .transferUnref o | .closeUnref o => do
      let k ← m.kom.kobjectUnref o
      .ok (m.setPhase t .idle k)

def exec (m : Threads τ) : ThreadEvent τ → Except KomFault (Threads τ)
  | .create t o type state myId =>
    .ok (m.set t ((m.callers t).take o) (m.kom.setObject o (some ⟨type, 1, state, myId⟩)))
  | .kobjectRef t o => do
      let k ← m.kom.kobjectRef o
      .ok (m.set t ((m.callers t).take o) k)
  | .kobjectUnref t o => do
      let k ← m.kom.kobjectUnref o
      .ok (m.set t ((m.callers t).drop o) k)
  | .alloc t o caps => .ok (m.publish t o caps (.allocRef o) .idle)
  | .resolve t h reqCaps => do
      let (target, k) ← m.kom.resolve h reqCaps
      match target with
      | none => .ok m
      | some o => .ok (m.set t ((m.callers t).take o) k)
  | .dup t h newCaps =>
    match m.kom.find h with
    | none => .ok m
    | some (idx, o) =>
      if (m.kom.entries idx).caps &&& newCaps ≠ newCaps then .ok m
      else .ok (m.setPhase t (.dupAlloc o newCaps) m.kom)
  | .transfer t h =>
    match m.kom.find h with
    | none => .ok m
    | some (idx, o) => do
        let k ← m.kom.kobjectRef o
        .ok { m.setPhase t (.transferAlloc o (m.kom.entries idx).caps) (k.retire idx) with
          moved := update m.moved o (m.moved o + 1) }
  | .close t h =>
    match m.kom.find h with
    | none => .ok m
    | some (idx, o) => .ok (m.setPhase t (.closeUnref o) (m.kom.retire idx))
  | .resume t => m.resume t

/-- The rest of an operation, when no other thread acts. -/
def finish (t : τ) (m : Threads τ) : Except KomFault (Threads τ) := do
  let m ← m.resume t
  let m ← m.resume t
  m.resume t

/-- Operations are started one at a time by each thread; an object is passed on by a holder. -/
def Allowed (m : Threads τ) : ThreadEvent τ → Prop
  | .create t o _ _ _ => (m.callers t).phase = .idle ∧ m.kom.objects o = none
  | .kobjectRef t o | .kobjectUnref t o | .alloc t o _ =>
    (m.callers t).phase = .idle ∧ 0 < (m.callers t).owned o
  | .resolve t _ _ | .dup t _ _ | .transfer t _ | .close t _ => (m.callers t).phase = .idle
  | .resume _ => True

/-- When the count of the object is down to one, no thread is in a gap with it. -/
def NoGap (m : Threads τ) (o : Nat) : Prop :=
  m.kom.refs o = 1 → ∀ t, (m.callers t).phase.gap ≠ some o

/-- The condition on an action of an operation, in the state before it. -/
def PhaseCondition (m : Threads τ) : Phase → Prop
  | .allocRef o _ | .dupRef o _ | .transferRef o _ => m.kom.refs o + 1 < 2 ^ 32
  | .transferUnref o | .closeUnref o => m.NoGap o
  | _ => True

/-- The last reference to an object is not dropped while a thread is in a gap with the object,
and no count comes around. -/
def Condition (m : Threads τ) : ThreadEvent τ → Prop
  | .kobjectRef _ o => m.kom.refs o + 1 < 2 ^ 32
  | .kobjectUnref _ o => m.NoGap o
  | .resolve _ h _ | .transfer _ h => ∀ e ∈ m.kom.find h, m.kom.refs e.2 + 1 < 2 ^ 32
  | .resume t => m.PhaseCondition (m.callers t).phase
  | _ => True

/-- Entries and holders of references refer to objects that exist, the next action does not
touch a deleted object, and `resolve` returns an object with a new reference to it. -/
structure Safe (m : Threads τ) : Prop where
  entries : ∀ i < capacity, ∀ o, m.kom.slots i = some o → m.kom.objects o ≠ none
  owned : ∀ t o, 0 < (m.callers t).owned o → m.kom.objects o ≠ none
  next : ∀ e, m.Allowed e → m.Condition e → ∃ m', m.exec e = .ok m'
  resolved : ∀ t hd reqCaps o k, m.Condition (.resolve t hd reqCaps) →
    m.kom.resolve hd reqCaps = .ok (some o, k) →
      m.kom.objects o ≠ none ∧ k.refs o = m.kom.refs o + 1

end Threads

/-- The thread has a reference to the object or is about to take one. -/
def Caller.Uses (c : Caller) (o : Nat) : Prop := c.phase.gap = some o ∨ 0 < c.refs o

/-- The count of an object and the references still to be taken are the references of the
threads, of the entries, and those left behind by `transfer`. Only finitely many threads have
acted. -/
structure ThreadInv {τ : Type} (active : Finset τ) (m : Threads τ) : Prop where
  table : m.kom.TableOk
  refs : m.kom.RefsOk m.kom.refs
  balance : ∀ o, m.kom.refs o + ∑ t ∈ active, (m.callers t).phase.pends o =
    ∑ t ∈ active, (m.callers t).refs o + m.kom.holders o + m.moved o
  slots : ∀ i < capacity, ∀ o, m.kom.slots i = some o → 0 < m.kom.refs o
  caller : ∀ t o, (m.callers t).Uses o → 0 < m.kom.refs o
  resting : ∀ t ∉ active, m.callers t = ⟨.idle, fun _ => 0⟩

variable {o : Nat}

namespace Phase
variable {p : Phase}

lemma pends_of_none (h : p.pending = none) (o : Nat) : p.pends o = 0 := by simp [pends, h]

lemma pends_of_some (h : p.pending = some o) (o' : Nat) : p.pends o' = if o' = o then 1 else 0 := by
  simp [pends, h, eq_comm]

lemma gap_of_pending (h : p.pending = some o) : p.gap = some o := by
  cases p <;> first | exact h | cases h

lemma pending_of_gap (h : p.gap = none) : p.pending = none := by
  cases p <;> first | exact h | rfl

end Phase

variable {c : Caller}

lemma Caller.refs_take (c : Caller) (o o' : Nat) :
    (c.take o).refs o' = c.refs o' + if o' = o then 1 else 0 := by
  unfold refs take
  by_cases heq : o' = o
  · subst heq
    simp only [update_self, if_true]
    omega
  · simp only [update_of_ne heq, if_neg heq, Nat.add_zero]

lemma Caller.refs_drop (hpos : 0 < c.owned o) (o' : Nat) :
    (c.drop o).refs o' + (if o' = o then 1 else 0) = c.refs o' := by
  unfold refs drop
  by_cases heq : o' = o
  · subst heq
    simp only [update_self, if_true]
    omega
  · simp only [update_of_ne heq, if_neg heq, Nat.add_zero]

variable {m : Threads τ} {t : τ}

namespace ThreadInv
variable {active : Finset τ}

lemma pos_of_owned (h : ThreadInv active m) (howned : 0 < (m.callers t).owned o) :
    0 < m.kom.refs o :=
  h.caller t o (.inr (Nat.add_pos_left howned _))

variable {hd : BitVec 64} {idx : Nat}

lemma pos_of_find (h : ThreadInv active m)
    (hfind : m.kom.find hd = some (idx, o)) : 0 < m.kom.refs o := by
  obtain ⟨-, hbd, -, hslot⟩ := find_eq_some.mp hfind
  exact h.slots idx hbd.2 o hslot

lemma boot (channels : Nat → ChannelState) : ThreadInv ∅ (Threads.boot (τ := τ) channels) := by
  obtain ⟨htab, hrefs⟩ := Session.inv_init channels
  have hholders (o : Nat) : (Kom.init (fun _ => none) channels).holders o = 0 :=
    slotCount_eq_zero.mpr fun _ _ => rfl
  refine ⟨htab, ⟨fun _ => rfl, hrefs.live⟩, fun o => ?_, ?_, ?_, fun _ _ => rfl⟩
  · rw [sum_empty, sum_empty, Threads.boot, hholders]
    rfl
  · rintro i _ o ⟨⟩
  · rintro t o (hgap | hrefs)
    · cases hgap
    · exact absurd hrefs (lt_irrefl 0)

variable [DecidableEq τ] (h : ThreadInv active m)
include h

section
variable (ht : t ∈ active) {k : Kom} {moved : Nat → Nat}
include ht

lemma alone (hgap : m.NoGap o) (hrefs : 0 < (m.callers t).refs o) (hone : m.kom.refs o = 1) :
    m.kom.holders o = 0 ∧ (m.callers t).refs o = 1 ∧
      ∀ t', t' ≠ t → (m.callers t').refs o = 0 := by
  have hpends : ∑ t ∈ active, (m.callers t).phase.pends o = 0 :=
    sum_eq_zero fun t' _ => if_neg fun hsome => hgap hone t' (Phase.gap_of_pending hsome)
  have hbalance := h.balance o
  rw [hpends, ← add_sum_erase _ (fun t => (m.callers t).refs o) ht] at hbalance
  refine ⟨by omega, by omega, fun t' hne => ?_⟩
  by_cases ht' : t' ∈ active
  · have hrest : ∑ t ∈ active.erase t, (m.callers t).refs o = 0 := by omega
    exact sum_eq_zero_iff.mp hrest t' (mem_erase.mpr ⟨hne, ht'⟩)
  · rw [h.resting t' ht']
    rfl

omit ht in
lemma insert (t : τ) : ThreadInv (insert t active) m := by
  by_cases ht : t ∈ active
  · rwa [insert_eq_of_mem ht]
  refine ⟨h.table, h.refs, fun o => ?_, h.slots, h.caller, fun t' ht' => ?_⟩
  · have hpends : (m.callers t).phase.pends o = 0 := by
      rw [h.resting t ht]
      rfl
    have hrefs : (m.callers t).refs o = 0 := by
      rw [h.resting t ht]
      rfl
    rw [sum_insert ht, sum_insert ht, hpends, hrefs, Nat.zero_add, Nat.zero_add]
    exact h.balance o
  · exact h.resting t' fun hmem => ht' (mem_insert_of_mem hmem)

/-- One thread acts: the balance changes by what it holds before and after. -/
lemma set (htab : k.TableOk) (hrefs : k.RefsOk k.refs) (hbalance : ∀ o,
      k.refs o + c.phase.pends o + (m.callers t).refs o + (m.kom.holders o + m.moved o) =
      m.kom.refs o + (m.callers t).phase.pends o + c.refs o + (k.holders o + moved o))
    (hslots : ∀ i < capacity, ∀ o, k.slots i = some o → 0 < k.refs o)
    (hcaller : ∀ o, c.Uses o → 0 < k.refs o)
    (hothers : ∀ t', t' ≠ t → ∀ o, (m.callers t').Uses o → 0 < k.refs o) :
    ThreadInv active ({ m.set t c k with moved := moved } : Threads τ) := by
  have hself : update m.callers t c t = c := update_self ..
  have hother {t' : τ} (hne : t' ≠ t) : update m.callers t c t' = m.callers t' :=
    update_of_ne hne ..
  refine ⟨htab, hrefs, fun o => ?_, hslots, fun t' o huses => ?_, fun t' ht' => ?_⟩
  · have hpends := sum_update_add ht (fun c : Caller => c.phase.pends o) m.callers c
    have hsum := sum_update_add ht (fun c : Caller => c.refs o) m.callers c
    have hold := h.balance o
    have hlocal := hbalance o
    change k.refs o + ∑ t' ∈ active, (update m.callers t c t').phase.pends o =
      ∑ t' ∈ active, (update m.callers t c t').refs o + k.holders o + moved o
    omega
  · change (update m.callers t c t').Uses o at huses
    by_cases hne : t' = t
    · rw [hne, hself] at huses
      exact hcaller o huses
    · rw [hother hne] at huses
      exact hothers t' hne o huses
  · have hne : t' ≠ t := fun heq => ht' (heq ▸ ht)
    exact (hother hne).trans (h.resting t' ht')

/-- A thread takes a reference, or the one that a new entry still lacks. -/
lemma raise (hents : k.entries = m.kom.entries) (hfree : k.freelist = m.kom.freelist)
    (hrefs : k.RefsOk (update m.kom.refs o (m.kom.refs o + 1))) (hgap : c.phase.gap = none)
    (hbalance : ∀ o', (m.callers t).refs o' + (if o' = o then 1 else 0) =
      (m.callers t).phase.pends o' + c.refs o') : ThreadInv active (m.set t c k) := by
  have hcnt (o' : Nat) : k.refs o' = m.kom.refs o' + if o' = o then 1 else 0 := by
    rw [hrefs.count o']
    by_cases heq : o' = o
    · rw [heq, update_self, if_pos rfl]
    · rw [update_of_ne heq, if_neg heq, Nat.add_zero]
  have hmono {o' : Nat} (hpos : 0 < m.kom.refs o') : 0 < k.refs o' := by
    rw [hcnt]
    omega
  refine h.set ht (h.table.congr hents hfree) ⟨fun _ => rfl, hrefs.live⟩ (fun o' => ?_)
    (fun i hi o' hslot => ?_) (fun o' huses => ?_) fun t' _ o' huses => hmono (h.caller t' o' huses)
  · rw [hcnt, Phase.pends_of_none (Phase.pending_of_gap hgap), holders_congr hents]
    have hlocal := hbalance o'
    omega
  · rw [slots_congr hents] at hslot
    exact hmono (h.slots i hi o' hslot)
  · have hpos : 0 < c.refs o' := huses.resolve_left (hgap ▸ (Option.some_ne_none _).symm)
    by_cases heq : o' = o
    · rw [hcnt, if_pos heq]
      exact Nat.succ_pos _
    · have hlocal := hbalance o'
      rw [if_neg heq] at hlocal
      exact hmono (h.caller t o' (.inr (by omega)))

/-- A thread drops a reference; nothing refers to an object that is deleted with the last one. -/
lemma lower (hnogap : m.NoGap o)
    (hquiet : (m.callers t).phase.pending = none) (hgap : c.phase.gap = none)
    (hlocal : ∀ o', c.refs o' + (if o' = o then 1 else 0) = (m.callers t).refs o') :
    ∃ k, m.kom.kobjectUnref o = .ok k ∧ ThreadInv active (m.set t c k) := by
  have hhas : 0 < (m.callers t).refs o := by
    rw [← hlocal o, if_pos rfl]
    omega
  have hpos : 0 < m.kom.refs o := h.caller t o (.inr hhas)
  obtain ⟨k, hok, hrefs, hents, hfree⟩ := h.refs.kobjectUnref hpos
  have hcnt (o' : Nat) : k.refs o' + (if o' = o then 1 else 0) = m.kom.refs o' := by
    rw [hrefs.count o']
    by_cases heq : o' = o
    · rw [heq, update_self, if_pos rfl]
      omega
    · rw [update_of_ne heq, if_neg heq, Nat.add_zero]
  -- what is in use stays in use, but for the object of which the only reference is dropped
  have hkept {o' : Nat} (hlive : 0 < m.kom.refs o') (hrest : m.kom.refs o = 1 → o' ≠ o) :
      0 < k.refs o' := by
    have heq := hcnt o'
    by_cases hsame : o' = o
    · rw [if_pos hsame] at heq
      have hne : m.kom.refs o ≠ 1 := fun hone => hrest hone hsame
      rw [hsame] at heq hlive ⊢
      omega
    · rw [if_neg hsame] at heq
      omega
  refine ⟨k, hok, h.set ht (h.table.congr hents hfree) ⟨fun _ => rfl, hrefs.live⟩
    (fun o' => ?_) (fun i hi o' hslot => ?_) (fun o' huses => ?_) fun t' hne o' huses => ?_⟩
  · rw [Phase.pends_of_none (Phase.pending_of_gap hgap), Phase.pends_of_none hquiet,
      holders_congr hents]
    have heq := hcnt o'
    have hheld := hlocal o'
    omega
  · rw [slots_congr hents] at hslot
    refine hkept (h.slots i hi o' hslot) ?_
    rintro hone rfl
    have hnone := slotCount_eq_zero.mp (h.alone ht hnogap hhas hone).1 i hi
    simp [hslot] at hnone
  · have hpos' : 0 < c.refs o' :=
      huses.resolve_left (hgap ▸ (Option.some_ne_none _).symm)
    have hheld := hlocal o'
    refine hkept (h.caller t o' (.inr (by omega))) ?_
    rintro hone rfl
    have hsingle := (h.alone ht hnogap hhas hone).2.1
    rw [if_pos rfl] at hheld
    omega
  · refine hkept (h.caller t' o' huses) ?_
    rintro hone rfl
    obtain hsome | hsome := huses
    · exact hnogap hone t' hsome
    · exact hsome.ne' ((h.alone ht hnogap hhas hone).2.2 t' hne)

/-- A thread fills a slot; the reference of the new entry is still to be taken. -/
lemma publish (caps : BitVec 16) (hpos : 0 < m.kom.refs o)
    (hquiet : (m.callers t).phase.pending = none)
    (hdone : ∀ idx, (done idx).pending = some o ∧ (done idx).held = (m.callers t).phase.held)
    (hfull : full.gap = none ∧ full.held = (m.callers t).phase.held) :
    ThreadInv active (m.publish t o caps done full) := by
  have hrefs {p : Phase} (hheld : p.held = (m.callers t).phase.held) (o' : Nat) :
      ({ m.callers t with phase := p } : Caller).refs o' = (m.callers t).refs o' := by
    simp only [Caller.refs, hheld]
  unfold Threads.publish
  split
  · refine h.set ht h.table h.refs (fun o' => ?_) h.slots (fun o' huses => ?_)
      fun t' _ => h.caller t'
    · rw [hrefs hfull.2, Phase.pends_of_none hquiet]
      exact congrArg (m.kom.refs o' + · + _ + _) (Phase.pends_of_none
        (Phase.pending_of_gap hfull.1) o')
    · rw [Caller.Uses, hrefs hfull.2] at huses
      refine h.caller t o' (.inr (huses.resolve_left ?_))
      rw [hfull.1]
      exact (Option.some_ne_none _).symm
  case h_2 hd k hpub =>
    obtain ⟨htab, hbd, hslots, -⟩ := h.table.publish hpub
    obtain ⟨hpend, hheld⟩ := hdone (handleIndex hd)
    have hsame : k.refs = m.kom.refs := by
      funext o'
      rw [Kom.refs, Kom.refs, (objects_of_publish hpub).1]
    refine h.set ht htab (hsame ▸ h.refs.congr (objects_of_publish hpub).1) (fun o' => ?_)
      (fun i hi o' hslot => ?_) (fun o' huses => ?_) fun t' _ o' huses => ?_
    · rw [hrefs hheld, Phase.pends_of_none hquiet, h.table.holders_publish hpub o', hsame,
        Phase.pends_of_some (p := (done (handleIndex hd))) hpend]
      omega
    · rw [hsame]
      by_cases heq : i = handleIndex hd
      · rw [hslots, heq, update_self] at hslot
        cases hslot
        exact hpos
      · rw [hslots, update_of_ne heq] at hslot
        exact h.slots i hi o' hslot
    · rw [hsame]
      rw [Caller.Uses, hrefs hheld] at huses
      obtain hgap | huses := huses
      · cases (Phase.gap_of_pending hpend).symm.trans hgap
        exact hpos
      · exact h.caller t o' (.inr huses)
    · rw [hsame]
      exact h.caller t' o' huses

lemma retire (hbd : 0 < idx ∧ idx < capacity)
    (hslot : m.kom.slots idx = some o) (hquiet : (m.callers t).phase.pending = none)
    (hgap : c.phase.gap = none)
    (hlocal : ∀ o', (m.callers t).refs o' + m.moved o' + (if o' = o then 1 else 0) =
      c.refs o' + moved o')
    (hmoved : ∀ o', m.moved o' ≤ moved o') :
    ThreadInv active ({ m.set t c (m.kom.retire idx) with moved := moved } : Threads τ) := by
  have hslots := slots_retire m.kom idx
  refine h.set ht (h.table.retire hbd (by rw [hslot]; exact Option.some_ne_none o))
    (h.refs.congr rfl) (fun o' => ?_) (fun i hi o' hfilled => ?_) (fun o' huses => ?_)
    fun t' _ => h.caller t'
  · rw [Phase.pends_of_none (Phase.pending_of_gap hgap), Phase.pends_of_none hquiet,
      show (m.kom.retire idx).refs o' = m.kom.refs o' from rfl]
    have hholders := holders_retire hbd.2 hslot o'
    have heq := hlocal o'
    omega
  · rw [hslots] at hfilled
    rw [update_apply] at hfilled
    split_ifs at hfilled
    exact h.slots i hi o' hfilled
  · have hpos : 0 < c.refs o' := huses.resolve_left (hgap ▸ (Option.some_ne_none _).symm)
    by_cases heq : o' = o
    · rw [heq]
      exact h.slots idx hbd.2 o hslot
    have hsum := hlocal o'
    have hle := hmoved o'
    rw [if_neg heq] at hsum
    exact h.caller t o' (.inr (by omega))

/-- `kobject_ref` by a thread. -/
lemma kobjectRef
    (hpos : 0 < m.kom.refs o) (hlt : m.kom.refs o + 1 < 2 ^ 32) (hgap : c.phase.gap = none)
    (hbalance : ∀ o', (m.callers t).refs o' + (if o' = o then 1 else 0) =
      (m.callers t).phase.pends o' + c.refs o') :
    ∃ k, m.kom.kobjectRef o = .ok k ∧ ThreadInv active (m.set t c k) := by
  obtain ⟨k, hok, hrefs, hents, hfree, -⟩ := h.refs.kobjectRef hpos hlt
  exact ⟨k, hok, h.raise ht hents hfree hrefs hgap hbalance⟩

lemma takePending (hpend : (m.callers t).phase.pending = some o) (hlt : m.kom.refs o + 1 < 2 ^ 32)
    (hgap : p.gap = none) (hheld : p.held = (m.callers t).phase.held) :
    ∃ k, m.kom.kobjectRef o = .ok k ∧ ThreadInv active (m.setPhase t p k) := by
  have hpos := h.caller t o (.inl (Phase.gap_of_pending hpend))
  refine h.kobjectRef ht hpos hlt hgap fun o' => ?_
  simp only [Phase.pends_of_some hpend, Caller.refs, hheld]
  omega

lemma dropHeld (hnogap : m.NoGap o)
    (hheld : (m.callers t).phase.held = some o) (hquiet : (m.callers t).phase.pending = none) :
    ∃ k, m.kom.kobjectUnref o = .ok k ∧ ThreadInv active (m.setPhase t .idle k) := by
  refine h.lower ht hnogap hquiet rfl fun o' => ?_
  have hidle : Phase.idle.held = none := rfl
  simp only [Caller.refs, hheld, hidle, Option.some.injEq, reduceCtorEq, if_false, eq_comm (a := o)]
  omega

/-- The actions inside of the operations return and keep the invariant. -/
lemma resume (hcond : m.PhaseCondition (m.callers t).phase) :
    ∃ m', m.resume t = .ok m' ∧ ThreadInv active m' := by
  unfold Threads.resume
  cases hphase : (m.callers t).phase with
  | idle => exact ⟨m, rfl, h⟩
  | allocRef o idx | dupRef o idx =>
    rw [hphase] at hcond
    obtain ⟨k, hok, hI⟩ := h.takePending (p := .idle) ht (by rw [hphase]; rfl) hcond rfl
      (by rw [hphase]; rfl)
    exact ⟨_, by simp only [hok, bind, Except.bind], hI⟩
  | dupAlloc o caps =>
    have hpos := h.caller t o (.inl (by rw [hphase]; rfl))
    refine ⟨_, rfl, h.publish ht caps hpos (by rw [hphase]; rfl) (fun idx => ?_) ?_⟩
    all_goals
      rw [hphase]
      exact ⟨rfl, rfl⟩
  | transferAlloc o caps =>
    have hpos := h.caller t o (.inr (by simp [Caller.refs, hphase, Phase.held]))
    refine ⟨_, rfl, h.publish ht caps hpos (by rw [hphase]; rfl) (fun idx => ?_) ?_⟩
    all_goals
      rw [hphase]
      exact ⟨rfl, rfl⟩
  | transferRef o idx =>
    rw [hphase] at hcond
    obtain ⟨k, hok, hI⟩ := h.takePending (p := .transferUnref o) ht (by rw [hphase]; rfl) hcond
      rfl (by rw [hphase]; rfl)
    exact ⟨_, by simp only [hok, bind, Except.bind], hI⟩
  | transferUnref o | closeUnref o =>
    rw [hphase] at hcond
    obtain ⟨k, hok, hI⟩ := h.dropHeld (o := o) ht hcond (by rw [hphase]; rfl)
      (by rw [hphase]; rfl)
    exact ⟨_, by simp only [hok, bind, Except.bind], hI⟩

variable (hidle : (m.callers t).phase = .idle)
include hidle

lemma takeOwned (hpos : 0 < m.kom.refs o) (hlt : m.kom.refs o + 1 < 2 ^ 32) :
    ∃ k, m.kom.kobjectRef o = .ok k ∧
      ThreadInv active (m.set t ((m.callers t).take o) k) := by
  refine h.kobjectRef ht hpos hlt (by rw [Caller.take, hidle]; rfl) fun o' => ?_
  rw [Caller.refs_take, Phase.pends_of_none (by rw [hidle]; rfl), Nat.zero_add]

/-- The sections in which `close` and `transfer` retire an entry. -/
lemma close (hfind : m.kom.find hd = some (idx, o)) :
    ThreadInv active (m.setPhase t (.closeUnref o) (m.kom.retire idx)) := by
  obtain ⟨-, hbd, -, hslot⟩ := find_eq_some.mp hfind
  refine h.retire (c := { m.callers t with phase := .closeUnref o }) ht hbd hslot
    (by rw [hidle]; rfl) rfl (fun o' => ?_) fun _ => le_rfl
  simp only [Caller.refs, hidle, Phase.held, Option.some.injEq, reduceCtorEq, if_false,
    eq_comm (a := o)]
  omega

lemma transfer
    (hfind : m.kom.find hd = some (idx, o)) (hlt : m.kom.refs o + 1 < 2 ^ 32) (caps : BitVec 16) :
    ∃ k, m.kom.kobjectRef o = .ok k ∧
      ThreadInv active ({ m.setPhase t (.transferAlloc o caps) (k.retire idx) with
        moved := update m.moved o (m.moved o + 1) } : Threads τ) := by
  obtain ⟨-, hbd, -, hslot⟩ := find_eq_some.mp hfind
  obtain ⟨k, hok, hI⟩ := h.takeOwned ht hidle (h.pos_of_find hfind) hlt
  have hself : (m.set t ((m.callers t).take o) k).callers t = (m.callers t).take o :=
    update_self ..
  have hslot' : k.slots idx = some o := by
    rw [slots_congr (table_of_kobjectRef hok).1, hslot]
  refine ⟨k, hok, ?_⟩
  rw [Threads.setPhase, ← Threads.set_set m t ((m.callers t).take o) _ k]
  refine hI.retire (o := o) ht hbd hslot' (by rw [hself, Caller.take, hidle]; rfl) rfl
    (fun o' => ?_) fun o' => ?_
  · rw [hself, Caller.refs_take]
    change _ + m.moved o' + _ = _
    by_cases heq : o' = o
    · subst heq
      simp only [Caller.refs, hidle, Phase.held, update_self, reduceCtorEq, if_true, if_false]
      omega
    · simp [Caller.refs, hidle, Phase.held, heq, Ne.symm heq]
  · rw [update_apply]
    split_ifs with heq
    · rw [heq]
      exact Nat.le_succ _
    · rfl

end

/-- Every action that the threads are allowed to take returns and keeps the invariant. -/
lemma exec (ht : ∀ t, e.thread = t → t ∈ active) (hallow : m.Allowed e) (hcond : m.Condition e) :
    ∃ m', m.exec e = .ok m' ∧ ThreadInv active m' := by
  cases e with
  | create t o type state myId =>
    obtain ⟨hidle, hnone⟩ := hallow
    have h0 : m.kom.refs o = 0 := h.refs.objects_eq_none.mp hnone
    have hone : (1 : BitVec 32) ≠ 0 := by decide
    have hrefs := h.refs.setObject (o := o) ⟨type, 1, state, myId⟩ hone
    refine ⟨_, rfl, h.raise (o := o) (ht t rfl) rfl rfl ?_ ?_ fun o' => ?_⟩
    · rwa [h0]
    · rw [Caller.take, hidle]
      rfl
    · rw [Caller.refs_take, Phase.pends_of_none (by rw [hidle]; rfl), Nat.zero_add]
  | kobjectRef t o =>
    obtain ⟨k, hok, hI⟩ :=
      h.takeOwned (ht t rfl) hallow.1 (h.pos_of_owned hallow.2) hcond
    exact ⟨_, by simp only [Threads.exec, hok, bind, Except.bind], hI⟩
  | kobjectUnref t o =>
    obtain ⟨hidle, howned⟩ := hallow
    obtain ⟨k, hok, hI⟩ := h.lower (c := (m.callers t).drop o) (ht t rfl) hcond
      (by rw [hidle]; rfl) (by rw [Caller.drop, hidle]; rfl) (Caller.refs_drop howned)
    exact ⟨_, by simp only [Threads.exec, hok, bind, Except.bind], hI⟩
  | alloc t o caps =>
    obtain ⟨hidle, howned⟩ := hallow
    refine ⟨_, rfl, h.publish (ht t rfl) caps (h.pos_of_owned howned) (by rw [hidle]; rfl)
      (fun idx => ?_) ?_⟩
    all_goals
      rw [hidle]
      exact ⟨rfl, rfl⟩
  | resolve t hd reqCaps =>
    obtain hrefused | ⟨idx, o, hfind, -, href⟩ := m.kom.resolve_cases hd reqCaps
    · exact ⟨m, by simp only [Threads.exec, hrefused, bind, Except.bind], h⟩
    · obtain ⟨k, hok, hI⟩ :=
        h.takeOwned (ht t rfl) hallow (h.pos_of_find hfind) (hcond (idx, o) hfind)
      exact ⟨_, by simp only [Threads.exec, href, hok, Except.map, bind, Except.bind], hI⟩
  | dup t hd newCaps =>
    have hidle : (m.callers t).phase = .idle := hallow
    cases hfind : m.kom.find hd with
    | none => exact ⟨m, by simp only [Threads.exec, hfind], h⟩
    | some entry =>
      obtain ⟨idx, o⟩ := entry
      by_cases hcaps : (m.kom.entries idx).caps &&& newCaps ≠ newCaps
      · exact ⟨m, by simp only [Threads.exec, hfind, if_pos hcaps], h⟩
      refine ⟨m.setPhase t (.dupAlloc o newCaps) m.kom, ?_, ?_⟩
      · simp only [Threads.exec, hfind, if_neg hcaps]
      refine h.set (ht t rfl) h.table h.refs (fun o' => ?_) h.slots (fun o' huses => ?_)
        fun t' _ => h.caller t'
      · rw [Caller.refs, hidle]
        rfl
      obtain hgap | huses := huses
      · cases hgap
        exact h.pos_of_find hfind
      · exact h.pos_of_owned huses
  | transfer t hd =>
    cases hfind : m.kom.find hd with
    | none => exact ⟨m, by simp only [Threads.exec, hfind], h⟩
    | some entry =>
      obtain ⟨idx, o⟩ := entry
      obtain ⟨k, hok, hI⟩ := h.transfer (ht t rfl) hallow hfind (hcond (idx, o) hfind)
        (m.kom.entries idx).caps
      exact ⟨_, by simp only [Threads.exec, hfind, hok, bind, Except.bind], hI⟩
  | close t hd =>
    cases hfind : m.kom.find hd with
    | none => exact ⟨m, by simp only [Threads.exec, hfind], h⟩
    | some entry =>
      obtain ⟨idx, o⟩ := entry
      exact ⟨_, by simp only [Threads.exec, hfind], h.close (ht t rfl) hallow hfind⟩
  | resume t => exact h.resume (ht t rfl) hcond

lemma safe : m.Safe := by
  have hlive {o : Nat} (hpos : 0 < m.kom.refs o) : m.kom.objects o ≠ none :=
    fun hnone => hpos.ne' (h.refs.objects_eq_none.mp hnone)
  refine ⟨fun i hi o hslot => hlive (h.slots i hi o hslot), fun t o howned =>
    hlive (h.pos_of_owned howned), fun e hallow hcond => ?_, fun t hd reqCaps o k hcond hok => ?_⟩
  · have hmem (t : τ) (heq : e.thread = t) : t ∈ Insert.insert e.thread active :=
      heq ▸ mem_insert_self _ _
    obtain ⟨m', hok, -⟩ := (h.insert e.thread).exec hmem hallow hcond
    exact ⟨m', hok⟩
  · obtain ⟨⟨⟩, -⟩ | ⟨idx, o', heq, hfind, -, href⟩ := resolve_ok hok
    cases heq
    have hpos := h.pos_of_find hfind
    obtain ⟨k', hok', hrefs, -⟩ := h.refs.kobjectRef hpos (hcond (idx, o) hfind)
    rw [href] at hok'
    cases hok'
    rw [hrefs.count, update_self]
    exact ⟨hlive hpos, rfl⟩

end ThreadInv

namespace Threads
variable [DecidableEq τ] {m' : Threads τ} {e : ThreadEvent τ}

@[simp] lemma setPhase_kom (m : Threads τ) (t : τ) (p : Phase) (k : Kom) :
    (m.setPhase t p k).kom = k := rfl

@[simp] lemma setPhase_phase (m : Threads τ) (t : τ) (p : Phase) (k : Kom) :
    ((m.setPhase t p k).callers t).phase = p := by
  simp [setPhase, set]

section
variable (hidle : (m.callers t).phase = .idle)
include hidle

lemma finish_idle : finish t m = .ok m := by
  have hresume : m.resume t = .ok m := by
    rw [resume, hidle]
  simp only [finish, hresume, bind, Except.bind]

omit hidle in
lemma finish_alloc (t : τ) (o : Nat) (caps : BitVec 16) :
    (m.exec (.alloc t o caps) >>= finish t).map kom = (m.kom.alloc (some o) caps).map Prod.snd := by
  simp only [exec, publish, Kom.alloc]
  cases hpub : m.kom.publish o caps with
  | none => simp [finish, resume, bind, Except.bind, Except.map]
  | some result =>
    cases hk : result.2.kobjectRef o <;>
      simp [finish, resume, bind, Except.bind, Except.map, hk]

lemma finish_dup (h : BitVec 64) (newCaps : BitVec 16) :
    (m.exec (.dup t h newCaps) >>= finish t).map kom = (m.kom.dup h newCaps).map Prod.snd := by
  simp only [exec, Kom.dup]
  cases m.kom.find h with
  | none => exact congrArg (Except.map kom) (finish_idle hidle)
  | some entry =>
    dsimp only
    split
    · exact congrArg (Except.map kom) (finish_idle hidle)
    · simp only [Kom.alloc]
      cases hpub : m.kom.publish entry.2 newCaps with
      | none => simp [finish, resume, publish, hpub, bind, Except.bind, Except.map]
      | some result =>
        cases hk : result.2.kobjectRef entry.2 <;>
          simp [finish, resume, publish, hpub, bind, Except.bind, Except.map, hk]

lemma finish_transfer (h : BitVec 64) :
    (m.exec (.transfer t h) >>= finish t).map kom = (m.kom.transfer h).map Prod.snd := by
  simp only [exec, Kom.transfer]
  cases m.kom.find h with
  | none => exact congrArg (Except.map kom) (finish_idle hidle)
  | some entry =>
    dsimp only
    cases hk : m.kom.kobjectRef entry.2 with
    | error fault => rfl
    | ok k =>
      simp only [Kom.alloc]
      cases hpub : (k.retire entry.1).publish entry.2 (m.kom.entries entry.1).caps with
      | none =>
        cases hk1 : (k.retire entry.1).kobjectUnref entry.2 <;>
          simp [finish, resume, publish, hpub, bind, Except.bind, Except.map, hk1]
      | some result =>
        cases hk1 : result.2.kobjectRef entry.2 with
        | error fault => simp [finish, resume, publish, hpub, bind, Except.bind, Except.map, hk1]
        | ok k1 =>
          cases hk2 : k1.kobjectUnref entry.2 <;>
            simp [finish, resume, publish, hpub, bind, Except.bind, Except.map, hk1, hk2]

lemma finish_close (h : BitVec 64) :
    (m.exec (.close t h) >>= finish t).map kom = m.kom.close h := by
  simp only [exec, Kom.close]
  cases m.kom.find h with
  | none => exact congrArg (Except.map kom) (finish_idle hidle)
  | some entry =>
    cases hk : (m.kom.retire entry.1).kobjectUnref entry.2 <;>
      simp [finish, resume, bind, Except.bind, Except.map, hk]

end

/-- An action that a thread is allowed to take and that meets a condition. -/
def Step (cond : Threads τ → ThreadEvent τ → Prop) (m : Threads τ) (e : ThreadEvent τ)
    (m' : Threads τ) : Prop :=
  m.Allowed e ∧ cond m e ∧ m.exec e = .ok m'

/-- In every interleaving in which the last reference to an object is not dropped while a thread
is in a gap with it, entries and references are to objects that exist. -/
theorem safe_run {channels : Nat → ChannelState} {events : List (ThreadEvent τ)}
    (hrun : Run (Step Condition) (boot channels) events m) : m.Safe := by
  have hI : ∃ active, ThreadInv active m := by
    refine Run.invariant (I := fun m => ∃ active, ThreadInv active m) ?_ hrun ⟨∅, .boot channels⟩
    rintro m e m' ⟨active, h⟩ ⟨hallow, hcond, hexec⟩
    obtain ⟨m1, hok, h1⟩ := (h.insert e.thread).exec
      (fun t heq => heq ▸ mem_insert_self _ _) hallow hcond
    rw [hexec] at hok
    cases hok
    exact ⟨_, h1⟩
  obtain ⟨active, h⟩ := hI
  exact h.safe

instance (m : Threads τ) (e : ThreadEvent τ) : Decidable (m.Allowed e) := by
  unfold Allowed
  split <;> infer_instance

instance [Fintype τ] (m : Threads τ) (o : Nat) : Decidable (m.NoGap o) :=
  inferInstanceAs (Decidable (_ → _))

instance [Fintype τ] (m : Threads τ) (p : Phase) : Decidable (m.PhaseCondition p) := by
  unfold PhaseCondition
  split <;> infer_instance

instance [Fintype τ] (m : Threads τ) (e : ThreadEvent τ) : Decidable (m.Condition e) := by
  unfold Condition
  split <;> infer_instance

def step? (cond : Threads τ → ThreadEvent τ → Prop) [∀ m e, Decidable (cond m e)]
    (m : Threads τ) (e : ThreadEvent τ) : Option (Threads τ) :=
  if m.Allowed e ∧ cond m e then (m.exec e).toOption else none

lemma step_of_step? {cond : Threads τ → ThreadEvent τ → Prop} [∀ m e, Decidable (cond m e)]
    (h : m.step? cond e = some m') : Step cond m e m' := by
  obtain ⟨hcond, h⟩ := then_of_ite h
  exact ⟨hcond.1, hcond.2, ok_of_toOption h⟩

/-- Thread `true` duplicates, transfers and closes handles of the object of thread `false`, which
drops its reference in the meantime. -/
def twoThreads : List (ThreadEvent Bool) :=
  [.create false 1 .event 0 false, .alloc false 1 0xFFFF, .resume false,
    .resolve true 0xFFFF000100000001 kapRead, .dup true 0xFFFF000100000001 kapRead,
    .kobjectUnref false 1, .resume true, .close false 0xFFFF000100000001, .resume true,
    .resume false, .kobjectUnref true 1, .transfer true 0x8000000100000002, .resume true,
    .resume true, .resume true]

theorem twoThreads_safe : ∃ m : Threads Bool,
    Run (Step Condition) (boot Session.idleChannels) twoThreads m ∧ m.Safe ∧
      m.kom.find 0x8000000200000002 = some (2, 1) ∧ (m.callers true).phase = .idle := by
  refine Run.exists_of_exec (P := fun m => m.kom.find 0x8000000200000002 = some (2, 1) ∧
    (m.callers true).phase = .idle) (fun _ _ _ => step_of_step?) (by decide +kernel) ?_
  intro m hrun hfacts
  exact ⟨safe_run hrun, hfacts⟩

/-- A `close` of the last handle falls between the two sections of `dup`: the new entry refers to
a deleted object. -/
def dupGap : List (ThreadEvent Bool) :=
  [.create false 1 .event 0 false, .alloc false 1 0xFFFF, .resume false, .kobjectUnref false 1,
    .dup true 0xFFFF000100000001 kapRead, .close false 0xFFFF000100000001, .resume false,
    .resume true]

/-- A `close` of a guessed handle falls between the section of `alloc` and its `kobject_ref`: the
object is deleted while its creator has a reference, and `kobject_ref` touches it. -/
def allocGap : List (ThreadEvent Bool) :=
  [.create false 1 .event 0 false, .alloc false 1 0xFFFF, .close true 0xFFFF000100000001,
    .resume true]

theorem gaps_lose_objects :
    (∃ m : Threads Bool, Run (Step fun _ _ => True) (boot Session.idleChannels) dupGap m ∧
      m.kom.slots 1 = some 1 ∧ m.kom.objects 1 = none) ∧
    ∃ m : Threads Bool, Run (Step fun _ _ => True) (boot Session.idleChannels) allocGap m ∧
      0 < (m.callers false).owned 1 ∧ m.kom.objects 1 = none ∧ m.Allowed (.resume false) ∧
      (m.exec (.resume false)).toOption.isNone = true := by
  constructor
  all_goals exact Run.exists_of_exec (fun _ _ _ => step_of_step?) (by decide +kernel) fun _ _ h => h

end Threads

end Singularity.ObjectManager
