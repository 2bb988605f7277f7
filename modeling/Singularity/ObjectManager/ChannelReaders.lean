import Singularity.ObjectManager.Channels

/-!
# Readers in the wait queues of a channel

A write wakes one reader of the other endpoint for its message, and the destructor of an endpoint
wakes one reader of the other. As long as a reader is queued, no message is there that nobody is
on the way to, and the other endpoint is not destroyed. A reader that was woken for a message and
leaves it breaks this when others are queued, and so does the destructor when it finds two.
-/

namespace Singularity.ObjectManager

open Foundation Process Function List Option ChannelState

namespace Channel

/-- If a reader is queued, there is no message for it and the other endpoint is not destroyed, or
a reader is on its way. -/
def NoneStranded (c : Channel) : Prop :=
  ∀ id, (∃ t, c.parking.Queued id t) →
    ((c.queue id).head = 0 ∧ c.closed (!id) = false) ∨
      ∃ t, Parking.OnWay Prod.fst id (c.parking.pc t)

/-- A reader that was woken takes the message, unless it is the last one, and the destructor finds
at most one reader at the other endpoint. -/
def Serves (c : Channel) : ChannelEvent → Prop
  | .read t id args =>
    c.parking.pc t = .woken (id, args) → (c.queue id).head ≠ 0 →
      args.TooSmall (c.contents (c.queue id).head) → (c.parking.queue id).head = 0
  | .close _ id => (c.parking.queue (!id)).head = (c.parking.queue (!id)).tail
  | _ => True

instance (c : Channel) : (e : ChannelEvent) → Decidable (c.Serves e)
  | .prepare .. => isTrue trivial
  | .send _ => isTrue trivial
  | .read .. => inferInstanceAs (Decidable (_ → _ → _ → _))
  | .copyOut _ => isTrue trivial
  | .close .. => inferInstanceAs (Decidable (_ = _))
  | .wake _ => isTrue trivial
  | .kill .. => isTrue trivial

/-- The system calls see the channel `a`; the readers of `w` are queued, `k` are on their way. -/
structure Served (c : Channel) (a : ChannelState) (w : Bool → List Nat) (k : Bool → Nat) :
    Prop where
  inv : ∃ l w, c.Inv l w ∧ c.abs l = a
  parked : Parking.Parked Prod.fst c.parking w
  census : ∀ id, Census (Parking.OnWay Prod.fst id) c.parking.pc (k id)
  awake : ∀ id, w id ≠ [] → (a.queue id).length ≤ k id
  opened : ∀ id, w id ≠ [] → a.closed (!id) = false

variable {c c' : Channel} {a a' : ChannelState} {w w' : Bool → List Nat} {k : Bool → Nat} {t : Nat}
  {id : Bool} {pc : ChannelPc}

lemma Served.create :
    create.Served ⟨fun _ => [], fun _ => false, 2⟩ (fun _ => []) (fun _ => 0) where
  inv := ⟨_, _, Inv.create, rfl⟩
  parked := Parking.Parked.boot _
  census _ := Census.zero fun _ => id
  awake _ h := absurd rfl h
  opened _ h := absurd rfl h

/-- The thread is not on its way to a message. -/
def Settled (pc : ChannelPc) : Prop := ∀ id, ¬Parking.OnWay Prod.fst id pc

lemma Outside.settled (h : Outside pc) : Settled pc := by
  intro id hway
  match pc with
  | .run (.outside _) => exact hway
  | .run (.sending ..) => exact h
  | .run (.copying ..) => exact h
  | .waiting _ => exact h
  | .woken _ => exact h
  | .waking .. => exact h

section
variable (hs : c.Served a w k)
include hs

section
variable (hold : Settled (c.parking.pc t))
include hold

lemma Served.census_stay (hnew : Settled pc) (id : Bool) :
    Census (Parking.OnWay Prod.fst id) (update c.parking.pc t pc) (k id) :=
  (hs.census id).stay (iff_of_false (hnew id) (hold id))

lemma Served.settled (hpc : c'.parking.pc = update c.parking.pc t pc) (hnew : Settled pc)
    (hpark : Parking.Parked Prod.fst c'.parking w) (hI : ∃ l w, c'.Inv l w ∧ c'.abs l = a) :
    c'.Served a w k where
  inv := hI
  parked := hpark
  census id := by
    rw [hpc]
    exact hs.census_stay hold hnew id
  awake := hs.awake
  opened := hs.opened

lemma Served.census_pop (id : Bool) (task : Nat) (role : ChannelRole) :
    ∃ k' : Bool → Nat, (∀ id', Census (Parking.OnWay Prod.fst id') (update c.parking.pc t
        (if task = 0 then .run role else .waking id task role)) (k' id')) ∧
      (∀ id', k id' ≤ k' id') ∧ (task ≠ 0 → k' id = k id + 1) := by
  by_cases h0 : task = 0
  · rw [if_pos h0]
    exact ⟨k, hs.census_stay hold fun _ h => h, fun _ => le_rfl, fun hne => absurd h0 hne⟩
  rw [if_neg h0]
  refine ⟨update k id (k id + 1), fun id' => ?_, fun id' => ?_, fun _ => ?_⟩
  · rw [update_apply]
    split_ifs with heq
    · subst heq
      exact (hs.census id').enter (hold id') rfl
    · exact (hs.census id').stay (iff_of_false (fun h => heq h.symm) (hold id'))
  · rw [update_apply]
    split_ifs with heq
    · subst heq
      exact Nat.le_succ _
    · rfl
  · exact update_self ..

end

variable {rounds : Nat} {args : ReadArgs}

lemma Served.left {r : Popped} {role : ChannelRole}
    {parking : Parking ChannelRole (Bool × ReadArgs) Bool}
    (hnot : ∀ why, c.parking.pc t ≠ .waiting why)
    (hpop : c.parking.pop rounds t id role = some (r, parking))
    (hleft : ((w id).dropWhile c.parking.tasks.gone).tail ≠ []) : r.task ≠ 0 ∧ w id ≠ [] := by
  obtain ⟨hr, -⟩ := hs.parked.pop hnot hpop
  constructor
  · intro h0
    exact hleft (hr.rest_eq_nil 0 (hs.parked.holds id) h0).2.1
  · intro hnil
    rw [hnil] at hleft
    exact hleft rfl

lemma Served.send (hI : ∃ l w, c'.Inv l w ∧ c'.abs l = c.effect a (.send t))
    (hexec : c.exec rounds (.send t) = some c') : ∃ a' w' k', c'.Served a' w' k' := by
  obtain ⟨l, w0, hc, habs⟩ := hs.inv
  simp only [exec] at hexec
  split at hexec
  case h_2 => cases hexec
  case h_1 id data handles msg ht =>
    have hnot (why : Bool × ReadArgs) : c.parking.pc t ≠ .waiting why := by simp [ht]
    have hold : Settled (c.parking.pc t) := by
      rw [ht]
      exact fun _ h => h
    have hclosed : a.closed = c.closed := by rw [← habs]; rfl
    simp only [effect, ht, hclosed] at hI
    split at hexec
    case isTrue hpeer =>
      cases hexec
      rw [if_pos hpeer] at hI
      exact ⟨a, w, k, hs.settled hold rfl (fun _ h => h) (hs.parked.goOn hnot) hI⟩
    case isFalse hpeer =>
      obtain ⟨⟨r, parking⟩, hpop, rfl⟩ := map_eq_some_iff.mp hexec
      obtain ⟨-, hpark, -, hpc⟩ := hs.parked.pop hnot hpop
      obtain ⟨k', hcensus, hle, hfound⟩ :=
        hs.census_pop hold (!id) r.task (.outside (.wrote .ok))
      rw [if_neg hpeer] at hI
      rw [← hpc] at hcensus
      refine ⟨_, _, k', hI, hpark, hcensus, fun id' hne => ?_, fun id' hne => ?_⟩
      · rw [update_apply] at hne
        split_ifs at hne with heq
        · -- one message more, and one reader more on its way to it
          subst heq
          obtain ⟨htask, hwaits⟩ := hs.left hnot hpop hne
          have hawake := hs.awake (!id) hwaits
          simp only [enqueue, update_self, length_append, length_singleton, hfound htask]
          exact Nat.add_le_add_right hawake 1
        · simp only [enqueue, update_of_ne heq]
          exact (hs.awake id' hne).trans (hle id')
      · refine hs.opened id' fun hnil => hne ?_
        rw [update_apply]
        split_ifs with heq
        · subst heq
          rw [hnil]
          rfl
        · exact hnil

lemma Served.close (hI : ∃ l w, c'.Inv l w ∧ c'.abs l = c.effect a (.close t id))
    (hallow : c.Allowed (.close t id)) (hcond : c.Serves (.close t id))
    (hexec : c.exec rounds (.close t id) = some c') : ∃ a' w' k', c'.Served a' w' k' := by
  obtain ⟨allocated, -, hexec⟩ := bind_eq_some_iff.mp hexec
  obtain ⟨⟨r, parking⟩, hpop, rfl⟩ := map_eq_some_iff.mp hexec
  have hnot := hallow.1.not_waiting
  obtain ⟨-, hpark, -, hpc⟩ := hs.parked.pop hnot hpop
  obtain ⟨k', hcensus, hle, -⟩ :=
    hs.census_pop hallow.1.settled (!id) r.task (.outside .closed)
  rw [← hpc] at hcensus
  have hnone : ((w (!id)).dropWhile c.parking.tasks.gone).tail = [] := by
    have htail := congrArg List.length ((hs.parked.holds (!id)).tail_eq_nil hcond)
    have hle := (dropWhile_suffix c.parking.tasks.gone (l := w (!id))).length_le
    rw [length_tail, length_nil] at htail
    rw [← length_eq_zero_iff, length_tail]
    omega
  have hid {id' : Bool} (hne : update w (!id)
      ((w (!id)).dropWhile c.parking.tasks.gone).tail id' ≠ []) : id' = id ∧ w id' ≠ [] := by
    rw [update_apply] at hne
    split_ifs at hne with heq
    · exact absurd hnone hne
    · exact ⟨Bool.not_eq_not.mp heq, hne⟩
  refine ⟨_, _, k', hI, hpark, hcensus, fun id' hne => ?_, fun id' hne => ?_⟩
  · obtain ⟨rfl, -⟩ := hid hne
    simp [effect, closeEndpoint]
  obtain ⟨rfl, hwaits⟩ := hid hne
  simp only [effect, closeEndpoint]
  rw [update_of_ne (by simp)]
  exact hs.opened id' hwaits

section
variable (ht : Outside (c.parking.pc t) ∨ c.parking.pc t = .woken (id, args))
include ht

lemma Served.census_retry (pc : ChannelPc) (hnew : Settled pc) :
    ∃ k' : Bool → Nat,
      (∀ id', Census (Parking.OnWay Prod.fst id') (update c.parking.pc t pc) (k' id')) ∧
      (∀ id' ≠ id, k' id' = k id') ∧ k id ≤ k' id + 1 ∧
      (Outside (c.parking.pc t) → k' id = k id) := by
  obtain ht | ht := ht
  · exact ⟨k, hs.census_stay ht.settled hnew, fun _ _ => rfl, Nat.le_succ _, fun _ => rfl⟩
  refine ⟨update k id (k id - 1), fun id' => ?_, fun id' hne => ?_, ?_, fun h => ?_⟩
  · rw [update_apply]
    split_ifs with heq
    · subst heq
      refine (hs.census id').leave ?_ (hnew id')
      rw [ht]
      rfl
    · refine (hs.census id').stay (iff_of_false (hnew id') ?_)
      rw [ht]
      exact fun h => heq h.symm
  · exact update_of_ne hne ..
  · rw [update_self]
    omega
  · rw [ht] at h
    exact h.elim

lemma Served.leave (hnot : ∀ why, c.parking.pc t ≠ .waiting why)
    (hlast : c.parking.pc t = .woken (id, args) → w id = [])
    (hI : ∃ l w, (c.returns t outcome).Inv l w ∧ (c.returns t outcome).abs l = a) :
    ∃ a' w' k', (c.returns t outcome).Served a' w' k' := by
  obtain ⟨k', hcensus, hothers, -, hsame⟩ :=
    hs.census_retry ht (.run (.outside outcome)) fun _ h => h
  refine ⟨a, w, k', hI, hs.parked.goOn hnot, hcensus, fun id' hne => ?_, hs.opened⟩
  by_cases heq : id' = id
  · subst heq
    rw [hsame (ht.resolve_right fun hwoken => hne (hlast hwoken))]
    exact hs.awake id' hne
  · rw [hothers id' heq]
    exact hs.awake id' hne

end

lemma Served.read (hI : ∃ l w, c'.Inv l w ∧ c'.abs l = c.effect a (.read t id args))
    (hallow : c.Allowed (.read t id args)) (hcond : c.Serves (.read t id args))
    (hexec : c.exec rounds (.read t id args) = some c') : ∃ a' w' k', c'.Served a' w' k' := by
  obtain ⟨hne, ht⟩ := hallow
  have hfree : Outside (c.parking.pc t) ∨ c.parking.pc t = .woken (id, args) :=
    ht.imp_left And.left
  have hnot (why : Bool × ReadArgs) : c.parking.pc t ≠ .waiting why := by
    obtain ht | ht := hfree
    · exact ht.not_waiting why
    · simp [ht]
  obtain ⟨l, w0, hc, habs⟩ := hs.inv
  have hclosed : a.closed = c.closed := by rw [← habs]; rfl
  have hqueue : a.queue id = (l id).map c.contents := by rw [← habs]; rfl
  have hholds := hc.carries.queues.holds id
  simp only [exec] at hexec
  simp only [effect, hqueue] at hI
  split at hexec
  case isTrue hnull =>
    cases hexec
    refine hs.leave hfree hnot (fun hwoken => ?_) ?_
    · -- a reader without room for the sizes has never waited
      have hfacts := hc.carries.facts t
      rw [hwoken] at hfacts
      obtain ⟨hdata, hhandles⟩ := hfacts
      obtain h | h := hnull
      · rw [isNone_iff_eq_none.mp h] at hdata
        cases hdata
      · rw [isNone_iff_eq_none.mp h] at hhandles
        cases hhandles
    · cases hl : (l id).map c.contents with
      | nil =>
        rwa [hl] at hI
      | cons m rest =>
        simp only [hl, if_pos (hnull.imp_right Or.inl)] at hI
        exact hI
  case isFalse hsizes =>
    split at hexec
    case isTrue hhead =>
      obtain ⟨msg, ls, hl⟩ := exists_cons_of_ne_nil (hholds.chain.ne_nil hhead)
      have hmsg : (c.queue id).head = msg := (hl ▸ hholds).head_eq
      simp only [hl, map_cons] at hI
      rw [hmsg] at hexec
      split at hexec <;> cases hexec
      case isTrue hsmall =>
        rw [if_pos (.inr (.inr hsmall))] at hI
        refine hs.leave hfree hnot (fun hwoken => ?_) hI
        exact (hs.parked.holds id).head_eq_zero.mp (hcond hwoken hhead (hmsg.symm ▸ hsmall))
      case isFalse hfits =>
        have hfit : ¬(args.dataSize.isNone ∨ args.handleCount.isNone ∨
            args.TooSmall (c.contents msg)) := by
          rintro (h | h | h)
          · exact hsizes (.inl h)
          · exact hsizes (.inr h)
          · exact hfits h
        rw [if_neg hfit] at hI
        obtain ⟨k', hcensus, hothers, hle, -⟩ := hs.census_retry hfree
          (.run (.copying id args msg (c.removed id).length)) fun _ h => h
        refine ⟨_, w, k', hI, hs.parked.goOn hnot, hcensus, fun id' hwaits => ?_, hs.opened⟩
        have hawake := hs.awake id' hwaits
        by_cases heq : id' = id
        · -- one message less, and at most one reader less on its way
          subst heq
          rw [hqueue, hl] at hawake
          simp only [dequeue, update_self, length_map, map_cons, length_cons] at hawake ⊢
          omega
        · rw [hothers id' heq]
          simp only [dequeue, update_of_ne heq]
          exact hawake
    case isFalse hhead =>
      have hnil : l id = [] := hholds.head_eq_zero.mp (by simpa using hhead)
      simp only [hnil, map_nil] at hI hqueue
      split at hexec <;> cases hexec
      case isTrue hpeer =>
        refine hs.leave hfree hnot (fun _ => ?_) hI
        by_contra hwaits
        have hopened := hs.opened id hwaits
        rw [hclosed, hpeer] at hopened
        cases hopened
      case isFalse hpeer =>
        obtain ⟨k', hcensus, hothers, -, -⟩ := hs.census_retry hfree
          (.waiting (id, args)) fun _ h => h
        refine ⟨a, _, k', hI, hs.parked.park hnot hne rfl, hcensus, fun id' hwaits => ?_,
          fun id' hwaits => ?_⟩
        · by_cases heq : id' = id
          · subst heq
            rw [hqueue]
            exact Nat.zero_le _
          · rw [update_of_ne heq] at hwaits
            rw [hothers id' heq]
            exact hs.awake id' hwaits
        · by_cases heq : id' = id
          · subst heq
            rw [hclosed]
            simpa using hpeer
          · rw [update_of_ne heq] at hwaits
            exact hs.opened id' hwaits

lemma Served.step (hstep : Step Serves c e c') : ∃ a' w' k', c'.Served a' w' k' := by
  obtain ⟨l, w0, hc, habs⟩ := hs.inv
  obtain ⟨l', w0', hc', habs'⟩ := hc.step hstep
  rw [habs] at habs'
  have hI : ∃ l w, c'.Inv l w ∧ c'.abs l = c.effect a e := ⟨l', w0', hc', habs'⟩
  obtain ⟨hallow, hcond, rounds, hexec⟩ := hstep
  cases e with
  | prepare t id data handles mem msg =>
    refine ⟨a, w, k, ?_⟩
    have ht := hallow.1
    simp only [exec] at hexec
    split at hexec <;> cases hexec
    all_goals exact hs.settled ht.settled rfl (fun _ h => h) (hs.parked.goOn ht.not_waiting) hI
  | send => exact hs.send hI hexec
  | read => exact hs.read hI hallow hcond hexec
  | copyOut t =>
    refine ⟨a, w, k, ?_⟩
    simp only [exec] at hexec
    split at hexec <;> cases hexec
    case h_1 ht =>
      have hold : Settled (c.parking.pc t) := by
        rw [ht]
        exact fun _ h => h
      exact hs.settled hold rfl (fun _ h => h) (hs.parked.goOn (by simp [ht])) hI
  | close => exact hs.close hI hallow hcond hexec
  | wake t =>
    obtain ⟨q, task, role, ht⟩ := hallow
    cases hexec
    exact ⟨a, w, k, hI, hs.parked.wake ht, fun id => hs.parked.census_wake ht (hs.census id),
      hs.awake, hs.opened⟩
  | kill id t =>
    cases hexec
    exact ⟨a, w, k, hI, hs.parked.kill (hs.parked.queued_iff.mp hallow), hs.census,
      hs.awake, hs.opened⟩

lemma Served.noneStranded : c.NoneStranded := by
  rintro id ⟨t, hqueued⟩
  obtain ⟨l, w0, hc, habs⟩ := hs.inv
  have hwaits : w id ≠ [] := ne_nil_of_mem (hs.parked.queued_iff.mp hqueued)
  by_cases hhead : (c.queue id).head = 0
  · left
    have hopened := hs.opened id hwaits
    rw [← habs] at hopened
    exact ⟨hhead, hopened⟩
  · right
    have hne : l id ≠ [] := (hc.carries.queues.holds id).chain.ne_nil hhead
    have hawake := hs.awake id hwaits
    rw [← habs] at hawake
    simp only [abs, length_map] at hawake
    exact (hs.census id).pos_iff.mp ((length_pos_iff.mpr hne).trans_le hawake)

end

/-- In every run whose steps meet the condition no reader is stranded in any state. -/
theorem noReaderStranded_of_run {events : List ChannelEvent}
    (hrun : Run (Step Serves) create events c) : c.NoneStranded := by
  obtain ⟨a, w, k, hs⟩ := hrun.invariant (I := fun c => ∃ a w k, c.Served a w k)
    (fun _ _ _ ⟨_, _, _, hs⟩ hstep => hs.step hstep) ⟨_, _, _, Served.create⟩
  exact hs.noneStranded

/-- Two readers wait, the first one with room for so many bytes, and a byte is written. -/
def twoReaders (room : Nat) : List ChannelEvent :=
  [.read 1 false ⟨some room, some 0, true, true⟩, .read 2 false ⟨some 4, some 0, true, true⟩,
    .prepare 3 true (.items [7]) (.items []) ⟨true, true, true, true⟩ 100, .send 3, .wake 3,
    .read 1 false ⟨some room, some 0, true, true⟩]

/-- The first reader takes the message and the second one waits for the next. -/
theorem twoReaders_noneStranded :
    ∃ c, Run (Step Serves) create (twoReaders 4) c ∧ c.parking.Queued false 2 ∧
      c.NoneStranded := by
  refine Run.exists_of_exec (P := fun c => c.parking.queued? 8 false 2 = true)
    (fun _ _ _ => step_of_step?) (by decide +kernel) ?_
  intro c hrun hqueued
  exact ⟨Parking.queued_of_queued? hqueued, noReaderStranded_of_run hrun⟩

/-- The first reader has no room and leaves the message; nobody wakes the second one. -/
theorem twoReaders_strands :
    ∃ c, Run (Step fun _ _ => True) create (twoReaders 0) c ∧ ¬c.NoneStranded := by
  have hsome : ((Run.exec (step? fun _ _ => True) create (twoReaders 0)).any fun c =>
      decide (c.parking.queued? 8 false 2 = true ∧ (c.queue false).head ≠ 0 ∧
        ∀ t ∈ List.range 4, Outside (c.parking.pc t) ∨
          c.parking.pc t = .waiting (false, ⟨some 4, some 0, true, true⟩))) = true := by
    decide +kernel
  have hothers (t : Nat) : ∃ c, Run.exec (step? fun _ _ => True) create (twoReaders 0) = some c ∧
      c.parking.pc (t + 4) = .run (.outside .none) := ⟨_, rfl, rfl⟩
  obtain ⟨c, hexec, hc⟩ := (Option.any_eq_true _ _).mp hsome
  obtain ⟨hqueued, hhead, hpc⟩ := of_decide_eq_true hc
  refine ⟨c, Run.of_exec (fun _ _ _ => step_of_step?) hexec, fun hnone => ?_⟩
  obtain ⟨hempty, -⟩ | ⟨t, hway⟩ := hnone false ⟨2, Parking.queued_of_queued? hqueued⟩
  · exact hhead hempty
  obtain hlt | hge := Nat.lt_or_ge t 4
  · obtain ht | ht := hpc t (mem_range.mpr hlt)
    · exact ht.settled false hway
    · rwa [ht] at hway
  · obtain ⟨o, rfl⟩ := Nat.exists_eq_add_of_le' hge
    obtain ⟨c', hexec', ht⟩ := hothers o
    cases hexec.symm.trans hexec'
    rwa [ht] at hway

end Channel

end Singularity.ObjectManager
