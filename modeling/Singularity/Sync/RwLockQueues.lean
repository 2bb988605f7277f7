import Singularity.Sync.RwLock

/-!
# Tasks in the queues of a reader-writer lock

A queued writer is popped by the last reader or by the writer that leaves. Queued readers are
only woken by a writer that leaves and finds no writer waiting, so somebody must still come to
that point: a writer with the lock or on its way to it, a thread in the loop that wakes the
readers, or a queued writer whom the last reader will pop.
-/

namespace Singularity.Sync

open Foundation Process Function List

namespace NativeRwlock

/-- The thread is in the loop that wakes the readers. -/
def InLoop : Pc RwRole Side Side → Prop
  | .run .releasing => True
  | .waking _ _ .releasing => True
  | _ => False

/-- A task in the queue is not dead. -/
def LiveIn (s : NativeRwlock) (q : Side) : Prop :=
  ∃ t, s.parking.Queued q t ∧ s.parking.tasks.gone t = false

/-- If the lock is free and nobody is woken or about to be, no live task is queued. -/
def NoneStranded (s : NativeRwlock) : Prop :=
  s.readers = 0 → s.writerActive = false →
    (∀ t q, ¬Parking.OnWay id q (s.parking.pc t)) → (∀ t, ¬InLoop (s.parking.pc t)) →
    ∀ q, ¬s.LiveIn q

/-- No reader finds the lock full while no writer is there, a release that pops a writer finds a
live one if a live reader is queued, and nobody else wakes the tasks. -/
def Serves (s : NativeRwlock) : RwEvent → Prop
  | .acquireRead _ _ =>
    s.readers < rwlockMaxReaders ∨ s.writerActive = true ∨ s.writeWaiters ≠ 0
  | .releaseRead _ => s.readers = 1 → 0 < s.writeWaiters → s.LiveIn .read → s.LiveIn .write
  | .releaseWrite _ => 0 < s.writeWaiters → s.LiveIn .read → s.LiveIn .write
  | .stray _ => False
  | _ => True

/-- The queues hold the tasks of `l`, and `n` writers are on their way. -/
structure Served (s : NativeRwlock) (l : Side → List Nat) (n : Nat) : Prop where
  agree : s.Agree
  parked : Parking.Parked id s.parking l
  census : Census (Parking.OnWay id .write) s.parking.pc n
  waiters : s.writeWaiters = (l .write).length
  writers : l .write ≠ [] → s.writerActive = true ∨ 0 < s.readers ∨ 0 < n
  readers : (∃ t ∈ l .read, s.parking.tasks.gone t = false) →
    s.writerActive = true ∨ 0 < n ∨ (∃ t, InLoop (s.parking.pc t)) ∨
      (0 < s.readers ∧ l .write ≠ [])

variable {s s' : NativeRwlock} {l : Side → List Nat} {n t : Nat} {ts : Tasks} {ls : List Nat}

lemma Served.create : create.Served (fun _ => []) 0 where
  agree := Agree.create
  parked := Parking.Parked.boot _
  census := Census.zero fun _ => id
  waiters := rfl
  writers h := absurd rfl h
  readers h := by
    obtain ⟨t, ht, -⟩ := h
    cases ht

lemma Served.liveIn_iff (hs : s.Served l n) :
    s.LiveIn q ↔ ∃ t ∈ l q, s.parking.tasks.gone t = false := by
  constructor
  · rintro ⟨t, hqueued, hlive⟩
    exact ⟨t, hs.parked.queued_iff.mp hqueued, hlive⟩
  · rintro ⟨t, hmem, hlive⟩
    exact ⟨t, hs.parked.queued_iff.mpr hmem, hlive⟩

lemma inLoop_update (hold : ¬InLoop (f t)) (hloop : ∃ t', InLoop (f t')) :
    ∃ t', InLoop (update f t pc t') := by
  obtain ⟨t', ht'⟩ := hloop
  have hne : t' ≠ t := fun heq => hold (heq ▸ ht')
  exact ⟨t', by rw [update_of_ne hne]; exact ht'⟩

lemma live_of_state {ts' : Tasks} (ht : t ∉ ls)
    (hst : ∀ t' ≠ t, ts'.state t' = ts.state t') (hlive : ∃ t' ∈ ls, ts'.gone t' = false) :
    ∃ t' ∈ ls, ts.gone t' = false := by
  obtain ⟨t', hmem, hlive⟩ := hlive
  refine ⟨t', hmem, ?_⟩
  rw [← hlive, Tasks.gone, Tasks.gone, hst t' fun heq => ht (heq ▸ hmem)]

variable {rounds : Nat} {proc : Bool}

lemma Served.acquireRead (hs : s.Served l n)
    (hallow : s.Allowed (.acquireRead t proc)) (hcond : s.Serves (.acquireRead t proc))
    (hexec : s.exec rounds (.acquireRead t proc) = some s') : ∃ l' n', s'.Served l' n' := by
  have hagree := hs.agree.exec hallow hexec
  obtain ⟨hne, ht⟩ := hallow
  have hnot (why : Side) : s.parking.pc t ≠ .waiting why := by
    obtain ht | ht := ht <;> simp [ht]
  have hloop : ¬InLoop (s.parking.pc t) := by
    obtain ht | ht := ht <;> rw [ht] <;> exact id
  have hcensus {pc : Pc RwRole Side Side} (hpc : ¬Parking.OnWay id .write pc) :
      Census (Parking.OnWay id .write) (update s.parking.pc t pc) n := by
    apply hs.census.stay
    apply iff_of_false hpc
    obtain ht | ht := ht <;> rw [ht]
    · exact id
    · exact Side.noConfusion
  have hwaiters := hs.waiters
  have hnonneg := hs.agree.nonneg
  simp only [exec] at hexec
  split at hexec
  case isTrue hfree =>
    -- no writer is queued, so the readers in the queue count on somebody else
    cases hexec
    have hnil : l .write = [] := length_eq_zero_iff.mp (by omega)
    refine ⟨l, n, hagree, hs.parked.goOn hnot, hcensus id, hwaiters, fun h => absurd hnil h,
      fun hlive => ?_⟩
    have hlive := live_of_state ((hs.parked.free hnot).1 .read)
      (fun _ hne => update_of_ne hne ..) hlive
    obtain hact | hway | hin | ⟨-, hne⟩ := hs.readers hlive
    · exact .inl hact
    · exact .inr (.inl hway)
    · exact .inr (.inr (.inl (inLoop_update hloop hin)))
    · exact absurd hnil hne
  case isFalse hblocks =>
    split at hexec <;> cases hexec
    case isFalse => exact ⟨l, n, hs⟩
    case isTrue =>
      refine ⟨_, n, hagree, hs.parked.park hnot hne rfl, hcensus id, ?_, ?_, fun _ => ?_⟩
      · rwa [update_of_ne (by simp)]
      · rw [update_of_ne (by simp)]
        exact hs.writers
      rw [update_of_ne (by simp)]
      cases hact : s.writerActive with
      | true => exact .inl rfl
      | false =>
        -- the lock is not full, so a writer is queued
        have hne : l .write ≠ [] := by
          intro hnil
          rw [hnil] at hwaiters
          obtain hroom | hactive' | hwaits := hcond
          · exact hblocks ⟨hact, hwaiters, hroom⟩
          · rw [hact] at hactive'
            cases hactive'
          · exact hwaits hwaiters
        obtain hactive' | hreaders | hway := hs.writers hne
        · rw [hact] at hactive'
          cases hactive'
        · exact .inr (.inr (.inr ⟨hreaders, hne⟩))
        · exact .inr (.inl hway)

section
variable (hs : s.Served l n)
include hs

/-- A release pops a writer, if a live one is queued; else the queue of writers gets empty. -/
lemma Served.popWriter {s0 : NativeRwlock} (hagree : s'.Agree)
    (hpc : Holds (s.parking.pc t)) (hpop : s0.popWriter rounds t = some s')
    (hparking : s0.parking = s.parking) (hwaiters : s0.writeWaiters = s.writeWaiters)
    (hcond : s.LiveIn .read → s.LiveIn .write) : ∃ l' n', s'.Served l' n' := by
  obtain ⟨r, hpop, -, -, -, hwaiters', -⟩ := popWriter_eq hpop
  rw [hparking] at hpop
  have hnot (why : Side) : s.parking.pc t ≠ .waiting why := by
    intro h
    rwa [h] at hpc
  have hway : ¬Parking.OnWay id .write (s.parking.pc t) := by
    intro h
    cases ht : s.parking.pc t <;> rw [ht] at h hpc <;> contradiction
  obtain ⟨hr, hpark, hst, hpc'⟩ := hs.parked.pop hnot hpop
  have hleft : s'.writeWaiters = ((l .write).dropWhile s.parking.tasks.gone).tail.length := by
    rw [hwaiters', hwaiters, hs.waiters]
    have hlen := hr.length_add 0 (hs.parked.holds .write)
    dsimp only [waitersAfter]
    split_ifs at hlen ⊢ <;> omega
  by_cases h0 : r.task = 0
  · obtain ⟨hall, hnil, -⟩ := hr.rest_eq_nil 0 (hs.parked.holds .write) h0
    rw [if_pos h0] at hpc'
    refine ⟨_, n, hagree, hpark, ?_, ?_, ?_, ?_⟩
    · rw [hpc']
      exact hs.census.stay (iff_of_false id hway)
    · rwa [update_self]
    · rw [update_self]
      exact fun h => absurd hnil h
    · rw [update_of_ne (by simp)]
      rintro ⟨t', hmem, hlive⟩
      rw [Tasks.gone, hst] at hlive
      obtain ⟨w, hw, hwlive⟩ := hs.liveIn_iff.mp (hcond (hs.liveIn_iff.mpr ⟨t', hmem, hlive⟩))
      rw [hall w hw] at hwlive
      cases hwlive
  · rw [if_neg h0] at hpc'
    refine ⟨_, n + 1, hagree, hpark, ?_, ?_, fun _ => ?_, fun _ => ?_⟩
    · rw [hpc']
      exact hs.census.enter hway rfl
    · rwa [update_self]
    · exact .inr (.inr n.succ_pos)
    · exact .inr (.inl n.succ_pos)

lemma Served.releaseRead (hallow : s.Allowed (.releaseRead t))
    (hcond : s.Serves (.releaseRead t)) (hexec : s.exec rounds (.releaseRead t) = some s') :
    ∃ l' n', s'.Served l' n' := by
  have hagree := hs.agree.exec hallow hexec
  have hwaiters := hs.waiters
  have ht : s.parking.pc t = .run .reading := hallow
  have hnot (why : Side) : s.parking.pc t ≠ .waiting why := by simp [ht]
  simp only [exec] at hexec
  obtain ⟨hpos, hexec⟩ := then_of_ite hexec
  split at hexec
  case isTrue hlast =>
    refine hs.popWriter hagree ?_ hexec rfl rfl (hcond (by omega) hlast.2)
    rw [ht]
    trivial
  case isFalse hkept =>
    -- another reader is there, or no writer is queued
    cases hexec
    have hother : l .write ≠ [] → 0 < s.readers - 1 := by
      intro hne
      have hlen := length_pos_iff.mpr hne
      by_contra hlast
      exact hkept ⟨by omega, by omega⟩
    refine ⟨l, n, hagree, hs.parked.goOn hnot, ?_, hwaiters, ?_, fun hlive => ?_⟩
    · apply hs.census.stay
      rw [ht]
      exact Iff.rfl
    · exact fun hne => .inr (.inl (hother hne))
    have hlive := live_of_state ((hs.parked.free hnot).1 .read)
      (fun _ hne => update_of_ne hne ..) hlive
    obtain hact | hway | hin | ⟨-, hne⟩ := hs.readers hlive
    · exact .inl hact
    · exact .inr (.inl hway)
    · refine .inr (.inr (.inl (inLoop_update ?_ hin)))
      rw [ht]
      exact id
    · exact .inr (.inr (.inr ⟨hother hne, hne⟩))

lemma Served.census_retry (ht : s.parking.pc t = .run .outside ∨ s.parking.pc t = .woken .write)
    (pc : Pc RwRole Side Side) (hpc : ¬Parking.OnWay id .write pc) :
    ∃ n', Census (Parking.OnWay id .write) (update s.parking.pc t pc) n' := by
  obtain ht | ht := ht
  · refine ⟨n, hs.census.stay (iff_of_false hpc ?_)⟩
    rw [ht]
    exact id
  · refine ⟨n - 1, hs.census.leave ?_ hpc⟩
    rw [ht]
    rfl

lemma Served.acquireWrite (hallow : s.Allowed (.acquireWrite t proc))
    (hexec : s.exec rounds (.acquireWrite t proc) = some s') : ∃ l' n', s'.Served l' n' := by
  have hagree := hs.agree.exec hallow hexec
  obtain ⟨hne, ht⟩ := hallow
  have hnot (why : Side) : s.parking.pc t ≠ .waiting why := by
    obtain ht | ht := ht <;> simp [ht]
  have hwaiters := hs.waiters
  have hnonneg := hs.agree.nonneg
  simp only [exec] at hexec
  split at hexec
  case isTrue hfree =>
    cases hexec
    obtain ⟨n', hcensus⟩ := hs.census_retry ht (.run .writing) id
    exact ⟨l, n', hagree, hs.parked.goOn hnot, hcensus, hwaiters, fun _ => .inl rfl,
      fun _ => .inl rfl⟩
  case isFalse hblocks =>
    split at hexec <;> cases hexec
    case isFalse => exact ⟨l, n, hs⟩
    case isTrue =>
      -- whoever has the lock will pop a writer
      obtain ⟨n', hcensus⟩ := hs.census_retry ht (.waiting .write) id
      have hheld : s.writerActive = true ∨ 0 < s.readers := by
        cases hact : s.writerActive with
        | true => exact .inl rfl
        | false =>
          refine .inr ?_
          by_contra h0
          exact hblocks ⟨hact, by omega⟩
      have hnew : update l .write (l .write ++ [t]) .write ≠ [] := by simp
      refine ⟨_, n', hagree, hs.parked.park hnot hne rfl, hcensus, ?_, fun _ => ?_, fun _ => ?_⟩
      · rw [update_self, length_append, hwaiters]
        rfl
      · exact hheld.imp_right Or.inl
      · exact hheld.imp_right fun hpos => .inr (.inr ⟨hpos, hnew⟩)

lemma Served.releaseWrite (hallow : s.Allowed (.releaseWrite t))
    (hcond : s.Serves (.releaseWrite t)) (hexec : s.exec rounds (.releaseWrite t) = some s') :
    ∃ l' n', s'.Served l' n' := by
  have hagree := hs.agree.exec hallow hexec
  have hwaiters := hs.waiters
  have ht : s.parking.pc t = .run .writing := hallow
  have hnot (why : Side) : s.parking.pc t ≠ .waiting why := by simp [ht]
  simp only [exec] at hexec
  split at hexec
  case isTrue hwaits =>
    refine hs.popWriter hagree ?_ hexec rfl rfl (hcond hwaits)
    rw [ht]
    trivial
  case isFalse hnone =>
    cases hexec
    have hnil : l .write = [] := length_eq_zero_iff.mp (by omega)
    refine ⟨l, n, hagree, hs.parked.goOn hnot, ?_, hwaiters, fun h => absurd hnil h, fun _ => ?_⟩
    · apply hs.census.stay
      rw [ht]
      exact Iff.rfl
    · refine .inr (.inr (.inl ⟨t, ?_⟩))
      simp only [Parking.goOn, update_self]
      trivial

/-- A round of the loop that wakes the readers; the last one leaves no reader in the queue. -/
lemma Served.wakeReader (hallow : s.Allowed (.wakeReader t))
    (hexec : s.exec rounds (.wakeReader t) = some s') : ∃ l' n', s'.Served l' n' := by
  have hagree := hs.agree.exec hallow hexec
  have ht : s.parking.pc t = .run .releasing := hallow
  have hnot (why : Side) : s.parking.pc t ≠ .waiting why := by simp [ht]
  obtain ⟨⟨r, parking⟩, hpop, rfl⟩ := Option.map_eq_some_iff.mp hexec
  obtain ⟨hr, hpark, hst, hpc⟩ := hs.parked.pop hnot hpop
  by_cases h0 : r.task = 0
  · obtain ⟨-, hnil, -⟩ := hr.rest_eq_nil 0 (hs.parked.holds .read) h0
    rw [if_pos h0] at hpc
    simp only [if_pos h0] at hagree ⊢
    have hnot' (why : Side) : parking.pc t ≠ .waiting why := by simp [hpc]
    refine ⟨_, n, hagree, hpark.goOn hnot', ?_, ?_, ?_, ?_⟩
    · simp only [Parking.goOn, hpc, update_idem]
      apply hs.census.stay
      rw [ht]
      exact Iff.rfl
    · rw [update_of_ne (by simp)]
      exact hs.waiters
    · rw [update_of_ne (by simp)]
      exact hs.writers
    · rw [update_self, hnil]
      rintro ⟨t', hmem, -⟩
      cases hmem
  · rw [if_neg h0] at hpc
    simp only [if_neg h0] at hagree ⊢
    refine ⟨_, n, hagree, hpark, ?_, ?_, ?_, fun _ => ?_⟩
    · rw [hpc]
      apply hs.census.stay
      rw [ht]
      exact ⟨Side.noConfusion, False.elim⟩
    · rw [update_of_ne (by simp)]
      exact hs.waiters
    · rw [update_of_ne (by simp)]
      exact hs.writers
    · refine .inr (.inr (.inl ⟨t, ?_⟩))
      rw [hpc, update_self]
      trivial

/-- A wakeup only changes what two threads do. -/
lemma Served.wake (hallow : s.Allowed (.wake t))
    (hexec : s.exec rounds (.wake t) = some s') : ∃ l' n', s'.Served l' n' := by
  have hagree := hs.agree.exec hallow hexec
  obtain ⟨q, task, role, ht⟩ := hallow
  cases hexec
  obtain ⟨why, hwhy, hplace, hne, -, htasks, hpc⟩ := hs.parked.wake_eq ht
  have htask : task ∉ l .read := by
    intro hmem
    obtain ⟨why', hwhy', hplace'⟩ := hs.parked.queued .read task hmem
    cases hwhy.symm.trans hwhy'
    obtain ⟨-, hnot, -⟩ := hs.parked.popped t q task role ht
    exact hnot (hplace.symm.trans hplace' ▸ hmem)
  refine ⟨l, n, hagree, hs.parked.wake ht, hs.parked.census_wake ht hs.census, hs.waiters,
    hs.writers, fun hlive => ?_⟩
  have hst (t' : Nat) (hother : t' ≠ task) :
      (s.parking.wake t).tasks.state t' = s.parking.tasks.state t' := by
    rw [htasks]
    exact update_of_ne hother ..
  have hlive := live_of_state htask hst hlive
  refine (hs.readers hlive).imp_right (Or.imp_right (Or.imp_left fun hin => ?_))
  obtain ⟨t', hin⟩ := hin
  refine ⟨t', ?_⟩
  rw [hpc]
  by_cases heq : t' = t
  · subst heq
    rw [ht] at hin
    rw [update_self]
    cases role with
    | releasing => trivial
    | _ => exact hin
  · have hother : t' ≠ task := by
      rintro rfl
      rwa [hwhy] at hin
    rwa [update_of_ne heq, update_of_ne hother]

lemma Served.kill (hallow : s.Allowed (.kill q t)) (hexec : s.exec rounds (.kill q t) = some s') :
    ∃ l' n', s'.Served l' n' := by
  have hagree := hs.agree.exec hallow hexec
  cases hexec
  have hmem : t ∈ l q := hs.parked.queued_iff.mp hallow
  refine ⟨l, n, hagree, hs.parked.kill hmem, hs.census, hs.waiters, hs.writers, ?_⟩
  rintro ⟨t', hmem', hlive⟩
  refine hs.readers ⟨t', hmem', ?_⟩
  have hne : t' ≠ t := by
    rintro rfl
    simp [Tasks.gone, Tasks.setState] at hlive
  rw [← hlive]
  simp [Tasks.gone, Tasks.setState, update_of_ne hne]

lemma Served.step (hstep : Step Serves s e s') : ∃ l' n', s'.Served l' n' := by
  obtain ⟨hallow, hcond, rounds, hexec⟩ := hstep
  cases e with
  | acquireRead => exact hs.acquireRead hallow hcond hexec
  | releaseRead => exact hs.releaseRead hallow hcond hexec
  | acquireWrite => exact hs.acquireWrite hallow hexec
  | releaseWrite => exact hs.releaseWrite hallow hcond hexec
  | wakeReader => exact hs.wakeReader hallow hexec
  | wake => exact hs.wake hallow hexec
  | kill => exact hs.kill hallow hexec
  | stray => exact hcond.elim

lemma Served.noneStranded : s.NoneStranded := by
  intro hreaders hact hway hloop q hlive
  obtain ⟨t, hmem, hkept⟩ := hs.liveIn_iff.mp hlive
  have hnone : ¬0 < n := by
    intro hpos
    obtain ⟨t', ht'⟩ := hs.census.pos_iff.mp hpos
    exact hway t' .write ht'
  have hidle : ¬s.writerActive = true := by simp [hact]
  cases q with
  | write =>
    obtain h | h | h := hs.writers (ne_nil_of_mem hmem)
    · exact hidle h
    · omega
    · exact hnone h
  | read =>
    obtain h | h | ⟨t', h⟩ | ⟨h, -⟩ := hs.readers ⟨t, hmem, hkept⟩
    · exact hidle h
    · exact hnone h
    · exact hloop t' h
    · omega

end

/-- In every run whose steps meet the condition no task is stranded in any state. -/
theorem noneStranded_of_run {events : List RwEvent}
    (hrun : Run (Step Serves) create events s) : s.NoneStranded := by
  obtain ⟨l, n, hs⟩ := hrun.invariant (I := fun s => ∃ l n, s.Served l n)
    (fun _ _ _ ⟨_, _, hs⟩ hstep => hs.step hstep) ⟨_, _, Served.create⟩
  exact hs.noneStranded

/-- A test for `Serves`: a live writer is at the end of its queue. -/
def serves? (s : NativeRwlock) : RwEvent → Bool
  | .acquireRead _ _ => s.readers < rwlockMaxReaders
  | .releaseRead _ =>
    s.parking.queued? 8 .write (s.parking.queue .write).tail &&
      !s.parking.tasks.gone (s.parking.queue .write).tail
  | .releaseWrite _ => s.writeWaiters ≤ 0
  | .stray _ => false
  | _ => true

lemma serves_of_serves? (s : NativeRwlock) (e : RwEvent) (h : s.serves? e = true) : s.Serves e := by
  cases e with
  | acquireRead t proc => exact .inl (of_decide_eq_true h)
  | releaseRead t =>
    obtain ⟨hqueued, hlive⟩ := (Bool.and_eq_true ..).mp h
    exact fun _ _ _ => ⟨_, Parking.queued_of_queued? hqueued, by simpa using hlive⟩
  | releaseWrite t => exact fun hwaits => absurd (of_decide_eq_true h) (by omega)
  | stray t => cases h
  | _ => trivial

/-- A dead writer is skipped and the next one gets the lock. -/
theorem deadWriter_noneStranded :
    ∃ s, Run (Step Serves) create
        [.acquireRead 1 true, .acquireWrite 4 true, .acquireWrite 2 true, .acquireRead 3 true,
          .kill .write 4, .releaseRead 1, .wake 1, .acquireWrite 2 true] s ∧
      s.parking.pc 2 = .run .writing ∧ s.NoneStranded := by
  refine Run.exists_of_exec (P := fun s => s.parking.pc 2 = .run .writing)
    (fun _ _ _ => step_of_step? serves_of_serves?) (by decide +kernel) ?_
  intro s hrun hwriting
  exact ⟨hwriting, noneStranded_of_run hrun⟩

/-- A writer is killed in the queue before the last reader leaves. -/
def killWriter : List RwEvent :=
  [.acquireRead 1 true, .acquireWrite 2 true, .acquireRead 3 true, .kill .write 2, .releaseRead 1]

/-- The last reader finds only a dead writer and wakes nobody: the reader behind it stays. -/
theorem killWriter_strands_reader :
    ∃ s, Run (Step fun _ _ => True) create killWriter s ∧ ¬s.NoneStranded := by
  have hsome : ((Run.exec (step? fun _ _ => true) create killWriter).any fun s =>
      decide (s.readers = 0 ∧ s.writerActive = false ∧ s.parking.queued? 8 .read 3 = true ∧
        s.parking.tasks.gone 3 = false ∧ ∀ t ∈ List.range 4,
          s.parking.pc t ∈ [.run .outside, .waiting .read, .waiting .write])) = true := by
    decide +kernel
  have hothers (t : Nat) : ∃ s, Run.exec (step? fun _ _ => true) create killWriter = some s ∧
      s.parking.pc (t + 4) = .run .outside := ⟨_, rfl, rfl⟩
  obtain ⟨s, hexec, hs⟩ := (Option.any_eq_true _ _).mp hsome
  obtain ⟨hreaders, hact, hqueued, hlive, hpc⟩ := of_decide_eq_true hs
  refine ⟨s, Run.of_exec (fun _ _ _ => step_of_step? fun _ _ _ => trivial) hexec, fun hnone => ?_⟩
  have hidle (t : Nat) : s.parking.pc t ∈ [.run .outside, .waiting .read, .waiting .write] := by
    obtain hlt | hge := Nat.lt_or_ge t 4
    · exact hpc t (mem_range.mpr hlt)
    obtain ⟨o, rfl⟩ := Nat.exists_eq_add_of_le' hge
    obtain ⟨s', hexec', hrun⟩ := hothers o
    cases hexec.symm.trans hexec'
    rw [hrun]
    exact mem_cons_self
  refine hnone hreaders hact (fun t q hway => ?_) (fun t hin => ?_) .read
    ⟨3, Parking.queued_of_queued? hqueued, hlive⟩
  · have ht := hidle t
    simp only [mem_cons, not_mem_nil, or_false] at ht
    obtain ht | ht | ht := ht <;> rw [ht] at hway <;> exact hway
  · have ht := hidle t
    simp only [mem_cons, not_mem_nil, or_false] at ht
    obtain ht | ht | ht := ht <;> rw [ht] at hin <;> exact hin

end NativeRwlock

end Singularity.Sync
