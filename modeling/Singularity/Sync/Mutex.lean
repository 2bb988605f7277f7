import Singularity.Foundation.Runs
import Singularity.Foundation.Word
import Singularity.Process.Parking

/-!
# Mutexes and semaphores

The steps are the sections under the spinlock of the mutex or the semaphore, and the wakeups that
follow them. A thread that finds the mutex taken, or the count at zero, blocks, and goes through
the loop again when it is woken: another thread may have come first. The count is an `int`.
-/

namespace Singularity.Sync

open Foundation Process Function

inductive MutexRole where
  | outside
  | holding
  deriving DecidableEq

structure NativeMutex where
  locked : Int
  parking : Parking MutexRole Unit Unit

/-- A pass of a thread through the loop of `mutex_lock`, `mutex_unlock`, and its wakeup. -/
inductive MutexEvent where
  | lock (t : Nat)
  | unlock (t : Nat)
  | wake (t : Nat)
  deriving DecidableEq

variable {l : Unit → List Nat} {n t rounds : Nat}

namespace NativeMutex

def create : NativeMutex := ⟨0, .boot .outside⟩

/-- Threads are tasks; only the holder unlocks. -/
def Allowed (m : NativeMutex) : MutexEvent → Prop
  | .lock t => t ≠ 0 ∧ (m.parking.pc t = .run .outside ∨ m.parking.pc t = .woken ())
  | .unlock t => m.parking.pc t = .run .holding
  | .wake t => m.parking.Waking t

def exec (rounds : Nat) (m : NativeMutex) : MutexEvent → Option NativeMutex
  | .lock t =>
    if m.locked = 0 then some ⟨1, m.parking.goOn t .holding⟩
    else some { m with parking := m.parking.park t () () }
  | .unlock t => (m.parking.pop rounds t () .outside).map fun popped => ⟨0, popped.2⟩
  | .wake t => some { m with parking := m.parking.wake t }

def Step (m : NativeMutex) (e : MutexEvent) (m' : NativeMutex) : Prop :=
  m.Allowed e ∧ ∃ rounds, m.exec rounds e = some m'

instance (m : NativeMutex) : ∀ e, Decidable (m.Allowed e)
  | .lock _ => inferInstanceAs (Decidable (_ ∧ (_ ∨ _)))
  | .unlock _ => inferInstanceAs (Decidable (_ = _))
  | .wake t => inferInstanceAs (Decidable (m.parking.Waking t))

def step? (m : NativeMutex) (e : MutexEvent) : Option NativeMutex :=
  if m.Allowed e then m.exec 8 e else none

lemma step_of_step? (h : m.step? e = some m') : Step m e m' := by
  obtain ⟨hallow, h⟩ := then_of_ite h
  exact ⟨hallow, 8, h⟩

/-- One thread at most has the mutex; if it is free and a task is queued, one is on its way. -/
structure Correct (m : NativeMutex) : Prop where
  exclusive : ∀ t t', m.parking.pc t = .run .holding → m.parking.pc t' = .run .holding → t = t'
  awake : m.locked = 0 → (∃ t, m.parking.Queued () t ∧ m.parking.tasks.gone t = false) →
    ∃ t, Parking.OnWay id () (m.parking.pc t)

/-- The queue has the tasks of `l`, and `n` tasks are on their way. -/
structure Inv (m : NativeMutex) (l : Unit → List Nat) (n : Nat) : Prop where
  parked : Parking.Parked id m.parking l
  census : Census (Parking.OnWay id ()) m.parking.pc n
  awake : m.locked = 0 → l () ≠ [] → 0 < n
  free : m.locked = 0 → ∀ t, m.parking.pc t ≠ .run .holding
  exclusive : ∀ t t', m.parking.pc t = .run .holding → m.parking.pc t' = .run .holding → t = t'
  after : ∀ t task role, m.parking.pc t = .waking () task role → role = .outside

variable {m m' : NativeMutex}

lemma Inv.create : create.Inv (fun _ => []) 0 where
  parked := Parking.Parked.boot _
  census := Census.zero fun _ => id
  awake _ h := absurd rfl h
  free _ t h := by cases h
  exclusive t t' h := by cases h
  after t task role h := by cases h

/-- A pass through the loop of `mutex_lock`. -/
lemma Inv.lock (hm : m.Inv l n) (hne : t ≠ 0)
    (ht : m.parking.pc t = .run .outside ∨ m.parking.pc t = .woken ())
    (hexec : m.exec rounds (.lock t) = some m') : ∃ l' n', m'.Inv l' n' := by
  have hnot (why : Unit) : m.parking.pc t ≠ .waiting why := by
    obtain ht | ht := ht <;> simp [ht]
  have hcensus (pc : Pc MutexRole Unit Unit) (hpc : ¬Parking.OnWay id () pc) :
      ∃ n', Census (Parking.OnWay id ()) (update m.parking.pc t pc) n' := by
    obtain ht | ht := ht
    · exact ⟨n, hm.census.stay (by rw [ht]; exact iff_of_false hpc id)⟩
    · exact ⟨n - 1, hm.census.leave (by rw [ht]; rfl) hpc⟩
  simp only [exec] at hexec
  split at hexec <;> cases hexec
  case isTrue hfree =>
    have hholding {t' : Nat} (h : (m.parking.goOn t .holding).pc t' = .run .holding) : t' = t := by
      obtain ⟨heq, -⟩ | ⟨-, hold⟩ := update_eq_iff.mp h
      · exact heq
      · exact absurd hold (hm.free hfree t')
    obtain ⟨n', hn'⟩ := hcensus (.run .holding) id
    refine ⟨l, n', hm.parked.goOn hnot, hn', by simp, by simp, ?_, ?_⟩
    · intro t1 t2 h1 h2
      exact (hholding h1).trans (hholding h2).symm
    intro t' task role h
    obtain ⟨-, heq⟩ | ⟨-, hold⟩ := update_eq_iff.mp h
    · cases heq
    · exact hm.after t' task role hold
  case isFalse htaken =>
    have hold {t' : Nat} {pc : Pc MutexRole Unit Unit} (hpc : pc ≠ .waiting ())
        (h : (m.parking.park t () ()).pc t' = pc) : m.parking.pc t' = pc := by
      obtain ⟨-, heq⟩ | ⟨-, hold⟩ := update_eq_iff.mp h
      · exact absurd heq.symm hpc
      · exact hold
    obtain ⟨n', hn'⟩ := hcensus (.waiting ()) id
    refine ⟨_, n', hm.parked.park hnot hne rfl, hn', fun h => absurd h htaken,
      fun h => absurd h htaken, ?_, ?_⟩
    · intro t1 t2 h1 h2
      exact hm.exclusive t1 t2 (hold (by simp) h1) (hold (by simp) h2)
    · intro t' task role h
      exact hm.after t' task role (hold (by simp) h)

/-- The holder frees the mutex and pops a task. -/
lemma Inv.unlock (hm : m.Inv l n) (ht : m.parking.pc t = .run .holding)
    (hexec : m.exec rounds (.unlock t) = some m') : ∃ l' n', m'.Inv l' n' := by
  obtain ⟨⟨r, parking⟩, hpop, rfl⟩ := Option.map_eq_some_iff.mp hexec
  obtain ⟨hr, hpark, -, hpc⟩ := hm.parked.pop (by simp [ht]) hpop
  have hholding (t' : Nat) : parking.pc t' ≠ .run .holding := by
    intro h
    rw [hpc] at h
    obtain ⟨-, heq⟩ | ⟨hne, hold⟩ := update_eq_iff.mp h
    · split at heq <;> cases heq
    · exact hne (hm.exclusive t' t hold ht)
  have hafter (t' task : Nat) (role : MutexRole)
      (h : parking.pc t' = .waking () task role) : role = .outside := by
    rw [hpc] at h
    obtain ⟨-, heq⟩ | ⟨-, hold⟩ := update_eq_iff.mp h
    · split at heq <;> cases heq
      rfl
    · exact hm.after t' task role hold
  have hexclusive (t1 t2 : Nat) (h1 : parking.pc t1 = .run .holding)
      (_ : parking.pc t2 = .run .holding) : t1 = t2 := absurd h1 (hholding t1)
  by_cases h0 : r.task = 0
  · -- nobody is left in the queue
    obtain ⟨-, hnil, -⟩ := hr.rest_eq_nil 0 (hm.parked.holds ()) h0
    rw [if_pos h0] at hpc
    refine ⟨_, n, hpark, ?_, fun _ h => ?_, fun _ => hholding, hexclusive, hafter⟩
    · rw [hpc]
      exact hm.census.stay (by rw [ht]; exact iff_of_false id id)
    · rw [update_self] at h
      exact absurd hnil h
  · rw [if_neg h0] at hpc
    refine ⟨_, n + 1, hpark, ?_, fun _ _ => Nat.succ_pos n, fun _ => hholding, hexclusive, hafter⟩
    rw [hpc]
    exact hm.census.enter (by rw [ht]; exact id) rfl

lemma Inv.wake (hm : m.Inv l n) (ht : m.parking.pc t = .waking () task role) :
    Inv { m with parking := m.parking.wake t } l n := by
  obtain ⟨why, -, -, -, -, -, hpc⟩ := hm.parked.wake_eq ht
  have hrole := hm.after t task role ht
  have hold {t' : Nat} {pc : Pc MutexRole Unit Unit} (houtside : pc ≠ .run .outside)
      (hwoken : pc ≠ .woken why) (h : (m.parking.wake t).pc t' = pc) : m.parking.pc t' = pc := by
    rw [hpc, hrole] at h
    obtain ⟨-, heq⟩ | ⟨-, h⟩ := update_eq_iff.mp h
    · exact absurd heq.symm houtside
    · obtain ⟨-, heq⟩ | ⟨-, h⟩ := update_eq_iff.mp h
      · exact absurd heq.symm hwoken
      · exact h
  refine ⟨hm.parked.wake ht, hm.parked.census_wake ht hm.census, hm.awake, ?_, ?_, ?_⟩
  · intro hfree t' h
    exact hm.free hfree t' (hold (by simp) (by simp) h)
  · intro t1 t2 h1 h2
    exact hm.exclusive t1 t2 (hold (by simp) (by simp) h1) (hold (by simp) (by simp) h2)
  · intro t' task' role' h
    exact hm.after t' task' role' (hold (by simp) (by simp) h)

lemma Inv.step (hm : m.Inv l n) (hstep : Step m e m') : ∃ l' n', m'.Inv l' n' := by
  obtain ⟨hallow, rounds, hexec⟩ := hstep
  cases e with
  | lock t => exact hm.lock hallow.1 hallow.2 hexec
  | unlock t => exact hm.unlock hallow hexec
  | wake t =>
    obtain ⟨_, task, role, ht⟩ := hallow
    cases hexec
    exact ⟨l, n, hm.wake ht⟩

lemma Inv.correct (hm : m.Inv l n) : m.Correct where
  exclusive := hm.exclusive
  awake hfree := by
    rintro ⟨t, hqueued, -⟩
    have hmem := hm.parked.queued_iff.mp hqueued
    exact hm.census.pos_iff.mp (hm.awake hfree (List.ne_nil_of_mem hmem))

lemma correct_of_run (hrun : Run Step create events m) : m.Correct := by
  obtain ⟨l, n, hm⟩ := hrun.invariant (I := fun m => ∃ l n, Inv m l n)
    (fun _ _ _ ⟨_, _, hm⟩ hstep => hm.step hstep) ⟨_, _, Inv.create⟩
  exact hm.correct

end NativeMutex

/-- A semaphore, with the numbers of signals and waits that were completed. -/
structure NativeSemaphore where
  count : BitVec 32
  parking : Parking Unit Unit Unit
  signals : Nat
  waits : Nat

/-- A pass of a thread through the loop of `sem_wait`, `sem_signal`, and its wakeup. -/
inductive SemEvent where
  | wait (t : Nat)
  | signal (t : Nat)
  | wake (t : Nat)
  deriving DecidableEq

namespace NativeSemaphore

def create (initial : BitVec 32) : NativeSemaphore := ⟨initial, .boot (), 0, 0⟩

def Allowed (s : NativeSemaphore) : SemEvent → Prop
  | .wait t => t ≠ 0 ∧ (s.parking.pc t = .run () ∨ s.parking.pc t = .woken ())
  | .signal t => s.parking.pc t = .run ()
  | .wake t => s.parking.Waking t

def exec (rounds : Nat) (s : NativeSemaphore) : SemEvent → Option NativeSemaphore
  | .wait t =>
    if 0 < s.count.toInt then
      some { s with
        count := s.count - 1
        parking := s.parking.goOn t ()
        waits := s.waits + 1 }
    else some { s with parking := s.parking.park t () () }
  | .signal t =>
    (s.parking.pop rounds t () ()).map fun popped =>
      { s with
        count := s.count + 1
        parking := popped.2
        signals := s.signals + 1 }
  | .wake t => some { s with parking := s.parking.wake t }

def Step (cond : NativeSemaphore → SemEvent → Prop) (s : NativeSemaphore) (e : SemEvent)
    (s' : NativeSemaphore) : Prop :=
  s.Allowed e ∧ cond s e ∧ ∃ rounds, s.exec rounds e = some s'

/-- The count has room for a signal. -/
def Room (s : NativeSemaphore) : SemEvent → Prop
  | .signal _ => s.count.toInt < 2 ^ 31 - 1
  | _ => True

instance (s : NativeSemaphore) : ∀ e, Decidable (s.Allowed e)
  | .wait _ => inferInstanceAs (Decidable (_ ∧ (_ ∨ _)))
  | .signal _ => inferInstanceAs (Decidable (_ = _))
  | .wake t => inferInstanceAs (Decidable (s.parking.Waking t))

instance (s : NativeSemaphore) : ∀ e, Decidable (s.Room e)
  | .wait _ => inferInstanceAs (Decidable True)
  | .signal _ => inferInstanceAs (Decidable (_ < _))
  | .wake _ => inferInstanceAs (Decidable True)

def step? (cond : NativeSemaphore → SemEvent → Prop) [∀ s e, Decidable (cond s e)]
    (s : NativeSemaphore) (e : SemEvent) : Option NativeSemaphore :=
  if s.Allowed e ∧ cond s e then s.exec 8 e else none

lemma step_of_step? {cond : NativeSemaphore → SemEvent → Prop} [∀ s e, Decidable (cond s e)]
    (h : s.step? cond e = some s') : Step cond s e s' := by
  obtain ⟨hstep, h⟩ := then_of_ite h
  exact ⟨hstep.1, hstep.2, 8, h⟩

/-- The count is right; if it is positive and a task is queued, one is on its way. -/
structure Correct (s : NativeSemaphore) (initial : BitVec 32) : Prop where
  nonneg : 0 ≤ s.count.toInt
  balance : s.count.toInt = initial.toInt + s.signals - s.waits
  awake : 0 < s.count.toInt →
    (∃ t, s.parking.Queued () t ∧ s.parking.tasks.gone t = false) →
    ∃ t, Parking.OnWay id () (s.parking.pc t)

/-- While a task is queued, there are as many tasks on their way as the count says. -/
structure Inv (s : NativeSemaphore) (initial : BitVec 32) (l : Unit → List Nat) (n : Nat) :
    Prop where
  parked : Parking.Parked id s.parking l
  census : Census (Parking.OnWay id ()) s.parking.pc n
  awake : l () ≠ [] → s.count.toInt ≤ n
  nonneg : 0 ≤ s.count.toInt
  balance : s.count.toInt = initial.toInt + s.signals - s.waits

variable {s s' : NativeSemaphore} {initial : BitVec 32}

lemma Inv.create (h : 0 ≤ initial.toInt) : (create initial).Inv initial (fun _ => []) 0 where
  parked := Parking.Parked.boot _
  census := Census.zero fun _ => id
  awake h := absurd rfl h
  nonneg := h
  balance := by simp [NativeSemaphore.create]

variable (hs : s.Inv initial l n)
include hs

/-- A pass through the loop of `sem_wait`. -/
lemma Inv.wait (hne : t ≠ 0) (ht : s.parking.pc t = .run () ∨ s.parking.pc t = .woken ())
    (hexec : s.exec rounds (.wait t) = some s') : ∃ l' n', s'.Inv initial l' n' := by
  have hnot (why : Unit) : s.parking.pc t ≠ .waiting why := by
    obtain ht | ht := ht <;> simp [ht]
  -- a thread that was woken is not on its way any more
  have hcensus (pc : Pc Unit Unit Unit) (hpc : ¬Parking.OnWay id () pc) :
      ∃ n', Census (Parking.OnWay id ()) (update s.parking.pc t pc) n' ∧ n ≤ n' + 1 := by
    obtain ht | ht := ht
    · exact ⟨n, hs.census.stay (by rw [ht]; exact iff_of_false hpc id), Nat.le_succ n⟩
    · exact ⟨n - 1, hs.census.leave (by rw [ht]; rfl) hpc, by omega⟩
  have hbalance := hs.balance
  simp only [exec] at hexec
  split at hexec <;> cases hexec
  case isTrue hpos =>
    have hcnt := Word.toInt_pred hpos
    obtain ⟨n', hn', hle⟩ := hcensus (.run ()) id
    refine ⟨l, n', hs.parked.goOn hnot, hn', fun hl => ?_, ?_, ?_⟩ <;> dsimp only
    · have := hs.awake hl
      omega
    · omega
    · omega
  case isFalse h0 =>
    obtain ⟨n', hn', -⟩ := hcensus (.waiting ()) id
    refine ⟨_, n', hs.parked.park hnot hne rfl, hn', fun _ => ?_, hs.nonneg, hbalance⟩
    dsimp only
    omega

lemma Inv.signal (ht : s.parking.pc t = .run ()) (hroom : s.count.toInt < 2 ^ 31 - 1)
    (hexec : s.exec rounds (.signal t) = some s') : ∃ l' n', s'.Inv initial l' n' := by
  obtain ⟨⟨r, parking⟩, hpop, rfl⟩ := Option.map_eq_some_iff.mp hexec
  obtain ⟨hr, hpark, -, hpc⟩ := hs.parked.pop (by simp [ht]) hpop
  have hcnt := Word.toInt_succ hroom
  have hnonneg := hs.nonneg
  have hbalance := hs.balance
  by_cases h0 : r.task = 0
  · obtain ⟨-, hnil, -⟩ := hr.rest_eq_nil 0 (hs.parked.holds ()) h0
    rw [if_pos h0] at hpc
    refine ⟨_, n, hpark, ?_, fun h => ?_, ?_, ?_⟩ <;> dsimp only
    · rw [hpc]
      exact hs.census.stay (by rw [ht])
    · rw [update_self] at h
      exact absurd hnil h
    · omega
    · omega
  · rw [if_neg h0] at hpc
    have hne : l () ≠ [] := by
      intro hnil
      rw [hr.task, hnil] at h0
      exact h0 rfl
    have hawake := hs.awake hne
    refine ⟨_, n + 1, hpark, ?_, fun _ => ?_, ?_, ?_⟩ <;> dsimp only
    · rw [hpc]
      exact hs.census.enter (by rw [ht]; exact id) rfl
    · omega
    · omega
    · omega

lemma Inv.step (hstep : Step Room s e s') : ∃ l' n', s'.Inv initial l' n' := by
  obtain ⟨hallow, hcond, rounds, hexec⟩ := hstep
  cases e with
  | wait t => exact hs.wait hallow.1 hallow.2 hexec
  | signal t => exact hs.signal hallow hcond hexec
  | wake t =>
    obtain ⟨_, task, role, ht⟩ := hallow
    cases hexec
    exact ⟨l, n, hs.parked.wake ht, hs.parked.census_wake ht hs.census, hs.awake, hs.nonneg,
      hs.balance⟩

lemma Inv.correct : s.Correct initial where
  nonneg := hs.nonneg
  balance := hs.balance
  awake hpos := by
    rintro ⟨t, hqueued, -⟩
    have hmem := hs.parked.queued_iff.mp hqueued
    have hle := hs.awake (List.ne_nil_of_mem hmem)
    exact hs.census.pos_iff.mp (by omega)

omit hs in
lemma correct_of_run (hinitial : 0 ≤ initial.toInt)
    (hrun : Run (Step Room) (create initial) events s) : s.Correct initial := by
  obtain ⟨l, n, hs⟩ := hrun.invariant (I := fun s => ∃ l n, Inv s initial l n)
    (fun _ _ _ ⟨_, _, hs⟩ hstep => hs.step hstep) ⟨_, _, Inv.create hinitial⟩
  exact hs.correct

end NativeSemaphore

/-- Mutexes are right in every run, semaphores if the count has room for the signals. -/
theorem mutex_and_semaphore_correct {initial : BitVec 32} (hinitial : 0 ≤ initial.toInt)
    {mutexEvents : List MutexEvent} {semEvents : List SemEvent} {m : NativeMutex}
    {s : NativeSemaphore} (hm : Run NativeMutex.Step .create mutexEvents m)
    (hs : Run (NativeSemaphore.Step NativeSemaphore.Room) (.create initial) semEvents s) :
    m.Correct ∧ s.Correct initial :=
  ⟨NativeMutex.correct_of_run hm, NativeSemaphore.correct_of_run hinitial hs⟩

/-- The second thread blocks and comes in after the first one has left. -/
theorem secondThread_correct :
    (∃ m, Run NativeMutex.Step .create [.lock 1, .lock 2, .unlock 1, .wake 1, .lock 2] m ∧
        m.locked = 1 ∧ m.Correct) ∧
      ∃ s, Run (NativeSemaphore.Step NativeSemaphore.Room) (.create 1)
          [.wait 1, .wait 2, .signal 1, .wake 1, .wait 2] s ∧
        s.waits = 2 ∧ s.Correct 1 := by
  have hmutex : ((Run.exec NativeMutex.step? .create
      [.lock 1, .lock 2, .unlock 1, .wake 1, .lock 2]).any
        fun m => decide (m.locked = 1)) = true := by
    decide +kernel
  have hsem : ((Run.exec (NativeSemaphore.step? NativeSemaphore.Room) (.create 1)
      [.wait 1, .wait 2, .signal 1, .wake 1, .wait 2]).any
        fun s => decide (s.waits = 2)) = true := by
    decide +kernel
  obtain ⟨m, hm, hlocked⟩ := (Option.any_eq_true _ _).mp hmutex
  obtain ⟨s, hs, hwaits⟩ := (Option.any_eq_true _ _).mp hsem
  have hm := Run.of_exec (fun _ _ _ => NativeMutex.step_of_step?) hm
  have hs := Run.of_exec (fun _ _ _ => NativeSemaphore.step_of_step?) hs
  obtain ⟨hmutex, hsem⟩ := mutex_and_semaphore_correct (by decide) hm hs
  exact ⟨⟨m, hm, of_decide_eq_true hlocked, hmutex⟩, s, hs, of_decide_eq_true hwaits, hsem⟩

/-- A signal at the largest count makes it negative. -/
theorem signal_overflows :
    ∃ s, Run (NativeSemaphore.Step fun _ _ => True) (.create 0x7FFFFFFF) [.signal 1] s ∧
      s.count.toInt < 0 := by
  exact Run.exists_of_exec (fun _ _ _ => NativeSemaphore.step_of_step?) (by decide +kernel)
    fun _ _ h => h

end Singularity.Sync
