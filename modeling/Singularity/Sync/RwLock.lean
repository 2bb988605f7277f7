import Singularity.Foundation.Runs
import Singularity.Process.Parking

/-!
# Reader-writer locks

The steps are the sections under the spinlock of the lock, the rounds of the loop in which
`rwlock_release_write` wakes the readers, and the wakeups. Tasks in a queue may be killed, and a
task may be woken by somebody who has not popped it. A thread that has no task yet tries again
without blocking.
-/

namespace Singularity.Sync

open Foundation Process Function Option

def rwlockMaxReaders : Int := 1024

inductive Side where
  | read
  | write
  deriving DecidableEq

/-- `releasing` is the loop in which the readers are woken. -/
inductive RwRole where
  | outside
  | reading
  | writing
  | releasing
  deriving DecidableEq

structure NativeRwlock where
  readers : Int
  writerActive : Bool
  writeWaiters : Int
  parking : Parking RwRole Side Side

inductive RwEvent where
  | acquireRead (t : Nat) (proc : Bool)
  | releaseRead (t : Nat)
  | acquireWrite (t : Nat) (proc : Bool)
  | releaseWrite (t : Nat)
  | wakeReader (t : Nat)
  | wake (t : Nat)
  | kill (q : Side) (t : Nat)
  | stray (t : Nat)
  deriving DecidableEq

namespace NativeRwlock

def create : NativeRwlock := ⟨0, false, 0, .boot .outside⟩

/-- Threads acquire and release in pairs; a task is killed in a queue. -/
def Allowed (s : NativeRwlock) : RwEvent → Prop
  | .acquireRead t _ => t ≠ 0 ∧ (s.parking.pc t = .run .outside ∨ s.parking.pc t = .woken .read)
  | .releaseRead t => s.parking.pc t = .run .reading
  | .acquireWrite t _ => t ≠ 0 ∧ (s.parking.pc t = .run .outside ∨ s.parking.pc t = .woken .write)
  | .releaseWrite t => s.parking.pc t = .run .writing
  | .wakeReader t => s.parking.pc t = .run .releasing
  | .wake t => s.parking.Waking t
  | .kill q t => s.parking.Queued q t
  | .stray t => ∃ why, s.parking.pc t = .waiting why

/-- The waiters that are left, clamped at zero. -/
def waitersAfter (writeWaiters : Int) (r : Popped) : Int :=
  let totalRemoved : Int := (if r.task = 0 then 0 else 1) + r.skipped
  if totalRemoved ≤ writeWaiters then writeWaiters - totalRemoved else 0

/-- The writer that is popped at the end of a release. -/
def popWriter (rounds : Nat) (s : NativeRwlock) (t : Nat) : Option NativeRwlock :=
  (s.parking.pop rounds t .write .outside).map fun popped =>
    { s with
      writeWaiters := waitersAfter s.writeWaiters popped.1
      parking := popped.2 }

def exec (rounds : Nat) (s : NativeRwlock) : RwEvent → Option NativeRwlock
  | .acquireRead t proc =>
    if s.writerActive = false ∧ s.writeWaiters = 0 ∧ s.readers < rwlockMaxReaders then
      some { s with
        readers := s.readers + 1
        parking := s.parking.goOn t .reading }
    else if proc then some { s with parking := s.parking.park t .read .read }
    else some s
  | .releaseRead t =>
    if 0 < s.readers then
      let s : NativeRwlock := { s with readers := s.readers - 1 }
      if s.readers = 0 ∧ 0 < s.writeWaiters then s.popWriter rounds t
      else some { s with parking := s.parking.goOn t .outside }
    else none
  | .acquireWrite t proc =>
    if s.writerActive = false ∧ s.readers = 0 then
      some { s with
        writerActive := true
        parking := s.parking.goOn t .writing }
    else if proc then
      some { s with
        writeWaiters := s.writeWaiters + 1
        parking := s.parking.park t .write .write }
    else some s
  | .releaseWrite t =>
    let s : NativeRwlock := { s with writerActive := false }
    if 0 < s.writeWaiters then s.popWriter rounds t
    else some { s with parking := s.parking.goOn t .releasing }
  | .wakeReader t =>
    (s.parking.pop rounds t .read .releasing).map fun popped =>
      { s with
        parking := if popped.1.task = 0 then popped.2.goOn t .outside else popped.2 }
  | .wake t => some { s with parking := s.parking.wake t }
  | .kill _ t =>
    some { s with parking := { s.parking with tasks := s.parking.tasks.setState t .zombie } }
  | .stray t => some { s with parking := s.parking.schedWakeTask t }

def Step (cond : NativeRwlock → RwEvent → Prop) (s : NativeRwlock) (e : RwEvent)
    (s' : NativeRwlock) : Prop :=
  s.Allowed e ∧ cond s e ∧ ∃ rounds, s.exec rounds e = some s'

/-- A test for `Allowed` that searches the first places of a queue. -/
def allowed? (s : NativeRwlock) : RwEvent → Bool
  | .acquireRead t _ => t ≠ 0 ∧ (s.parking.pc t = .run .outside ∨ s.parking.pc t = .woken .read)
  | .releaseRead t => s.parking.pc t = .run .reading
  | .acquireWrite t _ => t ≠ 0 ∧ (s.parking.pc t = .run .outside ∨ s.parking.pc t = .woken .write)
  | .releaseWrite t => s.parking.pc t = .run .writing
  | .wakeReader t => s.parking.pc t = .run .releasing
  | .wake t => s.parking.Waking t
  | .kill q t => s.parking.queued? 8 q t
  | .stray t => s.parking.pc t = .waiting .read ∨ s.parking.pc t = .waiting .write

variable {s : NativeRwlock} {e : RwEvent}

lemma allowed_of_allowed? (h : s.allowed? e = true) : s.Allowed e := by
  cases e with
  | kill q t => exact Parking.queued_of_queued? h
  | stray t =>
    obtain h | h := of_decide_eq_true h
    · exact ⟨.read, h⟩
    · exact ⟨.write, h⟩
  | _ => simpa [allowed?, Allowed] using h

def step? (test : NativeRwlock → RwEvent → Bool) (s : NativeRwlock) (e : RwEvent) :
    Option NativeRwlock :=
  if s.allowed? e && test s e then s.exec 8 e else none

lemma step_of_step? {cond : NativeRwlock → RwEvent → Prop}
    (htest : ∀ s e, test s e = true → cond s e) (h : s.step? test e = some s') :
    Step cond s e s' := by
  obtain ⟨hstep, h⟩ := then_of_ite h
  obtain ⟨hallowed, hcond⟩ := (Bool.and_eq_true ..).mp hstep
  exact ⟨allowed_of_allowed? hallowed, htest s e hcond, 8, h⟩

/-- The thread has the lock. -/
def Holds : Pc RwRole Side Side → Prop
  | .run .reading => True
  | .run .writing => True
  | _ => False

/-- A thread at `pc` does not get the lock by going on after a wakeup. -/
def Quiet (pc : Pc RwRole Side Side) : Prop :=
  ∀ q task role, pc = .waking q task role → ¬Holds (.run role)

/-- Writers exclude each other and the readers, and the counters are right. -/
structure Exclusive (s : NativeRwlock) : Prop where
  oneWriter : ∀ t t', s.parking.pc t = .run .writing → s.parking.pc t' = .run .writing → t = t'
  apart : ∀ t t', s.parking.pc t = .run .writing → s.parking.pc t' ≠ .run .reading
  readers : 0 ≤ s.readers ∧ Census (· = .run .reading) s.parking.pc s.readers.toNat
  waiters : 0 ≤ s.writeWaiters

/-- The counters, the flag and the threads agree; a wakeup gives no thread the lock. -/
structure Agree (s : NativeRwlock) : Prop where
  census : Census (· = .run .reading) s.parking.pc s.readers.toNat
  nonneg : 0 ≤ s.readers
  writing : ∀ t, s.parking.pc t = .run .writing → s.writerActive = true ∧ s.readers = 0
  oneWriter : ∀ t t', s.parking.pc t = .run .writing → s.parking.pc t' = .run .writing → t = t'
  after : ∀ t q task role, s.parking.pc t = .waking q task role → ¬Holds (.run role)
  waiters : 0 ≤ s.writeWaiters

variable {s' : NativeRwlock} {t rounds : Nat} {pc : Pc RwRole Side Side} {q : Side}

lemma Agree.create : create.Agree where
  census := Census.zero fun t h => by cases h
  nonneg := le_rfl
  writing t h := by cases h
  oneWriter t t' h := by cases h
  after t q task role h := by cases h
  waiters := le_rfl

section
variable (hs : s.Agree)
include hs

lemma Agree.after_update (hpc : s'.parking.pc = update s.parking.pc t pc) (hafter : Quiet pc)
    (t' : Nat) (q : Side) (task : Nat) (role : RwRole)
    (h : s'.parking.pc t' = .waking q task role) : ¬Holds (.run role) := by
  rw [hpc] at h
  obtain ⟨-, heq⟩ | ⟨-, h⟩ := update_eq_iff.mp h
  · exact hafter q task role heq
  · exact hs.after t' q task role h

lemma Agree.quiet (pc : Pc RwRole Side Side) (hold : ¬Holds (s.parking.pc t)) (hnew : ¬Holds pc)
    (hafter : Quiet pc) (hpc : s'.parking.pc = update s.parking.pc t pc)
    (hreaders : s'.readers = s.readers) (hact : s'.writerActive = s.writerActive)
    (hwaiters : 0 ≤ s'.writeWaiters) : s'.Agree := by
  have hother {t' : Nat} {role : RwRole} (hholds : Holds (.run role))
      (h : s'.parking.pc t' = .run role) : s.parking.pc t' = .run role := by
    rw [hpc] at h
    obtain ⟨-, heq⟩ | ⟨-, h⟩ := update_eq_iff.mp h
    · exact absurd (heq ▸ hholds) hnew
    · exact h
  refine ⟨?_, by rw [hreaders]; exact hs.nonneg, fun t' h => ?_, fun t1 t2 h1 h2 => ?_,
    hs.after_update hpc hafter, hwaiters⟩
  · rw [hpc, hreaders]
    apply hs.census.stay
    constructor
    · rintro rfl
      exact absurd trivial hnew
    · intro h
      rw [h] at hold
      exact absurd trivial hold
  · rw [hreaders, hact]
    exact hs.writing t' (hother trivial h)
  · exact hs.oneWriter t1 t2 (hother trivial h1) (hother trivial h2)

lemma Agree.grantRead (hold : ¬Holds (s.parking.pc t)) (hfree : s.writerActive = false)
    (hpc : s'.parking.pc = update s.parking.pc t (.run .reading))
    (hreaders : s'.readers = s.readers + 1) (hwaiters : 0 ≤ s'.writeWaiters) : s'.Agree := by
  have hnonneg := hs.nonneg
  have hwriting (t' : Nat) : s'.parking.pc t' ≠ .run .writing := by
    intro h
    rw [hpc] at h
    obtain ⟨-, heq⟩ | ⟨-, h⟩ := update_eq_iff.mp h
    · cases heq
    · have hact := (hs.writing t' h).1
      rw [hfree] at hact
      cases hact
  refine ⟨?_, by omega, fun t' h => absurd h (hwriting t'), fun t1 _ h => absurd h (hwriting t1),
    hs.after_update hpc nofun, hwaiters⟩
  have hcnt : s'.readers.toNat = s.readers.toNat + 1 := by omega
  rw [hpc, hcnt]
  refine hs.census.enter (fun h => hold ?_) rfl
  rw [h]
  trivial

lemma Agree.dropRead (hold : s.parking.pc t = .run .reading) (hnew : ¬Holds pc)
    (hafter : Quiet pc) (hpos : 0 < s.readers)
    (hpc : s'.parking.pc = update s.parking.pc t pc) (hreaders : s'.readers = s.readers - 1)
    (hwaiters : 0 ≤ s'.writeWaiters) : s'.Agree := by
  have hwriting (t' : Nat) : s'.parking.pc t' ≠ .run .writing := by
    intro h
    rw [hpc] at h
    obtain ⟨-, rfl⟩ | ⟨-, h⟩ := update_eq_iff.mp h
    · exact hnew trivial
    · have h0 := (hs.writing t' h).2
      omega
  refine ⟨?_, by omega, fun t' h => absurd h (hwriting t'), fun t1 _ h => absurd h (hwriting t1),
    hs.after_update hpc hafter, hwaiters⟩
  have hcnt : s'.readers.toNat = s.readers.toNat - 1 := by omega
  rw [hpc, hcnt]
  refine hs.census.leave hold ?_
  rintro rfl
  exact hnew trivial

lemma Agree.grantWrite (hold : ¬Holds (s.parking.pc t)) (hfree : s.writerActive = false)
    (h0 : s.readers = 0) (hpc : s'.parking.pc = update s.parking.pc t (.run .writing))
    (hreaders : s'.readers = s.readers) (hact : s'.writerActive = true)
    (hwaiters : 0 ≤ s'.writeWaiters) : s'.Agree := by
  have hwriting {t' : Nat} (h : s'.parking.pc t' = .run .writing) : t' = t := by
    rw [hpc] at h
    obtain ⟨heq, -⟩ | ⟨-, h⟩ := update_eq_iff.mp h
    · exact heq
    · have hact := (hs.writing t' h).1
      rw [hfree] at hact
      cases hact
  refine ⟨?_, by omega, fun t' _ => ⟨hact, by omega⟩,
    fun t1 t2 h1 h2 => (hwriting h1).trans (hwriting h2).symm, hs.after_update hpc nofun, hwaiters⟩
  rw [hpc, hreaders]
  apply hs.census.stay
  constructor
  · rintro ⟨⟩
  · intro h
    rw [h] at hold
    exact absurd trivial hold

lemma Agree.dropWrite (hold : s.parking.pc t = .run .writing) (hnew : ¬Holds pc)
    (hafter : Quiet pc) (hpc : s'.parking.pc = update s.parking.pc t pc)
    (hreaders : s'.readers = s.readers) (hwaiters : 0 ≤ s'.writeWaiters) : s'.Agree := by
  have hwriting (t' : Nat) : s'.parking.pc t' ≠ .run .writing := by
    intro h
    rw [hpc] at h
    obtain ⟨-, rfl⟩ | ⟨hne, h⟩ := update_eq_iff.mp h
    · exact hnew trivial
    · exact hne (hs.oneWriter t' t h hold)
  refine ⟨?_, by rw [hreaders]; exact hs.nonneg, fun t' h => absurd h (hwriting t'),
    fun t1 _ h => absurd h (hwriting t1), hs.after_update hpc hafter, hwaiters⟩
  rw [hpc, hreaders]
  apply hs.census.stay
  rw [hold]
  constructor
  · rintro rfl
    exact absurd trivial hnew
  · rintro ⟨⟩

end

lemma popWriter_eq (hok : s.popWriter rounds t = some s') :
    ∃ r : Popped, s.parking.pop rounds t .write .outside = some (r, s'.parking) ∧
      s'.parking.pc = update s.parking.pc t
        (if r.task = 0 then .run .outside else .waking .write r.task .outside) ∧
      s'.readers = s.readers ∧ s'.writerActive = s.writerActive ∧
      s'.writeWaiters = waitersAfter s.writeWaiters r ∧ 0 ≤ s'.writeWaiters := by
  obtain ⟨⟨r, parking⟩, hpop, heq⟩ := map_eq_some_iff.mp hok
  obtain ⟨r', -, heq'⟩ := map_eq_some_iff.mp hpop
  cases heq
  cases heq'
  refine ⟨r, hpop, rfl, rfl, rfl, rfl, ?_⟩
  dsimp only [waitersAfter]
  split <;> omega

lemma not_holds_pop (role : RwRole) (hrole : ¬Holds (.run role)) :
    ¬Holds (if task = 0 then .run role else .waking q task role) ∧
      Quiet (if task = 0 then .run role else .waking q task role) := by
  split
  · exact ⟨hrole, fun _ _ _ h => by cases h⟩
  · refine ⟨id, fun _ _ _ h => ?_⟩
    cases h
    exact hrole

lemma not_holds_free (ht : s.parking.pc t = .run .outside ∨ s.parking.pc t = .woken q) :
    ¬Holds (s.parking.pc t) := by
  obtain ht | ht := ht <;> rw [ht] <;> exact id

lemma Agree.schedWakeTask (hs : s.Agree) (task : Nat) :
    Agree { s with parking := s.parking.schedWakeTask task } := by
  unfold Parking.schedWakeTask
  split
  case isFalse => exact hs
  case isTrue =>
    cases hpc : s.parking.pc task with
    | waiting why =>
      exact hs.quiet _ (by rw [hpc]; exact id) id (fun _ _ _ h => by cases h) rfl rfl rfl hs.waiters
    | _ =>
      have hsame : update s.parking.pc task (s.parking.pc task) = s.parking.pc :=
        update_eq_self ..
      rw [hpc] at hsame
      simp only [hsame]
      exact ⟨hs.census, hs.nonneg, hs.writing, hs.oneWriter, hs.after, hs.waiters⟩

lemma Agree.exec (hs : s.Agree) (hallowed : s.Allowed e)
    (hexec : s.exec rounds e = some s') : s'.Agree := by
  have hnone {pc : Pc RwRole Side Side} (h : ∀ q task role, pc ≠ .waking q task role) : Quiet pc :=
    fun q task role heq => absurd heq (h q task role)
  cases e with
  | acquireRead t proc =>
    have hold := not_holds_free hallowed.2
    simp only [NativeRwlock.exec] at hexec
    split at hexec
    case isTrue hfree =>
      cases hexec
      exact hs.grantRead hold hfree.1 rfl rfl hs.waiters
    · split at hexec <;> cases hexec
      · exact hs.quiet _ hold id (hnone (by simp)) rfl rfl rfl hs.waiters
      · exact hs
  | releaseRead t =>
    obtain ⟨hpos, hexec⟩ := then_of_ite hexec
    split at hexec
    · obtain ⟨r, -, hpc, hreaders, -, -, hwaiters⟩ := popWriter_eq hexec
      obtain ⟨hnew, hafter⟩ := not_holds_pop .outside id
      exact hs.dropRead hallowed hnew hafter hpos hpc hreaders hwaiters
    · cases hexec
      exact hs.dropRead hallowed id (hnone (by simp)) hpos rfl rfl hs.waiters
  | acquireWrite t proc =>
    have hold := not_holds_free hallowed.2
    simp only [NativeRwlock.exec] at hexec
    split at hexec
    case isTrue hfree =>
      cases hexec
      exact hs.grantWrite hold hfree.1 hfree.2 rfl rfl rfl hs.waiters
    · have hwaiters := hs.waiters
      split at hexec <;> cases hexec
      · exact hs.quiet _ hold id (hnone (by simp)) rfl rfl rfl (by dsimp only; omega)
      · exact hs
  | releaseWrite t =>
    simp only [NativeRwlock.exec] at hexec
    split at hexec
    · obtain ⟨r, -, hpc, hreaders, -, -, hwaiters⟩ := popWriter_eq hexec
      obtain ⟨hnew, hafter⟩ := not_holds_pop .outside id
      exact hs.dropWrite hallowed hnew hafter hpc hreaders hwaiters
    · cases hexec
      exact hs.dropWrite hallowed id (hnone (by simp)) rfl rfl hs.waiters
  | wakeReader t =>
    obtain ⟨⟨r, parking⟩, hpop, heq⟩ := map_eq_some_iff.mp hexec
    obtain ⟨r', -, heq'⟩ := map_eq_some_iff.mp hpop
    cases heq
    cases heq'
    have hold : ¬Holds (s.parking.pc t) := by rw [hallowed]; exact id
    split
    case isTrue h0 =>
      refine hs.quiet (.run .outside) hold id (hnone (by simp)) ?_ rfl rfl hs.waiters
      simp only [Parking.goOn, update_idem]
    case isFalse hne =>
      refine hs.quiet (.waking .read r.task .releasing) hold id ?_ ?_ rfl rfl hs.waiters
      · rintro q task role ⟨⟩
        exact id
      · rfl
  | wake t =>
    obtain ⟨q, task, role, hpc⟩ := hallowed
    cases hexec
    have hkept : (s.parking.schedWakeTask task).pc t = s.parking.pc t :=
      Parking.schedWakeTask_pc task (fun why => by simp [hpc])
    simp only [Parking.wake, hpc]
    refine (hs.schedWakeTask task).quiet _ ?_ (hs.after t q task role hpc) (hnone (by simp))
      rfl rfl rfl hs.waiters
    rw [hkept, hpc]
    exact id
  | kill q t =>
    cases hexec
    exact ⟨hs.census, hs.nonneg, hs.writing, hs.oneWriter, hs.after, hs.waiters⟩
  | stray t =>
    cases hexec
    exact hs.schedWakeTask t

lemma Agree.exclusive (hs : s.Agree) : s.Exclusive where
  oneWriter := hs.oneWriter
  apart t t' ht ht' := by
    have h0 := (hs.writing t ht).2
    have hcensus := hs.census
    rw [h0] at hcensus
    exact hcensus.eq_zero_iff.mp rfl t' ht'
  readers := ⟨hs.nonneg, hs.census⟩
  waiters := hs.waiters

/-- In every run of any number of threads, with wakeups in any order. -/
theorem exclusive_of_run {events : List RwEvent}
    (hrun : Run (Step fun _ _ => True) create events s) : s.Exclusive :=
  (hrun.invariant (I := Agree) (fun _ _ _ hs ⟨hallowed, _, _, hexec⟩ => hs.exec hallowed hexec)
    Agree.create).exclusive

/-- A writer that was queued has the lock, with a reader in the queue. -/
theorem queuedWriter_exclusive :
    ∃ s, Run (Step fun _ _ => True) create
        [.acquireRead 1 true, .acquireWrite 2 true, .acquireRead 3 true, .releaseRead 1, .wake 1,
          .acquireWrite 2 true] s ∧
      s.parking.pc 2 = .run .writing ∧ s.Exclusive := by
  refine Run.exists_of_exec (P := fun s => s.parking.pc 2 = .run .writing)
    (f := step? fun _ _ => true) (fun _ _ _ => step_of_step? fun _ _ _ => trivial)
    (by decide +kernel) ?_
  intro s hrun hwriting
  exact ⟨hwriting, exclusive_of_run hrun⟩

end NativeRwlock

end Singularity.Sync
