import Singularity.Foundation.LockGraph
import Singularity.PhysicalMemory.MagazineThreads

/-!
# The locks of the physical memory manager

Every step of the machine takes or gives back one lock. `magazine_refill` takes `PMM` and then the
magazine lock, `magazine_flush` takes them in the other order, and `pmm_map_remaining_memory`
holds `PMM` while the page-table code calls `pmm_alloc_frame`. A task is a point of the code
between two lock operations; the code up to the next one runs with the operation that ends it.
-/

namespace Singularity.PhysicalMemory

open Foundation Function Option

inductive Lock where
  | pmm
  | magazine (cpu : Nat)
  deriving DecidableEq

/-- The points of the code between two lock operations. In a `Lock` task the
thread requests a lock, in a `Body` or `End` task it goes on to release one. -/
inductive Task where
  | done
  | allocLock (cpu : Nat)
  | allocBody (cpu : Nat)
  | refillLock (cpu : Nat)
  | refillMag (cpu : Nat)
  | refillBody (cpu : Nat)
  | refillEnd (cpu loaded : Nat)
  | popLock (cpu : Nat)
  | popBody (cpu : Nat)
  | fallbackLock
  | fallbackBody
  | freeLock (cpu ptr : Nat)
  | freeBody (cpu ptr : Nat)
  | freePmmLock (ptr : Nat)
  | freePmmBody (ptr : Nat)
  | flushLock (cpu : Nat) (frame : Option Nat)
  | flushPmm (cpu : Nat) (frame : Option Nat)
  | flushBody (cpu : Nat) (frame : Option Nat)
  | flushEnd (cpu : Nat) (frame : Option Nat)
  | storeLock (cpu frame : Nat)
  | storeBody (cpu frame : Nat)
  | mapLock (tables : Nat)
  | mapEnd
  deriving DecidableEq

/-- The lock that a task requests. -/
def Task.wants : Task → Option Lock
  | .allocLock cpu => some (.magazine cpu)
  | .refillLock _ => some .pmm
  | .refillMag cpu => some (.magazine cpu)
  | .popLock cpu => some (.magazine cpu)
  | .fallbackLock => some .pmm
  | .freeLock cpu _ => some (.magazine cpu)
  | .freePmmLock _ => some .pmm
  | .flushLock cpu _ => some (.magazine cpu)
  | .flushPmm _ _ => some .pmm
  | .storeLock cpu _ => some (.magazine cpu)
  | .mapLock _ => some .pmm
  | _ => none

/-- The locks that a task holds. -/
def Task.holds : Task → List Lock
  | .allocBody cpu => [.magazine cpu]
  | .refillMag _ => [.pmm]
  | .refillBody cpu => [.magazine cpu, .pmm]
  | .refillEnd _ _ => [.pmm]
  | .popBody cpu => [.magazine cpu]
  | .fallbackBody => [.pmm]
  | .freeBody cpu _ => [.magazine cpu]
  | .freePmmBody _ => [.pmm]
  | .flushPmm cpu _ => [.magazine cpu]
  | .flushBody cpu _ => [.pmm, .magazine cpu]
  | .flushEnd cpu _ => [.magazine cpu]
  | .storeBody cpu _ => [.magazine cpu]
  | .mapEnd => [.pmm]
  | _ => []

/-- The lock that the code of a task releases at its end. -/
def Task.releases : Task → Option Lock
  | .allocBody cpu => some (.magazine cpu)
  | .refillBody cpu => some (.magazine cpu)
  | .refillEnd _ _ => some .pmm
  | .popBody cpu => some (.magazine cpu)
  | .fallbackBody => some .pmm
  | .freeBody cpu _ => some (.magazine cpu)
  | .freePmmBody _ => some .pmm
  | .flushBody _ _ => some .pmm
  | .flushEnd cpu _ => some (.magazine cpu)
  | .storeBody cpu _ => some (.magazine cpu)
  | .mapEnd => some .pmm
  | _ => none

/-- The code of a task up to the release, and the task after it. -/
def Task.body (pmm : Pmm) : Task → Except Panic (Task × Pmm)
  | .allocBody cpu =>
    if pmm.magazines cpu ≠ [] then do
      let (_, pmm) ← popMagazine pmm cpu
      return (.done, pmm)
    else return (.refillLock cpu, pmm)
  | .refillBody cpu => do
      let (loaded, pmm) ← magazineRefill pmm cpu
      return (.refillEnd cpu loaded, pmm)
  | .refillEnd cpu loaded => return (if 0 < loaded then .popLock cpu else .fallbackLock, pmm)
  | .popBody cpu => do
      let (_, pmm) ← popMagazine pmm cpu
      return (.done, pmm)
  | .fallbackBody => do
      let (_, pmm) ← allocLocked pmm
      return (.done, pmm)
  | .freeBody cpu ptr =>
    if (pmm.magazines cpu).length < magazineSize then
      return (.done, pushMagazine pmm cpu (ptr / pageSize))
    else return (.flushLock cpu (some (ptr / pageSize)), pmm)
  | .freePmmBody ptr => do
      let state ← freeFrameLocked pmm.state ptr
      return (.done, { pmm with state })
  | .flushBody cpu frame => do
      let pmm ← magazineFlush pmm cpu
      return (.flushEnd cpu frame, pmm)
  | .flushEnd cpu (some frame) => return (.storeLock cpu frame, pmm)
  | .storeBody cpu frame => return (.done, storeMagazine pmm cpu frame)
  | _ => return (.done, pmm)

/-- The first task of a call. -/
def Op.task : Op → Task
  | .alloc cpu => if cpu < maxCpus then .allocLock cpu else .fallbackLock
  | .free cpu ptr =>
    if ptr = 0 then .done else if cpu < maxCpus then .freeLock cpu ptr else .freePmmLock ptr
  | .flush cpu => if cpu < maxCpus then .flushLock cpu none else .done

/-- The physical memory that the boot page tables map. -/
def mappedLimit : Nat := 4 * 1024 * 1024 * 1024

/-- A thread. Inside `map_pages_bulk`, with `PMM` held, `mapping` is the number of
page tables that are still to be allocated. -/
structure Thread where
  mapping : Option Nat
  task : Task
  deriving DecidableEq

def Thread.holds (th : Thread) : List Lock :=
  (if th.mapping.isSome then [.pmm] else []) ++ th.task.holds

@[simp] lemma Thread.mem_holds (th : Thread) (k : Lock) :
    k ∈ th.holds ↔ (k = .pmm ∧ th.mapping.isSome) ∨ k ∈ th.task.holds := by
  unfold Thread.holds
  split
  case isTrue hsome => simp [hsome]
  case isFalse hnone => simp [hnone]

/-- The thread once it has the lock it requested. -/
def Thread.acquired (pmm : Pmm) (th : Thread) : Thread :=
  match th.task with
  | .allocLock cpu => { th with task := .allocBody cpu }
  | .refillLock cpu =>
    { th with task := if pmm.state.initialized then .refillMag cpu else .refillEnd cpu 0 }
  | .refillMag cpu => { th with task := .refillBody cpu }
  | .popLock cpu => { th with task := .popBody cpu }
  | .fallbackLock => { th with task := .fallbackBody }
  | .freeLock cpu ptr => { th with task := .freeBody cpu ptr }
  | .freePmmLock ptr => { th with task := .freePmmBody ptr }
  | .flushLock cpu frame =>
    { th with task := if pmm.magazines cpu = [] then .flushEnd cpu frame else .flushPmm cpu frame }
  | .flushPmm cpu frame => { th with task := .flushBody cpu frame }
  | .storeLock cpu frame => { th with task := .storeBody cpu frame }
  | .mapLock tables =>
    if pmm.state.totalUsableMemoryBytes ≤ mappedLimit then { th with task := .mapEnd }
    else ⟨some tables, .done⟩
  | _ => th

/-- The lock a thread releases next: that of its task, or `PMM` when the mapping is done. -/
def Thread.releases (th : Thread) : Option Lock :=
  match th.mapping, th.task with
  | some 0, .done => some .pmm
  | _, task => task.releases

def Thread.body (pmm : Pmm) (th : Thread) : Except Panic (Thread × Pmm) :=
  match th.mapping, th.task with
  | some 0, .done => return (⟨none, .done⟩, pmm)
  | mapping, task => do
      let (task, pmm) ← task.body pmm
      return (⟨mapping, task⟩, pmm)

/-- The manager, its threads and the lock table. -/
structure LockMachine (τ : Type*) where
  pmm : Pmm
  threads : τ → Thread
  holder : Lock → Option τ

/-- A thread starts a call or the mapping of the remaining memory, takes or
releases a lock, or starts an allocation inside the mapping. -/
inductive LockEvent (τ : Type*) where
  | start (t : τ) (op : Op)
  | map (t : τ) (tables : Nat)
  | acquire (t : τ)
  | release (t : τ)
  | nest (t : τ) (cpu : Nat)
  deriving DecidableEq

variable {τ : Type*}

/-- All threads are between calls and no lock is held. -/
def LockMachine.idle (τ : Type*) (pmm : Pmm) : LockMachine τ :=
  ⟨pmm, fun _ => ⟨none, .done⟩, fun _ => none⟩

/-- The magazine whose lock a thread requests while it holds `PMM`. -/
def Thread.filling (th : Thread) : Option Nat :=
  match th.task with
  | .refillMag cpu => some cpu
  | .allocLock cpu => if th.mapping.isSome then some cpu else none
  | _ => none

/-- The magazine whose lock a thread holds while it requests `PMM`. -/
def Thread.flushing (th : Thread) : Option Nat :=
  match th.task with
  | .flushPmm cpu _ => some cpu
  | _ => none

/-- What must hold when a thread takes the lock that its task requests. -/
def ApartTask (m : LockMachine τ) (t : τ) : Task → Prop
  | .flushLock cpu _ => ∀ u, u ≠ t → (m.threads u).filling ≠ some cpu
  | .refillLock cpu => ∀ u, u ≠ t → (m.threads u).flushing ≠ some cpu
  | .allocLock cpu => (m.threads t).mapping ≠ none → m.pmm.magazines cpu ≠ []
  | _ => True

/-- The sections that take the two locks in opposite orders do not meet on one
magazine, and the allocations inside the mapping find a frame in the magazine. -/
def Apart (m : LockMachine τ) : LockEvent τ → Prop
  | .acquire t => ApartTask m t (m.threads t).task
  | .nest t cpu => cpu < maxCpus ∧ ∀ u, u ≠ t → (m.threads u).flushing ≠ some cpu
  | _ => True

/-- A thread inside the mapping: every allocation there ends in its first section. -/
def MappingOk (pmm : Pmm) (th : Thread) : Prop :=
  th.mapping ≠ none → th.task = .done ∨ (∃ cpu, th.task = .allocLock cpu) ∨
    ∃ cpu, th.task = .allocBody cpu ∧ pmm.magazines cpu ≠ []

/-- The invariant under `Apart`. -/
structure Orderly (m : LockMachine τ) : Prop where
  tabled : Tabled m.holder fun t => (m.threads t).holds
  apart : ∀ t u cpu, (m.threads t).filling = some cpu → (m.threads u).flushing ≠ some cpu
  mapping : ∀ t, MappingOk m.pmm (m.threads t)

variable {m m' : LockMachine τ} {e : LockEvent τ} {pmm pmm' : Pmm} {th th' : Thread} {l : Lock}

/-- A thread that requests a lock holds none, or asks for a magazine with `PMM`, or vice versa. -/
lemma wants_cases (hmapping : MappingOk pmm th) (hwants : th.task.wants = some l) :
    th.holds = [] ∨
    (∃ cpu, th.filling = some cpu ∧ l = .magazine cpu ∧ th.holds = [.pmm]) ∨
    (∃ cpu, th.flushing = some cpu ∧ l = .pmm ∧ th.holds = [.magazine cpu]) := by
  obtain ⟨mapping, task⟩ := th
  cases mapping with
  | none =>
    cases task <;> cases hwants <;>
      simp [Thread.holds, Task.holds, Thread.filling, Thread.flushing]
  | some n =>
    obtain rfl | ⟨cpu, rfl⟩ | ⟨cpu, rfl, -⟩ := hmapping (by simp)
    · cases hwants
    · cases hwants
      exact .inr (.inl ⟨cpu, rfl, rfl, rfl⟩)
    · cases hwants

/-- The rank that drops along every wait. -/
def Thread.rank (th : Thread) : Nat :=
  if th.task.wants = none then 0
  else if th.holds = [] then 3
  else if .pmm ∈ th.holds then 1
  else 2

lemma Orderly.deadlockFree (h : Orderly m) :
    DeadlockFree (fun t => (m.threads t).task.wants) m.holder := by
  apply deadlockFree_of_rank (fun t => (m.threads t).rank)
  rintro t u ⟨l, hwants, hholder⟩
  have hheld : l ∈ (m.threads u).holds := (h.tabled l u).mp hholder
  have hne : (m.threads u).holds ≠ [] := List.ne_nil_of_mem hheld
  obtain ht | ⟨cpu, hfill, rfl, ht⟩ | ⟨cpu, hflush, rfl, ht⟩ := wants_cases (h.mapping t) hwants
  · have hrank : (m.threads t).rank = 3 := by simp [Thread.rank, hwants, ht]
    rw [hrank]
    unfold Thread.rank
    split_ifs <;> decide
  · have hrank : (m.threads t).rank = 1 := by simp [Thread.rank, hwants, ht]
    rw [hrank]
    have hidle : (m.threads u).task.wants = none := by
      by_contra hsome
      obtain ⟨k, hk⟩ := ne_none_iff_exists'.mp hsome
      obtain hu | ⟨c, -, -, hu⟩ | ⟨c, hflush, -, hu⟩ := wants_cases (h.mapping u) hk
      · exact hne hu
      · rw [hu] at hheld
        simp at hheld
      · rw [hu, List.mem_singleton, Lock.magazine.injEq] at hheld
        subst hheld
        exact h.apart t u cpu hfill hflush
    simp [Thread.rank, hidle]
  · have hrank : (m.threads t).rank = 2 := by simp [Thread.rank, hwants, ht]
    rw [hrank]
    unfold Thread.rank
    split_ifs <;> decide

variable [DecidableEq τ]

def LockMachine.setThread (m : LockMachine τ) (t : τ) (th : Thread) : LockMachine τ :=
  { m with threads := update m.threads t th }

/-- One step; a lock is only taken when nobody holds it, and a panic ends the run. -/
def lockStep? (m : LockMachine τ) : LockEvent τ → Option (LockMachine τ)
  | .start t op =>
    if m.threads t = ⟨none, .done⟩ then some (m.setThread t ⟨none, op.task⟩) else none
  | .map t tables =>
    if m.threads t = ⟨none, .done⟩ then some (m.setThread t ⟨none, .mapLock tables⟩) else none
  | .nest t cpu =>
    match m.threads t with
    | ⟨some (n + 1), .done⟩ => some (m.setThread t ⟨some n, (Op.alloc cpu).task⟩)
    | _ => none
  | .acquire t =>
    (m.threads t).task.wants.bind fun l =>
      if m.holder l = none then
        some { m.setThread t ((m.threads t).acquired m.pmm) with
          holder := update m.holder l (some t) }
      else none
  | .release t =>
    (m.threads t).releases.bind fun l =>
      ((m.threads t).body m.pmm).toOption.map fun (th, pmm) =>
        { m.setThread t th with pmm, holder := update m.holder l none }

def LockStep (m : LockMachine τ) (e : LockEvent τ) (m' : LockMachine τ) : Prop :=
  lockStep? m e = some m'

lemma acquired_holds (hwants : th.task.wants = some l) (k : Lock) :
    k ∈ (th.acquired pmm).holds ↔ k = l ∨ k ∈ th.holds := by
  obtain ⟨mapping, task⟩ := th
  cases task <;> cases hwants <;> dsimp only [Thread.acquired]
  case refillLock cpu => split <;> simp [Task.holds, or_comm]
  case flushLock cpu frame => split <;> simp [Task.holds, or_comm]
  case mapLock tables =>
    split
    · simp [Task.holds, or_comm]
    · simp only [Thread.mem_holds, Task.holds, isSome_some, List.not_mem_nil]
      tauto
  all_goals
    simp only [Thread.mem_holds, Task.holds, List.mem_cons, List.not_mem_nil]
    tauto

variable {cpu : Nat} {task task' : Task} {t : τ}

lemma acquired_crosses (hwants : th.task.wants = some l) :
    ((th.acquired pmm).filling = some cpu → th.task = .refillLock cpu) ∧
      ((th.acquired pmm).flushing = some cpu → ∃ frame, th.task = .flushLock cpu frame) := by
  obtain ⟨mapping, task⟩ := th
  cases task <;> cases hwants <;> dsimp only [Thread.acquired]
  case refillLock c => split <;> simp [Thread.filling, Thread.flushing]
  case flushLock c frame => split <;> simp [Thread.filling, Thread.flushing]
  case mapLock tables => split <;> simp [Thread.filling, Thread.flushing]
  all_goals simp [Thread.filling, Thread.flushing]

lemma acquired_mapping (hmapping : MappingOk pmm th) (hwants : th.task.wants = some l)
    (hloaded : ∀ cpu, th.task = .allocLock cpu → th.mapping ≠ none → pmm.magazines cpu ≠ []) :
    MappingOk pmm (th.acquired pmm) := by
  obtain ⟨mapping, task⟩ := th
  cases mapping with
  | none =>
    cases task <;> cases hwants <;> dsimp only [Thread.acquired]
    case none.mapLock.refl tables =>
      split
      · exact fun hno => absurd rfl hno
      · exact fun _ => .inl rfl
    all_goals exact fun hno => absurd rfl hno
  | some n =>
    obtain rfl | ⟨cpu, rfl⟩ | ⟨cpu, rfl, -⟩ := hmapping (by simp)
    · cases hwants
    · exact fun _ => .inr (.inr ⟨cpu, rfl, hloaded cpu rfl (by simp)⟩)
    · cases hwants

lemma magazineRefill_other (hok : magazineRefill pmm c = .ok (loaded, pmm')) (hne : cpu ≠ c) :
    pmm'.magazines cpu = pmm.magazines cpu := by
  unfold magazineRefill at hok
  split at hok
  · cases hok
    rfl
  split at hok
  · cases hok
    rfl
  · obtain ⟨⟨mid, frames⟩, -, ⟨⟩⟩ := ok_of_bind hok
    exact update_of_ne hne _ _

/-- The code of a task gives one lock back and changes only a magazine whose lock it holds. -/
lemma taskBody_released (hrel : task.releases = some l) (hok : task.body pmm = .ok (task', pmm')) :
    l ∈ task.holds ∧ (∀ k, k ∈ task'.holds ↔ k ≠ l ∧ k ∈ task.holds) ∧
      (∀ mapping, (⟨mapping, task'⟩ : Thread).filling = none) ∧
      (∀ mapping, (⟨mapping, task'⟩ : Thread).flushing = none) ∧
      ∀ c, .magazine c ∉ task.holds → pmm'.magazines c = pmm.magazines c := by
  cases task <;> cases hrel
  case allocBody cpu =>
    dsimp only [Task.body] at hok
    split at hok
    · obtain ⟨⟨frame, mid⟩, hpop, ⟨⟩⟩ := ok_of_bind hok
      rw [popMagazine_magazines hpop]
      simp +contextual [Task.holds, Thread.filling, Thread.flushing, update_of_ne]
    · cases hok
      simp [Task.holds, Thread.filling, Thread.flushing]
  case refillBody cpu =>
    obtain ⟨⟨loaded, mid⟩, hrefill, ⟨⟩⟩ := ok_of_bind hok
    refine ⟨by simp [Task.holds], fun k => ?_, fun _ => rfl, fun _ => rfl, fun c hc => ?_⟩
    · cases k <;> simp [Task.holds]
    · exact magazineRefill_other hrefill (by simpa [Task.holds] using hc)
  case refillEnd cpu loaded =>
    cases hok
    split <;> simp [Task.holds, Thread.filling, Thread.flushing]
  case popBody cpu =>
    obtain ⟨⟨frame, mid⟩, hpop, ⟨⟩⟩ := ok_of_bind hok
    rw [popMagazine_magazines hpop]
    simp +contextual [Task.holds, Thread.filling, Thread.flushing, update_of_ne]
  case fallbackBody =>
    obtain ⟨⟨ptr, mid⟩, halloc, ⟨⟩⟩ := ok_of_bind hok
    rw [(allocLocked_magazines halloc).1]
    simp [Task.holds, Thread.filling, Thread.flushing]
  case freeBody cpu ptr =>
    dsimp only [Task.body] at hok
    split at hok
    all_goals
      cases hok
      simp +contextual [Task.holds, Thread.filling, Thread.flushing, pushMagazine, update_of_ne]
  case freePmmBody ptr =>
    obtain ⟨state, -, ⟨⟩⟩ := ok_of_bind hok
    simp [Task.holds, Thread.filling, Thread.flushing]
  case flushBody cpu frame =>
    obtain ⟨mid, hflush, ⟨⟩⟩ := ok_of_bind hok
    refine ⟨by simp [Task.holds], fun k => ?_, fun _ => rfl, fun _ => rfl, fun c hc => ?_⟩
    · cases k <;> simp [Task.holds]
    · have hne : c ≠ cpu := by simpa [Task.holds] using hc
      obtain ⟨hmags, -⟩ | ⟨-, hmags, -⟩ := magazineFlush_magazines hflush
      · rw [hmags]
      · rw [hmags, update_of_ne hne]
  case flushEnd cpu frame =>
    cases frame with
    | none | some frame =>
      cases hok
      simp [Task.holds, Thread.filling, Thread.flushing]
  case storeBody | mapEnd =>
    cases hok
    simp +contextual [Task.holds, Thread.filling, Thread.flushing, storeMagazine, update_of_ne]

/-- What the code of a thread up to a release does to its locks and to the magazines. -/
structure Released (th : Thread) (pmm : Pmm) (l : Lock) (th' : Thread) (pmm' : Pmm) : Prop where
  held : l ∈ th.holds
  holds : ∀ k, k ∈ th'.holds ↔ k ≠ l ∧ k ∈ th.holds
  filling : th'.filling = none
  flushing : th'.flushing = none
  mapping : MappingOk pmm' th'
  other : ∀ cpu, .magazine cpu ∉ th.holds → pmm'.magazines cpu = pmm.magazines cpu

lemma body_released (hmapping : MappingOk pmm th) (hrel : th.releases = some l)
    (hok : th.body pmm = .ok (th', pmm')) : Released th pmm l th' pmm' := by
  obtain ⟨mapping, task⟩ := th
  cases mapping with
  | none =>
    obtain ⟨⟨task', mid⟩, hbody, ⟨⟩⟩ := ok_of_bind hok
    obtain ⟨hheld, hholds, hfilling, hflushing, hother⟩ := taskBody_released hrel hbody
    refine ⟨by simpa using hheld, ?_, hfilling none, hflushing none, fun hno => absurd rfl hno, ?_⟩
    · simpa using hholds
    · simpa using hother
  | some n =>
    obtain rfl | ⟨cpu, rfl⟩ | ⟨cpu, rfl, hloaded⟩ := hmapping (by simp)
    · cases n with
      | zero =>
        cases hrel
        cases hok
        exact ⟨by simp, by simp [Task.holds], rfl, rfl, fun hno => absurd rfl hno, fun _ _ => rfl⟩
      | succ n => cases hrel
    · cases n <;> cases hrel
    · have hbody : (Task.allocBody cpu).body pmm >>= (fun r => pure (⟨some n, r.1⟩, r.2)) =
          Except.ok (th', pmm') := by
        cases n <;> exact hok
      have hrel' : (Task.allocBody cpu).releases = some l := by
        cases n <;> exact hrel
      obtain ⟨⟨task', mid⟩, htask, ⟨⟩⟩ := ok_of_bind hbody
      obtain ⟨-, -, -, -, hother⟩ := taskBody_released hrel' htask
      cases hrel'
      dsimp only [Task.body] at htask
      rw [if_pos hloaded] at htask
      obtain ⟨⟨frame, last⟩, -, ⟨⟩⟩ := ok_of_bind htask
      refine ⟨by simp [Task.holds], ?_, rfl, rfl, fun _ => .inl rfl, ?_⟩
      · intro k
        cases k <;> simp [Task.holds]
      · intro c hc
        exact hother c (by simpa using hc)

/-- The invariant after one thread went on. -/
lemma Orderly.update (h : Orderly m)
    (htabled : Tabled holder (update (fun t => (m.threads t).holds) t th'.holds))
    (hfilling : ∀ u, u ≠ t → ∀ cpu, th'.filling = some cpu → (m.threads u).flushing ≠ some cpu)
    (hflushing : ∀ u, u ≠ t → ∀ cpu, th'.flushing = some cpu → (m.threads u).filling ≠ some cpu)
    (hself : MappingOk pmm' th') (hothers : ∀ u, u ≠ t → MappingOk pmm' (m.threads u)) :
    Orderly ⟨pmm', update m.threads t th', holder⟩ := by
  refine ⟨?_, ?_, ?_⟩
  · have hholds : (fun u => (Function.update m.threads t th' u).holds) =
        Function.update (fun t => (m.threads t).holds) t th'.holds :=
      comp_update Thread.holds m.threads t th'
    rwa [hholds]
  · intro a b cpu hfill hflush
    dsimp only at hfill hflush
    rw [update_apply] at hfill
    split_ifs at hfill with ha
    · rw [update_apply] at hflush
      split_ifs at hflush with hb
      · unfold Thread.filling at hfill
        unfold Thread.flushing at hflush
        split at hflush
        case h_1 htask =>
          rw [htask] at hfill
          cases hfill
        · cases hflush
      · exact hfilling b hb cpu hfill hflush
    · rw [update_apply] at hflush
      split_ifs at hflush
      · exact hflushing a ha cpu hflush hfill
      · exact h.apart a b cpu hfill hflush
  · intro u
    dsimp only
    rw [update_apply]
    split_ifs with hu
    · exact hself
    · exact hothers u hu

lemma Orderly.begin (h : Orderly m) (hidle : m.threads t = ⟨none, .done⟩)
    (hholds : task.holds = []) (hfilling : (⟨none, task⟩ : Thread).filling = none)
    (hflushing : (⟨none, task⟩ : Thread).flushing = none) :
    Orderly (m.setThread t ⟨none, task⟩) := by
  apply h.update _ _ _ (fun hno => absurd rfl hno) (fun u _ => h.mapping u)
  · apply h.tabled.same
    intro k
    rw [hidle]
    simp only [Thread.mem_holds, hholds]
    rfl
  · intro u _ cpu hcpu
    rw [hfilling] at hcpu
    cases hcpu
  · intro u _ cpu hcpu
    rw [hflushing] at hcpu
    cases hcpu

lemma Op.task_idle (op : Op) : op.task.holds = [] ∧
    (⟨none, op.task⟩ : Thread).filling = none ∧ (⟨none, op.task⟩ : Thread).flushing = none := by
  cases op <;> dsimp only [Op.task] <;> split_ifs <;> exact ⟨rfl, rfl, rfl⟩

lemma acquire_orderly (h : Orderly m) (hcond : Apart m (.acquire t))
    (hwants : (m.threads t).task.wants = some l) (hfree : m.holder l = none) :
    Orderly ⟨m.pmm, update m.threads t ((m.threads t).acquired m.pmm),
      update m.holder l (some t)⟩ := by
  apply h.update (h.tabled.acquire hfree (acquired_holds hwants)) _ _ _ (fun u _ => h.mapping u)
  · intro u hu cpu hcpu
    have htask := (acquired_crosses hwants).1 hcpu
    simp only [Apart, htask, ApartTask] at hcond
    exact hcond u hu
  · intro u hu cpu hcpu
    obtain ⟨frame, htask⟩ := (acquired_crosses hwants).2 hcpu
    simp only [Apart, htask, ApartTask] at hcond
    exact hcond u hu
  · apply acquired_mapping (h.mapping t) hwants
    intro cpu htask
    simp only [Apart, htask, ApartTask] at hcond
    exact hcond

lemma release_orderly (h : Orderly m) (hrel : (m.threads t).releases = some l)
    (hok : (m.threads t).body m.pmm = .ok (th', pmm')) :
    Orderly ⟨pmm', update m.threads t th', update m.holder l none⟩ := by
  have hreleased := body_released (h.mapping t) hrel hok
  apply h.update (h.tabled.release hreleased.held hreleased.holds) _ _ hreleased.mapping
  · intro u hu hmapping
    obtain hdone | hlock | ⟨cpu, hbody, hloaded⟩ := h.mapping u hmapping
    · exact .inl hdone
    · exact .inr (.inl hlock)
    have hu' : .magazine cpu ∈ (m.threads u).holds := by simp [hbody, Task.holds]
    refine .inr (.inr ⟨cpu, hbody, ?_⟩)
    rwa [hreleased.other cpu (fun ht => hu (h.tabled.unique hu' ht))]
  · intro u _ cpu hcpu
    rw [hreleased.filling] at hcpu
    cases hcpu
  · intro u _ cpu hcpu
    rw [hreleased.flushing] at hcpu
    cases hcpu

/-- One lock operation that keeps the sections apart. -/
def ApartStep (m : LockMachine τ) (e : LockEvent τ) (m' : LockMachine τ) : Prop :=
  Apart m e ∧ LockStep m e m'

lemma apartStep_orderly (h : Orderly m) (hstep : ApartStep m e m') : Orderly m' := by
  obtain ⟨hcond, hstep⟩ := hstep
  unfold LockStep at hstep
  cases e with
  | start t op =>
    obtain ⟨hidle, ⟨⟩⟩ := then_of_ite hstep
    obtain ⟨hholds, hfilling, hflushing⟩ := op.task_idle
    exact h.begin hidle hholds hfilling hflushing
  | map t tables =>
    obtain ⟨hidle, ⟨⟩⟩ := then_of_ite hstep
    exact h.begin hidle rfl rfl rfl
  | nest t cpu =>
    dsimp only [lockStep?] at hstep
    split at hstep <;> cases hstep
    case h_1 n hthread =>
      obtain ⟨hcpu, hcond⟩ := hcond
      have htask : (Op.alloc cpu).task = .allocLock cpu := if_pos hcpu
      rw [htask]
      apply h.update _ _ _ (fun _ => .inr (.inl ⟨cpu, rfl⟩)) (fun u _ => h.mapping u)
      · apply h.tabled.same
        intro k
        rw [hthread]
        simp [Task.holds]
      · rintro u hu c ⟨⟩
        exact hcond u hu
      · rintro u hu c ⟨⟩
  | acquire t =>
    obtain ⟨l, hwants, hstep⟩ := bind_eq_some_iff.mp hstep
    obtain ⟨hfree, ⟨⟩⟩ := then_of_ite hstep
    exact acquire_orderly h hcond hwants hfree
  | release t =>
    obtain ⟨l, hrel, hstep⟩ := bind_eq_some_iff.mp hstep
    obtain ⟨⟨th, pmm'⟩, hbody, rfl⟩ := map_eq_some_iff.mp hstep
    exact release_orderly h hrel (ok_of_toOption hbody)

instance [Fintype τ] (m : LockMachine τ) (t : τ) : (task : Task) → Decidable (ApartTask m t task)
  | .flushLock _ _ => inferInstanceAs (Decidable (∀ u, u ≠ t → ¬ _ = _))
  | .refillLock _ => inferInstanceAs (Decidable (∀ u, u ≠ t → ¬ _ = _))
  | .allocLock _ => inferInstanceAs (Decidable (_ → ¬ _ = _))
  | .done | .allocBody _ | .refillMag _ | .refillBody _ | .refillEnd _ _ | .popLock _ | .popBody _
  | .fallbackLock | .fallbackBody | .freeLock _ _ | .freeBody _ _ | .freePmmLock _ | .freePmmBody _
  | .flushPmm _ _ | .flushBody _ _ | .flushEnd _ _ | .storeLock _ _ | .storeBody _ _ | .mapLock _
  | .mapEnd => .isTrue trivial

instance [Fintype τ] (m : LockMachine τ) : (e : LockEvent τ) → Decidable (Apart m e)
  | .acquire t => inferInstanceAs (Decidable (ApartTask m t (m.threads t).task))
  | .nest t _ => inferInstanceAs (Decidable (_ ∧ ∀ u, u ≠ t → ¬ _ = _))
  | .start _ _ | .map _ _ | .release _ => .isTrue trivial

def apartStep? [Fintype τ] (m : LockMachine τ) (e : LockEvent τ) : Option (LockMachine τ) :=
  if Apart m e then lockStep? m e else none

lemma apartStep_of_apartStep? [Fintype τ] (h : apartStep? m e = some m') : ApartStep m e m' := by
  obtain ⟨hcond, h⟩ := then_of_ite h
  exact ⟨hcond, h⟩

/-- In every run that keeps the sections apart, from any state of the manager with
no call in flight, no thread requests a lock it holds and no threads wait for each
other in a cycle. -/
theorem lock_run_deadlockFree {events : List (LockEvent τ)}
    (hrun : Run ApartStep (LockMachine.idle τ pmm) events m) :
    (∀ t l, (m.threads t).task.wants = some l → m.holder l ≠ some t) ∧
      DeadlockFree (fun t => (m.threads t).task.wants) m.holder := by
  have horderly : Orderly m := by
    apply hrun.invariant (fun _ _ _ h hstep => apartStep_orderly h hstep)
    refine ⟨?_, nofun, fun t hno => absurd rfl hno⟩
    intro l t
    simp [LockMachine.idle, Task.holds]
  have hfree := horderly.deadlockFree
  exact ⟨fun t l hwants hheld => hfree t (.single ⟨l, hwants, hheld⟩), hfree⟩

/-- A machine whose usable memory exceeds what the boot page tables map. -/
def largeMachine : MultibootInfo where
  addr := 0x9000
  size := 64
  tags := [.mmap 40 [⟨0, 0x100200000, 1⟩]]

/-- An allocation on the slow path by one thread. -/
def slowAlloc (t : Bool) (cpu : Nat) : List (LockEvent Bool) :=
  [.start t (.alloc cpu), .acquire t, .release t, .acquire t, .acquire t, .release t, .release t,
    .acquire t, .release t]

/-- One thread fills the magazine of CPU 0 and then maps the remaining memory with
one new page table, while another one flushes the magazine of CPU 1. -/
def apartEvents : List (LockEvent Bool) :=
  slowAlloc false 0 ++
    [.start true (.flush 1), .map false 1, .acquire false, .nest false 0, .acquire true,
      .acquire false, .release false]

theorem lock_run_deadlockFree_apart :
    ∃ s₀ m, pmmInit PmmState.static largeMachine 0x200000 = .ok s₀ ∧
      Run ApartStep (LockMachine.idle Bool (Pmm.boot s₀)) apartEvents m ∧
      DeadlockFree (fun t => (m.threads t).task.wants) m.holder := by
  have hsome : ((pmmInit PmmState.static largeMachine 0x200000).toOption.bind fun s₀ =>
      Run.exec apartStep? (LockMachine.idle Bool (Pmm.boot s₀)) apartEvents).isSome = true := by
    decide +kernel
  obtain ⟨m, hm⟩ := isSome_iff_exists.mp hsome
  obtain ⟨s₀, hinit, hexec⟩ := bind_eq_some_iff.mp hm
  have hrun := Run.of_exec (fun _ _ _ => apartStep_of_apartStep?) hexec
  exact ⟨s₀, m, ok_of_toOption hinit, hrun, (lock_run_deadlockFree hrun).2⟩

/-- The boot thread holds `PMM` and requests it again to refill the empty magazine of CPU 0. -/
def mappingEvents : List (LockEvent Bool) :=
  [.map false 1, .acquire false, .nest false 0, .acquire false, .release false]

/-- Thread `true` is about to refill the magazine of CPU 0 with `PMM` held when
thread `false`, which has just freed a frame into it, flushes that magazine. -/
def crossingEvents : List (LockEvent Bool) :=
  slowAlloc false 1 ++
    [.start true (.alloc 0), .acquire true, .release true,
      .start false (.free 0 0x220000), .acquire false, .release false, .acquire true,
      .start false (.flush 0), .acquire false]

lemma exists_run {P : LockMachine Bool → Prop} [DecidablePred P]
    (h : ((pmmInit PmmState.static mb 0x200000).toOption.bind fun s₀ =>
      (Run.exec lockStep? (LockMachine.idle Bool (Pmm.boot s₀)) events).map fun m =>
        decide (P m)) = some true) :
    ∃ s₀ m, pmmInit PmmState.static mb 0x200000 = .ok s₀ ∧
      Run LockStep (LockMachine.idle Bool (Pmm.boot s₀)) events m ∧ P m := by
  obtain ⟨s₀, hinit, h⟩ := bind_eq_some_iff.mp h
  obtain ⟨m, hexec, hfacts⟩ := map_eq_some_iff.mp h
  exact ⟨s₀, m, ok_of_toOption hinit, Run.of_exec (fun _ _ _ h => h) hexec,
    of_decide_eq_true hfacts⟩

theorem lock_run_deadlocks :
    (∃ s₀ m, pmmInit PmmState.static largeMachine 0x200000 = .ok s₀ ∧
      Run LockStep (LockMachine.idle Bool (Pmm.boot s₀)) mappingEvents m ∧
      (m.threads false).task.wants = some .pmm ∧ m.holder .pmm = some false) ∧
    (∃ s₀ m, pmmInit PmmState.static smallMachine 0x200000 = .ok s₀ ∧
      Run LockStep (LockMachine.idle Bool (Pmm.boot s₀)) crossingEvents m ∧
      (m.threads false).task.wants = some .pmm ∧ m.holder .pmm = some true ∧
      (m.threads true).task.wants = some (.magazine 0) ∧
      m.holder (.magazine 0) = some false) := by
  constructor
  · exact exists_run (by decide +kernel)
  · exact exists_run (by decide +kernel)

end Singularity.PhysicalMemory
