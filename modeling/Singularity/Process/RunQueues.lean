import Singularity.Foundation.Runs
import Singularity.Process.Scheduler

/-!
# Interleavings of the scheduler's sections

Threads on any number of CPUs run the lock-protected sections of the scheduler, and other code
stores the fields of tasks without a lock. A wake-up and a removal load the CPU of the task before
they take its lock. In every run in which the CPU is still the one of a task that sleeps or is
queued, and the stores spare such tasks, all queues stay well-formed; a wake-up that comes late
puts a task that sleeps on another CPU into a run queue.
-/

namespace Singularity.Process

open Foundation Function Option

/-- What a caller has loaded before it takes the lock. -/
structure Call where
  task : Nat
  cpu : Nat
  deriving DecidableEq

structure Machine where
  sched : Scheduler
  pid : Nat → Nat
  current : Nat → Nat
  calls : Nat → Option Call

inductive SchedEvent where
  | enqueue (cpu task prio : Nat) (affinity : Int) (now : BitVec 64)
  /-- A caller of `sched_wake_task` or `sched_remove` reads `cpu_id`. -/
  | loadCpu (thread task : Nat)
  | wake (thread rounds : Nat) (now : BitVec 64)
  | remove (thread : Nat)
  /-- The section of `sched_remove` in `process_exit`. -/
  | removeCurrent (cpu : Nat)
  | sleep (cpu : Nat) (ticks now : BitVec 64)
  | pick (cpu : Nat) (now : BitVec 64)
  /-- Which CPU is the victim depends on loads and distances that change nothing. -/
  | steal (cpu victim : Nat)
  | scan (cpu rounds : Nat) (now : BitVec 64) (clock : Nat → BitVec 64)
  | setCpu (cpu task : Nat)
  | setState (task : Nat) (state : ProcessState)
  | setPriority (task prio : Nat)
  | setCurrent (cpu task : Nat)

namespace Machine

/-- One section or one store. -/
def step (maxCpus : Nat) (m : Machine) : SchedEvent → Option Machine
  | .enqueue cpu task prio affinity now =>
    if maxCpus ≤ cpu ∨ task = 0 then some m
    else some { m with sched := m.sched.enqueueLocked cpu task prio affinity now }
  | .loadCpu thread task =>
    if task ≠ 0 ∧ m.calls thread = none then
      some { m with
        calls := update m.calls thread (some ⟨task, m.sched.cpuId task⟩) }
    else none
  | .wake thread rounds now =>
    (m.calls thread).bind fun call =>
      (m.sched.wakeLocked rounds call.cpu call.task now).map fun sched =>
        { m with sched, calls := update m.calls thread none }
  | .remove thread =>
    (m.calls thread).map fun call =>
      { m with
        sched := if maxCpus ≤ call.cpu then m.sched else m.sched.removeLocked call.cpu call.task
        calls := update m.calls thread none }
  | .removeCurrent cpu =>
    if maxCpus ≤ cpu ∨ m.current cpu = 0 then some m
    else some { m with sched := m.sched.removeLocked cpu (m.current cpu) }
  | .sleep cpu ticks now =>
    if m.current cpu ≠ 0 ∧ m.pid (m.current cpu) ≠ 0 then
      some { m with sched := m.sched.sleepLocked cpu (m.current cpu) ticks now }
    else some m
  | .pick cpu now =>
    if maxCpus ≤ cpu then some m else some { m with sched := (m.sched.pickLocked cpu now).1 }
  | .steal cpu victim => some { m with sched := (m.sched.stealLocked cpu victim).1 }
  | .scan cpu rounds now clock =>
    if maxCpus ≤ cpu then some m
    else
      (Scheduler.scanLocked cpu now clock rounds m.sched 0 (m.sched.sleepQueue cpu)).map
        fun sched => { m with sched }
  | .setCpu cpu task =>
    some { m with sched.cpuId := update m.sched.cpuId task cpu }
  | .setState task state =>
    some { m with sched.state := update m.sched.state task state }
  | .setPriority task prio =>
    some { m with sched.priority := update m.sched.priority task prio }
  | .setCurrent cpu task => some { m with current := update m.current cpu task }

end Machine

namespace Scheduler

/-- The task is on no sleep queue. -/
def Awake (s : Scheduler) (task : Nat) : Prop :=
  ∀ c l, Chain s.sleepNext (s.sleepQueue c) l → task ∉ l

/-- The queues hold these lists, and bits, counts and flags agree with them. -/
structure WellFormed (s : Scheduler) (a : Queues) : Prop where
  linked : ∀ c, ∀ p < prioCount, Links.Held s.rq (s.queues (c, p)) (a.runs (c, p))
  active : ∀ c, ∀ p < prioCount, (s.activeQueues c).getLsbD p = true ↔ a.runs (c, p) ≠ []
  total : ∀ c, s.totalTasks c = ∑ p ∈ Finset.range prioCount, (a.runs (c, p)).length
  queued : ∀ t, s.isQueued t = true ↔ ∃! q : Nat × Nat, q.2 < prioCount ∧ t ∈ a.runs q
  once : ∀ t q q', t ∈ a.runs q → t ∈ a.runs q' → q = q'
  sleeping : ∀ c, Chain s.sleepNext (s.sleepQueue c) (a.sleepers c)
  apart : ∀ c, ∀ t ∈ a.sleepers c, ∀ q, t ∉ a.runs q

end Scheduler

namespace Machine

/-- A call that is about to take the lock knows where a sleeping or a queued task is, and the
stores of other code spare tasks that sleep or are queued. -/
def Meets (m : Machine) : SchedEvent → Prop
  | .enqueue _ task _ _ _ => m.sched.Awake task
  | .wake thread _ _ => ∀ call, m.calls thread = some call →
      m.sched.state call.task = .sleeping → m.sched.cpuId call.task = call.cpu
  | .remove thread => ∀ call, m.calls thread = some call →
      m.sched.isQueued call.task = true → m.sched.cpuId call.task = call.cpu
  | .removeCurrent cpu =>
    m.sched.isQueued (m.current cpu) = true → m.sched.cpuId (m.current cpu) = cpu
  | .sleep cpu _ _ =>
    m.sched.Awake (m.current cpu) ∧ m.sched.cpuId (m.current cpu) = cpu
  | .setCpu _ task => m.sched.isQueued task = false ∧ m.sched.Awake task
  | .setState task state => state = .blocked → m.sched.Awake task
  | .setPriority task _ => m.sched.isQueued task = false
  | _ => True

/-- The scheduler before the first task is queued. -/
structure Initial (m : Machine) : Prop where
  queues : ∀ q, m.sched.queues q = .empty
  activeQueues : ∀ c, m.sched.activeQueues c = 0
  totalTasks : ∀ c, m.sched.totalTasks c = 0
  sleepQueue : ∀ c, m.sched.sleepQueue c = 0
  isQueued : ∀ t, m.sched.isQueued t = false
  calls : ∀ thread, m.calls thread = none

end Machine

variable {a : Queues}

namespace Rep

variable {s : Scheduler} {t : Nat}

lemma not_mem_sleepers (h : Rep s a) (ht : s.Awake t) (c : Nat) : t ∉ a.sleepers c :=
  ht c _ (h.chain c)

lemma wellFormed (h : Rep s a) : s.WellFormed a where
  linked c p _ := h.held (c, p)
  active c p _ := h.active c p
  total := h.total
  queued t := by
    constructor
    · intro hqueued
      refine ⟨(s.cpuId t, level (s.priority t)), ?_, ?_⟩
      · exact ⟨level_lt _, (h.queued t _).mpr ⟨hqueued, rfl⟩⟩
      · rintro q ⟨-, hmem⟩
        exact h.home_of_mem hmem
    · rintro ⟨q, ⟨-, hmem⟩, -⟩
      exact h.isQueued_of_mem hmem
  once _ _ _ ht := h.queue_eq ht
  sleeping := h.chain
  apart _ _ hx := h.not_queued_of_asleep hx

lemma setCpu (h : Rep s a) (hoff : s.isQueued t = false) (hawake : ∀ c, t ∉ a.sleepers c)
    (cpu : Nat) : Rep { s with cpuId := update s.cpuId t cpu } a := by
  refine { h with queued := fun x q => ?_, asleep := fun c x hx => ?_ }
  · rw [h.queued x q]
    dsimp only
    by_cases hx : x = t
    · simp [hx, hoff]
    · rw [update_of_ne hx]
  · have hxt : x ≠ t := by
      rintro rfl
      exact hawake c hx
    dsimp only
    rw [update_of_ne hxt]
    exact h.asleep c x hx

lemma setPriority (h : Rep s a) (hoff : s.isQueued t = false) (prio : Nat) :
    Rep { s with priority := update s.priority t prio } a := by
  refine { h with queued := fun x q => ?_ }
  rw [h.queued x q]
  dsimp only
  by_cases hx : x = t
  · simp [hx, hoff]
  · rw [update_of_ne hx]

end Rep

namespace Machine

variable {maxCpus : Nat} {m m' : Machine} {e : SchedEvent}

/-- The pointers hold some lists, and no call is about nothing. -/
structure Inv (m : Machine) : Prop where
  rep : ∃ a, Rep m.sched a
  task : ∀ thread call, m.calls thread = some call → call.task ≠ 0

lemma Initial.rep (h : m.Initial) : Rep m.sched ⟨fun _ => [], fun _ => []⟩ := by
  constructor
  case held =>
    intro q
    rw [h.queues q]
    exact Links.held_empty _
  case above => exact fun _ _ _ => rfl
  case active =>
    intro c p
    simp [h.activeQueues c]
  case total =>
    intro c
    simp [h.totalTasks c]
  case queued =>
    intro t q
    simp [h.isQueued t]
  case chain => exact h.sleepQueue
  case asleep =>
    rintro c t ⟨⟩

lemma Initial.inv (h : m.Initial) : m.Inv := by
  refine ⟨⟨_, h.rep⟩, fun thread call hcall => ?_⟩
  rw [h.calls thread] at hcall
  cases hcall

lemma Inv.forget (hm : m.Inv) (thread thread' : Nat) (call : Call)
    (hcall : update m.calls thread none thread' = some call) : call.task ≠ 0 := by
  rw [update_apply] at hcall
  split_ifs at hcall
  exact hm.task thread' call hcall

lemma Inv.step (hm : m.Inv) (hcond : m.Meets e) (hstep : m.step maxCpus e = some m') : m'.Inv := by
  obtain ⟨a, h⟩ := hm.rep
  unfold Machine.step at hstep
  cases e <;> dsimp only at hstep <;> try cases hstep
  case enqueue cpu task prio affinity now =>
    split_ifs at hstep with hgo
    · cases hstep
      exact hm
    · cases hstep
      refine ⟨?_, hm.task⟩
      cases hqueued : m.sched.isQueued task with
      | true =>
        refine ⟨a, ?_⟩
        rwa [Scheduler.enqueueLocked, if_pos hqueued]
      | false =>
        exact ⟨_, h.enqueue (not_or.mp hgo).2 hqueued (h.not_mem_sleepers hcond) _ _⟩
  case loadCpu thread task =>
    obtain ⟨hfree, ⟨⟩⟩ := then_of_ite hstep
    refine ⟨⟨a, h⟩, fun thread' call hcall => ?_⟩
    dsimp only at hcall
    rw [update_apply] at hcall
    split_ifs at hcall
    · cases hcall
      exact hfree.1
    · exact hm.task thread' call hcall
  case wake thread rounds now =>
    obtain ⟨call, hcall, hwake⟩ := bind_eq_some_iff.mp hstep
    obtain ⟨sched, hsched, rfl⟩ := map_eq_some_iff.mp hwake
    exact ⟨h.wakeLocked (hm.task thread call hcall) (hcond call hcall) hsched, hm.forget thread⟩
  case remove thread =>
    obtain ⟨call, hcall, rfl⟩ := map_eq_some_iff.mp hstep
    refine ⟨?_, hm.forget thread⟩
    split
    · exact ⟨a, h⟩
    · obtain ⟨a', h', -⟩ := h.removeLocked (hcond call hcall)
      exact ⟨a', h'⟩
  case removeCurrent cpu =>
    split at hstep
    · cases hstep
      exact hm
    · cases hstep
      obtain ⟨a', h', -⟩ := h.removeLocked hcond
      exact ⟨⟨a', h'⟩, hm.task⟩
  case sleep cpu ticks now =>
    split_ifs at hstep with hcurr
    · cases hstep
      exact ⟨h.sleepLocked hcurr.1 (h.not_mem_sleepers hcond.1) hcond.2 ticks now, hm.task⟩
    · cases hstep
      exact hm
  case pick cpu now =>
    split at hstep
    · cases hstep
      exact hm
    · cases hstep
      exact ⟨h.pickLocked now, hm.task⟩
  case steal cpu victim =>
    exact ⟨h.stealLocked victim, hm.task⟩
  case scan cpu rounds now clock =>
    split at hstep
    · cases hstep
      exact hm
    · obtain ⟨sched, hsched, rfl⟩ := map_eq_some_iff.mp hstep
      rw [(h.chain cpu).head_eq] at hsched
      exact ⟨h.scanLocked (List.nil_append _).symm hsched, hm.task⟩
  case setCpu cpu task =>
    exact ⟨⟨a, h.setCpu hcond.1 (h.not_mem_sleepers hcond.2) cpu⟩, hm.task⟩
  case setState task state =>
    refine ⟨⟨a, h.setState task state fun hblk => ?_⟩, hm.task⟩
    exact h.not_mem_sleepers (hcond hblk)
  case setPriority task prio =>
    exact ⟨⟨a, h.setPriority hcond prio⟩, hm.task⟩
  case setCurrent cpu task =>
    exact ⟨⟨a, h⟩, hm.task⟩

/-- The queues are well-formed in every state that is reached while calls find their tasks. -/
theorem wellFormed_of_run {events : List SchedEvent} (hinit : m.Initial)
    (run : Run (fun m e m' => m.Meets e ∧ m.step maxCpus e = some m') m events m') :
    ∃ a, m'.sched.WellFormed a := by
  have hI : m'.Inv := run.invariant (fun _ _ _ h hstep => h.step hstep.1 hstep.2) hinit.inv
  obtain ⟨a, h⟩ := hI.rep
  exact ⟨a, h.wellFormed⟩

/-- Nothing is queued yet and no task is bound to a CPU; task 8 is the idle task of CPU 0. -/
def boot : Machine where
  sched :=
    { state := fun _ => .ready
      cpuId := fun _ => 0
      priority := fun _ => 1
      affinity := fun _ => -1
      wakeTick := fun _ => 0
      vruntime := fun _ => 0
      lastQueued := fun _ => 0
      isQueued := fun _ => false
      rq := fun _ => ⟨0, 0⟩
      sleepNext := fun _ => 0
      queues := fun _ => .empty
      activeQueues := fun _ => 0
      sleepQueue := fun _ => 0
      totalTasks := fun _ => 0
      minVruntime := fun _ => 0 }
  pid task := if task = 8 then 0 else task
  current := fun _ => 0
  calls := fun _ => none

lemma boot_initial : boot.Initial :=
  ⟨fun _ => rfl, fun _ => rfl, fun _ => rfl, fun _ => rfl, fun _ => rfl, fun _ => rfl⟩

/-- Task 1 is created on CPU 0, is chosen there and goes to sleep. -/
def toSleep : List SchedEvent :=
  [.enqueue 0 1 1 (-1) 0, .pick 0 0, .setCpu 0 1, .setState 1 .running, .setCurrent 0 1,
    .sleep 0 250 0, .setCurrent 0 8]

lemma awake_of_empty {s : Scheduler} (hempty : ∀ c, s.sleepQueue c = 0) (task : Nat) :
    s.Awake task := by
  intro c l hchain
  rw [hchain.eq_nil (hempty c)]
  exact List.not_mem_nil

/-- A sleeping task is woken before its time. -/
theorem wokenSleeper_wellFormed :
    ∃ m, Run (fun m e m' => m.Meets e ∧ m.step 32 e = some m') boot
        (toSleep ++ [.loadCpu 7 1, .wake 7 1 10]) m ∧
      m.sched.isQueued 1 = true ∧ ∃ a, m.sched.WellFormed a := by
  have hrun : ∃ m, Run (fun m e m' => m.Meets e ∧ m.step 32 e = some m') boot
      (toSleep ++ [.loadCpu 7 1, .wake 7 1 10]) m ∧ m.sched.isQueued 1 = true := by
    refine ⟨_, .cons ⟨awake_of_empty (fun _ => rfl) 1, rfl⟩ (.cons ⟨trivial, rfl⟩ (.cons
      ⟨⟨rfl, awake_of_empty (fun _ => rfl) 1⟩, rfl⟩ (.cons ⟨fun h => ?_, rfl⟩ (.cons
      ⟨trivial, rfl⟩ (.cons ⟨⟨awake_of_empty (fun _ => rfl) _, rfl⟩, rfl⟩ (.cons ⟨trivial, rfl⟩
      (.cons ⟨trivial, rfl⟩ (.cons ⟨?_, rfl⟩ (.nil _))))))))), ?_⟩
    · cases h
    · rintro call hcall -
      cases hcall
      rfl
    · rfl
  obtain ⟨m, run, hqueued⟩ := hrun
  exact ⟨m, run, hqueued, wellFormed_of_run boot_initial run⟩

/-- The wake-up has read CPU 0; the task wakes up there, is stolen and sleeps on CPU 1. -/
theorem lateWake_queues_sleeper :
    ∃ events m, Run (fun m e m' => m.step 32 e = some m') boot events m ∧
      ¬∃ a, m.sched.WellFormed a := by
  refine ⟨toSleep ++ [.loadCpu 7 1, .enqueue 0 2 1 (-1) 100, .scan 0 1 250 fun _ => 250, .steal 1 0,
    .setCpu 1 1, .setState 1 .running, .setCurrent 1 1, .sleep 1 250 251, .wake 7 1 252], ?_⟩
  refine Run.exists_of_exec (P := fun m => m.sched.isQueued 1 = true ∧
    Chain m.sched.sleepNext (m.sched.sleepQueue 1) [1]) (fun _ _ _ h => h) (by decide +kernel) ?_
  rintro m - ⟨hqueued, hchain⟩ ⟨a, h⟩
  obtain ⟨q, ⟨-, hmem⟩, -⟩ := (h.queued 1).mp hqueued
  have hsleeps : 1 ∈ a.sleepers 1 := by
    rw [(h.sleeping 1).unique hchain]
    exact List.mem_singleton_self 1
  exact h.apart 1 1 hsleeps q hmem

end Machine

end Singularity.Process
