import Singularity.Process.RunQueues

/-!
# Context switches on many CPUs

`schedule` reads and writes cells of its own CPU and of others without a lock. Each access to
memory that another CPU may use at the same time is a step of its own, and so is each
lock-protected section. Queues are taken as the lists that stand in them: a task that is flagged
as queued is in the queue of the CPU in its `cpu_id`, and a task is linked into at most one sleep
queue and one wait queue. The invariant says where a task can be: in a run queue, in a pending
slot or in the hands of a CPU, and never in two of these places.
-/

namespace Singularity.Process

open Foundation Function Option

/-- Where a CPU is in `schedule` and the functions around it. -/
inductive Stage (n : Nat) where
  /-- The code of the task. -/
  | running
  /-- The task has blocked, gone to sleep or exited, and is about to call `schedule`. -/
  | parked
  /-- In `process_exit`, before `sched_remove`. -/
  | exiting
  /-- `curr->state = PROCESS_READY`. -/
  | preempting
  /-- `pending_task = curr`. -/
  | displacing
  /-- `sched_pick_next`. -/
  | picking
  /-- The test for a dead task. -/
  | picked (next : Nat)
  /-- The read of `current_process[i]`. -/
  | checkingCurrent (next i : Nat)
  /-- The read of `switching_task` of CPU `i`. -/
  | checkingSwitching (next i : Nat)
  /-- The task is active elsewhere and is queued again. -/
  | rejecting (next : Nat)
  /-- `next->cpu_id = cpu_id`. -/
  | assigning (next : Nat)
  /-- `next->state = PROCESS_RUNNING`. -/
  | starting (next : Nat)
  /-- `switching_task = curr`. -/
  | leaving (next : Nat)
  /-- `current_process[cpu_id] = next`. -/
  | entering (next : Nat)
  /-- `switch_to_task`. -/
  | switching
  /-- Behind `switch_to_task`, with the `cpu_id` that was read before it. -/
  | resumed (cpu : Fin n)
  /-- `kthread_starter`. -/
  | starter
  /-- `check_pending_task`, and its two steps for a task that was pending. -/
  | finishing
  | returning (pending : Nat)
  | requeueing (pending : Nat)
  deriving DecidableEq

/-- What does not change: the idle tasks, and the number and the affinity of each task. -/
structure Tasking (n : Nat) where
  idle : Fin n → Nat
  pid : Nat → Nat
  affinity : Nat → Int
  idle_injective : Injective idle
  pid_idle : ∀ c, pid (idle c) = 0

/-- The fields of tasks and the cells of CPUs. A task that is not created yet is dead. -/
structure Kernel (n : Nat) where
  state : Nat → ProcessState
  cpuId : Nat → Nat
  isQueued : Nat → Bool
  sleepsOn : Nat → Option Nat
  waitsOn : Nat → Option Nat
  /-- The CPU on which the task has left `schedule`; a new task starts in `kthread_starter`. -/
  saved : Nat → Option (Fin n)
  current : Fin n → Nat
  pending : Fin n → Option Nat
  switching : Fin n → Option Nat
  /-- The task on whose stack the CPU executes. -/
  onStack : Fin n → Nat
  pc : Fin n → Stage n
  calls : Nat → Option Call

namespace Kernel

variable {n : Nat}

def goto (k : Kernel n) (c : Fin n) (pc : Stage n) : Kernel n :=
  { k with pc := update k.pc c pc }

def setState (k : Kernel n) (task : Nat) (state : ProcessState) : Kernel n :=
  { k with state := update k.state task state }

def gone (k : Kernel n) (task : Nat) : Bool :=
  decide (k.state task = .zombie) || decide (k.state task = .dead)

/-- The section of `sched_enqueue`. -/
def enqueue (k : Kernel n) (cpu task : Nat) : Kernel n :=
  if k.isQueued task then k
  else
    { k with
      isQueued := update k.isQueued task true
      cpuId := update k.cpuId task cpu }

section
variable (k : Kernel n) (cpu task : Nat)

@[simp] lemma enqueue_state : (k.enqueue cpu task).state = k.state := by
  unfold enqueue
  split <;> rfl

@[simp] lemma enqueue_pc : (k.enqueue cpu task).pc = k.pc := by
  unfold enqueue
  split <;> rfl

@[simp] lemma enqueue_current : (k.enqueue cpu task).current = k.current := by
  unfold enqueue
  split <;> rfl

@[simp] lemma enqueue_pending : (k.enqueue cpu task).pending = k.pending := by
  unfold enqueue
  split <;> rfl

@[simp] lemma enqueue_switching : (k.enqueue cpu task).switching = k.switching := by
  unfold enqueue
  split <;> rfl

@[simp] lemma enqueue_onStack : (k.enqueue cpu task).onStack = k.onStack := by
  unfold enqueue
  split <;> rfl

@[simp] lemma enqueue_isQueued : (k.enqueue cpu task).isQueued = update k.isQueued task true := by
  unfold enqueue
  split_ifs with hqueued
  · rw [← hqueued, update_eq_self]
  · rfl

end

/-- The section of `sched_remove`. -/
def remove (k : Kernel n) (task : Nat) : Kernel n :=
  { k with isQueued := update k.isQueued task false }

/-- The section of `sched_wake_task`. -/
def wake (k : Kernel n) (targetCpu task : Nat) : Kernel n :=
  if k.state task = .sleeping then
    let k : Kernel n := if k.sleepsOn task = some targetCpu then
        { k with sleepsOn := update k.sleepsOn task none }
      else k
    (k.setState task .ready).enqueue targetCpu task
  else if k.state task = .blocked then (k.setState task .ready).enqueue targetCpu task
  else k

section
variable (k : Kernel n) (cpu task : Nat)

@[simp] lemma wake_pc : (k.wake cpu task).pc = k.pc := by
  unfold wake
  split <;> [split; split] <;> simp [setState]

@[simp] lemma wake_current : (k.wake cpu task).current = k.current := by
  unfold wake
  split <;> [split; split] <;> simp [setState]

@[simp] lemma wake_switching : (k.wake cpu task).switching = k.switching := by
  unfold wake
  split <;> [split; split] <;> simp [setState]

@[simp] lemma wake_onStack : (k.wake cpu task).onStack = k.onStack := by
  unfold wake
  split <;> [split; split] <;> simp [setState]

end

/-- The next step of a CPU inside `schedule` where it has no choice. -/
def advance (cfg : Tasking n) (k : Kernel n) (c : Fin n) : Option (Kernel n) :=
  match k.pc c with
  | .running | .parked | .picking => none
  | .exiting =>
    some { (k.remove (k.current c)).goto c .parked with
      pending := update k.pending c none }
  | .preempting => some ((k.setState (k.current c) .ready).goto c .displacing)
  | .displacing =>
    let k : Kernel n := match k.pending c with
      | some old => if k.state old = .ready then k.enqueue c old else k
      | none => k
    some { k.goto c .picking with
      pending := update k.pending c (some (k.current c)) }
  | .picked next =>
    if k.gone next then some (k.goto c .picking) else some (k.goto c (.checkingCurrent next 0))
  | .checkingCurrent next i =>
    if h : i < n then
      if i = c then some (k.goto c (.checkingCurrent next (i + 1)))
      else if k.current ⟨i, h⟩ = next then some (k.goto c (.rejecting next))
      else some (k.goto c (.checkingSwitching next i))
    else some (k.goto c (.assigning next))
  | .checkingSwitching next i =>
    if h : i < n then
      if k.switching ⟨i, h⟩ = some next then some (k.goto c (.rejecting next))
      else some (k.goto c (.checkingCurrent next (i + 1)))
    else none
  | .rejecting next => some ((k.enqueue c next).goto c (.assigning (cfg.idle c)))
  | .assigning next =>
    some { k.goto c (.starting next) with cpuId := update k.cpuId next c }
  | .starting next =>
    some ((k.setState next .running).goto c
      (if next = k.current c then .finishing else .leaving next))
  | .leaving next =>
    some { k.goto c (.entering next) with
      switching := update k.switching c (some (k.current c)) }
  | .entering next =>
    some { k.goto c .switching with current := update k.current c next }
  | .switching =>
    some { k.goto c (match k.saved (k.current c) with
        | none => .starter
        | some cpu => .resumed cpu) with
      saved := update k.saved (k.onStack c) (some c)
      onStack := update k.onStack c (k.current c) }
  | .resumed cpu =>
    some { k.goto c .finishing with switching := update k.switching cpu none }
  | .starter =>
    some { k.goto c .finishing with switching := update k.switching c none }
  | .finishing =>
    some { k.goto c (match k.pending c with
        | none => .running
        | some pending => .returning pending) with
      pending := update k.pending c none }
  | .returning pending =>
    if k.state pending = .ready then some (k.goto c (.requeueing pending))
    else some (k.goto c .running)
  | .requeueing pending => some ((k.enqueue c pending).goto c .running)

end Kernel

inductive KernelEvent (n : Nat) where
  /-- `schedule` is called, by the task or by the timer interrupt. -/
  | enter (c : Fin n)
  | advance (c : Fin n)
  | pick (c : Fin n) (task : Nat)
  | steal (c : Fin n) (victim task : Nat)
  | pickNone (c : Fin n)
  | block (c : Fin n) (queue : Nat)
  | sleep (c : Fin n)
  /-- One task of the sleep scan of `process_tick`. -/
  | scan (c : Fin n) (task : Nat)
  | pop (task : Nat)
  | loadCpu (thread task : Nat)
  | wake (thread : Nat)

namespace Kernel

variable {n : Nat}

/-- One access or one section of the scheduler. -/
def step (cfg : Tasking n) (k : Kernel n) : KernelEvent n → Option (Kernel n)
  | .enter c =>
    if k.pc c = .running ∨ k.pc c = .parked then
      if k.state (k.current c) = .running ∧ cfg.pid (k.current c) ≠ 0 then
        some (k.goto c .preempting)
      else some { k.goto c .picking with pending := update k.pending c none }
    else none
  | .advance c => k.advance cfg c
  | .pick c task =>
    if k.pc c = .picking ∧ k.isQueued task = true ∧ k.cpuId task = c then
      some ((k.remove task).goto c (.picked task))
    else none
  | .steal c victim task =>
    if k.pc c = .picking ∧ victim ≠ c ∧ k.isQueued task = true ∧ k.cpuId task = victim ∧
        (cfg.affinity task = -1 ∨ cfg.affinity task = c) then
      some ((k.remove task).goto c (.picked task))
    else none
  | .pickNone c =>
    if k.pc c = .picking then some (k.goto c (.assigning (cfg.idle c))) else none
  | .block c queue =>
    if k.pc c = .running ∧ cfg.pid (k.onStack c) ≠ 0 then
      some { (k.setState (k.onStack c) .blocked).goto c .parked with
        waitsOn := update k.waitsOn (k.onStack c) (some queue) }
    else none
  | .sleep c =>
    if k.pc c = .running ∧ cfg.pid (k.current c) ≠ 0 then
      some { ((k.setState (k.current c) .sleeping).remove (k.current c)).goto c .parked with
        sleepsOn := update k.sleepsOn (k.current c) (some c)
        pending := update k.pending c none }
    else none
  | .scan c task =>
    if k.sleepsOn task = some (c : Nat) then
      some (({ k with sleepsOn := update k.sleepsOn task none }.setState
        task .ready).enqueue c task)
    else none
  | .pop task => some { k with waitsOn := update k.waitsOn task none }
  | .loadCpu thread task =>
    if k.calls thread = none then
      some { k with calls := update k.calls thread (some ⟨task, k.cpuId task⟩) }
    else none
  | .wake thread =>
    (k.calls thread).map fun call =>
      { k.wake call.cpu call.task with calls := update k.calls thread none }

/-- The places from which a CPU may take a task to run it. -/
inductive Place (n : Nat) where
  | queue
  | pending (c : Fin n)
  | hand (c : Fin n)
  deriving DecidableEq

end Kernel

namespace Stage

variable {n : Nat}

/-- The task that a CPU has taken from a queue or a slot and not yet given back or started. -/
def held : Stage n → Option Nat
  | .picked task | .checkingCurrent task _ | .checkingSwitching task _ | .rejecting task
  | .assigning task | .starting task | .leaving task | .entering task
  | .returning task | .requeueing task => some task
  | _ => none

/-- The part of these that came from a queue or a slot. -/
def chosen : Stage n → Option Nat
  | .picked task | .checkingCurrent task _ | .checkingSwitching task _ | .rejecting task
  | .returning task | .requeueing task => some task
  | _ => none

/-- The part of these that has got the CPU in its `cpu_id`. -/
def assigned : Stage n → Option Nat
  | .starting task | .leaving task | .entering task => some task
  | _ => none

/-- The current task of the CPU runs or is about to. -/
def live : Stage n → Bool
  | .running | .exiting | .preempting | .displacing | .switching | .resumed _ | .starter
  | .finishing | .returning _ | .requeueing _ => true
  | _ => false

/-- The pending slot of the CPU is empty. -/
def early : Stage n → Bool
  | .running | .parked | .exiting | .preempting | .displacing | .returning _ | .requeueing _ =>
    true
  | _ => false

/-- The CPU has seen that the task is not the current one of CPU `j`. -/
def Passed (task : Nat) (j : Fin n) : Stage n → Prop
  | .checkingCurrent next i => next = task ∧ j < i
  | .checkingSwitching next i => next = task ∧ j ≤ i
  | .assigning next | .starting next | .leaving next | .entering next => next = task
  | _ => False

variable {stage : Stage n} {t : Nat} {j : Fin n}

lemma held_of_assigned (h : stage.assigned = some t) : stage.held = some t := by
  cases stage <;> first | exact h | cases h

lemma held_of_passed (h : stage.Passed t j) : stage.held = some t := by
  cases stage <;> first | exact congrArg some h | exact congrArg some h.1 | cases h

lemma assigned_of_live (h : stage.live = true) : stage.assigned = none := by
  cases stage <;> first | rfl | cases h

lemma not_passed_of_live (h : stage.live = true) : ¬stage.Passed t j := by
  cases stage <;> first | exact fun hj => hj | cases h

lemma held_of_chosen (h : stage.chosen = some t) : stage.held = some t := by
  cases stage <;> first | exact h | cases h

lemma early_of_work (h : stage.live = false ∧ stage ≠ .parked) : stage.early = false := by
  cases stage <;> first | rfl | exact absurd rfl h.2 | cases h.1

end Stage

namespace Kernel

variable {n : Nat} {cfg : Tasking n} {k' : Kernel n} {c : Fin n} {p : Place n}

def At (k : Kernel n) (task : Nat) : Place n → Prop
  | .queue => k.isQueued task = true
  | .pending c => k.pending c = some task
  | .hand c => (k.pc c).held = some task

/-- The task is nowhere to be taken from, and neither blocked nor asleep. -/
structure Free (k : Kernel n) (task : Nat) : Prop where
  off : ∀ p, ¬k.At task p
  blocked : k.state task ≠ .blocked
  sleeping : k.state task ≠ .sleeping
  dead : k.state task ≠ .dead
  awake : k.sleepsOn task = none

/-- Where tasks and CPUs are. -/
structure Inv (cfg : Tasking n) (k : Kernel n) : Prop where
  unique : ∀ t p p', k.At t p → k.At t p' → p = p'
  live : ∀ c, (k.pc c).live = true → k.Free (k.current c) ∧ k.cpuId (k.current c) = c
  off : ∀ t, k.state t = .blocked ∨ k.state t = .sleeping ∨ k.state t = .dead → ∀ p, ¬k.At t p
  asleep : ∀ t c, k.sleepsOn t = some c → (∀ p, ¬k.At t p) ∧ k.cpuId t = c ∧
    (k.state t = .sleeping ∨ k.state t = .zombie)
  sleeping : ∀ t, k.state t = .sleeping → k.sleepsOn t = some (k.cpuId t)
  idle : ∀ c, k.state (cfg.idle c) = .running
  idle_hand : ∀ c p, k.At (cfg.idle c) p → p = .hand c
  idle_current : ∀ c c', k.current c' = cfg.idle c → c' = c
  chosen : ∀ c t, (k.pc c).chosen = some t → ∀ i, t ≠ cfg.idle i
  assigned : ∀ c t, (k.pc c).assigned = some t → k.cpuId t = c
  preempted : ∀ c, k.pc c = .preempting ∨ k.pc c = .displacing → cfg.pid (k.current c) ≠ 0
  current : Injective k.current
  passed : ∀ c t j, (k.pc c).Passed t j → j ≠ c → k.current j ≠ t
  parked : ∀ c, k.pc c = .parked ∨ k.pc c = .exiting → k.state (k.current c) ≠ .running
  slot : ∀ c, (k.pc c).early = true → k.pending c = none
  stack : ∀ c, k.pc c ≠ .switching → k.onStack c = k.current c

/-- A wake-up that finds the task asleep has read the CPU that the task still has. -/
def Meets (k : Kernel n) : KernelEvent n → Prop
  | .wake thread => ∀ call, k.calls thread = some call →
      k.state call.task = .sleeping → k.cpuId call.task = call.cpu
  | _ => True

namespace Inv

variable {k : Kernel n} {t : Nat} {stage : Stage n}

lemma ne_of_free (hp : k.At t p) (hu : k.Free u) : u ≠ t := by
  rintro rfl
  exact hu.off p hp

lemma awake_of_at (h : k.Inv cfg) (hp : k.At t p) : k.sleepsOn t = none := by
  cases hsleeps : k.sleepsOn t with
  | none => rfl
  | some c => exact absurd hp ((h.asleep t c hsleeps).1 p)

lemma ne_idle (h : k.Inv cfg) (ht : k.state t ≠ .running) (i : Fin n) : t ≠ cfg.idle i := by
  rintro rfl
  exact ht (h.idle i)

end Inv

section
variable {k : Kernel n} {t x : Nat} {stage : Stage n}

/-- What a task must be for it to be put in a place. -/
structure Takes (cfg : Tasking n) (k : Kernel n) (p : Place n) (t : Nat) : Prop where
  free : k.Free t
  away : ∀ c, (k.pc c).live = true → p ≠ .hand c → k.current c ≠ t
  idle : ∀ i, t = cfg.idle i → p = .hand i

/-- The places of one state are those of another, except that a task may be in one more. -/
def Spreads (cfg : Tasking n) (k k' : Kernel n) (p : Place n) : Prop :=
  ∀ t q, k'.At t q → k.At t q ∨ q = p ∧ k.Takes cfg p t

namespace Spreads

variable (hs : k.Spreads cfg k' p)
include hs

section
variable (h : k.Inv cfg)
include h

lemma unique (t : Nat) (q q' : Place n) (hq : k'.At t q) (hq' : k'.At t q') : q = q' := by
  obtain hq | ⟨rfl, htakes⟩ := hs t q hq
  · obtain hq' | ⟨-, htakes⟩ := hs t q' hq'
    · exact h.unique t q q' hq hq'
    · exact absurd hq (htakes.free.off q)
  · obtain hq' | ⟨rfl, -⟩ := hs t q' hq'
    · exact absurd hq' (htakes.free.off q')
    · rfl

lemma off (hst : k.state t = .blocked ∨ k.state t = .sleeping ∨ k.state t = .dead) (q : Place n) :
    ¬k'.At t q := by
  intro hq
  obtain hq | ⟨-, htakes⟩ := hs t q hq
  · exact h.off t hst q hq
  obtain hblk | hsleep | hdead := hst
  · exact htakes.free.blocked hblk
  · exact htakes.free.sleeping hsleep
  · exact htakes.free.dead hdead

lemma asleep (hsleeps : k.sleepsOn t = some cpu) (q : Place n) : ¬k'.At t q := by
  intro hq
  obtain hq | ⟨-, htakes⟩ := hs t q hq
  · exact (h.asleep t cpu hsleeps).1 q hq
  · exact some_ne_none cpu (hsleeps.symm.trans htakes.free.awake)

lemma idle_hand (i : Fin n) (q : Place n) (hq : k'.At (cfg.idle i) q) : q = .hand i := by
  obtain hq | ⟨rfl, htakes⟩ := hs _ q hq
  · exact h.idle_hand i q hq
  · exact htakes.idle i rfl

lemma live (hlive : (k.pc c).live = true) (hc : p ≠ .hand c) (q : Place n) :
    ¬k'.At (k.current c) q := by
  intro hq
  obtain hq | ⟨-, htakes⟩ := hs _ q hq
  · exact (h.live c hlive).1.off q hq
  · exact htakes.away c hlive hc rfl

end

end Spreads

lemma at_goto_hand (c' : Fin n) : (k.goto c stage).At t (.hand c') ↔
    if c' = c then stage.held = some t else k.At t (.hand c') := by
  change (update k.pc c stage c').held = some t ↔ _
  by_cases hc : c' = c
  · rw [if_pos hc, hc, update_self]
  · rw [if_neg hc, update_of_ne hc]
    rfl

lemma forall_goto (P : Fin n → Stage n → Prop) (hc : P c stage)
    (hothers : ∀ c' ≠ c, P c' (k.pc c')) : ∀ c', P c' ((k.goto c stage).pc c') :=
  (forall_update_iff k.pc P).mpr ⟨hc, hothers⟩

section
variable (h : k.Inv cfg)
include h

/-- A CPU moves on: it keeps what it holds, gives it up or takes a task that is nowhere else. -/
lemma Inv.goto (c : Fin n) (stage : Stage n)
    (hheld : ∀ t, stage.held = some t → (k.pc c).held = some t ∨ k.Takes cfg (.hand c) t)
    (hlive : stage.live = true → (k.goto c stage).Free (k.current c) ∧ k.cpuId (k.current c) = c)
    (hchosen : ∀ t, stage.chosen = some t → ∀ i, t ≠ cfg.idle i)
    (hassigned : ∀ t, stage.assigned = some t → k.cpuId t = c)
    (hpreempted : stage = .preempting ∨ stage = .displacing → cfg.pid (k.current c) ≠ 0)
    (hpassed : ∀ t j, stage.Passed t j → j ≠ c → k.current j ≠ t)
    (hpark : stage = .parked ∨ stage = .exiting → k.state (k.current c) ≠ .running)
    (hslot : stage.early = true → k.pending c = none)
    (hstack : stage ≠ .switching → k.onStack c = k.current c) : (k.goto c stage).Inv cfg := by
  have hs : k.Spreads cfg (k.goto c stage) (.hand c) := by
    intro t p hp
    cases p with
    | queue => exact .inl hp
    | pending c' => exact .inl hp
    | hand c' =>
      rw [at_goto_hand] at hp
      split_ifs at hp with hc
      · subst hc
        exact (hheld t hp).imp (fun hp => hp) fun htakes => ⟨rfl, htakes⟩
      · exact .inl hp
  -- the other CPUs are where they were
  have hpcs (P : Fin n → Stage n → Prop) (hc : P c stage) (hothers : ∀ c', P c' (k.pc c')) :
      ∀ c', P c' ((k.goto c stage).pc c') := forall_goto P hc fun c' _ => hothers c'
  refine { h with
    unique := hs.unique h
    live := forall_goto (fun c' s => s.live = true → _ ∧ _) hlive fun c' hc hc' => ?_
    off := fun t hst => hs.off h hst
    asleep := fun t cpu hsleeps => ⟨hs.asleep h hsleeps, (h.asleep t cpu hsleeps).2⟩
    idle_hand := hs.idle_hand h
    chosen := hpcs (fun _ s => ∀ t, s.chosen = some t → ∀ i, t ≠ cfg.idle i) hchosen h.chosen
    assigned := hpcs (fun c s => ∀ t, s.assigned = some t → k.cpuId t = c) hassigned h.assigned
    preempted := hpcs (fun c s => s = .preempting ∨ s = .displacing → _) hpreempted h.preempted
    passed := hpcs (fun c s => ∀ t j, s.Passed t j → j ≠ c → k.current j ≠ t) hpassed h.passed
    parked := hpcs (fun c s => s = .parked ∨ s = .exiting → _) hpark h.parked
    slot := hpcs (fun c s => s.early = true → k.pending c = none) hslot h.slot
    stack := hpcs (fun c s => s ≠ .switching → k.onStack c = k.current c) hstack h.stack }
  obtain ⟨hfree, hcpu⟩ := h.live c' hc'
  refine ⟨{ hfree with off := hs.live h hc' ?_ }, hcpu⟩
  rintro ⟨⟩
  exact hc rfl

/-- A task is put into a run queue. -/
lemma Inv.enqueue (cpu : Nat) (ht : k.Takes cfg .queue t) : (k.enqueue cpu t).Inv cfg := by
  have hoff : ¬k.isQueued t = true := ht.free.off .queue
  rw [Kernel.enqueue, if_neg hoff]
  have hs : k.Spreads cfg { k with
      isQueued := update k.isQueued t true
      cpuId := update k.cpuId t cpu } .queue := by
    intro x p hp
    cases p with
    | queue =>
      by_cases hx : x = t
      · subst hx
        exact .inr ⟨rfl, ht⟩
      · change update k.isQueued t true x = true at hp
        rw [update_of_ne hx] at hp
        exact .inl hp
    | pending c => exact .inl hp
    | hand c => exact .inl hp
  refine { h with
    unique := hs.unique h
    live := fun c hc => ?_
    off := fun x hst => hs.off h hst
    asleep := fun x c hsleeps => ?_
    sleeping := fun x hx => ?_
    idle_hand := hs.idle_hand h
    assigned := fun c x hx => ?_ }
  · obtain ⟨hfree, hcpu⟩ := h.live c hc
    have hne : k.current c ≠ t := ht.away c hc nofun
    exact ⟨{ hfree with off := hs.live h hc nofun }, (update_of_ne hne ..).trans hcpu⟩
  · obtain ⟨-, hcpu, hst⟩ := h.asleep x c hsleeps
    have hne : x ≠ t := by
      rintro rfl
      exact some_ne_none c (hsleeps.symm.trans ht.free.awake)
    exact ⟨hs.asleep h hsleeps, (update_of_ne hne ..).trans hcpu, hst⟩
  · have hne : x ≠ t := by
      rintro rfl
      exact ht.free.sleeping hx
    exact (h.sleeping x hx).trans (congrArg some (update_of_ne hne ..).symm)
  · have hne : x ≠ t := by
      rintro rfl
      exact ht.free.off (.hand c) (Stage.held_of_assigned hx)
    exact (update_of_ne hne ..).trans (h.assigned c x hx)

/-- Queues and slots change, and what stands in them is new in one of them at most. -/
lemma Inv.setPlaces {isQueued : Nat → Bool} {pending : Fin n → Option Nat}
    (hs : k.Spreads cfg { k with isQueued, pending } p) (hp : ∀ c, p ≠ .hand c)
    (hslot : ∀ c, (k.pc c).early = true → pending c = none) :
    { k with isQueued, pending }.Inv cfg :=
  { h with
    unique := hs.unique h
    live := fun c hc => ⟨{ (h.live c hc).1 with off := hs.live h hc (hp c) }, (h.live c hc).2⟩
    off := fun _ hst => hs.off h hst
    asleep := fun x c hsleeps => ⟨hs.asleep h hsleeps, (h.asleep x c hsleeps).2⟩
    idle_hand := hs.idle_hand h
    slot := hslot }

/-- A slot or a queue gives up a task. -/
lemma Inv.shrink {isQueued : Nat → Bool} {pending : Fin n → Option Nat}
    (hqueue : ∀ t, isQueued t = true → k.isQueued t = true)
    (hslot : ∀ c t, pending c = some t → k.pending c = some t) :
    { k with isQueued, pending }.Inv cfg := by
  have hs : k.Spreads cfg { k with isQueued, pending } .queue := by
    intro t p hp
    cases p with
    | queue => exact .inl (hqueue t hp)
    | pending c => exact .inl (hslot c t hp)
    | hand c => exact .inl hp
  refine h.setPlaces hs (by simp) fun c hc => ?_
  cases hp : pending c with
  | none => rfl
  | some t =>
    have hnone := h.slot c hc
    rw [hslot c t hp] at hnone
    cases hnone

/-- A task is taken out of a run queue. -/
lemma Inv.remove (t : Nat) : (k.remove t).Inv cfg := by
  refine h.shrink (fun x hx => ?_) fun _ _ hx => hx
  rw [update_apply] at hx
  split_ifs at hx
  exact hx

lemma Inv.clearPending (c : Fin n) : { k with pending := update k.pending c none }.Inv cfg := by
  refine h.shrink (fun _ hx => hx) fun c' x hx => ?_
  rw [update_apply] at hx
  split_ifs at hx
  exact hx

/-- A task is put into the pending slot of a CPU. -/
lemma Inv.setPending (ht : k.Takes cfg (.pending c) t) (hearly : (k.pc c).early = false) :
    { k with pending := update k.pending c (some t) }.Inv cfg := by
  have hs : k.Spreads cfg { k with pending := update k.pending c (some t) }
      (.pending c) := by
    intro x p hp
    cases p with
    | queue => exact .inl hp
    | pending c' =>
      change update k.pending c (some t) c' = some x at hp
      rw [update_apply] at hp
      split_ifs at hp with hc
      · cases hp
        exact .inr ⟨by rw [hc], ht⟩
      · exact .inl hp
    | hand c' => exact .inl hp
  refine h.setPlaces hs (by simp) fun c' hc' => ?_
  have hc : c' ≠ c := by
    rintro rfl
    rw [hearly] at hc'
    cases hc'
  exact (update_of_ne hc ..).trans (h.slot c' hc')

end

lemma Free.setState (hx : k.Free x) (t : Nat) (state : ProcessState)
    (hst : x = t → state ≠ .blocked ∧ state ≠ .sleeping ∧ state ≠ .dead) :
    (k.setState t state).Free x := by
  by_cases hxt : x = t
  · have hself : (k.setState t state).state x = state := by
      rw [hxt]
      exact update_self ..
    obtain ⟨hblk, hsleep, hdead⟩ := hst hxt
    exact ⟨hx.off, by rwa [hself], by rwa [hself], by rwa [hself], hx.awake⟩
  · have hother : (k.setState t state).state x = k.state x := update_of_ne hxt ..
    exact ⟨hx.off, hother ▸ hx.blocked, hother ▸ hx.sleeping, hother ▸ hx.dead, hx.awake⟩

section
variable (h : k.Inv cfg)
include h

/-- The state of a task is stored. -/
lemma Inv.setState (t : Nat) (state : ProcessState) (hidle : state ≠ .running → ∀ i, t ≠ cfg.idle i)
    (hoff : state = .blocked ∨ state = .dead → (∀ p, ¬k.At t p) ∧ ∀ c, (k.pc c).live = true →
      k.current c ≠ t)
    (hsleep : state ≠ .sleeping) (hawake : state = .zombie ∨ k.sleepsOn t = none)
    (hpark : state = .running → ∀ c, k.pc c = .parked ∨ k.pc c = .exiting → k.current c ≠ t) :
    (k.setState t state).Inv cfg := by
  have htasks (P : Nat → ProcessState → Prop) (ht : P t state)
      (hothers : ∀ x, P x (k.state x)) : ∀ x, P x ((k.setState t state).state x) :=
    (forall_update_iff k.state P).mpr ⟨ht, fun x _ => hothers x⟩
  refine { h with
    live := fun c hc => ?_
    off := htasks (fun x s => s = .blocked ∨ s = .sleeping ∨ s = .dead → ∀ p, ¬k.At x p) ?_ h.off
    asleep := htasks (fun x s => ∀ c, k.sleepsOn x = some c → (∀ p, ¬k.At x p) ∧ k.cpuId x = c ∧
      (s = .sleeping ∨ s = .zombie)) (fun c hsleeps => ?_) h.asleep
    sleeping := htasks (fun x s => s = .sleeping → k.sleepsOn x = some (k.cpuId x))
      (fun heq => absurd heq hsleep) h.sleeping
    idle := fun c => htasks (fun x s => x = cfg.idle c → s = .running) (fun heq => ?_)
      (fun x heq => heq ▸ h.idle c) _ rfl
    parked := fun c hc => htasks (fun x s => k.current c = x → s ≠ .running)
      (fun heq hrun => hpark hrun c hc heq) (fun x heq => heq ▸ h.parked c hc) _ rfl }
  · obtain ⟨hfree, hcpu⟩ := h.live c hc
    refine ⟨?_, hcpu⟩
    refine hfree.setState t state fun hx => ⟨?_, hsleep, ?_⟩
    · exact fun heq => (hoff (.inl heq)).2 c hc hx
    · exact fun heq => (hoff (.inr heq)).2 c hc hx
  · rintro (heq | heq | heq)
    · exact (hoff (.inl heq)).1
    · exact absurd heq hsleep
    · exact (hoff (.inr heq)).1
  · obtain ⟨hat, hcpu, -⟩ := h.asleep t c hsleeps
    refine ⟨hat, hcpu, .inr (hawake.resolve_right fun hnone => ?_)⟩
    exact some_ne_none c (hsleeps.symm.trans hnone)
  · by_contra hrun
    exact hidle hrun c heq

/-- The other fields have no part in the invariant. -/
lemma Inv.setOthers {saved : Nat → Option (Fin n)} {onStack : Fin n → Nat}
    {switching : Fin n → Option Nat} {waitsOn : Nat → Option Nat} {calls : Nat → Option Call}
    (hstack : ∀ c, k.pc c ≠ .switching → onStack c = k.current c) :
    { k with saved, onStack, switching, waitsOn, calls }.Inv cfg :=
  { h with
    live := fun c hc => ⟨{ (h.live c hc).1 with }, (h.live c hc).2⟩
    stack := hstack }

section
variable (hoff : ∀ p, ¬k.At t p) (haway : ∀ c, (k.pc c).live = true → k.current c ≠ t)
  (hidle : ∀ i, t ≠ cfg.idle i)
include hoff haway hidle

/-- A task that is in no place and of no live CPU is put to bed or gets up. -/
lemma Inv.setBed {state : ProcessState} {bed : Option Nat} (hrun : state ≠ .running)
    (hbed : ∀ cpu, bed = some cpu → k.cpuId t = cpu ∧ (state = .sleeping ∨ state = .zombie))
    (hsleep : state = .sleeping → bed = some (k.cpuId t)) :
    { k.setState t state with sleepsOn := update k.sleepsOn t bed }.Inv cfg := by
  have hother {x : Nat} (hx : x ≠ t) : (k.setState t state).state x = k.state x :=
    update_of_ne hx ..
  have htasks (P : Nat → ProcessState → Option Nat → Prop) (ht : P t state bed)
      (hothers : ∀ x, P x (k.state x) (k.sleepsOn x)) :
      ∀ x, P x ((k.setState t state).state x) (update k.sleepsOn t bed x) :=
    forall_update₂ P ht fun x _ => hothers x
  refine { h with
    live := fun c hc => ?_
    off := htasks (fun x s _ => s = .blocked ∨ s = .sleeping ∨ s = .dead → ∀ p, ¬k.At x p)
      (fun _ => hoff) h.off
    asleep := htasks (fun x s b => ∀ c, b = some c → (∀ p, ¬k.At x p) ∧ k.cpuId x = c ∧
      (s = .sleeping ∨ s = .zombie)) (fun c hc => ⟨hoff, hbed c hc⟩) h.asleep
    sleeping := htasks (fun x s b => s = .sleeping → b = some (k.cpuId x)) hsleep h.sleeping
    idle := fun c => (hother (hidle c).symm).trans (h.idle c)
    parked := fun c hc => htasks (fun x s _ => k.state x ≠ .running → s ≠ .running)
      (fun _ => hrun) (fun _ hx => hx) (k.current c) (h.parked c hc) }
  obtain ⟨hfree, hcpu⟩ := h.live c hc
  have hne := haway c hc
  have hfree' := hfree.setState t state fun heq => absurd heq hne
  exact ⟨⟨hfree.off, hfree'.blocked, hfree'.sleeping, hfree'.dead,
    (update_of_ne hne ..).trans hfree.awake⟩, hcpu⟩

/-- A task that is blocked or asleep becomes ready and can be queued. -/
lemma Inv.rouse (cpu : Nat) :
    (({ k with sleepsOn := update k.sleepsOn t none }.setState t .ready).enqueue
      cpu t).Inv cfg := by
  have hready : { k.setState t .ready with sleepsOn := update k.sleepsOn t none }.Inv cfg :=
    h.setBed hoff haway hidle nofun nofun nofun
  refine hready.enqueue cpu ⟨⟨hoff, ?_, ?_, ?_, update_self ..⟩, fun c hc _ => haway c hc,
    fun i heq => absurd heq (hidle i)⟩ <;>
    simp [Kernel.setState]

end

/-- A CPU claims the task that it holds. -/
lemma Inv.assign (hheld : k.At t (.hand c)) : { k with cpuId := update k.cpuId t c }.Inv cfg := by
  refine { h with
    live := fun c' hc' => ?_
    asleep := fun x c' hsleeps => ?_
    sleeping := fun x hx => ?_
    assigned := fun c' x hx => ?_ }
  · obtain ⟨hfree, hcpu⟩ := h.live c' hc'
    exact ⟨{ hfree with }, (update_of_ne (Inv.ne_of_free hheld hfree) ..).trans hcpu⟩
  · obtain ⟨hoff, hcpu, hst⟩ := h.asleep x c' hsleeps
    have hne : x ≠ t := by
      rintro rfl
      exact hoff _ hheld
    exact ⟨hoff, (update_of_ne hne ..).trans hcpu, hst⟩
  · have hne : x ≠ t := by
      rintro rfl
      exact h.off x (.inr (.inl hx)) _ hheld
    exact (h.sleeping x hx).trans (congrArg some (update_of_ne hne ..).symm)
  · dsimp only
    by_cases hxt : x = t
    · subst hxt
      have hplace := h.unique x (.hand c') (.hand c) (Stage.held_of_assigned hx) hheld
      rw [update_self, Place.hand.inj hplace]
    · rw [update_of_ne hxt]
      exact h.assigned c' x hx

/-- A place from which a task is taken leaves it free. -/
lemma Inv.free_of_at (hp : k.At t p) (hst : k'.state = k.state)
    (hsleeps : k'.sleepsOn = k.sleepsOn) (hat : ∀ q, k'.At t q → k.At t q ∧ q ≠ p) : k'.Free t := by
  refine ⟨fun q hq => ?_, ?_, ?_, ?_, ?_⟩
  · obtain ⟨hq, hne⟩ := hat q hq
    exact hne (h.unique t q p hq hp)
  · rw [hst]
    exact fun heq => h.off t (.inl heq) p hp
  · rw [hst]
    exact fun heq => h.off t (.inr (.inl heq)) p hp
  · rw [hst]
    exact fun heq => h.off t (.inr (.inr heq)) p hp
  · rw [hsleeps]
    exact h.awake_of_at hp

lemma Inv.ne_current (hp : k.At t p) (hlive : (k.pc c).live = true) : k.current c ≠ t :=
  Inv.ne_of_free hp (h.live c hlive).1

lemma Inv.free_of_remove (hq : k.isQueued t = true) : (k.remove t).Free t := by
  refine h.free_of_at (p := .queue) hq rfl rfl fun q hq' => ?_
  cases q with
  | queue =>
    change update k.isQueued t false t = true at hq'
    rw [update_self] at hq'
    cases hq'
  | pending c => exact ⟨hq', nofun⟩
  | hand c => exact ⟨hq', nofun⟩

lemma Inv.free_of_clear (hp : k.pending c = some t) :
    { k with pending := update k.pending c none }.Free t := by
  refine h.free_of_at (p := .pending c) hp rfl rfl fun q hq => ?_
  cases q with
  | queue => exact ⟨hq, nofun⟩
  | pending c' =>
    change update k.pending c none c' = some t at hq
    have hc : c' ≠ c := by
      rintro rfl
      rw [update_self] at hq
      cases hq
    rw [update_of_ne hc] at hq
    exact ⟨hq, fun heq => hc (Place.pending.inj heq)⟩
  | hand c' => exact ⟨hq, nofun⟩

lemma Inv.free_of_goto (hheld : (k.pc c).held = some t)
    (hnew : stage.held ≠ some t) : (k.goto c stage).Free t := by
  refine h.free_of_at (p := .hand c) hheld rfl rfl fun q hq => ?_
  cases q with
  | queue => exact ⟨hq, nofun⟩
  | pending c' => exact ⟨hq, nofun⟩
  | hand c' =>
    rw [at_goto_hand] at hq
    split_ifs at hq with hc
    · exact absurd hq hnew
    · exact ⟨hq, fun heq => hc (Place.hand.inj heq)⟩

end

lemma Free.goto (hx : k.Free x) (hheld : stage.held ≠ some x) : (k.goto c stage).Free x := by
  refine { hx with off := fun p hp => ?_ }
  cases p with
  | queue => exact hx.off .queue hp
  | pending c' => exact hx.off (.pending c') hp
  | hand c' =>
    rw [at_goto_hand] at hp
    split at hp
    · exact hheld hp
    · exact hx.off (.hand c') hp

section
variable (h : k.Inv cfg) (c : Fin n) (stage : Stage n)
  (hheld : ∀ t, stage.held = some t → (k.pc c).held = some t ∨ k.Takes cfg (.hand c) t)
  (hchosen : ∀ t, stage.chosen = some t → ∀ i, t ≠ cfg.idle i)
include h hheld hchosen

/-- A CPU moves on where its current task is not the point. -/
lemma Inv.goto_work (hpc : k.pc c ≠ .switching) (hwork : stage.live = false ∧ stage ≠ .parked)
    (hassigned : ∀ t, stage.assigned = some t → k.cpuId t = c)
    (hpassed : ∀ t j, stage.Passed t j → j ≠ c → k.current j ≠ t) : (k.goto c stage).Inv cfg := by
  refine h.goto c stage hheld ?_ hchosen hassigned ?_ hpassed ?_ ?_ fun _ => h.stack c hpc
  · intro hlive
    rw [hwork.1] at hlive
    cases hlive
  · rintro (rfl | rfl) <;> cases hwork.1
  · rintro (rfl | rfl)
    · exact absurd rfl hwork.2
    · cases hwork.1
  · intro hearly
    rw [Stage.early_of_work hwork] at hearly
    cases hearly

/-- A CPU moves on inside the part where its current task runs. -/
lemma Inv.goto_live (hpc : (k.pc c).live = true) (hstack : k.onStack c = k.current c)
    (hlive : stage.live = true) (hne : stage.held ≠ some (k.current c))
    (hpreempted : stage = .preempting ∨ stage = .displacing → cfg.pid (k.current c) ≠ 0)
    (hslot : stage.early = true → k.pending c = none) (hexit : stage ≠ .exiting) :
    (k.goto c stage).Inv cfg := by
  obtain ⟨hfree, hcpu⟩ := h.live c hpc
  refine h.goto c stage hheld (fun _ => ⟨hfree.goto hne, hcpu⟩) hchosen ?_ hpreempted ?_ ?_ hslot
    fun _ => hstack
  · intro t ht
    rw [Stage.assigned_of_live hlive] at ht
    cases ht
  · intro t j hj
    exact absurd hj (Stage.not_passed_of_live hlive)
  · rintro (rfl | rfl)
    · cases hlive
    · exact absurd rfl hexit

end

/-- The next task becomes the current one. -/
lemma Inv.enter (h : k.Inv cfg) (hpc : k.pc c = .entering t) :
    { k.goto c .switching with current := update k.current c t }.Inv cfg := by
  have hheld : (k.pc c).held = some t := congrArg _ hpc
  have hcpu : k.cpuId t = c := h.assigned c t (by rw [hpc]; rfl)
  have haway {j : Fin n} (hj : j ≠ c) : k.current j ≠ t := h.passed c t j (by rw [hpc]; rfl) hj
  have hfree : (k.goto c .switching).Free t := h.free_of_goto hheld nofun
  have hs : k.Spreads cfg
      { k.goto c .switching with current := update k.current c t } .queue := by
    intro x p hp
    left
    cases p with
    | queue => exact hp
    | pending c' => exact hp
    | hand c' =>
      obtain hp := (at_goto_hand c').mp hp
      split at hp
      · cases hp
      · exact hp
  have hcpus (P : Fin n → Stage n → Nat → Prop) (hnew : P c .switching t)
      (hothers : ∀ c' ≠ c, P c' (k.pc c') (k.current c')) :
      ∀ c', P c' ((k.goto c .switching).pc c') (update k.current c t c') :=
    forall_update₂ P hnew hothers
  refine { h with
    unique := hs.unique h
    live := hcpus (fun c' s x => s.live = true →
      Kernel.Free { k.goto c .switching with current := update k.current c t } x ∧
        k.cpuId x = c') (fun _ => ⟨{ hfree with }, hcpu⟩) fun c' _ hc' => ?_
    off := fun x hst => hs.off h hst
    asleep := fun x cpu hsleeps => ⟨hs.asleep h hsleeps, (h.asleep x cpu hsleeps).2⟩
    idle_hand := hs.idle_hand h
    idle_current := fun i => hcpus (fun c' _ x => x = cfg.idle i → c' = i)
      (fun heq => Place.hand.inj (h.idle_hand i (.hand c) (heq ▸ hheld)))
      fun c' _ => h.idle_current i c'
    chosen := hcpus (fun _ s _ => ∀ t, s.chosen = some t → ∀ i, t ≠ cfg.idle i) nofun
      fun c' _ => h.chosen c'
    assigned := hcpus (fun c s _ => ∀ t, s.assigned = some t → k.cpuId t = c) nofun
      fun c' _ => h.assigned c'
    preempted := hcpus (fun _ s x => s = .preempting ∨ s = .displacing → cfg.pid x ≠ 0)
      (by simp) fun c' _ => h.preempted c'
    current := fun c1 c2 heq => ?_
    passed := fun c' x j hj => ?_
    parked := hcpus (fun _ s x => s = .parked ∨ s = .exiting → k.state x ≠ .running) (by simp)
      fun c' _ => h.parked c'
    slot := hcpus (fun c s _ => s.early = true → k.pending c = none) nofun fun c' _ => h.slot c'
    stack := hcpus (fun c s x => s ≠ .switching → k.onStack c = x) (absurd rfl)
      fun c' _ => h.stack c' }
  · obtain ⟨hfree', hcpu'⟩ := h.live c' hc'
    exact ⟨{ hfree' with off := hs.live h hc' nofun }, hcpu'⟩
  · refine hcpus (fun c1 _ x => x = update k.current c t c2 → c1 = c2) ?_ ?_ c1 heq
    · exact hcpus (fun c2 _ x => t = x → c = c2) (fun _ => rfl)
        (fun c2 hc heq => absurd heq.symm (haway hc)) c2
    · exact fun c1 hc => hcpus (fun c2 _ x => k.current c1 = x → c1 = c2)
        (fun heq => absurd heq (haway hc)) (fun c2 _ heq => h.current heq) c2
  · refine hcpus (fun c' s _ => s.Passed x j → j ≠ c' → update k.current c t j ≠ x)
      (fun hj => hj.elim) (fun c' hc hj hne => ?_) c' hj
    refine hcpus (fun j _ y => k.current j ≠ x → y ≠ x) (fun _ heq => ?_) (fun _ _ h => h) j
      (h.passed c' x j hj hne)
    cases heq
    have hplace := h.unique t (.hand c') (.hand c) (Stage.held_of_passed hj) hheld
    exact hc (Place.hand.inj hplace)

end

section
variable {k : Kernel n} {t : Nat} {stage : Stage n}

/-- A CPU keeps the task that it has chosen. -/
lemma Inv.goto_kept (h : k.Inv cfg) (hpc : (k.pc c).chosen = some t)
    (hlive : (k.pc c).live = false) (hheld : stage.held = some t)
    (hwork : stage.live = false ∧ stage ≠ .parked) (hassigned : stage.assigned = none)
    (hpassed : ∀ x j, stage.Passed x j → j ≠ c → k.current j ≠ x) : (k.goto c stage).Inv cfg := by
  have hswitching : k.pc c ≠ .switching := by
    intro heq
    rw [heq] at hlive
    cases hlive
  refine h.goto_work c stage (fun x hx => .inl ?_) (fun x hx => ?_) hswitching hwork ?_ hpassed
  · rw [← hx, hheld]
    exact Stage.held_of_chosen hpc
  · have heq : x = t := by
      have hx := Stage.held_of_chosen hx
      rw [hheld] at hx
      exact (Option.some.inj hx).symm
    rw [heq]
    exact h.chosen c t hpc
  · intro x hx
    rw [hassigned] at hx
    cases hx

/-- The idle task of a CPU is always at hand. -/
lemma Inv.takes_idle (h : k.Inv cfg) (hheld : (k.pc c).held ≠ some (cfg.idle c)) :
    k.Takes cfg (.hand c) (cfg.idle c) := by
  have hrunning := h.idle c
  refine ⟨⟨fun p hp => ?_, ?_, ?_, ?_, ?_⟩, fun c' _ hc' heq => ?_, fun i heq => ?_⟩
  · have hplace := h.idle_hand c p hp
    subst hplace
    exact hheld hp
  · rw [hrunning]
    exact nofun
  · rw [hrunning]
    exact nofun
  · rw [hrunning]
    exact nofun
  · cases hsleeps : k.sleepsOn (cfg.idle c) with
    | none => rfl
    | some cpu =>
      obtain ⟨-, -, hst⟩ := h.asleep _ cpu hsleeps
      simp [hrunning] at hst
  · exact hc' (congrArg Place.hand (h.idle_current c c' heq).symm)
  · rw [cfg.idle_injective heq]

lemma Inv.goto_idle (h : k.Inv cfg) (hpc : k.pc c ≠ .switching)
    (hheld : (k.pc c).held ≠ some (cfg.idle c)) : (k.goto c (.assigning (cfg.idle c))).Inv cfg := by
  refine h.goto_work c _ (fun t ht => .inr ?_) nofun hpc ⟨rfl, nofun⟩ nofun fun t j hj hne => ?_
  · cases ht
    exact h.takes_idle hheld
  · cases hj
    exact fun heq => hne (h.idle_current c j heq)

lemma goto_enqueue (cpu : Nat) :
    (k.enqueue cpu t).goto c stage = (k.goto c stage).enqueue cpu t := by
  change Kernel.goto (ite (k.isQueued t = true) _ _) c stage = ite (k.isQueued t = true) _ _
  split <;> rfl

variable (h : k.Inv cfg)
include h

/-- A CPU puts the task that it holds into its run queue. -/
lemma Inv.putBack (hpc : (k.pc c).chosen = some t)
    (hgoto : (k.goto c stage).Inv cfg) (hheld : stage.held ≠ some t)
    (hne : stage.live = true →
      k.current c ≠ t) (cpu : Nat) : ((k.enqueue cpu t).goto c stage).Inv cfg := by
  have hat : k.At t (.hand c) := Stage.held_of_chosen hpc
  rw [goto_enqueue]
  refine hgoto.enqueue cpu ⟨h.free_of_goto hat hheld, fun c' hlive _ => ?_, fun i heq => ?_⟩
  · by_cases hc : c' = c
    · subst hc
      have hnew : (k.goto c' stage).pc c' = stage := update_self ..
      rw [hnew] at hlive
      exact hne hlive
    · have hold : (k.goto c stage).pc c' = k.pc c' := update_of_ne hc ..
      rw [hold] at hlive
      exact h.ne_current hat hlive
  · exact absurd heq (h.chosen c t hpc i)

lemma Inv.exiting (hpc : k.pc c = .exiting) :
    { (k.remove (k.current c)).goto c .parked with
      pending := update k.pending c none }.Inv cfg := by
  have h' := (h.remove (k.current c)).clearPending c
  refine h'.goto c .parked nofun nofun nofun nofun (by simp) (fun _ _ hj => hj.elim)
    (fun _ => h.parked c (.inr hpc)) (fun _ => ?_) fun _ => h.stack c (by simp [hpc])
  exact update_self ..

/-- The task that is preempted becomes ready. -/
lemma Inv.preempt (hpc : k.pc c = .preempting) :
    ((k.setState (k.current c) .ready).goto c .displacing).Inv cfg := by
  have hlive : (k.pc c).live = true := congrArg _ hpc
  have hpid := h.preempted c (.inl hpc)
  have hready : (k.setState (k.current c) .ready).Inv cfg := by
    refine h.setState _ _ (fun _ i heq => ?_) (by simp) nofun (.inr ?_) nofun
    · rw [heq, cfg.pid_idle] at hpid
      exact hpid rfl
    · exact (h.live c hlive).1.awake
  refine hready.goto_live c .displacing nofun nofun hlive ?_ rfl nofun (fun _ => hpid) (fun _ => ?_)
    nofun
  · exact h.stack c (by simp [hpc])
  · exact h.slot c (by rw [hpc]; rfl)

/-- The slot is empty when the task that is preempted goes there. -/
lemma Inv.displace (hpc : k.pc c = .displacing) :
    { k.goto c .picking with
      pending := update k.pending c (some (k.current c)) }.Inv cfg := by
  have hlive : (k.pc c).live = true := congrArg _ hpc
  have hpid := h.preempted c (.inr hpc)
  have h' : (k.goto c .picking).Inv cfg :=
    h.goto_work c .picking nofun nofun (by simp [hpc]) ⟨rfl, nofun⟩ nofun fun _ _ hj => hj.elim
  have hnew : (k.goto c .picking).pc c = .picking := update_self ..
  refine h'.setPending (c := c) ⟨(h.live c hlive).1.goto nofun, fun c' hc' _ heq => ?_,
    fun i heq => ?_⟩ (by rw [hnew]; rfl)
  · have hc : c' = c := h.current heq
    rw [hc, hnew] at hc'
    cases hc'
  · rw [heq, cfg.pid_idle] at hpid
    exact absurd rfl hpid

lemma Inv.assigning (hpc : k.pc c = .assigning t) :
    { k.goto c (.starting t) with cpuId := update k.cpuId t c }.Inv cfg := by
  have hheld : k.At t (.hand c) := congrArg Stage.held hpc
  refine (h.assign hheld).goto_work c (.starting t) (fun x hx => .inl ?_) nofun (by simp [hpc])
    ⟨rfl, nofun⟩ (fun x hx => ?_) fun x j hj => ?_
  · rwa [← hx]
  · cases hx
    exact update_self ..
  · exact h.passed c x j (by rw [hpc]; exact hj)

/-- A task is started; it may be the current one. -/
lemma Inv.starting (hpc : k.pc c = .starting t) :
    ((k.setState t .running).goto c
      (if t = k.current c then .finishing else .leaving t)).Inv cfg := by
  have hheld : k.At t (.hand c) := congrArg Stage.held hpc
  have hcpu : k.cpuId t = c := h.assigned c t (by rw [hpc]; rfl)
  have hrunning : (k.setState t .running).Inv cfg := by
    refine h.setState t .running (by simp) (by simp) nofun (.inr (h.awake_of_at hheld)) ?_
    intro _ c' hc'
    have hc : c' ≠ c := by
      rintro rfl
      simp [hpc] at hc'
    exact h.passed c t c' (by rw [hpc]; rfl) hc
  have hstack : k.onStack c = k.current c := h.stack c (by simp [hpc])
  split
  case isTrue heq =>
    refine hrunning.goto c .finishing nofun (fun _ => ⟨?_, ?_⟩) nofun nofun (by simp)
      (fun _ _ hj => hj.elim) (by simp) nofun fun _ => hstack
    · change ((k.setState t .running).goto c .finishing).Free (k.current c)
      rw [← heq]
      exact hrunning.free_of_goto hheld nofun
    · exact heq ▸ hcpu
  · refine hrunning.goto_work c (.leaving t) (fun x hx => .inl ?_) nofun
      (by simp [Kernel.setState, hpc]) ⟨rfl, nofun⟩ (fun x hx => ?_) fun x j hj => ?_
    · rwa [← hx]
    · cases hx
      exact hcpu
    · exact h.passed c x j (by rw [hpc]; exact hj)

lemma Inv.leaving (hpc : k.pc c = .leaving t) : (k.goto c (.entering t)).Inv cfg := by
  refine h.goto_work c (.entering t) (fun x hx => .inl ?_) nofun (by simp [hpc]) ⟨rfl, nofun⟩
    (fun x hx => h.assigned c x ?_) fun x j hj => h.passed c x j ?_
  · rwa [hpc]
  · rwa [hpc]
  · rwa [hpc]

/-- The stack of the current task is entered. -/
lemma Inv.switch (hpc : k.pc c = .switching) (saved : Nat → Option (Fin n))
    (hstage : stage = .starter ∨ ∃ cpu, stage = .resumed cpu) :
    { k.goto c stage with
      saved
      onStack := update k.onStack c (k.current c) }.Inv cfg := by
  have hlive : (k.pc c).live = true := congrArg _ hpc
  have h' : { k with saved, onStack := update k.onStack c (k.current c) }.Inv cfg := by
    refine h.setOthers fun c' hc' => ?_
    have hc : c' ≠ c := by
      rintro rfl
      exact hc' hpc
    exact (update_of_ne hc ..).trans (h.stack c' hc')
  obtain rfl | ⟨cpu, rfl⟩ := hstage
  · exact h'.goto_live c .starter nofun nofun hlive (update_self ..) rfl nofun (by simp) nofun nofun
  · exact h'.goto_live c (.resumed cpu) nofun nofun hlive (update_self ..) rfl nofun (by simp) nofun
      nofun

lemma Inv.resume (hlive : (k.pc c).live = true) (hpc : k.pc c ≠ .switching) :
    (k.goto c .finishing).Inv cfg :=
  h.goto_live c .finishing nofun nofun hlive (h.stack c hpc) rfl nofun (by simp) nofun nofun

lemma Inv.finish (hpc : k.pc c = .finishing) :
    { k.goto c (match k.pending c with
        | none => .running
        | some pending => .returning pending) with
      pending := update k.pending c none }.Inv cfg := by
  have hlive : (k.pc c).live = true := congrArg _ hpc
  have hstack : k.onStack c = k.current c := h.stack c (by simp [hpc])
  have h' := h.clearPending c
  have hslot : update k.pending c none c = none := update_self ..
  cases hpend : k.pending c with
  | none =>
    exact h'.goto_live c .running nofun nofun hlive hstack rfl nofun (by simp) (fun _ => hslot)
      nofun
  | some t =>
    have hat : k.At t (.pending c) := hpend
    have hne := h.ne_current hat hlive
    have hidle (i : Fin n) : t ≠ cfg.idle i := by
      rintro rfl
      cases h.idle_hand i _ hat
    refine h'.goto_live c (.returning t) (fun x hx => .inr ?_) (fun x hx => ?_) hlive hstack rfl
      (fun heq => ?_) (by simp) (fun _ => hslot) nofun
    · cases hx
      exact ⟨h.free_of_clear hpend, fun c' hc' _ => h.ne_current hat hc',
        fun i heq => absurd heq (hidle i)⟩
    · cases hx
      exact hidle
    · exact hne (Option.some.inj heq).symm

lemma Inv.return (hpc : k.pc c = .returning t) :
    (k.goto c (.requeueing t)).Inv cfg ∧ (k.goto c .running).Inv cfg := by
  have hlive : (k.pc c).live = true := congrArg _ hpc
  have hstack : k.onStack c = k.current c := h.stack c (by simp [hpc])
  have hslot : k.pending c = none := h.slot c (by rw [hpc]; rfl)
  have hheld : (k.pc c).held = some t := congrArg _ hpc
  constructor
  · refine h.goto_live c (.requeueing t) (fun x hx => .inl ?_) (fun x hx => h.chosen c x ?_) hlive
      hstack rfl (fun heq => ?_) (by simp) (fun _ => hslot) nofun
    · rwa [hheld]
    · rwa [hpc]
    · exact h.ne_current (p := .hand c) hheld hlive (Option.some.inj heq).symm
  · exact h.goto_live c .running nofun nofun hlive hstack rfl nofun (by simp) (fun _ => hslot) nofun

lemma Inv.requeue (hpc : k.pc c = .requeueing t) (cpu : Nat) :
    ((k.enqueue cpu t).goto c .running).Inv cfg := by
  have hlive : (k.pc c).live = true := congrArg _ hpc
  have hchosen : (k.pc c).chosen = some t := congrArg _ hpc
  have hslot : k.pending c = none := h.slot c (by rw [hpc]; rfl)
  have hrunning : (k.goto c .running).Inv cfg :=
    h.goto_live c .running nofun nofun hlive (h.stack c (by simp [hpc])) rfl nofun (by simp)
      (fun _ => hslot) nofun
  exact h.putBack hchosen hrunning nofun
    (fun _ => h.ne_current (p := .hand c) (Stage.held_of_chosen hchosen) hlive) cpu

/-- What a CPU does inside `schedule` keeps the invariant. -/
lemma Inv.advance (hok : k.advance cfg c = some k') : k'.Inv cfg := by
  cases hpc : k.pc c <;>
    simp only [Kernel.advance, hpc, Option.some.injEq, reduceCtorEq] at hok <;> try cases hok
  case exiting =>
    exact h.exiting hpc
  case preempting =>
    exact h.preempt hpc
  case displacing =>
    have hslot : k.pending c = none := h.slot c (by rw [hpc]; rfl)
    simp only [hslot]
    exact h.displace hpc
  case picked next =>
    split at hok <;> cases hok
    · exact h.goto_work c .picking nofun nofun (by simp [hpc]) ⟨rfl, nofun⟩ nofun
        fun _ _ hj => hj.elim
    · exact h.goto_kept (t := next) (by rw [hpc]; rfl) (by rw [hpc]; rfl) rfl ⟨rfl, nofun⟩ rfl
        fun x j hj => absurd hj.2 (Nat.not_lt_zero j)
  case checkingCurrent next i =>
    have hchosen : (k.pc c).chosen = some next := congrArg _ hpc
    have hlive : (k.pc c).live = false := congrArg _ hpc
    have hpassed (x : Nat) (j : Fin n) (hx : next = x) (hj : j < i) (hne : j ≠ c) :
        k.current j ≠ x := h.passed c x j (by rw [hpc]; exact ⟨hx, hj⟩) hne
    split at hok
    case isTrue hi =>
      split at hok
      case isTrue hic =>
        cases hok
        refine h.goto_kept hchosen hlive rfl ⟨rfl, nofun⟩ rfl fun x j hj hne => ?_
        refine hpassed x j hj.1 ?_ hne
        have hji : (j : Nat) ≠ i := fun heq => hne (Fin.ext (heq.trans hic))
        exact lt_of_le_of_ne (Nat.le_of_lt_succ hj.2) hji
      case isFalse hic =>
        split at hok <;> cases hok
        · exact h.goto_kept hchosen hlive rfl ⟨rfl, nofun⟩ rfl fun _ _ hj => hj.elim
        case isFalse hcur =>
          refine h.goto_kept hchosen hlive rfl ⟨rfl, nofun⟩ rfl fun x j hj hne => ?_
          obtain hlt | heq := lt_or_eq_of_le hj.2
          · exact hpassed x j hj.1 hlt hne
          · have hj' : j = ⟨i, hi⟩ := Fin.ext heq
            rwa [hj', ← hj.1]
    case isFalse hi =>
      cases hok
      refine h.goto_kept hchosen hlive rfl ⟨rfl, nofun⟩ rfl fun x j hj => ?_
      exact hpassed x j hj (j.isLt.trans_le (Nat.le_of_not_lt hi))
  case checkingSwitching next i =>
    have hchosen : (k.pc c).chosen = some next := congrArg _ hpc
    have hlive : (k.pc c).live = false := congrArg _ hpc
    obtain ⟨_, hok⟩ := dite_none_right_eq_some.mp hok
    split at hok <;> cases hok
    · exact h.goto_kept hchosen hlive rfl ⟨rfl, nofun⟩ rfl fun _ _ hj => hj.elim
    · refine h.goto_kept hchosen hlive rfl ⟨rfl, nofun⟩ rfl fun x j hj => h.passed c x j ?_
      rw [hpc]
      exact ⟨hj.1, Nat.le_of_lt_succ hj.2⟩
  case rejecting next =>
    have hchosen : (k.pc c).chosen = some next := congrArg _ hpc
    have hne : next ≠ cfg.idle c := h.chosen c next hchosen c
    have hheld : (k.pc c).held ≠ some (cfg.idle c) := by
      rw [Stage.held_of_chosen hchosen]
      exact fun heq => hne (Option.some.inj heq)
    refine h.putBack hchosen (h.goto_idle (by simp [hpc]) hheld)
      (fun heq => hne (Option.some.inj heq).symm) (fun hlive => ?_) c
    cases hlive
  case assigning next =>
    exact h.assigning hpc
  case starting next =>
    exact h.starting hpc
  case leaving next =>
    exact (h.leaving hpc).setOthers (h.leaving hpc).stack
  case entering next =>
    exact h.enter hpc
  case switching =>
    apply h.switch hpc
    split
    · exact .inl rfl
    · exact .inr ⟨_, rfl⟩
  case resumed | starter =>
    have h' := h.resume (c := c) (by rw [hpc]; rfl) (by simp [hpc])
    exact h'.setOthers h'.stack
  case finishing =>
    exact h.finish hpc
  case returning pending =>
    split at hok <;> cases hok
    · exact (h.return hpc).1
    · exact (h.return hpc).2
  case requeueing pending =>
    exact h.requeue hpc c

section
variable (hpc : k.pc c = .running) (hpid : cfg.pid (k.current c) ≠ 0)
include hpc hpid

/-- The running task gives up its CPU. -/
lemma Inv.park :
    (k.goto c .picking).Inv cfg ∧ (∀ p, ¬(k.goto c .picking).At (k.current c) p) ∧
      (∀ c', ((k.goto c .picking).pc c').live = true → k.current c' ≠ k.current c) ∧
      (∀ i, k.current c ≠ cfg.idle i) ∧ k.sleepsOn (k.current c) = none ∧
      k.cpuId (k.current c) = c := by
  have hlive : (k.pc c).live = true := congrArg _ hpc
  obtain ⟨hfree, hcpu⟩ := h.live c hlive
  have hoff : (k.goto c .picking).Free (k.current c) := hfree.goto nofun
  refine ⟨?_, hoff.off, fun c' hc' heq => ?_, fun i heq => ?_, hfree.awake, hcpu⟩
  · exact h.goto_work c .picking nofun nofun (by simp [hpc]) ⟨rfl, nofun⟩ nofun
      fun _ _ hj => hj.elim
  · have hnew : (k.goto c .picking).pc c = .picking := update_self ..
    rw [h.current heq, hnew] at hc'
    cases hc'
  · rw [heq, cfg.pid_idle] at hpid
    exact hpid rfl

lemma Inv.blocked : ((k.setState (k.current c) .blocked).goto c .parked).Inv cfg := by
  obtain ⟨hwork, hoff, haway, hidle, hawake, -⟩ := h.park hpc hpid
  have hst := hwork.setState (k.current c) .blocked (fun _ => hidle) (fun _ => ⟨hoff, haway⟩)
    nofun (.inr hawake) nofun
  have hpark := hst.goto c .parked nofun nofun nofun nofun (by simp) (fun _ _ hj => hj.elim)
    (fun _ => ?_) (fun _ => h.slot c (by rw [hpc]; rfl)) fun _ => h.stack c (by simp [hpc])
  · simpa [Kernel.goto, Kernel.setState] using hpark
  · change update k.state (k.current c) .blocked (k.current c) ≠ .running
    rw [update_self]
    exact nofun

lemma Inv.slept :
    { ((k.setState (k.current c) .sleeping).remove (k.current c)).goto c .parked with
      sleepsOn := update k.sleepsOn (k.current c) (some c)
      pending := update k.pending c none }.Inv cfg := by
  obtain ⟨hwork, hoff, haway, hidle, -, hcpu⟩ := h.park hpc hpid
  have hbed : { (k.goto c .picking).setState (k.current c) .sleeping with
      sleepsOn := update k.sleepsOn (k.current c) (some (k.cpuId (k.current c))) }.Inv cfg :=
    hwork.setBed hoff haway hidle nofun (fun cpu heq => ⟨Option.some.inj heq, .inl rfl⟩)
      fun _ => rfl
  have hdoze := (hbed.remove (k.current c)).clearPending c
  have hpark := hdoze.goto c .parked nofun nofun nofun nofun (by simp) (fun _ _ hj => hj.elim)
    (fun _ => ?_) (fun _ => update_self ..) fun _ => h.stack c (by simp [hpc])
  · simpa [Kernel.goto, Kernel.setState, Kernel.remove, hcpu] using hpark
  · change update k.state (k.current c) .sleeping (k.current c) ≠ .running
    rw [update_self]
    exact nofun

end

/-- A wake-up makes a task ready that waits or sleeps, and does nothing to another one. -/
lemma Inv.wake_eq (cpu : Nat) (hcpu : k.state t = .sleeping → k.cpuId t = cpu) :
    (k.wake cpu t = k ∨ (k.state t = .blocked ∨ k.state t = .sleeping) ∧
      k.wake cpu t = ({ k with sleepsOn := update k.sleepsOn t none }.setState
        t .ready).enqueue cpu t) := by
  unfold Kernel.wake
  split
  case isTrue hsleep =>
    have hbed : k.sleepsOn t = some cpu := by
      rw [h.sleeping t hsleep, hcpu hsleep]
    rw [if_pos hbed]
    exact .inr ⟨.inr hsleep, rfl⟩
  · split
    case isTrue hblk =>
      have hbed : k.sleepsOn t = none := by
        cases hsleeps : k.sleepsOn t with
        | none => rfl
        | some c =>
          obtain ⟨-, -, hst⟩ := h.asleep t c hsleeps
          simp [hblk] at hst
      have hsame : update k.sleepsOn t none = k.sleepsOn := by
        rw [← hbed, update_eq_self]
      rw [hsame]
      exact .inr ⟨.inl hblk, rfl⟩
    · exact .inl rfl

lemma Inv.wake (cpu : Nat)
    (hcpu : k.state t = .sleeping → k.cpuId t = cpu) : (k.wake cpu t).Inv cfg := by
  obtain heq | ⟨hst, heq⟩ := h.wake_eq cpu hcpu
  · rwa [heq]
  rw [heq]
  refine h.rouse ?_ (fun c hc heq => ?_) (h.ne_idle ?_) cpu
  · exact h.off t (hst.imp (fun hb => hb) Or.inl)
  · obtain ⟨hfree, -⟩ := h.live c hc
    rw [heq] at hfree
    exact hst.elim hfree.blocked hfree.sleeping
  · obtain heq | heq := hst <;> simp [heq]

/-- The sleep of a task is over. -/
lemma Inv.scan (hsleeps : k.sleepsOn t = some cpu) :
    (({ k with sleepsOn := update k.sleepsOn t none }.setState t .ready).enqueue
      cpu t).Inv cfg := by
  obtain ⟨hoff, -, hst⟩ := h.asleep t cpu hsleeps
  refine h.rouse hoff (fun c hc heq => ?_) (h.ne_idle ?_) cpu
  · obtain ⟨hfree, -⟩ := h.live c hc
    rw [heq] at hfree
    exact some_ne_none cpu (hsleeps.symm.trans hfree.awake)
  · obtain heq | heq := hst <;> simp [heq]

lemma Inv.take (hpc : k.pc c = .picking) (hq : k.isQueued t = true) :
    ((k.remove t).goto c (.picked t)).Inv cfg := by
  have hidle (i : Fin n) : t ≠ cfg.idle i := by
    rintro rfl
    cases h.idle_hand i .queue hq
  refine (h.remove t).goto_work c (.picked t) (fun x hx => .inr ?_) (fun x hx => ?_)
    (by simp [Kernel.remove, hpc]) ⟨rfl, nofun⟩ nofun fun _ _ hj => hj.elim
  · cases hx
    exact ⟨h.free_of_remove hq, fun c' hc' _ => h.ne_current (p := .queue) hq hc',
      fun i heq => absurd heq (hidle i)⟩
  · cases hx
    exact hidle

/-- Every step of the scheduler keeps the invariant, if wake-ups know where sleeping tasks are. -/
lemma Inv.step {e : KernelEvent n} (hcond : k.Meets e)
    (hok : k.step cfg e = some k') : k'.Inv cfg := by
  cases e with
  | enter c =>
    obtain ⟨hpc, hok⟩ := then_of_ite hok
    split_ifs at hok with hst
    · cases hok
      have hrunning : k.pc c = .running := by
        refine hpc.resolve_right fun hpark => ?_
        exact h.parked c (.inl hpark) hst.1
      refine h.goto_live c .preempting nofun nofun (by rw [hrunning]; rfl)
        (h.stack c (by simp [hrunning])) rfl nofun (fun _ => hst.2)
        (fun _ => h.slot c (by rw [hrunning]; rfl)) nofun
    · cases hok
      have hswitching : k.pc c ≠ .switching := by
        obtain heq | heq := hpc <;> simp [heq]
      exact (h.goto_work c .picking nofun nofun hswitching ⟨rfl, nofun⟩ nofun
        fun _ _ hj => hj.elim).clearPending c
  | advance c => exact h.advance hok
  | pick c task =>
    obtain ⟨hpick, ⟨⟩⟩ := then_of_ite hok
    exact h.take hpick.1 hpick.2.1
  | steal c victim task =>
    obtain ⟨hsteal, ⟨⟩⟩ := then_of_ite hok
    exact h.take hsteal.1 hsteal.2.2.1
  | pickNone c =>
    obtain ⟨hpc, ⟨⟩⟩ := then_of_ite hok
    exact h.goto_idle (by simp [hpc]) (by simp [hpc, Stage.held])
  | block c queue =>
    obtain ⟨hpc, ⟨⟩⟩ := then_of_ite hok
    have hstack : k.onStack c = k.current c := h.stack c (by simp [hpc.1])
    rw [hstack] at hpc ⊢
    have h' := h.blocked hpc.1 hpc.2
    exact h'.setOthers h'.stack
  | sleep c =>
    obtain ⟨hpc, ⟨⟩⟩ := then_of_ite hok
    exact h.slept hpc.1 hpc.2
  | scan c task =>
    obtain ⟨hsleeps, ⟨⟩⟩ := then_of_ite hok
    exact h.scan hsleeps
  | pop task =>
    cases hok
    exact h.setOthers h.stack
  | loadCpu thread task =>
    obtain ⟨-, ⟨⟩⟩ := then_of_ite hok
    exact h.setOthers h.stack
  | wake thread =>
    obtain ⟨call, hcall, rfl⟩ := map_eq_some_iff.mp hok
    have h' := h.wake call.cpu (hcond call hcall)
    exact h'.setOthers h'.stack

end

section
variable {k : Kernel n} {t : Nat}

/-- Every CPU runs its idle task, and other tasks are queued or not created yet. -/
structure Initial (cfg : Tasking n) (k : Kernel n) : Prop where
  idle : ∀ c, k.state (cfg.idle c) = .running ∧ k.isQueued (cfg.idle c) = false ∧
    k.cpuId (cfg.idle c) = c
  tasks : ∀ t, (∀ c, t ≠ cfg.idle c) → k.state t = .dead ∧ k.isQueued t = false ∨
    k.state t = .ready ∧ k.isQueued t = true
  sleepsOn : ∀ t, k.sleepsOn t = none
  current : ∀ c, k.current c = cfg.idle c
  onStack : ∀ c, k.onStack c = cfg.idle c
  pending : ∀ c, k.pending c = none
  pc : ∀ c, k.pc c = .running

namespace Initial

variable (hinit : k.Initial cfg)
include hinit

lemma at_queue (hp : k.At t p) : p = .queue := by
  cases p with
  | queue => rfl
  | pending c => cases (hinit.pending c).symm.trans hp
  | hand c =>
    have hheld : (k.pc c).held = some t := hp
    rw [hinit.pc c] at hheld
    cases hheld

lemma not_at_idle (c : Fin n) (p : Place n) : ¬k.At (cfg.idle c) p := by
  intro hp
  have hqueue := hinit.at_queue hp
  subst hqueue
  cases (hinit.idle c).2.1.symm.trans hp

lemma ready_or_dead (ht : ∀ c, k.state t = .running → t ≠ cfg.idle c) :
    k.state t = .dead ∧ k.isQueued t = false ∨ k.state t = .ready ∧ k.isQueued t = true := by
  refine hinit.tasks t fun c heq => ?_
  subst heq
  exact ht c (hinit.idle c).1 rfl

lemma inv : k.Inv cfg := by
  constructor
  case unique => exact fun t p p' hp hp' => (hinit.at_queue hp).trans (hinit.at_queue hp').symm
  case live =>
    intro c _
    rw [hinit.current c]
    obtain ⟨hst, -, hcpu⟩ := hinit.idle c
    refine ⟨⟨hinit.not_at_idle c, ?_, ?_, ?_, hinit.sleepsOn _⟩, hcpu⟩ <;>
      simp [hst]
  case off =>
    intro t hst p hp
    have hqueue := hinit.at_queue hp
    subst hqueue
    obtain ⟨-, hoff⟩ | ⟨hready, -⟩ :=
      hinit.ready_or_dead (t := t) fun c hrunning => by simp [hrunning] at hst
    · cases hoff.symm.trans hp
    · simp [hready] at hst
  case asleep =>
    intro t c hsleeps
    cases (hinit.sleepsOn t).symm.trans hsleeps
  case sleeping =>
    intro t hsleep
    obtain ⟨hdead, -⟩ | ⟨hready, -⟩ :=
      hinit.ready_or_dead (t := t) fun c hrunning => by simp [hrunning] at hsleep
    · cases hdead.symm.trans hsleep
    · cases hready.symm.trans hsleep
  case idle => exact fun c => (hinit.idle c).1
  case idle_hand => exact fun c p hp => absurd hp (hinit.not_at_idle c p)
  case idle_current =>
    intro c c' heq
    rw [hinit.current c'] at heq
    exact cfg.idle_injective heq
  case chosen | assigned =>
    intro c t ht
    rw [hinit.pc c] at ht
    cases ht
  case preempted | parked =>
    intro c hc
    simp [hinit.pc c] at hc
  case current =>
    intro c c' heq
    rw [hinit.current c, hinit.current c'] at heq
    exact cfg.idle_injective heq
  case passed =>
    intro c t j hj
    rw [hinit.pc c] at hj
    exact hj.elim
  case slot => exact fun c _ => hinit.pending c
  case stack => exact fun c _ => (hinit.onStack c).trans (hinit.current c).symm

end Initial

end

end Kernel

end Singularity.Process
