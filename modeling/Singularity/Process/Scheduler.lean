import Singularity.Foundation.Slots
import Singularity.Process.Parking

/-!
# Run queues and sleep queues

Every CPU has a doubly linked queue for each priority, a word with one bit for each queue, a
count of its queued tasks and a singly linked list of sleeping tasks. The lock-protected
sections of the scheduler are functions on these pointers, and `Rep` relates the pointers to
the lists that stand in them: each section is shown to be an operation on the lists.
-/

namespace Singularity.Process

open Foundation Function Option

def prioCount : Nat := 6

def starvationThreshold : BitVec 64 := 1250

def schedVruntimeStep : BitVec 64 := 100 * 1024

/-- The fields of tasks and CPUs that the scheduler works with. -/
structure Scheduler where
  state : Nat → ProcessState
  cpuId : Nat → Nat
  priority : Nat → Nat
  affinity : Nat → Int
  wakeTick : Nat → BitVec 64
  vruntime : Nat → BitVec 64
  lastQueued : Nat → BitVec 64
  isQueued : Nat → Bool
  rq : Nat → Links
  sleepNext : Nat → Nat
  queues : Nat × Nat → Ends
  activeQueues : Nat → BitVec 32
  sleepQueue : Nat → Nat
  totalTasks : Nat → Nat
  minVruntime : Nat → BitVec 64

/-- The queue of a priority; those out of range share the last one. -/
def level (prio : Nat) : Nat := if prioCount ≤ prio then prioCount - 1 else prio

namespace Scheduler

def enqueueLocked (s : Scheduler) (cpu task prio : Nat) (affinity : Int) (now : BitVec 64) :
    Scheduler :=
  if s.isQueued task then s
  else
    let p := level prio
    let linked := Links.append s.rq (s.queues (cpu, p)) task
    { s with
      priority := update s.priority task prio
      affinity := update s.affinity task affinity
      cpuId := update s.cpuId task cpu
      lastQueued := update s.lastQueued task now
      vruntime :=
        if s.vruntime task < s.minVruntime cpu then
          update s.vruntime task (s.minVruntime cpu)
        else s.vruntime
      rq := linked.1
      queues := update s.queues (cpu, p) linked.2
      activeQueues := update s.activeQueues cpu (s.activeQueues cpu ||| 1#32 <<< p)
      isQueued := update s.isQueued task true
      totalTasks := update s.totalTasks cpu (s.totalTasks cpu + 1) }

def removeLocked (s : Scheduler) (cpu task : Nat) : Scheduler :=
  if s.isQueued task then
    let p := level (s.priority task)
    let linked := Links.remove s.rq (s.queues (cpu, p)) task
    { s with
      rq := linked.1
      queues := update s.queues (cpu, p) linked.2
      activeQueues :=
        if linked.2.head = 0 then
          update s.activeQueues cpu (s.activeQueues cpu &&& ~~~(1#32 <<< p))
        else s.activeQueues
      isQueued := update s.isQueued task false
      -- the source does not count below zero
      totalTasks := update s.totalTasks cpu (s.totalTasks cpu - 1) }
  else s

/-- A task that slept or was blocked is made ready and queued. -/
def readyLocked (s : Scheduler) (cpu task : Nat) (now : BitVec 64) : Scheduler :=
  enqueueLocked
    { s with
      state := update s.state task .ready
      wakeTick := update s.wakeTick task 0 }
    cpu task (s.priority task) (s.affinity task) now

/-- Take a task off the sleep queue of a CPU; `prev` is the one before it, or zero. -/
def unsleep (s : Scheduler) (cpu prev task : Nat) : Scheduler :=
  let cut := Chain.cut s.sleepNext (s.sleepQueue cpu) prev task
  { s with sleepNext := cut.1, sleepQueue := update s.sleepQueue cpu cut.2 }

/-- The section of `sched_wake_task`; the search takes at most so many rounds. -/
def wakeLocked (s : Scheduler) (rounds targetCpu task : Nat) (now : BitVec 64) :
    Option Scheduler :=
  if s.state task = .sleeping then
    (Chain.drop task (s.sleepQueue targetCpu) s.sleepNext rounds 0 (s.sleepQueue targetCpu)).map
      fun found =>
        readyLocked
          { s with
            sleepNext := found.1
            sleepQueue := update s.sleepQueue targetCpu found.2 }
          targetCpu task now
  else if s.state task = .blocked then some (s.readyLocked targetCpu task now)
  else some s

/-- When a task that sleeps for so many ticks is to wake up. -/
def wakeTime (now ticks : BitVec 64) : BitVec 64 :=
  if now + ticks < now then 0xFFFFFFFFFFFFFFFF else now + ticks

/-- The section of `sched_sleep_current` for the task that runs on the CPU. -/
def sleepLocked (s : Scheduler) (cpu task : Nat) (ticks now : BitVec 64) : Scheduler :=
  let slept : Scheduler :=
    { s with
      state := update s.state task .sleeping
      wakeTick := update s.wakeTick task (wakeTime now ticks) }
  let removed := slept.removeLocked cpu task
  { removed with
    sleepNext := update removed.sleepNext task (removed.sleepQueue cpu)
    sleepQueue := update removed.sleepQueue cpu task }

/-- The loop of `process_tick` over the sleep queue, for so many rounds. -/
def scanLocked (cpu : Nat) (now : BitVec 64) (clock : Nat → BitVec 64) :
    Nat → Scheduler → Nat → Nat → Option Scheduler
  | 0, s, _, task => if task = 0 then some s else none
  | rounds + 1, s, prev, task =>
    if task = 0 then some s
    else if s.wakeTick task ≤ now then
      scanLocked cpu now clock rounds
        ((s.unsleep cpu prev task).readyLocked cpu task (clock task)) prev (s.sleepNext task)
    else scanLocked cpu now clock rounds s task (s.sleepNext task)

/-- Whether the first task of a queue has waited for too long. -/
def starved (s : Scheduler) (cpu p : Nat) (now : BitVec 64) : Bool :=
  let front := (s.queues (cpu, p)).head
  decide (front ≠ 0) && decide (s.lastQueued front < now) &&
    decide (starvationThreshold < now - s.lastQueued front)

/-- The highest bit that is set in a word that is not zero. -/
def highest (aq : BitVec 32) : Nat := aq.toNat.log2

/-- The first section of `sched_pick_next` and the task it returns. -/
def pickLocked (s : Scheduler) (cpu : Nat) (now : BitVec 64) : Scheduler × Nat :=
  let aq := s.activeQueues cpu
  -- the set bits from the lowest up
  match (List.range 32).find? fun p => aq.getLsbD p && s.starved cpu p now with
  | some p => (s.removeLocked cpu (s.queues (cpu, p)).head, (s.queues (cpu, p)).head)
  | none =>
    let p := highest aq
    let front := (s.queues (cpu, p)).head
    if aq = 0 ∨ front = 0 then (s, 0)
    else
      let removed := s.removeLocked cpu front
      let weight := BitVec.ofInt 64 (prioCount - p)
      let vruntime :=
        removed.vruntime front + schedVruntimeStep / (if weight = 0 then 1 else weight)
      ({ removed with
          vruntime := update removed.vruntime front vruntime
          minVruntime :=
            if removed.minVruntime cpu < vruntime then
              update removed.minVruntime cpu vruntime
            else removed.minVruntime },
        front)

/-- The last section of `sched_pick_next` and the task that is stolen from the victim. -/
def stealLocked (s : Scheduler) (cpu victim : Nat) : Scheduler × Nat :=
  let raq := s.activeQueues victim
  let back := (s.queues (victim, highest raq)).tail
  if raq ≠ 0 ∧ back ≠ 0 ∧ (s.affinity back = -1 ∨ s.affinity back = cpu) then
    (s.removeLocked victim back, back)
  else (s, 0)

end Scheduler

/-- The tasks in the run queues and in the sleep queues. -/
structure Queues where
  runs : Nat × Nat → List Nat
  sleepers : Nat → List Nat

namespace Queues

def enqueue (a : Queues) (cpu p task : Nat) : Queues :=
  { a with runs := update a.runs (cpu, p) (a.runs (cpu, p) ++ [task]) }

def remove (a : Queues) (cpu p task : Nat) : Queues :=
  { a with runs := update a.runs (cpu, p) ((a.runs (cpu, p)).erase task) }

def sleep (a : Queues) (cpu task : Nat) : Queues :=
  { a with sleepers := update a.sleepers cpu (task :: a.sleepers cpu) }

def wake (a : Queues) (cpu task : Nat) : Queues :=
  { a with sleepers := update a.sleepers cpu ((a.sleepers cpu).erase task) }

end Queues

/-- The pointers hold these lists. -/
structure Rep (s : Scheduler) (a : Queues) : Prop where
  held : ∀ q, Links.Held s.rq (s.queues q) (a.runs q)
  above : ∀ c p, prioCount ≤ p → a.runs (c, p) = []
  active : ∀ c p, (s.activeQueues c).getLsbD p = true ↔ a.runs (c, p) ≠ []
  total : ∀ c, s.totalTasks c = ∑ p ∈ Finset.range prioCount, (a.runs (c, p)).length
  queued : ∀ t q, t ∈ a.runs q ↔ s.isQueued t = true ∧ q = (s.cpuId t, level (s.priority t))
  chain : ∀ c, Chain s.sleepNext (s.sleepQueue c) (a.sleepers c)
  asleep : ∀ c, ∀ t ∈ a.sleepers c, s.cpuId t = c ∧ s.isQueued t = false ∧ s.state t ≠ .blocked

lemma level_lt (prio : Nat) : level prio < prioCount := by
  unfold level
  split
  · decide
  case isFalse hlt => exact Nat.lt_of_not_le hlt

private lemma getLsbD_bit (hp : p < prioCount) : (1#32 <<< p).getLsbD i = true ↔ i = p := by
  have hwide : p < 32 := hp.trans (by decide)
  rw [BitVec.getLsbD_shiftLeft, BitVec.getLsbD_one]
  simp only [Bool.and_eq_true, decide_eq_true_eq, Bool.not_eq_true', decide_eq_false_iff_not]
  omega

lemma getLsbD_clearBit (hp : p < prioCount) :
    (aq &&& ~~~(1#32 <<< p)).getLsbD i = true ↔ aq.getLsbD i = true ∧ i ≠ p := by
  rw [BitVec.getLsbD_and, Bool.and_eq_true, BitVec.getLsbD_not, Bool.and_eq_true,
    Bool.not_eq_true', ← Bool.not_eq_true, getLsbD_bit hp, decide_eq_true_eq]
  constructor
  · rintro ⟨hset, -, hne⟩
    exact ⟨hset, hne⟩
  · rintro ⟨hset, hne⟩
    exact ⟨hset, BitVec.lt_of_getLsbD hset, hne⟩

namespace Rep

variable {s : Scheduler} {a : Queues} {c p t prio : Nat} {q : Nat × Nat}

section
variable (h : Rep s a) (ht : t ∈ a.runs q)
include h ht

lemma isQueued_of_mem :
    s.isQueued t = true := ((h.queued t q).mp ht).1

lemma home_of_mem :
    q = (s.cpuId t, level (s.priority t)) := ((h.queued t q).mp ht).2

lemma queue_eq (ht' : t ∈ a.runs q') : q = q' :=
  (h.home_of_mem ht).trans (h.home_of_mem ht').symm

end

lemma not_queued_of_asleep (h : Rep s a) (ht : t ∈ a.sleepers c) (q : Nat × Nat) :
    t ∉ a.runs q := by
  intro hmem
  have hoff := (h.asleep c t ht).2.1
  rw [h.isQueued_of_mem hmem] at hoff
  cases hoff

lemma total_update {runs : Nat × Nat → List Nat} {total : Nat → Nat} {l : List Nat} {n : Nat}
    (htot : ∀ c, total c = ∑ p ∈ Finset.range prioCount, (runs (c, p)).length)
    (hp : p < prioCount) (hn : n + (runs (c, p)).length = total c + l.length) (c' : Nat) :
    update total c n c' =
      ∑ j ∈ Finset.range prioCount, (update runs (c, p) l (c', j)).length := by
  by_cases hc : c' = c
  · subst hc
    have hcurry (j : Nat) : update runs (c', p) l (c', j) =
        update (fun j => runs (c', j)) p l j := by
      simp only [update_apply, Prod.mk.injEq, true_and]
    have hsum := sum_update_add (Finset.mem_range.mpr hp) List.length (fun j => runs (c', j)) l
    rw [update_self]
    simp only [hcurry]
    rw [htot c'] at hn
    omega
  · have hother (j : Nat) : update runs (c, p) l (c', j) = runs (c', j) :=
      update_of_ne (fun heq => hc (congrArg Prod.fst heq)) ..
    rw [update_of_ne hc]
    simp only [hother]
    exact htot c'

variable (h : Rep s a)
include h

/-- A task that is in no queue is put behind the last one of a queue. -/
lemma enqueue (ht : t ≠ 0) (hoff : s.isQueued t = false)
    (hawake : ∀ c, t ∉ a.sleepers c) (affinity : Int) (now : BitVec 64) :
    Rep (s.enqueueLocked c t prio affinity now) (a.enqueue c (level prio) t) := by
  have hnone (q : Nat × Nat) : t ∉ a.runs q := by
    intro hmem
    rw [h.isQueued_of_mem hmem] at hoff
    cases hoff
  have hlevel := level_lt prio
  rw [Scheduler.enqueueLocked, if_neg (by rw [hoff]; exact Bool.false_ne_true)]
  constructor
  case held =>
    intro q
    by_cases hq : q = (c, level prio)
    · subst hq
      dsimp only [Queues.enqueue]
      rw [update_self, update_self]
      exact (h.held _).append ht (hnone _)
    · dsimp only [Queues.enqueue]
      rw [update_of_ne hq, update_of_ne hq]
      apply (h.held q).congr
      intro x hx
      apply (h.held (c, level prio)).append_other
      · rintro rfl
        exact hnone q hx
      · intro hx'
        exact hq (h.queue_eq hx hx')
  case above =>
    intro c' p hp
    have hne : (c', p) ≠ (c, level prio) := by
      rintro ⟨⟩
      exact absurd hlevel (Nat.not_lt.mpr hp)
    exact (update_of_ne hne ..).trans (h.above c' p hp)
  case active =>
    intro c' p
    change (update s.activeQueues c _ c').getLsbD p = true ↔
      update a.runs (c, level prio) _ (c', p) ≠ []
    by_cases hc : c' = c
    · subst hc
      rw [update_self, BitVec.getLsbD_or, Bool.or_eq_true, getLsbD_bit hlevel, h.active]
      by_cases hp : p = level prio
      · simp [hp]
      · have hne : (c', p) ≠ (c', level prio) := fun heq => hp (congrArg Prod.snd heq)
        rw [update_of_ne hne]
        simp [hp]
    · have hne : (c', p) ≠ (c, level prio) := fun heq => hc (congrArg Prod.fst heq)
      rw [update_of_ne hc, update_of_ne hne]
      exact h.active c' p
  case total =>
    apply total_update h.total hlevel
    rw [List.length_append, List.length_singleton]
    omega
  case queued =>
    intro x q
    refine mem_update_append.trans ?_
    dsimp only
    by_cases hx : x = t
    · subst hx
      simp [hnone q]
    · rw [update_of_ne hx, update_of_ne hx, update_of_ne hx, ← h.queued x q]
      simp [hx]
  case chain => exact h.chain
  case asleep =>
    intro c' x hx
    have hxt : x ≠ t := by
      rintro rfl
      exact hawake c' hx
    obtain ⟨hcpu, hqueued, hst⟩ := h.asleep c' x hx
    exact ⟨(update_of_ne hxt ..).trans hcpu, (update_of_ne hxt ..).trans hqueued, hst⟩

/-- A queued task is taken out of the queue of its CPU and its priority. -/
lemma remove (hon : s.isQueued t = true) :
    Rep (s.removeLocked (s.cpuId t) t) (a.remove (s.cpuId t) (level (s.priority t)) t) := by
  have hlevel := level_lt (s.priority t)
  have hmem : t ∈ a.runs (s.cpuId t, level (s.priority t)) := (h.queued t _).mpr ⟨hon, rfl⟩
  obtain ⟨pre, post, hsplit⟩ := List.append_of_mem hmem
  have hheld := h.held (s.cpuId t, level (s.priority t))
  have hnodup := hheld.linked.nodup
  have herase : (a.runs (s.cpuId t, level (s.priority t))).erase t = pre ++ post := by
    rw [hsplit] at hnodup ⊢
    exact erase_middle hnodup
  rw [hsplit] at hheld
  rw [Scheduler.removeLocked, if_pos hon]
  constructor
  case held =>
    intro q
    by_cases hq : q = (s.cpuId t, level (s.priority t))
    · subst hq
      dsimp only [Queues.remove]
      rw [update_self, update_self, herase]
      exact hheld.remove
    · dsimp only [Queues.remove]
      rw [update_of_ne hq, update_of_ne hq]
      refine ⟨(h.held q).linked.unlink_other hheld.linked ?_, (h.held q).tail⟩
      intro x hx hx'
      rw [← hsplit] at hx
      exact hq (h.queue_eq hx' hx)
  case above =>
    intro c' p hp
    have hne : (c', p) ≠ (s.cpuId t, level (s.priority t)) := by
      rintro heq
      have hsnd : p = level (s.priority t) := congrArg Prod.snd heq
      omega
    exact (update_of_ne hne ..).trans (h.above c' p hp)
  case active =>
    intro c' p
    have hhead : (Links.remove s.rq (s.queues (s.cpuId t, level (s.priority t))) t).2.head = 0 ↔
        pre ++ post = [] := by
      constructor
      · exact hheld.remove.linked.eq_nil
      · intro hnil
        rw [hheld.remove.head_eq, hnil]
        rfl
    change (ite _ (update s.activeQueues _ _) s.activeQueues c').getLsbD p = true ↔
      update a.runs (s.cpuId t, level (s.priority t)) _ (c', p) ≠ []
    rw [herase]
    by_cases hq : (c', p) = (s.cpuId t, level (s.priority t))
    · cases hq
      rw [update_self]
      split
      case isTrue hempty =>
        rw [update_self, getLsbD_clearBit hlevel]
        simp [hhead.mp hempty]
      case isFalse hmore =>
        rw [h.active, hsplit]
        simp [mt hhead.mpr hmore]
    · rw [update_of_ne hq, ← h.active c' p]
      split
      · by_cases hc : c' = s.cpuId t
        · have hp : p ≠ level (s.priority t) := fun heq => hq (Prod.ext hc heq)
          rw [hc, update_self, getLsbD_clearBit hlevel]
          simp [hp]
        · rw [update_of_ne hc]
      · rfl
  case total =>
    apply total_update h.total hlevel
    have hpos : 0 < (a.runs (s.cpuId t, level (s.priority t))).length :=
      List.length_pos_of_mem hmem
    have hle := sum_update_add (Finset.mem_range.mpr hlevel) List.length
      (fun j => a.runs (s.cpuId t, j)) []
    rw [← h.total (s.cpuId t), List.length_nil] at hle
    rw [List.length_erase_of_mem hmem]
    omega
  case queued =>
    intro x q
    have hiff : x ∈ (a.remove (s.cpuId t) (level (s.priority t)) t).runs q ↔
        x ∈ a.runs q ∧ x ≠ t := by
      dsimp only [Queues.remove]
      by_cases hq : q = (s.cpuId t, level (s.priority t))
      · rw [hq, update_self, hnodup.mem_erase_iff, and_comm]
      rw [update_of_ne hq]
      refine (and_iff_left_of_imp ?_).symm
      rintro hx rfl
      exact hq (h.queue_eq hx hmem)
    rw [hiff, h.queued x q]
    by_cases hx : x = t
    · simp [hx]
    · simp [hx]
  case chain => exact h.chain
  case asleep =>
    intro c' x hx
    obtain ⟨hcpu, hqueued, hst⟩ := h.asleep c' x hx
    have hxt : x ≠ t := by
      rintro rfl
      exact h.not_queued_of_asleep hx _ hmem
    exact ⟨hcpu, (update_of_ne hxt ..).trans hqueued, hst⟩

lemma setState (t : Nat) (state : ProcessState)
    (hawake : state = .blocked → ∀ c, t ∉ a.sleepers c) :
    Rep { s with state := update s.state t state } a := by
  refine { h with asleep := fun c x hx => ?_ }
  obtain ⟨hcpu, hqueued, hst⟩ := h.asleep c x hx
  refine ⟨hcpu, hqueued, ?_⟩
  change update s.state t state x ≠ .blocked
  simp only [update_apply]
  split_ifs with hxt
  · subst hxt
    intro hblk
    exact hawake hblk c hx
  · exact hst

lemma ready (ht : t ≠ 0) (hawake : ∀ c, t ∉ a.sleepers c) (now : BitVec 64) :
    ∃ a', Rep (s.readyLocked c t now) a' ∧ a'.sleepers = a.sleepers := by
  have hready : Rep { s with
      state := update s.state t .ready
      wakeTick := update s.wakeTick t 0 } a :=
    { h.setState t .ready (fun heq => by cases heq) with }
  cases hqueued : s.isQueued t with
  | true =>
    refine ⟨a, ?_, rfl⟩
    rwa [Scheduler.readyLocked, Scheduler.enqueueLocked, if_pos hqueued]
  | false => exact ⟨_, hready.enqueue ht hqueued hawake _ now, rfl⟩

lemma unsleep (hsplit : a.sleepers c = pre ++ t :: post) :
    Rep (s.unsleep c (pre.getLast?.getD 0) t) (a.wake c t) := by
  have hchain := h.chain c
  have hnodup := hchain.nodup
  rw [hsplit] at hchain
  have herase : (a.sleepers c).erase t = pre ++ post := by
    rw [hsplit] at hnodup ⊢
    exact erase_middle hnodup
  refine { h with chain := fun c' => ?_, asleep := fun c' x hx => ?_ }
  · change Chain _ (update s.sleepQueue c _ c') (update a.sleepers c _ c')
    by_cases hc : c' = c
    · rw [hc, update_self, update_self, herase]
      exact hchain.cut_chain
    rw [update_of_ne hc, update_of_ne hc]
    apply (h.chain c').congr
    intro x hx
    apply hchain.cut_other
    rw [← hsplit]
    intro hx'
    exact hc ((h.asleep c' x hx).1.symm.trans (h.asleep c x hx').1)
  · exact h.asleep c' x (mem_of_mem_update List.erase_subset hx)

lemma not_asleep_wake (hcpu : s.cpuId t = c) (c' : Nat) : t ∉ (a.wake c t).sleepers c' := by
  dsimp only [Queues.wake]
  simp only [update_apply]
  split_ifs with hc
  · rw [(h.chain c).nodup.mem_erase_iff]
    exact fun hx => hx.1 rfl
  · intro hx
    exact hc ((h.asleep c' t hx).1.symm.trans hcpu)

lemma wakeLocked (ht : t ≠ 0) (hcpu : s.state t = .sleeping → s.cpuId t = c)
    (hok : s.wakeLocked rounds c t now = some s') : ∃ a', Rep s' a' := by
  unfold Scheduler.wakeLocked at hok
  split at hok
  case isTrue hsleep =>
    obtain ⟨found, hdrop, rfl⟩ := map_eq_some_iff.mp hok
    have hhead : s.sleepQueue c = (a.sleepers c).head?.getD 0 := (h.chain c).head_eq
    nth_rewrite 2 [hhead] at hdrop
    obtain ⟨hnone, rfl⟩ | ⟨pre, post, hsplit, rfl⟩ :=
      Chain.drop_eq [] (h.chain c) List.not_mem_nil hdrop
    · have hawake : ∀ c, t ∉ a.sleepers c := by
        intro c hmem
        rw [← (h.asleep c t hmem).1, hcpu hsleep] at hmem
        exact hnone hmem
      obtain ⟨a', h', -⟩ := h.ready (c := c) ht hawake now
      refine ⟨a', ?_⟩
      rwa [update_eq_self]
    · have hcut := h.unsleep hsplit
      obtain ⟨a', h', -⟩ := hcut.ready (c := c) ht (h.not_asleep_wake (hcpu hsleep)) now
      exact ⟨a', h'⟩
  · split at hok
    case isTrue hblk =>
      have hawake (c : Nat) : t ∉ a.sleepers c := fun hx => (h.asleep c t hx).2.2 hblk
      obtain ⟨a', h', -⟩ := h.ready (c := c) ht hawake now
      cases hok
      exact ⟨a', h'⟩
    · cases hok
      exact ⟨a, h⟩

/-- The section of `sched_remove` that knows the CPU of a queued task. -/
lemma removeLocked (hcpu : s.isQueued t = true → s.cpuId t = c) :
    ∃ a', Rep (s.removeLocked c t) a' ∧ a'.sleepers = a.sleepers := by
  cases hqueued : s.isQueued t with
  | true =>
    have hc := hcpu hqueued
    subst hc
    exact ⟨_, h.remove hqueued, rfl⟩
  | false =>
    refine ⟨a, ?_, rfl⟩
    rw [Scheduler.removeLocked, if_neg (by rw [hqueued]; exact Bool.false_ne_true)]
    exact h

end Rep

namespace Scheduler

variable (s : Scheduler) (c t : Nat)

@[simp] lemma removeLocked_cpuId : (s.removeLocked c t).cpuId = s.cpuId := by
  unfold removeLocked
  split <;> rfl

@[simp] lemma removeLocked_state : (s.removeLocked c t).state = s.state := by
  unfold removeLocked
  split <;> rfl

@[simp] lemma removeLocked_isQueued :
    (s.removeLocked c t).isQueued = update s.isQueued t false := by
  unfold removeLocked
  split_ifs with hoff
  · rfl
  · rw [← Bool.eq_false_iff.mpr hoff, update_eq_self]

end Scheduler

namespace Rep

variable {s : Scheduler} {a : Queues} {c t p : Nat} (h : Rep s a)
include h

section
variable (ht : t ≠ 0) (hawake : ∀ c, t ∉ a.sleepers c) (hcpu : s.cpuId t = c)
include ht hawake hcpu

lemma sleep (hoff : s.isQueued t = false) (hst : s.state t ≠ .blocked) :
    Rep { s with
      sleepNext := update s.sleepNext t (s.sleepQueue c)
      sleepQueue := update s.sleepQueue c t } (a.sleep c t) := by
  have hkept (c' h' : Nat) (hchain : Chain s.sleepNext h' (a.sleepers c')) :
      Chain (update s.sleepNext t (s.sleepQueue c)) h' (a.sleepers c') :=
    hchain.congr fun x hx => update_of_ne (fun heq : x = t => hawake c' (heq ▸ hx)) ..
  refine { h with chain := fun c' => ?_, asleep := fun c' x hx => ?_ }
  · dsimp only [Queues.sleep]
    simp only [update_apply]
    split_ifs with hc
    · subst hc
      refine ⟨rfl, ht, ?_⟩
      rw [update_self]
      exact hkept c' _ (h.chain c')
    · exact hkept c' _ (h.chain c')
  · dsimp only [Queues.sleep] at hx
    simp only [update_apply] at hx
    split_ifs at hx with hc
    · obtain rfl | hx := List.mem_cons.mp hx
      · exact ⟨hcpu.trans hc.symm, hoff, hst⟩
      · exact hc ▸ h.asleep c x hx
    · exact h.asleep c' x hx

lemma sleepLocked (ticks now : BitVec 64) : ∃ a', Rep (s.sleepLocked c t ticks now) a' := by
  have hslept : Rep { s with
      state := update s.state t .sleeping
      wakeTick := update s.wakeTick t (Scheduler.wakeTime now ticks) } a :=
    { h.setState t .sleeping (fun heq => by cases heq) with }
  obtain ⟨a', h', hsame⟩ := hslept.removeLocked (c := c) fun _ => hcpu
  rw [← hsame] at hawake
  exact ⟨_, h'.sleep ht hawake (by simpa using hcpu) (by simp) (by simp)⟩

end

lemma scanLocked (hsplit : a.sleepers c = pre ++ l)
    (hok : Scheduler.scanLocked c now clock rounds s (pre.getLast?.getD 0) (l.head?.getD 0) =
      some s') : ∃ a', Rep s' a' := by
  induction rounds generalizing s a pre l with
  | zero =>
    simp only [Scheduler.scanLocked] at hok
    split at hok
    · cases hok
      exact ⟨a, h⟩
    · cases hok
  | succ rounds ih =>
    simp only [Scheduler.scanLocked] at hok
    cases l with
    | nil =>
      cases hok
      exact ⟨a, h⟩
    | cons t l =>
      have hchain := h.chain c
      rw [hsplit] at hchain
      have ht : t ≠ 0 := hchain.ne_zero (by simp)
      have hnext : s.sleepNext t = l.head?.getD 0 := hchain.behind.head_eq
      rw [List.head?_cons, getD_some, if_neg ht, hnext] at hok
      split at hok
      · have hcpu : s.cpuId t = c := (h.asleep c t (by rw [hsplit]; simp)).1
        obtain ⟨a', h', hsame⟩ :=
          (h.unsleep hsplit).ready (c := c) ht (h.not_asleep_wake hcpu) (clock t)
        refine ih h' ?_ hok
        rw [hsame]
        dsimp only [Queues.wake]
        rw [update_self, hsplit, erase_middle hchain.nodup]
      · have hmoved : a.sleepers c = pre ++ [t] ++ l := by
          rw [hsplit, List.append_assoc, List.singleton_append]
        apply ih h hmoved
        rwa [List.getLast?_concat, getD_some]

lemma remove_head (hne : (s.queues (c, p)).head ≠ 0) :
    ∃ a', Rep (s.removeLocked c (s.queues (c, p)).head) a' := by
  have hmem : (s.queues (c, p)).head ∈ a.runs (c, p) :=
    (h.held (c, p)).linked.next_eq_zero_or_mem.resolve_left hne
  obtain ⟨a', h', -⟩ := h.removeLocked (c := c) fun _ =>
    (congrArg Prod.fst (h.home_of_mem hmem)).symm
  exact ⟨a', h'⟩

lemma remove_tail (hne : (s.queues (c, p)).tail ≠ 0) :
    ∃ a', Rep (s.removeLocked c (s.queues (c, p)).tail) a' := by
  have hmem : (s.queues (c, p)).tail ∈ a.runs (c, p) := (h.held (c, p)).tail_mem hne
  obtain ⟨a', h', -⟩ := h.removeLocked (c := c) fun _ =>
    (congrArg Prod.fst (h.home_of_mem hmem)).symm
  exact ⟨a', h'⟩

lemma pickLocked (now : BitVec 64) : ∃ a', Rep (s.pickLocked c now).1 a' := by
  unfold Scheduler.pickLocked
  dsimp only
  split
  case h_1 p hfind =>
    have hstarved := List.find?_some hfind
    apply h.remove_head
    simp only [Scheduler.starved, Bool.and_eq_true, decide_eq_true_eq] at hstarved
    exact hstarved.2.1.1
  · split
    · exact ⟨a, h⟩
    case isFalse hfront =>
      obtain ⟨-, hfront⟩ := not_or.mp hfront
      obtain ⟨a', h'⟩ := h.remove_head hfront
      exact ⟨a', { h' with }⟩

lemma stealLocked (victim : Nat) : ∃ a', Rep (s.stealLocked c victim).1 a' := by
  unfold Scheduler.stealLocked
  dsimp only
  split_ifs with hback
  · exact h.remove_tail hback.2.1
  · exact ⟨a, h⟩

end Rep

end Singularity.Process
