import Singularity.Foundation.Census
import Singularity.Foundation.LinkedList
import Mathlib.Data.List.TakeWhile

/-!
# Wait queues and the threads in them

A wait queue links its tasks by their `wait_next` fields. A thread that blocks is appended to a
queue; another thread pops it, skipping tasks that are dead, and wakes it after the lock of the
queue's owner is released. Locks, semaphores and channels share this part: a thread is in a role
of its own, is waiting, is woken and about to check again, or is about to wake a task.
-/

namespace Singularity.Process

open Foundation Function List Nat

inductive ProcessState where
  | ready
  | running
  | zombie
  | dead
  | blocked
  | sleeping
  deriving DecidableEq

/-- The state and the `wait_next` field of each task. -/
structure Tasks where
  state : Nat → ProcessState
  waitNext : Nat → Nat

namespace Tasks

def setState (ts : Tasks) (t : Nat) (state : ProcessState) : Tasks :=
  { ts with state := Function.update ts.state t state }

/-- The tasks that `wait_queue_pop_safe` skips. -/
def gone (ts : Tasks) (t : Nat) : Bool :=
  decide (ts.state t = .zombie) || decide (ts.state t = .dead)

end Tasks

def waitQueuePush (ts : Tasks) (q : Ends) (task : Nat) : Tasks × Ends :=
  ({ ts with waitNext := (q.append ts.waitNext task).1 }, (q.append ts.waitNext task).2)

/-- What `wait_queue_pop_safe` returns and leaves. -/
structure Popped where
  task : Nat
  skipped : Nat
  tasks : Tasks
  queue : Ends

/-- The loop of `wait_queue_pop_safe`, for so many rounds. -/
def waitQueuePopSafe : Nat → Tasks → Ends → Nat → Option Popped
  | 0, ts, q, skipped => if q.head = 0 then some ⟨0, skipped, ts, q⟩ else none
  | rounds + 1, ts, q, skipped =>
    if q.head = 0 then some ⟨0, skipped, ts, q⟩
    else
      let ts' := { ts with waitNext := Function.update ts.waitNext q.head 0 }
      if ts.gone q.head then waitQueuePopSafe rounds ts' (q.rest ts.waitNext) (skipped + 1)
      else some ⟨q.head, skipped, ts', q.rest ts.waitNext⟩

section
variable {ts : Tasks} {q : Ends} {l : List Nat} {rounds a : Nat} (skipped : Nat)

lemma Holds.pop (hq : q.Holds ts.waitNext (a :: l)) :
    (q.rest ts.waitNext).Holds (update ts.waitNext a 0) l := by
  apply hq.rest.congr
  intro x hx
  apply update_of_ne
  rintro rfl
  exact (nodup_cons.mp hq.chain.nodup).1 hx

/-- What is popped from a queue: the first task that is not dead, and those before it. -/
structure PoppedFrom (ts : Tasks) (l : List Nat) (skipped : Nat) (r : Popped) : Prop where
  task : r.task = ((l.dropWhile ts.gone).head?).getD 0
  skipped : r.skipped = skipped + (l.takeWhile ts.gone).length
  queue : r.queue.Holds r.tasks.waitNext (l.dropWhile ts.gone).tail
  state : r.tasks.state = ts.state
  others : ∀ x ∉ l, r.tasks.waitNext x = ts.waitNext x

variable (hq : q.Holds ts.waitNext l)
include hq

lemma waitQueuePopSafe_returns (hrounds : l.length ≤ rounds) :
    ∃ r, waitQueuePopSafe rounds ts q skipped = some r ∧ PoppedFrom ts l skipped r := by
  induction l generalizing ts q rounds skipped with
  | nil =>
    have h0 : q.head = 0 := hq.head_eq_zero.mpr rfl
    refine ⟨⟨0, skipped, ts, q⟩, ?_, rfl, rfl, hq, rfl, fun _ _ => rfl⟩
    cases rounds <;> simp [waitQueuePopSafe, h0]
  | cons a l ih =>
    have hhead : q.head = a := hq.head_eq
    have hne : a ≠ 0 := hq.chain.ne_zero mem_cons_self
    obtain ⟨rounds, rfl⟩ := exists_eq_succ_of_ne_zero
      (Nat.ne_of_gt ((succ_pos l.length).trans_le hrounds))
    let ts' : Tasks := { ts with waitNext := update ts.waitNext a 0 }
    have hrest : (q.rest ts.waitNext).Holds ts'.waitNext l := Holds.pop hq
    simp only [waitQueuePopSafe, hhead, if_neg hne]
    cases hgone : ts.gone a with
    | true =>
      obtain ⟨r, hok, hr⟩ := ih (skipped + 1) hrest (le_of_succ_le_succ hrounds)
      refine ⟨r, hok, ?_, ?_, ?_, hr.state, fun x hx => ?_⟩
      · rw [hr.task, dropWhile_cons_of_pos hgone]
        rfl
      · rw [hr.skipped, takeWhile_cons_of_pos hgone, length_cons]
        change skipped + 1 + (l.takeWhile ts.gone).length = _
        omega
      · rw [dropWhile_cons_of_pos hgone]
        exact hr.queue
      · rw [hr.others x (not_mem_of_not_mem_cons hx)]
        exact update_of_ne (ne_of_not_mem_cons hx) ..
    | false =>
      have hkept : ¬ts.gone a = true := by simp [hgone]
      refine ⟨_, rfl, ?_, ?_, ?_, rfl, fun x hx => ?_⟩
      · rw [dropWhile_cons_of_neg hkept]
        rfl
      · rw [takeWhile_cons_of_neg hkept]
        rfl
      · rwa [dropWhile_cons_of_neg hkept]
      · exact update_of_ne (ne_of_not_mem_cons hx) ..

variable {r : Popped}

omit hq in
lemma waitQueuePopSafe_mono (hle : rounds ≤ more)
    (hok : waitQueuePopSafe rounds ts q skipped = some r) :
    waitQueuePopSafe more ts q skipped = some r := by
  induction rounds generalizing ts q skipped more with
  | zero =>
    simp only [waitQueuePopSafe] at hok
    split at hok
    case isTrue h0 =>
      cases more <;> simp only [waitQueuePopSafe, if_pos h0] <;> exact hok
    · cases hok
  | succ rounds ih =>
    obtain ⟨more, rfl⟩ := exists_eq_succ_of_ne_zero
      (Nat.ne_of_gt ((succ_pos rounds).trans_le hle))
    simp only [waitQueuePopSafe] at hok ⊢
    split at hok
    case isTrue h0 =>
      rwa [if_pos h0]
    case isFalse hne =>
      rw [if_neg hne]
      split at hok
      case isTrue hgone =>
        rw [if_pos hgone]
        exact ih (skipped + 1) (le_of_succ_le_succ hle) hok
      case isFalse hkept =>
        rwa [if_neg hkept]

lemma poppedFrom
    (hok : waitQueuePopSafe rounds ts q skipped = some r) : PoppedFrom ts l skipped r := by
  obtain ⟨r', hok', hr⟩ := waitQueuePopSafe_returns skipped hq (le_max_right rounds l.length)
  have hsame := waitQueuePopSafe_mono skipped (le_max_left rounds l.length) hok
  cases hsame.symm.trans hok'
  exact hr

variable (hr : PoppedFrom ts l skipped r)
include hr

lemma PoppedFrom.task_ne_zero
    (hlive : ∃ t ∈ l, ts.gone t = false) : r.task ≠ 0 ∧ r.task ∈ l ∧ ts.gone r.task = false := by
  obtain ⟨t, ht, hkept⟩ := hlive
  have hne : l.dropWhile ts.gone ≠ [] := by
    intro hnil
    have hall := dropWhile_eq_nil_iff.mp hnil t ht
    rw [hkept] at hall
    cases hall
  have hhead : (l.dropWhile ts.gone).head? = some ((l.dropWhile ts.gone).head hne) :=
    head?_eq_some_head hne
  have hmem : (l.dropWhile ts.gone).head hne ∈ l :=
    dropWhile_sublist _ |>.subset (head_mem hne)
  rw [hr.task, hhead, Option.getD_some]
  refine ⟨hq.chain.ne_zero hmem, hmem, ?_⟩
  exact head_dropWhile_not ts.gone hne

lemma PoppedFrom.rest_eq_nil (h0 : r.task = 0) :
    (∀ t ∈ l, ts.gone t = true) ∧ (l.dropWhile ts.gone).tail = [] ∧
      r.skipped = skipped + l.length := by
  have hall : ∀ t ∈ l, ts.gone t = true := by
    intro t ht
    by_contra hkept
    exact (hr.task_ne_zero skipped hq ⟨t, ht, Bool.eq_false_iff.mpr hkept⟩).1 h0
  have hnil : l.dropWhile ts.gone = [] := dropWhile_eq_nil_iff.mpr hall
  refine ⟨hall, by rw [hnil]; rfl, ?_⟩
  rw [hr.skipped, takeWhile_eq_self_iff.mpr hall]

lemma PoppedFrom.length_add :
    (l.dropWhile ts.gone).tail.length + (if r.task = 0 then 0 else 1) + r.skipped =
      skipped + l.length := by
  by_cases h0 : r.task = 0
  · obtain ⟨-, hnil, hskipped⟩ := hr.rest_eq_nil skipped hq h0
    rw [hnil, if_pos h0, hskipped, length_nil, Nat.zero_add]
  have hne : l.dropWhile ts.gone ≠ [] := by
    intro hnil
    rw [hr.task, hnil] at h0
    exact h0 rfl
  have hpos := length_pos_iff.mpr hne
  have hsplit := congrArg List.length (takeWhile_append_dropWhile (p := ts.gone) (l := l))
  rw [length_append] at hsplit
  rw [if_neg h0, hr.skipped, length_tail]
  omega

end

/-- What a thread does: something of its own, waiting, checking again after it was woken, or
waking a task that it has popped from a queue. -/
inductive Pc (ρ ω κ : Type) where
  | run (role : ρ)
  | waiting (why : ω)
  | woken (why : ω)
  | waking (queue : κ) (task : Nat) (role : ρ)
  deriving DecidableEq

/-- The tasks, some wait queues and what each thread does; threads are named by their tasks. -/
structure Parking (ρ ω κ : Type) where
  tasks : Tasks
  queue : κ → Ends
  pc : Nat → Pc ρ ω κ

namespace Parking

variable {ρ ω κ : Type}

def boot (role : ρ) : Parking ρ ω κ :=
  ⟨⟨fun _ => .running, fun _ => 0⟩, fun _ => .empty, fun _ => .run role⟩

def goOn (s : Parking ρ ω κ) (t : Nat) (role : ρ) : Parking ρ ω κ :=
  { s with
    tasks := s.tasks.setState t .running
    pc := Function.update s.pc t (.run role) }

/-- The state is set to blocked and the task is pushed, under the lock of the owner. -/
def park [DecidableEq κ] (s : Parking ρ ω κ) (t : Nat) (q : κ) (why : ω) : Parking ρ ω κ :=
  let pushed := waitQueuePush (s.tasks.setState t .blocked) (s.queue q) t
  ⟨pushed.1, Function.update s.queue q pushed.2, Function.update s.pc t (.waiting why)⟩

/-- Pop a task; the thread wakes it afterwards, if there is one, and goes on in its role. -/
def pop [DecidableEq κ] (rounds : Nat) (s : Parking ρ ω κ) (t : Nat) (q : κ) (role : ρ) :
    Option (Popped × Parking ρ ω κ) :=
  (waitQueuePopSafe rounds s.tasks (s.queue q) 0).map fun r =>
    (r, ⟨r.tasks, Function.update s.queue q r.queue,
      Function.update s.pc t (if r.task = 0 then .run role else .waking q r.task role)⟩)

/-- `sched_wake_task`, but for the run queue. -/
def schedWakeTask (s : Parking ρ ω κ) (t : Nat) : Parking ρ ω κ :=
  if s.tasks.state t = .sleeping ∨ s.tasks.state t = .blocked then
    { s with
      tasks := s.tasks.setState t .ready
      pc := Function.update s.pc t (match s.pc t with
        | .waiting why => .woken why
        | pc => pc) }
  else s

/-- The thread wakes the task that it has popped. -/
def wake (s : Parking ρ ω κ) (t : Nat) : Parking ρ ω κ :=
  match s.pc t with
  | .waking _ task role =>
    let s := s.schedWakeTask task
    { s with pc := Function.update s.pc t (.run role) }
  | _ => s

/-- The thread has popped a task that it has not woken yet. -/
def Waking (s : Parking ρ ω κ) (t : Nat) : Prop :=
  ∃ q task role, s.pc t = .waking q task role

instance (s : Parking ρ ω κ) (t : Nat) : Decidable (s.Waking t) :=
  match h : s.pc t with
  | .waking q task role => isTrue ⟨q, task, role, h⟩
  | .run _ => isFalse fun ⟨_, _, _, h'⟩ => by cases h.symm.trans h'
  | .waiting _ => isFalse fun ⟨_, _, _, h'⟩ => by cases h.symm.trans h'
  | .woken _ => isFalse fun ⟨_, _, _, h'⟩ => by cases h.symm.trans h'

/-- The queues hold the tasks of `l`, which are waiting; a task that was popped is waiting until
the one thread that has popped it wakes it. -/
structure Parked (place : ω → κ) (s : Parking ρ ω κ) (l : κ → List Nat) : Prop where
  holds : ∀ q, (s.queue q).Holds s.tasks.waitNext (l q)
  queued : ∀ q, ∀ t ∈ l q, ∃ why, s.pc t = .waiting why ∧ place why = q
  state : ∀ q, ∀ t ∈ l q, s.tasks.state t = .blocked ∨ s.tasks.state t = .zombie
  popped : ∀ t q task role, s.pc t = .waking q task role →
    s.tasks.state task = .blocked ∧ task ∉ l q ∧ ∃ why, s.pc task = .waiting why ∧ place why = q
  once : ∀ t t' q q' task role role', s.pc t = .waking q task role →
    s.pc t' = .waking q' task role' → t = t'

variable {place : ω → κ} {s s' : Parking ρ ω κ} {l : κ → List Nat} {t : Nat} {q q' : κ} {role : ρ}
  {why : ω}

lemma schedWakeTask_pc (task : Nat) (ht : ∀ why, s.pc t ≠ .waiting why) :
    (s.schedWakeTask task).pc t = s.pc t := by
  unfold schedWakeTask
  split
  case isFalse => rfl
  case isTrue =>
    by_cases heq : t = task
    · subst heq
      dsimp only
      rw [update_self]
      cases hpc : s.pc t with
      | waiting why => exact absurd hpc (ht why)
      | _ => rfl
    · exact update_of_ne heq ..

lemma Parked.boot (role : ρ) : Parked place (boot role) (fun _ => []) where
  holds q := Ends.holds_empty _
  queued q t ht := by cases ht
  state q t ht := by cases ht
  popped t q task role h := by cases h
  once t t' q q' task role role' h := by cases h

variable (hs : Parked place s l) (ht : ∀ why, s.pc t ≠ .waiting why)

include hs ht in
lemma Parked.free : (∀ q, t ∉ l q) ∧ ∀ t' q role, s.pc t' ≠ .waking q t role := by
  constructor
  · intro q hmem
    obtain ⟨why, hpc, -⟩ := hs.queued q t hmem
    exact ht why hpc
  · intro t' q role hpc
    obtain ⟨-, -, why, hwhy, -⟩ := hs.popped t' q t role hpc
    exact ht why hwhy

include hs in
lemma Parked.place_unique (ht : t ∈ l q) (ht' : t ∈ l q') : q = q' := by
  obtain ⟨why, hpc, rfl⟩ := hs.queued q t ht
  obtain ⟨why', hpc', rfl⟩ := hs.queued q' t ht'
  cases hpc.symm.trans hpc'
  rfl

section
include hs ht

/-- A thread that is not waiting does something else; queues and other tasks are as before. -/
lemma Parked.update {pc : Pc ρ ω κ}
    (hnew : ∀ q task role, pc ≠ .waking q task role) (hqueue : s'.queue = s.queue)
    (hnext : s'.tasks.waitNext = s.tasks.waitNext) (hpc : s'.pc = update s.pc t pc)
    (hst : ∀ t' ≠ t, s'.tasks.state t' = s.tasks.state t') : Parked place s' l := by
  obtain ⟨hfree, hnone⟩ := hs.free ht
  have hold {t' : Nat} (hne : t' ≠ t) : s'.pc t' = s.pc t' := by
    rw [hpc, update_of_ne hne]
  have hwaking {t' task : Nat} {q : κ} {role : ρ} (hw : s'.pc t' = .waking q task role) :
      s.pc t' = .waking q task role := by
    by_cases heq : t' = t
    · rw [heq, hpc, update_self] at hw
      exact absurd hw (hnew q task role)
    · rwa [← hold heq]
  refine ⟨fun q => ?_, fun q t' ht' => ?_, fun q t' ht' => ?_, fun t' q task role' hw => ?_,
    fun t1 t2 q q' task r r' hw hw' => ?_⟩
  · rw [hqueue, hnext]
    exact hs.holds q
  · rw [hold fun heq => hfree q (heq ▸ ht')]
    exact hs.queued q t' ht'
  · rw [hst t' fun heq => hfree q (heq ▸ ht')]
    exact hs.state q t' ht'
  · have hw := hwaking hw
    have hne : task ≠ t := fun heq => hnone t' q role' (heq ▸ hw)
    rw [hst task hne, hold hne]
    exact hs.popped t' q task role' hw
  · exact hs.once t1 t2 q q' task r r' (hwaking hw) (hwaking hw')

lemma Parked.goOn : Parked place (s.goOn t role) l :=
  hs.update ht (by simp) rfl rfl rfl fun _ hne => update_of_ne hne ..

end

section
variable [DecidableEq κ]

section
variable (hs : Parked place s l) (ht : ∀ why, s.pc t ≠ .waiting why)
include hs ht

/-- A thread that blocks is behind the others. -/
lemma Parked.park (hne : t ≠ 0) (hplace : place why = q) :
    Parked place (s.park t q why) (Function.update l q (l q ++ [t])) := by
  obtain ⟨hfree, hnone⟩ := hs.free ht
  have hmem {q' : κ} {t' : Nat} (ht' : t' ∈ Function.update l q (l q ++ [t]) q') :
      (t' = t ∧ q' = q) ∨ (t' ≠ t ∧ t' ∈ l q') :=
    (mem_update_append.mp ht').imp_right fun hold => ⟨fun heq => hfree q' (heq ▸ hold), hold⟩
  have hpc {t' : Nat} (hne : t' ≠ t) : (s.park t q why).pc t' = s.pc t' :=
    update_of_ne hne ..
  have hst {t' : Nat} (hne : t' ≠ t) : (s.park t q why).tasks.state t' = s.tasks.state t' :=
    update_of_ne hne ..
  have hwaking {t' task : Nat} {q' : κ} {role : ρ}
      (hw : (s.park t q why).pc t' = .waking q' task role) :
      task ≠ t ∧ s.pc t' = .waking q' task role := by
    have hne : t' ≠ t := by
      rintro rfl
      have hself : (s.park t' q why).pc t' = .waiting why := update_self ..
      cases hself.symm.trans hw
    rw [hpc hne] at hw
    exact ⟨fun heq => hnone t' q' role (heq ▸ hw), hw⟩
  refine ⟨fun q' => ?_, fun q' t' ht' => ?_, fun q' t' ht' => ?_, fun t' q' task role' hw => ?_,
    fun t1 t2 q1 q2 task r r' hw hw' => ?_⟩
  · by_cases heq : q' = q
    · subst heq
      have hqueue : (s.park t q' why).queue q' = ((s.queue q').append s.tasks.waitNext t).2 :=
        update_self ..
      rw [hqueue, update_self]
      exact (hs.holds q').append hne (hfree q')
    · have hqueue : (s.park t q why).queue q' = s.queue q' := update_of_ne heq ..
      rw [hqueue, update_of_ne heq]
      apply (hs.holds q').congr
      intro x hx
      exact (hs.holds q).append_other (fun hxt => hfree q' (hxt ▸ hx))
        (fun hxq => heq (hs.place_unique hx hxq))
  · obtain ⟨rfl, rfl⟩ | ⟨hold, ht'⟩ := hmem ht'
    · exact ⟨why, update_self .., hplace⟩
    · rw [hpc hold]
      exact hs.queued q' t' ht'
  · obtain ⟨rfl, rfl⟩ | ⟨hold, ht'⟩ := hmem ht'
    · exact .inl (update_self ..)
    · rw [hst hold]
      exact hs.state q' t' ht'
  · obtain ⟨hother, hw⟩ := hwaking hw
    obtain ⟨hblk, hnot, hwhy⟩ := hs.popped t' q' task role' hw
    rw [hst hother, hpc hother]
    refine ⟨hblk, fun hin => ?_, hwhy⟩
    obtain ⟨heq, -⟩ | ⟨-, hin⟩ := hmem hin
    · exact hother heq
    · exact hnot hin
  · exact hs.once t1 t2 q1 q2 task r r' (hwaking hw).2 (hwaking hw').2

/-- What a thread pops, and the queue that it leaves. -/
lemma Parked.pop (hok : s.pop rounds t q role = some (r, s')) :
    PoppedFrom s.tasks (l q) 0 r ∧
      Parked place s' (Function.update l q ((l q).dropWhile s.tasks.gone).tail) ∧
      s'.tasks.state = s.tasks.state ∧
      s'.pc = Function.update s.pc t
        (if r.task = 0 then .run role else .waking q r.task role) := by
  obtain ⟨r', hr', ⟨⟩⟩ := Option.map_eq_some_iff.mp hok
  have hr := poppedFrom 0 (hs.holds q) hr'
  refine ⟨hr, ?_, hr.state, rfl⟩
  obtain ⟨hfree, hnone⟩ := hs.free ht
  have hsub : ((l q).dropWhile s.tasks.gone).tail ⊆ l q := fun x hx =>
    (dropWhile_sublist _).subset (mem_of_mem_tail hx)
  have hmem {q' : κ} {t' : Nat}
      (ht' : t' ∈ Function.update l q ((l q).dropWhile s.tasks.gone).tail q') : t' ∈ l q' :=
    mem_of_mem_update hsub ht'
  -- the task that was popped was in the queue and is not in it any more
  have hpopped (hne : r.task ≠ 0) : r.task ∈ l q ∧ s.tasks.state r.task = .blocked ∧
      r.task ∉ ((l q).dropWhile s.tasks.gone).tail := by
    have htask := hr.task
    cases hdrop : (l q).dropWhile s.tasks.gone with
    | nil =>
      rw [hdrop] at htask
      exact absurd htask hne
    | cons a rest =>
      rw [hdrop] at htask
      have ha : r.task = a := htask
      have hsublist := dropWhile_sublist s.tasks.gone (l := l q)
      rw [hdrop] at hsublist
      have hin : a ∈ l q := hsublist.subset mem_cons_self
      have hkept : s.tasks.gone a = false := by
        have hhead := head_dropWhile_not s.tasks.gone (l := l q) (by simp [hdrop])
        simpa [hdrop] using hhead
      have hblk : s.tasks.state a = .blocked := by
        refine (hs.state q a hin).resolve_right fun hzombie => ?_
        simp [Tasks.gone, hzombie] at hkept
      rw [ha]
      exact ⟨hin, hblk, (nodup_cons.mp (hsublist.nodup (hs.holds q).chain.nodup)).1⟩
  have hpc {t' : Nat} (hne : t' ≠ t) : Function.update s.pc t
      (if r.task = 0 then .run role else .waking q r.task role) t' = s.pc t' :=
    update_of_ne hne ..
  have hwaking {t' task : Nat} {q' : κ} {role' : ρ} (hw : Function.update s.pc t
      (if r.task = 0 then .run role else .waking q r.task role) t' = .waking q' task role') :
      (t' = t ∧ q' = q ∧ task = r.task ∧ r.task ≠ 0) ∨
        (t' ≠ t ∧ s.pc t' = .waking q' task role') := by
    by_cases heq : t' = t
    · rw [heq, update_self] at hw
      split at hw <;> cases hw
      exact .inl ⟨heq, rfl, rfl, ‹_›⟩
    · exact .inr ⟨heq, (hpc heq).symm.trans hw⟩
  refine ⟨fun q' => ?_, fun q' t' ht' => ?_, fun q' t' ht' => ?_, fun t' q' task role' hw => ?_,
    fun t1 t2 q1 q2 task r1 r2 hw hw' => ?_⟩
  · simp only [update_apply]
    split_ifs with heq
    · exact hr.queue
    · exact (hs.holds q').congr fun x hx =>
        hr.others x fun hxq => heq (hs.place_unique hx hxq)
  · have hold := hmem ht'
    change ∃ why, Function.update s.pc t _ t' = _ ∧ _
    rw [hpc fun heq => hfree q' (heq ▸ hold)]
    exact hs.queued q' t' hold
  · rw [hr.state]
    exact hs.state q' t' (hmem ht')
  · rw [hr.state]
    change _ ∧ _ ∧ ∃ why, Function.update s.pc t _ task = _ ∧ _
    obtain ⟨-, rfl, rfl, hne⟩ | ⟨-, hw⟩ := hwaking hw
    · obtain ⟨hin, hblk, hout⟩ := hpopped hne
      rw [hpc fun heq => hfree q' (heq ▸ hin), update_self]
      exact ⟨hblk, hout, hs.queued q' r.task hin⟩
    · obtain ⟨hblk, hnot, hwhy⟩ := hs.popped t' q' task role' hw
      rw [hpc fun heq => hnone t' q' role' (heq ▸ hw)]
      exact ⟨hblk, fun hin => hnot (hmem hin), hwhy⟩
  · have hclash {t' : Nat} {q' : κ} {role' : ρ} (hne : r.task ≠ 0)
        (hw : s.pc t' = .waking q' r.task role') : False := by
      obtain ⟨-, hnot, why, hwhy, rfl⟩ := hs.popped t' q' r.task role' hw
      obtain ⟨hin, -⟩ := hpopped hne
      obtain ⟨why', hwhy', rfl⟩ := hs.queued q r.task hin
      cases hwhy.symm.trans hwhy'
      exact hnot hin
    obtain ⟨rfl, -, rfl, hne⟩ | ⟨-, hw⟩ := hwaking hw
    · obtain ⟨heq, -⟩ | ⟨-, hw'⟩ := hwaking hw'
      · exact heq.symm
      · exact (hclash hne hw').elim
    · obtain ⟨-, -, rfl, hne⟩ | ⟨-, hw'⟩ := hwaking hw'
      · exact (hclash hne hw).elim
      · exact hs.once t1 t2 q1 q2 task r1 r2 hw hw'

end

end

variable {task n : Nat} (hpc : s.pc t = .waking q task role)

section
include hs hpc

lemma Parked.wake_eq :
    ∃ why, s.pc task = .waiting why ∧ place why = q ∧ task ≠ t ∧
      (s.wake t).queue = s.queue ∧ (s.wake t).tasks = s.tasks.setState task .ready ∧
      (s.wake t).pc = Function.update (Function.update s.pc task (.woken why)) t (.run role) := by
  obtain ⟨hblk, -, why, hwhy, hplace⟩ := hs.popped t q task role hpc
  refine ⟨why, hwhy, hplace, ?_, ?_⟩
  · rintro rfl
    cases hwhy.symm.trans hpc
  · simp only [wake, hpc, schedWakeTask, hblk, hwhy, or_true, if_true, and_self]

lemma Parked.wake : Parked place (s.wake t) l := by
  obtain ⟨why, hwhy, hplace, hne, hqueue, htasks, hpc'⟩ := hs.wake_eq hpc
  obtain ⟨-, hnot, -⟩ := hs.popped t q task role hpc
  have hfree (q' : κ) : task ∉ l q' := by
    intro hin
    obtain ⟨why', hwhy', rfl⟩ := hs.queued q' task hin
    cases hwhy.symm.trans hwhy'
    exact hnot (hplace ▸ hin)
  have hold {t' : Nat} (htask : t' ≠ task) (ht : t' ≠ t) : (s.wake t).pc t' = s.pc t' := by
    rw [hpc', update_of_ne ht, update_of_ne htask]
  have hwaking {t' task' : Nat} {q' : κ} {role' : ρ}
      (hw : (s.wake t).pc t' = .waking q' task' role') :
      t' ≠ t ∧ s.pc t' = .waking q' task' role' := by
    have ht : t' ≠ t := by
      rintro rfl
      rw [hpc', update_self] at hw
      cases hw
    have htask : t' ≠ task := by
      rintro rfl
      rw [hpc', update_of_ne ht, update_self] at hw
      cases hw
    exact ⟨ht, (hold htask ht).symm.trans hw⟩
  have hwaiting {t' : Nat} {why' : ω} (hw : s.pc t' = .waiting why') : t' ≠ t := by
    rintro rfl
    cases hpc.symm.trans hw
  refine ⟨fun q' => ?_, fun q' t' ht' => ?_, fun q' t' ht' => ?_, fun t' q' task' role' hw => ?_,
    fun t1 t2 q1 q2 task' r1 r2 hw hw' => ?_⟩
  · rw [hqueue, htasks]
    exact hs.holds q'
  · obtain ⟨why', hw, hplace'⟩ := hs.queued q' t' ht'
    rw [hold (fun heq => hfree q' (heq ▸ ht')) (hwaiting hw)]
    exact ⟨why', hw, hplace'⟩
  · rw [htasks, Tasks.setState]
    have hother : t' ≠ task := fun heq => hfree q' (heq ▸ ht')
    simp only [update_of_ne hother]
    exact hs.state q' t' ht'
  · obtain ⟨ht', hw⟩ := hwaking hw
    obtain ⟨hblk, hnot', why', hw', hplace'⟩ := hs.popped t' q' task' role' hw
    have hother : task' ≠ task := by
      rintro rfl
      exact ht' (hs.once t' t q' q task' role' role hw hpc)
    rw [htasks, Tasks.setState, hold hother (hwaiting hw')]
    simp only [update_of_ne hother]
    exact ⟨hblk, hnot', why', hw', hplace'⟩
  · exact hs.once t1 t2 q1 q2 task' r1 r2 (hwaking hw).2 (hwaking hw').2

end

include hs in
lemma Parked.kill (ht : t ∈ l q) :
    Parked place { s with tasks := s.tasks.setState t .zombie } l := by
  refine ⟨hs.holds, hs.queued, fun q' t' ht' => ?_, fun t' q' task role hw => ?_, hs.once⟩
  · by_cases heq : t' = t
    · subst heq
      exact .inr (update_self ..)
    have hst : (s.tasks.setState t .zombie).state t' = s.tasks.state t' :=
      update_of_ne heq ..
    rw [hst]
    exact hs.state q' t' ht'
  · obtain ⟨hblk, hnot, why, hwhy, rfl⟩ := hs.popped t' q' task role hw
    have hne : task ≠ t := by
      rintro rfl
      obtain ⟨why', hwhy', rfl⟩ := hs.queued q task ht
      cases hwhy.symm.trans hwhy'
      exact hnot ht
    exact ⟨(update_of_ne hne ..).trans hblk, hnot, why, hwhy, rfl⟩

/-- The task is in the queue. -/
def Queued (s : Parking ρ ω κ) (q : κ) (t : Nat) : Prop :=
  ∃ l, (s.queue q).Holds s.tasks.waitNext l ∧ t ∈ l

include hs in
lemma Parked.queued_iff : s.Queued q t ↔ t ∈ l q := by
  constructor
  · rintro ⟨l', hl', ht⟩
    rwa [(hs.holds q).chain.unique hl'.chain]
  · exact fun ht => ⟨l q, hs.holds q, ht⟩

/-- Search so many places of the queue for the task. -/
def queued? (hops : Nat) (s : Parking ρ ω κ) (q : κ) (t : Nat) : Bool :=
  let l := walk s.tasks.waitNext hops (s.queue q).head
  decide ((s.queue q).Holds s.tasks.waitNext l ∧ t ∈ l)

lemma queued_of_queued? (h : s.queued? hops q t = true) : s.Queued q t :=
  ⟨_, of_decide_eq_true h⟩

/-- The thread was woken from the queue and has not checked again, or it is about to wake a task
that it has popped from the queue. -/
def OnWay (place : ω → κ) (q : κ) : Pc ρ ω κ → Prop
  | .run _ => False
  | .waiting _ => False
  | .woken why => place why = q
  | .waking q' _ _ => q' = q

include hs hpc in
lemma Parked.census_wake (hn : Census (OnWay place q') s.pc n) :
    Census (OnWay place q') (s.wake t).pc n := by
  obtain ⟨why, hwhy, hplace, hne, -, -, hpc'⟩ := hs.wake_eq hpc
  have hkept : Function.update s.pc task (.woken why) t = .waking q task role :=
    (update_of_ne hne.symm ..).trans hpc
  rw [hpc']
  by_cases heq : q = q'
  · have hmore : Census (OnWay place q') (Function.update s.pc task (.woken why)) (n + 1) :=
      hn.enter (by rw [hwhy]; exact id) (hplace.trans heq)
    exact hmore.leave (by rw [hkept]; exact heq) id
  have hsame : Census (OnWay place q') (Function.update s.pc task (.woken why)) n := by
    apply hn.stay
    rw [hwhy]
    exact ⟨fun h => heq (hplace.symm.trans h), False.elim⟩
  apply hsame.stay
  rw [hkept]
  exact ⟨False.elim, heq⟩

/-- The task was popped from the queue and has not checked again. -/
def Recalled (place : ω → κ) (s : Parking ρ ω κ) (q : κ) (task : Nat) : Prop :=
  (∃ why, s.pc task = .woken why ∧ place why = q) ∨ ∃ t role, s.pc t = .waking q task role

include hs in
/-- There are as many such tasks as threads that are on their way or about to wake one. -/
lemma Parked.recalled (hn : Census (OnWay place q) s.pc n) :
    ∃ tasks : Finset Nat, tasks.card = n ∧ ∀ task, task ∈ tasks ↔ s.Recalled place q task := by
  obtain ⟨threads, rfl, hthreads⟩ := hn
  let task (t : Nat) : Nat := match s.pc t with
    | .waking _ task _ => task
    | _ => t
  have hcase {t : Nat} (ht : t ∈ threads) : (∃ why, s.pc t = .woken why ∧ place why = q ∧
      task t = t) ∨ ∃ role, s.pc t = .waking q (task t) role := by
    have hway := (hthreads t).mp ht
    cases hpc : s.pc t with
    | run role => rw [hpc] at hway; exact hway.elim
    | waiting why => rw [hpc] at hway; exact hway.elim
    | woken why =>
      rw [hpc] at hway
      exact .inl ⟨why, rfl, hway, by simp only [task, hpc]⟩
    | waking q' task' role =>
      rw [hpc] at hway
      have hq : q' = q := hway
      exact .inr ⟨role, by simp only [task, hpc, hq]⟩
  -- a task that is about to be woken is still waiting
  have hclash {t t' : Nat} {why : ω} {role : ρ} (hwoken : s.pc t = .woken why)
      (hwaking : s.pc t' = .waking q t role) : False := by
    obtain ⟨-, -, why', hwhy, -⟩ := hs.popped t' q t role hwaking
    cases hwhy.symm.trans hwoken
  refine ⟨threads.image task, ?_, fun x => ?_⟩
  · apply Finset.card_image_of_injOn
    intro t ht t' ht' heq
    rcases hcase ht with ⟨why, hpc, -, hself⟩ | ⟨role, hpc⟩ <;>
      obtain ⟨why', hpc', -, hself'⟩ | ⟨role', hpc'⟩ := hcase ht'
    · exact hself.symm.trans (heq.trans hself')
    · rw [← heq, hself] at hpc'
      exact (hclash hpc hpc').elim
    · rw [heq, hself'] at hpc
      exact (hclash hpc' hpc).elim
    · rw [heq] at hpc
      exact hs.once t t' q q (task t') role role' hpc hpc'
  · rw [Finset.mem_image]
    constructor
    · rintro ⟨t, ht, rfl⟩
      obtain ⟨why, hpc, hplace, hself⟩ | ⟨role, hpc⟩ := hcase ht
      · exact .inl ⟨why, by rw [hself]; exact hpc, hplace⟩
      · exact .inr ⟨t, role, hpc⟩
    · rintro (⟨why, hpc, hplace⟩ | ⟨t, role, hpc⟩)
      · refine ⟨x, (hthreads x).mpr ?_, by simp only [task, hpc]⟩
        rwa [hpc]
      · refine ⟨t, (hthreads t).mpr ?_, by simp only [task, hpc]⟩
        rw [hpc]
        rfl

end Parking

end Singularity.Process
