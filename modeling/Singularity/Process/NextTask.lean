import Singularity.Process.RunQueues

/-!
# The choice of the next task

The run queues of one CPU are described by one list: the tasks that wait, in the order in which
they were enqueued, each with its level and the tick of that moment. As the tick counter does not
go back, the first task of a level has waited there for the longest time. So `sched_pick_next`
serves a starving task if there is one, and else the task that was enqueued first at the highest
level.
-/

namespace Singularity.Process

open Foundation Function List Scheduler

/-- What happens to the queues of a CPU and to the tick counter. -/
inductive QueueEvent where
  | enqueue (task prio : Nat) (affinity : Int)
  | remove (task : Nat)
  | tick (later : BitVec 64)

/-- A task in a run queue, with the tick of its enqueueing. -/
structure Waiting where
  task : Nat
  level : Nat
  since : BitVec 64

namespace Waiting

def Starves (x : Waiting) (now : BitVec 64) : Prop :=
  x.since.toNat + starvationThreshold.toNat < now.toNat

/-- The run queues of a CPU in which these tasks stand. -/
def queues (cpu : Nat) (w : List Waiting) : Queues where
  runs q := if q.1 = cpu then (w.filter (·.level = q.2)).map task else []
  sleepers _ := []

end Waiting

/-- The scheduler, the tick counter, and the tasks that wait according to the calls so far. -/
structure History where
  sched : Scheduler
  now : BitVec 64
  waiting : List Waiting

/-- `sched_enqueue` and `sched_remove` for one CPU; a null pointer is ignored. -/
def History.perform (cpu : Nat) (h : History) : QueueEvent → History
  | .enqueue task prio affinity =>
    if task = 0 then h
    else
      { h with
        sched := h.sched.enqueueLocked cpu task prio affinity h.now
        waiting :=
          if task ∈ h.waiting.map Waiting.task then h.waiting
          else h.waiting ++ [⟨task, level prio, h.now⟩] }
  | .remove task =>
    if task = 0 then h
    else
      { h with
        sched := h.sched.removeLocked cpu task
        waiting := h.waiting.filter (·.task ≠ task) }
  | .tick later => if h.now ≤ later then { h with now := later } else h

/-- Exactly these tasks stand in the queues of the CPU, at each level in this order. -/
structure Scheduler.Holds (s : Scheduler) (cpu : Nat) (w : List Waiting) : Prop where
  held : ∀ p < prioCount,
    Links.Held s.rq (s.queues (cpu, p)) ((w.filter (·.level = p)).map Waiting.task)
  queued : ∀ t, s.isQueued t = true ↔ t ∈ w.map Waiting.task

/-- What `sched_pick_next` has to do. -/
structure Scheduler.Serves (s : Scheduler) (cpu : Nat) (now : BitVec 64) (w : List Waiting)
    (x : Waiting) : Prop where
  result : (s.pickLocked cpu now).2 = x.task
  found : x.task ≠ 0
  starving : (∃ y ∈ w, y.Starves now) → x.Starves now
  first : (¬∃ y ∈ w, y.Starves now) → w.find? (fun y => ∀ z ∈ w, z.level ≤ y.level) = some x
  rest : (s.pickLocked cpu now).1.Holds cpu (w.filter (·.task ≠ x.task))

lemma highest_spec (hne : aq ≠ 0) :
    aq.getLsbD (Scheduler.highest aq) = true ∧
      ∀ p, aq.getLsbD p = true → p ≤ Scheduler.highest aq := by
  have hnat : aq.toNat ≠ 0 := fun h0 => hne (BitVec.eq_of_toNat_eq h0)
  refine ⟨Nat.testBit_log2 hnat, fun p hp => ?_⟩
  exact (Nat.le_log2 hnat).mpr (Nat.ge_two_pow_of_testBit hp)

/-- The queues hold the tasks that wait, ordered by time. -/
structure Logged (cpu : Nat) (s : Scheduler) (w : List Waiting) : Prop where
  rep : Rep s (Waiting.queues cpu w)
  since : ∀ x ∈ w, s.lastQueued x.task = x.since
  ordered : w.Pairwise fun x y => x.since ≤ y.since

namespace Logged

variable {cpu : Nat} {s : Scheduler} {w : List Waiting}

lemma mem_runs : t ∈ (Waiting.queues cpu w).runs q ↔
    q.1 = cpu ∧ ∃ x ∈ w, x.level = q.2 ∧ x.task = t := by
  dsimp only [Waiting.queues]
  split_ifs with hq
  · simp [hq, and_assoc]
  · simp [hq]

variable (h : Logged cpu s w)
include h

lemma isQueued_iff (t : Nat) : s.isQueued t = true ↔ t ∈ w.map Waiting.task := by
  constructor
  · intro hqueued
    obtain ⟨-, x, hx, -, rfl⟩ := mem_runs.mp ((h.rep.queued t _).mpr ⟨hqueued, rfl⟩)
    exact mem_map_of_mem hx
  · intro ht
    obtain ⟨x, hx, rfl⟩ := mem_map.mp ht
    exact h.rep.isQueued_of_mem (q := (cpu, x.level)) (mem_runs.mpr ⟨rfl, x, hx, rfl, rfl⟩)

lemma held (p : Nat) :
    Links.Held s.rq (s.queues (cpu, p)) ((w.filter (·.level = p)).map Waiting.task) := by
  simpa [Waiting.queues] using h.rep.held (cpu, p)

lemma holds : s.Holds cpu w := ⟨fun p _ => h.held p, h.isQueued_iff⟩

lemma enqueue (ht : t ≠ 0) (hnew : t ∉ w.map Waiting.task) (prio : Nat)
    (affinity : Int) (hnow : ∀ x ∈ w, x.since ≤ now) :
    Logged cpu (s.enqueueLocked cpu t prio affinity now) (w ++ [⟨t, level prio, now⟩]) := by
  have hoff : s.isQueued t = false := Bool.eq_false_iff.mpr (mt (h.isQueued_iff t).mp hnew)
  have hqueues : (Waiting.queues cpu w).enqueue cpu (level prio) t =
      Waiting.queues cpu (w ++ [⟨t, level prio, now⟩]) := by
    refine congrArg₂ Queues.mk (funext fun q => ?_) rfl
    by_cases hq : q = (cpu, level prio)
    · simp [hq, Waiting.queues]
    · rw [update_of_ne hq]
      dsimp only [Waiting.queues]
      split_ifs with hcpu
      · have hlevel : ¬level prio = q.2 := fun heq => hq (Prod.ext hcpu heq.symm)
        simp [hlevel]
      · rfl
  refine ⟨hqueues ▸ h.rep.enqueue ht hoff (fun _ => not_mem_nil) affinity now, ?_, ?_⟩
  · rw [enqueueLocked, if_neg (by simp [hoff])]
    intro x hx
    simp only [mem_append, mem_singleton] at hx
    obtain hx | rfl := hx
    · have hne : x.task ≠ t := fun heq => hnew (heq ▸ mem_map_of_mem hx)
      exact (update_of_ne hne ..).trans (h.since x hx)
    · exact update_self ..
  · exact pairwise_append.mpr ⟨h.ordered, pairwise_singleton .., by simpa using hnow⟩

lemma remove (t : Nat) : Logged cpu (s.removeLocked cpu t) (w.filter (·.task ≠ t)) := by
  have hsince : (s.removeLocked cpu t).lastQueued = s.lastQueued := by
    unfold removeLocked
    split <;> rfl
  refine ⟨?_, fun x hx => ?_, h.ordered.filter _⟩
  · cases hqueued : s.isQueued t with
    | false =>
      have hself : w.filter (·.task ≠ t) = w := by
        refine filter_eq_self.mpr fun x hx => decide_eq_true ?_
        rintro rfl
        rw [(h.isQueued_iff _).mpr (mem_map_of_mem hx)] at hqueued
        cases hqueued
      rw [hself, removeLocked, if_neg (by simp [hqueued])]
      exact h.rep
    | true =>
      have hmem := (h.rep.queued t _).mpr ⟨hqueued, rfl⟩
      have hcpu : s.cpuId t = cpu := (mem_runs.mp hmem).1
      have hrep := h.rep.remove hqueued
      rw [hcpu] at hrep hmem
      convert hrep
      refine congrArg₂ Queues.mk (funext fun q => ?_) rfl
      have hfilter : (Waiting.queues cpu (w.filter (·.task ≠ t))).runs q =
          ((Waiting.queues cpu w).runs q).filter (· != t) := by
        dsimp only [Waiting.queues]
        split
        · rw [filter_map, filter_filter, filter_filter]
          congr 1
          refine filter_congr fun x _ => Bool.eq_iff_iff.mpr ?_
          simp [and_comm]
        · rfl
      refine hfilter.trans ?_
      rw [update_apply]
      split_ifs with hq
      · rw [hq, (h.rep.held _).linked.nodup.erase_eq_filter]
      · refine filter_eq_self.mpr fun x hx => bne_iff_ne.mpr ?_
        rintro rfl
        exact hq (h.rep.queue_eq hx hmem)
  · rw [hsince]
    exact h.since x (mem_of_mem_filter hx)

lemma front (hx : (w.filter (·.level = p)).head? = some x) :
    x ∈ w ∧ (s.queues (cpu, p)).head = x.task ∧ x.task ≠ 0 ∧ s.lastQueued x.task = x.since := by
  have hmem : x ∈ w := mem_of_mem_filter (mem_of_head? hx)
  refine ⟨hmem, ?_, (h.held p).ne_zero (mem_map_of_mem (mem_of_head? hx)), h.since x hmem⟩
  rw [(h.held p).head_eq, head?_map, hx]
  rfl

lemma active_iff (p : Nat) :
    (s.activeQueues cpu).getLsbD p = true ↔ ∃ x, (w.filter (·.level = p)).head? = some x := by
  rw [h.rep.active]
  cases hrow : w.filter (·.level = p) <;> simp [Waiting.queues, hrow]

lemma bit_of_mem (hy : y ∈ w) : (s.activeQueues cpu).getLsbD y.level = true :=
  (h.rep.active cpu y.level).mpr (ne_nil_of_mem (mem_runs.mpr ⟨rfl, y, hy, rfl, rfl⟩))

lemma starved_iff (hx : (w.filter (·.level = p)).head? = some x) :
    s.starved cpu p now = true ↔ x.Starves now := by
  obtain ⟨-, hhead, hne, hsince⟩ := h.front hx
  simp only [starved, hhead, hsince, Waiting.Starves, Bool.and_eq_true, decide_eq_true_eq]
  constructor
  · rintro ⟨⟨-, hlt⟩, hlong⟩
    bv_omega
  · intro hlong
    refine ⟨⟨hne, ?_⟩, ?_⟩ <;> bv_omega

lemma first_starves (hy : y ∈ w) (hlong : y.Starves now) :
    ∃ x, (w.filter (·.level = y.level)).head? = some x ∧ x.Starves now := by
  have hmem : y ∈ w.filter (·.level = y.level) := mem_filter.mpr ⟨hy, by simp⟩
  have hordered := h.ordered.filter (·.level = y.level)
  cases hrow : w.filter (·.level = y.level) with
  | nil =>
    rw [hrow] at hmem
    cases hmem
  | cons x rest =>
    rw [hrow] at hmem hordered
    refine ⟨x, rfl, ?_⟩
    obtain rfl | hrest := mem_cons.mp hmem
    · exact hlong
    · have hle := (pairwise_cons.mp hordered).1 y hrest
      exact (Nat.add_le_add_right hle _).trans_lt hlong

lemma find_none (hfind : (List.range 32).find? (fun p =>
    (s.activeQueues cpu).getLsbD p && s.starved cpu p now) = none) :
    ¬∃ y ∈ w, y.Starves now := by
  rintro ⟨y, hy, hlong⟩
  obtain ⟨x, hx, hstarves⟩ := h.first_starves hy hlong
  have hbit := h.bit_of_mem hy
  have hno := find?_eq_none.mp hfind y.level (mem_range.mpr (BitVec.lt_of_getLsbD hbit))
  exact hno (by rw [hbit, (h.starved_iff hx).mpr hstarves]; rfl)

lemma pickLocked (hne : w ≠ []) (now : BitVec 64) : ∃ x ∈ w, s.Serves cpu now w x := by
  cases hfind : (List.range 32).find? (fun p =>
      (s.activeQueues cpu).getLsbD p && s.starved cpu p now) with
  | some p =>
    have hfound := find?_some hfind
    obtain ⟨hbit, hstarved⟩ := Bool.and_eq_true_iff.mp hfound
    obtain ⟨x, hx⟩ := (h.active_iff p).mp hbit
    obtain ⟨hmem, hhead, h0, -⟩ := h.front hx
    have hlong := (h.starved_iff hx).mp hstarved
    have hpick : s.pickLocked cpu now = (s.removeLocked cpu x.task, x.task) := by
      simp only [Scheduler.pickLocked, hfind, hhead]
    refine ⟨x, hmem, by rw [hpick], h0, fun _ => hlong, fun hno => ?_, ?_⟩
    · exact absurd ⟨x, hmem, hlong⟩ hno
    rw [hpick]
    exact (h.remove x.task).holds
  | none =>
    have hnone := h.find_none hfind
    have haq : s.activeQueues cpu ≠ 0 := by
      obtain ⟨y, hy⟩ := exists_mem_of_ne_nil w hne
      have hbit := h.bit_of_mem hy
      intro h0
      rw [h0, BitVec.ofNat_eq_ofNat, BitVec.getLsbD_zero] at hbit
      cases hbit
    obtain ⟨hbit, hmax⟩ := highest_spec haq
    obtain ⟨x, hx⟩ := (h.active_iff _).mp hbit
    obtain ⟨hmem, hhead, h0, -⟩ := h.front hx
    have hlevel (z : Waiting) (hz : z ∈ w) := hmax z.level (h.bit_of_mem hz)
    have hrest := (h.remove x.task).holds
    refine ⟨x, hmem, ?_, h0, fun hsome => absurd hsome hnone, fun _ => ?_, ?_⟩
    · simp only [Scheduler.pickLocked, hfind, hhead, haq, h0, or_self, if_false]
    · rw [← head?_filter, ← hx]
      congr 1
      refine filter_congr fun y hy => decide_eq_decide.mpr ⟨fun htop => ?_, ?_⟩
      · have hxlevel := of_decide_eq_true (mem_filter.mp (mem_of_head? hx)).2
        exact (hlevel y hy).antisymm (hxlevel ▸ htop x hmem)
      · rintro heq z hz
        exact heq ▸ hlevel z hz
    · simp only [Scheduler.pickLocked, hfind, hhead, haq, h0, or_self, if_false]
      exact ⟨hrest.held, hrest.queued⟩

end Logged

namespace History

variable {cpu : Nat} {h : History}

/-- The queues hold what the calls so far have left, all of it from the past. -/
structure Inv (cpu : Nat) (h : History) : Prop where
  logged : Logged cpu h.sched h.waiting
  past : ∀ x ∈ h.waiting, x.since ≤ h.now

lemma Inv.perform (hh : h.Inv cpu) (e : QueueEvent) : (h.perform cpu e).Inv cpu := by
  obtain ⟨hl, hpast⟩ := hh
  cases e with
  | enqueue task prio affinity =>
    simp only [History.perform]
    split
    · exact ⟨hl, hpast⟩
    case isFalse h0 =>
      split
      case isTrue hmem =>
        rw [enqueueLocked, if_pos ((hl.isQueued_iff task).mpr hmem)]
        exact ⟨hl, hpast⟩
      case isFalse hmem =>
        refine ⟨hl.enqueue h0 hmem prio affinity hpast, ?_⟩
        simpa [or_imp, forall_and] using hpast
  | remove task =>
    simp only [History.perform]
    split
    · exact ⟨hl, hpast⟩
    · exact ⟨hl.remove task, fun x hx => hpast x (mem_of_mem_filter hx)⟩
  | tick later =>
    simp only [History.perform]
    split
    case isTrue hle => exact ⟨hl, fun x hx => BitVec.le_trans (hpast x hx) hle⟩
    · exact ⟨hl, hpast⟩

/-- After every history that leaves a task in the queues of the CPU, `sched_pick_next` serves one
that starves, if there is one, and else the one that was enqueued first at the highest level. -/
theorem pick_serves {m : Machine} (hinit : m.Initial) (now : BitVec 64) (events : List QueueEvent)
    (hrun : events.foldl (perform cpu) ⟨m.sched, now, []⟩ = h) (hne : h.waiting ≠ []) :
    h.sched.Holds cpu h.waiting ∧ ∃ x ∈ h.waiting, h.sched.Serves cpu h.now h.waiting x := by
  have hempty : Waiting.queues cpu [] = ⟨fun _ => [], fun _ => []⟩ :=
    congrArg₂ Queues.mk (funext fun _ => ite_self _) rfl
  have hstart : Inv cpu ⟨m.sched, now, []⟩ :=
    ⟨⟨hempty ▸ hinit.rep, nofun, .nil⟩, nofun⟩
  have hI : h.Inv cpu := by
    rw [← hrun]
    clear hrun
    generalize (⟨m.sched, now, []⟩ : History) = h₀ at hstart
    induction events generalizing h₀ with
    | nil => exact hstart
    | cons e events ih => exact ih _ (hstart.perform e)
  exact ⟨hI.logged.holds, hI.logged.pickLocked hne h.now⟩

/-- A task of low priority has waited for 2000 ticks when one of high priority is enqueued. -/
theorem pick_serves_starving :
    ∃ h, [.enqueue 1 1 (-1), .tick 2000, .enqueue 2 5 (-1)].foldl (perform 0)
        ⟨Machine.boot.sched, 0, []⟩ = h ∧ h.sched.Holds 0 h.waiting ∧
      ∃ x ∈ h.waiting, h.sched.Serves 0 h.now h.waiting x :=
  ⟨_, rfl, pick_serves Machine.boot_initial 0 _ rfl (cons_ne_nil _ _)⟩

end History

/-- A task of a CPU, or none, is taken out of the queues; the other tasks stay queued. -/
structure Takes (s : Scheduler) (cpu : Nat) (r : Scheduler × Nat) : Prop where
  chosen : r.2 ≠ 0 → s.isQueued r.2 = true ∧ s.cpuId r.2 = cpu
  queued : ∀ t, r.1.isQueued t = true ↔ s.isQueued t = true ∧ t ≠ r.2

namespace Rep

variable {s s' : Scheduler} {a : Queues} {c p t : Nat} (h : Rep s a)
include h

lemma ne_zero_of_isQueued (ht : s.isQueued t = true) : t ≠ 0 :=
  (h.held _).linked.ne_zero ((h.queued t _).mpr ⟨ht, rfl⟩)

lemma takes_none (cpu : Nat) : Takes s cpu (s, 0) :=
  ⟨absurd rfl, fun _ => ⟨fun ht => ⟨ht, h.ne_zero_of_isQueued ht⟩, And.left⟩⟩

lemma cpuId_of_mem (hmem : t ∈ a.runs (c, p)) : s.cpuId t = c :=
  (congrArg Prod.fst (h.home_of_mem hmem)).symm

lemma takes_remove (hmem : t ∈ a.runs (c, p)) (hs : s'.isQueued = (s.removeLocked c t).isQueued) :
    Takes s c (s', t) := by
  have hqueued := h.isQueued_of_mem hmem
  refine ⟨fun _ => ⟨hqueued, h.cpuId_of_mem hmem⟩, fun u => ?_⟩
  rw [hs, Scheduler.removeLocked, if_pos hqueued]
  by_cases hu : u = t <;> simp [hu]

lemma head_mem (hne : (s.queues (c, p)).head ≠ 0) : (s.queues (c, p)).head ∈ a.runs (c, p) :=
  (h.held (c, p)).linked.next_eq_zero_or_mem.resolve_left hne

/-- The highest queue of a CPU with active queues is not empty. -/
lemma highest_ne_nil (hne : s.activeQueues c ≠ 0) :
    a.runs (c, Scheduler.highest (s.activeQueues c)) ≠ [] :=
  (h.active c _).mp (highest_spec hne).1

lemma active_of_isQueued (ht : s.isQueued t = true) : s.activeQueues (s.cpuId t) ≠ 0 := by
  intro h0
  have hmem := (h.queued t _).mpr ⟨ht, rfl⟩
  have hbit := (h.active _ _).mpr (List.ne_nil_of_mem hmem)
  simp [h0] at hbit

lemma takes_pick (now : BitVec 64) : Takes s c (s.pickLocked c now) ∧
    ((s.pickLocked c now).2 = 0 → s.activeQueues c = 0) := by
  unfold Scheduler.pickLocked
  dsimp only
  split
  case h_1 p hfind =>
    have hstarved := List.find?_some hfind
    simp only [Scheduler.starved, Bool.and_eq_true, decide_eq_true_eq] at hstarved
    have hne := hstarved.2.1.1
    exact ⟨h.takes_remove (h.head_mem hne) rfl, fun h0 => absurd h0 hne⟩
  · split
    case isTrue hempty =>
      refine ⟨h.takes_none c, fun _ => ?_⟩
      by_contra haq
      exact h.highest_ne_nil haq ((h.held _).linked.eq_nil (hempty.resolve_left haq))
    case isFalse hfront =>
      obtain ⟨-, hne⟩ := not_or.mp hfront
      exact ⟨h.takes_remove (h.head_mem hne) rfl, fun h0 => absurd h0 hne⟩

lemma takes_steal (cpu : Nat) : Takes s c (s.stealLocked cpu c) ∧
    ((s.stealLocked cpu c).2 = 0 → s.activeQueues c ≠ 0 →
      ∃ t, s.isQueued t = true ∧ s.cpuId t = c ∧ s.affinity t ≠ -1 ∧ s.affinity t ≠ cpu) := by
  unfold Scheduler.stealLocked
  dsimp only
  split_ifs with hback
  · exact ⟨h.takes_remove ((h.held _).tail_mem hback.2.1) rfl, fun h0 => absurd h0 hback.2.1⟩
  · refine ⟨h.takes_none c, fun _ haq => ?_⟩
    have hheld := h.held (c, Scheduler.highest (s.activeQueues c))
    have hne := hheld.tail_eq_zero.not.mpr (h.highest_ne_nil haq)
    have hmem := hheld.tail_mem hne
    have haff := fun hor => hback ⟨haq, hne, hor⟩
    exact ⟨_, h.isQueued_of_mem hmem, h.cpuId_of_mem hmem, not_or.mp haff⟩

end Rep

namespace Machine

variable {maxCpus : Nat} {m m' : Machine}

/-- A CPU takes nothing from its queues only if they are empty, and nothing from those of a
victim only if they are empty or hold a task that is bound to another CPU. What it takes is one
task, which leaves the queues; no other task is lost. -/
theorem choice_of_run {events : List SchedEvent} (hinit : m.Initial)
    (run : Run (fun m e m' => m.Meets e ∧ m.step maxCpus e = some m') m events m')
    (cpu victim : Nat) (now : BitVec 64) :
    Takes m'.sched cpu (m'.sched.pickLocked cpu now) ∧
      ((m'.sched.pickLocked cpu now).2 = 0 →
        ∀ t, m'.sched.isQueued t = true → m'.sched.cpuId t ≠ cpu) ∧
      Takes m'.sched victim (m'.sched.stealLocked cpu victim) ∧
      ((m'.sched.stealLocked cpu victim).2 = 0 →
        ∀ t, m'.sched.isQueued t = true → m'.sched.cpuId t = victim →
          ∃ u, m'.sched.isQueued u = true ∧ m'.sched.cpuId u = victim ∧
            m'.sched.affinity u ≠ -1 ∧ m'.sched.affinity u ≠ cpu) := by
  have hI : m'.Inv := run.invariant (fun _ _ _ h hstep => h.step hstep.1 hstep.2) hinit.inv
  obtain ⟨a, h⟩ := hI.rep
  obtain ⟨hpick, hidle⟩ := h.takes_pick (c := cpu) now
  obtain ⟨hsteal, hbound⟩ := h.takes_steal (c := victim) cpu
  refine ⟨hpick, fun h0 t ht hcpu => ?_, hsteal, fun h0 t ht hcpu => hbound h0 ?_⟩
  · exact h.active_of_isQueued ht (hcpu ▸ hidle h0)
  · exact hcpu ▸ h.active_of_isQueued ht

/-- Of two tasks on CPU 0 one is stolen; the other can be picked there and stolen too. -/
theorem choice_of_run_boot :
    ∃ m, Run (fun m e m' => m.Meets e ∧ m.step 32 e = some m') boot
        [.enqueue 0 1 1 (-1) 0, .enqueue 0 2 2 (-1) 0, .steal 1 0] m ∧
      (m.sched.pickLocked 0 0).2 ≠ 0 ∧ (m.sched.stealLocked 1 0).2 ≠ 0 := by
  have run : ∃ m, Run (fun m e m' => m.Meets e ∧ m.step 32 e = some m') boot
      [.enqueue 0 1 1 (-1) 0, .enqueue 0 2 2 (-1) 0, .steal 1 0] m ∧
      m.sched.isQueued 1 = true ∧ m.sched.cpuId 1 = 0 ∧
      m.sched.affinity = update (update boot.sched.affinity 1 (-1)) 2 (-1) :=
    ⟨_, .cons ⟨awake_of_empty (fun _ => rfl) 1, rfl⟩ (.cons ⟨awake_of_empty (fun _ => rfl) 2, rfl⟩
      (.single ⟨trivial, rfl⟩)), rfl, rfl, rfl⟩
  obtain ⟨m, run, hqueued, hcpu, haffinity⟩ := run
  refine ⟨m, run, fun h0 => ?_, fun h0 => ?_⟩
  · exact (choice_of_run boot_initial run 0 0 0).2.1 h0 1 hqueued hcpu
  · obtain ⟨u, -, -, hbound, -⟩ :=
      (choice_of_run boot_initial run 1 0 0).2.2.2 h0 1 hqueued hcpu
    apply hbound
    simp [haffinity, update_apply, boot]

end Machine

end Singularity.Process
