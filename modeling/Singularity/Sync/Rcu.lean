import Singularity.Foundation.Runs
import Singularity.Foundation.Word

/-!
# Read-copy-update

A read section counts in the `preempt_count` of the CPU that it runs on, and `schedule` leaves
the CPU to it. `synchronize_rcu` does not look at that count: it waits until each CPU has
processed a tick, is idle or has no data yet, or until a time-out. The two parts of
`rcu_read_lock` and `rcu_read_unlock` and the loads of `synchronize_rcu` are steps of their own.

`depth` is the number of open sections of a thread and `old` the number of those that had begun
when `synchronize_rcu` was called.
-/

namespace Singularity.Sync

open Foundation Function Option

/-- `preemptCount` is missing while `per_cpu_data` is null. -/
structure RcuCpu where
  tickCount : BitVec 64
  preemptCount : Option (BitVec 32)
  current : Option Nat
  idle : Option Nat
  deriving DecidableEq

/-- A thread between the parts of `rcu_read_lock` or `rcu_read_unlock`, with the CPU it has read. -/
inductive ReaderPc where
  | running
  | locking (cpu : Nat)
  | unlocking (cpu : Nat)
  deriving DecidableEq

/-- The tests of a round of the wait loop, in their order. -/
inductive RcuTest where
  | count
  | data
  | idle
  | timer
  deriving DecidableEq

/-- Where `synchronize_rcu` is; `next` is before the wait for a CPU. -/
inductive SyncPc where
  | notCalled
  | snapping (snap : Nat → BitVec 64) (i : Nat)
  | next (snap : Nat → BitVec 64) (i : Nat)
  | waiting (snap : Nat → BitVec 64) (i : Nat) (timeoutTarget : BitVec 64) (test : RcuTest)
  | returned

def rcuSyncTimeoutTicks : BitVec 64 := 1000

structure Rcu where
  numCpus : Nat
  cpu : Nat → RcuCpu
  pc : Nat → ReaderPc
  sync : SyncPc
  depth : Nat → Nat
  old : Nat → Nat

/-- A reading of the clock is an argument of the steps that take one, and so is the task that
`schedule` would choose. -/
inductive RcuEvent where
  | init (c : Nat)
  | schedule (c next : Nat)
  | tick (c next : Nat)
  | readLock (t c : Nat)
  | countUp (t : Nat)
  | readUnlock (t c : Nat)
  | countDown (t : Nat)
  | synchronize
  | snapshot
  | target (now : BitVec 64)
  | test (now : BitVec 64)
  deriving DecidableEq

namespace Rcu

/-- No CPU has its data or a task yet. -/
def boot (numCpus : Nat) (idle : Nat → Option Nat) : Rcu where
  numCpus := numCpus
  cpu c := ⟨0, none, none, idle c⟩
  pc _ := .running
  sync := .notCalled
  depth _ := 0
  old _ := 0

def setCpu (s : Rcu) (c : Nat) (cpu : RcuCpu) : Rcu := { s with cpu := update s.cpu c cpu }

/-- The check of `schedule` for a read section. -/
def Held (cpu : RcuCpu) : Prop := ∃ k ∈ cpu.preemptCount, 0 < k.toInt

/-- A test of the count, if there is one; the instance for bit vectors would try them all. -/
def decideCount (p : BitVec 32 → Prop) [DecidablePred p] :
    (count : Option (BitVec 32)) → Decidable (∃ k ∈ count, p k)
  | none => isFalse fun ⟨_, hk, _⟩ => not_mem_none _ hk
  | some k =>
    decidable_of_iff (p k)
      ⟨fun h => ⟨k, rfl, h⟩, fun ⟨_, hk, h⟩ => mem_some.mp hk ▸ h⟩

instance (cpu : RcuCpu) : Decidable (Held cpu) := decideCount (0 < ·.toInt) cpu.preemptCount

/-- The task runs on no other CPU. -/
def Free (s : Rcu) (c t : Nat) : Prop := ∀ c' < s.numCpus, c' ≠ c → (s.cpu c').current ≠ some t

/-- The task runs on some CPU. -/
def Running (s : Rcu) (t : Nat) : Prop := ∃ c < s.numCpus, (s.cpu c).current = some t

/-- Only what runs can take a step, on one CPU at a time. Locks and unlocks come in pairs, and
`synchronize_rcu` is called once. -/
def Allowed (s : Rcu) : RcuEvent → Prop
  | .init c => c < s.numCpus ∧ (s.cpu c).preemptCount = none
  | .schedule c next => c < s.numCpus ∧ s.Free c next
  | .tick c next => c < s.numCpus ∧ s.Free c next
  | .readLock t c => c < s.numCpus ∧ (s.cpu c).current = some t ∧ s.pc t = .running
  | .countUp t => s.Running t
  | .readUnlock t c =>
    c < s.numCpus ∧ (s.cpu c).current = some t ∧ s.pc t = .running ∧ 0 < s.depth t
  | .countDown t => s.Running t
  | _ => True

/-- `schedule`, as far as it decides whether the CPU goes to another task. -/
def schedule (s : Rcu) (c next : Nat) : Rcu :=
  if Held (s.cpu c) then s else s.setCpu c { s.cpu c with current := some next }

/-- A round of the wait for CPU `i` ends the wait or goes on to the next test. -/
def wait (s : Rcu) (snap : Nat → BitVec 64) (i : Nat) (timeoutTarget : BitVec 64)
    (test : RcuTest) (ends : Prop) [Decidable ends] : Rcu :=
  { s with sync := if ends then .next snap (i + 1) else .waiting snap i timeoutTarget test }

def exec (s : Rcu) : RcuEvent → Option Rcu
  | .init c => some (s.setCpu c { s.cpu c with preemptCount := some 0 })
  | .schedule c next => some (s.schedule c next)
  | .tick c next =>
    some ((s.setCpu c { s.cpu c with tickCount := (s.cpu c).tickCount + 1 }).schedule c next)
  | .readLock t c => some { s with pc := update s.pc t (.locking c) }
  | .countUp t =>
    match s.pc t with
    | .locking c =>
      some { s.setCpu c { s.cpu c with
          preemptCount := (s.cpu c).preemptCount.map (· + 1) } with
        pc := update s.pc t .running
        depth := update s.depth t (s.depth t + 1) }
    | _ => none
  | .readUnlock t c => some { s with pc := update s.pc t (.unlocking c) }
  | .countDown t =>
    match s.pc t with
    | .unlocking c =>
      some { s.setCpu c { s.cpu c with
          preemptCount := (s.cpu c).preemptCount.map (· - 1) } with
        pc := update s.pc t .running
        depth := update s.depth t (s.depth t - 1)
        old := update s.old t (min (s.old t) (s.depth t - 1)) }
    | _ => none
  | .synchronize =>
    match s.sync with
    | .notCalled => some { s with sync := .snapping (fun _ => 0) 0, old := s.depth }
    | _ => none
  | .snapshot =>
    match s.sync with
    | .snapping snap i =>
      some { s with
        sync :=
          if i < s.numCpus then .snapping (update snap i (s.cpu i).tickCount) (i + 1)
          else .next snap 0 }
    | _ => none
  | .target now =>
    match s.sync with
    | .next snap i =>
      some { s with
        sync :=
          if i < s.numCpus then .waiting snap i (now + rcuSyncTimeoutTicks) .count
          else .returned }
    | _ => none
  | .test now =>
    match s.sync with
    | .waiting snap i timeoutTarget .count =>
      some (s.wait snap i timeoutTarget .data (snap i < (s.cpu i).tickCount))
    | .waiting snap i timeoutTarget .data =>
      some (s.wait snap i timeoutTarget .idle ((s.cpu i).preemptCount = none))
    | .waiting snap i timeoutTarget .idle =>
      some (s.wait snap i timeoutTarget .timer
        ((s.cpu i).current ≠ none ∧ (s.cpu i).current = (s.cpu i).idle))
    | .waiting snap i timeoutTarget .timer =>
      some (s.wait snap i timeoutTarget .count (timeoutTarget < now))
    | _ => none

def Step (cond : Rcu → RcuEvent → Prop) (s : Rcu) (e : RcuEvent) (s' : Rcu) : Prop :=
  s.Allowed e ∧ cond s e ∧ s.exec e = some s'

/-- When `synchronize_rcu` has returned, no section that had begun before is open. -/
def GracePeriod (s : Rcu) : Prop := s.sync = .returned → ∀ t, s.old t = 0

/-- The CPU does not run a section that had begun before the call. -/
def Quiet (s : Rcu) (c : Nat) : Prop := ∀ t ∈ (s.cpu c).current, s.old t = 0

/-- The thread that `schedule` takes off the CPU is not between the parts of `rcu_read_lock`. -/
def Settled (s : Rcu) (c : Nat) : Prop :=
  Held (s.cpu c) ∨ ∀ t ∈ (s.cpu c).current, s.pc t ≠ .locking c

/-- The section that a thread is about to begin is not one of the idle task and is counted. -/
def Counted (s : Rcu) (t : Nat) : ReaderPc → Prop
  | .locking c =>
    (s.cpu c).idle ≠ some t ∧ ∃ k ∈ (s.cpu c).preemptCount, k.toInt < 2 ^ 31 - 1
  | _ => True

/-- The time-out for a CPU does not expire while it runs a section from before the call. -/
def InTime (s : Rcu) (now : BitVec 64) : SyncPc → Prop
  | .waiting _ i timeoutTarget .timer => timeoutTarget < now → s.Quiet i
  | _ => True

/-- No tick is processed and no time-out expires on a CPU that runs a section from before the
call, no thread moves to another CPU inside `rcu_read_lock`, and sections are counted. -/
def Patient (s : Rcu) : RcuEvent → Prop
  | .schedule c _ => s.Settled c
  | .tick c _ => s.Settled c ∧ s.Quiet c
  | .countUp t => s.Counted t (s.pc t)
  | .test now => s.InTime now s.sync
  | _ => True

instance (s : Rcu) : (e : RcuEvent) → Decidable (s.Allowed e)
  | .init _ => inferInstanceAs (Decidable (_ ∧ _))
  | .schedule c next => inferInstanceAs (Decidable (_ ∧ ∀ c' < _, c' ≠ c → _ ≠ some next))
  | .tick c next => inferInstanceAs (Decidable (_ ∧ ∀ c' < _, c' ≠ c → _ ≠ some next))
  | .readLock .. => inferInstanceAs (Decidable (_ ∧ _ ∧ _))
  | .countUp t => inferInstanceAs (Decidable (∃ c < _, _ = some t))
  | .readUnlock .. => inferInstanceAs (Decidable (_ ∧ _ ∧ _ ∧ _))
  | .countDown t => inferInstanceAs (Decidable (∃ c < _, _ = some t))
  | .synchronize => isTrue trivial
  | .snapshot => isTrue trivial
  | .target _ => isTrue trivial
  | .test _ => isTrue trivial

instance (s : Rcu) (c : Nat) : Decidable (s.Quiet c) := inferInstanceAs (Decidable (∀ t ∈ _, _))

instance (s : Rcu) (c : Nat) : Decidable (s.Settled c) :=
  inferInstanceAs (Decidable (_ ∨ ∀ t ∈ _, _))

instance (s : Rcu) (t : Nat) : (pc : ReaderPc) → Decidable (s.Counted t pc)
  | .locking c =>
    @instDecidableAnd _ _ inferInstance
      (decideCount (fun k => k.toInt < 2 ^ 31 - 1) (s.cpu c).preemptCount)
  | .running => isTrue trivial
  | .unlocking _ => isTrue trivial

instance (s : Rcu) (now : BitVec 64) : (sync : SyncPc) → Decidable (s.InTime now sync)
  | .waiting _ _ _ .timer => inferInstanceAs (Decidable (_ → _))
  | .waiting _ _ _ .count => isTrue trivial
  | .waiting _ _ _ .data => isTrue trivial
  | .waiting _ _ _ .idle => isTrue trivial
  | .notCalled => isTrue trivial
  | .snapping .. => isTrue trivial
  | .next .. => isTrue trivial
  | .returned => isTrue trivial

instance (s : Rcu) : (e : RcuEvent) → Decidable (s.Patient e)
  | .schedule .. => inferInstanceAs (Decidable (Settled ..))
  | .tick .. => inferInstanceAs (Decidable (Settled .. ∧ Quiet ..))
  | .countUp _ => inferInstanceAs (Decidable (Counted ..))
  | .test _ => inferInstanceAs (Decidable (InTime ..))
  | .init _ => isTrue trivial
  | .readLock .. => isTrue trivial
  | .readUnlock .. => isTrue trivial
  | .countDown _ => isTrue trivial
  | .synchronize => isTrue trivial
  | .snapshot => isTrue trivial
  | .target _ => isTrue trivial

def step? (cond : Rcu → RcuEvent → Prop) [∀ s e, Decidable (cond s e)] (s : Rcu)
    (e : RcuEvent) : Option Rcu :=
  if s.Allowed e ∧ cond s e then s.exec e else none

variable {e : RcuEvent}

lemma step_of_step? {cond : Rcu → RcuEvent → Prop} [∀ s e, Decidable (cond s e)]
    (h : s.step? cond e = some s') : Step cond s e s' := by
  obtain ⟨hstep, h⟩ := then_of_ite h
  exact ⟨hstep.1, hstep.2, h⟩

/-- What the wait has found out about the sections that it waits for. -/
def Waits (s : Rcu) : SyncPc → Prop
  | .notCalled => ∀ t, s.old t = 0
  | .snapping snap i =>
    ∀ t c, 0 < s.old t → (s.cpu c).current = some t → c < i → snap c = (s.cpu c).tickCount
  | .next snap i =>
    ∀ t c, 0 < s.old t → (s.cpu c).current = some t → i ≤ c ∧ snap c = (s.cpu c).tickCount
  | .waiting snap i _ _ =>
    ∀ t c, 0 < s.old t → (s.cpu c).current = some t → i ≤ c ∧ snap c = (s.cpu c).tickCount
  | .returned => ∀ t, s.old t = 0

/-- The count of a CPU is the number of open sections of the thread on it, and a thread with open
sections stays on its CPU. -/
structure Inv (s : Rcu) : Prop where
  once : ∀ c c' t, (s.cpu c).current = some t → (s.cpu c').current = some t → c = c'
  lt : ∀ c t, (s.cpu c).current = some t → c < s.numCpus
  count : ∀ c k, (s.cpu c).preemptCount = some k →
    k.toInt = (((s.cpu c).current.map s.depth).getD 0 : Nat)
  home : ∀ t, 0 < s.depth t → ∃ c, (s.cpu c).current = some t ∧ (s.cpu c).idle ≠ some t ∧
    (s.cpu c).preemptCount ≠ none
  inside : ∀ t c, s.pc t = .locking c ∨ s.pc t = .unlocking c → (s.cpu c).current = some t
  unlocks : ∀ t c, s.pc t = .unlocking c → 0 < s.depth t
  old_le : ∀ t, s.old t ≤ s.depth t
  waits : s.Waits s.sync

variable {s s' : Rcu} {t c next : Nat} {k : BitVec 32}

lemma Inv.boot (numCpus : Nat) (idle : Nat → Option Nat) : (boot numCpus idle).Inv where
  once c c' t h := by cases h
  lt c t h := by cases h
  count c k h := by cases h
  home t h := (Nat.lt_irrefl 0 h).elim
  inside t c h := by
    obtain h | h := h <;> cases h
  unlocks t c h := by cases h
  old_le t := le_rfl
  waits _ := rfl

section
variable (hs : s.Inv) (hheld : ¬Held (s.cpu c))
include hs hheld

/-- A CPU that `schedule` gives away runs no section. -/
lemma Inv.depth_eq_zero (ht : (s.cpu c).current = some t) : s.depth t = 0 := by
  by_contra hne
  obtain ⟨c', hc', -, hdata⟩ := hs.home t (Nat.pos_of_ne_zero hne)
  cases hs.once c c' t ht hc'
  obtain ⟨k, hk⟩ := ne_none_iff_exists'.mp hdata
  have hcnt := hs.count c k hk
  rw [ht] at hcnt
  refine hheld ⟨k, hk, ?_⟩
  rw [hcnt]
  exact Int.natCast_pos.mpr (Nat.pos_of_ne_zero hne)

lemma Inv.held_eq_zero (hk : (s.cpu c).preemptCount = some k) : k.toInt = 0 := by
  have hcnt := hs.count c k hk
  have hpos : ¬0 < k.toInt := fun hpos => hheld ⟨k, hk, hpos⟩
  omega

lemma Inv.depth_next (hfree : s.Free c next) : s.depth next = 0 := by
  by_contra hne
  obtain ⟨c', hc', -⟩ := hs.home next (Nat.pos_of_ne_zero hne)
  by_cases heq : c' = c
  · subst heq
    exact hne (hs.depth_eq_zero hheld hc')
  · exact hfree c' (hs.lt c' next hc') heq hc'

end

lemma Waits.congr {pc : SyncPc} (hwaits : s.Waits pc) (hold : ∀ t, s'.old t ≤ s.old t)
    (hcpu : ∀ c t, 0 < s'.old t → (s'.cpu c).current = some t →
      (s.cpu c).current = some t ∧ (s'.cpu c).tickCount = (s.cpu c).tickCount) :
    s'.Waits pc := by
  have hpos {t : Nat} (h : 0 < s'.old t) : 0 < s.old t := h.trans_le (hold t)
  cases pc with
  | notCalled | returned => exact fun t => Nat.eq_zero_of_le_zero ((hold t).trans_eq (hwaits t))
  | snapping snap i =>
    intro t c h hc hlt
    obtain ⟨hc, htick⟩ := hcpu c t h hc
    rw [htick]
    exact hwaits t c (hpos h) hc hlt
  | next _ _ | waiting _ _ _ _ =>
    intro t c h hc
    obtain ⟨hc, htick⟩ := hcpu c t h hc
    rw [htick]
    exact hwaits t c (hpos h) hc

section
variable {cpu : RcuCpu}

@[simp] lemma setCpu_self : (s.setCpu c cpu).cpu c = cpu := update_self ..

lemma setCpu_of_ne (h : c' ≠ c) : (s.setCpu c cpu).cpu c' = s.cpu c' :=
  update_of_ne h ..

lemma setCpu_field {β : Type} (cpu : RcuCpu) (f : RcuCpu → β) (h : f cpu = f (s.cpu c))
    (c' : Nat) : f ((s.setCpu c cpu).cpu c') = f (s.cpu c') := by
  by_cases heq : c' = c
  · subst heq
    rw [setCpu_self, h]
  · rw [setCpu_of_ne heq]

end

section
variable (hs : s.Inv) {d : Nat} {now : BitVec 64}
include hs

lemma Inv.stay (hnum : s'.numCpus = s.numCpus) (hcur : ∀ c, (s'.cpu c).current = (s.cpu c).current)
    (hidle : ∀ c, (s'.cpu c).idle = (s.cpu c).idle)
    (hcnt : ∀ c k, (s'.cpu c).preemptCount = some k → k.toInt =
      (((s.cpu c).current.map s'.depth).getD 0 : Nat))
    (hhome : ∀ t, 0 < s'.depth t → ∃ c, (s.cpu c).current = some t ∧ (s.cpu c).idle ≠ some t ∧
      (s'.cpu c).preemptCount ≠ none)
    (hinside : ∀ t c, s'.pc t = .locking c ∨ s'.pc t = .unlocking c → (s.cpu c).current = some t)
    (hunlocks : ∀ t c, s'.pc t = .unlocking c → 0 < s'.depth t) (hold : ∀ t, s'.old t ≤ s'.depth t)
    (hwaits : s'.Waits s'.sync) : s'.Inv where
  once c c' t h h' := by
    rw [hcur] at h h'
    exact hs.once c c' t h h'
  lt c t h := by
    rw [hcur] at h
    rw [hnum]
    exact hs.lt c t h
  count c k hk := by
    rw [hcur]
    exact hcnt c k hk
  home t h := by
    obtain ⟨c, hc, hne, hdata⟩ := hhome t h
    exact ⟨c, by rw [hcur]; exact hc, by rw [hidle]; exact hne, hdata⟩
  inside t c h := by
    rw [hcur]
    exact hinside t c h
  unlocks := hunlocks
  old_le := hold
  waits := hwaits

lemma Inv.setPc {pc : ReaderPc}
    (hinside : ∀ c, pc = .locking c ∨ pc = .unlocking c → (s.cpu c).current = some t)
    (hunlocks : ∀ c, pc = .unlocking c → 0 < s.depth t) :
    Inv { s with pc := update s.pc t pc } := by
  refine hs.stay rfl (fun _ => rfl) (fun _ => rfl) hs.count hs.home (fun t' c h => ?_)
    (fun t' c h => ?_) hs.old_le (hs.waits.congr (fun _ => le_rfl) fun _ _ _ hc => ⟨hc, rfl⟩)
  · dsimp only at h
    rw [update_apply] at h
    split_ifs at h with heq
    · subst heq
      exact hinside c h
    · exact hs.inside t' c h
  · dsimp only at h
    rw [update_apply] at h
    split_ifs at h with heq
    · subst heq
      exact hunlocks c h
    · exact hs.unlocks t' c h

lemma Inv.depth_eq_zero_of_none (hnone : (s.cpu c).preemptCount = none)
    (ht : (s.cpu c).current = some t) : s.depth t = 0 := by
  apply hs.depth_eq_zero (c := c) _ ht
  rintro ⟨k, hk, -⟩
  cases hnone.symm.trans hk

lemma Inv.init (hnone : (s.cpu c).preemptCount = none) :
    (s.setCpu c { s.cpu c with preemptCount := some 0 }).Inv := by
  have hcur := setCpu_field (s := s) (c := c) { s.cpu c with preemptCount := some 0 }
    RcuCpu.current rfl
  have hticks := setCpu_field (s := s) (c := c) { s.cpu c with preemptCount := some 0 }
    RcuCpu.tickCount rfl
  refine hs.stay rfl hcur (setCpu_field _ RcuCpu.idle rfl) (fun c' k hk => ?_)
    (fun t h => ?_) hs.inside hs.unlocks hs.old_le ?_
  · by_cases heq : c' = c
    · subst heq
      rw [setCpu_self] at hk
      cases hk
      cases ht : (s.cpu c').current with
      | none => rfl
      | some t =>
        change (0 : BitVec 32).toInt = (s.depth t : Nat)
        rw [hs.depth_eq_zero_of_none hnone ht]
        rfl
    · rw [setCpu_of_ne heq] at hk
      exact hs.count c' k hk
  · obtain ⟨c', hc', hidle, hdata⟩ := hs.home t h
    refine ⟨c', hc', hidle, ?_⟩
    rwa [setCpu_of_ne fun heq : c' = c => hdata (heq ▸ hnone)]
  · refine hs.waits.congr (fun _ => le_rfl) fun c' t _ hc' => ⟨?_, hticks c'⟩
    rwa [hcur] at hc'

lemma Inv.tickCount (hquiet : s.Quiet c) :
    (s.setCpu c { s.cpu c with tickCount := (s.cpu c).tickCount + 1 }).Inv := by
  have hcur := setCpu_field (s := s) (c := c)
    { s.cpu c with tickCount := (s.cpu c).tickCount + 1 } RcuCpu.current rfl
  have hdata := setCpu_field (s := s) (c := c)
    { s.cpu c with tickCount := (s.cpu c).tickCount + 1 } RcuCpu.preemptCount rfl
  refine hs.stay rfl hcur (setCpu_field _ RcuCpu.idle rfl) (fun c' k hk => ?_)
    (fun t h => ?_) hs.inside hs.unlocks hs.old_le ?_
  · rw [hdata] at hk
    exact hs.count c' k hk
  · obtain ⟨c', hc', hidle, hne⟩ := hs.home t h
    refine ⟨c', hc', hidle, ?_⟩
    rwa [hdata]
  · refine hs.waits.congr (fun _ => le_rfl) fun c' t hpos hc' => ?_
    rw [hcur] at hc'
    have hne : c' ≠ c := by
      rintro rfl
      exact hpos.ne' (hquiet t hc')
    exact ⟨hc', by rw [setCpu_of_ne hne]⟩

lemma Inv.schedule (hlt : c < s.numCpus) (hfree : s.Free c next)
    (hsettled : s.Settled c) : (s.schedule c next).Inv := by
  unfold Rcu.schedule
  split_ifs with hheld
  · exact hs
  · have hnext := hs.depth_next hheld hfree
    have hlocking : ∀ t ∈ (s.cpu c).current, s.pc t ≠ .locking c := hsettled.resolve_left hheld
    -- what runs a section, or is in a lock or an unlock, runs on another CPU
    have hother {c' t : Nat} (hc' : (s.cpu c').current = some t) (hpos : 0 < s.depth t) :
        c' ≠ c := by
      rintro rfl
      exact hpos.ne' (hs.depth_eq_zero hheld hc')
    have hcur {c' t : Nat}
        (h : ((s.setCpu c { s.cpu c with current := some next }).cpu c').current = some t) :
        (c' = c ∧ t = next) ∨ (c' ≠ c ∧ (s.cpu c').current = some t) := by
      by_cases heq : c' = c
      · subst heq
        rw [setCpu_self] at h
        cases h
        exact .inl ⟨rfl, rfl⟩
      · rw [setCpu_of_ne heq] at h
        exact .inr ⟨heq, h⟩
    refine ⟨fun c1 c2 t h1 h2 => ?_, fun c' t h => ?_, fun c' k hk => ?_, fun t h => ?_,
      fun t c' h => ?_, hs.unlocks, hs.old_le, ?_⟩
    · obtain ⟨rfl, rfl⟩ | ⟨hne1, h1⟩ := hcur h1 <;>
        obtain ⟨heq, heq'⟩ | ⟨hne2, h2⟩ := hcur h2
      · exact heq.symm
      · exact absurd h2 (hfree c2 (hs.lt c2 _ h2) hne2)
      · rw [heq'] at h1
        exact absurd h1 (hfree c1 (hs.lt c1 _ h1) hne1)
      · exact hs.once c1 c2 t h1 h2
    · obtain ⟨rfl, -⟩ | ⟨-, h⟩ := hcur h
      · exact hlt
      · exact hs.lt c' t h
    · by_cases heq : c' = c
      · subst heq
        rw [setCpu_self] at hk ⊢
        rw [hs.held_eq_zero hheld hk]
        change 0 = ((s.depth next : Nat) : Int)
        rw [hnext]
        rfl
      · rw [setCpu_of_ne heq] at hk ⊢
        exact hs.count c' k hk
    · obtain ⟨c', hc', hidle, hdata⟩ := hs.home t h
      refine ⟨c', ?_⟩
      rw [setCpu_of_ne (hother hc' h)]
      exact ⟨hc', hidle, hdata⟩
    · have hc' := hs.inside t c' h
      have hne : c' ≠ c := by
        rintro rfl
        obtain h | h := h
        · exact hlocking t hc' h
        · exact hother hc' (hs.unlocks t c' h) rfl
      rwa [setCpu_of_ne hne]
    · refine hs.waits.congr (fun _ => le_rfl) fun c' t hpos hc' => ?_
      obtain ⟨-, rfl⟩ | ⟨hne, hc'⟩ := hcur hc'
      · have hle : s.old t ≤ 0 := hnext ▸ hs.old_le t
        exact absurd hpos (Nat.not_lt.mpr hle)
      · exact ⟨hc', by rw [setCpu_of_ne hne]⟩

/-- The sections that the count of a CPU stands for when one thread opens or closes one. -/
lemma Inv.count_update (ht : (s.cpu c).current = some t) (c' : Nat) :
    ((s.cpu c').current.map (update s.depth t d)).getD 0 =
      if c' = c then d else ((s.cpu c').current.map s.depth).getD 0 := by
  split
  case isTrue heq =>
    rw [heq, ht]
    exact update_self ..
  case isFalse hne =>
    cases ht' : (s.cpu c').current with
    | none => rfl
    | some t' =>
      have hother : t' ≠ t := by
        rintro rfl
        exact hne (hs.once c' c t' ht' ht)
      exact update_of_ne hother ..

/-- A thread opens or closes a section and the count of its CPU with it. -/
lemma Inv.recount (ht : (s.cpu c).current = some t)
    (hk : k.toInt = d) (hidle : (s.cpu c).idle ≠ some t) (hnum : s'.numCpus = s.numCpus)
    (hcpu : s'.cpu = (s.setCpu c { s.cpu c with preemptCount := some k }).cpu)
    (hpc : s'.pc = update s.pc t .running)
    (hdepth : s'.depth = update s.depth t d) (hsync : s'.sync = s.sync)
    (hle : ∀ t', s'.old t' ≤ s'.depth t') (hold : ∀ t', s'.old t' ≤ s.old t') : s'.Inv := by
  have hcur := setCpu_field (s := s) (c := c) { s.cpu c with preemptCount := some k }
    RcuCpu.current rfl
  have hticks := setCpu_field (s := s) (c := c) { s.cpu c with preemptCount := some k }
    RcuCpu.tickCount rfl
  have hidles := setCpu_field (s := s) (c := c) { s.cpu c with preemptCount := some k }
    RcuCpu.idle rfl
  rw [← hcpu] at hcur hticks hidles
  have hother {t' : Nat} {pc : ReaderPc} (hne : pc ≠ .running) (h : s'.pc t' = pc) :
      t' ≠ t ∧ s.pc t' = pc := by
    rw [hpc] at h
    rw [update_apply] at h
    split_ifs at h with heq
    · exact absurd h.symm hne
    · exact ⟨heq, h⟩
  refine hs.stay hnum hcur hidles (fun c' k' hk' => ?_) (fun t' h => ?_)
    (fun t' c' h => ?_) (fun t' c' h => ?_) hle ?_
  · rw [hdepth, hs.count_update ht]
    rw [hcpu] at hk'
    split
    case isTrue heq =>
      rw [heq, setCpu_self] at hk'
      cases hk'
      exact hk
    case isFalse hne =>
      rw [setCpu_of_ne hne] at hk'
      exact hs.count c' k' hk'
  · rw [hcpu]
    by_cases heq : t' = t
    · subst heq
      refine ⟨c, ht, hidle, ?_⟩
      rw [setCpu_self]
      exact some_ne_none k
    · rw [hdepth, update_of_ne heq] at h
      obtain ⟨c', hc', hidle', hdata⟩ := hs.home t' h
      refine ⟨c', hc', hidle', ?_⟩
      have hne : c' ≠ c := by
        rintro rfl
        exact heq (Option.some.inj (hc'.symm.trans ht))
      rwa [setCpu_of_ne hne]
  · obtain h | h := h
    · exact hs.inside t' c' (.inl (hother (by simp) h).2)
    · exact hs.inside t' c' (.inr (hother (by simp) h).2)
  · obtain ⟨hne, h⟩ := hother (by simp) h
    rw [hdepth, update_of_ne hne]
    exact hs.unlocks t' c' h
  · rw [hsync]
    refine hs.waits.congr hold fun c' t' _ hc' => ⟨?_, hticks c'⟩
    rwa [← hcur]

lemma Inv.countUp (hcond : s.Patient (.countUp t))
    (hexec : s.exec (.countUp t) = some s') : s'.Inv := by
  simp only [exec] at hexec
  split at hexec
  case h_2 => cases hexec
  case h_1 c hpc =>
    simp only [Patient, hpc] at hcond
    obtain ⟨hidle, k, hk, hlt⟩ := hcond
    have ht := hs.inside t c (.inl hpc)
    have hcnt := hs.count c k hk
    rw [ht] at hcnt
    have hk : (s.cpu c).preemptCount = some k := hk
    rw [hk] at hexec
    cases hexec
    refine hs.recount (k := k + 1) (d := s.depth t + 1) ht ?_ hidle rfl rfl rfl rfl rfl
      (fun t' => ?_) fun _ => le_rfl
    · rw [Word.toInt_succ hlt, hcnt]
      rfl
    dsimp only
    rw [update_apply]
    split_ifs with heq
    · subst heq
      exact (hs.old_le t').trans (Nat.le_succ _)
    · exact hs.old_le t'

lemma Inv.countDown (hexec : s.exec (.countDown t) = some s') : s'.Inv := by
  simp only [exec] at hexec
  split at hexec
  case h_2 => cases hexec
  case h_1 c hpc =>
    have ht := hs.inside t c (.inr hpc)
    have hpos := hs.unlocks t c hpc
    obtain ⟨c', hc', hidle, hdata⟩ := hs.home t hpos
    cases hs.once c c' t ht hc'
    obtain ⟨k, hk⟩ := ne_none_iff_exists'.mp hdata
    have hcnt : k.toInt = (s.depth t : Nat) := by
      have hcnt := hs.count c k hk
      rwa [ht] at hcnt
    rw [hk] at hexec
    cases hexec
    refine hs.recount (k := k - 1) (d := s.depth t - 1) ht ?_ hidle rfl rfl rfl rfl rfl
      (fun t' => ?_) fun t' => ?_
    · rw [Word.toInt_pred (by omega), hcnt]
      omega
    · simp only [update_apply]
      split_ifs
      · exact min_le_right ..
      · exact hs.old_le t'
    · dsimp only
      rw [update_apply]
      split_ifs with heq
      · subst heq
        exact min_le_left ..
      · rfl

/-- A step of `synchronize_rcu` only learns something. -/
lemma Inv.setSync {sync : SyncPc} (hwaits : s.Waits sync) : Inv { s with sync := sync } :=
  hs.stay rfl (fun _ => rfl) (fun _ => rfl) hs.count hs.home hs.inside hs.unlocks hs.old_le
    (hwaits.congr (fun _ => le_rfl) fun _ _ _ hc => ⟨hc, rfl⟩)

lemma Inv.synchronize (hexec : s.exec .synchronize = some s') : s'.Inv := by
  simp only [exec] at hexec
  split at hexec <;> cases hexec
  exact hs.stay rfl (fun _ => rfl) (fun _ => rfl) hs.count hs.home hs.inside hs.unlocks
    (fun _ => le_rfl) fun _ _ _ _ hlt => (Nat.not_lt_zero _ hlt).elim

lemma Inv.snapshot (hexec : s.exec .snapshot = some s') : s'.Inv := by
  have hwaits := hs.waits
  simp only [exec] at hexec
  split at hexec <;> cases hexec
  case h_1 snap i hsync =>
    rw [hsync] at hwaits
    apply hs.setSync
    split
    case isTrue hlt =>
      intro t c hpos hc hci
      by_cases heq : c = i
      · subst heq
        exact update_self ..
      · rw [update_of_ne heq]
        exact hwaits t c hpos hc (Nat.lt_of_le_of_ne (Nat.le_of_lt_succ hci) heq)
    case isFalse hge =>
      intro t c hpos hc
      have hlt := hs.lt c t hc
      exact ⟨Nat.zero_le c, hwaits t c hpos hc (by omega)⟩

lemma Inv.target (hexec : s.exec (.target now) = some s') : s'.Inv := by
  have hwaits := hs.waits
  simp only [exec] at hexec
  split at hexec <;> cases hexec
  case h_1 snap i hsync =>
    rw [hsync] at hwaits
    apply hs.setSync
    split_ifs with hge
    · exact hwaits
    · intro t
      by_contra hne
      have hpos : 0 < s.old t := Nat.pos_of_ne_zero hne
      obtain ⟨c, hc, -⟩ := hs.home t (hpos.trans_le (hs.old_le t))
      have hlt := hs.lt c t hc
      have hle := (hwaits t c hpos hc).1
      omega

lemma Inv.wait {snap : Nat → BitVec 64} {i : Nat} {timeoutTarget : BitVec 64}
    {test test' : RcuTest} {ends : Prop} [Decidable ends]
    (hsync : s.sync = .waiting snap i timeoutTarget test) (hquiet : ends → s.Quiet i) :
    (s.wait snap i timeoutTarget test' ends).Inv := by
  have hwaits := hs.waits
  rw [hsync] at hwaits
  apply hs.setSync
  split_ifs with hends
  · intro t c hpos hc
    obtain ⟨hle, htick⟩ := hwaits t c hpos hc
    have hne : i ≠ c := by
      rintro rfl
      exact hpos.ne' (hquiet hends t hc)
    exact ⟨Nat.lt_of_le_of_ne hle hne, htick⟩
  · exact hwaits

lemma Inv.test (hcond : s.Patient (.test now)) (hexec : s.exec (.test now) = some s') : s'.Inv := by
  have hwaits := hs.waits
  -- a section from before the call that runs on the CPU
  have hquiet {i : Nat} (h : ∀ t, (s.cpu i).current = some t → 0 < s.old t → False) :
      s.Quiet i := by
    intro t ht
    by_contra hne
    exact h t ht (Nat.pos_of_ne_zero hne)
  simp only [exec] at hexec
  split at hexec <;> cases hexec
  case h_1 snap i timeoutTarget hsync =>
    rw [hsync] at hwaits
    refine hs.wait hsync fun hcnt => hquiet fun t ht hpos => ?_
    rw [(hwaits t i hpos ht).2] at hcnt
    exact BitVec.lt_irrefl _ hcnt
  case h_2 snap i timeoutTarget hsync =>
    refine hs.wait hsync fun hnone => hquiet fun t ht hpos => ?_
    have h0 := hs.depth_eq_zero_of_none hnone ht
    have hle := hs.old_le t
    omega
  case h_3 snap i timeoutTarget hsync =>
    refine hs.wait hsync fun ⟨_, hidle⟩ => hquiet fun t ht hpos => ?_
    obtain ⟨c, hc, hne, -⟩ := hs.home t (hpos.trans_le (hs.old_le t))
    cases hs.once i c t ht hc
    exact hne (hidle.symm.trans ht)
  case h_4 snap i timeoutTarget hsync =>
    simp only [Patient, hsync] at hcond
    exact hs.wait hsync hcond

lemma Inv.step (hstep : Step Patient s e s') : s'.Inv := by
  obtain ⟨hallow, hcond, hexec⟩ := hstep
  cases e with
  | init c =>
    cases hexec
    exact hs.init hallow.2
  | schedule c next =>
    cases hexec
    exact hs.schedule hallow.1 hallow.2 hcond
  | tick c next =>
    cases hexec
    obtain ⟨hsettled, hquiet⟩ := hcond
    refine (hs.tickCount hquiet).schedule hallow.1 (fun c' hlt hne => ?_) ?_
    · rw [setCpu_of_ne hne]
      exact hallow.2 c' hlt hne
    · rwa [Settled, setCpu_self]
  | readLock t c =>
    cases hexec
    refine hs.setPc (fun c' h => ?_) fun c' h => by cases h
    obtain h | h := h <;> cases h
    exact hallow.2.1
  | countUp t => exact hs.countUp hcond hexec
  | readUnlock t c =>
    cases hexec
    refine hs.setPc (fun c' h => ?_) fun _ _ => hallow.2.2.2
    obtain h | h := h <;> cases h
    exact hallow.2.1
  | countDown t => exact hs.countDown hexec
  | synchronize => exact hs.synchronize hexec
  | snapshot => exact hs.snapshot hexec
  | target now => exact hs.target hexec
  | test now => exact hs.test hcond hexec

end

/-- In every run whose steps meet the condition, on any number of CPUs. -/
theorem gracePeriod_of_run {numCpus : Nat} {idle : Nat → Option Nat} {events : List RcuEvent}
    (hrun : Run (Step Patient) (boot numCpus idle) events s) : s.GracePeriod := by
  intro hret
  have hs := hrun.invariant (I := Inv) (fun _ _ _ hs hstep => hs.step hstep) (Inv.boot ..)
  have hwaits := hs.waits
  rwa [hret] at hwaits

/-- A section begins on the second of two CPUs, and `synchronize_rcu` takes its snapshots and waits
for the first CPU. -/
def oneSection : List RcuEvent :=
  [.init 0, .init 1, .schedule 0 10, .schedule 1 11, .readLock 11 1, .countUp 11, .synchronize,
    .snapshot, .snapshot, .snapshot, .target 0, .tick 0 10, .test 0, .target 0]

/-- The section ends before the tick on its CPU. -/
theorem oneSection_gracePeriod :
    ∃ s, Run (Step Patient) (boot 2 fun _ => none)
        (oneSection ++ [.readUnlock 11 1, .countDown 11, .tick 1 11, .test 0, .target 0]) s ∧
      s.sync = .returned ∧ s.GracePeriod := by
  have hsome : ((Run.exec (step? Patient) (boot 2 fun _ => none)
      (oneSection ++ [.readUnlock 11 1, .countDown 11, .tick 1 11, .test 0, .target 0])).any
      fun s => match s.sync with | .returned => true | _ => false) = true := by
    decide +kernel
  obtain ⟨s, hexec, hsync⟩ := (any_eq_true _ _).mp hsome
  have hrun := Run.of_exec (fun _ _ _ => step_of_step?) hexec
  have hret : s.sync = .returned := by
    cases h : s.sync <;> rw [h] at hsync <;> first | rfl | cases hsync
  exact ⟨s, hrun, hret, gracePeriod_of_run hrun⟩

/-- The tick on its CPU comes while the section is open, and the call returns. -/
theorem oneSection_outlasts :
    ∃ s, Run (Step fun _ _ => True) (boot 2 fun _ => none)
        (oneSection ++ [.tick 1 11, .test 0, .target 0]) s ∧ ¬s.GracePeriod := by
  have hsome : ((Run.exec (step? fun _ _ => True) (boot 2 fun _ => none)
      (oneSection ++ [.tick 1 11, .test 0, .target 0])).any
      fun s => match s.sync with | .returned => decide (s.old 11 = 1) | _ => false) = true := by
    decide +kernel
  obtain ⟨s, hexec, hs⟩ := (any_eq_true _ _).mp hsome
  refine ⟨s, Run.of_exec (fun _ _ _ => step_of_step?) hexec, fun hperiod => ?_⟩
  cases h : s.sync <;> rw [h] at hs <;> try cases hs
  have hold := hperiod h 11
  rw [of_decide_eq_true hs] at hold
  cases hold

end Rcu

end Singularity.Sync
