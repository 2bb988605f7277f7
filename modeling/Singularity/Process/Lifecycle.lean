import Singularity.Process.Stillness

/-!
# The life of a task

A task is created, queued, scheduled and at last killed: by `process_exit`, or by
`oom_reaper_scan`, which stores the state of another task without asking where that task is.
The reaper looks at every CPU, takes the dead task out of the task list and its run queue, and
frees it. A task that is killed in a run queue stays dead; one that is killed in its sleep does
not.
-/

namespace Singularity.Process

open Foundation Function Option Kernel

namespace Kernel

variable {n t u : Nat} {cfg : Tasking n} {k k' : Kernel n}

/-- The `cpu_id` is stored of a task that is nowhere. -/
lemma Inv.aim (h : k.Inv cfg) (cpu : Nat) (hoff : ∀ p, ¬k.At u p)
    (hcur : ∀ c, (k.pc c).live = true → k.current c ≠ u) (hawake : k.sleepsOn u = none)
    (hst : k.state u ≠ .sleeping) : { k with cpuId := update k.cpuId u cpu }.Inv cfg := by
  refine { h with
    live := fun c hc => ?_
    asleep := fun x c hsleeps => ?_
    sleeping := fun x hx => ?_
    assigned := fun c x hx => ?_ }
  · obtain ⟨hfree, hcpu⟩ := h.live c hc
    exact ⟨{ hfree with }, (update_of_ne (hcur c hc) ..).trans hcpu⟩
  · obtain ⟨hat, hcpu, hasleep⟩ := h.asleep x c hsleeps
    have hne : x ≠ u := by
      rintro rfl
      exact some_ne_none c (hsleeps.symm.trans hawake)
    exact ⟨hat, (update_of_ne hne ..).trans hcpu, hasleep⟩
  · have hne : x ≠ u := by
      rintro rfl
      exact hst hx
    exact (h.sleeping x hx).trans (congrArg some (update_of_ne hne ..).symm)
  · have hne : x ≠ u := by
      rintro rfl
      exact hoff (.hand c) (Stage.held_of_assigned hx)
    exact (update_of_ne hne ..).trans (h.assigned c x hx)

/-- The scheduler is in order, and the dead are left alone. -/
structure Orderly (cfg : Tasking n) (k : Kernel n) : Prop where
  inv : k.Inv cfg
  waiting : k.Waiting
  born : ∀ c, k.state (k.current c) ≠ .dead
  zombies : ∀ t, k.state t = .zombie → k.Still t

namespace Orderly

lemma moves (ho : k.Orderly cfg) (hI : k'.Inv cfg) (hm : k.Moves k') : k'.Orderly cfg where
  inv := hI
  waiting t q hq := by
    obtain ⟨hst, hwaits⟩ | ⟨-, hnone | hblk⟩ := hm.alters t
    · exact hst.trans (ho.waiting t q (hwaits q hq))
    · cases hnone.symm.trans hq
    · exact hblk
  born := hm.born ho.born
  zombies t hzombie := by
    obtain ⟨hst, -⟩ | ⟨⟨-, hne⟩, -⟩ := hm.alters t
    · exact (hm.rests t (ho.zombies t (hst.symm.trans hzombie))).still
    · exact absurd hzombie hne

lemma store (ho : k.Orderly cfg) (hI : k'.Inv cfg) {state : ProcessState}
    (hst : k'.state = update k.state u state) (hwaits : k'.waitsOn = k.waitsOn)
    (hcur : k'.current = k.current) (hrests : ∀ t, k.Still t → k.Rests k' t)
    (hblk : k.state u ≠ .blocked) (hdead : state ≠ .dead)
    (hzombie : state = .zombie → k'.Still u) : k'.Orderly cfg where
  inv := hI
  waiting t q hq := by
    rw [hwaits] at hq
    have hbefore := ho.waiting t q hq
    have htu : t ≠ u := by
      rintro rfl
      exact hblk hbefore
    rwa [hst, update_of_ne htu]
  born c := by
    rw [hst, hcur]
    rw [update_apply]
    split_ifs
    · exact hdead
    · exact ho.born c
  zombies t ht := by
    rw [hst] at ht
    rw [update_apply] at ht
    split_ifs at ht with htu
    · subst htu
      exact hzombie ht
    · exact (hrests t (ho.zombies t ht)).still

end Orderly

/-- The task is created and nobody knows it yet but its creator and the task list. -/
structure Fresh (k : Kernel n) (t : Nat) : Prop where
  still : k.Still t
  ready : k.state t = .ready
  current : ∀ c, k.current c ≠ t

lemma Fresh.rests (hf : k.Fresh t) (hr : k.Rests k' t) : k'.Fresh t where
  still := hr.still
  ready := hr.state.trans hf.ready
  current c hc := hf.current c (hr.current c hc)

/-- The task is dead and in no place from which it could come back. -/
structure Buried (k : Kernel n) (t : Nat) : Prop where
  zombie : k.state t = .zombie
  queued : k.isQueued t = false
  current : ∀ c, k.current c ≠ t
  picked : ∀ c, k.pc c ≠ .picked t

lemma Buried.rests (hb : k.Buried t) (hr : k.Rests k' t) : k'.Buried t where
  zombie := hr.state.trans hb.zombie
  queued := by
    refine Bool.eq_false_iff.mpr fun hq => ?_
    cases hb.queued.symm.trans (hr.queued hq)
  current c hc := hb.current c (hr.current c hc)
  picked c hc := by
    obtain hpc | hq := hr.picked c hc
    · exact hb.picked c hpc
    · cases hb.queued.symm.trans hq

end Kernel

/-- Where a call of `oom_reaper_scan` is. -/
inductive Oom where
  | idle
  /-- A victim is chosen, and the lock of the task list is released. -/
  | chosen (victim : Nat)
  /-- The state of the victim is stored. -/
  | killed (victim : Nat)
  /-- In `sched_remove` with the `cpu_id` of the victim. -/
  | loaded (victim cpu : Nat)
  deriving DecidableEq

/-- Where the reaper is in `reapOne`. -/
inductive Reaper where
  | idle
  /-- A dead task is found under the read lock. -/
  | found (victim : Nat)
  /-- The read of `current_process[i]`. -/
  | checkingCurrent (victim i : Nat)
  /-- The read of `switching_task` of CPU `i`. -/
  | checkingSwitching (victim i : Nat)
  /-- The task is taken out of the task list. -/
  | unlinked (victim : Nat)
  | loaded (victim cpu : Nat)
  /-- Behind `sched_remove`. -/
  | removed (victim : Nat)
  deriving DecidableEq

/-- The scheduler, the task list and the calls that create and kill tasks. -/
structure Life (n : Nat) where
  kernel : Kernel n
  listed : Nat → Bool
  /-- The CPU to which `create_task_internal` is about to give the task. -/
  creating : Nat → Option Nat
  oom : Nat → Oom
  reaper : Reaper
  freed : Nat → Bool

inductive LifeEvent (n : Nat) where
  | sched (e : KernelEvent n)
  | create (task cpu : Nat)
  | launch (task : Nat)
  | exit (c : Fin n)
  | choose (thread task : Nat)
  | oom (thread : Nat)
  | find (task : Nat)
  | reap

namespace Oom

def victim : Oom → Option Nat
  | .idle => none
  | .chosen victim | .killed victim | .loaded victim _ => some victim

/-- What a call knows about its victim. -/
def Ok {n : Nat} (k : Kernel n) : Oom → Prop
  | .idle | .chosen _ => True
  | .killed victim => k.state victim = .zombie
  | .loaded victim cpu => k.state victim = .zombie ∧
      (k.isQueued victim = true → k.cpuId victim = cpu)

variable {n : Nat}

lemma Ok.rests {oom : Oom} (hok : oom.Ok k)
    (hrests : ∀ t, k.state t = .zombie → k.Rests k' t) : oom.Ok k' := by
  cases oom with
  | idle | chosen victim => trivial
  | killed victim => exact (hrests victim hok).state.trans hok
  | loaded victim cpu =>
    have hr := hrests victim hok.1
    exact ⟨hr.state.trans hok.1, fun hq => hr.cpuId.trans (hok.2 (hr.queued hq))⟩

end Oom

namespace Reaper

/-- What the reaper knows about its victim. -/
def Ok {n : Nat} (k : Kernel n) : Reaper → Prop
  | .idle | .found _ => True
  | .checkingCurrent victim i => k.state victim = .zombie ∧
      ∀ j : Fin n, j < i → k.current j ≠ victim
  | .checkingSwitching victim i => k.state victim = .zombie ∧
      ∀ j : Fin n, j ≤ i → k.current j ≠ victim
  | .unlinked victim => k.state victim = .zombie ∧ ∀ j, k.current j ≠ victim
  | .loaded victim cpu => k.state victim = .zombie ∧ (∀ j, k.current j ≠ victim) ∧
      (k.isQueued victim = true → k.cpuId victim = cpu)
  | .removed victim => k.state victim = .zombie ∧ (∀ j, k.current j ≠ victim) ∧
      k.isQueued victim = false

variable {n : Nat}

lemma Ok.rests {reaper : Reaper} (hok : reaper.Ok k)
    (hrests : ∀ t, k.state t = .zombie → k.Rests k' t) : reaper.Ok k' := by
  cases reaper with
  | idle | found victim => trivial
  | checkingCurrent victim i | checkingSwitching victim i =>
    have hr := hrests victim hok.1
    exact ⟨hr.state.trans hok.1, fun j hj hc => hok.2 j hj (hr.current j hc)⟩
  | unlinked victim =>
    have hr := hrests victim hok.1
    exact ⟨hr.state.trans hok.1, fun j hc => hok.2 j (hr.current j hc)⟩
  | loaded victim cpu =>
    have hr := hrests victim hok.1
    exact ⟨hr.state.trans hok.1, fun j hc => hok.2.1 j (hr.current j hc),
      fun hq => hr.cpuId.trans (hok.2.2 (hr.queued hq))⟩
  | removed victim =>
    have hr := hrests victim hok.1
    refine ⟨hr.state.trans hok.1, fun j hc => hok.2.1 j (hr.current j hc), ?_⟩
    exact Bool.eq_false_iff.mpr fun hq => by cases hok.2.2.symm.trans (hr.queued hq)

end Reaper

namespace Life

variable {n t u : Nat} {cfg : Tasking n} {s s' s₀ : Life n}

def setKernel (s : Life n) (kernel : Kernel n) : Life n := { s with kernel }

/-- The next step of the reaper. -/
def reapOne (cfg : Tasking n) (s : Life n) : Option (Life n) :=
  match s.reaper with
  | .idle => none
  | .found victim =>
    if s.listed victim = true ∧ s.kernel.gone victim = true then
      some { s with reaper := .checkingCurrent victim 0 }
    else some { s with reaper := .idle }
  | .checkingCurrent victim i =>
    if h : i < n then
      if s.kernel.current ⟨i, h⟩ = victim then some { s with reaper := .idle }
      else some { s with reaper := .checkingSwitching victim i }
    else if 0 < cfg.pid victim then
      some { s with
        listed := update s.listed victim false
        reaper := .unlinked victim }
    else some { s with reaper := .idle }
  | .checkingSwitching victim i =>
    if h : i < n then
      if s.kernel.switching ⟨i, h⟩ = some victim then some { s with reaper := .idle }
      else some { s with reaper := .checkingCurrent victim (i + 1) }
    else none
  | .unlinked victim => some { s with reaper := .loaded victim (s.kernel.cpuId victim) }
  | .loaded victim _ =>
    some { s with
      kernel := s.kernel.remove victim
      reaper := .removed victim }
  | .removed victim =>
    some { s with
      freed := update s.freed victim true
      reaper := .idle }

/-- The next step of a call of `oom_reaper_scan` that has found a victim. -/
def oomReaperScan (s : Life n) (thread : Nat) : Option (Life n) :=
  match s.oom thread with
  | .idle => none
  | .chosen victim =>
    some { s with
      kernel := s.kernel.setState victim .zombie
      oom := update s.oom thread (.killed victim) }
  | .killed victim =>
    some { s with
      oom := update s.oom thread (.loaded victim (s.kernel.cpuId victim)) }
  | .loaded victim _ =>
    some { s with
      kernel := s.kernel.remove victim
      oom := update s.oom thread .idle }

/-- One access or one section of the scheduler or of a call that creates or kills a task. -/
def step (cfg : Tasking n) (s : Life n) : LifeEvent n → Option (Life n)
  | .sched e => (s.kernel.step cfg e).map s.setKernel
  | .create task cpu =>
    if s.kernel.state task = .dead ∧ cfg.pid task ≠ 0 then
      some { s with
        kernel := { s.kernel.setState task .ready with
          cpuId := update s.kernel.cpuId task cpu }
        listed := update s.listed task true
        creating := update s.creating task (some cpu) }
    else none
  | .launch task =>
    (s.creating task).map fun cpu =>
      { s with
        kernel := s.kernel.enqueue cpu task
        creating := update s.creating task none }
  | .exit c =>
    if s.kernel.pc c = .running ∧ cfg.pid (s.kernel.current c) ≠ 0 then
      some { s with
        kernel := (s.kernel.setState (s.kernel.current c) .zombie).goto c .exiting }
    else none
  | .choose thread task =>
    if s.oom thread = .idle ∧ s.listed task = true ∧ 10 < cfg.pid task ∧
        s.kernel.gone task = false then
      some { s with oom := update s.oom thread (.chosen task) }
    else none
  | .oom thread => s.oomReaperScan thread
  | .find task =>
    if s.reaper = .idle ∧ s.listed task = true ∧ s.kernel.gone task = true then
      some { s with reaper := .found task }
    else none
  | .reap => s.reapOne cfg

/-- No other call has the task at hand. -/
structure Unheld (s : Life n) (t : Nat) : Prop where
  picked : ∀ c, s.kernel.pc c ≠ .picked t
  calls : ∀ thread call, s.kernel.calls thread = some call → call.task ≠ t
  oom : ∀ thread, (s.oom thread).victim ≠ some t

/-- Wake-ups know where their tasks are, `oom_reaper_scan` kills tasks in run queues, and a task
is freed that no other call has at hand. -/
def Meets (s : Life n) : LifeEvent n → Prop
  | .sched e => s.kernel.Meets e ∧ s.kernel.Unqueued e
  | .oom thread => ∀ victim, s.oom thread = .chosen victim →
      s.kernel.state victim = .ready ∧ s.kernel.isQueued victim = true
  | .reap => ∀ victim, s.reaper = .removed victim → s.Unheld victim
  | _ => True

structure Inv (cfg : Tasking n) (s : Life n) : Prop where
  orderly : s.kernel.Orderly cfg
  listed : ∀ t, s.listed t = true → s.kernel.state t ≠ .dead
  fresh : ∀ t cpu, s.creating t = some cpu → s.kernel.Fresh t
  oom : ∀ thread, (s.oom thread).Ok s.kernel
  reaper : s.reaper.Ok s.kernel
  freed : ∀ t, s.freed t = true → s.kernel.Buried t

lemma reapOne_state (hok : s.reapOne cfg = some s') : s'.kernel.state = s.kernel.state := by
  simp only [reapOne] at hok
  repeat' split at hok
  all_goals cases hok <;> rfl

namespace Inv

variable (h : s.Inv cfg)
include h

lemma setKernel (horderly : k'.Orderly cfg)
    (hrests : ∀ t, s.kernel.Still t → s.kernel.state t = .zombie ∨ s.creating t ≠ none →
      s.kernel.Rests k' t)
    (hborn : ∀ t, s.kernel.state t ≠ .dead → k'.state t ≠ .dead) : (s.setKernel k').Inv cfg := by
  have hdead (t : Nat) (ht : s.kernel.state t = .zombie) : s.kernel.Rests k' t :=
    hrests t (h.orderly.zombies t ht) (.inl ht)
  refine ⟨horderly, fun t ht => hborn t (h.listed t ht), fun t cpu ht => ?_,
    fun thread => (h.oom thread).rests hdead, h.reaper.rests hdead, fun t ht => ?_⟩
  · have hf := h.fresh t cpu ht
    refine hf.rests (hrests t hf.still (.inr ?_))
    exact fun hnone => some_ne_none cpu (ht.symm.trans hnone)
  · exact (h.freed t ht).rests (hdead t (h.freed t ht).zombie)

lemma sched (hmeets : s.kernel.Meets e) (hunqueued : s.kernel.Unqueued e)
    (hok : s.kernel.step cfg e = some k') : (s.setKernel k').Inv cfg := by
  obtain ⟨hI, hwaiting, -, hzombies⟩ := h.orderly
  have hm : s.kernel.Moves k' := hI.moves_step hwaiting hzombies hmeets hunqueued hok
  refine h.setKernel (h.orderly.moves (hI.step hmeets hok) hm) (fun t hs _ => hm.rests t hs)
    fun t ht => ?_
  obtain ⟨hst, -⟩ | ⟨⟨hne, -⟩, -⟩ := hm.alters t
  · rwa [hst]
  · exact hne

lemma remove (u : Nat) : (s.setKernel (s.kernel.remove u)).Inv cfg :=
  h.setKernel (h.orderly.moves (h.orderly.inv.remove u) (Kernel.Moves.remove u))
    (fun _ hs _ => Kernel.Rests.remove hs u) fun _ ht => ht

lemma store (hI : k'.Inv cfg) (state : ProcessState)
    (hst : k'.state = update s.kernel.state u state)
    (hwaits : k'.waitsOn = s.kernel.waitsOn) (hcur : k'.current = s.kernel.current)
    (hrests : ∀ t, s.kernel.Still t → s.kernel.Rests k' t)
    (hblk : s.kernel.state u ≠ .blocked) (hdead : state ≠ .dead)
    (hzombie : state = .zombie → k'.Still u) : (s.setKernel k').Inv cfg := by
  refine h.setKernel (h.orderly.store hI hst hwaits hcur hrests hblk hdead hzombie)
    (fun t hs _ => hrests t hs) fun t ht => ?_
  rw [hst]
  rw [update_apply]
  split_ifs
  · exact hdead
  · assumption

/-- The running task exits. -/
lemma exit (hpc : s.kernel.pc c = .running) (hpid : cfg.pid (s.kernel.current c) ≠ 0) :
    (s.setKernel ((s.kernel.setState (s.kernel.current c) .zombie).goto c .exiting)).Inv cfg := by
  let k := s.kernel
  let u := k.current c
  have hI : k.Inv cfg := h.orderly.inv
  have hlive : (k.pc c).live = true := by
    rw [hpc]
    rfl
  obtain ⟨hfree, hcpu⟩ := hI.live c hlive
  have hidle (i : Fin n) : u ≠ cfg.idle i := by
    intro heq
    exact hpid ((congrArg cfg.pid heq).trans (cfg.pid_idle i))
  have hself : (k.setState u .zombie).state u = .zombie := update_self ..
  have hfree' : (k.setState u .zombie).Free u := hfree.setState u .zombie (by simp)
  have hstill : ¬k.Still u := Kernel.Still.not_of_live hpc rfl nofun
  have hstored : (k.setState u .zombie).Inv cfg :=
    hI.setState u .zombie (fun _ => hidle) (by simp) nofun (.inl rfl) nofun
  have hfree'' : ((k.setState u .zombie).goto c .exiting).Free u := hfree'.goto nofun
  refine h.store (u := u) ?_ .zombie rfl rfl rfl (fun t hs => ?_) hfree.blocked nofun
    fun _ => ?_
  · refine hstored.goto c .exiting nofun (fun _ => ⟨hfree'', hcpu⟩) nofun nofun
      (by simp) (fun _ _ hj => hj.elim) (fun _ => ?_) (fun _ => hI.slot c (by rw [hpc]; rfl))
      fun _ => hI.stack c (by simp [k, hpc])
    change (k.setState u .zombie).state u ≠ .running
    rw [hself]
    exact nofun
  · have hr := Kernel.Rests.setState hs (hs.ne hstill) .zombie
    exact hr.trans (Kernel.Rests.goto hr.still c .exiting nofun fun _ _ => rfl)
  · refine ⟨.inl hself, hfree.awake, fun c' => hfree.off (.pending c'), fun _ => hself, ?_, ?_⟩
    · exact fun c' hc' => absurd hc' (hfree''.off (.hand c'))
    intro c' hc' _
    have heq : c' = c := hI.current hc'
    rw [heq]
    exact update_self ..

lemma kill (hready : s.kernel.state u = .ready) (hq : s.kernel.isQueued u = true) :
    (s.setKernel (s.kernel.setState u .zombie)).Inv cfg := by
  have hI := h.orderly.inv
  have hself : (s.kernel.setState u .zombie).state u = .zombie := update_self ..
  have hstill : ¬s.kernel.Still u := fun hs => by cases hready.symm.trans (hs.queued hq)
  have hidle := hI.ne_idle (t := u) (by simp [hready])
  refine h.store (u := u) ?_ .zombie rfl rfl rfl (fun t hs => ?_) (by simp [hready]) nofun
    fun _ => ?_
  · exact hI.setState u .zombie (fun _ => hidle) (by simp) nofun (.inl rfl) nofun
  · exact Kernel.Rests.setState hs (hs.ne hstill) .zombie
  have hawake := hI.awake_of_at (p := .queue) hq
  refine ⟨.inl hself, hawake, fun c hc => ?_, fun _ => hself, fun c hc => ?_, fun c hc hlive => ?_⟩
  · cases hI.unique u .queue (.pending c) hq hc
  · cases hI.unique u .queue (.hand c) hq hc
  · exact absurd hc (hI.ne_current (p := .queue) hq hlive)

/-- A task is created. -/
lemma create (hdead : s.kernel.state u = .dead) (cpu : Nat) :
    (s.setKernel { s.kernel.setState u .ready with
      cpuId := update s.kernel.cpuId u cpu }).Inv cfg ∧
    { s.kernel.setState u .ready with
      cpuId := update s.kernel.cpuId u cpu }.Fresh u := by
  have hI := h.orderly.inv
  have hoff := hI.off u (.inr (.inr hdead))
  have hself : (s.kernel.setState u .ready).state u = .ready := update_self ..
  have hstill : ¬s.kernel.Still u := by
    intro hs
    have hst := hs.state
    simp [hdead] at hst
  have hcur (c : Fin n) : s.kernel.current c ≠ u := by
    intro heq
    exact h.orderly.born c (heq ▸ hdead)
  have hawake : s.kernel.sleepsOn u = none := by
    cases hsleeps : s.kernel.sleepsOn u with
    | none => rfl
    | some c => simpa [hdead] using (hI.asleep u c hsleeps).2.2
  have haimed : { s.kernel with cpuId := update s.kernel.cpuId u cpu }.Inv cfg :=
    hI.aim cpu hoff (fun c _ => hcur c) hawake (by simp [hdead])
  refine ⟨h.store (u := u) ?_ .ready rfl rfl rfl (fun t hs => ?_) (by simp [hdead]) nofun nofun,
    ⟨⟨.inr hself, hawake, fun c => hoff (.pending c), fun hq => absurd hq (hoff .queue),
      fun c hc => absurd hc (hoff (.hand c)), fun c hc => absurd hc (hcur c)⟩, hself, hcur⟩⟩
  · exact haimed.setState u .ready (fun _ => hI.ne_idle (by simp [hdead])) (by simp) nofun
      (.inr hawake) nofun
  · have hr := Kernel.Rests.assign hs (hs.ne hstill) cpu
    exact hr.trans (Kernel.Rests.setState hr.still (hs.ne hstill) .ready)

/-- A created task is queued. -/
lemma launch (hcreating : s.creating u = some cpu) :
    { s with
      kernel := s.kernel.enqueue cpu u
      creating := update s.creating u none }.Inv cfg := by
  have hf := h.fresh u cpu hcreating
  have hI := h.orderly.inv
  have hready : s.kernel.state u ≠ .zombie := by simp [hf.ready]
  have hoff (p : Kernel.Place n) : ¬s.kernel.At u p := by
    cases p with
    | queue => exact fun hq => hready (hf.still.queued hq)
    | pending c => exact hf.still.pending c
    | hand c => exact fun hc => hready (hf.still.held c hc).2
  have htakes : s.kernel.Takes cfg .queue u := by
    refine ⟨⟨hoff, hf.still.ne_blocked, hf.still.ne_sleeping, by simp [hf.ready], hf.still.awake⟩,
      fun c _ _ => hf.current c, fun i heq => ?_⟩
    exact absurd heq (hI.ne_idle hf.still.ne_running i)
  have hrests {t : Nat} (hs : s.kernel.Still t) (ht : t ≠ u) :
      s.kernel.Rests (s.kernel.enqueue cpu u) t := Kernel.Rests.enqueue hs ht cpu
  have hne {t : Nat} (ht : s.kernel.state t = .zombie) : t ≠ u := by
    rintro rfl
    exact hready ht
  have horderly : (s.kernel.enqueue cpu u).Orderly cfg := by
    refine ⟨hI.enqueue cpu htakes, fun t q hq => ?_, fun c => ?_, fun t ht => ?_⟩
    · rw [enqueue_waitsOn] at hq
      rw [enqueue_state]
      exact h.orderly.waiting t q hq
    · rw [enqueue_state, enqueue_current]
      exact h.orderly.born c
    · rw [enqueue_state] at ht
      exact (hrests (h.orderly.zombies t ht) (hne ht)).still
  have hunborn : { s with creating := update s.creating u none }.Inv cfg := by
    refine { h with fresh := fun t cpu' ht => ?_ }
    dsimp only at ht
    rw [update_apply] at ht
    split_ifs at ht
    exact h.fresh t cpu' ht
  refine hunborn.setKernel horderly (fun t hs ht => hrests hs ?_) fun t ht => ?_
  · obtain hzombie | hcreated := ht
    · exact hne hzombie
    · rintro rfl
      exact hcreated (update_self ..)
  · rwa [enqueue_state]

lemma oomReaperScan
    (hcond : ∀ victim, s.oom thread = .chosen victim → s.kernel.state victim = .ready ∧
      s.kernel.isQueued victim = true) (hok : s.oomReaperScan thread = some s') : s'.Inv cfg := by
  have hset {s : Life n} {oom : Oom} (h : s.Inv cfg) (hoom : oom.Ok s.kernel) :
      { s with oom := update s.oom thread oom }.Inv cfg := by
    refine { h with oom := fun thread' => ?_ }
    dsimp only
    rw [update_apply]
    split_ifs
    · exact hoom
    · exact h.oom thread'
  have hoom := h.oom thread
  cases hscan : s.oom thread with
  | idle => simp [Life.oomReaperScan, hscan] at hok
  | chosen victim =>
    simp only [Life.oomReaperScan, hscan] at hok
    cases hok
    obtain ⟨hready, hq⟩ := hcond victim hscan
    exact hset (h.kill hready hq) (update_self ..)
  | killed victim =>
    simp only [Life.oomReaperScan, hscan] at hok
    cases hok
    rw [hscan] at hoom
    exact hset h ⟨hoom, fun _ => rfl⟩
  | loaded victim cpu =>
    simp only [Life.oomReaperScan, hscan] at hok
    cases hok
    exact hset (h.remove victim) trivial

lemma setReaper (reaper : Reaper) (hreaper : reaper.Ok s.kernel) : { s with reaper }.Inv cfg :=
  { h with reaper := hreaper }

lemma zombie_of_gone (hlisted : s.listed t = true) (hgone : s.kernel.gone t = true) :
    s.kernel.state t = .zombie := by
  simp only [gone, Bool.or_eq_true, decide_eq_true_eq] at hgone
  exact hgone.resolve_right (h.listed t hlisted)

lemma reapOne (hcond : ∀ victim, s.reaper = .removed victim → s.Unheld victim)
    (hok : s.reapOne cfg = some s') : s'.Inv cfg := by
  have hreaper := h.reaper
  unfold Life.reapOne at hok
  cases hreap : s.reaper <;> rw [hreap] at hreaper <;>
    simp only [hreap, Option.some.injEq, reduceCtorEq] at hok <;> try cases hok
  case found victim =>
    split at hok
    case isTrue hgone =>
      cases hok
      exact h.setReaper _
        ⟨h.zombie_of_gone hgone.1 hgone.2, fun j hj => absurd hj (Nat.not_lt_zero j)⟩
    · cases hok
      exact h.setReaper .idle trivial
  case checkingCurrent victim i =>
    split at hok
    case isTrue hi =>
      split at hok <;> cases hok
      · exact h.setReaper .idle trivial
      case isFalse hcur =>
        refine h.setReaper _ ⟨hreaper.1, fun j hj => ?_⟩
        obtain hlt | heq := lt_or_eq_of_le hj
        · exact hreaper.2 j hlt
        · rwa [Fin.ext (b := ⟨i, hi⟩) heq]
    case isFalse hi =>
      split at hok <;> cases hok
      · have hlisted := h.setReaper (.unlinked victim)
          ⟨hreaper.1, fun j => hreaper.2 j (j.isLt.trans_le (Nat.le_of_not_lt hi))⟩
        refine { hlisted with listed := fun t ht => h.listed t ?_ }
        dsimp only at ht
        rw [update_apply] at ht
        split_ifs at ht
        exact ht
      · exact h.setReaper .idle trivial
  case checkingSwitching victim i =>
    obtain ⟨_, hok⟩ := dite_none_right_eq_some.mp hok
    split at hok
    · cases hok
      exact h.setReaper .idle trivial
    · cases hok
      exact h.setReaper _ ⟨hreaper.1, fun j hj => hreaper.2 j (Nat.le_of_lt_succ hj)⟩
  case unlinked victim =>
    exact h.setReaper _ ⟨hreaper.1, hreaper.2, fun _ => rfl⟩
  case loaded victim cpu =>
    exact (h.remove victim).setReaper _ ⟨hreaper.1, hreaper.2.1, update_self ..⟩
  case removed victim =>
    have hburied : s.kernel.Buried victim :=
      ⟨hreaper.1, hreaper.2.2, hreaper.2.1, (hcond victim hreap).picked⟩
    refine { h.setReaper .idle trivial with freed := fun t ht => ?_ }
    dsimp only at ht
    by_cases htv : t = victim
    · rwa [htv]
    · rw [update_of_ne htv] at ht
      exact h.freed t ht

section
variable {e : LifeEvent n} (hmeets : s.Meets e) (hok : s.step cfg e = some s')
include hmeets hok

/-- Every step keeps the invariant. -/
lemma step : s'.Inv cfg := by
  cases e with
  | sched e =>
    obtain ⟨k', hstep, rfl⟩ := map_eq_some_iff.mp hok
    exact h.sched hmeets.1 hmeets.2 hstep
  | create task cpu =>
    obtain ⟨hcreate, ⟨⟩⟩ := then_of_ite hok
    obtain ⟨h', hfresh⟩ := h.create hcreate.1 cpu
    refine { h' with listed := fun t ht => ?_, fresh := fun t cpu' ht => ?_ }
    · dsimp only at ht
      by_cases htask : t = task
      · rw [htask]
        exact fun hdead => by cases hfresh.ready.symm.trans hdead
      · rw [update_of_ne htask] at ht
        exact h'.listed t ht
    · dsimp only at ht
      by_cases htask : t = task
      · rwa [htask]
      · rw [update_of_ne htask] at ht
        exact h'.fresh t cpu' ht
  | launch task =>
    obtain ⟨cpu, hcreating, rfl⟩ := map_eq_some_iff.mp hok
    exact h.launch hcreating
  | exit c =>
    obtain ⟨hexit, ⟨⟩⟩ := then_of_ite hok
    exact h.exit hexit.1 hexit.2
  | choose thread task =>
    obtain ⟨-, ⟨⟩⟩ := then_of_ite hok
    refine { h with oom := fun thread' => ?_ }
    dsimp only
    rw [update_apply]
    split_ifs
    · trivial
    · exact h.oom thread'
  | oom thread => exact h.oomReaperScan hmeets hok
  | find task =>
    obtain ⟨-, ⟨⟩⟩ := then_of_ite hok
    exact h.setReaper (.found task) trivial
  | reap => exact h.reapOne hmeets hok

lemma zombie_step (ht : s.kernel.state t = .zombie) : s'.kernel.state t = .zombie := by
  have hstore (u : Nat) : (s.kernel.setState u .zombie).state t = .zombie := by
    change update s.kernel.state u .zombie t = .zombie
    rw [update_apply]
    split_ifs
    · rfl
    · assumption
  cases e with
  | sched e =>
    obtain ⟨k', hstep, rfl⟩ := map_eq_some_iff.mp hok
    obtain ⟨hI, hwaiting, -, hzombies⟩ := h.orderly
    have hm := hI.moves_step hwaiting hzombies hmeets.1 hmeets.2 hstep
    exact (hm.rests t (hzombies t ht)).state.trans ht
  | create task cpu =>
    obtain ⟨hcreate, ⟨⟩⟩ := then_of_ite hok
    have hne : t ≠ task := by
      rintro rfl
      cases ht.symm.trans hcreate.1
    exact (update_of_ne hne ..).trans ht
  | launch task =>
    obtain ⟨cpu, -, rfl⟩ := map_eq_some_iff.mp hok
    rwa [enqueue_state]
  | exit c =>
    obtain ⟨-, ⟨⟩⟩ := then_of_ite hok
    exact hstore _
  | choose thread task | find task =>
    obtain ⟨-, ⟨⟩⟩ := then_of_ite hok
    exact ht
  | oom thread =>
    simp only [Life.step, Life.oomReaperScan] at hok
    split at hok <;> cases hok
    · exact hstore _
    · exact ht
    · exact ht
  | reap => exact (congrFun (reapOne_state hok) t).trans ht

end

end Inv

/-- Nothing that the scheduler follows leads to the task. -/
structure Unreferenced (k : Kernel n) (t : Nat) : Prop where
  queued : k.isQueued t = false
  asleep : k.sleepsOn t = none
  waits : k.waitsOn t = none
  pending : ∀ c, k.pending c ≠ some t
  current : ∀ c, k.current c ≠ t

lemma Inv.unreferenced (h : s.Inv cfg) (ht : s.freed t = true) : Unreferenced s.kernel t := by
  obtain ⟨hzombie, hqueued, hcur, -⟩ := h.freed t ht
  have hstill := h.orderly.zombies t hzombie
  exact ⟨hqueued, hstill.awake, h.orderly.waiting.none_of_ne hstill.ne_blocked, hstill.pending,
    hcur⟩

/-- Nobody has killed a task yet. -/
structure Initial (cfg : Tasking n) (s : Life n) : Prop where
  kernel : s.kernel.Initial cfg
  waitsOn : ∀ t, s.kernel.waitsOn t = none
  listed : ∀ t, s.listed t = true → s.kernel.state t ≠ .dead
  creating : ∀ t, s.creating t = none
  oom : ∀ thread, s.oom thread = .idle
  reaper : s.reaper = .idle
  freed : ∀ t, s.freed t = false

lemma Initial.inv (hinit : s.Initial cfg) : s.Inv cfg where
  orderly := by
    refine ⟨hinit.kernel.inv, fun t q hq => ?_, fun c => ?_, fun t ht => ?_⟩
    · cases (hinit.waitsOn t).symm.trans hq
    · rw [hinit.kernel.current c, (hinit.kernel.idle c).1]
      exact nofun
    · obtain ⟨hst, -⟩ | ⟨hst, -⟩ :=
        hinit.kernel.ready_or_dead (t := t) fun c hrunning => by simp [ht] at hrunning
      · cases ht.symm.trans hst
      · cases ht.symm.trans hst
  listed := hinit.listed
  fresh t cpu ht := by cases (hinit.creating t).symm.trans ht
  oom thread := by
    rw [hinit.oom thread]
    trivial
  reaper := by
    rw [hinit.reaper]
    trivial
  freed t ht := by cases (hinit.freed t).symm.trans ht

/-- One CPU with the idle task 1. -/
def oneCpu : Tasking 1 where
  idle _ := 1
  pid task := if task = 1 then 0 else 10 + task
  affinity _ := -1
  idle_injective _ _ _ := Subsingleton.elim ..
  pid_idle _ := rfl

/-- There is only the idle task. -/
def onlyIdle : Life 1 where
  kernel := {
    state := fun task => if task = 1 then .running else .dead
    cpuId := fun _ => 0
    isQueued := fun _ => false
    sleepsOn := fun _ => none
    waitsOn := fun _ => none
    saved := fun _ => none
    current := fun _ => 1
    pending := fun _ => none
    switching := fun _ => none
    onStack := fun _ => 1
    pc := fun _ => .running
    calls := fun _ => none }
  listed task := decide (task = 1)
  creating _ := none
  oom _ := .idle
  reaper := .idle
  freed _ := false

lemma onlyIdle_initial : onlyIdle.Initial oneCpu where
  kernel := {
    idle := fun c => ⟨rfl, rfl, (Fin.val_eq_zero c).symm⟩
    tasks := fun _ ht => .inl ⟨if_neg (ht 0), rfl⟩
    sleepsOn := fun _ => rfl
    current := fun _ => rfl
    onStack := fun _ => rfl
    pending := fun _ => rfl
    pc := fun _ => rfl }
  waitsOn _ := rfl
  listed t ht := by
    rw [of_decide_eq_true ht]
    exact nofun
  creating _ := rfl
  oom _ := rfl
  reaper := rfl
  freed _ := rfl

/-- Task 3 is created, queued and killed before its first turn. -/
def killedQueued : Life 1 :=
  { onlyIdle with
    kernel := ({ onlyIdle.kernel.setState 3 .ready with
      cpuId := update onlyIdle.kernel.cpuId 3 0 }.enqueue 0 3).setState 3 .zombie
    listed := update onlyIdle.listed 3 true
    creating := update (update onlyIdle.creating 3 (some 0)) 3 none
    oom := update (update onlyIdle.oom 9 (.chosen 3)) 9 (.killed 3) }

end Life

end Singularity.Process
