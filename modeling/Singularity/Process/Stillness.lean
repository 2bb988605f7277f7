import Singularity.Process.Dispatch

/-!
# Tasks that the scheduler leaves alone

A dead task, and a task that is created and not yet queued, is not at hand for the scheduler: a
dead one at most stands in a run queue until it is taken and dropped. Each step of the scheduler
is put together from a few changes, and every one of them leaves such a task as it is.
-/

namespace Singularity.Process

open Foundation Function

namespace Kernel

variable {n t u : Nat} {k k' k'' : Kernel n} {c : Fin n}

/-- The task is dead, or created and not yet queued, and no CPU is at work on it. -/
structure Still (k : Kernel n) (t : Nat) : Prop where
  state : k.state t = .zombie ∨ k.state t = .ready
  awake : k.sleepsOn t = none
  pending : ∀ c, k.pending c ≠ some t
  queued : k.isQueued t = true → k.state t = .zombie
  held : ∀ c, (k.pc c).held = some t → k.pc c = .picked t ∧ k.state t = .zombie
  live : ∀ c, k.current c = t → (k.pc c).live = true → k.pc c = .exiting

/-- What becomes of a task that a step leaves alone. -/
structure Rests (k k' : Kernel n) (t : Nat) : Prop where
  still : k'.Still t
  state : k'.state t = k.state t
  cpuId : k'.cpuId t = k.cpuId t
  queued : k'.isQueued t = true → k.isQueued t = true
  current : ∀ c, k'.current c = t → k.current c = t
  picked : ∀ c, k'.pc c = .picked t → k.pc c = .picked t ∨ k.isQueued t = true

/-- What a step of the scheduler may do: it leaves some tasks alone and kills none. -/
structure Moves (k k' : Kernel n) : Prop where
  rests : ∀ t, k.Still t → k.Rests k' t
  alters : ∀ t, k'.state t = k.state t ∧ (∀ q, k'.waitsOn t = some q → k.waitsOn t = some q) ∨
    (k'.state t ≠ .dead ∧ k'.state t ≠ .zombie) ∧ (k'.waitsOn t = none ∨ k'.state t = .blocked)
  born : (∀ c, k.state (k.current c) ≠ .dead) → ∀ c, k'.state (k'.current c) ≠ .dead

/-- The tasks on wait queues are blocked. -/
def Waiting (k : Kernel n) : Prop := ∀ t q, k.waitsOn t = some q → k.state t = .blocked

lemma Waiting.none_of_ne (hw : k.Waiting) (ht : k.state t ≠ .blocked) : k.waitsOn t = none := by
  cases hq : k.waitsOn t with
  | none => rfl
  | some q => exact absurd (hw t q hq) ht

namespace Still

lemma ne_running (hs : k.Still t) : k.state t ≠ .running := by
  obtain heq | heq := hs.state <;> simp [heq]

lemma ne_blocked (hs : k.Still t) : k.state t ≠ .blocked := by
  obtain heq | heq := hs.state <;> simp [heq]

lemma ne_sleeping (hs : k.Still t) : k.state t ≠ .sleeping := by
  obtain heq | heq := hs.state <;> simp [heq]

lemma ne (hs : k.Still t) (hu : ¬k.Still u) : t ≠ u := by
  rintro rfl
  exact hu hs

lemma not_of_held (hpc : k.pc c = stage) (hheld : stage.held = some t)
    (hne : stage ≠ .picked t := by simp) : ¬k.Still t := by
  subst hpc
  exact fun hs => hne (hs.held c hheld).1

lemma not_of_live (hpc : k.pc c = stage) (hlive : stage.live = true)
    (hne : stage ≠ .exiting := by simp) : ¬k.Still (k.current c) := by
  subst hpc
  exact fun hs => hne (hs.live c rfl hlive)

end Still

lemma Rests.trans (h1 : k.Rests k' t) (h2 : k'.Rests k'' t) : k.Rests k'' t where
  still := h2.still
  state := h2.state.trans h1.state
  cpuId := h2.cpuId.trans h1.cpuId
  queued hq := h1.queued (h2.queued hq)
  current c hc := h1.current c (h2.current c hc)
  picked c hc := (h2.picked c hc).elim (h1.picked c) fun hq => .inr (h1.queued hq)

namespace Moves

lemma trans (h1 : k.Moves k') (h2 : k'.Moves k'') : k.Moves k'' where
  rests t hs := (h1.rests t hs).trans (h2.rests t (h1.rests t hs).still)
  alters t := by
    obtain ⟨hstate2, hwaits2⟩ | halters := h2.alters t
    · rw [hstate2]
      obtain ⟨hstate1, hwaits1⟩ | ⟨hne, hwaits1⟩ := h1.alters t
      · exact .inl ⟨hstate1, fun q hq => hwaits1 q (hwaits2 q hq)⟩
      refine .inr ⟨hne, hwaits1.imp_left fun hnone => ?_⟩
      cases hq : k''.waitsOn t with
      | none => rfl
      | some q => cases hnone.symm.trans (hwaits2 q hq)
    · exact .inr halters
  born hborn := h2.born (h1.born hborn)

lemma of_rests (hrests : ∀ t, k.Still t → k.Rests k' t) (hst : k'.state = k.state)
    (hwaits : k'.waitsOn = k.waitsOn) (hcur : k'.current = k.current) : k.Moves k' where
  rests := hrests
  alters t := Or.inl ⟨congrFun hst t, fun q hq => (congrFun hwaits t).symm.trans hq⟩
  born hborn := by
    rwa [hst, hcur]

end Moves

lemma Rests.goto (hs : k.Still t) (c : Fin n) (stage : Stage n) (hheld : stage.held ≠ some t)
    (hlive : k.current c = t → stage.live = true → stage = .exiting) :
    k.Rests (k.goto c stage) t := by
  refine ⟨{ hs with held := ?_, live := ?_ }, rfl, rfl, fun hq => hq, fun _ hc => hc, ?_⟩
  · exact forall_goto (fun _ s => s.held = some t → s = .picked t ∧ k.state t = .zombie)
      (fun h => absurd h hheld) fun c' _ => hs.held c'
  · exact forall_goto (fun c' s => k.current c' = t → s.live = true → s = .exiting) hlive
      fun c' _ => hs.live c'
  · refine forall_goto (fun c' s => s = .picked t → k.pc c' = .picked t ∨ _) (fun h => ?_)
      fun _ _ => .inl
    rw [h] at hheld
    exact absurd rfl hheld

lemma Moves.goto (c : Fin n) (stage : Stage n)
    (hheld : ∀ t, stage.held = some t → ¬k.Still t := by rintro _ ⟨⟩)
    (hlive : stage.live = true → ¬k.Still (k.current c) := by rintro ⟨⟩) :
    k.Moves (k.goto c stage) := by
  refine Moves.of_rests (fun t hs => ?_) rfl rfl rfl
  refine Rests.goto hs c stage (fun heq => hheld t heq hs) fun hcur hl => ?_
  exact absurd (hcur ▸ hs) (hlive hl)

lemma Rests.setState (hs : k.Still t) (hne : t ≠ u) (state : ProcessState) :
    k.Rests (k.setState u state) t := by
  have hsame : (k.setState u state).state t = k.state t := update_of_ne hne ..
  exact ⟨⟨hsame ▸ hs.state, hs.awake, hs.pending, hsame ▸ hs.queued, hsame ▸ hs.held, hs.live⟩,
    hsame, rfl, fun hq => hq, fun _ hc => hc, fun _ hc => .inl hc⟩

lemma Moves.setState (hu : ¬k.Still u) {state : ProcessState}
    (hst : state ≠ .dead ∧ state ≠ .zombie) (hwaits : k.waitsOn u = none ∨ state = .blocked) :
    k.Moves (k.setState u state) where
  rests t hs := Rests.setState hs (hs.ne hu) state
  alters t := by
    by_cases htu : t = u
    · subst htu
      have hself : (k.setState t state).state t = state := update_self ..
      rw [hself]
      exact .inr ⟨hst, hwaits⟩
    · exact .inl ⟨update_of_ne htu .., fun _ hq => hq⟩
  born hborn c := by
    change update k.state u state (k.current c) ≠ .dead
    rw [update_apply]
    split_ifs
    · exact hst.1
    · exact hborn c

lemma Rests.assign (hs : k.Still t) (hne : t ≠ u) (cpu : Nat) :
    k.Rests { k with cpuId := update k.cpuId u cpu } t :=
  ⟨{ hs with }, rfl, update_of_ne hne .., fun hq => hq, fun _ hc => hc,
    fun _ hc => .inl hc⟩

lemma Rests.enqueue (hs : k.Still t) (hne : t ≠ u) (cpu : Nat) : k.Rests (k.enqueue cpu u) t := by
  unfold Kernel.enqueue
  split
  · exact ⟨hs, rfl, rfl, fun hq => hq, fun _ hc => hc, fun _ hc => .inl hc⟩
  · have hsame : update k.isQueued u true t = k.isQueued t :=
      update_of_ne hne ..
    have hqueued (hq : update k.isQueued u true t = true) : k.isQueued t = true :=
      hsame.symm.trans hq
    exact ⟨{ hs with queued := fun hq => hs.queued (hqueued hq) }, rfl,
      update_of_ne hne .., hqueued, fun _ hc => hc, fun _ hc => .inl hc⟩

lemma enqueue_waitsOn (cpu : Nat) : (k.enqueue cpu u).waitsOn = k.waitsOn := by
  unfold Kernel.enqueue
  split <;> rfl

lemma Moves.enqueue (hu : ¬k.Still u) (cpu : Nat) : k.Moves (k.enqueue cpu u) :=
  Moves.of_rests (fun _ hs => Rests.enqueue hs (hs.ne hu) cpu)
    (enqueue_state ..) (enqueue_waitsOn _) (enqueue_current ..)

lemma Rests.remove (hs : k.Still t) (u : Nat) : k.Rests (k.remove u) t := by
  have hqueued (hq : (k.remove u).isQueued t = true) : k.isQueued t = true := by
    change update k.isQueued u false t = true at hq
    rw [update_apply] at hq
    split_ifs at hq
    exact hq
  exact ⟨{ hs with queued := fun hq => hs.queued (hqueued hq) }, rfl, rfl, hqueued,
    fun _ hc => hc, fun _ hc => .inl hc⟩

lemma Moves.remove (u : Nat) : k.Moves (k.remove u) :=
  Moves.of_rests (fun _ hs => Rests.remove hs u) rfl rfl rfl

lemma Moves.setPlaces {pending : Fin n → Option Nat} {sleepsOn : Nat → Option Nat}
    (hpend : ∀ c t, pending c = some t → k.pending c = some t ∨ ¬k.Still t)
    (hsleeps : ∀ t, k.Still t → sleepsOn t = none) : k.Moves { k with pending, sleepsOn } := by
  refine Moves.of_rests (fun t hs => ?_) rfl rfl rfl
  refine ⟨{ hs with awake := hsleeps t hs, pending := fun c hc => ?_ }, rfl, rfl, fun hq => hq,
    fun _ hc => hc, fun _ hc => .inl hc⟩
  exact (hpend c t hc).elim (hs.pending c) fun hnot => hnot hs

lemma Moves.clearPending (c : Fin n) : k.Moves { k with pending := update k.pending c none } := by
  refine Moves.setPlaces (fun c' t hc' => ?_) fun t hs => hs.awake
  rw [update_apply] at hc'
  split_ifs at hc' with hc
  exact .inl hc'

lemma Moves.setWaits {waitsOn : Nat → Option Nat}
    (hwaits : ∀ t q, waitsOn t = some q → k.waitsOn t = some q ∨ k.state t = .blocked) :
    k.Moves { k with waitsOn } where
  rests t hs := ⟨{ hs with }, rfl, rfl, fun hq => hq, fun _ hc => hc, fun _ hc => .inl hc⟩
  alters t := by
    by_cases hblk : k.state t = .blocked
    · exact .inr ⟨by simp [hblk], .inr hblk⟩
    · exact .inl ⟨rfl, fun q hq => (hwaits t q hq).resolve_right hblk⟩
  born hborn := hborn

lemma Moves.assign (hu : ¬k.Still u) (cpu : Nat) :
    k.Moves { k with cpuId := update k.cpuId u cpu } :=
  Moves.of_rests (fun _ hs => Rests.assign hs (hs.ne hu) cpu) rfl rfl rfl

lemma Moves.setOthers {saved : Nat → Option (Fin n)} {onStack : Fin n → Nat}
    {switching : Fin n → Option Nat} {calls : Nat → Option Call} :
    k.Moves { k with saved, onStack, switching, calls } :=
  Moves.of_rests (fun _ hs => ⟨{ hs with }, rfl, rfl, fun hq => hq, fun _ hc => hc,
    fun _ hc => .inl hc⟩) rfl rfl rfl

lemma Moves.setCurrent (hu : ¬k.Still u) (hst : k.state u ≠ .dead) :
    k.Moves { k with current := update k.current c u } := by
  have hcur {t : Nat} (hs : k.Still t) (c' : Fin n)
      (hc' : update k.current c u c' = t) : k.current c' = t := by
    rw [update_apply] at hc'
    split_ifs at hc' with hc
    · exact absurd (hc' ▸ hs) hu
    · exact hc'
  refine ⟨fun t hs => ?_, fun t => .inl ⟨rfl, fun _ hq => hq⟩, fun hborn c' => ?_⟩
  · exact ⟨{ hs with live := fun c' hc' hlive => hs.live c' (hcur hs c' hc') hlive }, rfl,
      rfl, fun hq => hq, hcur hs, fun _ hc => .inl hc⟩
  change k.state (update k.current c u c') ≠ .dead
  rw [update_apply]
  split_ifs
  · exact hst
  · exact hborn c'

lemma Moves.take (c : Fin n) (hq : k.isQueued u = true) :
    k.Moves ((k.remove u).goto c (.picked u)) := by
  refine Moves.of_rests (fun t hs => ?_) rfl rfl rfl
  by_cases htu : t = u
  · subst htu
    have hzombie := hs.queued hq
    refine ⟨⟨hs.state, hs.awake, hs.pending, fun _ => hzombie, ?_, ?_⟩, rfl, rfl, fun _ => hq,
      fun _ hc => hc, fun _ _ => .inr hq⟩
    · exact forall_goto (fun _ s => s.held = some t → s = .picked t ∧ k.state t = .zombie)
        (fun _ => ⟨rfl, hzombie⟩) fun c' _ => hs.held c'
    · exact forall_goto (fun c' s => k.current c' = t → s.live = true → s = .exiting) nofun
        fun c' _ => hs.live c'
  · refine (Rests.remove hs u).trans (Rests.goto (Rests.remove hs u).still c _ ?_ nofun)
    exact fun heq => htu (Option.some.inj heq).symm

lemma Moves.carry (hpc : k.pc c = stage') (hheld : stage'.held = some u)
    (hstage : stage.held = some u)
    (hlive : stage.live = true → ¬k.Still (k.current c) := by rintro ⟨⟩)
    (hne : stage' ≠ .picked u := by simp) : k.Moves (k.goto c stage) := by
  refine Moves.goto c stage (fun t ht => ?_) hlive
  cases hstage.symm.trans ht
  exact Still.not_of_held hpc hheld hne

lemma Inv.not_still_idle (h : k.Inv cfg) (i : Fin n) : ¬k.Still (cfg.idle i) :=
  fun hs => hs.ne_running (h.idle i)

lemma Inv.not_waiting (h : k.Inv cfg) (hw : k.Waiting) (hlive : (k.pc c).live = true) :
    k.waitsOn (k.current c) = none := hw.none_of_ne (h.live c hlive).1.blocked

/-- A round of `schedule`: the CPU is at work on its current task or on the one in its hands. -/
lemma Inv.moves_advance (h : k.Inv cfg) (hw : k.Waiting) (hok : k.advance cfg c = some k') :
    k.Moves k' := by
  cases hpc : k.pc c <;>
    simp only [Kernel.advance, hpc, Option.some.injEq, reduceCtorEq] at hok <;> try cases hok
  case exiting =>
    exact ((Moves.remove _).trans (Moves.goto c .parked)).trans
      (Moves.clearPending c)
  case preempting =>
    have hst : k.Moves (k.setState (k.current c) .ready) :=
      Moves.setState (Still.not_of_live hpc rfl) (by simp)
        (.inl (h.not_waiting hw (by rw [hpc]; rfl)))
    exact hst.trans
      (Moves.goto c .displacing (by rintro _ ⟨⟩) fun _ => Still.not_of_live hpc rfl)
  case displacing =>
    have hslot : k.pending c = none := h.slot c (by rw [hpc]; rfl)
    simp only [hslot]
    have hplaces : k.Moves { k with
        pending := update k.pending c (some (k.current c)) } := by
      refine Moves.setPlaces (fun c' t hc' => ?_) fun t hs => hs.awake
      rw [update_apply] at hc'
      split_ifs at hc' with hc
      · cases hc'
        exact .inr (Still.not_of_live hpc rfl)
      · exact .inl hc'
    exact hplaces.trans (Moves.goto c .picking)
  case picked next =>
    split at hok <;> cases hok
    · exact Moves.goto c .picking
    case isFalse hgone =>
      refine Moves.goto c _ fun t ht hs => hgone ?_
      cases ht
      have hzombie := (hs.held c (by rw [hpc]; rfl)).2
      simp [Kernel.gone, hzombie]
  case checkingCurrent next i =>
    have hcarry {stage : Stage n} (hstage : stage.held = some next)
        (hlive : stage.live = false) : k.Moves (k.goto c stage) :=
      Moves.carry hpc rfl hstage (by simp [hlive])
    repeat' split at hok
    all_goals
      cases hok
      exact hcarry rfl rfl
  case checkingSwitching next i =>
    obtain ⟨_, hok⟩ := Option.dite_none_right_eq_some.mp hok
    split at hok
    all_goals
      cases hok
      exact Moves.carry hpc rfl rfl
  case rejecting next =>
    refine (Moves.enqueue (Still.not_of_held hpc rfl) c).trans
      (Moves.goto c _ fun t ht hs => ?_)
    cases ht
    refine hs.ne_running ?_
    rw [enqueue_state]
    exact h.idle c
  case assigning next =>
    have hassign : k.Moves { k with cpuId := update k.cpuId next c } :=
      Moves.assign (Still.not_of_held hpc rfl) c
    exact hassign.trans (Moves.carry hpc rfl rfl)
  case starting next =>
    have hnext : k.waitsOn next = none :=
      hw.none_of_ne fun hblk => h.off next (.inl hblk) (.hand c) (congrArg _ hpc)
    have hstill (x : Nat) (hx : x = next) : ¬(k.setState next .running).Still x := by
      subst hx
      exact Still.not_of_held hpc rfl
    have hst : k.Moves (k.setState next .running) :=
      Moves.setState (Still.not_of_held hpc rfl) (by simp) (.inl hnext)
    refine hst.trans ?_
    split_ifs with heq
    · exact Moves.goto c .finishing (by rintro _ ⟨⟩) fun _ => hstill _ heq.symm
    · refine Moves.goto c (.leaving next) fun t ht => hstill t ?_
      exact (Option.some.inj ht).symm
  case leaving next =>
    have hcarry : k.Moves (k.goto c (.entering next)) := Moves.carry hpc rfl rfl
    exact hcarry.trans Moves.setOthers
  case entering next =>
    have hdead : k.state next ≠ .dead :=
      fun hdead => h.off next (.inr (.inr hdead)) (.hand c) (congrArg _ hpc)
    have hcur : k.Moves { k with current := update k.current c next } :=
      Moves.setCurrent (Still.not_of_held hpc rfl) hdead
    refine hcur.trans (Moves.goto c .switching (by rintro _ ⟨⟩) fun _ => ?_)
    dsimp only
    rw [update_self]
    exact Still.not_of_held hpc rfl
  case switching =>
    refine Moves.trans (Moves.goto c _ (fun t ht => ?_) fun _ => Still.not_of_live hpc rfl)
      Moves.setOthers
    split at ht <;> cases ht
  case resumed | starter =>
    exact Moves.trans (Moves.goto c .finishing (by rintro _ ⟨⟩) fun _ => Still.not_of_live hpc rfl)
      Moves.setOthers
  case finishing =>
    refine Moves.trans (Moves.goto c _ (fun t ht hs => ?_) fun _ => Still.not_of_live hpc rfl)
      (Moves.clearPending c)
    split at ht <;> cases ht
    case h_2 pending hpend => exact hs.pending c hpend
  case returning pending =>
    have hstill := Still.not_of_live hpc rfl
    split at hok <;> cases hok
    · exact Moves.carry hpc rfl rfl fun _ => hstill
    · exact Moves.goto c .running (by rintro _ ⟨⟩) fun _ => hstill
  case requeueing pending =>
    refine (Moves.enqueue (Still.not_of_held hpc rfl) c).trans
      (Moves.goto c .running (by rintro _ ⟨⟩) fun _ => ?_)
    exact Still.not_of_live ((congrFun (enqueue_pc ..) c).trans hpc) rfl

lemma Moves.rouse (hst : k.state u = .blocked ∨ k.state u = .sleeping)
    (hwaits : k.waitsOn u = none) (cpu : Nat) :
    k.Moves (({ k with sleepsOn := update k.sleepsOn u none }.setState
      u .ready).enqueue cpu u) := by
  have hstill {k1 : Kernel n} (hsame : k1.state = k.state) : ¬k1.Still u := by
    intro hs
    rw [← hsame] at hst
    exact hst.elim hs.ne_blocked hs.ne_sleeping
  -- the task is queued first here, so that it is never both ready and nowhere
  have hswap : ({ k with sleepsOn := update k.sleepsOn u none }.setState
      u .ready).enqueue cpu u = { (k.enqueue cpu u).setState u .ready with
        sleepsOn := update k.sleepsOn u none } := by
    by_cases hq : k.isQueued u = true <;> simp [Kernel.enqueue, Kernel.setState, hq]
  have hawake : (k.enqueue cpu u).sleepsOn = k.sleepsOn := by
    unfold Kernel.enqueue
    split <;> rfl
  have hready : (k.enqueue cpu u).Moves ((k.enqueue cpu u).setState u .ready) :=
    Moves.setState (hstill (enqueue_state ..)) (by simp)
      (.inl ((congrFun (enqueue_waitsOn cpu) u).trans hwaits))
  rw [hswap]
  refine ((Moves.enqueue (hstill rfl) cpu).trans hready).trans
    (Moves.setPlaces (fun _ _ hc => .inl hc) fun t hs => ?_)
  rw [update_apply]
  split_ifs
  · rfl
  · rw [← hawake]
    exact hs.awake

/-- A blocked task that is woken is on no wait queue. -/
def Unqueued (k : Kernel n) : KernelEvent n → Prop
  | .wake thread => ∀ call, k.calls thread = some call →
      k.state call.task = .blocked → k.waitsOn call.task = none
  | _ => True

/-- Every step of the scheduler leaves alone the tasks that are dead or not yet queued. -/
lemma Inv.moves_step {e : KernelEvent n} (h : k.Inv cfg) (hw : k.Waiting)
    (hzombies : ∀ t, k.state t = .zombie → k.Still t) (hcond : k.Meets e)
    (hunqueued : k.Unqueued e) (hok : k.step cfg e = some k') : k.Moves k' := by
  cases e with
  | enter c =>
    obtain ⟨-, hok⟩ := then_of_ite hok
    split_ifs at hok with hst
    · cases hok
      exact Moves.goto c .preempting (by rintro _ ⟨⟩) fun _ hs => hs.ne_running hst.1
    · cases hok
      exact Moves.trans (Moves.goto c .picking) (Moves.clearPending c)
  | advance c => exact h.moves_advance hw hok
  | pick c task =>
    obtain ⟨hpick, ⟨⟩⟩ := then_of_ite hok
    exact Moves.take c hpick.2.1
  | steal c victim task =>
    obtain ⟨hsteal, ⟨⟩⟩ := then_of_ite hok
    exact Moves.take c hsteal.2.2.1
  | pickNone c =>
    obtain ⟨-, ⟨⟩⟩ := then_of_ite hok
    refine Moves.goto c _ (fun t ht => ?_) nofun
    cases ht
    exact h.not_still_idle c
  | block c queue =>
    obtain ⟨hblock, ⟨⟩⟩ := then_of_ite hok
    have hstack : k.onStack c = k.current c := h.stack c (by simp [hblock.1])
    rw [hstack]
    have hst : k.Moves (k.setState (k.current c) .blocked) :=
      Moves.setState (Still.not_of_live hblock.1 rfl nofun) (by simp) (.inr rfl)
    refine (hst.trans (Moves.goto c .parked)).trans
      (Moves.setWaits fun t q hq => ?_)
    by_cases ht : t = k.current c
    · rw [ht]
      exact .inr (update_self ..)
    · rw [update_of_ne ht] at hq
      exact .inl hq
  | sleep c =>
    obtain ⟨hsleep, ⟨⟩⟩ := then_of_ite hok
    have hst : k.Moves (k.setState (k.current c) .sleeping) :=
      Moves.setState (Still.not_of_live hsleep.1 rfl nofun) (by simp)
        (.inl (h.not_waiting hw (by rw [hsleep.1]; rfl)))
    refine ((hst.trans (Moves.remove (k.current c))).trans
      (Moves.goto c .parked)).trans (Moves.setPlaces (fun c' t hc' => ?_) ?_)
    · rw [update_apply] at hc'
      split_ifs at hc' with hc
      exact .inl hc'
    · intro t hs
      have ht : t ≠ k.current c := by
        rintro rfl
        exact hs.ne_sleeping (update_self ..)
      rw [update_of_ne ht]
      exact hs.awake
  | scan c task =>
    obtain ⟨hsleeps, ⟨⟩⟩ := then_of_ite hok
    have hsleeping : k.state task = .sleeping := by
      refine (h.asleep task c hsleeps).2.2.resolve_right fun hzombie => ?_
      exact Option.some_ne_none _ (hsleeps.symm.trans (hzombies task hzombie).awake)
    exact Moves.rouse (.inr hsleeping) (hw.none_of_ne (by simp [hsleeping])) c
  | pop task =>
    cases hok
    refine Moves.setWaits fun t q hq => ?_
    rw [update_apply] at hq
    split_ifs at hq
    exact .inl hq
  | loadCpu thread task =>
    obtain ⟨-, ⟨⟩⟩ := then_of_ite hok
    exact Moves.setOthers
  | wake thread =>
    obtain ⟨call, hcall, rfl⟩ := Option.map_eq_some_iff.mp hok
    obtain heq | ⟨hst, heq⟩ := h.wake_eq call.cpu (hcond call hcall)
    · rw [heq]
      exact Moves.setOthers
    rw [heq]
    have hwaits : k.waitsOn call.task = none := by
      obtain hblk | hsleeping := hst
      · exact hunqueued call hcall hblk
      · exact hw.none_of_ne (by simp [hsleeping])
    exact (Moves.rouse hst hwaits call.cpu).trans Moves.setOthers

end Kernel

end Singularity.Process
