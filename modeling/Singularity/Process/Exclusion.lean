import Singularity.Process.Dispatch

/-!
# One CPU per task

Before a CPU runs a task it reads `current_process` and `switching_task` of every other CPU. A
CPU that leaves a task announces it in `switching_task` before it overwrites `current_process`, so
the two reads miss no CPU that is still on the stack of the task, as long as only that CPU
withdraws the announcement. A task that has migrated withdraws it on the CPU that it has left
long ago; the last theorem shows what follows.
-/

namespace Singularity.Process

open Foundation Function

variable {n t : Nat} {stage : Stage n}

namespace Stage

/-- The CPU has seen that CPU `j` is not on the stack of the task. -/
def Cleared (task : Nat) (j : Fin n) : Stage n → Prop
  | .checkingCurrent next i | .checkingSwitching next i => next = task ∧ j < i
  | .assigning next | .starting next | .leaving next | .entering next => next = task
  | _ => False

variable {j : Fin n}

lemma held_of_cleared (h : stage.Cleared t j) : stage.held = some t := by
  cases stage <;> first | exact congrArg some h | exact congrArg some h.1 | cases h

end Stage

namespace Kernel

variable {cfg : Tasking n} {k k' : Kernel n} {c : Fin n} {e : KernelEvent n}

/-- Which stacks the CPUs are on, and what they have announced. -/
structure Stacks (cfg : Tasking n) (k : Kernel n) : Prop where
  entering : ∀ c t, k.pc c = .entering t → k.switching c = some (k.current c)
  switching : ∀ c, k.pc c = .switching → k.switching c = some (k.onStack c)
  cleared : ∀ c t j, (k.pc c).Cleared t j → j ≠ c → k.onStack j ≠ t
  resume : ∀ c j, k.pc c = .switching → j ≠ c → k.onStack j ≠ k.current c
  idle : ∀ i j, k.onStack j = cfg.idle i → j = i
  injective : Injective k.onStack

/-- Where tasks are that are ready, or started and not yet current. -/
structure Placed (k : Kernel n) : Prop where
  ready : ∀ t, k.state t = .ready →
    (∃ p, k.At t p) ∨ ∃ c, k.pc c = .displacing ∧ k.current c = t
  started : ∀ c t, k.pc c = .leaving t ∨ k.pc c = .entering t → k.state t = .running

namespace Stacks

/-- One CPU moves on, and its own cells are changed. -/
lemma change (hs : k.Stacks cfg) (hpc : k'.pc = update k.pc c stage)
    (hswitching : k'.switching = update k.switching c announced)
    (hcur : k'.current = update k.current c task) (hstack : k'.onStack = update k.onStack c stack)
    (hentering : ∀ t, stage = .entering t → announced = some task)
    (hstage : stage = .switching → announced = some stack ∧ ∀ j ≠ c, k.onStack j ≠ task)
    (hcleared : ∀ t j, stage.Cleared t j → j ≠ c → k.onStack j ≠ t)
    (hnew : stack ≠ k.onStack c → (∀ c' ≠ c, ¬(k.pc c').Cleared stack c) ∧
      (∀ c' ≠ c, k.current c' ≠ stack) ∧ (∀ i, stack = cfg.idle i → c = i) ∧
      ∀ j ≠ c, k.onStack j ≠ stack) : k'.Stacks cfg := by
  have hcpus (P : Fin n → Stage n → Option Nat → Nat → Nat → Prop)
      (hc : P c stage announced task stack)
      (hothers : ∀ j ≠ c, P j (k.pc j) (k.switching j) (k.current j) (k.onStack j)) (j : Fin n) :
      P j (k'.pc j) (k'.switching j) (k'.current j) (k'.onStack j) := by
    rw [hpc, hswitching, hcur, hstack]
    by_cases hj : j = c
    · simpa only [hj, update_self] using hc
    · simpa only [update_of_ne hj] using hothers j hj
  have hstacks (j : Fin n) (t : Nat) : k.onStack j ≠ t → (j = c → stack ≠ t) → k'.onStack j ≠ t :=
    hcpus (fun j _ _ _ x => k.onStack j ≠ t → (j = c → stack ≠ t) → x ≠ t) (fun _ h => h rfl)
      (fun _ _ h _ => h) j
  constructor
  case entering =>
    exact hcpus (fun _ s a x _ => ∀ t, s = .entering t → a = some x) hentering
      fun j _ => hs.entering j
  case switching =>
    exact hcpus (fun _ s a _ x => s = .switching → a = some x) (fun h => (hstage h).1)
      fun j _ => hs.switching j
  case cleared =>
    refine hcpus (fun c' s _ _ _ => ∀ t j, s.Cleared t j → j ≠ c' → k'.onStack j ≠ t)
      (fun t j hj hne => hstacks j t (hcleared t j hj hne) fun h => absurd h hne)
      fun c' hc t j hj hne => hstacks j t (hs.cleared c' t j hj hne) ?_
    rintro rfl rfl
    exact (hnew (hs.cleared c' stack j hj hne).symm).1 c' hc hj
  case resume =>
    refine hcpus (fun c' s _ x _ => ∀ j, s = .switching → j ≠ c' → k'.onStack j ≠ x)
      (fun j h hne => hstacks j task ((hstage h).2 j hne) fun h => absurd h hne)
      fun c' hc j h hne => hstacks j _ (hs.resume c' j h hne) ?_
    rintro rfl heq
    exact (hnew (heq ▸ (hs.resume c' j h hne).symm)).2.1 c' hc heq.symm
  case idle =>
    refine fun i => hcpus (fun j _ _ _ x => x = cfg.idle i → j = i) (fun heq => ?_)
      fun j _ => hs.idle i j
    by_cases hsame : stack = k.onStack c
    · exact hs.idle i c (hsame.symm.trans heq)
    · exact (hnew hsame).2.2.1 i heq
  case injective =>
    have hne {j : Fin n} (hj : j ≠ c) : k.onStack j ≠ stack := by
      by_cases hsame : stack = k.onStack c
      · rw [hsame]
        exact fun heq => hj (hs.injective heq)
      · exact (hnew hsame).2.2.2 j hj
    intro j1 j2
    refine hcpus (fun j1 _ _ _ x => x = k'.onStack j2 → j1 = j2) ?_ (fun j1 h1 => ?_) j1
    · exact hcpus (fun j2 _ _ _ x => stack = x → c = j2) (fun _ => rfl)
        (fun j2 h2 heq => absurd heq.symm (hne h2)) j2
    · exact hcpus (fun j2 _ _ _ x => k.onStack j1 = x → j1 = j2)
        (fun heq => absurd heq (hne h1)) (fun j2 _ heq => hs.injective heq) j2

variable (hs : k.Stacks cfg)
include hs

lemma same (hswitching : k'.switching = k.switching := by rfl)
    (hcur : k'.current = k.current := by rfl) (hstack : k'.onStack = k.onStack := by rfl)
    (hpc : k'.pc = k.pc := by rfl) : k'.Stacks cfg := by
  obtain ⟨hentering, hsw, hcleared, hresume, hidle, hinjective⟩ := hs
  constructor <;> simp only [hpc, hswitching, hcur, hstack] <;> assumption

lemma move (hpc : k'.pc = update k.pc c stage)
    (hcleared : ∀ t j, stage.Cleared t j → j ≠ c → k.onStack j ≠ t)
    (hswitching : k'.switching = k.switching := by rfl)
    (hcur : k'.current = k.current := by rfl) (hstack : k'.onStack = k.onStack := by rfl)
    (hentering : ∀ t, stage ≠ .entering t := by simp)
    (hstage : stage ≠ .switching := by simp) : k'.Stacks cfg :=
  hs.change hpc (hswitching.trans (update_eq_self c _).symm)
    (hcur.trans (update_eq_self c _).symm) (hstack.trans (update_eq_self c _).symm)
    (fun t h => absurd h (hentering t)) (fun h => absurd h hstage) hcleared (absurd rfl)

lemma move_free (hpc : k'.pc = update k.pc c stage)
    (hstage : stage.live = true ∧ stage ≠ .switching ∨ stage = .parked ∨ stage = .picking ∨
      ∃ t, stage = .picked t ∨ stage = .rejecting t)
    (hswitching : k'.switching = k.switching := by rfl)
    (hcur : k'.current = k.current := by rfl) (hstack : k'.onStack = k.onStack := by rfl) :
    k'.Stacks cfg := by
  obtain ⟨hlive, hne⟩ | rfl | rfl | ⟨t, rfl | rfl⟩ := hstage
  · refine hs.move hpc (fun t j hj => ?_) hswitching hcur hstack (fun t heq => ?_) hne
    · cases stage <;> first | exact hj.elim | cases hlive
    · rw [heq] at hlive
      cases hlive
  all_goals exact hs.move hpc (fun _ _ hj => hj.elim) hswitching hcur hstack

end Stacks

section
variable (hs : k.Stacks cfg)
include hs

lemma Stacks.clear (h : k.Inv cfg) (hi : i < n) (hpc : k.pc c = .checkingSwitching t i)
    (hne : (⟨i, hi⟩ : Fin n) ≠ c) (hread : k.switching ⟨i, hi⟩ ≠ some t) :
    k.onStack ⟨i, hi⟩ ≠ t := by
  have hcur : k.current ⟨i, hi⟩ ≠ t :=
    h.passed c t ⟨i, hi⟩ (by rw [hpc]; exact ⟨rfl, Nat.le_refl i⟩) hne
  by_cases hswitch : k.pc ⟨i, hi⟩ = .switching
  · rw [hs.switching _ hswitch] at hread
    exact fun heq => hread (congrArg some heq)
  · rwa [h.stack _ hswitch]

lemma Stacks.enter (h : k.Inv cfg) (hpc : k.pc c = .entering t) :
    { k.goto c .switching with current := update k.current c t }.Stacks cfg := by
  have hstack : k.onStack c = k.current c := h.stack c (by simp [hpc])
  refine hs.change rfl (update_eq_self c _).symm rfl (update_eq_self c _).symm nofun
    (fun _ => ⟨?_, fun j hj => hs.cleared c t j ?_ hj⟩) nofun (absurd rfl)
  · exact (hs.entering c t hpc).trans (congrArg some hstack.symm)
  · rw [hpc]
    rfl

lemma Stacks.switch (h : k.Inv cfg) (hpc : k.pc c = .switching)
    (saved : Nat → Option (Fin n)) (hstage : stage = .starter ∨ ∃ cpu, stage = .resumed cpu) :
    { k.goto c stage with
      saved
      onStack := update k.onStack c (k.current c) }.Stacks cfg := by
  have hlive : (k.pc c).live = true := by
    rw [hpc]
    rfl
  refine hs.change rfl (update_eq_self c _).symm (update_eq_self c _).symm rfl (fun t ht => ?_)
    (fun ht => ?_) (fun t j hj => ?_) fun _ => ⟨fun c' _ hj => ?_, fun c' hc heq => ?_, ?_, ?_⟩
  · obtain rfl | ⟨cpu, rfl⟩ := hstage <;> cases ht
  · obtain rfl | ⟨cpu, rfl⟩ := hstage <;> cases ht
  · obtain rfl | ⟨cpu, rfl⟩ := hstage <;> exact hj.elim
  · exact h.ne_current (p := .hand c') (Stage.held_of_cleared hj) hlive rfl
  · exact hc (h.current heq)
  · exact fun i => h.idle_current i c
  · exact fun j => hs.resume c j hpc

lemma Stacks.withdraw (cpu : Fin n) (hpc : ∀ t, k.pc c ≠ .entering t)
    (hpc' : k.pc c ≠ .switching) (hcpu : cpu ≠ c → k.switching cpu = none) :
    { k.goto c .finishing with
      switching := update k.switching cpu none }.Stacks cfg := by
  have hkept {c' : Fin n} {x : Nat} (hc : c' ≠ c) (hx : k.switching c' = some x) :
      update k.switching cpu none c' = some x := by
    have hne : c' ≠ cpu := by
      rintro rfl
      rw [hcpu hc] at hx
      cases hx
    exact (update_of_ne hne ..).trans hx
  have h' : (k.goto c .finishing).Stacks cfg :=
    hs.move_free rfl (.inl ⟨rfl, nofun⟩)
  have hnew : (k.goto c .finishing).pc c = .finishing := update_self ..
  refine { h' with entering := fun c' t hc' => ?_, switching := fun c' hc' => ?_ }
  · have hc : c' ≠ c := by
      rintro rfl
      cases hnew.symm.trans hc'
    exact hkept hc (h'.entering c' t hc')
  · have hc : c' ≠ c := by
      rintro rfl
      cases hnew.symm.trans hc'
    exact hkept hc (h'.switching c' hc')

end

/-- A CPU leaves `switching_task` of another one alone unless it is null. -/
def Leaves (k : Kernel n) : KernelEvent n → Prop
  | .advance c => ∀ cpu, k.pc c = .resumed cpu → cpu ≠ c → k.switching cpu = none
  | _ => True

lemma Stacks.advance (hs : k.Stacks cfg) (h : k.Inv cfg) (hcond : k.Leaves (.advance c))
    (hok : k.advance cfg c = some k') : k'.Stacks cfg := by
  cases hpc : k.pc c <;>
    simp only [Kernel.advance, hpc, Option.some.injEq, reduceCtorEq] at hok <;> try cases hok
  case exiting =>
    exact hs.move_free rfl (.inr (.inl rfl))
  case preempting =>
    exact hs.move_free rfl (.inl ⟨rfl, by simp⟩)
  case displacing =>
    have hslot : k.pending c = none := h.slot c (by rw [hpc]; rfl)
    simp only [hslot]
    exact hs.move_free rfl (.inr (.inr (.inl rfl)))
  case picked next =>
    split at hok <;> cases hok
    · exact hs.move_free rfl (.inr (.inr (.inl rfl)))
    · exact hs.move rfl fun t j hj => absurd hj.2 (Nat.not_lt_zero j)
  case checkingCurrent next i =>
    have hcleared (x : Nat) (j : Fin n) (hx : next = x) (hj : j < i) (hne : j ≠ c) :
        k.onStack j ≠ x := hs.cleared c x j (by rw [hpc]; exact ⟨hx, hj⟩) hne
    split at hok
    case isTrue hi =>
      split at hok
      case isTrue hic =>
        cases hok
        refine hs.move rfl fun x j hj hne => ?_
        have hji : (j : Nat) ≠ i := fun heq => hne (Fin.ext (heq.trans hic))
        exact hcleared x j hj.1 (lt_of_le_of_ne (Nat.le_of_lt_succ hj.2) hji) hne
      · split at hok <;> cases hok
        · exact hs.move_free rfl (.inr (.inr (.inr ⟨next, .inr rfl⟩)))
        · exact hs.move rfl fun x j hj => hcleared x j hj.1 hj.2
    case isFalse hi =>
      cases hok
      refine hs.move rfl fun x j hj => ?_
      exact hcleared x j hj (j.isLt.trans_le (Nat.le_of_not_lt hi))
  case checkingSwitching next i =>
    obtain ⟨hi, hok⟩ := Option.dite_none_right_eq_some.mp hok
    split at hok <;> cases hok
    · exact hs.move_free rfl (.inr (.inr (.inr ⟨next, .inr rfl⟩)))
    case isFalse hread =>
      refine hs.move rfl fun x j hj hne => ?_
      obtain hlt | heq := lt_or_eq_of_le (Nat.le_of_lt_succ hj.2)
      · exact hs.cleared c x j (by rw [hpc]; exact ⟨hj.1, hlt⟩) hne
      · have hj' : j = ⟨i, hi⟩ := Fin.ext heq
        rw [hj', ← hj.1]
        exact hs.clear h hi hpc (hj' ▸ hne) hread
  case rejecting next =>
    rw [goto_enqueue]
    refine hs.move (enqueue_pc ..) (fun x j hj hne => ?_) (enqueue_switching ..)
      (enqueue_current ..) (enqueue_onStack ..)
    cases hj
    exact fun heq => hne (hs.idle c j heq)
  case assigning next =>
    refine hs.move rfl fun x j hj => hs.cleared c x j ?_
    rwa [hpc]
  case starting next =>
    split
    · exact hs.move_free rfl (.inl ⟨rfl, by simp⟩)
    · refine hs.move rfl fun x j hj => hs.cleared c x j ?_
      rwa [hpc]
  case leaving next =>
    refine hs.change rfl rfl (update_eq_self c _).symm (update_eq_self c _).symm (fun _ _ => rfl)
      (by simp) (fun x j hj => hs.cleared c x j ?_) (absurd rfl)
    rwa [hpc]
  case entering next =>
    exact hs.enter h hpc
  case switching =>
    apply hs.switch h hpc
    split
    · exact .inl rfl
    · exact .inr ⟨_, rfl⟩
  case resumed cpu =>
    exact hs.withdraw cpu (by simp [hpc]) (by simp [hpc]) (hcond cpu hpc)
  case starter =>
    exact hs.withdraw c (by simp [hpc]) (by simp [hpc]) fun hne => absurd rfl hne
  case finishing =>
    refine hs.move_free rfl (.inl ?_)
    split <;> exact ⟨rfl, by simp⟩
  case returning pending =>
    split at hok <;> cases hok <;> exact hs.move_free rfl (.inl ⟨rfl, by simp⟩)
  case requeueing pending =>
    rw [goto_enqueue]
    exact hs.move_free (enqueue_pc ..) (.inl ⟨rfl, by simp⟩) (enqueue_switching ..)
      (enqueue_current ..) (enqueue_onStack ..)

lemma Stacks.step (hs : k.Stacks cfg) (h : k.Inv cfg) (hcond : k.Leaves e)
    (hok : k.step cfg e = some k') : k'.Stacks cfg := by
  cases e with
  | enter c =>
    obtain ⟨-, hok⟩ := then_of_ite hok
    split at hok
    · cases hok
      exact hs.move_free rfl (.inl ⟨rfl, nofun⟩)
    · cases hok
      exact hs.move_free rfl (.inr (.inr (.inl rfl)))
  | advance c => exact hs.advance h hcond hok
  | pick c task | steal c _ task =>
    obtain ⟨-, ⟨⟩⟩ := then_of_ite hok
    exact hs.move_free rfl (.inr (.inr (.inr ⟨task, .inl rfl⟩)))
  | pickNone c =>
    obtain ⟨-, ⟨⟩⟩ := then_of_ite hok
    refine hs.move rfl fun x j hj hne => ?_
    cases hj
    exact fun heq => hne (hs.idle c j heq)
  | block c _ | sleep c =>
    obtain ⟨-, ⟨⟩⟩ := then_of_ite hok
    exact hs.move_free rfl (.inr (.inl rfl))
  | scan c task =>
    obtain ⟨-, ⟨⟩⟩ := then_of_ite hok
    exact hs.same (enqueue_switching ..) (enqueue_current ..) (enqueue_onStack ..)
      (enqueue_pc ..)
  | pop task =>
    cases hok
    exact hs.same
  | loadCpu thread task =>
    obtain ⟨-, ⟨⟩⟩ := then_of_ite hok
    exact hs.same
  | wake thread =>
    obtain ⟨call, -, rfl⟩ := Option.map_eq_some_iff.mp hok
    exact hs.same (wake_switching ..) (wake_current ..) (wake_onStack ..) (wake_pc ..)

lemma Stage.held_of_started {stage : Stage n} (h : stage = .leaving t ∨ stage = .entering t) :
    stage.held = some t := by
  obtain rfl | rfl := h <;> rfl

namespace Placed

variable (hp : k.Placed)
include hp

lemma of_moves
    (hready : ∀ t, k'.state t = .ready → k.state t = .ready ∨ (∃ p, k'.At t p) ∨ ∃ c, k'.pc c =
      .displacing ∧ k'.current c = t)
    (hmoves : ∀ t p, k'.state t = .ready → k.At t p → ∃ q, k'.At t q)
    (hdisp : ∀ c, k.pc c = .displacing → k'.state (k.current c) = .ready → (∃ p,
      k'.At (k.current c) p) ∨ k'.pc c = .displacing ∧ k'.current c = k.current c)
    (hstarted : ∀ c t, k'.pc c = .leaving t ∨ k'.pc c = .entering t → k'.state t = .running) :
    k'.Placed := by
  refine ⟨fun t ht => ?_, hstarted⟩
  obtain hold | hnew := hready t ht
  · obtain ⟨p, hat⟩ | ⟨c, hc, rfl⟩ := hp.ready t hold
    · exact .inl (hmoves t p ht hat)
    · obtain hat | hc := hdisp c hc ht
      · exact .inl hat
      · exact .inr ⟨c, hc⟩
  · exact hnew

/-- One CPU moves on: ready tasks that it held or that were queued or pending get a place again,
and the tasks that the others hold keep their states. -/
lemma of_goto (hpc : k'.pc = update k.pc c stage) (hcur : ∀ c' ≠ c, k'.current c' = k.current c')
    (hready : ∀ t, k'.state t = .ready → k.state t = .ready ∨ stage = .displacing ∧ k'.current c =
      t)
    (hqueue : ∀ t, k'.state t = .ready → k.isQueued t = true → ∃ q, k'.At t q)
    (hslot : ∀ t c', k'.state t = .ready → k.pending c' = some t → ∃ q, k'.At t q)
    (hheld : ∀ t, k'.state t = .ready → (k.pc c).held = some t → ∃ q, k'.At t q)
    (hdisp : k.pc c = .displacing → ∃ p, k'.At (k.current c) p)
    (hstarted : ∀ t, stage = .leaving t ∨ stage = .entering t → k'.state t = .running)
    (hothers : ∀ c' ≠ c, ∀ t, (k.pc c').held = some t → k'.state t = k.state t) : k'.Placed := by
  have hsame {c' : Fin n} (hc : c' ≠ c) : k'.pc c' = k.pc c' := by
    rw [hpc, update_of_ne hc]
  have hnew : k'.pc c = stage := by
    rw [hpc, update_self]
  refine hp.of_moves (fun t ht => ?_) (fun t p ht hat => ?_) (fun c' hc' _ => ?_) fun c' t hc' => ?_
  · exact (hready t ht).imp_right fun ⟨hstage, hc⟩ => .inr ⟨c, hnew.trans hstage, hc⟩
  · cases p with
    | queue => exact hqueue t ht hat
    | pending c' => exact hslot t c' ht hat
    | hand c' =>
      by_cases hc : c' = c
      · subst hc
        exact hheld t ht hat
      refine ⟨.hand c', ?_⟩
      change (k'.pc c').held = some t
      rwa [hsame hc]
  · by_cases hc : c' = c
    · subst hc
      exact .inl (hdisp hc')
    · exact .inr ⟨(hsame hc).trans hc', hcur c' hc⟩
  · by_cases hc : c' = c
    · rw [hc, hnew] at hc'
      exact hstarted t hc'
    · rw [hsame hc] at hc'
      exact (hothers c' hc t (Stage.held_of_started hc')).trans (hp.started c' t hc')

lemma goto (c : Fin n) (stage : Stage n)
    (hkeep : ∀ t, (k.pc c).held = some t → k.state t = .ready → stage.held = some t)
    (hdisp : k.pc c ≠ .displacing := by simp [*])
    (hstarted : ∀ t, stage = .leaving t ∨ stage = .entering t → k.state t = .running := by simp) :
    (k.goto c stage).Placed := by
  refine hp.of_goto rfl (fun _ _ => rfl) (fun _ => .inl) (fun t _ hq => ⟨.queue, hq⟩)
    (fun t c' _ hslot => ⟨.pending c', hslot⟩) (fun t ht hheld => ⟨.hand c, ?_⟩)
    (fun h => absurd h hdisp) hstarted fun _ _ _ _ => rfl
  rw [at_goto_hand, if_pos rfl]
  exact hkeep t hheld ht

lemma setState (t : Nat) (state : ProcessState) (hne : state ≠ .ready)
    (hstarted : state = .running ∨ ∀ c, (k.pc c).held ≠ some t) : (k.setState t state).Placed := by
  have hself : (k.setState t state).state t = state := update_self ..
  have hother {x : Nat} (hx : x ≠ t) : (k.setState t state).state x = k.state x :=
    update_of_ne hx ..
  constructor
  · intro x hx
    have hxt : x ≠ t := by
      rintro rfl
      exact hne (hself.symm.trans hx)
    rw [hother hxt] at hx
    exact hp.ready x hx
  · intro c x hc
    by_cases hxt : x = t
    · subst hxt
      obtain hrunning | hheld := hstarted
      · exact hself.trans hrunning
      exact absurd (Stage.held_of_started hc) (hheld c)
    · rw [hother hxt]
      exact hp.started c x hc

/-- A task that is blocked or asleep becomes ready and is queued. -/
lemma rouse (hoff : ∀ p, ¬k.At t p) (cpu : Nat) :
    (({ k with sleepsOn := update k.sleepsOn t none }.setState t .ready).enqueue
      cpu t).Placed := by
  have hother {x : Nat} (hx : x ≠ t) : update k.state t .ready x = k.state x :=
    update_of_ne hx ..
  have hat {x : Nat} (p : Place n) (hxp : k.At x p) :
      ∃ q, (({ k with sleepsOn := update k.sleepsOn t none }.setState t .ready).enqueue
        cpu t).At x q := by
    refine ⟨p, ?_⟩
    cases p with
    | queue =>
      have hx : x ≠ t := by
        rintro rfl
        exact hoff .queue hxp
      change (Kernel.enqueue _ cpu t).isQueued x = true
      rwa [enqueue_isQueued, update_of_ne hx]
    | pending c =>
      change (Kernel.enqueue _ cpu t).pending c = some x
      rwa [enqueue_pending]
    | hand c =>
      change ((Kernel.enqueue _ cpu t).pc c).held = some x
      rwa [enqueue_pc]
  refine hp.of_moves (fun x hx => ?_) (fun x p _ hxp => hat p hxp) (fun c hc _ => .inr ?_)
    fun c x hc => ?_
  · rw [enqueue_state] at hx
    by_cases hxt : x = t
    · refine .inr (.inl ⟨.queue, ?_⟩)
      change (Kernel.enqueue _ cpu t).isQueued x = true
      rw [enqueue_isQueued, hxt, update_self]
    · exact .inl ((hother hxt).symm.trans hx)
  · rw [enqueue_pc, enqueue_current]
    exact ⟨hc, rfl⟩
  · rw [enqueue_pc] at hc
    rw [enqueue_state]
    have hxt : x ≠ t := by
      rintro rfl
      exact hoff (.hand c) (Stage.held_of_started hc)
    exact (hother hxt).trans (hp.started c x hc)

lemma putBack (hheld : (k.pc c).held = some t) (hassigned : stage.assigned = none)
    (hdisp : k.pc c ≠ .displacing) (cpu : Nat) : ((k.goto c stage).enqueue cpu t).Placed := by
  have hqueued (x : Nat) (hx : x = t ∨ k.isQueued x = true) :
      ∃ q, ((k.goto c stage).enqueue cpu t).At x q := by
    refine ⟨.queue, ?_⟩
    change ((k.goto c stage).enqueue cpu t).isQueued x = true
    rw [enqueue_isQueued, update_apply]
    split
    · rfl
    · exact hx.resolve_left ‹_›
  refine hp.of_goto (enqueue_pc ..) (fun c' _ => congrFun (enqueue_current ..) c')
    (fun x hx => .inl ?_) (fun x _ hq => hqueued x (.inr hq))
    (fun x c' _ hslot => ⟨.pending c', ?_⟩)
    (fun x _ hx => hqueued x (.inl (Option.some.inj (hx.symm.trans hheld))))
    (fun h => absurd h hdisp) ?_ fun _ _ x _ => congrFun (enqueue_state ..) x
  · rwa [enqueue_state] at hx
  · change ((k.goto c stage).enqueue cpu t).pending c' = some x
    rwa [enqueue_pending]
  · rintro x (rfl | rfl) <;> cases hassigned

lemma preempt (h : k.Inv cfg) (hpc : k.pc c = .preempting) :
    ((k.setState (k.current c) .ready).goto c .displacing).Placed := by
  have hother {x : Nat} (hx : x ≠ k.current c) :
      update k.state (k.current c) .ready x = k.state x := update_of_ne hx ..
  refine hp.of_goto rfl (fun _ _ => rfl) (fun x hx => ?_) (fun x _ hq => ⟨.queue, hq⟩)
    (fun x c' _ hslot => ⟨.pending c', hslot⟩) (by simp [hpc, Stage.held]) (by simp [hpc]) (by simp)
    fun c' _ x hx => ?_
  · by_cases hxt : x = k.current c
    · exact .inr ⟨rfl, hxt.symm⟩
    · exact .inl ((hother hxt).symm.trans hx)
  · exact hother (h.ne_current (p := .hand c') hx (by rw [hpc]; rfl)).symm

lemma displace (hpc : k.pc c = .displacing) (hslot : k.pending c = none) :
    { k.goto c .picking with
      pending := update k.pending c (some (k.current c)) }.Placed := by
  refine hp.of_goto rfl (fun _ _ => rfl) (fun x hx => .inl hx) (fun x _ hq => ⟨.queue, hq⟩)
    (fun x c' _ hx => ⟨.pending c', ?_⟩) (by simp [hpc, Stage.held])
    (fun _ => ⟨.pending c, update_self ..⟩) (by simp) fun _ _ _ _ => rfl
  have hc : c' ≠ c := by
    rintro rfl
    cases hslot.symm.trans hx
  exact (update_of_ne hc ..).trans hx

lemma enter (hpc : k.pc c = .entering t) :
    { k.goto c .switching with current := update k.current c t }.Placed := by
  refine hp.of_goto rfl (fun c' hc => update_of_ne hc ..) (fun x hx => .inl hx)
    (fun x _ hq => ⟨.queue, hq⟩) (fun x c' _ hslot => ⟨.pending c', hslot⟩) (fun x hx hheld => ?_)
    (by simp [hpc]) (by simp) fun _ _ _ _ => rfl
  rw [hpc] at hheld
  cases hheld
  cases (hp.started c t (.inr hpc)).symm.trans hx

lemma grab {isQueued : Nat → Bool} {pending : Fin n → Option Nat}
    (hheld : stage.held = some t) (hassigned : stage.assigned = none)
    (hpc : (k.pc c).held = none) (hdisp : k.pc c ≠ .displacing)
    (hqueue : ∀ x, x ≠ t → k.isQueued x = true → isQueued x = true)
    (hslot : ∀ x c', x ≠ t → k.pending c' = some x → pending c' = some x) :
    { k.goto c stage with isQueued, pending }.Placed := by
  have hgrabbed : ∃ q, Kernel.At { k.goto c stage with isQueued, pending } t q := by
    refine ⟨.hand c, (at_goto_hand c).mpr ?_⟩
    rwa [if_pos rfl]
  refine hp.of_goto rfl (fun _ _ => rfl) (fun x hx => .inl hx) (fun x _ hq => ?_)
    (fun x c' _ hx => ?_) (by simp [hpc]) (fun h => absurd h hdisp) ?_ fun _ _ _ _ => rfl
  · by_cases hxt : x = t
    · rwa [hxt]
    · exact ⟨.queue, hqueue x hxt hq⟩
  · by_cases hxt : x = t
    · rwa [hxt]
    · exact ⟨.pending c', hslot x c' hxt hx⟩
  · rintro x (rfl | rfl) <;> cases hassigned

lemma advance (h : k.Inv cfg) (hok : k.advance cfg c = some k') : k'.Placed := by
  cases hpc : k.pc c <;>
    simp only [Kernel.advance, hpc, Option.some.injEq, reduceCtorEq] at hok <;> try cases hok
  case exiting =>
    have hslot : k.pending c = none := h.slot c (by rw [hpc]; rfl)
    have hqueued : k.isQueued (k.current c) = false :=
      Bool.eq_false_iff.mpr ((h.live c (by rw [hpc]; rfl)).1.off .queue)
    simp only [Kernel.remove, ← hqueued, ← hslot, update_eq_self]
    exact hp.goto c .parked (by simp [hpc, Stage.held])
  case preempting =>
    exact hp.preempt h hpc
  case displacing =>
    have hslot : k.pending c = none := h.slot c (by rw [hpc]; rfl)
    simp only [hslot]
    exact hp.displace hpc hslot
  case picked next =>
    split at hok <;> cases hok
    case isTrue hgone =>
      refine hp.goto c .picking fun t ht hready => ?_
      rw [hpc] at ht
      cases ht
      simp [gone, hready] at hgone
    · exact hp.goto c _ (by simp [hpc, Stage.held])
  case checkingCurrent next i =>
    repeat' split at hok
    all_goals
      cases hok
      exact hp.goto c _ (by simp [hpc, Stage.held])
  case checkingSwitching next i =>
    obtain ⟨_, hok⟩ := Option.dite_none_right_eq_some.mp hok
    split at hok <;> cases hok <;>
      exact hp.goto c _ (by simp [hpc, Stage.held])
  case rejecting | requeueing =>
    rw [goto_enqueue]
    exact hp.putBack (by rw [hpc]; rfl) rfl (by simp [hpc]) c
  case assigning next =>
    have hp' := hp.goto c (.starting next) (by simp [hpc, Stage.held])
    exact { hp' with }
  case starting next =>
    have hself : (k.setState next .running).state next = .running := update_self ..
    refine (hp.setState next .running (by simp) (.inl rfl)).goto c _ (fun t ht hready => ?_)
      (by simp [Kernel.setState, hpc]) (fun t ht => ?_)
    · have ht : (k.pc c).held = some t := ht
      rw [hpc] at ht
      cases ht
      cases hself.symm.trans hready
    · split at ht
      · simp at ht
      · simp only [Stage.leaving.injEq, reduceCtorEq, or_false] at ht
        rwa [← ht]
  case leaving next =>
    have hp' := hp.goto c (.entering next) (by simp [hpc, Stage.held]) (by simp [hpc])
      (fun t ht => hp.started c t (by simpa [hpc] using ht))
    exact { hp' with }
  case entering next =>
    exact hp.enter hpc
  case switching =>
    cases k.saved (k.current c) with
    | none =>
      have hp' := hp.goto c .starter (by simp [hpc, Stage.held])
      exact { hp' with }
    | some cpu =>
      have hp' := hp.goto c (.resumed cpu) (by simp [hpc, Stage.held])
      exact { hp' with }
  case resumed | starter =>
    have hp' := hp.goto c .finishing (by simp [hpc, Stage.held])
    exact { hp' with }
  case finishing =>
    cases hslot : k.pending c with
    | none =>
      have hsame : update k.pending c none = k.pending := by
        rw [← hslot, update_eq_self]
      rw [hsame]
      exact hp.goto c .running (by simp [hpc, Stage.held])
    | some t =>
      refine hp.grab rfl rfl (by rw [hpc]; rfl) (by simp [hpc]) (fun x _ hx => hx)
        fun x c' hxt hx => ?_
      have hc : c' ≠ c := by
        rintro rfl
        exact hxt (Option.some.inj (hx.symm.trans hslot))
      exact (update_of_ne hc ..).trans hx
  case returning pending =>
    split at hok <;> cases hok
    · exact hp.goto c _ (by simp [hpc, Stage.held])
    case isFalse hready =>
      refine hp.goto c .running fun t ht hst => ?_
      rw [hpc] at ht
      cases ht
      exact absurd hst hready

lemma step (h : k.Inv cfg) (hcond : k.Meets e) (hok : k.step cfg e = some k') : k'.Placed := by
  cases e with
  | enter c =>
    obtain ⟨hpc, hok⟩ := then_of_ite hok
    have hheld : (k.pc c).held = none := by
      obtain heq | heq := hpc <;> rw [heq] <;> rfl
    have hdisp : k.pc c ≠ .displacing := by
      obtain heq | heq := hpc <;> simp [heq]
    have hslot : k.pending c = none := by
      apply h.slot
      obtain heq | heq := hpc <;> rw [heq] <;> rfl
    split at hok
    · cases hok
      exact hp.goto c _ (by simp [hheld])
    · have hsame : update k.pending c none = k.pending := by
        rw [← hslot, update_eq_self]
      rw [hsame] at hok
      cases hok
      exact hp.goto c .picking (by simp [hheld])
  | advance c => exact hp.advance h hok
  | pick c task | steal c _ task =>
    obtain ⟨hpick, ⟨⟩⟩ := then_of_ite hok
    exact hp.grab rfl rfl (by rw [hpick.1]; rfl) (by simp [hpick.1])
      (fun x hx hq => (update_of_ne hx ..).trans hq) fun _ _ _ hx => hx
  | pickNone c =>
    obtain ⟨hpc, ⟨⟩⟩ := then_of_ite hok
    exact hp.goto c _ (by simp [hpc, Stage.held])
  | block c queue =>
    obtain ⟨hpc, ⟨⟩⟩ := then_of_ite hok
    have hstack : k.onStack c = k.current c := h.stack c (by simp [hpc.1])
    have hfree := (h.live c (by rw [hpc.1]; rfl)).1
    have hp' := (hp.setState (k.current c) .blocked (by simp)
      (.inr fun c' => hfree.off (.hand c'))).goto c .parked
      (by simp [Kernel.setState, hpc.1, Stage.held]) (by simp [Kernel.setState, hpc.1])
    rw [hstack]
    exact { hp' with }
  | sleep c =>
    obtain ⟨hpc, hok⟩ := then_of_ite hok
    have hfree := (h.live c (by rw [hpc.1]; rfl)).1
    have hqueued : k.isQueued (k.current c) = false :=
      Bool.eq_false_iff.mpr (hfree.off .queue)
    have hslot : k.pending c = none := h.slot c (by rw [hpc.1]; rfl)
    have hp' := (hp.setState (k.current c) .sleeping (by simp)
      (.inr fun c' => hfree.off (.hand c'))).goto c .parked
      (by simp [Kernel.setState, hpc.1, Stage.held]) (by simp [Kernel.setState, hpc.1])
    have hsame : update k.pending c none = k.pending := by
      rw [← hslot, update_eq_self]
    have hflag : update k.isQueued (k.current c) false = k.isQueued := by
      rw [← hqueued, update_eq_self]
    simp only [Kernel.remove, Kernel.setState, hsame, hflag] at hok
    cases hok
    exact { hp' with }
  | scan c task =>
    obtain ⟨hsleeps, ⟨⟩⟩ := then_of_ite hok
    exact hp.rouse (h.asleep task c hsleeps).1 c
  | pop task =>
    cases hok
    exact { hp with }
  | loadCpu thread task =>
    obtain ⟨-, ⟨⟩⟩ := then_of_ite hok
    exact { hp with }
  | wake thread =>
    obtain ⟨call, hcall, rfl⟩ := Option.map_eq_some_iff.mp hok
    obtain heq | ⟨hst, heq⟩ := h.wake_eq call.cpu (hcond call hcall)
    · rw [heq]
      exact { hp with }
    · rw [heq]
      have hp' := hp.rouse (h.off call.task (hst.imp (fun hb => hb) Or.inl)) call.cpu
      exact { hp' with }

end Placed

/-- No task runs on two CPUs, no two CPUs are on one stack, and a ready task is in one place. -/
structure OneCpu (cfg : Tasking n) (k : Kernel n) : Prop where
  current : ∀ c c', cfg.pid (k.current c) ≠ 0 → k.current c = k.current c' → c = c'
  stack : ∀ c c', k.onStack c = k.onStack c' → c = c'
  resume : ∀ c c', k.pc c = .switching → c' ≠ c → k.onStack c' ≠ k.current c
  ready : ∀ t, k.state t = .ready → (∃! p, k.At t p) ∨ ∃! c, k.current c = t

namespace Initial

variable (hinit : k.Initial cfg)
include hinit

lemma announced : k.Stacks cfg := by
  constructor
  case entering =>
    intro c t hc
    cases (hinit.pc c).symm.trans hc
  case switching =>
    intro c hc
    cases (hinit.pc c).symm.trans hc
  case cleared =>
    intro c t j hj
    rw [hinit.pc c] at hj
    exact hj.elim
  case resume =>
    intro c j hc
    cases (hinit.pc c).symm.trans hc
  case idle =>
    intro i j hj
    rw [hinit.onStack j] at hj
    exact cfg.idle_injective hj
  case injective =>
    intro j j' heq
    rw [hinit.onStack j, hinit.onStack j'] at heq
    exact cfg.idle_injective heq

lemma placed : k.Placed := by
  constructor
  · intro t hready
    obtain ⟨hdead, -⟩ | ⟨-, hqueued⟩ :=
      hinit.ready_or_dead (t := t) fun c hrunning => by simp [hrunning] at hready
    · cases hdead.symm.trans hready
    · exact .inl ⟨.queue, hqueued⟩
  · intro c t hc
    simp [hinit.pc c] at hc

end Initial

/-- The conditions of the last theorem as a test. -/
def allowed? (k : Kernel n) : KernelEvent n → Bool
  | .wake thread => (k.calls thread).all fun call =>
    decide (k.state call.task = .sleeping → k.cpuId call.task = call.cpu)
  | .advance c =>
    match k.pc c with
    | .resumed cpu => decide (cpu ≠ c → k.switching cpu = none)
    | _ => true
  | _ => true

lemma meets_of_allowed? (h : k.allowed? e = true) : k.Meets e ∧ k.Leaves e := by
  cases e with
  | advance c =>
    refine ⟨trivial, fun cpu hpc => ?_⟩
    simp only [allowed?, hpc, decide_eq_true_eq] at h
    exact h
  | wake thread =>
    refine ⟨fun call hcall => ?_, trivial⟩
    simp only [allowed?, hcall, Option.all_some, decide_eq_true_eq] at h
    exact h
  | _ => exact ⟨trivial, trivial⟩

def step? (cfg : Tasking n) (k : Kernel n) (e : KernelEvent n) : Option (Kernel n) :=
  if k.allowed? e then k.step cfg e else none

lemma step_of_step? (h : k.step? cfg e = some k') :
    (k.Meets e ∧ k.Leaves e) ∧ k.step cfg e = some k' := by
  obtain ⟨hallow, h⟩ := then_of_ite h
  exact ⟨meets_of_allowed? hallow, h⟩

/-- Two CPUs with the idle tasks 1 and 2. -/
def twoCpus : Tasking 2 where
  idle c := c + 1
  pid task := if task ≤ 2 then 0 else task
  affinity _ := -1
  idle_injective _ _ heq := Fin.ext (Nat.succ.inj heq)
  pid_idle c := if_pos (Nat.succ_le_of_lt c.isLt)

/-- Tasks 3 to 6 are new and wait in the queue of CPU 1. -/
def fourQueued : Kernel 2 where
  state task := if task = 1 ∨ task = 2 then .running else if task ∈ [3, 4, 5, 6] then .ready
    else .dead
  cpuId task := if task = 1 then 0 else 1
  isQueued task := decide (task ∈ [3, 4, 5, 6])
  sleepsOn _ := none
  waitsOn _ := none
  saved _ := none
  current c := c + 1
  pending _ := none
  switching _ := none
  onStack c := c + 1
  pc _ := .running
  calls _ := none

lemma fourQueued_initial : fourQueued.Initial twoCpus where
  idle := by decide
  tasks t ht := by
    have h1 : t ≠ 1 := ht 0
    have h2 : t ≠ 2 := ht 1
    simp only [fourQueued, h1, h2, or_self, if_false]
    by_cases hmem : t ∈ [3, 4, 5, 6]
    · exact .inr ⟨if_pos hmem, decide_eq_true hmem⟩
    · exact .inl ⟨if_neg hmem, decide_eq_false hmem⟩
  sleepsOn _ := rfl
  current _ := rfl
  onStack _ := rfl
  pending _ := rfl
  pc _ := rfl

/-- Task 3 is preempted by task 4 on CPU 1 and queued; CPU 0 steals it and enters its stack. -/
def migrated : List (KernelEvent 2) :=
  [.enter 1, .pick 1 3] ++ List.replicate 12 (.advance 1) ++
    [.enter 1, .advance 1, .advance 1, .pick 1 4] ++ List.replicate 14 (.advance 1) ++
    [.enter 0, .steal 0 1 3] ++ List.replicate 10 (.advance 0)

end Kernel

end Singularity.Process
