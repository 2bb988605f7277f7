import Singularity.PhysicalMemory.Ledger

/-!
# No frame is handed out while it is in use

A user of the manager owns the frames that allocations returned until it frees
them, and pins frames with `pmm_inc_ref` until the matching `pmm_dec_ref`. The
state `Use` records both next to the manager. The fast path of `pmm_free_frame`
puts a frame into a magazine without a look at its reference count, so a frame
that is pinned at that time can be handed out again.
-/

namespace Singularity.PhysicalMemory

open Foundation Option Multiset Pmm

/-- The frame that a call pins. -/
def pinned : Call → Multiset Nat
  | .incRef ptr => framesAt ptr 1
  | _ => 0

/-- The frame that loses a pin with a call. -/
def unpinned : Call → Multiset Nat
  | .decRef ptr => framesAt ptr 1
  | _ => 0

/-- The manager with the frames that have an owner and the pins not dropped yet. -/
structure Use where
  pmm : Pmm
  owned : Multiset Nat
  pins : Multiset Nat

/-- Owners release what they got, once, and every dropped pin was set before. -/
def Matched (u : Use) (call : Call) : Prop :=
  PlainCall call ∧ released call ≤ u.owned ∧ unpinned call ≤ u.pins

/-- The users' view after a call. -/
def Use.after (u : Use) (call : Call) (ptr : Nat) (pmm : Pmm) : Use where
  pmm := pmm
  owned := handedOut ptr call + (u.owned - released call)
  pins := pinned call + (u.pins - unpinned call)

/-- One call of a user that keeps to the rules. -/
def UseStep (u : Use) (call : Call) (u' : Use) : Prop :=
  Matched u call ∧ ∃ ptr pmm', exec u.pmm call = .ok (ptr, pmm') ∧ u' = u.after call ptr pmm'

def Use.boot (s : PmmState) : Use := ⟨Pmm.boot s, 0, 0⟩

/-- The calls that respect the pins: a frame with pins is not freed through a
magazine, and only frames with an owner or a pin are pinned, up to the largest
count. Frames that the manager does not track may be pinned freely. -/
def RespectsPins (u : Use) : Call → Prop
  | .freeFrame cpu ptr => cpu < maxCpus → ptr / pageSize ∉ u.pins
  | .incRef ptr => ptr / pageSize < u.pmm.state.totalFrames →
      u.pmm.state.refCounts (ptr / pageSize) ≠ refReserved →
      ptr / pageSize ∈ u.owned + u.pins ∧ (u.owned + u.pins).count (ptr / pageSize) < 254
  | _ => True

variable {s₀ : PmmState} {pmm pmm' : Pmm} {cpu ptr : Nat}

lemma Accounts.allocFrame (h : Accounts s₀ pmm owned pins)
    (hok : pmmAllocFrame pmm cpu = .ok (ptr, pmm')) :
    Accounts s₀ pmm' (framesAt ptr 1 + owned) pins ∧
      ∀ f ∈ framesAt ptr 1, f ∉ owned ∧ f ∉ pins := by
  unfold pmmAllocFrame at hok
  split at hok
  case isTrue hcpu =>
    split at hok
    · obtain ⟨⟨frame, mid⟩, hpop, ⟨⟩⟩ := ok_of_bind hok
      exact h.popMagazine_granted hcpu hpop
    case isFalse hempty =>
      obtain ⟨⟨loaded, mid⟩, hrefill, hok⟩ := ok_of_bind hok
      have hmid := h.magazineRefill (not_not.mp hempty) hrefill
      dsimp only at hok
      split at hok
      · obtain ⟨⟨frame, last⟩, hpop, ⟨⟩⟩ := ok_of_bind hok
        exact hmid.popMagazine_granted hcpu hpop
      · exact hmid.allocLocked hok
  · exact h.allocLocked hok

lemma magazineFlush_empty (hcpu : cpu < maxCpus) (hok : magazineFlush pmm cpu = .ok pmm') :
    pmm'.magazines cpu = [] := by
  unfold magazineFlush at hok
  rw [if_neg (by omega)] at hok
  split at hok
  case isTrue hempty =>
    cases hok
    exact hempty
  · obtain ⟨mid, -, ⟨⟩⟩ := ok_of_bind hok
    exact Function.update_self _ _ _

lemma Accounts.freeFrame (h : Accounts s₀ pmm (framesAt ptr 1 + owned) pins)
    (hpins : cpu < maxCpus → ptr / pageSize ∉ pins)
    (hok : pmmFreeFrame pmm cpu ptr = .ok pmm') : Accounts s₀ pmm' owned pins := by
  dsimp only [pmmFreeFrame] at hok
  split at hok
  case isTrue hnull =>
    cases hok
    simpa [hnull] using h
  case isFalse hnull =>
    rw [framesAt_one hnull, singleton_add] at h
    split at hok
    case isTrue hcpu =>
      split at hok
      · cases hok
        exact h.pushMagazine hcpu (hpins hcpu)
      obtain ⟨mid, hflush, ⟨⟩⟩ := ok_of_bind hok
      exact (h.magazineFlush hflush).storeMagazine hcpu (hpins hcpu)
        (magazineFlush_empty hcpu hflush)
    · obtain ⟨mid, hfree, ⟨⟩⟩ := ok_of_bind hok
      exact h.freeFrameLocked hnull hfree

lemma Ledger.registerRegion (h : Ledger s₀ 0 s owned pins park) :
    Ledger s₀ 0 (pmmRegisterRegion s nodeId base length) owned pins park := by
  have hbooks :
      Books s₀.totalFrames s₀.totalFrames noFrame 0 (pmmRegisterRegion s nodeId base length) :=
    Books.kept.registerRegion h.books
  dsimp only [pmmRegisterRegion] at hbooks ⊢
  split
  · exact h
  case isFalse hnode =>
    rw [if_neg hnode] at hbooks
    exact ⟨hbooks, h.total_le, h.initialized, h.zero, h.small, h.reserved, h.counted, h.managed,
      h.once, h.unpinned⟩

variable {u u' : Use} {call : Call}

/-- A call that respects the pins keeps the accounts and hands out what was not in use. -/
lemma exec_accounts (h : Accounts s₀ u.pmm u.owned u.pins) (hmatched : Matched u call)
    (hsafe : RespectsPins u call) (hok : exec u.pmm call = .ok (ptr, pmm')) :
    Accounts s₀ pmm' (handedOut ptr call + (u.owned - released call))
        (pinned call + (u.pins - unpinned call)) ∧
      ∀ f ∈ handedOut ptr call, f ∉ u.owned ∧ f ∉ u.pins := by
  obtain ⟨hplain, howned, hpins⟩ := hmatched
  rw [← add_tsub_cancel_of_le howned, ← add_tsub_cancel_of_le hpins] at h
  unfold exec at hok
  cases call <;> simp only [handedOut, released, pinned, unpinned, tsub_zero, zero_add] at h ⊢
  case allocFrame cpu =>
    exact h.allocFrame hok
  case freeFrame cpu p =>
    obtain ⟨mid, hfree, ⟨⟩⟩ := ok_of_bind hok
    exact ⟨h.freeFrame hsafe hfree, by simp⟩
  case allocContiguous count =>
    obtain ⟨s', hrun, rfl⟩ := locked_ok hok
    obtain ⟨hledger, hunused⟩ := Ledger.allocContiguousAligned h (.inr ⟨rfl, hplain⟩) hrun
    exact ⟨hledger, hunused⟩
  case allocContiguousAligned count alignPages =>
    obtain ⟨s', hrun, rfl⟩ := locked_ok hok
    obtain ⟨hledger, hunused⟩ := Ledger.allocContiguousAligned h (.inl hplain) hrun
    exact ⟨hledger, hunused⟩
  case freeContiguous p count =>
    obtain ⟨s', hrun, rfl⟩ := locked_ok hok
    obtain ⟨mid, hfree, ⟨⟩⟩ := ok_of_bind hrun
    exact ⟨h.freeContiguous hfree, by simp⟩
  case incRef p =>
    obtain ⟨s', hrun, rfl⟩ := locked_ok hok
    cases hrun
    refine ⟨?_, by simp⟩
    by_cases hnull : p = 0
    · subst hnull
      simpa [pmmIncRef] using h
    rw [framesAt_one hnull, singleton_add]
    refine Ledger.incRef h hnull ?_
    rwa [← h.books.total_eq]
  case decRef p =>
    obtain ⟨s', hrun, rfl⟩ := locked_ok hok
    obtain ⟨mid, hfree, ⟨⟩⟩ := ok_of_bind hrun
    refine ⟨?_, by simp⟩
    by_cases hnull : p = 0
    · subst hnull
      cases hfree
      simpa using h
    · rw [framesAt_one hnull, singleton_add] at h
      rw [framesAt_one hnull]
      exact Ledger.decRef h hnull hfree
  case flushMagazines cpu =>
    obtain ⟨mid, hflush, ⟨⟩⟩ := ok_of_bind hok
    exact ⟨h.magazineFlush hflush, by simp⟩
  case registerRegion nodeId base length =>
    obtain ⟨s', hrun, rfl⟩ := locked_ok hok
    cases hrun
    exact ⟨Ledger.registerRegion h, by simp⟩

/-- One call that keeps to the rules and respects the pins. -/
def SafeStep (u : Use) (call : Call) (u' : Use) : Prop := RespectsPins u call ∧ UseStep u call u'

lemma safeStep_accounts (h : Accounts s₀ u.pmm u.owned u.pins)
    (hstep : SafeStep u call u') : Accounts s₀ u'.pmm u'.owned u'.pins := by
  obtain ⟨hsafe, hmatched, ptr, pmm', hok, rfl⟩ := hstep
  exact (exec_accounts h hmatched hsafe hok).1

instance : (call : Call) → Decidable (PlainCall call)
  | .allocContiguous count => inferInstanceAs (Decidable (count < 2 ^ 64))
  | .allocContiguousAligned count _ => inferInstanceAs (Decidable (count < 2 ^ 52))
  | .allocFrame _ | .freeFrame _ _ | .freeContiguous _ _ | .incRef _ | .decRef _
  | .flushMagazines _ | .registerRegion _ _ _ => .isTrue trivial

instance (u : Use) (call : Call) : Decidable (Matched u call) := inferInstanceAs (Decidable (_ ∧ _))

instance (u : Use) : (call : Call) → Decidable (RespectsPins u call)
  | .freeFrame _ _ => inferInstanceAs (Decidable (_ → _))
  | .incRef _ => inferInstanceAs (Decidable (_ → _ → _))
  | .allocFrame _ | .allocContiguous _ | .allocContiguousAligned _ _ | .freeContiguous _ _
  | .decRef _ | .flushMagazines _ | .registerRegion _ _ _ => .isTrue trivial

/-- The step relation as a partial function. -/
def useStep? (u : Use) (call : Call) : Option Use :=
  if Matched u call then
    (exec u.pmm call).toOption.map fun result => u.after call result.1 result.2
  else none

def safeStep? (u : Use) (call : Call) : Option Use :=
  if RespectsPins u call then useStep? u call else none

lemma useStep_of_useStep? (h : useStep? u call = some u') : UseStep u call u' := by
  obtain ⟨hmatched, h⟩ := then_of_ite h
  obtain ⟨result, hexec, rfl⟩ := map_eq_some_iff.mp h
  exact ⟨hmatched, result.1, result.2, ok_of_toOption hexec, rfl⟩

lemma safeStep_of_safeStep? (h : safeStep? u call = some u') : SafeStep u call u' := by
  obtain ⟨hsafe, h⟩ := then_of_ite h
  exact ⟨hsafe, useStep_of_useStep? h⟩

/-- In every run of calls that respect the pins, on a memory map without overlaps
below the end of the address space, an allocation hands out only frames that have
neither an owner nor a pin. -/
theorem handedOut_unused {mb : MultibootInfo} {kernelEnd : UInt64} {s₀ : PmmState}
    {calls : List Call} {u : Use} {call : Call} (hmap : mb.NonOverlapping)
    (hfit : ∀ e ∈ mb.entries, e.addr.toNat + e.len.toNat < 2 ^ 64)
    (hinit : pmmInit PmmState.static mb kernelEnd = .ok s₀)
    (hrun : Run SafeStep (Use.boot s₀) calls u) (hplain : PlainCall call)
    (hok : exec u.pmm call = .ok (ptr, pmm')) :
    ∀ f ∈ handedOut ptr call, f ∉ u.owned ∧ f ∉ u.pins := by
  have hacc : Accounts s₀ u.pmm u.owned u.pins :=
    hrun.invariant (I := fun u => Accounts s₀ u.pmm u.owned u.pins)
      (fun _ _ _ h hstep => safeStep_accounts h hstep) (pmmInit_accounts hmap hfit hinit)
  cases call with
  | allocFrame _ | allocContiguous _ | allocContiguousAligned _ _ =>
    exact (exec_accounts hacc ⟨hplain, zero_le _, zero_le _⟩ trivial hok).2
  | freeFrame _ _ | freeContiguous _ _ | incRef _ | decRef _ | flushMagazines _
  | registerRegion _ _ _ => simp [handedOut]

/-- The run theorem where one frame is pinned and another block is owned. -/
theorem handedOut_unused_smallMachine :
    ∃ s₀ u pmm', pmmInit PmmState.static smallMachine 0x200000 = .ok s₀ ∧
      Run SafeStep (Use.boot s₀) [.allocFrame 0, .allocContiguous 2, .incRef 0x220000] u ∧
      exec u.pmm (.allocFrame 0) = .ok (0x21F000, pmm') ∧
      ∀ f ∈ handedOut 0x21F000 (.allocFrame 0), f ∉ u.owned ∧ f ∉ u.pins := by
  have hsome : ((pmmInit PmmState.static smallMachine 0x200000).toOption.bind fun s₀ =>
      (Run.exec safeStep? (Use.boot s₀)
        [.allocFrame 0, .allocContiguous 2, .incRef 0x220000]).bind fun u =>
      (exec u.pmm (.allocFrame 0)).toOption.map Prod.fst) = some 0x21F000 := by decide +kernel
  obtain ⟨s₀, hinit, hsome⟩ := bind_eq_some_iff.mp hsome
  obtain ⟨u, hrun, hsome⟩ := bind_eq_some_iff.mp hsome
  obtain ⟨⟨ptr, pmm'⟩, hexec, rfl⟩ := map_eq_some_iff.mp hsome
  have hinit := ok_of_toOption hinit
  have hrun := Run.of_exec (fun _ _ _ => safeStep_of_safeStep?) hrun
  have hexec := ok_of_toOption hexec
  exact ⟨s₀, u, pmm', hinit, hrun, hexec,
    handedOut_unused smallMachine_nonOverlapping (by decide) hinit hrun trivial hexec⟩

/-- A frame is allocated, pinned and freed into the magazine of CPU 0, and the
next allocation hands it out although the pin is only dropped afterwards. -/
theorem pinned_frame_handed_out :
    ∃ s₀ u u' pmm', pmmInit PmmState.static smallMachine 0x200000 = .ok s₀ ∧
      Run UseStep (Use.boot s₀) [.allocFrame 0, .incRef 0x220000, .freeFrame 0 0x220000] u ∧
      exec u.pmm (.allocFrame 0) = .ok (0x220000, pmm') ∧
      0x220 ∈ handedOut 0x220000 (.allocFrame 0) ∧ 0x220 ∈ u.pins ∧
      Run UseStep u [.allocFrame 0, .decRef 0x220000, .freeFrame 0 0x220000] u' ∧
      u'.owned = 0 ∧ u'.pins = 0 := by
  have hsome : ((pmmInit PmmState.static smallMachine 0x200000).toOption.bind fun s₀ =>
      (Run.exec useStep? (Use.boot s₀)
        [.allocFrame 0, .incRef 0x220000, .freeFrame 0 0x220000]).bind fun u =>
      (exec u.pmm (.allocFrame 0)).toOption.bind fun result =>
      (Run.exec useStep? u [.allocFrame 0, .decRef 0x220000, .freeFrame 0 0x220000]).map fun u' =>
      (result.1, u.pins, u'.owned, u'.pins)) = some (0x220000, {0x220}, 0, 0) := by decide +kernel
  obtain ⟨s₀, hinit, hsome⟩ := bind_eq_some_iff.mp hsome
  obtain ⟨u, hrun, hsome⟩ := bind_eq_some_iff.mp hsome
  obtain ⟨⟨ptr, pmm'⟩, hexec, hsome⟩ := bind_eq_some_iff.mp hsome
  obtain ⟨u', hrest, hsome⟩ := map_eq_some_iff.mp hsome
  simp only [Prod.mk.injEq] at hsome
  obtain ⟨rfl, hpins, howned', hpins'⟩ := hsome
  refine ⟨s₀, u, u', pmm', ok_of_toOption hinit,
    Run.of_exec (fun _ _ _ => useStep_of_useStep?) hrun, ok_of_toOption hexec, by decide, ?_,
    Run.of_exec (fun _ _ _ => useStep_of_useStep?) hrest, howned', hpins'⟩
  rw [hpins]
  exact mem_singleton_self _

end Singularity.PhysicalMemory
