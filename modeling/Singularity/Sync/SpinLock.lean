import Singularity.Foundation.Runs
import Singularity.Foundation.Word
import Mathlib.Logic.Function.Basic

/-!
# Ticket spinlocks

Every atomic operation on the two 32-bit counters is one step of a thread. Beside the counters a
state numbers the acquisitions without wrapping: `taken` of them have begun and `served` have ended.
A thread has the number of its own one, and what `served` was when its attempt began.
-/

namespace Singularity.Sync

open Foundation Function

inductive SpinPc where
  | outside
  | spinning (myTicket : Nat)
  | readServing (serving : Nat)
  | readNext (next : Nat)
  | holding
  | stopped
  deriving DecidableEq

structure SpinThread where
  pc : SpinPc
  number : Nat
  since : Nat

structure SpinLock where
  nextTicket : Nat
  servingTicket : Nat
  taken : Nat
  served : Nat
  threads : Nat → SpinThread

/-- The atomic operations; `stop` is the `ud2` of a thread that has waited too long. -/
inductive SpinOp where
  | fetchAdd
  | loadMyTurn
  | stop
  | loadServing
  | loadNext
  | compareExchange
  | release
  deriving DecidableEq

/-- The thread has a number that has not ended. -/
def SpinThread.Active (th : SpinThread) : Prop :=
  th.pc = .holding ∨ ∃ ticket, th.pc = .spinning ticket

namespace SpinLock

variable {s s' : SpinLock} {t : Nat} {th : SpinThread} {op : SpinOp}

def create : SpinLock := ⟨0, 0, 0, 0, fun _ => ⟨.outside, 0, 0⟩⟩

def put (s : SpinLock) (t : Nat) (th : SpinThread) : SpinLock :=
  { s with threads := update s.threads t th }

def take (s : SpinLock) : SpinLock :=
  { s with nextTicket := (s.nextTicket + 1) % 2 ^ 32, taken := s.taken + 1 }

/-- `spinlock_acquire` is `fetchAdd` and a loop of `loadMyTurn`; `spinlock_try_acquire` loads both
counters and compares and swaps if they are equal. -/
def exec (s : SpinLock) (t : Nat) (op : SpinOp) : Option SpinLock :=
  let th := s.threads t
  match op, th.pc with
  | .fetchAdd, .outside => some (s.take.put t ⟨.spinning s.nextTicket, s.taken, s.served⟩)
  | .loadMyTurn, .spinning myTicket =>
    some (if s.servingTicket = myTicket then s.put t { th with pc := .holding } else s)
  | .stop, .spinning _ => some (s.put t { th with pc := .stopped })
  | .loadServing, .outside => some (s.put t ⟨.readServing s.servingTicket, th.number, s.served⟩)
  | .loadNext, .readServing serving =>
    some (s.put t { th with
      pc := if serving = s.nextTicket then .readNext s.nextTicket else .outside })
  | .compareExchange, .readNext next =>
    some (if s.nextTicket = next then s.take.put t ⟨.holding, s.taken, th.since⟩
      else s.put t { th with pc := .outside })
  | .release, .holding =>
    some { s.put t { th with pc := .outside } with
      servingTicket := (s.servingTicket + 1) % 2 ^ 32
      served := s.served + 1 }
  | _, _ => none

/-- The acquisitions of other threads that overlap the thread's attempt. -/
def overlapping (s : SpinLock) (th : SpinThread) : Nat :=
  match th.pc with
  | .spinning _ => s.taken - th.since - 1
  | .readServing _ | .readNext _ => s.taken - th.since
  | _ => 0

def Step (s : SpinLock) (e : Nat × SpinOp) (s' : SpinLock) : Prop :=
  s.exec e.1 e.2 = some s' ∧ ∀ t, s'.overlapping (s'.threads t) < 2 ^ 32

def step? (s : SpinLock) (e : Nat × SpinOp) : Option SpinLock :=
  (s.exec e.1 e.2).filter fun s' => s'.taken < 2 ^ 32

lemma step_of_step? (s : SpinLock) (e : Nat × SpinOp) (s' : SpinLock) (h : s.step? e = some s') :
    Step s e s' := by
  obtain ⟨hexec, htaken⟩ := Option.filter_eq_some_iff.mp h
  refine ⟨hexec, fun t => Nat.lt_of_le_of_lt ?_ (of_decide_eq_true htaken)⟩
  unfold overlapping
  split <;> omega

/-- What the numbers say about a thread. -/
def Fits (s : SpinLock) (th : SpinThread) : Prop :=
  match th.pc with
  | .spinning myTicket =>
    myTicket = th.number % 2 ^ 32 ∧ th.since ≤ s.served ∧ s.served ≤ th.number ∧ th.number < s.taken
  | .readServing ticket | .readNext ticket =>
    ∃ n, th.since ≤ n ∧ n ≤ s.served ∧ ticket = n % 2 ^ 32
  | .holding => th.number = s.served ∧ s.served < s.taken
  | _ => True

structure Inv (s : SpinLock) : Prop where
  nextTicket : s.nextTicket = s.taken % 2 ^ 32
  servingTicket : s.servingTicket = s.served % 2 ^ 32
  served : s.served ≤ s.taken
  fits : ∀ t, s.Fits (s.threads t)
  apart : ∀ t t', (s.threads t).Active → (s.threads t').Active →
    (s.threads t).number = (s.threads t').number → t = t'

lemma inv_create : create.Inv :=
  ⟨rfl, rfl, Nat.le_refl 0, fun _ => trivial, fun _ _ h => by simp [SpinThread.Active, create] at h⟩

lemma Fits.mono (h : s.Fits th) (hserved : s'.served = s.served) (htaken : s.taken ≤ s'.taken) :
    s'.Fits th := by
  unfold Fits at h ⊢
  rw [hserved]
  split at h <;> first | exact h | omega

lemma Inv.put (h : Inv s) (hthreads : s'.threads = update s.threads t th)
    (hnext : s'.nextTicket = s'.taken % 2 ^ 32) (hserving : s'.servingTicket = s'.served % 2 ^ 32)
    (hserved : s'.served ≤ s'.taken) (hother : ∀ t' ≠ t, s'.Fits (s.threads t')) (hth : s'.Fits th)
    (hapart : th.Active → ∀ t' ≠ t, (s.threads t').Active → (s.threads t').number ≠ th.number) :
    s'.Inv where
  nextTicket := hnext
  servingTicket := hserving
  served := hserved
  fits := by
    rw [hthreads]
    exact (forall_update_iff s.threads fun _ => s'.Fits).mpr ⟨hth, hother⟩
  apart t₁ t₂ h₁ h₂ heq := by
    rw [hthreads] at h₁ h₂ heq
    by_cases e₁ : t₁ = t <;> by_cases e₂ : t₂ = t <;>
      simp only [e₁, e₂, update_self, update_of_ne, ne_eq, not_false_eq_true] at h₁ h₂ heq ⊢
    · exact absurd heq.symm (hapart h₁ t₂ e₂ h₂)
    · exact absurd heq (hapart h₂ t₁ e₁ h₁)
    · exact h.apart t₁ t₂ h₁ h₂ heq

lemma Inv.put_idle (h : Inv s) (hth : s.Fits th) (hidle : ¬ th.Active) : (s.put t th).Inv :=
  h.put rfl h.nextTicket h.servingTicket h.served (fun t' _ => h.fits t') hth (absurd · hidle)

lemma Inv.put_take (h : Inv s) (hth : s.take.Fits th) (hnumber : th.number = s.taken) :
    (s.take.put t th).Inv := by
  refine h.put rfl ?_ h.servingTicket (h.served.trans (Nat.le_succ _))
    (fun t' _ => (h.fits t').mono rfl (Nat.le_succ _)) hth fun _ t' _ hact => ?_
  · have := h.nextTicket
    simp only [SpinLock.put, take]
    omega
  · have hfits := h.fits t'
    rw [hnumber]
    unfold Fits at hfits
    obtain hpc | ⟨_, hpc⟩ := hact <;> rw [hpc] at hfits <;> omega

/-- A ticket equal to `serving_ticket` is that of the number served. -/
lemma Inv.number_eq (h : Inv s) (hover : ∀ t, s.overlapping (s.threads t) < 2 ^ 32)
    (hpc : (s.threads t).pc = .spinning s.servingTicket) : (s.threads t).number = s.served := by
  have hserving := h.servingTicket
  have hfits := h.fits t
  have hover := hover t
  unfold Fits at hfits
  unfold overlapping at hover
  rw [hpc] at hfits hover
  simp only at hfits hover
  omega

lemma Inv.step (h : Inv s) (hall : ∀ t, s.overlapping (s.threads t) < 2 ^ 32)
    (hexec : s.exec t op = some s') : s'.Inv := by
  have hnext := h.nextTicket
  have hserving := h.servingTicket
  have hserved := h.served
  have hfits := h.fits t
  have hover := hall t
  unfold Fits at hfits
  unfold overlapping at hover
  simp only [exec] at hexec
  split at hexec <;> rename_i hpc <;> simp only [hpc] at hfits hover <;> cases hexec
  case h_1 => exact h.put_take ⟨hnext, .refl, hserved, Nat.lt_succ_self _⟩ rfl
  case h_2 myTicket =>
    split
    case isTrue heq =>
      have hnumber := h.number_eq hall (heq ▸ hpc)
      exact h.put rfl hnext hserving hserved (fun t' _ => h.fits t')
        ⟨hnumber, hnumber ▸ hfits.2.2.2⟩
        fun _ t' hne hact heq => hne (h.apart t' t hact (.inr ⟨_, hpc⟩) heq)
    · exact h
  case h_3 => exact h.put_idle trivial (by simp [SpinThread.Active])
  case h_4 => exact h.put_idle ⟨s.served, .refl, .refl, hserving⟩ (by simp [SpinThread.Active])
  case h_5 serving =>
    obtain ⟨n, hsince, hn, rfl⟩ := hfits
    split
    case isTrue heq =>
      exact h.put_idle ⟨n, hsince, hn, heq.symm⟩ (by simp [SpinThread.Active])
    · exact h.put_idle trivial (by simp [SpinThread.Active])
  case h_6 next =>
    obtain ⟨n, hsince, hn, rfl⟩ := hfits
    split
    case isTrue heq =>
      have hfree : s.taken = s.served := by omega
      exact h.put_take ⟨hfree, hfree ▸ Nat.lt_succ_self _⟩ rfl
    · exact h.put_idle trivial (by simp [SpinThread.Active])
  case h_7 =>
    refine h.put rfl hnext ?_ hfits.2 (fun t' hne => ?_) trivial (by simp [SpinThread.Active])
    · simp only
      omega
    · have hother (hact : (s.threads t').Active) : (s.threads t').number ≠ s.served :=
        fun heq => hne (h.apart t' t hact (.inl hpc) (heq.trans hfits.1.symm))
      have hold := h.fits t'
      unfold Fits at hold ⊢
      split at hold
      case h_1 ticket hpc' =>
        have := hother (.inr ⟨ticket, hpc'⟩)
        simp only [SpinLock.put]
        omega
      case h_4 hpc' => exact absurd hold.1 (hother (.inl hpc'))
      case h_2 | h_3 =>
        obtain ⟨n, hsince, hn, hticket⟩ := hold
        exact ⟨n, hsince, hn.trans (Nat.le_succ _), hticket⟩
      · trivial

lemma inv_of_run (run : Run Step create events s) :
    s.Inv ∧ ∀ t, s.overlapping (s.threads t) < 2 ^ 32 :=
  run.invariant (I := fun s => s.Inv ∧ ∀ t, s.overlapping (s.threads t) < 2 ^ 32)
    (fun _ _ _ h hstep => ⟨h.1.step h.2 hstep.1, hstep.2⟩)
    ⟨inv_create, fun _ => (by decide : 0 < 2 ^ 32)⟩

lemma Inv.exclusive (h : Inv s) (ht : (s.threads t).pc = .holding)
    (ht' : (s.threads t').pc = .holding) : t = t' := by
  have hfits := h.fits t
  have hfits' := h.fits t'
  unfold Fits at hfits hfits'
  rw [ht] at hfits
  rw [ht'] at hfits'
  exact h.apart t t' (.inl ht) (.inl ht') (hfits.1.trans hfits'.1.symm)

/-- Of the steps of `spinlock_try_acquire` only the successful one writes a counter. -/
lemma counters_of_failed (hop : op ∈ [.loadServing, .loadNext, .compareExchange])
    (hexec : s.exec t op = some s') (hfail : (s'.threads t).pc ≠ .holding) :
    s'.nextTicket = s.nextTicket ∧ s'.servingTicket = s.servingTicket := by
  simp only [exec] at hexec
  split at hexec <;> cases hexec
  case h_1 | h_2 | h_3 | h_7 => exact absurd hop (by decide)
  case h_4 | h_5 => exact ⟨rfl, rfl⟩
  case h_6 =>
    split at hfail
    · exact absurd (by simp [SpinLock.put]) hfail
    case isFalse hne => exact if_neg hne ▸ ⟨rfl, rfl⟩

/-- The lock excludes, `serving_ticket` never passes `next_ticket`, a thread leaves the loop before
all that spin with a greater number, and an attempt that fails has changed no counter. -/
theorem spinlock_correct {events : List (Nat × SpinOp)} (run : Run Step create events s) :
    (∀ t t', (s.threads t).pc = .holding → (s.threads t').pc = .holding → t = t') ∧
      (s.served ≤ s.taken ∧ s.nextTicket = s.taken % 2 ^ 32 ∧ s.servingTicket = s.served % 2 ^ 32) ∧
      (∀ t t' ticket, (s.threads t).pc = .spinning s.servingTicket →
        (s.threads t').pc = .spinning ticket → t' ≠ t →
          (s.threads t).number < (s.threads t').number) ∧
      ∀ t op s', op ∈ [.loadServing, .loadNext, .compareExchange] → s.exec t op = some s' →
        (s'.threads t).pc ≠ .holding →
          s'.nextTicket = s.nextTicket ∧ s'.servingTicket = s.servingTicket := by
  obtain ⟨h, hover⟩ := inv_of_run run
  refine ⟨fun t t' => h.exclusive, ⟨h.served, h.nextTicket, h.servingTicket⟩,
    fun t t' ticket ht ht' hne => ?_, fun t op s' => counters_of_failed⟩
  have hfits := h.fits t'
  unfold Fits at hfits
  rw [ht'] at hfits
  rw [h.number_eq hover ht]
  exact Nat.lt_of_le_of_ne hfits.2.2.1 fun heq =>
    hne (h.apart t' t (.inr ⟨ticket, ht'⟩) (.inr ⟨_, ht⟩) (heq ▸ (h.number_eq hover ht).symm))

/-- Two threads wait while a third holds the lock; the first of them enters. -/
theorem spinlock_handover :
    ∃ s, Run Step create [(1, .loadServing), (1, .loadNext), (1, .compareExchange), (2, .fetchAdd),
        (3, .fetchAdd), (3, .loadMyTurn), (1, .release), (2, .loadMyTurn)] s ∧
      (s.threads 2).pc = .holding ∧ (s.threads 3).pc ≠ .holding :=
  Run.exists_of_exec step_of_step? (P := fun s => (s.threads 2).pc = .holding) (by decide)
    fun _ run ht => ⟨ht, fun ht' => absurd ((spinlock_correct run).1 2 3 ht ht') (by decide)⟩

end SpinLock

end Singularity.Sync
