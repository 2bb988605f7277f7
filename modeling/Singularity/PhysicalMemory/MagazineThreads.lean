import Singularity.PhysicalMemory.Ownership

/-!
# Threads that share the magazines

`pmm_alloc_frame`, `pmm_free_frame` and `pmm_flush_magazines` are cut into their lock-protected
sections. Between two sections of a slow path the thread holds no lock: the phase says what it
takes for granted afterwards. Several of the threads may have read the same CPU index.
-/

namespace Singularity.PhysicalMemory

open Foundation Function Multiset

/-- Where a thread is between two sections. -/
inductive Phase where
  | idle
  /-- `pmm_alloc_frame` found the magazine empty and calls `magazine_refill`. -/
  | refill (cpu : Nat)
  /-- The refill loaded frames; the thread takes the magazine lock again to pop one. -/
  | pop (cpu : Nat)
  /-- The refill loaded nothing; the thread falls through to the `PMM` lock. -/
  | fallback
  /-- `pmm_free_frame` found the magazine full and calls `magazine_flush`. -/
  | flush (cpu frame : Nat)
  /-- The flush is done; the thread takes the magazine lock again to store the frame. -/
  | store (cpu frame : Nat)
  deriving DecidableEq

/-- The calls a thread can start, with the CPU index it read. -/
inductive Op where
  | alloc (cpu : Nat)
  | free (cpu ptr : Nat)
  | flush (cpu : Nat)
  deriving DecidableEq

/-- What a section leaves behind: the next phase of the thread, the frames it
gained and the frames it gave back. -/
structure Outcome where
  pmm : Pmm
  phase : Phase
  gained : Multiset Nat
  returned : Multiset Nat

/-- The first section of a call. -/
def firstSection (pmm : Pmm) : Op → Except Panic Outcome
  | .alloc cpu =>
    if cpu < maxCpus then
      if pmm.magazines cpu ≠ [] then do
        let (frame, pmm) ← popMagazine pmm cpu
        return ⟨pmm, .idle, framesAt (framePtr frame) 1, 0⟩
      else return ⟨pmm, .refill cpu, 0, 0⟩
    else do
      let (ptr, pmm) ← allocLocked pmm
      return ⟨pmm, .idle, framesAt ptr 1, 0⟩
  | .free cpu ptr =>
    if ptr = 0 then return ⟨pmm, .idle, 0, 0⟩
    else if cpu < maxCpus then
      if (pmm.magazines cpu).length < magazineSize then
        return ⟨pushMagazine pmm cpu (ptr / pageSize), .idle, 0, framesAt ptr 1⟩
      else return ⟨pmm, .flush cpu (ptr / pageSize), 0, 0⟩
    else do
      let state ← freeFrameLocked pmm.state ptr
      return ⟨{ pmm with state }, .idle, 0, framesAt ptr 1⟩
  | .flush cpu => do
      let pmm ← magazineFlush pmm cpu
      return ⟨pmm, .idle, 0, 0⟩

/-- The section that follows a phase. -/
def nextSection (pmm : Pmm) : Phase → Except Panic Outcome
  | .idle => return ⟨pmm, .idle, 0, 0⟩
  | .refill cpu => do
      let (loaded, pmm) ← magazineRefill pmm cpu
      return ⟨pmm, if 0 < loaded then .pop cpu else .fallback, 0, 0⟩
  | .pop cpu => do
      let (frame, pmm) ← popMagazine pmm cpu
      return ⟨pmm, .idle, framesAt (framePtr frame) 1, 0⟩
  | .fallback => do
      let (ptr, pmm) ← allocLocked pmm
      return ⟨pmm, .idle, framesAt ptr 1, 0⟩
  | .flush cpu frame => do
      let pmm ← magazineFlush pmm cpu
      return ⟨pmm, .store cpu frame, 0, 0⟩
  | .store cpu frame => return ⟨storeMagazine pmm cpu frame, .idle, 0, {frame}⟩

/-- Run the remaining sections of a call without interruption. -/
def finish : Nat → Outcome → Except Panic Outcome
  | 0, o => .ok o
  | n + 1, o =>
    if o.phase = .idle then .ok o
    else do
      let next ← nextSection o.pmm o.phase
      finish n next

lemma finish_alloc (pmm : Pmm) (cpu : Nat) :
    (firstSection pmm (.alloc cpu) >>= finish 2) =
      (fun r : Nat × Pmm => (⟨r.2, .idle, framesAt r.1 1, 0⟩ : Outcome)) <$>
        pmmAllocFrame pmm cpu := by
  dsimp only [firstSection, pmmAllocFrame]
  split
  · split
    · cases popMagazine pmm cpu <;> rfl
    change (nextSection pmm (.refill cpu) >>= finish 1) = _
    dsimp only [nextSection]
    cases magazineRefill pmm cpu with
    | error e => rfl
    | ok r =>
      change finish 1 ⟨r.2, if 0 < r.1 then .pop cpu else .fallback, 0, 0⟩ =
        (fun r : Nat × Pmm => (⟨r.2, .idle, framesAt r.1 1, 0⟩ : Outcome)) <$>
          (if 0 < r.1 then _ else _)
      split
      · change nextSection r.2 (.pop cpu) >>= finish 0 = _
        dsimp only [nextSection]
        cases popMagazine r.2 cpu <;> rfl
      · change nextSection r.2 .fallback >>= finish 0 = _
        dsimp only [nextSection]
        cases allocLocked r.2 <;> rfl
  · cases allocLocked pmm <;> rfl

lemma finish_free (pmm : Pmm) (cpu ptr : Nat) :
    Outcome.pmm <$> (firstSection pmm (.free cpu ptr) >>= finish 2) = pmmFreeFrame pmm cpu ptr := by
  dsimp only [firstSection, pmmFreeFrame]
  split
  · rfl
  split
  · split
    · rfl
    change Outcome.pmm <$> (nextSection pmm (.flush cpu (ptr / pageSize)) >>= finish 1) = _
    dsimp only [nextSection]
    cases magazineFlush pmm cpu <;> rfl
  · cases freeFrameLocked pmm.state ptr <;> rfl

/-- The manager and its threads; `owners` pairs each frame with the thread that
got it and has not given it back. -/
structure Machine (τ : Type*) where
  pmm : Pmm
  phase : τ → Phase
  owners : Multiset (τ × Nat)

/-- A thread starts a call or goes on with the one it is in. -/
inductive Event (τ : Type*) where
  | start (t : τ) (op : Op)
  | resume (t : τ)
  deriving DecidableEq

variable {τ : Type*}

def Event.thread : Event τ → τ
  | .start t _ => t
  | .resume t => t

/-- Idle threads start calls and free only frames they own; the others go on. -/
def Enabled (m : Machine τ) : Event τ → Prop
  | .start t (.free _ ptr) => m.phase t = .idle ∧ (ptr ≠ 0 → (t, ptr / pageSize) ∈ m.owners)
  | .start t _ => m.phase t = .idle
  | .resume t => m.phase t ≠ .idle

def runSection (m : Machine τ) : Event τ → Except Panic Outcome
  | .start _ op => firstSection m.pmm op
  | .resume t => nextSection m.pmm (m.phase t)

def Machine.after [DecidableEq τ] (m : Machine τ) (t : τ) (o : Outcome) : Machine τ where
  pmm := o.pmm
  phase := update m.phase t o.phase
  owners := o.gained.map (t, ·) + (m.owners - o.returned.map (t, ·))

/-- One section of one thread. -/
def ThreadStep [DecidableEq τ] (m : Machine τ) (e : Event τ) (m' : Machine τ) : Prop :=
  Enabled m e ∧ ∃ o, runSection m e = .ok o ∧ m' = m.after e.thread o

def Machine.boot (τ : Type*) (s : PmmState) : Machine τ := ⟨Pmm.boot s, fun _ => .idle, 0⟩

/-- The magazine that a phase takes to be empty. -/
def Phase.needsEmpty : Phase → Option Nat
  | .refill cpu => some cpu
  | .store cpu _ => some cpu
  | _ => none

/-- The magazine that a phase takes to hold a frame. -/
def Phase.needsFrame : Phase → Option Nat
  | .pop cpu => some cpu
  | _ => none

/-- The frame that a phase is about to give back. -/
def Phase.freeing : Phase → Option Nat
  | .flush _ frame => some frame
  | .store _ frame => some frame
  | _ => none

/-- The magazine of a phase. -/
def Phase.cpu : Phase → Option Nat
  | .refill cpu => some cpu
  | .pop cpu => some cpu
  | .flush cpu _ => some cpu
  | .store cpu _ => some cpu
  | _ => none

/-- The magazine into which a section may put frames. -/
def fills (m : Machine τ) : Event τ → Option Nat
  | .start _ (.free cpu _) => some cpu
  | .start _ _ => none
  | .resume t => (m.phase t).needsEmpty

/-- The magazine out of which a section may take frames. -/
def drains (m : Machine τ) : Event τ → Option Nat
  | .start _ (.alloc cpu) => some cpu
  | .start _ (.free _ _) => none
  | .start _ (.flush cpu) => some cpu
  | .resume t =>
    match m.phase t with
    | .pop cpu => some cpu
    | .flush cpu _ => some cpu
    | _ => none

/-- No other thread is between two sections that rely on the magazine: nothing
is put into a magazine that another thread takes to be empty, and nothing is
taken out of one from which another thread is about to pop. -/
def Undisturbed (m : Machine τ) (e : Event τ) : Prop :=
  ∀ t, t ≠ e.thread →
    (∀ cpu ∈ (m.phase t).needsEmpty, fills m e ≠ some cpu) ∧
    (∀ cpu ∈ (m.phase t).needsFrame, drains m e ≠ some cpu)

/-- The magazine counts are in range and `MAGAZINE_TOTAL` is their sum. -/
structure Tally (pmm : Pmm) : Prop where
  length_le : ∀ cpu, (pmm.magazines cpu).length ≤ magazineSize
  total_eq : pmm.magazineTotal = (parked pmm.magazines).card

lemma card_parked (magazines : Nat → List Nat) :
    (parked magazines).card = ∑ cpu ∈ Finset.range maxCpus, (magazines cpu).length := by
  simp [parked]

variable {pmm pmm' : Pmm} {cpu frame loaded ptr : Nat}

section
variable (h : Tally pmm)
include h

lemma Tally.card_lt : (parked pmm.magazines).card < 2 ^ 63 := by
  rw [card_parked]
  have hle := Finset.sum_le_card_nsmul (Finset.range maxCpus)
    (fun cpu => (pmm.magazines cpu).length) magazineSize (fun cpu _ => h.length_le cpu)
  rw [Finset.card_range] at hle
  exact hle.trans_lt (by decide)

variable (hcpu : cpu < maxCpus)
include hcpu

lemma Tally.replace (hlen : frames.length ≤ magazineSize)
    (hn : n + (pmm.magazines cpu).length = pmm.magazineTotal + frames.length) :
    Tally ⟨s, update pmm.magazines cpu frames, n⟩ := by
  constructor
  · intro c
    dsimp only
    rw [update_apply]
    split_ifs
    · exact hlen
    · exact h.length_le c
  · have hcard := congrArg Multiset.card (parked_update pmm.magazines hcpu frames)
    rw [card_add, card_add, coe_card, coe_card] at hcard
    have htot := h.total_eq
    dsimp only
    omega

lemma length_le_card : (pmm.magazines cpu).length ≤ pmm.magazineTotal := by
  have hcard := congrArg Multiset.card (parked_update pmm.magazines hcpu [])
  rw [card_add, card_add, coe_card, coe_card, List.length_nil] at hcard
  rw [h.total_eq]
  omega

lemma Tally.popMagazine (hok : popMagazine pmm cpu = .ok (frame, pmm')) : Tally pmm' := by
  have hle := length_le_card h hcpu
  have hlen := h.length_le cpu
  have hlt := h.card_lt
  have htot := h.total_eq
  unfold PhysicalMemory.popMagazine at hok
  split at hok <;> cases hok
  case h_2 last hlast =>
    have hne : pmm.magazines cpu ≠ [] := by
      intro hnil
      rw [hnil] at hlast
      cases hlast
    have hpos := List.length_pos_iff.mpr hne
    apply h.replace hcpu
    · rw [List.length_dropLast]
      omega
    · rw [List.length_dropLast, Word.sub_eq (by omega) (by omega)]
      omega

lemma Tally.pushMagazine
    (hroom : (pmm.magazines cpu).length < magazineSize) : Tally (pushMagazine pmm cpu frame) := by
  have hlt := h.card_lt
  have htot := h.total_eq
  apply h.replace hcpu
  · rwa [List.length_append, List.length_singleton]
  · rw [List.length_append, List.length_singleton, Word.add_eq (by omega)]
    omega

lemma Tally.storeMagazine
    (hempty : pmm.magazines cpu = []) : Tally (storeMagazine pmm cpu frame) := by
  have hroom : (pmm.magazines cpu).length < magazineSize := by
    rw [hempty]
    decide
  have hpush : Tally (PhysicalMemory.pushMagazine pmm cpu frame) := h.pushMagazine hcpu hroom
  unfold PhysicalMemory.pushMagazine at hpush
  rwa [hempty] at hpush

end

lemma refillSingles_length (hok : refillSingles n s frames = .ok (s', frames')) :
    frames'.length ≤ frames.length + n := by
  induction n generalizing s frames with
  | zero =>
    cases hok
    exact le_rfl
  | succ n ih =>
    obtain ⟨result, -, hok⟩ := ok_of_bind hok
    cases result with
    | none =>
      cases hok
      exact Nat.le_add_right _ _
    | some taken =>
      have hrest := ih hok
      rw [List.length_append, List.length_singleton] at hrest
      omega

lemma refillFrames_length
    (hok : refillFrames s = .ok (s', frames)) : frames.length ≤ magazineSize := by
  obtain ⟨result, -, hok⟩ := ok_of_bind hok
  cases result with
  | none => simpa using refillSingles_length hok
  | some taken =>
    cases hok
    rw [List.length_range']

lemma magazineRefill_loaded (hcpu : cpu < maxCpus)
    (hinit : pmm.state.initialized = true) (hok : magazineRefill pmm cpu = .ok (loaded, pmm')) :
    ∃ frames, frames.length = loaded ∧ loaded ≤ magazineSize ∧
      pmm'.magazines = update pmm.magazines cpu frames ∧
      pmm'.magazineTotal = Word.add pmm.magazineTotal loaded := by
  unfold magazineRefill at hok
  rw [if_neg (by omega), if_neg (by simp [hinit])] at hok
  obtain ⟨⟨mid, frames⟩, hrefill, ⟨⟩⟩ := ok_of_bind hok
  exact ⟨frames, rfl, refillFrames_length hrefill, rfl, rfl⟩

lemma Tally.magazineRefill (h : Tally pmm) (hcpu : cpu < maxCpus)
    (hinit : pmm.state.initialized = true) (hempty : pmm.magazines cpu = [])
    (hok : magazineRefill pmm cpu = .ok (loaded, pmm')) : Tally pmm' := by
  have hlt := h.card_lt
  have htot := h.total_eq
  obtain ⟨frames, hloaded, hle, hmags, hsum⟩ := magazineRefill_loaded hcpu hinit hok
  have hsz : magazineSize < 2 ^ 63 := by decide
  have hnew : Tally ⟨pmm'.state, update pmm.magazines cpu frames,
      Word.add pmm.magazineTotal loaded⟩ := by
    apply h.replace hcpu (by omega)
    rw [hempty, List.length_nil, Word.add_eq (by omega), hloaded, Nat.add_zero]
  rwa [← hmags, ← hsum] at hnew

lemma magazineFlush_magazines (hok : magazineFlush pmm cpu = .ok pmm') :
    (pmm'.magazines = pmm.magazines ∧ pmm'.magazineTotal = pmm.magazineTotal) ∨
    (cpu < maxCpus ∧ pmm'.magazines = update pmm.magazines cpu [] ∧
      pmm'.magazineTotal = Word.sub pmm.magazineTotal (pmm.magazines cpu).length) := by
  unfold magazineFlush at hok
  split at hok
  · cases hok
    exact .inl ⟨rfl, rfl⟩
  case isFalse hcpu =>
    split at hok
    · cases hok
      exact .inl ⟨rfl, rfl⟩
    · obtain ⟨mid, -, ⟨⟩⟩ := ok_of_bind hok
      exact .inr ⟨Nat.lt_of_not_le hcpu, rfl, rfl⟩

lemma Tally.magazineFlush (h : Tally pmm) (hok : magazineFlush pmm cpu = .ok pmm') :
    Tally pmm' := by
  obtain ⟨hmags, htot⟩ | ⟨hcpu, hmags, htot⟩ := magazineFlush_magazines hok
  · refine ⟨?_, ?_⟩
    · rw [hmags]
      exact h.length_le
    · rw [hmags, htot]
      exact h.total_eq
  · have hle := length_le_card h hcpu
    have hlt := h.card_lt
    have hsum := h.total_eq
    have hnew : Tally ⟨pmm'.state, update pmm.magazines cpu [],
        Word.sub pmm.magazineTotal (pmm.magazines cpu).length⟩ := by
      apply h.replace hcpu (Nat.zero_le _)
      rw [Word.sub_eq (by omega) hle, List.length_nil]
      omega
    rwa [← hmags, ← htot] at hnew

lemma allocLocked_magazines (hok : allocLocked pmm = .ok (ptr, pmm')) :
    pmm'.magazines = pmm.magazines ∧ pmm'.magazineTotal = pmm.magazineTotal := by
  unfold allocLocked at hok
  split at hok
  · cases hok
    exact ⟨rfl, rfl⟩
  · obtain ⟨⟨ptr', mid⟩, -, ⟨⟩⟩ := ok_of_bind hok
    exact ⟨rfl, rfl⟩

/-- What a thread took for granted in its last section still holds. -/
structure PhaseOk (pmm : Pmm) (owners : Multiset (τ × Nat)) (t : τ) (phase : Phase) : Prop where
  empty : ∀ cpu, phase.needsEmpty = some cpu → pmm.magazines cpu = []
  loaded : ∀ cpu, phase.needsFrame = some cpu → pmm.magazines cpu ≠ []
  cpu_lt : ∀ cpu, phase.cpu = some cpu → cpu < maxCpus
  owner : ∀ frame, phase.freeing = some frame → (t, frame) ∈ owners

lemma PhaseOk.idle (pmm : Pmm) (owners : Multiset (τ × Nat)) (t : τ) : PhaseOk pmm owners t .idle :=
  ⟨nofun, nofun, nofun, nofun⟩

/-- The invariant of the machine under undisturbed sections. -/
structure Consistent (s₀ : PmmState) (m : Machine τ) : Prop where
  accounts : Accounts s₀ m.pmm (m.owners.map Prod.snd) 0
  tally : Tally m.pmm
  phases : ∀ t, PhaseOk m.pmm m.owners t (m.phase t)

variable {s₀ : PmmState} {m m' : Machine τ}

/-- The number of places where a frame is: extents, live slots of magazines, and owners. -/
def places (m : Machine τ) (f : Nat) : Nat :=
  m.pmm.state.extents.countP (fun e => decide (Span.Within e f)) +
    (parked m.pmm.magazines).count f + (m.owners.map Prod.snd).count f

/-- Conservation after a boot that left the state `s₀`. -/
structure Conserved (s₀ : PmmState) (m : Machine τ) : Prop where
  places_eq : ∀ f, f < s₀.totalFrames → s₀.refCounts f ≠ refReserved → places m f = 1
  length_le : ∀ cpu, (m.pmm.magazines cpu).length ≤ magazineSize
  no_underflow : ∀ t cpu, m.phase t = .pop cpu → 0 < (m.pmm.magazines cpu).length
  total_eq : (∀ t, m.phase t = .idle) →
    m.pmm.magazineTotal = ∑ cpu ∈ Finset.range maxCpus, (m.pmm.magazines cpu).length

lemma Consistent.conserved (h : Consistent s₀ m) : Conserved s₀ m := by
  refine ⟨?_, h.tally.length_le, ?_, ?_⟩
  · intro f hf hres
    have hres' : m.pmm.state.refCounts f ≠ refReserved := mt (h.accounts.reserved f hf).mp hres
    have hcnt := h.accounts.counted f hf hres'
    have honce := h.accounts.once f
    have hrefs := h.accounts.books.refs f (h.accounts.books.total_eq ▸ hf)
    simp only [noFrame, or_false] at hrefs
    rw [count_add] at honce
    rw [count_zero] at hcnt
    rw [places, h.accounts.books.separated.ordered.countP_within]
    split
    case isTrue hcov =>
      rw [hrefs.mp hcov, refFree] at hcnt
      omega
    case isFalse hcov =>
      have hne : m.pmm.state.refCounts f ≠ refFree := mt hrefs.mpr hcov
      rw [refFree] at hne
      omega
  · intro t cpu hphase
    apply List.length_pos_iff.mpr
    exact (h.phases t).loaded cpu (by rw [hphase]; rfl)
  · intro _
    rw [h.tally.total_eq, card_parked]

lemma boot_consistent (hmap : mb.NonOverlapping)
    (hfit : ∀ e ∈ mb.entries, e.addr.toNat + e.len.toNat < 2 ^ 64)
    (hinit : pmmInit PmmState.static mb kernelEnd = .ok s₀) :
    Consistent s₀ (Machine.boot τ s₀) := by
  refine ⟨pmmInit_accounts hmap hfit hinit, ⟨fun _ => Nat.zero_le _, ?_⟩,
    fun t => PhaseOk.idle _ _ _⟩
  rw [card_parked]
  exact Finset.sum_const_zero.symm

variable [DecidableEq τ] {e : Event τ} {o : Outcome} {t : τ}

/-- What one section does, seen from its thread and from the others. -/
structure Sound (s₀ : PmmState) (m : Machine τ) (e : Event τ) (o : Outcome) : Prop where
  accounts : Accounts s₀ o.pmm ((m.after e.thread o).owners.map Prod.snd) 0
  tally : Tally o.pmm
  phase : PhaseOk o.pmm (m.after e.thread o).owners e.thread o.phase
  stays_empty : ∀ cpu, fills m e ≠ some cpu → m.pmm.magazines cpu = [] →
    o.pmm.magazines cpu = []
  stays_loaded : ∀ cpu, drains m e ≠ some cpu → m.pmm.magazines cpu ≠ [] →
    o.pmm.magazines cpu ≠ []

lemma after_frames (m : Machine τ) (t : τ) (o : Outcome) :
    (m.after t o).owners.map Prod.snd =
      o.gained + (m.owners - o.returned.map (t, ·)).map Prod.snd := by
  simp [Machine.after, map_map]

lemma frames_eq (h : frames.map (t, ·) ≤ m.owners) :
    m.owners.map Prod.snd = frames + (m.owners - frames.map (t, ·)).map Prod.snd := by
  conv_lhs => rw [← add_tsub_cancel_of_le h]
  simp [map_map]

lemma mem_after_owners (hne : u ≠ t) (h : (u, frame) ∈ m.owners) :
    (u, frame) ∈ (m.after t o).owners := by
  have hnot : (u, frame) ∉ o.returned.map (t, ·) := by
    intro hmem
    obtain ⟨f, -, hf⟩ := mem_map.mp hmem
    exact hne (congrArg Prod.fst hf).symm
  apply mem_add.mpr
  right
  rw [← one_le_count_iff_mem, count_sub, count_eq_zero.mpr hnot]
  exact one_le_count_iff_mem.mpr h

lemma Sound.consistent (hsound : Sound s₀ m e o) (h : Consistent s₀ m)
    (hcond : Undisturbed m e) : Consistent s₀ (m.after e.thread o) := by
  refine ⟨hsound.accounts, hsound.tally, ?_⟩
  intro u
  by_cases hu : u = e.thread
  · subst hu
    simpa [Machine.after] using hsound.phase
  have hphase : (m.after e.thread o).phase u = m.phase u := update_of_ne hu _ _
  have hold := h.phases u
  rw [hphase]
  refine ⟨?_, ?_, hold.cpu_lt, fun f hf => mem_after_owners hu (hold.owner f hf)⟩
  · intro cpu hcpu
    exact hsound.stays_empty cpu ((hcond u hu).1 cpu hcpu) (hold.empty cpu hcpu)
  · intro cpu hcpu
    exact hsound.stays_loaded cpu ((hcond u hu).2 cpu hcpu) (hold.loaded cpu hcpu)

lemma popMagazine_magazines (hok : popMagazine pmm cpu = .ok (frame, pmm')) :
    pmm'.magazines = update pmm.magazines cpu (pmm.magazines cpu).dropLast := by
  unfold popMagazine at hok
  split at hok <;> cases hok
  · rfl

section
variable (hacc : Accounts s₀ o.pmm ((m.after e.thread o).owners.map Prod.snd) 0)
  (hphase : PhaseOk o.pmm (m.after e.thread o).owners e.thread o.phase)
include hacc hphase

/-- A section that ends the call and touches at most one magazine, which is not
one that another thread relies on. -/
lemma sound_of_update (htally : Tally o.pmm)
    (hmags : o.pmm.magazines = update m.pmm.magazines cpu frames)
    (hfills : fills m e ≠ some cpu → m.pmm.magazines cpu = [] → frames = [])
    (hdrains : drains m e ≠ some cpu → m.pmm.magazines cpu ≠ [] → frames ≠ []) :
    Sound s₀ m e o := by
  refine ⟨hacc, htally, hphase, ?_, ?_⟩
  · intro c hc hempty
    rw [hmags, update_apply]
    split_ifs with heq
    · subst heq
      exact hfills hc hempty
    · exact hempty
  · intro c hc hloaded
    rw [hmags, update_apply]
    split_ifs with heq
    · subst heq
      exact hdrains hc hloaded
    · exact hloaded

lemma sound_of_same (htally : Tally m.pmm) (hmags : o.pmm.magazines = m.pmm.magazines)
    (htot : o.pmm.magazineTotal = m.pmm.magazineTotal) : Sound s₀ m e o := by
  refine ⟨hacc, ⟨?_, ?_⟩, hphase, ?_, ?_⟩
  · rw [hmags]
    exact htally.length_le
  · rw [hmags, htot]
    exact htally.total_eq
  · rw [hmags]
    exact fun _ _ hempty => hempty
  · rw [hmags]
    exact fun _ _ hloaded => hloaded

end

section
variable (h : Consistent s₀ m)
include h

lemma pop_sound (hcpu : cpu < maxCpus) (hloaded : m.pmm.magazines cpu ≠ [])
    (hdrains : drains m e = some cpu) (hok : popMagazine m.pmm cpu = .ok (frame, pmm')) :
    Sound s₀ m e ⟨pmm', .idle, framesAt (framePtr frame) 1, 0⟩ := by
  have hgranted := (h.accounts.popMagazine_granted hcpu hok).1
  apply sound_of_update _ (PhaseOk.idle _ _ _) (h.tally.popMagazine hcpu hok)
    (popMagazine_magazines hok)
  · exact fun _ hempty => absurd hempty hloaded
  · exact fun hno => absurd hdrains hno
  · rw [after_frames]
    simpa using hgranted

/-- The allocation of a section under the `PMM` lock. -/
lemma allocLocked_sound (hok : allocLocked m.pmm = .ok (ptr, pmm')) :
    Sound s₀ m e ⟨pmm', .idle, framesAt ptr 1, 0⟩ := by
  have hgranted := (h.accounts.allocLocked hok).1
  obtain ⟨hmags, htot⟩ := allocLocked_magazines hok
  apply sound_of_same _ (PhaseOk.idle _ _ _) h.tally hmags htot
  rw [after_frames]
  simpa using hgranted

lemma flush_sound (hdrains : drains m e = some cpu)
    (hphase : PhaseOk pmm' m.owners e.thread phase) (hok : magazineFlush m.pmm cpu = .ok pmm') :
    Sound s₀ m e ⟨pmm', phase, 0, 0⟩ := by
  have howners : (m.after e.thread ⟨pmm', phase, 0, 0⟩).owners = m.owners := by
    simp [Machine.after]
  have hacc : Accounts s₀ pmm'
      ((m.after e.thread ⟨pmm', phase, 0, 0⟩).owners.map Prod.snd) 0 := by
    rw [howners]
    exact h.accounts.magazineFlush hok
  rw [← howners] at hphase
  obtain ⟨hmags, htot⟩ | ⟨hcpu, hmags, htot⟩ := magazineFlush_magazines hok
  · exact sound_of_same hacc hphase h.tally hmags htot
  · apply sound_of_update hacc hphase (h.tally.magazineFlush hok) hmags
    · exact fun _ _ => rfl
    · exact fun hno => absurd hdrains hno

lemma firstSection_sound {op : Op} (henabled : Enabled m (.start t op))
    (hok : firstSection m.pmm op = .ok o) : Sound s₀ m (.start t op) o := by
  cases op with
  | alloc cpu =>
    dsimp only [firstSection] at hok
    split at hok
    case isTrue hcpu =>
      split at hok
      case isTrue hloaded =>
        obtain ⟨⟨frame, pmm'⟩, hpop, ⟨⟩⟩ := ok_of_bind hok
        exact pop_sound h hcpu hloaded rfl hpop
      case isFalse hempty =>
        cases hok
        apply sound_of_same _ _ h.tally rfl rfl
        · rw [after_frames]
          simpa using h.accounts
        refine ⟨?_, nofun, ?_, nofun⟩
        · rintro c ⟨⟩
          exact not_not.mp hempty
        · rintro c ⟨⟩
          exact hcpu
    · obtain ⟨⟨ptr, pmm'⟩, halloc, ⟨⟩⟩ := ok_of_bind hok
      exact allocLocked_sound h halloc
  | free cpu ptr =>
    obtain ⟨-, howner⟩ := henabled
    dsimp only [firstSection] at hok
    split at hok
    · cases hok
      apply sound_of_same _ (PhaseOk.idle _ _ _) h.tally rfl rfl
      rw [after_frames]
      simpa using h.accounts
    case isFalse hptr =>
      have hret : (framesAt ptr 1).map (t, ·) ≤ m.owners := by
        rw [framesAt_one hptr, map_singleton, singleton_le]
        exact howner hptr
      have hacc := h.accounts
      rw [frames_eq hret] at hacc
      split at hok
      case isTrue hcpu =>
        split at hok <;> cases hok
        case isTrue hroom =>
          apply sound_of_update _ (PhaseOk.idle _ _ _) (h.tally.pushMagazine hcpu hroom) rfl
          · exact fun hno => absurd rfl hno
          · exact fun _ _ => List.append_ne_nil_of_right_ne_nil _ (List.cons_ne_nil _ _)
          rw [after_frames]
          apply Accounts.pushMagazine _ hcpu (notMem_zero _)
          rwa [← singleton_add, ← framesAt_one hptr, zero_add]
        case isFalse hfull =>
          apply sound_of_same _ _ h.tally rfl rfl
          · rw [after_frames]
            simpa using h.accounts
          refine ⟨nofun, nofun, ?_, ?_⟩
          · rintro c ⟨⟩
            exact hcpu
          · rintro f ⟨⟩
            simpa [Machine.after, Event.thread] using howner hptr
      · obtain ⟨s, hfree, ⟨⟩⟩ := ok_of_bind hok
        apply sound_of_same _ (PhaseOk.idle _ _ _) h.tally rfl rfl
        rw [after_frames, zero_add]
        apply Ledger.freeFrameLocked _ hptr hfree
        rwa [← singleton_add, ← framesAt_one hptr]
  | flush cpu =>
    obtain ⟨pmm', hflush, ⟨⟩⟩ := ok_of_bind hok
    exact flush_sound h rfl (PhaseOk.idle _ _ _) hflush

lemma nextSection_sound
    (hok : nextSection m.pmm (m.phase t) = .ok o) : Sound s₀ m (.resume t) o := by
  have hphase := h.phases t
  cases hp : m.phase t <;> rw [hp] at hok hphase
  case idle =>
    cases hok
    apply sound_of_same _ (PhaseOk.idle _ _ _) h.tally rfl rfl
    rw [after_frames]
    simpa using h.accounts
  case refill cpu =>
    obtain ⟨⟨loaded, pmm'⟩, hrefill, ⟨⟩⟩ := ok_of_bind hok
    have hcpu := hphase.cpu_lt cpu rfl
    have hempty := hphase.empty cpu rfl
    have hinit := h.accounts.initialized
    obtain ⟨frames, hloaded, -, hmags, -⟩ := magazineRefill_loaded hcpu hinit hrefill
    apply sound_of_update _ _ (h.tally.magazineRefill hcpu hinit hempty hrefill) hmags
    · exact fun hno => absurd (by rw [fills, hp]; rfl) hno
    · exact fun _ hno => absurd hempty hno
    · rw [after_frames]
      simpa using h.accounts.magazineRefill hempty hrefill
    split_ifs with hpos
    · refine ⟨nofun, ?_, ?_, nofun⟩
      · rintro c ⟨⟩
        rw [hmags, update_self]
        exact List.ne_nil_of_length_pos (hloaded ▸ hpos)
      · rintro c ⟨⟩
        exact hcpu
    · exact ⟨nofun, nofun, nofun, nofun⟩
  case pop cpu =>
    obtain ⟨⟨frame, pmm'⟩, hpop, ⟨⟩⟩ := ok_of_bind hok
    exact pop_sound h (hphase.cpu_lt cpu rfl) (hphase.loaded cpu rfl)
      (by rw [drains, hp]) hpop
  case fallback =>
    obtain ⟨⟨ptr, pmm'⟩, halloc, ⟨⟩⟩ := ok_of_bind hok
    exact allocLocked_sound h halloc
  case flush cpu frame =>
    obtain ⟨pmm', hflush, ⟨⟩⟩ := ok_of_bind hok
    have hcpu := hphase.cpu_lt cpu rfl
    refine flush_sound h (by rw [drains, hp]) ⟨?_, nofun, ?_, ?_⟩ hflush
    · rintro c ⟨⟩
      exact magazineFlush_empty hcpu hflush
    · rintro c ⟨⟩
      exact hcpu
    · rintro f ⟨⟩
      exact hphase.owner frame rfl
  case store cpu frame =>
    cases hok
    have hcpu := hphase.cpu_lt cpu rfl
    have hempty := hphase.empty cpu rfl
    have hret : ({frame} : Multiset Nat).map (t, ·) ≤ m.owners := by
      rw [map_singleton, singleton_le]
      exact hphase.owner frame rfl
    have hacc := h.accounts
    rw [frames_eq hret] at hacc
    apply sound_of_update _ (PhaseOk.idle _ _ _) (h.tally.storeMagazine hcpu hempty) rfl
    · exact fun hno => absurd (by rw [fills, hp]; rfl) hno
    · exact fun _ hno => absurd hempty hno
    rw [after_frames]
    apply Accounts.storeMagazine _ hcpu (notMem_zero _) hempty
    rwa [← singleton_add, zero_add]

end

/-- One undisturbed section of one thread. -/
def UndisturbedStep (m : Machine τ) (e : Event τ) (m' : Machine τ) : Prop :=
  Undisturbed m e ∧ ThreadStep m e m'

lemma undisturbedStep_consistent (h : Consistent s₀ m) (hstep : UndisturbedStep m e m') :
    Consistent s₀ m' := by
  obtain ⟨hcond, henabled, o, hok, rfl⟩ := hstep
  cases e with
  | start t op => exact (firstSection_sound h henabled hok).consistent h hcond
  | resume t => exact (nextSection_sound h hok).consistent h hcond

instance (m : Machine τ) : (e : Event τ) → Decidable (Enabled m e)
  | .start _ (.alloc _) => inferInstanceAs (Decidable (_ = _))
  | .start _ (.free _ _) => inferInstanceAs (Decidable (_ ∧ _))
  | .start _ (.flush _) => inferInstanceAs (Decidable (_ = _))
  | .resume _ => inferInstanceAs (Decidable (¬ _ = _))

/-- The step relation as a partial function. -/
def threadStep? (m : Machine τ) (e : Event τ) : Option (Machine τ) :=
  if Enabled m e then (runSection m e).toOption.map fun o => m.after e.thread o else none

lemma threadStep_of_threadStep? (h : threadStep? m e = some m') : ThreadStep m e m' := by
  obtain ⟨henabled, h⟩ := then_of_ite h
  obtain ⟨o, hok, rfl⟩ := Option.map_eq_some_iff.mp h
  exact ⟨henabled, o, ok_of_toOption hok, rfl⟩

instance [Fintype τ] (m : Machine τ) (e : Event τ) : Decidable (Undisturbed m e) :=
  inferInstanceAs (Decidable (∀ t, t ≠ e.thread → _ ∧ _))

def undisturbedStep? [Fintype τ] (m : Machine τ) (e : Event τ) : Option (Machine τ) :=
  if Undisturbed m e then threadStep? m e else none

lemma undisturbedStep_of_undisturbedStep? [Fintype τ] (h : undisturbedStep? m e = some m') :
    UndisturbedStep m e m' := by
  obtain ⟨hcond, h⟩ := then_of_ite h
  exact ⟨hcond, threadStep_of_threadStep? h⟩

/-- In every interleaving of undisturbed sections, from a boot on a memory map
without overlaps below the end of the address space, no frame is lost or
duplicated and the counts are right. -/
theorem conserved_run {mb : MultibootInfo} {kernelEnd : UInt64} {events : List (Event τ)}
    (hmap : mb.NonOverlapping) (hfit : ∀ e ∈ mb.entries, e.addr.toNat + e.len.toNat < 2 ^ 64)
    (hinit : pmmInit PmmState.static mb kernelEnd = .ok s₀)
    (hrun : Run UndisturbedStep (Machine.boot τ s₀) events m) : Conserved s₀ m := by
  have hconsistent : Consistent s₀ m :=
    hrun.invariant (fun _ _ _ h hstep => undisturbedStep_consistent h hstep)
      (boot_consistent hmap hfit hinit)
  exact hconsistent.conserved

/-- Two threads whose slow paths overlap on the magazines of two CPUs; then one
of them frees its frame and the other flushes the magazine it went to. -/
def pairEvents : List (Event Bool) :=
  [.start false (.alloc 0), .start true (.alloc 1), .resume false, .resume true, .resume true,
    .resume false, .start false (.free 1 0x220000), .start true (.flush 1)]

theorem conserved_run_pair :
    ∃ s₀ m, pmmInit PmmState.static smallMachine 0x200000 = .ok s₀ ∧
      Run UndisturbedStep (Machine.boot Bool s₀) pairEvents m ∧ Conserved s₀ m := by
  have hsome : ((pmmInit PmmState.static smallMachine 0x200000).toOption.bind fun s₀ =>
      Run.exec undisturbedStep? (Machine.boot Bool s₀) pairEvents).isSome = true := by
    decide +kernel
  obtain ⟨m, hm⟩ := Option.isSome_iff_exists.mp hsome
  obtain ⟨s₀, hinit, hexec⟩ := Option.bind_eq_some_iff.mp hm
  have hinit := ok_of_toOption hinit
  have hrun := Run.of_exec (fun _ _ _ => undisturbedStep_of_undisturbedStep?) hexec
  exact ⟨s₀, m, hinit, hrun, conserved_run smallMachine_nonOverlapping (by decide) hinit hrun⟩

/-- Two threads on CPU 0 both find the magazine empty; the second refill
overwrites the frames that the first one loaded. -/
def racingEvents : List (Event Bool) :=
  [.start false (.alloc 0), .start true (.alloc 0), .resume false, .resume false,
    .resume true, .resume true]

theorem refill_race_loses_frames :
    ∃ s₀ m, pmmInit PmmState.static smallMachine 0x200000 = .ok s₀ ∧
      Run ThreadStep (Machine.boot Bool s₀) racingEvents m ∧ (∀ t, m.phase t = .idle) ∧
      0x201 < s₀.totalFrames ∧ s₀.refCounts 0x201 ≠ refReserved ∧ places m 0x201 = 0 ∧
      m.pmm.magazineTotal = 62 ∧
      ∑ cpu ∈ Finset.range maxCpus, (m.pmm.magazines cpu).length = 31 := by
  have hsome : ((pmmInit PmmState.static smallMachine 0x200000).toOption.bind fun s₀ =>
      (Run.exec threadStep? (Machine.boot Bool s₀) racingEvents).map fun m =>
      decide ((∀ t, m.phase t = .idle) ∧
        0x201 < s₀.totalFrames ∧ s₀.refCounts 0x201 ≠ refReserved ∧ places m 0x201 = 0 ∧
        m.pmm.magazineTotal = 62 ∧
        ∑ cpu ∈ Finset.range maxCpus, (m.pmm.magazines cpu).length = 31)) = some true := by
    decide +kernel
  obtain ⟨s₀, hinit, hsome⟩ := Option.bind_eq_some_iff.mp hsome
  obtain ⟨m, hexec, hfacts⟩ := Option.map_eq_some_iff.mp hsome
  exact ⟨s₀, m, ok_of_toOption hinit,
    Run.of_exec (fun _ _ _ => threadStep_of_threadStep?) hexec, of_decide_eq_true hfacts⟩

end Singularity.PhysicalMemory
