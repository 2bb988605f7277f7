import Singularity.ObjectManager.Syscalls
import Singularity.Process.Parking

/-!
# Threads at a port

The packets of a port are nodes of one linked queue. `KPort::queue` fills its node before it takes
the lock, and `KPort::wait` frees the node that it took after it has released the lock; in between
the node belongs to one thread. The steps are these parts, the sections under the lock and the
wakeups. The logs record the packets that were queued and those that waits have removed.
-/

namespace Singularity.ObjectManager

open Foundation Process Function List

structure KomPortPacket where
  key : BitVec 64
  type : BitVec 32
  status : BitVec 32
  deriving DecidableEq

/-- What the last call of a thread has returned. -/
inductive PortOutcome where
  | none
  | queued (status : KomStatus)
  | refused
  | received (packet : KomPortPacket)
  deriving DecidableEq

/-- `queuing` is before the section of `queue`, `freeing` behind the one of `wait`. -/
inductive PortRole where
  | outside (last : PortOutcome)
  | queuing (packet : KomPortPacket) (node : Nat)
  | freeing (packet : KomPortPacket) (node : Nat)
  deriving DecidableEq

abbrev PortPc : Type := Pc PortRole Unit Unit

/-- The nodes by their addresses, the ends of the queue, the threads and the logs. -/
structure KPort where
  allocated : Nat → Bool
  packet : Nat → KomPortPacket
  next : Nat → Nat
  ends : Ends
  parking : Parking PortRole Unit Unit
  inserted : List KomPortPacket
  removed : List KomPortPacket

/-- The packet of `prepare` and the target of `wait` may be null; node 0 is a failed allocation. -/
inductive PortEvent where
  | prepare (t : Nat) (packet : Option KomPortPacket) (node : Nat)
  | queue (t : Nat)
  | wait (t : Nat) (target : Bool)
  | free (t : Nat)
  | wake (t : Nat)
  deriving DecidableEq

namespace KPort

def create : KPort where
  allocated _ := false
  packet _ := ⟨0, 0, 0⟩
  next _ := 0
  ends := .empty
  parking := .boot (.outside .none)
  inserted := []
  removed := []

/-- The thread is in no call. -/
def Outside : PortPc → Prop
  | .run (.outside _) => True
  | _ => False

instance : (pc : PortPc) → Decidable (Outside pc)
  | .run (.outside _) => isTrue trivial
  | .run (.queuing ..) => isFalse id
  | .run (.freeing ..) => isFalse id
  | .waiting _ => isFalse id
  | .woken _ => isFalse id
  | .waking .. => isFalse id

/-- Calls begin outside of calls, or a wait was woken. `kmalloc` returns a free address. -/
def Allowed (p : KPort) : PortEvent → Prop
  | .prepare t _ node => Outside (p.parking.pc t) ∧ p.allocated node = false
  | .queue _ => True
  | .wait t target =>
    t ≠ 0 ∧ (Outside (p.parking.pc t) ∨ p.parking.pc t = .woken () ∧ target = true)
  | .free _ => True
  | .wake t => p.parking.Waking t

instance (p : KPort) : (e : PortEvent) → Decidable (p.Allowed e)
  | .prepare .. => inferInstanceAs (Decidable (_ ∧ _))
  | .queue _ => isTrue trivial
  | .wait .. => inferInstanceAs (Decidable (_ ∧ _))
  | .free _ => isTrue trivial
  | .wake t => inferInstanceAs (Decidable (p.parking.Waking t))

/-- The thread returns. -/
def returns (p : KPort) (t : Nat) (outcome : PortOutcome) : KPort :=
  { p with parking := p.parking.goOn t (.outside outcome) }

def exec (rounds : Nat) (p : KPort) : PortEvent → Option KPort
  | .prepare t none _ => some (p.returns t (.queued .invalidType))
  | .prepare t (some packet) node =>
    if node = 0 then some (p.returns t (.queued .noMemory))
    else
      some { p with
        allocated := update p.allocated node true
        packet := update p.packet node packet
        next := update p.next node 0
        parking := p.parking.goOn t (.queuing packet node) }
  | .queue t =>
    match p.parking.pc t with
    | .run (.queuing packet node) =>
      let appended := p.ends.append p.next node
      (p.parking.pop rounds t () (.outside (.queued .ok))).map fun popped =>
        { p with
          next := appended.1
          ends := appended.2
          parking := popped.2
          inserted := p.inserted ++ [packet] }
    | _ => none
  | .wait t target =>
    if !target then some (p.returns t .refused)
    else
      let node := p.ends.head
      if node ≠ 0 then
        some { p with
          ends := p.ends.rest p.next
          parking := p.parking.goOn t (.freeing (p.packet node) node)
          removed := p.removed ++ [p.packet node] }
      else some { p with parking := p.parking.park t () () }
  | .free t =>
    match p.parking.pc t with
    | .run (.freeing packet node) =>
      some { p.returns t (.received packet) with
        allocated := update p.allocated node false }
    | _ => none
  | .wake t => some { p with parking := p.parking.wake t }

def Step (p : KPort) (e : PortEvent) (p' : KPort) : Prop :=
  p.Allowed e ∧ ∃ rounds, p.exec rounds e = some p'

/-- Waits have removed the first packets that were queued, in their order. If a thread is blocked
in the wait queue, there are at most as many packets as threads that were popped from it and have
not retried. -/
structure Delivers (p : KPort) : Prop where
  order : p.removed <+: p.inserted
  awake : ∃ nodes popped, p.ends.Holds p.next nodes ∧
    (∀ t, t ∈ (popped : Finset Nat) ↔ p.parking.Recalled (fun _ => ()) () t) ∧
    ((∃ t, p.parking.Queued () t) → nodes.length ≤ popped.card)

/-- What the thread does, or goes on with after a wakeup. -/
def role : PortPc → Option PortRole
  | .run role => some role
  | .waking _ _ role => some role
  | _ => none

/-- The node that belongs to the thread. -/
def node (pc : PortPc) : Option Nat :=
  match role pc with
  | some (.queuing _ node) => some node
  | some (.freeing _ node) => some node
  | _ => none

/-- The nodes of `l` are queued and the others belong to one thread each; the node of a thread that
is queuing holds its packet. -/
structure Nodes (p : KPort) (l : List Nat) : Prop where
  holds : p.ends.Holds p.next l
  logged : p.removed ++ l.map p.packet = p.inserted
  live : ∀ a ∈ l, p.allocated a = true
  mine : ∀ t a, node (p.parking.pc t) = some a → a ≠ 0 ∧ p.allocated a = true ∧ a ∉ l
  once : ∀ t t' a, node (p.parking.pc t) = some a → node (p.parking.pc t') = some a → t = t'
  filled : ∀ t packet a, role (p.parking.pc t) = some (.queuing packet a) → p.packet a = packet

/-- The threads of `w` are blocked and `k` others are on their way. -/
structure Inv (p : KPort) (l w : List Nat) (k : Nat) : Prop where
  nodes : p.Nodes l
  parked : Parking.Parked (fun _ => ()) p.parking (fun _ => w)
  census : Census (Parking.OnWay (fun _ => ()) ()) p.parking.pc k
  awake : w ≠ [] → l.length ≤ k

variable {p p' : KPort} {l l' w : List Nat} {k t : Nat} {pc : PortPc}
  {parking : Parking PortRole Unit Unit}

lemma Inv.create : create.Inv [] [] 0 where
  nodes := ⟨Ends.holds_empty _, rfl, fun _ h => (not_mem_nil h).elim,
    fun _ _ h => (by cases h), fun _ _ _ h => (by cases h), fun _ _ _ h => (by cases h)⟩
  parked := Parking.Parked.boot _
  census := Census.zero fun _ => id
  awake h := absurd rfl h

lemma Outside.not_waiting (h : Outside pc) (why : Unit) : pc ≠ .waiting why := by
  rintro rfl
  exact h

/-- The thread is not on its way to a packet. -/
def Settled (pc : PortPc) : Prop := ¬Parking.OnWay (fun _ => ()) () pc

lemma Outside.settled (h : Outside pc) : Settled pc := by
  intro hway
  match pc with
  | .run _ => exact hway
  | .waiting _ => exact h
  | .woken _ => exact h
  | .waking .. => exact h

/-- One thread does something else; what it has to itself is not queued and belongs to no other
thread, and the nodes of the others are not touched. -/
lemma Nodes.set (hp : p.Nodes l) (hpc : p'.parking.pc = update p.parking.pc t pc)
    (hholds : p'.ends.Holds p'.next l') (hlogged : p'.removed ++ l'.map p'.packet = p'.inserted)
    (hlive : ∀ a ∈ l', p'.allocated a = true)
    (hmine : ∀ a, node pc = some a → a ≠ 0 ∧ p'.allocated a = true ∧ a ∉ l' ∧ ∀ t' ≠ t,
      node (p.parking.pc t') ≠ some a)
    (hothers : ∀ t' ≠ t, ∀ a, node (p.parking.pc t') = some a → p'.allocated a = true ∧ a ∉ l' ∧
      p'.packet a = p.packet a)
    (hfilled : ∀ packet a, role pc = some (.queuing packet a) → p'.packet a = packet) :
    p'.Nodes l' := by
  have hcase (t' : Nat) : t' = t ∧ p'.parking.pc t' = pc ∨
      t' ≠ t ∧ p'.parking.pc t' = p.parking.pc t' := by
    rw [hpc]
    by_cases heq : t' = t
    · exact .inl ⟨heq, by rw [heq, update_self]⟩
    · exact .inr ⟨heq, update_of_ne heq ..⟩
  refine ⟨hholds, hlogged, hlive, fun t' a h => ?_, fun t1 t2 a h1 h2 => ?_,
    fun t' packet a h => ?_⟩
  · obtain ⟨-, hself⟩ | ⟨hne, hold⟩ := hcase t'
    · rw [hself] at h
      obtain ⟨h0, halloc, hfree, -⟩ := hmine a h
      exact ⟨h0, halloc, hfree⟩
    · rw [hold] at h
      obtain ⟨halloc, hfree, -⟩ := hothers t' hne a h
      exact ⟨(hp.mine t' a h).1, halloc, hfree⟩
  · rcases hcase t1 with ⟨rfl, hself1⟩ | ⟨hne1, hold1⟩ <;>
      obtain ⟨heq2, hself2⟩ | ⟨hne2, hold2⟩ := hcase t2
    · exact heq2.symm
    · rw [hself1] at h1
      rw [hold2] at h2
      exact absurd h2 ((hmine a h1).2.2.2 t2 hne2)
    · rw [hold1] at h1
      rw [hself2] at h2
      exact absurd h1 ((hmine a h2).2.2.2 t1 hne1)
    · rw [hold1] at h1
      rw [hold2] at h2
      exact hp.once t1 t2 a h1 h2
  · obtain ⟨-, hself⟩ | ⟨hne, hold⟩ := hcase t'
    · rw [hself] at h
      exact hfilled packet a h
    · rw [hold] at h
      rw [(hothers t' hne a (by rw [node, h])).2.2]
      exact hp.filled t' packet a h

lemma Nodes.quiet {allocated : Nat → Bool}
    (hp : p.Nodes l) (hpc : parking.pc = update p.parking.pc t pc) (hnone : node pc = none)
    (halloc : ∀ a, node (p.parking.pc t) ≠ some a → allocated a = p.allocated a) :
    KPort.Nodes { p with parking, allocated } l := by
  apply hp.set hpc
  · exact hp.holds
  · exact hp.logged
  · intro a ha
    exact (halloc a fun h => (hp.mine t a h).2.2 ha).trans (hp.live a ha)
  · intro a h
    rw [hnone] at h
    cases h
  · intro t' hne a h
    obtain ⟨-, hallocated, hfree⟩ := hp.mine t' a h
    exact ⟨(halloc a fun h' => hne (hp.once t' t a h h')).trans hallocated, hfree, rfl⟩
  · intro packet a h
    rw [node, h] at hnone
    cases hnone

lemma Nodes.wake (hp : p.Nodes l) (hrole : ∀ t, role (parking.pc t) = role (p.parking.pc t)) :
    KPort.Nodes { p with parking := parking } l := by
  have hnode (t : Nat) : node (parking.pc t) = node (p.parking.pc t) := by
    rw [node, node, hrole t]
  refine ⟨hp.holds, hp.logged, hp.live, fun t a h => ?_, fun t t' a h h' => ?_,
    fun t packet a h => ?_⟩
  · exact hp.mine t a ((hnode t).symm.trans h)
  · exact hp.once t t' a ((hnode t).symm.trans h) ((hnode t').symm.trans h')
  · exact hp.filled t packet a ((hrole t).symm.trans h)

section
variable (hp : p.Inv l w k)
include hp

lemma Inv.settled (hnodes : p'.Nodes l)
    (hpc : p'.parking.pc = update p.parking.pc t pc) (hold : Settled (p.parking.pc t))
    (hnew : Settled pc) (hpark : Parking.Parked (fun _ => ()) p'.parking fun _ => w) :
    p'.Inv l w k where
  nodes := hnodes
  parked := hpark
  census := by
    rw [hpc]
    exact hp.census.stay (iff_of_false hnew hold)
  awake := hp.awake

lemma Inv.returns (ht : Outside (p.parking.pc t)) (outcome : PortOutcome) :
    (p.returns t outcome).Inv l w k :=
  hp.settled (hp.nodes.quiet rfl rfl fun _ _ => rfl) rfl ht.settled
    (fun h => h) (hp.parked.goOn ht.not_waiting)

variable {rounds : Nat}

lemma Inv.prepare {node : Nat} {packet : Option KomPortPacket}
    (hallow : p.Allowed (.prepare t packet node))
    (hexec : p.exec rounds (.prepare t packet node) = some p') : p'.Inv l w k := by
  obtain ⟨ht, hfree⟩ := hallow
  cases packet with
  | none =>
    cases hexec
    exact hp.returns ht _
  | some packet =>
    simp only [exec] at hexec
    split at hexec
    · cases hexec
      exact hp.returns ht _
    case isFalse hne =>
      cases hexec
      have hqueued : node ∉ l := fun hmem => by
        rw [hp.nodes.live node hmem] at hfree
        cases hfree
      have hother {t' a : Nat} (h : KPort.node (p.parking.pc t') = some a) : a ≠ node := by
        rintro rfl
        rw [(hp.nodes.mine t' a h).2.1] at hfree
        cases hfree
      have hold {a : Nat} (ha : a ∈ l) : a ≠ node := fun heq => hqueued (heq ▸ ha)
      refine hp.settled (hp.nodes.set rfl ?_ ?_ ?_ ?_ ?_ ?_) rfl ht.settled (fun h => h)
        (hp.parked.goOn ht.not_waiting)
      · exact hp.nodes.holds.congr fun a ha => update_of_ne (hold ha) ..
      · rw [← hp.nodes.logged]
        congr 1
        exact map_congr_left fun a ha => update_of_ne (hold ha) ..
      · intro a ha
        exact (update_of_ne (hold ha) ..).trans (hp.nodes.live a ha)
      · rintro a ⟨⟩
        exact ⟨hne, update_self .., hqueued, fun t' _ h => hother h rfl⟩
      · intro t' _ a h
        obtain ⟨-, halloc, hnot⟩ := hp.nodes.mine t' a h
        exact ⟨(update_of_ne (hother h) ..).trans halloc, hnot, update_of_ne (hother h) ..⟩
      · rintro packet' a ⟨⟩
        exact update_self ..

lemma Inv.queue (hexec : p.exec rounds (.queue t) = some p') : ∃ l' w' k', p'.Inv l' w' k' := by
  simp only [exec] at hexec
  split at hexec
  case h_2 => cases hexec
  case h_1 packet a ht =>
    have hnot (why : Unit) : p.parking.pc t ≠ .waiting why := by simp [ht]
    have hmine : node (p.parking.pc t) = some a := by rw [ht]; rfl
    have hsettled : Settled (p.parking.pc t) := by
      rw [ht]
      exact fun h => h
    obtain ⟨hne, halloc, hfree⟩ := hp.nodes.mine t a hmine
    have hpacket : p.packet a = packet := hp.nodes.filled t packet a (by rw [ht]; rfl)
    obtain ⟨⟨r, parking⟩, hpop, rfl⟩ := Option.map_eq_some_iff.mp hexec
    obtain ⟨hr, hpark, -, hpc⟩ := hp.parked.pop hnot hpop
    have hnodes : KPort.Nodes { p with
        next := (p.ends.append p.next a).1, ends := (p.ends.append p.next a).2,
        parking := parking, inserted := p.inserted ++ [packet] } (l ++ [a]) := by
      apply hp.nodes.set hpc
      · exact hp.nodes.holds.append hne hfree
      · rw [map_append, ← append_assoc, hp.nodes.logged, map_singleton, hpacket]
      · intro x hx
        obtain hx | hx := mem_append.mp hx
        · exact hp.nodes.live x hx
        · rwa [mem_singleton.mp hx]
      · intro x h
        split at h <;> cases h
      · intro t' hne' x h
        obtain ⟨-, halloc', hfree'⟩ := hp.nodes.mine t' x h
        refine ⟨halloc', fun hmem => ?_, rfl⟩
        obtain hmem | hmem := mem_append.mp hmem
        · exact hfree' hmem
        · rw [mem_singleton.mp hmem] at h
          exact hne' (hp.nodes.once t' t a h hmine)
      · intro packet' x h
        split at h <;> cases h
    have hupdate : update (fun _ : Unit => w) ()
        (w.dropWhile p.parking.tasks.gone).tail =
        fun _ => (w.dropWhile p.parking.tasks.gone).tail := by
      funext q
      exact update_self ..
    rw [hupdate] at hpark
    by_cases h0 : r.task = 0
    · -- nobody is left in the wait queue
      rw [if_pos h0] at hpc
      refine ⟨_, _, k, hnodes, hpark, ?_, fun hleft => ?_⟩
      · rw [hpc]
        exact hp.census.stay (iff_of_false (fun h => h) hsettled)
      · exact absurd (hr.rest_eq_nil 0 (hp.parked.holds ()) h0).2.1 hleft
    · -- one packet more, and one thread more on its way
      rw [if_neg h0] at hpc
      refine ⟨_, _, k + 1, hnodes, hpark, ?_, fun hleft => ?_⟩
      · rw [hpc]
        exact hp.census.enter hsettled rfl
      have hwaits : w ≠ [] := by
        rintro rfl
        exact hleft rfl
      rw [length_append, length_singleton]
      exact Nat.add_le_add_right (hp.awake hwaits) 1

omit hp in
lemma Inv.census_retry (pc : PortPc) (hp : p.Inv l w k)
    (ht : Outside (p.parking.pc t) ∨ p.parking.pc t = .woken ()) (hnew : Settled pc) :
    ∃ k', Census (Parking.OnWay (fun _ => ()) ()) (update p.parking.pc t pc) k' ∧
      k ≤ k' + 1 := by
  obtain ht | ht := ht
  · exact ⟨k, hp.census.stay (iff_of_false hnew ht.settled), Nat.le_succ k⟩
  · refine ⟨k - 1, hp.census.leave ?_ hnew, by omega⟩
    rw [ht]
    rfl

lemma Inv.wait {target : Bool} (hallow : p.Allowed (.wait t target))
    (hexec : p.exec rounds (.wait t target) = some p') : ∃ l' w' k', p'.Inv l' w' k' := by
  obtain ⟨h0, ht⟩ := hallow
  have hfree : Outside (p.parking.pc t) ∨ p.parking.pc t = .woken () := ht.imp_right And.left
  have hnot (why : Unit) : p.parking.pc t ≠ .waiting why := by
    obtain ht | ht := hfree
    · exact ht.not_waiting why
    · simp [ht]
  simp only [exec] at hexec
  split at hexec
  case isTrue hnull =>
    cases hexec
    obtain ht | ⟨-, htarget⟩ := ht
    · exact ⟨l, w, k, hp.returns ht _⟩
    · rw [htarget] at hnull
      cases hnull
  case isFalse =>
    split at hexec <;> cases hexec
    case isTrue hhead =>
      obtain ⟨a, rest, rfl⟩ := exists_cons_of_ne_nil (hp.nodes.holds.chain.ne_nil hhead)
      have ha : p.ends.head = a := hp.nodes.holds.head_eq
      obtain ⟨k', hcensus, hle⟩ :=
        hp.census_retry (.run (.freeing (p.packet a) a)) hfree (fun h => h)
      rw [ha] at hhead ⊢
      refine ⟨rest, w, k', hp.nodes.set rfl ?_ ?_ ?_ ?_ ?_ ?_, hp.parked.goOn hnot, hcensus,
        fun hwaits => ?_⟩
      · exact hp.nodes.holds.rest
      · rw [append_assoc]
        exact hp.nodes.logged
      · exact fun x hx => hp.nodes.live x (mem_cons_of_mem a hx)
      · rintro x ⟨⟩
        refine ⟨hhead, hp.nodes.live a mem_cons_self,
          (nodup_cons.mp hp.nodes.holds.chain.nodup).1, fun t' _ h => ?_⟩
        exact (hp.nodes.mine t' a h).2.2 mem_cons_self
      · intro t' _ x h
        obtain ⟨-, halloc, hout⟩ := hp.nodes.mine t' x h
        exact ⟨halloc, fun hx => hout (mem_cons_of_mem a hx), rfl⟩
      · rintro packet x ⟨⟩
      · -- one packet less, and at most one thread less on its way
        have hawake := hp.awake hwaits
        rw [length_cons] at hawake
        omega
    case isFalse hhead =>
      have hnil : l = [] := hp.nodes.holds.head_eq_zero.mp (by simpa using hhead)
      obtain ⟨k', hcensus, -⟩ := hp.census_retry (.waiting ()) hfree (fun h => h)
      refine ⟨l, w ++ [t], k', hp.nodes.quiet rfl rfl fun _ _ => rfl, ?_, hcensus, fun _ => ?_⟩
      · have hpark : Parking.Parked (fun _ => ()) (p.parking.park t () ()) _ :=
          hp.parked.park hnot h0 rfl
        rwa [show update (fun _ : Unit => w) () (w ++ [t]) = fun _ => w ++ [t] from
          funext fun _ => update_self ..] at hpark
      · rw [hnil]
        exact Nat.zero_le k'

lemma Inv.free (hexec : p.exec rounds (.free t) = some p') : p'.Inv l w k := by
  simp only [exec] at hexec
  split at hexec <;> cases hexec
  case h_1 packet a ht =>
    have hmine : node (p.parking.pc t) = some a := by rw [ht]; rfl
    have hsettled : Settled (p.parking.pc t) := by
      rw [ht]
      exact fun h => h
    refine hp.settled (hp.nodes.quiet rfl rfl fun x hx => ?_) rfl hsettled
      (fun h => h) (hp.parked.goOn (by simp [ht]))
    apply update_of_ne
    rintro rfl
    exact hx hmine

lemma Inv.wake (hallow : p.Allowed (.wake t))
    (hexec : p.exec rounds (.wake t) = some p') : p'.Inv l w k := by
  obtain ⟨q, task, role, ht⟩ := hallow
  cases hexec
  obtain ⟨why, hwhy, -, hne, -, -, hpc⟩ := hp.parked.wake_eq ht
  refine ⟨hp.nodes.wake fun t' => ?_, hp.parked.wake ht, hp.parked.census_wake ht hp.census,
    hp.awake⟩
  rw [hpc]
  by_cases heq : t' = t
  · rw [heq, update_self, ht]
    rfl
  rw [update_of_ne heq]
  rw [update_apply]
  split_ifs with htask
  · rw [htask, hwhy]
    rfl
  · rfl

lemma Inv.step {e : PortEvent} (hstep : Step p e p') : ∃ l' w' k', p'.Inv l' w' k' := by
  obtain ⟨hallow, rounds, hexec⟩ := hstep
  cases e with
  | prepare => exact ⟨l, w, k, hp.prepare hallow hexec⟩
  | queue => exact hp.queue hexec
  | wait => exact hp.wait hallow hexec
  | free => exact ⟨l, w, k, hp.free hexec⟩
  | wake => exact ⟨l, w, k, hp.wake hallow hexec⟩

lemma Inv.delivers : p.Delivers := by
  refine ⟨⟨l.map p.packet, hp.nodes.logged⟩, ?_⟩
  obtain ⟨popped, hcard, hmem⟩ := hp.parked.recalled hp.census
  refine ⟨l, popped, hp.nodes.holds, hmem, ?_⟩
  rintro ⟨t, hqueued⟩
  rw [hcard]
  exact hp.awake (ne_nil_of_mem (hp.parked.queued_iff.mp hqueued))

end

/-- One step with so many rounds. -/
def step? (rounds : Nat) (p : KPort) (e : PortEvent) : Option KPort :=
  if p.Allowed e then p.exec rounds e else none

lemma step_of_step? (h : p.step? rounds e = some p') : Step p e p' := by
  obtain ⟨hallow, hexec⟩ := then_of_ite h
  exact ⟨hallow, rounds, hexec⟩

/-- In every run of calls at a port, its packets are delivered in order, and no packet is left to
threads that are all blocked. -/
theorem delivers_of_run {events : List PortEvent} (hrun : Run Step create events p) :
    p.Delivers := by
  obtain ⟨l, w, k, hp⟩ := hrun.invariant (I := fun p => ∃ l w k, p.Inv l w k)
    (fun _ _ _ ⟨_, _, _, hp⟩ hstep => hp.step hstep) ⟨_, _, _, Inv.create⟩
  exact hp.delivers

/-- Thread 1 blocks, two packets are queued, and a newcomer takes the one thread 1 was woken for. -/
def newcomer : List PortEvent :=
  [.wait 1 true, .prepare 2 (some ⟨7, 0, 0⟩) 100, .queue 2, .prepare 3 (some ⟨8, 0, 0⟩) 200,
    .wake 2, .wait 4 true, .queue 3, .wait 1 true, .free 4, .free 1]

theorem newcomer_delivers : ∃ p, Run Step create newcomer p ∧
    p.parking.pc 1 = .run (.outside (.received ⟨8, 0, 0⟩)) ∧
    p.removed = [⟨7, 0, 0⟩, ⟨8, 0, 0⟩] ∧ p.Delivers := by
  refine Run.exists_of_exec (f := step? 2)
    (P := fun p => p.parking.pc 1 = .run (.outside (.received ⟨8, 0, 0⟩)) ∧
      p.removed = [⟨7, 0, 0⟩, ⟨8, 0, 0⟩]) (fun _ _ _ => step_of_step?) (by decide +kernel) ?_
  rintro p hrun ⟨hpc, hremoved⟩
  exact ⟨hpc, hremoved, delivers_of_run hrun⟩

end KPort

end Singularity.ObjectManager
