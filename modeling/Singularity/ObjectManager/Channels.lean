import Singularity.ObjectManager.Syscalls
import Singularity.Process.Parking

/-!
# Threads at a channel

The messages of a channel are nodes of two linked queues, one for each endpoint, under one
spinlock. A write copies its arguments into a message before it takes the lock, and a read copies
the message out after it has released it; in between the message belongs to one thread. The steps
are these copies, the sections under the lock and the wakeups. The logs record what was enqueued
for an endpoint and what was removed there.

An endpoint is destroyed once; the references that keep it alive during a call are left to the
handle table.
-/

namespace Singularity.ObjectManager

open Foundation Process Function List ChannelState Option

/-- What the last call of a thread has returned; the number of a message that was received is its
place in the log of its endpoint. -/
inductive Outcome where
  | none
  | wrote (status : KomStatus)
  | received (id : Bool) (args : ReadArgs) (number : Nat) (result : ReadResult)
  | refused (result : ReadResult)
  | closed
  deriving DecidableEq

/-- `sending` is before the section of a write, `copying` behind the one of a read. -/
inductive ChannelRole where
  | outside (last : Outcome)
  | sending (id : Bool) (data : Buffer UInt8) (handles : Buffer (BitVec 64)) (msg : Nat)
  | copying (id : Bool) (args : ReadArgs) (msg number : Nat)
  deriving DecidableEq

/-- A reader waits for a message at its endpoint. -/
abbrev ChannelPc : Type := Pc ChannelRole (Bool × ReadArgs) Bool

/-- The messages by their addresses, the state that the endpoints share, and the threads. -/
structure Channel where
  allocated : Nat → Bool
  contents : Nat → KMessage
  next : Nat → Nat
  queue : Bool → Ends
  closed : Bool → Bool
  refCount : BitVec 32
  parking : Parking ChannelRole (Bool × ReadArgs) Bool
  written : Bool → List KMessage
  removed : Bool → List KMessage

inductive ChannelEvent where
  | prepare (t : Nat) (id : Bool) (data : Buffer UInt8) (handles : Buffer (BitVec 64))
      (mem : WriteMemory) (msg : Nat)
  | send (t : Nat)
  | read (t : Nat) (id : Bool) (args : ReadArgs)
  | copyOut (t : Nat)
  | close (t : Nat) (id : Bool)
  | wake (t : Nat)
  | kill (id : Bool) (t : Nat)
  deriving DecidableEq

/-- The checks and allocations of `KChannelEndpoint::write` before the lock. -/
def prepareStatus (data : Buffer UInt8) (handles : Buffer (BitVec 64)) (mem : WriteMemory) :
    KomStatus :=
  if data.missing then .invalidType
  else if handles.missing then .invalidType
  else if !mem.message then .noMemory
  else if 0 < data.count ∧ mem.data = false then .noMemory
  else if 0 < handles.count ∧ mem.handles = false then .noMemory
  else .ok

/-- The message does not fit into the buffers of the reader. -/
def ReadArgs.TooSmall (args : ReadArgs) (msg : KMessage) : Prop :=
  args.dataSize.getD 0 < msg.data.length ∨ args.handleCount.getD 0 < msg.handles.length

instance (args : ReadArgs) (msg : KMessage) : Decidable (args.TooSmall msg) :=
  inferInstanceAs (Decidable (_ ∨ _))

/-- The sizes of a message that does not fit. -/
def KMessage.sizes (msg : KMessage) : ReadResult :=
  ⟨.bufferTooSmall, some msg.data.length, some msg.handles.length, [], []⟩

/-- What a reader gets of a message. -/
def KMessage.copyTo (msg : KMessage) (args : ReadArgs) : ReadResult :=
  { msg.sizes with
    status := .ok
    data := if args.data then msg.data else []
    handles := if args.handles then msg.handles else [] }

/-- The loop of the destructor that frees the messages, for so many rounds. -/
def freeMessages (next : Nat → Nat) : Nat → Nat → (Nat → Bool) → Option (Nat → Bool)
  | 0, curr, allocated => if curr = 0 then some allocated else none
  | rounds + 1, curr, allocated =>
    if curr = 0 then some allocated
    else freeMessages next rounds (next curr) (update allocated curr false)

namespace Channel

def create : Channel where
  allocated _ := false
  contents _ := ⟨[], []⟩
  next _ := 0
  queue _ := .empty
  closed _ := false
  refCount := 2
  parking := .boot (.outside .none)
  written _ := []
  removed _ := []

/-- The thread is in no call. -/
def Outside : ChannelPc → Prop
  | .run (.outside _) => True
  | _ => False

instance : (pc : ChannelPc) → Decidable (Outside pc)
  | .run (.outside _) => isTrue trivial
  | .run (.sending ..) => isFalse id
  | .run (.copying ..) => isFalse id
  | .waiting _ => isFalse id
  | .woken _ => isFalse id
  | .waking .. => isFalse id

/-- A call begins at an endpoint that is not destroyed; `kmalloc` returns a free address. -/
def Allowed (c : Channel) : ChannelEvent → Prop
  | .prepare t id _ _ _ msg =>
    Outside (c.parking.pc t) ∧ c.closed id = false ∧ msg ≠ 0 ∧ c.allocated msg = false
  | .send _ => True
  | .read t id args =>
    t ≠ 0 ∧ (Outside (c.parking.pc t) ∧ c.closed id = false ∨ c.parking.pc t = .woken (id, args))
  | .copyOut _ => True
  | .close t id => Outside (c.parking.pc t) ∧ c.closed id = false
  | .wake t => c.parking.Waking t
  | .kill id t => c.parking.Queued id t

/-- The thread returns. -/
def returns (c : Channel) (t : Nat) (outcome : Outcome) : Channel :=
  { c with parking := c.parking.goOn t (.outside outcome) }

def exec (rounds : Nat) (c : Channel) : ChannelEvent → Option Channel
  | .prepare t id data handles mem msg =>
    match prepareStatus data handles mem with
    | .ok =>
      some { c with
        allocated := update c.allocated msg true
        contents := update c.contents msg ⟨data.toList, handles.toList⟩
        next := update c.next msg 0
        parking := c.parking.goOn t (.sending id data handles msg) }
    | status => some (c.returns t (.wrote status))
  | .send t =>
    match c.parking.pc t with
    | .run (.sending id data handles msg) =>
      if c.closed (!id) then
        some { c.returns t (.wrote .peerClosed) with
          allocated := update c.allocated msg false }
      else
        let appended := (c.queue (!id)).append c.next msg
        (c.parking.pop rounds t (!id) (.outside (.wrote .ok))).map fun popped =>
          { c with
            next := appended.1
            queue := update c.queue (!id) appended.2
            parking := popped.2
            written := update c.written (!id)
              (c.written (!id) ++ [⟨data.toList, handles.toList⟩]) }
    | _ => none
  | .read t id args =>
    if args.dataSize.isNone ∨ args.handleCount.isNone then
      some (c.returns t (.refused ⟨.invalidType, args.dataSize, args.handleCount, [], []⟩))
    else
      let msg := (c.queue id).head
      if msg ≠ 0 then
        if args.TooSmall (c.contents msg) then
          some (c.returns t (.refused (c.contents msg).sizes))
        else
          some { c with
            queue := update c.queue id ((c.queue id).rest c.next)
            parking := c.parking.goOn t (.copying id args msg (c.removed id).length)
            removed := update c.removed id (c.removed id ++ [c.contents msg]) }
      else if c.closed (!id) then
        some (c.returns t (.refused ⟨.peerClosed, args.dataSize, args.handleCount, [], []⟩))
      else some { c with parking := c.parking.park t id (id, args) }
  | .copyOut t =>
    match c.parking.pc t with
    | .run (.copying id args msg number) =>
      some { c.returns t (.received id args number ((c.contents msg).copyTo args)) with
        allocated := update c.allocated msg false }
    | _ => none
  | .close t id =>
    (freeMessages c.next rounds (c.queue id).head c.allocated).bind fun allocated =>
      (c.parking.pop rounds t (!id) (.outside .closed)).map fun popped =>
        { c with
          allocated := allocated
          queue := update c.queue id .empty
          closed := update c.closed id true
          refCount := c.refCount - 1
          parking := popped.2 }
  | .wake t => some { c with parking := c.parking.wake t }
  | .kill _ t =>
    some { c with parking := { c.parking with tasks := c.parking.tasks.setState t .zombie } }

def Step (cond : Channel → ChannelEvent → Prop) (c : Channel) (e : ChannelEvent)
    (c' : Channel) : Prop :=
  c.Allowed e ∧ cond c e ∧ ∃ rounds, c.exec rounds e = some c'

/-- A test for `Allowed` that searches the first places of a wait queue. -/
def allowed? (c : Channel) : ChannelEvent → Bool
  | .prepare t id _ _ _ msg =>
    Outside (c.parking.pc t) ∧ c.closed id = false ∧ msg ≠ 0 ∧ c.allocated msg = false
  | .send _ => true
  | .read t id args =>
    t ≠ 0 ∧ (Outside (c.parking.pc t) ∧ c.closed id = false ∨ c.parking.pc t = .woken (id, args))
  | .copyOut _ => true
  | .close t id => Outside (c.parking.pc t) ∧ c.closed id = false
  | .wake t => c.parking.Waking t
  | .kill id t => c.parking.queued? 8 id t

variable {e : ChannelEvent} {cond : Channel → ChannelEvent → Prop} {ls : List Nat} {c : Channel}

lemma allowed_of_allowed? (h : c.allowed? e = true) : c.Allowed e := by
  cases e with
  | send => trivial
  | copyOut => trivial
  | kill id t => exact Parking.queued_of_queued? h
  | _ => simpa [allowed?, Allowed] using h

def step? (cond : Channel → ChannelEvent → Prop) [∀ c e, Decidable (cond c e)] (c : Channel)
    (e : ChannelEvent) : Option Channel :=
  if c.allowed? e ∧ cond c e then c.exec 8 e else none

lemma step_of_step? [∀ c e, Decidable (cond c e)] (h : c.step? cond e = some c') :
    Step cond c e c' := by
  obtain ⟨hstep, h⟩ := then_of_ite h
  exact ⟨allowed_of_allowed? hstep.1, hstep.2, 8, h⟩

/-- The message that belongs to the thread. -/
def message : ChannelPc → Option Nat
  | .run (.sending _ _ _ msg) => some msg
  | .run (.copying _ _ msg _) => some msg
  | _ => none

/-- What the thread may rely on: its message is what it has written or what was removed, it has
returned what was removed, and it only waits with room for the sizes of a message. -/
def Facts (c : Channel) : ChannelPc → Prop
  | .run (.sending _ data handles msg) => c.contents msg = ⟨data.toList, handles.toList⟩
  | .run (.copying id _ msg number) => (c.removed id)[number]? = some (c.contents msg)
  | .run (.outside (.received id args number result)) =>
    ∃ m, (c.removed id)[number]? = some m ∧ result = m.copyTo args
  | .waking _ _ role => role = .outside (.wrote .ok) ∨ role = .outside .closed
  | .waiting (_, args) => args.dataSize.isSome ∧ args.handleCount.isSome
  | .woken (_, args) => args.dataSize.isSome ∧ args.handleCount.isSome
  | _ => True

/-- The queues hold the messages of `l`. -/
structure Queues (c : Channel) (l : Bool → List Nat) : Prop where
  holds : ∀ id, (c.queue id).Holds c.next (l id)
  apart : ∀ id id' a, a ∈ l id → a ∈ l id' → id = id'
  allocated : ∀ id, ∀ a ∈ l id, c.allocated a = true

/-- What was removed and what is queued was written in this order; nothing is missing at an
endpoint that is not destroyed. -/
structure Logged (c : Channel) (l : Bool → List Nat) : Prop where
  order : ∀ id, c.removed id ++ (l id).map c.contents <+: c.written id
  full : ∀ id, c.closed id = false → c.removed id ++ (l id).map c.contents = c.written id

structure Carries (c : Channel) (l : Bool → List Nat) : Prop where
  queues : c.Queues l
  mine : ∀ t a, message (c.parking.pc t) = some a →
    a ≠ 0 ∧ c.allocated a = true ∧ ∀ id, a ∉ l id
  once : ∀ t t' a, message (c.parking.pc t) = some a → message (c.parking.pc t') = some a → t = t'
  facts : ∀ t, c.Facts (c.parking.pc t)
  logged : c.Logged l

/-- The channel as the system calls see it. -/
def abs (c : Channel) (l : Bool → List Nat) : ChannelState :=
  ⟨fun id => (l id).map c.contents, c.closed, c.refCount⟩

/-- What a step does to the channel that the system calls see. -/
def effect (c : Channel) (a : ChannelState) : ChannelEvent → ChannelState
  | .send t =>
    match c.parking.pc t with
    | .run (.sending id data handles _) =>
      if a.closed (!id) then a else a.enqueue (!id) ⟨data.toList, handles.toList⟩
    | _ => a
  | .read _ id args =>
    match a.queue id with
    | msg :: rest =>
      if args.dataSize.isNone ∨ args.handleCount.isNone ∨ args.TooSmall msg then a
      else a.dequeue id rest
    | [] => a
  | .close _ id => a.closeEndpoint id
  | _ => a

variable {c' : Channel} {l l' w : Bool → List Nat} {t : Nat} {id : Bool} {pc : ChannelPc}
variable {parking : Parking ChannelRole (Bool × ReadArgs) Bool} {allocated : Nat → Bool}
  {next : Nat → Nat} {queue : Bool → Ends} {written removed : Bool → List KMessage}
  {outcome : Outcome}

lemma abs_update (ls : List Nat) :
    { c with parking, allocated, next, queue, written, removed }.abs (update l id ls) =
      (c.abs l).dequeue id (ls.map c.contents) := by
  unfold abs dequeue
  congr 1
  funext id'
  simp only [update_apply]
  split_ifs
  · rfl
  · rfl

lemma Carries.create : create.Carries (fun _ => []) where
  queues := ⟨fun _ => Ends.holds_empty _, fun _ _ _ h => (not_mem_nil h).elim,
    fun _ _ h => (not_mem_nil h).elim⟩
  mine t a h := by cases h
  once t t' a h := by cases h
  facts _ := trivial
  logged := ⟨fun _ => prefix_rfl, fun _ _ => rfl⟩

lemma Carries.facts_at (hc : c.Carries l) (ht : c.parking.pc t = pc) : c.Facts pc :=
  ht ▸ hc.facts t

lemma Facts.mono (hfacts : c.Facts pc)
    (hcontents : ∀ a, message pc = some a → c'.contents a = c.contents a)
    (hremoved : ∀ id, c.removed id <+: c'.removed id) : c'.Facts pc := by
  have hget {id : Bool} {number : Nat} {m : KMessage}
      (h : (c.removed id)[number]? = some m) : (c'.removed id)[number]? = some m := by
    obtain ⟨more, hmore⟩ := hremoved id
    obtain ⟨hlt, -⟩ := List.getElem?_eq_some_iff.mp h
    rwa [← hmore, getElem?_append_left hlt]
  match pc with
  | .run (.sending _ data handles msg) =>
    exact (hcontents msg rfl).trans hfacts
  | .run (.copying id _ msg number) =>
    change _ = some (c'.contents msg)
    rw [hcontents msg rfl]
    exact hget hfacts
  | .run (.outside (.received id args number result)) =>
    obtain ⟨m, hm, hresult⟩ := hfacts
    exact ⟨m, hget hm, hresult⟩
  | .run (.outside .none) => trivial
  | .run (.outside (.wrote _)) => trivial
  | .run (.outside (.refused _)) => trivial
  | .run (.outside .closed) => trivial
  | .waiting _ => exact hfacts
  | .woken _ => exact hfacts
  | .waking _ _ _ => exact hfacts

/-- One thread does something else; what it has to itself is not queued and belongs to no other
thread, and the messages of the others are not touched. -/
lemma Carries.set (hc : c.Carries l) (hpc : c'.parking.pc = update c.parking.pc t pc)
    (hqueues : c'.Queues l')
    (hmine : ∀ a, message pc = some a → a ≠ 0 ∧ c'.allocated a = true ∧ (∀ id, a ∉ l' id) ∧
      ∀ t' ≠ t, message (c.parking.pc t') ≠ some a)
    (hothers : ∀ t' ≠ t, ∀ a, message (c.parking.pc t') = some a → c'.allocated a = true ∧ (∀ id,
      a ∉ l' id) ∧ c'.contents a = c.contents a)
    (hfacts : c'.Facts pc) (hremoved : ∀ id, c.removed id <+: c'.removed id)
    (hlogged : c'.Logged l') : c'.Carries l' := by
  have hself : c'.parking.pc t = pc := by rw [hpc, update_self]
  have hother {t' : Nat} (hne : t' ≠ t) : c'.parking.pc t' = c.parking.pc t' := by
    rw [hpc, update_of_ne hne]
  refine ⟨hqueues, fun t' a h => ?_, fun t1 t2 a h1 h2 => ?_, fun t' => ?_, hlogged⟩
  · by_cases heq : t' = t
    · rw [heq, hself] at h
      obtain ⟨hne, halloc, hfree, -⟩ := hmine a h
      exact ⟨hne, halloc, hfree⟩
    · rw [hother heq] at h
      obtain ⟨halloc, hfree, -⟩ := hothers t' heq a h
      exact ⟨(hc.mine t' a h).1, halloc, hfree⟩
  · by_cases heq1 : t1 = t <;> by_cases heq2 : t2 = t
    · exact heq1.trans heq2.symm
    · rw [heq1, hself] at h1
      rw [hother heq2] at h2
      exact absurd h2 ((hmine a h1).2.2.2 t2 heq2)
    · rw [hother heq1] at h1
      rw [heq2, hself] at h2
      exact absurd h1 ((hmine a h2).2.2.2 t1 heq1)
    · rw [hother heq1] at h1
      rw [hother heq2] at h2
      exact hc.once t1 t2 a h1 h2
  · by_cases heq : t' = t
    · rwa [heq, hself]
    · rw [hother heq]
      exact (hc.facts t').mono (fun a h => (hothers t' heq a h).2.2) hremoved

lemma Queues.congr (hq : c.Queues l) (hqueue : c'.queue = c.queue)
    (hnext : ∀ id, ∀ a ∈ l id, c'.next a = c.next a)
    (halloc : ∀ id, ∀ a ∈ l id, c'.allocated a = c.allocated a) : c'.Queues l where
  holds id := by
    rw [hqueue]
    exact (hq.holds id).congr (hnext id)
  apart := hq.apart
  allocated id a ha := (halloc id a ha).trans (hq.allocated id a ha)

lemma Logged.congr {contents : Nat → KMessage} (hl : c.Logged l)
    (hcontents : ∀ id, ∀ a ∈ l id, contents a = c.contents a) :
    { c with parking, allocated, next, contents }.Logged l := by
  have hmap (id : Bool) : (l id).map contents = (l id).map c.contents :=
    map_congr_left (hcontents id)
  refine ⟨fun id => ?_, fun id hopen => ?_⟩ <;> dsimp only <;> rw [hmap]
  · exact hl.order id
  · exact hl.full id hopen

lemma Carries.quiet (hc : c.Carries l) (hpc : parking.pc = update c.parking.pc t pc)
    (hnone : message pc = none) (hfacts : c.Facts pc)
    (halloc : ∀ a, message (c.parking.pc t) ≠ some a → allocated a = c.allocated a) :
    { c with parking, allocated }.Carries l := by
  have hfree {id : Bool} {a : Nat} (ha : a ∈ l id) : message (c.parking.pc t) ≠ some a :=
    fun h => (hc.mine t a h).2.2 id ha
  apply hc.set hpc
  · exact hc.queues.congr rfl (fun _ _ _ => rfl) fun _ a ha => halloc a (hfree ha)
  · intro a h
    rw [hnone] at h
    cases h
  · intro t' hne a h
    obtain ⟨-, hallocated, hnot⟩ := hc.mine t' a h
    have hother : message (c.parking.pc t) ≠ some a := fun h' => hne (hc.once t' t a h h')
    exact ⟨(halloc a hother).trans hallocated, hnot, rfl⟩
  · exact hfacts.mono (fun _ _ => rfl) fun _ => prefix_rfl
  · exact fun _ => prefix_rfl
  · exact hc.logged.congr fun _ _ _ => rfl

lemma Carries.returns (hc : c.Carries l)
    (hfacts : c.Facts (.run (.outside outcome))) : (c.returns t outcome).Carries l :=
  hc.quiet rfl rfl hfacts fun _ _ => rfl

/-- The messages are in their places and the readers in the wait queues are those of `w`. -/
structure Inv (c : Channel) (l w : Bool → List Nat) : Prop where
  carries : c.Carries l
  parked : Parking.Parked Prod.fst c.parking w

lemma Inv.create : create.Inv (fun _ => []) (fun _ => []) :=
  ⟨Carries.create, Parking.Parked.boot _⟩

lemma Inv.returns (hc : c.Inv l w) (ht : ∀ why, c.parking.pc t ≠ .waiting why)
    (hfacts : c.Facts (.run (.outside outcome))) : (c.returns t outcome).Inv l w :=
  ⟨hc.carries.returns hfacts, hc.parked.goOn ht⟩

lemma Outside.not_waiting (h : Outside pc) (why : Bool × ReadArgs) : pc ≠ .waiting why := by
  rintro rfl
  exact h

variable {msg : Nat}

lemma Carries.not_allocated (hc : c.Carries l) (hmsg : c.allocated msg = false) :
    (∀ id, msg ∉ l id) ∧ ∀ t, message (c.parking.pc t) ≠ some msg := by
  constructor
  · intro id hmem
    have halloc := hc.queues.allocated id msg hmem
    rw [hmsg] at halloc
    cases halloc
  · intro t h
    have halloc := (hc.mine t msg h).2.1
    rw [hmsg] at halloc
    cases halloc

variable {rounds : Nat} {args : ReadArgs}

lemma Inv.prepare {data : Buffer UInt8} {handles : Buffer (BitVec 64)} {mem : WriteMemory}
    (hc : c.Inv l w) (hallow : c.Allowed (.prepare t id data handles mem msg))
    (hexec : c.exec rounds (.prepare t id data handles mem msg) = some c') :
    c'.Inv l w ∧ c'.abs l = c.abs l := by
  obtain ⟨ht, -, hne, hmsg⟩ := hallow
  simp only [exec] at hexec
  split at hexec <;> cases hexec
  case h_2 => exact ⟨hc.returns ht.not_waiting trivial, rfl⟩
  case h_1 =>
    obtain ⟨hqueued, hfree⟩ := hc.carries.not_allocated hmsg
    have hold {id : Bool} {a : Nat} (ha : a ∈ l id) : a ≠ msg := fun heq => hqueued id (heq ▸ ha)
    have hcontents (id : Bool) (a : Nat) (ha : a ∈ l id) :
        update c.contents msg ⟨data.toList, handles.toList⟩ a = c.contents a :=
      update_of_ne (hold ha) ..
    refine ⟨⟨hc.carries.set rfl ?_ ?_ ?_ ?_ (fun _ => prefix_rfl) ?_,
      hc.parked.goOn ht.not_waiting⟩, ?_⟩
    · exact hc.carries.queues.congr rfl (fun _ _ ha => update_of_ne (hold ha) ..)
        fun _ _ ha => update_of_ne (hold ha) ..
    · rintro a ⟨⟩
      exact ⟨hne, update_self .., hqueued, fun t' _ => hfree t'⟩
    · intro t' _ a h
      obtain ⟨-, halloc, hnot⟩ := hc.carries.mine t' a h
      have hother : a ≠ msg := fun heq => hfree t' (heq ▸ h)
      exact ⟨(update_of_ne hother ..).trans halloc, hnot, update_of_ne hother ..⟩
    · exact update_self ..
    · exact hc.carries.logged.congr hcontents
    · unfold abs
      congr 1
      funext id
      exact map_congr_left (hcontents id)

lemma Queues.append (hq : c.Queues l) (hne : msg ≠ 0) (hmsg : ∀ id, msg ∉ l id)
    (halloc : c.allocated msg = true) : Queues { c with
      parking, written
      next := ((c.queue id).append c.next msg).1
      queue := update c.queue id ((c.queue id).append c.next msg).2 }
      (update l id (l id ++ [msg])) := by
  refine ⟨fun id' => ?_, fun id1 id2 a h1 h2 => ?_, fun id' a ha => ?_⟩
  · simp only [update_apply]
    split_ifs with heq
    · subst heq
      exact (hq.holds id').append hne (hmsg id')
    · refine (hq.holds id').congr fun a ha => (hq.holds id).append_other ?_ ?_
      · exact fun hmsg' => hmsg id' (hmsg' ▸ ha)
      · exact fun ha' => heq (hq.apart id' id a ha ha')
  · obtain ⟨ha1, hid1⟩ | h1 := mem_update_append.mp h1 <;>
      obtain ⟨ha2, hid2⟩ | h2 := mem_update_append.mp h2
    · exact hid1.trans hid2.symm
    · exact absurd (ha1 ▸ h2) (hmsg id2)
    · exact absurd (ha2 ▸ h1) (hmsg id1)
    · exact hq.apart id1 id2 a h1 h2
  · obtain ⟨rfl, -⟩ | ha := mem_update_append.mp ha
    · exact halloc
    · exact hq.allocated id' a ha

lemma Logged.append (hl : c.Logged l) (hopen : c.closed id = false)
    (hwritten : written = update c.written id (c.written id ++ [c.contents msg])) :
    { c with parking, next, queue, written }.Logged (update l id (l id ++ [msg])) := by
  have hfull : c.removed id ++ (l id ++ [msg]).map c.contents =
      c.written id ++ [c.contents msg] := by
    rw [map_append, ← append_assoc, hl.full id hopen]
    rfl
  refine ⟨fun id' => ?_, fun id' hopen' => ?_⟩ <;> simp only [hwritten, update_apply] <;>
    split_ifs with heq
  · rw [heq, hfull]
  · exact hl.order id'
  · rw [heq, hfull]
  · exact hl.full id' hopen'

lemma facts_pop (hlast : last = .wrote .ok ∨ last = .closed) (c : Channel) (id : Bool)
    (task : Nat) : c.Facts
      (if task = 0 then .run (.outside last) else .waking id task (.outside last)) ∧
      message (if task = 0 then .run (.outside last) else .waking id task (.outside last)) =
        none := by
  split
  · obtain rfl | rfl := hlast <;> exact ⟨trivial, rfl⟩
  · obtain rfl | rfl := hlast
    · exact ⟨.inl rfl, rfl⟩
    · exact ⟨.inr rfl, rfl⟩

lemma Inv.send (hc : c.Inv l w) (hexec : c.exec rounds (.send t) = some c') :
    ∃ l' w', c'.Inv l' w' ∧ c'.abs l' = c.effect (c.abs l) (.send t) := by
  simp only [exec] at hexec
  split at hexec
  case h_2 => cases hexec
  case h_1 id data handles msg ht =>
    have hnot (why : Bool × ReadArgs) : c.parking.pc t ≠ .waiting why := by simp [ht]
    have hmine : message (c.parking.pc t) = some msg := by rw [ht]; rfl
    obtain ⟨hne, halloc, hfree⟩ := hc.carries.mine t msg hmine
    have hcontents : c.contents msg = ⟨data.toList, handles.toList⟩ := hc.carries.facts_at ht
    simp only [effect, ht]
    split at hexec
    case isTrue hclosed =>
      cases hexec
      refine ⟨l, w, ⟨hc.carries.quiet rfl rfl trivial ?_, hc.parked.goOn hnot⟩, ?_⟩
      · intro a ha
        apply update_of_ne
        rintro rfl
        exact ha hmine
      · exact (if_pos hclosed).symm
    case isFalse hopen =>
      obtain ⟨⟨r, parking⟩, hpop, rfl⟩ := map_eq_some_iff.mp hexec
      obtain ⟨-, hpark, -, hpc⟩ := hc.parked.pop hnot hpop
      obtain ⟨hfacts, hnone⟩ := facts_pop (.inl rfl) c (!id) r.task
      refine ⟨_, _, ⟨hc.carries.set hpc (hc.carries.queues.append hne hfree halloc)
        ?_ ?_ ?_ (fun _ => prefix_rfl) ?_, hpark⟩, ?_⟩
      · intro a h
        rw [hnone] at h
        cases h
      · intro t' hother a h
        obtain ⟨-, halloc', hfree'⟩ := hc.carries.mine t' a h
        refine ⟨halloc', fun id' hmem => ?_, rfl⟩
        obtain ⟨rfl, -⟩ | hmem := mem_update_append.mp hmem
        · exact hother (hc.carries.once t' t a h hmine)
        · exact hfree' id' hmem
      · exact hfacts.mono (fun _ _ => rfl) fun _ => prefix_rfl
      · refine hc.carries.logged.append (by simpa using hopen) ?_
        rw [hcontents]
      · rw [abs_update, map_append, map_singleton, hcontents]
        exact (if_neg hopen).symm

lemma Queues.rest (hq : c.Queues l) (hl : l id = msg :: ls) : Queues { c with
      parking, removed
      queue := update c.queue id ((c.queue id).rest c.next) } (update l id ls) := by
  have hsub : ls ⊆ l id := by
    rw [hl]
    exact subset_cons_self msg ls
  refine ⟨fun id' => ?_, fun id1 id2 a h1 h2 => ?_, fun id' a ha => ?_⟩
  · simp only [update_apply]
    split_ifs with heq
    · subst heq
      exact Ends.Holds.rest (hl ▸ hq.holds id')
    · exact hq.holds id'
  · exact hq.apart id1 id2 a (mem_of_mem_update hsub h1) (mem_of_mem_update hsub h2)
  · exact hq.allocated id' a (mem_of_mem_update hsub ha)

lemma Logged.rest (hl : c.Logged l) (hqueue : l id = msg :: ls) : Logged { c with
      parking, queue
      removed := update c.removed id (c.removed id ++ [c.contents msg]) } (update l id ls) := by
  have hsame (id' : Bool) : update c.removed id (c.removed id ++ [c.contents msg]) id' ++
      (update l id ls id').map c.contents = c.removed id' ++ (l id').map c.contents := by
    simp only [update_apply]
    split_ifs with heq
    · subst heq
      rw [hqueue, map_cons, append_assoc]
      rfl
    · rfl
  refine ⟨fun id' => ?_, fun id' hopen => ?_⟩ <;> rw [hsame]
  · exact hl.order id'
  · exact hl.full id' hopen

lemma Inv.read (hc : c.Inv l w) (hallow : c.Allowed (.read t id args))
    (hexec : c.exec rounds (.read t id args) = some c') :
    ∃ l' w', c'.Inv l' w' ∧ c'.abs l' = c.effect (c.abs l) (.read t id args) := by
  obtain ⟨hne, ht⟩ := hallow
  have hnot (why : Bool × ReadArgs) : c.parking.pc t ≠ .waiting why := by
    obtain ⟨ht, -⟩ | ht := ht
    · exact ht.not_waiting why
    · simp [ht]
  have hholds := hc.carries.queues.holds id
  have hqueue : (c.abs l).queue id = (l id).map c.contents := rfl
  simp only [exec] at hexec
  simp only [effect, hqueue]
  split at hexec
  case isTrue hnull =>
    cases hexec
    refine ⟨l, w, hc.returns hnot trivial, ?_⟩
    split
    · rw [if_pos (hnull.imp_right Or.inl)]
      rfl
    · rfl
  case isFalse hsizes =>
    split at hexec
    case isTrue hhead =>
      obtain ⟨msg, ls, hl⟩ := exists_cons_of_ne_nil (hholds.chain.ne_nil hhead)
      have hmsg : (c.queue id).head = msg := (hl ▸ hholds).head_eq
      rw [hmsg] at hhead hexec
      simp only [hl, map_cons]
      split at hexec <;> cases hexec
      case isTrue hsmall =>
        refine ⟨l, w, hc.returns hnot trivial, ?_⟩
        rw [if_pos (.inr (.inr hsmall))]
        rfl
      case isFalse hfits =>
        have hmem : msg ∈ l id := by rw [hl]; exact mem_cons_self
        have hnodup := hl ▸ hholds.chain.nodup
        refine ⟨_, w, ⟨hc.carries.set rfl (hc.carries.queues.rest hl) ?_ ?_ ?_ ?_
          (hc.carries.logged.rest hl), hc.parked.goOn hnot⟩, ?_⟩
        · rintro a ⟨⟩
          refine ⟨hhead, hc.carries.queues.allocated id msg hmem, fun id' hmem' => ?_, ?_⟩
          · simp only [update_apply] at hmem'
            split_ifs at hmem' with heq
            · exact (nodup_cons.mp hnodup).1 hmem'
            · exact heq (hc.carries.queues.apart id' id msg hmem' hmem)
          · intro t' _ h
            exact (hc.carries.mine t' msg h).2.2 id hmem
        · intro t' _ a h
          obtain ⟨-, halloc, hfree⟩ := hc.carries.mine t' a h
          refine ⟨halloc, fun id' hmem' => hfree id' (mem_of_mem_update ?_ hmem'), rfl⟩
          rw [hl]
          exact subset_cons_self msg ls
        · change (update c.removed id (c.removed id ++ [c.contents msg]) id)[_]? = _
          rw [update_self, getElem?_concat_length]
        · intro id'
          simp only [update_apply]
          split_ifs with heq
          · subst heq
            exact prefix_append ..
          · rfl
        · rw [abs_update, if_neg]
          rintro (h | h | h)
          · exact hsizes (.inl h)
          · exact hsizes (.inr h)
          · exact hfits h
    case isFalse hhead =>
      have hnil : l id = [] := hholds.head_eq_zero.mp (by simpa using hhead)
      simp only [hnil, map_nil]
      split at hexec <;> cases hexec
      · exact ⟨l, w, hc.returns hnot trivial, rfl⟩
      · have hfacts : c.Facts (.waiting (id, args)) := by
          simpa [Facts, isSome_iff_ne_none] using hsizes
        exact ⟨l, _, ⟨hc.carries.quiet rfl rfl hfacts fun _ _ => rfl,
          hc.parked.park hnot hne rfl⟩, rfl⟩

lemma Inv.copyOut (hc : c.Inv l w) (hexec : c.exec rounds (.copyOut t) = some c') :
    c'.Inv l w ∧ c'.abs l = c.abs l := by
  simp only [exec] at hexec
  split at hexec <;> cases hexec
  case h_1 id args msg number ht =>
    have hmine : message (c.parking.pc t) = some msg := by rw [ht]; rfl
    have hfacts := hc.carries.facts_at ht
    refine ⟨⟨hc.carries.quiet rfl rfl ⟨_, hfacts, rfl⟩ ?_, hc.parked.goOn (by simp [ht])⟩, rfl⟩
    intro a ha
    apply update_of_ne
    rintro rfl
    exact ha hmine

lemma freeMessages_other (hchain : Chain next curr ls)
    (hfree : freeMessages next rounds curr allocated = some allocated') (ha : a ∉ ls) :
    allocated' a = allocated a := by
  induction rounds generalizing curr ls allocated with
  | zero =>
    simp only [freeMessages] at hfree
    split at hfree <;> cases hfree
    rfl
  | succ rounds ih =>
    simp only [freeMessages] at hfree
    split_ifs at hfree with hne
    · cases hfree
      rfl
    · obtain ⟨msg, rest, rfl⟩ := exists_cons_of_ne_nil (hchain.ne_nil hne)
      obtain ⟨rfl, -, hchain⟩ := hchain
      rw [ih hchain hfree (not_mem_of_not_mem_cons ha)]
      exact update_of_ne (ne_of_not_mem_cons ha) ..

lemma Inv.close (hc : c.Inv l w) (hallow : c.Allowed (.close t id))
    (hexec : c.exec rounds (.close t id) = some c') :
    ∃ l' w', c'.Inv l' w' ∧ c'.abs l' = (c.abs l).closeEndpoint id := by
  obtain ⟨allocated, hfree, hexec⟩ := bind_eq_some_iff.mp hexec
  obtain ⟨⟨r, parking⟩, hpop, rfl⟩ := map_eq_some_iff.mp hexec
  obtain ⟨-, hpark, -, hpc⟩ := hc.parked.pop hallow.1.not_waiting hpop
  obtain ⟨hfacts, hnone⟩ := facts_pop (.inr rfl) c (!id) r.task
  have hother {a : Nat} (ha : a ∉ l id) : allocated a = c.allocated a :=
    freeMessages_other (hc.carries.queues.holds id).chain hfree ha
  have hsub : [] ⊆ l id := nil_subset _
  refine ⟨update l id [], _, ⟨hc.carries.set hpc ⟨fun id' => ?_, ?_, ?_⟩ ?_ ?_ ?_
    (fun _ => prefix_rfl) ⟨fun id' => ?_, fun id' hopen => ?_⟩, hpark⟩, ?_⟩
  · simp only [update_apply]
    split_ifs
    · exact Ends.holds_empty _
    · exact hc.carries.queues.holds id'
  · intro id1 id2 a h1 h2
    exact hc.carries.queues.apart id1 id2 a (mem_of_mem_update hsub h1) (mem_of_mem_update hsub h2)
  · intro id' a ha
    have hold := mem_of_mem_update hsub ha
    refine (hother fun hmem => ?_).trans (hc.carries.queues.allocated id' a hold)
    rw [hc.carries.queues.apart id' id a hold hmem, update_self] at ha
    cases ha
  · intro a h
    rw [hnone] at h
    cases h
  · intro t' _ a h
    obtain ⟨-, halloc, hfree'⟩ := hc.carries.mine t' a h
    exact ⟨(hother (hfree' id)).trans halloc,
      fun id' hmem => hfree' id' (mem_of_mem_update hsub hmem), rfl⟩
  · exact hfacts.mono (fun _ _ => rfl) fun _ => prefix_rfl
  · -- what was queued is dropped, so the log of the endpoint stays behind
    have horder := hc.carries.logged.order id'
    simp only [update_apply]
    split_ifs
    · rw [map_nil, append_nil]
      exact (prefix_append ..).trans horder
    · exact horder
  · dsimp only at hopen ⊢
    have hne : id' ≠ id := by
      rintro rfl
      rw [update_self] at hopen
      cases hopen
    rw [update_of_ne hne] at hopen ⊢
    exact hc.carries.logged.full id' hopen
  · simp only [abs, closeEndpoint]
    congr 1
    funext id'
    simp only [update_apply]
    split_ifs
    · rfl
    · rfl

lemma Inv.wake (hc : c.Inv l w) (hallow : c.Allowed (.wake t))
    (hexec : c.exec rounds (.wake t) = some c') : c'.Inv l w := by
  obtain ⟨q, task, role, ht⟩ := hallow
  cases hexec
  obtain ⟨why, hwhy, -, hne, -, -, hpc⟩ := hc.parked.wake_eq ht
  have hfacts := hc.carries.facts_at ht
  refine ⟨?_, hc.parked.wake ht⟩
  let c1 : Channel :=
    { c with parking := { c.parking with pc := update c.parking.pc task (.woken why) } }
  have hwoken : c1.Carries l := by
    have hwaits := hc.carries.facts_at hwhy
    have hfacts : c.Facts (.woken why) := hwaits
    exact hc.carries.quiet rfl rfl hfacts fun _ _ => rfl
  obtain rfl | rfl := hfacts <;>
    exact hwoken.quiet hpc rfl trivial fun _ _ => rfl

lemma Inv.kill (hc : c.Inv l w) (hallow : c.Allowed (.kill id t))
    (hexec : c.exec rounds (.kill id t) = some c') : c'.Inv l w := by
  cases hexec
  refine ⟨⟨?_, hc.carries.mine, hc.carries.once, fun t' => ?_, ?_⟩,
    hc.parked.kill (hc.parked.queued_iff.mp hallow)⟩
  · exact hc.carries.queues.congr rfl (fun _ _ _ => rfl) fun _ _ _ => rfl
  · exact (hc.carries.facts t').mono (fun _ _ => rfl) fun _ => prefix_rfl
  · exact hc.carries.logged.congr fun _ _ _ => rfl

/-- Every step keeps the messages in place and has its effect on what the system calls see. -/
lemma Inv.step (hc : c.Inv l w)
    (hstep : Step cond c e c') : ∃ l' w', c'.Inv l' w' ∧ c'.abs l' = c.effect (c.abs l) e := by
  obtain ⟨hallow, -, rounds, hexec⟩ := hstep
  cases e with
  | prepare => exact ⟨l, w, hc.prepare hallow hexec⟩
  | send => exact hc.send hexec
  | read => exact hc.read hallow hexec
  | copyOut => exact ⟨l, w, hc.copyOut hexec⟩
  | close => exact hc.close hallow hexec
  | wake =>
    refine ⟨l, w, hc.wake hallow hexec, ?_⟩
    cases hexec
    rfl
  | kill =>
    refine ⟨l, w, hc.kill hallow hexec, ?_⟩
    cases hexec
    rfl

lemma inv_of_run (hrun : Run (Step cond) create events c) : ∃ l w, c.Inv l w :=
  hrun.invariant (I := fun c => ∃ l w, c.Inv l w)
    (fun _ _ _ ⟨_, _, hc⟩ hstep => by
      obtain ⟨l', w', hc', -⟩ := hc.step hstep
      exact ⟨l', w', hc'⟩)
    ⟨_, _, Inv.create⟩

/-- The messages in the queue of the endpoint. -/
def Contains (c : Channel) (id : Bool) (ms : List KMessage) : Prop :=
  ∃ ls, (c.queue id).Holds c.next ls ∧ ls.map c.contents = ms

/-- Messages are removed as they were written, a reader gets the message that it has removed, and
one with a small buffer gets the sizes of the first message, which stays. -/
structure InOrder (c : Channel) : Prop where
  order : ∀ id, c.removed id <+: c.written id
  received : ∀ t id args number result,
    c.parking.pc t = .run (.outside (.received id args number result)) →
    ∃ m, (c.removed id)[number]? = some m ∧ result = m.copyTo args
  tooSmall : ∀ t id args c', Step (fun _ _ => True) c (.read t id args) c' → ∀ result,
    c'.parking.pc t = .run (.outside (.refused result)) → result.status = .bufferTooSmall →
    (∃ m rest, c.Contains id (m :: rest) ∧ result = m.sizes) ∧ c'.Contains = c.Contains

lemma Inv.tooSmall (hc : c.Inv l w) (hexec : c.exec rounds (.read t id args) = some c')
    (hresult : c'.parking.pc t = .run (.outside (.refused result)))
    (hstatus : result.status = .bufferTooSmall) :
    (∃ m rest, c.Contains id (m :: rest) ∧ result = m.sizes) ∧ c'.Contains = c.Contains := by
  have hreturns {c : Channel} {outcome : Outcome}
      (h : (c.returns t outcome).parking.pc t = .run (.outside (.refused result))) :
      outcome = .refused result := by
    have hself : (c.returns t outcome).parking.pc t = .run (.outside outcome) :=
      update_self ..
    cases hself.symm.trans h
    rfl
  simp only [exec] at hexec
  split at hexec
  · cases hexec
    cases hreturns hresult
    cases hstatus
  · split at hexec
    case isTrue hhead =>
      split at hexec <;> cases hexec
      · cases hreturns hresult
        have hholds := hc.carries.queues.holds id
        obtain ⟨msg, ls, hl⟩ := exists_cons_of_ne_nil (hholds.chain.ne_nil hhead)
        have hmsg : (c.queue id).head = msg := (hl ▸ hholds).head_eq
        refine ⟨⟨c.contents msg, ls.map c.contents, ⟨l id, hholds, ?_⟩, ?_⟩, rfl⟩
        · rw [hl]
          rfl
        · rw [hmsg]
      · simp only [Parking.goOn, update_self] at hresult
        cases hresult
    · split at hexec <;> cases hexec
      · cases hreturns hresult
        cases hstatus
      · simp only [Parking.park, update_self] at hresult
        cases hresult

/-- In every run of any number of threads at the two endpoints. -/
theorem inOrder_of_run {events : List ChannelEvent}
    (hrun : Run (Step fun _ _ => True) create events c) : c.InOrder := by
  obtain ⟨l, w, hc⟩ := inv_of_run hrun
  refine ⟨fun id => ?_, fun t id args number result ht => ?_, fun t id args c' hstep => ?_⟩
  · exact (prefix_append ..).trans (hc.carries.logged.order id)
  · exact hc.carries.facts_at ht
  · obtain ⟨-, -, rounds, hexec⟩ := hstep
    intro result hresult hstatus
    exact hc.tooSmall hexec hresult hstatus

/-- A reader that has waited gets the first of two messages. -/
theorem waitingReader_inOrder :
    ∃ c, Run (Step fun _ _ => True) create
        [.read 1 false ⟨some 4, some 0, true, true⟩,
          .prepare 2 true (.items [7]) (.items []) ⟨true, true, true, true⟩ 100,
          .prepare 3 true (.items [8]) (.items []) ⟨true, true, true, true⟩ 200,
          .send 2, .wake 2, .send 3, .read 1 false ⟨some 4, some 0, true, true⟩, .copyOut 1] c ∧
      c.removed false = [⟨[7], []⟩] ∧ c.written false = [⟨[7], []⟩, ⟨[8], []⟩] ∧ c.InOrder := by
  refine Run.exists_of_exec (P := fun c => c.removed false = [⟨[7], []⟩] ∧
    c.written false = [⟨[7], []⟩, ⟨[8], []⟩]) (fun _ _ _ => step_of_step?) (by decide +kernel) ?_
  rintro c hrun ⟨hremoved, hwritten⟩
  exact ⟨hremoved, hwritten, inOrder_of_run hrun⟩

end Channel

end Singularity.ObjectManager
