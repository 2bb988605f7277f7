import Singularity.ObjectManager.HandleTable

/-!
# System calls on handles and channels

A pointer argument is a buffer: null, or the items behind it. Which allocations succeed is an
argument of the calls. A write moves the handles it is given before it looks at the channel. A
read that finds no message blocks with the reference to its endpoint.

`transfer` pushes the slot of the old entry on the free list and takes it again, so a moved
handle stays in its slot and only goes to the next generation.
-/

namespace Singularity.ObjectManager

open Foundation Function

inductive KomStatus where
  | ok
  | capDenied
  | invalidType
  | noMemory
  | peerClosed
  | bufferTooSmall
  deriving DecidableEq

/-- A pointer and a count: the count may be positive for a null pointer. -/
inductive Buffer (α : Type) where
  | null (count : Nat)
  | items (contents : List α)
  deriving DecidableEq

namespace Buffer
variable {α : Type}

def count : Buffer α → Nat
  | .null count => count
  | .items contents => contents.length

def toList : Buffer α → List α
  | .null _ => []
  | .items contents => contents

/-- The check for a positive count without a pointer. -/
def missing : Buffer α → Bool
  | .null count => decide (0 < count)
  | .items _ => false

end Buffer

/-- Which allocations of a write succeed. -/
structure WriteMemory where
  moved : Bool
  message : Bool
  data : Bool
  handles : Bool
  deriving DecidableEq

/-- The addresses of a new channel and its endpoints. -/
structure ChannelMemory where
  state : Nat
  a : Nat
  b : Nat
  deriving DecidableEq

/-- The result of a write and the handles that it has moved. -/
structure WriteResult where
  status : KomStatus
  moved : List (BitVec 64)
  deriving DecidableEq

/-- The sizes that a reader has room for, and whether there are buffers. -/
structure ReadArgs where
  dataSize : Option Nat
  handleCount : Option Nat
  data : Bool
  handles : Bool
  deriving DecidableEq

structure ReadResult where
  status : KomStatus
  dataSize : Option Nat
  handleCount : Option Nat
  data : List UInt8
  handles : List (BitVec 64)
  deriving DecidableEq

/-- A read returns, or blocks with a reference to its endpoint. -/
inductive ReadOutcome where
  | returned (result : ReadResult)
  | blocked (o : Nat)
  deriving DecidableEq

structure CreateResult where
  status : KomStatus
  a : BitVec 64
  b : BitVec 64
  deriving DecidableEq

/-- An object without its reference count. -/
def KObject.shape (obj : KObject) : KObjectType × Nat × Bool := (obj.type, obj.state, obj.myId)

/-- The capabilities of the two handles of a new channel. -/
def channelCaps : BitVec 16 := kapRead ||| kapWrite ||| kapXfer

namespace ChannelState

def new : ChannelState := ⟨fun _ => [], fun _ => false, 2⟩

def enqueue (c : ChannelState) (id : Bool) (msg : KMessage) : ChannelState :=
  { c with queue := update c.queue id (c.queue id ++ [msg]) }

def dequeue (c : ChannelState) (id : Bool) (rest : List KMessage) : ChannelState :=
  { c with queue := update c.queue id rest }

/-- The checks of `KChannelEndpoint::write`, in their order. -/
def writeStatus (c : ChannelState) (myId : Bool) (data : Buffer UInt8)
    (handles : Buffer (BitVec 64)) (mem : WriteMemory) : KomStatus :=
  if data.missing then .invalidType
  else if handles.missing then .invalidType
  else if !mem.message then .noMemory
  else if 0 < data.count ∧ mem.data = false then .noMemory
  else if 0 < handles.count ∧ mem.handles = false then .noMemory
  else if c.closed (!myId) then .peerClosed
  else .ok

end ChannelState

variable {h : BitVec 64} {args : ReadArgs}

namespace Kom

def setChannel (k : Kom) (state : Nat) (c : ChannelState) : Kom :=
  { k with channels := update k.channels state c }

/-- `KChannelEndpoint::write`. -/
def endpointWrite (k : Kom) (ep : KObject) (data : Buffer UInt8) (handles : Buffer (BitVec 64))
    (mem : WriteMemory) : KomStatus × Kom :=
  let c := k.channels ep.state
  match c.writeStatus ep.myId data handles mem with
  | .ok => (.ok, k.setChannel ep.state (c.enqueue (!ep.myId) ⟨data.toList, handles.toList⟩))
  | status => (status, k)

/-- One round of the loop of `KChannelEndpoint::read`; nothing is returned when it blocks. -/
def endpointRead (k : Kom) (ep : KObject) (args : ReadArgs) : Option (ReadResult × Kom) :=
  match args.dataSize, args.handleCount with
  | some dataSize, some handleCount =>
    let c := k.channels ep.state
    match c.queue ep.myId with
    | msg :: rest =>
      let sizes : ReadResult :=
        ⟨.bufferTooSmall, some msg.data.length, some msg.handles.length, [], []⟩
      if dataSize < msg.data.length ∨ handleCount < msg.handles.length then some (sizes, k)
      else
        some ({ sizes with
          status := .ok
          data := if args.data then msg.data else []
          handles := if args.handles then msg.handles else [] },
          k.setChannel ep.state (c.dequeue ep.myId rest))
    | [] =>
      if c.closed (!ep.myId) then
        some (⟨.peerClosed, some dataSize, some handleCount, [], []⟩, k)
      else none
  | dataSize, handleCount => some (⟨.invalidType, dataSize, handleCount, [], []⟩, k)

def transferAll (k : Kom) : List (BitVec 64) → Except KomFault (List (BitVec 64) × Kom)
  | [] => .ok ([], k)
  | h :: hs => do
      let (moved, k) ← k.transfer h
      let (rest, k) ← k.transferAll hs
      .ok (moved :: rest, k)

/-- The array of moved handles, unless its allocation fails. -/
def moveHandles (k : Kom) (handles : Buffer (BitVec 64)) (mem : WriteMemory) :
    Except KomFault (Option (Buffer (BitVec 64)) × Kom) :=
  match handles with
  | .null count => .ok (some (.null count), k)
  | .items hs =>
    if hs = [] then .ok (some (.null 0), k)
    else if mem.moved then do
      let (moved, k) ← k.transferAll hs
      .ok (some (.items moved), k)
    else .ok (none, k)

def komDuplicate (k : Kom) (h : BitVec 64) (requestedCaps : BitVec 16) :
    Except KomFault (BitVec 64 × Kom) :=
  k.dup h requestedCaps

def komClose (k : Kom) (h : BitVec 64) : Except KomFault Kom := k.close h

/-- The new channel of `kchannel_create`. -/
def kchannelCreate (k : Kom) (mem : ChannelMemory) : Kom :=
  ((k.setChannel mem.state .new).setObject mem.a (some ⟨.channel, 1, mem.state, false⟩)).setObject
    mem.b (some ⟨.channel, 1, mem.state, true⟩)

/-- The out pointers may be null, and one of the allocations may fail. -/
def komChannelCreate (k : Kom) (outA outB : Bool) (mem : Option ChannelMemory) :
    Except KomFault (CreateResult × Kom) :=
  if outA = false ∨ outB = false then .ok (⟨.invalidType, 0, 0⟩, k)
  else
    match mem with
    | none => .ok (⟨.noMemory, 0, 0⟩, k)
    | some mem => do
        let (a, k) ← (k.kchannelCreate mem).alloc (some mem.a) channelCaps
        let (b, k) ← k.alloc (some mem.b) channelCaps
        let k ← k.kobjectUnref mem.a
        let k ← k.kobjectUnref mem.b
        .ok (⟨.ok, a, b⟩, k)

/-- The part of `kom_channel_write` that has a reference to the endpoint. -/
def writeEndpoint (k : Kom) (o : Nat) (data : Buffer UInt8) (handles : Buffer (BitVec 64))
    (mem : WriteMemory) : Except KomFault (WriteResult × Kom) :=
  match k.objects o with
  | none => .error .useAfterFree
  | some obj =>
    if obj.type ≠ .channel then do
      let k ← k.kobjectUnref o
      .ok (⟨.invalidType, []⟩, k)
    else do
      let (moved, k) ← k.moveHandles handles mem
      match moved with
      | none => do
          let k ← k.kobjectUnref o
          .ok (⟨.noMemory, []⟩, k)
      | some moved => do
          let written := k.endpointWrite obj data moved mem
          let k ← written.2.kobjectUnref o
          .ok (⟨written.1, moved.toList⟩, k)

def komChannelWrite (k : Kom) (h : BitVec 64) (data : Buffer UInt8)
    (handles : Buffer (BitVec 64)) (mem : WriteMemory) : Except KomFault (WriteResult × Kom) := do
  let (target, k) ← k.resolve h kapWrite
  match target with
  | none => .ok (⟨.capDenied, []⟩, k)
  | some o => k.writeEndpoint o data handles mem

/-- A reader with a reference to the endpoint goes through the loop. -/
def readEndpoint (k : Kom) (o : Nat) (args : ReadArgs) : Except KomFault (ReadOutcome × Kom) :=
  match k.objects o with
  | none => .error .useAfterFree
  | some obj =>
    if obj.type ≠ .channel then do
      let k ← k.kobjectUnref o
      .ok (.returned ⟨.invalidType, args.dataSize, args.handleCount, [], []⟩, k)
    else
      match k.endpointRead obj args with
      | none => .ok (.blocked o, k)
      | some (result, k) => do
          let k ← k.kobjectUnref o
          .ok (.returned result, k)

def komChannelRead (k : Kom) (h : BitVec 64) (args : ReadArgs) :
    Except KomFault (ReadOutcome × Kom) := do
  let (target, k) ← k.resolve h kapRead
  match target with
  | none => .ok (.returned ⟨.capDenied, args.dataSize, args.handleCount, [], []⟩, k)
  | some o => k.readEndpoint o args

/-- The objects but for their counts, and the channels, are the same. -/
structure Frame (k k' : Kom) : Prop where
  channels : k'.channels = k.channels
  shape : ∀ o, (k'.objects o).map KObject.shape = (k.objects o).map KObject.shape

variable {k k' : Kom} {o : Nat}

lemma Frame.refl (k : Kom) : Frame k k := ⟨rfl, fun _ => rfl⟩

lemma Frame.trans (h : Frame k k') (h' : Frame k' k'') : Frame k k'' :=
  ⟨h'.channels.trans h.channels, fun o => (h'.shape o).trans (h.shape o)⟩

lemma frame_setObject (hobj : k.objects o = some obj) (hshape : obj'.shape = obj.shape) :
    Frame k (k.setObject o (some obj')) := by
  refine ⟨rfl, fun o' => ?_⟩
  by_cases heq : o' = o
  · subst heq
    simp [setObject, hobj, hshape]
  · simp [setObject, heq]

lemma frame_of_kobjectRef (hok : k.kobjectRef o = .ok k') : Frame k k' := by
  unfold kobjectRef at hok
  split at hok <;> cases hok
  case h_2 obj hobj => exact frame_setObject hobj rfl

lemma frame_of_kobjectUnref (hok : k.kobjectUnref o = .ok k') (hmore : k.refs o ≠ 1) :
    Frame k k' := by
  unfold kobjectUnref at hok
  split at hok
  · cases hok
  case h_2 obj hobj =>
    have hone : obj.refCount ≠ 1 := by
      intro heq
      simp [refs, hobj, heq] at hmore
    rw [if_neg hone] at hok
    split at hok <;> cases hok
    exact frame_setObject hobj rfl

variable {r : BitVec 64} {handles : Buffer (BitVec 64)} {mem : WriteMemory}

section
lemma transfer_entries (hok : k.transfer h = .ok (r, k')) (hfind : k.find h = some (idx, o)) :
    r = makeHandle (k.entries idx).caps (nextGeneration (k.entries idx).generation) idx ∧
      k'.entries = update k.entries idx
        ⟨some o, (k.entries idx).caps, nextGeneration (k.entries idx).generation⟩ ∧
      k'.freelist = k.freelist := by
  obtain ⟨hnone, -⟩ | ⟨idx', o', k1, k2, hfind', href, halloc, hunref⟩ := transfer_ok hok
  · cases hnone.symm.trans hfind
  cases hfind.symm.trans hfind'
  obtain ⟨hentries1, hfree1⟩ := table_of_kobjectRef href
  obtain ⟨hents, hfree⟩ := table_of_kobjectUnref hunref
  obtain ⟨⟨⟩, -⟩ | ⟨k3, hpub, href3⟩ := alloc_ok halloc
  obtain ⟨hentries3, hfree3⟩ := table_of_kobjectRef href3
  obtain ⟨top, freelist, hcons, hr, rfl⟩ := publish_eq_some.mp hpub
  cases hcons
  simp only [retire, update_self, update_idem] at hr hentries3 hfree3
  rw [hentries1] at hr hentries3
  exact ⟨hr, hents.trans hentries3, hfree.trans (hfree3.trans hfree1)⟩

/-- `transfer` of a valid handle returns, with one reference more. -/
lemma transfer_spec (hrefs : RefsOk k n) (hfind : k.find h = some (idx, o)) (hpos : 0 < n o)
    (hlt : n o + 2 < 2 ^ 32) :
    ∃ r k', k.transfer h = .ok (r, k') ∧ RefsOk k' (update n o (n o + 1)) ∧
      Frame k k' := by
  obtain ⟨k1, href, hrefs1, hentries1, hfree1, -⟩ := hrefs.kobjectRef hpos (by omega)
  have hself : update n o (n o + 1) o = n o + 1 := update_self ..
  obtain ⟨⟨r, k2⟩, hpub⟩ : ∃ result,
      (k1.retire idx).publish o (k.entries idx).caps = some result := ⟨_, rfl⟩
  obtain ⟨hobjects2, hchannels2⟩ := objects_of_publish hpub
  have hrefs2 : RefsOk k2 (update n o (n o + 1)) :=
    (hrefs1.congr rfl : RefsOk (k1.retire idx) _).congr hobjects2
  obtain ⟨k3, href3, hrefs3, -⟩ := hrefs2.kobjectRef (by rw [hself]; omega) (by rw [hself]; omega)
  rw [hself, update_idem] at hrefs3
  obtain ⟨k4, hunref, hrefs4, -⟩ := hrefs3.kobjectUnref (by rw [update_self]; omega)
  rw [update_self, update_idem] at hrefs4
  have hframe2 : Frame k1 k2 := ⟨hchannels2, fun o => by rw [hobjects2]; rfl⟩
  have hmore : k3.refs o ≠ 1 := by
    rw [hrefs3.count, update_self]
    omega
  refine ⟨r, k4, ?_, hrefs4, ((frame_of_kobjectRef href).trans hframe2).trans
    ((frame_of_kobjectRef href3).trans (frame_of_kobjectUnref hunref hmore))⟩
  simp only [transfer, hfind, href, alloc, hpub, href3, hunref, bind, Except.bind]

variable {hs rs : List (BitVec 64)} {moved : Option (Buffer (BitVec 64))}

lemma transferAll_cons (hok : k.transferAll (h :: hs) = .ok (rs, k')) :
    ∃ r k1 rest, k.transfer h = .ok (r, k1) ∧ k1.transferAll hs = .ok (rest, k') ∧
      rs = r :: rest := by
  obtain ⟨⟨r, k1⟩, hhead, hok⟩ := ok_of_bind hok
  obtain ⟨⟨rest, k2⟩, htail, ⟨⟩⟩ := ok_of_bind hok
  exact ⟨r, k1, rest, hhead, htail, rfl⟩

lemma transfer_kept (hok : k.transfer h = .ok (r, k')) (i : Nat) :
    (k'.entries i).obj = (k.entries i).obj ∧ (k'.entries i).caps = (k.entries i).caps := by
  cases hfind : k.find h with
  | none =>
    rw [(refused_of_find hfind).2.2.1] at hok
    cases hok
    exact ⟨rfl, rfl⟩
  | some entry =>
    obtain ⟨-, hents, -⟩ := transfer_entries hok hfind
    obtain ⟨-, -, -, hslot⟩ := find_eq_some.mp hfind
    rw [hents]
    rw [update_apply]
    split_ifs with hi
    · rw [hi]
      exact ⟨hslot.symm, rfl⟩
    · exact ⟨rfl, rfl⟩

lemma transferAll_kept (hok : k.transferAll hs = .ok (rs, k')) (i : Nat) :
    (k'.entries i).obj = (k.entries i).obj ∧ (k'.entries i).caps = (k.entries i).caps := by
  induction hs generalizing k rs with
  | nil =>
    cases hok
    exact ⟨rfl, rfl⟩
  | cons h hs ih =>
    obtain ⟨r, k1, rest, hhead, htail, -⟩ := transferAll_cons hok
    obtain ⟨hobj, hcaps⟩ := transfer_kept hhead i
    obtain ⟨hobj', hcaps'⟩ := ih htail
    exact ⟨hobj'.trans hobj, hcaps'.trans hcaps⟩

lemma TableOk.transfer (hk : TableOk k) (hok : k.transfer h = .ok (r, k')) : TableOk k' := by
  cases hfind : k.find h with
  | none =>
    rw [(refused_of_find hfind).2.2.1] at hok
    cases hok
    exact hk
  | some entry =>
    obtain ⟨-, hents, hfree⟩ := transfer_entries hok hfind
    have hslots : k'.slots = k.slots := funext fun i => (transfer_kept hok i).1
    refine ⟨?_, ?_, fun i hpos hi => ?_⟩
    · rw [hslots, hfree]
      exact hk.free
    · rw [hslots]
      exact hk.zero
    · rw [hents]
      rw [update_apply]
      split_ifs
      · exact nextGeneration_ne_zero _
      · exact hk.generation i hpos hi

lemma TableOk.transferAll (hk : TableOk k)
    (hok : k.transferAll hs = .ok (rs, k')) : TableOk k' := by
  induction hs generalizing k rs with
  | nil =>
    cases hok
    exact hk
  | cons h hs ih =>
    obtain ⟨r, k1, rest, hhead, htail, -⟩ := transferAll_cons hok
    exact ih (hk.transfer hhead) htail

section
variable (hok : k.moveHandles handles mem = .ok (moved, k'))
include hok

lemma moveHandles_ok :
    (k' = k ∧ moved = none ∧ handles.toList ≠ [] ∧ mem.moved = false) ∨
      (k' = k ∧ (∃ n, moved = some (.null n)) ∧ handles.toList = []) ∨
      ∃ rs, k.transferAll handles.toList = .ok (rs, k') ∧ moved = some (.items rs) ∧
        handles.toList ≠ [] := by
  unfold moveHandles at hok
  split at hok
  · cases hok
    exact .inr (.inl ⟨rfl, ⟨_, rfl⟩, rfl⟩)
  case h_2 hs =>
    split_ifs at hok with hempty hmem
    · cases hok
      exact .inr (.inl ⟨rfl, ⟨_, rfl⟩, hempty⟩)
    · obtain ⟨⟨rs, k1⟩, hall, ⟨⟩⟩ := ok_of_bind hok
      exact .inr (.inr ⟨rs, hall, rfl, hempty⟩)
    · cases hok
      exact .inl ⟨rfl, rfl, hempty, by simpa using hmem⟩

lemma moveHandles_kept (i : Nat) :
    (k'.entries i).obj = (k.entries i).obj ∧ (k'.entries i).caps = (k.entries i).caps := by
  obtain ⟨rfl, -⟩ | ⟨rfl, -⟩ | ⟨rs, hall, -⟩ := moveHandles_ok hok
  · exact ⟨rfl, rfl⟩
  · exact ⟨rfl, rfl⟩
  · exact transferAll_kept hall i

lemma TableOk.moveHandles (hk : TableOk k) : TableOk k' := by
  obtain ⟨rfl, -⟩ | ⟨rfl, -⟩ | ⟨rs, hall, -⟩ := moveHandles_ok hok
  · exact hk
  · exact hk
  · exact hk.transferAll hall

end

end

section
lemma endpointWrite_table (k : Kom) (ep : KObject) (data : Buffer UInt8)
    (handles : Buffer (BitVec 64)) (mem : WriteMemory) :
    (k.endpointWrite ep data handles mem).2.entries = k.entries ∧
      (k.endpointWrite ep data handles mem).2.freelist = k.freelist := by
  unfold endpointWrite
  dsimp only
  split <;> exact ⟨rfl, rfl⟩

variable {outcome : ReadOutcome}

lemma endpointRead_table (hok : k.endpointRead ep args = some (result, k')) :
    k'.entries = k.entries ∧ k'.freelist = k.freelist := by
  unfold endpointRead at hok
  split at hok
  · dsimp only at hok
    split at hok
    · split_ifs at hok <;> cases hok <;> exact ⟨rfl, rfl⟩
    · split_ifs at hok
      cases hok
      exact ⟨rfl, rfl⟩
  · cases hok
    exact ⟨rfl, rfl⟩

lemma resolve_table (hok : k.resolve h reqCaps = .ok (target, k')) :
    k'.entries = k.entries ∧ k'.freelist = k.freelist := by
  obtain ⟨-, rfl⟩ | ⟨_, _, -, -, -, href⟩ := resolve_ok hok
  · exact ⟨rfl, rfl⟩
  · exact table_of_kobjectRef href

lemma readEndpoint_table (hok : k.readEndpoint o args = .ok (outcome, k')) :
    k'.entries = k.entries ∧ k'.freelist = k.freelist := by
  unfold readEndpoint at hok
  split at hok
  · cases hok
  case h_2 obj _ =>
    split at hok
    · obtain ⟨k1, hunref, ⟨⟩⟩ := ok_of_bind hok
      exact table_of_kobjectUnref hunref
    · split at hok
      · cases hok
        exact ⟨rfl, rfl⟩
      case h_2 result k1 hread =>
        obtain ⟨k2, hunref, ⟨⟩⟩ := ok_of_bind hok
        obtain ⟨hents, hfree⟩ := table_of_kobjectUnref hunref
        obtain ⟨hentries1, hfree1⟩ := endpointRead_table hread
        exact ⟨hents.trans hentries1, hfree.trans hfree1⟩

lemma komChannelRead_table (hok : k.komChannelRead h args = .ok (outcome, k')) :
    k'.entries = k.entries ∧ k'.freelist = k.freelist := by
  obtain ⟨⟨target, k1⟩, hresolve, hok⟩ := ok_of_bind hok
  obtain ⟨hents, hfree⟩ := resolve_table hresolve
  cases target with
  | none =>
    cases hok
    exact ⟨hents, hfree⟩
  | some o =>
    obtain ⟨hentries1, hfree1⟩ := readEndpoint_table hok
    exact ⟨hentries1.trans hents, hfree1.trans hfree⟩

variable {data : Buffer UInt8} {result : WriteResult} {outA outB : Bool}

section
variable (hok : k.writeEndpoint o data handles mem = .ok (result, k'))
include hok

/-- What a write does once it has a reference to the object. -/
lemma writeEndpoint_ok :
    ∃ obj, k.objects o = some obj ∧
      ((obj.type ≠ .channel ∧ result = ⟨.invalidType, []⟩ ∧ k.kobjectUnref o = .ok k') ∨
        (obj.type = .channel ∧ k.moveHandles handles mem = .ok (none, k) ∧
          result = ⟨.noMemory, []⟩ ∧ k.kobjectUnref o = .ok k') ∨
        obj.type = .channel ∧ ∃ sent k1, k.moveHandles handles mem = .ok (some sent, k1) ∧
          result = ⟨(k1.endpointWrite obj data sent mem).1, sent.toList⟩ ∧
          (k1.endpointWrite obj data sent mem).2.kobjectUnref o = .ok k') := by
  unfold writeEndpoint at hok
  split at hok
  · cases hok
  case h_2 obj hobj =>
    refine ⟨obj, hobj, ?_⟩
    split_ifs at hok with htype
    · obtain ⟨k1, hunref, ⟨⟩⟩ := ok_of_bind hok
      exact .inl ⟨htype, rfl, hunref⟩
    · obtain ⟨⟨moved, k1⟩, hmove, hok⟩ := ok_of_bind hok
      cases moved with
      | none =>
        obtain ⟨k2, hunref, ⟨⟩⟩ := ok_of_bind hok
        obtain ⟨rfl, -⟩ | ⟨-, ⟨n, hsome⟩, -⟩ | ⟨rs, -, hsome, -⟩ := moveHandles_ok hmove
        rotate_left
        · cases hsome
        · cases hsome
        exact .inr (.inl ⟨not_not.mp htype, hmove, rfl, hunref⟩)
      | some sent =>
        obtain ⟨k2, hunref, ⟨⟩⟩ := ok_of_bind hok
        exact .inr (.inr ⟨not_not.mp htype, sent, k1, hmove, rfl, hunref⟩)

lemma writeEndpoint_kept (i : Nat) :
    (k'.entries i).obj = (k.entries i).obj ∧ (k'.entries i).caps = (k.entries i).caps := by
  obtain ⟨obj, -, ⟨-, -, hunref⟩ | ⟨-, -, -, hunref⟩ | ⟨-, sent, k1, hmove, -, hunref⟩⟩ :=
    writeEndpoint_ok hok
  · rw [(table_of_kobjectUnref hunref).1]
    exact ⟨rfl, rfl⟩
  · rw [(table_of_kobjectUnref hunref).1]
    exact ⟨rfl, rfl⟩
  · rw [(table_of_kobjectUnref hunref).1, (endpointWrite_table ..).1]
    exact moveHandles_kept hmove i

lemma TableOk.writeEndpoint (hk : TableOk k) : TableOk k' := by
  obtain ⟨obj, -, ⟨-, -, hunref⟩ | ⟨-, -, -, hunref⟩ | ⟨-, sent, k1, hmove, -, hunref⟩⟩ :=
    writeEndpoint_ok hok
  · obtain ⟨hents, hfree⟩ := table_of_kobjectUnref hunref
    exact hk.congr hents hfree
  · obtain ⟨hents, hfree⟩ := table_of_kobjectUnref hunref
    exact hk.congr hents hfree
  · obtain ⟨hents, hfree⟩ := table_of_kobjectUnref hunref
    obtain ⟨hentries1, hfree1⟩ := k1.endpointWrite_table obj data sent mem
    exact (hk.moveHandles hmove).congr (hents.trans hentries1) (hfree.trans hfree1)

end

section
variable (hok : k.komChannelWrite h data handles mem = .ok (result, k'))
include hok

lemma komChannelWrite_kept (i : Nat) :
    (k'.entries i).obj = (k.entries i).obj ∧ (k'.entries i).caps = (k.entries i).caps := by
  obtain ⟨⟨target, k1⟩, hresolve, hok⟩ := ok_of_bind hok
  rw [← (resolve_table hresolve).1]
  cases target with
  | none =>
    cases hok
    exact ⟨rfl, rfl⟩
  | some o => exact writeEndpoint_kept hok i

lemma TableOk.komChannelWrite (hk : TableOk k) : TableOk k' := by
  obtain ⟨⟨target, k1⟩, hresolve, hok⟩ := ok_of_bind hok
  obtain ⟨hents, hfree⟩ := resolve_table hresolve
  cases target with
  | none =>
    cases hok
    exact hk.congr hents hfree
  | some o => exact (hk.congr hents hfree).writeEndpoint hok

end

lemma TableOk.alloc (hk : TableOk k) (hok : k.alloc (some o) caps = .ok (r, k')) : TableOk k' := by
  obtain ⟨-, -, rfl⟩ | ⟨k1, hpub, href⟩ := alloc_ok hok
  · exact hk
  · obtain ⟨hents, hfree⟩ := table_of_kobjectRef href
    exact (hk.publish hpub).1.congr hents hfree

lemma TableOk.dup (hk : TableOk k) (hok : k.dup h caps = .ok (r, k')) : TableOk k' := by
  obtain ⟨-, rfl⟩ | ⟨idx, o, -, -, halloc⟩ := dup_ok hok
  · exact hk
  · exact hk.alloc halloc

lemma TableOk.close (hk : TableOk k) (hok : k.close h = .ok k') : TableOk k' := by
  obtain ⟨-, rfl⟩ | ⟨idx, o, hfind, hunref⟩ := close_ok hok
  · exact hk
  · obtain ⟨-, hbd, -, hslot⟩ := find_eq_some.mp hfind
    obtain ⟨hents, hfree⟩ := table_of_kobjectUnref hunref
    exact (hk.retire hbd (by rw [hslot]; exact Option.some_ne_none o)).congr hents hfree

section
variable {mem : Option ChannelMemory} {result : CreateResult}
  (hok : k.komChannelCreate outA outB mem = .ok (result, k'))
include hok

lemma komChannelCreate_ok :
    (k' = k ∧ result.status ≠ .ok ∧ result.a = 0 ∧ result.b = 0) ∨
      ∃ new k1 k2 k3, mem = some new ∧ result.status = .ok ∧
        (k.kchannelCreate new).alloc (some new.a) channelCaps = .ok (result.a, k1) ∧
        k1.alloc (some new.b) channelCaps = .ok (result.b, k2) ∧
        k2.kobjectUnref new.a = .ok k3 ∧ k3.kobjectUnref new.b = .ok k' := by
  unfold komChannelCreate at hok
  split at hok
  · cases hok
    exact .inl ⟨rfl, by decide, rfl, rfl⟩
  · split at hok
    · cases hok
      exact .inl ⟨rfl, by decide, rfl, rfl⟩
    case h_2 new =>
      obtain ⟨⟨a, k1⟩, ha, hok⟩ := ok_of_bind hok
      obtain ⟨⟨b, k2⟩, hb, hok⟩ := ok_of_bind hok
      obtain ⟨k3, hunref, hok⟩ := ok_of_bind hok
      obtain ⟨k4, hunref', ⟨⟩⟩ := ok_of_bind hok
      exact .inr ⟨new, k1, k2, k3, rfl, rfl, ha, hb, hunref, hunref'⟩

lemma TableOk.komChannelCreate (hk : TableOk k) : TableOk k' := by
  obtain ⟨rfl, -⟩ | ⟨new, k1, k2, k3, -, -, ha, hb, hunref, hunref'⟩ := komChannelCreate_ok hok
  · exact hk
  have hk1 : TableOk (k.kchannelCreate new) := hk.congr rfl rfl
  obtain ⟨hents, hfree⟩ := table_of_kobjectUnref hunref
  obtain ⟨hentries', hfree'⟩ := table_of_kobjectUnref hunref'
  exact ((hk1.alloc ha).alloc hb).congr (hentries'.trans hents) (hfree'.trans hfree)

end

end

end Kom

/-- The two handles name the same entry. -/
def sameEntry (h h' : BitVec 64) : Bool :=
  handleIndex h == handleIndex h' && handleGeneration h == handleGeneration h'

/-- The handles for which a write has made new ones. -/
def movedAway (handles moved : List (BitVec 64)) : List (BitVec 64) :=
  ((handles.zip moved).filter fun p => p.2 != 0).map Prod.fst

/-- The table with its objects and channels, the readers that are blocked at each endpoint, and
the handles that were returned to callers and not moved away or closed since. -/
structure System where
  kom : Kom
  sleepers : Nat → Nat
  owned : List (BitVec 64)

/-- The calls; a blocked reader goes on with `wakeReader`. -/
inductive Syscall where
  | komDuplicate (h : BitVec 64) (requestedCaps : BitVec 16)
  | komChannelCreate (outA outB : Bool) (mem : Option ChannelMemory)
  | komChannelWrite (h : BitVec 64) (data : Buffer UInt8) (handles : Buffer (BitVec 64))
      (mem : WriteMemory)
  | komChannelRead (h : BitVec 64) (args : ReadArgs)
  | wakeReader (o : Nat) (args : ReadArgs)
  | komClose (h : BitVec 64)
  deriving DecidableEq

namespace System

def boot (channels : Nat → ChannelState) : System :=
  ⟨Kom.init (fun _ => none) channels, fun _ => 0, []⟩

/-- New objects are at addresses that are not in use, and only blocked readers go on. -/
def Allowed (s : System) : Syscall → Prop
  | .komChannelCreate _ _ (some mem) => s.kom.objects mem.a = none ∧ s.kom.objects mem.b = none ∧
      mem.a ≠ mem.b ∧ (s.kom.channels mem.state).refCount = 0
  | .wakeReader o _ => 0 < s.sleepers o
  | _ => True

/-- The handles of the callers after a write or a close. -/
def without (s : System) (gone : List (BitVec 64)) : List (BitVec 64) :=
  s.owned.filter fun v => !gone.any (sameEntry v)

/-- The handles that a reader has been given. -/
def received (s : System) (result : ReadResult) : List (BitVec 64) := result.handles ++ s.owned

def exec (s : System) : Syscall → Except KomFault System
  | .komDuplicate h requestedCaps => do
      let (r, k) ← s.kom.komDuplicate h requestedCaps
      .ok { s with kom := k, owned := r :: s.owned }
  | .komChannelCreate outA outB mem => do
      let (result, k) ← s.kom.komChannelCreate outA outB mem
      .ok { s with kom := k, owned := result.a :: result.b :: s.owned }
  | .komChannelWrite h data handles mem => do
      let (result, k) ← s.kom.komChannelWrite h data handles mem
      .ok { s with kom := k, owned := s.without (movedAway handles.toList result.moved) }
  | .komChannelRead h args => do
      let (outcome, k) ← s.kom.komChannelRead h args
      match outcome with
      | .returned result => .ok { s with kom := k, owned := s.received result }
      | .blocked o =>
        .ok { s with kom := k, sleepers := update s.sleepers o (s.sleepers o + 1) }
  | .wakeReader o args => do
      let (outcome, k) ← s.kom.readEndpoint o args
      match outcome with
      | .returned result =>
        .ok ⟨k, update s.sleepers o (s.sleepers o - 1), s.received result⟩
      | .blocked _ => .ok { s with kom := k }
  | .komClose h => do
      let k ← s.kom.komClose h
      .ok { s with kom := k, owned := s.without [h] }

/-- A call that can be made and that meets a condition. -/
def Step (cond : System → Syscall → Prop) (s : System) (call : Syscall) (s' : System) : Prop :=
  s.Allowed call ∧ cond s call ∧ s.exec call = .ok s'

section
variable {s s' : System}

lemma exec_komDuplicate (hexec : s.exec (.komDuplicate h requestedCaps) = .ok s') :
    ∃ r, s.kom.komDuplicate h requestedCaps = .ok (r, s'.kom) ∧ s'.sleepers = s.sleepers ∧
      s'.owned = r :: s.owned := by
  obtain ⟨⟨r, k⟩, hok, ⟨⟩⟩ := ok_of_bind hexec
  exact ⟨r, hok, rfl, rfl⟩

lemma exec_komChannelCreate (hexec : s.exec (.komChannelCreate outA outB mem) = .ok s') :
    ∃ result, s.kom.komChannelCreate outA outB mem = .ok (result, s'.kom) ∧
      s'.sleepers = s.sleepers ∧ s'.owned = result.a :: result.b :: s.owned := by
  obtain ⟨⟨result, k⟩, hok, ⟨⟩⟩ := ok_of_bind hexec
  exact ⟨result, hok, rfl, rfl⟩

lemma exec_komChannelWrite (hexec : s.exec (.komChannelWrite h data handles mem) = .ok s') :
    ∃ result, s.kom.komChannelWrite h data handles mem = .ok (result, s'.kom) ∧
      s'.sleepers = s.sleepers ∧
      s'.owned = s.without (movedAway handles.toList result.moved) := by
  obtain ⟨⟨result, k⟩, hok, ⟨⟩⟩ := ok_of_bind hexec
  exact ⟨result, hok, rfl, rfl⟩

lemma exec_komChannelRead (hexec : s.exec (.komChannelRead h args) = .ok s') :
    ∃ outcome, s.kom.komChannelRead h args = .ok (outcome, s'.kom) ∧
      ((∃ result, outcome = .returned result ∧ s'.sleepers = s.sleepers ∧
          s'.owned = s.received result) ∨
        ∃ o, outcome = .blocked o ∧ s'.owned = s.owned ∧
          s'.sleepers = update s.sleepers o (s.sleepers o + 1)) := by
  obtain ⟨⟨outcome, k⟩, hok, heq⟩ := ok_of_bind hexec
  cases outcome with
  | returned result =>
    cases heq
    exact ⟨_, hok, .inl ⟨result, rfl, rfl, rfl⟩⟩
  | blocked o =>
    cases heq
    exact ⟨_, hok, .inr ⟨o, rfl, rfl, rfl⟩⟩

lemma exec_wakeReader (hexec : s.exec (.wakeReader o args) = .ok s') :
    ∃ outcome, s.kom.readEndpoint o args = .ok (outcome, s'.kom) ∧
      ((∃ result, outcome = .returned result ∧ s'.owned = s.received result ∧
          s'.sleepers = update s.sleepers o (s.sleepers o - 1)) ∨
        ∃ o', outcome = .blocked o' ∧ s'.sleepers = s.sleepers ∧ s'.owned = s.owned) := by
  obtain ⟨⟨outcome, k⟩, hok, heq⟩ := ok_of_bind hexec
  cases outcome with
  | returned result =>
    cases heq
    exact ⟨_, hok, .inl ⟨result, rfl, rfl, rfl⟩⟩
  | blocked o' =>
    cases heq
    exact ⟨_, hok, .inr ⟨o', rfl, rfl, rfl⟩⟩

lemma exec_komClose (hexec : s.exec (.komClose h) = .ok s') :
    s.kom.komClose h = .ok s'.kom ∧ s'.sleepers = s.sleepers ∧ s'.owned = s.without [h] := by
  obtain ⟨k, hok, ⟨⟩⟩ := ok_of_bind hexec
  exact ⟨hok, rfl, rfl⟩

lemma table_of_exec (hs : s.kom.TableOk) (hexec : s.exec call = .ok s') : s'.kom.TableOk := by
  cases call with
  | komDuplicate h requestedCaps =>
    obtain ⟨r, hok, -⟩ := exec_komDuplicate hexec
    exact hs.dup hok
  | komChannelCreate outA outB mem =>
    obtain ⟨result, hok, -⟩ := exec_komChannelCreate hexec
    exact hs.komChannelCreate hok
  | komChannelWrite h data handles mem =>
    obtain ⟨result, hok, -⟩ := exec_komChannelWrite hexec
    exact hs.komChannelWrite hok
  | komChannelRead h args =>
    obtain ⟨outcome, hok, -⟩ := exec_komChannelRead hexec
    obtain ⟨hents, hfree⟩ := Kom.komChannelRead_table hok
    exact hs.congr hents hfree
  | wakeReader o args =>
    obtain ⟨outcome, hok, -⟩ := exec_wakeReader hexec
    obtain ⟨hents, hfree⟩ := Kom.readEndpoint_table hok
    exact hs.congr hents hfree
  | komClose h =>
    obtain ⟨hok, -⟩ := exec_komClose hexec
    exact hs.close hok

end

instance (s : System) (call : Syscall) : Decidable (s.Allowed call) := by
  unfold Allowed
  split <;> infer_instance

def step? (cond : System → Syscall → Prop) [∀ s call, Decidable (cond s call)] (s : System)
    (call : Syscall) : Option System :=
  if s.Allowed call ∧ cond s call then (s.exec call).toOption else none

lemma step_of_step? {cond : System → Syscall → Prop} [∀ s call, Decidable (cond s call)]
    (h : s.step? cond call = some s') : Step cond s call s' := by
  obtain ⟨hcond, h⟩ := then_of_ite h
  exact ⟨hcond.1, hcond.2, ok_of_toOption h⟩

end System

end Singularity.ObjectManager
