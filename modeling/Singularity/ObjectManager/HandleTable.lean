import Singularity.Foundation.Runs
import Singularity.Foundation.Slots
import Mathlib.Tactic.NormNum

/-!
# Kernel objects and the handle table

An object lives at an address; the destructor of an endpoint drops the messages queued for it. A
handle packs capability bits, a generation and an index. The free list of the table is a stack,
with the cell at `freelist_top - 1` first. `find`, `publish` and `retire` are the sections that
the source runs under the lock of the table.
-/

namespace Singularity.ObjectManager

open Foundation Function Nat

def kapRead : BitVec 16 := 1 <<< 15
def kapWrite : BitVec 16 := 1 <<< 14
def kapDup : BitVec 16 := 1 <<< 11
def kapXfer : BitVec 16 := 1 <<< 10

inductive KObjectType where
  | process
  | thread
  | memoryObject
  | event
  | interrupt
  | timer
  | channel
  | port
  | blob
  | container
  | device
  | blockDevice
  | charDevice
  | netDevice
  | gpuDevice
  deriving DecidableEq

/-- An object; `state` and `myId` are those of a channel endpoint. -/
structure KObject where
  type : KObjectType
  refCount : BitVec 32
  state : Nat
  myId : Bool
  deriving DecidableEq

structure KMessage where
  data : List UInt8
  handles : List (BitVec 64)
  deriving DecidableEq

/-- The state that the two endpoints of a channel share: the messages for each of them. -/
structure ChannelState where
  queue : Bool → List KMessage
  closed : Bool → Bool
  refCount : BitVec 32

structure HandleEntry where
  obj : Option Nat
  caps : BitVec 16
  generation : BitVec 16
  deriving DecidableEq

/-- The handle table, the objects that exist and the channels. -/
structure Kom where
  entries : Nat → HandleEntry
  freelist : List Nat
  objects : Nat → Option KObject
  channels : Nat → ChannelState

/-- Accesses to deleted objects and the panic of `kobject_unref`. -/
inductive KomFault where
  | useAfterFree
  | refCountUnderflow
  deriving DecidableEq

def capacity : Nat := 4096

/-- The fields of a handle. -/
def handleIndex (h : BitVec 64) : Nat := (h &&& 0xFFFFFFFF).toNat
def handleGeneration (h : BitVec 64) : BitVec 16 := (h >>> 32).setWidth 16
def handleCaps (h : BitVec 64) : BitVec 16 := (h >>> 48).setWidth 16

def makeHandle (caps generation : BitVec 16) (idx : Nat) : BitVec 64 :=
  (caps.setWidth 64 <<< 48) ||| (generation.setWidth 64 <<< 32) ||| BitVec.ofNat 64 idx

/-- The generation of a slot after its entry was retired: zero is skipped. -/
def nextGeneration (generation : BitVec 16) : BitVec 16 :=
  if generation + 1 = 0 then 1 else generation + 1

/-- The destructor of an endpoint. -/
def ChannelState.closeEndpoint (c : ChannelState) (myId : Bool) : ChannelState where
  queue := update c.queue myId []
  closed := update c.closed myId true
  refCount := c.refCount - 1

namespace Kom

def init (objects : Nat → Option KObject) (channels : Nat → ChannelState) : Kom where
  entries i := ⟨none, 0, if 0 < i ∧ i < capacity then 1 else 0⟩
  freelist := List.range' 1 (capacity - 1)
  objects := objects
  channels := channels

def setObject (k : Kom) (o : Nat) (obj : Option KObject) : Kom :=
  { k with objects := update k.objects o obj }

def delete (k : Kom) (o : Nat) (obj : KObject) : Kom :=
  let k := k.setObject o none
  if obj.type = .channel then
    { k with
      channels := update k.channels obj.state
        ((k.channels obj.state).closeEndpoint obj.myId) }
  else k

def kobjectRef (k : Kom) (o : Nat) : Except KomFault Kom :=
  match k.objects o with
  | none => .error .useAfterFree
  | some obj => .ok (k.setObject o (some { obj with refCount := obj.refCount + 1 }))

def kobjectUnref (k : Kom) (o : Nat) : Except KomFault Kom :=
  match k.objects o with
  | none => .error .useAfterFree
  | some obj =>
    if obj.refCount = 1 then .ok (k.delete o obj)
    else if obj.refCount = 0 then .error .refCountUnderflow
    else .ok (k.setObject o (some { obj with refCount := obj.refCount - 1 }))

/-- The index and the object of the entry that a handle names. -/
def find (k : Kom) (h : BitVec 64) : Option (Nat × Nat) :=
  let idx := handleIndex h
  if idx = 0 ∨ capacity ≤ idx then none
  else if (k.entries idx).generation ≠ handleGeneration h then none
  else (k.entries idx).obj.map fun o => (idx, o)

/-- Fill the slot on top of the free list. -/
def publish (k : Kom) (o : Nat) (caps : BitVec 16) : Option (BitVec 64 × Kom) :=
  match k.freelist with
  | [] => none
  | idx :: freelist =>
    let generation := (k.entries idx).generation
    some (makeHandle caps generation idx,
      { k with
        freelist := freelist
        entries := update k.entries idx ⟨some o, caps, generation⟩ })

/-- Empty a slot and put it on the free list. -/
def retire (k : Kom) (idx : Nat) : Kom :=
  { k with
    entries := update k.entries idx
      ⟨none, 0, nextGeneration (k.entries idx).generation⟩
    freelist := idx :: k.freelist }

def alloc (k : Kom) (obj : Option Nat) (caps : BitVec 16) : Except KomFault (BitVec 64 × Kom) :=
  match obj with
  | none => .ok (0, k)
  | some o =>
    match k.publish o caps with
    | none => .ok (0, k)
    | some (h, k) => do
        let k ← k.kobjectRef o
        .ok (h, k)

def resolve (k : Kom) (h : BitVec 64) (reqCaps : BitVec 16) :
    Except KomFault (Option Nat × Kom) :=
  if handleCaps h &&& reqCaps ≠ reqCaps then .ok (none, k)
  else
    match k.find h with
    | none => .ok (none, k)
    | some (idx, o) =>
      if (k.entries idx).caps &&& reqCaps ≠ reqCaps then .ok (none, k)
      else do
        let k ← k.kobjectRef o
        .ok (some o, k)

def dup (k : Kom) (h : BitVec 64) (newCaps : BitVec 16) : Except KomFault (BitVec 64 × Kom) :=
  match k.find h with
  | none => .ok (0, k)
  | some (idx, o) =>
    if (k.entries idx).caps &&& newCaps ≠ newCaps then .ok (0, k)
    else k.alloc (some o) newCaps

def transfer (k : Kom) (h : BitVec 64) : Except KomFault (BitVec 64 × Kom) :=
  match k.find h with
  | none => .ok (0, k)
  | some (idx, o) => do
      let caps := (k.entries idx).caps
      let k ← k.kobjectRef o
      let (newH, k) ← (k.retire idx).alloc (some o) caps
      let k ← k.kobjectUnref o
      .ok (newH, k)

def close (k : Kom) (h : BitVec 64) : Except KomFault Kom :=
  match k.find h with
  | none => .ok k
  | some (idx, o) => (k.retire idx).kobjectUnref o

/-- The objects in the slots. -/
def slots (k : Kom) (i : Nat) : Option Nat := (k.entries i).obj

/-- The number of entries that hold an object. -/
def holders (k : Kom) (o : Nat) : Nat := slotCount capacity k.slots fun x => x == some o

/-- The part of the state that only depends on the operations of the table. -/
structure TableOk (k : Kom) : Prop where
  free : FreeSlots capacity k.slots k.freelist
  zero : k.slots 0 = none
  generation : ∀ i, 0 < i → i < capacity → (k.entries i).generation ≠ 0

end Kom

section
variable (caps generation : BitVec 16)

lemma handleIndex_makeHandle (hidx : idx < 2 ^ 32) :
    handleIndex (makeHandle caps generation idx) = idx := by
  have hmask : (0xFFFFFFFF : BitVec 64).toNat = 2 ^ 32 - 1 := rfl
  rw [handleIndex, BitVec.toNat_and, hmask, and_two_pow_sub_one_eq_mod, makeHandle,
    BitVec.toNat_or, BitVec.toNat_or, or_mod_two_pow, or_mod_two_pow]
  have hcaps : (caps.setWidth 64 <<< 48).toNat % 2 ^ 32 = 0 := by
    rw [BitVec.toNat_shiftLeft, Nat.shiftLeft_eq]
    omega
  have hgen : (generation.setWidth 64 <<< 32).toNat % 2 ^ 32 = 0 := by
    rw [BitVec.toNat_shiftLeft, Nat.shiftLeft_eq]
    omega
  have hmod : (BitVec.ofNat 64 idx).toNat % 2 ^ 32 = idx := by
    rw [BitVec.toNat_ofNat]
    omega
  rw [hcaps, hgen, hmod, Nat.or_self, Nat.zero_or]

lemma handleGeneration_makeHandle (hidx : idx < 2 ^ 32) :
    handleGeneration (makeHandle caps generation idx) = generation := by
  apply BitVec.eq_of_getLsbD_eq
  intro i hi
  have hlow : idx.testBit (32 + i) = false :=
    testBit_lt_two_pow (hidx.trans_le (Nat.pow_le_pow_right (by decide) (by omega)))
  simp only [handleGeneration, makeHandle, BitVec.getLsbD_setWidth, BitVec.getLsbD_ushiftRight,
    BitVec.getLsbD_or, BitVec.getLsbD_shiftLeft, BitVec.getLsbD_ofNat, hlow]
  simp [hi, show i < 64 by omega, show 32 + i < 64 by omega, show 32 + i < 48 by omega]

lemma handleCaps_makeHandle (hidx : idx < 2 ^ 32) :
    handleCaps (makeHandle caps generation idx) = caps := by
  apply BitVec.eq_of_getLsbD_eq
  intro i hi
  have hlow : idx.testBit (48 + i) = false :=
    testBit_lt_two_pow (hidx.trans_le (Nat.pow_le_pow_right (by decide) (by omega)))
  have hgen : generation.getLsbD (48 + i - 32) = false := BitVec.getLsbD_of_ge _ _ (by omega)
  simp only [handleCaps, makeHandle, BitVec.getLsbD_setWidth, BitVec.getLsbD_ushiftRight,
    BitVec.getLsbD_or, BitVec.getLsbD_shiftLeft, BitVec.getLsbD_ofNat, hlow, hgen]
  simp [hi, show i < 64 by omega, show 48 + i < 64 by omega]

end

lemma nextGeneration_ne_zero (generation : BitVec 16) : nextGeneration generation ≠ 0 := by
  unfold nextGeneration
  split
  · decide
  case isFalse hne => exact hne

lemma nextGeneration_toNat (h : generation ≠ 0xFFFF) :
    (nextGeneration generation).toNat = generation.toNat + 1 := by
  have hlt : generation.toNat + 1 < 2 ^ 16 := by
    have hne : generation.toNat ≠ 0xFFFF := fun heq => h (BitVec.eq_of_toNat_eq heq)
    have := generation.isLt
    omega
  have hsum : (generation + 1).toNat = generation.toNat + 1 := by
    rw [BitVec.toNat_add]
    exact mod_eq_of_lt hlt
  rw [nextGeneration, if_neg, hsum]
  intro h0
  rw [h0] at hsum
  simp at hsum

namespace Kom

variable {k k' : Kom} {o : Nat}

lemma find_eq_some : k.find h = some (idx, o) ↔
    handleIndex h = idx ∧ (0 < idx ∧ idx < capacity) ∧
      (k.entries idx).generation = handleGeneration h ∧ k.slots idx = some o := by
  unfold find slots
  dsimp only
  split
  case isTrue hbd =>
    simp only [reduceCtorEq, false_iff]
    rintro ⟨rfl, hidx, -⟩
    omega
  case isFalse hbd =>
    split
    case isTrue hgen =>
      simp only [reduceCtorEq, false_iff]
      rintro ⟨rfl, -, heq, -⟩
      exact hgen heq
    case isFalse hgen =>
      rw [not_not] at hgen
      constructor
      · intro hmap
        obtain ⟨o', ho', ⟨⟩⟩ := Option.map_eq_some_iff.mp hmap
        exact ⟨rfl, by omega, hgen, ho'⟩
      · rintro ⟨rfl, -, -, ho⟩
        rw [ho]
        rfl

section
variable (hents : k'.entries = k.entries)
include hents

/-- `find` reads the entries only. -/
lemma find_congr : k'.find h = k.find h := by
  simp only [find, hents]

lemma slots_congr : k'.slots = k.slots := by
  funext i
  rw [slots, slots, hents]

lemma holders_congr (o : Nat) : k'.holders o = k.holders o := by
  rw [holders, holders, slots_congr hents]

end

lemma TableOk.congr (hk : TableOk k) (hents : k'.entries = k.entries)
    (hfreelist : k'.freelist = k.freelist) : TableOk k' := by
  constructor
  · rw [slots_congr hents, hfreelist]
    exact hk.free
  · rw [slots_congr hents]
    exact hk.zero
  · rw [hents]
    exact hk.generation

lemma slots_update (k : Kom) (idx : Nat) (entry : HandleEntry) :
    (fun i => (update k.entries idx entry i).obj) =
      update k.slots idx entry.obj := by
  funext i
  by_cases hi : i = idx
  · subst hi
    simp
  · simp [hi, slots]

lemma slots_retire (k : Kom) (idx : Nat) :
    (k.retire idx).slots = update k.slots idx none := slots_update k idx _

lemma publish_eq_some : k.publish o caps = some (h, k') ↔
    ∃ idx freelist, k.freelist = idx :: freelist ∧
      h = makeHandle caps (k.entries idx).generation idx ∧
      k' = { k with
        freelist := freelist
        entries := update k.entries idx ⟨some o, caps, (k.entries idx).generation⟩ } := by
  unfold publish
  split
  case h_1 heq => simp [heq]
  case h_2 idx freelist heq =>
    simp only [heq, Option.some.injEq, Prod.mk.injEq, List.cons.injEq]
    constructor
    · rintro ⟨rfl, rfl⟩
      exact ⟨idx, freelist, ⟨rfl, rfl⟩, rfl, rfl⟩
    · rintro ⟨_, _, ⟨rfl, rfl⟩, rfl, rfl⟩
      exact ⟨rfl, rfl⟩

lemma TableOk.publish (hk : TableOk k) (hpub : k.publish o caps = some (h, k')) :
    TableOk k' ∧ (0 < handleIndex h ∧ handleIndex h < capacity) ∧
      k'.slots = update k.slots (handleIndex h) (some o) ∧
      k.slots (handleIndex h) = none ∧
      h = makeHandle caps (k.entries (handleIndex h)).generation (handleIndex h) := by
  obtain ⟨idx, freelist, hfree, rfl, rfl⟩ := publish_eq_some.mp hpub
  have hmem : idx ∈ k.freelist := hfree ▸ List.mem_cons_self
  obtain ⟨hbd, hempty⟩ := (hk.free.mem_iff idx).mp hmem
  have hindex : handleIndex (makeHandle caps (k.entries idx).generation idx) = idx := by
    apply handleIndex_makeHandle
    unfold capacity at hbd
    omega
  rw [hindex]
  have hslots := slots_update k idx ⟨some o, caps, (k.entries idx).generation⟩
  refine ⟨⟨?_, ?_, ?_⟩, hbd, hslots, hempty, rfl⟩
  · have htake := (hfree ▸ hk.free).take o
    rwa [← hslots] at htake
  · change (fun i => (update k.entries idx _ i).obj) 0 = none
    rw [hslots, update_of_ne (by omega)]
    exact hk.zero
  · intro i hpos hi
    by_cases heq : i = idx
    · subst heq
      simpa using hk.generation i hpos hi
    · simpa [heq] using hk.generation i hpos hi

lemma TableOk.retire (hk : TableOk k) (hbd : 0 < idx ∧ idx < capacity)
    (hfull : k.slots idx ≠ none) : TableOk (k.retire idx) := by
  refine ⟨?_, ?_, ?_⟩
  · rw [slots_retire]
    exact hk.free.release hbd hfull
  · rw [slots_retire, update_of_ne (by omega)]
    exact hk.zero
  · intro i hpos hi
    by_cases heq : i = idx
    · subst heq
      simpa [Kom.retire] using nextGeneration_ne_zero _
    · simpa [Kom.retire, heq] using hk.generation i hpos hi

lemma objects_of_publish (hpub : k.publish o caps = some (h, k')) :
    k'.objects = k.objects ∧ k'.channels = k.channels := by
  obtain ⟨-, -, -, -, rfl⟩ := publish_eq_some.mp hpub
  exact ⟨rfl, rfl⟩

lemma holders_update (hidx : idx < capacity) (hslots : k'.slots = update k.slots idx x) (o : Nat) :
    k'.holders o + (if k.slots idx = some o then 1 else 0) =
      k.holders o + if x = some o then 1 else 0 := by
  have hcnt : slotCount capacity (update k.slots idx x) (· == some o) +
      (k.slots idx == some o).toNat =
        slotCount capacity k.slots (· == some o) + (x == some o).toNat :=
    slotCount_update hidx x _
  have htoNat (x : Option Nat) : (x == some o).toNat = if x = some o then 1 else 0 := by
    by_cases hx : x = some o <;> simp [hx]
  rw [htoNat, htoNat] at hcnt
  rwa [holders, holders, hslots]

lemma holders_retire (hidx : idx < capacity) (hslot : k.slots idx = some o) (o' : Nat) :
    (k.retire idx).holders o' + (if o' = o then 1 else 0) = k.holders o' := by
  have hcnt := holders_update hidx (slots_retire k idx) o'
  rw [hslot] at hcnt
  simpa [eq_comm] using hcnt

lemma TableOk.holders_publish (hk : TableOk k) (hpub : k.publish o caps = some (h, k'))
    (o' : Nat) : k'.holders o' = k.holders o' + if o' = o then 1 else 0 := by
  obtain ⟨-, hbd, hslots, hempty, -⟩ := hk.publish hpub
  have hcnt := holders_update hbd.2 hslots o'
  rw [hempty] at hcnt
  simpa [eq_comm] using hcnt

section
variable {n : Nat → Nat}

/-- The reference count of an object, zero if there is none. -/
def refs (k : Kom) (o : Nat) : Nat :=
  match k.objects o with
  | none => 0
  | some obj => obj.refCount.toNat

/-- The objects that exist are those with references, and `n` counts them. -/
structure RefsOk (k : Kom) (n : Nat → Nat) : Prop where
  count : ∀ o, k.refs o = n o
  live : ∀ o obj, k.objects o = some obj → obj.refCount ≠ 0

variable (hk : RefsOk k n)
include hk

lemma RefsOk.objects_eq_none : k.objects o = none ↔ n o = 0 := by
  rw [← hk.count o, refs]
  cases hobj : k.objects o with
  | none => simp
  | some obj =>
    have hne := hk.live o obj hobj
    simp only [reduceCtorEq, false_iff]
    intro h0
    exact hne (BitVec.eq_of_toNat_eq h0)

lemma RefsOk.congr (hobjects : k'.objects = k.objects) : RefsOk k' n := by
  constructor
  · intro o
    rw [refs, hobjects]
    exact hk.count o
  · rw [hobjects]
    exact hk.live

lemma RefsOk.put {r : Option KObject} {count : Nat}
    (hobjects : k'.objects = update k.objects o r) (hcnt : k'.refs o = count)
    (hlive : ∀ obj, r = some obj → obj.refCount ≠ 0) : RefsOk k' (update n o count) := by
  constructor
  · intro o'
    rw [update_apply]
    split_ifs with heq
    · rw [heq, hcnt]
    · rw [← hk.count o', refs, refs, hobjects, update_of_ne heq]
  · intro o' obj' hobj'
    rw [hobjects, update_apply] at hobj'
    split_ifs at hobj'
    · exact hlive obj' hobj'
    · exact hk.live o' obj' hobj'

lemma RefsOk.setObject (obj : KObject) (hne : obj.refCount ≠ 0) :
    RefsOk (k.setObject o (some obj)) (update n o obj.refCount.toNat) := by
  refine hk.put rfl (by simp [refs, Kom.setObject]) ?_
  rintro _ ⟨⟩
  exact hne

lemma RefsOk.delete (obj : KObject) : RefsOk (k.delete o obj) (update n o 0) := by
  have hobjects : (k.delete o obj).objects = update k.objects o none := by
    unfold Kom.delete
    split <;> rfl
  exact hk.put hobjects (by simp [refs, hobjects]) nofun

lemma RefsOk.exists_object (hpos : 0 < n o) :
    ∃ obj, k.objects o = some obj ∧ obj.refCount.toNat = n o := by
  cases hobj : k.objects o with
  | none => exact absurd (hk.objects_eq_none.mp hobj) hpos.ne'
  | some obj => exact ⟨obj, rfl, by rw [← hk.count o, refs, hobj]⟩

lemma RefsOk.kobjectRef (hpos : 0 < n o) (hlt : n o + 1 < 2 ^ 32) :
    ∃ k', k.kobjectRef o = .ok k' ∧ RefsOk k' (update n o (n o + 1)) ∧
      k'.entries = k.entries ∧ k'.freelist = k.freelist ∧ k'.channels = k.channels := by
  obtain ⟨obj, hobj, hcnt⟩ := hk.exists_object hpos
  have hsum : (obj.refCount + 1).toNat = n o + 1 := by
    rw [BitVec.toNat_add, hcnt]
    exact mod_eq_of_lt hlt
  have hne : obj.refCount + 1 ≠ 0 := by
    intro h0
    rw [h0] at hsum
    simp at hsum
  let obj' : KObject := { obj with refCount := obj.refCount + 1 }
  refine ⟨k.setObject o (some obj'), by rw [Kom.kobjectRef, hobj], ?_, rfl, rfl, rfl⟩
  rw [← hsum]
  exact hk.setObject obj' hne

/-- A reference count goes down by one, and the object is deleted with the last reference. -/
lemma RefsOk.kobjectUnref (hpos : 0 < n o) :
    ∃ k', k.kobjectUnref o = .ok k' ∧ RefsOk k' (update n o (n o - 1)) ∧
      k'.entries = k.entries ∧ k'.freelist = k.freelist := by
  obtain ⟨obj, hobj, hcnt⟩ := hk.exists_object hpos
  by_cases hone : obj.refCount = 1
  · have hn : n o - 1 = 0 := by
      rw [← hcnt, hone]
      rfl
    refine ⟨k.delete o obj, by simp [Kom.kobjectUnref, hobj, hone], ?_, ?_, ?_⟩
    · rw [hn]
      exact hk.delete obj
    all_goals
      unfold Kom.delete
      split <;> rfl
  · have hne := hk.live o obj hobj
    have hle : 1 < obj.refCount.toNat := by
      have hne0 : obj.refCount.toNat ≠ 0 := fun h => hne (BitVec.eq_of_toNat_eq h)
      have hne1 : obj.refCount.toNat ≠ 1 := fun h => hone (BitVec.eq_of_toNat_eq h)
      omega
    have hsub : (obj.refCount - 1).toNat = n o - 1 := by
      rw [BitVec.toNat_sub_of_le (by simpa [BitVec.le_def] using hle.le), hcnt]
      rfl
    have hpos' : obj.refCount - 1 ≠ 0 := by
      intro h0
      rw [h0] at hsub
      simp at hsub
      omega
    let obj' : KObject := { obj with refCount := obj.refCount - 1 }
    refine ⟨k.setObject o (some obj'), ?_, ?_, rfl, rfl⟩
    · rw [Kom.kobjectUnref, hobj]
      simp only [if_neg hone, if_neg hne, obj']
    · rw [← hsub]
      exact hk.setObject obj' hpos'

end

/-- `kobject_ref` and `kobject_unref` do not touch the table. -/
lemma table_of_kobjectRef (hok : k.kobjectRef o = .ok k') :
    k'.entries = k.entries ∧ k'.freelist = k.freelist := by
  unfold kobjectRef at hok
  split at hok <;> cases hok
  exact ⟨rfl, rfl⟩

lemma table_of_kobjectUnref (hok : k.kobjectUnref o = .ok k') :
    k'.entries = k.entries ∧ k'.freelist = k.freelist := by
  unfold kobjectUnref at hok
  split at hok
  · cases hok
  · split_ifs at hok <;> cases hok
    · unfold delete
      split <;> exact ⟨rfl, rfl⟩
    · exact ⟨rfl, rfl⟩

lemma alloc_ok (hok : k.alloc (some o) caps = .ok (r, k')) :
    (k.publish o caps = none ∧ r = 0 ∧ k' = k) ∨
      ∃ k1, k.publish o caps = some (r, k1) ∧ k1.kobjectRef o = .ok k' := by
  simp only [alloc] at hok
  split at hok
  case h_1 hpub =>
    cases hok
    exact .inl ⟨hpub, rfl, rfl⟩
  case h_2 h k1 hpub =>
    obtain ⟨k2, href, ⟨⟩⟩ := ok_of_bind hok
    exact .inr ⟨k1, hpub, href⟩

/-- `dup` is refused, or allocates an entry with fewer capabilities. -/
lemma dup_cases (k : Kom) (h : BitVec 64) (caps : BitVec 16) :
    k.dup h caps = .ok (0, k) ∨ ∃ idx o, k.find h = some (idx, o) ∧
      (k.entries idx).caps &&& caps = caps ∧ k.dup h caps = k.alloc (some o) caps := by
  unfold dup
  split
  · exact .inl rfl
  case h_2 idx o hfind =>
    split_ifs with hcaps
    · exact .inl rfl
    · exact .inr ⟨idx, o, hfind, not_not.mp hcaps, rfl⟩

lemma dup_ok (hok : k.dup h caps = .ok (r, k')) :
    (r = 0 ∧ k' = k) ∨ ∃ idx o, k.find h = some (idx, o) ∧
      (k.entries idx).caps &&& caps = caps ∧ k.alloc (some o) caps = .ok (r, k') := by
  obtain hrefused | ⟨idx, o, hfind, hcaps, halloc⟩ := k.dup_cases h caps
  · rw [hrefused] at hok
    cases hok
    exact .inl ⟨rfl, rfl⟩
  · exact .inr ⟨idx, o, hfind, hcaps, halloc ▸ hok⟩

lemma transfer_ok (hok : k.transfer h = .ok (r, k')) :
    (k.find h = none ∧ r = 0 ∧ k' = k) ∨ ∃ idx o k1 k2, k.find h = some (idx, o) ∧
      k.kobjectRef o = .ok k1 ∧ (k1.retire idx).alloc (some o) (k.entries idx).caps = .ok (r, k2) ∧
      k2.kobjectUnref o = .ok k' := by
  unfold transfer at hok
  split at hok
  case h_1 hfind =>
    cases hok
    exact .inl ⟨hfind, rfl, rfl⟩
  case h_2 idx o hfind =>
    obtain ⟨k1, href, hok⟩ := ok_of_bind hok
    obtain ⟨⟨newH, k2⟩, halloc, hok⟩ := ok_of_bind hok
    obtain ⟨k3, hunref, ⟨⟩⟩ := ok_of_bind hok
    exact .inr ⟨idx, o, k1, k2, hfind, href, halloc, hunref⟩

lemma close_ok (hok : k.close h = .ok k') :
    (k.find h = none ∧ k' = k) ∨
      ∃ idx o, k.find h = some (idx, o) ∧ (k.retire idx).kobjectUnref o = .ok k' := by
  unfold close at hok
  split at hok
  case h_1 hfind =>
    cases hok
    exact .inl ⟨hfind, rfl⟩
  case h_2 idx o hfind => exact .inr ⟨idx, o, hfind, hok⟩

/-- `resolve` is refused, or takes a reference to the object of an entry with the capabilities. -/
lemma resolve_cases (k : Kom) (h : BitVec 64) (reqCaps : BitVec 16) :
    k.resolve h reqCaps = .ok (none, k) ∨ ∃ idx o, k.find h = some (idx, o) ∧
      (k.entries idx).caps &&& reqCaps = reqCaps ∧
      k.resolve h reqCaps = (k.kobjectRef o).map fun k => (some o, k) := by
  unfold resolve
  split
  · exact .inl rfl
  · split
    · exact .inl rfl
    case h_2 idx o hfind =>
      split_ifs with hcaps
      · exact .inl rfl
      · refine .inr ⟨idx, o, hfind, not_not.mp hcaps, ?_⟩
        cases k.kobjectRef o <;> rfl

lemma resolve_ok (hok : k.resolve h reqCaps = .ok (target, k')) :
    (target = none ∧ k' = k) ∨ ∃ idx o, target = some o ∧ k.find h = some (idx, o) ∧
      (k.entries idx).caps &&& reqCaps = reqCaps ∧ k.kobjectRef o = .ok k' := by
  obtain hrefused | ⟨idx, o, hfind, hcaps, href⟩ := k.resolve_cases h reqCaps
  · rw [hrefused] at hok
    cases hok
    exact .inl ⟨rfl, rfl⟩
  · rw [href] at hok
    obtain ⟨k1, hok, ⟨⟩⟩ := ok_of_map hok
    exact .inr ⟨idx, o, rfl, hfind, hcaps, hok⟩

/-- `alloc` leaves the generations alone. -/
lemma generation_of_alloc (hok : k.alloc obj caps = .ok (r, k')) (i : Nat) :
    (k'.entries i).generation = (k.entries i).generation := by
  cases obj with
  | none =>
    cases hok
    rfl
  | some o =>
    obtain ⟨-, -, rfl⟩ | ⟨k1, hpub, href⟩ := alloc_ok hok
    · rfl
    obtain ⟨idx, freelist, -, -, rfl⟩ := publish_eq_some.mp hpub
    rw [(table_of_kobjectRef href).1]
    by_cases hi : i = idx
    · subst hi
      simp
    · simp [hi]

lemma generation_retire (k : Kom) (idx i : Nat) : ((k.retire idx).entries i).generation =
    if i = idx then nextGeneration (k.entries idx).generation else (k.entries i).generation := by
  by_cases hi : i = idx
  · subst hi
    simp [retire]
  · simp [retire, hi]

lemma generation_of_transfer (hok : k.transfer h = .ok (r, k'))
    (hfind : k.find h = some (idx, o)) (i : Nat) :
    (k'.entries i).generation = ((k.retire idx).entries i).generation := by
  obtain ⟨hnone, -⟩ | ⟨idx', o', k1, k2, hfind', href, halloc, hunref⟩ := transfer_ok hok
  · rw [hnone] at hfind
    cases hfind
  rw [hfind] at hfind'
  cases hfind'
  rw [(table_of_kobjectUnref hunref).1, generation_of_alloc halloc, generation_retire,
    generation_retire, (table_of_kobjectRef href).1]

lemma generation_of_close (hok : k.close h = .ok k') (hfind : k.find h = some (idx, o)) (i : Nat) :
    (k'.entries i).generation = ((k.retire idx).entries i).generation := by
  obtain ⟨hnone, -⟩ | ⟨idx', o', hfind', hunref⟩ := close_ok hok
  · rw [hnone] at hfind
    cases hfind
  · rw [hfind] at hfind'
    cases hfind'
    rw [(table_of_kobjectUnref hunref).1]

lemma refused_of_find (hfind : k.find h = none) :
    (∀ reqCaps, k.resolve h reqCaps = .ok (none, k)) ∧ (∀ caps, k.dup h caps = .ok (0, k)) ∧
      k.transfer h = .ok (0, k) ∧ k.close h = .ok k := by
  refine ⟨fun reqCaps => ?_, fun caps => ?_, ?_, ?_⟩
  · unfold resolve
    split
    · rfl
    · rw [hfind]
  · rw [dup, hfind]
  · rw [transfer, hfind]
  · rw [close, hfind]

end Kom

end Singularity.ObjectManager
