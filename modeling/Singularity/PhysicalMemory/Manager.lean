import Singularity.PhysicalMemory.Extents

/-!
# The operations of the physical memory manager

`PmmState` is the state behind the `PMM` lock and `Pmm` adds the per-CPU magazines and the atomic
`MAGAZINE_TOTAL`. Pointers are physical addresses and zero is the null pointer. Of a magazine only
the live slots `frames[0..count]` are kept, in slot order. `used_frames` and `MAGAZINE_TOTAL` are
machine words.
-/

namespace Singularity.PhysicalMemory

open Foundation Function

def refFree : Nat := 0x00
def refReserved : Nat := 0xFF

/-- The state guarded by the `PMM` lock. `refCounts` is the byte array that
`pmm_init` places behind the kernel image. -/
structure PmmState where
  extents : List Extent
  refCounts : Nat → Nat
  totalFrames : Nat
  usedFrames : Nat
  reservedFrames : Nat
  hwReservedFrames : Nat
  totalUsableMemoryBytes : Nat
  initialized : Bool
  nodes : Nat → NumaNode

/-- The statically initialised state. -/
def PmmState.static : PmmState where
  extents := []
  refCounts := fun _ => 0
  totalFrames := 0
  usedFrames := 0
  reservedFrames := 0
  hwReservedFrames := 0
  totalUsableMemoryBytes := 0
  initialized := false
  nodes := fun _ => ⟨false, 0, 0⟩

/-- The manager together with the magazines of all CPUs. -/
structure Pmm where
  state : PmmState
  magazines : Nat → List Nat
  magazineTotal : Nat

/-- The address of a frame. -/
def framePtr (frame : Nat) : Nat := Word.mul frame pageSize

/-- Store one value for each of `count` frames from `start`. -/
def fillRefs (refs : Nat → Nat) (start count value : Nat) : Nat → Nat :=
  fun f => if start ≤ f ∧ f < start + count then value else refs f

/-- Drop one reference of a frame and give the frame back with the last one. -/
def releaseRef (state : PmmState) (frame : Nat) : Except Panic PmmState :=
  let refs := state.refCounts frame - 1
  let state := { state with refCounts := fillRefs state.refCounts frame 1 refs }
  if refs = refFree then do
    let extents ← freeRegionInternal state.extents frame 1
    return { state with extents, usedFrames := Word.sub state.usedFrames 1 }
  else
    return state

/-- The free path under the `PMM` lock: a free or reserved frame is a double free. -/
def freeFrameLocked (state : PmmState) (ptr : Nat) : Except Panic PmmState :=
  let frame := ptr / pageSize
  if ptr = 0 then .ok state
  else if state.totalFrames ≤ frame then .ok state
  else if state.refCounts frame = refFree ∨ state.refCounts frame = refReserved then
    .error (.doubleFree frame)
  else releaseRef state frame

/-- Add a reference; reserved frames are left alone and the count saturates at 254. -/
def pmmIncRef (state : PmmState) (ptr : Nat) : PmmState :=
  let frame := ptr / pageSize
  if ptr = 0 then state
  else if state.initialized = false then state
  else if state.totalFrames ≤ frame then state
  else if state.refCounts frame = refReserved then state
  else if state.refCounts frame < 254 then
    { state with refCounts := fillRefs state.refCounts frame 1 (state.refCounts frame + 1) }
  else state

/-- Drop a reference; reserved frames are left alone and a free frame is a double free. -/
def pmmDecRef (state : PmmState) (ptr : Nat) : Except Panic PmmState :=
  let frame := ptr / pageSize
  if ptr = 0 then .ok state
  else if state.initialized = false then .ok state
  else if state.totalFrames ≤ frame then .ok state
  else if state.refCounts frame = refReserved then .ok state
  else if state.refCounts frame = refFree then .error (.doubleFree frame)
  else releaseRef state frame

/-- Take frames out of the extents and give each of them one reference. The
callers add them to `used_frames`. -/
def claimFrames (state : PmmState) (count align : Nat) (preferredNode : Option Nat) :
    Except Panic (Option (Nat × PmmState)) := do
  match ← allocContiguousInternal state.nodes state.extents count align preferredNode with
  | none => return none
  | some (start, extents) =>
    return some (start, { state with extents, refCounts := fillRefs state.refCounts start count 1 })

/-- Count `n` more frames as used. -/
def PmmState.addUsed (state : PmmState) (n : Nat) : PmmState :=
  { state with usedFrames := Word.add state.usedFrames n }

/-- Try one frame for each node preference in turn. -/
def allocFromOrder (state : PmmState) : List (Option Nat) → Except Panic (Nat × PmmState)
  | [] => .ok (0, state)
  | node :: rest => do
      match ← claimFrames state 1 1 node with
      | some (f, state) => return (framePtr f, state.addUsed 1)
      | none => allocFromOrder state rest

/-- The preferred node first, then the other active nodes, then any extent. -/
def nodeOrder (state : PmmState) (preferredNode : Nat) : List (Option Nat) :=
  let order := preferredNode :: (List.range maxNumaNodes).filter (· ≠ preferredNode)
  (order.filter fun id => decide (id < maxNumaNodes) && (state.nodes id).active).map some ++ [none]

def allocFromNode (state : PmmState) (preferredNode : Nat) : Except Panic (Nat × PmmState) :=
  allocFromOrder state (nodeOrder state preferredNode)

def pmmAllocContiguousAligned (state : PmmState) (count alignPages : Nat) :
    Except Panic (Nat × PmmState) :=
  if count = 0 then .ok (0, state)
  else if state.initialized = false then .ok (0, state)
  else do
    let align := if alignPages = 0 then 1 else alignPages
    match ← claimFrames state count align none with
    | some (f, state) => return (framePtr f, state.addUsed count)
    | none => return (0, state)

def pmmAllocContiguous (state : PmmState) (count : Nat) : Except Panic (Nat × PmmState) :=
  pmmAllocContiguousAligned state count 1

/-- Add a frame without references to the batch, or free the batch and start a new one. -/
def batchFrame (state : PmmState) (batch : Extent) (frame : Nat) :
    Except Panic (PmmState × Extent) :=
  if batch.count = 0 then .ok (state, ⟨frame, 1⟩)
  else if batch.start + batch.count = frame then .ok (state, ⟨batch.start, batch.count + 1⟩)
  else do
    let extents ← freeRegionInternal state.extents batch.start batch.count
    return ({ state with extents }, ⟨frame, 1⟩)

/-- The loop of `pmm_free_contiguous` over the `n` frames that remain, from `frame`. -/
def freeContiguousLoop : Nat → Nat → PmmState → Extent → Except Panic (PmmState × Extent)
  | 0, _, state, batch => .ok (state, batch)
  | n + 1, frame, state, batch =>
    if state.totalFrames ≤ frame then .ok (state, batch)
    else if state.refCounts frame = refFree ∨ state.refCounts frame = refReserved then
      .error (.doubleFree frame)
    else
      let refs := state.refCounts frame - 1
      let state := { state with refCounts := fillRefs state.refCounts frame 1 refs }
      if refs = refFree then do
        let (state, batch) ← batchFrame state batch frame
        freeContiguousLoop n (frame + 1)
          { state with usedFrames := Word.sub state.usedFrames 1 } batch
      else freeContiguousLoop n (frame + 1) state batch

def pmmFreeContiguous (state : PmmState) (ptr count : Nat) : Except Panic PmmState :=
  let startFrame := ptr / pageSize
  if ptr = 0 ∨ count = 0 then .ok state
  else if state.initialized = false then .ok state
  else if state.totalFrames ≤ startFrame then .ok state
  else do
    let (state, batch) ← freeContiguousLoop count startFrame state ⟨0, 0⟩
    let extents ← freeRegionIfAny state.extents batch.start batch.count
    return { state with extents }

/-- The fallback of the refill: single frames until the magazine is full or memory is out. -/
def refillSingles : Nat → PmmState → List Nat → Except Panic (PmmState × List Nat)
  | 0, state, frames => .ok (state, frames)
  | n + 1, state, frames => do
      match ← claimFrames state 1 1 none with
      | some (f, state) => refillSingles n state (frames ++ [f])
      | none => return (state, frames)

/-- The frames a refill loads: one contiguous run if there is one, else single frames. -/
def refillFrames (state : PmmState) : Except Panic (PmmState × List Nat) := do
  match ← claimFrames state magazineSize 1 none with
  | some (start, state) => return (state, List.range' start magazineSize)
  | none => refillSingles magazineSize state []

/-- Overwrite the magazine with freshly claimed frames and return how many there are. -/
def magazineRefill (pmm : Pmm) (cpu : Nat) : Except Panic (Nat × Pmm) :=
  if maxCpus ≤ cpu then .ok (0, pmm)
  else if pmm.state.initialized = false then .ok (0, pmm)
  else do
    let (state, frames) ← refillFrames pmm.state
    return (frames.length,
      { state := state.addUsed frames.length
        magazines := update pmm.magazines cpu frames
        magazineTotal := Word.add pmm.magazineTotal frames.length })

/-- Release the frames of a magazine one by one, in slot order. -/
def flushFrames : List Nat → PmmState → Except Panic PmmState
  | [], state => .ok state
  | frame :: rest, state => do
      let state ← freeFrameLocked state (framePtr frame)
      flushFrames rest state

/-- Empty a magazine into the extents. -/
def magazineFlush (pmm : Pmm) (cpu : Nat) : Except Panic Pmm :=
  if maxCpus ≤ cpu then .ok pmm
  else if pmm.magazines cpu = [] then .ok pmm
  else do
    let state ← flushFrames (pmm.magazines cpu) pmm.state
    return { state
             magazines := update pmm.magazines cpu []
             magazineTotal := Word.sub pmm.magazineTotal (pmm.magazines cpu).length }

/-- Take the last live slot. On an empty magazine the array access is out of bounds. -/
def popMagazine (pmm : Pmm) (cpu : Nat) : Except Panic (Nat × Pmm) :=
  match (pmm.magazines cpu).getLast? with
  | none => .error .indexOutOfBounds
  | some frame => .ok (frame,
      { pmm with
        magazines := update pmm.magazines cpu (pmm.magazines cpu).dropLast
        magazineTotal := Word.sub pmm.magazineTotal 1 })

/-- Write a frame into the next slot. -/
def pushMagazine (pmm : Pmm) (cpu frame : Nat) : Pmm :=
  { pmm with
    magazines := update pmm.magazines cpu (pmm.magazines cpu ++ [frame])
    magazineTotal := Word.add pmm.magazineTotal 1 }

/-- The slow path of a free: the magazine holds exactly the frame afterwards. -/
def storeMagazine (pmm : Pmm) (cpu frame : Nat) : Pmm :=
  { pmm with
    magazines := update pmm.magazines cpu [frame]
    magazineTotal := Word.add pmm.magazineTotal 1 }

/-- The allocation path under the `PMM` lock, without a magazine. -/
def allocLocked (pmm : Pmm) : Except Panic (Nat × Pmm) :=
  if pmm.state.initialized = false then .ok (0, pmm)
  else do
    let (ptr, state) ← allocFromNode pmm.state 0
    return (ptr, { pmm with state })

/-- `pmm_alloc_frame` run without interruption by a thread that read the CPU index `cpu`. -/
def pmmAllocFrame (pmm : Pmm) (cpu : Nat) : Except Panic (Nat × Pmm) :=
  if cpu < maxCpus then
    if pmm.magazines cpu ≠ [] then do
      let (frame, pmm) ← popMagazine pmm cpu
      return (framePtr frame, pmm)
    else do
      let (loaded, pmm) ← magazineRefill pmm cpu
      if 0 < loaded then do
        let (frame, pmm) ← popMagazine pmm cpu
        return (framePtr frame, pmm)
      else allocLocked pmm
  else allocLocked pmm

/-- `pmm_free_frame` run without interruption by a thread that read the CPU index `cpu`. -/
def pmmFreeFrame (pmm : Pmm) (cpu ptr : Nat) : Except Panic Pmm :=
  let frame := ptr / pageSize
  if ptr = 0 then .ok pmm
  else if cpu < maxCpus then
    if (pmm.magazines cpu).length < magazineSize then .ok (pushMagazine pmm cpu frame)
    else do
      let pmm ← magazineFlush pmm cpu
      return storeMagazine pmm cpu frame
  else do
    let state ← freeFrameLocked pmm.state ptr
    return { pmm with state }

/-- Widen or create the frame range of a NUMA node. -/
def pmmRegisterRegion (state : PmmState) (nodeId base length : Nat) : PmmState :=
  let sf := base / pageSize
  let ef := Word.add base length / pageSize
  let old := state.nodes nodeId
  let node : NumaNode :=
    if old.active then ⟨true, min sf old.startFrame, max ef old.endFrame⟩ else ⟨true, sf, ef⟩
  if maxNumaNodes ≤ nodeId then state
  else { state with nodes := update state.nodes nodeId node }

/-- One call of the manager's interface; the first argument of the per-CPU calls
is the index that the caller read with `get_apic_id`. -/
inductive Call where
  | allocFrame (cpu : Nat)
  | freeFrame (cpu ptr : Nat)
  | allocContiguous (count : Nat)
  | allocContiguousAligned (count alignPages : Nat)
  | freeContiguous (ptr count : Nat)
  | incRef (ptr : Nat)
  | decRef (ptr : Nat)
  | flushMagazines (cpu : Nat)
  | registerRegion (nodeId base length : Nat)
  deriving DecidableEq

/-- Run a computation on the locked state. -/
def Pmm.locked (pmm : Pmm) (f : PmmState → Except Panic (Nat × PmmState)) :
    Except Panic (Nat × Pmm) := do
  let (ptr, state) ← f pmm.state
  return (ptr, { pmm with state })

lemma Pmm.locked_ok {pmm pmm' : Pmm} {f : PmmState → Except Panic (Nat × PmmState)} {ptr : Nat}
    (hok : pmm.locked f = .ok (ptr, pmm')) :
    ∃ state, f pmm.state = .ok (ptr, state) ∧ pmm' = { pmm with state } := by
  obtain ⟨⟨ptr', state⟩, hrun, ⟨⟩⟩ := ok_of_bind hok
  exact ⟨state, hrun, rfl⟩

/-- One call from start to end. Calls without a result return the null pointer. -/
def exec (pmm : Pmm) : Call → Except Panic (Nat × Pmm)
  | .allocFrame cpu => pmmAllocFrame pmm cpu
  | .freeFrame cpu ptr => return (0, ← pmmFreeFrame pmm cpu ptr)
  | .allocContiguous count => pmm.locked fun state => pmmAllocContiguous state count
  | .allocContiguousAligned count alignPages =>
    pmm.locked fun state => pmmAllocContiguousAligned state count alignPages
  | .freeContiguous ptr count =>
    pmm.locked fun state => return (0, ← pmmFreeContiguous state ptr count)
  | .incRef ptr => pmm.locked fun state => return (0, pmmIncRef state ptr)
  | .decRef ptr => pmm.locked fun state => return (0, ← pmmDecRef state ptr)
  | .flushMagazines cpu => return (0, ← magazineFlush pmm cpu)
  | .registerRegion nodeId base length =>
    pmm.locked fun state => return (0, pmmRegisterRegion state nodeId base length)

end Singularity.PhysicalMemory
