import Singularity.Foundation.PageLists
import Singularity.Storage.Partition

/-!
# Scatter lists for NVMe transfers

`rust_storage_build_sg_list` turns the vectors of a call into the two PRP entries of an NVMe
command and, if two do not suffice, into a list of PRP entries in memory. It writes one entry for
each vector. The controller reads the entries page by page, so a vector is described by its entry
only if it ends where its page ends.
-/

namespace Singularity.Storage

open Function List Nat IoVec

open Foundation

/-- Memory pages have 4096 bytes, and a page of a PRP list has 512 entries. -/
def prpFormat : PageFormat := ⟨4096, 511, by decide, by decide⟩

@[simp] lemma prpFormat_page : prpFormat.page = 4096 := rfl

/-- `SafeMem::is_valid_kernel_region`. -/
def isValidKernelRegion (start len : UInt64) : Bool :=
  let last := start + len
  if start < 0x10000 then false
  else if last < start then false
  else if 0xFFFF800000000000 ≤ start ∧ 0xFFFF800000000000 ≤ last then true
  else decide (0x100000 ≤ start ∧ last < 0x40000000 ∧ start ≤ last)

/-- `rust_dma_guard_validate`. -/
def dmaGuardValidate (vectors : List IoVec) : Bool :=
  !vectors.isEmpty && vectors.all fun v =>
    !(decide (v.size = 0) || decide (v.virtAddr = 0)) && isValidKernelRegion v.virtAddr v.size

/-- `StorageDmaChain`. -/
structure DmaChain where
  prp1 : UInt64
  prp2 : UInt64
  prpListVirt : UInt64
  totalBytes : UInt32
  isValid : Bool

/-- What the construction finds: the 64-bit words of the memory, and the answers of
`pmm_alloc_contiguous` and `ioremap`, which are 0 for a failure. -/
structure SgEnv where
  words : Nat → UInt64
  block : UInt64
  mapping : UInt64

/-- The chain that is returned, and the memory behind the call. -/
structure SgResult where
  chain : DmaChain
  words : Nat → UInt64

/-- The state of the loop that writes the list. -/
structure PrpCursor where
  words : Nat → UInt64
  current : Nat
  index : Nat
  listPage : Nat

namespace PrpCursor

/-- The loop goes on to the next list page if the current one is full. -/
def turn (block : UInt64) (c : PrpCursor) : PrpCursor :=
  if c.index = 511 then
    { words := update c.words (c.current + 8 * 511)
        (block + (UInt64.ofNat (c.listPage + 1)) * 4096)
      current := block.toNat + (c.listPage + 1) * 4096
      index := 0
      listPage := c.listPage + 1 }
  else c

/-- One round of the loop. -/
def put (block : UInt64) (c : PrpCursor) (v : IoVec) : PrpCursor :=
  let c := c.turn block
  { c with
    words := update c.words (c.current + 8 * c.index) v.physAddr
    index := c.index + 1 }

end PrpCursor

/-- `total_size`. -/
def totalSize (vectors : List IoVec) : UInt64 :=
  vectors.foldl (fun (total : UInt64) v => total + v.size) 0

/-- `prp_list_pages`. -/
def prpListPages (count : Nat) : Nat := (count + 511 - 1) / 511

/-- The second PRP entry where no list is needed. -/
def directPrp2 (first : IoVec) : List IoVec → Option UInt64
  | [] => if first.size ≤ 4096 then some 0 else none
  | [second] => if first.size + second.size ≤ 4096 * 2 then some second.physAddr else none
  | _ => none

/-- The list pages are cleared, and the vectors behind the first are entered. -/
def writePrpList (words : Nat → UInt64) (block : UInt64) (pages : Nat) (rest : List IoVec) :
    Nat → UInt64 :=
  let cleared := fun a => if block.toNat ≤ a ∧ a < block.toNat + pages * 4096 then 0 else words a
  (rest.foldl (PrpCursor.put block) ⟨cleared, block.toNat, 0, 0⟩).words

/-- `rust_storage_build_sg_list`. -/
def buildSgList (env : SgEnv) (vectors : List IoVec) : SgResult :=
  match vectors with
  | [] => ⟨⟨0, 0, 0, 0, false⟩, env.words⟩
  | first :: rest =>
    let total := (totalSize vectors).toUInt32
    if rest.all IoVec.pageAligned then
      match directPrp2 first rest with
      | some prp2 => ⟨⟨first.physAddr, prp2, 0, total, true⟩, env.words⟩
      | none =>
        if env.block = 0 ∨ env.mapping = 0 then
          ⟨⟨first.physAddr, 0, 0, total, false⟩, env.words⟩
        else
          ⟨⟨first.physAddr, env.block, env.mapping, total, true⟩,
            writePrpList env.words env.block (prpListPages vectors.length) rest⟩
    else ⟨⟨0, 0, 0, total, false⟩, env.words⟩

/-- Slot `i` of the list page at an address. -/
def prpSlot (words : Nat → UInt64) (list i : Nat) : Nat := (words (list + 8 * i)).toNat

/-- The bytes that a controller transfers, as the NVMe specification reads PRP entries: the first
entry may start inside a page, at a multiple of 4; the second is a page if one page suffices for
what is left and a list otherwise. -/
def prpBytes (words : Nat → UInt64) (chain : DmaChain) : List Nat :=
  let start := chain.prp1.toNat / 4 * 4
  let total := chain.totalBytes.toNat
  let first := min total (4096 - start % 4096)
  List.range' start first ++
    if total - first ≤ 4096 then List.range' chain.prp2.toNat (total - first)
    else
      prpFormat.scatter
        (prpFormat.entries (prpSlot words) chain.prp2.toNat (prpFormat.pagesFor (total - first)))
        (total - first)

/-- The physical bytes of a vector. -/
def IoVec.bytes (v : IoVec) : List Nat := List.range' v.physAddr.toNat v.size.toNat

/-- The number of bytes of the vectors. -/
def byteCount (vectors : List IoVec) : Nat := (vectors.map fun v => v.size.toNat).sum

namespace SgResult

/-- The chain describes exactly the bytes of the vectors, in order. -/
def Describes (r : SgResult) (vectors : List IoVec) : Prop :=
  prpBytes r.words r.chain = vectors.flatMap IoVec.bytes ∧
    r.chain.totalBytes.toNat = byteCount vectors

end SgResult

/-- An allocated block consists of whole pages and has none of the bytes of the vectors. -/
def FreeBlock (vectors : List IoVec) (block : UInt64) : Prop :=
  block ≠ 0 ∧ block.toNat % 4096 = 0 ∧
    block.toNat + prpListPages vectors.length * 4096 ≤ 2 ^ 64 ∧
    ∀ v ∈ vectors, v.physAddr.toNat + v.size.toNat ≤ block.toNat ∨
      block.toNat + prpListPages vectors.length * 4096 ≤ v.physAddr.toNat

/-- The allocator fails or returns a free block. -/
def SgEnv.Serves (env : SgEnv) (vectors : List IoVec) : Prop :=
  env.block = 0 ∨ FreeBlock vectors env.block

/-- The vectors fill the pages that their entries stand for, the last entry is not alone on its
list page, and the sizes do not exceed 32 bits. -/
def PageExact : List IoVec → Prop
  | [] => True
  | [v] => v.physAddr.toNat % 4 = 0 ∧ v.physAddr.toNat % 4096 + v.size.toNat ≤ 4096
  | v :: rest =>
    v.physAddr.toNat % 4 = 0 ∧ v.physAddr.toNat % 4096 + v.size.toNat = 4096 ∧
      (∀ w ∈ rest, w.size = 4096) ∧ ¬(511 < rest.length ∧ rest.length % 511 = 1) ∧
      byteCount (v :: rest) < 2 ^ 32

/-- The chain is not built, or it is exact. -/
def Describable : List IoVec → Prop
  | [] => True
  | v :: rest =>
    rest.all IoVec.pageAligned = true →
      (directPrp2 v rest = none → ∃ block, FreeBlock (v :: rest) block) → PageExact (v :: rest)

variable {rest : List IoVec}

lemma byteCount_cons (v : IoVec) (vectors : List IoVec) :
    byteCount (v :: vectors) = v.size.toNat + byteCount vectors := sum_cons

lemma toNat_foldl_size (vectors : List IoVec) (total : UInt64) :
    (vectors.foldl (fun (total : UInt64) v => total + v.size) total).toNat =
      (total.toNat + byteCount vectors) % 2 ^ 64 := by
  induction vectors generalizing total with
  | nil => exact (mod_eq_of_lt total.toNat_lt).symm
  | cons v vectors ih =>
    rw [foldl_cons, ih, UInt64.toNat_add, byteCount_cons]
    omega

/-- The field `total_bytes` is the number of bytes in 32 bits. -/
lemma toNat_totalSize (vectors : List IoVec) :
    (totalSize vectors).toUInt32.toNat = byteCount vectors % 2 ^ 32 := by
  rw [UInt64.toNat_toUInt32, totalSize, toNat_foldl_size]
  have h0 : (0 : UInt64).toNat = 0 := rfl
  omega

lemma length_flatMap_bytes (vectors : List IoVec) :
    (vectors.flatMap IoVec.bytes).length = byteCount vectors := by
  rw [length_flatMap]
  simp only [bytes, length_range']
  rfl

lemma IoVec.pageAligned_iff (v : IoVec) :
    v.pageAligned = true ↔ v.physAddr.toNat % 4096 = 0 ∧ v.size.toNat % 4096 = 0 := by
  have hmask : (v.physAddr &&& 0xFFF).toNat = v.physAddr.toNat % 4096 := by
    rw [UInt64.toNat_and]
    exact and_two_pow_sub_one_eq_mod _ 12
  have hmod : (v.size % 4096).toNat = v.size.toNat % 4096 := UInt64.toNat_mod ..
  have h0 : (0 : UInt64).toNat = 0 := rfl
  rw [pageAligned, Bool.and_eq_true, decide_eq_true_iff, decide_eq_true_iff, ← UInt64.toNat_inj,
    ← UInt64.toNat_inj, hmask, hmod, h0]

lemma size_pos_of_guard (h : dmaGuardValidate vectors = true) :
    ∀ v ∈ vectors, 0 < v.size.toNat := by
  intro v hv
  rw [dmaGuardValidate, Bool.and_eq_true, all_eq_true] at h
  have hsz := h.2 v hv
  simp only [Bool.and_eq_true, Bool.not_eq_true', Bool.or_eq_false_iff,
    decide_eq_false_iff_not] at hsz
  exact Nat.pos_of_ne_zero fun h0 => hsz.1.1 (UInt64.toNat_inj.mp h0)

lemma length_mul_le_byteCount (h : ∀ w ∈ rest, 4096 ≤ w.size.toNat) :
    rest.length * 4096 ≤ byteCount rest := by
  induction rest with
  | nil => exact zero_le _
  | cons w rest ih =>
    have hw := h w mem_cons_self
    have hrest := ih fun w hw => h w (mem_cons_of_mem _ hw)
    rw [byteCount_cons, length_cons, succ_mul, add_comm]
    exact Nat.add_le_add hw hrest

lemma size_eq_of_byteCount_le (h : ∀ w ∈ rest, 4096 ≤ w.size.toNat)
    (hle : byteCount rest ≤ rest.length * 4096) : ∀ w ∈ rest, w.size.toNat = 4096 := by
  induction rest with
  | nil => nofun
  | cons w rest ih =>
    have hw := h w mem_cons_self
    have hwide : ∀ w ∈ rest, 4096 ≤ w.size.toNat := fun w hw => h w (mem_cons_of_mem _ hw)
    have hrest := length_mul_le_byteCount hwide
    rw [byteCount_cons, length_cons] at hle
    rintro u (_ | ⟨_, hu⟩)
    · omega
    · exact ih hwide (by omega) u hu

lemma byteCount_of_pages (h : ∀ w ∈ rest, w.size.toNat = 4096) :
    byteCount rest = rest.length * 4096 := by
  induction rest with
  | nil => rfl
  | cons w rest ih =>
    rw [byteCount_cons, h w mem_cons_self, ih fun w hw => h w (mem_cons_of_mem _ hw), length_cons]
    omega

lemma flatMap_bytes_of_pages (h : ∀ w ∈ rest, w.size.toNat = 4096) :
    rest.flatMap IoVec.bytes =
      (rest.map fun w => w.physAddr.toNat).flatMap fun e => List.range' e prpFormat.page := by
  rw [flatMap_map]
  apply flatMap_congr
  intro w hw
  rw [bytes, h w hw]
  rfl

variable {words : Nat → UInt64} {block : UInt64}

namespace PrpCursor

/-- Behind the vectors `done`, the list pages hold their addresses, the cursor stands behind the
last of them, and the memory outside the block is as before. -/
structure Inv (words : Nat → UInt64) (block : UInt64) (pages : Nat) (done : List IoVec)
    (c : PrpCursor) : Prop where
  holds : prpFormat.Holds (prpSlot c.words) block.toNat (done.map fun v => v.physAddr.toNat) pages
  current_eq : c.current = block.toNat + c.listPage * 4096
  count : done.length = c.listPage * 511 + c.index
  index_le : c.index ≤ 511
  index_pos : done ≠ [] → 0 < c.index
  outside : ∀ a, a < block.toNat ∨ block.toNat + pages * 4096 ≤ a → c.words a = words a

variable {pages : Nat} {done : List IoVec} {c : PrpCursor}

lemma Inv.init (words : Nat → UInt64) (block : UInt64) (pages : Nat) :
    Inv words block pages []
      ⟨fun a => if block.toNat ≤ a ∧ a < block.toNat + pages * 4096 then 0 else words a,
        block.toNat, 0, 0⟩ where
  holds := by
    intro q i hq hi
    rw [map_nil, PageFormat.layout_nil]
    have hlinks : prpFormat.links = 511 := rfl
    simp only [prpFormat_page] at hi ⊢
    rw [prpSlot, if_pos (by omega)]
    rfl
  current_eq := by rw [zero_mul, add_zero]
  count := by simp
  index_le := by
    dsimp only
    omega
  index_pos := fun h => absurd rfl h
  outside := fun a ha => if_neg (by omega)

lemma prpFormat_layout_append (base : Nat) (es : List Nat) (e q i : Nat) (hi : i ≤ 511) :
    prpFormat.layout base (es ++ [e]) q i =
      if q * 511 + i = es.length ∧ i < 511 then e
      else if (q + 1) * 511 = es.length ∧ i = 511 then base + (q + 1) * 4096
      else prpFormat.layout base es q i :=
  PageFormat.layout_append base es e q i hi

variable (h : Inv words block pages done c)
include h

variable (hend : block.toNat + pages * 4096 ≤ 2 ^ 64)
include hend

/-- Behind a turn the cursor stands on a slot for a vector, and the link that `turn` writes belongs
to the layout with the next vector. -/
lemma Inv.turn (hroom : done.length < pages * 511) :
    (c.turn block).current = block.toNat + (c.turn block).listPage * 4096 ∧
      done.length = (c.turn block).listPage * 511 + (c.turn block).index ∧
      (c.turn block).index < 511 ∧
      (∀ q i, q < pages → i ≤ 511 → prpSlot (c.turn block).words (block.toNat + q * 4096) i =
          if (q + 1) * 511 = done.length ∧ i = 511 then block.toNat + (q + 1) * 4096
          else prpFormat.layout block.toNat (done.map fun v => v.physAddr.toNat) q i) ∧
      ∀ a, a < block.toNat ∨ block.toNat + pages * 4096 ≤ a →
        (c.turn block).words a = words a := by
  obtain ⟨hholds, hcur, hcnt, hidx, hpos, houtside⟩ := h
  unfold PrpCursor.turn
  by_cases hfull : c.index = 511
  · have hlink : (block + UInt64.ofNat (c.listPage + 1) * 4096).toNat =
        block.toNat + (c.listPage + 1) * 4096 := by
      rw [UInt64.toNat_add, UInt64.toNat_mul, UInt64.toNat_ofNat']
      have h4096 : (4096 : UInt64).toNat = 4096 := rfl
      rw [h4096]
      omega
    rw [if_pos hfull]
    dsimp only
    refine ⟨rfl, by rw [hcnt, hfull, add_zero, succ_mul], by omega,
      fun q i hq hi => ?_, fun a ha => ?_⟩
    · rw [prpSlot]
      by_cases hlast : (q + 1) * 511 = done.length ∧ i = 511
      · have haddr : block.toNat + q * 4096 + 8 * i = c.current + 8 * 511 := by omega
        have hq' : q = c.listPage := by omega
        rw [if_pos hlast, haddr, update_self, hlink, hq']
      · rw [if_neg hlast, update_of_ne (by omega)]
        exact hholds q i hq hi
    · exact (update_of_ne (by omega) ..).trans (houtside a ha)
  · rw [if_neg hfull]
    refine ⟨hcur, hcnt, by omega, fun q i hq hi => ?_, houtside⟩
    have hlast : ¬((q + 1) * 511 = done.length ∧ i = 511) := by
      rintro ⟨hlen, -⟩
      have hpos := hpos (ne_nil_of_length_pos (by omega))
      omega
    rw [if_neg hlast]
    exact hholds q i hq hi

lemma Inv.put (hroom : done.length < pages * 511) (v : IoVec) :
    Inv words block pages (done ++ [v]) (c.put block v) := by
  obtain ⟨hcur, hcnt, hidx, hslots, houtside⟩ := h.turn hend hroom
  refine ⟨fun q i hq hi => ?_, hcur, ?_, hidx, fun _ => succ_pos _, fun a ha => ?_⟩
  · have hold := hslots q i hq hi
    rw [map_append, map_singleton, prpFormat_layout_append _ _ _ _ _ hi, length_map]
    by_cases hnew : q * 511 + i = done.length ∧ i < 511
    · have haddr : block.toNat + q * 4096 + 8 * i =
          (c.turn block).current + 8 * (c.turn block).index := by omega
      rw [if_pos hnew]
      exact congrArg UInt64.toNat ((congrArg _ haddr).trans (update_self ..))
    · rw [if_neg hnew, ← hold]
      have hi : i ≤ 511 := hi
      exact congrArg UInt64.toNat (update_of_ne (by dsimp only [prpFormat_page]; omega) ..)
  · rw [length_append, length_singleton, hcnt]
    exact add_assoc ..
  · exact (update_of_ne (by omega) ..).trans (houtside a ha)

lemma Inv.foldl (hroom : done.length + rest.length ≤ pages * 511) :
    Inv words block pages (done ++ rest) (rest.foldl (PrpCursor.put block) c) := by
  induction rest generalizing done c with
  | nil => rwa [append_nil]
  | cons v rest ih =>
    rw [length_cons] at hroom
    have hnext := h.put hend (by omega) v
    have hrest := ih hnext (by rw [length_append, length_singleton]; omega)
    rwa [append_assoc] at hrest

end PrpCursor

variable {first : IoVec}

lemma lt_prpListPages (rest : List IoVec) : rest.length < prpListPages (rest.length + 1) * 511 := by
  unfold prpListPages
  omega

lemma holds_writePrpList (hfree : FreeBlock (first :: rest) block) (words : Nat → UInt64) :
    prpFormat.Holds
      (prpSlot (writePrpList words block (prpListPages (rest.length + 1)) rest))
      block.toNat (rest.map fun v => v.physAddr.toNat) (prpListPages (rest.length + 1)) := by
  have hI := (PrpCursor.Inv.init words block (prpListPages (rest.length + 1))).foldl
    hfree.2.2.1 (le_of_lt (by simpa using lt_prpListPages rest))
  exact hI.holds

lemma writePrpList_zero (hfree : FreeBlock (first :: rest) block) (words : Nat → UInt64) :
    writePrpList words block (prpListPages (rest.length + 1)) rest 0 = words 0 := by
  have hI := (PrpCursor.Inv.init words block (prpListPages (rest.length + 1))).foldl
    hfree.2.2.1 (le_of_lt (by simpa using lt_prpListPages rest))
  have hpos : 0 < block.toNat :=
    Nat.pos_of_ne_zero fun h0 => hfree.1 (UInt64.toNat_inj.mp h0)
  exact hI.outside 0 (.inl hpos)

lemma buildSgList_direct (h : rest.all IoVec.pageAligned = true)
    (hdirect : directPrp2 first rest = some prp2) :
    buildSgList env (first :: rest) =
      ⟨⟨first.physAddr, prp2, 0, (totalSize (first :: rest)).toUInt32, true⟩, env.words⟩ := by
  simp only [buildSgList, h, hdirect, if_true]

lemma buildSgList_list (h : rest.all IoVec.pageAligned = true)
    (hdirect : directPrp2 first rest = none) (hblock : env.block ≠ 0) (hmapping : env.mapping ≠ 0) :
    buildSgList env (first :: rest) =
      ⟨⟨first.physAddr, env.block, env.mapping, (totalSize (first :: rest)).toUInt32, true⟩,
        writePrpList env.words env.block (prpListPages (rest.length + 1)) rest⟩ := by
  simp only [buildSgList, h, hdirect, if_true, hblock, hmapping, or_self, if_false, length_cons]

lemma buildSgList_valid (h : (buildSgList env (first :: rest)).chain.isValid = true) :
    rest.all IoVec.pageAligned = true ∧
      ((∃ prp2, directPrp2 first rest = some prp2) ∨
        directPrp2 first rest = none ∧ env.block ≠ 0 ∧ env.mapping ≠ 0) := by
  simp only [buildSgList] at h
  split at h
  case isFalse => cases h
  case isTrue halign =>
    refine ⟨halign, ?_⟩
    split at h
    case h_1 prp2 hdirect => exact .inl ⟨prp2, hdirect⟩
    case h_2 hdirect =>
      split at h
      · cases h
      case isFalse hserved =>
        obtain ⟨hblock, hmapping⟩ := not_or.mp hserved
        exact .inr ⟨hdirect, hblock, hmapping⟩

/-- What the controller transfers behind the first page. -/
def prpTail (words : Nat → UInt64) (prp2 : UInt64) (left : Nat) : List Nat :=
  if left ≤ 4096 then List.range' prp2.toNat left
  else
    prpFormat.scatter
      (prpFormat.entries (prpSlot words) prp2.toNat (prpFormat.pagesFor left)) left

lemma prpBytes_eq (words : Nat → UInt64) (chain : DmaChain) :
    prpBytes words chain =
      List.range' (chain.prp1.toNat / 4 * 4)
          (min chain.totalBytes.toNat (4096 - chain.prp1.toNat / 4 * 4 % 4096)) ++
        prpTail words chain.prp2 (chain.totalBytes.toNat -
          min chain.totalBytes.toNat (4096 - chain.prp1.toNat / 4 * 4 % 4096)) := rfl

lemma prpTail_list (hfree : FreeBlock (first :: rest) block)
    (hpages : ∀ w ∈ rest, w.size.toNat = 4096)
    (hlone : ¬(511 < rest.length ∧ rest.length % 511 = 1)) (hmany : 1 < rest.length)
    (words : Nat → UInt64) :
    prpTail (writePrpList words block (prpListPages (rest.length + 1)) rest) block
        (byteCount rest) = rest.flatMap IoVec.bytes := by
  have hholds := holds_writePrpList hfree words
  have hroom := lt_prpListPages rest
  have hne : (rest.map fun v => v.physAddr.toNat) ≠ [] :=
    ne_nil_of_length_pos (by rw [length_map]; omega)
  have hents := hholds.entries_eq (by rw [length_map]; exact le_of_lt hroom)
    (by rwa [length_map]) hne
  have hcnt : byteCount rest = rest.length * prpFormat.page := byteCount_of_pages hpages
  rw [length_map] at hents
  rw [prpTail, if_neg (by rw [hcnt, prpFormat_page]; omega), hcnt, PageFormat.pagesFor_mul,
    hents, flatMap_bytes_of_pages hpages, ← PageFormat.scatter_eq_flatMap, length_map]

lemma prpBytes_split (hprp1 : chain.prp1 = first.physAddr)
    (htot : chain.totalBytes.toNat = first.size.toNat + byteCount rest)
    (hdword : first.physAddr.toNat % 4 = 0)
    (hfill : first.physAddr.toNat % 4096 + first.size.toNat = 4096 ∨
      rest = [] ∧ first.physAddr.toNat % 4096 + first.size.toNat ≤ 4096) :
    prpBytes words chain = first.bytes ++ prpTail words chain.prp2 (byteCount rest) := by
  have hstart : chain.prp1.toNat / 4 * 4 = first.physAddr.toNat := by
    rw [hprp1]
    omega
  have hpage : min chain.totalBytes.toNat (4096 - first.physAddr.toNat % 4096) =
      first.size.toNat := by
    obtain hfill | ⟨rfl, hfill⟩ := hfill
    · omega
    · have hnil : byteCount [] = 0 := rfl
      omega
  rw [prpBytes_eq, hstart, hpage, htot, Nat.add_sub_cancel_left]
  rfl

lemma describes_of_pageExact (henv : env.Serves (first :: rest))
    (hval : (buildSgList env (first :: rest)).chain.isValid = true)
    (hexact : PageExact (first :: rest)) :
    (buildSgList env (first :: rest)).Describes (first :: rest) := by
  obtain ⟨halign, hway⟩ := buildSgList_valid hval
  have hcnt := byteCount_cons first rest
  have htot := toNat_totalSize (first :: rest)
  have hnil : byteCount [] = 0 := rfl
  cases rest with
  | nil =>
    obtain ⟨hdword, hfits⟩ := hexact
    rw [mod_eq_of_lt (by omega)] at htot
    obtain ⟨prp2, hdirect⟩ | ⟨hdirect, hblock, hmapping⟩ := hway
    · rw [buildSgList_direct halign hdirect]
      exact ⟨prpBytes_split rfl (htot.trans hcnt) hdword (.inr ⟨rfl, hfits⟩), htot⟩
    · rw [buildSgList_list halign hdirect hblock hmapping]
      exact ⟨prpBytes_split rfl (htot.trans hcnt) hdword (.inr ⟨rfl, hfits⟩), htot⟩
  | cons second rest =>
    obtain ⟨hdword, hfill, hpages, hlone, hsmall⟩ := hexact
    rw [mod_eq_of_lt hsmall] at htot
    have hpages' : ∀ w ∈ second :: rest, w.size.toNat = 4096 := by
      intro w hw
      rw [hpages w hw]
      rfl
    have hsecond := hpages' second mem_cons_self
    obtain ⟨prp2, hdirect⟩ | ⟨hdirect, hblock, hmapping⟩ := hway
    · rw [buildSgList_direct halign hdirect]
      refine ⟨?_, htot⟩
      rw [prpBytes_split rfl (htot.trans hcnt) hdword (.inl hfill), flatMap_cons]
      congr 1
      cases rest with
      | nil =>
        simp only [directPrp2, Option.ite_none_right_eq_some, Option.some.injEq] at hdirect
        have hone := byteCount_of_pages hpages'
        rw [length_singleton, one_mul] at hone
        rw [prpTail, if_pos (le_of_eq hone), hone, ← hdirect.2, flatMap_cons,
          flatMap_nil, append_nil, bytes, hsecond]
      | cons third rest => cases hdirect
    · rw [buildSgList_list halign hdirect hblock hmapping]
      refine ⟨?_, htot⟩
      rw [prpBytes_split rfl (htot.trans hcnt) hdword (.inl hfill), flatMap_cons]
      congr 1
      have hmany : 1 < (second :: rest).length := by
        cases rest with
        | nil =>
          -- two pages at most would have been described without a list
          simp only [directPrp2, ite_eq_right_iff, reduceCtorEq, imp_false,
            UInt64.le_iff_toNat_le, UInt64.toNat_add] at hdirect
          have h8192 : ((4096 : UInt64) * 2).toNat = 8192 := rfl
          omega
        | cons third rest => simp
      exact prpTail_list (henv.resolve_left hblock) hpages' hlone hmany env.words

lemma head?_prpTail (h : 4096 < left) :
    (prpTail words prp2 left).head? = some (prpSlot words prp2.toNat 0) := by
  have hpages : 0 < prpFormat.pagesFor left := PageFormat.lt_pagesFor (by omega)
  obtain ⟨more, hmore⟩ := PageFormat.entries_head (f := prpFormat) (prpSlot words) prp2.toNat hpages
  rw [prpTail, if_neg (by omega), hmore, PageFormat.head?_scatter_cons _ (by omega)]

/-- A described first vector starts at a multiple of 4; it is the last one or reaches the end of
its first page; and what it has beyond this page is part of the rest of the transfer. -/
lemma first_of_describes (hprp1 : chain.prp1 = first.physAddr)
    (htot : chain.totalBytes.toNat = first.size.toNat + byteCount rest)
    (hpos : ∀ v ∈ first :: rest, 0 < v.size.toNat)
    (halign : ∀ w ∈ rest, w.physAddr.toNat % 4096 = 0)
    (h : prpBytes words chain = (first :: rest).flatMap IoVec.bytes) :
    first.physAddr.toNat % 4 = 0 ∧
      (rest ≠ [] → 4096 ≤ first.physAddr.toNat % 4096 + first.size.toNat) ∧
      (4096 ≤ first.physAddr.toNat % 4096 + first.size.toNat → prpTail words chain.prp2
            (first.physAddr.toNat % 4096 + first.size.toNat - 4096 + byteCount rest) =
          List.range' (first.physAddr.toNat / 4096 * 4096 + 4096)
              (first.physAddr.toNat % 4096 + first.size.toNat - 4096) ++
            rest.flatMap IoVec.bytes) := by
  have hsz := hpos first mem_cons_self
  rw [prpBytes_eq, hprp1, htot, flatMap_cons] at h
  have hstart : first.physAddr.toNat / 4 * 4 = first.physAddr.toNat := by
    obtain ⟨k, hk⟩ : ∃ k, min (first.size.toNat + byteCount rest)
        (4096 - first.physAddr.toNat / 4 * 4 % 4096) = k + 1 := ⟨_, (succ_pred (by omega)).symm⟩
    obtain ⟨n, hn⟩ : ∃ n, first.size.toNat = n + 1 := ⟨_, (succ_pred (by omega)).symm⟩
    rw [hk, bytes, hn, range'_succ, range'_succ, cons_append, cons_append, List.cons.injEq] at h
    exact h.1
  rw [hstart] at h
  refine ⟨by omega, ?_, ?_⟩
  · -- the second vector starts in a new page, so the byte in front of it ends one
    intro hne
    obtain ⟨second, rest, rfl⟩ := exists_cons_of_ne_nil hne
    by_contra hshort
    have hsecond := hpos second (mem_cons_of_mem _ mem_cons_self)
    obtain ⟨n, hn⟩ : ∃ n, second.size.toNat = n + 1 := ⟨_, (succ_pred (by omega)).symm⟩
    have hcnt := byteCount_cons second rest
    have hbyte := congrArg (fun l => l[first.size.toNat]?) h
    rw [getElem?_append_left (by rw [length_range']; omega),
      getElem?_append_right (by rw [bytes, length_range']), bytes,
      length_range', Nat.sub_self, flatMap_cons, bytes, hn, range'_succ,
      getElem?_range' (by omega), one_mul] at hbyte
    have hpage := halign second mem_cons_self
    have heq : first.physAddr.toNat + first.size.toNat = second.physAddr.toNat := by
      simpa using hbyte
    omega
  · intro hlong
    have hcut : first.bytes = range' first.physAddr.toNat
          (4096 - first.physAddr.toNat % 4096) ++
        range' (first.physAddr.toNat / 4096 * 4096 + 4096)
          (first.physAddr.toNat % 4096 + first.size.toNat - 4096) := by
      have hsum : first.size.toNat = 4096 - first.physAddr.toNat % 4096 +
          (first.physAddr.toNat % 4096 + first.size.toNat - 4096) := by omega
      have hnext : first.physAddr.toNat / 4096 * 4096 + 4096 =
          first.physAddr.toNat + (4096 - first.physAddr.toNat % 4096) := by omega
      rw [hnext, range'_append_1, ← hsum]
      rfl
    have hpage : min (first.size.toNat + byteCount rest) (4096 - first.physAddr.toNat % 4096) =
        4096 - first.physAddr.toNat % 4096 := by omega
    have hleft : first.size.toNat + byteCount rest - (4096 - first.physAddr.toNat % 4096) =
        first.physAddr.toNat % 4096 + first.size.toNat - 4096 + byteCount rest := by omega
    rw [hcut, hpage, hleft, append_assoc] at h
    exact append_cancel_left h

lemma head_of_prpTail_page (hpos : 0 < extra) (hleft : extra ≤ 4096)
    (h : prpTail words prp2 (extra + byteCount []) =
      List.range' start extra ++ List.flatMap IoVec.bytes []) : prp2.toNat = start := by
  obtain ⟨n, rfl⟩ : ∃ n, extra = n + 1 := ⟨_, (succ_pred (by omega)).symm⟩
  have hnil : byteCount [] = 0 := rfl
  rw [hnil, add_zero, prpTail, if_pos hleft, range'_succ, range'_succ,
    cons_append, List.cons.injEq] at h
  exact h.1

/-- Behind a first vector, what is described by list pages are whole pages, and the last is not
alone on its list page. -/
lemma rest_of_prpTail (hfree : FreeBlock (first :: rest) block)
    (hlong : ∀ w ∈ rest, 4096 ≤ w.size.toNat) (hstart : 0 < start)
    (hleft : 4096 < extra + byteCount rest)
    (h : prpTail (writePrpList (fun _ => 0) block (prpListPages (rest.length + 1)) rest) block
      (extra + byteCount rest) = List.range' start extra ++ rest.flatMap IoVec.bytes) :
    extra = 0 ∧ (∀ w ∈ rest, w.size.toNat = 4096) ∧
      ¬(511 < rest.length ∧ rest.length % 511 = 1) := by
  have hholds := holds_writePrpList hfree fun _ => 0
  have hroom := lt_prpListPages rest
  have hmin := length_mul_le_byteCount hlong
  rw [prpTail, if_neg (by omega)] at h
  by_cases hover : rest.length * prpFormat.page < extra + byteCount rest
  · -- the controller reads a page at address 0 behind the entries
    have h0 : prpSlot (writePrpList (fun _ => 0) block (prpListPages (rest.length + 1)) rest)
        0 0 = 0 := by
      rw [prpSlot, writePrpList_zero hfree]
      rfl
    obtain ⟨more, hmore⟩ := hholds.entries_overread (by rwa [length_map]) h0 (by
      rw [length_map]
      exact PageFormat.lt_pagesFor hover)
    let spans := rest.map fun w => (w.physAddr.toNat, w.size.toNat)
    have hspans : (spans.flatMap fun s => range' s.1 s.2) = rest.flatMap bytes := by
      rw [flatMap_map]
      rfl
    have hstarts : spans.map Prod.fst = rest.map fun w => w.physAddr.toNat := by
      rw [map_map]
      rfl
    rw [hmore, ← hspans, ← hstarts] at h
    obtain ⟨hcarry, hpages⟩ := PageFormat.no_carry (f := prpFormat) spans
      (range' start extra) (by
        intro s hs
        obtain ⟨w, hw, rfl⟩ := mem_map.mp hs
        exact hlong w hw) (by
        intro a ha
        rw [mem_range'_1] at ha
        omega) (by
        rw [hspans, length_append, length_range', length_flatMap_bytes]) h.symm
    have hall : ∀ w ∈ rest, w.size.toNat = 4096 := fun w hw =>
      hpages (w.physAddr.toNat, w.size.toNat) (mem_map.mpr ⟨w, hw, rfl⟩)
    have hextra : extra = 0 := range'_eq_nil_iff.mp hcarry
    rw [byteCount_of_pages hall, hextra, prpFormat_page] at hover
    omega
  · rw [prpFormat_page] at hover
    have hextra : extra = 0 := by omega
    have hall := size_eq_of_byteCount_le hlong (by omega)
    refine ⟨hextra, hall, ?_⟩
    rintro ⟨hmany, hlone⟩
    obtain ⟨j, hj⟩ : ∃ j, rest.length = (j + 1) * 511 + 1 := ⟨rest.length / 511 - 1, by omega⟩
    have hlast := hholds.getLast?_entries (by rw [length_map]; exact le_of_lt hroom)
      (by rw [length_map]; exact hj)
    have hcnt : byteCount rest = rest.length * prpFormat.page := byteCount_of_pages hall
    rw [hextra, zero_add, hcnt, PageFormat.pagesFor_mul, range'_zero, nil_append,
      flatMap_bytes_of_pages hall] at h
    have hlength := PageFormat.length_entries (f := prpFormat)
      (prpSlot (writePrpList (fun _ => 0) block (prpListPages (rest.length + 1)) rest))
      block.toNat rest.length
    have hscatter := PageFormat.scatter_eq_flatMap (f := prpFormat)
      (prpFormat.entries
        (prpSlot (writePrpList (fun _ => 0) block (prpListPages (rest.length + 1)) rest))
        block.toNat rest.length)
    rw [hlength, h] at hscatter
    have hsame := PageFormat.flatMap_range'_injective hscatter
    rw [length_map, ← hsame] at hlast
    -- the last vector would lie in a list page
    obtain ⟨w, hw, haddr⟩ := mem_map.mp (mem_of_getLast? hlast)
    have hapart := hfree.2.2.2 w (mem_cons_of_mem _ hw)
    have hwide := hlong w hw
    rw [length_cons] at hapart
    unfold prpListPages at hapart
    rw [prpFormat_page] at haddr
    omega

/-- A memory that is zero everywhere, with a block for the list. -/
def blank (block : UInt64) : SgEnv := ⟨fun _ => 0, block, 1⟩

lemma buildSgList_blank (halign : rest.all IoVec.pageAligned = true)
    (hdirect : directPrp2 first rest = none) (hblock : block ≠ 0) :
    buildSgList (blank block) (first :: rest) =
      ⟨⟨first.physAddr, block, 1, (totalSize (first :: rest)).toUInt32, true⟩,
        writePrpList (fun _ => 0) block (prpListPages (rest.length + 1)) rest⟩ :=
  buildSgList_list halign hdirect hblock (show (1 : UInt64) ≠ 0 by decide)

/-- A first vector that goes beyond its page is not described if it is alone. -/
lemma single_of_describes (hfree : directPrp2 first [] = none → FreeBlock [first] block)
    (hsz : 0 < first.size.toNat) (h : (buildSgList (blank block) [first]).Describes [first]) :
    PageExact [first] := by
  obtain ⟨hbytes, htot⟩ := h
  have hpos : ∀ v ∈ [first], 0 < v.size.toNat := by
    intro v hv
    rwa [mem_singleton.mp hv]
  have h4096 : (4096 : UInt64).toNat = 4096 := rfl
  have hmod := mod_lt first.physAddr.toNat (show 0 < 4096 by decide)
  by_cases hdirect : first.size ≤ 4096
  · have hprp2 : directPrp2 first [] = some 0 := if_pos hdirect
    rw [buildSgList_direct rfl hprp2] at hbytes htot
    obtain ⟨hdword, -, htail⟩ := first_of_describes rfl htot hpos nofun hbytes
    refine ⟨hdword, ?_⟩
    by_contra hlong
    have hpage := UInt64.le_iff_toNat_le.mp hdirect
    have hhead := head_of_prpTail_page (by omega) (by omega) (htail (by omega))
    have h0 : (0 : UInt64).toNat = 0 := rfl
    dsimp only at hhead
    omega
  · have hprp2 : directPrp2 first [] = none := if_neg hdirect
    have hblock := hfree hprp2
    rw [buildSgList_blank rfl hprp2 hblock.1] at hbytes htot
    obtain ⟨-, -, htail⟩ := first_of_describes rfl htot hpos nofun hbytes
    have hlong := mt UInt64.le_iff_toNat_le.mpr hdirect
    have hnil : byteCount [] = 0 := rfl
    exfalso
    by_cases hleft : first.physAddr.toNat % 4096 + first.size.toNat - 4096 ≤ 4096
    · have hhead := head_of_prpTail_page (by omega) (by omega) (htail (by omega))
      have hapart := hblock.2.2.2 first mem_cons_self
      dsimp only at hhead
      omega
    · have hextra := (rest_of_prpTail hblock nofun (succ_pos _) (by omega)
        (htail (by omega))).1
      omega

lemma pair_of_prpTail {second : IoVec} (hsecond : second.size.toNat % 4096 = 0)
    (hpos : 0 < second.size.toNat) {size : Nat} (hstart : 0 < start) (hsz : 0 < size)
    (hsmall : size + second.size.toNat ≤ 8192)
    (h : prpTail (fun _ => 0) second.physAddr (extra + byteCount [second]) =
      List.range' start extra ++ [second].flatMap IoVec.bytes) :
    extra = 0 ∧ second.size.toNat = 4096 := by
  have hone : byteCount [second] = second.size.toNat := by
    rw [byteCount_cons]
    rfl
  by_cases hleft : extra + second.size.toNat ≤ 4096
  · omega
  -- the controller takes the second page for a list, and its first entry is the page at 0
  have hhead := congrArg List.head? h
  rw [hone, head?_prpTail (by omega)] at hhead
  cases extra with
  | zero => omega
  | succ n =>
    rw [range'_succ, cons_append, head?_cons, Option.some.injEq] at hhead
    exact absurd hhead (Nat.ne_of_lt hstart)

/-- If the chain describes vectors in a memory that is otherwise zero, they fill their pages. -/
lemma pageExact_of_describes (hpos : ∀ v ∈ first :: rest, 0 < v.size.toNat)
    (halign : rest.all IoVec.pageAligned = true)
    (hfree : directPrp2 first rest = none → FreeBlock (first :: rest) block)
    (h : (buildSgList (blank block) (first :: rest)).Describes (first :: rest)) :
    PageExact (first :: rest) := by
  cases rest with
  | nil => exact single_of_describes hfree (hpos first mem_cons_self) h
  | cons second rest =>
    have hfirst := hpos first mem_cons_self
    have hwhole (w : IoVec) (hw : w ∈ second :: rest) :
        w.physAddr.toNat % 4096 = 0 ∧ w.size.toNat % 4096 = 0 :=
      w.pageAligned_iff.mp (all_eq_true.mp halign w hw)
    have hlarge (w : IoVec) (hw : w ∈ second :: rest) : 4096 ≤ w.size.toNat := by
      have hsz := hpos w (mem_cons_of_mem _ hw)
      have hmod := (hwhole w hw).2
      omega
    obtain ⟨hbytes, htot⟩ := h
    have hcnt := byteCount_cons first (second :: rest)
    have hcount' := byteCount_cons second rest
    have hsmall : byteCount (first :: second :: rest) < 2 ^ 32 := htot ▸ UInt32.toNat_lt _
    have hsecond := hlarge second mem_cons_self
    have h8192 : ((4096 : UInt64) * 2).toNat = 8192 := rfl
    -- it suffices that nothing but whole pages comes behind the first page
    suffices hpages : first.physAddr.toNat % 4 = 0 ∧
        first.physAddr.toNat % 4096 + first.size.toNat = 4096 ∧
        (∀ w ∈ second :: rest, w.size.toNat = 4096) ∧
        ¬(511 < (second :: rest).length ∧ (second :: rest).length % 511 = 1) by
      obtain ⟨hdword, hfill, hsizes, hlone⟩ := hpages
      exact ⟨hdword, hfill, fun w hw => UInt64.toNat_inj.mp (hsizes w hw), hlone, hsmall⟩
    cases hdirect : directPrp2 first (second :: rest) with
    | some prp2 =>
      rw [buildSgList_direct halign hdirect] at hbytes htot
      obtain ⟨hdword, hreach, htail⟩ :=
        first_of_describes rfl (htot.trans hcnt) hpos (fun w hw => (hwhole w hw).1) hbytes
      have hlong := hreach (cons_ne_nil _ _)
      cases rest with
      | cons third rest => cases hdirect
      | nil =>
        simp only [directPrp2, Option.ite_none_right_eq_some, Option.some.injEq,
          UInt64.le_iff_toNat_le, UInt64.toNat_add] at hdirect
        obtain ⟨hsum, rfl⟩ := hdirect
        obtain ⟨hextra, hpage⟩ := pair_of_prpTail (hwhole second mem_cons_self).2
          (by omega) (succ_pos _) hfirst (by omega) (htail hlong)
        refine ⟨hdword, by omega, ?_, ?_⟩
        · intro w hw
          rwa [mem_singleton.mp hw]
        · rw [length_singleton]
          omega
    | none =>
      have hblock := hfree hdirect
      rw [buildSgList_blank halign hdirect hblock.1] at hbytes htot
      obtain ⟨hdword, hreach, htail⟩ :=
        first_of_describes rfl (htot.trans hcnt) hpos (fun w hw => (hwhole w hw).1) hbytes
      have hlong := hreach (cons_ne_nil _ _)
      by_cases hleft : 4096 < first.physAddr.toNat % 4096 + first.size.toNat - 4096 +
          byteCount (second :: rest)
      · obtain ⟨hextra, hpages, hlone⟩ :=
          rest_of_prpTail hblock hlarge (succ_pos _) hleft (htail hlong)
        exact ⟨hdword, by omega, hpages, hlone⟩
      -- two pages need no list
      exfalso
      cases rest with
      | nil =>
        simp only [directPrp2, ite_eq_right_iff, reduceCtorEq, imp_false,
          UInt64.le_iff_toNat_le, UInt64.toNat_add] at hdirect
        omega
      | cons third rest =>
        have hthird := hlarge third (mem_cons_of_mem _ mem_cons_self)
        have hcount'' := byteCount_cons third rest
        omega

lemma not_describes_of_lone (hguard : dmaGuardValidate vectors = true)
    (hfree : FreeBlock vectors block) (halign : vectors.tail.all IoVec.pageAligned = true)
    (hmany : 512 < vectors.length) (hlone : (vectors.length - 1) % 511 = 1) :
    ¬(buildSgList (blank block) vectors).Describes vectors := by
  intro h
  cases vectors with
  | nil => cases hguard
  | cons first rest =>
    rw [length_cons] at hmany hlone
    have hexact := pageExact_of_describes (size_pos_of_guard hguard) halign (fun _ => hfree) h
    cases rest with
    | nil =>
      rw [length_nil] at hmany
      omega
    | cons second rest =>
      obtain ⟨-, -, -, hnot, -⟩ := hexact
      exact hnot ⟨lt_of_succ_lt_succ hmany, hlone⟩

/-- For vectors that the DMA guard accepts, every valid chain describes their bytes if and only if
the vectors fill the pages that their entries stand for, or no valid chain can be built. -/
theorem describes_iff_describable (vectors : List IoVec)
    (hguard : dmaGuardValidate vectors = true) :
    (∀ env : SgEnv, env.Serves vectors → (buildSgList env vectors).chain.isValid = true →
      (buildSgList env vectors).Describes vectors) ↔ Describable vectors := by
  have hpos := size_pos_of_guard hguard
  cases vectors with
  | nil => cases hguard
  | cons first rest =>
    constructor
    · intro h halign hroom
      cases hdirect : directPrp2 first rest with
      | some prp2 =>
        refine pageExact_of_describes hpos halign (fun hnone => ?_)
          (h (blank 0) (.inl rfl) ?_)
        · rw [hdirect] at hnone
          cases hnone
        · rw [buildSgList_direct halign hdirect]
      | none =>
        obtain ⟨block, hfree⟩ := hroom hdirect
        refine pageExact_of_describes hpos halign (fun _ => hfree)
          (h (blank block) (.inr hfree) ?_)
        rw [buildSgList_blank halign hdirect hfree.1]
    · intro h env henv hval
      obtain ⟨halign, hway⟩ := buildSgList_valid hval
      refine describes_of_pageExact henv hval (h halign fun hdirect => ?_)
      obtain ⟨prp2, hsome⟩ | ⟨-, hblock, -⟩ := hway
      · rw [hdirect] at hsome
        cases hsome
      · exact ⟨env.block, henv.resolve_left hblock⟩

/-- Three pages that lie apart are described through a list page. -/
theorem threePages_described : let vectors : List IoVec :=
      [⟨0x200000, 0xFFFF800000200000, 4096⟩, ⟨0x204000, 0xFFFF800000204000, 4096⟩,
        ⟨0x202000, 0xFFFF800000202000, 4096⟩]
    let env : SgEnv := ⟨fun _ => 0xFFFF, 0x300000, 0xFFFF900000300000⟩
    dmaGuardValidate vectors = true ∧ (buildSgList env vectors).chain.isValid = true ∧
      (buildSgList env vectors).Describes vectors := by
  intro vectors env
  have hguard : dmaGuardValidate vectors = true := by decide
  have hval : (buildSgList env vectors).chain.isValid = true := by decide
  have hserves : env.Serves vectors := by
    refine .inr ⟨by decide, by decide, by decide, ?_⟩
    decide
  have hexact : PageExact vectors := by
    refine ⟨by decide, by decide, by decide, by decide, by decide⟩
  exact ⟨hguard, hval, (describes_iff_describable vectors hguard).mpr (fun _ _ => hexact)
    env hserves hval⟩

/-- `n` pages in a row. -/
def pagesFrom (addr : UInt64) (n : Nat) : List IoVec :=
  (List.range n).map fun i =>
    ⟨addr + UInt64.ofNat i * 4096, 0xFFFF800000000000 + addr + UInt64.ofNat i * 4096, 4096⟩

/-- A page's worth of bytes that starts inside a page is not described, and neither are 513 pages:
the controller takes the link to the second list page for the last entry. -/
theorem misaligned_and_lone_not_described :
    (∃ (env : SgEnv) (v : IoVec), dmaGuardValidate [v] = true ∧ env.Serves [v] ∧
      (buildSgList env [v]).chain.isValid = true ∧ ¬(buildSgList env [v]).Describes [v]) ∧
    ∃ env : SgEnv, dmaGuardValidate (pagesFrom 0x200000 513) = true ∧
      env.Serves (pagesFrom 0x200000 513) ∧
      (buildSgList env (pagesFrom 0x200000 513)).chain.isValid = true ∧
      ¬(buildSgList env (pagesFrom 0x200000 513)).Describes (pagesFrom 0x200000 513) := by
  constructor
  · refine ⟨blank 0, ⟨0x200200, 0xFFFF800000200200, 4096⟩, by decide, .inl rfl, by decide, ?_⟩
    intro h
    have hexact := single_of_describes (fun hnone => by cases hnone) (by decide) h
    exact absurd hexact.2 (by decide)
  · have hguard : dmaGuardValidate (pagesFrom 0x200000 513) = true := by decide +kernel
    have hfree : FreeBlock (pagesFrom 0x200000 513) 0x800000 :=
      ⟨by decide, by decide, by decide +kernel, by decide +kernel⟩
    have halign : (pagesFrom 0x200000 513).tail.all IoVec.pageAligned = true := by decide +kernel
    refine ⟨blank 0x800000, hguard, .inr hfree, by decide +kernel, ?_⟩
    exact not_describes_of_lone hguard hfree halign (by decide +kernel) (by decide +kernel)

end Singularity.Storage
