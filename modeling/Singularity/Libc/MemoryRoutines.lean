import Singularity.Foundation.ByteLoops

/-!
# Memory and string routines

The generic routines of `libc/string.c` work on bytes, except for the words of `memset_generic`;
the SSE2 and AVX ones walk over blocks. Addresses are numbers without an end: ranges do not wrap.
-/

namespace Singularity.Libc

open Foundation Function Nat Option

variable (m : Mem) (ptr : Nat) (value : BitVec 32) (num : Nat)

/-- `(uint8_t)value`. -/
def lowByte : UInt8 := UInt8.ofNat value.toNat

/-- `while (num--) *p++ = b;`, which `rep stosb` does as well. -/
def storeBytes (b : UInt8) (m : Mem) (i num : Nat) : Mem :=
  (blockLoop 1 1 (fun m i => update m (ptr + i) b) m i num).1

def memsetGeneric : Mem × Nat :=
  let v64 := (lowByte value).toNat * 0x0101010101010101 % 2 ^ 64
  let (m, i, num) := blockLoop 8 8 (fun m i => m.write64 (ptr + i) v64) m 0 num
  (storeBytes ptr (lowByte value) m i num, ptr)

/-- The stores up to the first address that is a multiple of 16. -/
def alignLoop (b : UInt8) : Mem → Nat → Nat → Mem × Nat × Nat
  | m, i, 0 => (m, i, 0)
  | m, i, num + 1 =>
    if (ptr + i) % 16 ≠ 0 then alignLoop b (update m (ptr + i) b) (i + 1) num
    else (m, i, num + 1)

/-- `movdqa` of a register of zeros, which faults at other addresses than multiples of 16. -/
def storeZeros (m : Option Mem) (a : Nat) : Option Mem :=
  if a % 16 = 0 then m.map fun m => m.fill a 16 0 else none

/-- Without a result if there is a fault. -/
def memsetSse2 : Option (Mem × Nat) :=
  if num < 64 then some (memsetGeneric m ptr value num)
  else
    let (m, i, num) := alignLoop ptr (lowByte value) m 0 num
    if value = 0 then
      let loops := num / 16
      let remaining := num % 16
      let (m, i, loops) := blockLoop 4 64
        (fun m i => storeZeros (storeZeros (storeZeros (storeZeros m (ptr + i)) (ptr + i + 16))
          (ptr + i + 32)) (ptr + i + 48)) (some m) i loops
      let (m, i, _) := blockLoop 1 16 (fun m i => storeZeros m (ptr + i)) m i loops
      m.map fun m => (storeBytes ptr 0 m i remaining, ptr)
    else some (memsetGeneric m ptr value num)

/-- Before `rep stosb` the value is put into `eax`, which clears the upper half of `rax`. -/
def memsetAvx : Mem × Nat :=
  let b := lowByte value
  let (m, i, num) := blockLoop 128 128
    (fun m i => (((m.fill (ptr + i) 32 b).fill (ptr + i + 32) 32 b).fill (ptr + i + 64) 32 b).fill
      (ptr + i + 96) 32 b) m 0 num
  (storeBytes ptr b m i num, value.toNat)

/-- How far the first multiple of 16 is away. -/
def alignGap (ptr : Nat) : Nat := (16 - ptr % 16) % 16

lemma storeBytes_eq (b : UInt8) (i num : Nat) :
    storeBytes ptr b (m.fill ptr i b) i num = m.fill ptr (i + num) b := by
  have hbody (i : Nat) : update (m.fill ptr i b) (ptr + i) b = m.fill ptr (i + 1) b := by
    rw [Mem.update_eq_fill, Mem.fill_fill]
  rw [storeBytes, blockLoop_bytes (m.fill ptr · b) hbody]

lemma digit_repeat : ∀ (b : Fin 256) (i : Fin 8),
    b * 0x0101010101010101 % 2 ^ 64 / 256 ^ (i : Nat) % 256 = (b : Nat) := by decide +kernel

/-- The word of `memset_generic` has the same byte everywhere. -/
lemma write64_repeat (a : Nat) (b : UInt8) :
    m.write64 a (b.toNat * 0x0101010101010101 % 2 ^ 64) = m.fill a 8 b := by
  funext x
  unfold Mem.write64 Mem.writeBytes Mem.fill
  split_ifs with hx
  · apply UInt8.toNat_inj.mp
    rw [UInt8.toNat_ofNat']
    exact digit_repeat ⟨b.toNat, b.toNat_lt⟩ ⟨x - a, by omega⟩
  · rfl

lemma blockLoop_fill (b : UInt8) (hk : 0 < k) (hbody : ∀ m i, body m i = m.fill (ptr + i) k b) :
    blockLoop k k body m 0 num = (m.fill ptr (k * (num / k)) b, k * (num / k), num % k) := by
  have hnext (i : Nat) : body (m.fill ptr i b) i = m.fill ptr (i + k) b := by
    rw [hbody, Mem.fill_fill]
  have hloop := blockLoop_eq (I := fun _ => True) (m.fill ptr · b) hk
    (fun i _ => ⟨hnext i, trivial⟩) trivial num (i := 0)
  rwa [Mem.fill_zero, Nat.zero_add] at hloop

lemma memsetGeneric_eq : memsetGeneric m ptr value num = (m.fill ptr num (lowByte value), ptr) := by
  have hloop := blockLoop_fill m ptr num (lowByte value) (by decide : 0 < 8)
    fun m i => write64_repeat m (ptr + i) _
  simp only [memsetGeneric, hloop, storeBytes_eq, div_add_mod]

lemma memsetAvx_eq : memsetAvx m ptr value num = (m.fill ptr num (lowByte value), value.toNat) := by
  simp only [memsetAvx]
  rw [blockLoop_fill m ptr num (lowByte value) (by decide : 0 < 128)
    fun m i => by rw [Mem.fill_fill, Mem.fill_fill, Mem.fill_fill]]
  simp only [storeBytes_eq, div_add_mod]

lemma alignLoop_eq {ptr : Nat} (b : UInt8) {k : Nat} (hk : k < 16) {i num : Nat}
    (halign : (ptr + i + k) % 16 = 0) (hnum : k ≤ num) :
    alignLoop ptr b (m.fill ptr i b) i num = (m.fill ptr (i + k) b, i + k, num - k) := by
  induction k generalizing i num with
  | zero => cases num <;> simp_all [alignLoop]
  | succ k ih =>
    obtain ⟨num, rfl⟩ := Nat.exists_eq_add_of_le' hnum
    rw [← Nat.add_assoc, alignLoop, if_pos (by omega), Mem.update_eq_fill, Mem.fill_fill,
      ih (by omega) (by omega) (by omega)]
    simp only [Nat.add_assoc, Nat.add_comm 1, Nat.add_sub_cancel]

lemma storeZeros_eq {ptr i : Nat} (halign : (ptr + i) % 16 = 0) :
    storeZeros (some (m.fill ptr i 0)) (ptr + i) = some (m.fill ptr (i + 16) 0) := by
  rw [storeZeros, if_pos halign, map_some, Mem.fill_fill]

lemma blockLoop_storeZeros {ptr i : Nat} (halign : (ptr + i) % 16 = 0) (loops : Nat) :
    blockLoop 1 16 (fun m i => storeZeros m (ptr + i)) (some (m.fill ptr i 0)) i loops =
      (some (m.fill ptr (i + 16 * loops) 0), i + 16 * loops, 0) := by
  rw [blockLoop_eq (I := fun i => (ptr + i) % 16 = 0) (fun i => some (m.fill ptr i 0)) Nat.one_pos
    (fun i hi => ⟨storeZeros_eq m hi, by omega⟩) halign, Nat.div_one, mod_one]

lemma alignLoop_start (b : UInt8) (hnum : 64 ≤ num) :
    alignLoop ptr b m 0 num = (m.fill ptr (alignGap ptr) b, alignGap ptr, num - alignGap ptr) ∧
      (ptr + alignGap ptr) % 16 = 0 := by
  have halign : (ptr + alignGap ptr) % 16 = 0 := by
    unfold alignGap
    omega
  have hgap : alignGap ptr < 16 := mod_lt _ (by decide)
  have hstart := alignLoop_eq m b hgap (i := 0) halign (hgap.le.trans (le_trans (by decide) hnum))
  rw [Mem.fill_zero, Nat.zero_add] at hstart
  exact ⟨hstart, halign⟩

lemma memsetSse2_zero (hnum : 64 ≤ num) :
    memsetSse2 m ptr 0 num = some (m.fill ptr num 0, ptr) := by
  have h0 : lowByte 0 = 0 := rfl
  obtain ⟨hstart, halign⟩ := alignLoop_start m ptr num 0 hnum
  have hfour (i : Nat) (hi : (ptr + i) % 16 = 0) :
      storeZeros (storeZeros (storeZeros (storeZeros (some (m.fill ptr i 0)) (ptr + i))
        (ptr + i + 16)) (ptr + i + 32)) (ptr + i + 48) = some (m.fill ptr (i + 64) 0) := by
    simp only [Nat.add_assoc ptr]
    rw [storeZeros_eq m hi, storeZeros_eq m (by omega), storeZeros_eq m (by omega),
      storeZeros_eq m (by omega)]
  rw [memsetSse2, if_neg (Nat.not_lt.mpr hnum)]
  simp only [hstart, h0, if_true]
  rw [blockLoop_eq (I := fun i => (ptr + i) % 16 = 0) (fun i => some (m.fill ptr i 0))
    (by decide) (fun i hi => ⟨hfour i hi, by omega⟩) halign]
  simp only [blockLoop_storeZeros m (i := alignGap ptr + 64 * ((num - alignGap ptr) / 16 / 4))
    (show (ptr + _) % 16 = 0 by omega), map_some, storeBytes_eq]
  congr 3
  have hgap : alignGap ptr < 16 := mod_lt _ (by decide)
  omega

lemma memsetSse2_of_ne (hnum : 64 ≤ num) (hvalue : value ≠ 0) :
    memsetSse2 m ptr value num = some (m.fill ptr (num - alignGap ptr) (lowByte value), ptr) := by
  obtain ⟨hstart, -⟩ := alignLoop_start m ptr num (lowByte value) hnum
  have hgap : alignGap ptr < 16 := mod_lt _ (by decide)
  rw [memsetSse2, if_neg (Nat.not_lt.mpr hnum)]
  simp only [hstart, if_neg hvalue, memsetGeneric_eq]
  rw [Mem.fill_of_le (by omega)]

/-- Of a long range with an unaligned start `memset_sse2` leaves the last bytes as they were, unless
it clears the range; `memset_avx` returns the value instead of the pointer. -/
theorem memset_agree_iff :
    (memsetSse2 m ptr value num = some (memsetGeneric m ptr value num) ↔ num < 64 ∨ value = 0 ∨
        ∀ x, ptr + num - alignGap ptr ≤ x → x < ptr + num → m x = lowByte value) ∧
    (memsetAvx m ptr value num).1 = (memsetGeneric m ptr value num).1 ∧
    ((memsetAvx m ptr value num).2 = (memsetGeneric m ptr value num).2 ↔ ptr = value.toNat) ∧
    memsetGeneric m ptr value num = (m.fill ptr num (lowByte value), ptr) := by
  rw [memsetGeneric_eq, memsetAvx_eq]
  refine ⟨?_, rfl, eq_comm, rfl⟩
  have hgap : alignGap ptr < 16 := mod_lt _ (by decide)
  by_cases hnum : num < 64
  · simp [memsetSse2, hnum, memsetGeneric_eq]
  by_cases hvalue : value = 0
  · subst hvalue
    rw [memsetSse2_zero m ptr num (Nat.le_of_not_lt hnum)]
    exact iff_of_true rfl (.inr (.inl rfl))
  rw [memsetSse2_of_ne m ptr value num (Nat.le_of_not_lt hnum) hvalue]
  simp only [hnum, hvalue, false_or, Option.some.injEq, Prod.mk.injEq, and_true, funext_iff]
  refine forall_congr' fun x => ?_
  unfold Mem.fill
  split_ifs with h1 h2 h2
  · simp only [true_iff]
    omega
  · omega
  · simp only [show ptr + num - alignGap ptr ≤ x by omega, h2.2, true_imp_iff]
  · simp only [true_iff]
    omega

/-- 64 ones at address 1 end 15 bytes too early. -/
theorem memset_differ_unaligned :
    memsetSse2 (fun _ => 0) 1 1 64 ≠ some (memsetGeneric (fun _ => 0) 1 1 64) ∧
    (memsetAvx (fun _ => 0) 16 1 64).2 = 1 := by
  rw [memsetSse2_of_ne _ _ _ _ le_rfl (by decide), memsetGeneric_eq, memsetAvx_eq]
  refine ⟨fun h => ?_, rfl⟩
  have hlast := congrFun (congrArg Prod.fst (Option.some.inj h)) 64
  exact absurd hlast (by decide)

variable (dest src : Nat)

/-- `while (num--) *d++ = *s++;`, which `rep movsb` does as well. -/
def copyBytes (m : Mem) (i num : Nat) : Mem :=
  (blockLoop 1 1 (fun m i => update m (dest + i) (m (src + i))) m i num).1

def memcpyGeneric : Mem × Nat := (copyBytes dest src m 0 num, dest)

/-- `for (; i + 16 <= num; i += 16)` with sums of 64 bits. -/
def sse2Loop : Nat → Mem → Nat → Option (Mem × Nat)
  | 0, _, _ => none
  | fuel + 1, m, i =>
    if (i + 16) % 2 ^ 64 ≤ num then
      sse2Loop fuel (m.copy (dest + i) 16 (m.load (src + i))) ((i + 16) % 2 ^ 64)
    else some (m, i)

def memcpySse2 (fuel : Nat) : Option (Mem × Nat) :=
  if num < 64 then some (memcpyGeneric m num dest src)
  else
    (sse2Loop num dest src fuel m 0).map fun r => (copyBytes dest src r.1 r.2 (num - r.2), dest)

/-- A block is loaded into four registers before it is stored. -/
def memcpyAvx : Mem × Nat :=
  let (m, i, num) := blockLoop 128 128 (fun m i =>
    let ymm0 := m.load (src + i)
    let ymm1 := m.load (src + i + 32)
    let ymm2 := m.load (src + i + 64)
    let ymm3 := m.load (src + i + 96)
    (((m.copy (dest + i) 32 ymm0).copy (dest + i + 32) 32 ymm1).copy (dest + i + 64) 32 ymm2).copy
      (dest + i + 96) 32 ymm3) m 0 num
  (copyBytes dest src m i num, dest)

/-- The routines that `g_memcpy` may point to. -/
inductive CopyRoutine
  | generic
  | sse2
  | avx
  deriving DecidableEq

/-- Without a result if the steps do not suffice. -/
def CopyRoutine.memcpy (g : CopyRoutine) (fuel : Nat) : Option (Mem × Nat) :=
  match g with
  | generic => some (memcpyGeneric m num dest src)
  | sse2 => memcpySse2 m num dest src fuel
  | avx => some (memcpyAvx m num dest src)

/-- `while (num--) *--d = *--s;` from the ends of the ranges. -/
def copyDown : Mem → Nat → Mem
  | m, 0 => m
  | m, num + 1 => copyDown (update m (dest + num) (m (src + num))) num

def CopyRoutine.memmove (g : CopyRoutine) (fuel : Nat) : Option (Mem × Nat) :=
  if dest = src then some (m, dest)
  else if dest < src then g.memcpy m num dest src fuel
  else some (copyDown dest src m num, dest)

variable {dest src}

section
variable (hle : dest ≤ src)
include hle

lemma copyBytes_eq (i num : Nat) :
    copyBytes dest src (m.move dest src i) i num = m.move dest src (i + num) := by
  have hbody (i : Nat) : update (m.move dest src i) (dest + i) (m.move dest src i (src + i)) =
      m.move dest src (i + 1) := by
    rw [Mem.update_eq_move, Mem.move_move hle]
  rw [copyBytes, blockLoop_bytes (m.move dest src ·) hbody]

lemma memcpyGeneric_eq : memcpyGeneric m num dest src = (m.move dest src num, dest) := by
  have h := copyBytes_eq m hle 0 num
  rw [Mem.move_zero, Nat.zero_add] at h
  rw [memcpyGeneric, h]

lemma memcpyAvx_eq : memcpyAvx m num dest src = (m.move dest src num, dest) := by
  have hblock (m : Mem) (d s : Nat) : (((m.copy d 32 (m.load s)).copy (d + 32) 32
      (m.load (s + 32))).copy (d + 64) 32 (m.load (s + 64))).copy (d + 96) 32 (m.load (s + 96)) =
      m.move d s 128 := by
    simp only [Mem.load_add m s, Mem.copy_copy m d _ 32 (m.load s)]
    rfl
  have hloop : blockLoop 128 128 (fun m i => m.move (dest + i) (src + i) 128)
      (m.move dest src 0) 0 num = _ :=
    blockLoop_eq (I := fun _ => True) (m.move dest src ·) (by decide)
      (fun i _ => ⟨Mem.move_move hle i 128, trivial⟩) trivial num
  rw [Mem.move_zero, Nat.zero_add] at hloop
  simp only [memcpyAvx, hblock, hloop, copyBytes_eq m hle, div_add_mod]

lemma sse2Loop_eq {num : Nat} (hnum : num < 2 ^ 64 - 16) {k i : Nat}
    (hi : i + 16 * k = 16 * (num / 16)) :
    sse2Loop num dest src (k + 1) (m.move dest src i) i =
      some (m.move dest src (i + 16 * k), i + 16 * k) := by
  induction k generalizing i with
  | zero => rw [sse2Loop, if_neg (by omega), Nat.mul_zero, Nat.add_zero]
  | succ k ih =>
    have hmove : (m.move dest src i).copy (dest + i) 16 ((m.move dest src i).load (src + i)) =
        m.move dest src (i + 16) := Mem.move_move hle i 16
    have hsum : (i + 16) % 2 ^ 64 = i + 16 := mod_eq_of_lt (by omega)
    rw [sse2Loop, hsum, if_pos (by omega), hmove, ih (by omega), mul_succ]
    simp only [Nat.add_assoc, Nat.add_comm 16]

end

lemma sse2Loop_endless {num : Nat} (hnum : 2 ^ 64 - 16 ≤ num) (fuel : Nat) {i : Nat}
    (hi : i % 16 = 0) : sse2Loop num dest src fuel m i = none := by
  induction fuel generalizing m i with
  | zero => rfl
  | succ fuel ih =>
    rw [sse2Loop, if_pos (by omega)]
    exact ih _ (by omega)

lemma memcpySse2_eq (hle : dest ≤ src) (hnum : num < 2 ^ 64 - 16) :
    memcpySse2 m num dest src (num / 16 + 1) = some (m.move dest src num, dest) := by
  rw [memcpySse2]
  split_ifs
  · rw [memcpyGeneric_eq m num hle]
  · have hloop := sse2Loop_eq m hle hnum (i := 0) (k := num / 16) (Nat.zero_add _)
    rw [Mem.move_zero, Nat.zero_add] at hloop
    rw [hloop, map_some, copyBytes_eq m hle, add_sub_of_le (mul_div_le num 16)]

lemma copyDown_eq (hle : src ≤ dest) (num : Nat) :
    copyDown dest src m num = m.move dest src num := by
  induction num generalizing m with
  | zero => exact (Mem.move_zero m dest src).symm
  | succ num ih =>
    rw [copyDown, ih]
    funext x
    unfold Mem.move Mem.copy Mem.load
    split_ifs with h1 h2 h2
    · exact update_of_ne (by omega) ..
    · omega
    · have hx : x = dest + num := by omega
      rw [hx, update_self, Nat.add_sub_cancel_left]
    · exact update_of_ne (by omega) ..

/-- Every `memmove` moves the bytes, except that the loop of `memcpy_sse2` does not end for a count
in the last 16 numbers of the address space. -/
theorem memmove_right_iff (g : CopyRoutine) :
    (∃ fuel m', g.memmove m num dest src fuel = some (m', dest) ∧
      (∀ i < num, m' (dest + i) = m (src + i)) ∧ Mem.SameOutside dest num m m') ↔
    ¬(g = .sse2 ∧ dest < src ∧ 2 ^ 64 - 16 ≤ num) := by
  constructor
  · rintro ⟨fuel, m', hok, -⟩ ⟨rfl, hlt, hnum⟩
    rw [CopyRoutine.memmove, if_neg hlt.ne, if_pos hlt, CopyRoutine.memcpy, memcpySse2,
      if_neg (by omega), sse2Loop_endless m hnum fuel rfl] at hok
    cases hok
  · intro hcond
    refine ⟨num / 16 + 1, m.move dest src num, ?_, fun i hi => Mem.copy_apply hi,
      Mem.sameOutside_copy m dest num _⟩
    unfold CopyRoutine.memmove
    split_ifs with heq hlt
    · subst heq
      rw [Mem.move_self]
    · cases g with
      | generic => exact congrArg some (memcpyGeneric_eq m num hlt.le)
      | sse2 => exact memcpySse2_eq m num hlt.le (by simpa [hlt] using hcond)
      | avx => exact congrArg some (memcpyAvx_eq m num hlt.le)
    · rw [copyDown_eq m (Nat.le_of_not_lt hlt)]

/-- Almost the whole address space is to be moved by one byte. -/
theorem memmove_endless : ¬∃ fuel, (CopyRoutine.sse2.memmove (fun _ => 0) (2 ^ 64 - 1) 0 1
    fuel).isSome = true := by
  rintro ⟨fuel, hsome⟩
  rw [CopyRoutine.memmove, if_neg (by decide), if_pos (by decide), CopyRoutine.memcpy, memcpySse2,
    if_neg (by decide), sse2Loop_endless _ (by decide) fuel rfl] at hsome
  cases hsome

end Singularity.Libc
