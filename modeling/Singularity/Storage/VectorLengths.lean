import Singularity.Storage.WriteProtection

/-!
# The length of NVMe vector transfers

A vector call goes out as one command if all vectors but the first are whole pages, and otherwise
as block transfers, one after the other. The count of the one command has 16 bits and is cut from
the number of whole sectors; the vectors of the other way are tested one by one, while the transfer
is under way.
-/

namespace Singularity.Storage

open List Disk

namespace Written

/-- The `int` that a call returns. -/
def value (w : Written) : Int :=
  if w.result.toNat < 2 ^ 31 then w.result.toNat else w.result.toNat - 2 ^ 32

/-- The number of sectors that the commands transfer. -/
def sectors (w : Written) : Nat := (w.commands.map Command.count).sum

/-- The call returns 0 and submits nothing, or the bytes are a number of sectors that its commands
transfer and that it returns. -/
def RightLength (w : Written) (bytes : Nat) : Prop :=
  w = refused ∨ 512 ∣ bytes ∧ w.sectors = bytes / 512 ∧ w.value = (bytes / 512 : Nat)

end Written

/-- The hardware prepares and completes a command. -/
def Hardware.Does (hw : Hardware) (c : Command) : Prop :=
  hw.prepared c.lba c.count = true ∧ hw.completed c.lba c.count = true

namespace Driver

/-- `NVMeDriver::read_vector`: a write without the test of the protection. -/
def nvmeReadVector (hw : Hardware) (lba : UInt64) (vectors : List IoVec) : Written :=
  nvmeWriteVector false hw lba vectors

/-- The commands of the loop of a driver. -/
def chunks (maxSectors : Nat) (lba : UInt64) (count : Nat) : Nat → Nat → List Command
  | 0, _ => []
  | rounds + 1, written =>
    let chunk := min maxSectors (count - written)
    ⟨lba + UInt64.ofNat written, chunk⟩ :: chunks maxSectors lba count rounds (written + chunk)

/-- The commands for the vectors one after the other. -/
def vectorCommands : UInt64 → List IoVec → List Command
  | _, [] => []
  | lba, v :: vectors =>
    let count := v.blocks 512
    chunks 2048 lba count.toNat ((count.toNat + 2048 - 1) / 2048) 0 ++
      vectorCommands (lba + count.toUInt64) vectors

/-- The first vector is refused before its first command. -/
def RefusesFirst (hw : Hardware) (lba : UInt64) (v : IoVec) : Prop :=
  v.ragged 512 = true ∨ v.blocks 512 = 0 ∨
    hw.prepared lba (min 2048 (v.blocks 512).toNat) = false

/-- The condition for a transfer of the right length. One command: it is not built, or it is for at
most 65536 whole sectors and completed. Several: the first vector is refused, or all vectors are
whole sectors, an `int` holds their number, and every command is done. -/
def Lawful (hw : Hardware) (lba : UInt64) (vectors : List IoVec) : Prop :=
  if vectors.tail.all IoVec.pageAligned then
    hw.chain = false ∨ 512 ∣ byteCount vectors ∧ byteCount vectors / 512 ≤ 65536 ∧
      hw.completed lba (byteCount vectors / 512) = true
  else
    (∀ v ∈ vectors.head?, RefusesFirst hw lba v) ∨ (∀ v ∈ vectors, v.ragged 512 = false) ∧
      byteCount vectors / 512 < 2 ^ 31 ∧ ∀ c ∈ vectorCommands lba vectors, hw.Does c

variable {hw : Hardware} {lba : UInt64}

section
variable {maxSectors count : Nat}

lemma submit_of_does (rounds written : Nat)
    (h : ∀ c ∈ chunks maxSectors lba count rounds written, hw.Does c) :
    submit hw maxSectors lba count rounds written =
      ⟨1, chunks maxSectors lba count rounds written⟩ := by
  induction rounds generalizing written with
  | zero => rfl
  | succ rounds ih =>
    rw [chunks, forall_mem_cons] at h
    rw [submit, if_pos h.1.1, if_pos h.1.2, ih _ h.2, chunks]

lemma does_of_submit (rounds written : Nat)
    (h : (submit hw maxSectors lba count rounds written).result = 1) :
    ∀ c ∈ chunks maxSectors lba count rounds written, hw.Does c := by
  induction rounds generalizing written with
  | zero => nofun
  | succ rounds ih =>
    simp only [submit] at h
    split at h
    case isFalse => cases h
    case isTrue hprepared =>
      split at h
      case isFalse => cases h
      case isTrue hcompleted =>
        exact forall_mem_cons.mpr ⟨⟨hprepared, hcompleted⟩, ih _ h⟩

lemma submit_succ (hw : Hardware) (lba : UInt64) (maxSectors count rounds : Nat) :
    if hw.prepared lba (min maxSectors count) then
      (submit hw maxSectors lba count (rounds + 1) 0).commands ≠ []
    else submit hw maxSectors lba count (rounds + 1) 0 = .refused := by
  have hlba : lba + UInt64.ofNat 0 = lba := UInt64.add_zero lba
  simp only [submit, hlba, Nat.sub_zero]
  split
  case isFalse => rfl
  case isTrue => split <;> exact cons_ne_nil _ _

lemma sum_chunks (maxSectors : Nat) (lba : UInt64) (count rounds written : Nat) :
    ((chunks maxSectors lba count rounds written).map Command.count).sum =
      min (rounds * maxSectors) (count - written) := by
  induction rounds generalizing written with
  | zero => simp [chunks]
  | succ rounds ih =>
    rw [chunks, map_cons, sum_cons, ih, Nat.succ_mul]
    dsimp only
    omega

end

variable {vectors : List IoVec}

section
variable {v : IoVec}

lemma isValidKernelRegion_mono (h : isValidKernelRegion start len = true)
    (hle : len'.toNat ≤ len.toNat) : isValidKernelRegion start len' = true := by
  have hstart := start.toNat_lt
  have hlen := len.toNat_lt
  simp only [isValidKernelRegion, UInt64.lt_iff_toNat_lt, UInt64.le_iff_toNat_le, UInt64.toNat_add,
    UInt64.reduceToNat] at h ⊢
  split_ifs at h ⊢ <;> simp_all <;> omega

lemma toNat_blocks (v : IoVec) : (v.blocks 512).toNat = v.size.toNat / 512 % 2 ^ 32 := by
  rw [IoVec.blocks, UInt64.toNat_toUInt32, UInt64.toNat_div]
  rfl

lemma dvd_of_whole (h : v.ragged 512 = false) : 512 ∣ v.size.toNat := by
  simp only [IoVec.ragged, Bool.or_eq_false_iff, decide_eq_false_iff_not, not_not] at h
  exact Nat.dvd_of_mod_eq_zero ((UInt64.toNat_mod ..).symm.trans (congrArg UInt64.toNat h.2))

lemma blocks_ne_zero (h : v.ragged 512 = false) (hpos : 0 < v.size.toNat)
    (hlt : v.size.toNat / 512 < 2 ^ 32) : v.blocks 512 ≠ 0 := by
  intro h0
  have hblocks := toNat_blocks v
  have hdvd := dvd_of_whole h
  rw [h0, UInt32.toNat_zero] at hblocks
  omega

lemma nvmeWriteBlock_eq (hguard : dmaGuardValidate [v] = true) (hcnt : v.blocks 512 ≠ 0) :
    nvmeWriteBlock false hw lba (v.blocks 512) v.virtAddr =
      submit hw 2048 lba (v.blocks 512).toNat (((v.blocks 512).toNat + 2048 - 1) / 2048) 0 := by
  have hpos : 0 < (v.blocks 512).toNat :=
    Nat.pos_of_ne_zero fun h => hcnt (UInt32.toNat_inj.mp h)
  have hblocks := toNat_blocks v
  have hsz := v.size.toNat_lt
  have hbytes : ((v.blocks 512).toUInt64 * 512).toNat = (v.blocks 512).toNat * 512 := by
    have h512 : (512 : UInt64).toNat = 512 := rfl
    rw [UInt64.toNat_mul, UInt32.toNat_toUInt64, h512]
    omega
  have hinner : dmaGuardValidate [⟨0, v.virtAddr, (v.blocks 512).toUInt64 * 512⟩] = true := by
    simp only [dmaGuardValidate, isEmpty_cons, all_cons, all_nil, Bool.and_true,
      Bool.not_false, Bool.true_and, Bool.and_eq_true, Bool.not_eq_true', Bool.or_eq_false_iff,
      decide_eq_false_iff_not] at hguard ⊢
    refine ⟨⟨fun h => ?_, hguard.1.2⟩, isValidKernelRegion_mono hguard.2 (by omega)⟩
    have h0 := congrArg UInt64.toNat h
    rw [hbytes, UInt64.toNat_zero] at h0
    omega
  rw [nvmeWriteBlock, if_neg hcnt, if_neg (by decide), guarded, if_pos hinner]

variable (hguard : ∀ v ∈ vectors, dmaGuardValidate [v] = true)
include hguard

/-- The loop over whole vectors with hardware that does all commands. -/
lemma vectorLoop_of_does (hsizes : ∀ v ∈ vectors, 0 < v.size.toNat) (lba : UInt64)
    (total : UInt32) (hwhole : ∀ v ∈ vectors, v.ragged 512 = false)
    (hlt : byteCount vectors / 512 < 2 ^ 32) (h : ∀ c ∈ vectorCommands lba vectors, hw.Does c) :
    (vectorLoop 512 (nvmeWriteBlock false hw) lba total vectors).result.toNat =
        (total.toNat + byteCount vectors / 512) % 2 ^ 32 ∧
      512 * (vectorLoop 512 (nvmeWriteBlock false hw) lba total vectors).sectors =
        byteCount vectors := by
  induction vectors generalizing lba total with
  | nil => exact ⟨(Nat.mod_eq_of_lt total.toNat_lt).symm, rfl⟩
  | cons v vectors ih =>
    rw [forall_mem_cons] at hguard hsizes hwhole
    rw [vectorCommands, forall_mem_append] at h
    rw [byteCount_cons] at hlt ⊢
    obtain ⟨hresult, hsectors⟩ := ih hguard.2 hsizes.2 (lba + (v.blocks 512).toUInt64)
      (total + v.blocks 512) hwhole.2 (by omega) h.2
    have hsum := sum_chunks 2048 lba (v.blocks 512).toNat
      (((v.blocks 512).toNat + 2048 - 1) / 2048) 0
    have hcnt := blocks_ne_zero hwhole.1 hsizes.1 (by omega)
    have hdvd := dvd_of_whole hwhole.1
    have hblocks := toNat_blocks v
    simp only [Written.sectors] at hsectors ⊢
    simp only [vectorLoop, hwhole.1, Bool.false_eq_true, if_false,
      nvmeWriteBlock_eq hguard.1 hcnt, submit_of_does _ _ h.1, if_true, map_append,
      sum_append, hresult, hsum, UInt32.toNat_add]
    omega

lemma does_of_vectorLoop (lba : UInt64) (total : UInt32)
    (h : (vectorLoop 512 (nvmeWriteBlock false hw) lba total vectors).result ≠ 0) :
    (∀ v ∈ vectors, v.ragged 512 = false) ∧ ∀ c ∈ vectorCommands lba vectors, hw.Does c := by
  induction vectors generalizing lba total with
  | nil => exact ⟨nofun, nofun⟩
  | cons v vectors ih =>
    rw [forall_mem_cons] at hguard
    simp only [vectorLoop] at h
    split at h
    · exact absurd rfl h
    case isFalse hragged =>
      split at h
      case isFalse => exact absurd rfl h
      case isTrue hone =>
        have hcnt : v.blocks 512 ≠ 0 := by
          intro h0
          rw [h0] at hone
          cases hone
        rw [nvmeWriteBlock_eq hguard.1 hcnt] at hone
        obtain ⟨hwhole, hdoes⟩ := ih hguard.2 _ _ h
        exact ⟨forall_mem_cons.mpr ⟨Bool.eq_false_of_not_eq_true hragged, hwhole⟩,
          forall_mem_append.mpr ⟨does_of_submit _ _ hone, hdoes⟩⟩

omit hguard in
lemma vectorLoop_eq_refused (hv : dmaGuardValidate [v] = true) (lba : UInt64) :
    vectorLoop 512 (nvmeWriteBlock false hw) lba 0 (v :: vectors) = .refused ↔
      RefusesFirst hw lba v := by
  rw [vectorLoop, RefusesFirst]
  by_cases hragged : v.ragged 512 = true
  · simp [hragged]
  by_cases hcnt : v.blocks 512 = 0
  · simp [hragged, hcnt, nvmeWriteBlock, Written.refused]
  obtain ⟨rounds, hrounds⟩ : ∃ rounds, ((v.blocks 512).toNat + 2048 - 1) / 2048 = rounds + 1 := by
    have hpos : (v.blocks 512).toNat ≠ 0 := fun h => hcnt (UInt32.toNat_inj.mp h)
    exact ⟨_, (Nat.succ_pred (by omega)).symm⟩
  have hfirst := submit_succ hw lba 2048 (v.blocks 512).toNat rounds
  rw [if_neg hragged]
  simp only [nvmeWriteBlock_eq hv hcnt, hrounds]
  split_ifs at hfirst with hprepared
  · refine iff_of_false (fun h => hfirst ?_) (by simp [hragged, hcnt, hprepared])
    have hcommands := congrArg Written.commands h
    split at hcommands
    · exact (append_eq_nil_iff.mp hcommands).1
    · exact hcommands
  · simp [hprepared, hfirst, Written.refused]

end

lemma guard_singleton (h : dmaGuardValidate vectors = true) :
    ∀ v ∈ vectors, dmaGuardValidate [v] = true := by
  intro v hv
  rw [dmaGuardValidate, Bool.and_eq_true, all_eq_true] at h
  simpa [dmaGuardValidate] using h.2 v hv

lemma toNat_totalSectors (vectors : List IoVec) :
    (Disk.totalSectors vectors).toNat = byteCount vectors % 2 ^ 64 / 512 % 2 ^ 32 := by
  rw [totalSectors, UInt64.toNat_toUInt32, UInt64.toNat_div, toNat_foldl_size,
    UInt64.toNat_zero, Nat.zero_add]
  rfl

lemma commandSectors_eq (vectors : List IoVec) :
    Disk.commandSectors vectors =
      ((Disk.totalSectors vectors).toNat + 2 ^ 32 - 1) % 2 ^ 16 + 1 := by
  have hmask : (0xFFFF : UInt32).toNat = 2 ^ 16 - 1 := rfl
  have hone : (1 : UInt32).toNat = 1 := rfl
  have htot := (totalSectors vectors).toNat_lt
  rw [commandSectors, UInt32.toNat_and, hmask, Nat.and_two_pow_sub_one_eq_mod,
    UInt32.toNat_sub, hone]
  omega

lemma rightLength_direct (hpos : 0 < byteCount vectors) :
    Written.RightLength
        ⟨if hw.completed lba (Disk.commandSectors vectors) then Disk.totalSectors vectors else 0,
          [⟨lba, Disk.commandSectors vectors⟩]⟩ (byteCount vectors) ↔
      512 ∣ byteCount vectors ∧ byteCount vectors / 512 ≤ 65536 ∧
        hw.completed lba (byteCount vectors / 512) = true := by
  have htot := toNat_totalSectors vectors
  have hcommand := commandSectors_eq vectors
  simp only [Written.RightLength, Written.refused, Written.mk.injEq, reduceCtorEq, and_false,
    false_or, Written.sectors, map_cons, map_nil, sum_singleton]
  refine and_congr_right fun hdvd => ?_
  constructor
  · rintro ⟨hsectors, hvalue⟩
    rw [hsectors] at hvalue
    refine ⟨by omega, ?_⟩
    by_contra hcompleted
    rw [if_neg hcompleted] at hvalue
    have h0 := Int.ofNat_inj.mp hvalue
    rw [UInt32.toNat_zero] at h0
    omega
  · rintro ⟨hle, hcompleted⟩
    have hsectors : commandSectors vectors = byteCount vectors / 512 := by omega
    refine ⟨hsectors, ?_⟩
    rw [hsectors, if_pos hcompleted, Written.value, if_pos (by dsimp only; omega)]
    exact congrArg Nat.cast (by dsimp only; omega)

/-- Block transfers have the right length. -/
lemma rightLength_loop (hguard : ∀ v ∈ vectors, dmaGuardValidate [v] = true)
    (hsizes : ∀ v ∈ vectors, 0 < v.size.toNat) (hne : vectors ≠ []) :
    (vectorLoop 512 (nvmeWriteBlock false hw) lba 0 vectors).RightLength (byteCount vectors) ↔
      (∀ v ∈ vectors.head?, RefusesFirst hw lba v) ∨ (∀ v ∈ vectors, v.ragged 512 = false) ∧
        byteCount vectors / 512 < 2 ^ 31 ∧ ∀ c ∈ vectorCommands lba vectors, hw.Does c := by
  obtain ⟨v, rest, rfl⟩ := exists_cons_of_ne_nil hne
  rw [Written.RightLength, vectorLoop_eq_refused (hguard v mem_cons_self)]
  refine or_congr (by simp) ⟨?_, ?_⟩
  · rintro ⟨hdvd, -, hvalue⟩
    have hfirst := hsizes v mem_cons_self
    have hcnt := byteCount_cons v rest
    obtain ⟨hwhole, hdoes⟩ := does_of_vectorLoop hguard lba 0 fun h0 => by
      rw [Written.value, h0] at hvalue
      have h0 := Int.ofNat_inj.mp hvalue
      rw [UInt32.toNat_zero] at h0
      omega
    refine ⟨hwhole, ?_, hdoes⟩
    rw [Written.value] at hvalue
    have hlt := UInt32.toNat_lt
      (vectorLoop 512 (nvmeWriteBlock false hw) lba 0 (v :: rest)).result
    split at hvalue <;> omega
  · rintro ⟨hwhole, hlt, hdoes⟩
    obtain ⟨hresult, hsectors⟩ :=
      vectorLoop_of_does hguard hsizes lba 0 hwhole (by omega) hdoes
    rw [UInt32.toNat_zero] at hresult
    refine ⟨⟨_, hsectors.symm⟩, by omega, ?_⟩
    rw [Written.value, if_pos (by omega)]
    exact congrArg Nat.cast (by omega)

lemma rightLength_iff (hguard : dmaGuardValidate vectors = true) :
    (nvmeWriteVector false hw lba vectors).RightLength (byteCount vectors) ↔
      Lawful hw lba vectors := by
  have hsizes := size_pos_of_guard hguard
  have hguards := guard_singleton hguard
  cases vectors with
  | nil => cases hguard
  | cons v vs =>
    have hpos : 0 < byteCount (v :: vs) := by
      have hfirst := hsizes v mem_cons_self
      rw [byteCount_cons]
      omega
    simp only [nvmeWriteVector, Bool.false_eq_true, if_false, isEmpty_cons, hguard,
      Bool.not_true, Lawful]
    by_cases halign : (v :: vs).tail.all IoVec.pageAligned = true
    · rw [halign]
      cases hchain : hw.chain with
      | false => simp [Written.RightLength]
      | true => simpa [hchain] using rightLength_direct hpos
    · rw [Bool.eq_false_of_not_eq_true halign]
      exact rightLength_loop hguards hsizes (cons_ne_nil _ _)

/-- The two vector calls of the driver have the right length under the condition, and a write to a
protected disk always. -/
theorem vector_calls_rightLength_iff (hw : Hardware) (lba : UInt64)
    (hguard : dmaGuardValidate vectors = true) :
    ((nvmeReadVector hw lba vectors).RightLength (byteCount vectors) ↔ Lawful hw lba vectors) ∧
      ∀ writeProtected,
        (nvmeWriteVector writeProtected hw lba vectors).RightLength (byteCount vectors) ↔
          writeProtected = true ∨ Lawful hw lba vectors := by
  refine ⟨rightLength_iff hguard, fun writeProtected => ?_⟩
  cases writeProtected with
  | false => simpa using rightLength_iff hguard
  | true => exact iff_of_true (.inl rfl) (.inl rfl)

/-- Eight sectors in one command. -/
theorem vector_calls_rightLength_page :
    (nvmeReadVector .willing 0 [⟨0, 0xFFFF800000200000, 4096⟩]).RightLength 4096 :=
  (vector_calls_rightLength_iff .willing 0 (by decide)).1.mpr (.inr (by decide))

/-- Half a sector is read with a command for 65536 sectors, and the call returns 0. -/
theorem readVector_half_sector :
    dmaGuardValidate [⟨0, 0xFFFF800000200000, 256⟩] = true ∧
      nvmeReadVector .willing 0 [⟨0, 0xFFFF800000200000, 256⟩] = ⟨0, [⟨0, 65536⟩]⟩ ∧
      ¬ (nvmeReadVector .willing 0 [⟨0, 0xFFFF800000200000, 256⟩]).RightLength 256 := by
  refine ⟨by decide, by decide, ?_⟩
  rintro (h | ⟨h, -⟩)
  · exact absurd h (by decide)
  · exact absurd h (by decide)

end Driver

end Singularity.Storage
