import Singularity.Foundation.Memory
import Singularity.Paging.Walk

/-!
# Does `sys_write` read kernel memory?

`is_valid_user_ptr` accepts an address below the kernel if its page is mapped; whether user code may
read the page is not asked. The boot code maps the first four gibibytes for the supervisor only, so
the kernel itself lies behind such addresses.
-/

namespace Singularity.Paging

open Foundation Nat Option

/-- `is_valid_user_ptr`. -/
def isValidUserPtr (t : Tables) (cr3 addr size : Nat) : Bool :=
  if addr = 0 ∨ size = 0 then false
  else if 2 ^ 64 - 1 - size < addr then false
  else if kernelSpaceBase < addr + size then false
  else if 0x00007FFFFFFFFFFF < addr then false
  else
    let first := addr &&& Word.compl 0xFFF
    (List.range ((addr + size - first + 4095) / 4096)).all fun i =>
      virtToPhysAsm t cr3 (first + 4096 * i) != 0

/-- The byte that the processor reads at an address; no result is a page fault. -/
def loadByte (t : Tables) (cr3 : Nat) (mem : Mem) (virt : Nat) : Option UInt8 :=
  (translate t cr3 virt).map mem

/-- The copy loop of `sys_write` with `n` rounds left. -/
def copyLoop (t : Tables) (cr3 : Nat) (mem : Mem) (str : Nat) : Nat → Nat → Option (List UInt8)
  | 0, _ => some []
  | n + 1, i =>
    if (str + i) &&& 0xFFF = 0 ∧ isValidUserPtr t cr3 (str + i) 1 = false then some []
    else
      match loadByte t cr3 mem (str + i) with
      | none => none
      | some c => if c = 0 then some [] else (copyLoop t cr3 mem str n (i + 1)).map (c :: ·)

inductive WriteOutcome where
  | invalid
  | pageFault
  | wrote (bytes : List UInt8)
  deriving DecidableEq

/-- `sys_write`: what goes to the console. The registers of the caller are not changed. -/
def sysWrite (t : Tables) (cr3 : Nat) (mem : Mem) (str : Nat) : WriteOutcome :=
  if isValidUserPtr t cr3 str 1 then
    match copyLoop t cr3 mem str 255 0 with
    | none => .pageFault
    | some bytes => .wrote bytes
  else .invalid

/-- The entry lets user code pass. -/
def openEntry (e : Nat) : Bool := getFlag e pagePresent && getFlag e pageUser

/-- User code may access the page of an address: `PAGE_USER` is set at every level of the walk. -/
def userAccessible (t : Tables) (cr3 virt : Nat) : Bool :=
  let ix := getIndexes virt
  let e4 := t (getAddress cr3) ix.p4
  let e3 := t (getAddress e4) ix.p3
  let e2 := t (getAddress e3) ix.p2
  let e1 := t (getAddress e2) ix.p1
  openEntry e4 && openEntry e3 && (getFlag e3 pageHuge || openEntry e2 &&
    (getFlag e2 pageHuge || openEntry e1))

/-- The memories differ in supervisor-only pages at most. -/
def SameForUser (t : Tables) (cr3 : Nat) (mem mem' : Mem) : Prop :=
  ∀ v, userAccessible t cr3 v = true → loadByte t cr3 mem v = loadByte t cr3 mem' v

/-- The output consists of bytes of user pages, and it does not depend on other pages. -/
structure Secure (t : Tables) (cr3 str : Nat) : Prop where
  userBytes : ∀ mem bytes, sysWrite t cr3 mem str = .wrote bytes → ∀ j, j < bytes.length →
    userAccessible t cr3 (str + j) = true ∧ bytes[j]? = loadByte t cr3 mem (str + j)
  sameOutput : ∀ mem mem', SameForUser t cr3 mem mem' →
    sysWrite t cr3 mem str = sysWrite t cr3 mem' str

/-- The first address behind the page of an address. -/
def nextPage (virt : Nat) : Nat := (virt / 4096 + 1) * 4096

/-- A pointer that is accepted leads to user pages only: its own page is one, and so is the next
page if the 255 bytes reach into it and it is mapped. -/
def UserOnly (t : Tables) (cr3 str : Nat) : Prop :=
  isValidUserPtr t cr3 str 1 = true → userAccessible t cr3 str = true ∧
    (nextPage str < str + 255 → isValidUserPtr t cr3 (nextPage str) 1 = true →
      userAccessible t cr3 (nextPage str) = true)

variable {t : Tables} {cr3 str i : Nat}

lemma getIndexes_of_page (h : x / 4096 = y / 4096) : getIndexes x = getIndexes y := by
  rw [getIndexes_eq, getIndexes_eq]
  simp only [Indexes.mk.injEq]
  omega

lemma userAccessible_congr (h : x / 4096 = y / 4096) :
    userAccessible t cr3 x = userAccessible t cr3 y := by
  unfold userAccessible
  rw [getIndexes_of_page h]

lemma isSome_walk_congr (h : x / 4096 = y / 4096) :
    (walk t cr3 x).isSome = (walk t cr3 y).isSome := by
  unfold walk
  rw [getIndexes_of_page h]
  dsimp only
  split_ifs <;> rfl

lemma isValidUserPtr_one (h : isValidUserPtr t cr3 x 1 = true) :
    x ≤ 0x00007FFFFFFFFFFF ∧ (walk t cr3 x).isSome = true := by
  unfold isValidUserPtr at h
  iterate 4
    split at h
    · cases h
  rename_i hlow
  have hpage : x &&& Word.compl 0xFFF = x / 2 ^ 12 * 2 ^ 12 :=
    Word.and_compl_two_pow (k := 12) (by omega) (by decide)
  have hpos : 0 < (x + 1 - x / 2 ^ 12 * 2 ^ 12 + 4095) / 4096 := by omega
  rw [hpage, List.all_eq_true] at h
  have hfirst := h 0 (List.mem_range.mpr hpos)
  rw [mul_zero, add_zero, bne_iff_ne] at hfirst
  refine ⟨by omega, ?_⟩
  rw [← isSome_walk_congr (x := x / 2 ^ 12 * 2 ^ 12) (by omega), isSome_iff_ne_none]
  exact fun hnone => hfirst (virtToPhysAsm_of_walk hnone)

lemma isSome_loadByte (h : isValidUserPtr t cr3 x 1 = true) (hpage : y / 4096 = x / 4096) :
    (loadByte t cr3 mem y).isSome = true := by
  obtain ⟨hlow, hwalk⟩ := isValidUserPtr_one h
  have hcanon : Canonical y := .inl (by omega)
  rw [loadByte, isSome_map, translate_eq_walk, if_pos hcanon, isSome_walk_congr hpage, hwalk]

lemma boundary_iff : x &&& 0xFFF = 0 ↔ x % 4096 = 0 := by
  rw [show x &&& 0xFFF = x % 4096 from and_two_pow_sub_one_eq_mod _ 12]

/-- The page behind that of the pointer is valid if round `i` lies behind its start. -/
def Behind (t : Tables) (cr3 str i : Nat) : Prop :=
  nextPage str < str + i → isValidUserPtr t cr3 (nextPage str) 1 = true

/-- The loop has passed the checks up to and with round `i`. -/
structure Passed (t : Tables) (cr3 str i : Nat) : Prop where
  behind : Behind t cr3 str i
  here : (str + i) &&& 0xFFF = 0 → isValidUserPtr t cr3 (str + i) 1 = true

lemma nextPage_boundary (heq : x = nextPage str) : x &&& 0xFFF = 0 := by
  rw [boundary_iff, heq, nextPage]
  omega

lemma Passed.page (h : Passed t cr3 str i) (hi : i < 255) :
    (str + i) / 4096 = str / 4096 ∨
      nextPage str < str + 255 ∧ (str + i) / 4096 = nextPage str / 4096 ∧
        isValidUserPtr t cr3 (nextPage str) 1 = true := by
  obtain hlt | heq | hgt := lt_trichotomy (str + i) (nextPage str)
  · unfold nextPage at hlt
    exact .inl (by omega)
  · refine .inr ⟨by omega, by rw [heq], ?_⟩
    rw [← heq]
    exact h.here (nextPage_boundary heq)
  · refine .inr ⟨by omega, ?_, h.behind hgt⟩
    unfold nextPage at hgt ⊢
    omega

lemma Passed.behind_succ (h : Passed t cr3 str i) : Behind t cr3 str (i + 1) := by
  intro hlt
  have hle : nextPage str ≤ str + i := le_of_lt_succ hlt
  obtain hbehind | heq := lt_or_eq_of_le hle
  · exact h.behind hbehind
  · rw [heq]
    exact h.here (nextPage_boundary heq.symm)

lemma copyLoop_succ (mem : Mem) (hval : isValidUserPtr t cr3 str 1 = true) (n : Nat)
    (hi : i < 255) (hbehind : Behind t cr3 str i) :
    copyLoop t cr3 mem str (n + 1) i = some [] ∧
        ((str + i) &&& 0xFFF = 0 ∧ isValidUserPtr t cr3 (str + i) 1 = false) ∨
      Passed t cr3 str i ∧ ∃ c, loadByte t cr3 mem (str + i) = some c ∧
        copyLoop t cr3 mem str (n + 1) i =
          if c = 0 then some [] else (copyLoop t cr3 mem str n (i + 1)).map (c :: ·) := by
  rw [copyLoop]
  split
  case isTrue hstop => exact .inl ⟨rfl, hstop⟩
  case isFalse hgo =>
    right
    have hpassed : Passed t cr3 str i := ⟨hbehind, fun hboundary => by
      by_contra hnot
      exact hgo ⟨hboundary, Bool.not_eq_true _ ▸ hnot⟩⟩
    have hload : (loadByte t cr3 mem (str + i)).isSome = true := by
      obtain hpage | ⟨-, hpage, hnext⟩ := hpassed.page hi
      · exact isSome_loadByte hval hpage
      · exact isSome_loadByte hnext hpage
    obtain ⟨c, hc⟩ := isSome_iff_exists.mp hload
    exact ⟨hpassed, c, hc, by rw [hc]⟩

section
variable (h : UserOnly t cr3 str) (hval : isValidUserPtr t cr3 str 1 = true)
include h hval

lemma UserOnly.accessible (hpassed : Passed t cr3 str i) (hi : i < 255) :
    userAccessible t cr3 (str + i) = true := by
  obtain ⟨hself, hnext⟩ := h hval
  obtain hpage | ⟨hreach, hpage, hok⟩ := hpassed.page hi
  · rw [userAccessible_congr hpage, hself]
  · rw [userAccessible_congr hpage, hnext hreach hok]

lemma UserOnly.copyLoop_bytes (hn : n + i ≤ 255) (hbehind : Behind t cr3 str i)
    (hcopy : copyLoop t cr3 mem str n i = some bytes) :
    ∀ j, j < bytes.length → userAccessible t cr3 (str + (i + j)) = true ∧
      bytes[j]? = loadByte t cr3 mem (str + (i + j)) := by
  induction n generalizing i bytes with
  | zero =>
    cases hcopy
    exact fun j hj => absurd hj (not_lt_zero j)
  | succ n ih =>
    rcases copyLoop_succ mem hval n (by omega) hbehind with
      ⟨hstop, -⟩ | ⟨hpassed, c, hload, hround⟩
    · rw [hstop] at hcopy
      cases hcopy
      exact fun j hj => absurd hj (not_lt_zero j)
    rw [hround] at hcopy
    split at hcopy
    · cases hcopy
      exact fun j hj => absurd hj (not_lt_zero j)
    · obtain ⟨rest, hrest, rfl⟩ := map_eq_some_iff.mp hcopy
      intro j hj
      cases j with
      | zero => exact ⟨h.accessible hval hpassed (by omega), hload.symm⟩
      | succ j =>
        have hnext := ih (by omega) hpassed.behind_succ hrest j (lt_of_succ_lt_succ hj)
        rwa [show i + 1 + j = i + (j + 1) by omega] at hnext

lemma UserOnly.copyLoop_eq (hsame : SameForUser t cr3 mem mem') (hn : n + i ≤ 255)
    (hbehind : Behind t cr3 str i) : copyLoop t cr3 mem str n i = copyLoop t cr3 mem' str n i := by
  induction n generalizing i with
  | zero => rfl
  | succ n ih =>
    rcases copyLoop_succ mem hval n (by omega) hbehind with
      ⟨hstop, hcheck⟩ | ⟨hpassed, c, hload, hround⟩
    · rw [hstop, copyLoop, if_pos hcheck]
    have huser := h.accessible hval hpassed (by omega)
    rcases copyLoop_succ mem' hval n (by omega) hbehind with
      ⟨-, hcheck⟩ | ⟨-, c', hload', hround'⟩
    · rw [hpassed.here hcheck.1] at hcheck
      exact absurd hcheck.2 (by decide)
    have hbyte : c' = c := by
      rw [hsame _ huser, hload'] at hload
      exact Option.some.inj hload
    rw [hround, hround', hbyte, ih (by omega) hpassed.behind_succ]

end

lemma lt_length_copyLoop (mem : Mem) (hval : isValidUserPtr t cr3 str 1 = true)
    (hmem : ∀ a, mem a ≠ 0) (hn : n + i ≤ 255) (hbehind : Behind t cr3 str i)
    (hpass : ∀ k, k ≤ j → Passed t cr3 str k) :
    ∃ bytes, copyLoop t cr3 mem str n i = some bytes ∧
      (i ≤ j → j < n + i → j - i < bytes.length) := by
  induction n generalizing i with
  | zero => exact ⟨[], rfl, fun hij hj => by omega⟩
  | succ n ih =>
    rcases copyLoop_succ mem hval n (by omega) hbehind with
      ⟨hstop, hboundary, hinvalid⟩ | ⟨hpassed, c, hload, hround⟩
    · refine ⟨[], hstop, fun hij _ => ?_⟩
      rw [(hpass i hij).here hboundary] at hinvalid
      cases hinvalid
    obtain ⟨bytes, hbytes, hlen⟩ := ih (i := i + 1) (by omega) hpassed.behind_succ
    obtain ⟨a, -, ha⟩ := map_eq_some_iff.mp hload
    refine ⟨c :: bytes, ?_, fun hij hj => ?_⟩
    · rw [hround, if_neg (ha ▸ hmem a), hbytes]
      rfl
    · rw [List.length_cons]
      omega

lemma Secure.accessible (h : Secure t cr3 str) (hval : isValidUserPtr t cr3 str 1 = true)
    (hj : j < 255) (hpass : ∀ k, k ≤ j → Passed t cr3 str k) :
    userAccessible t cr3 (str + j) = true := by
  let letters : Mem := fun _ => 0x41
  obtain ⟨bytes, hcopy, hlen⟩ := lt_length_copyLoop (n := 255) letters hval
    (fun _ => by decide) (Nat.le_refl 255) (hpass 0 (zero_le j)).behind hpass
  have hwrote : sysWrite t cr3 letters str = .wrote bytes := by
    rw [sysWrite, if_pos hval, hcopy]
  exact (h.userBytes letters bytes hwrote j (hlen (zero_le j) hj)).1

lemma passed_of_valid (hval : isValidUserPtr t cr3 str 1 = true) (hkj : k ≤ j)
    (hj : str + j ≤ nextPage str)
    (hnext : str + j = nextPage str → isValidUserPtr t cr3 (nextPage str) 1 = true) :
    Passed t cr3 str k := by
  constructor
  · intro hlt
    omega
  intro hboundary
  rw [boundary_iff] at hboundary
  have hcase : k = 0 ∨ str + k = nextPage str := by
    unfold nextPage at hj ⊢
    omega
  obtain rfl | hend := hcase
  · exact hval
  · rw [hend]
    exact hnext (by omega)

lemma Secure.userOnly (h : Secure t cr3 str) : UserOnly t cr3 str := by
  intro hval
  have hbelow : str < nextPage str := by
    unfold nextPage
    omega
  constructor
  · have hself := h.accessible hval (j := 0) (by omega) fun k hk =>
      passed_of_valid hval hk (Nat.le_of_lt hbelow) (fun heq => absurd heq (Nat.ne_of_lt hbelow))
    rwa [add_zero] at hself
  · intro hreach hnext
    have hend : str + (nextPage str - str) = nextPage str := by omega
    have haccess := h.accessible hval (j := nextPage str - str) (by omega) fun k hk =>
      passed_of_valid hval hk (le_of_eq hend) (fun _ => hnext)
    rwa [hend] at haccess

lemma UserOnly.secure (h : UserOnly t cr3 str) : Secure t cr3 str := by
  have hstart : Behind t cr3 str 0 := by
    intro hlt
    unfold nextPage at hlt
    omega
  constructor
  · intro mem bytes hwrote j hj
    obtain ⟨hval, hwrote⟩ := then_of_ite hwrote
    split at hwrote <;> cases hwrote
    case h_2 bytes' hcopy =>
      have hbyte := h.copyLoop_bytes hval (Nat.le_refl 255) hstart hcopy j hj
      rwa [zero_add] at hbyte
  · intro mem mem' hsame
    by_cases hval : isValidUserPtr t cr3 str 1 = true
    · rw [sysWrite, sysWrite, h.copyLoop_eq hval hsame (Nat.le_refl 255) hstart]
    · rw [sysWrite, sysWrite, if_neg hval, if_neg hval]

/-- Under any page tables, `sys_write` shows user memory only exactly if every mapped page that
the pointer leads to is a user page. -/
theorem sysWrite_secure_iff (t : Tables) (cr3 str : Nat) : Secure t cr3 str ↔ UserOnly t cr3 str :=
  ⟨Secure.userOnly, UserOnly.secure⟩

/-- A page of user code beside the boot mapping. -/
def tablesWithUser : Tables := fun table i =>
  if table = 0x1000 ∧ i = 1 then 0x9007
  else bootTables 0x1000 (fun table _ => if table < 0xC000 then table + 0x1007 else 0) table i

/-- A memory that holds one character at an address. -/
def holdsChar (address : Nat) (c : UInt8) : Mem := fun a => if a = address then c else 0

/-- The page of user code can be written. -/
theorem userPage_secure : Secure tablesWithUser 0x1000 (2 ^ 39 + 0x10) ∧
    sysWrite tablesWithUser 0x1000 (holdsChar 0xC010 0x41) (2 ^ 39 + 0x10) = .wrote [0x41] :=
  ⟨(sysWrite_secure_iff tablesWithUser 0x1000 (2 ^ 39 + 0x10)).mpr (by
    intro _
    decide), by decide⟩

lemma userAccessible_bootTables (virt : Nat) :
    userAccessible (bootTables 0x1000 fun _ _ => 0) 0x1000 virt = false := by
  have hclosed : openEntry (bootTables 0x1000 (fun _ _ => 0) (getAddress 0x1000)
      (getIndexes virt).p4) = false := by
    rw [show getAddress 0x1000 = 0x1000 by decide, bootTables_p4]
    split <;> decide
  rw [userAccessible, hclosed]
  rfl

/-- At two mebibytes the kernel shows what its own memory holds. -/
theorem kernelByte_shown :
    userAccessible (bootTables 0x1000 fun _ _ => 0) 0x1000 0x200000 = false ∧
      SameForUser (bootTables 0x1000 fun _ _ => 0) 0x1000 (holdsChar 0x200000 0x41)
        (holdsChar 0x200000 0x42) ∧
      sysWrite (bootTables 0x1000 fun _ _ => 0) 0x1000 (holdsChar 0x200000 0x41) 0x200000 =
        .wrote [0x41] ∧
      sysWrite (bootTables 0x1000 fun _ _ => 0) 0x1000 (holdsChar 0x200000 0x42) 0x200000 =
        .wrote [0x42] := by
  refine ⟨userAccessible_bootTables 0x200000, fun v hv => ?_, by decide +kernel, by decide +kernel⟩
  rw [userAccessible_bootTables] at hv
  cases hv

end Singularity.Paging
