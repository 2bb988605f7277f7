import Singularity.Storage.DiskCache

/-!
# Threads in the disk cache

The calls of `DiskCache` talk to the device outside the lock of a set and come back to the set
afterwards. Each section under a lock and each device operation is a step; between two of them
other threads run. If no two calls in flight are about one sector, a line differs from its sector
only while the call that has written the sector is on its way to the line.
-/

namespace Singularity.Storage

open Foundation Function

universe u

/-- Where a thread is in `readBlock` or `writeBlock`. -/
inductive CachePc (α : Type u) where
  | idle
  /-- The search for the line of a sector. -/
  | lookingUp (lba : UInt64)
  /-- The device's `readBlock` after a miss. -/
  | reading (lba : UInt64)
  /-- The sector that was read gets into the table. -/
  | inserting (lba : UInt64) (data : α)
  /-- The device's `writeBlock` of one sector. -/
  | writing (lba : UInt64) (data : α)
  /-- The sector that was written gets into the table. -/
  | updating (lba : UInt64) (data : α)
  /-- A read past the table. -/
  | bypassReading (lba : UInt64) (count : Nat)
  /-- The loop that invalidates the sectors of a write past the table. -/
  | invalidating (lba : UInt64) (count i : Nat) (data : Nat → α)
  /-- The device's `writeBlock` past the table. -/
  | bypassWriting (lba : UInt64) (count : Nat) (data : Nat → α)

variable {α : Type u}

namespace CachePc

variable {pc : CachePc α} {sector : UInt64}

/-- The call is about the sector, and not only to read it past the table. -/
def Touches (sector : UInt64) : CachePc α → Prop
  | .idle | .bypassReading _ _ => False
  | .lookingUp lba | .reading lba | .inserting lba _ | .writing lba _ | .updating lba _ =>
    lba = sector
  | .invalidating lba count _ _ | .bypassWriting lba count _ =>
    ∃ j < count, lba + UInt64.ofNat j = sector

/-- The call has seen to it that the sector has no line. -/
def Misses (sector : UInt64) : CachePc α → Prop
  | .reading lba | .inserting lba _ => lba = sector
  | .invalidating lba count i _ => ∃ j < count, j < i ∧ lba + UInt64.ofNat j = sector
  | .bypassWriting lba count _ => ∃ j < count, lba + UInt64.ofNat j = sector
  | _ => False

/-- The data that the call carries for the sector from or to the device. -/
def Carries (sector : UInt64) (data : α) : CachePc α → Prop
  | .inserting lba d | .updating lba d => lba = sector ∧ d = data
  | _ => False

lemma touches_of_misses (h : pc.Misses sector) : pc.Touches sector := by
  cases pc with
  | reading lba => exact h
  | inserting lba data => exact h
  | invalidating lba count i data =>
    obtain ⟨j, hj, -, heq⟩ := h
    exact ⟨j, hj, heq⟩
  | bypassWriting lba count data => exact h
  | _ => exact h.elim

lemma touches_of_carries (h : pc.Carries sector data) : pc.Touches sector := by
  cases pc with
  | inserting lba d => exact h.1
  | updating lba d => exact h.1
  | _ => exact h.elim

end CachePc

/-- One device, the table, and where each thread is. -/
structure CacheThreads (α : Type u) where
  contents : UInt64 → α
  lines : WayTable (Fin 256) 4 (UInt64 × UInt64) α
  pc : Nat → CachePc α

inductive CacheEvent (α : Type u) where
  | startRead (thread : Nat) (lba : UInt64) (count : UInt32) (buffer : UInt64)
  | startWrite (thread : Nat) (lba : UInt64) (count : UInt32) (buffer : UInt64) (data : Nat → α)
  /-- The next step of a thread; `ok` is false if it finds no memory, no mapping or an error of
  the device. -/
  | step (thread : Nat) (now : Nat) (ok : Bool)

/-- The device object: its address and its block size. -/
structure CacheDevice where
  address : UInt64
  blockSize : Nat

namespace CacheThreads

variable (dev : CacheDevice) (s : CacheThreads α)

def bypasses (count : UInt32) (buffer : UInt64) : Bool :=
  decide (dev.blockSize ≠ 512) || DiskCache.bypasses count buffer

def goto (thread : Nat) (pc : CachePc α) : CacheThreads α :=
  { s with pc := update s.pc thread pc }

/-- A sector gets into the table in place of another one. -/
def insert (key : UInt64 × UInt64) (data : α) (now : Nat) :
    WayTable (Fin 256) 4 (UInt64 × UInt64) α :=
  s.lines.put (hash key)
    (WayTable.victimLoop (s.lines (hash key)) (List.finRange 4) 0 (2 ^ 64 - 1))
    ⟨key, data, true, now⟩

/-- The device writes sectors. -/
def writeSectors (lba : UInt64) (data : Nat → α) : Nat → UInt64 → α
  | 0 => s.contents
  | n + 1 => update (writeSectors lba data n) (lba + UInt64.ofNat n) (data n)

/-- The next section or device operation of a thread. -/
def advance (thread now : Nat) (ok : Bool) : Option (CacheThreads α) :=
  match s.pc thread with
  | .idle => none
  | .lookingUp lba =>
    let key := (dev.address, lba)
    match s.lines.lookup (hash key) key with
    | some way =>
      some { s.goto thread .idle with
        lines := s.lines.put (hash key) way
          { s.lines (hash key) way with lastAccess := now } }
    | none => some (s.goto thread (if ok then .reading lba else .idle))
  | .reading lba =>
    some (s.goto thread (if ok then .inserting lba (s.contents lba) else .idle))
  | .inserting lba data =>
    some { s.goto thread .idle with lines := s.insert (dev.address, lba) data now }
  | .writing lba data =>
    if ok then
      some { s.goto thread (.updating lba data) with
        contents := update s.contents lba data }
    else some (s.goto thread .idle)
  | .updating lba data =>
    let key := (dev.address, lba)
    match s.lines.lookup (hash key) key with
    | some way =>
      some { s.goto thread .idle with
        lines := s.lines.put (hash key) way
          { s.lines (hash key) way with
            lastAccess := now
            data := data } }
    | none => some { s.goto thread .idle with lines := s.insert key data now }
  | .bypassReading _ _ => some (s.goto thread .idle)
  | .invalidating lba count i data =>
    if i < count then
      let key := (dev.address, lba + UInt64.ofNat i)
      some { s.goto thread (.invalidating lba count (i + 1) data) with
        lines := s.lines.dropIn (hash key) fun k => decide (k = key) }
    else some (s.goto thread (.bypassWriting lba count data))
  | .bypassWriting lba count data =>
    if ok then
      some { s.goto thread .idle with contents := s.writeSectors lba data count }
    else some (s.goto thread .idle)

def step : CacheEvent α → Option (CacheThreads α)
  | .startRead thread lba count buffer =>
    match s.pc thread with
    | .idle =>
      if bypasses dev count buffer then
        some (s.goto thread (.bypassReading lba count.toNat))
      else if count = 0 then some s
      else some (s.goto thread (.lookingUp lba))
    | _ => none
  | .startWrite thread lba count buffer data =>
    match s.pc thread with
    | .idle =>
      if bypasses dev count buffer then
        some (s.goto thread (.invalidating lba count.toNat 0 data))
      else if count = 0 then some s
      else some (s.goto thread (.writing lba (data 0)))
    | _ => none
  | .step thread now ok => s.advance dev thread now ok

/-- A call starts while no other one is about its sectors, except to read them past the table. -/
def Meets : CacheEvent α → Prop
  | .startRead _ lba count buffer => bypasses dev count buffer = false →
      ∀ thread, ¬(s.pc thread).Touches lba
  | .startWrite _ lba count _ _ => ∀ thread, ∀ j < count.toNat,
      ¬(s.pc thread).Touches (lba + UInt64.ofNat j)
  | .step _ _ _ => True

/-- No sector has two lines, and at rest the lines hold what the device holds. -/
structure Coherent : Prop where
  unique : ∀ set set' way way' key, s.lines.HoldsAt set way key → s.lines.HoldsAt set' way' key →
    set = set' ∧ way = way'
  mirrors : (∀ thread, s.pc thread = .idle) → ∀ set way lba,
    s.lines.HoldsAt set way (dev.address, lba) → (s.lines set way).data = s.contents lba

structure Inv : Prop where
  sound : s.lines.Sound hash
  apart : ∀ thread thread' sector, (s.pc thread).Touches sector → (s.pc thread').Touches sector →
    thread = thread'
  mirrors : ∀ set way lba, s.lines.HoldsAt set way (dev.address, lba) →
    (s.lines set way).data = s.contents lba ∨ ∃ thread data, s.pc thread = .updating lba data
  misses : ∀ thread lba, (s.pc thread).Misses lba → ∀ set way,
    ¬s.lines.HoldsAt set way (dev.address, lba)
  carries : ∀ thread lba data, (s.pc thread).Carries lba data → s.contents lba = data

section
variable {dev s} {thread count : Nat} {lba : UInt64}

section
variable (h : s.Inv dev)
include h

lemma Inv.coherent : s.Coherent dev where
  unique set set' way way' key hholds hholds' := by
    have hset : set = set' :=
      (h.sound.placed set way key hholds).symm.trans (h.sound.placed set' way' key hholds')
    subst hset
    exact ⟨rfl, h.sound.unique set way way' key hholds hholds'⟩
  mirrors hidle set way lba hholds := by
    refine (h.mirrors set way lba hholds).resolve_right ?_
    rintro ⟨thread, data, hpc⟩
    cases (hidle thread).symm.trans hpc

section
variable (hupd : ∀ lba data, s.pc thread = .updating lba data → ∀ set way,
  s.lines.HoldsAt set way (dev.address, lba) → (s.lines set way).data = s.contents lba)
include hupd

/-- A thread moves on: it takes up a sector that no call is about, or keeps to its own. -/
lemma Inv.goto (pc : CachePc α)
    (htouches : ∀ sector, pc.Touches sector → (s.pc thread).Touches sector ∨ ∀ other,
      ¬(s.pc other).Touches sector)
    (hmisses : ∀ lba, pc.Misses lba → ∀ set way, ¬s.lines.HoldsAt set way (dev.address, lba))
    (hcarry : ∀ lba data, pc.Carries lba data → s.contents lba = data) :
    (s.goto thread pc).Inv dev := by
  have hnew : (s.goto thread pc).pc thread = pc := update_self ..
  have hsame {other : Nat} (hne : other ≠ thread) : (s.goto thread pc).pc other = s.pc other :=
    update_of_ne hne ..
  have hmine {other : Nat} {sector : UInt64} (hne : other ≠ thread) (hpc : pc.Touches sector)
      (hother : (s.pc other).Touches sector) : False := by
    obtain hbefore | hnone := htouches sector hpc
    · exact hne (h.apart other thread sector hother hbefore)
    · exact hnone other hother
  constructor
  case sound => exact h.sound
  case apart =>
    intro t1 t2 sector h1 h2
    by_cases ht1 : t1 = thread
    · by_cases ht2 : t2 = thread
      · rw [ht1, ht2]
      · rw [ht1, hnew] at h1
        rw [hsame ht2] at h2
        exact (hmine ht2 h1 h2).elim
    · rw [hsame ht1] at h1
      by_cases ht2 : t2 = thread
      · rw [ht2, hnew] at h2
        exact (hmine ht1 h2 h1).elim
      · rw [hsame ht2] at h2
        exact h.apart t1 t2 sector h1 h2
  case mirrors =>
    intro set way lba hholds
    obtain hdata | ⟨other, data, hpc⟩ := h.mirrors set way lba hholds
    · exact .inl hdata
    by_cases hother : other = thread
    · subst hother
      exact .inl (hupd lba data hpc set way hholds)
    · exact .inr ⟨other, data, (hsame hother).trans hpc⟩
  case misses =>
    intro other lba hother
    by_cases ht : other = thread
    · rw [ht, hnew] at hother
      exact hmisses lba hother
    · rw [hsame ht] at hother
      exact h.misses other lba hother
  case carries =>
    intro other lba data hother
    by_cases ht : other = thread
    · rw [ht, hnew] at hother
      exact hcarry lba data hother
    · rw [hsame ht] at hother
      exact h.carries other lba data hother

/-- A thread leaves its call. -/
lemma Inv.finish : (s.goto thread .idle).Inv dev :=
  h.goto hupd .idle (fun _ hidle => hidle.elim) (fun _ hidle => hidle.elim)
    fun _ _ hidle => hidle.elim

end

/-- The line of a sector is stored. -/
lemma Inv.put (way : Fin 4) (line : Line (UInt64 × UInt64) α)
    (hkey : line.key = (dev.address, lba)) (hdata : line.data = s.contents lba)
    (hfree : ∀ set way', s.lines.HoldsAt set way' (dev.address, lba) → set = hash (dev.address,
      lba) ∧ way' = way)
    (hmisses : ∀ other, ¬(s.pc other).Misses lba) :
    { s with lines := s.lines.put (hash (dev.address, lba)) way line }.Inv dev := by
  refine { h with sound := ?_, mirrors := fun set way' lba' hholds => ?_,
                  misses := fun other lba' hother set way' hholds => ?_ }
  · refine h.sound.put (congrArg hash hkey) fun set way' hholds => ?_
    rw [hkey] at hholds
    exact hfree set way' hholds
  · obtain ⟨rfl, rfl, -, heq⟩ | ⟨hne, hbefore⟩ := hholds.of_put
    · rw [hkey, Prod.mk.injEq] at heq
      dsimp only
      rw [WayTable.put_self, ← heq.2]
      exact .inl hdata
    · dsimp only
      rw [WayTable.put_of_ne hne]
      exact h.mirrors set way' lba' hbefore
  · obtain ⟨-, -, -, heq⟩ | ⟨-, hbefore⟩ := hholds.of_put
    · rw [hkey, Prod.mk.injEq] at heq
      rw [← heq.2] at hother
      exact hmisses other hother
    · exact h.misses other lba' hother set way' hbefore

lemma Inv.dropIn (set : Fin 256) (p : UInt64 × UInt64 → Bool) :
    { s with lines := s.lines.dropIn set p }.Inv dev := by
  refine { h with sound := h.sound.dropIn set p, mirrors := fun set' way lba hholds => ?_,
                  misses := fun other lba hother set' way hholds => ?_ }
  · dsimp only
    rw [WayTable.data_dropIn]
    exact h.mirrors set' way lba (WayTable.holdsAt_dropIn.mp hholds).1
  · exact h.misses other lba hother set' way (WayTable.holdsAt_dropIn.mp hholds).1

lemma Inv.setContents {contents : UInt64 → α} (hchange : ∀ lba, contents lba ≠ s.contents lba →
      (∀ set way, ¬s.lines.HoldsAt set way (dev.address, lba)) ∧
      ∀ other data, ¬(s.pc other).Carries lba data) : { s with contents }.Inv dev := by
  refine { h with
    mirrors := fun set way lba hholds => ?_, carries := fun other lba data hother => ?_ }
  · have hsame : contents lba = s.contents lba := by
      by_contra hne
      exact (hchange lba hne).1 set way hholds
    dsimp only
    rw [hsame]
    exact h.mirrors set way lba hholds
  · have hsame : contents lba = s.contents lba := by
      by_contra hne
      exact (hchange lba hne).2 other data hother
    exact hsame.trans (h.carries other lba data hother)

section
variable (hthread : (s.pc thread).Touches lba)
include hthread

lemma Inv.not_touches (hne : other ≠ thread) : ¬(s.pc other).Touches lba :=
  fun hother => hne (h.apart other thread lba hother hthread)

lemma Inv.not_misses (hmine : ¬(s.pc thread).Misses lba) (other : Nat) :
    ¬(s.pc other).Misses lba := by
  by_cases hne : other = thread
  · rwa [hne]
  · exact fun hother => h.not_touches hthread hne (CachePc.touches_of_misses hother)

lemma Inv.mirrors_of_touches (hpc : ∀ lba data, s.pc thread ≠ .updating lba data) {set : Fin 256}
    {way : Fin 4} (hholds : s.lines.HoldsAt set way (dev.address, lba)) :
    (s.lines set way).data = s.contents lba := by
  refine (h.mirrors set way lba hholds).resolve_right ?_
  rintro ⟨other, data, hother⟩
  have htouches : (s.pc other).Touches lba := by
    rw [hother]
    exact rfl
  have heq := h.apart other thread lba htouches hthread
  subst heq
  exact hpc lba data hother

end

/-- The device has written a sector; its line is out of date until the thread gets there. -/
lemma Inv.write (hpc : s.pc thread = .writing lba data) :
    { s.goto thread (.updating lba data) with
      contents := update s.contents lba data }.Inv dev := by
  have htouches : (s.pc thread).Touches lba := by
    rw [hpc]
    exact rfl
  have hnew : update s.pc thread (.updating lba data) thread = .updating lba data :=
    update_self ..
  have hsame {other : Nat} (hne : other ≠ thread) :
      update s.pc thread (.updating lba data) other = s.pc other :=
    update_of_ne hne ..
  constructor
  case sound => exact h.sound
  case apart =>
    intro t1 t2 sector h1 h2
    have hmine {t : Nat} (ht : (update s.pc thread (.updating lba data) t).Touches sector) :
        (s.pc t).Touches sector := by
      by_cases hne : t = thread
      · rw [hne, hnew] at ht
        rwa [hne, hpc]
      · rwa [hsame hne] at ht
    exact h.apart t1 t2 sector (hmine h1) (hmine h2)
  case mirrors =>
    intro set way sector hholds
    by_cases hsector : sector = lba
    · exact .inr ⟨thread, data, by rw [hsector]; exact hnew⟩
    dsimp only
    rw [update_of_ne hsector]
    obtain hdata | ⟨other, data', hother⟩ := h.mirrors set way sector hholds
    · exact .inl hdata
    have hne : other ≠ thread := by
      rintro rfl
      simp [hpc] at hother
    exact .inr ⟨other, data', (hsame hne).trans hother⟩
  case misses =>
    intro other sector hother
    change (update s.pc thread (.updating lba data) other).Misses sector at hother
    by_cases hne : other = thread
    · rw [hne, hnew] at hother
      exact hother.elim
    · rw [hsame hne] at hother
      exact h.misses other sector hother
  case carries =>
    intro other sector data' hother
    change (update s.pc thread (.updating lba data) other).Carries sector data' at hother
    dsimp only
    by_cases hne : other = thread
    · rw [hne, hnew] at hother
      rw [← hother.1, ← hother.2, update_self]
    rw [hsame hne] at hother
    have hsector : sector ≠ lba := by
      rintro rfl
      exact h.not_touches htouches hne (CachePc.touches_of_carries hother)
    rw [update_of_ne hsector]
    exact h.carries other sector data' hother

end

lemma writeSectors_of_ne (hne : ∀ j < count, lba + UInt64.ofNat j ≠ sector) :
    s.writeSectors lba data count sector = s.contents sector := by
  induction count with
  | zero => rfl
  | succ count ih =>
    rw [writeSectors, update_of_ne (hne count (Nat.lt_succ_self count)).symm]
    exact ih fun j hj => hne j (Nat.lt_succ_of_lt hj)

section
variable (h : s.Inv dev)
include h

lemma Inv.putFinish (way : Fin 4) (line : Line (UInt64 × UInt64) α)
    (hkey : line.key = (dev.address, lba)) (hdata : line.data = s.contents lba)
    (hfree : ∀ set way', s.lines.HoldsAt set way' (dev.address, lba) → set = hash (dev.address,
      lba) ∧ way' = way)
    (hmisses : ∀ other, ¬(s.pc other).Misses lba)
    (hupd : ∀ sector data, s.pc thread = .updating sector data → sector = lba) :
    { s.goto thread .idle with
      lines := s.lines.put (hash (dev.address, lba)) way line }.Inv dev := by
  refine (h.put way line hkey hdata hfree hmisses).finish fun sector data hpc set way' hholds => ?_
  have hsector := hupd sector data hpc
  subst hsector
  obtain ⟨rfl, rfl, -⟩ | ⟨hne, hbefore⟩ := hholds.of_put
  · exact (congrArg Line.data WayTable.put_self).trans hdata
  · obtain ⟨hset, hway⟩ := hfree set way' hbefore
    exact hne.elim (absurd hset) (absurd hway)

variable {now : Nat}

lemma Inv.lookUp (hpc : s.pc thread = .lookingUp lba)
    (hok : s.advance dev thread now ok = some s') : s'.Inv dev := by
  have htouches : (s.pc thread).Touches lba := by
    rw [hpc]
    exact rfl
  have hnever (sector : UInt64) (data : α) : s.pc thread ≠ .updating sector data := by simp [hpc]
  simp only [advance, hpc] at hok
  split at hok <;> cases hok
  case h_1 way hhit =>
    have hholds := WayTable.holdsAt_of_lookup hhit
    refine h.putFinish way _ hholds.2 (h.mirrors_of_touches htouches hnever hholds)
      (fun set way' hholds' => h.sound.eq_of_lookup hhit hholds') (h.not_misses htouches ?_)
      fun sector data hupd => absurd hupd (hnever sector data)
    rw [hpc]
    exact fun hmiss => hmiss
  case h_2 hmiss =>
    cases ok with
    | true =>
      refine h.goto (fun sector data hupd => absurd hupd (hnever sector data)) (.reading lba)
        (fun sector ht => .inl ?_) (fun sector heq set way => ?_) fun _ _ hcarry => hcarry.elim
      · rwa [hpc]
      · have hlba : lba = sector := heq
        subst hlba
        exact h.sound.not_holdsAt hmiss set way
    | false => exact h.finish fun sector data hupd => absurd hupd (hnever sector data)

lemma Inv.read (hpc : s.pc thread = .reading lba) (ok : Bool) :
    (s.goto thread (if ok then .inserting lba (s.contents lba) else .idle)).Inv dev := by
  have hnever (sector : UInt64) (data : α) : s.pc thread ≠ .updating sector data := by simp [hpc]
  cases ok with
  | true =>
    refine h.goto (fun sector data hupd => absurd hupd (hnever sector data))
      (.inserting lba (s.contents lba)) (fun sector ht => .inl ?_)
      (fun sector hmiss => h.misses thread sector ?_) fun sector data hcarry => ?_
    · rwa [hpc]
    · rwa [hpc]
    · rw [← hcarry.1]
      exact hcarry.2
  | false => exact h.finish fun sector data hupd => absurd hupd (hnever sector data)

lemma Inv.insert (hpc : s.pc thread = .inserting lba data) (now : Nat) :
    { s.goto thread .idle with lines := s.insert (dev.address, lba) data now }.Inv dev := by
  have htouches : (s.pc thread).Touches lba := by
    rw [hpc]
    exact rfl
  have hcarry : s.contents lba = data := by
    refine h.carries thread lba data ?_
    rw [hpc]
    exact ⟨rfl, rfl⟩
  have hmiss : (s.pc thread).Misses lba := by
    rw [hpc]
    exact rfl
  have hnone := h.misses thread lba hmiss
  -- the thread leaves first, so that nobody relies on the missing line any more
  have hleft : (s.goto thread .idle).Inv dev :=
    h.finish fun sector data hupd => by simp [hpc] at hupd
  refine hleft.put _ ⟨(dev.address, lba), data, true, now⟩ rfl hcarry.symm
    (fun set way hholds => absurd hholds (hnone set way)) fun other hother => ?_
  by_cases hne : other = thread
  · rw [hne] at hother
    change (update s.pc thread .idle thread).Misses lba at hother
    rw [update_self] at hother
    exact hother.elim
  · change (update s.pc thread .idle other).Misses lba at hother
    rw [update_of_ne hne] at hother
    exact h.not_touches htouches hne (CachePc.touches_of_misses hother)

lemma Inv.update (hpc : s.pc thread = .updating lba data)
    (hok : s.advance dev thread now ok = some s') : s'.Inv dev := by
  have htouches : (s.pc thread).Touches lba := by
    rw [hpc]
    exact rfl
  have hdata : data = s.contents lba := by
    refine (h.carries thread lba data ?_).symm
    rw [hpc]
    exact ⟨rfl, rfl⟩
  have hmisses (other : Nat) : ¬(s.pc other).Misses lba := by
    refine h.not_misses htouches ?_ other
    rw [hpc]
    exact fun hmiss => hmiss
  have hmine (sector : UInt64) (data' : α) (hupd : s.pc thread = .updating sector data') :
      sector = lba := by
    rw [hpc] at hupd
    cases hupd
    rfl
  simp only [advance, hpc] at hok
  split at hok <;> cases hok
  case h_1 way hhit =>
    exact h.putFinish way _ (WayTable.holdsAt_of_lookup hhit).2 hdata
      (fun set way' hholds' => h.sound.eq_of_lookup hhit hholds') hmisses hmine
  case h_2 hmiss =>
    exact h.putFinish _ ⟨(dev.address, lba), data, true, now⟩ rfl hdata
      (fun set way' hholds' => absurd hholds' (h.sound.not_holdsAt hmiss set way')) hmisses hmine

lemma Inv.invalidate (hpc : s.pc thread = .invalidating lba count i data) (hi : i < count) :
    { s.goto thread (.invalidating lba count (i + 1) data) with
      lines := s.lines.dropIn (hash (dev.address, lba + UInt64.ofNat i)) fun k =>
        decide (k = (dev.address, lba + UInt64.ofNat i)) }.Inv dev := by
  let key := (dev.address, lba + UInt64.ofNat i)
  have hdropped := h.dropIn (hash key) fun k => decide (k = key)
  refine hdropped.goto (fun sector d hupd => ?_) (.invalidating lba count (i + 1) data)
    (fun sector ht => .inl ?_) (fun sector hmiss set way hholds => ?_) fun _ _ hcarry => hcarry.elim
  · have hnever : s.pc thread = .updating sector d := hupd
    simp [hpc] at hnever
  · change (s.pc thread).Touches sector
    rwa [hpc]
  obtain ⟨hbefore, hkept⟩ := WayTable.holdsAt_dropIn.mp hholds
  obtain ⟨j, hj, hji, heq⟩ := hmiss
  obtain hlt | rfl := Nat.lt_succ_iff_lt_or_eq.mp hji
  · refine h.misses thread sector ?_ set way hbefore
    rw [hpc]
    exact ⟨j, hj, hlt, heq⟩
  have hkey : key = (dev.address, sector) := Prod.ext rfl heq
  have hset : set = hash key := by
    rw [hkey]
    exact (h.sound.placed set way _ hbefore).symm
  have hnot := hkept hset
  rw [decide_eq_false_iff_not] at hnot
  exact hnot hkey.symm

lemma Inv.bypassWrite {data : Nat → α} (hpc : s.pc thread = .bypassWriting lba count data) :
    { s.goto thread .idle with contents := s.writeSectors lba data count }.Inv dev := by
  have hcontents : { s with contents := s.writeSectors lba data count }.Inv dev := by
    refine h.setContents fun sector hne => ?_
    have hwritten : ∃ j < count, lba + UInt64.ofNat j = sector := by
      by_contra hnone
      push Not at hnone
      exact hne (writeSectors_of_ne hnone)
    have hmiss : (s.pc thread).Misses sector := by
      rwa [hpc]
    refine ⟨h.misses thread sector hmiss, fun other d hother => ?_⟩
    have heq := h.apart other thread sector (CachePc.touches_of_carries hother)
      (CachePc.touches_of_misses hmiss)
    subst heq
    rwa [hpc] at hother
  exact hcontents.finish fun sector d hupd => by
    have hnever : s.pc thread = .updating sector d := hupd
    simp [hpc] at hnever

lemma Inv.advance (hok : s.advance dev thread now ok = some s') : s'.Inv dev := by
  have hfinish (hnever : ∀ sector data, s.pc thread ≠ .updating sector data) :
      (s.goto thread .idle).Inv dev :=
    h.finish fun sector data hupd => absurd hupd (hnever sector data)
  have hadvance := hok
  unfold CacheThreads.advance at hok
  cases hpc : s.pc thread <;>
    simp only [hpc, Option.some.injEq, reduceCtorEq] at hok <;> try cases hok
  case lookingUp lba => exact h.lookUp hpc hadvance
  case reading lba =>
    exact h.read hpc ok
  case inserting lba data =>
    exact h.insert hpc now
  case writing lba data =>
    split at hok
    · cases hok
      exact h.write hpc
    · cases hok
      exact hfinish (by simp [hpc])
  case updating lba data => exact h.update hpc hadvance
  case bypassReading lba count =>
    exact hfinish (by simp [hpc])
  case invalidating lba count i data =>
    split at hok
    case isTrue hi =>
      cases hok
      exact h.invalidate hpc hi
    case isFalse hi =>
      cases hok
      refine h.goto (fun sector d hupd => by simp [hpc] at hupd) (.bypassWriting lba count data)
        (fun sector ht => .inl ?_) (fun sector hmiss => h.misses thread sector ?_)
        fun _ _ hcarry => hcarry.elim
      · rwa [hpc]
      · obtain ⟨j, hj, heq⟩ := hmiss
        rw [hpc]
        exact ⟨j, hj, by omega, heq⟩
  case bypassWriting lba count data =>
    split at hok
    · cases hok
      exact h.bypassWrite hpc
    · cases hok
      exact hfinish (by simp [hpc])

/-- Every step keeps the invariant, if calls in flight are about different sectors. -/
lemma Inv.step (hmeets : s.Meets dev e) (hok : s.step dev e = some s') : s'.Inv dev := by
  cases e with
  | startRead thread lba count buffer =>
    simp only [CacheThreads.step] at hok
    split at hok
    case h_1 hpc =>
      split at hok
      · cases hok
        exact h.goto (fun _ _ hupd => by simp [hpc] at hupd) (.bypassReading lba count.toNat)
          (fun _ ht => ht.elim) (fun _ hmiss => hmiss.elim) fun _ _ hcarry => hcarry.elim
      case isFalse hcached =>
        split at hok <;> cases hok
        · exact h
        · refine h.goto (fun _ _ hupd => by simp [hpc] at hupd) (.lookingUp lba)
            (fun sector ht => .inr ?_) (fun _ hmiss => hmiss.elim) fun _ _ hcarry => hcarry.elim
          have hlba : lba = sector := ht
          rw [← hlba]
          exact hmeets (Bool.eq_false_iff.mpr hcached)
    · cases hok
  | startWrite thread lba count buffer data =>
    simp only [CacheThreads.step] at hok
    split at hok
    case h_1 hpc =>
      split at hok
      · cases hok
        refine h.goto (fun _ _ hupd => by simp [hpc] at hupd) (.invalidating lba count.toNat 0 data)
          (fun sector ht => .inr ?_) (fun sector hmiss => ?_) fun _ _ hcarry => hcarry.elim
        · obtain ⟨j, hj, rfl⟩ := ht
          exact fun other => hmeets other j hj
        · obtain ⟨j, -, hj, -⟩ := hmiss
          exact absurd hj (Nat.not_lt_zero j)
      · split at hok <;> cases hok
        · exact h
        case isFalse hcnt =>
          refine h.goto (fun _ _ hupd => by simp [hpc] at hupd) (.writing lba (data 0))
            (fun sector ht => .inr fun other => ?_) (fun _ hmiss => hmiss.elim)
            fun _ _ hcarry => hcarry.elim
          have hlba : lba = sector := ht
          have hpos : 0 < count.toNat :=
            Nat.pos_of_ne_zero fun heq => hcnt (UInt32.toNat_inj.mp heq)
          have hfirst := hmeets other 0 hpos
          have h0 : lba + UInt64.ofNat 0 = lba := UInt64.add_zero lba
          rwa [h0, hlba] at hfirst
    · cases hok
  | step thread now ok => exact h.advance hok

end

/-- There is nothing in the table, and no call in flight. -/
structure Initial (s : CacheThreads α) : Prop where
  lines : ∀ set way, (s.lines set way).valid = false
  pc : ∀ thread, s.pc thread = .idle

lemma Initial.inv (hinit : s.Initial) : s.Inv dev := by
  have hnone {set : Fin 256} {way : Fin 4} {key : UInt64 × UInt64}
      (hholds : s.lines.HoldsAt set way key) : False := by
    cases (hinit.lines set way).symm.trans hholds.1
  constructor
  case sound => exact ⟨fun _ _ _ h => (hnone h).elim, fun _ _ _ _ h => (hnone h).elim⟩
  case apart =>
    intro thread _ _ ht
    rw [hinit.pc thread] at ht
    exact ht.elim
  case mirrors => exact fun _ _ _ h => (hnone h).elim
  case misses => exact fun _ _ _ _ _ h => hnone h
  case carries =>
    intro thread _ _ hc
    rw [hinit.pc thread] at hc
    exact hc.elim

/-- The cache is coherent in every run in which the calls in flight are about different sectors,
reads past the table apart. -/
theorem coherent_of_run {s₀ : CacheThreads α} {events : List (CacheEvent α)} (hinit : s₀.Initial)
    (run : Run (fun s e s' => s.Meets dev e ∧ s.step dev e = some s') s₀ events s) :
    s.Coherent dev := by
  have hI : s.Inv dev := by
    refine run.invariant (I := fun s => s.Inv dev) ?_ hinit.inv
    rintro s e s' h ⟨hmeets, hstep⟩
    exact h.step hmeets hstep
  exact hI.coherent

end

/-- The device at address 1, with 512-byte sectors. -/
def smallDevice : CacheDevice := ⟨1, 512⟩

/-- All sectors hold 0, and nothing is going on. -/
def quiet : CacheThreads Nat where
  contents _ := 0
  lines _ _ := ⟨(0, 0), 0, false, 0⟩
  pc _ := .idle

lemma quiet_initial : quiet.Initial := ⟨fun _ _ => rfl, fun _ => rfl⟩

/-- Two threads write and read different sectors at the same time. -/
theorem differentSectors_coherent :
    ∃ s, Run (fun s e s' => s.Meets smallDevice e ∧ s.step smallDevice e = some s') quiet
        [.startWrite 1 5 1 0 (fun _ => 9), .startRead 2 6 1 0, .step 1 0 true, .step 2 0 true] s ∧
      s.contents 5 = 9 ∧ s.Coherent smallDevice := by
  have happart (thread : Nat) :
      ¬(update quiet.pc 1 (.writing 5 9) thread).Touches 6 := by
    rw [update_apply]
    split_ifs
    · exact fun h : (5 : UInt64) = 6 => absurd h (by decide)
    · exact fun h => h
  have run : Run (fun s e s' => s.Meets smallDevice e ∧ s.step smallDevice e = some s') quiet
      [.startWrite 1 5 1 0 (fun _ => 9), .startRead 2 6 1 0, .step 1 0 true, .step 2 0 true] _ :=
    .cons ⟨fun _ _ _ h => h, rfl⟩ <| .cons ⟨fun _ => happart, rfl⟩ <|
      .cons ⟨trivial, rfl⟩ <| .cons ⟨trivial, rfl⟩ <| .nil _
  exact ⟨_, run, rfl, coherent_of_run quiet_initial run⟩

/-- Two threads miss the same sector, and each of them gives it a line. -/
theorem twoMisses_duplicate :
    ∃ events s, Run (fun s e s' => s.step smallDevice e = some s') quiet events s ∧
      ¬s.Coherent smallDevice := by
  refine ⟨[.startRead 1 5 1 0, .startRead 2 5 1 0, .step 1 0 true, .step 2 0 true, .step 1 0 true,
    .step 2 0 true, .step 1 0 true, .step 2 1 true], ?_⟩
  refine Run.exists_of_exec (P := fun s => ∀ way ∈ [0, 1],
    (s.lines (hash (1, 5)) way).valid = true ∧ (s.lines (hash (1, 5)) way).key = (1, 5))
    (fun _ _ _ h => h) (by decide +kernel) fun s _ hholds hcoherent => ?_
  have heq := hcoherent.unique _ _ 0 1 (1, 5) (hholds 0 (by simp)) (hholds 1 (by simp))
  exact absurd heq.2 (by decide)

end CacheThreads

end Singularity.Storage
