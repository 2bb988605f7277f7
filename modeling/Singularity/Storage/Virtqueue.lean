import Singularity.Storage.ScatterList

/-!
# Block requests of the VirtIO driver

A request takes three descriptors from a free list that runs through the `next` fields of the
descriptor table, links them to a chain for the device, and puts them back on every way out. The
data descriptor of a sector starts at the physical address of its first byte and has 512 bytes,
and only the frame of that byte is pinned. The lock is held from the first sector to the last.
-/

namespace Singularity.Storage

open Function List

/-- A descriptor without its `next` field. -/
structure VirtqDesc where
  addr : Nat
  len : Nat
  flags : Nat
  deriving DecidableEq

/-- The descriptor table, its free list and the ring of the heads that the device gets. -/
structure Virtq where
  queueSize : Nat
  next : Nat → Nat
  desc : Nat → VirtqDesc
  freeHead : Nat
  freeDescCount : Nat
  ring : Nat → Nat
  availIdx : Nat

/-- What happens to the request for a sector: the page for its header, and the device. -/
structure RequestAnswers where
  metaPage : Option UInt64
  completed : Bool
  status : UInt8
  deriving DecidableEq

/-- A call of `readBlock` or `writeBlock`, with the frames of the virtual pages. -/
structure BlockCall where
  write : Bool
  writeProtected : Bool
  lba : UInt64
  count : UInt32
  buffer : UInt64
  frames : Nat → Option Nat
  answers : Nat → RequestAnswers

/-- A request in flight: the queue when the device is notified, the descriptors, the type and the
sector in the header, and the address whose frame is pinned. -/
structure InFlight where
  queue : Virtq
  desc1 : Nat
  desc2 : Nat
  desc3 : Nat
  type : Nat
  sector : UInt64
  index : Nat
  pinned : Nat

/-- How a call or a part of it ends. -/
structure Served where
  result : Bool
  queue : Virtq
  flights : List InFlight

/-- `get_physical_address`. -/
def getPhysicalAddress (frames : Nat → Option Nat) (virt : UInt64) : Nat :=
  match frames (virt.toNat / 4096) with
  | none => 0
  | some frame => frame * 4096 + virt.toNat % 4096

namespace BlockCall

/-- The address of byte `j` of the buffer. -/
def virt (c : BlockCall) (j : Nat) : UInt64 := c.buffer + UInt64.ofNat j

/-- The physical address of byte `j` of the buffer. -/
def phys (c : BlockCall) (j : Nat) : Nat := getPhysicalAddress c.frames (c.virt j)

end BlockCall

namespace Virtq

/-- The queue behind the setup. -/
def setup (queueSize : Nat) : Virtq where
  queueSize := queueSize
  next i := if i < queueSize - 1 then i + 1 else 0
  desc _ := ⟨0, 0, 0⟩
  freeHead := 0
  freeDescCount := queueSize
  ring _ := 0
  availIdx := 0

/-- `desc[desc3].next = free_head; free_head = head_idx; free_desc_count += 3`. -/
def putBack (q : Virtq) (headIdx desc3 : Nat) : Virtq :=
  { q with
    next := update q.next desc3 q.freeHead
    freeHead := headIdx
    freeDescCount := q.freeDescCount + 3 }

/-- One round of the loop of a call. Without three free descriptors it waits for another thread. -/
def request (q : Virtq) (c : BlockCall) (i : Nat) : Option Served :=
  if q.freeDescCount < 3 then none
  else
    let desc1 := q.freeHead
    let desc2 := q.next desc1
    let desc3 := q.next desc2
    let taken := { q with freeHead := q.next desc3, freeDescCount := q.freeDescCount - 3 }
    match (c.answers i).metaPage with
    | none => some ⟨false, taken.putBack desc1 desc3, []⟩
    | some page =>
      if c.phys (512 * i) = 0 then some ⟨false, taken.putBack desc1 desc3, []⟩
      else
        -- `VRING_DESC_F_NEXT` is 1 and `VRING_DESC_F_WRITE` is 2
        let header : VirtqDesc := ⟨getPhysicalAddress c.frames page, 16, 1⟩
        let data : VirtqDesc := ⟨c.phys (512 * i), 512, if c.write then 1 else 3⟩
        let status : VirtqDesc := ⟨getPhysicalAddress c.frames (page + 16), 1, 2⟩
        let sent := { taken with
          next := update (update (update q.next desc1 desc2) desc2 desc3) desc3 0
          desc := update (update (update q.desc desc1 header) desc2 data) desc3 status
          ring := update q.ring (q.availIdx % q.queueSize) desc1
          availIdx := (q.availIdx + 1) % 65536 }
        some ⟨(c.answers i).completed && decide ((c.answers i).status = 0),
          sent.putBack desc1 desc3,
          [⟨sent, desc1, desc2, desc3, if c.write then 1 else 0, c.lba + UInt64.ofNat i, i,
            c.phys (512 * i)⟩]⟩

/-- The loop of a call, from sector `i` on. -/
def transfer (c : BlockCall) : Nat → Nat → Virtq → Option Served
  | 0, _, q => some ⟨true, q, []⟩
  | n + 1, i, q =>
    (q.request c i).bind fun r =>
      if r.result then
        (transfer c n (i + 1) r.queue).map fun rest =>
          { rest with flights := r.flights ++ rest.flights }
      else some r

/-- `VirtIODriver::readBlock` and `VirtIODriver::writeBlock`. -/
def exec (q : Virtq) (c : BlockCall) : Option Served :=
  if c.write && c.writeProtected then some ⟨false, q, []⟩
  else if dmaGuardValidate [⟨0, c.buffer, c.count.toUInt64 * 512⟩] then
    transfer c c.count.toNat 0 q
  else some ⟨false, q, []⟩

/-- The calls of a run, one after the other. -/
def run (q : Virtq) : List BlockCall → Option Virtq
  | [] => some q
  | c :: calls => (q.exec c).bind fun r => r.queue.run calls

/-- The descriptors that are visited from `free_head`, as many as are free. -/
def freeList (q : Virtq) : List Nat :=
  (range q.freeDescCount).map fun k => q.next^[k] q.freeHead

/-- The free list is as the setup has left it. -/
structure Idle (size : Nat) (q : Virtq) : Prop where
  next : q.next = (setup size).next
  head : q.freeHead = 0
  count : q.freeDescCount = size

end Virtq

/-- The three descriptors are distinct indices below the queue size and not free. -/
structure InFlight.Separate (f : InFlight) (size : Nat) : Prop where
  distinct : [f.desc1, f.desc2, f.desc3].Nodup
  below : ∀ d ∈ [f.desc1, f.desc2, f.desc3], d < size
  taken : ∀ d ∈ [f.desc1, f.desc2, f.desc3], d ∉ f.queue.freeList

/-- The data descriptor names the bytes that back the sector's part of the buffer, and their frames
are pinned. -/
def InFlight.Right (f : InFlight) (c : BlockCall) : Prop :=
  let data := f.queue.desc f.desc2
  range' data.addr data.len = (range 512).map (fun b => c.phys (512 * f.index + b)) ∧
    ∀ a ∈ range' data.addr data.len, a / 4096 = f.pinned / 4096

/-- What the data descriptor and the pinned address are made of. -/
structure InFlight.Made (f : InFlight) (c : BlockCall) : Prop where
  addr : (f.queue.desc f.desc2).addr = c.phys (512 * f.index)
  len : (f.queue.desc f.desc2).len = 512
  pinned : f.pinned = c.phys (512 * f.index)
  mapped : c.phys (512 * f.index) ≠ 0

/-- A request is right if and only if its part of the buffer lies in one page. -/
lemma InFlight.Made.right_iff {f : InFlight} {c : BlockCall} (h : f.Made c) :
    f.Right c ↔ (c.virt (512 * f.index)).toNat % 4096 ≤ 3584 := by
  obtain ⟨haddr, hlen, hpinned, hmapped⟩ := h
  have hbyte {b : Nat} (hb : (c.virt (512 * f.index)).toNat % 4096 + b < 4096) :
      (c.virt (512 * f.index + b)).toNat = (c.virt (512 * f.index)).toNat + b := by
    have hlt := (c.virt (512 * f.index)).toNat_lt
    simp only [BlockCall.virt, UInt64.toNat_add, UInt64.toNat_ofNat'] at hb hlt ⊢
    omega
  simp only [Right, haddr, hlen, hpinned]
  unfold BlockCall.phys getPhysicalAddress at hmapped ⊢
  cases hframe : c.frames ((c.virt (512 * f.index)).toNat / 4096) with
  | none => simp [hframe] at hmapped
  | some frame =>
    dsimp only
    generalize hoff : (c.virt (512 * f.index)).toNat % 4096 = off at hbyte ⊢
    constructor
    · -- behind the page boundary the bytes lie in a frame that is not pinned
      rintro ⟨-, hpins⟩
      by_contra hcross
      have hlt := Nat.mod_lt (c.virt (512 * f.index)).toNat (show 0 < 4096 by decide)
      have hnext := hpins (frame * 4096 + 4096) (mem_range'_1.mpr (by omega))
      omega
    · intro hinside
      constructor
      · rw [range'_eq_map_range]
        refine map_congr_left fun b hb => ?_
        have hb : b < 512 := mem_range.mp hb
        have hpage : ((c.virt (512 * f.index)).toNat + b) / 4096 =
            (c.virt (512 * f.index)).toNat / 4096 := by omega
        rw [hbyte (by omega), hpage, hframe]
        dsimp only
        omega
      · intro a ha
        have ha := mem_range'_1.mp ha
        omega

/-- What the rounds for `n` sectors from `i` on leave behind. -/
structure Served.Keeps (r : Served) (c : BlockCall) (size i n : Nat) : Prop where
  idle : r.queue.Idle size
  flights : ∀ f ∈ r.flights, f.Separate size ∧ f.Made c
  index : r.result = true → r.flights.map InFlight.index = range' i n

namespace Virtq

section
variable {size : Nat} {q : Virtq} {c : BlockCall} {r : Served}

lemma Idle.setup (size : Nat) : (setup size).Idle size := ⟨rfl, rfl, rfl⟩

/-- From descriptor `a` on the list of the setup counts up, whatever stands below `a`. -/
lemma iterate_next {next : Nat → Nat} {a : Nat}
    (hnext : ∀ j, a ≤ j → j < size - 1 → next j = j + 1) (k : Nat) (hk : a + k < size) :
    next^[k] a = a + k := by
  induction k with
  | zero => rfl
  | succ k ih =>
    rw [iterate_succ_apply', ih (by omega), hnext _ (by omega) (by omega)]
    rfl

lemma Idle.freeList (h : q.Idle size) : q.freeList = List.range size := by
  have hcounts (j : Nat) (_ : 0 ≤ j) (hlt : j < size - 1) : q.next j = j + 1 := by
    rw [h.next]
    exact if_pos hlt
  rw [Virtq.freeList, h.count, h.head]
  refine (map_congr_left fun k hk => ?_).trans (map_id _)
  rw [iterate_next hcounts k (by simpa using hk), Nat.zero_add, id]

/-- Every way out of a round leaves the free list as it was; a request in flight is apart. -/
lemma Idle.request (h : q.Idle size) (hsize : 3 ≤ size) (c : BlockCall) (i : Nat) :
    ∃ r, q.request c i = some r ∧ r.Keeps c size i 1 := by
  obtain ⟨hnext, hhead, hcnt⟩ := h
  have h0 : q.next 0 = 1 := by
    rw [hnext]
    exact if_pos (by omega)
  have h1 : q.next 1 = 2 := by
    rw [hnext]
    exact if_pos (by omega)
  -- the links that a request writes are there already, except behind its last descriptor
  have hlinks : update (update (update q.next 0 1) 1 2) 2 0 = update q.next 2 0 := by
    have hfirst : update q.next 0 1 = q.next := update_eq_self_iff.mpr h0.symm
    have hsecond : update q.next 1 2 = q.next := update_eq_self_iff.mpr h1.symm
    rw [hfirst, hsecond]
  have hback {links : Nat → Nat} (hold : update links 2 (q.next 2) = q.next) :
      update links 2 (q.next 2) = (Virtq.setup size).next := hold.trans hnext
  simp only [Virtq.request, hhead, h0, h1, if_neg (show ¬q.freeDescCount < 3 by omega)]
  split
  · exact ⟨_, rfl, ⟨hback (update_eq_self ..), rfl, by simp only [putBack]; omega⟩, nofun, nofun⟩
  · split
    · exact ⟨_, rfl, ⟨hback (update_eq_self ..), rfl, by simp only [putBack]; omega⟩, nofun, nofun⟩
    · refine ⟨_, rfl, ⟨hback ?_, rfl, by simp only [putBack]; omega⟩, ?_, fun _ => rfl⟩
      · rw [hlinks, update_idem, update_eq_self]
      · intro f hf
        cases mem_singleton.mp hf
        refine ⟨⟨by simp, by simp; omega, fun d hd hmem => ?_⟩, ⟨?_, ?_, rfl, ‹_›⟩⟩
        rotate_left
        · simp
        · simp
        -- the free list goes on behind the three
        have hd : d < 3 := by
          simp only [mem_cons, not_mem_nil, or_false] at hd
          omega
        obtain ⟨k, hk, rfl⟩ := mem_map.mp hmem
        have hk : k < size - 3 := by simpa [hcnt] using hk
        have h2 : q.next 2 = 3 := by
          rw [hnext]
          exact if_pos (by omega)
        have hcounts (j : Nat) (hj : 3 ≤ j) (hlt : j < size - 1) :
            update q.next 2 0 j = j + 1 := by
          rw [update_of_ne (by omega), hnext]
          exact if_pos hlt
        simp only [hlinks, h2, iterate_next hcounts k (by omega)] at hd
        omega

lemma Idle.transfer (hsize : 3 ≤ size) (c : BlockCall) (n : Nat) :
    ∀ i q, q.Idle size → ∃ r, Virtq.transfer c n i q = some r ∧ r.Keeps c size i n := by
  induction n with
  | zero => exact fun i q h => ⟨_, rfl, h, nofun, fun _ => rfl⟩
  | succ n ih =>
    intro i q h
    obtain ⟨r, hr, hidle, hflights, hidx⟩ := h.request hsize c i
    rw [Virtq.transfer, hr, Option.bind_some]
    split
    case isFalse hok => exact ⟨r, rfl, hidle, hflights, fun h => absurd h hok⟩
    case isTrue hok =>
      obtain ⟨rest, hrest, hidle', hflights', hindex'⟩ := ih (i + 1) r.queue hidle
      rw [hrest]
      refine ⟨_, rfl, hidle', forall_mem_append.mpr ⟨hflights, hflights'⟩, fun hok' => ?_⟩
      rw [map_append, hidx hok, hindex' hok']
      rfl

lemma Idle.exec (h : q.Idle size) (hsize : 3 ≤ size) (c : BlockCall) :
    ∃ r, q.exec c = some r ∧ r.Keeps c size 0 c.count.toNat := by
  rw [Virtq.exec]
  split_ifs
  · exact ⟨_, rfl, h, nofun, nofun⟩
  · exact Idle.transfer hsize c _ 0 q h
  · exact ⟨_, rfl, h, nofun, nofun⟩

lemma Idle.run (hsize : 3 ≤ size) (calls : List BlockCall) :
    ∀ q : Virtq, q.Idle size → ∃ q', q.run calls = some q' ∧ q'.Idle size := by
  induction calls with
  | nil => exact fun q h => ⟨q, rfl, h⟩
  | cons c calls ih =>
    intro q h
    obtain ⟨r, hr, hkeeps⟩ := h.exec hsize c
    rw [Virtq.run, hr]
    exact ih r.queue hkeeps.idle

/-- Every run of calls returns, and behind it the free list visits all descriptors, each once; the
descriptors of a request of the next call are not on it while the request is in flight. -/
theorem freeList_complete (hsize : 3 ≤ size) (calls : List BlockCall) :
    ∃ q, (setup size).run calls = some q ∧ q.freeDescCount = size ∧ q.freeList.Nodup ∧
      (∀ d ∈ q.freeList, d < size) ∧
      ∀ c, ∃ r, q.exec c = some r ∧ ∀ f ∈ r.flights, f.Separate size := by
  obtain ⟨q, hq, hidle⟩ := Idle.run hsize calls _ (Idle.setup size)
  refine ⟨q, hq, hidle.count, ?_, ?_, fun c => ?_⟩
  · rw [hidle.freeList]
    exact nodup_range
  · rw [hidle.freeList]
    exact fun d hd => mem_range.mp hd
  · obtain ⟨r, hr, hkeeps⟩ := hidle.exec hsize c
    exact ⟨r, hr, fun f hf => (hkeeps.flights f hf).1⟩

/-- A read of one sector that the device completes. -/
def readCall (buffer : UInt64) : BlockCall :=
  ⟨false, false, 0, 1, buffer, fun page => some (0x1000 - page), fun _ => ⟨some 0x300000, true, 0⟩⟩

/-- A queue of three descriptors, which each of two requests takes up. -/
theorem freeList_complete_three :
    ∃ q, (setup 3).run [readCall 0x200000, readCall 0x200F00] = some q ∧ q.freeDescCount = 3 ∧
      q.freeList.Nodup ∧ (∀ d ∈ q.freeList, d < 3) ∧
      ∀ c, ∃ r, q.exec c = some r ∧ ∀ f ∈ r.flights, f.Separate 3 :=
  freeList_complete (by decide) _

/-- After any run of calls, a call that returns 1 has named and pinned the right memory if and only
if the part of the buffer for each sector lies in one page. -/
theorem data_right_iff (hsize : 3 ≤ size) {calls : List BlockCall}
    (hq : (setup size).run calls = some q) (hr : q.exec c = some r) (hok : r.result = true) :
    (∀ i < c.count.toNat, ∃ f ∈ r.flights, f.index = i ∧ f.Right c) ↔
      ∀ i < c.count.toNat, (c.virt (512 * i)).toNat % 4096 ≤ 3584 := by
  obtain ⟨q', hq', hidle⟩ := Idle.run hsize calls _ (Idle.setup size)
  cases hq.symm.trans hq'
  obtain ⟨r', hr', hkeeps⟩ := hidle.exec hsize c
  cases hr.symm.trans hr'
  have hidx := hkeeps.index hok
  refine forall₂_congr fun i hi => ⟨?_, fun hinside => ?_⟩
  · rintro ⟨f, hf, rfl, hright⟩
    exact (hkeeps.flights f hf).2.right_iff.mp hright
  · have hmem : i ∈ r.flights.map InFlight.index := by
      rw [hidx]
      exact mem_range'_1.mpr (by omega)
    obtain ⟨f, hf, rfl⟩ := mem_map.mp hmem
    exact ⟨f, hf, rfl, (hkeeps.flights f hf).2.right_iff.mpr hinside⟩

/-- A sector at the start of a page. -/
theorem data_right_aligned : ∃ r, (setup 3).exec (readCall 0x200000) = some r ∧
    ((∀ i < 1, ∃ f ∈ r.flights, f.index = i ∧ f.Right (readCall 0x200000)) ↔
      ∀ i < 1, ((readCall 0x200000).virt (512 * i)).toNat % 4096 ≤ 3584) := by
  obtain ⟨r, hr, hok⟩ : ∃ r, (setup 3).exec (readCall 0x200000) = some r ∧ r.result = true :=
    ⟨_, rfl, rfl⟩
  exact ⟨r, hr, data_right_iff (by decide) (show (setup 3).run [] = _ from rfl) hr hok⟩

/-- A sector that starts 256 bytes before the end of a page: the call returns 1, and no request
pins the second frame. -/
theorem data_wrong_crossing : ∃ r, (setup 3).exec (readCall 0x200F00) = some r ∧
    r.result = true ∧ ∀ f ∈ r.flights, ¬f.Right (readCall 0x200F00) := by
  obtain ⟨r, hr, hkeeps⟩ := (Idle.setup 3).exec (by decide) (readCall 0x200F00)
  have hok : r.result = true := by
    cases hr
    rfl
  refine ⟨r, hr, hok, fun f hf hright => ?_⟩
  have hinside := (hkeeps.flights f hf).2.right_iff.mp hright
  have hidx : f.index ∈ r.flights.map InFlight.index := mem_map_of_mem hf
  rw [hkeeps.index hok] at hidx
  have hzero : f.index = 0 := by
    have hlt := (mem_range'_1.mp hidx).2
    simpa [readCall] using hlt
  rw [hzero] at hinside
  revert hinside
  decide

end

end Virtq

end Singularity.Storage
