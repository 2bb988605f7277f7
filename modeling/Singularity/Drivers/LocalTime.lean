import Mathlib.Algebra.Order.Ring.Int
import Mathlib.Algebra.Ring.Nat

/-!
# Local time

The clock gives UTC, from the firmware or from the CMOS registers; `getTime` adds the time zone of
the configuration to it. The calendar counts the days of the years and months before a date.
-/

namespace Singularity.Drivers

structure RtcTime where
  (second minute hour day month year : Nat)

/-- The registers as `cmos_get_time_raw` has read them. -/
structure CmosRegisters extends RtcTime where
  statusB : Nat

def bcdToBin (bcd : Nat) : Nat := (bcd >>> 4 &&& 0x0F) * 10 + (bcd &&& 0x0F)

namespace CmosRegisters

def isBinary (regs : CmosRegisters) : Bool := regs.statusB &&& 0x04 != 0

def is24hr (regs : CmosRegisters) : Bool := regs.statusB &&& 0x02 != 0

def toBin (isBinary : Bool) (value : Nat) : Nat := if isBinary then value else bcdToBin value

/-- The value as a register holds it. -/
def ofBin (isBinary : Bool) (value : Nat) : Nat :=
  if isBinary then value else value / 10 * 16 + value % 10

def toHour (isBinary is24hr : Bool) (hr : Nat) : Nat :=
  if is24hr then toBin isBinary hr
  else
    let pm := hr &&& 0x80
    let hr := toBin isBinary (hr &&& 0x7F)
    if pm ≠ 0 ∧ hr ≠ 12 then (hr + 12) % 2 ^ 8 else if pm = 0 ∧ hr = 12 then 0 else hr

def ofHour (isBinary is24hr : Bool) (hour : Nat) : Nat :=
  if is24hr then ofBin isBinary hour
  else ofBin isBinary ((hour + 11) % 12 + 1) + if hour < 12 then 0 else 0x80

def cmosGetTimeRaw (regs : CmosRegisters) : RtcTime :=
  let bin := toBin regs.isBinary
  let yr := bin regs.year
  { second := bin regs.second
    minute := bin regs.minute
    hour := toHour regs.isBinary regs.is24hr regs.hour
    day := if 1 ≤ bin regs.day ∧ bin regs.day ≤ 31 then bin regs.day else 1
    month := if 1 ≤ bin regs.month ∧ bin regs.month ≤ 12 then bin regs.month else 1
    year := if 70 ≤ yr then 1900 + yr else 2000 + yr }

end CmosRegisters

open CmosRegisters

/-- The hour `getTime` stores; the rest of the date stays. -/
def localHour (hour : Nat) (timezone : Int) : Nat :=
  let tz := if timezone < -12 ∨ timezone > 14 then 0 else timezone
  if tz ≠ 0 then
    let newHour := hour + tz
    let newHour :=
      if newHour ≥ 24 then newHour - 24 else if newHour < 0 then newHour + 24 else newHour
    (newHour % 2 ^ 8).toNat
  else hour

/-- `uefi` is what the firmware's clock says, if it can be asked. -/
def getTime (uefi : Option RtcTime) (regs : CmosRegisters) (timezone : Int) : RtcTime :=
  let time := uefi.getD regs.cmosGetTimeRaw
  { time with hour := localHour time.hour timezone }

def isLeap (year : Nat) : Bool := year % 4 == 0 && (year % 100 != 0 || year % 400 == 0)

def monthDays (year month : Nat) : Nat :=
  if month = 2 then (if isLeap year then 29 else 28) else if month ∈ [4, 6, 9, 11] then 30 else 31

namespace RtcTime

/-- The time is one of the Gregorian calendar. -/
structure Valid (t : RtcTime) : Prop where
  second : t.second < 60
  minute : t.minute < 60
  hour : t.hour < 24
  day : 1 ≤ t.day ∧ t.day ≤ monthDays t.year t.month
  month : 1 ≤ t.month ∧ t.month ≤ 12

/-- The days of the calendar before the date. -/
def days (t : RtcTime) : Nat :=
  ((List.range t.year).map fun y => if isLeap y then 366 else 365).sum +
    ((List.range' 1 (t.month - 1)).map (monthDays t.year)).sum + (t.day - 1)

def seconds (t : RtcTime) : Nat := 86400 * t.days + 3600 * t.hour + 60 * t.minute + t.second

/-- `t'` is the time of the calendar that lies `hours` after `t`. -/
def Later (t : RtcTime) (hours : Int) (t' : RtcTime) : Prop :=
  t'.Valid ∧ (t'.seconds : Int) = t.seconds + 3600 * hours

/-- What the registers hold at the time `t`, in the mode that status register B sets. -/
def registers (t : RtcTime) (statusB : Nat) : CmosRegisters :=
  let isBinary := statusB &&& 0x04 != 0
  { second := ofBin isBinary t.second
    minute := ofBin isBinary t.minute
    hour := ofHour isBinary (statusB &&& 0x02 != 0) t.hour
    day := ofBin isBinary t.day
    month := ofBin isBinary t.month
    year := ofBin isBinary (t.year % 100)
    statusB }

/-- The clock delivers the time `t`: a year of the CMOS has two digits, which mean 1970 to 2069. -/
def Delivered (t : RtcTime) (uefi : Option RtcTime) (regs : CmosRegisters) : Prop :=
  uefi = some t ∨
    uefi = none ∧ (1970 ≤ t.year ∧ t.year < 2070) ∧ ∃ statusB, regs = t.registers statusB

variable {t : RtcTime} {tz : Int}

lemma monthDays_le (year month : Nat) : monthDays year month ≤ 31 := by
  unfold monthDays
  split_ifs <;> decide

lemma toBin_ofBin (isBinary : Bool) (hn : n < 100) : toBin isBinary (ofBin isBinary n) = n := by
  revert n
  cases isBinary <;> decide

lemma toHour_ofHour (isBinary is24hr : Bool) (hn : n < 24) :
    toHour isBinary is24hr (ofHour isBinary is24hr n) = n := by
  revert n
  cases isBinary <;> cases is24hr <;> decide

lemma cmosGetTimeRaw_registers (ht : t.Valid) (hyear : 1970 ≤ t.year ∧ t.year < 2070)
    (statusB : Nat) : (t.registers statusB).cmosGetTimeRaw = t := by
  have hday := ht.day.2.trans (monthDays_le _ _)
  have hcentury : (if 70 ≤ t.year % 100 then 1900 + t.year % 100 else 2000 + t.year % 100) =
      t.year := by split <;> omega
  have hbin {n : Nat} (hn : n < 100) := toBin_ofBin (statusB &&& 0x04 != 0) hn
  simp only [cmosGetTimeRaw, registers, isBinary, is24hr, hbin (ht.second.trans (by decide)),
    hbin (ht.minute.trans (by decide)), hbin (hday.trans_lt (by decide)),
    hbin (ht.month.2.trans_lt (by decide)), hbin (Nat.mod_lt t.year (by decide)),
    toHour_ofHour _ _ ht.hour, hday, ht.day.1, ht.month, and_self, if_true, hcentury]

lemma localHour_spec {hour : Nat} (hhour : hour < 24) (hlo : -12 ≤ tz) (hhi : tz ≤ 14) :
    localHour hour tz < 24 ∧ ((localHour hour tz : Int) = hour + tz ↔
      0 ≤ hour + tz ∧ hour + tz < 24) := by
  simp only [localHour]
  split_ifs <;> omega

lemma later_hour_iff {hour : Nat} (ht : t.Valid) (hhour : hour < 24) :
    t.Later tz { t with hour } ↔ (hour : Int) = t.hour + tz := by
  have hvalid : Valid { t with hour } := { ht with hour := hhour }
  have hdays : days { t with hour } = t.days := rfl
  simp only [Later, hvalid, true_and, seconds, hdays]
  omega

/-- The local time is right exactly when the time zone keeps it on the same day. -/
theorem later_getTime_iff {uefi : Option RtcTime} {regs : CmosRegisters} (ht : t.Valid)
    (hclock : t.Delivered uefi regs) (hlo : -12 ≤ tz) (hhi : tz ≤ 14) :
    t.Later tz (getTime uefi regs tz) ↔ 0 ≤ t.hour + tz ∧ t.hour + tz < 24 := by
  have hspec := localHour_spec ht.hour hlo hhi
  have hget : getTime uefi regs tz = { t with hour := localHour t.hour tz } := by
    obtain rfl | ⟨rfl, hyear, statusB, rfl⟩ := hclock
    · rfl
    · simp only [getTime, Option.getD_none, cmosGetTimeRaw_registers ht hyear]
  rw [hget, later_hour_iff ht hspec.1]
  exact hspec.2

/-- Noon in BCD and with twelve hours, in the default time zone. -/
theorem later_getTime_noon :
    (⟨0, 0, 12, 29, 2, 2024⟩ : RtcTime).Later 3
      (getTime none (registers ⟨0, 0, 12, 29, 2, 2024⟩ 0) 3) :=
  (later_getTime_iff (by constructor <;> decide) (.inr ⟨rfl, by decide, 0, rfl⟩) (by decide)
    (by decide)).mpr (by decide)

/-- On the last evening of the year the date stays in the old year. -/
theorem getTime_new_year :
    (⟨0, 0, 22, 31, 12, 2023⟩ : RtcTime).Valid ∧
      ¬ (⟨0, 0, 22, 31, 12, 2023⟩ : RtcTime).Later 3
        (getTime (some ⟨0, 0, 22, 31, 12, 2023⟩) ⟨⟨0, 0, 0, 1, 1, 0⟩, 0⟩ 3) := by
  have hvalid : (⟨0, 0, 22, 31, 12, 2023⟩ : RtcTime).Valid := by constructor <;> decide
  refine ⟨hvalid, fun h => ?_⟩
  have hhour := (later_hour_iff hvalid (by decide : 1 < 24)).mp h
  revert hhour
  decide

end RtcTime

end Singularity.Drivers
