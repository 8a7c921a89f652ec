import Kannel.Gwlib.Octstr

/-!
# The time stamp of a modem's PDU

The sign of the zone is looked for at bit 7 of a number in which it counts 80, and `offset_sec`
of the structure on the stack is never set.
-/

namespace Kannel

structure UniversalTime where
  (day month year hour minute second offsetSec : Int)

def monthstart : List Int := [0, 31, 59, 90, 120, 151, 181, 212, 243, 273, 304, 334]

/-- `none`: the month is outside the table. -/
def dateConvertUniversal (t : UniversalTime) : Option Int :=
  let year := if t.month ≤ 1 then t.year - 1 else t.year
  let leapyears := year.tdiv 4 - year.tdiv 100 + year.tdiv 400 - 477
  if t.month < 0 then none else monthstart[t.month.toNat]?.map fun start =>
    (t.year - 1970) * (365 * 86400) + leapyears * 86400 + start * 86400 + (t.day - 1) * 86400 +
      t.hour * 3600 + t.minute * 60 + t.second - t.offsetSec

def swapNibbles (byte : UInt8) : Nat := (byte &&& 15).toNat * 10 + (byte >>> 4).toNat

def signedZone (timezone : Nat) : Int :=
  (if timezone >>> 7 = 0 then 1 else -1) * (timezone &&& 127 : Nat)

/-- The time `at2_pdu_decode_deliver_sm` stores; `offsetSec` is what the stack held. -/
def deliverTime (pdu : Octstr) (pos : Nat) (offsetSec : Int) : Option Int :=
  -- past the end `octstr_get_char` gives -1
  let number (i : Nat) : Nat := swapNibbles ((octstrGetChar pdu (pos + i)).getD 255)
  let timezone := signedZone (number 6)
  dateConvertUniversal {
    year := number 0 + if number 0 < 70 then 2000 else 1900
    month := number 1 - 1
    day := number 2
    hour := number 3 - timezone.tdiv 4
    minute := number 4 - 15 * timezone.tmod 4
    second := number 5
    offsetSec }

def leapYear (year : Nat) : Bool := year % 4 = 0 ∧ (year % 100 ≠ 0 ∨ year % 400 = 0)

def monthLength (year month : Nat) : Nat :=
  if month = 1 then if leapYear year then 29 else 28
  else if month ∈ [3, 5, 8, 10] then 30 else 31

/-- The days from 1970 to the first of a month. -/
def daysTo (year month : Nat) : Nat :=
  ((List.range (year - 1970)).map fun i => ((List.range 12).map (monthLength (1970 + i))).sum).sum +
    ((List.range month).map (monthLength year)).sum

/-- The stamp of a service centre, its zone in quarters of an hour. -/
structure TimeStamp where
  (year month day hour minute second quarters : Nat)
  negative : Bool
  year_range : 1970 ≤ year ∧ year < 2070
  month_lt : month < 12
  day_range : 1 ≤ day ∧ day ≤ monthLength year month
  time_range : hour < 24 ∧ minute < 60 ∧ second < 60
  zone_le : quarters ≤ if negative then 48 else 56

def bcd (n : Nat) : UInt8 := UInt8.ofNat (n / 10 + 16 * (n % 10))

namespace TimeStamp

variable (t : TimeStamp)

def octets : Octstr :=
  [bcd (t.year % 100), bcd (t.month + 1), bcd t.day, bcd t.hour, bcd t.minute, bcd t.second,
    bcd t.quarters ||| if t.negative then 8 else 0]

def seconds : Int :=
  86400 * (daysTo t.year t.month + (t.day - 1)) + 3600 * t.hour + 60 * t.minute + t.second -
    900 * if t.negative then -(t.quarters : Int) else t.quarters

theorem swapNibbles_bcd : ∀ n < 100, swapNibbles (bcd n) = n := by decide

theorem signedZone_read : ∀ (negative : Bool) (quarters : Nat),
    (quarters ≤ if negative then 48 else 56) →
    signedZone (swapNibbles (bcd quarters ||| if negative then 8 else 0)) =
      if negative then if quarters = 48 then 0 else 80 + quarters else quarters := by
  decide

theorem monthLength_le (year month : Nat) : monthLength year month ≤ 31 := by
  unfold monthLength
  split_ifs <;> omega

theorem dateConvertUniversal_first : ∀ year < (100 : Nat), ∀ month < (12 : Nat),
    dateConvertUniversal ⟨1, month, (1970 + year : Nat), 0, 0, 0, 0⟩ =
      some (86400 * daysTo (1970 + year) month) := by
  decide +kernel

theorem dateConvertUniversal_eq {year month : Nat} (hyear : 1970 ≤ year ∧ year < 2070)
    (hmonth : month < 12) (day hour minute second offsetSec : Int) :
    dateConvertUniversal ⟨day, month, year, hour, minute, second, offsetSec⟩ =
      some (86400 * (daysTo year month + (day - 1)) + 3600 * hour + 60 * minute + second -
        offsetSec) := by
  obtain ⟨k, rfl⟩ := Nat.exists_eq_add_of_le hyear.1
  have hfirst := dateConvertUniversal_first k (by omega) month hmonth
  unfold dateConvertUniversal at hfirst ⊢
  rw [if_neg (by simp)] at hfirst ⊢
  obtain ⟨start, hstart, hdays⟩ := Option.map_eq_some_iff.mp hfirst
  rw [hstart, Option.map_some]
  dsimp only at hdays ⊢
  congr 1
  omega

theorem deliverTime_octets (before rest : Octstr) (offsetSec : Int) :
    deliverTime (before ++ t.octets ++ rest) before.length offsetSec =
      let zone := signedZone (swapNibbles (bcd t.quarters ||| if t.negative then 8 else 0))
      dateConvertUniversal ⟨t.day, t.month, t.year, t.hour - zone.tdiv 4,
        t.minute - 15 * zone.tmod 4, t.second, offsetSec⟩ := by
  have hget : ∀ i, octstrGetChar (before ++ t.octets ++ rest) (before.length + i) =
      (t.octets ++ rest)[i]? := by
    intro i
    simp [octstrGetChar, List.getElem?_append_right]
  have hyear := t.year_range
  have hmonth := t.month_lt
  have hday := t.day_range.2.trans (monthLength_le _ _)
  have htime := t.time_range
  have hcentury : ((t.year % 100 : Nat) : Int) + (if t.year % 100 < 70 then 2000 else 1900) =
      t.year := by
    split_ifs <;> omega
  simp only [deliverTime, hget]
  simp (disch := omega) only [octets, List.cons_append, List.getElem?_cons_zero,
    List.getElem?_cons_succ, Option.getD_some, swapNibbles_bcd, hcentury, Nat.cast_succ,
    add_sub_cancel_right]

/-- **The time is right** exactly if the unset offset makes up for the misread zone. -/
theorem deliverTime_right_iff (before rest : Octstr) (offsetSec : Int) :
    deliverTime (before ++ t.octets ++ rest) before.length offsetSec = some t.seconds ↔
      offsetSec = if t.negative then if t.quarters = 48 then -43200
        else -900 * (80 + 2 * (t.quarters : Int)) else 0 := by
  rw [deliverTime_octets]
  dsimp only
  rw [dateConvertUniversal_eq t.year_range t.month_lt, Option.some.injEq, seconds]
  have hzone := signedZone_read _ _ t.zone_le
  have hquarters := Int.mul_tdiv_add_tmod
    (signedZone (swapNibbles (bcd t.quarters ||| if t.negative then 8 else 0))) 4
  split_ifs at hzone hquarters ⊢ <;> omega

/-- The first second of 1970 five hours west of Greenwich, with no offset. -/
theorem deliverTime_west : (∃ t : TimeStamp,
      t.octets = [0x07, 0x10, 0x10, 0, 0, 0, 0x0A] ∧ t.seconds = 18000) ∧
    deliverTime [0x07, 0x10, 0x10, 0, 0, 0, 0x0A] 0 0 = some (-90000) :=
  ⟨⟨⟨1970, 0, 1, 0, 0, 0, 20, true, by decide, by decide, by decide, by decide, by decide⟩,
    by decide, by decide⟩, by decide⟩

end TimeStamp
end Kannel
