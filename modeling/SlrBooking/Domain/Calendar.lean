import SlrBooking.Domain.Values

/-!
# `Domain.Calendar` — the part of `datetime.date` the timetable uses

Dates are proleptic Gregorian day numbers, day 1 being 1 January of year 1, bounded as the library
bounds them. `fromIsoformat` accepts the library's calendar and week forms, `isoformat` prints.

## Contents
- `fromIsoformat`, `isoformat`, `Date.weekday`, `addDays`.
- `fromIsoformat_isoformat`: a printed date reads back as itself. `isoformat_inj`, `length_isoformat`.
-/

namespace SlrBooking

/-- `date.max.toordinal()`. -/
def maxOrdinal : Nat := 3652059

structure Date where
  ordinal : Nat
  low  : 1 ≤ ordinal
  high : ordinal ≤ maxOrdinal
deriving DecidableEq

/-- `date.weekday()`, Monday first. -/
def Date.weekday (d : Date) : Nat := (d.ordinal + 6) % 7

namespace Calendar

def isLeap (year : Nat) : Bool := year % 4 = 0 && (year % 100 ≠ 0 || year % 400 = 0)

def daysBeforeYear (year : Nat) : Nat :=
  (year - 1) * 365 + (year - 1) / 4 - (year - 1) / 100 + (year - 1) / 400

def daysInMonth (year month : Nat) : Nat :=
  if month = 2 then (if isLeap year then 29 else 28)
  else if month = 4 ∨ month = 6 ∨ month = 9 ∨ month = 11 then 30 else 31

def daysBeforeMonth (year month : Nat) : Nat :=
  ((List.range (month - 1)).map fun m => daysInMonth year (m + 1)).sum

def ymdToOrdinal (year month day : Nat) : Nat := daysBeforeYear year + daysBeforeMonth year month + day

def ofOrdinal (n : Nat) : Option Date :=
  if h : 1 ≤ n ∧ n ≤ maxOrdinal then some ⟨n, h.1, h.2⟩ else none

/-- `date(year, month, day)`. -/
def ofYmd (year month day : Nat) : Option Date :=
  if 1 ≤ year ∧ year ≤ 9999 ∧ 1 ≤ month ∧ month ≤ 12 ∧ 1 ≤ day ∧ day ≤ daysInMonth year month then
    ofOrdinal (ymdToOrdinal year month day)
  else none

/-- The Monday on or before which ISO week 1 starts, as a day number. -/
def isoWeekOneMonday (year : Nat) : Nat :=
  let firstday := ymdToOrdinal year 1 1
  let firstweekday := (firstday + 6) % 7
  if firstweekday > 3 then firstday - firstweekday + 7 else firstday - firstweekday

/-- Years whose ISO calendar has a week 53. -/
def hasWeek53 (year : Nat) : Bool :=
  let first := ymdToOrdinal year 1 1 % 7
  first = 4 || (first = 3 && isLeap year)

def ofIsoWeek (year week day : Nat) : Option Date :=
  if 1 ≤ year ∧ year ≤ 9999 ∧ 1 ≤ week ∧ (week ≤ 52 ∨ (week = 53 ∧ hasWeek53 year)) ∧ 1 ≤ day ∧ day ≤ 7 then
    ofOrdinal (isoWeekOneMonday year + (week - 1) * 7 + (day - 1))
  else none

def digit (c : Char) : Option Nat := if c.isDigit then some (c.toNat - '0'.toNat) else none

/-- The number written by `cs`, all of them ASCII digits. -/
def number (cs : List Char) : Option Nat :=
  cs.foldl (fun acc c => do return 10 * (← acc) + (← digit c)) (some 0)

/-- `date.fromisoformat`: `YYYY-MM-DD`, `YYYYMMDD`, and the week forms with or without a day. -/
def fromIsoformat (text : String) : Option Date :=
  match text.toList with
  | [a, b, c, d, '-', 'W', e, f] => do ofIsoWeek (← number [a, b, c, d]) (← number [e, f]) 1
  | [a, b, c, d, '-', 'W', e, f, '-', g] => do
    ofIsoWeek (← number [a, b, c, d]) (← number [e, f]) (← number [g])
  | [a, b, c, d, '-', e, f, '-', g, h] => do
    ofYmd (← number [a, b, c, d]) (← number [e, f]) (← number [g, h])
  | [a, b, c, d, 'W', e, f] => do ofIsoWeek (← number [a, b, c, d]) (← number [e, f]) 1
  | [a, b, c, d, 'W', e, f, g] => do
    ofIsoWeek (← number [a, b, c, d]) (← number [e, f]) (← number [g])
  | [a, b, c, d, e, f, g, h] => do
    ofYmd (← number [a, b, c, d]) (← number [e, f]) (← number [g, h])
  | _ => none

/-- Year, month and day of a day number, by the 400-, 100-, 4- and 1-year cycles. -/
def toYmd (ordinal : Nat) : Nat × Nat × Nat :=
  let n := ordinal - 1
  let n400 := n / 146097
  let n := n % 146097
  let n100 := n / 36524
  let n := n % 36524
  let n4 := n / 1461
  let n := n % 1461
  let n1 := n / 365
  let n := n % 365
  let year := n400 * 400 + n100 * 100 + n4 * 4 + n1 + 1
  if n1 = 4 ∨ n100 = 4 then (year - 1, 12, 31)
  else
    let month := ((List.range 12).filter fun m => daysBeforeMonth year (m + 1) ≤ n).length
    (year, month, n - daysBeforeMonth year month + 1)

/-- `n` in decimal, zero-padded to `width`. -/
def zeroPad (width n : Nat) : String :=
  let digits := (toString n).toList
  String.ofList (List.replicate (width - digits.length) '0' ++ digits)

def isoformat (d : Date) : String :=
  let ymd := toYmd d.ordinal
  zeroPad 4 ymd.1 ++ "-" ++ zeroPad 2 ymd.2.1 ++ "-" ++ zeroPad 2 ymd.2.2

/-- `d + timedelta(days=days)`. -/
def addDays (d : Date) (days : Nat) : Except Err Date :=
  match ofOrdinal (d.ordinal + days) with
  | some d => .ok d
  | none => .error (.overflowError "date value out of range")

example : (fromIsoformat "2024-W09-4").map isoformat = some "2024-02-29" := by decide +kernel

/-! ## Printing and reading back -/

/-- `cs` are `width` decimal digits that write `n`. -/
structure Digits (width n : Nat) (cs : List Char) : Prop where
  length : cs.length = width
  digits : ∀ c ∈ cs, c.isDigit = true
  value  : Nat.ofDigitChars 10 cs 0 = n

theorem toList_zeroPad (width n : Nat) : (zeroPad width n).toList =
    List.replicate (width - (Nat.toDigits 10 n).length) '0' ++ Nat.toDigits 10 n := by
  simp [zeroPad]

theorem digits_zeroPad {width n : Nat} (hn : n < 10 ^ width) (hwidth : 0 < width) :
    Digits width n (zeroPad width n).toList := by
  rw [toList_zeroPad]
  have hlen := (Nat.length_toDigits_le_iff (b := 10) (by decide) hwidth).mpr hn
  refine ⟨?_, fun c hc => ?_, ?_⟩
  · rw [List.length_append, List.length_replicate]
    omega
  · rcases List.mem_append.mp hc with hc | hc
    · rw [(List.mem_replicate.mp hc).2]
      rfl
    · exact Nat.isDigit_of_mem_toDigits (by decide) (by decide) hc
  · rw [Nat.ofDigitChars_append, Nat.ofDigitChars_replicate_zero, Nat.mul_zero, Nat.ofDigitChars_ten_toDigits]

theorem number_from (cs : List Char) (hcs : ∀ c ∈ cs, c.isDigit = true) (init : Nat) :
    cs.foldl (fun acc c => do return 10 * (← acc) + (← digit c)) (some init) =
      some (Nat.ofDigitChars 10 cs init) := by
  induction cs generalizing init with
  | nil => rfl
  | cons c cs ih =>
      have hc : digit c = some (c.toNat - '0'.toNat) := if_pos (hcs c List.mem_cons_self)
      rw [List.foldl_cons, Nat.ofDigitChars_cons, hc]
      exact ih (fun b hb => hcs b (List.mem_cons_of_mem _ hb)) _

theorem Digits.number {width n : Nat} {cs : List Char} (h : Digits width n cs) : number cs = some n := by
  rw [Calendar.number, number_from cs h.digits, h.value]

/-- **Printed dates parse.** -/
theorem fromIsoformat_printed {year month day : Nat} (hy : year < 10000) (hm : month < 100) (hd : day < 100) :
    fromIsoformat (zeroPad 4 year ++ "-" ++ zeroPad 2 month ++ "-" ++ zeroPad 2 day) = ofYmd year month day := by
  have hyear : Digits 4 year _ := digits_zeroPad hy (by decide)
  have hmonth : Digits 2 month _ := digits_zeroPad hm (by decide)
  have hday : Digits 2 day _ := digits_zeroPad hd (by decide)
  obtain ⟨a, b, c, d, habcd⟩ := List.length_eq_four.mp hyear.length
  obtain ⟨e, f, hef⟩ := List.length_eq_two.mp hmonth.length
  obtain ⟨g, h, hgh⟩ := List.length_eq_two.mp hday.length
  have htext : (zeroPad 4 year ++ "-" ++ zeroPad 2 month ++ "-" ++ zeroPad 2 day).toList =
      [a, b, c, d, '-', e, f, '-', g, h] := by
    simp only [String.toList_append, habcd, hef, hgh]
    rfl
  -- A digit is not the week form's `W`.
  have hweek : e ≠ 'W' := by
    rintro rfl
    exact absurd (hmonth.digits 'W' (hef ▸ List.mem_cons_self)) (by decide)
  have hparse : fromIsoformat (zeroPad 4 year ++ "-" ++ zeroPad 2 month ++ "-" ++ zeroPad 2 day) =
      (do ofYmd (← number [a, b, c, d]) (← number [e, f]) (← number [g, h])) := by
    unfold fromIsoformat
    rw [htext]
    split
    case h_2 heq =>
      simp only [List.cons.injEq] at heq
      exact absurd heq.2.2.2.2.2.1 hweek
    case h_3 heq =>
      simp only [List.cons.injEq, and_true] at heq
      obtain ⟨rfl, rfl, rfl, rfl, -, rfl, rfl, -, rfl, rfl⟩ := heq
      rfl
    case h_7 hno _ _ _ => exact (hno a b c d e f g h rfl).elim
    all_goals simp at *
  rw [hparse, ← habcd, ← hef, ← hgh, hyear.number, hmonth.number, hday.number]
  rfl

/-! ## Day numbers and dates -/

theorem daysInMonth_of_leap {year year' : Nat} (h : isLeap year = isLeap year') :
    daysInMonth year = daysInMonth year' := by
  funext month
  rw [daysInMonth, daysInMonth, h]

theorem daysBeforeMonth_of_leap {year year' : Nat} (h : isLeap year = isLeap year') :
    daysBeforeMonth year = daysBeforeMonth year' := by
  funext month
  rw [daysBeforeMonth, daysBeforeMonth, daysInMonth_of_leap h]

/-- The last month that starts by day `r` of the year, days counted from 0. -/
def monthOfDay (year r : Nat) : Nat := ((List.range 12).filter fun m => daysBeforeMonth year (m + 1) ≤ r).length

/-- Year 1 stands for the common years, year 4 for the leap years. -/
theorem monthOfDay_in_month (year : Nat) {r : Nat} (hr : r < 365) :
    let month := monthOfDay year r
    1 ≤ month ∧ month ≤ 12 ∧ daysBeforeMonth year month ≤ r ∧
      r - daysBeforeMonth year month + 1 ≤ daysInMonth year month := by
  have htable : ∀ y ∈ [1, 4], ∀ r < 365, let month := monthOfDay y r
      1 ≤ month ∧ month ≤ 12 ∧ daysBeforeMonth y month ≤ r ∧
        r - daysBeforeMonth y month + 1 ≤ daysInMonth y month := by decide +kernel
  have hleap : ∃ y ∈ [1, 4], isLeap year = isLeap y := by
    cases h : isLeap year with
    | false => exact ⟨1, by decide, rfl⟩
    | true => exact ⟨4, by decide, rfl⟩
  obtain ⟨y, hy, h⟩ := hleap
  have hrow := htable y hy r hr
  unfold monthOfDay at hrow ⊢
  rw [daysBeforeMonth_of_leap h, daysInMonth_of_leap h]
  exact hrow

theorem isLeap_iff (year : Nat) : isLeap year = true ↔ year % 4 = 0 ∧ (year % 100 ≠ 0 ∨ year % 400 = 0) := by
  simp [isLeap]

theorem new_years_eve {year : Nat} (h : isLeap year = true) : daysBeforeMonth year 12 = 335 :=
  (congrFun (daysBeforeMonth_of_leap (h.trans (show true = isLeap 4 from rfl))) 12).trans (by decide)

theorem daysInMonth_le (year month : Nat) : daysInMonth year month ≤ 31 := by
  unfold daysInMonth
  split
  · split <;> omega
  · split <;> omega

theorem daysInMonth_december (year : Nat) : daysInMonth year 12 = 31 := rfl

/-- Full cycles of 400, 100, 4 and 1 years. -/
theorem daysBeforeYear_cycles (n400 : Nat) {n100 n4 n1 : Nat} (h100 : n100 ≤ 3) (h4 : n4 ≤ 24) (h1 : n1 ≤ 3) :
    daysBeforeYear (n400 * 400 + n100 * 100 + n4 * 4 + n1 + 1) =
      n400 * 146097 + n100 * 36524 + n4 * 1461 + n1 * 365 := by
  have hdiv4 : (n400 * 400 + n100 * 100 + n4 * 4 + n1) / 4 = n400 * 100 + n100 * 25 + n4 := by omega
  have hdiv100 : (n400 * 400 + n100 * 100 + n4 * 4 + n1) / 100 = n400 * 4 + n100 := by omega
  have hdiv400 : (n400 * 400 + n100 * 100 + n4 * 4 + n1) / 400 = n400 := by omega
  rw [daysBeforeYear, Nat.add_sub_cancel, hdiv4, hdiv100, hdiv400]
  omega

/-- **The date of a day number.** Four cycles of 100 years and four of one year end early, on a 31 December
    of a leap year. -/
theorem toYmd_spec {n : Nat} (h₁ : 1 ≤ n) (h₂ : n ≤ maxOrdinal) : ∃ year month day, toYmd n = (year, month, day) ∧
    (1 ≤ year ∧ year ≤ 9999 ∧ 1 ≤ month ∧ month ≤ 12 ∧ 1 ≤ day ∧ day ≤ daysInMonth year month) ∧
    ymdToOrdinal year month day = n := by
  unfold maxOrdinal at h₂
  unfold toYmd
  dsimp only
  generalize hn400 : (n - 1) / 146097 = n400
  generalize hr400 : (n - 1) % 146097 = r400
  generalize hn100 : r400 / 36524 = n100
  generalize hr100 : r400 % 36524 = r100
  generalize hn4 : r100 / 1461 = n4
  generalize hr4 : r100 % 1461 = r4
  generalize hn1 : r4 / 365 = n1
  generalize hr1 : r4 % 365 = r1
  by_cases hlast : n1 = 4 ∨ n100 = 4
  · -- the day after the fourth short cycle
    rw [if_pos hlast]
    refine ⟨_, _, _, rfl, ?_⟩
    have hcycles : (n1 = 4 ∧ n100 ≤ 3 ∧ n4 ≤ 23) ∨ (n100 = 4 ∧ n4 = 0 ∧ n1 = 0) := by omega
    have hleap : isLeap (n400 * 400 + n100 * 100 + n4 * 4 + n1 + 1 - 1) = true := by
      rw [isLeap_iff]
      omega
    have hyear : daysBeforeYear (n400 * 400 + n100 * 100 + n4 * 4 + n1 + 1 - 1) + 366 = n := by
      rcases hcycles with ⟨h1, h100, h4⟩ | ⟨h100, h4, h1⟩
      · have hyear := daysBeforeYear_cycles n400 h100 (show n4 ≤ 24 by omega) (Nat.le_refl 3)
        rw [h1, show n400 * 400 + n100 * 100 + n4 * 4 + 4 + 1 - 1 = n400 * 400 + n100 * 100 + n4 * 4 + 3 + 1 by omega]
        omega
      · have hyear := daysBeforeYear_cycles n400 (Nat.le_refl 3) (Nat.le_refl 24) (Nat.le_refl 3)
        rw [h100, h4, h1, show n400 * 400 + 4 * 100 + 0 * 4 + 0 + 1 - 1 =
          n400 * 400 + 3 * 100 + 24 * 4 + 3 + 1 by omega]
        omega
    rw [ymdToOrdinal, new_years_eve hleap, daysInMonth_december]
    omega
  · rw [if_neg hlast]
    obtain ⟨hm₁, hm₁₂, hstart, hday⟩ := monthOfDay_in_month (n400 * 400 + n100 * 100 + n4 * 4 + n1 + 1)
      (show r1 < 365 by omega)
    refine ⟨_, _, _, rfl, ⟨by omega, by omega, hm₁, hm₁₂, by omega, hday⟩, ?_⟩
    change daysBeforeMonth _ (monthOfDay _ r1) ≤ r1 at hstart
    change daysBeforeYear _ + daysBeforeMonth _ (monthOfDay _ r1) + (r1 - daysBeforeMonth _ (monthOfDay _ r1) + 1) = n
    have hyear := daysBeforeYear_cycles n400 (show n100 ≤ 3 by omega) (show n4 ≤ 24 by omega)
      (show n1 ≤ 3 by omega)
    omega

/-- **Round trip.** A printed date reads back as itself. -/
theorem fromIsoformat_isoformat (d : Date) : fromIsoformat (isoformat d) = some d := by
  obtain ⟨year, month, day, hymd, hvalid, hordinal⟩ := toYmd_spec d.low d.high
  have hshort := daysInMonth_le year month
  unfold isoformat
  rw [hymd]
  dsimp only
  rw [fromIsoformat_printed (by omega) (by omega) (by omega), ofYmd, if_pos hvalid, hordinal, ofOrdinal,
    dif_pos ⟨d.low, d.high⟩]

theorem isoformat_inj {d d' : Date} (h : isoformat d = isoformat d') : d = d' := by
  have hread := fromIsoformat_isoformat d
  rw [h, fromIsoformat_isoformat] at hread
  exact (Option.some.inj hread).symm

/-- Every printed date is ten characters long. -/
theorem length_isoformat (d : Date) : (isoformat d).toList.length = 10 := by
  obtain ⟨year, month, day, hymd, hvalid, -⟩ := toYmd_spec d.low d.high
  have hshort := daysInMonth_le year month
  have hy : (zeroPad 4 year).toList.length = 4 := (digits_zeroPad (by omega) (by decide)).length
  have hm : (zeroPad 2 month).toList.length = 2 := (digits_zeroPad (by omega) (by decide)).length
  have hd : (zeroPad 2 day).toList.length = 2 := (digits_zeroPad (by omega) (by decide)).length
  unfold isoformat
  rw [hymd]
  simp only [String.toList_append, List.length_append, hy, hm, hd]
  rfl

end Calendar

end SlrBooking
