import SlrBooking.Domain.Stations
import SlrBooking.Domain.Calendar
import SlrBooking.Domain.Numerals

/-!
# `Domain.Timetable` — which train calls where, and when

Times are minutes from midnight of the service date. A `Stop` carries its constructor's two checks, `Stop.make`
is the constructor with its errors.

## Contents
- `Stop`, `LegTimes`, `stopAt`, `serves`, `legTimes`; `legTimes_ok_iff`: the times exist exactly on a
  served leg.
- `parseDays`, `parseHhmm`, `departureMin`, `formatHhmm`.
- `parseDate`, `dateFromEpoch`, `runsOn`, `serviceDates`, `withinWindow`, `tripIdFor`.
  `serviceDates_ok`, `serviceDates_error`: the dates of a window, which must end within the calendar.
  `tripIdFor_inj`: an id names one pattern and one date.
-/

namespace SlrBooking

/-! ## Stops and times of day -/

/-- One call on a trip: no arrival at the origin, no departure at the terminus. -/
structure Stop where
  stationSeq : Int
  arriveMin  : Option Int
  departMin  : Option Int
  seq_nonneg : ¬ stationSeq < 0
  has_time   : arriveMin ≠ none ∨ departMin ≠ none
deriving DecidableEq

/-- `Stop(station_seq, arrive_min, depart_min)`. -/
def Stop.make (stationSeq : Int) (arriveMin departMin : Option Int) : Except Err Stop :=
  if hseq : stationSeq < 0 then .error (.domain .invalidServiceDate s!"negative station sequence: {stationSeq}")
  else if htime : arriveMin = none ∧ departMin = none then
    .error (.domain .invalidServiceDate s!"stop {stationSeq} has no times")
  else .ok ⟨stationSeq, arriveMin, departMin, hseq, not_and_or.mp htime⟩

structure LegTimes where
  departMin : Int
  arriveMin : Int
deriving DecidableEq

def LegTimes.durationMin (t : LegTimes) : Int := t.arriveMin - t.departMin

def minutesPerDay : Int := 1440

/-- Monday-first, matching `Date.weekday`. -/
def dayCodes : List String := ["MON", "TUE", "WED", "THU", "FRI", "SAT", "SUN"]

/-- The loop of `parseDays`. -/
def dayNumbers : List String → Except Err (Finset Nat)
  | [] => .ok ∅
  | code :: codes =>
    match dayCodes.idxOf? (Numerals.upper (Numerals.strip code)) with
    | none => .error (.domain .invalidServiceDate s!"unknown day code: {reprText code}")
    | some day => do return insert day (← dayNumbers codes)

/-- Day codes (`MON` to `SUN`) to weekday numbers. -/
def parseDays (codes : List String) : Except Err (Finset Nat) := do
  let days ← dayNumbers codes
  if days = ∅ then .error (.domain .invalidServiceDate "a service pattern must run on at least one day")
  else return days

/-- How many `+` the text starts with, and the rest of it. -/
def leadingPlus : List Char → Int × List Char
  | '+' :: cs => ((leadingPlus cs).1 + 1, (leadingPlus cs).2)
  | cs => (0, cs)

/-- `"08:30"` to minutes from midnight. A `+` prefix marks the next day: `"+02:15"`. -/
def parseHhmm (value : String) : Except Err Int :=
  let (dayOffset, text) := leadingPlus (Numerals.strip value).toList
  -- `text.split(":", 1)`: everything behind the first colon is the minutes.
  match Numerals.int (String.ofList (text.takeWhile (· ≠ ':'))), text.dropWhile (· ≠ ':') with
  | .ok hours, _ :: rest =>
    match Numerals.int (String.ofList rest) with
    | .ok minutes =>
      if (0 ≤ hours ∧ hours < 24) ∧ 0 ≤ minutes ∧ minutes < 60 then
        .ok (dayOffset * minutesPerDay + hours * 60 + minutes)
      else .error (.domain .invalidServiceDate s!"time out of range: {reprText value}")
    | .error _ => .error (.domain .invalidServiceDate s!"not a HH:MM time: {reprText value}")
  | _, _ => .error (.domain .invalidServiceDate s!"not a HH:MM time: {reprText value}")

/-- Minutes from midnight to `HH:MM`, wrapping past midnight. -/
def formatHhmm (minutes : Int) : String :=
  let withinDay := (minutes % minutesPerDay).toNat
  Calendar.zeroPad 2 (withinDay / 60) ++ ":" ++ Calendar.zeroPad 2 (withinDay % 60)

def stopAt (stops : List Stop) (stationSeq : Int) : Option Stop :=
  stops.find? fun s => s.stationSeq = stationSeq

/-- When the train leaves its origin. -/
def departureMin (stops : List Stop) : Except Err Int :=
  match stops.filterMap (·.departMin) with
  | [] => .error (.domain .invalidServiceDate "a trip must depart from somewhere")
  | t :: ts => .ok (ts.foldl min t)

/-- The train calls at both ends of the leg, leaving the first and reaching the second. -/
def serves (stops : List Stop) (leg : Leg) : Bool :=
  match stopAt stops leg.originSeq, stopAt stops leg.destSeq with
  | some origin, some dest => origin.departMin.isSome && dest.arriveMin.isSome
  | _, _ => false

/-- Departure and arrival for one leg of this trip. -/
def legTimes (stops : List Stop) (leg : Leg) : Except Err LegTimes :=
  match (stopAt stops leg.originSeq).bind (·.departMin), (stopAt stops leg.destSeq).bind (·.arriveMin) with
  | some depart, some arrive => .ok ⟨depart, arrive⟩
  | _, _ =>
    .error (.domain .invalidLeg s!"this train does not serve [{leg.originSeq}, {leg.destSeq})")

/-- **The times exist exactly on a served leg.** -/
theorem legTimes_ok_iff {stops : List Stop} {leg : Leg} :
    (∃ t, legTimes stops leg = .ok t) ↔ serves stops leg = true := by
  unfold legTimes serves
  cases stopAt stops leg.originSeq with
  | none => simp
  | some origin =>
      cases stopAt stops leg.destSeq with
      | none => simp
      | some dest =>
          simp only [Option.bind_some, Bool.and_eq_true]
          cases origin.departMin <;> cases dest.arriveMin <;> simp

/-! ## Service dates -/

def parseDate (serviceDate : String) : Except Err Date :=
  match Calendar.fromIsoformat serviceDate with
  | some d => .ok d
  | none => .error (.domain .invalidServiceDate s!"not an ISO date: {reprText serviceDate}")

/-- The day number of 1 January 1970. -/
def epochOrdinal : Int := 719163

/-- The local calendar date at an instant. -/
def dateFromEpoch (epoch utcOffsetMinutes : Int) : Except Err String :=
  match Calendar.ofOrdinal (epochOrdinal + epoch / 86400).toNat with
  | none => .error (.valueError "year is out of range")
  | some _ =>
    match Calendar.ofOrdinal (epochOrdinal + (epoch + 60 * utcOffsetMinutes) / 86400).toNat with
    | none => .error (.overflowError "date value out of range")
    | some d => .ok (Calendar.isoformat d)

def daysBetween (startDate endDate : String) : Except Err Int := do
  let last ← parseDate endDate
  let first ← parseDate startDate
  return (last.ordinal : Int) - first.ordinal

def runsOn (daysOfWeek : Finset Nat) (serviceDate : String) : Except Err Bool := do
  let d ← parseDate serviceDate
  return decide (d.weekday ∈ daysOfWeek)

/-- The comprehension of `serviceDates` over the offsets left. -/
def serviceDatesFrom (daysOfWeek : Finset Nat) (first : Date) : List Nat → Except Err (List String)
  | [] => .ok []
  | offset :: offsets => do
    let d ← Calendar.addDays first offset
    let dates ← serviceDatesFrom daysOfWeek first offsets
    return if d.weekday ∈ daysOfWeek then Calendar.isoformat d :: dates else dates

/-- Every date in `[startDate, startDate + windowDays)` the pattern runs on. -/
def serviceDates (daysOfWeek : Finset Nat) (startDate : String) (windowDays : Int) : Except Err (List String) :=
  if windowDays < 0 then .error (.domain .invalidServiceDate s!"negative booking window: {windowDays}")
  else do
    let first ← parseDate startDate
    serviceDatesFrom daysOfWeek first (List.range windowDays.toNat)

/-- Bookable dates are today through the end of the booking window. -/
def withinWindow (serviceDate today : String) (windowDays : Int) : Except Err Bool := do
  let offset ← daysBetween today serviceDate
  return decide (0 ≤ offset ∧ offset < windowDays)

def tripIdFor (patternCode serviceDate : String) : String := s!"{patternCode}:{serviceDate}"

/-! ### Dates as printed

Dates are counted as ordinals; the texts come in by `fromisoformat` and go out by `isoformat`, so that a service date
the loader made is read back as the day it stands for. -/

theorem parseDate_isoformat (d : Date) : parseDate (Calendar.isoformat d) = .ok d := by
  rw [parseDate, Calendar.fromIsoformat_isoformat]

theorem runsOn_isoformat {daysOfWeek : Finset Nat} {d : Date} :
    runsOn daysOfWeek (Calendar.isoformat d) = .ok true ↔ d.weekday ∈ daysOfWeek := by
  rw [runsOn, parseDate_isoformat]
  show Except.ok (decide _) = Except.ok true ↔ _
  rw [Except.ok.injEq, decide_eq_true_eq]

theorem withinWindow_isoformat {d first : Date} {today : String} {windowDays : Int}
    (htoday : parseDate today = .ok first) : withinWindow (Calendar.isoformat d) today windowDays = .ok true ↔
      first.ordinal ≤ d.ordinal ∧ (d.ordinal : Int) < first.ordinal + windowDays := by
  have hdays : daysBetween today (Calendar.isoformat d) = .ok ((d.ordinal : Int) - first.ordinal) := by
    rw [daysBetween, parseDate_isoformat, htoday]
    rfl
  rw [withinWindow, hdays]
  show Except.ok (decide _) = Except.ok true ↔ _
  rw [Except.ok.injEq, decide_eq_true_eq]
  omega

theorem addDays_ok {d : Date} {days : Nat} (h : d.ordinal + days ≤ maxOrdinal) :
    ∃ d', Calendar.addDays d days = .ok d' ∧ d'.ordinal = d.ordinal + days := by
  have hlow := d.low
  have hin : 1 ≤ d.ordinal + days ∧ d.ordinal + days ≤ maxOrdinal := ⟨by omega, h⟩
  refine ⟨⟨d.ordinal + days, hin.1, hin.2⟩, ?_, rfl⟩
  rw [Calendar.addDays, Calendar.ofOrdinal, dif_pos hin]

theorem addDays_error {d : Date} {days : Nat} (h : maxOrdinal < d.ordinal + days) :
    Calendar.addDays d days = .error (.overflowError "date value out of range") := by
  rw [Calendar.addDays, Calendar.ofOrdinal, dif_neg (by omega)]

theorem serviceDatesFrom_ok {daysOfWeek : Finset Nat} {first : Date} {offsets : List Nat}
    (h : ∀ o ∈ offsets, first.ordinal + o ≤ maxOrdinal) :
    ∃ dates, serviceDatesFrom daysOfWeek first offsets = .ok dates ∧
      ∀ s, s ∈ dates ↔ ∃ d : Date, d.weekday ∈ daysOfWeek ∧ (∃ o ∈ offsets, d.ordinal = first.ordinal + o) ∧
        s = Calendar.isoformat d := by
  induction offsets with
  | nil => exact ⟨[], rfl, by simp⟩
  | cons o offsets ih =>
      obtain ⟨d, hd, hord⟩ := addDays_ok (h o List.mem_cons_self)
      obtain ⟨dates, hdates, hmem⟩ := ih fun b hb => h b (List.mem_cons_of_mem _ hb)
      have hsame : ∀ d' : Date, d'.ordinal = first.ordinal + o ↔ d' = d := by
        intro d'
        rw [← hord]
        cases d
        cases d'
        simp
      refine ⟨_, by rw [serviceDatesFrom, hd, hdates]; rfl, fun s => ?_⟩
      simp only [List.mem_cons, exists_eq_or_imp, hsame]
      by_cases hday : d.weekday ∈ daysOfWeek
      · rw [if_pos hday, List.mem_cons, hmem]
        constructor
        · rintro (rfl | ⟨d', hd', ho, rfl⟩)
          · exact ⟨d, hday, Or.inl rfl, rfl⟩
          · exact ⟨d', hd', Or.inr ho, rfl⟩
        · rintro ⟨d', hd', rfl | ho, rfl⟩
          · exact Or.inl rfl
          · exact Or.inr ⟨d', hd', ho, rfl⟩
      · rw [if_neg hday, hmem]
        constructor
        · rintro ⟨d', hd', ho, rfl⟩
          exact ⟨d', hd', Or.inr ho, rfl⟩
        · rintro ⟨d', hd', rfl | ho, rfl⟩
          · exact absurd hd' hday
          · exact ⟨d', hd', ho, rfl⟩

theorem serviceDatesFrom_error {daysOfWeek : Finset Nat} {first : Date} {offsets : List Nat} {o : Nat}
    (ho : o ∈ offsets) (h : maxOrdinal < first.ordinal + o) :
    ∃ e, serviceDatesFrom daysOfWeek first offsets = .error e := by
  induction offsets with
  | nil => cases ho
  | cons b offsets ih =>
      rw [serviceDatesFrom]
      by_cases hb : first.ordinal + b ≤ maxOrdinal
      · obtain ⟨d, hd, -⟩ := addDays_ok hb
        have hne : o ≠ b := by
          rintro rfl
          omega
        obtain ⟨e, he⟩ := ih ((List.mem_cons.mp ho).resolve_left hne)
        exact ⟨e, by rw [hd, he]; rfl⟩
      · exact ⟨_, by rw [addDays_error (by omega)]; rfl⟩

/-- **The dates of a window.** -/
theorem serviceDates_ok (daysOfWeek : Finset Nat) {startDate : String} {windowDays : Int} {first : Date}
    (hstart : parseDate startDate = .ok first) (hwindow : 0 ≤ windowDays)
    (hend : first.ordinal + windowDays ≤ maxOrdinal + 1) :
    ∃ dates, serviceDates daysOfWeek startDate windowDays = .ok dates ∧ ∀ s, s ∈ dates ↔
      ∃ d : Date, d.weekday ∈ daysOfWeek ∧
        (first.ordinal ≤ d.ordinal ∧ (d.ordinal : Int) < first.ordinal + windowDays) ∧ s = Calendar.isoformat d := by
  have hrange : ∀ o ∈ List.range windowDays.toNat, first.ordinal + o ≤ maxOrdinal := by
    intro o ho
    have ho := List.mem_range.mp ho
    omega
  obtain ⟨dates, hdates, hmem⟩ := serviceDatesFrom_ok hrange
  refine ⟨dates, by rw [serviceDates, if_neg (by omega), hstart]; exact hdates, fun s => ?_⟩
  rw [hmem]
  refine exists_congr fun d => and_congr_right fun _ => and_congr_left fun _ => ?_
  constructor
  · rintro ⟨o, ho, hord⟩
    have ho := List.mem_range.mp ho
    omega
  · rintro ⟨hlow, hhigh⟩
    exact ⟨d.ordinal - first.ordinal, List.mem_range.mpr (by omega), by omega⟩

/-- A window that is negative, starts on no date, or ends beyond the calendar has no dates. -/
theorem serviceDates_error (daysOfWeek : Finset Nat) {startDate : String} {windowDays : Int}
    (h : ¬ (0 ≤ windowDays ∧ ∃ first, parseDate startDate = .ok first ∧
      first.ordinal + windowDays ≤ maxOrdinal + 1)) :
    ∃ e, serviceDates daysOfWeek startDate windowDays = .error e := by
  rw [serviceDates]
  by_cases hneg : windowDays < 0
  · exact ⟨_, if_pos hneg⟩
  · rw [if_neg hneg]
    cases hstart : parseDate startDate with
    | error e => exact ⟨e, rfl⟩
    | ok first =>
        have hlow := first.low
        have hhigh := first.high
        have hbeyond : ¬ (first.ordinal + windowDays ≤ maxOrdinal + 1) := fun hend =>
          h ⟨by omega, first, hstart, hend⟩
        have ho : maxOrdinal + 1 - first.ordinal ∈ List.range windowDays.toNat := List.mem_range.mpr (by omega)
        exact serviceDatesFrom_error ho (by omega)

/-- **An id names one pattern and one date.** Printed dates have one length, so the id splits in one way. -/
theorem tripIdFor_inj {code code' : String} {d d' : Date}
    (h : tripIdFor code (Calendar.isoformat d) = tripIdFor code' (Calendar.isoformat d')) : code = code' ∧ d = d' := by
  have htext : code ++ ":" ++ Calendar.isoformat d = code' ++ ":" ++ Calendar.isoformat d' := h
  have hlist : code.toList ++ (':' :: (Calendar.isoformat d).toList) =
      code'.toList ++ (':' :: (Calendar.isoformat d').toList) := by
    have hchars := congrArg String.toList htext
    simpa using hchars
  have hlen : (':' :: (Calendar.isoformat d).toList).length = (':' :: (Calendar.isoformat d').toList).length := by
    rw [List.length_cons, List.length_cons, Calendar.length_isoformat, Calendar.length_isoformat]
  obtain ⟨hcode, hdate⟩ := List.append_inj' hlist hlen
  exact ⟨String.toList_inj.mp hcode, Calendar.isoformat_inj (String.toList_inj.mp (List.cons.inj hdate).2)⟩

end SlrBooking
