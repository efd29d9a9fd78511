import SlrBooking.Ports

/-!
# `App.TimetableConfig` — load the timetable config and materialize it into dated trips

`TimetableFile` is the config file after `json.loads`, a layout's `rows` and `exit_rows` after `int` and its
`columns` after `str`. A file of another shape has no counterpart here.

## Contents
- `ServicePattern`, `Timetable`, `Timetable.materialize`, `Timetable.tripsForWindow`.
- `columnLabels`, `buildCoach`, `loadTimetable`.
- `Coach.letters`, the labels of a coach's row; `buildCoach_ok`. `loadTimetable_seats`: a loaded pattern has the
  seats of its coaches.
-/

namespace SlrBooking

open Theory

/-- A recurring template: one train, the days it runs, where it calls and what it is made of. -/
structure ServicePattern where
  code       : String
  trainNo    : String
  name       : String
  daysOfWeek : Finset Nat
  stops      : List Stop
  coaches    : List Coach
  seats      : List Seat

structure Timetable where
  routeCode : String
  stations  : List Station
  patterns  : List ServicePattern

namespace Timetable

variable (tt : Timetable)

def materialize (pattern : ServicePattern) (serviceDate : String) : Trip :=
  { tripId := tripIdFor pattern.code serviceDate
    routeCode := tt.routeCode
    serviceDate := serviceDate
    trainNo := pattern.trainNo
    trainName := pattern.name
    stations := tt.stations
    stops := pattern.stops
    coaches := pattern.coaches
    seats := pattern.seats }

/-- The dated trips of the patterns left. -/
def tripsFor (startDate : String) (windowDays : Int) : List ServicePattern → Except Err (List Trip)
  | [] => .ok []
  | pattern :: patterns => do
    let dates ← serviceDates pattern.daysOfWeek startDate windowDays
    let trips ← tripsFor startDate windowDays patterns
    return dates.map (tt.materialize pattern) ++ trips

/-- Every dated trip in `[startDate, startDate + windowDays)`. -/
def tripsForWindow (startDate : String) (windowDays : Int) : Except Err (List Trip) :=
  tt.tripsFor startDate windowDays tt.patterns

end Timetable

/-! ## Coaches -/

def columnLetters : List String := ["A", "B", "C", "D", "E", "F", "G", "H"]

/-- `xs[:stop]`. -/
def sliceTo (xs : List α) (stop : Int) : List α :=
  if stop < 0 then xs.take (xs.length + stop).toNat else xs.take stop.toNat

/-- The sizes of the blocks left. -/
def blockWidths : List String → Except Err (List Int)
  | [] => .ok []
  | part :: parts => do return (← Numerals.int part) :: (← blockWidths parts)

/-- `"3-3"` to A to F. The dash is the aisle; the map draws it. -/
def columnLabels (columns : String) : Except Err (List String) := do
  let perBlock ← blockWidths (Numerals.splitOn '-' columns)
  let total := perBlock.sum
  if columnLetters.length < total then
    .error (.valueError s!"coach layout {reprText columns} is wider than {columnLetters.length} seats")
  else return sliceTo columnLetters total

/-- One entry of `coach_layouts`. -/
structure Layout where
  coachType   : String
  travelClass : String
  rows        : Int
  columns     : String
  exitRows    : List Int

def CoachType.ofValue : String → Except Err CoachType
  | "RESERVED" => .ok .reserved
  | "UNRESERVED" => .ok .unreserved
  | value => .error (.valueError s!"{reprText value} is not a valid CoachType")

def TravelClass.ofValue : String → Except Err TravelClass
  | "FIRST" => .ok .first
  | "SECOND" => .ok .second
  | "THIRD" => .ok .third
  | value => .error (.valueError s!"{reprText value} is not a valid TravelClass")

/-- `range(1, rows + 1)`. -/
def rowNumbers (rows : Int) : List Int := (List.range rows.toNat).map fun i : Nat => (i : Int) + 1

/-- One seat of the coach: `letter` is the label at `index` of a row of `width` seats. -/
def Coach.seat (coach : Coach) (width : Nat) (row : Int) (letter : String) (index : Nat) : Seat :=
  { seatId := s!"{coach.code}{row}{letter}"
    coach := coach.code
    coachType := coach.coachType
    travelClass := coach.travelClass
    number := (row - 1) * width + index + 1
    row := row
    column := letter }

/-- One row of the coach, where a row has these labels. -/
def Coach.rowSeats (coach : Coach) (letters : List String) (row : Int) : List Seat :=
  letters.zipIdx.map fun label => coach.seat letters.length row label.1 label.2

/-- The seats of the coach, row by row. -/
def Coach.seats (coach : Coach) (letters : List String) : List Seat :=
  (rowNumbers coach.rows).flatMap (coach.rowSeats letters)

/-- One coach and its seats from a layout. -/
def buildCoach (code : String) (layout : Layout) : Except Err (Coach × List Seat) := do
  let coach : Coach :=
    { code := code
      coachType := ← CoachType.ofValue layout.coachType
      travelClass := ← TravelClass.ofValue layout.travelClass
      rows := layout.rows
      columns := layout.columns
      exitRows := layout.exitRows }
  let letters ← columnLabels coach.columns
  return (coach, coach.seats letters)

/-! ## The file -/

structure StationEntry where
  code : String
  name : String
  km   : ℚ

structure CoachSpec where
  code   : String
  layout : String

structure StopEntry where
  station : String
  arrive  : Option String
  depart  : Option String

structure PatternEntry where
  code       : String
  trainNo    : String
  name       : String
  daysOfWeek : List String
  coaches    : List CoachSpec
  stops      : List StopEntry

structure TimetableFile where
  routeCode       : String
  stations        : List StationEntry
  coachLayouts    : List (String × Layout)
  servicePatterns : List PatternEntry

/-- `seq_by_code`: of two stations with one code the later one counts. -/
def seqByCode (stations : List Station) (code : String) : Option Int :=
  (stations.reverse.find? fun s => s.code = code).map (·.seq)

/-- `parse_hhmm(text) if text else None`. -/
def optionalTime : Option String → Except Err (Option Int)
  | none => .ok none
  | some text => if text = "" then .ok none else do return some (← parseHhmm text)

/-- The loop of `stops`. -/
def stopsInFileOrder (stations : List Station) : List StopEntry → Except Err (List Stop)
  | [] => .ok []
  | entry :: entries =>
    match seqByCode stations entry.station with
    | none => .error (.valueError s!"stop at unknown station {reprText entry.station}")
    | some seq => do
      let stop ← Stop.make seq (← optionalTime entry.arrive) (← optionalTime entry.depart)
      return stop :: (← stopsInFileOrder stations entries)

/-- The stops in the order of the line. -/
def loadStops (stations : List Station) (entries : List StopEntry) : Except Err (List Stop) := do
  return (← stopsInFileOrder stations entries).insertionSort fun a b => a.stationSeq ≤ b.stationSeq

/-- The coaches of a pattern and the seats of all of them. -/
def loadCoaches (layouts : List (String × Layout)) : List CoachSpec → Except Err (List Coach × List Seat)
  | [] => .ok ([], [])
  | spec :: specs =>
    match layouts.lookup spec.layout with
    | none => .error (.keyError spec.layout)
    | some layout => do
      let (coach, coachSeats) ← buildCoach spec.code layout
      let (coaches, seats) ← loadCoaches layouts specs
      return (coach :: coaches, coachSeats ++ seats)

def loadPattern (layouts : List (String × Layout)) (stations : List Station) (entry : PatternEntry) :
    Except Err ServicePattern := do
  let (coaches, seats) ← loadCoaches layouts entry.coaches
  let daysOfWeek ← parseDays entry.daysOfWeek
  let stops ← loadStops stations entry.stops
  return { code := entry.code, trainNo := entry.trainNo, name := entry.name, daysOfWeek := daysOfWeek
           stops := stops, coaches := coaches, seats := seats }

def loadPatterns (layouts : List (String × Layout)) (stations : List Station) :
    List PatternEntry → Except Err (List ServicePattern)
  | [] => .ok []
  | entry :: entries => do return (← loadPattern layouts stations entry) :: (← loadPatterns layouts stations entries)

/-- The stations in the order of the file, numbered from 0. -/
def loadStations (entries : List StationEntry) : List Station :=
  entries.zipIdx.map fun entry => ⟨entry.1.code, entry.1.name, entry.2, entry.1.km⟩

def loadTimetable (file : TimetableFile) : Except Err Timetable := do
  let stations := loadStations file.stations
  return { routeCode := file.routeCode, stations := stations
           patterns := ← loadPatterns file.coachLayouts stations file.servicePatterns }

/-! ## What is loaded -/

/-- The labels of a row of the coach. -/
def Coach.letters (coach : Coach) : List String := (columnLabels coach.columns).toOption.getD []

theorem columnLabels_prefix {columns : String} {letters : List String} (h : columnLabels columns = .ok letters) :
    letters <+: columnLetters := by
  obtain ⟨perBlock, -, h⟩ := bind_ok h
  dsimp only at h
  split at h
  · cases h
  · obtain rfl := Except.ok.inj h
    unfold sliceTo
    split
    · apply List.take_prefix
    · apply List.take_prefix

theorem Coach.letters_prefix (coach : Coach) : coach.letters <+: columnLetters := by
  unfold Coach.letters
  cases h : columnLabels coach.columns with
  | error e => exact List.nil_prefix
  | ok letters => exact columnLabels_prefix h

/-- **What `buildCoach` builds.** -/
theorem buildCoach_ok {code : String} {layout : Layout} {coach : Coach} {seats : List Seat}
    (h : buildCoach code layout = .ok (coach, seats)) :
    (coach.code = code ∧ coach.rows = layout.rows ∧ coach.columns = layout.columns) ∧
      columnLabels coach.columns = .ok coach.letters ∧ seats = coach.seats coach.letters := by
  obtain ⟨coachType, -, h⟩ := bind_ok h
  obtain ⟨travelClass, -, h⟩ := bind_ok h
  obtain ⟨letters, hlabels, h⟩ := bind_ok h
  cases h
  have hletters : Coach.letters ⟨code, coachType, travelClass, layout.rows, layout.columns, layout.exitRows⟩ =
      letters := by
    unfold Coach.letters
    rw [hlabels]
    rfl
  rw [hletters]
  exact ⟨⟨rfl, rfl, rfl⟩, hlabels, rfl⟩

theorem loadCoaches_seats {layouts : List (String × Layout)} {specs : List CoachSpec} {coaches : List Coach}
    {seats : List Seat} (h : loadCoaches layouts specs = .ok (coaches, seats)) :
    seats = coaches.flatMap fun coach => coach.seats coach.letters := by
  induction specs generalizing coaches seats with
  | nil =>
      cases h
      rfl
  | cons spec specs ih =>
      rw [loadCoaches] at h
      split at h
      · cases h
      · obtain ⟨built, hbuilt, h⟩ := bind_ok h
        obtain ⟨rest, hrest, h⟩ := bind_ok h
        cases h
        rw [List.flatMap_cons, ← (buildCoach_ok hbuilt).2.2, ← ih hrest]

theorem loadPattern_seats {layouts : List (String × Layout)} {stations : List Station} {entry : PatternEntry}
    {p : ServicePattern} (h : loadPattern layouts stations entry = .ok p) :
    p.seats = p.coaches.flatMap fun coach => coach.seats coach.letters := by
  obtain ⟨loaded, hcoaches, h⟩ := bind_ok h
  obtain ⟨days, -, h⟩ := bind_ok h
  obtain ⟨stops, -, h⟩ := bind_ok h
  cases h
  exact loadCoaches_seats hcoaches

theorem loadPatterns_mem {layouts : List (String × Layout)} {stations : List Station} {entries : List PatternEntry}
    {patterns : List ServicePattern} (h : loadPatterns layouts stations entries = .ok patterns) {p : ServicePattern}
    (hp : p ∈ patterns) : ∃ entry ∈ entries, loadPattern layouts stations entry = .ok p := by
  induction entries generalizing patterns with
  | nil =>
      cases h
      cases hp
  | cons entry entries ih =>
      obtain ⟨first, hfirst, h⟩ := bind_ok h
      obtain ⟨rest, hrest, h⟩ := bind_ok h
      cases h
      rcases List.mem_cons.mp hp with rfl | hp
      · exact ⟨entry, List.mem_cons_self, hfirst⟩
      · obtain ⟨entry', hentry', hload⟩ := ih hrest hp
        exact ⟨entry', List.mem_cons_of_mem _ hentry', hload⟩

/-- **A loaded pattern has the seats of its coaches**, coach after coach. -/
theorem loadTimetable_seats {file : TimetableFile} {tt : Timetable} (h : loadTimetable file = .ok tt)
    {p : ServicePattern} (hp : p ∈ tt.patterns) :
    p.seats = p.coaches.flatMap fun coach => coach.seats coach.letters := by
  obtain ⟨patterns, hpatterns, h⟩ := bind_ok h
  cases h
  obtain ⟨entry, -, hload⟩ := loadPatterns_mem hpatterns hp
  exact loadPattern_seats hload

end SlrBooking
