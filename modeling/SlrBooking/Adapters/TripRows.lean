import SlrBooking.Theory.Relational
import SlrBooking.App.Seed

/-!
# `Adapters.TripRows` — the trip table, row by row

A trip is stored as one row: its texts, the departure it is sorted by, and its stations, stops, coaches and seats as
lists of JSON objects. Enumerations are stored by value. Reading a row builds the records again, so every check of a
constructor is made again. The departure column is computed once, when the row is inserted, and a day's trips are
ordered by it; the store in memory computes departures at every search.

## Contents
- `TripRow`, `tripValues`, `toTrip`; `toTrip_tripValues`: the round trip.
- `SqlTrips`: `get`, `findByDate`, `upsert`; `Timetable.seedRows`: the seeder on rows.
- `Stores`: the rows are those of the trips. `seeded_stores`: any seed runs keep it. `trip_rows_read_back`.
-/

namespace SlrBooking

open Theory Rows

/-! ## Objects -/

structure StopFields where
  stationSeq : Int
  arriveMin  : Option Int
  departMin  : Option Int
deriving DecidableEq

structure CoachFields where
  code        : String
  coachType   : String
  travelClass : String
  rows        : Int
  columns     : String
  exitRows    : List Int
deriving DecidableEq

structure SeatFields where
  seatId      : String
  coach       : String
  coachType   : String
  travelClass : String
  number      : Int
  row         : Int
  column      : String
deriving DecidableEq

def CoachType.value : CoachType → String
  | .reserved => "RESERVED"
  | .unreserved => "UNRESERVED"

def Stop.fields (s : Stop) : StopFields := ⟨s.stationSeq, s.arriveMin, s.departMin⟩

def Coach.fields (c : Coach) : CoachFields :=
  ⟨c.code, c.coachType.value, c.travelClass.value, c.rows, c.columns, c.exitRows⟩

def Seat.fields (s : Seat) : SeatFields :=
  ⟨s.seatId, s.coach, s.coachType.value, s.travelClass.value, s.number, s.row, s.column⟩

/-- `Stop(**s)`. -/
def StopFields.read (s : StopFields) : Except Err Stop := Stop.make s.stationSeq s.arriveMin s.departMin

def CoachFields.read (c : CoachFields) : Except Err Coach := do
  let coachType ← CoachType.ofValue c.coachType
  let travelClass ← TravelClass.ofValue c.travelClass
  return ⟨c.code, coachType, travelClass, c.rows, c.columns, c.exitRows⟩

def SeatFields.read (s : SeatFields) : Except Err Seat := do
  let coachType ← CoachType.ofValue s.coachType
  let travelClass ← TravelClass.ofValue s.travelClass
  return ⟨s.seatId, s.coach, coachType, travelClass, s.number, s.row, s.column⟩

theorem ofValue_coachType (t : CoachType) : CoachType.ofValue t.value = .ok t := by cases t <;> rfl

theorem ofValue_travelClass (c : TravelClass) : TravelClass.ofValue c.value = .ok c := by cases c <;> rfl

/-- The constructor's checks pass on a stop that has passed them. -/
theorem Stop.read_fields (s : Stop) : s.fields.read = .ok s := by
  obtain ⟨seq, arrive, depart, hseq, htime⟩ := s
  show Stop.make seq arrive depart = _
  unfold Stop.make
  rw [dif_neg hseq, dif_neg (not_and_or.mpr htime)]

theorem Coach.read_fields (c : Coach) : c.fields.read = .ok c := by
  unfold CoachFields.read Coach.fields
  rw [ofValue_coachType, ofValue_travelClass]
  rfl

theorem Seat.read_fields (s : Seat) : s.fields.read = .ok s := by
  unfold SeatFields.read Seat.fields
  rw [ofValue_coachType, ofValue_travelClass]
  rfl

/-! ## Rows -/

/-- A row of the table `trip`. A station has nothing to check, so its object is the record. -/
structure TripRow where
  tripId      : String
  routeCode   : String
  serviceDate : String
  trainNo     : String
  trainName   : String
  departsMin  : Int
  stations    : List Station
  stops       : List StopFields
  coaches     : List CoachFields
  seats       : List SeatFields
deriving DecidableEq

/-- `_trip_values`. -/
def tripValues (trip : Trip) : Except Err TripRow := do
  let departsMin ← departureMin trip.stops
  return { tripId := trip.tripId
           routeCode := trip.routeCode
           serviceDate := trip.serviceDate
           trainNo := trip.trainNo
           trainName := trip.trainName
           departsMin := departsMin
           stations := trip.stations
           stops := trip.stops.map Stop.fields
           coaches := trip.coaches.map Coach.fields
           seats := trip.seats.map Seat.fields }

/-- `_to_trip`. -/
def toTrip (row : TripRow) : Except Err Trip := do
  let stops ← row.stops.mapM StopFields.read
  let coaches ← row.coaches.mapM CoachFields.read
  let seats ← row.seats.mapM SeatFields.read
  return { tripId := row.tripId
           routeCode := row.routeCode
           serviceDate := row.serviceDate
           trainNo := row.trainNo
           trainName := row.trainName
           stations := row.stations
           stops := stops
           coaches := coaches
           seats := seats }

/-- Objects read back one by one. -/
theorem mapM_read {α β : Type} {f : β → Except Err α} {g : α → β} (h : ∀ a, f (g a) = .ok a) (as : List α) :
    (as.map g).mapM f = .ok as := by
  induction as with
  | nil => rfl
  | cons a as ih =>
      rw [List.map_cons, List.mapM_cons, h, ih]
      rfl

section RoundTrip

variable {trip : Trip} {row : TripRow}

/-- A row has the texts of its trip, and its departure. -/
theorem tripValues_ok (h : tripValues trip = .ok row) : row.tripId = trip.tripId ∧
    row.serviceDate = trip.serviceDate ∧ departureMin trip.stops = .ok row.departsMin := by
  unfold tripValues at h
  cases hm : departureMin trip.stops with
  | error e =>
      rw [hm] at h
      cases h
  | ok m =>
      rw [hm] at h
      obtain rfl := Except.ok.inj h
      exact ⟨rfl, rfl, rfl⟩

/-- **The row round trip.** -/
theorem toTrip_tripValues (h : tripValues trip = .ok row) : toTrip row = .ok trip := by
  unfold tripValues at h
  cases hm : departureMin trip.stops with
  | error e =>
      rw [hm] at h
      cases h
  | ok m =>
      rw [hm] at h
      obtain rfl := Except.ok.inj h
      unfold toTrip
      dsimp only
      rw [mapM_read Stop.read_fields, mapM_read Coach.read_fields, mapM_read Seat.read_fields]
      rfl

end RoundTrip

/-! ## The repository -/

namespace SqlTrips

def get (rows : List TripRow) (tripId : String) : Except Err Trip :=
  match lookup TripRow.tripId tripId rows with
  | none => .error (.keyError tripId)
  | some row => toTrip row

/-- `ORDER BY departs_min, trip_id`. -/
def before (a b : TripRow) : Bool := a.departsMin < b.departsMin || (a.departsMin = b.departsMin && a.tripId ≤ b.tripId)

def insertRow (a : TripRow) : List TripRow → List TripRow
  | [] => [a]
  | b :: rest => if before a b then a :: b :: rest else b :: insertRow a rest

def findByDate (rows : List TripRow) (serviceDate : String) : Except Err (List Trip) :=
  ((rows.filter fun row => row.serviceDate = serviceDate).foldr insertRow []).mapM toTrip

/-- `upsert_trip`: whether the row was inserted, and the table. -/
def upsert (rows : List TripRow) (trip : Trip) : Except Err (Bool × List TripRow) :=
  match lookup TripRow.tripId trip.tripId rows with
  | some _ => .ok (false, rows)
  | none => do
    let row ← tripValues trip
    return (true, rows ++ [row])

def upsertAll : List Trip → List TripRow → Except Err (Nat × List TripRow)
  | [], rows => .ok (0, rows)
  | trip :: fresh, rows => do
    let (inserted, rows) ← upsert rows trip
    let (n, rows) ← upsertAll fresh rows
    return ((if inserted then 1 else 0) + n, rows)

end SqlTrips

namespace Timetable

variable (tt : Timetable)

def seedRows (run : SeedRun) (rows : List TripRow) : Except Err (Nat × List TripRow) := do
  let fresh ← tt.tripsForWindow run.today run.bookingWindowDays
  SqlTrips.upsertAll fresh rows

/-- The table after the transaction of one seed run. -/
def seededRows (rows : List TripRow) (run : SeedRun) : List TripRow :=
  match tt.seedRows run rows with
  | .ok (_, rows) => rows
  | .error _ => rows

def seedAllRows (runs : List SeedRun) : List TripRow := runs.foldl tt.seededRows []

end Timetable

/-! ## Rows and trips -/

/-- The rows are those of the trips, in the same order. -/
def Stores : List TripRow → List Trip → Prop := List.Forall₂ fun row trip => tripValues trip = .ok row

section Stores

variable {rows : List TripRow} {trips : List Trip}

theorem Stores.lookup_cases (h : Stores rows trips) (id : String) :
    (lookup TripRow.tripId id rows = none ∧ lookup Trip.tripId id trips = none) ∨
      ∃ row trip, lookup TripRow.tripId id rows = some row ∧ lookup Trip.tripId id trips = some trip ∧
        tripValues trip = .ok row := by
  induction h with
  | nil => exact Or.inl ⟨rfl, rfl⟩
  | @cons row trip rows trips hrow hrest ih =>
      have hid := (tripValues_ok hrow).1
      by_cases hfound : trip.tripId = id
      · exact Or.inr ⟨row, trip, by simp [lookup, hid, hfound], by simp [lookup, hfound], hrow⟩
      · have hrows : lookup TripRow.tripId id (row :: rows) = lookup TripRow.tripId id rows := by
          simp [lookup, hid, hfound]
        have htrips : lookup Trip.tripId id (trip :: trips) = lookup Trip.tripId id trips := by
          simp [lookup, hfound]
        rw [hrows, htrips]
        exact ih

/-- **Reading a trip.** -/
theorem Stores.get (h : Stores rows trips) (id : String) : SqlTrips.get rows id = MemoryRepo.getTrip trips id := by
  unfold SqlTrips.get MemoryRepo.getTrip
  rcases h.lookup_cases id with ⟨hrow, htrip⟩ | ⟨row, trip, hrow, htrip, hvalues⟩
  · rw [hrow, htrip]
  · rw [hrow, htrip]
    exact toTrip_tripValues hvalues

/-- A row, and the departure and trip it stands for. -/
def Departs (row : TripRow) (d : Int × Trip) : Prop := tripValues d.2 = .ok row ∧ row.departsMin = d.1

theorem Departs.before {a b : TripRow} {x y : Int × Trip} (hx : Departs a x) (hy : Departs b y) :
    SqlTrips.before a b = departsBefore x y := by
  unfold SqlTrips.before departsBefore
  rw [hx.2, hy.2, (tripValues_ok hx.1).1, (tripValues_ok hy.1).1]

/-! ### The order of departures -/

theorem departs_insert {a : TripRow} {x : Int × Trip} (hx : Departs a x) {rows : List TripRow} {ds : List (Int × Trip)}
    (h : List.Forall₂ Departs rows ds) : List.Forall₂ Departs (SqlTrips.insertRow a rows) (insertDeparture x ds) := by
  induction h with
  | nil => exact .cons hx .nil
  | @cons b y rows ds hy hrest ih =>
      unfold SqlTrips.insertRow insertDeparture
      rw [hx.before hy]
      split
      · exact .cons hx (.cons hy hrest)
      · exact .cons hy ih

theorem departs_sort {rows : List TripRow} {ds : List (Int × Trip)} (h : List.Forall₂ Departs rows ds) :
    List.Forall₂ Departs (rows.foldr SqlTrips.insertRow []) (ds.foldr insertDeparture []) := by
  induction h with
  | nil => exact .nil
  | cons hx _ ih => exact departs_insert hx ih

theorem departs_read {rows : List TripRow} {ds : List (Int × Trip)} (h : List.Forall₂ Departs rows ds) :
    rows.mapM toTrip = .ok (ds.map (·.2)) := by
  induction h with
  | nil => rfl
  | cons hx _ ih =>
      rw [List.mapM_cons, toTrip_tripValues hx.1, ih]
      rfl

/-- The rows of a day, and the departures the store in memory computes. -/
theorem Stores.departures (h : Stores rows trips) (date : String) : ∃ ds, MemoryRepo.departures date trips = .ok ds ∧
    List.Forall₂ Departs (rows.filter fun row => row.serviceDate = date) ds := by
  induction h with
  | nil => exact ⟨[], rfl, .nil⟩
  | @cons row trip rows trips hrow hrest ih =>
      obtain ⟨ds, hds, hdeparts⟩ := ih
      obtain ⟨-, hdate, hmin⟩ := tripValues_ok hrow
      unfold MemoryRepo.departures
      by_cases hday : trip.serviceDate = date
      · refine ⟨(row.departsMin, trip) :: ds, ?_, ?_⟩
        · rw [if_pos hday, hmin, hds]
          rfl
        · rw [List.filter_cons_of_pos (by simp [hdate, hday])]
          exact .cons ⟨hrow, rfl⟩ hdeparts
      · refine ⟨ds, ?_, ?_⟩
        · rw [if_neg hday, hds]
        · rw [List.filter_cons_of_neg (by simp [hdate, hday])]
          exact hdeparts

/-- **A day's trips**, by the stored departure and by the computed one. -/
theorem Stores.findByDate (h : Stores rows trips) (date : String) :
    SqlTrips.findByDate rows date = MemoryRepo.findByDate trips date := by
  obtain ⟨ds, hds, hdeparts⟩ := h.departures date
  unfold SqlTrips.findByDate MemoryRepo.findByDate
  rw [departs_read (departs_sort hdeparts), hds]
  rfl

/-- The same exception, or the same count and rows of the same trips. -/
abbrev SeededAlike {ν : Type} : Except Err (ν × List TripRow) → Except Err (ν × List Trip) → Prop :=
  Alike (fun a b => a.1 = b.1 ∧ Stores a.2 b.2) Eq

/-! ### Seeding -/

/-- **Inserting a trip.** -/
theorem Stores.upsert (h : Stores rows trips) (trip : Trip) :
    SeededAlike (SqlTrips.upsert rows trip) (upsertTrip trips trip) := by
  unfold SqlTrips.upsert upsertTrip
  rcases h.lookup_cases trip.tripId with ⟨hrow, htrip⟩ | ⟨row, stored, hrow, htrip, -⟩
  · rw [hrow, htrip]
    dsimp only
    -- the one column that is computed is all that can fail
    cases hm : departureMin trip.stops with
    | error e =>
        have hvalues : tripValues trip = .error e := by
          unfold tripValues
          rw [hm]
          rfl
        rw [hvalues]
        exact rfl
    | ok m =>
        obtain ⟨row, hvalues⟩ : ∃ row, tripValues trip = .ok row := by
          unfold tripValues
          rw [hm]
          exact ⟨_, rfl⟩
        rw [hvalues]
        exact ⟨rfl, List.rel_append h (.cons hvalues .nil)⟩
  · rw [hrow, htrip]
    exact ⟨rfl, h⟩

theorem Stores.upsertAll (h : Stores rows trips) (fresh : List Trip) :
    SeededAlike (SqlTrips.upsertAll fresh rows) (upsertAll fresh trips) := by
  induction fresh generalizing rows trips with
  | nil => exact ⟨rfl, h⟩
  | cons trip fresh ih =>
      refine (h.upsert trip).bind fun a b hab => (ih hab.2).bind fun n m hnm => ⟨?_, hnm.2⟩
      show _ + n.1 = _ + m.1
      rw [hab.1, hnm.1]

theorem Stores.seed (h : Stores rows trips) (tt : Timetable) (run : SeedRun) :
    SeededAlike (tt.seedRows run rows) (tt.seed run trips) := by
  unfold Timetable.seedRows Timetable.seed
  cases tt.tripsForWindow run.today run.bookingWindowDays with
  | error e => exact rfl
  | ok fresh => exact h.upsertAll fresh

/-- The same count or exception. -/
theorem SeededAlike.count {ν : Type} {x : Except Err (ν × List TripRow)} {y : Except Err (ν × List Trip)}
    (h : SeededAlike x y) : x.map Prod.fst = y.map Prod.fst := by
  cases x with
  | ok a =>
      cases y with
      | ok b => exact congrArg Except.ok h.1
      | error e' => exact h.elim
  | error e =>
      cases y with
      | ok b => exact h.elim
      | error e' => exact congrArg Except.error h

/-- One seed run. A run that raises leaves both tables as they were. -/
theorem Stores.seeded (h : Stores rows trips) (tt : Timetable) (run : SeedRun) :
    Stores (tt.seededRows rows run) (tt.seeded trips run) := by
  have hseed := h.seed tt run
  unfold Timetable.seededRows Timetable.seeded
  cases hrows : tt.seedRows run rows with
  | error e =>
      cases htrips : tt.seed run trips with
      | error e' => exact h
      | ok out =>
          rw [hrows, htrips] at hseed
          exact hseed.elim
  | ok out =>
      cases htrips : tt.seed run trips with
      | error e' =>
          rw [hrows, htrips] at hseed
          exact hseed.elim
      | ok out' =>
          rw [hrows, htrips] at hseed
          exact hseed.2

end Stores

/-- **Any seed runs.** -/
theorem seeded_stores (tt : Timetable) (runs : List SeedRun) : Stores (tt.seedAllRows runs) (tt.seedAll runs) := by
  unfold Timetable.seedAllRows Timetable.seedAll
  suffices h : ∀ rows trips, Stores rows trips →
      Stores (runs.foldl tt.seededRows rows) (runs.foldl tt.seeded trips) from h [] [] .nil
  induction runs with
  | nil => exact fun rows trips h => h
  | cons run runs ih => exact fun rows trips h => ih _ _ (h.seeded tt run)

/-- **The trip table reads back.** After any seed runs of any timetable, failed ones included, the rows answer every
    question for a trip and for a day's trips as the trips themselves in memory do, in the same order, and the next
    run counts and fails alike. -/
theorem trip_rows_read_back (tt : Timetable) (runs : List SeedRun) :
    (∀ id, SqlTrips.get (tt.seedAllRows runs) id = MemoryRepo.getTrip (tt.seedAll runs) id) ∧
    (∀ date, SqlTrips.findByDate (tt.seedAllRows runs) date = MemoryRepo.findByDate (tt.seedAll runs) date) ∧
    ∀ run, (tt.seedRows run (tt.seedAllRows runs)).map Prod.fst = (tt.seed run (tt.seedAll runs)).map Prod.fst := by
  have h := seeded_stores tt runs
  exact ⟨h.get, h.findByDate, fun run => (h.seed tt run).count⟩

end SlrBooking
