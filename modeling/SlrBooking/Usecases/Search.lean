import SlrBooking.Usecases.Support

/-!
# `Usecases.Search` — search the timetable, availability over a leg, quote a fare

The read side. Search and availability retire overdue holds in passing and commit that; a quote writes
nothing.
-/

namespace SlrBooking

open Theory

structure ClassAvailability where
  travelClass : TravelClass
  freeSeats   : Nat
  fare        : Money
deriving DecidableEq

structure TrainOption where
  tripId      : String
  trainNo     : String
  trainName   : String
  routeCode   : String
  serviceDate : String
  originSeq   : Int
  destSeq     : Int
  depart      : String
  arrive      : String
  durationMin : Int
  distanceKm  : ℚ
  classes     : List ClassAvailability
deriving DecidableEq

def stationByCode (trip : Trip) (code : String) : Option Station := trip.stations.find? fun s => s.code = code

/-- One entry for each class, in presentation order. -/
def classAvailabilities (deps : Deps) (trip : Trip) (leg : Leg) (reservable : List Seat) (busy : List String) :
    List TravelClass → Prog Ports Err (List ClassAvailability)
  | [] => return []
  | c :: rest => do
    let free := (reservable.filter fun s => s.travelClass = c && s.seatId ∉ busy).length
    let fare ← priceLeg deps trip leg c
    let others ← classAvailabilities deps trip leg reservable busy rest
    return ⟨c, free, fare⟩ :: others

/-- The option one train offers, if it serves the journey. -/
def trainOption (deps : Deps) (trip : Trip) (originCode destCode : String) :
    Prog Ports Err (Option TrainOption) := do
  match stationByCode trip originCode, stationByCode trip destCode with
  | some origin, some dest =>
    if origin.seq ≥ dest.seq then return none
    else
      let leg ← Prog.ofExcept (Leg.make origin.seq dest.seq)
      if !serves trip.stops leg then return none
      else
        let times ← Prog.ofExcept (legTimes trip.stops leg)
        let active ← Bookings.activeHolds trip.tripId
        let busy := (active.filter fun h => h.leg.overlaps leg).map (·.seatId)
        let reservable := trip.seats.filter fun s => s.coachType = .reserved
        let present := classOrder.filter fun c => c ∈ reservable.map (·.travelClass)
        let classes ← classAvailabilities deps trip leg reservable busy present
        let distanceKm ← Prog.ofExcept (legDistanceKm trip leg)
        return some
          { tripId := trip.tripId
            trainNo := trip.trainNo
            trainName := trip.trainName
            routeCode := trip.routeCode
            serviceDate := trip.serviceDate
            originSeq := origin.seq
            destSeq := dest.seq
            depart := formatHhmm times.departMin
            arrive := formatHhmm times.arriveMin
            durationMin := times.durationMin
            distanceKm := distanceKm
            classes := classes }
  | _, _ => return none

def trainOptions (deps : Deps) (originCode destCode : String) : List Trip → Prog Ports Err (List TrainOption)
  | [] => return []
  | trip :: rest => do
    let option ← trainOption deps trip originCode destCode
    let others ← trainOptions deps originCode destCode rest
    return option.toList ++ others

/-- The checks a search makes before it opens a transaction. -/
def checkSearch (deps : Deps) (originCode destCode serviceDate : String) : Except Err Unit := do
  let _ ← parseDate serviceDate
  if originCode = destCode then
    throw (.domain .invalidLeg "origin and destination are the same station")
  let today ← dateFromEpoch deps.now (← deps.getInt utcOffsetMinutes)
  let window ← deps.getInt bookingWindowDays
  if !(← withinWindow serviceDate today window) then
    throw (.domain .invalidServiceDate
      s!"{serviceDate} is outside the booking window ({today} to {window} days ahead)")

/-- Find the trains that serve a journey on a date. -/
def searchTrains (deps : Deps) (originCode destCode serviceDate : String) : Prog Ports Err (List TrainOption) := do
  Prog.ofExcept (checkSearch deps originCode destCode serviceDate)
  let _ ← Bookings.expireDue deps.now
  let trips ← Trips.findByDate serviceDate
  let options ← trainOptions deps originCode destCode trips
  commit
  return options

/-! ## Availability and quotes -/

structure SeatAvailability where
  seatId      : String
  coach       : String
  travelClass : TravelClass
  available   : Bool
deriving DecidableEq

structure LegAvailability where
  tripId    : String
  leg       : Leg
  seats     : List SeatAvailability
  freeCount : Nat
deriving DecidableEq

/-- Per-seat availability over a requested leg. -/
def legAvailability (deps : Deps) (tripId : String) (leg : Leg) : Prog Ports Err LegAvailability := do
  let trip ← Trips.get tripId
  Prog.ofExcept (validateLeg trip leg)
  let _ ← Bookings.expireDue deps.now
  let active ← Bookings.activeHolds tripId
  let seats := trip.seats.map fun s =>
    { seatId := s.seatId
      coach := s.coach
      travelClass := s.travelClass
      available := !(active.any fun h => h.seatId = s.seatId && h.leg.overlaps leg) : SeatAvailability }
  commit
  return ⟨tripId, leg, seats, (seats.filter (·.available)).length⟩

/-- Price one leg. -/
def quoteFare (deps : Deps) (tripId : String) (leg : Leg) (travelClass : TravelClass) : Prog Ports Err Money := do
  let trip ← Trips.get tripId
  Prog.ofExcept (validateLeg trip leg)
  priceLeg deps trip leg travelClass

end SlrBooking
