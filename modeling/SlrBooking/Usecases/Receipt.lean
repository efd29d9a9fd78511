import SlrBooking.Ports
import SlrBooking.Domain.Packing

/-!
# `Usecases.Receipt` — the ticket receipt, one shape for both channels

## Contents
- `Receipt`, `StandingAdvice`, `buildReceipt`, `receiptFor`.
- `buildReceipt_ok_iff`: a receipt is assembled exactly when the train serves the leg, both ends are
  stations of the line and the standing advice resolves. `buildReceipt_reissue`: the time of issue is only
  printed.
-/

namespace SlrBooking

/-- The prediction printed on a standing ticket: a seat frees at this station. -/
structure StandingAdvice where
  afterSeq     : Int
  afterStation : String
  seatLabel    : String
deriving DecidableEq

structure Receipt where
  reference     : String
  qrPayload     : String
  passengerId   : String
  passengerName : String
  bookingId     : String
  tripId        : String
  routeCode     : String
  trainNo       : String
  trainName     : String
  serviceDate   : String
  originCode    : String
  originName    : String
  originSeq     : Int
  destCode      : String
  destName      : String
  destSeq       : Int
  depart        : String
  arrive        : String
  durationMin   : Int
  travelClass   : TravelClass
  fare          : Money
  status        : BookingStatus
  issuedAt      : Int
  coach         : Option String
  seatLabel     : Option String
  standing      : Option StandingAdvice
deriving DecidableEq

def seatLabel (seat : Seat) : String := s!"{seat.row}{seat.column}"

/-- `next(s for s in trip.stations if s.seq == seq)`. -/
def stationAt (trip : Trip) (seq : Int) : Except Err Station :=
  match trip.stations.find? fun s => s.seq = seq with
  | some s => .ok s
  | none => .error .stopIteration

/-- The advice of a standing ticket: `offer` points into `pool`. -/
def standingAdvice (trip : Trip) (pool : List Seat) : Option SeatOffer → Except Err (Option StandingAdvice)
  | none => .ok none
  | some offer => do
    let station ← stationAt trip offer.boardSeq
    match pool[offer.seatIndex]? with
    | some seat => return some ⟨offer.boardSeq, station.name, seatLabel seat⟩
    | none => throw .indexError

/-- Assemble the receipt for a paid booking. `seat` is set for a seated ticket, `offer` for a standing one. -/
def buildReceipt (hold : Hold) (trip : Trip) (issuedAt : Int) (seat : Option Seat)
    (offer : Option SeatOffer) (pool : List Seat) : Except Err Receipt := do
  let times ← legTimes trip.stops hold.leg
  let origin ← stationAt trip hold.leg.originSeq
  let dest ← stationAt trip hold.leg.destSeq
  let advice ← standingAdvice trip pool offer
  return {
    reference := hold.reference
    qrPayload := hold.reference
    passengerId := hold.passengerId
    passengerName := hold.passengerName
    bookingId := hold.bookingId
    tripId := trip.tripId
    routeCode := trip.routeCode
    trainNo := trip.trainNo
    trainName := trip.trainName
    serviceDate := trip.serviceDate
    originCode := origin.code
    originName := origin.name
    originSeq := origin.seq
    destCode := dest.code
    destName := dest.name
    destSeq := dest.seq
    depart := formatHhmm times.departMin
    arrive := formatHhmm times.arriveMin
    durationMin := times.durationMin
    travelClass := hold.travelClass
    fare := ⟨hold.fareCents⟩
    status := hold.status
    issuedAt := issuedAt
    coach := seat.map (·.coach)
    seatLabel := seat.map SlrBooking.seatLabel
    standing := advice }

/-- Receipt for an existing booking, resolving its seat from the trip. -/
def receiptFor (hold : Hold) (trip : Trip) (issuedAt : Int) : Except Err Receipt :=
  buildReceipt hold trip issuedAt (trip.seats.find? fun s => s.seatId = hold.seatId) none []

theorem stationAt_ok_iff {trip : Trip} {seq : Int} :
    (∃ s, stationAt trip seq = .ok s) ↔ seq ∈ trip.stations.map (·.seq) := by
  unfold stationAt
  cases h : trip.stations.find? fun s => s.seq = seq with
  | none =>
      simp only [List.find?_eq_none, decide_eq_true_eq] at h
      simpa using h
  | some s =>
      have hmem := List.mem_of_find?_eq_some h
      have hseq : s.seq = seq := by simpa using List.find?_some h
      simp only [Except.ok.injEq, exists_eq', true_iff]
      exact List.mem_map.mpr ⟨s, hmem, hseq⟩

/-- **When a receipt is assembled.** The legs of the bookings are checked against the stations; the receipt
    asks for the train's stops too. -/
theorem buildReceipt_ok_iff {hold : Hold} {trip : Trip} {issuedAt : Int} {seat : Option Seat}
    {offer : Option SeatOffer} {pool : List Seat} :
    (∃ r, buildReceipt hold trip issuedAt seat offer pool = .ok r) ↔
      serves trip.stops hold.leg = true ∧ hold.leg.originSeq ∈ trip.stations.map (·.seq) ∧
      hold.leg.destSeq ∈ trip.stations.map (·.seq) ∧ ∃ a, standingAdvice trip pool offer = .ok a := by
  rw [← legTimes_ok_iff, ← stationAt_ok_iff, ← stationAt_ok_iff]
  unfold buildReceipt
  cases legTimes trip.stops hold.leg with
  | error e => simp [bind, Except.bind]
  | ok t =>
      cases stationAt trip hold.leg.originSeq with
      | error e => simp [bind, Except.bind]
      | ok o =>
          cases stationAt trip hold.leg.destSeq with
          | error e => simp [bind, Except.bind]
          | ok d =>
              cases standingAdvice trip pool offer with
              | error e => simp [bind, Except.bind]
              | ok a => simp [bind, Except.bind, pure, Except.pure]

/-- What a receipt says of the ticket itself. -/
theorem buildReceipt_prints {hold : Hold} {trip : Trip} {issuedAt : Int} {seat : Option Seat}
    {offer : Option SeatOffer} {pool : List Seat} {r : Receipt}
    (h : buildReceipt hold trip issuedAt seat offer pool = .ok r) :
    r.status = hold.status ∧ r.reference = hold.reference ∧ r.bookingId = hold.bookingId ∧
      r.coach = seat.map (·.coach) ∧ r.seatLabel = seat.map seatLabel ∧
      standingAdvice trip pool offer = .ok r.standing := by
  unfold buildReceipt at h
  obtain ⟨times, -, h⟩ := Theory.bind_ok h
  obtain ⟨origin, -, h⟩ := Theory.bind_ok h
  obtain ⟨dest, -, h⟩ := Theory.bind_ok h
  obtain ⟨advice, hadvice, h⟩ := Theory.bind_ok h
  obtain rfl := Except.ok.inj h
  exact ⟨rfl, rfl, rfl, rfl, rfl, hadvice⟩

/-- The time of issue is printed and decides nothing. -/
theorem buildReceipt_reissue {hold : Hold} {trip : Trip} {issuedAt : Int} {seat : Option Seat}
    {offer : Option SeatOffer} {pool : List Seat} {r : Receipt}
    (h : buildReceipt hold trip issuedAt seat offer pool = .ok r) (later : Int) :
    buildReceipt hold trip later seat offer pool = .ok { r with issuedAt := later } := by
  unfold buildReceipt at h ⊢
  obtain ⟨times, htimes, h⟩ := Theory.bind_ok h
  obtain ⟨origin, horigin, h⟩ := Theory.bind_ok h
  obtain ⟨dest, hdest, h⟩ := Theory.bind_ok h
  obtain ⟨advice, hadvice, h⟩ := Theory.bind_ok h
  obtain rfl := Except.ok.inj h
  simp only [htimes, horigin, hdest, hadvice]
  rfl

end SlrBooking
