import SlrBooking.Usecases.Support
import SlrBooking.Usecases.Receipt

/-!
# `Usecases.Counter` — sell an unreserved ticket at the window, verify a ticket at the gate

`sellUnreserved` is the source in its order: the expiry sweep, `admitSale` (everything a sale reads and
checks), the charge, and `issueTicket` (insert, events, commit, receipt).
-/

namespace SlrBooking

open Theory

/-- The unreserved seats of one class. -/
def unreservedPool (trip : Trip) (travelClass : TravelClass) : List Seat :=
  trip.seats.filter fun s => s.coachType = .unreserved && s.travelClass = travelClass

/-- Raise `CoachFull` when the class has no standing room left. -/
def guardStandingCapacity (deps : Deps) (tripId : String) (travelClass : TravelClass) :
    Prog Ports Err Unit := do
  let standing ← Bookings.byStatus tripId .standing
  let capacity ← Prog.ofExcept (deps.getInt standingCapacity)
  if ((standing.filter fun h => h.travelClass = travelClass).length : Int) ≥ capacity then
    throw (.domain .coachFull s!"unreserved {travelClass.value} coach is full")

/-- The occupied legs of every seat of the pool. -/
def poolLegs (tripId : String) : List Seat → Prog Ports Err (List (List Leg))
  | [] => return []
  | s :: rest => do
    let active ← Bookings.activeForSeat tripId s.seatId
    let others ← poolLegs tripId rest
    return active.map (·.leg) :: others

/-- The hidden seat of the leg, or the standing offer when the pool has none. -/
def assignSeat (deps : Deps) (tripId : String) (leg : Leg) (travelClass : TravelClass) (pool : List Seat) :
    Prog Ports Err (Option Seat × Option SeatOffer) := do
  let seatLegs ← poolLegs tripId pool
  match chooseSeat seatLegs leg with
  | some chosen => return (pool[chosen]?, none)
  | none => do
    guardStandingCapacity deps tripId travelClass
    let offers ← Prog.ofExcept (predictStandingSeats seatLegs [leg])
    return (none, offers.head?.join)

/-- What a sale goes on with once admitted. -/
structure Admission where
  trip  : Trip
  pool  : List Seat
  seat  : Option Seat
  offer : Option SeatOffer
  fare  : Money

/-- Everything a sale reads and checks between the expiry sweep and the charge. -/
def admitSale (deps : Deps) (tripId : String) (leg : Leg) (passengerId : String) (travelClass : TravelClass) :
    Prog Ports Err Admission := do
  let trip ← Trips.get tripId
  Prog.ofExcept (validateLeg trip leg)
  enforceAntiTout deps tripId passengerId deps.now
  let pool := unreservedPool trip travelClass
  if pool.isEmpty then
    throw (.domain .seatNotBookable s!"train {trip.trainNo} has no unreserved {travelClass.value} coach")
  else
    let (seat, offer) ← assignSeat deps tripId leg travelClass pool
    let fare ← priceLeg deps trip leg travelClass
    return ⟨trip, pool, seat, offer, fare⟩

/-- The booking a sale creates: paid already, with a seat or standing. -/
def soldTicket (deps : Deps) (tripId : String) (leg : Leg) (passengerId passengerName : String)
    (travelClass : TravelClass) (ticketRef : String) (seat : Option Seat) (fare : Money) : Hold :=
  { bookingId := deps.newId
    reference := ticketRef
    tripId := tripId
    seatId := match seat with | some s => s.seatId | none => ""
    leg := leg
    passengerId := passengerId
    passengerName := passengerName
    travelClass := travelClass
    status := if seat.isSome then .confirmed else .standing
    fareCents := fare.cents
    heldUntil := 0
    createdAt := deps.now }

/-- Everything a sale does after the charge was accepted. -/
def issueTicket (deps : Deps) (sold : Hold) (a : Admission) : Prog Ports Err Receipt := do
  Bookings.addHold sold
  match a.seat with
  | some seat => publish ⟨sold.tripId, seat.seatId, sold.leg, sold.status⟩
  | none => pure ()
  notify sold.passengerId "counter_sale" [("reference", sold.reference), ("status", sold.status.value)]
  commit
  Prog.ofExcept (buildReceipt sold a.trip deps.now a.seat a.offer a.pool)

/-- The receipt of a booking a reference already names. -/
def replayReceipt (deps : Deps) (existing : Hold) : Prog Ports Err Receipt := do
  let trip ← Trips.get existing.tripId
  Prog.ofExcept (receiptFor existing trip deps.now)

/-- Sell an unreserved ticket. One transaction, cash taken. -/
def sellUnreserved (deps : Deps) (tripId : String) (leg : Leg) (passengerId passengerName : String)
    (travelClass : TravelClass) (reference : Option String) : Prog Ports Err Receipt := do
  match ← lookupReplay reference with
  | some existing => replayReceipt deps existing
  | none => do
    let _ ← Bookings.expireDue deps.now
    let a ← admitSale deps tripId leg passengerId travelClass
    let ticketRef := orFresh reference deps.newReference
    let result ← charge ticketRef a.fare
    Prog.ofExcept (requireAccepted result "counter charge declined")
    issueTicket deps
      (soldTicket deps tripId leg passengerId passengerName travelClass ticketRef a.seat a.fare) a

/-! ## Verification -/

inductive Verdict where
  | valid
  /-- Held but never paid for: the passenger walked out mid-checkout. -/
  | unpaid
  | cancelled | expired
deriving DecidableEq

/-- `_VERDICTS`. -/
def verdictOf : BookingStatus → Verdict
  | .confirmed => .valid
  | .standing => .valid
  | .held => .unpaid
  | .cancelled => .cancelled
  | .expired => .expired

structure Verification where
  verdict : Verdict
  receipt : Receipt
deriving DecidableEq

/-- Verify a ticket by reference. -/
def verifyTicket (deps : Deps) (reference : String) : Prog Ports Err Verification := do
  let _ ← Bookings.expireDue deps.now
  match ← Bookings.byReference reference with
  | none => throw (.domain .bookingNotFound reference)
  | some booking => do
    let trip ← Trips.get booking.tripId
    commit
    let receipt ← Prog.ofExcept (receiptFor booking trip deps.now)
    return ⟨verdictOf booking.status, receipt⟩

end SlrBooking
