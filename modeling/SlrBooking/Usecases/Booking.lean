import SlrBooking.Usecases.Support
import SlrBooking.Usecases.Receipt
import SlrBooking.Domain.BookingSm

/-!
# `Usecases.Booking` — hold, confirm and cancel a reserved seat

Each use-case is one program over the ports, in the order of the source. The stretch that only reads and
checks and the stretch that writes and commits have names of their own.
-/

namespace SlrBooking

open Theory

/-- The trip's seat of that id, if it is individually reservable. -/
def reservedSeat (trip : Trip) (seatId : String) : Except Err Seat :=
  let refused := .error (.domain .seatNotBookable s!"seat {seatId} is not a reservable seat on {trip.tripId}")
  match trip.seats.find? fun s => s.seatId = seatId with
  | some seat => if seat.coachType = .reserved then .ok seat else refused
  | none => refused

/-- `bookings.get(booking_id)` with its `KeyError` turned into `BookingNotFound`. -/
def getBooking (bookingId : String) : Prog Ports Err Hold :=
  tryCatch (Bookings.get bookingId) fun
    | .keyError _ => throw (.domain .bookingNotFound bookingId)
    | e => throw e

/-- The booking a hold creates. -/
def newHold (deps : Deps) (tripId seatId : String) (leg : Leg) (passengerId passengerName : String)
    (reference : Option String) (seat : Seat) (fare : Money) (ttl : Int) : Hold :=
  { bookingId := deps.newId
    reference := orFresh reference deps.newReference
    tripId := tripId
    seatId := seatId
    leg := leg
    passengerId := passengerId
    passengerName := passengerName
    travelClass := seat.travelClass
    status := .held
    fareCents := fare.cents
    heldUntil := deps.now + ttl
    createdAt := deps.now }

/-- Everything a hold reads and checks between the expiry sweep and the insert. -/
def draftHold (deps : Deps) (tripId seatId : String) (leg : Leg) (passengerId passengerName : String)
    (reference : Option String) : Prog Ports Err Hold := do
  let trip ← Trips.get tripId
  Prog.ofExcept (validateLeg trip leg)
  let seat ← Prog.ofExcept (reservedSeat trip seatId)
  enforceAntiTout deps tripId passengerId deps.now
  let fare ← priceLeg deps trip leg seat.travelClass
  let ttl ← Prog.ofExcept (deps.getInt holdTtl)
  return newHold deps tripId seatId leg passengerId passengerName reference seat fare ttl

/-- Insert a drafted hold, tell the outside, commit. -/
def placeHold (hold : Hold) : Prog Ports Err Hold := do
  Bookings.addHold hold
  publish ⟨hold.tripId, hold.seatId, hold.leg, .held⟩
  notify hold.passengerId "seat_held" [("reference", hold.reference), ("seat_id", hold.seatId)]
  commit
  return hold

/-- Hold a reserved seat. A known reference returns its booking before any check. -/
def holdSeat (deps : Deps) (tripId seatId : String) (leg : Leg) (passengerId passengerName : String)
    (reference : Option String) : Prog Ports Err Hold := do
  match ← lookupReplay reference with
  | some existing => return existing
  | none => do
    let _ ← Bookings.expireDue deps.now
    let hold ← draftHold deps tripId seatId leg passengerId passengerName reference
    placeHold hold

/-- What a confirm reads and guards before it charges. -/
def readForConfirm (bookingId : String) : Prog Ports Err (Hold × BookingStatus × Trip) := do
  let hold ← getBooking bookingId
  let target ← Prog.ofExcept (BookingSm.apply hold.status .confirm)
  let trip ← Trips.get hold.tripId
  return (hold, target, trip)

/-- Write the paid status, tell the outside, commit; the receipt is assembled after the commit. -/
def settleConfirm (deps : Deps) (bookingId : String) (hold : Hold) (target : BookingStatus) (trip : Trip) :
    Prog Ports Err Receipt := do
  let confirmed ← Bookings.setStatus bookingId target
  publish ⟨hold.tripId, hold.seatId, hold.leg, confirmed.status⟩
  notify hold.passengerId "booking_confirmed" [("reference", hold.reference)]
  commit
  Prog.ofExcept (receiptFor confirmed trip deps.now)

/-- Confirm a hold with online payment. -/
def confirmBooking (deps : Deps) (bookingId : String) : Prog Ports Err Receipt := do
  let _ ← Bookings.expireDue deps.now
  let (hold, target, trip) ← readForConfirm bookingId
  let result ← charge hold.reference ⟨hold.fareCents⟩
  Prog.ofExcept (requireAccepted result "charge declined")
  settleConfirm deps bookingId hold target trip

/-- Cancel a booking. The freed segment reopens immediately. -/
def cancelBooking (bookingId : String) : Prog Ports Err Hold := do
  let hold ← getBooking bookingId
  let _ ← Prog.ofExcept (BookingSm.apply hold.status .cancel)
  let cancelled ← Bookings.setStatus bookingId .cancelled
  if hold.status.isActive then
    publish ⟨hold.tripId, hold.seatId, hold.leg, .cancelled⟩
  notify hold.passengerId "booking_cancelled" [("reference", hold.reference)]
  commit
  return cancelled

theorem reservedSeat_ok {trip : Trip} {seatId : String} {seat : Seat} (h : reservedSeat trip seatId = .ok seat) :
    seat ∈ trip.seats ∧ seat.seatId = seatId ∧ seat.coachType = .reserved := by
  unfold reservedSeat at h
  dsimp only at h
  split at h
  · rename_i s hfind
    split at h
    · rename_i hreserved
      obtain rfl := Except.ok.inj h
      exact ⟨List.mem_of_find?_eq_some hfind, by simpa using List.find?_some hfind, hreserved⟩
    · cases h
  · cases h

end SlrBooking
