import SlrBooking.Theory.Prog
import SlrBooking.Domain.Timetable

/-!
# `Ports` — the records that cross the ports, and the ports as a signature of operations

A use-case talks to the store, the gateway, the publisher and the notifier through `PortOp`. The ports
that only answer (clock, ids, references, config, fares, abuse score) are read at most at one moment of a
call, so they are the values of a `Deps`.

## Contents
- `Coach`, `Seat`, `Trip`, `Hold`, `AvailabilityEvent`, `Notice`, `PaymentResult`, `AbuseFeatures`.
- `PortOp` and its signature `Ports`; one smart constructor for each operation.
- `inDepartureOrder`, the order both repositories list a day's trips in.
- `Deps`.
-/

namespace SlrBooking

open Theory

/-- A coach's seating geometry: `columns` is the seats-per-side pattern, `exitRows` the rows the map breaks after. -/
structure Coach where
  code        : String
  coachType   : CoachType
  travelClass : TravelClass
  rows        : Int
  columns     : String
  exitRows    : List Int
deriving DecidableEq

structure Seat where
  seatId      : String
  coach       : String
  coachType   : CoachType
  travelClass : TravelClass
  number      : Int
  row         : Int
  column      : String
deriving DecidableEq

/-- One dated run of a service pattern. Stations are the line's order; stops are this train's calls on it. -/
structure Trip where
  tripId      : String
  routeCode   : String
  serviceDate : String
  trainNo     : String
  trainName   : String
  stations    : List Station
  stops       : List Stop
  coaches     : List Coach
  seats       : List Seat
deriving DecidableEq

/-- One seat's occupancy over one leg. `heldUntil` is the expiry epoch of a HELD booking. -/
structure Hold where
  bookingId     : String
  reference     : String
  tripId        : String
  seatId        : String
  leg           : Leg
  passengerId   : String
  passengerName : String
  travelClass   : TravelClass
  status        : BookingStatus
  fareCents     : Int
  heldUntil     : Int
  createdAt     : Int
deriving DecidableEq

structure AvailabilityEvent where
  tripId : String
  seatId : String
  leg    : Leg
  status : BookingStatus
deriving DecidableEq

structure Notice where
  recipient : String
  event     : String
  detail    : List (String × String)
deriving DecidableEq

/-- A decline is a normal result with `ok = false`, never an exception. -/
structure PaymentResult where
  ok        : Bool
  reference : String
  detail    : String := ""
deriving DecidableEq

structure AbuseFeatures where
  velocity        : Int
  passengerFanout : Int
  seatFanout      : Int
  cancelRatio     : ℚ

/-- The operations a use-case performs. -/
inductive PortOp where
  | addHold (hold : Hold)
  | get (bookingId : String)
  | byReference (reference : String)
  | setStatus (bookingId : String) (status : BookingStatus)
  | activeForSeat (tripId seatId : String)
  | activeForPassenger (tripId passengerId : String)
  | activeHolds (tripId : String)
  | byStatus (tripId : String) (status : BookingStatus)
  | expireDue (now : Int)
  | getTrip (tripId : String)
  | findByDate (serviceDate : String)
  | commit
  | charge (reference : String) (amount : Money)
  | publish (event : AvailabilityEvent)
  | notify (notice : Notice)
deriving DecidableEq

@[reducible] def PortOp.Res : PortOp → Type
  | .addHold _ | .commit | .publish _ | .notify _ => Unit
  | .get _ | .setStatus _ _ => Hold
  | .byReference _ => Option Hold
  | .activeForSeat _ _ | .activeForPassenger _ _ | .activeHolds _ | .byStatus _ _ | .expireDue _ => List Hold
  | .getTrip _ => Trip
  | .findByDate _ => List Trip
  | .charge _ _ => PaymentResult

abbrev Ports : Sig := ⟨PortOp, PortOp.Res⟩

namespace Bookings

def addHold (hold : Hold) : Prog Ports Err Unit := Prog.call (S := Ports) (.addHold hold)
def get (bookingId : String) : Prog Ports Err Hold := Prog.call (S := Ports) (.get bookingId)
def byReference (reference : String) : Prog Ports Err (Option Hold) := Prog.call (S := Ports) (.byReference reference)

def setStatus (bookingId : String) (status : BookingStatus) : Prog Ports Err Hold :=
  Prog.call (S := Ports) (.setStatus bookingId status)

def activeForSeat (tripId seatId : String) : Prog Ports Err (List Hold) :=
  Prog.call (S := Ports) (.activeForSeat tripId seatId)

def activeForPassenger (tripId passengerId : String) : Prog Ports Err (List Hold) :=
  Prog.call (S := Ports) (.activeForPassenger tripId passengerId)

def activeHolds (tripId : String) : Prog Ports Err (List Hold) := Prog.call (S := Ports) (.activeHolds tripId)

def byStatus (tripId : String) (status : BookingStatus) : Prog Ports Err (List Hold) :=
  Prog.call (S := Ports) (.byStatus tripId status)

def expireDue (now : Int) : Prog Ports Err (List Hold) := Prog.call (S := Ports) (.expireDue now)

end Bookings

namespace Trips

def get (tripId : String) : Prog Ports Err Trip := Prog.call (S := Ports) (.getTrip tripId)
def findByDate (serviceDate : String) : Prog Ports Err (List Trip) := Prog.call (S := Ports) (.findByDate serviceDate)

end Trips

def commit : Prog Ports Err Unit := Prog.call (S := Ports) .commit

def charge (reference : String) (amount : Money) : Prog Ports Err PaymentResult :=
  Prog.call (S := Ports) (.charge reference amount)

def publish (event : AvailabilityEvent) : Prog Ports Err Unit := Prog.call (S := Ports) (.publish event)

def notify (recipient event : String) (detail : List (String × String)) : Prog Ports Err Unit :=
  Prog.call (S := Ports) (.notify ⟨recipient, event, detail⟩)

/-! ## Departure order -/

/-- `(departure_min(t.stops), t.trip_id)` in order. -/
def departsBefore (a b : Int × Trip) : Bool := a.1 < b.1 || (a.1 = b.1 && a.2.tripId ≤ b.2.tripId)

def insertDeparture (a : Int × Trip) : List (Int × Trip) → List (Int × Trip)
  | [] => [a]
  | b :: rest => if departsBefore a b then a :: b :: rest else b :: insertDeparture a rest

/-- Trips with their departure times, sorted. -/
def inDepartureOrder (ds : List (Int × Trip)) : List Trip := (ds.foldr insertDeparture []).map (·.2)

theorem perm_insertDeparture (a : Int × Trip) (ds : List (Int × Trip)) : (insertDeparture a ds).Perm (a :: ds) := by
  induction ds with
  | nil => exact List.Perm.refl _
  | cons b rest ih =>
      unfold insertDeparture
      split
      · exact List.Perm.refl _
      · exact (ih.cons b).trans (List.Perm.swap a b rest)

theorem perm_foldr_insertDeparture (ds : List (Int × Trip)) : (ds.foldr insertDeparture []).Perm ds := by
  induction ds with
  | nil => exact List.Perm.refl _
  | cons d ds ih => exact (perm_insertDeparture d _).trans (ih.cons d)

/-- Ordering by departure loses no trip and adds none. -/
theorem perm_inDepartureOrder (ds : List (Int × Trip)) : (inDepartureOrder ds).Perm (ds.map (·.2)) :=
  (perm_foldr_insertDeparture ds).map _

/-- A later departure never stands before an earlier one. -/
theorem insertDeparture_sorted {a : Int × Trip} {ds : List (Int × Trip)} (h : ds.Pairwise fun x y => x.1 ≤ y.1) :
    (insertDeparture a ds).Pairwise fun x y => x.1 ≤ y.1 := by
  induction ds with
  | nil => exact List.pairwise_singleton _ a
  | cons b rest ih =>
      obtain ⟨hb, hrest⟩ := List.pairwise_cons.mp h
      unfold insertDeparture
      by_cases hbefore : departsBefore a b = true
      · rw [if_pos hbefore]
        have hab : a.1 ≤ b.1 := by
          simp only [departsBefore, Bool.or_eq_true, Bool.and_eq_true, decide_eq_true_eq] at hbefore
          omega
        refine List.pairwise_cons.mpr ⟨fun y hy => ?_, h⟩
        rcases List.mem_cons.mp hy with rfl | hy
        · exact hab
        · exact hab.trans (hb y hy)
      · rw [if_neg hbefore]
        have hba : b.1 ≤ a.1 := by
          simp only [departsBefore, Bool.or_eq_true, decide_eq_true_eq, not_or] at hbefore
          omega
        refine List.pairwise_cons.mpr ⟨fun y hy => ?_, ih hrest⟩
        rcases List.mem_cons.mp ((perm_insertDeparture a rest).mem_iff.mp hy) with rfl | hy
        · exact hba
        · exact hb y hy

theorem foldr_insertDeparture_sorted (ds : List (Int × Trip)) :
    (ds.foldr insertDeparture []).Pairwise fun x y => x.1 ≤ y.1 := by
  induction ds with
  | nil => exact List.Pairwise.nil
  | cons d ds ih => exact insertDeparture_sorted ih

/-- What the answering ports say during one call. -/
structure Deps where
  now          : Int
  newId        : String
  newReference : String
  getInt       : String → Except Err Int
  getFloat     : String → Except Err ℚ
  price        : (distanceKm classMult occupancy : ℚ) → Except Err Money
  score        : AbuseFeatures → Except Err ℚ

end SlrBooking
