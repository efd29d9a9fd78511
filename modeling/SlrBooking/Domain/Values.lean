import Mathlib

/-!
# `Domain.Values` — the enumerations, money and the error family

## Contents
- `BookingStatus`, `CoachType`, `TravelClass` with their wire values.
- `activeStatuses`: the statuses that occupy a seat over a leg.
- `DomainError` and its classes; `Err`, everything a call can raise, the interpreter's own errors included.
- `Money`, integer cents.
-/

namespace SlrBooking

inductive BookingStatus where
  | held | confirmed | cancelled | expired
  /-- Unreserved overflow: a live, paid ticket with no seat. -/
  | standing
deriving DecidableEq, Repr

def BookingStatus.value : BookingStatus → String
  | .held => "HELD"
  | .confirmed => "CONFIRMED"
  | .cancelled => "CANCELLED"
  | .expired => "EXPIRED"
  | .standing => "STANDING"

inductive CoachType where
  | reserved | unreserved
deriving DecidableEq, Repr

inductive TravelClass where
  | first | second | third
deriving DecidableEq, Repr

def TravelClass.value : TravelClass → String
  | .first => "FIRST"
  | .second => "SECOND"
  | .third => "THIRD"

/-- `travel_class.value.lower()`. -/
def TravelClass.lower : TravelClass → String
  | .first => "first"
  | .second => "second"
  | .third => "third"

/-- Presentation order for classes: best first. -/
def classOrder : List TravelClass := [.first, .second, .third]

/-- Statuses that occupy a seat/leg, the scope of the overlap invariant. -/
def activeStatuses : List BookingStatus := [.held, .confirmed]

/-- `status in ACTIVE_STATUSES`. -/
def BookingStatus.isActive (s : BookingStatus) : Bool := s ∈ activeStatuses

/-! ## Errors -/

/-- The leaves of the domain error family. -/
inductive DomainError where
  | invalidLeg | invalidServiceDate | illegalTransition | noFeasibleSeat | overlapError
  | seatCapExceeded | velocityExceeded | abuseSuspected
  | paymentDeclined | coachFull | bookingNotFound | seatNotBookable
deriving DecidableEq, Repr

/-- What a call can raise: a domain error with its text, or an error of the language or of the driver. -/
inductive Err where
  | domain (kind : DomainError) (detail : String)
  | keyError (key : String)
  | valueError (detail : String)
  | indexError
  | stopIteration
  | overflowError (detail : String)
  | integrityError (constraint : String)
deriving DecidableEq, Repr

/-- The exception's class, its text dropped. -/
inductive ErrClass where
  | domain (kind : DomainError)
  | keyError | valueError | indexError | stopIteration | overflowError
  | integrityError (constraint : String)
deriving DecidableEq, Repr

def Err.class : Err → ErrClass
  | .domain k _ => .domain k
  | .keyError _ => .keyError
  | .valueError _ => .valueError
  | .indexError => .indexError
  | .stopIteration => .stopIteration
  | .overflowError _ => .overflowError
  | .integrityError c => .integrityError c

/-! ## Money -/

/-- Integer minor units. -/
structure Money where
  cents : Int
deriving DecidableEq, Repr

end SlrBooking
