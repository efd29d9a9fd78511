import SlrBooking.Ports

/-!
# `Usecases.Support` — read helpers and the anti-tout gate shared by the use-cases

## Contents
- The config keys, `validateLeg`, `legDistanceKm`, `occupancyOverLeg`, `classMult`, `priceLeg`.
- `enforceAntiTout`: cap, velocity and risk score of one passenger on one trip.
- `lookupReplay` and `orFresh`: the two uses of a client-chosen reference. `requireAccepted`: a decline
  raises.
-/

namespace SlrBooking

open Theory

/-! ## Config keys -/

def holdTtl : String := "hold_ttl_seconds"
def maxSeatsPerPassenger : String := "max_seats_per_passenger"
def velocityWindow : String := "velocity_window_seconds"
def maxBookingsPerWindow : String := "max_bookings_per_window"
def abuseThreshold : String := "abuse_threshold"
def standingCapacity : String := "standing_capacity_per_coach"
def bookingWindowDays : String := "booking_window_days"
def utcOffsetMinutes : String := "utc_offset_minutes"

/-! ## Legs and fares -/

/-- Both ends of the leg are stations of the trip's line. Nothing here asks whether the train stops. -/
def validateLeg (trip : Trip) (leg : Leg) : Except Err Unit :=
  let seqs := trip.stations.map (·.seq)
  if leg.originSeq ∈ seqs ∧ leg.destSeq ∈ seqs then .ok ()
  else .error (.domain .invalidLeg s!"leg {leg.repr} runs off trip {trip.tripId}'s station sequence")

def legDistanceKm (trip : Trip) (leg : Leg) : Except Err ℚ := leg.distanceKm (kmIndex trip.stations)

/-- Fraction of the trip's seats actively held over any part of the leg. -/
def occupancyOverLeg (trip : Trip) (leg : Leg) : Prog Ports Err ℚ := do
  if trip.seats.isEmpty then return 0
  else
    let active ← Bookings.activeHolds trip.tripId
    let busy := ((active.filter fun h => h.leg.overlaps leg).map (·.seatId)).dedup
    return (busy.length : ℚ) / trip.seats.length

def classMult (deps : Deps) (travelClass : TravelClass) : Except Err ℚ :=
  deps.getFloat s!"class_mult_{travelClass.lower}"

/-- The one place a leg is priced. -/
def priceLeg (deps : Deps) (trip : Trip) (leg : Leg) (travelClass : TravelClass) : Prog Ports Err Money := do
  let distanceKm ← Prog.ofExcept (legDistanceKm trip leg)
  let mult ← Prog.ofExcept (classMult deps travelClass)
  let occupancy ← occupancyOverLeg trip leg
  Prog.ofExcept (deps.price distanceKm mult occupancy)

/-! ## The anti-tout gate -/

/-- A non-negative rational in decimal with two digits after the point, ties to the even digit. -/
def fixed2 (q : ℚ) : String :=
  let scaled := q * 100
  let down := scaled.floor
  let rest := scaled - down
  let cents := if rest < 1 / 2 then down else if rest > 1 / 2 then down + 1 else down + down % 2
  s!"{cents / 100}." ++ Calendar.zeroPad 2 (cents % 100).toNat

/-- The decision on the active holds of one passenger. -/
def antiTout (deps : Deps) (passengerId : String) (now : Int) (active : List Hold) : Except Err Unit := do
  let cap ← deps.getInt maxSeatsPerPassenger
  if (active.length : Int) ≥ cap then
    throw (.domain .seatCapExceeded s!"{passengerId} already holds {active.length} seats (cap {cap})")
  let window ← deps.getInt velocityWindow
  let limit ← deps.getInt maxBookingsPerWindow
  let recent := active.filter fun h => h.createdAt > now - window
  if (recent.length : Int) ≥ limit then
    throw (.domain .velocityExceeded s!"{passengerId} booked {recent.length} times in {window}s")
  let score ← deps.score
    { velocity := recent.length
      passengerFanout := 1
      seatFanout := ((active.map (·.seatId)).filter (· ≠ "")).dedup.length
      cancelRatio := 0 }
  if score ≥ (← deps.getFloat abuseThreshold) then
    throw (.domain .abuseSuspected s!"risk {fixed2 score} for {passengerId}")

def enforceAntiTout (deps : Deps) (tripId passengerId : String) (now : Int) : Prog Ports Err Unit := do
  let active ← Bookings.activeForPassenger tripId passengerId
  Prog.ofExcept (antiTout deps passengerId now active)

/-! ## Client-chosen references -/

/-- The booking a client-chosen reference already names. -/
def lookupReplay : Option String → Prog Ports Err (Option Hold)
  | none => return none
  | some reference => Bookings.byReference reference

/-- `reference or new_reference()`: an empty text counts as none. -/
def orFresh (reference : Option String) (fresh : String) : String :=
  match reference with
  | some r => if r = "" then fresh else r
  | none => fresh

/-! ## Payment -/

/-- `raise PaymentDeclined(result.detail or fallback)` unless the charge was accepted. -/
def requireAccepted (result : PaymentResult) (fallback : String) : Except Err Unit :=
  if result.ok then .ok ()
  else .error (.domain .paymentDeclined (if result.detail = "" then fallback else result.detail))

end SlrBooking
