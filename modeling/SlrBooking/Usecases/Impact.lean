import SlrBooking.Usecases.Support
import SlrBooking.Domain.Packing

/-!
# `Usecases.Impact` — capacity unlocked by segment resale vs rigid whole-journey booking

## Contents
- `ImpactReport`, `routeKm`, `impactReport`.
- `routeKm_ok`: the length of a line that has a station.
-/

namespace SlrBooking

open Theory

structure ImpactReport where
  tripId          : String
  activeLegs      : Nat
  seatsUsed       : Int
  seatKmReclaimed : ℚ
deriving DecidableEq

/-- `max(kms) - min(kms)`. -/
def routeKm (stations : List Station) : Except Err ℚ :=
  match (stations.map (·.km)).max?, (stations.map (·.km)).min? with
  | some high, some low => .ok (high - low)
  | _, _ => .error (.valueError "max() iterable argument is empty")

/-- The report on the legs read from the store. -/
def impactOf (tripId : String) (trip : Trip) (legs : List Leg) : Except Err ImpactReport := do
  let route ← routeKm trip.stations
  return {
    tripId := tripId
    activeLegs := legs.length
    seatsUsed := minSeats legs
    seatKmReclaimed := ← impactSeatKm legs (kmIndex trip.stations) route }

def impactReport (tripId : String) : Prog Ports Err ImpactReport := do
  let trip ← Trips.get tripId
  let active ← Bookings.activeHolds tripId
  -- The block ends here, with nothing written.
  Prog.ofExcept (impactOf tripId trip (active.map (·.leg)))

/-! ## The length of the route -/

theorem routeKm_ok {stations : List Station} (h : stations ≠ []) :
    ∃ high low, routeKm stations = .ok (high - low) ∧ ∀ s ∈ stations, low ≤ s.km ∧ s.km ≤ high := by
  have hne : stations.map (·.km) ≠ [] := fun hnil => h (List.map_eq_nil_iff.mp hnil)
  obtain ⟨high, hhigh⟩ := Option.isSome_iff_exists.mp (List.isSome_max?_of_ne_nil hne)
  obtain ⟨low, hlow⟩ := Option.isSome_iff_exists.mp (List.isSome_min?_of_ne_nil hne)
  refine ⟨high, low, ?_, fun s hs => ⟨?_, ?_⟩⟩
  · rw [routeKm, hhigh, hlow]
  · exact (List.min?_eq_some_iff.mp hlow).2 s.km (List.mem_map_of_mem hs)
  · exact (List.max?_eq_some_iff.mp hhigh).2 s.km (List.mem_map_of_mem hs)

end SlrBooking
