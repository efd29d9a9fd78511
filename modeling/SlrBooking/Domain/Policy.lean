import SlrBooking.Domain.Values

/-!
# `Domain.Policy` — the anti-tout velocity rule

The rule looks at the full list of a passenger's booking times. The gate of the use-cases does not call it; it
counts for itself.

## Contents
- `recentBookings`, `withinVelocity`.
- `recentBookings_snoc_le`: admitting under the rule keeps every window within the limit.
-/

namespace SlrBooking

/-- How many of the times lie in `(now - window_seconds, now]`. -/
def recentBookings (bookingTimes : List Int) (now windowSeconds : Int) : Nat :=
  bookingTimes.countP fun t => now - windowSeconds < t && t ≤ now

/-- True if another booking is allowed given the bookings in the trailing window. -/
def withinVelocity (bookingTimes : List Int) (now windowSeconds limit : Int) : Except Err Bool :=
  if windowSeconds ≤ 0 then .error (.valueError s!"window_seconds must be > 0, got {windowSeconds}")
  else if limit < 0 then .error (.valueError s!"limit must be non-negative, got {limit}")
  else .ok (decide ((recentBookings bookingTimes now windowSeconds : Int) < limit))

theorem withinVelocity_true {times : List Int} {now window limit : Int} (hwindow : 0 < window) :
    withinVelocity times now window limit = .ok true ↔ (recentBookings times now window : Int) < limit := by
  unfold withinVelocity
  rw [if_neg (by omega)]
  by_cases hlimit : limit < 0
  · rw [if_pos hlimit]
    refine iff_of_false (fun h => by cases h) ?_
    omega
  · rw [if_neg hlimit]
    simp

/-- **One admission.** If no window held more than `limit` and the window ending now held fewer, then with a booking
    now no window holds more. -/
theorem recentBookings_snoc_le {times : List Int} {now window limit : Int} (hpast : ∀ t ∈ times, t ≤ now)
    (hroom : (recentBookings times now window : Int) < limit)
    (hbound : ∀ t, (recentBookings times t window : Int) ≤ limit) (t : Int) :
    (recentBookings (times ++ [now]) t window : Int) ≤ limit := by
  have hsplit : recentBookings (times ++ [now]) t window =
      recentBookings times t window + recentBookings [now] t window := List.countP_append
  by_cases hin : t - window < now ∧ now ≤ t
  · -- a window that holds the new booking held nothing that the window ending now does not hold
    have hsub : recentBookings times t window ≤ recentBookings times now window := by
      refine List.countP_mono_left fun x hx h => ?_
      have hle := hpast x hx
      simp only [Bool.and_eq_true, decide_eq_true_eq] at h ⊢
      omega
    have hone : recentBookings [now] t window = 1 := by simp [recentBookings, hin]
    rw [hsplit, hone]
    omega
  · have hnone : recentBookings [now] t window = 0 := by
      simp only [recentBookings, List.countP_singleton, Bool.and_eq_true, decide_eq_true_eq, if_neg hin]
    rw [hsplit, hnone]
    exact hbound t

end SlrBooking
