import SlrBooking.Runs.Outcomes
import SlrBooking.Domain.Abuse

/-!
# `Runs.AbuseGate` — the risk score behind the anti-tout gate

The gate fills two of the four signals from the passenger's bookings and gives the other two one value for everybody.

## Contents
- `Shipped`: the production scorer and threshold. `Saturated`: what the gate can observe is at its scale.
- `antiTout_risk`: past cap and velocity, the score decides. `suspected_saturated_iff`: from which threshold.
- `antiTout_never_suspects`, `abuse_gate_dead`: nothing reaches the shipped threshold.
-/

namespace SlrBooking

open Theory

/-- The composition root's scorer, and the default of `ABUSE_THRESHOLD`. -/
structure Shipped (deps : Deps) : Prop where
  scorer    : deps.score = HeuristicAbuse.score {}
  threshold : deps.getFloat abuseThreshold = .ok (4 / 5)

/-- The active bookings younger than the window. -/
def recentOf (active : List Hold) (now window : Int) : List Hold := active.filter fun h => h.createdAt > now - window

/-- How many seats the bookings are for. -/
def seatsOf (active : List Hold) : Nat := ((active.map (·.seatId)).filter (· ≠ "")).dedup.length

/-- Both signals the gate observes are at or beyond their scale. -/
structure Saturated (active : List Hold) (now window : Int) : Prop where
  recent : 10 ≤ (recentOf active now window).length
  seats  : 6 ≤ seatsOf active

/-- Cap and velocity limit are configured, and neither fires on these bookings. -/
structure Lenient (deps : Deps) (active : List Hold) (now cap window limit : Int) : Prop where
  capSet    : deps.getInt maxSeatsPerPassenger = .ok cap
  windowSet : deps.getInt velocityWindow = .ok window
  limitSet  : deps.getInt maxBookingsPerWindow = .ok limit
  few       : (active.length : Int) < cap
  slow      : ((recentOf active now window).length : Int) < limit

/-- What the gate tells the scorer. -/
def gateFeatures (active : List Hold) (now window : Int) : AbuseFeatures :=
  ⟨(recentOf active now window).length, 1, seatsOf active, 0⟩

section Gate

variable {deps : Deps} {passengerId : String} {now cap window limit : Int} {active : List Hold}

/-- Past the cap and the velocity limit, the score alone decides. -/
theorem antiTout_risk (hlenient : Lenient deps active now cap window limit) {score threshold : ℚ}
    (hscore : deps.score (gateFeatures active now window) = .ok score)
    (hthreshold : deps.getFloat abuseThreshold = .ok threshold) :
    antiTout deps passengerId now active =
      if score ≥ threshold then .error (.domain .abuseSuspected s!"risk {fixed2 score} for {passengerId}")
      else .ok () := by
  have hcap : ¬ (active.length : Int) ≥ cap := not_le.mpr hlenient.few
  have hslow : ¬ ((active.filter fun h => h.createdAt > now - window).length : Int) ≥ limit :=
    not_le.mpr hlenient.slow
  unfold antiTout
  -- neither of the hard limits fires
  rw [hlenient.capSet]
  dsimp only [bind, Except.bind]
  rw [if_neg hcap, hlenient.windowSet, hlenient.limitSet]
  dsimp only
  rw [if_neg hslow]
  have hscore' : deps.score
      { velocity := (active.filter fun h => h.createdAt > now - window).length
        passengerFanout := 1
        seatFanout := ((active.map (·.seatId)).filter (· ≠ "")).dedup.length
        cancelRatio := 0 } = .ok score := hscore
  rw [hscore', hthreshold]
  rfl

/-- With the production scorer and every observable signal saturated, the gate suspects from a threshold of 0.575
    down. -/
theorem suspected_saturated_iff (hscorer : deps.score = HeuristicAbuse.score {})
    (hlenient : Lenient deps active now cap window limit) (hsaturated : Saturated active now window) {threshold : ℚ}
    (hthreshold : deps.getFloat abuseThreshold = .ok threshold) :
    (∃ detail, antiTout deps passengerId now active = .error (.domain .abuseSuspected detail)) ↔
      threshold ≤ 23 / 40 := by
  have hscore : deps.score (gateFeatures active now window) = .ok (23 / 40) := by
    rw [hscorer]
    exact score_saturated (by exact_mod_cast hsaturated.recent) (by exact_mod_cast hsaturated.seats)
  rw [antiTout_risk hlenient hscore hthreshold]
  by_cases hreached : threshold ≤ 23 / 40
  · rw [if_pos hreached]
    exact iff_of_true ⟨_, rfl⟩ hreached
  · rw [if_neg hreached]
    exact iff_of_false (fun ⟨_, h⟩ => by cases h) hreached

/-- **The shipped gate lets every history through that cap and velocity let through.** -/
theorem antiTout_never_suspects (hshipped : Shipped deps) (hlenient : Lenient deps active now cap window limit) :
    antiTout deps passengerId now active = .ok () := by
  have hscore : deps.score (gateFeatures active now window) =
      .ok (WeightedMean.mean (signals (gateFeatures active now window) defaultWeights)) := by
    rw [hshipped.scorer]
    exact abuseScore_default _
  have hlow := score_of_one_actor (abuseScore_default (gateFeatures active now window))
  rw [antiTout_risk hlenient hscore hshipped.threshold, if_neg]
  exact not_le.mpr (lt_of_le_of_lt hlow (by norm_num))

end Gate

/-- **The abuse gate is dead.** With the production scorer and threshold, whatever the passenger's history that cap and
    velocity let through, saturated or not: the call never raises `AbuseSuspected`, it returns. -/
theorem abuse_gate_dead (g : Gateway) (w : World) {deps : Deps} (hshipped : Shipped deps)
    {tripId passengerId : String} {now cap window limit : Int}
    (hlenient : Lenient deps (MemoryRepo.activeForPassenger w.holds tripId passengerId) now cap window limit) :
    (¬ ∃ detail, ((enforceAntiTout deps tripId passengerId now).run (World.exec g) w).1 =
      .error (.domain .abuseSuspected detail)) ∧
    (enforceAntiTout deps tripId passengerId now).run (World.exec g) w = (.ok (), w) := by
  have hrun : (enforceAntiTout deps tripId passengerId now).run (World.exec g) w = (.ok (), w) := by
    rw [run_enforceAntiTout, antiTout_never_suspects hshipped hlenient]
  refine ⟨?_, hrun⟩
  rintro ⟨detail, h⟩
  rw [hrun] at h
  cases h

/-! ## A hoarder -/

/-- A coach of ten seats. -/
def tenSeats : List Trip :=
  [{ sampleTrip "slow" [originStop, middleStop, terminusStop] with
    seats := (List.range 10).map fun i => ⟨s!"B{i}", "A", .reserved, .first, i + 1, 1, "A"⟩ }]

/-- The shipped scorer and threshold, with room for everybody. -/
def shippedDeps (now : Int) (tag : String) : Deps :=
  { sampleDeps now tag with
    getInt := fun key => if key = velocityWindow then .ok 600 else .ok 1000
    score := HeuristicAbuse.score {} }

/-- One passenger takes all ten seats within ten seconds. -/
def hoard : List Request := (List.range 10).map fun i =>
  ⟨.hold "slow" s!"B{i}" wholeLine "nic1" "Nimal" none, shippedDeps i (toString i), acceptAll⟩

def hoarded : World := (World.start tenSeats).after hoard

theorem lenient_hoarded :
    Lenient (shippedDeps 10 "x") (MemoryRepo.activeForPassenger hoarded.holds "slow" "nic1") 10 1000 600 1000 :=
  ⟨rfl, rfl, rfl, by decide +kernel, by decide +kernel⟩

theorem saturated_hoarded : Saturated (MemoryRepo.activeForPassenger hoarded.holds "slow" "nic1") 10 600 :=
  ⟨by decide +kernel, by decide +kernel⟩

theorem abuse_gate_dead_hoarded :
    Saturated (MemoryRepo.activeForPassenger hoarded.holds "slow" "nic1") 10 600 ∧
    (enforceAntiTout (shippedDeps 10 "x") "slow" "nic1" 10).run (World.exec acceptAll) hoarded = (.ok (), hoarded) :=
  ⟨saturated_hoarded, (abuse_gate_dead acceptAll hoarded ⟨rfl, rfl⟩ lenient_hoarded).2⟩

/-- An eleventh seat is not refused to the hoarder. -/
theorem hoarder_not_suspected :
    ¬ ∀ (g : Gateway) (w : World) (deps : Deps) (tripId passengerId : String) (now cap window limit : Int),
      Shipped deps →
      Lenient deps (MemoryRepo.activeForPassenger w.holds tripId passengerId) now cap window limit →
      Saturated (MemoryRepo.activeForPassenger w.holds tripId passengerId) now window →
      ∃ detail, ((enforceAntiTout deps tripId passengerId now).run (World.exec g) w).1 =
        .error (.domain .abuseSuspected detail) := by
  intro h
  obtain ⟨detail, hraised⟩ := h acceptAll hoarded (shippedDeps 10 "x") "slow" "nic1" 10 1000 600 1000 ⟨rfl, rfl⟩
    lenient_hoarded saturated_hoarded
  rw [run_enforceAntiTout, antiTout_never_suspects ⟨rfl, rfl⟩ lenient_hoarded] at hraised
  cases hraised

end SlrBooking
