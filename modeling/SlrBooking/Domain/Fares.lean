import SlrBooking.Domain.Values

/-!
# `Domain.Fares` — distance baseline, class and demand, as exact money

Money is integer cents. A float multiplier is the decimal it prints as, so products are exact and only the last
step rounds, half-up.

## Contents
- `roundCents`, `distanceFare`, `demandMultiplier`, `dynamicFare`.
- `DynamicFare`, the strategy with its rate and its demand band. `DynamicFare.price_le`: a dearer base on a fuller
  train is no cheaper; `DynamicFare.price_between`: the fare stays in its band.
-/

namespace SlrBooking

/-- Whole cents, ties away from zero. -/
def roundCents (value : ℚ) : Money := ⟨if 0 ≤ value then ⌊value + 1 / 2⌋ else -⌊-value + 1 / 2⌋⟩

def distanceFare (distanceKm : ℚ) (ratePerKm : Money) (classMult : ℚ) : Money :=
  roundCents (ratePerKm.cents * distanceKm * classMult)

/-- The occupancy, clamped, scaled into the demand band. -/
def demandMultiplier (occupancy floor ceiling : ℚ) : Except Err ℚ :=
  if ceiling < floor then .error (.valueError s!"demand band inverted: floor={floor} > ceiling={ceiling}")
  else .ok (floor + (ceiling - floor) * min 1 (max 0 occupancy))

def dynamicFare (distanceKm : ℚ) (ratePerKm : Money) (classMult occupancy floor ceiling : ℚ) : Except Err Money := do
  let base := distanceFare distanceKm ratePerKm classMult
  let mult ← demandMultiplier occupancy floor ceiling
  return roundCents (base.cents * mult)

/-- The strategy's rate and demand band. -/
structure DynamicFare where
  ratePerKm : Money
  floor     : ℚ := 1
  ceiling   : ℚ := 9 / 5

namespace DynamicFare

variable (strategy : DynamicFare)

def price (distanceKm classMult occupancy : ℚ) : Except Err Money :=
  dynamicFare distanceKm strategy.ratePerKm classMult occupancy strategy.floor strategy.ceiling

end DynamicFare

/-! ## A fuller train is never cheaper -/

theorem roundCents_mono {a b : ℚ} (ha : 0 ≤ a) (hab : a ≤ b) : (roundCents a).cents ≤ (roundCents b).cents := by
  unfold roundCents
  rw [if_pos ha, if_pos (ha.trans hab)]
  exact Int.floor_le_floor (by linarith)

theorem demandMultiplier_ok_iff {occupancy floor ceiling mult : ℚ} :
    demandMultiplier occupancy floor ceiling = .ok mult ↔
    floor ≤ ceiling ∧ mult = floor + (ceiling - floor) * min 1 (max 0 occupancy) := by
  unfold demandMultiplier
  by_cases hband : ceiling < floor
  · simp [hband]
  · simp [hband, le_of_not_gt hband, eq_comm]

theorem demandMultiplier_mono {occupancy occupancy' floor ceiling mult mult' : ℚ} (hle : occupancy ≤ occupancy')
    (h : demandMultiplier occupancy floor ceiling = .ok mult)
    (h' : demandMultiplier occupancy' floor ceiling = .ok mult') :
    mult ≤ mult' := by
  obtain ⟨hband, rfl⟩ := demandMultiplier_ok_iff.mp h
  obtain ⟨-, rfl⟩ := demandMultiplier_ok_iff.mp h'
  have hspan : 0 ≤ ceiling - floor := by linarith
  have hclamped : min 1 (max 0 occupancy) ≤ min 1 (max 0 occupancy') := min_le_min le_rfl (max_le_max le_rfl hle)
  linarith [mul_le_mul_of_nonneg_left hclamped hspan]

/-- The multiplier stays in its band. -/
theorem demandMultiplier_between {occupancy floor ceiling mult : ℚ}
    (h : demandMultiplier occupancy floor ceiling = .ok mult) : floor ≤ mult ∧ mult ≤ ceiling := by
  obtain ⟨hband, rfl⟩ := demandMultiplier_ok_iff.mp h
  have hspan : 0 ≤ ceiling - floor := by linarith
  have hlow : (0 : ℚ) ≤ min 1 (max 0 occupancy) := le_min zero_le_one (le_max_left _ _)
  have hhigh : min 1 (max 0 occupancy) ≤ 1 := min_le_left _ _
  constructor
  · linarith [mul_nonneg hspan hlow]
  · linarith [mul_le_mul_of_nonneg_left hhigh hspan]

namespace DynamicFare

variable {strategy : DynamicFare}

theorem price_ok_iff {distanceKm classMult occupancy : ℚ} {fare : Money} :
    strategy.price distanceKm classMult occupancy = .ok fare ↔
      ∃ mult, demandMultiplier occupancy strategy.floor strategy.ceiling = .ok mult ∧
        fare = roundCents ((distanceFare distanceKm strategy.ratePerKm classMult).cents * mult) := by
  unfold price dynamicFare
  cases demandMultiplier occupancy strategy.floor strategy.ceiling with
  | error e => simp [bind, Except.bind]
  | ok mult => simp [bind, Except.bind, pure, Except.pure, eq_comm]

/-- **A dearer base on a fuller train is no cheaper**, for a base and a floor that are not negative. -/
theorem price_le {distanceKm distanceKm' classMult classMult' occupancy occupancy' : ℚ} {fare fare' : Money}
    (hbase : 0 ≤ (distanceFare distanceKm strategy.ratePerKm classMult).cents)
    (hdearer : (distanceFare distanceKm strategy.ratePerKm classMult).cents ≤
      (distanceFare distanceKm' strategy.ratePerKm classMult').cents)
    (hfloor : 0 ≤ strategy.floor) (hle : occupancy ≤ occupancy')
    (h : strategy.price distanceKm classMult occupancy = .ok fare)
    (h' : strategy.price distanceKm' classMult' occupancy' = .ok fare') : fare.cents ≤ fare'.cents := by
  obtain ⟨mult, hm, rfl⟩ := price_ok_iff.mp h
  obtain ⟨mult', hm', rfl⟩ := price_ok_iff.mp h'
  have hmult : mult ≤ mult' := demandMultiplier_mono hle hm hm'
  have hnonneg : 0 ≤ mult := hfloor.trans (demandMultiplier_between hm).1
  have hcents : (0 : ℚ) ≤ (distanceFare distanceKm strategy.ratePerKm classMult).cents := by exact_mod_cast hbase
  have hcents' : ((distanceFare distanceKm strategy.ratePerKm classMult).cents : ℚ) ≤
      (distanceFare distanceKm' strategy.ratePerKm classMult').cents := by exact_mod_cast hdearer
  apply roundCents_mono (mul_nonneg hcents hnonneg)
  exact mul_le_mul hcents' hmult hnonneg (hcents.trans hcents')

/-- **Demand only raises a fare**, for a rate, distance, class and floor that are not negative. -/
theorem price_mono {distanceKm classMult occupancy occupancy' : ℚ} {fare fare' : Money}
    (hbase : 0 ≤ (distanceFare distanceKm strategy.ratePerKm classMult).cents)
    (hfloor : 0 ≤ strategy.floor) (hle : occupancy ≤ occupancy')
    (h : strategy.price distanceKm classMult occupancy = .ok fare)
    (h' : strategy.price distanceKm classMult occupancy' = .ok fare') : fare.cents ≤ fare'.cents :=
  price_le hbase (Int.le_refl _) hfloor hle h h'

/-- **The fare stays in its band**: between the base at the floor and the base at the ceiling, rounded. -/
theorem price_between {distanceKm classMult occupancy : ℚ}
    (hbase : 0 ≤ (distanceFare distanceKm strategy.ratePerKm classMult).cents)
    (hfloor : 0 ≤ strategy.floor) (hband : strategy.floor ≤ strategy.ceiling) :
    ∃ fare, strategy.price distanceKm classMult occupancy = .ok fare ∧
      (roundCents ((distanceFare distanceKm strategy.ratePerKm classMult).cents * strategy.floor)).cents ≤ fare.cents ∧
      fare.cents ≤ (roundCents ((distanceFare distanceKm strategy.ratePerKm classMult).cents *
        strategy.ceiling)).cents := by
  have hmult := demandMultiplier_ok_iff.mpr ⟨hband, (rfl : _ = strategy.floor + (strategy.ceiling - strategy.floor) *
    min 1 (max 0 occupancy))⟩
  obtain ⟨hlow, hhigh⟩ := demandMultiplier_between hmult
  have hcents : (0 : ℚ) ≤ (distanceFare distanceKm strategy.ratePerKm classMult).cents := by exact_mod_cast hbase
  refine ⟨_, price_ok_iff.mpr ⟨_, hmult, rfl⟩, ?_, ?_⟩
  · exact roundCents_mono (mul_nonneg hcents hfloor) (mul_le_mul_of_nonneg_left hlow hcents)
  · exact roundCents_mono (mul_nonneg hcents (hfloor.trans hlow)) (mul_le_mul_of_nonneg_left hhigh hcents)

end DynamicFare

end SlrBooking
