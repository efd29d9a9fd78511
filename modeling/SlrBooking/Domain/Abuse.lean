import SlrBooking.Ports
import SlrBooking.Theory.WeightedMean

/-!
# `Domain.Abuse` — the abuse heuristic

Each signal is saturated at a config scale, then combined as a weighted average. No threshold decision lives here.

## Contents
- `Weight`, `AbuseWeights`, `defaultWeights`, `saturate`, `abuseScore`, `HeuristicAbuse`.
- `abuseScore_bounds`, `abuseScore_mono`: a value in `[0, 1]`, no lower for a stronger signal.
- `score_saturated`, `score_of_one_actor`: the score while two signals are fixed.
-/

namespace SlrBooking

open Theory WeightedMean

/-- `scale` is the value at which the signal saturates to 1; a signal is divided by it. -/
structure Weight where
  weight   : ℚ
  scale    : ℚ
  scale_ne : scale ≠ 0

structure AbuseWeights where
  velocity        : Weight
  passengerFanout : Weight
  seatFanout      : Weight
  cancelRatio     : Weight

/-- `DEFAULT_WEIGHTS`. -/
def defaultWeights : AbuseWeights where
  velocity := ⟨1, 10, by decide⟩
  passengerFanout := ⟨3 / 2, 5, by decide⟩
  seatFanout := ⟨1, 6, by decide⟩
  cancelRatio := ⟨1 / 2, 1, by decide⟩

def saturate (x : ℚ) : ℚ := min 1 (max 0 x)

/-- One signal with its weight. -/
def Weight.signal (w : Weight) (value : ℚ) : ℚ × ℚ := (w.weight, saturate (value / w.scale))

/-- The signals in the order of the fields. -/
def signals (features : AbuseFeatures) (weights : AbuseWeights) : List (ℚ × ℚ) :=
  [weights.velocity.signal features.velocity, weights.passengerFanout.signal features.passengerFanout,
    weights.seatFanout.signal features.seatFanout, weights.cancelRatio.signal features.cancelRatio]

def abuseScore (features : AbuseFeatures) (weights : AbuseWeights) : Except Err ℚ :=
  let (totalWeight, weighted) := (signals features weights).foldl
    (fun acc x => (acc.1 + x.1, acc.2 + x.1 * x.2)) (0, 0)
  if totalWeight ≤ 0 then .error (.valueError "abuse weights must not all be zero")
  else .ok (weighted / totalWeight)

/-- The production scorer. -/
structure HeuristicAbuse where
  weights : AbuseWeights := defaultWeights

def HeuristicAbuse.score (scorer : HeuristicAbuse) (features : AbuseFeatures) : Except Err ℚ :=
  abuseScore features scorer.weights

/-! ## The score -/

theorem saturate_bounds (x : ℚ) : 0 ≤ saturate x ∧ saturate x ≤ 1 :=
  ⟨le_min zero_le_one (le_max_left _ _), min_le_left _ _⟩

theorem saturate_mono {x y : ℚ} (h : x ≤ y) : saturate x ≤ saturate y :=
  min_le_min_left _ (max_le_max_left _ h)

/-- From the scale on, a signal counts in full. -/
theorem saturate_of_le {x : ℚ} (h : 1 ≤ x) : saturate x = 1 :=
  min_eq_left (h.trans (le_max_right _ _))

theorem saturate_of_mem {x : ℚ} (hlow : 0 ≤ x) (hhigh : x ≤ 1) : saturate x = x := by
  rw [saturate, max_eq_right hlow, min_eq_right hhigh]

/-- The score is the weighted mean of the signals, if the weights leave one. -/
theorem abuseScore_ok_iff {features : AbuseFeatures} {weights : AbuseWeights} {score : ℚ} :
    abuseScore features weights = .ok score ↔
      0 < total (signals features weights) ∧ score = mean (signals features weights) := by
  unfold abuseScore
  rw [foldl_eq, zero_add, zero_add]
  by_cases htotal : total (signals features weights) ≤ 0
  · simp only [if_pos htotal]
    exact iff_of_false (fun h => by cases h) fun h => absurd h.1 (not_lt.mpr htotal)
  · simp only [if_neg htotal, Except.ok.injEq]
    exact ⟨fun h => ⟨not_le.mp htotal, h.symm⟩, fun h => h.2.symm⟩

/-- No weight is negative. -/
def AbuseWeights.Nonneg (weights : AbuseWeights) : Prop :=
  0 ≤ weights.velocity.weight ∧ 0 ≤ weights.passengerFanout.weight ∧ 0 ≤ weights.seatFanout.weight ∧
    0 ≤ weights.cancelRatio.weight

/-- **A value in `[0, 1]`.** -/
theorem abuseScore_bounds {features : AbuseFeatures} {weights : AbuseWeights} {score : ℚ} (hweights : weights.Nonneg)
    (h : abuseScore features weights = .ok score) : 0 ≤ score ∧ score ≤ 1 := by
  obtain ⟨htotal, rfl⟩ := abuseScore_ok_iff.mp h
  obtain ⟨hvelocity, hpassenger, hseat, hcancel⟩ := hweights
  refine mean_bounds (fun x hx => ?_) htotal
  simp only [signals, List.mem_cons, List.not_mem_nil, or_false] at hx
  rcases hx with rfl | rfl | rfl | rfl
  · exact ⟨hvelocity, saturate_bounds _⟩
  · exact ⟨hpassenger, saturate_bounds _⟩
  · exact ⟨hseat, saturate_bounds _⟩
  · exact ⟨hcancel, saturate_bounds _⟩

/-- No signal of `f` is stronger than that of `f'`. -/
structure AbuseFeatures.Le (f f' : AbuseFeatures) : Prop where
  velocity        : f.velocity ≤ f'.velocity
  passengerFanout : f.passengerFanout ≤ f'.passengerFanout
  seatFanout      : f.seatFanout ≤ f'.seatFanout
  cancelRatio     : f.cancelRatio ≤ f'.cancelRatio

/-- No weight is negative and every scale is positive. -/
def AbuseWeights.Sensible (weights : AbuseWeights) : Prop :=
  weights.Nonneg ∧ 0 < weights.velocity.scale ∧ 0 < weights.passengerFanout.scale ∧ 0 < weights.seatFanout.scale ∧
    0 < weights.cancelRatio.scale

theorem defaultWeights_sensible : defaultWeights.Sensible := by
  refine ⟨⟨?_, ?_, ?_, ?_⟩, ?_, ?_, ?_, ?_⟩ <;> norm_num [defaultWeights]

theorem Weight.signal_mono {w : Weight} {x y : ℚ} (hweight : 0 ≤ w.weight) (hscale : 0 < w.scale) (h : x ≤ y) :
    (w.signal x).1 = (w.signal y).1 ∧ 0 ≤ (w.signal x).1 ∧ (w.signal x).2 ≤ (w.signal y).2 :=
  ⟨rfl, hweight, saturate_mono (div_le_div_of_nonneg_right h hscale.le)⟩

/-- **Monotonic on purpose.** -/
theorem abuseScore_mono {f f' : AbuseFeatures} {weights : AbuseWeights} {score score' : ℚ}
    (hweights : weights.Sensible) (hle : f.Le f') (h : abuseScore f weights = .ok score)
    (h' : abuseScore f' weights = .ok score') : score ≤ score' := by
  obtain ⟨htotal, rfl⟩ := abuseScore_ok_iff.mp h
  obtain ⟨-, rfl⟩ := abuseScore_ok_iff.mp h'
  obtain ⟨⟨hv, hp, hs, hc⟩, hv', hp', hs', hc'⟩ := hweights
  refine mean_mono ?_ htotal
  refine .cons (Weight.signal_mono hv hv' ?_) (.cons (Weight.signal_mono hp hp' ?_)
    (.cons (Weight.signal_mono hs hs' ?_) (.cons (Weight.signal_mono hc hc' ?_) .nil)))
  · exact_mod_cast hle.velocity
  · exact_mod_cast hle.passengerFanout
  · exact_mod_cast hle.seatFanout
  · exact hle.cancelRatio

/-! ## One actor who never cancels -/

/-- Four weights of four in all. -/
theorem total_default (features : AbuseFeatures) : total (signals features defaultWeights) = 4 := by
  norm_num [total, signals, Weight.signal, defaultWeights]

theorem abuseScore_default (features : AbuseFeatures) :
    abuseScore features defaultWeights = .ok (mean (signals features defaultWeights)) :=
  abuseScore_ok_iff.mpr ⟨by rw [total_default]; norm_num, rfl⟩

/-- With both free signals saturated, one passenger id and no cancel, the score is 0.575. -/
theorem score_saturated {velocity seatFanout : Int} (hvelocity : 10 ≤ velocity) (hseats : 6 ≤ seatFanout) :
    abuseScore ⟨velocity, 1, seatFanout, 0⟩ defaultWeights = .ok (23 / 40) := by
  have hv : saturate ((velocity : ℚ) / 10) = 1 := by
    refine saturate_of_le ((one_le_div (by norm_num)).mpr ?_)
    exact_mod_cast hvelocity
  have hs : saturate ((seatFanout : ℚ) / 6) = 1 := by
    refine saturate_of_le ((one_le_div (by norm_num)).mpr ?_)
    exact_mod_cast hseats
  have hp : saturate (1 / 5) = 1 / 5 := saturate_of_mem (by norm_num) (by norm_num)
  have hc : saturate 0 = 0 := saturate_of_mem (le_refl 0) (by norm_num)
  rw [abuseScore_default, mean, total_default]
  norm_num [weighted, signals, Weight.signal, defaultWeights, hv, hs, hp, hc]

/-- **One passenger id and no cancel never score above 0.575.** -/
theorem score_of_one_actor {velocity seatFanout : Int} {score : ℚ}
    (h : abuseScore ⟨velocity, 1, seatFanout, 0⟩ defaultWeights = .ok score) : score ≤ 23 / 40 := by
  -- the score of at least these bookings and seats, but saturated
  have htop := score_saturated (le_max_right velocity 10) (le_max_right seatFanout 6)
  have hle : AbuseFeatures.Le ⟨velocity, 1, seatFanout, 0⟩ ⟨max velocity 10, 1, max seatFanout 6, 0⟩ :=
    ⟨le_max_left _ _, le_refl _, le_max_left _ _, le_refl _⟩
  exact abuseScore_mono defaultWeights_sensible hle h htop

end SlrBooking
