import SlrBooking.Domain.Standing

/-!
# `Domain.BestFit` — what the choice of the hidden seat leaves for later legs

`chooseSeat` is the scan for the first fullest seat. Filling it keeps the seats with no leg at all free; it
does not keep the longest block of free hops, which may lie on the fullest seat.

## Contents
- `chooseSeat_some_iff`, `chooseSeat_none_iff`: the seat chosen.
- `freeSeats_placeOn`, `chooseSeat_freeSeats`: no other choice leaves more seats wholly free.
- `leaves_blocks_iff`: when a choice leaves as long a block as every other.
- `chooseSeat_leaves`; `chooseSeat_cuts_longest` is a pool where the longest block is lost.
-/

namespace SlrBooking

open Theory

/-! ## Blocks of free hops -/

/-- The pool with `leg` placed on seat `i`. -/
def placeOn (seats : List (List Leg)) (i : Nat) (leg : Leg) : List (List Leg) := seats.modify i (· ++ [leg])

/-- The leg fits on seat `i`. -/
def Feasible (seats : List (List Leg)) (leg : Leg) (i : Nat) : Prop :=
  ∃ seatLegs, seats[i]? = some seatLegs ∧ FreeOver leg seatLegs

/-- The seat has `k` consecutive free hops on a line of `hops`. -/
def HasBlock (hops k : Nat) (seatLegs : List Leg) : Prop :=
  ∃ start < hops + 1, start + k ≤ hops ∧ FreeFrom seatLegs start (start + k)

instance (hops k : Nat) (seatLegs : List Leg) : Decidable (HasBlock hops k seatLegs) :=
  inferInstanceAs (Decidable (∃ start < hops + 1, _))

/-- Some seat of the pool has `k` consecutive free hops. -/
def PoolBlock (hops k : Nat) (seats : List (List Leg)) : Prop := ∃ seatLegs ∈ seats, HasBlock hops k seatLegs

instance (hops k : Nat) (seats : List (List Leg)) : Decidable (PoolBlock hops k seats) :=
  inferInstanceAs (Decidable (∃ seatLegs ∈ seats, _))

/-- No other seat the leg fits on would leave a longer block than seat `i` does. -/
def LeavesLongest (hops : Nat) (seats : List (List Leg)) (leg : Leg) (i : Nat) : Prop :=
  ∀ j, Feasible seats leg j → ∀ k, PoolBlock hops k (placeOn seats j leg) → PoolBlock hops k (placeOn seats i leg)

/-- Seat `i` alone has `k` free hops in a row, the leg cuts them, and the leg fits elsewhere too. -/
def CutsOnly (hops : Nat) (seats : List (List Leg)) (leg : Leg) (i : Nat) : Prop :=
  (∃ j, j ≠ i ∧ Feasible seats leg j) ∧
    ∃ k seatLegs, seats[i]? = some seatLegs ∧ HasBlock hops k seatLegs ∧ ¬ HasBlock hops k (seatLegs ++ [leg]) ∧
      ∀ m other, m ≠ i → seats[m]? = some other → ¬ HasBlock hops k other

/-- The seats with no leg. -/
def freeSeats (seats : List (List Leg)) : Nat := seats.countP List.isEmpty

/-! ## The seat chosen -/

/-- The key of the scan: the seats the leg fits on, the fullest first. -/
def fitKey (leg : Leg) (seatLegs : List Leg) : Option Int :=
  if seatLegs.any fun existing => leg.overlaps existing then none else some (-occupiedSpan seatLegs)

/-- The loop's two variables, of the best entry of the scan. -/
def bestOf : Option (Int × Nat) → Option Nat × Int
  | none => (none, -1)
  | some (k, idx) => (some idx, -k)

theorem chooseSeatFrom_eq_scan (leg : Leg) : ∀ (seats : List (List Leg)) (idx : Nat) (best : Option (Int × Nat)),
    chooseSeatFrom leg idx seats (bestOf best) = bestOf (firstLeast (fitKey leg) idx seats best) := by
  intro seats
  induction seats with
  | nil =>
      intro idx best
      simp [chooseSeatFrom, firstLeast]
  | cons ls seats ih =>
      intro idx best
      simp only [chooseSeatFrom, firstLeast, fitKey]
      by_cases hover : (ls.any fun existing => leg.overlaps existing) = true
      · simp only [hover, if_true]
        exact ih (idx + 1) best
      · have hbetter : occupiedSpan ls > (bestOf best).2 ↔
            (best.all fun b => decide (-occupiedSpan ls < b.1)) = true := by
          have hspan := occupiedSpan_nonneg ls
          cases best with
          | none =>
              simp only [bestOf, Option.all_none, iff_true]
              omega
          | some b =>
              simp only [bestOf, Option.all_some, decide_eq_true_eq]
              omega
        simp only [hover, Bool.false_eq_true, if_false]
        by_cases hall : (best.all fun b => decide (-occupiedSpan ls < b.1)) = true
        · rw [if_pos (hbetter.mpr hall), if_pos hall, ← ih (idx + 1) (some (-occupiedSpan ls, idx))]
          simp [bestOf]
        · rw [if_neg (mt hbetter.mp hall), if_neg hall]
          exact ih (idx + 1) best

section Choice

variable {seats : List (List Leg)} {leg : Leg}

theorem fitKey_some_iff {seatLegs : List Leg} {k : Int} :
    fitKey leg seatLegs = some k ↔ FreeOver leg seatLegs ∧ k = -occupiedSpan seatLegs := by
  unfold fitKey FreeOver
  by_cases hover : (seatLegs.any fun existing => leg.overlaps existing) = true
  · simp only [hover, if_true, reduceCtorEq, false_iff, not_and]
    intro hfree
    obtain ⟨b, hb, hb'⟩ := List.any_eq_true.mp hover
    rw [hfree b hb] at hb'
    cases hb'
  · have hfree : ∀ b ∈ seatLegs, leg.overlaps b = false := by simpa using hover
    simp only [hover, Bool.false_eq_true, if_false, Option.some.injEq]
    constructor
    · intro hk
      exact ⟨hfree, hk.symm⟩
    · rintro ⟨-, hk⟩
      exact hk.symm

/-- **The seat chosen.** The leg fits on it; no seat the leg fits on is fuller, and none before it as full. -/
theorem chooseSeat_some_iff {i : Nat} : chooseSeat seats leg = some i ↔
    ∃ seatLegs, seats[i]? = some seatLegs ∧ FreeOver leg seatLegs ∧
      ∀ j other, seats[j]? = some other → FreeOver leg other →
        occupiedSpan other < occupiedSpan seatLegs ∨ occupiedSpan other = occupiedSpan seatLegs ∧ i ≤ j := by
  have hscan : chooseSeat seats leg = some i ↔ ∃ k, IsFirst (fitKey leg) seats (k, i) := by
    simp only [← firstLeast_some_iff]
    have hrun := chooseSeatFrom_eq_scan leg seats 0 none
    unfold chooseSeat
    rw [show ((none : Option Nat), (-1 : Int)) = bestOf none from rfl, hrun]
    cases firstLeast (fitKey leg) 0 seats none with
    | none => simp [bestOf]
    | some r => simp [bestOf, Prod.ext_iff]
  rw [hscan]
  constructor
  · rintro ⟨k, ⟨ls, hls, hkey⟩, hfirst⟩
    obtain ⟨hfree, hk⟩ := fitKey_some_iff.mp hkey
    refine ⟨ls, hls, hfree, fun j other hother hfree' => ?_⟩
    have hbeats := hfirst (-occupiedSpan other, j) ⟨other, hother, fitKey_some_iff.mpr ⟨hfree', rfl⟩⟩
    rcases hbeats with hlt | ⟨heq, hle⟩
    · exact Or.inl (by simp only at hk hlt; omega)
    · exact Or.inr ⟨by simp only at hk heq; omega, hle⟩
  · rintro ⟨ls, hls, hfree, hfullest⟩
    refine ⟨-occupiedSpan ls, ⟨ls, hls, fitKey_some_iff.mpr ⟨hfree, rfl⟩⟩, ?_⟩
    rintro ⟨k, j⟩ ⟨other, hother, hkey⟩
    obtain ⟨hfree', hk⟩ := fitKey_some_iff.mp hkey
    rcases hfullest j other hother hfree' with hlt | ⟨heq, hle⟩
    · exact Or.inl (by simp only at hk ⊢; omega)
    · exact Or.inr ⟨by simp only at hk ⊢; omega, hle⟩

/-- None is chosen exactly when every seat has a leg over the asked one. -/
theorem chooseSeat_none_iff :
    chooseSeat seats leg = none ↔ ∀ seatLegs ∈ seats, ∃ b ∈ seatLegs, leg.overlaps b = true := by
  constructor
  · exact chooseSeat_none
  · intro hover
    cases hchosen : chooseSeat seats leg with
    | none => rfl
    | some i =>
        obtain ⟨ls, hls, hfree⟩ := chooseSeat_some hchosen
        obtain ⟨b, hb, hb'⟩ := hover ls (List.mem_of_getElem? hls)
        rw [hfree b hb] at hb'
        cases hb'

/-! ## The seats left wholly free -/

theorem occupiedSpan_pos {seatLegs : List Leg} (h : seatLegs ≠ []) : 0 < occupiedSpan seatLegs := by
  cases seatLegs with
  | nil => exact absurd rfl h
  | cons l ls =>
      have hl := l.moves_forward
      have hls := occupiedSpan_nonneg ls
      simp only [occupiedSpan, List.map_cons, List.sum_cons, Leg.length] at hls ⊢
      omega

/-- Placing a leg takes one wholly free seat, when it is placed on one. -/
theorem freeSeats_placeOn (leg : Leg) {i : Nat} {seatLegs : List Leg} (h : seats[i]? = some seatLegs) :
    freeSeats (placeOn seats i leg) + (if seatLegs.isEmpty then 1 else 0) = freeSeats seats := by
  obtain ⟨hi, rfl⟩ := List.getElem?_eq_some_iff.mp h
  have hsplit : freeSeats seats = freeSeats (seats.take i ++ seats[i] :: seats.drop (i + 1)) := by simp
  rw [hsplit]
  unfold freeSeats placeOn
  rw [List.modify_eq_take_cons_drop hi]
  have htaken : (seats[i] ++ [leg]).isEmpty = false := by simp
  simp only [List.countP_append, List.countP_cons, htaken, Bool.false_eq_true, if_false]
  omega

/-- **Filling the fullest seat.** No other seat the leg fits on would leave more seats wholly free. -/
theorem chooseSeat_freeSeats {i j : Nat} (h : chooseSeat seats leg = some i) (hj : Feasible seats leg j) :
    freeSeats (placeOn seats j leg) ≤ freeSeats (placeOn seats i leg) := by
  obtain ⟨ls, hls, -, hfullest⟩ := chooseSeat_some_iff.mp h
  obtain ⟨other, hother, hfree⟩ := hj
  have hafter := freeSeats_placeOn leg hls
  have hafter' := freeSeats_placeOn leg hother
  -- a wholly free seat is chosen only when the leg fits on no other kind
  by_cases hempty : ls = []
  · have hnone : other = [] := by
      by_contra hne
      have hpos := occupiedSpan_pos hne
      have hzero : occupiedSpan ls = 0 := by simp [hempty, occupiedSpan]
      rcases hfullest j other hother hfree with hlt | ⟨heq, -⟩ <;> omega
    simp only [hempty, hnone, List.isEmpty_nil, if_true] at hafter hafter'
    omega
  · simp only [List.isEmpty_iff, hempty, if_false] at hafter
    split at hafter' <;> omega

/-! ## The longest block -/

theorem HasBlock.of_append {hops k : Nat} {seatLegs : List Leg} (h : HasBlock hops k (seatLegs ++ [leg])) :
    HasBlock hops k seatLegs := by
  obtain ⟨start, hlt, hle, hfree⟩ := h
  exact ⟨start, hlt, hle, fun b hb => hfree b (List.mem_append_left _ hb)⟩

theorem placeOn_getElem (i m : Nat) :
    (placeOn seats i leg)[m]? = seats[m]?.map fun ls => if m = i then ls ++ [leg] else ls := by
  simp only [placeOn, List.getElem?_modify]
  by_cases hm : m = i
  · simp [hm]
  · cases seats[m]? <;> simp [hm, Ne.symm hm]

theorem poolBlock_placeOn_iff {hops k i : Nat} : PoolBlock hops k (placeOn seats i leg) ↔
    ∃ m seatLegs, seats[m]? = some seatLegs ∧ HasBlock hops k (if m = i then seatLegs ++ [leg] else seatLegs) := by
  unfold PoolBlock
  constructor
  · rintro ⟨_, hmem, hblock⟩
    obtain ⟨m, hm⟩ := List.mem_iff_getElem?.mp hmem
    rw [placeOn_getElem, Option.map_eq_some_iff] at hm
    obtain ⟨ls, hls, rfl⟩ := hm
    exact ⟨m, ls, hls, hblock⟩
  · rintro ⟨m, ls, hls, hblock⟩
    refine ⟨_, List.mem_of_getElem? (i := m) ?_, hblock⟩
    rw [placeOn_getElem, hls, Option.map_some]

/-- **When a choice leaves as long a block as every other.** Always, but for the seat that alone had it. -/
theorem leaves_blocks_iff {hops i : Nat} : LeavesLongest hops seats leg i ↔ ¬ CutsOnly hops seats leg i := by
  constructor
  · rintro hleaves ⟨⟨j, hji, hj⟩, k, ls, hls, hblock, hcut, halone⟩
    have hother : PoolBlock hops k (placeOn seats j leg) :=
      poolBlock_placeOn_iff.mpr ⟨i, ls, hls, by rwa [if_neg (Ne.symm hji)]⟩
    obtain ⟨m, other, hm, hleft⟩ := poolBlock_placeOn_iff.mp (hleaves j hj k hother)
    split at hleft
    · rename_i hmi
      rw [hmi, hls] at hm
      exact hcut (Option.some.inj hm ▸ hleft)
    · rename_i hmi
      exact halone m other hmi hm hleft
  · intro hnot j hj k hblock
    by_contra hlost
    have hunplaced : ∀ m other, m ≠ i → seats[m]? = some other → ¬ HasBlock hops k other := by
      intro m other hmi hm hother
      exact hlost (poolBlock_placeOn_iff.mpr ⟨m, other, hm, by rwa [if_neg hmi]⟩)
    obtain ⟨m, ls, hm, hleft⟩ := poolBlock_placeOn_iff.mp hblock
    have hwas : HasBlock hops k ls := by
      split at hleft
      · exact hleft.of_append
      · exact hleft
    by_cases hmi : m = i
    · rw [hmi] at hm
      have hcut : ¬ HasBlock hops k (ls ++ [leg]) := fun hkept =>
        hlost (poolBlock_placeOn_iff.mpr ⟨i, ls, hm, by rwa [if_pos rfl]⟩)
      have hji : j ≠ i := fun he => hlost (he ▸ hblock)
      exact hnot ⟨⟨j, hji, hj⟩, k, ls, hm, hwas, hcut, hunplaced⟩
    · exact hunplaced m ls hmi hm hwas

end Choice

/-- **The seat chosen and what it leaves.** None exactly when every seat has a leg over the asked one;
    otherwise the fullest seat the leg fits on, the lowest on equal spans. No other choice leaves more seats
    wholly free, and none a longer block of free hops, unless the seat chosen alone had it and loses it. -/
theorem chooseSeat_leaves (hops : Nat) (seats : List (List Leg)) (leg : Leg) :
    (chooseSeat seats leg = none ↔ ∀ seatLegs ∈ seats, ∃ b ∈ seatLegs, leg.overlaps b = true) ∧
    ∀ i, chooseSeat seats leg = some i →
      (∃ seatLegs, seats[i]? = some seatLegs ∧ FreeOver leg seatLegs ∧
        ∀ j other, seats[j]? = some other → FreeOver leg other →
          occupiedSpan other < occupiedSpan seatLegs ∨ occupiedSpan other = occupiedSpan seatLegs ∧ i ≤ j) ∧
      (∀ j, Feasible seats leg j → freeSeats (placeOn seats j leg) ≤ freeSeats (placeOn seats i leg)) ∧
      (LeavesLongest hops seats leg i ↔ ¬ CutsOnly hops seats leg i) := by
  refine ⟨chooseSeat_none_iff, fun i h => ⟨chooseSeat_some_iff.mp h, fun j hj => ?_, leaves_blocks_iff⟩⟩
  exact chooseSeat_freeSeats h hj

/-- Ten hops; seat 0 carries the first three, seat 1 two in the middle. The leg over hop 6 goes to the fuller
    seat 0 and cuts its seven free hops; seat 1 would have left them. -/
theorem chooseSeat_cuts_longest :
    ∃ seats : List (List Leg), ∃ leg : Leg, (∀ ls ∈ seats, OverlapFree ls ∧ ∀ b ∈ ls, b.destSeq ≤ 10) ∧
      leg.destSeq ≤ 10 ∧ chooseSeat seats leg = some 0 ∧ ¬ LeavesLongest 10 seats leg 0 := by
  refine ⟨[[⟨0, 3, by decide, by decide⟩], [⟨4, 6, by decide, by decide⟩]], ⟨6, 7, by decide, by decide⟩,
    by decide, by decide, by decide, fun hleaves => ?_⟩
  have hblock := hleaves 1 ⟨_, rfl, by simp [FreeOver, Leg.overlaps]⟩ 7 (by decide)
  exact absurd hblock (by decide)

end SlrBooking
