import SlrBooking.Domain.Packing
import SlrBooking.Theory.FirstLeast

/-!
# `Domain.Standing` — what the standing sweep promises each passenger of the queue

`FreeFrom`, `Boardable` and `Earliest` say what an offer should be, with no reference to the sweep; the seats
a passenger of the queue meets are `occupancyAfter` the offers before it.

## Contents
- `freesForRemainder_isLeast`, `freesForRemainder_none`: one seat.
- `bestOffer_some_iff`, `bestOffer_none_iff`: one passenger, over all the seats.
- `predict_ok`: the sweep never raises; `standingOffers` are its offers.
- `predictStandingSeats_sweep`: the whole queue.
- `lastOffer_eq_iff`: when the queue before a passenger changes nothing for it.
-/

namespace SlrBooking

open Theory

/-! ## What an offer is -/

/-- No leg of the seat lies over a hop of `[board, dest)`. -/
def FreeFrom (seatLegs : List Leg) (board dest : Int) : Prop :=
  ∀ b ∈ seatLegs, ¬ (b.originSeq < dest ∧ board < b.destSeq)

instance (seatLegs : List Leg) (board dest : Int) : Decidable (FreeFrom seatLegs board dest) :=
  inferInstanceAs (Decidable (∀ b ∈ seatLegs, _))

/-- The offered seat serves the rest of `leg` from the offered station. -/
def Boardable (seats : List (List Leg)) (leg : Leg) (s : SeatOffer) : Prop :=
  leg.originSeq ≤ s.boardSeq ∧ s.boardSeq < leg.destSeq ∧
    ∃ seatLegs, seats[s.seatIndex]? = some seatLegs ∧ FreeFrom seatLegs s.boardSeq leg.destSeq

/-- The least station, and at that station the lowest seat. -/
def Earliest (seats : List (List Leg)) (leg : Leg) (s : SeatOffer) : Prop :=
  Boardable seats leg s ∧ ∀ s', Boardable seats leg s' →
    s.boardSeq < s'.boardSeq ∨ s.boardSeq = s'.boardSeq ∧ s.seatIndex ≤ s'.seatIndex

/-- No two legs of the seat overlap. -/
def OverlapFree (seatLegs : List Leg) : Prop := seatLegs.Pairwise fun a b => a.overlaps b = false

instance (seatLegs : List Leg) : Decidable (OverlapFree seatLegs) := inferInstanceAs (Decidable (List.Pairwise ..))

/-- The seats once the offer is taken: it occupies `[boardSeq, dest)` of its seat. -/
def takeOffer (seats : List (List Leg)) (leg : Leg) : Option SeatOffer → List (List Leg)
  | none => seats
  | some s =>
    match Leg.make s.boardSeq leg.destSeq with
    | .ok taken => seats.modify s.seatIndex (· ++ [taken])
    | .error _ => seats

/-- The seats once every passenger of the queue took what was offered. -/
def occupancyAfter (seats : List (List Leg)) (served : List (Leg × Option SeatOffer)) : List (List Leg) :=
  served.foldl (fun occupancy p => takeOffer occupancy p.1 p.2) seats

/-! ## One seat -/

theorem foldl_max_le_iff {bound : Int} : ∀ (ds : List Int) (d : Int),
    ds.foldl max d ≤ bound ↔ ∀ x ∈ d :: ds, x ≤ bound
  | [], d => by simp
  | e :: es, d => by
      rw [List.foldl_cons, foldl_max_le_iff es (max d e)]
      simp only [List.forall_mem_cons, Int.max_le, and_assoc]

/-- From the passenger's origin on, the seat is free once the legs in the way have ended. -/
theorem freeFrom_iff {seatLegs : List Leg} {o b d : Int} (h : o ≤ b) :
    FreeFrom seatLegs b d ↔ ∀ x ∈ (blocking seatLegs o d).map (·.destSeq), x ≤ b := by
  simp only [FreeFrom, List.forall_mem_map, mem_blocking]
  constructor
  · rintro hfree l ⟨hl, hstart, -⟩
    have := hfree l hl
    omega
  · rintro hended l hl ⟨hstart, hover⟩
    have := hended l ⟨hl, hstart, by omega⟩
    omega

/-- **One seat.** The station found is the first from which the seat is free for the rest of the leg. -/
theorem freesForRemainder_isLeast {seatLegs : List Leg} {o d board : Int} (hlt : o < d) :
    freesForRemainder seatLegs o d = some board ↔
      IsLeast {b | o ≤ b ∧ b < d ∧ FreeFrom seatLegs b d} board := by
  have hleast : ∀ {x y : Int}, IsLeast {b | o ≤ b ∧ b < d ∧ FreeFrom seatLegs b d} x →
      (x = y ↔ IsLeast {b | o ≤ b ∧ b < d ∧ FreeFrom seatLegs b d} y) :=
    fun hx => ⟨fun he => he ▸ hx, fun hy => hx.unique hy⟩
  unfold freesForRemainder
  split
  · -- nothing stands in the way: the passenger boards at once
    rename_i hnil
    have hfree : ∀ b, o ≤ b → FreeFrom seatLegs b d := fun b hb => (freeFrom_iff hb).mpr (by simp [hnil])
    rw [Option.some.injEq]
    exact hleast ⟨⟨Int.le_refl o, hlt, hfree o (Int.le_refl o)⟩, fun b hb => hb.1⟩
  · rename_i x xs hcons
    have hended : ∀ b, o ≤ b → (FreeFrom seatLegs b d ↔ xs.foldl max x ≤ b) := by
      intro b hb
      rw [freeFrom_iff hb, hcons, foldl_max_le_iff]
    -- a leg in the way ends after the passenger's origin
    have hafter : o < xs.foldl max x := by
      have hmem := foldl_max_mem xs x
      rw [← hcons] at hmem
      obtain ⟨l, hl, hend⟩ := List.mem_map.mp hmem
      exact hend ▸ (mem_blocking.mp hl).2.2
    dsimp only
    split
    · rename_i hbefore
      rw [Option.some.injEq]
      apply hleast
      refine ⟨⟨Int.le_of_lt hafter, hbefore, (hended _ (Int.le_of_lt hafter)).mpr (Int.le_refl _)⟩, ?_⟩
      rintro b ⟨hb, -, hfree⟩
      exact (hended b hb).mp hfree
    · rename_i hlate
      simp only [reduceCtorEq, false_iff]
      rintro ⟨⟨hb, hd, hfree⟩, -⟩
      have := (hended board hb).mp hfree
      omega

/-- The seat serves no part of the leg exactly when it is occupied over the last hop. -/
theorem freesForRemainder_none {seatLegs : List Leg} {o d : Int} (hlt : o < d) :
    freesForRemainder seatLegs o d = none ↔ ∃ l ∈ seatLegs, l.contains (d - 1) = true := by
  have hcontains : ∀ l : Leg, l.contains (d - 1) = true ↔ l.originSeq < d ∧ d - 1 < l.destSeq := by
    intro l
    simp only [Leg.contains, Bool.and_eq_true, decide_eq_true_eq]
    omega
  constructor
  · intro hnone
    by_contra hfree
    push Not at hfree
    -- free over the last hop, the seat has a first station from which it is free
    have hlast : FreeFrom seatLegs (d - 1) d := fun l hl hover => hfree l hl ((hcontains l).mpr hover)
    have hends := (freeFrom_iff (show o ≤ d - 1 by omega)).mp hlast
    unfold freesForRemainder at hnone
    split at hnone
    · cases hnone
    · rename_i x xs hcons
      rw [hcons] at hends
      have hmax := (foldl_max_le_iff xs x).mpr hends
      dsimp only at hnone
      rw [if_pos (by omega)] at hnone
      cases hnone
  · rintro ⟨l, hl, hover⟩
    cases hsome : freesForRemainder seatLegs o d with
    | none => rfl
    | some board =>
        obtain ⟨⟨-, hboard, hfree⟩, -⟩ := (freesForRemainder_isLeast hlt).mp hsome
        have := (hcontains l).mp hover
        exact absurd ⟨this.1, by omega⟩ (hfree l hl)

/-! ## One passenger -/

/-- The inner loop of the sweep is the scan for the first least boarding station. -/
theorem bestOffer_eq_scan (leg : Leg) : ∀ (seats : List (List Leg)) (idx : Nat) (best : Option SeatOffer),
    bestOffer leg idx seats best =
      (firstLeast (fun ls => freesForRemainder ls leg.originSeq leg.destSeq) idx seats
        (best.map fun s => (s.boardSeq, s.seatIndex))).map fun r => ⟨r.1, r.2⟩ := by
  intro seats
  induction seats with
  | nil =>
      intro idx best
      cases best <;> simp [bestOffer, firstLeast]
  | cons ls seats ih =>
      intro idx best
      simp only [bestOffer, firstLeast]
      cases freesForRemainder ls leg.originSeq leg.destSeq with
      | none => exact ih (idx + 1) best
      | some board =>
          have hall : (best.map fun s => (s.boardSeq, s.seatIndex)).all (fun b => decide (board < b.1)) =
              best.all fun b => decide (board < b.boardSeq) := by
            cases best <;> simp
          simp only [hall]
          split
          · exact ih (idx + 1) (some ⟨board, idx⟩)
          · exact ih (idx + 1) best

section Passenger

variable {seats : List (List Leg)} {leg : Leg}

/-- Where a seat first frees, the offer of that seat can be boarded. -/
theorem boardable_of_keyAt {r : Int × Nat}
    (h : KeyAt (fun ls => freesForRemainder ls leg.originSeq leg.destSeq) seats r) :
    Boardable seats leg ⟨r.1, r.2⟩ := by
  obtain ⟨ls, hls, hkey⟩ := h
  obtain ⟨⟨h₁, h₂, hfree⟩, -⟩ := (freesForRemainder_isLeast leg.moves_forward).mp hkey
  exact ⟨h₁, h₂, ls, hls, hfree⟩

/-- An offer that can be boarded is on a seat that frees, no later than the offer says. -/
theorem Boardable.keyAt {s : SeatOffer} (h : Boardable seats leg s) :
    ∃ b ≤ s.boardSeq, KeyAt (fun ls => freesForRemainder ls leg.originSeq leg.destSeq) seats (b, s.seatIndex) := by
  obtain ⟨h₁, h₂, ls, hls, hfree⟩ := h
  cases hkey : freesForRemainder ls leg.originSeq leg.destSeq with
  | none =>
      obtain ⟨l, hl, hover⟩ := (freesForRemainder_none leg.moves_forward).mp hkey
      simp only [Leg.contains, Bool.and_eq_true, decide_eq_true_eq] at hover
      exact absurd ⟨by omega, by omega⟩ (hfree l hl)
  | some b =>
      have hleast := ((freesForRemainder_isLeast leg.moves_forward).mp hkey).2
      exact ⟨b, hleast ⟨h₁, h₂, hfree⟩, ls, hls, hkey⟩

/-- **One passenger.** The offer made is the earliest one. -/
theorem bestOffer_some_iff {s : SeatOffer} : bestOffer leg 0 seats none = some s ↔ Earliest seats leg s := by
  have hscan : bestOffer leg 0 seats none = some s ↔
      IsFirst (fun ls => freesForRemainder ls leg.originSeq leg.destSeq) seats (s.boardSeq, s.seatIndex) := by
    rw [bestOffer_eq_scan, Option.map_none, ← firstLeast_some_iff, Option.map_eq_some_iff]
    constructor
    · rintro ⟨r, hr, rfl⟩
      exact hr
    · intro hr
      exact ⟨_, hr, rfl⟩
  rw [hscan]
  constructor
  · rintro ⟨hkey, hfirst⟩
    refine ⟨boardable_of_keyAt hkey, fun s' hs' => ?_⟩
    obtain ⟨b, hb, hkey'⟩ := hs'.keyAt
    rcases hfirst _ hkey' with hlt | ⟨heq, hidx⟩
    · exact Or.inl (Int.lt_of_lt_of_le hlt hb)
    · have heq : s.boardSeq = b := heq
      rcases Int.lt_or_eq_of_le hb with hlt | hbeq
      · exact Or.inl (heq ▸ hlt)
      · exact Or.inr ⟨heq.trans hbeq, hidx⟩
  · rintro ⟨hboard, hearliest⟩
    obtain ⟨b, hb, hkey⟩ := hboard.keyAt
    -- the seat frees at the offered station, not before
    have hbeq : b = s.boardSeq := by
      rcases hearliest _ (boardable_of_keyAt hkey) with hlt | ⟨heq, -⟩
      · exact absurd hlt (Int.not_lt.mpr hb)
      · exact heq.symm
    exact ⟨hbeq ▸ hkey, fun r' hr' => hearliest _ (boardable_of_keyAt hr')⟩

/-- Nothing is offered exactly when every seat is occupied over the last hop. -/
theorem bestOffer_none_iff : bestOffer leg 0 seats none = none ↔
    ∀ seatLegs ∈ seats, ∃ l ∈ seatLegs, l.contains (leg.destSeq - 1) = true := by
  rw [bestOffer_eq_scan, Option.map_none, Option.map_eq_none_iff, firstLeast_none_iff]
  simp only [freesForRemainder_none leg.moves_forward]

theorem bestOffer_none_iff_not : bestOffer leg 0 seats none = none ↔ ∀ s, ¬ Boardable seats leg s := by
  constructor
  · intro hnone s hs
    obtain ⟨b, -, ls, hls, hkey⟩ := hs.keyAt
    obtain ⟨l, hl, hover⟩ := bestOffer_none_iff.mp hnone ls (List.mem_of_getElem? hls)
    have hnone' := (freesForRemainder_none leg.moves_forward).mpr ⟨l, hl, hover⟩
    exact absurd (hnone'.symm.trans hkey) (by simp)
  · intro hnot
    cases hbest : bestOffer leg 0 seats none with
    | none => rfl
    | some s => exact absurd (bestOffer_some_iff.mp hbest).1 (hnot s)

/-- The part of the leg an offer serves is a leg. -/
theorem Boardable.make {s : SeatOffer} (h : Boardable seats leg s) :
    ∃ taken, Leg.make s.boardSeq leg.destSeq = .ok taken ∧ taken.originSeq = s.boardSeq ∧
      taken.destSeq = leg.destSeq := by
  have h₀ := leg.origin_nonneg
  have hmake := Leg.make_of_lt (Int.le_trans h₀ h.1) h.2.1
  exact ⟨_, hmake, Leg.make_ok hmake⟩

end Passenger

/-! ## The queue -/

/-- The offers of the sweep, with no error to raise. -/
def standingOffers (seats : List (List Leg)) : List Leg → List (Option SeatOffer)
  | [] => []
  | leg :: queue =>
    bestOffer leg 0 seats none :: standingOffers (takeOffer seats leg (bestOffer leg 0 seats none)) queue

/-- **The sweep never raises.** -/
theorem predict_ok : ∀ (queue : List Leg) (seats : List (List Leg)),
    predictStandingSeats seats queue = .ok (standingOffers seats queue) := by
  intro queue
  induction queue with
  | nil => exact fun _ => rfl
  | cons leg queue ih =>
      intro seats
      unfold predictStandingSeats standingOffers
      cases hbest : bestOffer leg 0 seats none with
      | none => simp [takeOffer, ih, bind, Except.bind, pure, Except.pure]
      | some s =>
          obtain ⟨taken, hmake, -⟩ := (bestOffer_some_iff.mp hbest).1.make
          simp [takeOffer, hmake, ih, bind, Except.bind, pure, Except.pure]

theorem standingOffers_length : ∀ (queue : List Leg) (seats : List (List Leg)),
    (standingOffers seats queue).length = queue.length
  | [], _ => rfl
  | _ :: queue, _ => congrArg Nat.succ (standingOffers_length queue _)

/-- What follows in the queue changes no earlier offer. -/
theorem standingOffers_append : ∀ (queue later : List Leg) (seats : List (List Leg)),
    standingOffers seats (queue ++ later) = standingOffers seats queue ++
      standingOffers (occupancyAfter seats (queue.zip (standingOffers seats queue))) later
  | [], _, _ => rfl
  | leg :: queue, later, seats => by
      simp only [List.cons_append, standingOffers, List.zip_cons_cons, occupancyAfter, List.foldl_cons]
      rw [standingOffers_append queue later]
      rfl

/-- Each passenger gets the best offer over the seats as the passengers before it leave them. -/
theorem standingOffers_getElem : ∀ (queue : List Leg) (seats : List (List Leg)) (k : Nat) (leg : Leg),
    queue[k]? = some leg → (standingOffers seats queue)[k]? =
      some (bestOffer leg 0 (occupancyAfter seats ((queue.zip (standingOffers seats queue)).take k)) none)
  | first :: queue, seats, 0, leg, h => by
      obtain rfl : first = leg := by simpa using h
      simp [standingOffers, occupancyAfter]
  | first :: queue, seats, k + 1, leg, h => by
      have hrest := standingOffers_getElem queue (takeOffer seats first (bestOffer first 0 seats none)) k leg
        (by simpa using h)
      simp only [standingOffers, List.getElem?_cons_succ, List.zip_cons_cons, List.take_succ_cons,
        occupancyAfter, List.foldl_cons]
      exact hrest

/-- A seat after the offer: the legs it had, and the part taken when it is the seat offered. -/
theorem takeOffer_getElem {seats : List (List Leg)} {leg : Leg} {s : SeatOffer} {taken : Leg}
    (hmake : Leg.make s.boardSeq leg.destSeq = .ok taken) (i : Nat) :
    (takeOffer seats leg (some s))[i]? =
      seats[i]?.map fun ls => if i = s.seatIndex then ls ++ [taken] else ls := by
  simp only [takeOffer, hmake, List.getElem?_modify]
  by_cases hi : i = s.seatIndex
  · simp [hi]
  · cases seats[i]? <;> simp [hi, Ne.symm hi]

/-- A seat free over a part can take it. -/
theorem OverlapFree.snoc {seatLegs : List Leg} {taken : Leg} (h : OverlapFree seatLegs)
    (hfree : FreeFrom seatLegs taken.originSeq taken.destSeq) : OverlapFree (seatLegs ++ [taken]) := by
  refine List.pairwise_append.mpr ⟨h, List.pairwise_singleton .., fun a ha b hb => ?_⟩
  obtain rfl := List.mem_singleton.mp hb
  rw [← Bool.not_eq_true, Leg.overlaps_iff]
  exact hfree a ha

/-- Taking the best offer leaves no overlap. -/
theorem takeOffer_overlapFree {seats : List (List Leg)} {leg : Leg} (h : ∀ ls ∈ seats, OverlapFree ls) :
    ∀ ls ∈ takeOffer seats leg (bestOffer leg 0 seats none), OverlapFree ls := by
  cases hbest : bestOffer leg 0 seats none with
  | none => exact h
  | some s =>
      have hboard := (bestOffer_some_iff.mp hbest).1
      obtain ⟨taken, hmake, ho, hd⟩ := hboard.make
      intro ls hls
      obtain ⟨i, hi⟩ := List.mem_iff_getElem?.mp hls
      rw [takeOffer_getElem hmake, Option.map_eq_some_iff] at hi
      obtain ⟨before, hbefore, rfl⟩ := hi
      have hfree := h before (List.mem_of_getElem? hbefore)
      split
      · rename_i hseat
        obtain ⟨-, -, offered, hoffered, hfrom⟩ := hboard
        rw [hseat, hoffered] at hbefore
        obtain rfl := Option.some.inj hbefore
        exact hfree.snoc (by rwa [ho, hd])
      · exact hfree

theorem occupancyAfter_overlapFree : ∀ (queue : List Leg) (seats : List (List Leg)),
    (∀ ls ∈ seats, OverlapFree ls) →
    ∀ ls ∈ occupancyAfter seats (queue.zip (standingOffers seats queue)), OverlapFree ls
  | [], _, h => h
  | _ :: queue, _, h => occupancyAfter_overlapFree queue _ (takeOffer_overlapFree h)

/-- **The standing sweep.** It answers every queue; each passenger is offered the earliest seat over the seats
    as the offers before it leave them, or none when every seat is occupied over the last hop; no two
    legs of a seat overlap after all the offers; and a longer queue starts with the same offers. -/
theorem predictStandingSeats_sweep (seats : List (List Leg)) (queue : List Leg)
    (hseats : ∀ seatLegs ∈ seats, OverlapFree seatLegs) :
    ∃ offers, predictStandingSeats seats queue = .ok offers ∧ offers.length = queue.length ∧
      (∀ k leg offer, queue[k]? = some leg → offers[k]? = some offer →
        (∀ s, offer = some s ↔ Earliest (occupancyAfter seats ((queue.zip offers).take k)) leg s) ∧
        (offer = none ↔ ∀ seatLegs ∈ occupancyAfter seats ((queue.zip offers).take k),
          ∃ l ∈ seatLegs, l.contains (leg.destSeq - 1) = true)) ∧
      (∀ seatLegs ∈ occupancyAfter seats (queue.zip offers), OverlapFree seatLegs) ∧
      ∀ later, ∃ more, predictStandingSeats seats (queue ++ later) = .ok (offers ++ more) := by
  refine ⟨standingOffers seats queue, predict_ok queue seats, standingOffers_length queue seats, ?_,
    occupancyAfter_overlapFree queue seats hseats, ?_⟩
  · intro k leg offer hleg hoffer
    rw [standingOffers_getElem queue seats k leg hleg] at hoffer
    obtain rfl := Option.some.inj hoffer
    exact ⟨fun s => bestOffer_some_iff, bestOffer_none_iff⟩
  · intro later
    exact ⟨_, by rw [predict_ok, standingOffers_append]⟩

/-- Seat 1 frees one station before seat 0, and the first of the queue claims it. -/
theorem predictStandingSeats_sweep_two :
    ∃ offers, predictStandingSeats [[⟨0, 3, by decide, by decide⟩], [⟨0, 2, by decide, by decide⟩]]
        [⟨0, 4, by decide, by decide⟩, ⟨1, 4, by decide, by decide⟩] = .ok offers ∧ offers.length = 2 := by
  obtain ⟨offers, hoffers, hlength, -⟩ := predictStandingSeats_sweep
    [[⟨0, 3, by decide, by decide⟩], [⟨0, 2, by decide, by decide⟩]]
    [⟨0, 4, by decide, by decide⟩, ⟨1, 4, by decide, by decide⟩] (by decide)
  exact ⟨offers, hoffers, hlength⟩

/-! ## A queue that changes nothing for the next passenger -/

/-- Two passengers offered one seat over overlapping parts of their journeys. -/
def SharesSeat (leg : Leg) (s : SeatOffer) (leg' : Leg) (s' : SeatOffer) : Prop :=
  s.seatIndex = s'.seatIndex ∧ s.boardSeq < leg'.destSeq ∧ s'.boardSeq < leg.destSeq

/-- Taking an offer takes from a later passenger what shares the seat with it, and nothing else. -/
theorem boardable_takeOffer {seats : List (List Leg)} {leg leg' : Leg} {s s' : SeatOffer}
    (h : Boardable seats leg s) :
    Boardable (takeOffer seats leg (some s)) leg' s' ↔ Boardable seats leg' s' ∧ ¬ SharesSeat leg s leg' s' := by
  obtain ⟨taken, hmake, ho, hd⟩ := h.make
  have hsnoc : ∀ ls : List Leg, FreeFrom (ls ++ [taken]) s'.boardSeq leg'.destSeq ↔
      FreeFrom ls s'.boardSeq leg'.destSeq ∧ ¬ (s.boardSeq < leg'.destSeq ∧ s'.boardSeq < leg.destSeq) := by
    intro ls
    simp only [FreeFrom, List.forall_mem_append, List.forall_mem_singleton, ho, hd]
  unfold Boardable SharesSeat
  simp only [takeOffer_getElem hmake, Option.map_eq_some_iff]
  by_cases hseat : s'.seatIndex = s.seatIndex
  · simp only [hseat, if_true, true_and]
    constructor
    · rintro ⟨h₁, h₂, _, ⟨ls, hls, rfl⟩, hfree⟩
      exact ⟨⟨h₁, h₂, ls, hls, ((hsnoc ls).mp hfree).1⟩, ((hsnoc ls).mp hfree).2⟩
    · rintro ⟨⟨h₁, h₂, ls, hls, hfree⟩, hnot⟩
      exact ⟨h₁, h₂, _, ⟨ls, hls, rfl⟩, (hsnoc ls).mpr ⟨hfree, hnot⟩⟩
  · simp [hseat, Ne.symm hseat]

/-- What the passengers of a queue leave to the next one. -/
theorem boardable_after {leg' : Leg} {s' : SeatOffer} : ∀ (queue : List Leg) (seats : List (List Leg)),
    Boardable (occupancyAfter seats (queue.zip (standingOffers seats queue))) leg' s' ↔
      Boardable seats leg' s' ∧
        ∀ p ∈ queue.zip (standingOffers seats queue), ∀ s, p.2 = some s → ¬ SharesSeat p.1 s leg' s' := by
  intro queue
  induction queue with
  | nil => simp [occupancyAfter]
  | cons leg queue ih =>
      intro seats
      simp only [standingOffers, List.zip_cons_cons, occupancyAfter, List.foldl_cons, List.forall_mem_cons]
      refine (ih (takeOffer seats leg (bestOffer leg 0 seats none))).trans ?_
      cases hbest : bestOffer leg 0 seats none with
      | none => simp [takeOffer]
      | some s =>
          rw [boardable_takeOffer (bestOffer_some_iff.mp hbest).1, and_assoc]
          simp only [Option.some.injEq, forall_eq']

/-- The last offer of a queue is the best one over what the queue before leaves. -/
theorem standingOffers_last (seats : List (List Leg)) (queue : List Leg) (leg : Leg) :
    (standingOffers seats (queue ++ [leg])).getLast? =
      some (bestOffer leg 0 (occupancyAfter seats (queue.zip (standingOffers seats queue))) none) := by
  rw [standingOffers_append]
  simp [standingOffers]

/-- **When the queue changes nothing.** The sweep over the seats alone gives a passenger what it gives after
    the queue exactly when no one in the queue is offered a part of that seat. -/
theorem lastOffer_eq_iff {seats : List (List Leg)} {queue : List Leg} {leg : Leg} :
    bestOffer leg 0 (occupancyAfter seats (queue.zip (standingOffers seats queue))) none =
        bestOffer leg 0 seats none ↔
      ∀ s, Earliest seats leg s →
        ∀ p ∈ queue.zip (standingOffers seats queue), ∀ s', p.2 = some s' → ¬ SharesSeat p.1 s' leg s := by
  constructor
  · intro heq s hs
    rw [bestOffer_some_iff.mpr hs] at heq
    exact ((boardable_after queue seats).mp (bestOffer_some_iff.mp heq).1).2
  · intro hapart
    cases hbest : bestOffer leg 0 seats none with
    | none =>
        -- the queue leaves no more than there was
        apply bestOffer_none_iff_not.mpr
        intro s' hs'
        exact bestOffer_none_iff_not.mp hbest s' ((boardable_after queue seats).mp hs').1
    | some s =>
        have hfirst := bestOffer_some_iff.mp hbest
        apply bestOffer_some_iff.mpr
        refine ⟨(boardable_after queue seats).mpr ⟨hfirst.1, hapart s hfirst⟩, fun s' hs' => ?_⟩
        exact hfirst.2 s' ((boardable_after queue seats).mp hs').1

end SlrBooking
