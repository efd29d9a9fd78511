import SlrBooking.Runs.NoDoubleBooking

/-!
# `Runs.FailingCalls` — when a call that raises has had no effect

The booking calls check a leg against the line's stations and assemble the receipt from the train's stops,
and they assemble it after the commit. On a train that passes one end of the leg, a confirm or a sale
charges, commits and then raises.

## Contents
- `NoEffectOnError`: the property, for one call on one store.
- `ReceiptPrints`: the condition on the call and the store before it.
- `confirm_failing`, `sell_failing`: the calls that charge.
- `failing_call_iff`: on every reachable store the property holds exactly under the condition.
- `confirm_on_skipped_station`: a run on which it fails.
-/

namespace SlrBooking

open Theory Rows

/-! ## The law

A call that raises has failed as a whole: the store is what it was, and no charge was accepted. What follows the
charge is the write, the commit and the receipt, in this order, so the receipt may still fail when everything has been
written. -/

/-- The calls that take a seat, give one back, or take money. -/
def Call.books : Call → Bool
  | .hold .. | .confirm .. | .cancel .. | .sell .. => true
  | _ => false

/-- If the call raises, the store is what it was and no charge was accepted. -/
def NoEffectOnError (w : World) (r : Request) : Prop :=
  (∃ e, (w.serve r).1 = .error e) → World.Same w (w.serve r).2

/-- A call that gets as far as an accepted charge is for a leg its train serves at both ends; a standing
    ticket meets no active booking of a seat without a name. -/
def ReceiptPrints (w : World) (r : Request) : Prop :=
  match r.call with
  | .confirm id => ∀ hold trip, ConfirmCharged r.gateway w r.deps.now id hold trip →
      serves trip.stops hold.leg = true
  | .sell t leg p _ c ref => replayed w.holds ref = none → ∀ a, SaleCharged r.deps r.gateway w t leg p c ref a →
      serves a.trip.stops leg = true ∧ (a.seat = none → ∀ e ∈ MemoryRepo.activeForSeat (w.swept r.deps.now) t "",
        e.bookingId ≠ r.deps.newId → e.leg.overlaps leg = false)
  | _ => True

/-! ## When a receipt prints -/

theorem validateLeg_ok {trip : Trip} {leg : Leg} (h : validateLeg trip leg = .ok ()) :
    leg.originSeq ∈ trip.stations.map (·.seq) ∧ leg.destSeq ∈ trip.stations.map (·.seq) := by
  unfold validateLeg at h
  dsimp only at h
  split at h
  · assumption
  · cases h

/-- A call that wrote after an accepted charge did have an effect. -/
theorem not_same_of_charge {w w' : World} {holds : List Hold} {m : String × Money}
    (h : World.Wrote w w' holds [m]) : ¬ World.Same w w' := by
  intro hs
  have hlen := congrArg List.length (h.accepted.symm.trans hs.accepted)
  simp at hlen

/-- The receipt of a seated or existing booking on the line: printed exactly when the train serves the leg. -/
theorem receiptFor_ok_iff {trip : Trip} (hold : Hold) (issuedAt : Int)
    (hleg : validateLeg trip hold.leg = .ok ()) :
    (∃ rc, receiptFor hold trip issuedAt = .ok rc) ↔ serves trip.stops hold.leg = true := by
  unfold receiptFor
  rw [buildReceipt_ok_iff]
  obtain ⟨ho, hd⟩ := validateLeg_ok hleg
  exact ⟨fun h => h.1, fun h => ⟨h, ho, hd, none, rfl⟩⟩

/-! ## A sale after its charge

A seat that was chosen is still free at the insert, and the advice of a standing ticket names stations the train has.
-/

section Sale

variable {deps : Deps} {holds : List Hold} {trips : List Trip} {t p : String} {leg : Leg} {c : TravelClass}
  {a : Admission}

/-- What the seat assignment of an admitted sale is. -/
theorem Admits.assignment (ha : Admits deps holds trips t leg p c a) :
    (∃ i, chooseSeat (poolLegsOf holds t a.pool) leg = some i ∧ a.seat = a.pool[i]? ∧ a.offer = none) ∨
    (chooseSeat (poolLegsOf holds t a.pool) leg = none ∧ a.seat = none ∧
      a.offer = bestOffer leg 0 (poolLegsOf holds t a.pool) none) := by
  have h := ha.assigned
  unfold seatAssignment at h
  dsimp only at h
  split at h
  · rename_i i hi
    obtain ⟨hs, ho⟩ := Prod.mk.inj (Except.ok.inj h)
    exact Or.inl ⟨i, hi, hs.symm, ho.symm⟩
  · rename_i hnone
    split at h
    · cases h
    · obtain ⟨hs, ho⟩ := Prod.mk.inj (Except.ok.inj h)
      exact Or.inr ⟨hnone, hs.symm, ho.symm⟩

theorem poolLegsOf_get {pool : List Seat} {i : Nat} {legs : List Leg}
    (h : (poolLegsOf holds t pool)[i]? = some legs) :
    ∃ seat, pool[i]? = some seat ∧ legs = (MemoryRepo.activeForSeat holds t seat.seatId).map (·.leg) := by
  simp only [poolLegsOf, List.getElem?_map, Option.map_eq_some_iff] at h
  obtain ⟨seat, hseat, rfl⟩ := h
  exact ⟨seat, hseat, rfl⟩

/-- **A chosen seat is still free at the insert.** -/
theorem Admits.seated_fits (ha : Admits deps holds trips t leg p c a) {seat : Seat} (hseat : a.seat = some seat)
    {hold : Hold} (ht : hold.tripId = t) (hs : hold.seatId = seat.seatId) (hl : hold.leg = leg) {e : Err} :
    MemoryRepo.addHold holds hold ≠ .error e := by
  intro herr
  obtain ⟨existing, hmem, -, hover⟩ := MemoryRepo.addHold_error herr
  rcases ha.assignment with ⟨i, hi, hget, -⟩ | ⟨-, hnone, -⟩
  · obtain ⟨legs, hlegs, hfree⟩ := chooseSeat_some hi
    obtain ⟨seat', hseat', rfl⟩ := poolLegsOf_get hlegs
    obtain rfl : seat = seat' := Option.some.inj ((hseat.symm.trans hget).trans hseat')
    rw [ht, hs] at hmem
    have := hfree existing.leg (List.mem_map_of_mem hmem)
    rw [Leg.overlaps_comm, ← hl, hover] at this
    cases this
  · rw [hseat] at hnone
    cases hnone

/-- **The standing advice of an admitted sale resolves**: a seat frees where a stored leg ends. -/
theorem Admits.advice_ok (ha : Admits deps holds trips t leg p c a)
    (honLine : ∀ h ∈ holds, ∃ trip, MemoryRepo.getTrip trips h.tripId = .ok trip ∧ validateLeg trip h.leg = .ok ()) :
    ∃ adv, standingAdvice a.trip a.pool a.offer = .ok adv := by
  rcases ha.assignment with ⟨-, -, -, hnone⟩ | ⟨hchoose, -, hoffer⟩
  · rw [hnone]
    exact ⟨none, rfl⟩
  · cases hbest : bestOffer leg 0 (poolLegsOf holds t a.pool) none with
    | none =>
        rw [hoffer, hbest]
        exact ⟨none, rfl⟩
    | some o =>
        rw [hoffer, hbest]
        rcases bestOffer_some hbest with h | ⟨j, legs, hj, hlegs, hfrees⟩
        · cases h
        · rw [Nat.zero_add] at hj
          obtain ⟨seat, hseat, rfl⟩ := poolLegsOf_get hlegs
          -- every seat of the pool is taken somewhere on the leg, so this one frees at the end of a stored leg
          obtain ⟨b, hb, hover⟩ := chooseSeat_none hchoose _ (List.mem_of_getElem? hlegs)
          obtain ⟨ho, hd⟩ := Leg.overlaps_iff.mp hover
          have hblock : b ∈ blocking ((MemoryRepo.activeForSeat holds t seat.seatId).map (·.leg)) leg.originSeq
              leg.destSeq := mem_blocking.mpr ⟨hb, hd, ho⟩
          rcases freesForRemainder_some hfrees with ⟨hnil, -⟩ | ⟨⟨b', hb', hboard⟩, -⟩
          · rw [hnil] at hblock
            cases hblock
          · obtain ⟨h, hh, rfl⟩ := List.mem_map.mp (mem_blocking.mp hb').1
            obtain ⟨hstored, htrip, -, -⟩ := MemoryRepo.mem_activeForSeat.mp hh
            obtain ⟨trip, hget, hleg⟩ := honLine h hstored
            rw [htrip, ha.found] at hget
            obtain rfl := Except.ok.inj hget
            obtain ⟨station, hstation⟩ := stationAt_ok_iff.mpr (validateLeg_ok hleg).2
            refine ⟨some ⟨o.boardSeq, station.name, seatLabel seat⟩, ?_⟩
            simp only [standingAdvice, hboard, hstation, hj, hseat]
            rfl

end Sale

theorem onLine_swept {w : World} (ho : OnLine w) (now : Int) :
    ∀ h ∈ w.swept now, ∃ trip, MemoryRepo.getTrip w.trips h.tripId = .ok trip ∧ validateLeg trip h.leg = .ok () := by
  intro h hh
  obtain ⟨h₀, hh₀, rfl⟩ := mem_swept.mp hh
  obtain ⟨ht, -, hl, -⟩ := (moved_retire now h₀).place
  rw [ht, hl]
  exact ho h₀ hh₀

/-! ## The calls that may fail late -/

section Each

variable {w : World} {deps : Deps} {g : Gateway}

/-- A confirm that raises after its charge is for a leg the train does not serve. -/
theorem confirm_failing {id : String} (honLine : OnLine w) :
    NoEffectOnError w ⟨.confirm id, deps, g⟩ ↔ ReceiptPrints w ⟨.confirm id, deps, g⟩ := by
  rcases confirmBooking_outcome (World.block_pair g (confirmBooking deps id) w) with
    ⟨hno, -, h⟩ | ⟨hold, trip, hc, hr, h⟩
  · exact iff_of_true (fun _ => h) fun hold trip hc => absurd hc (hno hold trip)
  · obtain ⟨trip', htrip', hleg⟩ := honLine hold (lookup_some_mem hc.found)
    obtain rfl : trip = trip' := Except.ok.inj (hc.runs.symm.trans htrip')
    have hprint := receiptFor_ok_iff { hold with status := .confirmed } deps.now hleg
    constructor
    · intro heff hold' trip' hc'
      obtain rfl : hold = hold' := Option.some.inj (hc.found.symm.trans hc'.found)
      obtain rfl : trip = trip' := Except.ok.inj (hc.runs.symm.trans hc'.runs)
      refine hprint.mp ?_
      cases hrc : receiptFor { hold with status := .confirmed } trip deps.now with
      | ok rc => exact ⟨rc, rfl⟩
      | error e => exact absurd (heff ⟨e, hr.trans hrc⟩) (not_same_of_charge h)
    · rintro hserves ⟨e, he⟩
      obtain ⟨rc, hrc⟩ := hprint.mpr (hserves hold trip hc)
      cases (hr.trans hrc).symm.trans he

/-- A sale that raises after its charge prints no receipt, or its standing ticket was refused. -/
theorem sell_failing {t p n : String} {leg : Leg} {c : TravelClass} {ref : Option String} (honLine : OnLine w) :
    NoEffectOnError w ⟨.sell t leg p n c ref, deps, g⟩ ↔ ReceiptPrints w ⟨.sell t leg p n c ref, deps, g⟩ := by
  rcases sellUnreserved_outcome (World.block_pair g (sellUnreserved deps t leg p n c ref) w) with
    ⟨hrep, h⟩ | ⟨-, hno, -, h⟩ | ⟨hrep, a, hc, ⟨e, hadd, hr, h⟩ | ⟨holds, hadd, hr, h⟩⟩
  · exact iff_of_true (fun _ => h) fun hnone => absurd hnone hrep
  · exact iff_of_true (fun _ => h) fun _ a ha => absurd ha (hno a)
  · -- the insert was refused after the charge: only a standing ticket can be
    refine iff_of_false (fun heff => not_same_of_charge h (heff ⟨e, hr⟩)) fun hcond => ?_
    have hnone : a.seat = none := by
      cases hseat : a.seat with
      | none => rfl
      | some seat =>
          exact absurd hadd (hc.admitted.seated_fits hseat rfl (by simp [ticketOf, soldTicket, hseat]) rfl)
    obtain ⟨existing, hmem, hne, hover⟩ := MemoryRepo.addHold_error hadd
    have hfree := (hcond hrep a hc).2 hnone existing
      (by simpa [ticketOf, soldTicket, hnone] using hmem) hne
    cases hover.symm.trans hfree
  · obtain ⟨ho, hd⟩ := validateLeg_ok hc.admitted.onLine
    have hprint : (∃ rc, buildReceipt (ticketOf deps t leg p n c ref a) a.trip deps.now a.seat a.offer a.pool =
        .ok rc) ↔ serves a.trip.stops leg = true := by
      rw [buildReceipt_ok_iff]
      exact ⟨fun h => h.1, fun h => ⟨h, ho, hd, hc.admitted.advice_ok (onLine_swept honLine deps.now)⟩⟩
    constructor
    · intro heff _ a' hc'
      have hsame : a = a' := by
        have h₁ := (run_admitSale_ok_iff (g := g) (v := w.opened deps.now)).mpr hc.admitted
        have h₂ := (run_admitSale_ok_iff (g := g) (v := w.opened deps.now)).mpr hc'.admitted
        exact Except.ok.inj (h₁.symm.trans h₂)
      subst hsame
      refine ⟨hprint.mp ?_, fun hnone e he hne => ?_⟩
      · cases hrc : buildReceipt (ticketOf deps t leg p n c ref a) a.trip deps.now a.seat a.offer a.pool with
        | ok rc => exact ⟨rc, rfl⟩
        | error e => exact absurd (heff ⟨e, hr.trans hrc⟩) (not_same_of_charge h)
      · obtain ⟨hstored, htrip, hseat, hactive⟩ := MemoryRepo.mem_activeForSeat.mp he
        exact (MemoryRepo.addHold_ok hadd).2 e hstored htrip
          (hseat.trans (by simp [ticketOf, soldTicket, hnone])) hactive hne
    · rintro hcond ⟨e, he⟩
      obtain ⟨rc, hrc⟩ := hprint.mpr (hcond hrep a hc).1
      cases (hr.trans hrc).symm.trans he

end Each

/-- **A failing call has no effect, exactly when** a charged leg is one the train serves. -/
theorem failing_call_iff (trips : List Trip) (past : List Request) (r : Request) (hbooks : r.call.books = true) :
    NoEffectOnError ((World.start trips).after past) r ↔ ReceiptPrints ((World.start trips).after past) r := by
  obtain ⟨-, honLine⟩ := run_onLine trips past
  generalize (World.start trips).after past = w at honLine
  obtain ⟨call, deps, g⟩ := r
  cases call with
  | hold t s leg p n ref =>
      refine iff_of_true ?_ trivial
      rintro ⟨e, he⟩
      rcases holdSeat_outcome (World.block_pair g (holdSeat deps t s leg p n ref) w) with
        ⟨-, -, -, h⟩ | ⟨-, -, h⟩ | ⟨-, trip, seat, fare, ttl, holds, -, -, -, -, hr, -⟩
      · exact h
      · exact h
      · cases hr.symm.trans he
  | cancel id =>
      refine iff_of_true ?_ trivial
      rintro ⟨e, he⟩
      rcases cancelBooking_outcome (World.block_pair g (cancelBooking id) w) with ⟨-, h⟩ | ⟨hold, -, -, hr, -⟩
      · exact h
      · cases hr.symm.trans he
  | confirm id => exact confirm_failing honLine
  | sell t leg p n c ref => exact sell_failing honLine
  | verify _ => cases hbooks
  | search _ _ _ => cases hbooks
  | availability _ _ => cases hbooks
  | quote _ _ _ => cases hbooks

/-! ## A leg the train does not serve -/

/-- A seat held on the express over a hop it does not stop for. -/
def skippedHold : Request := ⟨.hold "express" "A1" firstHop "nic1" "Nimal" none, sampleDeps 0 "1", acceptAll⟩

def skippedConfirm : Request := ⟨.confirm "b1", sampleDeps 10 "2", acceptAll⟩

theorem failing_call_iff_sample : skippedConfirm.call.books = true ∧
    (NoEffectOnError ((World.start sampleTrips).after [skippedHold]) skippedConfirm ↔
      ReceiptPrints ((World.start sampleTrips).after [skippedHold]) skippedConfirm) :=
  ⟨rfl, failing_call_iff sampleTrips [skippedHold] skippedConfirm rfl⟩

/-- The confirm raises `InvalidLeg`, and the booking is CONFIRMED and charged. -/
theorem confirm_on_skipped_station :
    ((World.start sampleTrips).after [skippedHold]).raises skippedConfirm =
      some (.domain .invalidLeg "this train does not serve [0, 1)") ∧
    ((World.start sampleTrips).after [skippedHold, skippedConfirm]).holds.map (·.status) = [.confirmed] ∧
    ((World.start sampleTrips).after [skippedHold, skippedConfirm]).accepted = [("SLR-1", ⟨10000⟩)] ∧
    ¬ NoEffectOnError ((World.start sampleTrips).after [skippedHold]) skippedConfirm := by
  have hraises : ((World.start sampleTrips).after [skippedHold]).raises skippedConfirm =
      some (.domain .invalidLeg "this train does not serve [0, 1)") := by decide +kernel
  refine ⟨hraises, by decide +kernel, by decide +kernel, fun heff => ?_⟩
  have hsame := (heff ⟨_, World.raises_some hraises⟩).accepted
  exact absurd hsame (by decide +kernel)

end SlrBooking
