import SlrBooking.Runs.Effects
import SlrBooking.Domain.Standing

/-!
# `Runs.StandingQueue` — the advice of the standing tickets of one pool, sold one at a time

The sweep is specified for a queue; the counter runs it for the passenger at the window alone. A run of sales
on one trip and class is followed with what its standing tickets were told so far.

## Contents
- `Sale`, `Stands`, `queueOffer`, `FollowsQueue`: the advice of every ticket is the queue's.
- `ClearOfQueue`: no ticket is sent to a seat that the queue gives in part to an earlier ticket.
- `stands_offer`: what a standing ticket is told. `advice_follows_queue`; `second_standee_told_the_same_seat`.
- `clearNow`: a test for one sale, by which `ClearOfQueue` is decided.
-/

namespace SlrBooking

open Theory Rows

/-! ## Sales of one pool -/

/-- A `sell_unreserved` call, its trip and class left open. -/
structure Sale where
  leg           : Leg
  passengerId   : String
  passengerName : String
  reference     : Option String
  deps          : Deps
  gateway       : Gateway

section Pool

variable (t : String) (c : TravelClass)

def Sale.request (s : Sale) : Request :=
  ⟨.sell t s.leg s.passengerId s.passengerName c s.reference, s.deps, s.gateway⟩

/-- The sale issues a new standing ticket and returns its receipt. -/
def Stands (w : World) (s : Sale) (receipt : Receipt) : Prop :=
  replayed w.holds s.reference = none ∧ (w.serve (s.request t c)).1 = .ok receipt ∧ receipt.status = .standing

/-- The seated legs of the pool when the sale reads them. -/
def seatedLegs (w : World) (s : Sale) (trip : Trip) : List (List Leg) :=
  poolLegsOf (w.swept s.deps.now) t (unreservedPool trip c)

/-- The legs of the live standing tickets of the pool, in the order of their sale, as the sale finds them after its
    sweep. -/
def standingQueue (w : World) (s : Sale) : List Leg :=
  ((MemoryRepo.byStatus (w.swept s.deps.now) t .standing).filter fun h => h.travelClass = c).map (·.leg)

/-- The last entry of the sweep over the queue and the new passenger: what `predict_standing_seats` would say if the
    counter asked it for the whole queue. -/
def queueOffer (w : World) (s : Sale) : Option SeatOffer :=
  match MemoryRepo.getTrip w.trips t with
  | .error _ => none
  | .ok trip =>
    match predictStandingSeats (seatedLegs t c w s trip) (standingQueue t c w s ++ [s.leg]) with
    | .ok offers => offers.getLast?.join
    | .error _ => none

/-- Whether the sale issues a new standing ticket. -/
def issuesStanding (w : World) (s : Sale) : Bool :=
  (replayed w.holds s.reference).isNone && match (w.serve (s.request t c)).1 with
    | .ok receipt => receipt.status = .standing
    | .error _ => false

/-- What the sale adds to the parts of seats that passengers were told to take; a sale that seats its passenger, or
    fails, adds none. -/
def newlyTold (w : World) (s : Sale) : List (Leg × SeatOffer) :=
  if issuesStanding t c w s then (queueOffer t c w s).toList.map fun o => (s.leg, o) else []

/-- The receipt prints the queue's offer. -/
def PrintsQueueOffer (w : World) (s : Sale) (receipt : Receipt) : Prop :=
  ∃ trip, MemoryRepo.getTrip w.trips t = .ok trip ∧
    standingAdvice trip (unreservedPool trip c) (queueOffer t c w s) = .ok receipt.standing

/-- Over a run of sales: every standing ticket prints the queue's offer, and shares no part of a seat with
    what an earlier one was told. -/
def FollowsQueue : World → List (Leg × SeatOffer) → List Sale → Prop
  | _, _, [] => True
  | w, told, s :: rest =>
    (∀ receipt, Stands t c w s receipt → PrintsQueueOffer t c w s receipt ∧
      ∀ o, queueOffer t c w s = some o → ∀ p ∈ told, ¬ SharesSeat p.1 p.2 s.leg o) ∧
    FollowsQueue (w.serve (s.request t c)).2 (told ++ newlyTold t c w s) rest

/-- Over a run of sales: the seat that first frees for the rest of a standing passenger's leg goes in no
    overlapping part to an earlier ticket, neither by the sweep over the queue as it stands nor by what that
    ticket was told. -/
def ClearOfQueue : World → List (Leg × SeatOffer) → List Sale → Prop
  | _, _, [] => True
  | w, told, s :: rest =>
    (∀ receipt, Stands t c w s receipt → ∀ trip, MemoryRepo.getTrip w.trips t = .ok trip →
      ∀ o, Earliest (seatedLegs t c w s trip) s.leg o →
        (∀ offers, predictStandingSeats (seatedLegs t c w s trip) (standingQueue t c w s) = .ok offers →
          ∀ p ∈ (standingQueue t c w s).zip offers, ∀ o', p.2 = some o' → ¬ SharesSeat p.1 o' s.leg o) ∧
        ∀ p ∈ told, ¬ SharesSeat p.1 p.2 s.leg o) ∧
    ClearOfQueue (w.serve (s.request t c)).2 (told ++ newlyTold t c w s) rest

end Pool

/-! ## One ticket -/

section Ticket

variable {t : String} {c : TravelClass} {w : World} {s : Sale} {receipt : Receipt}

/-- **What a standing ticket is told**: the best offer over the seated legs alone. -/
theorem stands_offer (h : Stands t c w s receipt) :
    ∃ trip, MemoryRepo.getTrip w.trips t = .ok trip ∧
      standingAdvice trip (unreservedPool trip c) (bestOffer s.leg 0 (seatedLegs t c w s trip) none) =
        .ok receipt.standing := by
  obtain ⟨hfresh, hok, hstanding⟩ := h
  rcases sellUnreserved_outcome (World.block_pair s.gateway
      (sellUnreserved s.deps t s.leg s.passengerId s.passengerName c s.reference) w) with
    ⟨hrep, -⟩ | ⟨-, -, ⟨e, herr⟩, -⟩ | ⟨-, a, hc, ⟨e, -, herr, -⟩ | ⟨holds, -, hbuilt, -⟩⟩
  · exact absurd hfresh hrep
  · exact absurd (hok.symm.trans herr) (by simp)
  · exact absurd (hok.symm.trans herr) (by simp)
  · have hprints := buildReceipt_prints (hbuilt.symm.trans hok)
    rw [hstanding] at hprints
    rcases hc.admitted.assignment with ⟨i, hi, hseat, -⟩ | ⟨-, -, hoffer⟩
    · -- a chosen seat is a seat of the pool, and its ticket is CONFIRMED
      obtain ⟨legs, hlegs, -⟩ := chooseSeat_some hi
      obtain ⟨seat, hget, -⟩ := poolLegsOf_get hlegs
      have hstatus := hprints.1
      rw [hget] at hseat
      simp [ticketOf, soldTicket, hseat] at hstatus
    · refine ⟨a.trip, hc.admitted.found, ?_⟩
      have hadvice := hprints.2.2.2.2.2
      rwa [hoffer, hc.admitted.pool] at hadvice

theorem queueOffer_eq {trip : Trip} (h : MemoryRepo.getTrip w.trips t = .ok trip) :
    queueOffer t c w s = bestOffer s.leg 0 (occupancyAfter (seatedLegs t c w s trip)
      ((standingQueue t c w s).zip (standingOffers (seatedLegs t c w s trip) (standingQueue t c w s)))) none := by
  simp only [queueOffer, h, predict_ok, standingOffers_last, Option.join_some]

/-- Two offers that print one advice are one offer, when no two seats of the pool carry one label. -/
theorem standingAdvice_inj {trip : Trip} {pool : List Seat} {o o' : Option SeatOffer}
    {adv : Option StandingAdvice} (hlabels : (pool.map seatLabel).Nodup)
    (h : standingAdvice trip pool o = .ok adv) (h' : standingAdvice trip pool o' = .ok adv) : o = o' := by
  have hsome : ∀ {o : SeatOffer} {adv : Option StandingAdvice}, standingAdvice trip pool (some o) = .ok adv →
      ∃ a, adv = some a ∧ a.afterSeq = o.boardSeq ∧ (pool.map seatLabel)[o.seatIndex]? = some a.seatLabel := by
    intro o adv h
    obtain ⟨station, -, h⟩ := bind_ok h
    cases hseat : pool[o.seatIndex]? with
    | none =>
        rw [hseat] at h
        cases h
    | some seat =>
        rw [hseat] at h
        obtain rfl := Except.ok.inj h
        exact ⟨_, rfl, rfl, by simp [hseat]⟩
  have hnone : ∀ {adv : Option StandingAdvice}, standingAdvice trip pool none = .ok adv → adv = none := by
    intro adv h
    exact (Except.ok.inj h).symm
  cases o with
  | none =>
      cases o' with
      | none => rfl
      | some o' =>
          obtain ⟨a, ha, -⟩ := hsome h'
          rw [hnone h] at ha
          cases ha
  | some o =>
      obtain ⟨a, ha, hboard, hlabel⟩ := hsome h
      cases o' with
      | none =>
          rw [hnone h'] at ha
          cases ha
      | some o' =>
          obtain ⟨a', ha', hboard', hlabel'⟩ := hsome h'
          obtain rfl := Option.some.inj (ha.symm.trans ha')
          -- the advice names the seat by its label only
          have hlt := (List.getElem?_eq_some_iff.mp hlabel).1
          have hidx : o.seatIndex = o'.seatIndex :=
            (List.getElem?_inj hlt hlabels).mp (hlabel.trans hlabel'.symm)
          obtain ⟨board, idx⟩ := o
          obtain ⟨board', idx'⟩ := o'
          simp only at hboard hboard' hidx
          rw [hidx, ← hboard, ← hboard']

/-- One sale: printing the queue's offer is being clear of the queue, where labels tell seats apart. -/
theorem prints_of_clear {trip : Trip} (htrip : MemoryRepo.getTrip w.trips t = .ok trip)
    (h : Stands t c w s receipt)
    (hclear : ∀ o, Earliest (seatedLegs t c w s trip) s.leg o →
      ∀ offers, predictStandingSeats (seatedLegs t c w s trip) (standingQueue t c w s) = .ok offers →
        ∀ p ∈ (standingQueue t c w s).zip offers, ∀ o', p.2 = some o' → ¬ SharesSeat p.1 o' s.leg o) :
    queueOffer t c w s = bestOffer s.leg 0 (seatedLegs t c w s trip) none ∧ PrintsQueueOffer t c w s receipt := by
  have heq : queueOffer t c w s = bestOffer s.leg 0 (seatedLegs t c w s trip) none := by
    rw [queueOffer_eq htrip]
    exact lastOffer_eq_iff.mpr fun o ho => hclear o ho _ (predict_ok _ _)
  obtain ⟨trip', htrip', hadvice⟩ := stands_offer h
  obtain rfl : trip = trip' := Except.ok.inj (htrip.symm.trans htrip')
  exact ⟨heq, trip, htrip, heq ▸ hadvice⟩

theorem clear_of_prints {trip : Trip} (htrip : MemoryRepo.getTrip w.trips t = .ok trip)
    (hlabels : ((unreservedPool trip c).map seatLabel).Nodup) (h : Stands t c w s receipt)
    (hprints : PrintsQueueOffer t c w s receipt) :
    queueOffer t c w s = bestOffer s.leg 0 (seatedLegs t c w s trip) none ∧
    ∀ o, Earliest (seatedLegs t c w s trip) s.leg o →
      ∀ offers, predictStandingSeats (seatedLegs t c w s trip) (standingQueue t c w s) = .ok offers →
        ∀ p ∈ (standingQueue t c w s).zip offers, ∀ o', p.2 = some o' → ¬ SharesSeat p.1 o' s.leg o := by
  obtain ⟨trip₁, htrip₁, hadvice⟩ := stands_offer h
  obtain rfl : trip = trip₁ := Except.ok.inj (htrip.symm.trans htrip₁)
  obtain ⟨trip₂, htrip₂, hqueue⟩ := hprints
  obtain rfl : trip = trip₂ := Except.ok.inj (htrip.symm.trans htrip₂)
  have heq := standingAdvice_inj hlabels hqueue hadvice
  refine ⟨heq, fun o ho offers hoffers => ?_⟩
  obtain rfl := Except.ok.inj ((predict_ok _ _).symm.trans hoffers)
  rw [queueOffer_eq htrip] at heq
  exact lastOffer_eq_iff.mp heq o ho

end Ticket

/-! ## Runs -/

/-- **The advice of the standing tickets of a pool.** In every run of sales on one trip and class that is
    clear of the queue, each standing ticket prints the queue's offer and no two are told overlapping parts
    of one seat. Where no two seats of the pool carry one label, only those runs do. -/
theorem advice_follows_queue (t : String) (c : TravelClass) :
    ∀ (sales : List Sale) (w : World) (told : List (Leg × SeatOffer)),
      (ClearOfQueue t c w told sales → FollowsQueue t c w told sales) ∧
      ((∀ trip, MemoryRepo.getTrip w.trips t = .ok trip → ((unreservedPool trip c).map seatLabel).Nodup) →
        FollowsQueue t c w told sales → ClearOfQueue t c w told sales) := by
  intro sales
  induction sales with
  | nil => exact fun _ _ => ⟨fun h => h, fun _ h => h⟩
  | cons s rest ih =>
      intro w told
      constructor
      · rintro ⟨hnow, hrest⟩
        refine ⟨fun receipt hstands => ?_, (ih _ _).1 hrest⟩
        obtain ⟨trip, htrip, -⟩ := stands_offer hstands
        have hclear := hnow receipt hstands trip htrip
        obtain ⟨heq, hprints⟩ := prints_of_clear htrip hstands fun o ho => (hclear o ho).1
        refine ⟨hprints, fun o ho => ?_⟩
        rw [heq] at ho
        exact (hclear o (bestOffer_some_iff.mp ho)).2
      · rintro hlabels ⟨hnow, hrest⟩
        have htrips : (w.serve (s.request t c)).2.trips = w.trips := trips_after w [s.request t c]
        refine ⟨fun receipt hstands trip htrip o ho => ?_, (ih _ _).2 (by rwa [htrips]) hrest⟩
        obtain ⟨hprints, hapart⟩ := hnow receipt hstands
        obtain ⟨heq, hclear⟩ := clear_of_prints htrip (hlabels trip htrip) hstands hprints
        exact ⟨hclear o ho, hapart o (heq.trans (bestOffer_some_iff.mpr ho))⟩

/-! ## Three passengers and one seat -/

theorem issuesStanding_iff {t : String} {c : TravelClass} {w : World} {s : Sale} :
    issuesStanding t c w s = true ↔ ∃ receipt, Stands t c w s receipt := by
  unfold issuesStanding Stands
  cases (w.serve (s.request t c)).1 with
  | error e => simp
  | ok receipt =>
      simp only [Bool.and_eq_true, Option.isNone_iff_eq_none, decide_eq_true_eq]
      constructor
      · rintro ⟨hfresh, hstatus⟩
        exact ⟨receipt, hfresh, rfl, hstatus⟩
      · rintro ⟨_, hfresh, heq, hstatus⟩
        exact ⟨hfresh, Except.ok.inj heq ▸ hstatus⟩

/-- Whether what a passenger takes of a seat is apart from all of these. -/
def apartFrom (taken : List (Leg × SeatOffer)) (leg : Leg) (o : SeatOffer) : Bool :=
  taken.all fun p => !(p.2.seatIndex == o.seatIndex && p.2.boardSeq < leg.destSeq && o.boardSeq < p.1.destSeq)

theorem apartFrom_iff {taken : List (Leg × SeatOffer)} {leg : Leg} {o : SeatOffer} :
    apartFrom taken leg o = true ↔ ∀ p ∈ taken, ¬ SharesSeat p.1 p.2 leg o := by
  unfold apartFrom SharesSeat
  rw [List.all_eq_true]
  refine forall₂_congr fun p _ => ?_
  simp only [Bool.not_eq_true', ← Bool.not_eq_true, Bool.and_eq_true, beq_iff_eq, decide_eq_true_eq, and_assoc]

/-- What the sweep over the queue as it stands gives to earlier tickets. -/
def sweptOffers (t : String) (c : TravelClass) (w : World) (s : Sale) (trip : Trip) : List (Leg × SeatOffer) :=
  ((standingQueue t c w s).zip (standingOffers (seatedLegs t c w s trip) (standingQueue t c w s))).filterMap
    fun p => p.2.map fun o => (p.1, o)

/-- One sale is clear of the queue: the test reads the seat that first frees from the sweep. -/
def clearNow (t : String) (c : TravelClass) (w : World) (told : List (Leg × SeatOffer)) (s : Sale) : Bool :=
  !issuesStanding t c w s || (MemoryRepo.getTrip w.trips t).toOption.all fun trip =>
    (bestOffer s.leg 0 (seatedLegs t c w s trip) none).all fun o =>
      apartFrom (sweptOffers t c w s trip) s.leg o && apartFrom told s.leg o

theorem clearNow_iff {t : String} {c : TravelClass} {w : World} {told : List (Leg × SeatOffer)} {s : Sale} :
    clearNow t c w told s = true ↔
      ∀ receipt, Stands t c w s receipt → ∀ trip, MemoryRepo.getTrip w.trips t = .ok trip →
        ∀ o, Earliest (seatedLegs t c w s trip) s.leg o →
          (∀ offers, predictStandingSeats (seatedLegs t c w s trip) (standingQueue t c w s) = .ok offers →
            ∀ p ∈ (standingQueue t c w s).zip offers, ∀ o', p.2 = some o' → ¬ SharesSeat p.1 o' s.leg o) ∧
          ∀ p ∈ told, ¬ SharesSeat p.1 p.2 s.leg o := by
  unfold clearNow
  rw [Bool.or_eq_true, Bool.not_eq_true', ← Bool.not_eq_true, issuesStanding_iff, ← imp_iff_not_or, Option.all_eq_true]
  have hswept : ∀ trip o, apartFrom (sweptOffers t c w s trip) s.leg o = true ↔
      ∀ offers, predictStandingSeats (seatedLegs t c w s trip) (standingQueue t c w s) = .ok offers →
        ∀ p ∈ (standingQueue t c w s).zip offers, ∀ o', p.2 = some o' → ¬ SharesSeat p.1 o' s.leg o := by
    intro trip o
    rw [apartFrom_iff]
    constructor
    · rintro h offers hoffers p hp o' ho'
      obtain rfl := Except.ok.inj ((predict_ok _ _).symm.trans hoffers)
      exact h (p.1, o') (List.mem_filterMap.mpr ⟨p, hp, by rw [ho']; rfl⟩)
    · rintro h q hq
      obtain ⟨p, hp, hpq⟩ := List.mem_filterMap.mp hq
      obtain ⟨o', ho', rfl⟩ := Option.map_eq_some_iff.mp hpq
      exact h _ (predict_ok _ _) p hp o' ho'
  constructor
  · intro h receipt hstands trip htrip o ho
    have htest := Option.all_eq_true _ _ |>.mp (h ⟨receipt, hstands⟩ trip (by rw [htrip]; rfl)) o
      (bestOffer_some_iff.mpr ho)
    rw [Bool.and_eq_true, hswept, apartFrom_iff] at htest
    exact htest
  · rintro h ⟨receipt, hstands⟩ trip htrip
    rw [Option.all_eq_true]
    intro o ho
    have htrip' : MemoryRepo.getTrip w.trips t = .ok trip := by
      cases hget : MemoryRepo.getTrip w.trips t with
      | error e =>
        rw [hget] at htrip
        cases htrip
      | ok trip' =>
        rw [hget] at htrip
        exact congrArg Except.ok (Option.some.inj htrip)
    rw [Bool.and_eq_true, hswept, apartFrom_iff]
    exact h receipt hstands trip htrip' o (bestOffer_some_iff.mp ho)

instance decidableClearOfQueue (t : String) (c : TravelClass) : ∀ (sales : List Sale) (w : World)
    (told : List (Leg × SeatOffer)), Decidable (ClearOfQueue t c w told sales)
  | [], _, _ => isTrue trivial
  | s :: rest, w, told =>
    have := decidableClearOfQueue t c rest (w.serve (s.request t c)).2 (told ++ newlyTold t c w s)
    decidable_of_iff (clearNow t c w told s = true ∧ ClearOfQueue t c (w.serve (s.request t c)).2
      (told ++ newlyTold t c w s) rest) (and_congr_left' clearNow_iff)

def sampleSale (leg : Leg) (tag : String) : Sale :=
  { leg := leg
    passengerId := "nic" ++ tag
    passengerName := "passenger " ++ tag
    reference := none
    deps := sampleDeps 100 tag
    gateway := acceptAll }

/-- The only seat is sold over the first and the fourth hop; two passengers stand. -/
def twoStandees : List Sale :=
  [sampleSale firstHop "1", sampleSale fourthHop "2", sampleSale wholeLine "3",
    sampleSale lastThreeHops "4"]

/-- What the passenger of the next sale is told, after so many of the sales. -/
def toldAfter (n : Nat) (s : Sale) : Option (Option StandingAdvice) :=
  (((World.start longTrips).after ((twoStandees.take n).map (Sale.request "slow" .third))).serve
    (s.request "slow" .third)).1.toOption.map Receipt.standing

/-- Two passengers stand, and each is told of another free part of the seat. -/
theorem advice_follows_queue_twoStandees :
    FollowsQueue "slow" .third (World.start longTrips) [] twoStandees ∧
      toldAfter 2 (sampleSale wholeLine "3") = some (some ⟨1, "Kandy", "1A"⟩) ∧
      toldAfter 3 (sampleSale lastThreeHops "4") = some (some ⟨4, "Demodara", "1A"⟩) :=
  ⟨(advice_follows_queue "slow" .third twoStandees (World.start longTrips) []).1 (by decide +kernel),
    by decide +kernel, by decide +kernel⟩

/-- The only unreserved seat goes over the first hop; then a passenger stands. -/
def firstStandee : List Sale := [sampleSale firstHop "1", sampleSale wholeLine "2"]

/-- A second standing passenger is told to take the seat the first one was told to take. -/
theorem second_standee_told_the_same_seat :
    ¬ FollowsQueue "slow" .third (World.start sampleTrips) [] (firstStandee ++ [sampleSale wholeLine "3"]) := by
  rintro ⟨-, -, ⟨hthird, -⟩⟩
  let w := (World.start sampleTrips).after (firstStandee.map (Sale.request "slow" .third))
  have hstands : issuesStanding "slow" .third w (sampleSale wholeLine "3") = true := by decide +kernel
  have htold : (w.serve ((sampleSale wholeLine "3").request "slow" .third)).1.toOption.map Receipt.standing =
      some (some ⟨1, "Kandy", "1A"⟩) := by decide +kernel
  have hqueue : queueOffer "slow" .third w (sampleSale wholeLine "3") = none := by decide +kernel
  obtain ⟨receipt, hreceipt⟩ := issuesStanding_iff.mp hstands
  obtain ⟨⟨trip, -, hadvice⟩, -⟩ := hthird receipt hreceipt
  have hprinted : receipt.standing = none := by
    change standingAdvice trip _ (queueOffer "slow" .third w (sampleSale wholeLine "3")) = _ at hadvice
    rw [hqueue] at hadvice
    exact (Except.ok.inj hadvice).symm
  rw [hreceipt.2.1] at htold
  have hsaid : receipt.standing = some ⟨1, "Kandy", "1A"⟩ := Option.some.inj htold
  rw [hprinted] at hsaid
  cases hsaid

end SlrBooking
