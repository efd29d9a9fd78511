import SlrBooking.Runs.Calls

/-!
# `Runs.Outcomes` — what each use-case can do to the store, said once

## Contents
- The reading programs as pure functions of the stored holds and trips: `legPrice`, `poolLegsOf`,
  `run_draftHold_ok_iff`, `run_readForConfirm_ok_iff`, `run_admitSale_ok_iff`.
- One outcome theorem for each writing use-case (`holdSeat_outcome`, `confirmBooking_outcome`,
  `cancelBooking_outcome`, `sellUnreserved_outcome`) and one for the reading ones (`sweep_outcome`).
-/

namespace SlrBooking

open Theory Rows

/-! ## Single operations -/

section Ops

variable (g : Gateway) (v : World)

@[simp] theorem run_getTrip (id : String) :
    (Trips.get id).run (World.exec g) v = (MemoryRepo.getTrip v.trips id, v) := Prog.run_call _ _ _

@[simp] theorem run_findByDate (d : String) :
    (Trips.findByDate d).run (World.exec g) v = (MemoryRepo.findByDate v.trips d, v) := Prog.run_call _ _ _

@[simp] theorem run_get (id : String) :
    (Bookings.get id).run (World.exec g) v = (MemoryRepo.get v.holds id, v) := Prog.run_call _ _ _

@[simp] theorem run_byReference (r : String) :
    (Bookings.byReference r).run (World.exec g) v = (.ok (MemoryRepo.byReference v.holds r), v) :=
  Prog.run_call _ _ _

@[simp] theorem run_activeHolds (t : String) :
    (Bookings.activeHolds t).run (World.exec g) v = (.ok (MemoryRepo.activeHolds v.holds t), v) :=
  Prog.run_call _ _ _

@[simp] theorem run_activeForSeat (t s : String) :
    (Bookings.activeForSeat t s).run (World.exec g) v = (.ok (MemoryRepo.activeForSeat v.holds t s), v) :=
  Prog.run_call _ _ _

@[simp] theorem run_activeForPassenger (t p : String) :
    (Bookings.activeForPassenger t p).run (World.exec g) v =
      (.ok (MemoryRepo.activeForPassenger v.holds t p), v) := Prog.run_call _ _ _

@[simp] theorem run_byStatus (t : String) (s : BookingStatus) :
    (Bookings.byStatus t s).run (World.exec g) v = (.ok (MemoryRepo.byStatus v.holds t s), v) :=
  Prog.run_call _ _ _

@[simp] theorem run_expireDue (now : Int) :
    (Bookings.expireDue now).run (World.exec g) v =
      (.ok (MemoryRepo.expireDue v.holds now).1, v.withHolds (MemoryRepo.expireDue v.holds now).2) :=
  Prog.run_call _ _ _

@[simp] theorem run_charge (r : String) (m : Money) :
    (charge r m).run (World.exec g) v =
      (.ok (g r m), if (g r m).ok then { v with accepted := v.accepted ++ [(r, m)] } else v) :=
  Prog.run_call _ _ _

@[simp] theorem run_commit :
    commit.run (World.exec g) v = (.ok (), { v with uow := v.uow.commit }) := Prog.run_call _ _ _

@[simp] theorem run_publish (e : AvailabilityEvent) :
    (publish e).run (World.exec g) v = (.ok (), { v with published := v.published ++ [e] }) :=
  Prog.run_call _ _ _

@[simp] theorem run_notify (p e : String) (d : List (String × String)) :
    (notify p e d).run (World.exec g) v = (.ok (), { v with notices := v.notices ++ [⟨p, e, d⟩] }) :=
  Prog.run_call _ _ _

theorem run_addHold (h : Hold) :
    (Bookings.addHold h).run (World.exec g) v = match MemoryRepo.addHold v.holds h with
      | .ok holds => (.ok (), v.withHolds holds)
      | .error e => (.error e, v) := Prog.run_call _ _ _

theorem run_setStatus (id : String) (s : BookingStatus) :
    (Bookings.setStatus id s).run (World.exec g) v = match MemoryRepo.setStatus v.holds id s with
      | .ok (updated, holds) => (.ok updated, v.withHolds holds)
      | .error e => (.error e, v) := Prog.run_call _ _ _

end Ops

/-! ## The reading programs as functions of the store -/

/-- `occupancyOverLeg` on given holds. -/
def occupancyOn (holds : List Hold) (trip : Trip) (leg : Leg) : ℚ :=
  if trip.seats.isEmpty then 0
  else
    let busy := (((MemoryRepo.activeHolds holds trip.tripId).filter fun h => h.leg.overlaps leg).map
      (·.seatId)).dedup
    (busy.length : ℚ) / trip.seats.length

/-- `priceLeg` on given holds. -/
def legPrice (deps : Deps) (holds : List Hold) (trip : Trip) (leg : Leg) (c : TravelClass) : Except Err Money := do
  let distanceKm ← legDistanceKm trip leg
  let mult ← classMult deps c
  deps.price distanceKm mult (occupancyOn holds trip leg)

/-- `poolLegs` on given holds. -/
def poolLegsOf (holds : List Hold) (tripId : String) (pool : List Seat) : List (List Leg) :=
  pool.map fun s => (MemoryRepo.activeForSeat holds tripId s.seatId).map (·.leg)

/-- `guardStandingCapacity` on given holds. -/
def standingRoom (deps : Deps) (holds : List Hold) (tripId : String) (c : TravelClass) : Except Err Unit :=
  match deps.getInt standingCapacity with
  | .error e => .error e
  | .ok capacity =>
    let standing := (MemoryRepo.byStatus holds tripId .standing).filter fun h => h.travelClass = c
    if (standing.length : Int) ≥ capacity then
      .error (.domain .coachFull s!"unreserved {c.value} coach is full")
    else .ok ()

/-- `assignSeat` on given holds. -/
def seatAssignment (deps : Deps) (holds : List Hold) (tripId : String) (leg : Leg) (c : TravelClass)
    (pool : List Seat) : Except Err (Option Seat × Option SeatOffer) :=
  let seatLegs := poolLegsOf holds tripId pool
  match chooseSeat seatLegs leg with
  | some chosen => .ok (pool[chosen]?, none)
  | none =>
    match standingRoom deps holds tripId c with
    | .error e => .error e
    | .ok () => .ok (none, bestOffer leg 0 seatLegs none)

/-- The booking a client-chosen reference already names. -/
def replayed (holds : List Hold) (reference : Option String) : Option Hold :=
  reference.bind (MemoryRepo.byReference holds)

section Reads

variable {g : Gateway} {v : World} {deps : Deps} {t p : String} {leg : Leg} {c : TravelClass}

/-! ### Look-ups, prices and pools -/

theorem run_lookupReplay (reference : Option String) :
    (lookupReplay reference).run (World.exec g) v = (.ok (replayed v.holds reference), v) := by
  cases reference with
  | none => rfl
  | some r => exact run_byReference g v r

theorem run_occupancyOverLeg (trip : Trip) :
    (occupancyOverLeg trip leg).run (World.exec g) v = (.ok (occupancyOn v.holds trip leg), v) := by
  unfold occupancyOverLeg occupancyOn
  split
  · rfl
  · simp only [Prog.bind_eq, Prog.run_bind, run_activeHolds, Prog.pure_eq, Prog.run_ret]

theorem run_priceLeg (trip : Trip) :
    (priceLeg deps trip leg c).run (World.exec g) v = (legPrice deps v.holds trip leg c, v) := by
  simp only [priceLeg, legPrice, Prog.bind_eq, Prog.run_bind, Prog.run_ofExcept]
  cases legDistanceKm trip leg with
  | error e => rfl
  | ok d =>
      cases classMult deps c with
      | error e => rfl
      | ok m =>
          simp only [run_occupancyOverLeg]
          rfl

theorem run_enforceAntiTout (now : Int) :
    (enforceAntiTout deps t p now).run (World.exec g) v =
      (antiTout deps p now (MemoryRepo.activeForPassenger v.holds t p), v) := by
  simp only [enforceAntiTout, Prog.bind_eq, Prog.run_bind, run_activeForPassenger, Prog.run_ofExcept]

theorem run_poolLegs (pool : List Seat) :
    (poolLegs t pool).run (World.exec g) v = (.ok (poolLegsOf v.holds t pool), v) := by
  induction pool with
  | nil => rfl
  | cons s rest ih =>
      simp only [poolLegs, Prog.bind_eq, Prog.run_bind, run_activeForSeat, ih, Prog.pure_eq, Prog.run_ret]
      rfl

/-! ### The checks of a use-case

What a use-case has been checked for when it goes to the write, as an equivalence: later results read the checks off
instead of running the program again. -/

/-- What a hold has been checked for when it goes to the insert, and what it will cost. -/
structure Drafts (deps : Deps) (holds : List Hold) (trips : List Trip) (tripId seatId : String) (leg : Leg)
    (passengerId : String) (trip : Trip) (seat : Seat) (fare : Money) (ttl : Int) : Prop where
  found   : MemoryRepo.getTrip trips tripId = .ok trip
  onLine  : validateLeg trip leg = .ok ()
  seated  : reservedSeat trip seatId = .ok seat
  allowed : antiTout deps passengerId deps.now (MemoryRepo.activeForPassenger holds tripId passengerId) = .ok ()
  priced  : legPrice deps holds trip leg seat.travelClass = .ok fare
  lives   : deps.getInt holdTtl = .ok ttl

/-- **What a drafted hold has been checked for**, exactly. -/
theorem run_draftHold_ok_iff {seatId name : String} {reference : Option String} {hold : Hold} :
    ((draftHold deps t seatId leg p name reference).run (World.exec g) v).1 = .ok hold ↔
      ∃ trip seat fare ttl, Drafts deps v.holds v.trips t seatId leg p trip seat fare ttl ∧
        hold = newHold deps t seatId leg p name reference seat fare ttl := by
  simp only [draftHold, Prog.bind_eq, Prog.run_bind, run_getTrip, Prog.run_ofExcept, run_enforceAntiTout,
    run_priceLeg, Prog.pure_eq]
  constructor
  · intro h
    cases htrip : MemoryRepo.getTrip v.trips t with
    | error e => rw [htrip] at h; cases h
    | ok trip =>
        cases hleg : validateLeg trip leg with
        | error e => simp [htrip, hleg] at h
        | ok u =>
            cases hseat : reservedSeat trip seatId with
            | error e => simp [htrip, hleg, hseat] at h
            | ok seat =>
                simp only [htrip, hleg, hseat] at h
                split at h
                · rename_i u' s₁ hanti
                  obtain ⟨hallowed, rfl⟩ := Prod.mk.inj hanti
                  split at h
                  · rename_i fare s₂ hprice
                    obtain ⟨hpriced, rfl⟩ := Prod.mk.inj hprice
                    split at h
                    · rename_i ttl s₃ httl
                      obtain ⟨hlives, rfl⟩ := Prod.mk.inj httl
                      exact ⟨trip, seat, fare, ttl, ⟨htrip, hleg, hseat, hallowed, hpriced, hlives⟩,
                        (Except.ok.inj h).symm⟩
                    · cases h
                  · cases h
                · cases h
  · rintro ⟨trip, seat, fare, ttl, hd, rfl⟩
    simp only [hd.found, hd.onLine, hd.seated, hd.allowed, hd.priced, hd.lives, Prog.run_ret]

/-- What a confirm goes on with: the stored booking, HELD, and its trip. -/
theorem run_readForConfirm_ok_iff {id : String} {hold : Hold} {target : BookingStatus} {trip : Trip} :
    ((readForConfirm id).run (World.exec g) v).1 = .ok (hold, target, trip) ↔
      lookup MemoryRepo.idOf id v.holds = some hold ∧ BookingSm.apply hold.status .confirm = .ok target ∧
      MemoryRepo.getTrip v.trips hold.tripId = .ok trip := by
  rw [← MemoryRepo.get_ok]
  simp only [readForConfirm, getBooking, Prog.bind_eq, Prog.tryCatch_eq, Prog.run_bind, Prog.run_rescue, run_get]
  cases hget : MemoryRepo.get v.holds id with
  | error e => cases e <;> simp
  | ok h =>
      simp only [Prog.run_ofExcept, run_getTrip, Prog.pure_eq]
      cases happ : BookingSm.apply h.status .confirm with
      | error e =>
          simp only [reduceCtorEq, Except.ok.injEq, false_iff, not_and]
          rintro rfl he
          rw [happ] at he
          cases he
      | ok s =>
          cases htrip : MemoryRepo.getTrip v.trips h.tripId with
          | error e =>
              simp only [htrip, reduceCtorEq, Except.ok.injEq, false_iff, not_and]
              rintro rfl - he
              rw [htrip] at he
              cases he
          | ok t =>
              simp only [htrip, Prog.run_ret, Except.ok.injEq, Prod.mk.injEq]
              constructor
              · rintro ⟨rfl, rfl, rfl⟩
                exact ⟨rfl, happ, htrip⟩
              · rintro ⟨rfl, hs, ht⟩
                rw [happ] at hs
                rw [htrip] at ht
                exact ⟨rfl, Except.ok.inj hs, Except.ok.inj ht⟩

theorem run_guardStandingCapacity :
    (guardStandingCapacity deps t c).run (World.exec g) v = (standingRoom deps v.holds t c, v) := by
  simp only [guardStandingCapacity, standingRoom, Prog.bind_eq, Prog.run_bind, run_byStatus, Prog.run_ofExcept]
  cases deps.getInt standingCapacity with
  | error e => rfl
  | ok capacity =>
      dsimp only
      split <;> rfl

theorem run_assignSeat (pool : List Seat) :
    (assignSeat deps t leg c pool).run (World.exec g) v = (seatAssignment deps v.holds t leg c pool, v) := by
  simp only [assignSeat, seatAssignment, Prog.bind_eq, Prog.run_bind, run_poolLegs]
  cases chooseSeat (poolLegsOf v.holds t pool) leg with
  | some chosen => rfl
  | none =>
      simp only [Prog.run_bind, run_guardStandingCapacity, predict_single]
      cases standingRoom deps v.holds t c with
      | error e => rfl
      | ok u => rfl

/-- What a sale has been checked for when it goes to the gateway. -/
structure Admits (deps : Deps) (holds : List Hold) (trips : List Trip) (tripId : String) (leg : Leg)
    (passengerId : String) (c : TravelClass) (a : Admission) : Prop where
  found    : MemoryRepo.getTrip trips tripId = .ok a.trip
  onLine   : validateLeg a.trip leg = .ok ()
  allowed  : antiTout deps passengerId deps.now (MemoryRepo.activeForPassenger holds tripId passengerId) = .ok ()
  pool     : a.pool = unreservedPool a.trip c
  stocked  : a.pool ≠ []
  assigned : seatAssignment deps holds tripId leg c a.pool = .ok (a.seat, a.offer)
  priced   : legPrice deps holds a.trip leg c = .ok a.fare

/-- **What a sale has been checked for**, exactly. -/
theorem run_admitSale_ok_iff {a : Admission} :
    ((admitSale deps t leg p c).run (World.exec g) v).1 = .ok a ↔
      Admits deps v.holds v.trips t leg p c a := by
  simp only [admitSale, Prog.bind_eq, Prog.run_bind, run_getTrip, Prog.run_ofExcept, run_enforceAntiTout]
  constructor
  · -- check by check, in the order of the source
    intro h
    split at h
    · rename_i trip s₁ htrip
      obtain ⟨hfound, rfl⟩ := Prod.mk.inj htrip
      split at h
      · rename_i u s₂ hleg
        obtain ⟨honLine, rfl⟩ := Prod.mk.inj hleg
        split at h
        · rename_i u' s₃ hanti
          obtain ⟨hallowed, rfl⟩ := Prod.mk.inj hanti
          split at h
          · cases h
          · rename_i hstock
            simp only [Prog.run_bind, run_assignSeat] at h
            split at h
            · rename_i so s₄ hassign
              obtain ⟨hassigned, rfl⟩ := Prod.mk.inj hassign
              obtain ⟨seat, offer⟩ := so
              simp only [run_priceLeg] at h
              split at h
              · rename_i fare s₅ hprice
                obtain ⟨hpriced, rfl⟩ := Prod.mk.inj hprice
                obtain rfl := Except.ok.inj h
                exact ⟨hfound, honLine, hallowed, rfl, by simpa using hstock, hassigned, hpriced⟩
              · cases h
            · cases h
        · cases h
      · cases h
    · cases h
  · intro ha
    have hstock : (unreservedPool a.trip c).isEmpty = false := by
      rw [← ha.pool]
      simpa using ha.stocked
    have hassign := ha.assigned
    rw [ha.pool] at hassign
    simp only [ha.found, ha.onLine, ha.allowed, hstock, Bool.false_eq_true, if_false, Prog.run_bind,
      run_assignSeat, hassign, run_priceLeg, ha.priced, Prog.pure_eq, Prog.run_ret, Except.ok.injEq]
    rw [← ha.pool]

end Reads

/-! ## The writing parts -/

/-- The world a committing call leaves: the holds it wrote, nothing else of the store changed. -/
structure Commits (v v' : World) (holds : List Hold) : Prop where
  holds    : v'.holds = holds
  trips    : v'.trips = v.trips
  accepted : v'.accepted = v.accepted
  settled  : v'.uow.snapshot = none

section Stages

variable {g : Gateway} {v v' : World}

/-- Placing a hold: refused by the overlap check, or committed. -/
theorem run_placeHold {hold : Hold} {r : Except Err Hold}
    (h : (placeHold hold).run (World.exec g) v = (r, v')) :
    (∃ e, MemoryRepo.addHold v.holds hold = .error e ∧ r = .error e ∧ v' = v) ∨
      ∃ holds, MemoryRepo.addHold v.holds hold = .ok holds ∧ r = .ok hold ∧ Commits v v' holds := by
  simp only [placeHold, Prog.bind_eq, Prog.run_bind, run_addHold] at h
  cases hadd : MemoryRepo.addHold v.holds hold with
  | error e =>
      rw [hadd] at h
      obtain ⟨rfl, rfl⟩ := Prod.mk.inj h
      exact Or.inl ⟨e, rfl, rfl, rfl⟩
  | ok holds =>
      rw [hadd] at h
      simp only [run_publish, run_notify, run_commit, Prog.pure_eq, Prog.run_ret] at h
      obtain ⟨rfl, rfl⟩ := Prod.mk.inj h
      exact Or.inr ⟨holds, rfl, rfl, rfl, rfl, rfl, rfl⟩

/-- Settling a confirm: the booking is gone, or the new status is committed and the receipt attempted. -/
theorem run_settleConfirm {deps : Deps} {id : String} {hold : Hold} {target : BookingStatus} {trip : Trip}
    {r : Except Err Receipt} (h : (settleConfirm deps id hold target trip).run (World.exec g) v = (r, v')) :
    (∃ e, MemoryRepo.setStatus v.holds id target = .error e ∧ r = .error e ∧ v' = v) ∨
      ∃ confirmed holds, MemoryRepo.setStatus v.holds id target = .ok (confirmed, holds) ∧
        r = receiptFor confirmed trip deps.now ∧ Commits v v' holds := by
  simp only [settleConfirm, Prog.bind_eq, Prog.run_bind, run_setStatus] at h
  cases hset : MemoryRepo.setStatus v.holds id target with
  | error e =>
      rw [hset] at h
      obtain ⟨rfl, rfl⟩ := Prod.mk.inj h
      exact Or.inl ⟨e, rfl, rfl, rfl⟩
  | ok cs =>
      obtain ⟨confirmed, holds⟩ := cs
      rw [hset] at h
      simp only [run_publish, run_notify, run_commit, Prog.run_ofExcept] at h
      obtain ⟨rfl, rfl⟩ := Prod.mk.inj h
      exact Or.inr ⟨confirmed, holds, rfl, rfl, rfl, rfl, rfl, rfl⟩

/-- Issuing a ticket: refused by the overlap check, or committed and the receipt attempted. -/
theorem run_issueTicket {deps : Deps} {sold : Hold} {a : Admission} {r : Except Err Receipt}
    (h : (issueTicket deps sold a).run (World.exec g) v = (r, v')) :
    (∃ e, MemoryRepo.addHold v.holds sold = .error e ∧ r = .error e ∧ v' = v) ∨
      ∃ holds, MemoryRepo.addHold v.holds sold = .ok holds ∧
        r = buildReceipt sold a.trip deps.now a.seat a.offer a.pool ∧ Commits v v' holds := by
  simp only [issueTicket, Prog.bind_eq, Prog.run_bind, run_addHold] at h
  cases hadd : MemoryRepo.addHold v.holds sold with
  | error e =>
      rw [hadd] at h
      obtain ⟨rfl, rfl⟩ := Prod.mk.inj h
      exact Or.inl ⟨e, rfl, rfl, rfl⟩
  | ok holds =>
      rw [hadd] at h
      refine Or.inr ⟨holds, rfl, ?_⟩
      cases hseat : a.seat with
      | none =>
          simp only [hseat, Prog.run_bind, run_notify, run_commit, Prog.run_ofExcept] at h
          obtain ⟨rfl, rfl⟩ := Prod.mk.inj h
          exact ⟨rfl, rfl, rfl, rfl, rfl⟩
      | some s =>
          simp only [hseat, Prog.run_bind, run_publish, run_notify, run_commit, Prog.run_ofExcept] at h
          obtain ⟨rfl, rfl⟩ := Prod.mk.inj h
          exact ⟨rfl, rfl, rfl, rfl, rfl⟩

end Stages

/-! ## The use-cases -/

namespace World

/-- A call committed `holds`, after the charges `charges` were accepted. -/
structure Wrote (w w' : World) (holds : List Hold) (charges : List (String × Money)) : Prop where
  holds    : w'.holds = holds
  trips    : w'.trips = w.trips
  accepted : w'.accepted = w.accepted ++ charges

theorem Commits.wrote {w v v' : World} {holds : List Hold} {charges : List (String × Money)}
    (hc : Commits v v' holds) (ht : v.trips = w.trips) (ha : v.accepted = w.accepted ++ charges) :
    Wrote w v'.exit holds charges := by
  rw [exit_committed hc.settled]
  exact ⟨hc.holds, hc.trips.trans ht, hc.accepted.trans ha⟩

end World

section Outcomes

variable {g : Gateway} {w w' : World} {deps : Deps}

open World

/-- A block's run, its end and its exit. -/
theorem block_eq {α : Type} {p : Prog Ports Err α} {r : Except Err α} (h : w.block g p = (r, w')) :
    ∃ v', p.run (World.exec g) w.enter = (r, v') ∧ w' = v'.exit := by
  obtain ⟨h₁, h₂⟩ := Prod.mk.inj h
  exact ⟨(p.run (World.exec g) w.enter).2, Prod.ext h₁ rfl, h₂.symm⟩

theorem run_sweep (now : Int) : (Bookings.expireDue now).run (World.exec g) w.enter =
    (.ok (MemoryRepo.expireDue w.holds now).1, w.opened now) := run_expireDue g w.enter now

/-- **What a hold can do**: replay a known booking; fail a check; lose the seat to another booking; or commit one
    drafted hold on top of the sweep. -/
theorem holdSeat_drafted {t s p n : String} {leg : Leg} {ref : Option String} {r : Except Err Hold}
    (h : w.block g (holdSeat deps t s leg p n ref) = (r, w')) :
    (∃ b, replayed w.holds ref = some b ∧ r = .ok b ∧ Same w w') ∨
    (replayed w.holds ref = none ∧
      (∀ trip seat fare ttl, ¬ Drafts deps (w.swept deps.now) w.trips t s leg p trip seat fare ttl) ∧
      (∃ e, r = .error e) ∧ Same w w') ∨
    (replayed w.holds ref = none ∧ ∃ trip seat fare ttl,
      Drafts deps (w.swept deps.now) w.trips t s leg p trip seat fare ttl ∧
      ((∃ e, MemoryRepo.addHold (w.swept deps.now) (newHold deps t s leg p n ref seat fare ttl) = .error e ∧
          r = .error e ∧ Same w w') ∨
        ∃ holds, MemoryRepo.addHold (w.swept deps.now) (newHold deps t s leg p n ref seat fare ttl) = .ok holds ∧
          r = .ok (newHold deps t s leg p n ref seat fare ttl) ∧ Wrote w w' holds [])) := by
  obtain ⟨v', hrun, rfl⟩ := block_eq h
  simp only [holdSeat, Prog.bind_eq, Prog.run_bind, run_lookupReplay, holds_enter] at hrun
  cases hrep : replayed w.holds ref with
  | some b =>
      rw [hrep] at hrun
      obtain ⟨rfl, rfl⟩ := Prod.mk.inj hrun
      exact Or.inl ⟨b, rfl, rfl, same_exit_enter w⟩
  | none =>
      rw [hrep] at hrun
      simp only [Prog.run_bind, run_sweep] at hrun
      refine Or.inr ?_
      -- the checks change nothing, and pass exactly for a draft
      rw [(quiet_draftHold g deps t s leg p n ref).run_eq] at hrun
      have hiff : ∀ {hold}, ((draftHold deps t s leg p n ref).run (World.exec g) (w.opened deps.now)).1 = .ok hold ↔
          ∃ trip seat fare ttl, Drafts deps (w.swept deps.now) w.trips t s leg p trip seat fare ttl ∧
            hold = newHold deps t s leg p n ref seat fare ttl := run_draftHold_ok_iff
      cases hdraft : ((draftHold deps t s leg p n ref).run (World.exec g) (w.opened deps.now)).1 with
      | error e =>
          rw [hdraft] at hrun
          obtain ⟨rfl, rfl⟩ := Prod.mk.inj hrun
          refine Or.inl ⟨rfl, fun trip seat fare ttl hd => ?_, ⟨e, rfl⟩, same_exit_opened w _⟩
          cases hdraft.symm.trans (hiff.mpr ⟨trip, seat, fare, ttl, hd, rfl⟩)
      | ok hold =>
          rw [hdraft] at hrun
          obtain ⟨trip, seat, fare, ttl, hd, rfl⟩ := hiff.mp hdraft
          refine Or.inr ⟨rfl, trip, seat, fare, ttl, hd, ?_⟩
          rcases run_placeHold hrun with ⟨e, hadd, rfl, rfl⟩ | ⟨holds, hadd, rfl, hc⟩
          · exact Or.inl ⟨e, hadd, rfl, same_exit_opened w _⟩
          · exact Or.inr ⟨holds, hadd, rfl, Commits.wrote hc rfl (List.append_nil _).symm⟩

/-- The same without what the hold was checked for: a replay, a failure without effect, or a commit. -/
theorem holdSeat_outcome {t s p n : String} {leg : Leg} {ref : Option String} {r : Except Err Hold}
    (h : w.block g (holdSeat deps t s leg p n ref) = (r, w')) :
    (∃ b, replayed w.holds ref = some b ∧ r = .ok b ∧ Same w w') ∨
    (replayed w.holds ref = none ∧ (∃ e, r = .error e) ∧ Same w w') ∨
    (replayed w.holds ref = none ∧ ∃ trip seat fare ttl holds,
      MemoryRepo.getTrip w.trips t = .ok trip ∧ validateLeg trip leg = .ok () ∧
      reservedSeat trip s = .ok seat ∧
      MemoryRepo.addHold (w.swept deps.now) (newHold deps t s leg p n ref seat fare ttl) = .ok holds ∧
      r = .ok (newHold deps t s leg p n ref seat fare ttl) ∧ Wrote w w' holds []) := by
  rcases holdSeat_drafted h with hrep | ⟨hrep, -, he, hsame⟩ | ⟨hrep, trip, seat, fare, ttl, hd, hplaced⟩
  · exact Or.inl hrep
  · exact Or.inr (Or.inl ⟨hrep, he, hsame⟩)
  · rcases hplaced with ⟨e, -, hr, hsame⟩ | ⟨holds, hadd, hr, hwrote⟩
    · exact Or.inr (Or.inl ⟨hrep, ⟨e, hr⟩, hsame⟩)
    · exact Or.inr (Or.inr ⟨hrep, trip, seat, fare, ttl, holds, hd.found, hd.onLine, hd.seated, hadd, hr, hwrote⟩)

/-- What a cancel can do: fail without effect, or commit CANCELLED over a status that allows it. -/
theorem cancelBooking_outcome {id : String} {r : Except Err Hold} (h : w.block g (cancelBooking id) = (r, w')) :
    ((∃ e, r = .error e) ∧ Same w w') ∨
    ∃ hold, lookup MemoryRepo.idOf id w.holds = some hold ∧ BookingSm.Edge hold.status .cancelled ∧
      r = .ok { hold with status := .cancelled } ∧
      Wrote w w' (put MemoryRepo.idOf { hold with status := .cancelled } w.holds) [] := by
  obtain ⟨v', hrun, rfl⟩ := block_eq h
  simp only [cancelBooking, Prog.bind_eq] at hrun
  rcases (quiet_getBooking g id).run_bind_cases hrun with ⟨e, -, rfl, rfl⟩ | ⟨hold, hget, hrun⟩
  · exact Or.inl ⟨⟨e, rfl⟩, same_exit_enter w⟩
  · have hfound : lookup MemoryRepo.idOf id w.holds = some hold := by
      rw [← MemoryRepo.get_ok]
      simp only [getBooking, Prog.tryCatch_eq, Prog.run_rescue, run_get, holds_enter] at hget
      cases hm : MemoryRepo.get w.holds id with
      | ok h => rw [hm] at hget; exact hget
      | error e => rw [hm] at hget; cases e <;> cases hget
    simp only [Prog.run_bind, Prog.run_ofExcept] at hrun
    cases happ : BookingSm.apply hold.status .cancel with
    | error e =>
        rw [happ] at hrun
        obtain ⟨rfl, rfl⟩ := Prod.mk.inj hrun
        exact Or.inl ⟨⟨e, rfl⟩, same_exit_enter w⟩
    | ok target =>
        obtain rfl := BookingSm.apply_cancel happ
        rw [happ] at hrun
        simp only [run_setStatus, holds_enter, MemoryRepo.setStatus_of_lookup hfound] at hrun
        refine Or.inr ⟨hold, hfound, BookingSm.edge_of_apply happ, ?_⟩
        split at hrun
        · simp only [Prog.run_bind, run_publish, run_notify, run_commit, Prog.pure_eq, Prog.run_ret] at hrun
          obtain ⟨rfl, rfl⟩ := Prod.mk.inj hrun
          exact ⟨rfl, Commits.wrote (v := w.enter) ⟨rfl, rfl, rfl, rfl⟩ rfl (List.append_nil _).symm⟩
        · simp only [Prog.run_bind, run_notify, run_commit, Prog.pure_eq, Prog.run_ret] at hrun
          obtain ⟨rfl, rfl⟩ := Prod.mk.inj hrun
          exact ⟨rfl, Commits.wrote (v := w.enter) ⟨rfl, rfl, rfl, rfl⟩ rfl (List.append_nil _).symm⟩

/-! ### A confirm -/

/-- A confirm gets as far as an accepted charge. -/
structure ConfirmCharged (g : Gateway) (w : World) (now : Int) (id : String) (hold : Hold) (trip : Trip) :
    Prop where
  found : lookup MemoryRepo.idOf id w.holds = some hold
  held  : hold.status = .held
  live  : now < hold.heldUntil
  runs  : MemoryRepo.getTrip w.trips hold.tripId = .ok trip
  paid  : (g hold.reference ⟨hold.fareCents⟩).ok = true

/-- **What a confirm can do**: fail before an accepted charge, without effect; or charge, commit CONFIRMED
    and only then attempt the receipt. -/
theorem confirmBooking_outcome {id : String} {r : Except Err Receipt}
    (h : w.block g (confirmBooking deps id) = (r, w')) :
    ((∀ hold trip, ¬ ConfirmCharged g w deps.now id hold trip) ∧ (∃ e, r = .error e) ∧ Same w w') ∨
    ∃ hold trip, ConfirmCharged g w deps.now id hold trip ∧
      r = receiptFor { hold with status := .confirmed } trip deps.now ∧
      Wrote w w' (put MemoryRepo.idOf { hold with status := .confirmed } (w.swept deps.now))
        [(hold.reference, ⟨hold.fareCents⟩)] := by
  obtain ⟨v', hrun, rfl⟩ := block_eq h
  simp only [confirmBooking, Prog.bind_eq, Prog.run_bind, run_sweep] at hrun
  -- a charged confirm is one whose reads succeed on the swept store and whose charge is accepted
  have hreads : ∀ {hold trip}, ConfirmCharged g w deps.now id hold trip →
      ((readForConfirm id).run (World.exec g) (w.opened deps.now)).1 = .ok (hold, .confirmed, trip) := by
    intro hold trip hc
    refine run_readForConfirm_ok_iff.mpr ⟨?_, BookingSm.apply_confirm.mpr ⟨hc.held, rfl⟩, hc.runs⟩
    show lookup MemoryRepo.idOf id (MemoryRepo.expireDue w.holds deps.now).2 = some hold
    rw [MemoryRepo.lookup_expireDue, hc.found, Option.map_some, MemoryRepo.retire_eq fun _ => hc.live]
  rw [(quiet_readForConfirm g id).run_eq] at hrun
  cases hread : ((readForConfirm id).run (World.exec g) (w.opened deps.now)).1 with
  | error e =>
      rw [hread] at hrun
      obtain ⟨rfl, rfl⟩ := Prod.mk.inj hrun
      refine Or.inl ⟨fun hold trip hc => ?_, ⟨e, rfl⟩, same_exit_opened w _⟩
      cases hread.symm.trans (hreads hc)
  | ok x =>
      obtain ⟨hold, target, trip⟩ := x
      rw [hread] at hrun
      obtain ⟨hfound, happ, htrip⟩ := run_readForConfirm_ok_iff.mp hread
      obtain ⟨hheld, rfl⟩ := BookingSm.apply_confirm.mp happ
      -- the booking the sweep left HELD is the stored one
      change lookup MemoryRepo.idOf id (MemoryRepo.expireDue w.holds deps.now).2 = some hold at hfound
      rw [MemoryRepo.lookup_expireDue] at hfound
      obtain ⟨stored, hstored, hretire⟩ := Option.map_eq_some_iff.mp hfound
      have hlive : stored.status = .held ∧ deps.now < stored.heldUntil := by
        rw [← MemoryRepo.retire_held, hretire]
        exact hheld
      obtain rfl : stored = hold := (MemoryRepo.retire_eq fun _ => hlive.2).symm.trans hretire
      simp only [run_charge, Prog.run_ofExcept, requireAccepted] at hrun
      cases hok : (g stored.reference ⟨stored.fareCents⟩).ok with
      | false =>
          simp only [hok, Bool.false_eq_true, if_false] at hrun
          obtain ⟨rfl, rfl⟩ := Prod.mk.inj hrun
          refine Or.inl ⟨?_, ⟨_, rfl⟩, same_exit_opened w _⟩
          intro hold' trip' hc
          obtain rfl : stored = hold' := Option.some.inj (hstored.symm.trans hc.found)
          cases hok.symm.trans hc.paid
      | true =>
          simp only [hok, if_true] at hrun
          have hset : MemoryRepo.setStatus (w.swept deps.now) id .confirmed =
              .ok ({ stored with status := .confirmed },
                put MemoryRepo.idOf { stored with status := .confirmed } (w.swept deps.now)) := by
            refine MemoryRepo.setStatus_of_lookup ?_ _
            show lookup MemoryRepo.idOf id (MemoryRepo.expireDue w.holds deps.now).2 = some stored
            rw [MemoryRepo.lookup_expireDue, hfound]
          rcases run_settleConfirm hrun with ⟨e, he, -⟩ | ⟨confirmed, holds, hs, rfl, hc⟩
          · cases hset.symm.trans he
          · obtain ⟨rfl, rfl⟩ := Prod.mk.inj (Except.ok.inj (hset.symm.trans hs))
            exact Or.inr ⟨stored, trip, ⟨hstored, hlive.1, hlive.2, htrip, hok⟩, rfl,
              Commits.wrote hc rfl rfl⟩

/-! ### A sale -/

/-- A sale gets as far as an accepted charge. -/
structure SaleCharged (deps : Deps) (g : Gateway) (w : World) (t : String) (leg : Leg) (p : String)
    (c : TravelClass) (ref : Option String) (a : Admission) : Prop where
  admitted : Admits deps (w.swept deps.now) w.trips t leg p c a
  paid     : (g (orFresh ref deps.newReference) a.fare).ok = true

/-- The ticket a sale inserts once admitted. -/
def ticketOf (deps : Deps) (t : String) (leg : Leg) (p n : String) (c : TravelClass) (ref : Option String)
    (a : Admission) : Hold :=
  soldTicket deps t leg p n c (orFresh ref deps.newReference) a.seat a.fare

/-- **What a sale can do**: answer a replay; fail before an accepted charge, without effect; or charge and
    then lose the insert, or commit the ticket and only then attempt the receipt. -/
theorem sellUnreserved_outcome {t p n : String} {leg : Leg} {c : TravelClass} {ref : Option String}
    {r : Except Err Receipt} (h : w.block g (sellUnreserved deps t leg p n c ref) = (r, w')) :
    (replayed w.holds ref ≠ none ∧ Same w w') ∨
    (replayed w.holds ref = none ∧ (∀ a, ¬ SaleCharged deps g w t leg p c ref a) ∧ (∃ e, r = .error e) ∧
      Same w w') ∨
    (replayed w.holds ref = none ∧ ∃ a, SaleCharged deps g w t leg p c ref a ∧
      ((∃ e, MemoryRepo.addHold (w.swept deps.now) (ticketOf deps t leg p n c ref a) = .error e ∧ r = .error e ∧
          Wrote w w' w.holds [(orFresh ref deps.newReference, a.fare)]) ∨
        ∃ holds, MemoryRepo.addHold (w.swept deps.now) (ticketOf deps t leg p n c ref a) = .ok holds ∧
          r = buildReceipt (ticketOf deps t leg p n c ref a) a.trip deps.now a.seat a.offer a.pool ∧
          Wrote w w' holds [(orFresh ref deps.newReference, a.fare)])) := by
  obtain ⟨v', hrun, rfl⟩ := block_eq h
  simp only [sellUnreserved, Prog.bind_eq, Prog.run_bind, run_lookupReplay, holds_enter] at hrun
  cases hrep : replayed w.holds ref with
  | some b =>
      rw [hrep] at hrun
      simp only [replayReceipt, Prog.bind_eq] at hrun
      refine Or.inl ⟨by simp, ?_⟩
      rcases (quiet_getTrip g b.tripId).run_bind_cases hrun with ⟨e, -, -, rfl⟩ | ⟨trip, -, hrun⟩
      · exact same_exit_enter w
      · rw [Prog.run_ofExcept] at hrun
        obtain ⟨-, rfl⟩ := Prod.mk.inj hrun
        exact same_exit_enter w
  | none =>
      rw [hrep] at hrun
      simp only [Prog.run_bind, run_sweep] at hrun
      refine Or.inr ?_
      rw [(quiet_admitSale g deps t leg p c).run_eq] at hrun
      have hiff : ∀ {a}, ((admitSale deps t leg p c).run (World.exec g) (w.opened deps.now)).1 = .ok a ↔
          Admits deps (w.swept deps.now) w.trips t leg p c a := run_admitSale_ok_iff
      cases hadm : ((admitSale deps t leg p c).run (World.exec g) (w.opened deps.now)).1 with
      | error e =>
          rw [hadm] at hrun
          obtain ⟨rfl, rfl⟩ := Prod.mk.inj hrun
          refine Or.inl ⟨rfl, fun a ha => ?_, ⟨e, rfl⟩, same_exit_opened w _⟩
          cases hadm.symm.trans (hiff.mpr ha.admitted)
      | ok a =>
          rw [hadm] at hrun
          simp only [run_charge, Prog.run_ofExcept, requireAccepted] at hrun
          cases hok : (g (orFresh ref deps.newReference) a.fare).ok with
          | false =>
              -- declined: nothing was charged, and the sweep is rolled back
              simp only [hok, Bool.false_eq_true, if_false] at hrun
              obtain ⟨rfl, rfl⟩ := Prod.mk.inj hrun
              refine Or.inl ⟨rfl, fun a' ha => ?_, ⟨_, rfl⟩, same_exit_opened w _⟩
              obtain rfl : a = a' := Except.ok.inj (hadm.symm.trans (hiff.mpr ha.admitted))
              cases hok.symm.trans ha.paid
          | true =>
              simp only [hok, if_true] at hrun
              refine Or.inr ⟨rfl, a, ⟨hiff.mp hadm, hok⟩, ?_⟩
              rcases run_issueTicket hrun with ⟨e, hadd, rfl, rfl⟩ | ⟨holds, hadd, rfl, hc⟩
              · exact Or.inl ⟨e, hadd, rfl, (same_exit_opened w _).holds, (same_exit_opened w _).trips, rfl⟩
              · exact Or.inr ⟨holds, hadd, rfl, Commits.wrote hc rfl rfl⟩

end Outcomes

/-! ## The reading use-cases -/

/-- What the reading use-cases perform: reads, the sweep at their time, and a commit. -/
def ReadsAndSweeps (now : Int) : PortOp → Prop
  | .addHold _ | .get _ | .setStatus _ _ | .charge _ _ | .publish _ | .notify _ => False
  | .expireDue now' => now' = now
  | _ => True

/-- Pricing a leg reads the active holds of its trip and nothing else. -/
theorem only_priceLeg {ok : PortOp → Prop} (deps : Deps) (hok : ∀ t, ok (.activeHolds t)) (trip : Trip) (leg : Leg)
    (c : TravelClass) : (priceLeg deps trip leg c).Only ok := by
  refine (Prog.only_ofExcept _).bind fun _ => (Prog.only_ofExcept _).bind fun _ => Prog.Only.bind ?_ fun _ =>
    Prog.only_ofExcept _
  unfold occupancyOverLeg
  split
  · exact Prog.only_ret _
  · exact Prog.Only.bind (Prog.only_call (hok _)) fun _ => Prog.only_ret _

section Reading

variable {now : Int} (deps : Deps)

theorem reads_priceLeg (trip : Trip) (leg : Leg) (c : TravelClass) :
    (priceLeg deps trip leg c).Only (ReadsAndSweeps now) := only_priceLeg deps (fun _ => trivial) trip leg c

theorem reads_verifyTicket (reference : String) :
    (verifyTicket deps reference).Only (ReadsAndSweeps deps.now) := by
  refine Prog.Only.bind (Prog.only_call rfl) fun _ => Prog.Only.bind (Prog.only_call trivial) fun found => ?_
  cases found with
  | none => exact Prog.only_raise _
  | some b =>
      exact Prog.Only.bind (Prog.only_call trivial) fun _ => Prog.Only.bind (Prog.only_call trivial) fun _ =>
        (Prog.only_ofExcept _).bind fun _ => Prog.only_ret _

theorem reads_classAvailabilities (trip : Trip) (leg : Leg) (reservable : List Seat) (busy : List String) :
    ∀ cs, (classAvailabilities deps trip leg reservable busy cs).Only (ReadsAndSweeps now)
  | [] => Prog.only_ret _
  | c :: rest => (reads_priceLeg deps trip leg c).bind fun _ =>
      (reads_classAvailabilities trip leg reservable busy rest).bind fun _ => Prog.only_ret _

theorem reads_trainOption (trip : Trip) (o d : String) :
    (trainOption deps trip o d).Only (ReadsAndSweeps now) := by
  unfold trainOption
  split
  · split
    · exact Prog.only_ret _
    · refine (Prog.only_ofExcept _).bind fun leg => ?_
      split
      · exact Prog.only_ret _
      · exact (Prog.only_ofExcept _).bind fun _ => Prog.Only.bind (Prog.only_call trivial) fun _ =>
          (reads_classAvailabilities deps trip leg _ _ _).bind fun _ => (Prog.only_ofExcept _).bind fun _ =>
            Prog.only_ret _
  · exact Prog.only_ret _

theorem reads_trainOptions (o d : String) : ∀ trips, (trainOptions deps o d trips).Only (ReadsAndSweeps now)
  | [] => Prog.only_ret _
  | trip :: rest => (reads_trainOption deps trip o d).bind fun _ =>
      (reads_trainOptions o d rest).bind fun _ => Prog.only_ret _

theorem reads_searchTrains (o d date : String) :
    (searchTrains deps o d date).Only (ReadsAndSweeps deps.now) :=
  (Prog.only_ofExcept _).bind fun _ => Prog.Only.bind (Prog.only_call rfl) fun _ =>
    Prog.Only.bind (Prog.only_call trivial) fun _ => (reads_trainOptions deps o d _).bind fun _ =>
      Prog.Only.bind (Prog.only_call trivial) fun _ => Prog.only_ret _

theorem reads_legAvailability (t : String) (leg : Leg) :
    (legAvailability deps t leg).Only (ReadsAndSweeps deps.now) :=
  Prog.Only.bind (Prog.only_call trivial) fun _ => (Prog.only_ofExcept _).bind fun _ =>
    Prog.Only.bind (Prog.only_call rfl) fun _ => Prog.Only.bind (Prog.only_call trivial) fun _ =>
      Prog.Only.bind (Prog.only_call trivial) fun _ => Prog.only_ret _

theorem reads_quoteFare (t : String) (leg : Leg) (c : TravelClass) :
    (quoteFare deps t leg c).Only (ReadsAndSweeps deps.now) :=
  Prog.Only.bind (Prog.only_call trivial) fun _ => (Prog.only_ofExcept _).bind fun _ =>
    reads_priceLeg deps _ leg c

end Reading

namespace World

/-- Sweeping twice at one time is sweeping once. -/
theorem sweep_idem (holds : List Hold) (now : Int) :
    (MemoryRepo.expireDue (MemoryRepo.expireDue holds now).2 now).2 = (MemoryRepo.expireDue holds now).2 := by
  simp only [MemoryRepo.expireDue, List.map_map]
  refine List.map_congr_left fun h _ => ?_
  refine MemoryRepo.retire_eq fun hs => ?_
  rcases MemoryRepo.retire_cases now h with he | ⟨-, he⟩
  · rw [he] at hs ⊢
    exact (MemoryRepo.retire_held.mp (he.symm ▸ hs)).2
  · rw [he] at hs
    cases hs

/-- Inside a reading block: the holds are the stored or the swept ones. -/
structure Sweeping (w : World) (now : Int) (v : World) : Prop where
  trips    : v.trips = w.trips
  accepted : v.accepted = w.accepted
  holds    : v.holds = w.holds ∨ v.holds = w.swept now
  snapshot : v.uow.snapshot = none ∨ v.uow.snapshot = some (w.holds, w.trips)

theorem Sweeping.exec {w v : World} {now : Int} (hv : Sweeping w now v) (g : Gateway) {o : PortOp}
    (ho : ReadsAndSweeps now o) : Sweeping w now (World.exec g o v).2 := by
  cases o with
  | addHold | get | setStatus | charge | publish | notify => exact ho.elim
  | expireDue now' =>
      obtain rfl : now' = now := ho
      refine ⟨hv.trips, hv.accepted, Or.inr ?_, hv.snapshot⟩
      show (MemoryRepo.expireDue v.holds now').2 = w.swept now'
      rcases hv.holds with h | h
      · rw [h]
        rfl
      · rw [h]
        exact sweep_idem w.holds now'
  | commit => exact ⟨hv.trips, hv.accepted, hv.holds, Or.inl rfl⟩
  | _ => exact hv

/-- **A reading call** changes nothing but, at most, the status of overdue holds. -/
theorem sweep_outcome {α : Type} {g : Gateway} {w w' : World} {now : Int} {p : Prog Ports Err α}
    {r : Except Err α} (hp : p.Only (ReadsAndSweeps now)) (h : w.block g p = (r, w')) :
    Same w w' ∨ Wrote w w' (w.swept now) [] := by
  obtain ⟨v', hrun, rfl⟩ := block_eq h
  have hv : Sweeping w now v' := by
    have := hp.run_invariant (I := Sweeping w now) (fun o s ho hs => hs.exec g ho)
      (s := w.enter) ⟨rfl, rfl, Or.inl rfl, Or.inr rfl⟩
    rwa [hrun] at this
  rcases hv.snapshot with hs | hs
  · rw [exit_committed hs]
    rcases hv.holds with hh | hh
    · exact Or.inl ⟨hh, hv.trips, hv.accepted⟩
    · exact Or.inr ⟨hh, hv.trips, hv.accepted.trans (List.append_nil _).symm⟩
  · obtain ⟨hh, ht, ha⟩ := exit_open hs
    exact Or.inl ⟨hh, ht, ha.trans hv.accepted⟩

end World

end SlrBooking
