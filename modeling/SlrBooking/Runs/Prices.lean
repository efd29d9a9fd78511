import SlrBooking.Runs.Offers
import SlrBooking.Runs.Effects
import SlrBooking.Domain.Segments

/-!
# `Runs.Prices` — the fare of a booking against the fare quoted, and against a fuller train

Quote, hold and sale price a leg by the same function, each on the store as it finds it. A hold and a sale have
retired the overdue holds by then; a quote has not.

## Contents
- `FixesFare`, `SameBusy`, `serve_quote`, `occupancyOn_swept_iff`.
- `quote_is_price_iff`; `quote_counts_an_overdue_hold`.
- `OnTrain`, `run_onTrain`: the seats of the active bookings are the trip's. `demand_pricing`: the demand fare over
  all reachable stores.
-/

namespace SlrBooking

open Theory Rows

/-! ## Quoted and fixed -/

/-- A new booking of the class over the leg, at this store and clock, fixes this fare: a hold that succeeds, or
    a sale that charges it. -/
def FixesFare (w : World) (deps : Deps) (t : String) (leg : Leg) (c : TravelClass) (fare : Money) : Prop :=
  (∃ s p n reference g b, replayed w.holds reference = none ∧
    (w.serve ⟨.hold t s leg p n reference, deps, g⟩).1 = .ok b ∧ b.travelClass = c ∧ fare = ⟨b.fareCents⟩) ∨
  ∃ p n reference g, (w.serve ⟨.sell t leg p n c reference, deps, g⟩).2.accepted =
    w.accepted ++ [(orFresh reference deps.newReference, fare)]

/-- No seat of the trip is kept busy over the leg only by holds whose time is up. -/
def SameBusy (w : World) (now : Int) (t : String) (leg : Leg) : Prop :=
  ∀ h ∈ w.holds, h.tripId = t → MemoryRepo.overdue now h = true → h.leg.overlaps leg = true →
    ∃ h' ∈ w.holds, h'.tripId = t ∧ h'.seatId = h.seatId ∧ h'.status.isActive = true ∧
      MemoryRepo.overdue now h' = false ∧ h'.leg.overlaps leg = true

/-- A quote prices the store as it is. -/
theorem serve_quote (w : World) (deps : Deps) (g : Gateway) (t : String) (leg : Leg) (c : TravelClass) :
    (w.serve ⟨.quote t leg c, deps, g⟩).1 = (do
      let trip ← MemoryRepo.getTrip w.trips t
      validateLeg trip leg
      legPrice deps w.holds trip leg c) := by
  show ((quoteFare deps t leg c).run (World.exec g) w.enter).1 = _
  simp only [quoteFare, Prog.bind_eq, Prog.run_bind, run_getTrip, World.trips_enter]
  cases MemoryRepo.getTrip w.trips t with
  | error e => rfl
  | ok trip =>
      simp only [Prog.run_ofExcept]
      cases hleg : validateLeg trip leg with
      | error e => simp [bind, Except.bind, hleg]
      | ok u => simp [bind, Except.bind, hleg, run_priceLeg]

section Fixed

variable {w : World} {deps : Deps} {t : String} {leg : Leg} {c : TravelClass} {fare : Money}

/-- A fare is fixed on the swept store. -/
theorem FixesFare.priced (h : FixesFare w deps t leg c fare) :
    ∃ trip, MemoryRepo.getTrip w.trips t = .ok trip ∧ validateLeg trip leg = .ok () ∧ trip.seats ≠ [] ∧
      legPrice deps (w.swept deps.now) trip leg c = .ok fare := by
  rcases h with ⟨s, p, n, reference, g, b, hnew, hok, rfl, rfl⟩ | ⟨p, n, reference, g, hcharged⟩
  · rcases holdSeat_drafted (World.block_pair g (holdSeat deps t s leg p n reference) w) with
      ⟨b', hrep, -⟩ | ⟨-, -, ⟨e, herr⟩, -⟩ | ⟨-, trip, seat, fare, ttl, hd, ⟨e, -, herr, -⟩ | ⟨holds, -, hret, -⟩⟩
    · cases hnew.symm.trans hrep
    · cases herr.symm.trans hok
    · cases herr.symm.trans hok
    · obtain rfl := Except.ok.inj (hret.symm.trans hok)
      refine ⟨trip, hd.found, hd.onLine, List.ne_nil_of_mem (reservedSeat_ok hd.seated).1, hd.priced⟩
  · have hnot : ∀ {w' : World}, World.Same w w' → w'.accepted ≠
        w.accepted ++ [(orFresh reference deps.newReference, fare)] := by
      intro w' hsame hgrown
      rw [hsame.accepted] at hgrown
      simp at hgrown
    have hpaid : ∀ {a : Admission} {w' : World} {holds : List Hold},
        World.Wrote w w' holds [(orFresh reference deps.newReference, a.fare)] →
        w'.accepted = w.accepted ++ [(orFresh reference deps.newReference, fare)] → a.fare = fare := by
      intro a w' holds hw hgrown
      have hlast := List.append_cancel_left (hw.accepted.symm.trans hgrown)
      simpa using hlast
    have hadmitted : ∀ {a}, SaleCharged deps g w t leg p c reference a → a.fare = fare →
        ∃ trip, MemoryRepo.getTrip w.trips t = .ok trip ∧ validateLeg trip leg = .ok () ∧ trip.seats ≠ [] ∧
          legPrice deps (w.swept deps.now) trip leg c = .ok fare := by
      intro a hc hfare
      refine ⟨a.trip, hc.admitted.found, hc.admitted.onLine, ?_, hfare ▸ hc.admitted.priced⟩
      intro hnone
      apply hc.admitted.stocked
      rw [hc.admitted.pool, unreservedPool, hnone, List.filter_nil]
    rcases sellUnreserved_outcome (World.block_pair g (sellUnreserved deps t leg p n c reference) w) with
      ⟨-, hsame⟩ | ⟨-, -, -, hsame⟩ | ⟨-, a, hc, ⟨e, -, -, hw⟩ | ⟨holds, -, -, hw⟩⟩
    · exact absurd hcharged (hnot hsame)
    · exact absurd hcharged (hnot hsame)
    · exact hadmitted hc (hpaid hw hcharged)
    · exact hadmitted hc (hpaid hw hcharged)

/-- Another strategy fixes another fare for the same booking, whatever the gateway made of the first. -/
theorem FixesFare.repriced (h : FixesFare w deps t leg c fare) {price : ℚ → ℚ → ℚ → Except Err Money} {fare' : Money}
    {trip : Trip} (htrip : MemoryRepo.getTrip w.trips t = .ok trip)
    (hprice : legPrice { deps with price := price } (w.swept deps.now) trip leg c = .ok fare') :
    FixesFare w { deps with price := price } t leg c fare' := by
  rcases h with ⟨s, p, n, reference, g, b, hnew, hok, rfl, rfl⟩ | ⟨p, n, reference, g, hcharged⟩
  · rcases holdSeat_drafted (World.block_pair g (holdSeat deps t s leg p n reference) w) with
      ⟨b', hrep, -⟩ | ⟨-, -, ⟨e, herr⟩, -⟩ | ⟨-, trip', seat, fare, ttl, hd, ⟨e, -, herr, -⟩ | ⟨holds, hadd, hret, -⟩⟩
    · cases hnew.symm.trans hrep
    · cases herr.symm.trans hok
    · cases herr.symm.trans hok
    · obtain rfl : trip = trip' := Except.ok.inj (htrip.symm.trans hd.found)
      have hclass : b.travelClass = seat.travelClass := Except.ok.inj (hok.symm.trans hret) ▸ rfl
      rw [hclass] at hprice
      have hd' : Drafts { deps with price := price } (w.swept deps.now) w.trips t s leg p trip seat fare' ttl :=
        ⟨hd.found, hd.onLine, hd.seated, hd.allowed, hprice, hd.lives⟩
      rcases holdSeat_drafted (World.block_pair g (holdSeat { deps with price := price } t s leg p n reference) w) with
        ⟨b', hrep, -⟩ | ⟨-, hno, -⟩ | ⟨-, trip₂, seat₂, fare₂, ttl₂, hd₂, ⟨e, herr, -⟩ | ⟨holds', -, hret', -⟩⟩
      · cases hnew.symm.trans hrep
      · exact absurd hd' (hno _ _ _ _)
      · -- the store looks at the seat and the leg, not at the fare
        obtain ⟨existing, hmem, hne, hover⟩ := MemoryRepo.addHold_error herr
        obtain ⟨hin, ht, hs, hactive⟩ := MemoryRepo.mem_activeForSeat.mp hmem
        have hfree := (MemoryRepo.addHold_ok hadd).2 existing hin ht hs hactive hne
        cases hfree.symm.trans hover
      · obtain rfl : trip = trip₂ := Except.ok.inj (htrip.symm.trans hd₂.found)
        obtain rfl : seat = seat₂ := Except.ok.inj (hd.seated.symm.trans hd₂.seated)
        obtain rfl : fare' = fare₂ := Except.ok.inj (hd'.priced.symm.trans hd₂.priced)
        exact Or.inl ⟨s, p, n, reference, g, _, hnew, hret', hclass.symm, rfl⟩
  · rcases sellUnreserved_outcome (World.block_pair g (sellUnreserved deps t leg p n c reference) w) with
      ⟨-, hsame⟩ | ⟨-, -, -, hsame⟩ | ⟨hnew, a, hc, -⟩
    · exact absurd (hsame.accepted.symm.trans hcharged) (by simp)
    · exact absurd (hsame.accepted.symm.trans hcharged) (by simp)
    · obtain rfl : trip = a.trip := Except.ok.inj (htrip.symm.trans hc.admitted.found)
      have ha' : Admits { deps with price := price } (w.swept deps.now) w.trips t leg p c { a with fare := fare' } :=
        ⟨hc.admitted.found, hc.admitted.onLine, hc.admitted.allowed, hc.admitted.pool, hc.admitted.stocked,
          hc.admitted.assigned, hprice⟩
      have hfare : ∀ {a₂}, SaleCharged { deps with price := price } acceptAll w t leg p c reference a₂ →
          a₂.fare = fare' := by
        intro a₂ hc₂
        have htrip₂ : a.trip = a₂.trip := Except.ok.inj (htrip.symm.trans hc₂.admitted.found)
        have hpriced := hc₂.admitted.priced
        rw [← htrip₂] at hpriced
        exact Except.ok.inj (hpriced.symm.trans hprice)
      -- the same sale under a gateway that accepts any amount
      refine Or.inr ⟨p, n, reference, acceptAll, ?_⟩
      rcases sellUnreserved_outcome
          (World.block_pair acceptAll (sellUnreserved { deps with price := price } t leg p n c reference) w) with
        ⟨hrep, -⟩ | ⟨-, hno, -⟩ | ⟨-, a₂, hc₂, ⟨e, -, -, hw⟩ | ⟨holds, -, -, hw⟩⟩
      · exact absurd hnew hrep
      · exact absurd ⟨ha', rfl⟩ (hno _)
      · rw [← hfare hc₂]
        exact hw.accepted
      · rw [← hfare hc₂]
        exact hw.accepted

end Fixed

/-! ## Busy seats before and after the sweep -/

theorem mem_busySeats {holds : List Hold} {trip : Trip} {leg : Leg} {s : String} : s ∈ busySeats holds trip leg ↔
    ∃ h ∈ holds, h.tripId = trip.tripId ∧ h.seatId = s ∧ h.status.isActive = true ∧ h.leg.overlaps leg = true := by
  simp only [busySeats, MemoryRepo.activeHolds, List.mem_map, List.mem_filter, Bool.and_eq_true, decide_eq_true_eq]
  constructor
  · rintro ⟨h, ⟨⟨hh, ht, ha⟩, ho⟩, hs⟩
    exact ⟨h, hh, ht, hs, ha, ho⟩
  · rintro ⟨h, hh, ht, hs, ha, ho⟩
    exact ⟨h, ⟨⟨hh, ht, ha⟩, ho⟩, hs⟩

/-- After the sweep a seat is busy through a booking that was active and not overdue. -/
theorem mem_busySeats_swept {w : World} {now : Int} {trip : Trip} {leg : Leg} {s : String} :
    s ∈ busySeats (w.swept now) trip leg ↔ ∃ h ∈ w.holds, h.tripId = trip.tripId ∧ h.seatId = s ∧
      h.status.isActive = true ∧ MemoryRepo.overdue now h = false ∧ h.leg.overlaps leg = true := by
  rw [mem_busySeats]
  constructor
  · rintro ⟨_, hmem, ht, hs, ha, ho⟩
    obtain ⟨h, hh, rfl⟩ := mem_swept.mp hmem
    by_cases hdue : MemoryRepo.overdue now h = true
    · simp [MemoryRepo.retire, hdue, BookingStatus.isActive, activeStatuses] at ha
    · simp only [MemoryRepo.retire, hdue, Bool.false_eq_true, if_false] at ht hs ha ho
      exact ⟨h, hh, ht, hs, ha, by simpa using hdue, ho⟩
  · rintro ⟨h, hh, ht, hs, ha, hdue, ho⟩
    refine ⟨h, mem_swept.mpr ⟨h, hh, ?_⟩, ht, hs, ha, ho⟩
    simp [MemoryRepo.retire, hdue]

theorem occupancyOn_eq {holds : List Hold} {trip : Trip} (leg : Leg) (h : trip.seats ≠ []) :
    occupancyOn holds trip leg = ((busySeats holds trip leg).dedup.length : ℚ) / trip.seats.length := by
  unfold occupancyOn
  rw [if_neg (by simpa using h)]
  rfl

/-- **The sweep changes the occupancy** exactly when a seat was busy through overdue holds alone. -/
theorem occupancyOn_swept_iff {w : World} {now : Int} {trip : Trip} {leg : Leg} (hseats : trip.seats ≠ []) :
    occupancyOn w.holds trip leg = occupancyOn (w.swept now) trip leg ↔ SameBusy w now trip.tripId leg := by
  have hlen : (0 : ℚ) < trip.seats.length := by exact_mod_cast List.length_pos_of_ne_nil hseats
  have hsub : busySeats (w.swept now) trip leg ⊆ busySeats w.holds trip leg := by
    intro s hs
    obtain ⟨h, hh, ht, hs, ha, -, ho⟩ := mem_busySeats_swept.mp hs
    exact mem_busySeats.mpr ⟨h, hh, ht, hs, ha, ho⟩
  have hcount : occupancyOn w.holds trip leg = occupancyOn (w.swept now) trip leg ↔
      busySeats w.holds trip leg ⊆ busySeats (w.swept now) trip leg := by
    rw [occupancyOn_eq leg hseats, occupancyOn_eq leg hseats, div_left_inj' (ne_of_gt hlen), Nat.cast_inj]
    constructor
    · -- fewer busy seats after the sweep, so as many means the same ones
      intro heq s hs
      have hsubperm : (busySeats (w.swept now) trip leg).dedup.Subperm (busySeats w.holds trip leg).dedup :=
        (List.nodup_dedup _).subperm fun x hx => List.mem_dedup.mpr (hsub (List.mem_dedup.mp hx))
      have hperm := hsubperm.perm_of_length_le (Nat.le_of_eq heq)
      exact List.mem_dedup.mp (hperm.mem_iff.mpr (List.mem_dedup.mpr hs))
    · intro hle
      refine (List.Perm.length_eq ?_)
      refine (List.perm_ext_iff_of_nodup (List.nodup_dedup _) (List.nodup_dedup _)).mpr fun s => ?_
      simp only [List.mem_dedup]
      exact ⟨fun hs => hle hs, fun hs => hsub hs⟩
  rw [hcount]
  constructor
  · intro hle h hh ht hdue ho
    have hactive : h.status.isActive = true := by
      simp only [MemoryRepo.overdue, Bool.and_eq_true, decide_eq_true_eq] at hdue
      rw [hdue.1]
      rfl
    obtain ⟨h', hh', ht', hs', ha', hdue', ho'⟩ :=
      mem_busySeats_swept.mp (hle (mem_busySeats.mpr ⟨h, hh, ht, rfl, hactive, ho⟩))
    exact ⟨h', hh', ht', hs', ha', hdue', ho'⟩
  · intro hsame s hs
    obtain ⟨h, hh, ht, rfl, ha, ho⟩ := mem_busySeats.mp hs
    by_cases hdue : MemoryRepo.overdue now h = true
    · obtain ⟨h', hh', ht', hs', ha', hdue', ho'⟩ := hsame h hh ht hdue ho
      exact mem_busySeats_swept.mpr ⟨h', hh', ht', hs', ha', hdue', ho'⟩
    · exact mem_busySeats_swept.mpr ⟨h, hh, ht, rfl, ha, by simpa using hdue, ho⟩

/-! ## The quote and the price -/

/-- **When the quote is the price.** For every fare strategy, exactly when no seat of the trip is kept busy over
    the leg by overdue holds alone, or the class cannot be booked over the leg at all. -/
theorem quote_is_price_iff (w : World) (deps : Deps) (t : String) (leg : Leg) (c : TravelClass) :
    (∀ price fare g, FixesFare w { deps with price := price } t leg c fare →
      (w.serve ⟨.quote t leg c, { deps with price := price }, g⟩).1 = .ok fare) ↔
    ((∃ price fare, FixesFare w { deps with price := price } t leg c fare) → SameBusy w deps.now t leg) := by
  constructor
  · rintro hquote ⟨price₀, fare₀, hfixes⟩
    obtain ⟨trip, htrip, hleg, hseats, hpriced⟩ := hfixes.priced
    -- a strategy that tells the two occupancies apart
    let price : ℚ → ℚ → ℚ → Except Err Money := fun _ _ occupancy =>
      if occupancy = occupancyOn (w.swept deps.now) trip leg then .ok ⟨0⟩ else .ok ⟨1⟩
    obtain ⟨distanceKm, hdistance, hrest⟩ := bind_ok hpriced
    obtain ⟨mult, hmult, -⟩ := bind_ok hrest
    have hlegPrice : ∀ holds, legPrice { deps with price := price } holds trip leg c =
        price distanceKm mult (occupancyOn holds trip leg) := by
      intro holds
      have hmult' : classMult { deps with price := price } c = .ok mult := hmult
      simp only [legPrice, hdistance, hmult', bind, Except.bind]
    have hfixed : FixesFare w { deps with price := price } t leg c ⟨0⟩ := by
      have hswept : legPrice { deps with price := price } (w.swept deps.now) trip leg c = .ok ⟨0⟩ := by
        rw [hlegPrice]
        exact if_pos rfl
      exact hfixes.repriced htrip hswept
    have hanswer := hquote price ⟨0⟩ acceptAll hfixed
    rw [serve_quote] at hanswer
    simp only [htrip, hleg, bind, Except.bind] at hanswer
    rw [hlegPrice] at hanswer
    rw [← getTrip_tripId htrip]
    apply (occupancyOn_swept_iff hseats).mp
    by_contra hne
    have hother : price distanceKm mult (occupancyOn w.holds trip leg) = .ok ⟨1⟩ := if_neg hne
    rw [hother] at hanswer
    cases hanswer
  · intro hsame price fare g hfixes
    obtain ⟨trip, htrip, hleg, hseats, hpriced⟩ := hfixes.priced
    have hbusy := hsame ⟨price, fare, hfixes⟩
    rw [← getTrip_tripId htrip] at hbusy
    have hocc := (occupancyOn_swept_iff hseats).mpr hbusy
    rw [serve_quote]
    simp only [htrip, hleg, bind, Except.bind]
    rw [← hpriced]
    simp only [legPrice, hocc]

/-- The sample ports with prices that follow demand. -/
def demandDeps (now : Int) (tag : String) : Deps :=
  { sampleDeps now tag with price := DynamicFare.price { ratePerKm := ⟨100⟩ } }

/-- Seat A1 was held at 0 for 900 seconds. -/
def lapsedHold : Request := ⟨.hold "slow" "A1" wholeLine "nic1" "Nimal" none, demandDeps 0 "1", acceptAll⟩

/-- At 1000 the hold is overdue and not retired: the quote counts it, the next hold does not. -/
theorem quote_counts_an_overdue_hold : ∃ fare, FixesFare ((World.start sampleTrips).after [lapsedHold])
      (demandDeps 1000 "2") "slow" wholeLine .first fare ∧
    (((World.start sampleTrips).after [lapsedHold]).serve
      ⟨.quote "slow" wholeLine .first, demandDeps 1000 "2", acceptAll⟩).1 ≠ .ok fare := by
  have hheld : (((World.start sampleTrips).after [lapsedHold]).serve
      ⟨.hold "slow" "A2" wholeLine "nic2" "Kamala" none, demandDeps 1000 "2", acceptAll⟩).1.toOption.map
        (fun b => (b.travelClass, b.fareCents)) = some (.first, 29000) := by decide +kernel
  have hquoted : (((World.start sampleTrips).after [lapsedHold]).serve
      ⟨.quote "slow" wholeLine .first, demandDeps 1000 "2", acceptAll⟩).1.toOption = some ⟨36733⟩ := by decide +kernel
  obtain ⟨b, hb, hfixed⟩ := Option.map_eq_some_iff.mp hheld
  obtain ⟨hclass, hfare⟩ := Prod.mk.inj hfixed
  refine ⟨⟨29000⟩, Or.inl ⟨"A2", "nic2", "Kamala", none, acceptAll, b, rfl, ?_, hclass, by rw [hfare]⟩, ?_⟩
  · cases hserved : (((World.start sampleTrips).after [lapsedHold]).serve
        ⟨.hold "slow" "A2" wholeLine "nic2" "Kamala" none, demandDeps 1000 "2", acceptAll⟩).1 with
    | error e =>
        rw [hserved] at hb
        cases hb
    | ok b' =>
        rw [hserved] at hb
        rw [Option.some.inj hb]
  · intro hsame
    rw [hsame] at hquoted
    cases hquoted

/-! ## Demand over reachable stores -/

/-- The active bookings have seats of their trips. -/
def OnTrain (w : World) : Prop := ∀ h ∈ w.holds, h.status.isActive = true →
  ∃ trip, MemoryRepo.getTrip w.trips h.tripId = .ok trip ∧ h.seatId ∈ trip.seats.map (·.seatId)

theorem OnTrain.change {r : Request} {w w' : World} (ho : OnTrain w) (hc : Change r w w') : OnTrain w' := by
  intro h hh ha
  rw [hc.trips]
  rcases hc.origin h hh with ⟨h₀, hh₀, hm⟩ | hp
  · rw [hm.place.1, hm.place.2.1]
    exact ho h₀ hh₀ (hm.active ha)
  · obtain ⟨trip, seat, htrip, hseat, hid, -⟩ := hp.seated ha
    exact ⟨trip, htrip, hid ▸ List.mem_map_of_mem hseat⟩

theorem run_onTrain (trips : List Trip) (requests : List Request) : OnTrain ((World.start trips).after requests) := by
  induction requests using List.reverseRecOn with
  | nil => exact fun h hh => absurd hh (by simp [World.after, World.start, World.holds, MemoryUow.make])
  | append_singleton rs r ih =>
      rw [World.after_snoc]
      exact ih.change (serve_change (run_onLine trips rs).1 r)

/-- The active bookings of the trip in the second store include the first's: the same booking is active there on
    the same seat and leg, held still or paid for since. -/
def IncludesActive (w w' : World) (tripId : String) : Prop :=
  ∀ h ∈ MemoryRepo.activeHolds w.holds tripId, ∃ h' ∈ MemoryRepo.activeHolds w'.holds tripId,
    h'.bookingId = h.bookingId ∧ h'.seatId = h.seatId ∧ h'.leg = h.leg

instance (w w' : World) (tripId : String) : Decidable (IncludesActive w w' tripId) :=
  inferInstanceAs (Decidable (∀ _ ∈ _, ∃ _ ∈ _, _))

section Demand

variable {w w' : World} {trip : Trip} {leg : Leg}

theorem occupancyOn_nonneg (holds : List Hold) (trip : Trip) (leg : Leg) : 0 ≤ occupancyOn holds trip leg := by
  by_cases hseats : trip.seats = []
  · simp [occupancyOn, hseats]
  · rw [occupancyOn_eq leg hseats]
    positivity

/-- Distinct busy seats are seats of the trip. -/
theorem occupancyOn_le_one (ho : OnTrain w) (htrip : MemoryRepo.getTrip w.trips trip.tripId = .ok trip) :
    occupancyOn w.holds trip leg ≤ 1 := by
  by_cases hseats : trip.seats = []
  · simp [occupancyOn, hseats]
  · have hsub : (busySeats w.holds trip leg).dedup ⊆ trip.seats.map (·.seatId) := by
      intro s hs
      obtain ⟨h, hh, ht, rfl, ha, -⟩ := mem_busySeats.mp (List.mem_dedup.mp hs)
      obtain ⟨trip', htrip', hmem⟩ := ho h hh ha
      rw [ht] at htrip'
      obtain rfl := Except.ok.inj (htrip.symm.trans htrip')
      exact hmem
    have hlen := ((List.nodup_dedup _).subperm hsub).length_le
    rw [List.length_map] at hlen
    rw [occupancyOn_eq leg hseats]
    exact div_le_one_of_le₀ (by exact_mod_cast hlen) (by positivity)

/-- More active bookings, no lower occupancy: of a booking only the seat and the leg count. -/
theorem occupancyOn_mono (hmore : IncludesActive w w' trip.tripId) :
    occupancyOn w.holds trip leg ≤ occupancyOn w'.holds trip leg := by
  by_cases hseats : trip.seats = []
  · simp [occupancyOn, hseats]
  · have hsub : (busySeats w.holds trip leg).dedup ⊆ (busySeats w'.holds trip leg).dedup := by
      intro s hs
      rw [List.mem_dedup] at hs ⊢
      obtain ⟨h, hh, rfl⟩ := List.mem_map.mp hs
      obtain ⟨hin, hover⟩ := List.mem_filter.mp hh
      obtain ⟨h', hin', -, hseat, hleg⟩ := hmore h hin
      exact List.mem_map.mpr ⟨h', List.mem_filter.mpr ⟨hin', hleg ▸ hover⟩, hseat⟩
    have hlen := ((List.nodup_dedup _).subperm hsub).length_le
    rw [occupancyOn_eq leg hseats, occupancyOn_eq leg hseats]
    exact div_le_div_of_nonneg_right (by exact_mod_cast hlen) (by positivity)

/-- What a price is made of. -/
theorem legPrice_ok_iff {deps : Deps} {holds : List Hold} {c : TravelClass} {mult : ℚ} {fare : Money}
    (hmult : classMult deps c = .ok mult) : legPrice deps holds trip leg c = .ok fare ↔
      ∃ d, legDistanceKm trip leg = .ok d ∧ deps.price d mult (occupancyOn holds trip leg) = .ok fare := by
  unfold legPrice
  cases legDistanceKm trip leg with
  | error e => simp [bind, Except.bind]
  | ok d => simp [bind, Except.bind, hmult]

end Demand

/-- `price_leg` on this store gives this fare. -/
def PricedAt (w : World) (deps : Deps) (trip : Trip) (leg : Leg) (c : TravelClass) (fare : Money) : Prop :=
  ((priceLeg deps trip leg c).run (World.exec declineAll) w).1 = .ok fare

theorem pricedAt_iff {w : World} {deps : Deps} {trip : Trip} {leg : Leg} {c : TravelClass} {fare : Money} :
    PricedAt w deps trip leg c fare ↔ legPrice deps w.holds trip leg c = .ok fare := by
  rw [PricedAt, run_priceLeg]

/-- **Demand pricing is bounded and monotone.** On a line whose kilometres do not go back, with a rate, a class
    multiplier and a band that are not negative: more active bookings never make a leg cheaper; the occupancy of a
    reachable store lies in `[0, 1]`; every fare lies between the base at the floor and the base at the ceiling,
    rounded; and a longer leg at the same occupancy is no cheaper. -/
theorem demand_pricing (trips : List Trip) (trip : Trip) (deps : Deps) (strategy : DynamicFare) (c : TravelClass)
    (mult : ℚ) (hstored : MemoryRepo.getTrip (World.start trips).trips trip.tripId = .ok trip)
    (hkm : KmRises trip.stations)
    (hprice : deps.price = strategy.price) (hrate : 0 ≤ strategy.ratePerKm.cents) (hclass : classMult deps c = .ok mult)
    (hmult : 0 ≤ mult) (hfloor : 0 ≤ strategy.floor) (hband : strategy.floor ≤ strategy.ceiling) :
    (∀ past past' leg fare,
      IncludesActive ((World.start trips).after past) ((World.start trips).after past') trip.tripId →
      PricedAt ((World.start trips).after past) deps trip leg c fare →
      ∃ fare', PricedAt ((World.start trips).after past') deps trip leg c fare' ∧ fare.cents ≤ fare'.cents) ∧
    (∀ past leg, ∃ occupancy, ((occupancyOverLeg trip leg).run (World.exec declineAll)
      ((World.start trips).after past)).1 = .ok occupancy ∧ 0 ≤ occupancy ∧ occupancy ≤ 1) ∧
    (∀ past leg d, legDistanceKm trip leg = .ok d → ∃ fare,
      PricedAt ((World.start trips).after past) deps trip leg c fare ∧
      (roundCents ((distanceFare d strategy.ratePerKm mult).cents * strategy.floor)).cents ≤ fare.cents ∧
      fare.cents ≤ (roundCents ((distanceFare d strategy.ratePerKm mult).cents * strategy.ceiling)).cents) ∧
    (∀ (leg leg' : Leg) d d' occupancy fare fare', leg'.originSeq ≤ leg.originSeq → leg.destSeq ≤ leg'.destSeq →
      legDistanceKm trip leg = .ok d → legDistanceKm trip leg' = .ok d' →
      strategy.price d mult occupancy = .ok fare → strategy.price d' mult occupancy = .ok fare' →
      fare.cents ≤ fare'.cents) := by
  have hbase : ∀ {leg d}, legDistanceKm trip leg = .ok d → 0 ≤ (distanceFare d strategy.ratePerKm mult).cents :=
    fun hd => distanceFare_cents_nonneg hrate hmult (distanceKm_nonneg hkm hd)
  refine ⟨?_, ?_, ?_, ?_⟩
  · -- the distance is that of the leg in both stores; only the occupancy has grown
    intro past past' leg fare hmore hpriced
    rw [pricedAt_iff, legPrice_ok_iff hclass, hprice] at hpriced
    obtain ⟨d, hd, hfare⟩ := hpriced
    obtain ⟨fare', hfare', -⟩ := DynamicFare.price_between (hbase hd) hfloor hband
    refine ⟨fare', ?_, DynamicFare.price_mono (hbase hd) hfloor (occupancyOn_mono hmore) hfare hfare'⟩
    rw [pricedAt_iff, legPrice_ok_iff hclass, hprice]
    exact ⟨d, hd, hfare'⟩
  · intro past leg
    refine ⟨_, by rw [run_occupancyOverLeg], occupancyOn_nonneg _ _ _, ?_⟩
    exact occupancyOn_le_one (run_onTrain trips past) (by rwa [trips_after])
  · intro past leg d hd
    obtain ⟨fare, hfare, hlow, hhigh⟩ := DynamicFare.price_between (hbase hd) hfloor hband
    refine ⟨fare, ?_, hlow, hhigh⟩
    rw [pricedAt_iff, legPrice_ok_iff hclass, hprice]
    exact ⟨d, hd, hfare⟩
  · intro leg leg' d d' occupancy fare fare' ho he hd hd' hfare hfare'
    have hle := distanceKm_mono hkm ho he hd hd'
    exact DynamicFare.price_le (hbase hd) (distanceFare_mono hrate hmult (distanceKm_nonneg hkm hd) hle) hfloor le_rfl
      hfare hfare'

/-- One seat held over the whole line; and the same seat paid for, with another held over the first hop. -/
def oneHeld : List Request := [⟨.hold "slow" "A1" wholeLine "nic1" "Nimal" none, demandDeps 0 "1", acceptAll⟩]

def paidAndOneMore : List Request := oneHeld ++
  [⟨.confirm "b1", demandDeps 60 "2", acceptAll⟩,
   ⟨.hold "slow" "A2" firstHop "nic2" "Kamala" none, demandDeps 120 "3", acceptAll⟩]

/-- The sample line under a demand band, between the two stores: the held booking is a paid one by then. -/
theorem demand_pricing_sample :
    (∀ fare, PricedAt ((World.start sampleTrips).after oneHeld) (demandDeps 200 "4")
        (sampleTrip "slow" [originStop, middleStop, terminusStop]) wholeLine .first fare →
      ∃ fare', PricedAt ((World.start sampleTrips).after paidAndOneMore) (demandDeps 200 "4")
        (sampleTrip "slow" [originStop, middleStop, terminusStop]) wholeLine .first fare' ∧
        fare.cents ≤ fare'.cents) ∧
    (((World.start sampleTrips).after oneHeld).serve
      ⟨.quote "slow" wholeLine .first, demandDeps 200 "4", acceptAll⟩).1.toOption = some ⟨36733⟩ ∧
    (((World.start sampleTrips).after paidAndOneMore).serve
      ⟨.quote "slow" wholeLine .first, demandDeps 200 "4", acceptAll⟩).1.toOption = some ⟨44467⟩ ∧
    ∃ fare, PricedAt ((World.start sampleTrips).after paidAndOneMore) (demandDeps 200 "4")
      (sampleTrip "slow" [originStop, middleStop, terminusStop]) wholeLine .first fare ∧
      29000 ≤ fare.cents ∧ fare.cents ≤ 52200 := by
  obtain ⟨hmono, -, hbetween, -⟩ := demand_pricing sampleTrips
    (sampleTrip "slow" [originStop, middleStop, terminusStop]) (demandDeps 200 "4") { ratePerKm := ⟨100⟩ } .first 1
    (by decide +kernel) (by unfold KmRises; decide +kernel) rfl (by decide) rfl (by decide +kernel)
    (by decide +kernel) (by decide +kernel)
  refine ⟨fun fare => hmono oneHeld paidAndOneMore wholeLine fare (by decide +kernel), by decide +kernel,
    by decide +kernel, ?_⟩
  obtain ⟨fare, hfare, hlow, hhigh⟩ := hbetween paidAndOneMore wholeLine 290 (by decide +kernel)
  have hfloor : (roundCents ((distanceFare 290 ⟨100⟩ 1).cents * 1)).cents = 29000 := by decide +kernel
  have hceiling : (roundCents ((distanceFare 290 ⟨100⟩ 1).cents * (9 / 5))).cents = 52200 := by decide +kernel
  exact ⟨fare, hfare, hfloor ▸ hlow, hceiling ▸ hhigh⟩

end SlrBooking
