import SlrBooking.Runs.Effects
import SlrBooking.Usecases.Impact
import SlrBooking.Domain.Segments

/-!
# `Runs.Impact` — the impact report against the seats really taken

The report packs the active legs of a trip anew, as tightly as they go. The seats the bookings were put on one by one
are a packing too, so the report's is no larger.

## Contents
- `Consistent`: what every run keeps. `run_consistent`.
- `activeSeats`, `tripSeats`. `active_assigned`: the seats taken are a packing of the active legs.
- `distanceKm_le_route`. `impactReport_ok_iff`: the report in closed form.
- `impact_never_overstates`: the run theorem.
-/

namespace SlrBooking

open Theory Rows

/-! ## What every run keeps -/

/-- The store is safe, its bookings are on their trips' lines and the active ones on seats of their trips. -/
structure Consistent (w : World) : Prop where
  safe   : Safe w.holds
  onLine : OnLine w
  seated : ∀ h ∈ w.holds, h.status.isActive = true → ∃ trip seat, MemoryRepo.getTrip w.trips h.tripId = .ok trip ∧
      seat ∈ trip.seats ∧ seat.seatId = h.seatId

theorem Consistent.change {r : Request} {w w' : World} (h : Consistent w) (hc : Change r w w') : Consistent w' := by
  refine ⟨h.safe.change hc, h.onLine.change hc, fun b hb hactive => ?_⟩
  rw [hc.trips]
  rcases hc.origin b hb with ⟨b₀, hb₀, hm⟩ | hp
  · obtain ⟨htrip, hseat, -, -⟩ := hm.place
    rw [htrip, hseat]
    exact h.seated b₀ hb₀ (hm.active hactive)
  · obtain ⟨trip, seat, htrip, hseat, hid, -⟩ := hp.seated hactive
    exact ⟨trip, seat, htrip, hseat, hid⟩

/-- **Every run is consistent**, whatever ids it draws. -/
theorem run_consistent (trips : List Trip) (requests : List Request) :
    Consistent ((World.start trips).after requests) := by
  induction requests using List.reverseRecOn with
  | nil => exact ⟨safe_empty, (run_onLine trips []).2, fun h hh => absurd hh List.not_mem_nil⟩
  | append_singleton rs r ih =>
      rw [World.after_snoc]
      exact ih.change (serve_change ih.safe.keyed r)

/-! ## The seats taken -/

/-- The seats that carry an active booking of the trip. -/
def activeSeats (holds : List Hold) (tripId : String) : Finset String :=
  ((MemoryRepo.activeHolds holds tripId).map (·.seatId)).toFinset

def tripSeats (trip : Trip) : Finset String := (trip.seats.map (·.seatId)).toFinset

section Store

variable {holds : List Hold} {tripId : String}

theorem mem_activeHolds {h : Hold} :
    h ∈ MemoryRepo.activeHolds holds tripId ↔ h ∈ holds ∧ h.tripId = tripId ∧ h.status.isActive = true := by
  simp [MemoryRepo.activeHolds]

/-- **The seats taken are a packing** of the active legs: bookings of one seat do not overlap. -/
theorem active_assigned (hs : Safe holds) :
    Assigns ((MemoryRepo.activeHolds holds tripId).map (·.leg))
      ((MemoryRepo.activeHolds holds tripId).map (·.seatId)) := by
  have hkeyed : Keyed MemoryRepo.idOf (MemoryRepo.activeHolds holds tripId) :=
    hs.keyed.sublist (List.filter_sublist.map MemoryRepo.idOf)
  refine ⟨by rw [List.length_map, List.length_map], fun i j hij a ha b hb hover hseat => ?_⟩
  rw [Option.mem_def, List.getElem?_map, Option.map_eq_some_iff] at ha hb
  obtain ⟨x, hx, rfl⟩ := ha
  obtain ⟨y, hy, rfl⟩ := hb
  rw [List.getElem?_map, List.getElem?_map, hx, hy] at hseat
  have hsame : x.seatId = y.seatId := Option.some.inj hseat
  obtain ⟨hxs, hxt, hxa⟩ := mem_activeHolds.mp (List.mem_of_getElem? hx)
  obtain ⟨hys, hyt, hya⟩ := mem_activeHolds.mp (List.mem_of_getElem? hy)
  -- two places of the list are two bookings
  have hne : x.bookingId ≠ y.bookingId := fun heq => hij (index_eq_of_key_eq hkeyed hx hy heq)
  have hapart := hs.apart x hxs y hys hne (hxt.trans hyt.symm) hsame hxa hya
  rw [hapart] at hover
  cases hover

theorem activeSeats_le_legs : (activeSeats holds tripId).card ≤ (MemoryRepo.activeHolds holds tripId).length :=
  (List.toFinset_card_le _).trans_eq (List.length_map _)

end Store

theorem activeSeats_le_trip {w : World} (h : Consistent w) {tripId : String} {trip : Trip}
    (htrip : MemoryRepo.getTrip w.trips tripId = .ok trip) :
    (activeSeats w.holds tripId).card ≤ (tripSeats trip).card := by
  refine Finset.card_le_card fun seatId hseat => ?_
  obtain ⟨b, hb, rfl⟩ := List.mem_map.mp (List.mem_toFinset.mp hseat)
  obtain ⟨hstored, rfl, hactive⟩ := mem_activeHolds.mp hb
  obtain ⟨trip', seat, htrip', hmem, hid⟩ := h.seated b hstored hactive
  obtain rfl := Except.ok.inj (htrip.symm.trans htrip')
  exact List.mem_toFinset.mpr (List.mem_map.mpr ⟨seat, hmem, hid⟩)

/-! ## The report -/

/-- Every active leg of the trip has a distance. -/
theorem active_onLine {w : World} (h : Consistent w) {tripId : String} {trip : Trip}
    (htrip : MemoryRepo.getTrip w.trips tripId = .ok trip) :
    ∀ leg ∈ (MemoryRepo.activeHolds w.holds tripId).map (·.leg),
      ∃ d, leg.distanceKm (kmIndex trip.stations) = .ok d := by
  intro leg hleg
  obtain ⟨b, hb, rfl⟩ := List.mem_map.mp hleg
  obtain ⟨hstored, rfl, -⟩ := mem_activeHolds.mp hb
  obtain ⟨trip', htrip', hvalid⟩ := h.onLine b hstored
  obtain rfl := Except.ok.inj (htrip.symm.trans htrip')
  obtain ⟨horigin, hdest⟩ := validateLeg_ok hvalid
  obtain ⟨o, ho⟩ := kmIndex_of_mem horigin
  obtain ⟨e, he⟩ := kmIndex_of_mem hdest
  exact ⟨e - o, Leg.distanceKm_ok_iff.mpr ⟨o, e, ho, he, rfl⟩⟩

/-- No leg is longer than the route. -/
theorem distanceKm_le_route {stations : List Station} {route d : ℚ} (hroute : routeKm stations = .ok route) {leg : Leg}
    (hd : leg.distanceKm (kmIndex stations) = .ok d) : d ≤ route := by
  obtain ⟨o, e, ho, he, rfl⟩ := Leg.distanceKm_ok_iff.mp hd
  obtain ⟨s, hs, -, rfl⟩ := mem_of_kmIndex ho
  obtain ⟨s', hs', -, rfl⟩ := mem_of_kmIndex he
  obtain ⟨high, low, hok, hbounds⟩ := routeKm_ok (List.ne_nil_of_mem hs)
  obtain rfl := Except.ok.inj (hroute.symm.trans hok)
  have hlow := (hbounds s hs).1
  have hhigh := (hbounds s' hs').2
  linarith

section Report

variable {w : World} {g : Gateway} {tripId : String}

theorem block_impactReport :
    (w.block g (impactReport tripId)).1 = MemoryRepo.getTrip w.trips tripId >>= fun trip =>
      impactOf tripId trip ((MemoryRepo.activeHolds w.holds tripId).map (·.leg)) := by
  simp only [World.block, impactReport, Prog.bind_eq, Prog.run_bind, run_getTrip, World.trips_enter]
  cases MemoryRepo.getTrip w.trips tripId with
  | error e => rfl
  | ok trip =>
      simp only [run_activeHolds, Prog.run_ofExcept]
      rfl

/-- What the active bookings leave of the route. -/
def reclaimed (trip : Trip) (route : ℚ) (active : List Hold) : ℚ :=
  (active.map fun b => leftOver (kmIndex trip.stations) route b.leg).sum

/-- **The report in closed form.** -/
theorem impactReport_ok_iff (h : Consistent w) {report : ImpactReport} :
    (w.block g (impactReport tripId)).1 = .ok report ↔
      ∃ trip route, MemoryRepo.getTrip w.trips tripId = .ok trip ∧ routeKm trip.stations = .ok route ∧
        report = ⟨tripId, (MemoryRepo.activeHolds w.holds tripId).length,
          minSeats ((MemoryRepo.activeHolds w.holds tripId).map (·.leg)),
          reclaimed trip route (MemoryRepo.activeHolds w.holds tripId)⟩ := by
  rw [block_impactReport]
  have hof : ∀ {trip : Trip} {route : ℚ}, MemoryRepo.getTrip w.trips tripId = .ok trip →
      routeKm trip.stations = .ok route →
      impactOf tripId trip ((MemoryRepo.activeHolds w.holds tripId).map (·.leg)) =
        .ok ⟨tripId, (MemoryRepo.activeHolds w.holds tripId).length,
          minSeats ((MemoryRepo.activeHolds w.holds tripId).map (·.leg)),
          reclaimed trip route (MemoryRepo.activeHolds w.holds tripId)⟩ := by
    intro trip route htrip hroute
    unfold impactOf
    rw [hroute]
    dsimp only [bind, Except.bind]
    rw [impactSeatKm_ok route (active_onLine h htrip), List.map_map, List.length_map]
    rfl
  constructor
  · intro hok
    obtain ⟨trip, htrip, hok⟩ := bind_ok hok
    obtain ⟨route, hroute, -⟩ := bind_ok hok
    exact ⟨trip, route, htrip, hroute, Except.ok.inj (hok.symm.trans (hof htrip hroute))⟩
  · rintro ⟨trip, route, htrip, hroute, rfl⟩
    rw [htrip]
    exact hof htrip hroute

end Report

theorem reclaimed_nonneg {w : World} (h : Consistent w) {tripId : String} {trip : Trip} {route : ℚ}
    (htrip : MemoryRepo.getTrip w.trips tripId = .ok trip) (hroute : routeKm trip.stations = .ok route) :
    0 ≤ reclaimed trip route (MemoryRepo.activeHolds w.holds tripId) := by
  refine List.sum_nonneg fun x hx => ?_
  obtain ⟨b, hb, rfl⟩ := List.mem_map.mp hx
  obtain ⟨d, hd⟩ := active_onLine h htrip b.leg (List.mem_map_of_mem hb)
  have hle := distanceKm_le_route hroute hd
  rw [leftOver_eq hd]
  linarith

/-- **The impact report never overstates seats.** After any run, for every trip with a station there is a report; the
    seats it says would do are at most those that carry an active booking, which are at most the active legs and at
    most the trip's seats; the seat-km reclaimed are not negative, and in any store with one active booking more they
    are more by the route's length less the booking's. -/
theorem impact_never_overstates (trips : List Trip) (requests : List Request) (g : Gateway) (tripId : String) :
    let w := (World.start trips).after requests
    (∀ trip, MemoryRepo.getTrip w.trips tripId = .ok trip → trip.stations ≠ [] →
      ∃ report, (w.block g (impactReport tripId)).1 = .ok report) ∧
    ∀ report, (w.block g (impactReport tripId)).1 = .ok report →
      ∃ trip route, MemoryRepo.getTrip w.trips tripId = .ok trip ∧ routeKm trip.stations = .ok route ∧
        report.seatsUsed ≤ (activeSeats w.holds tripId).card ∧
        (activeSeats w.holds tripId).card ≤ report.activeLegs ∧
        (activeSeats w.holds tripId).card ≤ (tripSeats trip).card ∧
        0 ≤ report.seatKmReclaimed ∧
        ∀ requests' g' b,
          (MemoryRepo.activeHolds ((World.start trips).after requests').holds tripId).Perm
            (b :: MemoryRepo.activeHolds w.holds tripId) →
          ∃ report' d, (((World.start trips).after requests').block g' (impactReport tripId)).1 = .ok report' ∧
            b.leg.distanceKm (kmIndex trip.stations) = .ok d ∧
            report'.seatKmReclaimed = report.seatKmReclaimed + (route - d) := by
  intro w
  have hw : Consistent w := run_consistent trips requests
  refine ⟨fun trip htrip hne => ?_, fun report hreport => ?_⟩
  · obtain ⟨high, low, hroute, -⟩ := routeKm_ok hne
    exact ⟨_, (impactReport_ok_iff hw).mpr ⟨trip, _, htrip, hroute, rfl⟩⟩
  · obtain ⟨trip, route, htrip, hroute, rfl⟩ := (impactReport_ok_iff hw).mp hreport
    refine ⟨trip, route, htrip, hroute, (active_assigned hw.safe).minSeats_le, activeSeats_le_legs,
      activeSeats_le_trip hw htrip, reclaimed_nonneg hw htrip hroute, fun requests' g' b hperm => ?_⟩
    have hw' := run_consistent trips requests'
    -- no request touches the trips
    have htrip' : MemoryRepo.getTrip ((World.start trips).after requests').trips tripId = .ok trip := by
      rw [trips_after] at htrip ⊢
      exact htrip
    obtain ⟨d, hd⟩ := active_onLine hw' htrip' b.leg (List.mem_map_of_mem (hperm.mem_iff.mpr List.mem_cons_self))
    refine ⟨_, d, (impactReport_ok_iff hw').mpr ⟨trip, route, htrip', hroute, rfl⟩, hd, ?_⟩
    show reclaimed trip route (MemoryRepo.activeHolds ((World.start trips).after requests').holds tripId) =
      reclaimed trip route (MemoryRepo.activeHolds w.holds tripId) + (route - d)
    unfold reclaimed
    rw [(hperm.map _).sum_eq, List.map_cons, List.sum_cons, leftOver_eq hd, add_comm]

/-- One hop of a line of 290 km is sold, 120 km long; then the other on the same seat, 170 km long. -/
theorem impact_never_overstates_sample :
    ∃ report report',
      (((World.start sampleTrips).after (sampleRun.take 2)).block acceptAll (impactReport "slow")).1 = .ok report ∧
      (((World.start sampleTrips).after (sampleRun.take 3)).block acceptAll (impactReport "slow")).1 = .ok report' ∧
      report.seatsUsed ≤ (activeSeats ((World.start sampleTrips).after (sampleRun.take 2)).holds "slow").card ∧
      report'.seatKmReclaimed = report.seatKmReclaimed + (290 - 170) := by
  have hfound : MemoryRepo.getTrip ((World.start sampleTrips).after (sampleRun.take 2)).trips "slow" =
      .ok (sampleTrip "slow" [originStop, middleStop, terminusStop]) := by
    rw [trips_after]
    rfl
  have hlength : routeKm sampleStations = .ok 290 := by decide +kernel
  have hhop : secondHop.distanceKm (kmIndex sampleStations) = .ok 170 := by decide +kernel
  have hadded : ∃ b, b.leg = secondHop ∧
      (MemoryRepo.activeHolds ((World.start sampleTrips).after (sampleRun.take 3)).holds "slow").Perm
        (b :: MemoryRepo.activeHolds ((World.start sampleTrips).after (sampleRun.take 2)).holds "slow") :=
    ⟨⟨"b3", "SLR-3", "slow", "A1", secondHop, "nic2", "Kamala", .first, .held, 10000, 920, 20⟩, rfl, by decide +kernel⟩
  obtain ⟨b, hleg, hperm⟩ := hadded
  obtain ⟨hexists, hall⟩ := impact_never_overstates sampleTrips (sampleRun.take 2) acceptAll "slow"
  obtain ⟨report, hreport⟩ := hexists _ hfound (by decide)
  obtain ⟨trip, route, htrip, hroute, hused, -, -, -, hgrows⟩ := hall report hreport
  obtain ⟨report', d, hreport', hd, hmore⟩ := hgrows (sampleRun.take 3) acceptAll b hperm
  obtain rfl := Except.ok.inj (hfound.symm.trans htrip)
  obtain rfl := Except.ok.inj (hlength.symm.trans hroute)
  rw [hleg] at hd
  obtain rfl := Except.ok.inj (hhop.symm.trans hd)
  exact ⟨report, report', hreport, hreport', hused, hmore⟩

end SlrBooking
