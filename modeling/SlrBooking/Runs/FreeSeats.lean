import SlrBooking.Runs.Offers
import SlrBooking.Runs.Velocity

/-!
# `Runs.FreeSeats` — three views of what is free

The search counts against a set of busy seats, the availability scans the trip's bookings for each seat, the
insert scans the bookings of one seat. All three look at the store after the same sweep.

## Contents
- `LegAvailability.shows`, `LegAvailability.freeOf`, `TrainOption.freeOf`: what is compared.
- `PortsAnswer`: the fares and the configuration answer. `ViewsAgree`: the law.
- `search_counts`, `search_answers`, `NewHold.takes`: each view against the scan for each seat. `views_agree`.
-/

namespace SlrBooking

open Theory Rows

/-! ## What the three views say of a seat -/

/-- The seat is listed as available. -/
def LegAvailability.shows (a : LegAvailability) (seatId : String) : Bool :=
  a.seats.any fun s => s.seatId = seatId && s.available

/-- How many reserved seats of a class are listed as available. -/
def LegAvailability.freeOf (a : LegAvailability) (trip : Trip) (c : TravelClass) : Nat :=
  (trip.seats.filter fun s => s.coachType = .reserved && s.travelClass = c && a.shows s.seatId).length

/-- The free seats reported for a class; a class that is not listed has none. -/
def TrainOption.freeOf (o : TrainOption) (c : TravelClass) : Nat :=
  (o.classes.find? fun a => a.travelClass = c).elim 0 (·.freeSeats)

/-- The ports answer what a hold asks of them: the fare strategy prices every journey, and the configuration has the
    class multipliers and the hold's lifetime. -/
structure PortsAnswer (deps : Deps) : Prop where
  ttl  : ∃ ttl, deps.getInt holdTtl = .ok ttl
  mult : ∀ c, ∃ m, classMult deps c = .ok m
  fare : ∀ distanceKm mult occupancy, ∃ fare, deps.price distanceKm mult occupancy = .ok fare

/-- The train departs from somewhere, over a line whose positions are not negative. -/
structure Trip.Regular (t : Trip) : Prop where
  departs : ∃ m, departureMin t.stops = .ok m
  line    : ∀ s ∈ t.stations, 0 ≤ s.seq

/-- A hold that is no replay, under a fresh id, by a passenger the gate admits: what it now depends on is the seat
    alone. -/
structure NewHold (w : World) (tripId passengerId : String) (reference : Option String) (deps : Deps) : Prop where
  unknown : replayed w.holds reference = none
  fresh   : deps.newId ∉ w.holds.map (·.bookingId)
  allowed : antiTout deps passengerId deps.now (MemoryRepo.activeForPassenger (w.swept deps.now) tripId passengerId) =
      .ok ()
  ports   : PortsAnswer deps

/-- **The three views agree** on a leg: the search, the seat view `a`, and the holds of every seat. A seat is free in
    all of them or in none. -/
structure ViewsAgree (w : World) (deps : Deps) (g : Gateway) (trip : Trip) (origin dest : Station) (leg : Leg)
    (a : LegAvailability) : Prop where
  /-- A search of the day that answers lists the train, with the availability's count for every class. -/
  counted : ∀ options, (w.serve ⟨.search origin.code dest.code trip.serviceDate, deps, g⟩).1 = .ok options →
      (∃ o ∈ options, o.tripId = trip.tripId) ∧
        ∀ o ∈ options, o.tripId = trip.tripId → ∀ c, o.freeOf c = a.freeOf trip c
  /-- Inside the booking window it answers. -/
  answers : checkSearch deps origin.code dest.code trip.serviceDate = .ok () → PortsAnswer deps →
      (∀ t ∈ w.trips, t.serviceDate = trip.serviceDate → t.Regular) →
      ∃ options, (w.serve ⟨.search origin.code dest.code trip.serviceDate, deps, g⟩).1 = .ok options
  /-- A new hold of a reserved seat takes it if it is available, and meets another booking if it is not. -/
  held    : ∀ seat ∈ trip.seats, seat.coachType = .reserved → ∀ passengerId name reference deps' g',
      deps'.now = deps.now → NewHold w trip.tripId passengerId reference deps' →
      (a.shows seat.seatId = true → ∃ b,
        (w.serve ⟨.hold trip.tripId seat.seatId leg passengerId name reference, deps', g'⟩).1 = .ok b) ∧
      (a.shows seat.seatId = false → ∃ detail,
        (w.serve ⟨.hold trip.tripId seat.seatId leg passengerId name reference, deps', g'⟩).1 =
          .error (.domain .overlapError detail))

/-! ## One seat in each view

A seat is free over the leg when no active booking of it overlaps; the search counts such seats, the map shows them,
and the insert refuses the others. -/

section Views

variable {holds : List Hold} {trip : Trip} {leg : Leg}

/-- **The set of busy seats against the scan for each seat.** -/
theorem seatFree_iff {seatId : String} :
    seatFree holds trip.tripId leg seatId = true ↔ seatId ∉ busySeats holds trip leg := by
  unfold seatFree busySeats
  rw [Bool.not_eq_true', List.any_eq_false, List.mem_map]
  constructor
  · rintro hall ⟨h, hh, rfl⟩
    obtain ⟨hactive, hover⟩ := List.mem_filter.mp hh
    exact hall h hactive (by simp [hover])
  · intro hno h hactive hscan
    simp only [Bool.and_eq_true, decide_eq_true_eq] at hscan
    exact hno ⟨h, List.mem_filter.mpr ⟨hactive, hscan.2⟩, hscan.1⟩

/-- **The scan for each seat against the insert's scan.** -/
theorem addHold_of_seatFree {hold : Hold} (hid : hold.bookingId ∉ holds.map (·.bookingId)) :
    (seatFree holds hold.tripId hold.leg hold.seatId = true → ∃ holds', MemoryRepo.addHold holds hold = .ok holds') ∧
    (seatFree holds hold.tripId hold.leg hold.seatId = false →
      ∃ detail, MemoryRepo.addHold holds hold = .error (.domain .overlapError detail)) := by
  have hscan : seatFree holds hold.tripId hold.leg hold.seatId = (MemoryRepo.overlapping holds hold).isNone := by
    rw [Bool.eq_iff_iff, Option.isNone_iff_eq_none, MemoryRepo.overlapping, List.find?_eq_none, seatFree,
      Bool.not_eq_true', List.any_eq_false]
    constructor
    · intro hall e he hclash
      obtain ⟨hstored, htrip, hseat, hactive⟩ := MemoryRepo.mem_activeForSeat.mp he
      simp only [Bool.and_eq_true, decide_eq_true_eq] at hclash
      refine hall e ?_ ?_
      · simp [MemoryRepo.activeHolds, hstored, htrip, hactive]
      · simp only [Bool.and_eq_true, decide_eq_true_eq]
        exact ⟨hseat, hclash.2⟩
    · intro hall e he hbusy
      simp only [MemoryRepo.activeHolds, List.mem_filter, Bool.and_eq_true, decide_eq_true_eq] at he
      simp only [Bool.and_eq_true, decide_eq_true_eq] at hbusy
      have hne : e.bookingId ≠ hold.bookingId := fun heq => hid (heq ▸ List.mem_map_of_mem he.1)
      refine hall e ?_ ?_
      · exact MemoryRepo.mem_activeForSeat.mpr ⟨he.1, he.2.1, hbusy.1, he.2.2⟩
      · simp only [Bool.and_eq_true, decide_eq_true_eq]
        exact ⟨hne, hbusy.2⟩
  rw [hscan]
  unfold MemoryRepo.addHold
  cases MemoryRepo.overlapping holds hold with
  | none => exact ⟨fun _ => ⟨_, rfl⟩, fun h => Bool.noConfusion h⟩
  | some e => exact ⟨fun h => Bool.noConfusion h, fun _ => ⟨_, rfl⟩⟩

/-- The answer shows a seat of the trip available exactly when it is free. -/
theorem availabilityOn_shows {tripId : String} {seat : Seat} (hseat : seat ∈ trip.seats) :
    (availabilityOn holds trip tripId leg).shows seat.seatId = seatFree holds tripId leg seat.seatId := by
  rw [Bool.eq_iff_iff]
  unfold LegAvailability.shows availabilityOn
  rw [List.any_map, List.any_eq_true]
  constructor
  · rintro ⟨s, -, hs⟩
    simp only [Function.comp_apply, Bool.and_eq_true, decide_eq_true_eq] at hs
    exact hs.1 ▸ hs.2
  · intro hfree
    exact ⟨seat, hseat, by simp [hfree]⟩

/-- **The counts.** -/
theorem Offers.freeOf {deps : Deps} {originCode destCode : String} {origin dest : Station} {times : LegTimes}
    {classes : List ClassAvailability} {distanceKm : ℚ}
    (ho : Offers deps holds trip originCode destCode origin dest leg times classes distanceKm) (c : TravelClass) :
    (optionFor trip origin dest times classes distanceKm).freeOf c =
      (availabilityOn holds trip trip.tripId leg).freeOf trip c := by
  obtain ⟨hcs, hall⟩ := classesOn_ok ho.priced
  have hcount : (availabilityOn holds trip trip.tripId leg).freeOf trip c =
      ((reservableSeats trip).filter fun s => s.travelClass = c && s.seatId ∉ busySeats holds trip leg).length := by
    unfold LegAvailability.freeOf reservableSeats
    rw [List.filter_filter]
    congr 1
    refine List.filter_congr fun s hs => ?_
    have hfree : decide (s.seatId ∉ busySeats holds trip leg) = seatFree holds trip.tripId leg s.seatId := by
      rw [Bool.eq_iff_iff, decide_eq_true_eq]
      exact seatFree_iff.symm
    rw [availabilityOn_shows hs, hfree]
    ac_rfl
  rw [hcount]
  unfold TrainOption.freeOf optionFor
  dsimp only
  cases hfind : classes.find? fun a => a.travelClass = c with
  | some a =>
      have hac : a.travelClass = c := by simpa using List.find?_some hfind
      rw [← hac]
      exact (hall a (List.mem_of_find?_eq_some hfind)).1
  | none =>
      -- no entry: the train has no reservable seat of the class
      have habsent : c ∉ presentClasses trip := by
        rw [← hcs]
        intro hmem
        obtain ⟨a, ha, hac⟩ := List.mem_map.mp hmem
        exact List.find?_eq_none.mp hfind a ha (by simpa using hac)
      have hnone : ∀ s ∈ reservableSeats trip, s.travelClass ≠ c := by
        intro s hs hsc
        refine habsent (List.mem_filter.mpr ⟨?_, ?_⟩)
        · cases c <;> simp [classOrder]
        · simpa using ⟨s, hs, hsc⟩
      symm
      show _ = 0
      rw [List.length_eq_zero_iff, List.filter_eq_nil_iff]
      intro s hs
      simp [hnone s hs]

end Views

/-! ## Legs and prices of trips on the line -/

section Stations

variable {trip : Trip} {leg : Leg} {origin dest : Station}

/-- With distinct codes, a station's code finds it. -/
theorem stationByCode_of_mem (hcodes : (trip.stations.map (·.code)).Nodup) {s : Station} (hs : s ∈ trip.stations) :
    stationByCode trip s.code = some s := by
  cases hfind : stationByCode trip s.code with
  | none => exact absurd (List.find?_eq_none.mp hfind s hs) (by simp)
  | some s' =>
      have hcode : s'.code = s.code := by simpa using List.find?_some hfind
      exact congrArg some (List.inj_on_of_nodup_map hcodes (List.mem_of_find?_eq_some hfind) hs hcode)

theorem validateLeg_of_mem (ho : origin ∈ trip.stations) (hd : dest ∈ trip.stations)
    (hdep : leg.originSeq = origin.seq) (harr : leg.destSeq = dest.seq) : validateLeg trip leg = .ok () := by
  unfold validateLeg
  rw [if_pos]
  rw [hdep, harr]
  exact ⟨List.mem_map_of_mem ho, List.mem_map_of_mem hd⟩

/-- A leg on the line has a length. -/
theorem legDistanceKm_ok (hleg : validateLeg trip leg = .ok ()) : ∃ km, legDistanceKm trip leg = .ok km := by
  obtain ⟨ho, hd⟩ := validateLeg_ok hleg
  have hindex : ∀ seq ∈ trip.stations.map (·.seq), ∃ km, kmIndex trip.stations seq = some km := by
    intro seq hseq
    unfold kmIndex
    cases hfind : trip.stations.reverse.find? fun s => s.seq = seq with
    | some s => exact ⟨s.km, rfl⟩
    | none =>
        obtain ⟨s, hs, rfl⟩ := List.mem_map.mp hseq
        exact absurd (List.find?_eq_none.mp hfind s (List.mem_reverse.mpr hs)) (by simp)
  obtain ⟨o, hko⟩ := hindex _ ho
  obtain ⟨d, hkd⟩ := hindex _ hd
  unfold legDistanceKm Leg.distanceKm
  rw [hkd, hko]
  exact ⟨d - o, rfl⟩

/-- A leg on the line has a price. -/
theorem PortsAnswer.priced {deps : Deps} (hp : PortsAnswer deps) (holds : List Hold)
    (hleg : validateLeg trip leg = .ok ()) (c : TravelClass) : ∃ fare, legPrice deps holds trip leg c = .ok fare := by
  obtain ⟨km, hkm⟩ := legDistanceKm_ok hleg
  obtain ⟨m, hm⟩ := hp.mult c
  obtain ⟨fare, hfare⟩ := hp.fare km m (occupancyOn holds trip leg)
  refine ⟨fare, ?_⟩
  unfold legPrice
  rw [hkm, hm]
  exact hfare

/-- With distinct ids, a reserved seat's id finds it. -/
theorem reservedSeat_of_mem (hseats : (trip.seats.map (·.seatId)).Nodup) {seat : Seat} (hs : seat ∈ trip.seats)
    (hkind : seat.coachType = .reserved) : reservedSeat trip seat.seatId = .ok seat := by
  unfold reservedSeat
  cases hfind : trip.seats.find? fun s => s.seatId = seat.seatId with
  | none => exact absurd (List.find?_eq_none.mp hfind seat hs) (by simp)
  | some s =>
      have hid : s.seatId = seat.seatId := by simpa using List.find?_some hfind
      obtain rfl := List.inj_on_of_nodup_map hseats (List.mem_of_find?_eq_some hfind) hs hid
      exact if_pos hkind

end Stations

/-! ## The search answers -/

section Answers

variable {deps : Deps} (holds : List Hold)

theorem PortsAnswer.classesOn (hp : PortsAnswer deps) {trip : Trip} {leg : Leg} (hleg : validateLeg trip leg = .ok ())
    (reservable : List Seat) (busy : List String) :
    ∀ cs, ∃ classes, classesOn deps holds trip leg reservable busy cs = .ok classes
  | [] => ⟨[], rfl⟩
  | c :: rest => by
      obtain ⟨fare, hfare⟩ := hp.priced holds hleg c
      obtain ⟨others, hothers⟩ := hp.classesOn hleg reservable busy rest
      have hcons : SlrBooking.classesOn deps holds trip leg reservable busy (c :: rest) =
          .ok (⟨c, (reservable.filter fun s => s.travelClass = c && s.seatId ∉ busy).length, fare⟩ :: others) := by
        unfold SlrBooking.classesOn
        rw [hfare, hothers]
        rfl
      exact ⟨_, hcons⟩

theorem mem_of_stationByCode {trip : Trip} {code : String} {s : Station} (h : stationByCode trip code = some s) :
    s ∈ trip.stations := List.mem_of_find?_eq_some h

/-- A train whose journeys are priced is looked at without an error. -/
theorem PortsAnswer.optionOn (hp : PortsAnswer deps) {trip : Trip} (hline : ∀ s ∈ trip.stations, 0 ≤ s.seq)
    (originCode destCode : String) : ∃ option, optionOn deps holds trip originCode destCode = .ok option := by
  cases horigin : stationByCode trip originCode with
  | none => exact ⟨none, by simp [SlrBooking.optionOn, horigin]⟩
  | some origin =>
      cases hdest : stationByCode trip destCode with
      | none => exact ⟨none, by simp [SlrBooking.optionOn, horigin, hdest]⟩
      | some dest =>
          have ho := mem_of_stationByCode horigin
          have hd := mem_of_stationByCode hdest
          unfold SlrBooking.optionOn
          rw [horigin, hdest]
          dsimp only
          by_cases hback : origin.seq ≥ dest.seq
          · exact ⟨none, if_pos hback⟩
          · rw [if_neg hback, Leg.make_of_lt (hline origin ho) (by omega)]
            show ∃ option, (if (!serves trip.stops _) = true then _ else _) = _
            by_cases hserves : (!serves trip.stops ⟨origin.seq, dest.seq, hline origin ho, by omega⟩) = true
            · rw [if_pos hserves]
              exact ⟨none, rfl⟩
            · rw [if_neg hserves]
              obtain ⟨times, htimes⟩ := legTimes_ok_iff.mpr (by simpa using hserves)
              have hleg : validateLeg trip ⟨origin.seq, dest.seq, hline origin ho, by omega⟩ = .ok () :=
                validateLeg_of_mem ho hd rfl rfl
              obtain ⟨classes, hclasses⟩ := hp.classesOn holds hleg (reservableSeats trip)
                (busySeats holds trip ⟨origin.seq, dest.seq, hline origin ho, by omega⟩) (presentClasses trip)
              obtain ⟨km, hkm⟩ := legDistanceKm_ok hleg
              rw [htimes, hclasses, hkm]
              exact ⟨_, rfl⟩

theorem PortsAnswer.optionsOn (hp : PortsAnswer deps) (originCode destCode : String) :
    ∀ {trips : List Trip}, (∀ t ∈ trips, ∀ s ∈ t.stations, 0 ≤ s.seq) →
      ∃ options, optionsOn deps holds originCode destCode trips = .ok options
  | [], _ => ⟨[], rfl⟩
  | t :: rest, hline => by
      obtain ⟨option, hoption⟩ := hp.optionOn holds (hline t List.mem_cons_self) originCode destCode
      obtain ⟨others, hothers⟩ := hp.optionsOn originCode destCode fun t' ht' => hline t' (List.mem_cons_of_mem t ht')
      have hcons : SlrBooking.optionsOn deps holds originCode destCode (t :: rest) = .ok (option.toList ++ others) := by
        unfold SlrBooking.optionsOn
        rw [hoption, hothers]
        rfl
      exact ⟨_, hcons⟩

theorem departures_ok {serviceDate : String} : ∀ {trips : List Trip},
    (∀ t ∈ trips, t.serviceDate = serviceDate → ∃ m, departureMin t.stops = .ok m) →
      ∃ ds, MemoryRepo.departures serviceDate trips = .ok ds
  | [], _ => ⟨[], rfl⟩
  | t :: rest, h => by
      obtain ⟨ds, hds⟩ := departures_ok fun t' ht' => h t' (List.mem_cons_of_mem t ht')
      unfold MemoryRepo.departures
      by_cases hdate : t.serviceDate = serviceDate
      · obtain ⟨m, hm⟩ := h t List.mem_cons_self hdate
        rw [if_pos hdate, hm, hds]
        exact ⟨_, rfl⟩
      · rw [if_neg hdate]
        exact ⟨ds, hds⟩

end Answers

/-! ## The three views -/

section Serving

variable {w : World} {deps : Deps} {g : Gateway} {trip : Trip} {origin dest : Station} {leg : Leg}

/-- **The search against the availability.** -/
theorem search_counts (hkeyed : Keyed Trip.tripId w.trips) (hstored : trip ∈ w.trips)
    (hcodes : (trip.stations.map (·.code)).Nodup) (ho : origin ∈ trip.stations) (hd : dest ∈ trip.stations)
    (hdep : leg.originSeq = origin.seq) (harr : leg.destSeq = dest.seq) (hserves : serves trip.stops leg = true)
    {options : List TrainOption}
    (hsearch : (w.serve ⟨.search origin.code dest.code trip.serviceDate, deps, g⟩).1 = .ok options) :
    (∃ o ∈ options, o.tripId = trip.tripId) ∧ ∀ o ∈ options, o.tripId = trip.tripId → ∀ c,
      o.freeOf c = (availabilityOn (w.swept deps.now) trip trip.tripId leg).freeOf trip c := by
  rw [serve_search] at hsearch
  obtain ⟨_, -, hsearch⟩ := bind_ok hsearch
  obtain ⟨ts, hts, hsearch⟩ := bind_ok hsearch
  obtain ⟨hmem, hall⟩ := optionsOn_ok hsearch
  have hday : trip ∈ ts := (MemoryRepo.mem_findByDate hts).mpr ⟨hstored, rfl⟩
  have hboards := stationByCode_of_mem hcodes ho
  have halights := stationByCode_of_mem hcodes hd
  constructor
  · -- the search looked at this trip, and a served leg is offered
    obtain ⟨option, hoption⟩ := hall trip hday
    have hserved : optionOn deps (w.swept deps.now) trip origin.code dest.code = _ :=
      optionOn_served hboards halights hdep harr hserves
    rw [hoption] at hserved
    obtain ⟨times, -, hserved⟩ := bind_ok hserved.symm
    obtain ⟨classes, -, hserved⟩ := bind_ok hserved
    obtain ⟨km, -, hserved⟩ := bind_ok hserved
    rw [← Except.ok.inj hserved] at hoption
    exact ⟨_, (hmem _).mpr ⟨trip, hday, hoption⟩, rfl⟩
  · intro o hopt hid c
    obtain ⟨t, ht, hoption⟩ := (hmem o).mp hopt
    obtain ⟨origin', dest', leg', times, classes, km, hoffer, rfl⟩ := optionOn_some hoption
    obtain rfl : t = trip := eq_of_key_eq hkeyed ((MemoryRepo.mem_findByDate hts).mp ht).1 hstored hid
    obtain rfl : origin = origin' := Option.some.inj (hboards.symm.trans hoffer.boards)
    obtain rfl : dest = dest' := Option.some.inj (halights.symm.trans hoffer.alights)
    obtain rfl : leg' = leg := Leg.ext (hoffer.departs.trans hdep.symm) (hoffer.arrives.trans harr.symm)
    exact hoffer.freeOf c

/-- A search inside the booking window answers. -/
theorem search_answers {originCode destCode serviceDate : String}
    (hcheck : checkSearch deps originCode destCode serviceDate = .ok ()) (hports : PortsAnswer deps)
    (hregular : ∀ t ∈ w.trips, t.serviceDate = serviceDate → t.Regular) :
    ∃ options, (w.serve ⟨.search originCode destCode serviceDate, deps, g⟩).1 = .ok options := by
  rw [serve_search, hcheck]
  obtain ⟨ds, hds⟩ : ∃ ds, MemoryRepo.departures serviceDate w.trips = .ok ds :=
    departures_ok fun t ht hdate => (hregular t ht hdate).departs
  have hts : MemoryRepo.findByDate w.trips serviceDate = .ok (inDepartureOrder ds) := by
    unfold MemoryRepo.findByDate
    rw [hds]
    rfl
  rw [hts]
  refine hports.optionsOn _ originCode destCode fun t ht => ?_
  obtain ⟨hin, hdate⟩ := (MemoryRepo.mem_findByDate hts).mp ht
  exact (hregular t hin hdate).line

/-- **A new hold against the scan for each seat.** -/
theorem NewHold.takes {seat : Seat} {passengerId name : String} {reference : Option String}
    (hnew : NewHold w trip.tripId passengerId reference deps)
    (hfound : MemoryRepo.getTrip w.trips trip.tripId = .ok trip) (hleg : validateLeg trip leg = .ok ())
    (hseat : reservedSeat trip seat.seatId = .ok seat) :
    (seatFree (w.swept deps.now) trip.tripId leg seat.seatId = true → ∃ b,
      (w.serve ⟨.hold trip.tripId seat.seatId leg passengerId name reference, deps, g⟩).1 = .ok b) ∧
    (seatFree (w.swept deps.now) trip.tripId leg seat.seatId = false → ∃ detail,
      (w.serve ⟨.hold trip.tripId seat.seatId leg passengerId name reference, deps, g⟩).1 =
        .error (.domain .overlapError detail)) := by
  have hfresh : deps.newId ∉ (w.swept deps.now).map (·.bookingId) := by
    intro hin
    obtain ⟨x, hx, hid⟩ := List.mem_map.mp hin
    obtain ⟨y, hy, rfl⟩ := mem_swept.mp hx
    rw [MemoryRepo.retire_bookingId] at hid
    exact hnew.fresh (hid ▸ List.mem_map_of_mem hy)
  obtain ⟨fare, hfare⟩ := hnew.ports.priced (w.swept deps.now) hleg seat.travelClass
  obtain ⟨ttl, httl⟩ := hnew.ports.ttl
  have hdrafts : Drafts deps (w.swept deps.now) w.trips trip.tripId seat.seatId leg passengerId trip seat fare ttl :=
    ⟨hfound, hleg, hseat, hnew.allowed, hfare, httl⟩
  show (_ → ∃ b, (w.block g (holdSeat deps trip.tripId seat.seatId leg passengerId name reference)).1 = .ok b) ∧
    (_ → ∃ detail, (w.block g (holdSeat deps trip.tripId seat.seatId leg passengerId name reference)).1 = _)
  rcases holdSeat_drafted
      (World.block_pair g (holdSeat deps trip.tripId seat.seatId leg passengerId name reference) w) with
    ⟨b, hrep, -⟩ | ⟨-, hno, -⟩ | ⟨-, t, s, f, l, -, hplaced⟩
  · cases hrep.symm.trans hnew.unknown
  · exact absurd hdrafts (hno trip seat fare ttl)
  · have hid : (newHold deps trip.tripId seat.seatId leg passengerId name reference s f l).bookingId ∉
        (w.swept deps.now).map (·.bookingId) := hfresh
    obtain ⟨hadds, hmeets⟩ := addHold_of_seatFree hid
    rcases hplaced with ⟨e, hadd, hr, -⟩ | ⟨holds, hadd, hr, -⟩
    · refine ⟨fun hfree => ?_, fun hbusy => ?_⟩
      · obtain ⟨holds', hok⟩ := hadds hfree
        cases hadd.symm.trans hok
      · obtain ⟨detail, herr⟩ := hmeets hbusy
        obtain rfl := Except.error.inj (hadd.symm.trans herr)
        exact ⟨detail, hr⟩
    · refine ⟨fun _ => ⟨_, hr⟩, fun hbusy => ?_⟩
      obtain ⟨detail, herr⟩ := hmeets hbusy
      cases hadd.symm.trans herr

end Serving

/-- **Search, seat map and hold agree on what is free.** On every reachable store, for every trip with distinct seat
    ids and station codes and every leg it serves: the availability answers, a search of the day counts the reserved
    seats it shows, and a new hold takes a reserved seat exactly if it shows it. -/
theorem views_agree (trips : List Trip) (past : List Request) (deps : Deps) (g : Gateway) (trip : Trip)
    (origin dest : Station) (leg : Leg)
    (hfound : MemoryRepo.getTrip ((World.start trips).after past).trips trip.tripId = .ok trip)
    (hseats : (trip.seats.map (·.seatId)).Nodup) (hcodes : (trip.stations.map (·.code)).Nodup)
    (ho : origin ∈ trip.stations) (hd : dest ∈ trip.stations) (hdep : leg.originSeq = origin.seq)
    (harr : leg.destSeq = dest.seq) (hserves : serves trip.stops leg = true) :
    ∃ a, (((World.start trips).after past).serve ⟨.availability trip.tripId leg, deps, g⟩).1 = .ok a ∧
      ViewsAgree ((World.start trips).after past) deps g trip origin dest leg a := by
  have hkeyed : Keyed Trip.tripId ((World.start trips).after past).trips := by
    rw [trips_after]
    exact overlay_keyed keyed_nil trips
  generalize (World.start trips).after past = w at hfound hkeyed ⊢
  have hleg := validateLeg_of_mem ho hd hdep harr
  have hstored : trip ∈ w.trips := lookup_some_mem (getTrip_ok hfound)
  refine ⟨_, serve_availability w deps g hfound hleg, ?_, ?_, ?_⟩
  · intro options hsearch
    exact search_counts hkeyed hstored hcodes ho hd hdep harr hserves hsearch
  · exact search_answers
  · intro seat hseat hkind p n ref deps' g' hnow hnew
    rw [availabilityOn_shows hseat, ← hnow]
    exact hnew.takes hfound hleg (reservedSeat_of_mem hseats hseat hkind)

def slowTrip : Trip := sampleTrip "slow" [originStop, middleStop, terminusStop]

/-- Seat A1 of the slow train is held over the whole line; the three views of the first hop agree. -/
theorem views_agree_sample :
    ∃ a, (((World.start sampleTrips).after [holdA1]).serve
        ⟨.availability "slow" firstHop, sampleDeps 20 "3", acceptAll⟩).1 = .ok a ∧
      ViewsAgree ((World.start sampleTrips).after [holdA1]) (sampleDeps 20 "3") acceptAll slowTrip
        ⟨"FOT", "Colombo Fort", 0, 0⟩ ⟨"KDT", "Kandy", 1, 120⟩ firstHop a := by
  have hfound : MemoryRepo.getTrip ((World.start sampleTrips).after [holdA1]).trips slowTrip.tripId = .ok slowTrip := by
    rw [trips_after]
    rfl
  exact views_agree sampleTrips [holdA1] (sampleDeps 20 "3") acceptAll slowTrip _ _ firstHop hfound (by decide)
    (by decide) (by decide) (by decide) rfl rfl (by decide)

end SlrBooking
