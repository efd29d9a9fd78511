import SlrBooking.Runs.Effects

/-!
# `Runs.Offers` — what a search and an availability answer on a given store

## Contents
- `mem_findByDate`: the trips of a day.
- `classesOn`, `optionOn`, `optionsOn`: the search as functions of the stored holds; `run_trainOptions`.
- `Offers`: what a train option says, exactly; `optionOn_some`, `optionOn_served`.
- `serve_search`, `serve_availability`: the two reads, served.
-/

namespace SlrBooking

open Theory Rows

/-! ## The day's trips -/

namespace MemoryRepo

theorem departures_trips {serviceDate : String} : ∀ {trips : List Trip} {ds : List (Int × Trip)},
    departures serviceDate trips = .ok ds → ds.map (·.2) = trips.filter fun t => t.serviceDate = serviceDate
  | [], ds, h => by
      rw [← Except.ok.inj h]
      rfl
  | t :: rest, ds, h => by
      unfold departures at h
      by_cases hdate : t.serviceDate = serviceDate
      · rw [if_pos hdate] at h
        obtain ⟨d, -, h⟩ := bind_ok h
        obtain ⟨others, hothers, h⟩ := bind_ok h
        rw [← Except.ok.inj h, List.map_cons, departures_trips hothers, List.filter_cons_of_pos (by simpa using hdate)]
      · rw [if_neg hdate] at h
        rw [departures_trips h, List.filter_cons_of_neg (by simpa using hdate)]

/-- The trips of a date are the stored trips of that date. -/
theorem mem_findByDate {trips ts : List Trip} {serviceDate : String} (h : findByDate trips serviceDate = .ok ts)
    {t : Trip} : t ∈ ts ↔ t ∈ trips ∧ t.serviceDate = serviceDate := by
  obtain ⟨ds, hds, h⟩ := bind_ok h
  rw [← Except.ok.inj h, (perm_inDepartureOrder ds).mem_iff, departures_trips hds]
  simp

end MemoryRepo

/-! ## The search as a function of the store -/

section Search

variable (deps : Deps) (holds : List Hold)

/-- `classAvailabilities` on given holds. -/
def classesOn (trip : Trip) (leg : Leg) (reservable : List Seat) (busy : List String) :
    List TravelClass → Except Err (List ClassAvailability)
  | [] => .ok []
  | c :: rest => do
    let fare ← legPrice deps holds trip leg c
    let others ← classesOn trip leg reservable busy rest
    return ⟨c, (reservable.filter fun s => s.travelClass = c && s.seatId ∉ busy).length, fare⟩ :: others

/-- The seats with an active booking over part of the leg. -/
def busySeats (trip : Trip) (leg : Leg) : List String :=
  ((MemoryRepo.activeHolds holds trip.tripId).filter fun h => h.leg.overlaps leg).map (·.seatId)

def reservableSeats (trip : Trip) : List Seat := trip.seats.filter fun s => s.coachType = .reserved

/-- The classes a train has reservable seats of, best first. -/
def presentClasses (trip : Trip) : List TravelClass :=
  classOrder.filter fun c => c ∈ (reservableSeats trip).map (·.travelClass)

/-- The option's record. -/
def optionFor (trip : Trip) (origin dest : Station) (times : LegTimes) (classes : List ClassAvailability)
    (distanceKm : ℚ) : TrainOption :=
  { tripId := trip.tripId
    trainNo := trip.trainNo
    trainName := trip.trainName
    routeCode := trip.routeCode
    serviceDate := trip.serviceDate
    originSeq := origin.seq
    destSeq := dest.seq
    depart := formatHhmm times.departMin
    arrive := formatHhmm times.arriveMin
    durationMin := times.durationMin
    distanceKm := distanceKm
    classes := classes }

/-- `trainOption` on given holds. -/
def optionOn (trip : Trip) (originCode destCode : String) : Except Err (Option TrainOption) :=
  match stationByCode trip originCode, stationByCode trip destCode with
  | some origin, some dest =>
    if origin.seq ≥ dest.seq then .ok none
    else do
      let leg ← Leg.make origin.seq dest.seq
      if !serves trip.stops leg then return none
      else do
        let times ← legTimes trip.stops leg
        let classes ← classesOn deps holds trip leg (reservableSeats trip) (busySeats holds trip leg)
          (presentClasses trip)
        let distanceKm ← legDistanceKm trip leg
        return some (optionFor trip origin dest times classes distanceKm)
  | _, _ => .ok none

/-- `trainOptions` on given holds. -/
def optionsOn (originCode destCode : String) : List Trip → Except Err (List TrainOption)
  | [] => .ok []
  | trip :: rest => do
    let option ← optionOn deps holds trip originCode destCode
    let others ← optionsOn originCode destCode rest
    return option.toList ++ others

end Search

section Runs

variable {g : Gateway} {v : World} {deps : Deps}

theorem run_classAvailabilities (trip : Trip) (leg : Leg) (reservable : List Seat) (busy : List String) :
    ∀ cs, (classAvailabilities deps trip leg reservable busy cs).run (World.exec g) v =
      (classesOn deps v.holds trip leg reservable busy cs, v)
  | [] => rfl
  | _ :: rest => Prog.run_bind_reads _ (run_priceLeg trip) fun _ =>
      Prog.run_bind_reads _ (run_classAvailabilities trip leg reservable busy rest) fun _ => rfl

theorem run_trainOption (trip : Trip) (o d : String) :
    (trainOption deps trip o d).run (World.exec g) v = (optionOn deps v.holds trip o d, v) := by
  unfold trainOption optionOn
  cases stationByCode trip o with
  | none => rfl
  | some origin =>
      cases stationByCode trip d with
      | none => rfl
      | some dest =>
          dsimp only
          by_cases hback : origin.seq ≥ dest.seq
          · rw [if_pos hback, if_pos hback]
            rfl
          · rw [if_neg hback, if_neg hback]
            refine Prog.run_bind_reads _ (Prog.run_ofExcept _ _ _) fun leg => ?_
            by_cases hserves : (!serves trip.stops leg) = true
            · rw [if_pos hserves, if_pos hserves]
              rfl
            · rw [if_neg hserves, if_neg hserves]
              refine Prog.run_bind_reads _ (Prog.run_ofExcept _ _ _) fun times => ?_
              have hclasses : ∀ classes, (do
                    let distanceKm ← Prog.ofExcept (legDistanceKm trip leg)
                    return some (optionFor trip origin dest times classes distanceKm) :
                      Prog Ports Err (Option TrainOption)).run (World.exec g) v =
                  ((do
                    let distanceKm ← legDistanceKm trip leg
                    return some (optionFor trip origin dest times classes distanceKm)), v) :=
                fun classes => Prog.run_bind_reads _ (Prog.run_ofExcept _ _ _) fun _ => rfl
              refine (Prog.run_bind_ok _ (run_activeHolds g v trip.tripId) _).trans ?_
              exact Prog.run_bind_reads _ (run_classAvailabilities trip leg _ _ _) hclasses

theorem run_trainOptions (o d : String) : ∀ trips, (trainOptions deps o d trips).run (World.exec g) v =
    (optionsOn deps v.holds o d trips, v)
  | [] => rfl
  | trip :: rest => Prog.run_bind_reads _ (run_trainOption trip o d) fun _ =>
      Prog.run_bind_reads _ (run_trainOptions o d rest) fun _ => rfl

end Runs

/-! ## What an option says -/

section Options

variable {deps : Deps} {holds : List Hold}

/-- One entry for each class asked for, with its free seats and its fare. -/
theorem classesOn_ok {trip : Trip} {leg : Leg} {reservable : List Seat} {busy : List String} :
    ∀ {cs : List TravelClass} {classes : List ClassAvailability},
      classesOn deps holds trip leg reservable busy cs = .ok classes →
      classes.map (·.travelClass) = cs ∧ ∀ a ∈ classes,
        a.freeSeats = (reservable.filter fun s => s.travelClass = a.travelClass && s.seatId ∉ busy).length ∧
        legPrice deps holds trip leg a.travelClass = .ok a.fare
  | [], classes, h => by
      rw [← Except.ok.inj h]
      exact ⟨rfl, by simp⟩
  | c :: rest, classes, h => by
      obtain ⟨fare, hfare, h⟩ := bind_ok h
      obtain ⟨others, hothers, h⟩ := bind_ok h
      obtain ⟨hcs, hall⟩ := classesOn_ok hothers
      rw [← Except.ok.inj h]
      refine ⟨by rw [List.map_cons, hcs], fun a ha => ?_⟩
      rcases List.mem_cons.mp ha with rfl | ha
      · exact ⟨rfl, hfare⟩
      · exact hall a ha

/-- The journey a train option is for, and everything it was computed from. -/
structure Offers (deps : Deps) (holds : List Hold) (trip : Trip) (originCode destCode : String) (origin dest : Station)
    (leg : Leg) (times : LegTimes) (classes : List ClassAvailability) (distanceKm : ℚ) : Prop where
  boards   : stationByCode trip originCode = some origin
  alights  : stationByCode trip destCode = some dest
  departs  : leg.originSeq = origin.seq
  arrives  : leg.destSeq = dest.seq
  served   : serves trip.stops leg = true
  timed    : legTimes trip.stops leg = .ok times
  priced   : classesOn deps holds trip leg (reservableSeats trip) (busySeats holds trip leg) (presentClasses trip) =
      .ok classes
  distance : legDistanceKm trip leg = .ok distanceKm

/-- **What an option says.** -/
theorem optionOn_some {trip : Trip} {originCode destCode : String} {o : TrainOption}
    (h : optionOn deps holds trip originCode destCode = .ok (some o)) :
    ∃ origin dest leg times classes distanceKm,
      Offers deps holds trip originCode destCode origin dest leg times classes distanceKm ∧
        o = optionFor trip origin dest times classes distanceKm := by
  unfold optionOn at h
  cases horigin : stationByCode trip originCode with
  | none =>
      rw [horigin] at h
      cases h
  | some origin =>
      cases hdest : stationByCode trip destCode with
      | none =>
          rw [horigin, hdest] at h
          cases h
      | some dest =>
          rw [horigin, hdest] at h
          dsimp only at h
          by_cases hback : origin.seq ≥ dest.seq
          · rw [if_pos hback] at h
            cases h
          · rw [if_neg hback] at h
            obtain ⟨leg, hleg, h⟩ := bind_ok h
            by_cases hserves : (!serves trip.stops leg) = true
            · rw [if_pos hserves] at h
              cases h
            · rw [if_neg hserves] at h
              obtain ⟨times, htimes, h⟩ := bind_ok h
              obtain ⟨classes, hclasses, h⟩ := bind_ok h
              obtain ⟨distanceKm, hdistance, h⟩ := bind_ok h
              obtain ⟨hdep, harr⟩ := Leg.make_ok hleg
              exact ⟨origin, dest, leg, times, classes, distanceKm,
                ⟨horigin, hdest, hdep, harr, by simpa using hserves, htimes, hclasses, hdistance⟩,
                (Option.some.inj (Except.ok.inj h)).symm⟩

/-- The leg between two stations, if the train serves it, is offered whenever it can be priced. -/
theorem optionOn_served {trip : Trip} {originCode destCode : String} {origin dest : Station} {leg : Leg}
    (horigin : stationByCode trip originCode = some origin) (hdest : stationByCode trip destCode = some dest)
    (hdep : leg.originSeq = origin.seq) (harr : leg.destSeq = dest.seq) (hserves : serves trip.stops leg = true) :
    optionOn deps holds trip originCode destCode = (do
      let times ← legTimes trip.stops leg
      let classes ← classesOn deps holds trip leg (reservableSeats trip) (busySeats holds trip leg)
        (presentClasses trip)
      let distanceKm ← legDistanceKm trip leg
      return some (optionFor trip origin dest times classes distanceKm)) := by
  have hforward : origin.seq < dest.seq := hdep ▸ harr ▸ leg.moves_forward
  have hmake : Leg.make origin.seq dest.seq = .ok leg := by
    rw [Leg.make_of_lt (hdep ▸ leg.origin_nonneg) hforward]
    exact congrArg Except.ok (Leg.ext hdep.symm harr.symm)
  unfold optionOn
  rw [horigin, hdest]
  dsimp only
  rw [if_neg (by omega), hmake]
  show (if (!serves trip.stops leg) = true then _ else _) = _
  rw [if_neg (by simp [hserves])]

/-- The options are those of the trips, and each trip was looked at. -/
theorem optionsOn_ok {originCode destCode : String} : ∀ {trips : List Trip} {options : List TrainOption},
    optionsOn deps holds originCode destCode trips = .ok options →
    (∀ o, o ∈ options ↔ ∃ trip ∈ trips, optionOn deps holds trip originCode destCode = .ok (some o)) ∧
      ∀ trip ∈ trips, ∃ option, optionOn deps holds trip originCode destCode = .ok option
  | [], options, h => by
      rw [← Except.ok.inj h]
      simp
  | trip :: rest, options, h => by
      obtain ⟨option, hoption, h⟩ := bind_ok h
      obtain ⟨others, hothers, h⟩ := bind_ok h
      obtain ⟨hmem, hall⟩ := optionsOn_ok hothers
      rw [← Except.ok.inj h]
      constructor
      · intro o
        rw [List.mem_append, hmem, List.exists_mem_cons_iff, hoption, Option.mem_toList]
        refine or_congr_left ?_
        rw [Except.ok.injEq]
      · intro t ht
        rcases List.mem_cons.mp ht with rfl | ht
        · exact ⟨option, hoption⟩
        · exact hall t ht

end Options

/-! ## The two reads, served -/

section Served

variable (w : World) (deps : Deps) (g : Gateway)

theorem serve_search (originCode destCode serviceDate : String) :
    (w.serve ⟨.search originCode destCode serviceDate, deps, g⟩).1 = (do
      checkSearch deps originCode destCode serviceDate
      let trips ← MemoryRepo.findByDate w.trips serviceDate
      optionsOn deps (w.swept deps.now) originCode destCode trips) := by
  show ((searchTrains deps originCode destCode serviceDate).run (World.exec g) w.enter).1 = _
  simp only [searchTrains, Prog.bind_eq, Prog.run_bind, Prog.run_ofExcept]
  cases checkSearch deps originCode destCode serviceDate with
  | error e => rfl
  | ok u =>
      simp only [run_sweep, run_findByDate, World.trips_opened]
      cases htrips : MemoryRepo.findByDate w.trips serviceDate with
      | error e => rfl
      | ok trips =>
          simp only [run_trainOptions, World.holds_opened]
          show _ = optionsOn deps (w.swept deps.now) originCode destCode trips
          cases optionsOn deps (w.swept deps.now) originCode destCode trips with
          | error e => rfl
          | ok options => rfl

/-- The seat has no active booking over any part of the leg. -/
def seatFree (holds : List Hold) (tripId : String) (leg : Leg) (seatId : String) : Bool :=
  !((MemoryRepo.activeHolds holds tripId).any fun h => h.seatId = seatId && h.leg.overlaps leg)

/-- `legAvailability` on given holds. -/
def availabilityOn (holds : List Hold) (trip : Trip) (tripId : String) (leg : Leg) : LegAvailability :=
  let seats := trip.seats.map fun s => SeatAvailability.mk s.seatId s.coach s.travelClass
    (seatFree holds tripId leg s.seatId)
  ⟨tripId, leg, seats, (seats.filter (·.available)).length⟩

theorem serve_availability {tripId : String} {trip : Trip} {leg : Leg}
    (hfound : MemoryRepo.getTrip w.trips tripId = .ok trip) (hleg : validateLeg trip leg = .ok ()) :
    (w.serve ⟨.availability tripId leg, deps, g⟩).1 = .ok (availabilityOn (w.swept deps.now) trip tripId leg) := by
  show ((legAvailability deps tripId leg).run (World.exec g) w.enter).1 = _
  simp only [legAvailability, Prog.bind_eq, Prog.run_bind, run_getTrip, World.trips_enter, hfound, Prog.run_ofExcept,
    hleg, run_sweep, run_activeHolds, World.holds_opened, run_commit, Prog.pure_eq, Prog.run_ret]
  rfl

end Served

end SlrBooking
