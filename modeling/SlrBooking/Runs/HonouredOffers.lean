import SlrBooking.Runs.FreeSeats

/-!
# `Runs.HonouredOffers` — from a train option to the receipt

The option's times come from the stops, its fare from the occupancy of that moment; the hold fixes the fare in
cents; the receipt reads the stops and the stations again.

## Contents
- `Honoured`: what the receipt owes the option.
- `offer_honoured`.
-/

namespace SlrBooking

open Theory Rows

/-! ## An offer and how it is kept -/

/-- The receipt shows the option's train, its two stations under their names, and its times; the fare and the seat are
    the hold's own. -/
structure ShowsOffer (o : TrainOption) (originCode destCode : String) (receipt : Receipt) : Prop where
  tripId      : receipt.tripId = o.tripId
  trainNo     : receipt.trainNo = o.trainNo
  trainName   : receipt.trainName = o.trainName
  routeCode   : receipt.routeCode = o.routeCode
  serviceDate : receipt.serviceDate = o.serviceDate
  originSeq   : receipt.originSeq = o.originSeq
  destSeq     : receipt.destSeq = o.destSeq
  originCode  : receipt.originCode = originCode
  destCode    : receipt.destCode = destCode
  depart      : receipt.depart = o.depart
  arrive      : receipt.arrive = o.arrive
  durationMin : receipt.durationMin = o.durationMin

/-- The booking `b`, held in `w`, costs what the option says and can be confirmed until its deadline, whatever calls
    come in between that neither confirm nor cancel it. -/
structure Honoured (o : TrainOption) (originCode destCode : String) (b : Hold) (w : World) : Prop where
  fare    : ∀ a ∈ o.classes, a.travelClass = b.travelClass → b.fareCents = a.fare.cents
  confirm : ∀ (later : List Request) (deps : Deps) (g : Gateway),
      (∀ r ∈ later, r.call ≠ .confirm b.bookingId ∧ r.call ≠ .cancel b.bookingId ∧ r.deps.newId ≠ b.bookingId ∧
        r.deps.now ≤ deps.now) →
      deps.now < b.heldUntil → (g b.reference ⟨b.fareCents⟩).ok = true →
      ∃ receipt, ((w.after later).serve ⟨.confirm b.bookingId, deps, g⟩).1 = .ok receipt ∧
        ((w.after later).serve ⟨.confirm b.bookingId, deps, g⟩).2.accepted =
          (w.after later).accepted ++ [(b.reference, ⟨b.fareCents⟩)] ∧
        receipt.fare = ⟨b.fareCents⟩ ∧ ShowsOffer o originCode destCode receipt

/-! ## The receipt -/

/-- What a printed receipt was assembled from: the stop times of the leg, the stations at its two ends, and the fields
    of the booking as it is stored. -/
structure Printed (hold : Hold) (trip : Trip) (receipt : Receipt) (times : LegTimes) (origin dest : Station) :
    Prop where
  timed    : legTimes trip.stops hold.leg = .ok times
  boards   : stationAt trip hold.leg.originSeq = .ok origin
  alights  : stationAt trip hold.leg.destSeq = .ok dest
  fare     : receipt.fare = ⟨hold.fareCents⟩
  train    : receipt.tripId = trip.tripId ∧ receipt.trainNo = trip.trainNo ∧ receipt.trainName = trip.trainName ∧
      receipt.routeCode = trip.routeCode ∧ receipt.serviceDate = trip.serviceDate
  stations : receipt.originSeq = origin.seq ∧ receipt.destSeq = dest.seq ∧ receipt.originCode = origin.code ∧
      receipt.destCode = dest.code
  times    : receipt.depart = formatHhmm times.departMin ∧ receipt.arrive = formatHhmm times.arriveMin ∧
      receipt.durationMin = times.durationMin

theorem receiptFor_printed {hold : Hold} {trip : Trip} {issuedAt : Int} {receipt : Receipt}
    (h : receiptFor hold trip issuedAt = .ok receipt) :
    ∃ times origin dest, Printed hold trip receipt times origin dest := by
  unfold receiptFor buildReceipt at h
  obtain ⟨times, htimes, h⟩ := bind_ok h
  obtain ⟨origin, horigin, h⟩ := bind_ok h
  obtain ⟨dest, hdest, h⟩ := bind_ok h
  obtain ⟨advice, -, h⟩ := bind_ok h
  obtain rfl := Except.ok.inj h
  exact ⟨times, origin, dest, htimes, horigin, hdest, rfl, ⟨rfl, rfl, rfl, rfl, rfl⟩,
    ⟨rfl, rfl, rfl, rfl⟩, rfl, rfl, rfl⟩

/-- With distinct positions, a position names its station. -/
theorem stationAt_of_mem {trip : Trip} (hseqs : (trip.stations.map (·.seq)).Nodup) {s s' : Station}
    (hs : s ∈ trip.stations) (h : stationAt trip s.seq = .ok s') : s' = s := by
  unfold stationAt at h
  split at h
  · rename_i x hfind
    obtain rfl := Except.ok.inj h
    have hseq : x.seq = s.seq := by simpa using List.find?_some hfind
    exact List.inj_on_of_nodup_map hseqs (List.mem_of_find?_eq_some hfind) hs hseq
  · cases h

theorem stationByCode_code {trip : Trip} {code : String} {s : Station} (h : stationByCode trip code = some s) :
    s.code = code := by simpa using List.find?_some h

/-- **A receipt over an offered leg shows the offer.** -/
theorem Printed.shows {hold : Hold} {trip : Trip} {receipt : Receipt} {times times' : LegTimes}
    {origin dest origin' dest' : Station} {deps : Deps} {holds : List Hold} {originCode destCode : String}
    {classes : List ClassAvailability} {distanceKm : ℚ} (hp : Printed hold trip receipt times' origin' dest')
    (hoffer : Offers deps holds trip originCode destCode origin dest hold.leg times classes distanceKm)
    (hseqs : (trip.stations.map (·.seq)).Nodup) :
    ShowsOffer (optionFor trip origin dest times classes distanceKm) originCode destCode receipt := by
  have hboards := hp.boards
  have halights := hp.alights
  rw [hoffer.departs] at hboards
  rw [hoffer.arrives] at halights
  obtain rfl : times = times' := Except.ok.inj (hoffer.timed.symm.trans hp.timed)
  obtain rfl := stationAt_of_mem hseqs (mem_of_stationByCode hoffer.boards) hboards
  obtain rfl := stationAt_of_mem hseqs (mem_of_stationByCode hoffer.alights) halights
  exact {
    tripId      := hp.train.1
    trainNo     := hp.train.2.1
    trainName   := hp.train.2.2.1
    routeCode   := hp.train.2.2.2.1
    serviceDate := hp.train.2.2.2.2
    originSeq   := hp.stations.1
    destSeq     := hp.stations.2.1
    originCode  := hp.stations.2.2.1.trans (stationByCode_code hoffer.boards)
    destCode    := hp.stations.2.2.2.trans (stationByCode_code hoffer.alights)
    depart      := hp.times.1
    arrive      := hp.times.2.1
    durationMin := hp.times.2.2 }

/-! ## From the search to the receipt

The search reads the stop times and the price that the hold drafts from and the receipt prints; between the hold and
the confirm only the status can have moved. -/

/-- **An offered train is honoured to the receipt.** Whatever the store a run has reached: a new hold over an offered
    journey costs what the option lists for its class, and until its deadline, whatever other calls come in between,
    it can be confirmed, for exactly one charge of that fare and a receipt that shows the option's train, stations and
    times. -/
theorem offer_honoured (trips : List Trip) (past : List Request) (deps : Deps) (g g' : Gateway)
    (originCode destCode serviceDate : String) (options : List TrainOption) (o : TrainOption)
    (hseqs : ∀ t ∈ trips, (t.stations.map (·.seq)).Nodup)
    (hsearch : (((World.start trips).after past).serve ⟨.search originCode destCode serviceDate, deps, g⟩).1 =
      .ok options) (ho : o ∈ options) (seatId passengerId name : String) (leg : Leg)
    (hdep : leg.originSeq = o.originSeq) (harr : leg.destSeq = o.destSeq) (b : Hold)
    (hhold : (((World.start trips).after past).serve
      ⟨.hold o.tripId seatId leg passengerId name none, deps, g'⟩).1 = .ok b) :
    Honoured o originCode destCode b (((World.start trips).after past).serve
      ⟨.hold o.tripId seatId leg passengerId name none, deps, g'⟩).2 := by
  have htrips : ((World.start trips).after past).trips = overlay Trip.tripId [] trips := trips_after _ past
  generalize (World.start trips).after past = w at hsearch hhold htrips ⊢
  have hkeyed : Keyed Trip.tripId w.trips := by
    rw [htrips]
    exact overlay_keyed keyed_nil trips
  -- the option is one of a stored trip
  rw [serve_search] at hsearch
  obtain ⟨_, -, hsearch⟩ := bind_ok hsearch
  obtain ⟨ts, hts, hsearch⟩ := bind_ok hsearch
  obtain ⟨t, ht, hoption⟩ := ((optionsOn_ok hsearch).1 o).mp ho
  obtain ⟨origin, dest, leg', times, classes, km, hoffer, rfl⟩ := optionOn_some hoption
  have hstored : t ∈ w.trips := ((MemoryRepo.mem_findByDate hts).mp ht).1
  have hdistinct : (t.stations.map (·.seq)).Nodup := by
    rw [htrips] at hstored
    exact hseqs t ((mem_overlay_cases hstored).resolve_left List.not_mem_nil)
  have hget : MemoryRepo.getTrip w.trips t.tripId = .ok t := by
    unfold MemoryRepo.getTrip
    rw [lookup_of_mem hkeyed hstored]
  obtain rfl : leg' = leg := Leg.ext (hoffer.departs.trans hdep.symm) (hoffer.arrives.trans harr.symm)
  -- the hold was drafted against the same trip and placed
  change (w.block g' (holdSeat deps t.tripId seatId leg' passengerId name none)).1 = .ok b at hhold
  show Honoured _ _ _ b (w.block g' (holdSeat deps t.tripId seatId leg' passengerId name none)).2
  rcases holdSeat_drafted (World.block_pair g' (holdSeat deps t.tripId seatId leg' passengerId name none) w) with
    ⟨b', hrep, -⟩ | ⟨-, -, ⟨e, he⟩, -⟩ | ⟨-, trip, seat, fare, ttl, hd, ⟨e, -, he, -⟩ | ⟨holds, hadd, hr, hwrote⟩⟩
  · cases hrep
  · cases hhold.symm.trans he
  · cases hhold.symm.trans he
  · obtain rfl : trip = t := Except.ok.inj (hd.found.symm.trans hget)
    obtain rfl : b = newHold deps trip.tripId seatId leg' passengerId name none seat fare ttl :=
      Except.ok.inj (hhold.symm.trans hr)
    generalize hb : newHold deps trip.tripId seatId leg' passengerId name none seat fare ttl = b at hadd ⊢
    constructor
    · intro a ha hclass
      have hlisted := ((classesOn_ok hoffer.priced).2 a ha).2
      have hbooked : legPrice deps (w.swept deps.now) trip leg' seat.travelClass = .ok fare := hd.priced
      have hsame : a.travelClass = seat.travelClass := hclass.trans (by rw [← hb]; rfl)
      rw [hsame, hbooked] at hlisted
      rw [← Except.ok.inj hlisted, ← hb]
      rfl
    · intro later deps' gc hquiet hlive hpaid
      have hfound : lookup MemoryRepo.idOf b.bookingId
          (w.block g' (holdSeat deps trip.tripId seatId leg' passengerId name none)).2.holds = some b := by
        rw [hwrote.holds, (MemoryRepo.addHold_ok hadd).1]
        exact lookup_put_self b _
      have hkept := kept_after later hfound fun x hx => ⟨fun _ =>
          ⟨Int.lt_of_le_of_lt (hquiet x hx).2.2.2 hlive, (hquiet x hx).1⟩, (hquiet x hx).2.1, (hquiet x hx).2.2.1⟩
      have htripsKept := (trips_after
        (w.block g' (holdSeat deps trip.tripId seatId leg' passengerId name none)).2 later).trans hwrote.trips
      generalize (World.after _ later) = v at hkept htripsKept ⊢
      have hcharged : ConfirmCharged gc v deps'.now b.bookingId b trip := by
        refine ⟨hkept, by rw [← hb]; rfl, hlive, ?_, hpaid⟩
        rw [htripsKept, ← hb]
        exact hget
      show ∃ receipt, (v.block gc (confirmBooking deps' b.bookingId)).1 = .ok receipt ∧
        (v.block gc (confirmBooking deps' b.bookingId)).2.accepted = _ ∧ _
      rcases confirmBooking_outcome (World.block_pair gc (confirmBooking deps' b.bookingId) v) with
        ⟨hno, -⟩ | ⟨hold, trip', hc, hr', hw'⟩
      · exact absurd hcharged (hno b trip)
      · obtain rfl : b = hold := Option.some.inj (hkept.symm.trans hc.found)
        obtain rfl : trip = trip' := Except.ok.inj (hcharged.runs.symm.trans hc.runs)
        have hleg : b.leg = leg' := by rw [← hb]; rfl
        obtain ⟨receipt, hreceipt⟩ := (receiptFor_ok_iff { b with status := .confirmed } deps'.now
          (hleg ▸ hd.onLine)).mpr (hleg ▸ hoffer.served)
        obtain ⟨times', origin', dest', hp⟩ := receiptFor_printed hreceipt
        rw [← hleg] at hoffer
        exact ⟨receipt, hr'.trans hreceipt, hw'.accepted, hp.fare, hp.shows hoffer hdistinct⟩

/-! ## A morning's search -/

/-- Midnight UTC of the sample trips' service date. -/
def serviceDay : Int := 1714521600

def searchDeps : Deps := sampleDeps serviceDay "1"

/-- The first hop of the slow train is offered, held and honoured. -/
theorem offer_honoured_sample : ∃ o b,
    ((World.start sampleTrips).serve ⟨.search "FOT" "KDT" "2024-05-01", searchDeps, acceptAll⟩).1 = .ok [o] ∧
    ((World.start sampleTrips).serve ⟨.hold o.tripId "A1" firstHop "nic1" "Nimal" none, searchDeps, acceptAll⟩).1 =
      .ok b ∧
    Honoured o "FOT" "KDT" b ((World.start sampleTrips).serve
      ⟨.hold o.tripId "A1" firstHop "nic1" "Nimal" none, searchDeps, acceptAll⟩).2 := by
  have hoffered : ((World.start sampleTrips).serve
      ⟨.search "FOT" "KDT" "2024-05-01", searchDeps, acceptAll⟩).1.toOption.map
      (fun options => options.map fun o => (o.tripId, o.originSeq, o.destSeq)) = some [("slow", 0, 1)] := by
    decide +kernel
  have htaken : ((World.start sampleTrips).serve
      ⟨.hold "slow" "A1" firstHop "nic1" "Nimal" none, searchDeps, acceptAll⟩).1.toOption.isSome = true := by
    decide +kernel
  cases hsearch : ((World.start sampleTrips).serve ⟨.search "FOT" "KDT" "2024-05-01", searchDeps, acceptAll⟩).1 with
  | error e =>
      rw [hsearch] at hoffered
      cases hoffered
  | ok options =>
      rw [hsearch] at hoffered
      obtain ⟨o, rfl, ho⟩ := List.map_eq_singleton_iff.mp (Option.some.inj hoffered)
      obtain ⟨htrip, hseqs⟩ := Prod.mk.inj ho
      obtain ⟨hdep, harr⟩ := Prod.mk.inj hseqs
      cases hhold : ((World.start sampleTrips).serve
          ⟨.hold "slow" "A1" firstHop "nic1" "Nimal" none, searchDeps, acceptAll⟩).1 with
      | error e =>
          rw [hhold] at htaken
          cases htaken
      | ok b =>
          have hheld : ((World.start sampleTrips).serve
              ⟨.hold o.tripId "A1" firstHop "nic1" "Nimal" none, searchDeps, acceptAll⟩).1 = .ok b := by
            rw [htrip]
            exact hhold
          exact ⟨o, b, rfl, hheld, offer_honoured sampleTrips [] searchDeps acceptAll acceptAll "FOT" "KDT" "2024-05-01"
            [o] o (by decide) hsearch (List.mem_singleton.mpr rfl) "A1" "nic1" "Nimal" firstHop hdep.symm harr.symm b
            hheld⟩

end SlrBooking
