import SlrBooking.App.Settings
import SlrBooking.Http.Routes
import SlrBooking.Runs.FreeSeats
import SlrBooking.Runs.Replay

/-!
# `Http.NotFound` — a 404 says that something is not there

The error handlers turn every `KeyError` into a 404, and a `KeyError` is also what a missing config key or a station
off the line would raise. With the ports wired from the environment none of these happens, so a use-case's
route answers 404 exactly when the trip or the booking it was asked about is not stored.

## Contents
- `Err.missing`, the errors answered with a 404; `Deps.Seeded`, ports that raise none; `seeded_wireReal`.
- `Call.Absent`: what a call was asked about is not stored.
- `call_absent`, `call_present`: one triple for each use-case.
- `call?`, the call behind a request. `not_found_iff`.
-/

namespace SlrBooking

open Theory Rows

/-! ## Errors that say so -/

/-- The errors that the handlers answer with a 404. -/
def Err.missing : Err → Bool
  | .keyError _ | .domain .bookingNotFound _ => true
  | _ => false

/-- Any other error. -/
abbrev Otherwise (e : Err) : Prop := e.missing = false

theorem errorResponse_not_found {e : Err} :
    (∃ response, errorResponse e = .ok response ∧ response.status = 404) ↔ e.missing = true := by
  cases e with
  | domain kind detail => cases kind <;> simp [errorResponse, json, statusFor, Err.missing]
  | _ => simp [errorResponse, json, Err.missing]

/-! ## Ports that never say so -/

/-- No configured key is missing, and pricing and scoring look nothing up. -/
structure Deps.Seeded (deps : Deps) : Prop where
  int   : ∀ key ∈ policyDefaults.map (·.1), Raises Otherwise (deps.getInt key)
  float : ∀ key ∈ policyDefaults.map (·.1), Raises Otherwise (deps.getFloat key)
  price : ∀ distanceKm mult occupancy, Raises Otherwise (deps.price distanceKm mult occupancy)
  score : ∀ features, Raises Otherwise (deps.score features)

theorem dynamicFare_raises (strategy : DynamicFare) (distanceKm mult occupancy : ℚ) :
    Raises Otherwise (strategy.price distanceKm mult occupancy) := by
  refine Raises.bind ?_ fun _ _ => raises_ok _
  unfold demandMultiplier
  split
  · exact raises_error rfl
  · exact raises_ok _

theorem score_raises (scorer : HeuristicAbuse) (features : AbuseFeatures) :
    Raises Otherwise (scorer.score features) := by
  unfold HeuristicAbuse.score abuseScore
  dsimp only
  split
  · exact raises_error rfl
  · exact raises_ok _

/-- **The wired ports never say that something is missing**, whatever is in the environment. -/
theorem seeded_wireReal {float : String → Except Err ℚ} {environ : Environ} {settings : AppSettings}
    (hfloat : ∀ text, Raises (fun e => ∃ detail, e = .valueError detail) (float text))
    (h : loadSettings environ = .ok settings) (now : Int) (newId newReference : String) :
    (wireReal float environ settings now newId newReference).Seeded where
  int key hkey := (getInt_seeded h hkey).mono fun e ⟨_, he⟩ => he ▸ rfl
  float key hkey := (getFloat_seeded hfloat h hkey).mono fun e ⟨_, he⟩ => he ▸ rfl
  price distanceKm mult occupancy := by
    show Raises Otherwise (fareStrategy settings distanceKm mult occupancy)
    unfold fareStrategy
    split
    · exact raises_ok _
    · exact dynamicFare_raises _ _ _ _
  score := score_raises {}

/-! ## The checks of a call -/

section Checks

variable {deps : Deps} {trip : Trip} {leg : Leg} {holds : List Hold}

theorem make_raises {o d : Int} : Raises Otherwise (Leg.make o d) := by
  unfold Leg.make
  split
  · exact raises_error rfl
  · split
    · exact raises_error rfl
    · exact raises_ok _

theorem validateLeg_raises : Raises Otherwise (validateLeg trip leg) := by
  unfold validateLeg
  dsimp only
  split
  · exact raises_ok _
  · exact raises_error rfl

theorem reservedSeat_raises {seatId : String} : Raises Otherwise (reservedSeat trip seatId) := by
  unfold reservedSeat
  dsimp only
  split
  · split
    · exact raises_ok _
    · exact raises_error rfl
  · exact raises_error rfl

theorem apply_raises {status : BookingStatus} {event : BookingEvent} :
    Raises Otherwise (BookingSm.apply status event) := by
  unfold BookingSm.apply
  split
  · exact raises_ok _
  · exact raises_error rfl

theorem requireAccepted_raises {result : PaymentResult} {fallback : String} :
    Raises Otherwise (requireAccepted result fallback) := by
  unfold requireAccepted
  split
  · exact raises_ok _
  · exact raises_error rfl

theorem legTimes_raises {stops : List Stop} : Raises Otherwise (legTimes stops leg) := by
  unfold legTimes
  split
  · exact raises_ok _
  · exact raises_error rfl

theorem stationAt_raises {seq : Int} : Raises Otherwise (stationAt trip seq) := by
  unfold stationAt
  split
  · exact raises_ok _
  · exact raises_error rfl

theorem buildReceipt_raises {hold : Hold} {issuedAt : Int} {seat : Option Seat} {offer : Option SeatOffer}
    {pool : List Seat} : Raises Otherwise (buildReceipt hold trip issuedAt seat offer pool) := by
  refine legTimes_raises.bind fun _ _ => stationAt_raises.bind fun _ _ => stationAt_raises.bind fun _ _ =>
    Raises.bind ?_ fun _ _ => raises_ok _
  cases offer with
  | none => exact raises_ok _
  | some offer =>
      refine stationAt_raises.bind fun _ _ => ?_
      split
      · exact raises_ok _
      · exact raises_error rfl

theorem antiTout_raises (hd : deps.Seeded) {passengerId : String} {now : Int} {active : List Hold} :
    Raises Otherwise (antiTout deps passengerId now active) := by
  refine (hd.int _ (by decide)).bind fun _ _ => ?_
  split
  · exact raises_error rfl
  · refine (hd.int _ (by decide)).bind fun _ _ => (hd.int _ (by decide)).bind fun _ _ => ?_
    dsimp only
    split
    · exact raises_error rfl
    · refine (hd.score _).bind fun _ _ => (hd.float _ (by decide)).bind fun _ _ => ?_
      split
      · exact raises_error rfl
      · exact raises_ok _

/-- A leg on the line is priced without looking for a station that is not there. -/
theorem legPrice_raises (hd : deps.Seeded) (hleg : validateLeg trip leg = .ok ()) {c : TravelClass} :
    Raises Otherwise (legPrice deps holds trip leg c) := by
  obtain ⟨km, hkm⟩ := legDistanceKm_ok hleg
  have hmult : Raises Otherwise (classMult deps c) := hd.float _ (by cases c <;> decide)
  unfold legPrice
  rw [hkm]
  exact (raises_ok km).bind fun _ _ => hmult.bind fun _ _ => hd.price _ _ _

theorem seatAssignment_raises (hd : deps.Seeded) {tripId : String} {c : TravelClass} {pool : List Seat} :
    Raises Otherwise (seatAssignment deps holds tripId leg c pool) := by
  have hroom : Raises Otherwise (standingRoom deps holds tripId c) := by
    unfold standingRoom
    split
    · rename_i e he
      exact raises_error (hd.int _ (by decide) e he)
    · dsimp only
      split
      · exact raises_error rfl
      · exact raises_ok _
  unfold seatAssignment
  dsimp only
  split
  · exact raises_ok _
  · split
    · rename_i e he
      exact raises_error (hroom e he)
    · exact raises_ok _

theorem addHold_raises {hold : Hold} : Raises Otherwise (MemoryRepo.addHold holds hold) := by
  unfold MemoryRepo.addHold
  split
  · exact raises_error rfl
  · exact raises_ok _

end Checks

/-! ## What is not there -/

/-- What the call was asked about is not stored. A hold or a sale under a known reference is about that booking. -/
def Call.Absent (w : World) : Call → Prop
  | .hold tripId _ _ _ _ reference => replayed w.holds reference = none ∧ tripId ∉ w.trips.map (·.tripId)
  | .sell tripId _ _ _ _ reference => replayed w.holds reference = none ∧ tripId ∉ w.trips.map (·.tripId)
  | .availability tripId _ => tripId ∉ w.trips.map (·.tripId)
  | .quote tripId _ _ => tripId ∉ w.trips.map (·.tripId)
  | .confirm bookingId => bookingId ∉ w.holds.map (·.bookingId)
  | .cancel bookingId => bookingId ∉ w.holds.map (·.bookingId)
  | .verify reference => reference ∉ w.holds.map (·.reference)
  | .search _ _ _ => False

/-- Every stored booking's trip is stored. -/
def Hosted (w : World) : Prop := ∀ h ∈ w.holds, h.tripId ∈ w.trips.map (·.tripId)

section Store

variable {w : World}

theorem getTrip_of_mem {trips : List Trip} {id : String} (h : id ∈ trips.map (·.tripId)) :
    Raises Otherwise (MemoryRepo.getTrip trips id) := by
  obtain ⟨trip, hmem, rfl⟩ := List.mem_map.mp h
  unfold MemoryRepo.getTrip
  cases hfound : lookup Trip.tripId trip.tripId trips with
  | some t => exact raises_ok _
  | none => exact absurd rfl (lookup_none_iff.mp hfound trip hmem)

theorem getTrip_of_not_mem {trips : List Trip} {id : String} (h : id ∉ trips.map (·.tripId)) :
    MemoryRepo.getTrip trips id = .error (.keyError id) := by
  have hnone : lookup Trip.tripId id trips = none := lookup_none_iff.mpr fun t ht he =>
    h (List.mem_map.mpr ⟨t, ht, he⟩)
  unfold MemoryRepo.getTrip
  rw [hnone]

theorem Hosted.sweep (h : Hosted w) (now : Int) : Hosted (w.withHolds (MemoryRepo.expireDue w.holds now).2) := by
  intro x hx
  obtain ⟨y, hy, rfl⟩ := List.mem_map.mp hx
  rw [(moved_retire now y).place.1]
  exact h y hy

theorem ids_expireDue (holds : List Hold) (now : Int) :
    (MemoryRepo.expireDue holds now).2.map (·.bookingId) = holds.map (·.bookingId) := by
  simp only [MemoryRepo.expireDue, List.map_map]
  exact List.map_congr_left fun h _ => MemoryRepo.retire_bookingId now h

theorem references_expireDue (holds : List Hold) (now : Int) :
    (MemoryRepo.expireDue holds now).2.map (·.reference) = holds.map (·.reference) := by
  simp only [MemoryRepo.expireDue, List.map_map]
  exact List.map_congr_left fun h _ => retire_reference now h

end Store

/-! ## Every use-case -/

section Rules

variable {α : Type} {g : Gateway} {I J : World → Prop} {E : Err → Prop} {Q : α → World → Prop}

theorem triple_sweep {now : Int} {q : Prog Ports Err α}
    (hI : ∀ v, I v → J (v.withHolds (MemoryRepo.expireDue v.holds now).2)) (hq : q.Triple (World.exec g) J Q E) :
    ((Bookings.expireDue now).bind fun _ => q).Triple (World.exec g) I Q E :=
  Prog.Triple.bind (P := fun _ => J) (Prog.triple_call fun v hv => ⟨_, rfl, hI v hv⟩) fun _ => hq

/-- Reading a trip that is there. -/
theorem triple_getTrip {id : String} (hI : ∀ v, I v → id ∈ v.trips.map (·.tripId)) :
    (Trips.get id).Triple (World.exec g) I (fun _ => I) Otherwise :=
  (Prog.triple_reads (run_getTrip g · id) fun v hv => getTrip_of_mem (hI v hv)).mono (fun _ hv => hv) fun _ _ hv => hv.1

/-- Reading a trip that is not. -/
theorem triple_getTrip_absent {id : String} {f : Trip → Prog Ports Err α}
    (hI : ∀ v, I v → id ∉ v.trips.map (·.tripId)) :
    ((Trips.get id).bind f).Triple (World.exec g) I (fun _ _ => False) fun e => e.missing = true := by
  refine (Prog.triple_reads (run_getTrip g · id) fun v hv => ?_).bind fun trip => Prog.triple_of_false fun v hv => ?_
  · rw [getTrip_of_not_mem (hI v hv)]
    exact raises_error rfl
  · rw [getTrip_of_not_mem (hI v hv.1)] at hv
    exact nomatch hv.2

/-- Going on with a booking that is there. -/
theorem triple_getBooking {id : String} (hI : ∀ v, I v → id ∈ v.holds.map (·.bookingId)) :
    (getBooking id).Triple (World.exec g) I (fun hold v => I v ∧ lookup MemoryRepo.idOf id v.holds = some hold) E := by
  intro v hv
  obtain ⟨x, hx, hid⟩ := List.mem_map.mp (hI v hv)
  obtain ⟨hold, hfound⟩ : ∃ hold, lookup MemoryRepo.idOf id v.holds = some hold := by
    cases hl : lookup MemoryRepo.idOf id v.holds with
    | some hold => exact ⟨hold, rfl⟩
    | none => exact absurd hid (lookup_none_iff.mp hl x hx)
  have hrun : (getBooking id).run (World.exec g) v = (.ok hold, v) := by
    rw [getBooking, Prog.tryCatch_eq, Prog.run_rescue, run_get, MemoryRepo.get_ok.mpr hfound]
  rw [hrun]
  exact ⟨fun a ha => ⟨hv, Except.ok.inj ha ▸ hfound⟩, raises_ok _⟩

theorem triple_getBooking_absent {id : String} {f : Hold → Prog Ports Err α}
    (hI : ∀ v, I v → id ∉ v.holds.map (·.bookingId)) :
    ((getBooking id).bind f).Triple (World.exec g) I (fun _ _ => False) fun e => e.missing = true := by
  intro v hv
  have hnone : lookup MemoryRepo.idOf id v.holds = none := lookup_none_iff.mpr fun x hx he =>
    hI v hv (List.mem_map.mpr ⟨x, hx, he⟩)
  have hget : MemoryRepo.get v.holds id = .error (.keyError id) := by
    unfold MemoryRepo.get
    rw [hnone]
  have hrun : ((getBooking id).bind f).run (World.exec g) v = (.error (.domain .bookingNotFound id), v) := by
    rw [getBooking, Prog.run_bind, Prog.tryCatch_eq, Prog.run_rescue, run_get, hget]
    rfl
  rw [hrun]
  refine ⟨fun _ ha => ?_, raises_error rfl⟩
  cases ha

/-- Charging leaves the bookings alone. -/
theorem triple_charge {P : List Hold → Prop} {reference : String} {amount : Money} :
    (charge reference amount).Triple (World.exec g) (fun v => P v.holds) (fun _ v => P v.holds) E := by
  refine Prog.triple_call (S := Ports) (o := .charge reference amount) fun v hv => ⟨_, rfl, ?_⟩
  have hsame : (World.exec g (.charge reference amount) v).2.holds = v.holds := by
    simp only [World.exec]
    split <;> rfl
  rw [hsame]
  exact hv

/-- Telling the outside and committing. -/
theorem triple_telling {recipient event : String} {detail : List (String × String)} {x : Except Err α}
    (hx : Raises E x) :
    ((notify recipient event detail).bind fun _ => commit.bind fun _ => Prog.ofExcept x).Triple
      (World.exec g) I (fun _ _ => True) E :=
  Prog.Triple.bind (P := fun _ _ => True) (Prog.triple_call fun _ _ => ⟨_, rfl, trivial⟩) fun _ =>
    Prog.Triple.bind (P := fun _ _ => True) (Prog.triple_call fun _ _ => ⟨_, rfl, trivial⟩) fun _ =>
      Prog.triple_ofExcept hx fun _ _ _ _ => trivial

theorem triple_publish {event : AvailabilityEvent} :
    (publish event).Triple (World.exec g) I (fun _ _ => True) E :=
  Prog.triple_call fun _ _ => ⟨_, rfl, trivial⟩

theorem triple_addHold {hold : Hold} : (Bookings.addHold hold).Triple (World.exec g) I (fun _ _ => True) Otherwise := by
  intro v hv
  rw [run_addHold]
  cases hadd : MemoryRepo.addHold v.holds hold with
  | ok holds => exact ⟨fun _ _ => trivial, raises_ok _⟩
  | error e => exact ⟨fun _ _ => trivial, raises_error (addHold_raises e hadd)⟩

theorem triple_setStatus {id : String} {status : BookingStatus} {hold : Hold}
    (hI : ∀ v, I v → lookup MemoryRepo.idOf id v.holds = some hold) :
    (Bookings.setStatus id status).Triple (World.exec g) I (fun _ _ => True) E := by
  intro v hv
  rw [run_setStatus, MemoryRepo.setStatus_of_lookup (hI v hv)]
  exact ⟨fun _ _ => trivial, raises_ok _⟩

end Rules

/-! ## Calls about what is there

Each use-case reads what it is about first, so that every later failure is of another kind. The triples carry that the
trips stay and that the booking, once found, is found again. -/

section Present

variable {g : Gateway} {deps : Deps}

theorem present_holdSeat (hd : deps.Seeded) {t s p n : String} {leg : Leg} {ref : Option String} :
    (holdSeat deps t s leg p n ref).Triple (World.exec g)
      (fun v => replayed v.holds ref = none → t ∈ v.trips.map (·.tripId)) (fun _ _ => True) Otherwise := by
  refine (Prog.triple_reads (fun v => run_lookupReplay ref) fun _ _ => raises_ok _).bind fun found => ?_
  cases found with
  | some existing => exact Prog.triple_ret fun _ _ => trivial
  | none =>
      refine triple_sweep (J := fun v => t ∈ v.trips.map (·.tripId)) (fun v hv => hv.1 (Except.ok.inj hv.2)) ?_
      unfold draftHold
      simp only [Prog.bind_eq, Prog.bind_assoc, Prog.pure_eq, Prog.ret_bind]
      refine (triple_getTrip fun _ hv => hv).bind fun trip =>
        Prog.triple_ofExcept_bind validateLeg_raises fun _ hleg => ?_
      refine Prog.triple_ofExcept_bind reservedSeat_raises fun seat _ => ?_
      refine (Prog.triple_reads (fun v => run_enforceAntiTout _) fun _ _ => antiTout_raises hd).bind fun _ => ?_
      refine (Prog.triple_reads (fun v => run_priceLeg trip) fun _ _ => legPrice_raises hd hleg).bind fun fare => ?_
      refine Prog.triple_ofExcept_bind (hd.int _ (by decide)) fun ttl _ => ?_
      exact triple_addHold.bind fun _ => triple_publish.bind fun _ => triple_telling (raises_ok _)

theorem present_confirmBooking {id : String} :
    (confirmBooking deps id).Triple (World.exec g) (fun v => Hosted v ∧ id ∈ v.holds.map (·.bookingId))
      (fun _ _ => True) Otherwise := by
  refine triple_sweep (J := fun v => Hosted v ∧ id ∈ v.holds.map (·.bookingId))
    (fun v hv => ⟨hv.1.sweep _, (ids_expireDue v.holds deps.now).symm ▸ hv.2⟩) ?_
  unfold readForConfirm
  simp only [Prog.bind_eq, Prog.bind_assoc, Prog.pure_eq, Prog.ret_bind]
  refine (triple_getBooking fun _ hv => hv.2).bind fun hold => Prog.triple_ofExcept_bind apply_raises fun target _ => ?_
  refine (triple_getTrip fun v hv => hv.1.1 hold (lookup_some_mem hv.2)).bind fun trip => ?_
  refine Prog.Triple.bind (P := fun _ v => lookup MemoryRepo.idOf id v.holds = some hold)
    ((triple_charge (P := fun hs => lookup MemoryRepo.idOf id hs = some hold)).mono (fun _ hv => hv.2) fun _ _ hv => hv)
    fun result => Prog.triple_ofExcept_bind requireAccepted_raises fun _ _ => ?_
  refine (triple_setStatus fun _ hv => hv).bind fun confirmed => triple_publish.bind fun _ => ?_
  exact triple_telling buildReceipt_raises

theorem present_cancelBooking {id : String} :
    (cancelBooking id).Triple (World.exec g) (fun v => id ∈ v.holds.map (·.bookingId)) (fun _ _ => True) Otherwise := by
  refine (triple_getBooking fun _ hv => hv).bind fun hold => Prog.triple_ofExcept_bind apply_raises fun _ _ => ?_
  refine (triple_setStatus fun _ hv => hv.2).bind fun cancelled => ?_
  dsimp only
  split
  · exact triple_publish.bind fun _ => triple_telling (raises_ok cancelled)
  · exact triple_telling (raises_ok cancelled)

theorem present_sellUnreserved (hd : deps.Seeded) {t p n : String} {leg : Leg} {c : TravelClass}
    {ref : Option String} :
    (sellUnreserved deps t leg p n c ref).Triple (World.exec g)
      (fun v => Hosted v ∧ (replayed v.holds ref = none → t ∈ v.trips.map (·.tripId))) (fun _ _ => True) Otherwise := by
  refine (Prog.triple_reads (fun v => run_lookupReplay ref) fun _ _ => raises_ok _).bind fun found => ?_
  cases found with
  | some existing =>
      refine (triple_getTrip fun v hv => ?_).bind fun trip =>
        Prog.triple_ofExcept buildReceipt_raises fun _ _ _ _ => trivial
      exact hv.1.1 existing (replayed_mem (Except.ok.inj hv.2))
  | none =>
      refine triple_sweep (J := fun v => t ∈ v.trips.map (·.tripId)) (fun v hv => hv.1.2 (Except.ok.inj hv.2)) ?_
      unfold admitSale
      simp only [Prog.bind_eq, Prog.bind_assoc]
      refine (triple_getTrip fun _ hv => hv).bind fun trip =>
        Prog.triple_ofExcept_bind validateLeg_raises fun _ hleg => ?_
      refine (Prog.triple_reads (fun v => run_enforceAntiTout _) fun _ _ => antiTout_raises hd).bind fun _ => ?_
      split
      · exact Prog.triple_raise rfl
      simp only [Prog.bind_assoc]
      refine (Prog.triple_reads (fun v => run_assignSeat _) fun _ _ => seatAssignment_raises hd).bind
        fun ⟨seat, offer⟩ => ?_
      simp only [Prog.pure_eq, Prog.ret_bind]
      refine (Prog.triple_reads (fun v => run_priceLeg trip) fun _ _ => legPrice_raises hd hleg).bind fun fare => ?_
      refine Prog.Triple.bind (P := fun _ _ => True) ((triple_charge (P := fun _ => True)).mono (fun _ _ => trivial)
        fun _ _ _ => trivial) fun result => Prog.triple_ofExcept_bind requireAccepted_raises fun _ _ => ?_
      refine triple_addHold.bind fun _ => ?_
      cases seat with
      | some chosen => exact triple_publish.bind fun _ => triple_telling buildReceipt_raises
      | none => exact triple_telling buildReceipt_raises

theorem present_verifyTicket {ref : String} :
    (verifyTicket deps ref).Triple (World.exec g) (fun v => Hosted v ∧ ref ∈ v.holds.map (·.reference))
      (fun _ _ => True) Otherwise := by
  refine triple_sweep (J := fun v => Hosted v ∧ ref ∈ v.holds.map (·.reference))
    (fun v hv => ⟨hv.1.sweep _, (references_expireDue v.holds deps.now).symm ▸ hv.2⟩) ?_
  refine (Prog.triple_reads (run_byReference g · ref) fun _ _ => raises_ok _).bind fun found => ?_
  cases found with
  | none =>
      refine Prog.triple_of_false fun v hv => ?_
      obtain ⟨x, hx, href⟩ := List.mem_map.mp hv.1.2
      exact List.find?_eq_none.mp (Except.ok.inj hv.2) x hx (decide_eq_true href)
  | some booking =>
      refine (triple_getTrip fun v hv => hv.1.1 booking (List.mem_of_find?_eq_some (Except.ok.inj hv.2))).bind
        fun trip => ?_
      refine Prog.Triple.bind (P := fun _ _ => True) (Prog.triple_call fun _ _ => ⟨_, rfl, trivial⟩) fun _ => ?_
      exact Prog.triple_ofExcept_bind buildReceipt_raises fun _ _ => Prog.triple_ret fun _ _ => trivial

/-! ### The search -/

theorem checkSearch_raises (hd : deps.Seeded) {o d date : String} : Raises Otherwise (checkSearch deps o d date) := by
  have hparse : ∀ text, Raises Otherwise (parseDate text) := fun text => by
    unfold parseDate
    split
    · exact raises_ok _
    · exact raises_error rfl
  have htoday : ∀ offset, Raises Otherwise (dateFromEpoch deps.now offset) := fun offset => by
    unfold dateFromEpoch
    split
    · exact raises_error rfl
    · split
      · exact raises_error rfl
      · exact raises_ok _
  have hwindow : ∀ today window, Raises Otherwise (withinWindow date today window) := fun today window =>
    Raises.bind ((hparse _).bind fun _ _ => (hparse _).bind fun _ _ => raises_ok _) fun _ _ => raises_ok _
  refine (hparse _).bind fun _ _ => ?_
  split
  · exact raises_error rfl
  · refine (hd.int _ (by decide)).bind fun _ _ => (htoday _).bind fun _ _ => (hd.int _ (by decide)).bind fun _ _ =>
      (hwindow _ _).bind fun _ _ => ?_
    split
    · exact raises_error rfl
    · exact raises_ok _

theorem findByDate_raises {trips : List Trip} {date : String} :
    Raises Otherwise (MemoryRepo.findByDate trips date) := by
  refine Raises.bind ?_ fun _ _ => raises_ok _
  induction trips with
  | nil => exact raises_ok _
  | cons trip rest ih =>
      unfold MemoryRepo.departures
      split
      · refine Raises.bind ?_ fun _ _ => ih.bind fun _ _ => raises_ok _
        unfold departureMin
        split
        · exact raises_error rfl
        · exact raises_ok _
      · exact ih

theorem classesOn_raises (hd : deps.Seeded) {holds : List Hold} {trip : Trip} {leg : Leg}
    (hleg : validateLeg trip leg = .ok ()) {reservable : List Seat} {busy : List String} :
    ∀ cs, Raises Otherwise (classesOn deps holds trip leg reservable busy cs)
  | [] => raises_ok _
  | _ :: rest => (legPrice_raises hd hleg).bind fun _ _ => (classesOn_raises hd hleg rest).bind fun _ _ => raises_ok _

/-- The leg of an option joins two stations of the line. -/
theorem optionOn_raises (hd : deps.Seeded) {holds : List Hold} {trip : Trip} {o d : String} :
    Raises Otherwise (optionOn deps holds trip o d) := by
  unfold optionOn
  cases horigin : stationByCode trip o with
  | none => exact raises_ok _
  | some origin =>
      cases hdest : stationByCode trip d with
      | none => exact raises_ok _
      | some dest =>
          dsimp only
          split
          · exact raises_ok _
          · refine make_raises.bind fun leg hmake => ?_
            obtain ⟨hdep, harr⟩ := Leg.make_ok hmake
            have hleg : validateLeg trip leg = .ok () :=
              validateLeg_of_mem (mem_of_stationByCode horigin) (mem_of_stationByCode hdest) hdep harr
            obtain ⟨km, hkm⟩ := legDistanceKm_ok hleg
            split
            · exact raises_ok _
            · refine legTimes_raises.bind fun _ _ => (classesOn_raises hd hleg _).bind fun _ _ => ?_
              rw [hkm]
              exact raises_ok _

theorem optionsOn_raises (hd : deps.Seeded) {holds : List Hold} {o d : String} :
    ∀ trips, Raises Otherwise (optionsOn deps holds o d trips)
  | [] => raises_ok _
  | _ :: rest => (optionOn_raises hd).bind fun _ _ => (optionsOn_raises hd rest).bind fun _ _ => raises_ok _

theorem present_searchTrains (hd : deps.Seeded) {o d date : String} :
    (searchTrains deps o d date).Triple (World.exec g) (fun _ => True) (fun _ _ => True) Otherwise := by
  refine Prog.triple_ofExcept_bind (checkSearch_raises hd) fun _ _ => ?_
  refine triple_sweep (J := fun _ => True) (fun _ _ => trivial) ?_
  refine (Prog.triple_reads (run_findByDate g · date) fun _ _ => findByDate_raises).bind fun trips => ?_
  refine (Prog.triple_reads (fun v => run_trainOptions o d trips) fun _ _ => optionsOn_raises hd _).bind
    fun options => ?_
  exact Prog.Triple.bind (P := fun _ _ => True) (Prog.triple_call fun _ _ => ⟨_, rfl, trivial⟩) fun _ =>
    Prog.triple_ret fun _ _ => trivial

theorem present_legAvailability {t : String} {leg : Leg} :
    (legAvailability deps t leg).Triple (World.exec g) (fun v => t ∈ v.trips.map (·.tripId)) (fun _ _ => True)
      Otherwise := by
  refine (triple_getTrip fun _ hv => hv).bind fun trip => Prog.triple_ofExcept_bind validateLeg_raises fun _ _ => ?_
  refine triple_sweep (J := fun _ => True) (fun _ _ => trivial) ?_
  refine (Prog.triple_reads (run_activeHolds g · t) fun _ _ => raises_ok _).bind fun active => ?_
  exact Prog.Triple.bind (P := fun _ _ => True) (Prog.triple_call fun _ _ => ⟨_, rfl, trivial⟩) fun _ =>
    Prog.triple_ret fun _ _ => trivial

theorem present_quoteFare (hd : deps.Seeded) {t : String} {leg : Leg} {c : TravelClass} :
    (quoteFare deps t leg c).Triple (World.exec g) (fun v => t ∈ v.trips.map (·.tripId)) (fun _ _ => True)
      Otherwise := by
  refine (triple_getTrip fun _ hv => hv).bind fun trip => Prog.triple_ofExcept_bind validateLeg_raises fun _ hleg => ?_
  exact (Prog.triple_reads (fun v => run_priceLeg trip) fun _ _ => legPrice_raises hd hleg).mono (fun _ hv => hv)
    fun _ _ _ => trivial

/-! ### All calls -/

/-- **Something else, if anything, is wrong** with a call about what is there. -/
theorem call_present (hd : deps.Seeded) (call : Call) :
    (call.program deps).Triple (World.exec g) (fun v => Hosted v ∧ ¬ call.Absent v) (fun _ _ => True) Otherwise := by
  cases call with
  | hold => exact (present_holdSeat hd).mono (fun v hv hrep => not_not.mp fun hno => hv.2 ⟨hrep, hno⟩) fun _ _ h => h
  | sell =>
      exact (present_sellUnreserved hd).mono (fun v hv => ⟨hv.1, fun hrep => not_not.mp fun hno => hv.2 ⟨hrep, hno⟩⟩)
        fun _ _ h => h
  | confirm => exact present_confirmBooking.mono (fun v hv => ⟨hv.1, not_not.mp hv.2⟩) fun _ _ h => h
  | cancel => exact present_cancelBooking.mono (fun v hv => not_not.mp hv.2) fun _ _ h => h
  | verify => exact present_verifyTicket.mono (fun v hv => ⟨hv.1, not_not.mp hv.2⟩) fun _ _ h => h
  | search => exact (present_searchTrains hd).mono (fun _ _ => trivial) fun _ _ h => h
  | availability => exact present_legAvailability.mono (fun v hv => not_not.mp hv.2) fun _ _ h => h
  | quote => exact (present_quoteFare hd).mono (fun v hv => not_not.mp hv.2) fun _ _ h => h

/-- **A call about what is not there** returns nothing and says so. -/
theorem call_absent (call : Call) :
    (call.program deps).Triple (World.exec g) call.Absent (fun _ _ => False) fun e => e.missing = true := by
  cases call with
  | hold t _ _ _ _ ref =>
      refine (Prog.triple_reads (fun v => run_lookupReplay ref) fun _ _ => raises_ok _).bind fun found => ?_
      cases found with
      | some existing => exact Prog.triple_of_false fun v hv => nomatch hv.1.1.symm.trans (Except.ok.inj hv.2)
      | none =>
          refine triple_sweep (J := fun v => t ∉ v.trips.map (·.tripId)) (fun v hv => hv.1.2) ?_
          unfold draftHold
          simp only [Prog.bind_eq, Prog.bind_assoc]
          exact triple_getTrip_absent fun _ hv => hv
  | sell t _ _ _ _ ref =>
      refine (Prog.triple_reads (fun v => run_lookupReplay ref) fun _ _ => raises_ok _).bind fun found => ?_
      cases found with
      | some existing => exact Prog.triple_of_false fun v hv => nomatch hv.1.1.symm.trans (Except.ok.inj hv.2)
      | none =>
          refine triple_sweep (J := fun v => t ∉ v.trips.map (·.tripId)) (fun v hv => hv.1.2) ?_
          unfold admitSale
          simp only [Prog.bind_eq, Prog.bind_assoc]
          exact triple_getTrip_absent fun _ hv => hv
  | confirm id =>
      refine triple_sweep (J := fun v => id ∉ v.holds.map (·.bookingId))
        (fun v hv => (ids_expireDue v.holds deps.now).symm ▸ hv) ?_
      unfold readForConfirm
      simp only [Prog.bind_eq, Prog.bind_assoc]
      exact triple_getBooking_absent fun _ hv => hv
  | cancel id => exact triple_getBooking_absent fun _ hv => hv
  | verify ref =>
      refine triple_sweep (J := fun v => ref ∉ v.holds.map (·.reference))
        (fun v hv => (references_expireDue v.holds deps.now).symm ▸ hv) ?_
      refine (Prog.triple_reads (run_byReference g · ref) fun _ _ => raises_ok _).bind fun found => ?_
      cases found with
      | none => exact Prog.triple_raise rfl
      | some booking =>
          refine Prog.triple_of_false fun v hv => ?_
          have hfound : MemoryRepo.byReference v.holds ref = some booking := Except.ok.inj hv.2
          have href : booking.reference = ref := by simpa using List.find?_some hfound
          exact hv.1 (List.mem_map.mpr ⟨booking, List.mem_of_find?_eq_some hfound, href⟩)
  | search => exact Prog.triple_of_false fun _ hv => hv
  | availability => exact triple_getTrip_absent fun _ hv => hv
  | quote => exact triple_getTrip_absent fun _ hv => hv

end Present

/-! ## The app -/

/-- A served call is answered 404 exactly when what it was about is not there. -/
theorem run_not_found {w : World} {env : Env} (hd : env.deps.Seeded) (hw : Hosted w) {call : Call} {status : Nat}
    (hstatus : status ≠ 404) {out : call.Answer → Body} :
    (∃ response, (env.run call status out w).1 = .ok response ∧ response.status = 404) ↔ call.Absent w := by
  show (∃ response, respond status out ((call.program env.deps).run (World.exec env.gateway) w.enter).1 = _ ∧ _) ↔ _
  have habsent : call.Absent w.enter ↔ call.Absent w := by cases call <;> rfl
  rw [← habsent]
  by_cases ha : call.Absent w.enter
  · refine iff_of_true ?_ ha
    have htriple : (call.program env.deps).Triple (World.exec env.gateway) call.Absent (fun _ _ => False)
        fun e => e.missing = true := call_absent call
    obtain ⟨hok, herr⟩ := htriple w.enter ha
    cases hrun : ((call.program env.deps).run (World.exec env.gateway) w.enter).1 with
    | ok a => exact (hok a hrun).elim
    | error e => exact errorResponse_not_found.mpr (herr e hrun)
  · refine iff_of_false ?_ ha
    have htriple : (call.program env.deps).Triple (World.exec env.gateway) (fun v => Hosted v ∧ ¬ call.Absent v)
        (fun _ _ => True) Otherwise := call_present hd call
    obtain ⟨-, herr⟩ := htriple w.enter ⟨hw, ha⟩
    rintro ⟨response, hresponse, hcode⟩
    cases hrun : ((call.program env.deps).run (World.exec env.gateway) w.enter).1 with
    | ok a =>
        rw [hrun] at hresponse
        rw [← Except.ok.inj hresponse] at hcode
        exact hstatus hcode
    | error e =>
        rw [hrun] at hresponse
        have hmissing : e.missing = true := errorResponse_not_found.mp ⟨response, hresponse, hcode⟩
        rw [herr e hrun] at hmissing
        cases hmissing

/-! ## What a request gets to

The fields, the leg and the key are checked before the call runs, and none of these checks answers 404. -/

/-- The leg two sequence numbers make, if they make one. -/
def legOf? (originSeq destSeq : Int) : Option Leg := (Leg.make originSeq destSeq).toOption

/-- The request carries the counter key. -/
def hasCounterKey (settings : Settings) (request : HttpRequest Target) : Bool :=
  match requireCounterKey settings ((request.header counterKeyHeader).getD "") with
  | .ok none => true
  | _ => false

/-- The use-case call a request gets to, if its fields, its leg and its key are in order. -/
def call? (settings : Settings) (request : HttpRequest Target) : Option Call :=
  match request.body with
  | .search query => (query.filter SearchQuery.valid).bind fun q => some (.search q.origin q.dest q.date)
  | .availability tripId seqs =>
    (seqs.filter fun q => 0 ≤ q.1 && 0 ≤ q.2).bind fun q => (legOf? q.1 q.2).bind fun leg =>
      some (.availability tripId leg)
  | .quote body =>
    (body.checked? QuoteRequest.valid).bind fun b => (legOf? b.originSeq b.destSeq).bind fun leg =>
      some (.quote b.tripId leg b.travelClass)
  | .hold body =>
    (body.checked? HoldRequest.valid).bind fun b => (legOf? b.originSeq b.destSeq).bind fun leg =>
      some (.hold b.tripId b.seatId leg b.passengerId b.passengerName b.reference)
  | .confirm bookingId => some (.confirm bookingId)
  | .cancel bookingId => some (.cancel bookingId)
  | .sell body =>
    if hasCounterKey settings request then
      (body.checked? SellUnreservedRequest.valid).bind fun b => (legOf? b.originSeq b.destSeq).bind fun leg =>
        some (.sell b.tripId leg b.passengerId b.passengerName b.travelClass none)
    else none
  | .verify reference => if hasCounterKey settings request then some (.verify reference) else none
  | .elsewhere _ => none

/-- The endpoint runs the call, or refuses with something else than a 404. -/
def Reaches (env : Env) (reached : Option Call) (k : World → Outgoing × World) : Prop :=
  match reached with
  | some call => ∃ status out, status ≠ 404 ∧ k = env.run call status out
  | none => ∀ w response, (k w).1 = .ok response → response.status ≠ 404

section Reaches

variable {env : Env} {settings : Settings}

theorem reaches_run {call : Call} {status : Nat} {out : call.Answer → Body} (h : status ≠ 404) :
    Reaches env (some call) (env.run call status out) := ⟨status, out, h, rfl⟩

theorem reaches_onLeg {originSeq destSeq : Int} {c : Leg → Option Call} {k : Leg → World → Outgoing × World}
    (hk : ∀ leg, Reaches env (c leg) (k leg)) :
    Reaches env ((legOf? originSeq destSeq).bind c) (onLeg originSeq destSeq k) := by
  unfold legOf? onLeg
  cases hmake : Leg.make originSeq destSeq with
  | ok leg => exact hk leg
  | error e =>
      intro w response hresponse hcode
      have hmissing : e.missing = true := errorResponse_not_found.mp ⟨response, hresponse, hcode⟩
      cases (make_raises e hmake).symm.trans hmissing

theorem reaches_checked {α : Type} {value : Option α} {c : α → Option Call} {k : α → World → Outgoing × World}
    (hk : ∀ a, Reaches env (c a) (k a)) : Reaches env (value.bind c) (checked value k) := by
  cases value with
  | some a => exact hk a
  | none =>
      intro w response hresponse
      rw [← Except.ok.inj hresponse]
      decide

/-- A body that is refused unread passes no field check. -/
theorem checked_of_unread {α : Type} {body : Payload α} {refusal : Response Body} (h : body.unread? = some refusal)
    (valid : α → Bool) : body.checked? valid = none := by
  cases body with
  | notText | notJson => rfl
  | mistyped | fields => cases h

theorem unread_ne_not_found {α : Type} {body : Payload α} {refusal : Response Body}
    (h : body.unread? = some refusal) : refusal.status ≠ 404 := by
  cases body with
  | notText | notJson =>
      rw [← Option.some.inj h]
      decide
  | mistyped | fields => cases h

theorem reaches_withBody {α : Type} {body : Payload α} {reached : Option Call} {k : World → Outgoing × World}
    (hunread : ∀ refusal, body.unread? = some refusal → reached = none) (hk : Reaches env reached k) :
    Reaches env reached (withBody body k) := by
  cases hbody : body.unread? with
  | none =>
      have hsame : withBody body k = k := funext fun w => by rw [withBody, hbody]
      rw [hsame]
      exact hk
  | some refusal =>
      rw [hunread refusal hbody]
      intro w response hresponse
      rw [withBody, hbody] at hresponse
      rw [← Except.ok.inj hresponse]
      exact unread_ne_not_found hbody

theorem reaches_guarded {request : HttpRequest Target} {reached : Option Call} {k : World → Outgoing × World}
    (hk : Reaches env reached k) :
    Reaches env (if hasCounterKey settings request then reached else none) (guarded settings request k) := by
  unfold hasCounterKey guarded requireCounterKey
  cases compareDigest ((request.header counterKeyHeader).getD "") settings.counterKey with
  | error fault => exact fun _ _ h => nomatch h
  | ok same =>
      cases same with
      | true => exact hk
      | false =>
          intro w response hresponse
          rw [← Except.ok.inj hresponse]
          decide

/-- **What a request gets to.** -/
theorem handle_reaches {request : HttpRequest Target} (hpage : ∀ page, request.body ≠ .elsewhere page) :
    Reaches env (call? settings request) (handle settings env request) := by
  unfold call? handle
  cases hbody : request.body with
  | search query => exact reaches_checked fun _ => reaches_run (by decide)
  | availability tripId seqs => exact reaches_checked fun _ => reaches_onLeg fun _ => reaches_run (by decide)
  | quote body | hold body =>
      refine reaches_withBody (fun refusal h => ?_)
        (reaches_checked fun _ => reaches_onLeg fun _ => reaches_run (by decide))
      dsimp only
      rw [checked_of_unread h]
      rfl
  | confirm | cancel => exact reaches_run (by decide)
  | sell body =>
      refine reaches_withBody (fun refusal h => ?_)
        (reaches_guarded (reaches_checked fun _ => reaches_onLeg fun _ => reaches_run (by decide)))
      dsimp only
      rw [checked_of_unread h]
      exact ite_self _
  | verify reference => exact reaches_guarded (reaches_run (by decide))
  | elsewhere page => exact absurd hbody (hpage page)

end Reaches

namespace App

/-- Whatever was served, the store behind the cache is one that calls have made. -/
theorem after_calls (settings : Settings) (trips : List Trip) (history : List Incoming) :
    ∃ past, (after settings (start trips) history).app = (World.start trips).after past := by
  induction history using List.reverseRecOn with
  | nil => exact ⟨[], rfl⟩
  | append_singleton history x ih =>
      obtain ⟨past, hpast⟩ := ih
      have hlast : after settings (start trips) (history ++ [x]) =
          (serve settings (after settings (start trips) history) x).2 := List.foldl_concat _ _ _ _
      rw [hlast]
      rcases serve_app settings x.env x.request (after settings (start trips) history) with hsame | ⟨call, hcall⟩
      · exact ⟨past, hsame.trans hpast⟩
      · refine ⟨past ++ [⟨call, x.env.deps, x.env.gateway⟩], hcall.trans ?_⟩
        rw [World.after_snoc, hpast]

end App

theorem hosted_after (trips : List Trip) (past : List Request) : Hosted ((World.start trips).after past) := by
  intro h hh
  obtain ⟨trip, htrip, -⟩ := (run_onLine trips past).2 h hh
  exact List.mem_map.mpr ⟨trip, lookup_some_mem (getTrip_ok htrip), getTrip_tripId htrip⟩

/-- The routes' settings among the loaded ones. -/
def AppSettings.routes (settings : AppSettings) : Settings := ⟨settings.counterKey, settings.currency⟩

/-! ## The app behind its cache -/

/-- **A 404 says that something is not there.** With the ports wired from any environment, after any history, a
    request to a use-case's route that is not a replay is answered 404 exactly when it gets to a call and the trip or
    the booking that call is about is not stored. No missing config key, station or seat is reported that way. -/
theorem not_found_iff {float : String → Except Err ℚ}
    (hfloat : ∀ text, Raises (fun e => ∃ detail, e = .valueError detail) (float text))
    {environ : Environ} {settings : AppSettings} (hload : loadSettings environ = .ok settings)
    (trips : List Trip) (history : List Incoming) {x : Incoming} {now : Int} {newId newReference : String}
    (hports : x.env.deps = wireReal float environ settings now newId newReference)
    (hpage : ∀ page, x.target ≠ .elsewhere page)
    (hnew : (App.after settings.routes (App.start trips) history).replay? x.request = none) :
    (∃ response, (App.serve settings.routes (App.after settings.routes (App.start trips) history) x).1 = .ok response ∧
        response.status = 404) ↔
      ∃ call, call? settings.routes x.request = some call ∧
        call.Absent (App.after settings.routes (App.start trips) history).app := by
  obtain ⟨past, hpast⟩ := App.after_calls settings.routes trips history
  have hhosted : Hosted (App.after settings.routes (App.start trips) history).app := hpast ▸ hosted_after trips past
  have hseeded : x.env.deps.Seeded := hports ▸ seeded_wireReal hfloat hload now newId newReference
  generalize App.after settings.routes (App.start trips) history = s at hnew hhosted
  have hanswer : (App.serve settings.routes s x).1 = (handle settings.routes x.env x.request s.app).1 :=
    (serve_reached hnew).1
  rw [hanswer]
  have hreaches : Reaches x.env (call? settings.routes x.request) (handle settings.routes x.env x.request) :=
    handle_reaches hpage
  cases hcall : call? settings.routes x.request with
  | none =>
      rw [hcall] at hreaches
      refine iff_of_false ?_ (by simp)
      rintro ⟨response, hresponse, hcode⟩
      exact hreaches s.app response hresponse hcode
  | some call =>
      rw [hcall] at hreaches
      obtain ⟨status, out, hstatus, hrun⟩ := hreaches
      rw [hrun, run_not_found hseeded hhosted hstatus]
      simp

/-- What is loaded from an empty environment. -/
def defaultSettings : AppSettings :=
  { counterKey := "counter-dev-key"
    currency := "LKR"
    fareStrategy := "dynamic"
    fareRatePerKmCents := 685
    bookingWindowDays := 30
    utcOffsetMinutes := 330
    policy := policyDefaults.map fun entry => (entry.1, entry.2.2) }

/-- `float` on the default texts. -/
def floatOfDefaults (text : String) : Except Err ℚ :=
  match [("0.8", 4 / 5), ("2.0", 2), ("1.0", 1), ("0.7", 7 / 10)].lookup text with
  | some value => .ok value
  | none => .error (.valueError s!"could not convert string to float: '{text}'")

theorem floatOfDefaults_raises (text : String) :
    Raises (fun e => ∃ detail, e = .valueError detail) (floatOfDefaults text) := by
  unfold floatOfDefaults
  split
  · exact raises_ok _
  · exact raises_error ⟨_, rfl⟩

/-- A look at a trip's seats, over the first hop. -/
def seatsLook (tripId : String) : Incoming :=
  { target := .availability tripId (some (0, 1))
    headers := []
    env := ⟨wireReal floatOfDefaults [] defaultSettings 0 "b1" "SLR-1", acceptAll⟩ }

/-- No train of that name, and one of that name. -/
theorem not_found_iff_sample :
    (∃ response, (App.serve defaultSettings.routes (App.start sampleTrips) (seatsLook "local")).1 = .ok response ∧
      response.status = 404) ∧
    ¬ ∃ response, (App.serve defaultSettings.routes (App.start sampleTrips) (seatsLook "slow")).1 = .ok response ∧
      response.status = 404 := by
  have hload : loadSettings [] = .ok defaultSettings := by decide +kernel
  have hiff := fun tripId => not_found_iff floatOfDefaults_raises hload sampleTrips [] (x := seatsLook tripId) rfl
    (fun _ h => nomatch h) rfl
  have hlocal : "local" ∉ (World.start sampleTrips).trips.map (·.tripId) := by decide
  have hslow : "slow" ∈ (World.start sampleTrips).trips.map (·.tripId) := by decide
  refine ⟨(hiff "local").mpr ⟨.availability "local" firstHop, rfl, hlocal⟩, fun h => ?_⟩
  obtain ⟨call, hcall, habsent⟩ := (hiff "slow").mp h
  obtain rfl : .availability "slow" firstHop = call := Option.some.inj hcall
  exact habsent hslow

end SlrBooking
