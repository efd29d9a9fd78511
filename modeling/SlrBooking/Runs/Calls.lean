import SlrBooking.Usecases.Booking
import SlrBooking.Usecases.Counter
import SlrBooking.Usecases.Search
import SlrBooking.Adapters.MemoryRepo

/-!
# `Runs.Calls` — complete calls, one at a time, over the in-memory store

A `Call` is one of the eight use-cases with its arguments. A `Request` adds what the answering ports and
the gateway say during that call. `World.serve` runs it inside its `with` block; a run of the system is a
list of requests served from `World.start`.

## Contents
- `Call`, `Call.program`, `Request`, `World.serve`, `World.after`, `World.start`.
- `Same`: what a call that has no effect leaves alone.
- The reading programs are quiet. What a request is about: `Request.clientReference`, `ticketRef`, `subject`.
-/

namespace SlrBooking

open Theory Rows

/-- The use-cases with their arguments. -/
inductive Call where
  | hold (tripId seatId : String) (leg : Leg) (passengerId passengerName : String) (reference : Option String)
  | confirm (bookingId : String)
  | cancel (bookingId : String)
  | sell (tripId : String) (leg : Leg) (passengerId passengerName : String) (travelClass : TravelClass)
      (reference : Option String)
  | verify (reference : String)
  | search (originCode destCode serviceDate : String)
  | availability (tripId : String) (leg : Leg)
  | quote (tripId : String) (leg : Leg) (travelClass : TravelClass)
deriving DecidableEq

namespace Call

/-- What a call returns. -/
@[reducible] def Answer : Call → Type
  | hold .. => Hold
  | confirm .. => Receipt
  | cancel .. => Hold
  | sell .. => Receipt
  | verify .. => Verification
  | search .. => List TrainOption
  | availability .. => LegAvailability
  | quote .. => Money

/-- The use-case's program. -/
def program (deps : Deps) : (c : Call) → Prog Ports Err c.Answer
  | hold tripId seatId leg passengerId passengerName reference =>
    holdSeat deps tripId seatId leg passengerId passengerName reference
  | confirm bookingId => confirmBooking deps bookingId
  | cancel bookingId => cancelBooking bookingId
  | sell tripId leg passengerId passengerName travelClass reference =>
    sellUnreserved deps tripId leg passengerId passengerName travelClass reference
  | verify reference => verifyTicket deps reference
  | search originCode destCode serviceDate => searchTrains deps originCode destCode serviceDate
  | availability tripId leg => legAvailability deps tripId leg
  | quote tripId leg travelClass => quoteFare deps tripId leg travelClass

end Call

/-- Declines every charge; repository operations never ask it. -/
def declineAll : Gateway := fun reference _ => { ok := false, reference := reference }

/-- A call with what the ports answer while it runs. -/
structure Request where
  call    : Call
  deps    : Deps
  gateway : Gateway

namespace Request

variable (r : Request)

/-- The request can create a booking. -/
def books : Bool :=
  match r.call with
  | .hold .. | .sell .. => true
  | _ => false

/-- The reference the client chose, if the request creates a booking. -/
def clientReference : Option String :=
  match r.call with
  | .hold _ _ _ _ _ reference => reference
  | .sell _ _ _ _ _ reference => reference
  | _ => none

/-- The reference its booking would carry. -/
def ticketRef : String := orFresh r.clientReference r.deps.newReference

/-- The trip and the passenger it would book. -/
def asksFor : Option (String × String) :=
  match r.call with
  | .hold tripId _ _ passengerId _ _ => some (tripId, passengerId)
  | .sell tripId _ passengerId _ _ _ => some (tripId, passengerId)
  | _ => none

/-- The booking it confirms or cancels. -/
def subject : Option String :=
  match r.call with
  | .confirm bookingId => some bookingId
  | .cancel bookingId => some bookingId
  | _ => none

end Request

namespace World

def enter (w : World) : World := { w with uow := w.uow.enter }

def exit (w : World) : World := { w with uow := w.uow.exit }

/-- Run a program as the body of one `with uow:` block. -/
def block {α : Type} (gateway : Gateway) (p : Prog Ports Err α) (w : World) : Except Err α × World :=
  ((p.run (exec gateway) w.enter).1, (p.run (exec gateway) w.enter).2.exit)

theorem block_pair {α : Type} (gateway : Gateway) (p : Prog Ports Err α) (w : World) :
    w.block gateway p = ((w.block gateway p).1, (w.block gateway p).2) := rfl

/-- Serve one request. -/
def serve (w : World) (r : Request) : Except Err r.call.Answer × World :=
  w.block r.gateway (r.call.program r.deps)

/-- What serving the request raises, if anything. -/
def raises (w : World) (r : Request) : Option Err :=
  match (w.serve r).1 with
  | .ok _ => none
  | .error e => some e

theorem raises_some {w : World} {r : Request} {e : Err} (h : w.raises r = some e) : (w.serve r).1 = .error e := by
  unfold raises at h
  split at h
  · cases h
  · rename_i e' he
    rw [he, Option.some.inj h]

/-- The world after a run of requests. -/
def after (w : World) (requests : List Request) : World := requests.foldl (fun v r => (v.serve r).2) w

/-- An empty booking store over the given trips. -/
def start (trips : List Trip) : World := { uow := MemoryUow.make trips }

/-- The booking store and the accepted charges are as they were. -/
structure Same (w w' : World) : Prop where
  holds    : w'.holds = w.holds
  trips    : w'.trips = w.trips
  accepted : w'.accepted = w.accepted

/-- The store after the sweep every booking call starts with. -/
def swept (w : World) (now : Int) : List Hold := (MemoryRepo.expireDue w.holds now).2

/-- The world inside a block, after the sweep. -/
def opened (w : World) (now : Int) : World := w.enter.withHolds (w.swept now)

@[simp] theorem holds_enter (w : World) : w.enter.holds = w.holds := rfl
@[simp] theorem trips_enter (w : World) : w.enter.trips = w.trips := rfl
@[simp] theorem holds_opened (w : World) (now : Int) : (w.opened now).holds = w.swept now := rfl
@[simp] theorem trips_opened (w : World) (now : Int) : (w.opened now).trips = w.trips := rfl

/-! ### Histories and blocks -/

theorem after_append (w : World) (rs ss : List Request) : w.after (rs ++ ss) = (w.after rs).after ss :=
  List.foldl_append

theorem after_snoc (w : World) (rs : List Request) (r : Request) :
    w.after (rs ++ [r]) = ((w.after rs).serve r).2 := after_append w rs [r]

theorem after_cons (w : World) (r : Request) (rs : List Request) :
    w.after (r :: rs) = (w.serve r).2.after rs := rfl

/-- Leaving an uncommitted block restores the store. -/
theorem exit_open {w v : World} (h : v.uow.snapshot = some (w.holds, w.trips)) :
    v.exit.holds = w.holds ∧ v.exit.trips = w.trips ∧ v.exit.accepted = v.accepted := by
  unfold exit MemoryUow.exit MemoryUow.rollback holds trips
  rw [h]
  exact ⟨rfl, rfl, rfl⟩

theorem exit_committed {v : World} (h : v.uow.snapshot = none) : v.exit = v := by
  unfold exit MemoryUow.exit MemoryUow.rollback
  rw [h]

/-- A block that ends where the sweep left it, or at its start, has no effect. -/
theorem same_exit_enter (w : World) : Same w w.enter.exit :=
  ⟨(exit_open (w := w) rfl).1, (exit_open (w := w) rfl).2.1, rfl⟩

theorem same_exit_opened (w : World) (now : Int) : Same w (w.opened now).exit :=
  ⟨(exit_open (w := w) (v := w.opened now) rfl).1, (exit_open (w := w) (v := w.opened now) rfl).2.1, rfl⟩

end World

/-! ## The reading programs -/

section Quiet

variable (g : Gateway)

theorem quiet_occupancyOverLeg (trip : Trip) (leg : Leg) :
    (occupancyOverLeg trip leg).Quiet (World.exec g) := by
  unfold occupancyOverLeg
  split
  · exact Prog.quiet_ret _
  · exact Prog.Quiet.bind (Prog.quiet_call fun _ => rfl) fun _ => Prog.quiet_ret _

theorem quiet_priceLeg (deps : Deps) (trip : Trip) (leg : Leg) (c : TravelClass) :
    (priceLeg deps trip leg c).Quiet (World.exec g) :=
  (Prog.quiet_ofExcept _).bind fun _ => (Prog.quiet_ofExcept _).bind fun _ =>
    (quiet_occupancyOverLeg g trip leg).bind fun _ => Prog.quiet_ofExcept _

theorem quiet_enforceAntiTout (deps : Deps) (t p : String) (now : Int) :
    (enforceAntiTout deps t p now).Quiet (World.exec g) :=
  Prog.Quiet.bind (Prog.quiet_call fun _ => rfl) fun _ => Prog.quiet_ofExcept _

theorem quiet_getBooking (id : String) : (getBooking id).Quiet (World.exec g) := by
  refine Prog.Quiet.rescue (Prog.quiet_call fun _ => rfl) fun e => ?_
  cases e <;> exact Prog.quiet_raise _

theorem quiet_getTrip (id : String) : (Trips.get id).Quiet (World.exec g) := Prog.quiet_call fun _ => rfl

theorem quiet_draftHold (deps : Deps) (t s : String) (leg : Leg) (p n : String) (ref : Option String) :
    (draftHold deps t s leg p n ref).Quiet (World.exec g) :=
  (quiet_getTrip g t).bind fun _ => (Prog.quiet_ofExcept _).bind fun _ => (Prog.quiet_ofExcept _).bind fun _ =>
    (quiet_enforceAntiTout g deps t p _).bind fun _ => (quiet_priceLeg g deps _ leg _).bind fun _ =>
      (Prog.quiet_ofExcept _).bind fun _ => Prog.quiet_ret _

theorem quiet_readForConfirm (id : String) : (readForConfirm id).Quiet (World.exec g) :=
  (quiet_getBooking g id).bind fun _ => (Prog.quiet_ofExcept _).bind fun _ =>
    (quiet_getTrip g _).bind fun _ => Prog.quiet_ret _

theorem quiet_poolLegs (t : String) : ∀ pool : List Seat, (poolLegs t pool).Quiet (World.exec g)
  | [] => Prog.quiet_ret _
  | _ :: rest =>
    Prog.Quiet.bind (Prog.quiet_call fun _ => rfl) fun _ => (quiet_poolLegs t rest).bind fun _ => Prog.quiet_ret _

theorem quiet_guardStandingCapacity (deps : Deps) (t : String) (c : TravelClass) :
    (guardStandingCapacity deps t c).Quiet (World.exec g) := by
  refine Prog.Quiet.bind (Prog.quiet_call fun _ => rfl) fun _ => (Prog.quiet_ofExcept _).bind fun _ => ?_
  split
  · exact Prog.quiet_raise _
  · exact Prog.quiet_ret _

theorem quiet_assignSeat (deps : Deps) (t : String) (leg : Leg) (c : TravelClass) (pool : List Seat) :
    (assignSeat deps t leg c pool).Quiet (World.exec g) := by
  refine (quiet_poolLegs g t _).bind fun seatLegs => ?_
  split
  · exact Prog.quiet_ret _
  · exact (quiet_guardStandingCapacity g deps t c).bind fun _ => (Prog.quiet_ofExcept _).bind fun _ =>
      Prog.quiet_ret _

theorem quiet_admitSale (deps : Deps) (t : String) (leg : Leg) (p : String) (c : TravelClass) :
    (admitSale deps t leg p c).Quiet (World.exec g) := by
  refine (quiet_getTrip g t).bind fun trip => (Prog.quiet_ofExcept _).bind fun _ =>
    (quiet_enforceAntiTout g deps t p _).bind fun _ => ?_
  dsimp only
  split
  · exact Prog.quiet_raise _
  · exact (quiet_assignSeat g deps t leg c _).bind fun _ => (quiet_priceLeg g deps trip leg c).bind fun _ =>
      Prog.quiet_ret _

end Quiet

/-! ## A sample line

Three stations; a train that calls at all of them and an express that passes the middle one. -/

def sampleStations : List Station :=
  [⟨"FOT", "Colombo Fort", 0, 0⟩, ⟨"KDT", "Kandy", 1, 120⟩, ⟨"BAD", "Badulla", 2, 290⟩]

def sampleCoaches : List Coach :=
  [⟨"A", .reserved, .first, 1, "2-0", []⟩, ⟨"U", .unreserved, .third, 1, "1-0", []⟩]

def sampleSeats : List Seat :=
  [⟨"A1", "A", .reserved, .first, 1, 1, "A"⟩, ⟨"A2", "A", .reserved, .first, 2, 1, "B"⟩,
   ⟨"U1", "U", .unreserved, .third, 1, 1, "A"⟩]

def sampleTrip (tripId : String) (stops : List Stop) : Trip :=
  { tripId := tripId
    routeCode := "MAIN"
    serviceDate := "2024-05-01"
    trainNo := "1005"
    trainName := "Podi Menike"
    stations := sampleStations
    stops := stops
    coaches := sampleCoaches
    seats := sampleSeats }

def originStop : Stop := ⟨0, none, some 350, by decide, by decide⟩
def middleStop : Stop := ⟨1, some 500, some 510, by decide, by decide⟩
def terminusStop : Stop := ⟨2, some 900, none, by decide, by decide⟩

def sampleTrips : List Trip :=
  [sampleTrip "slow" [originStop, middleStop, terminusStop], sampleTrip "express" [originStop, terminusStop]]

def firstHop : Leg := ⟨0, 1, by decide, by decide⟩
def secondHop : Leg := ⟨1, 2, by decide, by decide⟩
def wholeLine : Leg := ⟨0, 2, by decide, by decide⟩

/-- A longer line, and the train that calls at all six of its stations. -/
def longTrips : List Trip :=
  [{ sampleTrip "slow" [originStop, middleStop, ⟨2, some 600, some 605, by decide, by decide⟩,
      ⟨3, some 700, some 705, by decide, by decide⟩, ⟨4, some 800, some 805, by decide, by decide⟩,
      ⟨5, some 900, none, by decide, by decide⟩] with
    stations := sampleStations ++
      [⟨"ELL", "Ella", 3, 310⟩, ⟨"DDR", "Demodara", 4, 320⟩, ⟨"HEL", "Hali Ela", 5, 330⟩] }]

def fourthHop : Leg := ⟨3, 4, by decide, by decide⟩
def lastThreeHops : Leg := ⟨2, 5, by decide, by decide⟩

def sampleConfig : List (String × Int) :=
  [(holdTtl, 900), (maxSeatsPerPassenger, 4), (velocityWindow, 600), (maxBookingsPerWindow, 3),
   (standingCapacity, 2), (bookingWindowDays, 30), (utcOffsetMinutes, 330)]

/-- The answering ports at an instant, with `tag` in the generated id and reference. -/
def sampleDeps (now : Int) (tag : String) : Deps :=
  { now := now
    newId := "b" ++ tag
    newReference := "SLR-" ++ tag
    getInt := fun key => match sampleConfig.find? fun kv => kv.1 = key with
      | some kv => .ok kv.2
      | none => .error (.keyError key)
    getFloat := fun key => if key = abuseThreshold then .ok (4 / 5) else .ok 1
    price := fun _ _ _ => .ok ⟨10000⟩
    score := fun _ => .ok 0 }

/-- Accepts every charge. -/
def acceptAll : Gateway := fun reference _ => { ok := true, reference := reference }

end SlrBooking
