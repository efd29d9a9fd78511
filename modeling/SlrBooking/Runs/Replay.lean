import SlrBooking.Runs.NoDoubleBooking

/-!
# `Runs.Replay` — is the seat a hold returns the seat that was asked for?

A hold whose reference is already known returns the booking of that name before any check, and compares
nothing but the reference.

## Contents
- `AnswersRequest`: the property, for one hold on one store.
- `ReplayMatches`: the condition; a booking the reference names is the asked one and still active.
- `hold_answers_iff`: on every reachable store the property holds exactly under the condition.
- `replay_of_a_stranger`: a run on which it fails.
-/

namespace SlrBooking

open Theory Rows

/-- The arguments of a hold. -/
structure HoldArgs where
  tripId        : String
  seatId        : String
  leg           : Leg
  passengerId   : String
  passengerName : String
  reference     : Option String

def HoldArgs.program (a : HoldArgs) (deps : Deps) : Prog Ports Err Hold :=
  holdSeat deps a.tripId a.seatId a.leg a.passengerId a.passengerName a.reference

/-- `h` is a booking of what was asked for, by whom it was asked. -/
structure IsFor (a : HoldArgs) (h : Hold) : Prop where
  trip   : h.tripId = a.tripId
  seat   : h.seatId = a.seatId
  leg    : h.leg = a.leg
  person : h.passengerId = a.passengerId
  name   : h.passengerName = a.passengerName

/-- A normal return is the asked booking, and the store then has it active over that seat and leg. -/
def AnswersRequest (w : World) (deps : Deps) (g : Gateway) (a : HoldArgs) : Prop :=
  ∀ h, (w.block g (a.program deps)).1 = .ok h → IsFor a h ∧
    ∃ b, lookup MemoryRepo.idOf h.bookingId (w.block g (a.program deps)).2.holds = some b ∧
      b.tripId = a.tripId ∧ b.seatId = a.seatId ∧ b.leg = a.leg ∧ b.status.isActive = true

/-- A booking the reference already names is the asked one and HELD or CONFIRMED. -/
def ReplayMatches (w : World) (a : HoldArgs) : Prop :=
  ∀ b, replayed w.holds a.reference = some b → IsFor a b ∧ b.status.isActive = true

theorem replayed_mem {holds : List Hold} {ref : Option String} {b : Hold} (h : replayed holds ref = some b) :
    b ∈ holds := by
  obtain ⟨r, -, hr⟩ := Option.bind_eq_some_iff.mp h
  exact List.mem_of_find?_eq_some hr

/-- **A hold answers its request, exactly when** its reference names nothing, or the very booking it asks
    for, still active. -/
theorem hold_answers_iff (trips : List Trip) (past : List Request) (deps : Deps) (g : Gateway) (a : HoldArgs) :
    AnswersRequest ((World.start trips).after past) deps g a ↔
      ReplayMatches ((World.start trips).after past) a := by
  obtain ⟨hkeyed, -⟩ := run_onLine trips past
  generalize (World.start trips).after past = w at hkeyed
  rcases holdSeat_outcome (World.block_pair g (a.program deps) w) with
    ⟨b, hrep, hr, hsame⟩ | ⟨hrep, ⟨e, he⟩, -⟩ | ⟨hrep, trip, seat, fare, ttl, holds, -, -, -, hadd, hr, hw⟩
  · have hstored : lookup MemoryRepo.idOf b.bookingId (w.block g (a.program deps)).2.holds = some b := by
      rw [hsame.holds]
      exact lookup_of_mem hkeyed (replayed_mem hrep)
    constructor
    · intro hans b' hb'
      obtain rfl : b = b' := Option.some.inj (hrep.symm.trans hb')
      obtain ⟨hfor, b'', hb'', -, -, -, hactive⟩ := hans b hr
      obtain rfl : b = b'' := Option.some.inj (hstored.symm.trans hb'')
      exact ⟨hfor, hactive⟩
    · intro hmatch h hh
      obtain rfl : b = h := Except.ok.inj (hr.symm.trans hh)
      obtain ⟨hfor, hactive⟩ := hmatch b hrep
      exact ⟨hfor, b, hstored, hfor.trip, hfor.seat, hfor.leg, hactive⟩
  · refine iff_of_true (fun h hh => ?_) (fun b hb => ?_)
    · cases he.symm.trans hh
    · cases hrep.symm.trans hb
  · refine iff_of_true (fun h hh => ?_) (fun b hb => absurd (hrep.symm.trans hb) (by simp))
    obtain rfl := Except.ok.inj (hr.symm.trans hh)
    have hstored : lookup MemoryRepo.idOf deps.newId (w.block g (a.program deps)).2.holds =
        some (newHold deps a.tripId a.seatId a.leg a.passengerId a.passengerName a.reference seat fare ttl) := by
      rw [hw.holds, (MemoryRepo.addHold_ok hadd).1]
      exact MemoryRepo.lookup_put_hold
        (newHold deps a.tripId a.seatId a.leg a.passengerId a.passengerName a.reference seat fare ttl) _
    exact ⟨⟨rfl, rfl, rfl, rfl, rfl⟩, _, hstored, rfl, rfl, rfl, rfl⟩

/-- A passenger's hold under a reference of their own choice. -/
def firstHold : Request := ⟨.hold "slow" "A1" firstHop "nic1" "Nimal" (some "R1"), sampleDeps 0 "1", acceptAll⟩

/-- Another passenger asks for another seat under the same reference. -/
def guessedHold : HoldArgs := ⟨"slow", "A2", secondHop, "nic2", "Kamala", some "R1"⟩

/-- The booking of `firstHold`. -/
def firstBooking (status : BookingStatus) : Hold :=
  { bookingId := "b1"
    reference := "R1"
    tripId := "slow"
    seatId := "A1"
    leg := firstHop
    passengerId := "nic1"
    passengerName := "Nimal"
    travelClass := .first
    status := status
    fareCents := 10000
    heldUntil := 900
    createdAt := 0 }

/-- The guessed reference returns the first passenger's booking, identity number included. -/
theorem replay_of_a_stranger :
    (((World.start sampleTrips).after [firstHold]).block acceptAll (guessedHold.program (sampleDeps 10 "2"))).1 =
      .ok (firstBooking .held) ∧
    ¬ AnswersRequest ((World.start sampleTrips).after [firstHold]) (sampleDeps 10 "2") acceptAll guessedHold := by
  have hreturned : (((World.start sampleTrips).after [firstHold]).block acceptAll
      (guessedHold.program (sampleDeps 10 "2"))).1 = .ok (firstBooking .held) := by decide +kernel
  refine ⟨hreturned, fun hans => ?_⟩
  exact absurd (hans _ hreturned).1.person (by decide)

/-- A retry after a cancel returns the cancelled booking as a success. -/
example : (((World.start sampleTrips).after [firstHold, ⟨.cancel "b1", sampleDeps 10 "2", acceptAll⟩]).block acceptAll
    (HoldArgs.program ⟨"slow", "A1", firstHop, "nic1", "Nimal", some "R1"⟩ (sampleDeps 20 "3"))).1 =
      .ok (firstBooking .cancelled) := by
  decide +kernel

end SlrBooking
