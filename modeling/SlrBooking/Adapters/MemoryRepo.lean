import SlrBooking.Ports
import SlrBooking.Theory.Rows

/-!
# `Adapters.MemoryRepo` — the in-memory repositories and unit of work

## Contents
- The repository's methods as functions of the stored holds, in insertion order.
- `MemoryUow`: holds, trips and the snapshot taken on enter; `commit`, `rollback`.
- `World`: the unit of work with everything outside it a call can touch (the gateway's accepted charges, the
  published events, the notices). `World.exec` answers every port operation.
- What each operation does to the stored holds: keys stay distinct, bookings never disappear.
-/

namespace SlrBooking

open Theory Rows

namespace MemoryRepo

/-- The key of the store's dictionary. -/
abbrev idOf : Hold → String := Hold.bookingId

def activeForSeat (holds : List Hold) (tripId seatId : String) : List Hold :=
  holds.filter fun h => h.tripId = tripId && h.seatId = seatId && h.status.isActive

def activeForPassenger (holds : List Hold) (tripId passengerId : String) : List Hold :=
  holds.filter fun h => h.tripId = tripId && h.passengerId = passengerId && h.status.isActive

def activeHolds (holds : List Hold) (tripId : String) : List Hold :=
  holds.filter fun h => h.tripId = tripId && h.status.isActive

def byStatus (holds : List Hold) (tripId : String) (status : BookingStatus) : List Hold :=
  holds.filter fun h => h.tripId = tripId && h.status = status

def byReference (holds : List Hold) (reference : String) : Option Hold :=
  holds.find? fun h => h.reference = reference

/-- The first other active hold of the seat whose leg overlaps. -/
def overlapping (holds : List Hold) (hold : Hold) : Option Hold :=
  (activeForSeat holds hold.tripId hold.seatId).find? fun existing =>
    existing.bookingId ≠ hold.bookingId && existing.leg.overlaps hold.leg

def addHold (holds : List Hold) (hold : Hold) : Except Err (List Hold) :=
  match overlapping holds hold with
  | some existing =>
    .error (.domain .overlapError
      s!"seat {hold.seatId} already held over {existing.leg.repr} on trip {hold.tripId}")
  | none => .ok (put idOf hold holds)

def get (holds : List Hold) (bookingId : String) : Except Err Hold :=
  match lookup idOf bookingId holds with
  | some h => .ok h
  | none => .error (.keyError bookingId)

/-- The updated record, and the holds with it in place. -/
def setStatus (holds : List Hold) (bookingId : String) (status : BookingStatus) :
    Except Err (Hold × List Hold) :=
  match lookup idOf bookingId holds with
  | some h => .ok ({ h with status := status }, put idOf { h with status := status } holds)
  | none => .error (.keyError bookingId)

/-- A HELD booking whose time is up. -/
def overdue (now : Int) (h : Hold) : Bool := h.status = .held && h.heldUntil ≤ now

/-- `h` after an `expire_due(now)`. -/
def retire (now : Int) (h : Hold) : Hold := if overdue now h then { h with status := .expired } else h

/-- The retired records, and the holds with them in place. -/
def expireDue (holds : List Hold) (now : Int) : List Hold × List Hold :=
  ((holds.filter (overdue now)).map (retire now), holds.map (retire now))

def getTrip (trips : List Trip) (tripId : String) : Except Err Trip :=
  match lookup Trip.tripId tripId trips with
  | some t => .ok t
  | none => .error (.keyError tripId)

/-- The trips of a date with their departure times. -/
def departures (serviceDate : String) : List Trip → Except Err (List (Int × Trip))
  | [] => .ok []
  | t :: rest => do
    if t.serviceDate = serviceDate then
      let d ← departureMin t.stops
      return (d, t) :: (← departures serviceDate rest)
    else departures serviceDate rest

/-- Every trip of that date, in departure order. -/
def findByDate (trips : List Trip) (serviceDate : String) : Except Err (List Trip) := do
  let ds ← departures serviceDate trips
  return inDepartureOrder ds

end MemoryRepo

/-! ## The unit of work and the world around it -/

structure MemoryUow where
  holds    : List Hold := []
  trips    : List Trip := []
  snapshot : Option (List Hold × List Trip) := none

namespace MemoryUow

/-- `MemoryUnitOfWork(trips=trips)`. -/
def make (trips : List Trip) : MemoryUow := { trips := overlay Trip.tripId [] trips }

def enter (u : MemoryUow) : MemoryUow := { u with snapshot := some (u.holds, u.trips) }

def commit (u : MemoryUow) : MemoryUow := { u with snapshot := none }

def rollback (u : MemoryUow) : MemoryUow :=
  match u.snapshot with
  | some (holds, trips) => { holds := holds, trips := trips, snapshot := none }
  | none => u

/-- Leaving the block: a commit has cleared the snapshot, any other exit restores it. -/
def exit (u : MemoryUow) : MemoryUow := u.rollback

end MemoryUow

/-- Answers a charge. -/
abbrev Gateway := String → Money → PaymentResult

structure World where
  uow       : MemoryUow
  accepted  : List (String × Money) := []
  published : List AvailabilityEvent := []
  notices   : List Notice := []

namespace World

/-- The world as a read of the store sees it. -/
def holds (w : World) : List Hold := w.uow.holds

def trips (w : World) : List Trip := w.uow.trips

def withHolds (w : World) (holds : List Hold) : World := { w with uow := { w.uow with holds := holds } }

@[simp] theorem holds_withHolds (w : World) (hs : List Hold) : (w.withHolds hs).holds = hs := rfl
@[simp] theorem trips_withHolds (w : World) (hs : List Hold) : (w.withHolds hs).trips = w.trips := rfl
@[simp] theorem accepted_withHolds (w : World) (hs : List Hold) : (w.withHolds hs).accepted = w.accepted := rfl

/-- Answer a port operation. -/
def exec (gateway : Gateway) : (o : PortOp) → World → Except Err o.Res × World
  | .addHold hold, w =>
    match MemoryRepo.addHold w.holds hold with
    | .ok holds => (.ok (), w.withHolds holds)
    | .error e => (.error e, w)
  | .get bookingId, w => (MemoryRepo.get w.holds bookingId, w)
  | .byReference reference, w => (.ok (MemoryRepo.byReference w.holds reference), w)
  | .setStatus bookingId status, w =>
    match MemoryRepo.setStatus w.holds bookingId status with
    | .ok (updated, holds) => (.ok updated, w.withHolds holds)
    | .error e => (.error e, w)
  | .activeForSeat tripId seatId, w => (.ok (MemoryRepo.activeForSeat w.holds tripId seatId), w)
  | .activeForPassenger tripId passengerId, w =>
    (.ok (MemoryRepo.activeForPassenger w.holds tripId passengerId), w)
  | .activeHolds tripId, w => (.ok (MemoryRepo.activeHolds w.holds tripId), w)
  | .byStatus tripId status, w => (.ok (MemoryRepo.byStatus w.holds tripId status), w)
  | .expireDue now, w =>
    (.ok (MemoryRepo.expireDue w.holds now).1, w.withHolds (MemoryRepo.expireDue w.holds now).2)
  | .getTrip tripId, w => (MemoryRepo.getTrip w.trips tripId, w)
  | .findByDate serviceDate, w => (MemoryRepo.findByDate w.trips serviceDate, w)
  | .commit, w => (.ok (), { w with uow := w.uow.commit })
  | .charge reference amount, w =>
    (.ok (gateway reference amount),
      if (gateway reference amount).ok then { w with accepted := w.accepted ++ [(reference, amount)] } else w)
  | .publish event, w => (.ok (), { w with published := w.published ++ [event] })
  | .notify notice, w => (.ok (), { w with notices := w.notices ++ [notice] })

end World

/-! ## What the operations do to the stored holds -/

namespace MemoryRepo

theorem retire_bookingId (now : Int) (h : Hold) : (retire now h).bookingId = h.bookingId := by
  unfold retire
  split <;> rfl

/-- The sweep leaves a booking HELD exactly when it was HELD with time left, and then untouched. -/
theorem retire_held {now : Int} {h : Hold} :
    (retire now h).status = .held ↔ h.status = .held ∧ now < h.heldUntil := by
  unfold retire overdue
  split
  · rename_i hdue
    simp only [Bool.and_eq_true, decide_eq_true_eq] at hdue
    simp only [reduceCtorEq, false_iff, not_and, Int.not_lt]
    exact fun _ => hdue.2
  · rename_i hdue
    simp only [Bool.and_eq_true, decide_eq_true_eq, not_and, Int.not_le] at hdue
    exact ⟨fun hs => ⟨hs, hdue hs⟩, fun hs => hs.1⟩

theorem retire_eq {now : Int} {h : Hold} (hlive : h.status = .held → now < h.heldUntil) : retire now h = h := by
  unfold retire overdue
  rw [if_neg]
  simpa using hlive

/-- The sweep moves a booking along the state machine or not at all, and touches nothing but the status. -/
theorem retire_cases (now : Int) (h : Hold) :
    retire now h = h ∨ (h.status = .held ∧ retire now h = { h with status := .expired }) := by
  unfold retire
  split
  · rename_i hdue
    simp only [overdue, Bool.and_eq_true, decide_eq_true_eq] at hdue
    exact Or.inr ⟨hdue.1, rfl⟩
  · exact Or.inl rfl

theorem lookup_expireDue (holds : List Hold) (now : Int) (id : String) :
    lookup idOf id (expireDue holds now).2 = (lookup idOf id holds).map (retire now) :=
  lookup_map (retire_bookingId now) id holds

theorem expireDue_keyed {holds : List Hold} (hk : Keyed idOf holds) (now : Int) :
    Keyed idOf (expireDue holds now).2 := by
  have hids : (expireDue holds now).2.map idOf = holds.map idOf := by
    simp only [expireDue, List.map_map]
    exact List.map_congr_left fun h _ => retire_bookingId now h
  unfold Keyed
  rw [hids]
  exact hk

/-- **What `add_hold` checks.** No other active hold of the seat overlaps the new one. -/
theorem addHold_ok {holds holds' : List Hold} {hold : Hold} (h : addHold holds hold = .ok holds') :
    holds' = put idOf hold holds ∧ ∀ e ∈ holds, e.tripId = hold.tripId → e.seatId = hold.seatId →
      e.status.isActive = true → e.bookingId ≠ hold.bookingId → e.leg.overlaps hold.leg = false := by
  unfold addHold at h
  split at h
  · cases h
  · rename_i hnone
    refine ⟨(Except.ok.inj h).symm, ?_⟩
    intro e he ht hs ha hne
    have hall := List.find?_eq_none.mp hnone e (by simp [activeForSeat, he, ht, hs, ha])
    simpa [hne] using hall

theorem addHold_error {holds : List Hold} {hold : Hold} {e : Err} (h : addHold holds hold = .error e) :
    ∃ existing ∈ activeForSeat holds hold.tripId hold.seatId, existing.bookingId ≠ hold.bookingId ∧
      existing.leg.overlaps hold.leg = true := by
  unfold addHold at h
  split at h
  · rename_i existing hsome
    have hp := List.find?_some hsome
    simp only [Bool.and_eq_true, decide_eq_true_eq] at hp
    exact ⟨existing, List.mem_of_find?_eq_some hsome, hp.1, hp.2⟩
  · cases h

theorem lookup_put_hold (h : Hold) (holds : List Hold) :
    lookup idOf h.bookingId (put idOf h holds) = some h := lookup_put_self h holds

theorem get_ok {holds : List Hold} {id : String} {h : Hold} :
    get holds id = .ok h ↔ lookup idOf id holds = some h := by
  unfold get
  cases lookup idOf id holds <;> simp

theorem setStatus_of_lookup {holds : List Hold} {id : String} {h : Hold} (hl : lookup idOf id holds = some h)
    (s : BookingStatus) :
    setStatus holds id s = .ok ({ h with status := s }, put idOf { h with status := s } holds) := by
  unfold setStatus
  rw [hl]

theorem mem_activeForSeat {holds : List Hold} {t s : String} {h : Hold} :
    h ∈ activeForSeat holds t s ↔ h ∈ holds ∧ h.tripId = t ∧ h.seatId = s ∧ h.status.isActive = true := by
  simp [activeForSeat, and_assoc]

end MemoryRepo

end SlrBooking
