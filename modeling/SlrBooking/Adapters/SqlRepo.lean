import SlrBooking.Ports
import SlrBooking.Theory.ReadCommitted
import SlrBooking.Theory.Pool

/-!
# `Adapters.SqlRepo` — the Postgres repositories as statements over one table

The booking table with its partial exclusion constraint is a `Theory.Db` of `BookingRow`s. Every repository
method is a program of statements, in the order the source issues them, so that another transaction can
run between any two. The session's identity map needs no counterpart: the one row read twice in a
transaction is read again under columns that no statement changes, its status apart, and the status read is
the one the same transaction goes on to overwrite.

## Contents
- `BookingRow`, `toHold`, `toRow`: the columns, with the empty seat stored as NULL; the round trip.
- `bookingTable`: the key and the constraint `booking_no_overlap`.
- `Filter`, `Stmt`, `SqlRepo.method`: statements, and the port operations as programs over them.
- `SqlRepo.Issues` / `method_issues`: the statements of each port operation.
- `Scan`: the order a SELECT without ORDER BY returns its rows in; any permutation.
- `Server`: the table with what lies outside it, and how a transaction's statement acts on it.
-/

namespace SlrBooking

open Theory Rows

/-! ## Rows -/

/-- A bounded, non-empty `int4range`. -/
structure Range where
  lower : Int
  upper : Int
  lower_nonneg : ¬ lower < 0
  nonempty     : ¬ upper ≤ lower

instance : DecidableEq Range := fun a b =>
  decidable_of_iff (a.lower = b.lower ∧ a.upper = b.upper) (by cases a; cases b; simp)

/-- `&&`. -/
def Range.overlaps (a b : Range) : Bool := a.lower < b.upper && b.lower < a.upper

def legToRange (leg : Leg) : Range :=
  ⟨leg.originSeq, leg.destSeq, Int.not_lt.mpr leg.origin_nonneg, Int.not_le.mpr leg.moves_forward⟩

def rangeToLeg (r : Range) : Leg := ⟨r.lower, r.upper, Int.not_lt.mp r.lower_nonneg, Int.not_le.mp r.nonempty⟩

/-- One row of the table `booking`. -/
structure BookingRow where
  bookingId     : String
  reference     : String
  tripId        : String
  seatId        : Option String
  leg           : Range
  passengerId   : String
  passengerName : String
  travelClass   : TravelClass
  status        : BookingStatus
  fareCents     : Int
  heldUntil     : Int
  createdAt     : Int
deriving DecidableEq

/-- `_to_hold`: NULL reads as the empty text. -/
def toHold (row : BookingRow) : Hold :=
  { bookingId := row.bookingId
    reference := row.reference
    tripId := row.tripId
    seatId := row.seatId.getD ""
    leg := rangeToLeg row.leg
    passengerId := row.passengerId
    passengerName := row.passengerName
    travelClass := row.travelClass
    status := row.status
    fareCents := row.fareCents
    heldUntil := row.heldUntil
    createdAt := row.createdAt }

/-- `_to_row`: the empty text is stored as NULL. -/
def toRow (hold : Hold) : BookingRow :=
  { bookingId := hold.bookingId
    reference := hold.reference
    tripId := hold.tripId
    seatId := if hold.seatId = "" then none else some hold.seatId
    leg := legToRange hold.leg
    passengerId := hold.passengerId
    passengerName := hold.passengerName
    travelClass := hold.travelClass
    status := hold.status
    fareCents := hold.fareCents
    heldUntil := hold.heldUntil
    createdAt := hold.createdAt }

@[simp] theorem rangeToLeg_legToRange (leg : Leg) : rangeToLeg (legToRange leg) = leg := rfl

/-- **The row round trip.** -/
@[simp] theorem toHold_toRow (hold : Hold) : toHold (toRow hold) = hold := by
  have hseat : (toRow hold).seatId.getD "" = hold.seatId := by
    unfold toRow
    dsimp only
    split
    · rename_i h
      exact h.symm
    · rfl
  unfold toHold
  rw [hseat]
  rfl

theorem toHold_status (row : BookingRow) (s : BookingStatus) :
    toHold { row with status := s } = { toHold row with status := s } := rfl

/-! ## The table -/

/-- Two rows the constraint excludes: both active, one trip, one seat that is not NULL, overlapping legs. -/
def rowsClash (a b : BookingRow) : Bool :=
  a.status.isActive && b.status.isActive && a.tripId = b.tripId && a.seatId.isSome && a.seatId = b.seatId &&
    a.leg.overlaps b.leg

theorem rowsClash_iff {a b : BookingRow} : rowsClash a b = true ↔
    a.status.isActive = true ∧ b.status.isActive = true ∧ a.tripId = b.tripId ∧ a.seatId ≠ none ∧
      a.seatId = b.seatId ∧ (rangeToLeg a.leg).overlaps (rangeToLeg b.leg) = true := by
  simp [rowsClash, Range.overlaps, Leg.overlaps_iff, rangeToLeg, Option.isSome_iff_ne_none, and_assoc]

theorem rowsClash_symm (a b : BookingRow) : rowsClash a b = rowsClash b a := by
  have hiff : rowsClash a b = true ↔ rowsClash b a = true := by
    rw [rowsClash_iff, rowsClash_iff, Leg.overlaps_comm]
    constructor
    · rintro ⟨h₁, h₂, h₃, h₄, h₅, h₆⟩
      exact ⟨h₂, h₁, h₃.symm, h₅ ▸ h₄, h₅.symm, h₆⟩
    · rintro ⟨h₁, h₂, h₃, h₄, h₅, h₆⟩
      exact ⟨h₂, h₁, h₃.symm, h₅ ▸ h₄, h₅.symm, h₆⟩
  exact Bool.eq_iff_iff.mpr hiff

/-- The table `booking` with its primary key and `booking_no_overlap`. -/
def bookingTable : Schema String BookingRow := ⟨BookingRow.bookingId, rowsClash, rowsClash_symm⟩

/-! ## Statements -/

/-- The WHERE clauses the repository uses. -/
inductive Filter where
  | byReference (reference : String)
  | activeForSeat (tripId seatId : String)
  | activeForPassenger (tripId passengerId : String)
  | activeOnTrip (tripId : String)
  | inStatus (tripId : String) (status : BookingStatus)
  | overdue (now : Int)
deriving DecidableEq

def Filter.holds : Filter → BookingRow → Bool
  | .byReference reference, row => row.reference = reference
  | .activeForSeat tripId seatId, row =>
    row.tripId = tripId && row.seatId = some seatId && row.status.isActive
  | .activeForPassenger tripId passengerId, row =>
    row.tripId = tripId && row.passengerId = passengerId && row.status.isActive
  | .activeOnTrip tripId, row => row.tripId = tripId && row.status.isActive
  | .inStatus tripId status, row => row.tripId = tripId && row.status = status
  | .overdue now, row => row.status = .held && row.heldUntil ≤ now

/-- One round trip to the server, or one effect outside it. -/
inductive Stmt where
  | selectById (bookingId : String)
  | select (filter : Filter)
  | insert (row : BookingRow)
  | updateStatus (bookingId : String) (status : BookingStatus)
  | selectTrip (tripId : String)
  | selectTrips (serviceDate : String)
  | commit
  | charge (reference : String) (amount : Money)
  | publish (event : AvailabilityEvent)
  | notify (notice : Notice)
deriving DecidableEq

@[reducible] def Stmt.Res : Stmt → Type
  | .selectById _ => Option BookingRow
  | .select _ => List BookingRow
  | .insert _ | .updateStatus _ _ | .commit | .publish _ | .notify _ => Unit
  | .selectTrip _ => Option Trip
  | .selectTrips _ => List Trip
  | .charge _ _ => PaymentResult

abbrev Stmts : Sig := ⟨Stmt, Stmt.Res⟩

namespace SqlRepo

def selectById (bookingId : String) : Prog Stmts Err (Option BookingRow) :=
  Prog.call (S := Stmts) (.selectById bookingId)

def select (filter : Filter) : Prog Stmts Err (List BookingRow) := Prog.call (S := Stmts) (.select filter)
def insert (row : BookingRow) : Prog Stmts Err Unit := Prog.call (S := Stmts) (.insert row)

def updateStatus (bookingId : String) (status : BookingStatus) : Prog Stmts Err Unit :=
  Prog.call (S := Stmts) (.updateStatus bookingId status)

def selectTrip (tripId : String) : Prog Stmts Err (Option Trip) := Prog.call (S := Stmts) (.selectTrip tripId)

def constraintName : String := "booking_no_overlap"

/-- Insert inside a savepoint: a violated exclusion constraint becomes `OverlapError`. -/
def addHold (hold : Hold) : Prog Stmts Err Unit :=
  tryCatch (insert (toRow hold)) fun
    | .integrityError c =>
      if c = constraintName then
        throw (.domain .overlapError
          s!"seat {hold.seatId} already held over {hold.leg.repr} on trip {hold.tripId}")
      else throw (.integrityError c)
    | e => throw e

def get (bookingId : String) : Prog Stmts Err Hold := do
  match ← selectById bookingId with
  | none => throw (.keyError bookingId)
  | some row => return toHold row

/-- The first row of that reference, in whatever order the server returns them. -/
def byReference (reference : String) : Prog Stmts Err (Option Hold) := do
  let rows ← select (.byReference reference)
  return rows.head?.map toHold

/-- Read the row, then update it whatever its status has become. -/
def setStatus (bookingId : String) (status : BookingStatus) : Prog Stmts Err Hold := do
  match ← selectById bookingId with
  | none => throw (.keyError bookingId)
  | some row => do
    updateStatus bookingId status
    return toHold { row with status := status }

def selectHolds (filter : Filter) : Prog Stmts Err (List Hold) := do
  let rows ← select filter
  return rows.map toHold

/-- Update the selected rows one after another. -/
def expireRows : List BookingRow → Prog Stmts Err (List Hold)
  | [] => return []
  | row :: rest => do
    updateStatus row.bookingId .expired
    let others ← expireRows rest
    return toHold { row with status := .expired } :: others

/-- Select the overdue rows, then update each. -/
def expireDue (now : Int) : Prog Stmts Err (List Hold) := do
  let rows ← select (.overdue now)
  expireRows rows

def getTrip (tripId : String) : Prog Stmts Err Trip := do
  match ← selectTrip tripId with
  | none => throw (.keyError tripId)
  | some trip => return trip

/-- The port operations as statement programs. -/
def method : (o : PortOp) → Prog Stmts Err o.Res
  | .addHold hold => addHold hold
  | .get bookingId => get bookingId
  | .byReference reference => byReference reference
  | .setStatus bookingId status => setStatus bookingId status
  | .activeForSeat tripId seatId => selectHolds (.activeForSeat tripId seatId)
  | .activeForPassenger tripId passengerId => selectHolds (.activeForPassenger tripId passengerId)
  | .activeHolds tripId => selectHolds (.activeOnTrip tripId)
  | .byStatus tripId status => selectHolds (.inStatus tripId status)
  | .expireDue now => expireDue now
  | .getTrip tripId => getTrip tripId
  | .findByDate serviceDate => Prog.call (S := Stmts) (.selectTrips serviceDate)
  | .commit => Prog.call (S := Stmts) .commit
  | .charge reference amount => Prog.call (S := Stmts) (.charge reference amount)
  | .publish event => Prog.call (S := Stmts) (.publish event)
  | .notify notice => Prog.call (S := Stmts) (.notify notice)

/-! ### What a method issues

Said once for all methods: which statements a port operation can come to, whatever the server answers. What a
kind of request may issue is then read off the port operations of its program. -/

/-- The statements of a port operation. -/
def Issues : PortOp → Stmt → Prop
  | .addHold hold, o => o = .insert (toRow hold)
  | .get bookingId, o => o = .selectById bookingId
  | .byReference reference, o => o = .select (.byReference reference)
  | .setStatus bookingId status, o => o = .selectById bookingId ∨ o = .updateStatus bookingId status
  | .activeForSeat tripId seatId, o => o = .select (.activeForSeat tripId seatId)
  | .activeForPassenger tripId passengerId, o => o = .select (.activeForPassenger tripId passengerId)
  | .activeHolds tripId, o => o = .select (.activeOnTrip tripId)
  | .byStatus tripId status, o => o = .select (.inStatus tripId status)
  | .expireDue now, o => o = .select (.overdue now) ∨ ∃ bookingId, o = .updateStatus bookingId .expired
  | .getTrip tripId, o => o = .selectTrip tripId
  | .findByDate serviceDate, o => o = .selectTrips serviceDate
  | .commit, o => o = .commit
  | .charge reference amount, o => o = .charge reference amount
  | .publish event, o => o = .publish event
  | .notify notice, o => o = .notify notice

theorem only_reraise {ok : Stmt → Prop} (hold : Hold) (e : Err) :
    Prog.Only ok (match e with
      | .integrityError c =>
        if c = constraintName then
          throw (.domain .overlapError s!"seat {hold.seatId} already held over {hold.leg.repr} on trip {hold.tripId}")
        else throw (.integrityError c)
      | e => throw e : Prog Stmts Err Unit) := by
  cases e with
  | integrityError c =>
      dsimp only
      split <;> exact Prog.only_raise _
  | _ => exact Prog.only_raise _

theorem expireRows_issues (now : Int) : ∀ rows, (expireRows rows).Only (Issues (.expireDue now))
  | [] => Prog.only_ret _
  | row :: rest => Prog.Only.bind (Prog.only_call (Or.inr ⟨row.bookingId, rfl⟩)) fun _ =>
    (expireRows_issues now rest).bind fun _ => Prog.only_ret _

/-- **A method issues the statements of its operation**, and no others. -/
theorem method_issues (o : PortOp) : (method o).Only (Issues o) := by
  cases o with
  | addHold hold => exact Prog.Only.rescue (Prog.only_call rfl) (only_reraise hold)
  | get bookingId =>
      refine Prog.Only.bind (Prog.only_call rfl) fun found => ?_
      cases found with
      | none => exact Prog.only_raise _
      | some row => exact Prog.only_ret _
  | getTrip tripId =>
      refine Prog.Only.bind (Prog.only_call rfl) fun found => ?_
      cases found with
      | none => exact Prog.only_raise _
      | some trip => exact Prog.only_ret _
  | setStatus bookingId status =>
      refine Prog.Only.bind (Prog.only_call (Or.inl rfl)) fun found => ?_
      cases found with
      | none => exact Prog.only_raise _
      | some row => exact Prog.Only.bind (Prog.only_call (Or.inr rfl)) fun _ => Prog.only_ret _
  | expireDue now => exact Prog.Only.bind (Prog.only_call (Or.inl rfl)) (expireRows_issues now)
  | byReference | activeForSeat | activeForPassenger | activeHolds | byStatus =>
      exact Prog.Only.bind (Prog.only_call rfl) fun _ => Prog.only_ret _
  | findByDate | commit | charge | publish | notify => exact Prog.only_call rfl

end SqlRepo

/-! ## The server -/

/-- The order in which a SELECT returns the rows it finds. -/
structure Scan where
  order : List BookingRow → List BookingRow
  perm  : ∀ rows, (order rows).Perm rows

/-- The order the rows are stored in. -/
def Scan.stored : Scan := ⟨id, fun _ => List.Perm.refl _⟩

/-- An accepted charge and the transaction it was made for. -/
structure Charge where
  payer     : Nat
  reference : String
  amount    : Money
deriving DecidableEq

/-- The booking table, the trips, the gateway's ledger of accepted charges, and for every commit the row
    versions it made durable. -/
structure Server where
  db      : Db BookingRow
  trips   : List Trip
  ledger  : List Charge := []
  journal : List (Nat × List BookingRow) := []
deriving DecidableEq

namespace Server

variable (scan : Scan) (gateway : String → Money → PaymentResult)

/-- The trips of a date, ordered by the `departs_min` column the seeder computed, then by id. -/
def tripsOn (trips : List Trip) (serviceDate : String) : List Trip :=
  inDepartureOrder ((trips.filter fun t => t.serviceDate = serviceDate).filterMap fun t =>
    (departureMin t.stops).toOption.map fun d => (d, t))

/-- What transaction `t` sees. -/
def view (s : Server) (t : Nat) : List BookingRow := s.db.view bookingTable t

/-- Record a written version, if the write went through. -/
def wrote (s : Server) : Written BookingRow → Option (Except Err Unit × Server)
  | .wait => none
  | .refused => some (.error (.integrityError SqlRepo.constraintName), s)
  | .done db => some (.ok (), { s with db := db })

/-- One statement of transaction `t`; `none` is a lock wait. -/
def exec (t : Nat) : (o : Stmt) → Server → Option (Except Err o.Res × Server)
  | .selectById bookingId, s => some (.ok (lookup bookingTable.key bookingId (s.view t)), s)
  | .select filter, s => some (.ok (scan.order ((s.view t).filter filter.holds)), s)
  | .insert row, s =>
    if row.bookingId ∈ (s.view t).map bookingTable.key then some (.error (.integrityError "booking_pkey"), s)
    else s.wrote (s.db.write bookingTable t row)
  | .updateStatus bookingId status, s =>
    match lookup bookingTable.key bookingId (s.view t) with
    | none => some (.ok (), s)
    | some row => s.wrote (s.db.write bookingTable t { row with status := status })
  | .selectTrip tripId, s => some (.ok (lookup Trip.tripId tripId s.trips), s)
  | .selectTrips serviceDate, s => some (.ok (tripsOn s.trips serviceDate), s)
  | .commit, s =>
    some (.ok (), { s with db := s.db.commit bookingTable t, journal := s.journal ++ [(t, s.db.own t)] })
  | .charge reference amount, s =>
    some (.ok (gateway reference amount),
      if (gateway reference amount).ok then { s with ledger := s.ledger ++ [⟨t, reference, amount⟩] } else s)
  | .publish _, s => some (.ok (), s)
  | .notify _, s => some (.ok (), s)

/-- Leaving the block: what was not committed is rolled back. -/
def close (t : Nat) (s : Server) : Server := { s with db := s.db.rollback t }

/-- No booking yet, over the given trips. -/
def start (trips : List Trip) : Server := { db := ⟨[], []⟩, trips := trips }

end Server

end SlrBooking
