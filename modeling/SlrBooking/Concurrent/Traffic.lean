import SlrBooking.Adapters.SqlRepo
import SlrBooking.Runs.Calls

/-!
# `Concurrent.Traffic` — requests interleaved statement by statement on one server

Each request is a transaction of its own: the use-case's program with every port operation replaced by its
statements. A schedule picks which request's next statement runs. The clock and the other answering ports of
a request are read at its start; a request that has run out of statements is closed, which rolls back what it
did not commit.

## Contents
- `Traffic`, `Traffic.machine`, `Traffic.start`.
- `Server.Effect` / `exec_effect`: what one statement can answer and change, said once.
- What no statement does: `Effect.own_others`, `Effect.committed_kept`, `Effect.trips_kept`; `Sound` is kept.
-/

namespace SlrBooking

open Theory Rows

/-- The use-case as statements; its result is nobody's concern here. -/
def Request.statements (r : Request) : Prog Stmts Err Unit :=
  ((r.call.program r.deps).translate SqlRepo.method).bind fun _ => .ret ()

/-- The trips, the requests, and the order the server returns rows in to each of them. -/
structure Traffic where
  trips    : List Trip
  requests : List Request
  scan     : Nat → Scan := fun _ => Scan.stored

namespace Traffic

variable (T : Traffic)

/-- The gateway of request `t`. -/
def gateway (t : Nat) : Gateway := (T.requests[t]?).elim declineAll Request.gateway

def machine : Machine Stmts Err Server where
  exec t o s := Server.exec (T.scan t) (T.gateway t) t o s
  finish := Server.close

abbrev State := Config Stmts Err Server Unit

/-- An empty table, and every request at its first statement. -/
def start : State := ⟨Server.start T.trips, T.requests.map fun r => { prog := r.statements }⟩

end Traffic

/-! ## What a statement can do -/

/-- The operation touches neither the booking table nor the ledger. -/
def Stmt.Aside : Stmt → Prop
  | .selectTrip _ | .selectTrips _ | .publish _ | .notify _ => True
  | _ => False

/-- The reference looked up. -/
def Stmt.lookedUp? : Stmt → Option String
  | .select (.byReference reference) => some reference
  | _ => none

/-- The charge asked for. -/
def Stmt.charged? : Stmt → Option (String × Money)
  | .charge reference amount => some (reference, amount)
  | _ => none

/-- The booking set to CONFIRMED. -/
def Stmt.confirmed? : Stmt → Option String
  | .updateStatus bookingId .confirmed => some bookingId
  | _ => none

/-- The row inserted. -/
def Stmt.inserted? : Stmt → Option BookingRow
  | .insert row => some row
  | _ => none

/-- Statement and answer, and the server afterwards. -/
inductive Server.Effect (scan : Scan) (gateway : Gateway) (t : Nat) (s : Server) :
    Event Stmts Err → Server → Prop where
  | aside {o a} (ho : Stmt.Aside o) : Effect scan gateway t s ⟨o, .ok a⟩ s
  | selectById {id} : Effect scan gateway t s ⟨.selectById id, .ok (lookup BookingRow.bookingId id (s.view t))⟩ s
  | select {f} : Effect scan gateway t s ⟨.select f, .ok (scan.order ((s.view t).filter f.holds))⟩ s
  | duplicate {row} (hkey : row.bookingId ∈ (s.view t).map BookingRow.bookingId) :
      Effect scan gateway t s ⟨.insert row, .error (.integrityError "booking_pkey")⟩ s
  | excluded {row} (hw : s.db.write bookingTable t row = .refused) :
      Effect scan gateway t s ⟨.insert row, .error (.integrityError SqlRepo.constraintName)⟩ s
  | inserted {row db} (hfresh : row.bookingId ∉ (s.view t).map BookingRow.bookingId)
      (hw : s.db.write bookingTable t row = .done db) :
      Effect scan gateway t s ⟨.insert row, .ok ()⟩ { s with db := db }
  | missing {id status} (hnone : lookup BookingRow.bookingId id (s.view t) = none) :
      Effect scan gateway t s ⟨.updateStatus id status, .ok ()⟩ s
  | barred {id status row} (hrow : lookup BookingRow.bookingId id (s.view t) = some row)
      (hw : s.db.write bookingTable t { row with status := status } = .refused) :
      Effect scan gateway t s ⟨.updateStatus id status, .error (.integrityError SqlRepo.constraintName)⟩ s
  | updated {id status row db} (hrow : lookup BookingRow.bookingId id (s.view t) = some row)
      (hw : s.db.write bookingTable t { row with status := status } = .done db) :
      Effect scan gateway t s ⟨.updateStatus id status, .ok ()⟩ { s with db := db }
  | committed : Effect scan gateway t s ⟨.commit, .ok ()⟩
      { s with db := s.db.commit bookingTable t, journal := s.journal ++ [(t, s.db.own t)] }
  | declined {reference amount} (hno : (gateway reference amount).ok = false) :
      Effect scan gateway t s ⟨.charge reference amount, .ok (gateway reference amount)⟩ s
  | charged {reference amount} (hok : (gateway reference amount).ok = true) :
      Effect scan gateway t s ⟨.charge reference amount, .ok (gateway reference amount)⟩
        { s with ledger := s.ledger ++ [⟨t, reference, amount⟩] }

/-- **What one statement can do.** -/
theorem Server.exec_effect {scan : Scan} {gateway : Gateway} {t : Nat} {s s' : Server} {o : Stmt} {r : Except Err o.Res}
    (h : Server.exec scan gateway t o s = some (r, s')) : Effect scan gateway t s ⟨o, r⟩ s' := by
  cases o with
  | selectById _ =>
      obtain ⟨rfl, rfl⟩ := Prod.mk.inj (Option.some.inj h)
      exact .selectById
  | select _ =>
      obtain ⟨rfl, rfl⟩ := Prod.mk.inj (Option.some.inj h)
      exact .select
  | insert row =>
      change (if row.bookingId ∈ (s.view t).map BookingRow.bookingId then _ else _) = _ at h
      by_cases hkey : row.bookingId ∈ (s.view t).map BookingRow.bookingId
      · rw [if_pos hkey] at h
        obtain ⟨rfl, rfl⟩ := Prod.mk.inj (Option.some.inj h)
        exact .duplicate hkey
      · rw [if_neg hkey] at h
        cases hw : s.db.write bookingTable t row with
        | wait =>
            -- a statement that waits does nothing
            rw [hw] at h
            cases h
        | refused =>
            rw [hw] at h
            obtain ⟨rfl, rfl⟩ := Prod.mk.inj (Option.some.inj h)
            exact .excluded hw
        | done db =>
            rw [hw] at h
            obtain ⟨rfl, rfl⟩ := Prod.mk.inj (Option.some.inj h)
            exact .inserted hkey hw
  | updateStatus id status =>
      dsimp only [Server.exec] at h
      cases hrow : lookup bookingTable.key id (s.view t) with
      | none =>
        rw [hrow] at h
        obtain ⟨rfl, rfl⟩ := Prod.mk.inj (Option.some.inj h)
        exact .missing hrow
      | some row =>
        rw [hrow] at h
        dsimp only at h
        cases hw : s.db.write bookingTable t { row with status := status } with
        | wait =>
            rw [hw] at h
            cases h
        | refused =>
            rw [hw] at h
            obtain ⟨rfl, rfl⟩ := Prod.mk.inj (Option.some.inj h)
            exact .barred hrow hw
        | done db =>
            rw [hw] at h
            obtain ⟨rfl, rfl⟩ := Prod.mk.inj (Option.some.inj h)
            exact .updated hrow hw
  | commit =>
      obtain ⟨rfl, rfl⟩ := Prod.mk.inj (Option.some.inj h)
      exact .committed
  | charge reference amount =>
      obtain ⟨rfl, hs⟩ := Prod.mk.inj (Option.some.inj h)
      by_cases hok : (gateway reference amount).ok = true
      · rw [if_pos hok] at hs
        rw [← hs]
        exact .charged hok
      · rw [if_neg hok] at hs
        rw [← hs]
        exact .declined (by simpa using hok)
  | selectTrip _ | selectTrips _ | publish _ | notify _ =>
      obtain ⟨rfl, rfl⟩ := Prod.mk.inj (Option.some.inj h)
      exact .aside trivial

/-- Statements keep the table sound. -/
theorem Server.Effect.sound {scan : Scan} {gateway : Gateway} {t : Nat} {s s' : Server} {e : Event Stmts Err}
    (h : Effect scan gateway t s e s') (hs : Db.Sound bookingTable s.db) : Db.Sound bookingTable s'.db := by
  cases h with
  | inserted _ hw => exact hs.write hw
  | updated _ hw => exact hs.write hw
  | committed => exact hs.commit t
  | _ => exact hs

/-- Nobody's versions in doubt are touched by another's statement. -/
theorem Server.Effect.own_others {scan : Scan} {gateway : Gateway} {t u : Nat} {s s' : Server} {e : Event Stmts Err}
    (h : Effect scan gateway t s e s') (hu : u ≠ t) : s'.db.own u = s.db.own u := by
  cases h with
  | inserted _ hw | updated _ hw => exact Db.own_write_eq hw hu
  | committed => exact Db.own_drop_eq hu
  | _ => rfl

/-- Only a commit changes the committed rows. -/
theorem Server.Effect.committed_kept {scan : Scan} {gateway : Gateway} {t : Nat} {s s' : Server} {e : Event Stmts Err}
    (h : Effect scan gateway t s e s') (ho : e.op ≠ .commit) : s'.db.committed = s.db.committed := by
  cases h with
  | inserted _ hw | updated _ hw => exact Db.committed_write hw
  | committed => exact absurd rfl ho
  | _ => rfl

theorem Server.Effect.trips_kept {scan : Scan} {gateway : Gateway} {t : Nat} {s s' : Server} {e : Event Stmts Err}
    (h : Effect scan gateway t s e s') : s'.trips = s.trips := by
  cases h <;> rfl

end SlrBooking
