import SlrBooking.Concurrent.RowOrder
import SlrBooking.Concurrent.Traffic
import SlrBooking.Runs.Agreement
import SlrBooking.Runs.Effects

/-!
# `Concurrent.Tandem` — one call on the table and on the dictionary

A transaction that has the server to itself sees what a block over the in-memory store sees: the use-case's program
runs to the same reply on both, leaves the same bookings and has the same charges accepted.

## Contents
- `Server.solo`, `Server.handle`: a statement, a port operation, of a transaction nobody blocks.
- `Tandem trips t P`: both sides inside a block, `P` known of the bookings. `AtRest`: both between blocks.
- One lemma for each kind of operation; `tandem_program`: one for each use-case.
- `served_in_tandem`: a whole call.
-/

namespace SlrBooking

open Theory Rows

/-- Both sides raise the same class of exception; the text of an overlap differs. -/
def SameClass (a b : Err) : Prop := a.class = b.class

/-! ## A transaction alone on the server -/

namespace Server

/-- The server as if everything in doubt were transaction `u`'s. -/
def named (u : Nat) (s : Server) : Server :=
  { s with db := s.db.named u, journal := s.journal.map fun entry => (u, entry.2) }

variable (scan : Scan) (gateway : Gateway) (t : Nat)

/-- A statement of transaction `t`, which nobody blocks. -/
def solo (o : Stmt) (s : Server) : Except Err o.Res × Server :=
  (exec scan gateway t o s).getD (.error (.integrityError "lock wait"), s)

/-- A port operation of transaction `t`, which nobody blocks. -/
def handle (o : PortOp) (s : Server) : Except Err o.Res × Server := (SqlRepo.method o).run (solo scan gateway t) s

variable {t} {s : Server}

/-- **Alone, no statement waits**, and the transaction stays alone. -/
theorem exec_solo (halone : s.db.foreign t = []) (o : Stmt) :
    exec scan gateway t o s = some (solo scan gateway t o s) ∧ (solo scan gateway t o s).2.db.foreign t = [] := by
  have hwrote : ∀ row, ∃ r s', s.wrote (s.db.write bookingTable t row) = some (r, s') ∧ s'.db.foreign t = [] := by
    intro row
    cases hw : s.db.write bookingTable t row with
    | wait => exact absurd hw (Db.write_not_wait halone)
    | refused => exact ⟨_, _, rfl, halone⟩
    | done db => exact ⟨_, _, rfl, Db.foreign_write_nil halone hw⟩
  have hanswered : ∃ r s', exec scan gateway t o s = some (r, s') ∧ s'.db.foreign t = [] := by
    cases o with
    | insert row =>
        simp only [exec]
        split
        · exact ⟨_, _, rfl, halone⟩
        · exact hwrote row
    | updateStatus id status =>
        simp only [exec]
        split
        · exact ⟨_, _, rfl, halone⟩
        · exact hwrote _
    | commit => exact ⟨_, _, rfl, Db.foreign_commit_nil halone⟩
    | charge reference amount =>
        refine ⟨_, _, rfl, ?_⟩
        split <;> exact halone
    | selectById | select | selectTrip | selectTrips | publish | notify => exact ⟨_, _, rfl, halone⟩
  obtain ⟨r, s', he, hs'⟩ := hanswered
  unfold solo
  rw [he]
  exact ⟨rfl, hs'⟩

/-- What a write answers does not depend on the writer's name. -/
theorem wrote_named (halone : s.db.foreign t = []) (row : BookingRow) :
    (s.named 0).wrote ((s.named 0).db.write bookingTable 0 row) =
      (s.wrote (s.db.write bookingTable t row)).map fun x => (x.1, x.2.named 0) := by
  show (s.named 0).wrote ((s.db.named 0).write bookingTable 0 row) = _
  rw [Db.write_named halone]
  cases s.db.write bookingTable t row <;> rfl

/-- **A lone transaction may have any name.** -/
theorem exec_named (halone : s.db.foreign t = []) {o : Stmt} (ho : o.charged? = none) :
    exec scan declineAll 0 o (s.named 0) = (exec scan gateway t o s).map fun x => (x.1, x.2.named 0) := by
  have hview : (s.named 0).view 0 = s.view t := Db.view_named halone
  cases o with
  | selectById id => simp only [exec, hview, Option.map_some]
  | select f => simp only [exec, hview, Option.map_some]
  | insert row =>
      simp only [exec, hview]
      split
      · rfl
      · exact wrote_named halone row
  | updateStatus id status =>
      simp only [exec, hview]
      split
      · rfl
      · exact wrote_named halone _
  | commit =>
      have hown : (s.named 0).db.own 0 = s.db.own t := by
        show (s.db.named 0).own 0 = _
        rw [Db.own_alone halone, Db.own_alone Db.foreign_named]
        simp [Db.named]
      simp only [exec, hown, Option.map_some]
      simp only [named, List.map_append, List.map_cons, List.map_nil, Db.commit_named halone]
  | charge reference amount => cases ho
  | selectTrip | selectTrips | publish | notify => rfl

/-- **The same for a program.** -/
theorem run_named {α : Type} (halone : s.db.foreign t = []) {p : Prog Stmts Err α}
    (hp : p.Only fun o : Stmt => o.charged? = none) :
    (p.run (solo scan gateway t) s).1 = (p.run (alone scan) (s.named 0)).1 ∧
      (p.run (alone scan) (s.named 0)).2 = (p.run (solo scan gateway t) s).2.named 0 ∧
      (p.run (solo scan gateway t) s).2.db.foreign t = [] := by
  have hrelates : Prog.Relates (solo scan gateway t) (alone scan) (fun s s₀ => s₀ = s.named 0 ∧ s.db.foreign t = [])
      (fun s s₀ => s₀ = s.named 0 ∧ s.db.foreign t = []) Eq Eq p p :=
    Prog.relates_of_under (U := Prog.View.plain) (fun _ _ _ _ => trivial) (fun o s s₀ ho h => by
      obtain ⟨rfl, halone⟩ := h
      obtain ⟨hexec, hnext⟩ := exec_solo scan gateway halone o
      have hsame : alone scan o (s.named 0) = ((solo scan gateway t o s).1, (solo scan gateway t o s).2.named 0) := by
        unfold alone
        rw [exec_named scan gateway halone ho, hexec]
        rfl
      rw [hsame]
      exact ⟨alike_eq.mpr rfl, rfl, hnext⟩) hp.under
  obtain ⟨hans, hstate, hnext⟩ := hrelates s (s.named 0) ⟨rfl, halone⟩
  exact ⟨alike_eq.mp hans, hstate, hnext⟩

end Server

/-! ## Both sides -/

/-- Inside a block: the server's transaction `t` is alone and sees the dictionary; `P` is known of the bookings. -/
structure Tandem (trips : List Trip) (t : Nat) (P : List Hold → Prop) (w : World) (s : Server) : Prop where
  block  : InBlock w (s.named 0)
  alone  : s.db.foreign t = []
  stored : w.trips = trips
  served : s.trips = trips
  paid   : w.accepted = s.ledger.map fun c => (c.reference, c.amount)
  known  : P w.holds

/-- Between blocks: the same bookings, trips and accepted charges, and nobody in flight. -/
structure AtRest (trips : List Trip) (w : World) (s : Server) : Prop where
  same   : Between w s
  stored : w.trips = trips
  served : s.trips = trips
  paid   : w.accepted = s.ledger.map fun c => (c.reference, c.amount)

/-- Leaving the block now settles both. -/
def Closes (trips : List Trip) (t : Nat) (w : World) (s : Server) : Prop := AtRest trips w.exit (s.close t)

section Sides

variable {trips : List Trip} {t : Nat} {P Q : List Hold → Prop} {w : World} {s : Server}

theorem Tandem.mono (h : Tandem trips t P w s) (hP : P w.holds → Q w.holds) : Tandem trips t Q w s :=
  { h with known := hP h.known }

/-- A block left without a commit ends where it began. -/
theorem Tandem.closes (h : Tandem trips t P w s) : Closes trips t w s := by
  obtain ⟨base, hsnapshot, hbase⟩ := h.block.base
  have hexit : w.exit.holds = base ∧ w.exit.trips = w.trips := by
    simp only [World.exit, MemoryUow.exit, MemoryUow.rollback, World.holds, World.trips, hsnapshot, and_self]
  have hidle : (s.close t).db.pending = [] :=
    List.filter_eq_nil_iff.mpr fun p hp => by simpa using Db.pending_alone h.alone hp
  have hsound : Db.Sound bookingTable (s.close t).db := by
    have hempty : (s.close t).db = (s.named 0).db.rollback 0 := by
      show (⟨s.db.committed, s.db.pending.filter fun p => p.1 ≠ t⟩ : Db BookingRow) =
        ⟨s.db.committed, (s.named 0).db.pending.filter fun p => p.1 ≠ 0⟩
      rw [show s.db.pending.filter (fun p => p.1 ≠ t) = [] from hidle, pending_drop_alone h.block.alone]
    rw [hempty]
    exact h.block.sound.rollback 0
  refine ⟨⟨?_, hsound, hidle⟩, ?_, h.served, ?_⟩
  · rw [hexit.1]
    exact hbase
  · rw [hexit.2, h.stored]
  · exact h.paid

/-- What both sides commit settles them. -/
theorem Tandem.commit (h : Tandem trips t P w s) (g : Gateway) (scan : Scan) :
    Closes trips t (World.exec g .commit w).2 (Server.handle scan g t .commit s).2 := by
  have hsql : (Server.handle scan g t .commit s).2 =
      { s with db := s.db.commit bookingTable t, journal := s.journal ++ [(t, s.db.own t)] } := by
    unfold Server.handle SqlRepo.method
    rw [Prog.run_call]
    rfl
  have hpending : (s.db.commit bookingTable t).pending = [] :=
    List.filter_eq_nil_iff.mpr fun p hp => by simpa using Db.pending_alone h.alone hp
  have hclosed : ((s.db.commit bookingTable t).rollback t) = s.db.commit bookingTable t := by
    show (⟨_, (s.db.commit bookingTable t).pending.filter fun p => p.1 ≠ t⟩ : Db BookingRow) = _
    rw [hpending]
    exact congrArg (Db.mk _) hpending.symm
  have hcommitted : (s.db.commit bookingTable t).committed = (s.named 0).view 0 :=
    (Db.view_named (S := bookingTable) h.alone).symm
  have hsound : Db.Sound bookingTable (s.db.commit bookingTable t) := by
    have hbase := h.block.sound.commit 0
    have hnamed : (s.named 0).db.commit bookingTable 0 = (s.db.commit bookingTable t).named 0 := Db.commit_named h.alone
    rw [hnamed] at hbase
    have hsame : (s.db.commit bookingTable t).named 0 = s.db.commit bookingTable t := by
      rw [Db.named, hpending, List.map_nil]
      exact congrArg (Db.mk _) hpending.symm
    rwa [hsame] at hbase
  rw [hsql]
  unfold Closes Server.close
  rw [show ({ s with db := s.db.commit bookingTable t, journal := s.journal ++ [(t, s.db.own t)] } : Server).db =
    s.db.commit bookingTable t from rfl, hclosed]
  refine ⟨⟨?_, hsound, hpending⟩, h.stored, h.served, h.paid⟩
  show Mirror w.holds (s.db.commit bookingTable t).committed
  rw [hcommitted]
  exact h.block.sees

/-- Entering a block. -/
theorem AtRest.enter (h : AtRest trips w s) (t : Nat) (hP : P w.holds) : Tandem trips t P w.enter s := by
  have hown : s.db.named 0 = s.db := by
    rw [Db.named, h.same.idle, List.map_nil]
    exact congrArg (Db.mk _) h.same.idle.symm
  have hbetween : Between w (s.named 0) := by
    refine ⟨h.same.same, ?_, ?_⟩
    · show Db.Sound bookingTable (s.db.named 0)
      rw [hown]
      exact h.same.sound
    · show (s.db.named 0).pending = []
      rw [hown]
      exact h.same.idle
  refine ⟨hbetween.enter, ?_, h.stored, h.served, h.paid, hP⟩
  unfold Db.foreign
  rw [h.same.idle]
  rfl

end Sides

/-! ## One operation on both sides -/

/-- A statement of the booking table: neither a commit nor a charge. -/
def Stmt.Inner (o : Stmt) : Prop := o.charged? = none ∧ o ≠ .commit

/-- Only a charge is booked in the ledger. -/
theorem Server.Effect.ledger_kept {scan : Scan} {g : Gateway} {t : Nat} {s s' : Server} {e : Event Stmts Err}
    (h : Effect scan g t s e s') (ho : e.op.charged? = none) : s'.ledger = s.ledger := by
  cases h with
  | charged => cases ho
  | _ => rfl

theorem inner_method (o : RepoOp) : (SqlRepo.method o.port).Only Stmt.Inner := by
  refine (SqlRepo.method_issues o.port).mono fun q hq => ?_
  cases o with
  | setStatus =>
      rcases hq with rfl | rfl
      · exact ⟨rfl, nofun⟩
      · exact ⟨rfl, nofun⟩
  | expireDue =>
      rcases hq with rfl | ⟨_, rfl⟩
      · exact ⟨rfl, nofun⟩
      · exact ⟨rfl, nofun⟩
  | _ =>
      rw [show q = _ from hq]
      exact ⟨rfl, nofun⟩

/-- The same observation of an operation, with the answers in hand. -/
theorem alike_of_agrees {o : RepoOp} {x y : Except Err o.port.Res} (h : Agrees (observe o x) (observe o y)) :
    Alike (Unordered o.port) SameClass x y := by
  cases o <;> cases x <;> cases y <;> simp_all [Agrees, observe, observed, Alike, Unordered, SameClass]

section Operations

variable {trips : List Trip} {t : Nat} {P Q : List Hold → Prop} {w : World} {s : Server}

/-- **One repository operation.** Answered alike, and both stay inside the block. -/
theorem Tandem.repo (scan : Scan) (g : Gateway) (h : Tandem trips t P w s) {o : RepoOp} (ha : Allowed w.holds o)
    (hP : Q (World.exec g o.port w).2.holds) :
    Alike (Unordered o.port) SameClass (World.exec g o.port w).1 (Server.handle scan g t o.port s).1 ∧
      Tandem trips t Q (World.exec g o.port w).2 (Server.handle scan g t o.port s).2 := by
  obtain ⟨hagrees, hblock⟩ := h.block.step scan ha
  obtain ⟨hans, hnamed, halone⟩ := Server.run_named scan g h.alone
    ((inner_method o).mono fun _ ho => ho.1)
  have hmemory : World.exec declineAll o.port w = World.exec g o.port w := by cases o <;> rfl
  have houtside : (World.exec g o.port w).2.trips = w.trips ∧ (World.exec g o.port w).2.accepted = w.accepted := by
    cases o with
    | addHold hold =>
        simp only [World.exec]
        split <;> exact ⟨rfl, rfl⟩
    | setStatus id status =>
        simp only [World.exec]
        split <;> exact ⟨rfl, rfl⟩
    | _ => exact ⟨rfl, rfl⟩
  have hserver := (inner_method o).run_invariant (h := Server.solo scan g t)
    (I := fun v => v.db.foreign t = [] ∧ v.trips = s.trips ∧ v.ledger = s.ledger) (fun o v ho hv => by
      obtain ⟨hexec, hnext⟩ := Server.exec_solo scan g hv.1 o
      have heffect := Server.exec_effect hexec
      exact ⟨hnext, heffect.trips_kept.trans hv.2.1, (heffect.ledger_kept ho.1).trans hv.2.2⟩) ⟨h.alone, rfl, rfl⟩
  unfold memoryOp sqlOp at hagrees hblock
  rw [hmemory] at hagrees hblock
  rw [← hans] at hagrees
  rw [hnamed] at hblock
  exact ⟨alike_of_agrees hagrees, hblock, halone, houtside.1.trans h.stored, hserver.2.1.trans h.served, by
    rw [houtside.2, h.paid, Server.handle, hserver.2.2], hP⟩

end Operations

/-! ## The trips -/

/-- Trips as a seeded table has them: one for each id, all with a departure, every seat with an id. -/
structure Timetabled (trips : List Trip) : Prop where
  keyed   : Keyed Trip.tripId trips
  departs : ∀ t ∈ trips, ∃ d, departureMin t.stops = .ok d
  seats   : ∀ t ∈ trips, ∀ s ∈ t.seats, s.seatId ≠ ""

/-- Both list a day's trips in the same order. -/
theorem findByDate_eq {trips : List Trip} (h : ∀ t ∈ trips, ∃ d, departureMin t.stops = .ok d) (date : String) :
    MemoryRepo.findByDate trips date = .ok (Server.tripsOn trips date) := by
  have hdepartures : MemoryRepo.departures date trips =
      .ok ((trips.filter fun t => t.serviceDate = date).filterMap fun t =>
        (departureMin t.stops).toOption.map fun d => (d, t)) := by
    induction trips with
    | nil => rfl
    | cons t rest ih =>
        have hrest := ih fun x hx => h x (List.mem_cons_of_mem t hx)
        obtain ⟨d, hd⟩ := h t List.mem_cons_self
        unfold MemoryRepo.departures
        by_cases hdate : t.serviceDate = date
        · simp [hdate, hd, hrest, bind, Except.bind, pure, Except.pure, Except.toOption]
        · simp [hdate, hrest]
  unfold MemoryRepo.findByDate
  rw [hdepartures]
  rfl

/-! ## Rules for programs -/

/-- The program runs alike on both sides, from states related by `R` to states related by `R₁`. -/
def Matches {α : Type} (g : Gateway) (scan : Scan) (t : Nat) (R R₁ : World → Server → Prop) (p : Prog Ports Err α) :
    Prop := Prog.Relates (World.exec g) (Server.handle scan g t) R R₁ Eq SameClass p p

section Rules

variable {α β : Type} {trips : List Trip} {t : Nat} {P Q : List Hold → Prop} {scan : Scan} {g : Gateway}
variable {R R₁ R₂ : World → Server → Prop}

theorem Matches.bind {p : Prog Ports Err α} {f : α → Prog Ports Err β} (hp : Matches g scan t R R₁ p)
    (hf : ∀ a, Matches g scan t R₁ R₂ (f a)) (herr : ∀ w s, R₁ w s → R₂ w s) : Matches g scan t R R₂ (p.bind f) :=
  Prog.Relates.bind hp (fun a _ he => he ▸ hf a) herr

/-- What is pure ends the block as it stands. -/
theorem matches_ofExcept (x : Except Err α) (hR : ∀ w s, R w s → R₁ w s) :
    Matches g scan t R R₁ (Prog.ofExcept x) := by
  refine Prog.relates_ofExcept hR ?_
  cases x <;> rfl

theorem alike_ok {γ δ ε ε' : Type} {V : γ → δ → Prop} {E E' : ε → ε' → Prop} {a : γ} {y : Except ε' δ}
    (h : Alike V E (.ok a) y) : Alike V E' (.ok a) y := by
  cases y with
  | ok _ => exact h
  | error _ => exact h.elim

/-- **A read.** -/
theorem Tandem.read (scan : Scan) (g : Gateway) (hT : Timetabled trips) {w : World} {s : Server}
    (h : Tandem trips t P w s) {o : PortOp} (ho : Reading o) :
    Alike (Unordered o) Eq (World.exec g o w).1 (Server.handle scan g t o s).1 ∧
      Tandem trips t P (World.exec g o w).2 (Server.handle scan g t o s).2 := by
  have hrepo : ∀ {o : RepoOp}, Allowed w.holds o → (World.exec g o.port w).2 = w →
      Alike (Unordered o.port) SameClass (World.exec g o.port w).1 (Server.handle scan g t o.port s).1 ∧
        Tandem trips t P (World.exec g o.port w).2 (Server.handle scan g t o.port s).2 := fun ha hw =>
    h.repo scan g ha (by rw [hw]; exact h.known)
  cases o with
  | byReference ref => exact (hrepo (o := .byReference ref) trivial rfl).imp_left alike_ok
  | activeForSeat tripId seatId => exact (hrepo (o := .activeForSeat tripId seatId) ho rfl).imp_left alike_ok
  | activeForPassenger tripId id => exact (hrepo (o := .activeForPassenger tripId id) trivial rfl).imp_left alike_ok
  | activeHolds tripId => exact (hrepo (o := .activeHolds tripId) trivial rfl).imp_left alike_ok
  | byStatus tripId status => exact (hrepo (o := .byStatus tripId status) trivial rfl).imp_left alike_ok
  | getTrip id =>
      have hsql : Server.handle scan g t (.getTrip id) s = (MemoryRepo.getTrip trips id, s) := by
        have hselect : (SqlRepo.selectTrip id).run (Server.solo scan g t) s =
            (.ok (lookup Trip.tripId id trips), s) := by
          rw [← h.served]
          exact Prog.run_call _ _ _
        show (SqlRepo.getTrip id).run (Server.solo scan g t) s = _
        simp only [SqlRepo.getTrip, Prog.bind_eq, Prog.run_bind, hselect, MemoryRepo.getTrip]
        cases lookup Trip.tripId id trips <;> rfl
      rw [hsql]
      refine ⟨?_, h⟩
      show Alike Eq Eq (MemoryRepo.getTrip w.trips id) _
      rw [h.stored]
      exact alike_eq.mpr rfl
  | findByDate date =>
      have hsql : Server.handle scan g t (.findByDate date) s = (.ok (Server.tripsOn trips date), s) := by
        unfold Server.handle SqlRepo.method
        rw [Prog.run_call]
        show (Except.ok (Server.tripsOn s.trips date), s) = _
        rw [h.served]
      rw [hsql]
      refine ⟨?_, h⟩
      show Alike Eq Eq (MemoryRepo.findByDate w.trips date) _
      rw [h.stored, findByDate_eq hT.departs]
      exact alike_eq.mpr rfl
  | _ => exact ho.elim

/-- **A stretch that only reads.** -/
theorem matches_reading (hT : Timetabled trips) {p : Prog Ports Err α} (hp : p.Under (rowView trips) Reading) :
    Matches g scan t (Tandem trips t P) (Tandem trips t P) p := by
  refine (Prog.relates_of_under (U := rowView trips) (fun o w s h => ?_)
    (fun o w s ho h => h.read scan g hT ho) hp).mono (fun _ _ h => h) (fun _ _ h => h) (fun _ _ h => h)
      fun _ _ he => congrArg Err.class he
  show Listed trips o _
  cases o with
  | getTrip id =>
      show Listed trips (.getTrip id) (MemoryRepo.getTrip w.trips id)
      rw [h.stored]
      cases hfound : MemoryRepo.getTrip trips id with
      | ok trip => exact ⟨lookup_some_mem (getTrip_ok hfound), getTrip_tripId hfound⟩
      | error e => trivial
  | _ => trivial

/-! ### Operations in front of a program -/

/-- One operation on each side. -/
theorem relates_port (o : PortOp) {V : o.Res → o.Res → Prop}
    (h : ∀ w s, R w s → Alike V SameClass (World.exec g o w).1 (Server.handle scan g t o s).1 ∧
      R₁ (World.exec g o w).2 (Server.handle scan g t o s).2) :
    Prog.Relates (World.exec g) (Server.handle scan g t) R R₁ V SameClass (Prog.call (S := Ports) o)
      (Prog.call (S := Ports) o) := Prog.relates_call h

theorem matches_ofExcept_bind {x : Except Err α} {f : α → Prog Ports Err β} (hR : ∀ w s, R w s → R₁ w s)
    (hf : ∀ a, x = .ok a → Matches g scan t R R₁ (f a)) : Matches g scan t R R₁ ((Prog.ofExcept x).bind f) := by
  cases x with
  | ok a => exact hf a rfl
  | error e => exact Prog.relates_raise hR rfl

/-- Going on with a trip: it is one of the trips. -/
theorem matches_getTrip_bind (hT : Timetabled trips) {id : String} {f : Trip → Prog Ports Err α}
    (hf : ∀ trip ∈ trips, trip.tripId = id → Matches g scan t (Tandem trips t P) (Closes trips t) (f trip)) :
    Matches g scan t (Tandem trips t P) (Closes trips t) ((Trips.get id).bind f) := by
  refine Prog.Relates.bind (V := fun a b => a = b ∧ a ∈ trips ∧ a.tripId = id) (Q := Tandem trips t P) ?_
    (fun a b hab => hab.1 ▸ hf a hab.2.1 hab.2.2) fun _ _ h => h.closes
  refine relates_port (.getTrip id) fun w s h => ?_
  obtain ⟨hans, hnext⟩ := h.read scan g hT (o := .getTrip id) trivial
  refine ⟨?_, hnext⟩
  change Alike Eq Eq (MemoryRepo.getTrip w.trips id) _ at hans
  show Alike _ SameClass (MemoryRepo.getTrip w.trips id) _
  rw [← alike_eq.mp hans, h.stored]
  cases hfound : MemoryRepo.getTrip trips id with
  | ok trip => exact ⟨rfl, lookup_some_mem (getTrip_ok hfound), getTrip_tripId hfound⟩
  | error e => rfl

/-- **The sweep.** Nothing after it depends on what it retired. -/
theorem matches_sweep {now : Int} {q : Prog Ports Err α} (hP : ∀ hs, P hs → Q (MemoryRepo.expireDue hs now).2)
    (hq : Matches g scan t (Tandem trips t Q) (Closes trips t) q) :
    Matches g scan t (Tandem trips t P) (Closes trips t) ((Bookings.expireDue now).bind fun _ => q) := by
  refine Prog.Relates.bind (V := Unordered (.expireDue now)) (Q := Tandem trips t Q)
    (relates_port (.expireDue now) fun w s h => ?_) (fun _ _ _ => hq) fun _ _ h => h.closes
  exact h.repo scan g (o := .expireDue now) trivial (hP _ h.known)

theorem matches_addHold {hold : Hold} (hP : ∀ hs, P hs → Allowed hs (.addHold hold)) :
    Matches g scan t (Tandem trips t P) (Tandem trips t fun _ => True) (Bookings.addHold hold) :=
  relates_port (.addHold hold) fun _ _ h => h.repo scan g (o := .addHold hold) (hP _ h.known) trivial

/-- A status may be set along an edge from the one that is stored. -/
theorem matches_setStatus {id : String} {status : BookingStatus} {hold : Hold}
    (hP : ∀ hs, P hs → lookup MemoryRepo.idOf id hs = some hold) (hedge : BookingSm.Edge hold.status status) :
    Matches g scan t (Tandem trips t P) (Tandem trips t fun _ => True) (Bookings.setStatus id status) := by
  refine relates_port (.setStatus id status) fun w s h =>
    h.repo scan g (o := .setStatus id status) (fun x hx hid => ?_) trivial
  have hfound := hP _ h.known
  have hsame : x = hold := eq_of_key_eq h.block.sees.keyedHolds hx (lookup_some_mem hfound)
    (hid.trans (lookup_some_key hfound).symm)
  rwa [hsame]

theorem matches_publish (event : AvailabilityEvent) :
    Matches g scan t (Tandem trips t P) (Tandem trips t P) (publish event) :=
  relates_port (.publish event) fun _ _ h => by
    rw [Server.handle, SqlRepo.method, Prog.run_call]
    exact ⟨rfl, ⟨h.block.sees, h.block.base, h.block.sound, h.block.alone⟩, h.alone, h.stored, h.served, h.paid,
      h.known⟩

theorem matches_notify (recipient event : String) (detail : List (String × String)) :
    Matches g scan t (Tandem trips t P) (Tandem trips t P) (notify recipient event detail) :=
  relates_port (.notify ⟨recipient, event, detail⟩) fun _ _ h => by
    rw [Server.handle, SqlRepo.method, Prog.run_call]
    exact ⟨rfl, ⟨h.block.sees, h.block.base, h.block.sound, h.block.alone⟩, h.alone, h.stored, h.served, h.paid,
      h.known⟩

/-- **A charge** is booked on both sides, or on neither. -/
theorem matches_charge (reference : String) (amount : Money) :
    Matches g scan t (Tandem trips t P) (Tandem trips t P) (charge reference amount) :=
  relates_port (.charge reference amount) fun w s h => by
    rw [Server.handle, SqlRepo.method, Prog.run_call]
    refine ⟨rfl, ?_⟩
    simp only [World.exec, Server.solo, Server.exec, Option.getD_some]
    split
    · refine ⟨⟨h.block.sees, h.block.base, h.block.sound, h.block.alone⟩, h.alone, h.stored, h.served, ?_, h.known⟩
      rw [List.map_append, ← h.paid]
      rfl
    · exact h

/-- **The commit** ends the block's work. -/
theorem matches_commit : Matches g scan t (Tandem trips t P) (Closes trips t) commit :=
  relates_port .commit fun _ _ h => by
    refine ⟨?_, h.commit g scan⟩
    rw [Server.handle, SqlRepo.method, Prog.run_call]
    exact rfl

/-- `except KeyError: raise BookingNotFound`. -/
def notFound (id : String) : Except Err Hold → Except Err Hold
  | .error (.keyError _) => .error (.domain .bookingNotFound id)
  | x => x

theorem run_getBooking {σ : Type} (h : (o : PortOp) → σ → Except Err o.Res × σ) (id : String) (s : σ) :
    (getBooking id).run h s = (notFound id (h (.get id) s).1, (h (.get id) s).2) := by
  unfold getBooking Bookings.get
  rw [Prog.tryCatch_eq, Prog.run_rescue, Prog.run_call]
  cases h (.get id) s with
  | mk x s' =>
      cases x with
      | ok hold => rfl
      | error e => cases e <;> rfl

theorem notFound_error (id : String) {e e' : Err} (h : SameClass e e') :
    ∃ x x', notFound id (.error e) = .error x ∧ notFound id (.error e') = .error x' ∧ SameClass x x' := by
  cases e <;> cases e' <;> first | exact ⟨_, _, rfl, rfl, rfl⟩ | exact ⟨_, _, rfl, rfl, h⟩ | cases h

/-! ### Look-ups in front of a program

Where both sides look a booking up, both find it or neither does; the error classes agree though the texts differ. -/

/-- Going on with a booking: it is the stored one. -/
theorem matches_getBooking_bind {id : String} {f : Hold → Prog Ports Err α}
    (hf : ∀ hold, Matches g scan t (Tandem trips t fun hs => P hs ∧ lookup MemoryRepo.idOf id hs = some hold)
      (Closes trips t) (f hold)) :
    Matches g scan t (Tandem trips t P) (Closes trips t) ((getBooking id).bind f) := by
  intro w s h
  obtain ⟨hans, hnext⟩ := h.repo scan g (o := .get id) (Q := P) trivial h.known
  change Alike Eq SameClass (MemoryRepo.get w.holds id) _ at hans
  change Tandem trips t P w _ at hnext
  have hmemory : (getBooking id).run (World.exec g) w = (notFound id (MemoryRepo.get w.holds id), w) :=
    run_getBooking _ _ _
  rw [Prog.run_bind, Prog.run_bind, hmemory, run_getBooking]
  generalize Server.handle scan g t (.get id) s = out at hans hnext
  obtain ⟨y, s'⟩ := out
  cases hget : MemoryRepo.get w.holds id with
  | ok hold =>
      rw [hget] at hans
      cases y with
      | ok hold' =>
          obtain rfl : hold = hold' := hans
          exact hf hold w s' (hnext.mono fun hk => ⟨hk, MemoryRepo.get_ok.mp hget⟩)
      | error e => exact hans.elim
  | error e =>
      rw [hget] at hans
      cases y with
      | ok hold => exact hans.elim
      | error e' =>
          obtain ⟨x, x', hx, hx', hclass⟩ := notFound_error id hans
          simp only [hx, hx']
          exact ⟨hclass, hnext.closes⟩

/-- Going on with what a client's reference names: a booking that is handed back, or none that is stored. -/
theorem matches_lookupReplay_bind {ref : Option String} {f : Option Hold → Prog Ports Err α}
    (hsome : ∀ hold, Matches g scan t (Tandem trips t P) (Closes trips t) (f (some hold)))
    (hnone : Matches g scan t (Tandem trips t fun hs => P hs ∧ ∀ x ∈ hs, ref ≠ some x.reference) (Closes trips t)
      (f none)) :
    Matches g scan t (Tandem trips t P) (Closes trips t) ((lookupReplay ref).bind f) := by
  cases ref with
  | none => exact fun w s h => hnone w s (h.mono fun hk => ⟨hk, fun _ _ => nofun⟩)
  | some ref =>
      intro w s h
      obtain ⟨hans, hnext⟩ := h.repo scan g (o := .byReference ref) (Q := P) trivial h.known
      change Alike Eq SameClass (.ok (MemoryRepo.byReference w.holds ref)) _ at hans
      change Tandem trips t P w _ at hnext
      have hmemory : (lookupReplay (some ref)).run (World.exec g) w = (.ok (MemoryRepo.byReference w.holds ref), w) :=
        Prog.run_call _ _ _
      have hserver : (lookupReplay (some ref)).run (Server.handle scan g t) s =
          Server.handle scan g t (.byReference ref) s := Prog.run_call _ _ _
      rw [Prog.run_bind, Prog.run_bind, hmemory, hserver]
      generalize Server.handle scan g t (.byReference ref) s = out at hans hnext
      obtain ⟨y, s'⟩ := out
      cases y with
      | error e => exact hans.elim
      | ok found =>
          obtain rfl : MemoryRepo.byReference w.holds ref = found := hans
          cases hfound : MemoryRepo.byReference w.holds ref with
          | some hold => exact hsome hold w s' hnext
          | none =>
              refine hnone w s' (hnext.mono fun hk => ⟨hk, fun x hx he => ?_⟩)
              exact List.find?_eq_none.mp hfound x hx (decide_eq_true (Option.some.inj he).symm)

end Rules

/-! ## The use-cases -/

/-- No booking has the id or the reference the call would draw. -/
def Undrawn (deps : Deps) (hs : List Hold) : Prop :=
  ∀ x ∈ hs, x.bookingId ≠ deps.newId ∧ x.reference ≠ deps.newReference

/-- No booking has the id or the reference a new booking would get. -/
def Unknown (deps : Deps) (ref : Option String) (hs : List Hold) : Prop :=
  ∀ x ∈ hs, x.bookingId ≠ deps.newId ∧ x.reference ≠ orFresh ref deps.newReference

section Programs

variable {α : Type} {trips : List Trip} {t : Nat} {P : List Hold → Prop} {scan : Scan} {g : Gateway} {deps : Deps}

theorem Undrawn.unknown {ref : Option String} {hs : List Hold} (h : Undrawn deps hs)
    (href : ∀ x ∈ hs, ref ≠ some x.reference) : Unknown deps ref hs := by
  intro x hx
  refine ⟨(h x hx).1, ?_⟩
  unfold orFresh
  cases ref with
  | none => exact (h x hx).2
  | some q =>
      dsimp only
      split
      · exact (h x hx).2
      · exact fun he => href x hx (congrArg some he.symm)

theorem Unknown.sweep {ref : Option String} {hs : List Hold} (h : Unknown deps ref hs) (now : Int) :
    Unknown deps ref (MemoryRepo.expireDue hs now).2 := by
  intro x hx
  obtain ⟨y, hy, rfl⟩ := List.mem_map.mp hx
  rw [MemoryRepo.retire_bookingId, retire_reference]
  exact h y hy

/-- A new booking has a seat and occupies it, or stands and has none. -/
theorem Unknown.allowed {ref : Option String} {hs : List Hold} (h : Unknown deps ref hs) {hold : Hold}
    (hid : hold.bookingId = deps.newId) (href : hold.reference = orFresh ref deps.newReference)
    (hseat : (hold.status.isActive = true ∧ hold.seatId ≠ "") ∨ (hold.status = .standing ∧ hold.seatId = "")) :
    Allowed hs (.addHold hold) := by
  refine ⟨fun x hx => ?_, fun x hx => ?_, hseat⟩
  · rw [hid]
    exact (h x hx).1
  · rw [href]
    exact (h x hx).2

/-! ### Calls that write -/

/-- Telling the outside and committing. -/
theorem matches_telling {n : Notice} {x : Except Err α} : Matches g scan t (Tandem trips t P) (Closes trips t)
    ((notify n.recipient n.event n.detail).bind fun _ => commit.bind fun _ => Prog.ofExcept x) :=
  (matches_notify _ _ _).bind (fun _ => matches_commit.bind (fun _ => matches_ofExcept x fun _ _ h => h) fun _ _ h => h)
    fun _ _ h => h.closes

theorem matches_placeHold {ref : Option String} {hold : Hold} (hid : hold.bookingId = deps.newId)
    (href : hold.reference = orFresh ref deps.newReference) (hstatus : hold.status = .held) (hseat : hold.seatId ≠ "") :
    Matches g scan t (Tandem trips t (Unknown deps ref)) (Closes trips t) (placeHold hold) := by
  have hactive : hold.status.isActive = true := by rw [hstatus]; rfl
  refine (matches_addHold fun hs h => h.allowed hid href (Or.inl ⟨hactive, hseat⟩)).bind (fun _ => ?_)
    fun _ _ h => h.closes
  exact (matches_publish _).bind (fun _ => matches_telling (n := ⟨_, _, _⟩) (x := .ok hold)) fun _ _ h => h.closes

theorem matches_holdSeat (hT : Timetabled trips) {trip seat : String} {leg : Leg} {p n : String}
    {ref : Option String} : Matches g scan t (Tandem trips t (Undrawn deps)) (Closes trips t)
      (holdSeat deps trip seat leg p n ref) := by
  refine matches_lookupReplay_bind (fun hold => matches_ofExcept (.ok hold) fun _ _ h => h.closes) ?_
  refine matches_sweep (Q := Unknown deps ref) (fun hs h => (h.1.unknown h.2).sweep _) ?_
  unfold draftHold
  simp only [Prog.bind_eq, Prog.bind_assoc, Prog.pure_eq, Prog.ret_bind]
  refine matches_getTrip_bind hT fun found hfound _ => matches_ofExcept_bind (fun _ _ h => h.closes) fun _ _ =>
    matches_ofExcept_bind (fun _ _ h => h.closes) fun s hs => ?_
  obtain ⟨hmem, hseat, -⟩ := reservedSeat_ok hs
  refine (matches_reading hT reading_enforceAntiTout).bind (fun _ => ?_) fun _ _ h => h.closes
  refine (matches_reading hT reading_priceLeg).bind (fun _ => ?_) fun _ _ h => h.closes
  refine matches_ofExcept_bind (fun _ _ h => h.closes) fun _ _ => matches_placeHold rfl rfl rfl ?_
  show seat ≠ ""
  rw [← hseat]
  exact hT.seats found hfound s hmem

theorem matches_confirmBooking (hT : Timetabled trips) {id : String} :
    Matches g scan t (Tandem trips t P) (Closes trips t) (confirmBooking deps id) := by
  refine matches_sweep (Q := fun _ => True) (fun _ _ => trivial) ?_
  unfold readForConfirm
  simp only [Prog.bind_eq, Prog.bind_assoc, Prog.pure_eq, Prog.ret_bind]
  refine matches_getBooking_bind fun hold => matches_ofExcept_bind (fun _ _ h => h.closes) fun target htarget => ?_
  refine matches_getTrip_bind hT fun trip _ _ => (matches_charge _ _).bind (fun _ => ?_) fun _ _ h => h.closes
  refine matches_ofExcept_bind (fun _ _ h => h.closes) fun _ _ => ?_
  refine (matches_setStatus (fun _ h => h.2) (BookingSm.edge_of_apply htarget)).bind (fun confirmed => ?_)
    fun _ _ h => h.closes
  exact (matches_publish _).bind (fun _ => matches_telling (n := ⟨_, _, _⟩)) fun _ _ h => h.closes

theorem matches_cancelBooking {id : String} :
    Matches g scan t (Tandem trips t P) (Closes trips t) (cancelBooking id) := by
  refine matches_getBooking_bind fun hold => matches_ofExcept_bind (fun _ _ h => h.closes) fun target htarget => ?_
  obtain rfl := BookingSm.apply_cancel htarget
  refine (matches_setStatus (fun _ h => h.2) (BookingSm.edge_of_apply htarget)).bind (fun cancelled => ?_)
    fun _ _ h => h.closes
  dsimp only
  split
  · exact (matches_publish _).bind (fun _ => matches_telling (n := ⟨_, _, _⟩) (x := .ok cancelled))
      fun _ _ h => h.closes
  · exact matches_telling (n := ⟨_, _, _⟩) (x := .ok cancelled)

/-- The hidden seat is one of the pool. -/
theorem yields_assignSeat {trip : String} {leg : Leg} {c : TravelClass} {pool : List Seat} :
    (assignSeat deps trip leg c pool).Yields fun out => ∀ s, out.1 = some s → s ∈ pool := by
  refine (Prog.yields_true _).bind fun seatLegs _ => ?_
  split
  · exact fun s hs => List.mem_of_getElem? hs
  · exact (Prog.yields_true _).bind fun _ _ => (Prog.yields_true _).bind fun _ _ s hs => nomatch hs

theorem matches_issueTicket {ref : Option String} {sold : Hold} {a : Admission} (hid : sold.bookingId = deps.newId)
    (href : sold.reference = orFresh ref deps.newReference)
    (hseat : (sold.status.isActive = true ∧ sold.seatId ≠ "") ∨ (sold.status = .standing ∧ sold.seatId = "")) :
    Matches g scan t (Tandem trips t (Unknown deps ref)) (Closes trips t) (issueTicket deps sold a) := by
  refine (matches_addHold fun hs h => h.allowed hid href hseat).bind (fun _ => ?_) fun _ _ h => h.closes
  cases a.seat with
  | some seat => exact (matches_publish _).bind (fun _ => matches_telling (n := ⟨_, _, _⟩)) fun _ _ h => h.closes
  | none => exact matches_telling (n := ⟨_, _, _⟩)

theorem matches_sellUnreserved (hT : Timetabled trips) {trip : String} {leg : Leg} {p n : String} {c : TravelClass}
    {ref : Option String} : Matches g scan t (Tandem trips t (Undrawn deps)) (Closes trips t)
      (sellUnreserved deps trip leg p n c ref) := by
  refine matches_lookupReplay_bind (fun existing => ?_) ?_
  · exact matches_getTrip_bind hT fun _ _ _ => matches_ofExcept _ fun _ _ h => h.closes
  refine matches_sweep (Q := Unknown deps ref) (fun hs h => (h.1.unknown h.2).sweep _) ?_
  unfold admitSale
  simp only [Prog.bind_eq, Prog.bind_assoc]
  refine matches_getTrip_bind hT fun found hfound _ => matches_ofExcept_bind (fun _ _ h => h.closes) fun _ _ => ?_
  refine (matches_reading hT reading_enforceAntiTout).bind (fun _ => ?_) fun _ _ h => h.closes
  split
  · exact Prog.relates_raise (fun _ _ h => h.closes) rfl
  have hseats : ∀ s ∈ unreservedPool found c, s.seatId ≠ "" := fun s hs =>
    hT.seats found hfound s (List.mem_filter.mp hs).1
  simp only [Prog.bind_assoc]
  refine Prog.Relates.bind_yields (matches_reading hT (reading_assignSeat hseats)) yields_assignSeat
    (fun out hout => ?_) fun _ _ h => h.closes
  refine (matches_reading hT reading_priceLeg).bind (fun fare => ?_) fun _ _ h => h.closes
  refine (matches_charge _ _).bind (fun _ => matches_ofExcept_bind (fun _ _ h => h.closes) fun _ _ => ?_)
    fun _ _ h => h.closes
  refine matches_issueTicket rfl rfl ?_
  obtain ⟨seat, offer⟩ := out
  cases seat with
  | some s => exact Or.inl ⟨rfl, hseats s (hout s rfl)⟩
  | none => exact Or.inr ⟨rfl, rfl⟩

/-! ### Calls that read -/

theorem matches_verifyTicket (hT : Timetabled trips) {ref : String} :
    Matches g scan t (Tandem trips t P) (Closes trips t) (verifyTicket deps ref) := by
  refine matches_sweep (Q := fun _ => True) (fun _ _ => trivial) ?_
  refine (matches_reading hT (p := Bookings.byReference ref) (Prog.under_call trivial fun _ _ h => h)).bind
    (fun found => ?_) fun _ _ h => h.closes
  cases found with
  | none => exact Prog.relates_raise (fun _ _ h => h.closes) rfl
  | some booking =>
      refine matches_getTrip_bind hT fun trip _ _ => matches_commit.bind (fun _ => ?_) fun _ _ h => h
      exact matches_ofExcept_bind (fun _ _ h => h) fun receipt _ => matches_ofExcept (.ok _) fun _ _ h => h

theorem matches_searchTrains (hT : Timetabled trips) {o d date : String} :
    Matches g scan t (Tandem trips t P) (Closes trips t) (searchTrains deps o d date) := by
  refine matches_ofExcept_bind (fun _ _ h => h.closes) fun _ _ => ?_
  refine matches_sweep (Q := fun _ => True) (fun _ _ => trivial) ?_
  refine (matches_reading hT (p := Trips.findByDate date) (Prog.under_call trivial fun _ _ h => h)).bind
    (fun listed => ?_) fun _ _ h => h.closes
  refine (matches_reading hT (reading_trainOptions listed)).bind (fun options => ?_) fun _ _ h => h.closes
  exact matches_commit.bind (fun _ => matches_ofExcept (.ok options) fun _ _ h => h) fun _ _ h => h

theorem matches_legAvailability (hT : Timetabled trips) {trip : String} {leg : Leg} :
    Matches g scan t (Tandem trips t P) (Closes trips t) (legAvailability deps trip leg) := by
  refine matches_getTrip_bind hT fun found _ _ => matches_ofExcept_bind (fun _ _ h => h.closes) fun _ _ => ?_
  refine matches_sweep (Q := fun _ => True) (fun _ _ => trivial) ?_
  refine Prog.Relates.bind (V := List.Perm) (Q := Tandem trips t fun _ => True)
    (relates_port (.activeHolds trip) fun w s h => ?_) (fun a b h => ?_) fun _ _ h => h.closes
  · exact h.repo scan g (o := .activeHolds trip) trivial trivial
  · have hbusy : ∀ s : Seat, (a.any fun h => h.seatId = s.seatId && h.leg.overlaps leg) =
        b.any fun h => h.seatId = s.seatId && h.leg.overlaps leg := fun s => h.any_eq
    simp only [hbusy]
    exact matches_commit.bind (fun _ => matches_ofExcept (.ok _) fun _ _ h => h) fun _ _ h => h

theorem matches_quoteFare (hT : Timetabled trips) {trip : String} {leg : Leg} {c : TravelClass} :
    Matches g scan t (Tandem trips t P) (Closes trips t) (quoteFare deps trip leg c) := by
  refine matches_getTrip_bind hT fun found _ _ => matches_ofExcept_bind (fun _ _ h => h.closes) fun _ _ => ?_
  exact (matches_reading hT reading_priceLeg).mono (fun _ _ h => h) (fun _ _ h => h.closes) (fun _ _ h => h)
    fun _ _ h => h

/-- **Every use-case** runs alike on the dictionary and on the table. -/
theorem tandem_program (hT : Timetabled trips) (r : Request) (scan : Scan) (t : Nat) :
    Matches r.gateway scan t (Tandem trips t (Undrawn r.deps)) (Closes trips t) (r.call.program r.deps) := by
  obtain ⟨call, deps, g⟩ := r
  cases call with
  | hold => exact matches_holdSeat hT
  | confirm => exact matches_confirmBooking hT
  | cancel => exact matches_cancelBooking
  | sell => exact matches_sellUnreserved hT
  | verify => exact matches_verifyTicket hT
  | search => exact matches_searchTrains hT
  | availability => exact matches_legAvailability hT
  | quote => exact matches_quoteFare hT

end Programs

/-- **A whole call**, served by a block on one side and by a lone transaction on the other. -/
theorem served_in_tandem {trips : List Trip} (hT : Timetabled trips) {w : World} {s : Server} (h : AtRest trips w s)
    (r : Request) (hdraws : Undrawn r.deps w.holds) (scan : Scan) (t : Nat) :
    Alike Eq SameClass (w.serve r).1 ((r.call.program r.deps).run (Server.handle scan r.gateway t) s).1 ∧
      AtRest trips (w.serve r).2 (Server.close t ((r.call.program r.deps).run (Server.handle scan r.gateway t) s).2) :=
  tandem_program hT r scan t w.enter s (h.enter t hdraws)

end SlrBooking
