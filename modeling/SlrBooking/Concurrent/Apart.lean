import SlrBooking.Theory.Parts
import SlrBooking.Runs.TripIsolation
import SlrBooking.Concurrent.Deadlock
import SlrBooking.Concurrent.Ledger

/-!
# `Concurrent.Apart` — groups of trips under any interleaving

The requests are in two groups with trips of their own; all of them share one table, its locks and its constraint.
Wherever their statements fall between each other, the requests of a group get the answers, the waits and the outcomes
they would get alone. One thing crosses between groups: a sweep retires whatever it finds overdue on any trip. So the
condition on a run is that a sweep finds nothing overdue of the other group.

## Contents
- `Request.Issues`: the statements of a request, given its log. `confined_statements`.
- `Traffic.Apart`, `Traffic.SweepsOwn`: the groups, and the condition on a run.
- `Divided`: the invariant; `divided_step`.
- `own_step`, `other_step`: what a statement does to its own group and to the other one. `groups_apart`.
-/

namespace SlrBooking

open Theory Rows

/-! ## The statements of a request -/

/-- Trips came with the id asked for. -/
def TripsAsAsked (log : List (Event Stmts Err)) : Prop :=
  ∀ id trip, (⟨.selectTrip id, .ok (some trip)⟩ : Event Stmts Err) ∈ log → trip.tripId = id

/-- A sweep found the booking overdue. -/
def Swept (log : List (Event Stmts Err)) (id : String) : Prop :=
  ∃ now rows, (⟨.select (.overdue now), .ok rows⟩ : Event Stmts Err) ∈ log ∧ ∃ row ∈ rows, row.bookingId = id

/-- What a request asks the booking table. -/
def Filter.AskedBy (r : Request) : Filter → Prop
  | .byReference reference => r.looksUp = some reference
  | .activeForSeat tripId _ | .activeForPassenger tripId _ | .inStatus tripId _ => r.onTrip = some tripId
  | .activeOnTrip tripId => r.onTrip = some tripId ∨ r.searches = true
  | .overdue _ => True

/-- The statements that name what the request names. -/
def Request.Asks (r : Request) : Stmt → Prop
  | .selectById id | .updateStatus id _ => r.subject = some id
  | .select filter => filter.AskedBy r
  | .insert row => row.bookingId = r.deps.newId ∧ row.reference = r.ticketRef ∧ r.onTrip = some row.tripId
  | _ => True

/-- What a request may issue after the statements of its log. -/
def Request.Issues (r : Request) (log : List (Event Stmts Err)) (o : Stmt) : Prop :=
  r.Asks o ∨ ∃ id status, o = .updateStatus id status ∧ Swept log id

/-- `p` keeps to the law from the log and ends as `K` says. -/
abbrev Confined {α : Type} (r : Request) (K : List (Event Stmts Err) → Except Err α → Prop)
    (log : List (Event Stmts Err)) (p : Prog Stmts Err α) : Prop :=
  Prog.Outline (fun l o => TripsAsAsked l → r.Issues l o) (fun l o a => l ++ [⟨o, a⟩]) K log p

section Confined

variable {r : Request} {log : List (Event Stmts Err)} {e : Event Stmts Err}

theorem TripsAsAsked.init (h : TripsAsAsked (log ++ [e])) : TripsAsAsked log := fun id trip he =>
  h id trip (List.mem_append_left _ he)

theorem Swept.snoc {id : String} (h : Swept log id) : Swept (log ++ [e]) id := by
  obtain ⟨now, rows, he, hrow⟩ := h
  exact ⟨now, rows, List.mem_append_left _ he, hrow⟩

theorem Request.Issues.names {id : String} {status : BookingStatus} (h : r.Issues log (.updateStatus id status)) :
    r.subject = some id ∨ Swept log id := by
  rcases h with hasks | ⟨id', status', heq, hswept⟩
  · exact Or.inl hasks
  · obtain ⟨rfl, -⟩ := Stmt.updateStatus.inj heq
    exact Or.inr hswept

/-- The statements of a port operation other than the sweep. -/
theorem asks_method {o : PortOp} (ho : r.Names o) (hsweep : ∀ now, o ≠ .expireDue now) :
    (SqlRepo.method o).Only r.Asks := by
  refine (SqlRepo.method_issues o).mono fun q hq => ?_
  cases o with
  | expireDue now => exact absurd rfl (hsweep now)
  | setStatus => obtain rfl | rfl := hq <;> exact ho
  | byStatus =>
      rw [show q = _ from hq]
      exact ho.1
  | addHold | get | byReference | activeForSeat | activeForPassenger | activeHolds =>
      rw [show q = _ from hq]
      exact ho
  | _ =>
      rw [show q = _ from hq]
      trivial

/-! ### The statements of a method -/

theorem confined_stmt (o : Stmt) {K : List (Event Stmts Err) → Except Err o.Res → Prop}
    (hlaw : TripsAsAsked log → r.Issues log o) (h : ∀ a, K (log ++ [⟨o, a⟩]) a) :
    Confined r K log (Prog.call (S := Stmts) o) :=
  Prog.outline_call.mpr ⟨hlaw, h⟩

/-- **The sweep** writes what it found. -/
theorem confined_expireRows {l : Prop} : ∀ (rows : List BookingRow) (log : List (Event Stmts Err)),
    (∀ row ∈ rows, Swept log row.bookingId) → (TripsAsAsked log → l) →
    Confined r (fun n _ => TripsAsAsked n → l) log (SqlRepo.expireRows rows)
  | [], _, _, hl => hl
  | row :: rest, log, hswept, hl => by
      have hlaw : TripsAsAsked log → r.Issues log (.updateStatus row.bookingId .expired) := fun _ =>
        Or.inr ⟨_, _, rfl, hswept row List.mem_cons_self⟩
      refine Prog.outline_bind.mpr (confined_stmt (.updateStatus row.bookingId .expired) hlaw fun a => ?_)
      cases a with
      | error e => exact fun h => hl h.init
      | ok u =>
          refine Prog.outline_bind.mpr ((confined_expireRows rest _ (fun later hlater => ?_) fun h => hl h.init).mono
            fun n x hn => ?_)
          · exact (hswept later (List.mem_cons_of_mem _ hlater)).snoc
          · cases x with
            | ok others => exact hn
            | error e => exact hn

/-- **One port operation**, as its statements. `l` says that the ports have answered as they should so far. -/
theorem confined_method {l : Prop} {o : PortOp} (ho : l → r.Names o) (hl : TripsAsAsked log → l) :
    Confined r (fun n x => TripsAsAsked n → l ∧ Fitting o x) log (SqlRepo.method o) := by
  -- a sweep names what its select has found, every other method what the operation names
  by_cases hsweep : ∃ now, o = .expireDue now
  · obtain ⟨now, rfl⟩ := hsweep
    refine (Prog.outline_bind.mpr (confined_stmt (.select (.overdue now)) (fun _ => Or.inl trivial) fun a => ?_) :
      Confined r (fun n _ => TripsAsAsked n → l) log _).mono fun n x hn h => ⟨hn h, trivial⟩
    cases a with
    | error e => exact fun h => hl h.init
    | ok rows =>
        refine confined_expireRows rows _ (fun row hrow => ?_) fun h => hl h.init
        exact ⟨now, rows, List.mem_append_right _ (List.mem_singleton.mpr rfl), row, hrow, rfl⟩
  by_cases htrip : ∃ id, o = .getTrip id
  · obtain ⟨id, rfl⟩ := htrip
    refine Prog.outline_bind.mpr (confined_stmt (.selectTrip id) (fun _ => Or.inl trivial) fun a => ?_)
    cases a with
    | error e => exact fun h => ⟨hl h.init, trivial⟩
    | ok found =>
        cases found with
        | none => exact fun h => ⟨hl h.init, trivial⟩
        | some trip =>
            exact fun h => ⟨hl h.init, h id trip (List.mem_append_right _ (List.mem_singleton.mpr rfl))⟩
  have hfits : ∀ x : Except Err o.Res, Fitting o x := by
    intro x
    cases o with
    | getTrip id => exact absurd ⟨id, rfl⟩ htrip
    | _ => trivial
  have honly : (SqlRepo.method o).Only fun q => l → r.Asks q := by
    by_cases h : l
    · exact (asks_method (ho h) fun now he => hsweep ⟨now, he⟩).mono fun q hq _ => hq
    · exact (Prog.only_true _).mono fun q _ hl => absurd hl h
  exact (Prog.outline_invariant (I := fun n => TripsAsAsked n → l) (fun n q hn hq h => Or.inl (hq (hn h)))
    (fun n q a hn _ h => hn h.init) honly hl).mono fun n x hn h => ⟨hn h, hfits x⟩

/-- **Every request keeps to the law**, whatever it is answered. -/
theorem confined_statements (r : Request) : Confined r (fun _ _ => True) [] r.statements := by
  have hports := Prog.Under.outline (l := True) fun _ => names_program r
  have hstart : TripsAsAsked [] → True := fun _ => trivial
  have hprogram := hports.translate (f := SqlRepo.method)
    (fun l n o ho (hl : TripsAsAsked n → l) => confined_method ho hl) hstart
  refine Prog.outline_bind.mpr (hprogram.mono fun l x _ => ?_)
  cases x <;> trivial

end Confined

/-! ## Two groups -/

/-- The time as of which a sweep looks for overdue bookings. -/
def Stmt.sweepsAt? : Stmt → Option Int
  | .select (.overdue now) => some now
  | _ => none

/-- The trips, requests and bookings of one group on the server. -/
def Server.only (mine : Nat → Bool) (ours : String → Bool) (s : Server) : Server where
  db      := s.db.only fun row => ours row.tripId
  trips   := s.trips
  ledger  := s.ledger.filter fun charge => mine charge.payer
  journal := s.journal.filter fun entry => mine entry.1

namespace Traffic

variable (T : Traffic) (mine : Nat → Bool) (ours : String → Bool)

/-- The requests fall into two groups, `mine` and the others. Each asks about trips of its own group and confirms or
    cancels its own group's bookings; requests of `mine` search no day's trains and look up no reference of the
    others' bookings. -/
structure Apart : Prop where
  ids      : T.FreshIds
  onTrip   : ∀ (t : Nat) r, T.requests[t]? = some r → ∀ tripId, r.onTrip = some tripId → ours tripId = mine t
  subject  : ∀ (t u : Nat) r q, T.requests[t]? = some r → T.requests[u]? = some q →
    r.subject = some q.deps.newId → mine u = mine t
  looksUp  : ∀ (t u : Nat) r q, T.requests[t]? = some r → T.requests[u]? = some q → mine t = true →
    r.looksUp = some q.ticketRef → mine u = true
  searches : ∀ (t : Nat) r, T.requests[t]? = some r → mine t = true → r.searches = false

/-- If the next statement of `t` is a sweep's, it finds nothing overdue of the other group. -/
def SweepsOwn (c : State) (t : Nat) : Prop :=
  ∀ now ∈ (c.next t).bind Stmt.sweepsAt?,
    ∀ row ∈ c.shared.view t, (Filter.overdue now).holds row = true → ours row.tripId = mine t

instance (c : State) (t : Nat) : Decidable (SweepsOwn mine ours c t) :=
  inferInstanceAs (Decidable (∀ now ∈ (c.next t).bind Stmt.sweepsAt?, ∀ row ∈ c.shared.view t, _ → _))

/-- The booking was inserted by request `u`, on a trip of its group. -/
structure BookedBy (u : Nat) (row : BookingRow) : Prop where
  request : ∃ q, T.requests[u]? = some q ∧ row.bookingId = q.deps.newId ∧ row.reference = q.ticketRef
  trip    : ours row.tripId = mine u

/-- What every run keeps. -/
structure Divided (c : State) : Prop where
  confined : Machine.Follows (fun t l o => ∃ r, T.requests[t]? = some r ∧ (TripsAsAsked l → r.Issues l o))
    (fun l o a => l ++ [⟨o, a⟩]) [] (fun _ _ _ => True) c
  asked    : ∀ (t : Nat) th, c.threads[t]? = some th → TripsAsAsked th.log
  swept    : ∀ (t : Nat) th, c.threads[t]? = some th → ∀ id, Swept th.log id →
    ∃ u q, T.requests[u]? = some q ∧ q.deps.newId = id ∧ mine u = mine t
  booked   : ∀ row ∈ c.shared.db.versions, ∃ u, T.BookedBy mine ours u row
  own      : ∀ e ∈ c.shared.db.pending, ours e.2.tripId = mine e.1

variable {T mine ours} {c : State} {t : Nat}

/-- The group of a booking is that of the request it was generated for. -/
theorem Divided.side (hT : T.Apart mine ours) (h : T.Divided mine ours c) {u : Nat} {q : Request}
    (hq : T.requests[u]? = some q) {row : BookingRow} (hrow : row ∈ c.shared.db.versions)
    (hid : row.bookingId = q.deps.newId) : ours row.tripId = mine u := by
  obtain ⟨u', ⟨q', hq', hid', -⟩, htrip⟩ := h.booked row hrow
  have hsame : u' = u := by
    have hmap : ∀ {v : Nat} {x : Request}, T.requests[v]? = some x →
        (T.requests.map fun r => r.deps.newId)[v]? = some x.deps.newId := fun hx => by rw [List.getElem?_map, hx]; rfl
    exact (List.getElem?_inj (by simpa using (List.getElem?_eq_some_iff.mp hq').1) hT.ids).mp
      ((hmap hq').trans ((congrArg some (hid'.symm.trans hid)).trans (hmap hq).symm))
  rw [htrip, hsame]

/-- The versions of one booking are in one group. -/
theorem Divided.parted (hT : T.Apart mine ours) (h : T.Divided mine ours c) :
    Db.Parted bookingTable (fun row => ours row.tripId) c.shared.db := by
  intro x hx y hy hkey
  obtain ⟨u, ⟨q, hq, hid, -⟩, htrip⟩ := h.booked x hx
  exact htrip.trans (h.side hT hq hy ((show x.bookingId = y.bookingId from hkey).symm.trans hid)).symm

/-- The booking a request confirms, cancels or has found overdue is one of its own group. -/
theorem Divided.updates (hT : T.Apart mine ours) (h : T.Divided mine ours c) {th : Thread Stmts Err Unit}
    (hth : c.threads[t]? = some th) {r : Request} (hr : T.requests[t]? = some r) {id : String}
    (hnames : r.subject = some id ∨ Swept th.log id) :
    ∀ row ∈ c.shared.db.versions, row.bookingId = id → ours row.tripId = mine t := by
  intro row hrow hid
  rcases hnames with hsubject | hswept
  · obtain ⟨u, ⟨q, hq, hqid, -⟩, htrip⟩ := h.booked row hrow
    rw [htrip]
    exact hT.subject t u r q hr hq (hsubject.trans (congrArg some (hid.symm.trans hqid)))
  · obtain ⟨u, q, hq, hqid, hmine⟩ := h.swept t th hth id hswept
    rw [h.side hT hq hrow (hid.trans hqid.symm), hmine]

/-- What the next statement of a request is. -/
theorem Divided.issues (h : T.Divided mine ours c) {th : Thread Stmts Err Unit} (hth : c.threads[t]? = some th)
    {o : Stmt} {k : Except Err o.Res → Prog Stmts Err Unit} (hprog : th.prog = .perform o k) :
    ∃ r, T.requests[t]? = some r ∧ r.Issues th.log o := by
  have hallowed := h.confined.allowed hth hprog
  rw [Within.know_log] at hallowed
  obtain ⟨r, hr, hissues⟩ := hallowed
  exact ⟨r, hr, hissues (h.asked t th hth)⟩

theorem divided_start : T.Divided mine ours T.start where
  confined t th hth := by
    obtain ⟨r, hr, rfl⟩ := Option.map_eq_some_iff.mp ((List.getElem?_map ..).symm.trans hth)
    exact (confined_statements r).mono_pre fun l o ho => ⟨r, hr, ho⟩
  asked t th hth := by
    obtain ⟨r, -, rfl⟩ := Option.map_eq_some_iff.mp ((List.getElem?_map ..).symm.trans hth)
    exact fun _ _ he => absurd he List.not_mem_nil
  swept t th hth := by
    obtain ⟨r, -, rfl⟩ := Option.map_eq_some_iff.mp ((List.getElem?_map ..).symm.trans hth)
    rintro id ⟨now, rows, he, -⟩
    exact absurd he List.not_mem_nil
  booked row hrow := by cases hrow
  own e he := by cases he

/-! ## The invariant -/

/-- A version in doubt was in doubt, or is the statement's own. -/
theorem pending_effect {scan : Scan} {gateway : Gateway} {s s' : Server} {e : Event Stmts Err}
    (h : Server.Effect scan gateway t s e s') {p : Nat × BookingRow} (hp : p ∈ s'.db.pending) :
    p ∈ s.db.pending ∨ p.1 = t ∧ (e.op = .insert p.2 ∨ ∃ row ∈ s.db.versions, ∃ status,
      e.op = .updateStatus row.bookingId status ∧ p.2 = { row with status := status }) := by
  cases h with
  | inserted hfresh hw =>
      rcases (Db.mem_pending_write hw).mp hp with rfl | ⟨hp, -⟩
      · exact Or.inr ⟨rfl, Or.inl rfl⟩
      · exact Or.inl hp
  | @updated id status row db hrow hw =>
      rcases (Db.mem_pending_write hw).mp hp with rfl | ⟨hp, -⟩
      · refine Or.inr ⟨rfl, Or.inr ⟨row, Db.view_versions (lookup_some_mem hrow), status, ?_, rfl⟩⟩
        rw [lookup_some_key hrow]
      · exact Or.inl hp
  | committed => exact Or.inl (Db.mem_pending_drop.mp hp).1
  | _ => exact Or.inl hp

/-- A version the statement has written: the inserted row, or a stored one with another status. -/
theorem versions_effect {scan : Scan} {gateway : Gateway} {s s' : Server} {e : Event Stmts Err}
    (h : Server.Effect scan gateway t s e s') {x : BookingRow} (hx : x ∈ s'.db.versions) : x ∈ s.db.versions ∨
      e.op = .insert x ∨ ∃ row ∈ s.db.versions, ∃ status, e.op = .updateStatus row.bookingId status ∧
        x = { row with status := status } := by
  rcases Db.mem_versions.mp hx with hx | ⟨u, hx⟩
  · cases h with
    | committed => exact Or.inl (Db.view_versions hx)
    | inserted _ hw | updated _ hw => exact Or.inl (Db.committed_versions (Db.committed_write hw ▸ hx))
    | _ => exact Or.inl (Db.committed_versions hx)
  · exact (pending_effect h hx).imp Db.pending_versions And.right

/-- **Step lemma.** -/
theorem divided_step (hT : T.Apart mine ours) (c : State) (t : Nat) (h : T.Divided mine ours c)
    (hsweep : SweepsOwn mine ours c t) : T.Divided mine ours (T.machine.step c t) := by
  have hconfined := Machine.Follows.step (M := T.machine) h.confined t
  have hmove := T.machine.step_move c t
  generalize T.machine.step c t = c' at hmove hconfined ⊢
  cases hmove with
  | stay => exact h
  | @finish th res hth hlive hres =>
      have hlt := (List.getElem?_eq_some_iff.mp hth).1
      -- closing a request takes versions away and leaves its log
      refine ⟨hconfined, fun u th' hth' => ?_, fun u th' hth' => ?_, fun x hx => ?_, fun e he => ?_⟩
      · rcases set_cases hlt hth' with ⟨-, hth'⟩ | ⟨rfl, rfl⟩
        · exact h.asked u th' hth'
        · exact h.asked u th hth
      · rcases set_cases hlt hth' with ⟨-, hth'⟩ | ⟨rfl, rfl⟩
        · exact h.swept u th' hth'
        · exact h.swept u th hth
      · rcases Db.mem_versions.mp hx with hx | ⟨u, hx⟩
        · exact h.booked x (Db.committed_versions hx)
        · exact h.booked x (Db.pending_versions (Db.mem_pending_drop.mp hx).1)
      · exact h.own e (Db.mem_pending_drop.mp he).1
  | @act th o k a s hth hlive hprog hexec =>
      have hlt := (List.getElem?_eq_some_iff.mp hth).1
      have heffect := Server.exec_effect hexec
      obtain ⟨r, hr, hissues⟩ := h.issues hth hprog
      have hinserted : ∀ x, o = .insert x → T.BookedBy mine ours t x := by
        rintro x rfl
        obtain ⟨hid, href, htrip⟩ : r.Asks (.insert x) := hissues.resolve_right fun ⟨_, _, he, _⟩ => nomatch he
        exact ⟨⟨r, hr, hid, href⟩, hT.onTrip t r hr _ htrip⟩
      refine ⟨hconfined, fun u th' hth' => ?_, fun u th' hth' => ?_, fun x hx => ?_, fun e he => ?_⟩
      · rcases set_cases hlt hth' with ⟨-, hth'⟩ | ⟨rfl, rfl⟩
        · exact h.asked u th' hth'
        · intro id trip he
          rcases List.mem_append.mp he with he | he
          · exact h.asked u th hth id trip he
          · obtain ⟨rfl, ha⟩ := Event.mk.inj (List.mem_singleton.mp he)
            rw [← eq_of_heq ha] at hexec
            exact lookup_some_key (Except.ok.inj (Prod.mk.inj (Option.some.inj hexec)).1)
      · rcases set_cases hlt hth' with ⟨-, hth'⟩ | ⟨rfl, rfl⟩
        · exact h.swept u th' hth'
        · rintro id ⟨now, rows, he, row, hrow, hid⟩
          rcases List.mem_append.mp he with he | he
          · exact h.swept u th hth id ⟨now, rows, he, row, hrow, hid⟩
          · -- what this sweep has found is of its own group
            obtain ⟨rfl, ha⟩ := Event.mk.inj (List.mem_singleton.mp he)
            rw [← eq_of_heq ha] at heffect
            rw [heffect.selected] at hrow
            obtain ⟨hview, hdue⟩ := List.mem_filter.mp (((T.scan u).perm _).mem_iff.mp hrow)
            obtain ⟨v, ⟨q, hq, hqid, -⟩, htrip⟩ := h.booked row (Db.view_versions hview)
            refine ⟨v, q, hq, hqid.symm.trans hid, htrip.symm.trans (hsweep now ?_ row hview hdue)⟩
            rw [Config.next_eq hth hlive hprog]
            rfl
      · rcases versions_effect heffect hx with hx | hop | ⟨row, hrow, status, hop, rfl⟩
        · exact h.booked x hx
        · exact ⟨t, hinserted x hop⟩
        · obtain ⟨u, hrequest, htrip⟩ := h.booked row hrow
          exact ⟨u, hrequest, htrip⟩
      · rcases pending_effect heffect he with he | ⟨ht, hop | ⟨row, hrow, status, hop, hx⟩⟩
        · exact h.own e he
        · rw [ht]
          exact (hinserted e.2 hop).trip
        · obtain rfl : o = _ := hop
          rw [ht, hx]
          exact h.updates hT hth hr hissues.names row hrow rfl

/-! ## A statement and its group -/

section Steps

variable {th : Thread Stmts Err Unit}

/-! ### The table of one group

Rows of the other group never exclude, hide or lock a row of this one, so a statement does to the group's own table
what it does to the whole. -/

/-- What a write does on the group's side is what the group sees of it. -/
theorem wrote_only (s : Server) (w : Written BookingRow) :
    (s.only mine ours).wrote (w.only fun row => ours row.tripId) =
      Machine.seen (Server.only mine ours) (s.wrote w) := by
  cases w <;> rfl

theorem view_only (hT : T.Apart mine ours) (h : T.Divided mine ours c) :
    (c.shared.only mine ours).view t = (c.shared.view t).filter fun row => ours row.tripId :=
  Db.view_only (h.parted hT)

/-- A booking of the group is found on the group's side. -/
theorem lookup_only (hT : T.Apart mine ours) (h : T.Divided mine ours c) {id : String}
    (hid : ∀ row ∈ c.shared.db.versions, row.bookingId = id → ours row.tripId = true) :
    lookup BookingRow.bookingId id ((c.shared.only mine ours).view t) =
      lookup BookingRow.bookingId id (c.shared.view t) := by
  rw [view_only hT h]
  exact find_filter fun row hrow hkey => hid row (Db.view_versions hrow) (by simpa using hkey)

/-- Writing a booking of the group. -/
theorem write_group (hT : T.Apart mine ours) (h : T.Divided mine ours c) (row : BookingRow)
    (hrow : ours row.tripId = true) (hkey : ∀ x ∈ c.shared.db.versions, x.bookingId = row.bookingId →
      ours x.tripId = true) :
    (c.shared.only mine ours).db.write bookingTable t row =
      (c.shared.db.write bookingTable t row).only fun row => ours row.tripId := by
  refine Db.write_only (h.parted hT) hrow hkey fun x _ hclash => ?_
  rw [← (rowsClash_iff.mp hclash).2.2.1]
  exact hrow

/-- What a request of the group asks the table, only the group's bookings answer. -/
theorem asked_own (hT : T.Apart mine ours) (h : T.Divided mine ours c) (hmine : mine t = true) {r : Request}
    (hr : T.requests[t]? = some r) {f : Filter} (hasks : f.AskedBy r)
    (hsweep : ∀ now, f = .overdue now → ∀ row ∈ c.shared.view t, f.holds row = true → ours row.tripId = mine t) :
    ∀ row ∈ c.shared.view t, f.holds row = true → ours row.tripId = true := by
  intro row hrow hholds
  have htrip : ∀ {tripId : String}, r.onTrip = some tripId → row.tripId = tripId → ours row.tripId = true := by
    rintro tripId hon rfl
    rw [hT.onTrip t r hr _ hon, hmine]
  cases f with
  | byReference reference =>
      obtain ⟨u, ⟨q, hq, -, href⟩, hside⟩ := h.booked row (Db.view_versions hrow)
      have hreference : row.reference = reference := by simpa [Filter.holds] using hholds
      rw [hside]
      exact hT.looksUp t u r q hr hq hmine
        ((show r.looksUp = some reference from hasks).trans (congrArg some (hreference.symm.trans href)))
  | activeForSeat tripId seatId =>
      have hfacts : (row.tripId = tripId ∧ row.seatId = some seatId) ∧ row.status.isActive = true := by
        simpa [Filter.holds] using hholds
      exact htrip hasks hfacts.1.1
  | activeForPassenger tripId passengerId =>
      have hfacts : (row.tripId = tripId ∧ row.passengerId = passengerId) ∧ row.status.isActive = true := by
        simpa [Filter.holds] using hholds
      exact htrip hasks hfacts.1.1
  | activeOnTrip tripId =>
      have hfacts : row.tripId = tripId ∧ row.status.isActive = true := by simpa [Filter.holds] using hholds
      rcases (show r.onTrip = some tripId ∨ r.searches = true from hasks) with hon | hsearch
      · exact htrip hon hfacts.1
      · rw [hT.searches t r hr hmine] at hsearch
        cases hsearch
  | inStatus tripId status =>
      have hfacts : row.tripId = tripId ∧ row.status = status := by simpa [Filter.holds] using hholds
      exact htrip hasks hfacts.1
  | overdue now => exact (hsweep now rfl row hrow hholds).trans hmine

/-- Inserting a booking of the group. -/
theorem insert_group (hT : T.Apart mine ours) (h : T.Divided mine ours c) {row : BookingRow}
    (hrow : ours row.tripId = true) (hkey : ∀ x ∈ c.shared.db.versions, x.bookingId = row.bookingId →
      ours x.tripId = true) :
    T.machine.exec t (.insert row) (c.shared.only mine ours) =
      Machine.seen (Server.only mine ours) (T.machine.exec t (.insert row) c.shared) := by
  have hmem : row.bookingId ∈ ((c.shared.only mine ours).view t).map BookingRow.bookingId ↔
      row.bookingId ∈ (c.shared.view t).map BookingRow.bookingId := by
    rw [view_only hT h, List.mem_map, List.mem_map]
    refine exists_congr fun x => and_congr_left fun hx => ?_
    exact List.mem_filter.trans (and_iff_left_of_imp fun hv => hkey x (Db.view_versions hv) hx)
  show (if row.bookingId ∈ ((c.shared.only mine ours).view t).map BookingRow.bookingId then _ else _) =
    Machine.seen _ (if row.bookingId ∈ (c.shared.view t).map BookingRow.bookingId then _ else _)
  by_cases hin : row.bookingId ∈ (c.shared.view t).map BookingRow.bookingId
  · rw [if_pos hin, if_pos (hmem.mpr hin)]
    rfl
  · rw [if_neg hin, if_neg fun hn => hin (hmem.mp hn), write_group hT h row hrow hkey]
    exact wrote_only _ _

/-- Updating a booking of the group. -/
theorem update_group (hT : T.Apart mine ours) (h : T.Divided mine ours c) {id : String} {status : BookingStatus}
    (hid : ∀ row ∈ c.shared.db.versions, row.bookingId = id → ours row.tripId = true) :
    T.machine.exec t (.updateStatus id status) (c.shared.only mine ours) =
      Machine.seen (Server.only mine ours) (T.machine.exec t (.updateStatus id status) c.shared) := by
  have hfound : lookup bookingTable.key id ((c.shared.only mine ours).view t) =
      lookup bookingTable.key id (c.shared.view t) := lookup_only hT h hid
  dsimp only [machine, Server.exec]
  rw [hfound]
  cases hrow : lookup bookingTable.key id (c.shared.view t) with
  | none => rfl
  | some row =>
      have hrowid : row.bookingId = id := lookup_some_key hrow
      have hours := hid row (Db.view_versions (lookup_some_mem hrow)) hrowid
      dsimp only
      rw [write_group hT h { row with status := status } hours fun x hx he => hid x hx (he.trans hrowid)]
      exact wrote_only _ _

/-- A commit of the group. -/
theorem commit_group (hT : T.Apart mine ours) (h : T.Divided mine ours c) (hmine : mine t = true) :
    T.machine.exec t .commit (c.shared.only mine ours) =
      Machine.seen (Server.only mine ours) (T.machine.exec t .commit c.shared) := by
  have hown : (c.shared.only mine ours).db.own t = c.shared.db.own t := by
    show (c.shared.db.only _).own t = _
    rw [Db.own_only, List.filter_eq_self]
    exact fun row hrow => (h.own (t, row) (Db.mem_own.mp hrow)).trans hmine
  have hserver : { c.shared.only mine ours with
        db := (c.shared.only mine ours).db.commit bookingTable t
        journal := (c.shared.only mine ours).journal ++ [(t, (c.shared.only mine ours).db.own t)] } =
      Server.only mine ours { c.shared with
        db := c.shared.db.commit bookingTable t, journal := c.shared.journal ++ [(t, c.shared.db.own t)] } := by
    rw [hown]
    unfold Server.only
    dsimp only
    rw [Db.commit_only (h.parted hT), filter_snoc_in (p := fun entry : Nat × List BookingRow => mine entry.1) hmine]
  exact congrArg (fun s => some ((Except.ok () : Except Err Unit), s)) hserver

/-- A charge of the group. -/
theorem charge_group (c : State) (hmine : mine t = true) (reference : String) (amount : Money) :
    T.machine.exec t (.charge reference amount) (c.shared.only mine ours) =
      Machine.seen (Server.only mine ours) (T.machine.exec t (.charge reference amount) c.shared) := by
  dsimp only [machine, Server.exec, Machine.seen, Option.map_some]
  by_cases hok : (T.gateway t reference amount).ok = true
  · rw [if_pos hok, if_pos hok]
    unfold Server.only
    dsimp only
    rw [filter_snoc_in (p := fun charge : Charge => mine charge.payer) hmine]
  · rw [if_neg hok, if_neg hok]

/-! ### One step of the whole -/

/-- **A statement of the group** has the same answer, wait and effect on the group's side. -/
theorem own_step (hT : T.Apart mine ours) (h : T.Divided mine ours c) (hsweep : SweepsOwn mine ours c t)
    (hmine : mine t = true) {o : Stmt} (hnext : c.next t = some o) :
    T.machine.exec t o (c.shared.only mine ours) =
      Machine.seen (Server.only mine ours) (T.machine.exec t o c.shared) := by
  obtain ⟨th, k, hth, hlive, hprog⟩ := Config.of_next hnext
  obtain ⟨r, hr, hissues⟩ := h.issues hth hprog
  have hasks : ∀ {q}, o = q → (∀ id status, q ≠ .updateStatus id status) → r.Asks q := by
    rintro q rfl hne
    exact hissues.resolve_right fun ⟨id, status, he, _⟩ => hne id status he
  cases o with
  | selectById id =>
      have hid : ∀ row ∈ c.shared.db.versions, row.bookingId = id → ours row.tripId = true :=
        fun row hrow he => (h.updates hT hth hr (Or.inl (hasks rfl (by simp))) row hrow he).trans hmine
      have hfound := lookup_only (t := t) hT h hid
      exact congrArg (fun x => some ((Except.ok x : Except Err (Option BookingRow)), c.shared.only mine ours)) hfound
  | select f =>
      have hown := asked_own hT h hmine hr (hasks rfl (by simp)) fun now hf => by
        subst hf
        exact hsweep now (by rw [hnext]; rfl)
      have hrows : ((c.shared.only mine ours).view t).filter f.holds = (c.shared.view t).filter f.holds := by
        rw [view_only hT h, List.filter_filter]
        refine List.filter_congr fun row hrow => ?_
        cases hf : f.holds row with
        | false => rfl
        | true => simp [hown row hrow hf]
      exact congrArg
        (fun x => some ((Except.ok ((T.scan t).order x) : Except Err (List BookingRow)), c.shared.only mine ours)) hrows
  | insert row =>
      obtain ⟨hid, -, htrip⟩ : r.Asks (.insert row) := hasks rfl (by simp)
      have hrow : ours row.tripId = true := (hT.onTrip t r hr _ htrip).trans hmine
      -- the id is fresh, so whatever has it is of the group as well
      have hkey : ∀ x ∈ c.shared.db.versions, x.bookingId = row.bookingId → ours x.tripId = true :=
        fun x hx he => (h.side hT hr hx (he.trans hid)).trans hmine
      exact insert_group hT h hrow hkey
  | updateStatus id status =>
      exact update_group hT h fun row hrow he => (h.updates hT hth hr hissues.names row hrow he).trans hmine
  | commit => exact commit_group hT h hmine
  | charge reference amount => exact charge_group c hmine reference amount
  | selectTrip id | selectTrips date | publish event | notify notice => rfl

/-- **A statement of the other group** leaves this one alone. -/
theorem other_step (hT : T.Apart mine ours) (h : T.Divided mine ours c) (hmine : mine t = false) {o : Stmt}
    (hnext : c.next t = some o) {a : Except Err o.Res} {s : Server}
    (hexec : T.machine.exec t o c.shared = some (a, s)) :
    s.only mine ours = c.shared.only mine ours := by
  obtain ⟨th, k, hth, hlive, hprog⟩ := Config.of_next hnext
  obtain ⟨r, hr, hissues⟩ := h.issues hth hprog
  have hown : ∀ x ∈ c.shared.db.own t, ours x.tripId = false := fun x hx =>
    (h.own (t, x) (Db.mem_own.mp hx)).trans hmine
  have hwritten : ∀ (row : BookingRow) {db : Db BookingRow}, ours row.tripId = false →
      c.shared.db.write bookingTable t row = .done db →
      Server.only mine ours { c.shared with db := db } = c.shared.only mine ours := fun row _ hrow hw => by
    unfold Server.only
    dsimp only
    rw [Db.only_write (p := fun row => ours row.tripId) hrow hown hw]
  cases Server.exec_effect hexec with
  | @inserted row db hfresh hw =>
      obtain ⟨-, -, htrip⟩ : r.Asks (.insert row) := hissues.resolve_right fun ⟨_, _, he, _⟩ => nomatch he
      exact hwritten row ((hT.onTrip t r hr _ htrip).trans hmine) hw
  | @updated id status row db hrow hw =>
      have hstored := Db.view_versions (lookup_some_mem hrow)
      have hside := h.updates hT hth hr hissues.names row hstored (lookup_some_key hrow)
      exact hwritten { row with status := status } (hside.trans hmine) hw
  | committed =>
      unfold Server.only
      dsimp only
      rw [Db.only_commit (h.parted hT) hown,
        filter_snoc_out (p := fun entry : Nat × List BookingRow => mine entry.1) hmine]
  | @charged reference amount hok =>
      unfold Server.only
      dsimp only
      rw [filter_snoc_out (p := fun charge : Charge => mine charge.payer) hmine]
  | _ => rfl

end Steps

/-! ## Runs -/

/-- **Groups of trips do not interfere.** In any interleaving in which no sweep finds anything overdue of the other
    group, striking the others' steps out leaves every request of the group with the statements, answers, waits and
    end it had, and the group's bookings, charges and commits as they were. -/
theorem groups_apart (T : Traffic) (mine : Nat → Bool) (ours : String → Bool) (hT : T.Apart mine ours)
    (sched : List Nat) (hsweeps : T.machine.Obeys (SweepsOwn mine ours) T.start sched) :
    (∀ t, mine t = true → (T.machine.runs T.start (sched.filter mine)).threads[t]? =
      (T.machine.runs T.start sched).threads[t]?) ∧
    (T.machine.runs T.start (sched.filter mine)).shared =
      (T.machine.runs T.start sched).shared.only mine ours := by
  have hstart : Machine.Projects mine (Server.only mine ours) T.start T.start := ⟨rfl, fun _ _ => rfl⟩
  have hrun := Machine.projects_runs T.machine T.machine (divided_step hT)
    (fun c t h hsweep hmine => ⟨fun o hnext => own_step hT h hsweep hmine hnext, ?_⟩)
    (fun c t h _ hmine => ⟨fun o a s hnext hexec => other_step hT h hmine hnext hexec, ?_⟩)
    divided_start hsweeps hstart
  · exact ⟨hrun.threads, hrun.shared⟩
  · exact congrArg (fun db => { c.shared.only mine ours with db := db }) Db.rollback_only.symm
  · have hown : ∀ x ∈ c.shared.db.own t, ours x.tripId = false := fun x hx =>
      (h.own (t, x) (Db.mem_own.mp hx)).trans hmine
    exact congrArg (fun db => { c.shared.only mine ours with db := db })
      (Db.only_rollback (p := fun row => ours row.tripId) hown)

/-! ## A passenger on two trains -/

/-- The slow train's hold and its confirmation, and the same seat number on the express for the same passenger. -/
def twoTrips : Traffic where
  trips    := sampleTrips
  requests := [slowHold, expressHold, slowConfirm]

/-- The two holds take turns; the confirmation comes last. -/
def alternating : List Nat := (List.replicate 10 [0, 1]).flatten ++ List.replicate 10 2

theorem twoTrips_cases {t : Nat} {r : Request} (h : twoTrips.requests[t]? = some r) :
    t = 0 ∧ r = slowHold ∨ t = 1 ∧ r = expressHold ∨ t = 2 ∧ r = slowConfirm := by
  match t, h with
  | 0, h => exact Or.inl ⟨rfl, (Option.some.inj h).symm⟩
  | 1, h => exact Or.inr (Or.inl ⟨rfl, (Option.some.inj h).symm⟩)
  | 2, h => exact Or.inr (Or.inr ⟨rfl, (Option.some.inj h).symm⟩)

theorem twoTrips_apart : twoTrips.Apart (fun t => t != 1) fun tripId => tripId == "slow" where
  ids := by decide
  onTrip t r hr tripId htrip := by
    rcases twoTrips_cases hr with ⟨rfl, rfl⟩ | ⟨rfl, rfl⟩ | ⟨rfl, rfl⟩
    · rw [← Option.some.inj htrip]
      rfl
    · rw [← Option.some.inj htrip]
      rfl
    · cases htrip
  subject t u r q hr hq hsubject := by
    rcases twoTrips_cases hr with ⟨rfl, rfl⟩ | ⟨rfl, rfl⟩ | ⟨rfl, rfl⟩
    · cases hsubject
    · cases hsubject
    · rcases twoTrips_cases hq with ⟨rfl, rfl⟩ | ⟨rfl, rfl⟩ | ⟨rfl, rfl⟩
      · rfl
      · exact absurd hsubject (by decide)
      · rfl
  looksUp t u r q hr hq hmine hlooks := by
    rcases twoTrips_cases hr with ⟨rfl, rfl⟩ | ⟨rfl, rfl⟩ | ⟨rfl, rfl⟩ <;> cases hlooks
  searches t r hr hmine := by
    rcases twoTrips_cases hr with ⟨rfl, rfl⟩ | ⟨rfl, rfl⟩ | ⟨rfl, rfl⟩ <;> rfl

/-- Both seats are sold, and the slow train's requests went as they would have gone alone. -/
theorem groups_apart_sample :
    (twoTrips.machine.runs twoTrips.start alternating).shared.db.committed.length = 2 ∧
    (∀ t, (t != 1) = true → (twoTrips.machine.runs twoTrips.start (alternating.filter (· != 1))).threads[t]? =
      (twoTrips.machine.runs twoTrips.start alternating).threads[t]?) ∧
    (twoTrips.machine.runs twoTrips.start (alternating.filter (· != 1))).shared =
      (twoTrips.machine.runs twoTrips.start alternating).shared.only (· != 1) (· == "slow") :=
  ⟨by decide +kernel, groups_apart twoTrips (· != 1) (· == "slow") twoTrips_apart alternating (by decide +kernel)⟩

end Traffic

end SlrBooking
