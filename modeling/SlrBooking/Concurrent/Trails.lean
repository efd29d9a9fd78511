import SlrBooking.Concurrent.Traffic
import SlrBooking.Runs.Outcomes

/-!
# `Concurrent.Trails` — what a request has done so far, and what it therefore does next

A request's `Trail` is folded from its log: whether its look-up of its own reference found nothing, the
booking it last read, the charge accepted for it, whether its paid write went through, whether it committed.
`Law` says which statement a request may issue at which point of its trail. Every use-case keeps to it
(`statements_lawful`), whatever the server and the gateway answer, so an invariant over all interleavings
can use it without unfolding a program again.

## Contents
- `Trail`, `Trail.note`, `Law`, `Settled`.
- One rule for each repository method that matters to the trail; the others are `Browsing`.
- `statements_lawful`.
-/

namespace SlrBooking

open Theory Rows

/-- What a request has learnt and done. -/
structure Trail where
  missed    : Bool := false
  seen      : Option BookingRow := none
  paid      : Option (String × Money) := none
  wrote     : Bool := false
  failed    : Bool := false
  committed : Bool := false

/-- One more statement with its answer. -/
def Trail.note (l : Trail) : (o : Stmt) → Except Err o.Res → Trail
  | .select (.byReference _), .ok rows => { l with missed := l.missed || rows.isEmpty }
  | .selectById _, .ok found => { l with seen := found, failed := l.failed || found.isNone }
  | .selectById _, .error _ => { l with failed := true }
  | .insert _, .ok _ => { l with wrote := true }
  | .insert _, .error _ => { l with failed := true }
  | .updateStatus _ _, .ok _ => if l.paid.isSome then { l with wrote := true } else l
  | .updateStatus _ _, .error _ => { l with failed := true }
  | .charge reference amount, .ok result => if result.ok then { l with paid := some (reference, amount) } else l
  | .commit, .ok _ => { l with committed := true }
  | .commit, .error _ => { l with failed := true }
  | .publish _, .error _ => { l with failed := true }
  | .notify _, .error _ => { l with failed := true }
  | _, _ => l

section Note

variable {l : Trail} {o : Stmt} (a : Except Err o.Res)

/-- Only a commit commits. -/
theorem note_committed (ho : o ≠ .commit) : (l.note o a).committed = l.committed := by
  cases o with
  | commit => exact absurd rfl ho
  | select f => cases f <;> cases a <;> rfl
  | updateStatus | charge =>
      cases a with
      | error e => rfl
      | ok x =>
          simp only [Trail.note]
          split <;> rfl
  | _ => cases a <;> rfl

/-- Only a look-up of a reference misses. -/
theorem note_missed (ho : ∀ q, o ≠ .select (.byReference q)) : (l.note o a).missed = l.missed := by
  cases o with
  | select f =>
      cases f with
      | byReference q => exact absurd rfl (ho q)
      | _ => cases a <;> rfl
  | updateStatus | charge =>
      cases a with
      | error e => rfl
      | ok x =>
          simp only [Trail.note]
          split <;> rfl
  | _ => cases a <;> rfl

/-- Only a charge pays. -/
theorem note_paid (ho : ∀ reference amount, o ≠ .charge reference amount) : (l.note o a).paid = l.paid := by
  cases o with
  | charge reference amount => exact absurd rfl (ho reference amount)
  | select f => cases f <;> cases a <;> rfl
  | updateStatus =>
      cases a with
      | error e => rfl
      | ok x =>
          simp only [Trail.note]
          split <;> rfl
  | _ => cases a <;> rfl

end Note

/-- What request `r` may issue at the point `l` of its trail. -/
def Law (r : Request) (l : Trail) : Stmt → Prop
  | .select (.byReference reference) => r.books = true → r.clientReference = some reference
  | .selectById bookingId => r.subject = some bookingId
  | .insert row => r.books = true ∧ row.bookingId = r.deps.newId ∧ row.reference = r.ticketRef ∧
      (r.clientReference ≠ none → l.missed = true) ∧ l.wrote = false ∧ l.committed = false ∧
      ((l.paid = none ∧ row.status = .held) ∨
        (l.paid = some (row.reference, ⟨row.fareCents⟩) ∧ (row.status = .confirmed ∨ row.status = .standing)))
  | .updateStatus bookingId status =>
      (l.paid = none ∧ (status = .expired ∨ status = .cancelled)) ∨
        (l.paid ≠ none ∧ r.subject = some bookingId ∧ status = .confirmed ∧ l.committed = false)
  | .charge reference amount => l.paid = none ∧ l.wrote = false ∧ l.failed = false ∧ l.committed = false ∧
      ((r.books = true ∧ reference = r.ticketRef ∧ (r.clientReference ≠ none → l.missed = true)) ∨
        (r.books = false ∧ ∃ row, l.seen = some row ∧ row.status = .held ∧ reference = row.reference ∧
          amount = ⟨row.fareCents⟩))
  | .commit => l.paid ≠ none → l.wrote = true ∧ l.failed = false ∧ l.committed = false
  | _ => True

/-- A request that got a charge accepted has committed, or one of its statements failed. -/
def Settled (l : Trail) : Prop := l.paid ≠ none → l.committed = true ∨ l.failed = true

theorem settled_of_unpaid {l : Trail} (h : l.paid = none) : Settled l := fun hp => absurd h hp

/-- `p` keeps to the law of `r` from the trail `l` and ends as `K` says. -/
abbrev Lawful {α : Type} (r : Request) (K : Trail → Except Err α → Prop) (l : Trail) (p : Prog Stmts Err α) : Prop :=
  Prog.Outline (Law r) Trail.note K l p

/-! ## Statements that leave the trail alone -/

/-- Reads of the trips and of bookings other than by id or reference. -/
def Browsing : Stmt → Prop
  | .select (.byReference _) => False
  | .select _ | .selectTrip _ | .selectTrips _ => True
  | _ => False

/-- The port operations made of such statements. -/
def PortBrowsing : PortOp → Prop
  | .activeForSeat .. | .activeForPassenger .. | .activeHolds _ | .byStatus .. | .getTrip _ | .findByDate _ => True
  | _ => False

theorem browsing_method {o : PortOp} (ho : PortBrowsing o) : (SqlRepo.method o).Only Browsing := by
  refine (SqlRepo.method_issues o).mono fun q hq => ?_
  cases o with
  | addHold | get | byReference | setStatus | expireDue | commit | charge | publish | notify => exact ho.elim
  | _ =>
      rw [show q = _ from hq]
      trivial

section Rules

variable {r : Request} {l : Trail}

theorem law_browsing {o : Stmt} (ho : Browsing o) : Law r l o := by
  cases o with
  | select f =>
      cases f with
      | byReference => exact ho.elim
      | _ => trivial
  | selectTrip | selectTrips => trivial
  | _ => exact ho.elim

theorem note_browsing {o : Stmt} (a : Except Err o.Res) (ho : Browsing o) : l.note o a = l := by
  cases o with
  | select f =>
      cases f with
      | byReference => exact ho.elim
      | _ => cases a <;> rfl
  | selectTrip | selectTrips => cases a <;> rfl
  | _ => exact ho.elim

/-- **Browsing** leaves the trail alone; what it returns is what the program can return. -/
theorem lawful_browse {α : Type} {P : α → Prop} {K : Trail → Except Err α → Prop} {p : Prog Ports Err α}
    (hp : p.Only PortBrowsing) (hy : p.Yields P) (hok : ∀ a, P a → K l (.ok a)) (herr : ∀ e, K l (.error e)) :
    Lawful r K l (p.translate SqlRepo.method) := by
  have hout : Prog.Outline (Law r) Trail.note (fun l' a => l' = l ∧ ∀ b, a = .ok b → P b) l
    (p.translate SqlRepo.method) :=
    Prog.outline_of_only (fun o => law_browsing) (fun o a => note_browsing a)
      (hp.translate SqlRepo.method fun o => browsing_method) (hy.translate SqlRepo.method)
  refine hout.mono fun l' a ha => ?_
  obtain ⟨rfl, hval⟩ := ha
  cases a with
  | ok a => exact hok a (hval a rfl)
  | error e => exact herr e

/-! ## Statements the trail notes -/

theorem lawful_stmt (o : Stmt) {K : Trail → Except Err o.Res → Prop} (hlaw : Law r l o)
    (h : ∀ a, K (l.note o a) a) : Lawful r K l (Prog.call (S := Stmts) o) :=
  Prog.outline_call.mpr ⟨hlaw, h⟩

theorem lawful_bind {α β : Type} {K : Trail → Except Err β → Prop} {p : Prog Stmts Err α} {f : α → Prog Stmts Err β}
    (hp : Lawful r (fun l' a => match a with
      | .ok a => Lawful r K l' (f a)
      | .error e => K l' (.error e)) l p) : Lawful r K l (p.bind f) := by
  refine Prog.outline_bind.mpr (hp.mono fun l' a ha => ?_)
  cases a with
  | ok a => exact ha
  | error e => exact ha

theorem lawful_byReference {reference : String} {K : Trail → Except Err (Option Hold) → Prop}
    (hlaw : r.books = true → r.clientReference = some reference)
    (hnone : K { l with missed := true } (.ok none)) (hsome : ∀ h, K l (.ok (some h)))
    (herr : ∀ e, K l (.error e)) : Lawful r K l (SqlRepo.byReference reference) := by
  refine lawful_bind (lawful_stmt (.select (.byReference reference)) hlaw fun a => ?_)
  cases a with
  | error e => exact herr e
  | ok rows =>
      cases rows with
      | nil =>
          show K { l with missed := l.missed || true } _
          rw [Bool.or_true]
          exact hnone
      | cons row rest =>
          show K { l with missed := l.missed || false } _
          rw [Bool.or_false]
          exact hsome (toHold row)

theorem lawful_get {id : String} {K : Trail → Except Err Hold → Prop} (hlaw : r.subject = some id)
    (hok : ∀ row, K { l with seen := some row } (.ok (toHold row)))
    (herr : ∀ l' e, l'.paid = l.paid → K l' (.error e)) : Lawful r K l (SqlRepo.get id) := by
  refine lawful_bind (lawful_stmt (.selectById id) hlaw fun a => ?_)
  cases a with
  | error e => exact herr _ e rfl
  | ok found =>
      cases found with
      | none => exact herr _ _ rfl
      | some row =>
          show K { l with seen := some row, failed := l.failed || false } _
          rw [Bool.or_false]
          exact hok row

theorem lawful_insert {row : BookingRow} {K : Trail → Except Err Unit → Prop} (hlaw : Law r l (.insert row))
    (hok : K { l with wrote := true } (.ok ())) (herr : ∀ e, K { l with failed := true } (.error e)) :
    Lawful r K l (SqlRepo.insert row) := by
  refine lawful_stmt (.insert row) hlaw fun a => ?_
  cases a with
  | ok u => exact hok
  | error e => exact herr e

theorem lawful_addHold {hold : Hold} {K : Trail → Except Err Unit → Prop} (hlaw : Law r l (.insert (toRow hold)))
    (hok : K { l with wrote := true } (.ok ())) (herr : ∀ e, K { l with failed := true } (.error e)) :
    Lawful r K l (SqlRepo.addHold hold) := by
  refine Prog.outline_rescue.mpr (lawful_insert hlaw hok fun e => ?_)
  cases e with
  | integrityError c =>
      dsimp only
      split
      · exact herr _
      · exact herr _
  | _ => exact herr _

/-- A status update before any charge leaves the trail alone unless it fails. -/
theorem lawful_updateStatus_unpaid {id : String} {status : BookingStatus} {K : Trail → Except Err Unit → Prop}
    (hunpaid : l.paid = none) (hstatus : status = .expired ∨ status = .cancelled) (hok : K l (.ok ()))
    (herr : ∀ e, K { l with failed := true } (.error e)) : Lawful r K l (SqlRepo.updateStatus id status) := by
  refine lawful_stmt (.updateStatus id status) (Or.inl ⟨hunpaid, hstatus⟩) fun a => ?_
  cases a with
  | error e => exact herr e
  | ok u =>
      show K (if l.paid.isSome then { l with wrote := true } else l) _
      rw [hunpaid]
      exact hok

theorem lawful_expireRows (rows : List BookingRow) {K : Trail → Except Err (List Hold) → Prop}
    (hunpaid : l.paid = none) (hok : ∀ hs, K l (.ok hs)) (herr : ∀ e, K { l with failed := true } (.error e)) :
    Lawful r K l (SqlRepo.expireRows rows) := by
  induction rows generalizing K with
  | nil => exact hok []
  | cons row rest ih =>
      refine lawful_bind (lawful_updateStatus_unpaid hunpaid (Or.inl rfl) ?_ herr)
      refine lawful_bind (ih (fun hs => ?_) herr)
      exact hok _

/-- The sweep runs before any charge; only a failed update leaves a mark. -/
theorem lawful_expireDue {now : Int} {K : Trail → Except Err (List Hold) → Prop} (hunpaid : l.paid = none)
    (hok : ∀ hs, K l (.ok hs)) (herr : ∀ l' e, l'.paid = none → K l' (.error e)) :
    Lawful r K l (SqlRepo.expireDue now) := by
  refine lawful_bind (lawful_stmt (.select (.overdue now)) trivial fun a => ?_)
  cases a with
  | error e => exact herr l e hunpaid
  | ok rows => exact lawful_expireRows rows hunpaid hok fun e => herr _ e hunpaid

theorem lawful_commit {K : Trail → Except Err Unit → Prop} (hlaw : Law r l .commit)
    (hok : K { l with committed := true } (.ok ())) (herr : ∀ e, K { l with failed := true } (.error e)) :
    Lawful r K l (SqlRepo.method .commit) := by
  refine lawful_stmt .commit hlaw fun a => ?_
  cases a with
  | ok u => exact hok
  | error e => exact herr e

theorem lawful_charge {reference : String} {amount : Money} {K : Trail → Except Err PaymentResult → Prop}
    (hlaw : Law r l (.charge reference amount))
    (hyes : ∀ res : PaymentResult, res.ok = true → K { l with paid := some (reference, amount) } (.ok res))
    (hno : ∀ res : PaymentResult, res.ok = false → K l (.ok res)) (herr : ∀ e, K l (.error e)) :
    Lawful r K l (SqlRepo.method (.charge reference amount)) := by
  refine lawful_stmt (.charge reference amount) hlaw fun a => ?_
  cases a with
  | error e => exact herr e
  | ok res =>
      show K (if res.ok then { l with paid := some (reference, amount) } else l) _
      cases hres : res.ok with
      | true => exact hyes res hres
      | false => exact hno res hres

theorem lawful_publish {event : AvailabilityEvent} {K : Trail → Except Err Unit → Prop} (hok : K l (.ok ()))
    (herr : ∀ e, K { l with failed := true } (.error e)) : Lawful r K l (SqlRepo.method (.publish event)) := by
  refine lawful_stmt (.publish event) trivial fun a => ?_
  cases a with
  | ok u => exact hok
  | error e => exact herr e

theorem lawful_notify {notice : Notice} {K : Trail → Except Err Unit → Prop} (hok : K l (.ok ()))
    (herr : ∀ e, K { l with failed := true } (.error e)) : Lawful r K l (SqlRepo.method (.notify notice)) := by
  refine lawful_stmt (.notify notice) trivial fun a => ?_
  cases a with
  | ok u => exact hok
  | error e => exact herr e

/-- Read the row again, then write its status. -/
theorem lawful_setStatus {id : String} {status : BookingStatus} {K : Trail → Except Err Hold → Prop}
    (hlaw : r.subject = some id)
    (hupdate : ∀ row, Lawful r (fun l' a => match a with
      | .ok _ => K l' (.ok (toHold { row with status := status }))
      | .error e => K l' (.error e)) { l with seen := some row } (SqlRepo.updateStatus id status))
    (hraised : ∀ l' e, l'.paid = l.paid → l'.failed = true → K l' (.error e)) :
    Lawful r K l (SqlRepo.setStatus id status) := by
  refine lawful_bind (lawful_stmt (.selectById id) hlaw fun a => ?_)
  cases a with
  | error e => exact hraised _ e rfl rfl
  | ok found =>
      cases found with
      | none =>
          refine hraised _ _ rfl ?_
          exact Bool.or_true _
      | some row =>
          show Lawful r K { l with seen := some row, failed := l.failed || false } _
          rw [Bool.or_false]
          refine lawful_bind ((hupdate row).mono fun l' a ha => ?_)
          cases a with
          | ok u => exact ha
          | error e => exact ha

end Rules

/-! ## The use-cases -/

/-- The request has looked its reference up, found nothing, and done nothing else. -/
structure Open (r : Request) (l : Trail) : Prop where
  unpaid    : l.paid = none
  unwritten : l.wrote = false
  unfailed  : l.failed = false
  uncommitted : l.committed = false
  missed    : r.clientReference ≠ none → l.missed = true

section UseCases

variable {r : Request}

theorem lawful_lookupReplay {reference : Option String} (href : r.clientReference = reference)
    {K : Trail → Except Err (Option Hold) → Prop} (hopen : ∀ l, Open r l → K l (.ok none))
    (hsome : ∀ h, K {} (.ok (some h))) (herr : ∀ e, K {} (.error e)) :
    Lawful r K {} ((lookupReplay reference).translate SqlRepo.method) := by
  cases reference with
  | none => exact hopen {} ⟨rfl, rfl, rfl, rfl, fun h => absurd href h⟩
  | some reference =>
      rw [lookupReplay, Bookings.byReference, Prog.translate_call]
      exact lawful_byReference (fun _ => href) (hopen _ ⟨rfl, rfl, rfl, rfl, fun _ => rfl⟩) hsome herr

theorem browses_enforceAntiTout (deps : Deps) (t p : String) (now : Int) :
    (enforceAntiTout deps t p now).Only PortBrowsing :=
  Prog.Only.bind (Prog.only_call trivial) fun _ => Prog.only_ofExcept _

theorem browses_draftHold (deps : Deps) (t s : String) (leg : Leg) (p n : String) (ref : Option String) :
    (draftHold deps t s leg p n ref).Only PortBrowsing :=
  Prog.Only.bind (Prog.only_call trivial) fun _ => (Prog.only_ofExcept _).bind fun _ =>
    (Prog.only_ofExcept _).bind fun _ => (browses_enforceAntiTout deps t p _).bind fun _ =>
      (only_priceLeg deps (fun _ => trivial) _ leg _).bind fun _ => (Prog.only_ofExcept _).bind fun _ =>
        Prog.only_ret _

theorem yields_draftHold (deps : Deps) (t s : String) (leg : Leg) (p n : String) (ref : Option String) :
    (draftHold deps t s leg p n ref).Yields fun h => ∃ seat fare ttl, h = newHold deps t s leg p n ref seat fare ttl :=
  (Prog.yields_true _).bind fun _ _ => (Prog.yields_true _).bind fun _ _ => (Prog.yields_true _).bind fun seat _ =>
    (Prog.yields_true _).bind fun _ _ => (Prog.yields_true _).bind fun fare _ =>
      (Prog.yields_true _).bind fun ttl _ => ⟨seat, fare, ttl, rfl⟩

/-- A sequence of port operations, as statements. -/
theorem lawful_seq {α β : Type} {l : Trail} {K : Trail → Except Err β → Prop} {p : Prog Ports Err α}
    {f : α → Prog Ports Err β} (hp : Lawful r (fun l' a => match a with
      | .ok a => Lawful r K l' ((f a).translate SqlRepo.method)
      | .error e => K l' (.error e)) l (p.translate SqlRepo.method)) :
    Lawful r K l ((p >>= f).translate SqlRepo.method) := by
  rw [Prog.bind_eq, Prog.translate_bind]
  exact lawful_bind hp

theorem lawful_call (o : PortOp) {l : Trail} {K : Trail → Except Err o.Res → Prop}
    (h : Lawful r K l (SqlRepo.method o)) : Lawful r K l ((Prog.call (S := Ports) o).translate SqlRepo.method) := by
  rw [Prog.translate_call]
  exact h

theorem lawful_ofExcept {α : Type} {l : Trail} {K : Trail → Except Err α → Prop} {x : Except Err α} (h : K l x) :
    Lawful r K l ((Prog.ofExcept x : Prog Ports Err α).translate SqlRepo.method) := by
  rw [Prog.translate_ofExcept]
  exact Prog.outline_ofExcept.mpr h

/-! ### Holds -/

theorem lawful_placeHold {hold : Hold} {l : Trail} (hunpaid : l.paid = none)
    (hlaw : Law r l (.insert (toRow hold))) :
    Lawful r (fun l _ => Settled l) l ((placeHold hold).translate SqlRepo.method) := by
  have hsettled : ∀ l' : Trail, l'.paid = l.paid → Settled l' := fun l' h => settled_of_unpaid (h.trans hunpaid)
  refine lawful_seq (lawful_call (.addHold hold) (lawful_addHold hlaw ?_ fun _ => hsettled _ rfl))
  refine lawful_seq (lawful_call (.publish _) (lawful_publish ?_ fun _ => hsettled _ rfl))
  refine lawful_seq (lawful_call (.notify _) (lawful_notify ?_ fun _ => hsettled _ rfl))
  refine lawful_seq (lawful_call .commit (lawful_commit (fun h => absurd hunpaid h) ?_ fun _ => hsettled _ rfl))
  exact hsettled _ rfl

theorem lawful_hold {t s : String} {leg : Leg} {p n : String} {ref : Option String}
    (hcall : r.call = .hold t s leg p n ref) : Lawful r (fun l _ => Settled l) {}
      ((holdSeat r.deps t s leg p n ref).translate SqlRepo.method) := by
  have href : r.clientReference = ref := by
    unfold Request.clientReference
    rw [hcall]
  have hbooks : r.books = true := by
    unfold Request.books
    rw [hcall]
  have hidle : Settled {} := settled_of_unpaid rfl
  refine lawful_seq (lawful_lookupReplay href (fun l hl => ?_) (fun _ => hidle) fun _ => hidle)
  -- the reference is free: sweep, draft, place
  refine lawful_seq (lawful_call (.expireDue r.deps.now) (lawful_expireDue hl.unpaid (fun _ => ?_) fun _ _ h =>
    settled_of_unpaid h))
  refine lawful_seq (lawful_browse (browses_draftHold _ _ _ _ _ _ _) (yields_draftHold _ _ _ _ _ _ _) ?_
    fun _ => settled_of_unpaid hl.unpaid)
  rintro hold ⟨seat, fare, ttl, rfl⟩
  refine lawful_placeHold hl.unpaid ⟨hbooks, rfl, ?_, hl.missed, hl.unwritten, hl.uncommitted, Or.inl ⟨hl.unpaid, rfl⟩⟩
  show orFresh ref r.deps.newReference = orFresh r.clientReference r.deps.newReference
  rw [href]

/-! ### Counter sales

The charge comes after every check, so a sale that raises after it has failed at a statement; what remains is to
insert, to tell and to commit. -/

/-- A paid sale: insert, tell the outside, commit. -/
theorem lawful_issueTicket {sold : Hold} {a : Admission} {l : Trail} (hunfailed : l.failed = false)
    (huncommitted : l.committed = false) (hlaw : Law r l (.insert (toRow sold))) :
    Lawful r (fun l _ => Settled l) l ((issueTicket r.deps sold a).translate SqlRepo.method) := by
  have hfailed : ∀ l' : Trail, l'.failed = true → Settled l' := fun _ h _ => Or.inr h
  refine lawful_seq (lawful_call (.addHold sold) (lawful_addHold hlaw ?_ fun _ => hfailed _ rfl))
  have hrest : ∀ receipt : Except Err Receipt, Lawful r (fun l _ => Settled l) { l with wrote := true }
      (Prog.translate SqlRepo.method (S := Ports) (do
        notify sold.passengerId "counter_sale" [("reference", sold.reference), ("status", sold.status.value)]
        commit
        Prog.ofExcept receipt)) := by
    intro receipt
    refine lawful_seq (lawful_call (.notify _) (lawful_notify ?_ fun _ => hfailed _ rfl))
    refine lawful_seq (lawful_call .commit (lawful_commit (fun _ => ⟨rfl, hunfailed, huncommitted⟩) ?_
      fun _ => hfailed _ rfl))
    exact lawful_ofExcept fun _ => Or.inl rfl
  dsimp only
  cases a.seat with
  | some seat => exact lawful_seq (lawful_call (.publish _) (lawful_publish (hrest _) fun _ => hfailed _ rfl))
  | none => exact hrest _

theorem browses_poolLegs (t : String) : ∀ pool, (poolLegs t pool).Only PortBrowsing
  | [] => Prog.only_ret _
  | _ :: rest => Prog.Only.bind (Prog.only_call trivial) fun _ =>
    (browses_poolLegs t rest).bind fun _ => Prog.only_ret _

theorem browses_assignSeat (deps : Deps) (t : String) (leg : Leg) (c : TravelClass) (pool : List Seat) :
    (assignSeat deps t leg c pool).Only PortBrowsing := by
  refine (browses_poolLegs t pool).bind fun seatLegs => ?_
  split
  · exact Prog.only_ret _
  · refine Prog.Only.bind ?_ fun _ => (Prog.only_ofExcept _).bind fun _ => Prog.only_ret _
    refine Prog.Only.bind (Prog.only_call trivial) fun _ => (Prog.only_ofExcept _).bind fun _ => ?_
    split
    · exact Prog.only_raise _
    · exact Prog.only_ret _

theorem browses_admitSale (deps : Deps) (t : String) (leg : Leg) (p : String) (c : TravelClass) :
    (admitSale deps t leg p c).Only PortBrowsing := by
  refine Prog.Only.bind (Prog.only_call trivial) fun trip => (Prog.only_ofExcept _).bind fun _ =>
    (browses_enforceAntiTout deps t p _).bind fun _ => ?_
  dsimp only
  split
  · exact Prog.only_raise _
  · exact (browses_assignSeat deps t leg c _).bind fun _ =>
      (only_priceLeg deps (fun _ => trivial) trip leg c).bind fun _ => Prog.only_ret _

theorem lawful_sell {t : String} {leg : Leg} {p n : String} {c : TravelClass} {ref : Option String}
    (hcall : r.call = .sell t leg p n c ref) : Lawful r (fun l _ => Settled l) {}
      ((sellUnreserved r.deps t leg p n c ref).translate SqlRepo.method) := by
  have href : r.clientReference = ref := by
    unfold Request.clientReference
    rw [hcall]
  have hbooks : r.books = true := by
    unfold Request.books
    rw [hcall]
  have hidle : Settled {} := settled_of_unpaid rfl
  refine lawful_seq (lawful_lookupReplay href (fun l hl => ?_) (fun existing => ?_) fun _ => hidle)
  · have hdone : Settled l := settled_of_unpaid hl.unpaid
    have hticket : orFresh ref r.deps.newReference = r.ticketRef := by
      unfold Request.ticketRef
      rw [href]
    refine lawful_seq (lawful_call (.expireDue r.deps.now) (lawful_expireDue hl.unpaid (fun _ => ?_)
      fun _ _ h => settled_of_unpaid h))
    refine lawful_seq (lawful_browse (browses_admitSale _ _ _ _ _) (Prog.yields_true _) (fun a _ => ?_) fun _ => hdone)
    refine lawful_seq (lawful_call (.charge _ a.fare) (lawful_charge
      ⟨hl.unpaid, hl.unwritten, hl.unfailed, hl.uncommitted, Or.inl ⟨hbooks, hticket, hl.missed⟩⟩
      (fun res hres => ?_) (fun res hres => ?_) fun _ => hdone))
    · -- accepted
      refine lawful_seq (lawful_ofExcept ?_)
      rw [requireAccepted, if_pos hres]
      refine lawful_issueTicket hl.unfailed hl.uncommitted
        ⟨hbooks, rfl, hticket, hl.missed, hl.unwritten, hl.uncommitted, Or.inr ⟨rfl, ?_⟩⟩
      cases a.seat with
      | some seat => exact Or.inl rfl
      | none => exact Or.inr rfl
    · refine lawful_seq (lawful_ofExcept ?_)
      rw [requireAccepted, if_neg (by simp [hres])]
      exact hdone
  · exact lawful_browse (Prog.Only.bind (Prog.only_call trivial) fun _ => Prog.only_ofExcept _) (Prog.yields_true _)
      (fun _ _ => hidle) fun _ => hidle

/-! ### Confirms and cancels

Both read their booking by id before anything else; a confirm writes after its charge, and only the status. -/

/-- Read the booking by id; an unknown one raises. -/
theorem lawful_getBooking {id : String} {l : Trail} {K : Trail → Except Err Hold → Prop} (hlaw : r.subject = some id)
    (hok : ∀ row, K { l with seen := some row } (.ok (toHold row)))
    (herr : ∀ l' e, l'.paid = l.paid → K l' (.error e)) :
    Lawful r K l ((getBooking id).translate SqlRepo.method) := by
  unfold getBooking
  rw [Prog.tryCatch_eq, Prog.translate_rescue, Bookings.get, Prog.translate_call]
  refine Prog.outline_rescue.mpr (lawful_get hlaw hok fun l' e he => ?_)
  cases e with
  | keyError => exact herr l' _ he
  | _ => exact herr l' _ he

/-- After the charge: write, tell the outside, commit. -/
theorem lawful_settleConfirm {id : String} {hold : Hold} {trip : Trip} {l : Trail} (hsubject : r.subject = some id)
    (hpaid : l.paid ≠ none) (hunfailed : l.failed = false) (huncommitted : l.committed = false) :
    Lawful r (fun l _ => Settled l) l ((settleConfirm r.deps id hold .confirmed trip).translate SqlRepo.method) := by
  have hfailed : ∀ l' : Trail, l'.failed = true → Settled l' := fun _ h _ => Or.inr h
  refine lawful_seq (lawful_call (.setStatus id .confirmed) (lawful_setStatus hsubject (fun row => ?_)
    fun l' _ _ h => hfailed l' h))
  refine lawful_stmt (.updateStatus id .confirmed) (Or.inr ⟨hpaid, hsubject, rfl, huncommitted⟩) fun a => ?_
  cases a with
  | error e => exact hfailed _ rfl
  | ok u =>
      have hwrote : Trail.note { l with seen := some row } (.updateStatus id .confirmed) (.ok u) =
          { l with seen := some row, wrote := true } := if_pos (Option.isSome_iff_ne_none.mpr hpaid)
      rw [hwrote]
      refine lawful_seq (lawful_call (.publish _) (lawful_publish ?_ fun _ => hfailed _ rfl))
      refine lawful_seq (lawful_call (.notify _) (lawful_notify ?_ fun _ => hfailed _ rfl))
      refine lawful_seq (lawful_call .commit (lawful_commit (fun _ => ⟨rfl, hunfailed, huncommitted⟩) ?_
        fun _ => hfailed _ rfl))
      exact lawful_ofExcept fun _ => Or.inl rfl

theorem lawful_confirm {id : String} (hcall : r.call = .confirm id) : Lawful r (fun l _ => Settled l) {}
    ((confirmBooking r.deps id).translate SqlRepo.method) := by
  have hsubject : r.subject = some id := by
    unfold Request.subject
    rw [hcall]
  have hbooks : r.books = false := by
    unfold Request.books
    rw [hcall]
  have hunpaid : ∀ l' : Trail, l'.paid = none → Settled l' := fun _ => settled_of_unpaid
  refine lawful_seq (lawful_call (.expireDue r.deps.now) (lawful_expireDue rfl (fun _ => ?_) fun l' _ => hunpaid l'))
  refine lawful_seq (lawful_seq (lawful_getBooking hsubject (fun row => ?_) fun l' _ => hunpaid l'))
  refine lawful_seq (lawful_ofExcept ?_)
  cases htarget : BookingSm.apply (toHold row).status .confirm with
  | error e => exact hunpaid _ rfl
  | ok target =>
      obtain ⟨hheld, rfl⟩ := BookingSm.apply_confirm.mp htarget
      refine lawful_seq (lawful_browse (Prog.only_call trivial) (Prog.yields_true _) (fun trip _ => ?_)
        fun _ => hunpaid _ rfl)
      refine lawful_seq (lawful_call (.charge (toHold row).reference ⟨(toHold row).fareCents⟩) (lawful_charge
        ⟨rfl, rfl, rfl, rfl, Or.inr ⟨hbooks, row, rfl, hheld, rfl, rfl⟩⟩ (fun res hres => ?_) (fun res hres => ?_)
        fun _ => hunpaid _ rfl))
      · refine lawful_seq (lawful_ofExcept ?_)
        rw [requireAccepted, if_pos hres]
        exact lawful_settleConfirm hsubject (by simp) rfl rfl
      · refine lawful_seq (lawful_ofExcept ?_)
        rw [requireAccepted, if_neg (by simp [hres])]
        exact hunpaid _ rfl

theorem lawful_cancel {id : String} (hcall : r.call = .cancel id) : Lawful r (fun l _ => Settled l) {}
    ((cancelBooking id).translate SqlRepo.method) := by
  have hsubject : r.subject = some id := by
    unfold Request.subject
    rw [hcall]
  have hunpaid : ∀ l' : Trail, l'.paid = none → Settled l' := fun _ => settled_of_unpaid
  refine lawful_seq (lawful_getBooking hsubject (fun row => ?_) fun l' _ => hunpaid l')
  refine lawful_seq (lawful_ofExcept ?_)
  cases BookingSm.apply (toHold row).status .cancel with
  | error e => exact hunpaid _ rfl
  | ok target =>
      refine lawful_seq (lawful_call (.setStatus id .cancelled) (lawful_setStatus hsubject (fun row' => ?_)
        fun l' _ h _ => hunpaid l' h))
      refine lawful_updateStatus_unpaid rfl (Or.inr rfl) ?_ fun _ => hunpaid _ rfl
      have hrest : ∀ cancelled : Hold, Lawful r (fun l _ => Settled l) { seen := some row' }
          (Prog.translate SqlRepo.method (S := Ports) (do
            notify (toHold row).passengerId "booking_cancelled" [("reference", (toHold row).reference)]
            commit
            return cancelled)) := by
        intro cancelled
        refine lawful_seq (lawful_call (.notify _) (lawful_notify ?_ fun _ => hunpaid _ rfl))
        refine lawful_seq (lawful_call .commit (lawful_commit (fun h => absurd rfl h) ?_ fun _ => hunpaid _ rfl))
        exact hunpaid _ rfl
      dsimp only
      split
      · exact lawful_seq (lawful_call (.publish _) (lawful_publish (hrest _) fun _ => hunpaid _ rfl))
      · exact hrest _

/-! ### Calls that only read and sweep -/

/-- The statements of the use-cases that only read and sweep. -/
def ReaderStmt : Stmt → Prop
  | .select _ | .selectTrip _ | .selectTrips _ | .commit => True
  | .updateStatus _ status => status = .expired
  | _ => False

theorem reader_method {now : Int} {o : PortOp} (ho : ReadsAndSweeps now o) : (SqlRepo.method o).Only ReaderStmt := by
  refine (SqlRepo.method_issues o).mono fun q hq => ?_
  cases o with
  | addHold | get | setStatus | charge | publish | notify => exact ho.elim
  | expireDue =>
      rcases hq with rfl | ⟨_, rfl⟩
      · trivial
      · rfl
  | _ =>
      rw [show q = _ from hq]
      trivial

/-- A reading use-case never has a charge accepted. -/
theorem lawful_reader {α : Type} {now : Int} {p : Prog Ports Err α} (hbooks : r.books = false)
    (hp : p.Only (ReadsAndSweeps now)) : Lawful r (fun l _ => Settled l) {} (p.translate SqlRepo.method) := by
  have hout : Lawful r (fun l _ => l.paid = none) {} (p.translate SqlRepo.method) := by
    refine Prog.outline_invariant (I := fun l : Trail => l.paid = none) (fun l o hl ho => ?_) (fun l o a hl ho => ?_)
      (hp.translate SqlRepo.method fun o => reader_method) (show ({} : Trail).paid = none from rfl)
    · cases o with
      | select f =>
          cases f with
          | byReference =>
              intro h
              rw [hbooks] at h
              cases h
          | _ => trivial
      | selectTrip | selectTrips => trivial
      | updateStatus => exact Or.inl ⟨hl, Or.inl ho⟩
      | commit => exact fun h => absurd hl h
      | _ => exact ho.elim
    · cases o with
      | select f => cases f <;> cases a <;> exact hl
      | selectTrip | selectTrips | commit => cases a <;> exact hl
      | updateStatus id status =>
          cases a with
          | error e => exact hl
          | ok u =>
              show (if l.paid.isSome then { l with wrote := true } else l).paid = none
              rw [hl]
              exact hl
      | _ => exact ho.elim
  exact hout.mono fun l _ => settled_of_unpaid

end UseCases

/-- **Every request keeps to the law**, whatever it is answered. -/
theorem statements_lawful (r : Request) : Lawful r (fun l _ => Settled l) {} r.statements := by
  have hprogram : Lawful r (fun l _ => Settled l) {} ((r.call.program r.deps).translate SqlRepo.method) := by
    cases hcall : r.call with
    | hold => exact lawful_hold hcall
    | confirm => exact lawful_confirm hcall
    | cancel => exact lawful_cancel hcall
    | sell => exact lawful_sell hcall
    | verify => exact lawful_reader (by rw [Request.books, hcall]) (reads_verifyTicket r.deps _)
    | search => exact lawful_reader (by rw [Request.books, hcall]) (reads_searchTrains r.deps _ _ _)
    | availability => exact lawful_reader (by rw [Request.books, hcall]) (reads_legAvailability r.deps _ _)
    | quote => exact lawful_reader (by rw [Request.books, hcall]) (reads_quoteFare r.deps _ _ _)
  refine lawful_bind (hprogram.mono fun l a ha => ?_)
  cases a with
  | ok a => exact ha
  | error e => exact ha

/-! ## Trails in a run -/

namespace Traffic

variable (T : Traffic)

def trail (th : Thread Stmts Err Unit) : Trail := Machine.know Trail.note {} th

/-- Every request in flight keeps to the law from where its trail stands. -/
def Lawfully (c : State) : Prop :=
  Machine.Follows (fun t l o => ∃ r, T.requests[t]? = some r ∧ Law r l o) Trail.note {} (fun _ l _ => Settled l) c

theorem lawfully_start : T.Lawfully T.start := by
  intro t th hth
  obtain ⟨r, hr, rfl⟩ := Option.map_eq_some_iff.mp ((List.getElem?_map ..).symm.trans hth)
  exact (statements_lawful r).mono_pre fun l o ho => ⟨r, hr, ho⟩

end Traffic

end SlrBooking
