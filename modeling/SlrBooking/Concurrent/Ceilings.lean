import SlrBooking.Concurrent.Traffic
import SlrBooking.Runs.Outcomes

/-!
# `Concurrent.Ceilings` — capacity ceilings under interleaved counts and inserts

A request counts the rows of one kind, and if it found room it goes on to insert one more. It is *admitted* from
that count until it commits or ends. As long as the rows a request finds, the other admitted requests and its
own booking together stay within the ceiling, so do the committed rows: a commit adds at most the one row of
an admitted request, and none if it retires a counted row by the same stroke. Two requests that count before
either commits both get in.

## Contents
- `Ceiling`, `Ceiling.seats`, `Ceiling.standing`, `Ceiling.passed`.
- `Heed`: what a request may insert, given its log. `heeds_statements`: holds and counter sales keep to it.
- `Traffic.Admitted`, `CountsInTurn`: the condition on a step.
- `Within`: the invariant. `ceilings_kept`: the run theorem. `two_over_the_ceiling`: the runs that break it.
-/

namespace SlrBooking

open Theory Rows

/-! ## Ceilings -/

/-- The class of a counter sale. -/
def Request.soldClass (r : Request) : Option TravelClass :=
  match r.call with
  | .sell _ _ _ _ travelClass _ => some travelClass
  | _ => none

/-- A bound on the rows of one kind: the SELECT they are counted with, which of the rows found count, which
    requests count them, and the bound. -/
structure Ceiling where
  filter : Filter
  among  : BookingRow → Bool
  asks   : Request → Bool
  limit  : Nat

namespace Ceiling

/-- The active bookings of one passenger on one trip. -/
def seats (tripId passengerId : String) (limit : Nat) : Ceiling :=
  ⟨.activeForPassenger tripId passengerId, fun _ => true, fun _ => true, limit⟩

/-- The standing tickets of one class on one trip. -/
def standing (tripId : String) (travelClass : TravelClass) (limit : Nat) : Ceiling :=
  ⟨.inStatus tripId .standing, fun row => row.travelClass = travelClass, fun r => r.soldClass = some travelClass, limit⟩

variable (C : Ceiling)

def counts (row : BookingRow) : Bool := C.filter.holds row && C.among row

def found (rows : List BookingRow) : Nat := (rows.filter C.counts).length

/-- The statement counted the rows and found room. -/
def admits : (o : Stmt) → Except Err o.Res → Bool
  | .select f, .ok rows => f = C.filter && C.found rows < C.limit
  | _, _ => false

def passed (log : List (Event Stmts Err)) : Bool := log.any fun e => C.admits e.op e.ans

/-- The ceilings that the two configured numbers stand for. -/
def Configured (cap room : Nat) (C : Ceiling) : Prop :=
  (∃ tripId passengerId, C = seats tripId passengerId cap) ∨ ∃ tripId travelClass, C = standing tripId travelClass room

variable {C}

theorem passed_of_mem {log : List (Event Stmts Err)} {f : Filter} {rows : List BookingRow}
    (he : (⟨.select f, .ok rows⟩ : Event Stmts Err) ∈ log) (hf : f = C.filter) (hroom : C.found rows < C.limit) :
    C.passed log = true := by
  refine List.any_eq_true.mpr ⟨_, he, ?_⟩
  show (decide (f = C.filter) && decide (C.found rows < C.limit)) = true
  simp [hf, hroom]

theorem found_le (rows : List BookingRow) : C.found rows ≤ rows.length := List.length_filter_le _ _

/-- The order of the rows does not matter, nor do rows that another SELECT would not return. -/
theorem found_scan (scan : Scan) (rows : List BookingRow) :
    C.found (scan.order (rows.filter C.filter.holds)) = C.found rows := by
  unfold found
  rw [((scan.perm (rows.filter C.filter.holds)).filter C.counts).length_eq, List.filter_filter]
  congr 1
  refine List.filter_congr fun row _ => ?_
  unfold counts
  cases C.filter.holds row <;> simp

/-- An expired row counts towards no ceiling. -/
theorem Configured.expired {cap room : Nat} (hC : Configured cap room C) (row : BookingRow) :
    C.counts { row with status := .expired } = false := by
  rcases hC with ⟨t, p, rfl⟩ | ⟨t, c, rfl⟩
  · have hidle : BookingStatus.isActive .expired = false := by decide
    simp [counts, seats, Filter.holds, hidle]
  · simp [counts, standing, Filter.holds]

end Ceiling

/-! ## What a request may insert -/

/-- What request `r` may issue after the statements of its log: it inserts under its own id only, before any commit, and
    only after each count that the row counts towards has found room. -/
def Heed (cap room : Nat) (r : Request) (log : List (Event Stmts Err)) : Stmt → Prop
  | .insert row => row.bookingId = r.deps.newId ∧ (∀ e ∈ log, e.op ≠ Stmt.commit) ∧
      ∀ C, Ceiling.Configured cap room C → C.counts row = true → C.asks r = true ∧ C.passed log = true
  | .updateStatus _ status => status = .expired
  | _ => True

/-- Nothing has been committed, and these events are in the log. -/
structure Since (events log : List (Event Stmts Err)) : Prop where
  uncommitted : ∀ e ∈ log, e.op ≠ Stmt.commit
  logged      : ∀ e ∈ events, e ∈ log

/-- `p` keeps to what `r` may issue after `log`. -/
abbrev Heeds {α : Type} (cap room : Nat) (r : Request) (log : List (Event Stmts Err)) (p : Prog Stmts Err α) : Prop :=
  Prog.Outline (Heed cap room r) (fun l o a => l ++ [⟨o, a⟩]) (fun _ _ => True) log p

/-- Statements that insert nothing, commit nothing and only expire bookings. -/
def Stmt.Mild : Stmt → Prop
  | .insert _ | .commit => False
  | .updateStatus _ status => status = .expired
  | _ => True

/-- The port operations made of such statements. -/
def PortOp.Mild : PortOp → Prop
  | .addHold _ | .setStatus _ _ | .commit => False
  | _ => True

/-- What may follow an insert. -/
def PortOp.Late : PortOp → Prop
  | .publish _ | .notify _ | .commit => True
  | _ => False

section Rules

variable {cap room : Nat} {r : Request} {log events : List (Event Stmts Err)}

theorem mild_method {o : PortOp} (ho : o.Mild) : (SqlRepo.method o).Only Stmt.Mild := by
  refine (SqlRepo.method_issues o).mono fun q hq => ?_
  cases o with
  | addHold | setStatus | commit => exact ho.elim
  | expireDue =>
      rcases hq with rfl | ⟨_, rfl⟩
      · trivial
      · rfl
  | _ =>
      rw [show q = _ from hq]
      trivial

theorem heed_mild {o : Stmt} (ho : o.Mild) : Heed cap room r log o := by
  cases o with
  | insert | commit => exact ho.elim
  | updateStatus => exact ho
  | _ => trivial

theorem Since.snoc (h : Since events log) {o : Stmt} (a : Except Err o.Res) (ho : o ≠ .commit) :
    Since events (log ++ [⟨o, a⟩]) where
  uncommitted e he := by
    rcases List.mem_append.mp he with he | he
    · exact h.uncommitted e he
    · rw [List.mem_singleton.mp he]
      exact ho
  logged e he := List.mem_append.mpr (Or.inl (h.logged e he))

/-- **A mild part** commits nothing and forgets nothing. -/
theorem heeds_seq {α β : Type} {P : α → Prop} {p : Prog Ports Err α} {f : α → Prog Ports Err β}
    (h : Since events log) (hp : p.Only PortOp.Mild) (hy : p.Yields P)
    (hrest : ∀ a log', P a → Since events log' → Heeds cap room r log' ((f a).translate SqlRepo.method)) :
    Heeds cap room r log ((p >>= f).translate SqlRepo.method) := by
  have hsnoc : ∀ (l : List (Event Stmts Err)) (o : Stmt) (a : Except Err o.Res), Since events l → o.Mild →
      Since events (l ++ [⟨o, a⟩]) := by
    intro l o a hl ho
    refine hl.snoc a ?_
    rintro rfl
    exact ho
  have hmild : ∀ (l : List (Event Stmts Err)) (o : Stmt), Since events l → o.Mild → Heed cap room r l o :=
    fun _ _ _ ho => heed_mild ho
  have hout : Prog.Outline (Heed cap room r) (fun l o a => l ++ [⟨o, a⟩]) (fun l' _ => Since events l') log
      (p.translate SqlRepo.method) :=
    Prog.outline_invariant hmild hsnoc (hp.translate SqlRepo.method fun o => mild_method) h
  rw [Prog.bind_eq, Prog.translate_bind]
  refine Prog.outline_bind.mpr ((hout.and_yields (hy.translate SqlRepo.method)).mono fun l' a ha => ?_)
  cases a with
  | ok a => exact hrest a l' (ha.2 a rfl) ha.1
  | error e => trivial

theorem heeds_ofExcept {α β : Type} {x : Except Err α} {f : α → Prog Ports Err β}
    (hrest : ∀ a, x = .ok a → Heeds cap room r log ((f a).translate SqlRepo.method)) :
    Heeds cap room r log ((Prog.ofExcept x >>= f).translate SqlRepo.method) := by
  cases x with
  | ok a => exact hrest a rfl
  | error e => trivial

theorem outline_stmt (o : Stmt) {post : List (Event Stmts Err) → Except Err o.Res → Prop}
    (hlaw : Heed cap room r log o) (h : ∀ a, post (log ++ [⟨o, a⟩]) a) :
    Prog.Outline (Heed cap room r) (fun l o a => l ++ [⟨o, a⟩]) post log (Prog.call (S := Stmts) o) :=
  Prog.outline_call.mpr ⟨hlaw, h⟩

/-- **A count** leaves the rows it found in the log. -/
theorem heeds_count {β : Type} {filter : Filter} {g : List Hold → Prog Stmts Err β} (h : Since events log)
    (hrest : ∀ (rows : List BookingRow) log', Since (⟨.select filter, .ok rows⟩ :: events) log' →
      Heeds cap room r log' (g (rows.map toHold))) :
    Heeds cap room r log ((SqlRepo.selectHolds filter).bind g) := by
  refine Prog.outline_bind.mpr (Prog.outline_bind.mpr (outline_stmt (.select filter) trivial fun a => ?_))
  cases a with
  | error e => trivial
  | ok rows =>
      have hsnoc := h.snoc (o := .select filter) (.ok rows) (by simp)
      refine hrest rows _ ⟨hsnoc.uncommitted, fun e he => ?_⟩
      rcases List.mem_cons.mp he with rfl | he
      · exact List.mem_append.mpr (Or.inr (List.mem_singleton.mpr rfl))
      · exact hsnoc.logged e he

/-- The gate passes only below the cap. -/
theorem antiTout_room {deps : Deps} {p : String} {now : Int} {active : List Hold} {cap : Int}
    (hcap : deps.getInt maxSeatsPerPassenger = .ok cap) (h : antiTout deps p now active = .ok ()) :
    (active.length : Int) < cap := by
  unfold antiTout at h
  rw [hcap] at h
  by_contra hfull
  have hge : (active.length : Int) ≥ cap := by omega
  simp only [bind, Except.bind, hge, if_true] at h
  cases h

theorem heeds_enforceAntiTout {β : Type} {t p : String} {now : Int} {f : Unit → Prog Ports Err β}
    (hcap : r.deps.getInt maxSeatsPerPassenger = .ok cap) (h : Since events log)
    (hrest : ∀ (rows : List BookingRow) log', rows.length < cap →
      Since (⟨.select (.activeForPassenger t p), .ok rows⟩ :: events) log' →
      Heeds cap room r log' ((f ()).translate SqlRepo.method)) :
    Heeds cap room r log ((enforceAntiTout r.deps t p now >>= f).translate SqlRepo.method) := by
  have hflat : (enforceAntiTout r.deps t p now >>= f) = (Bookings.activeForPassenger t p).bind fun active =>
      (Prog.ofExcept (antiTout r.deps p now active)).bind f := Prog.bind_assoc _ _ _
  rw [hflat, Prog.translate_bind, Bookings.activeForPassenger, Prog.translate_call]
  refine heeds_count h fun rows log' hlog => ?_
  refine heeds_ofExcept fun u hu => hrest rows log' ?_ hlog
  have hroom := antiTout_room hcap hu
  rw [List.length_map] at hroom
  exact Int.ofNat_lt.mp hroom

/-- **An insert**, and what only tells and commits. -/
theorem heeds_addHold {β : Type} {hold : Hold} {f : Unit → Prog Ports Err β}
    (hlaw : Heed cap room r log (.insert (toRow hold)))
    (hf : (f ()).Only PortOp.Late) : Heeds cap room r log ((Bookings.addHold hold >>= f).translate SqlRepo.method) := by
  have hlate : ∀ log', Heeds cap room r log' ((f ()).translate SqlRepo.method) := by
    intro log'
    have hstmts : ((f ()).translate SqlRepo.method).Only fun o => ∀ l, Heed cap room r l o := by
      refine hf.translate SqlRepo.method fun o ho => ?_
      cases o with
      | publish | notify | commit => exact Prog.only_call fun _ => trivial
      | _ => exact ho.elim
    exact Prog.outline_invariant (I := fun _ => True) (fun l _ _ ho => ho l) (fun _ _ _ _ _ => trivial) hstmts
      trivial
  rw [Prog.bind_eq, Prog.translate_bind, Bookings.addHold, Prog.translate_call]
  refine Prog.outline_bind.mpr (Prog.outline_rescue.mpr (outline_stmt (.insert (toRow hold)) hlaw fun a => ?_))
  cases a with
  | ok u => exact hlate _
  | error e =>
      cases e with
      | integrityError c =>
          dsimp only
          split
          · trivial
          · trivial
      | _ => trivial

/-- What a hold and a sale start with: the look-up and the sweep. -/
theorem mild_lookupReplay (reference : Option String) : (lookupReplay reference).Only PortOp.Mild := by
  cases reference with
  | none => exact Prog.only_ret _
  | some reference => exact Prog.only_call trivial

theorem mild_priceLeg (deps : Deps) (trip : Trip) (leg : Leg) (c : TravelClass) :
    (priceLeg deps trip leg c).Only PortOp.Mild := only_priceLeg deps (fun _ => trivial) trip leg c

/-- **A hold** inserts after a count of the passenger's seats that found room. -/
theorem heeds_hold {t s : String} {leg : Leg} {p n : String} {ref : Option String}
    (hcap : r.deps.getInt maxSeatsPerPassenger = .ok cap) :
    Heeds cap room r [] ((holdSeat r.deps t s leg p n ref).translate SqlRepo.method) := by
  have hstart : Since [] ([] : List (Event Stmts Err)) :=
    ⟨fun e he => absurd he List.not_mem_nil, fun e he => absurd he List.not_mem_nil⟩
  refine heeds_seq hstart (mild_lookupReplay ref) (Prog.yields_true _) fun found log₁ _ h₁ => ?_
  cases found with
  | some existing => trivial
  | none =>
      refine heeds_seq h₁ (Prog.only_call trivial) (Prog.yields_true _) fun _ log₂ _ h₂ => ?_
      have hflat : (draftHold r.deps t s leg p n ref >>= placeHold) = (do
          let trip ← Trips.get t
          Prog.ofExcept (validateLeg trip leg)
          let seat ← Prog.ofExcept (reservedSeat trip s)
          enforceAntiTout r.deps t p r.deps.now
          let fare ← priceLeg r.deps trip leg seat.travelClass
          let ttl ← Prog.ofExcept (r.deps.getInt holdTtl)
          placeHold (newHold r.deps t s leg p n ref seat fare ttl)) := by
        simp only [draftHold, Prog.bind_eq, Prog.bind_assoc, Prog.pure_eq, Prog.ret_bind]
      rw [hflat]
      refine heeds_seq h₂ (Prog.only_call trivial) (Prog.yields_true _) fun trip log₃ _ h₃ => ?_
      refine heeds_ofExcept fun _ _ => heeds_ofExcept fun seat _ => ?_
      refine heeds_enforceAntiTout hcap h₃ fun rows log₄ hroom h₄ => ?_
      refine heeds_seq h₄ (mild_priceLeg ..) (Prog.yields_true _) fun fare log₅ _ h₅ => ?_
      refine heeds_ofExcept fun ttl _ => ?_
      refine heeds_addHold ⟨rfl, h₅.uncommitted, ?_⟩ ?_
      · rintro C (⟨t', p', rfl⟩ | ⟨t', c, rfl⟩) hcounts
        · obtain ⟨⟨rfl, rfl⟩, -⟩ : (t = t' ∧ p = p') ∧ BookingStatus.held.isActive = true := by
            simpa [Ceiling.counts, Ceiling.seats, Filter.holds, toRow, newHold] using hcounts
          exact ⟨rfl, Ceiling.passed_of_mem (h₅.logged _ List.mem_cons_self) rfl
            ((Ceiling.found_le rows).trans_lt hroom)⟩
        · simp [Ceiling.counts, Ceiling.standing, Filter.holds, toRow, newHold] at hcounts
      · exact Prog.Only.bind (Prog.only_call trivial) fun _ => Prog.Only.bind (Prog.only_call trivial) fun _ =>
          Prog.Only.bind (Prog.only_call trivial) fun _ => Prog.only_ret _

/-! ### A counter sale

A sale counts twice: the passenger's seats at the gate, and the standing tickets of the class where no seat is free.
The outline carries both counts to the insert. -/

theorem length_poolLegs (t : String) : ∀ pool, (poolLegs t pool).Yields fun seatLegs => seatLegs.length = pool.length
  | [] => rfl
  | _ :: rest => (Prog.yields_true _).bind fun _ _ => (length_poolLegs t rest).bind fun _ h => congrArg (· + 1) h

theorem mild_poolLegs (t : String) : ∀ pool, (poolLegs t pool).Only PortOp.Mild
  | [] => Prog.only_ret _
  | _ :: rest => Prog.Only.bind (Prog.only_call trivial) fun _ => (mild_poolLegs t rest).bind fun _ => Prog.only_ret _

/-- The end of a sale: what it goes on to insert has counted what it counts towards. -/
theorem heeds_issue {t p n : String} {leg : Leg} {c : TravelClass} {ticketRef : String} {a : Admission}
    (h : Since events log)
    (hlaw : ∀ C, Ceiling.Configured cap room C →
      C.counts (toRow (soldTicket r.deps t leg p n c ticketRef a.seat a.fare)) = true →
      C.asks r = true ∧ ∀ log', Since events log' → C.passed log' = true) :
    Heeds cap room r log (Prog.translate SqlRepo.method (S := Ports) (do
      let result ← charge ticketRef a.fare
      Prog.ofExcept (requireAccepted result "counter charge declined")
      issueTicket r.deps (soldTicket r.deps t leg p n c ticketRef a.seat a.fare) a)) := by
  refine heeds_seq h (Prog.only_call trivial) (Prog.yields_true _) fun _ log₁ _ h₁ => ?_
  refine heeds_ofExcept fun _ _ => ?_
  refine heeds_addHold ⟨rfl, h₁.uncommitted, fun C hC hcounts => ?_⟩ ?_
  · exact ⟨(hlaw C hC hcounts).1, (hlaw C hC hcounts).2 log₁ h₁⟩
  · dsimp only
    cases a.seat with
    | some seat =>
        exact Prog.Only.bind (Prog.only_call trivial) fun _ => Prog.Only.bind (Prog.only_call trivial) fun _ =>
          Prog.Only.bind (Prog.only_call trivial) fun _ => Prog.only_ofExcept _
    | none =>
        exact Prog.Only.bind (Prog.only_call trivial) fun _ => Prog.Only.bind (Prog.only_call trivial) fun _ =>
          Prog.only_ofExcept _

theorem heeds_guardStanding {β : Type} {t : String} {c : TravelClass} {f : Unit → Prog Ports Err β}
    (hroom : r.deps.getInt standingCapacity = .ok room) (h : Since events log)
    (hrest : ∀ (rows : List BookingRow) log', (rows.filter fun row => row.travelClass = c).length < room →
      Since (⟨.select (.inStatus t .standing), .ok rows⟩ :: events) log' →
      Heeds cap room r log' ((f ()).translate SqlRepo.method)) :
    Heeds cap room r log ((guardStandingCapacity r.deps t c >>= f).translate SqlRepo.method) := by
  simp only [guardStandingCapacity, Prog.bind_eq, Prog.bind_assoc]
  rw [Prog.translate_bind, Bookings.byStatus, Prog.translate_call]
  refine heeds_count h fun rows log' hlog => ?_
  have hfound : ((rows.map toHold).filter fun h => h.travelClass = c).length =
      (rows.filter fun row => row.travelClass = c).length := by
    rw [List.filter_map, List.length_map]
    rfl
  refine heeds_ofExcept fun capacity hcapacity => ?_
  obtain rfl := Except.ok.inj (hroom.symm.trans hcapacity)
  rw [hfound]
  by_cases hfull : ((rows.filter fun row => row.travelClass = c).length : Int) ≥ room
  · rw [if_pos hfull]
    trivial
  · rw [if_neg hfull]
    exact hrest rows log' (by omega) hlog

/-- **A counter sale** inserts a seat after a count of the passenger's seats that found room, and a standing
    ticket after a count of the class's standing tickets that did. -/
theorem heeds_sell {t : String} {leg : Leg} {p n : String} {c : TravelClass} {ref : Option String}
    (hcall : r.call = .sell t leg p n c ref) (hcap : r.deps.getInt maxSeatsPerPassenger = .ok cap)
    (hroom : r.deps.getInt standingCapacity = .ok room) :
    Heeds cap room r [] ((sellUnreserved r.deps t leg p n c ref).translate SqlRepo.method) := by
  have hstart : Since [] ([] : List (Event Stmts Err)) :=
    ⟨fun e he => absurd he List.not_mem_nil, fun e he => absurd he List.not_mem_nil⟩
  refine heeds_seq hstart (mild_lookupReplay ref) (Prog.yields_true _) fun found log₁ _ h₁ => ?_
  cases found with
  | some existing =>
      refine heeds_seq (f := fun trip => Prog.ofExcept (receiptFor existing trip r.deps.now)) h₁
        (Prog.only_call trivial) (Prog.yields_true _) fun trip _ _ _ => ?_
      rw [Prog.translate_ofExcept]
      exact Prog.outline_ofExcept.mpr trivial
  | none =>
      refine heeds_seq h₁ (Prog.only_call trivial) (Prog.yields_true _) fun _ log₂ _ h₂ => ?_
      simp only [admitSale, Prog.bind_eq, Prog.bind_assoc]
      refine heeds_seq h₂ (Prog.only_call trivial) (Prog.yields_true _) fun trip log₃ _ h₃ => ?_
      refine heeds_ofExcept fun _ _ => ?_
      refine heeds_enforceAntiTout hcap h₃ fun rows log₄ hseats h₄ => ?_
      by_cases hpool : (unreservedPool trip c).isEmpty = true
      · rw [if_pos hpool]
        trivial
      · rw [if_neg hpool]
        simp only [assignSeat, Prog.bind_eq, Prog.bind_assoc]
        refine heeds_seq h₄ (mild_poolLegs t _) (length_poolLegs t _) fun seatLegs log₅ hlength h₅ => ?_
        cases hchosen : chooseSeat seatLegs leg with
        | some chosen =>
            -- a seat: the row counts towards the passenger's seats
            obtain ⟨ls, hls, -⟩ := chooseSeat_some hchosen
            have hlt : chosen < (unreservedPool trip c).length := hlength ▸ (List.getElem?_eq_some_iff.mp hls).1
            have hseat : (unreservedPool trip c)[chosen]? = some (unreservedPool trip c)[chosen] :=
              List.getElem?_eq_getElem hlt
            simp only [Prog.pure_eq, Prog.ret_bind]
            refine heeds_seq h₅ (mild_priceLeg ..) (Prog.yields_true _) fun fare log₆ _ h₆ => ?_
            refine heeds_issue (a := ⟨trip, unreservedPool trip c, (unreservedPool trip c)[chosen]?, none, fare⟩) h₆ ?_
            dsimp only
            rw [hseat]
            rintro C (⟨t', p', rfl⟩ | ⟨t', c', rfl⟩) hcounts
            · obtain ⟨⟨rfl, rfl⟩, -⟩ : (t = t' ∧ p = p') ∧ BookingStatus.confirmed.isActive = true := by
                simpa [Ceiling.counts, Ceiling.seats, Filter.holds, toRow, soldTicket] using hcounts
              exact ⟨rfl, fun log' hlog => Ceiling.passed_of_mem (hlog.logged _ List.mem_cons_self) rfl
                ((Ceiling.found_le rows).trans_lt hseats)⟩
            · simp [Ceiling.counts, Ceiling.standing, Filter.holds, toRow, soldTicket] at hcounts
        | none =>
            simp only [Prog.bind_assoc]
            refine heeds_guardStanding hroom h₅ fun found log₆ hstanding h₆ => ?_
            refine heeds_ofExcept fun offers _ => ?_
            simp only [Prog.pure_eq, Prog.ret_bind]
            refine heeds_seq h₆ (mild_priceLeg ..) (Prog.yields_true _) fun fare log₇ _ h₇ => ?_
            refine heeds_issue (a := ⟨trip, unreservedPool trip c, none, offers.head?.join, fare⟩) h₇ ?_
            rintro C (⟨t', p', rfl⟩ | ⟨t', c', rfl⟩) hcounts
            · have hidle : BookingStatus.isActive .standing = false := by decide
              simp [Ceiling.counts, Ceiling.seats, Filter.holds, toRow, soldTicket, hidle] at hcounts
            · obtain ⟨rfl, rfl⟩ : t = t' ∧ c = c' := by
                simpa [Ceiling.counts, Ceiling.standing, Filter.holds, toRow, soldTicket] using hcounts
              refine ⟨?_, fun log' hlog => Ceiling.passed_of_mem (hlog.logged _ List.mem_cons_self) rfl ?_⟩
              · show decide (r.soldClass = some c) = true
                rw [Request.soldClass, hcall]
                exact decide_eq_true rfl
              · refine lt_of_le_of_lt ?_ hstanding
                rw [Ceiling.found, ← List.countP_eq_length_filter, ← List.countP_eq_length_filter]
                refine List.countP_mono_left fun row _ hrow => ?_
                exact (Bool.and_eq_true_iff.mp hrow).2

end Rules

/-- **Holds and counter sales keep to it**, whatever they are answered. -/
theorem heeds_statements {cap room : Nat} {r : Request} (hbooks : r.books = true)
    (hcap : r.deps.getInt maxSeatsPerPassenger = .ok cap) (hroom : r.deps.getInt standingCapacity = .ok room) :
    Heeds cap room r [] r.statements := by
  have hprogram : Heeds cap room r [] ((r.call.program r.deps).translate SqlRepo.method) := by
    cases hcall : r.call with
    | hold => exact heeds_hold hcap
    | sell => exact heeds_sell hcall hcap hroom
    | _ =>
        rw [Request.books, hcall] at hbooks
        cases hbooks
  refine Prog.outline_bind.mpr (hprogram.mono fun l a _ => ?_)
  cases a with
  | ok a => trivial
  | error e => trivial

/-! ## Admitted requests -/

/-- The rows a SELECT asks for. -/
def Stmt.selected? : Stmt → Option Filter
  | .select f => some f
  | _ => none

/-- The ceiling towards which request `r` counts with that SELECT. -/
def Ceiling.ofCount (cap room : Nat) (r : Request) : Filter → Option Ceiling
  | .activeForPassenger tripId passengerId => some (Ceiling.seats tripId passengerId cap)
  | .inStatus tripId .standing => r.soldClass.map fun travelClass => Ceiling.standing tripId travelClass room
  | _ => none

namespace Traffic

variable (T : Traffic)

/-- Request `u` is in flight, has counted towards the ceiling and found room, and has not committed: it may still insert
    one counted row. -/
def Admitted (C : Ceiling) (c : State) (u : Nat) : Bool :=
  match T.requests[u]?, c.threads[u]? with
  | some r, some th => !th.ended && C.asks r && C.passed th.log && th.log.all fun e => e.op ≠ Stmt.commit
  | _, _ => false

/-- The requests other than `t` that are admitted. -/
def othersAdmitted (C : Ceiling) (c : State) (t : Nat) : Nat :=
  ((Finset.range T.requests.length).filter fun u => u ≠ t && T.Admitted C c u).card

/-- If the next statement of `t` counts rows towards a ceiling and finds room, there is room for the other
    admitted requests too. -/
def CountsInTurn (cap room : Nat) (c : State) (t : Nat) : Prop :=
  ∀ r ∈ T.requests[t]?, ∀ f ∈ (c.next t).bind Stmt.selected?, ∀ C ∈ Ceiling.ofCount cap room r f,
    C.found (c.shared.view t) < C.limit → C.found (c.shared.view t) + T.othersAdmitted C c t < C.limit

instance (cap room : Nat) (c : State) (t : Nat) : Decidable (T.CountsInTurn cap room c t) :=
  inferInstanceAs (Decidable (∀ r ∈ T.requests[t]?, ∀ f ∈ (c.next t).bind Stmt.selected?,
    ∀ C ∈ Ceiling.ofCount cap room r f, _ → _))

/-- The two numbers are configured, the same for every request, and only holds and counter sales are made. Confirms and
    cancels add to no ceiling. -/
structure Selling (T : Traffic) (cap room : Nat) : Prop where
  books  : ∀ r ∈ T.requests, r.books = true
  capped : ∀ r ∈ T.requests, r.deps.getInt maxSeatsPerPassenger = .ok cap
  roomed : ∀ r ∈ T.requests, r.deps.getInt standingCapacity = .ok room

variable {T}

theorem admitted_iff {C : Ceiling} {c : State} {u : Nat} : T.Admitted C c u = true ↔
    ∃ r th, T.requests[u]? = some r ∧ c.threads[u]? = some th ∧ th.ended = false ∧ C.asks r = true ∧
      C.passed th.log = true ∧ ∀ e ∈ th.log, e.op ≠ Stmt.commit := by
  unfold Admitted
  cases T.requests[u]? with
  | none => simp
  | some r =>
      cases c.threads[u]? with
      | none => simp
      | some th => simp [and_assoc]

theorem admitted_set_ne {C : Ceiling} {c : State} {s : Server} {t u : Nat} {th : Thread Stmts Err Unit} (hu : u ≠ t) :
    T.Admitted C ⟨s, c.threads.set t th⟩ u = T.Admitted C c u := by
  unfold Admitted
  rw [List.getElem?_set_ne (Ne.symm hu)]

theorem admitted_ended {C : Ceiling} {c : State} {s : Server} {t : Nat} {th : Thread Stmts Err Unit}
    (hth : th.ended = true) (ht : t < c.threads.length) : T.Admitted C ⟨s, c.threads.set t th⟩ t = false := by
  unfold Admitted
  rw [List.getElem?_set_self ht]
  cases T.requests[t]? with
  | none => rfl
  | some r => simp [hth]

/-- What one more statement does to the acting request's admission. -/
theorem admitted_act {C : Ceiling} {c : State} {s : Server} {t : Nat} {th : Thread Stmts Err Unit} {o : Stmt}
    {a : Except Err o.Res} {p : Prog Stmts Err Unit} (hth : c.threads[t]? = some th) :
    T.Admitted C ⟨s, c.threads.set t ⟨p, th.log ++ [⟨o, a⟩], false⟩⟩ t = true ↔
      (∃ r, T.requests[t]? = some r ∧ C.asks r = true ∧ (∀ e ∈ th.log, e.op ≠ Stmt.commit) ∧ o ≠ .commit ∧
        (C.passed th.log = true ∨ C.admits o a = true)) := by
  rw [admitted_iff]
  have hself : (c.threads.set t ⟨p, th.log ++ [⟨o, a⟩], false⟩)[t]? = some ⟨p, th.log ++ [⟨o, a⟩], false⟩ :=
    List.getElem?_set_self (List.getElem?_eq_some_iff.mp hth).1
  have hpassed : C.passed (th.log ++ [⟨o, a⟩]) = true ↔ C.passed th.log = true ∨ C.admits o a = true := by
    simp [Ceiling.passed]
  constructor
  · rintro ⟨r, th', hr, hth', -, hasks, hpass, hno⟩
    obtain rfl := Option.some.inj (hself.symm.trans hth')
    refine ⟨r, hr, hasks, fun e he => hno e (List.mem_append.mpr (Or.inl he)), ?_, hpassed.mp hpass⟩
    exact hno ⟨o, a⟩ (List.mem_append.mpr (Or.inr (List.mem_singleton.mpr rfl)))
  · rintro ⟨r, hr, hasks, hno, ho, hpass⟩
    refine ⟨r, _, hr, hself, rfl, hasks, hpassed.mpr hpass, fun e he => ?_⟩
    rcases List.mem_append.mp he with he | he
    · exact hno e he
    · rw [List.mem_singleton.mp he]
      exact ho

theorem admitted_live {C : Ceiling} {c : State} {t : Nat} {th : Thread Stmts Err Unit} (hth : c.threads[t]? = some th)
    (hlive : th.ended = false) : T.Admitted C c t = true ↔
      ∃ r, T.requests[t]? = some r ∧ C.asks r = true ∧ C.passed th.log = true ∧ ∀ e ∈ th.log, e.op ≠ Stmt.commit := by
  rw [admitted_iff]
  constructor
  · rintro ⟨r, th', hr, hth', -, hrest⟩
    obtain rfl := Option.some.inj (hth.symm.trans hth')
    exact ⟨r, hr, hrest⟩
  · rintro ⟨r, hr, hrest⟩
    exact ⟨r, th, hr, hth, hlive, hrest⟩

/-- A statement that neither counts towards the ceiling nor commits leaves admissions alone. -/
theorem admitted_same {C : Ceiling} {c : State} {s : Server} {t : Nat} {th : Thread Stmts Err Unit} {o : Stmt}
    {a : Except Err o.Res} {p : Prog Stmts Err Unit} (hth : c.threads[t]? = some th) (hlive : th.ended = false)
    (hcount : C.admits o a = false) (hcommit : o ≠ .commit) (u : Nat) :
    T.Admitted C ⟨s, c.threads.set t ⟨p, th.log ++ [⟨o, a⟩], false⟩⟩ u = T.Admitted C c u := by
  by_cases hu : u = t
  · subst hu
    refine Bool.eq_iff_iff.mpr ?_
    rw [admitted_act hth, admitted_live hth hlive]
    refine exists_congr fun r => and_congr_right fun _ => and_congr_right fun _ => ?_
    rw [hcount]
    simp [hcommit, and_comm]
  · exact admitted_set_ne hu

/-! ## The invariant -/

/-- The admitted requests that may add a counted row by their commit: those that do not retire one by the same commit.
    -/
def openers (T : Traffic) (C : Ceiling) (c : State) : Finset Nat :=
  (Finset.range T.requests.length).filter fun u =>
    T.Admitted C c u && !Db.rewrites bookingTable C.counts c.shared.db u

theorem mem_openers {C : Ceiling} {c : State} {u : Nat} : u ∈ T.openers C c ↔
    T.Admitted C c u = true ∧ Db.rewrites bookingTable C.counts c.shared.db u = false := by
  unfold openers
  rw [Finset.mem_filter, Finset.mem_range, Bool.and_eq_true, Bool.not_eq_true']
  constructor
  · exact fun h => h.2
  · intro h
    obtain ⟨r, -, hr, -⟩ := admitted_iff.mp h.1
    exact ⟨(List.getElem?_eq_some_iff.mp hr).1, h⟩

/-- Every request in flight keeps to what it may issue after its log. -/
def Heedful (T : Traffic) (cap room : Nat) (c : State) : Prop :=
  Machine.Follows (fun t l o => ∃ r, T.requests[t]? = some r ∧ Heed cap room r l o) (fun l o a => l ++ [⟨o, a⟩]) []
    (fun _ _ _ => True) c

/-- **The invariant for one ceiling**: the counted rows that are committed, and the requests that may still add one, are
    together no more than the limit. -/
structure Within (T : Traffic) (cap room : Nat) (C : Ceiling) (c : State) : Prop where
  sound  : Db.Sound bookingTable c.shared.db
  heeds  : T.Heedful cap room c
  owned  : ∀ p ∈ c.shared.db.pending, C.counts p.2 = true → T.Admitted C c p.1 = true ∧
    ∃ r, T.requests[p.1]? = some r ∧ p.2.bookingId = r.deps.newId
  within : (c.shared.db.committed.filter C.counts).length + (T.openers C c).card ≤ C.limit

theorem within_start {cap room : Nat} {C : Ceiling} (hT : T.Selling cap room) : T.Within cap room C T.start where
  sound := Db.sound_empty
  heeds := by
    intro t th hth
    obtain ⟨r, hr, rfl⟩ := Option.map_eq_some_iff.mp ((List.getElem?_map ..).symm.trans hth)
    have hmem := List.mem_of_getElem? hr
    exact (heeds_statements (hT.books r hmem) (hT.capped r hmem) (hT.roomed r hmem)).mono_pre
      fun l o ho => ⟨r, hr, ho⟩
  owned p hp := by cases hp
  within := by
    have hnone : T.openers C T.start = ∅ := by
      refine Finset.eq_empty_iff_forall_notMem.mpr fun u hu => ?_
      obtain ⟨r, th, -, hth, -, -, hpassed, -⟩ := admitted_iff.mp (mem_openers.mp hu).1
      obtain ⟨r₀, -, rfl⟩ := Option.map_eq_some_iff.mp ((List.getElem?_map ..).symm.trans hth)
      cases hpassed
    rw [hnone]
    exact Nat.zero_le _

namespace Within

variable {cap room : Nat} {C : Ceiling} {c c' : State} {t : Nat}

/-- The log is what a thread knows. -/
theorem know_log (th : Thread Stmts Err Unit) :
    Machine.know (fun l o a => l ++ [⟨o, a⟩]) [] th = th.log := by
  have hfold : ∀ (log acc : List (Event Stmts Err)),
      log.foldl (fun l e => l ++ [⟨e.op, e.ans⟩]) acc = acc ++ log := by
    intro log
    induction log with
    | nil => exact fun acc => (List.append_nil acc).symm
    | cons e log ih =>
        intro acc
        rw [List.foldl_cons, ih, List.append_assoc]
        rfl
  exact hfold th.log []

/-! ### Statements that neither count nor commit -/

/-- A step that touches neither the table nor an admission. -/
theorem idle (h : T.Within cap room C c) (hheeds : T.Heedful cap room c')
    (hdb : c'.shared.db = c.shared.db) (hadm : ∀ u, T.Admitted C c' u = T.Admitted C c u) :
    T.Within cap room C c' where
  sound := hdb ▸ h.sound
  heeds := hheeds
  owned := by
    rw [hdb]
    intro p hp hcounts
    rw [hadm]
    exact h.owned p hp hcounts
  within := by
    have hsame : T.openers C c' = T.openers C c := by
      ext u
      rw [mem_openers, mem_openers, hadm, hdb]
    rw [hdb, hsame]
    exact h.within

/-- A recorded write. -/
theorem write (h : T.Within cap room C c) (hheeds : T.Heedful cap room c') {t : Nat} {row : BookingRow}
    (hw : c.shared.db.write bookingTable t row = .done c'.shared.db)
    (hadm : ∀ u, T.Admitted C c' u = T.Admitted C c u)
    (hrow : C.counts row = true → T.Admitted C c t = true ∧
      ∃ r, T.requests[t]? = some r ∧ row.bookingId = r.deps.newId) :
    T.Within cap room C c' where
  sound := h.sound.write hw
  heeds := hheeds
  owned := by
    intro p hp hcounts
    rw [hadm]
    rcases (Db.mem_pending_write hw).mp hp with rfl | ⟨hp, -⟩
    · exact hrow hcounts
    · exact h.owned p hp hcounts
  within := by
    have hsub : T.openers C c' ⊆ T.openers C c := by
      intro u hu
      obtain ⟨hadmitted, hkeeps⟩ := mem_openers.mp hu
      refine mem_openers.mpr ⟨hadm u ▸ hadmitted, ?_⟩
      by_contra hrewrites
      rw [Db.rewrites_write hw (by simpa using hrewrites)] at hkeeps
      cases hkeeps
    rw [Db.committed_write hw]
    exact (Nat.add_le_add_left (Finset.card_le_card hsub) _).trans h.within

/-! ### Counts -/

/-- **A count** that found room, with room for the others who found some. -/
theorem count (h : T.Within cap room C c) (hheeds : T.Heedful cap room c') {t : Nat}
    (hdb : c'.shared.db = c.shared.db) (hadm : ∀ u, u ≠ t → T.Admitted C c' u = T.Admitted C c u)
    (hkeeps : T.Admitted C c t = true → T.Admitted C c' t = true)
    (hroom : C.found (c.shared.view t) + T.othersAdmitted C c t < C.limit) : T.Within cap room C c' where
  sound := hdb ▸ h.sound
  heeds := hheeds
  owned := by
    rw [hdb]
    intro p hp hcounts
    obtain ⟨hadmitted, hid⟩ := h.owned p hp hcounts
    refine ⟨?_, hid⟩
    by_cases hpt : p.1 = t
    · rw [hpt] at hadmitted ⊢
      exact hkeeps hadmitted
    · rw [hadm p.1 hpt]
      exact hadmitted
  within := by
    rw [hdb]
    by_cases hrewrites : Db.rewrites bookingTable C.counts c.shared.db t = true
    · -- the commit of `t` will retire a counted row: `t` opens nothing
      have hsub : T.openers C c' ⊆ T.openers C c := by
        intro u hu
        rw [mem_openers, hdb] at hu
        by_cases hut : u = t
        · rw [hut, hrewrites] at hu
          cases hu.2
        · rw [hadm u hut] at hu
          exact mem_openers.mpr hu
      exact (Nat.add_le_add_left (Finset.card_le_card hsub) _).trans h.within
    · have hothers : (T.openers C c').card ≤ T.othersAdmitted C c t + 1 := by
        have hsub : T.openers C c' ⊆ insert t ((Finset.range T.requests.length).filter fun u =>
            u ≠ t && T.Admitted C c u) := by
          intro u hu
          obtain ⟨hadmitted, -⟩ := mem_openers.mp hu
          by_cases hut : u = t
          · exact Finset.mem_insert.mpr (Or.inl hut)
          · obtain ⟨r, -, hr, -⟩ := admitted_iff.mp hadmitted
            rw [hadm u hut] at hadmitted
            refine Finset.mem_insert.mpr (Or.inr (Finset.mem_filter.mpr ⟨?_, by simp [hut, hadmitted]⟩))
            exact Finset.mem_range.mpr (List.getElem?_eq_some_iff.mp hr).1
        exact (Finset.card_le_card hsub).trans (Finset.card_insert_le _ _)
      -- every counted row is visible to `t`, which holds no later version of it
      have hfound : (c.shared.db.committed.filter C.counts).length ≤ C.found (c.shared.view t) := by
        have hnodup : (c.shared.db.committed.filter C.counts).Nodup := (List.Nodup.of_map _ h.sound.keyed).filter _
        refine (hnodup.subperm fun row hrow => ?_).length_le
        obtain ⟨hrow, hcounts⟩ := List.mem_filter.mp hrow
        refine List.mem_filter.mpr ⟨h.sound.mem_view_of_committed hrow fun hk => ?_, hcounts⟩
        obtain ⟨x, hx, hkey⟩ := List.mem_map.mp hk
        exact hrewrites (Db.rewrites_iff.mpr ⟨x, hx, row, hrow, hkey.symm, hcounts⟩)
      omega

/-! ### Ends and commits

A commit inserts at most one counted row for the request, and closes its admission; so it turns an opener into a
counted row. -/

/-- When `t` has ended, the others open what they opened. -/
theorem openers_ended (hgone : T.Admitted C c' t = false)
    (hadm : ∀ u, u ≠ t → T.Admitted C c' u = T.Admitted C c u)
    (hkeeps : ∀ u, u ≠ t → Db.rewrites bookingTable C.counts c.shared.db u = true →
      Db.rewrites bookingTable C.counts c'.shared.db u = true) :
    T.openers C c' ⊆ (T.openers C c).erase t := by
  intro u hu
  obtain ⟨hadmitted, hopen⟩ := mem_openers.mp hu
  by_cases hut : u = t
  · rw [hut, hgone] at hadmitted
    cases hadmitted
  · rw [hadm u hut] at hadmitted
    refine Finset.mem_erase.mpr ⟨hut, mem_openers.mpr ⟨hadmitted, ?_⟩⟩
    by_contra hrewrites
    rw [hkeeps u hut (by simpa using hrewrites)] at hopen
    cases hopen

/-- Ending transaction `t`. -/
theorem rollback (h : T.Within cap room C c) (hheeds : T.Heedful cap room c') {t : Nat}
    (hdb : c'.shared.db = c.shared.db.rollback t) (hgone : T.Admitted C c' t = false)
    (hadm : ∀ u, u ≠ t → T.Admitted C c' u = T.Admitted C c u) : T.Within cap room C c' where
  sound := hdb ▸ h.sound.rollback t
  heeds := hheeds
  owned := by
    rw [hdb]
    intro p hp hcounts
    obtain ⟨hp, hpt⟩ := Db.mem_pending_drop.mp hp
    rw [hadm p.1 hpt]
    exact h.owned p hp hcounts
  within := by
    have hsub := openers_ended hgone hadm fun u hut hu => by
      rw [hdb]
      exact Db.rewrites_rollback hut hu
    have hcard := Finset.card_le_card (hsub.trans (Finset.erase_subset _ _))
    rw [hdb]
    exact (Nat.add_le_add_left hcard _).trans h.within

/-- **A commit keeps the ceiling.** -/
theorem commit (h : T.Within cap room C c) (hheeds : T.Heedful cap room c') {t : Nat}
    (hdb : c'.shared.db = c.shared.db.commit bookingTable t) (hgone : T.Admitted C c' t = false)
    (hadm : ∀ u, u ≠ t → T.Admitted C c' u = T.Admitted C c u) : T.Within cap room C c' where
  sound := hdb ▸ h.sound.commit t
  heeds := hheeds
  owned := by
    rw [hdb]
    intro p hp hcounts
    obtain ⟨hp, hpt⟩ := Db.mem_pending_drop.mp hp
    rw [hadm p.1 hpt]
    exact h.owned p hp hcounts
  within := by
    have hsub := openers_ended hgone hadm fun u hut hu => by
      rw [hdb]
      exact h.sound.rewrites_commit hut hu
    have hcard := Finset.card_le_card hsub
    have hwithin := h.within
    rw [hdb]
    by_cases hadmitted : T.Admitted C c t = true
    · obtain ⟨r, -, hr, -⟩ := admitted_iff.mp hadmitted
      obtain ⟨hone, hnone⟩ := h.sound.count_commit (t := t) (P := C.counts) (k := r.deps.newId) fun x hx hcounts => by
        obtain ⟨-, r', hr', hid⟩ := h.owned (t, x) (Db.mem_own.mp hx) hcounts
        rw [Option.some.inj (hr.symm.trans hr')]
        exact hid
      by_cases hrewrites : Db.rewrites bookingTable C.counts c.shared.db t = true
      · -- what it commits replaces a row that counted already
        have hless := hnone hrewrites
        have hle := (Finset.card_le_card (Finset.erase_subset t (T.openers C c)))
        omega
      · -- one row more, and one opener less
        have hmem : t ∈ T.openers C c := mem_openers.mpr ⟨hadmitted, by simpa using hrewrites⟩
        have herase := Finset.card_erase_of_mem hmem
        have hpos := Finset.card_pos.mpr ⟨t, hmem⟩
        omega
    · have hnone := h.sound.count_commit_none (t := t) (P := C.counts) fun x hx => by
        by_contra hcounts
        exact hadmitted (h.owned (t, x) (Db.mem_own.mp hx) (by simpa using hcounts)).1
      have hle := (Finset.card_le_card (Finset.erase_subset t (T.openers C c)))
      omega

end Within

/-! ## Steps and runs -/

/-- A count belongs to one ceiling that its request asks for. -/
theorem ofCount_eq {cap room : Nat} {C : Ceiling} {r : Request} {f : Filter} (hC : Ceiling.Configured cap room C)
    (hasks : C.asks r = true) (hf : f = C.filter) : Ceiling.ofCount cap room r f = some C := by
  rcases hC with ⟨t, p, rfl⟩ | ⟨t, c, rfl⟩
  · rw [hf]
    rfl
  · rw [hf]
    have hsold : r.soldClass = some c := of_decide_eq_true hasks
    show r.soldClass.map _ = _
    rw [hsold]
    rfl

/-- **Step lemma.** -/
theorem within_step {cap room : Nat} {C : Ceiling} (hC : Ceiling.Configured cap room C) (c : State) (t : Nat)
    (h : T.Within cap room C c) (hok : T.CountsInTurn cap room c t) : T.Within cap room C (T.machine.step c t) := by
  have hheeds : T.Heedful cap room (T.machine.step c t) := Machine.Follows.step h.heeds t
  have hmove := T.machine.step_move c t
  generalize T.machine.step c t = c' at hmove hheeds ⊢
  cases hmove with
  | stay => exact h
  | finish hth hlive hres =>
      exact h.rollback hheeds (t := t) rfl (admitted_ended rfl (List.getElem?_eq_some_iff.mp hth).1)
        fun u hu => admitted_set_ne hu
  | act hth hlive hprog hexec =>
      rename_i th o k a s
      have hnext := Config.next_eq hth hlive hprog
      have hallowed := Machine.Follows.allowed h.heeds hth hprog
      rw [Within.know_log] at hallowed
      cases Server.exec_effect hexec with
      | aside ho =>
          refine h.idle hheeds rfl (admitted_same hth hlive ?_ ?_)
          · cases o with
            | selectTrip | selectTrips | publish | notify => rfl
            | _ => exact ho.elim
          · rintro rfl
            exact ho
      | selectById | duplicate | excluded | missing | barred | declined | charged =>
          exact h.idle hheeds rfl (admitted_same hth hlive rfl (by simp))
      | select =>
          rename_i f
          by_cases hcount : C.admits (.select f) (.ok ((T.scan t).order ((c.shared.view t).filter f.holds))) = true ∧
              ∃ r, T.requests[t]? = some r ∧ C.asks r = true
          · -- the count that admits: the condition leaves room for everybody admitted before
            obtain ⟨hadmits, r, hr, hasks⟩ := hcount
            obtain ⟨hf, hroom⟩ : f = C.filter ∧
                C.found ((T.scan t).order ((c.shared.view t).filter f.holds)) < C.limit := by
              simpa [Ceiling.admits] using hadmits
            rw [hf, Ceiling.found_scan] at hroom
            have hturn := hok r hr f (by rw [hnext]; rfl) C (ofCount_eq hC hasks hf) hroom
            refine h.count hheeds (t := t) rfl (fun u hu => admitted_set_ne hu) (fun hadmitted => ?_) hturn
            obtain ⟨r', hr', hasks', hpassed, hno⟩ := (admitted_live hth hlive).mp hadmitted
            exact (admitted_act hth).mpr ⟨r', hr', hasks', hno, by simp, Or.inl hpassed⟩
          · refine h.idle hheeds rfl fun u => ?_
            by_cases hu : u = t
            · subst hu
              refine Bool.eq_iff_iff.mpr ?_
              rw [admitted_act hth, admitted_live hth hlive]
              refine exists_congr fun r => and_congr_right fun hr => and_congr_right fun hasks => ?_
              have hnot : ¬ C.admits (.select f) (.ok ((T.scan u).order ((c.shared.view u).filter f.holds))) = true :=
                fun hadmits => hcount ⟨hadmits, r, hr, hasks⟩
              constructor
              · rintro ⟨hno, -, hpassed⟩
                exact ⟨hpassed.resolve_right hnot, hno⟩
              · rintro ⟨hpassed, hno⟩
                exact ⟨hno, by simp, Or.inl hpassed⟩
            · exact admitted_set_ne hu
      | inserted hfresh hw =>
          refine h.write hheeds hw (admitted_same hth hlive rfl (by simp)) fun hcounts => ?_
          obtain ⟨r, hr, hid, hno, hcounted⟩ := hallowed
          obtain ⟨hasks, hpassed⟩ := hcounted C hC hcounts
          exact ⟨(admitted_live hth hlive).mpr ⟨r, hr, hasks, hpassed, hno⟩, r, hr, hid⟩
      | updated hrow hw =>
          -- holds and sales update nothing but to EXPIRED, which no ceiling counts
          obtain ⟨r, hr, hstatus⟩ := hallowed
          refine h.write hheeds hw (admitted_same hth hlive rfl (by simp)) fun hcounts => ?_
          rw [show _ = BookingStatus.expired from hstatus, hC.expired] at hcounts
          cases hcounts
      | committed =>
          refine h.commit hheeds (t := t) rfl ?_ fun u hu => admitted_set_ne hu
          by_contra hadmitted
          obtain ⟨r, -, -, -, hno, -⟩ := (admitted_act hth).mp (by simpa using hadmitted)
          exact hno rfl

/-- **Capacity ceilings survive concurrency** in every run of holds and counter sales whose counts leave room for
    the other admitted requests. -/
theorem ceilings_kept (T : Traffic) (cap room : Nat) (sched : List Nat) (hT : T.Selling cap room)
    (hobeys : T.machine.Obeys (T.CountsInTurn cap room) T.start sched) :
    ∀ c ∈ T.machine.visited T.start sched,
      (∀ tripId passengerId, (c.shared.db.committed.filter fun row =>
        row.tripId = tripId && row.passengerId = passengerId && row.status.isActive).length ≤ cap) ∧
      ∀ tripId travelClass, (c.shared.db.committed.filter fun row =>
        row.tripId = tripId && row.status = .standing && row.travelClass = travelClass).length ≤ room := by
  intro c hc
  have hwithin : ∀ C, Ceiling.Configured cap room C → (c.shared.db.committed.filter C.counts).length ≤ C.limit := by
    intro C hC
    have h : T.Within cap room C c :=
      T.machine.visited_invariant (within_step hC) (within_start hT) hobeys c hc
    exact (Nat.le_add_right _ _).trans h.within
  constructor
  · intro tripId passengerId
    have h := hwithin _ (Or.inl ⟨tripId, passengerId, rfl⟩)
    have hcounts : (Ceiling.seats tripId passengerId cap).counts = fun row =>
        row.tripId = tripId && row.passengerId = passengerId && row.status.isActive :=
      funext fun row => Bool.and_true _
    rwa [hcounts] at h
  · intro tripId travelClass
    exact hwithin _ (Or.inr ⟨tripId, travelClass, rfl⟩)

/-! ## Two runs of the counter -/

/-- `deps` with room for one booking of a passenger and one standing ticket. -/
def narrowDeps (now : Int) (tag : String) : Deps :=
  { sampleDeps now tag with
    getInt := fun key => if key = maxSeatsPerPassenger ∨ key = standingCapacity then .ok 1 else
      (sampleDeps now tag).getInt key }

/-- One passenger holds two seats. -/
def twoSeatsAtOnce : Traffic where
  trips := sampleTrips
  requests :=
    [⟨.hold "slow" "A1" firstHop "nic1" "Nimal" none, narrowDeps 0 "0", acceptAll⟩,
     ⟨.hold "slow" "A2" firstHop "nic1" "Nimal" none, narrowDeps 0 "1", acceptAll⟩]

/-- Three passengers at the counter, one seat. -/
def threeAtTheCounter : Traffic where
  trips := sampleTrips
  requests :=
    [⟨.sell "slow" firstHop "nic1" "Nimal" .third none, narrowDeps 0 "0", acceptAll⟩,
     ⟨.sell "slow" firstHop "nic2" "Kamala" .third none, narrowDeps 0 "1", acceptAll⟩,
     ⟨.sell "slow" firstHop "nic3" "Sunil" .third none, narrowDeps 0 "2", acceptAll⟩]

/-- The second and third passenger arrive together, and the third counts after the second is done. -/
def inLine : List Nat := List.replicate 12 0 ++ [1, 2] ++ List.replicate 12 1 ++ List.replicate 12 2

theorem ceilings_kept_inLine :
    (∀ tripId travelClass, ((threeAtTheCounter.machine.runs threeAtTheCounter.start inLine).shared.db.committed.filter
      fun row => row.tripId = tripId && row.status = .standing && row.travelClass = travelClass).length ≤ 1) ∧
    (threeAtTheCounter.machine.runs threeAtTheCounter.start inLine).shared.db.committed.map (·.status) =
      [.confirmed, .standing] := by
  have hselling : threeAtTheCounter.Selling 1 1 := ⟨by decide +kernel, by decide +kernel, by decide +kernel⟩
  have hobeys :
      threeAtTheCounter.machine.Obeys (threeAtTheCounter.CountsInTurn 1 1) threeAtTheCounter.start inLine := by
    decide +kernel
  exact ⟨(ceilings_kept threeAtTheCounter 1 1 inLine hselling hobeys _
    (threeAtTheCounter.machine.runs_mem_visited _ _)).2, by decide +kernel⟩

/-- Both holds count before either inserts. -/
def sideBySide : List Nat := [0, 1, 0, 1, 0, 1] ++ List.replicate 12 0 ++ List.replicate 12 1

/-- The first passenger takes the seat; the others count the standing tickets before either is issued one. -/
def rushHour : List Nat :=
  List.replicate 12 0 ++ [1, 2, 1, 2, 1, 2, 1, 2, 1, 2, 1, 2] ++ List.replicate 12 1 ++ List.replicate 12 2

/-- **Two where one is allowed.** -/
theorem two_over_the_ceiling :
    ((threeAtTheCounter.machine.runs threeAtTheCounter.start rushHour).shared.db.committed.filter fun row =>
      row.tripId = "slow" && row.status = .standing && row.travelClass = .third).length = 2 ∧
    ¬ ∀ (T : Traffic) (cap room : Nat) (sched : List Nat), T.Selling cap room →
      ∀ c ∈ T.machine.visited T.start sched, ∀ tripId passengerId, (c.shared.db.committed.filter fun row =>
        row.tripId = tripId && row.passengerId = passengerId && row.status.isActive).length ≤ cap := by
  refine ⟨by decide +kernel, fun hall => ?_⟩
  have hselling : twoSeatsAtOnce.Selling 1 1 := ⟨by decide +kernel, by decide +kernel, by decide +kernel⟩
  have hone := hall twoSeatsAtOnce 1 1 sideBySide hselling _ (twoSeatsAtOnce.machine.runs_mem_visited _ _) "slow" "nic1"
  have htwo : ((twoSeatsAtOnce.machine.runs twoSeatsAtOnce.start sideBySide).shared.db.committed.filter fun row =>
      row.tripId = "slow" && row.passengerId = "nic1" && row.status.isActive).length = 2 := by decide +kernel
  omega

end Traffic

end SlrBooking
