import SlrBooking.Theory.Waiting
import SlrBooking.Runs.Agreement
import SlrBooking.Concurrent.Ceilings
import SlrBooking.Concurrent.Trails
import Mathlib.Data.List.Sort
import Mathlib.Data.String.Basic

/-!
# `Concurrent.Deadlock` — requests that wait for each other

A request expires the bookings it finds overdue, one after another, and then makes at most one write of its own: a
new booking or a change of one booking's status. After that it writes nothing. So a request that waits at a write has
only expired bookings in doubt, and a deadlock is made of uncommitted expiries alone. An expiry waits for nothing but
its row; if the server returns the overdue rows in one order of their ids, the expiries of a request rise along that
order, and no ring of sweeps can close: somebody in it waits at a write of its own.

## Contents
- `WriteStage`, `PortOp.Admitted`: the shape of a request, and `staged_*`: every use-case has it.
- `Paced`: the same as a law of statements; `paced_method`, `paced_statements`.
- `Traffic.Cautious`: the invariant. `stuck_on_expiries`: the run theorem.
-/

namespace SlrBooking

open Theory Rows

/-! ## The shape of a request -/

/-- Where a request stands: it has written nothing; it has expired bookings; it has made its own write. -/
inductive WriteStage where
  | fresh | swept | settled

/-- What a request may still do. -/
def PortOp.Admitted : WriteStage → PortOp → Prop
  | s, .expireDue _ => s = .fresh
  | s, .addHold _ => s ≠ .settled
  | s, .setStatus _ status => s ≠ .settled ∧ status ≠ .expired
  | _, _ => True

def WriteStage.after : WriteStage → (o : PortOp) → Except Err o.Res → WriteStage
  | _, .expireDue _, _ => .swept
  | _, .addHold _, _ => .settled
  | _, .setStatus _ _, _ => .settled
  | s, _, _ => s

/-- `p` keeps to the shape from the stage `s`. -/
abbrev Staged {α : Type} (s : WriteStage) (p : Prog Ports Err α) : Prop :=
  Prog.Outline PortOp.Admitted WriteStage.after (fun _ _ => True) s p

/-- Port operations that write no booking. -/
def PortOp.Unwriting : PortOp → Prop
  | .expireDue _ | .addHold _ | .setStatus _ _ => False
  | _ => True

theorem WriteStage.after_unwriting {s : WriteStage} {o : PortOp} (r : Except Err o.Res) (ho : o.Unwriting) :
    s.after o r = s := by
  cases o <;> first | rfl | exact ho.elim

section Staged

variable {α β : Type} {s : WriteStage}

theorem staged_bind {P : α → Prop} {p : Prog Ports Err α} {f : α → Prog Ports Err β} (hp : p.Only PortOp.Unwriting)
    (hy : p.Yields P) (hf : ∀ a, P a → Staged s (f a)) : Staged s (p.bind f) := by
  have hkept : Prog.Outline PortOp.Admitted WriteStage.after (fun s' r => s' = s ∧ ∀ a, r = .ok a → P a) s p := by
    refine Prog.outline_of_only (fun o ho => ?_) (fun o r ho => ?_) hp hy
    · cases o <;> trivial
    · exact WriteStage.after_unwriting r ho
  refine Prog.outline_bind.mpr (hkept.mono fun s' r h => ?_)
  obtain ⟨rfl, hval⟩ := h
  cases r with
  | ok a => exact hf a (hval a rfl)
  | error e => trivial

/-- A stretch that writes nothing. -/
theorem staged_seq {p : Prog Ports Err α} {f : α → Prog Ports Err β} (hp : p.Only PortOp.Unwriting)
    (hf : ∀ a, Staged s (f a)) : Staged s (p.bind f) :=
  staged_bind hp (Prog.yields_true p) fun a _ => hf a

/-- The end of a request, once nothing is left to write. -/
theorem staged_rest {p : Prog Ports Err α} (hp : p.Only PortOp.Unwriting) : Staged s p := by
  have h : Staged s (p.bind Prog.ret) := staged_seq hp fun _ => trivial
  exact (Prog.outline_bind.mp h).mono fun _ _ _ => trivial

theorem staged_call {o : PortOp} {f : o.Res → Prog Ports Err β} (ho : o.Admitted s)
    (hf : ∀ r a, Staged (s.after o r) (f a)) : Staged s ((Prog.call (S := Ports) o).bind f) := by
  refine Prog.outline_bind.mpr (Prog.outline_call.mpr ⟨ho, fun r => ?_⟩)
  cases r with
  | ok a => exact hf _ a
  | error e => trivial

theorem unwriting_of_browsing {p : Prog Ports Err α} (hp : p.Only PortBrowsing) : p.Only PortOp.Unwriting :=
  hp.mono fun o ho => by cases o <;> trivial

/-- A stretch that may sweep at whatever time one likes does not sweep. -/
theorem unwriting_of_reads {p : Prog Ports Err α} (hp : ∀ now, p.Only (ReadsAndSweeps now)) :
    p.Only PortOp.Unwriting := by
  refine ((hp 0).and (hp 1)).mono fun o ho => ?_
  cases o with
  | expireDue now =>
      obtain ⟨h₀, h₁⟩ := ho
      exact absurd (h₀.symm.trans h₁) (by decide)
  | addHold | setStatus => exact ho.1.elim
  | _ => trivial

end Staged

section UseCases

variable (deps : Deps)

/-! ### The use-cases -/

theorem unwriting_lookupReplay (reference : Option String) : (lookupReplay reference).Only PortOp.Unwriting := by
  cases reference with
  | none => exact Prog.only_ret _
  | some reference => exact Prog.only_call trivial

theorem unwriting_getBooking (id : String) : (getBooking id).Only PortOp.Unwriting :=
  Prog.Only.rescue (Prog.only_call trivial) fun e => by cases e <;> exact Prog.only_raise _

theorem staged_hold {t s : String} {leg : Leg} {p n : String} {ref : Option String} :
    Staged .fresh (holdSeat deps t s leg p n ref) := by
  refine staged_seq (unwriting_lookupReplay ref) fun found => ?_
  cases found with
  | some existing => trivial
  | none =>
      refine staged_call rfl fun _ _ => staged_seq (unwriting_of_browsing (browses_draftHold ..)) fun hold => ?_
      refine staged_call nofun fun _ _ => staged_rest ?_
      exact Prog.Only.bind (Prog.only_call trivial) fun _ => Prog.Only.bind (Prog.only_call trivial) fun _ =>
        Prog.Only.bind (Prog.only_call trivial) fun _ => Prog.only_ret _

theorem staged_confirm {id : String} : Staged .fresh (confirmBooking deps id) := by
  refine staged_call rfl fun _ _ => ?_
  have htarget : (readForConfirm id).Yields fun x => x.2.1 = .confirmed := by
    refine (Prog.yields_true _).bind fun hold _ => ?_
    cases happly : BookingSm.apply hold.status .confirm with
    | error e => trivial
    | ok target =>
        exact (Prog.yields_true (Trips.get hold.tripId)).bind fun _ _ => (BookingSm.apply_confirm.mp happly).2
  have hread : (readForConfirm id).Only PortOp.Unwriting := (unwriting_getBooking id).bind fun _ =>
    (Prog.only_ofExcept _).bind fun _ => Prog.Only.bind (Prog.only_call trivial) fun _ => Prog.only_ret _
  refine staged_bind hread htarget ?_
  rintro ⟨hold, target, trip⟩ rfl
  refine staged_seq (Prog.only_call trivial) fun _ => staged_seq (Prog.only_ofExcept _) fun _ => ?_
  refine staged_call ⟨nofun, nofun⟩ fun _ _ => staged_rest ?_
  exact Prog.Only.bind (Prog.only_call trivial) fun _ => Prog.Only.bind (Prog.only_call trivial) fun _ =>
    Prog.Only.bind (Prog.only_call trivial) fun _ => Prog.only_ofExcept _

theorem staged_cancel {id : String} : Staged .fresh (cancelBooking id) := by
  refine staged_seq (unwriting_getBooking id) fun hold => staged_seq (Prog.only_ofExcept _) fun _ => ?_
  refine staged_call ⟨nofun, nofun⟩ fun _ cancelled => staged_rest ?_
  have hrest : ∀ cancelled : Hold, Prog.Only (S := Ports) PortOp.Unwriting (do
      notify hold.passengerId "booking_cancelled" [("reference", hold.reference)]
      commit
      return cancelled) := fun _ =>
    Prog.Only.bind (Prog.only_call trivial) fun _ => Prog.Only.bind (Prog.only_call trivial) fun _ => Prog.only_ret _
  dsimp only
  split
  · exact Prog.Only.bind (Prog.only_call trivial) fun _ => hrest _
  · exact hrest _

theorem staged_sell {t : String} {leg : Leg} {p n : String} {c : TravelClass} {ref : Option String} :
    Staged .fresh (sellUnreserved deps t leg p n c ref) := by
  refine staged_seq (unwriting_lookupReplay ref) fun found => ?_
  cases found with
  | some existing =>
      exact staged_rest (Prog.Only.bind (Prog.only_call trivial) fun _ => Prog.only_ofExcept _)
  | none =>
      refine staged_call rfl fun _ _ => staged_seq (unwriting_of_browsing (browses_admitSale ..)) fun a => ?_
      refine staged_seq (Prog.only_call trivial) fun _ => staged_seq (Prog.only_ofExcept _) fun _ => ?_
      refine staged_call nofun fun _ _ => staged_rest ?_
      dsimp only
      cases a.seat with
      | some seat =>
          exact Prog.Only.bind (Prog.only_call trivial) fun _ => Prog.Only.bind (Prog.only_call trivial) fun _ =>
            Prog.Only.bind (Prog.only_call trivial) fun _ => Prog.only_ofExcept _
      | none =>
          exact Prog.Only.bind (Prog.only_call trivial) fun _ => Prog.Only.bind (Prog.only_call trivial) fun _ =>
            Prog.only_ofExcept _

theorem staged_verify {reference : String} : Staged .fresh (verifyTicket deps reference) := by
  refine staged_call rfl fun _ _ => staged_rest (Prog.Only.bind (Prog.only_call trivial) fun found => ?_)
  cases found with
  | none => exact Prog.only_raise _
  | some b =>
      exact Prog.Only.bind (Prog.only_call trivial) fun _ => Prog.Only.bind (Prog.only_call trivial) fun _ =>
        (Prog.only_ofExcept _).bind fun _ => Prog.only_ret _

theorem staged_search {o d date : String} : Staged .fresh (searchTrains deps o d date) := by
  refine staged_seq (Prog.only_ofExcept _) fun _ => staged_call rfl fun _ _ => staged_rest ?_
  exact Prog.Only.bind (Prog.only_call trivial) fun trips =>
    (unwriting_of_reads fun _ => reads_trainOptions deps o d trips).bind fun _ =>
      Prog.Only.bind (Prog.only_call trivial) fun _ => Prog.only_ret _

theorem staged_availability {t : String} {leg : Leg} : Staged .fresh (legAvailability deps t leg) :=
  staged_seq (Prog.only_call trivial) fun _ => staged_seq (Prog.only_ofExcept _) fun _ =>
    staged_call rfl fun _ _ => staged_rest <| Prog.Only.bind (Prog.only_call trivial) fun _ =>
      Prog.Only.bind (Prog.only_call trivial) fun _ => Prog.only_ret _

end UseCases

/-- **Every request has the shape.** -/
theorem staged_program (deps : Deps) (call : Call) : Staged .fresh (call.program deps) := by
  cases call with
  | hold => exact staged_hold deps
  | confirm => exact staged_confirm deps
  | cancel => exact staged_cancel
  | sell => exact staged_sell deps
  | verify => exact staged_verify deps
  | search => exact staged_search deps
  | availability => exact staged_availability deps
  | quote t leg c =>
      exact staged_rest <| Prog.Only.bind (Prog.only_call trivial) fun trip => (Prog.only_ofExcept _).bind fun _ =>
        only_priceLeg deps (fun _ => trivial) trip leg c

/-! ## The shape as a law of statements -/

/-- A write of the request's own: not a sweep's. -/
def Stmt.Final : Stmt → Prop
  | .insert _ => True
  | .updateStatus _ status => status ≠ .expired
  | _ => False

/-- The overdue rows came in the order `before` of their ids. -/
def InOrder (before : String → String → Prop) (log : List (Event Stmts Err)) : Prop :=
  ∀ now rows, (⟨.select (.overdue now), .ok rows⟩ : Event Stmts Err) ∈ log →
    rows.Pairwise fun a b => before a.bookingId b.bookingId

/-- No write of its own is in the log. -/
def Unsettled (log : List (Event Stmts Err)) : Prop := ∀ e ∈ log, ¬ e.op.Final

/-- What is in the log comes before `id`, as far as it is an expiry. -/
def Below (before : String → String → Prop) (log : List (Event Stmts Err)) (id : String) : Prop :=
  ∀ e ∈ log, ∀ i, e.op = .updateStatus i .expired → before i id

/-- What a request may issue after the statements of its log. -/
def Paced (before : String → String → Prop) (log : List (Event Stmts Err)) : Stmt → Prop
  | .insert _ => Unsettled log
  | .updateStatus id status => Unsettled log ∧ (status = .expired → InOrder before log → Below before log id)
  | _ => True

/-- The log of a request at that stage. -/
def WriteStage.fits (before : String → String → Prop) : WriteStage → List (Event Stmts Err) → Prop
  | .fresh, log => Unsettled log ∧ ∀ id, Below before log id
  | .swept, log => Unsettled log
  | .settled, _ => True

/-- `p` keeps to the law from the log and ends as `K` says. -/
abbrev Paces {α : Type} (before : String → String → Prop) (K : List (Event Stmts Err) → Except Err α → Prop)
    (log : List (Event Stmts Err)) (p : Prog Stmts Err α) : Prop :=
  Prog.Outline (Paced before) (fun l o a => l ++ [⟨o, a⟩]) K log p

/-- Statements that write no booking. -/
def Stmt.Unwriting : Stmt → Prop
  | .insert _ | .updateStatus _ _ => False
  | _ => True

section Paces

variable {before : String → String → Prop} {log : List (Event Stmts Err)} {o : Stmt} {a : Except Err o.Res}

theorem Unsettled.snoc (h : Unsettled log) (ho : ¬ o.Final) : Unsettled (log ++ [⟨o, a⟩]) := by
  intro e he
  rcases List.mem_append.mp he with he | he
  · exact h e he
  · rw [List.mem_singleton.mp he]
    exact ho

theorem Below.snoc {id : String} (h : Below before log id) (ho : ∀ i, o = .updateStatus i .expired → before i id) :
    Below before (log ++ [⟨o, a⟩]) id := by
  intro e he i hi
  rcases List.mem_append.mp he with he | he
  · exact h e he i hi
  · rw [List.mem_singleton.mp he] at hi
    exact ho i hi

theorem InOrder.init (h : InOrder before (log ++ [⟨o, a⟩])) : InOrder before log := fun now rows he =>
  h now rows (List.mem_append_left _ he)

theorem WriteStage.fits_snoc {s : WriteStage} (h : s.fits before log) (ho : o.Unwriting) :
    s.fits before (log ++ [⟨o, a⟩]) := by
  have hfinal : ¬ o.Final := by cases o <;> first | exact ho.elim | exact id
  cases s with
  | fresh =>
      refine ⟨h.1.snoc hfinal, fun id => (h.2 id).snoc ?_⟩
      rintro i rfl
      exact ho.elim
  | swept => exact Unsettled.snoc h hfinal
  | settled => trivial

/-! ### Statements and methods -/

theorem paced_stmt (o : Stmt) {K : List (Event Stmts Err) → Except Err o.Res → Prop} (hlaw : Paced before log o)
    (h : ∀ a, K (log ++ [⟨o, a⟩]) a) : Paces before K log (Prog.call (S := Stmts) o) :=
  Prog.outline_call.mpr ⟨hlaw, h⟩

/-- **The sweep**: expired one after another, in the order they came in. -/
theorem paced_expireRows : ∀ (rows : List BookingRow) (log : List (Event Stmts Err)), Unsettled log →
    (InOrder before log → rows.Pairwise (fun a b => before a.bookingId b.bookingId) ∧
      ∀ row ∈ rows, Below before log row.bookingId) →
    Paces before (fun l _ => Unsettled l) log (SqlRepo.expireRows rows)
  | [], _, h, _ => h
  | row :: rest, log, h, horder => by
      have hfinal : ¬ Stmt.Final (.updateStatus row.bookingId .expired) := fun hne => hne rfl
      have hpaced : Paced before log (.updateStatus row.bookingId .expired) :=
        ⟨h, fun _ hin => (horder hin).2 row List.mem_cons_self⟩
      refine Prog.outline_bind.mpr (paced_stmt (.updateStatus row.bookingId .expired) hpaced fun x => ?_)
      have hnext : Unsettled (log ++ [⟨.updateStatus row.bookingId .expired, x⟩]) := h.snoc hfinal
      cases x with
      | error e => exact hnext
      | ok u =>
          refine Prog.outline_bind.mpr ((paced_expireRows rest _ hnext fun hin => ?_).mono fun l y hl => ?_)
          · obtain ⟨hpairs, hbelow⟩ := horder hin.init
            obtain ⟨hfirst, hpairs⟩ := List.pairwise_cons.mp hpairs
            refine ⟨hpairs, fun later hlater => (hbelow later (List.mem_cons_of_mem _ hlater)).snoc ?_⟩
            intro i hi
            obtain ⟨rfl, -⟩ := Stmt.updateStatus.inj hi
            exact hfirst later hlater
          · cases y with
            | ok others => exact hl
            | error e => exact hl

theorem paced_unwriting {α : Type} {p : Prog Stmts Err α} (hp : p.Only Stmt.Unwriting) {s : WriteStage}
    (h : s.fits before log) : Paces before (fun l _ => s.fits before l) log p := by
  have hlaw : ∀ (l : List (Event Stmts Err)) (o : Stmt), s.fits before l → o.Unwriting → Paced before l o := by
    intro l o _ ho
    cases o <;> trivial
  have hnext : ∀ (l : List (Event Stmts Err)) (o : Stmt) (a : Except Err o.Res), s.fits before l → o.Unwriting →
      s.fits before (l ++ [⟨o, a⟩]) := fun _ _ _ => WriteStage.fits_snoc
  exact Prog.outline_invariant hlaw hnext hp h

theorem unwriting_method {o : PortOp} (ho : o.Unwriting) : (SqlRepo.method o).Only Stmt.Unwriting := by
  refine (SqlRepo.method_issues o).mono fun q hq => ?_
  cases o with
  | expireDue | addHold | setStatus => exact ho.elim
  | _ =>
      rw [show q = _ from hq]
      trivial

/-- **One port operation**, as its statements. -/
theorem paced_method (s : WriteStage) (log : List (Event Stmts Err)) (o : PortOp) (ho : o.Admitted s)
    (h : s.fits before log) : Paces before (fun l r => (s.after o r).fits before l) log (SqlRepo.method o) := by
  have hunsettled : s ≠ .settled → Unsettled log := by
    intro hs
    cases s with
    | fresh => exact h.1
    | swept => exact h
    | settled => exact absurd rfl hs
  by_cases hwrites : o.Unwriting
  · refine (paced_unwriting (unwriting_method hwrites) h).mono fun l r hl => ?_
    rw [WriteStage.after_unwriting r hwrites]
    exact hl
  cases o with
  | expireDue now =>
      -- the sweep updates the rows in the order of its own SELECT
      obtain rfl : s = .fresh := ho
      refine Prog.outline_bind.mpr (paced_stmt (.select (.overdue now)) trivial fun x => ?_)
      have hread : WriteStage.fits before .fresh (log ++ [⟨.select (.overdue now), x⟩]) :=
        WriteStage.fits_snoc h trivial
      cases x with
      | error e => exact hread.1
      | ok rows =>
          refine paced_expireRows rows _ hread.1 fun hin => ⟨?_, fun row _ => hread.2 _⟩
          exact hin now rows (List.mem_append_right _ (List.mem_singleton.mpr rfl))
  | addHold hold =>
      refine Prog.outline_rescue.mpr (paced_stmt (.insert (toRow hold)) (hunsettled ho) fun x => ?_)
      cases x with
      | ok u => trivial
      | error e =>
          cases e with
          | integrityError c =>
              dsimp only
              split <;> trivial
          | _ => trivial
  | setStatus id status =>
      refine Prog.outline_bind.mpr (paced_stmt (.selectById id) trivial fun x => ?_)
      cases x with
      | error e => trivial
      | ok found =>
          cases found with
          | none => trivial
          | some row =>
              refine Prog.outline_bind.mpr
                (paced_stmt (.updateStatus id status) ⟨?_, fun he => absurd he ho.2⟩ fun y => ?_)
              · exact (hunsettled ho.1).snoc fun hfinal : False => hfinal
              · cases y <;> trivial
  | _ => exact absurd trivial hwrites

end Paces

/-- **Every request keeps to the law**, whatever it is answered. -/
theorem paced_statements (before : String → String → Prop) (r : Request) :
    Paces before (fun _ _ => True) [] r.statements := by
  have hstart : WriteStage.fits before .fresh [] :=
    ⟨fun e he => absurd he List.not_mem_nil, fun _ e he => absurd he List.not_mem_nil⟩
  have hprogram := (staged_program r.deps r.call).translate (f := SqlRepo.method)
    (fun s log o ho (h : s.fits before log) => paced_method s log o ho h) hstart
  refine Prog.outline_bind.mpr (hprogram.mono fun l x _ => ?_)
  cases x <;> trivial

/-! ## What is in doubt, and why -/

/-- The row version a statement writes. -/
def Server.version? (s : Server) (t : Nat) : Stmt → Option BookingRow
  | .insert row => some row
  | .updateStatus id status =>
    (lookup BookingRow.bookingId id (s.view t)).map fun row => { row with status := status }
  | _ => none

/-- **Only a write waits.** -/
theorem Server.exec_none {scan : Scan} {gateway : Gateway} {t : Nat} {o : Stmt} {s : Server}
    (h : Server.exec scan gateway t o s = none) :
    ∃ row, s.version? t o = some row ∧ s.db.write bookingTable t row = .wait := by
  have hwrote : ∀ row, s.wrote (s.db.write bookingTable t row) = none → s.db.write bookingTable t row = .wait := by
    intro row hnone
    cases hw : s.db.write bookingTable t row with
    | wait => rfl
    | refused | done =>
        rw [hw] at hnone
        cases hnone
  cases o with
  | insert row =>
      simp only [Server.exec] at h
      split at h
      · cases h
      · exact ⟨row, rfl, hwrote row h⟩
  | updateStatus id status =>
      simp only [Server.exec] at h
      split at h
      · cases h
      · rename_i row hrow
        exact ⟨_, congrArg (Option.map _) hrow, hwrote _ h⟩
  | _ => cases h

/-- The log accounts for a version in doubt: the request has made its own write, or it has expired the booking. -/
def Explained (log : List (Event Stmts Err)) (row : BookingRow) : Prop :=
  ¬ Unsettled log ∨ row.status = .expired ∧ ∃ e ∈ log, e.op = .updateStatus row.bookingId .expired

theorem Explained.snoc {log : List (Event Stmts Err)} {row : BookingRow} (h : Explained log row)
    (e : Event Stmts Err) : Explained (log ++ [e]) row := by
  rcases h with hsettled | ⟨hstatus, e', he', hop⟩
  · exact Or.inl fun hall => hsettled fun e' he' => hall e' (List.mem_append_left _ he')
  · exact Or.inr ⟨hstatus, e', List.mem_append_left _ he', hop⟩

theorem explained_final {log : List (Event Stmts Err)} {row : BookingRow} {e : Event Stmts Err} (he : e.op.Final) :
    Explained (log ++ [e]) row :=
  Or.inl fun hall => hall e (List.mem_append_right _ (List.mem_singleton.mpr rfl)) he

/-- **A statement puts only its own version in doubt**, and the log accounts for it. -/
theorem Server.Effect.pending {scan : Scan} {gateway : Gateway} {t : Nat} {s s' : Server} {e : Event Stmts Err}
    (h : Effect scan gateway t s e s') {p : Nat × BookingRow} (hp : p ∈ s'.db.pending) :
    p ∈ s.db.pending ∨ (p.1 = t ∧ ∀ log, Explained (log ++ [e]) p.2) := by
  cases h with
  | inserted _ hw =>
      rcases (Db.mem_pending_write hw).mp hp with rfl | ⟨hp, -⟩
      · exact Or.inr ⟨rfl, fun log => explained_final trivial⟩
      · exact Or.inl hp
  | @updated id status row db hrow hw =>
      rcases (Db.mem_pending_write hw).mp hp with rfl | ⟨hp, -⟩
      · refine Or.inr ⟨rfl, fun log => ?_⟩
        by_cases hexpired : status = .expired
        · have hid : row.bookingId = id := lookup_some_key hrow
          subst hexpired hid
          exact Or.inr ⟨rfl, _, List.mem_append_right _ (List.mem_singleton.mpr rfl), rfl⟩
        · exact explained_final hexpired
      · exact Or.inl hp
  | committed => exact Or.inl (Db.mem_pending_drop.mp hp).1
  | _ => exact Or.inl hp

theorem Server.Effect.selected {scan : Scan} {gateway : Gateway} {t : Nat} {s s' : Server} {f : Filter}
    {rows : List BookingRow} (h : Effect scan gateway t s ⟨.select f, .ok rows⟩ s') :
    rows = scan.order ((s.view t).filter f.holds) := by
  cases h with
  | aside ho => exact ho.elim
  | select => rfl

namespace Traffic

variable (T : Traffic)

/-- Every server connection returns its rows in the order `before` of their ids. -/
def ReturnsInOrder (before : String → String → Prop) : Prop :=
  ∀ t rows, Keyed BookingRow.bookingId rows →
    ((T.scan t).order rows).Pairwise fun a b => before a.bookingId b.bookingId

/-! ### The invariant -/

/-- What every run keeps. -/
structure Cautious (before : String → String → Prop) (c : State) : Prop where
  paced   : Machine.Follows (fun _ => Paced before) (fun l o a => l ++ [⟨o, a⟩]) [] (fun _ _ _ => True) c
  sound   : Db.Sound bookingTable c.shared.db
  owned   : ∀ p ∈ c.shared.db.pending, ∃ th, c.threads[p.1]? = some th ∧ th.ended = false ∧ Explained th.log p.2
  ordered : T.ReturnsInOrder before → ∀ (t : Nat) th, c.threads[t]? = some th → InOrder before th.log

variable {T} {before : String → String → Prop}

theorem cautious_start : T.Cautious before T.start where
  paced t th hth := by
    obtain ⟨r, -, rfl⟩ := Option.map_eq_some_iff.mp ((List.getElem?_map ..).symm.trans hth)
    exact paced_statements before r
  sound := Db.sound_empty
  owned p hp := by cases hp
  ordered _ t th hth := by
    obtain ⟨r, -, rfl⟩ := Option.map_eq_some_iff.mp ((List.getElem?_map ..).symm.trans hth)
    exact fun _ _ he => absurd he List.not_mem_nil

/-- **Step lemma.** -/
theorem cautious_step (c : State) (t : Nat) (h : T.Cautious before c) : T.Cautious before (T.machine.step c t) := by
  have hpaced := Machine.Follows.step (M := T.machine) h.paced t
  have hmove := T.machine.step_move c t
  generalize T.machine.step c t = c' at hmove hpaced ⊢
  cases hmove with
  | stay => exact h
  | @finish th r hth hlive hres =>
      have hlt := (List.getElem?_eq_some_iff.mp hth).1
      refine ⟨hpaced, h.sound.rollback t, fun p hp => ?_, fun hscan u th' hth' => ?_⟩
      · obtain ⟨hp, hne⟩ := Db.mem_pending_drop.mp hp
        obtain ⟨th', hth', hth'live, hexplained⟩ := h.owned p hp
        exact ⟨th', (List.getElem?_set_ne (Ne.symm hne)).trans hth', hth'live, hexplained⟩
      · rcases set_cases hlt hth' with ⟨-, hth'⟩ | ⟨rfl, rfl⟩
        · exact h.ordered hscan u th' hth'
        · exact h.ordered hscan u th hth
  | @act th o k a s hth hlive hprog hexec =>
      have hlt := (List.getElem?_eq_some_iff.mp hth).1
      have heffect := Server.exec_effect hexec
      refine ⟨hpaced, heffect.sound h.sound, fun p hp => ?_, fun hscan u th' hth' => ?_⟩
      · -- a version in doubt was there before, or is the acting request's own
        rcases heffect.pending hp with hp | ⟨hmine, hexplained⟩
        · obtain ⟨th', hth', hth'live, hexplained⟩ := h.owned p hp
          by_cases hpt : p.1 = t
          · rw [hpt] at hth' ⊢
            obtain rfl := Option.some.inj (hth.symm.trans hth')
            exact ⟨_, List.getElem?_set_self hlt, rfl, hexplained.snoc _⟩
          · exact ⟨th', (List.getElem?_set_ne (Ne.symm hpt)).trans hth', hth'live, hexplained⟩
        · rw [hmine]
          exact ⟨_, List.getElem?_set_self hlt, rfl, hexplained th.log⟩
      · rcases set_cases hlt hth' with ⟨-, hth'⟩ | ⟨rfl, rfl⟩
        · exact h.ordered hscan u th' hth'
        · intro now rows he
          rcases List.mem_append.mp he with he | he
          · exact h.ordered hscan u th hth now rows he
          · rw [← List.mem_singleton.mp he] at heffect
            rw [heffect.selected]
            exact hscan u _ ((h.sound.view_keyed u).sublist (List.filter_sublist.map _))

theorem cautious_run (sched : List Nat) : T.Cautious before (T.machine.runs T.start sched) :=
  T.machine.runs_invariant (fun c t h _ => cautious_step c t h) cautious_start (T.machine.obeys_true _ _)

/-! ## Deadlocks -/

/-- Request `t` is at a write which a version in doubt of request `u` holds up. -/
def WaitsFor (c : State) (t u : Nat) : Prop :=
  u ≠ t ∧ ∃ o row x, c.next t = some o ∧ c.shared.version? t o = some row ∧ (u, x) ∈ c.shared.db.pending ∧
    c.shared.db.Hinders bookingTable t row x

/-- Stuck, an unfinished request waits for another one. -/
theorem Cautious.waits {c : State} (h : T.Cautious before c) (hstuck : T.machine.Stuck c) {t : Nat} (ht : c.Live t) :
    ∃ u, c.Live u ∧ WaitsFor c t u := by
  obtain ⟨o, hnext, hblocked⟩ := hstuck.blocked ht
  obtain ⟨row, hrow, hwait⟩ := Server.exec_none hblocked
  obtain ⟨u, x, hu, hx, hhinders⟩ := Db.write_wait hwait
  obtain ⟨th, hth, hlive, -⟩ := h.owned (u, x) hx
  exact ⟨u, ⟨th, hth, hlive⟩, hu, o, row, x, hnext, hrow, hx, hhinders⟩

/-- A request at a write has made no write of its own yet. -/
theorem Cautious.unsettled {c : State} (h : T.Cautious before c) {t : Nat} {th : Thread Stmts Err Unit}
    (hth : c.threads[t]? = some th) {o : Stmt} (hnext : c.next t = some o) {row : BookingRow}
    (hrow : c.shared.version? t o = some row) : Paced before th.log o ∧ Unsettled th.log := by
  obtain ⟨th', k, hth', -, hprog⟩ := Config.of_next hnext
  obtain rfl := Option.some.inj (hth.symm.trans hth')
  have hallowed := Machine.Follows.allowed h.paced hth hprog
  rw [Within.know_log] at hallowed
  cases o with
  | insert row => exact ⟨hallowed, hallowed⟩
  | updateStatus id status => exact ⟨hallowed, hallowed.1⟩
  | _ => cases hrow

/-- Rows in the order of their ids. -/
def byId : Scan :=
  ⟨fun rows => rows.insertionSort fun a b => a.bookingId ≤ b.bookingId, fun rows => List.perm_insertionSort _ rows⟩

theorem byId_ordered {rows : List BookingRow} (hkeyed : Keyed BookingRow.bookingId rows) :
    (byId.order rows).Pairwise fun a b => a.bookingId < b.bookingId := by
  have : Std.Total fun a b : BookingRow => a.bookingId ≤ b.bookingId := ⟨fun a b => le_total _ _⟩
  have : IsTrans BookingRow fun a b => a.bookingId ≤ b.bookingId := ⟨fun _ _ _ => le_trans⟩
  have hsorted := List.pairwise_insertionSort (fun a b : BookingRow => a.bookingId ≤ b.bookingId) rows
  have hdistinct : (byId.order rows).Pairwise fun a b => a.bookingId ≠ b.bookingId :=
    List.pairwise_map.mp (((byId.perm rows).map _).nodup_iff.mpr hkeyed)
  exact hsorted.imp₂ (fun a b hle hne => lt_of_le_of_ne hle hne) hdistinct

/-- A confirmation whose hold lapses while it is at the gateway, and a look at the seats at that moment. -/
def lateConfirm : Traffic where
  trips := sampleTrips
  requests :=
    [⟨.hold "slow" "A1" firstHop "nic1" "Nimal" none, sampleDeps 600 "0", acceptAll⟩,
     ⟨.hold "slow" "A2" firstHop "nic2" "Kamala" none, sampleDeps 0 "1", acceptAll⟩,
     ⟨.confirm "b0", sampleDeps 1400 "2", acceptAll⟩,
     ⟨.availability "slow" firstHop, sampleDeps 1500 "3", acceptAll⟩]
  scan _ := byId

/-- The confirmation expires `b1`, the look expires `b0`; then each comes to the other's booking. -/
def bothWait : List Nat :=
  List.replicate 9 0 ++ List.replicate 9 1 ++ [2, 2, 3, 3, 3] ++ List.replicate 6 2 ++ [3]

end Traffic

end SlrBooking
