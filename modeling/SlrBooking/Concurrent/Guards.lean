import SlrBooking.Concurrent.Trails

/-!
# `Concurrent.Guards` — every status update follows a read that allows it, every commit follows the announcements

`confirm_booking` and `cancel_booking` put the booking they have read through the machine's `apply` before they
write its status, and `expire_due` writes what its SELECT found overdue. So whatever a request is answered, it only
ever sends a status UPDATE that was legal for the row it read in the same transaction, and it reads before it writes
anything but expiries. What has become of the row since is another matter: the UPDATE does not look.

A booking that is inserted or changed is published with its trip before the commit, save what takes no seat: a
standing ticket sold or cancelled. A sweep publishes nothing.

## Contents
- `Glance`, `Checked`: what the ports have answered, and which operations that allows. `careful_program`.
- `Sight`, `Guard`: the same for statements. `guarded_statements`: every request keeps to it.
-/

namespace SlrBooking

open Theory Rows

/-! ## Port operations -/

/-- What a use-case has read and done: the bookings read by id, the bookings added and the ids of the bookings
    changed, the trips published about, and whether it has written at all. A commit ends the transaction. -/
structure Glance where
  got     : List (String × Hold) := []
  added   : List Hold := []
  changed : List String := []
  told    : List String := []
  wrote   : Bool := false

def Glance.note (l : Glance) : (o : PortOp) → Except Err o.Res → Glance
  | .get id, .ok hold => { l with got := l.got ++ [(id, hold)] }
  | .addHold hold, .ok _ => { l with added := l.added ++ [hold], wrote := true }
  | .setStatus id _, .ok _ => { l with changed := l.changed ++ [id], wrote := true }
  | .publish event, .ok _ => { l with told := l.told ++ [event.tripId] }
  | .commit, .ok _ => {}
  | _, _ => l

/-- Every booking added or changed has been published, or is a standing ticket, which takes no seat and so alters no
    view. -/
structure Glance.Announced (l : Glance) : Prop where
  added   : ∀ hold ∈ l.added, hold.status ≠ .standing → hold.tripId ∈ l.told
  changed : ∀ id ∈ l.changed, ∃ hold, (id, hold) ∈ l.got ∧ (hold.status = .standing ∨ hold.tripId ∈ l.told)

/-- A status is set only if it is a legal change of the booking read; nothing is read or swept after a write; what is
    committed has been announced. -/
def Checked (l : Glance) : PortOp → Prop
  | .setStatus id status => l.wrote = false ∧ ∃ hold, (id, hold) ∈ l.got ∧ BookingSm.Edge hold.status status
  | .get _ | .expireDue _ => l.wrote = false
  | .commit => l.Announced
  | _ => True

/-- Nothing written yet. -/
structure Glance.Clean (l : Glance) : Prop where
  unwritten : l.wrote = false
  added     : l.added = []
  changed   : l.changed = []

/-- The operations before a write, and those of a use-case that writes nothing. -/
def PortOp.Early : PortOp → Prop
  | .addHold _ | .setStatus _ _ => False
  | _ => True

theorem early_of_browsing {o : PortOp} (ho : PortBrowsing o) : o.Early := by
  cases o with
  | addHold | setStatus => exact ho.elim
  | _ => trivial

theorem early_of_reads {now : Int} {o : PortOp} (ho : ReadsAndSweeps now o) : o.Early := by
  cases o with
  | addHold | setStatus => exact ho.elim
  | _ => trivial

abbrev Checks {α : Type} (K : Glance → Except Err α → Prop) (l : Glance) (p : Prog Ports Err α) : Prop :=
  Prog.Outline Checked Glance.note K l p

/-- The program keeps to the checks however it ends: it sets a status only along the machine from what it read, and
    commits only what it has announced. -/
abbrev Careful {α : Type} (l : Glance) (p : Prog Ports Err α) : Prop := Checks (fun _ _ => True) l p

theorem Glance.Clean.announced {l : Glance} (hl : l.Clean) : l.Announced :=
  ⟨fun _ h => absurd (hl.added ▸ h) List.not_mem_nil, fun _ h => absurd (hl.changed ▸ h) List.not_mem_nil⟩

section Programs

variable {α β : Type} {l : Glance}

/-! ### Parts of a use-case -/

/-- A part that writes nothing may come anywhere before the write. -/
theorem checks_early {p : Prog Ports Err α} (hp : p.Only PortOp.Early) (hl : l.Clean) :
    Checks (fun l' _ => l'.Clean) l p := by
  refine Prog.outline_invariant (I := Glance.Clean) (fun l o hl ho => ?_) (fun l o a hl ho => ?_) hp hl
  · cases o with
    | addHold | setStatus => exact ho.elim
    | get | expireDue => exact hl.unwritten
    | commit => exact hl.announced
    | _ => trivial
  · cases o with
    | addHold | setStatus => exact ho.elim
    | commit =>
        cases a with
        | ok u => exact ⟨rfl, rfl, rfl⟩
        | error e => exact hl
    | _ => cases a <;> exact ⟨hl.unwritten, hl.added, hl.changed⟩

theorem checks_call (o : PortOp) {K : Glance → Except Err o.Res → Prop} (ho : Checked l o)
    (hK : ∀ a, K (l.note o a) a) : Checks K l (Prog.call (S := Ports) o) :=
  Prog.outline_call.mpr ⟨ho, hK⟩

theorem careful_bind {K : Glance → Except Err α → Prop} {p : Prog Ports Err α} {f : α → Prog Ports Err β}
    (hp : Checks K l p) (hf : ∀ a l', K l' (.ok a) → Careful l' (f a)) : Careful l (p.bind f) := by
  refine Prog.outline_bind.mpr (hp.mono fun l' a ha => ?_)
  cases a with
  | ok a => exact hf a l' ha
  | error e => trivial

/-- One operation, and if it was answered the rest. -/
theorem careful_call {o : PortOp} {f : o.Res → Prog Ports Err β} (ho : Checked l o)
    (hf : ∀ a, Careful (l.note o (.ok a)) (f a)) : Careful l ((Prog.call (S := Ports) o).bind f) := by
  refine careful_bind (checks_call o (K := fun l' a => l' = l.note o a) ho fun _ => rfl) ?_
  rintro a l' rfl
  exact hf a

/-- A pure step, and if it returned the rest. -/
theorem careful_ofExcept {x : Except Err α} {f : α → Prog Ports Err β} (hf : ∀ a, x = .ok a → Careful l (f a)) :
    Careful l ((Prog.ofExcept x).bind f) := by
  cases x with
  | ok a => exact hf a rfl
  | error e => trivial

theorem careful_last {x : Except Err α} : Careful l (Prog.ofExcept x) := by
  cases x <;> trivial

theorem early_lookupReplay (reference : Option String) : (lookupReplay reference).Only PortOp.Early := by
  cases reference with
  | none => exact Prog.only_ret _
  | some reference => exact Prog.only_call trivial

/-- **Read by id**: what comes after knows the booking that was read. -/
theorem careful_getBooking {id : String} {f : Hold → Prog Ports Err β} (hl : l.Clean)
    (hf : ∀ hold l', l'.Clean → (id, hold) ∈ l'.got → Careful l' (f hold)) : Careful l ((getBooking id).bind f) := by
  have hread : Checks (fun l' a => ∀ hold, a = .ok hold → l'.Clean ∧ (id, hold) ∈ l'.got) l (getBooking id) := by
    unfold getBooking Bookings.get
    rw [Prog.tryCatch_eq]
    refine Prog.outline_rescue.mpr (checks_call (.get id) hl.unwritten fun a => ?_)
    cases a with
    | ok hold =>
        intro hold' heq
        obtain rfl := Except.ok.inj heq
        exact ⟨⟨hl.unwritten, hl.added, hl.changed⟩, List.mem_append_right _ (List.mem_singleton.mpr rfl)⟩
    | error e => cases e <;> exact fun _ heq => by cases heq
  exact careful_bind hread fun hold l' h => hf hold l' (h hold rfl).1 (h hold rfl).2

/-- Insert, publish, commit. -/
theorem careful_placeHold (hold : Hold) (hl : l.Clean) : Careful l (placeHold hold) := by
  refine careful_call trivial fun _ => careful_call trivial fun _ => careful_call trivial fun _ =>
    careful_call (o := .commit) ⟨fun h hmem _ => ?_, fun id hmem => ?_⟩ fun _ => trivial
  · rcases List.mem_append.mp hmem with hmem | hmem
    · exact absurd (hl.added ▸ hmem) List.not_mem_nil
    · rw [List.mem_singleton.mp hmem]
      exact List.mem_append_right _ (List.mem_singleton.mpr rfl)
  · exact absurd (hl.changed ▸ hmem) List.not_mem_nil

theorem careful_issueTicket (deps : Deps) {sold : Hold} {a : Admission} (hl : l.Clean)
    (hsold : a.seat = none → sold.status = .standing) : Careful l (issueTicket deps sold a) := by
  refine careful_call (o := .addHold sold) trivial fun _ => ?_
  have hadded : ∀ h ∈ l.added ++ [sold], h = sold := by
    intro h hmem
    rw [hl.added, List.nil_append, List.mem_singleton] at hmem
    exact hmem
  have hrest : ∀ (told : List String) (receipt : Except Err Receipt),
      (sold.status ≠ .standing → sold.tripId ∈ told) →
      Careful { l with added := l.added ++ [sold], told := told, wrote := true } (do
        notify sold.passengerId "counter_sale" [("reference", sold.reference), ("status", sold.status.value)]
        commit
        Prog.ofExcept receipt) := by
    intro told receipt htold
    refine careful_call trivial fun _ => careful_call (o := .commit) ⟨fun h hmem hstatus => ?_, fun id hmem => ?_⟩
      fun _ => careful_last
    · rw [hadded h hmem] at hstatus ⊢
      exact htold hstatus
    · exact absurd (hl.changed ▸ hmem) List.not_mem_nil
  dsimp only
  cases hseat : a.seat with
  | some seat =>
      refine careful_call (o := .publish _) trivial fun _ => hrest (l.told ++ [sold.tripId]) _ fun _ => ?_
      exact List.mem_append_right _ (List.mem_singleton.mpr rfl)
  | none => exact hrest l.told _ fun hstatus => absurd (hsold hseat) hstatus

/-- One booking changed and published, or a standing ticket. -/
theorem Glance.Clean.changed_announced {id : String} {hold : Hold} {told : List String} (hl : l.Clean)
    (hgot : (id, hold) ∈ l.got) (htold : hold.status = .standing ∨ hold.tripId ∈ told) :
    Glance.Announced { l with changed := l.changed ++ [id], told := told, wrote := true } := by
  refine ⟨fun _ hmem => absurd (hl.added ▸ hmem) List.not_mem_nil, fun id' hmem => ?_⟩
  rw [hl.changed, List.nil_append, List.mem_singleton] at hmem
  rw [hmem]
  exact ⟨hold, hgot, htold⟩

/-! ### The use-cases -/

theorem careful_hold (deps : Deps) (t s : String) (leg : Leg) (p n : String) (ref : Option String) :
    Careful {} (holdSeat deps t s leg p n ref) := by
  refine careful_bind (checks_early (early_lookupReplay ref) ⟨rfl, rfl, rfl⟩) fun found l hl => ?_
  cases found with
  | some existing => trivial
  | none =>
      refine careful_bind (checks_early (Prog.only_call (S := Ports) (o := .expireDue deps.now) trivial) hl)
        fun _ l hl => ?_
      exact careful_bind (checks_early ((browses_draftHold deps t s leg p n ref).mono fun _ => early_of_browsing) hl)
        fun hold l hl => careful_placeHold hold hl

theorem careful_sell (deps : Deps) (t : String) (leg : Leg) (p n : String) (c : TravelClass) (ref : Option String) :
    Careful {} (sellUnreserved deps t leg p n c ref) := by
  refine careful_bind (checks_early (early_lookupReplay ref) ⟨rfl, rfl, rfl⟩) fun found l hl => ?_
  cases found with
  | some existing => exact careful_call trivial fun _ => careful_last
  | none =>
      refine careful_bind (checks_early (Prog.only_call (S := Ports) (o := .expireDue deps.now) trivial) hl)
        fun _ l hl => ?_
      refine careful_bind (checks_early ((browses_admitSale deps t leg p c).mono fun _ => early_of_browsing) hl)
        fun a l hl => ?_
      refine careful_call (o := .charge _ a.fare) trivial fun _ => careful_ofExcept fun _ _ =>
        careful_issueTicket deps ⟨hl.unwritten, hl.added, hl.changed⟩ fun hseat => ?_
      unfold soldTicket
      rw [hseat]
      rfl

/-- `confirm_booking`: the booking read must be HELD. -/
theorem careful_confirm (deps : Deps) (id : String) : Careful {} (confirmBooking deps id) := by
  refine careful_bind (checks_early (Prog.only_call (S := Ports) (o := .expireDue deps.now) trivial) ⟨rfl, rfl, rfl⟩)
    fun _ l hl => ?_
  unfold readForConfirm
  simp only [Prog.bind_eq, Prog.bind_assoc, Prog.pure_eq, Prog.ret_bind]
  refine careful_getBooking hl fun hold l hl hgot => careful_ofExcept fun target htarget => ?_
  -- neither the trip nor the charge teaches anything about bookings
  refine careful_call (o := .getTrip hold.tripId) trivial fun trip => ?_
  refine careful_call (o := .charge hold.reference ⟨hold.fareCents⟩) trivial fun result => ?_
  refine careful_ofExcept fun _ _ => ?_
  refine careful_call (o := .setStatus id target) ⟨hl.unwritten, hold, hgot, BookingSm.edge_of_apply htarget⟩
    fun confirmed => ?_
  refine careful_call (o := .publish _) trivial fun _ => careful_call (o := .notify _) trivial fun _ => ?_
  refine careful_call (o := .commit) (hl.changed_announced hgot (Or.inr ?_)) fun _ => careful_last
  exact List.mem_append_right _ (List.mem_singleton.mpr rfl)

/-- `cancel_booking`: the booking read must not be over already. What takes no seat is cancelled in silence. -/
theorem careful_cancel (id : String) : Careful {} (cancelBooking id) := by
  refine careful_getBooking ⟨rfl, rfl, rfl⟩ fun hold l hl hgot => careful_ofExcept fun target htarget => ?_
  have hedge : BookingSm.Edge hold.status .cancelled := BookingSm.apply_cancel htarget ▸ BookingSm.edge_of_apply htarget
  refine careful_call (o := .setStatus id .cancelled) ⟨hl.unwritten, hold, hgot, hedge⟩ fun cancelled => ?_
  have hrest : ∀ told : List String, (hold.status = .standing ∨ hold.tripId ∈ told) →
      Careful { l with changed := l.changed ++ [id], told := told, wrote := true } (do
        notify hold.passengerId "booking_cancelled" [("reference", hold.reference)]
        commit
        return cancelled) := fun told htold =>
    careful_call trivial fun _ => careful_call (o := .commit) (hl.changed_announced hgot htold) fun _ => trivial
  dsimp only
  by_cases hactive : hold.status.isActive = true
  · rw [if_pos hactive]
    refine careful_call (o := .publish _) trivial fun _ => hrest _ (Or.inr ?_)
    exact List.mem_append_right _ (List.mem_singleton.mpr rfl)
  · rw [if_neg hactive]
    refine hrest l.told (Or.inl ?_)
    rcases BookingSm.edge_iff.mp hedge with ⟨hheld, -⟩ | ⟨hconfirmed, -⟩ | ⟨hstanding, -⟩
    · exact absurd (hheld ▸ rfl) hactive
    · exact absurd (hconfirmed ▸ rfl) hactive
    · exact hstanding

end Programs

theorem careful_reader {α : Type} {now : Int} {p : Prog Ports Err α} (hp : p.Only (ReadsAndSweeps now)) :
    Careful {} p :=
  (checks_early (hp.mono fun _ => early_of_reads) ⟨rfl, rfl, rfl⟩).mono fun _ _ _ => trivial

/-- **Every use-case checks before it changes a status**, and announces before it commits. -/
theorem careful_program (r : Request) : Careful {} (r.call.program r.deps) := by
  cases hcall : r.call with
  | hold => exact careful_hold ..
  | confirm => exact careful_confirm ..
  | cancel => exact careful_cancel ..
  | sell => exact careful_sell ..
  | verify => exact careful_reader (reads_verifyTicket r.deps _)
  | search => exact careful_reader (reads_searchTrains r.deps _ _ _)
  | availability => exact careful_reader (reads_legAvailability r.deps _ _)
  | quote => exact careful_reader (reads_quoteFare r.deps _ _ _)

/-! ## Statements -/

/-- What a transaction has read and done: the rows its sweep found overdue and the rows it asked for by id, the rows
    inserted and the ids of the rows changed, the trips published about, and whether it has written anything other
    than an expiry. A commit ends the transaction. -/
structure Sight where
  due     : List BookingRow := []
  found   : List (String × BookingRow) := []
  added   : List BookingRow := []
  changed : List String := []
  told    : List String := []
  wrote   : Bool := false

def Sight.note (l : Sight) : (o : Stmt) → Except Err o.Res → Sight
  | .select (.overdue _), .ok rows => { l with due := l.due ++ rows }
  | .selectById id, .ok (some row) => { l with found := l.found ++ [(id, row)] }
  | .insert row, .ok _ => { l with added := l.added ++ [row], wrote := true }
  | .updateStatus id status, .ok _ =>
    if status = .expired then l else { l with changed := l.changed ++ [id], wrote := true }
  | .publish event, .ok _ => { l with told := l.told ++ [event.tripId] }
  | .commit, .ok _ => {}
  | _, _ => l

/-- All rows read in order to change a status. -/
def Sight.rows (l : Sight) : List BookingRow := l.due ++ l.found.map (·.2)

/-- Every row inserted or changed has been published, or is a standing ticket. -/
structure Sight.Announced (l : Sight) : Prop where
  added   : ∀ row ∈ l.added, row.status ≠ .standing → row.tripId ∈ l.told
  changed : ∀ id ∈ l.changed, ∃ row, (id, row) ∈ l.found ∧ (row.status = .standing ∨ row.tripId ∈ l.told)

/-- A status update expires a row that the sweep found, or is a legal change of a row read by id; nothing is read
    after such a change; what is committed has been announced. -/
def Guard (l : Sight) : Stmt → Prop
  | .updateStatus id status => (status = .expired ∧ ∃ row ∈ l.due, row.bookingId = id) ∨
      ∃ row, (id, row) ∈ l.found ∧ BookingSm.Edge row.status status
  | .select (.overdue _) | .selectById _ => l.wrote = false
  | .commit => l.Announced
  | _ => True

abbrev Guarded {α : Type} (K : Sight → Except Err α → Prop) (n : Sight) (p : Prog Stmts Err α) : Prop :=
  Prog.Outline Guard Sight.note K n p

/-- **How the two levels fit**: the transaction has seen what the use-case was told, and has done no more than the
    use-case asked for. -/
structure Glance.Fits (l : Glance) (n : Sight) : Prop where
  unwritten : l.wrote = false → n.wrote = false
  got       : ∀ id hold, (id, hold) ∈ l.got → ∃ row, (id, row) ∈ n.found ∧ hold = toHold row
  added     : ∀ row ∈ n.added, ∃ hold ∈ l.added, row = toRow hold
  changed   : ∀ id ∈ n.changed, id ∈ l.changed
  told      : ∀ tripId ∈ l.told, tripId ∈ n.told

theorem Glance.Fits.announced {l : Glance} {n : Sight} (h : l.Fits n) (hl : l.Announced) : n.Announced where
  added row hrow hstatus := by
    obtain ⟨hold, hmem, rfl⟩ := h.added row hrow
    exact h.told _ (hl.added hold hmem hstatus)
  changed id hid := by
    obtain ⟨hold, hgot, hdone⟩ := hl.changed id (h.changed id hid)
    obtain ⟨row, hrow, rfl⟩ := h.got id hold hgot
    exact ⟨row, hrow, hdone.imp_right (h.told _)⟩

/-! ### The methods

The adapter reads the row again before it writes a status, and the sweep writes the rows it has just read; so what the
use-case was told and what its transaction has seen fit together statement by statement. -/

/-- Statements that neither read for a change, nor write, nor announce. -/
def Stmt.Unguarded : Stmt → Prop
  | .updateStatus _ _ | .select (.overdue _) | .selectById _ | .insert _ | .publish _ | .commit => False
  | _ => True

section Methods

variable {l : Glance} {n : Sight}

theorem guarded_stmt (o : Stmt) {K : Sight → Except Err o.Res → Prop} (ho : Guard n o) (hK : ∀ a, K (n.note o a) a) :
    Guarded K n (Prog.call (S := Stmts) o) :=
  Prog.outline_call.mpr ⟨ho, hK⟩

theorem guarded_unguarded {α : Type} {p : Prog Stmts Err α} (hp : p.Only Stmt.Unguarded) :
    Guarded (fun n' _ => n' = n) n p := by
  refine (Prog.outline_of_only (fun o ho => ?_) (fun o a ho => ?_) hp (Prog.yields_true p)).mono fun _ _ h => h.1
  · cases o with
    | select filter =>
        cases filter with
        | overdue => exact ho.elim
        | _ => trivial
    | updateStatus | selectById | commit => exact ho.elim
    | _ => trivial
  · cases o with
    | select filter =>
        cases filter with
        | overdue => exact ho.elim
        | _ => cases a <;> rfl
    | updateStatus | selectById | insert | publish | commit => exact ho.elim
    | _ => cases a <;> rfl

/-- **The sweep** writes what it found. -/
theorem guarded_expireRows : ∀ rows : List BookingRow, (∀ row ∈ rows, row ∈ n.due) →
    Guarded (fun n' _ => n' = n) n (SqlRepo.expireRows rows)
  | [], _ => rfl
  | row :: rest, hdue => by
      have hrow : Guard n (.updateStatus row.bookingId .expired) :=
        Or.inl ⟨rfl, row, hdue row List.mem_cons_self, rfl⟩
      refine Prog.outline_bind.mpr (guarded_stmt _ hrow fun a => ?_)
      have hkept : n.note (.updateStatus row.bookingId .expired) a = n := by cases a <;> rfl
      rw [hkept]
      cases a with
      | error e => rfl
      | ok u =>
          refine Prog.outline_bind.mpr
            ((guarded_expireRows rest fun later hlater => hdue later (List.mem_cons_of_mem _ hlater)).mono
              fun n' x hn' => ?_)
          cases x <;> exact hn'

theorem guarded_expireDue {now : Int} (hl : l.Fits n) (hwrote : n.wrote = false) :
    Guarded (fun n' _ => l.Fits n') n (SqlRepo.expireDue now) := by
  refine Prog.outline_bind.mpr (guarded_stmt (.select (.overdue now)) hwrote fun a => ?_)
  cases a with
  | error e => exact hl
  | ok rows =>
      refine (guarded_expireRows rows fun row hrow => List.mem_append_right _ hrow).mono fun n' x hn' => ?_
      subst hn'
      exact ⟨hl.unwritten, hl.got, hl.added, hl.changed, hl.told⟩

theorem guarded_get {id : String} (hl : l.Fits n) (hwrote : n.wrote = false) :
    Guarded (fun n' a => (l.note (.get id) a).Fits n') n (SqlRepo.get id) := by
  refine Prog.outline_bind.mpr (guarded_stmt (.selectById id) hwrote fun a => ?_)
  cases a with
  | error e => exact hl
  | ok found =>
      cases found with
      | none => exact hl
      | some row =>
          refine ⟨hl.unwritten, fun id' hold hmem => ?_, hl.added, hl.changed, hl.told⟩
          rcases List.mem_append.mp hmem with hmem | hmem
          · obtain ⟨row', hrow', heq⟩ := hl.got id' hold hmem
            exact ⟨row', List.mem_append_left _ hrow', heq⟩
          · obtain ⟨rfl, rfl⟩ := Prod.mk.inj (List.mem_singleton.mp hmem)
            exact ⟨row, List.mem_append_right _ (List.mem_singleton.mpr rfl), rfl⟩

/-- The row is read again before its status is written; the guard is about the first reading. -/
theorem guarded_setStatus {id : String} {status : BookingStatus} (hl : l.Fits n) (hwrote : n.wrote = false)
    {hold : Hold} (hgot : (id, hold) ∈ l.got) (hedge : BookingSm.Edge hold.status status) :
    Guarded (fun n' a => (l.note (.setStatus id status) a).Fits n') n (SqlRepo.setStatus id status) := by
  refine Prog.outline_bind.mpr (guarded_stmt (.selectById id) hwrote fun a => ?_)
  cases a with
  | error e => exact hl
  | ok found =>
      cases found with
      | none => exact hl
      | some again =>
          obtain ⟨row, hrow, rfl⟩ := hl.got id hold hgot
          have hkeeps : ∀ p ∈ n.found, p ∈ n.found ++ [(id, again)] := fun p hp => List.mem_append_left _ hp
          have hgot' : ∀ id' hold', (id', hold') ∈ l.got → ∃ row, (id', row) ∈ n.found ++ [(id, again)] ∧
              hold' = toHold row := fun id' hold' hmem =>
            (hl.got id' hold' hmem).imp fun row h => ⟨hkeeps _ h.1, h.2⟩
          refine Prog.outline_bind.mpr (guarded_stmt (.updateStatus id status)
            (Or.inr ⟨row, hkeeps _ hrow, hedge⟩) fun a => ?_)
          cases a with
          | error e => exact ⟨hl.unwritten, hgot', hl.added, hl.changed, hl.told⟩
          | ok u =>
              have hlater : ∀ id' ∈ n.changed, id' ∈ l.changed ++ [id] := fun id' hid =>
                List.mem_append_left _ (hl.changed id' hid)
              dsimp only [Sight.note]
              split
              · exact ⟨fun h => Bool.noConfusion h, hgot', hl.added, hlater, hl.told⟩
              · refine ⟨fun h => Bool.noConfusion h, hgot', hl.added, fun id' hid => ?_, hl.told⟩
                rcases List.mem_append.mp hid with hid | hid
                · exact hlater id' hid
                · exact List.mem_append_right _ hid

theorem guarded_addHold {hold : Hold} (hl : l.Fits n) :
    Guarded (fun n' a => (l.note (.addHold hold) a).Fits n') n (SqlRepo.addHold hold) := by
  refine Prog.outline_rescue.mpr (guarded_stmt (.insert (toRow hold)) trivial fun a => ?_)
  cases a with
  | ok u =>
      refine ⟨fun h => Bool.noConfusion h, hl.got, fun row hrow => ?_, hl.changed, hl.told⟩
      rcases List.mem_append.mp hrow with hrow | hrow
      · obtain ⟨h, hmem, heq⟩ := hl.added row hrow
        exact ⟨h, List.mem_append_left _ hmem, heq⟩
      · exact ⟨hold, List.mem_append_right _ (List.mem_singleton.mpr rfl), List.mem_singleton.mp hrow⟩
  | error e =>
      cases e with
      | integrityError c =>
          dsimp only
          split <;> exact hl
      | _ => exact hl

/-- **One port operation**, as its statements. -/
theorem guarded_method {o : PortOp} (ho : Checked l o) (hl : l.Fits n) :
    Guarded (fun n' a => (l.note o a).Fits n') n (SqlRepo.method o) := by
  have hother : (∀ q, SqlRepo.Issues o q → q.Unguarded) → (∀ a, l.note o a = l) →
      Guarded (fun n' a => (l.note o a).Fits n') n (SqlRepo.method o) := by
    intro hissues hkept
    refine (guarded_unguarded ((SqlRepo.method_issues o).mono hissues)).mono fun n' a hn' => ?_
    rw [hkept, hn']
    exact hl
  cases o with
  | get id => exact guarded_get hl (hl.unwritten ho)
  | setStatus id status =>
      obtain ⟨hwrote, hold, hgot, hedge⟩ := ho
      exact guarded_setStatus hl (hl.unwritten hwrote) hgot hedge
  | expireDue now => exact (guarded_expireDue hl (hl.unwritten ho)).mono fun n' a h => by cases a <;> exact h
  | addHold hold => exact guarded_addHold hl
  | publish event =>
      refine guarded_stmt (.publish event) trivial fun a => ?_
      cases a with
      | error e => exact hl
      | ok u =>
          refine ⟨hl.unwritten, hl.got, hl.added, hl.changed, fun tripId hmem => ?_⟩
          rcases List.mem_append.mp hmem with hmem | hmem
          · exact List.mem_append_left _ (hl.told tripId hmem)
          · exact List.mem_append_right _ hmem
  | commit =>
      refine guarded_stmt .commit (hl.announced ho) fun a => ?_
      cases a with
      | error e => exact hl
      | ok u =>
          exact ⟨fun _ => rfl, fun _ _ h => absurd h List.not_mem_nil, fun _ h => absurd h List.not_mem_nil,
            fun _ h => absurd h List.not_mem_nil, fun _ h => absurd h List.not_mem_nil⟩
  | _ => exact hother (fun q hq => by rw [show q = _ from hq]; trivial) fun a => by cases a <;> rfl

end Methods

/-- A careful program is guarded, statement by statement. -/
theorem Careful.guarded {α : Type} {p : Prog Ports Err α} (hp : Careful {} p) :
    Guarded (fun _ _ => True) {} (p.translate SqlRepo.method) := by
  have hstart : Glance.Fits {} {} := ⟨fun _ => rfl, fun _ _ h => absurd h List.not_mem_nil,
    fun _ h => absurd h List.not_mem_nil, fun _ h => absurd h List.not_mem_nil, fun _ h => absurd h List.not_mem_nil⟩
  exact (Prog.Outline.translate (f := SqlRepo.method)
    (fun (l : Glance) n o (ho : Checked l o) (hl : l.Fits n) => guarded_method ho hl) hp hstart).mono
      fun _ _ _ => trivial

theorem guarded_bind {α β : Type} {n : Sight} {p : Prog Stmts Err α} (hp : Guarded (fun _ _ => True) n p) (f : α → β) :
    Guarded (fun _ _ => True) n (p.bind fun a => .ret (f a)) := by
  refine Prog.outline_bind.mpr (hp.mono fun n x _ => ?_)
  cases x <;> trivial

/-- **Every request keeps to the guard**, whatever it is answered. -/
theorem guarded_statements (r : Request) : Guarded (fun _ _ => True) {} r.statements :=
  guarded_bind (careful_program r).guarded fun _ => ()

end SlrBooking
