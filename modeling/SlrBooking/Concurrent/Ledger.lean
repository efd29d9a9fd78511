import SlrBooking.Concurrent.References

/-!
# `Concurrent.Ledger` — the gateway's ledger and the bookings

The charge happens outside the transaction, between a guard that read the booking earlier and a write that can
still fail. A run is *clean* when the guard of a confirmation would still pass at its charge and at its write,
no other confirmation of the same booking has charged meanwhile, and no paid insert meets a seat that was
lost. In a clean run each request's account is balanced: what the ledger holds for it is the fare of a
booking it then commits as CONFIRMED or STANDING, and no reference is charged twice.

## Contents
- `Traffic.SettlesClean`: the condition on a step. `FreshIds`.
- `Successor`: what a commit may do to a booking. `Account`: one request's trail against the table and the
  journal; `Account.frame` for the steps of others, `account_act` for its own.
- `Balanced`, `balanced_step`, `ledger_agrees`. `charged_twice`: the run that breaks the law.
-/

namespace SlrBooking

open Theory Rows

namespace Traffic

variable (T : Traffic)

/-- A re-read of the booking would still return it HELD. -/
def StillHeld (c : State) (t : Nat) (bookingId : String) : Prop :=
  ∃ row ∈ c.shared.view t, row.bookingId = bookingId ∧ row.status = .held

instance (c : State) (t : Nat) (bookingId : String) : Decidable (StillHeld c t bookingId) :=
  inferInstanceAs (Decidable (∃ row ∈ c.shared.view t, _ ∧ _))

/-- Request `u` is a confirmation of the booking, in flight, and was charged. -/
def ChargedFor (c : State) (u : Nat) (bookingId : String) : Bool :=
  match T.requests[u]?, c.threads[u]? with
  | some r, some th => r.subject = some bookingId && !th.ended && !(trail th).committed && (trail th).paid.isSome
  | _, _ => false

/-- If the next step of `t` pays for a stored booking, that booking is still HELD and nobody else is paying for it. -/
def PaysAlone (c : State) (t : Nat) : Prop :=
  ∀ r ∈ T.requests[t]?, ∀ paid ∈ (c.next t).bind Stmt.charged?,
    r.books = false → (T.gateway t paid.1 paid.2).ok = true → ∀ bookingId ∈ r.subject,
      StillHeld c t bookingId ∧ ∀ u < T.requests.length, u ≠ t → T.ChargedFor c u bookingId = false

instance (c : State) (t : Nat) : Decidable (T.PaysAlone c t) :=
  inferInstanceAs (Decidable (∀ r ∈ T.requests[t]?, ∀ paid ∈ (c.next t).bind Stmt.charged?, _ → _ → _))

/-- **The condition on one step**: none of the races with money in them. The step looks a reference up alone and pays
    alone; it writes CONFIRMED only where a re-read would still return the booking HELD; and it inserts a ticket only
    where nothing it could see stands in the way. -/
def SettlesClean (c : State) (t : Nat) : Prop :=
  T.LooksUpAlone c t ∧ T.PaysAlone c t ∧
    (∀ bookingId ∈ (c.next t).bind Stmt.confirmed?, StillHeld c t bookingId) ∧
    ∀ row ∈ (c.next t).bind Stmt.inserted?, row.status ≠ .held →
      ∀ v ∈ c.shared.view t, v.bookingId ≠ row.bookingId → rowsClash row v = false

instance (c : State) (t : Nat) : Decidable (T.SettlesClean c t) :=
  inferInstanceAs (Decidable (_ ∧ _ ∧ (∀ bookingId ∈ (c.next t).bind Stmt.confirmed?, StillHeld c t bookingId) ∧
    ∀ row ∈ (c.next t).bind Stmt.inserted?, _ → _))

/-- The generated booking ids are distinct. -/
def FreshIds : Prop := (T.requests.map fun r => r.deps.newId).Nodup

instance : Decidable T.FreshIds := inferInstanceAs (Decidable (List.Nodup _))

end Traffic

/-! ## What a commit may do to a booking -/

/-- The next version of a booking: same columns but the status, and never HELD again. -/
structure NextVersion (a b : BookingRow) : Prop where
  reference : a.reference = b.reference
  fare      : a.fareCents = b.fareCents
  moved     : b.status ≠ .held

/-- The booking later on. -/
structure Successor (a b : BookingRow) : Prop where
  id        : a.bookingId = b.bookingId
  reference : a.reference = b.reference
  fare      : a.fareCents = b.fareCents
  moved     : a.status ≠ .held → b.status ≠ .held

theorem Successor.refl (a : BookingRow) : Successor a a := ⟨rfl, rfl, rfl, fun h => h⟩

/-- Every committed booking is still committed, in some later version. -/
def Persists (s s' : Server) : Prop := ∀ a ∈ s.db.committed, ∃ b ∈ s'.db.committed, Successor a b

theorem persists_refl (s : Server) : Persists s s := fun a ha => ⟨a, ha, Successor.refl a⟩

theorem persists_commit {s s' : Server} {t : Nat} (hs : Db.Sound bookingTable s.db)
    (ht : Db.Tracks bookingTable NextVersion s.db) (hdb : s'.db = s.db.commit bookingTable t) : Persists s s' := by
  intro a ha
  have hlook : lookup bookingTable.key a.bookingId s.db.committed = some a := lookup_of_mem hs.keyed ha
  obtain ⟨b, hb⟩ := hs.commit_keeps (t := t) hlook
  rw [hdb]
  refine ⟨b, lookup_some_mem hb, ?_⟩
  have hid : b.bookingId = a.bookingId := lookup_some_key hb
  rcases ht.commit_moves hs hlook hb with rfl | hnext
  · exact Successor.refl _
  · exact ⟨hid.symm, hnext.reference, hnext.fare, fun _ => hnext.moved⟩

/-- The booking a request is about stays committed, under its reference and fare. -/
theorem Persists.subject {s s' : Server} (hp : Persists s s') {r : Request} {reference : String} {cents : Int}
    (h : ∃ id, r.subject = some id ∧
      ∃ old ∈ s.db.committed, old.bookingId = id ∧ old.reference = reference ∧ old.fareCents = cents) :
    ∃ id, r.subject = some id ∧
      ∃ new ∈ s'.db.committed, new.bookingId = id ∧ new.reference = reference ∧ new.fareCents = cents := by
  obtain ⟨id, hid, old, hold, h₁, h₂, h₃⟩ := h
  obtain ⟨new, hnew, hs⟩ := hp old hold
  exact ⟨id, hid, new, hnew, hs.id ▸ h₁, hs.reference ▸ h₂, hs.fare ▸ h₃⟩

/-! ## One request's account -/

/-- A row that a charge paid for. -/
structure PaidRow (row : BookingRow) (reference : String) (amount : Money) : Prop where
  reference : row.reference = reference
  fare      : row.fareCents = amount.cents
  status    : row.status = .confirmed ∨ row.status = .standing

/-- **One request's account**: its trail against the table and the journal of the commits. What it was charged for is
    the booking it read, or the ticket it sells; once written, that row is its own in doubt until the commit, and
    committed after it. -/
structure Account (s : Server) (t : Nat) (r : Request) (l : Trail) : Prop where
  /-- The booking it read is committed, with that reference and fare. -/
  seen     : ∀ row, l.seen = some row → ∃ id, r.subject = some id ∧
    ∃ old ∈ s.db.committed, old.bookingId = id ∧ old.reference = row.reference ∧ old.fareCents = row.fareCents
  unfailed : l.paid ≠ none → l.failed = false
  confirms : r.books = false → ∀ reference amount, l.paid = some (reference, amount) →
    ∃ id, r.subject = some id ∧
      ∃ old ∈ s.db.committed, old.bookingId = id ∧ old.reference = reference ∧ old.fareCents = amount.cents
  sells    : r.books = true → ∀ reference amount, l.paid = some (reference, amount) →
    reference = r.ticketRef ∧ (r.carries = true → l.missed = true)
  written  : ∀ reference amount, l.paid = some (reference, amount) → l.wrote = true → l.committed = false →
    ∃ row ∈ s.db.own t, PaidRow row reference amount
  settled  : ∀ reference amount, l.paid = some (reference, amount) → l.committed = true →
    (∃ row ∈ s.db.committed, row.reference = reference ∧ row.fareCents = amount.cents ∧ row.status ≠ .held) ∧
    ∃ rows, (t, rows) ∈ s.journal ∧ ∃ row ∈ rows, PaidRow row reference amount
  inserted : ∀ row ∈ s.db.own t, (∃ old ∈ s.db.committed, old.bookingId = row.bookingId) ∨ l.wrote = true

theorem account_start (s : Server) (t : Nat) (r : Request) (hown : s.db.own t = []) : Account s t r {} where
  seen := by
    intro row h
    cases h
  unfailed := fun h => absurd rfl h
  confirms := by
    intro _ reference amount h
    cases h
  sells := by
    intro _ reference amount h
    cases h
  written := by
    intro reference amount h
    cases h
  settled := by
    intro reference amount h
    cases h
  inserted := by
    rw [hown]
    intro row h
    cases h

namespace Account

variable {s s' : Server} {t : Nat} {r : Request} {l : Trail}

/-- **Frame.** What others do keeps a request's account. -/
theorem frame (h : Account s t r l) (hp : Persists s s') (hown : ∀ row, row ∈ s'.db.own t ↔ row ∈ s.db.own t)
    (hjournal : ∀ e ∈ s.journal, e ∈ s'.journal) : Account s' t r l where
  seen := by
    intro row hseen
    exact hp.subject (h.seen row hseen)
  unfailed := h.unfailed
  confirms := by
    intro hbooks reference amount hpaid
    exact hp.subject (h.confirms hbooks reference amount hpaid)
  sells := h.sells
  written := by
    intro reference amount hpaid hwrote hopen
    obtain ⟨row, hrow, hpaidRow⟩ := h.written reference amount hpaid hwrote hopen
    exact ⟨row, (hown row).mpr hrow, hpaidRow⟩
  settled := by
    intro reference amount hpaid hdone
    obtain ⟨⟨row, hrow, h₁, h₂, h₃⟩, rows, hrows, hrest⟩ := h.settled reference amount hpaid hdone
    obtain ⟨new, hnew, hs⟩ := hp row hrow
    exact ⟨⟨new, hnew, hs.reference ▸ h₁, hs.fare ▸ h₂, hs.moved h₃⟩, rows, hjournal _ hrows, hrest⟩
  inserted := by
    intro row hrow
    rcases h.inserted row ((hown row).mp hrow) with ⟨old, hold, hid⟩ | hwrote
    · obtain ⟨new, hnew, hs⟩ := hp old hold
      exact Or.inl ⟨new, hnew, hs.id ▸ hid⟩
    · exact Or.inr hwrote

/-- A look-up may have found nothing. -/
theorem looked (h : Account s t r l) (b : Bool) : Account s t r { l with missed := l.missed || b } :=
  { h with
    sells := fun hbooks reference amount hpaid =>
      ⟨(h.sells hbooks reference amount hpaid).1, fun hc => by
        rw [(h.sells hbooks reference amount hpaid).2 hc]
        exact Bool.true_or b⟩ }

/-- A statement fails before any charge. -/
theorem failed (h : Account s t r l) (hunpaid : l.paid = none) : Account s t r { l with failed := true } :=
  { h with unfailed := fun hpaid => absurd hunpaid hpaid }

/-- A booking is read by id. -/
theorem read (h : Account s t r l) {found : Option BookingRow} (hfound : l.paid ≠ none → found ≠ none)
    (hseen : ∀ row, found = some row → ∃ id, r.subject = some id ∧ ∃ old ∈ s.db.committed,
      old.bookingId = id ∧ old.reference = row.reference ∧ old.fareCents = row.fareCents) :
    Account s t r { l with seen := found, failed := l.failed || found.isNone } :=
  { h with
    seen := hseen
    unfailed := fun hpaid => by
      rw [h.unfailed hpaid]
      exact Option.isNone_eq_false_iff.mpr (Option.isSome_iff_ne_none.mpr (hfound hpaid)) }

/-- A charge is accepted, before anything was written. -/
theorem charged (h : Account s t r l) {reference : String} {amount : Money}
    (hlaw : Law r l (.charge reference amount)) : Account s t r { l with paid := some (reference, amount) } := by
  obtain ⟨-, hunwritten, hunfailed, huncommitted, hwho⟩ := hlaw
  exact {
    seen := h.seen
    unfailed := fun _ => hunfailed
    confirms := by
      intro hbooks reference' amount' hpaid
      obtain ⟨rfl, rfl⟩ := Prod.mk.inj (Option.some.inj hpaid)
      rcases hwho with ⟨hsale, -⟩ | ⟨-, row, hrow, -, href, hamount⟩
      · rw [hbooks] at hsale
        cases hsale
      · obtain ⟨id, hid, old, hold, h₁, h₂, h₃⟩ := h.seen row hrow
        exact ⟨id, hid, old, hold, h₁, h₂.trans href.symm, h₃.trans (congrArg Money.cents hamount).symm⟩
    sells := by
      intro hbooks reference' amount' hpaid
      obtain ⟨rfl, rfl⟩ := Prod.mk.inj (Option.some.inj hpaid)
      rcases hwho with ⟨-, href, hmissed⟩ | ⟨hconfirm, -⟩
      · refine ⟨href, fun hc => hmissed ?_⟩
        rw [Request.ticketRef_of_carries hc]
        exact Option.some_ne_none _
      · rw [hbooks] at hconfirm
        cases hconfirm
    written := by
      intro reference' amount' _ hwrote
      rw [hunwritten] at hwrote
      cases hwrote
    settled := by
      intro reference' amount' _ hdone
      rw [huncommitted] at hdone
      cases hdone
    inserted := h.inserted }

/-- A recorded write: the paid row, if there was a charge. -/
theorem wrote (h : Account s t r l) {row : BookingRow} (hcommitted : s'.db.committed = s.db.committed)
    (hown : ∀ x, x ∈ s'.db.own t ↔ x = row ∨ (x ∈ s.db.own t ∧ x.bookingId ≠ row.bookingId))
    (huncommitted : l.paid ≠ none → l.committed = false)
    (hpaidRow : ∀ reference amount, l.paid = some (reference, amount) → PaidRow row reference amount) :
    Account s' t r { l with wrote := true } where
  seen := by
    rw [hcommitted]
    exact h.seen
  unfailed := h.unfailed
  confirms := by
    rw [hcommitted]
    exact h.confirms
  sells := h.sells
  written := fun reference amount hpaid _ _ => ⟨row, (hown row).mpr (Or.inl rfl), hpaidRow reference amount hpaid⟩
  settled := by
    intro reference amount hpaid hdone
    have hopen := huncommitted (by
      rw [hpaid]
      exact Option.some_ne_none _)
    rw [show l.committed = true from hdone] at hopen
    cases hopen
  inserted := fun _ _ => Or.inr rfl

/-- An unpaid status update: the next version of a committed row or of one this request inserted. -/
theorem updated (h : Account s t r l) {row : BookingRow} (hcommitted : s'.db.committed = s.db.committed)
    (hown : ∀ x, x ∈ s'.db.own t ↔ x = row ∨ (x ∈ s.db.own t ∧ x.bookingId ≠ row.bookingId))
    (hunpaid : l.paid = none)
    (hrow : (∃ old ∈ s.db.committed, old.bookingId = row.bookingId) ∨ l.wrote = true) : Account s' t r l where
  seen := by
    rw [hcommitted]
    exact h.seen
  unfailed := h.unfailed
  confirms := by
    rw [hcommitted]
    exact h.confirms
  sells := h.sells
  written := by
    intro reference amount hpaid
    rw [hunpaid] at hpaid
    cases hpaid
  settled := by
    intro reference amount hpaid
    rw [hunpaid] at hpaid
    cases hpaid
  inserted := by
    intro x hx
    rw [hcommitted]
    rcases (hown x).mp hx with rfl | ⟨hx, -⟩
    · exact hrow
    · exact h.inserted x hx

/-- **The commit of a charged request** makes its paid row durable. -/
theorem commits (h : Account s t r l) (hp : Persists s s') (hsound : Db.Sound bookingTable s.db)
    (hdb : s'.db = s.db.commit bookingTable t) (hjournal : s'.journal = s.journal ++ [(t, s.db.own t)])
    (hwrote : l.paid ≠ none → l.wrote = true ∧ l.failed = false ∧ l.committed = false) :
    Account s' t r { l with committed := true } := by
  have hown : ∀ x, x ∉ s'.db.own t := by
    intro x hx
    rw [hdb] at hx
    exact (Db.own_drop.mp hx).2 rfl
  refine ⟨?_, h.unfailed, ?_, h.sells, ?_, ?_, fun x hx => absurd hx (hown x)⟩
  · intro row hseen
    exact hp.subject (h.seen row hseen)
  · intro hbooks reference amount hpaid
    exact hp.subject (h.confirms hbooks reference amount hpaid)
  · intro _ _ _ _ hopen
    cases hopen
  · intro reference amount hpaid _
    have hopen := hwrote (by
      rw [show l.paid = some (reference, amount) from hpaid]
      exact Option.some_ne_none _)
    obtain ⟨row, hrow, hpaidRow⟩ := h.written reference amount hpaid hopen.1 hopen.2.2
    have hvisible : row ∈ s'.db.committed := by
      rw [hdb]
      exact hsound.mem_view.mpr (Or.inl hrow)
    refine ⟨⟨row, hvisible, hpaidRow.reference, hpaidRow.fare, ?_⟩, s.db.own t, ?_, row, hrow, hpaidRow⟩
    · rcases hpaidRow.status with hs | hs <;> rw [hs] <;> simp
    · rw [hjournal]
      simp

end Account

namespace Traffic

variable {T : Traffic}

/-- A request that confirms or cancels books nothing. -/
theorem books_of_subject {r : Request} {id : String} (h : r.subject = some id) : r.books = false := by
  unfold Request.subject at h
  unfold Request.books
  cases hc : r.call <;> rw [hc] at h <;> first | rfl | cases h

/-! ## The books of a run

The accounts of all requests together, with what they rest on: whose ids are committed, and whose charges are in the
ledger. -/

/-- **The invariant of a run.** Every request's account is kept. Every committed id was drawn by a request that has
    committed, every entry of the ledger is what its payer was charged, and no reference is in the ledger twice. -/
structure Balanced (T : Traffic) (c : State) : Prop where
  refs     : T.Referenced c
  sized    : c.threads.length = T.requests.length
  tracks   : Db.Tracks bookingTable NextVersion c.shared.db
  ids      : ∀ row ∈ c.shared.db.committed, ∃ (u : Nat) (r : Request) (th : Thread Stmts Err Unit),
    T.requests[u]? = some r ∧ c.threads[u]? = some th ∧ row.bookingId = r.deps.newId ∧ (trail th).committed = true
  accounts : ∀ (t : Nat) (r : Request) (th : Thread Stmts Err Unit), T.requests[t]? = some r →
    c.threads[t]? = some th → Account c.shared t r (trail th)
  closed   : ∀ (t : Nat) (th : Thread Stmts Err Unit), c.threads[t]? = some th →
    th.ended = true → (trail th).paid ≠ none → (trail th).committed = true
  ledger   : ∀ ch ∈ c.shared.ledger, ∃ th, c.threads[ch.payer]? = some th ∧
    (trail th).paid = some (ch.reference, ch.amount)
  once     : (c.shared.ledger.map Charge.reference).Nodup

theorem balanced_start (hfresh : T.FreshReferences) : T.Balanced T.start where
  refs := referenced_start hfresh
  sized := List.length_map ..
  tracks := by
    intro p hp
    cases hp
  ids := by
    intro row hrow
    cases hrow
  accounts := by
    intro t r th hr hth
    obtain ⟨r', -, rfl⟩ := Option.map_eq_some_iff.mp ((List.getElem?_map ..).symm.trans hth)
    exact account_start _ t r rfl
  closed := by
    intro t th hth hended
    obtain ⟨r', -, rfl⟩ := Option.map_eq_some_iff.mp ((List.getElem?_map ..).symm.trans hth)
    cases hended
  ledger := by
    intro ch hch
    cases hch
  once := List.nodup_nil

namespace Balanced

variable {c : State} {t : Nat} {r : Request}

/-- Every thread is a request's. -/
theorem request_of_thread (h : T.Balanced c) {th : Thread Stmts Err Unit} (hth : c.threads[t]? = some th) :
    ∃ r, T.requests[t]? = some r := by
  have hlt : t < T.requests.length := h.sized ▸ (List.getElem?_eq_some_iff.mp hth).1
  exact ⟨T.requests[t], List.getElem?_eq_getElem hlt⟩

/-- **What a confirming or cancelling request sees** is committed, under the same reference and fare; and what
    it sees as HELD is the committed row itself. -/
theorem visible (h : T.Balanced c) (hr : T.requests[t]? = some r) (hbooks : r.books = false) {row : BookingRow}
    (hrow : row ∈ c.shared.view t) : ∃ old ∈ c.shared.db.committed, old.bookingId = row.bookingId ∧
      old.reference = row.reference ∧ old.fareCents = row.fareCents ∧ (row.status = .held → old = row) := by
  rcases h.refs.sound.mem_view.mp hrow with hown | ⟨hcommitted, -⟩
  · rcases h.refs.booked (t, row) (Db.mem_own.mp hown) with ⟨old, hold, hid, href⟩ | ⟨hclaim, -⟩
    · have hlook : lookup bookingTable.key row.bookingId c.shared.db.committed = some old :=
        hid ▸ lookup_of_mem h.refs.sound.keyed hold
      have hnext : NextVersion old row := h.tracks (t, row) (Db.mem_own.mp hown) old hlook
      exact ⟨old, hold, hid, href, hnext.fare, fun hheld => absurd hheld hnext.moved⟩
    · obtain ⟨r', th, hr', -, -, hclaimed⟩ := claims_iff.mp hclaim
      rw [Option.some.inj (hr.symm.trans hr'), (claimed_iff.mp hclaimed).1] at hbooks
      cases hbooks
  · exact ⟨row, hcommitted, rfl, rfl, rfl, fun _ => rfl⟩

/-- A charged confirmation sees its booking. -/
theorem sees_paid (h : T.Balanced c) {l : Trail} (ha : Account c.shared t r l) (hbooks : r.books = false)
    (hpaid : l.paid ≠ none) {id : String} (hid : r.subject = some id) :
    lookup BookingRow.bookingId id (c.shared.view t) ≠ none := by
  obtain ⟨⟨reference, amount⟩, hp⟩ := Option.ne_none_iff_exists'.mp hpaid
  obtain ⟨id', hid', old, hold, hold', -⟩ := ha.confirms hbooks reference amount hp
  obtain rfl : old.bookingId = id := hold'.trans (Option.some.inj (hid'.symm.trans hid))
  have hvisible := h.refs.sound.committed_visible (t := t) (lookup_of_mem h.refs.sound.keyed hold)
  obtain ⟨y, hy, hyk⟩ := List.mem_map.mp hvisible
  exact fun hnone => lookup_none_iff.mp hnone y hy hyk

/-- What a charged confirmation sees of its booking is what the charge was for. -/
theorem paid_for (h : T.Balanced c) {l : Trail} (ha : Account c.shared t r l) (hr : T.requests[t]? = some r)
    {row : BookingRow} (hrow : row ∈ c.shared.view t) (hsubject : r.subject = some row.bookingId)
    {reference : String} {amount : Money} (hp : l.paid = some (reference, amount)) :
    row.reference = reference ∧ row.fareCents = amount.cents := by
  have hbooks := books_of_subject hsubject
  obtain ⟨old, hold, hid, href, hfare, -⟩ := h.visible hr hbooks hrow
  obtain ⟨id', hid', old', hold', hid₂, href', hfare'⟩ := ha.confirms hbooks reference amount hp
  -- both are the committed booking of that id
  have hsame : old = old' := by
    refine eq_of_key_eq h.refs.sound.keyed hold hold' ?_
    show old.bookingId = old'.bookingId
    rw [hid, hid₂, ← Option.some.inj (hsubject.symm.trans hid')]
  rw [← hsame] at href' hfare'
  exact ⟨href.symm.trans href', hfare.symm.trans hfare'⟩

/-- A HELD booking that its request still sees can be confirmed: nothing visible excludes it. -/
theorem held_not_refused (h : T.Balanced c) {id : String} {row : BookingRow} (hheld : StillHeld c t id)
    (hrow : lookup BookingRow.bookingId id (c.shared.view t) = some row) :
    c.shared.db.write bookingTable t { row with status := .confirmed } ≠ .refused := by
  intro hw
  obtain ⟨v, hv, hne, hclash⟩ := Db.write_refused hw
  obtain ⟨row', hrow', hid', hstatus⟩ := hheld
  have hkeyed := h.refs.sound.view_keyed t
  obtain rfl : row' = row := by
    have hmem := lookup_some_mem hrow
    exact eq_of_key_eq hkeyed hrow' hmem (hid'.trans (lookup_some_key hrow).symm)
  obtain ⟨-, hrest⟩ := rowsClash_iff.mp hclash
  have hactive : rowsClash row' v = true := rowsClash_iff.mpr ⟨by rw [hstatus]; rfl, hrest⟩
  have hapart : rowsClash row' v = false := h.refs.sound.apart t row' hrow' v hv (Ne.symm hne)
  rw [hactive] at hapart
  cases hapart

/-- A request inserts under an id nobody sees. -/
theorem fresh_id (h : T.Balanced c) (hids : T.FreshIds) {th : Thread Stmts Err Unit} (hr : T.requests[t]? = some r)
    (hth : c.threads[t]? = some th) (hunwritten : (trail th).wrote = false)
    (huncommitted : (trail th).committed = false) :
    r.deps.newId ∉ (c.shared.view t).map BookingRow.bookingId := by
  have hcommitted : ∀ old ∈ c.shared.db.committed, old.bookingId ≠ r.deps.newId := by
    intro old hold hid
    obtain ⟨u, r', th', hr', hth', hid', hdone⟩ := h.ids old hold
    obtain rfl : t = u := index_eq_of_key_eq hids hr hr' (hid.symm.trans hid')
    rw [← Option.some.inj (hth.symm.trans hth'), huncommitted] at hdone
    cases hdone
  intro hmem
  obtain ⟨row, hrow, hid⟩ := List.mem_map.mp hmem
  rcases h.refs.sound.mem_view.mp hrow with hown | ⟨hold, -⟩
  · rcases (h.accounts t r th hr hth).inserted row hown with ⟨old, hold, hold'⟩ | hwrote
    · exact hcommitted old hold (hold'.trans hid)
    · rw [hunwritten] at hwrote
      cases hwrote
  · exact hcommitted row hold hid

/-! ### One statement -/

theorem persists (h : T.Balanced c) {e : Event Stmts Err} {s : Server}
    (he : Server.Effect (T.scan t) (T.gateway t) t c.shared e s) : Persists c.shared s := by
  cases he with
  | inserted _ hw | updated _ hw =>
      intro a ha
      exact ⟨a, (Db.committed_write hw).symm ▸ ha, Successor.refl a⟩
  | committed => exact persists_commit h.refs.sound h.tracks rfl
  | _ => exact persists_refl _

theorem own_others {e : Event Stmts Err} {s : Server} (he : Server.Effect (T.scan t) (T.gateway t) t c.shared e s)
    {u : Nat} (hu : u ≠ t) (row : BookingRow) : row ∈ s.db.own u ↔ row ∈ c.shared.db.own u := by
  rw [he.own_others hu]

theorem journal_grows {e : Event Stmts Err} {s : Server} (he : Server.Effect (T.scan t) (T.gateway t) t c.shared e s) :
    ∀ x ∈ c.shared.journal, x ∈ s.journal := by
  cases he with
  | committed => exact fun x hx => List.mem_append_left _ hx
  | _ => exact fun x hx => hx

/-- No status update makes a booking HELD. -/
theorem not_held_of_law {l : Trail} {id : String} {status : BookingStatus} (h : Law r l (.updateStatus id status)) :
    status ≠ .held := by
  rcases h with ⟨-, rfl | rfl⟩ | ⟨-, -, rfl, -⟩ <;> simp

theorem tracks_act (h : T.Balanced c) {o : Stmt} {a : Except Err o.Res} {s : Server} {l : Trail} (hlaw : Law r l o)
    (he : Server.Effect (T.scan t) (T.gateway t) t c.shared ⟨o, a⟩ s) : Db.Tracks bookingTable NextVersion s.db := by
  cases he with
  | inserted hfresh hw =>
      exact h.tracks.write hw fun old hold => absurd (h.refs.sound.committed_visible hold) hfresh
  | updated hrow hw =>
      rename_i id status row db
      refine h.tracks.write hw fun old hold => ?_
      -- the version found is the committed one or already a next version of it
      rcases h.refs.sound.mem_view.mp (lookup_some_mem hrow) with hown | ⟨hcommitted, -⟩
      · have hnext := h.tracks (t, _) (Db.mem_own.mp hown) old hold
        exact ⟨hnext.reference, hnext.fare, not_held_of_law hlaw⟩
      · have hsame : old = row :=
          eq_of_key_eq h.refs.sound.keyed (lookup_some_mem hold) hcommitted (lookup_some_key hold)
        rw [hsame]
        exact ⟨rfl, rfl, not_held_of_law hlaw⟩
  | committed => exact h.tracks.commit h.refs.sound t
  | _ => exact h.tracks

/-- **Step lemma for the acting request's account.** -/
theorem account_act (h : T.Balanced c) (hids : T.FreshIds) {th : Thread Stmts Err Unit} {o : Stmt}
    {a : Except Err o.Res}
    {s : Server} (hr : T.requests[t]? = some r) (hth : c.threads[t]? = some th) (hnext : c.next t = some o)
    (hlaw : Law r (trail th) o) (hok : T.SettlesClean c t)
    (he : Server.Effect (T.scan t) (T.gateway t) t c.shared ⟨o, a⟩ s) : Account s t r ((trail th).note o a) := by
  have ha : Account c.shared t r (trail th) := h.accounts t r th hr hth
  obtain ⟨-, -, hheld, hfree⟩ := hok
  rw [hnext] at hheld hfree
  -- a charged request must not fail before its commit, so each refusal is traced to the law or to the condition
  cases he with
  | aside ho =>
      cases o with
      | selectTrip | selectTrips | publish | notify => exact ha
      | _ => exact ho.elim
  | selectById =>
      rename_i id
      have hsubject : r.subject = some id := hlaw
      refine ha.read (fun hpaid => h.sees_paid ha (books_of_subject hsubject) hpaid hsubject) fun row hrow => ?_
      obtain ⟨old, hold, h₁, h₂, h₃, -⟩ := h.visible hr (books_of_subject hsubject) (lookup_some_mem hrow)
      exact ⟨id, hsubject, old, hold, h₁.trans (lookup_some_key hrow), h₂, h₃⟩
  | select =>
      rename_i f
      cases f with
      | byReference => exact ha.looked _
      | _ => exact ha
  | duplicate hkey =>
      -- the id was drawn for this request, and it has not inserted anything yet
      obtain ⟨hbooks, hid, href, hmissed, hunwritten, huncommitted, hunpaid | hpaid⟩ := hlaw
      · exact ha.failed hunpaid.1
      · rw [hid] at hkey
        exact absurd hkey (h.fresh_id hids hr hth hunwritten huncommitted)
  | excluded hw =>
      obtain ⟨hbooks, hid, href, hmissed, hunwritten, huncommitted, hunpaid | hpaid⟩ := hlaw
      · exact ha.failed hunpaid.1
      · -- the condition keeps the seat of a paid sale free
        obtain ⟨v, hv, hne, hclash⟩ := Db.write_refused hw
        have hno := hfree _ rfl (by rcases hpaid.2 with hs | hs <;> rw [hs] <;> simp) v hv hne
        rw [show rowsClash _ v = true from hclash] at hno
        cases hno
  | inserted hfresh hw =>
      obtain ⟨hbooks, hid, href, hmissed, hunwritten, huncommitted, hpay⟩ := hlaw
      refine ha.wrote (Db.committed_write hw) (fun x => Db.own_write hw)
        (fun _ => huncommitted) fun reference amount hp => ?_
      rcases hpay with ⟨hunpaid, -⟩ | ⟨hpaid, hstatus⟩
      · rw [hunpaid] at hp
        cases hp
      · obtain ⟨h₁, h₂⟩ := Prod.mk.inj (Option.some.inj (hpaid.symm.trans hp))
        exact ⟨h₁, congrArg Money.cents h₂, hstatus⟩
  | missing hnone =>
      rcases hlaw with ⟨hunpaid, -⟩ | ⟨hpaid, hsubject, -⟩
      · show Account _ t r (if (trail th).paid.isSome then _ else _)
        rw [hunpaid]
        exact ha
      · exact absurd hnone (h.sees_paid ha (books_of_subject hsubject) hpaid hsubject)
  | barred hrow hw =>
      rcases hlaw with ⟨hunpaid, -⟩ | ⟨hpaid, hsubject, rfl, -⟩
      · exact ha.failed hunpaid
      · exact absurd hw (h.held_not_refused (hheld _ rfl) hrow)
  | updated hrow hw =>
      rename_i id status row db
      rcases hlaw with ⟨hunpaid, -⟩ | ⟨hpaid, hsubject, rfl, huncommitted⟩
      · show Account _ t r (if (trail th).paid.isSome then _ else _)
        rw [hunpaid]
        refine ha.updated (Db.committed_write hw) (fun x => Db.own_write hw) hunpaid ?_
        rcases h.refs.sound.mem_view.mp (lookup_some_mem hrow) with hown | ⟨hold, -⟩
        · exact ha.inserted row hown
        · exact Or.inl ⟨row, hold, rfl⟩
      · show Account _ t r (if (trail th).paid.isSome then _ else _)
        rw [if_pos (Option.isSome_iff_ne_none.mpr hpaid)]
        refine ha.wrote (Db.committed_write hw) (fun x => Db.own_write hw) (fun _ => huncommitted)
          fun reference amount hp => ?_
        obtain rfl : row.bookingId = id := lookup_some_key hrow
        obtain ⟨href, hfare⟩ := h.paid_for ha hr (lookup_some_mem hrow) hsubject hp
        exact ⟨href, hfare, Or.inl rfl⟩
  | committed => exact ha.commits (h.persists .committed) h.refs.sound rfl rfl hlaw
  | declined hno =>
      show Account _ t r (if (T.gateway t _ _).ok then _ else _)
      rw [if_neg (by simp [hno])]
      exact ha
  | charged hyes =>
      rename_i reference amount
      show Account _ t r (if (T.gateway t _ _).ok then _ else _)
      rw [if_pos hyes]
      have hframe : Account { c.shared with ledger := c.shared.ledger ++ [⟨t, reference, amount⟩] } t r (trail th) :=
        ha.frame (persists_refl _) (fun _ => Iff.rfl) fun _ hx => hx
      exact hframe.charged hlaw

/-- **What a ledger entry stands for**: a claim, as long as a paid sale has not committed, or a committed booking of
    that reference and fare, HELD only while its charged confirmation is in flight. -/
theorem entry (h : T.Balanced c) {ch : Charge} (hch : ch ∈ c.shared.ledger) :
    T.Claims c ch.payer ch.reference = true ∨ ∃ row ∈ c.shared.db.committed, row.reference = ch.reference ∧
      row.fareCents = ch.amount.cents ∧ (row.status = .held → T.ChargedFor c ch.payer row.bookingId = true) := by
  obtain ⟨th, hth, hpaid⟩ := h.ledger ch hch
  obtain ⟨r, hr⟩ := h.request_of_thread hth
  have ha := h.accounts ch.payer r th hr hth
  cases hdone : (trail th).committed with
  | true =>
      obtain ⟨⟨row, hrow, href, hfare, hstatus⟩, -⟩ := ha.settled ch.reference ch.amount hpaid hdone
      exact Or.inr ⟨row, hrow, href, hfare, fun hheld => absurd hheld hstatus⟩
  | false =>
      -- a charged request that has not committed is still running
      have hlive : th.ended = false := by
        by_contra he
        have hclosed := h.closed ch.payer th hth (by simpa using he) (by rw [hpaid]; simp)
        rw [hdone] at hclosed
        cases hclosed
      cases hbooks : r.books with
      | true =>
          obtain ⟨hticket, hmissed⟩ := ha.sells hbooks ch.reference ch.amount hpaid
          refine Or.inl ?_
          rw [claims_live hth hlive, hr]
          exact claimed_iff.mpr ⟨hbooks, hticket.symm, hdone, hmissed⟩
      | false =>
          obtain ⟨id, hid, row, hrow, hrowId, href, hfare⟩ := ha.confirms hbooks ch.reference ch.amount hpaid
          refine Or.inr ⟨row, hrow, href, hfare, fun _ => ?_⟩
          unfold ChargedFor
          rw [hr, hth]
          simp [hid, hrowId, hlive, hdone, hpaid]

/-- **A clean accepted charge is the first one for its reference.** -/
theorem charge_new (h : T.Balanced c) {th : Thread Stmts Err Unit} {reference : String} {amount : Money}
    (hr : T.requests[t]? = some r) (hth : c.threads[t]? = some th) (hlive : th.ended = false)
    (hlaw : Law r (trail th) (.charge reference amount))
    (hclean : r.books = false → ∀ bookingId ∈ r.subject,
      StillHeld c t bookingId ∧ ∀ u < T.requests.length, u ≠ t → T.ChargedFor c u bookingId = false) :
    reference ∉ c.shared.ledger.map Charge.reference := by
  intro hmem
  obtain ⟨ch, hch, rfl⟩ := List.mem_map.mp hmem
  obtain ⟨thu, hthu, hpaid⟩ := h.ledger ch hch
  have hother : ch.payer ≠ t := by
    intro he
    rw [he, hth] at hthu
    rw [← Option.some.inj hthu, hlaw.1] at hpaid
    cases hpaid
  obtain ⟨-, -, -, huncommitted, ⟨hbooks, hticket, hmissed⟩ | ⟨hbooks, seen, hseen, hheld, hreference, -⟩⟩ := hlaw
  · -- a sale claims its reference: nobody else does, and no booking has it
    have hclaim : T.Claims c t ch.reference = true := by
      rw [claims_live hth hlive, hr]
      exact claimed_iff.mpr ⟨hbooks, hticket.symm, huncommitted, fun hc => hmissed (by
        rw [Request.ticketRef_of_carries hc]
        exact Option.some_ne_none _)⟩
    rcases h.entry hch with hclaim' | ⟨row, hrow, href, -⟩
    · exact hother (h.refs.alone ch.payer t ch.reference hclaim' hclaim)
    · exact h.refs.free t ch.reference hclaim row hrow href
  · -- a confirmation read a committed booking that is HELD and that nobody else was charged for
    obtain ⟨id, hid, old, hold, hold₁, hold₂, -⟩ := (h.accounts t r th hr hth).seen seen hseen
    obtain ⟨⟨row, hrow, hrowId, hstatus⟩, hnobody⟩ := hclean hbooks id hid
    obtain ⟨base, hbase, -, -, -, hsame⟩ := h.visible hr hbooks hrow
    obtain rfl := hsame hstatus
    have heq : base = old := eq_of_key_eq h.refs.sound.keyed hbase hold (hrowId.trans hold₁.symm)
    have hbaseRef : base.reference = ch.reference := by rw [heq, hold₂, hreference]
    rcases h.entry hch with hclaim | ⟨row', hrow', href', -, hcharged⟩
    · exact h.refs.free ch.payer ch.reference hclaim base hbase hbaseRef
    · have hrow'' : row' = base := h.refs.unique row' hrow' base hbase (href'.trans hbaseRef.symm)
      have hyes := hcharged (hrow'' ▸ hstatus)
      have hlt : ch.payer < T.requests.length := h.sized ▸ (List.getElem?_eq_some_iff.mp hthu).1
      rw [hrow'', hrowId, hnobody ch.payer hlt hother] at hyes
      cases hyes

end Balanced

/-! ## Steps and runs -/

/-- A request whose statements run out after a charge has committed. -/
theorem Balanced.settled_of_result {c : State} (h : T.Balanced c) {t : Nat} {th : Thread Stmts Err Unit}
    {a : Except Err Unit} (hth : c.threads[t]? = some th) (hres : th.prog.result? = some a)
    (hpaid : (trail th).paid ≠ none) : (trail th).committed = true := by
  obtain ⟨r, hr⟩ := h.request_of_thread hth
  have hout := h.refs.lawful t th hth
  have hsettled : Settled (trail th) := by
    cases hprog : th.prog with
    | ret u =>
        rw [hprog] at hout
        exact hout
    | raise e =>
        rw [hprog] at hout
        exact hout
    | perform o k =>
        rw [hprog] at hres
        cases hres
  rcases hsettled hpaid with hdone | hfailed
  · exact hdone
  · rw [(h.accounts t r th hr hth).unfailed hpaid] at hfailed
    cases hfailed

/-- Closing a request keeps the books balanced. -/
theorem Balanced.finish {c : State} (h : T.Balanced c) {t : Nat} {th : Thread Stmts Err Unit} {a : Except Err Unit}
    (hth : c.threads[t]? = some th) (hres : th.prog.result? = some a)
    (hrefs : T.Referenced ⟨Server.close t c.shared, c.threads.set t { th with ended := true }⟩) :
    T.Balanced ⟨Server.close t c.shared, c.threads.set t { th with ended := true }⟩ := by
  have ht := (List.getElem?_eq_some_iff.mp hth).1
  have hsettled := h.settled_of_result hth hres
  refine ⟨hrefs, (List.length_set ..).trans h.sized, h.tracks.rollback t, ?_, ?_, ?_, ?_, h.once⟩
  · intro row hrow
    obtain ⟨u, r, thu, hr, hthu, hid, hdone⟩ := h.ids row hrow
    obtain ⟨thu', hthu', hdone'⟩ := set_keeps (P := fun x => (trail x).committed = true) hth
      (a := { th with ended := true }) (fun hx => hx) hthu hdone
    exact ⟨u, r, thu', hr, hthu', hid, hdone'⟩
  · intro u r thu hr hthu
    have hpersists : Persists c.shared (Server.close t c.shared) := persists_refl c.shared
    rcases set_cases ht hthu with ⟨hut, hthu⟩ | ⟨rfl, rfl⟩
    · exact (h.accounts u r thu hr hthu).frame hpersists (fun row => Db.own_drop.trans (and_iff_left hut))
        fun _ hx => hx
    · have ha := h.accounts u r th hr hth
      refine { ha with written := fun reference amount hpaid _ hopen => ?_, inserted := fun row hrow => ?_ }
      · have hdone := hsettled (by rw [show (trail th).paid = _ from hpaid]; simp)
        rw [show (trail th).committed = false from hopen] at hdone
        cases hdone
      · exact absurd rfl (Db.own_drop.mp hrow).2
  · intro u thu hthu hended hpaid
    rcases set_cases ht hthu with ⟨-, hthu⟩ | ⟨rfl, rfl⟩
    · exact h.closed u thu hthu hended hpaid
    · exact hsettled hpaid
  · intro ch hch
    obtain ⟨thu, hthu, hpaid⟩ := h.ledger ch hch
    exact set_keeps hth (fun hx => hx) hthu hpaid

/-- Every booking on the table after a statement was there before under its id, or is the acting request's. -/
theorem Balanced.ids_act {c : State} (h : T.Balanced c) {t : Nat} {o : Stmt} {a : Except Err o.Res} {s : Server}
    (he : Server.Effect (T.scan t) (T.gateway t) t c.shared ⟨o, a⟩ s) : ∀ row ∈ s.db.committed,
      (∃ old ∈ c.shared.db.committed, old.bookingId = row.bookingId) ∨
        (o = .commit ∧ ∃ r, T.requests[t]? = some r ∧ row.bookingId = r.deps.newId) := by
  cases he with
  | inserted _ hw | updated _ hw =>
      intro row hrow
      exact Or.inl ⟨row, Db.committed_write hw ▸ hrow, rfl⟩
  | committed =>
      intro row hrow
      rcases h.refs.visible hrow with ⟨old, hold, hid, -⟩ | ⟨-, r, hr, hid⟩
      · exact Or.inl ⟨old, hold, hid⟩
      · exact Or.inr ⟨rfl, r, hr, hid⟩
  | _ => exact fun row hrow => Or.inl ⟨row, hrow, rfl⟩

/-- A statement that the law allows keeps what was paid. -/
theorem paid_kept {r : Request} {l : Trail} {o : Stmt} {x : String × Money} (a : Except Err o.Res) (hlaw : Law r l o)
    (hpaid : l.paid = some x) : (l.note o a).paid = some x := by
  rw [note_paid a, hpaid]
  rintro reference amount rfl
  rw [hlaw.1] at hpaid
  cases hpaid

/-- A request that committed stays committed. -/
theorem committed_kept {l : Trail} {o : Stmt} (a : Except Err o.Res) (hdone : l.committed = true) :
    (l.note o a).committed = true := by
  by_cases ho : o = .commit
  · subst ho
    cases a with
    | ok u => rfl
    | error e => exact hdone
  · rw [note_committed a ho, hdone]

/-- What the ledger holds after a statement: what it held, and the charge just accepted. -/
theorem ledger_act {c : State} {t : Nat} {o : Stmt} {a : Except Err o.Res} {s : Server} {l : Trail}
    (he : Server.Effect (T.scan t) (T.gateway t) t c.shared ⟨o, a⟩ s) : s.ledger = c.shared.ledger ∨
      ∃ reference amount, o = .charge reference amount ∧ (T.gateway t reference amount).ok = true ∧
        s.ledger = c.shared.ledger ++ [⟨t, reference, amount⟩] ∧ (l.note o a).paid = some (reference, amount) := by
  cases he with
  | charged hyes =>
      refine Or.inr ⟨_, _, rfl, hyes, rfl, ?_⟩
      show (if (T.gateway t _ _).ok then _ else l).paid = _
      rw [if_pos hyes]
  | _ => exact Or.inl rfl

/-- **Step lemma.** -/
theorem balanced_step (hids : T.FreshIds) (c : State) (t : Nat) (h : T.Balanced c) (hok : T.SettlesClean c t) :
    T.Balanced (T.machine.step c t) := by
  have hrefs : T.Referenced (T.machine.step c t) := referenced_step c t h.refs hok.1
  have hmove := T.machine.step_move c t
  generalize T.machine.step c t = c' at hmove hrefs ⊢
  cases hmove with
  | stay => exact h
  | finish hth hlive hres => exact h.finish hth hres hrefs
  | act hth hlive hprog hexec =>
      rename_i th o k a s
      have ht := (List.getElem?_eq_some_iff.mp hth).1
      have hnext := Config.next_eq hth hlive hprog
      have he := Server.exec_effect hexec
      obtain ⟨r, hr, hlaw⟩ := h.refs.lawful.allowed hth hprog
      have htrail : trail ⟨k a, th.log ++ [⟨o, a⟩], false⟩ = (trail th).note o a := Machine.know_snoc ..
      refine ⟨hrefs, (List.length_set ..).trans h.sized, h.tracks_act hlaw he, ?_, ?_, ?_, ?_, ?_⟩
      · intro row hrow
        rcases h.ids_act he row hrow with ⟨old, hold, hsame⟩ | ⟨rfl, r', hr', hid⟩
        · obtain ⟨u, ru, thu, hru, hthu, hid, hdone⟩ := h.ids old hold
          obtain ⟨thu', hthu', hdone'⟩ := set_keeps (P := fun x => (trail x).committed = true) hth
            (a := ⟨k a, th.log ++ [⟨o, a⟩], false⟩) (fun hx => htrail ▸ committed_kept a hx) hthu hdone
          exact ⟨u, ru, thu', hru, hthu', hsame ▸ hid, hdone'⟩
        · refine ⟨t, r', _, hr', List.getElem?_set_self ht, hid, ?_⟩
          rw [htrail]
          cases he with
          | aside ho => exact ho.elim
          | committed => rfl
      · intro u ru thu hru hthu
        rcases set_cases ht hthu with ⟨hut, hthu⟩ | ⟨rfl, rfl⟩
        · exact (h.accounts u ru thu hru hthu).frame (h.persists he) (Balanced.own_others he hut)
            (Balanced.journal_grows he)
        · rw [Option.some.inj (hru.symm.trans hr), htrail]
          exact h.account_act hids hr hth hnext hlaw hok he
      · intro u thu hthu hended hpaid
        rcases set_cases ht hthu with ⟨-, hthu⟩ | ⟨-, rfl⟩
        · exact h.closed u thu hthu hended hpaid
        · cases hended
      · intro ch hch
        have hold : ∀ ch ∈ c.shared.ledger, ∃ th' : Thread Stmts Err Unit,
            (c.threads.set t ⟨k a, th.log ++ [⟨o, a⟩], false⟩)[ch.payer]? = some th' ∧
              (trail th').paid = some (ch.reference, ch.amount) := by
          intro ch hch
          obtain ⟨thu, hthu, hpaid⟩ := h.ledger ch hch
          exact set_keeps (P := fun x => (trail x).paid = some (ch.reference, ch.amount)) hth
            (fun hx => htrail ▸ paid_kept a hlaw hx) hthu hpaid
        rcases ledger_act (l := trail th) he with hsame | ⟨reference, amount, -, -, hgrown, hpaid⟩
        · exact hold ch (hsame ▸ hch)
        · rw [hgrown] at hch
          rcases List.mem_append.mp hch with hch | hch
          · exact hold ch hch
          · obtain rfl := List.mem_singleton.mp hch
            exact ⟨_, List.getElem?_set_self ht, htrail ▸ hpaid⟩
      · rcases ledger_act (l := trail th) he with hsame | ⟨reference, amount, rfl, hyes, hgrown, -⟩
        · rw [hsame]
          exact h.once
        · -- the new entry's reference is in no earlier one
          rw [hgrown, List.map_append]
          refine List.nodup_append.mpr ⟨h.once, by simp, ?_⟩
          intro x hx y hy
          obtain rfl : y = reference := by simpa using hy
          rintro rfl
          have halone := hok.2.1 r hr (x, amount) (by rw [hnext]; rfl)
          exact h.charge_new hr hth hlive hlaw (fun hbooks id hid => halone hbooks hyes id hid) hx

/-! ## The law of the ledger -/

/-- The law of the ledger. -/
structure LedgerAgrees (c : State) : Prop where
  /-- At most one accepted charge for each reference. -/
  once   : (c.shared.ledger.map Charge.reference).Nodup
  /-- An accepted charge is for the fare of the booking of that reference. -/
  fare   : ∀ ch ∈ c.shared.ledger, ∀ row ∈ c.shared.db.committed, row.reference = ch.reference →
    row.fareCents = ch.amount.cents
  /-- A request that got a charge accepted and has ended committed that booking as CONFIRMED or STANDING. -/
  ticket : ∀ ch ∈ c.shared.ledger, ∃ th : Thread Stmts Err Unit, c.threads[ch.payer]? = some th ∧
    (th.ended = true → ∃ rows, (ch.payer, rows) ∈ c.shared.journal ∧
      ∃ row ∈ rows, PaidRow row ch.reference ch.amount)

theorem Balanced.agrees {c : State} (h : T.Balanced c) : LedgerAgrees c where
  once := h.once
  fare := by
    intro ch hch row hrow href
    rcases h.entry hch with hclaim | ⟨row', hrow', href', hfare, -⟩
    · exact absurd href (h.refs.free ch.payer ch.reference hclaim row hrow)
    · rw [h.refs.unique row hrow row' hrow' (href.trans href'.symm), hfare]
  ticket := by
    intro ch hch
    obtain ⟨th, hth, hpaid⟩ := h.ledger ch hch
    obtain ⟨r, hr⟩ := h.request_of_thread hth
    refine ⟨th, hth, fun hended => ?_⟩
    have hdone := h.closed ch.payer th hth hended (by rw [hpaid]; simp)
    exact ((h.accounts ch.payer r th hr hth).settled ch.reference ch.amount hpaid hdone).2

/-- A hold, two clicks on "pay", and a counter sale. -/
def payTwice : Traffic where
  trips := sampleTrips
  requests :=
    [⟨.hold "slow" "A1" firstHop "nic1" "Nimal" none, sampleDeps 0 "0", acceptAll⟩,
     ⟨.confirm "b0", sampleDeps 10 "1", acceptAll⟩,
     ⟨.confirm "b0", sampleDeps 10 "2", acceptAll⟩,
     ⟨.sell "slow" firstHop "nic2" "Kamala" .third none, sampleDeps 10 "3", acceptAll⟩]

/-- The second click finds the booking CONFIRMED; the sale runs between the statements of the first. -/
def oneAfterTheOther : List Nat :=
  List.replicate 9 0 ++ [1, 3, 1, 3, 1, 3, 1, 3, 1, 3, 1, 3, 1, 3, 1] ++ List.replicate 8 3 ++ [1, 1] ++
    List.replicate 10 2

/-- Both clicks read the booking HELD before either charges. -/
def bothPay : List Nat := List.replicate 9 0 ++ [1, 2, 1, 2] ++ List.replicate 9 1 ++ List.replicate 9 2

end Traffic

end SlrBooking
