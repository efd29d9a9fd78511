import SlrBooking.Concurrent.Guards

/-!
# `Concurrent.Watching` — a subscribed traveller against the interleaved server

The traveller's browser fetches the availability of one leg, then subscribes to the trip and fetches again at
every event. A fetch is a transaction of its own among the others; its answer arrives some time after it has
ended. An event is put in the subscriber's queue by the statement that publishes it, inside the transaction, so
it can be delivered and answered before the commit; the sweep frees seats and publishes nothing.

Other travellers are requests like any others here: what is said of one holds of each.

## Contents
- `Watch`: the traffic, the traveller's trip and leg. `Desk`, `Watch.machine`, `Turn`, `Watch.turn`.
- `Watch.answer`: the availability that a set of rows determines; `Shows`, `Quiet`.
- `Stage`, `outline_fetch`: how far a fetch has come, and what it does on the way. `learn_ne_lost`: it never fails.
-/

namespace SlrBooking

open Theory Rows

/-! ## The traveller and the server -/

/-- The traffic, and a traveller with a train the search listed: the trip is one of the server's and both ends
    of the leg are its stations. `fetchDeps n` is what the ports answer to the fetch that runs as
    transaction `n`. -/
structure Watch extends Traffic where
  trip      : Trip
  leg       : Leg
  fetchDeps : Nat → Deps
  listed    : lookup Trip.tripId trip.tripId trips = some trip
  onLine    : validateLeg trip leg = .ok ()

/-- What the browser and its subscriber queue hold: an event waits with the number of the transaction that has
    published it. -/
structure Client where
  opened     : Bool := false
  subscribed : Bool := false
  queue      : List (Nat × AvailabilityEvent) := []
  fetching   : List Nat := []
  fetched    : Option LegAvailability := none
deriving DecidableEq

/-- `SsePublisher.publish`: a subscriber is told what is published when it is published. -/
def Client.told (k : Client) (t : Nat) : Stmt → List (Nat × AvailabilityEvent)
  | .publish event => if k.subscribed then [(t, event)] else []
  | _ => []

def Client.hear (k : Client) (t : Nat) (o : Stmt) : Client := { k with queue := k.queue ++ k.told t o }

/-- An answer has arrived. An error leaves the screen as it was; otherwise the last answer to arrive is what is shown,
    whenever it was read. -/
def Client.receive (k : Client) (n : Nat) (answer : Except Err (Option LegAvailability)) : Client :=
  { k with
    fetching := k.fetching.filter fun m => m ≠ n
    fetched := answer.toOption.join.or k.fetched }

/-- The server and the traveller. -/
structure Desk where
  server : Server
  client : Client
deriving DecidableEq

/-- Who acts: transaction `t` its next statement; the traveller picking the train, subscribing once the first
    fetch is answered, being delivered the next event, or receiving the answer of transaction `n`. -/
inductive Turn where
  | server (t : Nat)
  | selectTrain
  | subscribe
  | deliver
  | arrive (n : Nat)
deriving DecidableEq

namespace Watch

variable (W : Watch)

abbrev State := Config Stmts Err Desk (Option LegAvailability)

def machine : Machine Stmts Err Desk where
  exec t o d := (Server.exec (W.scan t) (W.gateway t) t o d.server).map fun p => (p.1, ⟨p.2, d.client.hear t o⟩)
  finish t d := { d with server := Server.close t d.server }

/-- `api.availability` as transaction `n`. -/
def fetch (n : Nat) : Prog Stmts Err (Option LegAvailability) :=
  ((legAvailability (W.fetchDeps n) W.trip.tripId W.leg).translate SqlRepo.method).bind fun a => .ret (some a)

/-- No booking, every request at its first statement, the traveller not there yet. -/
def start : State :=
  ⟨⟨Server.start W.trips, {}⟩, W.requests.map fun r => { prog := r.statements.bind fun _ => .ret none }⟩

/-- `refreshAvailability`: send a fetch off. -/
def refresh (c : State) (k : Client) : State :=
  ⟨⟨c.shared.server, { k with fetching := k.fetching ++ [c.threads.length] }⟩,
    c.threads ++ [{ prog := W.fetch c.threads.length }]⟩

/-- The answer of transaction `n`, once it has ended. -/
def ended? (c : State) (n : Nat) : Option (Except Err (Option LegAvailability)) :=
  c.threads[n]?.bind fun th => if th.ended then th.prog.result? else none

/-- One turn: a statement of some transaction, a click, an event taken from the queue, or an answer that arrives. The
    stream of a trip skips the events of other trips. -/
def turn (c : State) : Turn → State
  | .server t => W.machine.step c t
  | .selectTrain =>
    if c.shared.client.opened then c else W.refresh c { c.shared.client with opened := true }
  | .subscribe =>
    if c.shared.client.opened ∧ c.shared.client.fetching = [] then
      { c with shared := { c.shared with client := { c.shared.client with subscribed := true } } }
    else c
  | .deliver =>
    match c.shared.client.queue with
    | [] => c
    | (_, event) :: rest =>
      if event.tripId = W.trip.tripId then W.refresh c { c.shared.client with queue := rest }
      else { c with shared := { c.shared with client := { c.shared.client with queue := rest } } }
  | .arrive n =>
    if n ∈ c.shared.client.fetching then
      match ended? c n with
      | some answer => { c with shared := { c.shared with client := c.shared.client.receive n answer } }
      | none => c
    else c

/-- The state a run ends in. -/
def after (c : State) (turns : List Turn) : State := turns.foldl W.turn c

/-! ## What the leg looks like -/

/-- A HELD or CONFIRMED booking of the trip has the seat over a part of the leg. -/
def taken (rows : List BookingRow) (seat : Seat) : Bool :=
  rows.any fun row => row.tripId = W.trip.tripId && row.status.isActive &&
    (toHold row).seatId = seat.seatId && (toHold row).leg.overlaps W.leg

/-- The answer in which exactly these seats are taken. -/
def answerWith (taken : Seat → Bool) : LegAvailability :=
  let seats := W.trip.seats.map fun s => ⟨s.seatId, s.coach, s.travelClass, !taken s⟩
  ⟨W.trip.tripId, W.leg, seats, (seats.filter (·.available)).length⟩

/-- The availability that the rows determine. -/
def answer (rows : List BookingRow) : LegAvailability := W.answerWith (W.taken rows)

/-- What `legAvailability` makes of the rows it was given. -/
def reply (rows : List BookingRow) : LegAvailability :=
  W.answerWith fun s => (rows.map toHold).any fun h => h.seatId = s.seatId && h.leg.overlaps W.leg

/-- **The aim**: the screen shows what the committed bookings determine. -/
def Shows (c : State) : Prop := c.shared.client.fetched = some (W.answer c.shared.server.db.committed)

instance (c : State) : Decidable (W.Shows c) := inferInstanceAs (Decidable (_ = _))

/-- Nothing is under way: no transaction is in flight, every event of the trip is delivered, and every fetch is
    answered. -/
structure Quiet (c : State) : Prop where
  idle      : ∀ th ∈ c.threads, th.log = [] ∨ th.ended = true
  delivered : ∀ entry ∈ c.shared.client.queue, entry.2.tripId ≠ W.trip.tripId
  answered  : c.shared.client.fetching = []

/-- The order of the rows does not matter. -/
theorem reply_scan (scan : Scan) (rows : List BookingRow) :
    W.reply (scan.order (rows.filter (Filter.activeOnTrip W.trip.tripId).holds)) = W.answer rows := by
  unfold reply answer
  congr 1
  funext seat
  rw [taken, Bool.eq_iff_iff]
  simp only [List.any_map, List.any_eq_true, (scan.perm _).mem_iff, List.mem_filter, Filter.holds,
    Function.comp_apply, Bool.and_eq_true, decide_eq_true_eq]
  constructor
  · rintro ⟨row, ⟨hrow, htrip, hactive⟩, hseat, hleg⟩
    exact ⟨row, hrow, ⟨⟨htrip, hactive⟩, hseat⟩, hleg⟩
  · rintro ⟨row, hrow, ⟨⟨htrip, hactive⟩, hseat⟩, hleg⟩
    exact ⟨row, ⟨hrow, htrip, hactive⟩, hseat, hleg⟩

/-! ## One fetch

`Stage` is what the log of a fetch says; `allows` and `ends` are its outline. -/

/-- How far a fetch has come: it has not read yet; it has its answer and not committed; it has committed; a
    statement of it failed. -/
inductive Stage where
  | looking
  | read (answer : LegAvailability)
  | settled (answer : LegAvailability)
  | lost
deriving DecidableEq

/-- The answer a fetch has in hand. -/
def Stage.answer? : Stage → Option LegAvailability
  | .read answer | .settled answer => some answer
  | _ => none

/-- The statements before the read. -/
def Looks : Stmt → Prop
  | .selectTrip tripId => tripId = W.trip.tripId
  | .select (.overdue _) => True
  | .updateStatus _ status => status = .expired
  | _ => False

def allows : Stage → Stmt → Prop
  | .looking, o => W.Looks o ∨ o = .select (.activeOnTrip W.trip.tripId)
  | .read _, o => o = .commit
  | .settled _, _ => False
  | .lost, _ => True

/-- What a statement and its answer teach. -/
def learn : Stage → (o : Stmt) → Except Err o.Res → Stage
  | .looking, .selectTrip _, .ok found => if found = some W.trip then .looking else .lost
  | .looking, .select (.activeOnTrip _), .ok rows => .read (W.reply rows)
  | .looking, _, .ok _ => .looking
  | .read answer, _, .ok _ => .settled answer
  | .settled answer, _, .ok _ => .settled answer
  | _, _, _ => .lost

def ends : Stage → Except Err (Option LegAvailability) → Prop
  | .settled answer, r => r = .ok (some answer)
  | .lost, _ => True
  | _, _ => False

/-- Nothing is asked of a fetch that has failed. -/
theorem outline_lost {α : Type} {post : Stage → Except Err α → Prop} (hpost : ∀ r, post .lost r)
    (p : Prog Stmts Err α) : Prog.Outline W.allows W.learn post .lost p := by
  refine (Prog.outline_invariant (I := fun l => l = .lost) ?_ ?_ (Prog.only_true p) rfl).mono ?_
  · rintro l o rfl -
    trivial
  · rintro l o r rfl -
    cases r <;> cases o <;> rfl
  · rintro l r rfl
    exact hpost r

theorem learn_error (l : Stage) (o : Stmt) (e : Err) : W.learn l o (.error e) = .lost := by
  cases l with
  | looking =>
      cases o with
      | select filter => cases filter <;> rfl
      | _ => rfl
  | read answer | settled answer => cases o <;> rfl
  | lost => cases o <;> rfl

/-- One statement of a fetch: it fails, or teaches what it answers. -/
theorem outline_stmt (o : Stmt) {l : Stage} {post : Stage → Except Err o.Res → Prop} (ho : W.allows l o)
    (hfails : ∀ e, post .lost (.error e)) (h : ∀ a, post (W.learn l o (.ok a)) (.ok a)) :
    Prog.Outline W.allows W.learn post l (Prog.call (S := Stmts) o) := by
  refine Prog.outline_call.mpr ⟨ho, fun r => ?_⟩
  cases r with
  | ok a => exact h a
  | error e =>
      rw [W.learn_error]
      exact hfails e

/-- What a part of the fetch before the read comes to: a statement failed, or it is still looking and the part
    returned what it should. -/
def StillLooking {α : Type} (P : α → Prop) (l : Stage) (r : Except Err α) : Prop :=
  l = .lost ∨ (l = .looking ∧ ∃ a, r = .ok a ∧ P a)

theorem outline_looking {α β : Type} {P : α → Prop} {p : Prog Stmts Err α} {f : α → Prog Stmts Err β}
    {post : Stage → Except Err β → Prop} (hpost : ∀ r, post .lost r)
    (hp : Prog.Outline W.allows W.learn (StillLooking P) .looking p)
    (hf : ∀ a, P a → Prog.Outline W.allows W.learn post .looking (f a)) :
    Prog.Outline W.allows W.learn post .looking (p.bind f) := by
  refine Prog.outline_bind.mpr (hp.mono fun l r h => ?_)
  rcases h with rfl | ⟨rfl, a, rfl, ha⟩
  · cases r with
    | ok a => exact W.outline_lost hpost (f a)
    | error e => exact hpost _
  · exact hf a ha

/-! ### The outline of a fetch -/

theorem outline_getTrip :
    Prog.Outline W.allows W.learn (StillLooking fun trip => trip = W.trip) .looking
      (SqlRepo.getTrip W.trip.tripId) := by
  refine Prog.outline_bind.mpr (W.outline_stmt (.selectTrip W.trip.tripId) (Or.inl rfl)
    (fun _ => Or.inl rfl) fun found => ?_)
  by_cases hfound : found = some W.trip
  · rw [hfound]
    exact Or.inr ⟨if_pos rfl, W.trip, rfl, rfl⟩
  · have hlost : W.learn .looking (.selectTrip W.trip.tripId) (.ok found) = .lost := if_neg hfound
    rw [hlost]
    exact W.outline_lost (fun _ => Or.inl rfl) _

/-- The sweep of a fetch. -/
theorem outline_expireRows : ∀ rows : List BookingRow,
    Prog.Outline W.allows W.learn (StillLooking fun _ => True) .looking (SqlRepo.expireRows rows)
  | [] => Or.inr ⟨rfl, [], rfl, trivial⟩
  | row :: rest => by
      refine Prog.outline_bind.mpr (W.outline_stmt (.updateStatus row.bookingId .expired) (Or.inl rfl)
        (fun _ => Or.inl rfl) fun _ => ?_)
      exact W.outline_looking (fun _ => Or.inl rfl) (outline_expireRows rest) fun others _ =>
        Or.inr ⟨rfl, _, rfl, trivial⟩

theorem outline_expireDue (now : Int) :
    Prog.Outline W.allows W.learn (StillLooking fun _ => True) .looking (SqlRepo.expireDue now) :=
  Prog.outline_bind.mpr (W.outline_stmt (.select (.overdue now)) (Or.inl trivial) (fun _ => Or.inl rfl) fun rows =>
    W.outline_expireRows rows)

/-- **A fetch** looks, reads the trip's active bookings, commits, and returns what it read. -/
theorem outline_fetch (n : Nat) : Prog.Outline W.allows W.learn ends .looking (W.fetch n) := by
  unfold fetch legAvailability
  simp only [Prog.bind_eq, Prog.translate_bind, Prog.bind_assoc]
  have hcommit : Prog.translate SqlRepo.method commit = Prog.call (S := Stmts) .commit := Prog.translate_call ..
  simp only [hcommit]
  rw [Trips.get, Prog.translate_call]
  refine W.outline_looking (fun _ => trivial) W.outline_getTrip fun trip htrip => ?_
  subst htrip
  rw [W.onLine, Bookings.expireDue, Prog.translate_call, Bookings.activeHolds, Prog.translate_call]
  change Prog.Outline W.allows W.learn ends .looking ((SqlRepo.expireDue _).bind _)
  refine W.outline_looking (fun _ => trivial) (W.outline_expireDue _) fun _ _ => ?_
  -- the read: what is left is the commit
  refine Prog.outline_bind.mpr (Prog.outline_bind.mpr
    (W.outline_stmt (.select (.activeOnTrip W.trip.tripId)) (Or.inr rfl) (fun _ => trivial) fun rows => ?_))
  refine Prog.outline_bind.mpr (W.outline_stmt (l := .read (W.reply rows)) .commit rfl (fun _ => trivial) fun _ => ?_)
  rfl

variable {W} {t : Nat}

/-! ### What a fetch learns -/

/-- The sweep's updates are refused by nothing: an expired booking keeps nobody out. -/
theorem not_refused {s : Server} {row : BookingRow} :
    s.db.write bookingTable t { row with status := .expired } ≠ .refused := by
  intro hw
  obtain ⟨v, -, -, hclash⟩ := Db.write_refused hw
  have hactive := (rowsClash_iff.mp (show rowsClash { row with status := .expired } v = true from hclash)).1
  have hidle : BookingStatus.isActive .expired = false := by decide
  rw [hidle] at hactive
  cases hactive

/-- **No statement of a fetch fails**, and the trip is where it was. -/
theorem learn_ne_lost {s s' : Server} {l : Stage} {o : Stmt} {r : Except Err o.Res} (htrips : s.trips = W.trips)
    (hl : l ≠ .lost) (ho : W.allows l o) (hexec : Server.exec (W.scan t) (W.gateway t) t o s = some (r, s')) :
    W.learn l o r ≠ .lost := by
  cases l with
  | lost => exact absurd rfl hl
  | settled answer => exact ho.elim
  | read answer =>
      obtain rfl : o = .commit := ho
      obtain ⟨rfl, -⟩ := Prod.mk.inj (Option.some.inj hexec)
      exact Stage.noConfusion
  | looking =>
      cases o with
      | selectTrip tripId =>
          obtain rfl : tripId = W.trip.tripId := by simpa [allows, Looks] using ho
          obtain ⟨rfl, -⟩ := Prod.mk.inj (Option.some.inj hexec)
          rw [htrips, W.listed]
          simp [learn]
      | select filter =>
          obtain ⟨rfl, -⟩ := Prod.mk.inj (Option.some.inj hexec)
          cases filter <;> exact Stage.noConfusion
      | updateStatus id status =>
          obtain rfl : status = .expired := by simpa [allows, Looks] using ho
          cases Server.exec_effect hexec with
          | aside h => exact h.elim
          | missing | updated => exact Stage.noConfusion
          | barred _ hw => exact absurd hw not_refused
      | _ => simp [allows, Looks] at ho

/-- A statement that leaves a fetch looking, or is its read. -/
theorem learn_looking {o : Stmt} {r : Except Err o.Res} (ho : W.allows .looking o)
    (hlost : W.learn .looking o r ≠ .lost) :
    W.learn .looking o r = .looking ∨
      ∃ rows, (⟨o, r⟩ : Event Stmts Err) = ⟨.select (.activeOnTrip W.trip.tripId), .ok rows⟩ ∧
        W.learn .looking o r = .read (W.reply rows) := by
  cases r with
  | error e => exact absurd (W.learn_error _ o e) hlost
  | ok a =>
      rcases ho with hlooks | rfl
      · cases o with
        | selectTrip tripId =>
            by_cases hfound : a = some W.trip
            · exact Or.inl (if_pos hfound)
            · exact absurd (if_neg hfound) hlost
        | select filter =>
            cases filter with
            | overdue now => exact Or.inl rfl
            | _ => exact hlooks.elim
        | updateStatus id status => exact Or.inl rfl
        | _ => exact hlooks.elim
      · exact Or.inr ⟨a, rfl, rfl⟩

end Watch

end SlrBooking
