import SlrBooking.Concurrent.Announcements
import SlrBooking.Concurrent.Watching

/-!
# `Concurrent.Convergence` — when the subscribed traveller is shown what is committed

Every use-case that changes which bookings are active on the traveller's leg publishes about the trip before it
commits (`Announcements`). What is left to go wrong are races and silence: a sweep that retires a booking on the leg
and publishes nothing; an event delivered, and answered, before its transaction is over; an event published before
the traveller subscribed, of a transaction that commits after the first fetch has read; two answers that arrive in
another order than they were read. In a run without these, whenever nothing is in flight and every event has been
delivered and answered, the screen shows what the committed bookings determine.

## Contents
- `Record`, `Watch.noted`: the order of the readings, and the transactions the traveller was not told of.
- `InTime`: the races, turn by turn. `Watch.Undisturbed`: the condition on a run.
- `latest`, `Pending`, `Kept`: the invariant. One step lemma for each kind of turn.
- `watchers_converge`: the run theorem. `stale_while_quiet`: the runs that break the law.
-/

namespace SlrBooking

open Theory Rows

namespace Watch

variable (W : Watch)

/-! ## The races -/

/-- What of the past matters: the fetches with an answer in hand, in the order of their readings; the transactions
    that published about the trip while the traveller was not subscribed. -/
structure Record where
  reads  : List Nat := []
  missed : List Nat := []

/-- What transaction `t` has read and done. -/
def sights (c : State) (t : Nat) : Sight := (c.threads[t]?).elim {} (Machine.know Sight.note {})

/-- How far transaction `n` has come, read as a fetch. -/
def stage (c : State) (n : Nat) : Option Stage := c.threads[n]?.map (Machine.know W.learn .looking)

/-- The answer that fetch `n` has in hand. -/
def inHand (c : State) (n : Nat) : Option LegAvailability := (W.stage c n).bind Stage.answer?

/-- Transaction `t` is closed, or has committed all it has published. -/
def Over (c : State) (t : Nat) : Prop := ∀ th ∈ c.threads[t]?, th.ended = true ∨ (sights c t).told = []

/-- Part of the leg, on any seat of the trip. -/
def stretch : Stretch where
  tripId := W.trip.tripId
  covers row := row.tripId = W.trip.tripId && (toHold row).leg.overlaps W.leg
  onTrip row h := by simpa using (Bool.and_eq_true_iff.mp h).1

/-- What is noted of a statement of `t`: that a fetch has read, or that somebody publishes what the traveller, not yet
    subscribed, is not told of. -/
def notedStmt (g : Record) (c : State) (t : Nat) : Stmt → Record
  | .select (.activeOnTrip _) => if t ∈ c.shared.client.fetching then { g with reads := g.reads ++ [t] } else g
  | .publish event =>
    if event.tripId = W.trip.tripId ∧ c.shared.client.subscribed = false then { g with missed := g.missed ++ [t] }
    else g
  | _ => g

/-- One more turn. -/
def noted (g : Record) (c : State) : Turn → Record
  | .server t => (c.next t).elim g (W.notedStmt g c t)
  | .arrive n =>
    if n ∈ c.shared.client.fetching ∧ (ended? c n).isSome then { g with reads := g.reads.erase n } else g
  | _ => g

/-- No sweep retires a booking that is active on the leg, and a transaction the traveller was not told of commits
    before the first fetch reads. -/
def Fair (g : Record) (c : State) (t : Nat) : Stmt → Prop
  | .updateStatus bookingId .expired =>
    ∀ row ∈ c.shared.server.db.committed, row.bookingId = bookingId → W.stretch.takes row = false
  | .commit => t ∈ g.missed → c.shared.client.fetched = none ∧ g.reads = []
  | _ => True

/-- **The races.** Statements are fair; an event of the trip is delivered only when its transaction is over; answers
    arrive in the order they were read. -/
def InTime (g : Record) (c : State) : Turn → Prop
  | .server t => ∀ o ∈ c.next t, W.Fair g c t o
  | .deliver => ∀ entry ∈ c.shared.client.queue.head?, entry.2.tripId = W.trip.tripId → Over c entry.1
  | .arrive n => n ∈ c.shared.client.fetching → (ended? c n).isSome → g.reads.head? = some n
  | _ => True

instance (c : State) (t : Nat) : Decidable (Over c t) := inferInstanceAs (Decidable (∀ th ∈ c.threads[t]?, _))

instance (g : Record) (c : State) (t : Nat) (o : Stmt) : Decidable (W.Fair g c t o) := by
  unfold Fair
  split <;> infer_instance

instance (g : Record) (c : State) : (turn : Turn) → Decidable (W.InTime g c turn)
  | .server t => inferInstanceAs (Decidable (∀ o ∈ c.next t, W.Fair g c t o))
  | .deliver => inferInstanceAs (Decidable (∀ entry ∈ c.shared.client.queue.head?, _ → _))
  | .arrive n => inferInstanceAs (Decidable (n ∈ c.shared.client.fetching → _))
  | .selectTrain | .subscribe => inferInstanceAs (Decidable True)

/-- **The condition on a run**: it has none of the races. -/
abbrev Undisturbed (turns : List Turn) : Prop := ObeysNoting W.turn W.noted W.InTime {} W.start turns

/-! ## The invariant -/

/-- The newest reading: an answer on its way, or else the screen. -/
def latest (g : Record) (c : State) : Option LegAvailability :=
  match g.reads.getLast? with
  | some n => W.inHand c n
  | none => c.shared.client.fetched

/-- The traveller has yet to look: an event of the trip is undelivered, or a fetch has not read. -/
def Pending (c : State) : Prop :=
  (∃ entry ∈ c.shared.client.queue, entry.2.tripId = W.trip.tripId) ∨
    ∃ n ∈ c.shared.client.fetching, W.stage c n = some .looking

/-- The outlines: the requests come first in the pool, the fetches after them. -/
def keeps (t : Nat) (l : Stage) (o : Stmt) : Prop := W.requests.length ≤ t → W.allows l o

def closes (t : Nat) (l : Stage) (r : Except Err (Option LegAvailability)) : Prop := W.requests.length ≤ t → ends l r

/-- **What every turn keeps of the server** and its transactions: the trips, the outlines of requests and fetches, and
    the announcements of the trip. -/
structure Serves (c : State) : Prop where
  trips     : c.shared.server.trips = W.trips
  long      : W.requests.length ≤ c.threads.length
  follows   : Machine.Follows W.keeps W.learn .looking W.closes c
  guarded   : Machine.Follows (fun _ => Guard) Sight.note {} (fun _ _ _ => True) c
  announces : Announces W.stretch c.shared.server (sights c)
  found     : ∀ n, W.requests.length ≤ n → W.stage c n ≠ some .lost
  reading   : ∀ n, W.requests.length ≤ n → (sights c n).wrote = false

/-- What every turn keeps of the traveller. Whoever has published about the trip and is not over has an event waiting
    in the queue, or was not heard; the newest reading shows the committed bookings, or there is more to come. -/
structure Hears (g : Record) (c : State) : Prop where
  sent     : ∀ n ∈ c.shared.client.fetching, W.requests.length ≤ n
  once     : g.reads.Nodup
  reads    : ∀ n, n ∈ g.reads ↔ n ∈ c.shared.client.fetching ∧ (W.inHand c n).isSome
  opened   : c.shared.client.subscribed = true → c.shared.client.opened = true
  told     : ∀ (t : Nat) th, c.threads[t]? = some th → th.ended = false → W.trip.tripId ∈ (sights c t).told →
    t ∈ g.missed ∨ ∃ entry ∈ c.shared.client.queue, entry.1 = t ∧ entry.2.tripId = W.trip.tripId
  first    : c.shared.client.opened = true → c.shared.client.fetched = none → g.reads = [] →
    ∃ n ∈ c.shared.client.fetching, W.stage c n = some .looking
  informed : c.shared.client.opened = true →
    W.Pending c ∨ W.latest g c = some (W.answer c.shared.server.db.committed)

variable {W} {g : Record} {c c' : State} {t : Nat}

/-- Rows that take the same places of the leg determine the same availability. -/
theorem answer_congr {rows rows' : List BookingRow}
    (h : ∀ P : BookingRow → Prop, (∀ a b, SamePlace a b → P a → P b) →
      ((∃ row ∈ rows, W.stretch.takes row = true ∧ P row) ↔ ∃ row ∈ rows', W.stretch.takes row = true ∧ P row)) :
    W.answer rows = W.answer rows' := by
  have htaken : ∀ (rows : List BookingRow) (seat : Seat), W.taken rows seat = true ↔
      ∃ row ∈ rows, W.stretch.takes row = true ∧ (toHold row).seatId = seat.seatId := by
    intro rows seat
    simp only [taken, List.any_eq_true, Stretch.takes, stretch, Bool.and_eq_true, decide_eq_true_eq]
    constructor
    · rintro ⟨row, hrow, ⟨⟨htrip, hactive⟩, hseat⟩, hleg⟩
      exact ⟨row, hrow, ⟨hactive, htrip, hleg⟩, hseat⟩
    · rintro ⟨row, hrow, ⟨hactive, htrip, hleg⟩, hseat⟩
      exact ⟨row, hrow, ⟨⟨htrip, hactive⟩, hseat⟩, hleg⟩
  unfold answer
  congr 1
  funext seat
  rw [Bool.eq_iff_iff, htaken, htaken]
  refine h _ fun a b hplace hseat => ?_
  rw [← hseat]
  unfold toHold
  rw [hplace.seat]

/-! ### Looking threads up -/

theorem stage_set_ne {d : Desk} {th : Thread Stmts Err (Option LegAvailability)} {n : Nat} (hn : n ≠ t) :
    W.stage ⟨d, c.threads.set t th⟩ n = W.stage c n := by
  unfold stage
  rw [List.getElem?_set_ne (Ne.symm hn)]

theorem stage_set_self {d : Desk} {th th' : Thread Stmts Err (Option LegAvailability)} (hth : c.threads[t]? = some th) :
    W.stage ⟨d, c.threads.set t th'⟩ t = some (Machine.know W.learn .looking th') := by
  unfold stage
  rw [List.getElem?_set_self (List.getElem?_eq_some_iff.mp hth).1]
  rfl

theorem stage_of {th : Thread Stmts Err (Option LegAvailability)} (hth : c.threads[t]? = some th) :
    W.stage c t = some (Machine.know W.learn .looking th) := by
  unfold stage
  rw [hth]
  rfl

theorem sights_of {th : Thread Stmts Err (Option LegAvailability)} (hth : c.threads[t]? = some th) :
    sights c t = Machine.know Sight.note {} th := by
  unfold sights
  rw [hth]
  rfl

theorem sights_set {d : Desk} {th th' : Thread Stmts Err (Option LegAvailability)} (hth : c.threads[t]? = some th) :
    sights ⟨d, c.threads.set t th'⟩ = learnt (sights c) t (Machine.know Sight.note {} th') := by
  funext u
  unfold sights
  by_cases hu : u = t
  · rw [hu, learnt_self, List.getElem?_set_self (List.getElem?_eq_some_iff.mp hth).1]
    rfl
  · rw [learnt_ne hu, List.getElem?_set_ne (Ne.symm hu)]

theorem learnt_same {sight : Nat → Sight} : learnt sight t (sight t) = sight := by
  funext u
  unfold learnt
  split
  · rename_i hu
    rw [hu]
  · rfl

theorem inHand_congr {c' : State} {n : Nat} (h : W.stage c' n = W.stage c n) : W.inHand c' n = W.inHand c n := by
  unfold inHand
  rw [h]

theorem latest_congr {g' : Record} (hreads : g'.reads = g.reads)
    (hfetched : c'.shared.client.fetched = c.shared.client.fetched)
    (hhand : ∀ n ∈ g.reads, W.inHand c' n = W.inHand c n) : W.latest g' c' = W.latest g c := by
  unfold latest
  rw [hreads]
  cases hlast : g.reads.getLast? with
  | none => exact hfetched
  | some n => exact hhand n (List.mem_of_getLast? hlast)

/-! ### A statement -/

/-- What a SELECT answers. -/
theorem selected {scan : Scan} {gateway : Gateway} {s s' : Server} {e : Event Stmts Err} {filter : Filter}
    {rows : List BookingRow} (h : Server.Effect scan gateway t s e s') (he : e = ⟨.select filter, .ok rows⟩) :
    rows = scan.order ((s.view t).filter filter.holds) := by
  cases h with
  | select =>
      cases he
      rfl
  | aside ho =>
      cases he
      exact ho.elim
  | _ => cases he

/-- What a COMMIT does. -/
theorem committed {scan : Scan} {gateway : Gateway} {s s' : Server} {e : Event Stmts Err}
    (h : Server.Effect scan gateway t s e s') (he : e.op = .commit) : s'.db = s.db.commit bookingTable t := by
  cases h with
  | committed => rfl
  | @aside o a ho =>
      obtain rfl : o = .commit := he
      exact ho.elim
  | _ => cases he

/-- What one statement of `t` did: its effect on the server, what the traveller was told by it, and what its thread has
    then learnt. -/
structure Acted (c : State) (t : Nat) (o : Stmt) (r : Except Err o.Res) (c' : State) : Prop where
  effect : Server.Effect (W.scan t) (W.gateway t) t c.shared.server ⟨o, r⟩ c'.shared.server
  client : c'.shared.client = c.shared.client.hear t o
  seen   : sights c' = learnt (sights c) t ((sights c t).note o r)
  guard  : Guard (sights c t) o
  live   : ∀ (u : Nat) th', c'.threads[u]? = some th' → th'.ended = false →
    ∃ th, c.threads[u]? = some th ∧ th.ended = false
  alive  : ∃ th, c.threads[t]? = some th ∧ th.ended = false
  others : ∀ n ≠ t, W.stage c' n = W.stage c n
  self   : ∃ l, W.stage c t = some l ∧ W.stage c' t = some (W.learn l o r) ∧
    (W.requests.length ≤ t → l ≠ .lost ∧ W.allows l o ∧ W.learn l o r ≠ .lost)

variable {o : Stmt} {r : Except Err o.Res}

/-! ### The server's side

A statement of a request or of a fetch keeps the announcements of the trip and the outlines of the fetches, whoever
issues it. -/

theorem Serves.acted (h : W.Serves c) {th : Thread Stmts Err (Option LegAvailability)} {d : Desk}
    {k : Except Err o.Res → Prog Stmts Err (Option LegAvailability)} (hth : c.threads[t]? = some th)
    (hlive : th.ended = false) (hprog : th.prog = .perform o k) (hexec : W.machine.exec t o c.shared = some (r, d)) :
    Acted (W := W) c t o r ⟨d, c.threads.set t ⟨k r, th.log ++ [⟨o, r⟩], false⟩⟩ := by
  obtain ⟨⟨r', s'⟩, hserver, heq⟩ := Option.map_eq_some_iff.mp hexec
  obtain ⟨rfl, rfl⟩ := Prod.mk.inj heq
  have hlt := (List.getElem?_eq_some_iff.mp hth).1
  refine ⟨Server.exec_effect hserver, rfl, ?_, ?_, ?_, ⟨th, hth, hlive⟩,
    fun n hn => stage_set_ne hn, _, stage_of hth, ?_, fun ht => ?_⟩
  · rw [sights_set hth, Machine.know_snoc, sights_of hth]
  · rw [sights_of hth]
    exact h.guarded.allowed hth hprog
  · intro u th' hth' hlive'
    rcases set_cases hlt hth' with ⟨-, hth'⟩ | ⟨rfl, rfl⟩
    · exact ⟨th', hth', hlive'⟩
    · exact ⟨th, hth, hlive⟩
  · rw [stage_set_self hth, Machine.know_snoc]
  · have hallows := h.follows.allowed hth hprog ht
    have hfound : Machine.know W.learn .looking th ≠ .lost := fun hlost =>
      h.found t ht ((stage_of hth).trans (congrArg some hlost))
    exact ⟨hfound, hallows, learn_ne_lost h.trips hfound hallows hserver⟩

/-- A fetch writes nothing but expiries. -/
theorem reading_note {l : Stage} {n : Sight} (hl : l ≠ .lost) (ho : W.allows l o) (hn : n.wrote = false) :
    (n.note o r).wrote = false := by
  cases l with
  | lost => exact absurd rfl hl
  | settled _ => exact ho.elim
  | read _ =>
      obtain rfl : o = .commit := ho
      cases r with
      | ok u => rfl
      | error e => exact hn
  | looking =>
      rcases ho with hlooks | rfl
      · cases o with
        | selectTrip => cases r <;> exact hn
        | select filter =>
            cases filter with
            | overdue now => cases r <;> exact hn
            | _ => exact hlooks.elim
        | updateStatus id status =>
            obtain rfl : status = .expired := hlooks
            cases r <;> exact hn
        | _ => exact hlooks.elim
      · cases r <;> exact hn

/-- **Step lemma**, the server's side of a statement. -/
theorem Serves.act (h : W.Serves c) (hact : Acted (W := W) c t o r c') (hlong : c'.threads.length = c.threads.length)
    (hfollows : Machine.Follows W.keeps W.learn .looking W.closes c')
    (hguarded : Machine.Follows (fun _ => Guard) Sight.note {} (fun _ _ _ => True) c') (hfair : W.Fair g c t o) :
    W.Serves c' := by
  obtain ⟨l, hl, hl', hfetch⟩ := hact.self
  refine ⟨hact.effect.trips_kept.trans h.trips, hlong ▸ h.long, hfollows, hguarded, ?_, fun n hn => ?_, fun n hn => ?_⟩
  · rw [hact.seen]
    refine h.announces.act hact.effect hact.guard fun id hop => ?_
    obtain rfl : o = .updateStatus id .expired := hop
    exact hfair
  · by_cases hnt : n = t
    · subst hnt
      rw [hl']
      exact fun hlost => (hfetch hn).2.2 (Option.some.inj hlost)
    · rw [hact.others n hnt]
      exact h.found n hn
  · rw [hact.seen]
    by_cases hnt : n = t
    · subst hnt
      rw [learnt_self]
      exact reading_note (hfetch hn).1 (hfetch hn).2.1 (h.reading n hn)
    · rw [learnt_ne hnt]
      exact h.reading n hn

/-! ### The traveller's side

Only two kinds of statements matter to the screen: the read of a fetch, and a commit that alters the leg. The read
makes the answer in hand the newest; the commit has been published, and its event is still waiting. -/

/-- The statement is the read of one of the traveller's fetches. -/
def Reads (c : State) (t : Nat) (o : Stmt) : Prop :=
  t ∈ c.shared.client.fetching ∧ ∃ tripId, o = .select (.activeOnTrip tripId)

theorem Acted.fetching (h : Acted (W := W) c t o r c') : c'.shared.client.fetching = c.shared.client.fetching := by
  rw [h.client]
  rfl

theorem Acted.fetched (h : Acted (W := W) c t o r c') : c'.shared.client.fetched = c.shared.client.fetched := by
  rw [h.client]
  rfl

theorem Acted.queued (h : Acted (W := W) c t o r c') {entry : Nat × AvailabilityEvent}
    (he : entry ∈ c.shared.client.queue) : entry ∈ c'.shared.client.queue := by
  rw [h.client]
  exact List.mem_append_left _ he

theorem noted_reads : (W.notedStmt g c t o).reads = g.reads ∨
    (Reads c t o ∧ (W.notedStmt g c t o).reads = g.reads ++ [t]) := by
  cases o with
  | select filter =>
      cases filter with
      | activeOnTrip tripId =>
          by_cases ht : t ∈ c.shared.client.fetching
          · exact Or.inr ⟨⟨ht, tripId, rfl⟩, by simp only [notedStmt, if_pos ht]⟩
          · exact Or.inl (by simp only [notedStmt, if_neg ht])
      | _ => exact Or.inl rfl
  | publish event =>
      refine Or.inl ?_
      dsimp only [notedStmt]
      split <;> rfl
  | _ => exact Or.inl rfl

theorem noted_reads_of (h : Reads c t o) : (W.notedStmt g c t o).reads = g.reads ++ [t] := by
  obtain ⟨ht, tripId, rfl⟩ := h
  simp only [notedStmt, if_pos ht]

/-- **The read of a fetch**: it was looking, and has in hand what the committed bookings determine. -/
theorem Acted.read (h : Acted (W := W) c t o r c') (hserves : W.Serves c) (hsent : W.requests.length ≤ t)
    (hreads : Reads c t o) : W.stage c t = some .looking ∧
      W.inHand c' t = some (W.answer c.shared.server.db.committed) := by
  obtain ⟨l, hl, hl', hfetch⟩ := h.self
  obtain ⟨hfound, hallows, hkept⟩ := hfetch hsent
  obtain ⟨-, tripId, rfl⟩ := hreads
  cases l with
  | lost => exact absurd rfl hfound
  | read _ => cases hallows
  | settled _ => exact hallows.elim
  | looking =>
      refine ⟨hl, ?_⟩
      rcases learn_looking hallows hkept with hlooking | ⟨rows, he, hread⟩
      · -- only the trip's own bookings are read, and what is read is noted
        exfalso
        cases r with
        | ok rows => cases hlooking
        | error e => cases hlooking
      · have hanswer : W.answer (c.shared.server.view t) = W.answer c.shared.server.db.committed :=
          answer_congr (hserves.announces.reader_quiet (hserves.reading t hsent))
        unfold inHand
        rw [hl', hread, selected h.effect he, reply_scan, hanswer]
        rfl

/-- A statement that is not the read of a fetch leaves every fetch with what it had in hand, or looking. -/
theorem Acted.unread (h : Acted (W := W) c t o r c') (hreads : ¬ Reads c t o) {n : Nat}
    (hn : n ∈ c.shared.client.fetching) (hsent : W.requests.length ≤ n) :
    W.inHand c' n = W.inHand c n ∧ (W.stage c n = some .looking → W.stage c' n = some .looking) := by
  by_cases hnt : n = t
  · subst hnt
    obtain ⟨l, hl, hl', hfetch⟩ := h.self
    obtain ⟨hfound, hallows, hkept⟩ := hfetch hsent
    unfold inHand
    rw [hl, hl']
    cases l with
    | lost => exact absurd rfl hfound
    | settled _ => exact hallows.elim
    | read answer =>
        obtain rfl : o = .commit := hallows
        refine ⟨?_, fun hlooking => by cases hlooking⟩
        cases r with
        | ok u => rfl
        | error e => exact absurd rfl hkept
    | looking =>
        rcases learn_looking hallows hkept with hlooking | ⟨rows, he, hread⟩
        · rw [hlooking]
          exact ⟨rfl, fun _ => rfl⟩
        · -- it learns the availability by no other statement
          refine absurd ⟨hn, W.trip.tripId, ?_⟩ hreads
          cases he
          rfl
  · exact ⟨inHand_congr (h.others n hnt), fun hlooking => (h.others n hnt).trans hlooking⟩

theorem Acted.pending (h : Acted (W := W) c t o r c') (hreads : ¬ Reads c t o)
    (hsent : ∀ n ∈ c.shared.client.fetching, W.requests.length ≤ n) (hp : W.Pending c) : W.Pending c' := by
  rcases hp with ⟨entry, he, htrip⟩ | ⟨n, hn, hlook⟩
  · exact Or.inl ⟨entry, h.queued he, htrip⟩
  · exact Or.inr ⟨n, h.fetching.symm ▸ hn, (h.unread hreads hn (hsent n hn)).2 hlook⟩

/-- Whoever publishes about the trip is heard, or noted. -/
theorem Acted.told (h : Acted (W := W) c t o r c') (hhears : W.Hears g c) (u : Nat)
    (th' : Thread Stmts Err (Option LegAvailability)) (hth' : c'.threads[u]? = some th') (hlive : th'.ended = false)
    (htold : W.trip.tripId ∈ (sights c' u).told) : u ∈ (W.notedStmt g c t o).missed ∨
      ∃ entry ∈ c'.shared.client.queue, entry.1 = u ∧ entry.2.tripId = W.trip.tripId := by
  obtain ⟨th, hth, hthlive⟩ := h.live u th' hth' hlive
  have hmissed : ∀ v ∈ g.missed, v ∈ (W.notedStmt g c t o).missed := by
    intro v hv
    cases o with
    | select filter =>
        cases filter with
        | activeOnTrip =>
            dsimp only [notedStmt]
            split <;> exact hv
        | _ => exact hv
    | publish event =>
        dsimp only [notedStmt]
        split
        · exact List.mem_append_left _ hv
        · exact hv
    | _ => exact hv
  have hbefore : W.trip.tripId ∈ (sights c u).told → u ∈ (W.notedStmt g c t o).missed ∨
      ∃ entry ∈ c'.shared.client.queue, entry.1 = u ∧ entry.2.tripId = W.trip.tripId := fun htold =>
    (hhears.told u th hth hthlive htold).imp (hmissed u) fun ⟨entry, he, hentry⟩ => ⟨entry, h.queued he, hentry⟩
  rw [h.seen] at htold
  by_cases hu : u = t
  · subst hu
    rw [learnt_self] at htold
    cases o with
    | publish event =>
        cases r with
        | error e => exact hbefore htold
        | ok _ =>
            rcases List.mem_append.mp htold with htold | htold
            · exact hbefore htold
            · have htrip : event.tripId = W.trip.tripId := (List.mem_singleton.mp htold).symm
              -- an open stream queues the event; otherwise the record keeps the publisher
              cases hsub : c.shared.client.subscribed with
              | false =>
                  refine Or.inl ?_
                  simp only [notedStmt, if_pos (And.intro htrip hsub)]
                  exact List.mem_append_right _ (List.mem_singleton.mpr rfl)
              | true =>
                  refine Or.inr ⟨(u, event), ?_, rfl, htrip⟩
                  rw [h.client, Client.hear, Client.told, if_pos hsub]
                  exact List.mem_append_right _ (List.mem_singleton.mpr rfl)
    | updateStatus id status =>
        refine hbefore ?_
        cases r with
        | error e => exact htold
        | ok _ =>
            dsimp only [Sight.note] at htold
            split at htold <;> exact htold
    | commit =>
        -- once committed, nothing told is in doubt
        cases r with
        | error e => exact hbefore htold
        | ok _ => exact absurd htold List.not_mem_nil
    | select filter => exact hbefore (by cases filter <;> cases r <;> exact htold)
    | selectById id =>
        refine hbefore ?_
        cases r with
        | error e => exact htold
        | ok found => cases found <;> exact htold
    | _ => exact hbefore (by cases r <;> exact htold)
  · rw [learnt_ne hu] at htold
    exact hbefore htold

/-- **A commit**: what it changes on the leg has been published, and the event is waiting, or the first fetch has not
    read yet. -/
theorem Acted.informed_commit (h : Acted (W := W) c t o r c') (hserves : W.Serves c) (hhears : W.Hears g c)
    (ho : o = .commit) (hfair : W.Fair g c t o) (hopened : c.shared.client.opened = true) :
    W.Pending c' ∨ W.latest (W.notedStmt g c t o) c' = some (W.answer c'.shared.server.db.committed) := by
  subst ho
  have hreads : ¬ Reads c t .commit := fun hr => by
    obtain ⟨-, tripId, heq⟩ := hr
    cases heq
  by_cases htold : W.trip.tripId ∈ (sights c t).told
  · refine Or.inl (h.pending hreads hhears.sent ?_)
    obtain ⟨th, hth, hlive⟩ := h.alive
    rcases hhears.told t th hth hlive htold with hmissed | ⟨entry, he, -, htrip⟩
    · -- the traveller was not told, and has not read either
      obtain ⟨hnone, hunread⟩ := hfair hmissed
      obtain ⟨n, hn, hlook⟩ := hhears.first hopened hnone hunread
      exact Or.inr ⟨n, hn, hlook⟩
    · exact Or.inl ⟨entry, he, htrip⟩
  · -- nobody was told, so the leg has not changed
    have hsame : W.answer c'.shared.server.db.committed = W.answer c.shared.server.db.committed := by
      rw [committed h.effect rfl]
      exact answer_congr (hserves.announces.commit_quiet h.guard htold)
    refine (hhears.informed hopened).imp (h.pending hreads hhears.sent) fun hlatest => ?_
    rw [hsame, ← hlatest]
    exact latest_congr rfl h.fetched fun n hn =>
      (h.unread hreads ((hhears.reads n).mp hn).1 (hhears.sent n ((hhears.reads n).mp hn).1)).1

/-- **Step lemma**, the traveller's side of a statement. -/
theorem Hears.act (hhears : W.Hears g c) (hserves : W.Serves c) (h : Acted (W := W) c t o r c')
    (hfair : W.Fair g c t o) : W.Hears (W.notedStmt g c t o) c' := by
  have hopened : c'.shared.client.opened = c.shared.client.opened := by rw [h.client]; rfl
  have hsubscribed : c'.shared.client.subscribed = c.shared.client.subscribed := by rw [h.client]; rfl
  have hsent : ∀ n ∈ c.shared.client.fetching, W.requests.length ≤ n := hhears.sent
  by_cases hreads : Reads c t o
  · -- the reading becomes the newest, and a read leaves what is committed
    obtain ⟨hlooking, hhand⟩ := h.read hserves (hsent t hreads.1) hreads
    have hnew : (W.notedStmt g c t o).reads = g.reads ++ [t] := noted_reads_of hreads
    have hnot : t ∉ g.reads := fun ht => by
      have hsome := ((hhears.reads t).mp ht).2
      unfold inHand at hsome
      rw [hlooking] at hsome
      cases hsome
    have hcommitted : c'.shared.server.db.committed = c.shared.server.db.committed := by
      obtain ⟨-, tripId, rfl⟩ := hreads
      exact h.effect.committed_kept Stmt.noConfusion
    refine ⟨?_, ?_, fun n => ?_, ?_, h.told hhears, ?_, fun _ => Or.inr ?_⟩
    · rw [h.fetching]
      exact hsent
    · rw [hnew]
      exact List.nodup_append.mpr ⟨hhears.once, List.nodup_singleton t, fun a ha b hb hab =>
        hnot (by rw [← List.mem_singleton.mp hb, ← hab]; exact ha)⟩
    · rw [hnew, h.fetching]
      by_cases hnt : n = t
      · subst hnt
        exact ⟨fun _ => ⟨hreads.1, by rw [hhand]; rfl⟩,
          fun _ => List.mem_append_right _ (List.mem_singleton.mpr rfl)⟩
      · rw [inHand_congr (h.others n hnt), ← hhears.reads n, List.mem_append, List.mem_singleton]
        exact ⟨fun hmem => hmem.resolve_right hnt, Or.inl⟩
    · rw [hopened, hsubscribed]
      exact hhears.opened
    · intro _ _ hnone
      rw [hnew] at hnone
      exact absurd hnone (List.append_ne_nil_of_right_ne_nil _ (List.cons_ne_nil _ _))
    · unfold latest
      rw [hnew, List.getLast?_concat, hcommitted]
      exact hhand
  · have hsame : (W.notedStmt g c t o).reads = g.reads := noted_reads.resolve_right fun hnew => hreads hnew.1
    refine ⟨?_, hsame.symm ▸ hhears.once, fun n => ?_, ?_, h.told hhears, ?_, fun hopen => ?_⟩
    · rw [h.fetching]
      exact hsent
    · rw [hsame, h.fetching, hhears.reads n]
      exact and_congr_right fun hn => by rw [(h.unread hreads hn (hsent n hn)).1]
    · rw [hopened, hsubscribed]
      exact hhears.opened
    · intro hopen hnone hunread
      obtain ⟨n, hn, hlook⟩ := hhears.first (hopened ▸ hopen) (h.fetched ▸ hnone) (hsame ▸ hunread)
      exact ⟨n, h.fetching.symm ▸ hn, (h.unread hreads hn (hsent n hn)).2 hlook⟩
    · rw [hopened] at hopen
      by_cases hcommit : o = .commit
      · exact h.informed_commit hserves hhears hcommit hfair hopen
      · rw [h.effect.committed_kept hcommit]
        refine (hhears.informed hopen).imp (h.pending hreads hsent) fun hlatest => ?_
        rw [← hlatest]
        exact latest_congr hsame h.fetched fun n hn =>
          (h.unread hreads ((hhears.reads n).mp hn).1 (hsent n ((hhears.reads n).mp hn).1)).1

/-! ### The end of a transaction -/

/-- What every turn keeps, given what has been noted of the past. -/
structure Kept (W : Watch) (g : Record) (c : State) : Prop where
  serves : W.Serves c
  hears  : W.Hears g c

/-- What the traveller does leaves the server and its transactions as they are. -/
theorem Serves.of_client (h : W.Serves c) (client : Client) :
    W.Serves { c with shared := { c.shared with client := client } } :=
  ⟨h.trips, h.long, h.follows, h.guarded, h.announces, h.found, h.reading⟩

/-- **Step lemma**, a transaction that ends: its log stays, what it had in doubt goes. -/
theorem Kept.finish (h : W.Kept g c) {th : Thread Stmts Err (Option LegAvailability)}
    (hth : c.threads[t]? = some th)
    (hfollows : Machine.Follows W.keeps W.learn .looking W.closes
      ⟨W.machine.finish t c.shared, c.threads.set t { th with ended := true }⟩)
    (hguarded : Machine.Follows (fun _ => Guard) Sight.note {} (fun _ _ _ => True)
      ⟨W.machine.finish t c.shared, c.threads.set t { th with ended := true }⟩) :
    W.Kept g ⟨W.machine.finish t c.shared, c.threads.set t { th with ended := true }⟩ := by
  have hstage : ∀ n,
      W.stage ⟨W.machine.finish t c.shared, c.threads.set t { th with ended := true }⟩ n = W.stage c n := by
    intro n
    by_cases hnt : n = t
    · rw [hnt, stage_set_self hth, stage_of hth]
      rfl
    · exact stage_set_ne hnt
  have hsights : sights ⟨W.machine.finish t c.shared, c.threads.set t { th with ended := true }⟩ = sights c := by
    rw [sights_set hth, show Machine.know Sight.note {} { th with ended := true } = sights c t from
      (sights_of hth).symm, learnt_same]
  have hpending : W.Pending c → W.Pending ⟨W.machine.finish t c.shared, c.threads.set t { th with ended := true }⟩ :=
    Or.imp id fun ⟨n, hn, hlook⟩ => ⟨n, hn, (hstage n).trans hlook⟩
  refine ⟨⟨h.serves.trips, ?_, hfollows, hguarded, ?_, fun n hn => ?_, fun n hn => ?_⟩,
    ⟨h.hears.sent, h.hears.once, fun n => ?_, h.hears.opened, fun u th' hth' hlive htold => ?_, fun ho hf hr => ?_,
      fun ho => ?_⟩⟩
  · rw [List.length_set]
    exact h.serves.long
  · rw [hsights]
    exact h.serves.announces.close t
  · rw [hstage]
    exact h.serves.found n hn
  · rw [hsights]
    exact h.serves.reading n hn
  · rw [inHand_congr (hstage n)]
    exact h.hears.reads n
  · rw [hsights] at htold
    rcases set_cases (List.getElem?_eq_some_iff.mp hth).1 hth' with ⟨-, hth'⟩ | ⟨rfl, rfl⟩
    · exact h.hears.told u th' hth' hlive htold
    · cases hlive
  · obtain ⟨n, hn, hlook⟩ := h.hears.first ho hf hr
    exact ⟨n, hn, (hstage n).trans hlook⟩
  · refine (h.hears.informed ho).imp hpending fun hlatest => ?_
    rw [show (W.machine.finish t c.shared).server.db.committed = c.shared.server.db.committed from rfl, ← hlatest]
    exact latest_congr rfl rfl fun n _ => inHand_congr (hstage n)

/-- Only a write is ever kept waiting. -/
theorem noted_blocked {o : Stmt} (hexec : W.machine.exec t o c.shared = none) : W.notedStmt g c t o = g := by
  cases o with
  | select | publish => cases hexec
  | _ => rfl

/-- **Step lemma**, a turn of the server. -/
theorem Kept.server (h : W.Kept g c) (hin : W.InTime g c (.server t)) :
    W.Kept (W.noted g c (.server t)) (W.turn c (.server t)) := by
  change W.Kept ((c.next t).elim g (W.notedStmt g c t)) (W.machine.step c t)
  have hfollows := h.serves.follows.step (M := W.machine) t
  have hguarded := h.serves.guarded.step (M := W.machine) t
  cases hnext : c.next t with
  | none =>
      have hmove := W.machine.step_move c t
      generalize W.machine.step c t = c' at hmove hfollows hguarded ⊢
      cases hmove with
      | stay => exact h
      | finish hth _ _ => exact h.finish hth hfollows hguarded
      -- a thread that acts has a next statement
      | act hth hlive hprog _ =>
          rw [Config.next_eq hth hlive hprog] at hnext
          cases hnext
  | some o =>
      cases hexec : W.machine.exec t o c.shared with
      | none =>
          rw [W.machine.step_blocked hnext hexec]
          change W.Kept (W.notedStmt g c t o) c
          rw [noted_blocked hexec]
          exact h
      | some answer =>
          obtain ⟨r, d⟩ := answer
          obtain ⟨th, k, hth, hlive, hprog, hstep⟩ := W.machine.step_of_next hnext hexec
          rw [hstep] at hfollows hguarded ⊢
          have hact := h.serves.acted hth hlive hprog hexec
          have hfair := hin o hnext
          exact ⟨h.serves.act hact List.length_set hfollows hguarded hfair, h.hears.act h.serves hact hfair⟩

/-! ### Turns of the traveller -/

theorem stage_refresh_lt {k : Client} {n : Nat} (hn : n < c.threads.length) :
    W.stage (W.refresh c k) n = W.stage c n := by
  unfold stage refresh
  rw [List.getElem?_append_left hn]

theorem stage_refresh_new {k : Client} : W.stage (W.refresh c k) c.threads.length = some .looking := by
  unfold stage refresh
  rw [List.getElem?_concat_length]
  rfl

/-- What a refresh adds to the stages is one fetch that is looking. -/
theorem stage_refresh {k : Client} {n : Nat} {l : Stage} (h : W.stage (W.refresh c k) n = some l) :
    W.stage c n = some l ∨ l = .looking := by
  rcases Nat.lt_trichotomy n c.threads.length with hn | rfl | hn
  · exact Or.inl ((stage_refresh_lt hn).symm.trans h)
  · exact Or.inr (Option.some.inj (h.symm.trans stage_refresh_new))
  · unfold stage refresh at h
    rw [List.getElem?_eq_none (by simpa using Nat.succ_le_of_lt hn)] at h
    cases h

/-- A transaction that has not begun has seen nothing. -/
theorem sights_refresh {k : Client} : sights (W.refresh c k) = sights c := by
  funext n
  unfold sights refresh
  rcases Nat.lt_trichotomy n c.threads.length with hn | rfl | hn
  · rw [List.getElem?_append_left hn]
  · rw [List.getElem?_concat_length, List.getElem?_eq_none le_rfl]
    rfl
  · rw [List.getElem?_eq_none (by simpa using Nat.succ_le_of_lt hn), List.getElem?_eq_none (Nat.le_of_lt hn)]

theorem inHand_refresh {k : Client} {n : Nat} (hn : n < c.threads.length) :
    W.inHand (W.refresh c k) n = W.inHand c n := inHand_congr (stage_refresh_lt hn)

/-- A fetch with an answer in hand is one of the pool. -/
theorem inHand_lt {n : Nat} (h : (W.inHand c n).isSome) : n < c.threads.length := by
  by_contra hge
  unfold inHand stage at h
  rw [List.getElem?_eq_none (Nat.le_of_not_lt hge)] at h
  cases h

/-- **Step lemma**, a fetch sent off. What is still in the queue of the client `k` is what was in it, but for events of
    transactions that are over. -/
theorem Kept.refresh (h : W.Kept g c) {k : Client} (hfetching : k.fetching = c.shared.client.fetching)
    (hopened : k.subscribed = true → k.opened = true)
    (hqueue : ∀ (t : Nat) th, c.threads[t]? = some th → th.ended = false → W.trip.tripId ∈ (sights c t).told →
      t ∈ g.missed ∨ ∃ entry ∈ k.queue, entry.1 = t ∧ entry.2.tripId = W.trip.tripId) :
    W.Kept g (W.refresh c k) := by
  have hlooks : ∃ n ∈ (W.refresh c k).shared.client.fetching, W.stage (W.refresh c k) n = some .looking :=
    ⟨c.threads.length, List.mem_append_right _ (List.mem_singleton.mpr rfl), stage_refresh_new⟩
  refine ⟨⟨h.serves.trips, ?_, ?_, ?_, ?_, fun n hn hlost => ?_, fun n hn => ?_⟩,
    ⟨fun n hn => ?_, h.hears.once, fun n => ?_, hopened, fun t th hth hlive htold => ?_, fun _ _ _ => hlooks,
      fun _ => Or.inl (Or.inr hlooks)⟩⟩
  · unfold Watch.refresh
    rw [List.length_append]
    exact h.serves.long.trans (Nat.le_add_right _ _)
  · exact h.serves.follows.spawn _ (((W.outline_fetch _).mono_pre fun l o ho _ => ho).mono fun l r hr _ => hr)
  · refine h.serves.guarded.spawn _ ?_
    exact guarded_bind (careful_reader (reads_legAvailability (W.fetchDeps _) _ _)).guarded some
  · rw [sights_refresh]
    exact h.serves.announces
  · rcases stage_refresh hlost with hlost | hlost
    · exact h.serves.found n hn hlost
    · cases hlost
  · rw [sights_refresh]
    exact h.serves.reading n hn
  · change n ∈ k.fetching ++ [c.threads.length] at hn
    rcases List.mem_append.mp hn with hn | hn
    · exact h.hears.sent n (hfetching ▸ hn)
    · rw [List.mem_singleton.mp hn]
      exact h.serves.long
  · rw [h.hears.reads n]
    change _ ↔ n ∈ k.fetching ++ [c.threads.length] ∧ _
    rw [List.mem_append, List.mem_singleton, hfetching]
    constructor
    · rintro ⟨hn, hsome⟩
      exact ⟨Or.inl hn, by rwa [inHand_refresh (inHand_lt hsome)]⟩
    · rintro ⟨hn | rfl, hsome⟩
      · refine ⟨hn, ?_⟩
        by_cases hlt : n < c.threads.length
        · rwa [inHand_refresh hlt] at hsome
        · unfold inHand at hsome
          cases hl : W.stage (W.refresh c k) n with
          | none =>
              rw [hl] at hsome
              cases hsome
          | some l =>
              rcases stage_refresh hl with hold | rfl
              · rw [hl] at hsome
                unfold inHand
                rw [hold]
                exact hsome
              · rw [hl] at hsome
                cases hsome
      · unfold inHand at hsome
        rw [stage_refresh_new] at hsome
        cases hsome
  · rw [sights_refresh] at htold
    unfold Watch.refresh at hth
    rcases Nat.lt_trichotomy t c.threads.length with ht | rfl | ht
    · rw [List.getElem?_append_left ht] at hth
      exact hqueue t th hth hlive htold
    · -- the new fetch has published nothing
      unfold sights at htold
      rw [List.getElem?_eq_none le_rfl] at htold
      exact absurd htold List.not_mem_nil
    · rw [List.getElem?_eq_none (by simpa using Nat.succ_le_of_lt ht)] at hth
      cases hth

/-- A fetch that has ended has its answer in hand. -/
theorem Serves.ended (h : W.Serves c) {n : Nat} {res : Except Err (Option LegAvailability)} (hn : W.requests.length ≤ n)
    (hres : ended? c n = some res) :
    ∃ answer, W.stage c n = some (.settled answer) ∧ res = .ok (some answer) := by
  obtain ⟨th, hth, hended⟩ := Option.bind_eq_some_iff.mp hres
  have hresult : th.prog.result? = some res := by
    cases hflag : th.ended with
    | true => simpa [hflag] using hended
    | false => simp [hflag] at hended
  have hends := h.follows.finished hth hresult hn
  have hstage := stage_of (W := W) hth
  cases hl : Machine.know W.learn .looking th with
  | lost => exact absurd (hstage.trans (congrArg some hl)) (h.found n hn)
  | looking | read _ =>
      rw [hl] at hends
      exact hends.elim
  | settled answer =>
      rw [hl] at hends
      exact ⟨answer, hstage.trans (congrArg some hl), hends⟩

/-! ### Answers and events -/

/-- **Step lemma**, an answer that arrives in the order of the readings. -/
theorem Kept.arrive (h : W.Kept g c) {n : Nat} (hin : W.InTime g c (.arrive n)) :
    W.Kept (W.noted g c (.arrive n)) (W.turn c (.arrive n)) := by
  dsimp only [turn, noted]
  by_cases hn : n ∈ c.shared.client.fetching
  · rw [if_pos hn]
    cases hres : ended? c n with
    | none =>
        rw [if_neg (by simp)]
        exact h
    | some res =>
        rw [if_pos ⟨hn, rfl⟩]
        obtain ⟨answer, hstage, rfl⟩ := h.serves.ended (h.hears.sent n hn) hres
        obtain ⟨rest, hreads⟩ : ∃ rest, g.reads = n :: rest := by
          cases hlist : g.reads with
          | nil =>
              have hhead := hin hn (by rw [hres]; rfl)
              rw [hlist] at hhead
              cases hhead
          | cons m rest =>
              have hhead := hin hn (by rw [hres]; rfl)
              rw [hlist] at hhead
              exact ⟨rest, by rw [Option.some.inj hhead]⟩
        have herase : g.reads.erase n = rest := by rw [hreads, List.erase_cons_head]
        have honce : n ∉ rest ∧ rest.Nodup := List.nodup_cons.mp (hreads ▸ h.hears.once)
        have hhand : W.inHand c n = some answer := by
          unfold inHand
          rw [hstage]
          rfl
        have hleft : ∀ m, m ∈ (c.shared.client.receive n (.ok (some answer))).fetching ↔
            m ∈ c.shared.client.fetching ∧ m ≠ n := fun m => by
          unfold Client.receive
          rw [List.mem_filter, decide_eq_true_eq]
        change W.Kept { g with reads := g.reads.erase n }
          ⟨⟨c.shared.server, c.shared.client.receive n (.ok (some answer))⟩, c.threads⟩
        refine ⟨h.serves.of_client _, ⟨fun m hm => h.hears.sent m ((hleft m).mp hm).1, herase.symm ▸ honce.2,
          fun m => ?_, h.hears.opened, h.hears.told, fun _ hnone _ => ?_, fun ho => ?_⟩⟩
        · rw [herase]
          change m ∈ rest ↔ m ∈ (c.shared.client.receive n (.ok (some answer))).fetching ∧ (W.inHand c m).isSome
          rw [hleft]
          have hbefore := h.hears.reads m
          rw [hreads, List.mem_cons] at hbefore
          by_cases hmn : m = n
          · subst hmn
            exact ⟨fun hmem => absurd hmem honce.1, fun hmem => absurd rfl hmem.1.2⟩
          · constructor
            · intro hmem
              obtain ⟨hsent, hsome⟩ := hbefore.mp (Or.inr hmem)
              exact ⟨⟨hsent, hmn⟩, hsome⟩
            · rintro ⟨⟨hsent, -⟩, hsome⟩
              exact (hbefore.mpr ⟨hsent, hsome⟩).resolve_left hmn
        · -- the screen now shows an answer
          cases hnone
        · rcases h.hears.informed ho with (htold | ⟨m, hm, hlook⟩) | hlatest
          · exact Or.inl (Or.inl htold)
          · refine Or.inl (Or.inr ⟨m, (hleft m).mpr ⟨hm, ?_⟩, hlook⟩)
            rintro rfl
            rw [hstage] at hlook
            cases hlook
          · refine Or.inr ?_
            rw [← hlatest]
            unfold latest
            dsimp only
            rw [herase, hreads]
            -- with no younger reading, what was in hand is now on the screen
            cases rest with
            | nil => exact hhand.symm
            | cons m others =>
                rw [List.getLast?_cons_cons]
                rfl
  · rw [if_neg hn, if_neg fun hboth => hn hboth.1]
    exact h

/-- **Step lemma**, an event taken from the queue when its transaction is over. -/
theorem Kept.deliver (h : W.Kept g c) (hin : W.InTime g c .deliver) : W.Kept g (W.turn c .deliver) := by
  dsimp only [turn]
  cases hqueue : c.shared.client.queue with
  | nil => exact h
  | cons entry rest =>
      obtain ⟨u, event⟩ := entry
      dsimp only
      by_cases htrip : event.tripId = W.trip.tripId
      · rw [if_pos htrip]
        refine h.refresh rfl h.hears.opened fun t th hth hlive htold => ?_
        refine (h.hears.told t th hth hlive htold).imp_right ?_
        rintro ⟨other, hother, rfl, hmine⟩
        rw [hqueue] at hother
        rcases List.mem_cons.mp hother with rfl | hother
        · -- the publisher of the event delivered has nothing in doubt any more
          exfalso
          have hover := hin (u, event) (by rw [hqueue]; rfl) htrip th hth
          rcases hover with hended | hnothing
          · rw [hlive] at hended
            cases hended
          · rw [hnothing] at htold
            exact List.not_mem_nil htold
        · exact ⟨other, hother, rfl, hmine⟩
      · -- an event of another trip makes the traveller fetch nothing
        rw [if_neg htrip]
        have hkept : ∀ other ∈ c.shared.client.queue, other.2.tripId = W.trip.tripId → other ∈ rest := by
          intro other hother hmine
          rw [hqueue] at hother
          rcases List.mem_cons.mp hother with rfl | hother
          · exact absurd hmine htrip
          · exact hother
        refine ⟨h.serves.of_client _, ⟨h.hears.sent, h.hears.once, h.hears.reads, h.hears.opened,
            fun t th hth hlive htold => ?_, h.hears.first, fun ho => ?_⟩⟩
        · refine (h.hears.told t th hth hlive htold).imp_right ?_
          rintro ⟨other, hother, hby, hmine⟩
          exact ⟨other, hkept other hother hmine, hby, hmine⟩
        · refine (h.hears.informed ho).imp_left (Or.imp_left ?_)
          rintro ⟨other, hother, hmine⟩
          exact ⟨other, hkept other hother hmine, hmine⟩

/-- **Step lemma.** Every turn in time keeps the invariant. -/
theorem Kept.turn (h : W.Kept g c) {turn : Turn} (hin : W.InTime g c turn) :
    W.Kept (W.noted g c turn) (W.turn c turn) := by
  cases turn with
  | server t => exact h.server hin
  | deliver => exact h.deliver hin
  | arrive n => exact h.arrive hin
  | selectTrain =>
      dsimp only [Watch.turn, noted]
      split
      · exact h
      · exact h.refresh rfl (fun _ => rfl) h.hears.told
  | subscribe =>
      dsimp only [Watch.turn, noted]
      split
      · rename_i hready
        exact ⟨h.serves.of_client _, ⟨h.hears.sent, h.hears.once, h.hears.reads, fun _ => hready.1, h.hears.told,
          h.hears.first, h.hears.informed⟩⟩
      · exact h

variable (W)

/-! ## Every run -/

theorem kept_start : W.Kept {} W.start := by
  have hthreads : ∀ (t : Nat) th, W.start.threads[t]? = some th →
      t < W.requests.length ∧ ∃ r, th = { prog := (Request.statements r).bind fun _ => .ret none } := by
    intro t th hth
    obtain ⟨r, hr, rfl⟩ := Option.map_eq_some_iff.mp ((List.getElem?_map ..).symm.trans hth)
    exact ⟨(List.getElem?_eq_some_iff.mp hr).1, r, rfl⟩
  have hsights : sights W.start = fun _ => {} := by
    funext t
    unfold sights
    cases hth : W.start.threads[t]? with
    | none => rfl
    | some th =>
        obtain ⟨-, r, rfl⟩ := hthreads t th hth
        rfl
  have hnobody : ∀ n, W.requests.length ≤ n → W.start.threads[n]? = none := fun n hn => by
    refine List.getElem?_eq_none ?_
    unfold start
    rwa [List.length_map]
  refine ⟨⟨rfl, ?_, fun t th hth => ?_, fun t th hth => ?_, ?_, fun n hn hlost => ?_, fun n _ => by rw [hsights]⟩,
    ⟨fun n hn => absurd hn List.not_mem_nil, List.nodup_nil, fun n => ?_, fun h => (by cases h),
      fun t th _ _ htold => ?_, fun h => (by cases h), fun h => (by cases h)⟩⟩
  · unfold start
    rw [List.length_map]
  · have ht : ¬ W.requests.length ≤ t := Nat.not_le.mpr (hthreads t th hth).1
    exact (Prog.outline_invariant (I := fun _ => True) (fun _ _ _ _ h => absurd h ht) (fun _ _ _ _ _ => trivial)
      (Prog.only_true th.prog) trivial).mono fun _ _ _ h => absurd h ht
  · obtain ⟨-, r, rfl⟩ := hthreads t th hth
    exact guarded_bind (guarded_statements r) fun _ => none
  · rw [hsights]
    exact announces_start W.stretch W.trips
  · unfold stage at hlost
    rw [hnobody n hn] at hlost
    cases hlost
  · exact ⟨fun hn => absurd hn List.not_mem_nil, fun hn => absurd hn.1 List.not_mem_nil⟩
  · rw [hsights] at htold
    exact absurd htold List.not_mem_nil

/-- **A subscribed traveller converges** in every run without the races: when nothing is in flight and every event has
    been delivered and answered, the screen shows what the committed bookings determine. -/
theorem watchers_converge (turns : List Turn) (hrun : W.Undisturbed turns)
    (hquiet : W.Quiet (W.after W.start turns)) (hsub : (W.after W.start turns).shared.client.subscribed = true) :
    W.Shows (W.after W.start turns) := by
  obtain ⟨g, hkept⟩ : ∃ g, W.Kept g (W.after W.start turns) :=
    @foldl_noting _ _ _ W.turn W.noted W.InTime W.Kept (fun _ _ _ h hin => h.turn hin) {} W.start turns W.kept_start hrun
  have hopened := hkept.hears.opened hsub
  -- a quiet run has nothing pending, so the newest reading is the screen
  rcases hkept.hears.informed hopened with (⟨entry, he, htrip⟩ | ⟨n, hn, -⟩) | hlatest
  · exact absurd htrip (hquiet.delivered entry he)
  · rw [hquiet.answered] at hn
    cases hn
  · have hnone : g.reads = [] := by
      refine List.eq_nil_iff_forall_not_mem.mpr fun n hn => ?_
      have hfetching := ((hkept.hears.reads n).mp hn).1
      rw [hquiet.answered] at hfetching
      cases hfetching
    unfold latest at hlatest
    rw [hnone] at hlatest
    exact hlatest

/-! ## Runs -/

/-- A hold, and long after it a search whose sweep finds it due; a traveller watches the first hop of the train. -/
def holdThenSearch : Watch where
  trips := sampleTrips
  requests :=
    [⟨.hold "slow" "A1" firstHop "nic1" "Nimal" none, sampleDeps 0 "0", acceptAll⟩,
     ⟨.search "FOT" "KDT" "2024-05-01", sampleDeps 1714521600 "1", acceptAll⟩]
  trip := sampleTrip "slow" [originStop, middleStop, terminusStop]
  leg := firstHop
  fetchDeps _ := sampleDeps 0 "f"
  listed := by decide +kernel
  onLine := by decide +kernel

/-- The traveller picks the train, with fetch `n`, and subscribes. -/
def opening (n : Nat) : List Turn := .selectTrain :: List.replicate 5 (.server n) ++ [.arrive n, .subscribe]

/-- An event is delivered, and fetch `n` answered. -/
def refetch (n : Nat) : List Turn := .deliver :: List.replicate 5 (.server n) ++ [.arrive n]

/-- The hold commits, then its event is delivered. -/
def inOrder : List Turn := opening 2 ++ List.replicate 9 (.server 0) ++ refetch 3

theorem watchers_converge_inOrder : holdThenSearch.Shows (holdThenSearch.after holdThenSearch.start inOrder) :=
  watchers_converge holdThenSearch inOrder (by decide +kernel)
    ⟨by decide +kernel, by decide +kernel, by decide +kernel⟩ (by decide +kernel)

/-- The hold publishes, its event is delivered and answered, the hold commits. -/
def earlyEvent : List Turn := opening 2 ++ List.replicate 6 (.server 0) ++ refetch 3 ++ List.replicate 3 (.server 0)

/-- The traveller comes after the hold; the search frees the seat. -/
def silentSweep : List Turn := List.replicate 9 (.server 0) ++ opening 2 ++ List.replicate 7 (.server 1)

/-- The run ends with everything delivered and answered, and the screen wrong. -/
structure EndsStale (W : Watch) (turns : List Turn) : Prop where
  quiet      : W.Quiet (W.after W.start turns)
  subscribed : (W.after W.start turns).shared.client.subscribed = true
  wrong      : ¬ W.Shows (W.after W.start turns)

/-- **The screen stays wrong**: after the early event it offers the seat just held, after the sweep it shows the
    freed seat as taken. -/
theorem stale_while_quiet :
    holdThenSearch.EndsStale earlyEvent ∧ holdThenSearch.EndsStale silentSweep ∧
    ¬ ∀ (W : Watch) (turns : List Turn), W.Quiet (W.after W.start turns) →
      (W.after W.start turns).shared.client.subscribed = true → W.Shows (W.after W.start turns) := by
  have hearly : holdThenSearch.EndsStale earlyEvent :=
    ⟨⟨by decide +kernel, by decide +kernel, by decide +kernel⟩, by decide +kernel, by decide +kernel⟩
  have hsweep : holdThenSearch.EndsStale silentSweep :=
    ⟨⟨by decide +kernel, by decide +kernel, by decide +kernel⟩, by decide +kernel, by decide +kernel⟩
  exact ⟨hearly, hsweep, fun hall => hearly.wrong (hall _ _ hearly.quiet hearly.subscribed)⟩

end Watch

end SlrBooking
