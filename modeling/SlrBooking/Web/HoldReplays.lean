import SlrBooking.Web.Checkout
import SlrBooking.Runs.Outcomes

/-!
# `Web.HoldReplays` — the wizard's key against the replay cache

Travellers run their checkouts against one server; other clients' requests come in between, and each traveller's flow
changes as it likes. An exchange is one step: the middleware, and the app behind it if nothing is replayed.

## Contents
- `Session`, `Shared` (the edge and every exchange in order), `Session.exchange`, its machine and `start`.
- `HoldServed`: what an `api.hold` should be answered with. `NothingStale`: when the session keeps it.
- `Recorded`: the cache holds, under each key, the first answer the app gave to it.
- `hold_served_iff`, and for a traveller's own holds `traveller_hold_served_iff`. `hold_of_another_train`: the session
  that breaks the law.
-/

namespace SlrBooking

open Theory Rows App

/-- One exchange and what the server made of it. -/
structure Exchange where
  fetch  : Fetch
  answer : Outgoing

/-- The server with everything it has served. -/
structure Shared where
  edge    : App.State
  history : List Exchange := []

/-- How often a traveller presses "Reserve & pay", and what the flow is when so many exchanges have been served. -/
structure Traveller where
  presses : Nat
  flow    : Nat → Flow

/-- Travellers, the other clients' requests, and what the ports say during each exchange. -/
structure Session where
  settings   : Settings
  trips      : List Trip
  env        : Nat → Env
  travellers : List Traveller
  others     : List Fetch

namespace Session

variable (S : Session)

/-- The app at this moment of the session. -/
def handler (s : Shared) : Handler Target Body Fault World := handle S.settings (S.env s.history.length)

/-- Serve one request. -/
def exchange (s : Shared) (f : Fetch) : Outgoing × Shared :=
  let served := s.edge.serve (S.handler s) f.request
  (served.1, { edge := served.2, history := s.history ++ [⟨f, served.1⟩] })

/-- The flow of client `t` at this moment. -/
def flowOf (t : Nat) (s : Shared) : Flow :=
  (S.travellers[t]?).elim initialFlowState fun traveller => traveller.flow s.history.length

def exec (t : Nat) : (o : WebOp) → Shared → Except ApiError (Web.Res o) × Shared
  | .fetch f, s => (.ok (received (S.exchange s f).1), (S.exchange s f).2)
  | .flow, s => (.ok (S.flowOf t s), s)

def machine : Machine Web ApiError Shared where
  exec t o s := some (S.exec t o s)
  finish _ s := s

abbrev State : Type := Config Web ApiError Shared Unit

/-- A client that sends one request. -/
def once (f : Fetch) : Prog Web ApiError Unit := (Api.fetch f).bind fun _ => .ret ()

def start : State :=
  ⟨{ edge := App.start S.trips },
    (S.travellers.map (fun traveller => checkouts traveller.presses) ++ S.others.map once).map fun p => { prog := p }⟩

end Session

/-! ## What an exchange must do -/

/-- A booking for the trip, seat, leg and passenger asked for. -/
structure BookingOut.Matches (b : BookingOut) (q : HoldParams) : Prop where
  tripId        : b.tripId = q.tripId
  seatId        : b.seatId = q.seatId
  originSeq     : b.originSeq = q.originSeq
  destSeq       : b.destSeq = q.destSeq
  passengerId   : b.passengerId = q.passengerId
  passengerName : b.passengerName = q.passengerName

namespace Shared

/-- The booking is HELD in the store. -/
def Holds (s : Shared) (b : BookingOut) : Prop :=
  ∃ h ∈ s.edge.app.holds, h.bookingId = b.bookingId ∧ h.status = .held

/-- A hold was refused: the client was answered with an error. -/
def Refused (s : Shared) (q : HoldParams) : Prop :=
  ∃ key answer error, ⟨.hold q key, answer⟩ ∈ s.history ∧ readHold (received answer) = .error error

/-- The answer an exchange puts under a cache key, unless one is there. -/
def contribution (key : String) (e : Exchange) : Option (Cached Body) :=
  if e.fetch.request.cacheKey? = some key then e.answer.toOption.map Response.cached else none

/-- The first answer given under a cache key. -/
def firstAnswer (s : Shared) (key : String) : Option (Cached Body) := s.history.findSome? (contribution key)

end Shared

/-- One `api.hold`, from `s` to `s'`: a booking it returns is the one asked for and HELD, and a hold refused before is
    evaluated again. -/
structure HoldServed (s s' : Shared) (q : HoldParams) : Prop where
  right     : ∀ e, s'.history = s.history ++ [e] → ∀ b, readHold (received e.answer) = .ok b → b.Matches q ∧ s'.Holds b
  evaluated : s.Refused q → s'.edge.executed.length = s.edge.executed.length + 1

/-- The first answer under the hold's cache key, if there is one, is no answer to a refused hold, and if it brings a
    booking it is the booking asked for and still HELD. -/
def NothingStale (s : Shared) (q : HoldParams) (key : String) : Prop :=
  ∀ k first, (Fetch.hold q key).request.cacheKey? = some k → s.firstAnswer k = some first →
    ¬ s.Refused q ∧ ∀ b, readHold first.response = .ok b → b.Matches q ∧ s.Holds b

/-! ## The cache is the first answer -/

/-- What the cache holds under a key is the first answer given under it. -/
def Recorded (s : Shared) : Prop := ∀ key, (lookup Prod.fst key s.edge.cache).map (·.2) = s.firstAnswer key

theorem Recorded.replay (h : Recorded s) (f : Fetch) :
    s.edge.replay? f.request = f.request.cacheKey?.bind s.firstAnswer := by
  unfold EdgeState.replay?
  cases f.request.cacheKey? with
  | none => rfl
  | some key => exact h key

theorem firstAnswer_snoc {s : Shared} {e : Exchange} {edge : App.State} (key : String) :
    (Shared.mk edge (s.history ++ [e])).firstAnswer key = (s.firstAnswer key).or (Shared.contribution key e) := by
  unfold Shared.firstAnswer
  rw [List.findSome?_append, List.findSome?_singleton]

theorem exchange_replay (S : Session) {s : Shared} {f : Fetch} {cached : Cached Body}
    (h : s.edge.replay? f.request = some cached) :
    S.exchange s f = (.ok cached.response, ⟨s.edge, s.history ++ [⟨f, .ok cached.response⟩]⟩) := by
  unfold Session.exchange
  rw [serve_replay h]

/-- **Step lemma.** -/
theorem recorded_exchange (S : Session) {s : Shared} (h : Recorded s) (f : Fetch) : Recorded (S.exchange s f).2 := by
  intro key
  have hreplay := h.replay f
  cases hfound : s.edge.replay? f.request with
  | some cached =>
    -- nothing is stored, and the replayed answer is not the first
    rw [exchange_replay S hfound]
    show _ = (Shared.mk _ (s.history ++ [_])).firstAnswer key
    rw [firstAnswer_snoc, h key, Shared.contribution]
    rw [hfound] at hreplay
    split
    · rename_i hkey
      rw [hkey, Option.bind_some] at hreplay
      rw [← hreplay]
      rfl
    · rw [Option.or_none]
  | none =>
    rw [hfound] at hreplay
    show _ = (Shared.mk _ (s.history ++ [⟨f, (s.edge.serve (S.handler s) f.request).1⟩])).firstAnswer key
    show (lookup Prod.fst key (s.edge.serve (S.handler s) f.request).2.cache).map (·.2) = _
    rw [firstAnswer_snoc, Shared.contribution]
    obtain ⟨hanswer, ⟨hstate, hnot⟩ | ⟨k, response, hk, hrun, hstate⟩⟩ := @serve_reached _ _ _ _
      (S.handler s) _ _ hfound
    · -- nothing is stored, because there is no key or no answer
      have hnone : (if f.request.cacheKey? = some key then
          ((s.edge.serve (S.handler s) f.request).1).toOption.map Response.cached else none) = none := by
        rcases hnot with hnokey | ⟨e, he⟩
        · rw [hnokey, if_neg (by simp)]
        · rw [hanswer, he]
          split <;> rfl
      rw [hstate, hnone, Option.or_none]
      exact h key
    · rw [hk, Option.bind_some] at hreplay
      rw [hstate, hanswer, hrun, hk]
      by_cases hkey : k = key
      · subst hkey
        rw [if_pos rfl, ← hreplay]
        show (lookup Prod.fst k (Rows.put Prod.fst (k, response.cached) s.edge.cache)).map (·.2) = _
        rw [show lookup Prod.fst k (Rows.put Prod.fst (k, response.cached) s.edge.cache) =
          some (k, response.cached) from lookup_put_self (k, response.cached) s.edge.cache]
        rfl
      · rw [if_neg (by simpa using hkey), Option.or_none, ← h key]
        show (lookup Prod.fst key (Rows.put Prod.fst (k, response.cached) s.edge.cache)).map (·.2) = _
        rw [lookup_put_ne hkey]

theorem recorded_start (S : Session) : Recorded S.start.shared := fun _ => rfl

/-! ## A hold that reaches the app -/

/-- An error answer brings no booking. -/
theorem readHold_errorResponse {e : Err} {b : BookingOut} : readHold (received (errorResponse e)) ≠ .ok b := by
  intro h
  have hshape := readAs_ok h
  cases e <;> cases hshape

theorem handle_hold (settings : Settings) (env : Env) (q : HoldParams) (key : String) (w : World) :
    handle settings env (Fetch.hold q key).request w =
      if q.body.valid then env.hold settings q.body w else (.ok invalidFields, w) := by
  show checked (if q.body.valid = true then some q.body else none) (env.hold settings) w = _
  cases q.body.valid <;> rfl

/-- **A booking the hold route returns is the one asked for, and HELD.** -/
theorem hold_right {settings : Settings} {env : Env} {q : HoldParams} {key : String} {w : World} {b : BookingOut}
    (h : readHold (received (handle settings env (Fetch.hold q key).request w).1) = .ok b) :
    b.Matches q ∧ ∃ hold ∈ (handle settings env (Fetch.hold q key).request w).2.holds,
      hold.bookingId = b.bookingId ∧ hold.status = .held := by
  rw [handle_hold] at h ⊢
  cases hvalid : q.body.valid with
  | false =>
    rw [hvalid] at h
    cases readAs_ok h
  | true =>
    rw [hvalid, if_pos rfl] at h
    rw [if_pos rfl]
    unfold Env.hold onLeg at h ⊢
    cases hleg : Leg.make q.body.originSeq q.body.destSeq with
    | error e =>
      rw [hleg] at h
      exact absurd h readHold_errorResponse
    | ok leg =>
      rw [hleg] at h
      obtain ⟨horigin, hdest⟩ := Leg.make_ok hleg
      dsimp only at h ⊢
      unfold Env.run at h ⊢
      generalize hrun : w.serve ⟨.hold q.body.tripId q.body.seatId leg q.body.passengerId q.body.passengerName
        q.body.reference, env.deps, env.gateway⟩ = served at h ⊢
      obtain ⟨answer, w'⟩ := served
      rcases holdSeat_outcome hrun with ⟨old, hold, -⟩ | ⟨-, ⟨e, rfl⟩, -⟩ |
        ⟨-, trip, seat, fare, ttl, holds, -, -, -, hadd, rfl, hwrote⟩
      · cases hold
      · exact absurd h readHold_errorResponse
      · have hshape := readAs_ok h
        have hb : BookingOut.of _ settings.currency = b := Option.some.inj hshape
        subst hb
        refine ⟨⟨rfl, rfl, horigin, hdest, rfl, rfl⟩, _, ?_, rfl, rfl⟩
        rw [hwrote.holds, (MemoryRepo.addHold_ok hadd).1]
        exact lookup_some_mem (lookup_put_self _ _)

/-! ## What a hold is answered with -/

/-- **One hold, at any moment of a session.** -/
theorem holdServed_iff (S : Session) {s : Shared} (hrec : Recorded s) (q : HoldParams) (key : String) :
    HoldServed s (S.exchange s (.hold q key)).2 q ↔ NothingStale s q key := by
  have hreplay := hrec.replay (.hold q key)
  cases hfound : s.edge.replay? (Fetch.hold q key).request with
  | some cached =>
    -- a replay: the handler has not run, and the answer is the first one given under the key
    rw [exchange_replay S hfound]
    rw [hfound] at hreplay
    obtain ⟨k, hk, hfirst⟩ := Option.bind_eq_some_iff.mp hreplay.symm
    constructor
    · intro h k' first hk' hfirst'
      obtain rfl := Option.some.inj (hk.symm.trans hk')
      obtain rfl := Option.some.inj (hfirst.symm.trans hfirst')
      refine ⟨fun hrefused => ?_, fun b hb => h.right _ rfl b hb⟩
      have hgrown := h.evaluated hrefused
      simp at hgrown
    · intro h
      obtain ⟨hfresh, hb⟩ := h k cached hk hfirst
      refine ⟨fun e he b hread => ?_, fun hrefused => absurd hrefused hfresh⟩
      obtain rfl := List.singleton_inj.mp (List.append_cancel_left he)
      exact hb b hread
  | none =>
    -- nothing under the key yet: the hold is served, and served right
    rw [hfound] at hreplay
    have hnothing : NothingStale s q key := by
      intro k first hk hfirst
      rw [hk, Option.bind_some, hfirst] at hreplay
      cases hreplay
    refine iff_of_true ?_ hnothing
    obtain ⟨hanswer, hstate⟩ := @serve_reached _ _ _ _ (S.handler s) _ _ hfound
    have hreached : (S.exchange s (.hold q key)).2.edge.executed.length = s.edge.executed.length + 1 ∧
        (S.exchange s (.hold q key)).2.edge.app = (S.handler s (Fetch.hold q key).request s.edge.app).2 := by
      show (s.edge.serve (S.handler s) _).2.executed.length = _ ∧ (s.edge.serve (S.handler s) _).2.app = _
      rcases hstate with ⟨hstate, -⟩ | ⟨k, response, -, -, hstate⟩ <;> rw [hstate] <;>
        exact ⟨by simp [EdgeState.reached], rfl⟩
    refine ⟨fun e he b hread => ?_, fun _ => hreached.1⟩
    obtain rfl := List.singleton_inj.mp (List.append_cancel_left he)
    dsimp only at hread
    rw [hanswer] at hread
    obtain ⟨hmatches, hheld⟩ := hold_right hread
    refine ⟨hmatches, ?_⟩
    unfold Shared.Holds
    rw [hreached.2]
    exact hheld

/-- The hold that comes next at some point of a session. -/
theorem hold_served_next (S : Session) (sched : List Nat) {c : Session.State} (hc : c ∈ S.machine.visited S.start sched)
    {t : Nat} {q : HoldParams} {key : String} (hnext : c.next t = some (.fetch (.hold q key))) :
    HoldServed c.shared (S.machine.step c t).shared q ↔ NothingStale c.shared q key := by
  have hstep : ∀ (c : Session.State) t, Recorded c.shared → True → Recorded (S.machine.step c t).shared := by
    intro c t hrec _
    have hmove := S.machine.step_move c t
    generalize S.machine.step c t = c' at hmove ⊢
    cases hmove with
    | stay => exact hrec
    | finish hth hlive hres => exact hrec
    | @act th o k r s' hth hlive hprog hexec =>
      obtain ⟨-, rfl⟩ := Prod.mk.inj (Option.some.inj hexec)
      cases o with
      | fetch f => exact recorded_exchange S hrec f
      | flow => exact hrec
  have hrec : Recorded c.shared :=
    S.machine.visited_invariant hstep (recorded_start S) (S.machine.obeys_true S.start sched) c hc
  obtain ⟨th, k, -, -, -, hmoved⟩ := S.machine.step_of_next hnext rfl
  rw [hmoved]
  exact holdServed_iff S hrec q key

/-- **The wizard's holds.** At every point of every session, an `api.hold` returns only the booking it asked for, HELD,
    and evaluates a refused hold again, exactly when nothing stale lies under its key. -/
theorem hold_served_iff (S : Session) (sched : List Nat) {c : Session.State} (hc : c ∈ S.machine.visited S.start sched)
    {t : Nat} {q : HoldParams} {key : String} (hnext : c.next t = some (.fetch (.hold q key))) :
    HoldServed c.shared (S.machine.step c t).shared q ↔ NothingStale c.shared q key :=
  hold_served_next S sched hc hnext

/-- A traveller's holds go out under the wizard's key. -/
theorem traveller_holdKey (S : Session) (sched : List Nat) {c : Session.State}
    (hc : c ∈ S.machine.visited S.start sched) {t : Nat} (ht : t < S.travellers.length) {q : HoldParams} {key : String}
    (hnext : c.next t = some (.fetch (.hold q key))) : key = holdKey q := by
  have hstart : Machine.Restricted (fun t (o : WebOp) => t < S.travellers.length → o.OfCheckout) S.start := by
    intro u th hth
    have hlen : (S.travellers.map fun traveller => checkouts traveller.presses).length = S.travellers.length :=
      List.length_map ..
    rw [Session.start, List.getElem?_map] at hth
    obtain ⟨p, hp, rfl⟩ := Option.map_eq_some_iff.mp hth
    by_cases hu : u < S.travellers.length
    · rw [List.getElem?_append_left (by omega), List.getElem?_map] at hp
      obtain ⟨traveller, -, rfl⟩ := Option.map_eq_some_iff.mp hp
      exact (only_checkouts traveller.presses).mono fun o ho _ => ho
    · exact (Prog.only_true p).mono fun o _ h => absurd h hu
  have hstep : ∀ (c : Session.State) u,
      Machine.Restricted (fun t (o : WebOp) => t < S.travellers.length → o.OfCheckout) c →
      True → Machine.Restricted (fun t (o : WebOp) => t < S.travellers.length → o.OfCheckout) (S.machine.step c u) :=
    fun c u h _ => h.step S.machine u
  have hrestricted := S.machine.visited_invariant hstep hstart (S.machine.obeys_true S.start sched) c hc
  exact hrestricted.next hnext ht

/-- **A traveller's own holds**: the key under which nothing stale may lie is the wizard's. -/
theorem traveller_hold_served_iff (S : Session) (sched : List Nat) {c : Session.State}
    (hc : c ∈ S.machine.visited S.start sched) {t : Nat} (ht : t < S.travellers.length) {q : HoldParams} {key : String}
    (hnext : c.next t = some (.fetch (.hold q key))) :
    HoldServed c.shared (S.machine.step c t).shared q ↔ NothingStale c.shared q (holdKey q) := by
  obtain rfl := traveller_holdKey S sched hc ht hnext
  exact hold_served_next S sched hc hnext

/-! ### Two trains, one seat number -/

/-- Seat A1 of a trip is in the cart, with its passenger typed in. -/
def oneSeat (tripId : String) : Flow :=
  { step := .passenger
    train := some ⟨tripId, 0, 2⟩
    seatIds := ["A1"]
    passengers := [("A1", ⟨"Nimal", "nic1", none⟩)] }

/-- What the wizard asks for seat A1 of a trip. -/
def seatA1 (tripId : String) : HoldParams := ⟨tripId, "A1", 0, 2, "nic1", "Nimal"⟩

/-- One traveller books seat A1 on the slow train; after another search, seat A1 on the express. -/
def twoTrains : Session where
  settings := counterSettings
  trips := sampleTrips
  env n := ⟨sampleDeps (Int.ofNat n) (toString n), acceptAll⟩
  travellers := [⟨2, fun n => if n < 3 then oneSeat "slow" else oneSeat "express"⟩]
  others := [.other (.search (some ⟨"FOT", "KDT", "2024-05-01"⟩)) []]

/-- Two travellers on one NIC, with the same seat in their carts. -/
def sameCart : Session where
  settings := counterSettings
  trips := sampleTrips
  env n := ⟨sampleDeps (Int.ofNat n) (toString n), acceptAll⟩
  travellers := [⟨1, fun _ => oneSeat "slow"⟩, ⟨1, fun _ => oneSeat "slow"⟩]
  others := []

def WebOp.hold? : WebOp → Option (HoldParams × String)
  | .fetch f => f.hold?
  | .flow => none

theorem next_of_hold? {c : Session.State} {t : Nat} {q : HoldParams} {key : String}
    (h : (c.next t).bind WebOp.hold? = some (q, key)) : c.next t = some (.fetch (.hold q key)) := by
  obtain ⟨o, hnext, ho⟩ := Option.bind_eq_some_iff.mp h
  cases o with
  | flow => cases ho
  | fetch f =>
    cases f with
    | hold args k =>
      obtain ⟨rfl, rfl⟩ := Prod.mk.inj (Option.some.inj ho)
      exact hnext
    | _ => cases ho

instance (b : BookingOut) (q : HoldParams) : Decidable (b.Matches q) :=
  decidable_of_iff (b.tripId = q.tripId ∧ b.seatId = q.seatId ∧ b.originSeq = q.originSeq ∧ b.destSeq = q.destSeq ∧
    b.passengerId = q.passengerId ∧ b.passengerName = q.passengerName)
    ⟨fun ⟨trip, seat, origin, dest, passenger, name⟩ => ⟨trip, seat, origin, dest, passenger, name⟩,
      fun h => ⟨h.tripId, h.seatId, h.originSeq, h.destSeq, h.passengerId, h.passengerName⟩⟩

instance (s : Shared) (b : BookingOut) : Decidable (s.Holds b) := inferInstanceAs (Decidable (∃ h ∈ _, _))

/-- The second hold is answered from the cache, with the booking it asks for. -/
theorem hold_served_iff_replayed :
    let c := sameCart.machine.runs sameCart.start [0, 0, 0, 1, 1]
    (c.shared.edge.replay? (Fetch.hold (seatA1 "slow") (holdKey (seatA1 "slow"))).request).isSome = true ∧
    HoldServed c.shared (sameCart.machine.step c 1).shared (seatA1 "slow") := by
  intro c
  have hnext : c.next 1 = some (.fetch (.hold (seatA1 "slow") (holdKey (seatA1 "slow")))) :=
    next_of_hold? (by decide +kernel)
  refine ⟨by decide +kernel,
    (hold_served_iff sameCart [0, 0, 0, 1, 1] (sameCart.machine.runs_mem_visited _ _) hnext).mpr ?_⟩
  intro k first hk hfirst
  constructor
  · rintro ⟨key, answer, error, hmem, hread⟩
    have hserved : ∀ e ∈ c.shared.history, (readHold (received e.answer)).isOk = true := by decide +kernel
    have hok := hserved _ hmem
    rw [hread] at hok
    cases hok
  · intro b hb
    have hright : ∀ cached ∈ (Fetch.hold (seatA1 "slow") (holdKey (seatA1 "slow"))).request.cacheKey?.bind
        c.shared.firstAnswer, ∀ b ∈ (readHold cached.response).toOption, b.Matches (seatA1 "slow") ∧ c.shared.Holds b := by
      decide +kernel
    refine hright first ?_ b ?_
    · rw [hk]
      exact hfirst
    · rw [hb]
      rfl

/-- The law fails: the seat on the express is answered with the booking on the slow train. -/
theorem hold_of_another_train :
    ¬ ∀ (S : Session) (sched : List Nat), ∀ c ∈ S.machine.visited S.start sched, ∀ t q,
      c.next t = some (.fetch (.hold q (holdKey q))) → HoldServed c.shared (S.machine.step c t).shared q := by
  intro h
  generalize hc : twoTrains.machine.runs twoTrains.start [0, 0, 0, 0, 0, 1, 0, 0] = c
  have hnext : c.next 0 = some (.fetch (.hold (seatA1 "express") (holdKey (seatA1 "express")))) :=
    next_of_hold? (by rw [← hc]; decide +kernel)
  have hserved := h twoTrains [0, 0, 0, 0, 0, 1, 0, 0] c (hc ▸ twoTrains.machine.runs_mem_visited _ _) 0 _ hnext
  have htrip : ((twoTrains.machine.step c 0).shared.history.getLast?.bind
      fun e => (readHold (received e.answer)).toOption).map BookingOut.tripId = some "slow" := by
    rw [← hc]
    decide +kernel
  obtain ⟨b, hb, hslow⟩ := Option.map_eq_some_iff.mp htrip
  obtain ⟨e, he, hread⟩ := Option.bind_eq_some_iff.mp hb
  have hlast : (twoTrains.machine.step c 0).shared.history = c.shared.history ++ [e] := by
    obtain ⟨th, k, -, -, -, hmoved⟩ := twoTrains.machine.step_of_next hnext rfl
    rw [hmoved] at he ⊢
    have hsame : some _ = some e := List.getLast?_concat.symm.trans he
    rw [← Option.some.inj hsame]
    rfl
  have hread' : readHold (received e.answer) = .ok b := by
    cases hr : readHold (received e.answer) with
    | ok b' =>
      rw [hr] at hread
      rw [Option.some.inj hread]
    | error err =>
      rw [hr] at hread
      cases hread
  have hexpress := (hserved.right e hlast b hread').1.tripId
  rw [hslow] at hexpress
  exact absurd hexpress (by decide)

end SlrBooking
