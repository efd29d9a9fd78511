import SlrBooking.Web.Wizard
import SlrBooking.Runs.HonouredOffers
import SlrBooking.Domain.Fares

/-!
# `Web.ShownTotal` — the total on the screen against the fares charged

The total is the sum of the quotes the wizard remembers. A quote is the price of its seat when it was asked for; the
charge is fixed seat by seat when the holds are made, each after the ones before it have taken their seats. The two
agree when nothing the price depends on has changed in between.

## Contents
- `seatPrice`, `takenSeats`, `dues`: what the seats of a cart cost when they are held one after another.
- `Visit.QuotedAsHeld`: every seat's quote was read when as many seats were taken as its hold finds, and no other quote
  is kept. `Line.OneTariff`: one fare strategy and one configuration.
- `OneHold`, `HoldsRun`: a hold of the loop is replayed or made. `HoldsRun.fares`: the fares are the dues.
- `dues_eq_quotes`: the dues are the quotes. `total_charged`. `pair_pays_more_than_shown`: two seats quoted on an empty
  train.
-/

namespace SlrBooking

open Theory Rows App

/-! ## What a cart comes to -/

/-- The fare on record for a booking. -/
def fareOf (id : String) (holds : List Hold) : Option Int := (lookup MemoryRepo.idOf id holds).map (·.fareCents)

/-- The price of a seat of the train while `busy` of its seats are taken over the leg. -/
def seatPrice (deps : Deps) (trips : List Trip) (train : Train) (seatId : String) (busy : Nat) : Except Err Money := do
  let trip ← MemoryRepo.getTrip trips train.tripId
  let leg ← Leg.make train.originSeq train.destSeq
  let seat ← reservedSeat trip seatId
  let distanceKm ← legDistanceKm trip leg
  let mult ← classMult deps seat.travelClass
  deps.price distanceKm mult (if trip.seats.isEmpty then 0 else (busy : ℚ) / trip.seats.length)

/-- The seats taken over part of the train's leg. -/
def takenSeats (w : World) (train : Train) : List String :=
  match MemoryRepo.getTrip w.trips train.tripId, Leg.make train.originSeq train.destSeq with
  | .ok trip, .ok leg => (busySeats w.holds trip leg).dedup
  | _, _ => []

/-- What the seats cost when they are held one after another, from exchange `n` on, with `busy` taken so far. Each hold
    finds the seats before it taken too. -/
def dues (L : Line) (trips : List Trip) (train : Train) : (seatIds : List String) → (n : Nat) → (busy : List String) →
    List Int
  | [], _, _ => []
  | seatId :: rest, n, busy =>
    ((seatPrice (L.env n).deps trips train seatId busy.length).toOption.map (·.cents)).getD 0 ::
      dues L trips train rest (n + 1) (busy.insert seatId)

/-- The class of a reserved seat of the train. -/
def seatClass (trips : List Trip) (train : Train) (seatId : String) : Option TravelClass :=
  ((MemoryRepo.getTrip trips train.tripId >>= fun trip => reservedSeat trip seatId).toOption).map (·.travelClass)

namespace Visit

variable (v : Visit)

/-- The seat's quote names the train, leg and class of the seat, and was read from a store in which so many of the
    train's seats were taken over the leg. -/
def QuotedAt (train : Train) (seatId : String) (taken : Nat) : Prop :=
  ∃ e ∈ v.wizard.seatQuotes, e.1 = seatId ∧ e.2.tripId = train.tripId ∧ e.2.originSeq = train.originSeq ∧
    e.2.destSeq = train.destSeq ∧ seatClass v.edge.app.trips train seatId = some e.2.travelClass ∧
    ∃ record ∈ lookup Prod.fst seatId v.quotedOn, (takenSeats record.2 train).length = taken

instance (train : Train) (seatId : String) (taken : Nat) : Decidable (v.QuotedAt train seatId taken) :=
  inferInstanceAs (Decidable (∃ e ∈ v.wizard.seatQuotes, _))

/-- Each of the seats was quoted when as many seats were taken as its hold will find: `busy`, and the seats before it. -/
def AllQuotedAt (train : Train) : (seatIds : List String) → (busy : List String) → Prop
  | [], _ => True
  | seatId :: rest, busy => v.QuotedAt train seatId busy.length ∧ AllQuotedAt train rest (busy.insert seatId)

instance AllQuotedAt.decidable (train : Train) : (seatIds busy : List String) →
    Decidable (v.AllQuotedAt train seatIds busy)
  | [], _ => inferInstanceAs (Decidable True)
  | seatId :: rest, busy =>
    have := AllQuotedAt.decidable train rest (busy.insert seatId)
    inferInstanceAs (Decidable (v.QuotedAt train seatId busy.length ∧ v.AllQuotedAt train rest (busy.insert seatId)))

/-- **The quotes are those of the holds to come.** Every seat of the cart was quoted, for its train, leg and class, when
    as many seats were taken as its hold will find; no quote is kept for another seat; and no hold will be replayed. -/
structure QuotedAsHeld : Prop where
  seats : ∀ train ∈ v.wizard.flow.train,
    v.AllQuotedAt train v.wizard.flow.seatIds (takenSeats v.edge.app train)
  only  : ∀ e ∈ v.wizard.seatQuotes, e.1 ∈ v.wizard.flow.seatIds
  anew  : ∀ seatId ∈ v.wizard.flow.seatIds, ∀ q ∈ (v.wizard.flow.holdArgs seatId).toOption,
    v.edge.replay? (Fetch.hold q (holdKey q)).request = none

instance : Decidable v.QuotedAsHeld :=
  have : Decidable (∀ seatId ∈ v.wizard.flow.seatIds, ∀ q ∈ (v.wizard.flow.holdArgs seatId).toOption,
      v.edge.replay? (Fetch.hold q (holdKey q)).request = none) :=
    List.decidableBAll _ _
  decidable_of_iff ((∀ train ∈ v.wizard.flow.train,
      v.AllQuotedAt train v.wizard.flow.seatIds (takenSeats v.edge.app train)) ∧
    (∀ e ∈ v.wizard.seatQuotes, e.1 ∈ v.wizard.flow.seatIds) ∧
    ∀ seatId ∈ v.wizard.flow.seatIds, ∀ q ∈ (v.wizard.flow.holdArgs seatId).toOption,
      v.edge.replay? (Fetch.hold q (holdKey q)).request = none)
    ⟨fun h => ⟨h.1, h.2.1, h.2.2⟩, fun h => ⟨h.seats, h.only, h.anew⟩⟩

end Visit

/-- One fare strategy and one configuration in all exchanges. The server is wired once, at its start. -/
def Line.OneTariff (L : Line) : Prop :=
  ∀ m n, (L.env m).deps.price = (L.env n).deps.price ∧ (L.env m).deps.getFloat = (L.env n).deps.getFloat

/-- The fares charged since the store `w`. -/
def Till.charged (t : Till) (w : World) : Int := ((t.edge.app.accepted.drop w.accepted.length).map (·.2.cents)).sum

/-- No hold runs out while the exchanges from number `n` on are served. -/
def Unexpired (L : Line) (n : Nat) (calls : List CheckoutCall) : Prop :=
  ∀ e ∈ calls.zipIdx n, ∀ b ∈ e.1.before.holds, b.status = .held → (L.env e.2).deps.now < b.heldUntil

instance (L : Line) (n : Nat) (calls : List CheckoutCall) : Decidable (Unexpired L n calls) :=
  inferInstanceAs (Decidable (∀ e ∈ calls.zipIdx n, ∀ b ∈ e.1.before.holds, _ → _))

/-! ## The hold loop -/

/-- A hold of the loop succeeds in one of two ways: it is replayed from the cache, or it makes a booking and its answer
    is stored under its key. -/
inductive OneHold (L : Line) (n : Nat) (flow : Flow) (t : Till) (q : HoldParams) (b : BookingOut) : Prop where
  | replayed {cached : Cached Body} (found : t.edge.replay? (Fetch.hold q (holdKey q)).request = some cached)
      (read : readHold cached.response = .ok b)
      (same : (L.ring n flow (.fetch (.hold q (holdKey q))) t).2.edge = t.edge)
  | made {h : Hold} (missed : t.edge.replay? (Fetch.hold q (holdKey q)).request = none)
      (makes : Makes (L.env (n + t.calls.length)) q t.edge.app
        (L.ring n flow (.fetch (.hold q (holdKey q))) t).2.edge.app h)
      (out : b.bookingId = h.bookingId)
      (others : ∀ k, (Fetch.hold q (holdKey q)).request.cacheKey? ≠ some k →
        lookup Prod.fst k (L.ring n flow (.fetch (.hold q (holdKey q))) t).2.edge.cache =
          lookup Prod.fst k t.edge.cache)
      (stored : ∀ k, (Fetch.hold q (holdKey q)).request.cacheKey? = some k → ∃ cached,
        (lookup Prod.fst k (L.ring n flow (.fetch (.hold q (holdKey q))) t).2.edge.cache).map (·.2) = some cached ∧
          readHold cached.response = .ok b)

/-- The loop holds the seats one after another and is answered with these bookings. -/
inductive HoldsRun (L : Line) (n : Nat) (flow : Flow) : Till → List String → List BookingOut → Till → Prop where
  | nil {t : Till} : HoldsRun L n flow t [] [] t
  | cons {t t' : Till} {seatId : String} {q : HoldParams} {rest : List String} {b : BookingOut} {bs : List BookingOut}
      (asked : flow.holdArgs seatId = .ok q) (one : OneHold L n flow t q b)
      (more : HoldsRun L n flow (L.ring n flow (.fetch (.hold q (holdKey q))) t).2 rest bs t') :
      HoldsRun L n flow t (seatId :: rest) (b :: bs) t'

section Loop

variable {L : Line} {n : Nat} {flow : Flow}

theorem oneHold_of_ok {t : Till} {q : HoldParams} {b : BookingOut}
    (h : ((L.ring n flow (.fetch (.hold q (holdKey q))) t).1 >>= readHold) = .ok b) : OneHold L n flow t q b := by
  rcases exchange_ok h with ⟨cached, hfound, hread, hsame⟩ | ⟨hmissed, hread, happ, hothers, hstored⟩
  · exact .replayed hfound hread hsame
  · rcases serve_hold q (holdKey q) with ⟨hold, hmakes, hout⟩ | ⟨-, hno⟩
    · obtain rfl := Except.ok.inj (hread.symm.trans hout)
      refine .made hmissed ?_ rfl hothers hstored
      show Makes _ _ _ (L.exchange (n + t.calls.length) (.hold q (holdKey q)) t.edge).2.app hold
      rw [happ]
      exact hmakes
    · exact absurd hread (hno b)

theorem holdsRun_of_ok : ∀ (seatIds : List String) (held : List Held) {t t' : Till} {held' : List Held},
    (holdAll seatIds held).run (L.ring n flow) t = (.ok (held', none), t') →
    ∃ bs, held'.map (·.booking) = held.map (·.booking) ++ bs ∧ HoldsRun L n flow t seatIds bs t'
  | [], held, t, t', held', h => by
      obtain ⟨hheld, rfl⟩ := Prod.mk.inj h
      obtain ⟨rfl, -⟩ := Prod.mk.inj (Except.ok.inj hheld)
      exact ⟨[], (List.append_nil _).symm, .nil⟩
  | seatId :: rest, held, t, t', held', h => by
      change (Prog.bind (S := Web) _ _).run (L.ring n flow) t = _ at h
      cases hargs : flow.holdArgs seatId with
      | error e =>
          rw [Prog.run_bind, Prog.run_attempt, run_holdSeatOf_unsent rfl hargs] at h
          cases h
      | ok q =>
          have hseat : (holdSeatOf seatId).run (L.ring n flow) t =
            ((L.ring n flow (.fetch (.hold q (holdKey q))) t).1 >>= readHold,
              (L.ring n flow (.fetch (.hold q (holdKey q))) t).2) := run_holdSeatOf rfl hargs
          rw [Prog.run_bind, Prog.run_attempt, hseat] at h
          cases hread : ((L.ring n flow (.fetch (.hold q (holdKey q))) t).1 >>= readHold) with
          | error e =>
              rw [hread] at h
              cases h
          | ok b =>
              rw [hread] at h
              obtain ⟨bs, hbs, hmore⟩ := holdsRun_of_ok rest (held ++ [⟨seatId, b⟩]) h
              refine ⟨b :: bs, ?_, .cons hargs (oneHold_of_ok hread) hmore⟩
              rw [hbs, List.map_append, List.append_assoc]
              rfl

/-! ### What one hold changes -/

theorem fareOf_swept (w : World) (now : Int) (id : String) : fareOf id (w.swept now) = fareOf id w.holds := by
  have hfare : ∀ h, (MemoryRepo.retire now h).fareCents = h.fareCents := fun h => by
    rcases MemoryRepo.retire_cases now h with he | ⟨-, he⟩ <;> rw [he]
  show (lookup MemoryRepo.idOf id (w.holds.map (MemoryRepo.retire now))).map (·.fareCents) = _
  rw [lookup_map fun h => MemoryRepo.retire_bookingId now h, Option.map_map]
  exact congrArg (fun f => (lookup MemoryRepo.idOf id w.holds).map f) (funext hfare)

theorem Makes.fareOf_self {env : Env} {q : HoldParams} {w w' : World} {h : Hold} (hm : Makes env q w w' h) :
    fareOf h.bookingId w'.holds = some h.fareCents := by
  unfold fareOf
  rw [(MemoryRepo.addHold_ok hm.added).1, MemoryRepo.lookup_put_hold]
  rfl

theorem Makes.fareOf_ne {env : Env} {q : HoldParams} {w w' : World} {h : Hold} (hm : Makes env q w w' h) {id : String}
    (hne : id ≠ h.bookingId) : fareOf id w'.holds = fareOf id w.holds := by
  have hput : fareOf id w'.holds = fareOf id (w.swept env.deps.now) := by
    unfold fareOf
    rw [(MemoryRepo.addHold_ok hm.added).1, lookup_put_ne (fun heq => hne heq.symm)]
  rw [hput, fareOf_swept]

theorem replay_of_key {request : HttpRequest Target} {edge : App.State} {k : String} {cached : Cached Body}
    (hkey : request.cacheKey? = some k) (hk : (lookup Prod.fst k edge.cache).map (·.2) = some cached) :
    edge.replay? request = some cached := by
  unfold EdgeState.replay?
  rw [hkey]
  exact hk

section OneHold

variable {t : Till} {q : HoldParams} {b : BookingOut}

theorem OneHold.accepted (h : OneHold L n flow t q b) :
    (L.ring n flow (.fetch (.hold q (holdKey q))) t).2.edge.app.accepted = t.edge.app.accepted := by
  cases h with
  | replayed _ _ same => rw [same]
  | made _ makes => exact makes.accepted

theorem OneHold.fareOf_ne (h : OneHold L n flow t q b) {id : String} (hne : id ≠ b.bookingId) :
    fareOf id (L.ring n flow (.fetch (.hold q (holdKey q))) t).2.edge.app.holds = fareOf id t.edge.app.holds := by
  cases h with
  | replayed _ _ same => rw [same]
  | made _ makes out => exact makes.fareOf_ne (out ▸ hne)

/-- A stored answer stays. -/
theorem OneHold.cache (h : OneHold L n flow t q b) {k : String} {cached : Cached Body}
    (hk : (lookup Prod.fst k t.edge.cache).map (·.2) = some cached) :
    (lookup Prod.fst k (L.ring n flow (.fetch (.hold q (holdKey q))) t).2.edge.cache).map (·.2) = some cached := by
  cases h with
  | replayed _ _ same =>
    rw [same]
    exact hk
  | made missed _ _ others =>
    have hne : (Fetch.hold q (holdKey q)).request.cacheKey? ≠ some k := by
      intro hkey
      rw [replay_of_key hkey hk] at missed
      cases missed
    rw [others k hne]
    exact hk

end OneHold

namespace HoldsRun

variable {t t' : Till} {seatIds : List String} {bs : List BookingOut}

theorem calls (h : HoldsRun L n flow t seatIds bs t') : t.calls <+: t'.calls := by
  induction h with
  | nil => exact List.prefix_rfl
  | cons _ _ _ ih => exact (List.prefix_append _ _).trans ih

theorem accepted (h : HoldsRun L n flow t seatIds bs t') : t'.edge.app.accepted = t.edge.app.accepted := by
  induction h with
  | nil => rfl
  | cons _ one _ ih => exact ih.trans one.accepted

theorem fareOf_ne (h : HoldsRun L n flow t seatIds bs t') {id : String} (hne : id ∉ bs.map (·.bookingId)) :
    fareOf id t'.edge.app.holds = fareOf id t.edge.app.holds := by
  induction h with
  | nil => rfl
  | cons _ one _ ih =>
    rw [List.map_cons, List.mem_cons, not_or] at hne
    exact (ih hne.2).trans (one.fareOf_ne hne.1)

/-- **A stored booking is the answer to every hold under its key.** -/
theorem answered (h : HoldsRun L n flow t seatIds bs t') {k : String} {cached : Cached Body} {b : BookingOut}
    (hk : (lookup Prod.fst k t.edge.cache).map (·.2) = some cached) (hb : readHold cached.response = .ok b)
    {seatId : String} (hs : seatId ∈ seatIds) {q : HoldParams} (hargs : flow.holdArgs seatId = .ok q)
    (hkey : (Fetch.hold q (holdKey q)).request.cacheKey? = some k) : b ∈ bs := by
  induction h with
  | nil => cases hs
  | @cons t _ seatId' q' _ b' _ asked one _ ih =>
    rcases List.mem_cons.mp hs with rfl | hs
    · obtain rfl := Except.ok.inj (asked.symm.trans hargs)
      have hreplay := replay_of_key hkey hk
      cases one with
      | replayed found read =>
        obtain rfl := Option.some.inj (found.symm.trans hreplay)
        obtain rfl := Except.ok.inj (read.symm.trans hb)
        exact List.mem_cons_self
      | made missed =>
        -- the key is in the cache, so the hold is not served again
        rw [hreplay] at missed
        cases missed
    · exact List.mem_cons_of_mem _ (ih (one.cache hk) hs)

end HoldsRun

/-! ### The fares are the dues -/

/-- The list is the seats taken over the train's leg. -/
structure Taken (w : World) (train : Train) (busy : List String) : Prop where
  nodup : busy.Nodup
  seats : ∀ {trip leg}, MemoryRepo.getTrip w.trips train.tripId = .ok trip →
    Leg.make train.originSeq train.destSeq = .ok leg →
      ∀ s, s ∈ busy ↔ s ∈ busySeats w.holds trip leg

theorem taken_takenSeats (w : World) (train : Train) : Taken w train (takenSeats w train) := by
  constructor
  · unfold takenSeats
    split
    · exact List.nodup_dedup _
    · exact List.nodup_nil
  · intro trip leg htrip hleg s
    unfold takenSeats
    rw [htrip, hleg]
    exact List.mem_dedup

section Made

variable {env : Env} {w w' : World} {train : Train} {seatId : String} {q : HoldParams} {h : Hold} {busy : List String}

/-- The hold asks for the seat of this train and leg. -/
structure HoldParams.On (q : HoldParams) (train : Train) (seatId : String) : Prop where
  tripId : q.tripId = train.tripId
  seatId : q.seatId = seatId
  origin : q.originSeq = train.originSeq
  dest   : q.destSeq = train.destSeq

theorem HoldParams.on_of_args (htrain : flow.train = some train) (hargs : flow.holdArgs seatId = .ok q) :
    q.On train seatId := by
  obtain ⟨train', passenger, htrain', -, rfl⟩ := Flow.holdArgs_ok hargs
  obtain rfl := Option.some.inj (htrain'.symm.trans htrain)
  exact ⟨rfl, rfl, rfl, rfl⟩

/-- **What a made hold costs.** -/
theorem Makes.priced (hm : Makes env q w w' h) (hq : q.On train seatId)
    (hlive : ∀ b ∈ w.holds, b.status = .held → env.deps.now < b.heldUntil) (hbusy : Taken w train busy) :
    seatPrice env.deps w.trips train seatId busy.length = .ok ⟨h.fareCents⟩ := by
  obtain ⟨trip, seat, ttl, hd⟩ := hm.drafted
  rw [hq.tripId, hq.seatId] at hd
  have hleg : Leg.make train.originSeq train.destSeq = .ok h.leg := by
    rw [← hq.origin, ← hq.dest, ← hm.origin, ← hm.dest]
    exact Leg.make_of_lt h.leg.origin_nonneg h.leg.moves_forward
  have hcount : busy.length = (busySeats w.holds trip h.leg).dedup.length := by
    refine List.Perm.length_eq ((List.perm_ext_iff_of_nodup hbusy.nodup (List.nodup_dedup _)).mpr fun s => ?_)
    rw [List.mem_dedup]
    exact hbusy.seats hd.found hleg s
  -- no hold is overdue, so the sweep changes nothing the price depends on
  have hpriced := hd.priced
  rw [swept_eq hlive] at hpriced
  have hfound : MemoryRepo.getTrip w.trips train.tripId = .ok trip := hd.found
  have hseated : reservedSeat trip seatId = .ok seat := hd.seated
  rw [← hpriced]
  unfold seatPrice legPrice occupancyOn
  rw [hfound, hleg, hcount]
  simp only [bind, Except.bind, hseated]
  rfl

/-- A made hold takes its seat. -/
theorem Makes.takes (hm : Makes env q w w' h) (hq : q.On train seatId)
    (hlive : ∀ b ∈ w.holds, b.status = .held → env.deps.now < b.heldUntil)
    (hfresh : env.deps.newId ∉ w.holds.map (·.bookingId)) (hbusy : Taken w train busy) :
    Taken w' train (busy.insert seatId) := by
  refine ⟨hbusy.nodup.insert, ?_⟩
  intro trip leg htrip hleg s
  rw [hm.trips] at htrip
  have hnew : h.bookingId ∉ w.holds.map (·.bookingId) := hm.id ▸ hfresh
  have hholds : w'.holds = w.holds ++ [h] := by
    rw [(MemoryRepo.addHold_ok hm.added).1, swept_eq hlive]
    exact put_of_fresh hnew
  have hsame : h.leg = leg := by
    obtain ⟨horigin, hdest⟩ := Leg.make_ok hleg
    exact Leg.ext ((hm.origin.trans hq.origin).trans horigin.symm) ((hm.dest.trans hq.dest).trans hdest.symm)
  have htripId : h.tripId = trip.tripId := (hm.tripId.trans hq.tripId).trans (getTrip_tripId htrip).symm
  have hseatId : h.seatId = seatId := hm.seatId.trans hq.seatId
  -- a leg overlaps itself
  have hover : h.leg.overlaps leg = true := by
    rw [hsame]
    exact Leg.overlaps_iff.mpr ⟨leg.moves_forward, leg.moves_forward⟩
  have hactive : h.status.isActive = true := by
    rw [hm.held]
    rfl
  rw [List.mem_insert_iff, hbusy.seats htrip hleg s, hholds]
  unfold busySeats MemoryRepo.activeHolds
  rw [List.filter_append, List.filter_append, List.map_append, List.mem_append, List.filter_singleton,
    decide_eq_true htripId, hactive]
  simp only [Bool.and_self, cond_true, List.filter_singleton, hover, List.map_singleton, List.mem_singleton, hseatId]
  exact Or.comm

end Made

/-- The call of a checkout that comes next is served while nothing runs out. -/
theorem Unexpired.next {t : Till} {f : Fetch} {calls : List CheckoutCall} (h : Unexpired L n calls)
    (hp : (L.ring n flow (.fetch f) t).2.calls <+: calls) :
    ∀ b ∈ t.edge.app.holds, b.status = .held → (L.env (n + t.calls.length)).deps.now < b.heldUntil := by
  obtain ⟨more, rfl⟩ := hp
  intro b hb hheld
  refine h (⟨f, t.edge.app, (L.ring n flow (.fetch f) t).2.edge.app, (L.ring n flow (.fetch f) t).1, flow⟩,
    n + t.calls.length) ?_ b hb hheld
  rw [List.mk_mem_zipIdx_iff_le_and_getElem?_sub, Nat.add_sub_cancel_left]
  refine ⟨by omega, ?_⟩
  show ((t.calls ++ [_]) ++ more)[t.calls.length]? = _
  rw [List.append_assoc, List.getElem?_append_right le_rfl, Nat.sub_self]
  rfl

variable {trips : List Trip} {ids : List String}

/-- A drawn id is in no store of the visit before its exchange. -/
theorem Drawn.fresh {w : World} {m : Nat} (h : Drawn L trips ids m w)
    (hinj : ∀ i j, (L.env i).deps.newId = (L.env j).deps.newId → i = j) (hnew : ∀ i, (L.env i).deps.newId ∉ ids) :
    (L.env m).deps.newId ∉ w.holds.map (·.bookingId) := by
  intro hmem
  obtain ⟨b, hb, hid⟩ := List.mem_map.mp hmem
  rcases h.drawn b hb with hold | ⟨k, hk, hk'⟩
  · exact hnew m (hid ▸ hold)
  · have hsame := hinj _ _ (hid.symm.trans hk')
    omega

/-- None of the seats' holds is answered from the cache. -/
def Unreplayed (flow : Flow) (edge : App.State) (seatIds : List String) : Prop :=
  ∀ seatId ∈ seatIds, ∀ q, flow.holdArgs seatId = .ok q → edge.replay? (Fetch.hold q (holdKey q)).request = none

/-- **The fares of the bookings are the dues of the seats.** The induction is on the loop: a hold takes its seat, and its
    answer is replayed later in this loop only if two seats end up with one booking. -/
theorem HoldsRun.fares {train : Train} (htrain : flow.train = some train) {t t' : Till} {seatIds : List String}
    {bs : List BookingOut} {calls : List CheckoutCall} {busy : List String} (hrun : HoldsRun L n flow t seatIds bs t')
    (hids : (bs.map (·.bookingId)).Nodup) (hinj : ∀ i j, (L.env i).deps.newId = (L.env j).deps.newId → i = j)
    (hnew : ∀ i, (L.env i).deps.newId ∉ ids) (hlive : Unexpired L n calls) (hcalls : t'.calls <+: calls)
    (hdrawn : Drawn L trips ids (n + t.calls.length) t.edge.app) (hbusy : Taken t.edge.app train busy)
    (hanew : Unreplayed flow t.edge seatIds) :
    bs.map (fun b => (fareOf b.bookingId t'.edge.app.holds).getD 0) =
      dues L trips train seatIds (n + t.calls.length) busy := by
  induction hrun generalizing busy with
  | nil => rfl
  | @cons t t' seatId q rest b bs asked one more ih =>
    rw [List.map_cons, List.nodup_cons] at hids
    obtain ⟨hother, hids⟩ := hids
    have hnext := hdrawn.exchange (.hold q (holdKey q))
    have hlength : n + t.calls.length + 1 =
        n + (L.ring n flow (.fetch (.hold q (holdKey q))) t).2.calls.length := by
      unfold Line.ring
      rw [List.length_append, List.length_singleton, Nat.add_assoc]
    have hfare : fareOf b.bookingId t'.edge.app.holds =
        fareOf b.bookingId (L.ring n flow (.fetch (.hold q (holdKey q))) t).2.edge.app.holds := more.fareOf_ne hother
    have hfirst := hanew seatId List.mem_cons_self q asked
    cases one with
    | replayed found =>
      rw [hfirst] at found
      cases found
    | @made h missed makes out others stored =>
      have hq := HoldParams.on_of_args htrain asked
      have hunexpired := hlive.next (more.calls.trans hcalls)
      have hkept := makes.takes hq hunexpired (hdrawn.fresh hinj hnew) hbusy
      have hlater : Unreplayed flow (L.ring n flow (.fetch (.hold q (holdKey q))) t).2.edge rest := by
        intro s hs q' hargs
        have hbefore := hanew s (List.mem_cons_of_mem _ hs) q' hargs
        unfold EdgeState.replay? at hbefore ⊢
        cases hkey : (Fetch.hold q' (holdKey q')).request.cacheKey? with
        | none => rfl
        | some k =>
          rw [hkey] at hbefore
          have hne : (Fetch.hold q (holdKey q)).request.cacheKey? ≠ some k := by
            -- a later hold under the same key would be answered with the booking just made
            intro hsame
            obtain ⟨cached, hc, hread⟩ := stored k hsame
            exact hother (List.mem_map_of_mem (more.answered hc hread hs hargs hkey))
          dsimp only at hbefore ⊢
          rw [others k hne]
          exact hbefore
      have hrest := ih hids hcalls (hlength ▸ hnext) hkept hlater
      have hprice := makes.priced hq hunexpired hbusy
      rw [hdrawn.trips] at hprice
      rw [List.map_cons, hfare, hrest, out, makes.fareOf_self, dues, hprice, ← hlength]
      rfl

/-! ## The payment loop -/

/-- A booking HELD after a confirm is another one, and was HELD before. -/
theorem Pays.held_before {env : Env} {id : String} {w w' : World} {h p : Hold} (hp : Pays env id w w' h)
    (hfound : lookup MemoryRepo.idOf p.bookingId w'.holds = some p) (hheld : p.status = .held) :
    p.bookingId ≠ id ∧ lookup MemoryRepo.idOf p.bookingId w.holds = some p := by
  have hid : h.bookingId = id := lookup_some_key hp.found
  rw [hp.holds] at hfound
  by_cases heq : p.bookingId = id
  · have hself : lookup MemoryRepo.idOf p.bookingId
        (put MemoryRepo.idOf { h with status := .confirmed } (w.swept env.deps.now)) =
        some { h with status := .confirmed } := by
      rw [heq, ← hid]
      exact MemoryRepo.lookup_put_hold { h with status := .confirmed } _
    rw [hself] at hfound
    rw [← Option.some.inj hfound] at hheld
    cases hheld
  · -- the sweep turns no booking HELD
    refine ⟨heq, ?_⟩
    have hne : MemoryRepo.idOf { h with status := .confirmed } ≠ p.bookingId := fun hsame => heq (hsame.symm.trans hid)
    rw [lookup_put_ne hne] at hfound
    change lookup MemoryRepo.idOf p.bookingId (w.holds.map (MemoryRepo.retire env.deps.now)) = some p at hfound
    rw [lookup_map fun b => MemoryRepo.retire_bookingId env.deps.now b] at hfound
    obtain ⟨b, hb, hretired⟩ := Option.map_eq_some_iff.mp hfound
    rcases MemoryRepo.retire_cases env.deps.now b with hsame | ⟨-, hexpired⟩
    · rw [hb, ← hretired, hsame]
    · rw [← hretired, hexpired] at hheld
      cases hheld

theorem confirm_of_ok {t : Till} {id : String} {receipt : Receipt}
    (h : ((L.ring n flow (.fetch (.confirm id)) t).1 >>= readConfirm) = .ok receipt) :
    ∃ p, Pays (L.env (n + t.calls.length)) id t.edge.app (L.ring n flow (.fetch (.confirm id)) t).2.edge.app p := by
  rcases exchange_ok h with ⟨cached, hfound, -⟩ | ⟨-, hread, happ, -⟩
  · -- a confirm carries no key
    cases hfound
  · rcases serve_confirm id with ⟨p, hpays⟩ | ⟨-, hno⟩
    · refine ⟨p, ?_⟩
      show Pays _ _ _ (L.exchange (n + t.calls.length) (.confirm id) t.edge).2.app p
      rw [happ]
      exact hpays
    · exact absurd hread (hno receipt)

/-- **What a successful payment loop charges**: the fares of different bookings that were HELD when it began. -/
theorem confirms_of_ok : ∀ (held : List Held) (tickets : List Ticket) {t t' : Till} {out : List Ticket},
    (confirmAll held tickets).run (L.ring n flow) t = (.ok out, t') →
    ∃ paid : List Hold, paid.map (·.bookingId) = held.map (·.booking.bookingId) ∧ (paid.map (·.bookingId)).Nodup ∧
      (∀ p ∈ paid, lookup MemoryRepo.idOf p.bookingId t.edge.app.holds = some p ∧ p.status = .held) ∧
      t'.edge.app.accepted = t.edge.app.accepted ++ paid.map Hold.charge
  | [], tickets, t, t', out, h => by
      obtain ⟨-, rfl⟩ := Prod.mk.inj h
      exact ⟨[], rfl, List.nodup_nil, fun p hp => absurd hp List.not_mem_nil, (List.append_nil _).symm⟩
  | first :: rest, tickets, t, t', out, h => by
      have hfirst : (confirmSeatOf first).run (L.ring n flow) t =
          (((L.ring n flow (.fetch (.confirm first.booking.bookingId)) t).1 >>= readConfirm) >>= fun receipt =>
            (flow.row first.seatId).map fun p => ⟨first.seatId, p.childOfSeatId, receipt⟩,
            (L.ring n flow (.fetch (.confirm first.booking.bookingId)) t).2) := run_confirmSeatOf first rfl rfl
      change (Prog.bind (S := Web) _ _).run (L.ring n flow) t = _ at h
      rw [Prog.run_bind, hfirst] at h
      cases hread : ((L.ring n flow (.fetch (.confirm first.booking.bookingId)) t).1 >>= readConfirm) with
      | error e =>
          rw [hread] at h
          cases h
      | ok receipt =>
          rw [hread] at h
          obtain ⟨p, hpays⟩ := confirm_of_ok hread
          cases hrow : flow.row first.seatId with
          | error e =>
              simp only [bind, Except.bind, hrow, Except.map] at h
              cases h
          | ok passenger =>
              simp only [bind, Except.bind, hrow, Except.map] at h
              obtain ⟨paid, hids, hdistinct, hheld, haccepted⟩ := confirms_of_ok rest _ h
              have hbefore := fun p' hp' => hpays.held_before (hheld p' hp').1 (hheld p' hp').2
              have hid : p.bookingId = first.booking.bookingId := lookup_some_key hpays.found
              refine ⟨p :: paid, ?_, ?_, List.forall_mem_cons.mpr
                ⟨?_, fun p' hp' => ⟨(hbefore p' hp').2, (hheld p' hp').2⟩⟩, ?_⟩
              · rw [List.map_cons, List.map_cons, hids, hid]
              · rw [List.map_cons, List.nodup_cons]
                refine ⟨fun hmem => ?_, hdistinct⟩
                obtain ⟨p', hp', heq⟩ := List.mem_map.mp hmem
                exact (hbefore p' hp').1 (heq.trans hid)
              · rw [hid]
                exact ⟨hpays.found, hpays.held⟩
              · rw [haccepted, hpays.accepted, List.append_assoc]
                rfl

/-- A booked checkout is a whole hold loop and a whole payment loop. -/
theorem booked_split {t t' : Till} {tickets : List Ticket}
    (h : reserveAndPayGroup.run (L.ring n flow) t = (.ok (.booked tickets), t')) :
    ∃ held t₁, (holdAll flow.seatIds []).run (L.ring n flow) t = (.ok (held, none), t₁) ∧
      (confirmAll held []).run (L.ring n flow) t₁ = (.ok tickets, t') := by
  unfold reserveAndPayGroup at h
  change (Prog.bind (S := Web) _ _).run (L.ring n flow) t = _ at h
  rw [Prog.run_bind_ok _ (show Api.flow.run (L.ring n flow) t = (.ok flow, t) from Prog.run_call _ _ _)] at h
  cases hready : flow.passengerReady with
  | false =>
    rw [hready] at h
    cases h
  | true =>
    rw [hready] at h
    change (Prog.bind (S := Web) _ _).run (L.ring n flow) t = _ at h
    rcases Prog.run_bind_cases (S := Web) (L.ring n flow) h with ⟨e, -, he⟩ | ⟨⟨held, failed⟩, t₁, hholds, hrest⟩
    · cases he
    · cases failed with
      | some failure =>
        obtain ⟨err, conflictSeatId⟩ := failure
        change (Prog.bind (S := Web) _ _).run (L.ring n flow) t₁ = _ at hrest
        rcases Prog.run_bind_cases (S := Web) (L.ring n flow) hrest with ⟨e, -, he⟩ | ⟨_, t₂, -, hlast⟩
        · cases he
        · cases hlast
      | none =>
        change (Prog.bind (S := Web) _ _).run (L.ring n flow) t₁ = _ at hrest
        rw [Prog.run_bind, Prog.run_attempt] at hrest
        generalize hconfirms : (confirmAll held []).run (L.ring n flow) t₁ = ended at hrest
        obtain ⟨x, t₂⟩ := ended
        cases x with
        | ok out =>
          obtain ⟨hout, rfl⟩ := Prod.mk.inj hrest
          cases hout
          exact ⟨held, t₁, hholds, hconfirms⟩
        | error err =>
          change (Prog.bind (S := Web) _ _).run (L.ring n flow) t₂ = _ at hrest
          rcases Prog.run_bind_cases (S := Web) (L.ring n flow) hrest with ⟨e, -, he⟩ | ⟨_, t₃, -, hlast⟩
          · cases he
          · cases hlast

end Loop

/-! ## The dues are the quotes -/

section Quotes

variable {L : Line} {trips : List Trip} {ids : List String} {v : Visit} {train : Train}

/-- Under one tariff a quote is the price of its seat whenever as many seats are taken. -/
theorem seatPrice_of_quote {w : World} {q : QuoteOut} {seatId : String} {m : Nat} (hsame : L.OneTariff)
    (htrips : w.trips = trips) (hpriced : q.PricedOn (L.env m).deps w) (htrip : q.tripId = train.tripId)
    (horigin : q.originSeq = train.originSeq) (hdest : q.destSeq = train.destSeq)
    (hclass : seatClass trips train seatId = some q.travelClass) (n : Nat) :
    seatPrice (L.env n).deps trips train seatId (takenSeats w train).length = .ok ⟨q.fare.cents⟩ := by
  obtain ⟨trip, leg, hfound, hleg, hprice⟩ := hpriced
  rw [htrip, htrips] at hfound
  rw [horigin, hdest] at hleg
  obtain ⟨hstrategy, hfloats⟩ := hsame m n
  have hmult : classMult (L.env m).deps = classMult (L.env n).deps := by
    unfold classMult
    rw [hfloats]
  unfold seatClass at hclass
  rw [hfound] at hclass
  change ((reservedSeat trip seatId).toOption).map (·.travelClass) = some q.travelClass at hclass
  obtain ⟨seat, hseat, hof⟩ := Option.map_eq_some_iff.mp hclass
  have hseated : reservedSeat trip seatId = .ok seat := by
    cases hres : reservedSeat trip seatId with
    | error e =>
      rw [hres] at hseat
      cases hseat
    | ok s =>
      rw [hres] at hseat
      rw [Option.some.inj hseat]
  have htaken : takenSeats w train = (busySeats w.holds trip leg).dedup := by
    unfold takenSeats
    rw [htrips, hfound, hleg]
  rw [← hprice, htaken]
  unfold seatPrice legPrice occupancyOn
  rw [hfound, hleg]
  simp only [bind, Except.bind, hseated]
  rw [hof, ← hmult, ← hstrategy]
  rfl

/-- **The dues are the quotes.** -/
theorem dues_eq_quotes (hsound : v.Sound L trips ids) (hsame : L.OneTariff) : ∀ (seatIds : List String) (n : Nat)
    (busy : List String), v.AllQuotedAt train seatIds busy → dues L trips train seatIds n busy =
      seatIds.map (valueAt Prod.fst (fun e : String × QuoteOut => e.2.fare.cents) v.wizard.seatQuotes)
  | [], _, _, _ => rfl
  | seatId :: rest, n, busy, h => by
      obtain ⟨⟨e, he, rfl, htrip, horigin, hdest, hclass, record, hrecord, htaken⟩, hrest⟩ := h
      obtain ⟨m, w, hfound, htrips, hpriced⟩ := hsound.onScreen e he
      obtain rfl : (e.1, w) = record := Option.some.inj (hfound.symm.trans hrecord)
      rw [hsound.drawn.trips] at hclass
      have hprice := seatPrice_of_quote hsame htrips hpriced htrip horigin hdest hclass n
      have hvalue : valueAt Prod.fst (fun e : String × QuoteOut => e.2.fare.cents) v.wizard.seatQuotes e.1 =
          e.2.fare.cents := by
        unfold valueAt
        rw [lookup_of_mem hsound.tidy.quotes he]
        rfl
      rw [dues, ← htaken, hprice, List.map_cons, hvalue, dues_eq_quotes hsound hsame rest _ _ hrest]
      rfl

/-- With no quote kept for another seat, the total is the sum over the cart. -/
theorem totalFareCents_eq {w : Wizard} (h : w.Tidy) (honly : ∀ e ∈ w.seatQuotes, e.1 ∈ w.flow.seatIds) :
    w.totalFareCents =
      (w.flow.seatIds.map (valueAt Prod.fst (fun e : String × QuoteOut => e.2.fare.cents) w.seatQuotes)).sum := by
  have hstray : (w.seatQuotes.filter fun e => e.1 ∉ w.flow.seatIds) = [] :=
    List.filter_eq_nil_iff.mpr fun e he => by simpa using honly e he
  have hsplit := sum_split (fun e : String × QuoteOut => e.2.fare.cents) h.quotes h.seats
  rw [hstray, List.map_nil, List.sum_nil, zero_add] at hsplit
  exact hsplit

end Quotes

/-! ## The total and the charges -/

/-- The wizard is opened; other customers have been served before. -/
def Visit.opened (L : Line) (trips : List Trip) (history : List Incoming) : Visit :=
  { edge := App.after L.settings (App.start trips) history }

/-- "Reserve & pay" is pressed and succeeds, and no hold on the train runs out between its first exchange and its last.
    -/
structure Visit.Books (L : Line) (v : Visit) : Prop where
  shown  : v.payable = true
  booked : (bookedTickets (v.checkout L).1).isSome = true
  live   : Unexpired L v.served (v.checkout L).2.calls

/-- The fares charged are the total that was displayed. -/
def Visit.TotalCharged (L : Line) (v : Visit) : Prop :=
  (v.checkout L).2.charged v.edge.app = v.wizard.totalFareCents

instance (L : Line) (v : Visit) : Decidable (v.TotalCharged L) := inferInstanceAs (Decidable (_ = _))

/-- A checkout that succeeds is two loops that succeed. -/
theorem Visit.Books.split {L : Line} {v : Visit} (h : v.Books L) : ∃ tickets held t₁,
    (v.checkout L).1 = .ok (.booked tickets) ∧
      (holdAll v.wizard.flow.seatIds []).run (L.ring v.served v.wizard.flow) { edge := v.edge } =
        (.ok (held, none), t₁) ∧
      (confirmAll held []).run (L.ring v.served v.wizard.flow) t₁ = (.ok tickets, (v.checkout L).2) := by
  have hbooked := h.booked
  generalize hrun : v.checkout L = ended at hbooked ⊢
  obtain ⟨outcome, t'⟩ := ended
  cases outcome with
  | error e => cases hbooked
  | ok ended =>
    cases ended with
    | booked tickets =>
      obtain ⟨held, t₁, hholds, hconfirms⟩ := booked_split hrun
      exact ⟨tickets, held, t₁, rfl, hholds, hconfirms⟩
    | ignored | holdFailed | confirmFailed => cases hbooked

/-- Without a train not even the first hold is sent. -/
theorem Visit.Books.train {L : Line} {v : Visit} (h : v.Books L) : ∃ train, v.wizard.flow.train = some train := by
  have hready : v.wizard.flow.passengerReady = true := by
    have hshown := h.shown
    unfold Visit.payable at hshown
    simp only [Bool.and_eq_true] at hshown
    exact hshown.1.2
  obtain ⟨-, held, t₁, -, hholds, -⟩ := h.split
  obtain ⟨bs, -, hloop⟩ := holdsRun_of_ok v.wizard.flow.seatIds [] hholds
  cases hseats : v.wizard.flow.seatIds with
  | nil => exact absurd hseats (Flow.seats_of_ready hready)
  | cons seatId rest =>
    rw [hseats] at hloop
    cases hloop with
    | cons asked one more =>
      obtain ⟨train, -, htrain, -⟩ := Flow.holdArgs_ok asked
      exact ⟨train, htrain⟩

/-- **The charge of a booked cart** is the sum of its dues, if none of its holds is a replay. -/
theorem charged_eq_dues {L : Line} {trips : List Trip} {v : Visit} {train : Train} {ids : List String}
    (hsound : v.Sound L trips ids) (hinj : ∀ i j, (L.env i).deps.newId = (L.env j).deps.newId → i = j)
    (hnew : ∀ i, (L.env i).deps.newId ∉ ids) (h : v.Books L) (htrain : v.wizard.flow.train = some train)
    (hanew : Unreplayed v.wizard.flow v.edge v.wizard.flow.seatIds) :
    (v.checkout L).2.charged v.edge.app =
      (dues L trips train v.wizard.flow.seatIds v.served (takenSeats v.edge.app train)).sum := by
  have hlive := h.live
  obtain ⟨tickets, held, t₁, -, hholds, hconfirms⟩ := h.split
  generalize (v.checkout L).2 = t' at hlive hconfirms ⊢
  obtain ⟨bs, hheld, hloop⟩ := holdsRun_of_ok v.wizard.flow.seatIds [] hholds
  obtain ⟨paid, hids, hdistinct, hfound, haccepted⟩ := confirms_of_ok held [] hconfirms
  have hsame : paid.map (·.bookingId) = bs.map (·.bookingId) := by
    have houts : held.map (·.booking.bookingId) = (held.map (·.booking)).map (·.bookingId) := (List.map_map).symm
    rw [hids, houts, hheld]
    rfl
  -- the payment loop only adds calls, so the holds are calls of the checkout
  have hcalls : t₁.calls <+: t'.calls := by
    have hstep : ∀ (o : Web.Op) (t : Till), t₁.calls <+: t.calls →
        t₁.calls <+: (L.ring v.served v.wizard.flow o t).2.calls := by
      intro o t ht
      cases o with
      | flow => exact ht
      | fetch f => exact ht.trans (List.prefix_append _ _)
    have hkept := Prog.run_invariant (I := fun t : Till => t₁.calls <+: t.calls) (L.ring v.served v.wizard.flow) hstep
      (confirmAll held []) List.prefix_rfl
    rw [hconfirms] at hkept
    exact hkept
  have hfares := hloop.fares htrain (hsame ▸ hdistinct) hinj hnew hlive hcalls hsound.drawn
    (taken_takenSeats v.edge.app train) hanew
  change bs.map _ = dues L trips train v.wizard.flow.seatIds v.served _ at hfares
  -- what is paid is what the hold put on record
  have hpaid : paid.map (·.fareCents) = bs.map fun b => (fareOf b.bookingId t₁.edge.app.holds).getD 0 := by
    have hfare : paid.map (·.fareCents) = (paid.map (·.bookingId)).map fun id =>
      (fareOf id t₁.edge.app.holds).getD 0 := by
      rw [List.map_map]
      refine List.map_congr_left fun p hp => ?_
      show p.fareCents = (fareOf p.bookingId t₁.edge.app.holds).getD 0
      unfold fareOf
      rw [(hfound p hp).1]
      rfl
    rw [hfare, hsame, List.map_map]
    rfl
  unfold Till.charged
  rw [haccepted, hloop.accepted, List.drop_left, List.map_map, ← hfares, ← hpaid]
  rfl

/-- **The total shown is the total charged**, after any events of a visit under one tariff, if the checkout then
    succeeds and the quotes are those of its holds. -/
theorem total_charged (L : Line) (trips : List Trip) (history : List Incoming) (events : List VisitEvent)
    (hsame : L.OneTariff) (hfresh : L.FreshIds (App.after L.settings (App.start trips) history).app)
    (h : ((Visit.opened L trips history).after L events).Books L)
    (hquoted : ((Visit.opened L trips history).after L events).QuotedAsHeld) :
    ((Visit.opened L trips history).after L events).TotalCharged L := by
  have hstart : (Visit.opened L trips history).Sound L (App.after L.settings (App.start trips) history).app.trips
      ((App.after L.settings (App.start trips) history).app.holds.map (·.bookingId)) :=
    ⟨⟨List.nodup_nil, keyed_nil⟩, ⟨rfl, keyed_after _ _ _, fun b hb => Or.inl (List.mem_map_of_mem hb)⟩,
      fun e he => absurd he List.not_mem_nil, fun f hf => absurd hf List.not_mem_nil⟩
  have hsound := hstart.after events
  generalize (Visit.opened L trips history).after L events = v at h hquoted hsound ⊢
  have hanew : Unreplayed v.wizard.flow v.edge v.wizard.flow.seatIds := by
    intro seatId hs q hargs
    refine hquoted.anew seatId hs q ?_
    rw [hargs]
    rfl
  obtain ⟨train, htrain⟩ := h.train
  have hcharged := charged_eq_dues hsound hfresh.inj hfresh.new h htrain hanew
  unfold Visit.TotalCharged
  rw [hcharged, totalFareCents_eq hsound.tidy hquoted.only,
    dues_eq_quotes hsound hsame _ _ _ (hquoted.seats train htrain)]

/-! ### One seat, then two, on an empty train -/

/-- A hundred cents a kilometre, up to 1.8 times as much on a full train. -/
def sampleFares : DynamicFare := { ratePerKm := ⟨100⟩ }

/-- Every exchange is answered and every charge accepted, on the day of the trips. -/
def dynamicLine : Line where
  settings := counterSettings
  env n := ⟨{ sampleDeps (serviceDay + n) ("-" ++ Nat.repr n) with price := sampleFares.price }, acceptAll⟩
  fate _ := .answered

theorem oneTariff_dynamicLine : dynamicLine.OneTariff := fun _ _ => ⟨rfl, rfl⟩

theorem freshIds_dynamicLine :
    dynamicLine.FreshIds (App.after dynamicLine.settings (App.start sampleTrips) []).app where
  inj m n h := by
    change "b" ++ ("-" ++ Nat.repr m) = "b" ++ ("-" ++ Nat.repr n) at h
    exact Nat.repr_inj.mp (by simpa using h)
  new n h := absurd h (by simp [App.after, App.start, World.start, World.holds, MemoryUow.make])

/-- What happens to the front of the queue of requests. -/
def answered : List VisitEvent := [.serve 0, .answer 0]

/-- The traveller picks these seats of the slow train, waits for each quote, and types in the passengers. -/
def pickSeats (seatIds : List String) : List VisitEvent :=
  [.gesture .reserve, .gesture (.search ⟨"FOT", "BAD", "2024-05-01"⟩)] ++ answered ++
  [.gesture (.selectTrain ⟨"slow", 0, 2⟩)] ++ answered ++ answered ++
  (seatIds.flatMap fun seatId => .gesture (.toggleSeat seatId) :: answered) ++
  [.gesture (.confirmSeats none)] ++
  seatIds.map fun seatId => .gesture (.typePassenger seatId { name := some "Nimal", nic := some ("nic" ++ seatId) })

def pickedVisit (seatIds : List String) : Visit :=
  (Visit.opened dynamicLine sampleTrips []).after dynamicLine (pickSeats seatIds)

theorem books_one : (pickedVisit ["A1"]).Books dynamicLine where
  shown := by decide +kernel
  booked := by decide +kernel
  live := by decide +kernel

theorem books_two : (pickedVisit ["A1", "A2"]).Books dynamicLine where
  shown := by decide +kernel
  booked := by decide +kernel
  live := by decide +kernel

/-- A traveller alone pays what is shown. -/
theorem total_charged_alone : (pickedVisit ["A1"]).TotalCharged dynamicLine :=
  total_charged dynamicLine sampleTrips [] (pickSeats ["A1"]) oneTariff_dynamicLine freshIds_dynamicLine books_one
    (by decide +kernel)

/-- Both seats were quoted before either was held, and the second is held on a fuller train. -/
theorem pair_pays_more_than_shown :
    ¬ ∀ (L : Line) (trips : List Trip) (history : List Incoming) (events : List VisitEvent),
      (∃ strategy : DynamicFare, ∀ n, (L.env n).deps.price = strategy.price) → L.OneTariff →
      L.FreshIds (App.after L.settings (App.start trips) history).app →
      ((Visit.opened L trips history).after L events).Books L →
      ((Visit.opened L trips history).after L events).TotalCharged L := by
  intro h
  have htotal := h dynamicLine sampleTrips [] (pickSeats ["A1", "A2"]) ⟨sampleFares, fun _ => rfl⟩
    oneTariff_dynamicLine freshIds_dynamicLine books_two
  have hdiffers : ¬ (pickedVisit ["A1", "A2"]).TotalCharged dynamicLine := by decide +kernel
  exact hdiffers htotal

end SlrBooking
