import SlrBooking.Web.HoldReplays
import SlrBooking.Runs.Effects

/-!
# `Web.GroupPayment` — one group checkout, with any of its calls failing

The checkout is run against the routes. Every call has a fate: it is served and answered, it never arrives, or it
is served and the answer is lost; a served call may also be refused. While the wizard waits for a call, the traveller
may go on clicking, and earlier requests may be answered: any actions may be dispatched on the flow. No other client
acts, and each hold goes out under a key not used before, so the replay cache stays out of the way.

## Contents
- `Line`, `LiveLine`, `CheckoutCall`, `Batch`: the calls in order, with the stores and the flow between them.
- `AllPaid`, `NothingKept`, `AllOrNothing`; `Recoverable`, the condition on the pattern of the calls.
- `Progress`: what has become of the bookings made so far; one lemma for each call of the checkout.
- `HoldsEnd`, `ConfirmsEnd`, `CheckoutEnd`: how the loops and the checkout end.
- `all_or_nothing_iff`. `second_payment_declined`: a group that pays and travels nowhere.
-/

namespace SlrBooking

open Theory Rows App

/-- What becomes of one call: it is served and the wizard hears the answer, it never arrives, or it is served and the
    answer is lost. -/
inductive Fate where
  | answered | dropped | unheard
deriving DecidableEq

/-- `fetch` rejects. None of the client's own errors. -/
def networkError : ApiError := ⟨.typeError, "Failed to fetch", 0, ""⟩

/-- The server's settings, and for each call what the ports say and what becomes of it. -/
structure Line where
  settings : Settings
  env      : Nat → Env
  fate     : Nat → Fate

/-- A line, and what is dispatched on the flow while each call is awaited. -/
structure LiveLine extends Line where
  meanwhile : Nat → List FlowAction

/-- One call of the checkout: the store before and after, what the wizard heard, and the flow by then. -/
structure CheckoutCall where
  fetch  : Fetch
  before : World
  after  : World
  heard  : Except ApiError (Response Body)
  flow   : Flow

/-- A checkout under way. -/
structure Batch where
  world : World
  flow  : Flow
  calls : List CheckoutCall := []

/-- The batch with one more call. -/
def Batch.log (s : Batch) (c : CheckoutCall) : Batch := ⟨c.after, c.flow, s.calls ++ [c]⟩

namespace Line

variable (L : Line)

/-- Call number `n`: what the wizard hears, and the store afterwards. -/
def reply (n : Nat) (f : Fetch) (w : World) : Except ApiError (Response Body) × World :=
  let served := handle L.settings (L.env n) f.request w
  match L.fate n with
  | .answered => (.ok (received served.1), served.2)
  | .dropped => (.error networkError, w)
  | .unheard => (.error networkError, served.2)

end Line

namespace LiveLine

variable (L : LiveLine)

/-- The next call of a batch. -/
def call (s : Batch) (f : Fetch) : CheckoutCall :=
  { fetch := f
    before := s.world
    after := (L.reply s.calls.length f s.world).2
    heard := (L.reply s.calls.length f s.world).1
    flow := (L.meanwhile s.calls.length).foldl flowReducer s.flow }

def exec : (o : WebOp) → Batch → Except ApiError (Web.Res o) × Batch
  | .fetch f, s => ((L.call s f).heard, s.log (L.call s f))
  | .flow, s => (.ok s.flow, s)

/-- The whole checkout. -/
def checkout (flow : Flow) (w : World) : Except ApiError CheckoutOutcome × Batch :=
  reserveAndPayGroup.run L.exec { world := w, flow := flow }

end LiveLine

/-! ## All or nothing -/

namespace Fetch

/-- The method of the call reads the answer as a success. -/
def accepts : Fetch → Response Body → Bool
  | .hold _ _, response => (readHold response).isOk
  | .confirm _, response => (readConfirm response).isOk
  | .cancel _, response => (readCancel response).isOk
  | .other _ _, _ => true

def isConfirm : Fetch → Bool
  | .confirm _ => true
  | _ => false

def isCancel : Fetch → Bool
  | .cancel _ => true
  | _ => false

end Fetch

namespace CheckoutCall

variable (c : CheckoutCall)

/-- The call succeeded, as the wizard sees it. -/
def succeeded : Bool :=
  match c.heard with
  | .ok response => c.fetch.accepts response
  | .error _ => false

/-- The bookings it made. -/
def made : List String :=
  (c.after.holds.map (·.bookingId)).filter fun id => id ∉ c.before.holds.map (·.bookingId)

end CheckoutCall

/-- What a paid booking costs its passenger. -/
def Hold.charge (b : Hold) : String × Money := (b.reference, ⟨b.fareCents⟩)

namespace Batch

variable (s : Batch)

/-- The bookings made in this batch. -/
def made : List String := s.calls.flatMap CheckoutCall.made

/-- The sum of what the gateway accepted since the store `w`. Nothing in the program ever gives money back. -/
def netCharges (w : World) : Int := ((s.world.accepted.drop w.accepted.length).map (·.2.cents)).sum

/-- Every cancel of the batch succeeded. -/
def CancelsSucceed : Prop := ∀ c ∈ s.calls, c.fetch.isCancel = true → c.succeeded = true

end Batch

/-- The booking is on the train and leg. -/
structure Train.Carries (train : Train) (b : Hold) : Prop where
  tripId : b.tripId = train.tripId
  origin : b.leg.originSeq = train.originSeq
  dest   : b.leg.destSeq = train.destSeq

/-- Every seat of the cart is CONFIRMED on the chosen train and leg and charged once, in the order of the cart, and
    BOOKED is dispatched with a ticket for each. -/
structure AllPaid (flow : Flow) (w : World) (outcome : Except ApiError CheckoutOutcome) (s : Batch) : Prop where
  booked : ∃ tickets, outcome = .ok (.booked tickets) ∧ tickets.map Ticket.seatId = flow.seatIds
  paid   : ∃ bookings : List Hold, bookings.map (·.seatId) = flow.seatIds ∧
      bookings.map (·.bookingId) = s.made ∧ s.world.accepted = w.accepted ++ bookings.map Hold.charge ∧
      ∀ b ∈ bookings, b ∈ s.world.holds ∧ b.status = .confirmed ∧ ∃ train ∈ flow.train, train.Carries b

/-- No booking made in the batch is HELD or CONFIRMED, and the accepted charges come to nothing. -/
structure NothingKept (w : World) (s : Batch) : Prop where
  released : ∀ b ∈ s.world.holds, b.bookingId ∈ s.made → b.status ≠ .held ∧ b.status ≠ .confirmed
  free     : s.netCharges w = 0

def AllOrNothing (flow : Flow) (w : World) (outcome : Except ApiError CheckoutOutcome) (s : Batch) : Prop :=
  AllPaid flow w outcome s ∨ NothingKept w s

/-! ## The pattern of the calls -/

namespace CheckoutCall

variable (c : CheckoutCall)

/-- A hold that was carried out, though the wizard does not know. -/
def lost : Bool := c.fetch.hold?.isSome && !c.succeeded && !c.made.isEmpty

/-- The hold the wizard heard of asks for this train and leg. -/
def asksFor (train : Train) : Bool :=
  c.fetch.hold?.any fun (q, _) => q.tripId = train.tripId && q.originSeq = train.originSeq && q.destSeq = train.destSeq

/-- The booking a hold was answered with. -/
def booking? : Option BookingOut :=
  match c.fetch, c.heard with
  | .hold _ _, .ok response => (readHold response).toOption
  | _, _ => none

/-- The server has charged for the call. -/
def charged : Bool := c.before.accepted.length < c.after.accepted.length

end CheckoutCall

/-- A confirm, with the hold of the same seat. -/
structure Payment where
  hold    : CheckoutCall
  confirm : CheckoutCall

/-- The payment is over for the loop: the wizard hears of the confirm, and the row of the seat's passenger is still in
    the flow when it does. -/
def Payment.finished (p : Payment) : Bool :=
  p.confirm.succeeded && p.hold.fetch.hold?.any fun (q, _) => (p.confirm.flow.passenger q.seatId).isSome

/-- What the payment has cost the passenger: the fare of the seat, if the server has carried out the confirm, heard of
    or not. -/
def Payment.cost (p : Payment) : Int := if p.confirm.charged then p.hold.booking?.elim 0 (·.fare.cents) else 0

namespace Batch

variable (s : Batch)

/-- The holds the wizard heard of. -/
def holds : List CheckoutCall := s.calls.filter fun c => c.fetch.hold?.isSome && c.succeeded

def confirms : List CheckoutCall := s.calls.filter fun c => c.fetch.isConfirm

/-- The confirms, each with the hold of its seat: bookings are confirmed in the order they were made. -/
def payments : List Payment := List.zipWith Payment.mk s.holds s.confirms

/-- **The pattern of calls that leaves nothing half done.** No hold is carried out without the wizard hearing of it; and
    once every seat is held, either every payment finishes, and every hold was for the train chosen when the button was
    pressed, or the payments stop and the seats paid for by then cost nothing. -/
structure Recoverable (flow : Flow) : Prop where
  heard : ∀ c ∈ s.calls, c.lost = false
  paid  : s.holds.length = flow.seatIds.length →
    if ∀ p ∈ s.payments, p.finished = true then ∀ c ∈ s.holds, ∃ train ∈ flow.train, c.asksFor train = true
    else (s.payments.map Payment.cost).sum = 0

instance (flow : Flow) : Decidable (s.Recoverable flow) :=
  decidable_of_iff ((∀ c ∈ s.calls, c.lost = false) ∧ (s.holds.length = flow.seatIds.length →
    if ∀ p ∈ s.payments, p.finished = true then ∀ c ∈ s.holds, ∃ train ∈ flow.train, c.asksFor train = true
    else (s.payments.map Payment.cost).sum = 0))
    ⟨fun h => ⟨h.1, h.2⟩, fun h => ⟨h.heard, h.paid⟩⟩

instance : Decidable s.CancelsSucceed := inferInstanceAs (Decidable (∀ c ∈ s.calls, _ → _))

end Batch

/-- The tickets dispatched with BOOKED. -/
def bookedTickets (outcome : Except ApiError CheckoutOutcome) : Option (List Ticket) :=
  match outcome with
  | .ok (.booked tickets) => some tickets
  | _ => none

/-- The ids drawn for the calls are new and all different. The adapter draws them with `uuid4`. -/
structure Line.FreshIds (L : Line) (w : World) : Prop where
  inj : ∀ m n, (L.env m).deps.newId = (L.env n).deps.newId → m = n
  new : ∀ n, (L.env n).deps.newId ∉ w.holds.map (·.bookingId)

/-! ## What one call does to the store -/

section Reply

variable {L : Line} {n : Nat} {f : Fetch} {w : World}

/-- A call that is read as a success was served and heard. -/
theorem reply_ok {α : Type} {read : Response Body → Except ApiError α} {a : α}
    (h : ((L.reply n f w).1 >>= read) = .ok a) :
    read (received (handle L.settings (L.env n) f.request w).1) = .ok a ∧
      (L.reply n f w).2 = (handle L.settings (L.env n) f.request w).2 := by
  unfold Line.reply at h ⊢
  cases hfate : L.fate n with
  | answered =>
      rw [hfate] at h
      exact ⟨h, rfl⟩
  | dropped | unheard =>
      rw [hfate] at h
      cases h

/-- Any other call has been served or has not. -/
theorem reply_world : (L.reply n f w).2 = w ∨ (L.reply n f w).2 = (handle L.settings (L.env n) f.request w).2 := by
  unfold Line.reply
  cases L.fate n with
  | answered | unheard => exact Or.inr rfl
  | dropped => exact Or.inl rfl

end Reply

/-- A hold was made: the booking `h` for what was asked. -/
structure Makes (env : Env) (q : HoldParams) (w w' : World) (h : Hold) : Prop where
  id       : h.bookingId = env.deps.newId
  held     : h.status = .held
  tripId   : h.tripId = q.tripId
  seatId   : h.seatId = q.seatId
  origin   : h.leg.originSeq = q.originSeq
  dest     : h.leg.destSeq = q.destSeq
  drafted  : ∃ trip seat ttl, Drafts env.deps (w.swept env.deps.now) w.trips q.tripId q.seatId h.leg q.passengerId trip
      seat ⟨h.fareCents⟩ ttl
  added    : MemoryRepo.addHold (w.swept env.deps.now) h = .ok w'.holds
  trips    : w'.trips = w.trips
  accepted : w'.accepted = w.accepted

/-- A confirm got as far as the commit: the booking `h` is charged and CONFIRMED. -/
structure Pays (env : Env) (id : String) (w w' : World) (h : Hold) : Prop where
  found    : lookup MemoryRepo.idOf id w.holds = some h
  held     : h.status = .held
  live     : env.deps.now < h.heldUntil
  holds    : w'.holds = put MemoryRepo.idOf { h with status := .confirmed } (w.swept env.deps.now)
  accepted : w'.accepted = w.accepted ++ [h.charge]

/-- A cancel was committed. -/
structure Cancels (id : String) (w w' : World) (h : Hold) : Prop where
  found    : lookup MemoryRepo.idOf id w.holds = some h
  holds    : w'.holds = put MemoryRepo.idOf { h with status := .cancelled } w.holds
  accepted : w'.accepted = w.accepted

/-- An error response is no success of any method. -/
theorem readAs_errorResponse {α : Type} {schema : String} {shape : Body → Option α} {e : Err} {a : α}
    (hshape : ∀ kind detail, shape (.error kind detail) = none) (htext : ∀ content, shape (.text content) = none) :
    readAs schema shape (received (errorResponse e)) ≠ .ok a := by
  intro h
  have hbody := readAs_ok h
  cases e with
  | domain | valueError | keyError => cases hbody.symm.trans (hshape _ _)
  | _ => cases hbody.symm.trans (htext _)

section Served

variable {settings : Settings} {env : Env} {w : World}

/-- **A served hold** makes the booking it answers with, or does nothing and is refused. -/
theorem serve_hold (q : HoldParams) (key : String) :
    let served := handle settings env (Fetch.hold q key).request w
    (∃ h, Makes env q w served.2 h ∧ readHold (received served.1) = .ok (BookingOut.of h settings.currency)) ∨
      (World.Same w served.2 ∧ ∀ b, readHold (received served.1) ≠ .ok b) := by
  rw [handle_hold]
  cases hvalid : q.body.valid with
  | false =>
      rw [if_neg (by simp)]
      refine Or.inr ⟨⟨rfl, rfl, rfl⟩, fun b hb => ?_⟩
      cases readAs_ok hb
  | true =>
      rw [if_pos rfl]
      unfold Env.hold onLeg
      cases hleg : Leg.make q.body.originSeq q.body.destSeq with
      | error e => exact Or.inr ⟨⟨rfl, rfl, rfl⟩, fun b => readHold_errorResponse⟩
      | ok leg =>
          obtain ⟨horigin, hdest⟩ := Leg.make_ok hleg
          dsimp only
          unfold Env.run
          generalize hrun : w.serve ⟨.hold q.body.tripId q.body.seatId leg q.body.passengerId q.body.passengerName
            q.body.reference, env.deps, env.gateway⟩ = served
          obtain ⟨answer, w'⟩ := served
          rcases holdSeat_drafted hrun with
            ⟨old, hold, -⟩ | ⟨-, -, ⟨e, rfl⟩, hsame⟩ |
              ⟨-, trip, seat, fare, ttl, hd, ⟨e, -, rfl, hsame⟩ | ⟨holds, hadd, rfl, hwrote⟩⟩
          · cases hold
          · exact Or.inr ⟨hsame, fun b => readHold_errorResponse⟩
          · exact Or.inr ⟨hsame, fun b => readHold_errorResponse⟩
          · refine Or.inl ⟨newHold env.deps q.tripId q.seatId leg q.passengerId q.passengerName none seat fare ttl,
              ⟨rfl, rfl, rfl, rfl, horigin, hdest, ⟨trip, seat, ttl, hd⟩, ?_, hwrote.trips, ?_⟩, rfl⟩
            · rw [hwrote.holds]
              exact hadd
            · rw [hwrote.accepted, List.append_nil]

/-- **A served confirm** charges and confirms, or does nothing and is refused. The receipt may still fail. -/
theorem serve_confirm (id : String) :
    let served := handle settings env (Fetch.confirm id).request w
    (∃ h, Pays env id w served.2 h) ∨ (World.Same w served.2 ∧ ∀ r, readConfirm (received served.1) ≠ .ok r) := by
  show (∃ h, Pays env id w (w.serve ⟨.confirm id, env.deps, env.gateway⟩).2 h) ∨ _
  rcases confirmBooking_outcome (World.block_pair env.gateway (confirmBooking env.deps id) w) with
    ⟨-, ⟨e, he⟩, hsame⟩ | ⟨hold, trip, hc, -, hwrote⟩
  · refine Or.inr ⟨hsame, fun r => ?_⟩
    show readConfirm (received (respond 200 _ (w.serve ⟨.confirm id, env.deps, env.gateway⟩).1)) ≠ _
    rw [show (w.serve ⟨.confirm id, env.deps, env.gateway⟩).1 = .error e from he]
    exact readAs_errorResponse (fun _ _ => rfl) fun _ => rfl
  · exact Or.inl ⟨hold, hc.found, hc.held, hc.live, hwrote.holds, hwrote.accepted⟩

/-- **A served cancel** sets CANCELLED, or does nothing and is refused. Either way no charge is given back. -/
theorem serve_cancel (id : String) :
    let served := handle settings env (Fetch.cancel id).request w
    (∃ h, Cancels id w served.2 h) ∨ (World.Same w served.2 ∧ ∀ b, readCancel (received served.1) ≠ .ok b) := by
  show (∃ h, Cancels id w (w.serve ⟨.cancel id, env.deps, env.gateway⟩).2 h) ∨ _
  rcases cancelBooking_outcome (World.block_pair env.gateway (cancelBooking id) w) with
    ⟨⟨e, he⟩, hsame⟩ | ⟨hold, hfound, -, -, hwrote⟩
  · refine Or.inr ⟨hsame, fun b => ?_⟩
    show readCancel (received (respond 200 _ (w.serve ⟨.cancel id, env.deps, env.gateway⟩).1)) ≠ _
    rw [show (w.serve ⟨.cancel id, env.deps, env.gateway⟩).1 = .error e from he]
    exact readAs_errorResponse (fun _ _ => rfl) fun _ => rfl
  · exact Or.inl ⟨hold, hfound, hwrote.holds, hwrote.accepted.trans (List.append_nil _)⟩

end Served

/-! ## The bookings made so far -/

/-- What has become of a booking of the batch: HELD as it was made, waiting to be paid, paid, or given back. -/
inductive Phase where
  | held | waiting | paid | released

/-- The statuses a booking can have in a phase. A waiting one may have run out. -/
def Phase.allows : Phase → BookingStatus → Prop
  | .held, status => status = .held
  | .waiting, status => status = .held ∨ status = .expired
  | .paid, status => status = .confirmed
  | .released, status => status = .cancelled

/-- The booking is stored, with a status its phase allows. -/
def StoredAs (holds : List Hold) (e : Hold × Phase) : Prop :=
  ∃ status, e.2.allows status ∧ { e.1 with status := status } ∈ holds

/-- **The invariant of the loops.** The batch has made these bookings, in this order, with what has become of each, and
    the gateway has accepted these charges since the store `w₀`. -/
structure Progress (L : LiveLine) (w₀ : World) (s : Batch) (entries : List (Hold × Phase))
    (charges : List (String × Money)) :
    Prop where
  keyed    : Keyed MemoryRepo.idOf s.world.holds
  drawn    : ∀ h ∈ s.world.holds, h.bookingId ∈ w₀.holds.map (·.bookingId) ∨
      ∃ n < s.calls.length, h.bookingId = (L.env n).deps.newId
  distinct : (entries.map (·.1.bookingId)).Nodup
  stored   : ∀ e ∈ entries, StoredAs s.world.holds e
  accepted : s.world.accepted = w₀.accepted ++ charges
  made     : s.made = entries.map (·.1.bookingId)

section Stored

variable {holds : List Hold} {e : Hold × Phase}

/-- The sweep lets a booking run out only while it waits. -/
theorem StoredAs.swept {w : World} (h : StoredAs w.holds e) (he : e.2 ≠ .held) (now : Int) :
    StoredAs (w.swept now) e := by
  obtain ⟨status, hallows, hmem⟩ := h
  have hretired : MemoryRepo.retire now { e.1 with status := status } ∈ w.swept now := mem_swept.mpr ⟨_, hmem, rfl⟩
  rcases MemoryRepo.retire_cases now { e.1 with status := status } with hsame | ⟨hheld, hexpired⟩
  · rw [hsame] at hretired
    exact ⟨status, hallows, hretired⟩
  · rw [hexpired] at hretired
    refine ⟨.expired, ?_, hretired⟩
    change status = .held at hheld
    subst hheld
    cases hphase : e.2 with
    | held => exact absurd hphase he
    | waiting => exact Or.inr rfl
    | paid | released =>
        rw [hphase] at hallows
        cases hallows

/-- Writing another booking leaves it alone. -/
theorem StoredAs.put (h : StoredAs holds e) (hk : Keyed MemoryRepo.idOf holds) {b : Hold}
    (hne : e.1.bookingId ≠ b.bookingId) : StoredAs (put MemoryRepo.idOf b holds) e := by
  obtain ⟨status, hallows, hmem⟩ := h
  exact ⟨status, hallows, (mem_put hk).mpr (Or.inr ⟨hmem, hne⟩)⟩

/-- The one stored booking of that id. -/
theorem StoredAs.eq (h : StoredAs holds e) (hk : Keyed MemoryRepo.idOf holds) {b : Hold} (hb : b ∈ holds)
    (hid : b.bookingId = e.1.bookingId) : e.2.allows b.status ∧ b = { e.1 with status := b.status } := by
  obtain ⟨status, hallows, hmem⟩ := h
  obtain rfl : b = { e.1 with status := status } := eq_of_key_eq hk hb hmem hid
  exact ⟨hallows, rfl⟩

end Stored

theorem made_log (s : Batch) (c : CheckoutCall) : (s.log c).made = s.made ++ c.made := by
  unfold Batch.made Batch.log
  rw [List.flatMap_append, List.flatMap_singleton]

/-- A call after which the store has the ids it had has made nothing. -/
theorem made_nil {c : CheckoutCall} (h : ∀ b ∈ c.after.holds, b.bookingId ∈ c.before.holds.map (·.bookingId)) :
    c.made = [] := by
  unfold CheckoutCall.made
  rw [List.filter_eq_nil_iff]
  intro id hid
  obtain ⟨b, hb, rfl⟩ := List.mem_map.mp hid
  simpa using h b hb

theorem ids_swept (w : World) (now : Int) : (w.swept now).map (·.bookingId) = w.holds.map (·.bookingId) := by
  unfold World.swept MemoryRepo.expireDue
  rw [List.map_map]
  exact List.map_congr_left fun h _ => MemoryRepo.retire_bookingId now h

theorem keyed_swept {w : World} (hk : Keyed MemoryRepo.idOf w.holds) (now : Int) :
    Keyed MemoryRepo.idOf (w.swept now) := MemoryRepo.expireDue_keyed hk now

/-! ## What one call does to the batch

Each call has one lemma: it leaves the batch as it was, adds a booking at the end, or rewrites one of the bookings.
The entries before and after the one it is about are the frame. -/

namespace Progress

variable {L : LiveLine} {w₀ : World} {s : Batch} {entries xs ys : List (Hold × Phase)} {charges : List (String × Money)}
  {b : Hold} {phase : Phase}

/-- **A call without effect.** -/
theorem same (hp : Progress L w₀ s entries charges) {f : Fetch} (h : World.Same s.world (L.call s f).after) :
    Progress L w₀ (s.log (L.call s f)) entries charges where
  keyed := by
    show Keyed _ (L.call s f).after.holds
    rw [h.holds]
    exact hp.keyed
  drawn b hb := by
    change b ∈ (L.call s f).after.holds at hb
    rw [h.holds] at hb
    rcases hp.drawn b hb with hold | ⟨n, hn, hid⟩
    · exact Or.inl hold
    · exact Or.inr ⟨n, by simp only [Batch.log, List.length_append]; omega, hid⟩
  distinct := hp.distinct
  stored e he := by
    show StoredAs (L.call s f).after.holds e
    rw [h.holds]
    exact hp.stored e he
  accepted := h.accepted.trans hp.accepted
  made := by
    rw [made_log, made_nil, List.append_nil, hp.made]
    intro b hb
    rw [h.holds] at hb
    exact List.mem_map_of_mem hb

/-- The id the next call draws is not in the store. -/
theorem fresh (hp : Progress L w₀ s entries charges) (hfresh : L.FreshIds w₀) :
    (L.env s.calls.length).deps.newId ∉ s.world.holds.map (·.bookingId) := by
  intro hmem
  obtain ⟨b, hb, hid⟩ := List.mem_map.mp hmem
  rcases hp.drawn b hb with hold | ⟨n, hn, hn'⟩
  · rw [hid] at hold
    exact hfresh.new _ hold
  · have hsame := hfresh.inj _ _ (hid.symm.trans hn')
    omega

/-- **A hold that was made.** -/
theorem makes (hp : Progress L w₀ s entries charges) (hfresh : L.FreshIds w₀) (hnone : ∀ e ∈ entries, e.2 ≠ .held)
    {f : Fetch} {q : HoldParams} {h : Hold} (hm : Makes (L.env s.calls.length) q s.world (L.call s f).after h) :
    (L.call s f).made = [h.bookingId] ∧ Progress L w₀ (s.log (L.call s f)) (entries ++ [(h, .held)]) charges := by
  have hnew : h.bookingId ∉ (s.world.swept (L.env s.calls.length).deps.now).map (·.bookingId) := by
    rw [ids_swept, hm.id]
    exact hp.fresh hfresh
  have hk := keyed_swept hp.keyed (L.env s.calls.length).deps.now
  have hholds : (L.call s f).after.holds = s.world.swept (L.env s.calls.length).deps.now ++ [h] :=
    (MemoryRepo.addHold_ok hm.added).1.trans (put_of_fresh hnew)
  have hmade : (L.call s f).made = [h.bookingId] := by
    unfold CheckoutCall.made
    rw [hholds, List.map_append, ids_swept, List.filter_append]
    have hnone : (s.world.holds.map (·.bookingId)).filter
        (fun id => id ∉ (L.call s f).before.holds.map (·.bookingId)) = [] := by
      rw [List.filter_eq_nil_iff]
      intro id hid
      simpa [LiveLine.call] using hid
    have hkept : decide (h.bookingId ∉ (L.call s f).before.holds.map (·.bookingId)) = true := by
      rw [ids_swept] at hnew
      simpa [LiveLine.call] using hnew
    rw [hnone, List.nil_append, List.map_singleton, List.filter_singleton, hkept, cond_true]
  refine ⟨hmade, ?_, ?_, ?_, ?_, hm.accepted.trans hp.accepted, ?_⟩
  · show Keyed _ (L.call s f).after.holds
    rw [(MemoryRepo.addHold_ok hm.added).1]
    exact put_keyed hk h
  · intro b hb
    change b ∈ (L.call s f).after.holds at hb
    rw [hholds] at hb
    rcases List.mem_append.mp hb with hb | hb
    · obtain ⟨b₀, hb₀, rfl⟩ := mem_swept.mp hb
      rw [MemoryRepo.retire_bookingId]
      rcases hp.drawn b₀ hb₀ with hold | ⟨n, hn, hid⟩
      · exact Or.inl hold
      · exact Or.inr ⟨n, by simp only [Batch.log, List.length_append]; omega, hid⟩
    · rw [List.mem_singleton.mp hb]
      exact Or.inr ⟨s.calls.length, by simp [Batch.log], hm.id⟩
  · -- the sweep keeps every id, so an entry with the new id would have been stored before
    rw [List.map_append]
    refine List.nodup_append.mpr ⟨hp.distinct, List.nodup_singleton _, ?_⟩
    intro id hid id' hid' heq
    obtain ⟨e, he, rfl⟩ := List.mem_map.mp hid
    obtain ⟨status, -, hmem⟩ := (hp.stored e he).swept (hnone e he) (L.env s.calls.length).deps.now
    rw [List.mem_singleton.mp hid'] at heq
    exact hnew (List.mem_map.mpr ⟨_, hmem, heq⟩)
  · intro e he
    show StoredAs (L.call s f).after.holds e
    rw [hholds]
    rcases List.mem_append.mp he with he | he
    · obtain ⟨status, hallows, hmem⟩ := (hp.stored e he).swept (hnone e he) (L.env s.calls.length).deps.now
      exact ⟨status, hallows, List.mem_append_left _ hmem⟩
    · rw [List.mem_singleton.mp he]
      refine ⟨.held, rfl, List.mem_append_right _ (List.mem_singleton.mpr ?_)⟩
      rw [← hm.held]
  · rw [made_log, hp.made, hmade, List.map_append]
    rfl

/-- Going on, a booking just made is one that waits. -/
theorem wait (hp : Progress L w₀ s (xs ++ [(b, .held)]) charges) :
    Progress L w₀ s (xs ++ [(b, .waiting)]) charges := by
  refine ⟨hp.keyed, hp.drawn, ?_, fun e he => ?_, hp.accepted, ?_⟩
  · have hids := hp.distinct
    rw [List.map_append] at hids ⊢
    exact hids
  · rcases List.mem_append.mp he with he | he
    · exact hp.stored e (List.mem_append_left _ he)
    · obtain ⟨status, hheld, hmem⟩ := hp.stored (b, .held) (List.mem_append_right _ (List.mem_singleton.mpr rfl))
      rw [List.mem_singleton.mp he]
      exact ⟨status, Or.inl hheld, hmem⟩
  · rw [hp.made, List.map_append, List.map_append]
    rfl

/-- What a call leaves when it rewrites one of the bookings. -/
theorem rewrite (hp : Progress L w₀ s (xs ++ (b, phase) :: ys) charges) (phase' : Phase) (status : BookingStatus)
    {base : List Hold} {more : List (String × Money)} {f : Fetch} (hallows : phase'.allows status)
    (hk : Keyed MemoryRepo.idOf base) (hids : base.map (·.bookingId) = s.world.holds.map (·.bookingId))
    (hothers : ∀ e ∈ xs ++ (b, phase) :: ys, StoredAs base e)
    (hholds : (L.call s f).after.holds = put MemoryRepo.idOf { b with status := status } base)
    (haccepted : (L.call s f).after.accepted = s.world.accepted ++ more) :
    (L.call s f).made = [] ∧ Progress L w₀ (s.log (L.call s f)) (xs ++ (b, phase') :: ys) (charges ++ more) := by
  have hsame : (xs ++ (b, phase') :: ys).map (·.1.bookingId) = (xs ++ (b, phase) :: ys).map (·.1.bookingId) := by
    rw [List.map_append, List.map_append]
    rfl
  have hb : b.bookingId ∈ base.map (·.bookingId) := by
    obtain ⟨st, -, hmem⟩ := hothers (b, phase) (List.mem_append_right _ List.mem_cons_self)
    exact List.mem_map.mpr ⟨_, hmem, rfl⟩
  have hold : ∀ h ∈ (L.call s f).after.holds, h.bookingId ∈ s.world.holds.map (·.bookingId) := by
    intro h hh
    rw [hholds] at hh
    rw [← hids]
    rcases (mem_put hk).mp hh with rfl | ⟨hh, -⟩
    · exact hb
    · exact List.mem_map_of_mem hh
  have hmade : (L.call s f).made = [] := made_nil hold
  refine ⟨hmade, ?_, ?_, ?_, ?_, ?_, ?_⟩
  · show Keyed _ (L.call s f).after.holds
    rw [hholds]
    exact put_keyed hk _
  · intro h hh
    obtain ⟨h₀, hh₀, hid⟩ := List.mem_map.mp (hold h hh)
    rw [← hid]
    rcases hp.drawn h₀ hh₀ with hold | ⟨n, hn, hn'⟩
    · exact Or.inl hold
    · exact Or.inr ⟨n, by simp only [Batch.log, List.length_append]; omega, hn'⟩
  · rw [hsame]
    exact hp.distinct
  · intro e he
    show StoredAs (L.call s f).after.holds e
    rw [hholds]
    have hdistinct := hp.distinct
    rw [List.map_append, List.map_cons] at hdistinct
    -- the ids are distinct, so every other entry is stored under another id than the one written
    have hother : e ∈ xs ++ ys → StoredAs (put MemoryRepo.idOf { b with status := status } base) e := by
      intro he'
      have hne : e.1.bookingId ≠ b.bookingId := by
        have hcons := (List.nodup_middle.mp hdistinct)
        rw [← List.map_append] at hcons
        exact fun heq => (List.nodup_cons.mp hcons).1 (heq ▸ List.mem_map.mpr ⟨e, he', rfl⟩)
      refine (hothers e ?_).put hk hne
      rcases List.mem_append.mp he' with he' | he'
      · exact List.mem_append_left _ he'
      · exact List.mem_append_right _ (List.mem_cons_of_mem _ he')
    rcases List.mem_append.mp he with he | he
    · exact hother (List.mem_append_left _ he)
    · rcases List.mem_cons.mp he with rfl | he
      · exact ⟨status, hallows, (mem_put hk).mpr (Or.inl rfl)⟩
      · exact hother (List.mem_append_right _ he)
  · show (L.call s f).after.accepted = _
    rw [haccepted, hp.accepted, List.append_assoc]
  · rw [made_log, hmade, List.append_nil, hp.made, hsame]

/-- The stored booking of an id of the batch. -/
theorem found (hp : Progress L w₀ s (xs ++ (b, phase) :: ys) charges) {h : Hold}
    (hfound : lookup MemoryRepo.idOf b.bookingId s.world.holds = some h) : h = { b with status := h.status } :=
  ((hp.stored (b, phase) (List.mem_append_right _ List.mem_cons_self)).eq hp.keyed (lookup_some_mem hfound)
    (lookup_some_key hfound)).2

/-- **A confirm that got as far as the commit.** -/
theorem pays (hp : Progress L w₀ s (xs ++ (b, phase) :: ys) charges)
    (hnone : ∀ e ∈ xs ++ (b, phase) :: ys, e.2 ≠ .held) {f : Fetch} {h : Hold}
    (hpays : Pays (L.env s.calls.length) b.bookingId s.world (L.call s f).after h) :
    (L.call s f).made = [] ∧
      Progress L w₀ (s.log (L.call s f)) (xs ++ (b, .paid) :: ys) (charges ++ [b.charge]) := by
  have hb := hp.found hpays.found
  refine hp.rewrite .paid .confirmed rfl (keyed_swept hp.keyed (L.env s.calls.length).deps.now) (ids_swept _ _)
    (fun e he => (hp.stored e he).swept (hnone e he) _) ?_ ?_
  · rw [hpays.holds, hb]
  · rw [hpays.accepted, hb]
    rfl

/-- **A cancel that was committed.** -/
theorem cancels (hp : Progress L w₀ s (xs ++ (b, phase) :: ys) charges) {f : Fetch} {h : Hold}
    (hcancels : Cancels b.bookingId s.world (L.call s f).after h) :
    (L.call s f).made = [] ∧ Progress L w₀ (s.log (L.call s f)) (xs ++ (b, .released) :: ys) charges := by
  have hb := hp.found hcancels.found
  have hrewritten := hp.rewrite .released .cancelled rfl hp.keyed rfl hp.stored
    (hcancels.holds.trans (by rw [hb])) (hcancels.accepted.trans (List.append_nil _).symm)
  rwa [List.append_nil] at hrewritten

end Progress

/-! ## The loops of the checkout -/

/-- What the wizard keeps of a hold. -/
def heldOf (L : LiveLine) (b : Hold) : Held := ⟨b.seatId, BookingOut.of b L.settings.currency⟩

namespace CheckoutCall

/-- A hold the wizard heard of as this booking. -/
structure Got (currency : String) (c : CheckoutCall) (b : Hold) : Prop where
  fetch : ∃ q key, c.fetch = .hold q key ∧ b.seatId = q.seatId ∧ b.tripId = q.tripId ∧ b.leg.originSeq = q.originSeq ∧
    b.leg.destSeq = q.destSeq
  heard : c.booking? = some (BookingOut.of b currency)

/-- A hold the wizard saw fail. -/
structure Missed (c : CheckoutCall) : Prop where
  fetch : ∃ q key, c.fetch = .hold q key
  ended : c.succeeded = false

/-- The booking is paid for, the wizard has heard of it, and the row of its seat is there. -/
structure Paid (c : CheckoutCall) (b : Hold) : Prop where
  fetch   : c.fetch = .confirm b.bookingId
  charged : c.charged = true
  ended   : c.succeeded = true
  row     : (c.flow.passenger b.seatId).isSome = true

/-- The payment loop stops at this booking. -/
structure Stops (c : CheckoutCall) (b : Hold) : Prop where
  fetch : c.fetch = .confirm b.bookingId
  ended : (c.succeeded && (c.flow.passenger b.seatId).isSome) = false

variable {c : CheckoutCall} {currency : String} {b : Hold}

theorem succeeded_eq {α : Type} {read : Response Body → Except ApiError α}
    (hread : ∀ response, c.fetch.accepts response = (read response).isOk) :
    c.succeeded = (c.heard >>= read).isOk := by
  unfold succeeded
  cases c.heard with
  | ok response => exact hread response
  | error e => rfl

theorem booking?_of_read {q : HoldParams} {key : String} {booking : BookingOut} (hfetch : c.fetch = .hold q key)
    (hread : c.heard >>= readHold = .ok booking) : c.booking? = some booking := by
  unfold booking?
  rw [hfetch]
  cases hheard : c.heard with
  | error e =>
    rw [hheard] at hread
    cases hread
  | ok response =>
    rw [hheard] at hread
    change readHold response = .ok booking at hread
    show (readHold response).toOption = some booking
    rw [hread]
    rfl

theorem Got.succeeded (h : c.Got currency b) : c.succeeded = true := by
  obtain ⟨q, key, hfetch, -⟩ := h.fetch
  have hheard := h.heard
  unfold booking? at hheard
  unfold CheckoutCall.succeeded
  rw [hfetch] at hheard ⊢
  cases hresponse : c.heard with
  | error e =>
    rw [hresponse] at hheard
    cases hheard
  | ok response =>
    rw [hresponse] at hheard
    change (readHold response).toOption = _ at hheard
    show (readHold response).isOk = true
    cases hread : readHold response with
    | error e =>
      rw [hread] at hheard
      cases hheard
    | ok booking => rfl

theorem Got.asksFor_iff (h : c.Got currency b) (train : Train) : c.asksFor train = true ↔ train.Carries b := by
  obtain ⟨q, key, hfetch, -, htrip, horigin, hdest⟩ := h.fetch
  unfold asksFor
  rw [hfetch]
  simp only [Fetch.hold?, Option.any_some, Bool.and_eq_true, decide_eq_true_eq, and_assoc]
  constructor
  · rintro ⟨htrip', horigin', hdest'⟩
    exact ⟨htrip.trans htrip', horigin.trans horigin', hdest.trans hdest'⟩
  · rintro ⟨htrip', horigin', hdest'⟩
    exact ⟨htrip.symm.trans htrip', horigin.symm.trans horigin', hdest.symm.trans hdest'⟩

/-! ### When a call is charged -/

/-- A booking paid for without the gateway being asked is none. -/
theorem not_charged_of_same (h : World.Same c.before c.after) : c.charged = false := by
  unfold charged
  rw [h.accepted]
  exact decide_eq_false (Nat.lt_irrefl _)

theorem charged_of_pays {env : Env} {id : String} (h : Pays env id c.before c.after b) : c.charged = true := by
  unfold charged
  rw [h.accepted, List.length_append, List.length_singleton]
  exact decide_eq_true (Nat.lt_succ_self _)

end CheckoutCall

section Loops

variable {L : LiveLine} {w₀ : World}

/-- How the hold loop ends, after the bookings `bs`: with every seat held, at the first call that fails, which may have
    left a booking behind, or at a seat whose row or train is gone. -/
inductive HoldsEnd (L : LiveLine) (w₀ : World) (s' : Batch) (bs new : List Hold) (cs : List CheckoutCall)
    (seatIds : List String) : Option (ApiError × String) → Prop where
  | all (seats : new.map (·.seatId) = seatIds) (got : List.Forall₂ (CheckoutCall.Got L.settings.currency) cs new)
      (progress : Progress L w₀ s' ((bs ++ new).map fun b => (b, .waiting)) []) : HoldsEnd L w₀ s' bs new cs seatIds none
  | failed {before : List CheckoutCall} {c : CheckoutCall} {stray : List Hold} {failure : ApiError × String}
      (calls : cs = before ++ [c]) (got : List.Forall₂ (CheckoutCall.Got L.settings.currency) before new)
      (short : new.length < seatIds.length) (missed : c.Missed) (made : c.made = stray.map (·.bookingId))
      (progress : Progress L w₀ s' (((bs ++ new).map fun b => (b, .waiting)) ++ stray.map fun b => (b, .held)) []) :
      HoldsEnd L w₀ s' bs new cs seatIds (some failure)
  | unsent {failure : ApiError × String} (got : List.Forall₂ (CheckoutCall.Got L.settings.currency) cs new)
      (short : new.length < seatIds.length)
      (progress : Progress L w₀ s' ((bs ++ new).map fun b => (b, .waiting)) []) :
      HoldsEnd L w₀ s' bs new cs seatIds (some failure)

/-- Whether or not a call got through: nothing has happened, or what serving it does. -/
theorem same_or_did {s : Batch} (f : Fetch) (did : World → Prop)
    (h : World.Same s.world (handle L.settings (L.env s.calls.length) f.request s.world).2 ∨
      did (handle L.settings (L.env s.calls.length) f.request s.world).2) :
    World.Same s.world (L.call s f).after ∨ did (L.call s f).after := by
  show World.Same s.world (L.reply s.calls.length f s.world).2 ∨ did (L.reply s.calls.length f s.world).2
  rcases reply_world (L := L.toLine) (n := s.calls.length) (f := f) (w := s.world) with hworld | hworld
  · rw [hworld]
    exact Or.inl ⟨rfl, rfl, rfl⟩
  · rw [hworld]
    exact h

/-- One hold of the loop: made and heard of, or failed, with or without a booking left behind. -/
theorem call_hold (s : Batch) (q : HoldParams) (key : String) :
    (∃ h, (L.call s (.hold q key)).heard >>= readHold = .ok (BookingOut.of h L.settings.currency) ∧
        (L.call s (.hold q key)).Got L.settings.currency h ∧
        Makes (L.env s.calls.length) q s.world (L.call s (.hold q key)).after h) ∨
      ∃ err, (L.call s (.hold q key)).heard >>= readHold = .error err ∧ (L.call s (.hold q key)).Missed ∧
        (World.Same s.world (L.call s (.hold q key)).after ∨
          ∃ h, Makes (L.env s.calls.length) q s.world (L.call s (.hold q key)).after h) := by
  cases hread : (L.call s (.hold q key)).heard >>= readHold with
  | ok booking =>
      obtain ⟨hserved, hworld⟩ := reply_ok hread
      rcases serve_hold q key with ⟨h, hm, hout⟩ | ⟨-, hno⟩
      · rw [hout] at hserved
        rw [← hworld] at hm
        rw [← Except.ok.inj hserved] at hread
        exact Or.inl ⟨h, by rw [Except.ok.inj hserved], ⟨⟨q, key, rfl, hm.seatId, hm.tripId, hm.origin, hm.dest⟩,
          CheckoutCall.booking?_of_read rfl hread⟩, hm⟩
      · exact absurd hserved (hno booking)
  | error err =>
      have hsucceeded : (L.call s (.hold q key)).succeeded = ((L.call s (.hold q key)).heard >>= readHold).isOk :=
        CheckoutCall.succeeded_eq fun _ => rfl
      rw [hread] at hsucceeded
      refine Or.inr ⟨err, rfl, ⟨⟨q, key, rfl⟩, hsucceeded⟩, ?_⟩
      refine same_or_did (.hold q key) (fun w => ∃ h, Makes (L.env s.calls.length) q s.world w h) ?_
      rcases serve_hold q key with ⟨h, hm, -⟩ | ⟨hsame, -⟩
      · exact Or.inr ⟨h, hm⟩
      · exact Or.inl hsame

/-! ### The loops

Induction on the seats still to be held, on the bookings still to be paid, and on the bookings still to be given back.
Before each round the flow may have changed under the loop; only the bookings made are carried along. -/

theorem run_holdAll (hfresh : L.FreshIds w₀) : ∀ (seatIds : List String) (bs : List Hold) {s : Batch},
    Progress L w₀ s (bs.map fun b => (b, .waiting)) [] → ∃ new failed s' cs,
      (holdAll seatIds (bs.map (heldOf L))).run L.exec s = (.ok ((bs ++ new).map (heldOf L), failed), s') ∧
      s'.calls = s.calls ++ cs ∧ HoldsEnd L w₀ s' bs new cs seatIds failed
  | [], bs, s, hp => by
      have hnone : (bs ++ []).map (fun b => (b, Phase.waiting)) = bs.map fun b => (b, .waiting) := by
        rw [List.append_nil]
      refine ⟨[], none, s, [], ?_, (List.append_nil _).symm, .all rfl .nil (hnone ▸ hp)⟩
      rw [List.append_nil]
      rfl
  | seatId :: rest, bs, s, hp => by
      have hwaiting : ∀ e ∈ bs.map fun b => (b, Phase.waiting), e.2 ≠ .held := by
        intro e he
        obtain ⟨b, -, rfl⟩ := List.mem_map.mp he
        exact Phase.noConfusion
      have hsame : (bs ++ []).map (fun b => (b, Phase.waiting)) = bs.map fun b => (b, .waiting) := by
        rw [List.append_nil]
      have hshort : ([] : List Hold).length < (seatId :: rest).length := Nat.succ_pos _
      have hstop : ∀ {err : ApiError} {s' : Batch}, (holdSeatOf seatId).run L.exec s = (.error err, s') →
          (holdAll (seatId :: rest) (bs.map (heldOf L))).run L.exec s =
            (.ok ((bs ++ []).map (heldOf L), some (err, seatId)), s') := by
        intro err s' hseat
        show (Prog.bind (S := Web) _ _).run L.exec s = _
        rw [Prog.run_bind, Prog.run_attempt, hseat, List.append_nil]
        rfl
      cases hargs : s.flow.holdArgs seatId with
      | error err =>
        -- the row of the seat or the train is gone from the flow: nothing is sent
        exact ⟨[], _, s, [], hstop (run_holdSeatOf_unsent rfl hargs), (List.append_nil _).symm,
          .unsent .nil hshort (hsame ▸ hp)⟩
      | ok q =>
        have hseat : (holdSeatOf seatId).run L.exec s = ((L.call s (.hold q (holdKey q))).heard >>= readHold,
          s.log (L.call s (.hold q (holdKey q)))) := run_holdSeatOf rfl hargs
        rcases call_hold (L := L) s q (holdKey q) with ⟨h, hread, hgot, hm⟩ | ⟨err, hread, hmissed, hdid⟩
        · -- the booking joins the list, and the loop goes on
          rw [hread] at hseat
          have hp' := (hp.makes hfresh hwaiting hm).2.wait
          have hentries : (bs ++ [h]).map (fun b => (b, Phase.waiting)) =
            (bs.map fun b => (b, .waiting)) ++ [(h, .waiting)] := List.map_append
          rw [← hentries] at hp'
          have hseatId : h.seatId = seatId := by
            obtain ⟨train, passenger, -, -, rfl⟩ := Flow.holdArgs_ok hargs
            exact hm.seatId
          have hheld : bs.map (heldOf L) ++ [⟨seatId, BookingOut.of h L.settings.currency⟩] =
              (bs ++ [h]).map (heldOf L) := by
            rw [List.map_append, List.map_singleton, heldOf, hseatId]
          obtain ⟨new, failed, s', cs, hrest, hcalls, hend⟩ := run_holdAll hfresh rest (bs ++ [h]) hp'
          have hall : (bs ++ [h]) ++ new = bs ++ h :: new := List.append_assoc bs [h] new
          refine ⟨h :: new, failed, s', L.call s (.hold q (holdKey q)) :: cs, ?_,
            hcalls.trans (List.append_assoc ..), ?_⟩
          · show (Prog.bind (S := Web) _ _).run L.exec s = _
            rw [Prog.run_bind, Prog.run_attempt, hseat, ← hall]
            show (holdAll rest (bs.map (heldOf L) ++ [⟨seatId, BookingOut.of h L.settings.currency⟩])).run L.exec _ = _
            rw [hheld]
            exact hrest
          · cases hend with
            | all seats got progress =>
              exact .all (by rw [List.map_cons, hseatId, seats]) (.cons hgot got) (hall ▸ progress)
            | failed calls got short missed made progress =>
              exact .failed (congrArg (L.call s (.hold q (holdKey q)) :: ·) calls) (.cons hgot got)
                (Nat.succ_lt_succ short) missed made (hall ▸ progress)
            | unsent got short progress => exact .unsent (.cons hgot got) (Nat.succ_lt_succ short) (hall ▸ progress)
        · rw [hread] at hseat
          -- the hold was not carried out, or it was and the answer is lost
          rcases hdid with hnothing | ⟨h, hm⟩
          · have hmade : (L.call s (.hold q (holdKey q))).made = ([] : List Hold).map (·.bookingId) :=
              made_nil fun b hb => by
                rw [hnothing.holds] at hb
                exact List.mem_map_of_mem hb
            refine ⟨[], _, _, [L.call s (.hold q (holdKey q))], hstop hseat, rfl,
              .failed (List.nil_append _).symm .nil hshort hmissed hmade ?_⟩
            rw [hsame, List.map_nil, List.append_nil]
            exact hp.same hnothing
          · obtain ⟨hmade, hp'⟩ := hp.makes hfresh hwaiting hm
            have hstray : (L.call s (.hold q (holdKey q))).made = [h].map (·.bookingId) := hmade
            refine ⟨[], _, _, [L.call s (.hold q (holdKey q))], hstop hseat, rfl,
              .failed (List.nil_append _).symm .nil hshort hmissed hstray ?_⟩
            rw [hsame]
            exact hp'

/-- One confirm of the loop: charged and heard of, or failed, with or without the charge. -/
theorem call_confirm (s : Batch) (id : String) :
    (∃ receipt h, (L.call s (.confirm id)).heard >>= readConfirm = .ok receipt ∧
        (L.call s (.confirm id)).succeeded = true ∧
        Pays (L.env s.calls.length) id s.world (L.call s (.confirm id)).after h) ∨
      ∃ err, (L.call s (.confirm id)).heard >>= readConfirm = .error err ∧ (L.call s (.confirm id)).succeeded = false ∧
        (World.Same s.world (L.call s (.confirm id)).after ∨
          ∃ h, Pays (L.env s.calls.length) id s.world (L.call s (.confirm id)).after h) := by
  have hsucceeded : (L.call s (.confirm id)).succeeded = ((L.call s (.confirm id)).heard >>= readConfirm).isOk :=
    CheckoutCall.succeeded_eq fun _ => rfl
  cases hread : (L.call s (.confirm id)).heard >>= readConfirm with
  | ok receipt =>
      rw [hread] at hsucceeded
      obtain ⟨hserved, hworld⟩ := reply_ok hread
      rcases serve_confirm id with ⟨h, hpays⟩ | ⟨-, hno⟩
      · rw [← hworld] at hpays
        exact Or.inl ⟨receipt, h, rfl, hsucceeded, hpays⟩
      · exact absurd hserved (hno receipt)
  | error err =>
      rw [hread] at hsucceeded
      refine Or.inr ⟨err, rfl, hsucceeded, ?_⟩
      refine same_or_did (.confirm id) (fun w => ∃ h, Pays (L.env s.calls.length) id s.world w h) ?_
      rcases serve_confirm id with hpays | ⟨hsame, -⟩
      · exact Or.inr hpays
      · exact Or.inl hsame

/-- A cancel that succeeded. -/
theorem call_cancel {s : Batch} {id : String} (h : (L.call s (.cancel id)).succeeded = true) :
    ∃ b, Cancels id s.world (L.call s (.cancel id)).after b := by
  have hsucceeded : (L.call s (.cancel id)).succeeded = ((L.call s (.cancel id)).heard >>= readCancel).isOk :=
    CheckoutCall.succeeded_eq fun _ => rfl
  rw [h] at hsucceeded
  cases hread : (L.call s (.cancel id)).heard >>= readCancel with
  | error err =>
      rw [hread] at hsucceeded
      cases hsucceeded
  | ok booking =>
      obtain ⟨hserved, hworld⟩ := reply_ok hread
      rcases serve_cancel id with hcancels | ⟨-, hno⟩
      · rw [← hworld] at hcancels
        exact hcancels
      · exact absurd hserved (hno booking)

/-- How the payment loop ends, after the bookings `paid`: with every booking paid, or at the first confirm that fails or
    finds its seat's row gone. That booking may have been charged for. -/
inductive ConfirmsEnd (L : LiveLine) (w₀ : World) (s' : Batch) (paid todo : List Hold) (cs : List CheckoutCall)
    (seatIds : List String) : Except ApiError (List Ticket) → Prop where
  | all {tickets : List Ticket} (seats : tickets.map Ticket.seatId = seatIds)
      (good : List.Forall₂ CheckoutCall.Paid cs todo)
      (progress : Progress L w₀ s' ((paid ++ todo).map fun b => (b, .paid)) ((paid ++ todo).map Hold.charge)) :
      ConfirmsEnd L w₀ s' paid todo cs seatIds (.ok tickets)
  | stopped {before : List CheckoutCall} {c : CheckoutCall} {done rest : List Hold} {b : Hold} {phase : Phase}
      {last : List (String × Money)} {err : ApiError} (calls : cs = before ++ [c])
      (good : List.Forall₂ CheckoutCall.Paid before done) (stops : c.Stops b) (split : todo = done ++ b :: rest)
      (cost : (last.map (·.2.cents)).sum = if c.charged then b.fareCents else 0)
      (progress : Progress L w₀ s'
        (((paid ++ done).map fun b => (b, .paid)) ++ (b, phase) :: rest.map fun b => (b, .waiting))
        ((paid ++ done).map Hold.charge ++ last)) : ConfirmsEnd L w₀ s' paid todo cs seatIds (.error err)

/-- The loop stops at its first booking. -/
theorem ConfirmsEnd.first {s' : Batch} {paid rest : List Hold} {c : CheckoutCall} {b : Hold} {seatIds : List String}
    {err : ApiError} {phase : Phase} {last : List (String × Money)} (stops : c.Stops b)
    (cost : (last.map (·.2.cents)).sum = if c.charged then b.fareCents else 0)
    (progress : Progress L w₀ s' ((paid.map fun b => (b, .paid)) ++ (b, phase) :: rest.map fun b => (b, .waiting))
      (paid.map Hold.charge ++ last)) : ConfirmsEnd L w₀ s' paid (b :: rest) [c] seatIds (.error err) := by
  have hprogress : Progress L w₀ s'
      (((paid ++ []).map fun b => (b, .paid)) ++ (b, phase) :: rest.map fun b => (b, .waiting))
      ((paid ++ []).map Hold.charge ++ last) := by
    rw [List.append_nil]
    exact progress
  exact .stopped (List.nil_append _).symm .nil stops rfl cost hprogress

theorem run_confirmAll : ∀ (todo paid : List Hold) (tickets : List Ticket) {s : Batch},
    Progress L w₀ s ((paid.map fun b => (b, .paid)) ++ todo.map fun b => (b, .waiting)) (paid.map Hold.charge) →
    ∃ x s' cs, (confirmAll (todo.map (heldOf L)) tickets).run L.exec s = (x, s') ∧ s'.calls = s.calls ++ cs ∧
      ConfirmsEnd L w₀ s' paid todo cs (tickets.map Ticket.seatId ++ todo.map (·.seatId)) x
  | [], paid, tickets, s, hp => by
      rw [List.map_nil, List.append_nil] at hp
      refine ⟨.ok tickets, s, [], rfl, (List.append_nil _).symm, .all (List.append_nil _).symm .nil ?_⟩
      rw [List.append_nil]
      exact hp
  | b :: rest, paid, tickets, s, hp => by
      have hphases : ∀ e ∈ (paid.map fun b => (b, Phase.paid)) ++ (b, .waiting) :: rest.map fun b => (b, .waiting),
          e.2 ≠ .held := by
        intro e he
        rcases List.mem_append.mp he with he | he
        · obtain ⟨x, -, rfl⟩ := List.mem_map.mp he
          exact Phase.noConfusion
        · rcases List.mem_cons.mp he with rfl | he
          · exact Phase.noConfusion
          · obtain ⟨x, -, rfl⟩ := List.mem_map.mp he
            exact Phase.noConfusion
      generalize hc : L.call s (.confirm b.bookingId) = c
      have hfetch : c.fetch = .confirm b.bookingId := by rw [← hc]; rfl
      have hseat : (confirmSeatOf (heldOf L b)).run L.exec s = ((c.heard >>= readConfirm) >>= fun receipt =>
          (c.flow.row b.seatId).map fun p => ⟨b.seatId, p.childOfSeatId, receipt⟩, s.log c) := by
        rw [← hc]
        exact run_confirmSeatOf (heldOf L b) rfl rfl
      have hstop : ∀ {err : ApiError}, (confirmSeatOf (heldOf L b)).run L.exec s = (.error err, s.log c) →
          (confirmAll ((b :: rest).map (heldOf L)) tickets).run L.exec s = (.error err, s.log c) := by
        intro err herr
        show (Prog.bind (S := Web) _ _).run L.exec s = _
        rw [Prog.run_bind, herr]
      have hpaid : ∀ {h}, Pays (L.env s.calls.length) b.bookingId s.world c.after h →
          Progress L w₀ (s.log c) ((paid.map fun b => (b, .paid)) ++ (b, .paid) :: rest.map fun b => (b, .waiting))
            (paid.map Hold.charge ++ [b.charge]) ∧ c.charged = true ∧
            (([b.charge].map (·.2.cents)).sum = if c.charged then b.fareCents else 0) := by
        intro h hpays
        have hcharged : c.charged = true := by
          rw [← hc] at hpays ⊢
          exact CheckoutCall.charged_of_pays hpays
        rw [← hc] at hpays
        refine ⟨?_, hcharged, ?_⟩
        · rw [← hc]
          exact (hp.pays hphases hpays).2
        · rw [if_pos hcharged]
          simp [Hold.charge]
      rcases call_confirm (L := L) s b.bookingId with ⟨receipt, h, hread, hgood, hpays⟩ | ⟨err, hread, hbad, hdid⟩
      · -- paid and heard of, but the loop still has to read the row of the seat
        rw [hc] at hread hgood hpays
        obtain ⟨hp', hcharged, hcost⟩ := hpaid hpays
        rw [hread] at hseat
        cases hrow : c.flow.passenger b.seatId with
        | none =>
          -- the seat has left the cart while its payment was under way
          have hraises : c.flow.row b.seatId = .error typeError := by
            unfold Flow.row
            rw [hrow]
          change _ = ((c.flow.row b.seatId).map _, _) at hseat
          rw [hraises] at hseat
          have hstops : c.Stops b := ⟨hfetch, by rw [hrow, hgood]; rfl⟩
          exact ⟨.error typeError, s.log c, [c], hstop hseat, rfl, .first hstops hcost hp'⟩
        | some passenger =>
          have hticket : c.flow.row b.seatId = .ok passenger := by
            unfold Flow.row
            rw [hrow]
          change _ = ((c.flow.row b.seatId).map _, _) at hseat
          rw [hticket] at hseat
          have hmoved : Progress L w₀ (s.log c)
              (((paid ++ [b]).map fun b => (b, .paid)) ++ rest.map fun b => (b, .waiting))
              ((paid ++ [b]).map Hold.charge) := by
            rw [List.map_append, List.map_append, List.append_assoc]
            exact hp'
          obtain ⟨x, s', cs, hrest, hcalls, hend⟩ :=
            run_confirmAll rest (paid ++ [b]) (tickets ++ [⟨b.seatId, passenger.childOfSeatId, receipt⟩]) hmoved
          have hseats : (tickets ++ [Ticket.mk b.seatId passenger.childOfSeatId receipt]).map Ticket.seatId ++
              rest.map (·.seatId) = tickets.map Ticket.seatId ++ (b :: rest).map (·.seatId) := by
            rw [List.map_append, List.append_assoc]
            rfl
          rw [hseats] at hend
          have hone : c.Paid b := ⟨hfetch, hcharged, hgood, by rw [hrow]; rfl⟩
          refine ⟨x, s', c :: cs, ?_, hcalls.trans (List.append_assoc ..), ?_⟩
          · show (Prog.bind (S := Web) _ _).run L.exec s = _
            rw [Prog.run_bind, show (confirmSeatOf (heldOf L b)).run L.exec s = _ from hseat]
            exact hrest
          · cases hend with
            | all seats good progress =>
              exact .all seats (.cons hone good) (List.append_assoc paid [b] rest ▸ progress)
            | @stopped before c' done rest' b' phase last err calls good stops split cost progress =>
              have hall : (paid ++ [b]) ++ done = paid ++ b :: done := List.append_assoc paid [b] done
              rw [hall] at progress
              exact .stopped (congrArg (c :: ·) calls) (.cons hone good) stops (congrArg (b :: ·) split) cost progress
      · rw [hc] at hread hbad hdid
        rw [hread] at hseat
        have hstops : c.Stops b := ⟨hfetch, by rw [hbad, Bool.false_and]⟩
        -- refused without a charge, or charged and the answer lost
        rcases hdid with hsame | ⟨h, hpays⟩
        · have huncharged : c.charged = false := by
            rw [← hc] at hsame ⊢
            exact CheckoutCall.not_charged_of_same hsame
          have hcost : ((([] : List (String × Money)).map (·.2.cents)).sum = if c.charged then b.fareCents else 0) := by
            rw [huncharged]
            rfl
          have hp' : Progress L w₀ (s.log c)
              ((paid.map fun b => (b, .paid)) ++ (b, .waiting) :: rest.map fun b => (b, .waiting))
              (paid.map Hold.charge ++ []) := by
            rw [← hc] at hsame ⊢
            rw [List.append_nil]
            exact hp.same hsame
          exact ⟨.error err, s.log c, [c], hstop hseat, rfl, .first hstops hcost hp'⟩
        · obtain ⟨hp', -, hcost⟩ := hpaid hpays
          exact ⟨.error err, s.log c, [c], hstop hseat, rfl, .first hstops hcost hp'⟩

/-- One cancel; whether it fails makes no difference to the loop. -/
theorem run_releaseAll_cons (h : Held) (rest : List Held) (s : Batch) : (releaseAll (h :: rest)).run L.exec s =
    (releaseAll rest).run L.exec (s.log (L.call s (.cancel h.booking.bookingId))) := by
  show (Prog.bind (S := Web) _ _).run L.exec s = _
  rw [Prog.run_bind, Prog.run_attempt,
    show (Api.cancel h.booking.bookingId).run L.exec s = _ from run_method L.exec readCancel _ s]
  rfl

/-- The release loop sends nothing but cancels, and never fails. -/
theorem run_releaseAll_calls : ∀ (held : List Held) (s : Batch), ∃ s' cs,
    (releaseAll held).run L.exec s = (.ok (), s') ∧ s'.calls = s.calls ++ cs ∧ ∀ c ∈ cs, ∃ id, c.fetch = .cancel id
  | [], s => ⟨s, [], rfl, (List.append_nil _).symm, fun c hc => absurd hc List.not_mem_nil⟩
  | h :: rest, s => by
      obtain ⟨s', cs, hrest, hcalls, hall⟩ := run_releaseAll_calls rest (s.log (L.call s (.cancel h.booking.bookingId)))
      exact ⟨s', L.call s (.cancel h.booking.bookingId) :: cs, (run_releaseAll_cons h rest s).trans hrest,
        hcalls.trans (List.append_assoc ..), List.forall_mem_cons.mpr ⟨⟨_, rfl⟩, hall⟩⟩

/-- **Successful cancels release every booking of the loop**, whatever had become of it, and give no charge back. -/
theorem run_releaseAll {charges : List (String × Money)} : ∀ (todo gone others : List (Hold × Phase)) {s s' : Batch},
    Progress L w₀ s (gone ++ (todo ++ others)) charges →
    (releaseAll (todo.map fun e => heldOf L e.1)).run L.exec s = (.ok (), s') → s'.CancelsSucceed →
    Progress L w₀ s' (gone ++ ((todo.map fun e => (e.1, .released)) ++ others)) charges
  | [], gone, others, s, s', hp, hrun, _ => by
      obtain rfl : s = s' := (Prod.mk.inj hrun).2
      exact hp
  | (b, phase) :: todo, gone, others, s, s', hp, hrun, hcancels => by
      rw [List.map_cons, run_releaseAll_cons] at hrun
      change (releaseAll (todo.map fun e => heldOf L e.1)).run L.exec (s.log (L.call s (.cancel b.bookingId))) = _ at hrun
      -- this cancel is one of the calls of the whole run, which all succeed
      have hsent : (L.call s (.cancel b.bookingId)).succeeded = true := by
        obtain ⟨s'', cs, hrest, hcalls, -⟩ := run_releaseAll_calls (L := L) (todo.map fun e => heldOf L e.1)
          (s.log (L.call s (.cancel b.bookingId)))
        obtain rfl : s'' = s' := (Prod.mk.inj (hrest.symm.trans hrun)).2
        refine hcancels _ ?_ rfl
        rw [hcalls]
        exact List.mem_append_left _ (List.mem_append_right _ (List.mem_singleton.mpr rfl))
      obtain ⟨h, hdone⟩ := call_cancel hsent
      have hp' : Progress L w₀ (s.log (L.call s (.cancel b.bookingId))) ((gone ++ [(b, .released)]) ++ (todo ++ others))
          charges := by
        rw [List.append_assoc]
        exact (hp.cancels hdone).2
      have hrest := run_releaseAll todo (gone ++ [(b, .released)]) others hp' hrun hcancels
      rw [List.append_assoc] at hrest
      exact hrest

end Loops

/-! ## The pattern of a checkout -/

section Pattern

variable {currency : String} {hs cs ds before : List CheckoutCall} {c : CheckoutCall} {bs done rest : List Hold} {b : Hold}

/-- The calls of a checkout that got past its holds: holds, confirms, cancels. -/
structure CallOrder (s : Batch) (hs cs ds : List CheckoutCall) : Prop where
  calls    : s.calls = hs ++ (cs ++ ds)
  confirms : ∀ c ∈ cs, ∃ id, c.fetch = .confirm id
  cancels  : ∀ c ∈ ds, ∃ id, c.fetch = .cancel id

theorem got_of_mem (h : List.Forall₂ (CheckoutCall.Got currency) hs bs) (hc : c ∈ hs) : ∃ b ∈ bs, c.Got currency b := by
  induction h with
  | nil => cases hc
  | @cons c' b' _ _ hgot _ ih =>
    rcases List.mem_cons.mp hc with rfl | hc
    · exact ⟨b', List.mem_cons_self, hgot⟩
    · obtain ⟨b, hb, hgot⟩ := ih hc
      exact ⟨b, List.mem_cons_of_mem _ hb, hgot⟩

theorem call_of_mem (h : List.Forall₂ (CheckoutCall.Got currency) hs bs) (hb : b ∈ bs) :
    ∃ c ∈ hs, c.Got currency b := by
  induction h with
  | nil => cases hb
  | @cons c' b' _ _ hgot _ ih =>
    rcases List.mem_cons.mp hb with rfl | hb
    · exact ⟨c', List.mem_cons_self, hgot⟩
    · obtain ⟨c, hc, hgot⟩ := ih hb
      exact ⟨c, List.mem_cons_of_mem _ hc, hgot⟩

theorem confirm_of_paid (h : List.Forall₂ CheckoutCall.Paid cs bs) : ∀ c ∈ cs, ∃ id, c.fetch = .confirm id := by
  induction h with
  | nil => exact fun c hc => absurd hc List.not_mem_nil
  | cons hpaid _ ih => exact List.forall_mem_cons.mpr ⟨⟨_, hpaid.fetch⟩, ih⟩

namespace CallOrder

variable {s : Batch}

/-- The holds and the confirms, told apart. -/
theorem told (h : CallOrder s hs cs ds) (hgot : List.Forall₂ (CheckoutCall.Got currency) hs bs) :
    s.holds = hs ∧ s.confirms = cs := by
  have hhold : ∀ c ∈ hs, (c.fetch.hold?.isSome && c.succeeded) = true ∧ c.fetch.isConfirm = false := by
    intro c hc
    obtain ⟨b, -, hb⟩ := got_of_mem hgot hc
    obtain ⟨q, key, hfetch, -⟩ := hb.fetch
    rw [hb.succeeded, hfetch]
    exact ⟨rfl, rfl⟩
  have hconfirm : ∀ c ∈ cs, (c.fetch.hold?.isSome && c.succeeded) = false ∧ c.fetch.isConfirm = true := by
    intro c hc
    obtain ⟨id, hfetch⟩ := h.confirms c hc
    rw [hfetch]
    exact ⟨rfl, rfl⟩
  have hcancel : ∀ c ∈ ds, (c.fetch.hold?.isSome && c.succeeded) = false ∧ c.fetch.isConfirm = false := by
    intro c hc
    obtain ⟨id, hfetch⟩ := h.cancels c hc
    rw [hfetch]
    exact ⟨rfl, rfl⟩
  unfold Batch.holds Batch.confirms
  rw [h.calls, List.filter_append, List.filter_append, List.filter_append, List.filter_append,
    List.filter_eq_self.mpr fun c hc => (hhold c hc).1, List.filter_eq_self.mpr fun c hc => (hconfirm c hc).2,
    List.filter_eq_nil_iff.mpr fun c hc => by rw [(hconfirm c hc).1]; exact Bool.false_ne_true,
    List.filter_eq_nil_iff.mpr fun c hc => by rw [(hcancel c hc).1]; exact Bool.false_ne_true,
    List.filter_eq_nil_iff.mpr fun c hc => by rw [(hhold c hc).2]; exact Bool.false_ne_true,
    List.filter_eq_nil_iff.mpr fun c hc => by rw [(hcancel c hc).2]; exact Bool.false_ne_true]
  exact ⟨by rw [List.append_nil, List.append_nil], by rw [List.nil_append, List.append_nil]⟩

/-- No hold of it is lost. -/
theorem heard (h : CallOrder s hs cs ds) (hgot : List.Forall₂ (CheckoutCall.Got currency) hs bs) :
    ∀ c ∈ s.calls, c.lost = false := by
  intro c hc
  rw [h.calls] at hc
  unfold CheckoutCall.lost
  rcases List.mem_append.mp hc with hc | hc
  · obtain ⟨b, -, hb⟩ := got_of_mem hgot hc
    rw [hb.succeeded, Bool.not_true, Bool.and_false, Bool.false_and]
  · rcases List.mem_append.mp hc with hc | hc
    · obtain ⟨id, hfetch⟩ := h.confirms c hc
      rw [hfetch]
      rfl
    · obtain ⟨id, hfetch⟩ := h.cancels c hc
      rw [hfetch]
      rfl

end CallOrder

/-- A payment that went through. -/
theorem finished_of_paid {d : CheckoutCall} (hgot : d.Got currency b) (hpaid : c.Paid b) :
    (Payment.mk d c).finished = true := by
  obtain ⟨q, key, hfetch, hseat, -⟩ := hgot.fetch
  unfold Payment.finished
  dsimp only
  rw [hfetch, hpaid.ended]
  show (c.flow.passenger q.seatId).isSome = true
  rw [← hseat]
  exact hpaid.row

theorem finished_of_all (hgot : List.Forall₂ (CheckoutCall.Got currency) hs bs)
    (hpaid : List.Forall₂ CheckoutCall.Paid cs bs) : ∀ p ∈ List.zipWith Payment.mk hs cs, p.finished = true := by
  induction hgot generalizing cs with
  | nil => exact fun p hp => absurd hp List.not_mem_nil
  | cons hone _ ih =>
    cases hpaid with
    | cons hfirst hrest => exact List.forall_mem_cons.mpr ⟨finished_of_paid hone hfirst, ih hrest⟩

/-- What a payment costs. -/
theorem cost_eq {d : CheckoutCall} (hgot : d.Got currency b) :
    (Payment.mk d c).cost = if c.charged then b.fareCents else 0 := by
  unfold Payment.cost
  dsimp only
  rw [hgot.heard]
  rfl

/-- **Where the payments stop**: one of them is not finished, and they cost the fares paid until then. -/
theorem payments_of_stopped (hgot : List.Forall₂ (CheckoutCall.Got currency) hs (done ++ b :: rest))
    (hpaid : List.Forall₂ CheckoutCall.Paid before done) (hstops : c.Stops b) :
    (∃ p ∈ List.zipWith Payment.mk hs (before ++ [c]), p.finished = false) ∧
      ((List.zipWith Payment.mk hs (before ++ [c])).map Payment.cost).sum =
        (done.map (·.fareCents)).sum + if c.charged then b.fareCents else 0 := by
  induction hpaid generalizing hs with
  | nil =>
    cases hgot with
    | @cons d _ hs' _ hone _ =>
      have hzip : List.zipWith Payment.mk (d :: hs') ([] ++ [c]) = [⟨d, c⟩] := by simp
      rw [hzip]
      refine ⟨⟨⟨d, c⟩, List.mem_singleton.mpr rfl, ?_⟩, ?_⟩
      · obtain ⟨q, key, hfetch, hseat, -⟩ := hone.fetch
        have hended := hstops.ended
        unfold Payment.finished
        dsimp only
        rw [hfetch]
        show (c.succeeded && (c.flow.passenger q.seatId).isSome) = false
        rw [← hseat]
        exact hended
      · rw [List.map_singleton, List.sum_singleton, cost_eq hone, List.map_nil, List.sum_nil, zero_add]
  | @cons c' b' before' done' hfirst _ ih =>
    cases hgot with
    | @cons d _ hs' _ hone hmore =>
      obtain ⟨⟨p, hp, hunfinished⟩, hsum⟩ := ih hmore
      refine ⟨⟨p, List.mem_cons_of_mem _ hp, hunfinished⟩, ?_⟩
      show ((Payment.mk d c').cost :: (List.zipWith Payment.mk hs' (before' ++ [c])).map Payment.cost).sum = _
      rw [List.sum_cons, hsum, cost_eq hone, if_pos hfirst.charged, List.map_cons, List.sum_cons, add_assoc]

end Pattern

/-! ## All or nothing -/

section Ends

variable {L : LiveLine} {w₀ : World} {s : Batch} {entries : List (Hold × Phase)} {charges : List (String × Money)}

theorem netCharges_eq (hp : Progress L w₀ s entries charges) : s.netCharges w₀ = (charges.map (·.2.cents)).sum := by
  unfold Batch.netCharges
  rw [hp.accepted, List.drop_left]

/-- With every booking given back, what is kept is what was charged. -/
theorem nothingKept_released (hp : Progress L w₀ s entries charges) (hall : ∀ e ∈ entries, e.2 = .released) :
    NothingKept w₀ s ↔ (charges.map (·.2.cents)).sum = 0 := by
  rw [← netCharges_eq hp]
  refine ⟨fun h => h.free, fun h => ⟨fun b hb hmade => ?_, h⟩⟩
  rw [hp.made] at hmade
  obtain ⟨e, he, hid⟩ := List.mem_map.mp hmade
  have hcancelled := ((hp.stored e he).eq hp.keyed hb hid.symm).1
  rw [hall e he] at hcancelled
  rw [show b.status = .cancelled from hcancelled]
  simp

/-- A booking still HELD is kept. -/
theorem not_nothingKept_held (hp : Progress L w₀ s entries charges) {b : Hold} (hb : (b, Phase.held) ∈ entries) :
    ¬ NothingKept w₀ s := by
  intro h
  obtain ⟨status, hheld, hmem⟩ := hp.stored (b, .held) hb
  refine (h.released _ hmem ?_).1 hheld
  rw [hp.made]
  exact List.mem_map.mpr ⟨(b, .held), hb, rfl⟩

/-- A booking that is paid for is kept. -/
theorem not_nothingKept_paid (hp : Progress L w₀ s entries charges) {b : Hold} (hb : (b, Phase.paid) ∈ entries) :
    ¬ NothingKept w₀ s := by
  intro h
  obtain ⟨status, hpaid, hmem⟩ := hp.stored (b, .paid) hb
  refine (h.released _ hmem ?_).2 hpaid
  rw [hp.made]
  exact List.mem_map.mpr ⟨(b, .paid), hb, rfl⟩

end Ends

section AllOrNothing

variable {L : LiveLine} {w : World} {flow : Flow}

/-- The bookings as the release loop has them. -/
theorem heldOf_entries (bs : List Hold) (phases : List (Hold × Phase)) (h : phases.map (·.1) = bs) :
    bs.map (heldOf L) = phases.map fun e => heldOf L e.1 := by
  rw [← h, List.map_map]
  rfl

/-! ### The three ends

Where a hold failed, all depends on whether a hold was lost; where a payment failed, on what was paid until then;
where every payment went through, on the train the seats were held for. -/

/-- After a hold loop that did not get through. -/
theorem holdFailed_iff {s s' : Batch} {new : List Hold} {failure : ApiError × String} {err : ApiError} {seatId : String}
    (hend : HoldsEnd L w s [] new s.calls flow.seatIds (some failure))
    (hrelease : (releaseAll (new.map (heldOf L))).run L.exec s = (.ok (), s')) (hcancels : s'.CancelsSucceed) :
    AllOrNothing flow w (.ok (.holdFailed err seatId)) s' ↔ s'.Recoverable flow := by
  obtain ⟨s'', ds, hrun, hcalls, hall⟩ := run_releaseAll_calls (L := L) (new.map (heldOf L)) s
  obtain rfl : s'' = s' := (Prod.mk.inj (hrun.symm.trans hrelease)).2
  have hcarried : new.map (heldOf L) = (new.map fun b => (b, Phase.waiting)).map fun e => heldOf L e.1 :=
    heldOf_entries new _ (by rw [List.map_map]; exact List.map_id _)
  rw [hcarried] at hrelease
  have hnot : ¬ AllPaid flow w (.ok (.holdFailed err seatId)) s'' := by
    rintro ⟨⟨tickets, hbooked, -⟩, -⟩
    cases hbooked
  rw [AllOrNothing, or_iff_right hnot]
  -- the holds that were heard of are too few for the second part of the pattern
  have hfew : ∀ {hs : List CheckoutCall} {cs : List CheckoutCall}, s.calls = hs ++ cs →
      List.Forall₂ (CheckoutCall.Got L.settings.currency) hs new → new.length < flow.seatIds.length →
      (∀ c ∈ cs, (c.fetch.hold?.isSome && c.succeeded) = false) → s''.holds.length ≠ flow.seatIds.length := by
    intro hs cs hsplit hgot hshort hrest
    have hcs : (cs.filter fun c => c.fetch.hold?.isSome && c.succeeded) = [] :=
      List.filter_eq_nil_iff.mpr fun c hc => by rw [hrest c hc]; exact Bool.false_ne_true
    have hds : (ds.filter fun c => c.fetch.hold?.isSome && c.succeeded) = [] :=
      List.filter_eq_nil_iff.mpr fun c hc => by
        obtain ⟨id, hfetch⟩ := hall c hc
        rw [hfetch]
        exact Bool.false_ne_true
    have hholds : s''.holds = hs.filter fun c => c.fetch.hold?.isSome && c.succeeded := by
      unfold Batch.holds
      rw [hcalls, hsplit, List.filter_append, List.filter_append, hcs, hds, List.append_nil, List.append_nil]
    have hle : s''.holds.length ≤ new.length := by
      rw [hholds, ← hgot.length_eq]
      exact List.length_filter_le _ _
    omega
  cases hend with
  | @failed before c stray _ calls got short missed made progress =>
    have hp := run_releaseAll (new.map fun b => (b, .waiting)) [] (stray.map fun b => (b, .held)) progress hrelease
      hcancels
    obtain ⟨q, key, hfetch⟩ := missed.fetch
    have hfewer := hfew calls got short fun d hd => by
      rw [List.mem_singleton.mp hd, missed.ended, Bool.and_false]
    have hrecoverable : s''.Recoverable flow ↔ stray = [] := by
      -- only the last hold can be lost: the earlier ones were heard of, and the rest are cancels
      have hc : c.lost = false ↔ stray = [] := by
        unfold CheckoutCall.lost
        rw [hfetch, missed.ended, made]
        simp [Fetch.hold?]
      rw [← hc]
      constructor
      · intro h
        refine h.heard c ?_
        rw [hcalls, calls]
        simp
      · intro h
        refine ⟨fun d hd => ?_, fun hlength => absurd hlength hfewer⟩
        rw [hcalls, calls] at hd
        rcases List.mem_append.mp hd with hd | hd
        · rcases List.mem_append.mp hd with hd | hd
          · obtain ⟨b, -, hb⟩ := got_of_mem got hd
            unfold CheckoutCall.lost
            rw [hb.succeeded, Bool.not_true, Bool.and_false, Bool.false_and]
          · rw [List.mem_singleton.mp hd]
            exact h
        · obtain ⟨id, hcancel⟩ := hall d hd
          unfold CheckoutCall.lost
          rw [hcancel]
          rfl
    rw [hrecoverable]
    constructor
    · intro h
      cases stray with
      | nil => rfl
      | cons b rest =>
          -- the release loop does not know of this booking, and it stays HELD
          refine absurd h (not_nothingKept_held hp (b := b) ?_)
          exact List.mem_append_right _ (List.mem_append_right _ (List.mem_map_of_mem List.mem_cons_self))
    · rintro rfl
      refine (nothingKept_released hp ?_).mpr rfl
      intro e he
      rw [List.nil_append, List.map_nil, List.append_nil] at he
      obtain ⟨e', -, rfl⟩ := List.mem_map.mp he
      rfl
  | unsent got short progress =>
    -- no hold was lost, so the pattern is kept and everything is given back
    have hp := run_releaseAll (new.map fun b => (b, .waiting)) [] [] (by rw [List.append_nil]; exact progress) hrelease
      hcancels
    have horder : CallOrder s'' s.calls [] ds := ⟨hcalls, fun c hc => absurd hc List.not_mem_nil, hall⟩
    have hfewer := hfew (List.append_nil _).symm got short fun c hc => absurd hc List.not_mem_nil
    refine iff_of_true ((nothingKept_released hp ?_).mpr rfl)
      ⟨horder.heard got, fun hlength => absurd hlength hfewer⟩
    intro e he
    rw [List.nil_append, List.append_nil] at he
    obtain ⟨e', -, rfl⟩ := List.mem_map.mp he
    rfl

/-- After payments that stopped. -/
theorem confirmFailed_iff {s s' : Batch} {bs : List Hold} {hs cs : List CheckoutCall} {seatIds : List String}
    {err : ApiError} (hgot : List.Forall₂ (CheckoutCall.Got L.settings.currency) hs bs)
    (hseats : bs.map (·.seatId) = flow.seatIds) (hcalls : s.calls = hs ++ cs)
    (hend : ConfirmsEnd L w s [] bs cs seatIds (.error err))
    (hrelease : (releaseAll (bs.map (heldOf L))).run L.exec s = (.ok (), s')) (hcancels : s'.CancelsSucceed) :
    AllOrNothing flow w (.ok (.confirmFailed err)) s' ↔ s'.Recoverable flow := by
  obtain ⟨s'', ds, hrun, hmore, hall⟩ := run_releaseAll_calls (L := L) (bs.map (heldOf L)) s
  obtain rfl : s'' = s' := (Prod.mk.inj (hrun.symm.trans hrelease)).2
  have hnot : ¬ AllPaid flow w (.ok (.confirmFailed err)) s'' := by
    rintro ⟨⟨tickets, hbooked, -⟩, -⟩
    cases hbooked
  rw [AllOrNothing, or_iff_right hnot]
  cases hend with
  | @stopped before c done rest b phase last _ calls good stops split cost progress =>
    rw [List.nil_append] at progress
    generalize hentries : (done.map fun b => (b, Phase.paid)) ++ (b, phase) :: rest.map (fun b => (b, Phase.waiting)) =
      entries at progress
    have hcarried : bs.map (heldOf L) = entries.map fun e => heldOf L e.1 := by
      refine heldOf_entries bs entries ?_
      rw [← hentries, split, List.map_append, List.map_cons, List.map_map, List.map_map]
      exact congrArg₂ (fun a d => a ++ b :: d) (List.map_id _) (List.map_id _)
    rw [hcarried] at hrelease
    have hp := run_releaseAll entries [] [] (by rw [List.nil_append, List.append_nil]; exact progress) hrelease hcancels
    have hconfirms : ∀ d ∈ cs, ∃ id, d.fetch = .confirm id := by
      intro d hd
      rw [calls] at hd
      rcases List.mem_append.mp hd with hd | hd
      · exact confirm_of_paid good d hd
      · exact ⟨_, List.mem_singleton.mp hd ▸ stops.fetch⟩
    have horder : CallOrder s'' hs cs ds := ⟨by rw [hmore, hcalls, List.append_assoc], hconfirms, hall⟩
    obtain ⟨hholds, hconfirmed⟩ := horder.told hgot
    have hlength : s''.holds.length = flow.seatIds.length := by
      rw [hholds, hgot.length_eq, ← hseats, List.length_map]
    obtain ⟨⟨p, hpmem, hunfinished⟩, hsum⟩ := payments_of_stopped (split ▸ hgot) good stops
    have hpayments : s''.payments = List.zipWith Payment.mk hs (before ++ [c]) := by
      unfold Batch.payments
      rw [hholds, hconfirmed, calls]
    -- the pattern now asks that the payments cost nothing
    have hstop : ¬ ∀ p ∈ s''.payments, p.finished = true := by
      intro hfinished
      rw [hfinished p (hpayments ▸ hpmem)] at hunfinished
      cases hunfinished
    have hrecoverable : s''.Recoverable flow ↔ (s''.payments.map Payment.cost).sum = 0 := by
      constructor
      · intro h
        have hpaid := h.paid hlength
        rwa [if_neg hstop] at hpaid
      · intro h
        refine ⟨horder.heard hgot, fun _ => ?_⟩
        rw [if_neg hstop]
        exact h
    rw [hrecoverable, hpayments, hsum, ← cost]
    -- every booking is released, so what is kept is the sum of the charges
    have hcharges : ((done.map Hold.charge ++ last).map (·.2.cents)).sum =
        (done.map (·.fareCents)).sum + (last.map (·.2.cents)).sum := by
      rw [List.map_append, List.sum_append, List.map_map]
      rfl
    rw [← hcharges]
    refine nothingKept_released hp fun e he => ?_
    rw [List.nil_append, List.append_nil] at he
    obtain ⟨e', -, rfl⟩ := List.mem_map.mp he
    rfl

/-- After payments that all went through. -/
theorem booked_iff {s : Batch} {bs : List Hold} {hs cs : List CheckoutCall} {tickets : List Ticket}
    (hgot : List.Forall₂ (CheckoutCall.Got L.settings.currency) hs bs) (hseats : bs.map (·.seatId) = flow.seatIds)
    (hsome : flow.seatIds ≠ []) (hcalls : s.calls = hs ++ cs)
    (hend : ConfirmsEnd L w s [] bs cs flow.seatIds (.ok tickets)) :
    AllOrNothing flow w (.ok (.booked tickets)) s ↔ s.Recoverable flow := by
  cases hend with
  | all htickets good progress =>
    rw [List.nil_append] at progress
    have horder : CallOrder s hs cs [] :=
      ⟨by rw [hcalls, List.append_nil], confirm_of_paid good, fun c hc => absurd hc List.not_mem_nil⟩
    obtain ⟨hholds, hconfirmed⟩ := horder.told hgot
    have hlength : s.holds.length = flow.seatIds.length := by
      rw [hholds, hgot.length_eq, ← hseats, List.length_map]
    have hfinished : ∀ p ∈ s.payments, p.finished = true := by
      unfold Batch.payments
      rw [hholds, hconfirmed]
      exact finished_of_all hgot good
    -- the pattern now asks that each hold was for the train of the button
    have hrecoverable : s.Recoverable flow ↔ ∀ b ∈ bs, ∃ train ∈ flow.train, train.Carries b := by
      have hasks : (∀ c ∈ hs, ∃ train ∈ flow.train, c.asksFor train = true) ↔
          ∀ b ∈ bs, ∃ train ∈ flow.train, train.Carries b := by
        constructor
        · intro h b hb
          obtain ⟨c, hc, hone⟩ := call_of_mem hgot hb
          obtain ⟨train, htrain, hasks⟩ := h c hc
          exact ⟨train, htrain, (hone.asksFor_iff train).mp hasks⟩
        · intro h c hc
          obtain ⟨b, hb, hone⟩ := got_of_mem hgot hc
          obtain ⟨train, htrain, hcarries⟩ := h b hb
          exact ⟨train, htrain, (hone.asksFor_iff train).mpr hcarries⟩
      rw [← hasks]
      constructor
      · intro h
        have hpaid := h.paid hlength
        rwa [if_pos hfinished, hholds] at hpaid
      · intro h
        refine ⟨horder.heard hgot, fun _ => ?_⟩
        rw [if_pos hfinished, hholds]
        exact h
    rw [hrecoverable]
    constructor
    · rintro (hpaid | hnothing)
      · -- the bookings of the cart are those of the batch
        obtain ⟨bookings, -, hids, -, hconfirmed⟩ := hpaid.paid
        intro b hb
        have hmem : b.bookingId ∈ bookings.map (·.bookingId) := by
          rw [hids, progress.made]
          exact List.mem_map.mpr ⟨(b, .paid), List.mem_map_of_mem hb, rfl⟩
        obtain ⟨b', hb', hid⟩ := List.mem_map.mp hmem
        obtain ⟨hstored, -, train, htrain, hcarries⟩ := hconfirmed b' hb'
        have hsame := (progress.stored (b, .paid) (List.mem_map_of_mem hb)).eq progress.keyed hstored hid
        rw [hsame.2] at hcarries
        exact ⟨train, htrain, ⟨hcarries.tripId, hcarries.origin, hcarries.dest⟩⟩
      · -- a paid booking is kept, so the cart would be empty
        cases bs with
        | nil => exact absurd hseats.symm hsome
        | cons b rest => exact absurd hnothing (not_nothingKept_paid progress (List.mem_map_of_mem List.mem_cons_self))
    · intro hcarries
      refine Or.inl ⟨⟨tickets, rfl, htickets⟩, bs.map fun b => { b with status := .confirmed }, ?_, ?_, ?_, ?_⟩
      · rw [List.map_map]
        exact hseats
      · rw [progress.made, List.map_map, List.map_map]
        rfl
      · rw [progress.accepted, List.map_map]
        rfl
      · intro b' hb'
        obtain ⟨b, hb, rfl⟩ := List.mem_map.mp hb'
        obtain ⟨status, hst, hmem⟩ := progress.stored (b, .paid) (List.mem_map_of_mem hb)
        obtain rfl : status = .confirmed := hst
        obtain ⟨train, htrain, hcarries⟩ := hcarries b hb
        exact ⟨hmem, rfl, train, htrain, ⟨hcarries.tripId, hcarries.origin, hcarries.dest⟩⟩

/-! ### The whole checkout -/

/-- **How a checkout ends**, with what its loops did on the way. -/
inductive CheckoutEnd (L : LiveLine) (w : World) (flow : Flow) : Except ApiError CheckoutOutcome → Batch → Prop where
  | ignored : CheckoutEnd L w flow (.ok .ignored) { world := w, flow := flow }
  | holdFailed {new : List Hold} {err : ApiError} {seatId : String} {s₁ s' : Batch}
      (holds : HoldsEnd L w s₁ [] new s₁.calls flow.seatIds (some (err, seatId)))
      (released : (releaseAll (new.map (heldOf L))).run L.exec s₁ = (.ok (), s')) :
      CheckoutEnd L w flow (.ok (.holdFailed err seatId)) s'
  | booked {bs : List Hold} {tickets : List Ticket} {hs cs : List CheckoutCall} {s' : Batch}
      (got : List.Forall₂ (CheckoutCall.Got L.settings.currency) hs bs) (seats : bs.map (·.seatId) = flow.seatIds)
      (some : flow.seatIds ≠ []) (calls : s'.calls = hs ++ cs)
      (confirms : ConfirmsEnd L w s' [] bs cs flow.seatIds (.ok tickets)) : CheckoutEnd L w flow (.ok (.booked tickets)) s'
  | confirmFailed {bs : List Hold} {err : ApiError} {hs cs : List CheckoutCall} {s₂ s' : Batch}
      (got : List.Forall₂ (CheckoutCall.Got L.settings.currency) hs bs) (seats : bs.map (·.seatId) = flow.seatIds)
      (calls : s₂.calls = hs ++ cs) (confirms : ConfirmsEnd L w s₂ [] bs cs flow.seatIds (.error err))
      (released : (releaseAll (bs.map (heldOf L))).run L.exec s₂ = (.ok (), s')) :
      CheckoutEnd L w flow (.ok (.confirmFailed err)) s'

theorem HoldsEnd.held {s : Batch} {new : List Hold} {cs : List CheckoutCall} {seatIds : List String}
    (h : HoldsEnd L w s [] new cs seatIds none) : new.map (·.seatId) = seatIds ∧
      List.Forall₂ (CheckoutCall.Got L.settings.currency) cs new ∧
      Progress L w s (new.map fun b => (b, .waiting)) [] := by
  cases h with
  | all seats got progress => exact ⟨seats, got, progress⟩

/-- **One checkout, from any store whose ids are distinct.** -/
theorem checkout_ends (hk : Keyed MemoryRepo.idOf w.holds) (hfresh : L.FreshIds w) :
    CheckoutEnd L w flow (L.checkout flow w).1 (L.checkout flow w).2 := by
  have hflow : L.exec .flow { world := w, flow := flow } = (.ok flow, { world := w, flow := flow }) := rfl
  unfold LiveLine.checkout
  cases hready : flow.passengerReady with
  | false =>
    rw [run_reserveAndPayGroup_ignored hflow hready]
    exact .ignored
  | true =>
    have hsome := Flow.seats_of_ready hready
    have hstart : Progress L w { world := w, flow := flow } (([] : List Hold).map fun b => (b, .waiting)) [] :=
      ⟨hk, fun h hh => Or.inl (List.mem_map_of_mem hh), List.nodup_nil, fun e he => absurd he List.not_mem_nil,
        (List.append_nil _).symm, rfl⟩
    obtain ⟨new, failed, s₁, hs, hholds, hcalls, hend⟩ := run_holdAll hfresh flow.seatIds [] hstart
    obtain rfl : s₁.calls = hs := hcalls
    change (holdAll flow.seatIds []).run L.exec _ = (.ok (new.map (heldOf L), failed), s₁) at hholds
    cases failed with
    | some failure =>
      obtain ⟨err, seatId⟩ := failure
      obtain ⟨s', cs, hrelease, -⟩ := run_releaseAll_calls (L := L) (new.map (heldOf L)) s₁
      rw [run_reserveAndPayGroup_holdFailed hflow hready hholds hrelease]
      exact .holdFailed hend hrelease
    | none =>
      obtain ⟨hseats, hgot, hp⟩ := hend.held
      obtain ⟨x, s₂, cs, hconfirms, hmore, hconfirmed⟩ := run_confirmAll new [] [] hp
      rw [List.map_nil, List.nil_append, hseats] at hconfirmed
      cases x with
      | ok tickets =>
        rw [run_reserveAndPayGroup_booked hflow hready hholds hconfirms]
        exact .booked hgot hseats hsome hmore hconfirmed
      | error err =>
        obtain ⟨s', more, hrelease, -⟩ := run_releaseAll_calls (L := L) (new.map (heldOf L)) s₂
        rw [run_reserveAndPayGroup_confirmFailed hflow hready hholds hconfirms hrelease]
        exact .confirmFailed hgot hseats hmore hconfirmed hrelease

theorem checkout_iff (hk : Keyed MemoryRepo.idOf w.holds) (hfresh : L.FreshIds w)
    (hcancels : (L.checkout flow w).2.CancelsSucceed) :
    AllOrNothing flow w (L.checkout flow w).1 (L.checkout flow w).2 ↔ (L.checkout flow w).2.Recoverable flow := by
  have hends := @checkout_ends L w flow hk hfresh
  generalize L.checkout flow w = ended at hends hcancels ⊢
  obtain ⟨outcome, s'⟩ := ended
  cases hends with
  | ignored =>
    refine iff_of_true (Or.inr ⟨fun b _ hmade => absurd hmade List.not_mem_nil, ?_⟩)
      ⟨fun c hc => absurd hc List.not_mem_nil, fun _ => ?_⟩
    · simp [Batch.netCharges]
    · have hnone : ∀ p ∈ ({ world := w, flow := flow } : Batch).payments, p.finished = true :=
        fun p hp => absurd hp List.not_mem_nil
      rw [if_pos hnone]
      exact fun c hc => absurd hc List.not_mem_nil
  | holdFailed holds released => exact holdFailed_iff holds released hcancels
  | booked got seats hsome calls confirms => exact booked_iff got seats hsome calls confirms
  | confirmFailed got seats calls confirms released => exact confirmFailed_iff got seats calls confirms released hcancels

end AllOrNothing

/-- **Group checkout.** From every store the calls can reach, for every cart, whatever is dispatched on the flow
    meanwhile, and for every pattern of failures in which the cancels succeed: the checkout is all or nothing exactly
    when its calls follow the pattern that leaves nothing half done. -/
theorem all_or_nothing_iff (L : LiveLine) (trips : List Trip) (requests : List Request) (flow : Flow)
    (hfresh : L.FreshIds ((World.start trips).after requests))
    (hcancels : (L.checkout flow ((World.start trips).after requests)).2.CancelsSucceed) :
    AllOrNothing flow ((World.start trips).after requests) (L.checkout flow ((World.start trips).after requests)).1
      (L.checkout flow ((World.start trips).after requests)).2 ↔
    (L.checkout flow ((World.start trips).after requests)).2.Recoverable flow :=
  checkout_iff (run_onLine trips requests).1 hfresh hcancels

/-! ### Two seats, one accepted payment -/

def pairCart : Flow where
  step := .passenger
  train := some ⟨"slow", 0, 2⟩
  seatIds := ["A1", "A2"]
  passengers := [("A1", ⟨"Nimal", "nic1", none⟩), ("A2", ⟨"Sunil", "nic2", none⟩)]

/-- Every call is answered; the gateway accepts the references it is given. -/
def lineAccepting (references : List String) (meanwhile : Nat → List FlowAction) : LiveLine where
  settings := counterSettings
  env n := ⟨sampleDeps (Int.ofNat n) ("-" ++ Nat.repr n), fun reference _ => ⟨reference ∈ references, reference, ""⟩⟩
  fate _ := .answered
  meanwhile := meanwhile

theorem freshIds_lineAccepting (references : List String) (meanwhile : Nat → List FlowAction) :
    (lineAccepting references meanwhile).FreshIds ((World.start sampleTrips).after []) where
  inj m n h := by
    change "b" ++ ("-" ++ Nat.repr m) = "b" ++ ("-" ++ Nat.repr n) at h
    exact Nat.repr_inj.mp (by simpa using h)
  new n h := absurd h (by simp [World.after, World.start, World.holds, MemoryUow.make])

/-- The traveller goes back to the seats while the first payment is under way. -/
def backToSeats : Nat → List FlowAction := fun n => if n = 2 then [.back] else []

/-- The first seat is removed while its payment is under way. -/
def removedMeanwhile : Nat → List FlowAction := fun n => if n = 2 then [.seatToggled "A1"] else []

/-- The group is booked when both payments are accepted, though the traveller goes back to the seats meanwhile. -/
theorem all_or_nothing_iff_bothPaid :
    AllOrNothing pairCart ((World.start sampleTrips).after [])
      ((lineAccepting ["SLR--0", "SLR--1"] backToSeats).checkout pairCart ((World.start sampleTrips).after [])).1
      ((lineAccepting ["SLR--0", "SLR--1"] backToSeats).checkout pairCart ((World.start sampleTrips).after [])).2 :=
  (all_or_nothing_iff (lineAccepting ["SLR--0", "SLR--1"] backToSeats) sampleTrips [] pairCart
    (freshIds_lineAccepting _ _) (by decide +kernel)).mpr (by decide +kernel)

/-- A seat that is removed while its payment is under way stops the payments when its fare has been accepted. -/
example : ¬ ((lineAccepting ["SLR--0", "SLR--1"] removedMeanwhile).checkout pairCart
    ((World.start sampleTrips).after [])).2.Recoverable pairCart := by decide +kernel

/-- The law fails: the second payment is declined, both seats are given back, and the first fare is kept. -/
theorem second_payment_declined :
    ¬ ∀ (L : LiveLine) (trips : List Trip) (requests : List Request) (flow : Flow),
      L.FreshIds ((World.start trips).after requests) →
      (L.checkout flow ((World.start trips).after requests)).2.CancelsSucceed →
      AllOrNothing flow ((World.start trips).after requests) (L.checkout flow ((World.start trips).after requests)).1
        (L.checkout flow ((World.start trips).after requests)).2 := by
  intro h
  rcases h (lineAccepting ["SLR--0"] fun _ => []) sampleTrips [] pairCart (freshIds_lineAccepting _ _)
    (by decide +kernel) with hpaid | hnothing
  · obtain ⟨tickets, hbooked, -⟩ := hpaid.booked
    have hnone : (bookedTickets ((lineAccepting ["SLR--0"] fun _ => []).checkout pairCart
        ((World.start sampleTrips).after [])).1).isNone = true := by decide +kernel
    rw [hbooked] at hnone
    cases hnone
  · have hkept : ((lineAccepting ["SLR--0"] fun _ => []).checkout pairCart
        ((World.start sampleTrips).after [])).2.netCharges ((World.start sampleTrips).after []) = 10000 := by
      decide +kernel
    rw [hnothing.free] at hkept
    cases hkept

end SlrBooking
