import SlrBooking.Http.Idempotency
import SlrBooking.Runs.Calls

/-!
# `Http.Routes` — the routes, their bodies and the error mapping

A `Target` is what the framework's router resolves a request line to. The framework reads a body before it
runs the route's dependencies and checks its fields after them, so a body that is no JSON is refused before
the counter key is looked at.

## Contents
- Request bodies with their field checks; `Payload`, what the framework makes of a body.
- `Body`, the response bodies; `statusFor`, `errorResponse`.
- `Target`, `requireCounterKey`, `handle`, and the served app: `Incoming`, `App.serve`, `App.after`.
- `NoUnauthorized`: a handler that does not answer 401; the handlers behind the key check do not.
- `handle_servesOne`: a request is at most one call.
-/

namespace SlrBooking

open Theory Rows

/-! ## Request bodies -/

def nameInBounds (name : String) : Bool := 1 ≤ name.length && name.length ≤ 120
def nicInBounds (nic : String) : Bool := 1 ≤ nic.length && nic.length ≤ 64

structure HoldRequest where
  tripId        : String
  seatId        : String
  originSeq     : Int
  destSeq       : Int
  passengerId   : String
  passengerName : String
  reference     : Option String
deriving DecidableEq

structure QuoteRequest where
  tripId      : String
  originSeq   : Int
  destSeq     : Int
  travelClass : TravelClass
deriving DecidableEq

structure SellUnreservedRequest where
  tripId        : String
  originSeq     : Int
  destSeq       : Int
  passengerId   : String
  passengerName : String
  travelClass   : TravelClass
deriving DecidableEq

def HoldRequest.valid (b : HoldRequest) : Bool :=
  0 ≤ b.originSeq && 0 ≤ b.destSeq && nicInBounds b.passengerId && nameInBounds b.passengerName

def QuoteRequest.valid (b : QuoteRequest) : Bool := 0 ≤ b.originSeq && 0 ≤ b.destSeq

def SellUnreservedRequest.valid (b : SellUnreservedRequest) : Bool :=
  0 ≤ b.originSeq && 0 ≤ b.destSeq && nicInBounds b.passengerId && nameInBounds b.passengerName

/-- What the framework makes of a request body. The four ways to fail and the value are all that the routes can see of
    it. -/
inductive Payload (α : Type) where
  /-- Bytes that are no text. -/
  | notText
  /-- Text that is no JSON. -/
  | notJson
  /-- JSON without the model's fields. -/
  | mistyped
  | fields (value : α)

/-! ## Response bodies -/

structure MoneyOut where
  cents    : Int
  currency : String
deriving DecidableEq

def MoneyOut.of (money : Money) (currency : String) : MoneyOut := ⟨money.cents, currency⟩

structure QuoteOut where
  tripId      : String
  originSeq   : Int
  destSeq     : Int
  travelClass : TravelClass
  fare        : MoneyOut
deriving DecidableEq

/-- A booking in flight: what the hold and cancel routes return. It carries the passenger's identity number and name. -/
structure BookingOut where
  bookingId     : String
  reference     : String
  tripId        : String
  seatId        : String
  originSeq     : Int
  destSeq       : Int
  passengerId   : String
  passengerName : String
  travelClass   : TravelClass
  status        : BookingStatus
  fare          : MoneyOut
  heldUntil     : Int
  createdAt     : Int

def BookingOut.of (h : Hold) (currency : String) : BookingOut :=
  { bookingId := h.bookingId
    reference := h.reference
    tripId := h.tripId
    seatId := h.seatId
    originSeq := h.leg.originSeq
    destSeq := h.leg.destSeq
    passengerId := h.passengerId
    passengerName := h.passengerName
    travelClass := h.travelClass
    status := h.status
    fare := MoneyOut.of ⟨h.fareCents⟩ currency
    heldUntil := h.heldUntil
    createdAt := h.createdAt }

/-- The response bodies. Search results, the seat view, receipts and verifications are sent with every field of
    the use-case's value, the money with its currency. -/
inductive Body where
  | options (options : List TrainOption) (currency : String)
  | availability (view : LegAvailability)
  | quote (quote : QuoteOut)
  | booking (booking : BookingOut)
  | receipt (receipt : Receipt) (currency : String)
  | verification (verification : Verification) (currency : String)
  /-- `{"error": .., "detail": ..}`. -/
  | error (error detail : String)
  /-- `{"detail": ..}`. -/
  | detail (detail : String)
  /-- The framework's list of field errors. -/
  | fieldErrors
  | text (content : String)

/-- The body tells something about a stored booking. -/
def Body.bookingData : Body → Bool
  | .booking _ | .receipt _ _ | .verification _ _ => true
  | _ => false

/-! ## Errors -/

/-- The exception's class name. -/
def DomainError.name : DomainError → String
  | .invalidLeg => "InvalidLeg"
  | .invalidServiceDate => "InvalidServiceDate"
  | .illegalTransition => "IllegalTransition"
  | .noFeasibleSeat => "NoFeasibleSeat"
  | .overlapError => "OverlapError"
  | .seatCapExceeded => "SeatCapExceeded"
  | .velocityExceeded => "VelocityExceeded"
  | .abuseSuspected => "AbuseSuspected"
  | .paymentDeclined => "PaymentDeclined"
  | .coachFull => "CoachFull"
  | .bookingNotFound => "BookingNotFound"
  | .seatNotBookable => "SeatNotBookable"

/-- The three anti-abuse errors share their base class's entry. -/
def statusFor : DomainError → Nat
  | .overlapError | .illegalTransition | .noFeasibleSeat | .coachFull => 409
  | .seatCapExceeded | .velocityExceeded | .abuseSuspected => 429
  | .paymentDeclined => 402
  | .bookingNotFound => 404
  | .seatNotBookable | .invalidLeg | .invalidServiceDate => 422

/-- What escapes every exception handler of the app. -/
inductive Fault where
  | escaped (e : Err)
  | typeError (detail : String)
deriving DecidableEq

abbrev Outgoing : Type := Except Fault (Response Body)

def json (status : Nat) (body : Body) : Response Body :=
  { status := status, body := body, mediaType := some "application/json" }

/-- The registered exception handlers. -/
def errorResponse : Err → Outgoing
  | .domain kind detail => .ok (json (statusFor kind) (.error kind.name detail))
  | .valueError detail => .ok (json 422 (.error "ValueError" detail))
  | .keyError key => .ok (json 404 (.error "NotFound" s!"'{key}'"))
  | e => .error (.escaped e)

/-- A use-case's outcome as the route answers it. -/
def respond {α : Type} (status : Nat) (out : α → Body) : Except Err α → Outgoing
  | .ok a => .ok (json status (out a))
  | .error e => errorResponse e

def invalidFields : Response Body := json 422 .fieldErrors

/-- The refusal of a body before any dependency runs. -/
def Payload.unread? {α : Type} : Payload α → Option (Response Body)
  | .notText => some (json 400 (.detail "There was an error parsing the body"))
  | .notJson => some invalidFields
  | .mistyped | .fields _ => none

/-- The model's value, if the body has one that passes its field checks. -/
def Payload.checked? {α : Type} (valid : α → Bool) : Payload α → Option α
  | .fields a => if valid a then some a else none
  | _ => none

/-! ## Targets -/

structure SearchQuery where
  origin : String
  dest   : String
  date   : String
deriving DecidableEq

def codeInBounds (code : String) : Bool := 1 ≤ code.length && code.length ≤ 16

def SearchQuery.valid (q : SearchQuery) : Bool := codeInBounds q.origin && codeInBounds q.dest && q.date.length = 10

/-- Everything that reads no booking back and asks for no key: health, the docs, the trip and impact reads, the
    event stream, and every line the router does not know. -/
structure Page where
  method      : String
  path        : String
  status      : Nat
  content     : String
  asks_no_key : status ≠ 401

/-- What the router resolves a request line to. A query is `none` when a parameter is missing or mistyped. -/
inductive Target where
  | search (query : Option SearchQuery)
  | availability (tripId : String) (seqs : Option (Int × Int))
  | quote (body : Payload QuoteRequest)
  | hold (body : Payload HoldRequest)
  | confirm (bookingId : String)
  | cancel (bookingId : String)
  | sell (body : Payload SellUnreservedRequest)
  | verify (reference : String)
  | elsewhere (page : Page)

namespace Target

def method : Target → String
  | search _ | availability _ _ | verify _ => "GET"
  | quote _ | hold _ | confirm _ | cancel _ | sell _ => "POST"
  | elsewhere page => page.method

def path : Target → String
  | search _ => "/search"
  | availability tripId _ => s!"/trips/{tripId}/availability"
  | quote _ => "/quote"
  | hold _ => "/bookings/hold"
  | confirm bookingId => s!"/bookings/{bookingId}/confirm"
  | cancel bookingId => s!"/bookings/{bookingId}/cancel"
  | sell _ => "/admin/unreserved/sell"
  | verify reference => s!"/admin/verify/{reference}"
  | elsewhere page => page.path

/-- The request a target and its headers make. -/
def request (target : Target) (headers : List (String × String)) : HttpRequest Target :=
  ⟨target.method, target.path, headers, target⟩

/-- The routes of the admin router. -/
def isAdmin : Target → Bool
  | sell _ | verify _ => true
  | _ => false

end Target

/-! ## The counter key -/

structure Settings where
  counterKey : String
  currency   : String

def isAscii (s : String) : Bool := s.toList.all fun c => c.val < 128

/-- `secrets.compare_digest` on two strings. -/
def compareDigest (a b : String) : Except Fault Bool :=
  if isAscii a && isAscii b then .ok (a = b)
  else .error (.typeError "comparing strings with non-ASCII characters is not supported")

def counterKeyHeader : String := "x-counter-key"

def invalidCounterKey : Response Body := json 401 (.detail "invalid counter key")

/-- The guard of the admin router: nothing, or the refusal. -/
def requireCounterKey (settings : Settings) (xCounterKey : String) : Except Fault (Option (Response Body)) := do
  if ← compareDigest xCounterKey settings.counterKey then return none else return some invalidCounterKey

/-! ## The handlers -/

/-- What the ports and the gateway say while one request is served: the clock, the generators, the configuration, the
    fare and abuse strategies. -/
structure Env where
  deps    : Deps
  gateway : Gateway

/-- `Leg(origin_seq, dest_seq)` is built before the use-case starts. -/
def onLeg (originSeq destSeq : Int) (k : Leg → World → Outgoing × World) (w : World) : Outgoing × World :=
  match Leg.make originSeq destSeq with
  | .ok leg => k leg w
  | .error e => (errorResponse e, w)

namespace Env

variable (env : Env)

/-- Run a use-case and answer with its outcome. -/
def run (call : Call) (status : Nat) (out : call.Answer → Body) (w : World) : Outgoing × World :=
  (respond status out (w.serve ⟨call, env.deps, env.gateway⟩).1, (w.serve ⟨call, env.deps, env.gateway⟩).2)

def quote (settings : Settings) (b : QuoteRequest) : World → Outgoing × World :=
  onLeg b.originSeq b.destSeq fun leg =>
    env.run (.quote b.tripId leg b.travelClass) 200 fun fare : Money =>
      .quote ⟨b.tripId, b.originSeq, b.destSeq, b.travelClass, MoneyOut.of fare settings.currency⟩

def hold (settings : Settings) (b : HoldRequest) : World → Outgoing × World :=
  onLeg b.originSeq b.destSeq fun leg =>
    env.run (.hold b.tripId b.seatId leg b.passengerId b.passengerName b.reference) 201 fun booking : Hold =>
      .booking (BookingOut.of booking settings.currency)

def confirm (settings : Settings) (bookingId : String) : World → Outgoing × World :=
  env.run (.confirm bookingId) 200 fun receipt : Receipt => .receipt receipt settings.currency

def cancel (settings : Settings) (bookingId : String) : World → Outgoing × World :=
  env.run (.cancel bookingId) 200 fun booking : Hold => .booking (BookingOut.of booking settings.currency)

/-- The route hands no reference on, so a sale is never a replay. -/
def sell (settings : Settings) (b : SellUnreservedRequest) : World → Outgoing × World :=
  onLeg b.originSeq b.destSeq fun leg =>
    env.run (.sell b.tripId leg b.passengerId b.passengerName b.travelClass none) 201 fun receipt : Receipt =>
      .receipt receipt settings.currency

def verify (settings : Settings) (reference : String) : World → Outgoing × World :=
  env.run (.verify reference) 200 fun verification : Verification => .verification verification settings.currency

def search (settings : Settings) (q : SearchQuery) : World → Outgoing × World :=
  env.run (.search q.origin q.dest q.date) 200 fun options : List TrainOption => .options options settings.currency

def availability (tripId : String) (seqs : Int × Int) : World → Outgoing × World :=
  onLeg seqs.1 seqs.2 fun leg =>
    env.run (.availability tripId leg) 200 fun view : LegAvailability => .availability view

end Env

/-- Run the endpoint on checked fields, or refuse them. -/
def checked {α : Type} (value : Option α) (k : α → World → Outgoing × World) (w : World) : Outgoing × World :=
  match value with
  | some a => k a w
  | none => (.ok invalidFields, w)

/-- An endpoint with a body: reading it comes first. -/
def withBody {α : Type} (body : Payload α) (k : World → Outgoing × World) (w : World) : Outgoing × World :=
  match body.unread? with
  | some refusal => (.ok refusal, w)
  | none => k w

/-- A route of the admin router: the guard comes before the endpoint. -/
def guarded (settings : Settings) (request : HttpRequest Target) (k : World → Outgoing × World) (w : World) :
    Outgoing × World :=
  match requireCounterKey settings ((request.header counterKeyHeader).getD "") with
  | .error fault => (.error fault, w)
  | .ok (some refusal) => (.ok refusal, w)
  | .ok none => k w

/-- The app behind the middleware: the router's target decides the endpoint, the endpoint's checks come in the
    framework's order, and at most one use-case runs. -/
def handle (settings : Settings) (env : Env) : Handler Target Body Fault World := fun request =>
  match request.body with
  | .search query => checked (query.filter SearchQuery.valid) (env.search settings)
  | .availability tripId seqs => checked (seqs.filter fun q => 0 ≤ q.1 && 0 ≤ q.2) (env.availability tripId)
  | .quote body => withBody body (checked (body.checked? QuoteRequest.valid) (env.quote settings))
  | .hold body => withBody body (checked (body.checked? HoldRequest.valid) (env.hold settings))
  | .confirm bookingId => env.confirm settings bookingId
  | .cancel bookingId => env.cancel settings bookingId
  | .sell body =>
    withBody body (guarded settings request (checked (body.checked? SellUnreservedRequest.valid) (env.sell settings)))
  | .verify reference => guarded settings request (env.verify settings reference)
  | .elsewhere page => fun w => (.ok { status := page.status, body := .text page.content }, w)

/-! ## The served app -/

/-- A request on its way in. -/
structure Incoming where
  target  : Target
  headers : List (String × String)
  env     : Env

def Incoming.request (x : Incoming) : HttpRequest Target := x.target.request x.headers

namespace App

/-- The replay cache and the booking world behind it. -/
abbrev State : Type := EdgeState Body Fault World

def start (trips : List Trip) : State := { app := World.start trips }

def serve (settings : Settings) (s : State) (x : Incoming) : Outgoing × State :=
  s.serve (handle settings x.env) x.request

/-- What the client receives: an escaped exception becomes the server's own 500. -/
def received : Outgoing → Response Body
  | .ok response => response
  | .error _ => { status := 500, body := .text "Internal Server Error" }

def after (settings : Settings) (s : State) (history : List Incoming) : State :=
  history.foldl (fun s x => (serve settings s x).2) s

end App

/-! ## Who answers 401 -/

theorem statusFor_ne_unauthorized (kind : DomainError) : statusFor kind ≠ 401 := by
  cases kind <;> decide

theorem errorResponse_ne_unauthorized {e : Err} {response : Response Body} (h : errorResponse e = .ok response) :
    response.status ≠ 401 := by
  cases e with
  | domain kind detail =>
    rw [← Except.ok.inj h]
    exact statusFor_ne_unauthorized kind
  | valueError | keyError =>
    rw [← Except.ok.inj h]
    exact fun hs => absurd hs (by simp [json])
  | _ => cases h

/-- The endpoint never answers 401. -/
def NoUnauthorized (k : World → Outgoing × World) : Prop :=
  ∀ w response, (k w).1 = .ok response → response.status ≠ 401

theorem noUnauthorized_run (env : Env) (call : Call) {status : Nat} (hs : status ≠ 401) (out : call.Answer → Body) :
    NoUnauthorized (env.run call status out) := by
  intro w response h
  have hrespond : respond status out (w.serve ⟨call, env.deps, env.gateway⟩).1 = .ok response := h
  cases hrun : (w.serve ⟨call, env.deps, env.gateway⟩).1 with
  | ok a =>
    rw [hrun] at hrespond
    rw [← Except.ok.inj hrespond]
    exact hs
  | error e =>
    rw [hrun] at hrespond
    exact errorResponse_ne_unauthorized hrespond

theorem noUnauthorized_onLeg {originSeq destSeq : Int} {k : Leg → World → Outgoing × World}
    (hk : ∀ leg, NoUnauthorized (k leg)) : NoUnauthorized (onLeg originSeq destSeq k) := by
  intro w response h
  unfold onLeg at h
  split at h
  · exact hk _ w response h
  · exact errorResponse_ne_unauthorized h

theorem noUnauthorized_checked {α : Type} (value : Option α) {k : α → World → Outgoing × World}
    (hk : ∀ a, NoUnauthorized (k a)) : NoUnauthorized (checked value k) := by
  intro w response h
  cases value with
  | some a => exact hk a w response h
  | none =>
    rw [← Except.ok.inj h]
    decide

theorem unread_ne_unauthorized {α : Type} {body : Payload α} {refusal : Response Body}
    (h : body.unread? = some refusal) :
    refusal.status ≠ 401 := by
  cases body with
  | notText | notJson =>
    rw [← Option.some.inj h]
    decide
  | mistyped | fields => cases h

theorem noUnauthorized_withBody {α : Type} (body : Payload α) {k : World → Outgoing × World} (hk : NoUnauthorized k) :
    NoUnauthorized (withBody body k) := by
  intro w response h
  unfold withBody at h
  split at h
  · rename_i refusal hunread
    rw [← Except.ok.inj h]
    exact unread_ne_unauthorized hunread
  · exact hk w response h

section Endpoints

variable (env : Env) (settings : Settings)

theorem noUnauthorized_quote (b : QuoteRequest) : NoUnauthorized (env.quote settings b) :=
  noUnauthorized_onLeg fun _ => noUnauthorized_run env _ (by decide) _

theorem noUnauthorized_hold (b : HoldRequest) : NoUnauthorized (env.hold settings b) :=
  noUnauthorized_onLeg fun _ => noUnauthorized_run env _ (by decide) _

theorem noUnauthorized_sell (b : SellUnreservedRequest) : NoUnauthorized (env.sell settings b) :=
  noUnauthorized_onLeg fun _ => noUnauthorized_run env _ (by decide) _

theorem noUnauthorized_verify (reference : String) : NoUnauthorized (env.verify settings reference) :=
  noUnauthorized_run env _ (by decide) _

end Endpoints

/-! ## One call for each request -/

/-- The endpoint leaves the store alone or serves one call, with the ports it was given. -/
def ServesOne (env : Env) (k : World → Outgoing × World) : Prop :=
  ∀ w, (k w).2 = w ∨ ∃ call, (k w).2 = (w.serve ⟨call, env.deps, env.gateway⟩).2

section ServesOne

variable {env : Env} {settings : Settings}

theorem servesOne_run (call : Call) (status : Nat) (out : call.Answer → Body) :
    ServesOne env (env.run call status out) := fun _ => Or.inr ⟨call, rfl⟩

theorem servesOne_onLeg {originSeq destSeq : Int} {k : Leg → World → Outgoing × World}
    (hk : ∀ leg, ServesOne env (k leg)) : ServesOne env (onLeg originSeq destSeq k) := by
  intro w
  unfold onLeg
  split
  · exact hk _ w
  · exact Or.inl rfl

theorem servesOne_checked {α : Type} (value : Option α) {k : α → World → Outgoing × World}
    (hk : ∀ a, ServesOne env (k a)) : ServesOne env (checked value k) := by
  intro w
  cases value with
  | some a => exact hk a w
  | none => exact Or.inl rfl

theorem servesOne_withBody {α : Type} (body : Payload α) {k : World → Outgoing × World} (hk : ServesOne env k) :
    ServesOne env (withBody body k) := by
  intro w
  unfold withBody
  split
  · exact Or.inl rfl
  · exact hk w

theorem servesOne_guarded (request : HttpRequest Target) {k : World → Outgoing × World} (hk : ServesOne env k) :
    ServesOne env (guarded settings request k) := by
  intro w
  unfold guarded
  split
  · exact Or.inl rfl
  · exact Or.inl rfl
  · exact hk w

/-- **A request is at most one call.** -/
theorem handle_servesOne (request : HttpRequest Target) : ServesOne env (handle settings env request) := by
  unfold handle
  cases request.body with
  | search query => exact servesOne_checked _ fun _ => servesOne_run _ _ _
  | availability tripId seqs => exact servesOne_checked _ fun _ => servesOne_onLeg fun _ => servesOne_run _ _ _
  | quote body => exact servesOne_withBody _ (servesOne_checked _ fun _ => servesOne_onLeg fun _ => servesOne_run _ _ _)
  | hold body => exact servesOne_withBody _ (servesOne_checked _ fun _ => servesOne_onLeg fun _ => servesOne_run _ _ _)
  | confirm | cancel => exact servesOne_run _ _ _
  | sell body =>
    exact servesOne_withBody _ (servesOne_guarded _ (servesOne_checked _ fun _ => servesOne_onLeg fun _ =>
      servesOne_run _ _ _))
  | verify reference => exact servesOne_guarded _ (servesOne_run _ _ _)
  | elsewhere page => exact fun _ => Or.inl rfl

end ServesOne

/-- A served request is at most one call on the store behind the cache. -/
theorem serve_app (settings : Settings) (env : Env) (request : HttpRequest Target) (edge : App.State) :
    (edge.serve (handle settings env) request).2.app = edge.app ∨
      ∃ call, (edge.serve (handle settings env) request).2.app = (edge.app.serve ⟨call, env.deps, env.gateway⟩).2 := by
  cases hreplay : edge.replay? request with
  | some cached =>
    rw [serve_replay hreplay]
    exact Or.inl rfl
  | none =>
    have happ : (edge.serve (handle settings env) request).2.app = (handle settings env request edge.app).2 := by
      obtain ⟨-, ⟨hstate, -⟩ | ⟨key, response, -, -, hstate⟩⟩ := @serve_reached _ _ _ _
        (handle settings env) _ _ hreplay
      · rw [hstate, EdgeState.reached]
      · rw [hstate, EdgeState.reached]
    rw [happ]
    exact handle_servesOne request edge.app

/-! ## A sample sale -/

def counterSettings : Settings := ⟨"counter-dev-key", "LKR"⟩

/-- A sale at the counter under one idempotency key, with or without the counter key. -/
def counterSale (credential : List (String × String)) : Incoming :=
  { target := .sell (.fields ⟨"slow", 0, 2, "nic1", "Nimal", .third⟩)
    headers := (idempotencyHeader, "k1") :: credential
    env := ⟨sampleDeps 0 "1", acceptAll⟩ }

def withKey : Incoming := counterSale [(counterKeyHeader, "counter-dev-key")]
def withoutKey : Incoming := counterSale []

end SlrBooking
