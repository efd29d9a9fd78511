import SlrBooking.Web.ApiClient

/-!
# `Web.Checkout` — the wizard's group checkout

One user action for the whole group: hold every seat, then confirm every booking; on any failure give back what
was held. Between two exchanges of a checkout other clients' requests may be served, and the traveller may go on
clicking: what the code reads of the flow after an `await` is the flow as it is by then. The seats are those of the
cart when the button was pressed.

## Contents
- `Flow.row`, `Flow.holdArgs`, which raise when a row or the train is gone; the wizard's idempotency key `holdKey`.
- `holdAll`, `confirmAll`, `releaseAll`, `reserveAndPayGroup`, `checkouts`.
- `run_holdSeatOf`, `run_confirmSeatOf`: one turn of either loop, whatever answers it.
- `only_checkouts`: a traveller sends nothing but holds under the wizard's key, confirms and cancels.
-/

namespace SlrBooking

open Theory

/-! ## What a checkout reads of the flow -/

/-- A property of `undefined` or `null` is read. None of the client's own errors. -/
def typeError : ApiError := ⟨.typeError, "Cannot read properties of undefined", 0, ""⟩

namespace Flow

variable (flow : Flow)

/-- `flow.passengers[seatId]`, when a field of it is read. -/
def row (seatId : String) : Except ApiError Passenger :=
  match flow.passenger seatId with
  | some passenger => .ok passenger
  | none => .error typeError

/-- What the wizard asks a seat's hold for. -/
def holdArgs (seatId : String) : Except ApiError HoldParams :=
  match flow.train with
  | none => .error typeError
  | some train => (flow.row seatId).map fun passenger =>
    { tripId := train.tripId
      seatId := seatId
      originSeq := train.originSeq
      destSeq := train.destSeq
      passengerId := flow.resolveNic seatId
      passengerName := jsTrim passenger.name }

/-- What is asked for is the seat, on the flow's train, for the passenger in its row. -/
theorem holdArgs_ok {flow : Flow} {seatId : String} {q : HoldParams} (h : flow.holdArgs seatId = .ok q) :
    ∃ train passenger, flow.train = some train ∧ flow.passenger seatId = some passenger ∧
      q = ⟨train.tripId, seatId, train.originSeq, train.destSeq, flow.resolveNic seatId, jsTrim passenger.name⟩ := by
  unfold holdArgs row at h
  cases htrain : flow.train with
  | none =>
    rw [htrain] at h
    cases h
  | some train =>
    rw [htrain] at h
    cases hrow : flow.passenger seatId with
    | none =>
      rw [hrow] at h
      cases h
    | some passenger =>
      rw [hrow] at h
      exact ⟨train, passenger, rfl, rfl, (Except.ok.inj h).symm⟩

end Flow

/-- The wizard's idempotency key: the seat, the leg and the NIC. -/
def holdKey (q : HoldParams) : String := s!"hold:{q.seatId}:{q.originSeq}-{q.destSeq}:{q.passengerId}"

/-! ## The checkout -/

structure Held where
  seatId  : String
  booking : BookingOut

/-- What the wizard goes on with: nothing happened, the tickets, the seat whose hold failed, or a failed payment. -/
inductive CheckoutOutcome where
  | ignored
  | booked (tickets : List Ticket)
  | holdFailed (error : ApiError) (conflictSeatId : String)
  | confirmFailed (error : ApiError)

/-- Hold a seat, for the row and the train the flow has by then. -/
def holdSeatOf (seatId : String) : Prog Web ApiError BookingOut := do
  let flow ← Api.flow
  let args ← Prog.ofExcept (flow.holdArgs seatId)
  Api.hold args (holdKey args)

/-- Hold the seats in order, up to the first failure. -/
def holdAll : (seatIds : List String) → (held : List Held) → Prog Web ApiError (List Held × Option (ApiError × String))
  | [], held => return (held, none)
  | seatId :: rest, held => do
    match ← (holdSeatOf seatId).attempt with
    | .ok booking => holdAll rest (held ++ [⟨seatId, booking⟩])
    | .error err => return (held, some (err, seatId))

/-- Confirm a booking, then look up whom its passenger travels with. A row that is gone by then raises, although the
    booking is paid for. -/
def confirmSeatOf (h : Held) : Prog Web ApiError Ticket := do
  let receipt ← Api.confirm h.booking.bookingId
  let flow ← Api.flow
  let passenger ← Prog.ofExcept (flow.row h.seatId)
  return ⟨h.seatId, passenger.childOfSeatId, receipt⟩

/-- Confirm the bookings in order. The first failure escapes: what was confirmed before it stays with the caller to
    release. -/
def confirmAll : (held : List Held) → (tickets : List Ticket) → Prog Web ApiError (List Ticket)
  | [], tickets => return tickets
  | h :: rest, tickets => do
    let ticket ← confirmSeatOf h
    confirmAll rest (tickets ++ [ticket])

/-- Cancel the bookings; a failed cancel is swallowed. The wizard sends them together, here in order. -/
def releaseAll : (held : List Held) → Prog Web ApiError Unit
  | [] => return ()
  | h :: rest => do
    let _ ← (Api.cancel h.booking.bookingId).attempt
    releaseAll rest

/-- Reserve every seat and pay. The flow is read when the button is pressed, and again, live, before every hold and
    after every confirm; in between it may change. -/
def reserveAndPayGroup : Prog Web ApiError CheckoutOutcome := do
  let flow ← Api.flow
  if !flow.passengerReady then return .ignored
  else do
    let (held, failed) ← holdAll flow.seatIds []
    match failed with
    | some (err, conflictSeatId) => do
      releaseAll held
      return .holdFailed err conflictSeatId
    | none => do
      match ← (confirmAll held []).attempt with
      | .ok tickets => return .booked tickets
      | .error err => do
        releaseAll held
        return .confirmFailed err

/-- A traveller who presses the button so many times, each time with whatever the flow is by then. -/
def checkouts : (presses : Nat) → Prog Web ApiError Unit
  | 0 => return ()
  | presses + 1 => do
    let _ ← reserveAndPayGroup.attempt
    checkouts presses

/-! ## How its parts run -/

section Run

variable {σ : Type} (h : (o : WebOp) → σ → Except ApiError (Web.Res o) × σ)

/-- A method of the client is one exchange, read. -/
theorem run_method {α : Type} (read : Response Body → Except ApiError α) (f : Fetch) (s : σ) :
    ((Api.fetch f).bind fun response => Prog.ofExcept (read response)).run h s =
      ((h (.fetch f) s).1 >>= read, (h (.fetch f) s).2) := by
  rw [Prog.run_bind, show (Api.fetch f).run h s = h (.fetch f) s from Prog.run_call _ _ _]
  generalize h (.fetch f) s = exchanged
  obtain ⟨heard, s'⟩ := exchanged
  cases heard with
  | error e => rfl
  | ok response => exact Prog.run_ofExcept _ _ _

variable {h}

theorem run_holdSeatOf_unsent {flow : Flow} {s : σ} (hflow : h .flow s = (.ok flow, s)) {seatId : String} {e : ApiError}
    (hargs : flow.holdArgs seatId = .error e) : (holdSeatOf seatId).run h s = (.error e, s) := by
  show (Prog.bind (S := Web) _ _).run h s = _
  rw [Prog.run_bind_ok _ (show Api.flow.run h s = (.ok flow, s) from (Prog.run_call _ _ _).trans hflow), hargs]
  rfl

theorem run_holdSeatOf {flow : Flow} {s : σ} (hflow : h .flow s = (.ok flow, s)) {seatId : String} {q : HoldParams}
    (hargs : flow.holdArgs seatId = .ok q) : (holdSeatOf seatId).run h s =
      ((h (.fetch (.hold q (holdKey q))) s).1 >>= readHold, (h (.fetch (.hold q (holdKey q))) s).2) := by
  show (Prog.bind (S := Web) _ _).run h s = _
  rw [Prog.run_bind_ok _ (show Api.flow.run h s = (.ok flow, s) from (Prog.run_call _ _ _).trans hflow), hargs]
  exact run_method h readHold _ s

theorem run_confirmSeatOf (held : Held) {flow : Flow} {s s' : σ} {heard : Except ApiError (Response Body)}
    (hconfirm : h (.fetch (.confirm held.booking.bookingId)) s = (heard, s')) (hflow : h .flow s' = (.ok flow, s')) :
    (confirmSeatOf held).run h s = ((heard >>= readConfirm) >>= fun receipt =>
      (flow.row held.seatId).map fun p => ⟨held.seatId, p.childOfSeatId, receipt⟩, s') := by
  show (Prog.bind (S := Web) _ _).run h s = _
  rw [Prog.run_bind, show (Api.confirm held.booking.bookingId).run h s = _ from run_method h readConfirm _ s, hconfirm]
  cases hread : heard >>= readConfirm with
  | error e => rfl
  | ok receipt =>
    show (Prog.bind (S := Web) _ _).run h s' = _
    rw [Prog.run_bind_ok _ (show Api.flow.run h s' = (.ok flow, s') from (Prog.run_call _ _ _).trans hflow)]
    cases flow.row held.seatId with
    | error e => rfl
    | ok passenger => rfl

section Press

variable {flow : Flow} {s s₁ s₂ s' : σ} {held : List Held}

theorem run_reserveAndPayGroup_ignored (hflow : h .flow s = (.ok flow, s)) (hready : flow.passengerReady = false) :
    reserveAndPayGroup.run h s = (.ok .ignored, s) := by
  show (Prog.bind (S := Web) _ _).run h s = _
  rw [Prog.run_bind_ok _ (show Api.flow.run h s = (.ok flow, s) from (Prog.run_call _ _ _).trans hflow), hready]
  rfl

variable (hflow : h .flow s = (.ok flow, s)) (hready : flow.passengerReady = true)

include hflow hready

/-- A press that is not ignored starts with the holds. -/
theorem run_reserveAndPayGroup {failed : Option (ApiError × String)} :
    (holdAll flow.seatIds []).run h s = (.ok (held, failed), s₁) →
    reserveAndPayGroup.run h s = Prog.run h (match failed with
      | some (err, conflictSeatId) => do
        releaseAll held
        return .holdFailed err conflictSeatId
      | none => do
        match ← (confirmAll held []).attempt with
        | .ok tickets => return .booked tickets
        | .error err => do
          releaseAll held
          return .confirmFailed err) s₁ := by
  intro hholds
  show (Prog.bind (S := Web) _ _).run h s = _
  rw [Prog.run_bind_ok _ (show Api.flow.run h s = (.ok flow, s) from (Prog.run_call _ _ _).trans hflow), hready]
  show (Prog.bind (S := Web) _ _).run h s = _
  rw [Prog.run_bind_ok _ hholds]

theorem run_reserveAndPayGroup_holdFailed {err : ApiError} {seatId : String}
    (hholds : (holdAll flow.seatIds []).run h s = (.ok (held, some (err, seatId)), s₁))
    (hrelease : (releaseAll held).run h s₁ = (.ok (), s')) :
    reserveAndPayGroup.run h s = (.ok (.holdFailed err seatId), s') := by
  rw [run_reserveAndPayGroup hflow hready hholds]
  show (Prog.bind (S := Web) _ _).run h s₁ = _
  rw [Prog.run_bind_ok _ hrelease]
  rfl

theorem run_reserveAndPayGroup_booked {tickets : List Ticket}
    (hholds : (holdAll flow.seatIds []).run h s = (.ok (held, none), s₁))
    (hconfirms : (confirmAll held []).run h s₁ = (.ok tickets, s')) :
    reserveAndPayGroup.run h s = (.ok (.booked tickets), s') := by
  rw [run_reserveAndPayGroup hflow hready hholds]
  show (Prog.bind (S := Web) _ _).run h s₁ = _
  rw [Prog.run_bind, Prog.run_attempt, hconfirms]
  rfl

theorem run_reserveAndPayGroup_confirmFailed {err : ApiError}
    (hholds : (holdAll flow.seatIds []).run h s = (.ok (held, none), s₁))
    (hconfirms : (confirmAll held []).run h s₁ = (.error err, s₂))
    (hrelease : (releaseAll held).run h s₂ = (.ok (), s')) :
    reserveAndPayGroup.run h s = (.ok (.confirmFailed err), s') := by
  rw [run_reserveAndPayGroup hflow hready hholds]
  show (Prog.bind (S := Web) _ _).run h s₁ = _
  rw [Prog.run_bind, Prog.run_attempt, hconfirms]
  show (Prog.bind (S := Web) _ _).run h s₂ = _
  rw [Prog.run_bind_ok _ hrelease]
  rfl

end Press

end Run

/-! ## What a checkout sends -/

/-- A hold under the wizard's key, a confirm or a cancel. -/
def Fetch.OfCheckout : Fetch → Prop
  | .hold q key => key = holdKey q
  | .confirm _ | .cancel _ => True
  | .other _ _ => False

def WebOp.OfCheckout : WebOp → Prop
  | .fetch f => f.OfCheckout
  | .flow => True

theorem only_fetch (f : Fetch) (hf : f.OfCheckout) : (Api.fetch f).Only WebOp.OfCheckout := Prog.only_call hf

theorem only_flow : Api.flow.Only WebOp.OfCheckout := Prog.only_call trivial

theorem only_holdSeatOf (seatId : String) : (holdSeatOf seatId).Only WebOp.OfCheckout :=
  only_flow.bind fun _ => (Prog.only_ofExcept _).bind fun args =>
    (only_fetch (.hold args (holdKey args)) rfl).bind fun _ => Prog.only_ofExcept _

theorem only_holdAll : ∀ (seatIds : List String) (held : List Held), (holdAll seatIds held).Only WebOp.OfCheckout
  | [], _ => trivial
  | seatId :: rest, held => by
      refine (only_holdSeatOf seatId).attempt.bind fun r => ?_
      cases r with
      | ok booking => exact only_holdAll rest _
      | error err => trivial

theorem only_confirmAll : ∀ (held : List Held) (tickets : List Ticket),
    (confirmAll held tickets).Only WebOp.OfCheckout
  | [], _ => trivial
  | h :: rest, tickets => by
      have hconfirm : (Api.confirm h.booking.bookingId).Only WebOp.OfCheckout :=
        (only_fetch (.confirm _) trivial).bind fun _ => Prog.only_ofExcept _
      have hseat : (confirmSeatOf h).Only WebOp.OfCheckout :=
        hconfirm.bind fun _ => only_flow.bind fun _ => (Prog.only_ofExcept _).bind fun _ => trivial
      exact hseat.bind fun _ => only_confirmAll rest _

theorem only_releaseAll : ∀ held : List Held, (releaseAll held).Only WebOp.OfCheckout
  | [] => trivial
  | h :: rest => by
      have hcancel : (Api.cancel h.booking.bookingId).Only WebOp.OfCheckout :=
        (only_fetch (.cancel _) trivial).bind fun _ => Prog.only_ofExcept _
      exact hcancel.attempt.bind fun _ => only_releaseAll rest

theorem only_reserveAndPayGroup : reserveAndPayGroup.Only WebOp.OfCheckout := by
  refine only_flow.bind fun flow => ?_
  split
  · trivial
  · refine (only_holdAll _ _).bind fun (held, failed) => ?_
    cases failed with
    | some failure => exact (only_releaseAll held).bind fun _ => trivial
    | none =>
      refine (only_confirmAll held []).attempt.bind fun r => ?_
      cases r with
      | ok tickets => trivial
      | error err => exact (only_releaseAll held).bind fun _ => trivial

/-- **A traveller sends nothing else**, and every hold goes out under the wizard's key. -/
theorem only_checkouts : ∀ presses : Nat, (checkouts presses).Only WebOp.OfCheckout
  | 0 => trivial
  | presses + 1 => only_reserveAndPayGroup.attempt.bind fun _ => only_checkouts presses

end SlrBooking
