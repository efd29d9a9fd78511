import SlrBooking.Http.Routes
import SlrBooking.Web.Flow

/-!
# `Web.ApiClient` — the traveller app's HTTP client

Each method is one fetch and a reading of its answer: a status outside 2xx becomes a typed error, and a 2xx body
must have the method's shape.

## Contents
- `ApiError`, `errorForStatus`.
- `Fetch`, the exchanges the app performs, and `Fetch.request`, what each sends; `WebOp`, the signature `Web`.
- `readAs` and one reading for each method; `Api.hold`, `Api.confirm`, `Api.cancel`.
-/

namespace SlrBooking

open Theory

/-! ## Errors -/

/-- The names of the client's errors, and of the language's own. -/
inductive ApiErrorName where
  | apiError | conflictError | rateLimitError | validationError | paymentError | notFoundError | schemaError | typeError
deriving DecidableEq, Repr

structure ApiError where
  name    : ApiErrorName
  message : String
  status  : Nat
  detail  : String
deriving DecidableEq, Repr

def errorForStatus (status : Nat) (message detail : String) : ApiError :=
  match status with
  | 409 => ⟨.conflictError, messageOr message "That seat was just taken.", 409, detail⟩
  | 429 => ⟨.rateLimitError, messageOr message "Too many requests. Please slow down.", 429, detail⟩
  | 422 => ⟨.validationError, messageOr message "That request is not valid.", 422, detail⟩
  | 402 => ⟨.paymentError, messageOr message "Payment was declined.", 402, detail⟩
  | 404 => ⟨.notFoundError, messageOr message "Not found.", 404, detail⟩
  | status => ⟨.apiError, messageOr message s!"Request failed ({status})", status, detail⟩

def schemaError (schema : String) : ApiError :=
  ⟨.schemaError, s!"response did not match contract schema '{schema}'", 0, ""⟩

/-! ## Exchanges -/

/-- What `api.hold` is asked for. The wizard passes no reference. -/
structure HoldParams where
  tripId        : String
  seatId        : String
  originSeq     : Int
  destSeq       : Int
  passengerId   : String
  passengerName : String
deriving DecidableEq

/-- The JSON body of a hold; the absent reference is sent as null. -/
def HoldParams.body (q : HoldParams) : HoldRequest :=
  { tripId := q.tripId
    seatId := q.seatId
    originSeq := q.originSeq
    destSeq := q.destSeq
    passengerId := q.passengerId
    passengerName := q.passengerName
    reference := none }

/-- One exchange with the server: those of the checkout, and anything else anybody sends. -/
inductive Fetch where
  | hold (args : HoldParams) (idempotencyKey : String)
  | confirm (bookingId : String)
  | cancel (bookingId : String)
  | other (target : Target) (headers : List (String × String))

namespace Fetch

/-- The key header, unless the key is empty. -/
def idem (idempotencyKey : String) : List (String × String) :=
  if idempotencyKey = "" then [] else [(idempotencyHeader, idempotencyKey)]

def target : Fetch → Target
  | hold args _ => .hold (.fields args.body)
  | confirm bookingId => .confirm bookingId
  | cancel bookingId => .cancel bookingId
  | other target _ => target

def headers : Fetch → List (String × String)
  | hold _ key => idem key
  | confirm _ | cancel _ => []
  | other _ headers => headers

/-- The hold asked for, with its key. -/
def hold? : Fetch → Option (HoldParams × String)
  | hold args key => some (args, key)
  | _ => none

/-- The request on the wire. -/
def request (f : Fetch) : HttpRequest Target := f.target.request f.headers

end Fetch

/-- What the wizard's code asks for: an exchange with the server, or a look at the flow as it is by then. Everything
    else that happens in the browser happens while an exchange is awaited. -/
inductive WebOp where
  | fetch (f : Fetch)
  | flow

@[reducible] def WebOp.Res : WebOp → Type
  | .fetch _ => Response Body
  | .flow => Flow

abbrev Web : Sig := ⟨WebOp, WebOp.Res⟩

/-! ## Reading an answer -/

/-- `res.ok`. -/
def Response.ok {B : Type} (response : Response B) : Bool := 200 ≤ response.status && response.status < 300

/-- `payload?.detail`, as the text an `Error` shows. -/
def Body.detailText : Body → String
  | .error _ content | .detail content => content
  | .fieldErrors => "[object Object]"
  | _ => ""

/-- `payload?.detail || payload?.error || ""`. -/
def Body.messageText (b : Body) : String :=
  match b with
  | .error kind content => messageOr content kind
  | b => b.detailText

/-- The shared part of the methods: refuse a status outside 2xx, then read the body. -/
def readAs {α : Type} (schema : String) (shape : Body → Option α) (response : Response Body) : Except ApiError α :=
  if response.ok then
    match shape response.body with
    | some a => .ok a
    | none => .error (schemaError schema)
  else .error (errorForStatus response.status response.body.messageText response.body.detailText)

def Body.booking? : Body → Option BookingOut
  | .booking b => some b
  | _ => none

def Body.receipt? : Body → Option Receipt
  | .receipt r _ => some r
  | _ => none

def Body.options? : Body → Option (List TrainOption)
  | .options found _ => some found
  | _ => none

def Body.availability? : Body → Option LegAvailability
  | .availability view => some view
  | _ => none

def Body.quote? : Body → Option QuoteOut
  | .quote q => some q
  | _ => none

def readSearchTrains : Response Body → Except ApiError (List TrainOption) := readAs "TrainOptionOut" Body.options?
def readAvailability : Response Body → Except ApiError LegAvailability := readAs "LegAvailabilityOut" Body.availability?
def readQuote : Response Body → Except ApiError QuoteOut := readAs "QuoteOut" Body.quote?
def readHold : Response Body → Except ApiError BookingOut := readAs "BookingOut" Body.booking?
def readConfirm : Response Body → Except ApiError Receipt := readAs "ReceiptOut" Body.receipt?
def readCancel : Response Body → Except ApiError BookingOut := readAs "BookingOut" Body.booking?

/-- A reading looks at the status and the body only. -/
theorem readAs_shown {α : Type} {schema : String} {shape : Body → Option α} {a b : Response Body}
    (h : a.shown = b.shown) : readAs schema shape a = readAs schema shape b := by
  obtain ⟨hstatus, hbody⟩ := Prod.mk.inj h
  unfold readAs Response.ok
  rw [hstatus, hbody]

theorem readAs_ok {α : Type} {schema : String} {shape : Body → Option α} {response : Response Body} {a : α}
    (h : readAs schema shape response = .ok a) : shape response.body = some a := by
  unfold readAs at h
  split at h
  · split at h
    · rename_i a' ha
      rw [ha, Except.ok.inj h]
    · cases h
  · cases h

/-! ## The methods -/

namespace Api

def fetch (f : Fetch) : Prog Web ApiError (Response Body) := Prog.call (S := Web) (.fetch f)

/-- The live `flow`. -/
def flow : Prog Web ApiError Flow := Prog.call (S := Web) .flow

def hold (args : HoldParams) (idempotencyKey : String) : Prog Web ApiError BookingOut := do
  let response ← fetch (.hold args idempotencyKey)
  Prog.ofExcept (readHold response)

def confirm (bookingId : String) : Prog Web ApiError Receipt := do
  let response ← fetch (.confirm bookingId)
  Prog.ofExcept (readConfirm response)

def cancel (bookingId : String) : Prog Web ApiError BookingOut := do
  let response ← fetch (.cancel bookingId)
  Prog.ofExcept (readCancel response)

end Api

end SlrBooking
