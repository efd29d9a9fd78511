import SlrBooking.Theory.Rows
import SlrBooking.Usecases.Receipt

/-!
# `Web.Flow` — the booking wizard as a pure step reducer

One funnel, from the landing page to the receipt, with back legal from every step but the last. Seats are a group
cart: each has its own named passenger, who may be linked to the entry above it.

## Contents
- `FlowStep`, `steps`, `Journey`, `Passenger`, `Train`, `Ticket`, `Flow`, `initialFlowState`, `canGoBack`.
- `Flow.resolveNic`, `Flow.passengerReady`: what the component derives from the flow.
- `withoutSeat`, `PassengerPatch`, `FlowAction`, `flowReducer`.
- `flowReducer_nodup`: no action puts a seat into the cart twice.
-/

namespace SlrBooking

open Theory Rows

/-! ## The state -/

inductive FlowStep where
  | landing | search | trains | seats | passenger | receipt
deriving DecidableEq

/-- `STEPS`. -/
def steps : List FlowStep := [.landing, .search, .trains, .seats, .passenger, .receipt]

def stepIndex (step : FlowStep) : Nat := steps.idxOf step

structure Journey where
  originCode  : String
  destCode    : String
  serviceDate : String
deriving DecidableEq

structure Passenger where
  name          : String
  nic           : String
  childOfSeatId : Option String
deriving DecidableEq

/-- The train and leg chosen. -/
structure Train where
  tripId    : String
  originSeq : Int
  destSeq   : Int
deriving DecidableEq

/-- One entry of the receipt screen. -/
structure Ticket where
  seatId        : String
  childOfSeatId : Option String
  receipt       : Receipt

/-- `seatIds` in selection order; `passengers` is the object keyed by seat. -/
structure Flow where
  step       : FlowStep := .landing
  journey    : Option Journey := none
  train      : Option Train := none
  seatIds    : List String := []
  passengers : List (String × Passenger) := []
  tickets    : List Ticket := []
  error      : Option String := none

def initialFlowState : Flow := {}

def canGoBack (state : Flow) : Bool := 0 < stepIndex state.step && state.step ≠ .receipt

/-- `state.passengers[seatId]`. -/
def Flow.passenger (state : Flow) (seatId : String) : Option Passenger :=
  (lookup Prod.fst seatId state.passengers).map (·.2)

def blankPassenger : Passenger := ⟨"", "", none⟩

/-! ## What the component derives -/

/-- White space and line terminators, as `String.prototype.trim` removes them. -/
def isJsSpace (c : Char) : Bool :=
  c.val ∈ [0x9, 0xA, 0xB, 0xC, 0xD, 0x20, 0xA0, 0x1680, 0x2028, 0x2029, 0x202F, 0x205F, 0x3000, 0xFEFF] ||
    (0x2000 ≤ c.val && c.val ≤ 0x200A)

def jsTrim (s : String) : String :=
  String.ofList (((s.toList.dropWhile isJsSpace).reverse.dropWhile isJsSpace).reverse)

namespace Flow

variable (flow : Flow)

/-- Follow `childOfSeatId`, at most `guard` times. -/
def companion : (guard : Nat) → Option Passenger → Option Passenger
  | 0, current => current
  | guard + 1, current =>
    match current.bind fun p => p.childOfSeatId.filter (· ≠ "") with
    | some parent => companion guard (flow.passenger parent)
    | none => current

/-- A child travels on its companion's NIC. -/
def resolveNic (seatId : String) : String :=
  match flow.companion (flow.seatIds.length + 1) (flow.passenger seatId) with
  | some p => jsTrim p.nic
  | none => ""

def passengerReady : Bool :=
  !flow.seatIds.isEmpty && flow.seatIds.all fun id =>
    match flow.passenger id with
    | some p => 0 < (jsTrim p.name).length && 0 < (flow.resolveNic id).length
    | none => false

variable {flow}

theorem seats_of_ready (h : flow.passengerReady = true) : flow.seatIds ≠ [] := by
  intro hnone
  unfold passengerReady at h
  rw [hnone] at h
  cases h

end Flow

/-! ## The reducer -/

/-- `message || fallback`. -/
def messageOr (message fallback : String) : String := if message = "" then fallback else message

/-- Drop a seat and unlink anyone who named it as the passenger they are travelling with. -/
def withoutSeat (state : Flow) (seatId : String) : List String × List (String × Passenger) :=
  let seatIds := state.seatIds.filter (· ≠ seatId)
  let passengers := seatIds.map fun id =>
    let p := (state.passenger id).getD blankPassenger
    (id, if p.childOfSeatId = some seatId then { p with childOfSeatId := none } else p)
  (seatIds, passengers)

/-- The fields of a passenger row that are overwritten. -/
structure PassengerPatch where
  name          : Option String := none
  nic           : Option String := none
  childOfSeatId : Option (Option String) := none
deriving DecidableEq

/-- `{ ...p, ...patch }`. -/
def PassengerPatch.apply (patch : PassengerPatch) (p : Passenger) : Passenger :=
  ⟨patch.name.getD p.name, patch.nic.getD p.nic, patch.childOfSeatId.getD p.childOfSeatId⟩

inductive FlowAction where
  | start
  | searched (journey : Journey)
  | trainSelected (train : Train)
  | seatToggled (seatId : String)
  | seatsConfirmed
  | passengerUpdated (seatId : String) (patch : PassengerPatch)
  | booked (tickets : List Ticket)
  | seatRemovedConflict (seatId message : String)
  | back
  | errorCleared
  | restart

/-- Seed a blank passenger for a seat that has none yet. -/
def seedPassenger (passengers : List (String × Passenger)) (seatId : String) : List (String × Passenger) :=
  match lookup Prod.fst seatId passengers with
  | some _ => passengers
  | none => put Prod.fst (seatId, blankPassenger) passengers

/-- A row is updated only once it is there: it is seeded on the way to the passenger step. -/
def flowReducer (state : Flow) : FlowAction → Flow
  | .start => { initialFlowState with step := .search }
  | .searched journey => { state with step := .trains, journey := some journey, error := none }
  | .trainSelected train =>
    { state with step := .seats, train := some train, seatIds := [], passengers := [], error := none }
  | .seatToggled seatId =>
    if seatId ∈ state.seatIds then
      { state with seatIds := (withoutSeat state seatId).1, passengers := (withoutSeat state seatId).2, error := none }
    else { state with seatIds := state.seatIds ++ [seatId], error := none }
  | .seatsConfirmed =>
    { state with step := .passenger, passengers := state.seatIds.foldl seedPassenger state.passengers, error := none }
  | .passengerUpdated seatId patch =>
    let row := patch.apply ((state.passenger seatId).getD blankPassenger)
    { state with passengers := put Prod.fst (seatId, row) state.passengers }
  | .booked tickets => { state with step := .receipt, tickets := tickets, error := none }
  | .seatRemovedConflict seatId message =>
    { state with
      step := .seats
      seatIds := (withoutSeat state seatId).1
      passengers := (withoutSeat state seatId).2
      error := some (messageOr message "That seat was just taken.") }
  | .back =>
    if canGoBack state then
      { state with step := steps.getD (stepIndex state.step - 1) state.step, error := none }
    else state
  | .errorCleared => { state with error := none }
  | .restart => initialFlowState

/-! ## The cart -/

/-- **No action puts a seat into the cart twice.** -/
theorem flowReducer_nodup {state : Flow} (h : state.seatIds.Nodup) (action : FlowAction) :
    (flowReducer state action).seatIds.Nodup := by
  have hwithout : ∀ seatId, (withoutSeat state seatId).1.Nodup := fun seatId => List.Nodup.filter _ h
  cases action with
  | start | trainSelected | restart => exact List.nodup_nil
  | searched | seatsConfirmed | passengerUpdated | booked | errorCleared => exact h
  | seatToggled seatId =>
    by_cases hmem : seatId ∈ state.seatIds
    · simp only [flowReducer, if_pos hmem]
      exact hwithout seatId
    · simp only [flowReducer, if_neg hmem]
      refine List.nodup_append.mpr ⟨h, List.nodup_singleton _, ?_⟩
      intro a ha b hb hab
      rw [hab, List.mem_singleton.mp hb] at ha
      exact hmem ha
  | seatRemovedConflict seatId => exact hwithout seatId
  | back =>
    by_cases hback : canGoBack state = true
    · simp only [flowReducer, if_pos hback]
      exact h
    · simp only [flowReducer, if_neg hback]
      exact h

end SlrBooking
