import SlrBooking.Web.Flow
import SlrBooking.Web.GroupPayment
import SlrBooking.Runs.Prices

/-!
# `Web.Wizard` — the booking wizard and what it sends

The reducer owns the step and the choices; the component around it owns what the server answered. A request is sent,
served and answered at three different moments, and the traveller may do anything in between. A checkout of a visit
runs in one go; what the traveller may do during one is the subject of `Web.GroupPayment`. The trips never change, so
a trip is read when its request is served.

## Contents
- `Ask`, the reads the wizard sends, and `Reply`. `Line.exchange`, one exchange through the replay cache.
- `Wizard`, its event handlers under the source's names, `Gesture`.
- `Visit`, `Visit.checkout`, `Visit.step`: one traveller's visit.
- `Wizard.Dispatched`: all that a handler does to the flow is to dispatch actions.
- `Visit.Sound`: the cart and the quotes have distinct seats, every booking has its own id, and every quote on the
  screen is the price its store gave it.
-/

namespace SlrBooking

open Theory Rows App

/-! ## Requests on the way -/

/-- The reads of the wizard. The first look at a train's availability ends the selection of the train. -/
inductive Ask where
  | searchTrains (journey : Journey)
  | getTrip (train : Train)
  | availability (train : Train) (first : Bool)
  | quote (seatId : String) (body : Payload QuoteRequest)

/-- What becomes of it. -/
inductive Reply where
  | failed
  | options (trains : List Train)
  | trip (trip : Trip)
  | view (view : LegAvailability)
  | quote (quote : QuoteOut)

def Journey.query (journey : Journey) : SearchQuery := ⟨journey.originCode, journey.destCode, journey.serviceDate⟩

/-- The wire fields of an option that the wizard goes on with. -/
def TrainOption.train (option : TrainOption) : Train := ⟨option.tripId, option.originSeq, option.destSeq⟩

namespace Line

variable (L : Line) (n : Nat)

/-- Exchange number `n`, the replay cache included. -/
def exchange (f : Fetch) (edge : App.State) : Except ApiError (Response Body) × App.State :=
  let served := edge.serve (handle L.settings (L.env n)) f.request
  match L.fate n with
  | .answered => (.ok (received served.1), served.2)
  | .dropped => (.error networkError, edge)
  | .unheard => (.error networkError, served.2)

/-- Serve a read and read the answer. -/
def read {α : Type} (target : Target) (read : Response Body → Except ApiError α) (reply : α → Reply)
    (edge : App.State) :
    Reply × App.State :=
  let exchanged := L.exchange n (.other target []) edge
  match exchanged.1 >>= read with
  | .ok a => (reply a, exchanged.2)
  | .error _ => (.failed, exchanged.2)

/-- `GET /trips/{trip_id}`. -/
def getTrip (train : Train) (edge : App.State) : Reply × App.State :=
  match L.fate n, MemoryRepo.getTrip edge.app.trips train.tripId with
  | .answered, .ok trip => (.trip trip, edge)
  | _, _ => (.failed, edge)

def answer (edge : App.State) : Ask → Reply × App.State
  | .searchTrains journey =>
    L.read n (.search (some journey.query)) readSearchTrains
      (fun options => .options (options.map TrainOption.train)) edge
  | .getTrip train => L.getTrip n train edge
  | .availability train _ =>
    L.read n (.availability train.tripId (some (train.originSeq, train.destSeq))) readAvailability .view edge
  | .quote _ body => L.read n (.quote body) readQuote .quote edge

end Line

/-! ## The component -/

structure Wizard where
  flow         : Flow := initialFlowState
  trainOptions : List Train := []
  trip         : Option Trip := none
  availability : Option LegAvailability := none
  seatQuotes   : List (String × QuoteOut) := []
  busy         : Bool := false

namespace Wizard

variable (w : Wizard)

def dispatch (action : FlowAction) : Wizard := { w with flow := flowReducer w.flow action }

/-- **The total on the screen.** -/
def totalFareCents : Int := (w.seatQuotes.map (·.2.fare.cents)).sum

/-- `seatQuotes` without a seat. -/
def dropQuote (seatId : String) : Wizard := { w with seatQuotes := w.seatQuotes.filter (·.1 ≠ seatId) }

def refreshAvailability (train : Train) : List Ask := [.availability train false]

def goHome : Wizard :=
  { w with trip := none, availability := none, seatQuotes := [] }.dispatch .restart

def goBack : Wizard := w.dispatch .back

def handleSearch (journey : Journey) : Wizard × List Ask := ({ w with busy := true }, [.searchTrains journey])

def handleSelectTrain (train : Train) : Wizard × List Ask :=
  ({ w with busy := true, seatQuotes := [] }, [.getTrip train])

/-- The class of the coach the seat is in. -/
def classOfSeat (seatId : String) : Option TravelClass :=
  w.trip.bind fun trip => (trip.seats.find? fun s => s.seatId = seatId).map (·.travelClass)

/-- The quote asked for; without a class the body lacks a field. -/
def quoteBody (seatId : String) : Payload QuoteRequest :=
  match w.flow.train, w.classOfSeat seatId with
  | some train, some travelClass => .fields ⟨train.tripId, train.originSeq, train.destSeq, travelClass⟩
  | _, _ => .mistyped

def handleToggleSeat (seatId : String) : Wizard × List Ask :=
  let toggled := w.dispatch (.seatToggled seatId)
  if seatId ∈ w.flow.seatIds then (toggled.dropQuote seatId, [])
  else (toggled, [.quote seatId (toggled.quoteBody seatId)])

/-- `saved` is the remembered passenger, if there is one with a NIC. -/
def handleSeatsConfirmed (saved : Option PassengerPatch) : Wizard :=
  let confirmed := w.dispatch .seatsConfirmed
  match saved, confirmed.flow.seatIds with
  | some patch, first :: _ => confirmed.dispatch (.passengerUpdated first patch)
  | _, _ => confirmed

def removeSeat (seatId : String) : Wizard :=
  let removed := (w.dispatch (.seatToggled seatId)).dropQuote seatId
  if removed.flow.seatIds.isEmpty then removed.dispatch .back else removed

/-- Only a conflict touches the cart. -/
def handleGroupHoldError (err : ApiError) (conflictSeatId : String) : Wizard × List Ask :=
  if err.name = .conflictError then
    (w.dispatch (.seatRemovedConflict conflictSeatId "That seat was just taken. Please pick another for the group."),
      w.flow.train.toList.flatMap refreshAvailability)
  else (w, [])

/-- The seat map offers the seat: it is reserved, and in the cart or known to be free. -/
def selectable (seatId : String) : Bool :=
  w.trip.any fun trip => trip.seats.any fun s => s.seatId = seatId && s.coachType = .reserved &&
    (seatId ∈ w.flow.seatIds || w.availability.any fun view => view.seats.any fun a => a.seatId = seatId && a.available)

/-- What the traveller does, and what the availability stream brings. The handlers are those of the component's markup.
    -/
inductive Gesture where
  | reserve
  | search (journey : Journey)
  | selectTrain (train : Train)
  | toggleSeat (seatId : String)
  | confirmSeats (saved : Option PassengerPatch)
  | typePassenger (seatId : String) (patch : PassengerPatch)
  | removeSeat (seatId : String)
  | goBack
  | goHome
  | clearError
  | delta (train : Train)

/-- What the screen of the step offers. -/
def offers : Gesture → Bool
  | .reserve => w.flow.step = .landing
  | .search _ => w.flow.step = .search
  | .selectTrain train => w.flow.step = .trains && train ∈ w.trainOptions
  | .toggleSeat seatId => w.flow.step = .seats && w.selectable seatId
  | .confirmSeats _ => w.flow.step = .seats && !w.flow.seatIds.isEmpty
  | .typePassenger seatId _ => w.flow.step = .passenger && seatId ∈ w.flow.seatIds && !w.busy
  -- unlike typing, removing a seat is possible while busy
  | .removeSeat seatId => w.flow.step = .passenger && seatId ∈ w.flow.seatIds && 1 < w.flow.seatIds.length
  | .goBack => w.flow.step = .trains || w.flow.step = .seats || w.flow.step = .passenger
  | .goHome | .clearError | .delta _ => true

def react : Gesture → Wizard × List Ask
  | .reserve => (w.dispatch .start, [])
  | .search journey => w.handleSearch journey
  | .selectTrain train => w.handleSelectTrain train
  | .toggleSeat seatId => w.handleToggleSeat seatId
  | .confirmSeats saved => (w.handleSeatsConfirmed saved, [])
  | .typePassenger seatId patch => (w.dispatch (.passengerUpdated seatId patch), [])
  | .removeSeat seatId => (w.removeSeat seatId, [])
  | .goBack => (w.goBack, [])
  | .goHome => (w.goHome, [])
  | .clearError => (w.dispatch .errorCleared, [])
  | .delta train => (w, refreshAvailability train)

/-- The rest of a handler, once its request is answered. -/
def resume : Ask → Reply → Wizard × List Ask
  | .searchTrains journey, .options trains =>
    ({ w with trainOptions := trains, busy := false }.dispatch (.searched journey), [])
  | .searchTrains _, _ => ({ w with busy := false }, [])
  | .getTrip train, .trip trip => ({ w with trip := some trip }.dispatch (.trainSelected train),
    [.availability train true])
  | .getTrip _, _ => ({ w with busy := false }, [])
  | .availability _ first, .view view => ({ w with availability := some view, busy := w.busy && !first }, [])
  | .availability _ first, _ => ({ w with busy := w.busy && !first }, [])
  -- also for a seat that has left the cart meanwhile
  | .quote seatId _, .quote quote => ({ w with seatQuotes := put Prod.fst (seatId, quote) w.seatQuotes }, [])
  | .quote _ _, _ => (w, [])

/-- The rest of `reserveAndPayGroup`, once its exchanges are over. -/
def settle : Except ApiError CheckoutOutcome → Wizard × List Ask
  | .ok (.booked tickets) => (w.dispatch (.booked tickets), [])
  | .ok (.holdFailed err conflictSeatId) => w.handleGroupHoldError err conflictSeatId
  -- a failed payment leaves cart and quotes as they are
  | .ok .ignored | .ok (.confirmFailed _) | .error _ => (w, [])

end Wizard

/-! ## A visit -/

/-- A request the wizard waits for. Once it is served, the reply is on its way, and with it, for the statements only,
    the store it was read from. -/
structure InFlight where
  ask    : Ask
  served : Option (Reply × World) := none

/-- The browser and the server, with the number of exchanges so far. `quotedOn` is a record of the past: for each seat
    the store its last quote was read from. -/
structure Visit where
  wizard   : Wizard := {}
  sent     : List InFlight := []
  edge     : App.State
  served   : Nat := 0
  quotedOn : List (String × World) := []

/-- The exchanges of one checkout. -/
structure Till where
  edge  : App.State
  calls : List CheckoutCall := []

/-- What comes next in a checkout that started when `n` exchanges had been served. -/
def Line.ring (L : Line) (n : Nat) (flow : Flow) : (o : WebOp) → Till → Except ApiError (Web.Res o) × Till
  | .fetch f, t =>
    let exchanged := L.exchange (n + t.calls.length) f t.edge
    (exchanged.1, ⟨exchanged.2, t.calls ++ [⟨f, t.edge.app, exchanged.2.app, exchanged.1, flow⟩]⟩)
  | .flow, t => (.ok flow, t)

inductive VisitEvent where
  | gesture (gesture : Wizard.Gesture)
  | serve (request : Nat)
  | answer (request : Nat)
  | reserveAndPay

namespace Visit

variable (L : Line) (v : Visit)

/-- "Reserve & pay". -/
def checkout : Except ApiError CheckoutOutcome × Till :=
  reserveAndPayGroup.run (L.ring v.served v.wizard.flow) { edge := v.edge }

/-- The wizard goes on, and sends what it has to ask. -/
def goOn (next : Wizard × List Ask) : Visit :=
  { v with wizard := next.1, sent := v.sent ++ next.2.map fun ask => { ask := ask } }

/-- The button is shown and not disabled. -/
def payable : Bool := v.wizard.flow.step = .passenger && v.wizard.flow.passengerReady && !v.wizard.busy

/-- The record after one more answer. -/
def remember : Ask → Reply → World → List (String × World)
  | .quote seatId _, .quote _, store => put Prod.fst (seatId, store) v.quotedOn
  | _, _, _ => v.quotedOn

def step : VisitEvent → Visit
  | .gesture gesture => if v.wizard.offers gesture then v.goOn (v.wizard.react gesture) else v
  | .serve request =>
    match v.sent[request]? with
    | some ⟨ask, none⟩ =>
      { v with
        edge := (L.answer v.served v.edge ask).2
        served := v.served + 1
        sent := v.sent.set request ⟨ask, some ((L.answer v.served v.edge ask).1, v.edge.app)⟩ }
    | _ => v
  | .answer request =>
    match v.sent[request]? with
    | some ⟨ask, some (reply, store)⟩ =>
      { v with sent := v.sent.eraseIdx request, quotedOn := v.remember ask reply store }.goOn
        (v.wizard.resume ask reply)
    | _ => v
  | .reserveAndPay =>
    if v.payable then
      { v with
        edge := (v.checkout L).2.edge
        served := v.served + (v.checkout L).2.calls.length }.goOn (v.wizard.settle (v.checkout L).1)
    else v

def after (events : List VisitEvent) : Visit := events.foldl (fun v e => v.step L e) v

end Visit

/-! ## What is dispatched -/

namespace Wizard

variable {w w' : Wizard}

/-- The flow has changed by dispatched actions only, as it may while a checkout awaits one of its calls. -/
def Dispatched (w w' : Wizard) : Prop := ∃ actions : List FlowAction, w'.flow = actions.foldl flowReducer w.flow

theorem Dispatched.none (h : w'.flow = w.flow) : Dispatched w w' := ⟨[], h⟩

theorem Dispatched.one (action : FlowAction) (h : w'.flow = flowReducer w.flow action) : Dispatched w w' :=
  ⟨[action], h⟩

theorem Dispatched.trans {w'' : Wizard} (h : Dispatched w w') (h' : Dispatched w' w'') : Dispatched w w'' := by
  obtain ⟨actions, hactions⟩ := h
  obtain ⟨actions', hactions'⟩ := h'
  exact ⟨actions ++ actions', by rw [hactions', hactions, List.foldl_append]⟩

theorem Dispatched.nodup (h : Dispatched w w') (hseats : w.flow.seatIds.Nodup) : w'.flow.seatIds.Nodup := by
  obtain ⟨actions, hactions⟩ := h
  rw [hactions]
  generalize w.flow = flow at hseats
  clear hactions
  induction actions generalizing flow with
  | nil => exact hseats
  | cons action rest ih => exact ih _ (flowReducer_nodup hseats action)

theorem dispatched_react (w : Wizard) (gesture : Gesture) : Dispatched w (w.react gesture).1 := by
  cases gesture with
  | reserve => exact .one .start rfl
  | typePassenger seatId patch => exact .one (.passengerUpdated seatId patch) rfl
  | clearError => exact .one .errorCleared rfl
  | goBack => exact .one .back rfl
  | goHome => exact .one .restart rfl
  | search | selectTrain | delta => exact .none rfl
  | toggleSeat seatId =>
    simp only [react, handleToggleSeat]
    split <;> exact .one (.seatToggled seatId) rfl
  | confirmSeats saved =>
    have hfirst : Dispatched w (w.dispatch .seatsConfirmed) := .one .seatsConfirmed rfl
    simp only [react, handleSeatsConfirmed]
    split
    · rename_i patch first _ _
      exact hfirst.trans (.one (.passengerUpdated first patch) rfl)
    · exact hfirst
  | removeSeat seatId =>
    have hfirst : Dispatched w ((w.dispatch (.seatToggled seatId)).dropQuote seatId) := .one (.seatToggled seatId) rfl
    simp only [react, removeSeat]
    split
    · exact hfirst.trans (.one .back rfl)
    · exact hfirst

theorem dispatched_resume (w : Wizard) (ask : Ask) (reply : Reply) : Dispatched w (w.resume ask reply).1 := by
  cases ask with
  | searchTrains journey =>
    cases reply with
    | options trains => exact .one (.searched journey) rfl
    | failed | trip | view | quote => exact .none rfl
  | getTrip train =>
    cases reply with
    | trip trip => exact .one (.trainSelected train) rfl
    | failed | options | view | quote => exact .none rfl
  | availability => cases reply <;> exact .none rfl
  | quote => cases reply <;> exact .none rfl

theorem dispatched_settle (w : Wizard) (outcome : Except ApiError CheckoutOutcome) :
    Dispatched w (w.settle outcome).1 := by
  unfold settle handleGroupHoldError
  split
  · rename_i tickets
    exact .one (.booked tickets) rfl
  · split
    · rename_i conflictSeatId _
      exact .one (.seatRemovedConflict conflictSeatId _) rfl
    · exact .none rfl
  · exact .none rfl
  · exact .none rfl
  · exact .none rfl

end Wizard

/-! ## What every handler keeps -/

/-- What every handler keeps: no seat is twice in the cart, and no seat has two quotes. -/
structure Wizard.Tidy (w : Wizard) : Prop where
  seats  : w.flow.seatIds.Nodup
  quotes : Keyed Prod.fst w.seatQuotes

namespace Wizard.Tidy

variable {w : Wizard}

theorem react (h : w.Tidy) (gesture : Wizard.Gesture) : (w.react gesture).1.Tidy := by
  have hdropped : ∀ seatId, Keyed Prod.fst (w.dropQuote seatId).seatQuotes := fun seatId => by
    show Keyed Prod.fst (w.seatQuotes.filter _)
    exact List.Nodup.sublist (List.Sublist.map _ List.filter_sublist) h.quotes
  refine ⟨(Wizard.dispatched_react w gesture).nodup h.seats, ?_⟩
  cases gesture with
  | reserve | typePassenger | clearError | goBack | search | delta => exact h.quotes
  | selectTrain | goHome => exact keyed_nil
  | toggleSeat seatId =>
    simp only [Wizard.react, Wizard.handleToggleSeat]
    split
    · exact hdropped seatId
    · exact h.quotes
  | confirmSeats saved =>
    simp only [Wizard.react, Wizard.handleSeatsConfirmed]
    split <;> exact h.quotes
  | removeSeat seatId =>
    simp only [Wizard.react, Wizard.removeSeat]
    split <;> exact hdropped seatId

theorem resume (h : w.Tidy) (ask : Ask) (reply : Reply) : (w.resume ask reply).1.Tidy := by
  refine ⟨(Wizard.dispatched_resume w ask reply).nodup h.seats, ?_⟩
  cases ask with
  | searchTrains | getTrip | availability => cases reply <;> exact h.quotes
  | quote seatId body =>
    cases reply with
    | quote quote => exact put_keyed h.quotes _
    | failed | options | trip | view => exact h.quotes

theorem settle (h : w.Tidy) (outcome : Except ApiError CheckoutOutcome) : (w.settle outcome).1.Tidy := by
  refine ⟨(Wizard.dispatched_settle w outcome).nodup h.seats, ?_⟩
  unfold Wizard.settle
  split
  · exact h.quotes
  · unfold Wizard.handleGroupHoldError
    split <;> exact h.quotes
  · exact h.quotes
  · exact h.quotes
  · exact h.quotes

end Wizard.Tidy

/-- Every store has distinct booking ids. -/
theorem keyed_after (settings : Settings) (trips : List Trip) (history : List Incoming) :
    Keyed MemoryRepo.idOf (App.after settings (App.start trips) history).app.holds := by
  have hstep : ∀ (s : App.State) x, Keyed MemoryRepo.idOf s.app.holds →
      Keyed MemoryRepo.idOf (App.serve settings s x).2.app.holds := by
    intro s x hs
    unfold App.serve
    rcases serve_app settings x.env x.request s with hsame | ⟨call, hcall⟩
    · rw [hsame]
      exact hs
    · rw [hcall]
      exact (serve_change hs _).keyed
  have hrun : ∀ (history : List Incoming) (s : App.State), Keyed MemoryRepo.idOf s.app.holds →
      Keyed MemoryRepo.idOf (App.after settings s history).app.holds := by
    intro history
    induction history with
    | nil => exact fun _ hs => hs
    | cons x rest ih => exact fun s hs => ih _ (hstep s x hs)
  exact hrun history _ keyed_nil

/-- The trips are the given ones, and every booking has its own id, one of the given ones or one drawn for an earlier
    exchange. -/
structure Drawn (L : Line) (trips : List Trip) (ids : List String) (n : Nat) (w : World) : Prop where
  trips : w.trips = trips
  keyed : Keyed MemoryRepo.idOf w.holds
  drawn : ∀ h ∈ w.holds, h.bookingId ∈ ids ∨ ∃ k < n, h.bookingId = (L.env k).deps.newId

section Drawn

variable {L : Line} {trips : List Trip} {ids : List String} {n : Nat}

theorem Drawn.later {w : World} (h : Drawn L trips ids n w) : Drawn L trips ids (n + 1) w := by
  refine ⟨h.trips, h.keyed, fun b hb => ?_⟩
  rcases h.drawn b hb with hold | ⟨k, hk, hid⟩
  · exact Or.inl hold
  · exact Or.inr ⟨k, by omega, hid⟩

theorem Drawn.serve {w : World} (h : Drawn L trips ids n w) (call : Call) :
    Drawn L trips ids (n + 1) (w.serve ⟨call, (L.env n).deps, (L.env n).gateway⟩).2 := by
  have hchange := serve_change h.keyed ⟨call, (L.env n).deps, (L.env n).gateway⟩
  refine ⟨hchange.trips.trans h.trips, hchange.keyed, fun b hb => ?_⟩
  rcases hchange.origin b hb with ⟨b₀, hb₀, hmoved⟩ | hplaced
  · rw [hmoved.bookingId]
    exact h.later.drawn b₀ hb₀
  · exact Or.inr ⟨n, by omega, hplaced.id⟩

/-- **One exchange.** -/
theorem Drawn.exchange {edge : App.State} (h : Drawn L trips ids n edge.app) (f : Fetch) :
    Drawn L trips ids (n + 1) (L.exchange n f edge).2.app := by
  have hserved : Drawn L trips ids (n + 1) (edge.serve (handle L.settings (L.env n)) f.request).2.app := by
    rcases serve_app L.settings (L.env n) f.request edge with hsame | ⟨call, hcall⟩
    · rw [hsame]
      exact h.later
    · rw [hcall]
      exact h.serve call
  unfold Line.exchange
  cases L.fate n with
  | answered | unheard => exact hserved
  | dropped => exact h.later

theorem Drawn.answer {edge : App.State} (h : Drawn L trips ids n edge.app) (ask : Ask) :
    Drawn L trips ids (n + 1) (L.answer n edge ask).2.app := by
  have hread : ∀ {α : Type} (target : Target) (read : Response Body → Except ApiError α) (reply : α → Reply),
      Drawn L trips ids (n + 1) (L.read n target read reply edge).2.app := by
    intro α target read reply
    unfold Line.read
    dsimp only
    split <;> exact h.exchange _
  cases ask with
  | searchTrains | availability | quote => exact hread _ _ _
  | getTrip train =>
    have hsame : (L.getTrip n train edge).2 = edge := by
      unfold Line.getTrip
      split <;> rfl
    show Drawn L trips ids (n + 1) (L.getTrip n train edge).2.app
    rw [hsame]
    exact h.later

/-- **Every exchange of a checkout.** -/
theorem Drawn.checkout {t : Till} (h : Drawn L trips ids (n + t.calls.length) t.edge.app) {flow : Flow} {α : Type}
    (p : Prog Web ApiError α) :
    Drawn L trips ids (n + (p.run (L.ring n flow) t).2.calls.length) (p.run (L.ring n flow) t).2.edge.app := by
  have hstep : ∀ (o : Web.Op) (t : Till), Drawn L trips ids (n + t.calls.length) t.edge.app →
      Drawn L trips ids (n + (L.ring n flow o t).2.calls.length) (L.ring n flow o t).2.edge.app := by
    intro o t ht
    cases o with
    | flow => exact ht
    | fetch f =>
      have hlater := ht.exchange f
      unfold Line.ring
      dsimp only
      rw [List.length_append, List.length_singleton, ← Nat.add_assoc]
      exact hlater
  exact Prog.run_invariant (I := fun t : Till => Drawn L trips ids (n + t.calls.length) t.edge.app) (L.ring n flow) hstep p h

end Drawn

/-! ## One exchange through the replay cache -/

section Exchange

variable {L : Line} {n : Nat} {f : Fetch} {edge : App.State}

/-- The answer is a replay and nothing happened, or the app gave it and it is stored. -/
theorem exchange_ok {α : Type} {schema : String} {shape : Body → Option α} {a : α}
    (h : ((L.exchange n f edge).1 >>= readAs schema shape) = .ok a) :
    (∃ cached, edge.replay? f.request = some cached ∧ readAs schema shape cached.response = .ok a ∧
        (L.exchange n f edge).2 = edge) ∨
      (edge.replay? f.request = none ∧
        readAs schema shape (received (handle L.settings (L.env n) f.request edge.app).1) = .ok a ∧
        (L.exchange n f edge).2.app = (handle L.settings (L.env n) f.request edge.app).2 ∧
        (∀ k, f.request.cacheKey? ≠ some k →
          lookup Prod.fst k (L.exchange n f edge).2.cache = lookup Prod.fst k edge.cache) ∧
        ∀ k, f.request.cacheKey? = some k → ∃ cached,
          (lookup Prod.fst k (L.exchange n f edge).2.cache).map (·.2) = some cached ∧
          readAs schema shape cached.response = .ok a) := by
  have hserved : (L.exchange n f edge).1 = .ok (received (edge.serve (handle L.settings (L.env n)) f.request).1) ∧
      (L.exchange n f edge).2 = (edge.serve (handle L.settings (L.env n)) f.request).2 := by
    unfold Line.exchange at h ⊢
    cases hfate : L.fate n with
    | answered => exact ⟨rfl, rfl⟩
    | dropped | unheard =>
      rw [hfate] at h
      cases h
  rw [hserved.1] at h
  rw [hserved.2]
  change readAs schema shape (received (edge.serve (handle L.settings (L.env n)) f.request).1) = .ok a at h
  cases hreplay : edge.replay? f.request with
  | some cached =>
    rw [serve_replay hreplay] at h ⊢
    exact Or.inl ⟨cached, rfl, h, rfl⟩
  | none =>
    obtain ⟨hanswer, hstate⟩ := @serve_reached _ _ _ _ (handle L.settings (L.env n)) _ _ hreplay
    rw [hanswer] at h
    refine Or.inr ⟨rfl, h, ?_⟩
    rcases hstate with ⟨hstate, hnot⟩ | ⟨key, response, hkey, hrun, hstate⟩
    · rw [hstate]
      refine ⟨rfl, fun k _ => rfl, fun k hk => ?_⟩
      rcases hnot with hnokey | ⟨e, he⟩
      · rw [hnokey] at hk
        cases hk
      · -- an escaped exception is answered with 500, which is no success
        rw [he] at h
        cases h
    · rw [hstate]
      refine ⟨rfl, fun k hk => ?_, fun k hk => ?_⟩
      · have hne : key ≠ k := fun heq => hk (heq ▸ hkey)
        show lookup Prod.fst k (put Prod.fst (key, response.cached) edge.cache) = _
        rw [lookup_put_ne hne]
      · obtain rfl : key = k := Option.some.inj (hkey.symm.trans hk)
        refine ⟨response.cached, ?_, ?_⟩
        · show (lookup Prod.fst key (put Prod.fst (key, response.cached) edge.cache)).map (·.2) = _
          rw [show lookup Prod.fst key (put Prod.fst (key, response.cached) edge.cache) =
            some (key, response.cached) from lookup_put_self (key, response.cached) edge.cache]
          rfl
        · rw [hrun] at h
          rw [← h]
          exact readAs_shown (shown_cached response)

end Exchange

/-! ## Where a quote comes from -/

/-- The quote is right for a store: its fare is the price that the store gives the trip, leg and class the quote names.
    -/
def QuoteOut.PricedOn (q : QuoteOut) (deps : Deps) (w : World) : Prop :=
  ∃ trip leg, MemoryRepo.getTrip w.trips q.tripId = .ok trip ∧ Leg.make q.originSeq q.destSeq = .ok leg ∧
    legPrice deps w.holds trip leg q.travelClass = .ok ⟨q.fare.cents⟩

theorem readQuote_errorResponse {e : Err} {q : QuoteOut} : readQuote (received (errorResponse e)) ≠ .ok q :=
  readAs_errorResponse (fun _ _ => rfl) fun _ => rfl

/-- **A quote route's answer** is the price on the store as it is. -/
theorem quote_right {settings : Settings} {env : Env} {body : Payload QuoteRequest} {w : World} {q : QuoteOut}
    (h : readQuote (received (handle settings env (Fetch.other (.quote body) []).request w).1) = .ok q) :
    q.PricedOn env.deps w := by
  change readQuote (received (withBody body (checked (body.checked? QuoteRequest.valid) (env.quote settings)) w).1) =
    .ok q at h
  have hrefused : ∀ {response : Response Body}, response.body = .fieldErrors ∨ (∃ text, response.body = .detail text) →
      readQuote (received (.ok response)) ≠ .ok q := by
    rintro response hbody hread
    have hshape : response.body.quote? = some q := readAs_ok hread
    rcases hbody with hbody | ⟨text, hbody⟩ <;> rw [hbody] at hshape <;> cases hshape
  cases body with
  | notText => exact absurd h (hrefused (Or.inr ⟨_, rfl⟩))
  | notJson | mistyped => exact absurd h (hrefused (Or.inl rfl))
  | fields b =>
    cases hvalid : b.valid with
    | false =>
      simp only [withBody, Payload.unread?, Payload.checked?, hvalid] at h
      exact absurd h (hrefused (Or.inl rfl))
    | true =>
      simp only [withBody, Payload.unread?, Payload.checked?, hvalid, if_true, checked] at h
      unfold Env.quote onLeg at h
      cases hleg : Leg.make b.originSeq b.destSeq with
      | error e =>
        rw [hleg] at h
        exact absurd h readQuote_errorResponse
      | ok leg =>
        rw [hleg] at h
        dsimp only at h
        unfold Env.run at h
        rw [serve_quote] at h
        cases htrip : MemoryRepo.getTrip w.trips b.tripId with
        | error e =>
          rw [htrip] at h
          exact absurd h readQuote_errorResponse
        | ok trip =>
          rw [htrip] at h
          cases hline : validateLeg trip leg with
          | error e =>
            simp only [bind, Except.bind, hline] at h
            exact absurd h readQuote_errorResponse
          | ok u =>
            simp only [bind, Except.bind, hline] at h
            cases hprice : legPrice env.deps w.holds trip leg b.travelClass with
            | error e =>
              rw [hprice] at h
              exact absurd h readQuote_errorResponse
            | ok fare =>
              rw [hprice] at h
              have hshape := readAs_ok h
              obtain rfl : _ = q := Option.some.inj hshape
              exact ⟨trip, leg, htrip, hleg, hprice⟩

/-- **A quote served** is the price on the store it was read from. -/
theorem priced_of_served {L : Line} {n : Nat} {edge : App.State} {seatId : String} {body : Payload QuoteRequest}
    {q : QuoteOut} (h : (L.answer n edge (.quote seatId body)).1 = .quote q) :
    q.PricedOn (L.env n).deps edge.app := by
  change (L.read n (.quote body) readQuote .quote edge).1 = .quote q at h
  unfold Line.read at h
  dsimp only at h
  cases hread : (L.exchange n (.other (.quote body) []) edge).1 >>= readQuote with
  | error e =>
    rw [hread] at h
    cases h
  | ok q' =>
    rw [hread] at h
    cases h
    rcases exchange_ok hread with ⟨cached, hfound, -⟩ | ⟨-, hanswer, -⟩
    · -- a quote carries no key
      cases hfound
    · exact quote_right hanswer

namespace Wizard

variable {w : Wizard} {e : String × QuoteOut}

/-- No gesture brings a quote. -/
theorem quotes_of_react {gesture : Gesture} (h : e ∈ (w.react gesture).1.seatQuotes) : e ∈ w.seatQuotes := by
  have hdrop : ∀ {seatId : String}, e ∈ w.seatQuotes.filter (·.1 ≠ seatId) → e ∈ w.seatQuotes :=
    fun h => (List.mem_filter.mp h).1
  cases gesture with
  | reserve | search | typePassenger | clearError | goBack | delta => exact h
  | selectTrain | goHome => exact absurd h List.not_mem_nil
  | toggleSeat seatId =>
    simp only [react, handleToggleSeat] at h
    split at h
    · exact hdrop h
    · exact h
  | confirmSeats saved =>
    simp only [react, handleSeatsConfirmed] at h
    split at h <;> exact h
  | removeSeat seatId =>
    simp only [react, removeSeat] at h
    split at h <;> exact hdrop h

/-- Only the answer to a quote brings one. -/
theorem quotes_of_resume (hk : Keyed Prod.fst w.seatQuotes) {ask : Ask} {reply : Reply}
    (h : e ∈ (w.resume ask reply).1.seatQuotes) :
    (∃ body, ask = .quote e.1 body ∧ reply = .quote e.2) ∨
      (e ∈ w.seatQuotes ∧ ∀ seatId body q, ask = .quote seatId body → reply = .quote q → e.1 ≠ seatId) := by
  have hother : e ∈ w.seatQuotes → (∀ seatId body q, ask = .quote seatId body → reply ≠ .quote q) →
      (e ∈ w.seatQuotes ∧ ∀ seatId body q, ask = .quote seatId body → reply = .quote q → e.1 ≠ seatId) :=
    fun he hno => ⟨he, fun seatId body q hask hreply => absurd hreply (hno seatId body q hask)⟩
  cases ask with
  | searchTrains | getTrip =>
    cases reply <;> exact Or.inr (hother h fun _ _ _ hask => by cases hask)
  | availability =>
    cases reply <;> exact Or.inr (hother h fun _ _ _ hask => by cases hask)
  | quote seatId body =>
    cases reply with
    | quote q =>
      change e ∈ put Prod.fst (seatId, q) w.seatQuotes at h
      rcases (mem_put hk).mp h with rfl | ⟨hold, hne⟩
      · exact Or.inl ⟨body, rfl, rfl⟩
      · refine Or.inr ⟨hold, fun seatId' body' q' hask _ => ?_⟩
        cases hask
        exact hne
    | failed | options | trip | view => exact Or.inr (hother h fun _ _ _ _ hreply => by cases hreply)

theorem quotes_of_settle {outcome : Except ApiError CheckoutOutcome} :
    (w.settle outcome).1.seatQuotes = w.seatQuotes := by
  unfold settle handleGroupHoldError
  split
  · rfl
  · split <;> rfl
  · rfl
  · rfl
  · rfl

end Wizard

/-! ## What holds all through a visit -/

/-- The seats and quotes are tidy, the bookings drawn, and every quote on the screen or on its way is the price on the
    store it was read from. -/
structure Visit.Sound (L : Line) (trips : List Trip) (ids : List String) (v : Visit) : Prop where
  tidy     : v.wizard.Tidy
  drawn    : Drawn L trips ids v.served v.edge.app
  onScreen : ∀ e ∈ v.wizard.seatQuotes, ∃ n w, lookup Prod.fst e.1 v.quotedOn = some (e.1, w) ∧ w.trips = trips ∧
    e.2.PricedOn (L.env n).deps w
  onItsWay : ∀ f ∈ v.sent, ∀ seatId body q w, f.ask = .quote seatId body → f.served = some (.quote q, w) →
    w.trips = trips ∧ ∃ n, q.PricedOn (L.env n).deps w

section Sound

variable {L : Line} {trips : List Trip} {ids : List String} {v : Visit}

theorem Visit.remember_ne (v : Visit) {ask : Ask} {reply : Reply} {store : World} {k : String}
    (h : ∀ seatId body q, ask = .quote seatId body → reply = .quote q → k ≠ seatId) :
    lookup Prod.fst k (v.remember ask reply store) = lookup Prod.fst k v.quotedOn := by
  cases ask with
  | searchTrains | getTrip | availability => rfl
  | quote seatId body =>
    cases reply with
    | quote q =>
      have hne : Prod.fst (seatId, store) ≠ k := (h seatId body q rfl rfl).symm
      show lookup Prod.fst k (put Prod.fst (seatId, store) v.quotedOn) = _
      rw [lookup_put_ne hne]
    | failed | options | trip | view => rfl

/-- What is sent anew has not been served. -/
theorem Visit.Sound.sends (h : v.Sound L trips ids) {next : Wizard × List Ask} (htidy : next.1.Tidy)
    (hquotes : ∀ e ∈ next.1.seatQuotes, e ∈ v.wizard.seatQuotes) : (v.goOn next).Sound L trips ids := by
  refine ⟨htidy, h.drawn, fun e he => h.onScreen e (hquotes e he), fun f hf seatId body q w hask hserved => ?_⟩
  rcases List.mem_append.mp hf with hf | hf
  · exact h.onItsWay f hf seatId body q w hask hserved
  · obtain ⟨ask, -, rfl⟩ := List.mem_map.mp hf
    cases hserved

theorem Visit.Sound.step (h : v.Sound L trips ids) (e : VisitEvent) : (v.step L e).Sound L trips ids := by
  cases e with
  | gesture gesture =>
    unfold Visit.step
    dsimp only
    split
    · exact h.sends (h.tidy.react gesture) fun e he => Wizard.quotes_of_react he
    · exact h
  | serve request =>
    unfold Visit.step
    dsimp only
    split
    · rename_i ask hsent
      refine ⟨h.tidy, h.drawn.answer _, h.onScreen, fun f hf seatId body q w hask hserved => ?_⟩
      rcases List.mem_or_eq_of_mem_set hf with hf | rfl
      · exact h.onItsWay f hf seatId body q w hask hserved
      · -- the reply is read from the store of this moment
        dsimp only at hask hserved
        subst hask
        obtain ⟨hreply, rfl⟩ := Prod.mk.inj (Option.some.inj hserved)
        exact ⟨h.drawn.trips, _, priced_of_served hreply⟩
    · exact h
  | answer request =>
    unfold Visit.step
    dsimp only
    split
    · rename_i ask reply store hsent
      have hmem := List.mem_of_getElem? hsent
      refine ⟨h.tidy.resume _ _, h.drawn, fun e he => ?_, fun f hf seatId body q w hask hserved => ?_⟩
      · rcases Wizard.quotes_of_resume h.tidy.quotes he with ⟨body, rfl, rfl⟩ | ⟨hold, hother⟩
        · obtain ⟨htrips, n, hpriced⟩ := h.onItsWay _ hmem e.1 body e.2 store rfl rfl
          exact ⟨n, store, lookup_put_self (e.1, store) v.quotedOn, htrips, hpriced⟩
        · obtain ⟨n, w, hfound, htrips, hpriced⟩ := h.onScreen e hold
          refine ⟨n, w, ?_, htrips, hpriced⟩
          exact (Visit.remember_ne v hother).trans hfound
      · rcases List.mem_append.mp hf with hf | hf
        · exact h.onItsWay f (List.mem_of_mem_eraseIdx hf) seatId body q w hask hserved
        · obtain ⟨ask', -, rfl⟩ := List.mem_map.mp hf
          cases hserved
    · exact h
  | reserveAndPay =>
    unfold Visit.step
    dsimp only
    split
    · have hpaid : ({ v with
          edge := (v.checkout L).2.edge
          served := v.served + (v.checkout L).2.calls.length } : Visit).Sound L trips ids :=
        ⟨h.tidy, Drawn.checkout (t := ⟨v.edge, []⟩) h.drawn _, h.onScreen, h.onItsWay⟩
      refine hpaid.sends (h.tidy.settle _) fun e he => ?_
      rw [Wizard.quotes_of_settle] at he
      exact he
    · exact h

/-- **All through a visit.** -/
theorem Visit.Sound.after (h : v.Sound L trips ids) (events : List VisitEvent) :
    (v.after L events).Sound L trips ids := by
  induction events generalizing v with
  | nil => exact h
  | cons e events ih => exact ih (h.step e)

end Sound

end SlrBooking
