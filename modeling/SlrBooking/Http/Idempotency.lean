import SlrBooking.Theory.Pool
import SlrBooking.Theory.Rows

/-!
# `Http.Idempotency` — the replay cache at the HTTP edge

`dispatch` is a program of three operations, the only points where the source awaits or takes the cache's
lock: look the key up, run the rest of the app, store the answer. Between any two of them another request may
run. The app behind the middleware is a parameter.

## Contents
- `HttpRequest`, `Response`, `Cached` and the cache key.
- `EdgeOp`, `dispatch`, and `EdgeState.answer`, which answers the operations over one cache and one app.
- `Stage`: how far a keyed request has come, read off its log; `outline_dispatch`.
-/

namespace SlrBooking

open Theory Rows

/-- A request as the middleware sees it. Header names are lower-case, as ASGI hands them over. -/
structure HttpRequest (Q : Type) where
  method  : String
  path    : String
  headers : List (String × String)
  body    : Q

def HttpRequest.header {Q : Type} (request : HttpRequest Q) (name : String) : Option String :=
  (request.headers.find? fun h => h.1 = name).map (·.2)

/-- An answer with its streamed body joined. The middleware reads a body once and builds the answer anew from what it
    read. -/
structure Response (B : Type) where
  status    : Nat
  body      : B
  headers   : List (String × String) := []
  mediaType : Option String := none
deriving DecidableEq

/-- What the cache stores of an answer. -/
structure Cached (B : Type) where
  status : Nat
  body   : B
  media  : String
deriving DecidableEq

/-- The replayed answer. -/
def Cached.response {B : Type} (cached : Cached B) : Response B :=
  { status := cached.status, body := cached.body, mediaType := some cached.media }

def Response.cached {B : Type} (response : Response B) : Cached B :=
  ⟨response.status, response.body, response.mediaType.getD "application/json"⟩

/-- What the client sees of an answer. -/
def Response.shown {B : Type} (response : Response B) : Nat × B := (response.status, response.body)

@[simp] theorem shown_cached {B : Type} (response : Response B) : response.cached.response.shown = response.shown := rfl

def idempotencyHeader : String := "idempotency-key"

def cacheKey (method path key : String) : String := s!"{method} {path} {key}"

/-- The key a request is cached under: a POST with a non-empty header has one. -/
def HttpRequest.cacheKey? {Q : Type} (request : HttpRequest Q) : Option String :=
  match request.header idempotencyHeader with
  | none => none
  | some key =>
    if request.method ≠ "POST" ∨ key = "" then none
    else some (cacheKey request.method request.path key)

/-- The points where a dispatch can be interleaved with others: the look-up in the cache, the call of the rest of the
    app, and the store of the answer. Between two of them the event loop may run any other dispatch. -/
inductive EdgeOp (Q B : Type) where
  | get (key : String)
  | callNext (request : HttpRequest Q)
  | put (key : String) (value : Cached B)

@[reducible] def EdgeOp.Res {Q B : Type} : EdgeOp Q B → Type
  | .get _ => Option (Cached B)
  | .callNext _ => Response B
  | .put _ _ => Unit

abbrev Edge (Q B : Type) : Sig := ⟨EdgeOp Q B, EdgeOp.Res⟩

section Dispatch

variable {Q B ε σ : Type}

namespace Cache

def get (key : String) : Prog (Edge Q B) ε (Option (Cached B)) := Prog.call (S := Edge Q B) (.get key)
def put (key : String) (value : Cached B) : Prog (Edge Q B) ε Unit := Prog.call (S := Edge Q B) (.put key value)

end Cache

def callNext (request : HttpRequest Q) : Prog (Edge Q B) ε (Response B) :=
  Prog.call (S := Edge Q B) (.callNext request)

/-- `IdempotencyMiddleware.dispatch`. -/
def dispatch (request : HttpRequest Q) : Prog (Edge Q B) ε (Response B) :=
  match request.cacheKey? with
  | none => callNext request
  | some key => do
    match ← Cache.get key with
    | some cached => return cached.response
    | none => do
      let response ← callNext request
      Cache.put key response.cached
      return response

/-- The rest of the app: it answers a request, or an exception escapes it. -/
abbrev Handler (Q B ε σ : Type) : Type := HttpRequest Q → σ → Except ε (Response B) × σ

/-- The cache, the app's own state, and a log of which requests reached the app with what outcome. The log is for the
    statements only; nothing reads it. -/
structure EdgeState (B ε σ : Type) where
  cache    : List (String × Cached B) := []
  app      : σ
  executed : List (Nat × Except ε (Response B)) := []

/-- How request number `t` acts on the edge. -/
def EdgeState.answer (handler : Handler Q B ε σ) (t : Nat) :
    (o : EdgeOp Q B) → EdgeState B ε σ → Except ε o.Res × EdgeState B ε σ
  | .get key, s => (.ok ((lookup Prod.fst key s.cache).map (·.2)), s)
  | .callNext request, s =>
    ((handler request s.app).1,
      { s with app := (handler request s.app).2, executed := s.executed ++ [(t, (handler request s.app).1)] })
  | .put key value, s => (.ok (), { s with cache := Rows.put Prod.fst (key, value) s.cache })

/-! ## The stages of a keyed request -/

/-- How far a request with a cache key has come. -/
inductive Stage (B ε : Type) where
  | fresh
  | hit (cached : Cached B)
  | missed
  | ran (response : Response B)
  | failed (e : ε)
  | stored (response : Response B)

namespace Stage

/-- What an answered operation moves a request to. -/
def note : Stage B ε → (o : EdgeOp Q B) → Except ε o.Res → Stage B ε
  | _, .get _, .ok (some cached) => .hit cached
  | _, .get _, .ok none => .missed
  | _, .callNext _, .ok response => .ran response
  | .ran response, .put _ _, .ok _ => .stored response
  | _, _, .error e => .failed e
  | l, .put _ _, .ok _ => l

/-- The outcome of the app, once the request has run it. -/
def outcome? : Stage B ε → Option (Except ε (Response B))
  | .ran response | .stored response => some (.ok response)
  | .failed e => some (.error e)
  | .fresh | .hit _ | .missed => none

/-- The cache did not answer the request. -/
def Unanswered (l : Stage B ε) : Bool :=
  match l with
  | .missed | .ran _ | .failed _ | .stored _ => true
  | .fresh | .hit _ => false

/-- The cache did not answer the request, and holds no answer of it. -/
def Owes (l : Stage B ε) : Bool :=
  match l with
  | .missed | .ran _ | .failed _ => true
  | .fresh | .hit _ | .stored _ => false

/-- The operations a request may perform at a stage. -/
def Allows (request : HttpRequest Q) (key : String) : Stage B ε → EdgeOp Q B → Prop
  | .fresh, .get k => k = key
  | .missed, .callNext r => r = request
  | .ran response, .put k value => k = key ∧ value = response.cached
  | _, _ => False

/-- What a request that has come this far answers. -/
def Answers : Stage B ε → Except ε (Response B) → Prop
  | .hit cached, r => r = .ok cached.response
  | .stored response, r => r = .ok response
  | .failed e, r => r = .error e
  | .fresh, _ | .missed, _ | .ran _, _ => False

theorem unanswered_of_owes {l : Stage B ε} (h : l.Owes = true) : l.Unanswered = true := by
  cases l <;> first | rfl | cases h

/-- A request that the cache did not answer and that has answered has run the app. -/
theorem Answers.outcome {l : Stage B ε} {a : Except ε (Response B)} (h : l.Answers a) (hu : l.Unanswered = true) :
    ∃ b, l.outcome? = some b := by
  cases l with
  | fresh | hit _ => cases hu
  | missed | ran _ => exact h.elim
  | failed e => exact ⟨_, rfl⟩
  | stored response => exact ⟨_, rfl⟩

end Stage

/-- **A keyed dispatch passes its stages in order.** -/
theorem outline_dispatch {request : HttpRequest Q} {key : String} (hkey : request.cacheKey? = some key) :
    Prog.Outline (Stage.Allows request key) Stage.note Stage.Answers Stage.fresh
      (dispatch (B := B) (ε := ε) request) := by
  unfold dispatch
  rw [hkey]
  refine Prog.outline_bind.mpr ⟨rfl, fun found => ?_⟩
  cases found with
  | error e => rfl
  | ok entry =>
    cases entry with
    | some cached => rfl
    | none =>
      refine Prog.outline_bind.mpr ⟨rfl, fun ran => ?_⟩
      cases ran with
      | error e => rfl
      | ok response =>
        refine Prog.outline_bind.mpr ⟨⟨rfl, rfl⟩, fun stored => ?_⟩
        cases stored <;> rfl

/-! ## One request at a time -/

/-- The answer the cache holds for a request. -/
def EdgeState.replay? (s : EdgeState B ε σ) (request : HttpRequest Q) : Option (Cached B) :=
  match request.cacheKey? with
  | none => none
  | some key => (lookup Prod.fst key s.cache).map (·.2)

/-- Serve one request to its end. -/
def EdgeState.serve (handler : Handler Q B ε σ) (request : HttpRequest Q) (s : EdgeState B ε σ) :
    Except ε (Response B) × EdgeState B ε σ :=
  (dispatch request).run (EdgeState.answer handler s.executed.length) s

/-- The state after the app has answered `request` itself. -/
def EdgeState.reached (handler : Handler Q B ε σ) (request : HttpRequest Q) (s : EdgeState B ε σ) : EdgeState B ε σ :=
  { s with
    app := (handler request s.app).2
    executed := s.executed ++ [(s.executed.length, (handler request s.app).1)] }

section Run

variable (handler : Handler Q B ε σ) (t : Nat) (s : EdgeState B ε σ)

theorem run_cacheGet (key : String) : (Cache.get (Q := Q) key).run (EdgeState.answer handler t) s =
    (.ok ((lookup Prod.fst key s.cache).map (·.2)), s) := rfl

theorem run_callNext (request : HttpRequest Q) : (callNext request).run (EdgeState.answer handler t) s =
    ((handler request s.app).1,
      { s with app := (handler request s.app).2, executed := s.executed ++ [(t, (handler request s.app).1)] }) := by
  show (Prog.call (S := Edge Q B) _).run _ _ = _
  rw [Prog.run_call]
  rfl

end Run

variable {handler : Handler Q B ε σ} {request : HttpRequest Q} {s : EdgeState B ε σ}

/-- A stored answer is replayed and nothing happens. -/
theorem serve_replay {cached : Cached B} (h : s.replay? request = some cached) :
    s.serve handler request = (.ok cached.response, s) := by
  unfold EdgeState.replay? at h
  unfold EdgeState.serve dispatch
  cases hkey : request.cacheKey? with
  | none =>
    rw [hkey] at h
    cases h
  | some key =>
    rw [hkey] at h
    simp only [Prog.bind_eq, Prog.run_bind, run_cacheGet, h]
    rfl

/-- **Otherwise the app answers.** Its answer is sent, and stored if the request has a key. -/
theorem serve_reached (h : s.replay? request = none) : (s.serve handler request).1 = (handler request s.app).1 ∧
    (((s.serve handler request).2 = s.reached handler request ∧
        (request.cacheKey? = none ∨ ∃ e, (handler request s.app).1 = .error e)) ∨
      ∃ key response, request.cacheKey? = some key ∧ (handler request s.app).1 = .ok response ∧
        (s.serve handler request).2 =
          { s.reached handler request with cache := Rows.put Prod.fst (key, response.cached) s.cache }) := by
  unfold EdgeState.replay? at h
  unfold EdgeState.serve dispatch EdgeState.reached
  cases hkey : request.cacheKey? with
  | none =>
    dsimp only
    rw [run_callNext]
    exact ⟨rfl, Or.inl ⟨rfl, Or.inl rfl⟩⟩
  | some key =>
    rw [hkey] at h
    simp only [Prog.bind_eq, Prog.run_bind, run_cacheGet, h, run_callNext]
    cases hrun : (handler request s.app).1 with
    | error e => exact ⟨rfl, Or.inl ⟨rfl, Or.inr ⟨e, rfl⟩⟩⟩
    | ok response => exact ⟨rfl, Or.inr ⟨key, response, rfl, rfl, rfl⟩⟩

end Dispatch

end SlrBooking
