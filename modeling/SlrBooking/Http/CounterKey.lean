import SlrBooking.Http.Routes

/-!
# `Http.CounterKey` — the counter key against the replay cache

The key is checked by a dependency of the admin routes, behind the middleware; the cache in front knows
neither the key nor the route.

## Contents
- `KeyRespected`: the law of one request. `KeyDecides`: when the app keeps it.
- `guarded_unauthorized_iff`, `handle_unauthorized_iff`: when an admin route itself answers 401.
- `counter_key_iff`: after every history, a request to an admin route is answered as its key deserves exactly
  when `KeyDecides`. `replayed_without_key`: the history that breaks the law.
-/

namespace SlrBooking

open Theory Rows App

/-- The counter key the request presents. -/
def Incoming.credential (x : Incoming) : Option String := x.request.header counterKeyHeader

/-- The framework can read the body, so that it goes on to the dependencies. -/
def Target.readable : Target → Bool
  | .sell body => body.unread?.isNone
  | _ => true

variable (settings : Settings)

/-- **The law at one request**: without the key it is refused and told nothing about a booking, and with the key it is
    not refused. -/
structure KeyRespected (s : App.State) (x : Incoming) : Prop where
  wrong : x.credential ≠ some settings.counterKey →
    (received (serve settings s x).1).status = 401 ∧ (received (serve settings s x).1).body.bookingData = false
  right : x.credential = some settings.counterKey → (received (serve settings s x).1).status ≠ 401

/-- A replayed answer is a refusal exactly if the key is wrong; otherwise a wrong key can be compared at all, and
    leaving the header out is not the same as presenting the key. -/
def KeyDecides (s : App.State) (x : Incoming) : Prop :=
  match s.replay? x.request with
  | some cached => cached.status = 401 ↔ x.credential ≠ some settings.counterKey
  | none => x.credential ≠ some settings.counterKey →
      x.target.readable = true ∧ isAscii (x.credential.getD "") = true ∧ isAscii settings.counterKey = true ∧
        (x.credential = none → settings.counterKey ≠ "")

variable {settings}

/-! ## The guard -/

theorem received_ne_unauthorized {k : World → Outgoing × World} (hk : NoUnauthorized k) (w : World) :
    (received (k w).1).status ≠ 401 := by
  cases hrun : (k w).1 with
  | ok response => exact hk w response hrun
  | error fault => exact (by decide : (500 : Nat) ≠ 401)

/-- **When the guard refuses.** -/
theorem guarded_unauthorized_iff {request : HttpRequest Target} {k : World → Outgoing × World} (hk : NoUnauthorized k)
    (w : World) : (received (guarded settings request k w).1).status = 401 ↔
      isAscii ((request.header counterKeyHeader).getD "") = true ∧ isAscii settings.counterKey = true ∧
        (request.header counterKeyHeader).getD "" ≠ settings.counterKey := by
  unfold guarded requireCounterKey compareDigest
  generalize (request.header counterKeyHeader).getD "" = key
  cases hascii : isAscii key && isAscii settings.counterKey with
  | false =>
    -- the comparison raises, and the client gets a 500
    have hno : ¬ (isAscii key = true ∧ isAscii settings.counterKey = true ∧ key ≠ settings.counterKey) := by
      rintro ⟨h₁, h₂, -⟩
      rw [h₁, h₂] at hascii
      cases hascii
    exact iff_of_false (by decide : (500 : Nat) ≠ 401) hno
  | true =>
    obtain ⟨h₁, h₂⟩ := Bool.and_eq_true_iff.mp hascii
    by_cases hsame : key = settings.counterKey
    · have hrun : (received (k w).1).status ≠ 401 := received_ne_unauthorized hk w
      refine iff_of_false ?_ (fun h => h.2.2 hsame)
      simpa [hsame, Bind.bind, Except.bind, pure, Except.pure] using hrun
    · refine iff_of_true ?_ ⟨h₁, h₂, hsame⟩
      simp [hsame, Bind.bind, Except.bind, pure, Except.pure, received, invalidCounterKey, json]

/-- What the guard refuses with tells nothing. -/
theorem guarded_refusal {request : HttpRequest Target} {k : World → Outgoing × World} (hk : NoUnauthorized k)
    {w : World} {response : Response Body} (h : (guarded settings request k w).1 = .ok response)
    (hs : response.status = 401) :
    response.body.bookingData = false := by
  unfold guarded at h
  split at h
  · cases h
  · rename_i refusal hguard
    have hrefusal : refusal = invalidCounterKey := by
      unfold requireCounterKey at hguard
      cases hc : compareDigest ((request.header counterKeyHeader).getD "") settings.counterKey with
      | error fault =>
        rw [hc] at hguard
        cases hguard
      | ok same =>
        rw [hc] at hguard
        cases same with
        | false => exact (Option.some.inj (Except.ok.inj hguard)).symm
        | true => cases hguard
    rw [← Except.ok.inj h, hrefusal]
    rfl
  · exact absurd hs (hk w response h)

/-! ## The app -/

variable {env : Env} {request : HttpRequest Target}

/-- A 401 of the app carries no booking data. -/
theorem handle_refusal {w : World} {response : Response Body} (h : (handle settings env request w).1 = .ok response)
    (hs : response.status = 401) : response.body.bookingData = false := by
  have hclean : ∀ {k : World → Outgoing × World}, NoUnauthorized k → (k w).1 = .ok response →
      response.body.bookingData = false := fun hk hrun => absurd hs (hk w response hrun)
  unfold handle at h
  cases htarget : request.body <;> rw [htarget] at h <;> dsimp only at h
  case search query =>
    exact hclean (noUnauthorized_checked _ fun _ => noUnauthorized_run env _ (by decide) _) h
  case availability tripId seqs =>
    exact hclean
      (noUnauthorized_checked _ fun _ => noUnauthorized_onLeg fun _ => noUnauthorized_run env _ (by decide) _) h
  case quote body =>
    exact hclean (noUnauthorized_withBody body (noUnauthorized_checked _ (noUnauthorized_quote env settings))) h
  case hold body =>
    exact hclean (noUnauthorized_withBody body (noUnauthorized_checked _ (noUnauthorized_hold env settings))) h
  case confirm bookingId => exact hclean (noUnauthorized_run env _ (by decide) _) h
  case cancel bookingId => exact hclean (noUnauthorized_run env _ (by decide) _) h
  case sell body =>
    unfold withBody at h
    split at h
    · rename_i refusal hunread
      rw [← Except.ok.inj h] at hs
      exact absurd hs (unread_ne_unauthorized hunread)
    · exact guarded_refusal (noUnauthorized_checked _ (noUnauthorized_sell env settings)) h hs
  case verify reference => exact guarded_refusal (noUnauthorized_verify env settings reference) h hs
  case elsewhere page =>
    rw [← Except.ok.inj h] at hs
    exact absurd hs page.asks_no_key

/-- **When an admin route answers 401.** -/
theorem handle_unauthorized_iff (hadmin : request.body.isAdmin = true) (w : World) :
    (received (handle settings env request w).1).status = 401 ↔ request.body.readable = true ∧
      isAscii ((request.header counterKeyHeader).getD "") = true ∧ isAscii settings.counterKey = true ∧
        (request.header counterKeyHeader).getD "" ≠ settings.counterKey := by
  unfold handle
  cases htarget : request.body <;> rw [htarget] at hadmin <;> try cases hadmin
  case sell body =>
    dsimp only
    have hguard := @guarded_unauthorized_iff settings request _
      (noUnauthorized_checked (body.checked? SellUnreservedRequest.valid) (noUnauthorized_sell env settings)) w
    unfold withBody
    cases hunread : body.unread? with
    | some refusal =>
      have hbody : ¬ (Target.sell body).readable = true := by simp [Target.readable, hunread]
      exact iff_of_false (unread_ne_unauthorized hunread) fun h => hbody h.1
    | none =>
      have hbody : (Target.sell body).readable = true := by simp [Target.readable, hunread]
      exact hguard.trans ⟨fun h => ⟨hbody, h⟩, fun h => h.2⟩
  case verify reference =>
    exact (guarded_unauthorized_iff (noUnauthorized_verify env settings reference) w).trans
      ⟨fun h => ⟨rfl, h⟩, fun h => h.2⟩

/-! ## Histories -/

/-- No stored refusal carries booking data. -/
def CleanRefusals (s : App.State) : Prop := ∀ e ∈ s.cache, e.2.status = 401 → e.2.body.bookingData = false

/-- **Step lemma.** -/
theorem cleanRefusals_serve {s : App.State} (h : CleanRefusals s) (x : Incoming) :
    CleanRefusals (serve settings s x).2 := by
  unfold App.serve
  cases hreplay : s.replay? x.request with
  | some cached =>
    rw [serve_replay hreplay]
    exact h
  | none =>
    obtain ⟨-, ⟨hstate, -⟩ | ⟨key, response, -, hrun, hstate⟩⟩ := serve_reached hreplay
    · rw [hstate]
      exact h
    · rw [hstate]
      intro e he hs
      rcases mem_put_cases he with rfl | he
      · exact handle_refusal hrun hs
      · exact h e he hs

/-- **Run lemma.** -/
theorem cleanRefusals_after {s : App.State} (h : CleanRefusals s) :
    ∀ history : List Incoming, CleanRefusals (after settings s history)
  | [] => h
  | x :: rest => cleanRefusals_after (cleanRefusals_serve h x) rest

theorem cleanRefusals_replay {s : App.State} (h : CleanRefusals s) {x : Incoming} {cached : Cached Body}
    (hreplay : s.replay? x.request = some cached) (hs : cached.status = 401) : cached.body.bookingData = false := by
  unfold EdgeState.replay? at hreplay
  split at hreplay
  · cases hreplay
  · obtain ⟨e, he, rfl⟩ := Option.map_eq_some_iff.mp hreplay
    exact h e (lookup_some_mem he) hs

/-- Not presenting the key, as the guard sees it. -/
theorem presented_ne_iff {x : Incoming} : (x.request.header counterKeyHeader).getD "" ≠ settings.counterKey ↔
    x.credential ≠ some settings.counterKey ∧ (x.credential = none → settings.counterKey ≠ "") := by
  show x.credential.getD "" ≠ _ ↔ _
  cases x.credential with
  | none => exact ⟨fun h => ⟨(Option.some_ne_none _).symm, fun _ => Ne.symm h⟩, fun h => (h.2 rfl).symm⟩
  | some key => simp

/-- One request, at any moment: it is answered as its key deserves exactly when the key decides. -/
theorem keyRespected_iff {s : App.State} (hclean : CleanRefusals s) {x : Incoming} (hadmin : x.target.isAdmin = true) :
    KeyRespected settings s x ↔ KeyDecides settings s x := by
  unfold KeyDecides
  cases hreplay : s.replay? x.request with
  | some cached =>
    have hanswer : received (serve settings s x).1 = cached.response := by
      unfold App.serve
      rw [serve_replay hreplay]
      rfl
    dsimp only
    constructor
    · intro h
      refine ⟨fun hs hkey => h.right hkey ?_, fun hkey => ?_⟩
      · rw [hanswer]
        exact hs
      · have hwrong := (h.wrong hkey).1
        rwa [hanswer] at hwrong
    · intro h
      refine ⟨fun hkey => ?_, fun hkey hs => ?_⟩
      · rw [hanswer]
        exact ⟨h.mpr hkey, cleanRefusals_replay hclean hreplay (h.mpr hkey)⟩
      · rw [hanswer] at hs
        exact h.mp hs hkey
  | none =>
    have hanswer : (serve settings s x).1 = (handle settings x.env x.request s.app).1 := (serve_reached hreplay).1
    have hiff := @handle_unauthorized_iff settings x.env x.request hadmin s.app
    rw [presented_ne_iff, ← hanswer] at hiff
    dsimp only
    constructor
    · intro h hkey
      obtain ⟨hread, hx, hc, -, hblank⟩ := hiff.mp (h.wrong hkey).1
      exact ⟨hread, hx, hc, hblank⟩
    · intro h
      refine ⟨fun hkey => ?_, fun hkey hs => (hiff.mp hs).2.2.2.1 hkey⟩
      obtain ⟨hread, hx, hc, hblank⟩ := h hkey
      have hrefused := hiff.mpr ⟨hread, hx, hc, hkey, hblank⟩
      refine ⟨hrefused, ?_⟩
      cases hrun : (serve settings s x).1 with
      | error fault => rfl
      | ok response =>
        rw [hrun] at hrefused
        exact handle_refusal (hanswer.symm.trans hrun) hrefused

/-- **The counter key.** After any history, a request to a route of the admin router is answered as its key deserves
    exactly when the key decides. -/
theorem counter_key_iff (settings : Settings) (trips : List Trip) (history : List Incoming) (x : Incoming)
    (hadmin : x.target.isAdmin = true) :
    KeyRespected settings (after settings (start trips) history) x ↔
      KeyDecides settings (after settings (start trips) history) x := by
  have hclean : CleanRefusals (after settings (start trips) history) :=
    cleanRefusals_after (fun e he => absurd he (by simp [start])) history
  exact keyRespected_iff hclean hadmin

/-- The clerk's retry of a paid sale is answered as its key deserves: it gets the ticket again. -/
theorem counter_key_iff_retry :
    KeyDecides counterSettings (after counterSettings (start sampleTrips) [withKey]) withKey ∧
    KeyRespected counterSettings (after counterSettings (start sampleTrips) [withKey]) withKey := by
  have hdecides : KeyDecides counterSettings (after counterSettings (start sampleTrips) [withKey]) withKey := by
    have hcached : ((after counterSettings (start sampleTrips) [withKey]).replay? withKey.request).map
        Cached.status = some 201 := by decide +kernel
    obtain ⟨cached, hreplay, hstatus⟩ := Option.map_eq_some_iff.mp hcached
    have hkey : withKey.credential = some counterSettings.counterKey := by decide
    unfold KeyDecides
    rw [hreplay]
    exact iff_of_false (by rw [hstatus]; decide) (fun h => h hkey)
  exact ⟨hdecides, (counter_key_iff counterSettings sampleTrips [withKey] withKey rfl).mpr hdecides⟩

/-- The law fails: whoever repeats a sale's idempotency key is handed the passenger's ticket. -/
theorem replayed_without_key :
    ¬ ∀ (settings : Settings) (trips : List Trip) (history : List Incoming) (x : Incoming), x.target.isAdmin = true →
      KeyRespected settings (after settings (start trips) history) x := by
  intro h
  have hrefused := (h counterSettings sampleTrips [withKey] withoutKey rfl).wrong (by decide)
  have htold : (received (serve counterSettings (after counterSettings (start sampleTrips) [withKey])
      withoutKey).1).body.bookingData = true := by decide +kernel
  rw [htold] at hrefused
  exact absurd hrefused.2 (by decide)

-- The other way round: a refused attempt locks the clerk's own request out.
example : (received (serve counterSettings (after counterSettings (start sampleTrips) [withoutKey])
    withKey).1).status = 401 := by decide +kernel

end SlrBooking
