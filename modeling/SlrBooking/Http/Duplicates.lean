import SlrBooking.Http.Routes

/-!
# `Http.Duplicates` — requests under one idempotency key, interleaved

A set of POST requests to one path under one key, dispatched concurrently: the look-up, the app and the store
of each are separate steps, and a schedule picks whose step comes next.

## Contents
- `Duplicates`, its machine and `start`; `stage`, how far a request has come.
- `RunsOnce`: the law of a state. `LooksUpSettled`: the condition on a step.
- `Logged`: what holds in every run; `Single`: what holds as long as every step obeys.
- `runs_once`: the run theorem, and its converse for runs that come to an end. `double_click_sells_twice`: the
  run that breaks the law.
-/

namespace SlrBooking

open Theory Rows Machine

/-- POST requests to one path under one non-empty idempotency key, over any app. Their bodies may differ; the middleware
    does not look at them. -/
structure Duplicates (Q B ε σ : Type) where
  path     : String
  key      : String
  key_ne   : key ≠ ""
  requests : List (HttpRequest Q)
  same     : ∀ r ∈ requests, r.method = "POST" ∧ r.path = path ∧ r.header idempotencyHeader = some key
  handler  : Nat → Handler Q B ε σ
  app      : σ

namespace Duplicates

variable {Q B ε σ : Type} (D : Duplicates Q B ε σ)

/-- The key they are all cached under. -/
def cacheKey : String := SlrBooking.cacheKey "POST" D.path D.key

abbrev State (Q B ε σ : Type) : Type := Config (Edge Q B) ε (EdgeState B ε σ) (Response B)

def machine : Machine (Edge Q B) ε (EdgeState B ε σ) where
  exec t o s := some (EdgeState.answer (D.handler t) t o s)
  finish _ s := s

/-- An empty cache, and every request at its first step. -/
def start : State Q B ε σ := ⟨{ app := D.app }, D.requests.map fun r => { prog := dispatch r }⟩

/-- How far a request has come, read off its log. -/
def stage (th : Thread (Edge Q B) ε (Response B)) : Stage B ε := know Stage.note .fresh th

def stageAt (c : State Q B ε σ) (t : Nat) : Option (Stage B ε) := (c.threads[t]?).map stage

/-- The same status and body, or the same exception. -/
def SameAnswer (a b : Except ε (Response B)) : Prop := a.map Response.shown = b.map Response.shown

/-- **The law**: the app ran at most once, and every request that has been answered got what that run answered, status
    and body or the same exception. -/
structure RunsOnce (c : State Q B ε σ) : Prop where
  once     : c.shared.executed.length ≤ 1
  answered : ∀ th ∈ c.threads, ∀ a, th.prog.result? = some a → ∃ run ∈ c.shared.executed, SameAnswer a run.2

def looksUp : EdgeOp Q B → Bool
  | .get _ => true
  | _ => false

/-- **The condition on one step.** If the step looks the key up, no other request is between its own look-up and its
    store: each that missed the cache has stored its answer. -/
def LooksUpSettled (c : State Q B ε σ) (t : Nat) : Prop :=
  (c.next t).any looksUp = true → ∀ u < c.threads.length, u ≠ t → (stageAt c u).any Stage.Owes = false

instance (c : State Q B ε σ) (t : Nat) : Decidable (LooksUpSettled c t) :=
  inferInstanceAs (Decidable (_ → ∀ u < c.threads.length, _ → _))

/-! ## What a step does to the stages -/

variable {D} {c : State Q B ε σ} {t u : Nat}

theorem cacheKey_eq {r : HttpRequest Q} (hr : r ∈ D.requests) : r.cacheKey? = some D.cacheKey := by
  obtain ⟨hpost, hpath, hheader⟩ := D.same r hr
  unfold HttpRequest.cacheKey? cacheKey
  rw [hheader]
  dsimp only
  rw [if_neg (by simp [hpost, D.key_ne]), hpost, hpath]

/-- What the cache holds under the key. -/
def found (D : Duplicates Q B ε σ) (s : EdgeState B ε σ) : Option (Cached B) :=
  (lookup Prod.fst D.cacheKey s.cache).map (·.2)

/-- Every request keeps to the stages of a keyed dispatch. -/
def Staged (D : Duplicates Q B ε σ) (c : State Q B ε σ) : Prop :=
  Follows (fun _ l o => ∃ r, Stage.Allows r D.cacheKey l o) Stage.note Stage.fresh (fun _ => Stage.Answers) c

theorem start_thread {th : Thread (Edge Q B) ε (Response B)} (hth : D.start.threads[t]? = some th) :
    ∃ r ∈ D.requests, th = { prog := dispatch r } := by
  obtain ⟨r, hr, rfl⟩ := List.mem_map.mp (List.mem_of_getElem? hth)
  exact ⟨r, hr, rfl⟩

theorem staged_start : D.Staged D.start := by
  intro t th hth
  obtain ⟨r, hr, rfl⟩ := start_thread hth
  exact Prog.Outline.mono_pre (fun l o h => ⟨r, h⟩) (outline_dispatch (cacheKey_eq hr))

/-- One answered operation: the stage before and after, and the edge afterwards. -/
inductive Acted (D : Duplicates Q B ε σ) (t : Nat) (s : EdgeState B ε σ) :
    Stage B ε → Stage B ε → EdgeState B ε σ → Prop where
  | hit {cached} (hfound : D.found s = some cached) : Acted D t s .fresh (.hit cached) s
  | missed (hfound : D.found s = none) : Acted D t s .fresh .missed s
  | ran {response app} : Acted D t s .missed (.ran response)
      { s with app := app, executed := s.executed ++ [(t, .ok response)] }
  | failed {e app} : Acted D t s .missed (.failed e) { s with app := app, executed := s.executed ++ [(t, .error e)] }
  | stored {response} : Acted D t s (.ran response) (.stored response)
      { s with cache := Rows.put Prod.fst (D.cacheKey, response.cached) s.cache }

theorem acted {s s' : EdgeState B ε σ} {l : Stage B ε} {o : EdgeOp Q B} {a : Except ε o.Res} {r : HttpRequest Q}
    (hallows : l.Allows r D.cacheKey o) (hexec : D.machine.exec t o s = some (a, s')) :
    D.Acted t s l (l.note o a) s' := by
  cases o with
  | get key =>
    obtain ⟨rfl, rfl⟩ := Prod.mk.inj (Option.some.inj hexec)
    cases l with
    | fresh =>
      obtain rfl : key = D.cacheKey := hallows
      cases hfound : D.found s with
      | some cached =>
        rw [show (lookup Prod.fst D.cacheKey s.cache).map (·.2) = some cached from hfound]
        exact .hit hfound
      | none =>
        rw [show (lookup Prod.fst D.cacheKey s.cache).map (·.2) = none from hfound]
        exact .missed hfound
    | _ => exact hallows.elim
  | callNext request =>
    obtain ⟨rfl, rfl⟩ := Prod.mk.inj (Option.some.inj hexec)
    cases l with
    | missed =>
      cases hrun : (D.handler t request s.app).1 with
      | ok response => exact .ran
      | error e => exact .failed
    | _ => exact hallows.elim
  | put key value =>
    obtain ⟨rfl, rfl⟩ := Prod.mk.inj (Option.some.inj hexec)
    cases l with
    | ran response =>
      obtain ⟨rfl, rfl⟩ := hallows
      exact .stored
    | _ => exact hallows.elim

/-- A request at its first stage comes to the look-up. -/
theorem looksUp_of_fresh {r : HttpRequest Q} {o : EdgeOp Q B} (h : (Stage.fresh : Stage B ε).Allows r D.cacheKey o) :
    looksUp o = true := by
  cases o with
  | get key => rfl
  | _ => exact h.elim

/-- **What one step does**: it leaves every stage and the edge alone, or it moves one request a stage on. -/
theorem step_stages (h : D.Staged c) (t : Nat) :
    ((∀ u, stageAt (D.machine.step c t) u = stageAt c u) ∧ (D.machine.step c t).shared = c.shared) ∨
    ∃ l l', stageAt c t = some l ∧ (l = .fresh → (c.next t).any looksUp = true) ∧
      D.Acted t c.shared l l' (D.machine.step c t).shared ∧ stageAt (D.machine.step c t) t = some l' ∧
      ∀ u, u ≠ t → stageAt (D.machine.step c t) u = stageAt c u := by
  have hmove := D.machine.step_move c t
  generalize D.machine.step c t = c' at hmove ⊢
  cases hmove with
  | stay => exact Or.inl ⟨fun _ => rfl, rfl⟩
  | finish hth hlive hres =>
    rename_i th r
    refine Or.inl ⟨fun u => ?_, rfl⟩
    unfold stageAt
    by_cases hut : u = t
    · subst hut
      rw [List.getElem?_set_self (List.getElem?_eq_some_iff.mp hth).1, hth]
      rfl
    · rw [List.getElem?_set_ne (Ne.symm hut)]
  | act hth hlive hprog hexec =>
    rename_i th o k a s
    obtain ⟨r, hallows⟩ := h.allowed hth hprog
    refine Or.inr ⟨stage th, (stage th).note o a, ?_, fun hfresh => ?_, acted hallows hexec, ?_, fun u hut => ?_⟩
    · unfold stageAt
      rw [hth]
      rfl
    · rw [Config.next_eq hth hlive hprog]
      have hfirst : (stage th).Allows r D.cacheKey o := hallows
      rw [hfresh] at hfirst
      exact looksUp_of_fresh hfirst
    · unfold stageAt
      rw [List.getElem?_set_self (List.getElem?_eq_some_iff.mp hth).1, Option.map_some, stage, know_snoc]
      rfl
    · unfold stageAt
      rw [List.getElem?_set_ne (Ne.symm hut)]

/-! ## Every run -/

/-- What holds in every run. -/
structure Logged (D : Duplicates Q B ε σ) (c : State Q B ε σ) : Prop where
  staged   : D.Staged c
  /-- The app's log says of each request what its stage says. -/
  executed : ∀ u a, (u, a) ∈ c.shared.executed ↔ ∃ l, stageAt c u = some l ∧ l.outcome? = some a
  /-- Nobody reaches the app twice. -/
  nodup    : (c.shared.executed.map Prod.fst).Nodup
  /-- A closed request has answered. -/
  closed   : ∀ th ∈ c.threads, th.ended = true → ∃ a, th.prog.result? = some a

theorem logged_start : D.Logged D.start where
  staged := staged_start
  executed := by
    intro u a
    constructor
    · intro h
      cases h
    · rintro ⟨l, hl, ha⟩
      obtain ⟨th, hth, rfl⟩ := Option.map_eq_some_iff.mp hl
      obtain ⟨r, -, rfl⟩ := start_thread hth
      cases ha
  nodup := List.nodup_nil
  closed := by
    intro th hth hended
    obtain ⟨r, -, rfl⟩ := List.mem_map.mp hth
    cases hended

/-- A request that has not run the app is not in its log. -/
theorem Logged.fresh (h : D.Logged c) {l : Stage B ε} (hl : stageAt c t = some l) (hno : l.outcome? = none) :
    t ∉ c.shared.executed.map Prod.fst := by
  intro ht
  obtain ⟨⟨u, a⟩, hmem, rfl⟩ := List.mem_map.mp ht
  obtain ⟨l', hl', ha⟩ := (h.executed u a).mp hmem
  rw [Option.some.inj (hl'.symm.trans hl), hno] at ha
  cases ha

/-- The log of the app after a step of request `t`. -/
theorem Logged.executed_act (h : D.Logged c) {l l' : Stage B ε} {s' : EdgeState B ε σ} (hl : stageAt c t = some l)
    (hacted : D.Acted t c.shared l l' s') :
    (s'.executed.map Prod.fst).Nodup ∧
      ∀ u a, (u, a) ∈ s'.executed ↔ (u = t ∧ l'.outcome? = some a) ∨ (u ≠ t ∧ (u, a) ∈ c.shared.executed) := by
  have hsame : l.outcome? = l'.outcome? → ∀ u a, (u, a) ∈ c.shared.executed ↔
      (u = t ∧ l'.outcome? = some a) ∨ (u ≠ t ∧ (u, a) ∈ c.shared.executed) := by
    intro hout u a
    by_cases hut : u = t
    · subst hut
      rw [h.executed, hl, ← hout]
      simp
    · simp [hut]
  have hgrown : l.outcome? = none → ∀ b : Except ε (Response B), l'.outcome? = some b →
      ((c.shared.executed ++ [(t, b)]).map Prod.fst).Nodup ∧ ∀ u a, (u, a) ∈ c.shared.executed ++ [(t, b)] ↔
        (u = t ∧ l'.outcome? = some a) ∨ (u ≠ t ∧ (u, a) ∈ c.shared.executed) := by
    intro hno b hb
    have hnew := h.fresh hl hno
    constructor
    · rw [List.map_append]
      refine List.nodup_append.mpr ⟨h.nodup, List.nodup_singleton _, fun x hx y hy => ?_⟩
      obtain rfl : y = t := List.mem_singleton.mp hy
      rintro rfl
      exact hnew hx
    · intro u a
      rw [List.mem_append, List.mem_singleton, Prod.mk.injEq, hb, Option.some.injEq, eq_comm (a := b)]
      by_cases hut : u = t
      · subst hut
        have hno : (u, a) ∉ c.shared.executed := fun hm => hnew (List.mem_map_of_mem hm)
        simp [hno]
      · simp [hut]
  cases hacted with
  | hit | missed | stored => exact ⟨h.nodup, hsame rfl⟩
  | ran => exact hgrown rfl _ rfl
  | failed => exact hgrown rfl _ rfl

/-- **Step lemma**, whatever the schedule. -/
theorem logged_step (h : D.Logged c) (t : Nat) : D.Logged (D.machine.step c t) where
  staged := h.staged.step t
  executed := by
    intro u a
    rcases step_stages h.staged t with ⟨hstage, hshared⟩ | ⟨l, l', hl, -, hacted, hl', hothers⟩
    · rw [hshared, hstage]
      exact h.executed u a
    · rw [(h.executed_act hl hacted).2 u a]
      by_cases hut : u = t
      · subst hut
        simp [hl']
      · rw [hothers u hut, ← h.executed u a]
        simp [hut]
  nodup := by
    rcases step_stages h.staged t with ⟨-, hshared⟩ | ⟨l, l', hl, -, hacted, -, -⟩
    · rw [hshared]
      exact h.nodup
    · exact (h.executed_act hl hacted).1
  closed := by
    have hmove := D.machine.step_move c t
    generalize D.machine.step c t = c' at hmove ⊢
    intro th' hth' hended
    cases hmove with
    | stay => exact h.closed th' hth' hended
    | finish hth hlive hres =>
      rcases List.mem_or_eq_of_mem_set hth' with hold | rfl
      · exact h.closed th' hold hended
      · exact ⟨_, hres⟩
    | act hth hlive hprog hexec =>
      rcases List.mem_or_eq_of_mem_set hth' with hold | rfl
      · exact h.closed th' hold hended
      · cases hended

/-! ## Runs whose steps obey -/

/-- **The group as a whole**: nobody has started; one request is on its way through the app; or one request has
    stored its answer and the cache replays it. -/
inductive Single (D : Duplicates Q B ε σ) (c : State Q B ε σ) : Prop where
  | idle (hfound : D.found c.shared = none) (hall : ∀ u l, stageAt c u = some l → l = .fresh)
  | busy {u l} (hfound : D.found c.shared = none) (hl : stageAt c u = some l) (howes : l.Owes = true)
      (hothers : ∀ w m, w ≠ u → stageAt c w = some m → m = .fresh)
  | done {u response} (hfound : D.found c.shared = some response.cached) (hl : stageAt c u = some (.stored response))
      (hothers : ∀ w m, w ≠ u → stageAt c w = some m → m = .fresh ∨ m = .hit response.cached)

theorem single_start : D.Single D.start := by
  refine .idle rfl fun u l hl => ?_
  obtain ⟨th, hth, rfl⟩ := Option.map_eq_some_iff.mp hl
  obtain ⟨r, -, rfl⟩ := start_thread hth
  rfl

theorem found_put (s : EdgeState B ε σ) (cached : Cached B) :
    D.found { s with cache := Rows.put Prod.fst (D.cacheKey, cached) s.cache } = some cached := by
  unfold found
  rw [show lookup Prod.fst D.cacheKey (Rows.put Prod.fst (D.cacheKey, cached) s.cache) = some (D.cacheKey, cached) from
    lookup_put_self (D.cacheKey, cached) s.cache]
  rfl

theorem lt_of_stageAt {l : Stage B ε} (hl : stageAt c u = some l) : u < c.threads.length := by
  obtain ⟨th, hth, -⟩ := Option.map_eq_some_iff.mp hl
  exact (List.getElem?_eq_some_iff.mp hth).1

/-- **Step lemma** for a settled look-up. -/
theorem single_step (hlog : D.Logged c) (h : D.Single c) {t : Nat} (hok : LooksUpSettled c t) :
    D.Single (D.machine.step c t) := by
  rcases step_stages hlog.staged t with ⟨hstage, hshared⟩ | ⟨l, l', hl, hlook, hacted, hl', hkept⟩
  · -- nothing moved
    cases h with
    | idle hfound hall => exact .idle (hshared ▸ hfound) fun u m hm => hall u m (hstage u ▸ hm)
    | busy hfound hu howes hothers =>
      exact .busy (hshared ▸ hfound) ((hstage _).trans hu) howes fun w m hw hm => hothers w m hw (hstage w ▸ hm)
    | done hfound hu hothers =>
      exact .done (hshared ▸ hfound) ((hstage _).trans hu) fun w m hw hm => hothers w m hw (hstage w ▸ hm)
  generalize D.machine.step c t = c' at hacted hl' hkept ⊢
  obtain ⟨s', threads⟩ := c'
  dsimp only at hacted
  cases h with
  | idle hfound hall =>
    -- everybody is fresh, and the first look-up misses
    obtain rfl := hall t l hl
    cases hacted with
    | hit hhit =>
      rw [hfound] at hhit
      cases hhit
    | missed =>
      exact .busy hfound hl' rfl fun w m hw hm => hall w m (hkept w hw ▸ hm)
  | busy hfound hu howes hothers =>
    rename_i u m
    by_cases htu : t = u
    · subst htu
      obtain rfl : l = m := Option.some.inj (hl.symm.trans hu)
      have hrest : ∀ w m, w ≠ t → stageAt ⟨s', threads⟩ w = some m → m = .fresh := fun w m hw hm =>
        hothers w m hw (hkept w hw ▸ hm)
      cases hacted with
      | hit | missed => cases howes
      | ran | failed => exact .busy hfound hl' rfl hrest
      | stored => exact .done (found_put _ _) hl' fun w m hw hm => Or.inl (hrest w m hw hm)
    · -- somebody else would look up while `u` owes its answer
      have hno := hok (hlook (hothers t l htu hl)) u (lt_of_stageAt hu) (Ne.symm htu)
      rw [hu] at hno
      simp [howes] at hno
  | done hfound hu hothers =>
    rename_i u response
    by_cases htu : t = u
    · subst htu
      obtain rfl := Option.some.inj (hl.symm.trans hu)
      cases hacted
    · -- the others find the stored answer, whenever they look up
      have hstored : stageAt ⟨s', threads⟩ u = some (.stored response) := (hkept u (Ne.symm htu)).trans hu
      have hrest : ∀ {l''}, stageAt ⟨s', threads⟩ t = some l'' → l'' = .hit response.cached →
          ∀ w m, w ≠ u → stageAt ⟨s', threads⟩ w = some m → m = .fresh ∨ m = .hit response.cached := by
        intro l'' hl'' heq w m hw hm
        by_cases hwt : w = t
        · subst hwt
          exact Or.inr ((Option.some.inj (hm.symm.trans hl'')).trans heq)
        · exact hothers w m hw (hkept w hwt ▸ hm)
      rcases hothers t l htu hl with rfl | rfl
      · cases hacted with
        | hit hhit =>
          have hsame : _ = response.cached := Option.some.inj (hhit.symm.trans hfound)
          exact .done hfound hstored (hrest hl' (by rw [hsame]))
        | missed hmiss =>
          rw [hfound] at hmiss
          cases hmiss
      · cases hacted

/-! ## One run of the handler -/

/-- The app's log holds one request's run at most, when only that request can have an outcome. -/
theorem Logged.at_most_one (hlog : D.Logged c) (hlone : ∀ w m, w ≠ u → stageAt c w = some m → m.outcome? = none) :
    c.shared.executed.length ≤ 1 := by
  have hall : ∀ x ∈ c.shared.executed.map Prod.fst, x = u := by
    intro x hx
    obtain ⟨⟨w, a⟩, hmem, rfl⟩ := List.mem_map.mp hx
    obtain ⟨m, hm, ha⟩ := (hlog.executed w a).mp hmem
    by_contra hw
    rw [hlone w m hw hm] at ha
    cases ha
  -- each request runs the handler once, and only `u` has run it
  have hnodup := hlog.nodup
  rw [List.eq_replicate_of_mem hall, List.length_map] at hnodup
  exact List.nodup_replicate.mp hnodup

/-- What a request that has answered has answered, by its stage. -/
theorem Logged.answers (hlog : D.Logged c) {th : Thread (Edge Q B) ε (Response B)} (hth : c.threads[t]? = some th)
    {a : Except ε (Response B)} (ha : th.prog.result? = some a) : (stage th).Answers a := by
  have hout := hlog.staged t th hth
  cases hprog : th.prog with
  | ret r | raise e =>
    rw [hprog] at hout ha
    rw [← Option.some.inj ha]
    exact hout
  | perform o k =>
    rw [hprog] at ha
    cases ha

/-- **What the invariants say of a state.** -/
theorem Single.runsOnce (hlog : D.Logged c) (h : D.Single c) : RunsOnce c where
  once := by
    cases h with
    | idle hfound hall =>
      exact hlog.at_most_one (u := 0) fun w m _ hm => by
        rw [hall w m hm]
        rfl
    | busy hfound hu howes hothers =>
      exact hlog.at_most_one fun w m hw hm => by
        rw [hothers w m hw hm]
        rfl
    | done hfound hu hothers =>
      rename_i u response
      refine hlog.at_most_one fun w m (hw : w ≠ u) hm => ?_
      rcases hothers w m hw hm with rfl | rfl <;> rfl
  answered := by
    intro th hth a ha
    obtain ⟨t, ht⟩ := List.getElem?_of_mem hth
    have hanswers := hlog.answers ht ha
    have hstage : stageAt c t = some (stage th) := by
      unfold stageAt
      rw [ht]
      rfl
    generalize stage th = l at hanswers hstage
    cases l with
    | fresh | missed | ran => exact hanswers.elim
    | stored response =>
      obtain rfl : a = .ok response := hanswers
      exact ⟨(t, .ok response), (hlog.executed t _).mpr ⟨_, hstage, rfl⟩, rfl⟩
    | failed e =>
      obtain rfl : a = .error e := hanswers
      exact ⟨(t, .error e), (hlog.executed t _).mpr ⟨_, hstage, rfl⟩, rfl⟩
    | hit cached =>
      -- a replay repeats what the storing request was answered
      obtain rfl : a = .ok cached.response := hanswers
      cases h with
      | idle hfound hall => cases hall t _ hstage
      | busy hfound hu howes hothers =>
        rename_i u l
        by_cases htu : t = u
        · rw [htu, hu] at hstage
          rw [Option.some.inj hstage] at howes
          cases howes
        · cases hothers t _ htu hstage
      | done hfound hu hothers =>
        rename_i u response
        have htu : t ≠ u := by
          rintro rfl
          rw [hu] at hstage
          cases hstage
        rcases hothers t _ htu hstage with hfresh | hhit
        · cases hfresh
        · obtain rfl : cached = response.cached := by injection hhit
          exact ⟨(u, .ok response), (hlog.executed u _).mpr ⟨_, hu, rfl⟩, rfl⟩

/-! ## Runs that come to an end -/

/-- A request that missed the cache has still missed it later. -/
theorem unanswered_step (hlog : D.Logged c) {l : Stage B ε} (hl : stageAt c u = some l) (hun : l.Unanswered = true)
    (t : Nat) :
    ∃ l', stageAt (D.machine.step c t) u = some l' ∧ l'.Unanswered = true := by
  rcases step_stages hlog.staged t with ⟨hstage, -⟩ | ⟨m, m', hm, -, hacted, hm', hkept⟩
  · exact ⟨l, (hstage u).trans hl, hun⟩
  · generalize (D.machine.step c t).shared = s' at hacted
    by_cases hut : u = t
    · subst hut
      obtain rfl : l = m := Option.some.inj (hl.symm.trans hm)
      refine ⟨m', hm', ?_⟩
      cases hacted with
      | hit | missed => cases hun
      | ran | failed | stored => rfl
    · exact ⟨l, (hkept u hut).trans hl, hun⟩

theorem unanswered_runs {u : Nat} : ∀ {c : State Q B ε σ} (sched : List Nat), D.Logged c → ∀ {l : Stage B ε},
    stageAt c u = some l → l.Unanswered = true →
      ∃ l', stageAt (D.machine.runs c sched) u = some l' ∧ l'.Unanswered = true
  | _, [], _, l, hl, hun => ⟨l, hl, hun⟩
  | _, t :: ts, hlog, _, hl, hun => by
      obtain ⟨l', hl', hun'⟩ := unanswered_step hlog hl hun t
      exact unanswered_runs ts (logged_step hlog t) hl' hun'

/-- A closed request that missed the cache is in the app's log. -/
theorem Logged.reached (hlog : D.Logged c) (hended : ∀ th ∈ c.threads, th.ended = true) {l : Stage B ε}
    (hl : stageAt c u = some l) (hun : l.Unanswered = true) : ∃ a, (u, a) ∈ c.shared.executed := by
  obtain ⟨th, hth, rfl⟩ := Option.map_eq_some_iff.mp hl
  have hmem := List.mem_of_getElem? hth
  obtain ⟨a, ha⟩ := hlog.closed th hmem (hended th hmem)
  obtain ⟨b, hb⟩ := (hlog.answers hth ha).outcome hun
  exact ⟨b, (hlog.executed u b).mpr ⟨_, hl, hb⟩⟩

/-- While a request owes its answer, the cache holds none. -/
theorem Single.nothing_found (h : D.Single c) {l : Stage B ε} (hl : stageAt c u = some l) (howes : l.Owes = true) :
    D.found c.shared = none := by
  cases h with
  | idle hfound hall => exact hfound
  | busy hfound hu howes' hothers => exact hfound
  | done hfound hu hothers =>
    rename_i w response
    by_cases huw : u = w
    · rw [huw, hu] at hl
      rw [← Option.some.inj hl] at howes
      cases howes
    · rcases hothers u l huw hl with rfl | rfl <;> cases howes

/-- A look-up while the cache holds nothing misses. -/
theorem missed_of_lookup (hlog : D.Logged c) (hfound : D.found c.shared = none) {t : Nat}
    (hlook : (c.next t).any looksUp = true) : stageAt (D.machine.step c t) t = some .missed := by
  obtain ⟨o, hnext, ho⟩ : ∃ o, c.next t = some o ∧ looksUp o = true := by
    cases hnext : c.next t with
    | none => simp [hnext] at hlook
    | some o => exact ⟨o, rfl, by simpa [hnext] using hlook⟩
  cases o with
  | callNext | put => cases ho
  | get key =>
    obtain ⟨th, k, hth, -, hprog, hstep⟩ := D.machine.step_of_next hnext rfl
    obtain ⟨r, hallows⟩ := hlog.staged.allowed hth hprog
    have hkey : key = D.cacheKey := by
      generalize know Stage.note Stage.fresh th = l at hallows
      cases l with
      | fresh => exact hallows
      | _ => exact hallows.elim
    rw [hstep]
    unfold stageAt
    rw [List.getElem?_set_self (List.getElem?_eq_some_iff.mp hth).1, Option.map_some, stage, know_snoc, hkey,
      show (lookup Prod.fst D.cacheKey c.shared.cache).map (·.2) = none from hfound]
    rfl

/-- **An unsettled look-up misses**, so that two requests have missed the cache. -/
theorem missed_of_unsettled (hlog : D.Logged c) (h : D.Single c) {t : Nat} (hno : ¬ LooksUpSettled c t) :
    ∃ u l, u ≠ t ∧ stageAt (D.machine.step c t) u = some l ∧ l.Unanswered = true ∧
      stageAt (D.machine.step c t) t = some .missed := by
  have hlook : (c.next t).any looksUp = true := by
    by_contra hlook
    exact hno fun h => absurd h hlook
  obtain ⟨u, hut, l, hl, howes⟩ : ∃ u, u ≠ t ∧ ∃ l, stageAt c u = some l ∧ l.Owes = true := by
    by_contra hnone
    refine hno fun _ u _ hut => ?_
    cases hl : stageAt c u with
    | none => rfl
    | some l =>
      by_contra howes
      exact hnone ⟨u, hut, l, hl, by simpa using howes⟩
  obtain ⟨l', hl', hun⟩ := unanswered_step hlog hl (Stage.unanswered_of_owes howes) t
  exact ⟨u, l', hut, hl', hun, missed_of_lookup hlog (h.nothing_found hl howes) hlook⟩

/-- A run that comes to an end with the app run once at most obeyed at every step. -/
theorem obeys_of_once : ∀ {c : State Q B ε σ} (sched : List Nat), D.Logged c → D.Single c →
    D.Logged (D.machine.runs c sched) → (∀ th ∈ (D.machine.runs c sched).threads, th.ended = true) →
      (D.machine.runs c sched).shared.executed.length ≤ 1 → D.machine.Obeys LooksUpSettled c sched
  | _, [], _, _, _, _, _ => trivial
  | c, t :: ts, hlog, h, hlast, hended, honce => by
      by_cases hok : LooksUpSettled c t
      · exact ⟨hok, obeys_of_once ts (logged_step hlog t) (single_step hlog h hok) hlast hended honce⟩
      · exfalso
        obtain ⟨u, l, hut, hl, hun, ht⟩ := missed_of_unsettled hlog h hok
        obtain ⟨m, hm, hmun⟩ := unanswered_runs ts (logged_step hlog t) hl hun
        obtain ⟨m', hm', hmun'⟩ := unanswered_runs ts (logged_step hlog t) ht rfl
        obtain ⟨a, ha⟩ := hlast.reached hended hm hmun
        obtain ⟨b, hb⟩ := hlast.reached hended hm' hmun'
        -- two entries of two requests do not fit into a log of one
        have hsame : (u, a) = (t, b) := by
          rcases Nat.le_one_iff_eq_zero_or_eq_one.mp honce with h0 | h1
          · rw [List.length_eq_zero_iff.mp h0] at ha
            cases ha
          · obtain ⟨x, hx⟩ := List.length_eq_one_iff.mp h1
            rw [hx] at ha hb
            exact (List.mem_singleton.mp ha).trans (List.mem_singleton.mp hb).symm
        exact hut (congrArg Prod.fst hsame)

/-- **An idempotency key runs its intent at most once** in every run whose look-ups are settled, at every moment;
    and a run that comes to an end with one run of the app at most had only settled look-ups. -/
theorem runs_once (D : Duplicates Q B ε σ) (sched : List Nat) :
    (D.machine.Obeys LooksUpSettled D.start sched → ∀ c ∈ D.machine.visited D.start sched, RunsOnce c) ∧
    ((∀ th ∈ (D.machine.runs D.start sched).threads, th.ended = true) → RunsOnce (D.machine.runs D.start sched) →
      D.machine.Obeys LooksUpSettled D.start sched) := by
  have hstep : ∀ c t, D.Logged c ∧ D.Single c → LooksUpSettled c t →
      D.Logged (D.machine.step c t) ∧ D.Single (D.machine.step c t) := fun c t h hok =>
    ⟨logged_step h.1 t, single_step h.1 h.2 hok⟩
  constructor
  · intro hobeys c hc
    obtain ⟨hlog, hsingle⟩ := D.machine.visited_invariant hstep ⟨logged_start, single_start⟩ hobeys c hc
    exact hsingle.runsOnce hlog
  · intro hended honce
    have hkeep : ∀ c t, D.Logged c → True → D.Logged (D.machine.step c t) := fun c t h _ => logged_step h t
    have hlast : D.Logged (D.machine.runs D.start sched) :=
      D.machine.runs_invariant hkeep logged_start (D.machine.obeys_true D.start sched)
    exact obeys_of_once sched logged_start single_start hlast hended honce.once

end Duplicates

/-! ### A sale clicked twice -/

/-- Two posts of one counter sale under one key, on the booking app. -/
def clickedTwice : Duplicates Target Body Fault World where
  path := "/admin/unreserved/sell"
  key := "k1"
  key_ne := by decide
  requests := [withKey.request, withKey.request]
  same := by
    intro r hr
    obtain rfl : r = withKey.request := by simpa using hr
    decide
  handler t := handle counterSettings ⟨sampleDeps 0 (toString t), acceptAll⟩
  app := World.start sampleTrips

/-- The second click arrives after the first was answered: one sale. -/
theorem runs_once_clickedTwice :
    clickedTwice.machine.Obeys Duplicates.LooksUpSettled clickedTwice.start [0, 0, 0, 0, 1, 1] ∧
    ∀ c ∈ clickedTwice.machine.visited clickedTwice.start [0, 0, 0, 0, 1, 1], Duplicates.RunsOnce c := by
  have hobeys : clickedTwice.machine.Obeys Duplicates.LooksUpSettled clickedTwice.start [0, 0, 0, 0, 1, 1] := by
    decide +kernel
  exact ⟨hobeys, (Duplicates.runs_once clickedTwice [0, 0, 0, 0, 1, 1]).1 hobeys⟩

/-- The law fails: two look-ups before the first answer sell, and charge for, two tickets. -/
theorem double_click_sells_twice :
    ¬ ∀ (D : Duplicates Target Body Fault World) (sched : List Nat),
      ∀ c ∈ D.machine.visited D.start sched, Duplicates.RunsOnce c := by
  intro h
  have honce := (h clickedTwice [0, 1, 0, 1] _ (clickedTwice.machine.runs_mem_visited _ _)).once
  have htwice : (clickedTwice.machine.runs clickedTwice.start [0, 1, 0, 1]).shared.executed.length = 2 ∧
      (clickedTwice.machine.runs clickedTwice.start [0, 1, 0, 1]).shared.app.accepted.length = 2 := by
    decide +kernel
  rw [htwice.1] at honce
  exact absurd honce (by decide)

end SlrBooking
