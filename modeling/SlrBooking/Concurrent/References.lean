import SlrBooking.Concurrent.Trails

/-!
# `Concurrent.References` — one booking for each reference

Nothing in the table makes a reference unique: a request looks its client's reference up, finds nothing, and
inserts. A request that is past that look-up and has not ended holds a *claim* on the reference. As long as no
request looks a reference up while another one claims it, claims are exclusive, an insert takes place under
its request's claim, and the committed references stay distinct. Two requests that look up the same
reference before either commits book two seats under it.

## Contents
- `Claimed`, `Traffic.Claims`: who may insert under which reference.
- `LooksUpAlone`: the condition on a step. `FreshReferences`: generated references.
- `Referenced`: the invariant, one lemma for each kind of step.
- `references_distinct`: the run theorem. `reference_names_two_bookings`: the run that breaks the law.
-/

namespace SlrBooking

open Theory Rows

/-! ## The condition on a run

A request claims a reference from the moment its look-up has found nothing until it is over. Two claims at once are
the only race. -/

/-- The client chose a reference that its booking would carry. -/
def Request.carries (r : Request) : Bool := r.clientReference.getD "" ≠ ""

theorem Request.ticketRef_of_carries {r : Request} (h : r.carries = true) : r.clientReference = some r.ticketRef := by
  unfold carries at h
  unfold ticketRef orFresh
  cases hc : r.clientReference with
  | none =>
      rw [hc] at h
      exact absurd h (by simp)
  | some q =>
      rw [hc] at h
      have hq : q ≠ "" := by simpa using h
      simp [hq]

theorem Request.ticketRef_of_not_carries {r : Request} (h : r.carries = false) :
    r.ticketRef = r.deps.newReference := by
  unfold carries at h
  unfold ticketRef orFresh
  cases hc : r.clientReference with
  | none => rfl
  | some q =>
      rw [hc] at h
      have hq : q = "" := by simpa using h
      simp [hq]

/-- With this trail, request `r` is free to insert a booking under `reference`: it has not committed, and if the client
    chose the reference its look-up has missed. -/
def Claimed (r : Request) (l : Trail) (reference : String) : Bool :=
  r.books && r.ticketRef = reference && !l.committed && (!r.carries || l.missed)

namespace Traffic

variable (T : Traffic)

/-- Request `t` is in flight and free to insert a booking under `reference`. -/
def Claims (c : State) (t : Nat) (reference : String) : Bool :=
  match T.requests[t]?, c.threads[t]? with
  | some r, some th => !th.ended && Claimed r (trail th) reference
  | _, _ => false

/-- **The condition on one step.** If the step looks up the reference its own booking would carry, no other request in
    flight claims that reference. -/
def LooksUpAlone (c : State) (t : Nat) : Prop :=
  ∀ r ∈ T.requests[t]?, ∀ reference ∈ (c.next t).bind Stmt.lookedUp?,
    r.books = true → ∀ u < T.requests.length, u ≠ t → T.Claims c u reference = false

instance (c : State) (t : Nat) : Decidable (T.LooksUpAlone c t) :=
  inferInstanceAs (Decidable (∀ r ∈ T.requests[t]?, ∀ reference ∈ (c.next t).bind Stmt.lookedUp?, _ → _))

/-- The generated references are distinct, and no client chose one of them. -/
def FreshReferences : Prop :=
  (T.requests.map fun r => r.deps.newReference).Nodup ∧
    ∀ r ∈ T.requests, ∀ r' ∈ T.requests, r.clientReference ≠ some r'.deps.newReference

instance : Decidable T.FreshReferences := inferInstanceAs (Decidable (_ ∧ _))

variable {T}

/-! ## Claims -/

theorem claims_iff {c : State} {t : Nat} {reference : String} : T.Claims c t reference = true ↔
    ∃ r th, T.requests[t]? = some r ∧ c.threads[t]? = some th ∧ th.ended = false ∧
      Claimed r (trail th) reference = true := by
  unfold Claims
  cases T.requests[t]? with
  | none => simp
  | some r =>
      cases c.threads[t]? with
      | none => simp
      | some th => simp

theorem claimed_iff {r : Request} {l : Trail} {reference : String} : Claimed r l reference = true ↔
    r.books = true ∧ r.ticketRef = reference ∧ l.committed = false ∧
      (r.carries = true → l.missed = true) := by
  unfold Claimed
  cases r.carries <;> simp [and_assoc]

/-- What others do changes nobody's claims. -/
theorem claims_set_ne {c : State} {s : Server} {t u : Nat} {th : Thread Stmts Err Unit} (hu : u ≠ t)
    (reference : String) :
    T.Claims ⟨s, c.threads.set t th⟩ u reference = T.Claims c u reference := by
  unfold Claims
  rw [List.getElem?_set_ne (Ne.symm hu)]

/-- A closed request claims nothing. -/
theorem claims_ended {c : State} {s : Server} {t : Nat} {th : Thread Stmts Err Unit} (hth : th.ended = true)
    (ht : t < c.threads.length) (reference : String) :
    T.Claims ⟨s, c.threads.set t th⟩ t reference = false := by
  unfold Claims
  rw [List.getElem?_set_self ht]
  cases T.requests[t]? with
  | none => rfl
  | some r => simp [hth]

/-- A statement that is neither a look-up nor a commit changes no claim. -/
theorem claimed_note {r : Request} {l : Trail} {o : Stmt} (a : Except Err o.Res)
    (hlook : ∀ q, o ≠ .select (.byReference q))
    (hcommit : o ≠ .commit) (reference : String) : Claimed r (l.note o a) reference = Claimed r l reference := by
  unfold Claimed
  rw [note_committed a hcommit, note_missed a hlook]

/-- A look-up that finds nothing makes the request's claim. -/
theorem claimed_lookUp {r : Request} {l : Trail} {q reference : String} {rows : List BookingRow} :
    Claimed r (l.note (.select (.byReference q)) (.ok rows)) reference = true ↔
      Claimed r l reference = true ∨
        (r.books = true ∧ r.ticketRef = reference ∧ r.carries = true ∧ rows = []) ∧ l.committed = false := by
  have hnote : l.note (.select (.byReference q)) (.ok rows) = { l with missed := l.missed || rows.isEmpty } := rfl
  rw [hnote, claimed_iff, claimed_iff]
  cases r.carries <;> cases l.missed <;> cases rows <;> simp <;> tauto

/-- Two requests that would book under one reference were both given it by their clients. -/
theorem FreshReferences.client (hfresh : T.FreshReferences) {t u : Nat} {r r' : Request} (hr : T.requests[t]? = some r)
    (hr' : T.requests[u]? = some r') (htu : t ≠ u) (hsame : r.ticketRef = r'.ticketRef) : r.carries = true := by
  have hmem : r ∈ T.requests := List.mem_of_getElem? hr
  have hmem' : r' ∈ T.requests := List.mem_of_getElem? hr'
  by_contra hno
  have hg : r.ticketRef = r.deps.newReference := Request.ticketRef_of_not_carries (by simpa using hno)
  cases hc : r'.carries with
  | true =>
      have hclient := Request.ticketRef_of_carries hc
      rw [← hsame, hg] at hclient
      exact hfresh.2 r' hmem' r hmem hclient
  | false =>
      have hg' := Request.ticketRef_of_not_carries hc
      exact htu (index_eq_of_key_eq hfresh.1 hr hr' (hg.symm.trans (hsame.trans hg')))

/-! ## The invariant -/

/-- A version in doubt is the next version of a committed row, or a new row inserted under a claim. -/
def Booked (T : Traffic) (c : State) (p : Nat × BookingRow) : Prop :=
  (∃ old ∈ c.shared.db.committed, old.bookingId = p.2.bookingId ∧ old.reference = p.2.reference) ∨
    (T.Claims c p.1 p.2.reference = true ∧ ∃ r, T.requests[p.1]? = some r ∧ p.2.bookingId = r.deps.newId)

/-- **The invariant of a run**: committed references are distinct, every version in doubt is an old booking's or stands
    under a claim, and a claimed reference is not committed and has one claimant. -/
structure Referenced (T : Traffic) (c : State) : Prop where
  sound  : Db.Sound bookingTable c.shared.db
  lawful : T.Lawfully c
  booked : ∀ p ∈ c.shared.db.pending, T.Booked c p
  unique : ∀ a ∈ c.shared.db.committed, ∀ b ∈ c.shared.db.committed, a.reference = b.reference → a = b
  free   : ∀ t reference, T.Claims c t reference = true → ∀ row ∈ c.shared.db.committed, row.reference ≠ reference
  alone  : ∀ t u reference, T.Claims c t reference = true → T.Claims c u reference = true → t = u

theorem referenced_start (hfresh : T.FreshReferences) : T.Referenced T.start where
  sound := Db.sound_empty
  lawful := T.lawfully_start
  booked := by
    intro p hp
    cases hp
  unique := by
    intro a ha
    cases ha
  free := by
    intro t reference _ row hrow
    cases hrow
  alone := by
    intro t u reference ht hu
    by_contra htu
    obtain ⟨r, th, hr, hth, -, hclaimed⟩ := claims_iff.mp ht
    obtain ⟨r', th', hr', hth', hlive', hclaimed'⟩ := claims_iff.mp hu
    have href := claimed_iff.mp hclaimed
    have href' := claimed_iff.mp hclaimed'
    -- both carry the reference, and nobody has looked anything up yet
    have hcarries := hfresh.client hr hr' htu (href.2.1.trans href'.2.1.symm)
    obtain ⟨r₀, -, rfl⟩ := Option.map_eq_some_iff.mp ((List.getElem?_map ..).symm.trans hth)
    exact Bool.false_ne_true (href.2.2.2 hcarries)

/-- A claimant's claim in both configurations, or in neither. -/
def SameClaims (T : Traffic) (c c' : State) : Prop := ∀ u reference, T.Claims c' u reference = T.Claims c u reference

namespace Referenced

variable {c c' : State}

/-! ### Statements that look nothing up -/

/-- A step that touches neither the table nor a claim. -/
theorem idle (h : T.Referenced c) (hlaw : T.Lawfully c') (hdb : c'.shared.db = c.shared.db)
    (hsame : T.SameClaims c c') : T.Referenced c' where
  sound := hdb ▸ h.sound
  lawful := hlaw
  booked := by
    rw [hdb]
    intro p hp
    unfold Booked
    rw [hdb, hsame]
    exact h.booked p hp
  unique := by
    rw [hdb]
    exact h.unique
  free := by
    rw [hdb]
    intro t reference ht
    exact h.free t reference (by rwa [hsame] at ht)
  alone := by
    intro t u reference ht hu
    rw [hsame] at ht hu
    exact h.alone t u reference ht hu

/-- A recorded write, of a next version or of a claimed new row. -/
theorem write (h : T.Referenced c) (hlaw : T.Lawfully c') {t : Nat} {row : BookingRow}
    (hw : c.shared.db.write bookingTable t row = .done c'.shared.db) (hsame : T.SameClaims c c')
    (hrow : T.Booked c (t, row)) : T.Referenced c' where
  sound := h.sound.write hw
  lawful := hlaw
  booked := by
    intro p hp
    have hp' : T.Booked c p := by
      rcases (Db.mem_pending_write hw).mp hp with rfl | ⟨hp, -⟩
      · exact hrow
      · exact h.booked p hp
    unfold Booked at hp' ⊢
    rwa [Db.committed_write hw, hsame]
  unique := by
    rw [Db.committed_write hw]
    exact h.unique
  free := by
    rw [Db.committed_write hw]
    intro u reference hu
    exact h.free u reference (by rwa [hsame] at hu)
  alone := by
    intro u v reference hu hv
    rw [hsame] at hu hv
    exact h.alone u v reference hu hv

/-- A visible row of `t` has a committed counterpart of its id and reference, or was inserted by `t` under its
    claim. -/
theorem visible (h : T.Referenced c) {t : Nat} {row : BookingRow} (hrow : row ∈ c.shared.view t) :
    T.Booked c (t, row) := by
  rcases h.sound.mem_view.mp hrow with hown | ⟨hcommitted, -⟩
  · exact h.booked (t, row) (Db.mem_own.mp hown)
  · exact Or.inl ⟨row, hcommitted, rfl, rfl⟩

/-! ### Ends, commits and look-ups

A commit makes the claimed reference a booked one. A look-up that finds nothing opens a claim, and what it did not
find nobody has booked. -/

/-- Ending transaction `t`: its claims are gone, nobody else's change, and the table shows `t`'s view or what it
    showed. -/
structure Ends (T : Traffic) (c c' : State) (t : Nat) : Prop where
  pending : c'.shared.db.pending = c.shared.db.pending.filter fun p => p.1 ≠ t
  gone    : ∀ reference, T.Claims c' t reference = false
  others  : ∀ u reference, u ≠ t → T.Claims c' u reference = T.Claims c u reference

theorem Ends.claims {t u : Nat} {reference : String} (he : Ends T c c' t) (hu : T.Claims c' u reference = true) :
    u ≠ t ∧ T.Claims c u reference = true := by
  by_cases hut : u = t
  · rw [hut, he.gone] at hu
    cases hu
  · rw [he.others u reference hut] at hu
    exact ⟨hut, hu⟩

theorem rollback (h : T.Referenced c) (hlaw : T.Lawfully c') {t : Nat} (he : Ends T c c' t)
    (hdb : c'.shared.db = c.shared.db.rollback t) : T.Referenced c' where
  sound := hdb ▸ h.sound.rollback t
  lawful := hlaw
  booked := by
    intro p hp
    rw [he.pending] at hp
    obtain ⟨hp, hpt⟩ := Db.mem_pending_drop.mp hp
    have hbooked := h.booked p hp
    unfold Booked at hbooked ⊢
    rw [hdb, he.others p.1 _ hpt]
    exact hbooked
  unique := by
    rw [hdb]
    exact h.unique
  free := by
    rw [hdb]
    intro u reference hu
    exact h.free u reference (he.claims hu).2
  alone := by
    intro u v reference hu hv
    exact h.alone u v reference (he.claims hu).2 (he.claims hv).2

/-- **A commit keeps the references distinct.** -/
theorem commit (h : T.Referenced c) (hlaw : T.Lawfully c') {t : Nat} (he : Ends T c c' t)
    (hdb : c'.shared.db = c.shared.db.commit bookingTable t) : T.Referenced c' where
  sound := hdb ▸ h.sound.commit t
  lawful := hlaw
  booked := by
    intro p hp
    rw [he.pending] at hp
    obtain ⟨hp, hpt⟩ := Db.mem_pending_drop.mp hp
    rcases h.booked p hp with ⟨old, hold, hid, href⟩ | ⟨hclaim, hnew⟩
    · -- `t` has no version of that row: the lock is with `p`
      refine Or.inl ⟨old, ?_, hid, href⟩
      rw [hdb]
      refine h.sound.mem_view_of_committed hold fun hk => ?_
      obtain ⟨y, hy, hyk⟩ := List.mem_map.mp hk
      exact hpt (congrArg Prod.fst (h.sound.pending_inj hp (Db.mem_own.mp hy) (hid.symm.trans hyk.symm)))
    · rw [← he.others p.1 _ hpt] at hclaim
      exact Or.inr ⟨hclaim, hnew⟩
  unique := by
    rw [hdb]
    intro a ha b hb hab
    -- each row was committed before, or was inserted by `t` under the reference it claims
    rcases h.visible ha with ⟨a₀, ha₀, hida, hrefa⟩ | ⟨hclaim, r, hr, hida⟩
    · rcases h.visible hb with ⟨b₀, hb₀, hidb, hrefb⟩ | ⟨hclaim, -⟩
      · have hsame := h.unique a₀ ha₀ b₀ hb₀ (hrefa.trans (hab.trans hrefb.symm))
        exact eq_of_key_eq (h.sound.view_keyed t) ha hb (hida.symm.trans (hsame ▸ hidb))
      · exact absurd (hrefa.trans hab) (h.free t _ hclaim a₀ ha₀)
    · rcases h.visible hb with ⟨b₀, hb₀, hidb, hrefb⟩ | ⟨-, r', hr', hidb⟩
      · exact absurd (hrefb.trans hab.symm) (h.free t _ hclaim b₀ hb₀)
      · have hsame : r = r' := Option.some.inj (hr.symm.trans hr')
        exact eq_of_key_eq (h.sound.view_keyed t) ha hb (hida.trans (hsame ▸ hidb.symm))
  free := by
    rw [hdb]
    intro u reference hu row hrow href
    obtain ⟨hut, hu⟩ := he.claims hu
    rcases h.visible hrow with ⟨old, hold, -, hrefOld⟩ | ⟨hclaim, -⟩
    · exact h.free u reference hu old hold (hrefOld.trans href)
    · exact hut (h.alone u t reference hu (href ▸ hclaim))
  alone := by
    intro u v reference hu hv
    exact h.alone u v reference (he.claims hu).2 (he.claims hv).2

/-- **A look-up** that finds nothing while nobody else claims the reference makes its claim exclusive. -/
theorem lookUp (h : T.Referenced c) (hlaw : T.Lawfully c') {t : Nat} {r : Request} {reference : String}
    (hdb : c'.shared.db = c.shared.db) (hothers : ∀ u q, u ≠ t → T.Claims c' u q = T.Claims c u q)
    (hkeeps : ∀ q, T.Claims c t q = true → T.Claims c' t q = true)
    (hnew : ∀ q, T.Claims c' t q = true → T.Claims c t q = true ∨
      (q = reference ∧ r.books = true ∧ ∀ row ∈ c.shared.view t, row.reference ≠ reference))
    (hnobody : r.books = true → ∀ u < T.requests.length, u ≠ t → T.Claims c u reference = false) :
    T.Referenced c' where
  sound := hdb ▸ h.sound
  lawful := hlaw
  booked := by
    rw [hdb]
    intro p hp
    have hbooked := h.booked p hp
    unfold Booked at hbooked ⊢
    rw [hdb]
    rcases hbooked with hold | ⟨hclaim, hid⟩
    · exact Or.inl hold
    · refine Or.inr ⟨?_, hid⟩
      by_cases hpt : p.1 = t
      · rw [hpt] at hclaim ⊢
        exact hkeeps _ hclaim
      · rw [hothers p.1 _ hpt]
        exact hclaim
  unique := by
    rw [hdb]
    exact h.unique
  free := by
    rw [hdb]
    intro u q hu row hrow
    by_cases hut : u = t
    · subst hut
      rcases hnew q hu with hold | ⟨rfl, -, hunseen⟩
      · exact h.free u q hold row hrow
      · by_cases hold : T.Claims c u q = true
        · exact h.free u q hold row hrow
        · -- a committed row of the reference would have been visible, in some version of that reference
          intro href
          obtain ⟨y, hy, hkey⟩ := List.mem_map.mp
            (h.sound.committed_visible (t := u) (lookup_of_mem h.sound.keyed hrow))
          refine hunseen y hy ?_
          rcases h.visible hy with ⟨old, hold', hid, hrefOld⟩ | ⟨hclaim, -⟩
          · rw [← hrefOld, eq_of_key_eq h.sound.keyed hold' hrow (hid.trans hkey)]
            exact href
          · obtain ⟨r₁, th₁, hr₁, -, -, hclaimed₁⟩ := claims_iff.mp hclaim
            obtain ⟨r₂, th₂, hr₂, -, -, hclaimed₂⟩ := claims_iff.mp hu
            obtain rfl : r₁ = r₂ := Option.some.inj (hr₁.symm.trans hr₂)
            have hsame := (claimed_iff.mp hclaimed₁).2.1.symm.trans (claimed_iff.mp hclaimed₂).2.1
            exact absurd (hsame ▸ hclaim) hold
    · rw [hothers u q hut] at hu
      exact h.free u q hu row hrow
  alone := by
    have hlt : ∀ u q, T.Claims c u q = true → u < T.requests.length := by
      intro u q hu
      obtain ⟨r', -, hr', -⟩ := claims_iff.mp hu
      exact (List.getElem?_eq_some_iff.mp hr').1
    -- a claim new to `t` is on the reference it looked up, which nobody else claims
    have hclash : ∀ u q, u ≠ t → T.Claims c' t q = true → T.Claims c' u q = true → False := by
      intro u q hut ht hu
      rw [hothers u q hut] at hu
      rcases hnew q ht with hold | ⟨rfl, hbooks, -⟩
      · exact hut (h.alone u t q hu hold)
      · rw [hnobody hbooks u (hlt u q hu) hut] at hu
        cases hu
    intro u v q hu hv
    by_cases hut : u = t
    · by_cases hvt : v = t
      · rw [hut, hvt]
      · exact absurd (hut ▸ hu) fun ht => hclash v q hvt ht hv
    · by_cases hvt : v = t
      · exact absurd (hvt ▸ hv) fun ht => hclash u q hut ht hu
      · rw [hothers u q hut] at hu
        rw [hothers v q hvt] at hv
        exact h.alone u v q hu hv

end Referenced

/-! ## Steps and runs -/

/-- The acting request's claims after a statement. -/
theorem claims_act {c : State} {s : Server} {t : Nat} {th : Thread Stmts Err Unit} {o : Stmt} {a : Except Err o.Res}
    {p : Prog Stmts Err Unit} (hth : c.threads[t]? = some th) (reference : String) :
    T.Claims ⟨s, c.threads.set t ⟨p, th.log ++ [⟨o, a⟩], false⟩⟩ t reference =
      (T.requests[t]?).any fun r => Claimed r ((trail th).note o a) reference := by
  unfold Claims trail
  rw [List.getElem?_set_self (List.getElem?_eq_some_iff.mp hth).1]
  cases T.requests[t]? with
  | none => rfl
  | some r =>
      dsimp only [Option.any_some]
      rw [Machine.know_snoc]
      rfl

theorem claims_live {c : State} {t : Nat} {th : Thread Stmts Err Unit} (hth : c.threads[t]? = some th)
    (hlive : th.ended = false) (reference : String) :
    T.Claims c t reference = (T.requests[t]?).any fun r => Claimed r (trail th) reference := by
  unfold Claims
  rw [hth]
  cases T.requests[t]? with
  | none => rfl
  | some r => simp [hlive]

/-- A statement that is neither a look-up nor a commit leaves all claims. -/
theorem sameClaims_act {c : State} {s : Server} {t : Nat} {th : Thread Stmts Err Unit} {o : Stmt}
    {a : Except Err o.Res} {p : Prog Stmts Err Unit} (hth : c.threads[t]? = some th) (hlive : th.ended = false)
    (hlook : ∀ q, o ≠ .select (.byReference q)) (hcommit : o ≠ .commit) :
    T.SameClaims c ⟨s, c.threads.set t ⟨p, th.log ++ [⟨o, a⟩], false⟩⟩ := by
  intro u reference
  by_cases hu : u = t
  · subst hu
    rw [claims_act hth, claims_live hth hlive]
    simp only [claimed_note a hlook hcommit]
  · exact claims_set_ne hu reference

/-- **Step lemma.** -/
theorem referenced_step (c : State) (t : Nat) (h : T.Referenced c) (hok : T.LooksUpAlone c t) :
    T.Referenced (T.machine.step c t) := by
  have hlaw : T.Lawfully (T.machine.step c t) := h.lawful.step t
  have hmove := T.machine.step_move c t
  generalize T.machine.step c t = c' at hmove hlaw ⊢
  cases hmove with
  | stay => exact h
  | finish hth hlive hres =>
      refine h.rollback hlaw (t := t) ⟨rfl, fun q => ?_, fun u q hu => claims_set_ne hu q⟩ rfl
      exact claims_ended rfl (List.getElem?_eq_some_iff.mp hth).1 q
  | act hth hlive hprog hexec =>
      rename_i th o k a s
      have hnext := Config.next_eq hth hlive hprog
      have hallowed := h.lawful.allowed hth hprog
      cases Server.exec_effect hexec with
      | aside ho =>
          refine h.idle hlaw rfl (sameClaims_act hth hlive ?_ ?_)
          · rintro q rfl
            exact ho
          · rintro rfl
            exact ho
      | selectById | duplicate | excluded | missing | barred | declined | charged =>
          exact h.idle hlaw rfl (sameClaims_act hth hlive (by simp) (by simp))
      | select =>
          rename_i f
          by_cases hlook : ∃ q, f = .byReference q
          · -- a claim begins with a look-up that finds nothing
            obtain ⟨q, rfl⟩ := hlook
            obtain ⟨r, hr, hlawful⟩ := hallowed
            have hnobody : r.books = true → ∀ u < T.requests.length, u ≠ t → T.Claims c u q = false := by
              refine hok r hr q ?_
              rw [hnext]
              rfl
            refine h.lookUp (r := r) hlaw rfl (fun u q' hu => claims_set_ne hu q') (fun q' hq => ?_) (fun q' hq => ?_)
              hnobody
            · rw [claims_live hth hlive, hr] at hq
              rw [claims_act hth, hr]
              exact claimed_lookUp.mpr (Or.inl hq)
            · rw [claims_act hth, hr] at hq
              rw [claims_live hth hlive, hr]
              rcases claimed_lookUp.mp hq with hold | ⟨⟨hbooks, href, hcarries, hempty⟩, -⟩
              · exact Or.inl hold
              · have hq' : r.clientReference = some q := hlawful hbooks
                rw [Request.ticketRef_of_carries hcarries, href] at hq'
                have hnone : (c.shared.view t).filter (Filter.byReference q).holds = [] := by
                  have hperm := (T.scan t).perm ((c.shared.view t).filter (Filter.byReference q).holds)
                  rw [hempty] at hperm
                  exact hperm.nil_eq.symm
                refine Or.inr ⟨Option.some.inj hq', hbooks, fun row hrow href' => ?_⟩
                exact List.filter_eq_nil_iff.mp hnone row hrow (by simp [Filter.holds, href'])
          · exact h.idle hlaw rfl (sameClaims_act hth hlive (by simpa using hlook) (by simp))
      | inserted hfresh hw =>
          rename_i row db
          -- whoever inserts holds a claim on the reference
          refine h.write hlaw hw (sameClaims_act hth hlive (by simp) (by simp)) (Or.inr ?_)
          obtain ⟨r, hr, hbooks, hid, href, hmissed, -, huncommitted, -⟩ := hallowed
          refine ⟨?_, r, hr, hid⟩
          rw [claims_live hth hlive, hr]
          exact claimed_iff.mpr ⟨hbooks, href.symm, huncommitted, fun hc => hmissed (by
            rw [Request.ticketRef_of_carries hc]
            exact Option.some_ne_none _)⟩
      | updated hrow hw =>
          have hseen := h.visible (lookup_some_mem hrow)
          exact h.write hlaw hw (sameClaims_act hth hlive (by simp) (by simp)) hseen
      | committed =>
          -- the claim ends, and its row takes its place
          refine h.commit hlaw (t := t) ⟨rfl, fun q => ?_, fun u q hu => claims_set_ne hu q⟩ rfl
          rw [claims_act hth]
          cases T.requests[t]? with
          | none => rfl
          | some r => simp [Claimed, Trail.note]

/-- **A reference identifies one booking** in every run whose requests look a reference up only while no other
    request in flight claims it. -/
theorem references_distinct (T : Traffic) (sched : List Nat) (hfresh : T.FreshReferences)
    (hobeys : T.machine.Obeys T.LooksUpAlone T.start sched) :
    ∀ c ∈ T.machine.visited T.start sched, (c.shared.db.committed.map BookingRow.reference).Nodup := by
  intro c hc
  have h : T.Referenced c := T.machine.visited_invariant referenced_step (referenced_start hfresh) hobeys c hc
  have hrows : c.shared.db.committed.Nodup := List.Nodup.of_map _ h.sound.keyed
  exact hrows.map_on h.unique

/-! ## A double click -/

/-- A double-click: one passenger, one client reference, two seats. -/
def doubleClick : Traffic where
  trips := sampleTrips
  requests :=
    [⟨.hold "slow" "A1" firstHop "nic1" "Nimal" (some "R1"), sampleDeps 0 "0", acceptAll⟩,
     ⟨.hold "slow" "A2" firstHop "nic1" "Nimal" (some "R1"), sampleDeps 0 "1", acceptAll⟩,
     ⟨.sell "slow" firstHop "nic2" "Kamala" .third none, sampleDeps 0 "2", acceptAll⟩]

/-- The second click arrives after the first is done; a counter sale runs between its statements. -/
def patient : List Nat := List.replicate 10 0 ++ [1, 2, 1, 2, 1] ++ List.replicate 10 2

theorem references_distinct_doubleClick :
    doubleClick.FreshReferences ∧ doubleClick.machine.Obeys doubleClick.LooksUpAlone doubleClick.start patient ∧
    ∀ c ∈ doubleClick.machine.visited doubleClick.start patient,
      (c.shared.db.committed.map BookingRow.reference).Nodup := by
  have hfresh : doubleClick.FreshReferences := by decide +kernel
  have hobeys : doubleClick.machine.Obeys doubleClick.LooksUpAlone doubleClick.start patient := by decide +kernel
  exact ⟨hfresh, hobeys, references_distinct doubleClick patient hfresh hobeys⟩

/-- Both clicks look the reference up before either inserts. -/
def together : List Nat := [0, 1] ++ List.replicate 9 0 ++ List.replicate 9 1

/-- **Two bookings under one reference.** -/
theorem reference_names_two_bookings :
    (doubleClick.machine.runs doubleClick.start together).shared.db.committed.map
      (fun row => (row.reference, row.seatId)) = [("R1", some "A1"), ("R1", some "A2")] ∧
    ¬ ∀ (T : Traffic) (sched : List Nat), T.FreshReferences → ∀ c ∈ T.machine.visited T.start sched,
      (c.shared.db.committed.map BookingRow.reference).Nodup := by
  have hrows : (doubleClick.machine.runs doubleClick.start together).shared.db.committed.map
      (fun row => (row.reference, row.seatId)) = [("R1", some "A1"), ("R1", some "A2")] := by decide +kernel
  refine ⟨hrows, fun hall => ?_⟩
  have hnodup := hall doubleClick together (by decide +kernel) _ (doubleClick.machine.runs_mem_visited _ _)
  have hrefs : (doubleClick.machine.runs doubleClick.start together).shared.db.committed.map BookingRow.reference =
      ["R1", "R1"] := by
    have := congrArg (List.map Prod.fst) hrows
    simpa [List.map_map, Function.comp_def] using this
  rw [hrefs] at hnodup
  exact absurd hnodup (by decide)

end Traffic

end SlrBooking
