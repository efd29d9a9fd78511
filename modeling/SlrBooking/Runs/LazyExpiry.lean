import SlrBooking.Runs.SideBySide

/-!
# `Runs.LazyExpiry` — the sweep of a read goes unnoticed

Nothing in the program runs on a timer: an overdue hold is retired by the next call that happens to sweep, and the
reading calls commit that. So a search or a gate check writes to the store. The question is whether the other
callers can tell. They cannot, as long as no call looks at an overdue booking before it sweeps itself: a replayed
reference, a cancel and a quote do look first.

## Contents
- `Lags`: a booking and the same booking brought up to a moment. `Lag` on stores.
- `Request.peeksAt`, `Timely`: the bookings a request reads before any sweep.
- `serve_lagging`: a timely request cannot tell a store from the same one brought up to date.
- `reads_unnoticed`: the run lemma.
-/

namespace SlrBooking

open Theory Rows

/-! ## Behind by a sweep -/

/-- `e` is `l`, possibly brought up to `T`. -/
def Lags (T : Int) (e l : Hold) : Prop := e = l ∨ e = MemoryRepo.retire T l

/-- Two stores with the same bookings in the same order, the second possibly behind. -/
def Lag (T : Int) (es ls : List Hold) : Prop := List.Forall₂ (Lags T) es ls

namespace Lags

variable {T now : Int} {e l : Hold}

theorem restatus (h : Lags T e l) : ∃ s, e = { l with status := s } := by
  rcases h with rfl | rfl
  · exact ⟨e.status, rfl⟩
  · rcases MemoryRepo.retire_cases T l with he | ⟨-, he⟩
    · exact ⟨l.status, he⟩
    · exact ⟨.expired, he⟩

/-- Either nothing is behind, or the older copy is overdue. -/
theorem stale (h : Lags T e l) : e = l ∨ MemoryRepo.overdue T l = true := by
  rcases h with rfl | rfl
  · exact Or.inl rfl
  · unfold MemoryRepo.retire
    by_cases hdue : MemoryRepo.overdue T l = true
    · exact Or.inr hdue
    · exact Or.inl (if_neg hdue)

/-- Overdue stays overdue. -/
theorem overdue_later (hT : T ≤ now) (h : MemoryRepo.overdue T l = true) : MemoryRepo.overdue now l = true := by
  simp only [MemoryRepo.overdue, Bool.and_eq_true, decide_eq_true_eq] at h ⊢
  exact ⟨h.1, h.2.trans hT⟩

theorem retired (h : MemoryRepo.overdue T l = true) : MemoryRepo.retire T l = { l with status := .expired } :=
  if_pos h

theorem later (hT : T ≤ now) (h : Lags T e l) : Lags now e l := by
  rcases h with rfl | rfl
  · exact Or.inl rfl
  · by_cases hdue : MemoryRepo.overdue T l = true
    · exact Or.inr (by rw [retired hdue, retired (overdue_later hT hdue)])
    · exact Or.inl (if_neg hdue)

/-- **A sweep evens it out.** -/
theorem swept (h : Lags now e l) : MemoryRepo.retire now e = MemoryRepo.retire now l := by
  rcases h with rfl | rfl
  · rfl
  · by_cases hdue : MemoryRepo.overdue now l = true
    · rw [retired hdue]
      exact MemoryRepo.retire_eq fun hs => by cases hs
    · have hkept : MemoryRepo.retire now l = l := if_neg hdue
      rw [hkept, hkept]

end Lags

namespace Lag

variable {T now : Int} {es ls : List Hold}

theorem refl (T : Int) (holds : List Hold) : Lag T holds holds := List.forall₂_same.mpr fun _ _ => Or.inl rfl

theorem later (hT : T ≤ now) (h : Lag T es ls) : Lag now es ls := h.imp fun _ _ => Lags.later hT

theorem swept (h : Lag now es ls) : (MemoryRepo.expireDue es now).2 = (MemoryRepo.expireDue ls now).2 := by
  show es.map (MemoryRepo.retire now) = ls.map (MemoryRepo.retire now)
  induction h with
  | nil => rfl
  | cons hhead _ ih => rw [List.map_cons, List.map_cons, hhead.swept, ih]

/-- One more sweep on the side that is ahead. -/
theorem sweep (h : Lag now es ls) : Lag now (MemoryRepo.expireDue es now).2 ls := by
  rw [h.swept]
  show List.Forall₂ _ (ls.map (MemoryRepo.retire now)) ls
  rw [List.forall₂_map_left_iff]
  exact List.forall₂_same.mpr fun _ _ => Or.inr rfl

/-- A question that no overdue booking of the older store answers is answered alike. -/
theorem filter {p : Hold → Bool}
    (hp : ∀ l ∈ ls, MemoryRepo.overdue now l = true → ∀ s, p { l with status := s } = false) (h : Lag now es ls) :
    es.filter p = ls.filter p := by
  induction h with
  | nil => rfl
  | @cons e l es ls hhead htail ih =>
      have hrest := ih fun x hx => hp x (List.mem_cons_of_mem l hx)
      rcases hhead.stale with rfl | hdue
      · by_cases hpe : p e = true
        · rw [List.filter_cons_of_pos hpe, List.filter_cons_of_pos hpe, hrest]
        · rw [List.filter_cons_of_neg hpe, List.filter_cons_of_neg hpe, hrest]
      · have hno := hp l List.mem_cons_self hdue
        obtain ⟨s, rfl⟩ := hhead.restatus
        rw [List.filter_cons_of_neg (by rw [hno s]; exact Bool.false_ne_true),
          List.filter_cons_of_neg (by rw [hno l.status]; exact Bool.false_ne_true), hrest]

theorem find {p : Hold → Bool} (hp : ∀ l ∈ ls, MemoryRepo.overdue now l = true → ∀ s, p { l with status := s } = false)
    (h : Lag now es ls) : es.find? p = ls.find? p := by
  rw [← List.head?_filter, ← List.head?_filter, h.filter hp]

/-- Writing one booking to both. -/
theorem put (b : Hold) (h : Lag now es ls) :
    Lag now (Rows.put MemoryRepo.idOf b es) (Rows.put MemoryRepo.idOf b ls) := by
  induction h with
  | nil => exact refl now _
  | @cons e l es ls hhead htail ih =>
      have hid : e.bookingId = l.bookingId := by
        obtain ⟨s, rfl⟩ := hhead.restatus
        rfl
      unfold Rows.put
      by_cases hb : l.bookingId = b.bookingId
      · rw [if_pos (hid.trans hb), if_pos hb]
        exact .cons (Or.inl rfl) htail
      · rw [if_neg fun he => hb (hid.symm.trans he), if_neg hb]
        exact .cons hhead ih

end Lag

/-! ## What a request reads before any sweep -/

/-- The request reads the stored status of `h` before it sweeps. -/
def Request.peeksAt (r : Request) (h : Hold) : Prop :=
  match r.call with
  | .hold _ _ _ _ _ reference => reference = some h.reference
  | .sell _ _ _ _ _ reference => reference = some h.reference
  | .cancel bookingId => h.bookingId = bookingId
  | .quote tripId leg _ => h.tripId = tripId ∧ h.leg.overlaps leg = true
  | _ => False

/-- No booking the request reads before its sweep is overdue. -/
def Timely (holds : List Hold) (r : Request) : Prop :=
  ∀ h ∈ holds, MemoryRepo.overdue r.deps.now h = true → ¬ r.peeksAt h

/-- The request only reads, sweeps and commits. -/
def Request.reads (r : Request) : Bool :=
  match r.call with
  | .verify .. | .search .. | .availability .. | .quote .. => true
  | _ => false

section Serve

variable {O : Outside → Outside → Prop} {g : Gateway} {now : Int}

/-- The sweep evens the two stores out. -/
theorem relates_sweep : Prog.Relates (World.exec g) (World.exec g) (Beside (Lag now) (Lag now) O)
    (Beside Eq (Lag now) O) (fun _ _ => True) Eq (Bookings.expireDue now) (Bookings.expireDue now) := by
  intro w v h
  rw [run_expireDue, run_expireDue]
  exact ⟨trivial, h.withHolds h.holds.swept⟩

theorem beside_of_even {w v : World} (h : Beside Eq (Lag now) O w v) : Beside (Lag now) (Lag now) O w v :=
  h.mono fun _ _ he => he ▸ Lag.refl now _

/-- Whatever comes after a sweep. -/
theorem relates_swept {α : Type} (hO : Joint O) (p : Prog Ports Err α) :
    Prog.Relates (World.exec g) (World.exec g) (Beside (Lag now) (Lag now) O) (Beside (Lag now) (Lag now) O) Eq Eq
      ((Bookings.expireDue now).bind fun _ => p) ((Bookings.expireDue now).bind fun _ => p) := by
  refine relates_sweep.bind (fun _ _ _ => ?_) fun _ _ => beside_of_even
  exact (relates_even g hO p).mono (fun _ _ h => h) (fun _ _ => beside_of_even) (fun _ _ h => h) fun _ _ h => h

/-! ### The calls that look before they sweep -/

/-- Looking a reference up, when nothing overdue carries it. -/
theorem relates_lookupReplay {r : Request} {ref : Option String} (hpeek : ∀ h, ref = some h.reference → r.peeksAt h) :
    Prog.Relates (World.exec g) (World.exec g)
      (fun w v => Beside (Lag r.deps.now) (Lag r.deps.now) O w v ∧ Timely v.holds r)
      (Beside (Lag r.deps.now) (Lag r.deps.now) O) Eq Eq (lookupReplay ref) (lookupReplay ref) := by
  rintro w v ⟨h, htimely⟩
  rw [run_lookupReplay, run_lookupReplay]
  refine ⟨(?_ : replayed w.holds ref = replayed v.holds ref), h⟩
  cases ref with
  | none => rfl
  | some x =>
      refine h.holds.find fun l hl hdue s => ?_
      have hne : l.reference ≠ x := fun he => htimely l hl hdue (hpeek l (congrArg some he.symm))
      simpa using hne

/-- A cancel of a booking that is not overdue. -/
theorem relates_cancel {r : Request} (hO : Joint O) (id : String) (hpeek : ∀ h, h.bookingId = id → r.peeksAt h) :
    Prog.Relates (World.exec g) (World.exec g)
      (fun w v => Beside (Lag r.deps.now) (Lag r.deps.now) O w v ∧ Timely v.holds r)
      (Beside (Lag r.deps.now) (Lag r.deps.now) O) Eq Eq (cancelBooking id) (cancelBooking id) := by
  -- the two stores also show the same booking under the id, and a cancel asks for nothing else
  let N : List Hold → List Hold → Prop := fun es ls =>
    Lag r.deps.now es ls ∧ lookup MemoryRepo.idOf id es = lookup MemoryRepo.idOf id ls
  have hget : Agree portView N (.get id) := by
    rintro es ls ⟨-, hsame⟩
    unfold MemoryRepo.get
    rw [hsame]
  have hset : ∀ s, Agree portView N (.setStatus id s) := by
    rintro s es ls ⟨hlag, hsame⟩
    unfold MemoryRepo.setStatus
    rw [hsame]
    cases hfound : lookup MemoryRepo.idOf id ls with
    | none => rfl
    | some b =>
        have hid : b.bookingId = id := lookup_some_key hfound
        refine ⟨rfl, hlag.put _, ?_⟩
        rw [← hid]
        exact (MemoryRepo.lookup_put_hold { b with status := s } es).trans
          (MemoryRepo.lookup_put_hold { b with status := s } ls).symm
  have hprog : (cancelBooking id).Under portView (Agree portView N) :=
    under_cancelBooking hget hset (fun _ => trivial) (fun _ => trivial) trivial
  refine (relates_beside (B := Lag r.deps.now) g hO hprog).mono ?_ (fun _ _ h => h.mono fun _ _ hN => hN.1)
    (fun _ _ h => h) fun _ _ h => h
  rintro w v ⟨h, htimely⟩
  refine ⟨⟨⟨h.holds, h.holds.find fun l hl hdue s => ?_⟩, h.trips, h.outside⟩, h.snapshot⟩
  have hne : l.bookingId ≠ id := fun he => htimely l hl hdue (hpeek l he)
  simpa using hne

/-- A quote over legs that nothing overdue occupies. -/
theorem relates_quote {t : String} {leg : Leg} {c : TravelClass} (deps : Deps) :
    Prog.Relates (World.exec g) (World.exec g)
      (fun w v => Beside (Lag deps.now) (Lag deps.now) O w v ∧ Timely v.holds ⟨.quote t leg c, deps, g⟩)
      (Beside (Lag deps.now) (Lag deps.now) O) Eq Eq (quoteFare deps t leg c) (quoteFare deps t leg c) := by
  rintro w v ⟨h, htimely⟩
  have hprice : ∀ trip : Trip, trip.tripId = t →
      legPrice deps w.holds trip leg c = legPrice deps v.holds trip leg c := by
    intro trip htrip
    have hbusy : (MemoryRepo.activeHolds w.holds trip.tripId).filter (fun h => h.leg.overlaps leg) =
        (MemoryRepo.activeHolds v.holds trip.tripId).filter fun h => h.leg.overlaps leg := by
      unfold MemoryRepo.activeHolds
      rw [List.filter_filter, List.filter_filter]
      refine h.holds.filter fun l hl hdue s => ?_
      by_cases hover : l.leg.overlaps leg = true
      · have hne : l.tripId ≠ trip.tripId := fun he => htimely l hl hdue ⟨he.trans htrip, hover⟩
        simp [hne]
      · simp [hover]
    unfold legPrice occupancyOn
    rw [hbusy]
  have hread : ∀ u : World, (quoteFare deps t leg c).run (World.exec g) u =
      ((do
        let trip ← MemoryRepo.getTrip u.trips t
        validateLeg trip leg
        legPrice deps u.holds trip leg c), u) := fun u =>
    Prog.run_bind_reads _ (run_getTrip g u t) fun _ => Prog.run_bind_reads _ (Prog.run_ofExcept _ _ _) fun _ =>
      run_priceLeg _
  rw [hread, hread, h.trips]
  refine ⟨alike_eq.mpr ?_, h⟩
  cases htrip : MemoryRepo.getTrip v.trips t with
  | error e => rfl
  | ok trip =>
      show (validateLeg trip leg >>= fun _ => _) = (validateLeg trip leg >>= fun _ => _)
      rw [hprice trip (getTrip_tripId htrip)]

/-- **A timely request** is answered alike by a store and by the same store behind by a sweep, and leaves them so. -/
theorem serve_lagging {r : Request} {T : Int} {w v : World} (hO : Joint O) (hT : T ≤ r.deps.now)
    (h : Abreast (Lag T) O w v) (htimely : Timely v.holds r) :
    (w.serve r).1 = (v.serve r).1 ∧ Abreast (Lag r.deps.now) O (w.serve r).2 (v.serve r).2 := by
  obtain ⟨call, deps, g⟩ := r
  have hnow : Beside (Lag deps.now) (Lag deps.now) O w.enter v.enter := (h.mono fun _ _ => Lag.later hT).enter
  have hswept : ∀ {α} {p : Prog Ports Err α},
      Prog.Relates (World.exec g) (World.exec g) (Beside (Lag deps.now) (Lag deps.now) O)
        (Beside (Lag deps.now) (Lag deps.now) O) Eq Eq p p →
      (w.block g p).1 = (v.block g p).1 ∧
        Abreast (Lag deps.now) O (w.block g p).2 (v.block g p).2 :=
    fun hp => block_beside hp hnow
  have hpeeks : ∀ {α} {p : Prog Ports Err α},
      Prog.Relates (World.exec g) (World.exec g)
        (fun w v => Beside (Lag deps.now) (Lag deps.now) O w v ∧ Timely v.holds ⟨call, deps, g⟩)
        (Beside (Lag deps.now) (Lag deps.now) O) Eq Eq p p →
      (w.block g p).1 = (v.block g p).1 ∧
        Abreast (Lag deps.now) O (w.block g p).2 (v.block g p).2 :=
    fun hp => block_beside hp ⟨hnow, htimely⟩
  -- hold and sell look a reference up before they sweep, cancel and quote never sweep: these four have to be timely
  cases call with
  | hold t s leg p n ref =>
      refine hpeeks ((relates_lookupReplay (r := ⟨.hold t s leg p n ref, deps, g⟩) fun _ he => he).bind
        (fun found _ hfound => ?_) fun _ _ h => h)
      cases hfound
      cases found with
      | some existing => exact Prog.relates_ret (fun _ _ h => h) rfl
      | none => exact relates_swept hO _
  | confirm id => exact hswept (relates_swept hO _)
  | cancel id => exact hpeeks (relates_cancel (r := ⟨.cancel id, deps, g⟩) hO id fun _ he => he)
  | sell t leg p n c ref =>
      refine hpeeks ((relates_lookupReplay (r := ⟨.sell t leg p n c ref, deps, g⟩) fun _ he => he).bind
        (fun found _ hfound => ?_) fun _ _ h => h)
      cases hfound
      cases found with
      | some existing =>
          exact relates_beside g hO
            (Prog.Under.bind (Prog.under_call trivial fun _ _ => id) fun _ => Prog.under_ofExcept _)
      | none => exact relates_swept hO _
  | verify ref => exact hswept (relates_swept hO _)
  | search o d date =>
      refine hswept ((Prog.relates_ofExcept (fun _ _ h => h) (alike_eq.mpr rfl)).bind (fun _ _ _ => ?_) fun _ _ h => h)
      exact relates_swept hO _
  | availability t leg =>
      have hread : ∀ x : Except Err Unit, ((Trips.get t).Under portView (Agree portView (Lag deps.now))) ∧
          ((Prog.ofExcept x : Prog Ports Err Unit).Under portView (Agree portView (Lag deps.now))) :=
        fun x => ⟨Prog.under_call trivial fun _ _ => id, Prog.under_ofExcept x⟩
      refine hswept ((relates_beside g hO (hread (.ok ())).1).bind (fun trip _ htrip => ?_) fun _ _ h => h)
      cases htrip
      exact (relates_beside g hO (hread _).2).bind (fun _ _ _ => relates_swept hO _) fun _ _ h => h
  | quote t leg c => exact hpeeks (relates_quote deps)

end Serve

/-! ## Reads -/

theorem reads_program {r : Request} (hr : r.reads = true) :
    (r.call.program r.deps).Only (ReadsAndSweeps r.deps.now) := by
  obtain ⟨call, deps, g⟩ := r
  cases call with
  | verify ref => exact reads_verifyTicket deps ref
  | search o d date => exact reads_searchTrains deps o d date
  | availability t leg => exact reads_legAvailability deps t leg
  | quote t leg c => exact reads_quoteFare deps t leg c
  | _ => cases hr

/-- A read tells the outside nothing. -/
theorem outside_read (w : World) {r : Request} (hr : r.reads = true) : (w.serve r).2.outside = w.outside := by
  refine (reads_program hr).run_invariant (h := World.exec r.gateway) (I := fun u => u.outside = w.outside) ?_
    (s := w.enter) rfl
  intro o u ho hu
  cases o with
  | addHold | get | setStatus | charge | publish | notify => exact ho.elim
  | _ => exact hu

/-- **A read is at most a sweep**: it leaves the store ahead of a store that did not serve it, and no more. -/
theorem serve_read {w v : World} {r : Request} {T : Int} (hr : r.reads = true) (hT : T ≤ r.deps.now)
    (h : Abreast (Lag T) Eq w v) : Abreast (Lag r.deps.now) Eq (w.serve r).2 v := by
  have hout : (w.serve r).2.outside = v.outside := (outside_read w hr).trans h.outside
  have hlag : Lag r.deps.now w.holds v.holds := h.holds.later hT
  rcases World.sweep_outcome (reads_program hr) (World.block_pair r.gateway _ w) with hsame | hwrote
  · exact ⟨hsame.holds.symm ▸ hlag, hsame.trips.trans h.trips, hout⟩
  · exact ⟨hwrote.holds.symm ▸ hlag.sweep, hwrote.trips.trans h.trips, hout⟩

/-! ## Runs -/

/-- In the run of the marked requests alone, from `v`, each of them is timely when it is served. -/
def TimelyRun : World → List (Bool × Request) → Prop
  | _, [] => True
  | v, (true, r) :: later => Timely v.holds r ∧ TimelyRun (v.serve r).2 later
  | v, (false, _) :: later => TimelyRun v later

/-- With `later` of `steps` still to come: the first run is ahead of the second by a sweep at the last clock seen. -/
structure Ahead (steps later : List (Bool × Request)) (u v : World) : Prop where
  within  : ∀ step ∈ later, step ∈ steps
  clock   : later.Pairwise fun a b => a.2.deps.now ≤ b.2.deps.now
  timely  : TimelyRun v later
  lag     : ∃ seen ∈ steps, (∀ step ∈ later, seen.2.deps.now ≤ step.2.deps.now) ∧ Abreast (Lag seen.2.deps.now) Eq u v

namespace Ahead

variable {steps later : List (Bool × Request)} {u v : World} {r : Request}

theorem marked (h : Ahead steps ((true, r) :: later) u v) :
    (u.serve r).1 = (v.serve r).1 ∧ Ahead steps later (u.serve r).2 (v.serve r).2 := by
  obtain ⟨hhead, htail⟩ := List.pairwise_cons.mp h.clock
  obtain ⟨seen, hseen, hpast, hlag⟩ := h.lag
  obtain ⟨hans, hnext⟩ := serve_lagging joint_eq (hpast _ List.mem_cons_self) hlag h.timely.1
  exact ⟨hans, fun step hs => h.within step (List.mem_cons_of_mem _ hs), htail, h.timely.2,
    (true, r), h.within _ List.mem_cons_self, hhead, hnext⟩

theorem other (hr : r.reads = true) (h : Ahead steps ((false, r) :: later) u v) :
    Ahead steps later (u.serve r).2 v := by
  obtain ⟨hhead, htail⟩ := List.pairwise_cons.mp h.clock
  obtain ⟨seen, hseen, hpast, hlag⟩ := h.lag
  exact ⟨fun step hs => h.within step (List.mem_cons_of_mem _ hs), htail, h.timely,
    (false, r), h.within _ List.mem_cons_self, hhead, serve_read hr (hpast _ List.mem_cons_self) hlag⟩

end Ahead

/-- **Reads go unnoticed.** Leave any searches, seat views, quotes and gate checks out of a run whose clock does not
    run backwards. The other requests are answered the same, the same charges, events and notices go out, and once
    swept the stores are the same, provided that, without those reads, no request looks at an overdue booking before
    it sweeps itself. -/
theorem reads_unnoticed (w : World) (steps : List (Bool × Request))
    (hclock : steps.Pairwise fun a b => a.2.deps.now ≤ b.2.deps.now)
    (hreads : ∀ r, (false, r) ∈ steps → r.reads = true) (htimely : TimelyRun w steps) :
    Service.heard World.serve w steps = Service.replies World.serve w (Service.marked steps) ∧
      (w.after (Service.all steps)).outside = (w.after (Service.marked steps)).outside ∧
      ∀ now, (∀ step ∈ steps, step.2.deps.now ≤ now) →
        (w.after (Service.all steps)).swept now = (w.after (Service.marked steps)).swept now := by
  cases steps with
  | nil => exact ⟨rfl, rfl, fun _ _ => rfl⟩
  | cons first rest =>
      have hstart : Ahead (first :: rest) (first :: rest) w w :=
        ⟨fun _ hs => hs, hclock, htimely, first, List.mem_cons_self,
          fun step hs => (List.mem_cons.mp hs).elim (fun he => he ▸ le_refl _) ((List.pairwise_cons.mp hclock).1 step),
          Lag.refl _ _, rfl, rfl⟩
      -- an unmarked step is one of `steps`, so it only reads
      obtain ⟨hheard, hend⟩ := Service.heard_eq_replies World.serve (I := Ahead (first :: rest))
        (fun _ _ _ _ h => h.marked) (fun r _ _ _ h => h.other (hreads r (h.within _ List.mem_cons_self))) hstart
      obtain ⟨seen, hseen, -, hlag⟩ := hend.lag
      refine ⟨hheard, hlag.outside, fun now hnow => ?_⟩
      exact (hlag.holds.later (hnow seen hseen)).swept

def staleHold : Request := ⟨.hold "slow" "A1" firstHop "nic1" "Nimal" none, sampleDeps 0 "1", acceptAll⟩

def lateView : Request := ⟨.availability "slow" firstHop, sampleDeps 1000 "2", acceptAll⟩

def laterHold : Request := ⟨.hold "slow" "A1" firstHop "nic2" "Kamal" none, sampleDeps 1010 "3", acceptAll⟩

/-- The view retires the lapsed hold; the next passenger gets the seat with it or without it. -/
theorem reads_unnoticed_sample :
    [(true, staleHold), (false, lateView), (true, laterHold)].Pairwise (fun a b => a.2.deps.now ≤ b.2.deps.now) ∧
      Service.heard World.serve (World.start sampleTrips) [(true, staleHold), (false, lateView), (true, laterHold)] =
        Service.replies World.serve (World.start sampleTrips) [staleHold, laterHold] := by
  have hclock : [(true, staleHold), (false, lateView), (true, laterHold)].Pairwise
      fun a b => a.2.deps.now ≤ b.2.deps.now := by decide
  refine ⟨hclock, (reads_unnoticed _ _ hclock ?_ ?_).1⟩
  · intro r hr
    obtain rfl : r = lateView := by simpa using hr
    rfl
  · refine ⟨fun h hh => absurd hh List.not_mem_nil, fun h _ _ hpeek => ?_, trivial⟩
    cases hpeek

/-- A cancel does look first: it still finds a lapsed hold alive, unless a read has come between. -/
example : (World.after (World.start sampleTrips) [staleHold]).raises
      ⟨.cancel "b1", sampleDeps 1010 "3", acceptAll⟩ = none ∧
    (World.after (World.start sampleTrips) [staleHold, lateView]).raises
      ⟨.cancel "b1", sampleDeps 1010 "3", acceptAll⟩ ≠ none := by decide +kernel

end SlrBooking
