import SlrBooking.Theory.Relational
import SlrBooking.Runs.Effects

/-!
# `Runs.SideBySide` — one call served by two worlds

A call sees the store only through the operations of the ports. When two stores answer every operation of a call
alike and stay related, the call ends alike in both and leaves them related; an uncommitted exit brings back the
two stores the call started from.

## Contents
- `Abreast N O`: two worlds between calls, their holds related by `N` and everything outside the store by `O`.
  `Beside N B O`: two worlds inside a block, the holds an uncommitted exit restores related by `B`.
- `Agree N o`: stores related by `N` cannot be told apart by `o`.
- `exec_beside`, `relates_beside`, `block_beside`: one operation, one program, one `with` block.
- `Request.Names`: the operations a request can perform (`names_program`).
-/

namespace SlrBooking

open Theory Rows

/-! ## Two worlds -/

/-- Everything a call can touch besides the store. -/
structure Outside where
  accepted  : List (String × Money)
  published : List AvailabilityEvent
  notices   : List Notice

def World.outside (w : World) : Outside := ⟨w.accepted, w.published, w.notices⟩

/-- `O` is kept when the same thing happens on both sides. -/
structure Joint (O : Outside → Outside → Prop) : Prop where
  charge  : ∀ {a b : Outside} (m : String × Money), O a b →
      O { a with accepted := a.accepted ++ [m] } { b with accepted := b.accepted ++ [m] }
  publish : ∀ {a b : Outside} (e : AvailabilityEvent), O a b →
      O { a with published := a.published ++ [e] } { b with published := b.published ++ [e] }
  notify  : ∀ {a b : Outside} (n : Notice), O a b →
      O { a with notices := a.notices ++ [n] } { b with notices := b.notices ++ [n] }

theorem joint_eq : Joint Eq where
  charge := fun _ h => by rw [h]
  publish := fun _ h => by rw [h]
  notify := fun _ h => by rw [h]

/-- Nothing is said about the outside. -/
theorem joint_any : Joint fun _ _ => True := ⟨fun _ _ => trivial, fun _ _ => trivial, fun _ _ => trivial⟩

/-- Two worlds between calls. -/
structure Abreast (N : List Hold → List Hold → Prop) (O : Outside → Outside → Prop) (w v : World) : Prop where
  holds   : N w.holds v.holds
  trips   : w.trips = v.trips
  outside : O w.outside v.outside

/-- Two worlds inside a block. -/
structure Beside (N B : List Hold → List Hold → Prop) (O : Outside → Outside → Prop) (w v : World) : Prop
    extends Abreast N O w v where
  snapshot : Option.Rel (fun a b => B a.1 b.1 ∧ a.2 = b.2) w.uow.snapshot v.uow.snapshot

/-- What is known of an answer before it is read: a trip has the id it was asked for under. -/
def Fitting : (o : PortOp) → Except Err o.Res → Prop
  | .getTrip id, .ok trip => trip.tripId = id
  | _, _ => True

/-- No use-case reads the list of holds a sweep retired. -/
def Unread : (o : PortOp) → o.Res → o.Res → Prop
  | .expireDue _, _, _ => True
  | _, a, b => a = b

/-- What the use-cases know of the answers of the ports. -/
def portView : Prog.View Ports Err := ⟨Fitting, Unread⟩

/-- Stores related by `N` answer `o` alike as far as `U` can tell, and it leaves them related. -/
def Agree (U : Prog.View Ports Err) (N : List Hold → List Hold → Prop) : PortOp → Prop
  | .addHold hold => ∀ a b, N a b → Alike N Eq (MemoryRepo.addHold a hold) (MemoryRepo.addHold b hold)
  | .get id => ∀ a b, N a b → MemoryRepo.get a id = MemoryRepo.get b id
  | .byReference ref => ∀ a b, N a b → MemoryRepo.byReference a ref = MemoryRepo.byReference b ref
  | .setStatus id s => ∀ a b, N a b → Alike (fun x y => x.1 = y.1 ∧ N x.2 y.2) Eq (MemoryRepo.setStatus a id s)
      (MemoryRepo.setStatus b id s)
  | .activeForSeat t s => ∀ a b, N a b → MemoryRepo.activeForSeat a t s = MemoryRepo.activeForSeat b t s
  | .activeForPassenger t p =>
      ∀ a b, N a b → MemoryRepo.activeForPassenger a t p = MemoryRepo.activeForPassenger b t p
  | .activeHolds t => ∀ a b, N a b → MemoryRepo.activeHolds a t = MemoryRepo.activeHolds b t
  | .byStatus t s => ∀ a b, N a b → MemoryRepo.byStatus a t s = MemoryRepo.byStatus b t s
  | .expireDue now => ∀ a b, N a b →
      U.same (.expireDue now) (MemoryRepo.expireDue a now).1 (MemoryRepo.expireDue b now).1 ∧
        N (MemoryRepo.expireDue a now).2 (MemoryRepo.expireDue b now).2
  | _ => True

/-- Equal stores agree on everything. -/
theorem agree_eq (o : PortOp) : Agree Prog.View.plain Eq o := by
  cases o with
  | addHold hold =>
      rintro a _ rfl
      exact alike_eq.mpr rfl
  | setStatus id s =>
      rintro a _ rfl
      unfold Alike
      cases MemoryRepo.setStatus a id s with
      | ok x => exact ⟨rfl, rfl⟩
      | error e => rfl
  | expireDue now =>
      rintro a _ rfl
      exact ⟨rfl, rfl⟩
  | get | byReference | activeForSeat | activeForPassenger | activeHolds | byStatus =>
      rintro a _ rfl
      rfl
  | _ => trivial

section Blocks

variable {N N' B B' : List Hold → List Hold → Prop} {O : Outside → Outside → Prop} {w v : World}

theorem Abreast.mono (h : Abreast N O w v) (hN : ∀ a b, N a b → N' a b) : Abreast N' O w v :=
  ⟨hN _ _ h.holds, h.trips, h.outside⟩

/-- Entering a block takes the same snapshot twice. -/
theorem Abreast.enter (h : Abreast B O w v) : Beside B B O w.enter v.enter :=
  { h with snapshot := .some ⟨h.holds, h.trips⟩ }

theorem Beside.mono (h : Beside N B O w v) (hN : ∀ a b, N a b → N' a b) : Beside N' B O w v :=
  { h.toAbreast.mono hN with snapshot := h.snapshot }

theorem Beside.withHolds (h : Beside N B O w v) {a b : List Hold} (hab : N' a b) :
    Beside N' B O (w.withHolds a) (v.withHolds b) := ⟨⟨hab, h.trips, h.outside⟩, h.snapshot⟩

/-- Leaving a block: both kept what they committed, or both go back to where they started. -/
theorem Beside.exit (h : Beside B B O w v) : Abreast B O w.exit v.exit := by
  obtain ⟨⟨holds, trips, snapshot⟩, accepted, published, notices⟩ := w
  obtain ⟨⟨holds', trips', snapshot'⟩, accepted', published', notices'⟩ := v
  cases h.snapshot with
  | none => exact ⟨h.holds, h.trips, h.outside⟩
  | some hbase => exact ⟨hbase.1, hbase.2, h.outside⟩

end Blocks

section Runs

variable {U : Prog.View Ports Err} {N B : List Hold → List Hold → Prop} {O : Outside → Outside → Prop} {w v : World}
variable {α : Type}

/-! ## Blocks run side by side

One operation keeps two worlds beside each other as long as both answer it alike; a block enters and leaves with them
abreast. -/

/-- **One operation**, answered by two worlds. -/
theorem exec_beside (g : Gateway) (hU : ∀ o a, U.same o a a) (hO : Joint O) {o : PortOp} (ho : Agree U N o)
    (h : Beside N B O w v) : Alike (U.same o) Eq (World.exec g o w).1 (World.exec g o v).1 ∧
      Beside N B O (World.exec g o w).2 (World.exec g o v).2 := by
  have hrefl : ∀ {x y : Except Err o.Res}, x = y → Alike (U.same o) Eq x y := by
    rintro x _ rfl
    cases x with
    | ok a => exact hU o a
    | error e => rfl
  cases o with
  -- the two writes that can be refused: both worlds refuse them, or neither does
  | addHold hold =>
      have halike := ho _ _ h.holds
      simp only [World.exec]
      cases hw : MemoryRepo.addHold w.holds hold with
      | ok a =>
          cases hv : MemoryRepo.addHold v.holds hold with
          | ok b =>
              rw [hw, hv] at halike
              exact ⟨hrefl rfl, h.withHolds halike⟩
          | error e =>
              rw [hw, hv] at halike
              exact halike.elim
      | error e =>
          cases hv : MemoryRepo.addHold v.holds hold with
          | ok b =>
              rw [hw, hv] at halike
              exact halike.elim
          | error e' =>
              rw [hw, hv] at halike
              exact ⟨halike, h⟩
  | setStatus id s =>
      have halike := ho _ _ h.holds
      simp only [World.exec]
      cases hw : MemoryRepo.setStatus w.holds id s with
      | ok a =>
          cases hv : MemoryRepo.setStatus v.holds id s with
          | ok b =>
              rw [hw, hv] at halike
              exact ⟨hrefl (congrArg Except.ok halike.1), h.withHolds halike.2⟩
          | error e =>
              rw [hw, hv] at halike
              exact halike.elim
      | error e =>
          cases hv : MemoryRepo.setStatus v.holds id s with
          | ok b =>
              rw [hw, hv] at halike
              exact halike.elim
          | error e' =>
              rw [hw, hv] at halike
              exact ⟨halike, h⟩
  -- reads leave the worlds as they are
  | get id => exact ⟨hrefl (ho _ _ h.holds), h⟩
  | byReference ref => exact ⟨hrefl (congrArg Except.ok (ho _ _ h.holds)), h⟩
  | activeForSeat t s => exact ⟨hrefl (congrArg Except.ok (ho _ _ h.holds)), h⟩
  | activeForPassenger t p => exact ⟨hrefl (congrArg Except.ok (ho _ _ h.holds)), h⟩
  | activeHolds t => exact ⟨hrefl (congrArg Except.ok (ho _ _ h.holds)), h⟩
  | byStatus t s => exact ⟨hrefl (congrArg Except.ok (ho _ _ h.holds)), h⟩
  | expireDue now =>
      obtain ⟨hretired, hleft⟩ := ho _ _ h.holds
      exact ⟨hretired, h.withHolds hleft⟩
  | getTrip id => exact ⟨hrefl (by simp only [World.exec, h.trips]), h⟩
  | findByDate d => exact ⟨hrefl (by simp only [World.exec, h.trips]), h⟩
  | commit => exact ⟨hrefl rfl, ⟨h.holds, h.trips, h.outside⟩, .none⟩
  | charge ref m =>
      refine ⟨hrefl rfl, ?_⟩
      simp only [World.exec]
      split
      · exact ⟨⟨h.holds, h.trips, hO.charge (ref, m) h.outside⟩, h.snapshot⟩
      · exact h
  | publish e => exact ⟨hrefl rfl, ⟨h.holds, h.trips, hO.publish e h.outside⟩, h.snapshot⟩
  | notify n => exact ⟨hrefl rfl, ⟨h.holds, h.trips, hO.notify n h.outside⟩, h.snapshot⟩

theorem exec_fitting (g : Gateway) (o : PortOp) (w : World) : Fitting o (World.exec g o w).1 := by
  cases o with
  | getTrip id =>
      simp only [World.exec]
      cases h : MemoryRepo.getTrip w.trips id with
      | ok trip => exact getTrip_tripId h
      | error e => trivial
  | _ => trivial

theorem unread_refl (o : PortOp) (a : o.Res) : Unread o a a := by
  cases o <;> first | rfl | trivial

/-- **One use-case**, all of whose operations the two stores agree on. -/
theorem relates_beside (g : Gateway) (hO : Joint O) {p : Prog Ports Err α} (hp : p.Under portView (Agree portView N)) :
    Prog.Relates (World.exec g) (World.exec g) (Beside N B O) (Beside N B O) Eq Eq p p :=
  Prog.relates_of_under (U := portView) (fun o w _ _ => exec_fitting g o w)
    (fun _ _ _ ho h => exec_beside g unread_refl hO ho h) hp

/-- Any program, over equal holds. -/
theorem relates_even (g : Gateway) (hO : Joint O) (p : Prog Ports Err α) :
    Prog.Relates (World.exec g) (World.exec g) (Beside Eq B O) (Beside Eq B O) Eq Eq p p :=
  Prog.relates_of_under (U := Prog.View.plain) (fun _ _ _ _ => trivial)
    (fun o _ _ _ h => exec_beside g (fun _ _ => rfl) hO (agree_eq o) h) (Prog.only_true p).under

/-- **One `with` block**, from a pair of worlds in `R` to a pair related by `B`. -/
theorem block_beside {g : Gateway} {R : World → World → Prop} {p : Prog Ports Err α}
    (hp : Prog.Relates (World.exec g) (World.exec g) R (Beside B B O) Eq Eq p p) (h : R w.enter v.enter) :
    (w.block g p).1 = (v.block g p).1 ∧ Abreast B O (w.block g p).2 (v.block g p).2 :=
  ⟨hp.answer_eq h, (hp _ _ h).2.exit⟩

/-- A block whose operations the two stores agree on. -/
theorem agreeing_block (g : Gateway) (hO : Joint O) {p : Prog Ports Err α} (hp : p.Under portView (Agree portView B))
    (h : Abreast B O w v) :
    (w.block g p).1 = (v.block g p).1 ∧ Abreast B O (w.block g p).2 (v.block g p).2 :=
  block_beside (relates_beside g hO hp) h.enter

end Runs

/-! ## What a request can name -/

namespace Request

/-- The trip whose bookings the request asks about. -/
def onTrip (r : Request) : Option String :=
  match r.call with
  | .hold tripId .. => some tripId
  | .sell tripId .. => some tripId
  | .availability tripId _ => some tripId
  | .quote tripId _ _ => some tripId
  | _ => none

/-- A search asks about every trip of a day. -/
def searches (r : Request) : Bool :=
  match r.call with
  | .search .. => true
  | _ => false

/-- The reference it looks a booking up under. -/
def looksUp (r : Request) : Option String :=
  match r.call with
  | .verify reference => some reference
  | _ => r.clientReference

/-- The operations the request can perform, whatever it is answered. -/
def Names (r : Request) : PortOp → Prop
  | .addHold hold => hold.bookingId = r.deps.newId ∧ hold.reference = r.ticketRef ∧ r.onTrip = some hold.tripId
  | .get id => r.subject = some id
  | .setStatus id _ => r.subject = some id
  | .byReference ref => r.looksUp = some ref
  | .activeForSeat t _ => r.onTrip = some t
  | .activeForPassenger t _ => r.onTrip = some t
  | .activeHolds t => r.onTrip = some t ∨ r.searches = true
  | .byStatus t s => r.onTrip = some t ∧ s = .standing
  | .expireDue now => now = r.deps.now
  | _ => True

end Request

section Names

variable {r : Request} {deps : Deps} {t p : String} {leg : Leg} {c : TravelClass}

theorem names_addHold {hold : Hold} (h : r.Names (.addHold hold)) : (Bookings.addHold hold).Under portView r.Names :=
  Prog.under_call h fun _ _ => id

theorem names_setStatus {id : String} {status : BookingStatus} (h : r.subject = some id) :
    (Bookings.setStatus id status).Under portView r.Names := Prog.under_call h fun _ _ he => he

theorem names_byReference {ref : String} (h : r.looksUp = some ref) :
    (Bookings.byReference ref).Under portView r.Names := Prog.under_call h fun _ _ => id

theorem names_activeHolds (h : r.onTrip = some t ∨ r.searches = true) :
    (Bookings.activeHolds t).Under portView r.Names := Prog.under_call h fun _ _ => id

theorem names_getTrip (id : String) : (Trips.get id).Under portView r.Names := Prog.under_call trivial fun _ _ he => he

theorem names_findByDate (date : String) : (Trips.findByDate date).Under portView r.Names :=
  Prog.under_call trivial fun _ _ => id

theorem names_charge (ref : String) (amount : Money) : (charge ref amount).Under portView r.Names :=
  Prog.under_call trivial fun _ _ => id

theorem names_publish (event : AvailabilityEvent) : (publish event).Under portView r.Names :=
  Prog.under_call trivial fun _ _ => id

theorem names_commit : commit.Under portView r.Names := Prog.under_call trivial fun _ _ => id

/-! ### Parts of the use-cases -/

/-- Going on with a trip: it has the id asked for. -/
theorem names_getTrip_bind {α : Type} (id : String) {f : Trip → Prog Ports Err α}
    (h : ∀ trip, trip.tripId = id → (f trip).Under portView r.Names) :
    ((Trips.get id).bind f).Under portView r.Names := Prog.under_call_bind trivial (fun _ _ he => congrArg f he) h

/-- Nothing after a sweep depends on what it retired. -/
theorem names_sweep {α : Type} {q : Prog Ports Err α} (h : q.Under portView r.Names) :
    ((Bookings.expireDue r.deps.now).bind fun _ => q).Under portView r.Names := Prog.under_blind_bind rfl h

theorem names_lookupReplay {ref : Option String} (h : ∀ x, ref = some x → r.looksUp = some x) :
    (lookupReplay ref).Under portView r.Names := by
  cases ref with
  | none => exact Prog.under_ret _
  | some x => exact names_byReference (h x rfl)

theorem names_enforceAntiTout {now : Int} (h : r.onTrip = some t) :
    (enforceAntiTout deps t p now).Under portView r.Names :=
  Prog.Under.bind (Prog.under_call h fun _ _ => id) fun _ => Prog.under_ofExcept _

theorem names_priceLeg {trip : Trip} (h : r.onTrip = some trip.tripId ∨ r.searches = true) :
    (priceLeg deps trip leg c).Under portView r.Names := by
  refine (Prog.under_ofExcept _).bind fun _ => (Prog.under_ofExcept _).bind fun _ => Prog.Under.bind ?_ fun _ =>
    Prog.under_ofExcept _
  unfold occupancyOverLeg
  split
  · exact Prog.under_ret _
  · exact (names_activeHolds h).bind fun _ => Prog.under_ret _

theorem names_getBooking {id : String} (h : r.subject = some id) : (getBooking id).Under portView r.Names := by
  refine Prog.Under.rescue (Prog.under_call h fun _ _ he => he) fun e => ?_
  cases e <;> exact Prog.under_raise _

/-- A cancel reads and rewrites one booking. -/
theorem under_cancelBooking {ok : PortOp → Prop} {id : String} (hget : ok (.get id)) (hset : ∀ s, ok (.setStatus id s))
    (hpublish : ∀ e, ok (.publish e)) (hnotify : ∀ n, ok (.notify n)) (hcommit : ok .commit) :
    (cancelBooking id).Under portView ok := by
  refine Prog.Under.bind (Prog.Under.rescue (Prog.under_call hget fun _ _ he => he) fun e => ?_) fun hold =>
    (Prog.under_ofExcept _).bind fun _ =>
      Prog.Under.bind (Prog.under_call (hset _) fun _ _ he => he) fun cancelled => ?_
  · cases e <;> exact Prog.under_raise _
  · have hrest : ∀ n : Notice, ((notify n.recipient n.event n.detail).bind fun _ => commit.bind fun _ =>
        Prog.ret cancelled).Under portView ok :=
      fun n => Prog.Under.bind (Prog.under_call (hnotify n) fun _ _ he => he) fun _ =>
        Prog.Under.bind (Prog.under_call hcommit fun _ _ he => he) fun _ => Prog.under_ret _
    dsimp only
    split
    · exact Prog.Under.bind (Prog.under_call (hpublish _) fun _ _ he => he) fun _ => hrest ⟨_, _, _⟩
    · exact hrest ⟨_, _, _⟩

theorem names_draftHold {s n : String} {ref : Option String} (h : r.onTrip = some t) :
    (draftHold deps t s leg p n ref).Under portView r.Names := by
  refine names_getTrip_bind t fun trip htrip => (Prog.under_ofExcept _).bind fun _ =>
    (Prog.under_ofExcept _).bind fun seat => (names_enforceAntiTout h).bind fun _ =>
      (names_priceLeg (Or.inl ?_)).bind fun _ => (Prog.under_ofExcept _).bind fun _ => Prog.under_ret _
  rw [h, htrip]

/-! ### Sales, searches and calls -/

theorem names_poolLegs (h : r.onTrip = some t) : ∀ pool, (poolLegs t pool).Under portView r.Names
  | [] => Prog.under_ret _
  | _ :: rest => Prog.Under.bind (Prog.under_call h fun _ _ => id) fun _ => (names_poolLegs h rest).bind fun _ =>
      Prog.under_ret _

theorem names_assignSeat (h : r.onTrip = some t) (pool : List Seat) :
    (assignSeat deps t leg c pool).Under portView r.Names := by
  refine (names_poolLegs h pool).bind fun seatLegs => ?_
  split
  · exact Prog.under_ret _
  · refine Prog.Under.bind ?_ fun _ => (Prog.under_ofExcept _).bind fun _ => Prog.under_ret _
    refine Prog.Under.bind (Prog.under_call ⟨h, rfl⟩ fun _ _ => id) fun _ => (Prog.under_ofExcept _).bind fun _ => ?_
    split
    · exact Prog.under_raise _
    · exact Prog.under_ret _

theorem names_admitSale (h : r.onTrip = some t) : (admitSale deps t leg p c).Under portView r.Names := by
  refine names_getTrip_bind t fun trip htrip => (Prog.under_ofExcept _).bind fun _ =>
    (names_enforceAntiTout h).bind fun _ => ?_
  dsimp only
  split
  · exact Prog.under_raise _
  · refine (names_assignSeat h _).bind fun _ => (names_priceLeg (Or.inl ?_)).bind fun _ => Prog.under_ret _
    rw [h, htrip]

theorem names_classAvailabilities {trip : Trip} {reservable : List Seat} {busy : List String}
    (h : r.searches = true) : ∀ cs, (classAvailabilities deps trip leg reservable busy cs).Under portView r.Names
  | [] => Prog.under_ret _
  | _ :: rest => (names_priceLeg (Or.inr h)).bind fun _ => (names_classAvailabilities h rest).bind fun _ =>
      Prog.under_ret _

theorem names_trainOption {o d : String} (h : r.searches = true) (trip : Trip) :
    (trainOption deps trip o d).Under portView r.Names := by
  unfold trainOption
  split
  · split
    · exact Prog.under_ret _
    · refine (Prog.under_ofExcept _).bind fun leg => ?_
      split
      · exact Prog.under_ret _
      · exact (Prog.under_ofExcept _).bind fun _ => (names_activeHolds (Or.inr h)).bind fun _ =>
          (names_classAvailabilities h _).bind fun _ => (Prog.under_ofExcept _).bind fun _ => Prog.under_ret _
  · exact Prog.under_ret _

theorem names_trainOptions {o d : String} (h : r.searches = true) :
    ∀ trips, (trainOptions deps o d trips).Under portView r.Names
  | [] => Prog.under_ret _
  | trip :: rest => (names_trainOption h trip).bind fun _ => (names_trainOptions h rest).bind fun _ =>
      Prog.under_ret _

theorem yields_newHold {s n : String} {ref : Option String} : (draftHold deps t s leg p n ref).Yields fun hold =>
    hold.bookingId = deps.newId ∧ hold.reference = orFresh ref deps.newReference ∧ hold.tripId = t :=
  (Prog.yields_true _).bind fun _ _ => (Prog.yields_true _).bind fun _ _ => (Prog.yields_true _).bind fun _ _ =>
    (Prog.yields_true _).bind fun _ _ => (Prog.yields_true _).bind fun _ _ =>
      (Prog.yields_true _).bind fun _ _ => ⟨rfl, rfl, rfl⟩

/-- Telling the outside and committing name no booking. -/
theorem names_telling {α : Type} {n : Notice} {x : Except Err α} :
    ((notify n.recipient n.event n.detail).bind fun _ => commit.bind fun _ => Prog.ofExcept x).Under portView
      r.Names :=
  Prog.Under.bind (Prog.under_call trivial fun _ _ => id) fun _ => names_commit.bind fun _ => Prog.under_ofExcept _

theorem names_issueTicket {sold : Hold} {a : Admission} (h : r.Names (.addHold sold)) :
    (issueTicket deps sold a).Under portView r.Names := by
  refine (names_addHold h).bind fun _ => ?_
  dsimp only
  cases a.seat with
  | some seat => exact (names_publish _).bind fun _ => names_telling (n := ⟨_, _, _⟩)
  | none => exact names_telling (n := ⟨_, _, _⟩)

/-- **What a request can name.** -/
theorem names_program (r : Request) : (r.call.program r.deps).Under portView r.Names := by
  obtain ⟨call, deps, g⟩ := r
  cases call with
  | hold t s leg p n ref =>
      refine Prog.Under.bind (names_lookupReplay fun _ h => h) fun found => ?_
      cases found with
      | some existing => exact Prog.under_ret _
      | none =>
          refine names_sweep ((names_draftHold rfl).bind_yields yields_newHold ?_)
          rintro hold ⟨hid, href, htrip⟩
          exact (names_addHold ⟨hid, href, congrArg some htrip.symm⟩).bind fun _ => (names_publish _).bind fun _ =>
            names_telling (n := ⟨_, _, _⟩) (x := .ok hold)
  | confirm id =>
      refine names_sweep (Prog.Under.bind ?_ fun read => ?_)
      · exact (names_getBooking rfl).bind fun _ => (Prog.under_ofExcept _).bind fun _ =>
          (names_getTrip _).bind fun _ => Prog.under_ret _
      · exact (names_charge _ _).bind fun _ => (Prog.under_ofExcept _).bind fun _ => (names_setStatus rfl).bind fun _ =>
          (names_publish _).bind fun _ => names_telling (n := ⟨_, _, _⟩)
  | cancel id => exact under_cancelBooking rfl (fun _ => rfl) (fun _ => trivial) (fun _ => trivial) trivial
  | sell t leg p n c ref =>
      refine Prog.Under.bind (names_lookupReplay fun _ h => h) fun found => ?_
      cases found with
      | some existing => exact (names_getTrip _).bind fun _ => Prog.under_ofExcept _
      | none =>
          exact names_sweep ((names_admitSale rfl).bind fun _ => (names_charge _ _).bind fun _ =>
            (Prog.under_ofExcept _).bind fun _ => names_issueTicket ⟨rfl, rfl, rfl⟩)
  | verify ref =>
      refine names_sweep ((names_byReference rfl).bind fun found => ?_)
      cases found with
      | none => exact Prog.under_raise _
      | some booking =>
          exact (names_getTrip _).bind fun _ => names_commit.bind fun _ => (Prog.under_ofExcept _).bind fun _ =>
            Prog.under_ret _
  | search o d date =>
      exact (Prog.under_ofExcept _).bind fun _ => names_sweep ((names_findByDate _).bind fun _ =>
        (names_trainOptions rfl _).bind fun _ => names_commit.bind fun _ => Prog.under_ret _)
  | availability t leg =>
      exact (names_getTrip _).bind fun _ => (Prog.under_ofExcept _).bind fun _ =>
        names_sweep ((names_activeHolds (Or.inl rfl)).bind fun _ => names_commit.bind fun _ => Prog.under_ret _)
  | quote t leg c =>
      refine names_getTrip_bind t fun trip htrip => (Prog.under_ofExcept _).bind fun _ => names_priceLeg (Or.inl ?_)
      rw [htrip]
      rfl

end Names

end SlrBooking
