import SlrBooking.Runs.FailingCalls

/-!
# `Runs.Effects` — what serving a request does to the store, with everything it checked

`Change` says which bookings can be there after a call. An `Effect` says more: which of the six things the call
did, what it had checked before, which charges were accepted. Invariants about payment, references, clocks and
prices are proved by cases on it.

## Contents
- `setTo`, `put_status`: a status rewritten in place. What the sweep keeps.
- `Booked`: a booking that a hold or a sale puts into the store.
- `Effect` / `serve_effect`.
- `Effect.keeps`, `kept_after`: what nobody cancels stays in the store as it is.
- `Happened`: a call of the run did this. `FreshDraws`: the generated ids and references.
- `Effect.references`, `referenced_after`: a reference names one booking.
-/

namespace SlrBooking

open Theory Rows

/-! ## One booking, another status -/

section Status

variable {holds : List Hold}

theorem retire_reference (now : Int) (h : Hold) : (MemoryRepo.retire now h).reference = h.reference := by
  rcases MemoryRepo.retire_cases now h with he | ⟨-, he⟩ <;> rw [he]

/-- The sweep expires what is overdue and touches no other status. -/
theorem retire_status {now : Int} {h : Hold} {s : BookingStatus} (hs : s ≠ .held) (hs' : s ≠ .expired) :
    (MemoryRepo.retire now h).status = s ↔ h.status = s := by
  rcases MemoryRepo.retire_cases now h with he | ⟨hheld, he⟩
  · rw [he]
  · rw [he, hheld]
    exact iff_of_false (Ne.symm hs') (Ne.symm hs)

theorem retire_expired {now : Int} {h : Hold} (hs : (MemoryRepo.retire now h).status = .expired) :
    h.status = .expired ∨ h.heldUntil ≤ now := by
  unfold MemoryRepo.retire at hs
  by_cases hdue : MemoryRepo.overdue now h = true
  · simp only [MemoryRepo.overdue, Bool.and_eq_true, decide_eq_true_eq] at hdue
    exact Or.inr hdue.2
  · rw [if_neg hdue] at hs
    exact Or.inl hs

/-- Give one booking another status. -/
def setTo (id : String) (s : BookingStatus) (h : Hold) : Hold := if h.bookingId = id then { h with status := s } else h

theorem put_status (hk : Keyed MemoryRepo.idOf holds) {b : Hold} (hb : b ∈ holds) (s : BookingStatus) :
    put MemoryRepo.idOf { b with status := s } holds = holds.map (setTo b.bookingId s) := by
  rw [put_of_mem hk (r := { b with status := s }) hb rfl]
  refine List.map_congr_left fun x hx => ?_
  unfold setTo
  by_cases hid : x.bookingId = b.bookingId
  · rw [if_pos hid, if_pos hid, eq_of_key_eq hk hx hb hid]
  · rw [if_neg hid, if_neg hid]

theorem setTo_cases (id : String) (s : BookingStatus) (h : Hold) :
    (h.bookingId = id ∧ setTo id s h = { h with status := s }) ∨ (h.bookingId ≠ id ∧ setTo id s h = h) := by
  unfold setTo
  by_cases hid : h.bookingId = id
  · exact Or.inl ⟨hid, if_pos hid⟩
  · exact Or.inr ⟨hid, if_neg hid⟩

theorem setTo_restatus (id : String) (s : BookingStatus) (h : Hold) : ∃ s', setTo id s h = { h with status := s' } := by
  rcases setTo_cases id s h with ⟨-, he⟩ | ⟨-, he⟩
  · exact ⟨s, he⟩
  · exact ⟨h.status, he⟩

/-- The booking a charged confirm found is still HELD after the sweep. -/
theorem ConfirmCharged.swept {g : Gateway} {w : World} {now : Int} {id : String} {hold : Hold} {trip : Trip}
    (h : ConfirmCharged g w now id hold trip) : hold ∈ w.swept now := by
  have hlive : MemoryRepo.retire now hold = hold := MemoryRepo.retire_eq fun _ => h.live
  exact mem_swept.mpr ⟨hold, lookup_some_mem h.found, hlive⟩

end Status

/-! ## What a request does -/

/-- The booking a hold or a sale asks the store to insert, and the charges accepted for it. -/
structure Booked (w : World) (r : Request) (b : Hold) (charges : List (String × Money)) : Prop where
  books     : r.books = true
  asked     : r.asksFor = some (b.tripId, b.passengerId)
  unknown   : replayed w.holds r.clientReference = none
  id        : b.bookingId = r.deps.newId
  reference : b.reference = r.ticketRef
  created   : b.createdAt = r.deps.now
  allowed   : antiTout r.deps b.passengerId r.deps.now
      (MemoryRepo.activeForPassenger (w.swept r.deps.now) b.tripId b.passengerId) = .ok ()
  paid      : (charges = [] ∧ b.status = .held) ∨
      (charges = [(b.reference, ⟨b.fareCents⟩)] ∧ (b.status = .confirmed ∨ b.status = .standing))

/-- What a request did to the world. -/
inductive Effect (w : World) (r : Request) (w' : World) : Prop where
  /-- Nothing: a replay, a failure, or a read that found nothing overdue. -/
  | idle (same : World.Same w w') (uncancelled : ∀ id, r.call = .cancel id → w.raises r ≠ none)
  /-- A read retired the overdue holds. -/
  | swept (uncancelled : ∀ id, r.call ≠ .cancel id) (wrote : World.Wrote w w' (w.swept r.deps.now) [])
  | inserted {b : Hold} {charges : List (String × Money)} {holds : List Hold} (booked : Booked w r b charges)
      (added : MemoryRepo.addHold (w.swept r.deps.now) b = .ok holds) (wrote : World.Wrote w w' holds charges)
  /-- A standing ticket was charged for and refused by the store. -/
  | lost {b : Hold} {charges : List (String × Money)} {e : Err} (booked : Booked w r b charges)
      (refused : MemoryRepo.addHold (w.swept r.deps.now) b = .error e) (unnamed : b.seatId = "")
      (wrote : World.Wrote w w' w.holds charges)
  | confirmed {id : String} {hold : Hold} {trip : Trip} (call : r.call = .confirm id)
      (charged : ConfirmCharged r.gateway w r.deps.now id hold trip)
      (wrote : World.Wrote w w' (put MemoryRepo.idOf { hold with status := .confirmed } (w.swept r.deps.now))
        [(hold.reference, ⟨hold.fareCents⟩)])
  | cancelled {id : String} {hold : Hold} (call : r.call = .cancel id)
      (found : lookup MemoryRepo.idOf id w.holds = some hold) (edge : BookingSm.Edge hold.status .cancelled)
      (done : w.raises r = none)
      (wrote : World.Wrote w w' (put MemoryRepo.idOf { hold with status := .cancelled } w.holds) [])

theorem World.raises_of_error {w : World} {r : Request} {e : Err} (h : (w.serve r).1 = .error e) :
    w.raises r = some e := by
  unfold World.raises
  rw [h]

theorem World.raises_of_ok {w : World} {r : Request} {a : r.call.Answer} (h : (w.serve r).1 = .ok a) :
    w.raises r = none := by
  unfold World.raises
  rw [h]

/-- **What a request can do.** -/
theorem serve_effect (w : World) (r : Request) : Effect w r (w.serve r).2 := by
  obtain ⟨call, deps, g⟩ := r
  have hreads : ∀ {α} {p : Prog Ports Err α}, p.Only (ReadsAndSweeps deps.now) → (∀ id, call ≠ .cancel id) →
      Effect w ⟨call, deps, g⟩ (w.block g p).2 := by
    intro α p hp hno
    rcases World.sweep_outcome hp (World.block_pair g p w) with h | h
    · exact .idle h fun id hid => absurd hid (hno id)
    · exact .swept hno h
  have hidle : (∀ id, call ≠ .cancel id) → ∀ {w'}, World.Same w w' → Effect w ⟨call, deps, g⟩ w' :=
    fun hno w' h => .idle h fun id hid => absurd hid (hno id)
  cases call with
  | hold t s leg p n ref =>
      rcases holdSeat_drafted (World.block_pair g (holdSeat deps t s leg p n ref) w) with
        ⟨-, -, -, h⟩ | ⟨-, -, -, h⟩ | ⟨hrep, trip, seat, fare, ttl, hd, ⟨-, -, -, h⟩ | ⟨holds, hadd, -, h⟩⟩
      · exact hidle (fun _ => Call.noConfusion) h
      · exact hidle (fun _ => Call.noConfusion) h
      · exact hidle (fun _ => Call.noConfusion) h
      · have hbooked : Booked w ⟨.hold t s leg p n ref, deps, g⟩ (newHold deps t s leg p n ref seat fare ttl) [] :=
          ⟨rfl, rfl, hrep, rfl, rfl, rfl, hd.allowed, Or.inl ⟨rfl, rfl⟩⟩
        exact .inserted hbooked hadd h
  | confirm id =>
      rcases confirmBooking_outcome (World.block_pair g (confirmBooking deps id) w) with
        ⟨-, -, h⟩ | ⟨hold, trip, hc, -, h⟩
      · exact hidle (fun _ => Call.noConfusion) h
      · exact .confirmed rfl hc h
  | cancel id =>
      rcases cancelBooking_outcome (World.block_pair g (cancelBooking id) w) with
        ⟨⟨e, he⟩, h⟩ | ⟨hold, hfound, hedge, hr, h⟩
      · -- a cancel that fails has not succeeded
        refine .idle h fun id' _ hnone => ?_
        have hraises := World.raises_of_error (r := ⟨.cancel id, deps, g⟩) he
        rw [hnone] at hraises
        cases hraises
      · exact .cancelled rfl hfound hedge (World.raises_of_ok (r := ⟨.cancel id, deps, g⟩) hr) h
  | sell t leg p n c ref =>
      have hpaid : ∀ a : Admission,
          (ticketOf deps t leg p n c ref a).status = .confirmed ∨
          (ticketOf deps t leg p n c ref a).status = .standing := by
        intro a
        cases hseat : a.seat <;> simp [ticketOf, soldTicket, hseat]
      have hbooked : ∀ {a}, replayed w.holds ref = none → SaleCharged deps g w t leg p c ref a →
          Booked w ⟨.sell t leg p n c ref, deps, g⟩ (ticketOf deps t leg p n c ref a)
            [(orFresh ref deps.newReference, a.fare)] :=
        fun hrep hc => ⟨rfl, rfl, hrep, rfl, rfl, rfl, hc.admitted.allowed, Or.inr ⟨rfl, hpaid _⟩⟩
      rcases sellUnreserved_outcome (World.block_pair g (sellUnreserved deps t leg p n c ref) w) with
        ⟨-, h⟩ | ⟨-, -, -, h⟩ | ⟨hrep, a, hc, ⟨e, hadd, -, h⟩ | ⟨holds, hadd, -, h⟩⟩
      · exact hidle (fun _ => Call.noConfusion) h
      · exact hidle (fun _ => Call.noConfusion) h
      · -- paid and not stored: only a ticket without a seat, for the admission has found the seat free
        refine .lost (hbooked hrep hc) hadd ?_ h
        cases hseat : a.seat with
        | none => simp [ticketOf, soldTicket, hseat]
        | some seat =>
            exact absurd hadd (hc.admitted.seated_fits hseat rfl (by simp [ticketOf, soldTicket, hseat]) rfl)
      · exact .inserted (hbooked hrep hc) hadd h
  | verify ref => exact hreads (reads_verifyTicket deps ref) fun _ => Call.noConfusion
  | search o d date => exact hreads (reads_searchTrains deps o d date) fun _ => Call.noConfusion
  | availability t leg => exact hreads (reads_legAvailability deps t leg) fun _ => Call.noConfusion
  | quote t leg c => exact hreads (reads_quoteFare deps t leg c) fun _ => Call.noConfusion

/-- No call touches the trips. -/
theorem trips_after (w : World) (rs : List Request) : (w.after rs).trips = w.trips := by
  have hserve : ∀ (v : World) r, (v.serve r).2.trips = v.trips := by
    intro v r
    cases serve_effect v r with
    | idle same _ => exact same.trips
    | swept _ wrote => exact wrote.trips
    | inserted _ _ wrote => exact wrote.trips
    | lost _ _ _ wrote => exact wrote.trips
    | confirmed _ _ wrote => exact wrote.trips
    | cancelled _ _ _ _ wrote => exact wrote.trips
  induction rs generalizing w with
  | nil => rfl
  | cons r rs ih => exact (ih (w.serve r).2).trans (hserve w r)

theorem getTrip_ok {trips : List Trip} {id : String} {trip : Trip} (h : MemoryRepo.getTrip trips id = .ok trip) :
    lookup Trip.tripId id trips = some trip := by
  unfold MemoryRepo.getTrip at h
  cases hfound : lookup Trip.tripId id trips with
  | none =>
      rw [hfound] at h
      cases h
  | some found =>
      rw [hfound] at h
      rw [Except.ok.inj h]

theorem getTrip_tripId {trips : List Trip} {id : String} {trip : Trip} (h : MemoryRepo.getTrip trips id = .ok trip) :
    trip.tripId = id := lookup_some_key (getTrip_ok h)

/-- A trip the store finds is one of the given trips, with the id asked for. -/
theorem getTrip_start {trips : List Trip} {id : String} {trip : Trip}
    (h : MemoryRepo.getTrip (World.start trips).trips id = .ok trip) : trip ∈ trips ∧ trip.tripId = id := by
  have hmem : trip ∈ overlay Trip.tripId [] trips := lookup_some_mem (getTrip_ok h)
  exact ⟨(mem_overlay_cases hmem).resolve_left List.not_mem_nil, getTrip_tripId h⟩

/-! ## What stays -/

/-- Nothing runs out while the store is swept. -/
theorem swept_eq {w : World} {now : Int} (h : ∀ b ∈ w.holds, b.status = .held → now < b.heldUntil) :
    w.swept now = w.holds := by
  show w.holds.map (MemoryRepo.retire now) = w.holds
  exact (List.map_congr_left fun b hb => MemoryRepo.retire_eq (h b hb)).trans (List.map_id _)

theorem lookup_swept {w : World} {now : Int} {id : String} {b : Hold}
    (hb : lookup MemoryRepo.idOf id w.holds = some b) (hlive : b.status = .held → now < b.heldUntil) :
    lookup MemoryRepo.idOf id (w.swept now) = some b := by
  unfold World.swept
  rw [MemoryRepo.lookup_expireDue, hb, Option.map_some, MemoryRepo.retire_eq hlive]

/-- **A booking that the request does not cancel is left alone**; a held one, while it has time left and the
    request does not confirm it. -/
theorem Effect.keeps {w w' : World} {r : Request} (h : Effect w r w') {b : Hold}
    (hb : lookup MemoryRepo.idOf b.bookingId w.holds = some b)
    (hheld : b.status = .held → r.deps.now < b.heldUntil ∧ r.call ≠ .confirm b.bookingId)
    (hcancel : r.call ≠ .cancel b.bookingId) (hid : r.deps.newId ≠ b.bookingId) :
    lookup MemoryRepo.idOf b.bookingId w'.holds = some b := by
  have hswept := lookup_swept hb fun hs => (hheld hs).1
  cases h with
  | idle same _ => exact same.holds ▸ hb
  | lost _ _ _ wrote => exact wrote.holds ▸ hb
  | swept _ wrote => exact wrote.holds ▸ hswept
  | @inserted c charges holds booked added wrote =>
      rw [wrote.holds, (MemoryRepo.addHold_ok added).1, lookup_put_ne]
      · exact hswept
      · show c.bookingId ≠ b.bookingId
        rw [booked.id]
        exact hid
  | @confirmed id hold trip call charged wrote =>
      rw [wrote.holds, lookup_put_ne]
      · exact hswept
      · intro hsame
        have hfound : hold.bookingId = id := lookup_some_key charged.found
        have hstored := charged.found
        rw [← hfound, show hold.bookingId = b.bookingId from hsame, hb] at hstored
        have hstatus : b.status = .held := Option.some.inj hstored ▸ charged.held
        exact (hheld hstatus).2 (call.trans (congrArg Call.confirm (hfound.symm.trans hsame)))
  | @cancelled id hold call found edge done wrote =>
      rw [wrote.holds, lookup_put_ne]
      · exact hb
      · intro hsame
        have hfound : hold.bookingId = id := lookup_some_key found
        exact hcancel (call.trans (congrArg Call.cancel (hfound.symm.trans hsame)))

/-- The same over a run. -/
theorem kept_after {b : Hold} : ∀ (later : List Request) {w : World},
    lookup MemoryRepo.idOf b.bookingId w.holds = some b →
    (∀ r ∈ later, (b.status = .held → r.deps.now < b.heldUntil ∧ r.call ≠ .confirm b.bookingId) ∧
      r.call ≠ .cancel b.bookingId ∧ r.deps.newId ≠ b.bookingId) →
    lookup MemoryRepo.idOf b.bookingId (w.after later).holds = some b
  | [], w, hb, _ => hb
  | r :: later, w, hb, hquiet => by
      obtain ⟨hheld, hcancel, hid⟩ := hquiet r List.mem_cons_self
      rw [World.after_cons]
      apply kept_after later
      · exact (serve_effect w r).keeps hb hheld hcancel hid
      · exact fun x hx => hquiet x (List.mem_cons_of_mem r hx)

/-! ## Histories -/

/-- A call of a run with one more request is one of the run or the last. -/
theorem snoc_cases {rs before later : List Request} {r x : Request} (h : rs ++ [r] = before ++ x :: later) :
    (∃ later', later = later' ++ [r] ∧ rs = before ++ x :: later') ∨ (rs = before ∧ r = x ∧ later = []) := by
  rcases List.eq_nil_or_concat later with rfl | ⟨later', y, rfl⟩
  · obtain ⟨hrs, hr⟩ := List.append_inj' h rfl
    exact Or.inr ⟨hrs, (List.cons.inj hr).1, rfl⟩
  · have h' : rs ++ [r] = (before ++ x :: later') ++ [y] := by
      rw [h, List.concat_eq_append, List.append_assoc, List.cons_append]
    obtain ⟨hrs, hr⟩ := List.append_inj' h' rfl
    obtain rfl := (List.cons.inj hr).1
    exact Or.inl ⟨later', List.concat_eq_append .., hrs⟩

/-- Some call of the run did `P`, in the world it was served in. -/
def Happened (trips : List Trip) (requests : List Request) (P : World → Request → Prop) : Prop :=
  ∃ before r later, requests = before ++ r :: later ∧ P ((World.start trips).after before) r

theorem happened_nil {trips : List Trip} {P : World → Request → Prop} : ¬ Happened trips [] P := by
  rintro ⟨before, r, later, h, -⟩
  simp at h

theorem happened_snoc {trips : List Trip} {rs : List Request} {r : Request} {P : World → Request → Prop} :
    Happened trips (rs ++ [r]) P ↔ Happened trips rs P ∨ P ((World.start trips).after rs) r := by
  constructor
  · rintro ⟨before, x, later, heq, hp⟩
    rcases snoc_cases heq with ⟨later', -, hrs⟩ | ⟨rfl, rfl, -⟩
    · exact Or.inl ⟨before, x, later', hrs, hp⟩
    · exact Or.inr hp
  · rintro (⟨before, x, later, rfl, hp⟩ | hp)
    · exact ⟨before, x, later ++ [r], by simp, hp⟩
    · exact ⟨rs, r, [], rfl, hp⟩

/-- The generated ids are distinct; a generated reference was neither generated nor chosen by a client before. -/
structure FreshDraws (requests : List Request) : Prop where
  ids        : (requests.map (·.deps.newId)).Nodup
  references : requests.Pairwise fun r r' =>
      r'.deps.newReference ≠ r.deps.newReference ∧ r.clientReference ≠ some r'.deps.newReference

theorem FreshDraws.init {rs : List Request} {r : Request} (h : FreshDraws (rs ++ [r])) : FreshDraws rs := by
  refine ⟨?_, (List.pairwise_append.mp h.references).1⟩
  have hids := h.ids
  rw [List.map_append] at hids
  exact (List.nodup_append.mp hids).1

/-- A request's booking goes under a reference no earlier request's booking could have. -/
theorem FreshDraws.ticketRef_ne {rs : List Request} {r r' : Request} (h : FreshDraws (rs ++ [r])) (hr' : r' ∈ rs)
    (hfresh : r.ticketRef = r.deps.newReference) : r'.ticketRef ≠ r.ticketRef := by
  obtain ⟨hne, hclient⟩ := (List.pairwise_append.mp h.references).2.2 r' hr' r (List.mem_singleton.mpr rfl)
  rw [hfresh]
  intro heq
  unfold Request.ticketRef orFresh at heq
  cases hc : r'.clientReference with
  | none =>
      rw [hc] at heq
      exact hne heq.symm
  | some q =>
      rw [hc] at heq
      dsimp only at heq
      by_cases hq : q = ""
      · rw [if_pos hq] at heq
        exact hne heq.symm
      · rw [if_neg hq] at heq
        rw [heq] at hc
        exact hclient hc

/-! ## References -/

/-- A booking that goes in has a reference no stored booking has. -/
theorem Booked.reference_unknown {w : World} {rs : List Request} {r : Request} {b h : Hold}
    {charges : List (String × Money)} (hb : Booked w r b charges)
    (hdrawn : ∀ h ∈ w.holds, ∃ x ∈ rs, h.reference = x.ticketRef) (hfresh : FreshDraws (rs ++ [r])) (hh : h ∈ w.holds) :
    h.reference ≠ r.ticketRef := by
  intro heq
  obtain ⟨x, hx, href⟩ := hdrawn h hh
  have hunknown := hb.unknown
  cases hc : r.clientReference with
  | none =>
      have hnew : r.ticketRef = r.deps.newReference := by
        rw [Request.ticketRef, hc]
        rfl
      exact hfresh.ticketRef_ne hx hnew (href ▸ heq)
  | some q =>
      by_cases hq : q = ""
      · have hnew : r.ticketRef = r.deps.newReference := by
          rw [Request.ticketRef, hc, orFresh, if_pos hq]
        exact hfresh.ticketRef_ne hx hnew (href ▸ heq)
      · have hchosen : r.ticketRef = q := by
          rw [Request.ticketRef, hc, orFresh, if_neg hq]
        rw [hc] at hunknown
        have hnone : w.holds.find? (fun h => h.reference = q) = none := hunknown
        have hne := List.find?_eq_none.mp hnone h hh
        exact hne (decide_eq_true (heq.trans hchosen))

/-- The references a request leaves: those it found, and its own when it booked. -/
theorem Effect.references {w w' : World} {r : Request} (h : Effect w r w') (hk : Keyed MemoryRepo.idOf w.holds)
    (hid : ∀ x ∈ w.holds, x.bookingId ≠ r.deps.newId) :
    w'.holds.map (·.reference) = w.holds.map (·.reference) ∨
      (∃ b charges, Booked w r b charges) ∧
        w'.holds.map (·.reference) = w.holds.map (·.reference) ++ [r.ticketRef] := by
  have hswept : (w.swept r.deps.now).map (·.reference) = w.holds.map (·.reference) := by
    simp only [World.swept, MemoryRepo.expireDue, List.map_map]
    exact List.map_congr_left fun x _ => retire_reference r.deps.now x
  have hput : ∀ {base : List Hold} {b : Hold} {s : BookingStatus}, Keyed MemoryRepo.idOf base → b ∈ base →
      (put MemoryRepo.idOf { b with status := s } base).map (·.reference) = base.map (·.reference) := by
    intro base b s hkb hb
    rw [put_status hkb hb, List.map_map]
    apply List.map_congr_left
    intro x _
    obtain ⟨s', hs'⟩ := setTo_restatus b.bookingId s x
    simp [hs']
  cases h with
  | idle same _ => exact Or.inl (by rw [same.holds])
  | lost _ _ _ wrote => exact Or.inl (by rw [wrote.holds])
  | swept _ wrote => exact Or.inl (by rw [wrote.holds, hswept])
  | @inserted b charges holds booked added wrote =>
      refine Or.inr ⟨⟨b, charges, booked⟩, ?_⟩
      have hnew : MemoryRepo.idOf b ∉ (w.swept r.deps.now).map MemoryRepo.idOf := by
        intro hin
        obtain ⟨x, hx, hxid⟩ := List.mem_map.mp hin
        obtain ⟨x₀, hx₀, rfl⟩ := mem_swept.mp hx
        exact hid x₀ hx₀ ((MemoryRepo.retire_bookingId r.deps.now x₀).symm.trans (hxid.trans booked.id))
      rw [wrote.holds, (MemoryRepo.addHold_ok added).1, put_of_fresh hnew, List.map_append, hswept, List.map_singleton,
        booked.reference]
  | @confirmed id hold trip call charged wrote =>
      have hkept : Keyed MemoryRepo.idOf (w.swept r.deps.now) := MemoryRepo.expireDue_keyed hk _
      exact Or.inl (by rw [wrote.holds, hput hkept charged.swept, hswept])
  | @cancelled id hold call found edge done wrote =>
      exact Or.inl (by rw [wrote.holds, hput hk (lookup_some_mem found)])

/-- Every stored reference was drawn or chosen for one request, and names one booking. -/
structure Referenced (requests : List Request) (holds : List Hold) : Prop where
  keyed : Keyed Hold.reference holds
  drawn : ∀ h ∈ holds, ∃ r ∈ requests, h.reference = r.ticketRef

/-- **References over a run.** -/
theorem referenced_after {trips : List Trip} {requests : List Request} (hfresh : FreshDraws requests) :
    Referenced requests ((World.start trips).after requests).holds := by
  induction requests using List.reverseRecOn with
  | nil => exact ⟨keyed_nil, fun h hh => absurd hh (by simp [World.after, World.start, World.holds, MemoryUow.make])⟩
  | append_singleton rs r ih =>
      have hold := ih hfresh.init
      have hrun := run_safe trips rs hfresh.init.ids
      rw [World.after_snoc]
      generalize (World.start trips).after rs = w at hold hrun ⊢
      have hid : ∀ x ∈ w.holds, x.bookingId ≠ r.deps.newId := by
        intro x hx heq
        have hids := hfresh.ids
        rw [List.map_append] at hids
        exact (List.nodup_append.mp hids).2.2 _ (hrun.ids x hx) r.deps.newId (by simp) heq
      rcases (serve_effect w r).references hrun.safe.keyed hid with hsame | ⟨⟨b, charges, booked⟩, hmore⟩
      · refine ⟨by unfold Keyed; rw [hsame]; exact hold.keyed, fun h hh => ?_⟩
        have hmem : h.reference ∈ w.holds.map (·.reference) := hsame ▸ List.mem_map_of_mem hh
        obtain ⟨x, hx, hxh⟩ := List.mem_map.mp hmem
        obtain ⟨q, hq, hqx⟩ := hold.drawn x hx
        exact ⟨q, List.mem_append_left _ hq, hxh.symm.trans hqx⟩
      · constructor
        · unfold Keyed
          rw [hmore, List.nodup_append]
          refine ⟨hold.keyed, List.nodup_singleton _, ?_⟩
          rintro a ha _ hb rfl
          obtain ⟨x, hx, hxr⟩ := List.mem_map.mp ha
          exact booked.reference_unknown hold.drawn hfresh hx (hxr.trans (List.mem_singleton.mp hb))
        · intro h hh
          have hmem : h.reference ∈ w.holds.map (·.reference) ++ [r.ticketRef] := hmore ▸ List.mem_map_of_mem hh
          rcases List.mem_append.mp hmem with hin | hin
          · obtain ⟨x, hx, hxh⟩ := List.mem_map.mp hin
            obtain ⟨q, hq, hqx⟩ := hold.drawn x hx
            exact ⟨q, List.mem_append_left _ hq, hxh.symm.trans hqx⟩
          · exact ⟨r, by simp, List.mem_singleton.mp hin⟩

end SlrBooking
