import SlrBooking.Runs.Effects

/-!
# `Runs.Verdicts` — the gate's verdict against the run's history

`verify_ticket` reads a status that other calls wrote, some of them late: an overdue hold is retired by whichever
call sweeps next, or cancelled before any does. `Told` ties every stored status to what the run did.

## Contents
- `CancelSucceeded`, `EverCommitted`, `Tells`: the history the verdict stands for.
- `Told`: the invariant; one lemma for each thing an `Effect` does.
- `verdict_tells_history`, for trips whose seats have names; `verdict_of_lost_charge`, where one has none.
-/

namespace SlrBooking

open Theory Rows

/-! ## What has happened to a booking -/

/-- A cancel of this booking went through. -/
def CancelSucceeded (bookingId : String) (w : World) (r : Request) : Prop :=
  r.call = .cancel bookingId ∧ w.raises r = none

/-- A charge for this reference was accepted. -/
def World.Paid (w : World) (reference : String) : Prop := ∃ amount, (reference, amount) ∈ w.accepted

/-- At some point of the run the store held a booking of that reference. Bookings are never deleted, so it still does.
    -/
def EverCommitted (trips : List Trip) (requests : List Request) (reference : String) : Prop :=
  ∃ before later, requests = before ++ later ∧ ∃ h ∈ ((World.start trips).after before).holds, h.reference = reference

/-- The verdict that the history of a booking calls for: a cancel outweighs a payment, a payment outweighs the clock,
    and an unpaid hold is EXPIRED once its time is over. -/
structure Tells (wasCancelled wasPaid : Prop) (heldUntil now : Int) (v : Verdict) : Prop where
  cancelled : v = .cancelled ↔ wasCancelled
  valid     : ¬ wasCancelled → (v = .valid ↔ wasPaid)
  unpaid    : ¬ wasCancelled → ¬ wasPaid → (v = .unpaid ↔ now < heldUntil)
  expired   : ¬ wasCancelled → ¬ wasPaid → (v = .expired ↔ heldUntil ≤ now)

/-- What the gate says after the run, at the time of `deps`: a reference that was ever booked gets the verdict its
    history calls for, any other raises `BookingNotFound`. -/
def VerdictTellsHistory (trips : List Trip) (requests : List Request) (deps : Deps) (g : Gateway)
    (reference : String) : Prop :=
  let w := (World.start trips).after requests
  let answer := (w.serve ⟨.verify reference, deps, g⟩).1
  (∀ v, answer = .ok v → ∃ b ∈ w.holds, b.reference = reference ∧ b.bookingId = v.receipt.bookingId ∧
    Tells (Happened trips requests (CancelSucceeded b.bookingId)) (w.Paid reference) b.heldUntil deps.now v.verdict) ∧
  (answer = .error (.domain .bookingNotFound reference) ↔ ¬ EverCommitted trips requests reference)

/-- Every seat has a name; the empty text stands for no seat. -/
def SeatsNamed (trips : List Trip) : Prop := ∀ trip ∈ trips, ∀ seat ∈ trip.seats, seat.seatId ≠ ""

/-! ## What the statuses tell -/

/-- **The invariant of a run**: every stored status is what the run so far makes it, the paid references are those of
    bookings that are paid for, and CANCELLED are those whose cancel went through. -/
structure Told (trips : List Trip) (requests : List Request) (holds : List Hold) (accepted : List (String × Money)) :
    Prop where
  ids        : Keyed MemoryRepo.idOf holds
  references : Keyed Hold.reference holds
  drawn      : ∀ h ∈ holds, ∃ r ∈ requests, h.reference = r.ticketRef
  paid       : ∀ reference amount, (reference, amount) ∈ accepted →
      ∃ h ∈ holds, h.reference = reference ∧ h.status ≠ .held ∧ h.status ≠ .expired
  charged    : ∀ h ∈ holds, h.status = .confirmed ∨ h.status = .standing → ∃ amount, (h.reference, amount) ∈ accepted
  cancelled  : ∀ h ∈ holds, h.status = .cancelled ↔ Happened trips requests (CancelSucceeded h.bookingId)
  known      : ∀ id, Happened trips requests (CancelSucceeded id) → id ∈ holds.map (·.bookingId)
  expired    : ∀ h ∈ holds, h.status = .expired → ∃ r ∈ requests, h.heldUntil ≤ r.deps.now

theorem told_start (trips : List Trip) : Told trips [] [] [] where
  ids := keyed_nil
  references := keyed_nil
  drawn := by simp
  paid := by simp
  charged := by simp
  cancelled := by simp
  known := fun id h => absurd h happened_nil
  expired := by simp

section Steps

variable {trips : List Trip} {rs : List Request} {r : Request} {holds : List Hold} {accepted : List (String × Money)}

/-- A request that cancels nothing, before what it does. -/
theorem Told.served (h : Told trips rs holds accepted)
    (hno : ∀ id, ¬ CancelSucceeded id ((World.start trips).after rs) r) : Told trips (rs ++ [r]) holds accepted where
  ids := h.ids
  references := h.references
  drawn b hb := by
    obtain ⟨x, hx, href⟩ := h.drawn b hb
    exact ⟨x, List.mem_append_left _ hx, href⟩
  paid := h.paid
  charged := h.charged
  cancelled b hb := by
    rw [h.cancelled b hb, happened_snoc]
    exact ⟨Or.inl, fun hor => hor.resolve_right (hno _)⟩
  known id hid := h.known id ((happened_snoc.mp hid).resolve_right (hno id))
  expired b hb hs := by
    obtain ⟨x, hx, hdue⟩ := h.expired b hb hs
    exact ⟨x, List.mem_append_left _ hx, hdue⟩

/-- Only statuses change, and each as the run allows. -/
theorem Told.restatus {rs' : List Request} {more : List (String × Money)} (h : Told trips rs holds accepted)
    {f : Hold → Hold} (hf : ∀ b, ∃ s, f b = { b with status := s }) (hsub : ∀ r ∈ rs, r ∈ rs')
    (hpaid : ∀ b ∈ holds, b.status ≠ .held → b.status ≠ .expired → (f b).status ≠ .held ∧ (f b).status ≠ .expired)
    (hmore : ∀ reference amount, (reference, amount) ∈ more →
      ∃ b ∈ holds, b.reference = reference ∧ (f b).status ≠ .held ∧ (f b).status ≠ .expired)
    (hcharged : ∀ b ∈ holds, (f b).status = .confirmed ∨ (f b).status = .standing →
      (b.status = .confirmed ∨ b.status = .standing) ∨ ∃ amount, (b.reference, amount) ∈ more)
    (hcancelled : ∀ b ∈ holds, (f b).status = .cancelled ↔ Happened trips rs' (CancelSucceeded b.bookingId))
    (hknown : ∀ id, Happened trips rs' (CancelSucceeded id) → id ∈ holds.map (·.bookingId))
    (hexpired : ∀ b ∈ holds, (f b).status = .expired → b.status = .expired ∨ ∃ r ∈ rs', b.heldUntil ≤ r.deps.now) :
    Told trips rs' (holds.map f) (accepted ++ more) := by
  -- what a change of status leaves alone
  have hid : ∀ b, (f b).bookingId = b.bookingId := fun b => by obtain ⟨s, hs⟩ := hf b; rw [hs]
  have href : ∀ b, (f b).reference = b.reference := fun b => by obtain ⟨s, hs⟩ := hf b; rw [hs]
  have huntil : ∀ b, (f b).heldUntil = b.heldUntil := fun b => by obtain ⟨s, hs⟩ := hf b; rw [hs]
  have hids : (holds.map f).map (·.bookingId) = holds.map (·.bookingId) := by
    rw [List.map_map]
    exact List.map_congr_left fun b _ => hid b
  have hrefs : (holds.map f).map Hold.reference = holds.map Hold.reference := by
    rw [List.map_map]
    exact List.map_congr_left fun b _ => href b
  refine ⟨?_, ?_, ?_, ?_, ?_, ?_, ?_, ?_⟩
  · show ((holds.map f).map (·.bookingId)).Nodup
    rw [hids]
    exact h.ids
  · show ((holds.map f).map Hold.reference).Nodup
    rw [hrefs]
    exact h.references
  · intro x hx
    obtain ⟨b, hb, rfl⟩ := List.mem_map.mp hx
    obtain ⟨r', hr', hdrawn⟩ := h.drawn b hb
    exact ⟨r', hsub r' hr', (href b).trans hdrawn⟩
  · intro reference amount hmem
    rcases List.mem_append.mp hmem with hmem | hmem
    · obtain ⟨b, hb, hbref, hheld, hexp⟩ := h.paid reference amount hmem
      exact ⟨f b, List.mem_map_of_mem hb, (href b).trans hbref, hpaid b hb hheld hexp⟩
    · obtain ⟨b, hb, hbref, hstatus⟩ := hmore reference amount hmem
      exact ⟨f b, List.mem_map_of_mem hb, (href b).trans hbref, hstatus⟩
  · intro x hx hs
    obtain ⟨b, hb, rfl⟩ := List.mem_map.mp hx
    rw [href]
    rcases hcharged b hb hs with hs | ⟨amount, hm⟩
    · obtain ⟨amount, hm⟩ := h.charged b hb hs
      exact ⟨amount, List.mem_append_left _ hm⟩
    · exact ⟨amount, List.mem_append_right _ hm⟩
  · intro x hx
    obtain ⟨b, hb, rfl⟩ := List.mem_map.mp hx
    rw [hid]
    exact hcancelled b hb
  · intro id hc
    rw [hids]
    exact hknown id hc
  · intro x hx hs
    obtain ⟨b, hb, rfl⟩ := List.mem_map.mp hx
    rw [huntil]
    rcases hexpired b hb hs with hs | hdue
    · obtain ⟨r', hr', hdue⟩ := h.expired b hb hs
      exact ⟨r', hsub r' hr', hdue⟩
    · exact hdue

/-- The sweep of a request of the run. -/
theorem Told.sweep (h : Told trips rs holds accepted) (hr : r ∈ rs) :
    Told trips rs (MemoryRepo.expireDue holds r.deps.now).2 accepted := by
  rw [← List.append_nil accepted]
  refine h.restatus (f := MemoryRepo.retire r.deps.now) ?_ (fun _ hx => hx) ?_ (by simp) ?_ ?_ h.known ?_
  · intro b
    rcases MemoryRepo.retire_cases r.deps.now b with he | ⟨-, he⟩
    · exact ⟨b.status, he⟩
    · exact ⟨_, he⟩
  · intro b _ hheld hexp
    rw [MemoryRepo.retire_eq fun hs => absurd hs hheld]
    exact ⟨hheld, hexp⟩
  · intro b _ hs
    rw [retire_status (by simp) (by simp), retire_status (by simp) (by simp)] at hs
    exact Or.inl hs
  · intro b hb
    rw [retire_status (by simp) (by simp)]
    exact h.cancelled b hb
  · intro b _ hs
    exact (retire_expired hs).imp_right fun hdue => ⟨r, hr, hdue⟩

/-! ### Each commit

A new booking tells what was paid for it; a confirm and a cancel tell what became of one that was there. -/

/-- The booking of a request of the run goes in, with its charge if it is paid. -/
theorem Told.insert (h : Told trips rs holds accepted) (hr : r ∈ rs) {b : Hold} {charges : List (String × Money)}
    (href : b.reference = r.ticketRef) (hid : b.bookingId ∉ holds.map (·.bookingId))
    (hnew : b.reference ∉ holds.map (·.reference))
    (hpaid : (charges = [] ∧ b.status = .held) ∨
      (charges = [(b.reference, ⟨b.fareCents⟩)] ∧ (b.status = .confirmed ∨ b.status = .standing))) :
    Told trips rs (put MemoryRepo.idOf b holds) (accepted ++ charges) := by
  rw [put_of_fresh hid]
  have hcases : ∀ {x}, x ∈ holds ++ [b] → x ∈ holds ∨ x = b := by
    intro x hx
    exact (List.mem_append.mp hx).imp_right List.mem_singleton.mp
  have hlive : b.status ≠ .cancelled ∧ b.status ≠ .expired := by
    rcases hpaid with ⟨-, hs⟩ | ⟨-, hs | hs⟩ <;> rw [hs] <;> simp
  constructor
  · have hids := put_keyed h.ids b
    rwa [put_of_fresh hid] at hids
  · unfold Keyed
    rw [List.map_append, List.nodup_append]
    refine ⟨h.references, by simp, fun x hx y hy hxy => ?_⟩
    rw [List.map_singleton, List.mem_singleton] at hy
    exact hnew (hy ▸ hxy ▸ hx)
  · intro x hx
    rcases hcases hx with hx | rfl
    · exact h.drawn x hx
    · exact ⟨r, hr, href⟩
  · intro reference amount hmem
    rcases List.mem_append.mp hmem with hmem | hmem
    · obtain ⟨x, hx, hp⟩ := h.paid reference amount hmem
      exact ⟨x, List.mem_append_left _ hx, hp⟩
    · refine ⟨b, List.mem_append_right _ (List.mem_singleton.mpr rfl), ?_, ?_, hlive.2⟩
      · rcases hpaid with ⟨rfl, -⟩ | ⟨rfl, -⟩
        · cases hmem
        · exact (Prod.mk.inj (List.mem_singleton.mp hmem)).1.symm
      · rcases hpaid with ⟨rfl, -⟩ | ⟨-, hs | hs⟩
        · cases hmem
        · rw [hs]; simp
        · rw [hs]; simp
  · intro x hx hs
    rcases hcases hx with hx | rfl
    · obtain ⟨m, hm⟩ := h.charged x hx hs
      exact ⟨m, List.mem_append_left _ hm⟩
    · -- the new booking is unpaid and HELD, or comes with its charge
      rcases hpaid with ⟨-, hheld⟩ | ⟨rfl, -⟩
      · rw [hheld] at hs
        simp at hs
      · exact ⟨_, List.mem_append_right _ (List.mem_singleton.mpr rfl)⟩
  · intro x hx
    rcases hcases hx with hx | rfl
    · exact h.cancelled x hx
    · exact iff_of_false hlive.1 fun hc => hid (h.known _ hc)
  · intro id hc
    rw [List.map_append]
    exact List.mem_append_left _ (h.known id hc)
  · intro x hx hs
    rcases hcases hx with hx | rfl
    · exact h.expired x hx hs
    · exact absurd hs hlive.2

/-- A held booking is charged for and confirmed. -/
theorem Told.confirm (h : Told trips rs holds accepted) {b : Hold} (hb : b ∈ holds) (hheld : b.status = .held)
    (amount : Money) : Told trips rs (put MemoryRepo.idOf { b with status := .confirmed } holds)
      (accepted ++ [(b.reference, amount)]) := by
  rw [put_status h.ids hb]
  have hself : ∀ {x}, x ∈ holds → x.bookingId = b.bookingId → x = b := fun hx hid => eq_of_key_eq h.ids hx hb hid
  refine h.restatus (setTo_restatus _ _) (fun _ hx => hx) ?_ ?_ ?_ ?_ h.known ?_
  · intro x _ hne hne'
    rcases setTo_cases b.bookingId .confirmed x with ⟨-, he⟩ | ⟨-, he⟩ <;> rw [he]
    · simp
    · exact ⟨hne, hne'⟩
  · intro reference m hm
    obtain ⟨rfl, -⟩ := Prod.mk.inj (List.mem_singleton.mp hm)
    refine ⟨b, hb, rfl, ?_⟩
    rw [setTo, if_pos rfl]
    simp
  · intro x hx hs
    rcases setTo_cases b.bookingId .confirmed x with ⟨hid, -⟩ | ⟨-, he⟩
    · rw [hself hx hid]
      exact Or.inr ⟨amount, List.mem_singleton.mpr rfl⟩
    · rw [he] at hs
      exact Or.inl hs
  · intro x hx
    rw [← h.cancelled x hx]
    rcases setTo_cases b.bookingId .confirmed x with ⟨hid, he⟩ | ⟨-, he⟩ <;> rw [he]
    rw [hself hx hid, hheld]
    simp
  · intro x hx hs
    rcases setTo_cases b.bookingId .confirmed x with ⟨-, he⟩ | ⟨-, he⟩ <;> rw [he] at hs
    · cases hs
    · exact Or.inl hs

/-- A booking is cancelled by the request just served. -/
theorem Told.cancel (h : Told trips rs holds accepted) {b : Hold} (hb : b ∈ holds)
    (hcall : r.call = .cancel b.bookingId) (hdone : ((World.start trips).after rs).raises r = none) :
    Told trips (rs ++ [r]) (put MemoryRepo.idOf { b with status := .cancelled } holds) accepted := by
  rw [put_status h.ids hb, ← List.append_nil accepted]
  have hnow : ∀ id, Happened trips (rs ++ [r]) (CancelSucceeded id) ↔
      Happened trips rs (CancelSucceeded id) ∨ id = b.bookingId := by
    intro id
    rw [happened_snoc]
    refine or_congr_right ⟨fun hc => ?_, fun hid => ⟨hid ▸ hcall, hdone⟩⟩
    exact (Call.cancel.inj (hcall.symm.trans hc.1)).symm
  refine h.restatus (setTo_restatus _ _) (fun _ hx => List.mem_append_left _ hx) ?_ (by simp) ?_ ?_ ?_ ?_
  · intro x _ hne hne'
    rcases setTo_cases b.bookingId .cancelled x with ⟨-, he⟩ | ⟨-, he⟩ <;> rw [he]
    · simp
    · exact ⟨hne, hne'⟩
  · intro x _ hs
    rcases setTo_cases b.bookingId .cancelled x with ⟨-, he⟩ | ⟨-, he⟩ <;> rw [he] at hs
    · simp at hs
    · exact Or.inl hs
  · intro x hx
    rw [hnow, ← h.cancelled x hx]
    rcases setTo_cases b.bookingId .cancelled x with ⟨hid, he⟩ | ⟨hid, he⟩ <;> rw [he]
    · simp [hid]
    · simp [hid]
  · intro id hc
    rcases (hnow id).mp hc with hc | rfl
    · exact h.known id hc
    · exact List.mem_map_of_mem hb
  · intro x _ hs
    rcases setTo_cases b.bookingId .cancelled x with ⟨-, he⟩ | ⟨-, he⟩ <;> rw [he] at hs
    · cases hs
    · exact Or.inl hs

end Steps

/-! ## Whole runs -/

/-- With named seats, a standing ticket meets no active booking: an accepted charge is never lost. -/
theorem standing_fits {trips : List Trip} {rs : List Request} (hseats : SeatsNamed trips)
    (hids : (rs.map (·.deps.newId)).Nodup) (now : Int) {b : Hold} (hb : b.seatId = "") {e : Err} :
    MemoryRepo.addHold (((World.start trips).after rs).swept now) b ≠ .error e := by
  intro herr
  obtain ⟨existing, hmem, -, -⟩ := MemoryRepo.addHold_error herr
  obtain ⟨hstored, -, hseat, hactive⟩ := MemoryRepo.mem_activeForSeat.mp hmem
  have hrun := run_safe trips rs hids
  obtain ⟨stored, hold, rfl⟩ := mem_swept.mp hstored
  have hm := moved_retire now stored
  obtain ⟨trip, seat, htrip, hmemseat, hid, -⟩ := hrun.seated stored hold (hm.active hactive)
  rw [trips_after] at htrip
  exact hseats trip (getTrip_start htrip).1 seat hmemseat (by rw [hid, ← hm.place.2.1, hseat, hb])

/-- **Step lemma.** Serving a request keeps every status told. -/
theorem told_step {trips : List Trip} {rs : List Request} {r : Request} (hseats : SeatsNamed trips)
    (hfresh : FreshDraws (rs ++ [r]))
    (h : Told trips rs ((World.start trips).after rs).holds ((World.start trips).after rs).accepted) :
    Told trips (rs ++ [r]) ((World.start trips).after (rs ++ [r])).holds
      ((World.start trips).after (rs ++ [r])).accepted := by
  rw [World.after_snoc]
  have hids := (run_safe trips rs hfresh.init.ids).ids
  have hmem : r ∈ rs ++ [r] := List.mem_append_right _ (List.mem_singleton.mpr rfl)
  have hsame := serve_effect ((World.start trips).after rs) r
  cases hsame with
  | idle same uncancelled =>
      rw [same.holds, same.accepted]
      exact h.served fun id hc => uncancelled id hc.1 hc.2
  | swept uncancelled wrote =>
      rw [wrote.holds, wrote.accepted, List.append_nil]
      exact (h.served fun id hc => uncancelled id hc.1).sweep hmem
  | @inserted b charges holds booked added wrote =>
      have hkept : Told trips (rs ++ [r]) (((World.start trips).after rs).swept r.deps.now) _ :=
        (h.served fun id hc => by
          have hbooks := booked.books
          rw [Request.books, hc.1] at hbooks
          cases hbooks).sweep hmem
      rw [wrote.holds, wrote.accepted, (MemoryRepo.addHold_ok added).1]
      -- neither its id nor its reference has been drawn before
      refine hkept.insert hmem booked.reference ?_ ?_ booked.paid
      · intro hin
        obtain ⟨x, hx, hxid⟩ := List.mem_map.mp hin
        obtain ⟨x₀, hx₀, rfl⟩ := mem_swept.mp hx
        have hfreshid := hfresh.ids
        rw [List.map_append] at hfreshid
        refine (List.nodup_append.mp hfreshid).2.2 _ (hids x₀ hx₀) r.deps.newId (by simp) ?_
        rw [← MemoryRepo.retire_bookingId r.deps.now x₀, hxid, booked.id]
      · intro hin
        obtain ⟨x, hx, hxref⟩ := List.mem_map.mp hin
        obtain ⟨x₀, hx₀, rfl⟩ := mem_swept.mp hx
        rw [retire_reference, booked.reference] at hxref
        exact booked.reference_unknown h.drawn hfresh hx₀ hxref
  | @lost b charges e booked refused unnamed wrote =>
      exact absurd refused (standing_fits hseats hfresh.init.ids r.deps.now unnamed)
  | @confirmed id hold trip call charged wrote =>
      have hkept : Told trips (rs ++ [r]) (((World.start trips).after rs).swept r.deps.now) _ :=
        (h.served fun id hc => Call.noConfusion (call.symm.trans hc.1)).sweep hmem
      rw [wrote.holds, wrote.accepted]
      exact hkept.confirm charged.swept charged.held _
  | @cancelled id hold call found edge done wrote =>
      rw [wrote.holds, wrote.accepted, List.append_nil]
      have hid : hold.bookingId = id := lookup_some_key found
      exact h.cancel (lookup_some_mem found) (hid ▸ call) done

/-- Every status is told along every run. -/
theorem told_after {trips : List Trip} {requests : List Request} (hseats : SeatsNamed trips)
    (hfresh : FreshDraws requests) :
    Told trips requests ((World.start trips).after requests).holds ((World.start trips).after requests).accepted := by
  induction requests using List.reverseRecOn with
  | nil => exact told_start trips
  | append_singleton rs r ih => exact told_step hseats hfresh (ih hfresh.init)

/-- A stored booking stays in the store under its reference. -/
theorem references_kept {trips : List Trip} {before later : List Request} (hfresh : FreshDraws (before ++ later))
    {h : Hold} (hh : h ∈ ((World.start trips).after before).holds) :
    ∃ h' ∈ ((World.start trips).after (before ++ later)).holds, h'.reference = h.reference := by
  induction later using List.reverseRecOn with
  | nil =>
      rw [List.append_nil]
      exact ⟨h, hh, rfl⟩
  | append_singleton rs r ih =>
      rw [← List.append_assoc] at hfresh ⊢
      obtain ⟨x, hx, href⟩ := ih hfresh.init
      have hrun := run_safe trips _ hfresh.init.ids
      rw [World.after_snoc]
      generalize (World.start trips).after (before ++ rs) = w at hx hrun ⊢
      have hswept : MemoryRepo.retire r.deps.now x ∈ w.swept r.deps.now := mem_swept.mpr ⟨x, hx, rfl⟩
      have hxref : (MemoryRepo.retire r.deps.now x).reference = h.reference := (retire_reference _ x).trans href
      have hput : ∀ {base : List Hold} {b y : Hold} {s : BookingStatus}, Keyed MemoryRepo.idOf base → b ∈ base →
          y ∈ base → ∃ h' ∈ put MemoryRepo.idOf { b with status := s } base, h'.reference = y.reference := by
        intro base b y s hk hb hy
        rw [put_status hk hb]
        obtain ⟨s', hs'⟩ := setTo_restatus b.bookingId s y
        exact ⟨_, List.mem_map_of_mem hy, by rw [hs']⟩
      cases serve_effect w r with
      | idle same _ => exact ⟨x, same.holds ▸ hx, href⟩
      | swept _ wrote => exact ⟨_, wrote.holds ▸ hswept, hxref⟩
      | @inserted b charges holds booked added wrote =>
          rw [wrote.holds, (MemoryRepo.addHold_ok added).1]
          refine ⟨_, (mem_put (MemoryRepo.expireDue_keyed hrun.safe.keyed _)).mpr (Or.inr ⟨hswept, ?_⟩), hxref⟩
          intro hid
          have hxid : x.bookingId = r.deps.newId := (MemoryRepo.retire_bookingId _ x).symm.trans (hid.trans booked.id)
          have hids := hfresh.ids
          rw [List.map_append] at hids
          exact (List.nodup_append.mp hids).2.2 _ (hrun.ids x hx) r.deps.newId (by simp) hxid
      | lost _ _ _ wrote => exact ⟨x, wrote.holds ▸ hx, href⟩
      | @confirmed id hold trip call charged wrote =>
          rw [wrote.holds]
          obtain ⟨h', hh', href'⟩ := hput (MemoryRepo.expireDue_keyed hrun.safe.keyed _) charged.swept hswept
          exact ⟨h', hh', href'.trans hxref⟩
      | @cancelled id hold call found edge done wrote =>
          rw [wrote.holds]
          obtain ⟨h', hh', href'⟩ := hput hrun.safe.keyed (lookup_some_mem found) hx
          exact ⟨h', hh', href'.trans href⟩

/-! ## The gate -/

/-- What a verification answers: the booking of that reference after the sweep, or none. -/
theorem serve_verify (w : World) (deps : Deps) (g : Gateway) (reference : String) :
    (MemoryRepo.byReference (w.swept deps.now) reference = none ∧
      (w.serve ⟨.verify reference, deps, g⟩).1 = .error (.domain .bookingNotFound reference)) ∨
    ∃ b, MemoryRepo.byReference (w.swept deps.now) reference = some b ∧
      (w.serve ⟨.verify reference, deps, g⟩).1 = (do
        let trip ← MemoryRepo.getTrip w.trips b.tripId
        let receipt ← receiptFor b trip deps.now
        return ⟨verdictOf b.status, receipt⟩) := by
  have hanswer : (w.serve ⟨.verify reference, deps, g⟩).1 =
      ((verifyTicket deps reference).run (World.exec g) w.enter).1 := rfl
  rw [hanswer]
  simp only [verifyTicket, Prog.bind_eq, Prog.run_bind, run_sweep, run_byReference, World.holds_opened]
  cases hfound : MemoryRepo.byReference (w.swept deps.now) reference with
  | none => exact Or.inl ⟨rfl, rfl⟩
  | some b =>
      refine Or.inr ⟨b, rfl, ?_⟩
      simp only [Prog.run_bind, run_getTrip, World.trips_opened]
      cases MemoryRepo.getTrip w.trips b.tripId with
      | error e => rfl
      | ok trip =>
          simp only [run_commit, Prog.run_ofExcept]
          show _ = receiptFor b trip deps.now >>= fun receipt => pure (Verification.mk (verdictOf b.status) receipt)
          cases receiptFor b trip deps.now with
          | error e => rfl
          | ok receipt => rfl

/-- A printed receipt names its booking. -/
theorem receiptFor_bookingId {hold : Hold} {trip : Trip} {issuedAt : Int} {receipt : Receipt}
    (h : receiptFor hold trip issuedAt = .ok receipt) : receipt.bookingId = hold.bookingId := by
  unfold receiptFor buildReceipt at h
  obtain ⟨times, -, h⟩ := bind_ok h
  obtain ⟨origin, -, h⟩ := bind_ok h
  obtain ⟨dest, -, h⟩ := bind_ok h
  obtain ⟨advice, -, h⟩ := bind_ok h
  obtain rfl := Except.ok.inj h
  rfl

/-- A receipt that cannot be printed is no missing booking. -/
theorem receiptFor_error {hold : Hold} {trip : Trip} {issuedAt : Int} {reference : String} :
    receiptFor hold trip issuedAt ≠ .error (.domain .bookingNotFound reference) := by
  intro h
  have hstation : ∀ seq, stationAt trip seq ≠ .error (.domain .bookingNotFound reference) := by
    intro seq hs
    unfold stationAt at hs
    split at hs <;> cases hs
  unfold receiptFor buildReceipt at h
  rcases bind_error h with htimes | ⟨times, -, h⟩
  · unfold legTimes at htimes
    split at htimes <;> cases htimes
  · rcases bind_error h with horigin | ⟨origin, -, h⟩
    · exact hstation _ horigin
    · rcases bind_error h with hdest | ⟨dest, -, h⟩
      · exact hstation _ hdest
      · cases h

/-- The stored status of a told booking, swept at the gate, is its history's verdict. -/
theorem Told.tells {trips : List Trip} {requests : List Request} {w : World} {now : Int}
    (h : Told trips requests w.holds w.accepted) (hclock : ∀ r ∈ requests, r.deps.now ≤ now) {b : Hold}
    (hb : b ∈ w.holds) :
    Tells (Happened trips requests (CancelSucceeded b.bookingId)) (w.Paid b.reference) b.heldUntil now
      (verdictOf (MemoryRepo.retire now b).status) := by
  have hpaid : b.status ≠ .cancelled → (w.Paid b.reference ↔ b.status = .confirmed ∨ b.status = .standing) := by
    intro hlive
    constructor
    · rintro ⟨amount, hmem⟩
      obtain ⟨x, hx, href, hheld, hexp⟩ := h.paid _ _ hmem
      obtain rfl : x = b := eq_of_key_eq h.references hx hb href
      cases hs : x.status with
      | held => exact absurd hs hheld
      | expired => exact absurd hs hexp
      | cancelled => exact absurd hs hlive
      | confirmed => exact Or.inl rfl
      | standing => exact Or.inr rfl
    · exact h.charged b hb
  rw [← h.cancelled b hb]
  cases hs : b.status with
  | held =>
      rw [hs] at hpaid
      have hunpaid : ¬ w.Paid b.reference := fun hp => by simpa using (hpaid (by simp)).mp hp
      by_cases hlive : now < b.heldUntil
      · rw [MemoryRepo.retire_eq fun _ => hlive, hs]
        exact ⟨by simp [verdictOf], fun _ => by simp [verdictOf, hunpaid], fun _ _ => by simp [verdictOf, hlive],
          fun _ _ => by simp [verdictOf, hlive]⟩
      · -- the sweep of the verification itself retires it
        have hexp : (MemoryRepo.retire now b).status = .expired := by
          have hdue : MemoryRepo.overdue now b = true := by
            simp only [MemoryRepo.overdue, hs, Bool.and_eq_true, decide_eq_true_eq]
            exact ⟨trivial, by omega⟩
          rw [MemoryRepo.retire, if_pos hdue]
        rw [hexp]
        exact ⟨by simp [verdictOf], fun _ => by simp [verdictOf, hunpaid], fun _ _ => by simp [verdictOf, hlive],
          fun _ _ => by simpa [verdictOf] using hlive⟩
  | expired =>
      rw [hs] at hpaid
      have hunpaid : ¬ w.Paid b.reference := fun hp => by simpa using (hpaid (by simp)).mp hp
      -- some call's sweep found it due, and the clock has not gone back
      obtain ⟨r, hr, hdue⟩ := h.expired b hb hs
      have hlate : b.heldUntil ≤ now := hdue.trans (hclock r hr)
      rw [MemoryRepo.retire_eq fun hheld => absurd (hs.symm.trans hheld) (by simp), hs]
      exact ⟨by simp [verdictOf], fun _ => by simp [verdictOf, hunpaid], fun _ _ => by simp [verdictOf, hlate],
        fun _ _ => by simp [verdictOf, hlate]⟩
  | confirmed =>
      rw [hs] at hpaid
      have hdone : w.Paid b.reference := (hpaid (by simp)).mpr (Or.inl rfl)
      rw [MemoryRepo.retire_eq fun hheld => absurd (hs.symm.trans hheld) (by simp), hs]
      exact ⟨by simp [verdictOf], fun _ => by simp [verdictOf, hdone], fun _ hno => absurd hdone hno,
        fun _ hno => absurd hdone hno⟩
  | standing =>
      rw [hs] at hpaid
      have hdone : w.Paid b.reference := (hpaid (by simp)).mpr (Or.inr rfl)
      rw [MemoryRepo.retire_eq fun hheld => absurd (hs.symm.trans hheld) (by simp), hs]
      exact ⟨by simp [verdictOf], fun _ => by simp [verdictOf, hdone], fun _ hno => absurd hdone hno,
        fun _ hno => absurd hdone hno⟩
  | cancelled =>
      rw [MemoryRepo.retire_eq fun hheld => absurd (hs.symm.trans hheld) (by simp), hs]
      exact ⟨by simp [verdictOf], fun hno => absurd rfl hno, fun hno => absurd rfl hno, fun hno => absurd rfl hno⟩

/-! ## The verdict -/

/-- **The gate tells the history.** After any run of complete calls over trips whose seats have names, with fresh
    ids and references and a clock that has not gone back, a verification answers CANCELLED exactly when a cancel of
    that booking succeeded, else VALID exactly when a charge for its reference was accepted, else UNPAID or EXPIRED
    by its deadline; and it finds no booking exactly when none was ever stored under that reference. -/
theorem verdict_tells_history (trips : List Trip) (requests : List Request) (deps : Deps) (g : Gateway)
    (reference : String) (hfresh : FreshDraws requests) (hclock : ∀ r ∈ requests, r.deps.now ≤ deps.now)
    (hseats : SeatsNamed trips) : VerdictTellsHistory trips requests deps g reference := by
  have htold := told_after hseats hfresh
  have hever : EverCommitted trips requests reference ↔
      ∃ h ∈ ((World.start trips).after requests).holds, h.reference = reference := by
    constructor
    · rintro ⟨before, later, rfl, h, hh, rfl⟩
      exact references_kept hfresh hh
    · intro hex
      exact ⟨requests, [], (List.append_nil _).symm, hex⟩
  unfold VerdictTellsHistory
  intro w answer
  rw [hever]
  rcases serve_verify w deps g reference with ⟨hnone, hanswer⟩ | ⟨b, hfound, hanswer⟩
  · -- nothing stored under the reference, before the sweep or after it
    constructor
    · intro v hv
      cases hanswer.symm.trans hv
    · refine iff_of_true hanswer ?_
      rintro ⟨h, hh, rfl⟩
      have hno := List.find?_eq_none.mp hnone _ (mem_swept.mpr ⟨h, hh, rfl⟩)
      exact hno (decide_eq_true (retire_reference deps.now h))
  · obtain ⟨b₀, hb₀, rfl⟩ := mem_swept.mp (List.mem_of_find?_eq_some hfound)
    have href : b₀.reference = reference := by
      have hb := List.find?_some hfound
      rw [decide_eq_true_eq, retire_reference] at hb
      exact hb
    constructor
    · intro v hv
      obtain ⟨trip, htrip, hrest⟩ := bind_ok (hanswer.symm.trans hv)
      obtain ⟨receipt, hreceipt, hv'⟩ := bind_ok hrest
      obtain rfl := Except.ok.inj hv'
      refine ⟨b₀, hb₀, href, ?_, ?_⟩
      · rw [receiptFor_bookingId hreceipt, MemoryRepo.retire_bookingId]
      · have htells := htold.tells hclock hb₀
        rwa [href] at htells
    · refine iff_of_false (fun herr => ?_) fun hno => hno ⟨b₀, hb₀, href⟩
      rcases bind_error (hanswer.symm.trans herr) with htrip | ⟨trip, -, hrest⟩
      · unfold MemoryRepo.getTrip at htrip
        split at htrip <;> cases htrip
      · rcases bind_error hrest with hreceipt | ⟨receipt, -, hret⟩
        · exact receiptFor_error hreceipt
        · cases hret

/-- The gate reads the paid ticket of the sample run VALID, and tells its history. -/
theorem verdict_tells_history_sample :
    ((((World.start sampleTrips).after sampleRun).serve ⟨.verify "SLR-1", sampleDeps 40 "5", acceptAll⟩).1.toOption.map
      Verification.verdict) = some .valid ∧
    VerdictTellsHistory sampleTrips sampleRun (sampleDeps 40 "5") acceptAll "SLR-1" := by
  refine ⟨by decide +kernel, verdict_tells_history sampleTrips sampleRun _ _ _ ⟨by decide, by decide⟩ ?_ ?_⟩
  · decide
  · unfold SeatsNamed
    decide

/-! ### A seat without a name -/

/-- A train with a reserved seat whose id is the empty text, and one unreserved seat. -/
def unnamedSeatTrips : List Trip :=
  [{ sampleTrip "slow" [originStop, middleStop, terminusStop] with
      seats := [⟨"", "A", .reserved, .first, 1, 1, "A"⟩, ⟨"U1", "U", .unreserved, .third, 1, 1, "A"⟩] }]

/-- The unnamed seat is held, the unreserved seat is sold; the next sale, standing, is charged under R1 and refused by
    the store; then a hold takes the reference R1. -/
def lostChargeRun : List Request :=
  [⟨.hold "slow" "" firstHop "nic1" "Nimal" none, sampleDeps 0 "1", acceptAll⟩,
   ⟨.sell "slow" firstHop "nic2" "Kamala" .third none, sampleDeps 10 "2", acceptAll⟩,
   ⟨.sell "slow" firstHop "nic3" "Sunil" .third (some "R1"), sampleDeps 20 "3", acceptAll⟩,
   ⟨.hold "slow" "" secondHop "nic3" "Sunil" (some "R1"), sampleDeps 30 "4", acceptAll⟩]

/-- Without the condition on the seats the gate answers UNPAID although a charge for the reference was accepted. -/
theorem verdict_of_lost_charge :
    ¬ ∀ trips requests deps g reference, FreshDraws requests → (∀ r ∈ requests, r.deps.now ≤ deps.now) →
      VerdictTellsHistory trips requests deps g reference := by
  intro h
  have htells := (h unnamedSeatTrips lostChargeRun (sampleDeps 40 "5") acceptAll "R1" ⟨by decide, by decide⟩
    (by decide)).1
  have hanswer : (((World.start unnamedSeatTrips).after lostChargeRun).serve
      ⟨.verify "R1", sampleDeps 40 "5", acceptAll⟩).1.toOption.map Verification.verdict = some .unpaid := by
    decide +kernel
  have hcharged : ("R1", (⟨10000⟩ : Money)) ∈ ((World.start unnamedSeatTrips).after lostChargeRun).accepted := by
    decide +kernel
  obtain ⟨v, hv, hunpaid⟩ := Option.map_eq_some_iff.mp hanswer
  cases hserve : (((World.start unnamedSeatTrips).after lostChargeRun).serve
      ⟨.verify "R1", sampleDeps 40 "5", acceptAll⟩).1 with
  | error e =>
      rw [hserve] at hv
      cases hv
  | ok v' =>
      obtain ⟨b, -, -, -, hb⟩ := htells v' hserve
      rw [hserve] at hv
      obtain rfl := Option.some.inj hv
      rw [hunpaid] at hb
      have hlive : ¬ Happened unnamedSeatTrips lostChargeRun (CancelSucceeded b.bookingId) := fun hc => by
        cases hb.cancelled.mpr hc
      cases (hb.valid hlive).mpr ⟨_, hcharged⟩

end SlrBooking
