import SlrBooking.Runs.Outcomes

/-!
# `Runs.NoDoubleBooking` — the store's invariant over whole runs

## Contents
- `Moved`, `Placed`, `Change`: what serving one request does to the bookings, the same for all eight calls.
  Every booking after it is an old one whose status took at most one edge of the state machine, or the one
  booking this request placed on a seat it found free.
- `serve_change`: every request makes a `Change`.
- `Safe`: distinct ids, active legs of a seat disjoint, active bookings on real seats, standing ones on none.
  Kept by every `Change`, because no edge re-activates a booking.
- `CameFrom` and the run invariant.
-/

namespace SlrBooking

open Theory Rows

/-! ## What one request may change

A call places at most one new booking, and moves others along the machine without moving them in place. -/

/-- The kind of seat a call sells. -/
def SoldAs (h : Hold) (seat : Seat) : Call → Prop
  | .hold .. => seat.coachType = .reserved
  | .sell .. => seat.coachType = .unreserved ∧ seat.travelClass = h.travelClass
  | _ => False

/-- `h'` is `h` after at most one edge of the state machine. -/
def Moved (h h' : Hold) : Prop :=
  h' = h ∨ ∃ s, BookingSm.Edge h.status s ∧ h' = { h with status := s }

/-- The booking a request inserts, as the store it inserts into sees it: on its trip's line, free of the active bookings
    of its seat, and either seated in a seat of the kind the call sells or a standing ticket. -/
structure Placed (r : Request) (trips : List Trip) (others : List Hold) (h : Hold) : Prop where
  id       : h.bookingId = r.deps.newId
  onLine   : ∃ trip, MemoryRepo.getTrip trips h.tripId = .ok trip ∧ validateLeg trip h.leg = .ok ()
  free     : ∀ e ∈ others, e.tripId = h.tripId → e.seatId = h.seatId → e.status.isActive = true →
      e.bookingId ≠ h.bookingId → e.leg.overlaps h.leg = false
  seated   : h.status.isActive = true → ∃ trip seat, MemoryRepo.getTrip trips h.tripId = .ok trip ∧
      seat ∈ trip.seats ∧ seat.seatId = h.seatId ∧ SoldAs h seat r.call
  standing : h.status = .standing → h.seatId = ""

/-- **What serving a request does to the bookings**, whatever the call and however it ends: every booking stays under
    its id, and each booking afterwards is a moved one or the one that was placed. -/
structure Change (r : Request) (w w' : World) : Prop where
  trips  : w'.trips = w.trips
  keyed  : Keyed MemoryRepo.idOf w'.holds
  keeps  : ∀ h ∈ w.holds, ∃ h' ∈ w'.holds, h'.bookingId = h.bookingId
  origin : ∀ h' ∈ w'.holds, (∃ h ∈ w.holds, Moved h h') ∨ Placed r w.trips w'.holds h'

theorem Moved.refl (h : Hold) : Moved h h := Or.inl rfl

theorem Moved.bookingId {h h' : Hold} (hm : Moved h h') : h'.bookingId = h.bookingId := by
  rcases hm with rfl | ⟨s, -, rfl⟩ <;> rfl

theorem Moved.place {h h' : Hold} (hm : Moved h h') :
    h'.tripId = h.tripId ∧ h'.seatId = h.seatId ∧ h'.leg = h.leg ∧ h'.travelClass = h.travelClass := by
  rcases hm with rfl | ⟨s, -, rfl⟩ <;> exact ⟨rfl, rfl, rfl, rfl⟩

/-- **Nothing comes back to life.** -/
theorem Moved.active {h h' : Hold} (hm : Moved h h') (ha : h'.status.isActive = true) :
    h.status.isActive = true := by
  rcases hm with rfl | ⟨s, hedge, rfl⟩
  · exact ha
  · exact BookingSm.active_of_edge hedge ha

theorem Moved.standing {h h' : Hold} (hm : Moved h h') (hs : h'.status = .standing) : h.status = .standing := by
  rcases hm with rfl | ⟨s, hedge, rfl⟩
  · exact hs
  · obtain rfl : s = .standing := hs
    rcases BookingSm.edge_iff.mp hedge with ⟨-, h | h | h⟩ | ⟨-, h⟩ | ⟨-, h⟩ <;> cases h

theorem moved_retire (now : Int) (h : Hold) : Moved h (MemoryRepo.retire now h) := by
  rcases MemoryRepo.retire_cases now h with he | ⟨hs, he⟩
  · exact Or.inl he
  · exact Or.inr ⟨.expired, ⟨.expire, by rw [hs]; rfl⟩, he⟩

/-! ## Every request makes a `Change` -/

section Changes

variable {w w' : World} {r : Request} {now : Int}

theorem change_same (hk : Keyed MemoryRepo.idOf w.holds) (h : World.Same w w') : Change r w w' where
  trips := h.trips
  keyed := h.holds ▸ hk
  keeps := fun x hx => ⟨x, h.holds ▸ hx, rfl⟩
  origin := fun x hx => Or.inl ⟨x, h.holds ▸ hx, Moved.refl x⟩

theorem mem_swept {h' : Hold} : h' ∈ w.swept now ↔ ∃ h ∈ w.holds, MemoryRepo.retire now h = h' :=
  List.mem_map

theorem change_swept (hk : Keyed MemoryRepo.idOf w.holds) {ms : List (String × Money)}
    (h : World.Wrote w w' (w.swept now) ms) : Change r w w' where
  trips := h.trips
  keyed := by
    rw [h.holds]
    exact MemoryRepo.expireDue_keyed hk now
  keeps := fun x hx => ⟨MemoryRepo.retire now x, h.holds ▸ mem_swept.mpr ⟨x, hx, rfl⟩,
    MemoryRepo.retire_bookingId now x⟩
  origin := by
    intro x hx
    rw [h.holds] at hx
    obtain ⟨y, hy, rfl⟩ := mem_swept.mp hx
    exact Or.inl ⟨y, hy, moved_retire now y⟩

/-- Rewriting one booking's status along an edge, over a store that is the old one moved. -/
theorem change_status {base : List Hold} (hk : Keyed MemoryRepo.idOf base) {hold : Hold}
    {s : BookingStatus} {ms : List (String × Money)}
    (hbase : ∀ x ∈ base, ∃ y ∈ w.holds, Moved y x) (hkeeps : ∀ y ∈ w.holds, ∃ x ∈ base, x.bookingId = y.bookingId)
    (hstored : hold ∈ w.holds) (hedge : BookingSm.Edge hold.status s)
    (h : World.Wrote w w' (put MemoryRepo.idOf { hold with status := s } base) ms) : Change r w w' where
  trips := h.trips
  keyed := by
    rw [h.holds]
    exact put_keyed hk _
  keeps := by
    intro y hy
    obtain ⟨x, hx, hid⟩ := hkeeps y hy
    rw [h.holds]
    by_cases he : x.bookingId = hold.bookingId
    · exact ⟨_, (mem_put hk).mpr (Or.inl rfl), he.symm.trans hid⟩
    · exact ⟨x, (mem_put hk).mpr (Or.inr ⟨hx, he⟩), hid⟩
  origin := by
    intro x hx
    rw [h.holds] at hx
    rcases (mem_put hk).mp hx with rfl | ⟨hx, -⟩
    · exact Or.inl ⟨hold, hstored, Or.inr ⟨s, hedge, rfl⟩⟩
    · exact Or.inl (hbase x hx)

/-- Inserting a placed booking over the swept store. -/
theorem change_insert (hk : Keyed MemoryRepo.idOf w.holds) {hold : Hold} {holds : List Hold}
    {ms : List (String × Money)} (hadd : MemoryRepo.addHold (w.swept now) hold = .ok holds)
    (hid : hold.bookingId = r.deps.newId)
    (honLine : ∃ trip, MemoryRepo.getTrip w.trips hold.tripId = .ok trip ∧ validateLeg trip hold.leg = .ok ())
    (hseated : hold.status.isActive = true → ∃ trip seat, MemoryRepo.getTrip w.trips hold.tripId = .ok trip ∧
      seat ∈ trip.seats ∧ seat.seatId = hold.seatId ∧ SoldAs hold seat r.call)
    (hstanding : hold.status = .standing → hold.seatId = "") (h : World.Wrote w w' holds ms) : Change r w w' := by
  obtain ⟨rfl, hfree⟩ := MemoryRepo.addHold_ok hadd
  have hk' := MemoryRepo.expireDue_keyed hk now
  refine ⟨h.trips, ?_, ?_, ?_⟩
  · rw [h.holds]
    exact put_keyed hk' _
  · intro y hy
    rw [h.holds]
    by_cases he : y.bookingId = hold.bookingId
    · exact ⟨hold, (mem_put hk').mpr (Or.inl rfl), he.symm⟩
    · refine ⟨MemoryRepo.retire now y, (mem_put hk').mpr (Or.inr ⟨mem_swept.mpr ⟨y, hy, rfl⟩, ?_⟩),
        MemoryRepo.retire_bookingId now y⟩
      show (MemoryRepo.retire now y).bookingId ≠ hold.bookingId
      rw [MemoryRepo.retire_bookingId]
      exact he
  · intro x hx
    rw [h.holds] at hx
    rcases (mem_put hk').mp hx with rfl | ⟨hx, -⟩
    · refine Or.inr ⟨hid, honLine, ?_, hseated, hstanding⟩
      intro e he ht hs ha hne
      rw [h.holds] at he
      rcases (mem_put hk').mp he with rfl | ⟨he, -⟩
      · exact absurd rfl hne
      · exact hfree e he ht hs ha hne
    · obtain ⟨y, hy, rfl⟩ := mem_swept.mp hx
      exact Or.inl ⟨y, hy, moved_retire now y⟩

/-- An admitted sale's seat is one of the trip's unreserved seats of the class. -/
theorem seat_of_admission {deps : Deps} {holds : List Hold} {trips : List Trip} {t p : String} {leg : Leg}
    {c : TravelClass} {a : Admission} (ha : Admits deps holds trips t leg p c a) {seat : Seat}
    (hseat : a.seat = some seat) :
    seat ∈ a.trip.seats ∧ seat.coachType = .unreserved ∧ seat.travelClass = c := by
  have hmem : seat ∈ unreservedPool a.trip c := by
    have hassigned := ha.assigned
    rw [ha.pool, hseat] at hassigned
    unfold seatAssignment at hassigned
    dsimp only at hassigned
    split at hassigned
    · obtain ⟨hget, -⟩ := Prod.mk.inj (Except.ok.inj hassigned)
      exact List.mem_of_getElem? hget
    · split at hassigned
      · cases hassigned
      · obtain ⟨hget, -⟩ := Prod.mk.inj (Except.ok.inj hassigned)
        cases hget
  simpa [unreservedPool] using hmem

/-- **Every request makes a `Change`.** -/
theorem serve_change (hk : Keyed MemoryRepo.idOf w.holds) (r : Request) : Change r w (w.serve r).2 := by
  obtain ⟨call, deps, g⟩ := r
  -- the four use-cases that only read and sweep
  have hreads : ∀ {α} {p : Prog Ports Err α}, p.Only (ReadsAndSweeps deps.now) →
      Change ⟨call, deps, g⟩ w (w.block g p).2 := by
    intro α p hp
    rcases World.sweep_outcome hp (World.block_pair g p w) with h | h
    · exact change_same hk h
    · exact change_swept hk h
  cases call with
  | hold t s leg p n ref =>
      rcases holdSeat_outcome (World.block_pair g (holdSeat deps t s leg p n ref) w) with
        ⟨-, -, -, h⟩ | ⟨-, -, h⟩ | ⟨-, trip, seat, fare, ttl, holds, htrip, hleg, hseat, hadd, -, h⟩
      · exact change_same hk h
      · exact change_same hk h
      · obtain ⟨hmem, hsid, hkind⟩ := reservedSeat_ok hseat
        exact change_insert hk hadd rfl ⟨trip, htrip, hleg⟩ (fun _ => ⟨trip, seat, htrip, hmem, hsid, hkind⟩)
          (fun hs => absurd hs (by simp [newHold])) h
  | confirm id =>
      rcases confirmBooking_outcome (World.block_pair g (confirmBooking deps id) w) with
        ⟨-, -, h⟩ | ⟨hold, trip, hc, -, h⟩
      · exact change_same hk h
      · have hstored := lookup_some_mem hc.found
        -- the sweep first, then the edge of the confirm
        refine change_status (MemoryRepo.expireDue_keyed hk deps.now) ?_ ?_ hstored
          ⟨.confirm, by rw [hc.held]; rfl⟩ h
        · intro x hx
          obtain ⟨y, hy, rfl⟩ := mem_swept.mp hx
          exact ⟨y, hy, moved_retire _ y⟩
        · exact fun y hy => ⟨_, mem_swept.mpr ⟨y, hy, rfl⟩, MemoryRepo.retire_bookingId _ y⟩
  | cancel id =>
      rcases cancelBooking_outcome (World.block_pair g (cancelBooking id) w) with
        ⟨-, h⟩ | ⟨hold, hfound, hedge, -, h⟩
      · exact change_same hk h
      · exact change_status hk (fun x hx => ⟨x, hx, Moved.refl x⟩) (fun y hy => ⟨y, hy, rfl⟩)
          (lookup_some_mem hfound) hedge h
  | sell t leg p n c ref =>
      rcases sellUnreserved_outcome (World.block_pair g (sellUnreserved deps t leg p n c ref) w) with
        ⟨-, h⟩ | ⟨-, -, -, h⟩ | ⟨-, a, hc, ⟨-, -, -, h⟩ | ⟨holds, hadd, -, h⟩⟩
      · exact change_same hk h
      · exact change_same hk h
      · refine ⟨h.trips, h.holds ▸ hk, fun x hx => ⟨x, h.holds ▸ hx, rfl⟩, fun x hx => ?_⟩
        exact Or.inl ⟨x, h.holds ▸ hx, Moved.refl x⟩
      · refine change_insert hk hadd rfl ⟨a.trip, hc.admitted.found, hc.admitted.onLine⟩ ?_ ?_ h
        · intro hactive
          cases hseat : a.seat with
          | none => simp [ticketOf, soldTicket, hseat, BookingStatus.isActive, activeStatuses] at hactive
          | some seat =>
              obtain ⟨hmem, hkind, hclass⟩ := seat_of_admission hc.admitted hseat
              exact ⟨a.trip, seat, hc.admitted.found, hmem, by simp [ticketOf, soldTicket, hseat], hkind, hclass⟩
        · intro hs
          cases hseat : a.seat with
          | none => simp [ticketOf, soldTicket, hseat]
          | some seat => simp [ticketOf, soldTicket, hseat] at hs
  | verify ref => exact hreads (reads_verifyTicket deps ref)
  | search o d date => exact hreads (reads_searchTrains deps o d date)
  | availability t leg => exact hreads (reads_legAvailability deps t leg)
  | quote t leg c => exact hreads (reads_quoteFare deps t leg c)

end Changes

/-! ## The invariant of the store -/

/-- **The booking store's invariant**: ids are distinct, active bookings of one seat are apart, and a standing ticket
    has no seat. -/
structure Safe (holds : List Hold) : Prop where
  keyed    : Keyed MemoryRepo.idOf holds
  apart    : ∀ a ∈ holds, ∀ b ∈ holds, a.bookingId ≠ b.bookingId → a.tripId = b.tripId → a.seatId = b.seatId →
      a.status.isActive = true → b.status.isActive = true → a.leg.overlaps b.leg = false
  standing : ∀ h ∈ holds, h.status = .standing → h.seatId = ""

theorem safe_empty : Safe [] := ⟨keyed_nil, by simp, by simp⟩

/-- **A `Change` keeps the store safe.** -/
theorem Safe.change {r : Request} {w w' : World} (hs : Safe w.holds) (hc : Change r w w') : Safe w'.holds := by
  refine ⟨hc.keyed, ?_, ?_⟩
  · intro a ha b hb hne ht hseat haa hba
    rcases hc.origin a ha with ⟨a₀, ha₀, hma⟩ | hpa
    · rcases hc.origin b hb with ⟨b₀, hb₀, hmb⟩ | hpb
      · obtain ⟨hta, hsa, hla, -⟩ := hma.place
        obtain ⟨htb, hsb, hlb, -⟩ := hmb.place
        rw [hla, hlb]
        refine hs.apart a₀ ha₀ b₀ hb₀ ?_ (hta ▸ htb ▸ ht) (hsa ▸ hsb ▸ hseat) (hma.active haa) (hmb.active hba)
        rw [← hma.bookingId, ← hmb.bookingId]
        exact hne
      · exact hpb.free a ha ht hseat haa hne
    · rw [Leg.overlaps_comm]
      exact hpa.free b hb ht.symm hseat.symm hba (Ne.symm hne)
  · intro h hh hst
    rcases hc.origin h hh with ⟨h₀, hh₀, hm⟩ | hp
    · rw [hm.place.2.1]
      exact hs.standing h₀ hh₀ (hm.standing hst)
    · exact hp.standing hst

/-! ## Whole runs -/

/-- The booking `id` came into the store with the request `r` of the run: it was not there before that request, and was
    after it. -/
def CameFrom (trips : List Trip) (requests : List Request) (id : String) (r : Request) : Prop :=
  ∃ before later, requests = before ++ r :: later ∧
    id ∉ ((World.start trips).after before).holds.map (·.bookingId) ∧
    id ∈ ((World.start trips).after (before ++ [r])).holds.map (·.bookingId)

/-- The run's invariant. -/
structure RunSafe (trips : List Trip) (requests : List Request) (w : World) : Prop where
  safe   : Safe w.holds
  ids    : ∀ h ∈ w.holds, h.bookingId ∈ requests.map (·.deps.newId)
  source : ∀ h ∈ w.holds, ∃ r, CameFrom trips requests h.bookingId r
  seated : ∀ h ∈ w.holds, h.status.isActive = true → ∃ trip seat, MemoryRepo.getTrip w.trips h.tripId = .ok trip ∧
      seat ∈ trip.seats ∧ seat.seatId = h.seatId ∧
      ∀ r, CameFrom trips requests h.bookingId r → SoldAs h seat r.call

/-- Bookings never disappear. -/
theorem ids_after {w : World} (hk : Keyed MemoryRepo.idOf w.holds) (rs : List Request) :
    Keyed MemoryRepo.idOf (w.after rs).holds ∧
      ∀ id ∈ w.holds.map (·.bookingId), id ∈ (w.after rs).holds.map (·.bookingId) := by
  induction rs generalizing w with
  | nil => exact ⟨hk, fun _ h => h⟩
  | cons r rs ih =>
      have hc := serve_change hk r
      obtain ⟨hk', hids⟩ := ih hc.keyed
      refine ⟨hk', fun id hid => hids id ?_⟩
      obtain ⟨h, hh, rfl⟩ := List.mem_map.mp hid
      obtain ⟨h', hh', he⟩ := hc.keeps h hh
      exact List.mem_map.mpr ⟨h', hh', he⟩

theorem soldAs_moved {h h' : Hold} (hm : Moved h h') {seat : Seat} {c : Call} (hs : SoldAs h seat c) :
    SoldAs h' seat c := by
  have hclass := hm.place.2.2.2
  cases c with
  | sell => exact ⟨hs.1, hs.2.trans hclass.symm⟩
  | _ => exact hs

/-- A booking that was there before the last request came from an earlier one. -/
theorem cameFrom_snoc {trips : List Trip} {rs : List Request} {last r : Request} {id : String}
    (h : CameFrom trips (rs ++ [last]) id r) :
    CameFrom trips rs id r ∨ (r = last ∧ id ∉ ((World.start trips).after rs).holds.map (·.bookingId)) := by
  obtain ⟨before, later, heq, hno, hyes⟩ := h
  rcases List.eq_nil_or_concat later with rfl | ⟨later', x, rfl⟩
  · obtain ⟨rfl, hr⟩ := List.append_inj' heq rfl
    obtain rfl := (List.cons.inj hr).1
    exact Or.inr ⟨rfl, hno⟩
  · refine Or.inl ⟨before, later', ?_, hno, hyes⟩
    have heq' : rs ++ [last] = (before ++ r :: later') ++ [x] := by
      rw [heq, List.concat_eq_append, List.append_assoc, List.cons_append]
    exact (List.append_inj' heq' rfl).1

theorem cameFrom_mem {trips : List Trip} {rs : List Request} {r : Request} {id : String}
    (h : CameFrom trips rs id r) : id ∈ ((World.start trips).after rs).holds.map (·.bookingId) := by
  obtain ⟨before, later, rfl, -, hyes⟩ := h
  have hk : Keyed MemoryRepo.idOf ((World.start trips).after (before ++ [r])).holds :=
    (ids_after (w := World.start trips) keyed_nil _).1
  have := (ids_after hk later).2 id hyes
  rwa [← World.after_append, List.append_assoc] at this

/-- Every stored booking's leg is on its trip's line. -/
def OnLine (w : World) : Prop :=
  ∀ h ∈ w.holds, ∃ trip, MemoryRepo.getTrip w.trips h.tripId = .ok trip ∧ validateLeg trip h.leg = .ok ()

theorem OnLine.change {r : Request} {w w' : World} (ho : OnLine w) (hc : Change r w w') : OnLine w' := by
  intro h hh
  rw [hc.trips]
  rcases hc.origin h hh with ⟨h₀, hh₀, hm⟩ | hp
  · obtain ⟨ht, -, hl, -⟩ := hm.place
    rw [ht, hl]
    exact ho h₀ hh₀
  · exact hp.onLine

/-- Every run keeps the ids distinct and the legs on the line, whatever ids it draws. -/
theorem run_onLine (trips : List Trip) (requests : List Request) :
    Keyed MemoryRepo.idOf ((World.start trips).after requests).holds ∧
      OnLine ((World.start trips).after requests) := by
  induction requests using List.reverseRecOn with
  | nil => exact ⟨keyed_nil, fun h hh => absurd hh (by simp [World.after, World.start, World.holds, MemoryUow.make])⟩
  | append_singleton rs r ih =>
      rw [World.after_snoc]
      have hc := serve_change ih.1 r
      exact ⟨hc.keyed, ih.2.change hc⟩

/-- **The invariant holds along every run** whose requests draw distinct ids. -/
theorem run_safe (trips : List Trip) (requests : List Request)
    (hfresh : (requests.map (·.deps.newId)).Nodup) :
    RunSafe trips requests ((World.start trips).after requests) := by
  induction requests using List.reverseRecOn with
  | nil => exact ⟨safe_empty, by simp [World.after, World.start, World.holds, MemoryUow.make],
      by simp [World.after, World.start, World.holds, MemoryUow.make],
      by simp [World.after, World.start, World.holds, MemoryUow.make]⟩
  | append_singleton rs r ih =>
      rw [List.map_append] at hfresh
      have hold := ih (List.nodup_append.mp hfresh).1
      have hc := serve_change hold.safe.keyed r
      have hnew : r.deps.newId ∉ ((World.start trips).after rs).holds.map (·.bookingId) := by
        intro hmem
        obtain ⟨h, hh, he⟩ := List.mem_map.mp hmem
        exact (List.nodup_append.mp hfresh).2.2 _ (hold.ids h hh) r.deps.newId (by simp) he
      rw [World.after_snoc]
      -- each booking of the new store is an old one moved along, or the one just placed
      refine ⟨hold.safe.change hc, ?_, ?_, ?_⟩
      · intro h hh
        rw [List.map_append]
        rcases hc.origin h hh with ⟨h₀, hh₀, hm⟩ | hp
        · exact List.mem_append_left _ (hm.bookingId ▸ hold.ids h₀ hh₀)
        · exact List.mem_append_right _ (by simp [hp.id])
      · intro h hh
        rcases hc.origin h hh with ⟨h₀, hh₀, hm⟩ | hp
        · obtain ⟨r', before, later, rfl, hno, hyes⟩ := hold.source h₀ hh₀
          rw [hm.bookingId]
          exact ⟨r', before, later ++ [r], by simp, hno, hyes⟩
        · refine ⟨r, rs, [], rfl, hp.id ▸ hnew, ?_⟩
          rw [World.after_snoc]
          exact List.mem_map_of_mem hh
      · intro h hh hactive
        rcases hc.origin h hh with ⟨h₀, hh₀, hm⟩ | hp
        · obtain ⟨trip, seat, htrip, hseat, hid, hsold⟩ := hold.seated h₀ hh₀ (hm.active hactive)
          obtain ⟨ht, hs, -, -⟩ := hm.place
          refine ⟨trip, seat, ?_, hseat, hid.trans hs.symm, fun r' hr' => ?_⟩
          · rw [hc.trips, ht]
            exact htrip
          · rw [hm.bookingId] at hr'
            rcases cameFrom_snoc hr' with hr' | ⟨-, hno⟩
            · exact soldAs_moved hm (hsold r' hr')
            · exact absurd (List.mem_map_of_mem hh₀) hno
        · obtain ⟨trip, seat, htrip, hseat, hid, hsold⟩ := hp.seated hactive
          refine ⟨trip, seat, ?_, hseat, hid, fun r' hr' => ?_⟩
          · rw [hc.trips]
            exact htrip
          · rw [hp.id] at hr'
            rcases cameFrom_snoc hr' with hr' | ⟨rfl, -⟩
            · exact absurd (cameFrom_mem hr') hnew
            · exact hsold

/-! ## Every hop of every seat -/

/-- In a safe store the bookings of one seat that contain one hop are at most one. -/
theorem Safe.hop_once {holds : List Hold} (hs : Safe holds) (tripId seatId : String) (seq : Int) :
    ((MemoryRepo.activeForSeat holds tripId seatId).filter fun h => h.leg.contains seq).length ≤ 1 := by
  generalize hl : (MemoryRepo.activeForSeat holds tripId seatId).filter (fun h => h.leg.contains seq) = l
  have hsub : l.Sublist holds := hl ▸ List.filter_sublist.trans List.filter_sublist
  have hmem : ∀ h ∈ l, h ∈ holds ∧ h.tripId = tripId ∧ h.seatId = seatId ∧ h.status.isActive = true ∧
      h.leg.contains seq = true := by
    intro h hh
    rw [← hl, List.mem_filter, MemoryRepo.mem_activeForSeat] at hh
    exact ⟨hh.1.1, hh.1.2.1, hh.1.2.2.1, hh.1.2.2.2, hh.2⟩
  match l, hsub, hmem with
  | [], _, _ => simp
  | [_], _, _ => simp
  | a :: b :: rest, hsub, hmem =>
      obtain ⟨ha, hta, hsa, haa, hca⟩ := hmem a (by simp)
      obtain ⟨hb, htb, hsb, hba, hcb⟩ := hmem b (by simp)
      have hids : a.bookingId ≠ b.bookingId := by
        have hnodup := hs.keyed.sublist (hsub.map MemoryRepo.idOf)
        simp only [List.map_cons, List.nodup_cons, List.mem_cons, not_or] at hnodup
        exact hnodup.1.1
      have hover := hs.apart a ha b hb hids (hta.trans htb.symm) (hsa.trans hsb.symm) haa hba
      rw [Leg.overlaps_iff_hop.mpr ⟨seq, hca, hcb⟩] at hover
      cases hover

/-- **No double booking.** Over any run of complete calls from an empty store whose generated ids are
    distinct: two active bookings of a seat never overlap, so each hop of a seat is sold at most once; an
    active booking names a seat of its trip, of the kind the call it came from sells; a standing booking
    names none. -/
theorem no_double_booking (trips : List Trip) (requests : List Request)
    (hfresh : (requests.map (·.deps.newId)).Nodup) :
    let w := (World.start trips).after requests
    (∀ a ∈ w.holds, ∀ b ∈ w.holds, a ≠ b → a.tripId = b.tripId → a.seatId = b.seatId →
      a.status.isActive = true → b.status.isActive = true → a.leg.overlaps b.leg = false) ∧
    (∀ tripId seatId seq,
      ((MemoryRepo.activeForSeat w.holds tripId seatId).filter fun h => h.leg.contains seq).length ≤ 1) ∧
    (∀ h ∈ w.holds, h.status.isActive = true → ∃ trip seat,
      MemoryRepo.getTrip w.trips h.tripId = .ok trip ∧ seat ∈ trip.seats ∧ seat.seatId = h.seatId ∧
      (∃ r, CameFrom trips requests h.bookingId r) ∧
      ∀ r, CameFrom trips requests h.bookingId r → SoldAs h seat r.call) ∧
    (∀ h ∈ w.holds, h.status = .standing → h.seatId = "") := by
  intro w
  have hrun := run_safe trips requests hfresh
  refine ⟨?_, hrun.safe.hop_once, ?_, hrun.safe.standing⟩
  · intro a ha b hb hne
    exact hrun.safe.apart a ha b hb fun he => hne (eq_of_key_eq hrun.safe.keyed ha hb he)
  · intro h hh hactive
    obtain ⟨trip, seat, htrip, hseat, hid, hsold⟩ := hrun.seated h hh hactive
    exact ⟨trip, seat, htrip, hseat, hid, hrun.source h hh, hsold⟩

/-- A seat sold over each of two hops, and a counter ticket. -/
def sampleRun : List Request :=
  [⟨.hold "slow" "A1" firstHop "nic1" "Nimal" none, sampleDeps 0 "1", acceptAll⟩,
   ⟨.confirm "b1", sampleDeps 10 "2", acceptAll⟩,
   ⟨.hold "slow" "A1" secondHop "nic2" "Kamala" none, sampleDeps 20 "3", acceptAll⟩,
   ⟨.sell "slow" wholeLine "nic3" "Sunil" .third none, sampleDeps 30 "4", acceptAll⟩]

theorem no_double_booking_sample :
    (((World.start sampleTrips).after sampleRun).holds.map fun h => (h.bookingId, h.status)) =
      [("b1", .confirmed), ("b3", .held), ("b4", .confirmed)] ∧
    ∀ a ∈ ((World.start sampleTrips).after sampleRun).holds,
      ∀ b ∈ ((World.start sampleTrips).after sampleRun).holds, a ≠ b → a.tripId = b.tripId →
      a.seatId = b.seatId → a.status.isActive = true → b.status.isActive = true → a.leg.overlaps b.leg = false :=
  ⟨by decide +kernel, (no_double_booking sampleTrips sampleRun (by decide)).1⟩

end SlrBooking
