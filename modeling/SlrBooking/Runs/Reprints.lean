import SlrBooking.Runs.Verdicts
import SlrBooking.Domain.Standing

/-!
# `Runs.Reprints` — a ticket printed again, at the gate or at the window, against the ticket as sold

The receipt is assembled on three paths: at the sale, from the seat and the offer at hand; at a confirm, a
verification or a replay, from the stored booking alone. The store keeps the seat's id and no advice.

## Contents
- `World.issued`, `Reprints`, `StoredInFull`.
- `receiptFor_reprint`: what the store can print of a ticket. `issued_ticket`: the booking behind a receipt.
- `reprint_iff`; `advice_lost_on_reprint`.
-/

namespace SlrBooking

open Theory Rows

/-- The receipt that a confirm or a sale returned. -/
def World.issued (w : World) : Request → Option Receipt
  | ⟨.confirm id, deps, g⟩ => (w.block g (confirmBooking deps id)).1.toOption
  | ⟨.sell t leg p n c reference, deps, g⟩ => (w.block g (sellUnreserved deps t leg p n c reference)).1.toOption
  | _ => none

/-- Verified or sold again under its reference, the ticket is printed as it was, but for the time of issue. -/
def Reprints (w : World) (receipt : Receipt) : Prop :=
  (∀ deps g, (w.serve ⟨.verify receipt.reference, deps, g⟩).1 = .ok ⟨.valid, { receipt with issuedAt := deps.now }⟩) ∧
  ∀ t leg p n c deps g, (w.serve ⟨.sell t leg p n c (some receipt.reference), deps, g⟩).1 =
    .ok { receipt with issuedAt := deps.now }

/-- The first seat of the trip with this seat's id prints like it. -/
def NamesSeat (trip : Trip) (seat : Seat) : Prop :=
  ∃ s, trip.seats.find? (fun x => x.seatId = seat.seatId) = some s ∧ s.coach = seat.coach ∧
    seatLabel s = seatLabel seat

/-- Everything the ticket prints is in the store: a new sale over a free seat takes a seat its id names; one
    with no free seat finds every seat of the pool occupied over the last hop, so that no seat can be advised,
    and no seat of the trip goes under the empty id of a standing ticket. -/
def StoredInFull (w : World) (r : Request) : Prop :=
  match r.call with
  | .sell t leg _ _ c reference =>
    replayed w.holds reference = none → ∀ trip, MemoryRepo.getTrip w.trips t = .ok trip →
      (∀ i seat, chooseSeat (poolLegsOf (w.swept r.deps.now) t (unreservedPool trip c)) leg = some i →
        (unreservedPool trip c)[i]? = some seat → NamesSeat trip seat) ∧
      (chooseSeat (poolLegsOf (w.swept r.deps.now) t (unreservedPool trip c)) leg = none →
        (∀ seatLegs ∈ poolLegsOf (w.swept r.deps.now) t (unreservedPool trip c),
          ∃ l ∈ seatLegs, l.contains (leg.destSeq - 1) = true) ∧
        ∀ seat ∈ trip.seats, seat.seatId ≠ "")
  | _ => True

/-! ## What the store can print -/

/-- The seat and the advice on the receipt are what the stored booking alone gives. -/
structure Recoverable (b : Hold) (trip : Trip) (receipt : Receipt) : Prop where
  coach    : (trip.seats.find? fun s => s.seatId = b.seatId).map (·.coach) = receipt.coach
  label    : (trip.seats.find? fun s => s.seatId = b.seatId).map seatLabel = receipt.seatLabel
  unadvised : receipt.standing = none

/-- **What the store can print of a ticket**: all of it but for the seat, as its id names it, and the advice. -/
theorem receiptFor_reprint {b : Hold} {trip : Trip} {soldAt : Int} {seat : Option Seat} {offer : Option SeatOffer}
    {pool : List Seat} {receipt : Receipt} (h : buildReceipt b trip soldAt seat offer pool = .ok receipt) (now : Int) :
    ∃ again, receiptFor b trip now = .ok again ∧
      (again = { receipt with issuedAt := now } ↔ Recoverable b trip receipt) := by
  unfold receiptFor
  unfold buildReceipt at h ⊢
  obtain ⟨times, htimes, h⟩ := bind_ok h
  obtain ⟨origin, horigin, h⟩ := bind_ok h
  obtain ⟨dest, hdest, h⟩ := bind_ok h
  obtain ⟨advice, hadvice, h⟩ := bind_ok h
  obtain rfl := Except.ok.inj h
  simp only [htimes, horigin, hdest]
  refine ⟨_, rfl, ?_⟩
  simp only [Receipt.mk.injEq, true_and]
  constructor
  · rintro ⟨hcoach, hlabel, hnone⟩
    exact ⟨hcoach, hlabel, hnone.symm⟩
  · rintro ⟨hcoach, hlabel, hnone⟩
    exact ⟨hcoach, hlabel, hnone.symm⟩

/-- What a sale under a known reference answers. -/
theorem serve_replay_sale {w : World} {t p n reference : String} {leg : Leg} {c : TravelClass} {deps : Deps}
    {g : Gateway} {b : Hold} (h : MemoryRepo.byReference w.holds reference = some b) :
    (w.serve ⟨.sell t leg p n c (some reference), deps, g⟩).1 =
      (MemoryRepo.getTrip w.trips b.tripId >>= fun trip => receiptFor b trip deps.now) := by
  have hanswer : (w.serve ⟨.sell t leg p n c (some reference), deps, g⟩).1 =
      ((sellUnreserved deps t leg p n c (some reference)).run (World.exec g) w.enter).1 := rfl
  rw [hanswer]
  simp only [sellUnreserved, lookupReplay, Prog.bind_eq, Prog.run_bind, run_byReference, World.holds_enter, h,
    replayReceipt, run_getTrip, World.trips_enter]
  cases MemoryRepo.getTrip w.trips b.tripId with
  | error e => rfl
  | ok trip =>
      simp only [Prog.run_ofExcept]
      rfl

/-- A paid booking under its own reference is printed from the store alone. -/
theorem reprints_iff {w : World} {b : Hold} {trip : Trip} {soldAt : Int} {seat : Option Seat}
    {offer : Option SeatOffer} {pool : List Seat} {receipt : Receipt}
    (hstored : b ∈ w.holds) (hkeyed : Keyed Hold.reference w.holds)
    (hpaid : b.status = .confirmed ∨ b.status = .standing) (htrip : MemoryRepo.getTrip w.trips b.tripId = .ok trip)
    (hbuilt : buildReceipt b trip soldAt seat offer pool = .ok receipt) :
    Reprints w receipt ↔ Recoverable b trip receipt := by
  obtain ⟨-, href, -⟩ := buildReceipt_prints hbuilt
  -- a paid booking is retired by no sweep, so every later call finds it as it is
  have hlive : ∀ now, MemoryRepo.retire now b = b := by
    intro now
    apply MemoryRepo.retire_eq
    intro hheld
    rcases hpaid with hs | hs <;> · rw [hs] at hheld; cases hheld
  have hvalid : verdictOf b.status = .valid := by rcases hpaid with hs | hs <;> rw [hs] <;> rfl
  have hfind : MemoryRepo.byReference w.holds receipt.reference = some b := href ▸ lookup_of_mem hkeyed hstored
  have hswept : ∀ now, MemoryRepo.byReference (w.swept now) receipt.reference = some b := by
    intro now
    have hmap : MemoryRepo.byReference (w.swept now) receipt.reference =
        (MemoryRepo.byReference w.holds receipt.reference).map (MemoryRepo.retire now) :=
      lookup_map (retire_reference now) receipt.reference w.holds
    rw [hmap, hfind, Option.map_some, hlive]
  have hverify : ∀ deps g again, receiptFor b trip deps.now = .ok again →
      (w.serve ⟨.verify receipt.reference, deps, g⟩).1 = .ok ⟨.valid, again⟩ := by
    intro deps g again hagain
    rcases serve_verify w deps g receipt.reference with ⟨hnone, -⟩ | ⟨b', hb', hanswer⟩
    · rw [hswept] at hnone
      cases hnone
    · obtain rfl : b = b' := Option.some.inj ((hswept deps.now).symm.trans hb')
      rw [hanswer, htrip]
      simp only [bind, Except.bind, hagain, hvalid]
      rfl
  constructor
  · intro hreprints
    obtain ⟨again, hagain, hiff⟩ := receiptFor_reprint hbuilt soldAt
    have hprinted := hreprints.1 (sampleDeps soldAt "") acceptAll
    rw [hverify _ _ again hagain] at hprinted
    exact hiff.mp (Verification.mk.inj (Except.ok.inj hprinted)).2
  · intro hrecover
    constructor
    · intro deps g
      obtain ⟨again, hagain, hiff⟩ := receiptFor_reprint hbuilt deps.now
      rw [hverify deps g again hagain, hiff.mpr hrecover]
    · intro t leg p n c deps g
      obtain ⟨again, hagain, hiff⟩ := receiptFor_reprint hbuilt deps.now
      rw [serve_replay_sale hfind, htrip]
      simp only [bind, Except.bind]
      rw [hagain, hiff.mpr hrecover]

/-! ## The booking behind a receipt -/

theorem recoverable_receiptFor {b : Hold} {trip : Trip} {now : Int} {receipt : Receipt}
    (h : receiptFor b trip now = .ok receipt) : Recoverable b trip receipt := by
  obtain ⟨-, -, -, hcoach, hlabel, hadvice⟩ := buildReceipt_prints h
  exact ⟨hcoach.symm, hlabel.symm, (Except.ok.inj hadvice).symm⟩

/-- What a new sale printed is in the store exactly when its seat is named by its id, or, standing, it was
    advised no seat. -/
theorem storedInFull_sale {w : World} {t p n : String} {leg : Leg} {c : TravelClass} {reference : Option String}
    {deps : Deps} {g : Gateway} {a : Admission} {receipt : Receipt} (hnew : replayed w.holds reference = none)
    (ha : Admits deps (w.swept deps.now) w.trips t leg p c a)
    (hbuilt : buildReceipt (ticketOf deps t leg p n c reference a) a.trip deps.now a.seat a.offer a.pool =
    .ok receipt) :
    StoredInFull w ⟨.sell t leg p n c reference, deps, g⟩ ↔
      Recoverable (ticketOf deps t leg p n c reference a) a.trip receipt := by
  obtain ⟨-, -, -, hcoach, hlabel, hadvice⟩ := buildReceipt_prints hbuilt
  have hfull : StoredInFull w ⟨.sell t leg p n c reference, deps, g⟩ ↔
      (∀ i seat, chooseSeat (poolLegsOf (w.swept deps.now) t a.pool) leg = some i → a.pool[i]? = some seat →
        NamesSeat a.trip seat) ∧
      (chooseSeat (poolLegsOf (w.swept deps.now) t a.pool) leg = none →
        (∀ seatLegs ∈ poolLegsOf (w.swept deps.now) t a.pool, ∃ l ∈ seatLegs, l.contains (leg.destSeq - 1) = true) ∧
        ∀ seat ∈ a.trip.seats, seat.seatId ≠ "") := by
    simp only [StoredInFull, hnew, ha.found, ha.pool, Except.ok.injEq, forall_const, forall_eq']
  rw [hfull]
  rcases ha.assignment with ⟨i, hi, hseat, hoffer⟩ | ⟨hnone, hseat, hoffer⟩
  · -- seated: the receipt prints the chosen seat, the store its id
    obtain ⟨legs, hlegs, -⟩ := chooseSeat_some hi
    obtain ⟨seat, hget, -⟩ := poolLegsOf_get hlegs
    have hseat' : a.seat = some seat := hseat.trans hget
    have hid : (ticketOf deps t leg p n c reference a).seatId = seat.seatId := by simp [ticketOf, soldTicket, hseat']
    rw [hoffer] at hadvice
    rw [hseat'] at hcoach hlabel
    constructor
    · rintro ⟨hnames, -⟩
      obtain ⟨s, hs, hc, hl⟩ := hnames i seat hi hget
      rw [← hid] at hs
      exact ⟨by simp [hs, hc, hcoach], by simp [hs, hl, hlabel], (Except.ok.inj hadvice).symm⟩
    · intro hrecover
      refine ⟨fun j other hj hother => ?_, fun hno => absurd (hi.symm.trans hno) (by simp)⟩
      obtain rfl : i = j := Option.some.inj (hi.symm.trans hj)
      obtain rfl : seat = other := Option.some.inj (hget.symm.trans hother)
      obtain ⟨s, hs, hc⟩ := Option.map_eq_some_iff.mp (hrecover.coach.trans hcoach)
      have hl := hrecover.label.trans hlabel
      rw [hs] at hl
      exact ⟨s, hid ▸ hs, hc, Option.some.inj hl⟩
  · -- standing: no seat on the receipt, the empty id in the store
    have hid : (ticketOf deps t leg p n c reference a).seatId = "" := by simp [ticketOf, soldTicket, hseat]
    have hnowhere : (a.trip.seats.find? fun s => s.seatId = (ticketOf deps t leg p n c reference a).seatId) = none ↔
        ∀ seat ∈ a.trip.seats, seat.seatId ≠ "" := by
      simp [hid, List.find?_eq_none]
    have hunadvised : receipt.standing = none ↔
        ∀ seatLegs ∈ poolLegsOf (w.swept deps.now) t a.pool, ∃ l ∈ seatLegs, l.contains (leg.destSeq - 1) = true := by
      rw [← bestOffer_none_iff, ← hoffer]
      cases ho : a.offer with
      | none =>
          rw [ho] at hadvice
          simp [(Except.ok.inj hadvice).symm]
      | some o =>
          rw [ho] at hadvice
          obtain ⟨station, -, hadvice⟩ := bind_ok hadvice
          cases hget : a.pool[o.seatIndex]? with
          | none =>
              rw [hget] at hadvice
              cases hadvice
          | some seat =>
              rw [hget] at hadvice
              simp [(Except.ok.inj hadvice).symm]
    rw [hseat] at hcoach hlabel
    constructor
    · rintro ⟨-, hstands⟩
      obtain ⟨hlast, hunnamed⟩ := hstands hnone
      have hfind := hnowhere.mpr hunnamed
      exact ⟨by rw [hfind, hcoach], by rw [hfind, hlabel], hunadvised.mpr hlast⟩
    · intro hrecover
      refine ⟨fun i seat hi => absurd (hnone.symm.trans hi) (by simp), fun _ => ⟨hunadvised.mp hrecover.unadvised, ?_⟩⟩
      exact hnowhere.mp (Option.map_eq_none_iff.mp (hrecover.coach.trans hcoach))

/-- **The booking behind a receipt**: paid, stored, and printed in full exactly when the store has it all. -/
theorem issued_ticket {w : World} {r : Request} {receipt : Receipt} (hk : Keyed MemoryRepo.idOf w.holds)
    (hissued : w.issued r = some receipt) (hticket : receipt.status = .confirmed ∨ receipt.status = .standing) :
    ∃ b trip seat offer pool, lookup MemoryRepo.idOf b.bookingId (w.serve r).2.holds = some b ∧
      b.bookingId = receipt.bookingId ∧ (b.status = .confirmed ∨ b.status = .standing) ∧
      MemoryRepo.getTrip w.trips b.tripId = .ok trip ∧
      buildReceipt b trip r.deps.now seat offer pool = .ok receipt ∧
      (StoredInFull w r ↔ Recoverable b trip receipt) := by
  obtain ⟨call, deps, g⟩ := r
  have hok : ∀ {x : Except Err Receipt}, x.toOption = some receipt → x = .ok receipt := by
    intro x hx
    cases x with
    | error e => cases hx
    | ok y => rw [Option.some.inj hx]
  cases call with
  | confirm id =>
      have hret := hok hissued
      rcases confirmBooking_outcome (World.block_pair g (confirmBooking deps id) w) with
        ⟨-, ⟨e, herr⟩, -⟩ | ⟨hold, trip, hc, hbuilt, hw⟩
      · cases hret.symm.trans herr
      · have hreceipt := hbuilt.symm.trans hret
        refine ⟨_, trip, _, _, _, ?_, (buildReceipt_prints hreceipt).2.2.1.symm, Or.inl rfl, hc.runs, hreceipt, ?_⟩
        · change lookup _ _ (w.block g (confirmBooking deps id)).2.holds = _
          rw [hw.holds]
          exact lookup_put_self _ _
        · exact iff_of_true trivial (recoverable_receiptFor hreceipt)
  | sell t leg p n c reference =>
      have hret := hok hissued
      rcases sellUnreserved_outcome (World.block_pair g (sellUnreserved deps t leg p n c reference) w) with
        ⟨hrep, hsame⟩ | ⟨-, -, ⟨e, herr⟩, -⟩ | ⟨hnew, a, hc, ⟨e, -, herr, -⟩ | ⟨holds, hadd, hbuilt, hw⟩⟩
      · -- the receipt of a replay was printed from the store itself
        cases reference with
        | none => exact absurd rfl hrep
        | some q =>
            obtain ⟨b, hb⟩ := Option.ne_none_iff_exists'.mp hrep
            have hfind : MemoryRepo.byReference w.holds q = some b := hb
            have hserved := (serve_replay_sale (t := t) (p := p) (n := n) (c := c) (g := g) hfind).symm.trans hret
            obtain ⟨trip, htrip, hreceipt⟩ := bind_ok hserved
            have hprints := buildReceipt_prints hreceipt
            rw [hprints.1] at hticket
            refine ⟨b, trip, _, _, _, ?_, hprints.2.2.1.symm, hticket, htrip, hreceipt, ?_⟩
            · change lookup _ _ (w.block g (sellUnreserved deps t leg p n c (some q))).2.holds = _
              rw [hsame.holds]
              exact lookup_of_mem hk (List.mem_of_find?_eq_some hfind)
            · exact iff_of_true (fun hnone => absurd hnone hrep) (recoverable_receiptFor hreceipt)
      · cases hret.symm.trans herr
      · cases hret.symm.trans herr
      · -- the receipt of a new sale was printed from the admission
        have hreceipt := hbuilt.symm.trans hret
        have hprints := buildReceipt_prints hreceipt
        rw [hprints.1] at hticket
        refine ⟨_, a.trip, _, _, _, ?_, hprints.2.2.1.symm, hticket, hc.admitted.found, hreceipt,
          storedInFull_sale hnew hc.admitted hreceipt⟩
        change lookup _ _ (w.block g (sellUnreserved deps t leg p n c reference)).2.holds = _
        rw [hw.holds, (MemoryRepo.addHold_ok hadd).1]
        exact lookup_put_self _ _
  | _ => cases hissued

/-- **When a ticket reprints as it was sold.** After any later run that does not cancel it, exactly when
    everything it prints is in the store. -/
theorem reprint_iff (trips : List Trip) (past later : List Request) (r : Request) (receipt : Receipt)
    (hfresh : FreshDraws (past ++ r :: later)) (hissued : ((World.start trips).after past).issued r = some receipt)
    (hticket : receipt.status = .confirmed ∨ receipt.status = .standing)
    (hcancel : ∀ x ∈ later, x.call ≠ .cancel receipt.bookingId) :
    Reprints ((World.start trips).after (past ++ r :: later)) receipt ↔
      StoredInFull ((World.start trips).after past) r := by
  have hsplit : past ++ r :: later = (past ++ [r]) ++ later := by simp
  have hids := hfresh.ids
  rw [hsplit, List.map_append] at hids
  have hidsPast := (List.nodup_append.mp hids).1
  rw [List.map_append] at hidsPast
  have hrun := run_safe trips past (List.nodup_append.mp hidsPast).1
  obtain ⟨b, trip, seat, offer, pool, hstored, hid, hpaid, htrip, hbuilt, hiff⟩ :=
    issued_ticket hrun.safe.keyed hissued hticket
  rw [hiff]
  have hnotHeld : b.status ≠ .held := by rcases hpaid with hs | hs <;> rw [hs] <;> decide
  -- the ids of later requests are not the ticket's
  have hdrawn : b.bookingId ∈ (past ++ [r]).map (·.deps.newId) := by
    apply (run_safe trips (past ++ [r]) (by rwa [List.map_append])).ids b
    rw [World.after_snoc]
    exact lookup_some_mem hstored
  have hkept := kept_after later hstored fun x hx => by
    refine ⟨fun hheld => absurd hheld hnotHeld, hid ▸ hcancel x hx, fun heq => ?_⟩
    exact (List.nodup_append.mp hids).2.2 _ hdrawn x.deps.newId (List.mem_map_of_mem hx) heq.symm
  have hworld : (World.start trips).after (past ++ r :: later) =
      (((World.start trips).after past).serve r).2.after later := by
    rw [World.after_append, World.after_cons]
  have hkeyed := (@referenced_after trips _ hfresh).keyed
  rw [hworld] at hkeyed ⊢
  refine reprints_iff (lookup_some_mem hkept) hkeyed hpaid ?_ hbuilt
  rw [trips_after, show (((World.start trips).after past).serve r).2.trips = ((World.start trips).after past).trips from
    trips_after _ [r]]
  exact htrip

/-! ## Two sales of one seat -/

/-- The unreserved seat goes over the first hop. -/
def seatedSale : Request := ⟨.sell "slow" firstHop "nic1" "Nimal" .third none, sampleDeps 100 "1", acceptAll⟩

/-- A passenger over the whole line stands, and is advised the seat from Kandy on. -/
def advisedSale : Request := ⟨.sell "slow" wholeLine "nic2" "Kamala" .third none, sampleDeps 110 "2", acceptAll⟩

theorem reprint_iff_seated : ∃ receipt, (World.start sampleTrips).issued seatedSale = some receipt ∧
    Reprints ((World.start sampleTrips).after [seatedSale, advisedSale]) receipt := by
  have hissued : (((World.start sampleTrips).issued seatedSale).map Receipt.status) = some .confirmed := by
    decide +kernel
  obtain ⟨receipt, hreceipt, hstatus⟩ := Option.map_eq_some_iff.mp hissued
  refine ⟨receipt, hreceipt, ?_⟩
  apply (reprint_iff sampleTrips [] [advisedSale] seatedSale receipt ⟨by decide, by decide⟩ hreceipt (Or.inl hstatus)
    (by simp [advisedSale])).mpr
  intro _ trip htrip
  have hslow : MemoryRepo.getTrip (World.start sampleTrips).trips "slow" =
      .ok (sampleTrip "slow" [originStop, middleStop, terminusStop]) := by decide +kernel
  obtain rfl := Except.ok.inj (hslow.symm.trans htrip)
  have hchosen : chooseSeat (poolLegsOf ((World.start sampleTrips).swept 100) "slow"
      (unreservedPool (sampleTrip "slow" [originStop, middleStop, terminusStop]) .third)) firstHop = some 0 := by
    decide +kernel
  constructor
  · intro i seat hi hseat
    obtain rfl : 0 = i := Option.some.inj (hchosen.symm.trans hi)
    obtain rfl : (⟨"U1", "U", .unreserved, .third, 1, 1, "A"⟩ : Seat) = seat := Option.some.inj hseat
    exact ⟨⟨"U1", "U", .unreserved, .third, 1, 1, "A"⟩, by decide +kernel, rfl, rfl⟩
  · intro hnone
    cases hchosen.symm.trans hnone

/-- The ticket says where a seat frees; the gate prints it without. -/
theorem advice_lost_on_reprint : ∃ receipt,
    ((World.start sampleTrips).after [seatedSale]).issued advisedSale = some receipt ∧ receipt.status = .standing ∧
      ¬ Reprints ((World.start sampleTrips).after [seatedSale, advisedSale]) receipt := by
  have hissued : ((((World.start sampleTrips).after [seatedSale]).issued advisedSale).map
      fun receipt => (receipt.reference, receipt.status, receipt.standing)) =
        some ("SLR-2", .standing, some ⟨1, "Kandy", "1A"⟩) := by decide +kernel
  have hgate : (((World.start sampleTrips).after [seatedSale, advisedSale]).serve
      ⟨.verify "SLR-2", sampleDeps 120 "3", acceptAll⟩).1.toOption.map (fun v => v.receipt.standing) = some none := by
    decide +kernel
  obtain ⟨receipt, hreceipt, hprinted⟩ := Option.map_eq_some_iff.mp hissued
  simp only [Prod.mk.injEq] at hprinted
  obtain ⟨href, hstatus, hstanding⟩ := hprinted
  refine ⟨receipt, hreceipt, hstatus, fun hreprints => ?_⟩
  have hagain := hreprints.1 (sampleDeps 120 "3") acceptAll
  rw [href] at hagain
  rw [hagain] at hgate
  have hnone : receipt.standing = none := Option.some.inj hgate
  rw [hstanding] at hnone
  cases hnone

end SlrBooking
