import SlrBooking.Concurrent.Guards

/-!
# `Concurrent.Announcements` — nothing changes on a stretch of a trip unannounced, sweeps apart

What the guarded transactions leave on the server: a booking keeps its trip, its seat and its leg, whatever becomes
of its status; a standing ticket never takes a seat later on. So a commit that changes which bookings are active on a
stretch of a trip has published about the trip before, unless it retires a booking of the stretch by a sweep
(`Announces.commit_quiet`).

The stretch is a predicate on the bookings of one trip (`Stretch`). The threads enter by what their logs say (`Sight`),
so the invariant serves any pool of guarded programs on the server.

## Contents
- `SamePlace`, `Stretch`, `Moves`: what a booking keeps, and how a written version relates to the committed one.
- `Lifeless`: a booking that no transaction will make active any more.
- `Announces`: the invariant. `Announces.act`, `Announces.close`: what a statement and the end of a request keep.
- `Announces.commit_quiet`: a commit that has not published about the trip changes nothing on the stretch.
-/

namespace SlrBooking

open Theory Rows

/-! ## Places -/

/-- The trip, the seat and the leg of a booking. -/
structure SamePlace (a b : BookingRow) : Prop where
  trip : a.tripId = b.tripId
  seat : a.seatId = b.seatId
  leg  : a.leg = b.leg

theorem SamePlace.refl (a : BookingRow) : SamePlace a a := ⟨rfl, rfl, rfl⟩

theorem SamePlace.symm {a b : BookingRow} (h : SamePlace a b) : SamePlace b a := ⟨h.trip.symm, h.seat.symm, h.leg.symm⟩

theorem SamePlace.trans {a b c : BookingRow} (h : SamePlace a b) (h' : SamePlace b c) : SamePlace a c :=
  ⟨h.trip.trans h'.trip, h.seat.trans h'.seat, h.leg.trans h'.leg⟩

/-- A stretch of a trip: which bookings are for a part of it. They are all bookings of that trip, so a transaction that
    has announced nothing about the trip should alter none of them. -/
structure Stretch where
  tripId : String
  covers : BookingRow → Bool
  onTrip : ∀ row, covers row = true → row.tripId = tripId

/-- The booking is active on the stretch. -/
def Stretch.takes (D : Stretch) (row : BookingRow) : Bool := row.status.isActive && D.covers row

/-- A written version against the committed row it will replace: on the same place, no longer HELD or STANDING, and
    EXPIRED only where the row took nothing of the stretch. -/
structure Moves (D : Stretch) (a b : BookingRow) : Prop where
  place   : SamePlace a b
  changed : b.status ≠ .held ∧ b.status ≠ .standing
  swept   : b.status = .expired → D.takes a = false

theorem Stretch.takes_inactive (D : Stretch) {row : BookingRow} (h : row.status.isActive = false) :
    D.takes row = false := by
  unfold takes
  rw [h, Bool.false_and]

/-! ## The invariant -/

/-- The booking is committed and over, or a standing ticket; so is every version of it in doubt, and whoever has read
    it has read it so. -/
structure Lifeless (s : Server) (sight : Nat → Sight) (id : String) : Prop where
  stored  : ∃ c ∈ s.db.committed, c.bookingId = id ∧ c.status.isActive = false
  pending : ∀ e ∈ s.db.pending, e.2.bookingId = id → e.2.status.isActive = false
  found   : ∀ u row, (id, row) ∈ (sight u).found → row.status.isActive = false

/-- **The invariant of guarded transactions**, as long as no sweep retires a booking that is active on the stretch: what
    a transaction has in doubt and has not announced makes no difference on the stretch. -/
structure Announces (D : Stretch) (s : Server) (sight : Nat → Sight) : Prop where
  sound    : Db.Sound bookingTable s.db
  moves    : Db.Tracks bookingTable (Moves D) s.db
  expiries : ∀ t, (sight t).wrote = false → ∀ x ∈ s.db.own t,
    x.status = .expired ∧ ∃ c ∈ s.db.committed, c.bookingId = x.bookingId
  written  : ∀ t, ∀ x ∈ s.db.own t, x ∈ (sight t).added ∨ x.bookingId ∈ (sight t).changed ∨ x.status = .expired
  found    : ∀ t id row, (id, row) ∈ (sight t).found → ∃ c ∈ s.db.committed, c.bookingId = id ∧ SamePlace c row
  read     : ∀ t id row, (id, row) ∈ (sight t).found → row.status = .standing → Lifeless s sight id
  standing : ∀ c ∈ s.db.committed, c.status = .standing → Lifeless s sight c.bookingId

theorem announces_start (D : Stretch) (trips : List Trip) : Announces D (Server.start trips) fun _ => {} where
  sound := Db.sound_empty
  moves := by
    intro p hp
    cases hp
  expiries _ _ _ hx := absurd hx List.not_mem_nil
  written _ _ hx := absurd hx List.not_mem_nil
  found _ _ _ h := absurd h List.not_mem_nil
  read _ _ _ h := absurd h List.not_mem_nil
  standing _ h := absurd h List.not_mem_nil

/-- One thread has learnt something. -/
def learnt (sight : Nat → Sight) (t : Nat) (l : Sight) : Nat → Sight := fun u => if u = t then l else sight u

@[simp] theorem learnt_self {sight : Nat → Sight} {t : Nat} {l : Sight} : learnt sight t l t = l := if_pos rfl

theorem learnt_ne {sight : Nat → Sight} {t u : Nat} {l : Sight} (hu : u ≠ t) : learnt sight t l u = sight u := if_neg hu

section Statements

variable {D : Stretch} {scan : Scan} {gateway : Gateway} {s s' : Server} {sight : Nat → Sight} {t : Nat}
  {e : Event Stmts Err}

/-! ## The written versions of a booking

A transaction sees its own versions over the committed rows. Every version stands where the committed row of its
booking stands, so a statement can only move a booking along on its place, and what it read tells how far. -/

/-- Two committed rows of one booking are one. -/
theorem Announces.same (h : Announces D s sight) {a b : BookingRow} (ha : a ∈ s.db.committed)
    (hb : b ∈ s.db.committed) (hid : a.bookingId = b.bookingId) : a = b :=
  eq_of_key_eq h.sound.keyed ha hb hid

/-- A version in doubt against the committed row. -/
theorem Announces.moved (h : Announces D s sight) {x c : BookingRow} (hx : x ∈ s.db.own t) (hc : c ∈ s.db.committed)
    (hid : c.bookingId = x.bookingId) : Moves D c x := by
  have hlook : lookup BookingRow.bookingId c.bookingId s.db.committed = some c := lookup_of_mem h.sound.keyed hc
  rw [hid] at hlook
  exact h.moves (t, x) (Db.mem_own.mp hx) c hlook

/-- What a transaction sees stands where the committed row of that booking stands. -/
theorem Announces.view_place (h : Announces D s sight) {x c : BookingRow} (hx : x ∈ s.view t)
    (hc : c ∈ s.db.committed) (hid : c.bookingId = x.bookingId) : SamePlace c x := by
  rcases h.sound.mem_view.mp hx with hown | ⟨hstored, -⟩
  · exact (h.moved hown hc hid).place
  · rw [h.same hc hstored hid]
    exact SamePlace.refl x

/-- What a statement adds to the rows read by id: the row the transaction sees. -/
theorem found_effect (heffect : Server.Effect scan gateway t s e s') {id : String} {row : BookingRow}
    (hrow : (id, row) ∈ ((sight t).note e.op e.ans).found) :
    (id, row) ∈ (sight t).found ∨ (row ∈ s.view t ∧ row.bookingId = id ∧ e.op = .selectById id) := by
  cases heffect with
  | @selectById id' =>
      cases hlook : lookup BookingRow.bookingId id' (s.view t) with
      | none =>
          rw [hlook] at hrow
          exact Or.inl hrow
      | some row' =>
          rw [hlook] at hrow
          rcases List.mem_append.mp hrow with hrow | hrow
          · exact Or.inl hrow
          · obtain ⟨rfl, rfl⟩ := Prod.mk.inj (List.mem_singleton.mp hrow)
            exact Or.inr ⟨lookup_some_mem hlook, lookup_some_key hlook, rfl⟩
  | @select f => exact Or.inl (by cases f <;> exact hrow)
  | committed => exact absurd hrow List.not_mem_nil
  | @missing id' status _ | @updated id' status _ _ _ _ =>
      refine Or.inl ?_
      dsimp only [Sight.note] at hrow
      split at hrow <;> exact hrow
  | @aside o a ho =>
      refine Or.inl ?_
      cases o with
      | selectTrip | selectTrips | publish | notify => exact hrow
      | _ => exact ho.elim
  | _ => exact Or.inl hrow

/-! ## Lifeless bookings

A booking that is over is over for every transaction: the guards allow no update that would revive it, whoever has
read it and whenever. -/

/-- The status that a guarded update gives a booking. -/
theorem guard_target {l : Sight} {id : String} {status : BookingStatus} (hguard : Guard l (.updateStatus id status)) :
    status ≠ .held ∧ status ≠ .standing := by
  rcases hguard with ⟨rfl, -⟩ | ⟨row, -, hedge⟩
  · decide
  · rcases BookingSm.edge_iff.mp hedge with ⟨-, rfl | rfl | rfl⟩ | ⟨-, rfl⟩ | ⟨-, rfl⟩ <;> decide

/-- A guarded update of a lifeless booking leaves it lifeless. -/
theorem Lifeless.target {id : String} (h : Lifeless s sight id) {status : BookingStatus}
    (hguard : Guard (sight t) (.updateStatus id status)) : status.isActive = false := by
  rcases hguard with ⟨rfl, -⟩ | ⟨row, hrow, hedge⟩
  · rfl
  · -- an edge to an active status starts at one, and what was read is over
    by_contra hactive
    have hbefore := BookingSm.active_of_edge hedge (by simpa using hactive)
    rw [h.found t row hrow] at hbefore
    cases hbefore

/-- **Lifeless bookings stay lifeless.** -/
theorem Lifeless.act {id : String} (h : Lifeless s sight id) (hs : Db.Sound bookingTable s.db)
    (heffect : Server.Effect scan gateway t s e s') (hguard : Guard (sight t) e.op) :
    Lifeless s' (learnt sight t ((sight t).note e.op e.ans)) id := by
  obtain ⟨c, hc, hid, hover⟩ := h.stored
  have hview : ∀ x ∈ s.view t, x.bookingId = id → x.status.isActive = false := by
    intro x hx hxid
    rcases hs.mem_view.mp hx with hown | ⟨hstored, -⟩
    · exact h.pending (t, x) (Db.mem_own.mp hown) hxid
    · rw [eq_of_key_eq hs.keyed hstored hc (hxid.trans hid.symm)]
      exact hover
  have hfound : ∀ u row, (id, row) ∈ (learnt sight t ((sight t).note e.op e.ans) u).found →
      row.status.isActive = false := by
    intro u row hrow
    by_cases hu : u = t
    · subst hu
      rw [learnt_self] at hrow
      rcases found_effect heffect hrow with hrow | ⟨hrow, hrowid, -⟩
      · exact h.found u row hrow
      · exact hview row hrow hrowid
    · rw [learnt_ne hu] at hrow
      exact h.found u row hrow
  cases heffect with
  | @inserted row db hfresh hw =>
      refine ⟨⟨c, (Db.committed_write hw).symm ▸ hc, hid, hover⟩, fun p hp hpid => ?_, hfound⟩
      rcases (Db.mem_pending_write hw).mp hp with rfl | ⟨hp, -⟩
      · -- a committed booking is visible, and its id is taken
        exfalso
        have hlook : lookup BookingRow.bookingId c.bookingId s.db.committed = some c := lookup_of_mem hs.keyed hc
        refine hfresh ?_
        rw [show row.bookingId = c.bookingId from (show row.bookingId = id from hpid).trans hid.symm]
        exact hs.committed_visible hlook
      · exact h.pending p hp hpid
  | @updated id' status row db hrow hw =>
      refine ⟨⟨c, (Db.committed_write hw).symm ▸ hc, hid, hover⟩, fun p hp hpid => ?_, hfound⟩
      rcases (Db.mem_pending_write hw).mp hp with rfl | ⟨hp, -⟩
      · obtain rfl : id' = id := (lookup_some_key hrow).symm.trans hpid
        exact h.target hguard
      · exact h.pending p hp hpid
  | committed =>
      -- what is committed now is the version of `t`, if it has one
      refine ⟨?_, fun p hp hpid => h.pending p (Db.mem_pending_drop.mp hp).1 hpid, hfound⟩
      by_cases hown : c.bookingId ∈ (s.db.own t).map (·.bookingId)
      · obtain ⟨x, hx, hxid⟩ := List.mem_map.mp hown
        exact ⟨x, hs.mem_view.mpr (Or.inl hx), hxid.trans hid,
          h.pending (t, x) (Db.mem_own.mp hx) (hxid.trans hid)⟩
      · exact ⟨c, hs.mem_view_of_committed hc hown, hid, hover⟩
  | _ => exact ⟨⟨c, hc, hid, hover⟩, h.pending, hfound⟩

/-! ## One statement

The invariant after a statement, for the versions that the acting transaction has in doubt and for everybody else's.
-/

/-- What a statement leaves its transaction in doubt, by what the log then says. -/
theorem written_effect (heffect : Server.Effect scan gateway t s e s')
    (hwritten : ∀ x ∈ s.db.own t, x ∈ (sight t).added ∨ x.bookingId ∈ (sight t).changed ∨ x.status = .expired) :
    ∀ x ∈ s'.db.own t, x ∈ ((sight t).note e.op e.ans).added ∨ x.bookingId ∈ ((sight t).note e.op e.ans).changed ∨
      x.status = .expired := by
  cases heffect with
  | @inserted row db hfresh hw =>
      intro x hx
      rcases (Db.own_write hw).mp hx with rfl | ⟨hx, -⟩
      · exact Or.inl (List.mem_append_right _ (List.mem_singleton.mpr rfl))
      · exact (hwritten x hx).imp_left (List.mem_append_left _)
  | @updated id status row db hrow hw =>
      intro x hx
      obtain rfl : row.bookingId = id := lookup_some_key hrow
      dsimp only [Sight.note]
      by_cases hstatus : status = .expired
      · rw [if_pos hstatus]
        rcases (Db.own_write hw).mp hx with rfl | ⟨hx, -⟩
        · exact Or.inr (Or.inr hstatus)
        · exact hwritten x hx
      · rw [if_neg hstatus]
        rcases (Db.own_write hw).mp hx with rfl | ⟨hx, -⟩
        · exact Or.inr (Or.inl (List.mem_append_right _ (List.mem_singleton.mpr rfl)))
        · exact (hwritten x hx).imp_right (Or.imp_left (List.mem_append_left _))
  | committed =>
      intro x hx
      rw [show (s.db.commit bookingTable t).own t = [] from Db.own_drop_self] at hx
      exact absurd hx List.not_mem_nil
  | @missing id status _ =>
      intro x hx
      dsimp only [Sight.note]
      split
      · exact hwritten x hx
      · exact (hwritten x hx).imp_right (Or.imp_left (List.mem_append_left _))
  | @selectById id =>
      intro x hx
      cases lookup BookingRow.bookingId id (s.view t) <;> exact hwritten x hx
  | @select f =>
      intro x hx
      cases f <;> exact hwritten x hx
  | @aside o a ho =>
      intro x hx
      cases o with
      | selectTrip | selectTrips | publish | notify => exact hwritten x hx
      | _ => exact ho.elim
  | _ => exact hwritten

/-- As long as a transaction only expires, everything it has in doubt has a committed row under it. -/
theorem Announces.expiries_effect (h : Announces D s sight) (heffect : Server.Effect scan gateway t s e s')
    (hwrote : ((sight t).note e.op e.ans).wrote = false) : ∀ x ∈ s'.db.own t,
      x.status = .expired ∧ ∃ c ∈ s'.db.committed, c.bookingId = x.bookingId := by
  have hbefore : (sight t).wrote = false → s'.db.own t = s.db.own t → s'.db.committed = s.db.committed →
      ∀ x ∈ s'.db.own t, x.status = .expired ∧ ∃ c ∈ s'.db.committed, c.bookingId = x.bookingId := by
    intro hunwritten hown hcommitted x hx
    rw [hown] at hx
    rw [hcommitted]
    exact h.expiries t hunwritten x hx
  cases heffect with
  | inserted => cases hwrote
  | @updated id status row db hrow hw =>
      by_cases hstatus : status = .expired
      · subst hstatus
        intro x hx
        rw [Db.committed_write hw]
        rcases (Db.own_write hw).mp hx with rfl | ⟨hx, -⟩
        · refine ⟨rfl, ?_⟩
          -- the row expired is an expiry of its own, or a committed one
          rcases h.sound.mem_view.mp (lookup_some_mem hrow) with hown | ⟨hstored, -⟩
          · exact (h.expiries t hwrote row hown).2
          · exact ⟨row, hstored, rfl⟩
        · exact h.expiries t hwrote x hx
      · dsimp only [Sight.note] at hwrote
        rw [if_neg hstatus] at hwrote
        cases hwrote
  | committed =>
      intro x hx
      rw [show (s.db.commit bookingTable t).own t = [] from Db.own_drop_self] at hx
      exact absurd hx List.not_mem_nil
  | @missing id status _ =>
      refine hbefore ?_ rfl rfl
      dsimp only [Sight.note] at hwrote
      split at hwrote
      · exact hwrote
      · cases hwrote
  | @selectById id =>
      refine hbefore ?_ rfl rfl
      generalize lookup BookingRow.bookingId id (s.view t) = found at hwrote
      cases found <;> exact hwrote
  | @select f => exact hbefore (by cases f <;> exact hwrote) rfl rfl
  | @aside o a ho =>
      refine hbefore ?_ rfl rfl
      cases o with
      | selectTrip | selectTrips | publish | notify => exact hwrote
      | _ => exact ho.elim
  | _ => exact hbefore hwrote rfl rfl

/-- A statement moves a committed booking along, and never away. -/
theorem Announces.stays (h : Announces D s sight) (heffect : Server.Effect scan gateway t s e s') {c : BookingRow}
    (hc : c ∈ s.db.committed) : ∃ c' ∈ s'.db.committed, c'.bookingId = c.bookingId ∧ SamePlace c c' := by
  by_cases hop : e.op = .commit
  · cases heffect with
    | committed =>
        by_cases hown : c.bookingId ∈ (s.db.own t).map (·.bookingId)
        · obtain ⟨x, hx, hxid⟩ := List.mem_map.mp hown
          exact ⟨x, h.sound.mem_view.mpr (Or.inl hx), hxid, (h.moved hx hc hxid.symm).place⟩
        · exact ⟨c, h.sound.mem_view_of_committed hc hown, rfl, SamePlace.refl c⟩
    | @aside o a ho =>
        obtain rfl : o = .commit := hop
        exact ho.elim
    | _ => cases hop
  · rw [heffect.committed_kept hop]
    exact ⟨c, hc, rfl, SamePlace.refl c⟩

/-- A standing ticket that is committed has never been anything else. -/
theorem Announces.born_standing (h : Announces D s sight) {x : BookingRow} (hx : x ∈ s.db.own t)
    (hstanding : x.status = .standing) : Lifeless { s with db := s.db.commit bookingTable t } sight x.bookingId := by
  have hnone : ∀ c ∈ s.db.committed, c.bookingId ≠ x.bookingId := fun c hc hid =>
    (h.moved hx hc hid).changed.2 hstanding
  refine ⟨⟨x, h.sound.mem_view.mpr (Or.inl hx), rfl, by rw [hstanding]; rfl⟩, fun e he hid => ?_, fun u row hrow => ?_⟩
  · obtain ⟨hpending, hother⟩ := Db.mem_pending_drop.mp he
    exact absurd (congrArg Prod.fst (h.sound.pending_inj hpending (Db.mem_own.mp hx) hid)) hother
  · obtain ⟨c, hc, hid, -⟩ := h.found u _ row hrow
    exact absurd hid (hnone c hc)

/-- **A guarded statement keeps the invariant**, unless it retires a booking that is active on the stretch. -/
theorem Announces.act (h : Announces D s sight) (heffect : Server.Effect scan gateway t s e s')
    (hguard : Guard (sight t) e.op)
    (hsweep : ∀ id, e.op = .updateStatus id .expired → ∀ c ∈ s.db.committed, c.bookingId = id → D.takes c = false) :
    Announces D s' (learnt sight t ((sight t).note e.op e.ans)) := by
  refine ⟨heffect.sound h.sound, ?_, ?_, ?_, ?_, ?_, ?_⟩
  · cases heffect with
    | inserted hfresh hw => exact h.moves.write hw fun c hc => absurd (h.sound.committed_visible hc) hfresh
    | @updated id status row db hrow hw =>
        refine h.moves.write hw fun c hc => ?_
        obtain rfl : row.bookingId = id := lookup_some_key hrow
        have hid : c.bookingId = row.bookingId := lookup_some_key hc
        have hplace : SamePlace c row := h.view_place (lookup_some_mem hrow) (lookup_some_mem hc) hid
        refine ⟨⟨hplace.trip, hplace.seat, hplace.leg⟩, guard_target hguard, fun hexpired => ?_⟩
        exact hsweep _ (by rw [show status = .expired from hexpired]) c (lookup_some_mem hc) hid
    | committed => exact h.moves.commit h.sound t
    | _ => exact h.moves
  · intro u hwrote x hx
    by_cases hu : u = t
    · subst hu
      rw [learnt_self] at hwrote
      exact h.expiries_effect heffect hwrote x hx
    · rw [learnt_ne hu] at hwrote
      rw [heffect.own_others hu] at hx
      obtain ⟨hexpired, c, hc, hid⟩ := h.expiries u hwrote x hx
      obtain ⟨c', hc', hid', -⟩ := h.stays heffect hc
      exact ⟨hexpired, c', hc', hid'.trans hid⟩
  · intro u x hx
    by_cases hu : u = t
    · subst hu
      rw [learnt_self]
      exact written_effect heffect (h.written u) x hx
    · rw [learnt_ne hu]
      rw [heffect.own_others hu] at hx
      exact h.written u x hx
  · intro u id row hrow
    have hstored : ∃ c ∈ s.db.committed, c.bookingId = id ∧ SamePlace c row := by
      by_cases hu : u = t
      · subst hu
        rw [learnt_self] at hrow
        rcases found_effect heffect hrow with hrow | ⟨hview, rfl, hop⟩
        · exact h.found u id row hrow
        · rw [hop] at hguard
          rcases h.sound.mem_view.mp hview with hown | ⟨hstored, -⟩
          · obtain ⟨-, c, hc, hid⟩ := h.expiries u hguard row hown
            exact ⟨c, hc, hid, (h.moved hown hc hid).place⟩
          · exact ⟨row, hstored, rfl, SamePlace.refl row⟩
      · rw [learnt_ne hu] at hrow
        exact h.found u id row hrow
    obtain ⟨c, hc, hid, hplace⟩ := hstored
    obtain ⟨c', hc', hid', hplace'⟩ := h.stays heffect hc
    exact ⟨c', hc', hid'.trans hid, hplace'.symm.trans hplace⟩
  · intro u id row hrow hstanding
    have hlifeless : Lifeless s sight id := by
      by_cases hu : u = t
      · subst hu
        rw [learnt_self] at hrow
        rcases found_effect heffect hrow with hrow | ⟨hview, rfl, hop⟩
        · exact h.read u id row hrow hstanding
        · rw [hop] at hguard
          rcases h.sound.mem_view.mp hview with hown | ⟨hstored, -⟩
          · rw [(h.expiries u hguard row hown).1] at hstanding
            cases hstanding
          · exact h.standing row hstored hstanding
      · rw [learnt_ne hu] at hrow
        exact h.read u id row hrow hstanding
    exact hlifeless.act h.sound heffect hguard
  · intro c hc hstanding
    by_cases hold : c ∈ s.db.committed
    · exact (h.standing c hold hstanding).act h.sound heffect hguard
    · -- only a commit brings a new committed row
      have hop : e.op = .commit := by
        by_contra hop
        rw [heffect.committed_kept hop] at hc
        exact hold hc
      cases heffect with
      | committed =>
          rcases h.sound.mem_view.mp hc with hown | ⟨hstored, -⟩
          · obtain ⟨hstored, hpending, hfound⟩ := h.born_standing hown hstanding
            refine ⟨hstored, hpending, fun u row hrow => ?_⟩
            by_cases hu : u = t
            · rw [hu, learnt_self] at hrow
              exact absurd hrow List.not_mem_nil
            · rw [learnt_ne hu] at hrow
              exact hfound u row hrow
          · exact absurd hstored hold
      | @aside o a ho =>
          obtain rfl : o = .commit := hop
          exact ho.elim
      | _ => cases hop

/-! ## The end of a request, and its commit

A commit lands the versions of its own transaction only. What has not been published about makes no difference on the
stretch, so a silent commit leaves the stretch as it was. -/

/-- **The end of a request** takes back what it has not committed. -/
theorem Announces.close (h : Announces D s sight) (t : Nat) : Announces D (Server.close t s) sight where
  sound := h.sound.rollback t
  moves := h.moves.rollback t
  expiries u hwrote x hx := h.expiries u hwrote x (Db.own_drop.mp hx).1
  written u x hx := h.written u x (Db.own_drop.mp hx).1
  found := h.found
  read u id row hrow hstanding :=
    have hbefore := h.read u id row hrow hstanding
    ⟨hbefore.stored, fun e he => hbefore.pending e (Db.mem_pending_drop.mp he).1, hbefore.found⟩
  standing c hc hstanding :=
    have hbefore := h.standing c hc hstanding
    ⟨hbefore.stored, fun e he => hbefore.pending e (Db.mem_pending_drop.mp he).1, hbefore.found⟩

/-- What a commit has not published about is active on the stretch after it exactly where it was before. -/
theorem Announces.silent (h : Announces D s sight) (hann : (sight t).Announced) (huntold : D.tripId ∉ (sight t).told)
    {x : BookingRow} (hx : x ∈ s.db.own t) :
    D.takes x = true ↔ ∃ c ∈ s.db.committed, c.bookingId = x.bookingId ∧ D.takes c = true := by
  have hoff : ∀ row : BookingRow, row.tripId ∈ (sight t).told → D.takes row = false := by
    intro row htold
    cases hcovers : D.covers row with
    | false => rw [Stretch.takes, hcovers, Bool.and_false]
    | true => exact absurd (D.onTrip row hcovers ▸ htold) huntold
  have hneither : D.takes x = false → (∀ c ∈ s.db.committed, c.bookingId = x.bookingId → D.takes c = false) →
      (D.takes x = true ↔ ∃ c ∈ s.db.committed, c.bookingId = x.bookingId ∧ D.takes c = true) := by
    intro hno hstored
    rw [hno]
    refine ⟨fun htrue => Bool.noConfusion htrue, ?_⟩
    rintro ⟨c, hc, hid, htakes⟩
    rw [hstored c hc hid] at htakes
    cases htakes
  -- written by this transaction: a new row, a row moved along the machine, or one swept
  rcases h.written t x hx with hadded | hchanged | hexpired
  · by_cases hstanding : x.status = .standing
    · refine hneither (D.takes_inactive (by rw [hstanding]; rfl)) fun c hc hid => ?_
      exact absurd hstanding (h.moved hx hc hid).changed.2
    · refine hneither (hoff x (hann.added x hadded hstanding)) fun c hc hid => hoff c ?_
      rw [(h.moved hx hc hid).place.trip]
      exact hann.added x hadded hstanding
  · obtain ⟨row, hrow, hdone⟩ := hann.changed _ hchanged
    obtain ⟨c₀, hc₀, hid₀, hplace₀⟩ := h.found t _ row hrow
    have honly : ∀ c ∈ s.db.committed, c.bookingId = x.bookingId → c = c₀ := fun c hc hid =>
      h.same hc hc₀ (hid.trans hid₀.symm)
    rcases hdone with hstanding | htold
    · -- a standing ticket takes no seat, before or after
      have hlifeless := h.read t _ row hrow hstanding
      refine hneither (D.takes_inactive (hlifeless.pending (t, x) (Db.mem_own.mp hx) rfl)) fun c hc hid => ?_
      obtain ⟨c₁, hc₁, hid₁, hover⟩ := hlifeless.stored
      rw [h.same hc hc₁ (hid.trans hid₁.symm)]
      exact D.takes_inactive hover
    · have htrip : c₀.tripId ∈ (sight t).told := by
        rw [hplace₀.trip]
        exact htold
      refine hneither (hoff x ?_) fun c hc hid => hoff c ?_
      · rw [← (h.moved hx hc₀ hid₀).place.trip]
        exact htrip
      · rw [honly c hc hid]
        exact htrip
  · refine hneither (D.takes_inactive (by rw [hexpired]; rfl)) fun c hc hid => ?_
    exact (h.moved hx hc hid).swept hexpired

/-- Where no version in doubt makes a difference, the transaction sees the stretch as it is committed. -/
theorem Announces.view_agrees (h : Announces D s sight)
    (hsame : ∀ x ∈ s.db.own t, D.takes x = true ↔ ∃ c ∈ s.db.committed, c.bookingId = x.bookingId ∧ D.takes c = true)
    (P : BookingRow → Prop) (hP : ∀ a b, SamePlace a b → P a → P b) :
    (∃ row ∈ s.view t, D.takes row = true ∧ P row) ↔ ∃ row ∈ s.db.committed, D.takes row = true ∧ P row := by
  constructor
  · rintro ⟨row, hrow, htakes, hp⟩
    rcases h.sound.mem_view.mp hrow with hown | ⟨hstored, -⟩
    · obtain ⟨c, hc, hid, hctakes⟩ := (hsame row hown).mp htakes
      exact ⟨c, hc, hctakes, hP row c (h.moved hown hc hid).place.symm hp⟩
    · exact ⟨row, hstored, htakes, hp⟩
  · rintro ⟨c, hc, htakes, hp⟩
    by_cases hown : c.bookingId ∈ (s.db.own t).map (·.bookingId)
    · obtain ⟨x, hx, hxid⟩ := List.mem_map.mp hown
      refine ⟨x, h.sound.mem_view.mpr (Or.inl hx), (hsame x hx).mpr ⟨c, hc, hxid.symm, htakes⟩, ?_⟩
      exact hP c x (h.moved hx hc hxid.symm).place hp
    · exact ⟨c, h.sound.mem_view_of_committed hc hown, htakes, hp⟩

/-- **A commit that has not published about the trip** leaves the bookings that are active on the stretch as they
    are, place by place. -/
theorem Announces.commit_quiet (h : Announces D s sight) (hann : (sight t).Announced)
    (huntold : D.tripId ∉ (sight t).told) (P : BookingRow → Prop) (hP : ∀ a b, SamePlace a b → P a → P b) :
    (∃ row ∈ s.view t, D.takes row = true ∧ P row) ↔ ∃ row ∈ s.db.committed, D.takes row = true ∧ P row :=
  h.view_agrees (fun _ hx => h.silent hann huntold hx) P hP

/-- **A transaction that has only expired** sees the stretch as it is committed. -/
theorem Announces.reader_quiet (h : Announces D s sight) (hwrote : (sight t).wrote = false)
    (P : BookingRow → Prop) (hP : ∀ a b, SamePlace a b → P a → P b) :
    (∃ row ∈ s.view t, D.takes row = true ∧ P row) ↔ ∃ row ∈ s.db.committed, D.takes row = true ∧ P row := by
  refine h.view_agrees (fun x hx => ?_) P hP
  have hexpired := (h.expiries t hwrote x hx).1
  constructor
  · intro htakes
    rw [D.takes_inactive (by rw [hexpired]; rfl)] at htakes
    cases htakes
  · rintro ⟨c, hc, hid, htakes⟩
    rw [(h.moved hx hc hid).swept hexpired] at htakes
    cases htakes

end Statements

end SlrBooking
