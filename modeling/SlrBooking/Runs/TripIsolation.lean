import SlrBooking.Runs.LazyExpiry
import SlrBooking.Runs.Bystanders

/-!
# `Runs.TripIsolation` — the traffic of other trains makes no difference

All trips share one store, one id space and one space of references. The calls about one trip are nevertheless
answered as if no other trip had ever been booked: prices, caps, free seats, standing room and all. Two facts carry
it. A request about a trip overlooks the bookings of the others (`Runs.Bystanders`); a request about another trip
does no more to this one than retire what is overdue (`Runs.LazyExpiry`).

## Contents
- `AboutTrip`, `Elsewhere`: requests of the trip, and requests that cannot touch it.
- `serve_about`, `serve_elsewhere`: what each of them does to the two runs.
- `trip_isolated`: the run lemma.
-/

namespace SlrBooking

open Theory Rows

/-- The bookings of one trip. -/
def onlyTrip (t : String) (holds : List Hold) : List Hold := holds.filter fun h => h.tripId = t

/-- The request asks about trip `t` alone, and every booking it names is one of `t`. -/
structure AboutTrip (t : String) (holds : List Hold) (r : Request) : Prop where
  onTrip   : ∀ t', r.onTrip = some t' → t' = t
  bounded  : r.searches = false
  mentions : ∀ h ∈ holds, r.mentions h → h.tripId = t

/-- The request books on another trip, and no booking it names is one of `t`. -/
structure Elsewhere (t : String) (holds : List Hold) (r : Request) : Prop where
  onTrip   : r.onTrip ≠ some t
  mentions : ∀ h ∈ holds, r.mentions h → h.tripId ≠ t

section Serve

variable {t : String} {holds : List Hold} {w v : World} {r : Request} {T : Int}

/-- A request about a trip overlooks the bookings of the others. -/
theorem AboutTrip.overlooks (h : AboutTrip t holds r) :
    Overlooks r (fun x => x.tripId = t) (fun x => x.tripId ≠ t ∧ ¬ r.mentions x) where
  restatus := fun _ _ => rfl
  placed := fun x hname => by simpa using h.onTrip x.tripId hname.2.2
  overlooked := by
    rintro x - ⟨hother, hmention⟩
    refine ⟨hmention, fun hsees => ?_⟩
    rcases hsees with htrip | hsearch
    · exact absurd (h.onTrip x.tripId htrip) hother
    · rw [h.bounded] at hsearch
      cases hsearch
  retired := by
    rintro x ⟨hother, hmention⟩
    rcases MemoryRepo.retire_cases r.deps.now x with he | ⟨-, he⟩
    · rw [he]
      exact ⟨hother, hmention⟩
    · rw [he]
      exact ⟨hother, hmention⟩

/-- **A request of the trip**, served among all the bookings and served among those of the trip alone. -/
theorem serve_about (h : AboutTrip t w.holds r) (hT : T ≤ r.deps.now) (htimely : Timely v.holds r)
    (hlag : Lag T (onlyTrip t w.holds) v.holds) (htrips : w.trips = v.trips) :
    (w.serve r).1 = (v.serve r).1 ∧ Lag r.deps.now (onlyTrip t (w.serve r).2.holds) (v.serve r).2.holds ∧
      (w.serve r).2.trips = (v.serve r).2.trips := by
  -- the world with the trip's own bookings only stands between the two
  have hshorn : Abreast (Shorn (fun x => x.tripId = t) fun x => x.tripId ≠ t ∧ ¬ r.mentions x) (fun _ _ => True) w
      (w.withHolds (onlyTrip t w.holds)) := by
    refine ⟨⟨rfl, fun x hx hdrop => ?_⟩, rfl, trivial⟩
    have hother : x.tripId ≠ t := by simpa using hdrop
    exact ⟨hother, fun hm => hother (h.mentions x hx hm)⟩
  obtain ⟨hans, hmiddle⟩ := serve_shorn joint_any h.overlooks hshorn
  have hbehind : Abreast (Lag T) (fun _ _ => True) (w.withHolds (onlyTrip t w.holds)) v := ⟨hlag, htrips, trivial⟩
  obtain ⟨hans', hend⟩ := serve_lagging joint_any hT hbehind htimely
  refine ⟨hans.trans hans', ?_, hmiddle.trips.trans hend.trips⟩
  have hlast := hend.holds
  rw [hmiddle.holds.1] at hlast
  exact hlast

/-- A sweep of everything, seen on one trip. -/
theorem onlyTrip_swept (t : String) (w : World) (now : Int) :
    onlyTrip t (w.swept now) = (MemoryRepo.expireDue (onlyTrip t w.holds) now).2 := by
  show (w.holds.map (MemoryRepo.retire now)).filter _ = (w.holds.filter _).map (MemoryRepo.retire now)
  rw [List.filter_map]
  congr 1
  refine List.filter_congr fun h _ => ?_
  rcases MemoryRepo.retire_cases now h with he | ⟨-, he⟩
  · simp [he]
  · simp [he]

theorem swept_mention {now : Int} {b : Hold} (hb : b ∈ w.swept now) :
    ∃ h ∈ w.holds, h.tripId = b.tripId ∧ (r.mentions b ↔ r.mentions h) := by
  obtain ⟨h, hh, rfl⟩ := mem_swept.mp hb
  rcases MemoryRepo.retire_cases now h with he | ⟨-, he⟩
  · exact ⟨h, hh, by rw [he], by rw [he]⟩
  · exact ⟨h, hh, by rw [he], by rw [he]; exact Iff.rfl⟩

/-- Writing a booking of another trip, over one of another trip. -/
theorem onlyTrip_put {b : Hold} (hb : b.tripId ≠ t) (h : ∀ x ∈ holds, x.bookingId = b.bookingId → x.tripId ≠ t) :
    onlyTrip t (put MemoryRepo.idOf b holds) = onlyTrip t holds :=
  put_filter_out (by simpa using hb) fun x hx he => by simpa using h x hx he

theorem onTrip_of_asksFor {p : String} (h : r.asksFor = some (t, p)) : r.onTrip = some t := by
  obtain ⟨call, deps, g⟩ := r
  cases call with
  | hold t' => exact congrArg some (Prod.mk.inj (Option.some.inj h)).1
  | sell t' => exact congrArg some (Prod.mk.inj (Option.some.inj h)).1
  | _ => cases h

/-- **A request elsewhere** does to the trip what a sweep does, or nothing. -/
theorem Elsewhere.leaves (h : Elsewhere t w.holds r) : onlyTrip t (w.serve r).2.holds = onlyTrip t w.holds ∨
    onlyTrip t (w.serve r).2.holds = (MemoryRepo.expireDue (onlyTrip t w.holds) r.deps.now).2 := by
  have hswept : ∀ b : Hold, b.tripId ≠ t → (∀ x : Hold, x.bookingId = b.bookingId → r.mentions x) →
      onlyTrip t (put MemoryRepo.idOf b (w.swept r.deps.now)) =
        (MemoryRepo.expireDue (onlyTrip t w.holds) r.deps.now).2 := by
    intro b hb hname
    rw [onlyTrip_put hb fun x hx he => ?_, onlyTrip_swept]
    obtain ⟨y, hy, htrip, hiff⟩ := swept_mention (r := r) hx
    exact htrip ▸ h.mentions y hy (hiff.mp (hname x he))
  cases serve_effect w r with
  | idle same _ => exact Or.inl (by rw [same.holds])
  | swept _ wrote => exact Or.inr (by rw [wrote.holds, onlyTrip_swept])
  | @inserted b charges holds booked added wrote =>
      refine Or.inr ?_
      rw [wrote.holds, (MemoryRepo.addHold_ok added).1]
      refine hswept b (fun he => h.onTrip ?_) fun x hx => Or.inr (Or.inr (hx.trans booked.id))
      rw [← he]
      exact onTrip_of_asksFor booked.asked
  | lost _ _ _ wrote => exact Or.inl (by rw [wrote.holds])
  | @confirmed id hold trip call charged wrote =>
      refine Or.inr ?_
      have hid : hold.bookingId = id := lookup_some_key charged.found
      have hname : ∀ x : Hold, x.bookingId = hold.bookingId → r.mentions x := fun x hx => Or.inl (by
        rw [Request.subject, call, hx, hid])
      rw [wrote.holds]
      exact hswept _ (h.mentions hold (lookup_some_mem charged.found) (hname hold rfl)) hname
  | @cancelled id hold call found edge done wrote =>
      refine Or.inl ?_
      have hid : hold.bookingId = id := lookup_some_key found
      have hname : ∀ x : Hold, x.bookingId = hold.bookingId → r.mentions x := fun x hx => Or.inl (by
        rw [Request.subject, call, hx, hid])
      rw [wrote.holds]
      exact onlyTrip_put (h.mentions hold (lookup_some_mem found) (hname hold rfl)) fun x hx he =>
        h.mentions x hx (hname x he)

/-- A read of any trip does no more either. -/
theorem reads_leave (hr : r.reads = true) : onlyTrip t (w.serve r).2.holds = onlyTrip t w.holds ∨
    onlyTrip t (w.serve r).2.holds = (MemoryRepo.expireDue (onlyTrip t w.holds) r.deps.now).2 := by
  rcases World.sweep_outcome (reads_program hr) (World.block_pair r.gateway _ w) with hsame | hwrote
  · exact Or.inl (congrArg (onlyTrip t) hsame.holds)
  · exact Or.inr ((congrArg (onlyTrip t) hwrote.holds).trans (onlyTrip_swept t w _))

/-- **A request of no concern to the trip** puts the full run at most a sweep ahead. -/
theorem serve_elsewhere (h : r.reads = true ∨ Elsewhere t w.holds r) (hT : T ≤ r.deps.now)
    (hlag : Lag T (onlyTrip t w.holds) v.holds) (htrips : w.trips = v.trips) :
    Lag r.deps.now (onlyTrip t (w.serve r).2.holds) v.holds ∧ (w.serve r).2.trips = v.trips := by
  refine ⟨?_, (trips_after w [r]).trans htrips⟩
  have hnow := hlag.later hT
  rcases h.elim (fun hr => reads_leave (t := t) hr) Elsewhere.leaves with he | he
  · rw [he]
    exact hnow
  · rw [he]
    exact hnow.sweep

end Serve

/-! ## Runs -/

/-- Marked requests are of trip `t` and timely in the run of their own, from `v`; the others, in the full run from
    `w`, only read or stay elsewhere. -/
def TripRun (t : String) : World → World → List (Bool × Request) → Prop
  | _, _, [] => True
  | w, v, (true, r) :: later =>
      AboutTrip t w.holds r ∧ Timely v.holds r ∧ TripRun t (w.serve r).2 (v.serve r).2 later
  | w, v, (false, r) :: later =>
      (r.reads = true ∨ Elsewhere t w.holds r) ∧ TripRun t (w.serve r).2 v later

/-- With `later` of `steps` still to come: on the trip, the full run is ahead of the other by a sweep at the last
    clock seen. -/
structure AheadOn (t : String) (steps later : List (Bool × Request)) (u v : World) : Prop where
  within : ∀ step ∈ later, step ∈ steps
  clock  : later.Pairwise fun a b => a.2.deps.now ≤ b.2.deps.now
  run    : TripRun t u v later
  trips  : u.trips = v.trips
  lag    : ∃ seen ∈ steps, (∀ step ∈ later, seen.2.deps.now ≤ step.2.deps.now) ∧
      Lag seen.2.deps.now (onlyTrip t u.holds) v.holds

namespace AheadOn

variable {t : String} {steps later : List (Bool × Request)} {u v : World} {r : Request}

theorem marked (h : AheadOn t steps ((true, r) :: later) u v) :
    (u.serve r).1 = (v.serve r).1 ∧ AheadOn t steps later (u.serve r).2 (v.serve r).2 := by
  obtain ⟨hhead, htail⟩ := List.pairwise_cons.mp h.clock
  obtain ⟨seen, hseen, hpast, hlag⟩ := h.lag
  obtain ⟨habout, htimely, hrest⟩ := h.run
  obtain ⟨hans, hnext, htrips⟩ := serve_about habout (hpast _ List.mem_cons_self) htimely hlag h.trips
  exact ⟨hans, fun step hs => h.within step (List.mem_cons_of_mem _ hs), htail, hrest, htrips,
    (true, r), h.within _ List.mem_cons_self, hhead, hnext⟩

theorem other (h : AheadOn t steps ((false, r) :: later) u v) : AheadOn t steps later (u.serve r).2 v := by
  obtain ⟨hhead, htail⟩ := List.pairwise_cons.mp h.clock
  obtain ⟨seen, hseen, hpast, hlag⟩ := h.lag
  obtain ⟨helsewhere, hrest⟩ := h.run
  obtain ⟨hnext, htrips⟩ := serve_elsewhere helsewhere (hpast _ List.mem_cons_self) hlag h.trips
  exact ⟨fun step hs => h.within step (List.mem_cons_of_mem _ hs), htail, hrest, htrips,
    (false, r), h.within _ List.mem_cons_self, hhead, hnext⟩

end AheadOn

/-- **Trips are isolated.** In any run, the requests about one trip are answered as if the bookings of every other
    trip had never been made and the requests about them never sent; once swept, the trip's bookings are the same. -/
theorem trip_isolated (t : String) (w : World) (steps : List (Bool × Request))
    (hclock : steps.Pairwise fun a b => a.2.deps.now ≤ b.2.deps.now)
    (hrun : TripRun t w (w.withHolds (onlyTrip t w.holds)) steps) :
    Service.heard World.serve w steps =
        Service.replies World.serve (w.withHolds (onlyTrip t w.holds)) (Service.marked steps) ∧
      ∀ now, (∀ step ∈ steps, step.2.deps.now ≤ now) → onlyTrip t ((w.after (Service.all steps)).swept now) =
        ((w.withHolds (onlyTrip t w.holds)).after (Service.marked steps)).swept now := by
  cases steps with
  | nil => exact ⟨rfl, fun now _ => onlyTrip_swept t w now⟩
  | cons first rest =>
      have hstart : AheadOn t (first :: rest) (first :: rest) w (w.withHolds (onlyTrip t w.holds)) :=
        ⟨fun _ hs => hs, hclock, hrun, rfl, first, List.mem_cons_self,
          fun step hs => (List.mem_cons.mp hs).elim (fun he => he ▸ le_refl _) ((List.pairwise_cons.mp hclock).1 step),
          Lag.refl _ _⟩
      obtain ⟨hheard, hend⟩ := Service.heard_eq_replies World.serve (I := AheadOn t (first :: rest))
        (fun _ _ _ _ h => h.marked) (fun _ _ _ _ h => h.other) hstart
      obtain ⟨seen, hseen, -, hlag⟩ := hend.lag
      refine ⟨hheard, fun now hnow => ?_⟩
      rw [onlyTrip_swept]
      exact (hlag.later (hnow seen hseen)).swept

def slowHold : Request := ⟨.hold "slow" "A1" firstHop "nic1" "Nimal" none, sampleDeps 0 "1", acceptAll⟩

def expressHold : Request := ⟨.hold "express" "A1" wholeLine "nic1" "Nimal" none, sampleDeps 5 "2", acceptAll⟩

def slowConfirm : Request := ⟨.confirm "b1", sampleDeps 10 "3", acceptAll⟩

/-- The same passenger books the same seat of the express meanwhile. -/
theorem trip_isolated_sample :
    Service.heard World.serve (World.start sampleTrips) [(true, slowHold), (false, expressHold), (true, slowConfirm)] =
      Service.replies World.serve (World.start sampleTrips) [slowHold, slowConfirm] := by
  have hclock : [(true, slowHold), (false, expressHold), (true, slowConfirm)].Pairwise
      fun a b => a.2.deps.now ≤ b.2.deps.now := by decide
  refine (trip_isolated "slow" (World.start sampleTrips) _ hclock ⟨⟨?_, rfl, ?_⟩, ?_, Or.inr ⟨?_, ?_⟩, ⟨?_, rfl, ?_⟩,
    ?_, trivial⟩).1
  · rintro t' ht
    exact (Option.some.inj ht).symm
  · exact fun h hh => absurd hh List.not_mem_nil
  · exact fun h hh => absurd hh List.not_mem_nil
  · decide
  · decide +kernel
  · rintro t' ht
    cases ht
  · decide +kernel
  · rintro h _ _ hpeek
    cases hpeek

end SlrBooking
