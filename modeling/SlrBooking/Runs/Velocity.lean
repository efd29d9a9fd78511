import SlrBooking.Runs.Verdicts
import SlrBooking.Domain.Policy

/-!
# `Runs.Velocity` — the anti-tout gate against the velocity rule, over whole runs

The gate counts the passenger's active bookings on the trip asked for. The rule counts every booking of the
passenger. They agree while nothing young has been cancelled, has expired, stands, or is on another trip.

## Contents
- `bookingTimes`: the passenger's full list. `VelocityKept`: the law of a run.
- `GateSeesAll`: the condition on a step.
- `velocity_step`; `velocity_kept`: the run theorem. `velocity_by_cancelling`: the run that breaks the law.
-/

namespace SlrBooking

open Theory Rows

/-- When the passenger's bookings were created: seated or standing, on any trip, in any status. -/
def bookingTimes (holds : List Hold) (passengerId : String) : List Int :=
  (holds.filter fun h => h.passengerId = passengerId).map (·.createdAt)

/-- No window of the run holds more than `limit` bookings of one passenger, and every new booking is one the rule
    admits on the passenger's full list. -/
structure VelocityKept (trips : List Trip) (requests : List Request) (window limit : Int) : Prop where
  bounded  : ∀ passengerId t,
      (recentBookings (bookingTimes ((World.start trips).after requests).holds passengerId) t window : Int) ≤ limit
  admitted : ∀ before r later, requests = before ++ r :: later →
      ∀ b ∈ ((World.start trips).after (before ++ [r])).holds,
        b.bookingId ∉ ((World.start trips).after before).holds.map (·.bookingId) →
        withinVelocity (bookingTimes ((World.start trips).after before).holds b.passengerId) r.deps.now window limit =
          .ok true

/-- If the gate admits the request, it has counted every booking of the passenger younger than the window. The gate
    reads the active bookings of one trip, so a cancelled one, or one on another trip, escapes it. -/
def GateSeesAll (window : Int) (w : World) (r : Request) : Prop :=
  ∀ tripId passengerId, r.asksFor = some (tripId, passengerId) → replayed w.holds r.clientReference = none →
    antiTout r.deps passengerId r.deps.now (MemoryRepo.activeForPassenger (w.swept r.deps.now) tripId passengerId) =
      .ok () →
    ∀ h ∈ w.swept r.deps.now, h.passengerId = passengerId → r.deps.now - window < h.createdAt →
      h.tripId = tripId ∧ h.status.isActive = true

/-- The two limits are what the configuration says during every request. -/
def Configured (requests : List Request) (window limit : Int) : Prop :=
  ∀ r ∈ requests, r.deps.getInt velocityWindow = .ok window ∧ r.deps.getInt maxBookingsPerWindow = .ok limit

/-! ## One booking -/

/-- The gate that admits has counted fewer young bookings than the limit. -/
theorem recent_of_antiTout {deps : Deps} {passengerId : String} {now window limit : Int} {active : List Hold}
    (hwindow : deps.getInt velocityWindow = .ok window) (hlimit : deps.getInt maxBookingsPerWindow = .ok limit)
    (h : antiTout deps passengerId now active = .ok ()) :
    (active.countP (fun h => h.createdAt > now - window) : Int) < limit := by
  unfold antiTout at h
  obtain ⟨cap, -, h⟩ := bind_ok h
  by_cases hcap : (active.length : Int) ≥ cap
  · rw [if_pos hcap] at h
    cases h
  · rw [if_neg hcap] at h
    obtain ⟨window', hwindow', h⟩ := bind_ok h
    obtain ⟨limit', hlimit', h⟩ := bind_ok h
    obtain rfl := Except.ok.inj (hwindow.symm.trans hwindow')
    obtain rfl := Except.ok.inj (hlimit.symm.trans hlimit')
    by_contra hfull
    have hlen : ((active.filter fun h => h.createdAt > now - window).length : Int) ≥ limit := by
      rw [← List.countP_eq_length_filter]
      omega
    dsimp only at h
    rw [if_pos hlen] at h
    cases h

theorem bookingTimes_map {holds : List Hold} {f : Hold → Hold} (hf : ∀ b, ∃ s, f b = { b with status := s })
    (passengerId : String) : bookingTimes (holds.map f) passengerId = bookingTimes holds passengerId := by
  have hpass : ∀ b, (f b).passengerId = b.passengerId := fun b => by obtain ⟨s, hs⟩ := hf b; rw [hs]
  have hcreated : ∀ b, (f b).createdAt = b.createdAt := fun b => by obtain ⟨s, hs⟩ := hf b; rw [hs]
  unfold bookingTimes
  rw [List.filter_map, List.map_map]
  simp only [Function.comp_def, hpass, hcreated]

theorem bookingTimes_snoc (holds : List Hold) (b : Hold) (passengerId : String) :
    bookingTimes (holds ++ [b]) passengerId =
      bookingTimes holds passengerId ++ if b.passengerId = passengerId then [b.createdAt] else [] := by
  unfold bookingTimes
  rw [List.filter_append, List.map_append, List.filter_singleton]
  by_cases h : b.passengerId = passengerId <;> simp [h]

theorem bookingTimes_swept (w : World) (now : Int) (passengerId : String) :
    bookingTimes (w.swept now) passengerId = bookingTimes w.holds passengerId := by
  refine bookingTimes_map (fun b => ?_) passengerId
  rcases MemoryRepo.retire_cases now b with he | ⟨-, he⟩
  · exact ⟨b.status, he⟩
  · exact ⟨_, he⟩

/-- What a request adds to the times of a passenger's bookings: nothing, or the time of the one booking it asked for,
    which is the only new one. -/
inductive Books (w : World) (r : Request) (w' : World) : Prop where
  | none (ids : ∀ x ∈ w'.holds, x.bookingId ∈ w.holds.map (·.bookingId))
      (times : ∀ p, bookingTimes w'.holds p = bookingTimes w.holds p)
  | one {b : Hold} {charges : List (String × Money)} (booked : Booked w r b charges)
      (ids : ∀ x ∈ w'.holds, x.bookingId ∉ w.holds.map (·.bookingId) → x = b)
      (times : ∀ p, bookingTimes w'.holds p =
        bookingTimes w.holds p ++ if b.passengerId = p then [r.deps.now] else [])

/-- **What a request does to the passengers' lists.** -/
theorem Effect.books {w w' : World} {r : Request} (h : Effect w r w') (hk : Keyed MemoryRepo.idOf w.holds)
    (hfresh : r.deps.newId ∉ w.holds.map (·.bookingId)) : Books w r w' := by
  have hkept : ∀ x ∈ w.swept r.deps.now, x.bookingId ∈ w.holds.map (·.bookingId) := by
    intro x hx
    obtain ⟨y, hy, rfl⟩ := mem_swept.mp hx
    rw [MemoryRepo.retire_bookingId]
    exact List.mem_map_of_mem hy
  cases h with
  | idle same _ => exact .none (fun x hx => List.mem_map_of_mem (same.holds ▸ hx)) fun p => by rw [same.holds]
  | lost _ _ _ wrote => exact .none (fun x hx => List.mem_map_of_mem (wrote.holds ▸ hx)) fun p => by rw [wrote.holds]
  | swept _ wrote =>
      refine .none (fun x hx => hkept x (wrote.holds ▸ hx)) fun p => ?_
      rw [wrote.holds, bookingTimes_swept]
  | @inserted b charges holds booked added wrote =>
      have hid : b.bookingId ∉ (w.swept r.deps.now).map (·.bookingId) := by
        intro hin
        obtain ⟨x, hx, hxid⟩ := List.mem_map.mp hin
        exact hfresh (booked.id ▸ hxid ▸ hkept x hx)
      have hholds : w'.holds = w.swept r.deps.now ++ [b] := by
        rw [wrote.holds, (MemoryRepo.addHold_ok added).1, put_of_fresh hid]
      refine .one booked (fun x hx hnew => ?_) fun p => ?_
      · rw [hholds] at hx
        rcases List.mem_append.mp hx with hx | hx
        · exact absurd (hkept x hx) hnew
        · exact List.mem_singleton.mp hx
      · rw [hholds, bookingTimes_snoc, bookingTimes_swept, booked.created]
  | @confirmed id hold trip call charged wrote =>
      have hkeyed : Keyed MemoryRepo.idOf (w.swept r.deps.now) := MemoryRepo.expireDue_keyed hk _
      have hholds := wrote.holds
      rw [put_status hkeyed charged.swept] at hholds
      refine .none (fun x hx => ?_) fun p => ?_
      · rw [hholds] at hx
        obtain ⟨y, hy, rfl⟩ := List.mem_map.mp hx
        obtain ⟨s, hs⟩ := setTo_restatus hold.bookingId .confirmed y
        rw [hs]
        exact hkept y hy
      · -- the times do not depend on the status
        rw [hholds, bookingTimes_map (setTo_restatus _ _), bookingTimes_swept]
  | @cancelled id hold call found edge done wrote =>
      have hholds := wrote.holds
      rw [put_status hk (lookup_some_mem found)] at hholds
      refine .none (fun x hx => ?_) fun p => ?_
      · rw [hholds] at hx
        obtain ⟨y, hy, rfl⟩ := List.mem_map.mp hx
        obtain ⟨s, hs⟩ := setTo_restatus hold.bookingId .cancelled y
        rw [hs]
        exact List.mem_map.mpr ⟨y, hy, rfl⟩
      · rw [hholds, bookingTimes_map (setTo_restatus _ _)]

/-- A gate that sees all admits what the rule admits. -/
theorem Booked.within {w : World} {r : Request} {b : Hold} {charges : List (String × Money)} {window limit : Int}
    (hb : Booked w r b charges) (hwindow : r.deps.getInt velocityWindow = .ok window)
    (hlimit : r.deps.getInt maxBookingsPerWindow = .ok limit) (hgate : GateSeesAll window w r) :
    (recentBookings (bookingTimes w.holds b.passengerId) r.deps.now window : Int) < limit := by
  have hcounted := recent_of_antiTout hwindow hlimit hb.allowed
  have hsees := hgate _ _ hb.asked hb.unknown hb.allowed
  have hle : recentBookings (bookingTimes w.holds b.passengerId) r.deps.now window ≤
      (MemoryRepo.activeForPassenger (w.swept r.deps.now) b.tripId b.passengerId).countP
        fun h => h.createdAt > r.deps.now - window := by
    rw [← bookingTimes_swept w r.deps.now]
    unfold recentBookings bookingTimes MemoryRepo.activeForPassenger
    rw [List.countP_map, List.countP_filter, List.countP_filter]
    refine List.countP_mono_left fun x hx h => ?_
    simp only [Function.comp_apply, Bool.and_eq_true, decide_eq_true_eq] at h ⊢
    obtain ⟨htrip, hactive⟩ := hsees x hx h.2 h.1.1
    exact ⟨h.1.1, ⟨htrip, h.2⟩, hactive⟩
  omega

/-! ## The run -/

/-- The last request of a run under fresh ids. -/
theorem books_snoc (trips : List Trip) (rs : List Request) (r : Request)
    (hids : ((rs ++ [r]).map (·.deps.newId)).Nodup) :
    Books ((World.start trips).after rs) r ((World.start trips).after (rs ++ [r])) := by
  rw [List.map_append] at hids
  obtain ⟨hbefore, -, hapart⟩ := List.nodup_append.mp hids
  have hrun := run_safe trips rs hbefore
  have hnew : r.deps.newId ∉ ((World.start trips).after rs).holds.map (·.bookingId) := by
    intro hin
    obtain ⟨h, hh, he⟩ := List.mem_map.mp hin
    exact hapart _ (hrun.ids h hh) r.deps.newId (List.mem_singleton.mpr rfl) he
  have heffect := serve_effect ((World.start trips).after rs) r
  rw [← World.after_snoc] at heffect
  exact heffect.books hrun.safe.keyed hnew

/-- No booking is younger than every request of the run. -/
theorem bookingTimes_past (trips : List Trip) (requests : List Request)
    (hids : (requests.map (·.deps.newId)).Nodup) (passengerId : String) :
    ∀ t ∈ bookingTimes ((World.start trips).after requests).holds passengerId, ∃ r ∈ requests, t ≤ r.deps.now := by
  induction requests using List.reverseRecOn with
  | nil =>
      intro t ht
      cases ht
  | append_singleton rs r ih =>
      have hbefore : (rs.map (·.deps.newId)).Nodup := by
        rw [List.map_append] at hids
        exact (List.nodup_append.mp hids).1
      have hold : ∀ t ∈ bookingTimes ((World.start trips).after rs).holds passengerId, ∃ x ∈ rs ++ [r],
          t ≤ x.deps.now := by
        intro t ht
        obtain ⟨x, hx, hxt⟩ := ih hbefore t ht
        exact ⟨x, List.mem_append_left _ hx, hxt⟩
      intro t ht
      cases books_snoc trips rs r hids with
      | none ids times =>
          rw [times] at ht
          exact hold t ht
      | @one b charges booked ids times =>
          rw [times] at ht
          rcases List.mem_append.mp ht with ht | ht
          · exact hold t ht
          · refine ⟨r, List.mem_append_right _ (List.mem_singleton.mpr rfl), ?_⟩
            by_cases hp : b.passengerId = passengerId
            · rw [if_pos hp] at ht
              rw [List.mem_singleton.mp ht]
            · rw [if_neg hp] at ht
              cases ht

/-- **Step lemma.** A request that books only where the passenger's list has room keeps the rule. -/
theorem velocity_step {trips : List Trip} {rs : List Request} {r : Request} {window limit : Int}
    (hbooks : Books ((World.start trips).after rs) r ((World.start trips).after (rs ++ [r])))
    (hwindow : 0 < window)
    (hpast : ∀ p, ∀ t ∈ bookingTimes ((World.start trips).after rs).holds p, t ≤ r.deps.now)
    (hroom : ∀ b charges, Booked ((World.start trips).after rs) r b charges →
      (recentBookings (bookingTimes ((World.start trips).after rs).holds b.passengerId) r.deps.now window : Int) <
        limit)
    (hkept : VelocityKept trips rs window limit) : VelocityKept trips (rs ++ [r]) window limit := by
  cases hbooks with
  | none ids times =>
      refine ⟨fun p t => ?_, fun before x later heq b hb hbnew => ?_⟩
      · rw [times]
        exact hkept.bounded p t
      · rcases snoc_cases heq with ⟨later', rfl, hrs⟩ | ⟨rfl, rfl, rfl⟩
        · exact hkept.admitted before x later' hrs b hb hbnew
        · exact absurd (ids b hb) hbnew
  | @one b charges booked ids times =>
      have hfits := hroom b charges booked
      refine ⟨fun p t => ?_, fun before x later heq c hc hcnew => ?_⟩
      · rw [times]
        by_cases hp : b.passengerId = p
        · subst hp
          rw [if_pos rfl]
          exact recentBookings_snoc_le (hpast _) hfits (hkept.bounded _) t
        · rw [if_neg hp, List.append_nil]
          exact hkept.bounded p t
      · rcases snoc_cases heq with ⟨later', rfl, hrs⟩ | ⟨rfl, rfl, rfl⟩
        · exact hkept.admitted before x later' hrs c hc hcnew
        · rw [ids c hc hcnew]
          exact (withinVelocity_true hwindow).mpr hfits

/-- **The velocity rule over whole runs.** If every request the gate admits finds all young bookings of its
    passenger counted, then no window of the run ever holds more than the limit, and the rule admits every new
    booking on the passenger's full list. -/
theorem velocity_kept (trips : List Trip) (requests : List Request) (window limit : Int)
    (hids : (requests.map (·.deps.newId)).Nodup)
    (hclock : requests.Pairwise fun r r' => r.deps.now ≤ r'.deps.now)
    (hconfig : Configured requests window limit) (hwindow : 0 < window) (hlimit : 0 ≤ limit)
    (hgate : ∀ before r later, requests = before ++ r :: later →
      GateSeesAll window ((World.start trips).after before) r) :
    VelocityKept trips requests window limit := by
  induction requests using List.reverseRecOn with
  | nil =>
      refine ⟨fun p t => ?_, fun before r later h => ?_⟩
      · show ((0 : Nat) : Int) ≤ limit
        exact hlimit
      · simp at h
  | append_singleton rs r ih =>
      have hbefore : (rs.map (·.deps.newId)).Nodup := by
        rw [List.map_append] at hids
        exact (List.nodup_append.mp hids).1
      obtain ⟨hclock', -, hlast⟩ := List.pairwise_append.mp hclock
      have hkept : VelocityKept trips rs window limit :=
        ih hbefore hclock' (fun x hx => hconfig x (List.mem_append_left _ hx))
          fun before x later h => hgate before x (later ++ [r]) (by rw [h]; simp)
      refine velocity_step (books_snoc trips rs r hids) hwindow (fun p t ht => ?_) (fun b charges hb => ?_) hkept
      · obtain ⟨x, hx, hxt⟩ := bookingTimes_past trips rs hbefore p t ht
        exact hxt.trans (hlast x hx r (List.mem_singleton.mpr rfl))
      · obtain ⟨hwin, hlim⟩ := hconfig r (List.mem_append_right _ (List.mem_singleton.mpr rfl))
        exact hb.within hwin hlim (hgate rs r [] rfl)

def holdA1 : Request := ⟨.hold "slow" "A1" wholeLine "nic1" "Nimal" none, sampleDeps 0 "1", acceptAll⟩

def holdA2 : Request := ⟨.hold "slow" "A2" wholeLine "nic1" "Nimal" none, sampleDeps 10 "2", acceptAll⟩

/-- One passenger books two seats of a train. -/
def twoSeats : List Request := [holdA1, holdA2]

theorem configured_sample {requests : List Request} (h : ∀ r ∈ requests, r.deps.getInt = (sampleDeps 0 "").getInt) :
    Configured requests 600 3 := by
  intro r hr
  rw [h r hr]
  exact ⟨rfl, rfl⟩

theorem velocity_kept_sample : Configured twoSeats 600 3 ∧ VelocityKept sampleTrips twoSeats 600 3 := by
  have hconfig : Configured twoSeats 600 3 := configured_sample (by simp [twoSeats, holdA1, holdA2, sampleDeps])
  refine ⟨hconfig, velocity_kept sampleTrips twoSeats 600 3 (by decide) (by decide) hconfig (by decide) (by decide) ?_⟩
  have hslow : ∀ h ∈ ((World.start sampleTrips).after [holdA1]).swept 10,
      h.tripId = "slow" ∧ h.status.isActive = true := by decide +kernel
  intro before r later heq
  have htwo : [holdA1] ++ [holdA2] = before ++ r :: later := heq
  rcases snoc_cases htwo with ⟨later', -, hfirst⟩ | ⟨rfl, rfl, -⟩
  · have hone : [] ++ [holdA1] = before ++ r :: later' := hfirst
    rcases snoc_cases hone with ⟨_, _, hnil⟩ | ⟨rfl, rfl, -⟩
    · simp at hnil
    · intro t p _ _ _ h hh
      cases hh
  · intro t p hasks _ _ h hh _ _
    obtain ⟨rfl, -⟩ := Prod.mk.inj (Option.some.inj hasks)
    exact hslow h hh

/-- One passenger holds and cancels, again and again. -/
def holdAndCancel : List Request :=
  [⟨.hold "slow" "A1" wholeLine "nic1" "Nimal" none, sampleDeps 0 "1", acceptAll⟩,
   ⟨.cancel "b1", sampleDeps 10 "2", acceptAll⟩,
   ⟨.hold "slow" "A1" wholeLine "nic1" "Nimal" none, sampleDeps 20 "3", acceptAll⟩,
   ⟨.cancel "b3", sampleDeps 30 "4", acceptAll⟩,
   ⟨.hold "slow" "A1" wholeLine "nic1" "Nimal" none, sampleDeps 40 "5", acceptAll⟩,
   ⟨.cancel "b5", sampleDeps 50 "6", acceptAll⟩,
   ⟨.hold "slow" "A1" wholeLine "nic1" "Nimal" none, sampleDeps 60 "7", acceptAll⟩]

/-- The gate admits a fourth booking within a window of three: it does not count the cancelled ones. -/
theorem velocity_by_cancelling :
    ¬ ∀ trips requests window limit, (requests.map (·.deps.newId)).Nodup →
      requests.Pairwise (fun r r' => r.deps.now ≤ r'.deps.now) → Configured requests window limit → 0 < window →
      0 ≤ limit → VelocityKept trips requests window limit := by
  intro h
  have hconfig : Configured holdAndCancel 600 3 := configured_sample (by simp [holdAndCancel, sampleDeps])
  have hkept := h sampleTrips holdAndCancel 600 3 (by decide) (by decide) hconfig (by decide) (by decide)
  have hfour : (recentBookings
      (bookingTimes ((World.start sampleTrips).after holdAndCancel).holds "nic1") 60 600 : Int) = 4 := by decide +kernel
  have hbound := hkept.bounded "nic1" 60
  rw [hfour] at hbound
  exact absurd hbound (by decide)

end SlrBooking
