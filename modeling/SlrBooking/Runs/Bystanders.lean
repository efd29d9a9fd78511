import SlrBooking.Runs.SideBySide

/-!
# `Runs.Bystanders` — bookings that make no difference

A request asks the store for a booking by id or by reference, for the active bookings of a trip, or for its standing
ones. A booking it does not ask for may as well not be there: the answer is the same and the rest of the store ends
the same. Cancelled and expired bookings are of this kind for every request that does not name them.

## Contents
- `Request.mentions`, `Request.sees`, `Overlooked`: when a request does not ask for a booking.
- `Shorn`: a store and the same store without some bookings. `serve_shorn`: one request, with them and without.
- `dead_bookings_inert`: the run lemma for cancelled and expired bookings.
-/

namespace SlrBooking

open Theory Rows

/-! ## What a request overlooks

A booking that the request does not mention and cannot see may be taken out of the store, or put in, without changing
the answer. -/

/-- Cancelled or expired: it occupies no seat and no standing room. -/
def BookingStatus.isDead : BookingStatus → Bool
  | .cancelled | .expired => true
  | _ => false

namespace Request

/-- The request asks for the booking by name, or may overwrite it. -/
def mentions (r : Request) (h : Hold) : Prop :=
  r.subject = some h.bookingId ∨ r.looksUp = some h.reference ∨ h.bookingId = r.deps.newId

instance (r : Request) (h : Hold) : Decidable (r.mentions h) := inferInstanceAs (Decidable (_ ∨ _ ∨ _))

/-- The request asks about the booking's trip. -/
def sees (r : Request) (h : Hold) : Prop := r.onTrip = some h.tripId ∨ r.searches = true

end Request

/-- The request does not ask for `h`. -/
def Overlooked (r : Request) (h : Hold) : Prop := ¬ r.mentions h ∧ (r.sees h → h.status.isDead = true)

/-- `b` is `a` without the bookings that `keep` drops, and what is dropped satisfies `J`. -/
def Shorn (keep : Hold → Bool) (J : Hold → Prop) (a b : List Hold) : Prop :=
  b = a.filter keep ∧ ∀ h ∈ a, keep h = false → J h

/-- What one request needs of `keep` and of the dropped bookings. -/
structure Overlooks (r : Request) (keep : Hold → Bool) (J : Hold → Prop) : Prop where
  restatus   : ∀ h s, keep { h with status := s } = keep h
  placed     : ∀ h, r.Names (.addHold h) → keep h = true
  overlooked : ∀ h, keep h = false → J h → Overlooked r h
  retired    : ∀ h, J h → J (MemoryRepo.retire r.deps.now h)

namespace Overlooks

variable {r : Request} {keep : Hold → Bool} {J : Hold → Prop} {a b : List Hold}

theorem keep_retire (ho : Overlooks r keep J) (now : Int) (h : Hold) : keep (MemoryRepo.retire now h) = keep h := by
  rcases MemoryRepo.retire_cases now h with he | ⟨-, he⟩
  · rw [he]
  · rw [he, ho.restatus]

/-- What is asked for is kept. -/
theorem kept (ho : Overlooks r keep J) (hab : Shorn keep J a b) {h : Hold} (hh : h ∈ a)
    (hasked : r.mentions h ∨ r.sees h ∧ h.status.isDead = false) : keep h = true := by
  by_contra hdrop
  have hfalse : keep h = false := by simpa using hdrop
  obtain ⟨hmention, hsee⟩ := ho.overlooked h hfalse (hab.2 h hh hfalse)
  rcases hasked with hm | ⟨hs, hd⟩
  · exact hmention hm
  · rw [hsee hs] at hd
    cases hd

/-- A question only the kept bookings answer. -/
theorem filter_eq {p : Hold → Bool} (ho : Overlooks r keep J) (hab : Shorn keep J a b)
    (hp : ∀ h, p h = true → r.sees h ∧ h.status.isDead = false) : a.filter p = b.filter p := by
  rw [hab.1, List.filter_filter]
  refine List.filter_congr fun h hh => ?_
  by_cases hph : p h = true
  · rw [hph, ho.kept hab hh (Or.inr (hp h hph)), Bool.and_true]
  · rw [show p h = false by simpa using hph, Bool.false_and]

theorem find_eq {p : Hold → Bool} (ho : Overlooks r keep J) (hab : Shorn keep J a b)
    (hp : ∀ h, p h = true → r.mentions h) : a.find? p = b.find? p := by
  rw [hab.1]
  exact (find_filter fun h hh hph => ho.kept hab hh (Or.inl (hp h hph))).symm

/-- Writing a kept booking to both. -/
theorem put (ho : Overlooks r keep J) (hab : Shorn keep J a b) {x : Hold} (hx : keep x = true)
    (hid : ∀ h, h.bookingId = x.bookingId → r.mentions h) :
    Shorn keep J (Rows.put MemoryRepo.idOf x a) (Rows.put MemoryRepo.idOf x b) := by
  refine ⟨?_, fun h hh hdrop => ?_⟩
  · rw [hab.1]
    exact (put_filter hx fun h hh he => ho.kept hab hh (Or.inl (hid h he))).symm
  · rcases mem_put_cases hh with rfl | hold
    · rw [hx] at hdrop
      cases hdrop
    · exact hab.2 h hold hdrop

theorem active_alive {h : Hold} (ha : h.status.isActive = true) : h.status.isDead = false := by
  cases hs : h.status <;> rw [hs] at ha <;> first | rfl | cases ha

/-- **The two stores agree on everything the request can ask.** -/
theorem agree (ho : Overlooks r keep J) {o : PortOp} (hname : r.Names o) : Agree portView (Shorn keep J) o := by
  cases o with
  | addHold hold =>
      intro a b hab
      -- only active bookings of the request's own trip can clash, and none of them is left out
      have hclash : MemoryRepo.overlapping a hold = MemoryRepo.overlapping b hold := by
        unfold MemoryRepo.overlapping MemoryRepo.activeForSeat
        rw [ho.filter_eq hab fun h hp => ?_]
        simp only [Bool.and_eq_true, decide_eq_true_eq] at hp
        exact ⟨Or.inl (hname.2.2.trans (congrArg some hp.1.1.symm)), active_alive hp.2⟩
      unfold MemoryRepo.addHold
      rw [hclash]
      cases MemoryRepo.overlapping b hold with
      | some existing => rfl
      | none => exact ho.put hab (ho.placed hold hname) fun h he => Or.inr (Or.inr (he.trans hname.1))
  | get id =>
      intro a b hab
      unfold MemoryRepo.get lookup
      rw [ho.find_eq hab fun h hp => Or.inl (by rw [show r.subject = some id from hname, ← of_decide_eq_true hp])]
  | byReference ref =>
      intro a b hab
      exact ho.find_eq hab fun h hp =>
        Or.inr (Or.inl (by rw [show r.looksUp = some ref from hname, ← of_decide_eq_true hp]))
  | setStatus id s =>
      intro a b hab
      have hmention : ∀ h : Hold, h.bookingId = id → r.mentions h := fun h he =>
        Or.inl (by rw [show r.subject = some id from hname, he])
      have hlook : lookup MemoryRepo.idOf id a = lookup MemoryRepo.idOf id b :=
        ho.find_eq hab fun h hp => hmention h (of_decide_eq_true hp)
      unfold MemoryRepo.setStatus
      rw [hlook]
      cases hfound : lookup MemoryRepo.idOf id b with
      | none => rfl
      | some x =>
          have hx : x.bookingId = id := lookup_some_key hfound
          -- the row comes from the shorn store, so it was kept
          have hkept : keep x = true := by
            have hmem := lookup_some_mem hfound
            rw [hab.1] at hmem
            exact (List.mem_filter.mp hmem).2
          refine ⟨rfl, ho.put hab ((ho.restatus x s).trans hkept) fun h he => hmention h (he.trans hx)⟩
  | activeForSeat t s =>
      intro a b hab
      refine ho.filter_eq hab fun h hp => ?_
      simp only [Bool.and_eq_true, decide_eq_true_eq] at hp
      exact ⟨Or.inl (by rw [show r.onTrip = some t from hname, hp.1.1]), active_alive hp.2⟩
  | activeForPassenger t p =>
      intro a b hab
      refine ho.filter_eq hab fun h hp => ?_
      simp only [Bool.and_eq_true, decide_eq_true_eq] at hp
      exact ⟨Or.inl (by rw [show r.onTrip = some t from hname, hp.1.1]), active_alive hp.2⟩
  | activeHolds t =>
      intro a b hab
      refine ho.filter_eq hab fun h hp => ?_
      simp only [Bool.and_eq_true, decide_eq_true_eq] at hp
      exact ⟨hname.imp_left fun ht => by rw [ht, hp.1], active_alive hp.2⟩
  | byStatus t s =>
      intro a b hab
      obtain ⟨ht, rfl⟩ : r.onTrip = some t ∧ s = .standing := hname
      refine ho.filter_eq hab fun h hp => ?_
      simp only [Bool.and_eq_true, decide_eq_true_eq] at hp
      exact ⟨Or.inl (by rw [ht, hp.1]), by rw [hp.2]; rfl⟩
  | expireDue now =>
      intro a b hab
      obtain rfl : now = r.deps.now := hname
      -- the sweep retires the rows that are left out too, and they stay left out
      refine ⟨trivial, ?_, fun h hh hdrop => ?_⟩
      · show b.map _ = (a.map _).filter keep
        rw [hab.1, List.filter_map]
        congr 1
        exact List.filter_congr fun h _ => (ho.keep_retire _ h).symm
      · obtain ⟨x, hx, rfl⟩ := List.mem_map.mp hh
        rw [ho.keep_retire] at hdrop
        exact ho.retired x (hab.2 x hx hdrop)
  | _ => trivial

end Overlooks

/-- **One request**, with the bookings it overlooks and without them. -/
theorem serve_shorn {r : Request} {keep : Hold → Bool} {J : Hold → Prop} {O : Outside → Outside → Prop} {w v : World}
    (hO : Joint O) (ho : Overlooks r keep J) (h : Abreast (Shorn keep J) O w v) :
    (w.serve r).1 = (v.serve r).1 ∧ Abreast (Shorn keep J) O (w.serve r).2 (v.serve r).2 :=
  agreeing_block r.gateway hO ((names_program r).mono fun _ => ho.agree) h

/-! ## Cancelled and expired bookings -/

/-- The world without the bookings under some ids. -/
def World.without (gone : String → Bool) (w : World) : World :=
  w.withHolds (w.holds.filter fun h => !gone h.bookingId)

theorem retire_dead {now : Int} {h : Hold} (hd : h.status.isDead = true) : MemoryRepo.retire now h = h :=
  MemoryRepo.retire_eq fun hs => by
    rw [hs] at hd
    cases hd

/-- The request names none of the bookings left out, by id or by reference. -/
def Request.Avoids (r : Request) (gone : String → Bool) (holds : List Hold) : Prop :=
  gone r.deps.newId = false ∧ (∀ id, r.subject = some id → gone id = false) ∧
    ∀ h ∈ holds, gone h.bookingId = true → r.looksUp ≠ some h.reference

/-- **Dead bookings are inert.** Leave any cancelled or expired bookings out of the store: requests that do not name
    them are answered as before through any run, the same charges, events and notices go out, and the store ends as
    it would, less those bookings. -/
theorem dead_bookings_inert (w : World) (gone : String → Bool) (rs : List Request)
    (hdead : ∀ h ∈ w.holds, gone h.bookingId = true → h.status.isDead = true)
    (havoid : ∀ r ∈ rs, r.Avoids gone w.holds) :
    Service.replies World.serve w rs = Service.replies World.serve (w.without gone) rs ∧
      (w.after rs).outside = ((w.without gone).after rs).outside ∧
      ((w.without gone).after rs).holds = ((w.after rs).without gone).holds := by
  -- what is left out stays dead and keeps its reference, whatever is served
  let J : Hold → Prop := fun h =>
    h.status.isDead = true ∧ ∃ g ∈ w.holds, gone g.bookingId = true ∧ g.reference = h.reference
  have hover : ∀ r ∈ rs, Overlooks r (fun h => !gone h.bookingId) J := by
    intro r hr
    obtain ⟨hnew, hsubject, hlooks⟩ := havoid r hr
    refine ⟨fun _ _ => rfl, fun h hname => ?_, fun h hgone hJ => ⟨?_, fun _ => hJ.1⟩, fun h hJ => ?_⟩
    · rw [hname.1, hnew]
      rfl
    · have hid : gone h.bookingId = true := by simpa using hgone
      rintro (hs | href | hnewId)
      · rw [hsubject _ hs] at hid
        cases hid
      · obtain ⟨g, hg, hggone, hgref⟩ := hJ.2
        exact hlooks g hg hggone (href.trans (congrArg some hgref.symm))
      · rw [hnewId, hnew] at hid
        cases hid
    · rw [retire_dead hJ.1]
      exact hJ
  have hstart : Abreast (Shorn (fun h => !gone h.bookingId) J) Eq w (w.without gone) := by
    refine ⟨⟨rfl, fun h hh hgone => ?_⟩, rfl, rfl⟩
    have hid : gone h.bookingId = true := by simpa using hgone
    exact ⟨hdead h hh hid, h, hh, hid, rfl⟩
  obtain ⟨hreplies, hend⟩ :=
    Service.replies_eq World.serve (fun r hr _ _ h => serve_shorn joint_eq (hover r hr) h) hstart
  exact ⟨hreplies, hend.outside, hend.holds.1⟩

def retiredHold : Request := ⟨.hold "slow" "A1" firstHop "nic1" "Nimal" none, sampleDeps 0 "1", acceptAll⟩

def cancelledHold : Request := ⟨.cancel "b1", sampleDeps 5 "2", acceptAll⟩

/-- A cancelled hold is dropped; the seat is sold again with it or without it. -/
theorem dead_bookings_inert_sample :
    let w := World.after (World.start sampleTrips) [retiredHold, cancelledHold]
    let next : Request := ⟨.hold "slow" "A1" wholeLine "nic2" "Kamal" none, sampleDeps 10 "3", acceptAll⟩
    Service.replies World.serve w [next] = Service.replies World.serve (w.without (· = "b1")) [next] := by
  intro w next
  refine (dead_bookings_inert w (· = "b1") [next] (by decide +kernel) fun r hr => ?_).1
  obtain rfl : r = next := by simpa using hr
  refine ⟨by decide, ?_, ?_⟩
  · intro id hid
    cases hid
  · intro h _ _ hlook
    cases hlook

end SlrBooking
