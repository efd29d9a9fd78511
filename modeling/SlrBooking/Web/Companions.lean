import SlrBooking.Web.Flow

/-!
# `Web.Companions` — the links between the passengers of a group cart

A passenger may be linked to the entry directly above. Seats come and go at any place of the cart, and come back in
another order, while links and typed data stay; every way out of the cart unlinks whoever named the seat that leaves.

## Contents
- `Flow.Dispatches`, `AllDispatched`: the actions the wizard dispatches. `Flow.after`.
- `Flow.Linked`: what every action keeps. `linked_step`, `linked_after`.
- `Flow.GroupHead`: the entry whose NIC a linked entry travels on. `companion_of_groupHead`, `groupHead_exists`.
- `companions_sound`: the run theorem.
-/

namespace SlrBooking

open Theory Rows

/-! ## Runs of the reducer -/

namespace Flow

/-- The wizard dispatches the action in this state: it adds seats and goes on to the passengers from the seat map only,
    and edits rows of the cart on the passenger step only, linking a row to nothing or to the one directly above. -/
def Dispatches (state : Flow) : FlowAction → Prop
  | .seatToggled seatId => seatId ∈ state.seatIds ∨ state.step = .seats
  | .seatsConfirmed => state.step = .seats
  | .passengerUpdated seatId patch => state.step = .passenger ∧ seatId ∈ state.seatIds ∧
    match patch.childOfSeatId with
    | some (some parent) => [parent, seatId] <:+: state.seatIds
    | _ => True
  | _ => True

instance (state : Flow) : (action : FlowAction) → Decidable (state.Dispatches action)
  | .seatToggled seatId => inferInstanceAs (Decidable (seatId ∈ state.seatIds ∨ state.step = .seats))
  | .seatsConfirmed => inferInstanceAs (Decidable (state.step = .seats))
  | .passengerUpdated seatId ⟨_, _, some (some parent)⟩ =>
    inferInstanceAs (Decidable (state.step = .passenger ∧ seatId ∈ state.seatIds ∧ [parent, seatId] <:+: state.seatIds))
  | .passengerUpdated seatId ⟨_, _, some none⟩ | .passengerUpdated seatId ⟨_, _, none⟩ =>
    inferInstanceAs (Decidable (state.step = .passenger ∧ seatId ∈ state.seatIds ∧ True))
  | .start | .searched _ | .trainSelected _ | .booked _ | .seatRemovedConflict _ _ | .back | .errorCleared | .restart =>
    inferInstanceAs (Decidable True)

/-- Every action of the sequence is one the wizard dispatches where it comes. -/
def AllDispatched : Flow → List FlowAction → Prop
  | _, [] => True
  | state, action :: rest => state.Dispatches action ∧ AllDispatched (flowReducer state action) rest

instance AllDispatched.decidable : ∀ (state : Flow) (actions : List FlowAction), Decidable (state.AllDispatched actions)
  | _, [] => inferInstanceAs (Decidable True)
  | state, action :: rest =>
    have := AllDispatched.decidable (flowReducer state action) rest
    inferInstanceAs (Decidable (state.Dispatches action ∧ (flowReducer state action).AllDispatched rest))

def after (state : Flow) (actions : List FlowAction) : Flow := actions.foldl flowReducer state

/-- **The cart's links are sound.** -/
structure Linked (state : Flow) : Prop where
  distinct : state.seatIds.Nodup
  rows     : state.step = .passenger → ∀ seatId ∈ state.seatIds, (state.passenger seatId).isSome
  owners   : ∀ row ∈ state.passengers, row.1 ∈ state.seatIds
  links    : ∀ seatId p parent, state.passenger seatId = some p → p.childOfSeatId = some parent →
    [parent, seatId] <:+: state.seatIds

/-! ## One action -/

theorem passenger_congr {state state' : Flow} (hrows : state'.passengers = state.passengers) :
    state'.passenger = state.passenger := by
  funext seatId
  simp only [passenger, hrows]

namespace Linked

variable {state state' : Flow}

/-- The cart is as it was, and the step does not turn into the passenger step. -/
theorem of_same (h : state.Linked) (hstep : state'.step = .passenger → state.step = .passenger)
    (hseats : state'.seatIds = state.seatIds) (hrows : state'.passengers = state.passengers) : state'.Linked := by
  have hpassenger := passenger_congr hrows
  constructor
  · rw [hseats]
    exact h.distinct
  · rw [hseats, hpassenger]
    exact fun hpass => h.rows (hstep hpass)
  · rw [hseats, hrows]
    exact h.owners
  · rw [hseats, hpassenger]
    exact h.links

/-- An empty cart. -/
theorem of_empty (hseats : state.seatIds = []) (hrows : state.passengers = []) : state.Linked := by
  constructor
  · rw [hseats]
    exact List.nodup_nil
  · rw [hseats]
    exact fun _ _ hmem => absurd hmem List.not_mem_nil
  · rw [hrows]
    exact fun _ hmem => absurd hmem List.not_mem_nil
  · intro seatId p parent hp
    rw [passenger, hrows] at hp
    cases hp

end Linked

/-- A row after a seat has left: a seat's old row or a blank one, with its link to the seat that left taken away. -/
theorem passenger_withoutSeat {state state' : Flow} {seatId : String}
    (hrows : state'.passengers = (withoutSeat state seatId).2) (id : String) :
    state'.passenger id =
      if id ∈ (withoutSeat state seatId).1 then
        let p := (state.passenger id).getD blankPassenger
        some (if p.childOfSeatId = some seatId then { p with childOfSeatId := none } else p)
      else none := by
  have htable := lookup_tabulate (fun id =>
    let p := (state.passenger id).getD blankPassenger
    if p.childOfSeatId = some seatId then { p with childOfSeatId := none } else p) id (withoutSeat state seatId).1
  rw [passenger, hrows]
  refine (congrArg (Option.map Prod.snd) htable).trans ?_
  by_cases hid : id ∈ (withoutSeat state seatId).1
  · rw [if_pos hid, if_pos hid]
    rfl
  · rw [if_neg hid, if_neg hid]
    rfl

/-- Every way out of the cart: two neighbours that stay are still neighbours, and no one names the seat that left. -/
theorem Linked.without {state state' : Flow} (h : state.Linked) {seatId : String}
    (hseats : state'.seatIds = (withoutSeat state seatId).1)
    (hrows : state'.passengers = (withoutSeat state seatId).2) : state'.Linked := by
  constructor
  · rw [hseats]
    exact h.distinct.filter _
  · intro _ id hmem
    rw [hseats] at hmem
    rw [passenger_withoutSeat hrows, if_pos hmem]
    rfl
  · intro row hrow
    rw [hrows] at hrow
    obtain ⟨id, hid, rfl⟩ := List.mem_map.mp hrow
    rw [hseats]
    exact hid
  · intro id p parent hp hparent
    rw [passenger_withoutSeat hrows] at hp
    split at hp
    · rename_i hid
      have hne : id ≠ seatId := by simpa using (List.mem_filter.mp hid).2
      simp only [Option.some.injEq] at hp
      by_cases hleft : ((state.passenger id).getD blankPassenger).childOfSeatId = some seatId
      · rw [if_pos hleft] at hp
        rw [← hp] at hparent
        cases hparent
      · rw [if_neg hleft] at hp
        rw [hp] at hleft
        have hkept : parent ≠ seatId := fun heq => hleft (by rw [hparent, heq])
        cases hold : state.passenger id with
        | none =>
          rw [hold, Option.getD_none] at hp
          rw [← hp] at hparent
          cases hparent
        | some old =>
          rw [hold, Option.getD_some] at hp
          subst hp
          -- neither of the two neighbours is the seat that left
          have hnear := (h.links id old parent hold hparent).filter (· ≠ seatId)
          rw [hseats]
          simpa [withoutSeat, hkept, hne] using hnear
    · cases hp

/-! ### Seeding the rows -/

theorem lookup_seedPassenger (rows : List (String × Passenger)) (seatId id : String) :
    lookup Prod.fst id (seedPassenger rows seatId) =
      (lookup Prod.fst id rows).or (if id = seatId then some (id, blankPassenger) else none) := by
  unfold seedPassenger
  cases hrow : lookup Prod.fst seatId rows with
  | some row =>
    by_cases hid : id = seatId
    · rw [hid, hrow]
      rfl
    · rw [if_neg hid, Option.or_none]
  | none =>
    by_cases hid : id = seatId
    · subst hid
      rw [hrow, if_pos rfl, Option.none_or]
      exact lookup_put_self (id, blankPassenger) rows
    · rw [if_neg hid, Option.or_none]
      exact lookup_put_ne (fun heq => hid heq.symm) rows

/-- Seeding gives every seat of the cart a row and touches no row that is there. -/
theorem lookup_seeded (seatIds : List String) (rows : List (String × Passenger)) (id : String) :
    lookup Prod.fst id (seatIds.foldl seedPassenger rows) =
      (lookup Prod.fst id rows).or (if id ∈ seatIds then some (id, blankPassenger) else none) := by
  induction seatIds generalizing rows with
  | nil => simp
  | cons seatId seatIds ih =>
    rw [List.foldl_cons, ih, lookup_seedPassenger, Option.or_assoc]
    congr 1
    by_cases hid : id = seatId
    · simp [hid]
    · simp [hid]

theorem mem_seeded {seatIds : List String} {rows : List (String × Passenger)} {row : String × Passenger}
    (h : row ∈ seatIds.foldl seedPassenger rows) : row.1 ∈ seatIds ∨ row ∈ rows := by
  induction seatIds generalizing rows with
  | nil => exact Or.inr h
  | cons seatId seatIds ih =>
    rcases ih h with hlater | hnow
    · exact Or.inl (List.mem_cons_of_mem _ hlater)
    · unfold seedPassenger at hnow
      split at hnow
      · exact Or.inr hnow
      · rcases mem_put_cases hnow with rfl | hold
        · exact Or.inl List.mem_cons_self
        · exact Or.inr hold

theorem Linked.seeded {state state' : Flow} (h : state.Linked) (hseats : state'.seatIds = state.seatIds)
    (hrows : state'.passengers = state.seatIds.foldl seedPassenger state.passengers) : state'.Linked := by
  have hpassenger : ∀ id, state'.passenger id =
      (state.passenger id).or (if id ∈ state.seatIds then some blankPassenger else none) := fun id => by
    rw [passenger, hrows, lookup_seeded, passenger]
    by_cases hid : id ∈ state.seatIds
    · cases lookup Prod.fst id state.passengers <;> simp [hid]
    · simp [hid]
  constructor
  · rw [hseats]
    exact h.distinct
  · intro _ id hmem
    rw [hseats] at hmem
    rw [hpassenger, if_pos hmem]
    simp
  · intro row hrow
    rw [hrows] at hrow
    rw [hseats]
    exact (mem_seeded hrow).elim id (h.owners row)
  · intro id p parent hp hparent
    rw [hseats]
    rw [hpassenger] at hp
    cases hold : state.passenger id with
    | some old =>
      rw [hold, Option.some_or] at hp
      cases hp
      exact h.links id p parent hold hparent
    | none =>
      -- a seeded row is blank
      rw [hold, Option.none_or] at hp
      split at hp
      · cases hp
        cases hparent
      · cases hp

/-! ### The other actions -/

theorem Linked.added {state state' : Flow} (h : state.Linked) {seatId : String} (hnew : seatId ∉ state.seatIds)
    (hstep : state'.step = .seats) (hseats : state'.seatIds = state.seatIds ++ [seatId])
    (hrows : state'.passengers = state.passengers) : state'.Linked := by
  have hpassenger := passenger_congr hrows
  constructor
  · rw [hseats]
    exact List.nodup_append.mpr ⟨h.distinct, List.nodup_singleton _, fun a ha b hb hab =>
      hnew (by rwa [← List.mem_singleton.mp hb, ← hab])⟩
  · intro hpass
    rw [hstep] at hpass
    cases hpass
  · intro row hrow
    rw [hrows] at hrow
    rw [hseats]
    exact List.mem_append_left _ (h.owners row hrow)
  · intro id p parent hp hparent
    rw [hpassenger] at hp
    rw [hseats]
    -- the new seat stands behind all the others
    exact (h.links id p parent hp hparent).trans (List.prefix_append _ _).isInfix

theorem Linked.updated {state state' : Flow} (h : state.Linked) {seatId : String} {patch : PassengerPatch}
    (hdispatched : state.Dispatches (.passengerUpdated seatId patch)) (hseats : state'.seatIds = state.seatIds)
    (hrows : state'.passengers =
      put Prod.fst (seatId, patch.apply ((state.passenger seatId).getD blankPassenger)) state.passengers) :
    state'.Linked := by
  obtain ⟨hstep, hmem, hlink⟩ := hdispatched
  have hother : ∀ id, id ≠ seatId → state'.passenger id = state.passenger id := fun id hid => by
    rw [passenger, hrows, lookup_put_ne fun heq => hid heq.symm]
    rfl
  have hself : state'.passenger seatId = some (patch.apply ((state.passenger seatId).getD blankPassenger)) := by
    rw [passenger, hrows]
    exact congrArg (Option.map Prod.snd) (lookup_put_self (seatId, _) _)
  constructor
  · rw [hseats]
    exact h.distinct
  · intro _ id hid
    rw [hseats] at hid
    by_cases heq : id = seatId
    · rw [heq, hself]
      rfl
    · rw [hother id heq]
      exact h.rows hstep id hid
  · intro row hrow
    rw [hrows] at hrow
    rw [hseats]
    rcases mem_put_cases hrow with rfl | hold
    · exact hmem
    · exact h.owners row hold
  · intro id p parent hp hparent
    rw [hseats]
    by_cases heq : id = seatId
    · subst heq
      rw [hself] at hp
      cases hp
      cases hpatch : patch.childOfSeatId with
      | some target =>
        simp only [PassengerPatch.apply, hpatch, Option.getD_some] at hparent
        rw [hpatch, hparent] at hlink
        exact hlink
      | none =>
        -- the link is the one the row had
        simp only [PassengerPatch.apply, hpatch, Option.getD_none] at hparent
        obtain ⟨old, hold⟩ := Option.isSome_iff_exists.mp (h.rows hstep id hmem)
        rw [hold, Option.getD_some] at hparent
        exact h.links id old parent hold hparent
    · rw [hother id heq] at hp
      exact h.links id p parent hp hparent

/-- Going back never leads to the passenger step: nothing goes back from the receipt. -/
theorem back_ne_passenger {step : FlowStep} (h : step ≠ .receipt) :
    steps.getD (stepIndex step - 1) step = .passenger → step = .passenger := by
  cases step with
  | receipt => exact absurd rfl h
  | landing | search | trains | seats | passenger => decide

/-- **One action keeps the links sound.** -/
theorem linked_step {state : Flow} (h : state.Linked) {action : FlowAction} (hdispatched : state.Dispatches action) :
    (flowReducer state action).Linked := by
  cases action with
  | start | trainSelected | restart => exact Linked.of_empty rfl rfl
  | searched | booked => exact h.of_same (fun hstep => by cases hstep) rfl rfl
  | errorCleared => exact h.of_same id rfl rfl
  | seatsConfirmed => exact h.seeded rfl rfl
  | passengerUpdated seatId patch => exact h.updated hdispatched rfl rfl
  | seatRemovedConflict seatId message => exact h.without rfl rfl
  | seatToggled seatId =>
    by_cases hmem : seatId ∈ state.seatIds
    · simp only [flowReducer, if_pos hmem]
      exact h.without rfl rfl
    · simp only [flowReducer, if_neg hmem]
      exact h.added hmem (hdispatched.resolve_left hmem) rfl rfl
  | back =>
    by_cases hback : canGoBack state = true
    · simp only [flowReducer, if_pos hback]
      have hreceipt : state.step ≠ .receipt := by
        simp only [canGoBack, Bool.and_eq_true, decide_eq_true_eq] at hback
        exact hback.2
      exact h.of_same (back_ne_passenger hreceipt) rfl rfl
    · simp only [flowReducer, if_neg hback]
      exact h

/-- **A run keeps the links sound.** -/
theorem linked_after {state : Flow} (h : state.Linked) {actions : List FlowAction}
    (hdispatched : state.AllDispatched actions) : (state.after actions).Linked := by
  induction actions generalizing state with
  | nil => exact h
  | cons action rest ih => exact ih (linked_step h hdispatched.1) hdispatched.2

/-! ## The NIC a linked passenger travels on -/

section Companion

variable (flow : Flow)

/-- Whom the entry is linked to. A link to `""` counts for none, as in JavaScript. -/
def travelsWith (seatId : String) : Option String :=
  (flow.passenger seatId).bind fun p => p.childOfSeatId.filter (· ≠ "")

/-- Going up from `seatId`, each entry linked to the one directly above, the first that is linked to no one is `top`,
    after `steps` links. -/
inductive GroupHead : (steps : Nat) → (seatId top : String) → Prop
  | self {seatId} : flow.travelsWith seatId = none → GroupHead 0 seatId seatId
  | up {steps seatId parent top} : flow.travelsWith seatId = some parent → [parent, seatId] <:+: flow.seatIds →
      GroupHead steps parent top → GroupHead (steps + 1) seatId top

variable {flow}

theorem GroupHead.unlinked {steps : Nat} {seatId top : String} (h : flow.GroupHead steps seatId top) :
    flow.travelsWith top = none := by
  induction h with
  | self hnone => exact hnone
  | up _ _ _ ih => exact ih

/-- **The guard is not what ends the loop**: with at least as many turns as there are links it stops at the head. -/
theorem companion_of_groupHead {steps : Nat} {seatId top : String} (h : flow.GroupHead steps seatId top) {guard : Nat}
    (hguard : steps ≤ guard) : flow.companion guard (flow.passenger seatId) = flow.passenger top := by
  induction h generalizing guard with
  | @self seatId hnone =>
    cases guard with
    | zero => rfl
    | succ guard =>
      rw [travelsWith] at hnone
      rw [companion, hnone]
  | @up steps seatId parent top hlink _ _ ih =>
    obtain ⟨guard, rfl⟩ : ∃ more, guard = more + 1 := ⟨guard - 1, by omega⟩
    rw [travelsWith] at hlink
    rw [companion, hlink]
    exact ih (by omega)

theorem resolveNic_of_groupHead {steps : Nat} {seatId top : String} (h : flow.GroupHead steps seatId top)
    (hshort : steps ≤ flow.seatIds.length) :
    flow.resolveNic seatId = ((flow.passenger top).map fun p => jsTrim p.nic).getD "" := by
  have hstop := companion_of_groupHead h (Nat.le_succ_of_le hshort)
  unfold resolveNic
  rw [hstop]
  cases flow.passenger top with
  | none => rfl
  | some p => rfl

/-- The entry directly above stands one place before. -/
theorem index_above {seatIds : List String} (hdistinct : seatIds.Nodup) {parent seatId : String}
    (hnear : [parent, seatId] <:+: seatIds) {i : Nat} (hi : seatIds[i]? = some seatId) :
    ∃ j, i = j + 1 ∧ seatIds[j]? = some parent := by
  obtain ⟨before, behind, rfl⟩ := hnear
  have hparent : (before ++ [parent, seatId] ++ behind)[before.length]? = some parent := by simp
  have hseat : (before ++ [parent, seatId] ++ behind)[before.length + 1]? = some seatId := by simp
  have hlt : i < (before ++ [parent, seatId] ++ behind).length := (List.getElem?_eq_some_iff.mp hi).1
  exact ⟨before.length, (List.getElem?_inj hlt hdistinct).mp (hi.trans hseat.symm), hparent⟩

/-- Every entry has a head, no more links away than there are entries above it. -/
theorem groupHead_exists (hdistinct : flow.seatIds.Nodup)
    (hlinks : ∀ seatId parent, flow.travelsWith seatId = some parent → [parent, seatId] <:+: flow.seatIds)
    {i : Nat} {seatId : String} (hi : flow.seatIds[i]? = some seatId) :
    ∃ steps top, steps ≤ i ∧ flow.GroupHead steps seatId top := by
  induction i generalizing seatId with
  | zero =>
    cases hlink : flow.travelsWith seatId with
    | none => exact ⟨0, seatId, le_refl 0, .self hlink⟩
    | some parent =>
      -- the first entry has no one above
      obtain ⟨j, hj, -⟩ := index_above hdistinct (hlinks seatId parent hlink) hi
      omega
  | succ i ih =>
    cases hlink : flow.travelsWith seatId with
    | none => exact ⟨0, seatId, Nat.zero_le _, .self hlink⟩
    | some parent =>
      have hnear := hlinks seatId parent hlink
      obtain ⟨j, hj, hparent⟩ := index_above hdistinct hnear hi
      obtain rfl : i = j := by omega
      obtain ⟨steps, top, hsteps, hhead⟩ := ih hparent
      exact ⟨steps + 1, top, by omega, .up hlink hnear hhead⟩

end Companion

theorem Linked.travelsWith {state : Flow} (h : state.Linked) (seatId parent : String)
    (hlink : state.travelsWith seatId = some parent) : [parent, seatId] <:+: state.seatIds := by
  obtain ⟨p, hp, hparent⟩ := Option.bind_eq_some_iff.mp hlink
  exact h.links seatId p parent hp (Option.filter_eq_some_iff.mp hparent).1

end Flow

/-- **The links are sound in every state the wizard reaches**, and every seat of the cart is booked on the NIC of the
    nearest passenger above that is linked to no one: the loop ends there before its guard does. -/
theorem companions_sound {actions : List FlowAction} (hdispatched : initialFlowState.AllDispatched actions) :
    let state := initialFlowState.after actions
    state.Linked ∧ ∀ seatId, seatId ∈ state.seatIds → ∃ steps top,
      steps ≤ state.seatIds.length ∧ state.GroupHead steps seatId top ∧
      (∀ guard, steps ≤ guard →
        state.companion guard (state.passenger seatId) = state.passenger top) ∧
      state.resolveNic seatId = ((state.passenger top).map fun p => jsTrim p.nic).getD "" ∧
      ("" ∉ state.seatIds → ∀ p, state.passenger top = some p → p.childOfSeatId = none) := by
  intro state
  have hlinked : state.Linked := Flow.linked_after (Flow.Linked.of_empty rfl rfl) hdispatched
  refine ⟨hlinked, fun seatId hmem => ?_⟩
  obtain ⟨i, hi⟩ := List.getElem?_of_mem hmem
  obtain ⟨steps, top, hsteps, hhead⟩ := @Flow.groupHead_exists state hlinked.distinct
    hlinked.travelsWith i seatId hi
  have hshort : steps ≤ state.seatIds.length :=
    hsteps.trans (List.getElem?_eq_some_iff.mp hi).1.le
  refine ⟨steps, top, hshort, hhead, fun guard hguard => Flow.companion_of_groupHead hhead hguard, ?_, ?_⟩
  · exact Flow.resolveNic_of_groupHead hhead hshort
  · intro hnonempty p hp
    cases hparent : p.childOfSeatId with
    | none => rfl
    | some parent =>
      -- a link is to a seat of the cart, and no seat of it is named ""
      have hnear := hlinked.links top p parent hp hparent
      have hmem : parent ∈ state.seatIds := hnear.subset List.mem_cons_self
      have hne : parent ≠ "" := fun heq => hnonempty (heq ▸ hmem)
      have hlink : state.travelsWith top = some parent := by
        refine Option.bind_eq_some_iff.mpr ⟨p, hp, ?_⟩
        rw [hparent]
        exact Option.filter_some_pos (by simpa using hne)
      rw [hhead.unlinked] at hlink
      cases hlink

/-- Three seats, the third linked to the second and the second to the first; when the second leaves, the third stands
    for itself again. -/
theorem companions_sound_three :
    let choose : List FlowAction := [.start, .searched ⟨"COL", "KAN", "2026-07-17"⟩, .trainSelected ⟨"t1", 1, 4⟩,
      .seatToggled "C1-1", .seatToggled "C1-2", .seatToggled "C1-3", .seatsConfirmed]
    let link : List FlowAction := [.passengerUpdated "C1-1" { nic := some " 901234567V " },
      .passengerUpdated "C1-2" { childOfSeatId := some (some "C1-1") },
      .passengerUpdated "C1-3" { childOfSeatId := some (some "C1-2") }]
    let leave : List FlowAction := [.back, .seatToggled "C1-2", .seatsConfirmed]
    (initialFlowState.after (choose ++ link)).Linked ∧ (initialFlowState.after (choose ++ link ++ leave)).Linked ∧
    (initialFlowState.after (choose ++ link)).resolveNic "C1-3" = "901234567V" ∧
    (initialFlowState.after (choose ++ link ++ leave)).resolveNic "C1-3" = "" :=
  ⟨(companions_sound (by decide +kernel)).1, (companions_sound (by decide +kernel)).1, by decide +kernel,
    by decide +kernel⟩

end SlrBooking
