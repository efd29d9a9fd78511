import SlrBooking.Theory.Relational
import SlrBooking.Adapters.SqlRepo
import SlrBooking.Runs.Calls
import SlrBooking.Domain.Standing

/-!
# `Concurrent.RowOrder` — nothing depends on the order rows come in

A SELECT without ORDER BY may return its rows in any order, and another one each time. Every use-case counts the
rows it reads, looks for one among them, or takes a maximum; it goes on the same way whatever the order.

## Contents
- `rowView`: what is known of a read, and which answers nobody tells apart. `Reading`: the reads.
- `antiTout_perm`, `chooseSeat_perm`, `bestOffer_perm`, `classAvailabilities_busy`: the decisions taken on rows.
- `reading_assignSeat`, `reading_priceLeg`, `reading_trainOptions`: the stretches of the use-cases that only read.
-/

namespace SlrBooking

open Theory

/-- What is known of a trip before it is read: it is one of the trips, under the id asked for. -/
def Listed (trips : List Trip) : (o : PortOp) → Except Err o.Res → Prop
  | .getTrip id, .ok trip => trip ∈ trips ∧ trip.tripId = id
  | _, _ => True

/-- The same rows in another order. -/
def Unordered : (o : PortOp) → o.Res → o.Res → Prop
  | .activeForSeat _ _, a, b => List.Perm a b
  | .activeForPassenger _ _, a, b => List.Perm a b
  | .activeHolds _, a, b => List.Perm a b
  | .byStatus _ _, a, b => List.Perm a b
  | .expireDue _, a, b => List.Perm a b
  | _, a, b => a = b

def rowView (trips : List Trip) : Prog.View Ports Err := ⟨Listed trips, Unordered⟩

/-- The operations that only read. A seat that is asked for has an id. -/
def Reading : PortOp → Prop
  | .activeForSeat _ seatId => seatId ≠ ""
  | .byReference _ | .activeForPassenger _ _ | .activeHolds _ | .byStatus _ _ | .getTrip _ | .findByDate _ => True
  | _ => False

/-! ## Decisions on rows -/

section Decisions

variable {deps : Deps} {trip : Trip} {leg : Leg}

theorem antiTout_perm {passengerId : String} {now : Int} {a b : List Hold} (h : a.Perm b) :
    antiTout deps passengerId now a = antiTout deps passengerId now b := by
  have hrecent : ∀ window : Int, (a.filter fun h => h.createdAt > now - window).length =
      (b.filter fun h => h.createdAt > now - window).length := fun window => (h.filter _).length_eq
  have hseats : (((a.map (·.seatId)).filter (· ≠ "")).dedup).length =
      (((b.map (·.seatId)).filter (· ≠ "")).dedup).length := (((h.map _).filter _).dedup).length_eq
  simp only [antiTout, h.length_eq, hrecent, hseats]

/-- One seat of the pool: the legs on it in another order. -/
abbrev SameLegs : List (List Leg) → List (List Leg) → Prop := List.Forall₂ List.Perm

theorem SameLegs.refl (seats : List (List Leg)) : SameLegs seats seats :=
  List.forall₂_same.mpr fun _ _ => List.Perm.refl _

theorem chooseSeatFrom_perm {seats seats' : List (List Leg)} (h : SameLegs seats seats') :
    ∀ (idx : Nat) (best : Option Nat × Int),
      chooseSeatFrom leg idx seats best = chooseSeatFrom leg idx seats' best := by
  induction h with
  | nil => exact fun _ _ => rfl
  | @cons ls ls' rest rest' hls _ ih =>
      intro idx best
      have hany : (ls.any fun existing => leg.overlaps existing) = ls'.any fun existing => leg.overlaps existing :=
        hls.any_eq
      have hspan : occupiedSpan ls = occupiedSpan ls' := (hls.map _).sum_eq
      unfold chooseSeatFrom
      rw [hany, hspan]
      split
      · exact ih _ _
      · split
        · exact ih _ _
        · exact ih _ _

theorem chooseSeat_perm {seats seats' : List (List Leg)} (h : SameLegs seats seats') :
    chooseSeat seats leg = chooseSeat seats' leg := congrArg Prod.fst (chooseSeatFrom_perm h 0 (none, -1))

/-- Where a seat frees is told by the legs on it, whatever their order. -/
theorem freesForRemainder_perm {ls ls' : List Leg} (h : ls.Perm ls') {o d : Int} (hlt : o < d) :
    freesForRemainder ls o d = freesForRemainder ls' o d := by
  have hfree : ∀ b, FreeFrom ls b d ↔ FreeFrom ls' b d := fun b =>
    ⟨fun hf l hl => hf l (h.mem_iff.mpr hl), fun hf l hl => hf l (h.mem_iff.mp hl)⟩
  have hsame : ∀ board, freesForRemainder ls o d = some board ↔ freesForRemainder ls' o d = some board := by
    intro board
    rw [freesForRemainder_isLeast hlt, freesForRemainder_isLeast hlt]
    simp only [hfree]
  exact Option.ext hsame

theorem bestOffer_perm {seats seats' : List (List Leg)} (h : SameLegs seats seats') :
    ∀ (idx : Nat) (best : Option SeatOffer), bestOffer leg idx seats best = bestOffer leg idx seats' best := by
  induction h with
  | nil => exact fun _ _ => rfl
  | cons hls _ ih =>
      intro idx best
      unfold bestOffer
      rw [freesForRemainder_perm hls leg.moves_forward]
      split
      · exact ih _ _
      · split
        · exact ih _ _
        · exact ih _ _

theorem predict_perm {seats seats' : List (List Leg)} (h : SameLegs seats seats') :
    predictStandingSeats seats [leg] = predictStandingSeats seats' [leg] := by
  rw [predict_single, predict_single, bestOffer_perm h]

/-- Only who is busy counts. -/
theorem classAvailabilities_busy {reservable : List Seat} {busy busy' : List String}
    (h : ∀ id, id ∈ busy ↔ id ∈ busy') : ∀ cs, classAvailabilities deps trip leg reservable busy cs =
      classAvailabilities deps trip leg reservable busy' cs
  | [] => rfl
  | c :: rest => by
      unfold classAvailabilities
      rw [classAvailabilities_busy h rest]
      simp only [h]

end Decisions

/-! ## The reading stretches -/

section Stretches

variable {trips : List Trip} {deps : Deps} {trip : Trip} {t p : String} {leg : Leg} {c : TravelClass}

theorem reading_enforceAntiTout {now : Int} : (enforceAntiTout deps t p now).Under (rowView trips) Reading :=
  Prog.under_call_bind trivial (fun _ _ h => congrArg Prog.ofExcept (antiTout_perm h)) fun _ _ => Prog.under_ofExcept _

theorem reading_occupancyOverLeg : (occupancyOverLeg trip leg).Under (rowView trips) Reading := by
  unfold occupancyOverLeg
  split
  · exact Prog.under_ret _
  · refine Prog.under_call_bind trivial (fun a b h => ?_) fun _ _ => Prog.under_ret _
    have hbusy := (((List.Perm.filter (fun h => h.leg.overlaps leg) h).map (·.seatId)).dedup).length_eq
    simp only [hbusy]

theorem reading_priceLeg : (priceLeg deps trip leg c).Under (rowView trips) Reading :=
  (Prog.under_ofExcept _).bind fun _ => (Prog.under_ofExcept _).bind fun _ =>
    reading_occupancyOverLeg.bind fun _ => Prog.under_ofExcept _

/-- The legs of the pool, read seat by seat, for a use that does not ask for their order. -/
theorem reading_poolLegs {α : Type} : ∀ {pool : List Seat} {F : List (List Leg) → Prog Ports Err α},
    (∀ s ∈ pool, s.seatId ≠ "") → (∀ a b, SameLegs a b → F a = F b) →
    (∀ a, (F a).Under (rowView trips) Reading) → ((poolLegs t pool).bind F).Under (rowView trips) Reading
  | [], _, _, _, hU => hU []
  | s :: rest, F, hids, hF, hU => by
      unfold poolLegs
      rw [Prog.bind_eq, Prog.bind_assoc]
      refine Prog.under_call_bind (hids s List.mem_cons_self) (fun a b h => ?_) fun active _ => ?_
      · simp only [Prog.bind_eq, Prog.bind_assoc, Prog.pure_eq, Prog.ret_bind]
        exact congrArg _ (funext fun others => hF _ _ (.cons (h.map _) (SameLegs.refl others)))
      · simp only [Prog.bind_eq, Prog.bind_assoc, Prog.pure_eq, Prog.ret_bind]
        exact reading_poolLegs (fun x hx => hids x (List.mem_cons_of_mem s hx))
          (fun a b h => hF _ _ (.cons (List.Perm.refl _) h)) fun a => hU _

theorem reading_guardStandingCapacity : (guardStandingCapacity deps t c).Under (rowView trips) Reading := by
  refine Prog.under_call_bind trivial (fun a b h => ?_) fun _ _ => (Prog.under_ofExcept _).bind fun _ => ?_
  · have hcount := (List.Perm.filter (fun h => h.travelClass = c) h).length_eq
    simp only [hcount]
  · split
    · exact Prog.under_raise _
    · exact Prog.under_ret _

theorem reading_assignSeat {pool : List Seat} (hids : ∀ s ∈ pool, s.seatId ≠ "") :
    (assignSeat deps t leg c pool).Under (rowView trips) Reading := by
  refine reading_poolLegs hids (fun a b h => ?_) fun seatLegs => ?_
  · simp only [chooseSeat_perm h, predict_perm h]
  · split
    · exact Prog.under_ret _
    · exact reading_guardStandingCapacity.bind fun _ => (Prog.under_ofExcept _).bind fun _ => Prog.under_ret _

theorem reading_classAvailabilities {reservable : List Seat} {busy : List String} :
    ∀ cs, (classAvailabilities deps trip leg reservable busy cs).Under (rowView trips) Reading
  | [] => Prog.under_ret _
  | _ :: rest => reading_priceLeg.bind fun _ => (reading_classAvailabilities rest).bind fun _ => Prog.under_ret _

theorem reading_trainOption {o d : String} (trip : Trip) :
    (trainOption deps trip o d).Under (rowView trips) Reading := by
  unfold trainOption
  split
  · split
    · exact Prog.under_ret _
    · refine (Prog.under_ofExcept _).bind fun leg => ?_
      split
      · exact Prog.under_ret _
      · refine (Prog.under_ofExcept _).bind fun _ => Prog.under_call_bind trivial (fun a b h => ?_) fun _ _ =>
          (reading_classAvailabilities _).bind fun _ => (Prog.under_ofExcept _).bind fun _ => Prog.under_ret _
        have hbusy : ∀ id, id ∈ (a.filter fun h => h.leg.overlaps leg).map (·.seatId) ↔
            id ∈ (b.filter fun h => h.leg.overlaps leg).map (·.seatId) := fun id =>
          ((List.Perm.filter (fun h => h.leg.overlaps leg) h).map (·.seatId)).mem_iff
        simp only [classAvailabilities_busy hbusy]
  · exact Prog.under_ret _

/-- Everything a search reads of the trips of its day. -/
theorem reading_trainOptions {o d : String} : ∀ ts, (trainOptions deps o d ts).Under (rowView trips) Reading
  | [] => Prog.under_ret _
  | trip :: rest => (reading_trainOption trip).bind fun _ => (reading_trainOptions rest).bind fun _ =>
      Prog.under_ret _

end Stretches

end SlrBooking
