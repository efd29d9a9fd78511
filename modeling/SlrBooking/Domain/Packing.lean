import SlrBooking.Domain.Stations
import SlrBooking.Theory.Intervals

/-!
# `Domain.Packing` — packing legs onto seats, and choosing the hidden seat of an unreserved ticket

## Contents
- `minSeats`: the maximum overlap depth, by a sweep. `minSeats_isGreatest`.
- `pack`: greedy over the legs by origin, reusing the earliest-freed seat. `pack_optimal`: it assigns the
  legs to seats `0 .. minSeats - 1`, and no assignment without overlap does with fewer.
- `chooseSeat`: best fit, the fullest seat with no overlapping leg. `chooseSeat_some`: the seat chosen is
  free over the leg; `chooseSeat_none`: none is chosen only if every seat is taken somewhere on it.
- `predictStandingSeats`: where each standing passenger first gets a seat to the end of the leg.
  `predict_single`: for one passenger it never raises, and an offer boards at the passenger's own origin
  or where an overlapping leg of that seat ends.
- `impactSeatKm`: what the legs leave of the route. `impactSeatKm_ok`.
-/

namespace SlrBooking

open Theory

/-! ## The sweep -/

/-- The loop of `minSeats` over the sorted events. -/
def sweepEvents : List (Int × Int) → Int → Int → Int
  | [], _, peak => peak
  | (_, delta) :: events, depth, peak => sweepEvents events (depth + delta) (max peak (depth + delta))

def seatEvents (legs : List Leg) : List (Int × Int) :=
  legs.flatMap fun leg => [(leg.originSeq, 1), (leg.destSeq, -1)]

/-- Minimum seats to hold every leg without overlap = max overlap depth. A leg ending frees its seat
    before one starting claims it: `-1` sorts before `+1`. -/
def minSeats (legs : List Leg) : Int :=
  sweepEvents ((seatEvents legs).insertionSort fun a b => toLex a ≤ toLex b) 0 0

theorem peak_le_sweep (events : List (Int × Int)) :
    ∀ depth peak : Int, peak ≤ sweepEvents events depth peak := by
  induction events with
  | nil => exact fun _ peak => Int.le_refl peak
  | cons e events ih => exact fun depth peak => (Int.le_max_left ..).trans (ih (depth + e.2) _)

theorem total_le_sweep (rest : List (Int × Int)) : ∀ (done : List (Int × Int)) (depth peak : Int),
    depth ≤ peak → depth + (done.map Prod.snd).sum ≤ sweepEvents (done ++ rest) depth peak := by
  intro done
  induction done with
  | nil =>
      intro depth peak h
      have hpeak := peak_le_sweep rest depth peak
      simp only [List.map_nil, List.sum_nil, List.nil_append]
      omega
  | cons e done ih =>
      intro depth peak _
      have hstep := ih (depth + e.2) (max peak (depth + e.2)) (Int.le_max_right ..)
      rw [List.map_cons, List.sum_cons, ← Int.add_assoc]
      exact hstep

/-- The peak is where the sweep started or a running total. -/
theorem sweep_total : ∀ (events : List (Int × Int)) (depth peak : Int), sweepEvents events depth peak = peak ∨
    ∃ done rest, events = done ++ rest ∧ sweepEvents events depth peak = depth + (done.map Prod.snd).sum := by
  intro events
  induction events with
  | nil => exact fun _ _ => Or.inl rfl
  | cons e events ih =>
      intro depth peak
      show sweepEvents events (depth + e.2) (max peak (depth + e.2)) = peak ∨ _
      rcases ih (depth + e.2) (max peak (depth + e.2)) with h | ⟨done, rest, rfl, h⟩
      · by_cases hmax : depth + e.2 ≤ peak
        · exact Or.inl (h.trans (max_eq_left hmax))
        · refine Or.inr ⟨[e], events, rfl, h.trans ?_⟩
          rw [max_eq_right (by omega), List.map_singleton, List.sum_singleton]
      · refine Or.inr ⟨e :: done, rest, rfl, h.trans ?_⟩
        rw [List.map_cons, List.sum_cons, Int.add_assoc]

/-- The events up to position `p` count the legs over it. -/
theorem net_seatEvents (legs : List Leg) (p : Int) :
    Intervals.net (seatEvents legs) p = (legs.countP fun leg => leg.contains p : Nat) := by
  induction legs with
  | nil => rfl
  | cons l ls ih =>
      have hl := l.moves_forward
      have hcons : Intervals.net (seatEvents (l :: ls)) p =
          Intervals.net [(l.originSeq, 1), (l.destSeq, -1)] p + Intervals.net (seatEvents ls) p := by
        simp only [Intervals.net, seatEvents, List.flatMap_cons, List.filter_append, List.map_append,
          List.sum_append]
      rw [hcons, ih, List.countP_cons]
      by_cases h₁ : l.originSeq ≤ p
      · by_cases h₂ : l.destSeq ≤ p
        · have hout : ¬ p < l.destSeq := by omega
          simp [Intervals.net, Leg.contains, h₁, h₂, hout]
        · have hin : p < l.destSeq := by omega
          simp [Intervals.net, Leg.contains, h₁, h₂, hin]
          omega
      · have h₂ : ¬ l.destSeq ≤ p := by omega
        simp [Intervals.net, Leg.contains, h₁, h₂]

/-- **`minSeats` is the maximum overlap depth.** -/
theorem minSeats_isGreatest (legs : List Leg) :
    IsGreatest (Set.range fun p : Int => ((legs.countP fun leg => leg.contains p : Nat) : Int)) (minSeats legs) := by
  let sorted := (seatEvents legs).insertionSort fun a b => toLex a ≤ toLex b
  have hsorted : Intervals.Sorted sorted := List.pairwise_insertionSort ..
  have hperm : sorted.Perm (seatEvents legs) := List.perm_insertionSort ..
  have hnet : ∀ p, Intervals.net sorted p = (legs.countP fun leg => leg.contains p : Nat) := fun p =>
    (Intervals.net_perm hperm p).trans (net_seatEvents legs p)
  have hupper : ∀ p : Int, ((legs.countP fun leg => leg.contains p : Nat) : Int) ≤ minSeats legs := by
    intro p
    obtain ⟨done, rest, heq, hsum⟩ := Intervals.net_prefix hsorted p
    have htotal := total_le_sweep rest done 0 0 (Int.le_refl _)
    rw [← heq, hsum, hnet, Int.zero_add] at htotal
    exact htotal
  -- Nothing lies over a position before the line.
  have hnone : legs.countP (fun leg => leg.contains (-1)) = 0 := by
    refine List.countP_eq_zero.mpr fun l _ => ?_
    have hl := l.origin_nonneg
    simp only [Leg.contains, Bool.and_eq_true, decide_eq_true_eq]
    omega
  have hreached : ∃ p : Int, minSeats legs ≤ (legs.countP fun leg => leg.contains p : Nat) := by
    rcases sweep_total sorted 0 0 with h | ⟨done, rest, heq, h⟩
    · exact ⟨-1, by rw [hnone]; exact Int.le_of_eq h⟩
    · rw [Int.zero_add] at h
      rcases Intervals.prefix_le_net (heq ▸ hsorted) with hle | ⟨p, hle⟩
      · exact ⟨-1, by rw [hnone]; exact (Int.le_of_eq h).trans hle⟩
      · rw [← heq, hnet] at hle
        exact ⟨p, (Int.le_of_eq h).trans hle⟩
  obtain ⟨p, hp⟩ := hreached
  refine ⟨⟨p, Int.le_antisymm (hupper p) hp⟩, ?_⟩
  rintro _ ⟨q, rfl⟩
  exact hupper q

/-! ## First fit by origin -/

/-- The variables of `pack`'s loop. `free` is the heap, kept in order: its first entry is the smallest. -/
structure Packing where
  assignment : List Nat
  free       : List (Int × Nat)
  seatCount  : Nat

/-- `heapq.heappush`. -/
def heappush (free : List (Int × Nat)) (entry : Int × Nat) : List (Int × Nat) :=
  free.orderedInsert (fun a b => toLex a ≤ toLex b) entry

/-- One turn of `pack`'s loop, for leg number `i`. -/
def Packing.place (legs : List Leg) (s : Packing) (i : Fin legs.length) : Packing :=
  let takeNew : Packing :=
    { assignment := s.assignment.set i s.seatCount
      free := heappush s.free (legs[i].destSeq, s.seatCount)
      seatCount := s.seatCount + 1 }
  match s.free with
  | [] => takeNew
  | (freeAt, seat) :: rest =>
    if freeAt ≤ legs[i].originSeq then
      { s with assignment := s.assignment.set i seat, free := heappush rest (legs[i].destSeq, seat) }
    else takeNew

/-- Leg numbers by origin, then destination; the sort is stable. -/
def packOrder (legs : List Leg) : List (Fin legs.length) :=
  (List.finRange legs.length).insertionSort fun i j =>
    toLex (legs[i].originSeq, legs[i].destSeq) ≤ toLex (legs[j].originSeq, legs[j].destSeq)

/-- Assign each leg a seat index (aligned to input order). -/
def pack (legs : List Leg) : List Nat :=
  ((packOrder legs).foldl (Packing.place legs) ⟨List.replicate legs.length 0, [], 0⟩).assignment

/-- `seats` gives each leg a seat, and legs on one seat do not overlap. -/
def Assigns {κ : Type} (legs : List Leg) (seats : List κ) : Prop :=
  seats.length = legs.length ∧ ∀ i j : Nat, i ≠ j → ∀ a ∈ legs[i]?, ∀ b ∈ legs[j]?, a.overlaps b = true →
    seats[i]? ≠ seats[j]?

section Placing

variable {legs : List Leg}

/-! ### What a run of the packer keeps

The seats in use are as many as legs were open at once at some point, and a leg on a seat ends before the next one
begins. -/

/-- The loop of `pack` after the leg numbers of `S`. -/
structure PackedLegs (legs : List Leg) (S : Finset (Fin legs.length)) (s : Packing) : Prop where
  length : s.assignment.length = legs.length
  heap   : s.free.Pairwise fun a b => toLex a ≤ toLex b
  packed : Intervals.Packed (fun i : Fin legs.length => legs[i].originSeq) (fun i => legs[i].destSeq) S
    (fun i => s.assignment.getD i 0) s.free s.seatCount

theorem heappush_perm (free : List (Int × Nat)) (entry : Int × Nat) :
    (heappush free entry).Perm (entry :: free) := List.perm_orderedInsert ..

theorem heappush_ordered {free : List (Int × Nat)} (h : free.Pairwise fun a b => toLex a ≤ toLex b)
    (entry : Int × Nat) : (heappush free entry).Pairwise fun a b => toLex a ≤ toLex b :=
  List.Pairwise.orderedInsert entry free h

theorem getD_set {assignment : List Nat} (h : assignment.length = legs.length) (i : Fin legs.length) (c : Nat) :
    (fun j : Fin legs.length => (assignment.set i c).getD j 0) =
      Function.update (fun j : Fin legs.length => assignment.getD j 0) i c := by
  funext j
  by_cases hij : j = i
  · subst hij
    rw [Function.update_self]
    simp [h]
  · have hne : (i : Nat) ≠ j := fun he => hij (Fin.ext he.symm)
    rw [Function.update_of_ne hij]
    simp [hne]

/-- **One turn.** Legs come in order of their origin, so every leg placed before starts no later. -/
theorem PackedLegs.turn {S : Finset (Fin legs.length)} {s : Packing} (h : PackedLegs legs S s) {i : Fin legs.length}
    (hnew : i ∉ S) (hstart : ∀ j ∈ S, legs[j].originSeq ≤ legs[i].originSeq) :
    PackedLegs legs (insert i S) (s.place legs i) := by
  have hlt := legs[i].moves_forward
  have hfresh : (∀ e ∈ s.free, legs[i].originSeq < e.1) → PackedLegs legs (insert i S)
      { assignment := s.assignment.set i s.seatCount
        free := heappush s.free (legs[i].destSeq, s.seatCount)
        seatCount := s.seatCount + 1 } := by
    intro htaken
    refine ⟨by simp [h.length], heappush_ordered h.heap _, ?_⟩
    rw [getD_set h.length]
    exact h.packed.fresh hnew hlt hstart htaken (heappush_perm ..)
  unfold Packing.place
  dsimp only
  split
  · rename_i hfree
    exact hfresh fun e he => absurd (hfree ▸ he) List.not_mem_nil
  · rename_i freeAt seat rest hfree
    have hheap := h.heap
    rw [hfree] at hheap
    by_cases hle : freeAt ≤ legs[i].originSeq
    · rw [if_pos hle]
      refine ⟨by simp [h.length], heappush_ordered (List.pairwise_cons.mp hheap).2 _, ?_⟩
      rw [getD_set h.length]
      exact h.packed.reuse hnew hfree hle hlt (heappush_perm ..)
    · rw [if_neg hle]
      refine hfresh fun e he => ?_
      -- The first entry of the heap is its smallest.
      rw [hfree] at he
      rcases List.mem_cons.mp he with rfl | he
      · omega
      · rcases Prod.Lex.toLex_le_toLex.mp ((List.pairwise_cons.mp hheap).1 e he) with hlex | ⟨hlex, -⟩
        · exact (Int.lt_of_not_ge hle).trans hlex
        · exact hlex ▸ Int.lt_of_not_ge hle

theorem PackedLegs.run : ∀ {order : List (Fin legs.length)} {S : Finset (Fin legs.length)} {s : Packing},
    PackedLegs legs S s → order.Nodup → (∀ i ∈ order, i ∉ S) →
    (order.Pairwise fun i j => legs[i].originSeq ≤ legs[j].originSeq) →
    (∀ j ∈ S, ∀ i ∈ order, legs[j].originSeq ≤ legs[i].originSeq) →
    PackedLegs legs (S ∪ order.toFinset) (order.foldl (Packing.place legs) s) := by
  intro order
  induction order with
  | nil =>
      intro S s h _ _ _ _
      simpa using h
  | cons i order ih =>
      intro S s h hnodup hnew hsorted hstart
      obtain ⟨hi, hnodup⟩ := List.nodup_cons.mp hnodup
      obtain ⟨hfirst, hsorted⟩ := List.pairwise_cons.mp hsorted
      have hturn := h.turn (hnew i List.mem_cons_self) fun j hj => hstart j hj i List.mem_cons_self
      have hrun := ih hturn hnodup
        (fun k hk hmem => (Finset.mem_insert.mp hmem).elim (fun he => hi (he ▸ hk))
          fun hS => hnew k (List.mem_cons_of_mem _ hk) hS)
        hsorted
        (fun j hj k hk => (Finset.mem_insert.mp hj).elim (fun he => he ▸ hfirst k hk)
          fun hS => hstart j hS k (List.mem_cons_of_mem _ hk))
      rwa [List.toFinset_cons, Finset.union_insert, ← Finset.insert_union]

/-- The whole loop places every leg. -/
theorem pack_placed (legs : List Leg) : ∃ s, s.assignment = pack legs ∧ PackedLegs legs Finset.univ s := by
  have hperm : (packOrder legs).Perm (List.finRange legs.length) := List.perm_insertionSort ..
  have hsorted : (packOrder legs).Pairwise fun i j => legs[i].originSeq ≤ legs[j].originSeq := by
    let before (i j : Fin legs.length) : Prop :=
      toLex (legs[i].originSeq, legs[i].destSeq) ≤ toLex (legs[j].originSeq, legs[j].destSeq)
    have : Std.Total before := ⟨fun i j => le_total (toLex (legs[i].originSeq, legs[i].destSeq)) _⟩
    have : IsTrans (Fin legs.length) before := ⟨fun _ _ _ h h' => le_trans h h'⟩
    have hlex : (packOrder legs).Pairwise before := List.pairwise_insertionSort before _
    refine hlex.imp fun hle => ?_
    rcases Prod.Lex.toLex_le_toLex.mp hle with h | ⟨h, -⟩
    · exact Int.le_of_lt h
    · exact Int.le_of_eq h
  have hstart : PackedLegs legs ∅ ⟨List.replicate legs.length 0, [], 0⟩ :=
    ⟨List.length_replicate, List.Pairwise.nil, Intervals.packed_empty _⟩
  have hall : ∅ ∪ (packOrder legs).toFinset = Finset.univ := by
    rw [Finset.empty_union, Finset.eq_univ_iff_forall]
    exact fun i => List.mem_toFinset.mpr (hperm.mem_iff.mpr (List.mem_finRange i))
  refine ⟨_, rfl, ?_⟩
  have hrun := hstart.run (hperm.nodup_iff.mpr (List.nodup_finRange _)) (fun i _ => Finset.notMem_empty i) hsorted
    (fun j hj => absurd hj (Finset.notMem_empty j))
  rwa [hall] at hrun

theorem depth_univ (legs : List Leg) (p : Int) :
    Intervals.depth (fun i : Fin legs.length => legs[i].originSeq) (fun i => legs[i].destSeq) Finset.univ p =
      legs.countP fun leg => leg.contains p := by
  have hmap : legs.countP (fun leg => leg.contains p) =
      (List.finRange legs.length).countP fun i => legs[i].contains p := by
    conv_lhs => rw [← List.map_get_finRange legs, List.countP_map]
    rfl
  have hfilter : (Finset.univ.filter fun i : Fin legs.length =>
      Intervals.Covers (fun i : Fin legs.length => legs[i].originSeq) (fun i => legs[i].destSeq) i p) =
      ((List.finRange legs.length).filter fun i => legs[i].contains p).toFinset := by
    ext i
    rw [Finset.mem_filter, List.mem_toFinset, List.mem_filter]
    simp [Intervals.Covers, Leg.contains]
  rw [hmap, List.countP_eq_length_filter, Intervals.depth, hfilter,
    List.toFinset_card_of_nodup ((List.nodup_finRange _).filter _)]

/-! ### Optimality -/

/-- Any assignment without overlap is a proper colouring of the legs, with `none` for no colour. -/
theorem Assigns.proper {κ : Type} {seats : List κ} (h : Assigns legs seats) :
    Intervals.Proper (fun i : Fin legs.length => legs[i].originSeq) (fun i => legs[i].destSeq)
      (fun i => seats[(i : Nat)]?) Finset.univ := by
  intro i _ j _ hij hover
  exact h.2 i j (fun he => hij (Fin.ext he)) legs[i] (by simp) legs[j] (by simp) (Leg.overlaps_iff.mpr hover)

/-- **No assignment does with fewer.** -/
theorem Assigns.minSeats_le {κ : Type} [DecidableEq κ] {seats : List κ} (h : Assigns legs seats) :
    minSeats legs ≤ seats.toFinset.card := by
  obtain ⟨⟨p, hp⟩, -⟩ := minSeats_isGreatest legs
  have hdepth := h.proper.depth_le p
  have hsub : (Finset.univ.image fun i : Fin legs.length => seats[(i : Nat)]?) ⊆ seats.toFinset.image some := by
    intro c hc
    obtain ⟨i, -, rfl⟩ := Finset.mem_image.mp hc
    have hi : (i : Nat) < seats.length := h.1.symm ▸ i.isLt
    exact Finset.mem_image.mpr ⟨seats[(i : Nat)], List.mem_toFinset.mpr (List.getElem_mem hi),
      (List.getElem?_eq_getElem hi).symm⟩
  have hcard := (Finset.card_le_card hsub).trans Finset.card_image_le
  rw [depth_univ] at hdepth
  rw [← hp]
  exact Int.ofNat_le.mpr (hdepth.trans hcard)

/-- The seats in use are `0 .. seatCount - 1`, and no more than `minSeats`. -/
theorem PackedLegs.assigns {s : Packing} (h : PackedLegs legs Finset.univ s) : Assigns legs s.assignment := by
  refine ⟨h.length, fun i j hij a ha b hb hover hseat => ?_⟩
  obtain ⟨hi, rfl⟩ := List.getElem?_eq_some_iff.mp ha
  obtain ⟨hj, rfl⟩ := List.getElem?_eq_some_iff.mp hb
  refine h.packed.proper ⟨i, hi⟩ (Finset.mem_univ _) ⟨j, hj⟩ (Finset.mem_univ _)
    (fun he => hij (Fin.mk.inj he)) (Leg.overlaps_iff.mp hover) ?_
  simp only [List.getD_eq_getElem?_getD, hseat]

theorem PackedLegs.mem_iff {s : Packing} (h : PackedLegs legs Finset.univ s) (n : Nat) :
    n ∈ s.assignment ↔ n < s.seatCount := by
  constructor
  · intro hn
    obtain ⟨i, hi, rfl⟩ := List.mem_iff_getElem.mp hn
    have hlt := h.packed.colour_lt (Finset.mem_univ (⟨i, h.length ▸ hi⟩ : Fin legs.length))
    simpa [hi] using hlt
  · intro hn
    obtain ⟨i, -, hcol⟩ := h.packed.colour_used hn
    have hi : (i : Nat) < s.assignment.length := h.length.symm ▸ i.isLt
    rw [List.getD_eq_getElem _ _ hi] at hcol
    exact hcol ▸ List.getElem_mem hi

theorem PackedLegs.seatCount_eq {s : Packing} (h : PackedLegs legs Finset.univ s) :
    (s.seatCount : Int) = minSeats legs := by
  obtain ⟨-, hgreatest⟩ := minSeats_isGreatest legs
  refine Int.le_antisymm ?_ ?_
  · rcases h.packed.needed with h₀ | ⟨p, hp⟩
    · have hzero : ((legs.countP fun leg => leg.contains 0 : Nat) : Int) ≤ minSeats legs := hgreatest ⟨0, rfl⟩
      omega
    · rw [depth_univ] at hp
      exact (Int.ofNat_le.mpr hp).trans (hgreatest ⟨p, rfl⟩)
  · have hseats : s.assignment.toFinset = Finset.range s.seatCount := by
      ext n
      rw [List.mem_toFinset, Finset.mem_range]
      exact h.mem_iff n
    have hle := h.assigns.minSeats_le
    rwa [hseats, Finset.card_range] at hle

end Placing

/-- **`pack` is an optimal interval colouring.** -/
theorem pack_optimal (legs : List Leg) :
    Assigns legs (pack legs) ∧
      (∀ n : Nat, n ∈ pack legs ↔ (n : Int) < minSeats legs) ∧
      IsGreatest (Set.range fun p : Int => ((legs.countP fun leg => leg.contains p : Nat) : Int)) (minSeats legs) ∧
      ∀ (κ : Type) [DecidableEq κ] (seats : List κ), Assigns legs seats →
        minSeats legs ≤ (seats.toFinset.card : Int) := by
  obtain ⟨s, hs, hplaced⟩ := pack_placed legs
  refine ⟨hs ▸ hplaced.assigns, fun n => ?_, minSeats_isGreatest legs, fun κ _ seats h => h.minSeats_le⟩
  rw [← hs, hplaced.mem_iff, ← hplaced.seatCount_eq]
  exact Int.ofNat_lt.symm

/-- Adjacent legs share a seat. -/
example : pack [⟨2, 4, by decide, by decide⟩, ⟨0, 2, by decide, by decide⟩, ⟨1, 3, by decide, by decide⟩] =
    [0, 0, 1] := by decide

/-! ## Best fit -/

/-- `_occupied_span`. -/
def occupiedSpan (seatLegs : List Leg) : Int := (seatLegs.map Leg.length).sum

/-- The loop of `chooseSeat` from seat number `idx`, with the best seat so far and its span. -/
def chooseSeatFrom (leg : Leg) : Nat → List (List Leg) → Option Nat × Int → Option Nat × Int
  | _, [], best => best
  | idx, seatLegs :: rest, best =>
    if seatLegs.any fun existing => leg.overlaps existing then chooseSeatFrom leg (idx + 1) rest best
    else if occupiedSpan seatLegs > best.2 then
      chooseSeatFrom leg (idx + 1) rest (some idx, occupiedSpan seatLegs)
    else chooseSeatFrom leg (idx + 1) rest best

/-- Pick the seat that best preserves long contiguous availability. -/
def chooseSeat (seats : List (List Leg)) (leg : Leg) : Option Nat :=
  (chooseSeatFrom leg 0 seats (none, -1)).1

/-- Seat `seats[i]` has no leg over `leg`. -/
def FreeOver (leg : Leg) (seatLegs : List Leg) : Prop := ∀ b ∈ seatLegs, leg.overlaps b = false

theorem occupiedSpan_nonneg (seatLegs : List Leg) : 0 ≤ occupiedSpan seatLegs := by
  induction seatLegs with
  | nil => exact Int.le_refl _
  | cons l ls ih =>
      have hl := l.moves_forward
      simp only [occupiedSpan, List.map_cons, List.sum_cons, Leg.length] at ih ⊢
      omega

theorem chooseSeatFrom_some {leg : Leg} : ∀ {seats : List (List Leg)} {idx : Nat}
    {best : Option Nat × Int} {i : Nat}, (chooseSeatFrom leg idx seats best).1 = some i →
    best.1 = some i ∨ ∃ j seatLegs, i = idx + j ∧ seats[j]? = some seatLegs ∧ FreeOver leg seatLegs
  | [], _, _, _, h => Or.inl h
  | seatLegs :: rest, idx, best, i, h => by
      have hrest : ∀ {best'}, (chooseSeatFrom leg (idx + 1) rest best').1 = some i →
          best'.1 = some i ∨
            ∃ j ls, i = idx + j ∧ (seatLegs :: rest)[j]? = some ls ∧ FreeOver leg ls := by
        intro best' h'
        rcases chooseSeatFrom_some h' with h' | ⟨j, ls, rfl, hj, hfree⟩
        · exact Or.inl h'
        · exact Or.inr ⟨j + 1, ls, by omega, by simpa using hj, hfree⟩
      unfold chooseSeatFrom at h
      split at h
      · exact hrest h
      · rename_i hfree
        split at h
        · rcases hrest h with hi | hi
          · obtain rfl := Option.some.inj hi
            exact Or.inr ⟨0, seatLegs, rfl, rfl, by simpa [FreeOver] using hfree⟩
          · exact Or.inr hi
        · exact hrest h

/-- The chosen seat exists and is free over the whole leg. -/
theorem chooseSeat_some {seats : List (List Leg)} {leg : Leg} {i : Nat} (h : chooseSeat seats leg = some i) :
    ∃ seatLegs, seats[i]? = some seatLegs ∧ FreeOver leg seatLegs := by
  rcases chooseSeatFrom_some h with h | ⟨j, ls, rfl, hj, hfree⟩
  · cases h
  · exact ⟨ls, by rwa [Nat.zero_add], hfree⟩

theorem chooseSeatFrom_keeps {leg : Leg} : ∀ {seats : List (List Leg)} {idx : Nat} {best : Option Nat × Int},
    best.1 ≠ none → (chooseSeatFrom leg idx seats best).1 ≠ none
  | [], _, _, h => h
  | _ :: _, _, _, h => by
      unfold chooseSeatFrom
      split
      · exact chooseSeatFrom_keeps h
      · split
        · exact chooseSeatFrom_keeps (by simp)
        · exact chooseSeatFrom_keeps h

theorem chooseSeatFrom_none {leg : Leg} : ∀ {seats : List (List Leg)} {idx : Nat} {best : Option Nat × Int},
    best.2 < 0 → (chooseSeatFrom leg idx seats best).1 = none →
    ∀ seatLegs ∈ seats, ∃ b ∈ seatLegs, leg.overlaps b = true
  | [], _, _, _, _ => by simp
  | seatLegs :: rest, idx, best, hbest, h => by
      unfold chooseSeatFrom at h
      split at h
      · rename_i hover
        intro ls hls
        rcases List.mem_cons.mp hls with rfl | hls
        · simpa using hover
        · exact chooseSeatFrom_none hbest h ls hls
      · have hspan : occupiedSpan seatLegs > best.2 := Int.lt_of_lt_of_le hbest (occupiedSpan_nonneg seatLegs)
        rw [if_pos hspan] at h
        exact absurd h (chooseSeatFrom_keeps (by simp))

/-- No seat is chosen only if every seat has a leg over the asked one. -/
theorem chooseSeat_none {seats : List (List Leg)} {leg : Leg} (h : chooseSeat seats leg = none) :
    ∀ seatLegs ∈ seats, ∃ b ∈ seatLegs, leg.overlaps b = true :=
  chooseSeatFrom_none (by decide) h

/-! ## Standing overflow -/

/-- Seat `seatIndex`, boarded at station `boardSeq`, kept to the leg's end. -/
structure SeatOffer where
  boardSeq  : Int
  seatIndex : Nat
deriving DecidableEq

/-- Legs of a seat that stand in the way of `[origin, dest)`. -/
def blocking (seatLegs : List Leg) (origin dest : Int) : List Leg :=
  seatLegs.filter fun b => b.originSeq < dest && b.destSeq > origin

/-- Earliest station in `[origin, dest)` where the seat is free to `dest`. -/
def freesForRemainder (seatLegs : List Leg) (origin dest : Int) : Option Int :=
  match (blocking seatLegs origin dest).map (·.destSeq) with
  | [] => some origin
  | d :: ds =>
    let freesAt := ds.foldl max d
    if freesAt < dest then some freesAt else none

/-- The best offer for `leg` among the seats from number `idx` on. -/
def bestOffer (leg : Leg) : Nat → List (List Leg) → Option SeatOffer → Option SeatOffer
  | _, [], best => best
  | idx, seatLegs :: rest, best =>
    match freesForRemainder seatLegs leg.originSeq leg.destSeq with
    | none => bestOffer leg (idx + 1) rest best
    | some board =>
      if best.all fun b => board < b.boardSeq then bestOffer leg (idx + 1) rest (some ⟨board, idx⟩)
      else bestOffer leg (idx + 1) rest best

/-- Standing overflow allocation, first come first served. -/
def predictStandingSeats (seats : List (List Leg)) : List Leg → Except Err (List (Option SeatOffer))
  | [] => .ok []
  | leg :: queue => do
    let best := bestOffer leg 0 seats none
    let occupancy ← match best with
      | none => pure seats
      | some b => do
        let taken ← Leg.make b.boardSeq leg.destSeq
        pure (seats.modify b.seatIndex (· ++ [taken]))
    let offers ← predictStandingSeats occupancy queue
    return best :: offers

theorem mem_blocking {seatLegs : List Leg} {o d : Int} {b : Leg} :
    b ∈ blocking seatLegs o d ↔ b ∈ seatLegs ∧ b.originSeq < d ∧ o < b.destSeq := by
  simp [blocking]

theorem foldl_max_mem : ∀ (ds : List Int) (d : Int), ds.foldl max d ∈ d :: ds
  | [], d => List.mem_singleton.mpr rfl
  | e :: es, d => by
      have h := foldl_max_mem es (max d e)
      rcases List.mem_cons.mp h with h | h
      · rcases (by omega : max d e = d ∨ max d e = e) with hm | hm
        · exact List.mem_cons.mpr (Or.inl (h.trans hm))
        · exact List.mem_cons.mpr (Or.inr (List.mem_cons.mpr (Or.inl (h.trans hm))))
      · exact List.mem_cons.mpr (Or.inr (List.mem_cons.mpr (Or.inr h)))

/-- Where a seat frees: at the passenger's origin, or where a leg in the way ends, before the destination. -/
theorem freesForRemainder_some {seatLegs : List Leg} {o d board : Int}
    (h : freesForRemainder seatLegs o d = some board) :
    (blocking seatLegs o d = [] ∧ board = o) ∨
      (∃ b ∈ blocking seatLegs o d, board = b.destSeq) ∧ board < d := by
  unfold freesForRemainder at h
  split at h
  · rename_i hnil
    exact Or.inl ⟨List.map_eq_nil_iff.mp hnil, (Option.some.inj h).symm⟩
  · rename_i x xs hcons
    dsimp only at h
    split at h
    · rename_i hlt
      have hb : xs.foldl max x = board := Option.some.inj h
      have hmem := foldl_max_mem xs x
      rw [← hcons] at hmem
      obtain ⟨b, hb', hbd⟩ := List.mem_map.mp hmem
      exact Or.inr ⟨⟨b, hb', (hbd.trans hb).symm⟩, hb ▸ hlt⟩
    · cases h

theorem bestOffer_some {leg : Leg} : ∀ {seats : List (List Leg)} {idx : Nat} {best : Option SeatOffer}
    {s : SeatOffer}, bestOffer leg idx seats best = some s →
    best = some s ∨ ∃ j seatLegs, s.seatIndex = idx + j ∧ seats[j]? = some seatLegs ∧
      freesForRemainder seatLegs leg.originSeq leg.destSeq = some s.boardSeq
  | [], _, _, _, h => Or.inl h
  | seatLegs :: rest, idx, best, s, h => by
      have hrest : ∀ {best'}, bestOffer leg (idx + 1) rest best' = some s → best' = some s ∨
          ∃ j ls, s.seatIndex = idx + j ∧ (seatLegs :: rest)[j]? = some ls ∧
            freesForRemainder ls leg.originSeq leg.destSeq = some s.boardSeq := by
        intro best' h'
        rcases bestOffer_some h' with h' | ⟨j, ls, hj, hls, hfree⟩
        · exact Or.inl h'
        · exact Or.inr ⟨j + 1, ls, by omega, by simpa using hls, hfree⟩
      unfold bestOffer at h
      split at h
      · exact hrest h
      · rename_i board hboard
        split at h
        · rcases hrest h with hs | hs
          · obtain rfl := Option.some.inj hs
            exact Or.inr ⟨0, seatLegs, rfl, rfl, hboard⟩
          · exact Or.inr hs
        · exact hrest h

/-- **One standing passenger.** The prediction never raises; an offer is a seat of the list, boarded where
    that seat frees for the rest of the leg. -/
theorem predict_single (seats : List (List Leg)) (leg : Leg) :
    predictStandingSeats seats [leg] = .ok [bestOffer leg 0 seats none] := by
  unfold predictStandingSeats
  cases hbest : bestOffer leg 0 seats none with
  | none => rfl
  | some s =>
      have hfrees : ∃ ls, freesForRemainder ls leg.originSeq leg.destSeq = some s.boardSeq := by
        rcases bestOffer_some hbest with h | ⟨-, ls, -, -, h⟩
        · cases h
        · exact ⟨ls, h⟩
      obtain ⟨ls, hls⟩ := hfrees
      have h₀ := leg.origin_nonneg
      have h₁ := leg.moves_forward
      have hrange : 0 ≤ s.boardSeq ∧ s.boardSeq < leg.destSeq := by
        rcases freesForRemainder_some hls with ⟨-, hb⟩ | ⟨⟨b, hb, hbd⟩, hlt⟩
        · omega
        · have := (mem_blocking.mp hb).2.2
          omega
      simp only [Leg.make_of_lt hrange.1 hrange.2]
      rfl

/-! ## Seat-km reclaimed -/

/-- Seat-km reclaimed vs rigid whole-journey booking: a whole journey locks a seat for `routeKm`, a leg for its own
    km only. -/
def impactSeatKm (legs : List Leg) (kmBySeq : Int → Option ℚ) (routeKm : ℚ) : Except Err ℚ :=
  legs.foldlM (fun sum leg => do return sum + (routeKm - (← leg.distanceKm kmBySeq))) 0

/-- What one leg leaves of the route; nothing is asked of a leg off the line. -/
def leftOver (kmBySeq : Int → Option ℚ) (routeKm : ℚ) (leg : Leg) : ℚ :=
  routeKm - ((leg.distanceKm kmBySeq).toOption.getD 0)

theorem leftOver_eq {kmBySeq : Int → Option ℚ} {routeKm d : ℚ} {leg : Leg} (hd : leg.distanceKm kmBySeq = .ok d) :
    leftOver kmBySeq routeKm leg = routeKm - d := by
  rw [leftOver, hd]
  rfl

/-- **The sum over the legs**, if all of them are on the line. -/
theorem impactSeatKm_ok {legs : List Leg} {kmBySeq : Int → Option ℚ} (routeKm : ℚ)
    (hon : ∀ leg ∈ legs, ∃ d, leg.distanceKm kmBySeq = .ok d) :
    impactSeatKm legs kmBySeq routeKm = .ok (legs.map (leftOver kmBySeq routeKm)).sum := by
  have hfrom : ∀ (legs : List Leg) (sum : ℚ), (∀ leg ∈ legs, ∃ d, leg.distanceKm kmBySeq = .ok d) →
      legs.foldlM (fun sum leg => do return sum + (routeKm - (← leg.distanceKm kmBySeq))) sum =
        (Except.ok (sum + (legs.map (leftOver kmBySeq routeKm)).sum) : Except Err ℚ) := by
    intro legs
    induction legs with
    | nil =>
        intro sum _
        rw [List.map_nil, List.sum_nil, add_zero]
        rfl
    | cons leg legs ih =>
        intro sum hon
        obtain ⟨d, hd⟩ := hon leg List.mem_cons_self
        rw [List.foldlM_cons, List.map_cons, List.sum_cons, leftOver_eq hd, hd, ← add_assoc]
        exact ih _ fun l hl => hon l (List.mem_cons_of_mem _ hl)
  rw [impactSeatKm, hfrom legs 0 hon, zero_add]

end SlrBooking
