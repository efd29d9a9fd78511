import SlrBooking.Domain.Stations
import SlrBooking.Domain.Fares
import SlrBooking.Theory.Rounding

/-!
# `Domain.Segments` — distances along a line, and the fares of a journey cut into segments

## Contents
- `KmRises`, `Leg.distanceKm_ok_iff`, `distanceKm_nonneg`, `distanceKm_mono`.
- `roundCents_eq_round`, `distanceFare_nonneg`, `distanceFare_mono`.
- `Cuts`, `Cuts.distances`: the distances of adjacent legs add up.
- `split_fare`: what cutting a journey changes of its fare.
-/

namespace SlrBooking

open Theory

/-! ## Distances -/

/-- A station further along the line is no nearer to its start. -/
def KmRises (stations : List Station) : Prop :=
  ∀ s ∈ stations, ∀ s' ∈ stations, s.seq ≤ s'.seq → s.km ≤ s'.km

theorem Leg.distanceKm_ok_iff {leg : Leg} {kmBySeq : Int → Option ℚ} {d : ℚ} :
    leg.distanceKm kmBySeq = .ok d ↔
      ∃ o e, kmBySeq leg.originSeq = some o ∧ kmBySeq leg.destSeq = some e ∧ d = e - o := by
  unfold distanceKm
  cases kmBySeq leg.destSeq with
  | none => simp
  | some e =>
      cases kmBySeq leg.originSeq with
      | none => simp
      | some o => simp [eq_comm]

section Line

variable {stations : List Station}

theorem mem_of_kmIndex {seq : Int} {km : ℚ} (h : kmIndex stations seq = some km) :
    ∃ s ∈ stations, s.seq = seq ∧ s.km = km := by
  obtain ⟨s, hs, rfl⟩ := Option.map_eq_some_iff.mp h
  have hmem := List.mem_of_find?_eq_some hs
  have hseq := List.find?_some hs
  exact ⟨s, List.mem_reverse.mp hmem, by simpa using hseq, rfl⟩

theorem kmIndex_of_mem {seq : Int} (h : seq ∈ stations.map (·.seq)) : ∃ km, kmIndex stations seq = some km := by
  obtain ⟨s, hs, hseq⟩ := List.mem_map.mp h
  unfold kmIndex
  cases hfind : stations.reverse.find? fun s => s.seq = seq with
  | none =>
      have hno := List.find?_eq_none.mp hfind s (List.mem_reverse.mpr hs)
      simp [hseq] at hno
  | some s' => exact ⟨s'.km, by simp⟩

theorem kmIndex_mono (hkm : KmRises stations) {seq seq' : Int} {km km' : ℚ} (hle : seq ≤ seq')
    (h : kmIndex stations seq = some km) (h' : kmIndex stations seq' = some km') : km ≤ km' := by
  obtain ⟨s, hs, hseq, rfl⟩ := mem_of_kmIndex h
  obtain ⟨s', hs', hseq', rfl⟩ := mem_of_kmIndex h'
  exact hkm s hs s' hs' (by omega)

theorem distanceKm_nonneg (hkm : KmRises stations) {leg : Leg} {d : ℚ}
    (h : leg.distanceKm (kmIndex stations) = .ok d) : 0 ≤ d := by
  obtain ⟨o, e, ho, he, rfl⟩ := Leg.distanceKm_ok_iff.mp h
  have hle := kmIndex_mono hkm (Int.le_of_lt leg.moves_forward) ho he
  linarith

/-- A leg extended at either end is no shorter. -/
theorem distanceKm_mono (hkm : KmRises stations) {leg leg' : Leg} {d d' : ℚ} (ho : leg'.originSeq ≤ leg.originSeq)
    (hd : leg.destSeq ≤ leg'.destSeq) (h : leg.distanceKm (kmIndex stations) = .ok d)
    (h' : leg'.distanceKm (kmIndex stations) = .ok d') : d ≤ d' := by
  obtain ⟨o, e, hko, hke, rfl⟩ := Leg.distanceKm_ok_iff.mp h
  obtain ⟨o', e', hko', hke', rfl⟩ := Leg.distanceKm_ok_iff.mp h'
  have hstart := kmIndex_mono hkm ho hko' hko
  have hend := kmIndex_mono hkm hd hke hke'
  linarith

end Line

/-! ## Distance fares -/

/-- A value that is not negative rounds half up. -/
theorem roundCents_eq_round {value : ℚ} (h : 0 ≤ value) : (roundCents value).cents = round value := by
  unfold roundCents
  rw [if_pos h, round_eq]

section Fare

variable {rate : Money} {classMult : ℚ}

theorem distanceFare_nonneg (hrate : 0 ≤ rate.cents) (hmult : 0 ≤ classMult) {d : ℚ} (hd : 0 ≤ d) :
    0 ≤ (rate.cents : ℚ) * d * classMult := by
  have hrate' : (0 : ℚ) ≤ rate.cents := by exact_mod_cast hrate
  positivity

theorem distanceFare_cents_nonneg (hrate : 0 ≤ rate.cents) (hmult : 0 ≤ classMult) {d : ℚ} (hd : 0 ≤ d) :
    0 ≤ (distanceFare d rate classMult).cents := by
  have hvalue := distanceFare_nonneg hrate hmult hd
  unfold distanceFare
  rw [roundCents_eq_round hvalue, round_eq]
  exact Int.floor_nonneg.mpr (by linarith)

theorem distanceFare_mono (hrate : 0 ≤ rate.cents) (hmult : 0 ≤ classMult) {d d' : ℚ} (hd : 0 ≤ d) (hle : d ≤ d') :
    (distanceFare d rate classMult).cents ≤ (distanceFare d' rate classMult).cents := by
  apply roundCents_mono (distanceFare_nonneg hrate hmult hd)
  have hrate' : (0 : ℚ) ≤ rate.cents := by exact_mod_cast hrate
  exact mul_le_mul_of_nonneg_right (mul_le_mul_of_nonneg_left hle hrate') hmult

end Fare

/-! ## A journey in segments -/

/-- The parts are adjacent legs, and together the whole. -/
inductive Cuts : Leg → List Leg → Prop where
  | whole (leg : Leg) : Cuts leg [leg]
  | cut {leg first rest : Leg} {parts : List Leg} (starts : first.originSeq = leg.originSeq)
      (meets : first.destSeq = rest.originSeq) (ends : rest.destSeq = leg.destSeq) (more : Cuts rest parts) :
      Cuts leg (first :: parts)

/-- **Distances telescope.** -/
theorem Cuts.distances {stations : List Station} {whole : Leg} {parts : List Leg} (hcuts : Cuts whole parts)
    (hon : ∀ p ∈ parts, p.originSeq ∈ stations.map (·.seq) ∧ p.destSeq ∈ stations.map (·.seq)) :
    ∃ ds d, parts.mapM (fun p => p.distanceKm (kmIndex stations)) = .ok ds ∧
      whole.distanceKm (kmIndex stations) = .ok d ∧ ds.sum = d ∧ ds.length = parts.length ∧
      ∀ x ∈ ds, ∃ p ∈ parts, p.distanceKm (kmIndex stations) = .ok x := by
  induction hcuts with
  | whole leg =>
      obtain ⟨ho, hd⟩ := hon leg List.mem_cons_self
      obtain ⟨o, hko⟩ := kmIndex_of_mem ho
      obtain ⟨e, hke⟩ := kmIndex_of_mem hd
      have hdistance : leg.distanceKm (kmIndex stations) = .ok (e - o) :=
        Leg.distanceKm_ok_iff.mpr ⟨o, e, hko, hke, rfl⟩
      refine ⟨[e - o], e - o, ?_, hdistance, by simp, rfl, ?_⟩
      · simp [List.mapM_cons, hdistance, bind, Except.bind, pure, Except.pure]
      · intro x hx
        obtain rfl := List.mem_singleton.mp hx
        exact ⟨leg, List.mem_cons_self, hdistance⟩
  | @cut leg first rest parts starts meets ends more ih =>
      obtain ⟨ds, d, hds, hd, hsum, hlength, hall⟩ := ih fun p hp => hon p (List.mem_cons_of_mem _ hp)
      obtain ⟨o, e, hko, hke, rfl⟩ := Leg.distanceKm_ok_iff.mp hd
      obtain ⟨o', hko'⟩ := kmIndex_of_mem (hon first List.mem_cons_self).1
      have hfirst : first.distanceKm (kmIndex stations) = .ok (o - o') :=
        Leg.distanceKm_ok_iff.mpr ⟨o', o, hko', meets ▸ hko, rfl⟩
      have hwhole : leg.distanceKm (kmIndex stations) = .ok (e - o') :=
        Leg.distanceKm_ok_iff.mpr ⟨o', e, starts ▸ hko', ends ▸ hke, rfl⟩
      refine ⟨(o - o') :: ds, e - o', ?_, hwhole, ?_, by simp [hlength], ?_⟩
      · simp only [List.mapM_cons, hfirst, hds, bind, Except.bind]
        rfl
      · rw [List.sum_cons, hsum]
        ring
      · intro x hx
        rcases List.mem_cons.mp hx with rfl | hx
        · exact ⟨first, List.mem_cons_self, hfirst⟩
        · obtain ⟨p, hp, hdp⟩ := hall x hx
          exact ⟨p, List.mem_cons_of_mem _ hp, hdp⟩

/-- **Splitting a journey is price-neutral up to rounding.** The distance fares of its segments add up to the fare
    of the whole, but for at most half a cent a segment, rounded down. -/
theorem split_fare (stations : List Station) (hkm : KmRises stations) (rate : Money) (hrate : 0 ≤ rate.cents)
    (classMult : ℚ) (hmult : 0 ≤ classMult) (whole : Leg) (parts : List Leg) (hcuts : Cuts whole parts)
    (hon : ∀ p ∈ parts, p.originSeq ∈ stations.map (·.seq) ∧ p.destSeq ∈ stations.map (·.seq)) :
    ∃ ds d, parts.mapM (fun p => p.distanceKm (kmIndex stations)) = .ok ds ∧
      whole.distanceKm (kmIndex stations) = .ok d ∧
      |(ds.map fun x => (distanceFare x rate classMult).cents).sum - (distanceFare d rate classMult).cents| ≤
        (parts.length / 2 : ℕ) := by
  obtain ⟨ds, d, hds, hd, hsum, hlength, hall⟩ := hcuts.distances hon
  refine ⟨ds, d, hds, hd, ?_⟩
  have hparts : ds.map (fun x => (distanceFare x rate classMult).cents) =
      (ds.map fun x => (rate.cents : ℚ) * x * classMult).map round := by
    rw [List.map_map]
    apply List.map_congr_left
    intro x hx
    obtain ⟨p, -, hp⟩ := hall x hx
    exact roundCents_eq_round (distanceFare_nonneg hrate hmult (distanceKm_nonneg hkm hp))
  have hvalues : (ds.map fun x => (rate.cents : ℚ) * x * classMult).sum = rate.cents * d * classMult := by
    rw [List.sum_map_mul_right, List.sum_map_mul_left, List.map_id'', hsum]
    exact fun _ => rfl
  have hwhole : (distanceFare d rate classMult).cents = round ((rate.cents : ℚ) * d * classMult) :=
    roundCents_eq_round (distanceFare_nonneg hrate hmult (distanceKm_nonneg hkm hd))
  have hne : (ds.map fun x => (rate.cents : ℚ) * x * classMult) ≠ [] := by
    intro hnil
    have hzero : parts.length = 0 := by rw [← hlength, List.map_eq_nil_iff.mp hnil, List.length_nil]
    cases hcuts <;> simp at hzero
  have hbound := Rounding.abs_sum_round_sub_round_sum hne
  rw [hparts, hwhole, ← hvalues]
  rwa [List.length_map, hlength] at hbound

/-- Two segments of a line where each rounds half a cent up. -/
theorem split_fare_two : ∃ ds d,
    [(⟨0, 1, by decide, by decide⟩ : Leg), ⟨1, 2, by decide, by decide⟩].mapM
      (fun p => p.distanceKm (kmIndex [⟨"FOT", "Fort", 0, 0⟩, ⟨"KDT", "Kandy", 1, 1 / 2⟩, ⟨"BAD", "Badulla", 2, 1⟩])) =
        .ok ds ∧
    (⟨0, 2, by decide, by decide⟩ : Leg).distanceKm
      (kmIndex [⟨"FOT", "Fort", 0, 0⟩, ⟨"KDT", "Kandy", 1, 1 / 2⟩, ⟨"BAD", "Badulla", 2, 1⟩]) = .ok d ∧
    |(ds.map fun x => (distanceFare x ⟨1⟩ 1).cents).sum - (distanceFare d ⟨1⟩ 1).cents| ≤ 1 := by
  obtain ⟨ds, d, hds, hd, hbound⟩ := split_fare
    [⟨"FOT", "Fort", 0, 0⟩, ⟨"KDT", "Kandy", 1, 1 / 2⟩, ⟨"BAD", "Badulla", 2, 1⟩]
    (by unfold KmRises; decide +kernel) ⟨1⟩ (by decide) 1 (by decide +kernel) ⟨0, 2, by decide, by decide⟩
    [⟨0, 1, by decide, by decide⟩, ⟨1, 2, by decide, by decide⟩]
    (@Cuts.cut _ _ ⟨1, 2, by decide, by decide⟩ _ rfl rfl rfl (.whole _)) (by decide)
  exact ⟨ds, d, hds, hd, hbound⟩

end SlrBooking
