import SlrBooking.Domain.Values

/-!
# `Domain.Stations` — stations and legs as half-open intervals over the line's station sequence

A leg is `[originSeq, destSeq)`. The constructor's two checks are fields of `Leg`, so an empty or
reversed leg cannot be written down; `Leg.make` is the checked constructor with its errors. Kilometre
positions are rationals: the float arithmetic of the source reaches nothing but the fare strategy.

## Contents
- `Station`, `Leg`, `Leg.make`, `Leg.overlaps`, `Leg.contains`, `Leg.distanceKm`, `kmIndex`.
- `Leg.overlaps_iff_hop`: two legs overlap exactly when they share a station hop.
-/

namespace SlrBooking

structure Station where
  code : String
  name : String
  seq  : Int
  km   : ℚ
deriving DecidableEq

@[ext] structure Leg where
  originSeq : Int
  destSeq   : Int
  origin_nonneg : 0 ≤ originSeq
  moves_forward : originSeq < destSeq
deriving DecidableEq

namespace Leg

/-- `Leg(origin_seq, dest_seq)`. -/
def make (originSeq destSeq : Int) : Except Err Leg :=
  if h₀ : originSeq < 0 then .error (.domain .invalidLeg s!"negative origin sequence: {originSeq}")
  else if h₁ : destSeq ≤ originSeq then
    .error (.domain .invalidLeg s!"leg must move forward: [{originSeq}, {destSeq})")
  else .ok ⟨originSeq, destSeq, by omega, by omega⟩

/-- `repr(leg)`. -/
def repr (l : Leg) : String := s!"Leg(origin_seq={l.originSeq}, dest_seq={l.destSeq})"

/-- Number of station-hops the leg spans. -/
def length (l : Leg) : Int := l.destSeq - l.originSeq

/-- Half-open intersection: touching endpoints do not overlap. -/
def overlaps (l other : Leg) : Bool := l.originSeq < other.destSeq && other.originSeq < l.destSeq

def contains (l : Leg) (seq : Int) : Bool := l.originSeq ≤ seq && seq < l.destSeq

/-- A checked construction returns the leg it was asked for. -/
theorem make_ok {o d : Int} {l : Leg} (h : make o d = .ok l) : l.originSeq = o ∧ l.destSeq = d := by
  unfold make at h
  split at h
  · cases h
  · split at h
    · cases h
    · cases h
      exact ⟨rfl, rfl⟩

theorem make_of_lt {o d : Int} (h₀ : 0 ≤ o) (h₁ : o < d) : make o d = .ok ⟨o, d, h₀, h₁⟩ := by
  unfold make
  rw [dif_neg (by omega), dif_neg (by omega)]

theorem overlaps_iff {a b : Leg} :
    a.overlaps b = true ↔ a.originSeq < b.destSeq ∧ b.originSeq < a.destSeq := by
  simp [overlaps]

theorem overlaps_comm (a b : Leg) : a.overlaps b = b.overlaps a := by
  simp only [overlaps, Bool.and_comm]

/-- **Overlap is a shared hop.** The hop from station `seq` to the next lies in both legs. -/
theorem overlaps_iff_hop {a b : Leg} :
    a.overlaps b = true ↔ ∃ seq, a.contains seq = true ∧ b.contains seq = true := by
  have ha := a.moves_forward
  have hb := b.moves_forward
  simp only [overlaps_iff, contains, Bool.and_eq_true, decide_eq_true_eq]
  constructor
  · rintro ⟨h₁, h₂⟩
    exact ⟨max a.originSeq b.originSeq, by omega, by omega⟩
  · rintro ⟨seq, h₁, h₂⟩
    omega

/-- `km_by_seq[dest] - km_by_seq[origin]`, with the mapping's `KeyError`. -/
def distanceKm (l : Leg) (kmBySeq : Int → Option ℚ) : Except Err ℚ :=
  match kmBySeq l.destSeq with
  | none => .error (.keyError (toString l.destSeq))
  | some d =>
    match kmBySeq l.originSeq with
    | none => .error (.keyError (toString l.originSeq))
    | some o => .ok (d - o)

end Leg

/-- Each station's sequence position to its km from origin; a later station of one position wins. -/
def kmIndex (stations : List Station) (seq : Int) : Option ℚ :=
  (stations.reverse.find? fun s => s.seq = seq).map (·.km)

end SlrBooking
