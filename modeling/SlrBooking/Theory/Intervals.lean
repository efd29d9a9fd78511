import Mathlib.Algebra.BigOperators.Group.List.Basic
import Mathlib.Algebra.Order.Group.Int
import Mathlib.Algebra.Order.BigOperators.Group.List
import Mathlib.Data.Finset.Card
import Mathlib.Data.Fintype.Basic
import Mathlib.Data.List.Sort
import Mathlib.Data.Prod.Lex
import Mathlib.Tactic.Linarith

/-!
# `Theory.Intervals` — half-open intervals, their colourings, and the sweep over their end points

A family of intervals `[lo i, hi i)` over a linear order. A colouring is proper when overlapping
intervals differ in colour; it needs at least as many colours as intervals lie over one point. First fit
in order of `lo` needs no more: `Packed` is what holds after each placement, with one free-at entry for
each colour in use.

## Contents
- `depth`, `Proper`. `Proper.depth_le`: the pigeonhole bound.
- `Packed`, `Packed.reuse`, `Packed.fresh`: the greedy colouring, one interval at a time.
- `net`, `prefix_le_net`, `net_prefix`: running totals over sorted events against totals up to a point.
-/

namespace Theory
namespace Intervals

variable {ι α κ : Type} [LinearOrder α]

/-! ## Intervals and colourings -/

section Colourings

variable (lo hi : ι → α)

/-- `p` lies in `[lo i, hi i)`. -/
def Covers (i : ι) (p : α) : Prop := lo i ≤ p ∧ p < hi i

instance (i : ι) (p : α) : Decidable (Covers lo hi i p) := inferInstanceAs (Decidable (_ ∧ _))

def Overlap (i j : ι) : Prop := lo i < hi j ∧ lo j < hi i

/-- How many intervals of `S` lie over `p`. -/
def depth (S : Finset ι) (p : α) : ℕ := (S.filter fun i => Covers lo hi i p).card

/-- Overlapping intervals of `S` differ in colour. -/
def Proper (colour : ι → κ) (S : Finset ι) : Prop :=
  ∀ i ∈ S, ∀ j ∈ S, i ≠ j → Overlap lo hi i j → colour i ≠ colour j

variable {lo hi}

theorem Overlap.symm {i j : ι} (h : Overlap lo hi i j) : Overlap lo hi j i := ⟨h.2, h.1⟩

theorem Covers.overlap {i j : ι} {p : α} (hi' : Covers lo hi i p) (hj : Covers lo hi j p) : Overlap lo hi i j :=
  ⟨hi'.1.trans_lt hj.2, hj.1.trans_lt hi'.2⟩

theorem depth_mono {S S' : Finset ι} (h : S ⊆ S') (p : α) : depth lo hi S p ≤ depth lo hi S' p :=
  Finset.card_le_card (Finset.filter_subset_filter _ h)

/-- **Pigeonhole.** The intervals over one point have distinct colours. -/
theorem Proper.depth_le [DecidableEq κ] {colour : ι → κ} {S : Finset ι} (h : Proper lo hi colour S) (p : α) :
    depth lo hi S p ≤ (S.image colour).card := by
  refine Finset.card_le_card_of_injOn colour (fun i hi' => ?_) (fun i hi' j hj hcol => ?_)
  · exact Finset.mem_coe.mpr (Finset.mem_image_of_mem _ (Finset.mem_filter.mp hi').1)
  · have hi' := Finset.mem_filter.mp hi'
    have hj := Finset.mem_filter.mp hj
    by_contra hne
    exact h i hi'.1 j hj.1 hne (hi'.2.overlap hj.2) hcol

end Colourings

/-! ## First fit -/

section Greedy

variable (lo hi : ι → α)

/-- After placing the intervals of `S` with colours `0 .. n - 1`: `free` has one entry for each colour,
    the end of the last interval of that colour. -/
structure Packed (S : Finset ι) (colour : ι → ℕ) (free : List (α × ℕ)) (n : ℕ) : Prop where
  proper : Proper lo hi colour S
  colours : (free.map Prod.snd).Perm (List.range n)
  used   : ∀ e ∈ free, ∃ i ∈ S, hi i = e.1 ∧ colour i = e.2
  ended  : ∀ i ∈ S, ∃ e ∈ free, colour i = e.2 ∧ hi i ≤ e.1
  needed : n = 0 ∨ ∃ p, n ≤ depth lo hi S p

variable {lo hi} {S : Finset ι} {colour : ι → ℕ} {free : List (α × ℕ)} {n : ℕ}

theorem packed_empty (colour : ι → ℕ) : Packed lo hi ∅ colour [] 0 where
  proper i hi' := absurd hi' (Finset.notMem_empty i)
  colours := List.Perm.refl _
  used _ he := absurd he List.not_mem_nil
  ended i hi' := absurd hi' (Finset.notMem_empty i)
  needed := Or.inl rfl

namespace Packed

theorem entry_eq (h : Packed lo hi S colour free n) {e e' : α × ℕ} (he : e ∈ free) (he' : e' ∈ free)
    (hsnd : e.2 = e'.2) : e = e' := by
  have hnodup : (free.map Prod.snd).Nodup := h.colours.nodup_iff.mpr List.nodup_range
  exact List.inj_on_of_nodup_map hnodup he he' hsnd

theorem colour_lt (h : Packed lo hi S colour free n) {i : ι} (hi' : i ∈ S) : colour i < n := by
  obtain ⟨e, he, hcol, -⟩ := h.ended i hi'
  have hmem : e.2 ∈ free.map Prod.snd := List.mem_map_of_mem he
  rw [hcol]
  exact List.mem_range.mp (h.colours.mem_iff.mp hmem)

/-- Every colour below `n` is in use. -/
theorem colour_used (h : Packed lo hi S colour free n) {c : ℕ} (hc : c < n) : ∃ i ∈ S, colour i = c := by
  obtain ⟨e, he, rfl⟩ := List.mem_map.mp (h.colours.mem_iff.mpr (List.mem_range.mpr hc))
  obtain ⟨i, hi', -, hcol⟩ := h.used e he
  exact ⟨i, hi', hcol⟩

variable [DecidableEq ι]

/-- Placing one more interval keeps the colouring proper if its overlapping intervals have other colours. -/
theorem proper_insert (h : Proper lo hi colour S) {i : ι} (hnew : i ∉ S) {c : ℕ}
    (hc : ∀ j ∈ S, Overlap lo hi j i → colour j ≠ c) :
    Proper lo hi (Function.update colour i c) (insert i S) := by
  have hold : ∀ {j}, j ∈ S → Function.update colour i c j = colour j := fun {j} hj =>
    Function.update_of_ne (ne_of_mem_of_not_mem hj hnew) _ _
  intro j hj k hk hjk hover
  rcases Finset.mem_insert.mp hj with rfl | hj'
  · rcases Finset.mem_insert.mp hk with rfl | hk'
    · exact absurd rfl hjk
    · rw [Function.update_self, hold hk']
      exact (hc k hk' hover.symm).symm
  · rcases Finset.mem_insert.mp hk with rfl | hk'
    · rw [Function.update_self, hold hj']
      exact hc j hj' hover
    · rw [hold hj', hold hk']
      exact h j hj' k hk' hjk hover

/-- **Reuse.** The colour whose last interval ended by `lo i` takes interval `i`. -/
theorem reuse (h : Packed lo hi S colour free n) {i : ι} (hnew : i ∉ S) {f : α} {c : ℕ}
    {rest free' : List (α × ℕ)} (hfree : free = (f, c) :: rest) (hf : f ≤ lo i) (hlt : lo i < hi i)
    (hfree' : free'.Perm ((hi i, c) :: rest)) :
    Packed lo hi (insert i S) (Function.update colour i c) free' n := by
  have hhead : (f, c) ∈ free := hfree ▸ List.mem_cons_self
  have hold : ∀ {j}, j ∈ S → Function.update colour i c j = colour j := fun {j} hj =>
    Function.update_of_ne (ne_of_mem_of_not_mem hj hnew) _ _
  refine ⟨proper_insert h.proper hnew ?_, ?_, ?_, ?_, ?_⟩
  · intro j hj hover hcol
    obtain ⟨e, he, hje, hend⟩ := h.ended j hj
    have hefc : e = (f, c) := h.entry_eq he hhead (hje.symm.trans hcol)
    have hjf : hi j ≤ f := by rw [hefc] at hend; exact hend
    exact absurd hover.2 (not_lt.mpr (hjf.trans hf))
  · have hseats := h.colours
    rw [hfree] at hseats
    exact (hfree'.map Prod.snd).trans hseats
  · intro e he
    rcases List.mem_cons.mp (hfree'.mem_iff.mp he) with rfl | he
    · exact ⟨i, Finset.mem_insert_self i S, rfl, Function.update_self ..⟩
    · obtain ⟨j, hj, hend, hcol⟩ := h.used e (hfree ▸ List.mem_cons_of_mem _ he)
      exact ⟨j, Finset.mem_insert_of_mem hj, hend, (hold hj).trans hcol⟩
  · intro j hj
    rcases Finset.mem_insert.mp hj with rfl | hj
    · exact ⟨(hi j, c), hfree'.mem_iff.mpr List.mem_cons_self, Function.update_self .., le_refl _⟩
    · obtain ⟨e, he, hcol, hend⟩ := h.ended j hj
      rw [hold hj]
      rw [hfree] at he
      rcases List.mem_cons.mp he with rfl | he
      · exact ⟨(hi i, c), hfree'.mem_iff.mpr List.mem_cons_self, hcol, hend.trans (hf.trans hlt.le)⟩
      · exact ⟨e, hfree'.mem_iff.mpr (List.mem_cons_of_mem _ he), hcol, hend⟩
  · exact h.needed.imp_right fun ⟨p, hp⟩ => ⟨p, hp.trans (depth_mono (Finset.subset_insert i S) p)⟩

/-- When every colour is taken beyond `lo i` by an interval that started no later, the intervals over
    `lo i` are one for each colour and `i` itself. -/
theorem depth_of_all_taken (h : Packed lo hi S colour free n) {i : ι} (hnew : i ∉ S) (hlt : lo i < hi i)
    (hstart : ∀ j ∈ S, lo j ≤ lo i) (htaken : ∀ e ∈ free, lo i < e.1) :
    n + 1 ≤ depth lo hi (insert i S) (lo i) := by
  have hover : ∀ c ∈ Finset.range n, ∃ j ∈ S, Covers lo hi j (lo i) ∧ colour j = c := by
    intro c hc
    have hmem := h.colours.mem_iff.mpr (List.mem_range.mpr (Finset.mem_range.mp hc))
    obtain ⟨e, he, rfl⟩ := List.mem_map.mp hmem
    obtain ⟨j, hj, hend, hcol⟩ := h.used e he
    exact ⟨j, hj, ⟨hstart j hj, hend ▸ htaken e he⟩, hcol⟩
  have hsub : Finset.range n ⊆ (S.filter fun j => Covers lo hi j (lo i)).image colour := by
    intro c hc
    obtain ⟨j, hj, hcov, hcol⟩ := hover c hc
    exact Finset.mem_image.mpr ⟨j, Finset.mem_filter.mpr ⟨hj, hcov⟩, hcol⟩
  have hn : n ≤ (S.filter fun j => Covers lo hi j (lo i)).card := by
    have := (Finset.card_le_card hsub).trans Finset.card_image_le
    rwa [Finset.card_range] at this
  unfold depth
  rw [Finset.filter_insert, if_pos ⟨le_refl _, hlt⟩, Finset.card_insert_of_notMem]
  · exact Nat.succ_le_succ hn
  · exact fun hmem => hnew (Finset.mem_filter.mp hmem).1

/-- **A fresh colour.** Every colour in use is taken beyond `lo i`. -/
theorem fresh (h : Packed lo hi S colour free n) {i : ι} (hnew : i ∉ S) {free' : List (α × ℕ)}
    (hlt : lo i < hi i) (hstart : ∀ j ∈ S, lo j ≤ lo i) (htaken : ∀ e ∈ free, lo i < e.1)
    (hfree' : free'.Perm ((hi i, n) :: free)) :
    Packed lo hi (insert i S) (Function.update colour i n) free' (n + 1) := by
  have hold : ∀ {j}, j ∈ S → Function.update colour i n j = colour j := fun {j} hj =>
    Function.update_of_ne (ne_of_mem_of_not_mem hj hnew) _ _
  refine ⟨proper_insert h.proper hnew ?_, ?_, ?_, ?_, Or.inr ⟨lo i, ?_⟩⟩
  · intro j hj _ hcol
    exact absurd hcol (h.colour_lt hj).ne
  · rw [List.range_succ]
    exact (hfree'.map Prod.snd).trans ((h.colours.cons n).trans (List.perm_append_singleton n _).symm)
  · intro e he
    rcases List.mem_cons.mp (hfree'.mem_iff.mp he) with rfl | he
    · exact ⟨i, Finset.mem_insert_self i S, rfl, Function.update_self ..⟩
    · obtain ⟨j, hj, hend, hcol⟩ := h.used e he
      exact ⟨j, Finset.mem_insert_of_mem hj, hend, (hold hj).trans hcol⟩
  · intro j hj
    rcases Finset.mem_insert.mp hj with rfl | hj
    · exact ⟨(hi j, n), hfree'.mem_iff.mpr List.mem_cons_self, Function.update_self .., le_refl _⟩
    · obtain ⟨e, he, hcol, hend⟩ := h.ended j hj
      exact ⟨e, hfree'.mem_iff.mpr (List.mem_cons_of_mem _ he), (hold hj).trans hcol, hend⟩
  · exact h.depth_of_all_taken hnew hlt hstart htaken

end Packed

end Greedy

/-! ## Sweeping sorted events -/

section Sweep

/-- Position first; at one position the smaller change first. -/
def Sorted (events : List (α × ℤ)) : Prop := events.Pairwise fun a b => toLex a ≤ toLex b

/-- What the events up to position `x` add up to. -/
def net (events : List (α × ℤ)) (x : α) : ℤ := ((events.filter fun e => e.1 ≤ x).map Prod.snd).sum

theorem net_perm {events events' : List (α × ℤ)} (h : events.Perm events') (x : α) :
    net events x = net events' x := ((h.filter _).map Prod.snd).sum_eq

/-- **A total is a running total.** The events up to `x` are a first part of the sorted ones. -/
theorem net_prefix : ∀ {events : List (α × ℤ)}, Sorted events → ∀ x, ∃ done rest, events = done ++ rest ∧
    (done.map Prod.snd).sum = net events x
  | [], _, _ => ⟨[], [], rfl, rfl⟩
  | e :: events, hs, x => by
      obtain ⟨hhead, htail⟩ := List.pairwise_cons.mp hs
      by_cases he : e.1 ≤ x
      · obtain ⟨done, rest, heq, hsum⟩ := net_prefix htail x
        refine ⟨e :: done, rest, by rw [heq, List.cons_append], ?_⟩
        simp only [net, List.filter_cons, he, decide_true, if_true, List.map_cons, List.sum_cons] at hsum ⊢
        rw [hsum]
      · have hnone : (e :: events).filter (fun b => b.1 ≤ x) = [] := by
          refine List.filter_eq_nil_iff.mpr fun b hb => ?_
          rcases List.mem_cons.mp hb with rfl | hb
          · simpa using he
          · have hle := Prod.Lex.toLex_le_toLex.mp (hhead b hb)
            have hpos : e.1 ≤ b.1 := hle.elim le_of_lt fun h => le_of_eq h.1
            simpa using lt_of_lt_of_le (not_le.mp he) hpos
        exact ⟨[], e :: events, rfl, by rw [net, hnone]⟩

/-- **A running total is at most a total.** After an event that adds something, nothing at its position
    takes away; an event that takes away leaves less than was there before it. -/
theorem prefix_le_net : ∀ {done : List (α × ℤ)} {rest : List (α × ℤ)}, Sorted (done ++ rest) →
    (done.map Prod.snd).sum ≤ 0 ∨ ∃ x, (done.map Prod.snd).sum ≤ net (done ++ rest) x := by
  intro done
  induction done using List.reverseRecOn with
  | nil => exact fun _ => Or.inl (le_refl _)
  | append_singleton done e ih =>
      intro rest hs
      by_cases hgain : 0 < e.2
      · refine Or.inr ⟨e.1, ?_⟩
        have hbefore : ∀ b ∈ done ++ [e], b.1 ≤ e.1 := by
          intro b hb
          rcases List.mem_append.mp hb with hb | hb
          · have hle := (List.pairwise_append.mp (List.pairwise_append.mp hs).1).2.2 b hb e List.mem_cons_self
            exact (Prod.Lex.toLex_le_toLex.mp hle).elim le_of_lt fun h => le_of_eq h.1
          · rw [List.mem_singleton.mp hb]
        have hafter : ∀ v ∈ ((rest.filter fun b => b.1 ≤ e.1).map Prod.snd), 0 ≤ v := by
          intro v hv
          obtain ⟨b, hb, rfl⟩ := List.mem_map.mp hv
          obtain ⟨hbr, hbx⟩ := List.mem_filter.mp hb
          have hle := (List.pairwise_append.mp hs).2.2 e
            (List.mem_append.mpr (Or.inr List.mem_cons_self)) b hbr
          rcases Prod.Lex.toLex_le_toLex.mp hle with h | ⟨-, h⟩
          · exact absurd h (not_lt.mpr (by simpa using hbx))
          · exact hgain.le.trans h
        have hall : (done ++ [e]).filter (fun b => b.1 ≤ e.1) = done ++ [e] :=
          List.filter_eq_self.mpr fun b hb => by simpa using hbefore b hb
        have hnet : net (done ++ [e] ++ rest) e.1 =
            ((done ++ [e]).map Prod.snd).sum + ((rest.filter fun b => b.1 ≤ e.1).map Prod.snd).sum := by
          rw [net, List.filter_append, hall, ← List.sum_append, ← List.map_append]
        have hrest := List.sum_nonneg hafter
        omega
      · have hprev : Sorted (done ++ ([e] ++ rest)) := by rwa [← List.append_assoc]
        have hsum : ((done ++ [e]).map Prod.snd).sum ≤ (done.map Prod.snd).sum := by
          rw [List.map_append, List.sum_append]
          simp only [List.map_cons, List.map_nil, List.sum_cons, List.sum_nil]
          omega
        rcases ih hprev with h | ⟨x, h⟩
        · exact Or.inl (hsum.trans h)
        · exact Or.inr ⟨x, by rw [List.append_assoc]; exact hsum.trans h⟩

end Sweep

end Intervals
end Theory
