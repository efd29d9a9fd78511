import Mathlib.Order.Lattice

/-!
# `Theory.FirstLeast` — a scan that keeps the first entry with the least key

A loop over a list with a best entry so far: an entry without a key is passed over, and a later entry takes
the place of the best one only when its key is strictly smaller. `Beats` is the order it settles: the smaller
key, and on equal keys the smaller position.

## Contents
- `firstLeast`, `IsFirst`, `BestOf`.
- `firstLeast_some_iff`, `firstLeast_none_iff`: what the scan returns.
-/

namespace Theory

variable {α κ : Type}

/-! ## Entries by position -/

/-- The entry at position `r.2` has key `r.1`. -/
def KeyAt (key : α → Option κ) (xs : List α) (r : κ × Nat) : Prop := ∃ x, xs[r.2]? = some x ∧ key x = some r.1

/-- An entry of a list grown at its end is an old one or the new one. -/
theorem keyAt_snoc {key : α → Option κ} {done : List α} {x : α} {r : κ × Nat} :
    KeyAt key (done ++ [x]) r ↔ KeyAt key done r ∨ r.2 = done.length ∧ key x = some r.1 := by
  unfold KeyAt
  constructor
  · rintro ⟨y, hy, hkey⟩
    rcases Nat.lt_or_ge r.2 done.length with hlt | hge
    · rw [List.getElem?_append_left hlt] at hy
      exact Or.inl ⟨y, hy, hkey⟩
    · have hlen := (List.getElem?_eq_some_iff.mp hy).1
      have hpos : r.2 = done.length := by
        simp only [List.length_append, List.length_singleton] at hlen
        omega
      rw [hpos, List.getElem?_concat_length] at hy
      obtain rfl := Option.some.inj hy
      exact Or.inr ⟨hpos, hkey⟩
  · rintro (⟨y, hy, hkey⟩ | ⟨hpos, hkey⟩)
    · exact ⟨y, (List.getElem?_append_left (List.getElem?_eq_some_iff.mp hy).1).trans hy, hkey⟩
    · exact ⟨x, by rw [hpos, List.getElem?_concat_length], hkey⟩

theorem keyAt_lt {key : α → Option κ} {xs : List α} {r : κ × Nat} (h : KeyAt key xs r) : r.2 < xs.length := by
  obtain ⟨_, hx, -⟩ := h
  exact (List.getElem?_eq_some_iff.mp hx).1

/-! ## The scan -/

variable [LinearOrder κ]

/-- The scan from position `idx`, with the best key and position so far. -/
def firstLeast (key : α → Option κ) : Nat → List α → Option (κ × Nat) → Option (κ × Nat)
  | _, [], best => best
  | idx, x :: xs, best =>
    match key x with
    | none => firstLeast key (idx + 1) xs best
    | some k =>
      if best.all fun b => k < b.1 then firstLeast key (idx + 1) xs (some (k, idx))
      else firstLeast key (idx + 1) xs best

/-- The smaller key; on equal keys, the earlier position. -/
def Beats (r r' : κ × Nat) : Prop := r.1 < r'.1 ∨ r.1 = r'.1 ∧ r.2 ≤ r'.2

/-- `r` is an entry of `xs`, and beats every entry. -/
def IsFirst (key : α → Option κ) (xs : List α) (r : κ × Nat) : Prop :=
  KeyAt key xs r ∧ ∀ r', KeyAt key xs r' → Beats r r'

/-- The scan's invariant: the best of the entries passed, if one of them has a key. -/
def BestOf (key : α → Option κ) (done : List α) : Option (κ × Nat) → Prop
  | none => ∀ x ∈ done, key x = none
  | some r => IsFirst key done r

theorem Beats.antisymm {r r' : κ × Nat} (h : Beats r r') (h' : Beats r' r) : r = r' := by
  rcases h with h | ⟨h, hle⟩
  · rcases h' with h' | ⟨h', -⟩
    · exact absurd (lt_trans h h') (lt_irrefl _)
    · exact absurd h (h' ▸ lt_irrefl _)
  · rcases h' with h' | ⟨-, hle'⟩
    · exact absurd h' (h ▸ lt_irrefl _)
    · exact Prod.ext h (Nat.le_antisymm hle hle')

theorem IsFirst.unique {key : α → Option κ} {xs : List α} {r r' : κ × Nat} (h : IsFirst key xs r)
    (h' : IsFirst key xs r') : r = r' :=
  (h.2 r' h'.1).antisymm (h'.2 r h.1)

/-- An entry without a key changes nothing. -/
theorem BestOf.skip {key : α → Option κ} {done : List α} {x : α} {best : Option (κ × Nat)}
    (h : BestOf key done best) (hx : key x = none) : BestOf key (done ++ [x]) best := by
  cases best with
  | none =>
      intro y hy
      rcases List.mem_append.mp hy with hy | hy
      · exact h y hy
      · exact List.mem_singleton.mp hy ▸ hx
  | some r =>
      refine ⟨keyAt_snoc.mpr (Or.inl h.1), fun r' hr' => ?_⟩
      rcases keyAt_snoc.mp hr' with hr' | ⟨-, hkey⟩
      · exact h.2 r' hr'
      · rw [hx] at hkey
        cases hkey

/-- An entry that does no better than the best one is passed over. -/
theorem BestOf.keep {key : α → Option κ} {done : List α} {x : α} {k : κ} {r : κ × Nat}
    (h : BestOf key done (some r)) (hx : key x = some k) (hle : r.1 ≤ k) : BestOf key (done ++ [x]) (some r) := by
  refine ⟨keyAt_snoc.mpr (Or.inl h.1), fun r' hr' => ?_⟩
  rcases keyAt_snoc.mp hr' with hr' | ⟨hpos, hkey⟩
  · exact h.2 r' hr'
  · have hk : k = r'.1 := Option.some.inj (hx.symm.trans hkey)
    rcases lt_or_eq_of_le hle with hlt | heq
    · exact Or.inl (hk ▸ hlt)
    · exact Or.inr ⟨heq.trans hk, hpos ▸ Nat.le_of_lt (keyAt_lt h.1)⟩

/-- An entry that does better than every one before it becomes the best. -/
theorem BestOf.replace {key : α → Option κ} {done : List α} {x : α} {k : κ} {best : Option (κ × Nat)}
    (h : BestOf key done best) (hx : key x = some k) (hlt : ∀ b ∈ best, k < b.1) :
    BestOf key (done ++ [x]) (some (k, done.length)) := by
  refine ⟨keyAt_snoc.mpr (Or.inr ⟨rfl, hx⟩), fun r' hr' => ?_⟩
  rcases keyAt_snoc.mp hr' with hr' | ⟨hpos, hkey⟩
  · cases best with
    | none =>
        obtain ⟨y, hy, hkey⟩ := hr'
        rw [h y (List.mem_of_getElem? hy)] at hkey
        cases hkey
    | some b =>
        have hb : k < b.1 := hlt b rfl
        rcases h.2 r' hr' with hlt' | ⟨heq, -⟩
        · exact Or.inl (lt_trans hb hlt')
        · exact Or.inl (heq ▸ hb)
  · exact Or.inr ⟨Option.some.inj (hx.symm.trans hkey), Nat.le_of_eq hpos.symm⟩

/-- The invariant over the whole scan. -/
theorem firstLeast_bestOf (key : α → Option κ) : ∀ (xs done : List α) (best : Option (κ × Nat)),
    BestOf key done best → BestOf key (done ++ xs) (firstLeast key done.length xs best) := by
  intro xs
  induction xs with
  | nil =>
      intro done best h
      simpa [firstLeast] using h
  | cons x xs ih =>
      intro done best h
      have hrest : ∀ best', BestOf key (done ++ [x]) best' →
          BestOf key (done ++ x :: xs) (firstLeast key (done.length + 1) xs best') := by
        intro best' h'
        have hstep := ih (done ++ [x]) best' h'
        rwa [List.append_assoc, List.singleton_append, List.length_append, List.length_singleton] at hstep
      simp only [firstLeast]
      cases hx : key x with
      | none => exact hrest best (h.skip hx)
      | some k =>
          dsimp only
          split
          · rename_i hall
            apply hrest
            apply h.replace hx
            intro b hb
            simpa [Option.mem_def.mp hb] using hall
          · rename_i hall
            apply hrest
            cases best with
            | none => simp at hall
            | some b => exact h.keep hx (le_of_not_gt (by simpa using hall))

theorem firstLeast_zero (key : α → Option κ) (xs : List α) : BestOf key xs (firstLeast key 0 xs none) :=
  firstLeast_bestOf key xs [] none (by simp [BestOf])

/-- **What the scan returns.** The entry that beats every other. -/
theorem firstLeast_some_iff {key : α → Option κ} {xs : List α} {r : κ × Nat} :
    firstLeast key 0 xs none = some r ↔ IsFirst key xs r := by
  have hspec := firstLeast_zero key xs
  constructor
  · intro h
    rwa [h] at hspec
  · intro h
    cases hres : firstLeast key 0 xs none with
    | none =>
        rw [hres] at hspec
        obtain ⟨x, hx, hkey⟩ := h.1
        rw [hspec x (List.mem_of_getElem? hx)] at hkey
        cases hkey
    | some r' =>
        rw [hres] at hspec
        rw [hspec.unique h]

/-- The scan returns nothing exactly when no entry has a key. -/
theorem firstLeast_none_iff {key : α → Option κ} {xs : List α} :
    firstLeast key 0 xs none = none ↔ ∀ x ∈ xs, key x = none := by
  have hspec := firstLeast_zero key xs
  constructor
  · intro h
    rwa [h] at hspec
  · intro h
    cases hres : firstLeast key 0 xs none with
    | none => simp
    | some r =>
        rw [hres] at hspec
        obtain ⟨x, hx, hkey⟩ := hspec.1
        rw [h x (List.mem_of_getElem? hx)] at hkey
        cases hkey

end Theory
