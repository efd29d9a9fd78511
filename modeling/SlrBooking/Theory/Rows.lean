import Mathlib.Data.List.Nodup
import Mathlib.Algebra.BigOperators.Group.List.Basic

/-!
# `Theory.Rows` — lists of rows with a key, in insertion order

A table is a list of rows; `key` reads a row's key. Writing a row keeps its place when its key is
already there and appends it otherwise, which is what a Python `dict` does on assignment. `overlay`
writes a list of rows one after another.
-/

namespace Theory
namespace Rows

variable {κ ρ : Type} [DecidableEq κ] (key : ρ → κ)

/-- The row under key `k`. -/
def lookup (k : κ) (rows : List ρ) : Option ρ := rows.find? fun r => key r = k

/-- Write a row: in place of the row with its key, or at the end. -/
def put (r : ρ) : List ρ → List ρ
  | [] => [r]
  | x :: xs => if key x = key r then r :: xs else x :: put r xs

/-- Write rows one after another. -/
def overlay (base : List ρ) (top : List ρ) : List ρ := top.foldl (fun acc r => put key r acc) base

/-- No key occurs twice. -/
def Keyed (rows : List ρ) : Prop := (rows.map key).Nodup

instance (rows : List ρ) : Decidable (Keyed key rows) := inferInstanceAs (Decidable (List.Nodup _))

variable {key}

omit [DecidableEq κ] in
@[simp] theorem keyed_nil : Keyed key ([] : List ρ) := List.nodup_nil

theorem lookup_some_mem {k : κ} {rows : List ρ} {r : ρ} (h : lookup key k rows = some r) : r ∈ rows :=
  List.mem_of_find?_eq_some h

theorem lookup_some_key {k : κ} {rows : List ρ} {r : ρ} (h : lookup key k rows = some r) :
    key r = k := by
  simpa using List.find?_some h

theorem lookup_none_iff {k : κ} {rows : List ρ} :
    lookup key k rows = none ↔ ∀ r ∈ rows, key r ≠ k := by
  simp [lookup, List.find?_eq_none]

/-- Rewriting rows without touching their keys. -/
theorem lookup_map {f : ρ → ρ} (hf : ∀ r, key (f r) = key r) (k : κ) (rows : List ρ) :
    lookup key k (rows.map f) = (lookup key k rows).map f := by
  induction rows with
  | nil => rfl
  | cons x xs ih =>
      by_cases hx : key x = k
      · simp [lookup, hf, hx]
      · simp only [lookup] at ih
        simp [lookup, hf, hx, ih]

/-- A table with one computed row for each key. -/
theorem lookup_tabulate {β : Type} (f : κ → β) (k : κ) (ks : List κ) :
    lookup Prod.fst k (ks.map fun a => (a, f a)) = if k ∈ ks then some (k, f k) else none := by
  induction ks with
  | nil => rfl
  | cons a ks ih =>
      simp only [lookup] at ih
      by_cases ha : a = k
      · simp [lookup, ha]
      · simp [lookup, ha, ih, Ne.symm ha]

/-- Under distinct keys, membership is lookup. -/
theorem lookup_of_mem {rows : List ρ} (hk : Keyed key rows) {r : ρ} (hr : r ∈ rows) :
    lookup key (key r) rows = some r := by
  induction rows with
  | nil => exact absurd hr (by simp)
  | cons x xs ih =>
      have hx : key x ∉ xs.map key := (List.nodup_cons.mp hk).1
      rcases List.mem_cons.mp hr with h | h
      · subst h
        simp [lookup]
      · have hne : key x ≠ key r := fun he => hx (he ▸ List.mem_map_of_mem h)
        have := ih (List.nodup_cons.mp hk).2 h
        simpa [lookup, hne] using this

theorem mem_iff_lookup {rows : List ρ} (hk : Keyed key rows) {r : ρ} :
    r ∈ rows ↔ lookup key (key r) rows = some r :=
  ⟨lookup_of_mem hk, lookup_some_mem⟩

theorem eq_of_key_eq {rows : List ρ} (hk : Keyed key rows) {a b : ρ} (ha : a ∈ rows) (hb : b ∈ rows)
    (h : key a = key b) : a = b := by
  have hla := lookup_of_mem hk ha
  rw [h, lookup_of_mem hk hb] at hla
  exact (Option.some.inj hla).symm

omit [DecidableEq κ] in
/-- Under distinct keys, one key stands at one place only. -/
theorem index_eq_of_key_eq {rows : List ρ} (hk : Keyed key rows) {i j : Nat} {a b : ρ} (ha : rows[i]? = some a)
    (hb : rows[j]? = some b) (h : key a = key b) : i = j := by
  obtain ⟨hi, rfl⟩ := List.getElem?_eq_some_iff.mp ha
  obtain ⟨hj, rfl⟩ := List.getElem?_eq_some_iff.mp hb
  have hi' : i < (rows.map key).length := by rwa [List.length_map]
  have hj' : j < (rows.map key).length := by rwa [List.length_map]
  have hsame : (rows.map key)[i] = (rows.map key)[j] := by rw [List.getElem_map, List.getElem_map, h]
  exact (List.Nodup.getElem_inj_iff hk).mp hsame

/-- Under distinct keys, the rows of one key are at most the one found. -/
theorem filter_key {rows : List ρ} (hk : Keyed key rows) (k : κ) :
    (rows.filter fun r => key r = k) = (lookup key k rows).toList := by
  induction rows with
  | nil => rfl
  | cons x xs ih =>
      obtain ⟨hx, hxs⟩ := List.nodup_cons.mp hk
      by_cases h : key x = k
      · have hnone : lookup key k xs = none :=
          lookup_none_iff.mpr fun r hr he => hx (by rw [h, ← he]; exact List.mem_map_of_mem hr)
        have hrest := ih hxs
        rw [hnone] at hrest
        simp [lookup, h, hrest]
      · have hrest := ih hxs
        simpa [lookup, h] using hrest

/-! ## `put` -/

@[simp] theorem lookup_put_self (r : ρ) (rows : List ρ) : lookup key (key r) (put key r rows) = some r := by
  induction rows with
  | nil => simp [put, lookup]
  | cons x xs ih =>
      unfold put
      split
      · simp [lookup]
      · rename_i hne
        simpa [lookup, hne] using ih

theorem lookup_put_ne {r : ρ} {k : κ} (h : key r ≠ k) (rows : List ρ) :
    lookup key k (put key r rows) = lookup key k rows := by
  induction rows with
  | nil => simp [put, lookup, h]
  | cons x xs ih =>
      unfold put
      split
      · rename_i hx
        simp [lookup, h, hx]
      · by_cases hxk : key x = k
        · simp [lookup, hxk]
        · simpa [lookup, hxk] using ih

theorem mem_put_keys {r : ρ} {rows : List ρ} {k : κ} :
    k ∈ (put key r rows).map key ↔ k = key r ∨ k ∈ rows.map key := by
  induction rows with
  | nil => simp [put]
  | cons x xs ih =>
      unfold put
      split
      · rename_i hx
        simp [hx]
      · simp only [List.map_cons, List.mem_cons, ih]
        tauto

theorem put_keyed {rows : List ρ} (hk : Keyed key rows) (r : ρ) : Keyed key (put key r rows) := by
  induction rows with
  | nil => simp [put, Keyed]
  | cons x xs ih =>
      obtain ⟨hx, hxs⟩ := List.nodup_cons.mp hk
      unfold put
      split
      · rename_i hxr
        exact List.nodup_cons.mpr ⟨hxr ▸ hx, hxs⟩
      · rename_i hxr
        refine List.nodup_cons.mpr ⟨fun hm => ?_, ih hxs⟩
        rcases mem_put_keys.mp hm with h | h
        · exact hxr h
        · exact hx h

/-- Whatever the keys: a row of the result is the new one or was there. -/
theorem mem_put_cases {r x : ρ} {rows : List ρ} (h : x ∈ put key r rows) : x = r ∨ x ∈ rows := by
  induction rows with
  | nil => exact Or.inl (List.mem_singleton.mp h)
  | cons y ys ih =>
      unfold put at h
      split at h
      · rcases List.mem_cons.mp h with rfl | h
        · exact Or.inl rfl
        · exact Or.inr (List.mem_cons_of_mem y h)
      · rcases List.mem_cons.mp h with rfl | h
        · exact Or.inr List.mem_cons_self
        · exact (ih h).imp_right (List.mem_cons_of_mem y)

/-- A row of the written table is the new row or an old row with another key. -/
theorem mem_put {rows : List ρ} (hk : Keyed key rows) {r x : ρ} :
    x ∈ put key r rows ↔ x = r ∨ (x ∈ rows ∧ key x ≠ key r) := by
  rw [mem_iff_lookup (put_keyed hk r)]
  by_cases h : key x = key r
  · rw [h, lookup_put_self]
    simp [eq_comm]
  · rw [lookup_put_ne (fun he => h he.symm), ← mem_iff_lookup hk]
    constructor
    · exact fun hx => Or.inr ⟨hx, h⟩
    · rintro (rfl | hx)
      · exact absurd rfl h
      · exact hx.1

/-- A fresh key is appended. -/
theorem put_of_fresh {r : ρ} {rows : List ρ} (h : key r ∉ rows.map key) : put key r rows = rows ++ [r] := by
  induction rows with
  | nil => rfl
  | cons x xs ih =>
      simp only [List.map_cons, List.mem_cons, not_or] at h
      unfold put
      rw [if_neg (fun he => h.1 he.symm), ih h.2]
      rfl

/-- Writing over a present key replaces that row only. -/
theorem put_of_mem {rows : List ρ} (hk : Keyed key rows) {old r : ρ} (ho : old ∈ rows)
    (h : key r = key old) : put key r rows = rows.map fun x => if key x = key r then r else x := by
  induction rows with
  | nil => exact absurd ho (by simp)
  | cons x xs ih =>
      obtain ⟨hx, hxs⟩ := List.nodup_cons.mp hk
      unfold put
      by_cases hxr : key x = key r
      · have htail : xs.map (fun y => if key y = key r then r else y) = xs := by
          conv_rhs => rw [← List.map_id xs]
          refine List.map_congr_left fun y hy => ?_
          have : key y ≠ key r := fun he => hx (by rw [hxr, ← he]; exact List.mem_map_of_mem hy)
          simp [this]
        simp [hxr, htail]
      · have hmem : old ∈ xs := by
          rcases List.mem_cons.mp ho with he | he
          · exact absurd (by rw [h, he]) hxr
          · exact he
        simp [hxr, ih hxs hmem]

/-! ## Some of the rows -/

omit [DecidableEq κ] in
/-- Rows that do not answer a question may be left out of the search. -/
theorem find_filter {p q : ρ → Bool} {rows : List ρ} (h : ∀ r ∈ rows, q r = true → p r = true) :
    (rows.filter p).find? q = rows.find? q := by
  induction rows with
  | nil => rfl
  | cons x xs ih =>
      have hrest := ih fun r hr => h r (List.mem_cons_of_mem x hr)
      by_cases hp : p x = true
      · rw [List.filter_cons_of_pos hp, List.find?_cons, List.find?_cons, hrest]
      · have hq : q x = false := by
          by_contra hne
          exact hp (h x List.mem_cons_self (by simpa using hne))
        rw [List.filter_cons_of_neg hp, hrest, List.find?_cons, hq]

theorem put_cons (r x : ρ) (xs : List ρ) : put key r (x :: xs) = if key x = key r then r :: xs else x :: put key r xs :=
  rfl

/-- Writing a row that is kept, to the kept rows. -/
theorem put_filter {p : ρ → Bool} {r : ρ} {rows : List ρ} (hr : p r = true)
    (h : ∀ x ∈ rows, key x = key r → p x = true) : (put key r rows).filter p = put key r (rows.filter p) := by
  induction rows with
  | nil => simp [put, hr]
  | cons x xs ih =>
      have hrest := ih fun y hy => h y (List.mem_cons_of_mem x hy)
      rw [put_cons]
      by_cases hx : key x = key r
      · have hpx := h x List.mem_cons_self hx
        rw [if_pos hx, List.filter_cons_of_pos hr, List.filter_cons_of_pos hpx, put_cons, if_pos hx]
      · rw [if_neg hx]
        by_cases hp : p x = true
        · rw [List.filter_cons_of_pos hp, List.filter_cons_of_pos hp, put_cons, if_neg hx, hrest]
        · rw [List.filter_cons_of_neg hp, List.filter_cons_of_neg hp, hrest]

/-- Writing a row that is left out, over rows that are left out. -/
theorem put_filter_out {p : ρ → Bool} {r : ρ} {rows : List ρ} (hr : p r = false)
    (h : ∀ x ∈ rows, key x = key r → p x = false) : (put key r rows).filter p = rows.filter p := by
  induction rows with
  | nil => simp [put, hr]
  | cons x xs ih =>
      have hrest := ih fun y hy => h y (List.mem_cons_of_mem x hy)
      rw [put_cons]
      by_cases hx : key x = key r
      · have hpx := h x List.mem_cons_self hx
        rw [if_pos hx, List.filter_cons_of_neg (by rw [hr]; exact Bool.false_ne_true),
          List.filter_cons_of_neg (by rw [hpx]; exact Bool.false_ne_true)]
      · rw [if_neg hx, List.filter_cons, List.filter_cons, hrest]

/-! ## `overlay` -/

@[simp] theorem overlay_nil (base : List ρ) : overlay key base [] = base := rfl

theorem overlay_keyed {base : List ρ} (hk : Keyed key base) (top : List ρ) :
    Keyed key (overlay key base top) := by
  induction top generalizing base with
  | nil => exact hk
  | cons r rs ih => exact ih (put_keyed hk r)

/-- Whatever the keys: a row of the overlay was in the base or on top. -/
theorem mem_overlay_cases {base top : List ρ} {x : ρ} (h : x ∈ overlay key base top) : x ∈ base ∨ x ∈ top := by
  induction top generalizing base with
  | nil => exact Or.inl h
  | cons r rs ih =>
      rcases ih h with h | h
      · rcases mem_put_cases h with rfl | h
        · exact Or.inr List.mem_cons_self
        · exact Or.inl h
      · exact Or.inr (List.mem_cons_of_mem r h)

/-- With distinct keys in it, the overlay wins where it has a row and the base shows elsewhere. -/
theorem lookup_overlay {top : List ρ} (hk : Keyed key top) (base : List ρ) (k : κ) :
    lookup key k (overlay key base top) = (lookup key k top).or (lookup key k base) := by
  induction top generalizing base with
  | nil => simp [lookup]
  | cons r rs ih =>
      obtain ⟨hr, hrs⟩ := List.nodup_cons.mp hk
      have hstep : overlay key base (r :: rs) = overlay key (put key r base) rs := rfl
      rw [hstep, ih hrs]
      by_cases h : key r = k
      · have hnone : lookup key k rs = none := by
          rw [lookup_none_iff]
          exact fun x hx he => hr (by rw [h, ← he]; exact List.mem_map_of_mem hx)
        rw [hnone, ← h, lookup_put_self]
        simp [lookup]
      · rw [lookup_put_ne h]
        simp [lookup, h]

theorem mem_overlay {base top : List ρ} (hb : Keyed key base) (ho : Keyed key top) {x : ρ} :
    x ∈ overlay key base top ↔ x ∈ top ∨ (x ∈ base ∧ key x ∉ top.map key) := by
  rw [mem_iff_lookup (overlay_keyed hb top), lookup_overlay ho]
  by_cases h : key x ∈ top.map key
  · obtain ⟨y, hy, hyk⟩ := List.mem_map.mp h
    have hl := lookup_of_mem ho hy
    rw [hyk] at hl
    rw [hl]
    simp only [Option.some_or, Option.some.injEq, h, not_true_eq_false, and_false, or_false]
    constructor
    · rintro rfl
      exact hy
    · exact fun hx => eq_of_key_eq ho hy hx hyk
  · have hnone : lookup key (key x) top = none := by
      rw [lookup_none_iff]
      exact fun y hy he => h (he ▸ List.mem_map_of_mem hy)
    have hnx : x ∉ top := fun hx => h (List.mem_map_of_mem hx)
    rw [hnone, Option.none_or, ← mem_iff_lookup hb]
    simp [hnx, h]

/-! ## Sums -/

section Sum

variable {κ ρ : Type} [DecidableEq κ] {key : ρ → κ} {M : Type} [AddCommMonoid M]

/-- The value under a key, zero without one. -/
def valueAt (key : ρ → κ) (f : ρ → M) (rows : List ρ) (k : κ) : M := ((lookup key k rows).map f).getD 0

theorem valueAt_cons (f : ρ → M) (r : ρ) (rows : List ρ) (k : κ) :
    valueAt key f (r :: rows) k = if key r = k then f r else valueAt key f rows k := by
  unfold valueAt lookup
  by_cases h : key r = k
  · simp [h]
  · simp [h]

/-- **A sum over rows**: those without a listed key, and what is found under the listed keys. -/
theorem sum_split (f : ρ → M) {rows : List ρ} (hk : Keyed key rows) {ks : List κ} (hks : ks.Nodup) :
    (rows.map f).sum = ((rows.filter fun r => key r ∉ ks).map f).sum + (ks.map (valueAt key f rows)).sum := by
  induction rows with
  | nil =>
      have hzero : ks.map (valueAt key f []) = ks.map fun _ => 0 := List.map_congr_left fun _ _ => rfl
      rw [hzero]
      simp
  | cons r rows ih =>
      obtain ⟨hnew, hrest⟩ := List.nodup_cons.mp hk
      rw [List.map_cons, List.sum_cons, ih hrest]
      have hother : ∀ k, key r ≠ k → valueAt key f (r :: rows) k = valueAt key f rows k := fun k h => by
        rw [valueAt_cons, if_neg h]
      by_cases hmem : key r ∈ ks
      · -- the row's own key is one of the listed ones, exactly once
        have hfilter : (r :: rows).filter (fun r => key r ∉ ks) = rows.filter fun r => key r ∉ ks :=
          List.filter_cons_of_neg (by simpa using hmem)
        have hnone : valueAt key f rows (key r) = 0 := by
          have habsent : lookup key (key r) rows = none :=
            lookup_none_iff.mpr fun x hx heq => hnew (heq ▸ List.mem_map_of_mem hx)
          unfold valueAt
          rw [habsent]
          rfl
        have hperm := List.perm_cons_erase hmem
        have hsame : (ks.erase (key r)).map (valueAt key f (r :: rows)) = (ks.erase (key r)).map (valueAt key f rows) :=
          List.map_congr_left fun k hk' => hother k fun heq => by
            rw [← heq] at hk'
            exact (hks.mem_erase_iff.mp hk').1 rfl
        rw [hfilter, (hperm.map (valueAt key f (r :: rows))).sum_eq, (hperm.map (valueAt key f rows)).sum_eq,
          List.map_cons, List.map_cons, hsame, List.sum_cons, List.sum_cons, hnone, valueAt_cons, if_pos rfl, zero_add,
          add_left_comm]
      · have hfilter : (r :: rows).filter (fun r => key r ∉ ks) = r :: rows.filter fun r => key r ∉ ks :=
          List.filter_cons_of_pos (by simpa using hmem)
        have hsame : ks.map (valueAt key f (r :: rows)) = ks.map (valueAt key f rows) :=
          List.map_congr_left fun k hk' => hother k fun heq => hmem (heq ▸ hk')
        rw [hfilter, hsame, List.map_cons, List.sum_cons, add_assoc]

end Sum
end Rows
end Theory
