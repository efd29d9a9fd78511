import SlrBooking.Theory.Rows
import Mathlib.Data.Finset.Card
import Mathlib.Tactic.Common

/-!
# `Theory.ReadCommitted` — one table under READ COMMITTED with an exclusion constraint

The committed rows, and for every transaction in flight the row versions it has written. A statement of
transaction `t` sees the committed rows overlaid with `t`'s own versions. Writing a version takes its
row's lock until the transaction ends, and checks the exclusion constraint against every row version
that is committed, own, or still in doubt:

* a row another transaction has written and not finished makes the writer wait, and so does a clash with
  a version in doubt;
* a clash with a settled visible row refuses the write;
* otherwise the version is recorded. Nothing looks at the version it replaces.

## Contents
- `Schema`, `Db`, `Db.view`, `Db.write`, `Db.commit`, `Db.rollback`.
- `Sound`: distinct keys, one version in doubt per row, no clash in any view; kept by every operation.
  `Sound.base` is the exclusion constraint on the committed rows.
- `Tracks R`: every version in doubt is `R`-related to the committed row it will replace. The row lock
  keeps this until commit, so a committed row only ever changes along `R` (`Tracks.commit_moves`).
- `rewrites`, `Sound.count_commit`: how many rows of a kind a commit can add.
-/

namespace Theory

/-- A keyed row type with a symmetric exclusion relation. -/
structure Schema (κ ρ : Type) where
  key   : ρ → κ
  clash : ρ → ρ → Bool
  symm  : ∀ a b, clash a b = clash b a

/-- The committed rows and the versions in doubt, each with the transaction that wrote it. -/
structure Db (ρ : Type) where
  committed : List ρ
  pending   : List (Nat × ρ) := []
deriving DecidableEq

/-- What became of a write. -/
inductive Written (ρ : Type) where
  | wait
  | refused
  | done (db : Db ρ)

namespace Db

open Rows

variable {κ ρ : Type} [DecidableEq κ] (S : Schema κ ρ)

/-- The versions transaction `t` has written. -/
def own (db : Db ρ) (t : Nat) : List ρ := (db.pending.filter fun p => p.1 = t).map (·.2)

/-- The versions in doubt for transaction `t`: everybody else's. -/
def foreign (db : Db ρ) (t : Nat) : List ρ := (db.pending.filter fun p => p.1 ≠ t).map (·.2)

/-- What a statement of `t` sees. -/
def view (db : Db ρ) (t : Nat) : List ρ := overlay S.key db.committed (db.own t)

/-- Another transaction has written the row under `k` and not finished. -/
def locked (db : Db ρ) (t : Nat) (k : κ) : Bool := (db.foreign t).any fun r => S.key r = k

/-- The visible rows that exclude `r`. -/
def rivals (db : Db ρ) (t : Nat) (r : ρ) : List ρ :=
  (db.view S t).filter fun v => S.key v ≠ S.key r && S.clash r v

/-- Transaction `t` writes the version `r`, a new row or the next version of a visible one. -/
def write (db : Db ρ) (t : Nat) (r : ρ) : Written ρ :=
  if db.locked S t (S.key r) then .wait
  else if (db.foreign t).any (S.clash r) then .wait
  else if (db.rivals S t r).any (fun v => !db.locked S t (S.key v)) then .refused
  else if (db.rivals S t r).isEmpty then
    .done { db with
      pending := db.pending.filter (fun p => !(p.1 = t && S.key p.2 = S.key r)) ++ [(t, r)] }
  else .wait

/-- `t`'s versions become the committed ones. -/
def commit (db : Db ρ) (t : Nat) : Db ρ :=
  { committed := db.view S t, pending := db.pending.filter fun p => p.1 ≠ t }

/-- `t`'s versions are dropped. -/
def rollback (db : Db ρ) (t : Nat) : Db ρ :=
  { db with pending := db.pending.filter fun p => p.1 ≠ t }

variable {S} {db : Db ρ} {t u : Nat} {r : ρ}

theorem mem_own {x : ρ} : x ∈ db.own t ↔ (t, x) ∈ db.pending := by
  simp only [own, List.mem_map, List.mem_filter, decide_eq_true_eq, Prod.exists]
  constructor
  · rintro ⟨a, b, ⟨h, rfl⟩, rfl⟩
    exact h
  · exact fun h => ⟨t, x, ⟨h, rfl⟩, rfl⟩

theorem mem_foreign {x : ρ} : x ∈ db.foreign t ↔ ∃ u, u ≠ t ∧ (u, x) ∈ db.pending := by
  simp only [foreign, List.mem_map, List.mem_filter, decide_eq_true_eq, Prod.exists]
  constructor
  · rintro ⟨a, b, ⟨h, hne⟩, rfl⟩
    exact ⟨a, hne, h⟩
  · rintro ⟨u, hu, h⟩
    exact ⟨u, x, ⟨h, hu⟩, rfl⟩

theorem locked_iff {k : κ} : db.locked S t k = true ↔ ∃ u x, u ≠ t ∧ (u, x) ∈ db.pending ∧ S.key x = k := by
  simp only [locked, List.any_eq_true, decide_eq_true_eq, mem_foreign]
  constructor
  · rintro ⟨x, ⟨u, hu, h⟩, hk⟩
    exact ⟨u, x, hu, h, hk⟩
  · rintro ⟨u, x, hu, h, hk⟩
    exact ⟨x, ⟨u, hu, h⟩, hk⟩

/-- **What a write can do.** -/
theorem write_done {db' : Db ρ} (h : db.write S t r = .done db') :
    db.locked S t (S.key r) = false ∧ (∀ x ∈ db.foreign t, S.clash r x = false) ∧
    (∀ v ∈ db.view S t, S.key v ≠ S.key r → S.clash r v = false) ∧
    db' = { db with
      pending := db.pending.filter (fun p => !(p.1 = t && S.key p.2 = S.key r)) ++ [(t, r)] } := by
  unfold write at h
  split at h
  · cases h
  · rename_i hlock
    split at h
    · cases h
    · rename_i hforeign
      split at h
      · cases h
      · split at h
        · rename_i hempty
          refine ⟨by simpa using hlock, by simpa using hforeign, ?_, (Written.done.inj h).symm⟩
          intro v hv hne
          have hnot : v ∉ db.rivals S t r := by
            rw [List.isEmpty_iff.mp hempty]
            simp
          simp only [rivals, List.mem_filter, hv, true_and, Bool.and_eq_true, decide_eq_true_eq, hne,
            ne_eq, not_false_eq_true] at hnot
          simpa using hnot
        · cases h

/-- A refused write met a visible row that excludes it. -/
theorem write_refused (h : db.write S t r = .refused) :
    ∃ v ∈ db.view S t, S.key v ≠ S.key r ∧ S.clash r v = true := by
  unfold write at h
  split at h
  · cases h
  · split at h
    · cases h
    · split at h
      · rename_i hany
        obtain ⟨v, hv, -⟩ := List.any_eq_true.mp hany
        simp only [rivals, List.mem_filter, Bool.and_eq_true, decide_eq_true_eq] at hv
        exact ⟨v, hv.1, hv.2.1, hv.2.2⟩
      · split at h <;> cases h

/-- The version `x` in doubt keeps `t` from writing `r`: it holds the row, or excludes the version, or holds a row
    whose visible version excludes it. -/
def Hinders (S : Schema κ ρ) (db : Db ρ) (t : Nat) (r x : ρ) : Prop :=
  S.key x = S.key r ∨ S.clash r x = true ∨ ∃ v ∈ db.rivals S t r, S.key v = S.key x

/-- **What a write waits for**: a version another transaction has in doubt. -/
theorem write_wait (h : db.write S t r = .wait) : ∃ u x, u ≠ t ∧ (u, x) ∈ db.pending ∧ db.Hinders S t r x := by
  unfold write at h
  split at h
  · rename_i hlock
    obtain ⟨u, x, hu, hx, hkey⟩ := locked_iff.mp hlock
    exact ⟨u, x, hu, hx, Or.inl hkey⟩
  · split at h
    · rename_i hforeign
      obtain ⟨x, hx, hclash⟩ := List.any_eq_true.mp hforeign
      obtain ⟨u, hu, hx⟩ := mem_foreign.mp hx
      exact ⟨u, x, hu, hx, Or.inr (Or.inl hclash)⟩
    · split at h
      · cases h
      · rename_i hlocked
        split at h
        · cases h
        · rename_i hrivals
          obtain ⟨v, hv⟩ := List.exists_mem_of_ne_nil _ fun he => hrivals (List.isEmpty_iff.mpr he)
          have hheld : db.locked S t (S.key v) = true := by
            by_contra hfree
            exact hlocked (List.any_eq_true.mpr ⟨v, hv, by simpa using hfree⟩)
          obtain ⟨u, x, hu, hx, hkey⟩ := locked_iff.mp hheld
          exact ⟨u, x, hu, hx, Or.inr (Or.inr ⟨v, hv, hkey.symm⟩)⟩

/-- A version that excludes nothing waits for its own row only. -/
theorem Hinders.key_eq {x : ρ} (h : db.Hinders S t r x) (hcalm : ∀ y, S.clash r y = false) : S.key x = S.key r := by
  rcases h with hkey | hclash | ⟨v, hv, -⟩
  · exact hkey
  · rw [hcalm] at hclash
    cases hclash
  · rw [rivals, List.mem_filter, hcalm, Bool.and_false] at hv
    cases hv.2

/-- Alone on the table, a write is refused exactly when a visible row excludes it. -/
theorem write_alone (halone : db.foreign t = []) :
    db.write S t r =
      if (db.rivals S t r).isEmpty then
        .done { db with
          pending := db.pending.filter (fun p => !(p.1 = t && S.key p.2 = S.key r)) ++ [(t, r)] }
      else .refused := by
  have hlock : ∀ k, db.locked S t k = false := by simp [locked, halone]
  unfold write
  rw [hlock, halone]
  cases hr : db.rivals S t r with
  | nil => simp
  | cons v vs => simp [hlock]

/-- Alone on the table and excluded by nothing visible, a write goes through. -/
theorem write_alone_done (halone : db.foreign t = [])
    (hfree : ∀ v ∈ db.view S t, S.key v ≠ S.key r → S.clash r v = false) : ∃ db', db.write S t r = .done db' := by
  rw [write_alone halone]
  have hnone : db.rivals S t r = [] := by
    unfold rivals
    rw [List.filter_eq_nil_iff]
    intro v hv hr
    simp only [Bool.and_eq_true, decide_eq_true_eq] at hr
    rw [hfree v hv hr.1] at hr
    exact absurd hr.2 (by simp)
  rw [hnone]
  exact ⟨_, rfl⟩

/-! ## Soundness: distinct keys, row locks, the exclusion constraint -/

/-- The table's invariant. -/
structure Sound (S : Schema κ ρ) (db : Db ρ) : Prop where
  keyed : Keyed S.key db.committed
  locks : (db.pending.map fun p => S.key p.2).Nodup
  base  : ∀ a ∈ db.committed, ∀ b ∈ db.committed, S.key a ≠ S.key b → S.clash a b = false
  apart : ∀ t, ∀ a ∈ db.view S t, ∀ b ∈ db.view S t, S.key a ≠ S.key b → S.clash a b = false
  cross : ∀ p ∈ db.pending, ∀ q ∈ db.pending, p.1 ≠ q.1 → S.clash p.2 q.2 = false

theorem sound_empty : Sound S (⟨[], []⟩ : Db ρ) where
  keyed := keyed_nil
  locks := List.nodup_nil
  base := by simp
  apart := by simp [view, own]
  cross := by simp

/-- One version in doubt per row: equal keys mean the same entry. -/
theorem Sound.pending_inj (hs : Sound S db) {p q : Nat × ρ} (hp : p ∈ db.pending) (hq : q ∈ db.pending)
    (h : S.key p.2 = S.key q.2) : p = q :=
  List.inj_on_of_nodup_map hs.locks hp hq h

theorem Sound.own_keyed (hs : Sound S db) (t : Nat) : Keyed S.key (db.own t) := by
  unfold Keyed own
  rw [List.map_map]
  exact hs.locks.sublist (List.filter_sublist.map _)

theorem Sound.view_keyed (hs : Sound S db) (t : Nat) : Keyed S.key (db.view S t) :=
  overlay_keyed hs.keyed _

theorem Sound.mem_view (hs : Sound S db) {x : ρ} :
    x ∈ db.view S t ↔ x ∈ db.own t ∨ (x ∈ db.committed ∧ S.key x ∉ (db.own t).map S.key) :=
  mem_overlay hs.keyed (hs.own_keyed t)

/-- A row nobody has in doubt is seen as committed by everybody. -/
theorem Sound.mem_view_of_committed (hs : Sound S db) {x : ρ} (hx : x ∈ db.committed)
    (h : S.key x ∉ (db.own t).map S.key) : x ∈ db.view S t :=
  hs.mem_view.mpr (Or.inr ⟨hx, h⟩)

theorem Sound.lookup_view (hs : Sound S db) (k : κ) :
    lookup S.key k (db.view S t) = (lookup S.key k (db.own t)).or (lookup S.key k db.committed) :=
  lookup_overlay (hs.own_keyed t) _ _

/-! ## One write

The versions after a write are the new one and the others under other keys or of other transactions. The table stays
sound because the write waits on a locked key and is refused by a visible rival. -/

/-- The pending entries after a write: the new one and the others under other rows. -/
theorem mem_pending_write {db' : Db ρ} (h : db.write S t r = .done db') {p : Nat × ρ} :
    p ∈ db'.pending ↔ p = (t, r) ∨ (p ∈ db.pending ∧ ¬ (p.1 = t ∧ S.key p.2 = S.key r)) := by
  obtain ⟨-, -, -, rfl⟩ := write_done h
  simp only [List.mem_append, List.mem_filter, List.mem_singleton, Bool.not_eq_eq_eq_not, Bool.not_true,
    Bool.and_eq_false_imp, decide_eq_true_eq, decide_eq_false_iff_not, not_and]
  tauto

theorem committed_write {db' : Db ρ} (h : db.write S t r = .done db') : db'.committed = db.committed := by
  obtain ⟨-, -, -, rfl⟩ := write_done h
  rfl

/-- The writer sees its new version and otherwise what it saw. -/
theorem own_write {db' : Db ρ} (h : db.write S t r = .done db') {x : ρ} :
    x ∈ db'.own t ↔ x = r ∨ (x ∈ db.own t ∧ S.key x ≠ S.key r) := by
  rw [mem_own, mem_pending_write h, mem_own]
  simp

theorem own_write_eq {db' : Db ρ} (h : db.write S t r = .done db') (hu : u ≠ t) : db'.own u = db.own u := by
  obtain ⟨-, -, -, rfl⟩ := write_done h
  unfold own
  rw [List.filter_append, List.filter_filter, List.filter_cons_of_neg (by simpa using Ne.symm hu), List.filter_nil,
    List.append_nil]
  congr 1
  refine List.filter_congr fun p _ => ?_
  by_cases hp : p.1 = u
  · simp [hp, hu]
  · simp [hp]

theorem own_write_of_ne {db' : Db ρ} (h : db.write S t r = .done db') (hu : u ≠ t) {x : ρ} :
    x ∈ db'.own u ↔ x ∈ db.own u := by
  rw [own_write_eq h hu]

/-- What the others have in doubt is not the writer's doing. -/
theorem foreign_write {db' : Db ρ} (h : db.write S t r = .done db') {x : ρ} :
    x ∈ db'.foreign t ↔ x ∈ db.foreign t := by
  rw [mem_foreign, mem_foreign]
  constructor
  · rintro ⟨u, hu, hx⟩
    rcases (mem_pending_write h).mp hx with he | ⟨hx, -⟩
    · exact absurd (congrArg Prod.fst he) hu
    · exact ⟨u, hu, hx⟩
  · rintro ⟨u, hu, hx⟩
    exact ⟨u, hu, (mem_pending_write h).mpr (Or.inr ⟨hx, fun hc => hu hc.1⟩)⟩

/-- **A recorded write keeps the table sound.** -/
theorem Sound.write (hs : Sound S db) {db' : Db ρ} (h : db.write S t r = .done db') : Sound S db' := by
  obtain ⟨hlock, hforeign, hview, hdb⟩ := write_done h
  have hlocks : (db'.pending.map fun p => S.key p.2).Nodup := by
    subst hdb
    rw [List.map_append]
    refine List.nodup_append.mpr ⟨hs.locks.sublist (List.filter_sublist.map _), by simp, ?_⟩
    intro a ha b hb
    simp only [List.map_cons, List.map_nil, List.mem_singleton] at hb
    obtain ⟨p, hp, rfl⟩ := List.mem_map.mp ha
    simp only [List.mem_filter, Bool.not_eq_eq_eq_not, Bool.not_true, Bool.and_eq_false_imp,
      decide_eq_true_eq, decide_eq_false_iff_not] at hp
    rw [hb]
    intro he
    by_cases hpt : p.1 = t
    · exact hp.2 hpt he
    · rw [locked_iff.mpr ⟨p.1, p.2, hpt, hp.1, he⟩] at hlock
      cases hlock
  have hkeyed : Keyed S.key db'.committed := by
    rw [committed_write h]
    exact hs.keyed
  have hown : ∀ u, Keyed S.key (db'.own u) := by
    intro u
    unfold Keyed own
    rw [List.map_map]
    exact hlocks.sublist (List.filter_sublist.map _)
  have hmem : ∀ u x, x ∈ db'.view S u ↔
      x ∈ db'.own u ∨ (x ∈ db.committed ∧ S.key x ∉ (db'.own u).map S.key) := by
    intro u x
    rw [← committed_write h]
    exact mem_overlay hkeyed (hown u)
  -- the writer's view gains `r` and nothing else
  have hself : ∀ x ∈ db'.view S t, x = r ∨ (x ∈ db.view S t ∧ S.key x ≠ S.key r) := by
    intro x hx
    rcases (hmem t x).mp hx with hx | ⟨hx, hno⟩
    · rcases (own_write h).mp hx with rfl | ⟨hx, hne⟩
      · exact Or.inl rfl
      · exact Or.inr ⟨hs.mem_view.mpr (Or.inl hx), hne⟩
    · have hne : S.key x ≠ S.key r := by
        intro he
        exact hno (List.mem_map.mpr ⟨r, (own_write h).mpr (Or.inl rfl), he.symm⟩)
      refine Or.inr ⟨hs.mem_view_of_committed hx ?_, hne⟩
      intro hk
      obtain ⟨y, hy, hyk⟩ := List.mem_map.mp hk
      exact hno (List.mem_map.mpr ⟨y, (own_write h).mpr (Or.inr ⟨hy, hyk ▸ hne⟩), hyk⟩)
  refine ⟨hkeyed, hlocks, ?_, ?_, ?_⟩
  · rw [committed_write h]
    exact hs.base
  · intro u a ha b hb hab
    by_cases hu : u = t
    · subst hu
      rcases hself a ha with rfl | ⟨ha', hane⟩
      · rcases hself b hb with rfl | ⟨hb', hbne⟩
        · exact absurd rfl hab
        · exact hview b hb' hbne
      · rcases hself b hb with rfl | ⟨hb', hbne⟩
        · rw [S.symm]
          exact hview a ha' hane
        · exact hs.apart u a ha' b hb' hab
    · have hsame : ∀ x, x ∈ db'.view S u → x ∈ db.view S u := by
        intro x hx
        rcases (hmem u x).mp hx with hx | ⟨hx, hno⟩
        · exact hs.mem_view.mpr (Or.inl ((own_write_of_ne h hu).mp hx))
        · refine hs.mem_view_of_committed hx fun hk => ?_
          obtain ⟨y, hy, hyk⟩ := List.mem_map.mp hk
          exact hno (List.mem_map.mpr ⟨y, (own_write_of_ne h hu).mpr hy, hyk⟩)
      exact hs.apart u a (hsame a ha) b (hsame b hb) hab
  · intro p hp q hq hpq
    rcases (mem_pending_write h).mp hp with rfl | ⟨hp', -⟩
    · rcases (mem_pending_write h).mp hq with rfl | ⟨hq', -⟩
      · exact absurd rfl hpq
      · exact hforeign q.2 (mem_foreign.mpr ⟨q.1, fun he => hpq he.symm, hq'⟩)
    · rcases (mem_pending_write h).mp hq with rfl | ⟨hq', -⟩
      · rw [S.symm]
        exact hforeign p.2 (mem_foreign.mpr ⟨p.1, hpq, hp'⟩)
      · exact hs.cross p hp' q hq' hpq

/-- **What the writer sees afterwards**: the new version, and every other row as before. -/
theorem Sound.mem_view_write (hs : Sound S db) {db' : Db ρ} (h : db.write S t r = .done db') {x : ρ} :
    x ∈ db'.view S t ↔ x = r ∨ (x ∈ db.view S t ∧ S.key x ≠ S.key r) := by
  rw [(hs.write h).mem_view, hs.mem_view, own_write h, committed_write h]
  have hkeys : S.key x ∉ (db'.own t).map S.key ↔ S.key x ≠ S.key r ∧ S.key x ∉ (db.own t).map S.key := by
    constructor
    · intro hno
      have hne : S.key x ≠ S.key r := by
        intro he
        exact hno (List.mem_map.mpr ⟨r, (own_write h).mpr (Or.inl rfl), he.symm⟩)
      refine ⟨hne, fun hk => ?_⟩
      obtain ⟨y, hy, hyk⟩ := List.mem_map.mp hk
      exact hno (List.mem_map.mpr ⟨y, (own_write h).mpr (Or.inr ⟨hy, hyk ▸ hne⟩), hyk⟩)
    · rintro ⟨hne, hno⟩ hk
      obtain ⟨y, hy, hyk⟩ := List.mem_map.mp hk
      rcases (own_write h).mp hy with rfl | ⟨hy, -⟩
      · exact hne hyk.symm
      · exact hno (List.mem_map.mpr ⟨y, hy, hyk⟩)
  rw [hkeys]
  tauto

/-! ## The end of a transaction

Commit moves the versions of one transaction to the committed rows, rollback drops them; nobody else's versions are
touched. -/

theorem mem_pending_drop {p : Nat × ρ} :
    p ∈ db.pending.filter (fun p => p.1 ≠ t) ↔ p ∈ db.pending ∧ p.1 ≠ t := by
  simp

theorem own_drop {c : List ρ} {x : ρ} :
    x ∈ Db.own ⟨c, db.pending.filter fun p => p.1 ≠ t⟩ u ↔ x ∈ db.own u ∧ u ≠ t := by
  rw [mem_own, mem_own]
  exact mem_pending_drop

/-- What the others have written stays when `t` ends. -/
theorem own_drop_eq {c : List ρ} (hu : u ≠ t) : Db.own ⟨c, db.pending.filter fun p => p.1 ≠ t⟩ u = db.own u := by
  unfold own
  rw [List.filter_filter]
  congr 1
  refine List.filter_congr fun p _ => ?_
  by_cases hp : p.1 = u
  · simp [hp, hu]
  · simp [hp]

theorem own_drop_self {c : List ρ} : Db.own ⟨c, db.pending.filter fun p => p.1 ≠ t⟩ t = [] := by
  unfold own
  rw [List.filter_filter, List.map_eq_nil_iff, List.filter_eq_nil_iff]
  simp

/-- **Commit keeps the table sound.** -/
theorem Sound.commit (hs : Sound S db) (t : Nat) : Sound S (db.commit S t) := by
  have hkeyed : Keyed S.key (db.commit S t).committed := hs.view_keyed t
  have hlocks : ((db.commit S t).pending.map fun p => S.key p.2).Nodup :=
    hs.locks.sublist (List.filter_sublist.map _)
  have hown : ∀ u, Keyed S.key ((db.commit S t).own u) := by
    intro u
    unfold Keyed own
    rw [List.map_map]
    exact hlocks.sublist (List.filter_sublist.map _)
  have hcross : ∀ p ∈ (db.commit S t).pending, ∀ q ∈ (db.commit S t).pending, p.1 ≠ q.1 →
      S.clash p.2 q.2 = false := fun p hp q hq =>
    hs.cross p (mem_pending_drop.mp hp).1 q (mem_pending_drop.mp hq).1
  refine ⟨hkeyed, hlocks, hs.apart t, ?_, hcross⟩
  intro u a ha b hb hab
  -- a row of `u`'s new view is in its old view, or was `t`'s version, or was seen by both
  have hcase : ∀ x ∈ (db.commit S t).view S u, (x ∈ db.own u ∧ u ≠ t) ∨
      (x ∈ db.view S t ∧ S.key x ∉ ((db.commit S t).own u).map S.key) := by
    intro x hx
    rcases (mem_overlay hkeyed (hown u)).mp hx with hx | hx
    · exact Or.inl (own_drop.mp hx)
    · exact Or.inr hx
  have hmixed : ∀ x y, x ∈ db.own u → u ≠ t → y ∈ db.view S t →
      S.key y ∉ ((db.commit S t).own u).map S.key → S.key x ≠ S.key y → S.clash x y = false := by
    intro x y hx hu hy hno hxy
    rcases hs.mem_view.mp hy with hy | ⟨hy, -⟩
    · exact hs.cross (u, x) (mem_own.mp hx) (t, y) (mem_own.mp hy) hu
    · refine hs.apart u x (hs.mem_view.mpr (Or.inl hx)) y (hs.mem_view_of_committed hy ?_) hxy
      intro hk
      obtain ⟨z, hz, hzk⟩ := List.mem_map.mp hk
      exact hno (List.mem_map.mpr ⟨z, own_drop.mpr ⟨hz, hu⟩, hzk⟩)
  rcases hcase a ha with ⟨ha, hu⟩ | ⟨ha, hano⟩
  · rcases hcase b hb with ⟨hb, -⟩ | ⟨hb, hbno⟩
    · exact hs.apart u a (hs.mem_view.mpr (Or.inl ha)) b (hs.mem_view.mpr (Or.inl hb)) hab
    · exact hmixed a b ha hu hb hbno hab
  · rcases hcase b hb with ⟨hb, hu⟩ | ⟨hb, -⟩
    · rw [S.symm]
      exact hmixed b a hb hu ha hano (Ne.symm hab)
    · exact hs.apart t a ha b hb hab

/-- **Rollback keeps the table sound.** -/
theorem Sound.rollback (hs : Sound S db) (t : Nat) : Sound S (db.rollback t) := by
  have hlocks : ((db.rollback t).pending.map fun p => S.key p.2).Nodup :=
    hs.locks.sublist (List.filter_sublist.map _)
  have hown : ∀ u, Keyed S.key ((db.rollback t).own u) := by
    intro u
    unfold Keyed own
    rw [List.map_map]
    exact hlocks.sublist (List.filter_sublist.map _)
  refine ⟨hs.keyed, hlocks, hs.base, ?_, fun p hp q hq =>
    hs.cross p (mem_pending_drop.mp hp).1 q (mem_pending_drop.mp hq).1⟩
  intro u a ha b hb hab
  by_cases hu : u = t
  · have hempty : ∀ x, x ∉ (db.rollback t).own u := fun x hx => (own_drop.mp hx).2 hu
    have hmem : ∀ x ∈ (db.rollback t).view S u, x ∈ db.committed := by
      intro x hx
      rcases (mem_overlay hs.keyed (hown u)).mp hx with hx | hx
      · exact absurd hx (hempty x)
      · exact hx.1
    exact hs.base a (hmem a ha) b (hmem b hb) hab
  · have hmem : ∀ x ∈ (db.rollback t).view S u, x ∈ db.view S u := by
      intro x hx
      rcases (mem_overlay hs.keyed (hown u)).mp hx with hx | ⟨hx, hno⟩
      · exact hs.mem_view.mpr (Or.inl (own_drop.mp hx).1)
      · refine hs.mem_view_of_committed hx fun hk => ?_
        obtain ⟨z, hz, hzk⟩ := List.mem_map.mp hk
        exact hno (List.mem_map.mpr ⟨z, own_drop.mpr ⟨hz, hu⟩, hzk⟩)
    exact hs.apart u a (hmem a ha) b (hmem b hb) hab

/-! ## Row locks: a committed row changes only as its writer found it -/

/-- Every version in doubt is `R`-related to the committed row it will replace. -/
def Tracks (S : Schema κ ρ) (R : ρ → ρ → Prop) (db : Db ρ) : Prop :=
  ∀ p ∈ db.pending, ∀ c, lookup S.key (S.key p.2) db.committed = some c → R c p.2

variable {R : ρ → ρ → Prop}

theorem Tracks.write (ht : Tracks S R db) {db' : Db ρ} (h : db.write S t r = .done db')
    (hr : ∀ c, lookup S.key (S.key r) db.committed = some c → R c r) : Tracks S R db' := by
  intro p hp c hc
  rw [committed_write h] at hc
  rcases (mem_pending_write h).mp hp with rfl | ⟨hp, -⟩
  · exact hr c hc
  · exact ht p hp c hc

theorem Tracks.rollback (ht : Tracks S R db) (t : Nat) : Tracks S R (db.rollback t) :=
  fun p hp c hc => ht p (mem_pending_drop.mp hp).1 c hc

/-- A commit leaves the rows it has no version of alone. -/
theorem Sound.lookup_commit_of_no_own (hs : Sound S db) {k : κ} (h : k ∉ (db.own t).map S.key) :
    lookup S.key k (db.commit S t).committed = lookup S.key k db.committed := by
  show lookup S.key k (db.view S t) = _
  rw [hs.lookup_view]
  have hnone : lookup S.key k (db.own t) = none := by
    rw [lookup_none_iff]
    exact fun x hx he => h (he ▸ List.mem_map_of_mem hx)
  rw [hnone, Option.none_or]

theorem Tracks.commit (hs : Sound S db) (ht : Tracks S R db) (t : Nat) : Tracks S R (db.commit S t) := by
  intro p hp c hc
  obtain ⟨hp, hpt⟩ := mem_pending_drop.mp hp
  refine ht p hp c ?_
  rw [hs.lookup_commit_of_no_own] at hc
  · exact hc
  · intro hk
    obtain ⟨y, hy, hyk⟩ := List.mem_map.mp hk
    exact hpt (congrArg Prod.fst (hs.pending_inj hp (mem_own.mp hy) hyk.symm))

/-- **A committed row moves along `R`.** -/
theorem Tracks.commit_moves (hs : Sound S db) (ht : Tracks S R db) {k : κ} {c c' : ρ}
    (hc : lookup S.key k db.committed = some c)
    (hc' : lookup S.key k (db.commit S t).committed = some c') : c' = c ∨ R c c' := by
  change lookup S.key k (db.view S t) = some c' at hc'
  rw [hs.lookup_view] at hc'
  cases hown : lookup S.key k (db.own t) with
  | none =>
      rw [hown, Option.none_or, hc] at hc'
      exact Or.inl (Option.some.inj hc').symm
  | some y =>
      rw [hown, Option.some_or] at hc'
      obtain rfl := Option.some.inj hc'
      refine Or.inr (ht (t, y) (mem_own.mp (lookup_some_mem hown)) c ?_)
      rw [show S.key (t, y).2 = k from lookup_some_key hown]
      exact hc

/-- A committed row never disappears. -/
theorem Sound.commit_keeps (hs : Sound S db) {k : κ} {c : ρ} (hc : lookup S.key k db.committed = some c) :
    ∃ c', lookup S.key k (db.commit S t).committed = some c' := by
  show ∃ c', lookup S.key k (db.view S t) = some c'
  rw [hs.lookup_view, hc]
  cases lookup S.key k (db.own t) with
  | none => exact ⟨c, rfl⟩
  | some y => exact ⟨y, rfl⟩

/-- Everybody sees a committed row, in some version. -/
theorem Sound.committed_visible (hs : Sound S db) {k : κ} {c : ρ} (hc : lookup S.key k db.committed = some c) :
    k ∈ (db.view S t).map S.key := by
  obtain ⟨c', hc'⟩ := hs.commit_keeps (t := t) hc
  exact List.mem_map.mpr ⟨c', lookup_some_mem hc', lookup_some_key hc'⟩

/-! ## Counting the committed rows of one kind -/

/-- `t` holds the next version of a committed row that `P` counts. -/
def rewrites (S : Schema κ ρ) (P : ρ → Bool) (db : Db ρ) (t : Nat) : Bool :=
  (db.own t).any fun x => db.committed.any fun c => S.key c = S.key x && P c

variable {P : ρ → Bool}

theorem rewrites_iff : rewrites S P db t = true ↔
    ∃ x ∈ db.own t, ∃ c ∈ db.committed, S.key c = S.key x ∧ P c = true := by
  simp [rewrites]

/-- Writing more versions takes none back. -/
theorem rewrites_write {db' : Db ρ} (h : db.write S t r = .done db') (hu : rewrites S P db u = true) :
    rewrites S P db' u = true := by
  obtain ⟨x, hx, c, hc, hkey, hP⟩ := rewrites_iff.mp hu
  rw [rewrites_iff, committed_write h]
  by_cases hut : u = t
  · subst hut
    by_cases hxr : S.key x = S.key r
    · exact ⟨r, (own_write h).mpr (Or.inl rfl), c, hc, hkey.trans hxr, hP⟩
    · exact ⟨x, (own_write h).mpr (Or.inr ⟨hx, hxr⟩), c, hc, hkey, hP⟩
  · exact ⟨x, (own_write_of_ne h hut).mpr hx, c, hc, hkey, hP⟩

/-- Nor does somebody else's commit: the row lock keeps the version that will be replaced. -/
theorem Sound.rewrites_commit (hs : Sound S db) (hut : u ≠ t) (hu : rewrites S P db u = true) :
    rewrites S P (db.commit S t) u = true := by
  obtain ⟨x, hx, c, hc, hkey, hP⟩ := rewrites_iff.mp hu
  refine rewrites_iff.mpr ⟨x, own_drop.mpr ⟨hx, hut⟩, c, hs.mem_view_of_committed hc fun hk => ?_, hkey, hP⟩
  obtain ⟨y, hy, hyk⟩ := List.mem_map.mp hk
  have hsame := hs.pending_inj (mem_own.mp hx) (mem_own.mp hy) (hkey.symm.trans hyk.symm)
  exact hut (congrArg Prod.fst hsame)

theorem rewrites_rollback (hut : u ≠ t) (hu : rewrites S P db u = true) : rewrites S P (db.rollback t) u = true := by
  obtain ⟨x, hx, c, hc, hkey, hP⟩ := rewrites_iff.mp hu
  exact rewrites_iff.mpr ⟨x, own_drop.mpr ⟨hx, hut⟩, c, hc, hkey, hP⟩

/-- Rows of distinct keys are as many as their keys. -/
theorem card_keys {rows : List ρ} (hk : Keyed S.key rows) :
    (((rows.filter P).map S.key).toFinset).card = (rows.filter P).length := by
  rw [List.toFinset_card_of_nodup (hk.sublist (List.filter_sublist.map _)), List.length_map]

/-- The counted rows after a commit: new ones, and the counted ones that `t` did not write. -/
theorem Sound.keys_commit (hs : Sound S db) (new : Finset κ) (hnew : ∀ x ∈ db.own t, P x = true → S.key x ∈ new) :
    (((db.commit S t).committed.filter P).map S.key).toFinset ⊆
      new ∪ (((db.committed.filter P).map S.key).toFinset \ ((db.own t).map S.key).toFinset) := by
  intro k hk
  obtain ⟨x, hx, rfl⟩ := List.mem_map.mp (List.mem_toFinset.mp hk)
  obtain ⟨hx, hP⟩ := List.mem_filter.mp hx
  rw [Finset.mem_union]
  rcases hs.mem_view.mp hx with hown | ⟨hold, hno⟩
  · exact Or.inl (hnew x hown hP)
  · refine Or.inr (Finset.mem_sdiff.mpr ⟨?_, fun h => hno (List.mem_toFinset.mp h)⟩)
    exact List.mem_toFinset.mpr (List.mem_map_of_mem (List.mem_filter.mpr ⟨hold, hP⟩))

/-- **A transaction that writes no counted row adds none.** -/
theorem Sound.count_commit_none (hs : Sound S db) (hnew : ∀ x ∈ db.own t, P x = false) :
    ((db.commit S t).committed.filter P).length ≤ (db.committed.filter P).length := by
  have hkeys := hs.keys_commit (t := t) (P := P) ∅ fun x hx hP => by
    rw [hnew x hx] at hP
    cases hP
  rw [Finset.empty_union] at hkeys
  have hcard := Finset.card_le_card (hkeys.trans Finset.sdiff_subset)
  rwa [card_keys (hs.commit t).keyed, card_keys hs.keyed] at hcard

/-- **A transaction whose counted rows have one key adds one row**, and none if it rewrites a counted row. -/
theorem Sound.count_commit (hs : Sound S db) {k : κ} (hnew : ∀ x ∈ db.own t, P x = true → S.key x = k) :
    ((db.commit S t).committed.filter P).length ≤ (db.committed.filter P).length + 1 ∧
      (rewrites S P db t = true → ((db.commit S t).committed.filter P).length ≤ (db.committed.filter P).length) := by
  have hkeys := hs.keys_commit (t := t) (P := P) {k} fun x hx hP => Finset.mem_singleton.mpr (hnew x hx hP)
  have hcard := (Finset.card_le_card hkeys).trans (Finset.card_union_le _ _)
  rw [card_keys (hs.commit t).keyed, Finset.card_singleton] at hcard
  constructor
  · have hsub := Finset.card_le_card
      (Finset.sdiff_subset (s := ((db.committed.filter P).map S.key).toFinset) (t := ((db.own t).map S.key).toFinset))
    rw [card_keys hs.keyed] at hsub
    omega
  · intro hrewrites
    obtain ⟨x, hx, c, hc, hkey, hP⟩ := rewrites_iff.mp hrewrites
    have hlost : S.key c ∈ ((db.committed.filter P).map S.key).toFinset :=
      List.mem_toFinset.mpr (List.mem_map_of_mem (List.mem_filter.mpr ⟨hc, hP⟩))
    have hown : S.key c ∈ ((db.own t).map S.key).toFinset :=
      List.mem_toFinset.mpr (List.mem_map.mpr ⟨x, hx, hkey.symm⟩)
    have hsub : ((db.committed.filter P).map S.key).toFinset \ ((db.own t).map S.key).toFinset ⊂
        ((db.committed.filter P).map S.key).toFinset :=
      (Finset.ssubset_iff_of_subset Finset.sdiff_subset).mpr
        ⟨S.key c, hlost, fun h => (Finset.mem_sdiff.mp h).2 hown⟩
    have hless := Finset.card_lt_card hsub
    rw [card_keys hs.keyed] at hless
    omega

/-! ## A transaction that runs alone may have any name -/

/-- The table as if everything in doubt were `u`'s. -/
def named (u : Nat) (db : Db ρ) : Db ρ := { db with pending := db.pending.map fun p => (u, p.2) }

theorem pending_alone (halone : db.foreign t = []) {p : Nat × ρ} (hp : p ∈ db.pending) : p.1 = t := by
  by_contra hne
  have hmem : p.2 ∈ db.foreign t := mem_foreign.mpr ⟨p.1, hne, hp⟩
  rw [halone] at hmem
  cases hmem

theorem own_alone (halone : db.foreign t = []) : db.own t = db.pending.map (·.2) := by
  unfold own
  rw [List.filter_eq_self.mpr fun p hp => decide_eq_true (pending_alone halone hp)]

theorem foreign_named : (db.named u).foreign u = [] := by
  refine List.eq_nil_iff_forall_not_mem.mpr fun x hx => ?_
  obtain ⟨v, hv, hx⟩ := mem_foreign.mp hx
  obtain ⟨p, -, hp⟩ := List.mem_map.mp hx
  exact hv (congrArg Prod.fst hp).symm

theorem view_named (halone : db.foreign t = []) : (db.named u).view S u = db.view S t := by
  have hown : (db.named u).own u = db.own t := by
    rw [own_alone foreign_named, own_alone halone, named, List.map_map]
    rfl
  unfold view
  rw [hown]
  rfl

/-- **The same write under another name.** -/
theorem write_named (halone : db.foreign t = []) : (db.named u).write S u r =
    match db.write S t r with
    | .wait => .wait
    | .refused => .refused
    | .done db' => .done (db'.named u) := by
  have hrivals : (db.named u).rivals S u r = db.rivals S t r := by
    unfold rivals
    rw [view_named halone]
  rw [write_alone halone, write_alone foreign_named, hrivals]
  by_cases hnone : (db.rivals S t r).isEmpty = true
  · have hkept : (db.named u).pending.filter (fun p => !(p.1 = u && S.key p.2 = S.key r)) =
        (db.pending.filter fun p => !(p.1 = t && S.key p.2 = S.key r)).map fun p => (u, p.2) := by
      rw [named, List.filter_map]
      refine congrArg _ (List.filter_congr fun p hp => ?_)
      simp [pending_alone halone hp]
    rw [if_pos hnone, if_pos hnone, hkept]
    simp [named]
  · rw [if_neg hnone, if_neg hnone]

theorem commit_named (halone : db.foreign t = []) : (db.named u).commit S u = (db.commit S t).named u := by
  have hnone : ∀ {d : Db ρ} {v : Nat}, d.foreign v = [] → d.pending.filter (fun p => p.1 ≠ v) = [] := fun hd =>
    List.filter_eq_nil_iff.mpr fun p hp => by simpa using pending_alone hd hp
  unfold commit
  rw [view_named halone, hnone foreign_named, hnone halone]
  rfl

/-- Nobody is in the way of a lone transaction. -/
theorem write_not_wait (halone : db.foreign t = []) : db.write S t r ≠ .wait := by
  rw [write_alone halone]
  split <;> exact fun h => nomatch h

theorem foreign_write_nil (halone : db.foreign t = []) {db' : Db ρ} (h : db.write S t r = .done db') :
    db'.foreign t = [] := by
  refine List.eq_nil_iff_forall_not_mem.mpr fun x hx => ?_
  have hbefore := (foreign_write h).mp hx
  rw [halone] at hbefore
  cases hbefore

theorem foreign_commit_nil (halone : db.foreign t = []) : (db.commit S t).foreign t = [] := by
  refine List.eq_nil_iff_forall_not_mem.mpr fun x hx => ?_
  obtain ⟨v, hv, hx⟩ := mem_foreign.mp hx
  exact hv (pending_alone halone (mem_pending_drop.mp hx).1)

end Db
end Theory
