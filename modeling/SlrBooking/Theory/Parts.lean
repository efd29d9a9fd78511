import SlrBooking.Theory.Pool
import SlrBooking.Theory.ReadCommitted

/-!
# `Theory.Parts` — a part of the threads, a part of the table

Some threads of a pool keep to a part of the shared state that the others leave alone. Then the steps of the others
may be struck from any schedule: the threads of the part take the same steps, with the same answers and the same
waits, and the part ends the same.

## Contents
- `Machine.Projects`: two configurations agree on a part. `Projects.step`, `projects_runs`: the step and run rules.
- `Db.only p`: the rows of a part. A transaction that writes rows of the part does to the part what it does to the
  table (`view_only`, `write_only`, `commit_only`); one that writes other rows leaves it alone (`only_write`,
  `only_commit`).
-/

namespace Theory

/-! ## A part of the threads -/

namespace Machine

variable {S : Sig} {ε σ τ α : Type} (M : Machine S ε σ) (N : Machine S ε τ)

/-- `d` has the threads of the part as `c` has them, and the part `f` of its state. -/
structure Projects (mine : Nat → Bool) (f : σ → τ) (c : Config S ε σ α) (d : Config S ε τ α) : Prop where
  shared  : d.shared = f c.shared
  threads : ∀ t, mine t = true → d.threads[t]? = c.threads[t]?

/-- What the part sees of an operation. -/
def seen {β : Type} (f : σ → τ) : Option (β × σ) → Option (β × τ) := Option.map fun x => (x.1, f x.2)

section Projects

variable {M N} {mine : Nat → Bool} {f : σ → τ} {c : Config S ε σ α} {d : Config S ε τ α} {t : Nat}

/-- A thread that has moved on both sides, and the states with it. -/
theorem Projects.set (h : Projects mine f c d) {th th' : Thread S ε α} (hth : c.threads[t]? = some th)
    (hmine : mine t = true) {s : σ} {s' : τ} (hs : s' = f s) :
    Projects mine f ⟨s, c.threads.set t th'⟩ ⟨s', d.threads.set t th'⟩ where
  shared := hs
  threads := by
    intro u hu
    have hdth : d.threads[t]? = some th := (h.threads t hmine).trans hth
    by_cases hut : u = t
    · subst hut
      rw [List.getElem?_set_self (List.getElem?_eq_some_iff.mp hth).1,
        List.getElem?_set_self (List.getElem?_eq_some_iff.mp hdth).1]
    · rw [List.getElem?_set_ne (Ne.symm hut), List.getElem?_set_ne (Ne.symm hut)]
      exact h.threads u hu

/-- **A step of the part** is the same step on both sides. -/
theorem Projects.step (h : Projects mine f c d) (hmine : mine t = true)
    (hexec : ∀ o, c.next t = some o → N.exec t o (f c.shared) = seen f (M.exec t o c.shared))
    (hfinish : f (M.finish t c.shared) = N.finish t (f c.shared)) : Projects mine f (M.step c t) (N.step d t) := by
  unfold Machine.step
  rw [h.threads t hmine]
  cases hth : c.threads[t]? with
  | none => exact h
  | some th =>
      dsimp only
      cases hended : th.ended with
      | true => exact h
      | false =>
          cases hprog : th.prog with
          | ret a | raise e => exact h.set hth hmine (by rw [h.shared, hfinish])
          | perform o k =>
              have hsame := hexec o (Config.next_eq hth hended hprog)
              dsimp only
              rw [h.shared, hsame]
              cases hans : M.exec t o c.shared with
              | none => exact h
              | some x => exact h.set hth hmine rfl

/-- **A step of another thread** is no step of the part. -/
theorem Projects.other (h : Projects mine f c d) (hmine : mine t = false)
    (hexec : ∀ o r s, c.next t = some o → M.exec t o c.shared = some (r, s) → f s = f c.shared)
    (hfinish : f (M.finish t c.shared) = f c.shared) : Projects mine f (M.step c t) d := by
  have hne : ∀ u, mine u = true → u ≠ t := by
    rintro u hu rfl
    rw [hmine] at hu
    cases hu
  have hmove := M.step_move c t
  generalize M.step c t = c' at hmove ⊢
  cases hmove with
  | stay => exact h
  | finish hth hlive hres =>
      refine ⟨h.shared.trans hfinish.symm, fun u hu => ?_⟩
      rw [List.getElem?_set_ne (Ne.symm (hne u hu))]
      exact h.threads u hu
  | act hth hlive hprog hans =>
      refine ⟨h.shared.trans (hexec _ _ _ (Config.next_eq hth hlive hprog) hans).symm, fun u hu => ?_⟩
      rw [List.getElem?_set_ne (Ne.symm (hne u hu))]
      exact h.threads u hu

end Projects

/-- **Run rule for a part.** In a run that obeys `ok`, under an invariant `I` of such runs, let the operations of the
    part act on the part alone and those of the others not on it. Then striking the others' steps from the schedule
    leaves the part as it was. -/
theorem projects_runs {mine : Nat → Bool} {f : σ → τ} {ok : Config S ε σ α → Nat → Prop} {I : Config S ε σ α → Prop}
    (hinv : ∀ c t, I c → ok c t → I (M.step c t))
    (hmine : ∀ c t, I c → ok c t → mine t = true →
      (∀ o, c.next t = some o → N.exec t o (f c.shared) = seen f (M.exec t o c.shared)) ∧
        f (M.finish t c.shared) = N.finish t (f c.shared))
    (hother : ∀ c t, I c → ok c t → mine t = false →
      (∀ o r s, c.next t = some o → M.exec t o c.shared = some (r, s) → f s = f c.shared) ∧
        f (M.finish t c.shared) = f c.shared) :
    ∀ {sched : List Nat} {c : Config S ε σ α} {d : Config S ε τ α}, I c → M.Obeys ok c sched → Projects mine f c d →
      Projects mine f (M.runs c sched) (N.runs d (sched.filter mine))
  | [], _, _, _, _, h => h
  | t :: sched, c, d, hc, hobeys, h => by
      have hnext := hinv c t hc hobeys.1
      cases ht : mine t with
      | true =>
          rw [List.filter_cons_of_pos ht]
          obtain ⟨hexec, hfinish⟩ := hmine c t hc hobeys.1 ht
          exact projects_runs hinv hmine hother hnext hobeys.2 (h.step ht hexec hfinish)
      | false =>
          rw [List.filter_cons_of_neg (by rw [ht]; exact Bool.false_ne_true)]
          obtain ⟨hexec, hfinish⟩ := hother c t hc hobeys.1 ht
          exact projects_runs hinv hmine hother hnext hobeys.2 (h.other ht hexec hfinish)

end Machine

/-! ## Rows of a part -/

namespace Rows

variable {κ ρ : Type} [DecidableEq κ] {key : ρ → κ} {p : ρ → Bool}

omit [DecidableEq κ] in
theorem filter_snoc_in {rows : List ρ} {r : ρ} (h : p r = true) : (rows ++ [r]).filter p = rows.filter p ++ [r] := by
  rw [List.filter_append, List.filter_cons_of_pos h, List.filter_nil]

omit [DecidableEq κ] in
theorem filter_snoc_out {rows : List ρ} {r : ρ} (h : p r = false) : (rows ++ [r]).filter p = rows.filter p := by
  rw [List.filter_append, List.filter_cons_of_neg (by rw [h]; exact Bool.false_ne_true), List.filter_nil,
    List.append_nil]

/-- Writing the rows of the part over the rows of the part, where rows under one key are all of it or all not. -/
theorem overlay_filter {top base : List ρ}
    (h : ∀ x, x ∈ base ∨ x ∈ top → ∀ y, y ∈ base ∨ y ∈ top → key x = key y → p x = p y) :
    overlay key (base.filter p) (top.filter p) = (overlay key base top).filter p := by
  induction top generalizing base with
  | nil => rfl
  | cons r rs ih =>
      have hkey : ∀ x ∈ base, key x = key r → p x = p r := fun x hx =>
        h x (Or.inl hx) r (Or.inr List.mem_cons_self)
      have hold : ∀ x, x ∈ put key r base ∨ x ∈ rs → x ∈ base ∨ x ∈ r :: rs := by
        rintro x (hx | hx)
        · rcases mem_put_cases hx with rfl | hx
          · exact Or.inr List.mem_cons_self
          · exact Or.inl hx
        · exact Or.inr (List.mem_cons_of_mem r hx)
      have hrest := ih fun x hx y hy => h x (hold x hx) y (hold y hy)
      show _ = (overlay key (put key r base) rs).filter p
      rw [← hrest]
      cases hr : p r with
      | true =>
          rw [List.filter_cons_of_pos hr, put_filter hr fun x hx he => (hkey x hx he).trans hr]
          rfl
      | false =>
          rw [List.filter_cons_of_neg (by rw [hr]; exact Bool.false_ne_true),
            put_filter_out hr fun x hx he => (hkey x hx he).trans hr]

end Rows

/-! ## A part of the table -/

/-- The rows of the part `p`, committed and in doubt. -/
def Db.only {ρ : Type} (p : ρ → Bool) (db : Db ρ) : Db ρ :=
  { committed := db.committed.filter p, pending := db.pending.filter fun e => p e.2 }

/-- What became of a write, as the part sees it. -/
def Written.only {ρ : Type} (p : ρ → Bool) : Written ρ → Written ρ
  | .wait => .wait
  | .refused => .refused
  | .done db => .done (db.only p)

namespace Db

open Rows

variable {κ ρ : Type} [DecidableEq κ] {S : Schema κ ρ}

/-- Every version of every row, committed or in doubt. -/
def versions (db : Db ρ) : List ρ := db.committed ++ db.pending.map (·.2)

/-- The versions of one row are all of the part or none is. -/
def Parted (S : Schema κ ρ) (p : ρ → Bool) (db : Db ρ) : Prop :=
  ∀ x ∈ db.versions, ∀ y ∈ db.versions, S.key x = S.key y → p x = p y

variable {p : ρ → Bool} {db : Db ρ} {t : Nat} {r : ρ}

theorem mem_versions {x : ρ} : x ∈ db.versions ↔ x ∈ db.committed ∨ ∃ u, (u, x) ∈ db.pending := by
  simp [versions]

theorem committed_versions {x : ρ} (hx : x ∈ db.committed) : x ∈ db.versions := mem_versions.mpr (Or.inl hx)

theorem pending_versions {e : Nat × ρ} (he : e ∈ db.pending) : e.2 ∈ db.versions := mem_versions.mpr (Or.inr ⟨e.1, he⟩)

theorem own_versions {x : ρ} (hx : x ∈ db.own t) : x ∈ db.versions := mem_versions.mpr (Or.inr ⟨t, mem_own.mp hx⟩)

theorem foreign_versions {x : ρ} (hx : x ∈ db.foreign t) : x ∈ db.versions := by
  obtain ⟨u, -, hu⟩ := mem_foreign.mp hx
  exact mem_versions.mpr (Or.inr ⟨u, hu⟩)

theorem view_versions {x : ρ} (hx : x ∈ db.view S t) : x ∈ db.versions := by
  rcases mem_overlay_cases hx with hx | hx
  · exact committed_versions hx
  · exact own_versions hx

theorem own_only : (db.only p).own t = (db.own t).filter p := by
  unfold own only
  rw [List.filter_map, List.filter_filter, List.filter_filter]
  exact congrArg _ (List.filter_congr fun e _ => Bool.and_comm _ _)

theorem foreign_only : (db.only p).foreign t = (db.foreign t).filter p := by
  unfold foreign only
  rw [List.filter_map, List.filter_filter, List.filter_filter]
  exact congrArg _ (List.filter_congr fun e _ => Bool.and_comm _ _)

/-- **A transaction sees of the part** what it sees on the part. -/
theorem view_only (hp : Parted S p db) : (db.only p).view S t = (db.view S t).filter p := by
  show overlay S.key (db.committed.filter p) ((db.only p).own t) = _
  rw [own_only]
  exact overlay_filter fun x hx y hy => hp x (hx.elim committed_versions own_versions) y
    (hy.elim committed_versions own_versions)

/-- Questions that only rows of the part answer. -/
theorem any_foreign_only {q : ρ → Bool} (hq : ∀ x ∈ db.versions, q x = true → p x = true) :
    ((db.only p).foreign t).any q = (db.foreign t).any q := by
  rw [foreign_only, Bool.eq_iff_iff, List.any_eq_true, List.any_eq_true]
  constructor
  · rintro ⟨x, hx, hqx⟩
    exact ⟨x, (List.mem_filter.mp hx).1, hqx⟩
  · rintro ⟨x, hx, hqx⟩
    exact ⟨x, List.mem_filter.mpr ⟨hx, hq x (foreign_versions hx) hqx⟩, hqx⟩

theorem locked_only {k : κ} (hk : ∀ x ∈ db.versions, S.key x = k → p x = true) :
    (db.only p).locked S t k = db.locked S t k :=
  any_foreign_only fun x hx hkey => hk x hx (by simpa using hkey)

theorem rivals_only (hp : Parted S p db) (hclash : ∀ x ∈ db.versions, S.clash r x = true → p x = true) :
    (db.only p).rivals S t r = db.rivals S t r := by
  unfold rivals
  rw [view_only hp, List.filter_filter]
  refine List.filter_congr fun x hx => ?_
  cases hc : S.clash r x with
  | false => simp
  | true => simp [hclash x (view_versions hx) hc]

/-- **Writing a row of the part**, whose other versions and whose rivals are of the part. -/
theorem write_only (hp : Parted S p db) (hr : p r = true) (hkey : ∀ x ∈ db.versions, S.key x = S.key r → p x = true)
    (hclash : ∀ x ∈ db.versions, S.clash r x = true → p x = true) :
    (db.only p).write S t r = (db.write S t r).only p := by
  have hrivals : (db.rivals S t r).any (fun v => !(db.only p).locked S t (S.key v)) =
      (db.rivals S t r).any fun v => !db.locked S t (S.key v) := by
    -- a rival is of the part, and with it every version that locks it
    have hsame : ∀ v ∈ db.rivals S t r, (db.only p).locked S t (S.key v) = db.locked S t (S.key v) := by
      intro v hv
      obtain ⟨hview, hv⟩ := List.mem_filter.mp hv
      have hpv : p v = true := hclash v (view_versions hview) ((Bool.and_eq_true _ _).mp hv).2
      exact locked_only fun x hx hxv => (hp x hx v (view_versions hview) hxv).trans hpv
    rw [Bool.eq_iff_iff, List.any_eq_true, List.any_eq_true]
    exact exists_congr fun v => and_congr_right fun hv => by rw [hsame v hv]
  have hpending : ((db.only p).pending.filter fun e => !(e.1 = t && S.key e.2 = S.key r)) ++ [(t, r)] =
      (db.pending.filter (fun e => !(e.1 = t && S.key e.2 = S.key r)) ++ [(t, r)]).filter fun e => p e.2 := by
    show (db.pending.filter fun e => p e.2).filter _ ++ _ = _
    rw [filter_snoc_in (p := fun e : Nat × ρ => p e.2) hr, List.filter_filter, List.filter_filter]
    exact congrArg (· ++ _) (List.filter_congr fun e _ => Bool.and_comm _ _)
  unfold write
  rw [locked_only hkey, any_foreign_only hclash, rivals_only hp hclash, hrivals, hpending]
  split
  · rfl
  · split
    · rfl
    · split
      · rfl
      · split
        · rfl
        · rfl

/-- Leaving out versions that are not of the part. -/
theorem filter_pending_out {q : Nat × ρ → Bool} (hq : ∀ e ∈ db.pending, p e.2 = true → q e = true) :
    (db.pending.filter q).filter (fun e => p e.2) = db.pending.filter fun e => p e.2 := by
  rw [List.filter_filter]
  refine List.filter_congr fun e he => ?_
  cases hpe : p e.2 with
  | false => rfl
  | true => rw [hq e he hpe]; rfl

/-- The part has none of the versions of transaction `t`. -/
theorem not_own (hown : ∀ x ∈ db.own t, p x = false) {e : Nat × ρ} (he : e ∈ db.pending) (hpe : p e.2 = true) :
    e.1 ≠ t := by
  rintro rfl
  rw [hown e.2 (mem_own.mpr he)] at hpe
  cases hpe

/-- **Writing a row that is not of the part.** -/
theorem only_write (hr : p r = false) (hown : ∀ x ∈ db.own t, p x = false) {db' : Db ρ}
    (h : db.write S t r = .done db') : db'.only p = db.only p := by
  obtain ⟨-, -, -, rfl⟩ := write_done h
  unfold only
  rw [filter_snoc_out (p := fun e : Nat × ρ => p e.2) hr,
    filter_pending_out fun e he hpe => by simp [not_own hown he hpe]]

/-- **Committing** does to the part what it does to the table. -/
theorem commit_only (hp : Parted S p db) : (db.only p).commit S t = (db.commit S t).only p := by
  unfold commit
  rw [view_only hp]
  unfold only
  rw [List.filter_filter, List.filter_filter]
  exact congrArg (Db.mk _) (List.filter_congr fun e _ => Bool.and_comm _ _)

/-- **Committing rows that are not of the part.** -/
theorem only_commit (hp : Parted S p db) (hown : ∀ x ∈ db.own t, p x = false) : (db.commit S t).only p = db.only p := by
  have hnone : (db.own t).filter p = [] := List.filter_eq_nil_iff.mpr fun x hx => by simp [hown x hx]
  have hview : (db.view S t).filter p = db.committed.filter p := by
    rw [← view_only hp]
    show overlay S.key (db.committed.filter p) ((db.only p).own t) = _
    rw [own_only, hnone, overlay_nil]
  unfold commit only
  rw [hview, filter_pending_out fun e he hpe => by simpa using not_own hown he hpe]

theorem rollback_only : (db.only p).rollback t = (db.rollback t).only p := by
  unfold rollback only
  rw [List.filter_filter, List.filter_filter]
  exact congrArg (Db.mk _) (List.filter_congr fun e _ => Bool.and_comm _ _)

theorem only_rollback (hown : ∀ x ∈ db.own t, p x = false) : (db.rollback t).only p = db.only p := by
  unfold rollback only
  rw [filter_pending_out fun e he hpe => by simpa using not_own hown he hpe]

end Db

end Theory
