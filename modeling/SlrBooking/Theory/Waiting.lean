import SlrBooking.Theory.Pool
import Mathlib.Order.WellFounded
import Mathlib.Data.Fintype.EquivFin

/-!
# `Theory.Waiting` — threads that wait for each other

A configuration is stuck when some thread is unfinished and no scheduled step changes anything. Every unfinished
thread is then at an operation the machine does not answer. As there are finitely many threads, the waits cannot all
rise along a strict order: whoever waits highest waits for nobody higher.

## Contents
- `Config.Live`, `Machine.Stuck`, `stuck_of_blocked`, `Stuck.blocked`.
- `Stuck.not_rising`: the order argument.
-/

namespace Theory

variable {S : Sig} {ε σ α : Type}

/-- Thread `t` has not been closed. -/
def Config.Live (c : Config S ε σ α) (t : Nat) : Prop := ∃ th, c.threads[t]? = some th ∧ th.ended = false

theorem Config.Live.lt {c : Config S ε σ α} {t : Nat} (h : c.Live t) : t < c.threads.length := by
  obtain ⟨th, hth, -⟩ := h
  exact (List.getElem?_eq_some_iff.mp hth).1

theorem Config.live_iff {c : Config S ε σ α} {t : Nat} :
    c.Live t ↔ (c.threads.map Thread.ended)[t]? = some false := by
  rw [List.getElem?_map, Option.map_eq_some_iff]
  rfl

namespace Machine

variable (M : Machine S ε σ)

/-- Somebody is unfinished, and nobody can move. -/
def Stuck (c : Config S ε σ α) : Prop := (∃ t, c.Live t) ∧ ∀ t, M.step c t = c

variable {M} {c : Config S ε σ α}

/-- Nobody moves where every unfinished thread waits. -/
theorem stuck_of_blocked (hlive : ∃ t, c.Live t)
    (h : ∀ t, c.Live t → ∃ o, c.next t = some o ∧ M.exec t o c.shared = none) : M.Stuck c := by
  refine ⟨hlive, fun t => ?_⟩
  unfold step
  cases hth : c.threads[t]? with
  | none => rfl
  | some th =>
      cases hended : th.ended with
      | true => simp [hended]
      | false =>
          obtain ⟨o, hnext, hblocked⟩ := h t ⟨th, hth, hended⟩
          obtain ⟨th', k, hth', -, hprog⟩ := Config.of_next hnext
          obtain rfl := Option.some.inj (hth.symm.trans hth')
          simp [hended, hprog, hblocked]

/-- **Stuck, an unfinished thread waits.** -/
theorem Stuck.blocked (h : M.Stuck c) {t : Nat} (ht : c.Live t) :
    ∃ o, c.next t = some o ∧ M.exec t o c.shared = none := by
  obtain ⟨th, hth, hlive⟩ := ht
  have hstay := h.2 t
  have hthread : (M.step c t).threads[t]? = some th := by rw [hstay, hth]
  have hlt := (List.getElem?_eq_some_iff.mp hth).1
  unfold step at hthread
  rw [hth] at hthread
  simp only [hlive, Bool.false_eq_true, if_false] at hthread
  cases hprog : th.prog with
  | perform o k =>
      refine ⟨o, Config.next_eq hth hlive hprog, ?_⟩
      cases hexec : M.exec t o c.shared with
      | none => rfl
      | some out =>
          -- an answered operation would have been logged
          rw [hprog] at hthread
          simp only [hexec] at hthread
          rw [List.getElem?_set_self hlt] at hthread
          have hlog := congrArg (fun x => x.log.length) (Option.some.inj hthread)
          simp at hlog
  | ret a | raise e =>
      rw [hprog] at hthread
      simp only at hthread
      rw [List.getElem?_set_self hlt] at hthread
      have hended := congrArg Thread.ended (Option.some.inj hthread)
      rw [hlive] at hended
      cases hended

/-- **No rising wait.** Where every unfinished thread waits for another one, no strict order rises along the waits. -/
theorem Stuck.not_rising (h : M.Stuck c) {r : Nat → Nat → Prop} (hirrefl : ∀ t, ¬ r t t)
    (htrans : ∀ t u v, r t u → r u v → r t v) (hwaits : ∀ t, c.Live t → ∃ u, c.Live u ∧ r t u) : False := by
  let above : Fin c.threads.length → Fin c.threads.length → Prop := fun t u => r u t
  have hwf : WellFounded above := by
    have : IsTrans _ above := ⟨fun t u v hut hvu => htrans v u t hvu hut⟩
    have : Std.Irrefl above := ⟨fun t => hirrefl t⟩
    exact Finite.wellFounded_of_trans_of_irrefl above
  obtain ⟨t₀, ht₀⟩ := h.1
  obtain ⟨t, ht, hmax⟩ := hwf.has_min {t | c.Live t} ⟨⟨t₀, ht₀.lt⟩, ht₀⟩
  obtain ⟨u, hu, hrises⟩ := hwaits t ht
  exact hmax ⟨u, hu.lt⟩ hu hrises

end Machine

end Theory
