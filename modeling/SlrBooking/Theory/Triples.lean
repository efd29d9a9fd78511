import SlrBooking.Theory.Prog

/-!
# `Theory.Triples` — pre- and postconditions of a program, with its exceptions

`Triple h I p Q E`: run by `h` from a state in `I`, the program returns a value and a state in `Q`, or raises an
exception in `E`. What the state is after an exception is not said.

## Contents
- `Raises`: the exceptions of a pure step.
- `Triple`, the rules for each way a program is built, consequence, and programs that only read.
-/

namespace Theory

/-- A pure step raises nothing outside `E`. -/
def Raises {ε α : Type} (E : ε → Prop) (x : Except ε α) : Prop := ∀ e, x = .error e → E e

section Raises

variable {ε α β : Type} {E : ε → Prop}

theorem raises_ok (a : α) : Raises E (.ok a : Except ε α) := fun _ h => nomatch h

theorem raises_error {e : ε} (he : E e) : Raises E (.error e : Except ε α) := fun _ h => Except.error.inj h ▸ he

theorem Raises.bind {x : Except ε α} {f : α → Except ε β} (hx : Raises E x) (hf : ∀ a, x = .ok a → Raises E (f a)) :
    Raises E (x >>= f) := by
  cases x with
  | error e => exact raises_error (hx e rfl)
  | ok a => exact hf a rfl

/-- A later exception is one of the earlier kinds. -/
theorem Raises.mono {F : ε → Prop} {x : Except ε α} (hx : Raises E x) (h : ∀ e, E e → F e) : Raises F x :=
  fun e he => h e (hx e he)

end Raises

namespace Prog

variable {S : Sig} {ε α β σ : Type}

/-- From `I` the program returns in `Q` or raises in `E`. -/
def Triple (h : (o : S.Op) → σ → Except ε (S.Res o) × σ) (I : σ → Prop) (p : Prog S ε α) (Q : α → σ → Prop)
    (E : ε → Prop) : Prop :=
  ∀ s, I s → (∀ a, (p.run h s).1 = .ok a → Q a (p.run h s).2) ∧ Raises E (p.run h s).1

section Triple

variable {h : (o : S.Op) → σ → Except ε (S.Res o) × σ} {I : σ → Prop} {E : ε → Prop}

theorem triple_ret {Q : α → σ → Prop} {a : α} (hQ : ∀ s, I s → Q a s) : Triple h I (ret a) Q E := fun s hs =>
  ⟨fun _ hb => Except.ok.inj hb ▸ hQ s hs, raises_ok a⟩

theorem triple_raise {Q : α → σ → Prop} {e : ε} (he : E e) : Triple h I (raise e) Q E := fun _ _ =>
  ⟨fun _ hb => (nomatch hb), raises_error he⟩

theorem triple_of_false {Q : α → σ → Prop} {p : Prog S ε α} (hI : ∀ s, ¬ I s) : Triple h I p Q E := fun s hs =>
  absurd hs (hI s)

/-- An operation that returns. -/
theorem triple_call {o : S.Op} {Q : S.Res o → σ → Prop}
    (hcall : ∀ s, I s → ∃ a, (h o s).1 = .ok a ∧ Q a (h o s).2) : Triple h I (call o) Q E := by
  intro s hs
  obtain ⟨a, hans, hQ⟩ := hcall s hs
  rw [run_call, hans]
  exact ⟨fun b hb => Except.ok.inj hb ▸ hQ, raises_ok a⟩

/-- **Sequencing.** -/
theorem Triple.bind {P : α → σ → Prop} {Q : β → σ → Prop} {p : Prog S ε α} {f : α → Prog S ε β}
    (hp : Triple h I p P E) (hf : ∀ a, Triple h (P a) (f a) Q E) : Triple h I (p.bind f) Q E := by
  intro s hs
  obtain ⟨hok, herr⟩ := hp s hs
  rw [run_bind]
  cases hrun : p.run h s with
  | mk x s' =>
      rw [hrun] at hok herr
      cases x with
      | ok a => exact hf a s' (hok a rfl)
      | error e => exact ⟨fun _ hb => (nomatch hb), raises_error (herr e rfl)⟩

/-- **Consequence.** -/
theorem Triple.mono {I' : σ → Prop} {Q Q' : α → σ → Prop} {p : Prog S ε α} (hp : Triple h I p Q E)
    (hI : ∀ s, I' s → I s) (hQ : ∀ a s, Q a s → Q' a s) : Triple h I' p Q' E := fun s hs =>
  ⟨fun a ha => hQ a _ ((hp s (hI s hs)).1 a ha), (hp s (hI s hs)).2⟩

/-- A pure step at the end. -/
theorem triple_ofExcept {Q : α → σ → Prop} {x : Except ε α} (hx : Raises E x)
    (hQ : ∀ a, x = .ok a → ∀ s, I s → Q a s) : Triple h I (ofExcept x) Q E := by
  cases x with
  | ok a => exact triple_ret (hQ a rfl)
  | error e => exact triple_raise (hx e rfl)

/-- A pure step, and what the rest may know of its result. -/
theorem triple_ofExcept_bind {Q : β → σ → Prop} {x : Except ε α} {f : α → Prog S ε β} (hx : Raises E x)
    (hf : ∀ a, x = .ok a → Triple h I (f a) Q E) : Triple h I ((ofExcept x).bind f) Q E := by
  cases x with
  | ok a => exact hf a rfl
  | error e => exact triple_raise (hx e rfl)

/-- A program that reads `x` off the state. -/
theorem triple_reads {p : Prog S ε α} {x : σ → Except ε α} (hrun : ∀ s, p.run h s = (x s, s))
    (hx : ∀ s, I s → Raises E (x s)) : Triple h I p (fun a s => I s ∧ x s = .ok a) E := by
  intro s hs
  rw [hrun s]
  exact ⟨fun a ha => ⟨hs, ha⟩, hx s hs⟩

end Triple

end Prog

end Theory
