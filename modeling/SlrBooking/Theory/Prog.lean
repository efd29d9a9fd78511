/-!
# `Theory.Prog` — finite programs over a signature of operations

A program here is a tree of operations: it returns, it raises, or it performs one operation and
continues with the answer. The tree fixes no meaning for the operations, so one text of a program can
be run against several implementations of them.

## Contents
- **Syntax.** `Sig`, `Prog` with its sequencing `bind` and its `try`/`except` `rescue`.
- **Sequential meaning.** `Prog.run h`: a handler `h` answers every operation from a state. `Quiet` programs
  leave it alone.
- **Restriction.** `Only ok`: every operation of the program satisfies `ok`.
- **Substitution.** `Prog.translate f`: each operation replaced by a program over another signature; what holds
  of the substituted programs holds of the result (`Only.translate`, `Yields.translate`).
- **Proof outlines.** `Prog.Outline`: a tree predicate that follows what a program knows from its answers,
  for an unknown environment. The rule for sequencing (`outline_bind`) makes it compositional.
-/

namespace Theory

/-- A signature: operations, and for each one the type of its answer. -/
structure Sig where
  Op  : Type
  Res : Op → Type

/-- A finite program over `S` that may raise an `ε`. An operation's answer is a result or an exception;
    the continuation sees both, so a program can catch what an operation raises. -/
inductive Prog (S : Sig) (ε α : Type) where
  | ret (a : α)
  | raise (e : ε)
  | perform (o : S.Op) (k : Except ε (S.Res o) → Prog S ε α)

/-- One performed operation with the answer it got. -/
structure Event (S : Sig) (ε : Type) where
  op  : S.Op
  ans : Except ε (S.Res op)

/-- A pure step sequence that returns: its first step returned. -/
theorem bind_ok {ε α β : Type} {x : Except ε α} {f : α → Except ε β} {b : β} (h : x >>= f = .ok b) :
    ∃ a, x = .ok a ∧ f a = .ok b := by
  cases x with
  | error e => cases h
  | ok a => exact ⟨a, rfl, h⟩

/-- A pure step sequence that raises: its first step raised, or the rest did. -/
theorem bind_error {ε α β : Type} {x : Except ε α} {f : α → Except ε β} {e : ε} (h : x >>= f = .error e) :
    x = .error e ∨ ∃ a, x = .ok a ∧ f a = .error e := by
  cases x with
  | error e' =>
      have he : e' = e := Except.error.inj h
      exact Or.inl (he ▸ rfl)
  | ok a => exact Or.inr ⟨a, rfl, h⟩

namespace Prog

variable {S T : Sig} {ε α β σ L : Type}

/-- Sequencing: an exception skips the rest. -/
def bind : Prog S ε α → (α → Prog S ε β) → Prog S ε β
  | ret a, f => f a
  | raise e, _ => raise e
  | perform o k, f => perform o fun r => (k r).bind f

/-- `try p except e => h e`. -/
def rescue : Prog S ε α → (ε → Prog S ε α) → Prog S ε α
  | ret a, _ => ret a
  | raise e, h => h e
  | perform o k, h => perform o fun r => (k r).rescue h

instance : Monad (Prog S ε) where
  pure := ret
  bind := bind

instance : MonadExcept ε (Prog S ε) where
  throw := raise
  tryCatch := rescue

/-- Perform one operation and hand its result on, re-raising its exception. -/
def call (o : S.Op) : Prog S ε (S.Res o) :=
  perform o fun
    | .ok a => ret a
    | .error e => raise e

/-- A pure computation that may raise. -/
def ofExcept : Except ε α → Prog S ε α
  | .ok a => ret a
  | .error e => raise e

/-- The outcome of `p` as a value: nothing escapes. -/
def attempt : Prog S ε α → Prog S ε (Except ε α)
  | ret a => ret (.ok a)
  | raise e => ret (.error e)
  | perform o k => perform o fun r => (k r).attempt

/-- What a finished program ended with. -/
def result? : Prog S ε α → Option (Except ε α)
  | ret a => some (.ok a)
  | raise e => some (.error e)
  | perform _ _ => none

/-- The operation a program is about to perform. -/
def next? : Prog S ε α → Option S.Op
  | ret _ => none
  | raise _ => none
  | perform o _ => some o

@[simp] theorem pure_eq (a : α) : (pure a : Prog S ε α) = ret a := rfl
@[simp] theorem throw_eq (e : ε) : (throw e : Prog S ε α) = raise e := rfl
@[simp] theorem tryCatch_eq (p : Prog S ε α) (h : ε → Prog S ε α) : tryCatch p h = p.rescue h := rfl
@[simp] theorem bind_eq (p : Prog S ε α) (f : α → Prog S ε β) : (p >>= f) = p.bind f := rfl
@[simp] theorem ret_bind (a : α) (f : α → Prog S ε β) : (ret a).bind f = f a := rfl
@[simp] theorem raise_bind (e : ε) (f : α → Prog S ε β) : (raise e : Prog S ε α).bind f = raise e := rfl

/-! ## Sequential runs -/

/-- Run a program: the handler answers each operation in turn and moves the state. -/
def run (h : (o : S.Op) → σ → Except ε (S.Res o) × σ) : Prog S ε α → σ → Except ε α × σ
  | ret a, s => (.ok a, s)
  | raise e, s => (.error e, s)
  | perform o k, s => (k (h o s).1).run h (h o s).2

section Run

variable (h : (o : S.Op) → σ → Except ε (S.Res o) × σ)

@[simp] theorem run_ret (a : α) (s : σ) : (ret a : Prog S ε α).run h s = (.ok a, s) := rfl
@[simp] theorem run_raise (e : ε) (s : σ) : (raise e : Prog S ε α).run h s = (.error e, s) := rfl

@[simp] theorem run_perform (o : S.Op) (k : Except ε (S.Res o) → Prog S ε α) (s : σ) :
    (perform o k).run h s = (k (h o s).1).run h (h o s).2 := rfl

@[simp] theorem run_ofExcept (x : Except ε α) (s : σ) :
    (ofExcept x : Prog S ε α).run h s = (x, s) := by
  cases x <;> rfl

@[simp] theorem run_call (o : S.Op) (s : σ) : (call o : Prog S ε _).run h s = h o s := by
  show (match (h o s).1 with | .ok a => ret a | .error e => raise e : Prog S ε _).run h (h o s).2
      = h o s
  cases hx : h o s with
  | mk r s' => cases r <;> rfl

/-- A sequence runs its first part and, if that returned, goes on from the state it left. -/
theorem run_bind (p : Prog S ε α) (f : α → Prog S ε β) (s : σ) :
    (p.bind f).run h s = match p.run h s with
      | (.ok a, s') => (f a).run h s'
      | (.error e, s') => (.error e, s') := by
  induction p generalizing s with
  | ret a => rfl
  | raise e => rfl
  | perform o k ih => exact ih (h o s).1 (h o s).2

/-- Two readers in a row read what their answers say in a row. -/
theorem run_bind_reads {p : Prog S ε α} {f : α → Prog S ε β} {s : σ} {x : Except ε α} {y : α → Except ε β}
    (hp : p.run h s = (x, s)) (hf : ∀ a, (f a).run h s = (y a, s)) : (p.bind f).run h s = (x >>= y, s) := by
  rw [run_bind, hp]
  cases x with
  | error e => rfl
  | ok a => exact hf a

theorem run_bind_ok {p : Prog S ε α} {s s' : σ} {a : α} (hp : p.run h s = (.ok a, s'))
    (f : α → Prog S ε β) : (p.bind f).run h s = (f a).run h s' := by
  rw [run_bind, hp]

theorem run_rescue (p : Prog S ε α) (g : ε → Prog S ε α) (s : σ) :
    (p.rescue g).run h s = match p.run h s with
      | (.ok a, s') => (.ok a, s')
      | (.error e, s') => (g e).run h s' := by
  induction p generalizing s with
  | ret a => rfl
  | raise e => rfl
  | perform o k ih => exact ih (h o s).1 (h o s).2

@[simp] theorem run_attempt (p : Prog S ε α) (s : σ) :
    p.attempt.run h s = (.ok (p.run h s).1, (p.run h s).2) := by
  induction p generalizing s with
  | ret a => rfl
  | raise e => rfl
  | perform o k ih => exact ih (h o s).1 (h o s).2

/-- The two ways a sequence can end. -/
theorem run_bind_cases {p : Prog S ε α} {f : α → Prog S ε β} {s s' : σ} {r : Except ε β}
    (hp : (p.bind f).run h s = (r, s')) :
    (∃ e, p.run h s = (.error e, s') ∧ r = .error e) ∨
      ∃ a s₁, p.run h s = (.ok a, s₁) ∧ (f a).run h s₁ = (r, s') := by
  rw [run_bind] at hp
  cases hx : p.run h s with
  | mk x s₁ =>
      rw [hx] at hp
      cases x with
      | error e =>
          obtain ⟨rfl, rfl⟩ := Prod.mk.inj hp
          exact Or.inl ⟨e, rfl, rfl⟩
      | ok a => exact Or.inr ⟨a, s₁, rfl, hp⟩

/-- **Invariant rule.** What every operation preserves, a whole run preserves. -/
theorem run_invariant {I : σ → Prop} (hI : ∀ o s, I s → I (h o s).2) (p : Prog S ε α) {s : σ}
    (hs : I s) : I (p.run h s).2 := by
  induction p generalizing s with
  | ret a => exact hs
  | raise e => exact hs
  | perform o k ih => exact ih _ (hI o s hs)

end Run

/-! ## Programs that only read -/

/-- `p` leaves every state as it found it. -/
def Quiet (h : (o : S.Op) → σ → Except ε (S.Res o) × σ) (p : Prog S ε α) : Prop := ∀ s, (p.run h s).2 = s

section Quiet

variable {h : (o : S.Op) → σ → Except ε (S.Res o) × σ}

theorem Quiet.run_eq {p : Prog S ε α} (hp : Quiet h p) (s : σ) : p.run h s = ((p.run h s).1, s) :=
  Prod.ext rfl (hp s)

theorem quiet_ret (a : α) : Quiet h (ret a : Prog S ε α) := fun _ => rfl
theorem quiet_raise (e : ε) : Quiet h (raise e : Prog S ε α) := fun _ => rfl

theorem quiet_ofExcept (x : Except ε α) : Quiet h (ofExcept x : Prog S ε α) := by
  intro s
  rw [run_ofExcept]

theorem quiet_call {o : S.Op} (ho : ∀ s, (h o s).2 = s) : Quiet h (call o : Prog S ε _) := by
  intro s
  rw [run_call]
  exact ho s

theorem Quiet.bind {p : Prog S ε α} {f : α → Prog S ε β} (hp : Quiet h p) (hf : ∀ a, Quiet h (f a)) :
    Quiet h (p.bind f) := by
  intro s
  rw [run_bind, hp.run_eq s]
  cases (p.run h s).1 with
  | ok a => exact hf a s
  | error e => rfl

theorem Quiet.rescue {p : Prog S ε α} {g : ε → Prog S ε α} (hp : Quiet h p) (hg : ∀ e, Quiet h (g e)) :
    Quiet h (p.rescue g) := by
  intro s
  rw [run_rescue, hp.run_eq s]
  cases (p.run h s).1 with
  | ok a => rfl
  | error e => exact hg e s

/-- A sequence after a reading part: the state is still the first one. -/
theorem Quiet.run_bind_cases {p : Prog S ε α} (hq : Quiet h p) {f : α → Prog S ε β} {s s' : σ}
    {r : Except ε β} (hp : (p.bind f).run h s = (r, s')) :
    (∃ e, (p.run h s).1 = .error e ∧ r = .error e ∧ s' = s) ∨
      ∃ a, (p.run h s).1 = .ok a ∧ (f a).run h s = (r, s') := by
  rcases Prog.run_bind_cases h hp with ⟨e, he, rfl⟩ | ⟨a, s₁, ha, hf⟩
  · rw [hq.run_eq s] at he
    obtain ⟨h₁, h₂⟩ := Prod.mk.inj he
    exact Or.inl ⟨e, h₁, rfl, h₂.symm⟩
  · rw [hq.run_eq s] at ha
    obtain ⟨h₁, rfl⟩ := Prod.mk.inj ha
    exact Or.inr ⟨a, h₁, hf⟩

end Quiet

/-! ## Programs with restricted operations -/

/-- Every operation `p` can perform, whatever it is answered, satisfies `ok`. -/
def Only (ok : S.Op → Prop) : Prog S ε α → Prop
  | ret _ => True
  | raise _ => True
  | perform o k => ok o ∧ ∀ r, Only ok (k r)

section Only

variable {ok : S.Op → Prop}

theorem only_ret (a : α) : Only ok (ret a : Prog S ε α) := trivial
theorem only_raise (e : ε) : Only ok (raise e : Prog S ε α) := trivial

theorem only_ofExcept (x : Except ε α) : Only ok (ofExcept x : Prog S ε α) := by
  cases x <;> trivial

theorem only_call {o : S.Op} (ho : ok o) : Only ok (call o : Prog S ε _) := by
  refine ⟨ho, fun r => ?_⟩
  cases r <;> trivial

theorem Only.bind {p : Prog S ε α} {f : α → Prog S ε β} (hp : Only ok p) (hf : ∀ a, Only ok (f a)) :
    Only ok (p.bind f) := by
  induction p with
  | ret a => exact hf a
  | raise e => trivial
  | perform o k ih => exact ⟨hp.1, fun r => ih r (hp.2 r)⟩

theorem Only.rescue {p : Prog S ε α} {g : ε → Prog S ε α} (hp : Only ok p) (hg : ∀ e, Only ok (g e)) :
    Only ok (p.rescue g) := by
  induction p with
  | ret a => trivial
  | raise e => exact hg e
  | perform o k ih => exact ⟨hp.1, fun r => ih r (hp.2 r)⟩

theorem Only.mono {ok' : S.Op → Prop} (h : ∀ o, ok o → ok' o) {p : Prog S ε α} (hp : Only ok p) : Only ok' p := by
  induction p with
  | ret a => trivial
  | raise e => trivial
  | perform o k ih => exact ⟨h o hp.1, fun r => ih r (hp.2 r)⟩

theorem Only.and {ok' : S.Op → Prop} {p : Prog S ε α} (hp : Only ok p) (hp' : Only ok' p) :
    Only (fun o => ok o ∧ ok' o) p := by
  induction p with
  | ret a => trivial
  | raise e => trivial
  | perform o k ih => exact ⟨⟨hp.1, hp'.1⟩, fun r => ih r (hp.2 r) (hp'.2 r)⟩

theorem only_true (p : Prog S ε α) : Only (fun _ => True) p := by
  induction p with
  | ret a => trivial
  | raise e => trivial
  | perform o k ih => exact ⟨trivial, ih⟩

theorem Only.attempt {p : Prog S ε α} (hp : Only ok p) : Only ok p.attempt := by
  induction p with
  | ret a => trivial
  | raise e => trivial
  | perform o k ih => exact ⟨hp.1, fun r => ih r (hp.2 r)⟩

/-- The invariant rule for a program of restricted operations. -/
theorem Only.run_invariant {h : (o : S.Op) → σ → Except ε (S.Res o) × σ} {I : σ → Prop}
    (hI : ∀ o s, ok o → I s → I (h o s).2) {p : Prog S ε α} (hp : Only ok p) {s : σ} (hs : I s) :
    I (p.run h s).2 := by
  induction p generalizing s with
  | ret a => exact hs
  | raise e => exact hs
  | perform o k ih => exact ih _ (hp.2 _) (hI o s hp.1 hs)

end Only

/-! ## What a program can return -/

/-- Whatever `p` is answered, what it returns satisfies `P`. -/
def Yields (P : α → Prop) : Prog S ε α → Prop
  | ret a => P a
  | raise _ => True
  | perform _ k => ∀ r, Yields P (k r)

section Yields

variable {P : α → Prop} {Q : β → Prop}

theorem yields_true (p : Prog S ε α) : Yields (fun _ => True) p := by
  induction p with
  | ret a => trivial
  | raise e => trivial
  | perform o k ih => exact ih

theorem Yields.bind {p : Prog S ε α} {f : α → Prog S ε β} (hp : Yields P p) (hf : ∀ a, P a → Yields Q (f a)) :
    Yields Q (p.bind f) := by
  induction p with
  | ret a => exact hf a hp
  | raise e => trivial
  | perform o k ih => exact fun r => ih r (hp r)

end Yields

/-! ## Substituting programs for operations -/

/-- Replace every operation by a program over another signature. -/
def translate (f : (o : S.Op) → Prog T ε (S.Res o)) : Prog S ε α → Prog T ε α
  | ret a => ret a
  | raise e => raise e
  | perform o k => (f o).attempt.bind fun r => (k r).translate f

section Translate

variable (f : (o : S.Op) → Prog T ε (S.Res o))

@[simp] theorem translate_ret (a : α) : (ret a : Prog S ε α).translate f = ret a := rfl
@[simp] theorem translate_raise (e : ε) : (raise e : Prog S ε α).translate f = raise e := rfl

@[simp] theorem translate_ofExcept (x : Except ε α) : (ofExcept x : Prog S ε α).translate f = ofExcept x := by
  cases x <;> rfl

theorem bind_assoc {γ : Type} (p : Prog S ε α) (g : α → Prog S ε β) (h : β → Prog S ε γ) :
    (p.bind g).bind h = p.bind fun a => (g a).bind h := by
  induction p with
  | ret a => rfl
  | raise e => rfl
  | perform o k ih => exact congrArg (perform o) (funext ih)

@[simp] theorem translate_bind (p : Prog S ε α) (g : α → Prog S ε β) :
    (p.bind g).translate f = (p.translate f).bind fun a => (g a).translate f := by
  induction p with
  | ret a => rfl
  | raise e => rfl
  | perform o k ih =>
      show (f o).attempt.bind (fun r => ((k r).bind g).translate f) = _
      simp only [ih, translate, bind_assoc]

/-- Re-raising what was caught changes nothing. -/
theorem attempt_bind_reraise (p : Prog S ε α) :
    (p.attempt.bind fun | .ok a => ret a | .error e => raise e) = p := by
  induction p with
  | ret a => rfl
  | raise e => rfl
  | perform o k ih => exact congrArg (perform o) (funext ih)

@[simp] theorem translate_call (o : S.Op) : (call o : Prog S ε _).translate f = f o := by
  show (f o).attempt.bind (fun r => (match r with | .ok a => ret a | .error e => raise e : Prog S ε _).translate f) = _
  rw [← attempt_bind_reraise (f o)]
  congr 1
  · rw [attempt_bind_reraise]
  · funext r
    cases r <;> rfl

/-- A handler after a part that raises nothing waits for the rest. -/
theorem attempt_bind_rescue (p : Prog S ε α) (g : Except ε α → Prog S ε β) (h : ε → Prog S ε β) :
    (p.attempt.bind g).rescue h = p.attempt.bind fun r => (g r).rescue h := by
  induction p with
  | ret a => rfl
  | raise e => rfl
  | perform o k ih => exact congrArg (perform o) (funext ih)

@[simp] theorem translate_rescue (p : Prog S ε α) (h : ε → Prog S ε α) :
    (p.rescue h).translate f = (p.translate f).rescue fun e => (h e).translate f := by
  induction p with
  | ret a => rfl
  | raise e => rfl
  | perform o k ih =>
      show (f o).attempt.bind (fun r => ((k r).rescue h).translate f) = ((f o).attempt.bind _).rescue _
      simp only [ih, attempt_bind_rescue]

theorem Only.translate {okS : S.Op → Prop} {okT : T.Op → Prop} (hf : ∀ o, okS o → Only okT (f o)) {p : Prog S ε α}
    (hp : Only okS p) : Only okT (p.translate f) := by
  induction p with
  | ret a => trivial
  | raise e => trivial
  | perform o k ih =>
      refine Only.bind ?_ fun r => ih r (hp.2 r)
      have ho := hf o hp.1
      generalize f o = q at ho
      induction q with
      | ret a => trivial
      | raise e => trivial
      | perform o' k' ih' => exact ⟨ho.1, fun r => ih' r (ho.2 r)⟩

theorem Yields.translate {P : α → Prop} {p : Prog S ε α} (hp : Yields P p) : Yields P (p.translate f) := by
  induction p with
  | ret a => exact hp
  | raise e => trivial
  | perform o k ih => exact Yields.bind (yields_true _) fun r _ => ih r (hp r)

end Translate

/-! ## Proof outlines against an unknown environment -/

/-- `p.Outline pre upd post l`: starting from knowledge `l`, every operation `p` performs is allowed by
    `pre`, and `p` ends with `post`, whatever the answers are. Each answer moves the knowledge by `upd`. -/
def Outline (pre : L → S.Op → Prop) (upd : L → (o : S.Op) → Except ε (S.Res o) → L)
    (post : L → Except ε α → Prop) : L → Prog S ε α → Prop
  | l, ret a => post l (.ok a)
  | l, raise e => post l (.error e)
  | l, perform o k => pre l o ∧ ∀ r, Outline pre upd post (upd l o r) (k r)

section Outline

variable {pre : L → S.Op → Prop} {upd : L → (o : S.Op) → Except ε (S.Res o) → L}

@[simp] theorem outline_ret {post : L → Except ε α → Prop} {l : L} {a : α} :
    Outline pre upd post l (ret a) ↔ post l (.ok a) := Iff.rfl

@[simp] theorem outline_raise {post : L → Except ε α → Prop} {l : L} {e : ε} :
    Outline pre upd post l (raise e) ↔ post l (.error e) := Iff.rfl

@[simp] theorem outline_perform {post : L → Except ε α → Prop} {l : L} {o : S.Op}
    {k : Except ε (S.Res o) → Prog S ε α} :
    Outline pre upd post l (perform o k) ↔ pre l o ∧ ∀ r, Outline pre upd post (upd l o r) (k r) :=
  Iff.rfl

/-- Knowledge threads through a sequence: the first part must end where the second may start. -/
theorem outline_bind {post : L → Except ε β → Prop} {l : L} {p : Prog S ε α} {f : α → Prog S ε β} :
    Outline pre upd post l (p.bind f) ↔
      Outline pre upd (fun l' r => match r with
        | .ok a => Outline pre upd post l' (f a)
        | .error e => post l' (.error e)) l p := by
  induction p generalizing l with
  | ret a => exact Iff.rfl
  | raise e => exact Iff.rfl
  | perform o k ih =>
      show (_ ∧ ∀ r, Outline pre upd post _ ((k r).bind f)) ↔ _
      simp only [ih, outline_perform]

@[simp] theorem outline_ofExcept {post : L → Except ε α → Prop} {l : L} {x : Except ε α} :
    Outline pre upd post l (ofExcept x) ↔ post l x := by
  cases x <;> exact Iff.rfl

/-- One called operation. -/
@[simp] theorem outline_call {o : S.Op} {post : L → Except ε (S.Res o) → Prop} {l : L} :
    Outline pre upd post l (call o) ↔ pre l o ∧ ∀ r, post (upd l o r) r := by
  show (_ ∧ ∀ r, _) ↔ _
  constructor
  · rintro ⟨hpre, h⟩
    refine ⟨hpre, fun r => ?_⟩
    have hr := h r
    cases r <;> exact hr
  · rintro ⟨hpre, h⟩
    refine ⟨hpre, fun r => ?_⟩
    have hr := h r
    cases r <;> exact hr

theorem outline_rescue {post : L → Except ε α → Prop} {l : L} {p : Prog S ε α} {h : ε → Prog S ε α} :
    Outline pre upd post l (p.rescue h) ↔
      Outline pre upd (fun l' r => match r with
        | .ok a => post l' (.ok a)
        | .error e => Outline pre upd post l' (h e)) l p := by
  induction p generalizing l with
  | ret a => exact Iff.rfl
  | raise e => exact Iff.rfl
  | perform o k ih =>
      show (_ ∧ ∀ r, Outline pre upd post _ ((k r).rescue h)) ↔ _
      simp only [ih, outline_perform]

/-- An attempt ends as the program does, by returning that. -/
theorem outline_attempt {post : L → Except ε (Except ε α) → Prop} {l : L} {p : Prog S ε α} :
    Outline pre upd post l p.attempt ↔ Outline pre upd (fun l' r => post l' (.ok r)) l p := by
  induction p generalizing l with
  | ret a => exact Iff.rfl
  | raise e => exact Iff.rfl
  | perform o k ih =>
      show (_ ∧ ∀ r, Outline pre upd post _ (k r).attempt) ↔ _
      simp only [ih, outline_perform]

/-- Operations that are always allowed and teach nothing leave the knowledge alone. -/
theorem outline_of_only {ok : S.Op → Prop} {P : α → Prop} {l : L} (hpre : ∀ o, ok o → pre l o)
    (hupd : ∀ o r, ok o → upd l o r = l) {p : Prog S ε α} (hp : Only ok p) (hy : Yields P p) :
    Outline pre upd (fun l' r => l' = l ∧ ∀ a, r = .ok a → P a) l p := by
  induction p with
  | ret a =>
      refine ⟨rfl, fun b hb => ?_⟩
      rw [← Except.ok.inj hb]
      exact hy
  | raise e => exact ⟨rfl, fun b hb => by cases hb⟩
  | perform o k ih =>
      refine ⟨hpre o hp.1, fun r => ?_⟩
      rw [hupd o r hp.1]
      exact ih r (hp.2 r) (hy r)

theorem Outline.mono_pre {pre' : L → S.Op → Prop} (hpre : ∀ l o, pre l o → pre' l o) {post : L → Except ε α → Prop}
    {l : L} {p : Prog S ε α} (hp : Outline pre upd post l p) : Outline pre' upd post l p := by
  induction p generalizing l with
  | ret a => exact hp
  | raise e => exact hp
  | perform o k ih => exact ⟨hpre l o hp.1, fun r => ih r (hp.2 r)⟩

/-- Knowledge that every allowed operation preserves holds at the end. -/
theorem outline_invariant {ok : S.Op → Prop} {I : L → Prop} (hpre : ∀ l o, I l → ok o → pre l o)
    (hupd : ∀ l o r, I l → ok o → I (upd l o r)) {p : Prog S ε α} (hp : Only ok p) {l : L} (hl : I l) :
    Outline pre upd (fun l' _ => I l') l p := by
  induction p generalizing l with
  | ret a => exact hl
  | raise e => exact hl
  | perform o k ih => exact ⟨hpre l o hl hp.1, fun r => ih r (hp.2 r) (hupd l o r hl hp.1)⟩

/-- What a program ends with and what it can return, together. -/
theorem Outline.and_yields {post : L → Except ε α → Prop} {P : α → Prop} {l : L} {p : Prog S ε α}
    (hp : Outline pre upd post l p) (hy : Yields P p) :
    Outline pre upd (fun l' r => post l' r ∧ ∀ a, r = .ok a → P a) l p := by
  induction p generalizing l with
  | ret a =>
      refine ⟨hp, fun b hb => ?_⟩
      rw [← Except.ok.inj hb]
      exact hy
  | raise e => exact ⟨hp, fun b hb => by cases hb⟩
  | perform o k ih => exact ⟨hp.1, fun r => ih r (hp.2 r) (hy r)⟩

/-- A weaker end condition is met too. -/
theorem Outline.mono {post post' : L → Except ε α → Prop} (hpost : ∀ l r, post l r → post' l r)
    {l : L} {p : Prog S ε α} (hp : Outline pre upd post l p) : Outline pre upd post' l p := by
  induction p generalizing l with
  | ret a => exact hpost _ _ hp
  | raise e => exact hpost _ _ hp
  | perform o k ih => exact ⟨hp.1, fun r => ih r (hp.2 r)⟩

/-- **An outline for the substituted program.** If wherever an operation is allowed the program put for it keeps to
    the finer outline and leads from knowledge that matches to knowledge that matches, so does the whole. -/
theorem Outline.translate {N : Type} {pre' : N → T.Op → Prop} {upd' : N → (o : T.Op) → Except ε (T.Res o) → N}
    {f : (o : S.Op) → Prog T ε (S.Res o)} {fits : L → N → Prop}
    (hf : ∀ l n o, pre l o → fits l n → Outline pre' upd' (fun n' r => fits (upd l o r) n') n (f o))
    {post : L → Except ε α → Prop} {l : L} {n : N} {p : Prog S ε α} (hp : Outline pre upd post l p) (hn : fits l n) :
    Outline pre' upd' (fun n' r => ∃ l', fits l' n' ∧ post l' r) n (p.translate f) := by
  induction p generalizing l n with
  | ret a => exact ⟨l, hn, hp⟩
  | raise e => exact ⟨l, hn, hp⟩
  | perform o k ih =>
      refine outline_bind.mpr (outline_attempt.mpr ((hf l n o hp.1 hn).mono fun n' r hr => ?_))
      exact ih r (hp.2 r) hr

end Outline

end Prog

end Theory
