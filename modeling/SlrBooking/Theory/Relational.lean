import SlrBooking.Theory.Prog

/-!
# `Theory.Relational` — two runs side by side

Two programs are run by two handlers from related states. `Relates` says that they end alike and in related
states, whatever states of the relation they start in. The rules follow the programs: a step on both sides, a
sequence. A program against itself needs only a look at the operations it may perform
(`relates_of_under`).

## Contents
- `Alike V E`: two outcomes, related results or related exceptions.
- `Prog.View`, `Prog.Under`: what a program can perform, given what is known of the answers.
- `Prog.Relates` and its rules.
- `Service`: a server that answers requests one after another. `heard` runs all of a marked list and keeps the
  replies to the marked requests; the rule `heard_eq_replies` compares it with a run of those alone.
-/

namespace Theory

/-- Two outcomes agree: both are results and `V` relates them, or both are exceptions and `E` does. -/
def Alike {α β ε ε' : Type} (V : α → β → Prop) (E : ε → ε' → Prop) : Except ε α → Except ε' β → Prop
  | .ok a, .ok b => V a b
  | .error e, .error e' => E e e'
  | _, _ => False

section Alike

variable {α β ε ε' : Type} {V : α → β → Prop} {E : ε → ε' → Prop}

/-- With equality on both sides the outcomes are equal. -/
theorem alike_eq {x y : Except ε α} : Alike Eq Eq x y ↔ x = y := by
  cases x <;> cases y <;> simp [Alike]

theorem Alike.mono {V' : α → β → Prop} {E' : ε → ε' → Prop} (hV : ∀ a b, V a b → V' a b)
    (hE : ∀ e e', E e e' → E' e e') {x : Except ε α} {y : Except ε' β} (h : Alike V E x y) : Alike V' E' x y := by
  cases x with
  | ok a =>
      cases y with
      | ok b => exact hV a b h
      | error e' => exact h.elim
  | error e =>
      cases y with
      | ok b => exact h.elim
      | error e' => exact hE e e' h

theorem Alike.bind {α' β' : Type} {W : α' → β' → Prop} {x : Except ε α} {y : Except ε' β} {f : α → Except ε α'}
    {g : β → Except ε' β'} (h : Alike V E x y) (hf : ∀ a b, V a b → Alike W E (f a) (g b)) :
    Alike W E (x.bind f) (y.bind g) := by
  cases x with
  | ok a =>
      cases y with
      | ok b => exact hf a b h
      | error e' => exact h.elim
  | error e =>
      cases y with
      | ok b => exact h.elim
      | error e' => exact h

end Alike

namespace Prog

/-! ## Restricted operations, given what is known of the answers -/

/-- What is known of the answers of operations: what they are like, and which of them nobody tells apart. -/
structure View (S : Sig) (ε : Type) where
  fits : (o : S.Op) → Except ε (S.Res o) → Prop
  same : (o : S.Op) → S.Res o → S.Res o → Prop

/-- Nothing is known beforehand, and every answer counts. -/
def View.plain {S : Sig} {ε : Type} : View S ε := ⟨fun _ _ => True, fun _ => Eq⟩

section Under

variable {S : Sig} {ε α β : Type} {V : View S ε} {ok : S.Op → Prop}

/-- Under the view `V`, every operation `p` can perform satisfies `ok`, and answers that `V` does not tell apart
    make no difference to `p`. -/
def Under (V : View S ε) (ok : S.Op → Prop) : Prog S ε α → Prop
  | ret _ => True
  | raise _ => True
  | perform o k => ok o ∧ (∀ a b, V.same o a b → k (.ok a) = k (.ok b)) ∧ ∀ r, V.fits o r → Under V ok (k r)

theorem under_ret (a : α) : Under V ok (ret a : Prog S ε α) := trivial
theorem under_raise (e : ε) : Under V ok (raise e : Prog S ε α) := trivial

theorem under_ofExcept (x : Except ε α) : Under V ok (ofExcept x : Prog S ε α) := by
  cases x <;> trivial

theorem Only.under {p : Prog S ε α} (hp : Only ok p) : Under View.plain ok p := by
  induction p with
  | ret a => trivial
  | raise e => trivial
  | perform o k ih => exact ⟨hp.1, fun a b he => congrArg _ (congrArg _ he), fun r _ => ih r (hp.2 r)⟩

theorem under_call {o : S.Op} (ho : ok o) (hsame : ∀ a b, V.same o a b → a = b) :
    Under V ok (call o : Prog S ε _) := by
  refine ⟨ho, fun a b he => congrArg ret (hsame a b he), fun r _ => ?_⟩
  cases r <;> trivial

/-- Going on with an answer: it is of the expected kind, and the rest does not tell like answers apart. -/
theorem under_call_bind {o : S.Op} {f : S.Res o → Prog S ε β} (ho : ok o) (hsame : ∀ a b, V.same o a b → f a = f b)
    (hf : ∀ a, V.fits o (.ok a) → Under V ok (f a)) : Under V ok ((call o).bind f) := by
  refine ⟨ho, hsame, fun r hr => ?_⟩
  cases r with
  | ok a => exact hf a hr
  | error e => trivial

/-- Going on without looking at the answer. -/
theorem under_blind_bind {o : S.Op} {p : Prog S ε β} (ho : ok o) (hp : Under V ok p) :
    Under V ok ((call o).bind fun _ => p) := by
  refine ⟨ho, fun _ _ _ => rfl, fun r _ => ?_⟩
  cases r with
  | ok a => exact hp
  | error e => trivial

theorem Under.bind {p : Prog S ε α} {f : α → Prog S ε β} (hp : Under V ok p) (hf : ∀ a, Under V ok (f a)) :
    Under V ok (p.bind f) := by
  induction p with
  | ret a => exact hf a
  | raise e => trivial
  | perform o k ih =>
      exact ⟨hp.1, fun a b he => congrArg (fun q => q.bind f) (hp.2.1 a b he), fun r hr => ih r (hp.2.2 r hr)⟩

/-- Sequencing where the second part needs to know what the first can return. -/
theorem Under.bind_yields {P : α → Prop} {p : Prog S ε α} {f : α → Prog S ε β} (hp : Under V ok p)
    (hy : Yields P p) (hf : ∀ a, P a → Under V ok (f a)) : Under V ok (p.bind f) := by
  induction p with
  | ret a => exact hf a hy
  | raise e => trivial
  | perform o k ih =>
      exact ⟨hp.1, fun a b he => congrArg (fun q => q.bind f) (hp.2.1 a b he), fun r hr => ih r (hp.2.2 r hr) (hy r)⟩

theorem Under.rescue {p : Prog S ε α} {g : ε → Prog S ε α} (hp : Under V ok p) (hg : ∀ e, Under V ok (g e)) :
    Under V ok (p.rescue g) := by
  induction p with
  | ret a => trivial
  | raise e => exact hg e
  | perform o k ih =>
      exact ⟨hp.1, fun a b he => congrArg (fun q => q.rescue g) (hp.2.1 a b he), fun r hr => ih r (hp.2.2 r hr)⟩

theorem Under.mono {ok' : S.Op → Prop} (h : ∀ o, ok o → ok' o) {p : Prog S ε α} (hp : Under V ok p) :
    Under V ok' p := by
  induction p with
  | ret a => trivial
  | raise e => trivial
  | perform o k ih => exact ⟨h o hp.1, hp.2.1, fun r hr => ih r (hp.2.2 r hr)⟩

/-- The law as an outline: what is known is whether the answers have been as expected. -/
theorem Under.outline {p : Prog S ε α} {l : Prop} (hp : l → Under V ok p) :
    Outline (fun (l : Prop) o => l → ok o) (fun l o r => l ∧ V.fits o r) (fun _ _ => True) l p := by
  induction p generalizing l with
  | ret a => trivial
  | raise e => trivial
  | perform o k ih => exact ⟨fun hl => (hp hl).1, fun r => ih r fun hl => (hp hl.1).2.2 r hl.2⟩

end Under

/-! ## Related runs -/

/-- A translated program runs as the program does when each operation is answered by its translation. -/
theorem run_translate {S T : Sig} {ε α τ : Type} (f : (o : S.Op) → Prog T ε (S.Res o))
    (h : (o : T.Op) → τ → Except ε (T.Res o) × τ) (p : Prog S ε α) (s : τ) :
    (p.translate f).run h s = p.run (fun o s => (f o).run h s) s := by
  induction p generalizing s with
  | ret a => rfl
  | raise e => rfl
  | perform o k ih =>
      show ((f o).attempt.bind fun r => (k r).translate f).run h s = _
      rw [run_bind, run_attempt, run_perform]
      exact ih _ _

variable {S T : Sig} {ε ε' α α' β β' σ τ : Type}
variable {hS : (o : S.Op) → σ → Except ε (S.Res o) × σ} {hT : (o : T.Op) → τ → Except ε' (T.Res o) × τ}
variable {R Q R₂ : σ → τ → Prop} {V : α → α' → Prop} {W : β → β' → Prop} {E : ε → ε' → Prop}

/-- From states related by `R`, the two runs end alike and in states related by `Q`. -/
def Relates (hS : (o : S.Op) → σ → Except ε (S.Res o) × σ) (hT : (o : T.Op) → τ → Except ε' (T.Res o) × τ)
    (R Q : σ → τ → Prop) (V : α → α' → Prop) (E : ε → ε' → Prop) (p : Prog S ε α) (q : Prog T ε' α') : Prop :=
  ∀ s t, R s t → Alike V E (p.run hS s).1 (q.run hT t).1 ∧ Q (p.run hS s).2 (q.run hT t).2

theorem relates_ret {a : α} {b : α'} (hR : ∀ s t, R s t → Q s t) (hV : V a b) :
    Relates hS hT R Q V E (ret a) (ret b) := fun s t h => ⟨hV, hR s t h⟩

theorem relates_raise {e : ε} {e' : ε'} (hR : ∀ s t, R s t → Q s t) (hE : E e e') :
    Relates hS hT R Q V E (raise e) (raise e') := fun s t h => ⟨hE, hR s t h⟩

theorem relates_ofExcept {x : Except ε α} {y : Except ε' α'} (hR : ∀ s t, R s t → Q s t) (h : Alike V E x y) :
    Relates hS hT R Q V E (ofExcept x) (ofExcept y) := by
  intro s t hst
  rw [run_ofExcept, run_ofExcept]
  exact ⟨h, hR s t hst⟩

/-- One operation on each side. -/
theorem relates_call {o : S.Op} {o' : T.Op} {V : S.Res o → T.Res o' → Prop}
    (h : ∀ s t, R s t → Alike V E (hS o s).1 (hT o' t).1 ∧ Q (hS o s).2 (hT o' t).2) :
    Relates hS hT R Q V E (call o) (call o') := by
  intro s t hst
  rw [run_call, run_call]
  exact h s t hst

/-- **The rule for sequencing.** -/
theorem Relates.bind {p : Prog S ε α} {q : Prog T ε' α'} {f : α → Prog S ε β} {g : α' → Prog T ε' β'}
    (hp : Relates hS hT R Q V E p q) (hf : ∀ a b, V a b → Relates hS hT Q R₂ W E (f a) (g b))
    (herr : ∀ s t, Q s t → R₂ s t) : Relates hS hT R R₂ W E (p.bind f) (q.bind g) := by
  intro s t hst
  obtain ⟨hout, hstate⟩ := hp s t hst
  rw [run_bind, run_bind]
  cases hx : p.run hS s with
  | mk x s' =>
      cases hy : q.run hT t with
      | mk y t' =>
          rw [hx, hy] at hout hstate
          cases x with
          | ok a =>
              cases y with
              | ok b => exact hf a b hout s' t' hstate
              | error e' => exact hout.elim
          | error e =>
              cases y with
              | ok b => exact hout.elim
              | error e' => exact ⟨hout, herr s' t' hstate⟩

/-- Sequencing where the second part needs to know what the first can return. -/
theorem Relates.bind_yields {P : α → Prop} {p : Prog S ε α} {q : Prog T ε' α} {f : α → Prog S ε β}
    {g : α → Prog T ε' β'} (hp : Relates hS hT R Q Eq E p q) (hy : p.Yields P)
    (hf : ∀ a, P a → Relates hS hT Q R₂ W E (f a) (g a)) (herr : ∀ s t, Q s t → R₂ s t) :
    Relates hS hT R R₂ W E (p.bind f) (q.bind g) := by
  have hrun : ∀ (p : Prog S ε α) (s : σ), p.Yields P → ∀ a, (p.run hS s).1 = .ok a → P a := by
    intro p
    induction p with
    | ret a => exact fun _ hy _ h => Except.ok.inj h ▸ hy
    | raise e => exact fun _ _ _ h => nomatch h
    | perform o k ih => exact fun s hy => ih _ _ (hy _)
  have hknown : Relates hS hT R Q (fun a b => a = b ∧ P a) E p q := by
    intro s t hst
    obtain ⟨hout, hstate⟩ := hp s t hst
    refine ⟨?_, hstate⟩
    cases hx : (p.run hS s).1 with
    | ok a =>
        cases hz : (q.run hT t).1 with
        | ok b =>
            rw [hx, hz] at hout
            exact ⟨hout, hrun p s hy a hx⟩
        | error e =>
            rw [hx, hz] at hout
            exact hout.elim
    | error e =>
        cases hz : (q.run hT t).1 with
        | ok b =>
            rw [hx, hz] at hout
            exact hout.elim
        | error e' =>
            rw [hx, hz] at hout
            exact hout
  exact hknown.bind (fun a b hab => hab.1 ▸ hf a hab.2) herr

theorem Relates.mono {V' : α → α' → Prop} {E' : ε → ε' → Prop} {R' Q' : σ → τ → Prop} {p : Prog S ε α}
    {q : Prog T ε' α'} (hp : Relates hS hT R Q V E p q) (hR : ∀ s t, R' s t → R s t)
    (hQ : ∀ s t, Q s t → Q' s t) (hV : ∀ a b, V a b → V' a b) (hE : ∀ e e', E e e' → E' e e') :
    Relates hS hT R' Q' V' E' p q := by
  intro s t hst
  obtain ⟨hout, hstate⟩ := hp s t (hR s t hst)
  exact ⟨hout.mono hV hE, hQ _ _ hstate⟩

/-- **A program against itself.** If in related states every operation it may perform is answered as the view
    expects, by answers the view does not tell apart, and keeps the states related, so does the whole program. -/
theorem relates_of_under {hS' : (o : S.Op) → τ → Except ε (S.Res o) × τ} {U : View S ε} {ok : S.Op → Prop}
    (hfits : ∀ o s t, R s t → U.fits o (hS o s).1)
    (hop : ∀ o s t, ok o → R s t → Alike (U.same o) Eq (hS o s).1 (hS' o t).1 ∧ R (hS o s).2 (hS' o t).2)
    {p : Prog S ε α} (hp : Under U ok p) : Relates hS hS' R R Eq Eq p p := by
  induction p with
  | ret a => exact fun s t h => ⟨rfl, h⟩
  | raise e => exact fun s t h => ⟨rfl, h⟩
  | perform o k ih =>
      intro s t h
      obtain ⟨hans, hstate⟩ := hop o s t hp.1 h
      have hnext : k (hS' o t).1 = k (hS o s).1 := by
        cases hs : (hS o s).1 with
        | ok a =>
            cases ht : (hS' o t).1 with
            | ok b =>
                rw [hs, ht] at hans
                exact (hp.2.1 a b hans).symm
            | error e =>
                rw [hs, ht] at hans
                exact hans.elim
        | error e =>
            cases ht : (hS' o t).1 with
            | ok b =>
                rw [hs, ht] at hans
                exact hans.elim
            | error e' =>
                rw [hs, ht] at hans
                rw [show e = e' from hans]
      rw [run_perform, run_perform, hnext]
      exact ih _ (hp.2.2 _ (hfits o s t h)) _ _ hstate

/-- What related runs say about their outcomes, with equality. -/
theorem Relates.answer_eq {hS' : (o : S.Op) → τ → Except ε (S.Res o) × τ} {p q : Prog S ε α}
    (h : Relates hS hS' R Q Eq Eq p q) {s : σ} {t : τ} (hst : R s t) : (p.run hS s).1 = (q.run hS' t).1 :=
  alike_eq.mp (h s t hst).1

end Prog

/-! ## Services -/

namespace Service

variable {σ ρ : Type} {A : ρ → Type} (serve : σ → (r : ρ) → A r × σ)

/-- The state after a list of requests. -/
def final (s : σ) (rs : List ρ) : σ := rs.foldl (fun s r => (serve s r).2) s

/-- The replies to requests served one after another. -/
def replies : σ → List ρ → List (Σ r, A r)
  | _, [] => []
  | s, r :: rs => ⟨r, (serve s r).1⟩ :: replies (serve s r).2 rs

/-- Serve all of a marked list; keep the replies to the marked requests. -/
def heard : σ → List (Bool × ρ) → List (Σ r, A r)
  | _, [] => []
  | s, (true, r) :: steps => ⟨r, (serve s r).1⟩ :: heard (serve s r).2 steps
  | s, (false, r) :: steps => heard (serve s r).2 steps

/-- All requests of a marked list. -/
def all (steps : List (Bool × ρ)) : List ρ := steps.map (·.2)

/-- Its marked requests. -/
def marked (steps : List (Bool × ρ)) : List ρ := all (steps.filter (·.1))

/-- **Two runs of the same requests**, from states that every one of them keeps related. -/
theorem replies_eq {R : σ → σ → Prop} {rs : List ρ}
    (hserve : ∀ r ∈ rs, ∀ s t, R s t → (serve s r).1 = (serve t r).1 ∧ R (serve s r).2 (serve t r).2) {s t : σ}
    (h : R s t) : replies serve s rs = replies serve t rs ∧ R (final serve s rs) (final serve t rs) := by
  induction rs generalizing s t with
  | nil => exact ⟨rfl, h⟩
  | cons r rs ih =>
      obtain ⟨hans, hnext⟩ := hserve r List.mem_cons_self s t h
      obtain ⟨hrest, hend⟩ := ih (fun x hx => hserve x (List.mem_cons_of_mem r hx)) hnext
      refine ⟨?_, hend⟩
      show _ :: replies serve _ rs = _ :: replies serve _ rs
      rw [hans, hrest]

/-- **Leaving requests out.** `I later s t` relates the full run and the run of its marked requests when `later`
    is still to be served. If a marked request is answered alike in both and an unmarked one is not noticed, the
    marked requests hear what they would hear alone. -/
theorem heard_eq_replies {I : List (Bool × ρ) → σ → σ → Prop}
    (hmarked : ∀ r later s t, I ((true, r) :: later) s t →
      (serve s r).1 = (serve t r).1 ∧ I later (serve s r).2 (serve t r).2)
    (hother : ∀ r later s t, I ((false, r) :: later) s t → I later (serve s r).2 t)
    {steps : List (Bool × ρ)} {s t : σ} (h : I steps s t) :
    heard serve s steps = replies serve t (marked steps) ∧
      I [] (final serve s (all steps)) (final serve t (marked steps)) := by
  induction steps generalizing s t with
  | nil => exact ⟨rfl, h⟩
  | cons step later ih =>
      obtain ⟨b, r⟩ := step
      cases b with
      | true =>
          obtain ⟨hans, hnext⟩ := hmarked r later s t h
          obtain ⟨hrest, hend⟩ := ih hnext
          refine ⟨?_, hend⟩
          show _ :: heard serve _ later = _ :: replies serve _ (marked later)
          rw [hans, hrest]
      | false => exact ih (hother r later s t h)

end Service

end Theory
