import SlrBooking.Theory.Prog
import Mathlib.Data.List.Basic

/-!
# `Theory.Pool` — programs interleaved over one shared state

A `Machine` says how an operation of thread `t` acts on the shared state: it answers and moves the
state, or it is blocked (`none`), as a lock wait is. A `Config` is the shared state with every thread's
remaining program and its log. A schedule is a list of thread numbers; scheduling a blocked or finished
thread leaves the configuration alone, so every list is a schedule and every interleaving is a list.

## Contents
- `Machine.step`, `Machine.runs`, `Machine.visited`: one scheduled step, a schedule, the configurations
  it passes through.
- `Move` / `step_move`: what one step can do, said once; every invariant is proved by cases on it.
- `ObeysNoting` / `foldl_noting`: a condition on the steps of a run that depends on a record of the past.
- `Obeys` / `runs_invariant`: a condition on the configuration before each step, and the induction rule.
  `visited_noting`: the rule with a record of the past.
-/

namespace Theory

variable {S : Sig} {ε σ α : Type}

/-! ## Conditions that depend on the past

What one party has read and what another has done to it since need not be in the state. `note` keeps a record of it
along the run, and the condition on a step may look at the record. -/

section Noting

variable {St Turn G : Type} (step : St → Turn → St) (note : G → St → Turn → G) (ok : G → St → Turn → Prop)

/-- `ok` holds before every step of the run, with the record of the steps before it. -/
def ObeysNoting : G → St → List Turn → Prop
  | _, _, [] => True
  | g, c, t :: ts => ok g c t ∧ ObeysNoting (note g c t) (step c t) ts

instance ObeysNoting.decidable [∀ g c t, Decidable (ok g c t)] :
    ∀ (g : G) (c : St) (turns : List Turn), Decidable (ObeysNoting step note ok g c turns)
  | _, _, [] => inferInstanceAs (Decidable True)
  | g, c, t :: ts =>
    have := ObeysNoting.decidable (note g c t) (step c t) ts
    inferInstanceAs (Decidable (ok g c t ∧ ObeysNoting step note ok (note g c t) (step c t) ts))

variable {step note ok}

/-- **Run rule** with a record of the past. -/
theorem foldl_noting {I : G → St → Prop} (hstep : ∀ g c t, I g c → ok g c t → I (note g c t) (step c t)) {g : G}
    {c : St} {turns : List Turn} (hc : I g c) (hok : ObeysNoting step note ok g c turns) :
    ∃ g', I g' (turns.foldl step c) := by
  induction turns generalizing g c with
  | nil => exact ⟨g, hc⟩
  | cons t ts ih => exact ih (hstep g c t hc hok.1) hok.2

end Noting

/-! ## Threads, a machine and its runs

A thread is a program with the log of what it was answered. One step of the machine lets one thread issue its next
operation, wait, or end. -/

/-- A thread: what is left to run, what it has done, and whether it has been closed. -/
structure Thread (S : Sig) (ε α : Type) where
  prog  : Prog S ε α
  log   : List (Event S ε) := []
  ended : Bool := false

/-- How a thread's operations act on the shared state. `finish` closes a thread that has no operation
    left. -/
structure Machine (S : Sig) (ε σ : Type) where
  exec   : Nat → (o : S.Op) → σ → Option (Except ε (S.Res o) × σ)
  finish : Nat → σ → σ

/-- The shared state and all threads. -/
structure Config (S : Sig) (ε σ α : Type) where
  shared  : σ
  threads : List (Thread S ε α)

/-- The operation thread `t` is about to perform. -/
def Config.next (c : Config S ε σ α) (t : Nat) : Option S.Op :=
  match c.threads[t]? with
  | none => none
  | some th => if th.ended then none else th.prog.next?

theorem Config.next_eq {c : Config S ε σ α} {t : Nat} {th : Thread S ε α} {o : S.Op}
    {k : Except ε (S.Res o) → Prog S ε α} (hth : c.threads[t]? = some th) (hlive : th.ended = false)
    (hprog : th.prog = .perform o k) : c.next t = some o := by
  unfold next
  rw [hth]
  simp [hlive, hprog, Prog.next?]

theorem Config.of_next {c : Config S ε σ α} {t : Nat} {o : S.Op} (h : c.next t = some o) :
    ∃ th k, c.threads[t]? = some th ∧ th.ended = false ∧ th.prog = .perform o k := by
  unfold next at h
  cases hth : c.threads[t]? with
  | none =>
      rw [hth] at h
      cases h
  | some th =>
      rw [hth] at h
      cases hended : th.ended with
      | true => simp [hended] at h
      | false =>
          simp only [hended] at h
          cases hprog : th.prog with
          | ret a | raise e =>
              rw [hprog] at h
              cases h
          | perform o' k =>
              rw [hprog] at h
              obtain rfl : o' = o := Option.some.inj h
              exact ⟨th, k, rfl, hended, hprog⟩

/-- An entry of an updated list: another one as it was, or the new one. -/
theorem set_cases {β : Type} {l : List β} {t u : Nat} {a b : β} (ht : t < l.length) (h : (l.set t a)[u]? = some b) :
    (u ≠ t ∧ l[u]? = some b) ∨ (u = t ∧ b = a) := by
  by_cases hut : u = t
  · subst hut
    rw [List.getElem?_set_self ht] at h
    exact Or.inr ⟨rfl, (Option.some.inj h).symm⟩
  · rw [List.getElem?_set_ne (Ne.symm hut)] at h
    exact Or.inl ⟨hut, h⟩

/-- What an update keeps of the entry it replaces stays true of every entry. -/
theorem set_keeps {β : Type} {P : β → Prop} {l : List β} {t u : Nat} {a₀ a b : β} (ht : l[t]? = some a₀)
    (hkeep : P a₀ → P a) (hb : l[u]? = some b) (hP : P b) : ∃ b', (l.set t a)[u]? = some b' ∧ P b' := by
  by_cases hut : u = t
  · subst hut
    rw [ht] at hb
    exact ⟨a, List.getElem?_set_self (List.getElem?_eq_some_iff.mp ht).1, hkeep (Option.some.inj hb ▸ hP)⟩
  · exact ⟨b, (List.getElem?_set_ne (Ne.symm hut)).trans hb, hP⟩

namespace Machine

variable (M : Machine S ε σ)

/-- Let thread `t` do its next operation, or close it if none is left. -/
def step (c : Config S ε σ α) (t : Nat) : Config S ε σ α :=
  match c.threads[t]? with
  | none => c
  | some th =>
    if th.ended then c
    else match th.prog with
      | .perform o k =>
        match M.exec t o c.shared with
        | none => c
        | some (r, s) => ⟨s, c.threads.set t ⟨k r, th.log ++ [⟨o, r⟩], false⟩⟩
      | .ret _ => ⟨M.finish t c.shared, c.threads.set t { th with ended := true }⟩
      | .raise _ => ⟨M.finish t c.shared, c.threads.set t { th with ended := true }⟩

/-- The configuration a schedule ends in. -/
def runs (c : Config S ε σ α) (sched : List Nat) : Config S ε σ α := sched.foldl M.step c

/-- Every configuration a schedule passes through, the first and the last included. -/
def visited : Config S ε σ α → List Nat → List (Config S ε σ α)
  | c, [] => [c]
  | c, t :: ts => c :: visited (M.step c t) ts

/-- `ok` holds before every step of the schedule. -/
def Obeys (ok : Config S ε σ α → Nat → Prop) : Config S ε σ α → List Nat → Prop
  | _, [] => True
  | c, t :: ts => ok c t ∧ Obeys ok (M.step c t) ts

instance Obeys.decidable (ok : Config S ε σ α → Nat → Prop) [∀ c t, Decidable (ok c t)] :
    ∀ (c : Config S ε σ α) (sched : List Nat), Decidable (M.Obeys ok c sched)
  | _, [] => inferInstanceAs (Decidable True)
  | c, t :: ts =>
    have := Obeys.decidable ok (M.step c t) ts
    inferInstanceAs (Decidable (ok c t ∧ M.Obeys ok (M.step c t) ts))

/-- **What one scheduled step can do.** Nothing; close a thread that has run out of operations; or
    perform one operation and log it. -/
inductive Move (c : Config S ε σ α) (t : Nat) : Config S ε σ α → Prop where
  | stay : Move c t c
  | finish {th : Thread S ε α} {r : Except ε α} (hth : c.threads[t]? = some th)
      (hlive : th.ended = false) (hres : th.prog.result? = some r) :
      Move c t ⟨M.finish t c.shared, c.threads.set t { th with ended := true }⟩
  | act {th : Thread S ε α} {o : S.Op} {k : Except ε (S.Res o) → Prog S ε α}
      {r : Except ε (S.Res o)} {s : σ} (hth : c.threads[t]? = some th)
      (hlive : th.ended = false) (hprog : th.prog = .perform o k)
      (hexec : M.exec t o c.shared = some (r, s)) :
      Move c t ⟨s, c.threads.set t ⟨k r, th.log ++ [⟨o, r⟩], false⟩⟩

theorem step_move (c : Config S ε σ α) (t : Nat) : M.Move c t (M.step c t) := by
  unfold step
  split
  · exact Move.stay
  · rename_i th hth
    split
    · exact Move.stay
    · rename_i hended
      have hlive : th.ended = false := by simpa using hended
      split
      · rename_i o k hprog
        split
        · exact Move.stay
        · rename_i r s hexec
          exact Move.act hth hlive hprog hexec
      · rename_i a hprog
        exact Move.finish hth hlive (r := .ok a) (by rw [hprog]; rfl)
      · rename_i e hprog
        exact Move.finish hth hlive (r := .error e) (by rw [hprog]; rfl)

/-- A thread that comes to an operation the machine answers performs it. -/
theorem step_of_next {c : Config S ε σ α} {t : Nat} {o : S.Op} {r : Except ε (S.Res o)} {s : σ}
    (hnext : c.next t = some o) (hexec : M.exec t o c.shared = some (r, s)) :
    ∃ th k, c.threads[t]? = some th ∧ th.ended = false ∧ th.prog = .perform o k ∧
      M.step c t = ⟨s, c.threads.set t ⟨k r, th.log ++ [⟨o, r⟩], false⟩⟩ := by
  unfold Config.next at hnext
  unfold step
  cases hth : c.threads[t]? with
  | none =>
      rw [hth] at hnext
      cases hnext
  | some th =>
      rw [hth] at hnext
      cases hended : th.ended with
      | true => simp [hended] at hnext
      | false =>
          simp only [hended] at hnext
          cases hprog : th.prog with
          | ret a | raise e =>
              rw [hprog] at hnext
              cases hnext
          | perform o' k =>
              rw [hprog] at hnext
              obtain rfl : o' = o := Option.some.inj hnext
              refine ⟨th, k, rfl, hended, hprog, ?_⟩
              simp [hended, hprog, hexec]

/-- A thread that comes to an operation the machine keeps waiting stays where it is. -/
theorem step_blocked {c : Config S ε σ α} {t : Nat} {o : S.Op} (hnext : c.next t = some o)
    (hexec : M.exec t o c.shared = none) : M.step c t = c := by
  obtain ⟨th, k, hth, hlive, hprog⟩ := Config.of_next hnext
  unfold step
  rw [hth]
  simp [hlive, hprog, hexec]

/-! ## Invariants of runs

A property of the start that every step under the condition keeps holds in every state visited. -/

/-- **Run rule.** An invariant that every step obeying `ok` preserves holds in every visited
    configuration of an obeying schedule. -/
theorem visited_invariant {ok : Config S ε σ α → Nat → Prop} {I : Config S ε σ α → Prop}
    (hstep : ∀ c t, I c → ok c t → I (M.step c t)) :
    ∀ {c : Config S ε σ α} {sched : List Nat}, I c → M.Obeys ok c sched →
      ∀ d ∈ M.visited c sched, I d
  | _, [], hc, _, d, hd => by
      rw [List.mem_singleton.mp hd]
      exact hc
  | c, t :: ts, hc, hok, d, hd => by
      rcases List.mem_cons.mp hd with hd | hd
      · rw [hd]
        exact hc
      · exact visited_invariant hstep (hstep c t hc hok.1) hok.2 d hd

/-- The last configuration is a visited one. -/
theorem runs_mem_visited : ∀ (c : Config S ε σ α) (sched : List Nat),
    M.runs c sched ∈ M.visited c sched
  | _, [] => List.mem_singleton.mpr rfl
  | c, t :: ts => List.mem_cons_of_mem _ (runs_mem_visited (M.step c t) ts)

theorem runs_invariant {ok : Config S ε σ α → Nat → Prop} {I : Config S ε σ α → Prop}
    (hstep : ∀ c t, I c → ok c t → I (M.step c t)) {c : Config S ε σ α} {sched : List Nat}
    (hc : I c) (hok : M.Obeys ok c sched) : I (M.runs c sched) :=
  M.visited_invariant hstep hc hok _ (M.runs_mem_visited c sched)

/-- The run rule with a record of the past, for every configuration on the way. -/
theorem visited_noting {G : Type} {note : G → Config S ε σ α → Nat → G} {ok : G → Config S ε σ α → Nat → Prop}
    {I : G → Config S ε σ α → Prop} (hstep : ∀ g c t, I g c → ok g c t → I (note g c t) (M.step c t)) :
    ∀ {g : G} {c : Config S ε σ α} {sched : List Nat}, I g c → ObeysNoting M.step note ok g c sched →
      ∀ d ∈ M.visited c sched, ∃ g', I g' d
  | g, c, [], hc, _, d, hd => by
      rw [List.mem_singleton.mp hd]
      exact ⟨g, hc⟩
  | g, c, t :: ts, hc, hok, d, hd => by
      rcases List.mem_cons.mp hd with hd | hd
      · rw [hd]
        exact ⟨g, hc⟩
      · exact visited_noting hstep (hstep g c t hc hok.1) hok.2 d hd

/-- With no condition on its steps every schedule obeys. -/
theorem obeys_true : ∀ (c : Config S ε σ α) (sched : List Nat), M.Obeys (fun _ _ => True) c sched
  | _, [] => trivial
  | c, t :: ts => ⟨trivial, obeys_true (M.step c t) ts⟩

/-! ## Threads of restricted operations -/

/-- Every thread's remaining program performs only operations it may. -/
def Restricted (ok : Nat → S.Op → Prop) (c : Config S ε σ α) : Prop :=
  ∀ t th, c.threads[t]? = some th → Prog.Only (ok t) th.prog

/-- **Step rule for one thread.** What closing a thread keeps, and what an operation with its answer keeps, holds of
    every thread after a step. -/
theorem each_step {P : Nat → Thread S ε α → Prop} {c : Config S ε σ α} (h : ∀ u th, c.threads[u]? = some th → P u th)
    (hfinish : ∀ u th, P u th → P u { th with ended := true })
    (hact : ∀ u th o k r, th.prog = .perform o k → P u th → P u ⟨k r, th.log ++ [⟨o, r⟩], false⟩) (t : Nat) :
    ∀ u th, (M.step c t).threads[u]? = some th → P u th := by
  have hmove := M.step_move c t
  generalize M.step c t = c' at hmove ⊢
  intro u th' hth'
  cases hmove with
  | stay => exact h u th' hth'
  | @finish th r hth hlive hres =>
      rcases set_cases (List.getElem?_eq_some_iff.mp hth).1 hth' with ⟨-, hth'⟩ | ⟨rfl, rfl⟩
      · exact h u th' hth'
      · exact hfinish u th (h u th hth)
  | @act th o k r s hth hlive hprog hexec =>
      rcases set_cases (List.getElem?_eq_some_iff.mp hth).1 hth' with ⟨-, hth'⟩ | ⟨rfl, rfl⟩
      · exact h u th' hth'
      · exact hact u th o k r hprog (h u th hth)

theorem Restricted.step {ok : Nat → S.Op → Prop} {c : Config S ε σ α} (h : Restricted ok c) (t : Nat) :
    Restricted ok (M.step c t) := by
  refine M.each_step h (fun _ _ honly => honly) (fun u th o k r hprog honly => ?_) t
  rw [hprog] at honly
  exact honly.2 r

theorem Restricted.next {ok : Nat → S.Op → Prop} {c : Config S ε σ α} (h : Restricted ok c) {t : Nat} {o : S.Op}
    (hnext : c.next t = some o) : ok t o := by
  unfold Config.next at hnext
  split at hnext
  · cases hnext
  · rename_i th hth
    split at hnext
    · cases hnext
    · have honly := h t th hth
      cases hprog : th.prog with
      | ret a | raise e =>
          rw [hprog] at hnext
          cases hnext
      | perform o' k =>
          rw [hprog] at hnext honly
          obtain rfl : o' = o := Option.some.inj hnext
          exact honly.1

/-! ## Threads that keep to a proof outline -/

section Follows

variable {L : Type} (pre : Nat → L → S.Op → Prop) (upd : L → (o : S.Op) → Except ε (S.Res o) → L) (init : L)
variable (post : Nat → L → Except ε α → Prop)

/-- What a thread knows from its log. -/
def know (th : Thread S ε α) : L := th.log.foldl (fun l e => upd l e.op e.ans) init

theorem know_snoc (th : Thread S ε α) (p : Prog S ε α) (o : S.Op) (r : Except ε (S.Res o)) (b : Bool) :
    know upd init ⟨p, th.log ++ [⟨o, r⟩], b⟩ = upd (know upd init th) o r := by
  simp [know, List.foldl_append]

/-- Every thread's remaining program keeps to its outline from what the thread knows. -/
def Follows (c : Config S ε σ α) : Prop :=
  ∀ t th, c.threads[t]? = some th → Prog.Outline (pre t) upd (post t) (know upd init th) th.prog

variable {M} {pre upd init post}

/-- The operation a thread performs is allowed by its outline. -/
theorem Follows.allowed {c : Config S ε σ α} (h : Follows pre upd init post c) {t : Nat} {th : Thread S ε α} {o : S.Op}
    {k : Except ε (S.Res o) → Prog S ε α} (hth : c.threads[t]? = some th) (hprog : th.prog = .perform o k) :
    pre t (know upd init th) o := by
  have hout := h t th hth
  rw [hprog] at hout
  exact hout.1

/-- A thread that has run out of operations ended as its outline says. -/
theorem Follows.finished {c : Config S ε σ α} (h : Follows pre upd init post c) {t : Nat} {th : Thread S ε α}
    {r : Except ε α} (hth : c.threads[t]? = some th) (hres : th.prog.result? = some r) :
    post t (know upd init th) r := by
  have hout := h t th hth
  cases hprog : th.prog with
  | perform o k =>
      rw [hprog] at hres
      cases hres
  | ret a | raise e =>
      rw [hprog] at hres hout
      obtain rfl := Option.some.inj hres
      exact hout

/-- **Step rule for outlines.** -/
theorem Follows.step {c : Config S ε σ α} (h : Follows pre upd init post c) (t : Nat) :
    Follows pre upd init post (M.step c t) := by
  refine M.each_step h (fun _ _ hout => hout) (fun u th o k r hprog hout => ?_) t
  rw [hprog] at hout
  rw [know_snoc]
  exact hout.2 r

/-- A new thread that keeps to its outline from the start. -/
theorem Follows.spawn {c : Config S ε σ α} (h : Follows pre upd init post c) (s : σ) {p : Prog S ε α}
    (hp : Prog.Outline (pre c.threads.length) upd (post c.threads.length) init p) :
    Follows pre upd init post ⟨s, c.threads ++ [{ prog := p }]⟩ := by
  intro u th hth
  rcases Nat.lt_trichotomy u c.threads.length with hu | rfl | hu
  · rw [List.getElem?_append_left hu] at hth
    exact h u th hth
  · rw [List.getElem?_concat_length] at hth
    obtain rfl := Option.some.inj hth
    exact hp
  · rw [List.getElem?_eq_none (by simpa using Nat.succ_le_of_lt hu)] at hth
    cases hth

end Follows

end Machine

end Theory
