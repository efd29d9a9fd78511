import SlrBooking.Theory.Pool

/-!
# `Theory.Solo` — threads that run one at a time

While nothing blocks thread `t`, a schedule that names only `t` runs its program from one end to the other, with the
machine's answers for handler, and closes it; steps after that change nothing. A serial schedule gives every thread
of a list such a turn.

## Contents
- `Prog.Logged`: how a program ends when it is answered as a log says. `Prog.trace`: the log of a run.
- `Machine.Answers`, `runs_solo`: one thread to its end.
- `Machine.serial`, `serial_rule`: the induction over a serial schedule.
-/

namespace Theory

variable {S : Sig} {ε σ α β : Type}

namespace Prog

/-- Answered as the log says, the program performs just the logged operations and ends so. -/
inductive Logged : Prog S ε α → List (Event S ε) → Except ε α → Prop where
  | ret (a : α) : Logged (ret a) [] (.ok a)
  | raise (e : ε) : Logged (raise e) [] (.error e)
  | perform {o : S.Op} {k : Except ε (S.Res o) → Prog S ε α} {r : Except ε (S.Res o)} {log : List (Event S ε)}
      {x : Except ε α} (h : Logged (k r) log x) : Logged (perform o k) (⟨o, r⟩ :: log) x

/-- The operations of a run, with their answers. -/
def trace (h : (o : S.Op) → σ → Except ε (S.Res o) × σ) : Prog S ε α → σ → List (Event S ε)
  | ret _, _ => []
  | raise _, _ => []
  | perform o k, s => ⟨o, (h o s).1⟩ :: (k (h o s).1).trace h (h o s).2

variable (h : (o : S.Op) → σ → Except ε (S.Res o) × σ)

theorem logged_trace (p : Prog S ε α) (s : σ) : Logged p (p.trace h s) (p.run h s).1 := by
  induction p generalizing s with
  | ret a => exact .ret a
  | raise e => exact .raise e
  | perform o k ih => exact .perform (ih _ _)

/-- Computing with the result performs nothing. -/
theorem trace_bind_ret (p : Prog S ε α) (f : α → β) (s : σ) :
    (p.bind fun a => ret (f a)).trace h s = p.trace h s := by
  induction p generalizing s with
  | ret a => rfl
  | raise e => rfl
  | perform o k ih => exact congrArg _ (ih _ _)

theorem run_bind_ret_state (p : Prog S ε α) (f : α → β) (s : σ) :
    ((p.bind fun a => ret (f a)).run h s).2 = (p.run h s).2 := by
  induction p generalizing s with
  | ret a => rfl
  | raise e => rfl
  | perform o k ih => exact ih _ _

end Prog

namespace Machine

variable (M : Machine S ε σ)

/-- In states of `I` thread `t` is never blocked: the machine answers it as `h` does, and stays in `I`. -/
def Answers (t : Nat) (h : (o : S.Op) → σ → Except ε (S.Res o) × σ) (I : σ → Prop) : Prop :=
  ∀ o s, I s → M.exec t o s = some (h o s) ∧ I (h o s).2

theorem runs_cons (c : Config S ε σ α) (t : Nat) (ts : List Nat) : M.runs c (t :: ts) = M.runs (M.step c t) ts := rfl

theorem runs_append (c : Config S ε σ α) (ts us : List Nat) : M.runs c (ts ++ us) = M.runs (M.runs c ts) us :=
  List.foldl_append

/-- Scheduling a closed thread does nothing. -/
theorem runs_ended {c : Config S ε σ α} {t : Nat} {th : Thread S ε α} (hth : c.threads[t]? = some th)
    (hended : th.ended = true) (n : Nat) : M.runs c (List.replicate n t) = c := by
  induction n with
  | zero => rfl
  | succ n ih =>
      have hstep : M.step c t = c := by
        unfold step
        rw [hth]
        simp [hended]
      rw [List.replicate_succ, runs_cons, hstep, ih]

/-- Nor does scheduling a thread there is not. -/
theorem runs_absent {c : Config S ε σ α} {t : Nat} (hth : c.threads[t]? = none) (n : Nat) :
    M.runs c (List.replicate n t) = c := by
  induction n with
  | zero => rfl
  | succ n ih =>
      have hstep : M.step c t = c := by
        unfold step
        rw [hth]
      rw [List.replicate_succ, runs_cons, hstep, ih]

/-- A thread with nothing left to do is closed by its next step. -/
theorem runs_finish {c : Config S ε σ α} {t : Nat} {th : Thread S ε α} (hth : c.threads[t]? = some th)
    {x : Except ε α} (hres : th.prog.result? = some x) (hlive : th.ended = false) :
    ∀ n ≥ 1, M.runs c (List.replicate n t) =
      ⟨M.finish t c.shared, c.threads.set t { th with ended := true }⟩ := by
  intro n hn
  obtain ⟨m, rfl⟩ := Nat.exists_eq_add_of_le' hn
  have hstep : M.step c t = ⟨M.finish t c.shared, c.threads.set t { th with ended := true }⟩ := by
    unfold step
    rw [hth]
    cases hprog : th.prog with
    | ret a => simp [hlive, hprog]
    | raise e => simp [hlive, hprog]
    | perform o k =>
        rw [hprog] at hres
        cases hres
  rw [List.replicate_succ, runs_cons, hstep]
  exact M.runs_ended (List.getElem?_set_self (List.getElem?_eq_some_iff.mp hth).1) rfl m

/-- **One thread to its end.** By induction on what is left of its program. -/
theorem runs_solo {t : Nat} {h : (o : S.Op) → σ → Except ε (S.Res o) × σ} {I : σ → Prop} (hM : M.Answers t h I)
    {c : Config S ε σ α} {th : Thread S ε α} (hth : c.threads[t]? = some th) (hlive : th.ended = false)
    (hI : I c.shared) : ∃ q : Thread S ε α, q.ended = true ∧ q.log = th.log ++ th.prog.trace h c.shared ∧
      ∃ k, ∀ n ≥ k, M.runs c (List.replicate n t) =
        ⟨M.finish t (th.prog.run h c.shared).2, c.threads.set t q⟩ := by
  obtain ⟨p, log, ended⟩ := th
  obtain rfl : ended = false := hlive
  induction p generalizing c log with
  | ret a =>
      exact ⟨⟨.ret a, log, true⟩, rfl, (List.append_nil log).symm, 1, M.runs_finish hth rfl rfl⟩
  | raise e =>
      exact ⟨⟨.raise e, log, true⟩, rfl, (List.append_nil log).symm, 1, M.runs_finish hth rfl rfl⟩
  | perform o k ih =>
      obtain ⟨hexec, hnext⟩ := hM o c.shared hI
      have hlt := (List.getElem?_eq_some_iff.mp hth).1
      have hstep : M.step c t = ⟨(h o c.shared).2,
          c.threads.set t ⟨k (h o c.shared).1, log ++ [⟨o, (h o c.shared).1⟩], false⟩⟩ := by
        unfold step
        rw [hth]
        simp [hexec]
      obtain ⟨q, hended, hlog, m, hruns⟩ := ih (h o c.shared).1
        (c := ⟨(h o c.shared).2, c.threads.set t ⟨k (h o c.shared).1, log ++ [⟨o, (h o c.shared).1⟩], false⟩⟩)
        hnext _ (List.getElem?_set_self hlt)
      refine ⟨q, hended, ?_, m + 1, fun n hn => ?_⟩
      · rw [hlog, List.append_assoc]
        rfl
      · obtain ⟨n', rfl⟩ := Nat.exists_eq_add_of_le' (Nat.le_trans (Nat.le_add_left 1 m) hn)
        rw [List.replicate_succ, runs_cons, hstep, hruns n' (Nat.le_of_succ_le_succ hn), List.set_set]
        rfl

/-- The threads of `order` one after another, each for `n` steps. -/
def serial (n : Nat) (order : List Nat) : List Nat := order.flatMap fun t => List.replicate n t

/-- **The rule for serial schedules.** `J done` holds when the threads of `done` have had their turns. If the turn of
    one more thread leads from `J done` to one and the same configuration however long it is made, from some length
    on, the schedule leads to `J` of the whole list. -/
theorem serial_rule {J : List Nat → Config S ε σ α → Prop} {P : List Nat → Nat → Prop}
    (hturn : ∀ done t c, J done c → P done t →
      ∃ c', J (done ++ [t]) c' ∧ ∃ k, ∀ n ≥ k, M.runs c (List.replicate n t) = c')
    {order done : List Nat} {c : Config S ε σ α} (hc : J done c)
    (hok : ∀ front t back, order = front ++ t :: back → P (done ++ front) t) :
    ∃ c', J (done ++ order) c' ∧ ∃ k, ∀ n ≥ k, M.runs c (serial n order) = c' := by
  induction order generalizing done c with
  | nil => exact ⟨c, by rwa [List.append_nil], 0, fun n _ => rfl⟩
  | cons t rest ih =>
      have hfirst : P done t := by
        have := hok [] t rest rfl
        rwa [List.append_nil] at this
      obtain ⟨c₁, hc₁, k₁, hk₁⟩ := hturn done t c hc hfirst
      obtain ⟨c₂, hc₂, k₂, hk₂⟩ := ih hc₁ fun front u back he => by
        have := hok (t :: front) u back (by rw [he, List.cons_append])
        rwa [List.append_assoc]
      refine ⟨c₂, by rwa [List.append_assoc] at hc₂, max k₁ k₂, fun n hn => ?_⟩
      show M.runs c (List.replicate n t ++ serial n rest) = c₂
      rw [runs_append, hk₁ n (Nat.le_trans (Nat.le_max_left _ _) hn),
        hk₂ n (Nat.le_trans (Nat.le_max_right _ _) hn)]

end Machine

end Theory
