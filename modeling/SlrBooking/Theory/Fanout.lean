import Mathlib.Data.List.Nodup
import Mathlib.Data.List.Infix

/-!
# `Theory.Fanout` — a broker that copies its subscriber list and then fills one queue after another

Publishing takes the lock only to copy the list of subscribers; the queues of the copy are then filled one by one,
with anything in between: other publications, subscriptions, withdrawals, subscribers taking messages out. A queue
may get messages after its subscriber has withdrawn, and a subscriber that comes after the copy gets nothing of that
publication.

## Contents
- `Item`, `Box`, `Call`, `Broker`: queues with what was taken out of them, and the publications under way.
- `Act`, `Broker.step`: the atomic steps.
- `Sound`: every publication is in a queue once if it has reached it, and not otherwise; each step keeps it.
- `Grows`: what later steps cannot undo. `in_order`: a publication that has returned stays ahead of one that has not
  made its copy.
-/

namespace Theory
namespace Fanout

variable {M : Type}

/-- A published message, with the number of its publication. -/
structure Item (M : Type) where
  call    : Nat
  message : M
deriving DecidableEq

/-- A subscriber's queue, and what has been taken out of it. -/
structure Box (M : Type) where
  waiting : List (Item M) := []
  taken   : List (Item M) := []
deriving DecidableEq

/-- Everything ever put into the queue, in order. -/
def Box.all (b : Box M) : List (Item M) := b.taken ++ b.waiting

def Box.push (i : Item M) (b : Box M) : Box M := { b with waiting := b.waiting ++ [i] }

/-- Take the oldest message, if there is one. -/
def Box.pop (b : Box M) : Box M :=
  match b.waiting with
  | [] => b
  | i :: rest => ⟨rest, b.taken ++ [i]⟩

/-- A publication: its copy of the subscriber list, once made, and how many of the copy it has reached. -/
structure Call (M : Type) where
  message : M
  copied  : Option (List Nat) := none
  next    : Nat := 0
deriving DecidableEq

/-- The queues it has reached. -/
def Call.reached (k : Call M) : List Nat := (k.copied.getD []).take k.next

/-- It has been through its copy. -/
def Call.Returned (k : Call M) : Prop := ∃ ns, k.copied = some ns ∧ ns.length ≤ k.next

/-- Queues are numbered in the order of subscription, publications in the order they began. -/
structure Broker (M : Type) where
  subscribers : List Nat := []
  boxes       : List (Box M) := []
  calls       : List (Call M) := []
deriving DecidableEq

inductive Act (M : Type) where
  | subscribe
  | unsubscribe (n : Nat)
  | publish (m : M)
  | copy (c : Nat)
  | put (c : Nat)
  | take (n : Nat)

namespace Broker

def subscribe (b : Broker M) : Broker M :=
  { b with subscribers := b.subscribers ++ [b.boxes.length], boxes := b.boxes ++ [{}] }

/-- Withdraw; a second withdrawal finds nothing. -/
def unsubscribe (n : Nat) (b : Broker M) : Broker M := { b with subscribers := b.subscribers.erase n }

def publish (m : M) (b : Broker M) : Broker M := { b with calls := b.calls ++ [{ message := m }] }

/-- Publication `c` takes the lock and copies the list. -/
def copy (c : Nat) (b : Broker M) : Broker M :=
  match b.calls[c]? with
  | some k =>
    match k.copied with
    | none => { b with calls := b.calls.set c { k with copied := some b.subscribers } }
    | some _ => b
  | none => b

/-- Publication `c` fills the next queue of its copy. -/
def put (c : Nat) (b : Broker M) : Broker M :=
  match b.calls[c]? with
  | some k =>
    match (k.copied.getD [])[k.next]? with
    | some n =>
      { b with
        boxes := b.boxes.modify n (Box.push ⟨c, k.message⟩)
        calls := b.calls.set c { k with next := k.next + 1 } }
    | none => b
  | none => b

def take (n : Nat) (b : Broker M) : Broker M := { b with boxes := b.boxes.modify n Box.pop }

def step (b : Broker M) : Act M → Broker M
  | .subscribe => b.subscribe
  | .unsubscribe n => b.unsubscribe n
  | .publish m => b.publish m
  | .copy c => b.copy c
  | .put c => b.put c
  | .take n => b.take n

/-- The messages of publication `c` that a queue ever got. -/
def got (b : Broker M) (n c : Nat) : List (Item M) :=
  match b.boxes[n]? with
  | some box => box.all.filter fun i => i.call = c
  | none => []

/-- What it must have got: one message if the publication has reached it. -/
def owed (b : Broker M) (n c : Nat) : List (Item M) :=
  match b.calls[c]? with
  | some k => if n ∈ k.reached then [⟨c, k.message⟩] else []
  | none => []

variable {b : Broker M}

/-- A publication makes its copy once. -/
theorem copy_cases (b : Broker M) (c : Nat) : b.copy c = b ∨ ∃ k, b.calls[c]? = some k ∧ k.copied = none ∧
    b.copy c = { b with calls := b.calls.set c { k with copied := some b.subscribers } } := by
  unfold copy
  cases hc : b.calls[c]? with
  | none => exact Or.inl rfl
  | some k =>
      cases hcopied : k.copied with
      | some ns => exact Or.inl (by simp [hcopied])
      | none => exact Or.inr ⟨k, rfl, hcopied, by simp [hcopied]⟩

/-- A publication fills the queues of its copy in turn. -/
theorem put_cases (b : Broker M) (c : Nat) : b.put c = b ∨ ∃ k ns n, b.calls[c]? = some k ∧ k.copied = some ns ∧
    ns[k.next]? = some n ∧ b.put c =
      { b with
        boxes := b.boxes.modify n (Box.push ⟨c, k.message⟩)
        calls := b.calls.set c { k with next := k.next + 1 } } := by
  unfold put
  cases hc : b.calls[c]? with
  | none => exact Or.inl rfl
  | some k =>
      cases hcopied : k.copied with
      | none => exact Or.inl (by simp [hcopied])
      | some ns =>
          cases hn : ns[k.next]? with
          | none => exact Or.inl (by simp [hcopied, hn])
          | some n => exact Or.inr ⟨k, ns, n, rfl, hcopied, hn, by simp [hcopied, hn]⟩

/-- A publication of the list with one more: an old one, or the one that has just begun. -/
theorem publish_cases {m : M} {c : Nat} {k : Call M} (hk : (b.publish m).calls[c]? = some k) :
    b.calls[c]? = some k ∨ k = { message := m } := by
  rcases Nat.lt_or_ge c b.calls.length with hlt | hge
  · rw [publish, List.getElem?_append_left hlt] at hk
    exact Or.inl hk
  · rw [publish, List.getElem?_append_right hge] at hk
    exact Or.inr (List.mem_singleton.mp (List.mem_of_getElem? hk))

/-- A publication after one of them has moved on. -/
theorem set_cases {c c' : Nat} {k k' x : Call M} (hc : b.calls[c]? = some k)
    (hx : (b.calls.set c k')[c']? = some x) : (c' = c ∧ x = k') ∨ (c' ≠ c ∧ b.calls[c']? = some x) := by
  by_cases he : c' = c
  · rw [he, List.getElem?_set_self (List.getElem?_eq_some_iff.mp hc).1] at hx
    exact Or.inl ⟨he, (Option.some.inj hx).symm⟩
  · rw [List.getElem?_set_ne (Ne.symm he)] at hx
    exact Or.inr ⟨he, hx⟩

end Broker

/-! ## Steps on the queues -/

@[simp] theorem Box.all_push (i : Item M) (b : Box M) : (b.push i).all = b.all ++ [i] := by
  unfold Box.push Box.all
  rw [List.append_assoc]

@[simp] theorem Box.all_pop (b : Box M) : b.pop.all = b.all := by
  unfold Box.pop
  cases h : b.waiting with
  | nil => rfl
  | cons i rest => simp [Box.all, h]

namespace Broker

variable (b : Broker M)

/-- What has been taken out of a queue. -/
def taken (n : Nat) : Option (List (Item M)) := b.boxes[n]?.map Box.taken

/-- Only taking changes what has been taken. -/
theorem taken_put (c n : Nat) : (b.put c).taken n = b.taken n := by
  rcases put_cases b c with he | ⟨k, ns, m, -, -, -, he⟩
  · rw [he]
  · rw [he]
    unfold taken
    dsimp only
    rw [List.getElem?_modify]
    cases b.boxes[n]? with
    | none => rfl
    | some box =>
        by_cases hm : m = n
        · simp [hm, Box.push]
        · simp [hm]

theorem taken_copy (c n : Nat) : (b.copy c).taken n = b.taken n := by
  rcases copy_cases b c with he | ⟨k, -, -, he⟩
  · rw [he]
  · rw [he]
    rfl

theorem taken_subscribe {n : Nat} (h : n < b.boxes.length) : b.subscribe.taken n = b.taken n := by
  unfold taken subscribe
  rw [List.getElem?_append_left h]

theorem taken_subscribe_new : b.subscribe.taken b.boxes.length = some [] := by
  unfold taken subscribe
  rw [List.getElem?_append_right (Nat.le_refl _), Nat.sub_self]
  rfl

theorem taken_take_ne {n m : Nat} (h : n ≠ m) : (b.take n).taken m = b.taken m := by
  unfold taken take
  dsimp only
  rw [List.getElem?_modify]
  cases b.boxes[m]? <;> simp [h]

/-- The oldest message moves over. -/
theorem taken_take {n : Nat} {i : Item M} (h : (b.boxes[n]?.bind fun box => box.waiting.head?) = some i) :
    (b.take n).taken n = (b.taken n).map (· ++ [i]) := by
  unfold taken take
  dsimp only
  rw [List.getElem?_modify]
  cases hbox : b.boxes[n]? with
  | none =>
      rw [hbox] at h
      cases h
  | some box =>
      rw [hbox] at h
      obtain ⟨rest, hrest⟩ := List.head?_eq_some_iff.mp (show box.waiting.head? = some i from h)
      simp [Box.pop, hrest]

theorem length_boxes_put (c : Nat) : (b.put c).boxes.length = b.boxes.length := by
  rcases put_cases b c with he | ⟨k, ns, m, -, -, -, he⟩
  · rw [he]
  · rw [he]
    exact List.length_modify ..

theorem boxes_copy (c : Nat) : (b.copy c).boxes = b.boxes := by
  rcases copy_cases b c with he | ⟨k, -, -, he⟩ <;> rw [he]

theorem subscribers_copy (c : Nat) : (b.copy c).subscribers = b.subscribers := by
  rcases copy_cases b c with he | ⟨k, -, -, he⟩ <;> rw [he]

theorem subscribers_put (c : Nat) : (b.put c).subscribers = b.subscribers := by
  rcases put_cases b c with he | ⟨k, ns, m, -, -, -, he⟩ <;> rw [he]

end Broker

/-! ## The invariant -/

structure Sound (b : Broker M) : Prop where
  known   : ∀ n ∈ b.subscribers, n < b.boxes.length
  nodup   : b.subscribers.Nodup
  fresh   : ∀ (c : Nat) (k : Call M), b.calls[c]? = some k → k.copied = none → k.next = 0
  copies  : ∀ (c : Nat) (k : Call M), b.calls[c]? = some k →
    ∀ ns, k.copied = some ns → ns.Nodup ∧ ∀ n ∈ ns, n < b.boxes.length
  settled : ∀ n c, b.got n c = b.owed n c

theorem sound_empty : Sound ({} : Broker M) where
  known := fun _ h => absurd h List.not_mem_nil
  nodup := List.nodup_nil
  fresh := fun c k h => by simp at h
  copies := fun c k h => by simp at h
  settled := fun n c => by simp [Broker.got, Broker.owed]

namespace Sound

variable {b : Broker M}

theorem subscribe (h : Sound b) : Sound b.subscribe := by
  refine ⟨fun n hn => ?_, ?_, h.fresh, fun c k hk ns hns => ?_, fun n c => ?_⟩
  · rcases List.mem_append.mp hn with hold | hnew
    · have := h.known n hold
      simp [Broker.subscribe]
      omega
    · simp [Broker.subscribe, List.mem_singleton.mp hnew]
  · refine List.nodup_append.mpr ⟨h.nodup, List.nodup_singleton _, ?_⟩
    rintro n hn m hm rfl
    have := h.known n hn
    rw [List.mem_singleton.mp hm] at this
    exact Nat.lt_irrefl _ this
  · obtain ⟨hnodup, hknown⟩ := h.copies c k hk ns hns
    refine ⟨hnodup, fun n hn => ?_⟩
    have := hknown n hn
    simp [Broker.subscribe]
    omega
  · have hgot : b.subscribe.got n c = b.got n c := by
      unfold Broker.got Broker.subscribe
      dsimp only
      rcases Nat.lt_trichotomy n b.boxes.length with hlt | rfl | hgt
      · rw [List.getElem?_append_left hlt]
      · rw [List.getElem?_append_right (Nat.le_refl _), List.getElem?_eq_none (Nat.le_refl _)]
        simp [Box.all]
      · rw [List.getElem?_eq_none (by simp; omega), List.getElem?_eq_none (Nat.le_of_lt hgt)]
    rw [hgot]
    exact h.settled n c

theorem unsubscribe (h : Sound b) (n : Nat) : Sound (b.unsubscribe n) where
  known := fun m hm => h.known m (List.mem_of_mem_erase hm)
  nodup := h.nodup.erase n
  fresh := h.fresh
  copies := h.copies
  settled := h.settled

theorem publish (h : Sound b) (m : M) : Sound (b.publish m) := by
  refine ⟨h.known, h.nodup, fun c k hk hnone => ?_, fun c k hk ns hns => ?_, fun n c => ?_⟩
  · rcases Broker.publish_cases hk with hold | rfl
    · exact h.fresh c k hold hnone
    · rfl
  · rcases Broker.publish_cases hk with hold | rfl
    · exact h.copies c k hold ns hns
    · cases hns
  · show b.got n c = _
    rw [h.settled n c]
    unfold Broker.owed Broker.publish
    dsimp only
    rcases Nat.lt_trichotomy c b.calls.length with hlt | rfl | hgt
    · rw [List.getElem?_append_left hlt]
    · rw [List.getElem?_append_right (Nat.le_refl _), List.getElem?_eq_none (Nat.le_refl _)]
      simp [Call.reached]
    · rw [List.getElem?_eq_none (Nat.le_of_lt hgt), List.getElem?_eq_none (by simp; omega)]

/-- The copy is made: nothing has been put yet. -/
theorem copy (h : Sound b) (c : Nat) : Sound (b.copy c) := by
  rcases Broker.copy_cases b c with he | ⟨k, hc, hcopied, he⟩
  · rw [he]
    exact h
  · rw [he]
    have hnext := h.fresh c k hc hcopied
    refine ⟨h.known, h.nodup, fun c' x hx hnone => ?_, fun c' x hx ns hns => ?_, fun n c' => ?_⟩
    · rcases Broker.set_cases hc hx with ⟨-, rfl⟩ | ⟨-, hold⟩
      · cases hnone
      · exact h.fresh c' x hold hnone
    · rcases Broker.set_cases hc hx with ⟨-, rfl⟩ | ⟨-, hold⟩
      · rw [← Option.some.inj hns]
        exact ⟨h.nodup, h.known⟩
      · exact h.copies c' x hold ns hns
    · show b.got n c' = _
      rw [h.settled n c']
      unfold Broker.owed
      dsimp only
      by_cases hcc : c' = c
      · rw [hcc, hc, List.getElem?_set_self (List.getElem?_eq_some_iff.mp hc).1]
        simp [Call.reached, hnext]
      · rw [List.getElem?_set_ne (Ne.symm hcc)]

theorem got_push {n₀ c : Nat} {i : Item M} (hn : n₀ < b.boxes.length) (n : Nat) (calls : List (Call M)) :
    ({ b with boxes := b.boxes.modify n₀ (Box.push i), calls := calls } : Broker M).got n c =
      b.got n c ++ if n = n₀ ∧ i.call = c then [i] else [] := by
  unfold Broker.got
  dsimp only
  rw [List.getElem?_modify]
  by_cases he : n₀ = n
  · subst he
    rw [List.getElem?_eq_getElem hn]
    by_cases hc : i.call = c
    · simp [hc]
    · simp [hc]
  · cases b.boxes[n]? <;> simp [he, Ne.symm he]

/-- The next queue of a copy is none of those before it. -/
theorem not_reached {ns : List Nat} {i n : Nat} (hnodup : ns.Nodup) (hn : ns[i]? = some n) : n ∉ ns.take i := by
  obtain ⟨hlt, hget⟩ := List.getElem?_eq_some_iff.mp hn
  intro hmem
  obtain ⟨j, hj, hj'⟩ := List.getElem_of_mem hmem
  have hji : j < i := lt_of_lt_of_le hj (List.length_take_le i ns)
  rw [List.getElem_take, ← hget] at hj'
  exact absurd ((List.Nodup.getElem_inj_iff hnodup).mp hj') (Nat.ne_of_lt hji)

/-- **One queue is filled**: the publication had not reached it. -/
theorem put (h : Sound b) (c : Nat) : Sound (b.put c) := by
  rcases Broker.put_cases b c with he | ⟨k, ns, n₀, hc, hns, hn, he⟩
  · rw [he]
    exact h
  · rw [he]
    obtain ⟨hnodup, hknown⟩ := h.copies c k hc ns hns
    have hbox : n₀ < b.boxes.length := hknown n₀ (List.mem_of_getElem? hn)
    have hlen : (b.boxes.modify n₀ (Box.push ⟨c, k.message⟩)).length = b.boxes.length := List.length_modify ..
    refine ⟨fun n hmem => (h.known n hmem).trans_eq hlen.symm, h.nodup, fun c' x hx hnone => ?_,
      fun c' x hx ns' hns' => ?_, fun n c' => ?_⟩
    · rcases Broker.set_cases hc hx with ⟨-, rfl⟩ | ⟨-, hold⟩
      · rw [show k.copied = none from hnone] at hns
        cases hns
      · exact h.fresh c' x hold hnone
    · have hcopies : ns'.Nodup ∧ ∀ n ∈ ns', n < b.boxes.length := by
        rcases Broker.set_cases hc hx with ⟨-, rfl⟩ | ⟨-, hold⟩
        · exact h.copies c k hc ns' hns'
        · exact h.copies c' x hold ns' hns'
      exact ⟨hcopies.1, fun n hmem => (hcopies.2 n hmem).trans_eq hlen.symm⟩
    · rw [got_push hbox, h.settled n c']
      unfold Broker.owed
      dsimp only
      by_cases hcc : c' = c
      · -- the copy has no queue twice, so this one was still owed
        have hnew := not_reached hnodup hn
        have hreached : ns.take (k.next + 1) = ns.take k.next ++ [n₀] := by
          rw [List.take_add_one, hn]
          rfl
        rw [hcc, hc, List.getElem?_set_self (List.getElem?_eq_some_iff.mp hc).1]
        simp only [Call.reached, hns, Option.getD_some, hreached, List.mem_append, List.mem_singleton, and_true]
        by_cases hnn : n = n₀
        · simp [hnn, hnew]
        · simp [hnn]
      · rw [List.getElem?_set_ne (Ne.symm hcc), if_neg fun hboth => hcc hboth.2.symm, List.append_nil]

theorem got_take (n m c : Nat) : (b.take n).got m c = b.got m c := by
  unfold Broker.got Broker.take
  dsimp only
  rw [List.getElem?_modify]
  cases b.boxes[m]? with
  | none => rfl
  | some box =>
      by_cases he : n = m
      · simp [he]
      · simp [he]

theorem take (h : Sound b) (n : Nat) : Sound (b.take n) := by
  have hlen : (b.boxes.modify n Box.pop).length = b.boxes.length := List.length_modify ..
  refine ⟨fun m hm => (h.known m hm).trans_eq hlen.symm, h.nodup, h.fresh, fun c k hk ns hns => ?_, fun m c => ?_⟩
  · obtain ⟨hnodup, hknown⟩ := h.copies c k hk ns hns
    exact ⟨hnodup, fun m hm => (hknown m hm).trans_eq hlen.symm⟩
  · exact (got_take n m c).trans (h.settled m c)

end Sound

/-! ## What later steps cannot undo -/

/-- `b'` is `b` some steps later: queues only get more, copies are made once and run through forwards. -/
structure Grows (b b' : Broker M) : Prop where
  boxes : ∀ (n : Nat) (box : Box M), b.boxes[n]? = some box →
    ∃ box' : Box M, b'.boxes[n]? = some box' ∧ box.all <+: box'.all
  calls : ∀ (c : Nat) (k : Call M), b.calls[c]? = some k → ∃ k' : Call M, b'.calls[c]? = some k' ∧
      k'.message = k.message ∧ k.next ≤ k'.next ∧ ∀ ns, k.copied = some ns → k'.copied = some ns

namespace Grows

variable {b b' b'' : Broker M}

theorem refl (b : Broker M) : Grows b b where
  boxes := fun _ box h => ⟨box, h, List.prefix_refl _⟩
  calls := fun _ k h => ⟨k, h, rfl, Nat.le_refl _, fun _ hns => hns⟩

theorem trans (h : Grows b b') (h' : Grows b' b'') : Grows b b'' where
  boxes := by
    intro n box hbox
    obtain ⟨box', hbox', hpre⟩ := h.boxes n box hbox
    obtain ⟨box'', hbox'', hpre'⟩ := h'.boxes n box' hbox'
    exact ⟨box'', hbox'', hpre.trans hpre'⟩
  calls := by
    intro c k hk
    obtain ⟨k', hk', hm, hn, hcopied⟩ := h.calls c k hk
    obtain ⟨k'', hk'', hm', hn', hcopied'⟩ := h'.calls c k' hk'
    exact ⟨k'', hk'', hm'.trans hm, hn.trans hn', fun ns hns => hcopied' ns (hcopied ns hns)⟩

/-- Only the calls change, one of them forwards. -/
theorem of_call {c : Nat} {k k' : Call M} {boxes : List (Box M)} (hc : b.calls[c]? = some k)
    (hm : k'.message = k.message) (hn : k.next ≤ k'.next) (hcopied : ∀ ns, k.copied = some ns → k'.copied = some ns)
    (hboxes : ∀ (n : Nat) (box : Box M), b.boxes[n]? = some box →
      ∃ box' : Box M, boxes[n]? = some box' ∧ box.all <+: box'.all) :
    Grows b { b with boxes := boxes, calls := b.calls.set c k' } where
  boxes := hboxes
  calls := by
    intro c' x hx
    show ∃ k'', (b.calls.set c k')[c']? = some k'' ∧ _
    by_cases he : c' = c
    · subst he
      rw [hc] at hx
      rw [← Option.some.inj hx, List.getElem?_set_self (List.getElem?_eq_some_iff.mp hc).1]
      exact ⟨k', rfl, hm, hn, hcopied⟩
    · rw [List.getElem?_set_ne (Ne.symm he)]
      exact ⟨x, hx, rfl, Nat.le_refl _, fun _ hns => hns⟩

/-- A queue that is changed keeps what it had. -/
theorem modify {f : Box M → Box M} (hf : ∀ box, box.all <+: (f box).all) (i n : Nat) {boxes : List (Box M)}
    {box : Box M} (h : boxes[n]? = some box) : ∃ box', (boxes.modify i f)[n]? = some box' ∧ box.all <+: box'.all := by
  rw [List.getElem?_modify, h]
  by_cases he : i = n
  · exact ⟨f box, by simp [he], hf box⟩
  · exact ⟨box, by simp [he], List.prefix_refl _⟩

theorem of_step (b : Broker M) (a : Act M) : Grows b (b.step a) := by
  cases a with
  | subscribe =>
      refine ⟨fun n box h => ⟨box, ?_, List.prefix_refl _⟩, (refl b).calls⟩
      exact (List.getElem?_append_left (List.getElem?_eq_some_iff.mp h).1).trans h
  | unsubscribe n => exact ⟨(refl b).boxes, (refl b).calls⟩
  | publish m =>
      refine ⟨(refl b).boxes, fun c k h => ⟨k, ?_, rfl, Nat.le_refl _, fun _ hns => hns⟩⟩
      exact (List.getElem?_append_left (List.getElem?_eq_some_iff.mp h).1).trans h
  | copy c =>
      show Grows b (b.copy c)
      rcases Broker.copy_cases b c with he | ⟨k, hc, hcopied, he⟩
      · rw [he]
        exact refl b
      · rw [he]
        refine of_call hc rfl (Nat.le_refl _) (fun ns hns => ?_) (refl b).boxes
        rw [hcopied] at hns
        cases hns
  | put c =>
      show Grows b (b.put c)
      rcases Broker.put_cases b c with he | ⟨k, ns, n, hc, hns, hn, he⟩
      · rw [he]
        exact refl b
      · rw [he]
        exact of_call hc rfl (Nat.le_succ _) (fun _ h => h) fun m box h =>
          modify (fun box => by rw [Box.all_push]; exact List.prefix_append _ _) n m h
  | take n =>
      refine ⟨fun m box h => ?_, (refl b).calls⟩
      exact modify (fun box => by rw [Box.all_pop]) n m h

end Grows

/-! ## What a publication reaches, and when -/

section Reach

variable {b b' : Broker M} {c : Nat} {k k' : Call M}

/-- Once it has returned, a publication has reached its whole copy. -/
theorem Call.Returned.reached {ns : List Nat} (h : k.Returned) (hns : k.copied = some ns) : k.reached = ns := by
  obtain ⟨ns', hns', hle⟩ := h
  rw [hns] at hns'
  obtain rfl := Option.some.inj hns'
  unfold Call.reached
  rw [hns, Option.getD_some, List.take_of_length_le hle]

theorem Call.unreached (h : k.copied = none) : k.reached = [] := by
  unfold Call.reached
  rw [h, Option.getD_none, List.take_nil]

/-- **A publication that has returned** put its message once into every queue of its copy, and nowhere else. -/
theorem Sound.got_returned (h : Sound b) (hc : b.calls[c]? = some k) {ns : List Nat} (hns : k.copied = some ns)
    (hret : k.Returned) (n : Nat) : b.got n c = if n ∈ ns then [⟨c, k.message⟩] else [] := by
  rw [h.settled, Broker.owed, hc]
  simp only [hret.reached hns]

/-- The messages of a publication in a queue, by their places. -/
theorem got_eq_nil {n : Nat} {box : Box M} (hbox : b.boxes[n]? = some box) (h : b.got n c = []) :
    ∀ i ∈ box.all, i.call ≠ c := by
  unfold Broker.got at h
  rw [hbox] at h
  intro i hi he
  have := List.filter_eq_nil_iff.mp h i hi
  simp [he] at this

/-- **Order.** If one publication has returned when another has not made its copy yet, then in every queue, at any
    later time, the message of the first stands before that of the second. -/
theorem in_order {c₁ c₂ : Nat} (h : Sound b) (h' : Sound b') (hgrows : Grows b b') (hc : b.calls[c₁]? = some k)
    (hret : k.Returned) (hnew : ∀ x, b.calls[c₂]? = some x → x.copied = none) {n : Nat} {box : Box M}
    (hbox : b'.boxes[n]? = some box) : ∃ before later, box.all = before ++ later ∧
      (∀ i ∈ before, i.call ≠ c₂) ∧ ∀ i ∈ later, i.call ≠ c₁ := by
  -- nothing of the first publication is put after `b`
  have hsame : b'.got n c₁ = b.got n c₁ := by
    obtain ⟨ns, hns, hle⟩ := hret
    obtain ⟨k', hk', hmsg, hnext, hcopied⟩ := hgrows.calls c₁ k hc
    rw [h.got_returned hc hns ⟨ns, hns, hle⟩, h'.got_returned hk' (hcopied ns hns) ⟨ns, hcopied ns hns,
      hle.trans hnext⟩, hmsg]
  have hunmade : b.got n c₂ = [] := by
    rw [h.settled, Broker.owed]
    cases hk : b.calls[c₂]? with
    | none => rfl
    | some x => simp [Call.unreached (hnew x hk)]
  cases hold : b.boxes[n]? with
  | none =>
      refine ⟨[], box.all, rfl, fun i hi => absurd hi List.not_mem_nil, got_eq_nil hbox ?_⟩
      rw [hsame, Broker.got, hold]
  | some box₀ =>
      obtain ⟨box', hbox', later, hall⟩ := hgrows.boxes n box₀ hold
      rw [hbox] at hbox'
      obtain rfl := Option.some.inj hbox'
      refine ⟨box₀.all, later, hall.symm, got_eq_nil hold hunmade, fun i hi he => ?_⟩
      have hfiltered : box.all.filter (fun i => i.call = c₁) = box₀.all.filter fun i => i.call = c₁ := by
        unfold Broker.got at hsame
        rw [hbox, hold] at hsame
        exact hsame
      rw [← hall, List.filter_append] at hfiltered
      have hnil : later.filter (fun i => i.call = c₁) = [] := List.append_right_eq_self.mp hfiltered
      have := List.filter_eq_nil_iff.mp hnil i hi
      simp [he] at this

end Reach

end Fanout
end Theory
