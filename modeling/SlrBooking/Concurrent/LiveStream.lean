import SlrBooking.Theory.Fanout
import SlrBooking.Runs.Calls

/-!
# `Concurrent.LiveStream` — the live availability stream of a trip

The publisher is the broker of `Theory.Fanout`. `GET /trips/{id}/stream` subscribes and answers with a generator: a
first frame says it is connected, then it polls its queue, skips the events of other trips and sends a frame for each
of its own, until the client has gone or `limit` frames are sent. Whatever ends the generator, its `finally` withdraws
the subscription; a generator that was never started has no `finally` to run.

Publications, connections, polls and disconnections come in any order.

## Contents
- `Frame`, `Response`, `Hub`, `Turn`, `Hub.turn`.
- `Acted`: what a turn does to the broker. `Tells`, `HubSound`: the invariant; `hub_sound`.
- `event_reaches_open_streams`, `publications_in_order`, `stream_sends`: the run theorems.
-/

namespace SlrBooking
namespace LiveStream

open Theory Theory.Fanout

/-! ## The stream -/

/-- The data of an availability frame. -/
structure Payload where
  tripId    : String
  seatId    : String
  originSeq : Int
  destSeq   : Int
  status    : String
deriving DecidableEq

def payload (event : AvailabilityEvent) : Payload :=
  ⟨event.tripId, event.seatId, event.leg.originSeq, event.leg.destSeq, event.status.value⟩

inductive Frame where
  | connected
  | availability (data : Payload)
deriving DecidableEq

/-- How far the generator of a response has come. One dropped before its first step never runs. -/
inductive Phase where
  | opened | streaming | closed | dropped
deriving DecidableEq

/-- One streaming response; the `n`-th one drains the `n`-th queue. -/
structure Response where
  tripId : String
  limit  : Option Nat
  phase  : Phase := .opened
  sent   : Nat := 0
  frames : List Frame := []
deriving DecidableEq

/-- `limit is None or sent < limit`. -/
def Response.goesOn (r : Response) : Bool :=
  match r.limit with
  | none => true
  | some limit => r.sent < limit

def Response.send (r : Response) (frame : Frame) : Response :=
  { r with sent := r.sent + 1, frames := r.frames ++ [frame] }

/-- The publisher and the responses that are being streamed. -/
structure Hub where
  broker    : Broker AvailabilityEvent := {}
  responses : List Response := []
deriving DecidableEq

/-- Who acts: a client connecting; the generator of a response, told whether its client has gone; the server dropping
    a generator; a use-case beginning to publish, and its publication copying the list and filling a queue. -/
inductive Turn where
  | connect (tripId : String) (limit : Option Nat)
  | resume (n : Nat) (disconnected : Bool)
  | drop (n : Nat)
  | publish (event : AvailabilityEvent)
  | copy (c : Nat)
  | put (c : Nat)

namespace Hub

/-- The route refuses a limit below one. -/
def connect (tripId : String) (limit : Option Nat) (h : Hub) : Hub :=
  if limit.all fun l => 1 ≤ l then
    { broker := h.broker.subscribe, responses := h.responses ++ [{ tripId := tripId, limit := limit }] }
  else h

/-- The `finally` of the generator. -/
def close (n : Nat) (r : Response) (h : Hub) : Hub :=
  { broker := h.broker.unsubscribe n, responses := h.responses.set n { r with phase := .closed } }

/-- The oldest event in the queue of response `n`. -/
def oldest (n : Nat) (h : Hub) : Option (Item AvailabilityEvent) := h.broker.boxes[n]?.bind fun box => box.waiting.head?

/-- The generator goes on to its next `yield`, sleep or end. -/
def resume (n : Nat) (disconnected : Bool) (h : Hub) : Hub :=
  match h.responses[n]? with
  | none => h
  | some r =>
    match r.phase with
    | .opened => { h with responses := h.responses.set n { r.send .connected with phase := .streaming } }
    | .streaming =>
      if !r.goesOn || disconnected then h.close n r
      else
        match h.oldest n with
        | none => h
        | some item =>
          if item.message.tripId = r.tripId then
            { broker := h.broker.take n
              responses := h.responses.set n (r.send (.availability (payload item.message))) }
          else { h with broker := h.broker.take n }
    | .closed | .dropped => h

def drop (n : Nat) (h : Hub) : Hub :=
  match h.responses[n]? with
  | none => h
  | some r =>
    match r.phase with
    | .opened => { h with responses := h.responses.set n { r with phase := .dropped } }
    | .streaming => h.close n r
    | .closed | .dropped => h

def turn (h : Hub) : Turn → Hub
  | .connect tripId limit => h.connect tripId limit
  | .resume n disconnected => h.resume n disconnected
  | .drop n => h.drop n
  | .publish event => { h with broker := h.broker.publish event }
  | .copy c => { h with broker := h.broker.copy c }
  | .put c => { h with broker := h.broker.put c }

def after (h : Hub) (turns : List Turn) : Hub := turns.foldl turn h

/-- Response `n` has not ended. -/
def IsOpen (h : Hub) (n : Nat) : Prop := ∃ r, h.responses[n]? = some r ∧ r.phase ≠ .closed

/-- What a resumed generator can do. -/
theorem resume_cases (n : Nat) (disconnected : Bool) (h : Hub) :
    h.resume n disconnected = h ∨ ∃ r, h.responses[n]? = some r ∧
      ((r.phase = .opened ∧
          h.resume n disconnected =
            { h with responses := h.responses.set n { r.send .connected with phase := .streaming } }) ∨
        (r.phase = .streaming ∧ h.resume n disconnected = h.close n r) ∨
        (r.phase = .streaming ∧ r.goesOn = true ∧ disconnected = false ∧ ∃ item, h.oldest n = some item ∧
          ((item.message.tripId = r.tripId ∧ h.resume n disconnected =
              { broker := h.broker.take n
                responses := h.responses.set n (r.send (.availability (payload item.message))) }) ∨
            (item.message.tripId ≠ r.tripId ∧ h.resume n disconnected = { h with broker := h.broker.take n })))) := by
  unfold resume
  cases hr : h.responses[n]? with
  | none => exact Or.inl rfl
  | some r =>
      dsimp only
      cases hphase : r.phase with
      | opened => exact Or.inr ⟨r, rfl, Or.inl ⟨hphase, rfl⟩⟩
      | closed => exact Or.inl rfl
      | dropped => exact Or.inl rfl
      | streaming =>
          dsimp only
          by_cases hend : (!r.goesOn || disconnected) = true
          · rw [if_pos hend]
            exact Or.inr ⟨r, rfl, Or.inr (Or.inl ⟨hphase, rfl⟩)⟩
          · rw [if_neg hend]
            obtain ⟨hgoes, hconnected⟩ : r.goesOn = true ∧ disconnected = false := by simpa using hend
            cases hold : h.oldest n with
            | none => exact Or.inl rfl
            | some item =>
                dsimp only
                by_cases hmine : item.message.tripId = r.tripId
                · rw [if_pos hmine]
                  exact Or.inr ⟨r, rfl, Or.inr (Or.inr ⟨hphase, hgoes, hconnected, item, rfl, Or.inl ⟨hmine, rfl⟩⟩)⟩
                · rw [if_neg hmine]
                  exact Or.inr ⟨r, rfl, Or.inr (Or.inr ⟨hphase, hgoes, hconnected, item, rfl, Or.inr ⟨hmine, rfl⟩⟩)⟩

theorem drop_cases (n : Nat) (h : Hub) : h.drop n = h ∨ ∃ r, h.responses[n]? = some r ∧
    ((r.phase = .opened ∧ h.drop n = { h with responses := h.responses.set n { r with phase := .dropped } }) ∨
      (r.phase = .streaming ∧ h.drop n = h.close n r)) := by
  unfold drop
  cases hr : h.responses[n]? with
  | none => exact Or.inl rfl
  | some r =>
      dsimp only
      cases hphase : r.phase with
      | opened => exact Or.inr ⟨r, rfl, Or.inl ⟨hphase, rfl⟩⟩
      | streaming => exact Or.inr ⟨r, rfl, Or.inr ⟨hphase, rfl⟩⟩
      | closed => exact Or.inl rfl
      | dropped => exact Or.inl rfl

theorem after_append (h : Hub) (xs ys : List Turn) : h.after (xs ++ ys) = (h.after xs).after ys := List.foldl_append

end Hub

/-! ## The invariant -/

/-- The frames for the events a generator has taken out of its queue. -/
def Response.shown (r : Response) (items : List (Item AvailabilityEvent)) : List Frame :=
  .connected :: (items.filter fun i => i.message.tripId = r.tripId).map fun i => .availability (payload i.message)

/-- The generator has had its first step. -/
def Response.started (r : Response) : Prop := r.phase = .streaming ∨ r.phase = .closed

instance (r : Response) : Decidable r.started := inferInstanceAs (Decidable (_ ∨ _))

/-- What a response has sent, given what it has taken. -/
structure Tells (r : Response) (items : List (Item AvailabilityEvent)) : Prop where
  frames : r.started → r.frames = r.shown items
  silent : ¬ r.started → r.frames = [] ∧ items = []
  sent   : r.sent = r.frames.length
  within : ∀ l, r.limit = some l → 1 ≤ l ∧ r.sent ≤ l

structure HubSound (h : Hub) : Prop where
  broker  : Sound h.broker
  sized   : h.responses.length = h.broker.boxes.length
  open_iff : ∀ (n : Nat) (r : Response), h.responses[n]? = some r → (n ∈ h.broker.subscribers ↔ r.phase ≠ .closed)
  tells   : ∀ (n : Nat) (r : Response), h.responses[n]? = some r →
    ∃ items, h.broker.taken n = some items ∧ Tells r items

theorem hubSound_empty : HubSound {} where
  broker := sound_empty
  sized := rfl
  open_iff := fun n r h => by simp at h
  tells := fun n r h => by simp at h

section Tells

variable {r : Response} {items : List (Item AvailabilityEvent)}

theorem Tells.start (h : Tells r items) (hphase : r.phase = .opened) :
    Tells { r.send .connected with phase := .streaming } items := by
  have hnot : ¬ r.started := by simp [Response.started, hphase]
  obtain ⟨hframes, hitems⟩ := h.silent hnot
  have hsent : r.sent = 0 := by rw [h.sent, hframes]; rfl
  refine ⟨fun _ => ?_, fun hno => absurd (Or.inl rfl) hno, ?_, fun l hl => ?_⟩
  · simp [Response.send, Response.shown, hframes, hitems]
  · simp [Response.send, hframes, hsent]
  · have hlimit := (h.within l hl).1
    exact ⟨hlimit, by simp only [Response.send, hsent]; omega⟩

theorem Tells.close (h : Tells r items) (hphase : r.phase = .streaming) : Tells { r with phase := .closed } items :=
  ⟨fun _ => h.frames (Or.inl hphase), fun hno => absurd (Or.inr rfl) hno, h.sent, h.within⟩

theorem Tells.drop (h : Tells r items) (hphase : r.phase = .opened) : Tells { r with phase := .dropped } items := by
  have hnot : ¬ r.started := by simp [Response.started, hphase]
  exact ⟨fun hs => by simp [Response.started] at hs, fun _ => h.silent hnot, h.sent, h.within⟩

/-- An event of the trip becomes a frame, while the limit allows it. -/
theorem Tells.mine (h : Tells r items) (hphase : r.phase = .streaming) (hgoes : r.goesOn = true)
    {i : Item AvailabilityEvent} (hmine : i.message.tripId = r.tripId) :
    Tells (r.send (.availability (payload i.message))) (items ++ [i]) := by
  refine ⟨fun _ => ?_, fun hno => absurd (Or.inl hphase) hno, ?_, fun l hl => ?_⟩
  · simp [Response.send, Response.shown, h.frames (Or.inl hphase), hmine]
  · simp [Response.send, h.sent]
  · refine ⟨(h.within l hl).1, ?_⟩
    unfold Response.goesOn at hgoes
    rw [show r.limit = some l from hl] at hgoes
    simpa [Response.send] using hgoes

/-- An event of another trip is taken and skipped. -/
theorem Tells.other (h : Tells r items) (hphase : r.phase = .streaming) {i : Item AvailabilityEvent}
    (hother : i.message.tripId ≠ r.tripId) : Tells r (items ++ [i]) := by
  refine ⟨fun hs => ?_, fun hno => absurd (Or.inl hphase) hno, h.sent, h.within⟩
  rw [h.frames hs]
  simp [Response.shown, hother]

end Tells

namespace HubSound

variable {hub : Hub}

/-! ### Each turn

A turn moves the broker and no generator, or one generator and the queue that is its own. -/

/-- The broker moves and no generator does. -/
theorem moved (h : HubSound hub) {b : Broker AvailabilityEvent} (hb : Sound b)
    (hlen : b.boxes.length = hub.broker.boxes.length) (hsubs : b.subscribers = hub.broker.subscribers)
    (htaken : ∀ n, b.taken n = hub.broker.taken n) : HubSound { hub with broker := b } where
  broker := hb
  sized := h.sized.trans hlen.symm
  open_iff := by
    intro n r hr
    rw [hsubs]
    exact h.open_iff n r hr
  tells := by
    intro n r hr
    rw [htaken n]
    exact h.tells n r hr

/-- One generator moves, and what it does to the broker concerns its own queue only. -/
theorem resumed (h : HubSound hub) {n : Nat} {r q : Response} (hr : hub.responses[n]? = some r)
    {b : Broker AvailabilityEvent} (hb : Sound b) (hlen : b.boxes.length = hub.broker.boxes.length)
    (hsubs : ∀ m, m ≠ n → (m ∈ b.subscribers ↔ m ∈ hub.broker.subscribers))
    (htaken : ∀ m, m ≠ n → b.taken m = hub.broker.taken m) (hopen : n ∈ b.subscribers ↔ q.phase ≠ .closed)
    (htells : ∃ items, b.taken n = some items ∧ Tells q items) : HubSound ⟨b, hub.responses.set n q⟩ where
  broker := hb
  sized := by
    rw [List.length_set, hlen]
    exact h.sized
  open_iff := by
    intro m x hx
    by_cases hm : m = n
    · subst hm
      rw [List.getElem?_set_self (List.getElem?_eq_some_iff.mp hr).1] at hx
      rw [← Option.some.inj hx]
      exact hopen
    · rw [List.getElem?_set_ne (Ne.symm hm)] at hx
      exact (hsubs m hm).trans (h.open_iff m x hx)
  tells := by
    intro m x hx
    by_cases hm : m = n
    · subst hm
      rw [List.getElem?_set_self (List.getElem?_eq_some_iff.mp hr).1] at hx
      rw [← Option.some.inj hx]
      exact htells
    · rw [List.getElem?_set_ne (Ne.symm hm)] at hx
      rw [htaken m hm]
      exact h.tells m x hx

theorem connect (h : HubSound hub) (tripId : String) (limit : Option Nat) : HubSound (hub.connect tripId limit) := by
  unfold Hub.connect
  by_cases hlimit : (limit.all fun l => 1 ≤ l) = true
  · rw [if_pos hlimit]
    -- the new response is the last, and so is its queue
    have hcases : ∀ {n : Nat} {r : Response},
        (hub.responses ++ [{ tripId := tripId, limit := limit }])[n]? = some r →
        hub.responses[n]? = some r ∨ (n = hub.broker.boxes.length ∧ r = { tripId := tripId, limit := limit }) := by
      intro n r hr
      rcases Nat.lt_or_ge n hub.responses.length with hlt | hge
      · exact Or.inl ((List.getElem?_append_left hlt).symm.trans hr)
      · obtain ⟨hn, -⟩ := List.getElem?_eq_some_iff.mp hr
        rw [List.length_append, List.length_singleton] at hn
        rw [List.getElem?_append_right hge] at hr
        exact Or.inr ⟨by rw [← h.sized]; omega, List.mem_singleton.mp (List.mem_of_getElem? hr)⟩
    have hold : ∀ {n : Nat} {r : Response}, hub.responses[n]? = some r → n < hub.broker.boxes.length := fun hr =>
      (List.getElem?_eq_some_iff.mp hr).1.trans_eq h.sized
    refine ⟨h.broker.subscribe, ?_, fun n r hr => ?_, fun n r hr => ?_⟩
    · simp [Broker.subscribe, h.sized]
    · rcases hcases hr with hr | ⟨rfl, rfl⟩
      · rw [← h.open_iff n r hr]
        simp [Broker.subscribe, Nat.ne_of_lt (hold hr)]
      · simp [Broker.subscribe]
    · rcases hcases hr with hr | ⟨rfl, rfl⟩
      · rw [Broker.taken_subscribe _ (hold hr)]
        exact h.tells n r hr
      · refine ⟨[], Broker.taken_subscribe_new _, fun hs => ?_, fun _ => ⟨rfl, rfl⟩, rfl, fun l hl => ?_⟩
        · simp [Response.started] at hs
        · rw [show limit = some l from hl] at hlimit
          exact ⟨by simpa using hlimit, Nat.zero_le l⟩
  · rw [if_neg hlimit]
    exact h

theorem closes (h : HubSound hub) {n : Nat} {r : Response} (hr : hub.responses[n]? = some r)
    (hphase : r.phase = .streaming) : HubSound (hub.close n r) := by
  obtain ⟨items, hitems, htells⟩ := h.tells n r hr
  refine h.resumed hr (h.broker.unsubscribe n) rfl (fun m hm => ?_) (fun _ _ => rfl) ?_
    ⟨items, hitems, htells.close hphase⟩
  · exact List.mem_erase_of_ne hm
  · have hgone : n ∉ hub.broker.subscribers.erase n := fun hmem => (h.broker.nodup.mem_erase_iff.mp hmem).1 rfl
    exact iff_of_false hgone (by simp)

theorem resume (h : HubSound hub) (n : Nat) (disconnected : Bool) : HubSound (hub.resume n disconnected) := by
  rcases hub.resume_cases n disconnected with he | ⟨r, hr, hcase⟩
  · rw [he]
    exact h
  obtain ⟨items, hitems, htells⟩ := h.tells n r hr
  have hopen := h.open_iff n r hr
  rcases hcase with ⟨hphase, he⟩ | ⟨hphase, he⟩ | ⟨hphase, hgoes, -, item, hold, hcase⟩
  · rw [he]
    refine h.resumed hr h.broker rfl (fun _ _ => Iff.rfl) (fun _ _ => rfl) ?_ ⟨items, hitems, htells.start hphase⟩
    rw [hopen, hphase]
    simp
  · rw [he]
    exact h.closes hr hphase
  · have htaken : (hub.broker.take n).taken n = some (items ++ [item]) := by
      rw [Broker.taken_take _ hold, hitems]
      rfl
    have hlen : (hub.broker.take n).boxes.length = hub.broker.boxes.length := List.length_modify ..
    rcases hcase with ⟨hmine, he⟩ | ⟨hother, he⟩
    · rw [he]
      exact h.resumed hr (h.broker.take n) hlen (fun _ _ => Iff.rfl)
        (fun m hm => Broker.taken_take_ne _ (Ne.symm hm)) hopen ⟨_, htaken, htells.mine hphase hgoes hmine⟩
    · rw [he]
      have hnext := h.resumed hr (q := r) (h.broker.take n) hlen (fun _ _ => Iff.rfl)
        (fun m hm => Broker.taken_take_ne _ (Ne.symm hm)) hopen ⟨_, htaken, htells.other hphase hother⟩
      have hself : hub.responses.set n r = hub.responses := by
        obtain ⟨hlt, hget⟩ := List.getElem?_eq_some_iff.mp hr
        rw [← hget, List.set_getElem_self]
      rwa [hself] at hnext

theorem drop (h : HubSound hub) (n : Nat) : HubSound (hub.drop n) := by
  rcases hub.drop_cases n with he | ⟨r, hr, ⟨hphase, he⟩ | ⟨hphase, he⟩⟩
  · rw [he]
    exact h
  · rw [he]
    obtain ⟨items, hitems, htells⟩ := h.tells n r hr
    refine h.resumed hr h.broker rfl (fun _ _ => Iff.rfl) (fun _ _ => rfl) ?_ ⟨items, hitems, htells.drop hphase⟩
    rw [h.open_iff n r hr, hphase]
    simp
  · rw [he]
    exact h.closes hr hphase

/-- What a response has sent, by its queue. -/
theorem tells_box (h : HubSound hub) {n : Nat} {r : Response} {box : Box AvailabilityEvent}
    (hr : hub.responses[n]? = some r) (hbox : hub.broker.boxes[n]? = some box) : Tells r box.taken := by
  obtain ⟨items, hitems, htells⟩ := h.tells n r hr
  unfold Broker.taken at hitems
  rw [hbox] at hitems
  rwa [← Option.some.inj hitems] at htells

/-- **Step lemma.** -/
theorem turn (h : HubSound hub) (t : Turn) : HubSound (hub.turn t) := by
  cases t with
  | connect tripId limit => exact h.connect tripId limit
  | resume n disconnected => exact h.resume n disconnected
  | drop n => exact h.drop n
  | publish event => exact h.moved (h.broker.publish event) rfl rfl fun _ => rfl
  | copy c =>
      exact h.moved (h.broker.copy c) (congrArg List.length (Broker.boxes_copy _ c)) (Broker.subscribers_copy _ c)
        (Broker.taken_copy _ c)
  | put c =>
      exact h.moved (h.broker.put c) (Broker.length_boxes_put _ c) (Broker.subscribers_put _ c) (Broker.taken_put _ c)

end HubSound

/-- **Run lemma.** -/
theorem hub_sound (turns : List Turn) : HubSound (Hub.after {} turns) := by
  induction turns using List.reverseRecOn with
  | nil => exact hubSound_empty
  | append_singleton turns t ih =>
      rw [Hub.after_append]
      exact ih.turn t

/-! ## Runs -/

/-- A turn never takes anything back. -/
theorem turn_grows (hub : Hub) (t : Turn) : Grows hub.broker (hub.turn t).broker := by
  have hclose : ∀ n r, Grows hub.broker (hub.close n r).broker := fun n _ => Grows.of_step _ (.unsubscribe n)
  cases t with
  | connect tripId limit =>
      show Grows _ (hub.connect tripId limit).broker
      unfold Hub.connect
      split
      · exact Grows.of_step _ .subscribe
      · exact Grows.refl _
  | resume n disconnected =>
      show Grows _ (hub.resume n disconnected).broker
      rcases hub.resume_cases n disconnected with
        he | ⟨r, -, ⟨-, he⟩ | ⟨-, he⟩ | ⟨-, -, -, item, -, ⟨-, he⟩ | ⟨-, he⟩⟩⟩
      · rw [he]
        exact Grows.refl _
      · rw [he]
        exact Grows.refl _
      · rw [he]
        exact hclose n r
      · rw [he]
        exact Grows.of_step _ (.take n)
      · rw [he]
        exact Grows.of_step _ (.take n)
  | drop n =>
      show Grows _ (hub.drop n).broker
      rcases hub.drop_cases n with he | ⟨r, -, ⟨-, he⟩ | ⟨-, he⟩⟩
      · rw [he]
        exact Grows.refl _
      · rw [he]
        exact Grows.refl _
      · rw [he]
        exact hclose n r
  | publish event => exact Grows.of_step _ (.publish event)
  | copy c => exact Grows.of_step _ (.copy c)
  | put c => exact Grows.of_step _ (.put c)

theorem after_grows (hub : Hub) (turns : List Turn) : Grows hub.broker (hub.after turns).broker := by
  induction turns generalizing hub with
  | nil => exact Grows.refl _
  | cons t turns ih => exact (turn_grows hub t).trans (ih (hub.turn t))

/-- The subscribers are the responses that have not ended. -/
theorem HubSound.mem_subscribers {hub : Hub} (h : HubSound hub) (n : Nat) :
    n ∈ hub.broker.subscribers ↔ hub.IsOpen n := by
  constructor
  · intro hn
    have hlt : n < hub.responses.length := (h.broker.known n hn).trans_eq h.sized.symm
    exact ⟨hub.responses[n], List.getElem?_eq_getElem hlt,
      (h.open_iff n _ (List.getElem?_eq_getElem hlt)).mp hn⟩
  · rintro ⟨r, hr, hopen⟩
    exact (h.open_iff n r hr).mpr hopen

instance (hub : Hub) (n : Nat) : Decidable (hub.IsOpen n) :=
  match h : hub.responses[n]? with
  | some r => decidable_of_iff (r.phase ≠ .closed)
      ⟨fun hne => ⟨r, h, hne⟩, fun ⟨_, hr, hne⟩ => Option.some.inj (h.symm.trans hr) ▸ hne⟩
  | none => .isFalse fun ⟨_, hr, _⟩ => by
      rw [h] at hr
      cases hr

/-! ## Every publication -/

/-- **Every event reaches the streams that are open, once.** A publication copies the subscriber list at some moment
    of a run. When it has returned, every response that had not ended at that moment has had its event put into its
    queue exactly once, and no other response ever gets it, whoever connects, polls, leaves or publishes meanwhile. -/
theorem event_reaches_open_streams (before later : List Turn) (c : Nat) (k k' : Fanout.Call AvailabilityEvent)
    (hbegun : (Hub.after {} before).broker.calls[c]? = some k) (hnew : k.copied = none)
    (hcall : (Hub.after {} (before ++ .copy c :: later)).broker.calls[c]? = some k') (hret : k'.Returned)
    (n : Nat) (box : Box AvailabilityEvent)
    (hbox : (Hub.after {} (before ++ .copy c :: later)).broker.boxes[n]? = some box) :
    box.all.filter (fun i => i.call = c) = if (Hub.after {} before).IsOpen n then [⟨c, k.message⟩] else [] := by
  have hsound := hub_sound before
  have hend := hub_sound (before ++ .copy c :: later)
  rw [Hub.after_append] at hend hcall hbox
  -- the copy is the list of the open responses, and it is kept to the end
  have hcopy : ((Hub.after {} before).turn (.copy c)).broker.calls[c]? =
      some { k with copied := some (Hub.after {} before).broker.subscribers } := by
    show ((Hub.after {} before).broker.copy c).calls[c]? = _
    rcases Broker.copy_cases (Hub.after {} before).broker c with he | ⟨x, hx, -, he⟩
    · exfalso
      unfold Broker.copy at he
      rw [hbegun] at he
      simp only [hnew] at he
      have hset := congrArg (fun b => (b.calls[c]?).map (·.copied)) he
      simp only [hbegun, List.getElem?_set_self (List.getElem?_eq_some_iff.mp hbegun).1] at hset
      simp [hnew] at hset
    · rw [hbegun] at hx
      obtain rfl := Option.some.inj hx
      rw [he, List.getElem?_set_self (List.getElem?_eq_some_iff.mp hbegun).1]
  obtain ⟨x, hx, hmsg, -, hcopied⟩ := (after_grows _ later).calls c _ hcopy
  rw [show ((Hub.after {} before).after (.copy c :: later)).broker.calls[c]? = some x from hx] at hcall
  obtain rfl := Option.some.inj hcall
  have hgot := hend.broker.got_returned hx (hcopied _ rfl) hret n
  unfold Broker.got at hgot
  rw [hbox] at hgot
  refine hgot.trans ?_
  rw [hmsg]
  simp only [hsound.mem_subscribers]

def heldEvent : AvailabilityEvent := ⟨"slow", "A1", firstHop, .held⟩

def soldEvent : AvailabilityEvent := ⟨"slow", "A1", firstHop, .confirmed⟩

/-- One client is there when the list is copied; another connects before the event is put. -/
theorem event_reaches_open_streams_sample :
    ([⟨0, heldEvent⟩] : List (Item AvailabilityEvent)) =
      if (Hub.after {} [.connect "slow" none, .publish heldEvent]).IsOpen 0 then [⟨0, heldEvent⟩] else [] :=
  event_reaches_open_streams [.connect "slow" none, .publish heldEvent] [.connect "slow" none, .put 0] 0
    { message := heldEvent } { message := heldEvent, copied := some [0], next := 1 } (by decide) rfl (by decide)
    ⟨[0], rfl, by decide⟩ 0 ⟨[⟨0, heldEvent⟩], []⟩ (by decide)

/-- **Publications keep their order.** If one publication has returned before another copies the subscriber list,
    the event of the first stands before that of the second in every stream, at any later time. -/
theorem publications_in_order (turns later : List Turn) (c₁ c₂ : Nat) (k : Fanout.Call AvailabilityEvent)
    (hcall : (Hub.after {} turns).broker.calls[c₁]? = some k) (hret : k.Returned)
    (hnew : ∀ x, (Hub.after {} turns).broker.calls[c₂]? = some x → x.copied = none) (n : Nat)
    (box : Box AvailabilityEvent) (hbox : (Hub.after {} (turns ++ later)).broker.boxes[n]? = some box) :
    ∃ front back, box.all = front ++ back ∧ (∀ i ∈ front, i.call ≠ c₂) ∧ ∀ i ∈ back, i.call ≠ c₁ := by
  have hend := hub_sound (turns ++ later)
  rw [Hub.after_append] at hend hbox
  exact in_order (hub_sound turns).broker hend.broker (after_grows _ later) hcall hret hnew hbox

theorem publications_in_order_sample : ∃ front back : List (Item AvailabilityEvent),
    [⟨0, heldEvent⟩, ⟨1, soldEvent⟩] = front ++ back ∧ (∀ i ∈ front, i.call ≠ 1) ∧ ∀ i ∈ back, i.call ≠ 0 :=
  publications_in_order [.connect "slow" none, .publish heldEvent, .copy 0, .publish soldEvent, .put 0]
    [.copy 1, .put 1] 0 1 { message := heldEvent, copied := some [0], next := 1 } (by decide) ⟨[0], rfl, by decide⟩
    (fun x hx => by
      rw [show x = { message := soldEvent } from (Option.some.inj hx).symm])
    0 ⟨[⟨0, heldEvent⟩, ⟨1, soldEvent⟩], []⟩ (by decide)

/-! ## Reading a stream to its end -/

/-- At most `limit` frames. -/
def Response.capped (r : Response) (frames : List Frame) : List Frame :=
  match r.limit with
  | none => frames
  | some limit => frames.take limit

theorem shown_append (r : Response) (xs ys : List (Item AvailabilityEvent)) :
    ∃ more, r.shown (xs ++ ys) = r.shown xs ++ more :=
  ⟨_, by simp only [Response.shown, List.filter_append, List.map_append, List.cons_append]; rfl⟩

theorem Tells.capped {r : Response} {items : List (Item AvailabilityEvent)} (h : Tells r items) :
    r.capped r.frames = r.frames := by
  unfold Response.capped
  cases hlimit : r.limit with
  | none => rfl
  | some l =>
      have hwithin := (h.within l hlimit).2
      rw [h.sent] at hwithin
      exact List.take_of_length_le hwithin

/-- Out of allowance: nothing that is still to come would be sent. -/
theorem Tells.spent {r : Response} {items : List (Item AvailabilityEvent)} (h : Tells r items) (hs : r.started)
    (hgoes : r.goesOn = false) (more : List (Item AvailabilityEvent)) :
    r.capped (r.shown (items ++ more)) = r.frames := by
  unfold Response.goesOn at hgoes
  unfold Response.capped
  cases hlimit : r.limit with
  | none =>
      rw [hlimit] at hgoes
      cases hgoes
  | some l =>
      rw [hlimit] at hgoes
      have hwithin := (h.within l hlimit).2
      have hfull : l = r.frames.length := by
        simp only [decide_eq_false_iff_not, Nat.not_lt] at hgoes
        rw [h.sent] at hgoes hwithin
        omega
      obtain ⟨rest, hrest⟩ := shown_append r items more
      dsimp only
      rw [hrest, ← h.frames hs, hfull, List.take_left]

theorem resume_closed {hub : Hub} {n : Nat} {r : Response} (hr : hub.responses[n]? = some r)
    (hphase : r.phase = .closed) : ∀ k, hub.after (List.replicate k (.resume n false)) = hub := by
  intro k
  induction k with
  | zero => rfl
  | succ k ih =>
      have hone : hub.turn (.resume n false) = hub := by
        show hub.resume n false = hub
        unfold Hub.resume
        rw [hr]
        simp only [hphase]
      show (hub.turn (.resume n false)).after _ = hub
      rw [hone, ih]

/-- **Draining.** A client that stays and polls as often as events are waiting has been sent them all, up to the
    limit. The induction is on the polls; each takes one event or ends the stream. -/
theorem drained {hub : Hub} (h : HubSound hub) {n : Nat} {r : Response} {box : Box AvailabilityEvent} {k : Nat}
    (hr : hub.responses[n]? = some r) (hbox : hub.broker.boxes[n]? = some box) (hphase : r.phase = .streaming)
    (hk : box.waiting.length ≤ k) : ∃ r', (hub.after (List.replicate k (.resume n false))).responses[n]? = some r' ∧
      r'.frames = r.capped (r.shown box.all) := by
  induction k generalizing hub r box with
  | zero =>
      have htells := h.tells_box hr hbox
      have hempty : box.waiting = [] := List.eq_nil_of_length_eq_zero (Nat.le_zero.mp hk)
      refine ⟨r, hr, ?_⟩
      rw [Box.all, hempty, List.append_nil, ← htells.frames (Or.inl hphase), htells.capped]
  | succ k ih =>
      have htells := h.tells_box hr hbox
      have hlt := (List.getElem?_eq_some_iff.mp hr).1
      have hnext := h.turn (.resume n false)
      show ∃ r', ((hub.resume n false).after _).responses[n]? = some r' ∧ _
      change HubSound (hub.resume n false) at hnext
      by_cases hgoes : r.goesOn = true
      · cases hwaiting : box.waiting with
        | nil =>
            -- nothing to send: the generator sleeps
            have hsame : hub.resume n false = hub := by
              simp [Hub.resume, hr, hphase, hgoes, Hub.oldest, hbox, hwaiting]
            rw [hsame]
            exact ih h hr hbox hphase (by rw [hwaiting]; exact Nat.zero_le k)
        | cons item rest =>
            have hpop : (hub.broker.take n).boxes[n]? = some ⟨rest, box.taken ++ [item]⟩ := by
              simp [Broker.take, hbox, Box.pop, hwaiting]
            have hall : (⟨rest, box.taken ++ [item]⟩ : Box AvailabilityEvent).all = box.all := by
              simp [Box.all, hwaiting]
            have hrest : rest.length ≤ k := by
              rw [hwaiting] at hk
              exact Nat.le_of_succ_le_succ hk
            by_cases hmine : item.message.tripId = r.tripId
            · have he : hub.resume n false =
                  ⟨hub.broker.take n, hub.responses.set n (r.send (.availability (payload item.message)))⟩ := by
                simp [Hub.resume, hr, hphase, hgoes, Hub.oldest, hbox, hwaiting, hmine]
              rw [he] at hnext ⊢
              obtain ⟨r', hr', hframes⟩ := ih hnext (List.getElem?_set_self hlt) hpop hphase hrest
              exact ⟨r', hr', by rw [hframes, hall]; rfl⟩
            · have he : hub.resume n false = { hub with broker := hub.broker.take n } := by
                simp [Hub.resume, hr, hphase, hgoes, Hub.oldest, hbox, hwaiting, hmine]
              rw [he] at hnext ⊢
              obtain ⟨r', hr', hframes⟩ := ih hnext hr hpop hphase hrest
              exact ⟨r', hr', by rw [hframes, hall]⟩
      · have hspent : r.goesOn = false := by simpa using hgoes
        have he : hub.resume n false = hub.close n r := by simp [Hub.resume, hr, hphase, hspent]
        have hclosed : (hub.close n r).responses[n]? = some { r with phase := .closed } := List.getElem?_set_self hlt
        rw [he, resume_closed hclosed rfl]
        exact ⟨_, hclosed, (htells.spent (Or.inl hphase) hspent box.waiting).symm⟩

/-- **What a client is sent.** At any time of any run a started response has sent the connected frame and then a
    frame for each event of its trip that it has taken out of its queue, in that order and no other; never more than
    its limit; and it is subscribed until its generator ends. A client that stays and polls as often as events are
    waiting has then been sent all of them, up to the limit. -/
theorem stream_sends (turns : List Turn) (n : Nat) (r : Response) (box : Box AvailabilityEvent)
    (hr : (Hub.after {} turns).responses[n]? = some r) (hbox : (Hub.after {} turns).broker.boxes[n]? = some box) :
    (r.frames = if r.started then r.shown box.taken else []) ∧ (∀ l, r.limit = some l → r.frames.length ≤ l) ∧
      (n ∈ (Hub.after {} turns).broker.subscribers ↔ r.phase ≠ .closed) ∧
      (r.phase = .streaming → ∀ k, box.waiting.length ≤ k →
        ∃ r', (Hub.after {} (turns ++ List.replicate k (.resume n false))).responses[n]? = some r' ∧
          r'.frames = r.capped (r.shown box.all)) := by
  have h := hub_sound turns
  have htells := h.tells_box hr hbox
  refine ⟨?_, fun l hl => htells.sent ▸ (htells.within l hl).2, h.open_iff n r hr, fun hphase k hk => ?_⟩
  · split
    · exact htells.frames ‹_›
    · exact (htells.silent ‹_›).1
  · rw [Hub.after_append]
    exact drained h hr hbox hphase hk

/-- A stream of two frames: the second event stays in the queue. -/
theorem stream_sends_sample :
    let r : Response := ⟨"slow", some 2, .streaming, 2, [.connected, .availability (payload heldEvent)]⟩
    r.frames = if r.started then r.shown [⟨0, heldEvent⟩] else [] :=
  (stream_sends [.connect "slow" (some 2), .publish heldEvent, .publish soldEvent, .copy 0, .copy 1, .put 0, .put 1,
    .resume 0 false, .resume 0 false] 0 ⟨"slow", some 2, .streaming, 2, [.connected, .availability (payload heldEvent)]⟩
    ⟨[⟨1, soldEvent⟩], [⟨0, heldEvent⟩]⟩ (by decide) (by decide)).1

end LiveStream
end SlrBooking
