import SlrBooking.Domain.Values

/-!
# `Domain.BookingSm` — the booking status machine

The five legal status changes, and `apply`, which raises `IllegalTransition` on every other pair.
-/

namespace SlrBooking

inductive BookingEvent where
  | confirm | cancel | expire
deriving DecidableEq, Repr

def BookingEvent.value : BookingEvent → String
  | .confirm => "CONFIRM"
  | .cancel => "CANCEL"
  | .expire => "EXPIRE"

namespace BookingSm

/-- `_TRANSITIONS`. -/
def transitions : BookingStatus → BookingEvent → Option BookingStatus
  | .held, .confirm => some .confirmed
  | .held, .cancel => some .cancelled
  | .held, .expire => some .expired
  | .confirmed, .cancel => some .cancelled
  | .standing, .cancel => some .cancelled
  | _, _ => none

def canApply (current : BookingStatus) (event : BookingEvent) : Bool := (transitions current event).isSome

def apply (current : BookingStatus) (event : BookingEvent) : Except Err BookingStatus :=
  match transitions current event with
  | some target => .ok target
  | none => .error (.domain .illegalTransition s!"cannot {event.value} a {current.value} booking")

/-- One edge of the machine. -/
def Edge (a b : BookingStatus) : Prop := ∃ event, transitions a event = some b

theorem apply_ok {s t : BookingStatus} {e : BookingEvent} :
    apply s e = .ok t ↔ transitions s e = some t := by
  unfold apply
  cases h : transitions s e with
  | none => simp
  | some t' => simp

theorem apply_confirm {s t : BookingStatus} : apply s .confirm = .ok t ↔ s = .held ∧ t = .confirmed := by
  rw [apply_ok]
  cases s <;> simp [transitions, eq_comm]

theorem apply_cancel {s t : BookingStatus} (h : apply s .cancel = .ok t) : t = .cancelled := by
  rw [apply_ok] at h
  cases s <;> cases h <;> rfl

theorem edge_of_apply {s t : BookingStatus} {e : BookingEvent} (h : apply s e = .ok t) : Edge s t :=
  ⟨e, apply_ok.mp h⟩

theorem edge_iff {a b : BookingStatus} : Edge a b ↔
    (a = .held ∧ (b = .confirmed ∨ b = .cancelled ∨ b = .expired)) ∨
    (a = .confirmed ∧ b = .cancelled) ∨ (a = .standing ∧ b = .cancelled) := by
  constructor
  · rintro ⟨e, h⟩
    cases a <;> cases e <;> cases h <;> simp
  · rintro (⟨rfl, rfl | rfl | rfl⟩ | ⟨rfl, rfl⟩ | ⟨rfl, rfl⟩)
    · exact ⟨.confirm, rfl⟩
    · exact ⟨.cancel, rfl⟩
    · exact ⟨.expire, rfl⟩
    · exact ⟨.cancel, rfl⟩
    · exact ⟨.cancel, rfl⟩

instance (a b : BookingStatus) : Decidable (Edge a b) := decidable_of_iff _ edge_iff.symm

/-- **Cancelled and expired are terminal.** -/
theorem terminal {a b : BookingStatus} (h : Edge a b) : a ≠ .cancelled ∧ a ≠ .expired := by
  rcases edge_iff.mp h with ⟨rfl, -⟩ | ⟨rfl, -⟩ | ⟨rfl, -⟩ <;> simp

/-- **No edge re-activates a booking.** An active target is reached from an active status only. -/
theorem active_of_edge {a b : BookingStatus} (h : Edge a b) (hb : b.isActive = true) :
    a.isActive = true := by
  rcases edge_iff.mp h with ⟨rfl, -⟩ | ⟨rfl, rfl⟩ | ⟨rfl, rfl⟩
  · rfl
  · cases hb
  · cases hb

end BookingSm

end SlrBooking
