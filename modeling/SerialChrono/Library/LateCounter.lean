import Mathlib.Tactic.Common
import Mathlib.Tactic.Linarith

/-!
# A counter moved by orders of its next value

A counter is kept in one place and shown in another.  To raise it, the place that shows it orders
the value it shows plus one.  An order waits in a box that holds one message, is taken out, and
changes the counter when it arrives; the box refuses a message while another is waiting, and what
is shown is brought up to date only now and then.

Two presses that order the same value raise the counter once.  `State.InStep.foldl` counts the
presses that do raise it: those made while the box is empty and what is shown is the value the
counter is going to have.  The invariant is the chain
`shown ≤ value ≤ arriving ≤ due ≤ shown + 1`: orders overtake nothing, and are never more than one
ahead of what is shown.
-/

namespace LateCounter

/-- A message under way: an order of a value, or something about other things. -/
abbrev Message := Option ℤ

structure State where
  shown : ℤ
  value : ℤ
  /-- The message taken from the box that has not arrived yet. -/
  flight : Option Message
  /-- The message in the box. -/
  waiting : Option Message

inductive Event
  | press
  | other
  | take
  | handle
  | poll
  deriving DecidableEq

namespace State

/-- The value once the message taken has arrived. -/
def arriving (s : State) : ℤ := s.flight.join.getD s.value

/-- The value once both messages have arrived. -/
def due (s : State) : ℤ := s.waiting.join.getD s.arriving

/-- A message is put in the box, if that is empty. -/
def send (m : Message) (s : State) : State :=
  match s.waiting with
  | none => { s with waiting := some m }
  | some _ => s

/-- A press in this state raises the counter. -/
def Counts (s : State) : Prop := s.waiting = none ∧ s.arriving = s.shown

instance (s : State) : Decidable s.Counts := inferInstanceAs (Decidable (_ ∧ _))

/-- Orders follow what is shown and are at most one ahead. -/
structure InStep (s : State) : Prop where
  shown : s.shown ≤ s.value
  value : s.value ≤ s.arriving
  arriving : s.arriving ≤ s.due
  due : s.due ≤ s.shown + 1

end State

def step (s : State) : Event → State
  | .press => s.send (some (s.shown + 1))
  | .other => s.send none
  | .take =>
    match s.flight with
    | none => { s with flight := s.waiting, waiting := none }
    | some _ => s
  | .handle => { s with value := s.arriving, flight := none }
  | .poll => { s with shown := s.value }

/-- The presses that raise the counter. -/
def counted : State → List Event → ℕ
  | _, [] => 0
  | s, e :: es => (if e = .press ∧ s.Counts then 1 else 0) + counted (step s e) es

namespace State

variable {s : State}

/-- What one event does to the value the counter is going to have. -/
lemma InStep.step (h : s.InStep) (e : Event) :
    (step s e).InStep ∧ (step s e).due = s.due + if e = .press ∧ s.Counts then 1 else 0 := by
  obtain ⟨shown, value, flight, waiting⟩ := s
  obtain ⟨h1, h2, h3, h4⟩ := h
  cases e with
  | press =>
    cases waiting with
    | none =>
      -- the box is empty: the order is one ahead of what is shown, whatever is due
      have hle : State.arriving ⟨shown, value, flight, none⟩ ≤ shown + 1 := h4
      refine ⟨⟨h1, h2, hle, le_rfl⟩, ?_⟩
      change shown + 1 = State.arriving ⟨shown, value, flight, none⟩ + _
      have hge : shown ≤ State.arriving ⟨shown, value, flight, none⟩ := h1.trans h2
      split_ifs with hcounts
      · rw [hcounts.2.2]
      · have hne : State.arriving ⟨shown, value, flight, none⟩ ≠ shown := fun heq =>
          hcounts ⟨rfl, rfl, heq⟩
        omega
    | some m =>
      refine ⟨⟨h1, h2, h3, h4⟩, ?_⟩
      rw [if_neg fun hcounts => Option.some_ne_none m hcounts.2.1]
      exact (add_zero _).symm
  | other =>
    rw [if_neg (by simp), add_zero]
    cases waiting with
    | none => exact ⟨⟨h1, h2, h3, h4⟩, rfl⟩
    | some m => exact ⟨⟨h1, h2, h3, h4⟩, rfl⟩
  | take =>
    rw [if_neg (by simp), add_zero]
    cases flight with
    | none => exact ⟨⟨h1, h2.trans h3, le_rfl, h4⟩, rfl⟩
    | some m => exact ⟨⟨h1, h2, h3, h4⟩, rfl⟩
  | handle =>
    rw [if_neg (by simp), add_zero]
    exact ⟨⟨h1.trans h2, le_rfl, h3, h4⟩, rfl⟩
  | poll =>
    rw [if_neg (by simp), add_zero]
    exact ⟨⟨le_rfl, h2, h3, h4.trans (Int.add_le_add_right h1 1)⟩, rfl⟩

/-- Over any events, the value the counter is going to have grows by the presses counted. -/
lemma InStep.foldl (h : s.InStep) (events : List Event) :
    (events.foldl LateCounter.step s).InStep ∧
      (events.foldl LateCounter.step s).due = s.due + counted s events := by
  induction events generalizing s with
  | nil => exact ⟨h, (add_zero _).symm⟩
  | cons e events ih =>
    obtain ⟨hstep, hdue⟩ := h.step e
    obtain ⟨hfold, hcount⟩ := ih hstep
    refine ⟨hfold, ?_⟩
    rw [List.foldl_cons, hcount, hdue, counted]
    push_cast
    split_ifs <;> omega

end State

end LateCounter
