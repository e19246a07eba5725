import SymbolIndex.Session.Basic

/-!
# `SymbolIndex.Session.Handler` — work on a session that can be refused

A handler works on a session in place. It may end with an error, and then whatever it did before the
error stays done: nothing here takes a session back to where it was.

## Contents
- `Handler`, and its steps `check` and `peek`; the other steps are those of a state.
- One equivalence for each step that says when it succeeds: `bind_eq_ok` and its like.
-/

namespace SymbolIndex.Session

variable {σ α β : Type}

/-- Work on a session in place. -/
abbrev Handler (σ α : Type) := EStateM Error (Session σ) α

namespace Handler

/-- The value of a check, or the error that ends the work. -/
def check (x : Except Error α) : Handler σ α := fun s =>
  match x with
  | .ok a => .ok a s
  | .error err => .error err s

/-- Reads something off the session. -/
def peek (f : Session σ → α) : Handler σ α := fun s => .ok (f s) s

/-! ## When a step succeeds -/

variable {s s' : Session σ} {a : α} {b : β}

@[simp] theorem bind_eq_ok {x : Handler σ α} {f : α → Handler σ β} :
    (x >>= f) s = .ok b s' ↔ ∃ a t, x s = .ok a t ∧ f a t = .ok b s' := by
  simp only [bind, EStateM.bind]
  constructor
  · intro h
    cases ran : x s with
    | ok a t => exact ⟨a, t, rfl, by rwa [ran] at h⟩
    | error err t => rw [ran] at h; cases h
  · rintro ⟨a, t, ran, h⟩
    rw [ran]
    exact h

@[simp] theorem check_eq_ok {x : Except Error α} :
    (check x : Handler σ α) s = .ok a s' ↔ x = .ok a ∧ s = s' := by
  cases x <;> simp [check]

@[simp] theorem peek_eq_ok {f : Session σ → α} :
    (peek f : Handler σ α) s = .ok a s' ↔ f s = a ∧ s = s' := by
  simp [peek]

@[simp] theorem modify_eq_ok {f : Session σ → Session σ} {u : PUnit} :
    (modify f : Handler σ PUnit) s = .ok u s' ↔ f s = s' := by
  show EStateM.Result.ok PUnit.unit (f s) = .ok u s' ↔ _
  simp

end Handler

end SymbolIndex.Session
