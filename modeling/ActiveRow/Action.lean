import ActiveRow.Fault

/-!
# Actions

An action works on a state and ends with a result or a fault. What it did to the state before a
fault stays done.
-/

namespace ActiveRow

abbrev Action (σ : Type) := ExceptT Fault (StateM σ)

namespace Action

variable {σ α : Type}

/-- Runs an action from a state. -/
def from_ (a : Action σ α) (s : σ) : Except Fault α × σ := (ExceptT.run a).run s

/-- The action that ends with this result. -/
def ofExcept (result : Except Fault α) : Action σ α := ExceptT.mk (pure result)

/-- Changes the state. -/
def update (f : σ → σ) : Action σ Unit := modify f

/-- Runs an action and hands over how it ended. -/
def attempt (a : Action σ α) : Action σ (Except Fault α) := ExceptT.mk (Except.ok <$> ExceptT.run a)

end Action

end ActiveRow
