import LooseData.Logged

set_option autoImplicit false

/-! # Computations that change a state

An `Edit σ` changes a state of type `σ` step by step, keeps a log, and ends with a value or a
fault. What was changed before a fault stays changed.
-/

namespace LooseData

/-- A computation that changes a state. -/
def Edit (σ α : Type) : Type := σ → Logged α × σ

namespace Edit

variable {σ α β : Type}

/-- Do `x`, then what `f` says about its value. -/
protected def bind (x : Edit σ α) (f : α → Edit σ β) : Edit σ β := fun s =>
  let (first, s) := x s
  match first.result with
  | .error fault => (⟨.error fault, first.records⟩, s)
  | .ok a =>
    let (second, s) := f a s
    (⟨second.result, first.records ++ second.records⟩, s)

instance : Monad (Edit σ) where
  pure a := fun s => (pure a, s)
  bind := Edit.bind

/-- A computation that leaves the state alone. -/
def ofLogged (x : Logged α) : Edit σ α := fun s => (x, s)

instance : MonadLift Logged (Edit σ) where
  monadLift := ofLogged

instance : MonadLift (Except Fault) (Edit σ) where
  monadLift x := ofLogged (.ofExcept x)

instance : MonadStateOf σ (Edit σ) where
  get := fun s => (pure s, s)
  set s := fun _ => (pure (), s)
  modifyGet f := fun s =>
    let (a, s) := f s
    (pure a, s)

/-- The computation that ends with a fault. -/
def fail (fault : Fault) : Edit σ α := ofLogged (.fail fault)

/-- Replace the state. -/
def become (s : σ) : Edit σ Unit := set s

/-- What a computation ends with in the given state, its log, and the state afterwards. -/
def run (x : Edit σ α) (s : σ) : Logged α × σ := x s

end Edit

end LooseData
