import LooseData.Fault

set_option autoImplicit false

/-! # Computations that keep a log

A `Logged` computation ends with a value or a fault and leaves the records that it wrote on
the way; records written before a fault are kept. What a computation returns does not depend
on records written earlier, so results can be reasoned about apart from the log.
-/

namespace LooseData

/-- How important a record is. Traces follow a computation step by step. -/
inductive Severity where
  | trace
  | debug
deriving DecidableEq

/-- One line of a log. -/
structure Record where
  severity : Severity
  message : String
deriving DecidableEq

/-- The line as it is shown: the severity and the message. -/
def Record.line (r : Record) : String :=
  (match r.severity with
    | .trace => "TRACE "
    | .debug => "DEBUG ") ++ r.message

/-- The outcome of a computation and its log. -/
structure Logged (α : Type) where
  result : Except Fault α
  records : List Record

namespace Logged

variable {α β : Type}

/-- The computation that ends with a fault. -/
def fail (fault : Fault) : Logged α := ⟨.error fault, []⟩

/-- The computation that has the given result and writes nothing. -/
def ofExcept (result : Except Fault α) : Logged α := ⟨result, []⟩

/-- Write one record. -/
def write (severity : Severity) (message : String) : Logged Unit :=
  ⟨.ok (), [⟨severity, message⟩]⟩

/-- Write a trace record. -/
def trace (message : String) : Logged Unit := write .trace message

/-- Write a debug record. -/
def debug (message : String) : Logged Unit := write .debug message

/-- Do `x`, then what `f` says about its value. -/
protected def bind (x : Logged α) (f : α → Logged β) : Logged β :=
  match x.result with
  | .error fault => ⟨.error fault, x.records⟩
  | .ok a =>
    let y := f a
    ⟨y.result, x.records ++ y.records⟩

instance : Monad Logged where
  pure a := ⟨.ok a, []⟩
  bind := Logged.bind

instance : MonadLift (Except Fault) Logged where
  monadLift := ofExcept

@[simp]
theorem result_pure (a : α) : (pure a : Logged α).result = .ok a := rfl

@[simp]
theorem result_fail (fault : Fault) : (fail fault : Logged α).result = .error fault := rfl

@[simp]
theorem result_write (severity : Severity) (message : String) :
    (write severity message).result = .ok () := rfl

/-- The result of a sequence is determined by the results of its parts. -/
theorem result_bind (x : Logged α) (f : α → Logged β) :
    (x >>= f).result = x.result.bind fun a => (f a).result := by
  change (Logged.bind x f).result = _
  unfold Logged.bind
  cases x.result <;> rfl

/-- Writing a record does not change the result of what follows. -/
@[simp]
theorem result_write_bind (severity : Severity) (message : String) (f : Unit → Logged β) :
    (write severity message >>= f).result = (f ()).result := rfl

end Logged

end LooseData
