import NetSchema.Compile.Diagnostic
import NetSchema.Compile.Error

/-!
# Results with findings

An `Outcome` is a result or an error together with everything that was found on the way.  The
findings up to an error are kept.
-/

namespace NetSchema

/-- Something to be told beside the result. -/
inductive Finding where
  | note (r : LogRecord)
  | diagnostic (d : Diagnostic)
  deriving DecidableEq, Repr

namespace Finding

def diagnostic? : Finding → Option Diagnostic
  | note _ => none
  | diagnostic d => some d

/-- How the finding is logged. -/
def record : Finding → LogRecord
  | note r => r
  | diagnostic d => d.note

end Finding

structure Outcome (α : Type) where
  result : Except SchemaError α
  findings : List Finding := []

namespace Outcome

variable {α β : Type}

def pure (a : α) : Outcome α := ⟨.ok a, []⟩

/-- Goes on with a result; an error ends here. -/
def bind (o : Outcome α) (f : α → Outcome β) : Outcome β :=
  match o.result with
  | .ok a => ⟨(f a).result, o.findings ++ (f a).findings⟩
  | .error e => ⟨.error e, o.findings⟩

instance : Monad Outcome where
  pure := pure
  bind := bind

/-- A result without findings. -/
def ofExcept (r : Except SchemaError α) : Outcome α := ⟨r, []⟩

def notes (rs : List LogRecord) : Outcome Unit := ⟨.ok (), rs.map .note⟩

def diagnose (d : Diagnostic) : Outcome Unit := ⟨.ok (), [.diagnostic d]⟩

end Outcome

end NetSchema
