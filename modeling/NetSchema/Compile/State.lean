import NetSchema.Compile.Memo
import NetSchema.Compile.Outcome
import NetSchema.Compile.Registry

/-!
# State of a compiler

What a compiler holds: the memo, the registry, the diagnostics, the descriptors under way, and the
log of all that it did.
-/

namespace NetSchema

structure CompileState where
  memo : Memo := {}
  registry : Registry := {}
  diagnostics : List Diagnostic := []
  /-- The descriptors under way, outermost first. -/
  stack : List String := []
  log : List LogRecord := []
  deriving DecidableEq, Repr

namespace CompileState

def note (s : CompileState) (rs : List LogRecord) : CompileState := { s with log := s.log ++ rs }

/-- Takes note of findings: each is logged, and diagnostics are kept. -/
def absorb (s : CompileState) (findings : List Finding) : CompileState :=
  { s with
    diagnostics := s.diagnostics ++ findings.filterMap Finding.diagnostic?
    log := s.log ++ findings.map Finding.record }

/-- Marks a descriptor as under way and pushes it on the stack. -/
def begin (s : CompileState) (path : String) : CompileState :=
  { s with memo := s.memo.begin path, stack := s.stack ++ [path] }

def countParse (s : CompileState) : CompileState := { s with memo := s.memo.countParse }

def pop (s : CompileState) : CompileState := { s with stack := s.stack.dropLast }

/-- Takes a descriptor that has failed off the stack and forgets it. -/
def abandon (s : CompileState) (path : String) : CompileState :=
  { s.pop with memo := s.memo.abandon path }

/-- Takes a compiled scene off the stack and keeps it, and registers its parts if it is a network
scene. -/
def finish (s : CompileState) (path : String) (d : SceneData) : CompileState :=
  { s.pop with
    memo := s.memo.finish path d
    registry := if d.isNetworkScene then s.registry.record path d else s.registry }

/-- The number of a network scene, `none` for any other scene. -/
def number (s : CompileState) (path : String) (isNetworkScene : Bool) :
    Except SchemaError (Option SceneId) × CompileState :=
  if isNetworkScene then
    match s.registry.register path with
    | .ok (id, registry) =>
      (.ok (some id), { s.note (s.registry.registerNotes path) with registry })
    | .error e => (.error e, s)
  else (.ok none, s)

/-- What the stack holds from `path` on, and `path` again. -/
def chainTo (s : CompileState) (path : String) : List String :=
  s.stack.drop ((s.stack.idxOf? path).getD 0) ++ [path]

/-- Forgets everything but the log. -/
def reset (s : CompileState) : CompileState := { log := s.log }

end CompileState

end NetSchema
