import NetSchema.Compile.SceneData

/-!
# Memo of compiled scenes

Which descriptors have been compiled, which are under way, and how many were parsed.
-/

namespace NetSchema

inductive MemoEntry where
  /-- Begun and not finished: meeting it again means a cycle. -/
  | pending
  | complete (d : SceneData)
  deriving DecidableEq, Repr

structure Memo where
  entries : OrderedMap String MemoEntry := {}
  /-- How many descriptors were parsed. -/
  parses : Nat := 0
  deriving DecidableEq, Repr

namespace Memo

def size (m : Memo) : Nat := m.entries.size

def isEmpty (m : Memo) : Bool := m.entries.isEmpty

def get? (m : Memo) (path : String) : Option MemoEntry := m.entries.get? path

def completed? (m : Memo) (path : String) : Option SceneData :=
  match m.get? path with
  | some (.complete d) => some d
  | _ => none

def isPending (m : Memo) (path : String) : Bool := m.get? path == some .pending

def begin (m : Memo) (path : String) : Memo := { m with entries := m.entries.insert path .pending }

def finish (m : Memo) (path : String) (d : SceneData) : Memo :=
  { m with entries := m.entries.insert path (.complete d) }

/-- Forgets a descriptor that is under way. -/
def abandon (m : Memo) (path : String) : Memo :=
  if m.isPending path then { m with entries := m.entries.erase path } else m

def countParse (m : Memo) : Memo := { m with parses := m.parses + 1 }

end Memo

end NetSchema
