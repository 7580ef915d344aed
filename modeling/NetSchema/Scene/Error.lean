import NetSchema.Text.Quoted

/-!
# What can be wrong with a scene

One constructor for each fault of a scene text, from a bad token to parents that form a cycle, and
the message that reports it.
-/

namespace NetSchema

inductive SceneError where
  | unexpected (line : Nat) (expected found : String)
  | invalidNumber (line : Nat) (text : String)
  | unterminatedString (line : Nat)
  | unknownVariable (line : Nat) (name : String)
  | invalidVector (line count : Nat)
  | mismatchedClose (line : Nat) (opened closed : String)
  | invalidField (line : Nat) (field expected : String)
  | duplicateKey (key : String)
  | missingRoot (key : String)
  | noRoot
  | parentCycle (key : String)
  | orphanNode (key : String)
  | unknownParent (node parent : String)
  | duplicatePath (path first second : String)
  deriving DecidableEq, Repr

namespace SceneError

def atLine (line : Nat) (text : String) : String := "line " ++ toString line ++ ": " ++ text

def message : SceneError → String
  | unexpected line expected found => atLine line ("expected " ++ expected ++ ", got " ++ found)
  | invalidNumber line text => atLine line ("invalid number `" ++ text ++ "`")
  | unterminatedString line => atLine line "unterminated string literal"
  | unknownVariable line name => atLine line ("unknown variable @" ++ name)
  | invalidVector line count =>
    atLine line ("vector literal must have 2, 3 or 4 components, got " ++ toString count)
  | mismatchedClose line opened closed =>
    atLine line ("block `[" ++ opened ++ "]` closed by `[/" ++ closed ++ "]`")
  | invalidField line field expected =>
    atLine line ("field `" ++ field ++ "` must be " ++ expected)
  | duplicateKey key => "duplicate node key `" ++ key ++ "`"
  | missingRoot key => "scene root `" ++ key ++ "` not found in node list"
  | noRoot => "scene has no root node"
  | parentCycle key => "node `" ++ key ++ "` is part of a parent cycle"
  | orphanNode key => "node `" ++ key ++ "` has no parent and is not the scene root"
  | unknownParent node parent =>
    "node `" ++ node ++ "` references unknown parent `" ++ parent ++ "`"
  | duplicatePath path first second =>
    "nodes `" ++ first ++ "` and `" ++ second ++ "` both resolve to path `" ++ path ++ "`"

end SceneError

end NetSchema
