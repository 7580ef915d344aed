import NetSchema.OrderedMap
import NetSchema.Scene.Token

/-!
# Values of fields

What a field of a scene can hold, and how a message shows it.
-/

namespace NetSchema

inductive SceneValue where
  | bool (b : Bool)
  | number (x : Binary)
  | vector2 (x y : Binary)
  | vector3 (x y z : Binary)
  | vector4 (x y z w : Binary)
  | string (s : String)
  | key (name : String)
  deriving DecidableEq, Repr

namespace SceneValue

def asString? : SceneValue → Option String
  | string s => some s
  | _ => none

def vectorText (xs : List Binary) : String :=
  "(" ++ String.intercalate ", " (xs.map (Binary.plainText binary32)) ++ ")"

/-- The value as a message shows it. -/
def text : SceneValue → String
  | bool true => "true"
  | bool false => "false"
  | number x => x.plainText binary32
  | vector2 x y => vectorText [x, y]
  | vector3 x y z => vectorText [x, y, z]
  | vector4 x y z w => vectorText [x, y, z, w]
  | string s => Text.quoted s
  | key name => name

end SceneValue

/-- Fields by name, in the order in which their names first stand. -/
abbrev SceneFields := OrderedMap String SceneValue

/-- The typed block of a node and the chain of blocks nested in it as their bases. -/
inductive TypedBlock where
  | leaf (type : String) (fields : SceneFields)
  | derived (type : String) (fields : SceneFields) (base : TypedBlock)
  deriving Repr

/-- The block called `type`, over its base if it has one. -/
def TypedBlock.ofBase (type : String) (fields : SceneFields) : Option TypedBlock → TypedBlock
  | none => .leaf type fields
  | some base => .derived type fields base

end NetSchema
