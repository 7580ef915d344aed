import NetSchema.Compile.Error

/-!
# Numbering inside a scene

Properties, functions and static nodes of a scene, those of merged instances included, are numbered
in three sequences that start at zero.  A number beyond the limit of its kind is an error that names
the thing it was meant for.
-/

namespace NetSchema

/-- How many numbers of each kind a scene has given out. -/
structure Numbering where
  scene : String
  properties : Nat := 0
  functions : Nat := 0
  staticNodes : Nat := 0
  deriving DecidableEq, Repr

namespace Numbering

def nextProperty (n : Numbering) (nodePath member : String) :
    Except SchemaError (PropertyIndex × Numbering) :=
  match ByteId.ofCount? .property n.properties with
  | some i => .ok (i, { n with properties := n.properties + 1 })
  | none => .error (.propertyCapacity n.scene nodePath member)

def nextFunction (n : Numbering) (nodePath member : String) :
    Except SchemaError (FunctionIndex × Numbering) :=
  match ByteId.ofCount? .function n.functions with
  | some i => .ok (i, { n with functions := n.functions + 1 })
  | none => .error (.functionCapacity n.scene nodePath member)

def nextStaticNode (n : Numbering) (nodePath : String) :
    Except SchemaError (StaticNodeId × Numbering) :=
  match ByteId.ofCount? .staticNode n.staticNodes with
  | some i => .ok (i, { n with staticNodes := n.staticNodes + 1 })
  | none => .error (.staticNodeCapacity n.scene nodePath)

end Numbering

end NetSchema
