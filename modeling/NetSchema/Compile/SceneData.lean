import NetSchema.ByteId
import NetSchema.OrderedMap
import NetSchema.Class.Mask
import NetSchema.Wire.Basic

/-!
# Compiled scenes

What a scene puts onto the network: its static nodes and, by node path and name, its properties and
functions.  All of them stand in the order in which they were found.
-/

namespace NetSchema

structure PropertyEntry where
  nodePath : String
  name : String
  wire : Wire
  index : PropertyIndex
  interestMask : InterestMask
  /-- The class that writes the value to the network, where one does. -/
  networkSerializer : Option String := none
  /-- The class that writes the value to storage, where one does. -/
  bsonSerializer : Option String := none
  deriving DecidableEq, Repr

structure FunctionEntry where
  nodePath : String
  name : String
  index : FunctionIndex
  /-- Types of the parameters, the calling peer left out. -/
  arguments : List Wire
  withPeer : Bool
  deriving DecidableEq, Repr

/-- Members by node path and name. -/
abbrev NodeMembers (α : Type) := OrderedMap String (OrderedMap String α)

namespace NodeMembers

variable {α : Type}

def member? (m : NodeMembers α) (nodePath name : String) : Option α :=
  m.get? nodePath >>= fun members => members.get? name

/-- Puts a member under its node. -/
def add (m : NodeMembers α) (nodePath name : String) (a : α) : NodeMembers α :=
  m.insert nodePath (((m.get? nodePath).getD {}).insert name a)

/-- All members with the paths of their nodes, in order. -/
def toList (m : NodeMembers α) : List (String × α) :=
  m.entries.flatMap fun (nodePath, members) => members.values.map fun a => (nodePath, a)

def count (m : NodeMembers α) : Nat := m.toList.length

end NodeMembers

structure SceneData where
  properties : NodeMembers PropertyEntry := {}
  functions : NodeMembers FunctionEntry := {}
  staticNodes : List (StaticNodeId × String) := []
  isNetworkScene : Bool := false
  /-- The number of a network scene. -/
  sceneId : Option SceneId := none
  deriving DecidableEq, Repr

namespace SceneData

def addProperty (d : SceneData) (p : PropertyEntry) : SceneData :=
  { d with properties := d.properties.add p.nodePath p.name p }

def addFunction (d : SceneData) (f : FunctionEntry) : SceneData :=
  { d with functions := d.functions.add f.nodePath f.name f }

def hasStaticNode (d : SceneData) (nodePath : String) : Bool :=
  d.staticNodes.any fun n => n.2 == nodePath

def property? (d : SceneData) (nodePath name : String) : Option PropertyEntry :=
  d.properties.member? nodePath name

def function? (d : SceneData) (nodePath name : String) : Option FunctionEntry :=
  d.functions.member? nodePath name

def propertyCount (d : SceneData) : Nat := d.properties.count
def functionCount (d : SceneData) : Nat := d.functions.count

/-- Nothing would be registered. -/
def isEmpty (d : SceneData) : Bool :=
  d.staticNodes.isEmpty && d.properties.isEmpty && d.functions.isEmpty

end SceneData

end NetSchema
