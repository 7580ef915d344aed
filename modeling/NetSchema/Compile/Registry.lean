import NetSchema.Log
import NetSchema.Compile.Error
import NetSchema.Compile.SceneData

/-!
# The registry

All network scenes of a run with their numbers, and what each of them puts onto the network.  A
scene is numbered when it is first registered; its parts are recorded when it is compiled, the
empty ones left out.
-/

namespace NetSchema

structure Registry where
  scenes : List (SceneId × String) := []
  staticNodes : OrderedMap String (List (StaticNodeId × String)) := {}
  properties : OrderedMap String (NodeMembers PropertyEntry) := {}
  functions : OrderedMap String (NodeMembers FunctionEntry) := {}
  deriving DecidableEq, Repr

namespace Registry

def sceneCount (r : Registry) : Nat := r.scenes.length

def sceneId? (r : Registry) (path : String) : Option SceneId :=
  (r.scenes.find? fun s => s.2 == path).map Prod.fst

/-- The number of the scene at `path`, which is the next free one when it has none yet. -/
def register (r : Registry) (path : String) : Except SchemaError (SceneId × Registry) :=
  match r.sceneId? path with
  | some id => .ok (id, r)
  | none =>
    match ByteId.ofCount? .scene r.scenes.length with
    | some id => .ok (id, { r with scenes := r.scenes ++ [(id, path)] })
    | none => .error (.sceneCapacity path)

/-- A scene that gets a number is logged. -/
def registerNotes (r : Registry) (path : String) : List LogRecord :=
  match r.sceneId? path, ByteId.ofCount? .scene r.scenes.length with
  | none, some id =>
    [⟨.info, .registry, "registered network scene " ++ id.text ++ " `" ++ path ++ "`"⟩]
  | _, _ => []

/-- Takes over the parts of a compiled scene that are not empty. -/
def record (r : Registry) (path : String) (d : SceneData) : Registry :=
  { r with
    staticNodes := if d.staticNodes.isEmpty then r.staticNodes
      else r.staticNodes.insert path d.staticNodes
    properties := if d.properties.isEmpty then r.properties
      else r.properties.insert path d.properties
    functions := if d.functions.isEmpty then r.functions
      else r.functions.insert path d.functions }

def staticNodesOf (r : Registry) (path : String) : List (StaticNodeId × String) :=
  (r.staticNodes.get? path).getD []

def propertiesOf (r : Registry) (path : String) : NodeMembers PropertyEntry :=
  (r.properties.get? path).getD {}

def functionsOf (r : Registry) (path : String) : NodeMembers FunctionEntry :=
  (r.functions.get? path).getD {}

def property? (r : Registry) (path nodePath name : String) : Option PropertyEntry :=
  (r.propertiesOf path).member? nodePath name

def function? (r : Registry) (path nodePath name : String) : Option FunctionEntry :=
  (r.functionsOf path).member? nodePath name

end Registry

end NetSchema
