import NetSchema.NodePath
import NetSchema.Compile.Member
import NetSchema.Scene.Descriptor

/-!
# Scenes under compilation

A draft is what a scene has collected so far.  It grows by the members of network nodes and by what
instanced scenes have collected, whose paths are placed below the instancing node and whose things
are numbered anew.
-/

namespace NetSchema

structure Draft where
  data : SceneData
  numbering : Numbering
  deriving DecidableEq, Repr

namespace Draft

/-- A draft of `scene` that has collected nothing. -/
def start (scene : String) (sceneId : Option SceneId) : Draft where
  data := { isNetworkScene := sceneId.isSome, sceneId }
  numbering := { scene }

/-- Gives the node at `nodePath` a static number.  Two network nodes never share a path. -/
def addStaticNode (d : Draft) (nodePath : String) : Except SchemaError Draft :=
  if d.data.hasStaticNode nodePath then
    .error (.duplicateNodePath d.numbering.scene nodePath)
  else do
    let (id, numbering) ← d.numbering.nextStaticNode nodePath
    return {
      data := { d.data with staticNodes := d.data.staticNodes ++ [(id, nodePath)] }
      numbering }

/-! ## Members of a node -/

/-- A note about the node at a site. -/
def nodeNote (site : Rules.Site) (text : String) : LogRecord :=
  ⟨.debug, .compiler, "`" ++ site.scene ++ "` [" ++ site.nodePath ++ "]: " ++ text⟩

/-- Adds properties in order.  The identity property stays off every node but the root. -/
def addProperties (r : Rules) (site : Rules.Site) (isRoot : Bool) :
    List AnnotatedProperty → Draft → Outcome Draft
  | [], d => return d
  | p :: ps, d =>
    if p.name = r.config.identityProperty ∧ ¬isRoot then do
      Outcome.notes [nodeNote site "identity property skipped off the root"]
      addProperties r site isRoot ps d
    else do
      let (entry, numbering) ← r.propertyEntry site p d.numbering
      addProperties r site isRoot ps ⟨d.data.addProperty entry, numbering⟩

/-- Adds functions in order. -/
def addFunctions (r : Rules) (site : Rules.Site) : List AnnotatedFunction → Draft → Outcome Draft
  | [], d => return d
  | f :: fs, d => do
    let (entry, numbering) ← r.functionEntry site f d.numbering
    addFunctions r site fs ⟨d.data.addFunction entry, numbering⟩

/-- Adds a network node of class `cls` with its annotated members. -/
def addNode (r : Rules) (n : SceneNode) (cls : String) (d : Draft) : Outcome Draft := do
  let site : Rules.Site := ⟨d.numbering.scene, n.path⟩
  let members := r.classes.annotatedMembers cls networkProperty networkFunction
  let d ← .ofExcept (d.addStaticNode n.path)
  Outcome.notes (r.classes.memberNotes cls networkProperty networkFunction)
  if members.isEmpty then
    Outcome.notes [nodeNote site ("`" ++ cls ++ "` has no network members")]
  let d ← addProperties r site n.isRoot members.properties d
  addFunctions r site members.functions d

/-! ## Instanced scenes -/

/-- Adds the static nodes of an instanced scene below `outer`. -/
def mergeStaticNodes (outer : String) : List (StaticNodeId × String) → Draft →
    Except SchemaError Draft
  | [], d => .ok d
  | (_, path) :: rest, d => do
    let d ← d.addStaticNode (NodePath.join outer path)
    mergeStaticNodes outer rest d

/-- Adds the properties of an instanced scene below `outer`. -/
def mergeProperties (outer : String) : List (String × PropertyEntry) → Draft →
    Except SchemaError Draft
  | [], d => .ok d
  | (path, p) :: rest, d => do
    let nodePath := NodePath.join outer path
    let (index, numbering) ← d.numbering.nextProperty nodePath p.name
    mergeProperties outer rest ⟨d.data.addProperty { p with nodePath, index }, numbering⟩

/-- Adds the functions of an instanced scene below `outer`. -/
def mergeFunctions (outer : String) : List (String × FunctionEntry) → Draft →
    Except SchemaError Draft
  | [], d => .ok d
  | (path, f) :: rest, d => do
    let nodePath := NodePath.join outer path
    let (index, numbering) ← d.numbering.nextFunction nodePath f.name
    mergeFunctions outer rest ⟨d.data.addFunction { f with nodePath, index }, numbering⟩

/-- Adds what an instanced scene has collected below `outer`, the node that instances it. -/
def merge (outer : String) (child : SceneData) (d : Draft) : Except SchemaError Draft := do
  let d ← mergeStaticNodes outer child.staticNodes d
  let d ← mergeProperties outer child.properties.toList d
  mergeFunctions outer child.functions.toList d

end Draft

end NetSchema
