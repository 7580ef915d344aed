import NetSchema.NodePath
import NetSchema.Unvisited
import NetSchema.Scene.File

/-!
# Scene descriptors

A descriptor is a tree of named nodes: one root, and for every other node a parent.  `ofBlocks`
builds it from node blocks whose parents are keys.  It checks that keys and paths do not repeat and
that every chain of parents ends at the root, and it keeps the order of the blocks.
-/

namespace NetSchema

/-- A node of a scene.  `parent` is the path of its parent, `none` for the root alone. -/
structure SceneNode where
  key : String
  name : String
  parent : Option String
  properties : SceneFields := {}
  instance? : Option String := none
  data : Option TypedBlock := none
  deriving Repr

namespace SceneNode

def isRoot (n : SceneNode) : Bool := n.parent.isNone

/-- The script that gives the node its class. -/
def script? (n : SceneNode) : Option String := n.properties.get? "script" >>= SceneValue.asString?

def path (n : SceneNode) : String := NodePath.child n.parent n.name

end SceneNode

structure Descriptor where
  root : String
  nodes : List SceneNode
  deriving Repr

namespace Descriptor

def node? (d : Descriptor) (key : String) : Option SceneNode := d.nodes.find? fun n => n.key = key

def rootNode? (d : Descriptor) : Option SceneNode := d.node? d.root

end Descriptor

/-! ## From blocks to a tree -/

def findBlock? (blocks : List NodeBlock) (key : String) : Option NodeBlock :=
  blocks.find? fun b => b.key = key

/-- The first key that an earlier block has too. -/
def repeatedKey? : (seen : List String) → List NodeBlock → Option String
  | _, [] => none
  | seen, b :: bs => if b.key ∈ seen then some b.key else repeatedKey? (b.key :: seen) bs

/-- The root key: the given one, which must name a block, or else the first without a parent. -/
def chooseRoot (root : Option String) (blocks : List NodeBlock) : Except SceneError String :=
  match root with
  | some key => if (findBlock? blocks key).isSome then .ok key else .error (.missingRoot key)
  | none =>
    match blocks.find? fun b => b.parent.isNone with
    | some b => .ok b.key
    | none => .error .noRoot

theorem key_mem_of_findBlock? {blocks : List NodeBlock} {key : String} {b : NodeBlock}
    (h : findBlock? blocks key = some b) : key ∈ blocks.map NodeBlock.key := by
  have hk : b.key = key := by simpa using List.find?_some h
  exact hk ▸ List.mem_map_of_mem (List.mem_of_find?_eq_some h)

/-- The blocks from below the root down to the one called `key`, which is the parent of `child`.
`seen` holds the keys that were passed on the way up. -/
def lineage (blocks : List NodeBlock) (root child : String) (seen : List String) (key : String) :
    Except SceneError (List NodeBlock) :=
  if key = root then .ok []
  else
    match hb : findBlock? blocks key with
    | none => .error (.unknownParent child key)
    | some b =>
      if hs : key ∈ seen then .error (.parentCycle key)
      else
        match b.parent with
        | none => .error (.orphanNode key)
        | some parent =>
          have := unvisited_cons_lt (key_mem_of_findBlock? hb) hs
          match lineage blocks root key (key :: seen) parent with
          | .ok above => .ok (above ++ [b])
          | .error e => .error e
termination_by unvisited (blocks.map NodeBlock.key) seen

/-- The path that leads through the blocks, one below the other, from the root. -/
def pathOf (line : List NodeBlock) : String :=
  line.foldl (fun path b => NodePath.child (some path) b.displayName) NodePath.root

/-- Gives each block its place in the tree. -/
def placeNode (blocks : List NodeBlock) (root : String) (b : NodeBlock) :
    Except SceneError SceneNode := do
  let line ← lineage blocks root b.key [] b.key
  return {
    key := b.key
    name := b.displayName
    parent := if b.key = root then none else some (pathOf line.dropLast)
    properties := b.properties
    instance? := b.instance?
    data := b.data }

/-- The first node whose path an earlier node has too, as a complaint. -/
def repeatedPath? : (seen : List SceneNode) → List SceneNode → Option SceneError
  | _, [] => none
  | seen, n :: ns =>
    match seen.find? fun m => m.path = n.path with
    | some m => some (.duplicatePath n.path m.key n.key)
    | none => repeatedPath? (seen ++ [n]) ns

namespace Descriptor

/-- The tree that node blocks describe. -/
def ofBlocks (root : Option String) (blocks : List NodeBlock) : Except SceneError Descriptor := do
  match repeatedKey? [] blocks with
  | some key => throw (.duplicateKey key)
  | none => pure ()
  let root ← chooseRoot root blocks
  let nodes ← blocks.mapM (placeNode blocks root)
  match repeatedPath? [] nodes with
  | some e => throw e
  | none => return ⟨root, nodes⟩

/-- The descriptor that a scene text writes. -/
def parse (text : String) : Except SceneError Descriptor := do
  let (root, blocks) ← (TokenStream.ofText text).blocks
  ofBlocks root blocks

end Descriptor

end NetSchema
