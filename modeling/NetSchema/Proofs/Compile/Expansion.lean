import NetSchema.Compile.Member
import NetSchema.Proofs.Compile.Instances

/-!
# Plain expansion

What a scene should put onto the network, told without memo, state or numbering on the way: the
network nodes of a descriptor in order, with those of plain instances in the place of the instancing
node, and from them the members of each node.

* `ExpandsTo.unique`, `Expansion.unique`: a scene has one expansion;
* `exists_expandsTo`: the nodes of a descriptor have one if the scenes that they instance have.
-/

namespace NetSchema

/-- A network node as a scene sees it. `isRoot` is set for the root of its own descriptor. -/
structure NetworkNode where
  path : String
  cls : String
  isRoot : Bool
  deriving DecidableEq, Repr

/-- The node as the scene sees it that instances its scene at `outer`. -/
def NetworkNode.below (outer : String) (n : NetworkNode) : NetworkNode :=
  { n with path := NodePath.join outer n.path }

namespace Compiler

variable {c : Compiler}

/-! ## Expansions -/

/-- `ExpandsTo c nodes ns`: the nodes of a descriptor stand for the network nodes `ns`. -/
inductive ExpandsTo (c : Compiler) : List SceneNode → List NetworkNode → Prop
  | nil : ExpandsTo c [] []
  | network {n rest cls ns} : c.rules.networkClass? n = some cls → ExpandsTo c rest ns →
      ExpandsTo c (n :: rest) (⟨n.path, cls, n.isRoot⟩ :: ns)
  | bare {n rest ns} : c.rules.networkClass? n = none → n.instance? = none →
      ExpandsTo c rest ns → ExpandsTo c (n :: rest) ns
  | boundary {n rest inst d ns} : c.rules.networkClass? n = none → n.instance? = some inst →
      c.descriptor? inst = some d → c.isNetwork d = true → ExpandsTo c rest ns →
      ExpandsTo c (n :: rest) ns
  | merged {n rest inst d ms ns} : c.rules.networkClass? n = none → n.instance? = some inst →
      c.descriptor? inst = some d → c.isNetwork d = false → ExpandsTo c d.nodes ms →
      ExpandsTo c rest ns → ExpandsTo c (n :: rest) (ms.map (NetworkNode.below n.path) ++ ns)

/-- The scene at `path` stands for the network nodes `ns`. -/
def Expansion (c : Compiler) (path : String) (ns : List NetworkNode) : Prop :=
  ∃ d, c.descriptor? path = some d ∧ c.ExpandsTo d.nodes ns

theorem ExpandsTo.append {nodes rest : List SceneNode} {ns ms : List NetworkNode}
    (h : c.ExpandsTo nodes ns) (h' : c.ExpandsTo rest ms) :
    c.ExpandsTo (nodes ++ rest) (ns ++ ms) := by
  induction h with
  | nil => exact h'
  | network hn _ ih => exact .network hn ih
  | bare hn hi _ ih => exact .bare hn hi ih
  | boundary hn hi hd hnet _ ih => exact .boundary hn hi hd hnet ih
  | merged hn hi hd hnet hms _ _ ih =>
    rw [List.append_assoc]
    exact .merged hn hi hd hnet hms ih

/-- The expansion of more nodes goes on where that of the first nodes ends. -/
theorem ExpandsTo.split {nodes rest : List SceneNode} {ms : List NetworkNode}
    (h : c.ExpandsTo (nodes ++ rest) ms) :
    ∃ ns ms', c.ExpandsTo nodes ns ∧ ms = ns ++ ms' := by
  induction nodes generalizing ms with
  | nil => exact ⟨[], ms, .nil, rfl⟩
  | cons n nodes ih =>
    cases h with
    | network hn hr =>
      obtain ⟨ns, ms', hns, rfl⟩ := ih hr
      exact ⟨_, ms', .network hn hns, rfl⟩
    | bare hn hi hr =>
      obtain ⟨ns, ms', hns, rfl⟩ := ih hr
      exact ⟨ns, ms', .bare hn hi hns, rfl⟩
    | boundary hn hi hd hnet hr =>
      obtain ⟨ns, ms', hns, rfl⟩ := ih hr
      exact ⟨ns, ms', .boundary hn hi hd hnet hns, rfl⟩
    | merged hn hi hd hnet hm hr =>
      obtain ⟨ns, ms', hns, rfl⟩ := ih hr
      exact ⟨_, ms', .merged hn hi hd hnet hm hns, (List.append_assoc ..).symm⟩

theorem ExpandsTo.unique {nodes : List SceneNode} {ns ns' : List NetworkNode}
    (h : c.ExpandsTo nodes ns) (h' : c.ExpandsTo nodes ns') : ns = ns' := by
  induction h generalizing ns' with
  | nil =>
    cases h'
    rfl
  | network hn _ ih =>
    cases h' with
    | network hn' hr =>
      obtain rfl := Option.some.inj (hn.symm.trans hn')
      rw [ih hr]
    | _ => simp_all
  | bare hn hi _ ih =>
    cases h' with
    | bare _ _ hr => exact ih hr
    | _ => simp_all
  | boundary hn hi hd hnet _ ih =>
    cases h' with
    | boundary _ _ _ _ hr => exact ih hr
    | _ => simp_all
  | merged hn hi hd hnet _ _ ihd ih =>
    cases h' with
    | merged _ hi' hd' _ hm hr =>
      obtain rfl := Option.some.inj (hi.symm.trans hi')
      obtain rfl := Option.some.inj (hd.symm.trans hd')
      rw [ihd hm, ih hr]
    | _ => simp_all

/-- What the first nodes stand for comes first. -/
theorem ExpandsTo.prefix_of {seen nodes : List SceneNode} {ns all : List NetworkNode}
    (h : c.ExpandsTo seen ns) (hseen : seen <+: nodes) (hall : c.ExpandsTo nodes all) :
    ns <+: all := by
  obtain ⟨rest, rfl⟩ := hseen
  obtain ⟨ns', ms, hns', rfl⟩ := hall.split
  obtain rfl := h.unique hns'
  exact List.prefix_append ns ms

/-- A scene has one expansion. -/
theorem Expansion.unique {path : String} {ns ns' : List NetworkNode} (h : c.Expansion path ns)
    (h' : c.Expansion path ns') : ns = ns' := by
  obtain ⟨d, hd, he⟩ := h
  obtain ⟨d', hd', he'⟩ := h'
  obtain rfl := Option.some.inj (hd.symm.trans hd')
  exact he.unique he'

/-- Nodes can be expanded when the scenes that they instance can. -/
theorem exists_expandsTo {nodes : List SceneNode}
    (h : ∀ n ∈ nodes, ∀ inst, c.Follows n inst → ∃ ns, c.Expansion inst ns) :
    ∃ ns, c.ExpandsTo nodes ns := by
  induction nodes with
  | nil => exact ⟨[], .nil⟩
  | cons n rest ih =>
    obtain ⟨ns, hns⟩ := ih (fun m hm => h m (List.mem_cons_of_mem _ hm))
    cases hn : c.rules.networkClass? n with
    | some cls => exact ⟨_, .network hn hns⟩
    | none =>
      cases hi : n.instance? with
      | none => exact ⟨ns, .bare hn hi hns⟩
      | some inst =>
        obtain ⟨ms, d, hd, hms⟩ := h n (List.mem_cons_self ..) inst ⟨hn, hi⟩
        cases hnet : c.isNetwork d with
        | true => exact ⟨ns, .boundary hn hi hd hnet hns⟩
        | false => exact ⟨_, .merged hn hi hd hnet hms hns⟩

end Compiler

/-! ## Members of network nodes -/

namespace Rules

/-- The subtype that a property asks for, where it exists. -/
def askedSubtype (p : AnnotatedProperty) : Option WireSubtype :=
  match subtypeOverride p.attributes with
  | .ok subtype => subtype
  | .error _ => none

def propertyWire (r : Rules) (p : AnnotatedProperty) : Wire :=
  (classify p.type (askedSubtype p) r.config.classifier).wire

/-- The entry of property `p` of the node at `nodePath`, as number `i`. -/
def property (r : Rules) (p : AnnotatedProperty) (nodePath : String) (i : Nat) : PropertyEntry where
  nodePath
  name := p.name
  wire := r.propertyWire p
  index := ⟨UInt8.ofNat i⟩
  interestMask := interestMask r.classes p.attributes
  networkSerializer :=
    r.serializer? (r.propertyWire p) p.type r.config.networkSerializerInterface
  bsonSerializer := r.serializer? (r.propertyWire p) p.type r.config.bsonSerializerInterface

/-- The parameters that are filled by a caller: all but the first one where that is the peer. -/
def callerParameters (f : AnnotatedFunction) : List AnnotatedParameter :=
  match withPeer f.attributes, f.parameters with
  | true, _ :: others => others
  | true, [] => []
  | false, all => all

theorem sentParameters_eq (f : AnnotatedFunction) : sentParameters f = callerParameters f := by
  unfold sentParameters callerParameters
  cases withPeer f.attributes
  · rfl
  · cases f.parameters <;> rfl

/-- The entry of function `f` of the node at `nodePath`, as number `i`. -/
def function (r : Rules) (f : AnnotatedFunction) (nodePath : String) (i : Nat) : FunctionEntry where
  nodePath
  name := f.name
  index := ⟨UInt8.ofNat i⟩
  arguments := (callerParameters f).map fun p => (classify p.type none r.config.classifier).wire
  withPeer := withPeer f.attributes

def members (r : Rules) (n : NetworkNode) : AnnotatedMembers :=
  r.classes.annotatedMembers n.cls networkProperty networkFunction

/-- The properties of a node: all that are annotated, and off the root all but the identity. -/
def propertiesOf (r : Rules) (n : NetworkNode) : List AnnotatedProperty :=
  (r.members n).properties.filter fun p =>
    ¬ (p.name = r.config.identityProperty ∧ ¬ n.isRoot = true)

def functionsOf (r : Rules) (n : NetworkNode) : List AnnotatedFunction := (r.members n).functions

end Rules

/-- A member at its node and with its name, still without a number. -/
structure Placement (α : Type) where
  nodePath : String
  name : String
  entry : Nat → α

namespace Rules

def propertyPlacements (r : Rules) (n : NetworkNode) : List (Placement PropertyEntry) :=
  (r.propertiesOf n).map fun p => ⟨n.path, p.name, r.property p n.path⟩

def functionPlacements (r : Rules) (n : NetworkNode) : List (Placement FunctionEntry) :=
  (r.functionsOf n).map fun f => ⟨n.path, f.name, r.function f n.path⟩

end Rules

namespace Placement

variable {α : Type}

/-- Members by name, numbered from `k` on. -/
def numbered (k : Nat) (xs : List (Placement α)) : List (String × α) :=
  (xs.zipIdx k).map fun x => (x.1.name, x.1.entry x.2)

/-- The members of nodes by node path and name, numbered from `k` on.  A node without members is
left out. -/
def layout (items : NetworkNode → List (Placement α)) :
    Nat → List NetworkNode → List (String × List (String × α))
  | _, [] => []
  | k, n :: ns =>
    (if (items n).isEmpty then [] else [(n.path, numbered k (items n))]) ++
      layout items (k + (items n).length) ns

/-- How many members nodes have. -/
def total (items : NetworkNode → List (Placement α)) (ns : List NetworkNode) : Nat :=
  (ns.flatMap items).length

end Placement

/-- All that nodes put onto the network can be numbered, and no two of them share a path. -/
structure Rules.Fits (r : Rules) (ns : List NetworkNode) : Prop where
  nodes : ns.length ≤ 256
  paths : (ns.map NetworkNode.path).Nodup
  properties : Placement.total r.propertyPlacements ns ≤ 64
  functions : Placement.total r.functionPlacements ns ≤ 255

/-- Members by node path and name, in order. -/
def NodeMembers.layout {α : Type} (m : NodeMembers α) : List (String × List (String × α)) :=
  m.entries.map fun e => (e.1, e.2.entries)

end NetSchema
