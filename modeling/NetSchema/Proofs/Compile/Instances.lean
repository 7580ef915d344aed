import Mathlib.Logic.Relation
import NetSchema.Compile.Run

/-!
# Which scenes instance which

The descriptors of a source form a graph: an edge leads from a descriptor to every descriptor that
one of its nodes instances, network nodes excepted, since those are never followed.
-/

namespace NetSchema.Compiler

variable {c : Compiler}

/-- The descriptor at `path`, if there is one that can be read. -/
def descriptor? (c : Compiler) (path : String) : Option Descriptor :=
  c.source.load path >>= fun text => (Descriptor.parse text).toOption

/-- The root of a network scene is a network node. -/
def isNetwork (c : Compiler) (d : Descriptor) : Bool :=
  (d.rootNode? >>= c.rules.networkClass?).isSome

/-- The node is not a network node, and instances the descriptor at `inst`. -/
def Follows (c : Compiler) (n : SceneNode) (inst : String) : Prop :=
  c.rules.networkClass? n = none ∧ n.instance? = some inst

/-- A node of the descriptor at `outer` that is not a network node instances `inner`. -/
def Instances (c : Compiler) (outer inner : String) : Prop :=
  ∃ d, c.descriptor? outer = some d ∧ ∃ n ∈ d.nodes, c.Follows n inner

/-- There is a network scene at `path`. -/
def IsNetworkScene (c : Compiler) (path : String) : Prop :=
  ∃ d, c.descriptor? path = some d ∧ c.isNetwork d = true

/-- Instances lead from one of the roots to `path`. -/
def Reaches (c : Compiler) (roots : List String) (path : String) : Prop :=
  ∃ root ∈ roots, Relation.ReflTransGen c.Instances root path

theorem descriptor?_of_parse {path text : String} {d : Descriptor}
    (hl : c.source.load path = some text) (hd : Descriptor.parse text = .ok d) :
    c.descriptor? path = some d := by
  simp [descriptor?, hl, hd, Except.toOption]

theorem exists_text_of_descriptor? {path : String} {d : Descriptor}
    (h : c.descriptor? path = some d) :
    ∃ text, c.source.load path = some text ∧ Descriptor.parse text = .ok d := by
  obtain ⟨text, hl, hd⟩ := Option.bind_eq_some_iff.mp h
  cases hp : Descriptor.parse text with
  | error e => simp [hp, Except.toOption] at hd
  | ok d' => simp_all [Except.toOption]

theorem Reaches.step {roots : List String} {path inst : String} (h : c.Reaches roots path)
    (hi : c.Instances path inst) : c.Reaches roots inst := by
  obtain ⟨root, hroot, hpath⟩ := h
  exact ⟨root, hroot, hpath.tail hi⟩

end NetSchema.Compiler
