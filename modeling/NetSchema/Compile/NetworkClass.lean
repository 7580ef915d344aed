import NetSchema.Class.Ancestry
import NetSchema.Compile.Config
import NetSchema.Scene.Descriptor

/-!
# Which nodes are network nodes

A node is a network node when the class of its script derives from the network base type.
-/

namespace NetSchema.Rules

/-- The class of the script of a node. -/
def scriptClass? (r : Rules) (n : SceneNode) : Option ClassDecl := n.script? >>= r.classes.ofScript?

/-- The class of a network node, `none` for any other node. -/
def networkClass? (r : Rules) (n : SceneNode) : Option String :=
  match r.scriptClass? n with
  | some c => if r.classes.isSubclassOf c.name r.config.networkBaseType then some c.name else none
  | none => none

/-- A script without a class and a class without the base type are logged. -/
def networkClassNotes (r : Rules) (n : SceneNode) : List LogRecord :=
  match n.script? with
  | none => []
  | some script =>
    match r.classes.ofScript? script with
    | none =>
      [⟨.debug, .compiler,
        "node `" ++ n.name ++ "`: script `" ++ script ++ "` has no known class"⟩]
    | some c =>
      r.classes.ancestryNotes c.name ++
        if r.classes.isSubclassOf c.name r.config.networkBaseType then []
        else
          [⟨.debug, .compiler,
            "node `" ++ n.name ++ "`: `" ++ c.name ++ "` is not a `" ++ r.config.networkBaseType ++
              "`"⟩]

end NetSchema.Rules
