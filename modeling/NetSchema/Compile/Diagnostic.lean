import NetSchema.Log

/-!
# Diagnostics

What a compilation finds fault with and goes on.  A diagnostic names its scene, and where a member
is at fault also the node and the member.
-/

namespace NetSchema

inductive DiagnosticKind where
  /-- The type of a member has no wire type; the member travels as `Nil`. -/
  | unrecognizedType
  /-- The subtype asked for does not exist and is left out. -/
  | invalidSubtype
  /-- A function is to take the calling peer but has no parameters. -/
  | missingPeerParameter
  /-- A root is not a network scene. -/
  | notNetworkScene
  deriving DecidableEq, Repr

def DiagnosticKind.name : DiagnosticKind → String
  | unrecognizedType => "unrecognized_type"
  | invalidSubtype => "invalid_subtype"
  | missingPeerParameter => "missing_peer_parameter"
  | notNetworkScene => "not_network_scene"

structure Diagnostic where
  kind : DiagnosticKind
  scene : String
  nodePath : Option String := none
  member : Option String := none
  message : String
  deriving DecidableEq, Repr

namespace Diagnostic

/-- A diagnostic about a member of a node. -/
def atMember (kind : DiagnosticKind) (scene nodePath member message : String) : Diagnostic :=
  ⟨kind, scene, some nodePath, some member, message⟩

/-- Scene, node between brackets, member, and after a colon the message. -/
def text (d : Diagnostic) : String :=
  d.scene ++ ((d.nodePath.map fun p => " [" ++ p ++ "]").getD "") ++
    ((d.member.map fun m => " " ++ m).getD "") ++ ": " ++ d.message

/-- Every diagnostic is logged as a warning. -/
def note (d : Diagnostic) : LogRecord := ⟨.warn, .compiler, d.text⟩

end Diagnostic

end NetSchema
