import NetSchema.Class.Attribute
import NetSchema.Class.Members
import NetSchema.Compile.Config
import NetSchema.Compile.Numbering
import NetSchema.Compile.Outcome
import NetSchema.Compile.SceneData

/-!
# From declared members to entries

The entry of a property or function of a network node: its wire types, interest mask, serializers
and number.  A member that cannot be typed as asked for gets an entry all the same and a diagnostic.
-/

namespace NetSchema.Rules

/-- The place where members are declared: a node of a scene. -/
structure Site where
  scene : String
  nodePath : String

/-- The wire type of a member, with a diagnostic where there is none. -/
def memberWire (r : Rules) (site : Site) (member : String) (type : DeclaredType)
    (subtype : Option WireSubtype) : Outcome Wire := do
  let c := classify type subtype r.config.classifier
  Outcome.notes (classifyNotes type r.config.classifier)
  unless c.recognized do
    Outcome.diagnose (.atMember .unrecognizedType site.scene site.nodePath member
      ("type `" ++ type.name ++ "` has no wire mapping, registered as Nil"))
  return c.wire

/-- The subtype that a property asks for, with a diagnostic where it does not exist. -/
def requestedSubtype (site : Site) (p : AnnotatedProperty) : Outcome (Option WireSubtype) :=
  match subtypeOverride p.attributes with
  | .ok subtype => return subtype
  | .error message => do
    Outcome.diagnose (.atMember .invalidSubtype site.scene site.nodePath p.name message)
    return none

/-- The class among the bases of an object type that implements `interface`. -/
def serializer? (r : Rules) (wire : Wire) (type : DeclaredType) (interface : String) :
    Option String :=
  if wire.type = .object then r.classes.implementer? type.name interface else none

def serializerNotes (r : Rules) (wire : Wire) (type : DeclaredType) : List LogRecord :=
  if wire.type = .object then
    r.classes.ancestryNotes type.name ++ r.classes.ancestryNotes type.name
  else []

/-- The entry of a property, under the next number. -/
def propertyEntry (r : Rules) (site : Site) (p : AnnotatedProperty) (numbering : Numbering) :
    Outcome (PropertyEntry × Numbering) := do
  let subtype ← requestedSubtype site p
  let wire ← r.memberWire site p.name p.type subtype
  Outcome.notes (r.serializerNotes wire p.type)
  let (index, numbering) ← .ofExcept (numbering.nextProperty site.nodePath p.name)
  Outcome.notes (interestMaskNotes p.attributes)
  return ({
    nodePath := site.nodePath
    name := p.name
    wire
    index
    interestMask := interestMask r.classes p.attributes
    networkSerializer := r.serializer? wire p.type r.config.networkSerializerInterface
    bsonSerializer := r.serializer? wire p.type r.config.bsonSerializerInterface }, numbering)

/-- The parameters that travel: all but the calling peer. -/
def sentParameters (f : AnnotatedFunction) : List AnnotatedParameter :=
  f.parameters.drop (if withPeer f.attributes then 1 else 0)

/-- The wire types of parameters, in order. -/
def parameterWires (r : Rules) (site : Site) (function : String) :
    List AnnotatedParameter → Outcome (List Wire)
  | [] => return []
  | p :: ps => do
    let wire ← r.memberWire site (function ++ "(" ++ p.name ++ ")") p.type none
    let wires ← parameterWires r site function ps
    return wire :: wires

/-- The entry of a function, under the next number. -/
def functionEntry (r : Rules) (site : Site) (f : AnnotatedFunction) (numbering : Numbering) :
    Outcome (FunctionEntry × Numbering) := do
  Outcome.notes (withPeerNotes f.attributes)
  if withPeer f.attributes && f.parameters.isEmpty then
    Outcome.diagnose (.atMember .missingPeerParameter site.scene site.nodePath f.name
      "WithPeer is set but the function takes no peer parameter")
  let wires ← r.parameterWires site f.name (sentParameters f)
  let (index, numbering) ← .ofExcept (numbering.nextFunction site.nodePath f.name)
  return ({
    nodePath := site.nodePath
    name := f.name
    index
    arguments := wires
    withPeer := withPeer f.attributes }, numbering)

end NetSchema.Rules
