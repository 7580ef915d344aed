import NetSchema.Wire.Basic
import NetSchema.Log

/-!
# From declared types to wire types

A declared type is a name as written and the kind of thing it names.  `classify` assigns a wire
type to every declared type: scalars and value types go by name, then the two types that the
configuration singles out, then enumerations and references by kind.  Whatever is left travels as
`nil` and is marked as not recognised.
-/

namespace NetSchema

inductive TypeKind where
  | primitive
  | struct
  | enum
  | classType
  | interface
  | unknown
  deriving DecidableEq, Repr

namespace TypeKind

def all : List TypeKind := [primitive, struct, enum, classType, interface, unknown]

def name : TypeKind → String
  | primitive => "primitive"
  | struct => "struct"
  | enum => "enum"
  | classType => "class"
  | interface => "interface"
  | unknown => "unknown"

/-- The name with a capital letter. -/
def title : TypeKind → String
  | primitive => "Primitive"
  | struct => "Struct"
  | enum => "Enum"
  | classType => "Class"
  | interface => "Interface"
  | unknown => "Unknown"

def ofName? (text : String) : Option TypeKind := all.find? fun k => k.name == text

/-- Values of the kind are held by reference. -/
def isReference : TypeKind → Bool
  | interface | classType => true
  | _ => false

end TypeKind

structure DeclaredType where
  name : String
  kind : TypeKind
  deriving DecidableEq, Repr

/-- The name without blanks around it and without a leading `System.` or `Godot.`. -/
def DeclaredType.shortName (d : DeclaredType) : String :=
  let name := Text.trim d.name
  match Text.dropPrefix? "System." name with
  | some rest => rest
  | none => (Text.dropPrefix? "Godot." name).getD name

/-- The two types that are told apart by their exact name. -/
structure ClassifierConfig where
  asyncPeerValueType : String := "LazyPeerState"
  networkNodeType : String := "NetworkNode3D"
  deriving DecidableEq, Repr

structure Classification where
  wire : Wire
  recognized : Bool
  deriving DecidableEq, Repr

/-- The names of scalar types. -/
def scalarTypes : List (String × Wire) :=
  [("long", ⟨.int, .none⟩), ("Int64", ⟨.int, .none⟩), ("i64", ⟨.int, .none⟩),
   ("int", ⟨.int, .int⟩), ("Int32", ⟨.int, .int⟩), ("i32", ⟨.int, .int⟩),
   ("byte", ⟨.int, .byte⟩), ("Byte", ⟨.int, .byte⟩), ("u8", ⟨.int, .byte⟩),
   ("float", ⟨.float, .none⟩), ("Single", ⟨.float, .none⟩), ("f32", ⟨.float, .none⟩),
   ("bool", ⟨.bool, .none⟩), ("Boolean", ⟨.bool, .none⟩),
   ("string", ⟨.string, .none⟩), ("String", ⟨.string, .none⟩),
   ("byte[]", ⟨.packedByteArray, .none⟩), ("Byte[]", ⟨.packedByteArray, .none⟩),
   ("Vec<u8>", ⟨.packedByteArray, .none⟩)]

/-- The wire types that a declared type may name directly. -/
def valueTypes : List WireType :=
  [.vector2, .vector2I, .vector3, .vector3I, .vector4, .vector4I, .quaternion, .color, .rect2,
   .rect2I, .plane, .aabb, .basis, .transform2D, .transform3D, .projection, .stringName, .nodePath,
   .rid, .dictionary, .array]

/-- The wire type that a declared type has by itself. -/
def inferWire? (d : DeclaredType) (config : ClassifierConfig) : Option Wire :=
  match scalarTypes.find? fun e => e.1 == d.shortName with
  | some e => some e.2
  | none =>
    match valueTypes.find? fun t => t.name == d.shortName with
    | some t => some (.plain t)
    | none =>
      if Text.trim d.name = config.asyncPeerValueType then some ⟨.object, .asyncPeerValue⟩
      else if Text.trim d.name = config.networkNodeType then some ⟨.object, .networkNode⟩
      else if d.kind = .enum then some ⟨.int, .int⟩
      else if d.kind.isReference then some (.plain .object)
      else none

/-- An `override` replaces the subtype and never the type. -/
def classify (d : DeclaredType) (override : Option WireSubtype) (config : ClassifierConfig) :
    Classification :=
  let inferred := inferWire? d config
  let wire := inferred.getD (.plain .nil)
  ⟨⟨wire.type, override.getD wire.subtype⟩, inferred.isSome⟩

/-- A type without a wire type is logged. -/
def classifyNotes (d : DeclaredType) (config : ClassifierConfig) : List LogRecord :=
  match inferWire? d config with
  | some _ => []
  | none =>
    [⟨.debug, .classifier, "type `" ++ d.name ++ "` (" ++ d.kind.title ++ ") has no wire mapping"⟩]

end NetSchema
