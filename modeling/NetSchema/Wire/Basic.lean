import NetSchema.Text.Blank
import NetSchema.Text.Pieces

/-!
# Wire types

The category in which a replicated value travels (`WireType`), the refinement that selects a
narrower encoding (`WireSubtype`), and the pair of the two (`Wire`).  The order of the constructors
is the numbering that a reader of the registry relies on.
-/

namespace NetSchema

inductive WireType where
  | nil | bool | int | float | string
  | vector2 | vector2I | rect2 | rect2I | vector3 | vector3I | transform2D | vector4 | vector4I
  | plane | quaternion | aabb | basis | transform3D | projection | color
  | stringName | nodePath | rid | object | callable | signal
  | dictionary | array
  | packedByteArray | packedInt32Array | packedInt64Array | packedFloat32Array
  | packedFloat64Array | packedStringArray | packedVector2Array | packedVector3Array
  | packedColorArray | packedVector4Array
  deriving DecidableEq, Repr

namespace WireType

def all : List WireType :=
  [nil, bool, int, float, string, vector2, vector2I, rect2, rect2I, vector3, vector3I,
   transform2D, vector4, vector4I, plane, quaternion, aabb, basis, transform3D, projection, color,
   stringName, nodePath, rid, object, callable, signal, dictionary, array, packedByteArray,
   packedInt32Array, packedInt64Array, packedFloat32Array, packedFloat64Array, packedStringArray,
   packedVector2Array, packedVector3Array, packedColorArray, packedVector4Array]

def name : WireType → String
  | nil => "Nil"
  | bool => "Bool"
  | int => "Int"
  | float => "Float"
  | string => "String"
  | vector2 => "Vector2"
  | vector2I => "Vector2I"
  | rect2 => "Rect2"
  | rect2I => "Rect2I"
  | vector3 => "Vector3"
  | vector3I => "Vector3I"
  | transform2D => "Transform2D"
  | vector4 => "Vector4"
  | vector4I => "Vector4I"
  | plane => "Plane"
  | quaternion => "Quaternion"
  | aabb => "Aabb"
  | basis => "Basis"
  | transform3D => "Transform3D"
  | projection => "Projection"
  | color => "Color"
  | stringName => "StringName"
  | nodePath => "NodePath"
  | rid => "Rid"
  | object => "Object"
  | callable => "Callable"
  | signal => "Signal"
  | dictionary => "Dictionary"
  | array => "Array"
  | packedByteArray => "PackedByteArray"
  | packedInt32Array => "PackedInt32Array"
  | packedInt64Array => "PackedInt64Array"
  | packedFloat32Array => "PackedFloat32Array"
  | packedFloat64Array => "PackedFloat64Array"
  | packedStringArray => "PackedStringArray"
  | packedVector2Array => "PackedVector2Array"
  | packedVector3Array => "PackedVector3Array"
  | packedColorArray => "PackedColorArray"
  | packedVector4Array => "PackedVector4Array"

/-- Place of the type in the numbering. -/
def number (t : WireType) : Nat := t.ctorIdx

/-- The type called `text`, in letters of either case. -/
def ofText? (text : String) : Option WireType :=
  all.find? fun t => Text.sameIgnoringCase t.name text

end WireType

inductive WireSubtype where
  | none
  | guid
  | byte
  | int
  | networkId
  | networkNode
  | asyncPeerValue
  deriving DecidableEq, Repr

namespace WireSubtype

def all : List WireSubtype :=
  [none, guid, byte, int, networkId, networkNode, asyncPeerValue]

def name : WireSubtype → String
  | none => "None"
  | guid => "Guid"
  | byte => "Byte"
  | int => "Int"
  | networkId => "NetworkId"
  | networkNode => "NetworkNode"
  | asyncPeerValue => "AsyncPeerValue"

/-- Place of the subtype in the numbering. -/
def number (s : WireSubtype) : Nat := s.ctorIdx

def ofNumber? (n : Nat) : Option WireSubtype := all[n]?

end WireSubtype

/-- The complaint about a text that names no wire type. -/
def unknownWireType (text : String) : String := "unknown wire type `" ++ text ++ "`"

/-- The complaint about a text that names no subtype. -/
def unknownSubtype (text : String) : String := "unknown wire subtype `" ++ text ++ "`"

/-- The number that decimal digits write, `none` where there is another character. -/
def decimalValue? (digits : List Char) : Option Nat :=
  digits.foldl (fun acc c => if c.isDigit then acc.map (· * 10 + (c.toNat - 48)) else .none)
    (some 0)

/-- A byte in decimal, possibly after a plus sign. -/
def byteOfText? (text : String) : Option Nat :=
  let digits := match text.toList with
    | '+' :: rest => rest
    | rest => rest
  if digits.isEmpty then none
  else (decimalValue? digits).filter (· < 256)

namespace WireSubtype

/-- Reads a subtype by number or by name.  Blanks around it do not count, nor does what stands
before the last dot of a name or the case of its letters. -/
def ofText (text : String) : Except String WireSubtype :=
  let trimmed := Text.trim text
  match byteOfText? trimmed with
  | some n =>
    match ofNumber? n with
    | some s => .ok s
    | Option.none => .error (unknownSubtype trimmed)
  | Option.none =>
    let last := String.ofList (Text.afterLast '.' trimmed.toList)
    match all.find? fun s => Text.sameIgnoringCase s.name last with
    | some s => .ok s
    | Option.none => .error (unknownSubtype trimmed)

end WireSubtype

/-- Type and subtype of one value on the wire. -/
structure Wire where
  type : WireType
  subtype : WireSubtype
  deriving DecidableEq, Repr

namespace Wire

/-- The type alone. -/
def plain (type : WireType) : Wire := ⟨type, .none⟩

/-- The type, and the subtype after a colon unless it is `none`. -/
def text (w : Wire) : String :=
  match w.subtype with
  | .none => w.type.name
  | s => w.type.name ++ ":" ++ s.name

end Wire

end NetSchema
