import NetSchema.ByteId
import NetSchema.Json.Record
import NetSchema.Wire.Classify

/-!
# Numbers and types in documents

How identifiers, wire types, declared types and the classifier configuration stand in a JSON
document, in both directions.
-/

namespace NetSchema

namespace ByteId

variable {kind : IdKind}

/-- The bare number. -/
def json (i : ByteId kind) : Json := .nat i.toNat

/-- Any byte is read, the limit of the kind is not checked. -/
def ofJson (j : Json) : Except JsonError (ByteId kind) := j.asByte.map .mk

end ByteId

namespace WireType

def json (t : WireType) : Json := .string t.name

def ofJson (j : Json) : Except JsonError WireType :=
  j.asVariant fun name => all.find? fun t => t.name == name

end WireType

namespace WireSubtype

def json (s : WireSubtype) : Json := .string s.name

def ofJson (j : Json) : Except JsonError WireSubtype :=
  j.asVariant fun name => all.find? fun s => s.name == name

end WireSubtype

namespace Wire

def json (w : Wire) : Json := .object [("type", w.type.json), ("subtype", w.subtype.json)]

def ofJson (j : Json) : Except JsonError Wire := do
  let fields ← j.asRecord ["type", "subtype"]
  return {
    type := ← fields.required "type" WireType.ofJson
    subtype := ← fields.required "subtype" WireSubtype.ofJson }

end Wire

namespace TypeKind

def json (k : TypeKind) : Json := .string k.name

def ofJson (j : Json) : Except JsonError TypeKind := j.asVariant ofName?

end TypeKind

namespace DeclaredType

def json (d : DeclaredType) : Json := .object [("name", .string d.name), ("kind", d.kind.json)]

def ofJson (j : Json) : Except JsonError DeclaredType := do
  let fields ← j.asRecord ["name", "kind"]
  return {
    name := ← fields.required "name" Json.asString
    kind := ← fields.optional "kind" .unknown TypeKind.ofJson }

end DeclaredType

namespace ClassifierConfig

def json (c : ClassifierConfig) : Json :=
  .object [
    ("async_peer_value_type", .string c.asyncPeerValueType),
    ("network_node_type", .string c.networkNodeType)]

def ofJson (j : Json) : Except JsonError ClassifierConfig := do
  let fields ← j.asRecord ["async_peer_value_type", "network_node_type"]
  return {
    asyncPeerValueType := ← fields.required "async_peer_value_type" Json.asString
    networkNodeType := ← fields.required "network_node_type" Json.asString }

end ClassifierConfig

end NetSchema
