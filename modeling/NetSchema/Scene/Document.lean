import NetSchema.Json.Basic
import NetSchema.Scene.Descriptor

/-!
# Scenes as documents

A descriptor written as JSON.  Values stand without their kind, so a string and a key look alike;
an infinite number becomes `null`.
-/

namespace NetSchema

/-- A 32-bit number in a document. -/
def numberJson (x : Binary) : Json := .ofOption .number (x.jsonText? binary32 jsonPoint32)

namespace SceneValue

def json : SceneValue → Json
  | bool b => .bool b
  | number x => numberJson x
  | vector2 x y => .object [("x", numberJson x), ("y", numberJson y)]
  | vector3 x y z => .object [("x", numberJson x), ("y", numberJson y), ("z", numberJson z)]
  | vector4 x y z w =>
    .object [("x", numberJson x), ("y", numberJson y), ("z", numberJson z), ("w", numberJson w)]
  | string s => .string s
  | key name => .string name

end SceneValue

def fieldsJson (fields : SceneFields) : Json :=
  .object (fields.entries.map fun (name, v) => (name, v.json))

def TypedBlock.json : TypedBlock → Json
  | leaf type fields =>
    .object [("ty", .string type), ("fields", fieldsJson fields), ("base", .null)]
  | derived type fields base =>
    .object [("ty", .string type), ("fields", fieldsJson fields), ("base", base.json)]

def SceneNode.json (n : SceneNode) : Json :=
  .object [
    ("key", .string n.key),
    ("name", .string n.name),
    ("parent", .ofOption .string n.parent),
    ("properties", fieldsJson n.properties),
    ("instance", .ofOption .string n.instance?),
    ("data", .ofOption TypedBlock.json n.data)]

def Descriptor.json (d : Descriptor) : Json :=
  .object [("root", .string d.root), ("nodes", .list SceneNode.json d.nodes)]

end NetSchema
