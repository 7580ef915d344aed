import NetSchema.Compile.Run
import NetSchema.Wire.Document

/-!
# Compiled scenes as documents

The registry, compiled scenes and diagnostics written as JSON.  What is not present is left out
where a member may lack it, and `null` where a field always stands.
-/

namespace NetSchema

/-- A member of an object that is left out when there is no value. -/
def presentMember (key : String) : Option String → List (String × Json)
  | some s => [(key, .string s)]
  | none => []

def mapJson {α : Type} (f : α → Json) (m : OrderedMap String α) : Json :=
  .object (m.entries.map fun (key, a) => (key, f a))

def InterestMask.json : InterestMask → Json
  | explicit v => .object [("kind", .string "explicit"), ("value", .int v.toInt)]
  | defaultLiteral text =>
    .object [("kind", .string "default_literal"), ("value", .string text)]

def PropertyEntry.json (p : PropertyEntry) : Json :=
  .object ([
    ("node_path", .string p.nodePath),
    ("name", .string p.name),
    ("wire", p.wire.json),
    ("index", p.index.json),
    ("interest_mask", p.interestMask.json)] ++
    presentMember "network_serializer" p.networkSerializer ++
    presentMember "bson_serializer" p.bsonSerializer)

def FunctionEntry.json (f : FunctionEntry) : Json :=
  .object [
    ("node_path", .string f.nodePath),
    ("name", .string f.name),
    ("index", f.index.json),
    ("arguments", .list Wire.json f.arguments),
    ("with_peer", .bool f.withPeer)]

def NodeMembers.json {α : Type} (f : α → Json) (m : NodeMembers α) : Json := mapJson (mapJson f) m

/-- Each static node as the pair of its number and its path. -/
def staticNodesJson (nodes : List (StaticNodeId × String)) : Json :=
  .list (fun (id, path) => .array [id.json, .string path]) nodes

def SceneData.json (d : SceneData) : Json :=
  .object [
    ("properties", d.properties.json PropertyEntry.json),
    ("functions", d.functions.json FunctionEntry.json),
    ("static_network_nodes", staticNodesJson d.staticNodes),
    ("is_network_scene", .bool d.isNetworkScene),
    ("scene_id", .ofOption ByteId.json d.sceneId)]

def Registry.json (r : Registry) : Json :=
  .object [
    ("scenes", .object (r.scenes.map fun (id, path) => (id.text, .string path))),
    ("static_network_nodes", mapJson staticNodesJson r.staticNodes),
    ("properties", mapJson (NodeMembers.json PropertyEntry.json) r.properties),
    ("functions", mapJson (NodeMembers.json FunctionEntry.json) r.functions)]

def Diagnostic.json (d : Diagnostic) : Json :=
  .object ([("kind", .string d.kind.name), ("scene", .string d.scene)] ++
    presentMember "node_path" d.nodePath ++ presentMember "member" d.member ++
    [("message", .string d.message)])

def Compiler.CompileOutput.json (o : Compiler.CompileOutput) : Json :=
  .object [
    ("registry", o.registry.json),
    ("diagnostics", .list Diagnostic.json o.diagnostics)]

end NetSchema
