import NetSchema.Class.Table
import NetSchema.Wire.Document

/-!
# Class manifests

A manifest is a JSON document that declares classes.  Only the names and the types of properties
and parameters have to be given; what is left out is empty, and a class without a kind is a class.
-/

namespace NetSchema

namespace ArgumentValue

/-- A number that fits into 64 bits is an integer, any other number is a float. -/
def ofJson : Json → Except JsonError ArgumentValue
  | .bool b => .ok (bool b)
  | .string s => .ok (string s)
  | .number text =>
    match JsonNumber.ofText? text with
    | some (.integer i) =>
      match int64? i with
      | some n => .ok (int n)
      | none => .ok (float (binary64.ofInt i))
    | some (.real x) => .ok (float x)
    | none => .error .numberOutOfRange
  | _ => .error (.mistyped "a boolean, a number or a string")

def json : ArgumentValue → Json
  | bool b => .bool b
  | int i => .int i.toInt
  | float x => Json.ofOption .number (x.jsonText? binary64 jsonPoint64)
  | string s => .string s

end ArgumentValue

/-- Arguments by name.  The last value given for a name counts. -/
def argumentsOfJson : Json → Except JsonError (OrderedMap String ArgumentValue)
  | .object members =>
    members.foldlM (fun args (name, j) => (ArgumentValue.ofJson j).map (args.insert name)) {}
  | _ => .error (.mistyped "an object")

namespace Attribute

def ofJson (j : Json) : Except JsonError Attribute := do
  let fields ← j.asRecord ["name", "args"]
  return {
    name := ← fields.required "name" Json.asString
    args := ← fields.optional "args" {} argumentsOfJson }

def json (a : Attribute) : Json :=
  .object [
    ("name", .string a.name),
    ("args", .object (a.args.entries.map fun (name, v) => (name, v.json)))]

end Attribute

namespace PropertyDecl

def ofJson (j : Json) : Except JsonError PropertyDecl := do
  let fields ← j.asRecord ["name", "type", "attributes"]
  return {
    name := ← fields.required "name" Json.asString
    type := ← fields.required "type" Json.asString
    attributes := ← fields.optional "attributes" [] (Json.asList Attribute.ofJson) }

def json (p : PropertyDecl) : Json :=
  .object [
    ("name", .string p.name),
    ("type", .string p.type),
    ("attributes", .list Attribute.json p.attributes)]

end PropertyDecl

namespace ParameterDecl

def ofJson (j : Json) : Except JsonError ParameterDecl := do
  let fields ← j.asRecord ["name", "type"]
  return {
    name := ← fields.required "name" Json.asString
    type := ← fields.required "type" Json.asString }

def json (p : ParameterDecl) : Json :=
  .object [("name", .string p.name), ("type", .string p.type)]

end ParameterDecl

namespace FunctionDecl

def ofJson (j : Json) : Except JsonError FunctionDecl := do
  let fields ← j.asRecord ["name", "parameters", "attributes"]
  return {
    name := ← fields.required "name" Json.asString
    parameters := ← fields.optional "parameters" [] (Json.asList ParameterDecl.ofJson)
    attributes := ← fields.optional "attributes" [] (Json.asList Attribute.ofJson) }

def json (f : FunctionDecl) : Json :=
  .object [
    ("name", .string f.name),
    ("parameters", .list ParameterDecl.json f.parameters),
    ("attributes", .list Attribute.json f.attributes)]

end FunctionDecl

namespace FieldDecl

def ofJson (j : Json) : Except JsonError FieldDecl := do
  let fields ← j.asRecord ["name", "type", "default"]
  return {
    name := ← fields.required "name" Json.asString
    type := ← fields.optional "type" none Json.asOptionalString
    default := ← fields.optional "default" none Json.asOptionalString }

def json (f : FieldDecl) : Json :=
  .object [
    ("name", .string f.name),
    ("type", .ofOption .string f.type),
    ("default", .ofOption .string f.default)]

end FieldDecl

namespace ClassDecl

def ofJson (j : Json) : Except JsonError ClassDecl := do
  let fields ← j.asRecord
    ["name", "kind", "base", "script", "interfaces", "properties", "functions", "fields"]
  return {
    name := ← fields.required "name" Json.asString
    kind := ← fields.optional "kind" .classType TypeKind.ofJson
    base := ← fields.optional "base" none Json.asOptionalString
    script := ← fields.optional "script" none Json.asOptionalString
    interfaces := ← fields.optional "interfaces" [] (Json.asList Json.asString)
    properties := ← fields.optional "properties" [] (Json.asList PropertyDecl.ofJson)
    functions := ← fields.optional "functions" [] (Json.asList FunctionDecl.ofJson)
    fields := ← fields.optional "fields" [] (Json.asList FieldDecl.ofJson) }

def json (c : ClassDecl) : Json :=
  .object [
    ("name", .string c.name),
    ("kind", c.kind.json),
    ("base", .ofOption .string c.base),
    ("script", .ofOption .string c.script),
    ("interfaces", .list .string c.interfaces),
    ("properties", .list PropertyDecl.json c.properties),
    ("functions", .list FunctionDecl.json c.functions),
    ("fields", .list FieldDecl.json c.fields)]

end ClassDecl

/-! ## Whole manifests -/

/-- The classes that a manifest declares. -/
def manifestOfJson (j : Json) : Except JsonError (List ClassDecl) := do
  let fields ← j.asRecord ["classes"]
  fields.optional "classes" [] (Json.asList ClassDecl.ofJson)

def manifestJson (classes : List ClassDecl) : Json :=
  .object [("classes", .list ClassDecl.json classes)]

/-- Why the classes of a manifest cannot all be taken. -/
inductive ManifestError where
  | invalid (origin : String) (cause : JsonError)
  | clash (cause : ClassError)
  deriving DecidableEq, Repr

def ManifestError.message : ManifestError → String
  | invalid origin cause => "invalid class manifest " ++ origin ++ ": " ++ cause.message
  | clash cause => cause.message

namespace ClassTable

/-- Adds the classes of a manifest text.  The table of a failed load holds the classes before the
one that did not fit. -/
def load (t : ClassTable) (origin text : String) : Except ManifestError Unit × ClassTable :=
  match Json.parse text >>= manifestOfJson with
  | .error e => (.error (.invalid origin e), t)
  | .ok classes =>
    match t.insertAll classes with
    | (.ok (), t') => (.ok (), t')
    | (.error e, t') => (.error (.clash e), t')

/-- The table of a single manifest. -/
def ofManifest (origin text : String) : Except ManifestError ClassTable :=
  match load {} origin text with
  | (.ok (), t) => .ok t
  | (.error e, _) => .error e

end ClassTable

end NetSchema
