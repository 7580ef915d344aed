import NetSchema.Compile.Config
import NetSchema.Project.Resource
import NetSchema.Text.Blank
import NetSchema.Toml.Reader

/-!
# Project configurations

What `project.toml` says: the name of the project, and in a table of its own the settings of the
network schema.  A setting that is left out keeps its default.
-/

namespace NetSchema

structure NetworkSettings where
  /-- The scenes to compile; all scenes among the resources if there is no such list. -/
  scenes : Option (List String) := none
  /-- The directory of the class manifests. -/
  classes : String := "res://classes"
  baseType : String := ({} : CompilerConfig).networkBaseType
  identityProperty : String := ({} : CompilerConfig).identityProperty
  asyncPeerValueType : String := ({} : CompilerConfig).classifier.asyncPeerValueType
  networkSerializerInterface : String := ({} : CompilerConfig).networkSerializerInterface
  bsonSerializerInterface : String := ({} : CompilerConfig).bsonSerializerInterface
  deriving DecidableEq, Repr

/-- What the settings tell the compiler. -/
def NetworkSettings.compilerConfig (s : NetworkSettings) : CompilerConfig :=
  let c := ({} : CompilerConfig).withBaseType s.baseType
  { c with
    identityProperty := s.identityProperty
    classifier := { c.classifier with asyncPeerValueType := s.asyncPeerValueType }
    networkSerializerInterface := s.networkSerializerInterface
    bsonSerializerInterface := s.bsonSerializerInterface }

structure ProjectConfig where
  name : String
  network : NetworkSettings := {}
  deriving DecidableEq, Repr

/-- What is wrong with the value of a field. -/
inductive FieldFault where
  | notATable
  | notStrings
  | notAString
  | blank
  | notAResource
  deriving DecidableEq, Repr

def FieldFault.message : FieldFault → String
  | notATable => "must be a table"
  | notStrings => "must be an array of strings"
  | notAString => "must be a string"
  | blank => "must not be empty"
  | notAResource => "must start with `res://`"

/-- Why a text is not the configuration of a project. -/
inductive ConfigError where
  | notToml (cause : TomlError)
  | missingField (field : String)
  | invalidField (field : String) (fault : FieldFault)
  deriving DecidableEq, Repr

def ConfigError.message : ConfigError → String
  | notToml cause => cause.message
  | missingField field => "missing required field `" ++ field ++ "`"
  | invalidField field fault => "invalid field `" ++ field ++ "`: " ++ fault.message

namespace NetworkSettings

/-- The full name of a setting. -/
def fieldName (key : String) : String := "network." ++ key

def checkResource (key path : String) : Except ConfigError Unit :=
  if Resource.isResource path then .ok ()
  else .error (.invalidField (fieldName key) .notAResource)

def sceneOfToml (t : Toml) : Except ConfigError String :=
  match t.asString? with
  | none => .error (.invalidField (fieldName "scenes") .notStrings)
  | some path => (checkResource "scenes" path).map fun () => path

def scenesOfToml (table : Toml) : Except ConfigError (Option (List String)) :=
  match table.get? "scenes" with
  | none => .ok none
  | some t =>
    match t.asArray? with
    | none => .error (.invalidField (fieldName "scenes") .notStrings)
    | some items => (items.mapM sceneOfToml).map some

/-- The text of a setting without blanks around it. -/
def textOfToml (table : Toml) (key default : String) : Except ConfigError String :=
  match table.get? key with
  | none => .ok default
  | some t =>
    match t.asString? with
    | none => .error (.invalidField (fieldName key) .notAString)
    | some s =>
      let s := Text.trim s
      if s.isEmpty then .error (.invalidField (fieldName key) .blank) else .ok s

def ofToml (table : Toml) : Except ConfigError NetworkSettings := do
  let d : NetworkSettings := {}
  let scenes ← scenesOfToml table
  let classes ← textOfToml table "classes" d.classes
  checkResource "classes" classes
  return {
    scenes, classes
    baseType := ← textOfToml table "base_type" d.baseType
    identityProperty := ← textOfToml table "identity_property" d.identityProperty
    asyncPeerValueType := ← textOfToml table "async_peer_value_type" d.asyncPeerValueType
    networkSerializerInterface :=
      ← textOfToml table "network_serializer_interface" d.networkSerializerInterface
    bsonSerializerInterface :=
      ← textOfToml table "bson_serializer_interface" d.bsonSerializerInterface }

end NetworkSettings

namespace ProjectConfig

def nameOfToml (t : Toml) : Except ConfigError String :=
  match t.get? "project" with
  | some (.table entries) =>
    match (Toml.table entries).get? "name" >>= Toml.asString? with
    | some name => .ok name
    | none => .error (.missingField "project.name")
  | _ => .error (.missingField "project")

def networkOfToml (t : Toml) : Except ConfigError NetworkSettings :=
  match t.get? "network" with
  | none => .ok {}
  | some network =>
    if network.isTable then NetworkSettings.ofToml network
    else .error (.invalidField "network" .notATable)

def ofToml (t : Toml) : Except ConfigError ProjectConfig := do
  let name ← nameOfToml t
  return { name, network := ← networkOfToml t }

def parse (text : String) : Except ConfigError ProjectConfig :=
  match Toml.parse text with
  | .error e => .error (.notToml e)
  | .ok t => ofToml t

/-- The text that a new project starts with. -/
def scaffold (name : String) : String :=
  "[project]\nname = \"" ++ name ++ "\"\n\n[network]\nclasses = \"res://classes\"\n" ++
    "base_type = \"NetworkNode3D\"\nidentity_property = \"NetworkId\"\n"

end ProjectConfig

end NetSchema
