import NetSchema.OrderedMap
import NetSchema.Number.Text
import NetSchema.Wire.Classify

/-!
# Declared classes

What the manifests tell about behaviour classes: their base, script and interfaces, and their
members in order of declaration with the attributes attached to them.
-/

namespace NetSchema

/-- An argument given to an attribute. -/
inductive ArgumentValue where
  | bool (b : Bool)
  | int (i : Int64)
  | float (x : Binary)
  | string (s : String)
  deriving DecidableEq

/-- The value as a message shows it. -/
def ArgumentValue.text : ArgumentValue → String
  | bool true => "true"
  | bool false => "false"
  | int i => toString i.toInt
  | float x => x.plainText binary64
  | string s => s

/-- One attribute attached to a member, with the arguments given by name. -/
structure Attribute where
  name : String
  args : OrderedMap String ArgumentValue := {}
  deriving DecidableEq

structure PropertyDecl where
  name : String
  type : String
  attributes : List Attribute := []
  deriving DecidableEq

structure ParameterDecl where
  name : String
  type : String
  deriving DecidableEq

structure FunctionDecl where
  name : String
  parameters : List ParameterDecl := []
  attributes : List Attribute := []
  deriving DecidableEq

/-- A field with the text of its initializer. -/
structure FieldDecl where
  name : String
  type : Option String := none
  default : Option String := none
  deriving DecidableEq

structure ClassDecl where
  name : String
  kind : TypeKind := .classType
  base : Option String := none
  script : Option String := none
  interfaces : List String := []
  properties : List PropertyDecl := []
  functions : List FunctionDecl := []
  fields : List FieldDecl := []
  deriving DecidableEq

/-- What stands before the generic arguments, after the last dot, without blanks around it. -/
def shortTypeName (name : String) : String :=
  String.ofList (Text.afterLast '.' (Text.beforeFirst '<' (Text.trimChars name.toList)))

/-- The text before the generic arguments. -/
def withoutGenerics (name : String) : String := String.ofList (Text.beforeFirst '<' name.toList)

/-- An attribute class may be named with or without `Attribute` at its end. -/
def Attribute.is (a : Attribute) (attr : String) : Bool :=
  let name := shortTypeName a.name
  name == attr || Text.dropSuffix? "Attribute" name == some attr

namespace ClassDecl

def shortName (c : ClassDecl) : String := shortTypeName c.name

/-- One of the interfaces is `interface`, up to namespaces and generic arguments. -/
def implements (c : ClassDecl) (interface : String) : Bool :=
  c.interfaces.any fun i => shortTypeName (withoutGenerics i) == shortTypeName interface

def field? (c : ClassDecl) (name : String) : Option FieldDecl :=
  c.fields.find? fun f => f.name == name

end ClassDecl

/-- A script path without blanks around it, scheme, leading slashes and backslashes. -/
def normalizeScript (path : String) : String :=
  let path := Text.replaceChar '\\' '/' (Text.trim path)
  Text.dropLeading '/' ((Text.dropPrefix? "res://" path).getD path)

end NetSchema
