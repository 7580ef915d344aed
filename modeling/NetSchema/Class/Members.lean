import NetSchema.Class.Ancestry

/-!
# Annotated members

The members of a class that carry an attribute, inherited ones included: the members of the class
itself first, then those of each base in turn.  A member is hidden by one of the same name that
comes before it.
-/

namespace NetSchema

structure AnnotatedProperty where
  /-- The class that declares the property. -/
  owner : String
  name : String
  type : DeclaredType
  attributes : List Attribute
  deriving DecidableEq

structure AnnotatedParameter where
  name : String
  type : DeclaredType
  deriving DecidableEq

structure AnnotatedFunction where
  owner : String
  name : String
  parameters : List AnnotatedParameter
  attributes : List Attribute
  deriving DecidableEq

structure AnnotatedMembers where
  properties : List AnnotatedProperty := []
  functions : List AnnotatedFunction := []
  deriving DecidableEq

def AnnotatedMembers.isEmpty (m : AnnotatedMembers) : Bool :=
  m.properties.isEmpty && m.functions.isEmpty

/-- Appends to `kept` the members whose name is not there yet; also returns the hidden ones. -/
def addNew {α : Type} (name : α → String) : (kept : List α) → List α → List α × List α
  | kept, [] => (kept, [])
  | kept, a :: as =>
    if kept.any fun b => name b == name a then
      let (all, hidden) := addNew name kept as
      (all, a :: hidden)
    else addNew name (kept ++ [a]) as

namespace ClassTable

/-- The properties that `owner` itself declares with the attribute. -/
def ownProperties (t : ClassTable) (attr : String) (owner : ClassDecl) :
    List AnnotatedProperty :=
  (owner.properties.filter fun p => p.attributes.any (·.is attr)).map fun p =>
    ⟨owner.name, p.name, t.declaredType p.type, p.attributes⟩

/-- The functions that `owner` itself declares with the attribute. -/
def ownFunctions (t : ClassTable) (attr : String) (owner : ClassDecl) :
    List AnnotatedFunction :=
  (owner.functions.filter fun f => f.attributes.any (·.is attr)).map fun f =>
    ⟨owner.name, f.name, f.parameters.map fun p => ⟨p.name, t.declaredType p.type⟩, f.attributes⟩

def hiddenNote (what owner name : String) : LogRecord :=
  ⟨.debug, .classMembers, what ++ " `" ++ owner ++ "." ++ name ++ "` shadowed by a derived class"⟩

/-- Adds the members of `owners` in order; hidden members are logged. -/
def flatten (t : ClassTable) (propertyAttribute functionAttribute : String) :
    AnnotatedMembers → List ClassDecl → AnnotatedMembers × List LogRecord
  | members, [] => (members, [])
  | members, owner :: owners =>
    let (properties, hiddenProperties) :=
      addNew AnnotatedProperty.name members.properties (t.ownProperties propertyAttribute owner)
    let (functions, hiddenFunctions) :=
      addNew AnnotatedFunction.name members.functions (t.ownFunctions functionAttribute owner)
    let (all, notes) :=
      t.flatten propertyAttribute functionAttribute ⟨properties, functions⟩ owners
    (all, hiddenProperties.map (fun p => hiddenNote "property" p.owner p.name) ++
      hiddenFunctions.map (fun f => hiddenNote "function" f.owner f.name) ++ notes)

/-- The members of a class, its bases included, that carry the attributes. -/
def annotatedMembers (t : ClassTable) (name propertyAttribute functionAttribute : String) :
    AnnotatedMembers :=
  (t.flatten propertyAttribute functionAttribute {} (t.ancestry name)).1

def memberNotes (t : ClassTable) (name propertyAttribute functionAttribute : String) :
    List LogRecord :=
  t.ancestryNotes name ++ (t.flatten propertyAttribute functionAttribute {} (t.ancestry name)).2

end ClassTable

end NetSchema
