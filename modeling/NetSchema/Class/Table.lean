import NetSchema.Class.Decl

/-!
# The class table

Classes by name, and the class of each script.  A class name and a script path are taken once; an
insertion that would take one a second time fails and changes nothing.  Look-ups also accept a
short class name or the end of a script path when only one class answers to it.

What attribute classes say is read through any look-up of classes by name, of which that of a table
is one.
-/

namespace NetSchema

/-- A source of classes: what it finds under a name. -/
abbrev ClassLookup := String → Option ClassDecl

namespace ClassLookup

/-- The initializer of a field of the class behind an attribute, as written. -/
def fieldLiteral? (find : ClassLookup) (attr field : String) : Option String := do
  let c ← (find attr).or (find (attr ++ "Attribute"))
  (← c.field? field).default

/-- The initializer without blanks around it. -/
def trimmedFieldLiteral? (find : ClassLookup) (attr field : String) : Option String :=
  (find.fieldLiteral? attr field).map Text.trim

end ClassLookup

structure ClassTable where
  classes : OrderedMap String ClassDecl := {}
  /-- Class names by normalized script path. -/
  scripts : OrderedMap String String := {}

/-- Why a class cannot be inserted. -/
inductive ClassError where
  | duplicateClass (name : String)
  | duplicateScript (script first second : String)
  deriving DecidableEq, Repr

def ClassError.message : ClassError → String
  | duplicateClass name => "class `" ++ name ++ "` is declared more than once"
  | duplicateScript script first second =>
    "script `" ++ script ++ "` is claimed by both `" ++ first ++ "` and `" ++ second ++ "`"

namespace ClassTable

def size (t : ClassTable) : Nat := t.classes.size

def insert (t : ClassTable) (c : ClassDecl) : Except ClassError ClassTable :=
  if t.classes.contains c.name then .error (.duplicateClass c.name)
  else
    match c.script with
    | none => .ok { t with classes := t.classes.insert c.name c }
    | some script =>
      match t.scripts.get? (normalizeScript script) with
      | some first => .error (.duplicateScript script first c.name)
      | none =>
        .ok {
          classes := t.classes.insert c.name c
          scripts := t.scripts.insert (normalizeScript script) c.name }

/-- Inserts classes up to the first that does not fit; the table holds those before it. -/
def insertAll (t : ClassTable) : List ClassDecl → Except ClassError Unit × ClassTable
  | [] => (.ok (), t)
  | c :: cs =>
    match t.insert c with
    | .ok t' => t'.insertAll cs
    | .error e => (.error e, t)

/-- Each class that was inserted is logged. -/
def insertNotes (before after : ClassTable) : List LogRecord :=
  (after.classes.keys.drop before.size).map fun name =>
    ⟨.debug, .classTable, "registered class `" ++ name ++ "`"⟩

/-- The only element that satisfies `p`. -/
def onlyMatch? {α : Type} (p : α → Bool) (as : List α) : Option α :=
  match as.filter p with
  | [a] => some a
  | _ => none

/-- The class called `name`; a name without a dot may leave out the namespace. -/
def class? (t : ClassTable) (name : String) : Option ClassDecl :=
  match t.classes.get? name with
  | some c => some c
  | none =>
    if name.toList.contains '.' then none
    else onlyMatch? (fun c => c.shortName == name) t.classes.values

/-- The class of a script; a path may leave out leading directories. -/
def ofScript? (t : ClassTable) (script : String) : Option ClassDecl :=
  let key := normalizeScript script
  match t.scripts.get? key with
  | some name => t.classes.get? name
  | none =>
    match onlyMatch? (fun path => Text.endsWith ("/" ++ key) path) t.scripts.keys with
    | some path => t.scripts.get? path >>= t.classes.get?
    | none => none

theorem mem_of_onlyMatch? {α : Type} {p : α → Bool} {as : List α} {a : α}
    (h : onlyMatch? p as = some a) : a ∈ as := by
  unfold onlyMatch? at h
  split at h
  · next b hf =>
    have : b ∈ as.filter p := by rw [hf]; simp
    simp only [Option.some.injEq] at h
    exact h ▸ (List.mem_filter.1 this).1
  · simp at h

theorem mem_of_class? {t : ClassTable} {name : String} {c : ClassDecl}
    (h : t.class? name = some c) : c ∈ t.classes.values := by
  unfold class? at h
  split at h
  · next hg => exact Option.some.inj h ▸ OrderedMap.mem_values_of_get? hg
  · split at h
    · simp at h
    · exact mem_of_onlyMatch? h

/-- The kind of the thing called `name`, which is unknown for a thing that is not a class. -/
def kindOf (t : ClassTable) (name : String) : TypeKind :=
  ((t.class? (Text.trim name)).map ClassDecl.kind).getD .unknown

/-- A type token with the kind that the table knows. -/
def declaredType (t : ClassTable) (name : String) : DeclaredType :=
  ⟨Text.trim name, t.kindOf name⟩

def fieldLiteral? (t : ClassTable) (attr field : String) : Option String :=
  ClassLookup.fieldLiteral? t.class? attr field

def trimmedFieldLiteral? (t : ClassTable) (attr field : String) : Option String :=
  ClassLookup.trimmedFieldLiteral? t.class? attr field

end ClassTable

end NetSchema
