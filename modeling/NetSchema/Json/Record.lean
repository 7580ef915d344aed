import NetSchema.Json.Reader
import NetSchema.Json.Number

/-!
# From JSON to records

A record is given as an object or as the array of its fields in order.  In an object, members that
name no field are skipped and a field may be named only once; an array may stop early but not go
on after the last field.
-/

namespace NetSchema.Json

def asString : Json → Except JsonError String
  | string s => .ok s
  | _ => .error (.mistyped "a string")

/-- A string or `null`. -/
def asOptionalString : Json → Except JsonError (Option String)
  | null => .ok none
  | string s => .ok (some s)
  | _ => .error (.mistyped "a string or null")

def asList {α : Type} (item : Json → Except JsonError α) : Json → Except JsonError (List α)
  | array items => items.mapM item
  | _ => .error (.mistyped "an array")

/-- A whole number of one byte. -/
def asByte : Json → Except JsonError UInt8
  | number text =>
    match JsonNumber.ofText? text with
    | some (.integer i) =>
      if 0 ≤ i && i < 256 then .ok (UInt8.ofNat i.toNat) else .error .numberOutOfRange
    | some (.real _) => .error (.mistyped "a whole number")
    | none => .error .numberOutOfRange
  | _ => .error (.mistyped "a whole number")

/-- One of the values that have a name: the name itself, or an object with the name as its only
key and `null` as its value. -/
def asVariant {α : Type} (ofName? : String → Option α) (j : Json) : Except JsonError α :=
  let found (name : String) : Except JsonError α :=
    match ofName? name with
    | some a => .ok a
    | none => .error (.unknownVariant name)
  match j with
  | string name => found name
  | object [(name, null)] => found name
  | _ => .error (.mistyped "the name of a variant")

/-- The fields of a record that are present. -/
abbrev Fields := List (String × Json)

/-- Keeps the members that name a field, each field once. -/
def objectFields (names : List String) : List (String × Json) → Except JsonError Fields
  | [] => .ok []
  | (key, j) :: members => do
    let rest ← objectFields names members
    if key ∈ names then
      if rest.any (fun m => m.1 == key) then throw (.duplicateField key)
      else return (key, j) :: rest
    else return rest

def asRecord (names : List String) : Json → Except JsonError Fields
  | object members => objectFields names members
  | array items =>
    if names.length < items.length then .error .tooManyFields else .ok (names.zip items)
  | _ => .error (.mistyped "a record")

namespace Fields

def get? (fs : Fields) (name : String) : Option Json :=
  (List.find? (fun f => f.1 == name) fs).map Prod.snd

/-- A field that must be there. -/
def required {α : Type} (fs : Fields) (name : String) (read : Json → Except JsonError α) :
    Except JsonError α :=
  match fs.get? name with
  | some j => read j
  | none => .error (.missingField name)

/-- A field that may be left out. -/
def optional {α : Type} (fs : Fields) (name : String) (default : α)
    (read : Json → Except JsonError α) : Except JsonError α :=
  match fs.get? name with
  | some j => read j
  | none => .ok default

end Fields

end NetSchema.Json
