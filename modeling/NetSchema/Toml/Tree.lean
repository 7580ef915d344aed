import NetSchema.Toml.Basic

/-!
# Building TOML tables

A document is built statement by statement.  While it is, every table remembers how it came about,
because that decides what may be added to it: a header opens a table once, a longer header may imply
it before, and the tables that a dotted key leads through are closed to headers of their own.
-/

namespace NetSchema.Toml

inductive TableOrigin where
  /-- Opened by a header. -/
  | header
  /-- Passed by the header of a table inside it. -/
  | implied
  /-- Passed by a dotted key. -/
  | dotted
  deriving DecidableEq, Repr

/-- What stands at a key while the document is built. -/
inductive Node where
  | value (v : Toml)
  | table (origin : TableOrigin) (entries : List (String × Node))
  /-- An array of tables, of which only the last one grows. -/
  | tables (before : List (List (String × Node))) (last : List (String × Node))

abbrev Entries := List (String × Node)

/-- A key with the keys of the tables that lead to it. -/
structure KeyPath where
  parents : List String
  key : String
  deriving DecidableEq, Repr

inductive Statement where
  /-- The header of a table. -/
  | table (path : KeyPath)
  /-- The header of one more table of an array. -/
  | element (path : KeyPath)
  | assign (path : KeyPath) (v : Toml)

namespace Entries

def find? (key : String) (es : Entries) : Option Node :=
  (List.find? (fun e => e.1 == key) es).map Prod.snd

/-- Puts another node in the place of the one at `key`. -/
def replace (key : String) (n : Node) (es : Entries) : Entries :=
  es.map fun e => if e.1 == key then (key, n) else e

def erase (key : String) (es : Entries) : Entries :=
  es.filter fun e => e.1 != key

/-- Applies `f` to the table that `parents` lead to; tables that are missing on the way come about.
A dotted key may not enter a table that a header has opened. -/
def descend (dotted : Bool) (f : TableOrigin → Entries → Except TomlError Entries) :
    (parents : List String) → TableOrigin → Entries → Except TomlError Entries
  | [], origin, es => f origin es
  | key :: keys, _, es =>
    match es.find? key with
    | none => do
      let origin := if dotted then TableOrigin.dotted else .implied
      let inner ← descend dotted f keys origin []
      return es ++ [(key, .table origin inner)]
    | some (.value _) => .error (.notATable key)
    | some (.tables before last) => do
      let last ← descend dotted f keys .header last
      return es.replace key (.tables before last)
    | some (.table origin inner) =>
      if dotted && origin == .header then .error (.repeatedKey key)
      else do
        let inner ← descend dotted f keys origin inner
        return es.replace key (.table origin inner)

/-- Opens the table at `key`.  A table that was implied before moves to the end. -/
def openTable (key : String) (_ : TableOrigin) (es : Entries) : Except TomlError Entries :=
  match es.find? key with
  | none => .ok (es ++ [(key, .table .header [])])
  | some (.table .implied inner) => .ok (es.erase key ++ [(key, .table .header inner)])
  | some _ => .error (.repeatedKey key)

/-- Adds a table to the array at `key`. -/
def openElement (key : String) (_ : TableOrigin) (es : Entries) : Except TomlError Entries :=
  match es.find? key with
  | none => .ok (es ++ [(key, .tables [] [])])
  | some (.tables before last) => .ok (es.replace key (.tables (before ++ [last]) []))
  | some _ => .error (.repeatedKey key)

/-- Adds a value at a path.  Only tables that come from dotted keys take one from a dotted key. -/
def assign (path : KeyPath) (v : Toml) (origin : TableOrigin) (es : Entries) :
    Except TomlError Entries :=
  descend true (fun origin es =>
    if (origin == .dotted) == path.parents.isEmpty then .error (.repeatedKey path.key)
    else
      match es.find? path.key with
      | none => .ok (es ++ [(path.key, .value v)])
      | some _ => .error (.repeatedKey path.key)) path.parents origin es

end Entries

/-! ## Finished trees -/

mutual

def Node.finish : Node → Toml
  | .value v => v
  | .table _ entries => .table (finishEntries entries)
  | .tables before last => .array (finishTables before ++ [.table (finishEntries last)])

def finishEntries : List (String × Node) → List (String × Toml)
  | [] => []
  | (key, n) :: es => (key, n.finish) :: finishEntries es

def finishTables : List (List (String × Node)) → List Toml
  | [] => []
  | es :: rest => .table (finishEntries es) :: finishTables rest

end

/-- A table between braces. -/
def inlineTable (pairs : List (KeyPath × Toml)) : Except TomlError Toml := do
  let es ← pairs.foldlM (fun (es : Entries) (path, v) => es.assign path v .header) []
  return .table (finishEntries es)

/-- Carries out statements; `current` leads to the table that the last header has opened. -/
def buildFrom (current : List String) (root : Entries) : List Statement → Except TomlError Entries
  | [] => .ok root
  | .table path :: rest => do
    let root ← root.descend false (Entries.openTable path.key) path.parents .header
    buildFrom (path.parents ++ [path.key]) root rest
  | .element path :: rest => do
    let root ← root.descend false (Entries.openElement path.key) path.parents .header
    buildFrom (path.parents ++ [path.key]) root rest
  | .assign path v :: rest => do
    let root ← root.descend false (Entries.assign path v) current .header
    buildFrom current root rest

/-- The document that statements write. -/
def ofStatements (statements : List Statement) : Except TomlError Toml := do
  return .table (finishEntries (← buildFrom [] [] statements))

end NetSchema.Toml
