import NetSchema.Number.Binary

/-!
# TOML values

A document as a tree.  The keys of a table are all different, and their order counts.
-/

namespace NetSchema

inductive Toml where
  | string (s : String)
  | integer (i : Int64)
  | float (x : Binary)
  | notANumber
  | boolean (b : Bool)
  /-- A date, a time or both, as written. -/
  | datetime (text : String)
  | array (items : List Toml)
  | table (entries : List (String × Toml))
  deriving Repr

/-- Why a text is not a TOML document. -/
inductive TomlError where
  | unexpectedEnd
  | unexpectedCharacter (c : Char)
  | badString
  | badNumber
  | badDate
  | tooDeep
  | repeatedKey (key : String)
  | notATable (key : String)
  deriving DecidableEq, Repr

def TomlError.message : TomlError → String
  | unexpectedEnd => "unexpected end of the document"
  | unexpectedCharacter c => "unexpected character `" ++ c.toString ++ "`"
  | badString => "invalid string"
  | badNumber => "invalid number"
  | badDate => "invalid date or time"
  | tooDeep => "too many levels"
  | repeatedKey key => "key `" ++ key ++ "` is defined twice"
  | notATable key => "key `" ++ key ++ "` is not a table"

namespace Toml

/-- The value of a key of a table. -/
def get? (key : String) : Toml → Option Toml
  | table entries => (entries.find? fun e => e.1 == key).map Prod.snd
  | _ => none

def asString? : Toml → Option String
  | string s => some s
  | _ => none

def asArray? : Toml → Option (List Toml)
  | array items => some items
  | _ => none

def isTable : Toml → Bool
  | table _ => true
  | _ => false

end Toml

end NetSchema
