/-!
# JSON values

A document as a tree.  Numbers keep their text and objects keep the order and the repetitions of
their members, so that a reader of the tree decides what those mean.
-/

namespace NetSchema

inductive Json where
  | null
  | bool (b : Bool)
  | number (text : String)
  | string (s : String)
  | array (items : List Json)
  | object (members : List (String × Json))
  /-- A value whose text is well-formed but contains half a surrogate pair.  It can be skipped and
  never be used. -/
  | broken
  deriving Repr

/-- Why a text is not the document that was asked for. -/
inductive JsonError where
  | unexpectedEnd
  | unexpectedCharacter (c : Char)
  | badEscape
  | badNumber
  | numberOutOfRange
  | trailingText
  | mistyped (expected : String)
  | unknownVariant (name : String)
  | duplicateField (name : String)
  | missingField (name : String)
  | tooManyFields
  deriving DecidableEq, Repr

def JsonError.message : JsonError → String
  | unexpectedEnd => "unexpected end of text"
  | unexpectedCharacter c => "unexpected character `" ++ c.toString ++ "`"
  | badEscape => "invalid escape in a string"
  | badNumber => "invalid number"
  | numberOutOfRange => "number out of range"
  | trailingText => "text after the end of the document"
  | mistyped expected => "expected " ++ expected
  | unknownVariant name => "unknown variant `" ++ name ++ "`"
  | duplicateField name => "duplicate field `" ++ name ++ "`"
  | missingField name => "missing field `" ++ name ++ "`"
  | tooManyFields => "too many elements for the fields"

namespace Json

def int (i : Int) : Json := number (toString i)
def nat (n : Nat) : Json := number (toString n)

def ofOption {α : Type} (f : α → Json) : Option α → Json
  | some a => f a
  | none => null

def list {α : Type} (f : α → Json) (as : List α) : Json := array (as.map f)

/-- The value of the first member called `key`. -/
def field? (key : String) : Json → Option Json
  | object members => (members.find? fun m => m.1 == key).map Prod.snd
  | _ => none

end Json

end NetSchema
