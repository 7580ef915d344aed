import Mathlib.Data.List.ReduceOption
import Mathlib.Data.Nat.Digits.Defs
import NetSchema.Proofs.Text

/-!
# The grammar of mask texts

Syntax trees of the texts that write a mask out of literals, the characters that they are written
with, and the numbers that they stand for:

* mask: terms with `|` between them;
* term: an operand, or a term in parentheses;
* operand: a literal, or a literal `<<` a literal that is at least 0 and below 64;
* literal: at most one `-`, at most one of `0x`, `0X`, `0b` and `0B`, digits with underscores
  anywhere, and any of the letters `L`, `l`, `U` and `u`.

Blanks may stand around `|` and `<<` and inside of parentheses.  The digits of a literal write a
number that a signed word of 64 bits can hold.
-/

namespace NetSchema

/-- Blanks that may as well be left out. -/
structure Gap where
  chars : List Char
  blanks : Text.Blanks chars

/-! ## Literals -/

/-- The base of a literal, and whether the letter that marks it is a capital one. -/
inductive Radix where
  | decimal
  | hexadecimal (capital : Bool)
  | binary (capital : Bool)

namespace Radix

def base : Radix → Nat
  | decimal => 10
  | hexadecimal _ => 16
  | binary _ => 2

/-- What stands before the digits. -/
def mark : Radix → List Char
  | decimal => []
  | hexadecimal capital => ['0', if capital then 'X' else 'x']
  | binary capital => ['0', if capital then 'B' else 'b']

end Radix

/-- A digit of a literal.  From ten on it is a letter. -/
structure Digit (r : Radix) where
  value : Fin r.base
  capital : Bool

def Digit.char {r : Radix} (d : Digit r) : Char :=
  if d.capital then (Nat.digitChar d.value).toUpper else Nat.digitChar d.value

/-- The number that digits write, the first of them counting most. -/
def numberOf {r : Radix} (ds : List (Digit r)) : Nat :=
  Nat.ofDigits r.base (ds.map fun d => (d.value : Nat)).reverse

/-- An underscore may stand in the place of a digit. -/
def placeChar {r : Radix} : Option (Digit r) → Char
  | none => '_'
  | some d => d.char

structure LiteralSyntax where
  negative : Bool
  radix : Radix
  places : List (Option (Digit radix))
  suffix : List Char
  digits_ne_nil : places.reduceOption ≠ []
  number_le : (numberOf places.reduceOption : Int) ≤ Int64.maxValue.toInt
  suffix_letters : ∀ c ∈ suffix, c ∈ ['L', 'l', 'U', 'u']

namespace LiteralSyntax

theorem suffix_letters_nil : ∀ c ∈ ([] : List Char), c ∈ ['L', 'l', 'U', 'u'] :=
  List.forall_mem_nil _

def digits (l : LiteralSyntax) : List (Digit l.radix) := l.places.reduceOption

def sign (l : LiteralSyntax) : List Char := if l.negative then ['-'] else []

/-- What stands before the suffix. -/
def stem (l : LiteralSyntax) : List Char := l.sign ++ l.radix.mark ++ l.places.map placeChar

def text (l : LiteralSyntax) : List Char := l.stem ++ l.suffix

def value (l : LiteralSyntax) : Int :=
  if l.negative then -(numberOf l.digits : Int) else numberOf l.digits

end LiteralSyntax

/-! ## Terms -/

inductive OperandSyntax where
  | literal (l : LiteralSyntax)
  | shifted (l : LiteralSyntax) (before after : Gap) (shift : LiteralSyntax)
      (below : 0 ≤ shift.value ∧ shift.value < 64)

namespace OperandSyntax

def text : OperandSyntax → List Char
  | literal l => l.text
  | shifted l before after shift _ =>
    l.text ++ before.chars ++ '<' :: '<' :: (after.chars ++ shift.text)

/-- A word of 64 bits, in which a shift may lose the first bits. -/
def value : OperandSyntax → Int64
  | literal l => .ofInt l.value
  | shifted l _ _ shift _ => .ofInt (l.value * 2 ^ shift.value.toNat)

end OperandSyntax

inductive TermSyntax where
  | plain (o : OperandSyntax)
  | parens (before : Gap) (inner : TermSyntax) (after : Gap)

namespace TermSyntax

def text : TermSyntax → List Char
  | plain o => o.text
  | parens before inner after => '(' :: (before.chars ++ inner.text ++ after.chars ++ [')'])

/-- What is left without parentheses. -/
def operand : TermSyntax → OperandSyntax
  | plain o => o
  | parens _ inner _ => inner.operand

def value (t : TermSyntax) : Int64 := t.operand.value

end TermSyntax

/-! ## Masks -/

/-- A term with the blanks around it. -/
structure SpacedTerm where
  before : Gap
  term : TermSyntax
  after : Gap

def SpacedTerm.text (t : SpacedTerm) : List Char := t.before.chars ++ t.term.text ++ t.after.chars

/-- There is at least one term. -/
structure MaskSyntax where
  first : SpacedTerm
  more : List SpacedTerm

namespace MaskSyntax

def terms (m : MaskSyntax) : List SpacedTerm := m.first :: m.more

def text (m : MaskSyntax) : String :=
  String.ofList (['|'].intercalate (m.terms.map SpacedTerm.text))

/-- The bits that some term has. -/
def value (m : MaskSyntax) : Int64 := (m.terms.map fun t => t.term.value).foldl (· ||| ·) 0

end MaskSyntax

end NetSchema
