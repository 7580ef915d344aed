import NetSchema.Number.Int64
import NetSchema.Text.Blank
import NetSchema.Text.Pieces
import NetSchema.Wire.Basic

/-!
# Interest masks

A mask is a 64-bit number given as an argument, or the text of an initializer.  `maskOfText?`
evaluates the texts that are made of integer literals: terms joined by `|`, each a literal or one
literal shifted left by another, possibly in parentheses.
-/

namespace NetSchema

inductive InterestMask where
  | explicit (v : Int64)
  | defaultLiteral (text : String)
  deriving DecidableEq, Repr

/-- The value of `c` as a digit of `base`. -/
def digitOf? (base : Nat) (c : Char) : Option Nat :=
  let n := c.toNat
  let d :=
    if '0' ≤ c && c ≤ '9' then n - 48
    else if 'a' ≤ c && c ≤ 'z' then n - 87
    else if 'A' ≤ c && c ≤ 'Z' then n - 55
    else base
  if d < base then some d else none

/-- The number that digits of `base` write, at least one of them. -/
def naturalOf? (base : Nat) (digits : List Char) : Option Nat :=
  if digits.isEmpty then none
  else digits.foldlM (fun n c => (digitOf? base c).map (n * base + ·)) 0

/-- A number of 64 bits in `base`, possibly after a sign. -/
def signedOf? (base : Nat) : List Char → Option Int64
  | '-' :: digits => (naturalOf? base digits).bind fun n => int64? (-(n : Int))
  | '+' :: digits | digits => (naturalOf? base digits).bind fun n => int64? n

/-- Letters that may follow a literal. -/
def isLiteralSuffix (c : Char) : Bool := c == 'L' || c == 'l' || c == 'U' || c == 'u'

/-- The digits of a literal with its prefix, in the base that the prefix names. -/
def prefixedOf? : List Char → Option Int64
  | '0' :: 'x' :: digits | '0' :: 'X' :: digits => signedOf? 16 digits
  | '0' :: 'b' :: digits | '0' :: 'B' :: digits => signedOf? 2 digits
  | digits => signedOf? 10 digits

/-- The value of a literal: a sign, a prefix, digits with underscores anywhere, suffix letters. -/
def literalOf? (text : List Char) : Option Int64 :=
  let text := (Text.dropRightWhile isLiteralSuffix (Text.trimChars text)).filter (· ≠ '_')
  match text with
  | '-' :: digits => (prefixedOf? digits).map fun v => -v
  | digits => prefixedOf? digits

/-- What stands between parentheses that enclose the whole text. -/
def insideParens? (text : List Char) : Option (List Char) :=
  match text with
  | '(' :: rest => [')'].isSuffixOf? rest
  | _ => none

theorem insideParens_length {text inner : List Char} (h : insideParens? text = some inner) :
    inner.length < text.length := by
  unfold insideParens? at h
  split at h
  · next rest =>
    obtain ⟨r, hr, rfl⟩ := Option.map_eq_some_iff.1 h
    have := congrArg List.length (Text.eq_append_of_isPrefixOf? hr)
    simp at this ⊢
    omega
  · simp at h

/-- The text without enclosing parentheses and the blanks inside them. -/
def stripParens (text : List Char) : List Char :=
  match h : insideParens? text with
  | some inner =>
    have := insideParens_length h
    have := Text.trimChars_length inner
    stripParens (Text.trimChars inner)
  | none => text
termination_by text.length

/-- A term: a literal, or a literal shifted left by another one below 64. -/
def maskTermOf? (text : List Char) : Option Int64 :=
  let term := stripParens (Text.trimChars text)
  match Text.splitOnce ['<', '<'] term with
  | some (lhs, rhs) => do
    let shift ← literalOf? rhs
    let value ← literalOf? lhs
    if 0 ≤ shift && shift < 64 then return value <<< shift else none
  | none => literalOf? term

/-- The mask that an initializer text writes, if it is made of literals only. -/
def maskOfText? (text : String) : Option Int64 :=
  (Text.splitAt (· == '|') text.toList).foldlM
    (fun mask term => (maskTermOf? term).map (mask ||| ·)) 0

namespace InterestMask

def value? : InterestMask → Option Int64
  | explicit v => some v
  | defaultLiteral text => maskOfText? text

def text : InterestMask → String
  | explicit v => toString v.toInt
  | defaultLiteral text => text

end InterestMask

end NetSchema
