import NetSchema.Json.Basic
import NetSchema.Number.Binary
import NetSchema.Number.Int64

/-!
# What a JSON number means

A number written without point and exponent is an integer when it fits into 64 bits.  Every other
number is real: its leading digits that fit into 64 bits are taken as a whole number, and that is
multiplied or divided once by a power of ten, each step rounded.  A real number beyond the greatest
finite one is out of range.
-/

namespace NetSchema

inductive JsonNumber where
  | integer (i : Int)
  | real (x : Binary)
  deriving DecidableEq, Repr

/-- The greatest whole number that digits are gathered into. -/
def maxMantissa : Nat := UInt64.size - 1

/-- Appends digits to `mantissa` while the result fits; with the number of digits appended and of
those left over. -/
def absorbDigits (mantissa : Nat) : List Char → Nat × Nat × Nat
  | [] => (mantissa, 0, 0)
  | c :: digits =>
    let next := mantissa * 10 + (c.toNat - 48)
    if maxMantissa < next then (mantissa, 0, digits.length + 1)
    else
      let (m, taken, left) := absorbDigits next digits
      (m, taken + 1, left)

/-- `10 ^ n` as a number of 64 bits. -/
def power10 (n : Nat) : Binary := binary64.round false (Nat.pow 10 n) 1

/-- `x · 10 ^ exponent`, in steps of at most 308 powers; `none` beyond the greatest number. -/
def scalePower10? (x : Binary) (exponent : Int) : Option Binary :=
  if x.isZero then some x
  else if 308 < exponent then none
  else if 0 ≤ exponent then
    let y := binary64.mul x (power10 exponent.toNat)
    if y.isInfinite then none else some y
  else if -308 ≤ exponent then some (binary64.div x (power10 (-exponent).toNat))
  else scalePower10? (binary64.div x (power10 308)) (exponent + 308)
termination_by (-exponent).toNat

/-- The parts of a number's text. -/
structure NumberParts where
  negative : Bool
  whole : List Char
  fraction : Option (List Char)
  exponent : Option Int

/-- Takes the text of a number apart. -/
def numberParts (text : String) : NumberParts :=
  let (negative, s) := match text.toList with
    | '-' :: s => (true, s)
    | s => (false, s)
  let whole := s.takeWhile Char.isDigit
  let s := s.dropWhile Char.isDigit
  let (fraction, s) := match s with
    | '.' :: s => (some (s.takeWhile Char.isDigit), s.dropWhile Char.isDigit)
    | s => (none, s)
  let value (digits : List Char) : Int :=
    digits.foldl (fun n c => n * 10 + (c.toNat - 48 : Nat)) 0
  let exponent := match s with
    | _ :: '-' :: digits => some (-value digits)
    | _ :: '+' :: digits => some (value digits)
    | _ :: digits => some (value digits)
    | [] => none
  ⟨negative, whole, fraction, exponent⟩

/-- The real number that the parts write. -/
def NumberParts.real? (p : NumberParts) : Option Binary :=
  let (mantissa, _, extra) := absorbDigits 0 p.whole
  let (mantissa, shift, _) := absorbDigits mantissa (p.fraction.getD [])
  let written := p.exponent.getD 0
  let exponent := (extra : Int) - shift + written
  let x := binary64.round false mantissa 1
  let magnitude :=
    if Int32.maxValue.toInt < written then if mantissa = 0 then some x else none
    else if written ≤ Int32.minValue.toInt then some (binary64.round false 0 1)
    else scalePower10? x exponent
  magnitude.map fun y => if p.negative then y.negate else y

/-- The value of a number's text, `none` when it is out of range. -/
def JsonNumber.ofText? (text : String) : Option JsonNumber :=
  let p := numberParts text
  let (n, _, extra) := absorbDigits 0 p.whole
  if p.fraction.isNone && p.exponent.isNone && extra == 0 then
    if !p.negative then some (.integer n)
    else if n = 0 || (int64? (-n)).isNone then some (.real (binary64.round true n 1))
    else some (.integer (-n))
  else p.real?.map .real

end NetSchema
