/-!
# Binary floating-point numbers

The finite numbers `± mantissa · 2 ^ exponent` of a format with a fixed precision and a bounded
exponent, and the two infinities.  `round` takes a quotient of naturals to the nearest number of
the format, a tie to the even mantissa.
-/

namespace NetSchema

/-- Bits of the mantissa, and the exponents of the least and the greatest unit. -/
structure BinaryFormat where
  precision : Nat
  leastExponent : Int
  greatestExponent : Int
  deriving DecidableEq, Repr

/-- Numbers of 32 bits. -/
def binary32 : BinaryFormat := ⟨24, -149, 104⟩

/-- Numbers of 64 bits. -/
def binary64 : BinaryFormat := ⟨53, -1074, 971⟩

inductive Binary where
  | finite (negative : Bool) (mantissa : Nat) (exponent : Int)
  | infinite (negative : Bool)
  deriving DecidableEq, Repr

/-- How many decimal digits `n` has. -/
def digitCount (n : Nat) : Nat := (Nat.toDigits 10 n).length

/-- `num / den` to the nearest natural, a tie to the even one. -/
def roundedQuotient (num den : Nat) : Nat :=
  let q := num / den
  let r := num % den
  if den < 2 * r || (2 * r == den && q % 2 == 1) then q + 1 else q

/-- Numerator and denominator of `num / (den · 2 ^ e)`. -/
def scaleDown (num den : Nat) (e : Int) : Nat × Nat :=
  (num * Nat.pow 2 (-e).toNat, den * Nat.pow 2 e.toNat)

/-- The greatest `e` with `2 ^ e ≤ num / den`. -/
def floorLog2 (num den : Nat) : Int :=
  let e := (num.log2 : Int) - den.log2
  let (n, d) := scaleDown num den e
  if d ≤ n then e else e - 1

namespace BinaryFormat

/-- The number of the format nearest to `± num / den`. -/
def round (f : BinaryFormat) (negative : Bool) (num den : Nat) : Binary :=
  if num = 0 then .finite negative 0 f.leastExponent
  else
    let e := max f.leastExponent (floorLog2 num den + 1 - f.precision)
    let (n, d) := scaleDown num den e
    let m := roundedQuotient n d
    let (m, e) := if m = Nat.pow 2 f.precision then (Nat.pow 2 (f.precision - 1), e + 1) else (m, e)
    if f.greatestExponent < e then .infinite negative else .finite negative m e

/-- The number nearest to `± digits · 10 ^ exponent`.  As `10` lies above `2 ^ 3`, numbers far out
of the range of the format are told by the place of their first digit. -/
def ofDecimal (f : BinaryFormat) (negative : Bool) (digits : Nat) (exponent : Int) : Binary :=
  let top := digitCount digits + exponent
  if digits = 0 || 3 * top < f.leastExponent then .finite negative 0 f.leastExponent
  else if f.greatestExponent + f.precision ≤ 3 * (top - 1) then .infinite negative
  else f.round negative (digits * Nat.pow 10 exponent.toNat) (Nat.pow 10 (-exponent).toNat)

/-- The number nearest to an integer. -/
def ofInt (f : BinaryFormat) (i : Int) : Binary :=
  f.round (i < 0) i.natAbs 1

/-- Product, rounded. -/
def mul (f : BinaryFormat) : Binary → Binary → Binary
  | .finite s m e, .finite s' m' e' =>
    f.round (s != s') (m * m' * Nat.pow 2 (e + e').toNat) (Nat.pow 2 (-(e + e')).toNat)
  | .finite s _ _, .infinite s' | .infinite s, .finite s' _ _ | .infinite s, .infinite s' =>
    .infinite (s != s')

/-- Quotient by a number other than zero, rounded. -/
def div (f : BinaryFormat) : Binary → Binary → Binary
  | .finite s m e, .finite s' m' e' =>
    f.round (s != s') (m * Nat.pow 2 (e - e').toNat) (m' * Nat.pow 2 (e' - e).toNat)
  | .finite s _ _, .infinite s' => .finite (s != s') 0 f.leastExponent
  | .infinite s, .finite s' _ _ | .infinite s, .infinite s' => .infinite (s != s')

end BinaryFormat

namespace Binary

def isInfinite : Binary → Bool
  | finite .. => false
  | infinite _ => true

def isZero : Binary → Bool
  | finite _ m _ => m == 0
  | infinite _ => false

def negate : Binary → Binary
  | finite s m e => .finite (!s) m e
  | infinite s => .infinite (!s)

end Binary

end NetSchema
