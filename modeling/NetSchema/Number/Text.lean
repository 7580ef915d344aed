import NetSchema.Number.Shortest

/-!
# Numbers as text

Two ways to write a binary number with the fewest digits that read back: `plainText` never uses an
exponent and writes whole numbers without a point, for messages; `jsonText` always has a point or
an exponent, for documents.
-/

namespace NetSchema

def zeros (n : Nat) : List Char := List.replicate n '0'

/-- The decimal without an exponent.  A whole number ends in `whole`. -/
def Decimal.positional (d : Decimal) (whole : List Char) : List Char :=
  let ds := Nat.toDigits 10 d.digits
  let point := (ds.length : Int) + d.exponent
  if 0 ≤ d.exponent then ds ++ zeros d.exponent.toNat ++ whole
  else if 0 < point then ds.take point.toNat ++ '.' :: ds.drop point.toNat
  else '0' :: '.' :: zeros (-point).toNat ++ ds

/-- The decimal with one digit before the point and an exponent, which always has a sign. -/
def Decimal.scientific (d : Decimal) : List Char :=
  let ds := Nat.toDigits 10 d.digits
  let exponent := (ds.length : Int) + d.exponent - 1
  let mantissa := match ds with
    | first :: [] => [first]
    | first :: rest => first :: '.' :: rest
    | [] => []
  mantissa ++ 'e' :: (if exponent < 0 then '-' else '+') :: Nat.toDigits 10 exponent.natAbs

/-- When a document writes a number without an exponent: its point stands after more than `least`
and at most `greatest` digits. -/
structure PointRange where
  least : Int
  greatest : Int

def jsonPoint32 : PointRange := ⟨-6, 13⟩
def jsonPoint64 : PointRange := ⟨-5, 16⟩

namespace Binary

def sign (negative : Bool) : List Char := if negative then ['-'] else []

/-- Fewest digits, no exponent, no point in a whole number. -/
def plainText (f : BinaryFormat) : Binary → String
  | finite s m e =>
    String.ofList (sign s ++
      if m = 0 then ['0'] else (f.shortest .up m e).positional [])
  | infinite s => String.ofList (sign s ++ ['i', 'n', 'f'])

/-- Fewest digits, with a point or an exponent; `none` for an infinite number. -/
def jsonText? (f : BinaryFormat) (range : PointRange) : Binary → Option String
  | finite s m e =>
    let body :=
      if m = 0 then ['0', '.', '0']
      else
        let d := f.shortest .even m e
        let point := (digitCount d.digits : Int) + d.exponent
        if range.least < point && point ≤ range.greatest then d.positional ['.', '0']
        else d.scientific
    some (String.ofList (sign s ++ body))
  | infinite _ => none

end Binary

end NetSchema
