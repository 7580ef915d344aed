import NetSchema.Number.Binary

/-!
# The fewest digits that read back

Every number of a binary format stands for the reals that round to it.  `shortest` looks for the
least count of decimal digits for which such a real can be written, and takes of those reals the
one nearest to the number itself.
-/

namespace NetSchema

/-- The number `digits · 10 ^ exponent`. -/
structure Decimal where
  digits : Nat
  exponent : Int
  deriving DecidableEq, Repr

/-- Which of two decimals is written when the number lies half-way between them. -/
inductive TieRule where
  | up
  | even
  deriving DecidableEq, Repr

/-- The greatest `k` with `10 ^ k ≤ num / den`, for a quotient above zero. -/
def floorLog10 (num den : Nat) : Int :=
  let k := (digitCount num : Int) - digitCount den
  if den * Nat.pow 10 k.toNat ≤ num * Nat.pow 10 (-k).toNat then k else k - 1

/-- `d` without its trailing zeros; `fuel` bounds how many are dropped. -/
def Decimal.normalize (d : Decimal) : Nat → Decimal
  | 0 => d
  | fuel + 1 =>
    if d.digits % 10 = 0 then Decimal.normalize ⟨d.digits / 10, d.exponent + 1⟩ fuel else d

namespace BinaryFormat

/-- The multiple of `10 ^ k` nearest to `m · 2 ^ e` among those that round to that number. -/
def onGrid? (f : BinaryFormat) (tie : TieRule) (m : Nat) (e : Int) (k : Int) : Option Nat :=
  let scale := Nat.pow 2 (e - 2).toNat * Nat.pow 10 (-k).toNat
  let step := Nat.pow 10 k.toNat * Nat.pow 2 (2 - e).toNat
  let value := 4 * m * scale
  let below := if m = Nat.pow 2 (f.precision - 1) && f.leastExponent < e then 1 else 2
  let low := (4 * m - below) * scale
  let high := (4 * m + 2) * scale
  let inside (x : Nat) : Bool :=
    if m % 2 = 0 then low ≤ x && x ≤ high else low < x && x < high
  let c := value / step
  let lower := c != 0 && inside (c * step)
  let upper := inside ((c + 1) * step)
  if lower && upper then
    let down := value - c * step
    let up := (c + 1) * step - value
    if down < up then some c
    else if up < down then some (c + 1)
    else
      match tie with
      | .up => some (c + 1)
      | .even => some (if c % 2 = 0 then c else c + 1)
  else if lower then some c
  else if upper then some (c + 1)
  else none

/-- The first hit on the grids of `n`, `n + 1`, … digits, of `fuel` grids at most. -/
def searchGrids (f : BinaryFormat) (tie : TieRule) (m : Nat) (e top : Int) (n : Nat) :
    Nat → Decimal
  | 0 => ⟨m, e⟩
  | fuel + 1 =>
    match f.onGrid? tie m e (top + 1 - n) with
    | some d => ⟨d, top + 1 - n⟩
    | none => searchGrids f tie m e top (n + 1) fuel

/-- The shortest decimal that rounds to `m · 2 ^ e`, for `m` above zero.  Seventeen digits are
always enough. -/
def shortest (f : BinaryFormat) (tie : TieRule) (m : Nat) (e : Int) : Decimal :=
  let top := floorLog10 (m * Nat.pow 2 e.toNat) (Nat.pow 2 (-e).toNat)
  (f.searchGrids tie m e top 1 17).normalize 20

end BinaryFormat

end NetSchema
