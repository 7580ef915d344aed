import NetSchema.Proofs.Class.MaskReading

/-!
# Reading printed masks

A mask is printed in decimal digits.  What is printed is a literal, and so are the digits of a
number in another base after the mark of that base, as long as the magnitude is one that a word can
hold; so it is read as the number that was printed.  The lowest word has a magnitude that no word
can hold, and it is not read.

* `Radix.map_char_digitsOf`, `Radix.numberOf_digitsOf`: the digits of a number;
* `LiteralSyntax.text_ofNat`, `LiteralSyntax.value_ofNat`: the literal that writes a number;
* `Radix.maskOfText?_spell`: a number is read as it is written in a base;
* `InterestMask.value?_printed`: which words are read as they are printed;
* `InterestMask.lowest_not_read`: the one that is not.
-/

namespace NetSchema

/-! ## Digits of a number -/

namespace Radix

theorem one_lt_base (r : Radix) : 1 < r.base := by
  cases r <;> decide +revert

variable (r : Radix) (capital : Bool)

/-- The digits that write a number, at least one of them and no more than it takes. -/
def digitsOf (n : Nat) : List (Digit r) :=
  if h : n < r.base then [⟨⟨n, h⟩, capital⟩]
  else
    digitsOf (n / r.base) ++
      [⟨⟨n % r.base, Nat.mod_lt n (Nat.zero_lt_of_lt r.one_lt_base)⟩, capital⟩]
termination_by n
decreasing_by
  have := r.one_lt_base
  exact Nat.div_lt_self (by omega) r.one_lt_base

/-- How a digit is printed. -/
def print (c : Char) : Char := if capital then c.toUpper else c

/-- A number as it is written in a base, after a sign and the mark of the base. -/
def spell (negative : Bool) (n : Nat) : String :=
  String.ofList ((if negative then ['-'] else []) ++ r.mark ++
    (Nat.toDigits r.base n).map (print capital))

theorem digitsOf_ne_nil (n : Nat) : r.digitsOf capital n ≠ [] := by
  rw [digitsOf]
  split <;> simp

theorem numberOf_digitsOf (n : Nat) : numberOf (r.digitsOf capital n) = n := by
  fun_induction digitsOf r capital n with
  | case1 n h => exact Nat.ofDigits_singleton
  | case2 n h ih =>
    rw [numberOf_concat, ih]
    exact Nat.div_add_mod' n r.base

theorem map_char_digitsOf (n : Nat) :
    (r.digitsOf capital n).map Digit.char = (Nat.toDigits r.base n).map (print capital) := by
  fun_induction digitsOf r capital n with
  | case1 n h =>
    rw [Nat.toDigits_of_lt_base h]
    rfl
  | case2 n h ih =>
    rw [Nat.toDigits_of_base_le r.one_lt_base (Nat.le_of_not_lt h), List.map_append,
      List.map_append, ih]
    rfl

end Radix

/-! ## Literals that write a number -/

namespace LiteralSyntax

/-- A mask that is one literal. -/
def mask (l : LiteralSyntax) : MaskSyntax := ⟨⟨.empty, .plain (.literal l), .empty⟩, []⟩

theorem text_mask (l : LiteralSyntax) : l.mask.text = String.ofList l.text := by
  have hterm : l.mask.first.text = l.text := List.append_nil l.text
  rw [MaskSyntax.text, MaskSyntax.terms, mask, List.map_singleton]
  exact congrArg String.ofList ((List.intercalate_singleton ..).trans hterm)

theorem value_mask (l : LiteralSyntax) : l.mask.value = .ofInt l.value := Int64.zero_or

theorem reduceOption_map_some {r : Radix} (ds : List (Digit r)) :
    (ds.map some).reduceOption = ds := by
  rw [List.reduceOption, List.filterMap_map]
  exact List.filterMap_some

/-- The literal that writes `n` in a base, without a suffix. -/
def ofNat (negative : Bool) (r : Radix) (capital : Bool) (n : Nat)
    (h : (n : Int) ≤ Int64.maxValue.toInt) : LiteralSyntax where
  negative
  radix := r
  places := (r.digitsOf capital n).map some
  suffix := []
  digits_ne_nil := by
    rw [reduceOption_map_some]
    exact r.digitsOf_ne_nil capital n
  number_le := by
    rw [reduceOption_map_some, r.numberOf_digitsOf]
    exact h
  suffix_letters := suffix_letters_nil

theorem value_ofNat {negative : Bool} {r : Radix} {capital : Bool} {n : Nat}
    (h : (n : Int) ≤ Int64.maxValue.toInt) :
    (ofNat negative r capital n h).value = if negative then -(n : Int) else n := by
  have hnumber : numberOf (ofNat negative r capital n h).digits = n := by
    rw [digits, ofNat, reduceOption_map_some, r.numberOf_digitsOf]
  rw [value, hnumber]
  rfl

theorem text_ofNat {negative : Bool} {r : Radix} {capital : Bool} {n : Nat}
    (h : (n : Int) ≤ Int64.maxValue.toInt) :
    String.ofList (ofNat negative r capital n h).text = r.spell capital negative n := by
  have hplaces : ((r.digitsOf capital n).map some).map placeChar =
      (Nat.toDigits r.base n).map (Radix.print capital) := by
    rw [List.map_map, ← r.map_char_digitsOf]
    rfl
  rw [text, stem, ofNat, List.append_nil, hplaces]
  rfl

end LiteralSyntax

/-- A magnitude that a word can hold is read as it is written, with its sign. -/
theorem Radix.maskOfText?_spell (r : Radix) (capital negative : Bool) {n : Nat}
    (h : (n : Int) ≤ Int64.maxValue.toInt) :
    maskOfText? (r.spell capital negative n) =
      some (.ofInt (if negative then -(n : Int) else n)) := by
  have hl := (LiteralSyntax.ofNat negative r capital n h).mask.maskOfText?_text
  rwa [LiteralSyntax.text_mask, LiteralSyntax.text_ofNat, LiteralSyntax.value_mask,
    LiteralSyntax.value_ofNat] at hl

/-! ## Printed masks -/

namespace InterestMask

theorem text_explicit (v : Int64) :
    (explicit v).text = Radix.decimal.spell false (v.toInt < 0) v.toInt.natAbs := by
  have hprint : ∀ s : List Char, s.map (Radix.print false) = s := fun s => s.map_id
  rw [text, Int.toString_eq_repr, Int.repr_eq_if, Radix.spell, hprint, ← String.toList_inj,
    String.toList_ofList]
  by_cases h : v.toInt < 0
  · have habs : (-v.toInt).toNat = v.toInt.natAbs := by omega
    rw [if_neg (by omega), if_pos (decide_eq_true h), String.toList_append, Nat.toList_repr, habs]
    rfl
  · have habs : v.toInt.toNat = v.toInt.natAbs := by omega
    rw [if_pos (by omega), if_neg (by simpa using h), Nat.toList_repr, habs]
    rfl

/-- A magnitude with its sign. -/
theorem signed_natAbs (i : Int) : (if decide (i < 0) then -(i.natAbs : Int) else i.natAbs) = i := by
  by_cases h : i < 0
  · rw [if_pos (decide_eq_true h)]
    omega
  · rw [if_neg (by simpa using h)]
    omega

theorem natAbs_le_of_ne {v : Int64} (h : v ≠ Int64.minValue) :
    (v.toInt.natAbs : Int) ≤ Int64.maxValue.toInt := by
  have hne : v.toInt ≠ Int64.minValue.toInt := fun he => h (Int64.toInt_inj.mp he)
  have hmin := v.minValue_le_toInt
  have hmax := v.toInt_le
  rw [Int64.toInt_minValue] at hne hmin
  rw [Int64.toInt_maxValue] at hmax ⊢
  omega

theorem maskOfText?_lowest : maskOfText? (explicit Int64.minValue).text = none := by
  with_unfolding_all decide

theorem maskOfText?_explicit {v : Int64} (h : v ≠ Int64.minValue) :
    maskOfText? (explicit v).text = some v := by
  rw [text_explicit, Radix.maskOfText?_spell _ _ _ (natAbs_le_of_ne h), signed_natAbs,
    Int64.ofInt_toInt]

/-- **Printing and reading.**  A word is read as it is printed, unless it is the lowest one, which
is not read at all.  A word that is not negative is also read in each base as it is written in it. -/
theorem value?_printed (v : Int64) :
    ((defaultLiteral (explicit v).text).value? = if v = Int64.minValue then none else some v) ∧
      (0 ≤ v → ∀ (r : Radix) (capital : Bool),
        (defaultLiteral (r.spell capital false v.toInt.natAbs)).value? = some v) := by
  refine ⟨?_, fun hv r capital => ?_⟩
  · split
    · next h => exact h ▸ maskOfText?_lowest
    · next h => exact maskOfText?_explicit h
  · have hpos : 0 ≤ v.toInt := Int64.le_iff_toInt_le.mp hv
    have hnat : (v.toInt.natAbs : Int) = v.toInt := Int.natAbs_of_nonneg hpos
    have hle : (v.toInt.natAbs : Int) ≤ Int64.maxValue.toInt := hnat ▸ v.toInt_le
    rw [value?, Radix.maskOfText?_spell r capital false hle, if_neg Bool.false_ne_true, hnat,
      Int64.ofInt_toInt]

/-- The lowest word is not read as it is printed. -/
theorem lowest_not_read :
    (explicit Int64.minValue).text = "-9223372036854775808" ∧
      (defaultLiteral (explicit Int64.minValue).text).value? = none :=
  ⟨by with_unfolding_all rfl, maskOfText?_lowest⟩

/-- All bits but the sign are read as they are written in base sixteen. -/
theorem highest_read :
    (0 : Int64) ≤ Int64.maxValue ∧
      (defaultLiteral ((Radix.hexadecimal false).spell false false
        Int64.maxValue.toInt.natAbs)).value? = some Int64.maxValue := by
  have hpos : (0 : Int64) ≤ Int64.maxValue := by decide
  exact ⟨hpos, (value?_printed Int64.maxValue).2 hpos (.hexadecimal false) false⟩

end InterestMask

end NetSchema
