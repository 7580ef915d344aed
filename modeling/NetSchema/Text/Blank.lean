/-!
# Blank characters

`isBlank` is the Unicode property White_Space.  `trim` removes blanks from both ends of a text and
nothing else.
-/

namespace NetSchema.Text

/-- The property White_Space, all 25 characters of it. -/
def isBlank (c : Char) : Bool :=
  let n := c.toNat
  (9 ≤ n && n ≤ 13) || n == 32 || n == 0x85 || n == 0xa0 || n == 0x1680 ||
    (0x2000 ≤ n && n ≤ 0x200a) || n == 0x2028 || n == 0x2029 || n == 0x202f || n == 0x205f ||
    n == 0x3000

/-- `s` without the trailing characters that satisfy `p`. -/
def dropRightWhile (p : Char → Bool) (s : List Char) : List Char :=
  (s.reverse.dropWhile p).reverse

/-- `s` without the blanks at its two ends. -/
def trimChars (s : List Char) : List Char :=
  dropRightWhile isBlank (s.dropWhile isBlank)

/-- `s` without the blanks at its two ends. -/
def trim (s : String) : String :=
  String.ofList (trimChars s.toList)

theorem dropRightWhile_length (p : Char → Bool) (s : List Char) :
    (dropRightWhile p s).length ≤ s.length := by
  have h := (List.dropWhile_sublist p (l := s.reverse)).length_le
  simpa [dropRightWhile] using h

theorem trimChars_length (s : List Char) : (trimChars s).length ≤ s.length :=
  Nat.le_trans (dropRightWhile_length _ _) (List.dropWhile_sublist _).length_le

end NetSchema.Text
