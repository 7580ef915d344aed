import NetSchema.Text.LetterRanges
import NetSchema.Text.UnprintableRanges
import NetSchema.Text.CombiningRanges

/-!
# Character classes

Membership in the Unicode classes that the formats of this library depend on.  ASCII characters are
decided without the tables, which start above them.
-/

namespace NetSchema.Text

def inRanges (ranges : List (Nat × Nat)) (c : Char) : Bool :=
  ranges.any fun (first, last) => first ≤ c.toNat && c.toNat ≤ last

/-- Letters and numbers of every script. -/
def isLetterOrNumber (c : Char) : Bool :=
  if c.toNat < 0x80 then c.isAlphanum else inRanges letterRanges c

/-- Marks that extend the grapheme before them. -/
def isCombining (c : Char) : Bool :=
  0x80 ≤ c.toNat && inRanges combiningRanges c

/-- Characters that have a glyph of their own, and the ASCII space. -/
def isPrintable (c : Char) : Bool :=
  if c.toNat < 0x80 then 0x20 ≤ c.toNat && c.toNat < 0x7f else !inRanges unprintableRanges c

end NetSchema.Text
