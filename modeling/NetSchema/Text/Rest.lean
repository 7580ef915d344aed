/-!
# What is left of a text

A reader of a text returns what it has not read.  `Shorter s` is a rest of `s` after at least one
character was read, which is the reason why readers end.
-/

namespace NetSchema.Text

abbrev Shorter (s : List Char) := { rest : List Char // rest.length < s.length }

theorem length_dropWhile (p : Char → Bool) (s : List Char) : (s.dropWhile p).length ≤ s.length :=
  (List.dropWhile_sublist p).length_le

/-- Nothing is lost when a text is split after its leading characters in a class. -/
theorem length_takeWhile_add (p : Char → Bool) (s : List Char) :
    (s.takeWhile p).length + (s.dropWhile p).length = s.length := by
  rw [← List.length_append, List.takeWhile_append_dropWhile]

end NetSchema.Text
