/-!
# Cutting text into pieces

Splitting at a separator, taking the piece before the first or after the last one, and the
comparison that ignores the case of ASCII letters.
-/

namespace NetSchema.Text

/-- The pieces of `s` between the characters that satisfy `sep`; there is always at least one. -/
def splitAt (sep : Char → Bool) : List Char → List (List Char)
  | [] => [[]]
  | c :: s =>
    if sep c then [] :: splitAt sep s
    else
      match splitAt sep s with
      | [] => [[c]]
      | piece :: rest => (c :: piece) :: rest

/-- The text before the first `sep`, or all of it. -/
def beforeFirst (sep : Char) (s : List Char) : List Char :=
  s.takeWhile (· ≠ sep)

/-- The text after the last `sep`, or all of it. -/
def afterLast (sep : Char) (s : List Char) : List Char :=
  (s.reverse.takeWhile (· ≠ sep)).reverse

/-- The texts before and after the first occurrence of `pat`. -/
def splitOnce (pat : List Char) : List Char → Option (List Char × List Char)
  | [] => if pat.isEmpty then some ([], []) else none
  | c :: s =>
    match pat.isPrefixOf? (c :: s) with
    | some rest => some ([], rest)
    | none => (splitOnce pat s).map fun (before, after) => (c :: before, after)

theorem eq_append_of_isPrefixOf? {start s rest : List Char}
    (h : start.isPrefixOf? s = some rest) : s = start ++ rest := by
  induction start generalizing s with
  | nil => exact Option.some.inj h
  | cons a start ih =>
    cases s with
    | nil => exact nomatch h
    | cons b s =>
      change (if a == b then start.isPrefixOf? s else none) = some rest at h
      split at h
      · next hab => rw [ih h, eq_of_beq hab, List.cons_append]
      · exact nomatch h

theorem isSome_isPrefixOf? (start s : List Char) :
    (start.isPrefixOf? s).isSome ↔ start.isPrefixOf s := by
  induction start generalizing s with
  | nil => exact Iff.rfl
  | cons a start ih =>
    cases s with
    | nil => exact Iff.rfl
    | cons b s =>
      change (if a == b then start.isPrefixOf? s else none).isSome ↔
        (a == b && start.isPrefixOf s) = true
      cases a == b with
      | true => exact ih s
      | false => exact Iff.rfl

/-- `s` after `start`, if it begins with it. -/
def dropPrefix? (start s : String) : Option String :=
  (start.toList.isPrefixOf? s.toList).map String.ofList

/-- `s` before `ending`, if it ends with it. -/
def dropSuffix? (ending s : String) : Option String :=
  (ending.toList.isSuffixOf? s.toList).map String.ofList

def startsWith (start s : String) : Bool :=
  start.toList.isPrefixOf s.toList

def endsWith (ending s : String) : Bool :=
  ending.toList.isSuffixOf s.toList

/-- `s` with every `old` replaced by `new`. -/
def replaceChar (old new : Char) (s : String) : String :=
  String.ofList (s.toList.map fun c => if c = old then new else c)

/-- `s` without its leading characters equal to `c`. -/
def dropLeading (c : Char) (s : String) : String :=
  String.ofList (s.toList.dropWhile (· == c))

/-- Equal up to the case of ASCII letters. -/
def sameIgnoringCase (s t : String) : Bool :=
  s.toList.map Char.toLower == t.toList.map Char.toLower

end NetSchema.Text
