import NetSchema.Json.Basic
import NetSchema.Text.Pieces
import NetSchema.Text.Rest

/-!
# Reading JSON

A strict reader: no comments, no trailing commas, no raw control characters, nothing after the
document.  Each scanner returns what is left of the text together with the proof that it is
shorter, which is why reading ends.
-/

namespace NetSchema.Json

open Text (Shorter length_dropWhile)

def isJsonBlank (c : Char) : Bool := c == ' ' || c == '\n' || c == '\t' || c == '\r'

def skipBlanks (s : List Char) : List Char := s.dropWhile isJsonBlank

/-! ## Strings -/

def hexValue? (c : Char) : Option Nat :=
  if '0' ≤ c && c ≤ '9' then some (c.toNat - 48)
  else if 'a' ≤ c && c ≤ 'f' then some (c.toNat - 87)
  else if 'A' ≤ c && c ≤ 'F' then some (c.toNat - 55)
  else none

def hexValue4? (a b c d : Char) : Option Nat := do
  return ((← hexValue? a) * 16 + (← hexValue? b)) * 256 + ((← hexValue? c) * 16 + (← hexValue? d))

/-- The character that a backslash and `c` stand for. -/
def simpleEscape? (c : Char) : Option Char :=
  match c with
  | '"' => some '"'
  | '\\' => some '\\'
  | '/' => some '/'
  | 'b' => some '\x08'
  | 'f' => some '\x0c'
  | 'n' => some '\n'
  | 'r' => some '\r'
  | 't' => some '\t'
  | _ => none

/-- The code points of a string up to its closing quote, halves of surrogate pairs apart, and the
text after the quote. -/
def stringUnits : List Char → Except JsonError (List Nat × List Char)
  | [] => .error .unexpectedEnd
  | '"' :: rest => .ok ([], rest)
  | '\\' :: 'u' :: a :: b :: c :: d :: rest =>
    match hexValue4? a b c d, stringUnits rest with
    | some unit, .ok (units, rest) => .ok (unit :: units, rest)
    | none, _ => .error .badEscape
    | _, .error e => .error e
  | '\\' :: c :: rest =>
    match simpleEscape? c, stringUnits rest with
    | some e, .ok (units, rest) => .ok (e.toNat :: units, rest)
    | none, _ => .error .badEscape
    | _, .error e => .error e
  | c :: rest =>
    if c.toNat < 0x20 || c == '\\' then .error (.unexpectedCharacter c)
    else
      match stringUnits rest with
      | .ok (units, rest) => .ok (c.toNat :: units, rest)
      | .error e => .error e

/-- Joins the halves of surrogate pairs; `none` where a half stands alone. -/
def joinSurrogates : List Nat → Option (List Char)
  | [] => some []
  | [u] => if 0xd800 ≤ u && u < 0xe000 then none else some [Char.ofNat u]
  | u :: v :: units =>
    if 0xd800 ≤ u && u < 0xdc00 then
      if 0xdc00 ≤ v && v < 0xe000 then
        (joinSurrogates units).map
          (Char.ofNat (0x10000 + (u - 0xd800) * 0x400 + (v - 0xdc00)) :: ·)
      else none
    else if 0xdc00 ≤ u && u < 0xe000 then none
    else (joinSurrogates (v :: units)).map (Char.ofNat u :: ·)

theorem stringUnits_length {s rest : List Char} {units : List Nat}
    (h : stringUnits s = .ok (units, rest)) : rest.length < s.length := by
  fun_induction stringUnits s generalizing units rest with
  | case1 => simp at h
  | case2 => simp at h; simp [h.2]
  | case3 _ _ _ _ _ _ _ _ hs _ ih =>
    have hl := ih hs
    simp at h
    simp [← h.2]; omega
  | case4 => simp at h
  | case5 => simp at h
  | case6 _ _ _ _ _ _ hs _ ih =>
    have hl := ih hs
    simp at h
    simp [← h.2]; omega
  | case7 => simp at h
  | case8 => simp at h
  | case9 => simp at h
  | case10 _ _ _ _ _ _ _ _ hs ih =>
    have hl := ih hs
    simp at h
    simp [← h.2]; omega
  | case11 => simp at h

/-! ## Numbers -/

/-- Digits at the start of `s`, at least one. -/
def someDigits? (s : List Char) : Option (List Char × List Char) :=
  if (s.takeWhile Char.isDigit).isEmpty then none
  else some (s.takeWhile Char.isDigit, s.dropWhile Char.isDigit)

theorem someDigits_length {s digits rest : List Char} (h : someDigits? s = some (digits, rest)) :
    rest.length < s.length := by
  unfold someDigits? at h
  split at h
  · simp at h
  · next hd =>
    simp at h
    have hl := congrArg List.length (List.takeWhile_append_dropWhile (p := Char.isDigit) (l := s))
    have hp : 0 < (s.takeWhile Char.isDigit).length :=
      List.length_pos_iff.2 fun he => hd (by simp [he])
    rw [List.length_append] at hl
    rw [← h.2]
    omega

/-- The digits before the point: a zero alone, or no zero first. -/
def wholePart? (s : List Char) : Option (List Char × List Char) :=
  match someDigits? s with
  | some (['0'], rest) => some (['0'], rest)
  | some ('0' :: _, _) => none
  | found => found

/-- The point and the digits after it, where there is one. -/
def fractionPart? : List Char → Option (List Char × List Char)
  | '.' :: s => (someDigits? s).map fun (digits, rest) => ('.' :: digits, rest)
  | s => some ([], s)

def exponentSign : List Char → List Char × List Char
  | '+' :: s => (['+'], s)
  | '-' :: s => (['-'], s)
  | s => ([], s)

/-- The exponent, where there is one. -/
def exponentPart? : List Char → Option (List Char × List Char)
  | [] => some ([], [])
  | c :: s =>
    if c == 'e' || c == 'E' then
      let (sign, s) := exponentSign s
      (someDigits? s).map fun (digits, rest) => (c :: sign ++ digits, rest)
    else some ([], c :: s)

/-- The text of an unsigned number at the start of `s`. -/
def unsigned? (s : List Char) : Option (List Char × List Char) := do
  let (whole, s) ← wholePart? s
  let (fraction, s) ← fractionPart? s
  let (exponent, s) ← exponentPart? s
  return (whole ++ fraction ++ exponent, s)

theorem wholePart_length {s digits rest : List Char} (h : wholePart? s = some (digits, rest)) :
    rest.length < s.length := by
  unfold wholePart? at h
  split at h
  · next he => simp at h; obtain ⟨rfl, rfl⟩ := h; exact someDigits_length he
  · simp at h
  · exact someDigits_length h

theorem fractionPart_length {s digits rest : List Char}
    (h : fractionPart? s = some (digits, rest)) : rest.length ≤ s.length := by
  unfold fractionPart? at h
  split at h
  · next s =>
    rw [Option.map_eq_some_iff] at h
    obtain ⟨⟨ds, r⟩, hd, he⟩ := h
    have hl := someDigits_length hd
    simp at he
    simp [← he.2]; omega
  · simp at h; simp [h.2]

theorem exponentSign_length (s : List Char) : (exponentSign s).2.length ≤ s.length := by
  unfold exponentSign; split <;> simp

theorem exponentPart_length {s digits rest : List Char}
    (h : exponentPart? s = some (digits, rest)) : rest.length ≤ s.length := by
  unfold exponentPart? at h
  split at h
  · simp at h; simp [h.2]
  · next c s =>
    split at h
    · rw [Option.map_eq_some_iff] at h
      obtain ⟨⟨ds, r⟩, hd, he⟩ := h
      have hl := someDigits_length hd
      have hs := exponentSign_length s
      simp at he
      simp [← he.2]; omega
    · simp at h; simp [← h.2]

theorem unsigned_length {s text rest : List Char} (h : unsigned? s = some (text, rest)) :
    rest.length < s.length := by
  simp only [unsigned?, Option.bind_eq_bind, Option.bind_eq_some_iff, Prod.exists, Option.pure_def,
    Option.some.injEq, Prod.mk.injEq] at h
  obtain ⟨_, _, hw, _, _, hf, _, _, he, _, rfl⟩ := h
  have := wholePart_length hw
  have := fractionPart_length hf
  have := exponentPart_length he
  omega

/-! ## Values -/

/-- The value of the fixed word `a :: text`, if `s` begins with it. -/
def word (a : Char) (text : List Char) (value : Json) (s : List Char) :
    Except JsonError (Json × Shorter s) :=
  match hp : (a :: text).isPrefixOf? s with
  | some rest => .ok (value, ⟨rest, by
      have := congrArg List.length (Text.eq_append_of_isPrefixOf? hp)
      simp at this; omega⟩)
  | none => .error (match s with
    | [] => .unexpectedEnd
    | c :: _ => .unexpectedCharacter c)

/-- A string, with its quote already read. -/
def stringAfterQuote (s : List Char) : Except JsonError (Option String × Shorter s) :=
  match h : stringUnits s with
  | .ok (units, rest) =>
    .ok ((joinSurrogates units).map String.ofList, ⟨rest, stringUnits_length h⟩)
  | .error e => .error e

def numberAt (s : List Char) : Except JsonError (Json × Shorter s) :=
  match s with
  | '-' :: s =>
    match h : unsigned? s with
    | some (text, rest) =>
      .ok (.number (String.ofList ('-' :: text)), ⟨rest, by
        have := unsigned_length h; simp; omega⟩)
    | none => .error .badNumber
  | s =>
    match h : unsigned? s with
    | some (text, rest) => .ok (.number (String.ofList text), ⟨rest, unsigned_length h⟩)
    | none => .error .badNumber

/-- The separator or the closing bracket after an item. -/
inductive After (s : List Char) where
  | more (rest : Shorter s)
  | closed (rest : Shorter s)

def afterItem (close : Char) (s : List Char) : Except JsonError (After s) :=
  match h : skipBlanks s with
  | [] => .error .unexpectedEnd
  | c :: rest =>
    have hl : rest.length < s.length := by
      have := length_dropWhile isJsonBlank s
      rw [← skipBlanks, h] at this
      simp at this; omega
    if c == ',' then .ok (.more ⟨rest, hl⟩)
    else if c == close then .ok (.closed ⟨rest, hl⟩)
    else .error (.unexpectedCharacter c)

/-- The character after blanks, if it is `c`. -/
def expectChar (c : Char) (s : List Char) : Except JsonError (Shorter s) :=
  match h : skipBlanks s with
  | [] => .error .unexpectedEnd
  | d :: rest =>
    if d == c then .ok ⟨rest, by
      have := length_dropWhile isJsonBlank s
      rw [← skipBlanks, h] at this
      simp at this; omega⟩
    else .error (.unexpectedCharacter d)

/-- What follows the bracket that closes an empty array or object. -/
def closedAt (close : Char) (s : List Char) : Option (Shorter s) :=
  (expectChar close s).toOption

/-- An object as a value, unless one of its keys cannot be used. -/
def objectOf (members : List (Option String × Json)) : Json :=
  match members.mapM fun (key, j) => key.map fun k => (k, j) with
  | some ms => .object ms
  | none => .broken

mutual

def valueAt (s : List Char) : Except JsonError (Json × Shorter s) :=
  match h : skipBlanks s with
  | [] => .error .unexpectedEnd
  | c :: rest =>
    have hl : rest.length < s.length := by
      have := length_dropWhile isJsonBlank s
      rw [← skipBlanks, h] at this
      simp at this; omega
    have hs : (c :: rest).length ≤ s.length := by simp; omega
    if c == '"' then do
      let (text, ⟨r, hr⟩) ← stringAfterQuote rest
      return (match text with
        | some t => .string t
        | none => .broken, ⟨r, by omega⟩)
    else if c == '[' then
      match closedAt ']' rest with
      | some ⟨r, hr⟩ => .ok (.array [], ⟨r, by omega⟩)
      | none => do
        let (items, ⟨r, hr⟩) ← itemsAt rest
        return (.array items, ⟨r, by omega⟩)
    else if c == '\x7b' then
      match closedAt '\x7d' rest with
      | some ⟨r, hr⟩ => .ok (.object [], ⟨r, by omega⟩)
      | none => do
        let (members, ⟨r, hr⟩) ← membersAt rest
        return (objectOf members, ⟨r, by omega⟩)
    else if c == '-' || c.isDigit then do
      let (j, ⟨r, hr⟩) ← numberAt (c :: rest)
      return (j, ⟨r, by omega⟩)
    else do
      let (j, ⟨r, hr⟩) ←
        if c == 't' then word 't' ['r', 'u', 'e'] (.bool true) (c :: rest)
        else if c == 'f' then word 'f' ['a', 'l', 's', 'e'] (.bool false) (c :: rest)
        else word 'n' ['u', 'l', 'l'] .null (c :: rest)
      return (j, ⟨r, by omega⟩)
termination_by 2 * s.length

/-- The items of an array up to its closing bracket. -/
def itemsAt (s : List Char) : Except JsonError (List Json × Shorter s) := do
  let (j, ⟨r, hr⟩) ← valueAt s
  match ← afterItem ']' r with
  | .closed ⟨r', hr'⟩ => return ([j], ⟨r', by omega⟩)
  | .more ⟨r', hr'⟩ =>
    let (js, ⟨r'', hr''⟩) ← itemsAt r'
    return (j :: js, ⟨r'', by omega⟩)
termination_by 2 * s.length + 1

/-- The members of an object up to its closing brace. -/
def membersAt (s : List Char) : Except JsonError (List (Option String × Json) × Shorter s) := do
  let ⟨r, hr⟩ ← expectChar '"' s
  let (key, ⟨r', hr'⟩) ← stringAfterQuote r
  let ⟨r'', hr''⟩ ← expectChar ':' r'
  let (j, ⟨t, ht⟩) ← valueAt r''
  match ← afterItem '\x7d' t with
  | .closed ⟨t', ht'⟩ => return ([(key, j)], ⟨t', by omega⟩)
  | .more ⟨t', ht'⟩ =>
    let (ms, ⟨t'', ht''⟩) ← membersAt t'
    return ((key, j) :: ms, ⟨t'', by omega⟩)
termination_by 2 * s.length + 1

end

/-- The document that `text` consists of. -/
def parse (text : String) : Except JsonError Json := do
  let (j, ⟨rest, _⟩) ← valueAt text.toList
  match skipBlanks rest with
  | [] => return j
  | _ => throw .trailingText

end NetSchema.Json
