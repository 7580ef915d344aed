import NetSchema.Text.Pieces
import NetSchema.Toml.MarkedDate
import NetSchema.Toml.Number
import NetSchema.Toml.Tree

/-!
# Reading TOML

A document is a sequence of lines, each with a header, an assignment or nothing on it and possibly
a comment at its end.  Only arrays and strings between three quotes may run over several lines.
The tree of the whole document is built first; then the tables that stand for dates become dates.
-/

namespace NetSchema.Toml

open Text (Shorter length_dropWhile)

/-! ## Keys -/

def isBareKey (c : Char) : Bool := c.isAlphanum || c == '_' || c == '-'

/-- A key without dots. -/
def simpleKey? (s : List Char) : Option (String × List Char) :=
  match s with
  | '"' :: s => (basicBody s).map fun (text, rest) => (String.ofList text, rest)
  | '\'' :: s => (literalBody s).map fun (text, rest) => (String.ofList text, rest)
  | s =>
    if (s.takeWhile isBareKey).isEmpty then none
    else some (String.ofList (s.takeWhile isBareKey), s.dropWhile isBareKey)

theorem simpleKey_length {s rest : List Char} {key : String}
    (h : simpleKey? s = some (key, rest)) : rest.length < s.length := by
  unfold simpleKey? at h
  split at h
  · obtain ⟨⟨_, _⟩, hb, he⟩ := Option.map_eq_some_iff.1 h
    have := basicBody_length hb
    simp at he
    simp [← he.2]; omega
  · obtain ⟨⟨_, _⟩, hb, he⟩ := Option.map_eq_some_iff.1 h
    have := literalBody_length hb
    simp at he
    simp [← he.2]; omega
  · split at h
    · simp at h
    · next hk =>
      have := Text.length_takeWhile_add isBareKey s
      have : 0 < (s.takeWhile isBareKey).length :=
        List.length_pos_iff.2 fun he => hk (by simp [he])
      simp at h
      rw [← h.2]; omega

/-- A key, its parts between dots, and the blanks around them. -/
def keyPath? (s : List Char) : Option (KeyPath × List Char) :=
  match hk : simpleKey? (skipSpaces s) with
  | none => none
  | some (key, rest) =>
    match hr : skipSpaces rest with
    | '.' :: after =>
      have : after.length < s.length := by
        have := simpleKey_length hk
        have := skipSpaces_length s
        have := skipSpaces_length rest
        rw [hr] at this
        simp at this
        omega
      (keyPath? after).map fun (path, rest) => ({ path with parents := key :: path.parents }, rest)
    | rest => some (⟨[], key⟩, rest)
termination_by s.length

theorem keyPath_length {s rest : List Char} {path : KeyPath}
    (h : keyPath? s = some (path, rest)) : rest.length < s.length := by
  fun_induction keyPath? s generalizing path rest with
  | case1 => simp at h
  | case2 =>
    rename_i ih
    obtain ⟨⟨_, _⟩, hp, he⟩ := Option.map_eq_some_iff.1 h
    have := ih hp
    simp at he
    rw [← he.2]; omega
  | case3 s key r hk hn =>
    have := simpleKey_length hk
    have := skipSpaces_length s
    have := skipSpaces_length r
    simp at h
    rw [← h.2]; omega

/-- The greatest number of levels, of keys as well as of values. -/
def levelLimit : Nat := 79

/-- A key with as many parts as there may be levels. -/
def keyAt (s : List Char) : Except TomlError (KeyPath × Shorter s) :=
  match h : keyPath? s with
  | none => .error (match skipSpaces s with
    | [] => .unexpectedEnd
    | c :: _ => .unexpectedCharacter c)
  | some (path, rest) =>
    if levelLimit < path.parents.length + 1 then .error .tooDeep
    else .ok (path, ⟨rest, keyPath_length h⟩)

/-! ## Values -/

/-- Skips blanks, line ends and comments. -/
def skipTrivia (inComment : Bool) : List Char → List Char
  | [] => []
  | '\r' :: '\n' :: s => skipTrivia false s
  | c :: s =>
    if c = '\n' then skipTrivia false s
    else if if inComment then isPlain c else isSpace c then skipTrivia inComment s
    else if !inComment && c == '#' then skipTrivia true s
    else c :: s

theorem skipTrivia_length (inComment : Bool) (s : List Char) :
    (skipTrivia inComment s).length ≤ s.length := by
  fun_induction skipTrivia inComment s <;> simp_all <;> omega

/-- The character `c` at the start of `s`. -/
def charAt (c : Char) : (s : List Char) → Except TomlError (Shorter s)
  | [] => .error .unexpectedEnd
  | d :: s => if d = c then .ok ⟨s, by simp⟩ else .error (.unexpectedCharacter d)

/-- A string, whose opening quote is `quote`. -/
def stringAt (quote : Char) (s : List Char) : Option (List Char × List Char) :=
  match s with
  | a :: b :: c :: rest =>
    if a = quote ∧ b = quote ∧ c = quote then
      linesBody quote (quote == '"') false ((lineEnd? rest).getD rest)
    else if quote = '"' then basicBody (b :: c :: rest)
    else literalBody (b :: c :: rest)
  | _ :: rest => if quote = '"' then basicBody rest else literalBody rest
  | [] => none

theorem stringAt_length {quote : Char} {s text rest : List Char}
    (h : stringAt quote s = some (text, rest)) : rest.length < s.length := by
  unfold stringAt at h
  split at h
  · next a b c r =>
    split at h
    · have hb := linesBody_length h
      cases hl : lineEnd? r with
      | none => simp [hl] at hb; simp; omega
      | some r' =>
        have := lineEnd_length hl
        simp [hl] at hb; simp; omega
    · split at h
      · have := basicBody_length h
        simp at this ⊢; omega
      · have := literalBody_length h
        simp at this ⊢; omega
  · split at h
    · have := basicBody_length h
      simp; omega
    · have := literalBody_length h
      simp; omega
  · simp at h

def word? (text : List Char) (v : Toml) (s : List Char) : Option (Toml × List Char) :=
  (text.isPrefixOf? s).map fun rest => (v, rest)

/-- A value that holds no others. -/
def leafAt (s : List Char) : Except TomlError (Toml × List Char) :=
  match s with
  | [] => .error .unexpectedEnd
  | c :: rest =>
    if c = '"' || c = '\'' then
      match stringAt c (c :: rest) with
      | some (text, rest) => .ok (.string (String.ofList text), rest)
      | none => .error .badString
    else
      match (word? ['t', 'r', 'u', 'e'] (.boolean true) (c :: rest)).or
          (word? ['f', 'a', 'l', 's', 'e'] (.boolean false) (c :: rest)) with
      | some found => .ok found
      | none =>
        if c.isDigit || c == '+' || c == '-' || c == 'i' || c == 'n' then scalarAt (c :: rest)
        else .error (.unexpectedCharacter c)

theorem word_length {a : Char} {text s rest : List Char} {v w : Toml}
    (h : word? (a :: text) v s = some (w, rest)) : rest.length < s.length := by
  obtain ⟨r, hp, he⟩ := Option.map_eq_some_iff.1 h
  simp at he
  have := congrArg List.length (Text.eq_append_of_isPrefixOf? hp)
  simp at this
  rw [← he.2]; omega

theorem leafAt_length {s rest : List Char} {v : Toml} (h : leafAt s = .ok (v, rest)) :
    rest.length < s.length := by
  unfold leafAt at h
  split at h
  · simp at h
  · split at h
    · split at h
      · next hs =>
        simp at h
        exact h.2 ▸ stringAt_length hs
      · simp at h
    · split at h
      · next hw =>
        simp at h
        subst h
        rcases Option.or_eq_some_iff.1 hw with hw | ⟨_, hw⟩
        · exact word_length hw
        · exact word_length hw
      · split at h
        · exact scalarAt_length h
        · simp at h

mutual

/-- A value that may hold others `levels` deep. -/
def valueAt (levels : Nat) (s : List Char) : Except TomlError (Toml × Shorter s) :=
  match s, levels with
  | '[' :: _, 0 => .error .tooDeep
  | '\x7b' :: _, 0 => .error .tooDeep
  | '[' :: rest, levels + 1 => do
    let (items, ⟨r, hr⟩) ← itemsAt levels rest
    return (.array items, ⟨r, by simp; omega⟩)
  | '\x7b' :: rest, levels + 1 =>
    have hl := skipSpaces_length rest
    match h : skipSpaces rest with
    | '\x7d' :: r => .ok (.table [], ⟨r, by rw [h] at hl; simp at hl ⊢; omega⟩)
    | _ => do
      let (pairs, ⟨r, hr⟩) ← pairsAt levels rest
      return (← inlineTable pairs, ⟨r, by simp; omega⟩)
  | s, _ =>
    match h : leafAt s with
    | .ok (v, rest) => .ok (v, ⟨rest, leafAt_length h⟩)
    | .error e => .error e
termination_by 2 * s.length

/-- The items of an array up to its closing bracket.  A comma may stand after the last one. -/
def itemsAt (levels : Nat) (s : List Char) : Except TomlError (List Toml × Shorter s) :=
  have hs := skipTrivia_length false s
  match h : skipTrivia false s with
  | [] => .error .unexpectedEnd
  | c :: rest =>
    have hc : rest.length + 1 ≤ s.length := by rw [h] at hs; exact hs
    if c = ']' then .ok ([], ⟨rest, hc⟩)
    else do
      let (v, ⟨r, hr⟩) ← valueAt levels (c :: rest)
      have ht := skipTrivia_length false r
      match h' : skipTrivia false r with
      | ',' :: r' =>
        have hr' : r'.length < s.length := by rw [h'] at ht; simp at *; omega
        let (vs, ⟨r'', hr''⟩) ← itemsAt levels r'
        return (v :: vs, ⟨r'', by omega⟩)
      | ']' :: r' =>
        return ([v], ⟨r', by rw [h'] at ht; simp at *; omega⟩)
      | [] => throw .unexpectedEnd
      | d :: _ => throw (.unexpectedCharacter d)
termination_by 2 * s.length + 1

/-- The assignments of a table between braces, at least one of them. -/
def pairsAt (levels : Nat) (s : List Char) :
    Except TomlError (List (KeyPath × Toml) × Shorter s) := do
  let (path, ⟨r, hr⟩) ← keyAt s
  let ⟨r₁, hr₁⟩ ← charAt '=' r
  have h₂ := skipSpaces_length r₁
  let (v, ⟨r₃, hr₃⟩) ← valueAt levels (skipSpaces r₁)
  have h₄ := skipSpaces_length r₃
  match h : skipSpaces r₃ with
  | ',' :: r₅ =>
    have hr₅ : r₅.length < s.length := by rw [h] at h₄; simp at h₄; omega
    let (pairs, ⟨r₆, hr₆⟩) ← pairsAt levels r₅
    return ((path, v) :: pairs, ⟨r₆, by omega⟩)
  | '\x7d' :: r₅ => return ([(path, v)], ⟨r₅, by rw [h] at h₄; simp at h₄; omega⟩)
  | [] => throw .unexpectedEnd
  | d :: _ => throw (.unexpectedCharacter d)
termination_by 2 * s.length + 1

end

/-! ## Lines -/

/-- What follows the line that ends here, possibly after a comment. -/
def endLine (s : List Char) : Except TomlError (List Char) :=
  let s := match skipSpaces s with
    | '#' :: rest => rest.dropWhile isPlain
    | rest => rest
  match s with
  | [] => .ok []
  | c :: rest =>
    match lineEnd? (c :: rest) with
    | some after => .ok after
    | none => .error (.unexpectedCharacter c)

/-- The statement of a line, where it has one. -/
def statementAt (s : List Char) :
    Except TomlError (Option Statement × { rest : List Char // rest.length ≤ s.length }) := do
  have hs := skipSpaces_length s
  match h : skipSpaces s with
  | '[' :: '[' :: rest =>
    let (path, ⟨r, hr⟩) ← keyAt rest
    let ⟨r₁, hr₁⟩ ← charAt ']' r
    let ⟨r₂, hr₂⟩ ← charAt ']' r₁
    return (some (.element path), ⟨r₂, by rw [h] at hs; simp at hs; omega⟩)
  | '[' :: rest =>
    let (path, ⟨r, hr⟩) ← keyAt rest
    let ⟨r₁, hr₁⟩ ← charAt ']' r
    return (some (.table path), ⟨r₁, by rw [h] at hs; simp at hs; omega⟩)
  | '#' :: _ | '\n' :: _ | '\r' :: _ | [] => return (none, ⟨s, Nat.le_refl _⟩)
  | rest =>
    let (path, ⟨r, hr⟩) ← keyAt rest
    let ⟨r₁, hr₁⟩ ← charAt '=' r
    have h₂ := skipSpaces_length r₁
    let (v, ⟨r₃, hr₃⟩) ← valueAt levelLimit (skipSpaces r₁)
    return (some (.assign path v), ⟨r₃, by rw [h] at hs; omega⟩)

theorem endLine_length {s rest : List Char} (h : endLine s = .ok rest) :
    rest = [] ∨ rest.length < s.length := by
  have hs := skipSpaces_length s
  unfold endLine at h
  dsimp only at h
  split at h
  · simp at h; exact .inl h
  · next c r hc =>
    have hl : (c :: r).length ≤ s.length := by
      split at hc
      · next t ht =>
        have := length_dropWhile isPlain t
        rw [ht] at hs
        rw [hc] at this
        simp at hs this ⊢; omega
      · rw [hc] at hs
        exact hs
    split at h
    · next after ha =>
      have := lineEnd_length ha
      simp at h
      rw [← h]
      exact .inr (by omega)
    · simp at h

/-- All statements of a text. -/
def statements (s : List Char) : Except TomlError (List Statement) :=
  if hs : s = [] then .ok []
  else do
    let (statement, ⟨r, hr⟩) ← statementAt s
    match h : endLine r with
    | .error e => throw e
    | .ok rest =>
      have : rest.length < s.length := by
        have := List.length_pos_iff.2 hs
        rcases endLine_length h with rfl | h
        · simpa using this
        · omega
      let others ← statements rest
      return statement.toList ++ others
termination_by s.length

/-- The document that a text writes.  A byte order mark may stand in front of it. -/
def parse (text : String) : Except TomlError Toml := do
  let s := match text.toList with
    | '\ufeff' :: s => s
    | s => s
  withDates (← ofStatements (← statements s))

end NetSchema.Toml
