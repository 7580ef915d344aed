import NetSchema.Number.Text
import NetSchema.Scene.Error

/-!
# Tokens of a scene text

`nextToken` reads one token.  Blanks, comments from `#` to the end of the line, and every character
that starts no token are skipped.  A position counts lines as their ends are passed, so its line is
one more than the number of line ends before it.  `TokenStream.ofText` reads a whole text; reading
goes on behind a token that cannot be read.
-/

namespace NetSchema

inductive Token where
  | ident (name : String)
  | number (x : Binary)
  | string (s : String)
  | at
  | equals
  | comma
  | leftParen
  | rightParen
  | leftBracket
  | rightBracket
  | slash
  | endOfFile
  deriving DecidableEq, Repr

/-- How a message shows the token. -/
def Token.describe : Token → String
  | ident name => "identifier `" ++ name ++ "`"
  | number x => "number `" ++ x.plainText binary32 ++ "`"
  | string s => "string " ++ Text.quoted s
  | «at» => "`@`"
  | equals => "`=`"
  | comma => "`,`"
  | leftParen => "`(`"
  | rightParen => "`)`"
  | leftBracket => "`[`"
  | rightBracket => "`]`"
  | slash => "`/`"
  | endOfFile => "end of file"

/-- The tokens of a single character. -/
def symbol? (c : Char) : Option Token :=
  match c with
  | '@' => some .at
  | '=' => some .equals
  | ',' => some .comma
  | '(' => some .leftParen
  | ')' => some .rightParen
  | '[' => some .leftBracket
  | ']' => some .rightBracket
  | '/' => some .slash
  | _ => none

/-- The characters that a number starts with. -/
def startsNumber (c : Char) : Bool := c.isDigit || c == '-'

/-- The characters that a number goes on with. -/
def continuesNumber (c : Char) : Bool := c.isDigit || c == '.'

/-- The characters that an identifier starts with, digits apart. -/
def startsIdent (c : Char) : Bool := Text.isLetterOrNumber c || c == '_'

/-- The characters that an identifier goes on with. -/
def continuesIdent (c : Char) : Bool := Text.isLetterOrNumber c || c == '_' || c == '.'

def startsToken (c : Char) : Bool :=
  (symbol? c).isSome || c == '"' || startsNumber c || startsIdent c

/-- The text that is left, and the line on which it starts. -/
structure Position where
  rest : List Char
  line : Nat
  deriving DecidableEq, Repr

/-- The line after passing `c`. -/
def lineAfter (c : Char) (line : Nat) : Nat := if c = '\n' then line + 1 else line

/-- Goes to the next character that starts a token. -/
def skipNoise : (inComment : Bool) → List Char → (line : Nat) → Position
  | _, [], line => ⟨[], line⟩
  | inComment, c :: rest, line =>
    if c = '\n' then skipNoise false rest (line + 1)
    else if inComment || c = '#' then skipNoise true rest line
    else if startsToken c then ⟨c :: rest, line⟩
    else skipNoise false rest line

/-- Reads a string literal after its opening quote.  A backslash stands before a character that is
taken as it is.  There is no text when the closing quote is missing. -/
def stringLiteral : List Char → (line : Nat) → Option (List Char) × Position
  | [], line => (none, ⟨[], line⟩)
  | '"' :: rest, line => (some [], ⟨rest, line⟩)
  | ['\\'], line => (none, ⟨[], line⟩)
  | '\\' :: c :: rest, line =>
    let (s, p) := stringLiteral rest (lineAfter c line)
    (s.map (c :: ·), p)
  | c :: rest, line =>
    let (s, p) := stringLiteral rest (lineAfter c line)
    (s.map (c :: ·), p)

/-- The number that a literal writes: a sign, digits, and a point with digits on one side of it at
least. -/
def numberLiteral? (text : List Char) : Option Binary :=
  let (negative, s) := match text with
    | '-' :: s => (true, s)
    | s => (false, s)
  let whole := s.takeWhile Char.isDigit
  let value (digits : List Char) : Nat := digits.foldl (fun n c => n * 10 + (c.toNat - 48)) 0
  match s.dropWhile Char.isDigit with
  | [] => if whole.isEmpty then none else some (binary32.ofDecimal negative (value whole) 0)
  | _ :: fraction =>
    if (whole ++ fraction).isEmpty || !fraction.all Char.isDigit then none
    else some (binary32.ofDecimal negative (value (whole ++ fraction)) (-fraction.length))

/-- Reads the token that starts with `c`, which stands before `rest`. -/
def tokenFrom (c : Char) (rest : List Char) (line : Nat) : Except SceneError Token × Position :=
  match symbol? c with
  | some t => (.ok t, ⟨rest, line⟩)
  | none =>
    if c = '"' then
      match stringLiteral rest line with
      | (some s, p) => (.ok (.string (String.ofList s)), p)
      | (none, p) => (.error (.unterminatedString line), p)
    else if startsNumber c then
      let text := c :: rest.takeWhile continuesNumber
      let p := ⟨rest.dropWhile continuesNumber, line⟩
      match numberLiteral? text with
      | some x => (.ok (.number x), p)
      | none => (.error (.invalidNumber line (String.ofList text)), p)
    else
      (.ok (.ident (String.ofList (c :: rest.takeWhile continuesIdent))),
        ⟨rest.dropWhile continuesIdent, line⟩)

/-- Reads one token, which is the end of file when nothing but noise is left. -/
def nextToken (p : Position) : Except SceneError Token × Position :=
  match skipNoise false p.rest p.line with
  | ⟨[], line⟩ => (.ok .endOfFile, ⟨[], line⟩)
  | ⟨c :: rest, line⟩ => tokenFrom c rest line

theorem skipNoise_length (inComment : Bool) (s : List Char) (line : Nat) :
    (skipNoise inComment s line).rest.length ≤ s.length := by
  fun_induction skipNoise inComment s line <;> simp_all <;> omega

theorem stringLiteral_length (s : List Char) (line : Nat) :
    (stringLiteral s line).2.rest.length ≤ s.length := by
  fun_induction stringLiteral s line <;> simp_all <;> omega

theorem tokenFrom_length (c : Char) (rest : List Char) (line : Nat) :
    (tokenFrom c rest line).2.rest.length ≤ rest.length := by
  have hs := stringLiteral_length rest line
  unfold tokenFrom
  split
  · simp
  · split
    · split <;> simp_all
    · split
      · dsimp only
        split <;> exact (List.dropWhile_sublist _).length_le
      · exact (List.dropWhile_sublist _).length_le

/-- A token other than the end of file uses up text, and so does a fault. -/
theorem nextToken_length {p q : Position} {r : Except SceneError Token}
    (h : nextToken p = (r, q)) (hr : r ≠ .ok .endOfFile) : q.rest.length < p.rest.length := by
  have hk := skipNoise_length false p.rest p.line
  unfold nextToken at h
  split at h
  · simp at h; exact absurd h.1.symm hr
  · next c rest line hs =>
    have ht := tokenFrom_length c rest line
    rw [hs] at hk
    simp at hk
    rw [h] at ht
    simp at ht
    omega

/-- The tokens of a text with the line on which each ends, the faults between them, and at the end
the last line. -/
inductive TokenStream where
  | finish (line : Nat)
  | token (t : Token) (line : Nat) (rest : TokenStream)
  | failure (e : SceneError) (line : Nat) (rest : TokenStream)
  deriving DecidableEq, Repr

namespace TokenStream

/-- How many tokens and faults the stream has. -/
def size : TokenStream → Nat
  | finish _ => 0
  | token _ _ rest | failure _ _ rest => rest.size + 1

/-- All tokens from `p` on. -/
def ofPosition (p : Position) : TokenStream :=
  match h : nextToken p with
  | (.error e, q) =>
    have := nextToken_length h (by simp)
    .failure e q.line (ofPosition q)
  | (.ok t, q) =>
    if ht : t = .endOfFile then .finish q.line
    else
      have := nextToken_length h (by simpa using ht)
      .token t q.line (ofPosition q)
termination_by p.rest.length

def ofText (text : String) : TokenStream := ofPosition ⟨text.toList, 1⟩

end TokenStream

end NetSchema
