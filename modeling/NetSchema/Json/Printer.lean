import NetSchema.Json.Basic

/-!
# Printing JSON

Two layouts of the same document: without any blank, and with one item a line, indented by two
blanks a level, where empty arrays and objects stay on one line.
-/

namespace NetSchema.Json

def hexDigit (n : Nat) : Char := (Nat.digitChar n)

/-- How `c` is written inside a string. -/
def escapeChar (c : Char) : List Char :=
  match c with
  | '"' => ['\\', '"']
  | '\\' => ['\\', '\\']
  | '\n' => ['\\', 'n']
  | '\r' => ['\\', 'r']
  | '\t' => ['\\', 't']
  | '\x08' => ['\\', 'b']
  | '\x0c' => ['\\', 'f']
  | c =>
    if c.toNat < 0x20 then
      ['\\', 'u', '0', '0', hexDigit (c.toNat / 16), hexDigit (c.toNat % 16)]
    else [c]

def stringChars (s : String) : List Char :=
  '"' :: s.toList.flatMap escapeChar ++ ['"']

mutual

def compactChars : Json → List Char
  | null | broken => ['n', 'u', 'l', 'l']
  | bool true => ['t', 'r', 'u', 'e']
  | bool false => ['f', 'a', 'l', 's', 'e']
  | number text => text.toList
  | string s => stringChars s
  | array items => '[' :: compactItems items ++ [']']
  | object members => '\x7b' :: compactMembers members ++ ['\x7d']

def compactItems : List Json → List Char
  | [] => []
  | [j] => compactChars j
  | j :: js => compactChars j ++ ',' :: compactItems js

def compactMembers : List (String × Json) → List Char
  | [] => []
  | [(key, j)] => stringChars key ++ ':' :: compactChars j
  | (key, j) :: ms => stringChars key ++ ':' :: compactChars j ++ ',' :: compactMembers ms

end

/-- The start of a line that is `depth` levels deep. -/
def newLine (depth : Nat) : List Char := '\n' :: List.replicate (2 * depth) ' '

mutual

/-- The layout with one item a line, for a value inside `depth` arrays and objects. -/
def prettyChars (depth : Nat) : Json → List Char
  | array [] => ['[', ']']
  | object [] => ['\x7b', '\x7d']
  | array (j :: js) =>
    '[' :: newLine (depth + 1) ++ prettyItems (depth + 1) (j :: js) ++ newLine depth ++ [']']
  | object (m :: ms) =>
    '\x7b' :: newLine (depth + 1) ++ prettyMembers (depth + 1) (m :: ms) ++ newLine depth ++
      ['\x7d']
  | null | broken => ['n', 'u', 'l', 'l']
  | bool true => ['t', 'r', 'u', 'e']
  | bool false => ['f', 'a', 'l', 's', 'e']
  | number text => text.toList
  | string s => stringChars s

def prettyItems (depth : Nat) : List Json → List Char
  | [] => []
  | [j] => prettyChars depth j
  | j :: js => prettyChars depth j ++ ',' :: newLine depth ++ prettyItems depth js

def prettyMembers (depth : Nat) : List (String × Json) → List Char
  | [] => []
  | [(key, j)] => stringChars key ++ ':' :: ' ' :: prettyChars depth j
  | (key, j) :: ms =>
    stringChars key ++ ':' :: ' ' :: prettyChars depth j ++ ',' :: newLine depth ++
      prettyMembers depth ms

end

def compact (j : Json) : String := String.ofList (compactChars j)
def pretty (j : Json) : String := String.ofList (prettyChars 0 j)

end NetSchema.Json
