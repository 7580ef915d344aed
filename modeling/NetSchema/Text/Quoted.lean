import NetSchema.Text.Classes

/-!
# Quoted text

The form in which a message shows a text between double quotes.  A quote and a backslash get a
backslash, the common control characters their letter, and every other character that would not be
seen its code point in hexadecimal.
-/

namespace NetSchema.Text

/-- Code point of `c` in lower-case hexadecimal between braces. -/
def codePointEscape (c : Char) : List Char :=
  '\\' :: 'u' :: '\x7b' :: Nat.toDigits 16 c.toNat ++ ['\x7d']

/-- How `c` is written inside a quoted text. -/
def quoteChar (c : Char) : List Char :=
  match c with
  | '\x00' => ['\\', '0']
  | '\t' => ['\\', 't']
  | '\r' => ['\\', 'r']
  | '\n' => ['\\', 'n']
  | '\\' => ['\\', '\\']
  | '"' => ['\\', '"']
  | c => if isCombining c || !isPrintable c then codePointEscape c else [c]

def quoteChars (s : List Char) : List Char :=
  '"' :: s.flatMap quoteChar ++ ['"']

/-- `s` between double quotes, with escapes where `quoteChar` asks for them. -/
def quoted (s : String) : String :=
  String.ofList (quoteChars s.toList)

end NetSchema.Text
