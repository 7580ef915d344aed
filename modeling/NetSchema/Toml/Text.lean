import NetSchema.Text.Rest
import NetSchema.Toml.Basic

/-!
# TOML strings, keys and blanks

Four kinds of strings: between single quotes a text stands for itself, between double quotes a
backslash starts an escape; between three quotes of a kind a text may run over several lines.  A
line ends with a line feed, possibly after a carriage return, and a string holds the line feed
alone.
-/

namespace NetSchema.Toml

open Text (Shorter length_dropWhile length_takeWhile_add)

def isSpace (c : Char) : Bool := c == ' ' || c == '\t'

def skipSpaces (s : List Char) : List Char := s.dropWhile isSpace

/-- Characters that stand for themselves: all but control characters, the tab excepted. -/
def isPlain (c : Char) : Bool := c == '\t' || (0x20 ≤ c.toNat && c.toNat ≠ 0x7f)

/-- What follows a line end, if `s` starts with one. -/
def lineEnd? : List Char → Option (List Char)
  | '\n' :: s => some s
  | '\r' :: '\n' :: s => some s
  | _ => none

theorem lineEnd_length {s rest : List Char} (h : lineEnd? s = some rest) :
    rest.length < s.length := by
  unfold lineEnd? at h
  split at h
  · rw [← Option.some.inj h]
    exact Nat.lt_succ_self _
  · rw [← Option.some.inj h]
    exact Nat.lt_succ_of_lt (Nat.lt_succ_self _)
  · exact nomatch h

theorem skipSpaces_length (s : List Char) : (skipSpaces s).length ≤ s.length :=
  length_dropWhile isSpace s

/-! ## Escapes -/

def hexDigit? (c : Char) : Option Nat :=
  if '0' ≤ c && c ≤ '9' then some (c.toNat - 48)
  else if 'a' ≤ c && c ≤ 'f' then some (c.toNat - 87)
  else if 'A' ≤ c && c ≤ 'F' then some (c.toNat - 55)
  else none

/-- The character whose code point stands in the first `count` hexadecimal digits. -/
def codePoint? (count : Nat) (s : List Char) : Option (Char × List Char) := do
  let digits ← (s.take count).mapM hexDigit?
  let n := digits.foldl (fun n d => n * 16 + d) 0
  if digits.length = count ∧ n.isValidChar then return (Char.ofNat n, s.drop count) else none

def simpleEscape? : Char → Option Char
  | 'b' => some '\x08'
  | 't' => some '\t'
  | 'n' => some '\n'
  | 'f' => some '\x0c'
  | 'r' => some '\r'
  | '"' => some '"'
  | '\\' => some '\\'
  | _ => none

/-- The character that an escape stands for, after its backslash. -/
def escape? : List Char → Option (Char × List Char)
  | [] => none
  | 'u' :: s => codePoint? 4 s
  | 'U' :: s => codePoint? 8 s
  | c :: s => (simpleEscape? c).map fun e => (e, s)

theorem codePoint_length {count : Nat} {s rest : List Char} {c : Char}
    (h : codePoint? count s = some (c, rest)) : rest.length ≤ s.length := by
  simp only [codePoint?, Option.bind_eq_bind, Option.bind_eq_some_iff] at h
  obtain ⟨ds, _, h⟩ := h
  split at h
  · simp at h; simp [← h.2]
  · simp at h

theorem escape_length {s rest : List Char} {c : Char} (h : escape? s = some (c, rest)) :
    rest.length < s.length := by
  unfold escape? at h
  split at h
  · simp at h
  · have := codePoint_length h
    rw [List.length_cons]; omega
  · have := codePoint_length h
    rw [List.length_cons]; omega
  · obtain ⟨e, _, he⟩ := Option.map_eq_some_iff.1 h
    simp at he
    simp [← he.2]

/-! ## Strings on one line -/

/-- The text up to a closing single quote. -/
def literalBody (s : List Char) : Option (List Char × List Char) :=
  match s.dropWhile fun c => isPlain c && c != '\'' with
  | '\'' :: rest => some (s.takeWhile fun c => isPlain c && c != '\'', rest)
  | _ => none

/-- The text up to a closing double quote, escapes resolved. -/
def basicBody (s : List Char) : Option (List Char × List Char) :=
  match s with
  | [] => none
  | c :: rest =>
    if c = '"' then some ([], rest)
    else if c = '\\' then
      match h : escape? rest with
      | none => none
      | some (e, after) =>
        have := escape_length h
        (basicBody after).map fun (text, rest) => (e :: text, rest)
    else if isPlain c then (basicBody rest).map fun (text, rest) => (c :: text, rest)
    else none
termination_by s.length

theorem literalBody_length {s text rest : List Char} (h : literalBody s = some (text, rest)) :
    rest.length < s.length := by
  unfold literalBody at h
  split at h
  · next r hd =>
    have hl := length_dropWhile (fun c => isPlain c && c != '\'') s
    rw [hd] at hl
    simp at h hl
    rw [← h.2]
    omega
  · simp at h

theorem length_of_map_cons {o : Option (List Char × List Char)} {c : Char} {text rest : List Char}
    {n : Nat} (h : o.map (fun (t, r) => (c :: t, r)) = some (text, rest))
    (ho : ∀ {t r : List Char}, o = some (t, r) → r.length < n) : rest.length < n := by
  obtain ⟨⟨t, r⟩, hb, heq⟩ := Option.map_eq_some_iff.1 h
  simp at heq
  exact heq.2 ▸ ho hb

theorem basicBody_length {s text rest : List Char} (h : basicBody s = some (text, rest)) :
    rest.length < s.length := by
  fun_induction basicBody s generalizing text rest with
  | case1 => simp at h
  | case2 => simp at h; simp [← h.2]
  | case3 => simp at h
  | case4 =>
    rename_i hlt ih
    have := length_of_map_cons h ih
    rw [List.length_cons]; omega
  | case5 =>
    rename_i ih
    have := length_of_map_cons h ih
    rw [List.length_cons]; omega
  | case6 => simp at h

/-! ## Strings over several lines -/

/-- The end of a string of several lines: three quotes, after up to two that belong to it. -/
def closing? (quote : Char) (s : List Char) : Option (List Char × List Char) :=
  if 3 ≤ (s.takeWhile (· == quote)).length then
    let run := min 5 (s.takeWhile (· == quote)).length
    some (List.replicate (run - 3) quote, s.drop run)
  else none

/-- Whether nothing but spaces stands before the end of the line. -/
def atLineEnd (s : List Char) : Bool := (lineEnd? (skipSpaces s)).isSome

/-- The text up to three closing quotes.  Where escapes count, a backslash at the end of a line
takes all blanks and line ends after it away: `trimming` says that this is going on. -/
def linesBody (quote : Char) (escapes trimming : Bool) (s : List Char) :
    Option (List Char × List Char) :=
  match s with
  | [] => none
  | c :: rest =>
    match hl : lineEnd? (c :: rest) with
    | some after =>
      have : after.length ≤ rest.length := Nat.le_of_lt_succ (lineEnd_length hl)
      if trimming then linesBody quote escapes true after
      else (linesBody quote escapes false after).map fun (text, rest) => ('\n' :: text, rest)
    | none =>
      if trimming && isSpace c then linesBody quote escapes true rest
      else if c = quote then
        match closing? quote (c :: rest) with
        | some found => some found
        | none => (linesBody quote escapes false rest).map fun (text, rest) => (c :: text, rest)
      else if escapes && c == '\\' then
        if atLineEnd rest then linesBody quote escapes true rest
        else
          match he : escape? rest with
          | none => none
          | some (e, after) =>
            have := escape_length he
            (linesBody quote escapes false after).map fun (text, rest) => (e :: text, rest)
      else if isPlain c then
        (linesBody quote escapes false rest).map fun (text, rest) => (c :: text, rest)
      else none
termination_by s.length

theorem closing_length {quote : Char} {s text rest : List Char}
    (h : closing? quote s = some (text, rest)) : rest.length < s.length := by
  unfold closing? at h
  split at h
  · next hr =>
    have := length_takeWhile_add (· == quote) s
    simp at h
    rw [← h.2, List.length_drop]
    omega
  · simp at h

theorem linesBody_length {quote : Char} {escapes trimming : Bool} {s text rest : List Char}
    (h : linesBody quote escapes trimming s = some (text, rest)) : rest.length < s.length := by
  fun_induction linesBody quote escapes trimming s generalizing text rest with
  | case1 => simp at h
  | case2 =>
    rename_i ih
    have := ih h
    rw [List.length_cons]; omega
  | case3 =>
    rename_i ih
    have := length_of_map_cons h ih
    rw [List.length_cons]; omega
  | case4 =>
    rename_i ih
    have := ih h
    rw [List.length_cons]; omega
  | case5 =>
    rename_i hc
    exact closing_length (hc.trans h)
  | case6 =>
    rename_i ih
    have := length_of_map_cons h ih
    rw [List.length_cons]; omega
  | case7 =>
    rename_i ih
    have := ih h
    rw [List.length_cons]; omega
  | case8 => simp at h
  | case9 =>
    rename_i ih
    have := length_of_map_cons h ih
    rw [List.length_cons]; omega
  | case10 =>
    rename_i ih
    have := length_of_map_cons h ih
    rw [List.length_cons]; omega
  | case11 => simp at h

end NetSchema.Toml
