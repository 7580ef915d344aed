import NetSchema.Scene.Value

/-!
# Reading shown strings

A message shows a string between quotes and escapes what would end it or would not be seen.  A
string literal drops each backslash and takes the character behind it as it is.  So a shown string is
always one literal, and it stands for the string itself exactly if nothing in it has an escape but
quotes and backslashes.

* `quoteChar_written`: the ways in which a character is written;
* `isEscaped_iff`: which characters have another escape;
* `stringLiteral_quoted`: what a literal makes of a quoted text;
* `unmarked_eq_iff`: which texts it gives back;
* `shown_string_read`: what this means for the tokens of a shown string.
-/

namespace NetSchema

namespace Text

/-- What is left of an escape when its backslash is dropped. -/
def unmark : List Char → List Char
  | '\\' :: rest => rest
  | w => w

/-- The text that is left of a quoted text when the backslash of every escape is dropped. -/
def unmarked (s : List Char) : List Char := s.flatMap fun c => unmark (quoteChar c)

/-- The character is written with an escape other than that of the quote or of the backslash. -/
def IsEscaped (c : Char) : Prop :=
  ∃ rest, quoteChar c = '\\' :: rest ∧ rest ≠ ['"'] ∧ rest ≠ ['\\']

/-- The control characters that have a letter. -/
def lettered : List (Char × Char) := [('\x00', '0'), ('\t', 't'), ('\r', 'r'), ('\n', 'n')]

/-- Neither ends a literal, nor marks a character in it, nor ends a line. -/
def IsOrdinary (c : Char) : Prop := c ≠ '"' ∧ c ≠ '\\' ∧ c ≠ '\n'

/-- The ways in which a character is written. -/
inductive Written (c : Char) : List Char → Prop
  | plain : IsOrdinary c → c ∉ lettered.map Prod.fst → Written c [c]
  | marked : c = '"' ∨ c = '\\' → Written c ['\\', c]
  | letter {l : Char} : (c, l) ∈ lettered → Written c ['\\', l]
  | codePoint : Written c (codePointEscape c)

variable {c : Char} {w s : List Char}

/-! ## How characters are written -/

theorem quoteChar_written (c : Char) : Written c (quoteChar c) := by
  unfold quoteChar
  split
  · exact .letter (by decide)
  · exact .letter (by decide)
  · exact .letter (by decide)
  · exact .letter (by decide)
  · exact .marked (Or.inr rfl)
  · exact .marked (Or.inl rfl)
  · next hnull htab hreturn hnewline hbackslash hquote =>
    split
    · exact .codePoint
    · refine .plain ⟨hquote, hbackslash, hnewline⟩ ?_
      simpa [lettered] using ⟨hnull, htab, hreturn, hnewline⟩

theorem isAlphanum_of_mem_toDigits {n : Nat} (h : c ∈ Nat.toDigits 16 n) :
    c.isAlphanum = true := by
  have hdigit : ∀ k < 16, k.digitChar.isAlphanum = true := by decide
  induction n using Nat.strongRecOn with
  | ind n ih =>
    rcases Nat.lt_or_ge n 16 with hn | hn
    · rw [Nat.toDigits_of_lt_base hn, List.mem_singleton] at h
      exact h ▸ hdigit n hn
    · rw [Nat.toDigits_of_base_le (by decide) hn, List.mem_append, List.mem_singleton] at h
      rcases h with h | h
      · exact ih (n / 16) (Nat.div_lt_self (by omega) (by decide)) h
      · exact h ▸ hdigit (n % 16) (Nat.mod_lt n (by decide))

theorem isOrdinary_of_isAlphanum (h : c.isAlphanum = true) : IsOrdinary c := by
  refine ⟨?_, ?_, ?_⟩ <;> rintro rfl <;> exact absurd h (by decide)

/-- Only the backslash of an escape by code point means anything to a literal. -/
theorem isOrdinary_of_mem_codePoint {b : Char} (h : b ∈ unmark (codePointEscape c)) :
    IsOrdinary b := by
  change b ∈ 'u' :: '\x7b' :: (Nat.toDigits 16 c.toNat ++ ['\x7d']) at h
  simp only [List.mem_cons, List.mem_append, List.not_mem_nil, or_false] at h
  rcases h with rfl | rfl | h | rfl
  · exact ⟨by decide, by decide, by decide⟩
  · exact ⟨by decide, by decide, by decide⟩
  · exact isOrdinary_of_isAlphanum (isAlphanum_of_mem_toDigits h)
  · exact ⟨by decide, by decide, by decide⟩

theorem ne_of_mem_lettered {l : Char} (h : (c, l) ∈ lettered) : l ≠ c := by
  simp only [lettered, List.mem_cons, Prod.mk.injEq, List.not_mem_nil, or_false] at h
  rcases h with ⟨rfl, rfl⟩ | ⟨rfl, rfl⟩ | ⟨rfl, rfl⟩ | ⟨rfl, rfl⟩ <;> decide

theorem isOrdinary_of_mem_lettered {l : Char} (h : (c, l) ∈ lettered) : IsOrdinary l := by
  simp only [lettered, List.mem_cons, Prod.mk.injEq, List.not_mem_nil, or_false] at h
  rcases h with ⟨-, rfl⟩ | ⟨-, rfl⟩ | ⟨-, rfl⟩ | ⟨-, rfl⟩ <;>
    exact ⟨by decide, by decide, by decide⟩

/-- The characters with an escape of their own: four control characters, and those that are written
by code point. -/
theorem isEscaped_iff :
    IsEscaped c ↔ c ∈ lettered.map Prod.fst ∨ quoteChar c = codePointEscape c := by
  have hw := quoteChar_written c
  unfold IsEscaped
  generalize quoteChar c = w at hw
  cases hw with
  | plain hc hnot =>
    have hcode : [c] ≠ codePointEscape c := by simp [codePointEscape]
    simp [hc.2.1, hcode]
    simpa using hnot
  | marked hc =>
    have hcode : ['\\', c] ≠ codePointEscape c := by simp [codePointEscape]
    rcases hc with rfl | rfl <;> simp [hcode, lettered]
  | @letter l hc =>
    have hl := isOrdinary_of_mem_lettered hc
    have hmem : c ∈ lettered.map Prod.fst := List.mem_map_of_mem hc
    simp [hl.1, hl.2.1, hmem]
  | codePoint => simp [codePointEscape]

/-! ## What is left of them -/

theorem unmark_of_not_isEscaped (h : ¬ IsEscaped c) : unmark (quoteChar c) = [c] := by
  have hw := quoteChar_written c
  unfold IsEscaped at h
  generalize quoteChar c = w at hw h
  cases hw with
  | plain hc _ => simp [unmark, hc.2.1]
  | marked _ => rfl
  | letter hc =>
    have hl := isOrdinary_of_mem_lettered hc
    simp [hl.1, hl.2.1] at h
  | codePoint => simp [codePointEscape] at h

/-- Of an escape of another kind a different character is left, or more than one. -/
theorem unmark_of_isEscaped (h : IsEscaped c) :
    (∃ l, l ≠ c ∧ unmark (quoteChar c) = [l]) ∨ 2 ≤ (unmark (quoteChar c)).length := by
  have hw := quoteChar_written c
  obtain ⟨rest, hrest, hquote, hbackslash⟩ := h
  rw [hrest] at hw ⊢
  cases hw with
  | plain hc _ => exact absurd rfl hc.2.1
  | marked hc => rcases hc with rfl | rfl <;> contradiction
  | letter hc => exact Or.inl ⟨_, ne_of_mem_lettered hc, rfl⟩
  | codePoint => exact Or.inr (by simp [unmark])

theorem length_unmark_pos (c : Char) : 1 ≤ (unmark (quoteChar c)).length := by
  by_cases h : IsEscaped c
  · rcases unmark_of_isEscaped h with ⟨l, -, hl⟩ | h
    · simp [hl]
    · omega
  · simp [unmark_of_not_isEscaped h]

theorem length_unmarked (s : List Char) : s.length ≤ (unmarked s).length := by
  induction s with
  | nil => simp
  | cons c s ih =>
    have hc := length_unmark_pos c
    rw [unmarked, List.flatMap_cons, List.length_append, List.length_cons, ← unmarked]
    omega

/-- **What is given back.**  Exactly the texts in which only quotes and backslashes are escaped. -/
theorem unmarked_eq_iff : unmarked s = s ↔ ∀ c ∈ s, ¬ IsEscaped c := by
  induction s with
  | nil => simp [unmarked]
  | cons c s ih =>
    rw [List.forall_mem_cons, ← ih, unmarked, List.flatMap_cons, ← unmarked]
    by_cases h : IsEscaped c
    · refine iff_of_false ?_ (fun hs => hs.1 h)
      intro heq
      rcases unmark_of_isEscaped h with ⟨l, hne, hl⟩ | hlong
      · rw [hl] at heq
        exact hne (List.cons.inj heq).1
      · -- what is left of the others is no shorter than they are
        have hlength := congrArg List.length heq
        have hrest := length_unmarked s
        rw [List.length_append, List.length_cons] at hlength
        omega
    · rw [unmark_of_not_isEscaped h, List.singleton_append, List.cons_inj_right]
      simp [h]

/-- A tab comes back as the letter of its escape. -/
example : unmarked ['a', '\t', '"'] = ['a', 't', '"'] := by decide

end Text

/-! ## Reading a literal -/

open Text

variable {c : Char} {w s rest : List Char} {line : Nat}

theorem stringLiteral_ordinary (hw : ∀ c ∈ w, IsOrdinary c) :
    stringLiteral (w ++ rest) line =
      ((stringLiteral rest line).1.map (w ++ ·), (stringLiteral rest line).2) := by
  induction w with
  | nil => simp
  | cons c w ih =>
    obtain ⟨⟨hquote, hbackslash, hnewline⟩, hw⟩ := List.forall_mem_cons.mp hw
    rw [List.cons_append, stringLiteral, lineAfter, if_neg hnewline, ih hw]
    · simp [Function.comp_def]
    · exact hquote
    · exact fun h => absurd h hbackslash
    · exact fun _ _ h => absurd h hbackslash

theorem stringLiteral_backslash (hc : c ≠ '\n') :
    stringLiteral ('\\' :: c :: rest) line =
      ((stringLiteral rest line).1.map (c :: ·), (stringLiteral rest line).2) := by
  rw [stringLiteral, lineAfter, if_neg hc]

/-- A literal that begins with what is written for a character. -/
theorem stringLiteral_written (hw : Written c w) :
    stringLiteral (w ++ rest) line =
      ((stringLiteral rest line).1.map (unmark w ++ ·), (stringLiteral rest line).2) := by
  cases hw with
  | plain hc _ =>
    have hunmark : unmark [c] = [c] := by simp [unmark, hc.2.1]
    rw [hunmark]
    exact stringLiteral_ordinary (by simpa using hc)
  | marked hc =>
    have hne : c ≠ '\n' := by
      rcases hc with rfl | rfl <;> decide
    exact stringLiteral_backslash hne
  | letter hc => exact stringLiteral_backslash (isOrdinary_of_mem_lettered hc).2.2
  | codePoint =>
    -- the `u` behind the backslash is taken as it is, like all that follows it
    have hrest := fun b (hb : b ∈ (unmark (codePointEscape c)).tail) =>
      isOrdinary_of_mem_codePoint (List.mem_of_mem_tail hb)
    change stringLiteral ('\\' :: 'u' :: ((unmark (codePointEscape c)).tail ++ rest)) line = _
    rw [stringLiteral_backslash (by decide), stringLiteral_ordinary hrest]
    simp [unmark, codePointEscape, Function.comp_def]

/-- **Reading a quoted text.**  Its closing quote ends the literal, and no quote before it does. -/
theorem stringLiteral_quoted (s rest : List Char) (line : Nat) :
    stringLiteral (s.flatMap quoteChar ++ '"' :: rest) line =
      (some (unmarked s), ⟨rest, line⟩) := by
  induction s with
  | nil => rfl
  | cons c s ih =>
    rw [List.flatMap_cons, List.append_assoc, stringLiteral_written (quoteChar_written c), ih]
    rfl

/-! ## Tokens -/

namespace TokenStream

variable {p q : Position}

theorem ofPosition_token {t : Token} (h : nextToken p = (.ok t, q)) (ht : t ≠ .endOfFile) :
    ofPosition p = .token t q.line (ofPosition q) := by
  rw [ofPosition]
  split
  · next h' => simp [h] at h'
  · next h' =>
    obtain ⟨rfl, rfl⟩ : t = _ ∧ q = _ := by simpa [h] using h'
    rw [dif_neg ht]

theorem ofPosition_end (line : Nat) : ofPosition ⟨[], line⟩ = .finish line := by
  have h : nextToken ⟨[], line⟩ = (.ok .endOfFile, ⟨[], line⟩) := rfl
  rw [ofPosition]
  split
  · next h' => simp [h] at h'
  · next h' =>
    obtain ⟨rfl, rfl⟩ : Token.endOfFile = _ ∧ (⟨[], line⟩ : Position) = _ := by simpa [h] using h'
    rfl

end TokenStream

theorem nextToken_quoted (s : List Char) :
    nextToken ⟨quoteChars s, 1⟩ = (.ok (.string (String.ofList (unmarked s))), ⟨[], 1⟩) := by
  have htoken : nextToken ⟨quoteChars s, 1⟩ = tokenFrom '"' (s.flatMap quoteChar ++ ['"']) 1 := rfl
  have hsymbol : symbol? '"' = none := rfl
  rw [htoken, tokenFrom, hsymbol]
  simp only [if_true, stringLiteral_quoted]

/-- **Shown strings.**  The text that shows a string is one string token and nothing else.  The token
has the string itself exactly if nothing in it has an escape other than that of the quote and of the
backslash; such escapes have four control characters and whatever is written by code point. -/
theorem shown_string_read (s : String) :
    TokenStream.ofText (SceneValue.string s).text =
        .token (.string (String.ofList (unmarked s.toList))) 1 (.finish 1) ∧
      (String.ofList (unmarked s.toList) = s ↔ ∀ c ∈ s.toList, ¬ IsEscaped c) ∧
      ∀ c, IsEscaped c ↔
        c ∈ ['\x00', '\t', '\r', '\n'] ∨ quoteChar c = codePointEscape c := by
  refine ⟨?_, ?_, fun c => isEscaped_iff⟩
  · have htext : (SceneValue.string s).text.toList = quoteChars s.toList := String.toList_ofList
    rw [TokenStream.ofText, htext,
      TokenStream.ofPosition_token (nextToken_quoted s.toList) (by simp),
      TokenStream.ofPosition_end]
  · rw [← unmarked_eq_iff, ← String.toList_inj, String.toList_ofList]

end NetSchema
