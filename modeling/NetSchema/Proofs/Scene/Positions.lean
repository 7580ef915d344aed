import Mathlib.Data.List.TakeWhile
import NetSchema.Proofs.Scene.Quoting

/-!
# Positions in a text

A call of the lexer skips noise and takes a lexeme, and it counts the ends of lines in both.  So
after any number of calls, failed ones included, the line is that of the next character, and the
calls come to the end of the file.

* `skipNoise_spec`, `stringLiteral_spec`, `tokenFrom_spec`: what is passed, and its lines;
* `nextToken_call`: what one call passes and makes of it;
* `after_line`, `exists_endOfFile`: what many calls pass;
* `nextToken_endsOn`, `nextToken_liesOn`: where tokens end and faults begin.
-/

namespace NetSchema

/-- The line of the character behind `before`. -/
def lineBehind (before : List Char) : Nat := 1 + before.count '\n'

/-- No quote ends the string literal whose opening quote stands before the text. -/
inductive Unclosed : List Char → Prop
  | nil : Unclosed []
  | backslash : Unclosed ['\\']
  | escape {c rest} : Unclosed rest → Unclosed ('\\' :: c :: rest)
  | other {c rest} : c ≠ '"' → c ≠ '\\' → Unclosed rest → Unclosed (c :: rest)

/-- What a call makes of a lexeme that starts on `line` and has `rest` behind it.  The last character
of a token is not the end of a line, and in a faulty number there is no such end at all. -/
inductive Makes (line : Nat) : (lexeme rest : List Char) → Except SceneError Token → Prop
  | endOfFile : Makes line [] [] (.ok .endOfFile)
  | token {front rest last t} : t ≠ .endOfFile → last ≠ '\n' →
      Makes line (front ++ [last]) rest (.ok t)
  | invalidNumber {lexeme rest} : lexeme ≠ [] → '\n' ∉ lexeme → numberLiteral? lexeme = none →
      Makes line lexeme rest (.error (.invalidNumber line (String.ofList lexeme)))
  | unterminatedString {body} : Unclosed body →
      Makes line ('"' :: body) [] (.error (.unterminatedString line))

/-- The call at `p` skips `noise`, takes `lexeme` and ends at `q` with the result `r`. -/
structure Call (p : Position) (noise lexeme : List Char) (r : Except SceneError Token)
    (q : Position) : Prop where
  rest : p.rest = noise ++ (lexeme ++ q.rest)
  line : q.line = p.line + (noise ++ lexeme).count '\n'
  skips : skipNoise false p.rest p.line = ⟨lexeme ++ q.rest, p.line + noise.count '\n'⟩
  makes : Makes (p.line + noise.count '\n') lexeme q.rest r

variable {c : Char} {rest s : List Char} {line : Nat} {p q : Position}
  {r : Except SceneError Token} {e : SceneError} {t : Token}

/-! ## One call -/

theorem lineAfter_eq (c : Char) (line : Nat) : lineAfter c line = line + [c].count '\n' := by
  unfold lineAfter
  by_cases h : c = '\n' <;> simp [h]

theorem count_newline_cons (c : Char) (s : List Char) :
    (c :: s).count '\n' = [c].count '\n' + s.count '\n' := by
  rw [← List.singleton_append, List.count_append]

/-- Noise is passed up to the end of the text or to a character that starts a token. -/
theorem skipNoise_spec (inComment : Bool) (s : List Char) (line : Nat) :
    ∃ noise, s = noise ++ (skipNoise inComment s line).rest ∧
      (skipNoise inComment s line).line = line + noise.count '\n' ∧
        ∀ c rest, (skipNoise inComment s line).rest = c :: rest → c ≠ '\n' := by
  fun_induction skipNoise inComment s line with
  | case1 => exact ⟨[], rfl, rfl, by simp⟩
  | case2 inComment rest line ih =>
    obtain ⟨noise, hrest, hline, hstart⟩ := ih
    refine ⟨'\n' :: noise, ?_, ?_, hstart⟩
    · rw [List.cons_append, ← hrest]
    · rw [hline, List.count_cons_self]
      omega
  | case3 inComment c rest line hc _ ih =>
    obtain ⟨noise, hrest, hline, hstart⟩ := ih
    refine ⟨c :: noise, ?_, ?_, hstart⟩
    · rw [List.cons_append, ← hrest]
    · rw [hline, List.count_cons_of_ne hc]
  | case4 inComment c rest line hc _ _ =>
    refine ⟨[], rfl, rfl, ?_⟩
    intro c' rest' h
    obtain ⟨rfl, -⟩ := List.cons.inj h
    exact hc
  | case5 inComment c rest line hc _ _ ih =>
    obtain ⟨noise, hrest, hline, hstart⟩ := ih
    refine ⟨c :: noise, ?_, ?_, hstart⟩
    · rw [List.cons_append, ← hrest]
    · rw [hline, List.count_cons_of_ne hc]

/-- A string literal goes up to its closing quote, or to the end of the text if there is none. -/
theorem stringLiteral_spec (s : List Char) (line : Nat) :
    ∃ body, s = body ++ (stringLiteral s line).2.rest ∧
      (stringLiteral s line).2.line = line + body.count '\n' ∧
        ((stringLiteral s line).1.isSome = true → ∃ front, body = front ++ ['"']) ∧
          ((stringLiteral s line).1 = none →
            (stringLiteral s line).2.rest = [] ∧ Unclosed body) := by
  fun_induction stringLiteral s line with
  | case1 => exact ⟨[], rfl, rfl, by simp, fun _ => ⟨rfl, .nil⟩⟩
  | case2 rest line => exact ⟨['"'], rfl, rfl, fun _ => ⟨[], rfl⟩, by simp⟩
  | case3 line => exact ⟨['\\'], rfl, rfl, by simp, fun _ => ⟨rfl, .backslash⟩⟩
  | case4 c rest line s p hs ih =>
    rw [hs] at ih
    obtain ⟨body, hrest, hline, hclosed, hunclosed⟩ := ih
    refine ⟨'\\' :: c :: body, ?_, ?_, ?_, ?_⟩
    · simp only [List.cons_append, ← hrest]
    · have hbackslash : ['\\'].count '\n' = 0 := rfl
      rw [hline, lineAfter_eq, count_newline_cons '\\', count_newline_cons c body,
        hbackslash]
      omega
    · intro h
      obtain ⟨front, rfl⟩ := hclosed (by simpa using h)
      exact ⟨'\\' :: c :: front, rfl⟩
    · intro h
      obtain ⟨hend, hbody⟩ := hunclosed (by simpa using h)
      exact ⟨hend, hbody.escape⟩
  | case5 c rest line hquote hsingle hbackslash s p hs ih =>
    rw [hs] at ih
    obtain ⟨body, hrest, hline, hclosed, hunclosed⟩ := ih
    refine ⟨c :: body, ?_, ?_, ?_, ?_⟩
    · simp only [List.cons_append, ← hrest]
    · rw [hline, lineAfter_eq, count_newline_cons c body]
      omega
    · intro h
      obtain ⟨front, rfl⟩ := hclosed (by simpa using h)
      exact ⟨c :: front, rfl⟩
    · intro h
      obtain ⟨hend, hbody⟩ := hunclosed (by simpa using h)
      have hc : c ≠ '\\' := by
        rintro rfl
        cases rest with
        | nil => exact hsingle rfl rfl
        | cons b rest => exact hbackslash b rest rfl rfl
      exact ⟨hend, hbody.other hquote hc⟩

/-- The tokens of one character are not the end of the file. -/
theorem ne_endOfFile_of_symbol? (h : symbol? c = some t) : t ≠ .endOfFile := by
  unfold symbol? at h
  split at h <;> cases h <;> simp

theorem exists_concat_of_not_mem (hne : s ≠ []) (hs : '\n' ∉ s) :
    ∃ front last, s = front ++ [last] ∧ last ≠ '\n' := by
  refine ⟨s.dropLast, s.getLast hne, (List.dropLast_concat_getLast hne).symm, ?_⟩
  intro h
  exact hs (h ▸ List.getLast_mem hne)

theorem makes_token (hne : s ≠ []) (hs : '\n' ∉ s) (ht : t ≠ .endOfFile) :
    Makes line s rest (.ok t) := by
  obtain ⟨front, last, rfl, hlast⟩ := exists_concat_of_not_mem hne hs
  exact .token ht hlast

/-- The characters of a class that no end of a line is in, up to the first other one. -/
theorem takeWhile_line {p : Char → Bool} (hp : p '\n' = false) (hc : c ≠ '\n')
    (rest : List Char) : '\n' ∉ c :: rest.takeWhile p := by
  intro h
  rcases List.mem_cons.mp h with h | h
  · exact hc h.symm
  · rw [List.mem_takeWhile_imp h] at hp
    cases hp

theorem tokenFrom_spec (hc : c ≠ '\n') (h : tokenFrom c rest line = (r, q)) :
    ∃ tail, rest = tail ++ q.rest ∧ q.line = line + (c :: tail).count '\n' ∧
      Makes line (c :: tail) q.rest r := by
  have hnumber : continuesNumber '\n' = false := by decide
  have hident : continuesIdent '\n' = false := by decide +kernel
  unfold tokenFrom at h
  split at h
  · next t ht =>
    cases h
    refine ⟨[], rfl, ?_, ?_⟩
    · simp [hc]
    · exact makes_token (by simp) (by simp [Ne.symm hc]) (ne_endOfFile_of_symbol? ht)
  split at h
  · next hquote =>
    obtain ⟨body, hrest, hline, hclosed, hunclosed⟩ := stringLiteral_spec rest line
    split at h
    · next s p hs =>
      cases h
      rw [hs] at hrest hline hclosed
      obtain ⟨front, rfl⟩ := hclosed rfl
      refine ⟨front ++ ['"'], hrest, ?_, ?_⟩
      · rw [hline, List.count_cons_of_ne hc]
      · rw [← List.cons_append]
        exact .token (by simp) (by decide)
    · next p hs =>
      cases h
      rw [hs] at hrest hline hunclosed
      obtain ⟨hend, hbody⟩ := hunclosed rfl
      refine ⟨body, hrest, ?_, ?_⟩
      · rw [hline, List.count_cons_of_ne hc]
      · rw [hend, hquote]
        exact .unterminatedString hbody
  split at h
  · have hlines := takeWhile_line hnumber hc rest
    dsimp only at h
    split at h
    · cases h
      exact ⟨_, (List.takeWhile_append_dropWhile ..).symm,
        by rw [List.count_eq_zero.mpr hlines]; rfl, makes_token (by simp) hlines (by simp)⟩
    · next hnone =>
      cases h
      exact ⟨_, (List.takeWhile_append_dropWhile ..).symm,
        by rw [List.count_eq_zero.mpr hlines]; rfl, .invalidNumber (by simp) hlines hnone⟩
  · have hlines := takeWhile_line hident hc rest
    cases h
    exact ⟨_, (List.takeWhile_append_dropWhile ..).symm,
      by rw [List.count_eq_zero.mpr hlines]; rfl, makes_token (by simp) hlines (by simp)⟩

/-- **One call.** -/
theorem nextToken_call (h : nextToken p = (r, q)) : ∃ noise lexeme, Call p noise lexeme r q := by
  obtain ⟨noise, hrest, hline, hstart⟩ := skipNoise_spec false p.rest p.line
  unfold nextToken at h
  split at h
  · next line hskip =>
    cases h
    rw [hskip] at hrest hline
    refine ⟨noise, [], ?_, ?_, ?_, .endOfFile⟩
    · simpa using hrest
    · simpa using hline
    · rw [hskip, ← hline]
      rfl
  · next c rest line hskip =>
    rw [hskip] at hrest hline hstart
    obtain ⟨tail, htail, hq, hmakes⟩ := tokenFrom_spec (hstart c rest rfl) h
    simp only at hrest hline
    refine ⟨noise, c :: tail, ?_, ?_, ?_, ?_⟩
    · rw [List.cons_append, ← htail, ← hrest]
    · rw [hq, hline, List.count_append]
      omega
    · rw [hskip, List.cons_append, ← htail, hline]
    · rw [← hline]
      exact hmakes

/-- A call that takes nothing has found the end of the file. -/
theorem nextToken_takes (h : nextToken p = (r, q)) :
    ∃ taken, p.rest = taken ++ q.rest ∧ (taken = [] → r = .ok .endOfFile) := by
  obtain ⟨noise, lexeme, hcall⟩ := nextToken_call h
  refine ⟨noise ++ lexeme, by rw [hcall.rest, List.append_assoc], ?_⟩
  intro hnil
  by_contra hr
  have hlt := nextToken_length h hr
  rw [hcall.rest, ← List.append_assoc, hnil] at hlt
  exact Nat.lt_irrefl _ hlt

theorem rest_eq_nil_of_nextToken (h : nextToken p = (.ok .endOfFile, q)) : q.rest = [] := by
  obtain ⟨noise, lexeme, hcall⟩ := nextToken_call h
  have hmakes := hcall.makes
  generalize q.rest = behind at hmakes
  cases hmakes with
  | endOfFile => rfl
  | token ht _ => exact absurd rfl ht

/-! ## Many calls -/

namespace Position

/-- Before the first call. -/
def start (text : String) : Position := ⟨text.toList, 1⟩

/-- After the first `n` calls. -/
def after (text : String) : (n : Nat) → Position
  | 0 => start text
  | n + 1 => (nextToken (after text n)).2

end Position

variable {text : String} {n : Nat} {before lexeme behind : List Char}

/-- One of the calls takes `lexeme`, which stands between `before` and `behind`. -/
inductive Reads (text : String) (r : Except SceneError Token) :
    (before lexeme behind : List Char) → Prop
  | call {n passed noise lexeme q} : text.toList = passed ++ (Position.after text n).rest →
      nextToken (Position.after text n) = (r, q) → Call (Position.after text n) noise lexeme r q →
        Reads text r (passed ++ noise) lexeme q.rest

/-- A token with the line of its last character, and the end of the file with the last line. -/
inductive EndsOn (text : String) : Token → (line : Nat) → Prop
  | token {t before front last behind} : Reads text (.ok t) before (front ++ [last]) behind →
      EndsOn text t (lineBehind (before ++ front))
  | endOfFile : EndsOn text .endOfFile (lineBehind text.toList)

/-- A fault with the line of its literal, which for a string is that of the opening quote. -/
inductive LiesOn (text : String) : SceneError → Prop
  | number {before literal behind} : literal ≠ [] → '\n' ∉ literal → numberLiteral? literal = none →
      Reads text (.error (.invalidNumber (lineBehind before) (String.ofList literal))) before
        literal behind → LiesOn text (.invalidNumber (lineBehind before) (String.ofList literal))
  | string {before body} : Unclosed body →
      Reads text (.error (.unterminatedString (lineBehind before))) before ('"' :: body) [] →
        LiesOn text (.unterminatedString (lineBehind before))

theorem lineBehind_append (before s : List Char) :
    lineBehind (before ++ s) = lineBehind before + s.count '\n' := by
  rw [lineBehind, lineBehind, List.count_append, Nat.add_assoc]

/-- **Lines.**  After any number of calls the line is that of the character behind what is passed. -/
theorem after_line (text : String) (n : Nat) :
    ∃ passed, text.toList = passed ++ (Position.after text n).rest ∧
      (Position.after text n).line = lineBehind passed := by
  induction n with
  | zero => exact ⟨[], rfl, rfl⟩
  | succ n ih =>
    obtain ⟨passed, htext, hline⟩ := ih
    rw [Position.after]
    rcases hnext : nextToken (Position.after text n) with ⟨r, q⟩
    obtain ⟨noise, lexeme, hcall⟩ := nextToken_call hnext
    refine ⟨passed ++ (noise ++ lexeme), ?_, ?_⟩
    · simp only [htext, hcall.rest, List.append_assoc]
    · rw [hcall.line, hline, lineBehind_append]

/-- Each call before the end of the file takes a character at least. -/
theorem length_after (h : ∀ k < n, (nextToken (Position.after text k)).1 ≠ .ok .endOfFile) :
    (Position.after text n).rest.length + n ≤ text.length := by
  induction n with
  | zero => exact Nat.le_of_eq (String.length_toList ..)
  | succ n ih =>
    have hn := ih fun k hk => h k (Nat.lt_succ_of_lt hk)
    rw [Position.after]
    rcases hnext : nextToken (Position.after text n) with ⟨r, q⟩
    have hr := h n (Nat.lt_succ_self n)
    rw [hnext] at hr
    have hlt := nextToken_length hnext hr
    simp only
    omega

/-- **The end of the file** is found. -/
theorem exists_endOfFile (text : String) :
    ∃ n ≤ text.length, (nextToken (Position.after text n)).1 = .ok .endOfFile := by
  by_contra hnot
  have hall : ∀ k < text.length + 1, (nextToken (Position.after text k)).1 ≠ .ok .endOfFile :=
    fun k hk hend => hnot ⟨k, Nat.le_of_lt_succ hk, hend⟩
  have hlength := length_after hall
  omega

/-! ## Tokens and faults in a text -/

theorem exists_reads (h : nextToken (Position.after text n) = (r, q)) :
    ∃ before lexeme, Reads text r before lexeme q.rest ∧
      q.line = lineBehind (before ++ lexeme) ∧ Makes (lineBehind before) lexeme q.rest r := by
  obtain ⟨passed, htext, hline⟩ := after_line text n
  obtain ⟨noise, lexeme, hcall⟩ := nextToken_call h
  refine ⟨passed ++ noise, lexeme, .call htext h hcall, ?_, ?_⟩
  · rw [hcall.line, hline, List.append_assoc, lineBehind_append]
  · rw [lineBehind_append, ← hline]
    exact hcall.makes

theorem Reads.text_eq (h : Reads text r before lexeme behind) :
    text.toList = before ++ (lexeme ++ behind) := by
  obtain ⟨htext, -, hcall⟩ := h
  rw [htext, hcall.rest, List.append_assoc]

/-- **Tokens** end on the line of the position behind them. -/
theorem nextToken_endsOn (h : nextToken (Position.after text n) = (.ok t, q)) :
    EndsOn text t q.line := by
  obtain ⟨before, lexeme, hreads, hline, hmakes⟩ := exists_reads h
  have htext := hreads.text_eq
  generalize q.rest = behind at hreads hmakes htext
  rw [hline]
  cases hmakes with
  | endOfFile =>
    rw [List.append_nil] at htext ⊢
    rw [← List.append_nil before, ← htext]
    exact .endOfFile
  | @token front _ last _ _ hlast =>
    rw [← List.append_assoc, lineBehind_append, List.count_eq_zero.mpr (by simpa using hlast.symm)]
    exact .token hreads

/-- **Faults** lie on their literals. -/
theorem nextToken_liesOn (h : nextToken (Position.after text n) = (.error e, q)) :
    LiesOn text e := by
  obtain ⟨before, lexeme, hreads, -, hmakes⟩ := exists_reads h
  generalize q.rest = behind at hreads hmakes
  cases hmakes with
  | invalidNumber hne hline hnone => exact .number hne hline hnone hreads
  | unterminatedString hbody => exact .string hbody hreads

end NetSchema
