import NetSchema.Proofs.Results
import NetSchema.Proofs.Text
import NetSchema.Proofs.Toml.Strings

/-!
# Documents line by line

A document with a header or a setting on each line is read one line at a time.  What stands on a line
is read whatever follows, so the statements of such a document are those of its lines.

* `keyAt_bare`: a key that needs no quotes;
* `statementAt_header`, `statementAt_setting_iff`: the statement of a line;
* `statements_eq_ok_iff`: a line, and then the lines that follow;
* `exists_of_statements_setting`: a setting assigns what its string reads;
* `Line.statements_write`: what is written line by line is read line by line.
-/

namespace NetSchema.Toml

variable {s t rest : List Char} {key : String}

/-! ## Keys -/

/-- A key that needs no quotes. -/
structure BareKey (key : String) : Prop where
  ne_nil : key.toList ≠ []
  bare : ∀ c ∈ key.toList, isBareKey c = true

instance (key : String) : Decidable (BareKey key) :=
  decidable_of_iff (key.toList ≠ [] ∧ key.toList.all isBareKey = true)
    ⟨fun h => ⟨h.1, List.all_eq_true.mp h.2⟩, fun h => ⟨h.ne_nil, List.all_eq_true.mpr h.bare⟩⟩

theorem not_isBareKey_of_isSpace {c : Char} (h : isSpace c = true) : isBareKey c = false := by
  simp only [isSpace, Bool.or_eq_true, beq_iff_eq] at h
  rcases h with rfl | rfl <;> decide

theorem skipSpaces_cons {c : Char} (hc : isSpace c = false) : skipSpaces (c :: s) = c :: s :=
  List.dropWhile_cons_of_neg (by simp [hc])

theorem BareKey.exists_cons (h : BareKey key) (rest : List Char) :
    ∃ c s, key.toList ++ rest = c :: s ∧ isBareKey c = true := by
  cases hkey : key.toList with
  | nil => exact absurd hkey h.ne_nil
  | cons c s => exact ⟨c, s ++ rest, rfl, h.bare c (by simp [hkey])⟩

theorem BareKey.skipSpaces (h : BareKey key) (rest : List Char) :
    skipSpaces (key.toList ++ rest) = key.toList ++ rest := by
  obtain ⟨c, s, hkey, hc⟩ := h.exists_cons rest
  rw [hkey]
  refine skipSpaces_cons ?_
  cases hspace : isSpace c with
  | false => rfl
  | true =>
    rw [not_isBareKey_of_isSpace hspace] at hc
    cases hc

theorem simpleKey?_bare (h : BareKey key) (hrest : ∀ c ∈ rest.head?, isBareKey c = false) :
    simpleKey? (key.toList ++ rest) = some (key, rest) := by
  obtain ⟨c, s, hkey, hc⟩ := h.exists_cons rest
  have htake : (key.toList ++ rest).takeWhile isBareKey = key.toList := by
    have hnone : rest.takeWhile isBareKey = [] := by
      cases rest with
      | nil => rfl
      | cons c rest => simp [hrest c rfl]
    rw [List.takeWhile_append_of_pos h.bare, hnone, List.append_nil]
  have hdrop : (key.toList ++ rest).dropWhile isBareKey = rest := by
    rw [List.dropWhile_append_of_pos h.bare, Text.dropWhile_eq_self hrest]
  unfold simpleKey?
  split
  · next hquote =>
    rw [hkey] at hquote
    cases hquote
    cases hc
  · next hquote =>
    rw [hkey] at hquote
    cases hquote
    cases hc
  · rw [htake, hdrop, if_neg (by simpa using h.ne_nil), String.ofList_toList]

theorem keyPath?_bare (h : BareKey key) (hrest : ∀ c ∈ rest.head?, isBareKey c = false)
    (hdot : '.' ∉ (skipSpaces rest).head?) :
    keyPath? (key.toList ++ rest) = some (⟨[], key⟩, skipSpaces rest) := by
  have hsimple : simpleKey? (skipSpaces (key.toList ++ rest)) = some (key, rest) := by
    rw [h.skipSpaces rest, simpleKey?_bare h hrest]
  rw [keyPath?]
  split
  · next hnone =>
    rw [hsimple] at hnone
    cases hnone
  · next key' rest' hsome =>
    rw [hsimple] at hsome
    cases hsome
    split
    · next hr => exact absurd (by rw [hr]; rfl) hdot
    · rfl

theorem keyAt_bare (h : BareKey key) (hrest : ∀ c ∈ rest.head?, isBareKey c = false)
    (hdot : '.' ∉ (skipSpaces rest).head?) :
    ∃ hlt, keyAt (key.toList ++ rest) = .ok (⟨[], key⟩, ⟨skipSpaces rest, hlt⟩) := by
  have hpath := keyPath?_bare h hrest hdot
  refine ⟨keyPath_length hpath, ?_⟩
  unfold keyAt
  split
  · next hnone =>
    rw [hpath] at hnone
    cases hnone
  · next path rest' hsome =>
    rw [hpath] at hsome
    cases hsome
    rfl

/-! ## One line -/

theorem statementAt_header (h : BareKey key) :
    ∃ hle, statementAt ('[' :: (key.toList ++ ']' :: rest)) =
      .ok (some (.table ⟨[], key⟩), ⟨rest, hle⟩) := by
  have hclose : skipSpaces (']' :: rest) = ']' :: rest := skipSpaces_cons (by decide)
  obtain ⟨hlt, hkey⟩ : ∃ hlt, keyAt (key.toList ++ ']' :: rest) =
      .ok (⟨[], key⟩, ⟨skipSpaces (']' :: rest), hlt⟩) :=
    keyAt_bare h (by simp [isBareKey]) (by simp [hclose])
  have hspaces : skipSpaces ('[' :: (key.toList ++ ']' :: rest)) =
      '[' :: (key.toList ++ ']' :: rest) := skipSpaces_cons (by decide)
  obtain ⟨c, w, hc, hbare⟩ := h.exists_cons (']' :: rest)
  refine ⟨by simp; omega, ?_⟩
  unfold statementAt
  split
  · next hh =>
    -- the key does not start with a bracket
    rw [hspaces, hc] at hh
    cases hh
    cases hbare
  · next hh =>
    rw [hspaces] at hh
    cases hh
    simp only [hkey, hclose]
    rfl
  iterate 4
    · next hh =>
      rw [hspaces] at hh
      cases hh
  · next hother _ _ _ _ => exact absurd hspaces (hother _)

theorem leafAt_string_iff {v : Toml} :
    leafAt ('"' :: s) = .ok (v, rest) ↔
      ∃ t, stringAt '"' ('"' :: s) = some (t, rest) ∧ v = .string (String.ofList t) := by
  rw [leafAt, if_pos (by decide)]
  constructor
  · intro h
    split at h
    · next t rest' hs =>
      cases h
      exact ⟨t, hs, rfl⟩
    · cases h
  · rintro ⟨t, hs, rfl⟩
    rw [hs]

theorem valueAt_string_iff {levels : Nat} {v : Toml} {r : Text.Shorter ('"' :: s)} :
    valueAt levels ('"' :: s) = .ok (v, r) ↔
      ∃ t, stringAt '"' ('"' :: s) = some (t, r.val) ∧ v = .string (String.ofList t) := by
  rw [← leafAt_string_iff, valueAt]
  · split
    · next hs => simp [hs, Subtype.ext_iff]
    · next hs => simp [hs]
  all_goals simp

/-- A setting up to the quote that opens its string, with `s` behind it. -/
def opened (key : String) (s : List Char) : List Char :=
  key.toList ++ ' ' :: '=' :: ' ' :: '"' :: s

/-- The value of a setting is what its string reads. -/
theorem statementAt_setting_iff (h : BareKey key) {o : Option Statement}
    {r : { rest : List Char // rest.length ≤ (opened key s).length }} :
    statementAt (opened key s) = .ok (o, r) ↔
      ∃ t, stringAt '"' ('"' :: s) = some (t, r.val) ∧
        o = some (.assign ⟨[], key⟩ (.string (String.ofList t))) := by
  have hequals : skipSpaces (' ' :: '=' :: ' ' :: '"' :: s) = '=' :: ' ' :: '"' :: s := rfl
  have hspaces : skipSpaces (opened key s) = opened key s := h.skipSpaces _
  obtain ⟨hlt, hkey⟩ : ∃ hlt, keyAt (skipSpaces (opened key s)) =
      .ok (⟨[], key⟩, ⟨'=' :: ' ' :: '"' :: s, hlt⟩) := by
    rw [hspaces]
    exact @keyAt_bare (' ' :: '=' :: ' ' :: '"' :: s) key h (by simp [isBareKey])
      (by simp [hequals])
  obtain ⟨c, w, hc, hbare⟩ : ∃ c w, opened key s = c :: w ∧ isBareKey c = true :=
    h.exists_cons _
  rw [hc] at hspaces
  unfold statementAt
  split
  iterate 5
    · next hh =>
      rw [hc, hspaces] at hh
      cases hh
      cases hbare
  · next hh =>
    rw [hc, hspaces] at hh
    cases hh
  · constructor
    · intro h
      obtain ⟨⟨path, r'⟩, hk, h⟩ := bind_eq_ok_iff.mp h
      rw [hkey] at hk
      cases hk
      obtain ⟨r₁, hr₁, h⟩ := bind_eq_ok_iff.mp h
      cases hr₁
      obtain ⟨⟨v, r₃⟩, hv, h⟩ := bind_eq_ok_iff.mp h
      cases h
      obtain ⟨t, ht, rfl⟩ := valueAt_string_iff.mp hv
      exact ⟨t, ht, rfl⟩
    · rintro ⟨t, ht, rfl⟩
      have hv : valueAt levelLimit (skipSpaces (' ' :: '"' :: s)) =
          .ok (.string (String.ofList t), ⟨r.val, stringAt_length ht⟩) :=
        valueAt_string_iff.mpr ⟨t, ht, rfl⟩
      exact bind_eq_ok_iff.mpr ⟨_, hkey, bind_eq_ok_iff.mpr ⟨⟨' ' :: '"' :: s, by simp⟩, rfl,
        bind_eq_ok_iff.mpr ⟨_, hv, rfl⟩⟩⟩

/-! ## Whole documents -/

theorem statements_nil : statements [] = .ok [] := by
  rw [statements, dif_pos rfl]

theorem statements_eq_ok_iff {sts : List Statement} (hs : s ≠ []) :
    statements s = .ok sts ↔ ∃ o r after others, statementAt s = .ok (o, r) ∧
      endLine r.val = .ok after ∧ statements after = .ok others ∧ sts = o.toList ++ others := by
  rw [statements, dif_neg hs]
  constructor
  · intro h
    obtain ⟨⟨o, r⟩, hstatement, h⟩ := bind_eq_ok_iff.mp h
    dsimp only at h
    split at h
    · cases h
    · next after hend =>
      obtain ⟨others, hothers, h⟩ := bind_eq_ok_iff.mp h
      cases h
      exact ⟨o, r, after, others, hstatement, hend, hothers, rfl⟩
  · rintro ⟨o, r, after, others, hstatement, hend, hothers, rfl⟩
    refine bind_eq_ok_iff.mpr ⟨(o, r), hstatement, ?_⟩
    dsimp only
    split
    · next hend' =>
      rw [hend] at hend'
      cases hend'
    · next after' hend' =>
      rw [hend] at hend'
      cases hend'
      exact bind_eq_ok_iff.mpr ⟨others, hothers, rfl⟩

theorem statements_of_line {sts : List Statement} {o : Option Statement}
    {r : { rest : List Char // rest.length ≤ s.length }} (hs : s ≠ [])
    (hstatement : statementAt s = .ok (o, r)) (hend : endLine r.val = .ok rest) :
    statements s = .ok sts ↔ ∃ others, statements rest = .ok others ∧ sts = o.toList ++ others := by
  rw [statements_eq_ok_iff hs]
  constructor
  · rintro ⟨o', r', after, others, hstatement', hend', hothers, rfl⟩
    rw [hstatement] at hstatement'
    cases hstatement'
    rw [hend] at hend'
    cases hend'
    exact ⟨others, hothers, rfl⟩
  · rintro ⟨others, hothers, rfl⟩
    exact ⟨o, r, rest, others, hstatement, hend, hothers, rfl⟩

/-- A setting assigns the text that its string reads. -/
theorem exists_of_statements_setting {sts : List Statement} (h : BareKey key)
    (hs : statements (opened key s) = .ok sts) :
    ∃ t rest others, stringAt '"' ('"' :: s) = some (t, rest) ∧
      sts = .assign ⟨[], key⟩ (.string (String.ofList t)) :: others := by
  obtain ⟨o, r, after, others, hstatement, -, -, rfl⟩ :=
    (statements_eq_ok_iff (by simp [opened])).mp hs
  obtain ⟨t, ht, rfl⟩ := (statementAt_setting_iff h).mp hstatement
  exact ⟨t, r.val, others, ht, rfl⟩

/-- A line of a document: empty, a header, or a text at a key. -/
inductive Line where
  | blank
  | header (key : String)
  | setting (key text : String)

namespace Line

def write : Line → List Char
  | blank => ['\n']
  | header key => '[' :: (key.toList ++ [']', '\n'])
  | setting key text => opened key (text.toList ++ ['"', '\n'])

def statement? : Line → Option Statement
  | blank => none
  | header key => some (.table ⟨[], key⟩)
  | setting key text => some (.assign ⟨[], key⟩ (.string text))

/-- Keys are bare and texts literal. -/
def Plain : Line → Prop
  | blank => True
  | header key => BareKey key
  | setting key text => BareKey key ∧ Literal text.toList

instance : (line : Line) → Decidable line.Plain
  | blank => inferInstanceAs (Decidable True)
  | header key => inferInstanceAs (Decidable (BareKey key))
  | setting key text => inferInstanceAs (Decidable (BareKey key ∧ Literal text.toList))

variable {line : Line}

theorem write_ne_nil (line : Line) : line.write ≠ [] := by
  cases line <;> simp [write, opened]

/-- What is behind a setting is behind its string. -/
theorem write_setting_append (key text : String) (rest : List Char) :
    (setting key text).write ++ rest = opened key (text.toList ++ '"' :: '\n' :: rest) := by
  simp [write, opened]

theorem statementAt_write (h : line.Plain) (rest : List Char) :
    ∃ r, statementAt (line.write ++ rest) = .ok (line.statement?, r) ∧
      endLine r.val = .ok rest := by
  cases line with
  | blank => exact ⟨⟨'\n' :: rest, Nat.le_refl _⟩, rfl, rfl⟩
  | header key =>
    have hwrite : (header key).write ++ rest = '[' :: (key.toList ++ ']' :: '\n' :: rest) := by
      simp [write]
    obtain ⟨hle, hstatement⟩ := @statementAt_header ('\n' :: rest) key h
    rw [hwrite]
    exact ⟨_, hstatement, rfl⟩
  | setting key text =>
    have hstring := @stringAt_literal text.toList rest h.2
    have hlt : ('\n' :: rest).length ≤ (opened key (text.toList ++ '"' :: '\n' :: rest)).length := by
      simp [opened]
      omega
    rw [write_setting_append]
    refine ⟨⟨'\n' :: rest, hlt⟩, (statementAt_setting_iff h.1).mpr ⟨_, hstring, ?_⟩, rfl⟩
    rw [String.ofList_toList]
    rfl

theorem statements_write_append {sts : List Statement} (h : line.Plain) (rest : List Char) :
    statements (line.write ++ rest) = .ok sts ↔
      ∃ others, statements rest = .ok others ∧ sts = line.statement?.toList ++ others := by
  obtain ⟨r, hstatement, hend⟩ := statementAt_write h rest
  exact statements_of_line (by simp [line.write_ne_nil]) hstatement hend

/-- **Documents.**  What is written line by line is read line by line. -/
theorem statements_write {lines : List Line} (h : ∀ line ∈ lines, line.Plain) :
    statements (lines.flatMap write) = .ok (lines.filterMap statement?) := by
  induction lines with
  | nil => exact statements_nil
  | cons line lines ih =>
    obtain ⟨hline, hlines⟩ := List.forall_mem_cons.mp h
    rw [List.flatMap_cons, statements_write_append hline]
    refine ⟨_, ih hlines, ?_⟩
    cases hst : line.statement? <;> simp [hst]

end Line

end NetSchema.Toml
