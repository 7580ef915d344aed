import Mathlib.Data.List.TakeWhile
import NetSchema.Toml.Reader

/-!
# What strings stand for

A text that is pasted between quotes is read back only if every character of it is literal.  A quote
ends the string early, an escape is longer than what it stands for, and a string that is opened by two
quotes more runs on to the next three.

* `basicBody_literal`: a literal text up to a quote;
* `standsFor_of_basicBody`: what a string on one line is written with;
* `written_of_linesBody`: a string of several lines is no longer than what it is written with;
* `stringAt_pasted_iff`: which texts are read back.
-/

namespace NetSchema.Toml

/-- The character stands for itself between double quotes. -/
def IsLiteral (c : Char) : Prop := isPlain c = true ∧ c ≠ '"' ∧ c ≠ '\\'

instance (c : Char) : Decidable (IsLiteral c) := inferInstanceAs (Decidable (_ ∧ _ ∧ _))

/-- Every character stands for itself. -/
def Literal (s : List Char) : Prop := ∀ c ∈ s, IsLiteral c

instance (s : List Char) : Decidable (Literal s) :=
  decidable_of_iff (s.all (fun c => decide (IsLiteral c)) = true) (by simp [Literal])

/-- On one line, `s` stands for `t`. -/
inductive StandsFor : List Char → List Char → Prop
  | nil : StandsFor [] []
  | literal {c : Char} {s t : List Char} : IsLiteral c → StandsFor s t → StandsFor (c :: s) (c :: t)
  | escape {c : Char} {w s t : List Char} : w ≠ [] → '\n' ∉ w → StandsFor s t →
      StandsFor ('\\' :: (w ++ s)) (c :: t)

variable {c : Char} {s t u rest : List Char}

theorem IsLiteral.ne_newline (h : IsLiteral c) : c ≠ '\n' := by
  rintro rfl
  exact absurd h.1 (by decide)

theorem StandsFor.newline_not_mem (h : StandsFor s t) : '\n' ∉ s := by
  induction h with
  | nil => simp
  | literal hc _ ih => exact List.not_mem_cons_of_ne_of_not_mem hc.ne_newline.symm ih
  | escape _ hw _ ih => simp [hw, ih]

theorem StandsFor.length_le (h : StandsFor s t) : t.length ≤ s.length := by
  induction h with
  | nil => simp
  | literal _ _ ih => simpa using ih
  | escape _ _ _ ih =>
    simp only [List.length_cons, List.length_append]
    omega

/-- An escape is longer than what it stands for. -/
theorem StandsFor.literal_of_length (h : StandsFor s t) (hlen : t.length = s.length) :
    Literal s := by
  induction h with
  | nil => simp [Literal]
  | literal hc _ ih => exact List.forall_mem_cons.mpr ⟨hc, ih (by simpa using hlen)⟩
  | @escape c w s t hw _ hst _ =>
    have hle := hst.length_le
    have hpos := List.length_pos_iff.mpr hw
    simp only [List.length_cons, List.length_append] at hlen
    omega

/-! ## Strings on one line -/

theorem basicBody_literal (h : Literal s) : basicBody (s ++ '"' :: rest) = some (s, rest) := by
  induction s with
  | nil => rw [List.nil_append, basicBody, if_pos rfl]
  | cons c s ih =>
    obtain ⟨hc, hs⟩ := List.forall_mem_cons.mp h
    rw [List.cons_append, basicBody, if_neg hc.2.1, if_neg hc.2.2, if_pos hc.1, ih hs]
    rfl

theorem hexDigit?_newline : hexDigit? '\n' = none := by decide

theorem newline_not_mem_of_mapM {digits : List Nat} (h : s.mapM hexDigit? = some digits) :
    '\n' ∉ s := by
  induction s generalizing digits with
  | nil => simp
  | cons c s ih =>
    rw [List.mapM_cons] at h
    obtain ⟨d, hd, h⟩ := Option.bind_eq_some_iff.mp h
    obtain ⟨ds, hds, -⟩ := Option.bind_eq_some_iff.mp h
    refine List.not_mem_cons_of_ne_of_not_mem ?_ (ih hds)
    rintro rfl
    rw [hexDigit?_newline] at hd
    cases hd

theorem codePoint?_written {count : Nat} (h : codePoint? count s = some (c, rest)) :
    ∃ w, '\n' ∉ w ∧ s = w ++ rest := by
  obtain ⟨digits, hdigits, h⟩ := Option.bind_eq_some_iff.mp h
  refine ⟨s.take count, newline_not_mem_of_mapM hdigits, ?_⟩
  dsimp only at h
  split at h
  · cases h
    exact (List.take_append_drop count s).symm
  · cases h

/-- An escape takes a part of its line. -/
theorem escape?_written (h : escape? s = some (c, rest)) :
    ∃ w, w ≠ [] ∧ '\n' ∉ w ∧ s = w ++ rest := by
  unfold escape? at h
  split at h
  · cases h
  · obtain ⟨w, hw, rfl⟩ := codePoint?_written h
    exact ⟨'u' :: w, by simp, by simpa using hw, rfl⟩
  · obtain ⟨w, hw, rfl⟩ := codePoint?_written h
    exact ⟨'U' :: w, by simp, by simpa using hw, rfl⟩
  · next b s _ _ =>
    obtain ⟨e, he, h⟩ := Option.map_eq_some_iff.mp h
    cases h
    have hb : '\n' ≠ b := by
      rintro rfl
      cases he
    exact ⟨[b], by simp, by simpa using hb, rfl⟩

theorem standsFor_of_basicBody (h : basicBody s = some (t, rest)) :
    ∃ u, s = u ++ '"' :: rest ∧ StandsFor u t := by
  fun_induction basicBody s generalizing t with
  | case1 => cases h
  | case2 =>
    cases h
    exact ⟨[], rfl, .nil⟩
  | case3 => cases h
  | case4 s e after he _ _ ih =>
    obtain ⟨⟨t', rest'⟩, hbody, h⟩ := Option.map_eq_some_iff.mp h
    cases h
    obtain ⟨u, rfl, hu⟩ := ih hbody
    obtain ⟨w, hne, hw, rfl⟩ := escape?_written he
    exact ⟨'\\' :: (w ++ u), by simp, .escape hne hw hu⟩
  | case5 c s hquote hslash hplain ih =>
    obtain ⟨⟨t', rest'⟩, hbody, h⟩ := Option.map_eq_some_iff.mp h
    cases h
    obtain ⟨u, rfl, hu⟩ := ih hbody
    exact ⟨c :: u, rfl, .literal ⟨hplain, hquote, hslash⟩ hu⟩
  | case6 => cases h

/-! ## Strings over several lines -/

theorem lineEnd?_written (h : lineEnd? s = some rest) : ∃ w, w ≠ [] ∧ s = w ++ rest := by
  unfold lineEnd? at h
  split at h
  · cases h
    exact ⟨['\n'], by simp, rfl⟩
  · cases h
    exact ⟨['\r', '\n'], by simp, rfl⟩
  · cases h

/-- Three quotes, of which the first follows the text. -/
theorem closing?_written {quote : Char} (h : closing? quote s = some (t, rest)) :
    s = t ++ quote :: quote :: quote :: rest := by
  unfold closing? at h
  split at h
  · next hrun =>
    have hlen := Text.length_takeWhile_add (· == quote) s
    obtain ⟨k, hk⟩ : ∃ k, min 5 (s.takeWhile (· == quote)).length = k + 3 :=
      ⟨min 5 (s.takeWhile (· == quote)).length - 3, by omega⟩
    dsimp only at h
    rw [hk, Nat.add_sub_cancel] at h
    cases h
    have htake : s.take (k + 3) = List.replicate (k + 3) quote := by
      refine List.eq_replicate_iff.mpr ⟨?_, ?_⟩
      · rw [List.length_take]
        omega
      · intro b hb
        have hstart : s.take (k + 3) <+: s.takeWhile (· == quote) := by
          refine List.prefix_of_prefix_length_le (List.take_prefix ..) (List.takeWhile_prefix _) ?_
          rw [List.length_take]
          omega
        have hb' := List.all_eq_true.mp List.all_takeWhile b (hstart.subset hb)
        exact eq_of_beq hb'
    calc s = s.take (k + 3) ++ s.drop (k + 3) := (List.take_append_drop (k + 3) s).symm
      _ = List.replicate k quote ++ [quote, quote, quote] ++ s.drop (k + 3) := by
        rw [htake, ← List.replicate_append_replicate]
        rfl
      _ = _ := List.append_assoc ..
  · cases h

/-- The text of a string of several lines ends in three quotes and is at most as long as what it is
written with. -/
def Written (quote : Char) (s t rest : List Char) : Prop :=
  ∃ u, s = u ++ quote :: quote :: quote :: rest ∧ t.length ≤ u.length

section Written

variable {quote : Char} {w : List Char} {o : Option (List Char × List Char)}

theorem Written.append (h : Written quote s t rest) (w : List Char) :
    Written quote (w ++ s) t rest := by
  obtain ⟨u, rfl, hlen⟩ := h
  refine ⟨w ++ u, by simp, ?_⟩
  rw [List.length_append]
  omega

/-- What stands in front may stand for a character. -/
theorem Written.of_map (h : o.map (fun (t, r) => (c :: t, r)) = some (t, rest)) (hw : w ≠ [])
    (ho : ∀ {t : List Char}, o = some (t, rest) → Written quote s t rest) :
    Written quote (w ++ s) t rest := by
  obtain ⟨⟨t', rest'⟩, hbody, h⟩ := Option.map_eq_some_iff.mp h
  cases h
  obtain ⟨u, rfl, hlen⟩ := ho hbody
  refine ⟨w ++ u, by simp, ?_⟩
  have hpos := List.length_pos_iff.mpr hw
  rw [List.length_append, List.length_cons]
  omega

end Written

theorem written_of_linesBody {quote : Char} {escapes trimming : Bool}
    (h : linesBody quote escapes trimming s = some (t, rest)) : Written quote s t rest := by
  fun_induction linesBody quote escapes trimming s generalizing t with
  | case1 => cases h
  | case2 b s after hend _ ih =>
    obtain ⟨w, -, hs⟩ := lineEnd?_written hend
    exact hs ▸ (ih h).append w
  | case3 trimming b s after hend _ _ ih =>
    obtain ⟨w, hw, hs⟩ := lineEnd?_written hend
    exact hs ▸ .of_map h hw ih
  | case4 trimming b s _ _ ih => exact (ih h).append [b]
  | case5 trimming s _ _ found hclosing =>
    cases h
    exact ⟨t, closing?_written hclosing, Nat.le_refl _⟩
  | case6 trimming s _ _ _ ih => exact .of_map h (List.cons_ne_nil _ []) ih
  | case7 trimming b s _ _ _ _ _ ih => exact (ih h).append [b]
  | case8 => cases h
  | case9 trimming b s _ _ _ _ _ e after he _ ih =>
    obtain ⟨w, -, -, rfl⟩ := escape?_written he
    exact .of_map h (List.cons_ne_nil b w) ih
  | case10 trimming b s _ _ _ _ _ ih => exact .of_map h (List.cons_ne_nil b []) ih
  | case11 => cases h

/-! ## Pasted texts -/

theorem exists_of_append_eq_append {v : List Char} (h : s ++ t = u ++ v)
    (hlen : s.length ≤ u.length) : ∃ d, u = s ++ d ∧ t = d ++ v := by
  obtain ⟨d, rfl⟩ : s <+: u :=
    List.prefix_of_prefix_length_le (List.prefix_append s t) (h ▸ List.prefix_append u v) hlen
  exact ⟨d, rfl, List.append_cancel_left (h.trans (List.append_assoc s d v))⟩

theorem stringAt_literal (h : Literal s) :
    stringAt '"' ('"' :: (s ++ '"' :: '\n' :: rest)) = some (s, '\n' :: rest) := by
  obtain ⟨b, c, r, hbc, hquotes⟩ : ∃ b c r, s ++ '"' :: '\n' :: rest = b :: c :: r ∧
      ¬ ('"' = '"' ∧ b = '"' ∧ c = '"') := by
    rcases s with _ | ⟨b, _ | ⟨c, s⟩⟩
    · exact ⟨_, _, _, rfl, by simp⟩
    · exact ⟨_, _, _, rfl, by simp [(h b (by simp)).2.1]⟩
    · exact ⟨_, _, _, rfl, by simp [(h b (by simp)).2.1]⟩
  rw [hbc, stringAt, if_neg hquotes, if_pos rfl, ← hbc, basicBody_literal h]

/-- **Pasted texts.**  Between quotes at the end of a line, where no three quotes follow, exactly the
literal texts are read back. -/
theorem stringAt_pasted_iff
    (hclear : ¬ ['"', '"', '"'] <:+: '"' :: '\n' :: rest) :
    (∃ rest', stringAt '"' ('"' :: (s ++ '"' :: '\n' :: rest)) = some (s, rest')) ↔ Literal s := by
  constructor
  · rintro ⟨rest', h⟩
    obtain ⟨b, c, r, hbc⟩ : ∃ b c r, s ++ '"' :: '\n' :: rest = b :: c :: r := by
      rcases s with _ | ⟨b, _ | ⟨c, s⟩⟩ <;> exact ⟨_, _, _, rfl⟩
    rw [hbc, stringAt] at h
    split at h
    · next hquotes =>
      -- the string runs on to three quotes, which are behind the pasted text
      obtain ⟨-, rfl, rfl⟩ := hquotes
      obtain ⟨w, hw⟩ : ∃ w, r = w ++ (lineEnd? r).getD r := by
        cases hend : lineEnd? r with
        | none => exact ⟨[], rfl⟩
        | some after =>
          obtain ⟨w, -, hw⟩ := lineEnd?_written hend
          exact ⟨w, hw⟩
      obtain ⟨u, hu, hlen⟩ := (written_of_linesBody h).append ('"' :: '"' :: w)
      rw [List.cons_append, List.cons_append, ← hw, ← hbc] at hu
      obtain ⟨d, -, hd⟩ := exists_of_append_eq_append hu hlen
      exact absurd ⟨d, rest', by simp [hd]⟩ hclear
    · rw [if_pos rfl, ← hbc] at h
      obtain ⟨u, hu, hstands⟩ := standsFor_of_basicBody h
      obtain ⟨d, rfl, hd⟩ := exists_of_append_eq_append hu hstands.length_le
      cases d with
      | nil => simpa using hstands.literal_of_length (by simp)
      | cons a d =>
        -- the string would go on behind the line
        obtain ⟨-, hd⟩ := List.cons.inj hd
        cases d with
        | nil => exact absurd (List.cons.inj hd).1 (by decide)
        | cons a' d =>
          obtain ⟨rfl, -⟩ := List.cons.inj hd
          exact absurd hstands.newline_not_mem (by simp)
  · intro h
    exact ⟨_, stringAt_literal h⟩

end NetSchema.Toml
