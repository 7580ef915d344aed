import Mathlib.Data.List.TakeWhile
import NetSchema.Text.Blank
import NetSchema.Text.Pieces

/-!
# Laws of cutting text

* `endsWith_iff`: what it is for a text to end with another;
* `trimChars_padded`: trimming takes away the blanks around a text, and no more than these;
* `dropRightWhile_append`: what is taken away at the end of a text;
* `splitAt_eq_splitOnP`, `not_mem_of_mem_splitOn`: the pieces of a text;
* `dropSuffix?_eq_some_iff`: a text without its end;
* `splitOnce_append`, `splitOnce_eq_none`: a text around a doubled character.
-/

namespace NetSchema.Text

theorem endsWith_iff {ending s : String} :
    endsWith ending s = true ↔ ∃ start, s = start ++ ending := by
  rw [endsWith, List.isSuffixOf_iff_suffix]
  constructor
  · rintro ⟨start, hs⟩
    refine ⟨String.ofList start, ?_⟩
    rw [← String.toList_inj, String.toList_append, String.toList_ofList, hs]
  · rintro ⟨start, rfl⟩
    exact ⟨start.toList, String.toList_append.symm⟩

/-! ## Trimming -/

/-- A text of blanks only. -/
def Blanks (w : List Char) : Prop := ∀ c ∈ w, isBlank c = true

/-- A text with no blank at its start or its end. -/
structure Trimmed (s : List Char) : Prop where
  head : ∀ c ∈ s.head?, isBlank c = false
  last : ∀ c ∈ s.getLast?, isBlank c = false

variable {p : Char → Bool} {s w w' : List Char}

theorem dropWhile_eq_self (h : ∀ c ∈ s.head?, p c = false) : s.dropWhile p = s := by
  cases s with
  | nil => rfl
  | cons c s => exact List.dropWhile_cons_of_neg (by simp [h c rfl])

/-- At the end of a text goes what satisfies `p`, up to a last character that does not. -/
theorem dropRightWhile_append (hs : ∀ c ∈ s.getLast?, p c = false) (hw : ∀ c ∈ w, p c = true) :
    dropRightWhile p (s ++ w) = s := by
  have hw' : ∀ c ∈ w.reverse, p c = true := fun c hc => hw c (List.mem_reverse.mp hc)
  have hs' : ∀ c ∈ s.reverse.head?, p c = false := by rwa [List.head?_reverse]
  rw [dropRightWhile, List.reverse_append, List.dropWhile_append_of_pos hw', dropWhile_eq_self hs',
    List.reverse_reverse]

theorem trimChars_padded (hw : Blanks w) (hs : Trimmed s) (hw' : Blanks w') :
    trimChars (w ++ s ++ w') = s := by
  rw [trimChars, List.append_assoc, List.dropWhile_append_of_pos hw]
  cases s with
  | nil =>
    rw [List.nil_append, List.dropWhile_eq_nil_iff.mpr hw']
    rfl
  | cons c s =>
    rw [dropWhile_eq_self (s := c :: s ++ w') hs.head]
    exact dropRightWhile_append hs.last hw'

/-- A text without blanks in it. -/
theorem trimmed_of_forall (h : ∀ c ∈ s, isBlank c = false) : Trimmed s where
  head := fun c hc => h c (List.mem_of_mem_head? hc)
  last := fun c hc => h c (List.mem_of_mem_getLast? hc)

/-! ## Pieces -/

theorem splitAt_eq_splitOnP (sep : Char → Bool) (s : List Char) :
    splitAt sep s = s.splitOnP sep := by
  induction s with
  | nil => rfl
  | cons c s ih =>
    rw [splitAt, List.splitOnP_cons_eq_if_modifyHead, ih]
    split
    · rfl
    · cases h : s.splitOnP sep with
      | nil => exact absurd h (List.splitOnP_ne_nil sep s)
      | cons piece rest => rfl

variable {c : Char} {before after : List Char}

theorem not_mem_of_mem_splitOn {piece : List Char} (h : piece ∈ s.splitOn c) : c ∉ piece := by
  induction s generalizing piece with
  | nil =>
    rw [List.splitOn_nil, List.mem_singleton] at h
    exact h ▸ List.not_mem_nil
  | cons b s ih =>
    rw [List.splitOn_cons_eq_if_modifyHead] at h
    split at h
    · obtain rfl | h := List.mem_cons.mp h
      · exact List.not_mem_nil
      · exact ih h
    · next hbc =>
      cases hs : s.splitOn c with
      | nil => exact absurd hs (List.splitOn_ne_nil c s)
      | cons first rest =>
        rw [hs] at h ih
        obtain rfl | h := List.mem_cons.mp h
        · have hb : c ≠ b := fun hcb => hbc (beq_iff_eq.mpr hcb.symm)
          exact List.not_mem_cons_of_ne_of_not_mem hb (ih List.mem_cons_self)
        · exact ih (List.mem_cons_of_mem first h)

theorem isPrefixOf?_append (start rest : List Char) :
    start.isPrefixOf? (start ++ rest) = some rest := by
  induction start with
  | nil => rfl
  | cons b start ih =>
    change (if b == b then start.isPrefixOf? (start ++ rest) else none) = some rest
    rw [if_pos (beq_self_eq_true b), ih]

theorem isPrefixOf?_eq_none {b : Char} {start : List Char} (h : c ≠ b) :
    (c :: start).isPrefixOf? (b :: s) = none :=
  if_neg fun hcb => h (eq_of_beq hcb)

theorem dropSuffix?_eq_some_iff {ending s start : String} :
    dropSuffix? ending s = some start ↔ s = start ++ ending := by
  have hends : ending.toList.isSuffixOf? s.toList =
      (ending.toList.reverse.isPrefixOf? s.toList.reverse).map List.reverse := rfl
  rw [dropSuffix?, hends, Option.map_map, Option.map_eq_some_iff]
  constructor
  · rintro ⟨rest, hrest, rfl⟩
    have hs := eq_append_of_isPrefixOf? hrest
    rw [List.reverse_eq_iff, List.reverse_append, List.reverse_reverse] at hs
    rw [← String.toList_inj, String.toList_append, hs]
    simp
  · rintro rfl
    refine ⟨start.toList.reverse, ?_, by simp⟩
    rw [String.toList_append, List.reverse_append]
    exact isPrefixOf?_append _ _

/-- A doubled character is found where it first stands. -/
theorem splitOnce_append (h : c ∉ before) :
    splitOnce [c, c] (before ++ c :: c :: after) = some (before, after) := by
  induction before with
  | nil =>
    have hstart : [c, c].isPrefixOf? (c :: c :: after) = some after :=
      isPrefixOf?_append [c, c] after
    rw [List.nil_append, splitOnce, hstart]
  | cons b before ih =>
    obtain ⟨hb, hbefore⟩ := List.ne_and_not_mem_of_not_mem_cons h
    rw [List.cons_append, splitOnce, isPrefixOf?_eq_none hb, ih hbefore]
    rfl

theorem splitOnce_eq_none (h : c ∉ s) : splitOnce [c, c] s = none := by
  induction s with
  | nil => rfl
  | cons b s ih =>
    obtain ⟨hb, hs⟩ := List.ne_and_not_mem_of_not_mem_cons h
    rw [splitOnce, isPrefixOf?_eq_none hb, ih hs]
    rfl

end NetSchema.Text
