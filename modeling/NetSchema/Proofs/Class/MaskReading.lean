import Mathlib.Data.List.Induction
import NetSchema.Class.Mask
import NetSchema.Proofs.Class.MaskSyntax

/-!
# Reading mask texts

The reader takes away what the grammar has around a number, one layer after the other.  None of them
takes anything that belongs to another one: the letters of a suffix are no digits, digits and marks
have no blanks, parentheses or bars in them, and the first `<<` is the one of the shift.

* `Digit.char_spec`, `naturalOf?_digits`: digits are read as the number that they write;
* `LiteralSyntax.literalOf?_text`: a literal is read as its value;
* `TermSyntax.stripParens_text`: parentheses leave the operand;
* `SpacedTerm.maskTermOf?_text`: a term is read as its value;
* `MaskSyntax.value?_text`: a mask is read as the bits that its terms have, and a text with a piece
  that is not read is not read;
* `Flags.mask_read`: a text with a shift, parentheses and a suffix.
-/

namespace NetSchema

open Text

/-! ## Characters of literals -/

/-- A character that a literal is written with. -/
def IsLiteralChar (c : Char) : Prop := c.isAlphanum = true ∨ c = '-' ∨ c = '_'

instance : DecidablePred IsLiteralChar := fun _ => inferInstanceAs (Decidable (_ ∨ _))

theorem isBlank_of_isAlphanum {c : Char} (h : c.isAlphanum = true) : isBlank c = false := by
  change ((decide (65 ≤ c.val ∧ c.val ≤ 90) || (97 ≤ c.val && c.val ≤ 122)) ||
    (48 ≤ c.val && c.val ≤ 57)) = true at h
  simp only [Bool.or_eq_true, Bool.and_eq_true, decide_eq_true_iff, UInt32.le_iff_toNat_le] at h
  change ((65 ≤ c.toNat ∧ c.toNat ≤ 90) ∨ (97 ≤ c.toNat ∧ c.toNat ≤ 122)) ∨
    (48 ≤ c.toNat ∧ c.toNat ≤ 57) at h
  simp only [isBlank, Bool.or_eq_false_iff, Bool.and_eq_false_iff, decide_eq_false_iff_not,
    beq_eq_false_iff_ne]
  omega

theorem IsLiteralChar.not_blank {c : Char} (h : IsLiteralChar c) : isBlank c = false := by
  obtain h | rfl | rfl := h
  · exact isBlank_of_isAlphanum h
  · decide
  · decide

/-! ## Digits -/

section Digits

variable {r : Radix}

/-- A digit is read as its value, and it is neither a sign nor a letter of a suffix. -/
theorem Digit.char_spec (d : Digit r) :
    digitOf? r.base d.char = some (d.value : Nat) ∧ d.char.isAlphanum = true ∧
      isLiteralSuffix d.char = false := by
  obtain ⟨v, capital⟩ := d
  revert v capital
  rcases r with _ | ⟨_ | _⟩ | ⟨_ | _⟩ <;> decide

theorem Digit.isAlphanum_char (d : Digit r) : d.char.isAlphanum = true := d.char_spec.2.1

/-- A decimal digit is not a letter, so it does not end a mark. -/
theorem Digit.isDigit_char (d : Digit .decimal) : d.char.isDigit = true := by
  obtain ⟨v, capital⟩ := d
  revert v capital
  decide

theorem numberOf_concat (ds : List (Digit r)) (d : Digit r) :
    numberOf (ds ++ [d]) = numberOf ds * r.base + d.value := by
  rw [numberOf, List.map_append, List.reverse_append, List.map_singleton, List.reverse_singleton,
    List.singleton_append, Nat.ofDigits_cons, Nat.add_comm, Nat.mul_comm]
  rfl

theorem naturalOf?_digits {ds : List (Digit r)} (h : ds ≠ []) :
    naturalOf? r.base (ds.map Digit.char) = some (numberOf ds) := by
  rw [naturalOf?, if_neg (by simpa using h)]
  clear h
  induction ds using List.reverseRecOn with
  | nil => rfl
  | append_singleton ds d ih =>
    rw [List.map_append, List.foldlM_append, ih, numberOf_concat]
    simp only [List.map_singleton, List.foldlM_cons, List.foldlM_nil, d.char_spec.1]
    rfl

theorem signedOf?_digits {ds : List (Digit r)} (h : ds ≠ []) :
    signedOf? r.base (ds.map Digit.char) = int64? (numberOf ds) := by
  have hsign : ∀ c ∈ ds.map Digit.char, c.isAlphanum = true :=
    List.forall_mem_map.mpr fun d _ => d.isAlphanum_char
  unfold signedOf?
  split
  · next digits hds => exact absurd (hsign '-' (by simp [hds])) (by decide)
  · next digits hds => exact absurd (hsign '+' (by simp [hds])) (by decide)
  · rw [naturalOf?_digits h, Option.bind_some]

theorem Radix.isAlphanum_of_mem_mark : ∀ c ∈ r.mark, c.isAlphanum = true := by
  rcases r with _ | ⟨_ | _⟩ | ⟨_ | _⟩ <;> simp [mark]

theorem prefixedOf?_digits (ds : List (Digit r)) :
    prefixedOf? (r.mark ++ ds.map Digit.char) = signedOf? r.base (ds.map Digit.char) := by
  cases r with
  | hexadecimal capital => cases capital <;> rfl
  | binary capital => cases capital <;> rfl
  | decimal =>
    have hdigit : ∀ c ∈ ds.map Digit.char, c.isDigit = true :=
      List.forall_mem_map.mpr fun d _ => d.isDigit_char
    rw [Radix.mark, List.nil_append]
    unfold prefixedOf?
    split
    · next rest hds => exact absurd (hdigit 'x' (by simp [hds])) (by decide)
    · next rest hds => exact absurd (hdigit 'X' (by simp [hds])) (by decide)
    · next rest hds => exact absurd (hdigit 'b' (by simp [hds])) (by decide)
    · next rest hds => exact absurd (hdigit 'B' (by simp [hds])) (by decide)
    · rfl

end Digits

/-! ## Literals -/

theorem int64?_ofNat {n : Nat} (h : (n : Int) ≤ Int64.maxValue.toInt) :
    int64? n = some (Int64.ofInt n) := by
  have hmin : Int64.minValue.toInt ≤ (n : Int) := by
    rw [Int64.toInt_minValue]
    omega
  rw [int64?, decide_eq_true hmin, decide_eq_true h]
  rfl

theorem filter_places {r : Radix} (ps : List (Option (Digit r))) :
    (ps.map placeChar).filter (· ≠ '_') = ps.reduceOption.map Digit.char := by
  induction ps with
  | nil => rfl
  | cons p ps ih =>
    cases p with
    | none =>
      rw [List.map_cons, List.filter_cons_of_neg (by simp [placeChar]), ih,
        List.reduceOption_cons_of_none]
    | some d =>
      have hd : placeChar (some d) ≠ '_' := by
        intro h
        have hchar : d.char = '_' := h
        exact absurd (hchar ▸ d.isAlphanum_char) (by decide)
      rw [List.map_cons, List.filter_cons_of_pos (by simpa using hd), ih,
        List.reduceOption_cons_of_some, List.map_cons, placeChar]

namespace LiteralSyntax

variable (l : LiteralSyntax)

theorem isLiteralChar_of_mem {c : Char} (h : c ∈ l.text) : IsLiteralChar c := by
  rw [text, stem, List.mem_append, List.mem_append, List.mem_append] at h
  obtain ((hsign | hmark) | hplace) | hsuffix := h
  · rw [sign] at hsign
    split at hsign
    · exact List.mem_singleton.mp hsign ▸ by decide
    · exact absurd hsign List.not_mem_nil
  · exact Or.inl (Radix.isAlphanum_of_mem_mark c hmark)
  · obtain ⟨p, -, rfl⟩ := List.mem_map.mp hplace
    cases p with
    | none => exact Or.inr (Or.inr rfl)
    | some d => exact Or.inl d.isAlphanum_char
  · have hletters : ∀ c ∈ ['L', 'l', 'U', 'u'], c.isAlphanum = true := by simp
    exact Or.inl (hletters c (l.suffix_letters c hsuffix))

theorem trimmed : Trimmed l.text :=
  trimmed_of_forall fun _ hc => (l.isLiteralChar_of_mem hc).not_blank

theorem places_ne_nil : l.places ≠ [] := by
  intro h
  exact l.digits_ne_nil (by rw [h]; rfl)

/-- The suffix goes, and with it no digit and no underscore. -/
theorem dropRightWhile_text : dropRightWhile isLiteralSuffix l.text = l.stem := by
  apply dropRightWhile_append
  · have hlast : l.stem.getLast? = (l.places.map placeChar).getLast? := by
      rw [stem, List.getLast?_append_of_ne_nil _ (by simpa using l.places_ne_nil)]
    intro c hc
    obtain ⟨p, -, rfl⟩ := List.mem_map.mp (List.mem_of_getLast? (hlast ▸ hc))
    cases p with
    | none => rfl
    | some d => exact d.char_spec.2.2
  · have hletters : ∀ c ∈ ['L', 'l', 'U', 'u'], isLiteralSuffix c = true := by
      simp [isLiteralSuffix]
    exact fun c hc => hletters c (l.suffix_letters c hc)

theorem filter_stem :
    l.stem.filter (· ≠ '_') = l.sign ++ (l.radix.mark ++ l.digits.map Digit.char) := by
  have hsign : l.sign.filter (· ≠ '_') = l.sign := by
    rw [sign]
    split <;> rfl
  have hmark : l.radix.mark.filter (· ≠ '_') = l.radix.mark := by
    rcases l.radix with _ | ⟨_ | _⟩ | ⟨_ | _⟩ <;> rfl
  rw [stem, List.filter_append, List.filter_append, hsign, hmark, filter_places, List.append_assoc]
  rfl

theorem isAlphanum_of_mem_magnitude {c : Char}
    (h : c ∈ l.radix.mark ++ l.digits.map Digit.char) : c.isAlphanum = true := by
  obtain hmark | hdigit := List.mem_append.mp h
  · exact Radix.isAlphanum_of_mem_mark c hmark
  · obtain ⟨d, -, rfl⟩ := List.mem_map.mp hdigit
    exact d.isAlphanum_char

theorem prefixedOf?_magnitude :
    prefixedOf? (l.radix.mark ++ l.digits.map Digit.char) =
      some (Int64.ofInt (numberOf l.digits)) := by
  have hdigits : l.digits ≠ [] := l.digits_ne_nil
  rw [prefixedOf?_digits, signedOf?_digits hdigits]
  exact int64?_ofNat l.number_le

/-- **Literals.**  A literal is read as its value, whatever blanks are around it. -/
theorem literalOf?_text (before after : Gap) :
    literalOf? (before.chars ++ l.text ++ after.chars) = some (.ofInt l.value) := by
  unfold literalOf?
  rw [trimChars_padded before.blanks l.trimmed after.blanks, l.dropRightWhile_text, l.filter_stem]
  cases hneg : l.negative with
  | true =>
    have hsign : l.sign = ['-'] := by rw [sign, hneg, if_pos rfl]
    have hvalue : l.value = -(numberOf l.digits : Int) := by rw [value, hneg, if_pos rfl]
    simp only [hsign, hvalue, List.singleton_append, prefixedOf?_magnitude, Option.map_some,
      Int64.ofInt_neg]
  | false =>
    have hsign : l.sign = [] := by rw [sign, hneg, if_neg Bool.false_ne_true]
    have hvalue : l.value = numberOf l.digits := by rw [value, hneg, if_neg Bool.false_ne_true]
    rw [hsign, hvalue, List.nil_append]
    dsimp only
    split
    · next rest htext =>
      -- without a sign of its own, the magnitude is not taken for a negative one
      have hmem : '-' ∈ l.radix.mark ++ l.digits.map Digit.char := htext ▸ List.mem_cons_self
      exact absurd (l.isAlphanum_of_mem_magnitude hmem) (by decide)
    · exact l.prefixedOf?_magnitude

end LiteralSyntax

/-! ## Shifts -/

theorem ofInt_in_range {k : Int} (h : 0 ≤ k ∧ k < 64) :
    0 ≤ Int64.ofInt k ∧ Int64.ofInt k < 64 := by
  have hk : (Int64.ofInt k).toInt = k := Int64.toInt_ofInt_of_le (by omega) (by omega)
  rw [Int64.le_iff_toInt_le, Int64.lt_iff_toInt_lt, hk]
  exact h

/-- The remainder that a shift takes of its second word. -/
theorem smod_of_lt :
    ∀ k : Fin 64, (Int64.ofInt (k : Nat)).toBitVec.smod 64 = BitVec.ofNat 64 k := by
  decide

theorem twoPow_eq_ofInt (w k : Nat) : BitVec.twoPow w k = BitVec.ofInt w (2 ^ k) := by
  have hcast : (2 ^ k : Int) = ((2 ^ k : Nat) : Int) := by simp
  apply BitVec.eq_of_toNat_eq
  rw [hcast, BitVec.ofInt_natCast, BitVec.toNat_ofNat, BitVec.toNat_twoPow]

/-- A shift multiplies by a power of two, up to the size of a word. -/
theorem shiftLeft_ofInt (i : Int) {k : Int} (h : 0 ≤ k ∧ k < 64) :
    Int64.ofInt i <<< Int64.ofInt k = Int64.ofInt (i * 2 ^ k.toNat) := by
  lift k to Nat using h.1
  have hk : k < 64 := by exact_mod_cast h.2
  rw [← Int64.toBitVec_inj, Int64.toBitVec_shiftLeft, smod_of_lt ⟨k, hk⟩, Int64.toBitVec_ofInt,
    Int64.toBitVec_ofInt, BitVec.shiftLeft_eq', BitVec.toNat_ofNat, Nat.mod_eq_of_lt (by omega),
    BitVec.shiftLeft_eq_mul_twoPow, twoPow_eq_ofInt, BitVec.ofInt_mul, Int.toNat_natCast]

/-! ## Terms -/

namespace Gap

def empty : Gap := ⟨[], List.forall_mem_nil _⟩

theorem not_mem {c : Char} (g : Gap) (hc : isBlank c = false) : c ∉ g.chars :=
  fun h => Bool.false_ne_true (hc.symm.trans (g.blanks c h))

end Gap

namespace LiteralSyntax

variable (l : LiteralSyntax)

theorem not_mem {c : Char} (hc : ¬ IsLiteralChar c) : c ∉ l.text :=
  fun h => hc (l.isLiteralChar_of_mem h)

theorem text_ne_nil : l.text ≠ [] := by
  have hplaces : l.places.map placeChar ≠ [] := by simpa using l.places_ne_nil
  exact List.append_ne_nil_of_left_ne_nil (List.append_ne_nil_of_right_ne_nil _ hplaces) _

theorem literalOf?_before (after : Gap) :
    literalOf? (l.text ++ after.chars) = some (.ofInt l.value) :=
  l.literalOf?_text .empty after

theorem literalOf?_after (before : Gap) :
    literalOf? (before.chars ++ l.text) = some (.ofInt l.value) := by
  have h := l.literalOf?_text before .empty
  rwa [Gap.empty, List.append_nil] at h

end LiteralSyntax

namespace OperandSyntax

variable (o : OperandSyntax) {c : Char}

theorem isLiteralChar_head (h : c ∈ o.text.head?) : IsLiteralChar c := by
  cases o with
  | literal l => exact l.isLiteralChar_of_mem (List.mem_of_mem_head? h)
  | shifted l before after shift below =>
    rw [text, List.append_assoc, List.head?_append_of_ne_nil _ l.text_ne_nil] at h
    exact l.isLiteralChar_of_mem (List.mem_of_mem_head? h)

theorem isLiteralChar_last (h : c ∈ o.text.getLast?) : IsLiteralChar c := by
  cases o with
  | literal l => exact l.isLiteralChar_of_mem (List.mem_of_getLast? h)
  | shifted l before after shift below =>
    rw [text, ← List.cons_append, ← List.cons_append, ← List.append_assoc,
      List.getLast?_append_of_ne_nil _ shift.text_ne_nil] at h
    exact shift.isLiteralChar_of_mem (List.mem_of_getLast? h)

theorem trimmed : Trimmed o.text where
  head := fun _ hc => (o.isLiteralChar_head hc).not_blank
  last := fun _ hc => (o.isLiteralChar_last hc).not_blank

theorem insideParens?_text : insideParens? o.text = none := by
  unfold insideParens?
  split
  · next rest htext =>
    have hhead : '(' ∈ o.text.head? := by
      rw [htext]
      rfl
    exact absurd (o.isLiteralChar_head hhead) (by decide)
  · rfl

end OperandSyntax

theorem insideParens?_parens (inner : List Char) :
    insideParens? ('(' :: (inner ++ [')'])) = some inner := by
  have hsuffix : [')'].isSuffixOf? (inner ++ [')']) = some inner := by
    have hstart := isPrefixOf?_append [')'] inner.reverse
    rw [List.isSuffixOf?, List.reverse_append, List.reverse_singleton, hstart, Option.map_some,
      List.reverse_reverse]
  exact hsuffix

theorem stripParens_of_some {text inner : List Char} (h : insideParens? text = some inner) :
    stripParens text = stripParens (trimChars inner) := by
  rw [stripParens]
  split
  · next inner' hinner' =>
    obtain rfl := Option.some.inj (h.symm.trans hinner')
    rfl
  · next hnone => exact absurd (h.symm.trans hnone) (Option.some_ne_none inner)

theorem stripParens_of_none {text : List Char} (h : insideParens? text = none) :
    stripParens text = text := by
  rw [stripParens]
  split
  · next inner hinner => exact absurd (hinner.symm.trans h) (Option.some_ne_none inner)
  · rfl

namespace TermSyntax

variable (t : TermSyntax)

theorem trimmed : Trimmed t.text := by
  cases t with
  | plain o => exact o.trimmed
  | parens before inner after =>
    refine ⟨?_, ?_⟩
    · intro c hc
      obtain rfl := Option.some.inj hc
      decide
    · intro c hc
      rw [text, ← List.cons_append, List.getLast?_concat] at hc
      obtain rfl := Option.some.inj hc
      decide

/-- Parentheses go, with the blanks in them, and leave the operand. -/
theorem stripParens_text : stripParens t.text = t.operand.text := by
  induction t with
  | plain o => exact stripParens_of_none o.insideParens?_text
  | parens before inner after ih =>
    rw [text, stripParens_of_some (insideParens?_parens _),
      trimChars_padded before.blanks inner.trimmed after.blanks, ih, operand]

end TermSyntax

/-- **Terms.**  A term is read as its value, whatever blanks are around it. -/
theorem SpacedTerm.maskTermOf?_text (t : SpacedTerm) : maskTermOf? t.text = some t.term.value := by
  unfold maskTermOf? SpacedTerm.text
  rw [trimChars_padded t.before.blanks t.term.trimmed t.after.blanks, t.term.stripParens_text,
    TermSyntax.value]
  cases t.term.operand with
  | literal l =>
    have hone : splitOnce ['<', '<'] l.text = none := splitOnce_eq_none (l.not_mem (by decide))
    simp only [OperandSyntax.text, hone]
    exact l.literalOf?_after .empty
  | shifted l before after shift below =>
    have hlt : '<' ∉ l.text ++ before.chars :=
      List.not_mem_append (l.not_mem (by decide)) (before.not_mem (by decide))
    simp only [OperandSyntax.text, splitOnce_append hlt, shift.literalOf?_after,
      l.literalOf?_before, Option.bind_eq_bind, Option.bind_some]
    rw [decide_eq_true (ofInt_in_range below).1, decide_eq_true (ofInt_in_range below).2]
    exact congrArg some (shiftLeft_ofInt l.value below)

/-! ## Masks -/

theorem maskOfText?_pieces (text : String) :
    maskOfText? text = (text.toList.splitOn '|').foldlM
      (fun mask term => (maskTermOf? term).map (mask ||| ·)) 0 := by
  rw [maskOfText?, splitAt_eq_splitOnP, List.splitOn_eq_splitOnP]

theorem foldlM_terms (mask : Int64) (ts : List SpacedTerm) :
    (ts.map SpacedTerm.text).foldlM (fun mask term => (maskTermOf? term).map (mask ||| ·)) mask =
      some ((ts.map fun t => t.term.value).foldl (· ||| ·) mask) := by
  induction ts generalizing mask with
  | nil => rfl
  | cons t ts ih =>
    rw [List.map_cons, List.foldlM_cons, t.maskTermOf?_text, Option.map_some]
    exact ih (mask ||| t.term.value)

theorem foldlM_eq_none_iff (mask : Int64) (pieces : List (List Char)) :
    pieces.foldlM (fun mask term => (maskTermOf? term).map (mask ||| ·)) mask = none ↔
      ∃ piece ∈ pieces, maskTermOf? piece = none := by
  induction pieces generalizing mask with
  | nil => simp
  | cons piece pieces ih =>
    rw [List.foldlM_cons, List.exists_mem_cons_iff]
    cases hpiece : maskTermOf? piece with
    | none => simp
    | some bits => simpa using ih (mask ||| bits)

theorem maskOfText?_eq_none_iff (text : String) :
    maskOfText? text = none ↔ ∃ piece ∈ text.toList.splitOn '|', maskTermOf? piece = none := by
  rw [maskOfText?_pieces, foldlM_eq_none_iff]

/-- A piece is read on its own as it is among others. -/
theorem maskOfText?_piece {piece : List Char} (h : '|' ∉ piece) :
    maskOfText? (String.ofList piece) = none ↔ maskTermOf? piece = none := by
  rw [maskOfText?_eq_none_iff, String.toList_ofList, List.splitOn_eq_singleton h]
  simp

@[simp]
theorem Gap.bar_not_mem (g : Gap) : '|' ∉ g.chars := g.not_mem (by decide)

@[simp]
theorem LiteralSyntax.bar_not_mem (l : LiteralSyntax) : '|' ∉ l.text := l.not_mem (by decide)

@[simp]
theorem OperandSyntax.bar_not_mem (o : OperandSyntax) : '|' ∉ o.text := by
  cases o <;> simp [text]

@[simp]
theorem TermSyntax.bar_not_mem (t : TermSyntax) : '|' ∉ t.text := by
  induction t with
  | plain o => exact o.bar_not_mem
  | parens before inner after ih => simp [text, ih]

theorem SpacedTerm.bar_not_mem (t : SpacedTerm) : '|' ∉ t.text := by
  simp [text]

theorem MaskSyntax.splitOn_text (m : MaskSyntax) :
    m.text.toList.splitOn '|' = m.terms.map SpacedTerm.text := by
  rw [MaskSyntax.text, String.toList_ofList]
  apply List.splitOn_intercalate
  · exact List.forall_mem_map.mpr fun t _ => t.bar_not_mem
  · exact List.cons_ne_nil _ _

theorem MaskSyntax.maskOfText?_text (m : MaskSyntax) : maskOfText? m.text = some m.value := by
  rw [maskOfText?_pieces, m.splitOn_text]
  exact foldlM_terms 0 m.terms

/-- **Masks.**  A mask text is read as the bits that its terms have.  A text of any kind is read
exactly if each of its pieces is. -/
theorem MaskSyntax.value?_text :
    (∀ m : MaskSyntax, (InterestMask.defaultLiteral m.text).value? = some m.value) ∧
      ∀ text : String, (InterestMask.defaultLiteral text).value? = none ↔
        ∃ piece ∈ text.toList.splitOn '|',
          (InterestMask.defaultLiteral (String.ofList piece)).value? = none := by
  refine ⟨fun m => m.maskOfText?_text, fun text => ?_⟩
  simp only [InterestMask.value?]
  rw [maskOfText?_eq_none_iff]
  constructor
  · rintro ⟨piece, hpiece, hnone⟩
    exact ⟨piece, hpiece, (maskOfText?_piece (not_mem_of_mem_splitOn hpiece)).mpr hnone⟩
  · rintro ⟨piece, hpiece, hnone⟩
    exact ⟨piece, hpiece, (maskOfText?_piece (not_mem_of_mem_splitOn hpiece)).mp hnone⟩

/-! ## A shift beside a number in base sixteen -/

namespace Flags

/-- A literal of one digit. -/
def short (v : Fin 10) : LiteralSyntax where
  negative := false
  radix := .decimal
  places := [some ⟨v, false⟩]
  suffix := []
  digits_ne_nil := List.cons_ne_nil _ _
  number_le := by
    revert v
    decide
  suffix_letters := LiteralSyntax.suffix_letters_nil

/-- The literal `0x_0fL`. -/
def lowest : LiteralSyntax where
  negative := false
  radix := .hexadecimal false
  places := [none, some ⟨(0 : Fin 16), false⟩, some ⟨(15 : Fin 16), false⟩]
  suffix := ['L']
  digits_ne_nil := List.cons_ne_nil _ _
  number_le := by decide
  suffix_letters := by simp

def space : Gap := ⟨[' '], by simp [Blanks, isBlank]⟩

def mask : MaskSyntax where
  first := ⟨.empty, .parens .empty
    (.plain (.shifted (short 1) space space (short 4) (by decide))) .empty, space⟩
  more := [⟨space, .plain (.literal lowest), .empty⟩]

theorem mask_read : (InterestMask.defaultLiteral "(1 << 4) | 0x_0fL").value? = some 31 := by
  have htext : mask.text = "(1 << 4) | 0x_0fL" := by with_unfolding_all rfl
  have hvalue : mask.value = 31 := by decide
  have hread := MaskSyntax.value?_text.1 mask
  rwa [htext, hvalue] at hread

end Flags

end NetSchema
