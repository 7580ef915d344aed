import NetSchema.Proofs.Scene.Grammar

/-!
# Moving over tokens

`Passes c ts d` says that the cursor moves from `c` past exactly the tokens `ts` to `d`.

* `value_eq_ok_iff`: a value is read exactly where the tokens of one are passed;
* `passes_iff`: the tokens of a stream without faults are those that can be passed to its end;
* `exists_firstPass`: the first pass over such a stream finds variables.
-/

namespace NetSchema

namespace Cursor

/-- Moving on from `c` past the tokens `ts` leads to `d`. -/
inductive Passes : Cursor → List Token → Cursor → Prop
  | nil {c} : Passes c [] c
  | cons {c d e t ts} : c.current = t → t ≠ .endOfFile → c.advance = (.ok (), d) → Passes d ts e →
      Passes c (t :: ts) e

variable {c d e : Cursor} {t : Token} {ts us : List Token} {vars : Variables}

/-! ## Single tokens -/

theorem passes_nil_iff : Passes c [] d ↔ c = d := by
  constructor
  · intro h
    cases h
    rfl
  · rintro rfl
    exact .nil

theorem passes_cons_iff : Passes c (t :: ts) e ↔
    c.current = t ∧ t ≠ .endOfFile ∧ ∃ d, c.advance = (.ok (), d) ∧ Passes d ts e := by
  constructor
  · intro h
    cases h with
    | cons hc ht ha hrest => exact ⟨hc, ht, _, ha, hrest⟩
  · rintro ⟨hc, ht, d, ha, hrest⟩
    exact .cons hc ht ha hrest

theorem passes_one_iff :
    Passes c [t] d ↔ c.current = t ∧ t ≠ .endOfFile ∧ c.advance = (.ok (), d) := by
  simp [passes_cons_iff, passes_nil_iff]

theorem passes_append_iff :
    Passes c (ts ++ us) e ↔ ∃ d, Passes c ts d ∧ Passes d us e := by
  induction ts generalizing c with
  | nil => simp [passes_nil_iff]
  | cons t ts ih =>
    rw [List.cons_append, passes_cons_iff]
    constructor
    · rintro ⟨hc, ht, d, ha, hrest⟩
      obtain ⟨d', hts, hus⟩ := ih.mp hrest
      exact ⟨d', .cons hc ht ha hts, hus⟩
    · rintro ⟨d', hts, hus⟩
      obtain ⟨hc, ht, d, ha, hts⟩ := passes_cons_iff.mp hts
      exact ⟨hc, ht, d, ha, ih.mpr ⟨d', hts, hus⟩⟩

theorem passes_head_iff : Passes c (t :: ts) e ↔ ∃ d, Passes c [t] d ∧ Passes d ts e := by
  rw [← List.singleton_append, passes_append_iff]

theorem passes_two_iff {t' : Token} :
    Passes c (t :: t' :: ts) e ↔ ∃ d, Passes c [t, t'] d ∧ Passes d ts e := by
  rw [show t :: t' :: ts = [t, t'] ++ ts from rfl, passes_append_iff]

theorem Passes.append (h : Passes c ts d) (h' : Passes d us e) : Passes c (ts ++ us) e :=
  passes_append_iff.mpr ⟨d, h, h'⟩

theorem expect_eq_ok_iff (ht : t ≠ .endOfFile) : c.expect t = (.ok (), d) ↔ Passes c [t] d := by
  rw [passes_one_iff, expect]
  split
  · next hc => simp [hc, ht]
  · next hc => simp [hc]

theorem ident_eq_ok_iff {name : String} :
    c.ident = (.ok name, d) ↔ Passes c [.ident name] d := by
  rw [passes_one_iff, ident]
  split
  · next n hc =>
    obtain ⟨current, line, rest⟩ := c
    cases rest <;> simp_all [advance]
  · next hc =>
    constructor
    · intro h
      cases h
    · intro h
      exact absurd h.1 (hc name)

/-! ## Values -/

theorem passes_of_components {xs ys : List Binary} (h : c.components xs = (.ok ys, e)) :
    ∃ first more, Passes c (slotsTokens first more) e ∧
      ys = xs ++ (first :: more).filterMap id := by
  fun_induction components xs c with
  | case1 => cases h
  | case2 => cases h
  | case3 xs c x hc _ d _ ha hd _ d' _ ha' _ ih =>
    obtain ⟨first, more, hp, rfl⟩ := ih h
    refine ⟨some x, first :: more, ?_, by simp⟩
    exact .cons hc (by simp) ha (.cons hd (by simp) ha' hp)
  | case4 xs c x hc _ d _ ha hd =>
    cases h
    exact ⟨some x, [], .cons hc (by simp) ha .nil, by simp⟩
  | case5 => cases h
  | case6 xs c hc _ d _ ha _ ih =>
    obtain ⟨first, more, hp, rfl⟩ := ih h
    exact ⟨none, first :: more, .cons hc (by simp) ha hp, by simp⟩
  | case7 xs c hnumber hcomma =>
    cases h
    exact ⟨none, [], .nil, by simp⟩

theorem components_stop (hnumber : ∀ x, c.current ≠ .number x) (hcomma : c.current ≠ .comma)
    (xs : List Binary) : c.components xs = (.ok xs, c) := by
  unfold components
  split <;> simp_all

theorem components_comma (hc : c.current = .comma) (ha : c.advance = (.ok (), d))
    (xs : List Binary) : c.components xs = d.components xs := by
  rw [components]
  split <;> simp_all
  split <;> simp_all

theorem components_last {x : Binary} (hc : c.current = .number x) (ha : c.advance = (.ok (), d))
    (hd : d.current ≠ .comma) (xs : List Binary) : c.components xs = (.ok (xs ++ [x]), d) := by
  unfold components
  split <;> simp_all
  split <;> simp_all

theorem components_number {x : Binary} (hc : c.current = .number x) (ha : c.advance = (.ok (), d))
    (hd : d.current = .comma) (ha' : d.advance = (.ok (), e)) (xs : List Binary) :
    c.components xs = e.components (xs ++ [x]) := by
  rw [components]
  split <;> simp_all
  split <;> simp_all
  split <;> simp_all

/-- The numbers of a vector are read up to its closing parenthesis. -/
theorem components_of_passes {first : Option Binary} {more : List (Option Binary)}
    (h : Passes c (slotsTokens first more) e) (he : e.current = .rightParen) (xs : List Binary) :
    c.components xs = (.ok (xs ++ (first :: more).filterMap id), e) := by
  induction more generalizing first c xs with
  | nil =>
    cases first with
    | none =>
      obtain rfl := passes_nil_iff.mp h
      rw [components_stop (by simp [he]) (by simp [he])]
      simp
    | some x =>
      obtain ⟨hc, -, ha⟩ := passes_one_iff.mp h
      rw [components_last hc ha (by simp [he])]
      simp
  | cons next more ih =>
    cases first with
    | none =>
      obtain ⟨hc, -, d, ha, hrest⟩ := passes_cons_iff.mp h
      rw [components_comma hc ha, ih hrest xs]
      simp
    | some x =>
      obtain ⟨hc, -, d, ha, hcomma⟩ := passes_cons_iff.mp h
      obtain ⟨hd, -, d', ha', hrest⟩ := passes_cons_iff.mp hcomma
      rw [components_number hc ha hd ha', ih hrest (xs ++ [x])]
      simp

theorem vector_eq_ok_iff {v : SceneValue} : c.vector = (.ok v, e) ↔
    ∃ first more, Passes c (slotsTokens first more ++ [.rightParen]) e ∧
      ValueSyntax.vectorMeaning? ((first :: more).filterMap id) = some v := by
  unfold vector
  simp only [ValueSyntax.vectorOf?_eq]
  constructor
  · intro h
    split at h
    · cases h
    · next xs d hxs =>
      split at h
      · cases h
      · next d' he =>
        split at h
        · next v' hv =>
          cases h
          obtain ⟨first, more, hp, rfl⟩ := passes_of_components hxs
          exact ⟨first, more, hp.append ((expect_eq_ok_iff (by simp)).mp he), hv⟩
        · cases h
  · rintro ⟨first, more, hp, hv⟩
    obtain ⟨d, hslots, hparen⟩ := passes_append_iff.mp hp
    have hcurrent : d.current = .rightParen := (passes_one_iff.mp hparen).1
    have hend := (expect_eq_ok_iff (by simp)).mpr hparen
    simp only [components_of_passes hslots hcurrent, hend, List.nil_append, hv]

theorem variableUse_eq_ok_iff {v : SceneValue} : c.variableUse vars = (.ok v, e) ↔
    ∃ name, Passes c [.ident name] e ∧ vars.get? name = some v := by
  unfold variableUse
  constructor
  · intro h
    split at h
    · cases h
    · next name d hname =>
      split at h
      · next v' hv =>
        cases h
        exact ⟨name, ident_eq_ok_iff.mp hname, hv⟩
      · cases h
  · rintro ⟨name, hp, hv⟩
    rw [ident_eq_ok_iff.mpr hp]
    simp [hv]

theorem passTo_eq_ok_iff {next : Cursor → Except SceneError SceneValue × Cursor} {v : SceneValue} :
    c.passTo next = (.ok v, e) ↔ ∃ d, c.advance = (.ok (), d) ∧ next d = (.ok v, e) := by
  unfold passTo
  split <;> simp_all

/-- **Values.**  A value is read where the tokens of one that means something are passed. -/
theorem value_eq_ok_iff {v : SceneValue} : c.value vars = (.ok v, e) ↔
    ∃ x : ValueSyntax, Passes c x.tokens e ∧ x.meaning? vars = some v := by
  constructor
  · intro h
    unfold value at h
    split at h
    · next x hc =>
      obtain ⟨d, ha, hd⟩ := passTo_eq_ok_iff.mp h
      cases hd
      exact ⟨.number x, .cons hc (by simp) ha .nil, rfl⟩
    · next s hc =>
      obtain ⟨d, ha, hd⟩ := passTo_eq_ok_iff.mp h
      cases hd
      exact ⟨.string s, .cons hc (by simp) ha .nil, rfl⟩
    · next name hc =>
      obtain ⟨d, ha, hd⟩ := passTo_eq_ok_iff.mp h
      cases hd
      exact ⟨.word name, .cons hc (by simp) ha .nil,
        congrArg some (ValueSyntax.wordValue_eq name).symm⟩
    · next hc =>
      obtain ⟨d, ha, hd⟩ := passTo_eq_ok_iff.mp h
      obtain ⟨name, hp, hv⟩ := variableUse_eq_ok_iff.mp hd
      exact ⟨.variable name, .cons hc (by simp) ha hp, hv⟩
    · next hc =>
      obtain ⟨d, ha, hd⟩ := passTo_eq_ok_iff.mp h
      obtain ⟨first, more, hp, hv⟩ := vector_eq_ok_iff.mp hd
      exact ⟨.vector first more, .cons hc (by simp) ha hp, hv⟩
    · cases h
  · rintro ⟨x, hp, hv⟩
    cases x with
    | number x =>
      obtain ⟨hc, -, ha⟩ := passes_one_iff.mp hp
      cases hv
      simp only [value, hc]
      exact passTo_eq_ok_iff.mpr ⟨e, ha, rfl⟩
    | string s =>
      obtain ⟨hc, -, ha⟩ := passes_one_iff.mp hp
      cases hv
      simp only [value, hc]
      exact passTo_eq_ok_iff.mpr ⟨e, ha, rfl⟩
    | word name =>
      obtain ⟨hc, -, ha⟩ := passes_one_iff.mp hp
      cases hv
      simp only [value, hc, ValueSyntax.wordValue_eq]
      exact passTo_eq_ok_iff.mpr ⟨e, ha, rfl⟩
    | «variable» name =>
      obtain ⟨hc, -, d, ha, hname⟩ := passes_cons_iff.mp hp
      simp only [value, hc]
      exact passTo_eq_ok_iff.mpr ⟨d, ha, variableUse_eq_ok_iff.mpr ⟨name, hname, hv⟩⟩
    | vector first more =>
      obtain ⟨hc, -, d, ha, hslots⟩ := passes_cons_iff.mp hp
      simp only [value, hc]
      exact passTo_eq_ok_iff.mpr ⟨d, ha, vector_eq_ok_iff.mpr ⟨first, more, hslots, hv⟩⟩

end Cursor

/-! ## Streams -/

namespace TokenStream

/-- The tokens of a stream, if there is no fault between them. -/
def tokens? : TokenStream → Option (List Token)
  | finish _ => some []
  | token t _ rest => rest.tokens?.map (t :: ·)
  | failure _ _ _ => none

/-- The end of the file is not one of the tokens. -/
def Proper : TokenStream → Prop
  | finish _ => True
  | token t _ rest => t ≠ .endOfFile ∧ rest.Proper
  | failure _ _ rest => rest.Proper

theorem ofPosition_proper (p : Position) : (ofPosition p).Proper := by
  fun_induction ofPosition p with
  | case1 p e q h hlt ih => exact ih
  | case2 p q h => trivial
  | case3 p t q h ht hlt ih => exact ⟨ht, ih⟩

theorem ofText_proper (text : String) : (ofText text).Proper := ofPosition_proper _

/-- **Streams.**  The tokens that lead from the start of a stream to its end are all that it has. -/
theorem passes_iff {s : TokenStream} (hs : s.Proper) {x : Cursor} (hx : x.rest = s)
    {ts : List Token} :
    (∃ c d, x.advance = (.ok (), c) ∧ c.Passes ts d ∧ d.current = .endOfFile) ↔
      s.tokens? = some ts := by
  induction s generalizing x ts with
  | finish line =>
    have ha : x.advance = (.ok (), ⟨.endOfFile, line, .finish line⟩) := by
      simp [Cursor.advance, hx]
    rw [ha, tokens?]
    constructor
    · rintro ⟨c, d, hc, hp, -⟩
      cases hc
      cases hp with
      | nil => rfl
      | cons hc ht _ _ => exact absurd hc.symm ht
    · intro h
      cases h
      exact ⟨_, _, rfl, .nil, rfl⟩
  | token t line rest ih =>
    have ha : x.advance = (.ok (), ⟨t, line, rest⟩) := by simp [Cursor.advance, hx]
    rw [ha, tokens?, Option.map_eq_some_iff]
    constructor
    · rintro ⟨c, d, hc, hp, hd⟩
      cases hc
      cases hp with
      | nil => exact absurd hd hs.1
      | cons hc _ ha' hrest =>
        cases hc
        exact ⟨_, (ih hs.2 rfl).mp ⟨_, d, ha', hrest, hd⟩, rfl⟩
    · rintro ⟨us, hus, rfl⟩
      obtain ⟨c, d, ha', hp, hd⟩ := (ih hs.2 (x := ⟨t, line, rest⟩) rfl).mpr hus
      exact ⟨_, d, rfl, .cons rfl hs.1 ha' hp, hd⟩
  | failure e line rest ih =>
    have ha : x.advance = (.error e, { x with rest := rest }) := by simp [Cursor.advance, hx]
    rw [ha, tokens?]
    constructor
    · rintro ⟨c, d, hc, -, -⟩
      cases hc
    · intro h
      cases h

end TokenStream

/-! ## The first pass -/

namespace Cursor

/-- There is no fault in front of the cursor. -/
def Clean (c : Cursor) : Prop := c.rest.tokens?.isSome = true

variable {c d : Cursor} {vars : Variables}

theorem Clean.advance (h : c.Clean) : ∃ d, c.advance = (.ok (), d) ∧ d.Clean := by
  obtain ⟨current, line, rest⟩ := c
  unfold Clean at h
  cases rest with
  | finish l => exact ⟨_, rfl, rfl⟩
  | token t l rest =>
    refine ⟨_, rfl, ?_⟩
    simpa [Clean, TokenStream.tokens?] using h
  | failure e l rest => cases h

theorem Clean.of_advance {r : Except SceneError Unit} (h : c.Clean) (ha : c.advance = (r, d)) :
    d.Clean := by
  obtain ⟨d', ha', hd'⟩ := h.advance
  rw [ha] at ha'
  cases ha'
  exact hd'

theorem Clean.advance_ne_error {e : SceneError} (h : c.Clean) : c.advance ≠ (.error e, d) := by
  obtain ⟨d', ha, -⟩ := h.advance
  simp [ha]

theorem Clean.expect (h : c.Clean) (t : Token) : (c.expect t).2.Clean := by
  unfold Cursor.expect
  split
  · exact h.of_advance rfl
  · exact h

theorem Clean.ident {name : String} (h : c.Clean) (hc : c.current = .ident name) :
    ∃ d, c.ident = (.ok name, d) ∧ d.Clean := by
  obtain ⟨d, ha, hd⟩ := h.advance
  exact ⟨d, ident_eq_ok_iff.mpr (.cons hc (by simp) ha .nil), hd⟩

theorem Clean.of_ident {r : Except SceneError String} (h : c.Clean) (hi : c.ident = (r, d)) :
    d.Clean := by
  by_cases hc : ∃ name, c.current = .ident name
  · obtain ⟨name, hc⟩ := hc
    obtain ⟨d', hi', hd'⟩ := h.ident hc
    rw [hi] at hi'
    cases hi'
    exact hd'
  · unfold Cursor.ident at hi
    split at hi
    · next name hname => exact absurd ⟨name, hname⟩ hc
    · cases hi
      exact h

theorem Clean.components (h : c.Clean) (xs : List Binary) : (c.components xs).2.Clean := by
  fun_induction Cursor.components xs c with
  | case1 xs c x hc _ e d ha => exact h.of_advance ha
  | case2 xs c x hc _ d _ ha hd _ e d' ha' => exact (h.of_advance ha).of_advance ha'
  | case3 xs c x hc _ d _ ha hd _ d' _ ha' _ ih => exact ih ((h.of_advance ha).of_advance ha')
  | case4 xs c x hc _ d _ ha hd => exact h.of_advance ha
  | case5 xs c hc _ e d ha => exact h.of_advance ha
  | case6 xs c hc _ d _ ha _ ih => exact ih (h.of_advance ha)
  | case7 xs c hnumber hcomma => exact h

theorem Clean.vector (h : c.Clean) : c.vector.2.Clean := by
  have hxs := h.components []
  unfold Cursor.vector
  split
  · next hx =>
    rw [hx] at hxs
    exact hxs
  · next xs d hx =>
    rw [hx] at hxs
    have he := Clean.expect hxs .rightParen
    split
    · next hx =>
      rw [hx] at he
      exact he
    · next hx =>
      rw [hx] at he
      split <;> exact he

theorem Clean.variableUse (h : c.Clean) (vars : Variables) : (c.variableUse vars).2.Clean := by
  unfold Cursor.variableUse
  split
  · next hi => exact h.of_ident hi
  · next hi => split <;> exact h.of_ident hi

theorem Clean.passTo {next : Cursor → Except SceneError SceneValue × Cursor} (h : c.Clean)
    (hnext : ∀ d : Cursor, d.Clean → (next d).2.Clean) : (c.passTo next).2.Clean := by
  obtain ⟨d, ha, hd⟩ := h.advance
  rw [Cursor.passTo, ha]
  exact hnext d hd

theorem Clean.value (h : c.Clean) (vars : Variables) : (c.value vars).2.Clean := by
  unfold Cursor.value
  split
  · exact h.passTo fun d hd => hd
  · exact h.passTo fun d hd => hd
  · exact h.passTo fun d hd => hd
  · exact h.passTo fun d hd => hd.variableUse vars
  · exact h.passTo fun d hd => hd.vector
  · exact h

theorem Clean.of_value {r : Except SceneError SceneValue} (h : c.Clean)
    (hv : c.value vars = (r, d)) : d.Clean := by
  have hd := h.value vars
  rwa [hv] at hd

/-- Gathering variables only fails at a fault. -/
theorem Clean.collectVariables (h : c.Clean) (vars : Variables) :
    ∃ vars', c.collectVariables vars = .ok vars' := by
  fun_induction Cursor.collectVariables vars c with
  | case1 => exact ⟨_, rfl⟩
  | case2 _ _ _ _ _ _ ha => exact absurd ha h.advance_ne_error
  | case3 _ _ _ _ _ _ ha _ _ ih => exact ih (h.of_advance ha)
  | case4 _ _ _ _ _ d ha _ _ name hname _ _ _ hi =>
    obtain ⟨d', hi', -⟩ := (h.of_advance ha).ident hname
    rw [hi] at hi'
    cases hi'
  | case5 _ _ _ _ _ _ ha _ _ _ _ _ _ _ hi _ _ _ _ _ ha' =>
    exact absurd ha' ((h.of_advance ha).of_ident hi).advance_ne_error
  | case6 _ _ _ _ _ _ ha _ _ _ _ _ _ _ hi _ _ _ _ _ ha' _ _ _ _ hv _ ih =>
    exact ih ((((h.of_advance ha).of_ident hi).of_advance ha').of_value hv)
  | case7 _ _ _ _ _ _ ha _ _ _ _ _ _ _ hi _ _ _ _ _ ha' _ _ _ _ hv _ ih =>
    exact ih ((((h.of_advance ha).of_ident hi).of_advance ha').of_value hv)
  | case8 _ _ _ _ _ _ ha _ _ _ _ _ _ _ hi _ _ ih => exact ih ((h.of_advance ha).of_ident hi)
  | case9 _ _ _ _ _ _ ha _ _ _ ih => exact ih (h.of_advance ha)

end Cursor

namespace TokenStream

theorem exists_firstPass {s : TokenStream} (h : s.tokens?.isSome = true) :
    ∃ vars, s.firstPass = .ok vars := by
  have hstart : (Cursor.start s).Clean := h
  obtain ⟨c, ha, hc⟩ := hstart.advance
  obtain ⟨vars, hvars⟩ := hc.collectVariables {}
  refine ⟨vars, ?_⟩
  rw [firstPass, first, ha]
  exact hvars

end TokenStream

end NetSchema
