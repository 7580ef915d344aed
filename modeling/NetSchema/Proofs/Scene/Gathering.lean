import NetSchema.Proofs.Scene.Passing

/-!
# What the first pass gathers

On tokens of the grammar the first pass sees nothing but the definitions.  It goes through them in
order and keeps each value that means something with what it has kept so far.

* `value_of_passes`: whether a value means something or not, its tokens are moved past;
* `collectVariables_of_plain`: tokens without a definition are moved past;
* `collectVariables_of_passes`, `firstPass_eq_gather`: the variables of the first pass.
-/

namespace NetSchema

/-! ## Gathering -/

namespace ItemSyntax

/-- The variables with a further definition, if its value means something. -/
def store (vars : Variables) (name : String) (x : ValueSyntax) : Variables :=
  match x.meaning? vars with
  | some v => vars.insert name v
  | none => vars

/-- The variables that definitions add to `vars`, in order. -/
def gather : Variables → List ItemSyntax → Variables
  | vars, [] => vars
  | vars, definition name x :: rest => gather (store vars name x) rest
  | vars, node _ :: rest => gather vars rest

theorem gather_append (vars : Variables) (items rest : List ItemSyntax) :
    gather vars (items ++ rest) = gather (gather vars items) rest := by
  induction items generalizing vars with
  | nil => rfl
  | cons item items ih => cases item <;> exact ih _

end ItemSyntax

/-! ## Tokens without definitions -/

/-- After each `@` there is a name, and no `=` behind it. -/
inductive Plain : List Token → Prop
  | nil : Plain []
  | other {t ts} : t ≠ .at → Plain ts → Plain (t :: ts)
  | use {name ts} : ts.head? ≠ some .equals → Plain ts → Plain (.at :: .ident name :: ts)

namespace Plain

variable {ts us : List Token}

theorem append (h : Plain ts) (h' : Plain us) (hhead : us.head? ≠ some .equals) :
    Plain (ts ++ us) := by
  induction h with
  | nil => exact h'
  | other ht _ ih => exact .other ht ih
  | @use name ts hts _ ih =>
    refine .use ?_ ih
    cases ts with
    | nil => exact hhead
    | cons t ts => exact hts

theorem opening (name : String) : Plain (opening name) :=
  .other (by simp) (.other (by simp) (.other (by simp) .nil))

theorem closing (name : String) : Plain (closing name) :=
  .other (by simp) (.other (by simp) (.other (by simp) (.other (by simp) .nil)))

/-- Between the numbers of a vector there are commas only. -/
theorem slots (first : Option Binary) (more : List (Option Binary)) (h : Plain ts) :
    Plain (slotsTokens first more ++ ts) := by
  induction more generalizing first with
  | nil =>
    cases first with
    | none => exact h
    | some x => exact .other (by simp) h
  | cons next more ih =>
    cases first with
    | none => exact .other (by simp) (ih next)
    | some x => exact .other (by simp) (.other (by simp) (ih next))

theorem value (x : ValueSyntax) : Plain x.tokens := by
  cases x with
  | number x => exact .other (by simp) .nil
  | string s => exact .other (by simp) .nil
  | word name => exact .other (by simp) .nil
  | «variable» name => exact .use (by simp) .nil
  | vector first more => exact .other (by simp) (slots first more (.other (by simp) .nil))

theorem field (f : FieldSyntax) : Plain f.tokens :=
  .other (by simp) (.other (by simp) (value f.value))

theorem body_head (body : BodySyntax) (type : String) :
    (body.tokens ++ NetSchema.closing type).head? ≠ some .equals := by
  cases body <;> simp [BodySyntax.tokens, FieldSyntax.tokens, NetSchema.opening, NetSchema.closing]

theorem body (body : BodySyntax) (type : String) :
    Plain (body.tokens ++ NetSchema.closing type) := by
  induction body generalizing type with
  | done => exact closing type
  | field f rest ih =>
    rw [BodySyntax.tokens, List.append_assoc]
    exact (field f).append (ih type) (body_head rest type)
  | nested type' inner rest ihi ihr =>
    have hinner := (opening type').append (ihi type') (body_head inner type')
    have hall := hinner.append (ihr type) (body_head rest type)
    simpa [BodySyntax.tokens] using hall

theorem fields (fs : List FieldSyntax) (h : Plain ts) (hhead : ts.head? ≠ some .equals) :
    Plain (fs.flatMap FieldSyntax.tokens ++ ts) := by
  induction fs with
  | nil => exact h
  | cons f fs ih =>
    rw [List.flatMap_cons, List.append_assoc]
    refine (field f).append ih ?_
    cases fs with
    | nil => exact hhead
    | cons g gs => simp [FieldSyntax.tokens]

theorem node (n : NodeSyntax) : Plain n.tokens := by
  have hblock : Plain (BlockSyntax.optionalTokens n.block? ++ NetSchema.closing n.key) ∧
      (BlockSyntax.optionalTokens n.block? ++ NetSchema.closing n.key).head? ≠ some .equals := by
    cases n.block? with
    | none => exact ⟨closing n.key, by simp [BlockSyntax.optionalTokens, NetSchema.closing]⟩
    | some b =>
      have hb := (opening b.type).append (body b.body b.type) (body_head b.body b.type)
      have hall := hb.append (closing n.key) (by simp [NetSchema.closing])
      refine ⟨by simpa [BlockSyntax.optionalTokens, BlockSyntax.tokens] using hall, ?_⟩
      simp [BlockSyntax.optionalTokens, BlockSyntax.tokens, NetSchema.opening]
  have hfields := fields n.fields hblock.1 hblock.2
  have hhead : (n.fields.flatMap FieldSyntax.tokens ++
      (BlockSyntax.optionalTokens n.block? ++ NetSchema.closing n.key)).head? ≠ some .equals := by
    cases n.fields with
    | nil => exact hblock.2
    | cons f fs => simp [FieldSyntax.tokens]
  have hall := (opening n.key).append hfields hhead
  simpa [NodeSyntax.tokens] using hall

end Plain

namespace Cursor

variable {c d e : Cursor} {ts : List Token} {vars : Variables} {name : String}

/-! ## Values that mean nothing -/

/-- What is wrong with a value that means nothing. -/
inductive Misses (vars : Variables) : ValueSyntax → SceneError → Prop
  | unknown {name line} : vars.get? name = none →
      Misses vars (.variable name) (.unknownVariable line name)
  | vector {first more line} : ValueSyntax.vectorMeaning? ((first :: more).filterMap id) = none →
      Misses vars (.vector first more) (.invalidVector line ((first :: more).filterMap id).length)

/-- A value that means nothing is moved past all the same. -/
theorem value_of_passes {x : ValueSyntax} (h : Passes c x.tokens d) (hx : x.meaning? vars = none) :
    ∃ e, c.value vars = (.error e, d) ∧ Misses vars x e := by
  cases x with
  | number x => cases hx
  | string s => cases hx
  | word name => cases hx
  | «variable» name =>
    obtain ⟨hc, -, c₁, ha, hname⟩ := passes_cons_iff.mp h
    have hget : vars.get? name = none := hx
    refine ⟨.unknownVariable c₁.line name, ?_, .unknown hget⟩
    simp only [value, hc, passTo, ha, variableUse, ident_eq_ok_iff.mpr hname, hget]
  | vector first more =>
    obtain ⟨hc, -, c₁, ha, hslots⟩ := passes_cons_iff.mp h
    obtain ⟨c₂, hslots, hparen⟩ := passes_append_iff.mp hslots
    have hcomponents := components_of_passes hslots (passes_one_iff.mp hparen).1 []
    have hend := (expect_eq_ok_iff (by simp)).mpr hparen
    have hvector : vectorOf? ((first :: more).filterMap id) = none :=
      (ValueSyntax.vectorOf?_eq _).trans hx
    refine ⟨.invalidVector c₂.line _, ?_, .vector hx⟩
    simp only [value, hc, passTo, ha, vector, hcomponents, hend, List.nil_append, hvector]

/-! ## Steps of the first pass -/

theorem collectVariables_end (hc : c.current = .endOfFile) :
    c.collectVariables vars = .ok vars := by
  rw [collectVariables, dif_pos hc]

theorem collectVariables_other (hc : c.current ≠ .endOfFile) (hat : c.current ≠ .at)
    (ha : c.advance = (.ok (), d)) : c.collectVariables vars = d.collectVariables vars := by
  rw [collectVariables, dif_neg hc]
  split
  · simp_all
  · next d' ha' =>
    obtain rfl := (Prod.mk.inj (ha.symm.trans ha')).2
    rw [if_pos hat]

theorem collectVariables_use (h : Passes c [.at, .ident name] d) (hd : d.current ≠ .equals) :
    c.collectVariables vars = d.collectVariables vars := by
  obtain ⟨hc, -, c₁, ha, hname⟩ := passes_cons_iff.mp h
  have hc₁ : c₁.current = .ident name := (passes_one_iff.mp hname).1
  have hi := ident_eq_ok_iff.mpr hname
  rw [collectVariables, dif_neg (by simp [hc])]
  split
  · simp_all
  · next c₁' ha' =>
    obtain rfl := (Prod.mk.inj (ha.symm.trans ha')).2
    rw [if_neg (by simp [hc])]
    split
    · split
      · simp_all
      · next name' d' hi' =>
        obtain ⟨-, rfl⟩ := Prod.mk.inj (hi.symm.trans hi')
        rw [dif_neg hd]
    · simp_all

theorem collectVariables_definition {x : ValueSyntax}
    (h : Passes c (.at :: .ident name :: .equals :: x.tokens) d) :
    c.collectVariables vars = d.collectVariables (ItemSyntax.store vars name x) := by
  obtain ⟨hc, -, c₁, ha, hrest⟩ := passes_cons_iff.mp h
  obtain ⟨c₂, hname, hrest⟩ := passes_head_iff.mp hrest
  obtain ⟨he, -, c₃, ha', hx⟩ := passes_cons_iff.mp hrest
  have hc₁ : c₁.current = .ident name := (passes_one_iff.mp hname).1
  have hi := ident_eq_ok_iff.mpr hname
  rw [collectVariables, dif_neg (by simp [hc])]
  split
  · simp_all
  next c₁' hadvance =>
  obtain rfl := (Prod.mk.inj (ha.symm.trans hadvance)).2
  rw [if_neg (by simp [hc])]
  split
  · split
    · simp_all
    next name' d' hi' =>
    obtain ⟨hname', rfl⟩ := Prod.mk.inj (hi.symm.trans hi')
    cases hname'
    rw [dif_pos he]
    split
    · simp_all
    next c₃' hadvance' =>
    obtain rfl := (Prod.mk.inj (ha'.symm.trans hadvance')).2
    -- the value is passed in either case
    cases hm : x.meaning? vars with
    | some v =>
      have hv : c₃.value vars = (.ok v, d) := value_eq_ok_iff.mpr ⟨x, hx, hm⟩
      rw [ItemSyntax.store, hm]
      split <;> simp_all
    | none =>
      obtain ⟨e, hv, -⟩ := value_of_passes hx hm
      rw [ItemSyntax.store, hm]
      split <;> simp_all
  · simp_all

/-- **Plain tokens.**  Where there is no definition, the first pass finds nothing. -/
theorem collectVariables_of_plain (hplain : Plain ts) (h : Passes c ts d)
    (hd : d.current ≠ .equals) : c.collectVariables vars = d.collectVariables vars := by
  induction hplain generalizing c with
  | nil => rw [passes_nil_iff.mp h]
  | other ht _ ih =>
    obtain ⟨hc, hend, c₁, ha, hrest⟩ := passes_cons_iff.mp h
    rw [collectVariables_other (hc ▸ hend) (hc ▸ ht) ha]
    exact ih hrest
  | @use name ts hhead _ ih =>
    obtain ⟨c₁, huse, hrest⟩ := passes_two_iff.mp h
    have hc₁ : c₁.current ≠ .equals := by
      cases ts with
      | nil => exact passes_nil_iff.mp hrest ▸ hd
      | cons t ts =>
        rw [(passes_cons_iff.mp hrest).1]
        simpa using hhead
    rw [collectVariables_use huse hc₁]
    exact ih hrest

/-- **The first pass gathers definitions.** -/
theorem collectVariables_of_passes {items : List ItemSyntax}
    (h : Passes c (items.flatMap ItemSyntax.tokens) d) (hd : d.current = .endOfFile) :
    c.collectVariables vars = .ok (ItemSyntax.gather vars items) := by
  induction items generalizing c vars with
  | nil =>
    obtain rfl := passes_nil_iff.mp h
    exact collectVariables_end hd
  | cons item items ih =>
    obtain ⟨c₁, hitem, hrest⟩ := passes_append_iff.mp h
    cases item with
    | definition name x =>
      rw [collectVariables_definition hitem, ItemSyntax.gather]
      exact ih hrest
    | node n =>
      have hc₁ : c₁.current ≠ .equals := by
        cases items with
        | nil => simp [passes_nil_iff.mp hrest, hd]
        | cons item items =>
          obtain ⟨c₂, hitem, -⟩ := passes_append_iff.mp hrest
          cases item with
          | definition name x => simp [(passes_cons_iff.mp hitem).1]
          | node n => simp [(passes_cons_iff.mp hitem).1]
      rw [collectVariables_of_plain (Plain.node n) hitem hc₁, ItemSyntax.gather]
      exact ih hrest

end Cursor

namespace TokenStream

/-- The variables of the first pass are those that the definitions of the text add up to. -/
theorem firstPass_eq_gather {s : TokenStream} (hs : s.Proper) {items : List ItemSyntax}
    (h : s.tokens? = some (items.flatMap ItemSyntax.tokens)) :
    s.firstPass = .ok (ItemSyntax.gather {} items) := by
  obtain ⟨c, d, ha, hp, hd⟩ := (passes_iff hs (x := .start s) rfl).mpr h
  rw [firstPass, first, ha]
  exact Cursor.collectVariables_of_passes hp hd

end TokenStream

end NetSchema
