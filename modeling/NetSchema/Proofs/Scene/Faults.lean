import NetSchema.Proofs.Scene.Gathering
import NetSchema.Proofs.Scene.Reading
import NetSchema.Proofs.Scene.Uses

/-!
# What a text fails with

Tokens of the grammar that mean nothing are not read.  The fault is then either a variable that is
used and not known, or something that no further variables would mend.

* `Explains`: such a fault of a part of a text;
* `typedBody_fails`, `nodeBlock_fails`, `readDefinition_fails`: blocks, nodes and definitions;
* `readBlocks_fails`: a file fails at the first item that means nothing with what is known there.
-/

namespace NetSchema

/-- What is known of the names in `us`, `vars'` knows too. -/
def ExtendsOn (us : List String) (vars vars' : Variables) : Prop :=
  ∀ name ∈ us, ∀ v, vars.get? name = some v → vars'.get? name = some v

/-- A fault of a part that uses the variables `us`, of which `Means` says with which variables it
means something. -/
inductive Explains (vars : Variables) (us : List String) (Means : Variables → Prop) :
    SceneError → Prop
  | unknown {line name} : name ∈ us → vars.get? name = none →
      Explains vars us Means (.unknownVariable line name)
  | other {e} : (∀ line name, e ≠ .unknownVariable line name) →
      (∀ vars', ExtendsOn us vars vars' → ¬ Means vars') → Explains vars us Means e

variable {vars vars' : Variables} {us us' : List String} {e : SceneError}

theorem ExtendsOn.mono (h : ExtendsOn us' vars vars') (hsub : us ⊆ us') : ExtendsOn us vars vars' :=
  fun name hname => h name (hsub hname)

/-- A fault of a part is one of the whole. -/
theorem Explains.mono {Means Means' : Variables → Prop} (h : Explains vars us Means e)
    (hsub : us ⊆ us') (hwhole : ∀ vars', ExtendsOn us' vars vars' → Means' vars' → Means vars') :
    Explains vars us' Means' e := by
  cases h with
  | unknown hname hget => exact .unknown (hsub hname) hget
  | other hne hnot =>
    refine .other hne ?_
    intro vars' hext hmeans
    exact hnot vars' (hext.mono hsub) (hwhole vars' hext hmeans)

theorem ExtendsOn.get?_eq (h : ExtendsOn us vars vars')
    (hknown : ∀ name ∈ us, (vars.get? name).isSome = true) :
    ∀ name ∈ us, vars.get? name = vars'.get? name := by
  intro name hname
  obtain ⟨v, hv⟩ := Option.isSome_iff_exists.mp (hknown name hname)
  rw [hv, h name hname v hv]

theorem ValueSyntax.meaning?_of_extends {x : ValueSyntax} {v : SceneValue}
    (h : x.meaning? vars = some v) (hext : ExtendsOn x.uses vars vars') :
    x.meaning? vars' = some v := by
  rw [← h, meaning?_congr (hext.get?_eq fun _ => known_of_meaning? h)]

theorem FieldSyntax.meaning?_of_extends {f : FieldSyntax} {x : String × SceneValue}
    (h : f.meaning? vars = some x) (hext : ExtendsOn f.uses vars vars') :
    f.meaning? vars' = some x := by
  rw [← h, meaning?_congr (hext.get?_eq fun _ => known_of_meaning? h)]

theorem NodeSyntax.meaning?_of_extends {n : NodeSyntax} {b : NodeBlock}
    (h : n.meaning? vars = some b) (hext : ExtendsOn n.uses vars vars') :
    n.meaning? vars' = some b := by
  rw [← h, meaning?_congr (hext.get?_eq fun _ => known_of_meaning? h)]

/-- All of the fields mean something that fits. -/
def FieldSyntax.AllFit (vars : Variables) (fs : List FieldSyntax) : Prop :=
  ∃ es, fs.mapM (meaning? vars) = some es ∧ ∀ e ∈ es, FieldFits e

theorem FieldSyntax.allFit_nil : AllFit vars [] := ⟨[], rfl, by simp⟩

theorem FieldSyntax.allFit_cons_iff {f : FieldSyntax} {fs : List FieldSyntax} :
    AllFit vars (f :: fs) ↔ (∃ x, f.meaning? vars = some x ∧ FieldFits x) ∧ AllFit vars fs := by
  unfold AllFit
  rw [List.mapM_cons]
  constructor
  · rintro ⟨es, hes, hall⟩
    obtain ⟨x, hx, hes⟩ := Option.bind_eq_some_iff.mp hes
    obtain ⟨es', hes', h⟩ := Option.bind_eq_some_iff.mp hes
    cases h
    obtain ⟨hfits, hall⟩ := List.forall_mem_cons.mp hall
    exact ⟨⟨x, hx, hfits⟩, es', hes', hall⟩
  · rintro ⟨⟨x, hx, hfits⟩, es, hes, hall⟩
    refine ⟨x :: es, ?_, List.forall_mem_cons.mpr ⟨hfits, hall⟩⟩
    rw [hx, hes]
    rfl

namespace BodySyntax

theorem means_field_iff {f : FieldSyntax} {rest : BodySyntax} :
    (∃ m, (field f rest).meaning? vars = some m) ↔
      (∃ x, f.meaning? vars = some x) ∧ ∃ m, rest.meaning? vars = some m := by
  rw [meaning?]
  cases f.meaning? vars <;> cases rest.meaning? vars <;> simp

theorem means_nested_iff {type : String} {inner rest : BodySyntax} :
    (∃ m, (nested type inner rest).meaning? vars = some m) ↔
      (∃ m, inner.meaning? vars = some m) ∧ ∃ m, rest.meaning? vars = some m := by
  rw [meaning?]
  cases inner.meaning? vars <;> cases rest.meaning? vars <;> simp

end BodySyntax

namespace ItemSyntax

/-- The item means something with these variables, whatever the root is. -/
def Means (vars : Variables) : ItemSyntax → Prop
  | definition name x =>
    ∃ v, x.meaning? vars = some v ∧ (name = "root" → v.asKey?.isSome = true)
  | node n => ∃ b, n.meaning? vars = some b

theorem isSome_rootAfter? {name : String} {v : SceneValue} {root : Option String} :
    (rootAfter? name v root).isSome = true ↔ (name = "root" → v.asKey?.isSome = true) := by
  unfold rootAfter?
  split
  · next h => simp [h]
  · next h => simp [h]

end ItemSyntax

namespace Cursor

variable {c d : Cursor} {name : String}

/-! ## Steps -/

theorem Passes.step {t : Token} (h : Passes c [t] d) (hc : c.current ≠ .endOfFile) :
    c.step hc = .ok ⟨d, h.remaining_lt⟩ :=
  (step_eq_ok_iff (passes_one_iff.mp h).1).mpr h

theorem Passes.readToken {t : Token} {ht : t ≠ .endOfFile} (h : Passes c [t] d) :
    c.readToken t ht = .ok ⟨d, h.remaining_lt⟩ :=
  readToken_eq_ok_iff.mpr h

theorem Passes.readName (h : Passes c [.ident name] d) :
    c.readName = .ok (name, ⟨d, h.remaining_lt⟩) :=
  readName_eq_ok_iff.mpr h

/-! ## Values and fields -/

theorem Misses.explains {x : ValueSyntax} (h : Misses vars x e) :
    Explains vars x.uses (fun vars => ∃ v, x.meaning? vars = some v) e := by
  cases h with
  | unknown hget => exact .unknown (by simp [ValueSyntax.uses]) hget
  | vector hnone =>
    refine .other (by simp) ?_
    rintro vars' - ⟨v, hv⟩
    exact absurd (hnone.symm.trans hv) (by simp)

theorem readField_fails {f : FieldSyntax} (hp : Passes c f.tokens d)
    (hm : f.meaning? vars = none) :
    ∃ e, c.readField vars = .error e ∧
      Explains vars f.uses (fun vars => ∃ x, f.meaning? vars = some x) e := by
  obtain ⟨c₁, hname, hrest⟩ := passes_head_iff.mp hp
  obtain ⟨c₂, hequals, hvalue⟩ := passes_head_iff.mp hrest
  obtain ⟨e, he, hmisses⟩ := value_of_passes hvalue (Option.map_eq_none_iff.mp hm)
  have hread : c₂.readValue vars = .error e := by
    unfold readValue
    split <;> simp_all
  refine ⟨e, ?_, hmisses.explains.mono (fun _ h => h) ?_⟩
  · refine bind_ok_error hname.readName ?_
    refine bind_ok_error hequals.readToken ?_
    exact bind_error hread
  · rintro vars' - ⟨x, hx⟩
    obtain ⟨v, hv, -⟩ := Option.map_eq_some_iff.mp hx
    exact ⟨v, hv⟩

/-! ## Typed blocks -/

theorem typedBody_error_of_field {type : String} {fields : SceneFields} {base : Option TypedBlock}
    (hc : c.current = .ident name) (hfield : c.readField vars = .error e) :
    c.typedBody vars type fields base = .error e := by
  unfold typedBody
  split
  · simp_all
  · exact bind_error hfield
  · simp_all

theorem typedBody_error_of_rest {type : String} {fields : SceneFields} {base : Option TypedBlock}
    {line : Nat} {v : SceneValue} {a : Ahead c} (hc : c.current = .ident name)
    (hfield : c.readField vars = .ok (name, line, v, a))
    (hrest : a.1.typedBody vars type (fields.insert name v) base = .error e) :
    c.typedBody vars type fields base = .error e := by
  unfold typedBody
  split
  · simp_all
  · exact bind_ok_error hfield (bind_error hrest)
  · simp_all

theorem typedBlock_error_of_body {type : String} (hp : Passes c [.ident type, .rightBracket] d)
    (hbody : d.typedBody vars type {} none = .error e) : c.typedBlock vars = .error e := by
  obtain ⟨c₁, hname, hbracket⟩ := passes_head_iff.mp hp
  unfold typedBlock
  refine bind_ok_error hname.readName ?_
  refine bind_ok_error hbracket.readToken ?_
  exact bind_error hbody

theorem typedBody_error_of_nested {type : String} {fields : SceneFields}
    {base : Option TypedBlock} (hopen : Passes c [.leftBracket] d) (hd : d.current ≠ .slash)
    (hnested : d.typedBlock vars = .error e) : c.typedBody vars type fields base = .error e := by
  have hc : c.current = .leftBracket := (passes_one_iff.mp hopen).1
  unfold typedBody
  split
  · refine bind_ok_error (hopen.step _) ?_
    dsimp only
    rw [dif_neg hd]
    exact bind_error hnested
  · simp_all
  · simp_all

theorem typedBody_error_after_nested {type : String} {fields : SceneFields}
    {base : Option TypedBlock} (hopen : Passes c [.leftBracket] d) (hd : d.current ≠ .slash)
    {nested : TypedBlock} {b : Ahead d} (hnested : d.typedBlock vars = .ok (nested, b))
    (hrest : b.1.typedBody vars type fields (some nested) = .error e) :
    c.typedBody vars type fields base = .error e := by
  have hc : c.current = .leftBracket := (passes_one_iff.mp hopen).1
  unfold typedBody
  split
  · refine bind_ok_error (hopen.step _) ?_
    dsimp only
    rw [dif_neg hd]
    exact bind_ok_error hnested (bind_error hrest)
  · simp_all
  · simp_all

/-- **Typed blocks** fail at the first value that means nothing. -/
theorem typedBody_fails {type : String} {body : BodySyntax}
    (hp : Passes c (body.tokens ++ closing type) d) (hm : body.meaning? vars = none)
    (fields : SceneFields) (base : Option TypedBlock) :
    ∃ e, c.typedBody vars type fields base = .error e ∧
      Explains vars body.uses (fun vars => ∃ m, body.meaning? vars = some m) e := by
  induction body generalizing c type d fields base with
  | done => cases hm
  | field f rest ih =>
    rw [BodySyntax.tokens, List.append_assoc] at hp
    obtain ⟨c₁, hf, hrest⟩ := passes_append_iff.mp hp
    have hc : c.current = .ident f.name := (passes_cons_iff.mp hf).1
    cases hv : f.meaning? vars with
    | none =>
      obtain ⟨e, hread, hexplains⟩ := readField_fails hf hv
      exact ⟨e, typedBody_error_of_field hc hread, hexplains.mono (List.subset_append_left ..)
        fun _ _ h => (BodySyntax.means_field_iff.mp h).1⟩
    | some x =>
      have hnone : rest.meaning? vars = none := by
        cases hr : rest.meaning? vars with
        | none => rfl
        | some m => simp [BodySyntax.meaning?, hv, hr] at hm
      obtain ⟨v, -, rfl⟩ := Option.map_eq_some_iff.mp hv
      obtain ⟨line, hread⟩ := (readField_eq_ok_iff (a := ⟨c₁, hf.remaining_lt⟩)).mpr ⟨f, hf, hv⟩
      obtain ⟨e, he, hexplains⟩ := ih hrest hnone (fields.insert f.name v) base
      exact ⟨e, typedBody_error_of_rest hc hread he, hexplains.mono (List.subset_append_right ..)
        fun _ _ h => (BodySyntax.means_field_iff.mp h).2⟩
  | nested type' inner rest ihi ihr =>
    have hall : Passes c ([.leftBracket] ++ ([.ident type', .rightBracket] ++
        ((inner.tokens ++ closing type') ++ (rest.tokens ++ closing type)))) d := by
      simpa [BodySyntax.tokens, opening] using hp
    obtain ⟨c₁, hopen, hall⟩ := passes_append_iff.mp hall
    obtain ⟨c₂, hname, hall⟩ := passes_append_iff.mp hall
    obtain ⟨c₃, hinner, hrest⟩ := passes_append_iff.mp hall
    have hne : c₁.current ≠ .slash := by
      rw [(passes_cons_iff.mp hname).1]
      simp
    cases hi : inner.meaning? vars with
    | none =>
      obtain ⟨e, he, hexplains⟩ := ihi hinner hi {} none
      exact ⟨e, typedBody_error_of_nested hopen hne (typedBlock_error_of_body hname he),
        hexplains.mono (List.subset_append_left ..)
          fun _ _ h => (BodySyntax.means_nested_iff.mp h).1⟩
    | some m =>
      have hnone : rest.meaning? vars = none := by
        cases hr : rest.meaning? vars with
        | none => rfl
        | some m' => simp [BodySyntax.meaning?, hi, hr] at hm
      have hlt : c₃.remaining < c₁.remaining := Nat.lt_trans hinner.closing_lt hname.remaining_lt
      have hbody := typedBody_of_passes (a := ⟨c₃, hinner.closing_lt⟩) hinner hi {} none
      have hnested := typedBlock_of_body (a := ⟨c₃, hlt⟩) hname hbody
      obtain ⟨e, he, hexplains⟩ := ihr hrest hnone fields (some (extended type' {} none m.1 m.2))
      exact ⟨e, typedBody_error_after_nested hopen hne hnested he,
        hexplains.mono (List.subset_append_right ..)
          fun _ _ h => (BodySyntax.means_nested_iff.mp h).2⟩

/-! ## Nodes -/

/-- A field that does not fit is a fault of its own. -/
theorem setField_fails (line : Nat) {v : SceneValue} (b : NodeBlock)
    (h : ¬ FieldFits (name, v)) :
    ∃ e, setField line name v b = .error e ∧ ∀ line name, e ≠ .unknownVariable line name := by
  cases hset : setField line name v b with
  | ok b' => exact absurd (setField_eq_ok_iff.mp hset).1 h
  | error e =>
    refine ⟨e, rfl, ?_⟩
    rintro line' name' rfl
    unfold setField at hset
    split at hset
    · split at hset <;> cases hset
    split at hset
    · split at hset <;> cases hset
    split at hset
    · split at hset <;> cases hset
    split at hset <;> cases hset

/-- Fields of a node fail at the first one that means nothing or does not fit. -/
theorem nodeFields_fails {fs : List FieldSyntax} (hp : Passes c (fs.flatMap FieldSyntax.tokens) d)
    (hnot : ¬ FieldSyntax.AllFit vars fs) (b : NodeBlock) :
    ∃ e, c.nodeFields vars b = .error e ∧
      Explains vars (fs.flatMap FieldSyntax.uses) (FieldSyntax.AllFit · fs) e := by
  induction fs generalizing c b with
  | nil => exact absurd FieldSyntax.allFit_nil hnot
  | cons f fs ih =>
    rw [List.flatMap_cons] at hp ⊢
    obtain ⟨c₁, hf, hrest⟩ := passes_append_iff.mp hp
    have hc : c.current = .ident f.name := (passes_cons_iff.mp hf).1
    unfold nodeFields
    rw [hc]
    dsimp only
    cases hm : f.meaning? vars with
    | none =>
      obtain ⟨e, hread, hexplains⟩ := readField_fails hf hm
      refine ⟨e, bind_error hread, hexplains.mono (List.subset_append_left ..) ?_⟩
      intro vars' _ hall
      obtain ⟨⟨x, hx, -⟩, -⟩ := FieldSyntax.allFit_cons_iff.mp hall
      exact ⟨x, hx⟩
    | some x =>
      obtain ⟨v, -, rfl⟩ := Option.map_eq_some_iff.mp hm
      obtain ⟨line, hread⟩ := (readField_eq_ok_iff (a := ⟨c₁, hf.remaining_lt⟩)).mpr ⟨f, hf, hm⟩
      by_cases hfits : FieldFits (f.name, v)
      · have hset : setField c.line f.name v b = .ok (b.put (f.name, v)) :=
          setField_eq_ok_iff.mpr ⟨hfits, rfl⟩
        have hnot' : ¬ FieldSyntax.AllFit vars fs := fun hall =>
          hnot (FieldSyntax.allFit_cons_iff.mpr ⟨⟨_, hm, hfits⟩, hall⟩)
        obtain ⟨e, he, hexplains⟩ := ih hrest hnot' (b.put (f.name, v))
        refine ⟨e, bind_ok_error hread (bind_ok_error hset (bind_error he)),
          hexplains.mono (List.subset_append_right ..) ?_⟩
        exact fun vars' _ hall => (FieldSyntax.allFit_cons_iff.mp hall).2
      · obtain ⟨e, he, hne⟩ := setField_fails c.line b hfits
        refine ⟨e, bind_ok_error hread (bind_error he), .other hne ?_⟩
        intro vars' hext hall
        obtain ⟨⟨x, hx, hfits'⟩, -⟩ := FieldSyntax.allFit_cons_iff.mp hall
        have hsame := FieldSyntax.meaning?_of_extends hm (hext.mono (List.subset_append_left ..))
        rw [hx] at hsame
        cases hsame
        exact hfits hfits'

theorem nodeData_fails {block? : Option BlockSyntax}
    (hp : Passes c (BlockSyntax.optionalTokens block? ++ [.leftBracket]) d)
    (hm : BlockSyntax.optionalMeaning? vars block? = none) :
    ∃ c', Passes c [.leftBracket] c' ∧ ∃ e, c'.nodeData vars = .error e ∧
      Explains vars (BlockSyntax.optionalUses block?)
        (fun vars => ∃ data, BlockSyntax.optionalMeaning? vars block? = some data) e := by
  cases block? with
  | none => cases hm
  | some b =>
    have hall : Passes c ([.leftBracket] ++ ([.ident b.type, .rightBracket] ++
        ((b.body.tokens ++ closing b.type) ++ [.leftBracket]))) d := by
      simpa [BlockSyntax.optionalTokens, BlockSyntax.tokens, opening] using hp
    obtain ⟨c₁, hopen, hall⟩ := passes_append_iff.mp hall
    obtain ⟨c₂, hname, hall⟩ := passes_append_iff.mp hall
    obtain ⟨c₃, hbody, -⟩ := passes_append_iff.mp hall
    have hne : c₁.current ≠ .slash := by
      rw [(passes_cons_iff.mp hname).1]
      simp
    have hnone : b.body.meaning? vars = none :=
      Option.map_eq_none_iff.mp (Option.map_eq_none_iff.mp hm)
    obtain ⟨e, he, hexplains⟩ := typedBody_fails hbody hnone {} none
    refine ⟨c₁, hopen, e, ?_, hexplains.mono (fun _ h => h) ?_⟩
    · unfold nodeData
      rw [if_neg hne]
      exact bind_error (typedBlock_error_of_body hname he)
    · rintro vars' - ⟨data, hdata⟩
      obtain ⟨block, hblock, -⟩ := Option.map_eq_some_iff.mp hdata
      obtain ⟨m, hm', -⟩ := Option.map_eq_some_iff.mp hblock
      exact ⟨m, hm'⟩

/-- **Nodes** fail at the first field that means nothing or does not fit, or else in their block. -/
theorem nodeBlock_fails {n : NodeSyntax} (hp : Passes c (.ident n.key :: .rightBracket ::
      (n.fields.flatMap FieldSyntax.tokens ++ BlockSyntax.optionalTokens n.block? ++
        closing n.key)) d) (hm : n.meaning? vars = none) :
    ∃ e, c.nodeBlock vars = .error e ∧
      Explains vars n.uses (fun vars => ∃ b, n.meaning? vars = some b) e := by
  have hall : Passes c ([.ident n.key] ++ ([.rightBracket] ++
      (n.fields.flatMap FieldSyntax.tokens ++ ((BlockSyntax.optionalTokens n.block? ++
        [.leftBracket]) ++ [.slash, .ident n.key, .rightBracket])))) d := by
    simpa [closing] using hp
  obtain ⟨c₁, hname, hall⟩ := passes_append_iff.mp hall
  obtain ⟨c₂, hbracket, hall⟩ := passes_append_iff.mp hall
  obtain ⟨c₃, hfs, hall⟩ := passes_append_iff.mp hall
  obtain ⟨c₅, hblock, -⟩ := passes_append_iff.mp hall
  unfold nodeBlock
  by_cases hfits : FieldSyntax.AllFit vars n.fields
  · obtain ⟨es, hes, hfits⟩ := hfits
    have hnone : BlockSyntax.optionalMeaning? vars n.block? = none := by
      cases hdata : BlockSyntax.optionalMeaning? vars n.block? with
      | none => rfl
      | some data =>
        have hsome := NodeSyntax.meaning?_eq_some_iff.mpr ⟨es, data, hes, hfits, hdata, rfl⟩
        rw [hm] at hsome
        cases hsome
    obtain ⟨c₄, hopen, e, he, hexplains⟩ := nodeData_fails hblock hnone
    have hstop : ∀ name, c₃.current ≠ .ident name := by
      intro name
      rw [(passes_one_iff.mp hopen).1]
      simp
    have hfields := nodeFields_of_passes (a := ⟨c₃, hfs.remaining_le⟩) hfs hes hfits hstop
      { key := n.key }
    refine ⟨e, ?_, hexplains.mono (List.subset_append_right ..) ?_⟩
    · refine bind_ok_error hname.readName ?_
      refine bind_ok_error hbracket.readToken ?_
      refine bind_ok_error hfields ?_
      refine bind_ok_error hopen.readToken ?_
      exact bind_error he
    · rintro vars' - ⟨b, hb⟩
      obtain ⟨-, data, -, -, hdata, -⟩ := NodeSyntax.meaning?_eq_some_iff.mp hb
      exact ⟨data, hdata⟩
  · obtain ⟨e, he, hexplains⟩ := nodeFields_fails hfs hfits { key := n.key }
    refine ⟨e, ?_, hexplains.mono (List.subset_append_left ..) ?_⟩
    · refine bind_ok_error hname.readName ?_
      refine bind_ok_error hbracket.readToken ?_
      exact bind_error he
    · rintro vars' - ⟨b, hb⟩
      obtain ⟨es, -, hes, hfits, -, -⟩ := NodeSyntax.meaning?_eq_some_iff.mp hb
      exact ⟨es, hes, hfits⟩

/-! ## Files -/

/-- **Definitions** fail if the value means nothing, or for the root, if it is no key. -/
theorem readDefinition_fails {x : ValueSyntax}
    (hp : Passes c (.ident name :: .equals :: x.tokens) d)
    (hnot : ¬ ItemSyntax.Means vars (.definition name x)) (root : Option String) :
    ∃ e, c.readDefinition vars root = .error e ∧
      Explains vars x.uses (ItemSyntax.Means · (.definition name x)) e := by
  unfold readDefinition
  cases hm : FieldSyntax.meaning? vars ⟨name, x⟩ with
  | none =>
    obtain ⟨e, hread, hexplains⟩ := readField_fails (f := ⟨name, x⟩) hp hm
    refine ⟨e, bind_error hread, hexplains.mono (fun _ h => h) ?_⟩
    rintro vars' - ⟨v, hv, -⟩
    exact ⟨(name, v), by rw [FieldSyntax.meaning?, hv, Option.map_some]⟩
  | some y =>
    obtain ⟨v, hv, rfl⟩ := Option.map_eq_some_iff.mp hm
    obtain ⟨line, hread⟩ :=
      (readField_eq_ok_iff (a := ⟨d, hp.remaining_lt⟩)).mpr ⟨⟨name, x⟩, hp, hm⟩
    have hroot : ¬ (name = "root" → v.asKey?.isSome = true) := fun h => hnot ⟨v, hv, h⟩
    obtain ⟨rfl, hkey⟩ := Classical.not_imp.mp hroot
    refine ⟨.invalidField line "@root" "a node key", ?_, .other (by simp) ?_⟩
    · refine bind_ok_error hread ?_
      dsimp only
      rw [if_pos rfl]
      cases v with
      | key k => exact absurd rfl hkey
      | _ => rfl
    · rintro vars' hext ⟨v', hv', hkey'⟩
      have hsame := FieldSyntax.meaning?_of_extends hm hext
      rw [FieldSyntax.meaning?, hv'] at hsame
      cases hsame
      exact hkey (hkey' rfl)

theorem readBlocks_error_of_definition {root : Option String} (hat : Passes c [.at] d)
    (hdefinition : d.readDefinition vars root = .error e) : c.readBlocks vars root = .error e := by
  have hc : c.current = .at := (passes_one_iff.mp hat).1
  unfold readBlocks
  split
  · simp_all
  · exact bind_ok_error (hat.step _) (bind_error hdefinition)
  · simp_all
  · simp_all

theorem readBlocks_error_after_definition {root root' : Option String} (hat : Passes c [.at] d)
    {a : Ahead d} (hdefinition : d.readDefinition vars root = .ok (vars', root', a))
    (hrest : a.1.readBlocks vars' root' = .error e) : c.readBlocks vars root = .error e := by
  have hc : c.current = .at := (passes_one_iff.mp hat).1
  unfold readBlocks
  split
  · simp_all
  · exact bind_ok_error (hat.step _) (bind_ok_error hdefinition hrest)
  · simp_all
  · simp_all

theorem readBlocks_error_of_node {root : Option String} (hopen : Passes c [.leftBracket] d)
    (hnode : d.nodeBlock vars = .error e) : c.readBlocks vars root = .error e := by
  have hc : c.current = .leftBracket := (passes_one_iff.mp hopen).1
  unfold readBlocks
  split
  · simp_all
  · simp_all
  · exact bind_ok_error (hopen.step _) (bind_error hnode)
  · simp_all

theorem readBlocks_error_after_node {root : Option String} {b : NodeBlock}
    (hopen : Passes c [.leftBracket] d) {a : Ahead d} (hnode : d.nodeBlock vars = .ok (b, a))
    (hrest : a.1.readBlocks vars root = .error e) : c.readBlocks vars root = .error e := by
  have hc : c.current = .leftBracket := (passes_one_iff.mp hopen).1
  unfold readBlocks
  split
  · simp_all
  · simp_all
  · exact bind_ok_error (hopen.step _) (bind_ok_error hnode (bind_error hrest))
  · simp_all

theorem passes_node {n : NodeSyntax} (h : Passes c n.tokens d) :
    ∃ c₁, Passes c [.leftBracket] c₁ ∧ Passes c₁ (.ident n.key :: .rightBracket ::
      (n.fields.flatMap FieldSyntax.tokens ++ BlockSyntax.optionalTokens n.block? ++
        closing n.key)) d := by
  have hall : Passes c ([.leftBracket] ++ (.ident n.key :: .rightBracket ::
      (n.fields.flatMap FieldSyntax.tokens ++ BlockSyntax.optionalTokens n.block? ++
        closing n.key))) d := by
    simpa [NodeSyntax.tokens, opening] using h
  exact passes_append_iff.mp hall

/-- **Files** fail at the first item that means nothing with the variables known there. -/
theorem readBlocks_fails {items : List ItemSyntax} {root : Option String}
    (hp : Passes c (items.flatMap ItemSyntax.tokens) d)
    (hm : ItemSyntax.meaning? vars root items = none) :
    ∃ before item after r e, items = before ++ item :: after ∧
      ItemSyntax.meaning? vars root before = some r ∧ c.readBlocks vars root = .error e ∧
        Explains (ItemSyntax.gather vars before) item.uses (ItemSyntax.Means · item) e := by
  induction items generalizing c vars root with
  | nil => cases hm
  | cons item items ih =>
    obtain ⟨c₁, hitem, hrest⟩ := passes_append_iff.mp hp
    by_cases hmeans : ItemSyntax.Means vars item
    · cases item with
      | definition name x =>
        obtain ⟨v, hv, hkey⟩ := hmeans
        have hsome : (ItemSyntax.rootAfter? name v root).isSome = true :=
          ItemSyntax.isSome_rootAfter?.mpr hkey
        obtain ⟨root', hroot⟩ := Option.isSome_iff_exists.mp hsome
        obtain ⟨c₂, hat, hdefinition⟩ := passes_head_iff.mp hitem
        have hread := (readDefinition_eq_ok_iff (a := ⟨c₁, hdefinition.remaining_lt⟩)).mpr
          ⟨name, x, v, hdefinition, hv, hroot, rfl⟩
        have hnone : ItemSyntax.meaning? (vars.insert name v) root' items = none := by
          simpa [ItemSyntax.meaning?, hv, hroot] using hm
        obtain ⟨before, item, after, r, e, rfl, hbefore, he, hexplains⟩ := ih hrest hnone
        refine ⟨.definition name x :: before, item, after, r, e, rfl, ?_,
          readBlocks_error_after_definition hat hread he, ?_⟩
        · simpa [ItemSyntax.meaning?, hv, hroot] using hbefore
        · rwa [ItemSyntax.gather, ItemSyntax.store, hv]
      | node n =>
        obtain ⟨b, hb⟩ := hmeans
        obtain ⟨c₂, hopen, hn⟩ := passes_node hitem
        have hnode := (nodeBlock_eq_ok_iff (a := ⟨c₁, hn.remaining_lt⟩)).mpr ⟨n, hn, hb⟩
        have hnone : ItemSyntax.meaning? vars root items = none := by
          cases hr : ItemSyntax.meaning? vars root items with
          | none => rfl
          | some r => simp [ItemSyntax.meaning?, hb, hr] at hm
        obtain ⟨before, item, after, r, e, rfl, hbefore, he, hexplains⟩ := ih hrest hnone
        refine ⟨.node n :: before, item, after, (r.1, b :: r.2), e, rfl, ?_,
          readBlocks_error_after_node hopen hnode he, hexplains⟩
        simp [ItemSyntax.meaning?, hb, hbefore]
    · suffices hfails : ∃ e, c.readBlocks vars root = .error e ∧
          Explains vars item.uses (ItemSyntax.Means · item) e by
        obtain ⟨e, he, hexplains⟩ := hfails
        exact ⟨[], item, items, (root, []), e, rfl, rfl, he, hexplains⟩
      cases item with
      | definition name x =>
        obtain ⟨c₂, hat, hdefinition⟩ := passes_head_iff.mp hitem
        obtain ⟨e, he, hexplains⟩ := readDefinition_fails hdefinition hmeans root
        exact ⟨e, readBlocks_error_of_definition hat he, hexplains⟩
      | node n =>
        obtain ⟨c₂, hopen, hn⟩ := passes_node hitem
        have hnone : n.meaning? vars = none := Option.eq_none_iff_forall_not_mem.mpr
          fun b hb => hmeans ⟨b, hb⟩
        obtain ⟨e, he, hexplains⟩ := nodeBlock_fails hn hnone
        exact ⟨e, readBlocks_error_of_node hopen he, hexplains⟩

end Cursor

end NetSchema
