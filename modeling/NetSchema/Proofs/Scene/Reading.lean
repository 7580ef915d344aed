import NetSchema.Proofs.Results
import NetSchema.Proofs.Scene.Passing
import NetSchema.Proofs.Scene.Unambiguous
import NetSchema.Scene.Descriptor

/-!
# Reading follows the grammar

Every reader accepts exactly the tokens of its part of the grammar, moves past exactly those, and
returns what they mean.  One direction is by induction on what is in front of the cursor, the other
by induction on the syntax tree.

* `passes_of_typedBlock`, `typedBlock_of_passes`: typed blocks;
* `nodeBlock_eq_ok_iff`: nodes;
* `passes_of_readBlocks`, `readBlocks_of_passes`: files;
* `blocks_eq_meaning`: whole texts.
-/

namespace NetSchema

namespace Cursor

variable {c d e : Cursor} {t : Token} {ts : List Token} {vars : Variables} {name : String}

/-! ## Readers of tokens and values -/

theorem Passes.remaining_le (h : Passes c ts d) : d.remaining ≤ c.remaining := by
  induction h with
  | nil => exact Nat.le_refl _
  | cons hc ht ha _ ih =>
    have hlt := remaining_advance (hc ▸ ht)
    rw [ha] at hlt
    exact Nat.le_trans ih (Nat.le_of_lt hlt)

theorem Passes.remaining_lt (h : Passes c (t :: ts) d) : d.remaining < c.remaining := by
  obtain ⟨hc, ht, e, ha, hrest⟩ := passes_cons_iff.mp h
  have hlt := remaining_advance (hc ▸ ht)
  rw [ha] at hlt
  exact Nat.lt_of_le_of_lt hrest.remaining_le hlt

theorem Passes.value_lt {x : ValueSyntax} (h : Passes c x.tokens d) :
    d.remaining < c.remaining := by
  cases x <;> exact h.remaining_lt

theorem Passes.closing_lt (h : Passes c (ts ++ closing name) d) : d.remaining < c.remaining := by
  obtain ⟨e, hts, hclose⟩ := passes_append_iff.mp h
  exact Nat.lt_of_lt_of_le hclose.remaining_lt hts.remaining_le

theorem step_eq_ok_iff {hc : c.current ≠ .endOfFile} {a : Ahead c} (ht : c.current = t) :
    c.step hc = .ok a ↔ Passes c [t] a.1 := by
  subst ht
  rw [passes_one_iff, step]
  split
  · next ha => simp [ha, hc, Subtype.ext_iff]
  · next ha => simp [ha]

theorem readToken_eq_ok_iff {ht : t ≠ .endOfFile} {a : Ahead c} :
    c.readToken t ht = .ok a ↔ Passes c [t] a.1 := by
  rw [← expect_eq_ok_iff ht, readToken]
  split
  · next he => simp [he, Subtype.ext_iff]
  · next he => simp [he]

theorem readName_eq_ok_iff {a : Ahead c} :
    c.readName = .ok (name, a) ↔ Passes c [.ident name] a.1 := by
  rw [← ident_eq_ok_iff, readName]
  split
  · next hi => simp [hi, Subtype.ext_iff]
  · next hi => simp [hi]

theorem readValue_eq_ok_iff {v : SceneValue} {a : Ahead c} :
    c.readValue vars = .ok (v, a) ↔
      ∃ x : ValueSyntax, Passes c x.tokens a.1 ∧ x.meaning? vars = some v := by
  rw [← value_eq_ok_iff, readValue]
  split
  · next hv => simp [hv, Subtype.ext_iff]
  · next hv => simp [hv]

/-- A field is read where its tokens are passed. -/
theorem readField_eq_ok_iff {v : SceneValue} {a : Ahead c} :
    (∃ line, c.readField vars = .ok (name, line, v, a)) ↔
      ∃ f : FieldSyntax, Passes c f.tokens a.1 ∧ f.meaning? vars = some (name, v) := by
  unfold readField
  constructor
  · rintro ⟨line, h⟩
    obtain ⟨⟨name', c₁⟩, hname, h⟩ := bind_eq_ok_iff.mp h
    obtain ⟨c₂, hequals, h⟩ := bind_eq_ok_iff.mp h
    obtain ⟨⟨v', c₃⟩, hvalue, h⟩ := bind_eq_ok_iff.mp h
    cases h
    obtain ⟨x, hx, hv⟩ := readValue_eq_ok_iff.mp hvalue
    refine ⟨⟨name, x⟩, ?_, by simp [FieldSyntax.meaning?, hv]⟩
    exact (readName_eq_ok_iff.mp hname).append ((readToken_eq_ok_iff.mp hequals).append hx)
  · rintro ⟨⟨name', x⟩, hp, hf⟩
    obtain ⟨v', hv, hpair⟩ := Option.map_eq_some_iff.mp hf
    cases hpair
    obtain ⟨c₁, hname, hrest⟩ := passes_head_iff.mp hp
    obtain ⟨c₂, hequals, hvalue⟩ := passes_head_iff.mp hrest
    exact ⟨c₂.line, bind_eq_ok_iff.mpr ⟨(name', ⟨c₁, hname.remaining_lt⟩),
      readName_eq_ok_iff.mpr hname, bind_eq_ok_iff.mpr ⟨⟨c₂, hequals.remaining_lt⟩,
        readToken_eq_ok_iff.mpr hequals, bind_eq_ok_iff.mpr ⟨(v, ⟨a.1, hvalue.value_lt⟩),
          readValue_eq_ok_iff.mpr ⟨x, hvalue, hv⟩, rfl⟩⟩⟩⟩

/-- A block is closed by its own name. -/
theorem readClose_eq_ok_iff {a : Ahead c} :
    c.readClose name = .ok a ↔ Passes c [.ident name, .rightBracket] a.1 := by
  unfold readClose
  constructor
  · intro h
    obtain ⟨⟨closed, c₁⟩, hname, h⟩ := bind_eq_ok_iff.mp h
    obtain ⟨c₂, hbracket, h⟩ := bind_eq_ok_iff.mp h
    by_cases hc : closed = name
    · subst hc
      simp only [ne_eq, not_true_eq_false, if_false] at h
      cases h
      exact (readName_eq_ok_iff.mp hname).append (readToken_eq_ok_iff.mp hbracket)
    · simp only [ne_eq, hc, not_false_eq_true, if_true] at h
      cases h
  · intro h
    obtain ⟨c₁, hname, hbracket⟩ := passes_head_iff.mp h
    refine bind_eq_ok_iff.mpr ⟨(name, ⟨c₁, hname.remaining_lt⟩), readName_eq_ok_iff.mpr hname,
      bind_eq_ok_iff.mpr ⟨⟨a.1, hbracket.remaining_lt⟩, readToken_eq_ok_iff.mpr hbracket, ?_⟩⟩
    simp only [ne_eq, not_true_eq_false, if_false]
    rfl

/-! ## Typed blocks -/

/-- Fields go into a block one after the other. -/
def insertAll (fields : SceneFields) (es : List (String × SceneValue)) : SceneFields :=
  es.foldl (fun m e => m.insert e.1 e.2) fields

/-- The block called `type` that holds `fields` and maybe `base`, with further fields and blocks. -/
def extended (type : String) (fields : SceneFields) (base : Option TypedBlock)
    (es : List (String × SceneValue)) (blocks : List TypedBlock) : TypedBlock :=
  .ofBase type (insertAll fields es) (blocks.getLast?.or base)

theorem extended_nothing (type : String) (es : List (String × SceneValue))
    (blocks : List TypedBlock) : extended type {} none es blocks = .over type es blocks := by
  rw [extended, Option.or_none]
  exact TypedBlock.ofBase_eq_over type es blocks

/-- A further block takes the place of the base. -/
theorem extended_nested (type : String) (fields : SceneFields) (base : Option TypedBlock)
    (es : List (String × SceneValue)) (nested : TypedBlock) (blocks : List TypedBlock) :
    extended type fields base es (nested :: blocks) =
      extended type fields (some nested) es blocks := by
  rw [extended, extended, List.getLast?_cons]
  cases blocks.getLast? <;> rfl

mutual

/-- **Typed blocks are read by the grammar.** -/
theorem passes_of_typedBlock {c : Cursor} {block : TypedBlock} {a : Ahead c}
    (h : c.typedBlock vars = .ok (block, a)) :
    ∃ b : BlockSyntax, Passes c
      (.ident b.type :: .rightBracket :: (b.body.tokens ++ closing b.type)) a.1 ∧
        b.meaning? vars = some block := by
  unfold typedBlock at h
  obtain ⟨⟨type, c₁, h₁⟩, hname, h⟩ := bind_eq_ok_iff.mp h
  obtain ⟨⟨c₂, h₂⟩, hbracket, h⟩ := bind_eq_ok_iff.mp h
  obtain ⟨⟨block', c₃⟩, hbody, h⟩ := bind_eq_ok_iff.mp h
  cases h
  have hlt : c₂.remaining < c.remaining := Nat.lt_trans h₂ h₁
  obtain ⟨body, es, blocks, hp, hm, rfl⟩ := passes_of_typedBody hbody
  refine ⟨⟨type, body⟩, ?_, ?_⟩
  · exact (readName_eq_ok_iff.mp hname).append ((readToken_eq_ok_iff.mp hbracket).append hp)
  · simp [BlockSyntax.meaning?, hm, extended_nothing]
termination_by c.remaining

theorem passes_of_typedBody {c : Cursor} {type : String} {fields : SceneFields}
    {base : Option TypedBlock} {block : TypedBlock} {a : Ahead c}
    (h : c.typedBody vars type fields base = .ok (block, a)) :
    ∃ (body : BodySyntax) (es : List (String × SceneValue)) (blocks : List TypedBlock),
      Passes c (body.tokens ++ closing type) a.1 ∧ body.meaning? vars = some (es, blocks) ∧
        block = extended type fields base es blocks := by
  unfold typedBody at h
  split at h
  · next hc =>
    obtain ⟨⟨c₁, h₁⟩, hstep, h⟩ := bind_eq_ok_iff.mp h
    have hopen : Passes c [.leftBracket] c₁ := (step_eq_ok_iff hc).mp hstep
    dsimp only at h
    split at h
    · next hs =>
      -- the block ends
      obtain ⟨⟨c₂, h₂⟩, hslash, h⟩ := bind_eq_ok_iff.mp h
      obtain ⟨c₃, hclose, h⟩ := bind_eq_ok_iff.mp h
      cases h
      have hslash' : Passes c₁ [.slash] c₂ := (step_eq_ok_iff hs).mp hslash
      refine ⟨.done, [], [], ?_, rfl, rfl⟩
      exact hopen.append (hslash'.append (readClose_eq_ok_iff.mp hclose))
    · obtain ⟨⟨nested, c₂, h₂⟩, hnested, h⟩ := bind_eq_ok_iff.mp h
      obtain ⟨⟨block', c₃⟩, hrest, h⟩ := bind_eq_ok_iff.mp h
      cases h
      have hlt : c₂.remaining < c.remaining := Nat.lt_trans h₂ h₁
      obtain ⟨b, hb, hm⟩ := passes_of_typedBlock hnested
      obtain ⟨body, es, blocks, hp, hm', rfl⟩ := passes_of_typedBody hrest
      obtain ⟨⟨es', blocks'⟩, hinner, rfl⟩ := Option.map_eq_some_iff.mp hm
      refine ⟨.nested b.type b.body body, es, .over b.type es' blocks' :: blocks, ?_, ?_, ?_⟩
      · have hall := hopen.append (hb.append hp)
        simpa [BodySyntax.tokens, opening] using hall
      · simp [BodySyntax.meaning?, hinner, hm']
      · exact (extended_nested ..).symm
  · next x hc =>
    obtain ⟨⟨name, line, v, c₁, h₁⟩, hfield, h⟩ := bind_eq_ok_iff.mp h
    obtain ⟨⟨block', c₂⟩, hrest, h⟩ := bind_eq_ok_iff.mp h
    cases h
    obtain ⟨f, hf, hv⟩ := readField_eq_ok_iff.mp ⟨line, hfield⟩
    obtain ⟨body, es, blocks, hp, hm, rfl⟩ := passes_of_typedBody hrest
    refine ⟨.field f body, (name, v) :: es, blocks, ?_, ?_, rfl⟩
    · rw [BodySyntax.tokens, List.append_assoc]
      exact hf.append hp
    · simp [BodySyntax.meaning?, hv, hm]
  · cases h
termination_by c.remaining

end

/-- The end of a block. -/
theorem typedBody_of_closing {type : String} {a : Ahead c} (hp : Passes c (closing type) a.1)
    (fields : SceneFields) (base : Option TypedBlock) :
    c.typedBody vars type fields base = .ok (.ofBase type fields base, a) := by
  obtain ⟨c₁, hopen, hrest⟩ := passes_head_iff.mp hp
  obtain ⟨c₂, hslash, hclose⟩ := passes_head_iff.mp hrest
  have hc : c.current = .leftBracket := (passes_one_iff.mp hopen).1
  have hs : c₁.current = .slash := (passes_one_iff.mp hslash).1
  unfold typedBody
  split
  · refine bind_eq_ok_iff.mpr ⟨⟨c₁, hopen.remaining_lt⟩, (step_eq_ok_iff hc).mpr hopen, ?_⟩
    dsimp only
    rw [dif_pos hs]
    refine bind_eq_ok_iff.mpr ⟨⟨c₂, hslash.remaining_lt⟩, (step_eq_ok_iff hs).mpr hslash, ?_⟩
    exact bind_eq_ok_iff.mpr ⟨⟨a.1, hclose.remaining_lt⟩, readClose_eq_ok_iff.mpr hclose, rfl⟩
  · simp_all
  · simp_all

/-- A further field of a block. -/
theorem typedBody_of_field {type : String} {f : FieldSyntax} {v : SceneValue} {a : Ahead c}
    (hf : Passes c f.tokens d) (hv : f.meaning? vars = some (name, v)) {fields : SceneFields}
    {base : Option TypedBlock} {block : TypedBlock} {hlt : a.1.remaining < d.remaining}
    (hrest : d.typedBody vars type (fields.insert name v) base = .ok (block, ⟨a.1, hlt⟩)) :
    c.typedBody vars type fields base = .ok (block, a) := by
  have hc : c.current = .ident f.name := (passes_cons_iff.mp hf).1
  obtain ⟨line, hread⟩ := (readField_eq_ok_iff (a := ⟨d, hf.remaining_lt⟩)).mpr ⟨f, hf, hv⟩
  unfold typedBody
  split
  · simp_all
  · exact bind_eq_ok_iff.mpr ⟨_, hread, bind_eq_ok_iff.mpr ⟨_, hrest, rfl⟩⟩
  · simp_all

theorem typedBlock_of_body {type : String} {a : Ahead c}
    (hname : Passes c [.ident type, .rightBracket] d) {block : TypedBlock}
    {hlt : a.1.remaining < d.remaining}
    (hbody : d.typedBody vars type {} none = .ok (block, ⟨a.1, hlt⟩)) :
    c.typedBlock vars = .ok (block, a) := by
  obtain ⟨c₁, hname, hbracket⟩ := passes_head_iff.mp hname
  unfold typedBlock
  refine bind_eq_ok_iff.mpr ⟨(type, ⟨c₁, hname.remaining_lt⟩), readName_eq_ok_iff.mpr hname, ?_⟩
  refine bind_eq_ok_iff.mpr ⟨⟨d, hbracket.remaining_lt⟩, readToken_eq_ok_iff.mpr hbracket, ?_⟩
  exact bind_eq_ok_iff.mpr ⟨_, hbody, rfl⟩

/-- A further block in a block. -/
theorem typedBody_of_nested {type : String} {a : Ahead c} (hopen : Passes c [.leftBracket] d)
    (hd : d.current ≠ .slash) {nested : TypedBlock} {b : Ahead d}
    (hnested : d.typedBlock vars = .ok (nested, b)) {fields : SceneFields}
    {base : Option TypedBlock} {block : TypedBlock} {hlt : a.1.remaining < b.1.remaining}
    (hrest : b.1.typedBody vars type fields (some nested) = .ok (block, ⟨a.1, hlt⟩)) :
    c.typedBody vars type fields base = .ok (block, a) := by
  have hc : c.current = .leftBracket := (passes_one_iff.mp hopen).1
  unfold typedBody
  split
  · refine bind_eq_ok_iff.mpr ⟨⟨d, hopen.remaining_lt⟩, (step_eq_ok_iff hc).mpr hopen, ?_⟩
    dsimp only
    rw [dif_neg hd]
    exact bind_eq_ok_iff.mpr ⟨_, hnested, bind_eq_ok_iff.mpr ⟨_, hrest, rfl⟩⟩
  · simp_all
  · simp_all

/-- **The grammar is followed by typed blocks.** -/
theorem typedBody_of_passes {type : String} {body : BodySyntax}
    {es : List (String × SceneValue)} {blocks : List TypedBlock} {a : Ahead c}
    (hp : Passes c (body.tokens ++ closing type) a.1) (hm : body.meaning? vars = some (es, blocks))
    (fields : SceneFields) (base : Option TypedBlock) :
    c.typedBody vars type fields base = .ok (extended type fields base es blocks, a) := by
  induction body generalizing c type es blocks fields base with
  | done =>
    cases hm
    exact typedBody_of_closing hp fields base
  | field f rest ih =>
    obtain ⟨⟨name, v⟩, hv, hm⟩ := Option.bind_eq_some_iff.mp hm
    obtain ⟨⟨es', blocks'⟩, hr, hm⟩ := Option.bind_eq_some_iff.mp hm
    cases hm
    rw [BodySyntax.tokens, List.append_assoc] at hp
    obtain ⟨d, hf, hrest⟩ := passes_append_iff.mp hp
    have hlast := ih (a := ⟨a.1, hrest.closing_lt⟩) hrest hr (fields.insert name v) base
    exact typedBody_of_field hf hv hlast
  | nested type' inner rest ihi ihr =>
    obtain ⟨⟨es', blocks'⟩, hi, hm⟩ := Option.bind_eq_some_iff.mp hm
    obtain ⟨⟨es'', blocks''⟩, hr, hm⟩ := Option.bind_eq_some_iff.mp hm
    cases hm
    have hall : Passes c ([.leftBracket] ++ ([.ident type', .rightBracket] ++
        ((inner.tokens ++ closing type') ++ (rest.tokens ++ closing type)))) a.1 := by
      simpa [BodySyntax.tokens, opening] using hp
    obtain ⟨c₁, hopen, hall⟩ := passes_append_iff.mp hall
    obtain ⟨c₂, hname, hall⟩ := passes_append_iff.mp hall
    obtain ⟨c₃, hinner, hrest⟩ := passes_append_iff.mp hall
    have hne : c₁.current ≠ .slash := by
      rw [(passes_cons_iff.mp hname).1]
      simp
    have hbody := ihi (a := ⟨c₃, hinner.closing_lt⟩) hinner hi {} none
    rw [extended_nothing] at hbody
    have hlt : c₃.remaining < c₁.remaining := Nat.lt_trans hinner.closing_lt hname.remaining_lt
    have hnested := typedBlock_of_body (a := ⟨c₃, hlt⟩) hname hbody
    have hlast := ihr (a := ⟨a.1, hrest.closing_lt⟩) hrest hr fields
      (some (.over type' es' blocks'))
    rw [extended_nested]
    exact typedBody_of_nested hopen hne hnested hlast

theorem typedBlock_of_passes {b : BlockSyntax} {block : TypedBlock} {a : Ahead c}
    (hp : Passes c (.ident b.type :: .rightBracket :: (b.body.tokens ++ closing b.type)) a.1)
    (hm : b.meaning? vars = some block) : c.typedBlock vars = .ok (block, a) := by
  obtain ⟨⟨es, blocks⟩, hbody, rfl⟩ := Option.map_eq_some_iff.mp hm
  obtain ⟨d, hname, hrest⟩ := passes_two_iff.mp hp
  have hread := typedBody_of_passes (a := ⟨a.1, hrest.closing_lt⟩) hrest hbody {} none
  rw [extended_nothing] at hread
  exact typedBlock_of_body hname hread

/-! ## Fields of nodes -/

/-- A field is taken where it fits. -/
theorem setField_eq_ok_iff {line : Nat} {name : String} {v : SceneValue} {b b' : NodeBlock} :
    setField line name v b = .ok b' ↔ FieldFits (name, v) ∧ b.put (name, v) = b' := by
  unfold setField
  by_cases hname : name = "name"
  · subst hname
    cases v <;> simp [FieldFits, NodeBlock.put, IsProperty, SceneValue.asString?]
  by_cases hparent : name = "parent"
  · subst hparent
    cases v <;> simp [FieldFits, NodeBlock.put, IsProperty, SceneValue.asKey?]
  by_cases hinstance : name = "instance"
  · subst hinstance
    cases v <;> simp [FieldFits, NodeBlock.put, IsProperty, SceneValue.asString?]
  by_cases hscript : name = "script"
  · subst hscript
    cases v <;> simp [FieldFits, NodeBlock.put, IsProperty, SceneValue.asString?]
  · simp [FieldFits, NodeBlock.put, IsProperty, hname, hparent, hinstance, hscript,
      Ne.symm hname, Ne.symm hparent, Ne.symm hinstance]

/-- **Fields are read by the grammar.** -/
theorem passes_of_nodeFields {c : Cursor} {b b' : NodeBlock}
    {a : { d : Cursor // d.remaining ≤ c.remaining }} (h : c.nodeFields vars b = .ok (b', a)) :
    ∃ (fs : List FieldSyntax) (es : List (String × SceneValue)),
      Passes c (fs.flatMap FieldSyntax.tokens) a.1 ∧
        fs.mapM (FieldSyntax.meaning? vars) = some es ∧ (∀ e ∈ es, FieldFits e) ∧
          es.foldl NodeBlock.put b = b' := by
  unfold nodeFields at h
  split at h
  · obtain ⟨⟨name, line, v, c₁, h₁⟩, hfield, h⟩ := bind_eq_ok_iff.mp h
    obtain ⟨b₁, hset, h⟩ := bind_eq_ok_iff.mp h
    obtain ⟨⟨b₂, c₂⟩, hrest, h⟩ := bind_eq_ok_iff.mp h
    cases h
    obtain ⟨f, hf, hv⟩ := readField_eq_ok_iff.mp ⟨line, hfield⟩
    obtain ⟨hfits, rfl⟩ := setField_eq_ok_iff.mp hset
    obtain ⟨fs, es, hp, hm, hall, rfl⟩ := passes_of_nodeFields hrest
    refine ⟨f :: fs, (name, v) :: es, hf.append hp, ?_, ?_, rfl⟩
    · simp [hv, hm]
    · exact List.forall_mem_cons.mpr ⟨hfits, hall⟩
  · cases h
    exact ⟨[], [], .nil, rfl, by simp, rfl⟩
termination_by c.remaining

/-- A further field of a node. -/
theorem nodeFields_of_field {f : FieldSyntax} {v : SceneValue} {b b' : NodeBlock}
    {a : { d : Cursor // d.remaining ≤ c.remaining }} (hf : Passes c f.tokens d)
    (hv : f.meaning? vars = some (name, v)) (hfits : FieldFits (name, v))
    {hle : a.1.remaining ≤ d.remaining}
    (hrest : d.nodeFields vars (b.put (name, v)) = .ok (b', ⟨a.1, hle⟩)) :
    c.nodeFields vars b = .ok (b', a) := by
  have hc : c.current = .ident f.name := (passes_cons_iff.mp hf).1
  obtain ⟨line, hread⟩ := (readField_eq_ok_iff (a := ⟨d, hf.remaining_lt⟩)).mpr ⟨f, hf, hv⟩
  have hset : setField c.line name v b = .ok (b.put (name, v)) :=
    setField_eq_ok_iff.mpr ⟨hfits, rfl⟩
  unfold nodeFields
  rw [hc]
  exact bind_eq_ok_iff.mpr ⟨_, hread, bind_eq_ok_iff.mpr ⟨_, hset,
    bind_eq_ok_iff.mpr ⟨_, hrest, rfl⟩⟩⟩

/-- **The grammar is followed by fields.**  They end where no name follows. -/
theorem nodeFields_of_passes {fs : List FieldSyntax} {es : List (String × SceneValue)}
    {a : { d : Cursor // d.remaining ≤ c.remaining }}
    (hp : Passes c (fs.flatMap FieldSyntax.tokens) a.1)
    (hm : fs.mapM (FieldSyntax.meaning? vars) = some es) (hfits : ∀ e ∈ es, FieldFits e)
    (hstop : ∀ name, a.1.current ≠ .ident name) (b : NodeBlock) :
    c.nodeFields vars b = .ok (es.foldl NodeBlock.put b, a) := by
  induction fs generalizing c es b with
  | nil =>
    obtain ⟨d, hd⟩ := a
    obtain rfl := passes_nil_iff.mp hp
    cases hm
    unfold nodeFields
    split
    · next name hc => exact absurd hc (hstop name)
    · rfl
  | cons f fs ih =>
    rw [List.mapM_cons] at hm
    obtain ⟨⟨name, v⟩, hv, hm⟩ := Option.bind_eq_some_iff.mp hm
    obtain ⟨es', hrest, hm⟩ := Option.bind_eq_some_iff.mp hm
    cases hm
    obtain ⟨hfit, hfits⟩ := List.forall_mem_cons.mp hfits
    obtain ⟨d, hf, hp⟩ := passes_append_iff.mp hp
    have hlast := ih (a := ⟨a.1, hp.remaining_le⟩) hp hrest hfits hstop (b.put (name, v))
    exact nodeFields_of_field hf hv hfit hlast

/-! ## Nodes -/

/-- The block of a node is read up to the bracket behind it. -/
theorem passes_of_nodeData {data : Option TypedBlock}
    {a : { d : Cursor // d.remaining ≤ c.remaining }} (h : c.nodeData vars = .ok (data, a))
    (hopen : Passes d [.leftBracket] c) :
    ∃ block? : Option BlockSyntax,
      Passes d (BlockSyntax.optionalTokens block? ++ [.leftBracket]) a.1 ∧
        BlockSyntax.optionalMeaning? vars block? = some data := by
  unfold nodeData at h
  split at h
  · cases h
    exact ⟨none, hopen, rfl⟩
  · obtain ⟨⟨block, c₁, h₁⟩, hblock, h⟩ := bind_eq_ok_iff.mp h
    obtain ⟨⟨c₂, h₂⟩, hbracket, h⟩ := bind_eq_ok_iff.mp h
    cases h
    obtain ⟨b, hb, hm⟩ := passes_of_typedBlock hblock
    refine ⟨some b, ?_, by simp [BlockSyntax.optionalMeaning?, hm]⟩
    have hall := hopen.append (hb.append (readToken_eq_ok_iff.mp hbracket))
    simpa [BlockSyntax.optionalTokens, BlockSyntax.tokens, opening] using hall

theorem nodeData_of_passes {block? : Option BlockSyntax} {data : Option TypedBlock}
    (hp : Passes d (BlockSyntax.optionalTokens block? ++ [.leftBracket]) e)
    (hm : BlockSyntax.optionalMeaning? vars block? = some data) (he : e.current = .slash) :
    ∃ c, Passes d [.leftBracket] c ∧ ∃ hle, c.nodeData vars = .ok (data, ⟨e, hle⟩) := by
  cases block? with
  | none =>
    cases hm
    refine ⟨e, hp, Nat.le_refl _, ?_⟩
    unfold nodeData
    rw [if_pos he]
  | some b =>
    obtain ⟨block, hblock, rfl⟩ := Option.map_eq_some_iff.mp hm
    have hall : Passes d ([.leftBracket] ++ ((.ident b.type :: .rightBracket ::
        (b.body.tokens ++ closing b.type)) ++ [.leftBracket])) e := by
      simpa [BlockSyntax.optionalTokens, BlockSyntax.tokens, opening] using hp
    obtain ⟨c, hopen, hall⟩ := passes_append_iff.mp hall
    obtain ⟨c₁, hb, hbracket⟩ := passes_append_iff.mp hall
    have hne : c.current ≠ .slash := by
      rw [(passes_cons_iff.mp hb).1]
      simp
    have hread := typedBlock_of_passes (a := ⟨c₁, hb.remaining_lt⟩) hb hblock
    refine ⟨c, hopen, Nat.le_of_lt (Nat.lt_trans hbracket.remaining_lt hb.remaining_lt), ?_⟩
    unfold nodeData
    rw [if_neg hne]
    exact bind_eq_ok_iff.mpr ⟨_, hread, bind_eq_ok_iff.mpr
      ⟨⟨e, hbracket.remaining_lt⟩, readToken_eq_ok_iff.mpr hbracket, rfl⟩⟩

/-- **Nodes are read by the grammar.** -/
theorem nodeBlock_eq_ok_iff {b : NodeBlock} {a : Ahead c} : c.nodeBlock vars = .ok (b, a) ↔
    ∃ n : NodeSyntax, Passes c (.ident n.key :: .rightBracket ::
      (n.fields.flatMap FieldSyntax.tokens ++ BlockSyntax.optionalTokens n.block? ++
        closing n.key)) a.1 ∧ n.meaning? vars = some b := by
  unfold nodeBlock
  constructor
  · intro h
    obtain ⟨⟨key, c₁, h₁⟩, hname, h⟩ := bind_eq_ok_iff.mp h
    obtain ⟨⟨c₂, h₂⟩, hbracket, h⟩ := bind_eq_ok_iff.mp h
    obtain ⟨⟨b', c₃, h₃⟩, hfields, h⟩ := bind_eq_ok_iff.mp h
    obtain ⟨⟨c₄, h₄⟩, hopen, h⟩ := bind_eq_ok_iff.mp h
    obtain ⟨⟨data, c₅, h₅⟩, hdata, h⟩ := bind_eq_ok_iff.mp h
    obtain ⟨⟨c₆, h₆⟩, hslash, h⟩ := bind_eq_ok_iff.mp h
    obtain ⟨c₇, hclose, h⟩ := bind_eq_ok_iff.mp h
    cases h
    obtain ⟨fs, es, hfs, hm, hfits, rfl⟩ := passes_of_nodeFields hfields
    obtain ⟨block?, hblock, hmb⟩ := passes_of_nodeData hdata (readToken_eq_ok_iff.mp hopen)
    refine ⟨⟨key, fs, block?⟩, ?_, ?_⟩
    · have hend := (readToken_eq_ok_iff.mp hslash).append (readClose_eq_ok_iff.mp hclose)
      have hall := (readName_eq_ok_iff.mp hname).append ((readToken_eq_ok_iff.mp hbracket).append
        (hfs.append (hblock.append hend)))
      simpa [closing] using hall
    · exact NodeSyntax.meaning?_eq_some_iff.mpr
        ⟨es, data, hm, hfits, hmb, by rw [NodeSyntax.foldl_put]; rfl⟩
  · rintro ⟨n, hp, hm⟩
    obtain ⟨es, data, hes, hfits, hmb, rfl⟩ := NodeSyntax.meaning?_eq_some_iff.mp hm
    have hall : Passes c ([.ident n.key] ++ ([.rightBracket] ++
        (n.fields.flatMap FieldSyntax.tokens ++ ((BlockSyntax.optionalTokens n.block? ++
          [.leftBracket]) ++ ([.slash] ++ [.ident n.key, .rightBracket]))))) a.1 := by
      simpa [closing] using hp
    obtain ⟨c₁, hname, hall⟩ := passes_append_iff.mp hall
    obtain ⟨c₂, hbracket, hall⟩ := passes_append_iff.mp hall
    obtain ⟨c₃, hfs, hall⟩ := passes_append_iff.mp hall
    obtain ⟨c₅, hblock, hall⟩ := passes_append_iff.mp hall
    obtain ⟨c₆, hslash, hclose⟩ := passes_append_iff.mp hall
    obtain ⟨c₄, hopen, hle, hdata⟩ := nodeData_of_passes hblock hmb (passes_one_iff.mp hslash).1
    have hstop : ∀ name, c₃.current ≠ .ident name := by
      intro name
      rw [(passes_one_iff.mp hopen).1]
      simp
    have hfields := nodeFields_of_passes (a := ⟨c₃, hfs.remaining_le⟩) hfs hes hfits hstop
      { key := n.key }
    rw [NodeSyntax.foldl_put] at hfields
    refine bind_eq_ok_iff.mpr ⟨(n.key, ⟨c₁, hname.remaining_lt⟩), readName_eq_ok_iff.mpr hname, ?_⟩
    refine bind_eq_ok_iff.mpr ⟨⟨c₂, hbracket.remaining_lt⟩, readToken_eq_ok_iff.mpr hbracket, ?_⟩
    refine bind_eq_ok_iff.mpr ⟨_, hfields, ?_⟩
    refine bind_eq_ok_iff.mpr ⟨⟨c₄, hopen.remaining_lt⟩, readToken_eq_ok_iff.mpr hopen, ?_⟩
    refine bind_eq_ok_iff.mpr ⟨_, hdata, ?_⟩
    refine bind_eq_ok_iff.mpr ⟨⟨c₆, hslash.remaining_lt⟩, readToken_eq_ok_iff.mpr hslash, ?_⟩
    exact bind_eq_ok_iff.mpr ⟨⟨a.1, hclose.remaining_lt⟩, readClose_eq_ok_iff.mpr hclose, rfl⟩

/-! ## Files -/

/-- A definition is read where its tokens are passed. -/
theorem readDefinition_eq_ok_iff {vars' : Variables} {root root' : Option String} {a : Ahead c} :
    c.readDefinition vars root = .ok (vars', root', a) ↔
      ∃ (name : String) (x : ValueSyntax) (v : SceneValue),
        Passes c (.ident name :: .equals :: x.tokens) a.1 ∧ x.meaning? vars = some v ∧
          ItemSyntax.rootAfter? name v root = some root' ∧ vars.insert name v = vars' := by
  unfold readDefinition ItemSyntax.rootAfter?
  constructor
  · intro h
    obtain ⟨⟨name, line, v, c₁⟩, hfield, h⟩ := bind_eq_ok_iff.mp h
    obtain ⟨⟨name', x⟩, hp, hf⟩ := readField_eq_ok_iff.mp ⟨line, hfield⟩
    obtain ⟨v', hv, hpair⟩ := Option.map_eq_some_iff.mp hf
    cases hpair
    dsimp only at h
    split at h
    · next hname =>
      cases v <;> cases h
      exact ⟨_, x, _, hp, hv, if_pos hname, rfl⟩
    · next hname =>
      cases h
      exact ⟨_, x, v, hp, hv, if_neg hname, rfl⟩
  · rintro ⟨name, x, v, hp, hv, hroot, rfl⟩
    have hf : FieldSyntax.meaning? vars ⟨name, x⟩ = some (name, v) := by
      simp [FieldSyntax.meaning?, hv]
    obtain ⟨line, hread⟩ := (readField_eq_ok_iff (a := a)).mpr ⟨⟨name, x⟩, hp, hf⟩
    refine bind_eq_ok_iff.mpr ⟨_, hread, ?_⟩
    dsimp only
    split at hroot
    · next hname =>
      rw [if_pos hname]
      cases v <;> cases hroot
      rfl
    · next hname =>
      rw [if_neg hname]
      cases hroot
      rfl

/-- **Files are read by the grammar.** -/
theorem passes_of_readBlocks {c : Cursor} {vars : Variables} {root root' : Option String}
    {bs : List NodeBlock} (h : c.readBlocks vars root = .ok (root', bs)) :
    ∃ (items : List ItemSyntax) (d : Cursor), Passes c (items.flatMap ItemSyntax.tokens) d ∧
      d.current = .endOfFile ∧ ItemSyntax.meaning? vars root items = some (root', bs) := by
  unfold readBlocks at h
  split at h
  · next hc =>
    cases h
    exact ⟨[], c, .nil, hc, rfl⟩
  · next hc =>
    obtain ⟨⟨c₁, h₁⟩, hat, h⟩ := bind_eq_ok_iff.mp h
    obtain ⟨⟨vars₁, root₁, c₂, h₂⟩, hdefinition, h⟩ := bind_eq_ok_iff.mp h
    have hlt : c₂.remaining < c.remaining := Nat.lt_trans h₂ h₁
    obtain ⟨name, x, v, hp, hv, hroot, rfl⟩ := readDefinition_eq_ok_iff.mp hdefinition
    obtain ⟨items, d, hrest, hd, hm⟩ := passes_of_readBlocks h
    have hpat : Passes c [.at] c₁ := (step_eq_ok_iff hc).mp hat
    refine ⟨.definition name x :: items, d, (hpat.append hp).append hrest, hd, ?_⟩
    rw [ItemSyntax.meaning?]
    exact Option.bind_eq_some_iff.mpr ⟨v, hv, Option.bind_eq_some_iff.mpr ⟨root₁, hroot, hm⟩⟩
  · next hc =>
    obtain ⟨⟨c₁, h₁⟩, hopen, h⟩ := bind_eq_ok_iff.mp h
    obtain ⟨⟨b, c₂, h₂⟩, hnode, h⟩ := bind_eq_ok_iff.mp h
    obtain ⟨⟨root₁, bs₁⟩, hrest, h⟩ := bind_eq_ok_iff.mp h
    cases h
    have hlt : c₂.remaining < c.remaining := Nat.lt_trans h₂ h₁
    obtain ⟨n, hn, hb⟩ := nodeBlock_eq_ok_iff.mp hnode
    obtain ⟨items, d, hrest, hd, hm⟩ := passes_of_readBlocks hrest
    have hpopen : Passes c [.leftBracket] c₁ := (step_eq_ok_iff hc).mp hopen
    refine ⟨.node n :: items, d, ?_, hd, ?_⟩
    · have hall := (hpopen.append hn).append hrest
      simpa [ItemSyntax.tokens, NodeSyntax.tokens, opening] using hall
    · rw [ItemSyntax.meaning?]
      exact Option.bind_eq_some_iff.mpr ⟨b, hb, Option.bind_eq_some_iff.mpr ⟨_, hm, rfl⟩⟩
  · cases h
termination_by c.remaining

/-- The end of a file. -/
theorem readBlocks_of_end (hc : c.current = .endOfFile) (root : Option String) :
    c.readBlocks vars root = .ok (root, []) := by
  unfold readBlocks
  split <;> simp_all

/-- A further definition in a file. -/
theorem readBlocks_of_definition {root root' root'' : Option String} {vars' : Variables}
    {bs : List NodeBlock} (hat : Passes c [.at] d) {a : Ahead d}
    (hdefinition : d.readDefinition vars root = .ok (vars', root', a))
    (hrest : a.1.readBlocks vars' root' = .ok (root'', bs)) :
    c.readBlocks vars root = .ok (root'', bs) := by
  have hc : c.current = .at := (passes_one_iff.mp hat).1
  unfold readBlocks
  split
  · simp_all
  · refine bind_eq_ok_iff.mpr ⟨⟨d, hat.remaining_lt⟩, (step_eq_ok_iff hc).mpr hat, ?_⟩
    exact bind_eq_ok_iff.mpr ⟨_, hdefinition, hrest⟩
  · simp_all
  · simp_all

/-- A further node in a file. -/
theorem readBlocks_of_node {root root' : Option String} {b : NodeBlock} {bs : List NodeBlock}
    (hopen : Passes c [.leftBracket] d) {a : Ahead d} (hnode : d.nodeBlock vars = .ok (b, a))
    (hrest : a.1.readBlocks vars root = .ok (root', bs)) :
    c.readBlocks vars root = .ok (root', b :: bs) := by
  have hc : c.current = .leftBracket := (passes_one_iff.mp hopen).1
  unfold readBlocks
  split
  · simp_all
  · simp_all
  · refine bind_eq_ok_iff.mpr ⟨⟨d, hopen.remaining_lt⟩, (step_eq_ok_iff hc).mpr hopen, ?_⟩
    exact bind_eq_ok_iff.mpr ⟨_, hnode, bind_eq_ok_iff.mpr ⟨_, hrest, rfl⟩⟩
  · simp_all

/-- **The grammar is followed by files.** -/
theorem readBlocks_of_passes {items : List ItemSyntax} {root root' : Option String}
    {bs : List NodeBlock} (hp : Passes c (items.flatMap ItemSyntax.tokens) d)
    (hd : d.current = .endOfFile)
    (hm : ItemSyntax.meaning? vars root items = some (root', bs)) :
    c.readBlocks vars root = .ok (root', bs) := by
  induction items generalizing c vars root bs with
  | nil =>
    obtain rfl := passes_nil_iff.mp hp
    cases hm
    exact readBlocks_of_end hd _
  | cons item items ih =>
    obtain ⟨c₁, hitem, hrest⟩ := passes_append_iff.mp hp
    cases item with
    | definition name x =>
      rw [ItemSyntax.meaning?] at hm
      obtain ⟨v, hv, hm⟩ := Option.bind_eq_some_iff.mp hm
      obtain ⟨root₁, hroot, hm⟩ := Option.bind_eq_some_iff.mp hm
      obtain ⟨c₂, hat, hdefinition⟩ := passes_head_iff.mp hitem
      have hread := (readDefinition_eq_ok_iff (a := ⟨c₁, hdefinition.remaining_lt⟩)).mpr
        ⟨name, x, v, hdefinition, hv, hroot, rfl⟩
      exact readBlocks_of_definition hat hread (ih hrest hm)
    | node n =>
      rw [ItemSyntax.meaning?] at hm
      obtain ⟨b, hb, hm⟩ := Option.bind_eq_some_iff.mp hm
      obtain ⟨⟨root₁, bs₁⟩, hblocks, hm⟩ := Option.bind_eq_some_iff.mp hm
      cases hm
      have hall : Passes c ([.leftBracket] ++ (.ident n.key :: .rightBracket ::
          (n.fields.flatMap FieldSyntax.tokens ++ BlockSyntax.optionalTokens n.block? ++
            closing n.key))) c₁ := by
        simpa [ItemSyntax.tokens, NodeSyntax.tokens, opening] using hitem
      obtain ⟨c₂, hopen, hn⟩ := passes_append_iff.mp hall
      have hnode := (nodeBlock_eq_ok_iff (a := ⟨c₁, hn.remaining_lt⟩)).mpr ⟨n, hn, hb⟩
      exact readBlocks_of_node hopen hnode (ih hrest hblocks)

end Cursor

/-! ## Texts -/

namespace TokenStream

theorem first_eq_ok_iff {s : TokenStream} {c : Cursor} :
    s.first = .ok c ↔ (Cursor.start s).advance = (.ok (), c) := by
  unfold first
  split <;> simp_all

/-- **Streams are read by the grammar.**  The blocks are what the tokens mean with the variables of
the first pass, and there are none if there is a fault between the tokens. -/
theorem blocks_eq_ok_iff {s : TokenStream} (hs : s.Proper) {root : Option String}
    {bs : List NodeBlock} : s.blocks = .ok (root, bs) ↔
      ∃ vars items, s.firstPass = .ok vars ∧
        s.tokens? = some (items.flatMap ItemSyntax.tokens) ∧
          ItemSyntax.meaning? vars none items = some (root, bs) := by
  unfold blocks
  constructor
  · intro h
    obtain ⟨vars, hvars, h⟩ := bind_eq_ok_iff.mp h
    obtain ⟨c, hfirst, hread⟩ := bind_eq_ok_iff.mp h
    obtain ⟨items, d, hp, hd, hm⟩ := Cursor.passes_of_readBlocks hread
    refine ⟨vars, items, hvars, ?_, hm⟩
    exact (passes_iff hs (x := .start s) rfl).mp ⟨c, d, first_eq_ok_iff.mp hfirst, hp, hd⟩
  · rintro ⟨vars, items, hvars, hts, hm⟩
    obtain ⟨c, d, ha, hp, hd⟩ := (passes_iff hs (x := .start s) rfl).mpr hts
    refine bind_eq_ok_iff.mpr ⟨vars, hvars, ?_⟩
    refine bind_eq_ok_iff.mpr ⟨c, first_eq_ok_iff.mpr ha, ?_⟩
    exact Cursor.readBlocks_of_passes hp hd hm

theorem blocks_of_fault {s : TokenStream} (hs : s.Proper) (h : s.tokens? = none) :
    ∃ e, s.blocks = .error e := by
  cases hb : s.blocks with
  | error e => exact ⟨e, rfl⟩
  | ok r =>
    obtain ⟨vars, items, -, hts, -⟩ := (blocks_eq_ok_iff hs).mp hb
    rw [h] at hts
    cases hts

end TokenStream

/-- **Reading follows the grammar.**  A text without faults between its tokens has node blocks
exactly if its tokens are those of definitions and nodes that mean something with the variables of
the first pass, and the blocks are what they mean; there is one way at most to take the tokens for
definitions and nodes.  A map from fields keeps the first place and the last value of a name.  A
text with a fault has neither blocks nor a descriptor. -/
theorem blocks_eq_meaning (text : String) :
    (∀ ts, (TokenStream.ofText text).tokens? = some ts →
      (∃ vars, (TokenStream.ofText text).firstPass = .ok vars ∧ ∀ root bs,
        (TokenStream.ofText text).blocks = .ok (root, bs) ↔
          ∃ items, items.flatMap ItemSyntax.tokens = ts ∧
            ItemSyntax.meaning? vars none items = some (root, bs)) ∧
        ∀ items items' : List ItemSyntax, items.flatMap ItemSyntax.tokens = ts →
          items'.flatMap ItemSyntax.tokens = ts → items = items') ∧
      (∀ es : List (String × SceneValue),
        (OrderedMap.ofList es).keys = (es.map Prod.fst).eraseDups ∧
          ∀ name, (OrderedMap.ofList es).get? name = OrderedMap.last? es name) ∧
      ((TokenStream.ofText text).tokens? = none →
        (∃ e, (TokenStream.ofText text).blocks = .error e) ∧
          ∃ e, Descriptor.parse text = .error e) := by
  have hproper := TokenStream.ofText_proper text
  refine ⟨?_, ?_, ?_⟩
  · intro ts hts
    obtain ⟨vars, hvars⟩ := TokenStream.exists_firstPass (by rw [hts]; rfl)
    refine ⟨⟨vars, hvars, ?_⟩, ?_⟩
    · intro root bs
      rw [TokenStream.blocks_eq_ok_iff hproper]
      constructor
      · rintro ⟨vars', items, hvars', hitems, hm⟩
        rw [hvars] at hvars'
        rw [hts] at hitems
        cases hvars'
        cases hitems
        exact ⟨items, rfl, hm⟩
      · rintro ⟨items, rfl, hm⟩
        exact ⟨vars, items, hvars, hts, hm⟩
    · rintro items items' rfl hitems'
      exact ItemSyntax.eq_of_tokens_eq hitems'.symm
  · intro es
    exact ⟨OrderedMap.keys_ofList es, OrderedMap.get?_ofList es⟩
  · intro h
    obtain ⟨e, he⟩ := TokenStream.blocks_of_fault hproper h
    refine ⟨⟨e, he⟩, e, ?_⟩
    rw [Descriptor.parse, he]
    rfl

-- A variable that is used before it is defined: its definition is read in the first pass.
example : (TokenStream.ofText "[a] parent=@p [/a] @p=r [r] [/r]").tokens? =
    some (([.node ⟨"a", [⟨"parent", .variable "p"⟩], none⟩, .definition "p" (.word "r"),
      .node ⟨"r", [], none⟩] : List ItemSyntax).flatMap ItemSyntax.tokens) := by
  decide +kernel

end NetSchema
