import NetSchema.Proofs.Scene.Grammar

/-!
# The grammar is unambiguous

Tokens determine the syntax tree that they are written for, whatever follows them.

* `BodySyntax.tokens_append_inj`: what is in a block, by induction on the tree;
* `ItemSyntax.eq_of_tokens_eq`: files.
-/

namespace NetSchema

variable {us vs : List Token}

/-! ## Values and fields -/

theorem slotsTokens_append_inj {first first' : Option Binary} {more more' : List (Option Binary)}
    (h : slotsTokens first more ++ .rightParen :: us =
      slotsTokens first' more' ++ .rightParen :: vs) :
    first = first' ∧ more = more' ∧ us = vs := by
  induction more generalizing first first' more' with
  | nil => cases more' <;> cases first <;> cases first' <;> simp_all [slotsTokens, slotTokens]
  | cons next more ih =>
    cases more' with
    | nil => cases first <;> cases first' <;> simp_all [slotsTokens, slotTokens]
    | cons next' more' =>
      have hrest : first = first' ∧ slotsTokens next more ++ .rightParen :: us =
          slotsTokens next' more' ++ .rightParen :: vs := by
        cases first <;> cases first' <;> simp_all [slotsTokens, slotTokens]
      obtain ⟨rfl, hrest⟩ := hrest
      obtain ⟨rfl, rfl, rfl⟩ := ih hrest
      exact ⟨rfl, rfl, rfl⟩

theorem ValueSyntax.tokens_append_inj {x y : ValueSyntax} (h : x.tokens ++ us = y.tokens ++ vs) :
    x = y ∧ us = vs := by
  cases x <;> cases y <;> simp_all [tokens]
  next first more first' more' => exact and_assoc.mpr (slotsTokens_append_inj h)

theorem FieldSyntax.tokens_append_inj {f g : FieldSyntax} (h : f.tokens ++ us = g.tokens ++ vs) :
    f = g ∧ us = vs := by
  obtain ⟨name, x⟩ := f
  obtain ⟨name', y⟩ := g
  simp only [tokens, List.cons_append, List.cons.injEq, Token.ident.injEq, true_and] at h
  obtain ⟨rfl, h⟩ := h
  obtain ⟨rfl, rfl⟩ := ValueSyntax.tokens_append_inj h
  exact ⟨rfl, rfl⟩

/-! ## Blocks -/

theorem closing_append_inj {name name' : String} (h : closing name ++ us = closing name' ++ vs) :
    name = name' ∧ us = vs := by
  simpa [closing] using h

theorem opening_append_inj {name name' : String} (h : opening name ++ us = opening name' ++ vs) :
    name = name' ∧ us = vs := by
  simpa [opening] using h

theorem closing_append_ne_opening (name name' : String) :
    closing name ++ us ≠ opening name' ++ vs := by
  simp [closing, opening]

theorem BodySyntax.tokens_append_inj {b b' : BodySyntax} {type type' : String}
    (h : b.tokens ++ (closing type ++ us) = b'.tokens ++ (closing type' ++ vs)) :
    b = b' ∧ type = type' ∧ us = vs := by
  induction b generalizing b' type type' us vs with
  | done =>
    cases b' with
    | done =>
      obtain ⟨rfl, rfl⟩ := closing_append_inj h
      exact ⟨rfl, rfl, rfl⟩
    | field g rest' => simp [tokens, closing, FieldSyntax.tokens] at h
    | nested name inner' rest' => simp [tokens, closing, opening] at h
  | field f rest ih =>
    cases b' with
    | done => simp [tokens, closing, FieldSyntax.tokens] at h
    | field g rest' =>
      simp only [tokens, List.append_assoc] at h
      obtain ⟨rfl, hrest⟩ := FieldSyntax.tokens_append_inj h
      obtain ⟨rfl, rfl, rfl⟩ := ih hrest
      exact ⟨rfl, rfl, rfl⟩
    | nested name inner' rest' => simp [tokens, opening, FieldSyntax.tokens] at h
  | nested name inner rest ihi ihr =>
    cases b' with
    | done => simp [tokens, closing, opening] at h
    | field g rest' => simp [tokens, opening, FieldSyntax.tokens] at h
    | nested name' inner' rest' =>
      simp only [tokens, List.append_assoc] at h
      obtain ⟨rfl, hinner⟩ := opening_append_inj h
      obtain ⟨rfl, -, hrest⟩ := ihi hinner
      obtain ⟨rfl, rfl, rfl⟩ := ihr hrest
      exact ⟨rfl, rfl, rfl⟩

theorem BlockSyntax.tokens_append_inj {b b' : BlockSyntax} (h : b.tokens ++ us = b'.tokens ++ vs) :
    b = b' ∧ us = vs := by
  obtain ⟨type, body⟩ := b
  obtain ⟨type', body'⟩ := b'
  simp only [tokens, List.append_assoc] at h
  obtain ⟨rfl, hbody⟩ := opening_append_inj h
  obtain ⟨rfl, -, rfl⟩ := BodySyntax.tokens_append_inj hbody
  exact ⟨rfl, rfl⟩

theorem BlockSyntax.optionalTokens_append_inj {o o' : Option BlockSyntax} {key key' : String}
    (h : optionalTokens o ++ (closing key ++ us) = optionalTokens o' ++ (closing key' ++ vs)) :
    o = o' ∧ us = vs := by
  cases o with
  | none =>
    cases o' with
    | none => exact ⟨rfl, (closing_append_inj h).2⟩
    | some b' =>
      rw [optionalTokens, optionalTokens, tokens, List.append_assoc, List.append_assoc] at h
      exact absurd h (closing_append_ne_opening _ _)
  | some b =>
    cases o' with
    | none =>
      rw [optionalTokens, optionalTokens, tokens, List.append_assoc, List.append_assoc] at h
      exact absurd h.symm (closing_append_ne_opening _ _)
    | some b' =>
      obtain ⟨rfl, hrest⟩ := BlockSyntax.tokens_append_inj h
      exact ⟨rfl, (closing_append_inj hrest).2⟩

/-! ## Nodes and files -/

/-- Fields end where no name follows. -/
theorem FieldSyntax.flatMap_tokens_append_inj {fs gs : List FieldSyntax}
    (hus : ∀ name, us.head? ≠ some (.ident name)) (hvs : ∀ name, vs.head? ≠ some (.ident name))
    (h : fs.flatMap tokens ++ us = gs.flatMap tokens ++ vs) : fs = gs ∧ us = vs := by
  induction fs generalizing gs with
  | nil =>
    cases gs with
    | nil => exact ⟨rfl, h⟩
    | cons g gs =>
      have hhead : us.head? = some (.ident g.name) := by
        rw [List.flatMap_nil, List.nil_append] at h
        rw [h]
        rfl
      exact absurd hhead (hus _)
  | cons f fs ih =>
    cases gs with
    | nil =>
      have hhead : vs.head? = some (.ident f.name) := by
        rw [List.flatMap_nil, List.nil_append] at h
        rw [← h]
        rfl
      exact absurd hhead (hvs _)
    | cons g gs =>
      simp only [List.flatMap_cons, List.append_assoc] at h
      obtain ⟨rfl, hrest⟩ := FieldSyntax.tokens_append_inj h
      obtain ⟨rfl, hend⟩ := ih hrest
      exact ⟨rfl, hend⟩

theorem BlockSyntax.head?_optionalTokens_append_ne (o : Option BlockSyntax) (key : String)
    (us : List Token) (name : String) :
    (optionalTokens o ++ (closing key ++ us)).head? ≠ some (.ident name) := by
  cases o <;> simp [optionalTokens, tokens, opening, closing]

theorem NodeSyntax.tokens_append_inj {n n' : NodeSyntax} (h : n.tokens ++ us = n'.tokens ++ vs) :
    n = n' ∧ us = vs := by
  obtain ⟨key, fs, o⟩ := n
  obtain ⟨key', fs', o'⟩ := n'
  simp only [tokens, List.append_assoc] at h
  obtain ⟨rfl, hfields⟩ := opening_append_inj h
  obtain ⟨rfl, hblock⟩ := FieldSyntax.flatMap_tokens_append_inj
    (BlockSyntax.head?_optionalTokens_append_ne o key us)
    (BlockSyntax.head?_optionalTokens_append_ne o' key vs) hfields
  obtain ⟨rfl, rfl⟩ := BlockSyntax.optionalTokens_append_inj hblock
  exact ⟨rfl, rfl⟩

theorem ItemSyntax.tokens_append_inj {i j : ItemSyntax} (h : i.tokens ++ us = j.tokens ++ vs) :
    i = j ∧ us = vs := by
  cases i with
  | definition name x =>
    cases j with
    | definition name' y =>
      simp only [tokens, List.cons_append, List.cons.injEq, Token.ident.injEq, true_and] at h
      obtain ⟨rfl, h⟩ := h
      obtain ⟨rfl, rfl⟩ := ValueSyntax.tokens_append_inj h
      exact ⟨rfl, rfl⟩
    | node n' => simp [tokens, NodeSyntax.tokens, opening] at h
  | node n =>
    cases j with
    | definition name' y => simp [tokens, NodeSyntax.tokens, opening] at h
    | node n' =>
      obtain ⟨rfl, rfl⟩ := NodeSyntax.tokens_append_inj h
      exact ⟨rfl, rfl⟩

theorem ItemSyntax.tokens_ne_nil (i : ItemSyntax) : i.tokens ≠ [] := by
  cases i <;> simp [tokens, NodeSyntax.tokens, opening]

/-- **A file is determined by its tokens.** -/
theorem ItemSyntax.eq_of_tokens_eq {items items' : List ItemSyntax}
    (h : items.flatMap tokens = items'.flatMap tokens) : items = items' := by
  induction items generalizing items' with
  | nil =>
    cases items' with
    | nil => rfl
    | cons j items' =>
      have hj := (List.append_eq_nil_iff.mp h.symm).1
      exact absurd hj j.tokens_ne_nil
  | cons i items ih =>
    cases items' with
    | nil =>
      have hi := (List.append_eq_nil_iff.mp h).1
      exact absurd hi i.tokens_ne_nil
    | cons j items' =>
      obtain ⟨rfl, hrest⟩ := ItemSyntax.tokens_append_inj h
      rw [ih hrest]

end NetSchema
