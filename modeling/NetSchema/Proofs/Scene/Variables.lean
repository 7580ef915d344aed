import NetSchema.Proofs.Scene.Aliases
import NetSchema.Proofs.Scene.Faults

/-!
# Variables that are used before they are defined

Where every variable that is used stands for a literal, a text means the same wherever its
definitions are.  It is read as this if each variable is known where it is used: the first pass has
gathered it, or the second pass has met its definition.  If one is not, the text is not read.

* `Reads`: what items mean when variables are replaced by the literals that they stand for;
* `Timely`: each variable is known where it is used;
* `timely_of_defined_before`: it is so if definitions stand after those that they name;
* `blocks_eq_ok_iff_reads`: which texts are read, and as what;
* `blocks_by_chains`: together with the faults, and what moving definitions changes;
* `Backward.backward_fails`: a use before a chain that is met from its wrong end.
-/

namespace NetSchema

namespace ItemSyntax

variable {items items' part before after : List ItemSyntax} {item : ItemSyntax} {name : String}
  {x : ValueSyntax} {v : SceneValue} {n : NodeSyntax} {b : NodeBlock} {bs : List NodeBlock}
  {root root' : Option String} {r r' : Option String × List NodeBlock} {vars ends : Variables}

/-! ## What variables stand for -/

/-- The variables that are used have the values that their chains end in. -/
def Solves (ends : Variables) (items : List ItemSyntax) : Prop :=
  ∀ name ∈ usedNames items, ∃ v, ends.get? name = some v ∧ EndsIn items name v

theorem exists_solves (hres : Resolvable items) : ∃ ends, Solves ends items := by
  suffices h : ∀ names, names ⊆ usedNames items → ∃ ends : Variables, ∀ name ∈ names,
      ∃ v, ends.get? name = some v ∧ EndsIn items name v from h _ (List.Subset.refl _)
  intro names
  induction names with
  | nil =>
    intro _
    exact ⟨{}, by simp⟩
  | cons name names ih =>
    intro hsub
    obtain ⟨hname, hnames⟩ := List.cons_subset.mp hsub
    obtain ⟨ends, hends⟩ := ih hnames
    obtain ⟨v, hv⟩ := exists_endsIn hres hname
    refine ⟨ends.insert name v, ?_⟩
    intro other hother
    rw [OrderedMap.get?_insert]
    by_cases h : other = name
    · exact ⟨v, if_pos h, h ▸ hv⟩
    · rw [if_neg h]
      exact hends other ((List.mem_cons.mp hother).resolve_left h)

/-- What is known where an item stands is what its variables stand for. -/
theorem Sound.extendsOn (hvars : Sound items vars) (hres : Resolvable items)
    (hends : Solves ends items) (hitem : item ∈ items) : ExtendsOn item.uses vars ends := by
  intro name hname v hv
  have hused := mem_usedNames hitem hname
  obtain ⟨w, hw, hend⟩ := hends name hused
  rw [hw, hend.unique hres hused (hvars name v hv)]

/-! ## Items one after the other -/

/-- The nodes of a file, in order. -/
def nodes (items : List ItemSyntax) : List NodeSyntax :=
  items.filterMap fun
    | node n => some n
    | definition .. => none

theorem definitions_concat_definition : definitions (items ++ [.definition name x]) =
    definitions items ++ [(name, x)] := by
  rw [definitions, List.filterMap_append]
  rfl

theorem definitions_concat_node : definitions (items ++ [.node n]) = definitions items := by
  rw [definitions, List.filterMap_append]
  exact List.append_nil _

theorem nodes_concat_definition : nodes (items ++ [.definition name x]) = nodes items := by
  rw [nodes, List.filterMap_append]
  exact List.append_nil _

theorem nodes_concat_node : nodes (items ++ [.node n]) = nodes items ++ [n] := by
  rw [nodes, List.filterMap_append]
  rfl

/-- What follows is read with the variables that the items before have added. -/
theorem meaning?_append (vars : Variables) (root : Option String) (items rest : List ItemSyntax) :
    meaning? vars root (items ++ rest) = do
      let (root', bs) ← meaning? vars root items
      let (root'', bs') ← meaning? (gather vars items) root' rest
      return (root'', bs ++ bs') := by
  induction items generalizing vars root with
  | nil => simp [meaning?, gather]
  | cons item items ih =>
    cases item with
    | definition name x =>
      rw [List.cons_append, meaning?, meaning?, gather, store]
      cases x.meaning? vars with
      | none => rfl
      | some v =>
        cases hroot : rootAfter? name v root with
        | none => simp [hroot]
        | some root' => simp [hroot, ih]
    | node n =>
      rw [List.cons_append, meaning?, meaning?, gather]
      cases n.meaning? vars with
      | none => rfl
      | some b => simp [ih, Option.bind_assoc]

theorem meaning?_concat_definition
    (h : meaning? vars root (items ++ [.definition name x]) = some r) :
    ∃ root' v, meaning? vars root items = some (root', r.2) ∧
      x.meaning? (gather vars items) = some v ∧ rootAfter? name v root' = some r.1 := by
  rw [meaning?_append] at h
  obtain ⟨⟨root', bs⟩, hitems, h⟩ := Option.bind_eq_some_iff.mp h
  obtain ⟨⟨root'', bs'⟩, hitem, h⟩ := Option.bind_eq_some_iff.mp h
  obtain ⟨v, hv, hitem⟩ := Option.bind_eq_some_iff.mp hitem
  obtain ⟨root₁, hroot, hitem⟩ := Option.bind_eq_some_iff.mp hitem
  cases hitem
  cases h
  exact ⟨root', v, by simpa using hitems, hv, hroot⟩

theorem meaning?_concat_node (h : meaning? vars root (items ++ [.node n]) = some r) :
    ∃ bs b, meaning? vars root items = some (r.1, bs) ∧
      n.meaning? (gather vars items) = some b ∧ r.2 = bs ++ [b] := by
  rw [meaning?_append] at h
  obtain ⟨⟨root', bs⟩, hitems, h⟩ := Option.bind_eq_some_iff.mp h
  obtain ⟨⟨root'', bs'⟩, hitem, h⟩ := Option.bind_eq_some_iff.mp h
  obtain ⟨b, hb, hitem⟩ := Option.bind_eq_some_iff.mp hitem
  cases hitem
  cases h
  exact ⟨bs, b, hitems, hb, rfl⟩

theorem known_of_means (h : Means vars item) (hname : name ∈ item.uses) :
    (vars.get? name).isSome = true := by
  cases item with
  | definition other x =>
    obtain ⟨v, hv, -⟩ := h
    exact ValueSyntax.known_of_meaning? hv hname
  | node n =>
    obtain ⟨b, hb⟩ := h
    exact NodeSyntax.known_of_meaning? hb hname

/-- Every item of a text that means something does so with what is known there. -/
theorem means_of_meaning? (h : meaning? vars root (before ++ item :: after) = some r) :
    ∃ r', meaning? vars root before = some r' ∧ Means (gather vars before) item := by
  rw [meaning?_append] at h
  obtain ⟨r', hbefore, h⟩ := Option.bind_eq_some_iff.mp h
  obtain ⟨_, hafter, -⟩ := Option.bind_eq_some_iff.mp h
  refine ⟨r', hbefore, ?_⟩
  cases item with
  | definition name x =>
    obtain ⟨v, hv, hafter⟩ := Option.bind_eq_some_iff.mp hafter
    obtain ⟨root', hroot, -⟩ := Option.bind_eq_some_iff.mp hafter
    exact ⟨v, hv, isSome_rootAfter?.mp (by rw [hroot]; rfl)⟩
  | node n =>
    obtain ⟨b, hb, -⟩ := Option.bind_eq_some_iff.mp hafter
    exact ⟨b, hb⟩

/-! ## Readings -/

/-- What the items mean if the variables have the values `ends`, wherever they are defined: the last
root key that is defined, and a block for each node. -/
structure Reads (ends : Variables) (items : List ItemSyntax)
    (r : Option String × List NodeBlock) : Prop where
  means : ∀ item ∈ items, Means ends item
  nodes : (nodes items).map (NodeSyntax.meaning? ends) = r.2.map some
  root : r.1 = OrderedMap.last? (definitions items) "root" >>=
    ValueSyntax.meaning? ends >>= SceneValue.asKey?

namespace Reads

theorem unique (h : Reads ends items r) (h' : Reads ends items r') : r = r' := by
  refine Prod.ext (h.root.trans h'.root.symm) ?_
  exact List.map_injective_iff.mpr (Option.some_injective _) (h.nodes.symm.trans h'.nodes)

theorem concat_definition (h : Reads ends items (root, bs)) (hv : x.meaning? ends = some v)
    (hroot : rootAfter? name v root = some root') :
    Reads ends (items ++ [.definition name x]) (root', bs) where
  means := by
    intro item hitem
    rcases List.mem_append.mp hitem with hbefore | hlast
    · exact h.means item hbefore
    · obtain rfl := List.mem_singleton.mp hlast
      exact ⟨v, hv, isSome_rootAfter?.mp (Option.isSome_iff_exists.mpr ⟨root', hroot⟩)⟩
  nodes := by rw [nodes_concat_definition, h.nodes]
  root := by
    rw [definitions_concat_definition, OrderedMap.last?_concat]
    unfold rootAfter? at hroot
    split at hroot
    · next hname =>
      obtain ⟨key, hkey, rfl⟩ := Option.map_eq_some_iff.mp hroot
      simp [hname, hv, hkey]
    · next hname =>
      cases hroot
      rw [if_neg (Ne.symm hname)]
      exact h.root

theorem concat_node (h : Reads ends items (root, bs)) (hb : n.meaning? ends = some b) :
    Reads ends (items ++ [.node n]) (root, bs ++ [b]) where
  means := by
    intro item hitem
    rcases List.mem_append.mp hitem with hbefore | hlast
    · exact h.means item hbefore
    · obtain rfl := List.mem_singleton.mp hlast
      exact ⟨b, hb⟩
  nodes := by rw [nodes_concat_node, List.map_append, h.nodes, List.map_append, List.map_singleton,
    hb, List.map_singleton]
  root := by rw [definitions_concat_node, h.root]

end Reads

/-- **What is read** is what the items mean with the values that the chains end in. -/
theorem reads_of_meaning? (hvars : Sound items vars) (hres : Resolvable items)
    (hends : Solves ends items) (hpart : part ⊆ items) (h : meaning? vars none part = some r) :
    Reads ends part r := by
  induction part using List.reverseRecOn generalizing r with
  | nil =>
    cases h
    exact ⟨by simp, rfl, rfl⟩
  | append_singleton part item ih =>
    obtain ⟨hbefore, hitem⟩ := List.append_subset.mp hpart
    have hitem := hitem List.mem_cons_self
    have hext := (hvars.gather hbefore).extendsOn hres hends hitem
    cases item with
    | definition name x =>
      obtain ⟨root, v, hprefix, hv, hroot⟩ := meaning?_concat_definition h
      exact (ih hbefore hprefix).concat_definition (ValueSyntax.meaning?_of_extends hv hext) hroot
    | node n =>
      obtain ⟨bs, b, hprefix, hb, hbs⟩ := meaning?_concat_node h
      have hnode := (ih hbefore hprefix).concat_node (NodeSyntax.meaning?_of_extends hb hext)
      rwa [← hbs] at hnode

/-! ## What is known where it is used -/

/-- Each variable is settled in the first pass or else defined before it is used. -/
def Timely (items : List ItemSyntax) : Prop :=
  ∀ before item after, items = before ++ item :: after →
    ∀ name ∈ item.uses, Settled items name ∨ name ∈ definedNames before

/-- What the second pass knows after the items `before`. -/
theorem known_iff (hbefore : meaning? (gather {} items) root before = some r) :
    ((gather (gather {} items) before).get? name).isSome = true ↔
      Settled items name ∨ name ∈ definedNames before := by
  rw [← isSome_gather_iff]
  constructor
  · exact defined_of_isSome_gather
  · rintro (hsettled | hdefined)
    · exact isSome_gather hsettled before
    · exact isSome_gather_of_meaning? hbefore hdefined

theorem timely_of_meaning? (h : meaning? (gather {} items) none items = some r) :
    Timely items := by
  intro before item after hsplit name hname
  have hparts : meaning? (gather {} items) none (before ++ item :: after) = some r := by
    rw [← hsplit]
    exact h
  obtain ⟨r', hbefore, hmeans⟩ := means_of_meaning? hparts
  exact (known_iff hbefore).mp (known_of_means hmeans hname)

/-- **Definitions after what they name.**  If every variable that another is defined by is defined
before, all are known wherever they are used. -/
theorem timely_of_defined_before (hres : Resolvable items)
    (horder : ∀ before name other after,
      items = before ++ .definition name (.variable other) :: after → other ∈ definedNames before) :
    Timely items := by
  have hsettled : ∀ before after, items = before ++ after →
      ∀ name ∈ definedNames before, Settled before name := by
    intro before
    induction before using List.reverseRecOn with
    | nil =>
      intro _ _ name hname
      cases hname
    | append_singleton before item ih =>
      intro after hsplit name hname
      rw [List.append_assoc, List.singleton_append] at hsplit
      have hbefore := ih _ hsplit
      cases item with
      | node n =>
        rw [definedNames, definitions_concat_node] at hname
        exact .later (hbefore name hname)
      | definition other x =>
        rw [definedNames, definitions_concat_definition, List.map_append] at hname
        rcases List.mem_append.mp hname with hname | hlast
        · exact .later (hbefore name hname)
        · obtain rfl := List.mem_singleton.mp hlast
          rcases x.uses_cases with hliteral | ⟨next, rfl⟩
          · have hd : .definition name x ∈ items := by simp [hsplit]
            obtain ⟨v, hv⟩ := hres.literal name x hd hliteral
            exact .literal hliteral hv
          · exact .link (hbefore next (horder before name next after hsplit))
  intro before item after hsplit name hname
  have hitem : item ∈ items := by simp [hsplit]
  have hdefined := hres.defined (mem_usedNames hitem hname)
  exact Or.inl (hsettled items [] (List.append_nil items).symm name hdefined)

/-- What the first pass gathers is where chains end. -/
theorem sound_gather : Sound items (gather {} items) := by
  refine Sound.gather ?_ (List.Subset.refl items)
  intro name v h
  cases h

/-! ## Texts -/

section Texts

variable {text : String} (hts : (TokenStream.ofText text).tokens? = some (items.flatMap tokens))

include hts

theorem blocks_eq_ok_iff_meaning? :
    (TokenStream.ofText text).blocks = .ok r ↔ meaning? (gather {} items) none items = some r := by
  have hproper := TokenStream.ofText_proper text
  have hfirst := TokenStream.firstPass_eq_gather hproper hts
  rw [TokenStream.blocks_eq_ok_iff hproper]
  constructor
  · rintro ⟨vars, items', hvars, hts', hm⟩
    rw [hfirst] at hvars
    rw [hts] at hts'
    cases hvars
    obtain rfl := eq_of_tokens_eq (Option.some.inj hts')
    exact hm
  · intro hm
    exact ⟨_, items, hfirst, hts, hm⟩

/-- **Faults.**  A text fails at a variable that is not known where it is used, or else it would
fail wherever its definitions were. -/
theorem blocks_fails (hres : Resolvable items) (hends : Solves ends items)
    (hm : meaning? (gather {} items) none items = none) :
    ∃ e, (TokenStream.ofText text).blocks = .error e ∧
      (¬ Timely items ∧ (∃ line name, e = .unknownVariable line name) ∨
        (∀ line name, e ≠ .unknownVariable line name) ∧ ∀ r, ¬ Reads ends items r) := by
  have hproper := TokenStream.ofText_proper text
  obtain ⟨c, d, ha, hp, -⟩ := (TokenStream.passes_iff hproper (x := .start _) rfl).mpr hts
  obtain ⟨before, item, after, r, e, hsplit, hbefore, hread, hexplains⟩ :=
    Cursor.readBlocks_fails hp hm
  refine ⟨e, ?_, ?_⟩
  · unfold TokenStream.blocks
    refine bind_ok_error (TokenStream.firstPass_eq_gather hproper hts) ?_
    exact bind_ok_error (TokenStream.first_eq_ok_iff.mpr ha) hread
  · cases hexplains with
    | @unknown line name hname hget =>
      refine Or.inl ⟨?_, line, name, rfl⟩
      intro htimely
      have hknown := (known_iff hbefore).mpr (htimely before item after hsplit name hname)
      rw [hget] at hknown
      cases hknown
    | other hne hnot =>
      refine Or.inr ⟨hne, ?_⟩
      intro r hreads
      have hitem : item ∈ items := by simp [hsplit]
      have hsub : before ⊆ items := by
        rw [hsplit]
        exact List.subset_append_left ..
      have hext := (sound_gather.gather hsub).extendsOn hres hends hitem
      exact hnot ends hext (hreads.means item hitem)

/-- **Texts are read** if each variable is known where it is used, and then as what they mean with
the values that the chains end in. -/
theorem blocks_eq_ok_iff_reads (hres : Resolvable items) (hends : Solves ends items) :
    (TokenStream.ofText text).blocks = .ok r ↔ Timely items ∧ Reads ends items r := by
  rw [blocks_eq_ok_iff_meaning? hts]
  constructor
  · intro hm
    exact ⟨timely_of_meaning? hm,
      reads_of_meaning? sound_gather hres hends (List.Subset.refl items) hm⟩
  · rintro ⟨htimely, hreads⟩
    cases hm : meaning? (gather {} items) none items with
    | none =>
      obtain ⟨e, -, ⟨hlate, -⟩ | ⟨-, hnone⟩⟩ := blocks_fails hts hres hends hm
      · exact absurd htimely hlate
      · exact absurd hreads (hnone r)
    | some r' =>
      have hreads' := reads_of_meaning? sound_gather hres hends (List.Subset.refl items) hm
      rw [hreads'.unique hreads]

theorem blocks_ne_unknownVariable (hres : Resolvable items) (hends : Solves ends items)
    (htimely : Timely items) (line : Nat) (name : String) :
    (TokenStream.ofText text).blocks ≠ .error (.unknownVariable line name) := by
  intro h
  cases hm : meaning? (gather {} items) none items with
  | none =>
    obtain ⟨e, he, ⟨hlate, -⟩ | ⟨hne, -⟩⟩ := blocks_fails hts hres hends hm
    · exact absurd htimely hlate
    · rw [h] at he
      cases he
      exact hne line name rfl
  | some r =>
    rw [(blocks_eq_ok_iff_meaning? hts).mpr hm] at h
    cases h

theorem blocks_eq_unknownVariable (hres : Resolvable items) (hends : Solves ends items)
    (hlate : ¬ Timely items) (hreads : Reads ends items r) :
    ∃ line name, (TokenStream.ofText text).blocks = .error (.unknownVariable line name) := by
  cases hm : meaning? (gather {} items) none items with
  | none =>
    obtain ⟨e, he, ⟨-, line, name, rfl⟩ | ⟨-, hnone⟩⟩ := blocks_fails hts hres hends hm
    · exact ⟨line, name, he⟩
    · exact absurd hreads (hnone r)
  | some r' => exact absurd (timely_of_meaning? hm) hlate

end Texts

/-! ## Moving definitions -/

/-- Definitions have been moved: the nodes are the same, in the same order, and the definition of
the root that comes last does so still. -/
structure Moved (items items' : List ItemSyntax) : Prop where
  nodes : nodes items = nodes items'
  definitions : (definitions items).Perm (definitions items')
  root : OrderedMap.last? (ItemSyntax.definitions items) "root" =
    OrderedMap.last? (ItemSyntax.definitions items') "root"

theorem mem_nodes_iff : n ∈ nodes items ↔ .node n ∈ items := by
  rw [nodes, List.mem_filterMap]
  constructor
  · rintro ⟨item, hitem, hn⟩
    cases item with
    | definition name x => cases hn
    | node n' =>
      cases hn
      exact hitem
  · intro h
    exact ⟨_, h, rfl⟩

namespace Moved

theorem symm (h : Moved items items') : Moved items' items :=
  ⟨h.nodes.symm, h.definitions.symm, h.root.symm⟩

theorem mem_iff (h : Moved items items') : item ∈ items ↔ item ∈ items' := by
  cases item with
  | definition name x => rw [← mem_definitions_iff, ← mem_definitions_iff, h.definitions.mem_iff]
  | node n => rw [← mem_nodes_iff, ← mem_nodes_iff, h.nodes]

theorem usedNames_iff (h : Moved items items') :
    name ∈ usedNames items ↔ name ∈ usedNames items' := by
  simp only [usedNames, List.mem_flatMap, h.mem_iff]

theorem endsIn (h : Moved items items') (hends : EndsIn items name v) : EndsIn items' name v := by
  induction hends with
  | literal hd hx hv => exact .literal (h.mem_iff.mp hd) hx hv
  | link hd _ ih => exact .link (h.mem_iff.mp hd) ih

theorem resolvable (h : Moved items items') (hres : Resolvable items) : Resolvable items' where
  once := by
    intro name hname
    rw [definedNames, ← (h.definitions.map Prod.fst).count_eq]
    exact hres.once name (h.usedNames_iff.mpr hname)
  literal := by
    intro name x hd
    exact hres.literal name x (h.mem_iff.mpr hd)
  acyclic := by
    intro name hcycle
    have hlinks : ∀ name other, Links items' name other → Links items name other :=
      fun _ _ => h.mem_iff.mpr
    exact hres.acyclic name (Relation.TransGen.mono hlinks name name hcycle)

theorem solves (h : Moved items items') (hends : Solves ends items) : Solves ends items' := by
  intro name hname
  obtain ⟨v, hv, hend⟩ := hends name (h.usedNames_iff.mpr hname)
  exact ⟨v, hv, h.endsIn hend⟩

theorem reads (h : Moved items items') (hreads : Reads ends items r) : Reads ends items' r where
  means := by
    intro item hitem
    exact hreads.means item (h.mem_iff.mpr hitem)
  nodes := by rw [← h.nodes, hreads.nodes]
  root := by rw [← h.root, hreads.root]

end Moved

/-- Where each variable is known, moving definitions changes nothing. -/
theorem blocks_of_moved {text text' : String}
    (hts : (TokenStream.ofText text).tokens? = some (items.flatMap tokens))
    (hts' : (TokenStream.ofText text').tokens? = some (items'.flatMap tokens))
    (hres : Resolvable items) (hends : Solves ends items) (hmoved : Moved items items')
    (htimely : Timely items) (htimely' : Timely items') :
    (TokenStream.ofText text).blocks = .ok r ↔ (TokenStream.ofText text').blocks = .ok r := by
  rw [blocks_eq_ok_iff_reads hts hres hends,
    blocks_eq_ok_iff_reads hts' (hmoved.resolvable hres) (hmoved.solves hends)]
  constructor
  · rintro ⟨-, hreads⟩
    exact ⟨htimely', hmoved.reads hreads⟩
  · rintro ⟨-, hreads⟩
    exact ⟨htimely, hmoved.symm.reads hreads⟩

/-- **Variables stand for the literals that their chains end in.**  In a text whose variables each
stand for one, each is replaced by it, wherever it is defined, if it is known where it is used; such
a text does not fail at a variable, and moving its definitions does not change its descriptor as
long as this stays so.  A text with a variable that is not known where it is used is not read, and
fails at such a variable if nothing else is wrong with it. -/
theorem blocks_by_chains (text : String) (items : List ItemSyntax)
    (hts : (TokenStream.ofText text).tokens? = some (items.flatMap tokens))
    (hres : Resolvable items) :
    ∃ ends, Solves ends items ∧
      (∀ r, (TokenStream.ofText text).blocks = .ok r ↔ Timely items ∧ Reads ends items r) ∧
      (Timely items → ∀ line name,
        (TokenStream.ofText text).blocks ≠ .error (.unknownVariable line name)) ∧
      (¬ Timely items → ∀ r, Reads ends items r →
        ∃ line name, (TokenStream.ofText text).blocks = .error (.unknownVariable line name)) ∧
      ∀ text' items', (TokenStream.ofText text').tokens? = some (items'.flatMap tokens) →
        Moved items items' → Timely items → Timely items' →
          ∀ d, Descriptor.parse text = .ok d ↔ Descriptor.parse text' = .ok d := by
  obtain ⟨ends, hends⟩ := exists_solves hres
  refine ⟨ends, hends, ?_, ?_, ?_, ?_⟩
  · intro r
    exact blocks_eq_ok_iff_reads hts hres hends
  · exact blocks_ne_unknownVariable hts hres hends
  · intro hlate r
    exact blocks_eq_unknownVariable hts hres hends hlate
  · intro text' items' hts' hmoved htimely htimely' d
    unfold Descriptor.parse
    simp only [bind_eq_ok_iff, blocks_of_moved hts hts' hres hends hmoved htimely htimely']

/-! ## A chain that is met from its wrong end -/

namespace Backward

/-- The chain is met first and its end last. -/
def text : String := "[m] x=@a [/m] @a=@b @b=c"

def user : NodeSyntax := ⟨"m", [⟨"x", .variable "a"⟩], none⟩

def chain : List ItemSyntax :=
  [.node user, .definition "a" (.variable "b"), .definition "b" (.word "c")]

def values : Variables := .ofList [("a", .key "c"), ("b", .key "c")]

theorem tokens_text : (TokenStream.ofText text).tokens? = some (chain.flatMap tokens) := by
  decide +kernel

theorem definition_mem_iff : .definition name x ∈ chain ↔
    (name = "a" ∧ x = .variable "b") ∨ (name = "b" ∧ x = .word "c") := by
  simp [chain]

theorem resolvable_chain : Resolvable chain where
  once := by decide
  literal := by
    intro name x hd hx
    rcases definition_mem_iff.mp hd with ⟨-, rfl⟩ | ⟨-, rfl⟩
    · cases hx
    · exact ⟨_, rfl⟩
  acyclic := by
    have hlink : ∀ name other, Links chain name other → name = "a" ∧ other = "b" := by
      intro name other h
      simpa using definition_mem_iff.mp h
    have hends : ∀ name other, Relation.TransGen (Links chain) name other →
        name = "a" ∧ other = "b" := by
      intro name other h
      induction h with
      | single h => exact hlink _ _ h
      | tail _ h ih => exact ⟨ih.1, (hlink _ _ h).2⟩
    intro name hcycle
    obtain ⟨rfl, h⟩ := hends name name hcycle
    simp at h

theorem solves_values : Solves values chain := by
  have hb : EndsIn chain "b" (.key "c") :=
    .literal (definition_mem_iff.mpr (Or.inr ⟨rfl, rfl⟩)) rfl rfl
  have ha : EndsIn chain "a" (.key "c") :=
    .link (definition_mem_iff.mpr (Or.inl ⟨rfl, rfl⟩)) hb
  have hused : usedNames chain = ["a", "b"] := rfl
  intro name hname
  rw [hused] at hname
  obtain rfl | rfl : name = "a" ∨ name = "b" := by simpa using hname
  · exact ⟨_, rfl, ha⟩
  · exact ⟨_, rfl, hb⟩

theorem reads_chain : ∃ b, Reads values chain (none, [b]) := by
  refine ⟨NodeSyntax.withFields "m" [("x", .key "c")] none, ?_, rfl, rfl⟩
  intro item hitem
  obtain rfl | rfl | rfl : item = .node user ∨ item = .definition "a" (.variable "b") ∨
      item = .definition "b" (.word "c") := by simpa [chain] using hitem
  · exact ⟨_, rfl⟩
  · exact ⟨_, rfl, by decide⟩
  · exact ⟨_, rfl, by decide⟩

theorem not_timely_chain : ¬ Timely chain := by
  intro h
  rcases h [] (.node user) _ rfl "a" (by decide) with hsettled | hdefined
  · have hknown := (isSome_gather_iff chain "a").mpr hsettled
    revert hknown
    decide
  · cases hdefined

/-- Each variable stands for a literal, and yet the use of one fails. -/
theorem backward_fails : (TokenStream.ofText text).tokens? = some (chain.flatMap tokens) ∧
    Resolvable chain ∧ EndsIn chain "a" (.key "c") ∧
      ∃ line name, (TokenStream.ofText text).blocks = .error (.unknownVariable line name) := by
  obtain ⟨b, hreads⟩ := reads_chain
  obtain ⟨v, hv, ha⟩ := solves_values "a" (by decide)
  cases hv
  exact ⟨tokens_text, resolvable_chain, ha, blocks_eq_unknownVariable tokens_text resolvable_chain
    solves_values not_timely_chain hreads⟩

theorem backward_by_chains : (TokenStream.ofText text).tokens? = some (chain.flatMap tokens) ∧
    Resolvable chain ∧ ∀ r, (TokenStream.ofText text).blocks ≠ .ok r := by
  refine ⟨tokens_text, resolvable_chain, ?_⟩
  obtain ⟨ends, -, hread, -⟩ := blocks_by_chains text chain tokens_text resolvable_chain
  intro r hr
  exact not_timely_chain ((hread r).mp hr).1

end Backward

end ItemSyntax

end NetSchema
