import Mathlib.Data.Fintype.Card
import Mathlib.Data.Set.Finite.Basic
import Mathlib.Logic.Relation
import NetSchema.Proofs.Scene.Gathering
import NetSchema.Proofs.Scene.Uses

/-!
# Variables that stand for variables

A variable may be defined by another one, that by a third, and so on.  What a variable stands for is
where this chain ends, wherever the definitions are.  The first pass follows a chain only as far as
it has met the definitions.

* `EndsIn`: the literal that a chain ends in;
* `exists_endsIn`, `EndsIn.unique`: every variable that is used stands for one literal if it is
  defined once and no chain closes on itself;
* `Sound.gather`: a value that is gathered is the end of a chain;
* `isSome_gather_iff`: which variables the first pass gathers.
-/

namespace NetSchema

theorem ValueSyntax.uses_cases (x : ValueSyntax) : x.uses = [] ∨ ∃ name, x = .variable name := by
  cases x with
  | «variable» name => exact Or.inr ⟨name, rfl⟩
  | _ => exact Or.inl rfl

/-- What a literal means does not depend on variables. -/
theorem ValueSyntax.meaning?_literal {x : ValueSyntax} (h : x.uses = []) (vars vars' : Variables) :
    x.meaning? vars = x.meaning? vars' :=
  meaning?_congr (by simp [h])

theorem ValueSyntax.isSome_meaning?_iff {x : ValueSyntax} {vars : Variables} :
    (x.meaning? vars).isSome = true ↔ (x.uses = [] ∧ ∃ v, x.meaning? {} = some v) ∨
      ∃ name, x = .variable name ∧ (vars.get? name).isSome = true := by
  rcases x.uses_cases with hliteral | ⟨name, rfl⟩
  · rw [meaning?_literal hliteral vars {}, Option.isSome_iff_exists]
    constructor
    · intro h
      exact Or.inl ⟨hliteral, h⟩
    · rintro (⟨-, h⟩ | ⟨name, rfl, -⟩)
      · exact h
      · cases hliteral
  · simp [uses, meaning?]

namespace ItemSyntax

/-! ## Definitions and uses -/

def definition? : ItemSyntax → Option (String × ValueSyntax)
  | definition name x => some (name, x)
  | node _ => none

/-- The definitions of a file, in order. -/
def definitions (items : List ItemSyntax) : List (String × ValueSyntax) :=
  items.filterMap definition?

def definedNames (items : List ItemSyntax) : List String := (definitions items).map Prod.fst

def usedNames (items : List ItemSyntax) : List String := items.flatMap uses

variable {items before after part : List ItemSyntax} {item : ItemSyntax} {name other : String}
  {x y : ValueSyntax} {v v' : SceneValue} {vars : Variables}

theorem mem_definitions_iff : (name, x) ∈ definitions items ↔ .definition name x ∈ items := by
  rw [definitions, List.mem_filterMap]
  constructor
  · rintro ⟨item, hitem, he⟩
    cases item with
    | definition name' x' =>
      cases he
      exact hitem
    | node n => cases he
  · intro h
    exact ⟨_, h, rfl⟩

theorem mem_definedNames_iff : name ∈ definedNames items ↔ ∃ x, .definition name x ∈ items := by
  rw [definedNames, List.mem_map]
  constructor
  · rintro ⟨⟨name', x⟩, hd, rfl⟩
    exact ⟨x, mem_definitions_iff.mp hd⟩
  · rintro ⟨x, hx⟩
    exact ⟨(name, x), mem_definitions_iff.mpr hx, rfl⟩

theorem mem_usedNames (hitem : item ∈ items) (hname : name ∈ item.uses) :
    name ∈ usedNames items :=
  List.mem_flatMap.mpr ⟨item, hitem, hname⟩

/-- A name that is defined once has one value. -/
theorem definition_unique (hcount : (definedNames items).count name = 1)
    (hx : .definition name x ∈ items) (hy : .definition name y ∈ items) : x = y := by
  rw [definedNames] at hcount
  have hx' := mem_definitions_iff.mpr hx
  have hy' := mem_definitions_iff.mpr hy
  generalize definitions items = ds at hcount hx' hy'
  have hfilter : (ds.filter fun d => d.1 == name).length = 1 := by
    rw [← hcount, List.count_eq_length_filter, List.filter_map, List.length_map]
    rfl
  obtain ⟨d, hd⟩ := List.length_eq_one_iff.mp hfilter
  have hmem : ∀ z, (name, z) ∈ ds → (name, z) = d := by
    intro z hz
    have hz' : (name, z) ∈ ds.filter fun d => d.1 == name := by simp [hz]
    rw [hd] at hz'
    exact List.mem_singleton.mp hz'
  have hsame := (hmem x hx').trans (hmem y hy').symm
  exact (Prod.mk.inj hsame).2

/-! ## Chains -/

/-- Definitions lead from the variable over other variables to a literal of value `v`. -/
inductive EndsIn (items : List ItemSyntax) : String → SceneValue → Prop
  | literal {name : String} {x : ValueSyntax} {v : SceneValue} : .definition name x ∈ items →
      x.uses = [] → x.meaning? {} = some v → EndsIn items name v
  | link {name other : String} {v : SceneValue} : .definition name (.variable other) ∈ items →
      EndsIn items other v → EndsIn items name v

/-- The first variable is defined by the second. -/
def Links (items : List ItemSyntax) (name other : String) : Prop :=
  .definition name (.variable other) ∈ items

/-- Every variable that is used is defined once, all literals mean something, and no chain of
variables closes on itself. -/
structure Resolvable (items : List ItemSyntax) : Prop where
  once : ∀ name ∈ usedNames items, (definedNames items).count name = 1
  literal : ∀ name x, .definition name x ∈ items → x.uses = [] → ∃ v, x.meaning? {} = some v
  acyclic : ∀ name, ¬ Relation.TransGen (Links items) name name

theorem Links.used (h : Links items name other) : other ∈ usedNames items :=
  mem_usedNames h (by simp [uses, ValueSyntax.uses])

theorem Resolvable.defined (hres : Resolvable items) (hname : name ∈ usedNames items) :
    name ∈ definedNames items := by
  apply List.count_pos_iff.mp
  rw [hres.once name hname]
  exact Nat.one_pos

theorem EndsIn.unique (h : EndsIn items name v) (hres : Resolvable items)
    (hname : name ∈ usedNames items) (h' : EndsIn items name v') : v = v' := by
  induction h with
  | literal hd hx hv =>
    cases h' with
    | literal hd' hx' hv' =>
      obtain rfl := definition_unique (hres.once _ hname) hd hd'
      exact Option.some.inj (hv.symm.trans hv')
    | link hd' _ =>
      obtain rfl := definition_unique (hres.once _ hname) hd hd'
      cases hx
  | link hd _ ih =>
    cases h' with
    | literal hd' hx' hv' =>
      obtain rfl := definition_unique (hres.once _ hname) hd hd'
      cases hx'
    | link hd' hends =>
      cases definition_unique (hres.once _ hname) hd hd'
      exact ih (Links.used hd) hends

/-- Every variable that is used stands for a literal. -/
theorem exists_endsIn (hres : Resolvable items) (hname : name ∈ usedNames items) :
    ∃ v, EndsIn items name v := by
  let Below (a b : {name // name ∈ usedNames items}) : Prop :=
    Relation.TransGen (Links items) b.1 a.1
  have hfinite : Finite {name // name ∈ usedNames items} := List.finite_toSet (usedNames items)
  have htrans : IsTrans _ Below := ⟨fun _ _ _ hab hbc => hbc.trans hab⟩
  have hirrefl : Std.Irrefl Below := ⟨fun a ha => hres.acyclic a.1 ha⟩
  have hwf : WellFounded Below := Finite.wellFounded_of_trans_of_irrefl Below
  suffices h : ∀ a : {name // name ∈ usedNames items}, ∃ v, EndsIn items a.1 v from h ⟨name, hname⟩
  intro a
  induction a using hwf.induction with
  | _ a ih =>
    obtain ⟨x, hx⟩ := mem_definedNames_iff.mp (hres.defined a.2)
    rcases x.uses_cases with hliteral | ⟨other, rfl⟩
    · obtain ⟨v, hv⟩ := hres.literal a.1 x hx hliteral
      exact ⟨v, .literal hx hliteral hv⟩
    · obtain ⟨v, hv⟩ := ih ⟨other, Links.used hx⟩ (.single hx)
      exact ⟨v, .link hx hv⟩

/-! ## What is gathered -/

theorem isSome_get?_store : ((store vars name x).get? other).isSome = true ↔
    (vars.get? other).isSome = true ∨ (other = name ∧ (x.meaning? vars).isSome = true) := by
  unfold store
  cases x.meaning? vars with
  | none => simp
  | some v =>
    rw [OrderedMap.get?_insert]
    by_cases h : other = name <;> simp [h]

/-- What is known of a variable is where its chain ends. -/
def Sound (items : List ItemSyntax) (vars : Variables) : Prop :=
  ∀ name v, vars.get? name = some v → EndsIn items name v

theorem Sound.insert (hvars : Sound items vars) (hd : .definition name x ∈ items)
    (hx : x.meaning? vars = some v) : Sound items (vars.insert name v) := by
  intro other w hw
  rw [OrderedMap.get?_insert] at hw
  split at hw
  · next hother =>
    subst hother
    cases hw
    rcases x.uses_cases with hliteral | ⟨next, rfl⟩
    · rw [ValueSyntax.meaning?_literal hliteral vars {}] at hx
      exact .literal hd hliteral hx
    · exact .link hd (hvars next v hx)
  · exact hvars other w hw

theorem Sound.store (hvars : Sound items vars) (hd : .definition name x ∈ items) :
    Sound items (store vars name x) := by
  unfold ItemSyntax.store
  cases hx : x.meaning? vars with
  | none => exact hvars
  | some v => exact hvars.insert hd hx

/-- **What is gathered is where chains end.** -/
theorem Sound.gather (hvars : Sound items vars) (hpart : part ⊆ items) :
    Sound items (gather vars part) := by
  induction part generalizing vars with
  | nil => exact hvars
  | cons item part ih =>
    obtain ⟨hitem, hrest⟩ := List.cons_subset.mp hpart
    cases item with
    | node n => exact ih hvars hrest
    | definition name x => exact ih (hvars.store hitem) hrest

theorem isSome_gather (h : (vars.get? name).isSome = true) (part : List ItemSyntax) :
    ((gather vars part).get? name).isSome = true := by
  induction part generalizing vars with
  | nil => exact h
  | cons item part ih =>
    cases item with
    | node n => exact ih h
    | definition other x => exact ih (isSome_get?_store.mpr (Or.inl h))

theorem defined_of_isSome_gather (h : ((gather vars part).get? name).isSome = true) :
    (vars.get? name).isSome = true ∨ name ∈ definedNames part := by
  induction part generalizing vars with
  | nil => exact Or.inl h
  | cons item part ih =>
    cases item with
    | node n => exact ih h
    | definition other x =>
      rcases ih h with hstore | hlater
      · rcases isSome_get?_store.mp hstore with hknown | ⟨rfl, -⟩
        · exact Or.inl hknown
        · exact Or.inr List.mem_cons_self
      · exact Or.inr (List.mem_cons_of_mem _ hlater)

/-- Where all definitions mean something, all of them are gathered. -/
theorem isSome_gather_of_meaning? {root : Option String} {r : Option String × List NodeBlock}
    (h : meaning? vars root part = some r) (hname : name ∈ definedNames part) :
    ((gather vars part).get? name).isSome = true := by
  induction part generalizing vars root r with
  | nil => cases hname
  | cons item part ih =>
    obtain ⟨x, hx⟩ := mem_definedNames_iff.mp hname
    cases item with
    | node n =>
      rw [meaning?] at h
      obtain ⟨b, -, h⟩ := Option.bind_eq_some_iff.mp h
      obtain ⟨r', hr, -⟩ := Option.bind_eq_some_iff.mp h
      refine ih hr (mem_definedNames_iff.mpr ⟨x, ?_⟩)
      simpa using hx
    | definition other y =>
      rw [meaning?] at h
      obtain ⟨v, hv, h⟩ := Option.bind_eq_some_iff.mp h
      obtain ⟨root', -, hr⟩ := Option.bind_eq_some_iff.mp h
      rw [gather, store, hv]
      rcases List.mem_cons.mp hx with hhead | htail
      · cases hhead
        exact isSome_gather (by simp [OrderedMap.get?_insert]) part
      · exact ih hr (mem_definedNames_iff.mpr ⟨x, htail⟩)

/-! ## What the first pass gathers -/

/-- Going through the items in order, the chain of the variable is met from its end on. -/
inductive Settled : List ItemSyntax → String → Prop
  | literal {before : List ItemSyntax} {name : String} {x : ValueSyntax} {v : SceneValue} :
      x.uses = [] → x.meaning? {} = some v → Settled (before ++ [.definition name x]) name
  | link {before : List ItemSyntax} {name other : String} : Settled before other →
      Settled (before ++ [.definition name (.variable other)]) name
  | later {before : List ItemSyntax} {item : ItemSyntax} {name : String} : Settled before name →
      Settled (before ++ [item]) name

theorem not_settled_nil : ¬ Settled [] name := by
  intro h
  generalize hitems : [] = items at h
  cases h <;> simp at hitems

theorem settled_concat_iff : Settled (before ++ [item]) name ↔ Settled before name ∨
    ∃ x, item = .definition name x ∧
      ((x.uses = [] ∧ ∃ v, x.meaning? {} = some v) ∨
        ∃ other, x = .variable other ∧ Settled before other) := by
  constructor
  · intro h
    generalize hitems : before ++ [item] = items at h
    cases h with
    | literal hx hv =>
      obtain ⟨rfl, hitem⟩ := List.append_inj' hitems rfl
      cases hitem
      exact Or.inr ⟨_, rfl, Or.inl ⟨hx, _, hv⟩⟩
    | link hother =>
      obtain ⟨rfl, hitem⟩ := List.append_inj' hitems rfl
      cases hitem
      exact Or.inr ⟨_, rfl, Or.inr ⟨_, rfl, hother⟩⟩
    | later hname =>
      obtain ⟨rfl, -⟩ := List.append_inj' hitems rfl
      exact Or.inl hname
  · rintro (h | ⟨x, rfl, ⟨hx, v, hv⟩ | ⟨other, rfl, hother⟩⟩)
    · exact .later h
    · exact .literal hx hv
    · exact .link hother

/-- **The first pass** gathers exactly the variables that are settled. -/
theorem isSome_gather_iff (items : List ItemSyntax) (name : String) :
    ((gather {} items).get? name).isSome = true ↔ Settled items name := by
  induction items using List.reverseRecOn generalizing name with
  | nil =>
    constructor
    · intro h
      cases h
    · intro h
      exact absurd h not_settled_nil
  | append_singleton items item ih =>
    simp only [gather_append, settled_concat_iff, ← ih]
    cases item with
    | node n => simp [gather]
    | definition other x =>
      simp only [gather, isSome_get?_store, ValueSyntax.isSome_meaning?_iff]
      apply or_congr_right
      constructor
      · rintro ⟨rfl, h⟩
        exact ⟨x, rfl, h⟩
      · rintro ⟨y, heq, h⟩
        cases heq
        exact ⟨rfl, h⟩

end ItemSyntax

end NetSchema
