import NetSchema.Proofs.Scene.Grammar

/-!
# Where variables are used

The variables that stand in a part of a scene text.  What the part means depends on these and on no
others, and it means nothing unless they are all known.

* `meaning?_congr`: variables with the same values give the same meaning;
* `known_of_meaning?`: the variables of a part that means something are known.
-/

namespace NetSchema

/-! ## Names that are used -/

def ValueSyntax.uses : ValueSyntax → List String
  | «variable» name => [name]
  | _ => []

def FieldSyntax.uses (f : FieldSyntax) : List String := f.value.uses

def BodySyntax.uses : BodySyntax → List String
  | done => []
  | field f rest => f.uses ++ rest.uses
  | nested _ inner rest => inner.uses ++ rest.uses

def BlockSyntax.uses (b : BlockSyntax) : List String := b.body.uses

/-- The uses in a block that may be left out. -/
def BlockSyntax.optionalUses : Option BlockSyntax → List String
  | none => []
  | some b => b.uses

def NodeSyntax.uses (n : NodeSyntax) : List String :=
  n.fields.flatMap FieldSyntax.uses ++ BlockSyntax.optionalUses n.block?

def ItemSyntax.uses : ItemSyntax → List String
  | definition _ x => x.uses
  | node n => n.uses

variable {vars vars' : Variables} {name : String}

/-! ## Values -/

namespace ValueSyntax

theorem meaning?_congr {x : ValueSyntax} (h : ∀ name ∈ x.uses, vars.get? name = vars'.get? name) :
    x.meaning? vars = x.meaning? vars' := by
  cases x with
  | «variable» name => exact h name (by simp [uses])
  | number x => rfl
  | string s => rfl
  | word name => rfl
  | vector first more => rfl

theorem known_of_meaning? {x : ValueSyntax} {v : SceneValue} (h : x.meaning? vars = some v)
    (hname : name ∈ x.uses) : (vars.get? name).isSome = true := by
  cases x with
  | «variable» other =>
    obtain rfl := List.mem_singleton.mp hname
    exact Option.isSome_iff_exists.mpr ⟨v, h⟩
  | number x => cases hname
  | string s => cases hname
  | word name => cases hname
  | vector first more => cases hname

end ValueSyntax

/-! ## Fields -/

namespace FieldSyntax

theorem meaning?_congr {f : FieldSyntax} (h : ∀ name ∈ f.uses, vars.get? name = vars'.get? name) :
    f.meaning? vars = f.meaning? vars' := by
  rw [meaning?, meaning?, ValueSyntax.meaning?_congr h]

theorem known_of_meaning? {f : FieldSyntax} {e : String × SceneValue} (h : f.meaning? vars = some e)
    (hname : name ∈ f.uses) : (vars.get? name).isSome = true := by
  obtain ⟨v, hv, -⟩ := Option.map_eq_some_iff.mp h
  exact ValueSyntax.known_of_meaning? hv hname

theorem mapM_meaning?_congr {fs : List FieldSyntax}
    (h : ∀ name ∈ fs.flatMap uses, vars.get? name = vars'.get? name) :
    fs.mapM (meaning? vars) = fs.mapM (meaning? vars') := by
  induction fs with
  | nil => rfl
  | cons f fs ih =>
    rw [List.flatMap_cons] at h
    obtain ⟨hf, hfs⟩ := List.forall_mem_append.mp h
    rw [List.mapM_cons, List.mapM_cons, meaning?_congr hf, ih hfs]

theorem known_of_mapM {fs : List FieldSyntax} {es : List (String × SceneValue)}
    (h : fs.mapM (meaning? vars) = some es) (hname : name ∈ fs.flatMap uses) :
    (vars.get? name).isSome = true := by
  induction fs generalizing es with
  | nil => cases hname
  | cons f fs ih =>
    rw [List.mapM_cons] at h
    obtain ⟨e, he, h⟩ := Option.bind_eq_some_iff.mp h
    obtain ⟨es', hes, -⟩ := Option.bind_eq_some_iff.mp h
    rw [List.flatMap_cons] at hname
    rcases List.mem_append.mp hname with hf | hfs
    · exact known_of_meaning? he hf
    · exact ih hes hfs

end FieldSyntax

/-! ## Blocks -/

namespace BodySyntax

theorem meaning?_congr {body : BodySyntax}
    (h : ∀ name ∈ body.uses, vars.get? name = vars'.get? name) :
    body.meaning? vars = body.meaning? vars' := by
  induction body with
  | done => rfl
  | field f rest ih =>
    obtain ⟨hf, hrest⟩ := List.forall_mem_append.mp h
    rw [meaning?, meaning?, FieldSyntax.meaning?_congr hf, ih hrest]
  | nested type inner rest ihi ihr =>
    obtain ⟨hinner, hrest⟩ := List.forall_mem_append.mp h
    rw [meaning?, meaning?, ihi hinner, ihr hrest]

theorem known_of_meaning? {body : BodySyntax} {m : List (String × SceneValue) × List TypedBlock}
    (h : body.meaning? vars = some m) (hname : name ∈ body.uses) :
    (vars.get? name).isSome = true := by
  induction body generalizing m with
  | done => cases hname
  | field f rest ih =>
    obtain ⟨e, he, h⟩ := Option.bind_eq_some_iff.mp h
    obtain ⟨m', hm, -⟩ := Option.bind_eq_some_iff.mp h
    rcases List.mem_append.mp hname with hf | hrest
    · exact FieldSyntax.known_of_meaning? he hf
    · exact ih hm hrest
  | nested type inner rest ihi ihr =>
    obtain ⟨m', hm', h⟩ := Option.bind_eq_some_iff.mp h
    obtain ⟨m'', hm'', -⟩ := Option.bind_eq_some_iff.mp h
    rcases List.mem_append.mp hname with hinner | hrest
    · exact ihi hm' hinner
    · exact ihr hm'' hrest

end BodySyntax

namespace BlockSyntax

theorem optionalMeaning?_congr {block? : Option BlockSyntax}
    (h : ∀ name ∈ optionalUses block?, vars.get? name = vars'.get? name) :
    optionalMeaning? vars block? = optionalMeaning? vars' block? := by
  cases block? with
  | none => rfl
  | some b =>
    rw [optionalMeaning?, optionalMeaning?, meaning?, meaning?, BodySyntax.meaning?_congr h]

theorem known_of_optionalMeaning? {block? : Option BlockSyntax} {data : Option TypedBlock}
    (h : optionalMeaning? vars block? = some data) (hname : name ∈ optionalUses block?) :
    (vars.get? name).isSome = true := by
  cases block? with
  | none => cases hname
  | some b =>
    obtain ⟨block, hblock, -⟩ := Option.map_eq_some_iff.mp h
    obtain ⟨m, hm, -⟩ := Option.map_eq_some_iff.mp hblock
    exact BodySyntax.known_of_meaning? hm hname

end BlockSyntax

/-! ## Nodes -/

namespace NodeSyntax

theorem meaning?_congr {n : NodeSyntax} (h : ∀ name ∈ n.uses, vars.get? name = vars'.get? name) :
    n.meaning? vars = n.meaning? vars' := by
  obtain ⟨hfields, hblock⟩ := List.forall_mem_append.mp h
  rw [meaning?, meaning?, FieldSyntax.mapM_meaning?_congr hfields,
    BlockSyntax.optionalMeaning?_congr hblock]

theorem known_of_meaning? {n : NodeSyntax} {b : NodeBlock} (h : n.meaning? vars = some b)
    (hname : name ∈ n.uses) : (vars.get? name).isSome = true := by
  obtain ⟨es, data, hes, -, hdata, -⟩ := meaning?_eq_some_iff.mp h
  rcases List.mem_append.mp hname with hfields | hblock
  · exact FieldSyntax.known_of_mapM hes hfields
  · exact BlockSyntax.known_of_optionalMeaning? hdata hblock

end NodeSyntax

end NetSchema
