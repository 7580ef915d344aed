import NetSchema.Class.Members
import NetSchema.Proofs.Text

/-!
# Flattened members

The members of a class are looked for class after class along its bases, and in each class in the
order of declaration.  Of all declarations with the attribute that are met on this way, the first one
of each name counts.  A declaration without the attribute is not met, so it hides nothing.

* `FirstOfEach.concat`: what one more declaration changes;
* `addNew_firsts`, `addNew_map`: adding the members whose name is new keeps the first of each name;
* `any_is_iff`, `declaredType_eq`: which attributes count, and what is known of a type;
* `flatten_eq`: flattening adds all declarations in order;
* `annotatedMembers_firsts`: the members of a class are the first declarations of their names.
-/

namespace NetSchema

/-! ## The first of each name -/

/-- `firsts` are those of `all` that are the first of their name, in the order in which they stand
there.  The order is strict, so each name comes once. -/
structure FirstOfEach {α : Type} (name : α → String) (all firsts : List α) : Prop where
  names : ∀ n, n ∈ firsts.map name ↔ n ∈ all.map name
  first : ∀ a ∈ firsts, all.find? (fun b => name b == name a) = some a
  order : firsts.Pairwise fun a b =>
    all.findIdx (fun c => name c == name a) < all.findIdx (fun c => name c == name b)

namespace FirstOfEach

variable {α : Type} {name : α → String} {all firsts : List α} {a b : α}

theorem nil : FirstOfEach name [] [] :=
  ⟨fun _ => Iff.rfl, (fun _ ha => nomatch ha), .nil⟩

/-- Each name comes once. -/
theorem nodup (h : FirstOfEach name all firsts) : (firsts.map name).Nodup := by
  rw [List.Nodup, List.pairwise_map]
  refine h.order.imp ?_
  intro a b hlt heq
  rw [heq] at hlt
  exact Nat.lt_irrefl _ hlt

theorem findIdx_lt (h : FirstOfEach name all firsts) (ha : a ∈ firsts) :
    all.findIdx (fun c => name c == name a) < all.length := by
  obtain ⟨b, hb, heq⟩ := List.mem_map.mp ((h.names (name a)).mp (List.mem_map_of_mem ha))
  exact List.findIdx_lt_length_of_exists ⟨b, hb, by simp [heq]⟩

/-- Where the first of a name stands does not change behind it. -/
theorem findIdx_concat (h : FirstOfEach name all firsts) (ha : a ∈ firsts) (b : α) :
    (all ++ [b]).findIdx (fun c => name c == name a) =
      all.findIdx (fun c => name c == name a) := by
  rw [List.findIdx_append, if_pos (h.findIdx_lt ha)]

theorem find?_concat (h : FirstOfEach name all firsts) (ha : a ∈ firsts) (b : α) :
    (all ++ [b]).find? (fun c => name c == name a) = some a := by
  rw [List.find?_append, h.first a ha, Option.some_or]

theorem order_concat (h : FirstOfEach name all firsts) (b : α) :
    firsts.Pairwise fun a a' =>
      (all ++ [b]).findIdx (fun c => name c == name a) <
        (all ++ [b]).findIdx (fun c => name c == name a') := by
  refine h.order.imp_of_mem ?_
  intro a a' ha ha' hlt
  rwa [h.findIdx_concat ha, h.findIdx_concat ha']

/-- One more is the first of its name unless that name has come before. -/
theorem concat (h : FirstOfEach name all firsts) (b : α) :
    FirstOfEach name (all ++ [b])
      (if firsts.any (fun a => name a == name b) then firsts else firsts ++ [b]) := by
  have hany : firsts.any (fun a => name a == name b) = true ↔ name b ∈ all.map name := by
    rw [← h.names, List.any_eq_true, List.mem_map]
    simp only [beq_iff_eq]
  by_cases hb : name b ∈ all.map name
  · rw [if_pos (hany.mpr hb)]
    refine ⟨?_, fun a ha => h.find?_concat ha b, h.order_concat b⟩
    intro n
    rw [h.names, List.map_append, List.mem_append, List.map_singleton, List.mem_singleton]
    constructor
    · exact Or.inl
    · rintro (hn | rfl)
      · exact hn
      · exact hb
  · have hnew : ∀ a ∈ all, ¬ (name a == name b) = true := by
      intro a ha heq
      exact hb (List.mem_map.mpr ⟨a, ha, beq_iff_eq.mp heq⟩)
    rw [if_neg (mt hany.mp hb)]
    refine ⟨?_, ?_, ?_⟩
    · intro n
      rw [List.map_append, List.map_append, List.mem_append, List.mem_append, h.names]
    · intro a ha
      rcases List.mem_append.mp ha with ha | ha
      · exact h.find?_concat ha b
      · obtain rfl := List.mem_singleton.mp ha
        rw [List.find?_append, List.find?_eq_none.mpr hnew]
        simp
    · refine List.pairwise_append.mpr ⟨h.order_concat b, List.pairwise_singleton _ _, ?_⟩
      intro a ha b' hb'
      obtain rfl := List.mem_singleton.mp hb'
      have hlength : all.findIdx (fun c => name c == name b') = all.length :=
        List.findIdx_eq_length.mpr (by simpa using hnew)
      rw [h.findIdx_concat ha, List.findIdx_append, hlength, if_neg (Nat.lt_irrefl _)]
      exact Nat.lt_add_left _ (h.findIdx_lt ha)

end FirstOfEach

/-! ## Adding what is new -/

section AddNew

variable {α β : Type} {name : α → String} {all kept : List α}

theorem addNew_cons (name : α → String) (kept : List α) (a : α) (as : List α) :
    (addNew name kept (a :: as)).1 =
      (addNew name (if kept.any fun b => name b == name a then kept else kept ++ [a]) as).1 := by
  rw [addNew]
  split <;> rfl

theorem addNew_append (name : α → String) (kept as bs : List α) :
    (addNew name kept (as ++ bs)).1 = (addNew name (addNew name kept as).1 bs).1 := by
  induction as generalizing kept with
  | nil => rfl
  | cons a as ih => rw [List.cons_append, addNew_cons, addNew_cons, ih]

/-- Only the names decide what is new. -/
theorem addNew_map (name : β → String) (f : α → β) (kept as : List α) :
    (addNew name (kept.map f) (as.map f)).1 =
      (addNew (fun a => name (f a)) kept as).1.map f := by
  induction as generalizing kept with
  | nil => rfl
  | cons a as ih =>
    have hany : (kept.map f).any (fun b => name b == name (f a)) =
        kept.any fun b => name (f b) == name (f a) := List.any_map
    rw [List.map_cons, addNew_cons, addNew_cons, hany, ← ih]
    split
    · rfl
    · rw [List.map_append, List.map_singleton]

theorem addNew_firsts (h : FirstOfEach name all kept) (as : List α) :
    FirstOfEach name (all ++ as) (addNew name kept as).1 := by
  induction as generalizing all kept with
  | nil =>
    rw [List.append_nil]
    exact h
  | cons a as ih =>
    rw [addNew_cons, List.append_cons]
    exact ih (h.concat a)

end AddNew

/-! ## Declarations along the bases -/

/-- One of the attributes is called `attr`, maybe with `Attribute` at its end. -/
def Carries (attr : String) (attributes : List Attribute) : Prop :=
  ∃ a ∈ attributes, shortTypeName a.name = attr ∨ shortTypeName a.name = attr ++ "Attribute"

instance (attr : String) : DecidablePred (Carries attr) :=
  fun attributes => inferInstanceAs (Decidable (∃ a ∈ attributes, _))

theorem Attribute.is_iff {a : Attribute} {attr : String} :
    a.is attr = true ↔
      shortTypeName a.name = attr ∨ shortTypeName a.name = attr ++ "Attribute" := by
  simp [Attribute.is, Text.dropSuffix?_eq_some_iff]

theorem any_is_iff {attributes : List Attribute} {attr : String} :
    attributes.any (·.is attr) = true ↔ Carries attr attributes := by
  simp only [List.any_eq_true, Attribute.is_iff]
  rfl

section Declarations

variable {α : Type} (members : ClassDecl → List α) (attributes : α → List Attribute) (attr : String)

/-- What a class itself declares with the attribute, in order. -/
def ownDeclarations (owner : ClassDecl) : List (ClassDecl × α) :=
  ((members owner).filter fun m => Carries attr (attributes m)).map fun m => (owner, m)

theorem ownDeclarations_eq (owner : ClassDecl) :
    ownDeclarations members attributes attr owner =
      ((members owner).filter fun m => (attributes m).any (·.is attr)).map fun m => (owner, m) := by
  rw [ownDeclarations]
  congr 2
  funext m
  rw [Bool.eq_iff_iff, decide_eq_true_iff, any_is_iff]

/-- The declarations with the attribute class after class. -/
def declarations (owners : List ClassDecl) : List (ClassDecl × α) :=
  owners.flatMap (ownDeclarations members attributes attr)

theorem declarations_cons (owner : ClassDecl) (owners : List ClassDecl) :
    declarations members attributes attr (owner :: owners) =
      ownDeclarations members attributes attr owner ++
        declarations members attributes attr owners :=
  List.flatMap_cons

end Declarations

namespace ClassTable

variable (t : ClassTable)

/-- A type without blanks around it, and the kind of the class that it names. -/
def typeWithKind (type : String) : DeclaredType where
  name := Text.trim type
  kind := ((t.class? (Text.trim type)).map ClassDecl.kind).getD .unknown

theorem declaredType_eq (type : String) : t.declaredType type = t.typeWithKind type := rfl

/-- A property as a class that has or inherits it sees it. -/
def annotatedProperty (d : ClassDecl × PropertyDecl) : AnnotatedProperty where
  owner := d.1.name
  name := d.2.name
  type := t.typeWithKind d.2.type
  attributes := d.2.attributes

/-- A function as a class that has or inherits it sees it. -/
def annotatedFunction (d : ClassDecl × FunctionDecl) : AnnotatedFunction where
  owner := d.1.name
  name := d.2.name
  parameters := d.2.parameters.map fun p => ⟨p.name, t.typeWithKind p.type⟩
  attributes := d.2.attributes

variable (attr : String) (owner : ClassDecl)

theorem ownProperties_eq : t.ownProperties attr owner =
    (ownDeclarations ClassDecl.properties PropertyDecl.attributes attr owner).map
      t.annotatedProperty := by
  rw [ownDeclarations_eq, List.map_map, ownProperties]
  simp only [declaredType_eq]
  rfl

theorem ownFunctions_eq : t.ownFunctions attr owner =
    (ownDeclarations ClassDecl.functions FunctionDecl.attributes attr owner).map
      t.annotatedFunction := by
  rw [ownDeclarations_eq, List.map_map, ownFunctions]
  simp only [declaredType_eq]
  rfl

/-- Flattening adds all declarations in order. -/
theorem flatten_eq (propertyAttribute functionAttribute : String) (members : AnnotatedMembers)
    (owners : List ClassDecl) :
    (t.flatten propertyAttribute functionAttribute members owners).1 =
      { properties := (addNew AnnotatedProperty.name members.properties
          ((declarations ClassDecl.properties PropertyDecl.attributes propertyAttribute owners).map
            t.annotatedProperty)).1
        functions := (addNew AnnotatedFunction.name members.functions
          ((declarations ClassDecl.functions FunctionDecl.attributes functionAttribute owners).map
            t.annotatedFunction)).1 } := by
  induction owners generalizing members with
  | nil => rfl
  | cons owner owners ih =>
    rw [flatten]
    dsimp only
    rw [ih, declarations_cons, declarations_cons, List.map_append, List.map_append, addNew_append,
      addNew_append, ownProperties_eq, ownFunctions_eq]

/-- **Members by first declaration.**  Let the declarations with the attribute be read class after
class along the bases, the class itself first, and in each class in order.  The members of a class
are the first declarations of their names, for properties and for functions apart, in the order in
which they stand there, each with its class, its types with the kinds that the table knows, and its
attributes. -/
theorem annotatedMembers_firsts (name propertyAttribute functionAttribute : String) :
    ∃ properties functions,
      FirstOfEach (fun d => d.2.name)
        (declarations ClassDecl.properties PropertyDecl.attributes propertyAttribute
          ((t.ancestryNames name).filterMap t.class?)) properties ∧
      FirstOfEach (fun d => d.2.name)
        (declarations ClassDecl.functions FunctionDecl.attributes functionAttribute
          ((t.ancestryNames name).filterMap t.class?)) functions ∧
      t.annotatedMembers name propertyAttribute functionAttribute =
        ⟨properties.map t.annotatedProperty, functions.map t.annotatedFunction⟩ := by
  refine ⟨_, _, addNew_firsts .nil _, addNew_firsts .nil _, ?_⟩
  rw [annotatedMembers, ancestry, flatten_eq]
  congr 1
  · exact addNew_map AnnotatedProperty.name t.annotatedProperty [] _
  · exact addNew_map AnnotatedFunction.name t.annotatedFunction [] _

end ClassTable

end NetSchema
