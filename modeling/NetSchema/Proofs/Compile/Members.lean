import Mathlib.Data.List.Nodup
import NetSchema.Compile.Draft
import NetSchema.Proofs.Class.Flattening
import NetSchema.Proofs.Compile.Filling

/-!
# Members of a node

What the members of a network node become, the findings on the way left aside.

* `propertyEntry_result`, `functionEntry_result`: a member becomes the entry that plain expansion
  gives it, under the next number;
* `addProperties_result`, `addFunctions_result`: adding the members of a node is filling;
* `annotatedMembers_nodup`: no two members of a class share a name.
-/

namespace NetSchema

/-! ## Results without findings -/

namespace Outcome

variable {α β : Type}

theorem result_bind (o : Outcome α) (f : α → Outcome β) :
    (o >>= f).result = o.result >>= fun a => (f a).result := by
  obtain ⟨r, fs⟩ := o
  cases r <;> rfl

@[simp] theorem result_notes (rs : List LogRecord) : (notes rs).result = .ok () := rfl

@[simp] theorem result_ofExcept (r : Except SchemaError α) : (ofExcept r).result = r := rfl

/-- A step that cannot fail passes its value on. -/
theorem result_bind_ok {o : Outcome α} {a : α} (h : o.result = .ok a) (f : α → Outcome β) :
    (o >>= f).result = (f a).result := by
  rw [result_bind, h]
  rfl

end Outcome

namespace Numbering

theorem nextProperty_eq (n : Numbering) (nodePath member : String) :
    n.nextProperty nodePath member =
      if n.properties < IdKind.property.limit then
        .ok (⟨UInt8.ofNat n.properties⟩, { n with properties := n.properties + 1 })
      else .error (.propertyCapacity n.scene nodePath member) := by
  unfold nextProperty ByteId.ofCount?
  split <;> simp_all

theorem nextFunction_eq (n : Numbering) (nodePath member : String) :
    n.nextFunction nodePath member =
      if n.functions < IdKind.function.limit then
        .ok (⟨UInt8.ofNat n.functions⟩, { n with functions := n.functions + 1 })
      else .error (.functionCapacity n.scene nodePath member) := by
  unfold nextFunction ByteId.ofCount?
  split <;> simp_all

theorem nextStaticNode_eq (n : Numbering) (nodePath : String) :
    n.nextStaticNode nodePath =
      if n.staticNodes < IdKind.staticNode.limit then
        .ok (⟨UInt8.ofNat n.staticNodes⟩, { n with staticNodes := n.staticNodes + 1 })
      else .error (.staticNodeCapacity n.scene nodePath) := by
  unfold nextStaticNode ByteId.ofCount?
  split <;> simp_all

end Numbering

/-! ## Entries -/

namespace Rules

theorem memberWire_result (r : Rules) (site : Site) (member : String) (type : DeclaredType)
    (subtype : Option WireSubtype) :
    (r.memberWire site member type subtype).result =
      .ok (classify type subtype r.config.classifier).wire := by
  unfold memberWire
  rw [Outcome.result_bind_ok (Outcome.result_notes _)]
  cases (classify type subtype r.config.classifier).recognized <;> rfl

theorem requestedSubtype_result (site : Site) (p : AnnotatedProperty) :
    (requestedSubtype site p).result = .ok (askedSubtype p) := by
  unfold requestedSubtype askedSubtype
  cases subtypeOverride p.attributes <;> rfl

theorem propertyEntry_result (r : Rules) (site : Site) (p : AnnotatedProperty) (n : Numbering) :
    (r.propertyEntry site p n).result =
      if n.properties < IdKind.property.limit then
        .ok (r.property p site.nodePath n.properties, { n with properties := n.properties + 1 })
      else .error (.propertyCapacity n.scene site.nodePath p.name) := by
  unfold propertyEntry
  rw [Outcome.result_bind_ok (requestedSubtype_result site p),
    Outcome.result_bind_ok (memberWire_result ..), Outcome.result_bind_ok (Outcome.result_notes _),
    Outcome.result_bind, Outcome.result_ofExcept, Numbering.nextProperty_eq]
  split <;> rfl

theorem parameterWires_result (r : Rules) (site : Site) (function : String)
    (ps : List AnnotatedParameter) :
    (r.parameterWires site function ps).result =
      .ok (ps.map fun p => (classify p.type none r.config.classifier).wire) := by
  induction ps with
  | nil => rfl
  | cons p ps ih =>
    rw [parameterWires, Outcome.result_bind_ok (memberWire_result ..), Outcome.result_bind_ok ih]
    rfl

theorem functionEntry_result (r : Rules) (site : Site) (f : AnnotatedFunction) (n : Numbering) :
    (r.functionEntry site f n).result =
      if n.functions < IdKind.function.limit then
        .ok (r.function f site.nodePath n.functions, { n with functions := n.functions + 1 })
      else .error (.functionCapacity n.scene site.nodePath f.name) := by
  unfold functionEntry
  rw [Outcome.result_bind_ok (Outcome.result_notes _)]
  have hfound : ∀ o : Outcome (FunctionEntry × Numbering),
      (if (withPeer f.attributes && f.parameters.isEmpty) = true then
        Outcome.diagnose (.atMember .missingPeerParameter site.scene site.nodePath f.name
          "WithPeer is set but the function takes no peer parameter") >>= fun _ => o
      else o).result = o.result := by
    intro o
    split <;> rfl
  dsimp only
  rw [hfound, sentParameters_eq, Outcome.result_bind_ok (parameterWires_result ..),
    Outcome.result_bind, Outcome.result_ofExcept, Numbering.nextFunction_eq]
  split <;> rfl

end Rules

/-! ## All members of a node -/

namespace Draft

variable {r : Rules} {site : Rules.Site}

/-- The draft with other properties, of which `k` have been numbered. -/
def withProperties (d : Draft) (m : NodeMembers PropertyEntry) (k : Nat) : Draft :=
  ⟨{ d.data with properties := m }, { d.numbering with properties := k }⟩

/-- The draft with other functions, of which `k` have been numbered. -/
def withFunctions (d : Draft) (m : NodeMembers FunctionEntry) (k : Nat) : Draft :=
  ⟨{ d.data with functions := m }, { d.numbering with functions := k }⟩

/-- Fills properties into a draft. -/
def fillProperties (xs : List (Placement PropertyEntry)) (d : Draft) : Except SchemaError Draft :=
  (Placement.fill .property (.propertyCapacity d.numbering.scene) xs d.data.properties
    d.numbering.properties).map fun x => d.withProperties x.1 x.2

/-- Fills functions into a draft. -/
def fillFunctions (xs : List (Placement FunctionEntry)) (d : Draft) : Except SchemaError Draft :=
  (Placement.fill .function (.functionCapacity d.numbering.scene) xs d.data.functions
    d.numbering.functions).map fun x => d.withFunctions x.1 x.2

theorem fillProperties_cons (x : Placement PropertyEntry) (xs : List (Placement PropertyEntry))
    (d : Draft) :
    fillProperties (x :: xs) d =
      if d.numbering.properties < IdKind.property.limit then
        fillProperties xs (d.withProperties
          (d.data.properties.add x.nodePath x.name (x.entry d.numbering.properties))
          (d.numbering.properties + 1))
      else .error (.propertyCapacity d.numbering.scene x.nodePath x.name) := by
  rw [fillProperties, Placement.fill]
  split <;> rfl

theorem fillFunctions_cons (x : Placement FunctionEntry) (xs : List (Placement FunctionEntry))
    (d : Draft) :
    fillFunctions (x :: xs) d =
      if d.numbering.functions < IdKind.function.limit then
        fillFunctions xs (d.withFunctions
          (d.data.functions.add x.nodePath x.name (x.entry d.numbering.functions))
          (d.numbering.functions + 1))
      else .error (.functionCapacity d.numbering.scene x.nodePath x.name) := by
  rw [fillFunctions, Placement.fill]
  split <;> rfl

theorem addProperties_result (isRoot : Bool) (ps : List AnnotatedProperty) (d : Draft) :
    (addProperties r site isRoot ps d).result =
      fillProperties ((ps.filter fun p =>
        ¬ (p.name = r.config.identityProperty ∧ ¬ isRoot = true)).map fun p =>
          ⟨site.nodePath, p.name, r.property p site.nodePath⟩) d := by
  induction ps generalizing d with
  | nil => rfl
  | cons p ps ih =>
    rw [addProperties]
    by_cases hp : p.name = r.config.identityProperty ∧ ¬ isRoot = true
    · rw [if_pos hp, Outcome.result_bind_ok (Outcome.result_notes _), ih,
        List.filter_cons_of_neg (by simpa using hp)]
    · rw [if_neg hp, List.filter_cons_of_pos (by exact decide_eq_true hp), List.map_cons,
        fillProperties_cons, Outcome.result_bind, Rules.propertyEntry_result]
      by_cases hk : d.numbering.properties < IdKind.property.limit
      · rw [if_pos hk, if_pos hk]
        exact ih _
      · rw [if_neg hk, if_neg hk]
        rfl

theorem addFunctions_result (fs : List AnnotatedFunction) (d : Draft) :
    (addFunctions r site fs d).result =
      fillFunctions (fs.map fun f => ⟨site.nodePath, f.name, r.function f site.nodePath⟩) d := by
  induction fs generalizing d with
  | nil => rfl
  | cons f fs ih =>
    rw [addFunctions, List.map_cons, fillFunctions_cons, Outcome.result_bind,
      Rules.functionEntry_result]
    by_cases hk : d.numbering.functions < IdKind.function.limit
    · rw [if_pos hk, if_pos hk]
      exact ih _
    · rw [if_neg hk, if_neg hk]
      rfl

end Draft

/-! ## Names of members -/

theorem annotatedMembers_nodup (t : ClassTable)
    (name propertyAttribute functionAttribute : String) :
    ((t.annotatedMembers name propertyAttribute functionAttribute).properties.map
        AnnotatedProperty.name).Nodup ∧
      ((t.annotatedMembers name propertyAttribute functionAttribute).functions.map
        AnnotatedFunction.name).Nodup := by
  rw [ClassTable.annotatedMembers, ClassTable.flatten_eq]
  exact ⟨(addNew_firsts .nil _).nodup, (addNew_firsts .nil _).nodup⟩

namespace Rules

theorem propertyPlacements_proper (r : Rules) : Placement.Proper r.propertyPlacements where
  nodePath := by
    intro n x hx
    obtain ⟨p, -, rfl⟩ := List.mem_map.mp hx
    rfl
  names := by
    intro n
    rw [propertyPlacements, List.map_map]
    exact (annotatedMembers_nodup ..).1.sublist (List.filter_sublist.map AnnotatedProperty.name)

theorem functionPlacements_proper (r : Rules) : Placement.Proper r.functionPlacements where
  nodePath := by
    intro n x hx
    obtain ⟨f, -, rfl⟩ := List.mem_map.mp hx
    rfl
  names := by
    intro n
    rw [functionPlacements, List.map_map]
    exact (annotatedMembers_nodup ..).2

end Rules

end NetSchema
