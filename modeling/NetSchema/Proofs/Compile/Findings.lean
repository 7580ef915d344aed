import NetSchema.Proofs.Compile.Merging

/-!
# What is told about members

The diagnostics about the members of a network node depend on where the node is declared and on its
class, and on nothing that has been collected before it.

* `propertyEntry_diagnostics`, `functionEntry_diagnostics`: what a member is faulted for;
* `addNode_diagnostics`: a node that is added is told about member by member;
* `addNode_scene`, `merge_scene`: a draft stays the draft of its scene.
-/

namespace NetSchema

/-! ## Diagnostics of an outcome -/

namespace Outcome

variable {α β : Type}

/-- The diagnostics among the findings. -/
def diagnostics (o : Outcome α) : List Diagnostic := o.findings.filterMap Finding.diagnostic?

@[simp] theorem diagnostics_notes (rs : List LogRecord) : (notes rs).diagnostics = [] := by
  induction rs with
  | nil => rfl
  | cons r rs ih => exact ih

@[simp] theorem diagnostics_diagnose (d : Diagnostic) : (diagnose d).diagnostics = [d] := rfl

@[simp] theorem diagnostics_ofExcept (r : Except SchemaError α) : (ofExcept r).diagnostics = [] :=
  rfl

@[simp] theorem diagnostics_pure (a : α) : (Pure.pure a : Outcome α).diagnostics = [] := rfl

theorem diagnostics_bind_ok {o : Outcome α} {a : α} (h : o.result = .ok a) (f : α → Outcome β) :
    (o >>= f).diagnostics = o.diagnostics ++ (f a).diagnostics := by
  obtain ⟨r, fs⟩ := o
  obtain rfl : r = .ok a := h
  exact List.filterMap_append ..

/-- Nothing is told after a step that can only fail. -/
theorem diagnostics_bind_ofExcept (r : Except SchemaError α) {f : α → Outcome β}
    (hf : ∀ a, (f a).diagnostics = []) : (ofExcept r >>= f).diagnostics = [] := by
  cases r with
  | ok a => exact hf a
  | error e => rfl

/-- A result comes from the results of both steps. -/
theorem ok_of_bind {o : Outcome α} {f : α → Outcome β} {b : β} (h : (o >>= f).result = .ok b) :
    ∃ a, o.result = .ok a ∧ (f a).result = .ok b := by
  rw [result_bind] at h
  cases ho : o.result with
  | ok a =>
    rw [ho] at h
    exact ⟨a, rfl, h⟩
  | error e =>
    rw [ho] at h
    cases h

end Outcome

/-! ## Members -/

namespace Rules

/-- What is told about a type that has no wire type. -/
def typeDiagnostics (r : Rules) (site : Site) (member : String) (type : DeclaredType)
    (subtype : Option WireSubtype) : List Diagnostic :=
  if (classify type subtype r.config.classifier).recognized then []
  else [.atMember .unrecognizedType site.scene site.nodePath member
    ("type `" ++ type.name ++ "` has no wire mapping, registered as Nil")]

/-- What is told about a subtype that does not exist. -/
def subtypeDiagnostics (site : Site) (p : AnnotatedProperty) : List Diagnostic :=
  match subtypeOverride p.attributes with
  | .ok _ => []
  | .error message => [.atMember .invalidSubtype site.scene site.nodePath p.name message]

/-- What is told about a function that is to take the calling peer and has no parameters. -/
def peerDiagnostics (site : Site) (f : AnnotatedFunction) : List Diagnostic :=
  if withPeer f.attributes && f.parameters.isEmpty then
    [.atMember .missingPeerParameter site.scene site.nodePath f.name
      "WithPeer is set but the function takes no peer parameter"]
  else []

def propertyDiagnostics (r : Rules) (site : Site) (p : AnnotatedProperty) : List Diagnostic :=
  subtypeDiagnostics site p ++ r.typeDiagnostics site p.name p.type (askedSubtype p)

def functionDiagnostics (r : Rules) (site : Site) (f : AnnotatedFunction) : List Diagnostic :=
  peerDiagnostics site f ++ (callerParameters f).flatMap fun p =>
    r.typeDiagnostics site (f.name ++ "(" ++ p.name ++ ")") p.type none

/-- What is told about the members of a network node of `scene`. -/
def nodeDiagnostics (r : Rules) (scene : String) (n : NetworkNode) : List Diagnostic :=
  (r.propertiesOf n).flatMap (r.propertyDiagnostics ⟨scene, n.path⟩) ++
    (r.functionsOf n).flatMap (r.functionDiagnostics ⟨scene, n.path⟩)

theorem memberWire_diagnostics (r : Rules) (site : Site) (member : String) (type : DeclaredType)
    (subtype : Option WireSubtype) :
    (r.memberWire site member type subtype).diagnostics =
      r.typeDiagnostics site member type subtype := by
  unfold memberWire typeDiagnostics
  rw [Outcome.diagnostics_bind_ok (Outcome.result_notes _), Outcome.diagnostics_notes]
  cases (classify type subtype r.config.classifier).recognized <;> rfl

theorem requestedSubtype_diagnostics (site : Site) (p : AnnotatedProperty) :
    (requestedSubtype site p).diagnostics = subtypeDiagnostics site p := by
  unfold requestedSubtype subtypeDiagnostics
  cases subtypeOverride p.attributes <;> rfl

theorem propertyEntry_diagnostics (r : Rules) (site : Site) (p : AnnotatedProperty)
    (n : Numbering) :
    (r.propertyEntry site p n).diagnostics = r.propertyDiagnostics site p := by
  unfold propertyEntry
  rw [Outcome.diagnostics_bind_ok (requestedSubtype_result site p),
    Outcome.diagnostics_bind_ok (memberWire_result ..),
    Outcome.diagnostics_bind_ok (Outcome.result_notes _), Outcome.diagnostics_notes,
    requestedSubtype_diagnostics, memberWire_diagnostics, Outcome.diagnostics_bind_ofExcept]
  · simp [propertyDiagnostics]
  · rintro ⟨index, numbering⟩
    rw [Outcome.diagnostics_bind_ok (Outcome.result_notes _), Outcome.diagnostics_notes]
    rfl

theorem parameterWires_diagnostics (r : Rules) (site : Site) (function : String)
    (ps : List AnnotatedParameter) :
    (r.parameterWires site function ps).diagnostics = ps.flatMap fun p =>
      r.typeDiagnostics site (function ++ "(" ++ p.name ++ ")") p.type none := by
  induction ps with
  | nil => rfl
  | cons p ps ih =>
    rw [parameterWires, Outcome.diagnostics_bind_ok (memberWire_result ..),
      Outcome.diagnostics_bind_ok (parameterWires_result ..), memberWire_diagnostics, ih]
    simp

theorem functionEntry_diagnostics (r : Rules) (site : Site) (f : AnnotatedFunction)
    (n : Numbering) :
    (r.functionEntry site f n).diagnostics = r.functionDiagnostics site f := by
  unfold functionEntry
  rw [Outcome.diagnostics_bind_ok (Outcome.result_notes _), Outcome.diagnostics_notes]
  have hfound : ∀ o : Outcome (FunctionEntry × Numbering),
      (if (withPeer f.attributes && f.parameters.isEmpty) = true then
        Outcome.diagnose (.atMember .missingPeerParameter site.scene site.nodePath f.name
          "WithPeer is set but the function takes no peer parameter") >>= fun _ => o
      else o).diagnostics = peerDiagnostics site f ++ o.diagnostics := by
    intro o
    unfold peerDiagnostics
    split <;> rfl
  dsimp only
  rw [hfound, sentParameters_eq, Outcome.diagnostics_bind_ok (parameterWires_result ..),
    parameterWires_diagnostics, Outcome.diagnostics_bind_ofExcept]
  · simp [functionDiagnostics]
  · rintro ⟨index, numbering⟩
    rfl

/-- All that is told about members names their scene, and none of it is about a root. -/
theorem about_of_mem_nodeDiagnostics {r : Rules} {scene : String} {n : NetworkNode}
    {d : Diagnostic} (h : d ∈ r.nodeDiagnostics scene n) :
    d.kind ≠ .notNetworkScene ∧ d.scene = scene := by
  have htype : ∀ {nodePath member type subtype},
      d ∈ r.typeDiagnostics ⟨scene, nodePath⟩ member type subtype →
        d.kind ≠ .notNetworkScene ∧ d.scene = scene := by
    intro nodePath member type subtype h
    unfold typeDiagnostics at h
    split at h
    · cases h
    · simp [List.mem_singleton.mp h, Diagnostic.atMember]
  unfold nodeDiagnostics at h
  simp only [List.mem_append, List.mem_flatMap, propertyDiagnostics, functionDiagnostics] at h
  rcases h with ⟨p, -, hsub | htyp⟩ | ⟨f, -, hpeer | ⟨p, -, htyp⟩⟩
  · unfold subtypeDiagnostics at hsub
    split at hsub
    · cases hsub
    · simp [List.mem_singleton.mp hsub, Diagnostic.atMember]
  · exact htype htyp
  · unfold peerDiagnostics at hpeer
    split at hpeer
    · simp [List.mem_singleton.mp hpeer, Diagnostic.atMember]
    · cases hpeer
  · exact htype htyp

end Rules

/-! ## Nodes -/

namespace Draft

variable {r : Rules} {site : Rules.Site} {d d' : Draft}

theorem addProperties_diagnostics {isRoot : Bool} {ps : List AnnotatedProperty}
    (h : (addProperties r site isRoot ps d).result = .ok d') :
    (addProperties r site isRoot ps d).diagnostics =
      (ps.filter fun p => ¬ (p.name = r.config.identityProperty ∧ ¬ isRoot = true)).flatMap
        (r.propertyDiagnostics site) := by
  induction ps generalizing d with
  | nil => rfl
  | cons p ps ih =>
    rw [addProperties] at h ⊢
    by_cases hp : p.name = r.config.identityProperty ∧ ¬ isRoot = true
    · rw [if_pos hp, Outcome.result_bind_ok (Outcome.result_notes _)] at h
      rw [if_pos hp, Outcome.diagnostics_bind_ok (Outcome.result_notes _),
        Outcome.diagnostics_notes, ih h, List.filter_cons_of_neg (by simpa using hp)]
      rfl
    · rw [if_neg hp] at h ⊢
      obtain ⟨x, hx, hrest⟩ := Outcome.ok_of_bind h
      rw [Outcome.diagnostics_bind_ok hx, Rules.propertyEntry_diagnostics, ih hrest,
        List.filter_cons_of_pos (by exact decide_eq_true hp), List.flatMap_cons]

theorem addFunctions_diagnostics {fs : List AnnotatedFunction}
    (h : (addFunctions r site fs d).result = .ok d') :
    (addFunctions r site fs d).diagnostics = fs.flatMap (r.functionDiagnostics site) := by
  induction fs generalizing d with
  | nil => rfl
  | cons f fs ih =>
    rw [addFunctions] at h ⊢
    obtain ⟨x, hx, hrest⟩ := Outcome.ok_of_bind h
    rw [Outcome.diagnostics_bind_ok hx, Rules.functionEntry_diagnostics, ih hrest,
      List.flatMap_cons]

/-- **Diagnostics of a node.** -/
theorem addNode_diagnostics {n : SceneNode} {cls : String}
    (h : (d.addNode r n cls).result = .ok d') :
    (d.addNode r n cls).diagnostics =
      r.nodeDiagnostics d.numbering.scene ⟨n.path, cls, n.isRoot⟩ := by
  have hnotes : ∀ (b : Bool) (rs : List LogRecord) (o : Outcome Draft),
      (if b = true then Outcome.notes rs >>= fun _ => o else o).result = o.result ∧
        (if b = true then Outcome.notes rs >>= fun _ => o else o).diagnostics = o.diagnostics := by
    intro b rs o
    cases b with
    | false => exact ⟨rfl, rfl⟩
    | true =>
      refine ⟨rfl, ?_⟩
      rw [if_pos rfl, Outcome.diagnostics_bind_ok (Outcome.result_notes _),
        Outcome.diagnostics_notes, List.nil_append]
  rw [addNode] at h ⊢
  obtain ⟨d₁, hstatic, hrest⟩ := Outcome.ok_of_bind h
  obtain ⟨-, -, hmembers⟩ := Outcome.ok_of_bind hrest
  obtain ⟨d₂, hproperties, hfunctions⟩ :=
    Outcome.ok_of_bind ((hnotes _ _ _).1.symm.trans hmembers)
  rw [Outcome.diagnostics_bind_ok hstatic, Outcome.diagnostics_ofExcept,
    Outcome.diagnostics_bind_ok (Outcome.result_notes _), Outcome.diagnostics_notes]
  refine (hnotes _ _ _).2.trans ?_
  rw [Outcome.diagnostics_bind_ok hproperties, addProperties_diagnostics hproperties,
    addFunctions_diagnostics hfunctions]
  rfl

/-! ## The scene of a draft -/

/-- If there is a further draft, then it is of the same scene. -/
def KeepsScene (d : Draft) : Except SchemaError Draft → Prop :=
  Ends (fun d' => d'.numbering.scene = d.numbering.scene) fun _ => True

theorem KeepsScene.bind {x : Except SchemaError Draft} {f : Draft → Except SchemaError Draft}
    (hx : d.KeepsScene x) (hf : ∀ d₁ : Draft, d₁.KeepsScene (f d₁)) : d.KeepsScene (x >>= f) :=
  Ends.bind hx fun d₁ h => (hf d₁).imp (fun _ h' => h'.trans h) fun _ _ => trivial

theorem addStaticNode_scene (d : Draft) (path : String) : d.KeepsScene (d.addStaticNode path) := by
  unfold addStaticNode
  rw [Numbering.nextStaticNode_eq]
  split
  · trivial
  · split
    · exact rfl
    · trivial

theorem addStaticNodes_scene (paths : List String) (d : Draft) :
    d.KeepsScene (addStaticNodes paths d) := by
  induction paths generalizing d with
  | nil => exact rfl
  | cons path paths ih => exact (addStaticNode_scene d path).bind ih

theorem fillProperties_scene (xs : List (Placement PropertyEntry)) (d : Draft) :
    d.KeepsScene (fillProperties xs d) := by
  unfold fillProperties
  cases Placement.fill .property (.propertyCapacity d.numbering.scene) xs d.data.properties
    d.numbering.properties with
  | ok x => exact rfl
  | error e => trivial

theorem fillFunctions_scene (xs : List (Placement FunctionEntry)) (d : Draft) :
    d.KeepsScene (fillFunctions xs d) := by
  unfold fillFunctions
  cases Placement.fill .function (.functionCapacity d.numbering.scene) xs d.data.functions
    d.numbering.functions with
  | ok x => exact rfl
  | error e => trivial

theorem addNode_scene (r : Rules) (n : SceneNode) (cls : String) (d : Draft) :
    d.KeepsScene (d.addNode r n cls).result := by
  rw [addNode_result]
  exact (addStaticNodes_scene _ d).bind fun d₁ =>
    (fillProperties_scene _ d₁).bind fun d₂ => fillFunctions_scene _ d₂

theorem merge_scene (outer : String) (child : SceneData) (d : Draft) :
    d.KeepsScene (d.merge outer child) := by
  rw [merge, mergeStaticNodes_eq]
  simp only [mergeProperties_eq, mergeFunctions_eq]
  exact (addStaticNodes_scene _ d).bind fun d₁ =>
    (fillProperties_scene _ d₁).bind fun d₂ => fillFunctions_scene _ d₂

end Draft

end NetSchema
