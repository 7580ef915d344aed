import NetSchema.Proofs.Compile.Boundary
import NetSchema.Proofs.Compile.Roots

/-!
# What is told of a scene

A run tells of each scene once, at the scene that declares what is at fault, however often that
scene is instanced.

* `faults_of_nodeDiagnostics`: what is told of a node is what its members are at fault for;
* `exists_declares`: whatever a scene has collected is declared by a scene that instances lead to;
* `run_tells_exactly`: the diagnostics of a run about a scene are the faults of its own network
  nodes, and whatever is registered as nil is told of where it is declared.
-/

namespace NetSchema

/-! ## Places -/

/-- The node and the member that a diagnostic names. -/
def Diagnostic.place (d : Diagnostic) : Option String × Option String := (d.nodePath, d.member)

/-- The places that diagnostics of one kind name. -/
def placesOf (kind : DiagnosticKind) (ds : List Diagnostic) :
    List (Option String × Option String) :=
  (ds.filter fun d => d.kind = kind).map Diagnostic.place

/-- The places that the diagnostics of one kind about the scene at `path` name. -/
def Compiler.CompileOutput.about (out : Compiler.CompileOutput) (kind : DiagnosticKind)
    (path : String) : List (Option String × Option String) :=
  placesOf kind (out.diagnostics.filter fun d => d.scene = path)

theorem placesOf_append (kind : DiagnosticKind) (ds es : List Diagnostic) :
    placesOf kind (ds ++ es) = placesOf kind ds ++ placesOf kind es := by
  simp [placesOf]

theorem placesOf_flatMap {α : Type} (kind : DiagnosticKind) (f : α → List Diagnostic)
    (as : List α) : placesOf kind (as.flatMap f) = as.flatMap fun a => placesOf kind (f a) := by
  induction as with
  | nil => rfl
  | cons a as ih => rw [List.flatMap_cons, placesOf_append, ih, List.flatMap_cons]

theorem flatMap_ite {α β : Type} (p : α → Prop) [DecidablePred p] (f : α → β) (as : List α) :
    (as.flatMap fun a => if p a then [f a] else []) = (as.filter fun a => p a).map f := by
  induction as with
  | nil => rfl
  | cons a as ih =>
    rw [List.flatMap_cons, ih]
    by_cases h : p a <;> simp [h]

theorem flatMap_nothing {α β : Type} (as : List α) : (as.flatMap fun _ => ([] : List β)) = [] :=
  List.flatMap_eq_nil_iff.mpr fun _ _ => rfl

/-! ## Faults of a node -/

namespace Rules

/-- The wire type of a parameter. -/
def parameterWire (r : Rules) (p : AnnotatedParameter) : Wire :=
  (classify p.type none r.config.classifier).wire

/-- The place of an argument. -/
def argumentPlace (n : NetworkNode) (f : AnnotatedFunction) (p : AnnotatedParameter) :
    Option String × Option String :=
  (some n.path, some (f.name ++ "(" ++ p.name ++ ")"))

/-- The members of a network node that are at fault, by the kind of fault: properties and
arguments of a caller of wire type nil, properties that ask for a subtype that does not exist, and
functions that are to take the calling peer and have no parameters. -/
def faults (r : Rules) (kind : DiagnosticKind) (n : NetworkNode) :
    List (Option String × Option String) :=
  match kind with
  | .unrecognizedType =>
    (((r.propertiesOf n).filter fun p => (r.propertyWire p).type = .nil).map
        fun p => (some n.path, some p.name)) ++
      (r.functionsOf n).flatMap fun f =>
        ((callerParameters f).filter fun p => (r.parameterWire p).type = .nil).map
          (argumentPlace n f)
  | .invalidSubtype =>
    ((r.propertiesOf n).filter fun p => (subtypeOverride p.attributes).toOption.isNone).map
      fun p => (some n.path, some p.name)
  | .missingPeerParameter =>
    ((r.functionsOf n).filter fun f => withPeer f.attributes && f.parameters.isEmpty).map
      fun f => (some n.path, some f.name)
  | .notNetworkScene => []

/-- No declared type has the wire type nil by itself. -/
theorem type_of_inferWire? {d : DeclaredType} {config : ClassifierConfig} {w : Wire}
    (h : inferWire? d config = some w) : w.type ≠ .nil := by
  unfold inferWire? at h
  split at h
  · next e he =>
    cases h
    have hall : ∀ e ∈ scalarTypes, e.2.type ≠ .nil := by decide
    exact hall e (List.mem_of_find?_eq_some he)
  · split at h
    · next t ht =>
      cases h
      have hall : ∀ t ∈ valueTypes, t ≠ .nil := by decide
      exact hall t (List.mem_of_find?_eq_some ht)
    · repeat' split at h
      all_goals cases h
      all_goals simp [Wire.plain]

theorem recognized_iff (d : DeclaredType) (subtype : Option WireSubtype)
    (config : ClassifierConfig) :
    (classify d subtype config).recognized = true ↔
      (classify d subtype config).wire.type ≠ .nil := by
  unfold classify
  cases h : inferWire? d config with
  | none => simp [Wire.plain]
  | some w => simpa using type_of_inferWire? h

variable {r : Rules} {site : Site}

theorem placesOf_typeDiagnostics (kind : DiagnosticKind) (r : Rules) (site : Site) (member : String)
    (type : DeclaredType) (subtype : Option WireSubtype) :
    placesOf kind (r.typeDiagnostics site member type subtype) =
      if kind = .unrecognizedType ∧ (classify type subtype r.config.classifier).wire.type = .nil
      then [(some site.nodePath, some member)] else [] := by
  unfold typeDiagnostics
  by_cases h : (classify type subtype r.config.classifier).recognized = true
  · have hwire := (recognized_iff ..).mp h
    simp [h, hwire, placesOf]
  · have hwire := not_not.mp (mt (recognized_iff ..).mpr h)
    by_cases hkind : kind = .unrecognizedType
    · simp [h, hwire, hkind, placesOf, Diagnostic.atMember, Diagnostic.place]
    · simp [h, hkind, placesOf, Diagnostic.atMember, Ne.symm hkind]

theorem placesOf_subtypeDiagnostics (kind : DiagnosticKind) (site : Site) (p : AnnotatedProperty) :
    placesOf kind (subtypeDiagnostics site p) =
      if kind = .invalidSubtype ∧ (subtypeOverride p.attributes).toOption.isNone
      then [(some site.nodePath, some p.name)] else [] := by
  unfold subtypeDiagnostics
  cases subtypeOverride p.attributes with
  | ok subtype => simp [placesOf, Except.toOption]
  | error message =>
    by_cases hkind : kind = .invalidSubtype
    · simp [hkind, placesOf, Diagnostic.atMember, Diagnostic.place, Except.toOption]
    · simp [hkind, placesOf, Diagnostic.atMember, Ne.symm hkind]

theorem placesOf_peerDiagnostics (kind : DiagnosticKind) (site : Site) (f : AnnotatedFunction) :
    placesOf kind (peerDiagnostics site f) =
      if kind = .missingPeerParameter ∧ (withPeer f.attributes && f.parameters.isEmpty) = true
      then [(some site.nodePath, some f.name)] else [] := by
  unfold peerDiagnostics
  by_cases h : (withPeer f.attributes && f.parameters.isEmpty) = true
  · by_cases hkind : kind = .missingPeerParameter
    · simp [h, hkind, placesOf, Diagnostic.atMember, Diagnostic.place]
    · simp [h, hkind, placesOf, Diagnostic.atMember, Ne.symm hkind]
  · simp [h, placesOf]

/-- **Faults of a node.**  What is told of a node is what its members are at fault for. -/
theorem faults_of_nodeDiagnostics (r : Rules) (kind : DiagnosticKind) (scene : String)
    (n : NetworkNode) : placesOf kind (r.nodeDiagnostics scene n) = r.faults kind n := by
  unfold nodeDiagnostics
  rw [placesOf_append, placesOf_flatMap, placesOf_flatMap]
  simp only [propertyDiagnostics, functionDiagnostics, placesOf_append, placesOf_flatMap,
    placesOf_typeDiagnostics, placesOf_subtypeDiagnostics, placesOf_peerDiagnostics]
  cases kind with
  | unrecognizedType =>
    simp only [reduceCtorEq, false_and, if_false, true_and, List.nil_append, flatMap_ite]
    rfl
  | invalidSubtype =>
    simp only [reduceCtorEq, false_and, if_false, true_and, List.append_nil, flatMap_nothing,
      flatMap_ite, faults, Bool.decide_eq_true]
  | missingPeerParameter =>
    simp only [reduceCtorEq, false_and, if_false, true_and, List.append_nil, flatMap_nothing,
      flatMap_ite, List.nil_append, faults, Bool.decide_eq_true]
  | notNetworkScene => simp [faults]

end Rules

namespace Compiler

variable {c : Compiler} {roots : List String} {s s' : CompileState} {out : CompileOutput}
  {path q : String} {d : Descriptor}

/-! ## Faults of a scene -/

/-- The network nodes that a descriptor declares itself. -/
def ownNodes (c : Compiler) (d : Descriptor) : List NetworkNode :=
  d.nodes.filterMap fun n => (c.rules.networkClass? n).map fun cls => ⟨n.path, cls, n.isRoot⟩

theorem sceneDiagnostics_eq (hd : c.descriptor? path = some d) :
    c.sceneDiagnostics path = (c.ownNodes d).flatMap (c.rules.nodeDiagnostics path) := by
  rw [sceneDiagnostics_of_descriptor? hd, ownNodes]
  induction d.nodes with
  | nil => rfl
  | cons n ns ih =>
    rw [List.flatMap_cons, ih, nodeDiagnostics]
    cases hn : c.rules.networkClass? n with
    | none => simp [hn]
    | some cls => simp [hn]

theorem placesOf_sceneDiagnostics (kind : DiagnosticKind) (hd : c.descriptor? path = some d) :
    placesOf kind (c.sceneDiagnostics path) = (c.ownNodes d).flatMap (c.rules.faults kind) := by
  rw [sceneDiagnostics_eq hd, placesOf_flatMap]
  simp only [Rules.faults_of_nodeDiagnostics]

/-- Of all that is told of several scenes, what is about one of them is what is told of that one. -/
theorem filter_scene {paths : List String} (hnodup : paths.Nodup) (hq : q ∈ paths) :
    (paths.flatMap c.sceneDiagnostics).filter (fun d => d.scene = q) = c.sceneDiagnostics q := by
  induction paths with
  | nil => cases hq
  | cons path paths ih =>
    obtain ⟨hout, hnodup⟩ := List.nodup_cons.mp hnodup
    rw [List.flatMap_cons, List.filter_append]
    rcases List.mem_cons.mp hq with rfl | hq
    · have hself : ∀ d ∈ c.sceneDiagnostics q, d.scene = q :=
        fun d hd => (about_of_mem_sceneDiagnostics hd).2
      have hothers : ∀ d ∈ paths.flatMap c.sceneDiagnostics, d.scene ≠ q := by
        intro d hd
        obtain ⟨path, hpath, hd⟩ := List.mem_flatMap.mp hd
        rw [(about_of_mem_sceneDiagnostics hd).2]
        exact fun h => hout (h ▸ hpath)
      rw [List.filter_eq_self.mpr (by simpa using hself),
        List.filter_eq_nil_iff.mpr (by simpa using hothers), List.append_nil]
    · have hself : ∀ d ∈ c.sceneDiagnostics path, d.scene ≠ q := by
        intro d hd
        rw [(about_of_mem_sceneDiagnostics hd).2]
        exact fun h => hout (h ▸ hq)
      rw [List.filter_eq_nil_iff.mpr (by simpa using hself), ih hnodup hq, List.nil_append]

/-- **Each scene is told of once.**  The diagnostics of a kind about a scene are the faults of its
own nodes. -/
theorem about_perm (h : c.run roots s = (.ok out, s')) (hq : c.Reaches roots q)
    (hd : c.descriptor? q = some d) {kind : DiagnosticKind} (hkind : kind ≠ .notNetworkScene) :
    (out.about kind q).Perm ((c.ownNodes d).flatMap (c.rules.faults kind)) := by
  obtain ⟨hvisits, -, -⟩ := run_meets h
  have hmem : q ∈ s'.memo.paths := (hvisits.mem_iff q).mpr (reaches_iff.mp hq)
  have hnodup := hvisits.nodup List.nodup_nil
  -- complaints about roots are of another kind
  have hroots : placesOf kind ((c.rootDiagnostics roots).filter fun d => d.scene = q) = [] := by
    rw [placesOf, List.map_eq_nil_iff, List.filter_eq_nil_iff]
    intro d hd
    rw [kind_of_mem_rootDiagnostics (List.mem_filter.mp hd).1]
    simpa using Ne.symm hkind
  have htold := (((run_tells h).filter fun d => d.scene = q).filter fun d => d.kind = kind).map
    Diagnostic.place
  rw [List.filter_append, filter_scene hnodup hmem] at htold
  refine htold.trans (.of_eq ?_)
  show placesOf kind _ = _
  rw [placesOf_append, hroots, placesOf_sceneDiagnostics kind hd, List.nil_append]

/-! ## Where nodes are declared -/

/-- `Declares c path m q own`: what the scene at `path` sees as the node `m` is the node `own` of
the scene at `q`, which declares it. -/
inductive Declares (c : Compiler) : String → NetworkNode → String → NetworkNode → Prop
  | own {path d m} : c.descriptor? path = some d → m ∈ c.ownNodes d → Declares c path m path m
  | merged {path d n inst m q own} : c.descriptor? path = some d → n ∈ d.nodes →
      c.Follows n inst → Declares c inst m q own → Declares c path (m.below n.path) q own

theorem Declares.reaches {m own : NetworkNode} (h : c.Declares path m q own) :
    Relation.ReflTransGen c.Instances path q := by
  induction h with
  | own _ _ => exact .refl
  | merged hd hn hf _ ih => exact .head ⟨_, hd, _, hn, hf⟩ ih

theorem Declares.mem_own {m own : NetworkNode} (h : c.Declares path m q own) :
    ∃ d, c.descriptor? q = some d ∧ own ∈ c.ownNodes d := by
  induction h with
  | own hd hm => exact ⟨_, hd, hm⟩
  | merged _ _ _ _ ih => exact ih

/-- Only the path of a node depends on who sees it. -/
theorem Declares.same {m own : NetworkNode} (h : c.Declares path m q own) :
    m.cls = own.cls ∧ m.isRoot = own.isRoot := by
  induction h with
  | own _ _ => exact ⟨rfl, rfl⟩
  | merged _ _ _ _ ih => exact ih

theorem ExpandsTo.declares {nodes : List SceneNode} {ns : List NetworkNode}
    (h : c.ExpandsTo nodes ns) {path : String} {d : Descriptor}
    (hd : c.descriptor? path = some d) (hsub : nodes ⊆ d.nodes) :
    ∀ m ∈ ns, ∃ q own, c.Declares path m q own := by
  induction h generalizing path d with
  | nil => exact fun m hm => nomatch hm
  | @network n rest cls ns hcls _ ih =>
    rw [List.cons_subset] at hsub
    rw [List.forall_mem_cons]
    refine ⟨⟨path, _, .own hd (List.mem_filterMap.mpr ⟨n, hsub.1, ?_⟩)⟩, ih hd hsub.2⟩
    rw [hcls]
    rfl
  | bare _ _ _ ih => exact ih hd (List.cons_subset.mp hsub).2
  | boundary _ _ _ _ _ ih => exact ih hd (List.cons_subset.mp hsub).2
  | @merged n rest inst d' ms ns hcls hi hd' _ _ _ ihd ih =>
    rw [List.cons_subset] at hsub
    rw [List.forall_mem_append]
    refine ⟨?_, ih hd hsub.2⟩
    intro m hm
    obtain ⟨m', hm', rfl⟩ := List.mem_map.mp hm
    obtain ⟨q, own, hdeclares⟩ := ihd hd' (List.Subset.refl _) m' hm'
    exact ⟨q, own, .merged hd hsub.1 ⟨hcls, hi⟩ hdeclares⟩

/-- Whatever a scene has collected is declared somewhere. -/
theorem exists_declares {ns : List NetworkNode} (h : c.Expansion path ns) :
    ∀ m ∈ ns, ∃ q own, c.Declares path m q own := by
  obtain ⟨d, hd, hns⟩ := h
  exact hns.declares hd (List.Subset.refl _)

/-! ## Registered members -/

/-- What is registered for a scene belongs to the nodes of its expansion; there are none if it was
not met or is no network scene. -/
theorem exists_registered (h : c.run roots s = (.ok out, s')) (path : String) :
    ∃ ns, (ns ≠ [] → c.Reaches roots path ∧ c.Expansion path ns) ∧
      (out.registry.propertiesOf path).layout =
        Placement.layout c.rules.propertyPlacements 0 ns ∧
      (out.registry.functionsOf path).layout =
        Placement.layout c.rules.functionPlacements 0 ns := by
  obtain ⟨hvisits, hregisters, hregistry⟩ := run_meets h
  rw [hregistry]
  by_cases hpath : path ∈ s'.memo.paths ∧ c.IsNetworkScene path
  · obtain ⟨data, -, hdata, hrecords⟩ := hregisters.compiled path hpath.1
    obtain ⟨draft, ns, -, rfl, hns, hholds⟩ := hdata.held
    have hrecorded := (hrecords hpath.2).2
    refine ⟨ns, fun _ => ⟨reaches_iff.mpr ((hvisits.mem_iff path).mp hpath.1), hns⟩, ?_, ?_⟩
    · rw [hrecorded.propertiesOf, hholds.lists.properties]
    · rw [hrecorded.functionsOf, hholds.lists.functions]
  · have hrecorded := hregisters.unrecorded path hpath
    refine ⟨[], fun h => absurd rfl h, ?_, ?_⟩
    · rw [hrecorded.propertiesOf]
      rfl
    · rw [hrecorded.functionsOf]
      rfl

/-- The node at `nodePath` of the scene at `path` is declared by a scene about which the run tells
at `member` that its type cannot travel. -/
def TellsOf (c : Compiler) (out : CompileOutput) (path nodePath member : String) : Prop :=
  ∃ q m own, c.Declares path m q own ∧ m.path = nodePath ∧
    (some own.path, some member) ∈ out.about .unrecognizedType q

/-- Faults of a node are told of where the node is declared. -/
theorem tellsOf_of_fault (h : c.run roots s = (.ok out, s')) {ns : List NetworkNode}
    (hpath : c.Reaches roots path) (hns : c.Expansion path ns) {m : NetworkNode} (hm : m ∈ ns)
    {member : String}
    (hfault : ∀ own : NetworkNode, m.cls = own.cls ∧ m.isRoot = own.isRoot →
      (some own.path, some member) ∈ c.rules.faults .unrecognizedType own) :
    c.TellsOf out path m.path member := by
  obtain ⟨q, own, hdeclares⟩ := exists_declares hns m hm
  obtain ⟨d, hd, hown⟩ := hdeclares.mem_own
  obtain ⟨root, hroot, hreach⟩ := hpath
  have hq : c.Reaches roots q := ⟨root, hroot, hreach.trans hdeclares.reaches⟩
  refine ⟨q, m, own, hdeclares, rfl, ?_⟩
  rw [(about_perm h hq hd (by decide)).mem_iff]
  exact List.mem_flatMap.mpr ⟨own, hown, hfault own hdeclares.same⟩

theorem property_tells (h : c.run roots s = (.ok out, s')) {nodePath name : String}
    {p : PropertyEntry} (hp : out.registry.property? path nodePath name = some p)
    (hnil : p.wire.type = .nil) : c.TellsOf out path nodePath name := by
  obtain ⟨members, hmembers, hmember⟩ := Option.bind_eq_some_iff.mp hp
  rw [OrderedMap.get?_eq_some_iff] at hmembers hmember
  obtain ⟨ns, hns, hlayout, -⟩ := exists_registered h path
  obtain ⟨m, hm, x, hx, i, rfl, rfl, rfl⟩ :=
    Placement.exists_of_mem_entries hlayout hmembers hmember
  obtain ⟨a, ha, rfl⟩ := List.mem_map.mp hx
  obtain ⟨hreach, hexpansion⟩ := hns (List.ne_nil_of_mem hm)
  refine tellsOf_of_fault h hreach hexpansion hm ?_
  rintro own ⟨hcls, hroot⟩
  have hown : a ∈ c.rules.propertiesOf own := by
    rwa [Rules.propertiesOf, Rules.members, ← hcls, ← hroot]
  refine List.mem_append_left _ (List.mem_map.mpr ⟨a, List.mem_filter.mpr ⟨hown, ?_⟩, rfl⟩)
  exact decide_eq_true hnil

theorem argument_tells (h : c.run roots s = (.ok out, s')) {nodePath name : String}
    {f : FunctionEntry} (hf : out.registry.function? path nodePath name = some f) {w : Wire}
    (hw : w ∈ f.arguments) (hnil : w.type = .nil) :
    ∃ parameter, c.TellsOf out path nodePath (name ++ "(" ++ parameter ++ ")") := by
  obtain ⟨members, hmembers, hmember⟩ := Option.bind_eq_some_iff.mp hf
  rw [OrderedMap.get?_eq_some_iff] at hmembers hmember
  obtain ⟨ns, hns, -, hlayout⟩ := exists_registered h path
  obtain ⟨m, hm, x, hx, i, rfl, rfl, rfl⟩ :=
    Placement.exists_of_mem_entries hlayout hmembers hmember
  obtain ⟨a, ha, rfl⟩ := List.mem_map.mp hx
  have hsent : w ∈ (Rules.callerParameters a).map c.rules.parameterWire := hw
  obtain ⟨p, hp, rfl⟩ := List.mem_map.mp hsent
  obtain ⟨hreach, hexpansion⟩ := hns (List.ne_nil_of_mem hm)
  refine ⟨p.name, tellsOf_of_fault h hreach hexpansion hm ?_⟩
  rintro own ⟨hcls, -⟩
  have hown : a ∈ c.rules.functionsOf own := by
    rwa [Rules.functionsOf, Rules.members, ← hcls]
  refine List.mem_append_right _ (List.mem_flatMap.mpr ⟨a, hown, ?_⟩)
  refine List.mem_map.mpr ⟨p, List.mem_filter.mpr ⟨hp, ?_⟩, rfl⟩
  exact decide_eq_true hnil

/-- **Diagnostics are exact.**  About a descriptor that instances lead to from the roots, a run that
succeeds tells exactly the faults of the network nodes that the descriptor declares itself, each of
them once, however often it is instanced.  Every property and every argument that is registered as
nil is told of, at the scene that declares its node. -/
theorem run_tells_exactly (c : Compiler) (roots : List String) (s s' : CompileState)
    (out : CompileOutput) (h : c.run roots s = (.ok out, s')) :
    (∀ q, c.Reaches roots q → ∃ d, c.descriptor? q = some d ∧
      ∀ kind, kind ≠ .notNetworkScene →
        (out.about kind q).Perm ((c.ownNodes d).flatMap (c.rules.faults kind))) ∧
    (∀ path nodePath name p, out.registry.property? path nodePath name = some p →
      p.wire.type = .nil → c.TellsOf out path nodePath name) ∧
    (∀ path nodePath name f, out.registry.function? path nodePath name = some f →
      ∀ w ∈ f.arguments, w.type = .nil →
        ∃ parameter, c.TellsOf out path nodePath (name ++ "(" ++ parameter ++ ")")) := by
  refine ⟨?_, ?_, ?_⟩
  · intro q hq
    obtain ⟨d, hd⟩ := (compilable_of_run h).readable q hq
    exact ⟨d, hd, fun kind hkind => about_perm h hq hd hkind⟩
  · intro path nodePath name p hp hnil
    exact property_tells h hp hnil
  · intro path nodePath name f hf w hw hnil
    exact argument_tells h hf hw hnil

namespace Camp

theorem run_camp : ∃ out s', compiler.run ["camp"] {} = (.ok out, s') := by
  have hok : (compiler.compile "camp" {}).1 = .ok campDraft.data := compile_camp
  unfold run
  rw [show CompileState.reset {} = {} from rfl, compileRoots_cons]
  cases hres : compiler.compile "camp" {} with
  | mk r s =>
    rw [hres] at hok
    obtain rfl : r = .ok campDraft.data := hok
    exact ⟨_, _, rfl⟩

theorem camp_registered {out : CompileOutput} {s' : CompileState}
    (h : compiler.run ["camp"] {} = (.ok out, s')) :
    out.registry.propertiesOf "camp" = campDraft.data.properties ∧
      out.registry.functionsOf "camp" = campDraft.data.functions := by
  obtain ⟨hvisits, hregisters, hregistry⟩ := run_meets h
  have hcamp : compiler.Reaches ["camp"] "camp" := ⟨"camp", by simp, .refl⟩
  obtain ⟨data, -, hdata, hrecords⟩ :=
    hregisters.compiled "camp" ((hvisits.mem_iff _).mpr (reaches_iff.mp hcamp))
  have hsame := hdata.unique (compiled_of_ok compile_camp)
  have hnetwork : compiler.IsNetworkScene "camp" := ⟨camp, camp_read, by decide +kernel⟩
  have hparts := (hrecords hnetwork).2
  rw [hregistry, hparts.propertiesOf, hparts.functionsOf, hsame]
  exact ⟨rfl, rfl⟩

theorem mood_registered {out : CompileOutput} {s' : CompileState}
    (h : compiler.run ["camp"] {} = (.ok out, s')) :
    ∃ p, out.registry.property? "camp" "b/body" "mood" = some p ∧ p.wire.type = .nil := by
  have hmember : (campDraft.data.properties.member? "b/body" "mood").map (fun p => p.wire.type) =
      some .nil := by decide +kernel
  obtain ⟨p, hp, hnil⟩ := Option.map_eq_some_iff.mp hmember
  exact ⟨p, by rw [Registry.property?, (camp_registered h).1, hp], hnil⟩

theorem song_registered {out : CompileOutput} {s' : CompileState}
    (h : compiler.run ["camp"] {} = (.ok out, s')) :
    ∃ f, out.registry.function? "camp" "b/body" "sing" = some f ∧
      ∃ w ∈ f.arguments, w.type = .nil := by
  have hmember : (campDraft.data.functions.member? "b/body" "sing").map
      (fun f => f.arguments.map Wire.type) = some [.nil] := by decide +kernel
  obtain ⟨f, hf, htypes⟩ := Option.map_eq_some_iff.mp hmember
  have hnil : WireType.nil ∈ f.arguments.map Wire.type := by simp [htypes]
  exact ⟨f, by rw [Registry.function?, (camp_registered h).2, hf], List.mem_map.mp hnil⟩

/-- Both heroes have four faults of three kinds, but the hero is told of once. -/
theorem camp_tells_of_units : ∃ out s', compiler.run ["camp"] {} = (.ok out, s') ∧
    (out.about .unrecognizedType "hero").Perm
      [(some "body", some "mood"), (some "body", some "sing(song)")] ∧
    (out.about .invalidSubtype "hero").Perm [(some "body", some "grade")] ∧
    (out.about .missingPeerParameter "hero").Perm [(some "body", some "rest")] ∧
    (out.about .unrecognizedType "camp").Perm
      [(some ".", some "mood"), (some ".", some "sing(song)")] ∧
    compiler.TellsOf out "camp" "b/body" "mood" ∧
    ∃ parameter, compiler.TellsOf out "camp" "b/body" ("sing" ++ "(" ++ parameter ++ ")") := by
  obtain ⟨out, s', h⟩ := run_camp
  obtain ⟨hscenes, hproperties, hfunctions⟩ := run_tells_exactly compiler ["camp"] {} s' out h
  have hcamp : compiler.Reaches ["camp"] "camp" := ⟨"camp", by simp, .refl⟩
  have hhero : compiler.Reaches ["camp"] "hero" := by
    refine hcamp.step ⟨camp, camp_read, Arena.spot "a", by simp [camp], ?_, rfl⟩
    decide +kernel
  obtain ⟨d, hd, hheroPlaces⟩ := hscenes "hero" hhero
  obtain rfl := Option.some.inj (hero_read.symm.trans hd)
  obtain ⟨d, hd, hcampPlaces⟩ := hscenes "camp" hcamp
  obtain rfl := Option.some.inj (camp_read.symm.trans hd)
  refine ⟨out, s', h, ?_, ?_, ?_, ?_, ?_, ?_⟩
  · exact (hheroPlaces .unrecognizedType (by decide)).trans (.of_eq (by decide +kernel))
  · exact (hheroPlaces .invalidSubtype (by decide)).trans (.of_eq (by decide +kernel))
  · exact (hheroPlaces .missingPeerParameter (by decide)).trans (.of_eq (by decide +kernel))
  · exact (hcampPlaces .unrecognizedType (by decide)).trans (.of_eq (by decide +kernel))
  · obtain ⟨p, hp, hnil⟩ := mood_registered h
    exact hproperties "camp" "b/body" "mood" p hp hnil
  · obtain ⟨f, hf, w, hw, hnil⟩ := song_registered h
    exact hfunctions "camp" "b/body" "sing" f hf w hw hnil

end Camp

end Compiler

end NetSchema
