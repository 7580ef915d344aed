import NetSchema.Proofs.Compile.Findings
import NetSchema.Proofs.Compile.Order

/-!
# Roots in any order

The order in which descriptors are met depends on the order of the roots, and the numbers of the
scenes with it.  Nothing else does: what a scene comes to and what is told about its members depend
on its descriptor and on what that instances.

* `Traverses.tells`: a task tells about each node once, when its scene is met;
* `run_tells`: what a run tells of the scenes that it meets and of its roots;
* `run_of_same_roots`: runs with the same roots, in any order and repeated or not, succeed together
  and come to the same schema up to the numbers of its scenes.
-/

namespace NetSchema

theorem CompileState.diagnostics_of_number {s s' : CompileState} {path : String} {b : Bool}
    {r : Except SchemaError (Option SceneId)} (h : s.number path b = (r, s')) :
    s'.diagnostics = s.diagnostics := by
  unfold number at h
  split at h
  · split at h
    · cases h
      rfl
    · cases h
      rfl
  · cases h
    rfl

namespace Compiler

variable {c : Compiler} {s s₁ s' t : CompileState} {roots roots' : List String}

open CompileState

/-! ## What is told of a scene -/

/-- What is told of a node of the descriptor at `path`. -/
def nodeDiagnostics (c : Compiler) (path : String) (n : SceneNode) : List Diagnostic :=
  match c.rules.networkClass? n with
  | some cls => c.rules.nodeDiagnostics path ⟨n.path, cls, n.isRoot⟩
  | none => []

/-- What is told of the scene at `path`, those that it instances aside. -/
def sceneDiagnostics (c : Compiler) (path : String) : List Diagnostic :=
  match c.descriptor? path with
  | some d => d.nodes.flatMap (c.nodeDiagnostics path)
  | none => []

/-- The complaints about roots that are no network scenes. -/
def rootDiagnostics (c : Compiler) (roots : List String) : List Diagnostic :=
  (roots.filter fun root => !c.networkAt root).map c.notNetworkScene

theorem nodeDiagnostics_of_not_network {path : String} {n : SceneNode}
    (hn : c.rules.networkClass? n = none) : c.nodeDiagnostics path n = [] := by
  rw [nodeDiagnostics, hn]

theorem sceneDiagnostics_of_descriptor? {path : String} {d : Descriptor}
    (hd : c.descriptor? path = some d) :
    c.sceneDiagnostics path = d.nodes.flatMap (c.nodeDiagnostics path) := by
  rw [sceneDiagnostics, hd]

theorem about_of_mem_sceneDiagnostics {path : String} {d : Diagnostic}
    (h : d ∈ c.sceneDiagnostics path) : d.kind ≠ .notNetworkScene ∧ d.scene = path := by
  unfold sceneDiagnostics at h
  split at h
  · obtain ⟨n, -, hd⟩ := List.mem_flatMap.mp h
    unfold nodeDiagnostics at hd
    split at hd
    · exact Rules.about_of_mem_nodeDiagnostics hd
    · cases hd
  · cases h

theorem kind_of_mem_rootDiagnostics {d : Diagnostic} (h : d ∈ c.rootDiagnostics roots) :
    d.kind = .notNetworkScene := by
  obtain ⟨root, -, rfl⟩ := List.mem_map.mp h
  rfl

/-! ## What tasks tell -/

/-- Between the states further scenes are met.  Beside `own`, exactly what there is to be told of
them is told. -/
def Tells (c : Compiler) (own : List Diagnostic) (s s' : CompileState) : Prop :=
  ∃ met, s'.memo.paths = s.memo.paths ++ met ∧
    s'.diagnostics.Perm (s.diagnostics ++ (own ++ met.flatMap c.sceneDiagnostics))

theorem tells_own {own : List Diagnostic} (hpaths : s'.memo.paths = s.memo.paths)
    (hdiagnostics : s'.diagnostics = s.diagnostics ++ own) : c.Tells own s s' := by
  refine ⟨[], ?_, ?_⟩
  · rw [hpaths, List.append_nil]
  · rw [hdiagnostics, List.flatMap_nil, List.append_nil]

theorem tells_nothing (hpaths : s'.memo.paths = s.memo.paths)
    (hdiagnostics : s'.diagnostics = s.diagnostics) : c.Tells [] s s' :=
  tells_own hpaths (by rw [hdiagnostics, List.append_nil])

theorem Tells.trans {own own' : List Diagnostic} (h : c.Tells own s s₁)
    (h' : c.Tells own' s₁ s') : c.Tells (own ++ own') s s' := by
  obtain ⟨met, hpaths, htold⟩ := h
  obtain ⟨met', hpaths', htold'⟩ := h'
  refine ⟨met ++ met', ?_, ?_⟩
  · rw [hpaths', hpaths, List.append_assoc]
  · refine htold'.trans ((htold.append_right _).trans ?_)
    simp only [List.flatMap_append, List.append_assoc]
    exact ((List.perm_append_comm_assoc ..).append_left own).append_left s.diagnostics

/-- What is told of the nodes that a task has to add. -/
def Task.diagnostics (c : Compiler) : Task → List Diagnostic
  | .enter .. => []
  | .node _ path n _ => c.nodeDiagnostics path n
  | .walk _ path nodes _ => nodes.flatMap (c.nodeDiagnostics path)

/-- The draft of the task is that of its scene. -/
def Task.InScene : Task → Prop
  | .enter .. => True
  | .node _ path _ draft => draft.numbering.scene = path
  | .walk _ path _ draft => draft.numbering.scene = path

theorem Traverses.keepsScene {stack : List String} {path : String} {n : SceneNode} {draft : Draft}
    {r : Except SchemaError Draft} (h : c.Traverses (.node stack path n draft) s r s') :
    draft.KeepsScene r := by
  cases h with
  | network _ => exact Draft.addNode_scene ..
  | bare _ _ => exact rfl
  | instanceFails _ _ _ => trivial
  | boundary _ _ _ _ => exact rfl
  | merged _ _ _ _ => exact Draft.merge_scene ..

/-- **A task tells of each node once.**  Those are its own nodes and the nodes of the scenes that it
meets. -/
theorem Traverses.tells {task : Task} {r : Except SchemaError task.Value}
    (h : c.Traverses task s r s') (hr : ∀ e, r ≠ .error e) (hscene : task.InScene) :
    c.Tells (task.diagnostics c) s s' := by
  induction h with
  | known _ => exact tells_nothing rfl rfl
  | cyclic _ => exact absurd rfl (hr _)
  | missing _ _ => exact absurd rfl (hr _)
  | unreadable _ _ _ => exact absurd rfl (hr _)
  | unnumbered _ _ _ => exact absurd rfl (hr _)
  | failed _ _ _ _ _ => exact absurd rfl (hr _)
  | @finished _ _ path s d _ draft s₁ s₂ hn hd hi _ ih =>
    -- the scene itself is the first one met
    obtain ⟨met, hpaths, htold⟩ := ih (fun _ h => nomatch h) rfl
    rw [paths_of_opened hn hi] at hpaths
    rw [diagnostics_of_number hi] at htold
    refine ⟨path :: met, ?_, ?_⟩
    · have hmem : path ∈ s₂.memo.paths := by simp [hpaths]
      exact (Memo.paths_finish hmem draft.data).trans (by simp [hpaths])
    · rw [Task.diagnostics, List.flatMap_cons, sceneDiagnostics_of_descriptor? hd]
      exact htold
  | @network _ path n draft s cls hn =>
    cases hnode : (draft.addNode c.rules n cls).result with
    | error e => exact absurd hnode (hr e)
    | ok draft' =>
      have hdraft : draft.numbering.scene = path := hscene
      have htold : (draft.addNode c.rules n cls).diagnostics = c.nodeDiagnostics path n := by
        rw [Draft.addNode_diagnostics hnode, nodeDiagnostics, hn, hdraft]
      refine tells_own rfl ?_
      rw [Task.diagnostics, ← htold]
      rfl
  | bare hn _ =>
    rw [Task.diagnostics, nodeDiagnostics_of_not_network hn]
    exact tells_nothing rfl rfl
  | instanceFails _ _ _ _ => exact absurd rfl (hr _)
  | boundary hn _ _ _ ih =>
    rw [Task.diagnostics, nodeDiagnostics_of_not_network hn]
    exact ih (fun _ h => nomatch h) trivial
  | merged hn _ _ _ ih =>
    rw [Task.diagnostics, nodeDiagnostics_of_not_network hn]
    exact ih (fun _ h => nomatch h) trivial
  | done => exact tells_nothing rfl rfl
  | stops _ _ => exact absurd rfl (hr _)
  | next hn _ ihn ihw =>
    exact (ihn (fun _ h => nomatch h) hscene).trans (ihw hr (hn.keepsScene.trans hscene))

/-! ## What runs tell -/

theorem rootDiagnostics_cons (root : String) (roots : List String) :
    c.rootDiagnostics (root :: roots) = c.rootDiagnostics [root] ++ c.rootDiagnostics roots := by
  rw [rootDiagnostics, rootDiagnostics, rootDiagnostics, ← List.map_append, ← List.filter_append,
    List.singleton_append]

theorem rooted_tells {root : String} {d : SceneData} (hd : c.Compiled root d) :
    c.Tells (c.rootDiagnostics [root]) s (c.rooted root d s) := by
  have hnet : d.isNetworkScene = c.networkAt root := by
    rw [Bool.eq_iff_iff, networkAt_iff]
    exact hd.network
  unfold rooted rootDiagnostics
  rw [hnet]
  cases hroot : c.networkAt root with
  | true =>
    simp only [List.filter_cons, hroot]
    exact tells_nothing rfl rfl
  | false =>
    simp only [List.filter_cons, hroot]
    exact tells_own rfl rfl

theorem compileRoots_tells (hs : c.Ready (fun _ => True) s)
    (h : c.compileRoots roots s = (.ok (), s')) : c.Tells (c.rootDiagnostics roots) s s' := by
  induction roots generalizing s with
  | nil =>
    cases h
    exact tells_nothing rfl rfl
  | cons root roots ih =>
    have ht := compile_traverses (c := c) hs.pending root
    have hready : c.Ready (fun _ => True) (c.compile root s).2 :=
      hs.compile (fun _ _ => trivial) trivial
    have hends := compile_ends hs.pending hs.sound root
    obtain ⟨d, s₁, hres, hrest⟩ := compileRoots_ok_cases h
    rw [hres] at ht hready hends
    have hroot : c.Tells [] s s₁ := ht.tells (fun _ h => nomatch h) trivial
    rw [rootDiagnostics_cons]
    exact (hroot.trans (rooted_tells hends.2)).trans (ih (hready.rooted root d) hrest)

/-- **What a run tells.**  All there is to be told of the scenes that it has met, and a complaint
each time that a scene without network root is listed as a root. -/
theorem run_tells {out : CompileOutput} (h : c.run roots s = (.ok out, s')) :
    out.diagnostics.Perm (c.rootDiagnostics roots ++ s'.memo.paths.flatMap c.sceneDiagnostics) := by
  obtain ⟨s₁, hroots, rfl, rfl⟩ := run_ok_cases h
  obtain ⟨met, hpaths, htold⟩ := compileRoots_tells (ready_empty _ s.log) hroots
  obtain rfl : s₁.memo.paths = met := hpaths
  exact htold

/-- The complaints about roots can be told apart by their kind. -/
theorem run_tells_apart {out : CompileOutput} (h : c.run roots s = (.ok out, s')) :
    (out.diagnostics.filter fun d => d.kind = .notNetworkScene).Perm (c.rootDiagnostics roots) ∧
      (out.diagnostics.filter fun d => d.kind ≠ .notNetworkScene).Perm
        (s'.memo.paths.flatMap c.sceneDiagnostics) := by
  have hroots : ∀ d ∈ c.rootDiagnostics roots, d.kind = .notNetworkScene :=
    fun _ hd => kind_of_mem_rootDiagnostics hd
  have hscenes : ∀ d ∈ s'.memo.paths.flatMap c.sceneDiagnostics, d.kind ≠ .notNetworkScene := by
    intro d hd
    obtain ⟨path, -, hd⟩ := List.mem_flatMap.mp hd
    exact (about_of_mem_sceneDiagnostics hd).1
  constructor
  · refine ((run_tells h).filter _).trans (.of_eq ?_)
    rw [List.filter_append, List.filter_eq_self.mpr (by simpa using hroots),
      List.filter_eq_nil_iff.mpr (by simpa using hscenes), List.append_nil]
  · refine ((run_tells h).filter _).trans (.of_eq ?_)
    rw [List.filter_append, List.filter_eq_nil_iff.mpr (by simpa using hroots),
      List.filter_eq_self.mpr (by simpa using hscenes), List.nil_append]

/-! ## Roots as a set -/

theorem Reaches.mono (hsub : roots' ⊆ roots) {path : String} (h : c.Reaches roots' path) :
    c.Reaches roots path := by
  obtain ⟨root, hroot, hpath⟩ := h
  exact ⟨root, hsub hroot, hpath⟩

/-- Fewer roots compile too. -/
theorem Compilable.mono (h : c.Compilable roots) (hsub : roots' ⊆ roots) :
    c.Compilable roots' where
  readable q hq := h.readable q (hq.mono hsub)
  acyclic q hq := h.acyclic q (hq.mono hsub)
  fits q hq := h.fits q (hq.mono hsub)
  scenes paths hnodup hpaths := h.scenes paths hnodup fun q hq =>
    ⟨(hpaths q hq).1.mono hsub, (hpaths q hq).2⟩

theorem compilable_of_run {out : CompileOutput} (h : c.run roots s = (.ok out, s')) :
    c.Compilable roots := by
  obtain ⟨s₁, hroots, -, -⟩ := run_ok_cases h
  obtain ⟨-, hready, hends⟩ := compileRoots_ends (c := c) (Q := fun _ => True)
    (fun _ _ => trivial) (fun _ (_ : _ ∈ roots) => trivial) (ready_empty _ s.log)
  rw [show c.compileRoots roots { log := s.log } = (.ok (), s₁) from hroots] at hready hends
  exact compilable_of_complete hready hends

theorem run_ok_mono {out : CompileOutput} (h : c.run roots s = (.ok out, s'))
    (hsub : roots' ⊆ roots) (t : CompileState) : ∃ out', (c.run roots' t).1 = .ok out' := by
  obtain ⟨out', t', h'⟩ := exists_run_of_compilable ((compilable_of_run h).mono hsub) t
  exact ⟨out', by rw [h']⟩

section SameDescriptors

variable {order order' : List String}

theorem Registers.paths_perm (h : c.Registers order s) (h' : c.Registers order' t)
    (hperm : order.Perm order') : s.registry.paths.Perm t.registry.paths := by
  rw [Registry.paths, h.scenes, Registry.paths, h'.scenes]
  exact hperm.filter _

theorem Registers.ids_eq (h : c.Registers order s) (h' : c.Registers order' t)
    (hperm : order.Perm order') :
    s.registry.scenes.map (fun x => x.1.toNat) = t.registry.scenes.map (fun x => x.1.toNat) := by
  have hcount : s.registry.sceneCount = t.registry.sceneCount := by
    simpa [Registry.paths, Registry.sceneCount] using (h.paths_perm h' hperm).length_eq
  rw [h.ids, h'.ids, hcount]

/-- The same descriptors have the same parts on record, whatever their order. -/
theorem Registers.agree (h : c.Registers order s) (h' : c.Registers order' t)
    (hperm : order.Perm order') (q : String) :
    ∃ d, s.registry.Records q d ∧ t.registry.Records q d := by
  by_cases hq : q ∈ order ∧ c.IsNetworkScene q
  · obtain ⟨d, -, hd, hrecords⟩ := h.compiled q hq.1
    obtain ⟨d', -, hd', hrecords'⟩ := h'.compiled q (hperm.subset hq.1)
    have hsame := (hrecords' hq.2).2
    rw [hd.unique hd'] at hsame
    exact ⟨d, (hrecords hq.2).2, hsame.staticNodes, hsame.properties, hsame.functions⟩
  · have hq' : ¬ (q ∈ order' ∧ c.IsNetworkScene q) := by rwa [← hperm.mem_iff]
    exact ⟨{}, h.unrecorded q hq, h'.unrecorded q hq'⟩

end SameDescriptors

/-- Equal roots have equal complaints, however often they are repeated. -/
theorem rootDiagnostics_dedup (hsame : ∀ q, q ∈ roots ↔ q ∈ roots') {told told' : List Diagnostic}
    (h : told.Perm (c.rootDiagnostics roots)) (h' : told'.Perm (c.rootDiagnostics roots')) :
    told.dedup.Perm told'.dedup := by
  refine (List.perm_ext_iff_of_nodup (List.nodup_dedup _) (List.nodup_dedup _)).mpr ?_
  intro d
  rw [List.mem_dedup, List.mem_dedup, h.mem_iff, h'.mem_iff]
  simp only [rootDiagnostics, List.mem_map, List.mem_filter, hsame]

/-- Two outputs describe the same schema: the same scenes, numbered alike as a whole, with the same
parts, and the same diagnostics, where complaints about a root count once. -/
structure SameSchema (a b : CompileOutput) : Prop where
  ids : a.registry.scenes.map (fun x => x.1.toNat) = b.registry.scenes.map (fun x => x.1.toNat)
  paths : a.registry.paths.Perm b.registry.paths
  staticNodes : ∀ q, a.registry.staticNodes.get? q = b.registry.staticNodes.get? q
  properties : ∀ q, a.registry.properties.get? q = b.registry.properties.get? q
  functions : ∀ q, a.registry.functions.get? q = b.registry.functions.get? q
  members : (a.diagnostics.filter fun d => d.kind ≠ .notNetworkScene).Perm
    (b.diagnostics.filter fun d => d.kind ≠ .notNetworkScene)
  roots : (a.diagnostics.filter fun d => d.kind = .notNetworkScene).dedup.Perm
    (b.diagnostics.filter fun d => d.kind = .notNetworkScene).dedup

section SameRoots

variable {out out' : CompileOutput} {t' : CompileState}

theorem sameSchema_of_runs (h : c.run roots s = (.ok out, s'))
    (h' : c.run roots' t = (.ok out', t')) (hsame : ∀ q, q ∈ roots ↔ q ∈ roots') :
    SameSchema out out' := by
  obtain ⟨hvisits, hs, hregistry⟩ := run_meets h
  obtain ⟨hvisits', ht, hregistry'⟩ := run_meets h'
  have hperm := hvisits.perm hvisits' hsame
  have hagree := hs.agree ht hperm
  obtain ⟨hroots, hmembers⟩ := run_tells_apart h
  obtain ⟨hroots', hmembers'⟩ := run_tells_apart h'
  constructor
  · rw [hregistry, hregistry']
    exact hs.ids_eq ht hperm
  · rw [hregistry, hregistry']
    exact hs.paths_perm ht hperm
  · intro q
    obtain ⟨d, hd, hd'⟩ := hagree q
    rw [hregistry, hregistry', hd.staticNodes, hd'.staticNodes]
  · intro q
    obtain ⟨d, hd, hd'⟩ := hagree q
    rw [hregistry, hregistry', hd.properties, hd'.properties]
  · intro q
    obtain ⟨d, hd, hd'⟩ := hagree q
    rw [hregistry, hregistry', hd.functions, hd'.functions]
  · exact hmembers.trans ((hperm.flatMap_right _).trans hmembers'.symm)
  · exact rootDiagnostics_dedup hsame hroots hroots'

/-- Roots in another order have the same complaints, repeated ones included. -/
theorem diagnostics_perm (h : c.run roots s = (.ok out, s')) (h' : c.run roots' t = (.ok out', t'))
    (hroots : roots.Perm roots') : out.diagnostics.Perm out'.diagnostics := by
  have hpaths := (run_meets h).1.perm (run_meets h').1 fun q => hroots.mem_iff
  have hcomplaints : (c.rootDiagnostics roots).Perm (c.rootDiagnostics roots') :=
    (hroots.filter _).map _
  exact (run_tells h).trans
    ((hcomplaints.append (hpaths.flatMap_right _)).trans (run_tells h').symm)

end SameRoots

/-- **Roots in any order.**  Whatever the runs begin in, with the same roots both succeed or neither
does, and they come to the same schema. -/
theorem run_of_same_roots (c : Compiler) (roots roots' : List String) (s t : CompileState)
    (hsame : ∀ q, q ∈ roots ↔ q ∈ roots') :
    ((∃ out, (c.run roots s).1 = .ok out) ↔ ∃ out, (c.run roots' t).1 = .ok out) ∧
    ∀ out out', (c.run roots s).1 = .ok out → (c.run roots' t).1 = .ok out' →
      SameSchema out out' ∧ (roots.Perm roots' → out.diagnostics.Perm out'.diagnostics) := by
  refine ⟨⟨?_, ?_⟩, ?_⟩
  · rintro ⟨out, h⟩
    exact run_ok_mono (Prod.ext h rfl) (fun q hq => (hsame q).mpr hq) t
  · rintro ⟨out, h⟩
    exact run_ok_mono (Prod.ext h rfl) (fun q hq => (hsame q).mp hq) s
  · intro out out' h h'
    have hrun : c.run roots s = (.ok out, (c.run roots s).2) := Prod.ext h rfl
    have hrun' : c.run roots' t = (.ok out', (c.run roots' t).2) := Prod.ext h' rfl
    exact ⟨sameSchema_of_runs hrun hrun' hsame, diagnostics_perm hrun hrun'⟩

namespace Lobby

/-- Listed first, the unit gets the first number. -/
theorem unit_first_visits :
    DepthFirst compiler.links [] ["unit", "lobby", "unit"] ["unit", "lobby", "squad"] := by
  have hunit := @unit_visits [] (by simp)
  refine hunit.append (.first (by simp) ?_ (.again (by simp) .done))
  rw [lobby_links]
  refine .first (by simp) ?_ (.again (by simp) .done)
  rw [squad_links]
  exact .again (by simp) .done

/-- Swapping the lobby and the unit, and listing the unit twice, only swaps two numbers. -/
theorem lobby_roots_again :
    (∀ q, q ∈ ["lobby", "unit"] ↔ q ∈ ["unit", "lobby", "unit"]) ∧
    ∃ out out', (compiler.run ["lobby", "unit"] {}).1 = .ok out ∧
      (compiler.run ["unit", "lobby", "unit"] {}).1 = .ok out' ∧ SameSchema out out' ∧
      out.registry.paths = ["squad", "unit"] ∧ out'.registry.paths = ["unit", "squad"] := by
  have hsame : ∀ q, q ∈ ["lobby", "unit"] ↔ q ∈ ["unit", "lobby", "unit"] := by
    intro q
    simp only [List.mem_cons, List.not_mem_nil, or_false]
    tauto
  obtain ⟨out, s', h⟩ := exists_run_of_compilable compilable {}
  have hok : (compiler.run ["lobby", "unit"] {}).1 = .ok out := by rw [h]
  obtain ⟨hiff, hschema⟩ := run_of_same_roots compiler _ _ {} {} hsame
  obtain ⟨out', hok'⟩ := hiff.mp ⟨out, hok⟩
  have h' : compiler.run ["unit", "lobby", "unit"] {} = (.ok out', _) := Prod.ext hok' rfl
  refine ⟨hsame, out, out', hok, hok', (hschema out out' hok hok').1, ?_, ?_⟩
  · rw [paths_of_run h lobby_visits]
    simp [unit_network, squad_network, lobby_plain]
  · rw [paths_of_run h' unit_first_visits]
    simp [unit_network, squad_network, lobby_plain]

end Lobby

end Compiler

end NetSchema
