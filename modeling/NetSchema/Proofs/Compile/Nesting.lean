import NetSchema.Proofs.NodePath
import NetSchema.Proofs.Results
import NetSchema.Proofs.Compile.Merging

/-!
# Instances of instances

A scene that is instanced through others is merged step by step, from the inside outwards, and each
step joins one more path in front.  By the laws of paths this is the same as merging the scene once,
below the joined path of the whole chain.

* `merge_nodePaths`: what merging does to paths;
* `merge_start`: below a node of a scene that holds nothing else, everything finds its place;
* `Nested.lists`: what is left of a scene after a chain of merges;
* `nested_merge_joins`: the laws of paths and what they mean for chains of instances.
-/

namespace NetSchema

open NodePath

/-- The paths of the static nodes, in order. -/
def SceneData.nodePaths (d : SceneData) : List String := d.staticNodes.map Prod.snd

/-- What is left of the scene after it has been merged below the last of the nodes `outers`, the
result below the one before it, and so on, each time into a scene that holds nothing else. -/
inductive Nested (child : SceneData) : (outers : List String) → SceneData → Prop
  | here : Nested child [] child
  | under {outers : List String} {data : SceneData} {scene : String} {id : Option SceneId}
      {outer : String} {d : Draft} : Nested child outers data →
      (Draft.start scene id).merge outer data = .ok d → Nested child (outer :: outers) d.data

variable {r : Rules} {scene : String} {id : Option SceneId} {ns ms : List NetworkNode}
  {child data : SceneData} {d d' : Draft} {outer : String} {outers : List String}

/-! ## Nodes below a node -/

namespace NetworkNode

theorem below_below (outer inner : String) (n : NetworkNode) :
    (n.below inner).below outer = n.below (join outer inner) := by
  rw [below, below, below, join_assoc]

theorem below_root (n : NetworkNode) : n.below root = n := by
  rw [below, root_join]

theorem map_path_below (outer : String) (ns : List NetworkNode) :
    (ns.map (below outer)).map path = (ns.map path).map (join outer) := by
  simp [below, Function.comp_def]

end NetworkNode

open NetworkNode

/-- Members do not depend on where a node stands. -/
theorem Placement.total_below {α : Type} {items : NetworkNode → List (Placement α)}
    (hitems : ∀ n, (items (n.below outer)).length = (items n).length) (ns : List NetworkNode) :
    total items (ns.map (below outer)) = total items ns := by
  induction ns with
  | nil => rfl
  | cons n ns ih => rw [List.map_cons, total_cons, total_cons, ih, hitems]

/-- Nodes that fit do so below any node. -/
theorem Rules.Fits.below (h : r.Fits ns) (outer : String) :
    r.Fits (ns.map (NetworkNode.below outer)) where
  nodes := by
    rw [List.length_map]
    exact h.nodes
  paths := by
    rw [map_path_below, nodup_map_join]
    exact h.paths
  properties := by
    have hitems : ∀ n : NetworkNode, (r.propertyPlacements (n.below outer)).length =
        (r.propertyPlacements n).length := by
      intro n
      simp [propertyPlacements, propertiesOf, members, NetworkNode.below]
    rw [Placement.total_below hitems]
    exact h.properties
  functions := by
    have hitems : ∀ n : NetworkNode, (r.functionPlacements (n.below outer)).length =
        (r.functionPlacements n).length := by
      intro n
      simp [functionPlacements, functionsOf, members, NetworkNode.below]
    rw [Placement.total_below hitems]
    exact h.functions

theorem SceneData.Lists.nodePaths_eq (h : child.Lists r ns) :
    child.nodePaths = ns.map NetworkNode.path := by
  rw [nodePaths, h.staticNodes, ByteId.enumerate_map_snd]

/-! ## Merging once -/

namespace Draft

theorem addStaticNodes_nodePaths {paths : List String} (h : addStaticNodes paths d = .ok d') :
    d'.data.nodePaths = d.data.nodePaths ++ paths := by
  induction paths generalizing d with
  | nil =>
    cases h
    simp
  | cons path paths ih =>
    rw [addStaticNodes] at h
    obtain ⟨d₁, hone, hrest⟩ := bind_eq_ok_iff.mp h
    have hpaths : d₁.data.nodePaths = d.data.nodePaths ++ [path] := by
      unfold addStaticNode at hone
      split at hone
      · cases hone
      · obtain ⟨⟨i, numbering⟩, -, hone⟩ := bind_eq_ok_iff.mp hone
        cases hone
        simp [SceneData.nodePaths]
    rw [ih hrest, hpaths, List.append_assoc, List.singleton_append]

theorem fillProperties_nodePaths {xs : List (Placement PropertyEntry)}
    (h : fillProperties xs d = .ok d') : d'.data.nodePaths = d.data.nodePaths := by
  obtain ⟨m, -, rfl⟩ := map_eq_ok_iff.mp h
  rfl

theorem fillFunctions_nodePaths {xs : List (Placement FunctionEntry)}
    (h : fillFunctions xs d = .ok d') : d'.data.nodePaths = d.data.nodePaths := by
  obtain ⟨m, -, rfl⟩ := map_eq_ok_iff.mp h
  rfl

/-- **Merging joins paths.**  The nodes of the instanced scene come behind those that are there, each
below the instancing node. -/
theorem merge_nodePaths (h : d.merge outer child = .ok d') :
    d'.data.nodePaths = d.data.nodePaths ++ child.nodePaths.map (join outer) := by
  unfold merge at h
  obtain ⟨d₁, hstatic, h⟩ := bind_eq_ok_iff.mp h
  obtain ⟨d₂, hproperties, hfunctions⟩ := bind_eq_ok_iff.mp h
  rw [mergeStaticNodes_eq] at hstatic
  rw [mergeProperties_eq] at hproperties
  rw [mergeFunctions_eq] at hfunctions
  rw [fillFunctions_nodePaths hfunctions, fillProperties_nodePaths hproperties,
    addStaticNodes_nodePaths hstatic, SceneData.nodePaths, SceneData.nodePaths, List.map_map]
  rfl

/-- Where there is nothing else, all that fits finds its place below a node. -/
theorem merge_start (scene : String) (id : Option SceneId) (h : child.Lists r ns)
    (hfits : r.Fits ns) (outer : String) :
    ∃ d, (start scene id).merge outer child = .ok d ∧
      d.Holds r scene id (ns.map (below outer)) := by
  have hends := merge_ends (start_holds r scene id) h outer
  rw [List.nil_append] at hends
  cases hmerge : (start scene id).merge outer child with
  | ok d =>
    rw [hmerge] at hends
    exact ⟨d, rfl, hends⟩
  | error e =>
    rw [hmerge] at hends
    exact absurd (hfits.below outer) (SchemaError.not_fits_of_blames hends)

end Draft

/-! ## Merging step by step -/

/-- **Chains.**  The network nodes of the scene are left, below the path of the whole chain. -/
theorem Nested.lists (h : Nested child outers data) (hchild : child.Lists r ns)
    (hfits : r.Fits ns) : data.Lists r (ns.map (NetworkNode.below (chain outers))) := by
  induction h with
  | here =>
    have hroot : NetworkNode.below (chain []) = (fun n => n) := funext below_root
    rw [hroot, List.map_id']
    exact hchild
  | @under outers data scene id outer d _ hmerge ih =>
    obtain ⟨d', hmerge', hholds⟩ := Draft.merge_start scene id ih (hfits.below _) outer
    rw [hmerge] at hmerge'
    cases hmerge'
    simpa [below_below, chain_cons, Function.comp_def] using hholds.lists

theorem exists_nested (hchild : child.Lists r ns) (hfits : r.Fits ns) (outers : List String) :
    ∃ data, Nested child outers data := by
  induction outers with
  | nil => exact ⟨child, .here⟩
  | cons outer outers ih =>
    obtain ⟨data, hdata⟩ := ih
    obtain ⟨d, hmerge, -⟩ :=
      Draft.merge_start "" none (hdata.lists hchild hfits) (hfits.below _) outer
    exact ⟨d.data, hdata.under hmerge⟩

/-- **Paths of nested instances.**  Joining paths is associative, the root is its unit on both sides,
and what is joined on the right can be told from the result.  Going one name down is joining the name
if that does not look like the root.  Merging joins the path of the instancing node to every path of
the instanced scene.  A compiled scene can therefore be merged through any chain of nodes, each time
into a scene that holds nothing else: its nodes then have different paths, which are those that the
joined chain gives them, and whatever draft the result is merged into, at whatever node, becomes what
it does when the scene is merged there at once. -/
theorem nested_merge_joins :
    (∀ a b c, join (join a b) c = join a (join b c)) ∧
      (∀ a, join a root = a ∧ join root a = a) ∧
      (∀ a b c, join a b = join a c ↔ b = c) ∧
      (∀ a name, NodePath.child (some a) name = join a name ↔ name ≠ root ∨ a = root) ∧
      (∀ outers x, outers.foldr join x = join (chain outers) x) ∧
      (∀ (d d' : Draft) outer child, d.merge outer child = .ok d' →
        d'.data.nodePaths = d.data.nodePaths ++ child.nodePaths.map (join outer)) ∧
      ∀ r scene id ns (draft : Draft), draft.Holds r scene id ns → ∀ outers,
        (∃ data, Nested draft.data outers data) ∧
          ∀ data, Nested draft.data outers data →
            data.nodePaths = draft.data.nodePaths.map (join (chain outers)) ∧
              data.nodePaths.Nodup ∧
                ∀ (d : Draft) outer,
                  d.merge outer data = d.merge (join outer (chain outers)) draft.data := by
  refine ⟨join_assoc, fun a => ⟨join_root a, root_join a⟩, fun a b c => join_right_inj a,
    fun a name => child_eq_join_iff, foldr_join, fun d d' outer child => Draft.merge_nodePaths, ?_⟩
  intro r scene id ns draft hdraft outers
  refine ⟨exists_nested hdraft.lists hdraft.fits outers, ?_⟩
  intro data hdata
  have hlists := hdata.lists hdraft.lists hdraft.fits
  refine ⟨?_, ?_, ?_⟩
  · rw [hlists.nodePaths_eq, hdraft.lists.nodePaths_eq, map_path_below]
  · rw [hlists.nodePaths_eq]
    exact (hdraft.fits.below _).paths
  · intro d outer
    rw [Draft.merge_eq_extend hlists, Draft.merge_eq_extend hdraft.lists, List.map_map]
    simp only [Function.comp_def, below_below]

end NetSchema
