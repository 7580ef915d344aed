import NetSchema.Proofs.Compile.Drafts

/-!
# Network nodes and instanced scenes

A draft grows in two ways, and both of them are `Draft.extend`: by the one node that a scene
declares, and by all nodes of an instanced scene, placed below the node that instances it.

* `addNode_ends`, `merge_ends`: either way the draft ends up holding the new nodes too, or with an
  error that blames one of them;
* `toList_rebased`: reading the members of a compiled scene in order and placing them below a node
  gives the members of its nodes, placed below that node.
-/

namespace NetSchema

/-! ## Members of a scene, placed below a node -/

namespace Placement

variable {α : Type}

/-- A member that says which node it belongs to does so below `outer`, whatever its number was. -/
def Rebases (items : NetworkNode → List (Placement α)) (outer : String)
    (rebase : String × α → Placement α) : Prop :=
  ∀ n k, (numbered k (items n)).map (fun e => rebase (n.path, e.2)) = items (n.below outer)

theorem numbered_map_const {β : Type} (xs : List β) (place : β → Placement α) (k : Nat)
    {f : α → Placement α} {g : β → Placement α} (h : ∀ b i, f ((place b).entry i) = g b) :
    (numbered k (xs.map place)).map (fun e => f e.2) = xs.map g := by
  induction xs generalizing k with
  | nil => rfl
  | cons b xs ih =>
    rw [List.map_cons, numbered_cons, List.map_cons, List.map_cons, ih, h]

theorem layout_rebased {items : NetworkNode → List (Placement α)} {outer : String}
    {rebase : String × α → Placement α} (h : Rebases items outer rebase) (k : Nat)
    (ns : List NetworkNode) :
    ((layout items k ns).flatMap fun g => g.2.map fun e => rebase (g.1, e.2)) =
      (ns.map (NetworkNode.below outer)).flatMap items := by
  induction ns generalizing k with
  | nil => rfl
  | cons n ns ih =>
    rw [layout, List.flatMap_append, ih, List.map_cons, List.flatMap_cons, ← h n k]
    by_cases he : (items n).isEmpty = true
    · rw [if_pos he, List.isEmpty_iff.mp he]
      rfl
    · rw [if_neg he]
      simp

theorem toList_rebased {items : NetworkNode → List (Placement α)} {outer : String}
    {rebase : String × α → Placement α} (h : Rebases items outer rebase) {m : NodeMembers α}
    {ns : List NetworkNode} (hm : m.layout = layout items 0 ns) :
    m.toList.map rebase = (ns.map (NetworkNode.below outer)).flatMap items := by
  rw [NodeMembers.toList_eq_layout, hm, List.map_flatMap, ← layout_rebased h 0 ns]
  simp [Function.comp_def]

/-- A property of an instanced scene, placed below `outer`. -/
def ofProperty (outer : String) (x : String × PropertyEntry) : Placement PropertyEntry where
  nodePath := NodePath.join outer x.1
  name := x.2.name
  entry i := { x.2 with nodePath := NodePath.join outer x.1, index := ⟨UInt8.ofNat i⟩ }

/-- A function of an instanced scene, placed below `outer`. -/
def ofFunction (outer : String) (x : String × FunctionEntry) : Placement FunctionEntry where
  nodePath := NodePath.join outer x.1
  name := x.2.name
  entry i := { x.2 with nodePath := NodePath.join outer x.1, index := ⟨UInt8.ofNat i⟩ }

theorem ofProperty_property (r : Rules) (outer nodePath : String) (p : AnnotatedProperty)
    (i : Nat) :
    ofProperty outer (nodePath, r.property p nodePath i) =
      ⟨NodePath.join outer nodePath, p.name, r.property p (NodePath.join outer nodePath)⟩ := by
  simp only [ofProperty, Rules.property]
  rfl

theorem ofFunction_function (r : Rules) (outer nodePath : String) (f : AnnotatedFunction)
    (i : Nat) :
    ofFunction outer (nodePath, r.function f nodePath i) =
      ⟨NodePath.join outer nodePath, f.name, r.function f (NodePath.join outer nodePath)⟩ := by
  simp only [ofFunction, Rules.function]
  rfl

theorem ofProperty_rebases (r : Rules) (outer : String) :
    Rebases r.propertyPlacements outer (ofProperty outer) := by
  intro n k
  exact numbered_map_const (f := fun e => ofProperty outer (n.path, e)) _ _ k
    (fun p i => ofProperty_property r outer n.path p i)

theorem ofFunction_rebases (r : Rules) (outer : String) :
    Rebases r.functionPlacements outer (ofFunction outer) := by
  intro n k
  exact numbered_map_const (f := fun e => ofFunction outer (n.path, e)) _ _ k
    (fun f i => ofFunction_function r outer n.path f i)

end Placement

namespace Draft

variable {r : Rules} {scene : String} {id : Option SceneId} {ns : List NetworkNode} {d : Draft}

/-! ## Network nodes -/

theorem addStaticNodes_one (path : String) (d : Draft) :
    addStaticNodes [path] d = d.addStaticNode path := by
  rw [addStaticNodes]
  cases d.addStaticNode path <;> rfl

/-- Adding a network node is adding what it stands for. -/
theorem addNode_result (r : Rules) (n : SceneNode) (cls : String) (d : Draft) :
    (d.addNode r n cls).result = d.extend r [⟨n.path, cls, n.isRoot⟩] := by
  have hnotes : ∀ (b : Bool) (rs : List LogRecord) (o : Outcome Draft),
      (if b = true then Outcome.notes rs >>= fun _ => o else o).result = o.result := by
    intro b rs o
    cases b <;> rfl
  rw [addNode, extend, List.map_singleton,
    addStaticNodes_one, List.flatMap_singleton, List.flatMap_singleton]
  let node : NetworkNode := ⟨n.path, cls, n.isRoot⟩
  cases d.addStaticNode n.path with
  | error e => rfl
  | ok d₁ =>
    have hmembers : (addProperties r ⟨d.numbering.scene, n.path⟩ n.isRoot
          (r.members node).properties d₁ >>=
        addFunctions r ⟨d.numbering.scene, n.path⟩ (r.members node).functions).result =
        fillProperties (r.propertyPlacements node) d₁ >>=
          fillFunctions (r.functionPlacements node) := by
      rw [Outcome.result_bind, addProperties_result]
      congr 1
      funext d₂
      exact addFunctions_result ..
    refine Eq.trans ?_ hmembers
    rw [Outcome.result_bind_ok (Outcome.result_ofExcept _),
      Outcome.result_bind_ok (Outcome.result_notes _)]
    exact hnotes _ _ _

theorem addNode_ends (h : d.Holds r scene id ns) (n : SceneNode) (cls : String) :
    Ends (fun d' => d'.Holds r scene id (ns ++ [⟨n.path, cls, n.isRoot⟩]))
      (fun e => e.Blames r scene (ns ++ [⟨n.path, cls, n.isRoot⟩]))
      (d.addNode r n cls).result := by
  rw [addNode_result]
  exact extend_ends h _

/-! ## Instanced scenes -/

theorem mergeStaticNodes_eq (outer : String) (xs : List (StaticNodeId × String)) (d : Draft) :
    mergeStaticNodes outer xs d = addStaticNodes (xs.map fun x => NodePath.join outer x.2) d := by
  induction xs generalizing d with
  | nil => rfl
  | cons x xs ih =>
    rw [mergeStaticNodes, List.map_cons, addStaticNodes]
    cases d.addStaticNode (NodePath.join outer x.2) with
    | error e => rfl
    | ok d₁ => exact ih d₁

theorem mergeProperties_eq (outer : String) (xs : List (String × PropertyEntry)) (d : Draft) :
    mergeProperties outer xs d = fillProperties (xs.map (Placement.ofProperty outer)) d := by
  induction xs generalizing d with
  | nil => rfl
  | cons x xs ih =>
    rw [mergeProperties, List.map_cons, fillProperties_cons]
    dsimp only
    rw [Numbering.nextProperty_eq]
    by_cases hk : d.numbering.properties < IdKind.property.limit
    · rw [if_pos hk, if_pos hk]
      exact ih _
    · rw [if_neg hk, if_neg hk]
      rfl

theorem mergeFunctions_eq (outer : String) (xs : List (String × FunctionEntry)) (d : Draft) :
    mergeFunctions outer xs d = fillFunctions (xs.map (Placement.ofFunction outer)) d := by
  induction xs generalizing d with
  | nil => rfl
  | cons x xs ih =>
    rw [mergeFunctions, List.map_cons, fillFunctions_cons]
    dsimp only
    rw [Numbering.nextFunction_eq]
    by_cases hk : d.numbering.functions < IdKind.function.limit
    · rw [if_pos hk, if_pos hk]
      exact ih _
    · rw [if_neg hk, if_neg hk]
      rfl

/-- Merging an instanced scene is adding its nodes below the instancing node. -/
theorem merge_eq_extend {child : SceneData} {ms : List NetworkNode} (h : child.Lists r ms)
    (outer : String) (d : Draft) :
    d.merge outer child = d.extend r (ms.map (NetworkNode.below outer)) := by
  have hstatic : child.staticNodes.map (fun x => NodePath.join outer x.2) =
      (ms.map (NetworkNode.below outer)).map NetworkNode.path := by
    rw [← Function.comp_def (NodePath.join outer) Prod.snd, ← List.map_map, h.staticNodes,
      ByteId.enumerate_map_snd]
    simp [NetworkNode.below, Function.comp_def]
  rw [merge, mergeStaticNodes_eq, hstatic]
  simp only [mergeProperties_eq, mergeFunctions_eq]
  rw [Placement.toList_rebased (Placement.ofProperty_rebases r outer) h.properties,
    Placement.toList_rebased (Placement.ofFunction_rebases r outer) h.functions]
  rfl

theorem merge_ends {child : SceneData} {ms : List NetworkNode} (h : d.Holds r scene id ns)
    (hc : child.Lists r ms) (outer : String) :
    Ends (fun d' => d'.Holds r scene id (ns ++ ms.map (NetworkNode.below outer)))
      (fun e => e.Blames r scene (ns ++ ms.map (NetworkNode.below outer)))
      (d.merge outer child) := by
  rw [merge_eq_extend hc]
  exact extend_ends h _

end Draft

end NetSchema
