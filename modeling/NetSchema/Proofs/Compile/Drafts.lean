import NetSchema.Proofs.ByteId
import NetSchema.Proofs.Compile.Members

/-!
# Drafts hold expansions

A draft grows by network nodes.  `Draft.Holds` says that it is what plain expansion makes of the
nodes that it has met so far; `SchemaError.Blames` says of an error that it names the first thing
among nodes that does not fit.

* `addNode_ends`, `merge_ends`: adding a network node or an instanced scene ends with a draft that
  holds the new nodes too, or with an error that blames one of them;
* `not_fits_of_blames`: nodes that an error blames do not fit.
-/

namespace NetSchema

/-! ## Results of either kind -/

/-- The result satisfies `P`, or the error satisfies `E`. -/
def Ends {α : Type} (P : α → Prop) (E : SchemaError → Prop) : Except SchemaError α → Prop
  | .ok a => P a
  | .error e => E e

theorem Ends.bind {α β : Type} {P : α → Prop} {Q : β → Prop} {E : SchemaError → Prop}
    {x : Except SchemaError α} {f : α → Except SchemaError β} (hx : Ends P E x)
    (hf : ∀ a, P a → Ends Q E (f a)) : Ends Q E (x >>= f) := by
  cases x with
  | ok a => exact hf a hx
  | error e => exact hx

theorem Ends.imp {α : Type} {P Q : α → Prop} {E F : SchemaError → Prop} {x : Except SchemaError α}
    (hx : Ends P E x) (hP : ∀ a, P a → Q a) (hE : ∀ e, E e → F e) : Ends Q F x := by
  cases x with
  | ok a => exact hP a hx
  | error e => exact hE e hx

theorem Ends.map {α β : Type} {P : α → Prop} {Q : β → Prop} {E F : SchemaError → Prop}
    {x : Except SchemaError α} {f : α → β} (hx : Ends P E x) (hP : ∀ a, P a → Q (f a))
    (hE : ∀ e, E e → F e) : Ends Q F (x.map f) := by
  cases x with
  | ok a => exact hP a hx
  | error e => exact hE e hx

/-! ## What an error blames -/

/-- The error names the first thing among `ns` that has to go without a number, or the first node
whose path an earlier one has too.  Until then all paths differ. -/
def SchemaError.Blames (r : Rules) (scene : String) (ns : List NetworkNode) : SchemaError → Prop
  | .propertyCapacity s nodePath member =>
    s = scene ∧ (ns.map NetworkNode.path).Nodup ∧
      ∃ x, (ns.flatMap r.propertyPlacements)[64]? = some x ∧ x.nodePath = nodePath ∧ x.name = member
  | .functionCapacity s nodePath member =>
    s = scene ∧ (ns.map NetworkNode.path).Nodup ∧
      ∃ x, (ns.flatMap r.functionPlacements)[255]? = some x ∧ x.nodePath = nodePath ∧ x.name = member
  | .staticNodeCapacity s nodePath =>
    s = scene ∧ ((ns.map NetworkNode.path).take 257).Nodup ∧
      (ns.map NetworkNode.path)[256]? = some nodePath
  | .duplicateNodePath s nodePath =>
    s = scene ∧ ∃ k ≤ 256, ((ns.map NetworkNode.path).take k).Nodup ∧
      (ns.map NetworkNode.path)[k]? = some nodePath ∧ nodePath ∈ (ns.map NetworkNode.path).take k
  | _ => False

section Fitting

variable {r : Rules} {scene : String} {ns ms : List NetworkNode} {e : SchemaError}

/-- The first of nodes that fit do so alone. -/
theorem Rules.Fits.of_append (h : r.Fits (ns ++ ms)) : r.Fits ns where
  nodes := Nat.le_trans (List.sublist_append_left ns ms).length_le h.nodes
  paths := h.paths.sublist ((List.sublist_append_left ns ms).map NetworkNode.path)
  properties := by
    refine Nat.le_trans ?_ h.properties
    simp [Placement.total]
  functions := by
    refine Nat.le_trans ?_ h.functions
    simp [Placement.total]

theorem SchemaError.not_fits_of_blames (h : e.Blames r scene ns) : ¬ r.Fits ns := by
  intro hf
  unfold Blames at h
  split at h
  · obtain ⟨-, -, x, hx, -⟩ := h
    have hlt := (List.getElem?_eq_some_iff.mp hx).1
    have hle := hf.properties
    rw [Placement.total] at hle
    omega
  · obtain ⟨-, -, x, hx, -⟩ := h
    have hlt := (List.getElem?_eq_some_iff.mp hx).1
    have hle := hf.functions
    rw [Placement.total] at hle
    omega
  · have hlt := (List.getElem?_eq_some_iff.mp h.2.2).1
    have hle := hf.nodes
    rw [List.length_map] at hlt
    omega
  · obtain ⟨-, k, -, -, hk, hm⟩ := h
    obtain ⟨hlt, hk⟩ := List.getElem?_eq_some_iff.mp hk
    have hd := hf.paths
    rw [← List.take_append_drop k (ns.map NetworkNode.path), List.drop_eq_getElem_cons hlt, hk,
      List.nodup_append] at hd
    exact hd.2.2 _ hm _ (List.mem_cons_self ..) rfl
  · exact h

end Fitting

/-! ## Static nodes -/

namespace Draft

/-- The draft with other static nodes. -/
def withStaticNodes (d : Draft) (paths : List String) : Draft :=
  ⟨{ d.data with staticNodes := ByteId.enumerate paths },
    { d.numbering with staticNodes := paths.length }⟩

def addStaticNodes : List String → Draft → Except SchemaError Draft
  | [], d => .ok d
  | path :: paths, d => do
    let d ← d.addStaticNode path
    addStaticNodes paths d

theorem addStaticNode_eq {d : Draft} {olds : List String}
    (hs : d.data.staticNodes = ByteId.enumerate olds) (hk : d.numbering.staticNodes = olds.length)
    (path : String) :
    d.addStaticNode path =
      if path ∈ olds then .error (.duplicateNodePath d.numbering.scene path)
      else if olds.length < 256 then .ok (d.withStaticNodes (olds ++ [path]))
      else .error (.staticNodeCapacity d.numbering.scene path) := by
  have hmem : d.data.hasStaticNode path = true ↔ path ∈ olds := by
    have hpaths : d.data.staticNodes.map Prod.snd = olds := by
      rw [hs, ByteId.enumerate_map_snd]
    rw [← hpaths, SceneData.hasStaticNode, List.any_eq_true, List.mem_map]
    simp only [beq_iff_eq]
  unfold addStaticNode
  by_cases hp : path ∈ olds
  · rw [if_pos (hmem.mpr hp), if_pos hp]
  · rw [if_neg (fun h => hp (hmem.mp h)), if_neg hp, Numbering.nextStaticNode_eq, hk]
    by_cases hlt : olds.length < 256
    · rw [if_pos hlt, if_pos (show olds.length < IdKind.staticNode.limit from hlt)]
      simp [withStaticNodes, ByteId.enumerate_append, hs, bind, Except.bind, pure, Except.pure]
    · rw [if_neg hlt, if_neg (show ¬ olds.length < IdKind.staticNode.limit from hlt)]
      rfl

theorem addStaticNodes_ends {d : Draft} {olds : List String} (news : List String)
    (hs : d.data.staticNodes = ByteId.enumerate olds) (hk : d.numbering.staticNodes = olds.length)
    (hnd : olds.Nodup) (hle : olds.length ≤ 256) :
    Ends
      (fun d' => (olds ++ news).Nodup ∧ (olds ++ news).length ≤ 256 ∧
        d' = d.withStaticNodes (olds ++ news))
      (fun e => (∃ path, e = .duplicateNodePath d.numbering.scene path ∧
          ∃ k ≤ 256, ((olds ++ news).take k).Nodup ∧ (olds ++ news)[k]? = some path ∧
            path ∈ (olds ++ news).take k) ∨
        ∃ path, e = .staticNodeCapacity d.numbering.scene path ∧
          ((olds ++ news).take 257).Nodup ∧ (olds ++ news)[256]? = some path)
      (addStaticNodes news d) := by
  induction news generalizing d olds with
  | nil =>
    rw [List.append_nil]
    refine ⟨hnd, hle, ?_⟩
    obtain ⟨data, numbering⟩ := d
    simp only at hs hk
    simp [withStaticNodes, ← hs, ← hk]
  | cons path news ih =>
    have hat : (olds ++ path :: news)[olds.length]? = some path := by simp
    rw [addStaticNodes, addStaticNode_eq hs hk]
    by_cases hp : path ∈ olds
    · rw [if_pos hp]
      have htake : (olds ++ path :: news).take olds.length = olds := List.take_left
      exact Or.inl ⟨path, rfl, olds.length, hle, htake.symm ▸ hnd, hat, htake.symm ▸ hp⟩
    · have hnew : (olds ++ [path]).Nodup := by
        rw [← List.concat_eq_append]
        exact List.Nodup.concat hp hnd
      rw [if_neg hp]
      by_cases hlt : olds.length < 256
      · rw [if_pos hlt, show olds ++ path :: news = (olds ++ [path]) ++ news by simp]
        refine ih (d := d.withStaticNodes (olds ++ [path])) rfl rfl hnew ?_
        rw [List.length_append, List.length_singleton]
        omega
      · have hfull : olds.length = 256 := by omega
        have htake : (olds ++ path :: news).take 257 = olds ++ [path] := by
          rw [List.append_cons]
          exact List.take_left' (by rw [List.length_append, hfull, List.length_singleton])
        rw [if_neg hlt]
        exact Or.inr ⟨path, rfl, htake.symm ▸ hnew, hfull ▸ hat⟩

end Draft

/-! ## Drafts that hold an expansion -/

/-- The scene has exactly the static nodes and members of `ns`, numbered in order. -/
structure SceneData.Lists (r : Rules) (ns : List NetworkNode) (d : SceneData) : Prop where
  staticNodes : d.staticNodes = ByteId.enumerate (ns.map NetworkNode.path)
  properties : d.properties.layout = Placement.layout r.propertyPlacements 0 ns
  functions : d.functions.layout = Placement.layout r.functionPlacements 0 ns

/-- The draft has met exactly `ns`, and as many numbers have been given out as they need. -/
structure Draft.Holds (r : Rules) (scene : String) (id : Option SceneId) (ns : List NetworkNode)
    (d : Draft) : Prop where
  fits : r.Fits ns
  lists : d.data.Lists r ns
  sceneId : d.data.sceneId = id
  isNetworkScene : d.data.isNetworkScene = id.isSome
  scene : d.numbering.scene = scene
  staticNodes : d.numbering.staticNodes = ns.length
  properties : d.numbering.properties = Placement.total r.propertyPlacements ns
  functions : d.numbering.functions = Placement.total r.functionPlacements ns

theorem Placement.fill_ends {α : Type} {items : NetworkNode → List (Placement α)}
    (hi : Proper items) {kind : IdKind} (full : String → String → SchemaError)
    {m : NodeMembers α} {ns : List NetworkNode} (ms : List NetworkNode)
    (hm : m.layout = layout items 0 ns) (hk : total items ns ≤ kind.limit)
    (hp : ((ns ++ ms).map NetworkNode.path).Nodup) :
    Ends
      (fun x => total items (ns ++ ms) ≤ kind.limit ∧ x.1.layout = layout items 0 (ns ++ ms) ∧
        x.2 = total items (ns ++ ms))
      (fun e => ∃ x, ((ns ++ ms).flatMap items)[kind.limit]? = some x ∧
        e = full x.nodePath x.name)
      (fill kind full (ms.flatMap items) m (total items ns)) := by
  have htotal : total items (ns ++ ms) = total items ns + (ms.flatMap items).length := by
    simp [total]
  by_cases hle : total items (ns ++ ms) ≤ kind.limit
  · rw [fill_eq (htotal ▸ hle)]
    exact ⟨hle, layout_addAll hi hm hp, htotal.symm⟩
  · have hlt : kind.limit < total items ns + (ms.flatMap items).length := by omega
    obtain ⟨x, hx, hfill⟩ := fill_full hk hlt
    rw [hfill]
    refine ⟨x, ?_, rfl⟩
    rw [total] at hk hx
    rw [List.flatMap_append, List.getElem?_append_right hk]
    exact hx

namespace Draft

variable {r : Rules} {scene : String} {id : Option SceneId} {ns : List NetworkNode} {d : Draft}

/-- Adds network nodes: first their static nodes, then their properties, then their functions. -/
def extend (r : Rules) (ms : List NetworkNode) (d : Draft) : Except SchemaError Draft := do
  let d ← addStaticNodes (ms.map NetworkNode.path) d
  let d ← fillProperties (ms.flatMap r.propertyPlacements) d
  fillFunctions (ms.flatMap r.functionPlacements) d

theorem start_holds (r : Rules) (scene : String) (id : Option SceneId) :
    (start scene id).Holds r scene id [] where
  fits := ⟨by simp, by simp, by simp [Placement.total], by simp [Placement.total]⟩
  lists := ⟨rfl, rfl, rfl⟩
  sceneId := rfl
  isNetworkScene := rfl
  scene := rfl
  staticNodes := rfl
  properties := rfl
  functions := rfl

theorem fillProperties_ends {ms : List NetworkNode}
    (hlayout : d.data.properties.layout = Placement.layout r.propertyPlacements 0 ns)
    (hcount : d.numbering.properties = Placement.total r.propertyPlacements ns)
    (hle : Placement.total r.propertyPlacements ns ≤ 64)
    (hp : ((ns ++ ms).map NetworkNode.path).Nodup) :
    Ends
      (fun d' => Placement.total r.propertyPlacements (ns ++ ms) ≤ 64 ∧
        ∃ m, m.layout = Placement.layout r.propertyPlacements 0 (ns ++ ms) ∧
          d' = d.withProperties m (Placement.total r.propertyPlacements (ns ++ ms)))
      (fun e => ∃ x, ((ns ++ ms).flatMap r.propertyPlacements)[64]? = some x ∧
        e = .propertyCapacity d.numbering.scene x.nodePath x.name)
      (fillProperties (ms.flatMap r.propertyPlacements) d) := by
  unfold fillProperties
  rw [hcount]
  have hfill := Placement.fill_ends r.propertyPlacements_proper
    (.propertyCapacity d.numbering.scene) ms hlayout (show _ ≤ IdKind.property.limit from hle) hp
  refine Ends.map hfill ?_ (fun e h => h)
  rintro ⟨m, k⟩ ⟨htotal, hm, rfl⟩
  exact ⟨htotal, m, hm, rfl⟩

theorem fillFunctions_ends {ms : List NetworkNode}
    (hlayout : d.data.functions.layout = Placement.layout r.functionPlacements 0 ns)
    (hcount : d.numbering.functions = Placement.total r.functionPlacements ns)
    (hle : Placement.total r.functionPlacements ns ≤ 255)
    (hp : ((ns ++ ms).map NetworkNode.path).Nodup) :
    Ends
      (fun d' => Placement.total r.functionPlacements (ns ++ ms) ≤ 255 ∧
        ∃ m, m.layout = Placement.layout r.functionPlacements 0 (ns ++ ms) ∧
          d' = d.withFunctions m (Placement.total r.functionPlacements (ns ++ ms)))
      (fun e => ∃ x, ((ns ++ ms).flatMap r.functionPlacements)[255]? = some x ∧
        e = .functionCapacity d.numbering.scene x.nodePath x.name)
      (fillFunctions (ms.flatMap r.functionPlacements) d) := by
  unfold fillFunctions
  rw [hcount]
  have hfill := Placement.fill_ends r.functionPlacements_proper
    (.functionCapacity d.numbering.scene) ms hlayout (show _ ≤ IdKind.function.limit from hle) hp
  refine Ends.map hfill ?_ (fun e h => h)
  rintro ⟨m, k⟩ ⟨htotal, hm, rfl⟩
  exact ⟨htotal, m, hm, rfl⟩

/-- **Adding nodes.**  The draft holds the new nodes too, or the error blames one of them. -/
theorem extend_ends (h : d.Holds r scene id ns) (ms : List NetworkNode) :
    Ends (fun d' => d'.Holds r scene id (ns ++ ms)) (fun e => e.Blames r scene (ns ++ ms))
      (d.extend r ms) := by
  have hstatic := addStaticNodes_ends (ms.map NetworkNode.path) h.lists.staticNodes
    (by rw [h.staticNodes, List.length_map]) h.fits.paths (by simpa using h.fits.nodes)
  rw [← List.map_append, h.scene] at hstatic
  refine Ends.bind (hstatic.imp (fun _ h => h) ?_) ?_
  · rintro e (⟨path, rfl, hrepeated⟩ | ⟨path, rfl, hfull⟩)
    · exact ⟨rfl, hrepeated⟩
    · exact ⟨rfl, hfull⟩
  · rintro d₁ ⟨hpaths, hnodes, rfl⟩
    refine Ends.bind ((fillProperties_ends (d := d.withStaticNodes _) h.lists.properties
      h.properties h.fits.properties hpaths).imp (fun _ h => h) ?_) ?_
    · rintro e ⟨x, hx, rfl⟩
      exact ⟨h.scene, hpaths, x, hx, rfl, rfl⟩
    · rintro d₂ ⟨hproperties, m, hm, rfl⟩
      refine (fillFunctions_ends (d := (d.withStaticNodes _).withProperties m _) h.lists.functions
        h.functions h.fits.functions hpaths).imp ?_ ?_
      · rintro d₃ ⟨hfunctions, m', hm', rfl⟩
        exact {
          fits := ⟨by simpa using hnodes, hpaths, hproperties, hfunctions⟩
          lists := ⟨rfl, hm, hm'⟩
          sceneId := h.sceneId
          isNetworkScene := h.isNetworkScene
          scene := h.scene
          staticNodes := List.length_map ..
          properties := rfl
          functions := rfl }
      · rintro e ⟨x, hx, rfl⟩
        exact ⟨h.scene, hpaths, x, hx, rfl, rfl⟩

end Draft

end NetSchema
