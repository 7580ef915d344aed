import NetSchema.Proofs.Compile.Refinement

/-!
# Numbers in a compiled scene

* `compile_numbers`: static nodes, properties and functions of a compiled scene are numbered from
  zero on without a gap, members stand at static nodes and under their own names, and exactly as
  many numbers were given out as there are members.
-/

namespace NetSchema

/-- Members stand at the given nodes, each under its own node path and name, and are numbered from
zero on. -/
structure NodeMembers.Numbered {α : Type} (limit : Nat) (nodePath name : α → String)
    (index : α → Nat) (nodes : List String) (m : NodeMembers α) : Prop where
  indices : m.toList.map (fun x => index x.2) = List.range m.count
  count : m.count ≤ limit
  keys : ∀ p ∈ m.keys, p ∈ nodes
  entries : ∀ {p members key a}, (p, members) ∈ m.entries → (key, a) ∈ members.entries →
    nodePath a = p ∧ name a = key

/-- Static nodes, properties and functions are numbered from zero on, and no two static nodes share
a path. -/
structure SceneData.Numbered (d : SceneData) : Prop where
  ids : d.staticNodes.map (fun x => x.1.toNat) = List.range d.staticNodes.length
  length : d.staticNodes.length ≤ 256
  paths : (d.staticNodes.map Prod.snd).Nodup
  properties : d.properties.Numbered 64 PropertyEntry.nodePath PropertyEntry.name
    (fun p => p.index.toNat) (d.staticNodes.map Prod.snd)
  functions : d.functions.Numbered 255 FunctionEntry.nodePath FunctionEntry.name
    (fun f => f.index.toNat) (d.staticNodes.map Prod.snd)

/-! ## Numbers in a layout -/

namespace Placement

variable {α : Type} {items : NetworkNode → List (Placement α)} {nodePath name : α → String}
  {index : α → Nat} {limit : Nat}

/-- An entry tells its node path, its name and, below the limit, its number. -/
structure Faithful (items : NetworkNode → List (Placement α)) (nodePath name : α → String)
    (index : α → Nat) (limit : Nat) : Prop where
  nodePath : ∀ n, ∀ x ∈ items n, ∀ i, nodePath (x.entry i) = n.path
  name : ∀ n, ∀ x ∈ items n, ∀ i, name (x.entry i) = x.name
  index : ∀ n, ∀ x ∈ items n, ∀ i < limit, index (x.entry i) = i

theorem numbered_indices {xs : List (Placement α)}
    (h : ∀ x ∈ xs, ∀ i < limit, index (x.entry i) = i) (k : Nat) (hk : k + xs.length ≤ limit) :
    (numbered k xs).map (fun e => index e.2) = List.range' k xs.length := by
  induction xs generalizing k with
  | nil => rfl
  | cons x xs ih =>
    rw [List.length_cons] at hk
    have hx := h x (List.mem_cons_self ..) k (by omega)
    rw [numbered_cons, List.map_cons, hx, List.length_cons, List.range'_succ,
      ih (fun y hy => h y (List.mem_cons_of_mem _ hy)) (k + 1) (by omega)]

theorem layout_indices (h : Faithful items nodePath name index limit) (k : Nat)
    (ns : List NetworkNode) (hk : k + total items ns ≤ limit) :
    ((layout items k ns).flatMap fun g => g.2.map fun e => index e.2) =
      List.range' k (total items ns) := by
  induction ns generalizing k with
  | nil => rfl
  | cons n ns ih =>
    rw [total_cons] at hk
    have hnode : ((if (items n).isEmpty then [] else [(n.path, numbered k (items n))]).flatMap
        fun g => g.2.map fun e => index e.2) = List.range' k (items n).length := by
      rw [← numbered_indices (h.index n) k (by omega)]
      by_cases he : (items n).isEmpty = true
      · rw [if_pos he, List.isEmpty_iff.mp he]
        rfl
      · rw [if_neg he, List.flatMap_singleton]
    rw [layout, List.flatMap_append, hnode, ih (k + (items n).length) (by omega),
      total_cons, List.range'_append_1]

/-- Every group of a layout holds the members of one node. -/
theorem exists_node_of_mem_layout {k : Nat} {ns : List NetworkNode}
    {g : String × List (String × α)} (h : g ∈ layout items k ns) :
    ∃ n ∈ ns, ∃ j, g = (n.path, numbered j (items n)) := by
  induction ns generalizing k with
  | nil => cases h
  | cons n ns ih =>
    rw [layout, List.mem_append] at h
    rcases h with h | h
    · split at h
      · cases h
      · exact ⟨n, List.mem_cons_self .., k, List.mem_singleton.mp h⟩
    · obtain ⟨m, hm, hg⟩ := ih h
      exact ⟨m, List.mem_cons_of_mem _ hm, hg⟩

theorem mem_numbered {k : Nat} {xs : List (Placement α)} {key : String} {a : α}
    (h : (key, a) ∈ numbered k xs) : ∃ x ∈ xs, ∃ i, key = x.name ∧ a = x.entry i := by
  obtain ⟨⟨x, i⟩, hx, he⟩ := List.mem_map.mp h
  obtain ⟨rfl, rfl⟩ := Prod.mk.inj he
  exact ⟨x, List.fst_mem_of_mem_zipIdx hx, i, rfl, rfl⟩

/-- Every member that is laid out is one of a node. -/
theorem exists_of_mem_entries {m : NodeMembers α} {k : Nat} {ns : List NetworkNode}
    (hm : m.layout = layout items k ns) {p key : String} {members : OrderedMap String α} {a : α}
    (hmem : (p, members) ∈ m.entries) (ha : (key, a) ∈ members.entries) :
    ∃ n ∈ ns, ∃ x ∈ items n, ∃ i, p = n.path ∧ key = x.name ∧ a = x.entry i := by
  have hg : (p, members.entries) ∈ m.layout := List.mem_map.mpr ⟨(p, members), hmem, rfl⟩
  rw [hm] at hg
  obtain ⟨n, hn, j, hg⟩ := exists_node_of_mem_layout hg
  obtain ⟨rfl, hentries⟩ := Prod.mk.inj hg
  obtain ⟨x, hx, i, rfl, rfl⟩ := mem_numbered (hentries ▸ ha)
  exact ⟨n, hn, x, hx, i, rfl, rfl, rfl⟩

/-- Members laid out for network nodes are numbered. -/
theorem numbered_of_layout (h : Faithful items nodePath name index limit) {m : NodeMembers α}
    {ns : List NetworkNode} (hm : m.layout = layout items 0 ns) (hle : total items ns ≤ limit) :
    m.count = total items ns ∧
      m.Numbered limit nodePath name index (ns.map NetworkNode.path) := by
  have hindices : m.toList.map (fun x => index x.2) = List.range (total items ns) := by
    rw [NodeMembers.toList_eq_layout, hm, List.map_flatMap, List.range_eq_range',
      ← layout_indices h 0 ns (by omega)]
    simp [Function.comp_def]
  have hcount : m.count = total items ns := by
    have hlength := congrArg List.length hindices
    rwa [List.length_map, List.length_range] at hlength
  refine ⟨hcount, hcount ▸ hindices, hcount ▸ hle, ?_, ?_⟩
  · intro p hp
    rw [NodeMembers.keys_eq_layout, hm] at hp
    exact mem_layout_keys hp
  · intro p members key a hmem ha
    obtain ⟨n, -, x, hx, i, rfl, rfl, rfl⟩ := exists_of_mem_entries hm hmem ha
    exact ⟨h.nodePath n x hx i, h.name n x hx i⟩

end Placement

namespace Rules

theorem propertyPlacements_faithful (r : Rules) :
    Placement.Faithful r.propertyPlacements PropertyEntry.nodePath PropertyEntry.name
      (fun p => p.index.toNat) 64 where
  nodePath n x hx i := by
    obtain ⟨p, -, rfl⟩ := List.mem_map.mp hx
    rfl
  name n x hx i := by
    obtain ⟨p, -, rfl⟩ := List.mem_map.mp hx
    rfl
  index n x hx i hi := by
    obtain ⟨p, -, rfl⟩ := List.mem_map.mp hx
    exact ByteId.toNat_ofNat (show i < IdKind.property.limit from hi)

theorem functionPlacements_faithful (r : Rules) :
    Placement.Faithful r.functionPlacements FunctionEntry.nodePath FunctionEntry.name
      (fun f => f.index.toNat) 255 where
  nodePath n x hx i := by
    obtain ⟨f, -, rfl⟩ := List.mem_map.mp hx
    rfl
  name n x hx i := by
    obtain ⟨f, -, rfl⟩ := List.mem_map.mp hx
    rfl
  index n x hx i hi := by
    obtain ⟨f, -, rfl⟩ := List.mem_map.mp hx
    exact ByteId.toNat_ofNat (show i < IdKind.function.limit from hi)

end Rules

/-! ## Numbers in a draft -/

/-- A draft that holds network nodes is numbered, and has given out as many numbers as it has
things of each kind. -/
theorem Draft.Holds.numbered {r : Rules} {scene : String} {id : Option SceneId}
    {ns : List NetworkNode} {d : Draft} (h : d.Holds r scene id ns) :
    d.data.Numbered ∧ d.numbering.staticNodes = d.data.staticNodes.length ∧
      d.numbering.properties = d.data.propertyCount ∧
      d.numbering.functions = d.data.functionCount := by
  have hpaths : d.data.staticNodes.map Prod.snd = ns.map NetworkNode.path := by
    rw [h.lists.staticNodes, ByteId.enumerate_map_snd]
  have hlength : d.data.staticNodes.length = ns.length := by
    have hlength := congrArg List.length hpaths
    rwa [List.length_map, List.length_map] at hlength
  obtain ⟨hpcount, hproperties⟩ := Placement.numbered_of_layout r.propertyPlacements_faithful
    h.lists.properties h.fits.properties
  obtain ⟨hfcount, hfunctions⟩ := Placement.numbered_of_layout r.functionPlacements_faithful
    h.lists.functions h.fits.functions
  refine ⟨⟨?_, ?_, ?_, ?_, ?_⟩, ?_, ?_, ?_⟩
  · rw [hlength, h.lists.staticNodes, ByteId.enumerate_map_fst, List.length_map]
    rw [List.length_map]
    exact h.fits.nodes
  · rw [hlength]
    exact h.fits.nodes
  · rw [hpaths]
    exact h.fits.paths
  · rw [hpaths]
    exact hproperties
  · rw [hpaths]
    exact hfunctions
  · rw [h.staticNodes, hlength]
  · rw [h.properties, SceneData.propertyCount, hpcount]
  · rw [h.functions, SceneData.functionCount, hfcount]

namespace Compiler

variable {c : Compiler}

/-- While the descriptor at `path` is the innermost one under way, walking its nodes ends with
`draft`. -/
def WalkEnds (c : Compiler) (path : String) (draft : Draft) : Prop :=
  ∃ t outer d hn id s s', s.PendingIs (outer ++ [path]) ∧ c.descriptor? path = some d ∧
    c.walk t (outer ++ [path]) path d.nodes hn (.start path id) s = (.ok draft, s')

theorem Drafts.walkEnds {path : String} {draft : Draft} (h : c.Drafts path draft) :
    c.WalkEnds path draft := by
  obtain ⟨d, hd, outer, id, s, s', hs, hw⟩ := h
  obtain ⟨text, hl, hp⟩ := exists_text_of_descriptor? hd
  let t := territory c.source path
  have hn : ∀ n ∈ d.nodes, ∀ inst, n.instance? = some inst → inst ∈ t.paths :=
    fun n hn inst hi => t.closed hl hp hn hi
  have hwalk := walk_traverses t (outer ++ [path]) path d.nodes hn (.start path id) s hs
  obtain ⟨hr, hs'⟩ := hwalk.unique hw
  exact ⟨t, outer, d, hn, id, s, s', hs, hd, Prod.ext hr hs'⟩

/-- **Numbers have no gaps.**  A scene that was compiled, just now or by earlier calls, is numbered,
and the walk that collected it gave out exactly one number for each thing that it has. -/
theorem compile_numbers (c : Compiler) (calls : List Call) (path : String) (data : SceneData)
    (h : (c.compile path (c.after calls)).1 = .ok data ∨
      (c.after calls).memo.completed? path = some data) :
    data.Numbered ∧ ∃ draft, c.WalkEnds path draft ∧ draft.data = data ∧
      draft.numbering.staticNodes = data.staticNodes.length ∧
      draft.numbering.properties = data.propertyCount ∧
      draft.numbering.functions = data.functionCount := by
  have hcompiled : c.Compiled path data := by
    rcases h with h | h
    · exact compiled_of_ok h
    · exact (after_sound calls).compiled (Memo.completed?_eq_some_iff.mp h)
  obtain ⟨draft, ns, hdraft, rfl, -, hholds⟩ := hcompiled.held
  obtain ⟨hnumbered, hstatic, hproperties, hfunctions⟩ := hholds.numbered
  exact ⟨hnumbered, draft, hdraft.walkEnds, rfl, hstatic, hproperties, hfunctions⟩

/-- The two heroes of the arena have one property and one function each. -/
theorem arena_is_numbered :
    (Arena.compiler.compile "arena" (Arena.compiler.after [])).1 = .ok Arena.arenaDraft.data ∧
      Arena.arenaDraft.data.Numbered ∧ ∃ draft, Arena.compiler.WalkEnds "arena" draft ∧
        draft.data = Arena.arenaDraft.data ∧ draft.numbering.properties = 2 ∧
        draft.numbering.functions = 2 := by
  obtain ⟨hnumbered, draft, hwalk, hdata, -, hproperties, hfunctions⟩ :=
    compile_numbers Arena.compiler [] "arena" Arena.arenaDraft.data (.inl Arena.compile_arena)
  refine ⟨Arena.compile_arena, hnumbered, draft, hwalk, hdata, hproperties.trans ?_,
    hfunctions.trans ?_⟩
  · decide +kernel
  · decide +kernel

end Compiler

end NetSchema
