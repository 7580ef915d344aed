import Mathlib.Data.List.Induction
import Mathlib.Data.List.Pairwise
import NetSchema.Proofs.NodePath
import NetSchema.Proofs.Scene.PathTable

/-!
# Descriptors are named trees

Which blocks describe a tree, in terms of keys, parents and the names on the lines of descent, and
what the tree then looks like.

* `ofBlocks_tree`: a descriptor comes out exactly when the blocks describe a tree.  Its nodes are
  those of the tree, in the order of the blocks, and a parent cycle is only reported where there is
  one;
* `rooted_of_parse`: keys and paths of a descriptor do not repeat, and only the root has no parent.
-/

namespace NetSchema

/-! ## Trees of blocks -/

/-- `root` is the key of the root: the given one, which some block must have, or else that of the
first block without a parent. -/
def IsRoot (given : Option String) (blocks : List NodeBlock) (root : String) : Prop :=
  match given with
  | some key => root = key ∧ key ∈ blocks.map NodeBlock.key
  | none => ∃ before b after, blocks = before ++ b :: after ∧
      (∀ x ∈ before, x.parent ≠ none) ∧ b.parent = none ∧ b.key = root

/-- The names on a line, joined by slashes; there are none on the line of the root. -/
def linePath : List NodeBlock → String
  | [] => "."
  | b :: line => "/".intercalate ((b :: line).map NodeBlock.displayName)

/-- No two blocks have lines for which `f` gives the same path. -/
def PathsDiffer (f : List NodeBlock → String) (blocks : List NodeBlock) (root : String) : Prop :=
  blocks.Pairwise fun b b' => ∀ line line', Below blocks root b.key line →
    Below blocks root b'.key line' → f line ≠ f line'

/-- The blocks describe a tree below `root`. -/
structure IsTree (given : Option String) (blocks : List NodeBlock) (root : String) : Prop where
  keys : (blocks.map NodeBlock.key).Nodup
  isRoot : IsRoot given blocks root
  parents : ∀ b ∈ blocks, b.key ≠ root →
    ∃ parent, b.parent = some parent ∧ parent ∈ blocks.map NodeBlock.key
  reach : ∀ b ∈ blocks, b.key ≠ root → Relation.TransGen (HasParent blocks) b.key root
  paths : PathsDiffer linePath blocks root

/-- `n` is the node of the block `b` in the tree of the descriptor `d`. -/
structure IsNode (blocks : List NodeBlock) (d : Descriptor) (b : NodeBlock) (n : SceneNode) :
    Prop where
  key : n.key = b.key
  name : n.name = b.displayName
  properties : n.properties = b.properties
  «instance» : n.instance? = b.instance?
  data : n.data = b.data
  /-- The root has no parent, whatever its block says. -/
  atRoot : b.key = d.root → n.parent = none ∧ n.path = "."
  /-- Every other node has the path of its actual parent and that of the names on its line. -/
  below : b.key ≠ d.root →
    (∃ parent m, b.parent = some parent ∧ m ∈ d.nodes ∧ m.key = parent ∧ n.parent = some m.path) ∧
    (∃ line, Below blocks d.root b.key line ∧
      n.path = "/".intercalate (line.map NodeBlock.displayName))

variable {given : Option String} {blocks : List NodeBlock} {root key : String} {b : NodeBlock}
  {line : List NodeBlock} {f : List NodeBlock → String} {d : Descriptor}

/-! ## The root -/

theorem chooseRoot_eq_ok_iff : chooseRoot given blocks = .ok root ↔ IsRoot given blocks root := by
  cases given with
  | some key =>
    rw [chooseRoot, IsRoot]
    by_cases hkey : key ∈ blocks.map NodeBlock.key
    · have hfound : (findBlock? blocks key).isSome = true := by
        simpa [findBlock?] using hkey
      rw [hfound, if_pos rfl]
      simp [hkey, eq_comm]
    · rw [findBlock?_eq_none_iff.mpr hkey]
      simp [hkey]
  | none =>
    rw [chooseRoot, IsRoot]
    cases hf : blocks.find? fun b => b.parent.isNone with
    | none =>
      constructor
      · intro h
        cases h
      · rintro ⟨before, b, after, rfl, -, hb, -⟩
        simp [hb] at hf
    | some b =>
      obtain ⟨hb, before, after, hblocks, hbefore⟩ := List.find?_eq_some_iff_append.mp hf
      constructor
      · intro h
        cases h
        refine ⟨before, b, after, hblocks, ?_, by simpa using hb, rfl⟩
        intro x hx hnone
        simpa [hnone] using hbefore x hx
      · rintro ⟨before', b', after', hblocks', hbefore', hb', rfl⟩
        have hf' : blocks.find? (fun b => b.parent.isNone) = some b' := by
          rw [List.find?_eq_some_iff_append]
          refine ⟨by simp [hb'], before', after', hblocks', ?_⟩
          intro x hx
          simpa [Option.isSome_iff_ne_none] using hbefore' x hx
        rw [hf] at hf'
        cases hf'
        rfl

theorem IsRoot.mem (h : IsRoot given blocks root) : root ∈ blocks.map NodeBlock.key :=
  key_mem_of_chooseRoot (chooseRoot_eq_ok_iff.mpr h)

/-! ## Joined names -/

theorem linePath_concat (hne : line ≠ []) (b : NodeBlock) :
    linePath (line ++ [b]) = linePath line ++ "/" ++ b.displayName := by
  cases line with
  | nil => exact absurd rfl hne
  | cons x xs =>
    rw [List.cons_append, linePath, linePath, ← List.cons_append, List.map_append,
      String.intercalate_append_of_ne_nil (by simp) (by simp)]
    simp

/-- Names lead through a line by joining them, unless the topmost is that of the root. -/
theorem pathOf_eq_linePath (h : ∀ b ∈ line.head?, b.displayName ≠ ".") :
    pathOf line = linePath line := by
  induction line using List.reverseRecOn with
  | nil => rfl
  | append_singleton line b ih =>
    rw [pathOf_concat]
    cases line with
    | nil => simp [pathOf, NodePath.child, linePath]
    | cons x xs =>
      have hx : x.displayName ≠ "." := h x (by simp)
      have hbelow : linePath (x :: xs) ≠ NodePath.root := by
        cases xs with
        | nil => simpa [linePath, NodePath.root] using hx
        | cons y ys =>
          rw [linePath, List.map_cons, List.map_cons, String.intercalate_cons_cons]
          exact slash_ne_root _ _
      rw [ih (by simpa using hx), NodePath.child, if_neg hbelow, linePath_concat (by simp)]

/-- The topmost block of a line stands directly below the root. -/
theorem Below.head (h : Below blocks root key line) (hb : b ∈ line.head?) :
    b ∈ blocks ∧ b.key ≠ root ∧ Below blocks root b.key [b] := by
  induction h with
  | root => cases hb
  | @child key parent b' line hb' hk hne hp habove ih =>
    cases line with
    | nil =>
      cases hb
      have hself : Below blocks root b.key ([] ++ [b]) := .child hb' rfl (hk ▸ hne) hp habove
      exact ⟨hb', hk ▸ hne, hself⟩
    | cons x xs => exact ih hb

/-- Where paths differ, no block directly below the root has the path of the root. -/
theorem PathsDiffer.head_ne (hd : PathsDiffer f blocks root) (hnil : f [] = ".")
    (hone : ∀ b, f [b] = b.displayName) (hroot : root ∈ blocks.map NodeBlock.key)
    (h : Below blocks root key line) : ∀ b ∈ line.head?, b.displayName ≠ "." := by
  intro b hb hname
  obtain ⟨hmem, hne, hline⟩ := h.head hb
  obtain ⟨r, hr, rfl⟩ := List.mem_map.mp hroot
  have : Std.Symm fun b b' : NodeBlock => ∀ line line', Below blocks r.key b.key line →
      Below blocks r.key b'.key line' → f line ≠ f line' :=
    ⟨fun _ _ h line line' hl hl' => (h line' line hl' hl).symm⟩
  have hother : b ≠ r := fun h => hne (h ▸ rfl)
  apply List.Pairwise.forall hd hmem hr hother [b] [] hline .root
  rw [hone, hname, hnil]

theorem pathsDiffer_congr {g : List NodeBlock → String}
    (h : ∀ key line, Below blocks root key line → f line = g line)
    (hd : PathsDiffer f blocks root) : PathsDiffer g blocks root := by
  refine List.Pairwise.imp ?_ hd
  intro b b' hne line line' hl hl'
  rw [← h _ _ hl, ← h _ _ hl']
  exact hne line line' hl hl'

theorem pathsDiffer_iff (hroot : root ∈ blocks.map NodeBlock.key) :
    PathsDiffer pathOf blocks root ↔ PathsDiffer linePath blocks root := by
  constructor
  · intro hd
    refine pathsDiffer_congr (fun key line hl => ?_) hd
    exact pathOf_eq_linePath (hd.head_ne rfl (fun _ => rfl) hroot hl)
  · intro hd
    refine pathsDiffer_congr (fun key line hl => ?_) hd
    exact (pathOf_eq_linePath (hd.head_ne rfl (by simp [linePath]) hroot hl)).symm

/-! ## The nodes -/

/-- Placing `b` gives `n`. -/
def Places (blocks : List NodeBlock) (root : String) (b : NodeBlock) (n : SceneNode) : Prop :=
  b ∈ blocks ∧ ∃ line, Below blocks root b.key line ∧ n = b.placed root line

theorem placeNode_eq_ok_iff (hkeys : (blocks.map NodeBlock.key).Nodup) (hb : b ∈ blocks)
    {n : SceneNode} : placeNode blocks root b = .ok n ↔ Places blocks root b n := by
  rw [placeNode_eq]
  constructor
  · intro h
    cases hl : lineage blocks root b.key [] b.key with
    | error e =>
      rw [hl] at h
      cases h
    | ok line =>
      rw [hl] at h
      cases h
      exact ⟨hb, line, below_of_lineage hl, rfl⟩
  · rintro ⟨-, line, hl, rfl⟩
    rw [lineage_of_below hkeys hl b.key (by simp)]
    rfl

theorem repeatedPath?_eq_none_iff {seen ns : List SceneNode} :
    repeatedPath? seen ns = none ↔
      (ns.map SceneNode.path).Nodup ∧ ∀ n ∈ ns, ∀ m ∈ seen, m.path ≠ n.path := by
  induction ns generalizing seen with
  | nil => simp [repeatedPath?]
  | cons n ns ih =>
    rw [repeatedPath?, List.map_cons, List.nodup_cons]
    cases hf : seen.find? fun m => m.path = n.path with
    | some m =>
      have hm := List.mem_of_find?_eq_some hf
      have hpath : m.path = n.path := by simpa using List.find?_some hf
      constructor
      · intro h
        cases h
      · intro h
        exact absurd hpath (h.2 n (List.mem_cons_self ..) m hm)
    | none =>
      have hnew : ∀ m ∈ seen, m.path ≠ n.path := by simpa using hf
      dsimp only
      rw [ih]
      constructor
      · rintro ⟨hnodup, hall⟩
        refine ⟨⟨?_, hnodup⟩, ?_⟩
        · intro hmem
          obtain ⟨x, hx, hpath⟩ := List.mem_map.mp hmem
          exact hall x hx n (by simp) hpath.symm
        · intro x hx m hm
          rcases List.mem_cons.mp hx with rfl | hx
          · exact hnew m hm
          · exact hall x hx m (List.mem_append_left _ hm)
      · rintro ⟨⟨hout, hnodup⟩, hall⟩
        refine ⟨hnodup, fun x hx m hm => ?_⟩
        rcases List.mem_append.mp hm with hm | hm
        · exact hall x (List.mem_cons_of_mem _ hx) m hm
        · obtain rfl := List.mem_singleton.mp hm
          exact fun h => hout (h ▸ List.mem_map_of_mem hx)

theorem places_of_mapM (hkeys : (blocks.map NodeBlock.key).Nodup) {ns : List SceneNode} :
    blocks.mapM (placeNode blocks root) = .ok ns ↔
      List.Forall₂ (Places blocks root) blocks ns := by
  rw [mapM_eq_ok_iff]
  constructor
  · intro h
    have hmem := (List.forall₂_and_left (p := (· ∈ blocks)) blocks ns).mpr ⟨fun _ hb => hb, h⟩
    exact hmem.imp fun b n hn => (placeNode_eq_ok_iff hkeys hn.1).mp hn.2
  · intro h
    exact h.imp fun b n hn => (placeNode_eq_ok_iff hkeys hn.1).mpr hn

theorem ofBlocks_eq_ok_iff : Descriptor.ofBlocks given blocks = .ok d ↔
    (blocks.map NodeBlock.key).Nodup ∧ IsRoot given blocks d.root ∧
      List.Forall₂ (Places blocks d.root) blocks d.nodes ∧ (d.nodes.map SceneNode.path).Nodup := by
  rw [← chooseRoot_eq_ok_iff, ← repeatedKey?_nil, ofBlocks_eq]
  constructor
  · intro h
    split at h
    · cases h
    · next hrep =>
      split at h
      · cases h
      · next root hroot =>
        split at h
        · cases h
        · next ns hm =>
          split at h
          · cases h
          · next hp =>
            cases h
            have hplaces := (places_of_mapM (repeatedKey?_nil.mp hrep)).mp hm
            exact ⟨hrep, hroot, hplaces, (repeatedPath?_eq_none_iff.mp hp).1⟩
  · rintro ⟨hrep, hroot, hplaces, hpaths⟩
    have hm := (places_of_mapM (repeatedKey?_nil.mp hrep)).mpr hplaces
    have hp : repeatedPath? [] d.nodes = none :=
      repeatedPath?_eq_none_iff.mpr ⟨hpaths, by simp⟩
    simp only [hrep, hroot, hm, hp]

theorem pairwise_iff_of_forall₂ {α β : Type} {R : α → β → Prop} {S : α → α → Prop}
    {T : β → β → Prop} (hST : ∀ {a a' b b'}, R a b → R a' b' → (S a a' ↔ T b b'))
    {as : List α} {bs : List β} (h : List.Forall₂ R as bs) : as.Pairwise S ↔ bs.Pairwise T := by
  induction h with
  | nil => simp
  | @cons a b as bs hab habs ih =>
    rw [List.pairwise_cons, List.pairwise_cons, ih]
    have hhead : (∀ a' ∈ as, S a a') ↔ ∀ b' ∈ bs, T b b' := by
      clear ih
      induction habs with
      | nil => simp
      | cons hab' _ ih => rw [List.forall_mem_cons, List.forall_mem_cons, hST hab hab', ih]
    rw [hhead]

theorem exists_of_forall₂ {α β : Type} {R : α → β → Prop} {as : List α} {bs : List β}
    (h : List.Forall₂ R as bs) {a : α} (ha : a ∈ as) : ∃ b ∈ bs, R a b := by
  induction h with
  | nil => cases ha
  | @cons a' b as bs hab _ ih =>
    rcases List.mem_cons.mp ha with rfl | ha
    · exact ⟨b, List.mem_cons_self .., hab⟩
    · obtain ⟨b', hb', hab'⟩ := ih ha
      exact ⟨b', List.mem_cons_of_mem _ hb', hab'⟩

/-- The nodes have different paths when the blocks do. -/
theorem paths_nodup_iff (hkeys : (blocks.map NodeBlock.key).Nodup) {ns : List SceneNode}
    (h : List.Forall₂ (Places blocks root) blocks ns) :
    (ns.map SceneNode.path).Nodup ↔ PathsDiffer pathOf blocks root := by
  rw [List.Nodup, List.pairwise_map, PathsDiffer]
  refine (pairwise_iff_of_forall₂ ?_ h).symm
  rintro b b' n n' ⟨hb, line, hl, rfl⟩ ⟨hb', line', hl', rfl⟩
  rw [path_placed hkeys hb hl, path_placed hkeys hb' hl']
  constructor
  · intro hne
    exact hne line line' hl hl'
  · intro hne above above' ha ha'
    rwa [ha.unique hkeys hl, ha'.unique hkeys hl']

/-! ## What is accepted -/

theorem isTree_of_ofBlocks (h : Descriptor.ofBlocks given blocks = .ok d) :
    IsTree given blocks d.root := by
  obtain ⟨hkeys, hroot, hplaces, hpaths⟩ := ofBlocks_eq_ok_iff.mp h
  have hline : ∀ b ∈ blocks, ∃ line, Below blocks d.root b.key line := by
    intro b hb
    obtain ⟨n, -, -, line, hl, -⟩ := exists_of_forall₂ hplaces hb
    exact ⟨line, hl⟩
  constructor
  · exact hkeys
  · exact hroot
  · intro b hb hne
    obtain ⟨line, hl⟩ := hline b hb
    obtain ⟨parent, above, hp, habove, -⟩ := hl.parent hkeys hb hne
    exact ⟨parent, hp, habove.key_mem hroot.mem⟩
  · intro b hb hne
    obtain ⟨line, hl⟩ := hline b hb
    rcases Relation.reflTransGen_iff_eq_or_transGen.mp (reaches_of_below hl) with heq | h
    · exact absurd heq.symm hne
    · exact h
  · exact (pathsDiffer_iff hroot.mem).mp ((paths_nodup_iff hkeys hplaces).mp hpaths)

theorem ofBlocks_of_isTree (h : IsTree given blocks root) :
    ∃ d, Descriptor.ofBlocks given blocks = .ok d := by
  have hline : ∀ b ∈ blocks, ∃ line, Below blocks root b.key line := by
    intro b hb
    by_cases hroot : b.key = root
    · exact ⟨[], hroot ▸ .root⟩
    · exact below_of_reaches (h.reach b hb hroot).to_reflTransGen
  cases hm : blocks.mapM (placeNode blocks root) with
  | error e =>
    obtain ⟨b, hb, he⟩ := exists_of_mapM_error hm
    obtain ⟨line, hl⟩ := hline b hb
    have hok := (placeNode_eq_ok_iff h.keys hb).mpr ⟨hb, line, hl, rfl⟩
    rw [he] at hok
    cases hok
  | ok ns =>
    have hplaces := (places_of_mapM h.keys).mp hm
    refine ⟨⟨root, ns⟩, ofBlocks_eq_ok_iff.mpr ⟨h.keys, h.isRoot, hplaces, ?_⟩⟩
    exact (paths_nodup_iff h.keys hplaces).mpr ((pathsDiffer_iff h.isRoot.mem).mpr h.paths)

/-! ## What comes out -/

/-- Every key on a line is that of a node, which the line leads to. -/
theorem exists_node_of_below (h : Descriptor.ofBlocks given blocks = .ok d)
    (hl : Below blocks d.root key line) : ∃ m ∈ d.nodes, m.key = key ∧ m.path = pathOf line := by
  obtain ⟨hkeys, hroot, hplaces, -⟩ := ofBlocks_eq_ok_iff.mp h
  obtain ⟨b, hb, rfl⟩ := List.mem_map.mp (hl.key_mem hroot.mem)
  obtain ⟨n, hn, -, line', hl', rfl⟩ := exists_of_forall₂ hplaces hb
  refine ⟨_, hn, rfl, ?_⟩
  rw [path_placed hkeys hb hl', hl'.unique hkeys hl]

theorem isNode_of_ofBlocks (h : Descriptor.ofBlocks given blocks = .ok d) :
    List.Forall₂ (IsNode blocks d) blocks d.nodes := by
  obtain ⟨hkeys, hroot, hplaces, hpaths⟩ := ofBlocks_eq_ok_iff.mp h
  have hdiffer := (paths_nodup_iff hkeys hplaces).mp hpaths
  refine hplaces.imp fun b n hn => ?_
  obtain ⟨hb, line, hl, rfl⟩ := hn
  have hpath := path_placed hkeys hb hl
  refine ⟨rfl, rfl, rfl, rfl, rfl, ?_, ?_⟩
  · intro hkey
    rw [hkey] at hl
    obtain rfl := hl.root_line hkeys
    exact ⟨by simp [NodeBlock.placed, hkey], hpath⟩
  · intro hne
    obtain ⟨parent, above, hp, habove, rfl⟩ := hl.parent hkeys hb hne
    obtain ⟨m, hm, hmkey, hmpath⟩ := exists_node_of_below h habove
    have hhead := hdiffer.head_ne rfl (fun _ => rfl) hroot.mem hl
    have hline : linePath (above ++ [b]) =
        "/".intercalate ((above ++ [b]).map NodeBlock.displayName) := by
      cases above <;> rfl
    refine ⟨⟨parent, m, hp, hm, hmkey, ?_⟩, above ++ [b], hl, ?_⟩
    · simp [NodeBlock.placed, hne, hmpath]
    · rw [hpath, pathOf_eq_linePath hhead, hline]

/-! ## Descriptors -/

/-- What every descriptor has in common: keys and paths do not repeat, and the root is the only node
without a parent and the only one at the path of the root. -/
structure Descriptor.Rooted (d : Descriptor) : Prop where
  keys : (d.nodes.map SceneNode.key).Nodup
  paths : (d.nodes.map SceneNode.path).Nodup
  root : ∃ n ∈ d.nodes, n.key = d.root
  isRoot_iff : ∀ n ∈ d.nodes, n.isRoot = true ↔ n.key = d.root
  path_iff : ∀ n ∈ d.nodes, n.path = NodePath.root ↔ n.key = d.root

theorem rooted_of_ofBlocks (h : Descriptor.ofBlocks given blocks = .ok d) : d.Rooted := by
  obtain ⟨hkeys, -, hplaces, hpaths⟩ := ofBlocks_eq_ok_iff.mp h
  have hsame : d.nodes.map SceneNode.key = blocks.map NodeBlock.key := by
    rw [eq_comm, ← List.forall₂_eq_eq_eq, List.forall₂_map_left_iff, List.forall₂_map_right_iff]
    refine hplaces.imp ?_
    rintro b n ⟨-, line, -, rfl⟩
    rfl
  obtain ⟨r, hr, hrkey, hrpath⟩ := exists_node_of_below h .root
  have hplaced : ∀ n ∈ d.nodes, ∃ b, Places blocks d.root b n := by
    intro n hn
    obtain ⟨b, -, hb⟩ := exists_of_forall₂ hplaces.flip hn
    exact ⟨b, hb⟩
  refine ⟨hsame ▸ hkeys, hpaths, ⟨r, hr, hrkey⟩, ?_, ?_⟩
  · intro n hn
    obtain ⟨b, -, line, -, rfl⟩ := hplaced n hn
    unfold SceneNode.isRoot NodeBlock.placed
    split <;> simp_all
  · intro n hn
    constructor
    · intro hpath
      rw [List.inj_on_of_nodup_map hpaths hn hr (hpath.trans hrpath.symm), hrkey]
    · intro hkey
      have hkeys' : (d.nodes.map SceneNode.key).Nodup := hsame ▸ hkeys
      rw [List.inj_on_of_nodup_map hkeys' hn hr (hkey.trans hrkey.symm), hrpath]
      rfl

theorem rooted_of_parse {text : String} (h : Descriptor.parse text = .ok d) : d.Rooted := by
  obtain ⟨⟨given, blocks⟩, -, h⟩ := bind_eq_ok_iff.mp h
  exact rooted_of_ofBlocks h

theorem Descriptor.Rooted.rootNode? (h : d.Rooted) {n : SceneNode} (hn : n ∈ d.nodes)
    (hkey : n.key = d.root) : d.rootNode? = some n := by
  unfold Descriptor.rootNode? Descriptor.node?
  cases hf : d.nodes.find? fun n => n.key = d.root with
  | none =>
    have hnone := List.find?_eq_none.mp hf n hn
    simp [hkey] at hnone
  | some m =>
    have hm := List.mem_of_find?_eq_some hf
    have hmkey : m.key = d.root := by simpa using List.find?_some hf
    rw [List.inj_on_of_nodup_map h.keys hm hn (hmkey.trans hkey.symm)]

/-! ## Cycles -/

theorem chooseRoot_ne_cycle : chooseRoot given blocks ≠ .error (.parentCycle key) := by
  intro h
  unfold chooseRoot at h
  split at h <;> split at h <;> cases h

theorem repeatedPath?_ne_cycle {seen ns : List SceneNode} :
    repeatedPath? seen ns ≠ some (.parentCycle key) := by
  induction ns generalizing seen with
  | nil => simp [repeatedPath?]
  | cons n ns ih =>
    rw [repeatedPath?]
    split
    · simp
    · exact ih

theorem cycle_of_ofBlocks (h : Descriptor.ofBlocks given blocks = .error (.parentCycle key)) :
    Relation.TransGen (HasParent blocks) key key := by
  rw [ofBlocks_eq] at h
  split at h
  · cases h
  · split at h
    · next e hroot =>
      cases h
      exact absurd hroot chooseRoot_ne_cycle
    · next root _ =>
      split at h
      · next e hm =>
        cases h
        obtain ⟨b, -, he⟩ := exists_of_mapM_error hm
        rw [placeNode_eq] at he
        cases hl : lineage blocks root b.key [] b.key with
        | error e =>
          rw [hl] at he
          cases he
          exact cycle_of_lineage (by simp) hl
        | ok line =>
          rw [hl] at he
          cases he
      · split at h
        · next e hp =>
          cases h
          exact absurd hp repeatedPath?_ne_cycle
        · cases h

/-- **Trees.**  A descriptor comes out exactly when the blocks describe a tree; then it has the root
of the tree, and node by node in the order of the blocks what the tree says.  A reported parent
cycle leads back to the block that is named.  A table of paths shared by all blocks leads to the
same result, and never misses a look-up. -/
theorem ofBlocks_tree (given : Option String) (blocks : List NodeBlock) :
    ((∃ d, Descriptor.ofBlocks given blocks = .ok d) ↔ ∃ root, IsTree given blocks root) ∧
    (∀ d, Descriptor.ofBlocks given blocks = .ok d →
      IsTree given blocks d.root ∧ List.Forall₂ (IsNode blocks d) blocks d.nodes) ∧
    (∀ key, Descriptor.ofBlocks given blocks = .error (.parentCycle key) →
      Relation.TransGen (HasParent blocks) key key) ∧
    ofBlocksByTable given blocks = some (Descriptor.ofBlocks given blocks) := by
  refine ⟨⟨?_, ?_⟩, ?_, ?_, ?_⟩
  · rintro ⟨d, h⟩
    exact ⟨d.root, isTree_of_ofBlocks h⟩
  · rintro ⟨root, h⟩
    exact ofBlocks_of_isTree h
  · intro d h
    exact ⟨isTree_of_ofBlocks h, isNode_of_ofBlocks h⟩
  · intro key h
    exact cycle_of_ofBlocks h
  · exact ofBlocksByTable_eq given blocks

end NetSchema
