import Mathlib.Data.List.Nodup
import Mathlib.Logic.Relation
import NetSchema.Proofs.Results
import NetSchema.Scene.Descriptor

/-!
# Lines of descent

The parents that node blocks name lead from a block up to the root, or nowhere.  `Below` says that
they lead to the root and through which blocks.

* `Below.unique`, `Below.not_mem`: a block has one line, in which no key repeats;
* `below_of_lineage`, `lineage_of_below`: `lineage` finds it whenever there is one;
* `cycle_of_lineage`: a parent cycle that it reports is there;
* `path_placed`: the path of a placed node leads through its line.
-/

namespace NetSchema

/-- Some block called `child` gives `parent` as the key of its parent. -/
def HasParent (blocks : List NodeBlock) (child parent : String) : Prop :=
  ∃ b ∈ blocks, b.key = child ∧ b.parent = some parent

/-- `Below blocks root key line`: going down from the root through the blocks of `line` leads to the
block called `key`.  The root has no blocks above it, whatever parent it names. -/
inductive Below (blocks : List NodeBlock) (root : String) : String → List NodeBlock → Prop
  | root : Below blocks root root []
  | child {key parent b line} : b ∈ blocks → b.key = key → key ≠ root → b.parent = some parent →
      Below blocks root parent line → Below blocks root key (line ++ [b])

variable {blocks : List NodeBlock} {root key child : String} {b : NodeBlock}
  {line line' : List NodeBlock}

/-! ## Finding blocks -/

theorem mem_of_findBlock? (h : findBlock? blocks key = some b) : b ∈ blocks ∧ b.key = key := by
  constructor
  · exact List.mem_of_find?_eq_some h
  · simpa using List.find?_some h

/-- No two blocks have the same key. -/
theorem block_unique (hkeys : (blocks.map NodeBlock.key).Nodup) {b b' : NodeBlock}
    (hb : b ∈ blocks) (hb' : b' ∈ blocks) (h : b.key = b'.key) : b = b' :=
  List.inj_on_of_nodup_map hkeys hb hb' h

theorem findBlock?_eq_none_iff : findBlock? blocks key = none ↔ key ∉ blocks.map NodeBlock.key := by
  simp [findBlock?]

theorem findBlock?_of_mem (hkeys : (blocks.map NodeBlock.key).Nodup) (hb : b ∈ blocks) :
    findBlock? blocks b.key = some b := by
  cases hf : findBlock? blocks b.key with
  | none => exact absurd (List.mem_map_of_mem hb) (findBlock?_eq_none_iff.mp hf)
  | some b' =>
    obtain ⟨hb', hk⟩ := mem_of_findBlock? hf
    rw [block_unique hkeys hb' hb hk]

theorem repeatedKey?_eq_none_iff {seen : List String} {bs : List NodeBlock} :
    repeatedKey? seen bs = none ↔ (bs.map NodeBlock.key).Nodup ∧ ∀ b ∈ bs, b.key ∉ seen := by
  induction bs generalizing seen with
  | nil => simp [repeatedKey?]
  | cons b bs ih =>
    rw [repeatedKey?, List.map_cons, List.nodup_cons]
    by_cases hb : b.key ∈ seen
    · rw [if_pos hb]
      constructor
      · intro h
        cases h
      · intro h
        exact absurd hb (h.2 b (List.mem_cons_self ..))
    · rw [if_neg hb, ih]
      constructor
      · rintro ⟨hnodup, hnew⟩
        refine ⟨⟨?_, hnodup⟩, ?_⟩
        · intro hmem
          obtain ⟨x, hx, hkey⟩ := List.mem_map.mp hmem
          exact hnew x hx (hkey ▸ List.mem_cons_self ..)
        · intro x hx
          rcases List.mem_cons.mp hx with rfl | hx
          · exact hb
          · exact fun h => hnew x hx (List.mem_cons_of_mem _ h)
      · rintro ⟨⟨hout, hnodup⟩, hnew⟩
        refine ⟨hnodup, fun x hx hmem => ?_⟩
        rcases List.mem_cons.mp hmem with hkey | hmem
        · exact hout (hkey ▸ List.mem_map_of_mem hx)
        · exact hnew x (List.mem_cons_of_mem _ hx) hmem

theorem repeatedKey?_nil : repeatedKey? [] blocks = none ↔ (blocks.map NodeBlock.key).Nodup := by
  simp [repeatedKey?_eq_none_iff]

theorem key_mem_of_chooseRoot {given : Option String} (h : chooseRoot given blocks = .ok root) :
    root ∈ blocks.map NodeBlock.key := by
  cases given with
  | some key =>
    rw [chooseRoot] at h
    split at h
    · next hfound =>
      cases h
      obtain ⟨b, hb⟩ := Option.isSome_iff_exists.mp hfound
      exact key_mem_of_findBlock? hb
    · cases h
  | none =>
    rw [chooseRoot] at h
    split at h
    · next b hb =>
      cases h
      exact List.mem_map_of_mem (List.mem_of_find?_eq_some hb)
    · cases h

/-! ## Lines -/

theorem Below.unique (hkeys : (blocks.map NodeBlock.key).Nodup) (h : Below blocks root key line)
    (h' : Below blocks root key line') : line = line' := by
  induction h generalizing line' with
  | root =>
    cases h' with
    | root => rfl
    | child _ _ hne _ _ => exact absurd rfl hne
  | child hb hk hne hp _ ih =>
    cases h' with
    | root => exact absurd rfl hne
    | child hb' hk' _ hp' habove =>
      obtain rfl := block_unique hkeys hb hb' (hk.trans hk'.symm)
      obtain rfl := Option.some.inj (hp.symm.trans hp')
      rw [ih habove]

/-- The line of a block ends with the block itself, and the rest is that of its parent. -/
theorem Below.parent (hkeys : (blocks.map NodeBlock.key).Nodup) (hb : b ∈ blocks)
    (h : Below blocks root b.key line) (hne : b.key ≠ root) :
    ∃ parent above, b.parent = some parent ∧ Below blocks root parent above ∧
      line = above ++ [b] := by
  generalize hkey : b.key = key at h hne
  cases h with
  | root => exact absurd rfl hne
  | child hb' hk' _ hp habove =>
    obtain rfl := block_unique hkeys hb hb' (hkey.trans hk'.symm)
    exact ⟨_, _, hp, habove, rfl⟩

theorem Below.root_line (hkeys : (blocks.map NodeBlock.key).Nodup)
    (h : Below blocks root root line) : line = [] :=
  h.unique hkeys .root

theorem Below.key_mem (h : Below blocks root key line) (hroot : root ∈ blocks.map NodeBlock.key) :
    key ∈ blocks.map NodeBlock.key := by
  cases h with
  | root => exact hroot
  | child hb hk _ _ _ => exact hk ▸ List.mem_map_of_mem hb

/-- Every block of a line has its own line, which is the part that ends with it. -/
theorem Below.of_mem (h : Below blocks root key line) (hb : b ∈ line) :
    ∃ above, above <+: line ∧ Below blocks root b.key above := by
  induction h with
  | root => cases hb
  | @child key parent b' line hb' hk hne hp habove ih =>
    rcases List.mem_append.mp hb with hin | hlast
    · obtain ⟨above, hprefix, h⟩ := ih hin
      exact ⟨above, hprefix.trans (List.prefix_append _ _), h⟩
    · obtain rfl := List.mem_singleton.mp hlast
      exact ⟨line ++ [b], List.prefix_rfl, .child hb' rfl (hk ▸ hne) hp habove⟩

/-- A block that a line leads on to is not in the line. -/
theorem Below.not_mem (hkeys : (blocks.map NodeBlock.key).Nodup)
    {more : List NodeBlock} (hmore : more ≠ []) (hlonger : Below blocks root key (line ++ more))
    {last : String} (h : Below blocks root last line) : key ∉ line.map NodeBlock.key := by
  intro hmem
  obtain ⟨b, hb, rfl⟩ := List.mem_map.mp hmem
  obtain ⟨above, hprefix, habove⟩ := h.of_mem hb
  rw [habove.unique hkeys hlonger] at hprefix
  have hle := hprefix.length_le
  have hpos := List.length_pos_iff.mpr hmore
  rw [List.length_append] at hle
  omega

theorem reaches_of_below (h : Below blocks root key line) :
    Relation.ReflTransGen (HasParent blocks) key root := by
  induction h with
  | root => exact .refl
  | child hb hk _ hp _ ih => exact .head ⟨_, hb, hk, hp⟩ ih

theorem below_of_reaches (h : Relation.ReflTransGen (HasParent blocks) key root) :
    ∃ line, Below blocks root key line := by
  induction h using Relation.ReflTransGen.head_induction_on with
  | refl => exact ⟨[], .root⟩
  | @head key parent hstep _ ih =>
    obtain ⟨line, habove⟩ := ih
    obtain ⟨b, hb, hk, hp⟩ := hstep
    by_cases hroot : key = root
    · exact ⟨[], hroot ▸ .root⟩
    · exact ⟨line ++ [b], .child hb hk hroot hp habove⟩

/-! ## Looking for the line -/

theorem lineage_of_found {seen : List String} (hne : key ≠ root)
    (hb : findBlock? blocks key = some b) :
    lineage blocks root child seen key =
      if key ∈ seen then .error (.parentCycle key)
      else
        match b.parent with
        | none => .error (.orphanNode key)
        | some parent => (lineage blocks root key (key :: seen) parent).map (· ++ [b]) := by
  rw [lineage, if_neg hne]
  split
  · next hnone => simp [hb] at hnone
  · next b' hb' =>
    obtain rfl := Option.some.inj (hb.symm.trans hb')
    by_cases hs : key ∈ seen
    · rw [dif_pos hs, if_pos hs]
    · rw [dif_neg hs, if_neg hs]
      cases b.parent with
      | none => rfl
      | some parent =>
        dsimp only
        cases lineage blocks root key (key :: seen) parent <;> rfl

theorem lineage_of_unknown {seen : List String} (hne : key ≠ root)
    (hb : findBlock? blocks key = none) :
    lineage blocks root child seen key = .error (.unknownParent child key) := by
  rw [lineage, if_neg hne]
  split
  · rfl
  · next b' hb' => simp [hb] at hb'

theorem below_of_lineage {seen : List String}
    (h : lineage blocks root child seen key = .ok line) : Below blocks root key line := by
  fun_induction lineage blocks root child seen key generalizing line with
  | case1 =>
    cases h
    exact .root
  | case5 child seen key hroot b hb hs parent hp hlt above habove ih =>
    cases h
    obtain ⟨hmem, hk⟩ := mem_of_findBlock? hb
    exact .child hmem hk hroot hp (ih habove)
  | _ => cases h

theorem lineage_of_below (hkeys : (blocks.map NodeBlock.key).Nodup)
    (h : Below blocks root key line) (child : String) {seen : List String}
    (hseen : ∀ b ∈ line, b.key ∉ seen) : lineage blocks root child seen key = .ok line := by
  induction h generalizing child seen with
  | root => rw [lineage, if_pos rfl]
  | @child key parent b line hb hk hne hp habove ih =>
    have hline : Below blocks root key (line ++ [b]) := .child hb hk hne hp habove
    have hout : key ∉ line.map NodeBlock.key := Below.not_mem hkeys (by simp) hline habove
    have hnew : key ∉ seen := hk ▸ hseen b (by simp)
    have hrest : lineage blocks root key (key :: seen) parent = .ok line := by
      apply ih
      intro x hx hmem
      rcases List.mem_cons.mp hmem with he | hmem
      · exact hout (he ▸ List.mem_map_of_mem hx)
      · exact hseen x (List.mem_append_left _ hx) hmem
    have hfind : findBlock? blocks key = some b := hk ▸ findBlock?_of_mem hkeys hb
    rw [lineage_of_found hne hfind, if_neg hnew]
    simp only [hp, hrest]
    rfl

/-- **Reported cycles exist.**  The keys passed on the way lead to `key`. -/
theorem cycle_of_lineage {seen : List String} {k : String}
    (hseen : ∀ x ∈ seen, Relation.TransGen (HasParent blocks) x key)
    (h : lineage blocks root child seen key = .error (.parentCycle k)) :
    Relation.TransGen (HasParent blocks) k k := by
  fun_induction lineage blocks root child seen key with
  | case3 child seen key hroot b hb hs =>
    cases h
    exact hseen _ hs
  | case6 child seen key hroot b hb hs parent hp hlt e he ih =>
    cases h
    obtain ⟨hmem, hk⟩ := mem_of_findBlock? hb
    have hstep : HasParent blocks key parent := ⟨b, hmem, hk, hp⟩
    refine ih ?_ he
    intro x hx
    rcases List.mem_cons.mp hx with rfl | hx
    · exact .single hstep
    · exact (hseen x hx).tail hstep
  | _ => cases h

/-! ## Placing blocks -/

/-- The node that the block becomes below the root; `line` ends with the block itself. -/
def NodeBlock.placed (b : NodeBlock) (root : String) (line : List NodeBlock) : SceneNode where
  key := b.key
  name := b.displayName
  parent := if b.key = root then none else some (pathOf line.dropLast)
  properties := b.properties
  instance? := b.instance?
  data := b.data

theorem placeNode_eq (blocks : List NodeBlock) (root : String) (b : NodeBlock) :
    placeNode blocks root b = (lineage blocks root b.key [] b.key).map (b.placed root) := by
  unfold placeNode
  cases lineage blocks root b.key [] b.key <;> rfl

theorem pathOf_concat (line : List NodeBlock) (b : NodeBlock) :
    pathOf (line ++ [b]) = NodePath.child (some (pathOf line)) b.displayName := by
  simp [pathOf, List.foldl_append]

theorem path_placed (hkeys : (blocks.map NodeBlock.key).Nodup) (hb : b ∈ blocks)
    (h : Below blocks root b.key line) : (b.placed root line).path = pathOf line := by
  unfold SceneNode.path NodeBlock.placed
  by_cases hroot : b.key = root
  · rw [hroot] at h
    simp [h.root_line hkeys, hroot, NodePath.child, pathOf]
  · obtain ⟨parent, above, -, -, rfl⟩ := h.parent hkeys hb hroot
    simp [hroot, pathOf_concat]

/-- The steps of building a descriptor, one after the other. -/
theorem ofBlocks_eq (given : Option String) (blocks : List NodeBlock) :
    Descriptor.ofBlocks given blocks =
      match repeatedKey? [] blocks with
      | some key => .error (.duplicateKey key)
      | none =>
        match chooseRoot given blocks with
        | .error e => .error e
        | .ok root =>
          match blocks.mapM (placeNode blocks root) with
          | .error e => .error e
          | .ok ns =>
            match repeatedPath? [] ns with
            | some e => .error e
            | none => .ok ⟨root, ns⟩ := by
  unfold Descriptor.ofBlocks
  cases repeatedKey? [] blocks with
  | some key => rfl
  | none =>
    cases chooseRoot given blocks with
    | error e => rfl
    | ok root =>
      cases hm : blocks.mapM (placeNode blocks root) with
      | error e => simp only [bind, Except.bind, hm]
      | ok ns =>
        simp only [bind, Except.bind, hm]
        cases repeatedPath? [] ns <;> rfl

end NetSchema
