import NetSchema.Proofs.OrderedMap
import NetSchema.Proofs.Scene.Lineage

/-!
# Resolving parents with a table of paths

Blocks can also be placed with a table of the paths that are known so far, which all of them share:
going up from a block ends at the first one with a known path, and going down again fills in the
paths on the way.  A look-up that finds nothing ends such a computation without any result.

* `ofBlocksByTable_eq`: the table leads to the same descriptor or the same fault, in whatever order
  parents and children stand, and every look-up on the way finds what it looks for.
-/

namespace NetSchema

/-- Paths by key, as far as they are known. -/
abbrev PathTable := OrderedMap String String

/-! ## The table -/

/-- Goes up from `key` to a block whose path is known.  `chain` holds the blocks passed on the way,
the topmost first. -/
def climb (blocks : List NodeBlock) (known : PathTable) (chain : List NodeBlock) (key : String) :
    Option (Except SceneError (List NodeBlock)) :=
  if known.contains key then some (.ok chain)
  else
    match hb : findBlock? blocks key with
    | none => none
    | some b =>
      if hs : key ∈ chain.map NodeBlock.key then some (.error (.parentCycle key))
      else
        match b.parent with
        | none => some (.error (.orphanNode key))
        | some parent =>
          if (findBlock? blocks parent).isNone then some (.error (.unknownParent key parent))
          else
            have hlt : unvisited (blocks.map NodeBlock.key) ((b :: chain).map NodeBlock.key) <
                unvisited (blocks.map NodeBlock.key) (chain.map NodeBlock.key) := by
              obtain ⟨-, rfl⟩ := mem_of_findBlock? hb
              exact unvisited_cons_lt (key_mem_of_findBlock? hb) hs
            climb blocks known (b :: chain) parent
termination_by unvisited (blocks.map NodeBlock.key) (chain.map NodeBlock.key)

/-- Fills in the paths of blocks that hang one below the other. -/
def descend : List NodeBlock → PathTable → Option PathTable
  | [], known => some known
  | b :: chain, known => do
    let parent ← b.parent
    let path ← known.get? parent
    descend chain (known.insert b.key (NodePath.child (some path) b.displayName))

/-- Resolves blocks in order. -/
def resolve (blocks : List NodeBlock) :
    List NodeBlock → PathTable → Option (Except SceneError PathTable)
  | [], known => some (.ok known)
  | b :: bs, known =>
    match climb blocks known [] b.key with
    | none => none
    | some (.error e) => some (.error e)
    | some (.ok chain) => descend chain known >>= resolve blocks bs

/-- The path of a block and the node that it becomes, as a row of the finished table. -/
def row? (root : String) (known : PathTable) (b : NodeBlock) : Option (String × SceneNode) := do
  let path ← if b.key = root then some NodePath.root else known.get? b.key
  let parent ←
    if b.key = root then some none else b.parent >>= fun parent => (known.get? parent).map some
  return (path, {
    key := b.key
    name := b.displayName
    parent
    properties := b.properties
    instance? := b.instance?
    data := b.data })

/-- The first row whose path an earlier one has too, as a complaint. -/
def repeatedRow? : (seen : List (String × SceneNode)) → List (String × SceneNode) →
    Option SceneError
  | _, [] => none
  | seen, e :: es =>
    match seen.find? fun s => s.1 = e.1 with
    | some s => some (.duplicatePath e.1 s.2.key e.2.key)
    | none => repeatedRow? (seen ++ [e]) es

/-- The tree that node blocks describe, by way of a table of paths. -/
def ofBlocksByTable (given : Option String) (blocks : List NodeBlock) :
    Option (Except SceneError Descriptor) :=
  match repeatedKey? [] blocks with
  | some key => some (.error (.duplicateKey key))
  | none =>
    match chooseRoot given blocks with
    | .error e => some (.error e)
    | .ok root =>
      match resolve blocks blocks (OrderedMap.empty.insert root NodePath.root) with
      | none => none
      | some (.error e) => some (.error e)
      | some (.ok known) => do
        let rows ← blocks.mapM (row? root known)
        match repeatedRow? [] rows with
        | some e => some (.error e)
        | none => some (.ok ⟨root, rows.map Prod.snd⟩)

/-! ## What is known is right -/

/-- The path of the root is known, and every known path is the one that the line gives. -/
structure Knows (blocks : List NodeBlock) (root : String) (known : PathTable) : Prop where
  atRoot : known.get? root = some NodePath.root
  right : ∀ {key path}, known.get? key = some path →
    ∃ line, Below blocks root key line ∧ path = pathOf line

/-- `Hangs blocks root top chain bottom`: the blocks of `chain` hang one below the other, the first
of them below `top`, and the last is called `bottom`. -/
inductive Hangs (blocks : List NodeBlock) (root : String) : String → List NodeBlock → String → Prop
  | nil {key} : Hangs blocks root key [] key
  | cons {top b chain bottom} : b ∈ blocks → b.key ≠ root → b.parent = some top →
      Hangs blocks root b.key chain bottom → Hangs blocks root top (b :: chain) bottom

variable {blocks : List NodeBlock} {root key bottom : String} {b : NodeBlock}
  {line chain : List NodeBlock} {known known' : PathTable}

theorem knows_root (blocks : List NodeBlock) (root : String) :
    Knows blocks root (OrderedMap.empty.insert root NodePath.root) := by
  constructor
  · simp [OrderedMap.get?_insert]
  · intro key path h
    rw [OrderedMap.get?_insert] at h
    split at h
    · next hkey =>
      cases h
      exact ⟨[], hkey ▸ .root, rfl⟩
    · cases h

theorem Knows.contains (h : Knows blocks root known) (hc : known.contains key = true) :
    ∃ line, Below blocks root key line ∧ known.get? key = some (pathOf line) := by
  obtain ⟨path, hpath⟩ := Option.isSome_iff_exists.mp hc
  obtain ⟨line, hline, rfl⟩ := h.right hpath
  exact ⟨line, hline, hpath⟩

/-- A block on the chain has a line that goes on below that of the top. -/
theorem Hangs.goes_on (h : Hangs blocks root key chain bottom) (hline : Below blocks root key line)
    (hb : b ∈ chain) : ∃ more, more ≠ [] ∧ Below blocks root b.key (line ++ more) := by
  induction h generalizing line with
  | nil => cases hb
  | @cons top b' chain bottom hb' hne hp _ ih =>
    have hnext : Below blocks root b'.key (line ++ [b']) := .child hb' rfl hne hp hline
    rcases List.mem_cons.mp hb with rfl | hb
    · exact ⟨[b], by simp, hnext⟩
    · obtain ⟨more, -, hmore⟩ := ih hnext hb
      exact ⟨b' :: more, by simp, by simpa using hmore⟩

/-- A chain that hangs below the root or a block on a line never comes back to it. -/
theorem Hangs.not_mem (hkeys : (blocks.map NodeBlock.key).Nodup)
    (h : Hangs blocks root key chain bottom) (hline : Below blocks root key line) :
    key ∉ chain.map NodeBlock.key ∧ ∀ x ∈ line, x.key ∉ chain.map NodeBlock.key := by
  constructor
  · intro hmem
    obtain ⟨x, hx, hkey⟩ := List.mem_map.mp hmem
    obtain ⟨more, hne, hmore⟩ := h.goes_on hline hx
    rw [hkey] at hmore
    have hsame := congrArg List.length (hmore.unique hkeys hline)
    simp [hne] at hsame
  · intro x hx hmem
    obtain ⟨y, hy, hkey⟩ := List.mem_map.mp hmem
    obtain ⟨more, hne, hmore⟩ := h.goes_on hline hy
    rw [hkey] at hmore
    exact Below.not_mem hkeys hne hmore hline (List.mem_map_of_mem hx)

/-! ## Up and down -/

theorem climb_of_found (hc : ¬ known.contains key = true) (hb : findBlock? blocks key = some b) :
    climb blocks known chain key =
      if key ∈ chain.map NodeBlock.key then some (.error (.parentCycle key))
      else
        match b.parent with
        | none => some (.error (.orphanNode key))
        | some parent =>
          if (findBlock? blocks parent).isNone then some (.error (.unknownParent key parent))
          else climb blocks known (b :: chain) parent := by
  rw [climb, if_neg hc]
  split
  · next hnone => simp [hb] at hnone
  · next b' hb' =>
    obtain rfl := Option.some.inj (hb.symm.trans hb')
    rfl

/-- **Going up.**  It ends with the fault that looking for the whole line ends with, or at a block
whose path is known. -/
theorem climb_spec {key : String} {chain : List NodeBlock}
    (hkeys : (blocks.map NodeBlock.key).Nodup) (hroot : root ∈ blocks.map NodeBlock.key)
    (hk : Knows blocks root known) (child : String)
    (hchain : Hangs blocks root key chain bottom) (hkey : key ∈ blocks.map NodeBlock.key) :
    match lineage blocks root child (chain.map NodeBlock.key) key with
    | .error e => climb blocks known chain key = some (.error e)
    | .ok _ => ∃ top chain', climb blocks known chain key = some (.ok chain') ∧
        known.contains top = true ∧ Hangs blocks root top chain' bottom := by
  by_cases hc : known.contains key = true
  · -- a known block has a line, so looking for it does not fail
    obtain ⟨line, hline, -⟩ := hk.contains hc
    rw [lineage_of_below hkeys hline child (hchain.not_mem hkeys hline).2]
    exact ⟨key, chain, by rw [climb, if_pos hc], hc, hchain⟩
  · have hne : key ≠ root := by
      rintro rfl
      exact hc (by simp [OrderedMap.contains, hk.atRoot])
    obtain ⟨b, hb⟩ : ∃ b, findBlock? blocks key = some b :=
      Option.ne_none_iff_exists'.mp fun h => findBlock?_eq_none_iff.mp h hkey
    obtain ⟨hmem, rfl⟩ := mem_of_findBlock? hb
    rw [climb_of_found hc hb, lineage_of_found hne hb]
    by_cases hs : b.key ∈ chain.map NodeBlock.key
    · rw [if_pos hs, if_pos hs]
    · rw [if_neg hs, if_neg hs]
      cases hp : b.parent with
      | none => rfl
      | some parent =>
        dsimp only
        by_cases hparent : parent ∈ blocks.map NodeBlock.key
        · have hlt := unvisited_cons_lt (key_mem_of_findBlock? hb) hs
          have ih := climb_spec hkeys hroot hk b.key (.cons hmem hne hp hchain) hparent
          have hfound : (findBlock? blocks parent).isNone = false := by
            simpa [findBlock?] using hparent
          rw [hfound, if_neg Bool.false_ne_true]
          rw [List.map_cons] at ih
          cases hl : lineage blocks root b.key (b.key :: chain.map NodeBlock.key) parent with
          | error e =>
            rw [hl] at ih
            exact ih
          | ok line =>
            rw [hl] at ih
            exact ih
        · have hnone := findBlock?_eq_none_iff.mpr hparent
          have hother : parent ≠ root := fun h => hparent (h ▸ hroot)
          rw [lineage_of_unknown hother hnone, hnone]
          rfl
termination_by unvisited (blocks.map NodeBlock.key) (chain.map NodeBlock.key)

/-- **Going down.**  All paths on the way become known, and those that were known stay so. -/
theorem descend_spec (hk : Knows blocks root known)
    (htop : known.contains key = true) (hchain : Hangs blocks root key chain bottom) :
    ∃ known', descend chain known = some known' ∧ Knows blocks root known' ∧
      known'.contains bottom = true ∧
      ∀ q, known.contains q = true → known'.contains q = true := by
  induction hchain generalizing known with
  | nil => exact ⟨known, rfl, hk, htop, fun _ h => h⟩
  | @cons top b chain bottom hb hne hp _ ih =>
    obtain ⟨line, hline, hpath⟩ := hk.contains htop
    have hnext : Below blocks root b.key (line ++ [b]) := .child hb rfl hne hp hline
    let path := NodePath.child (some (pathOf line)) b.displayName
    have hknows : Knows blocks root (known.insert b.key path) := by
      constructor
      · rw [OrderedMap.get?_insert, if_neg (Ne.symm hne), hk.atRoot]
      · intro key' path' h
        rw [OrderedMap.get?_insert] at h
        split at h
        · next hkey =>
          cases h
          exact ⟨line ++ [b], hkey ▸ hnext, (pathOf_concat line b).symm⟩
        · exact hk.right h
    have hgrows : ∀ q, known.contains q = true → (known.insert b.key path).contains q = true := by
      intro q hq
      rw [OrderedMap.contains, OrderedMap.get?_insert]
      split
      · rfl
      · exact hq
    have hself : (known.insert b.key path).contains b.key = true := by
      simp [OrderedMap.contains, OrderedMap.get?_insert]
    obtain ⟨known', hdescend, hknows', hbottom, hkept⟩ := ih hknows hself
    refine ⟨known', ?_, hknows', hbottom, fun q hq => hkept q (hgrows q hq)⟩
    rw [descend, hp]
    simpa [hpath] using hdescend

/-! ## All blocks -/

/-- **Resolving agrees with placing.**  The blocks that placing each on its own accepts all get a
known path, and the first fault is the same. -/
theorem resolve_spec (hkeys : (blocks.map NodeBlock.key).Nodup)
    (hroot : root ∈ blocks.map NodeBlock.key) {bs : List NodeBlock} (hbs : ∀ b ∈ bs, b ∈ blocks)
    (hk : Knows blocks root known) :
    match bs.mapM (placeNode blocks root) with
    | .error e => resolve blocks bs known = some (.error e)
    | .ok _ => ∃ known', resolve blocks bs known = some (.ok known') ∧ Knows blocks root known' ∧
        (∀ b ∈ bs, known'.contains b.key = true) ∧
        ∀ q, known.contains q = true → known'.contains q = true := by
  induction bs generalizing known with
  | nil => exact ⟨known, rfl, hk, by simp, fun _ h => h⟩
  | cons b bs ih =>
    have hb : b ∈ blocks := hbs b (List.mem_cons_self ..)
    have hself : Hangs blocks root b.key [] b.key := .nil
    have hup := climb_spec hkeys hroot hk b.key hself (List.mem_map_of_mem hb)
    rw [List.map_nil] at hup
    rw [List.mapM_cons, placeNode_eq]
    cases hl : lineage blocks root b.key [] b.key with
    | error e =>
      rw [hl] at hup
      rw [resolve, hup]
      rfl
    | ok line =>
      rw [hl] at hup
      obtain ⟨top, chain, hclimb, htop, hchain⟩ := hup
      obtain ⟨known', hdescend, hknows, hplaced, hkept⟩ := descend_spec hk htop hchain
      have hrest := ih (fun x hx => hbs x (List.mem_cons_of_mem _ hx)) hknows
      have hresolve : resolve blocks (b :: bs) known = resolve blocks bs known' := by
        rw [resolve, hclimb]
        simp [hdescend]
      rw [hresolve]
      cases hm : bs.mapM (placeNode blocks root) with
      | error e =>
        rw [hm] at hrest
        exact hrest
      | ok ns =>
        rw [hm] at hrest
        obtain ⟨last, hlast, hknows', hcontains, hkept'⟩ := hrest
        refine ⟨last, hlast, hknows', ?_, fun q hq => hkept' q (hkept q hq)⟩
        intro x hx
        rcases List.mem_cons.mp hx with rfl | hx
        · exact hkept' _ hplaced
        · exact hcontains x hx

/-- Once every block has a known path, so has every key with a line. -/
theorem Knows.get?_of_below (hkeys : (blocks.map NodeBlock.key).Nodup)
    (hk : Knows blocks root known) (hall : ∀ b ∈ blocks, known.contains b.key = true)
    (hline : Below blocks root key line) : known.get? key = some (pathOf line) := by
  have hc : known.contains key = true := by
    cases hline with
    | root => simp [OrderedMap.contains, hk.atRoot]
    | child hb hkey _ _ _ => exact hkey ▸ hall _ hb
  obtain ⟨line', hline', hpath⟩ := hk.contains hc
  rw [hpath, hline.unique hkeys hline']

theorem row?_of_line (hkeys : (blocks.map NodeBlock.key).Nodup)
    (hk : Knows blocks root known) (hall : ∀ b ∈ blocks, known.contains b.key = true)
    (hb : b ∈ blocks) (hline : Below blocks root b.key line) :
    row? root known b = some ((b.placed root line).path, b.placed root line) := by
  rw [path_placed hkeys hb hline]
  have hself := hk.get?_of_below hkeys hall hline
  by_cases hroot : b.key = root
  · rw [hroot] at hline
    simp [row?, NodeBlock.placed, hroot, hline.root_line hkeys, pathOf]
  · obtain ⟨parent, above, hp, habove, rfl⟩ := hline.parent hkeys hb hroot
    have habovePath := hk.get?_of_below hkeys hall habove
    simp [row?, NodeBlock.placed, hroot, hp, hself, habovePath]

theorem mapM_row? (hkeys : (blocks.map NodeBlock.key).Nodup) (hk : Knows blocks root known)
    (hall : ∀ b ∈ blocks, known.contains b.key = true) {bs : List NodeBlock}
    (hbs : ∀ b ∈ bs, b ∈ blocks) {ns : List SceneNode}
    (hns : bs.mapM (placeNode blocks root) = .ok ns) :
    bs.mapM (row? root known) = some (ns.map fun n => (n.path, n)) := by
  rw [mapM_eq_ok_iff] at hns
  induction hns with
  | nil => rfl
  | @cons b n bs ns hplace _ ih =>
    rw [placeNode_eq] at hplace
    cases hl : lineage blocks root b.key [] b.key with
    | error e =>
      rw [hl] at hplace
      cases hplace
    | ok line =>
      rw [hl] at hplace
      cases hplace
      have hb : b ∈ blocks := hbs b (List.mem_cons_self ..)
      rw [List.mapM_cons, row?_of_line hkeys hk hall hb (below_of_lineage hl),
        ih fun x hx => hbs x (List.mem_cons_of_mem _ hx)]
      rfl

theorem repeatedRow?_eq (seen ns : List SceneNode) :
    repeatedRow? (seen.map fun n => (n.path, n)) (ns.map fun n => (n.path, n)) =
      repeatedPath? seen ns := by
  induction ns generalizing seen with
  | nil => rfl
  | cons n ns ih =>
    rw [List.map_cons, repeatedRow?, repeatedPath?, List.find?_map]
    simp only [Function.comp_def]
    cases seen.find? fun m => m.path = n.path with
    | none =>
      rw [← ih, List.map_append]
      rfl
    | some m => rfl

/-- **Every look-up finds what it looks for**, and the table leads to what placing each block on its
own leads to. -/
theorem ofBlocksByTable_eq (given : Option String) (blocks : List NodeBlock) :
    ofBlocksByTable given blocks = some (Descriptor.ofBlocks given blocks) := by
  rw [ofBlocks_eq, ofBlocksByTable]
  cases hrep : repeatedKey? [] blocks with
  | some key => rfl
  | none =>
    cases hroot : chooseRoot given blocks with
    | error e => rfl
    | ok root =>
      have hkeys := repeatedKey?_nil.mp hrep
      have hmem := key_mem_of_chooseRoot hroot
      have hresolve := resolve_spec hkeys hmem (fun _ h => h) (knows_root blocks root)
      cases hm : blocks.mapM (placeNode blocks root) with
      | error e =>
        rw [hm] at hresolve
        simp only [hresolve, hm]
      | ok ns =>
        rw [hm] at hresolve
        obtain ⟨known, hknown, hk, hall, -⟩ := hresolve
        have hrows := mapM_row? hkeys hk hall (fun _ h => h) hm
        have hrepeated := repeatedRow?_eq [] ns
        rw [List.map_nil] at hrepeated
        simp only [hknown, hrows, bind, Option.bind_some, hrepeated, hm]
        cases repeatedPath? [] ns with
        | some e => rfl
        | none => simp [Function.comp_def]

end NetSchema
