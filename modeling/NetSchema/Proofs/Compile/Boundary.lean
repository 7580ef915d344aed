import NetSchema.Proofs.Compile.Numbers
import NetSchema.Proofs.Compile.Order
import NetSchema.Proofs.Scene.Tree

/-!
# The root of a network scene

Instances never reach the root of the scene that instances them: a network scene is not merged, and
of any other scene nothing stands at the root.

* `ExpandsTo.own_of_root`: whatever stands at the root of a scene is the root of its descriptor;
* `compile_guards_root`: a compiled scene has a static node at the root exactly when it is a network
  scene, and its identity property stands nowhere else.
-/

namespace NetSchema

/-- A node that knows itself as a root stands at the root, and the other way round. -/
def SceneNode.KnowsRoot (n : SceneNode) : Prop := n.isRoot = true ↔ n.path = NodePath.root

theorem Descriptor.Rooted.knowsRoot {d : Descriptor} (h : d.Rooted) :
    ∀ n ∈ d.nodes, n.KnowsRoot := by
  intro n hn
  exact (h.isRoot_iff n hn).trans (h.path_iff n hn).symm

/-- Every property stands under its own path and name, and one that is called `identity` stands at
the root of a network scene. -/
def SceneData.RootOnly (identity : String) (data : SceneData) : Prop :=
  ∀ nodePath members name p, (nodePath, members) ∈ data.properties.entries →
    (name, p) ∈ members.entries → p.nodePath = nodePath ∧ p.name = name ∧
      (name = identity → nodePath = "." ∧ data.isNetworkScene = true)

namespace Compiler

variable {c : Compiler} {d : Descriptor} {n : SceneNode} {nodes : List SceneNode}
  {ns : List NetworkNode} {m : NetworkNode}

theorem rooted_of_descriptor? {path : String} (h : c.descriptor? path = some d) : d.Rooted := by
  obtain ⟨text, -, hd⟩ := exists_text_of_descriptor? h
  exact rooted_of_parse hd

/-! ## What stands at the root -/

/-- Some network node stands at the root. -/
def NetworkRoot (c : Compiler) (nodes : List SceneNode) : Prop :=
  ∃ n ∈ nodes, n.path = NodePath.root ∧ ∃ cls, c.rules.networkClass? n = some cls

theorem NetworkRoot.cons (h : c.NetworkRoot nodes) (n : SceneNode) :
    c.NetworkRoot (n :: nodes) := by
  obtain ⟨m, hm, hroot⟩ := h
  exact ⟨m, List.mem_cons_of_mem _ hm, hroot⟩

/-- A scene whose root is a network node is a network scene. -/
theorem isNetwork_iff (h : d.Rooted) : c.isNetwork d = true ↔ c.NetworkRoot d.nodes := by
  unfold isNetwork
  constructor
  · intro hnet
    obtain ⟨n, hn, hkey⟩ := h.root
    rw [h.rootNode? hn hkey] at hnet
    exact ⟨n, hn, (h.path_iff n hn).mpr hkey, Option.isSome_iff_exists.mp hnet⟩
  · rintro ⟨n, hn, hpath, cls, hcls⟩
    rw [h.rootNode? hn ((h.path_iff n hn).mp hpath)]
    simp [hcls]

/-- **The boundary.**  What stands at the root, or takes itself for a root, is a node of the
descriptor itself: nothing that is merged ends up there. -/
theorem ExpandsTo.own_of_root (h : c.ExpandsTo nodes ns) (hk : ∀ n ∈ nodes, n.KnowsRoot)
    (hm : m ∈ ns) (hroot : m.path = NodePath.root ∨ m.isRoot = true) :
    m.path = NodePath.root ∧ c.NetworkRoot nodes := by
  induction h generalizing m with
  | nil => cases hm
  | @network n rest cls ns hcls _ ih =>
    rw [List.forall_mem_cons] at hk
    rcases List.mem_cons.mp hm with rfl | hm
    · have hpath : n.path = NodePath.root := hroot.elim id hk.1.mp
      exact ⟨hpath, n, List.mem_cons_self .., hpath, cls, hcls⟩
    · obtain ⟨hpath, hrest⟩ := ih hk.2 hm hroot
      exact ⟨hpath, hrest.cons n⟩
  | @bare n _ _ _ _ _ ih =>
    rw [List.forall_mem_cons] at hk
    obtain ⟨hpath, hrest⟩ := ih hk.2 hm hroot
    exact ⟨hpath, hrest.cons n⟩
  | @boundary n _ _ _ _ _ _ _ _ _ ih =>
    rw [List.forall_mem_cons] at hk
    obtain ⟨hpath, hrest⟩ := ih hk.2 hm hroot
    exact ⟨hpath, hrest.cons n⟩
  | @merged n rest inst d ms ns hcls hi hd hnet _ _ ihd ih =>
    rw [List.forall_mem_cons] at hk
    rcases List.mem_append.mp hm with hm | hm
    · obtain ⟨m', hm', rfl⟩ := List.mem_map.mp hm
      have hd' := rooted_of_descriptor? hd
      -- what stands at the root of the instanced scene would make that a network scene
      have hinner : ¬ (m'.path = NodePath.root ∨ m'.isRoot = true) := by
        intro h
        have hnet' := (isNetwork_iff hd').mpr (ihd hd'.knowsRoot hm' h).2
        rw [hnet] at hnet'
        cases hnet'
      rw [not_or] at hinner
      rcases hroot with hpath | hself
      · exact absurd hpath (NodePath.join_ne_root hinner.1 n.path)
      · exact absurd hself hinner.2
    · obtain ⟨hpath, hrest⟩ := ih hk.2 hm hroot
      exact ⟨hpath, hrest.cons n⟩

theorem ExpandsTo.mem_of_network {cls : String} (h : c.ExpandsTo nodes ns) (hn : n ∈ nodes)
    (hcls : c.rules.networkClass? n = some cls) : ⟨n.path, cls, n.isRoot⟩ ∈ ns := by
  induction h with
  | nil => cases hn
  | network hcls' _ ih =>
    rcases List.mem_cons.mp hn with rfl | hn
    · obtain rfl := Option.some.inj (hcls.symm.trans hcls')
      exact List.mem_cons_self ..
    · exact List.mem_cons_of_mem _ (ih hn)
  | bare hcls' _ _ ih =>
    rcases List.mem_cons.mp hn with rfl | hn
    · rw [hcls] at hcls'
      cases hcls'
    · exact ih hn
  | boundary hcls' _ _ _ _ ih =>
    rcases List.mem_cons.mp hn with rfl | hn
    · rw [hcls] at hcls'
      cases hcls'
    · exact ih hn
  | merged hcls' _ _ _ _ _ _ ih =>
    rcases List.mem_cons.mp hn with rfl | hn
    · rw [hcls] at hcls'
      cases hcls'
    · exact List.mem_append_right _ (ih hn)

/-- A scene is a network scene exactly when something stands at its root. -/
theorem network_iff_of_expansion {path : String} (h : c.Expansion path ns) :
    c.IsNetworkScene path ↔ NodePath.root ∈ ns.map NetworkNode.path := by
  obtain ⟨d, hd, hns⟩ := h
  have hrooted := rooted_of_descriptor? hd
  constructor
  · rintro ⟨d', hd', hnet⟩
    obtain rfl := Option.some.inj (hd.symm.trans hd')
    obtain ⟨n, hn, hpath, cls, hcls⟩ := (isNetwork_iff hrooted).mp hnet
    exact List.mem_map.mpr ⟨_, hns.mem_of_network hn hcls, hpath⟩
  · intro hroot
    obtain ⟨m, hm, hpath⟩ := List.mem_map.mp hroot
    have hown := hns.own_of_root hrooted.knowsRoot hm (Or.inl hpath)
    exact ⟨d, hd, (isNetwork_iff hrooted).mpr hown.2⟩

/-- Only what stands at the root takes itself for a root. -/
theorem path_of_isRoot {path : String} (h : c.Expansion path ns) (hm : m ∈ ns)
    (hroot : m.isRoot = true) : m.path = NodePath.root := by
  obtain ⟨d, hd, hns⟩ := h
  exact (hns.own_of_root (rooted_of_descriptor? hd).knowsRoot hm (Or.inr hroot)).1

/-! ## The identity property -/

variable {path : String} {data : SceneData}

theorem Compiled.network_iff (h : c.Compiled path data) :
    data.isNetworkScene = true ↔ "." ∈ data.staticNodes.map Prod.snd := by
  obtain ⟨draft, ns, -, rfl, hns, hholds⟩ := h.held
  rw [h.network, network_iff_of_expansion hns, hholds.lists.staticNodes,
    ByteId.enumerate_map_snd]
  rfl

theorem Compiled.rootOnly (h : c.Compiled path data) :
    data.RootOnly c.rules.config.identityProperty := by
  obtain ⟨draft, ns, -, rfl, hns, hholds⟩ := h.held
  intro nodePath members name p hmembers hp
  obtain ⟨n, hn, x, hx, i, rfl, rfl, rfl⟩ :=
    Placement.exists_of_mem_entries hholds.lists.properties hmembers hp
  obtain ⟨q, hq, rfl⟩ := List.mem_map.mp hx
  refine ⟨rfl, rfl, ?_⟩
  intro hname
  -- off the root it would have been left out
  have hroot : n.isRoot = true := by
    have hkept := (List.mem_filter.mp hq).2
    simp only [decide_eq_true_eq, not_and_not_right] at hkept
    exact hkept hname
  have hpath : n.path = NodePath.root := path_of_isRoot hns hn hroot
  refine ⟨hpath, h.network.mpr ((network_iff_of_expansion hns).mpr ?_)⟩
  exact List.mem_map.mpr ⟨n, hn, hpath⟩

/-- **The root of a network scene.**  Whatever has been called before, a scene that compiles, or
that the memo keeps, has a static node at the root exactly when it is a network scene, and its
identity property stands only there.  So no instance brings either of them in, at any depth. -/
theorem compile_guards_root (c : Compiler) (calls : List Call) (path : String) (data : SceneData)
    (h : (c.compile path (c.after calls)).1 = .ok data ∨
      (c.after calls).memo.completed? path = some data) :
    (data.isNetworkScene = true ↔ "." ∈ data.staticNodes.map Prod.snd) ∧
      data.RootOnly c.rules.config.identityProperty := by
  have hcompiled : c.Compiled path data := by
    rcases h with h | h
    · exact compiled_of_ok h
    · exact (after_sound calls).compiled (Memo.completed?_eq_some_iff.mp h)
  exact ⟨hcompiled.network_iff, hcompiled.rootOnly⟩

/-! ## A camp with two heroes

A network scene that instances a plain one twice.  All its network nodes are units: each has an
identity, a mood and a song that cannot be told, a grade of no known subtype, and a rest for which
no peer is given. -/

namespace Camp

def unit : ClassDecl where
  name := "Unit"
  properties := [
    ⟨"id", "int", [{ name := "NetworkProperty" }]⟩,
    ⟨"mood", "Mood", [{ name := "NetworkProperty" }]⟩,
    ⟨"grade", "int",
      [{ name := "NetworkProperty", args := OrderedMap.empty.insert "Subtype" (.string "Rank") }]⟩]
  functions := [
    ⟨"sing", [⟨"song", "Song"⟩], [{ name := "NetworkFunction" }]⟩,
    ⟨"rest", [],
      [{ name := "NetworkFunction", args := OrderedMap.empty.insert "WithPeer" (.bool true) }]⟩]

def compiler : Compiler where
  source := .ofFiles ((OrderedMap.empty.insert "hero"
    "[r]\n[/r] [body]\nparent=r\nscript=\"unit.x\"\n[/body]").insert "camp"
    "[r]\nscript=\"unit.x\"\n[/r]
    [a]\nparent=r\ninstance=\"hero\"\n[/a] [b]\nparent=r\ninstance=\"hero\"\n[/b]")
  rules :=
    { classes :=
        { classes := OrderedMap.empty.insert "Unit" unit
          scripts := OrderedMap.empty.insert "unit.x" "Unit" }
      config := { CompilerConfig.withBaseType {} "Unit" with identityProperty := "id" } }

def camp : Descriptor := ⟨"r", [Lobby.unitRoot, Arena.spot "a", Arena.spot "b"]⟩

theorem hero_read : compiler.descriptor? "hero" = some Arena.hero := by with_unfolding_all rfl

theorem camp_read : compiler.descriptor? "camp" = some camp := by with_unfolding_all rfl

def heroDraft : Draft :=
  Arena.orEmpty ((Draft.start "hero" none).addNode compiler.rules Arena.body "Unit").result

def rootDraft : Draft :=
  Arena.orEmpty
    ((Draft.start "camp" (some ⟨0⟩)).addNode compiler.rules Lobby.unitRoot "Unit").result

def halfDraft : Draft := Arena.orEmpty (rootDraft.merge "a" heroDraft.data)

def campDraft : Draft := Arena.orEmpty (halfDraft.merge "b" heroDraft.data)

theorem body_added :
    ((Draft.start "hero" none).addNode compiler.rules Arena.body "Unit").result = .ok heroDraft :=
  Arena.eq_ok_orEmpty (by decide +kernel)

/-- The second hero is taken from the memo. -/
theorem spots_traverse {s : CompileState} (hs : s.memo.get? "hero" = none) :
    ∃ s', compiler.Traverses (.walk ["camp"] "camp" [Arena.spot "a", Arena.spot "b"] rootDraft) s
      (.ok campDraft) s' := by
  have ha : rootDraft.merge "a" heroDraft.data = .ok halfDraft :=
    Arena.eq_ok_orEmpty (by decide +kernel)
  have hb : halfDraft.merge "b" heroDraft.data = .ok campDraft :=
    Arena.eq_ok_orEmpty (by decide +kernel)
  have hplain : heroDraft.data.isNetworkScene = false := by decide +kernel
  obtain ⟨s₁, hhero, hmemo⟩ := Arena.hero_traverses hero_read (by decide +kernel)
    (by decide +kernel) body_added ["camp"] (some "camp:a")
    (s := s.note (compiler.rules.networkClassNotes (Arena.spot "a"))) hs
  exact ⟨_, .next (.of_eq (.merged (by decide +kernel) rfl hhero hplain) ha)
    (.next (.of_eq (.merged (by decide +kernel) rfl (.known hmemo) hplain) hb) .done)⟩

theorem compile_camp : (compiler.compile "camp" (compiler.after [])).1 = .ok campDraft.data := by
  have hroot : ((Draft.start "camp" (some ⟨0⟩)).addNode compiler.rules Lobby.unitRoot
      "Unit").result = .ok rootDraft := Arena.eq_ok_orEmpty (by decide +kernel)
  obtain ⟨s, hnumber, hs⟩ : ∃ s, (compiler.opened "camp" camp {}).number "camp"
      (compiler.isNetwork camp) = (.ok (some ⟨0⟩), s) ∧ s.memo.get? "hero" = none :=
    ⟨_, rfl, rfl⟩
  obtain ⟨s', hspots⟩ := spots_traverse
    (s := (s.note (compiler.rules.networkClassNotes Lobby.unitRoot)).absorb
      ((Draft.start "camp" (some ⟨0⟩)).addNode compiler.rules Lobby.unitRoot "Unit").findings) hs
  have hcamp : compiler.Traverses (.enter [] none "camp") {} (.ok campDraft.data) _ :=
    .finished rfl camp_read hnumber (.next (.of_eq (.network (by decide +kernel)) hroot) hspots)
  exact ((compile_traverses (pendingIs_empty []) "camp").unique hcamp).1

/-- The camp keeps its identity, and the heroes bring in none. -/
theorem camp_guards_root :
    (compiler.compile "camp" (compiler.after [])).1 = .ok campDraft.data ∧
      campDraft.data.staticNodes.map Prod.snd = [".", "a/body", "b/body"] ∧
      campDraft.data.isNetworkScene = true ∧
      (campDraft.data.property? "." "id").isSome = true ∧
      ∀ members, ("a/body", members) ∈ campDraft.data.properties.entries →
        ∀ p, ("id", p) ∉ members.entries := by
  obtain ⟨hnetwork, honly⟩ := compile_guards_root compiler [] "camp" campDraft.data
    (Or.inl compile_camp)
  have hnodes : campDraft.data.staticNodes.map Prod.snd = [".", "a/body", "b/body"] := by
    decide +kernel
  refine ⟨compile_camp, hnodes, ?_, by decide +kernel, ?_⟩
  · rw [hnetwork, hnodes]
    simp
  · intro members hmembers p hp
    have hroot := ((honly "a/body" members "id" p hmembers hp).2.2 rfl).1
    simp at hroot

end Camp

end Compiler

end NetSchema
