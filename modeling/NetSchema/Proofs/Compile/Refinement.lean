import NetSchema.Proofs.Compile.Soundness

/-!
# Compiling refines plain expansion

* `compile_refines_expansion`: whatever was called before, a compiled scene has exactly the static
  nodes and members of its expansion, and only its scene number depends on the earlier calls.
-/

namespace NetSchema

/-! ## Scenes with the same members -/

theorem NodeMembers.ext_layout {α : Type} {m m' : NodeMembers α} (h : m.layout = m'.layout) :
    m = m' := by
  refine OrderedMap.ext ((List.map_inj_right ?_).mp h)
  rintro ⟨p, members⟩ ⟨p', members'⟩ he
  obtain ⟨hp, hm⟩ := Prod.mk.inj he
  rw [Prod.mk.injEq]
  exact ⟨hp, OrderedMap.ext hm⟩

theorem SceneData.Lists.unique {r : Rules} {ns : List NetworkNode} {d d' : SceneData}
    (h : d.Lists r ns) (h' : d'.Lists r ns) :
    d.staticNodes = d'.staticNodes ∧ d.properties = d'.properties ∧ d.functions = d'.functions :=
  ⟨h.staticNodes.trans h'.staticNodes.symm,
    NodeMembers.ext_layout (h.properties.trans h'.properties.symm),
    NodeMembers.ext_layout (h.functions.trans h'.functions.symm)⟩

namespace Compiler

variable {c : Compiler}

/-- The descriptors at two paths compile in one way if they are the same, the numbers aside. -/
theorem Compiled.unique_of_descriptor? {path q : String} {d d' : SceneData} (h : c.Compiled path d)
    (h' : c.Compiled q d') (hsame : c.descriptor? path = c.descriptor? q) :
    d' = { d with sceneId := d'.sceneId } := by
  obtain ⟨draft, ns, -, rfl, hns, hholds⟩ := h.held
  obtain ⟨draft', ns', -, rfl, hns', hholds'⟩ := h'.held
  rw [Expansion, ← hsame] at hns'
  obtain rfl := hns.unique hns'
  obtain ⟨hs, hp, hf⟩ := hholds.lists.unique hholds'.lists
  have hnetwork := h'.network
  rw [IsNetworkScene, ← hsame] at hnetwork
  have hnet : draft.data.isNetworkScene = draft'.data.isNetworkScene := by
    rw [Bool.eq_iff_iff]
    exact h.network.trans hnetwork.symm
  generalize draft.data = data at *
  generalize draft'.data = data' at *
  cases data
  cases data'
  simp_all

/-- The scene at `path` is compiled in one way, its number aside. -/
theorem Compiled.unique {path : String} {d d' : SceneData} (h : c.Compiled path d)
    (h' : c.Compiled path d') : d' = { d with sceneId := d'.sceneId } :=
  h.unique_of_descriptor? h' rfl

/-- **Compiling refines plain expansion.**  A scene that compiles after any calls has an expansion,
and its static nodes, properties and functions are those of the nodes of the expansion, in order.
It would compile to the same after other calls, its number aside. -/
theorem compile_refines_expansion (c : Compiler) (calls : List Call) (path : String)
    (data : SceneData) (h : (c.compile path (c.after calls)).1 = .ok data) :
    ∃ ns, c.Expansion path ns ∧
      data.staticNodes.map Prod.snd = ns.map NetworkNode.path ∧
      data.properties.layout = Placement.layout c.rules.propertyPlacements 0 ns ∧
      data.functions.layout = Placement.layout c.rules.functionPlacements 0 ns ∧
      (data.isNetworkScene = true ↔ c.IsNetworkScene path) ∧
      ∀ calls' data', (c.compile path (c.after calls')).1 = .ok data' →
        data' = { data with sceneId := data'.sceneId } := by
  have hdata := compiled_of_ok h
  obtain ⟨draft, ns, -, rfl, hns, hholds⟩ := hdata.held
  refine ⟨ns, hns, ?_, hholds.lists.properties, hholds.lists.functions, hdata.network, ?_⟩
  · rw [hholds.lists.staticNodes, ByteId.enumerate_map_snd]
  · intro calls' data' h'
    exact hdata.unique (compiled_of_ok h')

/-- A task with its result in another form. -/
theorem Traverses.of_eq {task : Task} {s s' : CompileState} {r r' : Except SchemaError task.Value}
    (h : c.Traverses task s r s') (hr : r = r') : c.Traverses task s r' s' :=
  hr ▸ h

/-! ## An arena with two heroes

A scene that instances another one twice, so that the second time it is taken from the memo. -/

namespace Arena

/-- One script, whose class puts its health and its strike onto the network. -/
def rules : Rules where
  classes :=
    { classes := OrderedMap.empty.insert "Unit"
        { name := "Unit"
          properties := [⟨"health", "int", [{ name := "NetworkProperty" }]⟩]
          functions := [⟨"strike", [⟨"striker", "int"⟩, ⟨"force", "float"⟩],
            [{ name := "NetworkFunction"
               args := OrderedMap.empty.insert "WithPeer" (.bool true) }]⟩] }
      scripts := OrderedMap.empty.insert "unit.x" "Unit" }
  config := CompilerConfig.withBaseType {} "Unit"

def compiler : Compiler where
  source := .ofFiles ((OrderedMap.empty.insert "hero"
    "[r]\n[/r] [body]\nparent=r\nscript=\"unit.x\"\n[/body]").insert "arena"
    "[r]\n[/r] [a]\nparent=r\ninstance=\"hero\"\n[/a] [b]\nparent=r\ninstance=\"hero\"\n[/b]")
  rules

def root : SceneNode where
  key := "r"
  name := "r"
  parent := none

def body : SceneNode where
  key := "body"
  name := "body"
  parent := some "."
  properties := OrderedMap.empty.insert "script" (.string "unit.x")

def hero : Descriptor := ⟨"r", [root, body]⟩

/-- A node of the arena that instances a hero. -/
def spot (name : String) : SceneNode where
  key := name
  name := name
  parent := some "."
  instance? := some "hero"

def arena : Descriptor := ⟨"r", [root, spot "a", spot "b"]⟩

/-- The draft that a computation ends with, an empty one where it fails. -/
def orEmpty (r : Except SchemaError Draft) : Draft := r.toOption.getD (.start "" none)

theorem eq_ok_orEmpty {r : Except SchemaError Draft} (h : r.toOption.isSome = true) :
    r = .ok (orEmpty r) := by
  cases r with
  | ok d => rfl
  | error e => cases h

def heroDraft : Draft := orEmpty ((Draft.start "hero" none).addNode rules body "Unit").result

def halfDraft : Draft := orEmpty ((Draft.start "arena" none).merge "a" heroDraft.data)

def arenaDraft : Draft := orEmpty (halfDraft.merge "b" heroDraft.data)

theorem number_of_plain {c : Compiler} {path : String} {d : Descriptor} {s : CompileState}
    (hd : c.isNetwork d = false) :
    (c.opened path d s).number path (c.isNetwork d) = (.ok none, c.opened path d s) := by
  rw [hd]
  rfl

/-- The hero compiles in one way wherever its body is the only unit. -/
theorem hero_traverses {c : Compiler} {draft : Draft} (hread : c.descriptor? "hero" = some hero)
    (hroot : c.rules.networkClass? root = none) (hbody : c.rules.networkClass? body = some "Unit")
    (hadded : ((Draft.start "hero" none).addNode c.rules body "Unit").result = .ok draft)
    (stack : List String) (referrer : Option String) {s : CompileState}
    (hs : s.memo.get? "hero" = none) :
    ∃ s', c.Traverses (.enter stack referrer "hero") s (.ok draft.data) s' ∧
      s'.memo.get? "hero" = some (.complete draft.data) := by
  have hplain : c.isNetwork hero = false := by
    show (c.rules.networkClass? root).isSome = false
    rw [hroot, Option.isSome_none]
  refine ⟨_, .finished hs hread (number_of_plain hplain) (.next (.bare hroot rfl)
    (.next (.of_eq (.network hbody) hadded) .done)), ?_⟩
  rw [CompileState.memo_finish, Memo.get?_finish, if_pos rfl]

theorem compile_arena :
    (compiler.compile "arena" (compiler.after [])).1 = .ok arenaDraft.data := by
  have ha : (Draft.start "arena" none).merge "a" heroDraft.data = .ok halfDraft :=
    eq_ok_orEmpty (by decide +kernel)
  have hb : halfDraft.merge "b" heroDraft.data = .ok arenaDraft := eq_ok_orEmpty (by decide +kernel)
  have hdata : heroDraft.data.isNetworkScene = false := by decide +kernel
  have hbody : ((Draft.start "hero" none).addNode compiler.rules body "Unit").result =
      .ok heroDraft := eq_ok_orEmpty (by decide +kernel)
  obtain ⟨s, hhero, hmemo⟩ := hero_traverses (c := compiler) (by with_unfolding_all rfl)
    (by decide +kernel) (by decide +kernel) hbody ["arena"] (some "arena:a")
    (s := compiler.opened "arena" arena {}) rfl
  have harena : compiler.Traverses (.enter [] none "arena") {} (.ok arenaDraft.data) _ :=
    .finished (d := arena) rfl (by with_unfolding_all rfl) (number_of_plain (by decide +kernel))
      (.next (.bare (by decide +kernel) rfl)
        (.next (Traverses.of_eq (.merged (by decide +kernel) rfl hhero hdata) ha)
          (.next (Traverses.of_eq (.merged (by decide +kernel) rfl (.known hmemo) hdata) hb)
            .done)))
  exact ((compile_traverses (pendingIs_empty []) "arena").unique harena).1

/-- Both heroes are in the arena, the second one under the next numbers, and strike with a force. -/
theorem arena_refines_expansion :
    (compiler.compile "arena" (compiler.after [])).1 = .ok arenaDraft.data ∧
      ∃ ns, compiler.Expansion "arena" ns ∧
        arenaDraft.data.staticNodes.map Prod.snd = ns.map NetworkNode.path ∧
        arenaDraft.data.properties.layout =
          Placement.layout compiler.rules.propertyPlacements 0 ns ∧
        arenaDraft.data.functions.layout =
          Placement.layout compiler.rules.functionPlacements 0 ns ∧
        ns.map NetworkNode.path = ["a/body", "b/body"] ∧
        (arenaDraft.data.function? "b/body" "strike").map
          (fun f => (f.index.toNat, f.arguments.map Wire.type)) = some (1, [.float]) := by
  obtain ⟨ns, hns, hpaths, hproperties, hfunctions, -⟩ :=
    compile_refines_expansion compiler [] "arena" arenaDraft.data compile_arena
  refine ⟨compile_arena, ns, hns, hpaths, hproperties, hfunctions, ?_, by decide +kernel⟩
  rw [← hpaths]
  decide +kernel

end Arena

end Compiler

end NetSchema
