import NetSchema.Proofs.Compile.Records
import NetSchema.Proofs.Compile.Refinement

/-!
# What does not fit

A scene is numbered as far as there are numbers, and its network nodes have paths of their own.  The
error that ends a compilation for one of these reasons names the first thing of the scene that does
not fit, in the order in which the scene expands, whether this thing is the scene's own or comes with
an instance.

* `Placement.sites_nodup`: nodes with paths of their own have no member twice;
* `Blames.namesFirst`: what an error blames comes first;
* `Fails.fault`: a call fails with a fault of a descriptor that it leads to;
* `fails_at_first`: what the error of a failing call names.
-/

namespace NetSchema

/-! ## Places in a list -/

/-- Exactly `n` come before `x`, which is not one of them. -/
def ComesAfter {α : Type} (n : Nat) (x : α) (xs : List α) : Prop :=
  ∃ before rest, xs = before ++ x :: rest ∧ before.length = n ∧ x ∉ before

/-- `x` is the first that has come before, and at most `n` come before it. -/
def ComesAgain {α : Type} (n : Nat) (x : α) (xs : List α) : Prop :=
  ∃ before rest, xs = before ++ x :: rest ∧ before.length ≤ n ∧ before.Nodup ∧ x ∈ before

section Places

variable {α : Type} {xs : List α} {n : Nat} {x : α}

theorem eq_take_append_of_getElem? (h : xs[n]? = some x) :
    xs = xs.take n ++ x :: xs.drop (n + 1) ∧ (xs.take n).length = n := by
  obtain ⟨hn, rfl⟩ := List.getElem?_eq_some_iff.mp h
  refine ⟨?_, List.length_take_of_le hn.le⟩
  rw [← List.drop_eq_getElem_cons hn, List.take_append_drop]

theorem comesAfter_of_getElem? (h : xs[n]? = some x) (hd : (xs.take (n + 1)).Nodup) :
    ComesAfter n x xs := by
  obtain ⟨hxs, hlength⟩ := eq_take_append_of_getElem? h
  refine ⟨xs.take n, xs.drop (n + 1), hxs, hlength, ?_⟩
  rw [List.take_add_one, h, Option.toList_some, ← List.concat_eq_append, List.nodup_concat] at hd
  exact hd.1

end Places

/-! ## Members in order -/

namespace Placement

variable {α : Type}

/-- Where a member stands: its node and its name. -/
def site (x : Placement α) : String × String := (x.nodePath, x.name)

/-- Nodes with paths of their own have no member twice. -/
theorem sites_nodup {items : NetworkNode → List (Placement α)} (hi : Proper items)
    {ns : List NetworkNode} (hp : (ns.map NetworkNode.path).Nodup) :
    ((ns.flatMap items).map site).Nodup := by
  rw [List.map_flatMap, List.nodup_flatMap]
  constructor
  · intro n _
    have hnames := hi.names n
    rw [show (name : Placement α → String) = Prod.snd ∘ site from rfl, ← List.map_map] at hnames
    exact hnames.of_map
  · rw [List.Nodup, List.pairwise_map] at hp
    refine hp.imp ?_
    intro n m hne s hn hm
    obtain ⟨x, hx, rfl⟩ := List.mem_map.mp hn
    obtain ⟨y, hy, hsite⟩ := List.mem_map.mp hm
    refine hne ?_
    rw [← hi.nodePath n x hx, ← hi.nodePath m y hy]
    exact (congrArg Prod.fst hsite).symm

theorem comesAfter_site {items : NetworkNode → List (Placement α)} (hi : Proper items)
    {ns : List NetworkNode} (hp : (ns.map NetworkNode.path).Nodup) {n : Nat} {x : Placement α}
    (hx : (ns.flatMap items)[n]? = some x) :
    ComesAfter n x.site ((ns.flatMap items).map site) := by
  have hsite : ((ns.flatMap items).map site)[n]? = some x.site := by
    rw [List.getElem?_map, hx, Option.map_some]
  exact comesAfter_of_getElem? hsite ((sites_nodup hi hp).sublist (List.take_sublist ..))

end Placement

namespace Rules

variable (r : Rules)

/-- The properties of nodes in order, each by its node and its name. -/
def propertySites (ns : List NetworkNode) : List (String × String) :=
  ns.flatMap fun n => (r.propertiesOf n).map fun p => (n.path, p.name)

/-- The functions of nodes in order, each by its node and its name. -/
def functionSites (ns : List NetworkNode) : List (String × String) :=
  ns.flatMap fun n => (r.functionsOf n).map fun f => (n.path, f.name)

theorem propertySites_eq (ns : List NetworkNode) :
    r.propertySites ns = (ns.flatMap r.propertyPlacements).map Placement.site := by
  simp only [propertySites, propertyPlacements, Placement.site, List.map_flatMap, List.map_map,
    Function.comp_def]

theorem functionSites_eq (ns : List NetworkNode) :
    r.functionSites ns = (ns.flatMap r.functionPlacements).map Placement.site := by
  simp only [functionSites, functionPlacements, Placement.site, List.map_flatMap, List.map_map,
    Function.comp_def]

end Rules

/-! ## What an error names -/

namespace SchemaError

/-- The scene that has something that does not fit. -/
def crowded? : SchemaError → Option String
  | .propertyCapacity scene _ _ => some scene
  | .functionCapacity scene _ _ => some scene
  | .staticNodeCapacity scene _ => some scene
  | .duplicateNodePath scene _ => some scene
  | _ => none

/-- The error names the first thing of the nodes `ns` that does not fit: the property after the
first 64, the function after the first 255, the node after the first 256, or the first node with the
path of an earlier one. -/
def NamesFirst (r : Rules) (ns : List NetworkNode) : SchemaError → Prop
  | .propertyCapacity _ nodePath member => ComesAfter 64 (nodePath, member) (r.propertySites ns)
  | .functionCapacity _ nodePath member => ComesAfter 255 (nodePath, member) (r.functionSites ns)
  | .staticNodeCapacity _ nodePath => ComesAfter 256 nodePath (ns.map NetworkNode.path)
  | .duplicateNodePath _ nodePath => ComesAgain 256 nodePath (ns.map NetworkNode.path)
  | _ => False

variable {r : Rules} {scene : String} {ns : List NetworkNode} {e : SchemaError}

theorem Blames.namesFirst (h : e.Blames r scene ns) :
    e.crowded? = some scene ∧ e.NamesFirst r ns := by
  unfold Blames at h
  split at h
  · obtain ⟨rfl, hp, x, hx, rfl, rfl⟩ := h
    refine ⟨rfl, ?_⟩
    rw [NamesFirst, r.propertySites_eq]
    exact Placement.comesAfter_site r.propertyPlacements_proper hp hx
  · obtain ⟨rfl, hp, x, hx, rfl, rfl⟩ := h
    refine ⟨rfl, ?_⟩
    rw [NamesFirst, r.functionSites_eq]
    exact Placement.comesAfter_site r.functionPlacements_proper hp hx
  · obtain ⟨rfl, hp, hk⟩ := h
    exact ⟨rfl, comesAfter_of_getElem? hk hp⟩
  · obtain ⟨rfl, k, hle, hp, hk, hm⟩ := h
    obtain ⟨hxs, hlength⟩ := eq_take_append_of_getElem? hk
    exact ⟨rfl, _, _, hxs, hlength.trans_le hle, hp, hm⟩
  · exact h.elim

end SchemaError

namespace Compiler

/-- A call that follows `calls`, compiles `roots` and fails. -/
inductive Fails (c : Compiler) (calls : List Call) : List String → SchemaError → Prop
  | compile {path : String} {e : SchemaError} : (c.compile path (c.after calls)).1 = .error e →
      Fails c calls [path] e
  | run {roots : List String} {e : SchemaError} : (c.run roots (c.after calls)).1 = .error e →
      Fails c calls roots e

variable {c : Compiler} {calls : List Call} {roots : List String} {e : SchemaError}

/-- A call fails with a fault of a descriptor that it leads to. -/
theorem Fails.fault (h : c.Fails calls roots e) :
    ∃ registry : Registry, registry.Numbered ∧ ∃ root ∈ roots, c.Fault registry root e := by
  cases h with
  | @compile path _ h =>
    have hends := compile_ends (c := c) (after_pending calls) (after_sound calls) path
    have hready := after_ready (c := c) (calls ++ [.compile path])
    rw [h] at hends
    rw [after_compile] at hready
    exact ⟨_, hready.registered.numbered, path, List.mem_singleton_self path, hends⟩
  | run h =>
    obtain ⟨-, hready, hends⟩ := compileRoots_ends (c := c) (Q := fun _ => True)
      (fun _ _ => trivial) (fun _ (_ : _ ∈ roots) => trivial) (ready_empty _ (c.after calls).log)
    rw [Compiler.run] at h
    cases hres : c.compileRoots roots (c.after calls).reset with
    | mk result s =>
      rw [hres] at h
      rw [show c.compileRoots roots { log := (c.after calls).log } = (result, s) from hres]
        at hready hends
      cases result with
      | ok u => cases h
      | error e' =>
        cases h
        exact ⟨_, hready.registered.numbered, hends⟩

/-- Where compiling `scene` stops: `ns` is what the nodes `seen` stand for, up to the one that has
something that does not fit, and all scenes that come with them compile on their own. -/
structure StopsAfter (c : Compiler) (scene : String) (seen : List SceneNode)
    (ns : List NetworkNode) : Prop where
  read : ∃ d, c.descriptor? scene = some d ∧ seen <+: d.nodes
  expands : c.ExpandsTo seen ns
  begins : ∀ all, c.Expansion scene all → ns <+: all
  compiled : ∀ n ∈ seen, ∀ inst, c.Follows n inst →
    ∀ q, Relation.ReflTransGen c.Instances inst q →
      ∃ data, (c.compile q (c.after [])).1 = .ok data

/-- **What does not fit.**  When a call fails because something of a scene does not fit, the roots
lead to this scene, and the error names the first thing of its expansion that does not fit.  All
scenes that have been instanced until then compile on their own. -/
theorem fails_at_first {scene : String} (h : c.Fails calls roots e)
    (hscene : e.crowded? = some scene) :
    c.Reaches roots scene ∧
      ∃ seen ns, c.StopsAfter scene seen ns ∧ e.NamesFirst c.rules ns := by
  obtain ⟨registry, hr, root, hroot, q, hq, hfault⟩ := h.fault
  cases hfault with
  | missing | unreadable | unnumbered | cyclic => cases hscene
  | blamed hd hseen hns hblames hdone =>
    obtain ⟨hcrowded, hfirst⟩ := hblames.namesFirst
    obtain rfl := Option.some.inj (hcrowded.symm.trans hscene)
    refine ⟨⟨root, hroot, hq⟩, _, _, ⟨⟨_, hd, hseen⟩, hns, ?_, ?_⟩, hfirst⟩
    · rintro all ⟨d', hd', hall⟩
      obtain rfl := Option.some.inj (hd.symm.trans hd')
      exact hns.prefix_of hseen hall
    · intro n hn inst hf q hq
      refine (compilable_of_done hr ?_).compile
      intro root hroot
      rw [List.mem_singleton.mp hroot]
      exact (hdone n hn inst hf).of_reaches hq

/-! ## An arena that is too small

Two heroes with more than half of the properties that a scene may have. -/

namespace Crowd

def traits : List PropertyDecl :=
  (List.range 33).map fun i => ⟨toString i, "int", [{ name := "NetworkProperty" }]⟩

/-- The arena of two heroes, whose class has many properties. -/
def compiler : Compiler where
  source := Arena.compiler.source
  rules :=
    { Arena.rules with
      classes :=
        { Arena.rules.classes with
          classes := OrderedMap.empty.insert "Unit" { name := "Unit", properties := traits } } }

def heroDraft : Draft :=
  Arena.orEmpty ((Draft.start "hero" none).addNode compiler.rules Arena.body "Unit").result

def halfDraft : Draft := Arena.orEmpty ((Draft.start "arena" none).merge "a" heroDraft.data)

/-- The second hero brings in one property too many. -/
theorem second_hero_fails : halfDraft.merge "b" heroDraft.data =
    .error (.propertyCapacity "arena" "b/body" "31") := by
  decide +kernel

theorem arena_read : compiler.descriptor? "arena" = some Arena.arena := by
  with_unfolding_all rfl

theorem hero_read : compiler.descriptor? "hero" = some Arena.hero := by with_unfolding_all rfl

theorem spots_traverse {s : CompileState} (hs : s.memo.get? "hero" = none) :
    ∃ s', compiler.Traverses
      (.walk ["arena"] "arena" [Arena.spot "a", Arena.spot "b"] (.start "arena" none)) s
      (.error (.propertyCapacity "arena" "b/body" "31")) s' := by
  have ha : (Draft.start "arena" none).merge "a" heroDraft.data = .ok halfDraft :=
    Arena.eq_ok_orEmpty (by decide +kernel)
  have hbody : ((Draft.start "hero" none).addNode compiler.rules Arena.body "Unit").result =
      .ok heroDraft := Arena.eq_ok_orEmpty (by decide +kernel)
  have hplain : heroDraft.data.isNetworkScene = false := by decide +kernel
  obtain ⟨s₁, hhero, hmemo⟩ := Arena.hero_traverses hero_read (by decide +kernel)
    (by decide +kernel) hbody ["arena"] (some "arena:a")
    (s := s.note (compiler.rules.networkClassNotes (Arena.spot "a"))) hs
  exact ⟨_, .next (.of_eq (.merged (by decide +kernel) rfl hhero hplain) ha)
    (.stops (.of_eq (.merged (by decide +kernel) rfl (.known hmemo) hplain) second_hero_fails))⟩

theorem compile_arena_fails : (compiler.compile "arena" (compiler.after [])).1 =
    .error (.propertyCapacity "arena" "b/body" "31") := by
  obtain ⟨s', hspots⟩ := spots_traverse
    (s := (compiler.opened "arena" Arena.arena {}).note
      (compiler.rules.networkClassNotes Arena.root)) rfl
  have harena : compiler.Traverses (.enter [] none "arena") {}
      (.error (.propertyCapacity "arena" "b/body" "31")) _ :=
    .failed rfl arena_read (Arena.number_of_plain (by decide +kernel))
      (.next (.bare (by decide +kernel) rfl) hspots)
  exact ((compile_traverses (pendingIs_empty []) "arena").unique harena).1

/-- Sixty-four properties come before the one that is named, and the hero itself compiles. -/
theorem arena_fails_at_first :
    compiler.Fails [] ["arena"] (.propertyCapacity "arena" "b/body" "31") ∧
      ∃ seen ns, compiler.StopsAfter "arena" seen ns ∧
        ComesAfter 64 ("b/body", "31") (compiler.rules.propertySites ns) :=
  ⟨.compile compile_arena_fails, (fails_at_first (.compile compile_arena_fails) rfl).2⟩

end Crowd

end Compiler

end NetSchema
