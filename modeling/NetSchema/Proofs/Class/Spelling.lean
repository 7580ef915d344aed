import NetSchema.Compile.NetworkClass
import NetSchema.Proofs.Class.Bases
import NetSchema.Proofs.Class.Contents

/-!
# How a base is written

A class is found by its full name, and by its short name where no other class shares that.  The
test for subclasses compares the texts by which bases are written and looks nothing up.  So whether
it finds a base depends on which of the two names the declarations use.

* `isSubclassOf_iff`: the test finds the name itself and what the classes of the ancestry write;
* `Holds.name_of_class?`: a class that is found was asked for by one of its two names;
* `Holds.isSubclassOf_of_mem_ancestry`: of a class in the ancestry the test finds one of the names;
* `Holds.subclass_by_spelling`: what this means for the base type of network nodes;
* `Engine.subclass_missed`: a base that is written in full and tested by its short name.
-/

namespace NetSchema

namespace ClassTable

open ClassDecl

variable {t : ClassTable} {cs : List ClassDecl} {c : ClassDecl} {name base : String}

/-! ## What is written along the bases -/

/-- Every name above `name` is the base of a class that is found on the way. -/
theorem base_of_mem_basesFrom {seen : List String} (h : base ∈ (t.basesFrom seen name).names) :
    ∃ x ∈ name :: (t.basesFrom seen name).names, ∃ d, t.class? x = some d ∧ d.base = some base := by
  fun_induction t.basesFrom seen name with
  | case1 seen name hc => cases h
  | case2 seen name c hc hb => cases h
  | case3 seen name c hc b hb hs => cases h
  | case4 seen name c hc b hb hs hm hlt above ih =>
    rcases List.mem_cons.mp h with rfl | h
    · exact ⟨name, by simp, c, hc, hb⟩
    · obtain ⟨x, hx, hd⟩ := ih h
      exact ⟨x, List.mem_cons_of_mem _ hx, hd⟩

/-- The base of every class that is found on the way comes next, unless it has been listed. -/
theorem mem_basesFrom_of_base {seen : List String} {x : String}
    (hx : x ∈ name :: (t.basesFrom seen name).names) (hc : t.class? x = some c)
    (hb : c.base = some base) : base ∈ seen ∨ base ∈ (t.basesFrom seen name).names := by
  fun_induction t.basesFrom seen name with
  | case1 seen name hn => simp_all
  | case2 seen name c' hn hb' => simp_all
  | case3 seen name c' hn b hb' hs => simp_all
  | case4 seen name c' hn b hb' hs hm hlt above ih =>
    rcases List.mem_cons.mp hx with rfl | hx
    · obtain rfl := Option.some.inj (hn.symm.trans hc)
      obtain rfl := Option.some.inj (hb'.symm.trans hb)
      exact Or.inr (by simp)
    · rcases ih hx with h | h
      · rcases List.mem_cons.mp h with rfl | h
        · exact Or.inr (by simp)
        · exact Or.inl h
      · exact Or.inr (List.mem_cons_of_mem _ h)

theorem mem_ancestry_iff : c ∈ t.ancestry name ↔ ∃ x ∈ t.ancestryNames name, t.class? x = some c :=
  List.mem_filterMap

/-- **The test.**  It finds the name itself and the bases that the classes of the ancestry write. -/
theorem isSubclassOf_iff :
    t.isSubclassOf name base = true ↔
      name = base ∨ ∃ d ∈ t.ancestry name, d.base = some base := by
  have hnames : t.ancestryNames name = name :: (t.basesFrom [name] name).names := rfl
  rw [isSubclassOf, List.contains_iff_mem]
  constructor
  · intro h
    rw [hnames] at h
    rcases List.mem_cons.mp h with rfl | h
    · exact Or.inl rfl
    · obtain ⟨x, hx, d, hd, hb⟩ := base_of_mem_basesFrom h
      exact Or.inr ⟨d, mem_ancestry_iff.mpr ⟨x, hx, hd⟩, hb⟩
  · rintro (rfl | ⟨d, hd, hb⟩)
    · rw [hnames]
      apply List.mem_cons_self
    · obtain ⟨x, hx, hd⟩ := mem_ancestry_iff.mp hd
      rw [hnames]
      rcases mem_basesFrom_of_base hx hd hb with h | h
      · simp_all
      · exact List.mem_cons_of_mem _ h

/-! ## The two names of a class -/

namespace Holds

/-- A class that is found was asked for by its full or by its short name. -/
theorem name_of_class? (h : t.Holds cs) (hc : t.class? name = some c) :
    name = c.name ∨ name = c.shortName := by
  unfold class? at hc
  split at hc
  · next d hd =>
    obtain rfl := Option.some.inj hc
    exact Or.inl (h.get?_classes_iff.mp hd).2.symm
  · split at hc
    · cases hc
    · have hf := onlyMatch?_eq_some_iff.mp hc
      have hm : c ∈ t.classes.values.filter fun c => c.shortName == name := by
        rw [hf]
        simp
      have hshort := (List.mem_filter.mp hm).2
      exact Or.inr (beq_iff_eq.mp hshort).symm

/-- Of every class in the ancestry the test finds one of the two names. -/
theorem isSubclassOf_of_mem_ancestry (h : t.Holds cs) (hc : c ∈ t.ancestry name) :
    t.isSubclassOf name c.name = true ∨ t.isSubclassOf name c.shortName = true := by
  obtain ⟨x, hx, hcx⟩ := mem_ancestry_iff.mp hc
  have hfound : t.isSubclassOf name x = true := List.contains_iff_mem.mpr hx
  rcases h.name_of_class? hcx with rfl | rfl
  · exact Or.inl hfound
  · exact Or.inr hfound

/-- **Spellings decide.**  Let `base` find a class of the ancestry of `name`.  Then `base` is one of
its two names, and the test finds one of these.  It finds `base` itself exactly if that is how the
class is written somewhere along the ancestry, which it is when all write it alike.  A node with the
script of a class called `name` is a network node by the same rule. -/
theorem subclass_by_spelling (h : t.Holds cs) (hb : t.class? base = some c)
    (hc : c ∈ t.ancestry name) :
    (base = c.name ∨ base = c.shortName) ∧
      (t.isSubclassOf name c.name = true ∨ t.isSubclassOf name c.shortName = true) ∧
      (t.isSubclassOf name base = true ↔
        name = base ∨ ∃ d ∈ t.ancestry name, d.base = some base) ∧
      ((∀ x ∈ t.ancestryNames name, t.class? x = some c → x = base) →
        t.isSubclassOf name base = true) ∧
      ∀ (config : CompilerConfig) (n : SceneNode) (d : ClassDecl),
        config.networkBaseType = base → (Rules.mk t config).scriptClass? n = some d →
        d.name = name →
        ((Rules.mk t config).networkClass? n = some name ↔
          name = base ∨ ∃ d ∈ t.ancestry name, d.base = some base) := by
  refine ⟨h.name_of_class? hb, h.isSubclassOf_of_mem_ancestry hc, isSubclassOf_iff, ?_, ?_⟩
  · intro halike
    obtain ⟨x, hx, hcx⟩ := mem_ancestry_iff.mp hc
    obtain rfl := halike x hx hcx
    exact List.contains_iff_mem.mpr hx
  · rintro config n d rfl hd rfl
    rw [← isSubclassOf_iff, Rules.networkClass?, hd]
    simp

end Holds

end ClassTable

/-! ## A base that is missed -/

namespace Engine

open ClassTable

def node : ClassDecl := { name := "Engine.Node" }

def hero : ClassDecl :=
  { name := "Game.Hero", base := some "Engine.Node", script := some "hero.x" }

def classes : ClassTable := (insertAll {} [node, hero]).2

/-- The network base type by its short name. -/
def rules : Rules := ⟨classes, { networkBaseType := "Node" }⟩

def root : SceneNode where
  key := "r"
  name := "r"
  parent := none
  properties := OrderedMap.empty.insert "script" (.string "hero.x")

theorem classes_hold : classes.Holds [node, hero] :=
  holds_of_insertAll (by with_unfolding_all rfl)

theorem class_node : classes.class? "Node" = some node := by with_unfolding_all rfl

theorem ancestry_hero : classes.ancestry "Game.Hero" = [hero, node] := by
  have hhero : classes.class? "Game.Hero" = some hero := by with_unfolding_all rfl
  have hnode : classes.class? "Engine.Node" = some node := by with_unfolding_all rfl
  rw [ancestry, ancestryNames, baseChain, basesFrom_base hhero rfl (by decide),
    basesFrom_topmost hnode rfl]
  simp only [List.filterMap_cons, hhero, hnode, List.filterMap_nil]

theorem not_subclass : classes.isSubclassOf "Game.Hero" "Node" = false := by
  rw [← Bool.not_eq_true, isSubclassOf_iff, ancestry_hero]
  decide

/-- The name `Node` finds a class from which `Game.Hero` derives.  The test does not find it, and a
node with the script of `Game.Hero` is no network node. -/
theorem subclass_missed :
    classes.class? "Node" = some node ∧ node ∈ classes.ancestry "Game.Hero" ∧
      classes.isSubclassOf "Game.Hero" "Node" = false ∧
      rules.scriptClass? root = some hero ∧ rules.networkClass? root = none := by
  have hscript : rules.scriptClass? root = some hero := by with_unfolding_all rfl
  refine ⟨class_node, ?_, not_subclass, hscript, ?_⟩
  · rw [ancestry_hero]
    simp
  · rw [Rules.networkClass?, hscript]
    exact if_neg (Bool.eq_false_iff.mp not_subclass)

/-- The class is found by one of its names, and by `Node` only if a declaration says `Node`. -/
theorem subclass_by_spelling_missed :
    (classes.isSubclassOf "Game.Hero" "Engine.Node" = true ∨
        classes.isSubclassOf "Game.Hero" "Node" = true) ∧
      (classes.isSubclassOf "Game.Hero" "Node" = true ↔
        "Game.Hero" = "Node" ∨
          ∃ d ∈ classes.ancestry "Game.Hero", d.base = some "Node") := by
  have hm : node ∈ classes.ancestry "Game.Hero" := by
    rw [ancestry_hero]
    simp
  have h := Holds.subclass_by_spelling classes_hold class_node hm
  exact ⟨h.2.1, h.2.2.1⟩

end Engine

end NetSchema
