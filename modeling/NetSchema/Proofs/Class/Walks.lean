import Mathlib.Data.List.Chain
import Mathlib.Data.List.Dedup
import Mathlib.Data.List.Perm.Subperm
import Mathlib.Logic.Relation
import NetSchema.Proofs.Class.Bases

/-!
# Walks along bases

A walk lists a name, the base text of the class that the name finds, the base text of the class that
this one finds, and so on, until it would list a text for the second time.  Two texts may find the
same class, so a class can come up twice; a text cannot.

* `extends_wellFounded`: a walk ends, because every turn lists a further base text of the table;
* `Linked.extends`: what a turn keeps;
* `extends_basesFrom`: the names that are listed come from such turns, and no turn follows them;
* `ancestryNames_walk`: the walk from a name.
-/

namespace NetSchema.ClassTable

variable {t : ClassTable} {name base : String} {names more : List String}

/-! ## Turns -/

/-- The base text of the class that `name` finds. -/
def baseOf? (t : ClassTable) (name : String) : Option String := t.class? name >>= ClassDecl.base

/-- A turn of the walk: the last name finds a class with a base text that has not been listed. -/
inductive Extends (t : ClassTable) : List String → List String → Prop
  | base {front : List String} {last base : String} : t.baseOf? last = some base →
      base ∉ front ++ [last] → Extends t (front ++ [last]) (front ++ [last] ++ [base])

/-- The last name is unknown, or finds a class without a base or with one that has been listed. -/
inductive Stops (t : ClassTable) (names : List String) : Prop
  | unknown {last : String} : names.getLast? = some last → t.class? last = none → Stops t names
  | topmost {last : String} {c : ClassDecl} : names.getLast? = some last →
      t.class? last = some c → c.base = none → Stops t names
  | closed {last base : String} {c : ClassDecl} : names.getLast? = some last →
      t.class? last = some c → c.base = some base → base ∈ names → Stops t names

theorem baseOf?_eq_some_iff :
    t.baseOf? name = some base ↔ ∃ c, t.class? name = some c ∧ c.base = some base :=
  Option.bind_eq_some_iff

theorem mem_baseTexts (h : t.baseOf? name = some base) : base ∈ t.baseTexts := by
  obtain ⟨c, hc, hb⟩ := baseOf?_eq_some_iff.mp h
  exact List.mem_filterMap.mpr ⟨c, mem_of_class? hc, hb⟩

/-- A walk that stops has no further turn. -/
theorem Stops.not_extends (h : t.Stops names) : ¬ t.Extends names more := by
  rintro ⟨hbase, hnew⟩
  obtain ⟨c, hc, hb⟩ := baseOf?_eq_some_iff.mp hbase
  cases h with
  | unknown hlast hnone => simp_all
  | topmost hlast hc' hnone => simp_all
  | closed hlast hc' hb' hmem => simp_all

/-- **Walks end.**  Every turn lists a base text of the table for the first time. -/
theorem extends_wellFounded (t : ClassTable) :
    WellFounded fun later earlier => t.Extends earlier later := by
  refine Subrelation.wf ?_ (measure (unvisited t.baseTexts)).wf
  rintro later earlier ⟨hbase, hnew⟩
  exact unvisited_append_lt (mem_baseTexts hbase) hnew

/-! ## What turns keep -/

/-- The names start with `name`, none stands twice, and each further one is the base text of the
class that the one before it finds. -/
structure Linked (t : ClassTable) (name : String) (names : List String) : Prop where
  starts : names.head? = some name
  distinct : names.Nodup
  linked : names.IsChain fun x base => t.baseOf? x = some base

theorem linked_start (t : ClassTable) (name : String) : t.Linked name [name] where
  starts := rfl
  distinct := List.nodup_singleton name
  linked := .singleton name

theorem Linked.extends (h : t.Linked name names) (hturn : t.Extends names more) :
    t.Linked name more := by
  obtain ⟨hbase, hnew⟩ := hturn
  refine ⟨?_, ?_, ?_⟩
  · rw [List.head?_append_of_ne_nil _ (by simp)]
    exact h.starts
  · rw [← List.concat_eq_append]
    exact List.Nodup.concat hnew h.distinct
  · refine h.linked.append (.singleton _) ?_
    simpa using hbase

theorem Linked.run (h : Relation.ReflTransGen t.Extends [name] names) : t.Linked name names := by
  induction h with
  | refl => exact linked_start t name
  | tail _ hturn ih => exact ih.extends hturn

/-- The walk has come through every first part of the names, and went on from there. -/
theorem extends_of_initial (h : Relation.ReflTransGen t.Extends [name] names)
    {listed : List String} (hne : listed ≠ []) (hlisted : listed <+: names) :
    listed = names ∨ ∃ more, t.Extends listed more := by
  induction h with
  | refl =>
    obtain ⟨rest, hrest⟩ := hlisted
    rcases List.append_eq_singleton_iff.mp hrest with ⟨h, -⟩ | ⟨h, -⟩
    · exact absurd h hne
    · exact Or.inl h
  | tail _ hturn ih =>
    obtain ⟨hbase, hnew⟩ := hturn
    rcases List.prefix_concat_iff.mp hlisted with rfl | hlisted
    · exact Or.inl rfl
    · rcases ih hlisted with rfl | hmore
      · exact Or.inr ⟨_, .base hbase hnew⟩
      · exact Or.inr hmore

/-- What stands behind the first name is written as a base somewhere in the table. -/
theorem subset_baseTexts {above : List String}
    (h : (name :: above).IsChain fun x base => t.baseOf? x = some base) :
    above ⊆ t.baseTexts := by
  induction above generalizing name with
  | nil => exact List.nil_subset _
  | cons base above ih =>
    obtain ⟨hbase, habove⟩ := List.isChain_cons_cons.mp h
    exact List.cons_subset.mpr ⟨mem_baseTexts hbase, ih habove⟩

/-- No more names are listed than there are base texts, apart from the first. -/
theorem Linked.length_le (h : t.Linked name names) :
    names.length ≤ t.baseTexts.dedup.length + 1 := by
  obtain ⟨hstarts, hdistinct, hlinked⟩ := h
  cases names with
  | nil => cases hstarts
  | cons x above =>
    have hsub : above ⊆ t.baseTexts.dedup := fun base hbase =>
      List.mem_dedup.mpr (subset_baseTexts hlinked hbase)
    have hle := (hdistinct.of_cons.subperm hsub).length_le
    rw [List.length_cons]
    omega

/-! ## The names that are listed -/

/-- Behind the names that have been seen, the names above the last of them come by turns, and the
walk stops there. -/
theorem extends_basesFrom {seen : List String} (front : List String)
    (hseen : ∀ x, x ∈ seen ↔ x ∈ front ++ [name]) :
    Relation.ReflTransGen t.Extends (front ++ [name])
        (front ++ name :: (t.basesFrom seen name).names) ∧
      t.Stops (front ++ name :: (t.basesFrom seen name).names) := by
  fun_induction t.basesFrom seen name generalizing front with
  | case1 seen name hc => exact ⟨.refl, .unknown (List.getLast?_concat ..) hc⟩
  | case2 seen name c hc hb => exact ⟨.refl, .topmost (List.getLast?_concat ..) hc hb⟩
  | case3 seen name c hc base hb hs =>
    exact ⟨.refl, .closed (List.getLast?_concat ..) hc hb ((hseen base).mp hs)⟩
  | case4 seen name c hc base hb hs hm hlt above ih =>
    have hnew : base ∉ front ++ [name] := fun h => hs ((hseen base).mpr h)
    have hseen' : ∀ x, x ∈ base :: seen ↔ x ∈ front ++ [name] ++ [base] := by
      intro x
      rw [List.mem_cons, hseen, List.mem_append (t := [base]), List.mem_singleton, or_comm]
    have hturn : t.Extends (front ++ [name]) (front ++ [name] ++ [base]) :=
      .base (baseOf?_eq_some_iff.mpr ⟨c, hc, hb⟩) hnew
    obtain ⟨hrun, hstops⟩ := ih (front ++ [name]) hseen'
    change Relation.ReflTransGen _ _ (front ++ name :: base :: above.names) ∧
      t.Stops (front ++ name :: base :: above.names)
    rw [List.append_cons front name (base :: above.names)]
    exact ⟨.head hturn hrun, hstops⟩

/-- **The walk from a name.**  No walk goes on for ever, and this one ends with the names that are
listed: they start with the name, none stands twice, and each further one is the base text of the
class that the one before it finds.  The walk stops behind the last of them and nowhere before, for
there the name is unknown, its class has no base, or the base text has been listed.  Apart from the
name itself there are no more of them than different base texts in the table. -/
theorem ancestryNames_walk (t : ClassTable) (name : String) :
    (WellFounded fun later earlier => t.Extends earlier later) ∧
      Relation.ReflTransGen t.Extends [name] (t.ancestryNames name) ∧
      (∀ more, ¬ t.Extends (t.ancestryNames name) more) ∧
      t.Linked name (t.ancestryNames name) ∧
      (∀ listed, listed ≠ [] → listed <+: t.ancestryNames name →
        (t.Stops listed ↔ listed = t.ancestryNames name)) ∧
      (t.ancestryNames name).length ≤ t.baseTexts.dedup.length + 1 := by
  have hends : Relation.ReflTransGen t.Extends [name] (t.ancestryNames name) ∧
      t.Stops (t.ancestryNames name) := extends_basesFrom [] fun _ => Iff.rfl
  obtain ⟨hrun, hstops⟩ := hends
  have hlinked := Linked.run hrun
  refine ⟨extends_wellFounded t, hrun, fun _ => hstops.not_extends, hlinked, ?_, hlinked.length_le⟩
  intro listed hne hlisted
  constructor
  · intro hstop
    refine (extends_of_initial hrun hne hlisted).resolve_right ?_
    rintro ⟨more, hmore⟩
    exact hstop.not_extends hmore
  · rintro rfl
    exact hstops

-- A class that names itself by its short name comes up twice before the walk stops.
example :
    (insertAll {} [{ name := "Game.Hero", base := some "Hero" }]).2.ancestryNames "Game.Hero" =
      ["Game.Hero", "Hero"] := by
  decide +kernel

end NetSchema.ClassTable
