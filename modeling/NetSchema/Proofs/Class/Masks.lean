import Mathlib.Data.Option.Basic
import NetSchema.Class.Attribute
import NetSchema.Proofs.OrderedMap

/-!
# Where the mask of a property comes from

An integer that the first network attribute of the property gives is the mask.  Where none is given,
it is the initializer that the attribute class declares.  Among the integers there is one that
stands for "not given", so it cannot be given as a mask: in its place there is what would be there
without it.

* `Gives.resolveArgument_eq`, `resolveArgument_eq_or`: what an argument comes to;
* `ClassLookup.trimmedFieldLiteral?_eq_some_iff`: what an attribute class declares;
* `ClassLookup.mask_by_source`: the mask for each source;
* `Layers.everywhere_not_taken`: a mask that is given and not taken.
-/

namespace NetSchema

/-! ## Arguments -/

/-- The first attribute called `attr` gives `argument` the value `v`. -/
def Gives (attributes : List Attribute) (attr argument : String) (v : ArgumentValue) : Prop :=
  ∃ before a after, attributes = before ++ a :: after ∧ (∀ b ∈ before, b.is attr = false) ∧
    a.is attr = true ∧ (argument, v) ∈ a.args.entries

variable {α : Type} {attributes : List Attribute} {attr argument : String} {v : ArgumentValue}

theorem argument?_eq_some_iff :
    argument? attributes attr argument = some v ↔ Gives attributes attr argument v := by
  unfold argument? findAttribute? Gives
  rw [Option.bind_eq_bind, Option.bind_eq_some_iff]
  simp only [List.find?_eq_some_iff_append, OrderedMap.get?_eq_some_iff, Bool.not_eq_true']
  constructor
  · rintro ⟨a, ⟨ha, before, after, rfl, hbefore⟩, hv⟩
    exact ⟨before, a, after, rfl, hbefore, ha, hv⟩
  · rintro ⟨before, a, after, rfl, hbefore, ha, hv⟩
    exact ⟨a, ⟨ha, before, after, rfl, hbefore⟩, hv⟩

variable {kind? : ArgumentValue → Option α} {a default : α}

theorem Gives.resolveArgument_eq (h : Gives attributes attr argument v) (hv : kind? v = some a) :
    resolveArgument kind? attributes attr argument default = a := by
  rw [resolveArgument, argument?_eq_some_iff.mpr h, Option.bind_some, hv, Option.getD_some]

/-- An argument comes to what it gives or to the default. -/
theorem resolveArgument_eq_or (kind? : ArgumentValue → Option α) (attributes : List Attribute)
    (attr argument : String) (default : α) :
    resolveArgument kind? attributes attr argument default = default ∨
      ∃ v, Gives attributes attr argument v ∧
        kind? v = some (resolveArgument kind? attributes attr argument default) := by
  cases h : (argument? attributes attr argument).bind kind? with
  | none => exact Or.inl (by rw [resolveArgument, h, Option.getD_none])
  | some a =>
    obtain ⟨v, hv, ha⟩ := Option.bind_eq_some_iff.mp h
    refine Or.inr ⟨v, argument?_eq_some_iff.mp hv, ?_⟩
    rw [resolveArgument, h, Option.getD_some, ha]

theorem ArgumentValue.asInt?_eq_some_iff {i : Int64} : v.asInt? = some i ↔ v = .int i := by
  cases v <;> simp [asInt?]

/-! ## Attribute classes -/

namespace ClassLookup

variable {find : ClassLookup} {field text : String} {c : ClassDecl}

/-- The class behind an attribute is called like it, or else like it with `Attribute` at its end. -/
def IsBehind (find : ClassLookup) (attr : String) (c : ClassDecl) : Prop :=
  find attr = some c ∨ find attr = none ∧ find (attr ++ "Attribute") = some c

/-- The class behind `attr` declares `field` with the initializer `text`. -/
def Declares (find : ClassLookup) (attr field text : String) : Prop :=
  ∃ c f, find.IsBehind attr c ∧ c.field? field = some f ∧ f.default = some text

theorem fieldLiteral?_eq_some_iff :
    find.fieldLiteral? attr field = some text ↔ find.Declares attr field text := by
  simp only [fieldLiteral?, Declares, IsBehind, Option.bind_eq_bind, Option.bind_eq_some_iff,
    Option.or_eq_some_iff]
  constructor
  · rintro ⟨c, hc, f, hf, htext⟩
    exact ⟨c, f, hc, hf, htext⟩
  · rintro ⟨c, f, hc, hf, htext⟩
    exact ⟨c, hc, f, hf, htext⟩

theorem trimmedFieldLiteral?_eq_some (h : find.Declares attr field text) :
    find.trimmedFieldLiteral? attr field = some (Text.trim text) := by
  rw [trimmedFieldLiteral?, fieldLiteral?_eq_some_iff.mpr h, Option.map_some]

theorem trimmedFieldLiteral?_eq_none (h : ∀ text, ¬ find.Declares attr field text) :
    find.trimmedFieldLiteral? attr field = none := by
  have hnone : find.fieldLiteral? attr field = none :=
    Option.eq_none_iff_forall_ne_some.mpr fun text ht => h text (fieldLiteral?_eq_some_iff.mp ht)
  rw [trimmedFieldLiteral?, hnone, Option.map_none]

/-! ## Masks -/

/-- The property gives the mask `i`. -/
abbrev GivesMask (attributes : List Attribute) (i : Int64) : Prop :=
  Gives attributes networkProperty interestMaskArgument (.int i)

theorem interestMask_of_given {i : Int64} (h : GivesMask attributes i) (hi : i ≠ noMask) :
    find.interestMask attributes = .explicit i := by
  have hgiven : resolveArgument ArgumentValue.asInt? attributes networkProperty
      interestMaskArgument noMask = i :=
    h.resolveArgument_eq (ArgumentValue.asInt?_eq_some_iff.mpr rfl)
  rw [interestMask, hgiven, if_pos hi]

theorem interestMask_of_not_given (h : ∀ i ≠ noMask, ¬ GivesMask attributes i) :
    find.interestMask attributes =
      ((find.trimmedFieldLiteral? networkProperty interestMaskArgument).map .defaultLiteral).getD
        (.explicit 0) := by
  have hgiven : resolveArgument ArgumentValue.asInt? attributes networkProperty
      interestMaskArgument noMask = noMask := by
    obtain hdefault | ⟨v, hv, hi⟩ := resolveArgument_eq_or ArgumentValue.asInt? attributes
      networkProperty interestMaskArgument noMask
    · exact hdefault
    · obtain rfl := ArgumentValue.asInt?_eq_some_iff.mp hi
      by_contra hne
      exact h _ hne hv
  rw [interestMask, hgiven, if_neg (not_not.mpr rfl)]
  cases find.trimmedFieldLiteral? networkProperty interestMaskArgument <;> rfl

/-- **Masks by source.**  An integer that is given is the mask, unless it is the one that stands for
"not given".  If no other integer is given, the mask is the initializer that the attribute class
declares, without blanks around it, and zero where none is declared. -/
theorem mask_by_source (find : ClassLookup) (attributes : List Attribute) :
    (∀ i ≠ noMask, GivesMask attributes i → find.interestMask attributes = .explicit i) ∧
      ((∀ i ≠ noMask, ¬ GivesMask attributes i) →
        (∀ text, find.Declares networkProperty interestMaskArgument text →
          find.interestMask attributes = .defaultLiteral (Text.trim text)) ∧
        ((∀ text, ¬ find.Declares networkProperty interestMaskArgument text) →
          find.interestMask attributes = .explicit 0)) := by
  refine ⟨fun i hi h => interestMask_of_given h hi, fun h => ⟨?_, ?_⟩⟩
  · intro text htext
    rw [interestMask_of_not_given h, trimmedFieldLiteral?_eq_some htext, Option.map_some,
      Option.getD_some]
  · intro htext
    rw [interestMask_of_not_given h, trimmedFieldLiteral?_eq_none htext, Option.map_none,
      Option.getD_none]

end ClassLookup

/-! ## The number that cannot be given -/

namespace Layers

open ClassLookup

/-- The attribute class, with an initializer for the mask. -/
def marker : ClassDecl where
  name := "NetworkPropertyAttribute"
  fields := [⟨"InterestMask", some "long", some " 4 "⟩]

def classes : ClassLookup := fun name => if name = marker.name then some marker else none

/-- A property that asks for `layers`. -/
def asksFor (layers : Int64) : List Attribute :=
  [{ name := "NetworkProperty", args := OrderedMap.ofList [("InterestMask", .int layers)] }]

theorem asksFor_gives (layers : Int64) : GivesMask (asksFor layers) layers := by
  have hname : shortTypeName "NetworkProperty" = networkProperty := by with_unfolding_all rfl
  refine ⟨[], _, [], rfl, List.forall_mem_nil _, ?_, List.mem_singleton.mpr rfl⟩
  rw [Attribute.is, Bool.or_eq_true]
  exact Or.inl (beq_iff_eq.mpr hname)

/-- A property asks for all layers, and the mask is the initializer. -/
theorem everywhere_not_taken :
    GivesMask (asksFor (-1)) (-1) ∧ classes.interestMask (asksFor (-1)) = .defaultLiteral "4" :=
  ⟨asksFor_gives (-1), by with_unfolding_all rfl⟩

theorem nothing_given (i : Int64) : ¬ GivesMask [] i := by
  rintro ⟨before, a, after, h, -⟩
  exact List.append_ne_nil_of_right_ne_nil before (List.cons_ne_nil a after) h.symm

theorem marker_declares : classes.Declares networkProperty interestMaskArgument " 4 " :=
  ⟨marker, _, Or.inr ⟨rfl, rfl⟩, rfl, rfl⟩

/-- Layers short of all are taken, and without any there is the initializer, or zero. -/
theorem layers_by_source :
    classes.interestMask (asksFor 1) = .explicit 1 ∧
      classes.interestMask [] = .defaultLiteral (Text.trim " 4 ") ∧
      ClassLookup.interestMask (fun _ => none) [] = .explicit 0 := by
  have hnothing : ∀ i ≠ noMask, ¬ GivesMask [] i := fun i _ => nothing_given i
  refine ⟨?_, ?_, ?_⟩
  · exact (mask_by_source classes (asksFor 1)).1 1 (by decide) (asksFor_gives 1)
  · exact ((mask_by_source classes []).2 hnothing).1 " 4 " marker_declares
  · refine ((mask_by_source (fun _ => none) []).2 hnothing).2 ?_
    rintro text ⟨c, f, hc | ⟨-, hc⟩, -⟩ <;> exact nomatch hc

end Layers

end NetSchema
