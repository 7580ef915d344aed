import Mathlib.Data.List.Nodup
import NetSchema.Class.Table
import NetSchema.Proofs.OrderedMap

/-!
# What a class table holds

A table lists its classes in the order in which they were inserted, and beside them the script of
each class that has one.  Names and scripts do not repeat, and that is all that an insertion asks
for.

* `Holds.insert`, `Holds.insertAll`: what insertions come to;
* `insertAll_ok_iff`: classes can all be inserted exactly if their names and scripts differ;
* `Holds.class?_perm`, `Holds.ofScript?_perm`: look-ups do not depend on the order of the classes.
-/

namespace NetSchema

namespace OrderedMap

variable {κ α : Type} [DecidableEq κ]

/-- A look-up does not depend on the order of the entries. -/
theorem get?_perm {m m' : OrderedMap κ α} (h : m.entries.Perm m'.entries) (k : κ) :
    m.get? k = m'.get? k := by
  apply Option.ext
  intro a
  rw [get?_eq_some_iff, get?_eq_some_iff]
  exact h.mem_iff

end OrderedMap

/-- The script of a class as a table keeps it, with the name of the class. -/
def ClassDecl.scriptClass? (c : ClassDecl) : Option (String × String) :=
  c.script.map fun script => (normalizeScript script, c.name)

/-- No two of the classes share a name, and no two of them share a script. -/
structure ClassDecl.Distinct (cs : List ClassDecl) : Prop where
  names : (cs.map ClassDecl.name).Nodup
  scripts : ((cs.filterMap scriptClass?).map Prod.fst).Nodup

namespace ClassTable

open ClassDecl

/-- The table holds exactly these classes and their scripts. -/
structure Holds (t : ClassTable) (cs : List ClassDecl) : Prop where
  classes : t.classes.entries = cs.map fun c => (c.name, c)
  scripts : t.scripts.entries = cs.filterMap scriptClass?

variable {t t' : ClassTable} {cs cs' ds : List ClassDecl} {c : ClassDecl}

theorem holds_empty : Holds {} [] := ⟨rfl, rfl⟩

namespace Holds

theorem classKeys (h : t.Holds cs) : t.classes.keys = cs.map ClassDecl.name := by
  rw [OrderedMap.keys, h.classes, List.map_map]
  rfl

theorem scriptKeys (h : t.Holds cs) :
    t.scripts.keys = (cs.filterMap scriptClass?).map Prod.fst := by
  rw [OrderedMap.keys, h.scripts]

theorem values (h : t.Holds cs) : t.classes.values = cs := by
  rw [OrderedMap.values, h.classes, List.map_map]
  exact List.map_id cs

theorem get?_classes_iff (h : t.Holds cs) {name : String} :
    t.classes.get? name = some c ↔ c ∈ cs ∧ c.name = name := by
  rw [OrderedMap.get?_eq_some_iff, h.classes]
  constructor
  · intro hm
    obtain ⟨d, hd, he⟩ := List.mem_map.mp hm
    obtain ⟨rfl, rfl⟩ := Prod.mk.inj he
    exact ⟨hd, rfl⟩
  · rintro ⟨hc, rfl⟩
    exact List.mem_map.mpr ⟨c, hc, rfl⟩

theorem distinct (h : t.Holds cs) : Distinct cs where
  names := h.classKeys ▸ t.classes.keys_nodup
  scripts := h.scriptKeys ▸ t.scripts.keys_nodup

end Holds

/-! ## Insertions -/

theorem distinct_concat_iff :
    Distinct (cs ++ [c]) ↔ Distinct cs ∧ c.name ∉ cs.map ClassDecl.name ∧
      ∀ e, c.scriptClass? = some e → e.1 ∉ (cs.filterMap scriptClass?).map Prod.fst := by
  have hnames : ((cs ++ [c]).map ClassDecl.name).Nodup ↔
      (cs.map ClassDecl.name).Nodup ∧ c.name ∉ cs.map ClassDecl.name := by
    rw [List.map_append, List.map_singleton, ← List.concat_eq_append, List.nodup_concat, and_comm]
  constructor
  · intro h
    obtain ⟨hn, hnew⟩ := hnames.mp h.names
    have hs := h.scripts
    rw [List.filterMap_append, List.map_append, List.nodup_append] at hs
    refine ⟨⟨hn, hs.1⟩, hnew, ?_⟩
    intro e he hmem
    exact hs.2.2 e.1 hmem e.1 (by simp [he]) rfl
  · rintro ⟨h, hnew, hscript⟩
    refine ⟨hnames.mpr ⟨h.names, hnew⟩, ?_⟩
    rw [List.filterMap_append, List.map_append]
    cases he : c.scriptClass? with
    | none => simpa [he] using h.scripts
    | some e =>
      rw [List.filterMap_cons_some he, List.filterMap_nil, List.map_singleton,
        ← List.concat_eq_append]
      exact h.scripts.concat (hscript e he)

/-! An insertion by cases. -/

theorem contains_iff : t.classes.contains c.name = true ↔ c.name ∈ t.classes.keys := by
  rw [OrderedMap.contains, ← Option.ne_none_iff_isSome, Ne, OrderedMap.get?_eq_none_iff, not_not]

theorem insert_known (h : c.name ∈ t.classes.keys) :
    t.insert c = .error (.duplicateClass c.name) := by
  rw [ClassTable.insert, if_pos (contains_iff.mpr h)]

theorem insert_plain (h : c.name ∉ t.classes.keys) (hs : c.script = none) :
    t.insert c = .ok { t with classes := t.classes.insert c.name c } := by
  rw [ClassTable.insert, if_neg (mt contains_iff.mp h), hs]

theorem insert_scripted {script : String} (h : c.name ∉ t.classes.keys)
    (hs : c.script = some script) (hnew : normalizeScript script ∉ t.scripts.keys) :
    t.insert c = .ok {
      classes := t.classes.insert c.name c
      scripts := t.scripts.insert (normalizeScript script) c.name } := by
  rw [ClassTable.insert, if_neg (mt contains_iff.mp h), hs]
  simp only [OrderedMap.get?_eq_none_iff.mpr hnew]

theorem insert_claimed {script first : String} (h : c.name ∉ t.classes.keys)
    (hs : c.script = some script) (hg : t.scripts.get? (normalizeScript script) = some first) :
    t.insert c = .error (.duplicateScript script first c.name) := by
  rw [ClassTable.insert, if_neg (mt contains_iff.mp h), hs]
  simp only [hg]

/-- A class is inserted exactly if it shares neither its name nor its script with another. -/
theorem Holds.insert (h : t.Holds cs) (c : ClassDecl) :
    (Distinct (cs ++ [c]) ∧ ∃ t', t.insert c = .ok t' ∧ t'.Holds (cs ++ [c])) ∨
      (¬ Distinct (cs ++ [c]) ∧ ∃ e, t.insert c = .error e) := by
  rw [distinct_concat_iff, ← h.classKeys, ← h.scriptKeys]
  by_cases hname : c.name ∈ t.classes.keys
  · exact Or.inr ⟨fun hd => hd.2.1 hname, _, insert_known hname⟩
  · have hclasses : (t.classes.insert c.name c).entries =
        (cs ++ [c]).map fun c => (c.name, c) := by
      rw [OrderedMap.entries_insert_new hname, h.classes, List.map_append, List.map_singleton]
    cases hs : c.script with
    | none =>
      have he : c.scriptClass? = none := by rw [scriptClass?, hs, Option.map_none]
      refine Or.inl ⟨⟨h.distinct, hname, by simp [he]⟩, _, insert_plain hname hs, ⟨hclasses, ?_⟩⟩
      rw [List.filterMap_append, List.filterMap_cons_none he, List.filterMap_nil, List.append_nil]
      exact h.scripts
    | some script =>
      have he : c.scriptClass? = some (normalizeScript script, c.name) := by
        rw [scriptClass?, hs, Option.map_some]
      by_cases hnew : normalizeScript script ∈ t.scripts.keys
      · obtain ⟨first, hg⟩ := Option.ne_none_iff_exists'.mp
          (mt OrderedMap.get?_eq_none_iff.mp (not_not.mpr hnew))
        exact Or.inr ⟨fun hd => hd.2.2 _ he hnew, _, insert_claimed hname hs hg⟩
      · refine Or.inl ⟨⟨h.distinct, hname, ?_⟩, _, insert_scripted hname hs hnew, ⟨hclasses, ?_⟩⟩
        · intro e he'
          obtain rfl := Option.some.inj (he.symm.trans he')
          exact hnew
        · rw [OrderedMap.entries_insert_new hnew, h.scripts, List.filterMap_append,
            List.filterMap_cons_some he, List.filterMap_nil]

/-- **Insertions.**  Classes are all inserted exactly if none of them repeats a name or a script. -/
theorem Holds.insertAll (h : t.Holds cs) (ds : List ClassDecl) :
    ((t.insertAll ds).1 = .ok () ↔ Distinct (cs ++ ds)) ∧
      ((t.insertAll ds).1 = .ok () → (t.insertAll ds).2.Holds (cs ++ ds)) := by
  induction ds generalizing t cs with
  | nil =>
    rw [List.append_nil]
    exact ⟨⟨fun _ => h.distinct, fun _ => rfl⟩, fun _ => h⟩
  | cons d ds ih =>
    rw [List.append_cons, ClassTable.insertAll]
    rcases h.insert d with ⟨-, t', hok, ht'⟩ | ⟨hnot, e, herror⟩
    · rw [hok]
      exact ih ht'
    · rw [herror]
      refine ⟨⟨fun he => (nomatch he), ?_⟩, fun he => nomatch he⟩
      intro hd
      -- a repetition among the first classes is one among all of them
      refine absurd ⟨?_, ?_⟩ hnot
      · have hn := hd.names
        rw [List.map_append] at hn
        exact hn.of_append_left
      · have hs := hd.scripts
        rw [List.filterMap_append, List.map_append] at hs
        exact hs.of_append_left

theorem insertAll_ok_iff (cs : List ClassDecl) :
    (insertAll {} cs).1 = .ok () ↔ Distinct cs :=
  (holds_empty.insertAll cs).1

/-- Whether names and scripts repeat does not depend on the order. -/
theorem distinct_perm (hp : cs.Perm cs') : Distinct cs ↔ Distinct cs' := by
  have hnames := (hp.map ClassDecl.name).nodup_iff
  have hscripts := ((hp.filterMap scriptClass?).map Prod.fst).nodup_iff
  constructor
  · rintro ⟨hn, hs⟩
    exact ⟨hnames.mp hn, hscripts.mp hs⟩
  · rintro ⟨hn, hs⟩
    exact ⟨hnames.mpr hn, hscripts.mpr hs⟩

theorem holds_of_insertAll (h : (insertAll {} cs).1 = .ok ()) : (insertAll {} cs).2.Holds cs :=
  (holds_empty.insertAll cs).2 h

/-! ## Look-ups -/

section OnlyMatch

variable {α : Type} {p : α → Bool} {as bs : List α} {a : α}

theorem onlyMatch?_eq_some_iff : onlyMatch? p as = some a ↔ as.filter p = [a] := by
  unfold onlyMatch?
  split
  · next b hb => simp [hb]
  · next hnot =>
    constructor
    · intro h
      cases h
    · intro h
      exact absurd h (hnot a)

/-- Among elements that do not repeat, the only match is the one that all matches equal. -/
theorem onlyMatch?_iff_of_nodup (has : as.Nodup) :
    onlyMatch? p as = some a ↔ a ∈ as ∧ p a = true ∧ ∀ b ∈ as, p b = true → b = a := by
  rw [onlyMatch?_eq_some_iff]
  constructor
  · intro hf
    have hmem : ∀ b, b ∈ as ∧ p b = true ↔ b = a := by
      intro b
      rw [← List.mem_filter, hf, List.mem_singleton]
    obtain ⟨ha, hp⟩ := (hmem a).mpr rfl
    exact ⟨ha, hp, fun b hb hpb => (hmem b).mp ⟨hb, hpb⟩⟩
  · rintro ⟨ha, hp, honly⟩
    have hperm : (as.filter p).Perm [a] := by
      refine (List.perm_ext_iff_of_nodup (has.filter p) (List.nodup_singleton a)).mpr ?_
      intro b
      rw [List.mem_filter, List.mem_singleton]
      constructor
      · rintro ⟨hb, hpb⟩
        exact honly b hb hpb
      · rintro rfl
        exact ⟨ha, hp⟩
    exact List.perm_singleton.mp hperm

/-- Whether there is just one match does not depend on the order. -/
theorem onlyMatch?_perm (h : as.Perm bs) : onlyMatch? p as = onlyMatch? p bs := by
  apply Option.ext
  intro a
  have hf := h.filter p
  rw [onlyMatch?_eq_some_iff, onlyMatch?_eq_some_iff]
  constructor
  · intro ha
    rw [ha] at hf
    exact List.perm_singleton.mp hf.symm
  · intro hb
    rw [hb] at hf
    exact List.perm_singleton.mp hf

end OnlyMatch

theorem Holds.class?_perm (h : t.Holds cs) (h' : t'.Holds cs') (hp : cs.Perm cs') (name : String) :
    t.class? name = t'.class? name := by
  have hget : t.classes.get? name = t'.classes.get? name := by
    apply OrderedMap.get?_perm
    rw [h.classes, h'.classes]
    exact hp.map _
  rw [class?, class?, hget, h.values, h'.values, onlyMatch?_perm hp]

theorem Holds.ofScript?_perm (h : t.Holds cs) (h' : t'.Holds cs') (hp : cs.Perm cs')
    (script : String) : t.ofScript? script = t'.ofScript? script := by
  have hclass : ∀ name, t.classes.get? name = t'.classes.get? name := by
    intro name
    apply OrderedMap.get?_perm
    rw [h.classes, h'.classes]
    exact hp.map _
  have hscripts : t.scripts.entries.Perm t'.scripts.entries := by
    rw [h.scripts, h'.scripts]
    exact hp.filterMap _
  have hget : ∀ key, t.scripts.get? key = t'.scripts.get? key := OrderedMap.get?_perm hscripts
  have hkeys : t.scripts.keys.Perm t'.scripts.keys := hscripts.map _
  simp only [ofScript?, hget, onlyMatch?_perm hkeys, funext hclass]

end ClassTable

end NetSchema
