import Mathlib.Data.List.Nodup
import NetSchema.Proofs.Class.Contents
import NetSchema.Proofs.Text

/-!
# The class of a script

A table keeps one path for each class that has a script.  A script text stands for the path that is
left of it without scheme and leading slashes.  The class with this path is found.  Where there is
none, a class is found whose path is this one in some directory, if there is just one such class;
and this is so for every text, also for one that names the scheme or directories.

* `Holds.classOfPath_iff`: a path is that of at most one class;
* `Holds.ofScript?_eq_some_iff`: which class a script text finds;
* `Holds.script_by_path`: when this is the class of another path;
* `Playground.found_elsewhere`: a full path that finds the class of another file.
-/

namespace NetSchema

/-- The path of the script of a class. -/
def ClassDecl.path? (c : ClassDecl) : Option String := c.script.map normalizeScript

/-- A script text is a full path if it begins with the scheme. -/
def IsFullPath (script : String) : Prop :=
  Text.startsWith "res://" (Text.replaceChar '\\' '/' (Text.trim script)) = true

/-- `path` is `key` in some directory. -/
def InDirectory (key path : String) : Prop := ∃ directory, path = directory ++ ("/" ++ key)

namespace ClassTable

open ClassDecl

variable {t : ClassTable} {cs : List ClassDecl} {c : ClassDecl} {path script : String}

/-- No class has the path `key`, and `c` is the only class with this path in some directory. -/
structure StandsIn (cs : List ClassDecl) (key : String) (c : ClassDecl) : Prop where
  unclaimed : ∀ d ∈ cs, d.path? ≠ some key
  below : ∃ path, c.path? = some path ∧ InDirectory key path
  only : ∀ d ∈ cs, ∀ path, d.path? = some path → InDirectory key path → d = c

/-! ## Paths of classes -/

theorem scriptClass?_eq_some_iff {name : String} :
    c.scriptClass? = some (path, name) ↔ c.path? = some path ∧ c.name = name := by
  cases hs : c.script <;> simp [scriptClass?, path?, hs]

namespace Holds

theorem get?_scripts_iff (h : t.Holds cs) {name : String} :
    t.scripts.get? path = some name ↔ ∃ c ∈ cs, c.path? = some path ∧ c.name = name := by
  rw [OrderedMap.get?_eq_some_iff, h.scripts, List.mem_filterMap]
  simp only [scriptClass?_eq_some_iff]

theorem mem_scriptKeys_iff (h : t.Holds cs) :
    path ∈ t.scripts.keys ↔ ∃ c ∈ cs, c.path? = some path := by
  rw [← not_iff_not, ← OrderedMap.get?_eq_none_iff, Option.eq_none_iff_forall_ne_some]
  constructor
  · rintro hnone ⟨c, hc, hp⟩
    exact hnone c.name (h.get?_scripts_iff.mpr ⟨c, hc, hp, rfl⟩)
  · intro hnot name hg
    obtain ⟨c, hc, hp, -⟩ := h.get?_scripts_iff.mp hg
    exact hnot ⟨c, hc, hp⟩

/-- The class that the table gives for a path is the one with this path. -/
theorem classOfPath_iff (h : t.Holds cs) :
    (t.scripts.get? path).bind t.classes.get? = some c ↔ c ∈ cs ∧ c.path? = some path := by
  rw [Option.bind_eq_some_iff]
  constructor
  · rintro ⟨name, hname, hc⟩
    obtain ⟨d, hd, hp, rfl⟩ := h.get?_scripts_iff.mp hname
    obtain ⟨hcs, he⟩ := h.get?_classes_iff.mp hc
    obtain rfl := List.inj_on_of_nodup_map h.distinct.names hcs hd he
    exact ⟨hd, hp⟩
  · rintro ⟨hc, hp⟩
    exact ⟨c.name, h.get?_scripts_iff.mpr ⟨c, hc, hp, rfl⟩, h.get?_classes_iff.mpr ⟨hc, rfl⟩⟩

/-- No two classes have the same path. -/
theorem eq_of_path? (h : t.Holds cs) {d : ClassDecl} (hc : c ∈ cs) (hd : d ∈ cs)
    (hpc : c.path? = some path) (hpd : d.path? = some path) : c = d :=
  Option.some.inj ((h.classOfPath_iff.mpr ⟨hc, hpc⟩).symm.trans (h.classOfPath_iff.mpr ⟨hd, hpd⟩))

end Holds

/-! ## Looking up a script -/

/-- The path that stands in for `key` is the only one in a directory. -/
theorem onlyMatch?_path_iff {key : String} :
    onlyMatch? (fun path => Text.endsWith ("/" ++ key) path) t.scripts.keys = some path ↔
      path ∈ t.scripts.keys ∧ InDirectory key path ∧
        ∀ path' ∈ t.scripts.keys, InDirectory key path' → path' = path := by
  have hkeys : t.scripts.keys.Nodup := t.scripts.keys_nodup
  rw [onlyMatch?_iff_of_nodup hkeys]
  simp only [Text.endsWith_iff, InDirectory]

theorem ofScript?_of_mem (h : normalizeScript script ∈ t.scripts.keys) :
    t.ofScript? script = (t.scripts.get? (normalizeScript script)).bind t.classes.get? := by
  obtain ⟨name, hname⟩ := Option.ne_none_iff_exists'.mp
    (mt OrderedMap.get?_eq_none_iff.mp (not_not.mpr h))
  simp only [ofScript?, hname, Option.bind_some]

theorem ofScript?_of_not_mem (h : normalizeScript script ∉ t.scripts.keys) :
    t.ofScript? script =
      (onlyMatch? (fun path => Text.endsWith ("/" ++ normalizeScript script) path)
        t.scripts.keys).bind fun path => (t.scripts.get? path).bind t.classes.get? := by
  simp only [ofScript?, OrderedMap.get?_eq_none_iff.mpr h]
  cases onlyMatch? (fun path => Text.endsWith ("/" ++ normalizeScript script) path)
    t.scripts.keys <;> rfl

/-- **Looking up.**  A script text finds the class with its path, and where there is none the only
class with this path in a directory. -/
theorem Holds.ofScript?_eq_some_iff (h : t.Holds cs) :
    t.ofScript? script = some c ↔
      c ∈ cs ∧ (c.path? = some (normalizeScript script) ∨
        StandsIn cs (normalizeScript script) c) := by
  by_cases hkey : normalizeScript script ∈ t.scripts.keys
  · obtain ⟨d, hd, hp⟩ := h.mem_scriptKeys_iff.mp hkey
    rw [ofScript?_of_mem hkey, h.classOfPath_iff]
    constructor
    · rintro ⟨hc, hpc⟩
      exact ⟨hc, Or.inl hpc⟩
    · rintro ⟨hc, hpc | hstands⟩
      · exact ⟨hc, hpc⟩
      · exact absurd hp (hstands.unclaimed d hd)
  · have hunclaimed : ∀ d ∈ cs, d.path? ≠ some (normalizeScript script) :=
      fun d hd hp => hkey (h.mem_scriptKeys_iff.mpr ⟨d, hd, hp⟩)
    rw [ofScript?_of_not_mem hkey, Option.bind_eq_some_iff]
    simp only [h.classOfPath_iff, onlyMatch?_path_iff, h.mem_scriptKeys_iff]
    constructor
    · rintro ⟨path, ⟨-, hdir, honly⟩, hc, hp⟩
      refine ⟨hc, Or.inr ⟨hunclaimed, ⟨path, hp, hdir⟩, ?_⟩⟩
      intro d hd path' hp' hdir'
      obtain rfl := honly path' ⟨d, hd, hp'⟩ hdir'
      exact h.eq_of_path? hd hc hp' hp
    · rintro ⟨hc, hpc | hstands⟩
      · exact absurd hpc (hunclaimed c hc)
      · obtain ⟨path, hp, hdir⟩ := hstands.below
        refine ⟨path, ⟨⟨c, hc, hp⟩, hdir, ?_⟩, hc, hp⟩
        rintro path' ⟨d, hd, hp'⟩ hdir'
        obtain rfl := hstands.only d hd path' hp' hdir'
        exact Option.some.inj (hp'.symm.trans hp)

/-- **Scripts by path.**  A script text finds the class with its path, and where there is none the
only class with this path in a directory.  So a text of which the path is that of a class finds this
class and no other; and a text finds the class of another file exactly if its path is that of no
class and, in a directory, that of just one.  Whether the text is a full path makes no
difference. -/
theorem Holds.script_by_path (h : t.Holds cs) (script : String) :
    (∀ c, t.ofScript? script = some c ↔
      c ∈ cs ∧ (c.path? = some (normalizeScript script) ∨
        StandsIn cs (normalizeScript script) c)) ∧
      (∀ c ∈ cs, c.path? = some (normalizeScript script) → t.ofScript? script = some c) ∧
      ((∃ c, t.ofScript? script = some c ∧ c.path? ≠ some (normalizeScript script)) ↔
        ∃ c ∈ cs, StandsIn cs (normalizeScript script) c) := by
  refine ⟨fun c => h.ofScript?_eq_some_iff, ?_, ?_⟩
  · intro c hc hp
    exact h.ofScript?_eq_some_iff.mpr ⟨hc, Or.inl hp⟩
  · constructor
    · rintro ⟨c, hfound, hp⟩
      obtain ⟨hc, hpc | hstands⟩ := h.ofScript?_eq_some_iff.mp hfound
      · exact absurd hpc hp
      · exact ⟨c, hc, hstands⟩
    · rintro ⟨c, hc, hstands⟩
      exact ⟨c, h.ofScript?_eq_some_iff.mpr ⟨hc, Or.inr hstands⟩, hstands.unclaimed c hc⟩

end ClassTable

/-! ## A full path that finds another file -/

namespace Playground

open ClassTable

def player : ClassDecl := { name := "Game.Player", script := some "res://scripts/player.cs" }

def classes : ClassTable := (insertAll {} [player]).2

theorem classes_hold : classes.Holds [player] :=
  holds_of_insertAll (by with_unfolding_all rfl)

theorem player_found : classes.ofScript? "res://player.cs" = some player := by
  with_unfolding_all rfl

theorem key_of_player : normalizeScript "res://player.cs" = "player.cs" := by
  with_unfolding_all rfl

theorem path_of_player : player.path? = some "scripts/player.cs" := by with_unfolding_all rfl

/-- The text is a full path, and it finds the class of a file in another directory. -/
theorem found_elsewhere :
    IsFullPath "res://player.cs" ∧ classes.ofScript? "res://player.cs" = some player ∧
      player.path? = some "scripts/player.cs" ∧
      normalizeScript "res://player.cs" = "player.cs" :=
  ⟨by with_unfolding_all rfl, player_found, path_of_player, key_of_player⟩

/-- The class is found because its path is the only one that ends in `player.cs`. -/
theorem player_stands_in :
    classes.ofScript? "res://player.cs" = some player ∧
      StandsIn [player] "player.cs" player := by
  have hpath : player.path? ≠ some (normalizeScript "res://player.cs") := by
    rw [path_of_player, key_of_player]
    decide
  obtain ⟨c, hc, hstands⟩ :=
    (Holds.script_by_path classes_hold "res://player.cs").2.2.mp ⟨player, player_found, hpath⟩
  obtain rfl := List.mem_singleton.mp hc
  rw [key_of_player] at hstands
  exact ⟨player_found, hstands⟩

end Playground

end NetSchema
