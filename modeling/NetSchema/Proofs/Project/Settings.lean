import NetSchema.Project.Load
import NetSchema.Proofs.Results
import NetSchema.Proofs.Text

/-!
# Settings that are read

A configuration that is read can be used: its scenes and its classes are resources, and no name in it
is blank.

* `ofToml_eq_ok_iff`: which tables are settings, and which settings they are;
* `error_of_malformed`: one malformed key is enough to make reading fail;
* `Usable`: what the rest of the program does with a configuration without a complaint;
* `read_usable`: configurations that are read are usable, with the texts that are given.
-/

namespace NetSchema

/-! ## Trimmed texts -/

namespace Text

theorem head?_dropWhile (p : Char → Bool) (s : List Char) :
    ∀ c ∈ (s.dropWhile p).head?, p c = false := by
  intro c hc
  have hhead := List.head?_dropWhile_not p s
  rw [hc] at hhead
  exact hhead

theorem trimmed_trimChars (s : List Char) : Trimmed (trimChars s) where
  head := by
    -- what is left of a text at its end starts as the text does
    have hprefix : trimChars s <+: s.dropWhile isBlank := by
      rw [trimChars, dropRightWhile, ← List.reverse_suffix, List.reverse_reverse]
      exact List.dropWhile_suffix _
    obtain ⟨rest, hrest⟩ := hprefix
    intro c hc
    apply head?_dropWhile isBlank s
    rw [← hrest, List.head?_append, Option.mem_def.mp hc]
    rfl
  last := by
    rw [trimChars, dropRightWhile, List.getLast?_reverse]
    exact head?_dropWhile isBlank _

end Text

/-! ## One setting -/

/-- What a setting reads: the text that is given without the blanks around it, or else the
default. -/
inductive SettingReads (table : Toml) (key default : String) : String → Prop
  | absent : table.get? key = none → SettingReads table key default default
  | given {s : String} : table.get? key = some (.string s) → Text.trim s ≠ "" →
      SettingReads table key default (Text.trim s)

/-- What the list of scenes reads. -/
inductive ScenesRead (table : Toml) : Option (List String) → Prop
  | absent : table.get? "scenes" = none → ScenesRead table none
  | given {paths : List String} : table.get? "scenes" = some (.array (paths.map .string)) →
      (∀ path ∈ paths, Resource.isResource path = true) → ScenesRead table (some paths)

namespace NetworkSettings

variable {table : Toml} {key default : String} {s : NetworkSettings}

theorem checkResource_eq_ok_iff {path : String} :
    checkResource key path = .ok () ↔ Resource.isResource path = true := by
  unfold checkResource
  split <;> simp_all

theorem asString?_eq_some_iff {t : Toml} {s : String} : t.asString? = some s ↔ t = .string s := by
  cases t <;> simp [Toml.asString?]

theorem textOfToml_eq_ok_iff {text : String} :
    textOfToml table key default = .ok text ↔ SettingReads table key default text := by
  unfold textOfToml
  constructor
  · intro h
    split at h
    · next hget =>
      cases h
      exact .absent hget
    · next t hget =>
      split at h
      · cases h
      · next s hs =>
        rw [asString?_eq_some_iff.mp hs] at hget
        dsimp only at h
        split at h
        · cases h
        · next hne =>
          cases h
          exact .given hget (by simpa using hne)
  · intro h
    cases h with
    | absent hget => rw [hget]
    | given hget hne =>
      rw [hget]
      simp [Toml.asString?, hne]

theorem sceneOfToml_eq_ok_iff {t : Toml} {path : String} :
    sceneOfToml t = .ok path ↔ t = .string path ∧ Resource.isResource path = true := by
  unfold sceneOfToml
  cases t with
  | string s =>
    by_cases hs : Resource.isResource s = true
    · simp only [Toml.asString?, checkResource, if_pos hs, Except.map, Except.ok.injEq,
        Toml.string.injEq]
      constructor
      · rintro rfl
        exact ⟨rfl, hs⟩
      · exact And.left
    · have hne : ¬ (s = path ∧ Resource.isResource path = true) := by
        rintro ⟨rfl, h⟩
        exact hs h
      simpa [Toml.asString?, checkResource, hs, Except.map] using hne
  | _ => simp [Toml.asString?]

/-- The scenes of a list are read one by one. -/
theorem forall₂_sceneOfToml_iff {items : List Toml} {paths : List String} :
    List.Forall₂ (fun t path => sceneOfToml t = .ok path) items paths ↔
      items = paths.map .string ∧ ∀ path ∈ paths, Resource.isResource path = true := by
  induction paths generalizing items with
  | nil => simp
  | cons path paths ih =>
    rw [List.forall₂_cons_right_iff]
    constructor
    · rintro ⟨t, items, ht, hitems, rfl⟩
      obtain ⟨rfl, hpath⟩ := sceneOfToml_eq_ok_iff.mp ht
      obtain ⟨rfl, hpaths⟩ := ih.mp hitems
      exact ⟨rfl, List.forall_mem_cons.mpr ⟨hpath, hpaths⟩⟩
    · rintro ⟨rfl, h⟩
      obtain ⟨hpath, hpaths⟩ := List.forall_mem_cons.mp h
      exact ⟨_, _, sceneOfToml_eq_ok_iff.mpr ⟨rfl, hpath⟩, ih.mpr ⟨rfl, hpaths⟩, rfl⟩

theorem scenesOfToml_eq_ok_iff {scenes : Option (List String)} :
    scenesOfToml table = .ok scenes ↔ ScenesRead table scenes := by
  unfold scenesOfToml
  constructor
  · intro h
    split at h
    · next hget =>
      cases h
      exact .absent hget
    · next t hget =>
      cases t with
      | array items =>
        cases hpaths : items.mapM sceneOfToml with
        | error e =>
          simp [Toml.asArray?, hpaths, Except.map] at h
        | ok paths =>
          simp only [Toml.asArray?, hpaths, Except.map, Except.ok.injEq] at h
          subst h
          obtain ⟨rfl, hall⟩ := forall₂_sceneOfToml_iff.mp (mapM_eq_ok_iff.mp hpaths)
          exact .given hget hall
      | _ => cases h
  · intro h
    cases h with
    | absent hget => rw [hget]
    | given hget hall =>
      have hpaths := mapM_eq_ok_iff.mpr (forall₂_sceneOfToml_iff.mpr ⟨rfl, hall⟩)
      rw [hget]
      simp [Toml.asArray?, hpaths, Except.map]

/-! ## All settings -/

/-- The settings that are texts, by their keys. -/
def texts : List (String × (NetworkSettings → String)) :=
  [("classes", classes), ("base_type", baseType), ("identity_property", identityProperty),
    ("async_peer_value_type", asyncPeerValueType),
    ("network_serializer_interface", networkSerializerInterface),
    ("bson_serializer_interface", bsonSerializerInterface)]

/-- What a table of settings reads. -/
structure Reads (table : Toml) (s : NetworkSettings) : Prop where
  scenes : ScenesRead table s.scenes
  text : ∀ e ∈ texts, SettingReads table e.1 (e.2 {}) (e.2 s)
  classes : Resource.isResource s.classes = true

/-- **Settings.**  A table is read if each of its keys is well-formed, each setting for itself. -/
theorem ofToml_eq_ok_iff : ofToml table = .ok s ↔ Reads table s := by
  unfold ofToml
  constructor
  · intro h
    obtain ⟨scenes, hscenes, h⟩ := bind_eq_ok_iff.mp h
    obtain ⟨classes, hclasses, h⟩ := bind_eq_ok_iff.mp h
    obtain ⟨⟨⟩, hresource, h⟩ := bind_eq_ok_iff.mp h
    obtain ⟨baseType, hbase, h⟩ := bind_eq_ok_iff.mp h
    obtain ⟨identity, hidentity, h⟩ := bind_eq_ok_iff.mp h
    obtain ⟨peer, hpeer, h⟩ := bind_eq_ok_iff.mp h
    obtain ⟨network, hnetwork, h⟩ := bind_eq_ok_iff.mp h
    obtain ⟨bson, hbson, h⟩ := bind_eq_ok_iff.mp h
    cases h
    refine ⟨scenesOfToml_eq_ok_iff.mp hscenes, ?_, checkResource_eq_ok_iff.mp hresource⟩
    simp only [texts, List.forall_mem_cons, ← textOfToml_eq_ok_iff]
    exact ⟨hclasses, hbase, hidentity, hpeer, hnetwork, hbson, by simp⟩
  · rintro ⟨hscenes, htexts, hresource⟩
    simp only [texts, List.forall_mem_cons, ← textOfToml_eq_ok_iff] at htexts
    obtain ⟨hclasses, hbase, hidentity, hpeer, hnetwork, hbson, -⟩ := htexts
    refine bind_eq_ok_iff.mpr ⟨_, scenesOfToml_eq_ok_iff.mpr hscenes, ?_⟩
    refine bind_eq_ok_iff.mpr ⟨_, hclasses, ?_⟩
    refine bind_eq_ok_iff.mpr ⟨(), checkResource_eq_ok_iff.mpr hresource, ?_⟩
    refine bind_eq_ok_iff.mpr ⟨_, hbase, bind_eq_ok_iff.mpr ⟨_, hidentity, ?_⟩⟩
    refine bind_eq_ok_iff.mpr ⟨_, hpeer, bind_eq_ok_iff.mpr ⟨_, hnetwork, ?_⟩⟩
    exact bind_eq_ok_iff.mpr ⟨_, hbson, rfl⟩

/-- What may not stand at a key: at `scenes` all but lists of texts, and at the other settings all
but texts that are not blank. -/
def Malformed (key : String) (v : Toml) : Prop :=
  (key = "scenes" ∧ ∀ paths : List String, v ≠ .array (paths.map .string)) ∨
    (key ∈ texts.map Prod.fst ∧ ∀ text, v = .string text → Text.trim text = "")

/-- **One malformed key** is enough. -/
theorem error_of_malformed {v : Toml} (hget : table.get? key = some v) (hv : Malformed key v) :
    ∃ e, ofToml table = .error e := by
  cases h : ofToml table with
  | error e => exact ⟨e, rfl⟩
  | ok s =>
    exfalso
    have hreads := ofToml_eq_ok_iff.mp h
    rcases hv with ⟨rfl, hv⟩ | ⟨hkey, hv⟩
    · have hscenes := hreads.scenes
      generalize s.scenes = scenes at hscenes
      cases hscenes with
      | absent hnone => simp [hnone] at hget
      | given hsome _ =>
        rw [hsome] at hget
        exact hv _ (Option.some.inj hget).symm
    · obtain ⟨e, he, rfl⟩ := List.mem_map.mp hkey
      have htext := hreads.text e he
      generalize e.2 s = text at htext
      cases htext with
      | absent hnone => simp [hnone] at hget
      | given hsome hne =>
        rw [hsome] at hget
        exact hne (hv _ (Option.some.inj hget).symm)

theorem texts_default : ∀ e ∈ texts, e.2 {} ≠ "" ∧ Text.Trimmed (e.2 {}).toList := by
  have hblank : ∀ e ∈ texts, e.2 {} ≠ "" ∧ (e.2 {}).toList.all (!Text.isBlank ·) = true := by
    decide +kernel
  intro e he
  exact ⟨(hblank e he).1, Text.trimmed_of_forall (by simpa using (hblank e he).2)⟩

theorem Reads.trimmed (h : Reads table s) :
    ∀ e ∈ texts, e.2 s ≠ "" ∧ Text.Trimmed (e.2 s).toList := by
  intro e he
  have htext := h.text e he
  generalize e.2 s = text at htext
  cases htext with
  | absent _ => exact texts_default e he
  | @given given _ hne =>
    refine ⟨hne, ?_⟩
    rw [Text.trim, String.toList_ofList]
    exact Text.trimmed_trimChars given.toList

theorem Reads.isResource_scenes (h : Reads table s) :
    ∀ path ∈ s.scenes.getD [], Resource.isResource path = true := by
  have hscenes := h.scenes
  generalize s.scenes = scenes at hscenes ⊢
  cases hscenes with
  | absent _ => simp
  | given _ hall => exact hall

end NetworkSettings

/-! ## Whole configurations -/

/-- No class manifest is refused as a configuration. -/
theorem Disk.loadManifests_ne_config (d : Disk) (t : ClassTable) (paths : List String)
    (e : ConfigError) : (d.loadManifests t paths).1 ≠ .error (.config e) := by
  induction paths generalizing t with
  | nil => simp [loadManifests]
  | cons path paths ih =>
    unfold loadManifests
    split
    · exact ih _
    · next e' t' h =>
      unfold loadManifest at h
      repeat' split at h
      all_goals cases h
      all_goals simp

theorem Disk.loadClasses_ne_config (d : Disk) {root classes : String}
    (h : Resource.isResource classes = true) (e : ConfigError) :
    (d.loadClasses root classes).1 ≠ .error (.config e) := by
  unfold loadClasses
  split
  · next hnone =>
    have hsome := (Resource.file?_isSome root classes).mpr h
    rw [hnone] at hsome
    cases hsome
  · next dir hdir =>
    split
    · split
      · simp
      · next paths hpaths =>
        have hload := d.loadManifests_ne_config {} (paths.map (PathText.join dir)) e
        dsimp only
        split
        · next e' he =>
          rw [he] at hload
          simpa using hload
        · simp
    · simp

/-- A resource that cannot be read is not told of as none. -/
theorem Disk.resourceNotes_debug (d : Disk) {root path : String}
    (h : Resource.isResource path = true) : ∀ r ∈ d.resourceNotes root path, r.level = .debug := by
  unfold resourceNotes
  split
  · next hnone =>
    have hsome := (Resource.file?_isSome root path).mpr h
    rw [hnone] at hsome
    cases hsome
  · split <;> simp

namespace ProjectConfig

variable {t : Toml} {c : ProjectConfig}

/-- What the name of a project reads. -/
def NameReads (t : Toml) (name : String) : Prop :=
  ∃ project, t.get? "project" = some (.table project) ∧
    (Toml.table project).get? "name" = some (.string name)

/-- What the settings of a project read. -/
inductive NetworkReads (t : Toml) : NetworkSettings → Prop
  | absent : t.get? "network" = none → NetworkReads t {}
  | given {table : Toml} {s : NetworkSettings} : t.get? "network" = some table →
      table.isTable = true → NetworkSettings.Reads table s → NetworkReads t s

theorem nameOfToml_eq_ok_iff {name : String} : nameOfToml t = .ok name ↔ NameReads t name := by
  unfold nameOfToml NameReads
  constructor
  · intro h
    split at h
    · next project hproject =>
      split at h
      · next name' hname =>
        cases h
        obtain ⟨v, hget, hv⟩ := Option.bind_eq_some_iff.mp hname
        rw [NetworkSettings.asString?_eq_some_iff.mp hv] at hget
        exact ⟨project, hproject, hget⟩
      · cases h
    · cases h
  · rintro ⟨project, hproject, hname⟩
    rw [hproject]
    simp [hname, Toml.asString?]

theorem networkOfToml_eq_ok_iff {s : NetworkSettings} :
    networkOfToml t = .ok s ↔ NetworkReads t s := by
  unfold networkOfToml
  constructor
  · intro h
    split at h
    · next hget =>
      cases h
      exact .absent hget
    · next table hget =>
      split at h
      · next htable => exact .given hget htable (NetworkSettings.ofToml_eq_ok_iff.mp h)
      · cases h
  · intro h
    cases h with
    | absent hget => rw [hget]
    | given hget htable hreads =>
      rw [hget]
      simp [htable, NetworkSettings.ofToml_eq_ok_iff.mpr hreads]

theorem ofToml_eq_ok_iff : ofToml t = .ok c ↔ NameReads t c.name ∧ NetworkReads t c.network := by
  unfold ofToml
  rw [← nameOfToml_eq_ok_iff, ← networkOfToml_eq_ok_iff]
  constructor
  · intro h
    obtain ⟨name, hname, h⟩ := bind_eq_ok_iff.mp h
    obtain ⟨network, hnetwork, h⟩ := bind_eq_ok_iff.mp h
    cases h
    exact ⟨hname, hnetwork⟩
  · rintro ⟨hname, hnetwork⟩
    exact bind_eq_ok_iff.mpr ⟨_, hname, bind_eq_ok_iff.mpr ⟨_, hnetwork, rfl⟩⟩

theorem NetworkReads.trimmed {s : NetworkSettings} (h : NetworkReads t s) :
    ∀ e ∈ NetworkSettings.texts, e.2 s ≠ "" ∧ Text.Trimmed (e.2 s).toList := by
  cases h with
  | absent _ => exact NetworkSettings.texts_default
  | given _ _ hreads => exact hreads.trimmed

theorem NetworkReads.isResource {s : NetworkSettings} (h : NetworkReads t s) :
    Resource.isResource s.classes = true ∧
      ∀ path ∈ s.scenes.getD [], Resource.isResource path = true := by
  cases h with
  | absent _ => exact ⟨by decide, by simp⟩
  | given _ _ hreads => exact ⟨hreads.classes, hreads.isResource_scenes⟩

/-- What the rest of the program can rely on. -/
structure Usable (c : ProjectConfig) : Prop where
  /-- Every scene is a file, wherever the project lies. -/
  scenes : ∀ root, ∀ path ∈ c.network.scenes.getD [], (Resource.file? root path).isSome = true
  /-- No scene is told of as no resource. -/
  quiet : ∀ (d : Disk) root, ∀ path ∈ c.network.scenes.getD [],
    ∀ r ∈ d.resourceNotes root path, r.level = .debug
  classes : ∀ root, (Resource.file? root c.network.classes).isSome = true
  /-- The directory of the classes is not refused. -/
  accepted : ∀ (d : Disk) root e, ((⟨root, c⟩ : Project).loadClasses d).1 ≠ .error (.config e)
  trimmed : ∀ e ∈ NetworkSettings.texts, e.2 c.network ≠ "" ∧ Text.Trimmed (e.2 c.network).toList
  /-- The compiler is told all names, and the base type twice. -/
  names : c.network.compilerConfig.names = [c.network.baseType, c.network.identityProperty,
    c.network.asyncPeerValueType, c.network.baseType, c.network.networkSerializerInterface,
    c.network.bsonSerializerInterface]

theorem NetworkReads.usable (h : NetworkReads t c.network) : Usable c where
  scenes := by
    intro root path hpath
    exact (Resource.file?_isSome root path).mpr (h.isResource.2 path hpath)
  quiet := by
    intro d root path hpath
    exact d.resourceNotes_debug (h.isResource.2 path hpath)
  classes := by
    intro root
    exact (Resource.file?_isSome root _).mpr h.isResource.1
  accepted := by
    intro d root
    exact d.loadClasses_ne_config h.isResource.1
  trimmed := h.trimmed
  names := rfl

/-- **Configurations.**  One that is read is usable, with the name, the trimmed texts and the scenes
that are given and with the defaults for what is left out.  A malformed value at one of the keys of
the settings makes reading fail. -/
theorem read_usable (t : Toml) :
    (∀ c, ofToml t = .ok c → Usable c ∧ NameReads t c.name ∧ NetworkReads t c.network) ∧
      ∀ table key v, t.get? "network" = some table → table.get? key = some v →
        NetworkSettings.Malformed key v → ∃ e, ofToml t = .error e := by
  constructor
  · intro c h
    obtain ⟨hname, hnetwork⟩ := ofToml_eq_ok_iff.mp h
    exact ⟨hnetwork.usable, hname, hnetwork⟩
  · intro table key v htable hget hv
    cases h : ofToml t with
    | error e => exact ⟨e, rfl⟩
    | ok c =>
      exfalso
      obtain ⟨-, hnetwork⟩ := ofToml_eq_ok_iff.mp h
      generalize c.network = s at hnetwork
      cases hnetwork with
      | absent hnone => simp [hnone] at htable
      | given hsome _ hreads =>
        rw [hsome] at htable
        cases htable
        obtain ⟨e, he⟩ := NetworkSettings.error_of_malformed hget hv
        rw [NetworkSettings.ofToml_eq_ok_iff.mpr hreads] at he
        cases he

namespace Outpost

/-- A base type with blanks around it, and all other names left out. -/
def settings : Toml :=
  .table [("scenes", .array [.string "res://outpost.scn"]), ("base_type", .string "  Outpost.Base\n")]

def tree : Toml := .table [("project", .table [("name", .string "Outpost")]), ("network", settings)]

def config : ProjectConfig :=
  ⟨"Outpost", { scenes := some ["res://outpost.scn"], baseType := "Outpost.Base" }⟩

def blankSettings : Toml := .table [("base_type", .string " ")]

def blankTree : Toml :=
  .table [("project", .table [("name", .string "Outpost")]), ("network", blankSettings)]

theorem outpost_usable : ofToml tree = .ok config ∧ Usable config ∧
    ∃ e, ofToml blankTree = .error e := by
  have hread : ofToml tree = .ok config := by decide +kernel
  have hblank : NetworkSettings.Malformed "base_type" (.string " ") := by
    refine Or.inr ⟨by decide, ?_⟩
    intro text htext
    cases htext
    decide
  exact ⟨hread, ((read_usable tree).1 config hread).1,
    (read_usable blankTree).2 blankSettings "base_type" _ rfl rfl hblank⟩

end Outpost

end ProjectConfig

end NetSchema
