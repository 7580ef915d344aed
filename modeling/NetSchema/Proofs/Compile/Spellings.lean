import NetSchema.Project.SceneFiles
import NetSchema.Proofs.Compile.Order

/-!
# Spellings of a path

Many texts name one resource file: slashes may be doubled, or be backslashes.  The file system looks
through this, while memo and registry go by the text.  So a file that is reached by several texts is
compiled once for each of them.

* `sceneId?_inj`: no two paths share a number;
* `Compiled.same_file`: what the spellings of a file compile to is the same, the numbers aside;
* `run_by_spelling`: what a run keeps of the texts that it reaches, and how often it parses;
* `Hall.hall_compiled_twice`: a hall that is listed by two texts.
-/

namespace NetSchema

/-! ## Numbers -/

namespace Registry

variable {r : Registry} {p q : String} {i j : SceneId}

theorem mem_scenes_of_sceneId? (h : r.sceneId? p = some i) : (i, p) ∈ r.scenes := by
  obtain ⟨⟨i', p'⟩, hx, rfl⟩ := Option.map_eq_some_iff.mp h
  have hp := List.find?_some hx
  obtain rfl := beq_iff_eq.mp hp
  exact List.mem_of_find?_eq_some hx

/-- No two paths share a number. -/
theorem sceneId?_inj
    (hids : r.scenes.map (fun x => x.1.toNat) = List.range r.sceneCount)
    (hp : r.sceneId? p = some i) (hq : r.sceneId? q = some i) : p = q := by
  have hnodup : (r.scenes.map fun x => x.1.toNat).Nodup := hids ▸ List.nodup_range
  have h := List.inj_on_of_nodup_map hnodup (mem_scenes_of_sceneId? hp)
    (mem_scenes_of_sceneId? hq) rfl
  exact congrArg Prod.snd h

end Registry

namespace Compiler

section SameFile

variable {disk : Disk} {root p q : String} {rules : Rules} {a b : SceneData}

/-! ## One file -/

/-- A compiled network scene has a number. -/
theorem Compiled.numbered {c : Compiler} (h : c.Compiled p a) (hnet : c.IsNetworkScene p) :
    a.sceneId.isSome = true := by
  have hdata := h.network.mpr hnet
  obtain ⟨draft, ns, -, rfl, -, hholds⟩ := h.held
  rwa [← hholds.isNetworkScene]

/-- The compiler of the project at `root`. -/
def ofDisk (disk : Disk) (root : String) (rules : Rules) : Compiler := ⟨.ofDisk disk root, rules⟩

theorem descriptor?_same_file (hfile : Resource.file? root p = Resource.file? root q) :
    (ofDisk disk root rules).descriptor? p = (ofDisk disk root rules).descriptor? q := by
  have hload : disk.resource root p = disk.resource root q := by
    rw [Disk.resource, Disk.resource, hfile]
  rw [descriptor?, descriptor?]
  show (disk.resource root p >>= _) = (disk.resource root q >>= _)
  rw [hload]

/-- All spellings of a file compile to the same, the numbers aside. -/
theorem Compiled.same_file (ha : (ofDisk disk root rules).Compiled p a)
    (hb : (ofDisk disk root rules).Compiled q b)
    (hfile : Resource.file? root p = Resource.file? root q) : b = { a with sceneId := b.sceneId } :=
  ha.unique_of_descriptor? hb (descriptor?_same_file hfile)

end SameFile

/-! ## Runs -/

section Runs

variable {disk : Disk} {root p q : String} {rules : Rules} {roots order : List String}
  {s s' : CompileState} {out : CompileOutput}

/-- The memo of a run has the texts that are reached. -/
theorem mem_paths_of_run {c : Compiler} (h : c.run roots s = (.ok out, s')) :
    q ∈ s'.memo.paths ↔ c.Reaches roots q := by
  obtain ⟨hvisits, -, -⟩ := run_meets h
  rw [reaches_iff]
  exact hvisits.mem_iff q

/-- Each of the spellings of a file that are reached has its own entry, and its own number if the
file is a network scene. -/
theorem spellings_apart (h : (ofDisk disk root rules).run roots s = (.ok out, s'))
    (hp : (ofDisk disk root rules).Reaches roots p) (hq : (ofDisk disk root rules).Reaches roots q)
    (hne : p ≠ q) (hfile : Resource.file? root p = Resource.file? root q) :
    ∃ a b, s'.memo.completed? p = some a ∧ s'.memo.completed? q = some b ∧
      b = { a with sceneId := b.sceneId } ∧
      ((ofDisk disk root rules).IsNetworkScene p →
        ∃ i j, i ≠ j ∧ out.registry.sceneId? p = some i ∧ out.registry.sceneId? q = some j) := by
  obtain ⟨-, hregisters, hregistry⟩ := run_meets h
  obtain ⟨a, ha, hacompiled, hanet⟩ := hregisters.compiled p ((mem_paths_of_run h).mpr hp)
  obtain ⟨b, hb, hbcompiled, hbnet⟩ := hregisters.compiled q ((mem_paths_of_run h).mpr hq)
  refine ⟨a, b, ha, hb, hacompiled.same_file hbcompiled hfile, ?_⟩
  intro hnet
  have hnet' : (ofDisk disk root rules).IsNetworkScene q := by
    rwa [IsNetworkScene, ← descriptor?_same_file hfile]
  obtain ⟨i, hi⟩ := Option.isSome_iff_exists.mp (hacompiled.numbered hnet)
  obtain ⟨j, hj⟩ := Option.isSome_iff_exists.mp (hbcompiled.numbered hnet')
  have hpi : out.registry.sceneId? p = some i := by rw [hregistry, (hanet hnet).1, hi]
  have hqj : out.registry.sceneId? q = some j := by rw [hregistry, (hbnet hnet').1, hj]
  refine ⟨i, j, ?_, hpi, hqj⟩
  rintro rfl
  exact hne (Registry.sceneId?_inj (hregistry ▸ hregisters.ids) hpi hqj)

/-- There are as many files as texts exactly if no two of the texts name one file. -/
theorem length_eq_files_iff (hnodup : order.Nodup) :
    order.length = (order.map (Resource.file? root)).dedup.length ↔
      ∀ p ∈ order, ∀ q ∈ order, Resource.file? root p = Resource.file? root q → p = q := by
  constructor
  · intro hlength
    have hsame : (order.map (Resource.file? root)).dedup.length =
        (order.map (Resource.file? root)).length := by
      rw [← hlength, List.length_map]
    have hfiles : (order.map (Resource.file? root)).Nodup := by
      rw [← (List.dedup_sublist _).eq_of_length hsame]
      exact List.nodup_dedup _
    intro p hp q hq hfile
    exact List.inj_on_of_nodup_map hfiles hp hq hfile
  · intro hinj
    have hfiles : (order.map (Resource.file? root)).Nodup :=
      hnodup.map_on fun p hp q hq => hinj p hp q hq
    rw [hfiles.dedup, List.length_map]

end Runs

/-- **Compiling by spelling.**  A run that succeeds keeps an entry for each text that is reached,
and parses once for each of them; that is once for each file exactly if no file is reached by two
texts.  Two texts of one file have equal entries but for their numbers, and if it is a network
scene, they have a number each. -/
theorem run_by_spelling (disk : Disk) (root : String) (rules : Rules) (roots : List String)
    (s s' : CompileState) (out : CompileOutput)
    (h : (ofDisk disk root rules).run roots s = (.ok out, s')) :
    (∃ order : List String, order.Nodup ∧
      (∀ q, q ∈ order ↔ (ofDisk disk root rules).Reaches roots q) ∧
      s'.memo.parses = order.length ∧ s'.memo.size = order.length ∧
      (s'.memo.parses = (order.map (Resource.file? root)).dedup.length ↔
        ∀ p ∈ order, ∀ q ∈ order, Resource.file? root p = Resource.file? root q → p = q)) ∧
    ∀ p q, (ofDisk disk root rules).Reaches roots p → (ofDisk disk root rules).Reaches roots q →
      p ≠ q → Resource.file? root p = Resource.file? root q →
      ∃ a b, s'.memo.completed? p = some a ∧ s'.memo.completed? q = some b ∧
        b = { a with sceneId := b.sceneId } ∧
        ((ofDisk disk root rules).IsNetworkScene p →
          ∃ i j, i ≠ j ∧ out.registry.sceneId? p = some i ∧
            out.registry.sceneId? q = some j) := by
  obtain ⟨hvisits, hregisters, -⟩ := run_meets h
  have hnodup : s'.memo.paths.Nodup := hvisits.nodup List.nodup_nil
  refine ⟨⟨s'.memo.paths, hnodup, fun q => mem_paths_of_run h, hregisters.parses,
    hregisters.size, ?_⟩, ?_⟩
  · rw [hregisters.parses]
    exact length_eq_files_iff hnodup
  · intro p q hp hq hne hfile
    exact spellings_apart h hp hq hne hfile

/-! ## A hall that is listed twice -/

namespace Hall

def text : String := "[r]\nscript=\"unit.x\"\n[/r]"

def disk : Disk where
  entries := (OrderedMap.empty.insert ["res"] .directory).insert ["res", "hall.scn"] (.file text)

def compiler : Compiler := ofDisk disk "" Arena.rules

def roots : List String := ["res://hall.scn", "res:///hall.scn"]

theorem one_file : Resource.file? "" "res://hall.scn" = Resource.file? "" "res:///hall.scn" := by
  decide +kernel

theorem located :
    disk.locate "res/hall.scn" = .ok ⟨["res", "hall.scn"], some (.file text), Disk.linkLimit⟩ := by
  have hnames : PathText.names "res/hall.scn" = ["res", "hall.scn"] := by decide +kernel
  have hbase : disk.base "res/hall.scn" = [] := by decide +kernel
  have hdirectory : disk.entries.get? ["res"] = some .directory := by decide +kernel
  have hfile : disk.entries.get? ["res", "hall.scn"] = some (.file text) := by decide +kernel
  have hres : ¬ Disk.nameLimit < "res".utf8ByteSize := by decide +kernel
  have hhall : ¬ Disk.nameLimit < "hall.scn".utf8ByteSize := by decide +kernel
  rw [Disk.locate, hnames, hbase]
  simp [Disk.follow, hdirectory, hfile, hres, hhall]

theorem read : compiler.descriptor? "res://hall.scn" = some Lobby.unit := by
  have hfile : Resource.file? "" "res://hall.scn" = some "res/hall.scn" := by decide +kernel
  have hload : compiler.source.load "res://hall.scn" = some text := by
    show disk.resource "" "res://hall.scn" = some text
    rw [Disk.resource, hfile]
    simp only [Disk.readText, located, Except.toOption]
  exact descriptor?_of_parse hload (by with_unfolding_all rfl)

theorem read_again : compiler.descriptor? "res:///hall.scn" = some Lobby.unit :=
  (descriptor?_same_file one_file).symm.trans read

theorem root_class : compiler.rules.networkClass? Lobby.unitRoot = some "Unit" :=
  Lobby.unitRoot_class

/-- However it is spelled, the hall leads nowhere. -/
theorem links_of_read {path : String} (h : compiler.descriptor? path = some Lobby.unit) :
    compiler.links path = [] := by
  rw [links_of_descriptor? h]
  simp [Lobby.unit, link?, root_class]

theorem visits : DepthFirst compiler.links [] roots roots := by
  have hfirst : DepthFirst compiler.links [] ["res://hall.scn"] ["res://hall.scn"] := by
    refine .first (by simp) ?_ .done
    rw [links_of_read read]
    exact .done
  have hsecond : DepthFirst compiler.links ["res://hall.scn"] ["res:///hall.scn"] roots := by
    refine .first (by decide) ?_ .done
    rw [links_of_read read_again]
    exact .done
  exact hfirst.append hsecond

theorem read_of_reaches {q : String} (h : compiler.Reaches roots q) :
    compiler.descriptor? q = some Lobby.unit := by
  have hq : q ∈ roots := (visits.mem_iff q).mpr (reaches_iff.mp h)
  rcases List.mem_pair.mp hq with rfl | rfl
  · exact read
  · exact read_again

theorem compilable : compiler.Compilable roots where
  readable q hq := ⟨Lobby.unit, read_of_reaches hq⟩
  acyclic q hq := acyclic_of_depthFirst (links_of_read (read_of_reaches hq)) .done (by simp)
  fits q hq ns hns := by
    have hunit : compiler.Expansion q [⟨".", "Unit", true⟩] :=
      ⟨Lobby.unit, read_of_reaches hq, .network Lobby.unitRoot_class .nil⟩
    exact hns.unique hunit ▸ Lobby.fits_unit
  scenes paths hnodup hpaths := by
    have hsubset : paths ⊆ roots :=
      fun q hq => (visits.mem_iff q).mpr (reaches_iff.mp (hpaths q hq).1)
    exact (hnodup.length_le_of_subset hsubset).trans (by decide)

theorem reaches {q : String} (hq : q ∈ roots) : compiler.Reaches roots q := ⟨q, hq, .refl⟩

theorem is_network : compiler.IsNetworkScene "res://hall.scn" :=
  ⟨Lobby.unit, read, Lobby.isNetwork_unitRoot⟩

/-- The one file is parsed twice and takes two scene numbers. -/
theorem hall_compiled_twice :
    ∃ out s', compiler.run roots {} = (.ok out, s') ∧ s'.memo.parses = 2 ∧
      Resource.file? "" "res://hall.scn" = Resource.file? "" "res:///hall.scn" ∧
      ∃ i j, i ≠ j ∧ out.registry.sceneId? "res://hall.scn" = some i ∧
        out.registry.sceneId? "res:///hall.scn" = some j := by
  obtain ⟨out, s', h⟩ := exists_run_of_compilable compilable {}
  obtain ⟨hvisits, hregisters, -⟩ := run_meets h
  have hparses : s'.memo.parses = 2 := by
    rw [hregisters.parses, hvisits.unique visits]
    rfl
  obtain ⟨a, b, -, -, -, hnumbers⟩ :=
    spellings_apart h (reaches (by simp [roots])) (reaches (by simp [roots])) (by decide) one_file
  exact ⟨out, s', h, hparses, one_file, hnumbers is_network⟩

/-- Both texts are reached, so there are more parses than files. -/
theorem hall_by_spelling :
    ∃ out s' a b, compiler.run roots {} = (.ok out, s') ∧
      s'.memo.completed? "res://hall.scn" = some a ∧
      s'.memo.completed? "res:///hall.scn" = some b ∧ b = { a with sceneId := b.sceneId } := by
  obtain ⟨out, s', h⟩ := exists_run_of_compilable compilable {}
  obtain ⟨-, happart⟩ := run_by_spelling disk "" Arena.rules roots {} s' out h
  obtain ⟨a, b, ha, hb, hab, -⟩ :=
    happart _ _ (reaches (by simp [roots])) (reaches (by simp [roots])) (by decide) one_file
  exact ⟨out, s', a, b, h, ha, hb, hab⟩

end Hall

end Compiler

end NetSchema
