import Mathlib.Data.List.Induction
import NetSchema.Project.Config
import NetSchema.Project.SceneFiles
import NetSchema.Proofs.Text

/-!
# Where resource paths lead

The dots of a path are carried out as text: two dots take the name before them away.  A resource path
stays inside the directory of the resources as long as its dots take away names of its own only; one
that climbs higher is inside again if it comes back by the names that it has taken away.

* `course_below`: the names of a path are entered one after the other;
* `foldl_enter`: what they lead to from a directory depends on how far they climb above it;
* `within_after_iff`: when they lead back into the directory;
* `resource_within_iff`: which resource paths stay inside;
* `Outside.secret_read`: one that does not.
-/

namespace NetSchema

namespace Text

variable {sep : Char → Bool} {s t : List Char}

theorem sep_of_mem_splitAt {piece : List Char} (h : piece ∈ splitAt sep s) :
    ∀ c ∈ piece, sep c = false := by
  induction s generalizing piece with
  | nil =>
    obtain rfl := List.mem_singleton.mp h
    simp
  | cons c s ih =>
    rw [splitAt] at h
    split at h
    · obtain rfl | h := List.mem_cons.mp h
      · simp
      · exact ih h
    · next hc =>
      have hc' : sep c = false := by simpa using hc
      split at h
      · obtain rfl := List.mem_singleton.mp h
        simpa using hc'
      · next first rest hs =>
        rw [hs] at ih
        obtain rfl | h := List.mem_cons.mp h
        · exact List.forall_mem_cons.mpr ⟨hc', ih List.mem_cons_self⟩
        · exact ih (List.mem_cons_of_mem _ h)

theorem splitAt_of_forall (h : ∀ c ∈ s, sep c = false) : splitAt sep s = [s] := by
  induction s with
  | nil => rfl
  | cons c s ih =>
    obtain ⟨hc, hs⟩ := List.forall_mem_cons.mp h
    rw [splitAt, if_neg (by simp [hc]), ih hs]

/-- A separator ends a piece. -/
theorem splitAt_append_cons {c : Char} (hc : sep c = true) :
    splitAt sep (s ++ c :: t) = splitAt sep s ++ splitAt sep t := by
  induction s with
  | nil => simp [splitAt, hc]
  | cons b s ih =>
    rw [List.cons_append, splitAt, splitAt, ih]
    split
    · rfl
    · cases hs : splitAt sep s with
      | nil =>
        have hne : splitAt sep s ≠ [] := by
          rw [splitAt_eq_splitOnP]
          exact List.splitOnP_ne_nil sep s
        exact absurd hs hne
      | cons first rest => rfl

end Text

namespace PathText

/-! ## Courses -/

/-- Where a path leads: from the root or not, first so many directories up, and then down along
names. -/
structure Course where
  absolute : Bool
  ups : Nat
  names : List String
  deriving DecidableEq, Repr

namespace Course

/-- A dot stays where it is, and two dots go up; there is nothing above the root. -/
def enter (c : Course) (name : String) : Course :=
  if name = "." then c
  else if name = ".." then
    if c.names = [] then if c.absolute then c else { c with ups := c.ups + 1 }
    else { c with names := c.names.dropLast }
  else { c with names := c.names ++ [name] }

/-- The course leads to `base` or below. -/
def Within (c base : Course) : Prop :=
  c.absolute = base.absolute ∧ c.ups = base.ups ∧ base.names <+: c.names

instance (c base : Course) : Decidable (c.Within base) := inferInstanceAs (Decidable (_ ∧ _ ∧ _))

end Course

open Course (enter)

def course (path : String) : Course := (names path).foldl enter ⟨isAbsolute path, 0, []⟩

/-- The course of names that are entered from anywhere. -/
def along (parts : List String) : Course := parts.foldl enter ⟨false, 0, []⟩

/-- A name that can be entered: it is not empty and has no slash. -/
def Enterable (name : String) : Prop := name.toList ≠ [] ∧ ∀ c ∈ name.toList, (c == '/') = false

variable {part : String} {parts : List String}

/-- The names between slashes, those that are empty left out. -/
def pieces (s : List Char) : List String :=
  ((Text.splitAt (· == '/') s).filter fun p => !p.isEmpty).map String.ofList

theorem course_eq (path : String) :
    course path = (pieces path.toList).foldl enter ⟨isAbsolute path, 0, []⟩ := by
  unfold course names
  rw [List.map_append, List.foldl_append]
  change (List.map String.ofList _).foldl enter (List.foldl enter _ (pieces path.toList)) = _
  generalize List.foldl enter _ (pieces path.toList) = c
  split
  · rfl
  · rfl

theorem pieces_slash (s : List Char) : pieces (s ++ ['/']) = pieces s := by
  rw [pieces, Text.splitAt_append_cons rfl, List.filter_append, List.map_append]
  exact List.append_nil _

theorem pieces_append (s : List Char) (h : Enterable part) :
    pieces (s ++ '/' :: part.toList) = pieces s ++ [part] := by
  rw [pieces, Text.splitAt_append_cons rfl, Text.splitAt_of_forall h.2, List.filter_append,
    List.map_append, List.filter_cons_of_pos (by simpa using h.1)]
  simp [pieces]

theorem isAbsolute_append {s t : String} (h : s ≠ "") : isAbsolute (s ++ t) = isAbsolute s := by
  rw [isAbsolute, isAbsolute, Text.startsWith, Text.startsWith, String.toList_append]
  cases hs : s.toList with
  | nil => exact absurd (String.toList_inj.mp hs) h
  | cons c s => rfl

theorem Enterable.not_absolute (h : Enterable part) : isAbsolute part = false := by
  rw [isAbsolute, Text.startsWith]
  cases hp : part.toList with
  | nil => rfl
  | cons c s =>
    have hc : c ≠ '/' := by simpa using h.2 c (by simp [hp])
    simpa [List.isPrefixOf] using fun h => hc h.symm

/-- A name after a path is entered from where the path leads. -/
theorem course_join (base : String) (h : Enterable part) :
    course (join base part) = (course base).enter part := by
  by_cases hbase : base = ""
  · subst hbase
    have hpieces : pieces part.toList = [part] := by
      rw [pieces, Text.splitAt_of_forall h.2, List.filter_cons_of_pos (by simpa using h.1)]
      simp
    rw [join, if_pos (by simp), course_eq, course_eq, hpieces, h.not_absolute]
    rfl
  · have habs : isAbsolute (join base part) = isAbsolute base := by
      rw [join, if_neg (by simp [h.not_absolute, hbase])]
      split
      · exact isAbsolute_append hbase
      · rw [String.append_assoc]
        exact isAbsolute_append hbase
    have hpieces : pieces (join base part).toList = pieces base.toList ++ [part] := by
      rw [join, if_neg (by simp [h.not_absolute, hbase])]
      split
      · next hslash =>
        obtain ⟨start, rfl⟩ := Text.endsWith_iff.mp hslash
        have hstart := pieces_append start.toList h
        simpa [String.toList_append, pieces_slash] using hstart
      · have hend := pieces_append base.toList h
        simpa [String.toList_append] using hend
    rw [course_eq, course_eq, habs, hpieces, List.foldl_append, List.foldl_cons, List.foldl_nil]

theorem course_below (base : String) (h : ∀ part ∈ parts, Enterable part) :
    course (below base parts) = parts.foldl enter (course base) := by
  unfold below
  induction parts generalizing base with
  | nil => rfl
  | cons part parts ih =>
    obtain ⟨hpart, hparts⟩ := List.forall_mem_cons.mp h
    rw [List.foldl_cons, List.foldl_cons, ih _ hparts, course_join base hpart]

/-! ## Names from a directory -/

namespace Course

variable {r : Course}

/-- The course `r` from where `c` leads: it goes up along `c` before it goes down. -/
def after (c r : Course) : Course where
  absolute := c.absolute
  ups := if c.absolute then c.ups else c.ups + (r.ups - c.names.length)
  names := c.names.take (c.names.length - r.ups) ++ r.names

/-- From where `c` leads, the course `r` leads back to `c` or below: it climbs no higher than the names
of `c` go, and comes down again along the names that it has taken away. -/
def ReturnsTo (r c : Course) : Prop :=
  (c.absolute = true ∨ r.ups ≤ c.names.length) ∧ c.names.drop (c.names.length - r.ups) <+: r.names

instance (r c : Course) : Decidable (r.ReturnsTo c) := inferInstanceAs (Decidable (_ ∧ _))

theorem enter_absolute (c : Course) (name : String) : (c.enter name).absolute = c.absolute := by
  unfold enter
  split
  · rfl
  · split
    · split
      · split <;> rfl
      · rfl
    · rfl

theorem dropLast_take_sub (names : List String) (k : Nat) :
    (names.take (names.length - k)).dropLast = names.take (names.length - (k + 1)) := by
  rw [List.dropLast_eq_take, List.length_take, List.take_take]
  congr 1
  omega

/-- One more name is entered at the end of both courses. -/
theorem after_enter (c : Course) (hr : r.absolute = false) (name : String) :
    (c.after r).enter name = c.after (r.enter name) := by
  by_cases hdot : name = "."
  · simp [enter, hdot]
  by_cases hup : name = ".."
  · subst hup
    by_cases hdown : r.names = []
    · by_cases hlen : c.names.length ≤ r.ups
      · -- there is nothing left of `c` to take away
        have hnames : c.names.length - r.ups = 0 := by omega
        have hnames' : c.names.length - (r.ups + 1) = 0 := by omega
        have hups : r.ups + 1 - c.names.length = r.ups - c.names.length + 1 := by omega
        cases hc : c.absolute <;>
          simp [enter, after, hr, hdown, hnames, hnames', hups, hc, Nat.add_assoc]
      · have hne : c.names.take (c.names.length - r.ups) ≠ [] := by
          intro h
          have := congrArg List.length h
          simp only [List.length_take, List.length_nil] at this
          omega
        have hups : r.ups + 1 - c.names.length = r.ups - c.names.length := by omega
        simp [enter, after, hr, hdown, hne, dropLast_take_sub, hups]
    · have hlast : (c.names.take (c.names.length - r.ups) ++ r.names).dropLast =
          c.names.take (c.names.length - r.ups) ++ r.names.dropLast :=
        List.dropLast_append_of_ne_nil hdown
      simp [enter, after, hdown, hlast]
  · simp [enter, after, hdot, hup]

theorem after_nil (c : Course) : c.after ⟨false, 0, []⟩ = c := by
  cases c
  simp [after]

theorem within_after_iff (c r : Course) : (c.after r).Within c ↔ r.ReturnsTo c := by
  have hups : (if c.absolute then c.ups else c.ups + (r.ups - c.names.length)) = c.ups ↔
      c.absolute = true ∨ r.ups ≤ c.names.length := by
    split
    · next h => simp [h]
    · next h =>
      simp only [h, Bool.false_eq_true, false_or]
      omega
  have hnames : c.names <+: c.names.take (c.names.length - r.ups) ++ r.names ↔
      c.names.drop (c.names.length - r.ups) <+: r.names := by
    have hdrop : c.names.take (c.names.length - r.ups) ++ c.names.drop (c.names.length - r.ups) <+:
        c.names.take (c.names.length - r.ups) ++ r.names ↔
          c.names.drop (c.names.length - r.ups) <+: r.names :=
      List.prefix_append_right_inj _
    rwa [List.take_append_drop] at hdrop
  constructor
  · rintro ⟨-, h, h'⟩
    exact ⟨hups.mp h, hnames.mp h'⟩
  · rintro ⟨h, h'⟩
    exact ⟨rfl, hups.mpr h, hnames.mpr h'⟩

end Course

theorem along_append (parts : List String) (part : String) :
    along (parts ++ [part]) = (along parts).enter part := by
  rw [along, List.foldl_append]
  rfl

theorem along_absolute (parts : List String) : (along parts).absolute = false := by
  induction parts using List.reverseRecOn with
  | nil => rfl
  | append_singleton parts part ih => rw [along_append, Course.enter_absolute, ih]

theorem foldl_enter (c : Course) (parts : List String) :
    parts.foldl enter c = c.after (along parts) := by
  induction parts using List.reverseRecOn with
  | nil => exact c.after_nil.symm
  | append_singleton parts part ih =>
    rw [List.foldl_append, ih, along_append, ← Course.after_enter c (along_absolute parts)]
    rfl

/-- Names that are not two dots do not climb. -/
theorem along_ups (h : ".." ∉ parts) : (along parts).ups = 0 := by
  induction parts using List.reverseRecOn with
  | nil => rfl
  | append_singleton parts part ih =>
    rw [List.mem_append, not_or, List.mem_singleton] at h
    rw [along_append, Course.enter, if_neg (Ne.symm h.2)]
    split
    · exact ih h.1
    · exact ih h.1

end PathText

/-! ## Resources -/

namespace Resource

open PathText

theorem enterable_names (rest : String) : ∀ part ∈ names rest, Enterable part := by
  intro part hpart
  obtain ⟨piece, hpiece, rfl⟩ := List.mem_map.mp hpart
  obtain ⟨hpiece, hne⟩ := List.mem_filter.mp hpiece
  rw [Enterable, String.toList_ofList]
  refine ⟨by simpa using hne, ?_⟩
  intro c hc
  have hsep := Text.sep_of_mem_splitAt hpiece c hc
  exact (Bool.or_eq_false_iff.mp hsep).1

theorem file?_scheme (root rest : String) :
    file? root (scheme ++ rest) = some (below (join root directory) (names rest)) := by
  have hdrop : Text.dropPrefix? scheme (scheme ++ rest) = some rest := by
    rw [Text.dropPrefix?, String.toList_append, Text.isPrefixOf?_append]
    simp
  rw [file?, hdrop]
  rfl

theorem isSome_file?_iff (root path : String) :
    (file? root path).isSome = true ↔ ∃ rest, path = scheme ++ rest := by
  rw [file?_isSome]
  unfold isResource Text.startsWith
  rw [List.isPrefixOf_iff_prefix]
  constructor
  · rintro ⟨rest, hrest⟩
    refine ⟨String.ofList rest, ?_⟩
    rw [← String.toList_inj, String.toList_append, String.toList_ofList, hrest]
  · rintro ⟨rest, rfl⟩
    rw [String.toList_append]
    exact List.prefix_append ..

/-- The course of a resource from the directory of the resources. -/
theorem course_below_directory (root rest : String) :
    course (below (join root directory) (names rest)) =
      (course (join root directory)).after (along (names rest)) := by
  rw [course_below _ (enterable_names rest), foldl_enter]

/-- Where the resources of the project at `root` are. -/
def top (root : String) : Course := course (join root directory)

/-- **Resources.**  A path names a file exactly if it has the scheme.  The file lies in the directory
of the resources or below it exactly if the dots of the path take away no more names than the directory
has, which only matters where it does not start from the root, and the names that they take away follow
again.  A path without two dots as a name stays inside.  What is read of the path is what is in the
file. -/
theorem resource_within_iff (root path : String) :
    ((file? root path).isSome = true ↔ ∃ rest, path = scheme ++ rest) ∧
      ∀ rest, path = scheme ++ rest → ∃ file, file? root path = some file ∧
        ((course file).Within (top root) ↔ (along (names rest)).ReturnsTo (top root)) ∧
        (".." ∉ names rest → (course file).Within (top root)) ∧
        ∀ d : Disk, (Source.ofDisk d root).load path = (d.readText file).toOption := by
  refine ⟨isSome_file?_iff root path, ?_⟩
  rintro rest rfl
  have hwithin := Course.within_after_iff (top root) (along (names rest))
  rw [top, ← course_below_directory root rest] at hwithin
  refine ⟨_, file?_scheme root rest, hwithin, ?_, ?_⟩
  · intro hdots
    refine hwithin.mpr ?_
    rw [Course.ReturnsTo, along_ups hdots]
    simp
  · intro d
    change d.resource root (scheme ++ rest) = _
    rw [Disk.resource, file?_scheme]

/-- A path that leaves the directory and comes back stays inside. -/
theorem hall_within : ∃ file, file? "/game" "res://../res/hall.scn" = some file ∧
    (course file).Within (top "/game") := by
  obtain ⟨file, hfile, hwithin, -⟩ :=
    (resource_within_iff "/game" "res://../res/hall.scn").2 "../res/hall.scn" (by decide +kernel)
  exact ⟨file, hfile, hwithin.mpr (by decide +kernel)⟩

/-! ## A file beside the resources -/

namespace Outside

def path : String := "res://../secret.scn"

def text : String := "[a]\n[/a]\n"

def disk : Disk where
  entries := ((OrderedMap.empty.insert ["game"] .directory).insert ["game", "res"] .directory).insert
    ["game", "secret.scn"] (.file text)

theorem read : disk.readText "/game/res/../secret.scn" = .ok text := by
  have hnames : PathText.names "/game/res/../secret.scn" = ["game", "res", "..", "secret.scn"] := by
    decide +kernel
  have hbase : disk.base "/game/res/../secret.scn" = [] := by decide +kernel
  have hgame : disk.entries.get? ["game"] = some .directory := by decide +kernel
  have hres : disk.entries.get? ["game", "res"] = some .directory := by decide +kernel
  have hsecret : disk.entries.get? ["game", "secret.scn"] = some (.file text) := by decide +kernel
  have hshort : ∀ name ∈ ["game", "res", "secret.scn"],
      ¬ Disk.nameLimit < name.utf8ByteSize := by decide +kernel
  simp only [List.forall_mem_cons] at hshort
  obtain ⟨hgame', hres', hsecret', -⟩ := hshort
  rw [Disk.readText, Disk.locate, hnames, hbase]
  simp [Disk.follow, hgame, hres, hsecret, hgame', hres', hsecret']

/-- The path is accepted in a configuration, but its file is beside the resources, and is read. -/
theorem secret_read : NetworkSettings.sceneOfToml (.string path) = .ok path ∧
    file? "/game" path = some "/game/res/../secret.scn" ∧
    ¬ (course "/game/res/../secret.scn").Within (top "/game") ∧
    (Source.ofDisk disk "/game").load path = some text := by
  have hfile : file? "/game" path = some "/game/res/../secret.scn" := by decide +kernel
  refine ⟨by decide +kernel, hfile, by decide +kernel, ?_⟩
  change disk.resource "/game" path = some text
  rw [Disk.resource, hfile]
  simp only [read, Except.toOption]

end Outside

end Resource

end NetSchema
