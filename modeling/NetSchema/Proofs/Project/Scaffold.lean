import NetSchema.Proofs.Project.Settings
import NetSchema.Proofs.Toml.Lines
import NetSchema.Proofs.Toml.Tables

/-!
# What a new project starts with

The text that a new project starts with has some of the defaults written out, and the name of the
project pasted between quotes.  Nothing in the name is escaped, so the text is read back exactly for
the names that are literal: a quote ends the name early, a backslash makes the next characters
something else, and a control character does not belong in a string.

* `toList_scaffold`: the text line by line;
* `parse_scaffold_of_literal`: it is read back;
* `name_of_ofStatements`: a document with more statements has the name that is assigned first;
* `stringAt_of_parse`: which is what the first string reads;
* `scaffold_reads_iff`: the names that are read back.
-/

namespace NetSchema.ProjectConfig

open Toml (Line Literal Statement statements)

variable {name : String}

/-! ## The lines of the text -/

/-- The lines behind the name. -/
def settingLines : List Line :=
  [.blank, .header "network", .setting "classes" "res://classes",
    .setting "base_type" "NetworkNode3D", .setting "identity_property" "NetworkId"]

def scaffoldLines (name : String) : List Line :=
  .header "project" :: .setting "name" name :: settingLines

def scaffoldFront : String := "[project]\nname = \""

def scaffoldBack : String :=
  "\"\n\n[network]\nclasses = \"res://classes\"\n" ++
    "base_type = \"NetworkNode3D\"\nidentity_property = \"NetworkId\"\n"

theorem scaffold_eq (name : String) : scaffold name = scaffoldFront ++ name ++ scaffoldBack :=
  String.append_assoc

theorem toList_scaffoldFront :
    scaffoldFront.toList =
      (Line.header "project").write ++ ("name".toList ++ [' ', '=', ' ', '"']) := by decide +kernel

theorem toList_scaffoldBack :
    scaffoldBack.toList = '"' :: '\n' :: settingLines.flatMap Line.write := by decide +kernel

theorem toList_scaffold (name : String) :
    (scaffold name).toList = (scaffoldLines name).flatMap Line.write := by
  rw [scaffold_eq, String.toList_append, String.toList_append, toList_scaffoldFront,
    toList_scaffoldBack]
  simp [scaffoldLines, Line.write, Toml.opened]

theorem plain_scaffoldLines (h : Literal name.toList) :
    ∀ line ∈ scaffoldLines name, line.Plain := by
  have hname : Toml.BareKey "name" := by decide +kernel
  have hsettings : ∀ line ∈ settingLines, line.Plain := by decide +kernel
  have hrest : ∀ line ∈ .setting "name" name :: settingLines, line.Plain :=
    List.forall_mem_cons.mpr ⟨⟨hname, h⟩, hsettings⟩
  exact List.forall_mem_cons.mpr ⟨by decide +kernel, hrest⟩

/-- The configuration as a tree. -/
def scaffoldTree (name : String) : Toml :=
  .table [("project", .table [("name", .string name)]),
    ("network", .table [("classes", .string "res://classes"), ("base_type", .string "NetworkNode3D"),
      ("identity_property", .string "NetworkId")])]

theorem tomlParse_scaffold (name : String) :
    Toml.parse (scaffold name) = (do
      let sts ← statements ((scaffoldLines name).flatMap Line.write)
      Toml.withDates (← Toml.ofStatements sts)) := by
  unfold Toml.parse
  rw [toList_scaffold]
  rfl

theorem parse_scaffold_of_literal (h : Literal name.toList) :
    parse (scaffold name) = .ok { name } := by
  have hparse : Toml.parse (scaffold name) = .ok (scaffoldTree name) := by
    rw [tomlParse_scaffold, Line.statements_write (plain_scaffoldLines h)]
    rfl
  rw [parse, hparse]
  rfl

/-- Whatever statements follow, the name of the project is the one that is assigned first. -/
theorem name_of_ofStatements {text : String} {sts : List Statement} {u t : Toml} {c : ProjectConfig}
    (hu : Toml.ofStatements
      (.table ⟨[], "project"⟩ :: .assign ⟨[], "name"⟩ (.string text) :: sts) = .ok u)
    (ht : Toml.withDates u = .ok t) (hc : ofToml t = .ok c) : c.name = text := by
  obtain ⟨root, hroot, hu⟩ := bind_eq_ok_iff.mp hu
  cases hu
  obtain ⟨⟨project, hproject, hname⟩, -⟩ := ofToml_eq_ok_iff.mp hc
  -- the first two statements leave the name in a table of its own
  have hrest : Toml.buildFrom ["project"]
      [("project", .table .header [("name", .value (.string text))])] sts = .ok root := hroot
  have hholds : Toml.Entries.Holds (.string text) ["project", "name"] root :=
    Toml.buildFrom_keeps hrest _ _ (.inside rfl (.here rfl))
  have hat : t.at? ["project", "name"] = some (.string c.name) :=
    Toml.at?_cons.mpr ⟨_, hproject, Toml.at?_cons.mpr ⟨_, hname, rfl⟩⟩
  have hvalue := hholds.value_of_at? ht hat
  cases hvalue
  rfl

/-- The name is what the first string reads. -/
theorem stringAt_of_parse {c : ProjectConfig} (h : parse (scaffold name) = .ok c) :
    ∃ rest, Toml.stringAt '"'
      ('"' :: (name.toList ++ '"' :: '\n' :: settingLines.flatMap Line.write)) =
        some (c.name.toList, rest) := by
  have hname : Toml.BareKey "name" := by decide +kernel
  unfold parse at h
  split at h
  · cases h
  · next t ht =>
    rw [tomlParse_scaffold] at ht
    obtain ⟨sts, hsts, ht⟩ := bind_eq_ok_iff.mp ht
    obtain ⟨u, hu, hdates⟩ := bind_eq_ok_iff.mp ht
    rw [scaffoldLines, List.flatMap_cons, List.flatMap_cons, Line.write_setting_append] at hsts
    obtain ⟨others, hothers, rfl⟩ := (Line.statements_write_append (by decide +kernel) _).mp hsts
    obtain ⟨text, rest, others, hstring, rfl⟩ := Toml.exists_of_statements_setting hname hothers
    refine ⟨rest, ?_⟩
    rw [hstring, name_of_ofStatements hu hdates h, String.toList_ofList]

/-- **Scaffolds.**  A new project is read back, with its name and with the defaults for everything
else, exactly if every character of its name is literal. -/
theorem scaffold_reads_iff (name : String) :
    parse (scaffold name) = .ok { name } ↔ ∀ c ∈ name.toList, Toml.IsLiteral c := by
  constructor
  · intro h
    have hclear : ¬ ['"', '"', '"'] <:+: '"' :: '\n' :: settingLines.flatMap Line.write := by
      decide +kernel
    exact (Toml.stringAt_pasted_iff hclear).mp (stringAt_of_parse h)
  · exact parse_scaffold_of_literal

/-- A quote in the name breaks the text, and a backslash alters the name. -/
theorem scaffold_broken_and_altered :
    parse (scaffold "a\"b") = .error (.notToml (.unexpectedCharacter 'b')) ∧
      parse (scaffold "a\\tb") = .ok { name := "a\tb" } :=
  ⟨by decide +kernel, by decide +kernel⟩

end NetSchema.ProjectConfig
