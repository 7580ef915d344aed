import NetSchema.Proofs.Scene.Variables

/-!
# What uses of variables read

The first pass makes a table of the definitions.  In the second pass a use of a variable reads the
nearest definition before it, and the table where there is none.

* `gather_eq_tabulate`: the table depends on the definitions alone;
* `get?_gather_iff`: what is known behind items is what uses read there;
* `parse_reads_twice`: both passes over a text that is read.
-/

namespace NetSchema

namespace ItemSyntax

variable {items before between after : List ItemSyntax} {name : String} {x : ValueSyntax}
  {n : NodeSyntax} {v w : SceneValue} {vars table : Variables} {root : Option String}
  {r : Option String × List NodeBlock}

/-! ## The table -/

/-- The table that definitions make, one after the other: each value is taken with what the table
holds by then, and one that means nothing is left out. -/
def tabulate (ds : List (String × ValueSyntax)) : Variables :=
  ds.foldl (fun vars d => store vars d.1 d.2) {}

theorem gather_eq_foldl (vars : Variables) (items : List ItemSyntax) :
    gather vars items = (definitions items).foldl (fun vars d => store vars d.1 d.2) vars := by
  induction items generalizing vars with
  | nil => rfl
  | cons item items ih => cases item <;> exact ih _

/-- What stands inside of nodes does not come into the table. -/
theorem gather_eq_tabulate (items : List ItemSyntax) :
    gather {} items = tabulate (definitions items) :=
  gather_eq_foldl {} items

/-- A value of a text that is read is left out of the table exactly if it is a variable that the
table does not hold. -/
theorem meaning?_eq_none_iff (h : x.meaning? vars = some v) :
    x.meaning? table = none ↔ ∃ other, x = .variable other ∧ table.get? other = none := by
  constructor
  · intro hnone
    rcases x.uses_cases with hliteral | ⟨other, rfl⟩
    · rw [ValueSyntax.meaning?_literal hliteral table vars, h] at hnone
      cases hnone
    · exact ⟨other, rfl, hnone⟩
  · rintro ⟨other, rfl, hnone⟩
    exact hnone

/-! ## Uses -/

/-- A use of the variable behind the items `before` reads the value: the one of its nearest
definition, or the one in the table if there is no definition. -/
inductive UseReads (table : Variables) : (before : List ItemSyntax) → String → SceneValue → Prop
  | table {before : List ItemSyntax} {name : String} {v : SceneValue} :
      name ∉ definedNames before → table.get? name = some v → UseReads table before name v
  | literal {before between : List ItemSyntax} {name : String} {x : ValueSyntax} {v : SceneValue} :
      x.uses = [] → x.meaning? {} = some v → name ∉ definedNames between →
        UseReads table (before ++ .definition name x :: between) name v
  | link {before between : List ItemSyntax} {name other : String} {v : SceneValue} :
      UseReads table before other v → name ∉ definedNames between →
        UseReads table (before ++ .definition name (.variable other) :: between) name v

/-- Of the definitions of a name one is the last. -/
theorem exists_nearest (h : name ∈ definedNames items) : ∃ before x between,
    items = before ++ .definition name x :: between ∧ name ∉ definedNames between := by
  induction items with
  | nil => cases h
  | cons item items ih =>
    by_cases hlater : name ∈ definedNames items
    · obtain ⟨before, x, between, rfl, hbetween⟩ := ih hlater
      exact ⟨item :: before, x, between, rfl, hbetween⟩
    · obtain ⟨x, hx⟩ := mem_definedNames_iff.mp h
      rcases List.mem_cons.mp hx with rfl | hx
      · exact ⟨[], x, items, rfl, hlater⟩
      · exact absurd (mem_definedNames_iff.mpr ⟨x, hx⟩) hlater

theorem get?_gather_of_not_mem (h : name ∉ definedNames items) :
    (gather vars items).get? name = vars.get? name := by
  induction items generalizing vars with
  | nil => rfl
  | cons item items ih =>
    have hlater : name ∉ definedNames items := by
      intro hname
      obtain ⟨x, hx⟩ := mem_definedNames_iff.mp hname
      exact h (mem_definedNames_iff.mpr ⟨x, List.mem_cons_of_mem _ hx⟩)
    cases item with
    | node n => exact ih hlater
    | definition other x =>
      have hne : name ≠ other := by
        rintro rfl
        exact h (mem_definedNames_iff.mpr ⟨x, List.mem_cons_self⟩)
      rw [gather, ih hlater, store]
      cases x.meaning? vars with
      | none => rfl
      | some v => rw [OrderedMap.get?_insert, if_neg hne]

theorem get?_gather_nearest (h : name ∉ definedNames between)
    (hx : x.meaning? (gather vars before) = some v) :
    (gather vars (before ++ .definition name x :: between)).get? name = some v := by
  rw [gather_append, gather, get?_gather_of_not_mem h, store, hx, OrderedMap.get?_insert,
    if_pos rfl]

theorem known_of_useReads (h : UseReads table before name v) :
    (gather table before).get? name = some v := by
  induction h with
  | table hname hv => rw [get?_gather_of_not_mem hname, hv]
  | literal hliteral hv hname =>
    refine get?_gather_nearest hname ?_
    rw [ValueSyntax.meaning?_literal hliteral _ {}, hv]
  | link _ hname ih => exact get?_gather_nearest hname ih

/-- **What uses read** is what the second pass knows, where all items before mean something. -/
theorem get?_gather_iff (hbefore : meaning? table root before = some r) :
    (gather table before).get? name = some v ↔ UseReads table before name v := by
  refine ⟨?_, known_of_useReads⟩
  induction hlength : before.length using Nat.strong_induction_on generalizing before name r with
  | _ length ih =>
    intro hknown
    by_cases hname : name ∈ definedNames before
    · obtain ⟨first, x, between, rfl, hbetween⟩ := exists_nearest hname
      obtain ⟨r', hfirst, w, hw, -⟩ := means_of_meaning? hbefore
      rw [get?_gather_nearest hbetween hw] at hknown
      cases hknown
      rcases x.uses_cases with hliteral | ⟨other, rfl⟩
      · rw [ValueSyntax.meaning?_literal hliteral _ {}] at hw
        exact .literal hliteral hw hbetween
      · have hlt : first.length < length := by
          rw [← hlength, List.length_append, List.length_cons]
          omega
        exact .link (ih first.length hlt hfirst rfl hw) hbetween
    · rw [get?_gather_of_not_mem hname] at hknown
      exact .table hname hknown

/-! ## The blocks of the nodes -/

theorem length_of_meaning? (h : meaning? vars root items = some r) :
    r.2.length = (nodes items).length := by
  induction items using List.reverseRecOn generalizing r with
  | nil =>
    cases h
    rfl
  | append_singleton items item ih =>
    cases item with
    | definition name x =>
      obtain ⟨root', v, hitems, -, -⟩ := meaning?_concat_definition h
      rw [nodes_concat_definition, ← ih hitems]
    | node n =>
      obtain ⟨bs, b, hitems, -, hbs⟩ := meaning?_concat_node h
      rw [nodes_concat_node, hbs, List.length_append, List.length_append, ← ih hitems]
      rfl

/-- The block of a node is what it means with what is known there. -/
theorem block_of_meaning? (h : meaning? vars root (before ++ .node n :: after) = some r) :
    ∃ b, r.2[(nodes before).length]? = some b ∧ n.meaning? (gather vars before) = some b := by
  rw [meaning?_append] at h
  obtain ⟨⟨root', bs⟩, hbefore, h⟩ := Option.bind_eq_some_iff.mp h
  obtain ⟨⟨root'', bs'⟩, hafter, h⟩ := Option.bind_eq_some_iff.mp h
  rw [meaning?] at hafter
  obtain ⟨b, hb, hafter⟩ := Option.bind_eq_some_iff.mp hafter
  obtain ⟨⟨_, bs''⟩, -, hafter⟩ := Option.bind_eq_some_iff.mp hafter
  cases hafter
  cases h
  refine ⟨b, ?_, hb⟩
  rw [← length_of_meaning? hbefore]
  simp

/-! ## Both passes -/

/-- The variables hold, behind the items `before`, what uses read there. -/
def Knows (table : Variables) (before : List ItemSyntax) (vars : Variables) : Prop :=
  ∀ name v, vars.get? name = some v ↔ UseReads table before name v

/-- How a text with the items is read twice: with the table from the first pass, and with the
descriptor as result. -/
structure ReadTwice (text : String) (items : List ItemSyntax) (table : Variables)
    (d : Descriptor) : Prop where
  tokens : (TokenStream.ofText text).tokens? = some (items.flatMap tokens)
  firstPass : (TokenStream.ofText text).firstPass = .ok table
  tabulated : table = tabulate (definitions items)
  /-- A definition is left out of the table if it names a variable that is not there yet. -/
  leftOut : ∀ before name x after, items = before ++ .definition name x :: after →
    (x.meaning? (tabulate (definitions before)) = none ↔
      ∃ other, x = .variable other ∧ (tabulate (definitions before)).get? other = none)
  /-- The second pass takes each definition with what uses read there. -/
  defined : ∀ before name x after, items = before ++ .definition name x :: after →
    ∃ vars v, Knows table before vars ∧ x.meaning? vars = some v ∧
      (name = "root" → v.asKey?.isSome = true)
  /-- The second pass takes each node with what uses read there. -/
  blocks : ∃ root bs, (TokenStream.ofText text).blocks = .ok (root, bs) ∧
    Descriptor.ofBlocks root bs = .ok d ∧ bs.length = (nodes items).length ∧
      ∀ before n after, items = before ++ .node n :: after → ∃ vars b,
        Knows table before vars ∧ n.meaning? vars = some b ∧
          bs[(nodes before).length]? = some b

/-- **Two passes.**  If a text is read then the first pass ends with the table of its definitions:
each value is taken with the definitions before it, later ones take the place of earlier ones, those
that name a variable which is not there yet are left out, and nothing inside of nodes counts.  In
the second pass each use of a variable reads the nearest definition before it if there is one, and
the table otherwise. -/
theorem parse_reads_twice {text : String} {d : Descriptor} (h : Descriptor.parse text = .ok d) :
    ∃ items table, ReadTwice text items table d := by
  obtain ⟨⟨root, bs⟩, hblocks, htree⟩ := bind_eq_ok_iff.mp h
  have hproper := TokenStream.ofText_proper text
  obtain ⟨table, items, hfirst, hts, hm⟩ := (TokenStream.blocks_eq_ok_iff hproper).mp hblocks
  have htable : table = tabulate (definitions items) := by
    have hgather := TokenStream.firstPass_eq_gather hproper hts
    rw [hfirst, gather_eq_tabulate] at hgather
    exact Except.ok.inj hgather
  -- what is known where an item stands, and what the item means with it
  have hknows : ∀ before item after, items = before ++ item :: after →
      Knows table before (gather table before) ∧ Means (gather table before) item := by
    intro before item after hsplit
    rw [hsplit] at hm
    obtain ⟨r, hbefore, hmeans⟩ := means_of_meaning? hm
    exact ⟨fun _ _ => get?_gather_iff hbefore, hmeans⟩
  refine ⟨items, table, hts, hfirst, htable, ?_, ?_, root, bs, hblocks, htree,
    length_of_meaning? hm, ?_⟩
  · intro before name x after hsplit
    obtain ⟨-, v, hv, -⟩ := hknows before _ after hsplit
    exact meaning?_eq_none_iff hv
  · intro before name x after hsplit
    obtain ⟨hvars, v, hv, hroot⟩ := hknows before _ after hsplit
    exact ⟨_, v, hvars, hv, hroot⟩
  · intro before n after hsplit
    obtain ⟨hvars, -⟩ := hknows before _ after hsplit
    rw [hsplit] at hm
    obtain ⟨b, hat, hb⟩ := block_of_meaning? hm
    exact ⟨_, b, hvars, hb, hat⟩

/-! ## A definition that is left out, and one that takes its place -/

namespace Redefined

/-- The first definition names a variable that is defined further down; the last one takes its place
in the table, and the use between them reads the first. -/
def text : String := "@a=@b [m] x=@a [/m] @b=c @a=d"

def user : NodeSyntax := ⟨"m", [⟨"x", .variable "a"⟩], none⟩

def first : ItemSyntax := .definition "a" (.variable "b")

def written : List ItemSyntax :=
  [first, .node user, .definition "b" (.word "c"), .definition "a" (.word "d")]

theorem tokens_text : (TokenStream.ofText text).tokens? = some (written.flatMap tokens) := by
  decide +kernel

theorem text_read : ∃ d, Descriptor.parse text = .ok d := by
  have hok : (Descriptor.parse text).toBool = true := by decide +kernel
  cases h : Descriptor.parse text with
  | ok d => exact ⟨d, rfl⟩
  | error e =>
    rw [h] at hok
    cases hok

theorem redefined_read_twice : ∃ d table, Descriptor.parse text = .ok d ∧
    ReadTwice text written table d ∧ table.get? "a" = some (.key "d") ∧
      UseReads table [first] "a" (.key "c") := by
  obtain ⟨d, hd⟩ := text_read
  obtain ⟨items', table, htwice⟩ := parse_reads_twice hd
  have hitems : items' = written := by
    have hts := htwice.tokens
    rw [tokens_text] at hts
    exact (eq_of_tokens_eq (Option.some.inj hts)).symm
  subst hitems
  refine ⟨d, table, hd, htwice, ?_, ?_⟩
  · rw [htwice.tabulated]
    decide
  · have hb : UseReads table [] "b" (.key "c") := by
      refine .table (by decide) ?_
      rw [htwice.tabulated]
      decide
    have hbetween : "a" ∉ definedNames [] := by decide
    exact @UseReads.link table [] [] "a" "b" _ hb hbetween

end Redefined

end ItemSyntax

end NetSchema
