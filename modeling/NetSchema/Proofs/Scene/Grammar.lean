import Mathlib.Data.Option.Basic
import NetSchema.Proofs.OrderedMap
import NetSchema.Scene.File

/-!
# The grammar of scene texts

Syntax trees of scene texts, the tokens that they are written with, and what they mean.  Square
brackets and parentheses stand for themselves where they are quoted:

* file: any number of definitions `@` name `=` value, and nodes;
* node: `[` key `]`, fields, at most one block, `[` `/` key `]`;
* block: `[` type `]`, fields and blocks, `[` `/` type `]`;
* field: name `=` value;
* value: a number, a string, a word, `@` name, or `(` `)` around numbers with commas between them,
  where a number may be missing.

A meaning is missing where a variable is not known, a vector has not two to four numbers, or a value
is not of the sort that its field asks for.

* `wordValue_eq`, `vectorOf?_eq`, `TypedBlock.ofBase_eq_over`: words, vectors and blocks are put
  together as they mean;
* `NodeSyntax.foldl_put`: so are nodes, field after field.
-/

namespace NetSchema

/-! ## Values -/

inductive ValueSyntax where
  | number (x : Binary)
  | string (s : String)
  | word (name : String)
  | variable (name : String)
  /-- Numbers, or gaps for them, before and after each comma. -/
  | vector (first : Option Binary) (more : List (Option Binary))

/-- The number that stands in a slot of a vector. -/
def slotTokens : Option Binary → List Token
  | none => []
  | some x => [.number x]

/-- Slots with commas between them. -/
def slotsTokens : Option Binary → List (Option Binary) → List Token
  | first, [] => slotTokens first
  | first, next :: more => slotTokens first ++ .comma :: slotsTokens next more

namespace ValueSyntax

def tokens : ValueSyntax → List Token
  | number x => [.number x]
  | string s => [.string s]
  | word name => [.ident name]
  | «variable» name => [.at, .ident name]
  | vector first more => .leftParen :: (slotsTokens first more ++ [.rightParen])

/-- Two words are truth values, every other word is a key. -/
def wordMeaning : String → SceneValue
  | "true" => .bool true
  | "false" => .bool false
  | name => .key name

/-- A vector has two numbers and up to two more. -/
def vectorMeaning? : List Binary → Option SceneValue
  | x :: y :: more =>
    match more with
    | [] => some (.vector2 x y)
    | [z] => some (.vector3 x y z)
    | [z, w] => some (.vector4 x y z w)
    | _ => none
  | _ => none

/-- The value, where `vars` are the variables that are known.  Gaps in a vector do not count. -/
def meaning? (vars : Variables) : ValueSyntax → Option SceneValue
  | number x => some (.number x)
  | string s => some (.string s)
  | word name => some (wordMeaning name)
  | «variable» name => vars.get? name
  | vector first more => vectorMeaning? ((first :: more).filterMap id)

/-- Words are read as what they mean. -/
theorem wordValue_eq (name : String) : wordValue name = wordMeaning name := by
  by_cases htrue : name = "true"
  · subst htrue
    rfl
  · by_cases hfalse : name = "false"
    · subst hfalse
      rfl
    · rw [wordValue, if_neg htrue, if_neg hfalse, wordMeaning]
      · exact htrue
      · exact hfalse

/-- Numbers are put together to what they mean. -/
theorem vectorOf?_eq (xs : List Binary) : vectorOf? xs = vectorMeaning? xs := by
  match xs with
  | [] => rfl
  | [_] => rfl
  | [_, _] => rfl
  | [_, _, _] => rfl
  | [_, _, _, _] => rfl
  | _ :: _ :: _ :: _ :: _ :: _ => rfl

end ValueSyntax

/-! ## Fields -/

structure FieldSyntax where
  name : String
  value : ValueSyntax

namespace FieldSyntax

def tokens (f : FieldSyntax) : List Token := .ident f.name :: .equals :: f.value.tokens

def meaning? (vars : Variables) (f : FieldSyntax) : Option (String × SceneValue) :=
  (f.value.meaning? vars).map fun v => (f.name, v)

end FieldSyntax

/-! ## Blocks -/

/-- The tokens that open a block. -/
def opening (name : String) : List Token := [.leftBracket, .ident name, .rightBracket]

/-- The tokens that close a block. -/
def closing (name : String) : List Token := [.leftBracket, .slash, .ident name, .rightBracket]

/-- What is in a block. -/
inductive BodySyntax where
  | done
  | field (f : FieldSyntax) (rest : BodySyntax)
  | nested (type : String) (inner rest : BodySyntax)

/-- The block called `type` with these fields and with these blocks in it, of which the last is its
base. -/
def TypedBlock.over (type : String) (fields : List (String × SceneValue))
    (nested : List TypedBlock) : TypedBlock :=
  match nested.getLast? with
  | none => .leaf type (.ofList fields)
  | some base => .derived type (.ofList fields) base

theorem TypedBlock.ofBase_eq_over (type : String) (fields : List (String × SceneValue))
    (nested : List TypedBlock) :
    ofBase type (.ofList fields) nested.getLast? = .over type fields nested := by
  unfold ofBase TypedBlock.over
  cases nested.getLast? <;> rfl

namespace BodySyntax

def tokens : BodySyntax → List Token
  | done => []
  | field f rest => f.tokens ++ rest.tokens
  | nested type inner rest => opening type ++ inner.tokens ++ closing type ++ rest.tokens

/-- The fields and the blocks, in order. -/
def meaning? (vars : Variables) : BodySyntax → Option (List (String × SceneValue) × List TypedBlock)
  | done => some ([], [])
  | field f rest => do
    let e ← f.meaning? vars
    let (fields, blocks) ← rest.meaning? vars
    return (e :: fields, blocks)
  | nested type inner rest => do
    let (innerFields, innerBlocks) ← inner.meaning? vars
    let (fields, blocks) ← rest.meaning? vars
    return (fields, .over type innerFields innerBlocks :: blocks)

end BodySyntax

structure BlockSyntax where
  type : String
  body : BodySyntax

namespace BlockSyntax

def tokens (b : BlockSyntax) : List Token := opening b.type ++ b.body.tokens ++ closing b.type

def meaning? (vars : Variables) (b : BlockSyntax) : Option TypedBlock :=
  (b.body.meaning? vars).map fun (fields, blocks) => .over b.type fields blocks

/-- The tokens of a block that may be left out. -/
def optionalTokens : Option BlockSyntax → List Token
  | none => []
  | some b => b.tokens

/-- A block that is left out means that there is none. -/
def optionalMeaning? (vars : Variables) : Option BlockSyntax → Option (Option TypedBlock)
  | none => some none
  | some b => (b.meaning? vars).map some

end BlockSyntax

/-! ## Nodes -/

/-- The key that a word other than `true` and `false` stands for. -/
def SceneValue.asKey? : SceneValue → Option String
  | key name => some name
  | _ => none

/-- Some fields of a node ask for a string, and its parent for a key. -/
def FieldFits (e : String × SceneValue) : Prop :=
  (e.1 = "name" ∨ e.1 = "instance" ∨ e.1 = "script" → e.2.asString?.isSome = true) ∧
    (e.1 = "parent" → e.2.asKey?.isSome = true)

instance : DecidablePred FieldFits := fun _ => inferInstanceAs (Decidable (_ ∧ _))

/-- The fields that are kept as they are. -/
def IsProperty (e : String × SceneValue) : Prop :=
  e.1 ≠ "name" ∧ e.1 ≠ "parent" ∧ e.1 ≠ "instance"

instance : DecidablePred IsProperty := fun _ => inferInstanceAs (Decidable (_ ∧ _))

structure NodeSyntax where
  key : String
  fields : List FieldSyntax
  block? : Option BlockSyntax

namespace NodeSyntax

def tokens (n : NodeSyntax) : List Token :=
  opening n.key ++ n.fields.flatMap FieldSyntax.tokens ++ BlockSyntax.optionalTokens n.block? ++
    closing n.key

/-- The node block with these fields.  What is given more than once counts as given last. -/
def withFields (key : String) (fields : List (String × SceneValue)) (data : Option TypedBlock) :
    NodeBlock where
  key
  name := OrderedMap.last? fields "name" >>= SceneValue.asString?
  parent := OrderedMap.last? fields "parent" >>= SceneValue.asKey?
  properties := .ofList (fields.filter fun e => IsProperty e)
  instance? := OrderedMap.last? fields "instance" >>= SceneValue.asString?
  data

def meaning? (vars : Variables) (n : NodeSyntax) : Option NodeBlock := do
  let fields ← n.fields.mapM (FieldSyntax.meaning? vars)
  guard (∀ e ∈ fields, FieldFits e)
  let data ← BlockSyntax.optionalMeaning? vars n.block?
  return withFields n.key fields data

theorem meaning?_eq_some_iff {n : NodeSyntax} {vars : Variables} {b : NodeBlock} :
    n.meaning? vars = some b ↔ ∃ es data,
      n.fields.mapM (FieldSyntax.meaning? vars) = some es ∧ (∀ e ∈ es, FieldFits e) ∧
        BlockSyntax.optionalMeaning? vars n.block? = some data ∧
          withFields n.key es data = b := by
  unfold meaning?
  constructor
  · intro h
    obtain ⟨es, hes, h⟩ := Option.bind_eq_some_iff.mp h
    obtain ⟨⟨⟩, hfits, h⟩ := Option.bind_eq_some_iff.mp h
    obtain ⟨data, hdata, h⟩ := Option.bind_eq_some_iff.mp h
    cases h
    exact ⟨es, data, hes, (Option.guard_eq_some' ()).mp hfits, hdata, rfl⟩
  · rintro ⟨es, data, hes, hfits, hdata, rfl⟩
    refine Option.bind_eq_some_iff.mpr ⟨es, hes, ?_⟩
    refine Option.bind_eq_some_iff.mpr ⟨(), (Option.guard_eq_some' ()).mpr hfits, ?_⟩
    exact Option.bind_eq_some_iff.mpr ⟨data, hdata, rfl⟩

end NodeSyntax

/-- The block with a further field that fits. -/
def NodeBlock.put (b : NodeBlock) (e : String × SceneValue) : NodeBlock :=
  { b with
    name := if "name" = e.1 then e.2.asString? else b.name
    parent := if "parent" = e.1 then e.2.asKey? else b.parent
    properties := if IsProperty e then b.properties.insert e.1 e.2 else b.properties
    instance? := if "instance" = e.1 then e.2.asString? else b.instance? }

theorem NodeSyntax.withFields_concat (key : String) (es : List (String × SceneValue))
    (e : String × SceneValue) (data : Option TypedBlock) :
    NodeSyntax.withFields key (es ++ [e]) data = (NodeSyntax.withFields key es data).put e := by
  have hlast : ∀ {α : Type} (name : String) (kind? : SceneValue → Option α),
      (OrderedMap.last? (es ++ [e]) name >>= kind?) =
        if name = e.1 then kind? e.2 else OrderedMap.last? es name >>= kind? := by
    intro α name kind?
    rw [OrderedMap.last?_concat]
    split <;> rfl
  have hproperties : OrderedMap.ofList ((es ++ [e]).filter fun e => IsProperty e) =
      if IsProperty e then (OrderedMap.ofList (es.filter fun e => IsProperty e)).insert e.1 e.2
      else .ofList (es.filter fun e => IsProperty e) := by
    rw [List.filter_append]
    by_cases h : IsProperty e
    · rw [List.filter_cons_of_pos (by simpa using h), List.filter_nil, OrderedMap.ofList_concat,
        if_pos h]
    · rw [List.filter_cons_of_neg (by simpa using h), List.filter_nil, List.append_nil, if_neg h]
  simp only [NodeSyntax.withFields, NodeBlock.put, hlast, hproperties]

theorem NodeSyntax.foldl_put (key : String) (es : List (String × SceneValue)) :
    es.foldl NodeBlock.put { key } = NodeSyntax.withFields key es none := by
  induction es using List.reverseRecOn with
  | nil => rfl
  | append_singleton es e ih =>
    rw [List.foldl_append, ih, withFields_concat]
    rfl

/-! ## Files -/

inductive ItemSyntax where
  | definition (name : String) (value : ValueSyntax)
  | node (n : NodeSyntax)

namespace ItemSyntax

def tokens : ItemSyntax → List Token
  | definition name value => .at :: .ident name :: .equals :: value.tokens
  | node n => n.tokens

/-- The root key after a definition.  The one of `root` must be a key. -/
def rootAfter? (name : String) (v : SceneValue) (root : Option String) : Option (Option String) :=
  if name = "root" then v.asKey?.map some else some root

/-- The root key and the node blocks of a file, where `vars` and `root` are known before.  A
definition adds to the variables. -/
def meaning? : Variables → Option String → List ItemSyntax →
    Option (Option String × List NodeBlock)
  | _, root, [] => some (root, [])
  | vars, root, definition name value :: rest => do
    let v ← value.meaning? vars
    let root ← rootAfter? name v root
    meaning? (vars.insert name v) root rest
  | vars, root, node n :: rest => do
    let b ← n.meaning? vars
    let (root, bs) ← meaning? vars root rest
    return (root, b :: bs)

end ItemSyntax

end NetSchema
