/-!
# One-byte identifiers

Scenes, static nodes, properties and functions are numbered from zero with one byte each, and each
kind has its own limit.  `ofCount?` is the number of the next thing of a kind, as long as there is
one.
-/

namespace NetSchema

/-- The four numberings. -/
inductive IdKind where
  | scene
  | staticNode
  | property
  | function
  deriving DecidableEq, Repr

namespace IdKind

/-- How many things of a kind can be numbered: scenes in a run, the others in a scene. -/
def limit : IdKind → Nat
  | scene => 255
  | staticNode => 256
  | property => 64
  | function => 255

def name : IdKind → String
  | scene => "SceneId"
  | staticNode => "StaticNodeId"
  | property => "PropertyIndex"
  | function => "FunctionIndex"

end IdKind

structure ByteId (kind : IdKind) where
  byte : UInt8
  deriving DecidableEq, Repr

namespace ByteId

variable {kind : IdKind}

/-- The number of the thing that comes after `count` others, or `none` at the limit. -/
def ofCount? (kind : IdKind) (count : Nat) : Option (ByteId kind) :=
  if count < kind.limit then some ⟨UInt8.ofNat count⟩ else none

def toNat (i : ByteId kind) : Nat := i.byte.toNat

/-- The number alone. -/
def text (i : ByteId kind) : String := toString i.toNat

/-- The number with the name of its kind. -/
def describe (i : ByteId kind) : String := kind.name ++ "(" ++ i.text ++ ")"

theorem toNat_of_ofCount? {n : Nat} {i : ByteId kind} (h : ofCount? kind n = some i) :
    i.toNat = n := by
  unfold ofCount? at h
  split at h
  · next hn =>
    have hl : kind.limit ≤ 256 := by cases kind <;> decide
    obtain rfl := Option.some.inj h
    simp [toNat]
    omega
  · simp at h

end ByteId

abbrev SceneId := ByteId .scene
abbrev StaticNodeId := ByteId .staticNode
abbrev PropertyIndex := ByteId .property
abbrev FunctionIndex := ByteId .function

end NetSchema
