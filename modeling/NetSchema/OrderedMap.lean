/-!
# Maps that remember insertion order

An `OrderedMap` lists its entries in the order in which their keys were first inserted.  Inserting
a known key replaces its value and keeps its place (`keys_insert`); erasing a key closes the gap.
Keys never repeat, which the type carries as a proof.
-/

namespace NetSchema

structure OrderedMap (κ α : Type) where
  entries : List (κ × α)
  keys_nodup : (entries.map Prod.fst).Nodup
  deriving DecidableEq, Repr

namespace OrderedMap

variable {κ α β : Type}

def empty : OrderedMap κ α := ⟨[], by simp⟩

instance : EmptyCollection (OrderedMap κ α) := ⟨empty⟩
instance : Inhabited (OrderedMap κ α) := ⟨empty⟩

def keys (m : OrderedMap κ α) : List κ := m.entries.map Prod.fst
def values (m : OrderedMap κ α) : List α := m.entries.map Prod.snd
def size (m : OrderedMap κ α) : Nat := m.entries.length
def isEmpty (m : OrderedMap κ α) : Bool := m.entries.isEmpty

variable [DecidableEq κ]

def get? (m : OrderedMap κ α) (k : κ) : Option α :=
  (m.entries.find? fun e => e.1 = k).map Prod.snd

def contains (m : OrderedMap κ α) (k : κ) : Bool := (m.get? k).isSome

/-- Replace the value of `k` where it stands, or append the entry. -/
def insertEntry (k : κ) (a : α) : List (κ × α) → List (κ × α)
  | [] => [(k, a)]
  | e :: es => if e.1 = k then (k, a) :: es else e :: insertEntry k a es

theorem keys_insertEntry (k : κ) (a : α) (es : List (κ × α)) :
    (insertEntry k a es).map Prod.fst =
      if k ∈ es.map Prod.fst then es.map Prod.fst else es.map Prod.fst ++ [k] := by
  induction es with
  | nil => simp [insertEntry]
  | cons e es ih =>
    by_cases h : e.1 = k
    · simp [insertEntry, h]
    · have h' : ¬ k = e.1 := fun he => h he.symm
      rw [insertEntry, if_neg h, List.map_cons, ih]
      by_cases hk : k ∈ es.map Prod.fst
      · simp only [if_pos hk, List.map_cons, List.mem_cons, h', false_or]
      · simp only [if_neg hk, List.map_cons, List.mem_cons, h', false_or, List.cons_append]

theorem nodup_insertEntry (k : κ) (a : α) (es : List (κ × α)) (h : (es.map Prod.fst).Nodup) :
    ((insertEntry k a es).map Prod.fst).Nodup := by
  rw [keys_insertEntry]
  by_cases hk : k ∈ es.map Prod.fst
  · rwa [if_pos hk]
  · rw [if_neg hk, List.nodup_append]
    refine ⟨h, by simp, ?_⟩
    intro x hx y hy
    rw [List.mem_singleton] at hy
    subst hy
    exact fun he => hk (he ▸ hx)

def insert (m : OrderedMap κ α) (k : κ) (a : α) : OrderedMap κ α :=
  ⟨insertEntry k a m.entries, nodup_insertEntry k a m.entries m.keys_nodup⟩

def erase (m : OrderedMap κ α) (k : κ) : OrderedMap κ α :=
  ⟨m.entries.filter fun e => e.1 ≠ k,
    m.keys_nodup.sublist (List.filter_sublist.map Prod.fst)⟩

/-- The map that results from inserting the entries one after the other. -/
def ofList (es : List (κ × α)) : OrderedMap κ α :=
  es.foldl (fun m e => m.insert e.1 e.2) empty

theorem keys_insert (m : OrderedMap κ α) (k : κ) (a : α) :
    (m.insert k a).keys = if k ∈ m.keys then m.keys else m.keys ++ [k] :=
  keys_insertEntry k a m.entries

theorem mem_values_of_get? {m : OrderedMap κ α} {k : κ} {a : α} (h : m.get? k = some a) :
    a ∈ m.values := by
  unfold get? at h
  cases hf : m.entries.find? (fun e => decide (e.1 = k)) with
  | none => simp [hf] at h
  | some e =>
    simp only [hf, Option.map_some, Option.some.injEq] at h
    subst h
    exact List.mem_map_of_mem (List.mem_of_find?_eq_some hf)

end OrderedMap

end NetSchema
