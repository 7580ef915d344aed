import Mathlib.Data.List.Induction
import NetSchema.OrderedMap

/-!
# Laws of ordered maps

* `get?_insert`, `get?_erase`: what is found after an insertion or an erasure;
* `erase_insert`: erasing a new key again;
* `get?_eq_some_iff`: looking up finds exactly the entries;
* `entries_insert_new`, `entries_insert_last`: where an insertion puts its entry, for a key that is
  new and for the key that came last;
* `keys_ofList`, `get?_ofList`: a map from a list keeps the first place and the last value of a key.
-/

namespace NetSchema.OrderedMap

variable {κ α : Type}

theorem ext {m m' : OrderedMap κ α} (h : m.entries = m'.entries) : m = m' := by
  cases m
  cases m'
  simpa using h

/-- An empty map may as well be left out. -/
theorem getD_ite_isEmpty (m : OrderedMap κ α) :
    (if m.isEmpty = true then none else some m).getD {} = m := by
  split
  · next h =>
    apply ext
    exact (List.isEmpty_iff.mp h).symm
  · rfl

variable [DecidableEq κ]

/-! ## Looking up -/

theorem get?_eq_some_iff {m : OrderedMap κ α} {k : κ} {a : α} :
    m.get? k = some a ↔ (k, a) ∈ m.entries := by
  obtain ⟨es, hes⟩ := m
  unfold get?
  induction es with
  | nil => simp
  | cons e es ih =>
    obtain ⟨hne, hes'⟩ := List.nodup_cons.mp hes
    by_cases he : e.1 = k
    · subst he
      have hout : (e.1, a) ∉ es := fun hm => hne (List.mem_map.mpr ⟨_, hm, rfl⟩)
      simp only [List.find?_cons, decide_true, Option.map_some, Option.some.injEq,
        List.mem_cons, hout, or_false]
      exact ⟨fun h => h ▸ rfl, fun h => h ▸ rfl⟩
    · have hke : (k, a) ≠ e := fun h => he (h ▸ rfl)
      simp only [List.find?_cons, he, decide_false, List.mem_cons, hke, false_or]
      exact ih hes'

theorem get?_eq_none_iff {m : OrderedMap κ α} {k : κ} : m.get? k = none ↔ k ∉ m.keys := by
  simp [get?, keys]
  grind

/-! ## Insertion -/

theorem mem_insertEntry (k : κ) (a : α) (es : List (κ × α)) (hes : (es.map Prod.fst).Nodup)
    (e : κ × α) : e ∈ insertEntry k a es ↔ e = (k, a) ∨ (e.1 ≠ k ∧ e ∈ es) := by
  induction es with
  | nil => simp [insertEntry]
  | cons e' es ih =>
    obtain ⟨hne, hes'⟩ := List.nodup_cons.mp hes
    by_cases he : e'.1 = k
    · rw [insertEntry, if_pos he]
      have hout : e ∈ es → e.1 ≠ k := fun hm hk => hne (he ▸ hk ▸ List.mem_map_of_mem hm)
      simp only [List.mem_cons]
      constructor
      · rintro (h | h)
        · exact Or.inl h
        · exact Or.inr ⟨hout h, Or.inr h⟩
      · rintro (h | ⟨hk, rfl | h⟩)
        · exact Or.inl h
        · exact absurd he hk
        · exact Or.inr h
    · rw [insertEntry, if_neg he, List.mem_cons, ih hes', List.mem_cons]
      constructor
      · rintro (rfl | h | ⟨hk, h⟩)
        · exact Or.inr ⟨he, Or.inl rfl⟩
        · exact Or.inl h
        · exact Or.inr ⟨hk, Or.inr h⟩
      · rintro (h | ⟨hk, h | h⟩)
        · exact Or.inr (Or.inl h)
        · exact Or.inl h
        · exact Or.inr (Or.inr ⟨hk, h⟩)

theorem get?_insert (m : OrderedMap κ α) (k k' : κ) (a : α) :
    (m.insert k a).get? k' = if k' = k then some a else m.get? k' := by
  apply Option.ext
  intro b
  rw [get?_eq_some_iff, insert, mem_insertEntry k a m.entries m.keys_nodup]
  by_cases h : k' = k
  · simp [h, eq_comm]
  · simp [h, get?_eq_some_iff]

theorem insertEntry_new {k : κ} {es : List (κ × α)} (hk : k ∉ es.map Prod.fst) (a : α) :
    insertEntry k a es = es ++ [(k, a)] := by
  induction es with
  | nil => rfl
  | cons e es ih =>
    obtain ⟨hne, hk'⟩ := not_or.mp (fun h => hk (List.mem_cons.mpr h))
    rw [insertEntry, if_neg (Ne.symm hne), ih hk', List.cons_append]

theorem insertEntry_last {k : κ} {es : List (κ × α)} (hk : k ∉ es.map Prod.fst) (a b : α) :
    insertEntry k b (es ++ [(k, a)]) = es ++ [(k, b)] := by
  induction es with
  | nil => simp [insertEntry]
  | cons e es ih =>
    obtain ⟨hne, hk'⟩ := not_or.mp (fun h => hk (List.mem_cons.mpr h))
    rw [List.cons_append, insertEntry, if_neg (Ne.symm hne), ih hk', List.cons_append]

theorem entries_insert_new {m : OrderedMap κ α} {k : κ} (hk : k ∉ m.keys) (a : α) :
    (m.insert k a).entries = m.entries ++ [(k, a)] :=
  insertEntry_new hk a

omit [DecidableEq κ] in
theorem not_mem_of_entries_eq {m : OrderedMap κ α} {es : List (κ × α)} {k : κ} {a : α}
    (h : m.entries = es ++ [(k, a)]) : k ∉ es.map Prod.fst := by
  have hd := m.keys_nodup
  rw [h, List.map_append, List.nodup_append] at hd
  intro hk
  exact hd.2.2 k hk k (by simp) rfl

theorem entries_insert_last {m : OrderedMap κ α} {es : List (κ × α)} {k : κ} {a : α}
    (h : m.entries = es ++ [(k, a)]) (b : α) :
    (m.insert k b).entries = es ++ [(k, b)] := by
  have hl := insertEntry_last (not_mem_of_entries_eq h) a b
  rwa [← h] at hl

/-! ## Maps from lists -/

/-- The value that the last entry for `k` gives. -/
def last? (es : List (κ × α)) (k : κ) : Option α :=
  (es.reverse.find? fun e => e.1 = k).map Prod.snd

theorem last?_concat (es : List (κ × α)) (e : κ × α) (k : κ) :
    last? (es ++ [e]) k = if k = e.1 then some e.2 else last? es k := by
  rw [last?, List.reverse_append, List.reverse_singleton, List.singleton_append, List.find?_cons]
  by_cases h : e.1 = k
  · simp [h]
  · simp [h, Ne.symm h, last?]

theorem ofList_concat (es : List (κ × α)) (e : κ × α) :
    ofList (es ++ [e]) = (ofList es).insert e.1 e.2 := by
  rw [ofList, List.foldl_append]
  rfl

/-- Every key stands where it stood first. -/
theorem keys_ofList (es : List (κ × α)) : (ofList es).keys = (es.map Prod.fst).eraseDups := by
  induction es using List.reverseRecOn with
  | nil => rfl
  | append_singleton es e ih =>
    rw [ofList_concat, keys_insert, ih, List.map_append, List.map_singleton, List.eraseDups_append]
    by_cases h : e.1 ∈ es.map Prod.fst
    · rw [if_pos (List.mem_eraseDups.mpr h), List.removeAll,
        List.filter_cons_of_neg (by simpa using h)]
      simp
    · rw [if_neg (mt List.mem_eraseDups.mp h), List.removeAll,
        List.filter_cons_of_pos (by simpa using h)]
      simp [List.eraseDups_cons]

/-- Every key has the value it was given last. -/
theorem get?_ofList (es : List (κ × α)) (k : κ) : (ofList es).get? k = last? es k := by
  induction es using List.reverseRecOn with
  | nil => rfl
  | append_singleton es e ih => rw [ofList_concat, get?_insert, last?_concat, ih]

/-! ## Erasure -/

theorem get?_erase (m : OrderedMap κ α) (k k' : κ) :
    (m.erase k).get? k' = if k' = k then none else m.get? k' := by
  apply Option.ext
  intro b
  rw [get?_eq_some_iff, erase]
  by_cases h : k' = k
  · simp [h]
  · simp [h, get?_eq_some_iff]

theorem erase_insert {m : OrderedMap κ α} {k : κ} (hk : k ∉ m.keys) (a : α) :
    (m.insert k a).erase k = m := by
  have hkeep : m.entries.filter (fun e => e.1 ≠ k) = m.entries := by
    rw [List.filter_eq_self]
    intro e he
    have hne : e.1 ≠ k := fun h => hk (h ▸ List.mem_map_of_mem he)
    simpa using hne
  apply ext
  show (m.insert k a).entries.filter (fun e => e.1 ≠ k) = m.entries
  rw [entries_insert_new hk, List.filter_append, hkeep, List.filter_cons_of_neg (by simp),
    List.filter_nil, List.append_nil]

end NetSchema.OrderedMap
