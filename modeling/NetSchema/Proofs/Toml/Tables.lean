import NetSchema.Proofs.Results
import NetSchema.Toml.Reader

/-!
# Values that stay

What a document has assigned, its later statements leave alone.  A header opens a new table, or one
that was implied before and whose entries it keeps; an assignment adds a value where there was none.

* `Keeps`: the values that stand in tables stay where they are;
* `descend_keeps`: a step inside a table keeps values if it does so in the innermost one;
* `buildFrom_keeps`: statements keep values, and so do all that follow (`buildFrom_holds`);
* `Holds.value_of_at?`: what the finished document has in the place of such a value.
-/

namespace NetSchema.Toml

namespace Entries

/-- The value `v` stands at the last of the keys, and tables stand at those before. -/
inductive Holds (v : Toml) : List String → Entries → Prop
  | here {key : String} {es : Entries} : es.find? key = some (.value v) → Holds v [key] es
  | inside {key : String} {keys : List String} {origin : TableOrigin} {inner es : Entries} :
      es.find? key = some (.table origin inner) → Holds v keys inner → Holds v (key :: keys) es

/-- The values that stand in tables of `es` stand in tables of `es'`. -/
def Keeps (es es' : Entries) : Prop := ∀ v path, Holds v path es → Holds v path es'

variable {es es' inner inner' : Entries} {key k : String} {n n' : Node} {v : Toml}
  {path : List String}

/-! ## Looking up entries -/

theorem find?_append_of_some (h : es.find? key = some n) (more : Entries) :
    find? key (es ++ more) = some n := by
  rw [find?] at h ⊢
  obtain ⟨e, he, rfl⟩ := Option.map_eq_some_iff.mp h
  rw [List.find?_append, he]
  rfl

theorem find?_append_self (h : es.find? key = none) :
    find? key (es ++ [(key, n)]) = some n := by
  rw [find?] at h ⊢
  rw [List.find?_append, Option.map_eq_none_iff.mp h]
  simp

theorem find?_append_of_ne (h : k ≠ key) : find? k (es ++ [(key, n)]) = es.find? k := by
  have hne : (key == k) = false := by simpa using fun he => h he.symm
  rw [find?, find?, List.find?_append]
  simp [hne]

theorem find?_replace_self (h : es.find? key = some n') :
    (es.replace key n).find? key = some n := by
  rw [find?] at h
  obtain ⟨e, he, -⟩ := Option.map_eq_some_iff.mp h
  have hkeys : (fun e : String × Node => (if e.1 == key then (key, n) else e).1 == key) =
      fun e => e.1 == key := by
    funext e
    split <;> simp_all
  rw [find?, replace, List.find?_map, Function.comp_def, hkeys, he, Option.map_some,
    if_pos (List.find?_some he)]
  rfl

theorem find?_replace_of_ne (h : k ≠ key) : (es.replace key n).find? k = es.find? k := by
  have hkeys : (fun e : String × Node => (if e.1 == key then (key, n) else e).1 == k) =
      fun e => e.1 == k := by
    funext e
    split <;> simp_all
  rw [find?, find?, replace, List.find?_map, Function.comp_def, hkeys]
  cases he : List.find? (fun e => e.1 == k) es with
  | none => rfl
  | some e =>
    have hek : e.1 = k := by simpa using List.find?_some he
    simp [hek, h]

theorem find?_erase_self : (es.erase key).find? key = none := by
  simp [find?, erase]

theorem find?_erase_of_ne (h : k ≠ key) : (es.erase key).find? k = es.find? k := by
  have hkeys : (fun e : String × Node => decide ((e.1 != key) = true ∧ (e.1 == k) = true)) =
      fun e => e.1 == k := by
    funext e
    by_cases he : e.1 = k <;> simp [he, h]
  rw [find?, find?, erase, List.find?_filter, hkeys]

/-! ## What one change keeps -/

theorem keeps_append (es more : Entries) : Keeps es (es ++ more) := by
  intro v path h
  cases h with
  | here h => exact .here (find?_append_of_some h more)
  | inside h hin => exact .inside (find?_append_of_some h more) hin

/-- A change at one key, which leads to a table before and after. -/
theorem keeps_of_table {origin origin' : TableOrigin}
    (hother : ∀ k, k ≠ key → es'.find? k = es.find? k)
    (h : es.find? key = some (.table origin inner))
    (h' : es'.find? key = some (.table origin' inner')) (hin : Keeps inner inner') :
    Keeps es es' := by
  intro v path hv
  cases hv with
  | @here k _ hk =>
    by_cases hkey : k = key
    · subst hkey
      rw [h] at hk
      cases hk
    · exact .here ((hother k hkey).trans hk)
  | @inside k keys _ _ _ hk hv =>
    by_cases hkey : k = key
    · subst hkey
      rw [h] at hk
      cases hk
      exact .inside h' (hin _ _ hv)
    · exact .inside ((hother k hkey).trans hk) hv

/-- A change at one key, which leads to an array of tables. -/
theorem keeps_of_tables {before : List Entries} {last : Entries}
    (hother : ∀ k, k ≠ key → es'.find? k = es.find? k)
    (h : es.find? key = some (.tables before last)) : Keeps es es' := by
  have hne : ∀ k n, es.find? k = some n → (∀ before last, n ≠ .tables before last) → k ≠ key := by
    rintro k n hk hn rfl
    rw [h] at hk
    cases hk
    exact hn _ _ rfl
  intro v path hv
  cases hv with
  | @here k _ hk => exact .here ((hother k (hne k _ hk (by simp))).trans hk)
  | @inside k keys _ _ _ hk hv => exact .inside ((hother k (hne k _ hk (by simp))).trans hk) hv

/-! ## What a statement keeps -/

theorem openTable_keeps {origin : TableOrigin} (h : openTable key origin es = .ok es') :
    Keeps es es' := by
  unfold openTable at h
  split at h
  · cases h
    exact keeps_append es _
  · next inner hfind =>
    cases h
    refine keeps_of_table ?_ hfind (find?_append_self find?_erase_self) fun _ _ hv => hv
    intro k hk
    rw [find?_append_of_ne hk, find?_erase_of_ne hk]
  · cases h

theorem openElement_keeps {origin : TableOrigin} (h : openElement key origin es = .ok es') :
    Keeps es es' := by
  unfold openElement at h
  split at h
  · cases h
    exact keeps_append es _
  · next before last hfind =>
    cases h
    exact keeps_of_tables (fun k hk => find?_replace_of_ne hk) hfind
  · cases h

theorem descend_keeps {f : TableOrigin → Entries → Except TomlError Entries} {dotted : Bool}
    (hf : ∀ {origin es es'}, f origin es = .ok es' → Keeps es es') {parents : List String}
    {origin : TableOrigin} (h : descend dotted f parents origin es = .ok es') : Keeps es es' := by
  induction parents generalizing origin es es' with
  | nil => exact hf h
  | cons key keys ih =>
    unfold descend at h
    split at h
    · obtain ⟨inner, -, h⟩ := bind_eq_ok_iff.mp h
      cases h
      exact keeps_append es _
    · cases h
    · next before last hfind =>
      obtain ⟨last', -, h⟩ := bind_eq_ok_iff.mp h
      cases h
      exact keeps_of_tables (fun k hk => find?_replace_of_ne hk) hfind
    · next origin' inner hfind =>
      split at h
      · cases h
      · obtain ⟨inner', hinner, h⟩ := bind_eq_ok_iff.mp h
        cases h
        exact keeps_of_table (fun k hk => find?_replace_of_ne hk) hfind (find?_replace_self hfind)
          (ih hinner)

theorem assign_keeps {keyPath : KeyPath} {origin : TableOrigin}
    (h : assign keyPath v origin es = .ok es') : Keeps es es' := by
  refine descend_keeps ?_ h
  intro origin es es' h
  split at h
  · cases h
  · split at h
    · cases h
      exact keeps_append es _
    · cases h

end Entries

/-- **Values stay.**  Statements leave the values where they stand. -/
theorem buildFrom_keeps {current : List String} {root root' : Entries} {sts : List Statement}
    (h : buildFrom current root sts = .ok root') : Entries.Keeps root root' := by
  induction sts generalizing current root with
  | nil =>
    cases h
    exact fun _ _ h => h
  | cons st sts ih =>
    cases st with
    | table path =>
      obtain ⟨root₁, hstep, h⟩ := bind_eq_ok_iff.mp h
      exact fun v p hv => ih h v p (Entries.descend_keeps Entries.openTable_keeps hstep v p hv)
    | element path =>
      obtain ⟨root₁, hstep, h⟩ := bind_eq_ok_iff.mp h
      exact fun v p hv => ih h v p (Entries.descend_keeps Entries.openElement_keeps hstep v p hv)
    | assign path w =>
      obtain ⟨root₁, hstep, h⟩ := bind_eq_ok_iff.mp h
      exact fun v p hv => ih h v p (Entries.descend_keeps Entries.assign_keeps hstep v p hv)

/-! ## Finished documents -/

/-- What the keys lead to, one after the other. -/
def at? (path : List String) (t : Toml) : Option Toml := path.foldlM (fun t key => t.get? key) t

variable {t t' v w : Toml} {key : String}

theorem get?_finishEntries (key : String) (es : Entries) :
    (table (finishEntries es)).get? key = (es.find? key).map Node.finish := by
  induction es with
  | nil => rfl
  | cons e es ih =>
    obtain ⟨k, n⟩ := e
    rw [finishEntries]
    by_cases hk : k = key
    · simp [get?, Entries.find?, hk]
    · simpa [get?, Entries.find?, hk] using ih

theorem get?_of_entriesWithDates {es es' : List (String × Toml)}
    (h : entriesWithDates es = .ok es') (hw : (table es').get? key = some w) :
    ∃ v, (table es).get? key = some v ∧ withDates v = .ok w := by
  induction es generalizing es' with
  | nil =>
    cases h
    cases hw
  | cons e es ih =>
    obtain ⟨k, v⟩ := e
    obtain ⟨v', hv, h⟩ := bind_eq_ok_iff.mp h
    obtain ⟨rest, hrest, h⟩ := bind_eq_ok_iff.mp h
    cases h
    by_cases hk : k = key
    · simp only [get?, hk, List.find?_cons, beq_self_eq_true, Option.map_some] at hw ⊢
      cases hw
      exact ⟨v, rfl, hv⟩
    · have hne : (k == key) = false := by simpa using hk
      simp only [get?, List.find?_cons, hne] at hw ⊢
      exact ih hrest hw

theorem get?_of_markedDate (h : markedDate v = .ok t) : t.get? key = none := by
  unfold markedDate at h
  split at h
  · split at h
    · cases h
      rfl
    · cases h
  · cases h

/-- Dates take the place of whole tables only. -/
theorem get?_of_withDates (h : withDates t = .ok t') (hw : t'.get? key = some w) :
    ∃ v, t.get? key = some v ∧ withDates v = .ok w := by
  cases t with
  | array items =>
    rw [withDates] at h
    cases hitems : itemsWithDates items with
    | error e =>
      rw [hitems] at h
      cases h
    | ok items' =>
      rw [hitems] at h
      cases h
      cases hw
  | table entries =>
    cases entries with
    | nil =>
      cases h
      cases hw
    | cons e es =>
      rw [withDates] at h
      split at h
      · rw [get?_of_markedDate h] at hw
        cases hw
      · obtain ⟨v, hv, h⟩ := bind_eq_ok_iff.mp h
        obtain ⟨rest, hrest, h⟩ := bind_eq_ok_iff.mp h
        cases h
        have hentries : entriesWithDates (e :: es) = .ok ((e.1, v) :: rest) :=
          bind_eq_ok_iff.mpr ⟨v, hv, bind_eq_ok_iff.mpr ⟨rest, hrest, rfl⟩⟩
        exact get?_of_entriesWithDates hentries hw
  | _ =>
    cases h
    cases hw

theorem at?_cons {keys : List String} :
    t.at? (key :: keys) = some w ↔ ∃ inner, t.get? key = some inner ∧ inner.at? keys = some w :=
  Option.bind_eq_some_iff

/-- A value that stands in tables of a document is what the keys lead to in the finished one. -/
theorem Entries.Holds.value_of_at? {path : List String} {es : Entries} (hv : Entries.Holds v path es)
    (h : withDates (.table (finishEntries es)) = .ok t) (hw : t.at? path = some w) :
    withDates v = .ok w := by
  induction hv generalizing t with
  | here hfind =>
    obtain ⟨inner, hinner, hw⟩ := at?_cons.mp hw
    cases hw
    obtain ⟨v', hv', hdates⟩ := get?_of_withDates h hinner
    rw [get?_finishEntries, hfind] at hv'
    cases hv'
    exact hdates
  | inside hfind _ ih =>
    obtain ⟨inner, hinner, hw⟩ := at?_cons.mp hw
    obtain ⟨v', hv', hdates⟩ := get?_of_withDates h hinner
    rw [get?_finishEntries, hfind] at hv'
    cases hv'
    exact ih hdates hw

end NetSchema.Toml
