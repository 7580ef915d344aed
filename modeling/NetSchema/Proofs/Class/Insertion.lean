import NetSchema.Class.Document
import NetSchema.Proofs.Class.Scripts

/-!
# Calls that fill a class table

An insertion writes to both maps of a table, one after the other.  It fails before the first write
or not at all, so a failed insertion leaves no trace, and after any calls, failed ones included, the
scripts are those of the classes.

* `insertInPlace_eq`: write by write, an insertion does what `insert` says;
* `Holds.insertAll_error`: where an insertion of many classes stops;
* `Holds.coherent`: the scripts of a table lead to its classes and back;
* `table_after_calls`: what holds after any calls, and what a further call does.
-/

namespace NetSchema.ClassTable

open ClassDecl

variable {t t' : ClassTable} {cs ds : List ClassDecl} {c : ClassDecl} {e : ClassError}

/-! ## Writing in place -/

/-- An insertion as it is carried out on a table in place.  Where it fails, the table stays as it
has been written until then. -/
def insertInPlace (c : ClassDecl) : EStateM ClassError ClassTable Unit := do
  if (← get).classes.contains c.name then throw (.duplicateClass c.name)
  if let some script := c.script then
    if let some first := (← get).scripts.get? (normalizeScript script) then
      throw (.duplicateScript script first c.name)
    modify fun t => { t with scripts := t.scripts.insert (normalizeScript script) c.name }
  modify fun t => { t with classes := t.classes.insert c.name c }

/-- Write by write, an insertion does what `insert` says, and writes nothing if it fails. -/
theorem insertInPlace_eq (c : ClassDecl) (t : ClassTable) :
    (insertInPlace c).run t =
      match t.insert c with
      | .ok t' => .ok () t'
      | .error e => .error e t := by
  unfold insertInPlace ClassTable.insert
  by_cases hname : t.classes.contains c.name = true
  · simp [hname]
  · cases hscript : c.script with
    | none => simp [hname]
    | some script =>
      cases hfirst : t.scripts.get? (normalizeScript script) with
      | none => simp [hname, hfirst]
      | some first => simp [hname, hfirst]

/-! ## Where an insertion of many stops -/

theorem Holds.insert_ok (h : t.Holds cs) (hok : t.insert c = .ok t') : t'.Holds (cs ++ [c]) := by
  rcases h.insert c with ⟨-, u, hu, hholds⟩ | ⟨-, e, herror⟩
  · rw [hok] at hu
    cases hu
    exact hholds
  · rw [hok] at herror
    cases herror

/-- The classes before the first that does not fit are inserted, and no other. -/
theorem Holds.insertAll_error (h : t.Holds cs) (hfail : t.insertAll ds = (.error e, t')) :
    ∃ before offending rest, ds = before ++ offending :: rest ∧ t'.Holds (cs ++ before) ∧
      t'.insert offending = .error e := by
  induction ds generalizing t cs with
  | nil => cases hfail
  | cons d ds ih =>
    rw [ClassTable.insertAll] at hfail
    cases hd : t.insert d with
    | ok u =>
      rw [hd] at hfail
      obtain ⟨before, offending, rest, rfl, hholds, hlast⟩ := ih (h.insert_ok hd) hfail
      refine ⟨d :: before, offending, rest, rfl, ?_, hlast⟩
      rwa [List.append_cons]
    | error e' =>
      rw [hd] at hfail
      cases hfail
      refine ⟨[], d, ds, rfl, ?_, hd⟩
      rwa [List.append_nil]

/-! ## Scripts and classes -/

/-- The scripts of a table are those of its classes: each class is found under its name and under
its script, and each script leads to a class. -/
structure Coherent (t : ClassTable) : Prop where
  holds : t.Holds t.classes.values
  resolved : ∀ path name, t.scripts.get? path = some name →
    ∃ c, t.classes.get? name = some c ∧ c.path? = some path
  named : ∀ c ∈ t.classes.values, t.class? c.name = some c
  scripted : ∀ c ∈ t.classes.values, ∀ script, c.script = some script →
    t.ofScript? script = some c

theorem Holds.coherent (h : t.Holds cs) : t.Coherent where
  holds := h.values.symm ▸ h
  resolved := by
    intro path name hname
    obtain ⟨c, hc, hp, rfl⟩ := h.get?_scripts_iff.mp hname
    exact ⟨c, h.get?_classes_iff.mpr ⟨hc, rfl⟩, hp⟩
  named := by
    intro c hc
    have hget : t.classes.get? c.name = some c := h.get?_classes_iff.mpr ⟨h.values ▸ hc, rfl⟩
    rw [class?, hget]
  scripted := by
    intro c hc script hscript
    have hp : c.path? = some (normalizeScript script) := by
      rw [path?, hscript, Option.map_some]
    exact h.ofScript?_eq_some_iff.mpr ⟨h.values ▸ hc, Or.inl hp⟩

/-! ## Calls -/

/-- A call that adds to a table. -/
inductive Call where
  | insert (c : ClassDecl)
  | load (origin text : String)

/-- What a call returns, and the table that it leaves. -/
def perform (t : ClassTable) : Call → Except ManifestError Unit × ClassTable
  | .insert c =>
    match (insertInPlace c).run t with
    | .ok () t' => (.ok (), t')
    | .error e t' => (.error (.clash e), t')
  | .load origin text => t.load origin text

/-- The table that calls leave that begin with an empty one. -/
def afterCalls (calls : List Call) : ClassTable :=
  calls.foldl (fun t call => (t.perform call).2) {}

/-- What a call may return, and what it then leaves of the table `t`.  Classes are added behind those
that are there. -/
inductive Performs (t : ClassTable) : Call → Except ManifestError Unit → ClassTable → Prop
  | inserted {c : ClassDecl} {t' : ClassTable} : t'.Holds (t.classes.values ++ [c]) →
      Performs t (.insert c) (.ok ()) t'
  | refused {c : ClassDecl} {e : ClassError} : t.insert c = .error e →
      Performs t (.insert c) (.error (.clash e)) t
  | loaded {origin text : String} {ds : List ClassDecl} {t' : ClassTable} :
      Json.parse text >>= manifestOfJson = .ok ds → t'.Holds (t.classes.values ++ ds) →
      Performs t (.load origin text) (.ok ()) t'
  | unreadable {origin text : String} {cause : JsonError} :
      Json.parse text >>= manifestOfJson = .error cause →
      Performs t (.load origin text) (.error (.invalid origin cause)) t
  | stopped {origin text : String} {before : List ClassDecl} {offending : ClassDecl}
      {rest : List ClassDecl} {e : ClassError} {t' : ClassTable} :
      Json.parse text >>= manifestOfJson = .ok (before ++ offending :: rest) →
      t'.Holds (t.classes.values ++ before) → t'.insert offending = .error e →
      Performs t (.load origin text) (.error (.clash e)) t'

theorem Holds.performs (h : t.Holds cs) (call : Call) :
    t.Performs call (t.perform call).1 (t.perform call).2 := by
  cases call with
  | insert c =>
    rw [perform, insertInPlace_eq]
    cases hc : t.insert c with
    | ok t' => exact .inserted (h.coherent.holds.insert_ok hc)
    | error e => exact .refused hc
  | load origin text =>
    rw [perform, load]
    cases hread : Json.parse text >>= manifestOfJson with
    | error cause => exact .unreadable hread
    | ok ds =>
      dsimp only
      rcases hall : t.insertAll ds with ⟨⟨⟩ | ⟨⟩, t'⟩
      · next e =>
        obtain ⟨before, offending, rest, rfl, hholds, hlast⟩ :=
          h.coherent.holds.insertAll_error hall
        exact .stopped hread hholds hlast
      · have hholds := (h.coherent.holds.insertAll ds).2
        rw [hall] at hholds
        exact .loaded hread (hholds rfl)

/-- Whatever a call leaves holds the scripts of its classes again. -/
theorem Performs.coherent {call : Call} {result : Except ManifestError Unit}
    (h : t.Performs call result t') (ht : t.Coherent) : t'.Coherent := by
  cases h with
  | inserted hholds => exact hholds.coherent
  | refused => exact ht
  | loaded _ hholds => exact hholds.coherent
  | unreadable => exact ht
  | stopped _ hholds => exact hholds.coherent

theorem coherent_foldl (ht : t.Coherent) (calls : List Call) :
    (calls.foldl (fun t call => (t.perform call).2) t).Coherent := by
  induction calls generalizing t with
  | nil => exact ht
  | cons call calls ih => exact ih ((ht.holds.performs call).coherent ht)

/-- **Tables after calls.**  After any insertions and loads, failed ones included, the scripts of a
table are exactly those of its classes, each class is found under its name and its script, and no
script leads nowhere.  A further insertion that fails leaves the table as it is, and so does a load
of a text that is no manifest; a load that fails at a class adds the classes before this one and
nothing else. -/
theorem table_after_calls (calls : List Call) :
    (afterCalls calls).Coherent ∧
      ∀ call, (afterCalls calls).Performs call ((afterCalls calls).perform call).1
        ((afterCalls calls).perform call).2 := by
  have h : (afterCalls calls).Coherent := coherent_foldl holds_empty.coherent calls
  exact ⟨h, h.holds.performs⟩

/-- The second class claims the script of the first in another spelling. -/
example :
    (afterCalls [.insert { name := "A", script := some "res://a.cs" },
      .insert { name := "B", script := some "a.cs" }, .insert { name := "C" }]).scripts.entries =
        [("a.cs", "A")] := by
  decide +kernel

end NetSchema.ClassTable
