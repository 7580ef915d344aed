import NetSchema.Proofs.Scene.BlockTurns
import NetSchema.Proofs.Scene.Located

/-!
# The lines of faults

Every turn of a pass begins at a located cursor, so its faults are placed, also those that the first
pass passes over.  With the number of turns this settles what reading a text comes to.

* `gatherTurn_tidy`, `readTurn_safe`: the turns of the two passes;
* `firstPass_ends`, `blocks_ends`: the passes over a text;
* `parse_placed`: the fault of a text;
* `reading_ends`: what this means for reading a text.
-/

namespace NetSchema

variable {text : String} {e : SceneError}

namespace Cursor

variable {c : Cursor} {s : Reading} {b : NodeBlock} {o : OpenBlock} {outer : List OpenBlock}

/-! ## Turns -/

theorem Located.readOpen (h : c.Located text) :
    Safe text (fun r => r.2.1.Located text) c.readOpen := by
  refine h.readName.bind ?_
  rintro ⟨name, d, hlt⟩ hd
  refine (Located.readToken hd _).bind ?_
  rintro ⟨d', hlt'⟩ hd'
  exact hd'

/-- What a turn of the second pass leaves. -/
abbrev SafeTurn (text : String) (x : Except SceneError (Blocks ⊕ Reading)) : Prop :=
  Safe text (Sum.elim (fun _ => True) fun s => s.cursor.Located text) x

theorem endTurn_safe (h : c.Located text) : SafeTurn text (endTurn s b c) := by
  refine (h.readToken _).bind ?_
  intro d hd
  refine (Located.readClose hd b.key).bind ?_
  intro d' hd'
  exact hd'

theorem fileTurn_safe (h : s.cursor.Located text) : SafeTurn text (fileTurn s) := by
  unfold fileTurn
  split
  · trivial
  · refine (h.step _).bind ?_
    intro d hd
    refine (Located.readDefinition hd s.vars s.root).bind ?_
    intro r hr
    exact hr
  · refine (h.step _).bind ?_
    intro d hd
    refine (Located.readOpen hd).bind ?_
    intro r hr
    exact hr
  · exact h.safe_unexpected _

theorem fieldsTurn_safe (h : s.cursor.Located text) : SafeTurn text (fieldsTurn s b) := by
  unfold fieldsTurn
  split
  · refine (h.readField s.vars).bind ?_
    intro r hr
    refine (setField_safe ..).bind ?_
    intro b' _
    exact hr
  · refine (h.readToken _).bind ?_
    intro d hd
    split
    · exact endTurn_safe hd
    · refine (Located.readOpen hd).bind ?_
      intro r hr
      exact hr

theorem closeTurn_safe (h : c.Located text) : SafeTurn text (closeTurn s b o outer c) := by
  unfold closeTurn
  split
  · refine (h.readToken _).bind ?_
    intro d hd
    exact endTurn_safe hd
  · exact h

theorem bodyTurn_safe (h : s.cursor.Located text) : SafeTurn text (bodyTurn s b o outer) := by
  unfold bodyTurn
  split
  · refine (h.step _).bind ?_
    intro d hd
    split
    · refine (Located.step hd _).bind ?_
      intro d' hd'
      refine (Located.readClose hd' o.type).bind ?_
      intro d'' hd''
      exact closeTurn_safe hd''
    · refine (Located.readOpen hd).bind ?_
      intro r hr
      exact hr
  · refine (h.readField s.vars).bind ?_
    intro r hr
    exact hr
  · exact h.safe_unexpected _

/-- **Turns of the second pass.** -/
theorem readTurn_safe (h : s.cursor.Located text) : SafeTurn text (readTurn s) := by
  unfold readTurn
  split
  · exact fileTurn_safe h
  · exact fieldsTurn_safe h
  · exact bodyTurn_safe h

theorem Located.readBlocks (h : c.Located text) (vars : Variables) :
    Safe text (fun _ => True) (c.readBlocks vars none) := by
  have hturn : ∀ s : Reading, s.cursor.Located text →
      (orFail (readTurn s)).elim (Safe text fun _ => True) fun s' => s'.cursor.Located text := by
    intro s hs
    have hsafe := readTurn_safe hs
    generalize readTurn s = x at hsafe
    cases x with
    | error e => exact hsafe
    | ok r =>
      cases r with
      | inl r => trivial
      | inr s' => exact hsafe
  obtain ⟨n, -, hends⟩ := readBlocks_endsAfter vars c
  exact hends.keeps hturn h

/-- What the first pass keeps: the faults that it has passed over are placed. -/
structure Tidy (text : String) (s : Gathering) : Prop where
  cursor : s.cursor.Strays text
  missed : ∀ e ∈ s.missed, e.Placed text

/-- All the faults of a first pass are placed. -/
def AllPlaced (text : String) (r : Except SceneError Variables × List SceneError) : Prop :=
  Safe text (fun _ => True) r.1 ∧ ∀ e ∈ r.2, e.Placed text

theorem valueTurn_tidy {s : Gathering} (h : s.cursor.Located text)
    (hmissed : ∀ e ∈ s.missed, e.Placed text) (name : String) : Tidy text (valueTurn name s) := by
  unfold valueTurn
  split
  · next hv => exact ⟨((h.value s.vars).located hv).strays, hmissed⟩
  · next hv =>
    obtain ⟨he, hd⟩ := (h.value s.vars).fault hv
    refine ⟨hd, ?_⟩
    intro e' he'
    rcases List.mem_append.mp he' with he' | he'
    · exact hmissed e' he'
    · exact List.mem_singleton.mp he' ▸ he

theorem definitionTurn_tidy {s : Gathering} (h : s.cursor.Located text)
    (hmissed : ∀ e ∈ s.missed, e.Placed text) :
    (definitionTurn s).elim (AllPlaced text) (Tidy text) := by
  unfold definitionTurn
  split
  · split
    · next hi => exact ⟨(h.ident.fault hi).1, hmissed⟩
    next name d hi =>
    have hd := h.ident.located hi
    split
    · split
      · next ha => exact ⟨(hd.advance.fault ha).1, hmissed⟩
      · next d' ha =>
        exact valueTurn_tidy (s := { s with cursor := d' }) (hd.advance.located ha) hmissed name
    · exact ⟨hd.strays, hmissed⟩
  · exact ⟨h.strays, hmissed⟩

/-- **Turns of the first pass.**  After a fault that took a name the pass is at its end, and after
any other the cursor is located as before. -/
theorem gatherTurn_tidy (s : Gathering) (h : Tidy text s) :
    (gatherTurn s).elim (AllPlaced text) (Tidy text) := by
  unfold gatherTurn
  split
  · exact ⟨trivial, h.missed⟩
  next hc =>
  have hs := h.cursor.located hc
  split
  · next ha => exact ⟨(hs.advance.fault ha).1, h.missed⟩
  next d ha =>
  have hd := hs.advance.located ha
  split
  · exact definitionTurn_tidy (s := { s with cursor := d }) hd h.missed
  · exact ⟨hd.strays, h.missed⟩

end Cursor

/-! ## Trees -/

theorem lineage_safe (blocks : List NodeBlock) (root child : String) (seen : List String)
    (key : String) : Safe text (fun _ => True) (lineage blocks root child seen key) := by
  fun_induction lineage blocks root child seen key with
  | case1 => trivial
  | case2 => trivial
  | case3 => trivial
  | case4 => trivial
  | case5 => trivial
  | case6 child seen key hroot b hb hs parent hparent hlt e he ih =>
    rw [he] at ih
    exact ih

theorem placeNode_safe (blocks : List NodeBlock) (root : String) (b : NodeBlock) :
    Safe text (fun _ => True) (placeNode blocks root b) :=
  (lineage_safe ..).bind fun _ _ => trivial

theorem chooseRoot_safe (root : Option String) (blocks : List NodeBlock) :
    Safe text (fun _ => True) (chooseRoot root blocks) := by
  unfold chooseRoot
  repeat' split
  all_goals trivial

theorem mapM_safe {α β : Type} {f : α → Except SceneError β} {xs : List α}
    (h : ∀ x ∈ xs, Safe text (fun _ => True) (f x)) : Safe text (fun _ => True) (xs.mapM f) := by
  cases hxs : xs.mapM f with
  | ok ys => trivial
  | error e =>
    obtain ⟨x, hx, he⟩ := exists_of_mapM_error hxs
    have hsafe := h x hx
    rw [he] at hsafe
    exact hsafe

theorem repeatedPath?_placed {seen ns : List SceneNode} (h : repeatedPath? seen ns = some e) :
    e.Placed text := by
  induction ns generalizing seen with
  | nil => cases h
  | cons n ns ih =>
    unfold repeatedPath? at h
    split at h
    · cases h
      trivial
    · exact ih h

/-- The faults of a tree have no line. -/
theorem ofBlocks_safe (root : Option String) (blocks : List NodeBlock) :
    Safe text (fun _ => True) (Descriptor.ofBlocks root blocks) := by
  unfold Descriptor.ofBlocks
  dsimp only
  split
  · trivial
  refine (chooseRoot_safe root blocks).bind ?_
  intro root _
  refine (mapM_safe fun b _ => placeNode_safe blocks root b).bind ?_
  intro nodes _
  split
  · next h => exact repeatedPath?_placed h
  · trivial

/-! ## Texts -/

namespace TokenStream

theorem remaining_of_first {s : TokenStream} {c : Cursor} (h : s.first = .ok c) :
    c.remaining ≤ s.size := by
  have hle := Cursor.remaining_advance_le (.start s)
  rw [first_eq_ok_iff.mp h] at hle
  exact hle

/-- The first token of a text. -/
theorem first_safe (text : String) :
    Safe text (fun c => c.Located text ∧ c.remaining ≤ text.length) (ofText text).first := by
  have htracks : (Cursor.start (ofText text)).Tracks text := ⟨0, rfl⟩
  rcases htracks.advance with ⟨c, ha, hc⟩ | ⟨e, rest, ha, he, -⟩
  · have hfirst := first_eq_ok_iff.mpr ha
    have hsize : (ofText text).size ≤ text.length :=
      String.length_toList (s := text) ▸ size_ofPosition_le _
    rw [hfirst]
    exact ⟨hc, Nat.le_trans (remaining_of_first hfirst) hsize⟩
  · rw [first, ha]
    exact he.placed

/-- The pass over the tokens ends with `r`, at the first token or after at most `most` turns. -/
def PassEnds {σ ρ : Type} (tokens : TokenStream) (turn : σ → ρ ⊕ σ) (start : Cursor → σ)
    (failed : SceneError → ρ) (most : Nat) (r : ρ) : Prop :=
  match tokens.first with
  | .ok c => ∃ n ≤ most, EndsAfter turn n (start c) r
  | .error e => r = failed e

end TokenStream

/-- **The first pass** ends, and all faults in it are placed. -/
theorem firstPass_ends (text : String) :
    ∃ missed, Cursor.AllPlaced text ((TokenStream.ofText text).firstPass, missed) ∧
      TokenStream.PassEnds (.ofText text) Cursor.gatherTurn (fun c => { cursor := c })
        (fun e => (.error e, [])) (text.length + 1)
          ((TokenStream.ofText text).firstPass, missed) := by
  have hsafe := TokenStream.first_safe text
  unfold TokenStream.PassEnds TokenStream.firstPass
  cases hfirst : (TokenStream.ofText text).first with
  | error e =>
    rw [hfirst] at hsafe
    exact ⟨[], ⟨hsafe, by simp⟩, rfl⟩
  | ok c =>
    rw [hfirst] at hsafe
    obtain ⟨hc, hle⟩ := hsafe
    obtain ⟨n, missed, hn, hends⟩ := Cursor.gather_endsAfter {} c
    refine ⟨missed, ?_, n, Nat.le_trans hn (Nat.succ_le_succ hle), hends⟩
    exact hends.keeps Cursor.gatherTurn_tidy ⟨hc.strays, by simp⟩

-- A fault that the first pass passes over: the definition behind it is found.
example : (TokenStream.ofText "@a = x -. @b = y").firstPass.map OrderedMap.keys = .ok ["b"] := by
  decide +kernel

/-- **The second pass** ends, and its fault is placed. -/
theorem blocks_ends {vars : Variables} (h : (TokenStream.ofText text).firstPass = .ok vars) :
    Safe text (fun _ => True) (TokenStream.ofText text).blocks ∧
      TokenStream.PassEnds (.ofText text) (fun s => orFail (Cursor.readTurn s))
        (fun c => { vars, cursor := c }) .error (text.length + 1)
          (TokenStream.ofText text).blocks := by
  have hsafe := TokenStream.first_safe text
  unfold TokenStream.PassEnds TokenStream.blocks
  rw [h, ok_bind]
  cases hfirst : (TokenStream.ofText text).first with
  | error e =>
    rw [hfirst] at hsafe
    exact ⟨hsafe, rfl⟩
  | ok c =>
    rw [hfirst] at hsafe
    obtain ⟨hc, hle⟩ := hsafe
    obtain ⟨n, hn, hends⟩ := Cursor.readBlocks_endsAfter vars c
    exact ⟨hc.readBlocks vars, n, Nat.le_trans hn (Nat.succ_le_succ hle), hends⟩

/-- **Faults are placed.** -/
theorem parse_placed (h : Descriptor.parse text = .error e) : e.Placed text := by
  have hblocks : Safe text (fun _ => True) (TokenStream.ofText text).blocks := by
    obtain ⟨missed, hplaced, -⟩ := firstPass_ends text
    cases hvars : (TokenStream.ofText text).firstPass with
    | ok vars => exact (blocks_ends hvars).1
    | error e =>
      rw [hvars] at hplaced
      rw [TokenStream.blocks, hvars]
      exact hplaced.1
  have hparse : Safe text (fun _ => True) (Descriptor.parse text) :=
    hblocks.bind fun r _ => ofBlocks_safe r.1 r.2
  rw [h] at hparse
  exact hparse

/-- **Reading a text ends, and its faults have the right lines.**  After any number of calls of the
lexer the line is one more than the ends of lines before the position, and a call that takes nothing
has found the end of the file, which one of the calls finds.  A call that fails has the line of the
literal at which it fails.  The loop over the numbers of a vector ends, and so do both passes over
the text, the first also behind the faults that it passes over.  These faults, and the one that
reading the text fails with, are about the literal or the token on whose line they say to be. -/
theorem reading_ends (text : String) :
    (∀ n, ∃ passed taken, text.toList = passed ++ (Position.after text n).rest ∧
      (Position.after text n).line = 1 + passed.count '\n' ∧
        (Position.after text n).rest = taken ++ (Position.after text (n + 1)).rest ∧
          (taken = [] → (nextToken (Position.after text n)).1 = .ok .endOfFile)) ∧
      (∃ n ≤ text.length, (nextToken (Position.after text n)).1 = .ok .endOfFile) ∧
      (∀ n, (∀ t, (nextToken (Position.after text n)).1 = .ok t →
          EndsOn text t (Position.after text (n + 1)).line) ∧
        ∀ e, (nextToken (Position.after text n)).1 = .error e → LiesOn text e) ∧
      (∀ xs c, ∃ n ≤ c.remaining + 1,
        EndsAfter Cursor.componentsTurn n (xs, c) (c.components xs)) ∧
      (∃ missed, (∀ e ∈ missed, e.Placed text) ∧
        TokenStream.PassEnds (.ofText text) Cursor.gatherTurn (fun c => { cursor := c })
          (fun e => (.error e, [])) (text.length + 1)
            ((TokenStream.ofText text).firstPass, missed)) ∧
      (∀ vars, (TokenStream.ofText text).firstPass = .ok vars →
        TokenStream.PassEnds (.ofText text) (fun s => orFail (Cursor.readTurn s))
          (fun c => { vars, cursor := c }) .error (text.length + 1)
            (TokenStream.ofText text).blocks) ∧
      ∀ e, Descriptor.parse text = .error e → e.Placed text := by
  refine ⟨?_, exists_endOfFile text, ?_, Cursor.components_endsAfter, ?_, ?_, ?_⟩
  · intro n
    obtain ⟨passed, htext, hline⟩ := after_line text n
    have hnext : nextToken (Position.after text n) =
        ((nextToken (Position.after text n)).1, Position.after text (n + 1)) := rfl
    obtain ⟨taken, htaken, hend⟩ := nextToken_takes hnext
    exact ⟨passed, taken, htext, hline, htaken, hend⟩
  · intro n
    constructor
    · intro t h
      exact nextToken_endsOn (Prod.ext h rfl)
    · intro e h
      exact nextToken_liesOn (Prod.ext h rfl)
  · obtain ⟨missed, hplaced, hends⟩ := firstPass_ends text
    exact ⟨missed, hplaced.2, hends⟩
  · intro vars h
    exact (blocks_ends h).2
  · intro e h
    exact parse_placed h

end NetSchema
