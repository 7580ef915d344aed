import NetSchema.Proofs.Scene.Reading
import NetSchema.Proofs.Scene.Turns

/-!
# The second pass as a loop

The recursive readers of nodes and typed blocks are taken apart into the turns of a single loop.
Its state has the blocks that are still open, the innermost first.  No turn changes what the readers
return from the state, so the loop ends with the same node blocks, or with the same fault.

* `readTurn`: one turn;
* `outcome`: what the recursive readers return from a state;
* `readTurn_outcome`: no turn changes it;
* `readBlocks_endsAfter`: the loop ends with it.
-/

namespace NetSchema

/-- A typed block whose end has not been read. -/
structure OpenBlock where
  type : String
  fields : SceneFields := {}
  base : Option TypedBlock := none

def OpenBlock.closed (o : OpenBlock) : TypedBlock := .ofBase o.type o.fields o.base

/-- Where the second pass is: between the nodes of a file, in the fields of a node, or in a typed
block of it, which stands in the blocks of `outer`. -/
inductive Spot where
  | file
  | fields (b : NodeBlock)
  | body (b : NodeBlock) (o : OpenBlock) (outer : List OpenBlock)

/-- What the second pass has read, and where it is. -/
structure Reading where
  vars : Variables
  root : Option String := none
  blocks : List NodeBlock := []
  spot : Spot := .file
  cursor : Cursor

/-- The root key and the node blocks. -/
abbrev Blocks := Option String × List NodeBlock

namespace Token

theorem slash_ne : slash ≠ endOfFile := by simp

theorem leftBracket_ne : leftBracket ≠ endOfFile := by simp

theorem rightBracket_ne : rightBracket ≠ endOfFile := by simp

end Token

namespace Cursor

/-! ## Turns -/

/-- What is ahead of a cursor that is ahead of `c`. -/
def Ahead.trans {c : Cursor} (d : Ahead c) (d' : Ahead d.1) : Ahead c :=
  ⟨d'.1, Nat.lt_trans d'.2 d.2⟩

/-- The name of a block that is opened, after its bracket. -/
def readOpen (c : Cursor) : Except SceneError (String × Ahead c) := do
  let (name, d) ← c.readName
  let d' ← d.1.readToken .rightBracket Token.rightBracket_ne
  return (name, d.trans d')

/-- The turn that ends the node `b`, from the slash at `c` on. -/
def endTurn (s : Reading) (b : NodeBlock) (c : Cursor) : Except SceneError (Blocks ⊕ Reading) := do
  let d ← c.readToken .slash Token.slash_ne
  let d' ← d.1.readClose b.key
  return .inr { s with blocks := s.blocks ++ [b], spot := .file, cursor := d'.1 }

/-- A definition, or the beginning of a node. -/
def fileTurn (s : Reading) : Except SceneError (Blocks ⊕ Reading) :=
  match hc : s.cursor.current with
  | .endOfFile => return .inl (s.root, s.blocks)
  | .at => do
    let d ← s.cursor.step (by simp [hc])
    let (vars, root, d') ← d.1.readDefinition s.vars s.root
    return .inr { s with vars, root, cursor := d'.1 }
  | .leftBracket => do
    let d ← s.cursor.step (by simp [hc])
    let (key, d') ← d.1.readOpen
    return .inr { s with spot := .fields { key }, cursor := d'.1 }
  | _ => .error (s.cursor.unexpected "`@variable` or `[node]`")

/-- A field of the node `b`, the beginning of its typed block, or its end. -/
def fieldsTurn (s : Reading) (b : NodeBlock) : Except SceneError (Blocks ⊕ Reading) :=
  match s.cursor.current with
  | .ident _ => do
    let (name, _, v, d) ← s.cursor.readField s.vars
    let b ← setField s.cursor.line name v b
    return .inr { s with spot := .fields b, cursor := d.1 }
  | _ => do
    let d ← s.cursor.readToken .leftBracket Token.leftBracket_ne
    if d.1.current = .slash then endTurn s { b with data := none } d.1
    else do
      let (type, d') ← d.1.readOpen
      return .inr { s with spot := .body b { type } [], cursor := d'.1 }

/-- The turn that ends the typed block `o` at `c`. -/
def closeTurn (s : Reading) (b : NodeBlock) (o : OpenBlock) (outer : List OpenBlock) (c : Cursor) :
    Except SceneError (Blocks ⊕ Reading) :=
  match outer with
  | [] => do
    let d ← c.readToken .leftBracket Token.leftBracket_ne
    endTurn s { b with data := some o.closed } d.1
  | p :: outer =>
    return .inr { s with spot := .body b { p with base := some o.closed } outer, cursor := c }

/-- A field of the typed block `o`, its end, or the beginning of a block in it. -/
def bodyTurn (s : Reading) (b : NodeBlock) (o : OpenBlock) (outer : List OpenBlock) :
    Except SceneError (Blocks ⊕ Reading) :=
  match hc : s.cursor.current with
  | .leftBracket => do
    let d ← s.cursor.step (by simp [hc])
    if hs : d.1.current = .slash then
      let d' ← d.1.step (by simp [hs])
      let d'' ← d'.1.readClose o.type
      closeTurn s b o outer d''.1
    else
      let (type, d') ← d.1.readOpen
      return .inr { s with spot := .body b { type } (o :: outer), cursor := d'.1 }
  | .ident _ => do
    let (name, _, v, d) ← s.cursor.readField s.vars
    let o := { o with fields := o.fields.insert name v }
    return .inr { s with spot := .body b o outer, cursor := d.1 }
  | _ => .error (s.cursor.unexpected ("field or `[/" ++ o.type ++ "]`"))

/-- One turn of the innermost loop. -/
def readTurn (s : Reading) : Except SceneError (Blocks ⊕ Reading) :=
  match s.spot with
  | .file => fileTurn s
  | .fields b => fieldsTurn s b
  | .body b o outer => bodyTurn s b o outer

/-! ## What the readers return from a state -/

/-- The rest of the typed block `o`. -/
def restOfBlock (vars : Variables) (o : OpenBlock) (c : Cursor) :
    Except SceneError (TypedBlock × Cursor) := do
  let (block, d) ← c.typedBody vars o.type o.fields o.base
  return (block, d.1)

/-- The rest of the blocks around `block`, and the outermost of them. -/
def restOfOuter (vars : Variables) : List OpenBlock → TypedBlock × Cursor →
    Except SceneError (TypedBlock × Cursor)
  | [], (block, c) => return (block, c)
  | p :: outer, (block, c) =>
    restOfBlock vars { p with base := some block } c >>= restOfOuter vars outer

/-- The rest of a file from the slash on that ends the node `b`. -/
def restOfNode (s : Reading) (b : NodeBlock) (c : Cursor) : Except SceneError Blocks := do
  let d ← c.readToken .slash Token.slash_ne
  let d' ← d.1.readClose b.key
  let (root, bs) ← d'.1.readBlocks s.vars s.root
  return (root, s.blocks ++ b :: bs)

/-- The rest of a file behind the typed block `block` of the node `b`. -/
def restBehind (s : Reading) (b : NodeBlock) : TypedBlock × Cursor → Except SceneError Blocks
  | (block, c) => do
    let d ← c.readToken .leftBracket Token.leftBracket_ne
    restOfNode s { b with data := some block } d.1

/-- What the second pass returns. -/
def outcome (s : Reading) : Except SceneError Blocks :=
  match s.spot with
  | .file => do
    let (root, bs) ← s.cursor.readBlocks s.vars s.root
    return (root, s.blocks ++ bs)
  | .fields b => do
    let (b, c) ← s.cursor.nodeFields s.vars b
    let d ← c.1.readToken .leftBracket Token.leftBracket_ne
    let (data, d') ← d.1.nodeData s.vars
    restOfNode s { b with data } d'.1
  | .body b o outer =>
    restOfBlock s.vars o s.cursor >>= restOfOuter s.vars outer >>= restBehind s b

section

variable {c : Cursor} {vars : Variables} {root : Option String} {o : OpenBlock}

theorem readBlocks_at (hc : c.current = .at) :
    c.readBlocks vars root = (do
      let d ← c.step (by simp [hc])
      let (vars, root, d') ← d.1.readDefinition vars root
      d'.1.readBlocks vars root) := by
  rw [readBlocks]
  split
  · next h => cases hc.symm.trans h
  · rfl
  · next h => cases hc.symm.trans h
  · next h _ => exact absurd hc h

theorem readBlocks_leftBracket (hc : c.current = .leftBracket) :
    c.readBlocks vars root = (do
      let d ← c.step (by simp [hc])
      let (b, d') ← d.1.nodeBlock vars
      let (root, bs) ← d'.1.readBlocks vars root
      return (root, b :: bs)) := by
  rw [readBlocks]
  split
  · next h => cases hc.symm.trans h
  · next h => cases hc.symm.trans h
  · rfl
  · next h => exact absurd hc h

theorem readBlocks_other (hend : c.current ≠ .endOfFile) (hat : c.current ≠ .at)
    (hopen : c.current ≠ .leftBracket) :
    c.readBlocks vars root = .error (c.unexpected "`@variable` or `[node]`") := by
  rw [readBlocks]
  split
  · next h => exact absurd h hend
  · next h => exact absurd h hat
  · next h => exact absurd h hopen
  · rfl

theorem nodeFields_bind {β : Type} {name : String} {b : NodeBlock} (hc : c.current = .ident name)
    (next : NodeBlock × Cursor → Except SceneError β) :
    (c.nodeFields vars b >>= fun r => next (r.1, r.2.1)) =
      c.readField vars >>= fun r => setField c.line r.1 r.2.2.1 b >>= fun b' =>
        r.2.2.2.1.nodeFields vars b' >>= fun r => next (r.1, r.2.1) := by
  rw [nodeFields, hc]
  simp only [bind_assoc, pure_bind]

theorem nodeFields_other {b : NodeBlock} (hname : ∀ name, c.current ≠ .ident name) :
    c.nodeFields vars b = .ok (b, ⟨c, Nat.le_refl _⟩) := by
  rw [nodeFields]
  split
  · next h => exact absurd h (hname _)
  · rfl

/-- A typed block is what is behind its opening. -/
theorem typedBlock_bind {β : Type} (next : TypedBlock × Cursor → Except SceneError β) :
    (c.typedBlock vars >>= fun r => next (r.1, r.2.1)) =
      (c.readOpen >>= fun r => restOfBlock vars { type := r.1 } r.2.1) >>= next := by
  unfold typedBlock readOpen restOfBlock
  simp only [bind_assoc, pure_bind]
  rfl

theorem nodeData_bind {β : Type} (next : Option TypedBlock × Cursor → Except SceneError β) :
    (c.nodeData vars >>= fun r => next (r.1, r.2.1)) =
      if c.current = .slash then next (none, c)
      else (c.readOpen >>= fun r => restOfBlock vars { type := r.1 } r.2.1) >>= fun r =>
        r.2.readToken .leftBracket Token.leftBracket_ne >>= fun d => next (some r.1, d.1) := by
  unfold nodeData
  split
  · rfl
  · rw [← typedBlock_bind]
    simp only [bind_assoc, pure_bind]

theorem restOfBlock_leftBracket (hc : c.current = .leftBracket) :
    restOfBlock vars o c = (do
      let d ← c.step (by simp [hc])
      if hs : d.1.current = .slash then
        let d' ← d.1.step (by simp [hs])
        let d'' ← d'.1.readClose o.type
        return (o.closed, d''.1)
      else
        (d.1.readOpen >>= fun r => restOfBlock vars { type := r.1 } r.2.1) >>=
          fun r => restOfBlock vars { o with base := some r.1 } r.2) := by
  conv_lhs => rw [restOfBlock, typedBody]
  split
  · rw [bind_assoc]
    refine bind_congr ?_
    rintro ⟨d, hd⟩
    dsimp only
    split
    · simp only [bind_assoc, pure_bind]
      rfl
    · rw [← typedBlock_bind, bind_assoc]
      refine bind_congr ?_
      rintro ⟨nested, d', hd'⟩
      simp only [bind_assoc, pure_bind, restOfBlock]
  · next h => cases hc.symm.trans h
  · next h _ => exact absurd hc h

theorem restOfBlock_ident {name : String} (hc : c.current = .ident name) :
    restOfBlock vars o c = (do
      let (name, _, v, d) ← c.readField vars
      restOfBlock vars { o with fields := o.fields.insert name v } d.1) := by
  conv_lhs => rw [restOfBlock, typedBody]
  split
  · next h => cases hc.symm.trans h
  · simp only [bind_assoc, pure_bind, restOfBlock]
  · next h => exact absurd hc (h name)

theorem restOfBlock_other (hopen : c.current ≠ .leftBracket)
    (hname : ∀ name, c.current ≠ .ident name) :
    restOfBlock vars o c = .error (c.unexpected ("field or `[/" ++ o.type ++ "]`")) := by
  conv_lhs => rw [restOfBlock, typedBody]
  split
  · next h => exact absurd h hopen
  · next h => exact absurd h (hname _)
  · rfl

end

/-! ## Turns keep the outcome -/

section

variable {s : Reading} {b : NodeBlock} {o : OpenBlock} {outer : List OpenBlock} {c : Cursor}

theorem nodeFields_key {vars : Variables} {b' : NodeBlock}
    {a : { d : Cursor // d.remaining ≤ c.remaining }} (h : c.nodeFields vars b = .ok (b', a)) :
    b'.key = b.key := by
  obtain ⟨fs, es, -, -, -, rfl⟩ := passes_of_nodeFields h
  clear h
  induction es generalizing b with
  | nil => rfl
  | cons e es ih => exact ih

theorem endTurn_outcome :
    endTurn s b c >>= Sum.elim .ok outcome = restOfNode s b c := by
  unfold endTurn restOfNode
  rw [bind_assoc]
  refine bind_congr fun d => ?_
  rw [bind_assoc]
  refine bind_congr fun d' => ?_
  simp only [pure_bind, Sum.elim_inr, outcome, List.append_assoc, List.singleton_append]

theorem fileTurn_outcome (hs : s.spot = .file) :
    fileTurn s >>= Sum.elim .ok outcome = outcome s := by
  rw [outcome, hs]
  unfold fileTurn
  dsimp only
  split
  · next hc =>
    rw [readBlocks_of_end hc]
    simp only [pure_bind, Sum.elim_inl, ok_bind, List.append_nil]
    rfl
  · next hc =>
    rw [readBlocks_at hc]
    simp only [bind_assoc]
    refine bind_congr fun d => ?_
    refine bind_congr fun r => ?_
    simp only [pure_bind, Sum.elim_inr, outcome, hs]
  · next hc =>
    rw [readBlocks_leftBracket hc]
    simp only [bind_assoc, nodeBlock, readOpen]
    refine bind_congr fun d => ?_
    refine bind_congr fun r => ?_
    refine bind_congr fun d₂ => ?_
    simp only [pure_bind, Sum.elim_inr, outcome, restOfNode]
    refine bind_congr_ok fun r₃ hfields => ?_
    rw [nodeFields_key hfields]
  · next hend hat hopen =>
    rw [readBlocks_other hend hat hopen]
    rfl

theorem fieldsTurn_outcome (hs : s.spot = .fields b) :
    fieldsTurn s b >>= Sum.elim .ok outcome = outcome s := by
  rw [outcome, hs]
  unfold fieldsTurn
  dsimp only
  split
  · next hc =>
    rw [nodeFields_bind hc fun r => r.2.readToken .leftBracket Token.leftBracket_ne >>= fun d =>
      d.1.nodeData s.vars >>= fun data => restOfNode s { r.1 with data := data.1 } data.2.1]
    simp only [bind_assoc]
    refine bind_congr fun r => ?_
    refine bind_congr fun b' => ?_
    simp only [pure_bind, Sum.elim_inr, outcome]
    rfl
  · next hname =>
    rw [nodeFields_other hname, ok_bind, bind_assoc]
    refine bind_congr fun d => ?_
    dsimp only
    rw [nodeData_bind fun r => restOfNode s { b with data := r.1 } r.2]
    split
    · exact endTurn_outcome
    · simp only [bind_assoc, pure_bind, Sum.elim_inr, outcome, restOfOuter]
      rfl

theorem closeTurn_outcome :
    closeTurn s b o outer c >>= Sum.elim .ok outcome =
      restOfOuter s.vars outer (o.closed, c) >>= restBehind s b := by
  cases outer with
  | nil =>
    rw [closeTurn, restOfOuter, pure_bind, restBehind, bind_assoc]
    refine bind_congr fun d => ?_
    exact endTurn_outcome
  | cons p outer => 
    rw [closeTurn, restOfOuter, pure_bind, Sum.elim_inr, outcome]
    rfl

theorem bodyTurn_outcome (hs : s.spot = .body b o outer) :
    bodyTurn s b o outer >>= Sum.elim .ok outcome = outcome s := by
  rw [outcome, hs]
  unfold bodyTurn
  dsimp only
  split
  · next hc =>
    rw [restOfBlock_leftBracket hc]
    simp only [bind_assoc]
    refine bind_congr fun d => ?_
    split
    · next hslash =>
      simp only [bind_assoc, pure_bind]
      refine bind_congr fun d' => ?_
      refine bind_congr fun d'' => ?_
      rw [closeTurn_outcome]
    · simp only [bind_assoc, pure_bind, Sum.elim_inr, outcome, restOfOuter]
      rfl
  · next hc =>
    rw [restOfBlock_ident hc]
    simp only [bind_assoc]
    refine bind_congr fun r => ?_
    simp only [pure_bind, Sum.elim_inr, outcome, bind_assoc]
    rfl
  · next hopen hname =>
    rw [restOfBlock_other hopen hname]
    rfl

/-- **Turns keep the outcome.** -/
theorem readTurn_outcome (s : Reading) : readTurn s >>= Sum.elim .ok outcome = outcome s := by
  unfold readTurn
  split
  · next hs => exact fileTurn_outcome hs
  · next hs => exact fieldsTurn_outcome hs
  · next hs => exact bodyTurn_outcome hs

/-! ## Turns use up tokens -/

theorem remaining_endTurn {s' : Reading} (h : endTurn s b c = .ok (.inr s')) :
    s'.cursor.remaining < c.remaining := by
  obtain ⟨⟨d, hd⟩, -, h⟩ := bind_eq_ok_iff.mp h
  obtain ⟨⟨d', hd'⟩, -, h⟩ := bind_eq_ok_iff.mp h
  cases h
  exact Nat.lt_trans hd' hd

theorem remaining_fileTurn {s' : Reading} (h : fileTurn s = .ok (.inr s')) :
    s'.cursor.remaining < s.cursor.remaining := by
  unfold fileTurn at h
  split at h
  · cases h
  · obtain ⟨⟨d, hd⟩, -, h⟩ := bind_eq_ok_iff.mp h
    obtain ⟨⟨vars, root, d', hd'⟩, -, h⟩ := bind_eq_ok_iff.mp h
    cases h
    exact Nat.lt_trans hd' hd
  · obtain ⟨⟨d, hd⟩, -, h⟩ := bind_eq_ok_iff.mp h
    obtain ⟨⟨key, d', hd'⟩, -, h⟩ := bind_eq_ok_iff.mp h
    cases h
    exact Nat.lt_trans hd' hd
  · cases h

theorem remaining_fieldsTurn {s' : Reading} (h : fieldsTurn s b = .ok (.inr s')) :
    s'.cursor.remaining < s.cursor.remaining := by
  unfold fieldsTurn at h
  split at h
  · obtain ⟨⟨name, line, v, d, hd⟩, -, h⟩ := bind_eq_ok_iff.mp h
    obtain ⟨b', -, h⟩ := bind_eq_ok_iff.mp h
    cases h
    exact hd
  · obtain ⟨⟨d, hd⟩, -, h⟩ := bind_eq_ok_iff.mp h
    split at h
    · exact Nat.lt_trans (remaining_endTurn h) hd
    · obtain ⟨⟨type, d', hd'⟩, -, h⟩ := bind_eq_ok_iff.mp h
      cases h
      exact Nat.lt_trans hd' hd

theorem remaining_closeTurn_le {s' : Reading} (h : closeTurn s b o outer c = .ok (.inr s')) :
    s'.cursor.remaining ≤ c.remaining := by
  unfold closeTurn at h
  split at h
  · obtain ⟨⟨d, hd⟩, -, h⟩ := bind_eq_ok_iff.mp h
    exact Nat.le_of_lt (Nat.lt_trans (remaining_endTurn h) hd)
  · cases h
    exact Nat.le_refl _

theorem remaining_bodyTurn {s' : Reading} (h : bodyTurn s b o outer = .ok (.inr s')) :
    s'.cursor.remaining < s.cursor.remaining := by
  unfold bodyTurn at h
  split at h
  · obtain ⟨⟨d, hd⟩, -, h⟩ := bind_eq_ok_iff.mp h
    split at h
    · obtain ⟨⟨d', hd'⟩, -, h⟩ := bind_eq_ok_iff.mp h
      obtain ⟨⟨d'', hd''⟩, -, h⟩ := bind_eq_ok_iff.mp h
      have hle : s'.cursor.remaining ≤ d''.remaining := remaining_closeTurn_le h
      exact Nat.lt_of_le_of_lt hle (Nat.lt_trans hd'' (Nat.lt_trans hd' hd))
    · obtain ⟨⟨type, d', hd'⟩, -, h⟩ := bind_eq_ok_iff.mp h
      cases h
      exact Nat.lt_trans hd' hd
  · obtain ⟨⟨name, line, v, d, hd⟩, -, h⟩ := bind_eq_ok_iff.mp h
    cases h
    exact hd
  · cases h

theorem remaining_readTurn (s s' : Reading) (h : orFail (readTurn s) = .inr s') :
    s'.cursor.remaining < s.cursor.remaining := by
  have hturn : readTurn s = .ok (.inr s') := orFail_eq_inr_iff.mp h
  unfold readTurn at hturn
  split at hturn
  · exact remaining_fileTurn hturn
  · exact remaining_fieldsTurn hturn
  · exact remaining_bodyTurn hturn

/-- **The second pass** ends, and with what the recursive readers return. -/
theorem readBlocks_endsAfter (vars : Variables) (c : Cursor) :
    ∃ n ≤ c.remaining + 1, EndsAfter (fun s => orFail (readTurn s)) n { vars, cursor := c }
      (c.readBlocks vars none) := by
  obtain ⟨n, r, hn, hends⟩ :=
    exists_endsAfter (fun s : Reading => s.cursor.remaining) remaining_readTurn
      { vars, cursor := c }
  have hturn : ∀ s, outcome s = (orFail (readTurn s)).elim id outcome := by
    intro s
    rw [elim_orFail, readTurn_outcome]
  have hr : outcome { vars, cursor := c } = r := hends.answer hturn
  have hfile : outcome { vars, cursor := c } = c.readBlocks vars none := bind_pure _
  exact ⟨n, hn, hfile ▸ hr ▸ hends⟩

end

end Cursor

end NetSchema
