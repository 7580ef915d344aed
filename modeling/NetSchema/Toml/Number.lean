import NetSchema.Number.Int64
import NetSchema.Toml.Datetime

/-!
# TOML numbers

Integers of 64 bits in four bases, and floats.  Underscores may stand between digits.  A value that
starts with a digit or a sign is a date or a time if it starts like one, and a number otherwise.
-/

namespace NetSchema.Toml

/-- Digits with single underscores between them, as far as they reach; the underscores are left
out.  There is no result when an underscore is not followed by a digit. -/
def digitRun? (isDigit : Char → Bool) : List Char → Option (List Char × List Char)
  | [] => some ([], [])
  | '_' :: c :: s =>
    if isDigit c then (digitRun? isDigit s).map fun (ds, rest) => (c :: ds, rest) else none
  | '_' :: [] => none
  | c :: s =>
    if isDigit c then (digitRun? isDigit s).map fun (ds, rest) => (c :: ds, rest)
    else some ([], c :: s)

/-- One digit at least, and underscores only between digits. -/
def digits? (isDigit : Char → Bool) : List Char → Option (List Char × List Char)
  | [] => none
  | c :: s =>
    if isDigit c then (digitRun? isDigit s).map fun (ds, rest) => (c :: ds, rest) else none

/-- The digits before the point: a zero alone, or no zero first. -/
def wholeDigits? : List Char → Option (List Char × List Char)
  | '0' :: s => some (['0'], s)
  | s => digits? Char.isDigit s

/-- The fraction, where there is one. -/
def fractionDigits? : List Char → Option (Option (List Char) × List Char)
  | '.' :: s => (digits? Char.isDigit s).map fun (ds, rest) => (some ds, rest)
  | s => some (none, s)

def signAt : List Char → Bool × List Char
  | '+' :: s => (false, s)
  | '-' :: s => (true, s)
  | s => (false, s)

/-- The number that digits of `base` write. -/
def valueOf (base : Nat) (digits : List Char) : Nat :=
  digits.foldl (fun n c => n * base + (hexDigit? c).getD 0) 0

/-- The exponent, where there is one. -/
def exponentDigits? : List Char → Option (Option Int × List Char)
  | [] => some (none, [])
  | c :: s =>
    if c = 'e' || c = 'E' then
      (digits? Char.isDigit (signAt s).2).map fun (ds, rest) =>
        let n := valueOf 10 ds
        (some (if (signAt s).1 then -(n : Int) else n), rest)
    else some (none, c :: s)

/-- An integer of 64 bits. -/
def integer? (negative : Bool) (n : Nat) : Option Toml :=
  let i : Int := if negative then -(n : Int) else n
  (int64? i).map .integer

/-- The float that digits and an exponent write.  Only a negative one may be infinite. -/
def float? (negative : Bool) (digits : List Char) (exponent : Int) : Option Toml :=
  let x := binary64.ofDecimal negative (valueOf 10 digits) exponent
  if x = .infinite false then none else some (.float x)

/-- A number in decimal, after its sign. -/
def decimal? (negative : Bool) (s : List Char) : Option (Toml × List Char) := do
  let (whole, s) ← wholeDigits? s
  let (fraction, s) ← fractionDigits? s
  let (exponent, s) ← exponentDigits? s
  if fraction.isNone && exponent.isNone then
    return (← integer? negative (valueOf 10 whole), s)
  else
    let fraction := fraction.getD []
    return (← float? negative (whole ++ fraction) (exponent.getD 0 - fraction.length), s)

/-- A number in another base, after its prefix. -/
def prefixed? (base : Nat) (isDigit : Char → Bool) (s : List Char) : Option (Toml × List Char) := do
  let (ds, s) ← digits? isDigit s
  return (← integer? false (valueOf base ds), s)

/-- What is not a finite number, after its sign. -/
def special? (negative : Bool) : List Char → Option (Toml × List Char)
  | 'i' :: 'n' :: 'f' :: s => some (.float (.infinite negative), s)
  | 'n' :: 'a' :: 'n' :: s => some (.notANumber, s)
  | _ => none

/-- The number at the start of `s`. -/
def numberAt? (s : List Char) : Option (Toml × List Char) :=
  match s with
  | '0' :: 'x' :: s => prefixed? 16 (fun c => (hexDigit? c).isSome) s
  | '0' :: 'o' :: s => prefixed? 8 (fun c => '0' ≤ c && c ≤ '7') s
  | '0' :: 'b' :: s => prefixed? 2 (fun c => c == '0' || c == '1') s
  | s => (special? (signAt s).1 (signAt s).2).or (decimal? (signAt s).1 (signAt s).2)

theorem digitRun_length {isDigit : Char → Bool} {s ds rest : List Char}
    (h : digitRun? isDigit s = some (ds, rest)) : rest.length ≤ s.length := by
  fun_induction digitRun? isDigit s generalizing ds rest with
  | case1 => simp at h; simp [h]
  | case2 =>
    rename_i ih
    have := length_of_map_cons h fun hr => Nat.lt_succ_of_le (ih hr)
    simp; omega
  | case3 => simp at h
  | case4 => simp at h
  | case5 =>
    rename_i ih
    have := length_of_map_cons h fun hr => Nat.lt_succ_of_le (ih hr)
    simp; omega
  | case6 => simp at h; simp [← h.2]

theorem digits_length {isDigit : Char → Bool} {s ds rest : List Char}
    (h : digits? isDigit s = some (ds, rest)) : rest.length < s.length := by
  unfold digits? at h
  split at h
  · simp at h
  · split at h
    · have := length_of_map_cons h fun hr => Nat.lt_succ_of_le (digitRun_length hr)
      simpa using this
    · simp at h

theorem wholeDigits_length {s ds rest : List Char} (h : wholeDigits? s = some (ds, rest)) :
    rest.length < s.length := by
  unfold wholeDigits? at h
  split at h
  · simp at h; simp [← h.2]
  · exact digits_length h

theorem fractionDigits_length {s rest : List Char} {ds : Option (List Char)}
    (h : fractionDigits? s = some (ds, rest)) : rest.length ≤ s.length := by
  unfold fractionDigits? at h
  split at h
  · obtain ⟨⟨_, _⟩, hd, he⟩ := Option.map_eq_some_iff.1 h
    have := digits_length hd
    simp at he
    simp [← he.2]; omega
  · simp at h; simp [h.2]

theorem signAt_length (s : List Char) : (signAt s).2.length ≤ s.length := by
  unfold signAt
  split <;> simp

theorem exponentDigits_length {s rest : List Char} {e : Option Int}
    (h : exponentDigits? s = some (e, rest)) : rest.length ≤ s.length := by
  unfold exponentDigits? at h
  split at h
  · simp at h; simp [h]
  · next c s =>
    split at h
    · obtain ⟨⟨_, _⟩, hd, he⟩ := Option.map_eq_some_iff.1 h
      have := digits_length hd
      have := signAt_length s
      simp at he
      simp [← he.2]; omega
    · simp at h; simp [← h.2]

theorem decimal_length {negative : Bool} {s rest : List Char} {v : Toml}
    (h : decimal? negative s = some (v, rest)) : rest.length < s.length := by
  simp only [decimal?, Option.bind_eq_bind, Option.bind_eq_some_iff, Prod.exists] at h
  obtain ⟨_, _, hw, _, _, hf, _, _, he, h⟩ := h
  have := wholeDigits_length hw
  have := fractionDigits_length hf
  have := exponentDigits_length he
  split at h
  · simp only [Option.bind_eq_some_iff, Option.pure_def, Option.some.injEq, Prod.mk.injEq] at h
    obtain ⟨_, _, _, rfl⟩ := h
    omega
  · simp only [Option.bind_eq_some_iff, Option.pure_def, Option.some.injEq, Prod.mk.injEq] at h
    obtain ⟨_, _, _, rfl⟩ := h
    omega

theorem prefixed_length {base : Nat} {isDigit : Char → Bool} {s rest : List Char} {v : Toml}
    (h : prefixed? base isDigit s = some (v, rest)) : rest.length < s.length := by
  simp only [prefixed?, Option.bind_eq_bind, Option.bind_eq_some_iff, Prod.exists, Option.pure_def,
    Option.some.injEq, Prod.mk.injEq] at h
  obtain ⟨_, _, hd, _, _, _, rfl⟩ := h
  exact digits_length hd

theorem special_length {negative : Bool} {s rest : List Char} {v : Toml}
    (h : special? negative s = some (v, rest)) : rest.length < s.length := by
  unfold special? at h
  split at h <;> simp at h <;> simp [← h.2] <;> omega

theorem numberAt_length {s rest : List Char} {v : Toml} (h : numberAt? s = some (v, rest)) :
    rest.length < s.length := by
  unfold numberAt? at h
  split at h
  · have := prefixed_length h
    simp; omega
  · have := prefixed_length h
    simp; omega
  · have := prefixed_length h
    simp; omega
  · have := signAt_length s
    simp only [Option.or_eq_some_iff] at h
    rcases h with h | ⟨_, h⟩
    · have := special_length h
      omega
    · have := decimal_length h
      omega

/-- The date, time or number at the start of `s`. -/
def scalarAt (s : List Char) : Except TomlError (Toml × List Char) :=
  if startsDatetime s then
    match afterDatetime? s with
    | some rest =>
      .ok (.datetime (String.ofList (s.take (s.length - rest.length))), rest)
    | none => .error .badDate
  else
    match numberAt? s with
    | some found => .ok found
    | none => .error .badNumber

theorem scalarAt_length {s rest : List Char} {v : Toml} (h : scalarAt s = .ok (v, rest)) :
    rest.length < s.length := by
  unfold scalarAt at h
  split at h
  · split at h
    · next hd =>
      have := afterDatetime_length hd
      simp at h
      exact h.2 ▸ this
    · simp at h
  · split at h
    · next hn =>
      simp at h
      subst h
      exact numberAt_length hn
    · simp at h

end NetSchema.Toml
