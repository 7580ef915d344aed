import NetSchema.Toml.Text

/-!
# TOML dates and times

A date, a time, or a date and a time with an optional offset.  Once a text starts like one of them
it has to be a whole one, with a month, a day, an hour, a minute and a second that exist.
-/

namespace NetSchema.Toml

open Text (length_dropWhile)

/-- The number that the first `count` characters write in decimal. -/
def fixedDigits? (count : Nat) (s : List Char) : Option (Nat × List Char) :=
  let digits := s.take count
  if digits.length = count ∧ digits.all Char.isDigit then
    some (digits.foldl (fun n c => n * 10 + (c.toNat - '0'.toNat)) 0, s.drop count)
  else none

/-- Two digits between `low` and `high`. -/
def twoDigits? (low high : Nat) (s : List Char) : Option (Nat × List Char) :=
  (fixedDigits? 2 s).filter fun (n, _) => low ≤ n && n ≤ high

def exactly? (c : Char) : List Char → Option (List Char)
  | [] => none
  | d :: s => if d = c then some s else none

def isLeapYear (year : Nat) : Bool := year % 4 == 0 && (year % 100 != 0 || year % 400 == 0)

def daysInMonth (year month : Nat) : Nat :=
  if month = 2 then if isLeapYear year then 29 else 28
  else if month ∈ [4, 6, 9, 11] then 30
  else 31

/-- Month and day after a year. -/
def monthAndDay? (year : Nat) (s : List Char) : Option (List Char) := do
  let (month, s) ← twoDigits? 1 12 s
  let s ← exactly? '-' s
  let (_, s) ← twoDigits? 1 (daysInMonth year month) s
  return s

/-- The fraction of a second, where there is one. -/
def afterFraction (s : List Char) : List Char :=
  match s with
  | '.' :: c :: rest => if c.isDigit then rest.dropWhile Char.isDigit else s
  | _ => s

/-- Minutes and seconds after an hour.  The second may be a leap second. -/
def minutesAndSeconds? (s : List Char) : Option (List Char) := do
  let (_, s) ← twoDigits? 0 59 s
  let s ← exactly? ':' s
  let (_, s) ← twoDigits? 0 60 s
  return afterFraction s

/-- The offset of a time, where there is one; `none` for an offset that is cut short. -/
def afterOffset? (s : List Char) : Option (List Char) :=
  match s with
  | [] => some []
  | c :: rest =>
    if c = 'Z' || c = 'z' then some rest
    else if c = '+' || c = '-' then do
      let (_, s) ← twoDigits? 0 23 rest
      let s ← exactly? ':' s
      let (_, s) ← twoDigits? 0 59 s
      return s
    else some s

/-- The hour of a time and the colon behind it. -/
def hour? (s : List Char) : Option (List Char) :=
  twoDigits? 0 23 s >>= fun (_, s) => exactly? ':' s

/-- The time after a date, where there is one; `none` for a time that is cut short. -/
def afterTime? (s : List Char) : Option (List Char) :=
  match s with
  | [] => some []
  | c :: rest =>
    if c = 'T' || c = 't' || c = ' ' then
      match hour? rest with
      | some rest => minutesAndSeconds? rest >>= afterOffset?
      | none => some s
    else some s

/-- The year of a date and the hyphen behind it. -/
def year? (s : List Char) : Option (Nat × List Char) :=
  fixedDigits? 4 s >>= fun (year, s) => (exactly? '-' s).map fun s => (year, s)

/-- Whether `s` starts like a date or a time. -/
def startsDatetime (s : List Char) : Bool := (year? s).isSome || (hour? s).isSome

/-- What follows the date or time at the start of `s`. -/
def afterDatetime? (s : List Char) : Option (List Char) :=
  match year? s with
  | some (year, rest) => monthAndDay? year rest >>= afterTime?
  | none => hour? s >>= minutesAndSeconds?

theorem fixedDigits_length {count n : Nat} {s rest : List Char}
    (h : fixedDigits? count s = some (n, rest)) : rest.length + count = s.length := by
  unfold fixedDigits? at h
  simp only [List.length_take] at h
  split at h
  · next hc => simp at h; rw [← h.2, List.length_drop]; omega
  · simp at h

theorem twoDigits_length {low high n : Nat} {s rest : List Char}
    (h : twoDigits? low high s = some (n, rest)) : rest.length < s.length := by
  have := fixedDigits_length (Option.filter_eq_some_iff.1 h).1
  omega

theorem exactly_length {c : Char} {s rest : List Char} (h : exactly? c s = some rest) :
    rest.length < s.length := by
  unfold exactly? at h
  split at h
  · simp at h
  · split at h <;> simp at h
    simp [h]

theorem monthAndDay_length {year : Nat} {s rest : List Char} (h : monthAndDay? year s = some rest) :
    rest.length < s.length := by
  simp only [monthAndDay?, Option.bind_eq_bind, Option.bind_eq_some_iff, Prod.exists,
    Option.pure_def, Option.some.injEq] at h
  obtain ⟨_, _, hm, _, hc, _, _, hd, rfl⟩ := h
  have := twoDigits_length hm
  have := exactly_length hc
  have := twoDigits_length hd
  omega

theorem afterFraction_length (s : List Char) : (afterFraction s).length ≤ s.length := by
  unfold afterFraction
  split
  · next c rest =>
    split
    · have := length_dropWhile Char.isDigit rest
      simp; omega
    · exact Nat.le_refl _
  · exact Nat.le_refl _

theorem minutesAndSeconds_length {s rest : List Char} (h : minutesAndSeconds? s = some rest) :
    rest.length < s.length := by
  simp only [minutesAndSeconds?, Option.bind_eq_bind, Option.bind_eq_some_iff, Prod.exists,
    Option.pure_def, Option.some.injEq] at h
  obtain ⟨_, _, hm, _, hc, _, r, hs, rfl⟩ := h
  have := twoDigits_length hm
  have := exactly_length hc
  have := twoDigits_length hs
  have := afterFraction_length r
  omega

theorem afterOffset_length {s rest : List Char} (h : afterOffset? s = some rest) :
    rest.length ≤ s.length := by
  unfold afterOffset? at h
  split at h
  · simp at h; simp [h]
  · split at h
    · simp at h; simp [← h]
    · split at h
      · simp only [Option.bind_eq_bind, Option.bind_eq_some_iff, Prod.exists, Option.pure_def,
          Option.some.injEq] at h
        obtain ⟨_, _, hh, _, hc, _, _, hm, rfl⟩ := h
        have := twoDigits_length hh
        have := exactly_length hc
        have := twoDigits_length hm
        simp; omega
      · simp at h; simp [← h]

theorem hour_length {s rest : List Char} (h : hour? s = some rest) : rest.length < s.length := by
  simp only [hour?, Option.bind_eq_bind, Option.bind_eq_some_iff, Prod.exists] at h
  obtain ⟨_, _, hh, hc⟩ := h
  have := twoDigits_length hh
  have := exactly_length hc
  omega

theorem afterTime_length {s rest : List Char} (h : afterTime? s = some rest) :
    rest.length ≤ s.length := by
  unfold afterTime? at h
  split at h
  · simp at h; simp [h]
  · split at h
    · split at h
      · next hh =>
        simp only [Option.bind_eq_bind, Option.bind_eq_some_iff] at h
        obtain ⟨_, hm, ho⟩ := h
        have := hour_length hh
        have := minutesAndSeconds_length hm
        have := afterOffset_length ho
        simp; omega
      · simp at h; simp [← h]
    · simp at h; simp [← h]

theorem year_length {year : Nat} {s rest : List Char} (h : year? s = some (year, rest)) :
    rest.length < s.length := by
  simp only [year?, Option.bind_eq_bind, Option.bind_eq_some_iff, Prod.exists,
    Option.map_eq_some_iff, Prod.mk.injEq] at h
  obtain ⟨_, _, hy, _, hc, _, rfl⟩ := h
  have := fixedDigits_length hy
  have := exactly_length hc
  omega

theorem afterDatetime_length {s rest : List Char} (h : afterDatetime? s = some rest) :
    rest.length < s.length := by
  unfold afterDatetime? at h
  split at h
  · next hy =>
    simp only [Option.bind_eq_bind, Option.bind_eq_some_iff] at h
    obtain ⟨_, hm, ht⟩ := h
    have := year_length hy
    have := monthAndDay_length hm
    have := afterTime_length ht
    omega
  · simp only [Option.bind_eq_bind, Option.bind_eq_some_iff] at h
    obtain ⟨_, hh, hm⟩ := h
    have := hour_length hh
    have := minutesAndSeconds_length hm
    omega

end NetSchema.Toml
