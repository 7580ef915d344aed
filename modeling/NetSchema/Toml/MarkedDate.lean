import NetSchema.Toml.Basic
import NetSchema.Toml.Datetime

/-!
# Dates written as tables

A table whose first key is `dateMarker` stands for a date: the value at that key is the text of the
date, and the other keys do not count.  `withDates` puts dates in the place of such tables.  The text
is read more freely than a date that stands for itself: the hour may be 24, and any hours and minutes
make an offset as long as they come to a day at most.
-/

namespace NetSchema.Toml

def dateMarker : String := "$__toml_private_datetime"

/-! ## The text of a date -/

/-- What follows the time at the start of `s`. -/
def afterClock? (s : List Char) : Option (List Char) := do
  let (_, s) ← twoDigits? 0 24 s
  let s ← exactly? ':' s
  minutesAndSeconds? s

/-- The minutes that `s` adds up to as hours and minutes. -/
def offsetMinutes? (s : List Char) : Option Nat := do
  let (hours, s) ← fixedDigits? 2 s
  let s ← exactly? ':' s
  let (minutes, s) ← fixedDigits? 2 s
  if s.isEmpty then return hours * 60 + minutes else none

/-- Whether all of `s` is an offset; it may be missing. -/
def isOffsetText : List Char → Bool
  | [] => true
  | ['Z'] | ['z'] => true
  | '+' :: s | '-' :: s => (offsetMinutes? s).any (· ≤ 24 * 60)
  | _ => false

/-- Whether all of `s` is a date, a time or both.  A time alone has no offset. -/
def isDateText (s : List Char) : Bool :=
  match s with
  | _ :: _ :: ':' :: _ => afterClock? s == some []
  | _ =>
    match year? s >>= fun (year, s) => monthAndDay? year s with
    | none => false
    | some [] => true
    | some (c :: s) => (c == 'T' || c == 't' || c == ' ') && (afterClock? s).any isOffsetText

/-! ## Dates in a document -/

/-- The date that the value at the marker writes. -/
def markedDate : Toml → Except TomlError Toml
  | .string s => if isDateText s.toList then .ok (.datetime s) else .error .badDate
  | _ => .error .badDate

mutual

/-- The value with dates in the place of the tables that stand for them.  What is inside such a
table is not looked at. -/
def withDates : Toml → Except TomlError Toml
  | .array items => (itemsWithDates items).map .array
  | .table ((key, v) :: rest) =>
    if key = dateMarker then markedDate v
    else do
      let v ← withDates v
      let rest ← entriesWithDates rest
      return .table ((key, v) :: rest)
  | v => .ok v

def itemsWithDates : List Toml → Except TomlError (List Toml)
  | [] => .ok []
  | v :: vs => do
    let v ← withDates v
    let vs ← itemsWithDates vs
    return v :: vs

def entriesWithDates : List (String × Toml) → Except TomlError (List (String × Toml))
  | [] => .ok []
  | (key, v) :: rest => do
    let v ← withDates v
    let rest ← entriesWithDates rest
    return (key, v) :: rest

end

end NetSchema.Toml
