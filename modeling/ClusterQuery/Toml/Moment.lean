import ClusterQuery.Toml.Layout

/-!
# TOML dates and times

A moment is a date, a time of day, or both with an offset from universal time or without
one. Only whether a text is a moment matters here, so the readers give what follows it.
Between a date and a time stands the letter T or a space; a space that no time follows is not
part of the moment.
-/

namespace ClusterQuery.Toml

def digit? : List Char → Option (Nat × List Char)
  | c :: cs => if c.isDigit then some (c.toNat - '0'.toNat, cs) else none
  | [] => none

/-- Reads two digits. -/
def twoDigits? : Reads Nat := fun cs => do
  let (a, cs) ← digit? cs
  let (b, cs) ← digit? cs
  return (a * 10 + b, cs)

/-- Reads two digits that give a number in a range. -/
def twoDigitsIn? (low high : Nat) : Reads Nat := fun cs => do
  let (n, cs) ← twoDigits? cs
  if low ≤ n ∧ n ≤ high then some (n, cs) else none

def mark? (mark : Char) : List Char → Option (List Char)
  | c :: cs => if c = mark then some cs else none
  | [] => none

def isLeapYear (year : Nat) : Bool :=
  year % 4 = 0 && (year % 100 ≠ 0 || year % 400 = 0)

def daysInMonth (year month : Nat) : Nat :=
  if month = 2 then if isLeapYear year then 29 else 28
  else if month = 4 ∨ month = 6 ∨ month = 9 ∨ month = 11 then 30
  else 31

def date? (cs : List Char) : Option (List Char) := do
  let (century, cs) ← twoDigits? cs
  let (year, cs) ← twoDigits? cs
  let cs ← mark? '-' cs
  let (month, cs) ← twoDigitsIn? 1 12 cs
  let cs ← mark? '-' cs
  let (_, cs) ← twoDigitsIn? 1 (daysInMonth (century * 100 + year) month) cs
  return cs

/-- What follows a fraction of a second, if there is one. -/
def skipSecondFraction : List Char → List Char
  | '.' :: c :: cs => if c.isDigit then cs.dropWhile Char.isDigit else '.' :: c :: cs
  | cs => cs

/-- The second 60 is a leap second. -/
def timeOfDay? (cs : List Char) : Option (List Char) := do
  let (_, cs) ← twoDigitsIn? 0 23 cs
  let cs ← mark? ':' cs
  let (_, cs) ← twoDigitsIn? 0 59 cs
  let cs ← mark? ':' cs
  let (_, cs) ← twoDigitsIn? 0 60 cs
  return skipSecondFraction cs

def offset? : List Char → Option (List Char)
  | c :: cs =>
    if c = 'Z' ∨ c = 'z' then some cs
    else if c = '+' ∨ c = '-' then do
      let (_, cs) ← twoDigitsIn? 0 23 cs
      let cs ← mark? ':' cs
      let (_, cs) ← twoDigitsIn? 0 59 cs
      return cs
    else none
  | [] => none

/-- What follows the time of day and the offset after a date, if they are there. -/
def skipTime : List Char → List Char
  | [] => []
  | c :: cs =>
    if c = 'T' ∨ c = 't' ∨ c = ' ' then
      match timeOfDay? cs with
      | some rest => (offset? rest).getD rest
      | none => c :: cs
    else c :: cs

def moment? (cs : List Char) : Option (List Char) :=
  match date? cs with
  | some rest => some (skipTime rest)
  | none => timeOfDay? cs

end ClusterQuery.Toml
