import Polyglot.Text

/-!
Dates and times of day, apart or together, and how far a clock is from universal time. They are read
in several spellings and written in one.
-/
namespace Polyglot

structure Date where
  year : Nat
  month : Nat
  day : Nat

structure TimeOfDay where
  hour : Nat
  minute : Nat
  second : Nat
  /-- Billionths of a second. -/
  fraction : Nat

/-- How far a clock is from universal time. -/
inductive ClockOffset where
  | universal
  | minutes (n : Int)

inductive DateTime where
  | date (d : Date)
  | time (t : TimeOfDay)
  | both (d : Date) (t : TimeOfDay) (offset : Option ClockOffset)

namespace DateTime

/-- Reads a number of two digits between two bounds. -/
def twoDigits? (low high : Nat) : Text → Option (Nat × Text)
  | a :: b :: rest =>
    if a.isDigit && b.isDigit then
      let n := 10 * (a.toNat - '0'.toNat) + (b.toNat - '0'.toNat)
      if low ≤ n ∧ n ≤ high then some (n, rest) else none
    else none
  | _ => none

def expect? (mark : Char) : Text → Option Text
  | c :: rest => if c = mark then some rest else none
  | [] => none

def daysIn (year month : Nat) : Nat :=
  if month = 2 then
    if year % 4 = 0 && (year % 100 != 0 || year % 400 = 0) then 29 else 28
  else if month = 4 ∨ month = 6 ∨ month = 9 ∨ month = 11 then 30
  else 31

def readDate? (cs : Text) : Option (Date × Text) := do
  let (century, rest) ← twoDigits? 0 99 cs
  let (yearOfCentury, rest) ← twoDigits? 0 99 rest
  let year := 100 * century + yearOfCentury
  let (month, rest) ← twoDigits? 1 12 (← expect? '-' rest)
  let (day, rest) ← twoDigits? 1 (daysIn year month) (← expect? '-' rest)
  some (⟨year, month, day⟩, rest)

/-- The digits behind a point, as billionths; what is below them is cut off. -/
def billionths (digits : Text) : Nat :=
  ((digits ++ List.replicate 9 '0').take 9).foldl (fun n c => 10 * n + (c.toNat - '0'.toNat)) 0

/-- A minute may have a second more. -/
def readTime? (cs : Text) : Option (TimeOfDay × Text) := do
  let (hour, rest) ← twoDigits? 0 23 cs
  let (minute, rest) ← twoDigits? 0 59 (← expect? ':' rest)
  let (second, rest) ← twoDigits? 0 60 (← expect? ':' rest)
  match rest with
  | '.' :: more =>
    match more.span Char.isDigit with
    | ([], _) => none
    | (digits, rest) => some (⟨hour, minute, second, billionths digits⟩, rest)
  | rest => some (⟨hour, minute, second, 0⟩, rest)

def readOffset? : Text → Option ClockOffset
  | ['Z'] | ['z'] => some .universal
  | sign :: rest => do
    let (hours, rest) ← twoDigits? 0 23 rest
    let (minutes, rest) ← twoDigits? 0 59 (← expect? ':' rest)
    let n : Int := 60 * hours + minutes
    if rest.isEmpty then
      if sign = '+' then some (.minutes n) else if sign = '-' then some (.minutes (-n)) else none
    else none
  | [] => none

/-- Whether a character may stand between a date and a time. -/
def dividesTime (c : Char) : Bool := c == 'T' || c == 't' || c == ' '

def read? (cs : Text) : Option DateTime :=
  match readDate? cs with
  | some (d, []) => some (.date d)
  | some (d, c :: rest) =>
    if dividesTime c then
      match readTime? rest with
      | some (t, []) => some (.both d t none)
      | some (t, rest) => (readOffset? rest).map fun offset => .both d t (some offset)
      | none => none
    else none
  | none =>
    match readTime? cs with
    | some (t, []) => some (.time t)
    | _ => none

/-- A number in decimal with zeros in front of it up to a width. -/
def padded (width n : Nat) : Text :=
  let digits := Nat.toDigits 10 n
  List.replicate (width - digits.length) '0' ++ digits

def renderDate (d : Date) : Text :=
  padded 4 d.year ++ ['-'] ++ padded 2 d.month ++ ['-'] ++ padded 2 d.day

/-- The fraction has no zeros at its end, and is left out if there is none. -/
def renderTime (t : TimeOfDay) : Text :=
  padded 2 t.hour ++ [':'] ++ padded 2 t.minute ++ [':'] ++ padded 2 t.second ++
    if t.fraction = 0 then []
    else '.' :: ((padded 9 t.fraction).reverse.dropWhile (· == '0')).reverse

def renderOffset : ClockOffset → Text
  | .universal => ['Z']
  | .minutes n =>
    (if n < 0 then '-' else '+') :: padded 2 (n.natAbs / 60) ++ [':'] ++ padded 2 (n.natAbs % 60)

def render : DateTime → Text
  | .date d => renderDate d
  | .time t => renderTime t
  | .both d t offset => renderDate d ++ ['T'] ++ renderTime t ++ (offset.map renderOffset).getD []

end DateTime

end Polyglot
