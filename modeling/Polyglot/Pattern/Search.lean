import Polyglot.Pattern.Program
import Polyglot.Text
import Std.Data.HashSet

/-!
Running a machine over a text. The ways through it are tried in the order of preference; a pair
of address and place that was tried before is not tried again, for it led nowhere or is still
being tried. Of all places where a match begins the leftmost is taken.

Places are counted in characters. Group boundaries are noted as they are passed, so that along
every way they are in the order of the text.
-/
namespace Polyglot.Pattern

open Unicode

/-- A boundary of a group, passed at a place. -/
structure Mark where
  group : Nat
  opening : Bool
  place : Nat
deriving DecidableEq

/-- A way so far: the next instruction, the place reached, and the marks passed, latest first. -/
structure Thread where
  address : Nat
  place : Nat
  marks : List Mark

structure Span where
  start : Nat
  stop : Nat
deriving DecidableEq

structure Match where
  start : Nat
  stop : Nat
  marks : List Mark

namespace Match

def span (m : Match) : Span := ⟨m.start, m.stop⟩

/-- The last round of a group: its latest end, and the latest start before that. -/
def lastRound (group : Nat) (marks : List Mark) : Option Span :=
  match marks.dropWhile (fun k => !(k.group == group && !k.opening)) with
  | [] => none
  | finish :: earlier =>
    (earlier.find? fun k => k.group == group && k.opening).map fun k => ⟨k.place, finish.place⟩

/-- What a group matched, if it took part; group 0 is the whole match. -/
def group? (m : Match) (index : Nat) : Option Span :=
  if index = 0 then some m.span else lastRound index m.marks

end Match

def Assertion.wordAt (ascii : Bool) : Option Char → Bool
  | none => false
  | some c => if ascii then isAscii c && isWord c else isWord c

/-- Whether an assertion holds between two neighbouring characters. -/
def Assertion.holds (left right : Option Char) : Assertion → Bool
  | textStart => left.isNone
  | textEnd => right.isNone
  | lineStart crlf =>
    match left with
    | none => true
    | some c => c == '\n' || (crlf && c == '\r' && right != some '\n')
  | lineEnd crlf =>
    match right with
    | none => true
    | some c =>
      if crlf then c == '\r' || (c == '\n' && left != some '\r') else c == '\n'
  | wordEdge a => wordAt a left != wordAt a right
  | noWordEdge a => wordAt a left == wordAt a right
  | wordStart a => !wordAt a left && wordAt a right
  | wordEnd a => wordAt a left && !wordAt a right
  | wordStartHalf a => !wordAt a left
  | wordEndHalf a => !wordAt a right

/-- The character before a place. -/
def charBefore (input : Array Char) (place : Nat) : Option Char :=
  if place = 0 then none else input[place - 1]?

/-- The ways on from a thread, the preferred first; `none` if it is through. -/
def successors (program : Array Instr) (input : Array Char) (t : Thread) :
    Option (List Thread) :=
  match program[t.address]? with
  | none => some []
  | some .accept => none
  | some (.char c) =>
    some (if input[t.place]? = some c then [⟨t.address + 1, t.place + 1, t.marks⟩] else [])
  | some (.set s) =>
    match input[t.place]? with
    | none => some []
    | some x => some (if s.mem x then [⟨t.address + 1, t.place + 1, t.marks⟩] else [])
  | some (.assertion a) =>
    some (if a.holds (charBefore input t.place) input[t.place]? then
      [⟨t.address + 1, t.place, t.marks⟩] else [])
  | some (.split first second) =>
    some [⟨first, t.place, t.marks⟩, ⟨second, t.place, t.marks⟩]
  | some (.jump target) => some [⟨target, t.place, t.marks⟩]
  | some (.mark group opening) =>
    some [⟨t.address + 1, t.place, ⟨group, opening, t.place⟩ :: t.marks⟩]

/-- The pairs of address and place that were tried, as numbers. -/
abbrev Tried := Std.HashSet Nat

/-- Tries threads in turn until one is through. -/
def explore (program : Array Instr) (input : Array Char) :
    Nat → List Thread → Tried → Tried × Option Thread
  | 0, _, tried => (tried, none)
  | _, [], tried => (tried, none)
  | fuel + 1, t :: rest, tried =>
    let key := t.address * (input.size + 1) + t.place
    if tried.contains key then explore program input fuel rest tried
    else
      match successors program input t with
      | none => (tried, some t)
      | some next => explore program input fuel (next ++ rest) (tried.insert key)

/-- Looks for a match that begins at `start` or at one of the `count` places behind it. What was
tried in vain from one place need not be tried from the next. -/
def searchFrom (program : Array Instr) (input : Array Char) (fuel : Nat) :
    Nat → Nat → Tried → Option Match
  | 0, _, _ => none
  | count + 1, start, tried =>
    match explore program input fuel [⟨0, start, []⟩] tried with
    | (_, some t) => some ⟨start, t.place, t.marks⟩
    | (tried, none) => searchFrom program input fuel count (start + 1) tried

/-- The leftmost match that begins at `start` or later. -/
def search (program : Array Instr) (input : Array Char) (start : Nat) : Option Match :=
  let pairs := program.size * (input.size + 1)
  searchFrom program input (2 * pairs + 2) (input.size + 1 - start) start {}

/-- Further matches: the search goes on where the last match stopped, and an empty match right
there is passed over. -/
def searchAll (program : Array Instr) (input : Array Char) :
    Nat → Nat → Option Nat → List Match
  | 0, _, _ => []
  | fuel + 1, start, last =>
    let next :=
      match search program input start with
      | some m =>
        if m.start = m.stop ∧ last = some m.stop then search program input (start + 1) else some m
      | none => none
    match next with
    | none => []
    | some m => m :: searchAll program input fuel m.stop (some m.stop)

end Polyglot.Pattern
