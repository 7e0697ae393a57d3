import Polyglot.Text

/-!
Positions are a line and a column, the column in UTF-16 units. The same pair of numbers means
different things in different spaces, so a position carries the space it lives in: one piece of
text, the joined blocks of a document, an editor, or the buffer that a document presents. Numbers
have no bound here, so that sums of them are exact.
-/
namespace Polyglot

inductive Space where
  | text
  | source
  | editor
  | buffer

@[ext]
structure Pos (space : Space) where
  line : Nat
  column : Nat
deriving DecidableEq, Inhabited

namespace Pos

def origin {s : Space} : Pos s := ⟨0, 0⟩

/-- The UTF-16 units of one character. -/
def units (c : Char) : Nat := if c.toNat < 0x10000 then 1 else 2

/-- The UTF-16 units of a text. -/
def width : Text → Nat
  | [] => 0
  | c :: rest => units c + width rest

theorem width_append (s t : Text) : width (s ++ t) = width s + width t := by
  induction s with
  | nil => simp [width]
  | cons c rest ih =>
    simp only [List.cons_append, width, ih]
    omega

/-- The position behind one more character. -/
def advance {s : Space} (p : Pos s) (c : Char) : Pos s :=
  if c = '\n' then ⟨p.line + 1, 0⟩ else ⟨p.line, p.column + units c⟩

/-- The position behind a text that starts at the origin. -/
def behind (text : Text) : Pos .text := text.foldl advance origin

/-- The position of a byte offset; an offset past the end counts as the end, and one inside a
character has no position. -/
def atByte? (text : Text) (offset : Nat) : Option (Pos .text) :=
  let before := text.upTo offset
  if before.bytes = min offset text.bytes then some (behind before) else none

/-- Reading order. -/
def before {s : Space} (p q : Pos s) : Bool :=
  p.line < q.line || (p.line == q.line && p.column ≤ q.column)

end Pos

/-- A stretch between two positions of one space; both ends belong to it. -/
@[ext]
structure Range (space : Space) where
  start : Pos space
  stop : Pos space
deriving DecidableEq, Inhabited

namespace Range

/-- On a single line only columns count; over several lines a position must not come before the
start nor after the stop. -/
def contains {s : Space} (r : Range s) (p : Pos s) : Bool :=
  if r.start.line = r.stop.line then
    p.line == r.start.line && r.start.column ≤ p.column && p.column ≤ r.stop.column
  else
    r.start.before p && p.before r.stop

/-- A position as seen from the start of a range: only its first line loses columns. -/
def relative {s : Space} (r : Range s) (p : Pos s) : Pos s :=
  let line := p.line - r.start.line
  ⟨line, if line = 0 then p.column - r.start.column else p.column⟩

/-- By start, then by stop. -/
def before {s : Space} (r t : Range s) : Bool :=
  if r.start = t.start then r.stop.before t.stop else r.start.before t.start

end Range

end Polyglot
