import Polyglot.Position

/-!
An index of a text holds the byte offsets at which its lines start. It turns spans of byte offsets,
as analysers report them, into ranges of lines and columns, looking only at the line in question.
-/
namespace Polyglot

structure LineIndex where
  text : Text
  starts : List Nat

namespace LineIndex

/-- Where lines start behind the line feeds of a text that stands at a byte offset. -/
def startsFrom : Nat → Text → List Nat
  | _, [] => []
  | offset, c :: rest =>
    let next := offset + c.utf8Size
    if c = '\n' then next :: startsFrom next rest else startsFrom next rest

def ofText (text : Text) : LineIndex := ⟨text, 0 :: startsFrom 0 text⟩

/-- The start of the character that an offset is in; one past the end counts as the end. -/
def floor (index : LineIndex) (offset : Nat) : Nat := (index.text.upTo offset).bytes

/-- The characters between two byte offsets. -/
def between (index : LineIndex) (start stop : Nat) : Text :=
  (index.text.upTo stop).drop (index.text.upTo start).length

/-- The last line that starts at or before the offset, and the UTF-16 units from there. -/
def position {s : Space} (index : LineIndex) (offset : Nat) : Pos s :=
  let stop := index.floor offset
  let line := (index.starts.takeWhile (· ≤ stop)).length - 1
  ⟨line, Pos.width (index.between (index.starts.getD line 0) stop)⟩

def range {s : Space} (index : LineIndex) (start stop : Nat) : Range s :=
  ⟨index.position start, index.position stop⟩

end LineIndex

end Polyglot
