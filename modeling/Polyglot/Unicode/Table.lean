/-!
Tables of numbers, written as text.
-/
namespace Polyglot.Unicode

/-- The numbers read so far, and what has been read of the next one. -/
structure NumberReader where
  done : Array Nat := #[]
  current : Option Nat := none

namespace NumberReader

def finish (r : NumberReader) : NumberReader :=
  match r.current with
  | some n => ⟨r.done.push n, none⟩
  | none => r

def read (r : NumberReader) (c : Char) : NumberReader :=
  if c.isDigit then { r with current := some (10 * r.current.getD 0 + (c.toNat - '0'.toNat)) }
  else r.finish

end NumberReader

/-- The decimal numbers between blanks in some lines. -/
def numbers (lines : List String) : List Nat :=
  let reader := lines.foldl (fun (r : NumberReader) (line : String) =>
    (line.toList.foldl NumberReader.read r).finish) {}
  reader.done.toList

end Polyglot.Unicode
