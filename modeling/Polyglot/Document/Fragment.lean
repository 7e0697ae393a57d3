import Polyglot.Document.Basic

/-!
What a text falls into, before any document is touched: the pieces of foreign code in the order
in which the extractors of its language find them, and the code that is left to the host.
-/
namespace Polyglot

/-- A piece of foreign code: what it is, where it stood in its host, the room that was put in front
of it, and the code itself. -/
structure Fragment where
  kind : Kind
  range : Range .text
  shift : Option (Pos .source)
  text : Text
deriving DecidableEq

namespace Fragment

/-- Foreign code whose place is not known is dropped, and what came with it. -/
def isLost (p : Piece) : Bool := p.foreign.isSome && p.range.isNone

/-- The code that an extractor leaves to the host. -/
def hostCode (pieces : List Piece) : Text :=
  ((pieces.filter (!isLost ·)).filterMap (·.host)).flatten

/-- The piece of foreign code that a result of an extractor holds. -/
def ofPiece? (kind : Kind) (p : Piece) : Option Fragment :=
  match p.foreign, p.range with
  | some code, some range => some ⟨kind, range, p.shift, code⟩
  | _, _ => none

/-- Lets extractors work in turn, each on what the one before it left. A fault is met only after
the pieces that were found before it. -/
def peel : List Extractor → Text → List Fragment × Except Fault Text
  | [], code => ([], .ok code)
  | e :: rest, code =>
    if e.detects code then
      match e.extract code with
      | .error fault => ([], .error fault)
      | .ok pieces =>
        let (fragments, kept) := peel rest (hostCode pieces)
        (pieces.filterMap (ofPiece? e.kind) ++ fragments, kept)
    else peel rest code

end Fragment

end Polyglot
