import Polyglot.Extraction.Extractor
import Polyglot.Pattern

/-!
Extraction by a pattern: wherever it matches, one of its groups is foreign code. The host keeps
the text between the matches, and the matches too if it is told to.
-/
namespace Polyglot.Extraction

structure PatternOptions where
  kind : Kind
  exclusive : Bool
  pattern : String
  group : Nat
  keepInHost : Bool

/-- What one match leaves to the host, `done` being where the match before it stopped. -/
def hostBefore (keepInHost : Bool) (text : Text) (done : Nat) (found : Pattern.Span) :
    Option Text :=
  if keepInHost then some (text.slice done found.stop)
  else if done < found.start then some (text.slice done found.start)
  else none

def foreignPiece (keepInHost : Bool) (text : Text) (done : Nat) (found code : Pattern.Span) :
    Piece :=
  { range := some ⟨Pos.behind (text.take code.start), Pos.behind (text.take code.stop)⟩
    foreign := some (text.slice code.start code.stop)
    host := hostBefore keepInHost text done found }

/-- The text behind the last piece of foreign code. -/
def remainder (text : Text) (done : Nat) : List Piece :=
  if done < text.length then [{ host := some (text.drop done) }] else []

/-- The pieces of a text, from where the match before the given ones stopped. A match in which the
group took no part counts as host text. -/
def piecesFrom (keepInHost : Bool) (group : Nat) (text : Text) :
    Nat → List Pattern.Match → List Piece
  | done, [] => remainder text done
  | done, m :: rest =>
    match m.group? group with
    | none => piecesFrom keepInHost group text done rest
    | some code =>
      foreignPiece keepInHost text done m.span code ::
        piecesFrom keepInHost group text m.stop rest

def byPattern (options : PatternOptions) : Except RegistryError Extractor :=
  match Pattern.ofString? options.pattern with
  | none => .error (.invalidPattern options.pattern)
  | some p => .ok {
      kind := options.kind
      exclusive := options.exclusive
      detects := p.isMatch
      extract := fun text =>
        .ok (piecesFrom options.keepInHost options.group text 0 (p.findAll text)) }

end Polyglot.Extraction
