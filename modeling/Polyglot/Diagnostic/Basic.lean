import Polyglot.Position

/-!
Diagnostics, which an analyser reports in the buffer of a document, and markers, which show them in
an editor. A renderer draws markers and takes them away again; it may refuse either.
-/
namespace Polyglot

inductive Code where
  | text (s : String)
  | number (n : Int)
deriving DecidableEq

def Code.render : Code → String
  | text s => s
  | number n => toString n

structure Diagnostic (space : Space) where
  range : Range space
  message : String
  severity : Option Int := none
  code : Option Code := none
  source : Option String := none
deriving DecidableEq

structure Marker where
  editor : String
  range : Range .editor
  title : String
  severity : Int
deriving DecidableEq

inductive MarkerError where
  | rejected (reason : String)

def MarkerError.message : MarkerError → String
  | rejected reason => s!"marker rejected: {reason}"

/-- What draws markers, with a state of its own. -/
structure Renderer (σ : Type) where
  attach : σ → Marker → σ × Except MarkerError Nat
  detach : σ → Nat → σ × Except MarkerError Unit

namespace Diagnostic

/-- Errors count most; what is not a known severity is an error. -/
def rank : Option Int → Nat
  | some 2 => 2
  | some 3 => 3
  | some 4 => 4
  | _ => 1

end Diagnostic

/-- What a diagnostic contributes to a marker. -/
structure Member where
  rank : Nat
  message : String
  code : String
  source : String
deriving DecidableEq

namespace Member

def ofDiagnostic {s : Space} (d : Diagnostic s) : Member where
  rank := Diagnostic.rank d.severity
  message := d.message
  code := (d.code.map Code.render).getD ""
  source := d.source.getD ""

/-- By rank, message, code and source. -/
def le (a b : Member) : Bool :=
  if a.rank ≠ b.rank then a.rank < b.rank
  else if a.message ≠ b.message then a.message < b.message
  else if a.code ≠ b.code then a.code < b.code
  else a.source ≤ b.source

def title (m : Member) : String :=
  if m.source.isEmpty then m.message else m.message ++ " (" ++ m.source ++ ")"

end Member

end Polyglot
