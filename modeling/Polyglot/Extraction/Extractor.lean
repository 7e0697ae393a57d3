import Polyglot.Position

/-!
An extractor takes a host text apart: pieces of foreign code with the range they stood in, and
pieces of the text that stays with the host. Extractors are registered for a host language and
work in turn, each on what the one before it left to the host.
-/
namespace Polyglot

/-- How documents of foreign code are kept: their language, the last part of their address, and
whether every piece of code gets a document of its own. -/
structure Kind where
  language : String
  extension : String
  standalone : Bool
deriving DecidableEq

/-- One result of an extractor. The foreign code may start behind the place that its range says,
as many lines and columns as `shift` tells, where the extractor put text in front of it. -/
structure Piece where
  range : Option (Range .text) := none
  foreign : Option Text := none
  host : Option Text := none
  shift : Option (Pos .source) := none
deriving DecidableEq

/-- Why a text cannot be taken apart: one piece ends inside another one, or pieces inside pieces
never come to an end. -/
inductive Fault where
  | overlap
  | depth
deriving DecidableEq

structure Extractor where
  kind : Kind
  exclusive : Bool
  detects : Text → Bool
  extract : Text → Except Fault (List Piece)

inductive RegistryError where
  | conflictingExclusive (host existing added : String)
  | invalidPattern (pattern : String)

def RegistryError.message : RegistryError → String
  | conflictingExclusive host existing added =>
    s!"host '{host}' already has exclusive extractor '{existing}', cannot add '{added}'"
  | invalidPattern p => s!"invalid extractor pattern '{p}': "

/-- The extractors of all host languages, in the order of registration. -/
structure Registry where
  entries : List (String × Extractor) := []

namespace Registry

def forHost (registry : Registry) (host : String) : List Extractor :=
  (registry.entries.filter (·.1 = host)).map (·.2)

/-- At most one extractor of a host can be exclusive. -/
def register (registry : Registry) (host : String) (extractor : Extractor) :
    Except RegistryError Registry :=
  match (registry.forHost host).find? (·.exclusive) with
  | some existing =>
    if extractor.exclusive then
      .error (.conflictingExclusive host existing.kind.language extractor.kind.language)
    else .ok ⟨registry.entries ++ [(host, extractor)]⟩
  | none => .ok ⟨registry.entries ++ [(host, extractor)]⟩

end Registry

end Polyglot
