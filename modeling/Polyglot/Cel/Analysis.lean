import Polyglot.Diagnostic.Basic
import Polyglot.Document.Basic
import Polyglot.LineIndex
import Polyglot.Unicode.Classes

/-!
Analysis of CEL documents. A checker says what is wrong with a source, in byte spans; here its
report becomes diagnostics in lines and columns. Blank sources are not analysed.
-/
namespace Polyglot.Cel

inductive Problem where
  | undeclaredReference
  | noMatchingOverload
  | typeMismatch
  | notAssignable
  | undefinedField
  | heterogeneousAggregate
  | notAType
  | other
deriving DecidableEq

def Problem.code : Problem → String
  | undeclaredReference => "undeclared-reference"
  | noMatchingOverload => "no-matching-overload"
  | typeMismatch | notAssignable => "type-mismatch"
  | undefinedField => "undefined-field"
  | heterogeneousAggregate => "heterogeneous-aggregate"
  | notAType => "not-a-type"
  | other => "check-error"

/-- A span of byte offsets and what is wrong there; errors of the checker also have a kind. -/
structure Finding where
  start : Nat
  stop : Nat
  message : String
  problem : Option Problem := none

/-- What is wrong with a source: errors of its syntax, and of its meaning if it could be parsed. -/
structure Report where
  syntactic : List Finding := []
  semantic : Option (List Finding) := none

abbrev Checker := Text → Report

def language : String := "cel"

def Finding.diagnostic (index : LineIndex) (f : Finding) : Diagnostic .buffer where
  range := index.range f.start f.stop
  message := f.message
  severity := some 1
  code := f.problem.map fun p => .text p.code
  source := some language

def analyzeSource (check : Checker) (source : Text) : List (Diagnostic .buffer) :=
  if source.all Unicode.isBlank then []
  else
    let report := check source
    (report.syntactic ++ report.semantic.getD []).map (·.diagnostic (LineIndex.ofText source))

/-- The diagnostics of every CEL document of a tree, with its address. -/
def analyzeTree (check : Checker) (root : Document) : List (Url × List (Diagnostic .buffer)) :=
  (root.walk.filter (·.language = language)).map fun d => (d.uri, analyzeSource check d.value)

end Polyglot.Cel
