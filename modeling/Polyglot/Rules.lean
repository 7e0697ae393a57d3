import Polyglot.Pattern

/-!
Rules that turn marker lines, or whole blocks, into code that an analyser accepts. The first rule
whose pattern is found replaces its match; a rule may carry its inverse, and a book of rules read
backwards consists of the inverses.
-/
namespace Polyglot

inductive RuleError where
  | invalidPattern (pattern : String)
  | incompleteReverse (pattern : String)
  | unknownScope (name : String)

def RuleError.message : RuleError → String
  | invalidPattern p => s!"invalid override pattern '{p}': "
  | incompleteReverse p => s!"override '{p}' declares only half of its reverse rule"
  | unknownScope n => s!"unknown override scope '{n}' (expected \"block\" or \"line\")"

/-- What takes the place of a match. -/
inductive Replacement where
  | template (t : Text)
  | function (f : Captures → Text)

def Replacement.apply : Replacement → Captures → Text
  | template t, captures => Pattern.expand captures (t.length + 1) t
  | function f, captures => f captures

/-- A pattern and what takes the place of its first match. -/
structure Substitution where
  pattern : Pattern
  replacement : Replacement

namespace Substitution

def make (pattern : String) (replacement : Replacement) : Except RuleError Substitution :=
  match Pattern.ofString? pattern with
  | some p => .ok ⟨p, replacement⟩
  | none => .error (.invalidPattern pattern)

/-- The text with its first match replaced, if there is one. -/
def run? (r : Substitution) (text : Text) : Option Text :=
  r.pattern.replaceFirst? r.replacement.apply text

end Substitution

structure Rule where
  forward : Substitution
  backward : Option Substitution := none

/-- A rule that undoes this one, if it says how. -/
def Rule.inverse? (r : Rule) : Option Rule :=
  r.backward.map fun b => ⟨b, some r.forward⟩

abbrev RuleBook := List Rule

namespace RuleBook

/-- The text that the first rule makes of it whose pattern is found. -/
def substitute? (book : RuleBook) (text : Text) : Option Text :=
  book.findSome? (·.forward.run? text)

/-- Every line with a flag that tells whether a rule changed it. -/
def substituteLines (book : RuleBook) (lines : List Text) : List (Text × Bool) :=
  lines.map fun line =>
    match book.substitute? line with
    | some changed => (changed, true)
    | none => (line, false)

def reverse (book : RuleBook) : RuleBook := book.filterMap Rule.inverse?

end RuleBook

/-- Whether rules look at whole blocks or at single lines. -/
inductive Scope where
  | block
  | line
deriving DecidableEq

namespace Scope

def name : Scope → String
  | block => "block"
  | line => "line"

def ofName : String → Except RuleError Scope
  | "block" | "cell" => .ok block
  | "line" => .ok line
  | other => .error (.unknownScope other)

end Scope

/-- Rules by the language and the scope that they are for. -/
structure RuleShelf where
  entries : List ((String × Scope) × Rule) := []

namespace RuleShelf

def add (shelf : RuleShelf) (language : String) (scope : Scope) (rule : Rule) : RuleShelf :=
  ⟨shelf.entries ++ [((language, scope), rule)]⟩

def book (shelf : RuleShelf) (language : String) (scope : Scope) : RuleBook :=
  (shelf.entries.filter (·.1 = (language, scope))).map (·.2)

end RuleShelf

end Polyglot
