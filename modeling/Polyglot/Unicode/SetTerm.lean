import Polyglot.Unicode.Category

/-!
Definitions of sets of code points: by the lengths of their runs, by general categories, and by
the other sets that they are made of.
-/
namespace Polyglot.Unicode

inductive SetTerm where
  | runs (lines : List String)
  | category (ks : List Category)
  | every (stride first count : Nat)
  | union (a b : SetTerm)
  | diff (a b : SetTerm)

namespace SetTerm

/-- The set that a definition describes. -/
def eval : SetTerm → CodeSet
  | runs lines => CodeSet.ofRuns lines
  | category ks => Category.set ks
  | every stride first count =>
    CodeSet.ofRanges ((List.range count).map fun i => (first + stride * i, first + stride * i))
  | union a b => a.eval.union b.eval
  | diff a b => a.eval.diff b.eval

end SetTerm

/-- A set under its names. -/
structure NamedSet where
  names : List String
  term : SetTerm

namespace NamedSet

/-- Names are compared without case, blanks, dashes and underscores, and only their characters
below 128 count. -/
def plainChars (name : List Char) : List Char :=
  (name.filter fun c => c.toNat < 128 && c != ' ' && c != '_' && c != '-').map Char.toLower

/-- The plain form of a name; a leading `is` does not count, unless only a `c` is left. -/
def plainName (name : List Char) : String :=
  match name with
  | i :: s :: rest =>
    if (i == 'i' || i == 'I') && (s == 's' || s == 'S') then
      match plainChars rest with
      | ['c'] => "isc"
      | plain => String.ofList plain
    else String.ofList (plainChars name)
  | _ => String.ofList (plainChars name)

def hasName (s : NamedSet) (plain : String) : Bool :=
  s.names.any fun name => String.ofList (plainChars name.toList) == plain

/-- The set of a table that has a name, given in its plain form. -/
def find? (table : List NamedSet) (plain : String) : Option CodeSet :=
  (table.find? (·.hasName plain)).map (·.term.eval)

end NamedSet

end Polyglot.Unicode
