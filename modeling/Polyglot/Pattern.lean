import Polyglot.Pattern.Parser
import Polyglot.Pattern.Search

/-!
Patterns ready for use, and templates, which say how what a pattern matched is put into words
again.
-/
namespace Polyglot

structure Pattern where
  program : Array Pattern.Instr
  names : List (String × Nat)

namespace Pattern

/-- The pattern that a text denotes, unless it is malformed or its machine too large. -/
def ofString? (text : String) : Option Pattern :=
  (read? text).map fun r => ⟨r.expr.program, r.names⟩

/-- The first match. -/
def find? (p : Pattern) (text : Text) : Option Match := search p.program text.toArray 0

/-- All matches, in the order of the text; none overlaps another. -/
def findAll (p : Pattern) (text : Text) : List Match :=
  searchAll p.program text.toArray (text.length + 2) 0 none

def isMatch (p : Pattern) (text : Text) : Bool := (p.find? text).isSome

end Pattern

/-- What a match captured from a text. -/
structure Captures where
  text : Text
  found : Pattern.Match
  names : List (String × Nat)

namespace Captures

/-- The text of a group, if it took part. -/
def get? (c : Captures) (index : Nat) : Option Text :=
  (c.found.group? index).map fun s => c.text.slice s.start s.stop

def get (c : Captures) (index : Nat) : Text := (c.get? index).getD []

/-- The text of a group that is given by its number or its name; unknown groups are empty. -/
def named (c : Captures) (reference : Text) : Text :=
  let digits := match reference with | '+' :: rest => rest | cs => cs
  if !digits.isEmpty && digits.all Char.isDigit then
    c.get (digits.foldl (fun n d => 10 * n + (d.toNat - '0'.toNat)) 0)
  else
    match c.names.find? (·.1 == String.ofList reference) with
    | some (_, index) => c.get index
    | none => []

end Captures

namespace Pattern

def isReferenceChar (c : Char) : Bool := c == '_' || c.isAlphanum

/-- Fills in a template: `$name` and `${name}` stand for groups, `$$` for a dollar sign, and any
other dollar sign for itself. -/
def expand (captures : Captures) : Nat → Text → Text
  | 0, _ => []
  | _, [] => []
  | fuel + 1, c :: rest =>
    if c ≠ '$' then c :: expand captures fuel rest
    else
      match rest with
      | '$' :: rest => '$' :: expand captures fuel rest
      | '\x7b' :: inner =>
        match inner.span (· != '\x7d') with
        | (name, _ :: rest) => captures.named name ++ expand captures fuel rest
        | (_, []) => '$' :: expand captures fuel rest
      | rest =>
        match rest.span isReferenceChar with
        | ([], _) => '$' :: expand captures fuel rest
        | (name, rest) => captures.named name ++ expand captures fuel rest

/-- Replaces the first match, if there is one. -/
def replaceFirst? (p : Pattern) (replacement : Captures → Text) (text : Text) : Option Text :=
  (p.find? text).map fun m =>
    text.take m.start ++ replacement ⟨text, m, p.names⟩ ++ text.drop m.stop

end Pattern

end Polyglot
