import Polyglot.Pattern.CharClass

/-!
The expressions that patterns denote. A repetition prefers more or fewer rounds; a group
remembers what it matched under its number. Sequences and alternatives are built by `concat` and
`alternation`, which keep them in a simple form: neighbouring texts are joined, alternatives of
single characters are one set, and what all alternatives begin with stands before them.
-/
namespace Polyglot.Pattern

open Unicode

/-- Conditions on a place in the text that consume nothing. -/
inductive Assertion where
  | textStart
  | textEnd
  | lineStart (crlf : Bool)
  | lineEnd (crlf : Bool)
  | wordEdge (ascii : Bool)
  | noWordEdge (ascii : Bool)
  | wordStart (ascii : Bool)
  | wordEnd (ascii : Bool)
  | wordStartHalf (ascii : Bool)
  | wordEndHalf (ascii : Bool)
deriving DecidableEq

inductive Expr where
  | empty
  | text (cs : List Char)
  | set (s : CodeSet)
  | assertion (a : Assertion)
  | group (index : Nat) (e : Expr)
  | seq (a b : Expr)
  | alt (a b : Expr)
  | rep (min : Nat) (max : Option Nat) (greedy : Bool) (e : Expr)
deriving DecidableEq

namespace Expr

/-- Every match consumes something. -/
def consumes : Expr → Bool
  | empty | assertion _ => false
  | text cs => !cs.isEmpty
  | set s => !s.isEmpty
  | group _ e => e.consumes
  | seq a b => a.consumes || b.consumes
  | alt a b => a.consumes && b.consumes
  | rep min _ _ e => min != 0 && e.consumes

/-- No match consumes anything. -/
def isVoid : Expr → Bool
  | empty | assertion _ => true
  | text cs => cs.isEmpty
  | set _ => false
  | group _ e => e.isVoid
  | seq a b | alt a b => a.isVoid && b.isVoid
  | rep _ max _ e => e.isVoid || max == some 0

/-- A set; one of a single character is a text. -/
def ofSet (s : CodeSet) : Expr :=
  match s.only? with
  | some n => text [Char.ofNat n]
  | none => set s

/-- A repetition in its simplest form: of what consumes nothing, one round is enough. -/
def repeated (min : Nat) (max : Option Nat) (greedy : Bool) (e : Expr) : Expr :=
  let (min, max) :=
    if e.isVoid then (Nat.min min 1, some (match max with | some m => Nat.min m 1 | none => 1))
    else (min, max)
  if max = some 0 then empty
  else if min = 1 ∧ max = some 1 then e
  else rep min max greedy e

/-- What an expression is a sequence of. -/
def factors : Expr → List Expr
  | empty => []
  | seq a b => a.factors ++ b.factors
  | e => [e]

/-- Puts an expression in front of others, a text together with a text. -/
def consFactor : Expr → List Expr → List Expr
  | text a, text b :: rest => text (a ++ b) :: rest
  | e, rest => e :: rest

def ofSeq : List Expr → Expr
  | [] => empty
  | [e] => e
  | e :: rest => seq e (ofSeq rest)

def concat (es : List Expr) : Expr := ofSeq ((es.flatMap factors).foldr consFactor [])

/-- What an expression is a choice of. -/
def arms : Expr → List Expr
  | alt a b => a.arms ++ b.arms
  | e => [e]

def ofAlt : List Expr → Expr
  | [] => set CodeSet.empty
  | [e] => e
  | e :: rest => alt e (ofAlt rest)

/-- The characters of an expression that matches single ones. -/
def chars? : Expr → Option CodeSet
  | set s => some s
  | text [c] => some (CodeSet.single c)
  | _ => none

/-- The longest list that two lists begin with. -/
def sharedFront : List Expr → List Expr → List Expr
  | a :: as, b :: bs => if a = b then a :: sharedFront as bs else []
  | _, _ => []

/-- What all sequences begin with; nothing if one of them is no sequence. -/
def sharedFactors : List (List Expr) → List Expr
  | [] => []
  | first :: rest =>
    if (first :: rest).all (1 < ·.length) then rest.foldl sharedFront first else []

/-- A choice in its simplest form. What is left of the alternatives behind a shared beginning can
share a beginning again, as long as there is `fuel`. -/
def alternationIn : Nat → List Expr → Expr
  | 0, es => ofAlt es
  | fuel + 1, es =>
    let es := es.flatMap arms
    match es with
    | [e] => e
    | es =>
      match es.mapM chars? with
      | some sets => ofSet (CodeSet.unionAll sets.length sets)
      | none =>
        match sharedFactors (es.map factors) with
        | [] => ofAlt es
        | front =>
          concat (front ++ [alternationIn fuel (es.map fun e =>
            concat (e.factors.drop front.length))])

def alternation (es : List Expr) : Expr :=
  alternationIn (es.foldl (fun n e => n + e.factors.length) 1) es

end Expr

end Polyglot.Pattern
