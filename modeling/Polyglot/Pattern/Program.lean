import Polyglot.Pattern.Expr

/-!
Machines that match expressions. Code is a sequence of instructions with absolute addresses and
falls through to the address behind it; of two ways on, the first is preferred. A loop around
something that may consume nothing is entered once before it is repeated, so that giving up the
repetition is preferred to an empty round.
-/
namespace Polyglot.Pattern

open Unicode

inductive Instr where
  | char (c : Char)
  | set (s : CodeSet)
  | assertion (a : Assertion)
  | split (first second : Nat)
  | jump (target : Nat)
  | mark (group : Nat) (opening : Bool)
  | accept

/-- Of staying in a loop and leaving it, a greedy one prefers to stay. -/
def choice (greedy : Bool) (stay leave : Nat) : Instr :=
  if greedy then .split stay leave else .split leave stay

abbrev Code := Array Instr

/-- Does the same to some code `n` times. -/
def Code.times (step : Code → Code) : Nat → Code → Code
  | 0, code => code
  | n + 1, code => Code.times step n (step code)

namespace Expr

/-- The length of the code. -/
def size : Expr → Nat
  | empty => 0
  | text cs => cs.length
  | set _ | assertion _ => 1
  | group _ e => e.size + 2
  | seq a b => a.size + b.size
  | alt a b => a.size + b.size + 2
  | rep min max _ e =>
    match max with
    | some m => min * e.size + (m - min) * (e.size + 1)
    | none => if min = 0 then e.size + 2 else min * e.size + 1

/-- Adds the code of an expression to the code before it. -/
def emit : Expr → Code → Code
  | empty, code => code
  | text cs, code => cs.foldl (fun code c => code.push (.char c)) code
  | set s, code => code.push (.set s)
  | assertion a, code => code.push (.assertion a)
  | group i e, code => (e.emit (code.push (.mark i true))).push (.mark i false)
  | seq a b, code => b.emit (a.emit code)
  | alt a b, code =>
    let base := code.size
    let code := a.emit (code.push (.split (base + 1) (base + a.size + 2)))
    b.emit (code.push (.jump (base + a.size + b.size + 2)))
  | rep min max greedy e, code =>
    let base := code.size
    match max with
    | some m =>
      let leave := base + min * e.size + (m - min) * (e.size + 1)
      let optional := fun (code : Code) => e.emit (code.push (choice greedy (code.size + 1) leave))
      Code.times optional (m - min) (Code.times e.emit min code)
    | none =>
      if min = 0 then
        let leave := base + e.size + 2
        let code := e.emit (code.push (choice greedy (base + 1) leave))
        code.push (if e.consumes then .jump base else choice greedy (base + 1) leave)
      else
        let last := base + (min - 1) * e.size
        (Code.times e.emit min code).push (choice greedy last (last + e.size + 1))

/-- A whole machine. -/
def program (e : Expr) : Code := (e.emit #[]).push .accept

end Expr

end Polyglot.Pattern
