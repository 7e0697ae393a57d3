import Polyglot.Pattern.Expr
import Std.Data.HashMap

/-!
How much memory a machine over the bytes of UTF-8 takes, in both directions of reading. A state
takes 32 bytes; one that branches over ranges of bytes takes 8 more for each, one that offers
several ways on 4 more for each. Patterns whose machine takes too much are refused.
-/
namespace Polyglot.Pattern

open Unicode

/-- No machine may take more than ten mebibytes. -/
def maxFootprint : Nat := 10485760

namespace Footprint

abbrev ByteRange := Nat × Nat

/-- The bytes of a code point in UTF-8. -/
def encode (n : Nat) : List Nat :=
  if n < 0x80 then [n]
  else if n < 0x800 then [0xC0 + n / 64, 0x80 + n % 64]
  else if n < 0x10000 then [0xE0 + n / 4096, 0x80 + n / 64 % 64, 0x80 + n % 64]
  else [0xF0 + n / 262144, 0x80 + n / 4096 % 64, 0x80 + n / 64 % 64, 0x80 + n % 64]

/-- Where a range has to be cut so that the bytes of its members vary independently at blocks of
a size. -/
def blockCut? (lo hi block : Nat) : Option Nat :=
  if lo / block = hi / block then none
  else if lo % block ≠ 0 then some (lo / block * block + (block - 1))
  else if hi % block ≠ block - 1 then some (hi / block * block - 1)
  else none

/-- The last code point of the first part, if a range has to be cut in two. -/
def cut? (lo hi : Nat) : Option Nat :=
  match [0x7F, 0x7FF, 0xFFFF].find? (fun last => lo ≤ last && last < hi) with
  | some last => some last
  | none =>
    if hi ≤ 0x7F then none
    else (blockCut? lo hi 64) <|> (blockCut? lo hi 4096) <|> (blockCut? lo hi 262144)

/-- The sequences of ranges of bytes that encode a range of code points, in their order. -/
def sequences (lo hi : Nat) : List (List ByteRange) :=
  match cut? lo hi with
  | some c =>
    if _h : lo ≤ c ∧ c < hi then sequences lo c ++ sequences (c + 1) hi else []
  | none => [(encode lo).zip (encode hi)]
termination_by hi - lo

/-- The sequences of a set; there are no surrogates in UTF-8. -/
def setSequences (s : CodeSet) : List (List ByteRange) :=
  (s.diff (.range 0xD800 0xDFFF)).ranges.flatMap fun r => sequences r.1 r.2

/-- A machine under construction. Its states are numbered as they are added, and `extra` is what
they take beyond 32 bytes each. -/
structure Machine where
  states : Nat := 0
  extra : Nat := 0

namespace Machine

def bytes (m : Machine) : Nat := 32 * m.states + m.extra

/-- Too large to go on with. -/
def isFull (m : Machine) : Bool := m.bytes > maxFootprint

def add (m : Machine) (states extra : Nat) : Machine := ⟨m.states + states, m.extra + extra⟩

end Machine

/-- One step of the hash by which finished states are looked up. -/
def mix (h : UInt64) (n : Nat) : UInt64 := (h ^^^ UInt64.ofNat n) * 1099511628211

def hashStart : UInt64 := 14695981039346656037

/-- A way on from a state: over a byte of a range to a state. -/
abbrev Way := ByteRange × Nat

def hashWays (ways : List Way) : UInt64 :=
  ways.foldl (fun h w => mix (mix (mix h w.1.1) w.1.2) w.2) hashStart

/-- States for a set that are finished, each in a slot given by a hash. A slot holds the latest one,
so that an equal state is not always found. -/
structure Finished (κ : Type) where
  machine : Machine
  slots : Std.HashMap Nat (κ × Nat) := {}

/-- The state with some ways on, if it is still in its slot, or a new one. -/
def Finished.intern (f : Finished (List Way)) (ways : List Way) : Nat × Finished (List Way) :=
  let slot := (hashWays ways).toNat % 10000
  let fresh := (f.machine.states, ⟨f.machine.add 1 (8 * ways.length),
    f.slots.insert slot (ways, f.machine.states)⟩)
  match f.slots.get? slot with
  | some (known, state) => if known = ways then (state, f) else fresh
  | none => fresh

/-- The sequences that begin like the first one, without this beginning, and the others. -/
def sameHead (head : ByteRange) : List (List ByteRange) →
    List (List ByteRange) × List (List ByteRange)
  | (r :: tail) :: rest =>
    if r = head then
      let (tails, others) := sameHead head rest
      (tail :: tails, others)
    else ([], (r :: tail) :: rest)
  | rest => ([], rest)

/-- The state from which given sequences are read up to the state `target`, those behind it made
first. `length` bounds the lengths of the sequences, `count` their number. -/
def compile (target : Nat) : (length count : Nat) → List (List ByteRange) → List Way →
    Finished (List Way) → Nat × Finished (List Way)
  | length + 1, count + 1, (head :: tail) :: rest, ways, f =>
    let (tails, others) := sameHead head rest
    let (state, f) := compile target length (tails.length + 1) (tail :: tails) [] f
    compile target (length + 1) count others ((head, state) :: ways) f
  | _, _, [[]], _, f => (target, f)
  | _, _, _, ways, f => f.intern ways.reverse

/-- Adds the states for a set that is read forwards. They share the ends of the sequences. -/
def forward (all : List (List ByteRange)) (m : Machine) : Machine :=
  (compile m.states 5 (all.length + 1) all [] ⟨m.add 1 0, {}⟩).2.machine

/-- Adds the states for a sequence that is read backwards up to a state. -/
def chain : Nat → List ByteRange → Finished (Nat × ByteRange) → Finished (Nat × ByteRange)
  | _, [], f => f
  | source, r :: rest, f =>
    let slot := (mix (mix (mix hashStart source) r.1) r.2).toNat % 1000
    let fresh := fun (_ : Unit) => chain f.machine.states rest
      ⟨f.machine.add 1 0, f.slots.insert slot ((source, r), f.machine.states)⟩
    match f.slots.get? slot with
    | some (known, state) => if known = (source, r) then chain state rest f else fresh ()
    | none => fresh ()

/-- Adds the states for a set that is read backwards. They share the beginnings of the sequences. -/
def backward (all : List (List ByteRange)) (m : Machine) : Machine :=
  let start : Finished (Nat × ByteRange) := ⟨m.add 2 (4 * all.length), {}⟩
  (all.foldl (fun f s => chain (m.states + 1) s f) start).machine

/-- What is added to a machine for an expression, in order. -/
inductive Part where
  | fixed (states extra : Nat)
  | set (back : Bool) (sequences : List (List ByteRange))
  | join (a b : Part)
  | times (n : Nat) (p : Part)

namespace Part

def followedBy : Part → Part → Part
  | fixed m x, fixed n y => fixed (m + n) (x + y)
  | join a (fixed m x), fixed n y => join a (fixed (m + n) (x + y))
  | a, b => join a b

def repeated (n : Nat) : Part → Part
  | fixed m x => fixed (n * m) (n * x)
  | p => times n p

/-- Repeats a step until the machine is too large. -/
def iterate (step : Machine → Machine) : Nat → Machine → Machine
  | 0, m => m
  | n + 1, m => if m.isFull then m else iterate step n (step m)

def grow : Part → Machine → Machine
  | fixed states extra, m => m.add states extra
  | set false all, m => if m.isFull then m else forward all m
  | set true all, m => if m.isFull then m else backward all m
  | join a b, m => b.grow (a.grow m)
  | times n p, m => iterate p.grow n m

def ofSet (back : Bool) (s : CodeSet) : Part :=
  if s.isAscii then fixed 2 (8 * s.ranges.length) else set back (setSequences s)

end Part

/-- Texts to be told apart at a state: those up to the next one that ends there, as the tails of
each first byte, and so on. -/
def chunks : List (Nat × List (List Nat)) → List (List Nat) → List (List (Nat × List (List Nat)))
  | chunk, [] => [chunk]
  | chunk, [] :: rest => chunk :: chunks [] rest
  | chunk, (b :: tail) :: rest =>
    if chunk.any (·.1 == b) then
      chunks (chunk.map fun w => if w.1 == b then (w.1, w.2 ++ [tail]) else w) rest
    else chunks (chunk ++ [(b, [tail])]) rest

/-- Of texts that end at once only the first counts. -/
def skipEnded : List (List Nat) → List (List Nat)
  | [] :: [] :: rest => skipEnded ([] :: rest)
  | texts => texts

/-- A tree that tells texts apart by their bytes: how many states it has, and what they take
beyond 32 bytes each. -/
def tree : Nat → List (List Nat) → Nat × Nat
  | 0, _ => (0, 0)
  | fuel + 1, texts =>
    if texts.all List.isEmpty then (0, 0)
    else
      let all := chunks [] (skipEnded texts)
      let sum := fun (a b : Nat × Nat) => (a.1 + b.1, a.2 + b.2)
      let own := all.foldl (fun n chunk =>
        sum n (match chunk with
          | [] => (0, 0)
          | [_] => (1, 0)
          | ways => (1, 8 * ways.length))) (0, 0)
      let ways := (all.filter (!·.isEmpty)).length + (all.length - 1)
      let below := all.foldl (fun n chunk =>
        chunk.foldl (fun n w => sum n (tree fuel w.2)) n) (0, 0)
      sum (sum own (if ways = 1 then (0, 0) else (1, 4 * ways))) below

def ofTexts (back : Bool) (texts : List (List Char)) : Part :=
  let texts := texts.map fun cs =>
    let bytes := cs.flatMap fun c => encode c.toNat
    if back then bytes.reverse else bytes
  let (states, extra) := tree (texts.foldl (fun n t => Nat.max n t.length) 0 + 1) texts
  .fixed (states + 1) extra

/-- Alternatives: the first two, a state before and one behind all, and the others. -/
def ofArms : List Part → Part
  | a :: b :: rest =>
    rest.foldl Part.followedBy
      ((a.followedBy b).followedBy (.fixed 2 (4 * (rest.length + 2))))
  | [a] => a
  | [] => .fixed 0 0

/-- Rounds of a repetition. -/
def ofRounds (min : Nat) (max : Option Nat) (consumes : Bool) (one : Part) : Part :=
  match max with
  | none =>
    if min ≠ 0 then (one.repeated min).followedBy (.fixed 1 8)
    else if consumes then (Part.fixed 1 8).followedBy one
    else one.followedBy (.fixed 3 16)
  | some m =>
    if min = 0 ∧ m = 1 then ((Part.fixed 1 8).followedBy one).followedBy (.fixed 1 0)
    else if min = m then one.repeated min
    else
      ((if min = 0 then .fixed 1 0 else one.repeated min).followedBy (.fixed 1 0)).followedBy
        (((Part.fixed 1 8).followedBy one).repeated (m - min))

end Footprint

namespace Expr

open Footprint

def text? : Expr → Option (List Char)
  | text cs => some cs
  | _ => none

/-- What is added for an expression whose alternatives have the given parts; texts are told apart
by a tree. -/
def wholePart (back : Bool) (e : Expr) (arms : List Part) : Part :=
  match e, e.arms.mapM text? with
  | alt _ _, some texts => ofTexts back texts
  | _, _ => ofArms arms

/-- What is added to a machine for each alternative of an expression. -/
def armParts (back : Bool) : Expr → List Part
  | empty | assertion _ => [.fixed 1 0]
  | text cs => [.fixed (cs.flatMap fun c => encode c.toNat).length 0]
  | set s => [.ofSet back s]
  | group _ e =>
    let inner := e.wholePart back (e.armParts back)
    [if back then inner else ((Part.fixed 1 0).followedBy inner).followedBy (.fixed 1 0)]
  | seq a b =>
    let first := a.wholePart back (a.armParts back)
    let second := b.wholePart back (b.armParts back)
    [if back then second.followedBy first else first.followedBy second]
  | alt a b => a.armParts back ++ b.armParts back
  | rep min max _ e => [ofRounds min max e.consumes (e.wholePart back (e.armParts back))]

/-- What is added to a machine for an expression. -/
def part (back : Bool) (e : Expr) : Part := e.wholePart back (e.armParts back)

/-- Whether every match begins with an assertion. -/
def startsWith (a : Assertion) : Expr → Bool
  | assertion b => a = b
  | group _ e => e.startsWith a
  | seq x y => x.startsWith a || (x.isVoid && y.startsWith a)
  | alt x y => x.startsWith a && y.startsWith a
  | rep min _ _ e => min != 0 && e.startsWith a
  | _ => false

/-- Whether every match ends with an assertion. -/
def endsWith (a : Assertion) : Expr → Bool
  | assertion b => a = b
  | group _ e => e.endsWith a
  | seq x y => y.endsWith a || (y.isVoid && x.endsWith a)
  | alt x y => x.endsWith a && y.endsWith a
  | rep min _ _ e => min != 0 && e.endsWith a
  | _ => false

/-- The machine that reads forwards and marks groups. -/
def machine (e : Expr) : Machine :=
  let start : Machine := if e.startsWith .textStart then ⟨1, 0⟩ else ⟨3, 16⟩
  ((e.part false).grow (start.add 1 0)).add 2 0

/-- The machine that reads backwards. -/
def machineBack (e : Expr) : Machine :=
  let start : Machine := if e.endsWith .textEnd then ⟨1, 0⟩ else ⟨3, 16⟩
  ((e.part true).grow start).add 1 0

def fits (e : Expr) : Bool := !e.machine.isFull && !e.machineBack.isFull

end Expr

end Polyglot.Pattern
