import Polyglot.Unicode.Table

/-!
Sets of code points. A set is given by the increasing sequence of its edges, the places where
membership changes; below the first edge nothing is a member. Every operation on two sets is one
sweep over their edges.
-/
namespace Polyglot.Unicode

structure CodeSet where
  edges : Array Nat
deriving DecidableEq

namespace CodeSet

/-- One more than the largest code point. -/
def limit : Nat := 0x110000

def empty : CodeSet := ⟨#[]⟩

def full : CodeSet := ⟨#[0, limit]⟩

/-- The code points from `lo` to `hi`, both included. -/
def range (lo hi : Nat) : CodeSet := if lo ≤ hi then ⟨#[lo, hi + 1]⟩ else empty

def single (c : Char) : CodeSet := range c.toNat c.toNat

def isEmpty (s : CodeSet) : Bool := s.edges.isEmpty

/-- How many edges are not above `n`, if those below `lo` are not and those from `hi` on are. -/
def rank (edges : Array Nat) (n lo hi : Nat) : Nat :=
  if lo < hi then
    let middle := (lo + hi) / 2
    if edges.getD middle 0 ≤ n then rank edges n (middle + 1) hi else rank edges n lo middle
  else lo
termination_by hi - lo

def contains (s : CodeSet) (n : Nat) : Bool := rank s.edges n 0 s.edges.size % 2 == 1

def mem (s : CodeSet) (c : Char) : Bool := s.contains c.toNat

/-- The edges of a set made from two others, point by point. The flags tell whether the sweep is
inside the first set, the second one, and the result. -/
def sweep (op : Bool → Bool → Bool) : List Nat → List Nat → Bool → Bool → Bool → List Nat
  | [], [], _, _, _ => []
  | a :: as, [], inA, inB, inside =>
    let now := op (!inA) inB
    if now == inside then sweep op as [] (!inA) inB inside
    else a :: sweep op as [] (!inA) inB now
  | [], b :: bs, inA, inB, inside =>
    let now := op inA (!inB)
    if now == inside then sweep op [] bs inA (!inB) inside
    else b :: sweep op [] bs inA (!inB) now
  | a :: as, b :: bs, inA, inB, inside =>
    if a < b then
      let now := op (!inA) inB
      if now == inside then sweep op as (b :: bs) (!inA) inB inside
      else a :: sweep op as (b :: bs) (!inA) inB now
    else if b < a then
      let now := op inA (!inB)
      if now == inside then sweep op (a :: as) bs inA (!inB) inside
      else b :: sweep op (a :: as) bs inA (!inB) now
    else
      let now := op (!inA) (!inB)
      if now == inside then sweep op as bs (!inA) (!inB) inside
      else a :: sweep op as bs (!inA) (!inB) now
termination_by as bs => as.length + bs.length

def combine (op : Bool → Bool → Bool) (a b : CodeSet) : CodeSet :=
  ⟨(sweep op a.edges.toList b.edges.toList false false false).toArray⟩

def union (a b : CodeSet) : CodeSet := combine (· || ·) a b

def inter (a b : CodeSet) : CodeSet := combine (· && ·) a b

def diff (a b : CodeSet) : CodeSet := combine (fun x y => x && !y) a b

def symDiff (a b : CodeSet) : CodeSet := combine (· != ·) a b

def compl (a : CodeSet) : CodeSet := full.diff a

/-- The union of many sets, made in pairs so that no set is swept often. -/
def unionAll : Nat → List CodeSet → CodeSet
  | _, [] => empty
  | _, [s] => s
  | 0, s :: rest => rest.foldl union s
  | fuel + 1, sets =>
    let half := sets.length / 2
    (unionAll fuel (sets.take half)).union (unionAll fuel (sets.drop half))

/-- The union of the ranges in a list. -/
def ofRanges (rs : List (Nat × Nat)) : CodeSet :=
  unionAll rs.length (rs.map fun r => range r.1 r.2)

/-- The first and last members of the runs of members, in increasing order. -/
def pairs : List Nat → List (Nat × Nat)
  | lo :: behind :: rest => (lo, behind - 1) :: pairs rest
  | _ => []

def ranges (s : CodeSet) : List (Nat × Nat) := pairs s.edges.toList

/-- The only member of a set that has one. -/
def only? (s : CodeSet) : Option Nat :=
  match s.ranges with
  | [(lo, hi)] => if lo = hi then some lo else none
  | _ => none

/-- Whether all members are below 128. -/
def isAscii (s : CodeSet) : Bool := s.edges.all (· ≤ 128)

/-- Places given by the distances between them. -/
def places : Nat → List Nat → List Nat
  | _, [] => []
  | place, distance :: rest => (place + distance) :: places (place + distance) rest

/-- Reads the lengths of the runs of a set, in turn of code points outside and inside. -/
def ofRuns (lines : List String) : CodeSet := ⟨(places 0 (numbers lines)).toArray⟩

end CodeSet

end Polyglot.Unicode
