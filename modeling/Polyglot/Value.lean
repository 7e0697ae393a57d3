/-!
Plain data, as it is read from a settings file or a message, and how records are read from it. A
record may be given by the names of its fields or as a list in their order.
-/
namespace Polyglot

/-- Numbers with a fraction are only told apart from whole ones. -/
inductive Value where
  | null
  | bool (b : Bool)
  | int (n : Int)
  | float
  | string (s : String)
  | array (items : List Value)
  | table (entries : List (String × Value))
deriving Inhabited

namespace Value

def string? : Value → Option String
  | string s => some s
  | _ => none

def bool? : Value → Option Bool
  | bool b => some b
  | _ => none

/-- A whole number in the given bounds, the upper one excluded. -/
def intIn? (low high : Int) : Value → Option Int
  | int n => if low ≤ n ∧ n < high then some n else none
  | _ => none

/-- A number of so many bits without a sign. -/
def nat? (bits : Nat) (v : Value) : Option Nat := (v.intIn? 0 (Nat.pow 2 bits : Nat)).map Int.toNat

def list? {α : Type} (item : Value → Option α) : Value → Option (List α)
  | array items => items.mapM item
  | _ => none

def map? {α : Type} (item : Value → Option α) : Value → Option (List (String × α))
  | table entries => entries.mapM fun (k, v) => (item v).map (k, ·)
  | _ => none

/-- The fields of a record that were given. -/
structure Record where
  positional : Bool
  entries : List (String × Value)

/-- Reads a record with the given fields. Unknown names do not matter; items without a field are
refused if `strict`. -/
def record? (strict : Bool) (fields : List String) : Value → Option Record
  | table entries => some ⟨false, entries⟩
  | array items =>
    if strict && fields.length < items.length then none else some ⟨true, fields.zip items⟩
  | _ => none

namespace Record

def get? (r : Record) (field : String) : Option Value :=
  (r.entries.find? (·.1 = field)).map (·.2)

def required {α : Type} (r : Record) (field : String) (read : Value → Option α) : Option α :=
  (r.get? field).bind read

def withDefault {α : Type} (r : Record) (field : String) (fallback : α) (read : Value → Option α) :
    Option α :=
  match r.get? field with
  | some v => read v
  | none => some fallback

/-- A field that may be null, or left out where fields have names. -/
def optional {α : Type} (r : Record) (field : String) (read : Value → Option α) :
    Option (Option α) :=
  match r.get? field with
  | some null => some none
  | some v => (read v).map some
  | none => if r.positional then none else some none

end Record

end Value

end Polyglot
