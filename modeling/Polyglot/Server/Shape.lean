import Polyglot.Url.Parser
import Polyglot.Value

/-!
Shapes of the data in messages. They say which data a message may carry where nothing more is asked
than whether it may.
-/
namespace Polyglot.Server

/-- Whether a field of a record must be there. -/
inductive Presence where
  | required
  /-- May be null, or left out where fields have names. -/
  | optional
  /-- May be null or left out. -/
  | lacking
  /-- May be left out. -/
  | usual
deriving DecidableEq

namespace Presence

def mayBeNull : Presence → Bool
  | optional | lacking => true
  | _ => false

/-- Whether a field may be left out of a list of fields in order. -/
def mayEnd : Presence → Bool
  | lacking | usual => true
  | _ => false

end Presence

mutual

/-- What a piece of data looks like. -/
inductive Shape where
  | any
  | bool
  | number
  /-- A whole number between two bounds, the upper one excluded. -/
  | whole (low high : Int)
  | string
  | address
  /-- One of a few words, which may also be the name of nothing. -/
  | word (words : List String)
  | list (item : Shape)
  | tuple (items : List Shape)
  | map (key item : Shape)
  /-- Fields by name, or a list of them in order. -/
  | record (fields : List Field)
  /-- Fields by name only; any other entries have the shape `others`. -/
  | named (fields : List Field) (others : Shape)
  | either (choices : List Shape)

inductive Field where
  | mk (name : String) (presence : Presence) (shape : Shape)

end

namespace Field

def name : Field → String
  | mk name _ _ => name

end Field

namespace Shape

def nat32 : Shape := whole 0 4294967296

def int32 : Shape := whole (-2147483648) 2147483648

/-- Whether a word is given by itself or as the only name in a table, with nothing behind it. -/
def isWord (words : List String) : Value → Bool
  | .string s => words.contains s
  | .table [(key, .null)] => words.contains key
  | _ => false

mutual

def accepts : Shape → Value → Bool
  | any, _ => true
  | bool, .bool _ => true
  | number, .int _ => true
  | number, .float => true
  | whole low high, .int n => low ≤ n && n < high
  | string, .string _ => true
  | address, .string s => (Url.parse s).toOption.isSome
  | word words, v => isWord words v
  | list item, .array vs => vs.all fun v => item.accepts v
  | tuple items, .array vs => acceptsAll items vs
  | map key item, .table entries => entries.all fun e => key.accepts (.string e.1) && item.accepts e.2
  | record fields, .table entries => acceptsNamed fields entries
  | record fields, .array vs => acceptsOrdered fields vs
  | named fields others, .table entries =>
    acceptsNamed fields entries &&
      entries.all fun e => (fields.map Field.name).contains e.1 || others.accepts e.2
  | either choices, v => acceptsAny choices v
  | _, _ => false

def acceptsAny : List Shape → Value → Bool
  | [], _ => false
  | s :: rest, v => s.accepts v || acceptsAny rest v

def acceptsAll : List Shape → List Value → Bool
  | [], [] => true
  | s :: rest, v :: vs => s.accepts v && acceptsAll rest vs
  | _, _ => false

/-- Whether a field may have a value. -/
def acceptsField : Field → Value → Bool
  | .mk _ presence shape, v =>
    match v with
    | .null => presence.mayBeNull || shape.accepts .null
    | v => shape.accepts v

def acceptsNamed : List Field → List (String × Value) → Bool
  | [], _ => true
  | .mk name presence shape :: rest, entries =>
    (match entries.find? (·.1 = name) with
      | some (_, v) => acceptsField (.mk name presence shape) v
      | none => presence != .required)
      && acceptsNamed rest entries

def acceptsOrdered : List Field → List Value → Bool
  | [], vs => vs.isEmpty
  | .mk _ presence _ :: rest, [] => presence.mayEnd && acceptsOrdered rest []
  | .mk name presence shape :: rest, v :: vs =>
    acceptsField (.mk name presence shape) v && acceptsOrdered rest vs

end

end Shape

def need (name : String) (shape : Shape) : Field := .mk name .required shape

def may (name : String) (shape : Shape) : Field := .mk name .optional shape

def mayLack (name : String) (shape : Shape) : Field := .mk name .lacking shape

def usually (name : String) (shape : Shape) : Field := .mk name .usual shape

/-- Fields that are set or not. -/
def flags (names : List String) : List Field := names.map (may · .bool)

end Polyglot.Server
