import Polyglot.Text
import Polyglot.Unicode.Classes

/-!
The types of CEL variables and the text that names them. A name that is not the name of a type
known here is the name of a message.
-/
namespace Polyglot.Cel

inductive CelType where
  | bool
  | int
  | uint
  | double
  | string
  | bytes
  | null
  | dyn
  | timestamp
  | duration
  | list (item : CelType)
  | map (key value : CelType)
  | optional (item : CelType)
  | message (name : Text)
deriving DecidableEq

inductive TypeError where
  | empty
  | unclosed (text : Text)
  | unsupported (name : Text) (parameters : Nat)
deriving DecidableEq

def TypeError.message : TypeError → String
  | empty => "empty type string"
  | unclosed text => "missing closing paren in '" ++ String.ofList text ++ "'"
  | unsupported name n =>
    "unsupported type '" ++ String.ofList name ++ s!"' with {n} parameter(s)"

def trimStart (text : Text) : Text := text.dropWhile Unicode.isBlank

def trimEnd (text : Text) : Text := (trimStart text.reverse).reverse

def trim (text : Text) : Text := trimEnd (trimStart text)

/-- The parts between the commas outside parentheses. -/
def splitParameters : Int → Text → List Text
  | _, [] => [[]]
  | depth, c :: rest =>
    if c = ',' ∧ depth = 0 then [] :: splitParameters 0 rest
    else Text.consLine c
      (splitParameters (if c = '(' then depth + 1 else if c = ')' then depth - 1 else depth) rest)

namespace CelType

/-- A type without parameters. -/
def ofName (name : Text) : CelType :=
  match String.ofList name with
  | "bool" => bool
  | "int" => int
  | "uint" => uint
  | "double" => double
  | "string" => string
  | "bytes" => bytes
  | "null" => null
  | "dyn" => dyn
  | "timestamp" => timestamp
  | "duration" => duration
  | _ => message name

/-- Reads the text of a type that is not nested deeper than `levels`. -/
def parseWithin : Nat → Text → Except TypeError CelType
  | 0, text => .error (.unclosed text)
  | levels + 1, text =>
    let text := trim text
    if text.isEmpty then .error .empty
    else
      match text.span (· != '(') with
      | (_, []) => .ok (ofName text)
      | (name, _ :: rest) =>
        if rest.getLast? = some ')' then
          let parameters := (splitParameters 0 rest.dropLast).map trim
          match String.ofList (trim name), parameters with
          | "list", [item] => (parseWithin levels item).map list
          | "map", [key, value] => do
            let k ← parseWithin levels key
            let v ← parseWithin levels value
            return map k v
          | "optional", [item] => (parseWithin levels item).map optional
          | _, parameters => .error (.unsupported (trim name) parameters.length)
        else .error (.unclosed text)

/-- The type that a text names. -/
def parse (text : Text) : Except TypeError CelType := parseWithin (text.length + 1) text

/-- The text that names a type. -/
def render : CelType → Text
  | bool => "bool".toList
  | int => "int".toList
  | uint => "uint".toList
  | double => "double".toList
  | string => "string".toList
  | bytes => "bytes".toList
  | null => "null".toList
  | dyn => "dyn".toList
  | timestamp => "timestamp".toList
  | duration => "duration".toList
  | list item => "list(".toList ++ item.render ++ [')']
  | map key value => "map(".toList ++ key.render ++ ", ".toList ++ value.render ++ [')']
  | optional item => "optional(".toList ++ item.render ++ [')']
  | message name => name

end CelType

end Polyglot.Cel
