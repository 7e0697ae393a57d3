import Polyglot.Url.Host

/-!
Addresses: a scheme, an authority if there is one, a path, a query and a fragment.
-/
namespace Polyglot

/-- An address in its normal form. The path of a `flat` address has no segments. -/
structure Url where
  scheme : String
  credentials : String := ""
  host : Option String := none
  portNumber : Option Nat := none
  flat : Bool := false
  path : String
  query : Option String := none
  fragment : Option String := none
deriving DecidableEq, Inhabited

namespace Url

def authority (u : Url) : String :=
  match u.host with
  | some host =>
    "//" ++ u.credentials ++ host ++ (match u.portNumber with | some p => ":" ++ toString p | none => "")
  | none => if !u.flat && u.path.startsWith "//" then "/." else ""

/-- The written form. Two addresses with the same written form are the same. -/
def href (u : Url) : String :=
  u.scheme ++ ":" ++ u.authority ++ u.path ++
    (match u.query with | some q => "?" ++ q | none => "") ++
    (match u.fragment with | some f => "#" ++ f | none => "")

/-- What a segment stands for. One whose bytes are no text becomes the null character, which no name
of a file has. -/
def fileName (segment : Text) : String := String.ofList ((decode? segment).getD [Char.ofNat 0])

/-- The directories and the name that a path of a local file stands for. -/
def filePath? (u : Url) : Option (List String) :=
  if u.flat || !u.path.startsWith "/" then none
  else
    match u.host with
    | none | some "" | some "localhost" =>
      some ((Text.splitAt '/' (u.path.toList.drop 1)).map fileName)
    | some _ => none

end Url

end Polyglot
