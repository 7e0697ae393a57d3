import Polyglot.Text
import Polyglot.Unicode.Direction
import Polyglot.Unicode.Normalization
import Polyglot.Url.DomainMapping
import Polyglot.Url.Punycode

/-!
Domain names. Their characters are mapped and normalised, their labels are held to the rules for
marks, joiners and the direction of writing, and labels beyond ASCII are written in ASCII.
-/
namespace Polyglot.Url

open Unicode

namespace DomainName

/-- A label, with the text that stands for it in ASCII. -/
structure Label where
  name : Text
  written : Text

def isAscii (text : Text) : Bool := text.all (·.toNat < 0x80)

/-- What opens a label that is written in ASCII. -/
def mark : Text := "xn--".toList

/-- The longest labels that are read and written. -/
def maxRead : Nat := 2000
def maxWritten : Nat := 1000

/-- Characters of ASCII that no domain has. -/
def isBarred (c : Char) : Bool :=
  c.toNat ≤ 0x20 || c.toNat == 0x7F || "#%/:<>?@[\\]^|".toList.contains c

/-! Joiners. -/

def nonJoiner : Char := Char.ofNat 0x200C
def joiner : Char := Char.ofNat 0x200D

/-- Whether a letter that joins the text behind it ends `before`, which is given last character
first. -/
def joinsForward (before : Text) : Bool :=
  match before.dropWhile Joining.transparent.mem with
  | c :: _ => Joining.forward.mem c
  | [] => false

def joinsBackward (after : Text) : Bool :=
  match after.dropWhile Joining.transparent.mem with
  | c :: _ => Joining.backward.mem c
  | [] => false

def behindVirama (before : Text) : Bool :=
  match before with
  | c :: _ => Normalization.combiningClass c.toNat == 9
  | [] => false

/-- Joiners stand behind a virama; a non-joiner may also stand between letters that would join. -/
def joinersAllowed : Text → Text → Bool
  | _, [] => true
  | before, c :: rest =>
    (if c = nonJoiner then behindVirama before || (joinsForward before && joinsBackward rest)
     else if c = joiner then behindVirama before
     else true)
      && joinersAllowed (c :: before) rest

/-! Direction of writing. -/

def isRightToLeft (c : Char) : Bool :=
  match Direction.ofChar c with
  | .right | .arabicDigit => true
  | _ => false

def lastClass? (classes : List Direction.Class) : Option Direction.Class :=
  (classes.reverse.dropWhile (· == .mark)).head?

/-- A label of a name with text from right to left keeps to one direction. -/
def directionAllowed (name : Text) : Bool :=
  let classes := name.map Direction.ofChar
  match classes with
  | [] => true
  | .left :: _ =>
    classes.all (fun k => k == .left || k == .europeanDigit || k == .neutral || k == .mark)
      && (lastClass? classes == some .left || lastClass? classes == some .europeanDigit)
  | .right :: _ =>
    classes.all (fun k => k != .left && k != .barred)
      && (lastClass? classes).any (fun k => k == .right || k == .europeanDigit || k == .arabicDigit)
      && !(classes.contains .europeanDigit && classes.contains .arabicDigit)
  | _ => false

/-! Labels. -/

/-- Whether a label beyond ASCII may be used, its direction apart. -/
def isAllowed (name : Text) : Bool :=
  (match name with
    | c :: _ => !(DomainMapping.marks.mem c)
    | [] => true)
    && joinersAllowed [] name

/-- Reads a mapped label. -/
def readLabel? (text : Text) : Option Label :=
  if mark.isPrefixOf text then
    let digits := text.drop mark.length
    if text.getLast? = some '-' || !isAscii text || digits.length > maxRead then none
    else
      match Punycode.decode? digits with
      | some name =>
        if Normalization.normalize name == name && name.all DomainMapping.isPlain && isAllowed name
        then some ⟨name, text⟩ else none
      | none => none
  else if isAscii text then some ⟨text, text⟩
  else if isAllowed text && text.length ≤ maxWritten then
    some ⟨text, mark ++ Punycode.encode text⟩
  else none

/-- A domain name in ASCII, unless something in it is not allowed. -/
def toAscii? (name : Text) : Option Text := do
  let mapped ← name.mapM DomainMapping.map?
  let found ← (Text.splitAt '.' (Normalization.normalize mapped.flatten)).mapM readLabel?
  if found.any (·.name.any isBarred) then none
  else if found.any (·.name.any isRightToLeft) && found.any (fun l => !(directionAllowed l.name)) then
    none
  else some (Text.joinWith '.' (found.map Label.written))

end DomainName

end Polyglot.Url
