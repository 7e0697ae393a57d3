import Polyglot.Text

/-!
Percent encoding. Each part of an address has a set of characters that may not stand in it as they
are; control characters and everything beyond ASCII belong to all of these sets.
-/
namespace Polyglot.Url

def isControl (c : Char) : Bool := c.toNat < 0x20 || c.toNat ≥ 0x7F

def inFragmentSet (c : Char) : Bool := isControl c || " \"<>`".toList.contains c

def inPathSet (c : Char) : Bool := inFragmentSet c || "#?\x7b\x7d".toList.contains c

def inQuerySet (special : Bool) (c : Char) : Bool :=
  isControl c || " \"#<>".toList.contains c || (special && c == '\'')

def inUserSet (c : Char) : Bool := inPathSet c || "/:;=@[\\]^|".toList.contains c

def hexDigit (n : Nat) : Char := Char.ofNat (if n < 10 then 0x30 + n else 0x37 + n)

def encodeByte (b : UInt8) : Text := ['%', hexDigit (b.toNat / 16), hexDigit (b.toNat % 16)]

/-- The bytes of every character of the set, in upper-case hexadecimal. -/
def encode (set : Char → Bool) (text : Text) : Text :=
  text.flatMap fun c => if set c then (String.utf8EncodeChar c).flatMap encodeByte else [c]

def digitOf? (c : Char) : Option Nat :=
  if c.isDigit then some (c.toNat - 0x30)
  else if 'a' ≤ c ∧ c ≤ 'f' then some (c.toNat - 0x61 + 10)
  else if 'A' ≤ c ∧ c ≤ 'F' then some (c.toNat - 0x41 + 10)
  else none

/-- The bytes that a text stands for; a percent sign without two digits is left as it is. -/
def decodeBytes : Text → List UInt8
  | [] => []
  | '%' :: a :: b :: rest =>
    match digitOf? a, digitOf? b with
    | some m, some n => UInt8.ofNat (16 * m + n) :: decodeBytes rest
    | _, _ => 0x25 :: decodeBytes (a :: b :: rest)
  | c :: rest => String.utf8EncodeChar c ++ decodeBytes rest

/-- The text that a text stands for, if its bytes are well formed. -/
def decode? (text : Text) : Option Text :=
  (String.fromUTF8? (decodeBytes text).toByteArray).map String.toList

end Polyglot.Url
