import Polyglot.Unicode.BinaryProperty

/-!
Character classes: blanks, digits and the characters of words and names. The characters below 128
are told apart directly.
-/
namespace Polyglot.Unicode

def isAscii (c : Char) : Bool := c.toNat < 128

def blanks : CodeSet := BinaryProperty.whiteSpace.eval

/-- The characters with the property White_Space. -/
def isBlank (c : Char) : Bool := blanks.mem c

def alphabetics : CodeSet := BinaryProperty.alphabetic.eval

/-- What can start a name. -/
def isAlphabetic (c : Char) : Bool := if isAscii c then c.isAlpha else alphabetics.mem c

def numerals : CodeSet := Category.set Category.numbers

/-- What can continue a name. -/
def isAlphanumeric (c : Char) : Bool :=
  if isAscii c then c.isAlphanum else alphabetics.mem c || numerals.mem c

/-- The decimal digits of all scripts. -/
def digits : CodeSet := Category.set [.decimal]

/-- Alphabetic characters, marks, decimal digits, connectors and the two joiners. -/
def wordChars : CodeSet :=
  (alphabetics.union (Category.set (Category.marks ++ [.decimal, .connector]))).union
    BinaryProperty.joinControl.eval

def isWord (c : Char) : Bool :=
  if isAscii c then c.isAlphanum || c == '_' else wordChars.mem c

end Polyglot.Unicode
