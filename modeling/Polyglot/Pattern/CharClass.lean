import Polyglot.Unicode.Classes
import Polyglot.Unicode.Folding

/-!
The classes of characters that patterns name: those in brackets with colons, and the shorthand
classes of escapes. A pattern reads either Unicode or only ASCII; a class of an ASCII pattern may
not reach beyond ASCII.
-/
namespace Polyglot.Pattern

open Unicode

/-- What characters a part of a pattern knows. -/
inductive Alphabet where
  | unicode
  | ascii
deriving DecidableEq

namespace Alphabet

/-- Whether a set may be a class. -/
def allows : Alphabet → CodeSet → Bool
  | unicode, _ => true
  | ascii, s => s.isAscii

/-- A set together with everything that differs from a member only in case. -/
def foldCase : Alphabet → CodeSet → CodeSet
  | unicode, s => s.foldCase
  | ascii, s => s.foldAsciiCase

/-- All characters that differ from one at most in case. -/
def variants : Alphabet → Char → CodeSet
  | unicode, c => caseVariants c
  | ascii, c => (CodeSet.single c).foldAsciiCase

/-- The complement of a set as a class, which only Unicode has. -/
def compl? : Alphabet → CodeSet → Option CodeSet
  | unicode, s => some s.compl
  | ascii, _ => none

end Alphabet

/-- The classes named inside brackets, over characters below 128. -/
def bracketClass? : String → Option CodeSet
  | "alnum" => some (.ofRanges [(0x30, 0x39), (0x41, 0x5A), (0x61, 0x7A)])
  | "alpha" => some (.ofRanges [(0x41, 0x5A), (0x61, 0x7A)])
  | "ascii" => some (.range 0 0x7F)
  | "blank" => some (.ofRanges [(0x09, 0x09), (0x20, 0x20)])
  | "cntrl" => some (.ofRanges [(0x00, 0x1F), (0x7F, 0x7F)])
  | "digit" => some (.range 0x30 0x39)
  | "graph" => some (.range 0x21 0x7E)
  | "lower" => some (.range 0x61 0x7A)
  | "print" => some (.range 0x20 0x7E)
  | "punct" => some (.ofRanges [(0x21, 0x2F), (0x3A, 0x40), (0x5B, 0x60), (0x7B, 0x7E)])
  | "space" => some (.ofRanges [(0x09, 0x0D), (0x20, 0x20)])
  | "upper" => some (.range 0x41 0x5A)
  | "word" => some (.ofRanges [(0x30, 0x39), (0x41, 0x5A), (0x5F, 0x5F), (0x61, 0x7A)])
  | "xdigit" => some (.ofRanges [(0x30, 0x39), (0x41, 0x46), (0x61, 0x66)])
  | _ => none

/-- The class of digits, blanks or word characters, by the small letter of its escape. -/
def shorthandClass? : Alphabet → Char → Option CodeSet
  | .unicode, 'd' => some digits
  | .unicode, 's' => some blanks
  | .unicode, 'w' => some wordChars
  | .ascii, 'd' => bracketClass? "digit"
  | .ascii, 's' => bracketClass? "space"
  | .ascii, 'w' => bracketClass? "word"
  | _, _ => none

end Polyglot.Pattern
