/-!
A text is a list of characters. Places in it are counted in characters, in bytes of its UTF-8
form, or in units of its UTF-16 form; lines end at a line feed and there is always a last line,
which may be empty.
-/
namespace Polyglot

abbrev Text := List Char

namespace Text

/-- The number of bytes of the UTF-8 form. -/
def bytes : Text → Nat
  | [] => 0
  | c :: rest => c.utf8Size + bytes rest

/-- The longest beginning of a text that takes at most `limit` bytes. -/
def upTo (limit : Nat) : Text → Text
  | [] => []
  | c :: rest => if c.utf8Size ≤ limit then c :: upTo (limit - c.utf8Size) rest else []

/-- Put a character in front of the first line. -/
def consLine (c : Char) : List Text → List Text
  | [] => [[c]]
  | line :: rest => (c :: line) :: rest

/-- The lines of a text, without their line feeds. -/
def lines : Text → List Text
  | [] => [[]]
  | c :: rest => if c = '\n' then [] :: lines rest else consLine c (lines rest)

/-- Lines put together with a line feed between any two. -/
def unlines (ls : List Text) : Text := List.intercalate ['\n'] ls

/-- The parts of a text between occurrences of a character. -/
def splitAt (separator : Char) : Text → List Text
  | [] => [[]]
  | c :: rest =>
    if c = separator then [] :: splitAt separator rest else consLine c (splitAt separator rest)

/-- Parts put together with a character between any two. -/
def joinWith (separator : Char) (parts : List Text) : Text := List.intercalate [separator] parts

/-- The characters from index `start` up to index `stop`. -/
def slice (text : Text) (start stop : Nat) : Text := (text.drop start).take (stop - start)

theorem bytes_append (s t : Text) : bytes (s ++ t) = bytes s + bytes t := by
  induction s with
  | nil => simp [bytes]
  | cons c rest ih =>
    simp only [List.cons_append, bytes, ih]
    omega

theorem upTo_append_drop (limit : Nat) (text : Text) :
    upTo limit text ++ text.drop (upTo limit text).length = text := by
  induction text generalizing limit with
  | nil => rfl
  | cons c rest ih =>
    unfold upTo
    split
    · simp [ih]
    · simp

theorem bytes_upTo_le (limit : Nat) (text : Text) : bytes (upTo limit text) ≤ limit := by
  induction text generalizing limit with
  | nil => simp [upTo, bytes]
  | cons c rest ih =>
    unfold upTo
    split
    · have := ih (limit - c.utf8Size)
      simp only [bytes]
      omega
    · simp [bytes]

theorem lines_ne_nil (text : Text) : lines text ≠ [] := by
  induction text with
  | nil => simp [lines]
  | cons c rest ih =>
    unfold lines
    split
    · simp
    · unfold consLine
      split <;> simp

end Text

end Polyglot
