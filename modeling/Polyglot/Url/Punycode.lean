import Polyglot.Text

/-!
Names beyond ASCII written in ASCII: the ASCII characters first, then, behind a hyphen, where the
others go. These are taken in the order of their code points, each given by its distance from the
one before, a number of 36 digits with the lowest first whose last digit is below a threshold.
-/
namespace Polyglot.Url

namespace Punycode

def digitChar (d : Nat) : Char :=
  if d < 26 then Char.ofNat (0x61 + d) else Char.ofNat (0x30 + (d - 26))

def digitValue? (c : Char) : Option Nat :=
  if c.isLower then some (c.toNat - 0x61)
  else if c.isUpper then some (c.toNat - 0x41)
  else if c.isDigit then some (c.toNat - 0x30 + 26)
  else none

/-- Below which a digit at `place` is the last one. Places count 36, 72 and so on. -/
def threshold (place bias : Nat) : Nat :=
  if place ≤ bias then 1 else if bias + 26 ≤ place then 26 else place - bias

theorem threshold_pos (place bias : Nat) : 1 ≤ threshold place bias := by
  unfold threshold; split
  · omega
  · split <;> omega

def damp (delta place : Nat) : Nat × Nat :=
  if 455 < delta then damp (delta / 35) (place + 36) else (delta, place)
termination_by delta

/-- The thresholds that suit a distance like the last one. -/
def adapt (delta count : Nat) (first : Bool) : Nat :=
  let delta := if first then delta / 700 else delta / 2
  let (delta, place) := damp (delta + delta / count) 0
  place + 36 * delta / (delta + 38)

/-! Writing. -/

def writeNumber (bias place n : Nat) : Text :=
  let t := threshold place bias
  if n < t then [digitChar n]
  else digitChar (t + (n - t) % (36 - t)) :: writeNumber bias (place + 36) ((n - t) / (36 - t))
termination_by n
decreasing_by
  have := threshold_pos place bias
  exact Nat.lt_of_le_of_lt (Nat.div_le_self _ _) (by omega)

/-- What is written: the text so far, the distance from the last place, the thresholds, and how
many characters are placed. -/
structure Writer where
  text : Text
  delta : Nat
  bias : Nat
  placed : Nat

/-- Passes over a character while those of code point `n` are placed. -/
def Writer.pass (ascii n : Nat) (w : Writer) (c : Char) : Writer :=
  if c.toNat < n then { w with delta := w.delta + 1 }
  else if c.toNat = n then
    { text := w.text ++ writeNumber w.bias 36 w.delta
      delta := 0
      bias := adapt w.delta (w.placed + 1) (w.placed == ascii)
      placed := w.placed + 1 }
  else w

/-- Places the characters of the code points in a list; all below `n` are placed. -/
def Writer.place (name : Text) (ascii : Nat) : Writer → Nat → List Nat → Writer
  | w, _, [] => w
  | w, n, m :: rest =>
    let w := name.foldl (Writer.pass ascii m) { w with delta := w.delta + (m - n) * (w.placed + 1) }
    Writer.place name ascii { w with delta := w.delta + 1 } (m + 1) rest

def insertPoint (n : Nat) : List Nat → List Nat
  | [] => [n]
  | m :: rest => if n < m then n :: m :: rest else if n = m then m :: rest else m :: insertPoint n rest

def encode (name : Text) : Text :=
  let ascii := name.filter (·.toNat < 0x80)
  let points := name.foldl (fun points c =>
    if c.toNat < 0x80 then points else insertPoint c.toNat points) []
  let start := if ascii.isEmpty then [] else ascii ++ ['-']
  (Writer.place name ascii.length ⟨start, 0, 72, ascii.length⟩ 0x80 points).text

/-! Reading. -/

/-- Reads a number and adds it to `n`. The weights of its digits stay below 2³². -/
def readNumber? (bias : Nat) : Nat → Nat → Nat → Text → Option (Nat × Text)
  | _, _, _, [] => none
  | place, weight, n, c :: rest => do
    let d ← digitValue? c
    let n := n + d * weight
    let t := threshold place bias
    if d < t then some (n, rest)
    else if weight * (36 - t) < 0x100000000 then
      readNumber? bias (place + 36) (weight * (36 - t)) n rest
    else none

/-- Inserts characters into `name`. The last one inserted has the code point `n`, and `i` is the
place behind it; `fuel` bounds the numbers read. -/
def insertAll? : Nat → Nat → Nat → Nat → Text → Text → Option Text
  | _, _, _, _, name, [] => some name
  | 0, _, _, _, _, _ => none
  | fuel + 1, bias, n, i, name, digits => do
    let (j, rest) ← readNumber? bias 36 1 i digits
    let count := name.length + 1
    let n := n + j / count
    if n.isValidChar then
      insertAll? fuel (adapt (j - i) count (i == 0)) n (j % count + 1)
        (name.take (j % count) ++ [Char.ofNat n] ++ name.drop (j % count)) rest
    else none

/-- The name that is written in ASCII; a hyphen at the start divides nothing. -/
def decode? (text : Text) : Option Text :=
  match text.reverse.span (· != '-') with
  | (digits, _ :: first :: more) =>
    insertAll? text.length 72 0x80 0 (first :: more).reverse digits.reverse
  | _ => insertAll? text.length 72 0x80 0 [] text

end Punycode

end Polyglot.Url
