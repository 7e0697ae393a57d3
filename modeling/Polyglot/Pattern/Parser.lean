import Polyglot.Pattern.Footprint
import Polyglot.Unicode.Property

/-!
Reading the text of a pattern. The reader keeps a stack of open groups; inside one it collects
alternatives and the sequence at hand. Flags hold from where they are set to the end of the
enclosing group. Look-around and references to groups are refused, and so are patterns that are
nested too deeply or whose machine is too large.
-/
namespace Polyglot.Pattern

open Unicode

structure Flags where
  caseless : Bool := false
  multiLine : Bool := false
  dotAll : Bool := false
  swapGreed : Bool := false
  verbose : Bool := false
  crlf : Bool := false
  alphabet : Alphabet := .unicode

def Flags.isAscii (f : Flags) : Bool := f.alphabet = .ascii

/-- Skips blanks, and comments up to their line feed. -/
def skipBlanks : Bool → List Char → List Char
  | _, [] => []
  | true, c :: rest => skipBlanks (c != '\n') rest
  | false, c :: rest =>
    if isBlank c then skipBlanks false rest
    else if c = '#' then skipBlanks true rest
    else c :: rest

/-- What may be skipped in verbose patterns. -/
def Flags.skip (f : Flags) (cs : List Char) : List Char :=
  if f.verbose then skipBlanks false cs else cs

/-- What an escape or a plain character stands for. -/
inductive Primitive where
  | literal (c : Char)
  | set (s : CodeSet)
  | assertion (a : Assertion)

def isMeta (c : Char) : Bool := "\\.+*?()|[]\x7b\x7d^$#&-~".toList.contains c

/-- Characters that an escape leaves as they are: all of ASCII but letters, digits and angle
brackets. -/
def isEscapable (c : Char) : Bool :=
  isMeta c || (isAscii c && !c.isAlphanum && c != '<' && c != '>')

def hexValue? (c : Char) : Option Nat :=
  if '0' ≤ c ∧ c ≤ '9' then some (c.toNat - '0'.toNat)
  else if 'a' ≤ c ∧ c ≤ 'f' then some (c.toNat - 'a'.toNat + 10)
  else if 'A' ≤ c ∧ c ≤ 'F' then some (c.toNat - 'A'.toNat + 10)
  else none

def charOfPoint? (n : Nat) : Option Char := if n.isValidChar then some (Char.ofNat n) else none

/-- Hexadecimal digits up to the closing brace. -/
def readBracedHex (f : Flags) : Nat → Option Nat → List Char → Option (Nat × List Char)
  | 0, _, _ => none
  | fuel + 1, acc, cs =>
    match f.skip cs with
    | [] => none
    | c :: rest =>
      if c = '\x7d' then acc.map (·, f.skip rest)
      else (hexValue? c).bind fun d => readBracedHex f fuel (some (16 * acc.getD 0 + d)) rest

/-- Exactly so many hexadecimal digits. -/
def readFixedHex (f : Flags) : Nat → Nat → List Char → Option (Nat × List Char)
  | 0, acc, cs => some (acc, cs)
  | n + 1, acc, cs =>
    match f.skip cs with
    | [] => none
    | c :: rest => (hexValue? c).bind fun d => readFixedHex f n (16 * acc + d) rest

def readHex (f : Flags) (digits : Nat) (cs : List Char) : Option (Primitive × List Char) :=
  match f.skip cs with
  | [] => none
  | c :: rest =>
    if c = '\x7b' then
      (readBracedHex f (rest.length + 1) none rest).bind fun (n, rest) =>
        (charOfPoint? n).map fun c => (.literal c, rest)
    else
      (readFixedHex f digits 0 (c :: rest)).bind fun (n, rest) =>
        if digits == 2 && f.isAscii && n > 0x7F then none
        else (charOfPoint? n).map fun c => (.literal c, f.skip rest)

/-- The name between braces, blanks left out in verbose patterns. -/
def readBracedName (f : Flags) : Nat → List Char → List Char → Option (List Char × List Char)
  | 0, _, _ => none
  | fuel + 1, acc, cs =>
    match f.skip cs with
    | [] => none
    | c :: rest =>
      if c = '\x7d' then some (acc.reverse, rest) else readBracedName f fuel (c :: acc) rest

/-- A text cut in two at the first place where it goes on with a mark. -/
def cutAt? (mark : List Char) : List Char → Option (List Char × List Char)
  | [] => none
  | c :: rest =>
    if mark.isPrefixOf (c :: rest) then some ([], (c :: rest).drop mark.length)
    else (cutAt? mark rest).map fun (front, back) => (c :: front, back)

/-- A property by its name, or by the property and its value; `!=` negates. -/
def propertyNamed? (name : List Char) : Option (Bool × CodeSet) :=
  match cutAt? ['!', '='] name with
  | some (k, v) => (Property.valued? k v).map (true, ·)
  | none =>
    match (cutAt? [':'] name) <|> (cutAt? ['='] name) with
    | some (k, v) => (Property.valued? k v).map (false, ·)
    | none => (Property.named? name).map (false, ·)

def foldIf (f : Flags) (s : CodeSet) : CodeSet :=
  if f.caseless then f.alphabet.foldCase s else s

/-- A set or its complement, as far as the alphabet allows it for a class. -/
def complIf (f : Flags) (negated : Bool) (s : CodeSet) : Option CodeSet :=
  if negated then f.alphabet.compl? s else if f.alphabet.allows s then some s else none

def readProperty (f : Flags) (negated : Bool) (cs : List Char) : Option (Primitive × List Char) :=
  if f.isAscii then none
  else
    match f.skip cs with
    | [] => none
    | c :: rest =>
      if c = '\x7b' then
        (readBracedName f (rest.length + 1) [] rest).bind fun (name, rest) =>
          (propertyNamed? name).bind fun (flip, s) =>
            (complIf f (negated != flip) (foldIf f s)).map fun s => (.set s, rest)
      else if c = '\\' then none
      else
        (Property.named? [c]).bind fun s =>
          (complIf f negated (foldIf f s)).map fun s => (.set s, f.skip rest)

/-- The shorthand classes; a capital letter negates. -/
def shorthand? (f : Flags) (c : Char) : Option CodeSet :=
  (shorthandClass? f.alphabet c.toLower).bind (complIf f c.isUpper)

def isEdgeName (c : Char) : Bool := c.isAlpha || c == '-'

def readEdgeName (f : Flags) : Nat → List Char → List Char → List Char × List Char
  | 0, acc, cs => (acc.reverse, cs)
  | fuel + 1, acc, cs =>
    match cs with
    | [] => (acc.reverse, [])
    | c :: rest =>
      if isEdgeName c then readEdgeName f fuel (c :: acc) (f.skip rest) else (acc.reverse, c :: rest)

/-- After a word edge, a brace with a name selects its kind; any other brace is left for a
counted repetition. -/
def readWordEdge (f : Flags) (cs : List Char) : Option (Assertion × List Char) :=
  let ascii := f.isAscii
  match cs with
  | '\x7b' :: rest =>
    match f.skip rest with
    | [] => none
    | c :: more =>
      if !isEdgeName c then some (.wordEdge ascii, cs)
      else
        match readEdgeName f (more.length + 1) [] (c :: more) with
        | (name, '\x7d' :: rest) =>
          match String.ofList name with
          | "start" => some (.wordStart ascii, rest)
          | "end" => some (.wordEnd ascii, rest)
          | "start-half" => some (.wordStartHalf ascii, rest)
          | "end-half" => some (.wordEndHalf ascii, rest)
          | _ => none
        | _ => none
  | _ => some (.wordEdge ascii, cs)

/-- What follows a backslash. -/
def readEscape (f : Flags) : List Char → Option (Primitive × List Char)
  | [] => none
  | c :: rest =>
    match c with
    | 'x' => readHex f 2 rest
    | 'u' => readHex f 4 rest
    | 'U' => readHex f 8 rest
    | 'p' => readProperty f false rest
    | 'P' => readProperty f true rest
    | 'd' | 'D' | 's' | 'S' | 'w' | 'W' => (shorthand? f c).map fun s => (.set s, rest)
    | 'a' => some (.literal (Char.ofNat 0x07), rest)
    | 'f' => some (.literal (Char.ofNat 0x0C), rest)
    | 't' => some (.literal '\t', rest)
    | 'n' => some (.literal '\n', rest)
    | 'r' => some (.literal '\r', rest)
    | 'v' => some (.literal (Char.ofNat 0x0B), rest)
    | 'A' => some (.assertion .textStart, rest)
    | 'z' => some (.assertion .textEnd, rest)
    | 'b' => (readWordEdge f rest).map fun (a, rest) => (.assertion a, rest)
    | 'B' => some (.assertion (.noWordEdge f.isAscii), rest)
    | '<' => some (.assertion (.wordStart f.isAscii), rest)
    | '>' => some (.assertion (.wordEnd f.isAscii), rest)
    | _ => if isEscapable c then some (.literal c, rest) else none

/-! Classes in brackets. -/

/-- A set together with how deeply its description is nested. -/
structure NestedSet where
  set : CodeSet
  depth : Nat

/-- The items read so far: their union, their number, and how deeply they are nested. -/
structure ItemSet where
  set : CodeSet := CodeSet.empty
  count : Nat := 0
  depth : Nat := 0

def ItemSet.add (items : ItemSet) (s : NestedSet) : ItemSet :=
  ⟨items.set.union s.set, items.count + 1, Nat.max items.depth s.depth⟩

/-- Several items are nested in their union. -/
def ItemSet.close (items : ItemSet) : NestedSet :=
  ⟨items.set, if items.count ≤ 1 then items.depth else items.depth + 1⟩

inductive SetOp where
  | inter
  | diff
  | symDiff

def SetOp.apply : SetOp → CodeSet → CodeSet → CodeSet
  | inter, a, b => a.inter b
  | diff, a, b => a.diff b
  | symDiff, a, b => a.symDiff b

/-- What stands left of an operator, with the operator, joined to what stands right of it. -/
def joinPending (f : Flags) : Option (SetOp × NestedSet) → NestedSet → NestedSet
  | none, s => s
  | some (op, left), right =>
    ⟨op.apply (foldIf f left.set) (foldIf f right.set), Nat.max left.depth right.depth + 1⟩

/-- What a class in brackets with colons looks like: whether it is negated, and its name. -/
def bracketName? (cs : List Char) : Option (Bool × String × List Char) :=
  match cs with
  | ':' :: rest =>
    let (negated, rest) := match rest with | '^' :: r => (true, r) | r => (false, r)
    match rest.span (· != ':') with
    | (name, ':' :: ']' :: rest) => some (negated, String.ofList name, rest)
    | _ => none
  | _ => none

/-- A class such as `[:digit:]`, read behind its opening bracket. The inner answer is `none` if
the class is not allowed. -/
def readBracketName? (f : Flags) (cs : List Char) : Option (Option CodeSet × List Char) :=
  (bracketName? cs).bind fun (negated, name, rest) =>
    (bracketClass? name).map fun s => (complIf f negated (foldIf f s), rest)

def readClassItem (f : Flags) : List Char → Option (Primitive × List Char)
  | [] => none
  | '\\' :: rest => readEscape f rest
  | c :: rest => some (.literal c, rest)

/-- The characters between two, if they are of the alphabet. -/
def charRange? (f : Flags) (a b : Char) : Option CodeSet :=
  let s := CodeSet.range a.toNat b.toNat
  if a ≤ b && f.alphabet.allows s then some s else none

/-- One item of a class: a character, a range of them, or a shorthand class. -/
def readClassRange (f : Flags) (cs : List Char) : Option (CodeSet × List Char) :=
  (readClassItem f cs).bind fun (first, rest) =>
    let alone : List Char → Option (CodeSet × List Char) := fun rest =>
      match first with
      | .literal c => (charRange? f c c).map (·, rest)
      | .set s => some (s, rest)
      | .assertion _ => none
    match f.skip rest with
    | [] => none
    | '-' :: more =>
      match f.skip more with
      | ']' :: _ | '-' :: _ => alone ('-' :: more)
      | more =>
        (readClassItem f more).bind fun (second, rest) =>
          match first, second with
          | .literal a, .literal b => (charRange? f a b).map (·, rest)
          | _, _ => none
    | rest => alone rest

def dash : NestedSet := ⟨CodeSet.single '-', 0⟩

/-- Dashes in front of the other items stand for themselves. -/
def readDashes (f : Flags) : Nat → ItemSet → List Char → ItemSet × List Char
  | 0, acc, cs => (acc, cs)
  | fuel + 1, acc, cs =>
    match cs with
    | '-' :: rest => readDashes f fuel (acc.add dash) (f.skip rest)
    | cs => (acc, cs)

mutual

/-- A class behind its opening bracket. -/
def readClass (f : Flags) : Nat → List Char → Option (NestedSet × List Char)
  | 0, _ => none
  | fuel + 1, cs =>
    let (negated, cs) :=
      match f.skip cs with
      | '^' :: rest => (true, f.skip rest)
      | cs => (false, cs)
    let (items, rest) := readDashes f cs.length {} cs
    let (items, rest) :=
      match cs, rest with
      | ']' :: _, ']' :: rest => (items.add ⟨CodeSet.single ']', 0⟩, rest)
      | _, rest => (items, rest)
    (readClassBody f fuel none items rest).bind fun (s, rest) =>
      (complIf f negated (foldIf f s.set)).map fun set => (⟨set, s.depth + 1⟩, rest)

/-- The items of a class up to its closing bracket. -/
def readClassBody (f : Flags) : Nat → Option (SetOp × NestedSet) → ItemSet → List Char →
    Option (NestedSet × List Char)
  | 0, _, _, _ => none
  | fuel + 1, pending, items, cs =>
    match f.skip cs with
    | [] => none
    | '[' :: rest =>
      match readBracketName? f rest with
      | some (some s, rest) => readClassBody f fuel pending (items.add ⟨s, 0⟩) rest
      | some (none, _) => none
      | none =>
        match readClass f fuel rest with
        | some (s, rest) => readClassBody f fuel pending (items.add s) rest
        | none => none
    | ']' :: rest => some (joinPending f pending items.close, rest)
    | '&' :: '&' :: rest =>
      readClassBody f fuel (some (.inter, joinPending f pending items.close)) {} rest
    | '-' :: '-' :: rest =>
      readClassBody f fuel (some (.diff, joinPending f pending items.close)) {} rest
    | '~' :: '~' :: rest =>
      readClassBody f fuel (some (.symDiff, joinPending f pending items.close)) {} rest
    | cs =>
      match readClassRange f cs with
      | some (s, rest) => readClassBody f fuel pending (items.add ⟨s, 0⟩) rest
      | none => none

end

/-! Groups and repetitions. -/

/-- Reads flags up to the colon or parenthesis that ends them; tells which, and whether any was
given. A flag may stand once, the minus sign too, and something has to follow it. -/
def readFlags : Nat → Flags → Bool → List Char → Bool → List Char →
    Option (Flags × List Char × Char × List Char)
  | 0, _, _, _, _, _ => none
  | fuel + 1, f, on, seen, dangling, cs =>
    match cs with
    | [] => none
    | c :: rest =>
      if c = ':' ∨ c = ')' then if dangling then none else some (f, seen, c, rest)
      else if seen.contains c then none
      else
        let seen := c :: seen
        match c with
        | '-' => readFlags fuel f false seen true rest
        | 'i' => readFlags fuel { f with caseless := on } on seen false rest
        | 'm' => readFlags fuel { f with multiLine := on } on seen false rest
        | 's' => readFlags fuel { f with dotAll := on } on seen false rest
        | 'U' => readFlags fuel { f with swapGreed := on } on seen false rest
        | 'u' => readFlags fuel { f with alphabet := if on then .unicode else .ascii } on seen false rest
        | 'R' => readFlags fuel { f with crlf := on } on seen false rest
        | 'x' => readFlags fuel { f with verbose := on } on seen false rest
        | _ => none

def isGroupNameStart (c : Char) : Bool := c == '_' || isAlphabetic c

def isGroupNamePart (c : Char) : Bool :=
  c == '_' || c == '.' || c == '[' || c == ']' || isAlphanumeric c

def readGroupName (cs : List Char) : Option (String × List Char) :=
  match cs.span (· != '>') with
  | (first :: more, '>' :: rest) =>
    if isGroupNameStart first && more.all isGroupNamePart then
      some (String.ofList (first :: more), rest)
    else none
  | _ => none

/-- An expression together with how deeply its description is nested. -/
structure Piece where
  expr : Expr
  depth : Nat

/-- What a sequence holds: expressions, and places where flags were set, which cannot be
repeated. -/
inductive Item where
  | piece (p : Piece)
  | setting

namespace Item

def expr? : Item → Option Expr
  | piece p => some p.expr
  | setting => none

def depth : Item → Nat
  | piece p => p.depth
  | setting => 0

end Item

/-- How deeply several parts are nested: one part by itself, more of them in what joins them. -/
def joinedDepth : List Nat → Nat
  | [] => 0
  | [d] => d
  | ds => ds.foldl Nat.max 0 + 1

/-- An enclosing group: what was read of it before the inner one was opened, the flags to go
back to, and the number of the inner group if it captures. -/
structure Frame where
  items : List Item
  alternatives : List Piece
  flags : Flags
  index : Option Nat

/-- Items and alternatives are kept latest first. -/
structure ReadState where
  flags : Flags := {}
  items : List Item := []
  alternatives : List Piece := []
  frames : List Frame := []
  groups : Nat := 0
  names : List (String × Nat) := []

namespace ReadState

def push (s : ReadState) (e : Expr) (depth : Nat := 0) : ReadState :=
  { s with items := .piece ⟨e, depth⟩ :: s.items }

def sequence (s : ReadState) : Piece :=
  ⟨Expr.concat (s.items.reverse.filterMap Item.expr?), joinedDepth (s.items.map Item.depth)⟩

def expression (s : ReadState) : Piece :=
  let arms := s.alternatives.reverse ++ [s.sequence]
  ⟨Expr.alternation (arms.map Piece.expr), joinedDepth (arms.map Piece.depth)⟩

def openGroup (s : ReadState) (index : Option Nat) (flags : Flags) : ReadState :=
  { s with
    flags := flags
    items := []
    alternatives := []
    frames := ⟨s.items, s.alternatives, s.flags, index⟩ :: s.frames }

def openCapture (s : ReadState) : ReadState :=
  { s.openGroup (some (s.groups + 1)) s.flags with groups := s.groups + 1 }

def closeGroup (s : ReadState) : Option ReadState :=
  match s.frames with
  | [] => none
  | frame :: frames =>
    let inner := s.expression
    let e := match frame.index with
      | some i => .group i inner.expr
      | none => inner.expr
    some { s with
      flags := frame.flags
      items := .piece ⟨e, inner.depth + 1⟩ :: frame.items
      alternatives := frame.alternatives
      frames := frames }

/-- Repeats the latest item, if it can be repeated. -/
def repeatLast (s : ReadState) (min : Nat) (max : Option Nat) (greedy : Bool) :
    Option ReadState :=
  match s.items with
  | .piece p :: items =>
    let e := Expr.repeated min max (greedy != s.flags.swapGreed) p.expr
    some { s with items := .piece ⟨e, p.depth + 1⟩ :: items }
  | _ => none

end ReadState

/-- A question mark behind a repetition makes it prefer fewer rounds. -/
def readLazy : List Char → Bool × List Char
  | '?' :: rest => (false, rest)
  | rest => (true, rest)

def readDigits (f : Flags) : Nat → Option Nat → List Char → Option Nat × List Char
  | 0, acc, cs => (acc, cs)
  | fuel + 1, acc, cs =>
    match cs with
    | [] => (acc, [])
    | c :: rest =>
      if c.isDigit then
        readDigits f fuel (some (10 * acc.getD 0 + (c.toNat - '0'.toNat))) (f.skip rest)
      else (acc, c :: rest)

def skipPlain (f : Flags) : Nat → List Char → List Char
  | 0, cs => cs
  | fuel + 1, cs =>
    match cs with
    | [] => []
    | c :: rest => if isBlank c then skipPlain f fuel (f.skip rest) else c :: rest

/-- A count of rounds: blanks around it do not matter, and it fits 32 bits. The first part of the
answer tells whether there was one. -/
def readCount (f : Flags) (cs : List Char) : Option (Option Nat × List Char) :=
  let (n, rest) := readDigits f (cs.length + 1) none (cs.dropWhile isBlank)
  let rest := skipPlain f (rest.length + 1) rest
  match n with
  | some n => if n < 4294967296 then some (some n, rest) else none
  | none => some (none, rest)

/-- The bounds of a counted repetition behind its brace. -/
def readBounds (f : Flags) (cs : List Char) : Option ((Nat × Option Nat) × List Char) :=
  match f.skip cs with
  | [] => none
  | cs =>
    (readCount f cs).bind fun (low, rest) =>
      match rest with
      | ',' :: rest =>
        match f.skip rest with
        | [] => none
        | '\x7d' :: rest => low.map fun m => ((m, none), rest)
        | rest =>
          (readCount f rest).bind fun (high, rest) =>
            match low, high, rest with
            | some m, some n, '\x7d' :: rest => if m ≤ n then some ((m, some n), rest) else none
            | _, _, _ => none
      | '\x7d' :: rest => low.map fun m => ((m, some m), rest)
      | _ => none

def literal (f : Flags) (c : Char) : Expr :=
  if f.caseless then .ofSet (f.alphabet.variants c) else .text [c]

def anyChar (f : Flags) : Option Expr :=
  let excluded : CodeSet :=
    if f.dotAll then .empty
    else if f.crlf then .ofRanges [(0x0A, 0x0A), (0x0D, 0x0D)]
    else .single '\n'
  (f.alphabet.compl? excluded).map .set

def Primitive.toExpr (f : Flags) : Primitive → Expr
  | literal c => Pattern.literal f c
  | set s => .ofSet s
  | assertion a => .assertion a

/-- A group behind its opening parenthesis. -/
def readGroup (s : ReadState) (cs : List Char) : Option (ReadState × List Char) :=
  let named : List Char → Option (ReadState × List Char) := fun cs =>
    (readGroupName cs).bind fun (name, rest) =>
      if s.names.any (·.1 == name) then none
      else some ({ s.openCapture with names := (name, s.groups + 1) :: s.names }, rest)
  match s.flags.skip cs with
  | '?' :: '=' :: _ | '?' :: '!' :: _ | '?' :: '<' :: '=' :: _ | '?' :: '<' :: '!' :: _ => none
  | '?' :: 'P' :: '<' :: rest => named rest
  | '?' :: '<' :: rest => named rest
  | '?' :: rest =>
    (readFlags (rest.length + 1) s.flags true [] false rest).bind fun (flags, seen, c, rest) =>
      if c = ')' then
        if seen.isEmpty then none
        else some ({ s with flags := flags, items := .setting :: s.items }, rest)
      else some (s.openGroup none flags, rest)
  | rest => some (s.openCapture, rest)

/-- One element of a pattern. -/
def readElement (s : ReadState) (c : Char) (rest : List Char) :
    Option (ReadState × List Char) :=
  let f := s.flags
  let rounds := fun (min : Nat) (max : Option Nat) =>
    let (greedy, rest) := readLazy rest
    (s.repeatLast min max greedy).map (·, rest)
  match c with
  | '(' => readGroup s rest
  | ')' => s.closeGroup.map (·, rest)
  | '|' => some ({ s with items := [], alternatives := s.sequence :: s.alternatives }, rest)
  | '[' =>
    (readClass f (2 * rest.length + 2) rest).map fun (c, rest) =>
      (s.push (.ofSet c.set) c.depth, rest)
  | '?' => rounds 0 (some 1)
  | '*' => rounds 0 none
  | '+' => rounds 1 none
  | '\x7b' =>
    match s.items with
    | .piece _ :: _ =>
      (readBounds f rest).bind fun ((min, max), rest) =>
        let (greedy, rest) := readLazy (f.skip rest)
        (s.repeatLast min max greedy).map (·, rest)
    | _ => none
  | '\\' => (readEscape f rest).map fun (p, rest) => (s.push (p.toExpr f), rest)
  | '.' => (anyChar f).map fun e => (s.push e, rest)
  | '^' => some (s.push (.assertion (if f.multiLine then .lineStart f.crlf else .textStart)), rest)
  | '$' => some (s.push (.assertion (if f.multiLine then .lineEnd f.crlf else .textEnd)), rest)
  | c => some (s.push (literal f c), rest)

def readElements : Nat → ReadState → List Char → Option ReadState
  | 0, _, _ => none
  | fuel + 1, s, cs =>
    match s.flags.skip cs with
    | [] => some s
    | c :: rest => (readElement s c rest).bind fun (s, rest) => readElements fuel s rest

/-- What a pattern says: its expression, the number of its groups and their names. -/
structure Reading where
  expr : Expr
  groups : Nat
  names : List (String × Nat)

/-- Patterns that are nested more deeply are refused. -/
def maxDepth : Nat := 250

def read? (pattern : String) : Option Reading :=
  let cs := pattern.toList
  (readElements (cs.length + 1) {} cs).bind fun s =>
    let whole := s.expression
    if s.frames.isEmpty && whole.depth ≤ maxDepth && whole.expr.fits then
      some ⟨whole.expr, s.groups, s.names⟩
    else none

end Polyglot.Pattern
