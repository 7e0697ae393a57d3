import Polyglot.Settings.DateTime
import Polyglot.Text
import Polyglot.Value

/-!
TOML documents. Tables may be opened by a header, by a dotted key or implicitly on the way to
another one, and these must not be mixed up: a header opens a table once, and dotted keys extend
only what dotted keys opened.
-/
namespace Polyglot.Toml

/-! Blanks, comments and line ends. -/

def isSpace (c : Char) : Bool := c == ' ' || c == '\t'

def skipSpace (cs : Text) : Text := cs.dropWhile isSpace

/-- What may stand in a comment or a string on one line. -/
def isPlain (c : Char) : Bool := c == '\t' || (c.toNat ≥ 0x20 && c.toNat != 0x7F)

/-- Skips a comment, if there is one. -/
def skipComment (cs : Text) : Text :=
  match cs with
  | '#' :: rest => rest.dropWhile isPlain
  | _ => cs

def newline? : Text → Option Text
  | '\n' :: rest => some rest
  | '\r' :: '\n' :: rest => some rest
  | _ => none

/-- The text behind the end of a line. -/
def endLine? (cs : Text) : Option Text :=
  match skipComment (skipSpace cs) with
  | [] => some []
  | cs => newline? cs

/-- Skips blanks, comments and line ends. -/
def skipLines : Nat → Text → Text
  | 0, cs => cs
  | fuel + 1, cs =>
    match skipSpace cs with
    | [] => []
    | c :: rest =>
      match newline? (skipComment (c :: rest)) with
      | some rest => skipLines fuel rest
      | none => if c = '#' then skipComment (c :: rest) else c :: rest

/-! Strings. -/

def hexDigit? (c : Char) : Option Nat :=
  if c.isDigit then some (c.toNat - '0'.toNat)
  else if 'a' ≤ c ∧ c ≤ 'f' then some (c.toNat - 'a'.toNat + 10)
  else if 'A' ≤ c ∧ c ≤ 'F' then some (c.toNat - 'A'.toNat + 10)
  else none

def readHex? (digits : Nat) (cs : Text) : Option (Char × Text) := do
  let front := cs.take digits
  if front.length < digits then none
  let n ← front.foldlM (fun n c => (hexDigit? c).map (16 * n + ·)) 0
  if n.isValidChar then some (Char.ofNat n, cs.drop digits) else none

/-- What follows a backslash. -/
def readEscape? : Text → Option (Char × Text)
  | 'b' :: rest => some (Char.ofNat 0x08, rest)
  | 't' :: rest => some ('\t', rest)
  | 'n' :: rest => some ('\n', rest)
  | 'f' :: rest => some (Char.ofNat 0x0C, rest)
  | 'r' :: rest => some ('\r', rest)
  | '"' :: rest => some ('"', rest)
  | '\\' :: rest => some ('\\', rest)
  | 'u' :: rest => readHex? 4 rest
  | 'U' :: rest => readHex? 8 rest
  | _ => none

/-- A string with escapes, behind its opening quote. -/
def readBasic : Nat → Text → Option (Text × Text)
  | 0, _ => none
  | fuel + 1, cs =>
    match cs with
    | [] => none
    | '"' :: rest => some ([], rest)
    | '\\' :: rest =>
      (readEscape? rest).bind fun (c, rest) =>
        (readBasic fuel rest).map fun (s, rest) => (c :: s, rest)
    | c :: rest =>
      if isPlain c then (readBasic fuel rest).map fun (s, rest) => (c :: s, rest) else none

/-- A string without escapes, behind its opening quote. -/
def readLiteral (cs : Text) : Option (Text × Text) :=
  match cs.span fun c => c != '\'' && isPlain c with
  | (s, '\'' :: rest) => some (s, rest)
  | _ => none

/-- How many quotes a text starts with, up to five. -/
def countQuotes (quote : Char) (cs : Text) : Nat := ((cs.take 5).takeWhile (· == quote)).length

/-- Behind a backslash at the end of a line, blanks and line ends are skipped. -/
def skipFold : Nat → Text → Text
  | 0, cs => cs
  | fuel + 1, cs =>
    match newline? (skipSpace cs) with
    | some rest => skipFold fuel rest
    | none => skipSpace cs

/-- A string over several lines, behind its opening quotes. Line ends count as line feeds; up to
two quotes may stand before the closing three. -/
def readLong (quote : Char) (escapes : Bool) : Nat → Text → Option (Text × Text)
  | 0, _ => none
  | fuel + 1, cs =>
    let n := countQuotes quote cs
    if n ≥ 3 then some (List.replicate (n - 3) quote, cs.drop n)
    else
      match newline? cs with
      | some rest => (readLong quote escapes fuel rest).map fun (s, rest) => ('\n' :: s, rest)
      | none =>
        match cs with
        | [] => none
        | c :: rest =>
          if c = '\\' && escapes then
            match newline? (skipSpace rest) with
            | some below => readLong quote escapes fuel (skipFold fuel below)
            | none =>
              (readEscape? rest).bind fun (e, rest) =>
                (readLong quote escapes fuel rest).map fun (s, rest) => (e :: s, rest)
          else if isPlain c then
            (readLong quote escapes fuel rest).map fun (s, rest) => (c :: s, rest)
          else none

/-- A line end right behind the opening quotes does not count. -/
def dropFirstLineEnd (cs : Text) : Text := (newline? cs).getD cs

/-- A string of any of the four forms. -/
def readString? (cs : Text) : Option (String × Text) :=
  let fuel := cs.length + 1
  let read :=
    match cs with
    | '"' :: '"' :: '"' :: rest => readLong '"' true fuel (dropFirstLineEnd rest)
    | '\'' :: '\'' :: '\'' :: rest => readLong '\'' false fuel (dropFirstLineEnd rest)
    | '"' :: rest => readBasic fuel rest
    | '\'' :: rest => readLiteral rest
    | _ => none
  read.map fun (s, rest) => (String.ofList s, rest)

/-! Keys. -/

def isBareKey (c : Char) : Bool := c.isAlphanum || c == '_' || c == '-'

def readSimpleKey? (cs : Text) : Option (String × Text) :=
  match cs with
  | '"' :: rest => (readBasic (rest.length + 1) rest).map fun (s, rest) => (String.ofList s, rest)
  | '\'' :: rest => (readLiteral rest).map fun (s, rest) => (String.ofList s, rest)
  | cs =>
    match cs.span isBareKey with
    | ([], _) => none
    | (s, rest) => some (String.ofList s, rest)

/-- How many parts a key may have, and how many levels of values stand in each other. -/
def maxDepth : Nat := 79

/-- The parts of a key with dots between them, at most `limit`. -/
def readParts : Nat → Text → Option (List String × Text)
  | 0, _ => none
  | limit + 1, cs =>
    (readSimpleKey? (skipSpace cs)).bind fun (key, rest) =>
      match skipSpace rest with
      | '.' :: rest => (readParts limit rest).map fun (keys, rest) => (key :: keys, rest)
      | rest => some ([key], rest)

def readKey (cs : Text) : Option (List String × Text) := readParts maxDepth cs

/-! Numbers, dates and the words of a single token. -/

/-- Digits of a class, with single underscores between them. -/
def digits? (isDigit : Char → Bool) (cs : Text) : Option Text :=
  let rec go : Bool → Text → Option Text
    | afterDigit, [] => if afterDigit then some [] else none
    | afterDigit, '_' :: rest => if afterDigit then go false rest else none
    | _, c :: rest => if isDigit c then (go true rest).map (c :: ·) else none
  go false cs

def ofDigits (base : Nat) (cs : Text) : Nat := cs.foldl (fun n c => base * n + (hexDigit? c).getD 0) 0

def fits64 (n : Int) : Bool := -9223372036854775808 ≤ n && n < 9223372036854775808

/-- A whole decimal number: no zero in front of other digits. -/
def decimal? (cs : Text) : Option Nat :=
  (digits? Char.isDigit cs).bind fun ds =>
    if ds.length > 1 && ds.head? == some '0' then none else some (ofDigits 10 ds)

def isOctal (c : Char) : Bool := '0' ≤ c && c ≤ '7'

def isBinary (c : Char) : Bool := c == '0' || c == '1'

def splitSign : Text → Int × Text
  | '+' :: rest => (1, rest)
  | '-' :: rest => (-1, rest)
  | cs => (1, cs)

def int? (cs : Text) : Option Int :=
  let n : Option Int :=
    match cs with
    | '0' :: 'x' :: rest =>
      (digits? (fun c => (hexDigit? c).isSome) rest).map fun ds => (ofDigits 16 ds : Int)
    | '0' :: 'o' :: rest => (digits? isOctal rest).map fun ds => (ofDigits 8 ds : Int)
    | '0' :: 'b' :: rest => (digits? isBinary rest).map fun ds => (ofDigits 2 ds : Int)
    | cs =>
      let (sign, ds) := splitSign cs
      (decimal? ds).map fun n => sign * (n : Int)
  n.bind fun n => if fits64 n then some n else none

/-- The lowest number that is too large for a float of 64 bits. -/
def floatLimit : Nat := (Nat.pow 2 54 - 1) * Nat.pow 2 970

/-- Whether the number of some digits times a power of ten is too large for a float. -/
def overflows (digits : Text) (exponent : Int) : Bool :=
  let significant := digits.dropWhile (· == '0')
  let size := (significant.length : Int) + exponent
  if significant.isEmpty || size < 309 then false
  else if size > 309 then true
  else
    let n := ofDigits 10 significant
    if exponent < 0 then n ≥ floatLimit * Nat.pow 10 exponent.natAbs
    else n * Nat.pow 10 exponent.natAbs ≥ floatLimit

/-- The exponent of a float, behind its mark. -/
def exponent? : Text → Option Int
  | [] => some 0
  | c :: rest =>
    let (sign, ds) := splitSign rest
    if c = 'e' ∨ c = 'E' then
      (digits? Char.isDigit ds).map fun ds => sign * (ofDigits 10 ds : Int)
    else none

def isDigitMark (c : Char) : Bool := c.isDigit || c == '_'

/-- The digits behind a point, if there is one, and the rest. -/
def splitFraction (cs : Text) : Option Text × Text :=
  match cs with
  | '.' :: rest => (some (rest.takeWhile isDigitMark), rest.dropWhile isDigitMark)
  | cs => (none, cs)

/-- The digits and the power of ten of a number with a fraction, an exponent or both. -/
def scientific? (cs : Text) : Option (Text × Int) := do
  let whole := cs.takeWhile isDigitMark
  let (fraction, rest) := splitFraction (cs.dropWhile isDigitMark)
  let _ ← decimal? whole
  let above ← digits? Char.isDigit whole
  let below ← match fraction with
    | some ds => digits? Char.isDigit ds
    | none => some []
  let exponent ← exponent? rest
  if fraction.isSome || !rest.isEmpty then some (above ++ below, exponent - (below.length : Int))
  else none

/-- Whether a text is a number that is not whole, or one of the words for what is none. No number
above zero may be too large. -/
def isFloat (cs : Text) : Bool :=
  let (sign, cs) := splitSign cs
  if cs = "inf".toList ∨ cs = "nan".toList then true
  else
    match scientific? cs with
    | some (digits, exponent) => sign < 0 || !(overflows digits exponent)
    | none => false

def isTokenChar (c : Char) : Bool :=
  c.isAlphanum || c == '_' || c == '+' || c == '-' || c == '.' || c == ':'

/-- A date and a time may have a blank between them. -/
def splitToken (cs : Text) : Text × Text :=
  let (token, rest) := cs.span isTokenChar
  match rest with
  | ' ' :: c :: more =>
    if (DateTime.readDate? token).any (·.2.isEmpty) && c.isDigit then
      let (time, rest) := (c :: more).span isTokenChar
      (token ++ ' ' :: time, rest)
    else (token, rest)
  | rest => (token, rest)

/-- The name under which the text of a date is kept. -/
def dateField : String := "$__toml_private_datetime"

def tokenValue? (token : Text) : Option Value :=
  if token = "true".toList then some (.bool true)
  else if token = "false".toList then some (.bool false)
  else
    match int? token with
    | some n => some (.int n)
    | none =>
      if isFloat token then some .float
      else
        (DateTime.read? token).map fun moment =>
          .table [(dateField, .string (String.ofList moment.render))]

/-! Tables. -/

/-- An entry under construction. `opened` tables were opened by a header or written in braces,
`dotted` ones by a dotted key. -/
inductive Item where
  | value (v : Value)
  | table (opened dotted : Bool) (entries : List (String × Item))
  | tables (items : List (List (String × Item)))

abbrev Entries := List (String × Item)

def Entries.get? (entries : Entries) (key : String) : Option Item :=
  (entries.find? (·.1 = key)).map (·.2)

/-- Replaces or adds an entry. -/
def Entries.set (entries : Entries) (key : String) (item : Item) : Entries :=
  if entries.any (·.1 = key) then entries.map fun e => if e.1 = key then (key, item) else e
  else entries ++ [(key, item)]

/-- Works on the table at a path, opening tables on the way; of a list of tables the last is
meant. -/
def descend (work : Entries → Option Entries) : List String → Entries → Option Entries
  | [], entries => work entries
  | key :: path, entries =>
    match entries.get? key with
    | none => (descend work path []).map fun inner => entries.set key (.table false false inner)
    | some (.table opened dotted inner) =>
      (descend work path inner).map fun inner => entries.set key (.table opened dotted inner)
    | some (.tables items) =>
      match items.getLast? with
      | some last =>
        (descend work path last).map fun inner =>
          entries.set key (.tables (items.dropLast ++ [inner]))
      | none => none
    | some (.value _) => none

/-- Adds a value under a key, behind a path of dotted keys. The table that takes it must have been
opened by dotted keys too, unless there are none. -/
def assign (v : Item) : List String → Bool → Entries → Option Entries
  | [], _, _ => none
  | [key], dotted, entries =>
    if dotted then if (entries.get? key).isSome then none else some (entries.set key v) else none
  | key :: path, _, entries =>
    match entries.get? key with
    | none => (assign v path true []).map fun inner => entries.set key (.table false true inner)
    | some (.table opened dotted inner) =>
      if opened then none
      else (assign v path dotted inner).map fun inner => entries.set key (.table false dotted inner)
    | some (.tables items) =>
      match items.getLast? with
      | some last =>
        (assign v path false last).map fun inner =>
          entries.set key (.tables (items.dropLast ++ [inner]))
      | none => none
    | some (.value _) => none

/-- Opens the table at a path by a header. -/
def openTable (path : List String) (key : String) : Entries → Option Entries :=
  descend (fun entries =>
    match entries.get? key with
    | none => some (entries.set key (.table true false []))
    | some (.table false false inner) => some (entries.set key (.table true false inner))
    | _ => none) path

/-- Adds a table to the list of tables at a path. -/
def addTable (path : List String) (key : String) : Entries → Option Entries :=
  descend (fun entries =>
    match entries.get? key with
    | none => some (entries.set key (.tables [[]]))
    | some (.tables items) => some (entries.set key (.tables (items ++ [[]])))
    | _ => none) path

mutual

def Item.toValue : Item → Value
  | .value v => v
  | .table _ _ entries => .table (entriesToValues entries)
  | .tables items => .array (tablesToValues items)

def entriesToValues : List (String × Item) → List (String × Value)
  | [] => []
  | (key, item) :: rest => (key, item.toValue) :: entriesToValues rest

def tablesToValues : List (List (String × Item)) → List Value
  | [] => []
  | entries :: rest => .table (entriesToValues entries) :: tablesToValues rest

end

/-! Values. -/

mutual

/-- Reads a value in which others may stand down to `room` levels. -/
def readValue : Nat → Nat → Text → Option (Item × Text)
  | 0, _, _ => none
  | fuel + 1, room, cs =>
    match cs with
    | '"' :: _ | '\'' :: _ => (readString? cs).map fun (s, rest) => (.value (.string s), rest)
    | '[' :: rest =>
      match room with
      | 0 => none
      | room + 1 =>
        match readArray fuel room [] rest with
        | some (items, rest) => some (.value (.array items), rest)
        | none => none
    | '\x7b' :: rest =>
      match room with
      | 0 => none
      | room + 1 =>
        match skipSpace rest with
        | '\x7d' :: rest => some (.value (.table []), rest)
        | rest =>
          match readInline fuel room [] rest with
          | some (entries, rest) => some (.value (.table (entriesToValues entries)), rest)
          | none => none
    | cs =>
      let (token, rest) := splitToken cs
      match tokenValue? token with
      | some v => some (.value v, rest)
      | none => none

/-- The items of an array, kept latest first, up to the closing bracket. -/
def readArray : Nat → Nat → List Value → Text → Option (List Value × Text)
  | 0, _, _, _ => none
  | fuel + 1, room, items, cs =>
    match skipLines (cs.length + 1) cs with
    | ']' :: rest => some (items.reverse, rest)
    | cs =>
      match readValue fuel room cs with
      | none => none
      | some (item, rest) =>
        match skipLines (rest.length + 1) rest with
        | ',' :: rest => readArray fuel room (item.toValue :: items) rest
        | ']' :: rest => some ((item.toValue :: items).reverse, rest)
        | _ => none

/-- The entries of a table in braces, up to the closing one. -/
def readInline : Nat → Nat → Entries → Text → Option (Entries × Text)
  | 0, _, _, _ => none
  | fuel + 1, room, entries, cs =>
    match readKey cs with
    | some (keys, '=' :: rest) =>
      match readValue fuel room (skipSpace rest) with
      | none => none
      | some (item, rest) =>
        match assign item keys true entries with
        | none => none
        | some entries =>
          match skipSpace rest with
          | ',' :: rest => readInline fuel room entries rest
          | '\x7d' :: rest => some (entries, rest)
          | _ => none
    | _ => none

end

/-! Documents. -/

/-- Reads a key and its value, on one line, into the table at a path. -/
def readEntry (path : List String) (entries : Entries) (cs : Text) : Option (Entries × Text) := do
  let (keys, rest) ← readKey cs
  match rest with
  | '=' :: rest =>
    let (item, rest) ← readValue (2 * rest.length + 2) maxDepth (skipSpace rest)
    let entries ← descend (assign item keys true) path entries
    let rest ← endLine? rest
    some (entries, rest)
  | _ => none

/-- Reads a header up to its closing brackets, and opens its table. -/
def readHeader (entries : Entries) (cs : Text) : Option (List String × Entries × Text) := do
  match cs with
  | '[' :: cs =>
    let (keys, rest) ← readKey cs
    match rest with
    | ']' :: ']' :: rest =>
      let key ← keys.getLast?
      let entries ← addTable keys.dropLast key entries
      let rest ← endLine? rest
      some (keys, entries, rest)
    | _ => none
  | cs =>
    let (keys, rest) ← readKey cs
    match rest with
    | ']' :: rest =>
      let key ← keys.getLast?
      let entries ← openTable keys.dropLast key entries
      let rest ← endLine? rest
      some (keys, entries, rest)
    | _ => none

/-- Reads line after line; `path` is the table that the last header opened. -/
def readLines : Nat → List String → Entries → Text → Option Entries
  | 0, _, _, _ => none
  | fuel + 1, path, entries, cs =>
    match skipLines (cs.length + 1) cs with
    | [] => some entries
    | '[' :: rest =>
      (readHeader entries rest).bind fun (path, entries, rest) => readLines fuel path entries rest
    | cs => (readEntry path entries cs).bind fun (entries, rest) => readLines fuel path entries rest

/-- The table that a document holds; a byte order mark in front of it does not count. -/
def parse? (document : String) : Option Value :=
  let cs := document.toList
  let cs := match cs with | c :: rest => if c.toNat = 0xFEFF then rest else cs | [] => []
  (readLines (cs.length + 1) [] [] cs).map fun entries => .table (entriesToValues entries)

end Polyglot.Toml
