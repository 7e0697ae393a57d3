import Polyglot.Extraction.Extractor
import Polyglot.Pattern.Search
import Polyglot.Unicode.Classes

/-!
CEL expressions in protobuf files: the string literals behind the key `expression` in the options
`(buf.validate.field).cel`, `(buf.validate.message).cel` and `(buf.validate.predefined).cel`.
Options in comments do not count. The host keeps its whole text.
-/
namespace Polyglot.Extraction.Protovalidate

open Unicode Pattern

def isQuote (c : Char) : Bool := c == '"' || c == '\''

/-- What a scanner of protobuf text is in the middle of. -/
inductive Mode where
  | code
  | quoted (quote : Char)
  | lineComment (start : Nat)
  | blockComment (start : Nat)

/-- The comments of a text whose first character has the index `i`. In a string a backslash takes
the character behind it along. -/
def commentsFrom : Nat → Mode → Text → List Span
  | _, .code, [] | _, .quoted _, [] => []
  | i, .lineComment start, [] | i, .blockComment start, [] => [⟨start, i⟩]
  | i, .code, '/' :: '/' :: rest => commentsFrom (i + 2) (.lineComment i) rest
  | i, .code, '/' :: '*' :: rest => commentsFrom (i + 2) (.blockComment i) rest
  | i, .code, c :: rest => commentsFrom (i + 1) (if isQuote c then .quoted c else .code) rest
  | i, .quoted q, '\\' :: _ :: rest => commentsFrom (i + 2) (.quoted q) rest
  | i, .quoted q, c :: rest => commentsFrom (i + 1) (if c = q then .code else .quoted q) rest
  | i, .lineComment start, c :: rest =>
    if c = '\n' then ⟨start, i⟩ :: commentsFrom (i + 1) .code rest
    else commentsFrom (i + 1) (.lineComment start) rest
  | i, .blockComment start, '*' :: '/' :: rest => ⟨start, i + 2⟩ :: commentsFrom (i + 2) .code rest
  | i, .blockComment start, _ :: rest => commentsFrom (i + 1) (.blockComment start) rest

/-- Comments in code, from the slashes to before the line feed or behind the closing mark. -/
def comments (text : Text) : List Span := commentsFrom 0 .code text

/-- The text behind a word, if it starts with the word. -/
def after? (word : String) (text : Text) : Option Text :=
  if word.toList.isPrefixOf text then some (text.drop word.length) else none

def skipBlank (text : Text) : Text := text.dropWhile isBlank

/-- The text behind the head of an option, which ends with its opening brace. -/
def afterHead? (text : Text) : Option Text := do
  let rest ← after? "(" text
  let rest ← after? "buf.validate." (skipBlank rest)
  let rest ← after? "field" rest <|> after? "message" rest <|> after? "predefined" rest
  let rest ← after? ")" (skipBlank rest)
  let rest ← after? ".cel" (skipBlank rest)
  let rest ← after? "=" (skipBlank rest)
  after? "\x7b" (skipBlank rest)

/-- The heads of options in a text whose first character has the index `i`; the first `skip`
characters belong to a head found before. -/
def headsFrom : Nat → Nat → Text → List Span
  | _, _, [] => []
  | i, skip + 1, _ :: rest => headsFrom (i + 1) skip rest
  | i, 0, c :: rest =>
    match afterHead? (c :: rest) with
    | some body =>
      let length := rest.length + 1 - body.length
      ⟨i, i + length⟩ :: headsFrom (i + 1) (length - 1) rest
    | none => headsFrom (i + 1) 0 rest

def heads (text : Text) : List Span := headsFrom 0 0 text

/-- How many characters stand before the brace that closes `depth` open ones; braces in strings do
not count. -/
def bodyLength? : Nat → Option Char → Text → Option Nat
  | _, _, [] => none
  | depth, some q, '\\' :: _ :: rest => (bodyLength? depth (some q) rest).map (· + 2)
  | depth, some q, c :: rest =>
    (bodyLength? depth (if c = q then none else some q) rest).map (· + 1)
  | depth, none, c :: rest =>
    if c = '\x7d' then
      if depth ≤ 1 then some 0 else (bodyLength? (depth - 1) none rest).map (· + 1)
    else if c = '\x7b' then (bodyLength? (depth + 1) none rest).map (· + 1)
    else (bodyLength? depth (if isQuote c then some c else none) rest).map (· + 1)

/-- The text behind the first key `expression`. -/
def afterKey? : Text → Option Text
  | [] => none
  | c :: rest =>
    match (after? "expression" (c :: rest)).bind fun r => after? ":" (skipBlank r) with
    | some r => some (skipBlank r)
    | none => afterKey? rest

def decodeEscape : Char → Char
  | 'n' => '\n'
  | 't' => '\t'
  | 'r' => '\r'
  | '0' => Char.ofNat 0
  | c => c

/-- The length of a literal behind its opening quote, and its contents with escapes decoded. A
line feed or the end of the text leaves it unfinished. -/
def readLiteral? (quote : Char) : Text → Option (Nat × Text)
  | [] => none
  | c :: rest =>
    if c = quote then some (0, [])
    else if c = '\n' then none
    else if c = '\\' then
      match rest with
      | [] => none
      | e :: rest => (readLiteral? quote rest).map fun (n, cs) => (n + 2, decodeEscape e :: cs)
    else (readLiteral? quote rest).map fun (n, cs) => (n + 1, c :: cs)

/-- A literal: where its contents stand, and what they say. -/
structure Literal where
  contents : Span
  decoded : Text
deriving DecidableEq

/-- The literal behind the first key in the body of the option with the given head. -/
def literalOf? (text : Text) (head : Span) : Option Literal := do
  let body := text.drop head.stop
  let length ← bodyLength? 1 none body
  let behind ← afterKey? (body.take length)
  let start := head.stop + (length - behind.length)
  match text.drop start with
  | q :: rest =>
    if isQuote q then
      let (n, decoded) ← readLiteral? q rest
      some ⟨⟨start + 1, start + 1 + n⟩, decoded⟩
    else none
  | [] => none

/-- Of neighbours that start together the first. -/
def dropRepeats : List Literal → List Literal
  | a :: b :: rest =>
    if a.contents.start = b.contents.start then dropRepeats (a :: rest)
    else a :: dropRepeats (b :: rest)
  | short => short
termination_by literals => literals.length

/-- All literals, in the order of the text. -/
def literals (text : Text) : List Literal :=
  let hidden := comments text
  let live := (heads text).filter fun h => !hidden.any fun c => c.start ≤ h.start && h.start < c.stop
  dropRepeats ((live.filterMap (literalOf? text)).mergeSort
    fun a b => a.contents.start ≤ b.contents.start)

/-- The pieces of a text from where the literal before the given ones stopped. -/
def piecesFrom (text : Text) : Nat → List Literal → Except Fault (List Piece)
  | done, [] => .ok (if done < text.length then [{ host := some (text.drop done) }] else [])
  | done, l :: rest =>
    if l.contents.stop < done then .error .overlap
    else
      (piecesFrom text l.contents.stop rest).map fun pieces =>
        { range := some ⟨Pos.behind (text.take l.contents.start),
            Pos.behind (text.take l.contents.stop)⟩
          foreign := some l.decoded
          host := some (text.slice done l.contents.stop) } :: pieces

def extractor : Extractor where
  kind := ⟨"cel", "cel", true⟩
  exclusive := false
  detects := fun text => !(literals text).isEmpty
  extract := fun text => piecesFrom text 0 (literals text)

end Polyglot.Extraction.Protovalidate
