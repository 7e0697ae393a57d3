import Polyglot.Url.DomainName
import Polyglot.Url.Encoding

/-!
Hosts of addresses. Schemes known to the web have domain names, which are lower-cased, or IP
addresses in their many spellings; the hosts of other schemes are kept as they are.
-/
namespace Polyglot

inductive UrlError where
  | relative
  | emptyHost
  | invalidPort
  | invalidDomain
  | invalidInternational
  | invalidIpv4
  | invalidIpv6
deriving DecidableEq

def UrlError.message : UrlError → String
  | relative => "relative URL without a base"
  | emptyHost => "empty host"
  | invalidPort => "invalid port number"
  | invalidDomain => "invalid domain character"
  | invalidInternational => "invalid international domain name"
  | invalidIpv4 => "invalid IPv4 address"
  | invalidIpv6 => "invalid IPv6 address"

namespace Url

/-! Version 4. -/

def readBase (base : Nat) (digits : Text) : Option Nat :=
  digits.foldl (fun acc c =>
    acc.bind fun n => (digitOf? c).bind fun d => if d < base then some (base * n + d) else none)
    (some 0)

/-- A number in decimal, in octal behind a zero, or in hexadecimal behind `0x`. -/
def readNumber? : Text → Option Nat
  | [] => none
  | '0' :: 'x' :: rest | '0' :: 'X' :: rest => readBase 16 rest
  | '0' :: rest => readBase 8 rest
  | digits => readBase 10 digits

/-- The parts of a dotted name without an empty last one. -/
def dotParts (host : Text) : List Text :=
  let parts := Text.splitAt '.' host
  if parts.length > 1 && parts.getLast? == some [] then parts.dropLast else parts

def endsInNumber (host : Text) : Bool :=
  match (dotParts host).getLast? with
  | some last => (!last.isEmpty && last.all Char.isDigit) || (readNumber? last).isSome
  | none => false

def readIpv4? (host : Text) : Option Nat := do
  let parts := dotParts host
  let numbers ← parts.mapM readNumber?
  let last ← numbers.getLast?
  let first := numbers.dropLast
  if parts.length > 4 || first.any (· > 255) || last ≥ Nat.pow 256 (4 - first.length) then none
  else
    some ((first.foldl (fun (acc : Nat × Nat) n => (acc.1 + n * Nat.pow 256 acc.2, acc.2 - 1))
      (last, 3)).1)

def renderIpv4 (n : Nat) : Text :=
  Text.joinWith '.' ([n / 16777216 % 256, n / 65536 % 256, n / 256 % 256, n % 256].map
    fun b => (toString b).toList)

/-! Version 6. -/

def readHexPiece? (piece : Text) : Option Nat :=
  if piece.isEmpty || piece.length > 4 then none else readBase 16 piece

/-- A decimal byte without leading zeros. -/
def readDecimalByte? (piece : Text) : Option Nat :=
  if piece.isEmpty || (piece.length > 1 && piece.head? == some '0') then none
  else (readBase 10 piece).bind fun n => if n < 256 then some n else none

/-- Pieces of 16 bits between colons; the last may be a dotted address of two of them. -/
def readPieces? (allowDotted : Bool) : List Text → Option (List Nat)
  | [] => some []
  | [last] =>
    if allowDotted && last.contains '.' then
      match (Text.splitAt '.' last).mapM readDecimalByte? with
      | some [a, b, c, d] => some [256 * a + b, 256 * c + d]
      | _ => none
    else (readHexPiece? last).map ([·])
  | piece :: rest => do
    let n ← readHexPiece? piece
    let others ← readPieces? allowDotted rest
    some (n :: others)

/-- Splits at the first double colon. -/
def splitDouble : Text → Option (Text × Text)
  | ':' :: ':' :: rest => some ([], rest)
  | c :: rest => (splitDouble rest).map fun (a, b) => (c :: a, b)
  | [] => none

def readIpv6? (host : Text) : Option (List Nat) := do
  match splitDouble host with
  | none =>
    let pieces ← readPieces? true (Text.splitAt ':' host)
    if pieces.length = 8 then some pieces else none
  | some (left, right) =>
    let l ← if left.isEmpty then some [] else readPieces? false (Text.splitAt ':' left)
    let r ← if right.isEmpty then some [] else readPieces? true (Text.splitAt ':' right)
    if l.length + r.length < 8 then
      some (l ++ List.replicate (8 - l.length - r.length) 0 ++ r)
    else none

/-- The lengths of the runs of zeros that start at each piece. -/
def zeroRuns : List Nat → List Nat
  | [] => []
  | n :: rest =>
    let runs := zeroRuns rest
    (if n = 0 then runs.headD 0 + 1 else 0) :: runs

def hexPiece (n : Nat) : Text := Nat.toDigits 16 n

/-- The first longest run of two zeros or more is left out. -/
def renderIpv6 (pieces : List Nat) : Text :=
  let runs := zeroRuns pieces
  let longest := runs.foldl max 0
  if longest < 2 then Text.joinWith ':' (pieces.map hexPiece)
  else
    let start := runs.findIdx (· == longest)
    Text.joinWith ':' ((pieces.take start).map hexPiece) ++ [':', ':'] ++
      Text.joinWith ':' ((pieces.drop (start + longest)).map hexPiece)

/-! Hosts. -/

def readBracketed (host : Text) : Except UrlError Text :=
  if host.getLast? = some ']' then
    match readIpv6? host.tail.dropLast with
    | some pieces => .ok ('[' :: renderIpv6 pieces ++ [']'])
    | none => .error .invalidIpv6
  else .error .invalidIpv6

def forbiddenInHost (c : Char) : Bool :=
  [Char.ofNat 0, '\t', '\n', '\r'].contains c || " #/:<>?@[\\]^|".toList.contains c

/-- The host of an address whose scheme is known to the web. -/
def readDomain (host : Text) : Except UrlError Text :=
  if host.head? = some '[' then readBracketed host
  else
    match (decode? host).bind DomainName.toAscii? with
    | none => .error .invalidInternational
    | some name =>
      if name.isEmpty then .error .emptyHost
      else if endsInNumber name then
        match readIpv4? name with
        | some n => .ok (renderIpv4 n)
        | none => .error .invalidIpv4
      else .ok name

/-- The host of any other address. -/
def readPlainHost (host : Text) : Except UrlError Text :=
  if host.head? = some '[' then readBracketed host
  else if host.any forbiddenInHost then .error .invalidDomain
  else .ok (encode isControl host)

end Url

end Polyglot
