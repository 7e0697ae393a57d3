import Polyglot.Url.Basic

/-!
Reading an address. Blanks and control characters around it, and tabs and line breaks inside it,
do not count; dot segments are resolved; what may not stand in a part is percent-encoded.
-/
namespace Polyglot.Url

/-- What is known of a scheme. -/
inductive SchemeKind where
  | file
  | web (usual : Nat)
  | other
deriving DecidableEq

namespace SchemeKind

def ofScheme : String → SchemeKind
  | "file" => file
  | "http" | "ws" => web 80
  | "https" | "wss" => web 443
  | "ftp" => web 21
  | _ => other

def isSpecial : SchemeKind → Bool
  | other => false
  | _ => true

end SchemeKind

def trim (text : Text) : Text :=
  let outer := fun (c : Char) => c.toNat ≤ 0x20
  ((text.dropWhile outer).reverse.dropWhile outer).reverse

def isIgnored (c : Char) : Bool := c == '\t' || c == '\n' || c == '\r'

def isSchemeChar (c : Char) : Bool := c.isAlphanum || c == '+' || c == '-' || c == '.'

/-- The scheme, lower-cased, and what follows its colon. -/
def readScheme? (text : Text) : Option (String × Text) :=
  match text.span isSchemeChar with
  | (first :: more, ':' :: rest) =>
    if first.isAlpha then some (String.ofList ((first :: more).map Char.toLower), rest) else none
  | _ => none

/-! Paths. -/

def isSlash (kind : SchemeKind) (c : Char) : Bool := c == '/' || (kind.isSpecial && c == '\\')

def isTail (c : Char) : Bool := c == '?' || c == '#'

def dotForms (text : Text) : List Char :=
  match text with
  | '%' :: '2' :: c :: rest => if c = 'e' ∨ c = 'E' then '.' :: dotForms rest else '%' :: dotForms ('2' :: c :: rest)
  | c :: rest => c :: dotForms rest
  | [] => []

def isSingleDot (segment : Text) : Bool := dotForms segment == ['.']

def isDoubleDot (segment : Text) : Bool := dotForms segment == ['.', '.']

def isDriveLetter : Text → Bool
  | [c, mark] => c.isAlpha && (mark == ':' || mark == '|')
  | _ => false

/-- Whether a segment opens with a drive letter of its own, or one that a backslash closes. -/
def opensWithDrive : Text → Bool
  | c :: mark :: rest =>
    c.isAlpha && (mark == ':' || mark == '|') && (rest.isEmpty || rest.head? == some '\\')
  | _ => false

/-- The segments between the slashes. -/
def splitSegments (kind : SchemeKind) : Text → List Text
  | [] => [[]]
  | c :: rest =>
    if isSlash kind c then [] :: splitSegments kind rest
    else Text.consLine c (splitSegments kind rest)

/-- What of a path stands up to its last slash, and the segment behind it. -/
def splitLast (path : Text) : Text × Text :=
  let (segment, rest) := path.reverse.span (· != '/')
  (rest.reverse, segment.reverse)

/-- A path that ends in a slash without its last segment. A drive letter is never left. -/
def parent (path : Text) : Text :=
  let (above, segment) := splitLast path.dropLast
  if above.isEmpty || opensWithDrive segment then path else above

/-- Whether characters that do not count stand between a drive letter and what follows it. -/
def dividesDrive (segment : Text) : Bool :=
  match segment.filter (!isIgnored ·), segment.dropWhile (· != ':') with
  | c :: ':' :: _ :: _, _ :: next :: _ => c.isAlpha && isIgnored next
  | _, _ => false

/-- Adds a segment to a path that ends in a slash; `opening` tells that nothing but the slash of
the authority stands before it, and `closed` that a slash follows it. Only an opening segment can be
a drive letter. One that characters which do not count divide from what follows it is a segment of
its own. -/
def addSegment (kind : SchemeKind) (path : Text) (opening closed : Bool) (raw : Text) : Text :=
  let segment := raw.filter (!isIgnored ·)
  let close := if closed then ['/'] else []
  if kind = .file && path == ['/'] && dividesDrive raw then
    path ++ segment.take 2 ++ ['/'] ++ encode inPathSet (segment.drop 2) ++ close
  else if isDoubleDot segment then parent path
  else if isSingleDot segment then path
  else if kind = .file && opening && isDriveLetter segment then
    path ++ segment.take 1 ++ [':'] ++ close
  else path ++ encode inPathSet segment ++ close

def addSegments (kind : SchemeKind) : Text → Bool → List Text → Text
  | path, _, [] => path
  | path, opening, [segment] => addSegment kind path opening false segment
  | path, opening, segment :: rest =>
    addSegments kind (addSegment kind path opening true segment) false rest

/-- Reads a path behind its first slash. That of a local file starts with one slash only. -/
def readPath (kind : SchemeKind) (opening : Bool) (text : Text) : Text :=
  let path := addSegments kind ['/'] opening (splitSegments kind text)
  if kind = .file then '/' :: path.dropWhile (· == '/') else path

/-! Query and fragment. -/

/-- Splits off what starts with a question mark or a number sign. -/
def splitTail (text : Text) : Text × Text := text.span (!isTail ·)

def withTail (kind : SchemeKind) (url : Url) (tail : Text) : Url :=
  let fragment := fun (cs : Text) => some (String.ofList (encode inFragmentSet cs))
  match tail with
  | '?' :: rest =>
    match rest.span (· != '#') with
    | (q, []) => { url with query := some (String.ofList (encode (inQuerySet kind.isSpecial) q)) }
    | (q, _ :: f) =>
      { url with
        query := some (String.ofList (encode (inQuerySet kind.isSpecial) q))
        fragment := fragment f }
  | '#' :: f => { url with fragment := fragment f }
  | _ => url

/-! Authorities. -/

/-- User and password, if an at sign is behind them, and the rest. -/
def splitCredentials (text : Text) : Option Text × Text :=
  match text.reverse.span (· != '@') with
  | (_, []) => (none, text)
  | (host, _ :: user) => (some user.reverse, host.reverse)

def renderCredentials (user : Text) : Text :=
  match user.span (· != ':') with
  | (name, []) => if name.isEmpty then [] else encode inUserSet name ++ ['@']
  | (name, _ :: password) =>
    if password.isEmpty then if name.isEmpty then [] else encode inUserSet name ++ ['@']
    else encode inUserSet name ++ [':'] ++ encode inUserSet password ++ ['@']

/-- Splits a host from the number behind it at the first colon outside brackets. -/
def splitNumber : Bool → Text → Text × Option Text
  | _, [] => ([], none)
  | inside, c :: rest =>
    if c = ':' ∧ inside = false then ([], some rest)
    else
      let (host, number) :=
        splitNumber (if c = '[' then true else if c = ']' then false else inside) rest
      (c :: host, number)

def usualNumber : SchemeKind → Option Nat
  | .web usual => some usual
  | _ => none

/-- The number behind a host is below 65536; the usual one of the scheme is left out. -/
def readNumber (kind : SchemeKind) (digits : Text) : Except UrlError (Option Nat) :=
  if digits.isEmpty then .ok none
  else
    match readBase 10 digits with
    | some n =>
      if n ≥ 65536 then .error .invalidPort
      else .ok (if usualNumber kind = some n then none else some n)
    | none => .error .invalidPort

/-- What an authority says: the credentials and the host as they are written, the number behind the
host, and what of it belongs to the path. -/
structure Place where
  credentials : Text
  host : Text
  number : Option Nat
  stray : Text

/-- The number behind a host, and what a backslash divides from it. -/
def splitStray (text : Text) : Text × Text := text.span (· != '\\')

def readHost (kind : SchemeKind) (host : Text) : Except UrlError Text :=
  if kind.isSpecial then readDomain host else readPlainHost host

/-- Reads an authority; `bare` tells that nothing follows it. -/
def readPlace (kind : SchemeKind) (authority : Text) (bare : Bool) : Except UrlError Place :=
  let (user, place) := splitCredentials authority
  let credentials := renderCredentials (user.getD [])
  let (hostText, digitsText) := splitNumber false place
  let (digits, stray) := splitStray (digitsText.getD [])
  if hostText.isEmpty && (kind.isSpecial || !credentials.isEmpty || digitsText.isSome
      || (user == some [] && !bare)) then
    .error .emptyHost
  else do
    let host ← readHost kind hostText
    let number ← readNumber kind digits
    return ⟨credentials, host, number, stray⟩

/-- The path behind an authority. -/
def readPathBehind (kind : SchemeKind) : Text → Text
  | [] => if kind.isSpecial then ['/'] else []
  | c :: more => readPath kind false (if isSlash kind c then more else c :: more)

/-- The address at a place, with the path and the tail that follow it. -/
def Place.address (kind : SchemeKind) (scheme : String) (rest : Text) (p : Place) : Url :=
  let (pathText, tail) := splitTail (p.stray ++ rest)
  withTail kind
    { scheme := scheme
      credentials := String.ofList p.credentials
      host := some (String.ofList p.host)
      portNumber := p.number
      path := String.ofList (readPathBehind kind pathText) } tail

/-- The address behind the two slashes that open an authority. -/
def readAuthority (kind : SchemeKind) (scheme : String) (text : Text) : Except UrlError Url :=
  let (authority, rest) := text.span fun c => !(isSlash kind c || isTail c)
  (readPlace kind authority rest.isEmpty).map (Place.address kind scheme rest)

/-- Where the host and the path of a local file stand: the host, what is behind it, and whether the
path opens there rather than with a slash. -/
def splitFile (text : Text) : Text × Text × Bool :=
  let slash := isSlash .file
  match text.dropWhile isIgnored with
  | [] => ([], [], true)
  | a :: afterFirst =>
    if slash a then
      match afterFirst.dropWhile isIgnored with
      | [] => ([], [a], false)
      | b :: afterSecond =>
        if slash b then
          let (hostText, rest) := afterSecond.span fun c => !(slash c || isTail c)
          let host := hostText.filter (!isIgnored ·)
          if isDriveLetter host then ([], afterSecond, true) else (host, rest, false)
        else ([], a :: afterFirst, false)
    else ([], a :: afterFirst, true)

/-- The host of a local file; this machine is none. -/
def readFileHost (text : Text) : Except UrlError Text :=
  if text.isEmpty then .ok []
  else (readDomain text).map fun host => if String.ofList host = "localhost" then [] else host

/-- The address of a local file on a host. A drive letter that opens the path takes the place of the
host. -/
def fileAddress (rest : Text) (opening : Bool) (host : Text) : Url :=
  let (pathText, tail) := splitTail rest
  let segments := if opening then pathText else pathText.drop 1
  let opening := opening || !host.isEmpty
  let first := ((splitSegments .file segments).headD []).filter (!isIgnored ·)
  withTail .file
    { scheme := "file"
      host := some (String.ofList (if opening && isDriveLetter first then [] else host))
      path := String.ofList (readPath .file opening segments) } (tail.filter (!isIgnored ·))

/-- The address of a local file behind its scheme. -/
def readFile (text : Text) : Except UrlError Url :=
  let (hostText, rest, opening) := splitFile text
  (readFileHost hostText).map (fileAddress rest opening)

/-- The address behind a scheme that is not known to the web. -/
def readOther (scheme : String) (text : Text) : Except UrlError Url :=
  match text with
  | '/' :: '/' :: rest => readAuthority .other scheme rest
  | '/' :: rest =>
    let (pathText, tail) := splitTail rest
    .ok (withTail .other { scheme := scheme, path := String.ofList (readPath .other false pathText) } tail)
  | text =>
    let (pathText, tail) := splitTail text
    .ok (withTail .other
      { scheme := scheme, flat := true, path := String.ofList (encode isControl pathText) } tail)

/-- The address that a text denotes. -/
def parse (text : String) : Except UrlError Url :=
  let text := trim text.toList
  match readScheme? (text.filter (!isIgnored ·)) with
  | none => .error .relative
  | some (scheme, rest) =>
    match SchemeKind.ofScheme scheme with
    | .file => readFile ((text.dropWhile (· != ':')).drop 1)
    | .web usual => readAuthority (.web usual) scheme (rest.dropWhile (isSlash .file))
    | .other => readOther scheme rest

end Polyglot.Url
