import Polyglot.Document.Block
import Polyglot.Url.Parser

/-!
Documents are trees. A document presents one buffer in one language; foreign code found in its
blocks lives in its children, which are ordered by their keys. Children for which the last rebuild
had no code are remembered as idle, and standalone ones are parked until they are needed again.

Every document queues its events in an outbox, and its parent empties it.
-/
namespace Polyglot

/-- `spacing` is the number of blank lines between two blocks, `lifetime` the number of rebuilds
that a child outlives without receiving code. -/
structure Config where
  spacing : Nat := 2
  lifetime : Nat := 6
deriving DecidableEq

/-- All that the documents of a tree share. -/
structure Context where
  extractors : Registry := {}
  rules : RuleShelf := {}
  config : Config := {}

inductive EventKind where
  | opened
  | closed
  | changed
deriving DecidableEq

structure Event where
  kind : EventKind
  idPath : String
  language : String
  uri : Url
deriving DecidableEq

inductive DocumentError where
  | disposed (idPath : String)
  | invalidUri (path idPath : String) (cause : UrlError)
  | unmappedSourceLine (line : Nat) (idPath : String)
  | unmappedBufferLine (line : Nat) (idPath : String)
  | syntheticLine (line : Nat) (idPath : String)
  | noEditorAtPosition (editor : String) (line : Nat)
  | unreadable (cause : Fault)
deriving DecidableEq

def DocumentError.message : DocumentError → String
  | disposed id => s!"virtual document '{id}' is disposed"
  | invalidUri path id cause =>
    s!"cannot derive uri for '{id}' from '{path}': " ++ cause.message
  | unmappedSourceLine line id => s!"source line {line} is not mapped in '{id}'"
  | unmappedBufferLine line id => s!"virtual line {line} is not mapped in '{id}'"
  | syntheticLine line id => s!"virtual line {line} of '{id}' has no source line"
  | noEditorAtPosition editor line => s!"editor '{editor}' has no block covering line {line}"
  | unreadable .overlap => "one piece of foreign code ends inside another one"
  | unreadable .depth => "foreign code is nested without end"

/-- What a document is, from its creation on. `path` is the file that owns the tree. -/
structure Identity where
  kind : Kind
  path : Url
  number : Nat
  parent : Option String
  idPath : String
  uri : Url
deriving DecidableEq

namespace Identity

/-- The key of a document of some kind and number among the children of its parent. -/
def keyOf (kind : Kind) (number : Nat) : String :=
  if kind.standalone then toString number ++ "(" ++ kind.language ++ ")" else kind.language

def key (id : Identity) : String := keyOf id.kind id.number

def isRoot (id : Identity) : Bool := id.parent.isNone

def event (id : Identity) (kind : EventKind) : Event := ⟨kind, id.idPath, id.kind.language, id.uri⟩

end Identity

/-- The state of one document, its children apart. -/
structure Info where
  id : Identity
  config : Config
  lifetime : Nat
  disposed : Bool := false
  blocks : List Block := []
  idle : List String := []
  lastValue : Option Text := none
  outbox : List Event := []

inductive Document where
  | node (info : Info) (children : List Document) (parked : List Document)

namespace Document

def info : Document → Info
  | node info _ _ => info

def children : Document → List Document
  | node _ children _ => children

def parked : Document → List Document
  | node _ _ parked => parked

def id (d : Document) : Identity := d.info.id

def key (d : Document) : String := d.id.key

def idPath (d : Document) : String := d.id.idPath

def language (d : Document) : String := d.id.kind.language

def uri (d : Document) : Url := d.id.uri

def isDisposed (d : Document) : Bool := d.info.disposed

def modify (f : Info → Info) : Document → Document
  | node info children parked => node (f info) children parked

/-- What is shown as the lifetime of a root, which never expires. -/
def unlimited : Nat := 4294967295

def remainingLifetime (d : Document) : Nat :=
  if d.id.isRoot then unlimited else d.info.lifetime

def withLifetime (lifetime : Nat) (d : Document) : Document :=
  d.modify fun info => { info with lifetime := lifetime }

/-! Content. -/

/-- The buffer. -/
def value (d : Document) : Text := bufferText d.info.config.spacing d.info.blocks

def bufferLines (d : Document) : List BufferLine :=
  bufferTable d.info.config.spacing 0 d.info.blocks

def sourceLines (d : Document) : List SourceLine :=
  sourceTable d.info.config.spacing 0 d.info.blocks

/-- Whether diagnostics of the document `idPath` are silenced on a buffer line. -/
def silences (d : Document) (line : Nat) (idPath : String) : Bool :=
  match d.bufferLines[line]? with
  | some row => row.silenced && d.idPath == idPath
  | none => false

/-! Children. -/

def child? (d : Document) (key : String) : Option Document := d.children.find? (·.key = key)

/-- Puts a document among others in the order of keys; it takes the place of one with its key. -/
def insertByKey (d : Document) : List Document → List Document
  | [] => [d]
  | other :: rest =>
    if d.key < other.key then d :: other :: rest
    else if d.key = other.key then d :: rest
    else other :: insertByKey d rest

/-- Sets a child, in the place of the one with its key. -/
def putChild : Document → Document → Document
  | node info children parked, child => node info (insertByKey child children) parked

/-- The parked documents of a language, the next to be used last. -/
def recycled (d : Document) (language : String) : List Document :=
  d.parked.filter (·.language = language)

mutual

/-- The document and all below it, parents before children. -/
def walk : Document → List Document
  | node info children parked => node info children parked :: walkAll children

def walkAll : List Document → List Document
  | [] => []
  | d :: rest => d.walk ++ walkAll rest

end

def find? (d : Document) (uri : Url) : Option Document :=
  d.walk.find? (·.uri.href = uri.href)

/-! Events. -/

def emit (events : List Event) (d : Document) : Document :=
  d.modify fun info => { info with outbox := info.outbox ++ events }

/-- The document with an empty outbox. -/
def drained (d : Document) : Document := d.modify fun info => { info with outbox := [] }

def outbox (d : Document) : List Event := d.info.outbox

/-- The root of a tree for the file at `path`. -/
def root (config : Config) (language : String) (path : Url) (extension : String)
    (number : Nat) : Document :=
  node
    { id := ⟨⟨language, extension, false⟩, path, number, none, language, path⟩
      config := config
      lifetime := config.lifetime } [] []

end Document

end Polyglot
