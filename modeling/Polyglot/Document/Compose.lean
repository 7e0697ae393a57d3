import Polyglot.Document.Fragment

/-!
Appending a block. Its foreign code goes to the children first, then the block itself is added.
A failure stops the work where it is: what was given to children before it stays there.

Documents are numbered by a counter, which is handed through and advances with every attempt to
open a document.
-/
namespace Polyglot.Document

/-- What comes of work on a document: the document, the next free number, and a result. -/
structure Outcome (α : Type) where
  document : Document
  next : Nat
  result : Except DocumentError α

/-- Goes on with the result. A failure stays where it is. -/
def Outcome.bind {α β : Type} (o : Outcome α) (f : α → Nat → Document → Outcome β) : Outcome β :=
  match o with
  | ⟨d, next, .error e⟩ => ⟨d, next, .error e⟩
  | ⟨d, next, .ok a⟩ => f a next d

/-- The address of a child: the owning file's, the child's path of keys and its extension. -/
def childUri (path : Url) (idPath extension : String) : Except UrlError Url :=
  Url.parse (path.href ++ "." ++ idPath ++ "." ++ extension)

/-- Creates a child of a document. -/
def openChild (info : Info) (kind : Kind) (number : Nat) : Except DocumentError Document :=
  let idPath := info.id.idPath ++ "-" ++ Identity.keyOf kind number
  match childUri info.id.path idPath kind.extension with
  | .error cause => .error (.invalidUri info.id.path.href idPath cause)
  | .ok uri =>
    .ok (node
      { id := ⟨kind, info.id.path, number, some info.id.idPath, idPath, uri⟩
        config := info.config
        lifetime := info.config.lifetime } [] [])

/-- The last parked document of a language, and the others. -/
def takeParked (language : String) (parked : List Document) : Option (Document × List Document) :=
  let (later, earlier) := parked.reverse.span (·.language ≠ language)
  match earlier with
  | [] => none
  | d :: earlier => some (d, earlier.reverse ++ later.reverse)

/-- Makes a document a child with a full lifetime, and hands it out. -/
def adopt (info : Info) (children parked : List Document) (child : Document) :
    Document × Document :=
  let child := child.withLifetime info.config.lifetime
  (node info (insertByKey child children) parked, child)

/-- The child that takes the next piece of code of a kind: the one of its language, or for
standalone code a parked one, or else a new one. -/
def chooseChild (kind : Kind) (next : Nat) : Document → Outcome Document
  | node info children parked =>
    let claimed := if kind.standalone then none else children.find? (·.key = kind.language)
    match claimed with
    | some child =>
      let (d, child) :=
        adopt { info with idle := info.idle.erase kind.language } children parked child
      ⟨d, next, .ok child⟩
    | none =>
      match if kind.standalone then takeParked kind.language parked else none with
      | some (child, parked) =>
        let (d, child) := adopt info children parked child
        ⟨d, next, .ok child⟩
      | none =>
        match openChild info kind next with
        | .error e => ⟨node info children parked, next + 1, .error e⟩
        | .ok child =>
          let event := child.id.event .opened
          let (d, child) := adopt { info with outbox := info.outbox ++ [event] } children parked child
          ⟨d, next + 1, .ok child⟩

/-- Where a piece of foreign code starts in the editor, its host text starting at `origin`. -/
def foreignOrigin (origin : Pos .editor) (range : Range .text) : Pos .editor :=
  ⟨origin.line + range.start.line,
    range.start.column + if range.start.line = 0 then origin.column else 0⟩

/-- Adds a block of prepared lines. -/
def push (block : Block) (d : Document) : Document :=
  d.modify fun info =>
    { info with blocks := info.blocks ++ [block], lifetime := info.config.lifetime }

/-- The block that a text becomes when `kept` is what its host keeps of it. -/
def blockOf (rules : RuleShelf) (language editor : String) (origin : Pos .editor)
    (shift : Option (Pos .source)) (text kept : Text)
    (foreign : List (Range .text × ForeignBlock)) : Block :=
  let shift := shift.getD Pos.origin
  { editor := editor
    origin := ⟨origin.line - shift.line, origin.column - shift.column⟩
    height := text.lines.length
    lines := prepareLines (rules.book language .block) (rules.book language .line) kept
    foreign := foreign }

/-- The note of a piece of code that a child is about to take. -/
def entryFor (child : Document) (editor : String) (shift : Option (Pos .source)) : ForeignBlock where
  bufferLine := child.bufferLines.length
  sourceLine := child.sourceLines.length
  document := child.key
  editor := editor
  shift := shift.getD Pos.origin

/-- How a text is appended to a document, given where it starts in its editor and the room that was
put in front of it. -/
abbrev Appender := Pos .editor → Option (Pos .source) → Text → Nat → Document → Outcome Unit

/-- Gives a piece of foreign code to a child, and notes where it went. -/
def giveFragment (give : Appender) (editor : String) (origin : Pos .editor) (f : Fragment)
    (next : Nat) (d : Document) : Outcome (Range .text × ForeignBlock) :=
  (chooseChild f.kind next d).bind fun child next d =>
    match give (foreignOrigin origin f.range) f.shift f.text next child with
    | ⟨grown, next, .error e⟩ => ⟨d.putChild grown, next, .error e⟩
    | ⟨grown, next, .ok ()⟩ =>
      ⟨(d.putChild grown.drained).emit grown.outbox, next,
        .ok (f.range, entryFor child editor f.shift)⟩

/-- Gives pieces of foreign code to the children in turn. -/
def appendForeign (give : Appender) (editor : String) (origin : Pos .editor) :
    List Fragment → Nat → Document → Outcome (List (Range .text × ForeignBlock))
  | [], next, d => ⟨d, next, .ok []⟩
  | f :: rest, next, d =>
    (giveFragment give editor origin f next d).bind fun entry next d =>
      (appendForeign give editor origin rest next d).bind fun entries next d =>
        ⟨d, next, .ok (entry :: entries)⟩

/-- Appends a text, taken apart down to a number of levels: its foreign code goes to the children,
and what the host keeps becomes a block. -/
def appendText (context : Context) (editor : String) : Nat → Appender
  | levels, origin, shift, text, next, d =>
    if d.isDisposed then ⟨d, next, .error (.disposed d.idPath)⟩
    else
      match levels with
      | 0 => ⟨d, next, .error (.unreadable .depth)⟩
      | levels + 1 =>
        let (fragments, kept) := Fragment.peel (context.extractors.forHost d.language) text
        (appendForeign (appendText context editor levels) editor origin fragments next d).bind
          fun foreign next d =>
            match kept with
            | .error fault => ⟨d, next, .error (.unreadable fault)⟩
            | .ok kept =>
              ⟨d.push (blockOf context.rules d.language editor origin shift text kept foreign), next,
                .ok ()⟩

/-- How many levels are taken apart if nothing else is said. -/
def usualLevels : Nat := 1000

/-- Appends one raw block of an editor. Code that is nested deeper than the levels is taken to be
nested without end. -/
def append (context : Context) (text : Text) (editor : String) (origin : Pos .editor)
    (shift : Option (Pos .source)) (next : Nat) (d : Document) (levels : Nat := usualLevels) :
    Outcome Unit :=
  appendText context editor levels origin shift text next d

end Polyglot.Document
