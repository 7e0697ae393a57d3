import Polyglot.Cel.Analysis
import Polyglot.Diagnostic.Aggregator
import Polyglot.Diagnostic.MarkerStore
import Polyglot.Settings.Basic

/-!
The open files. Each is the single block of a tree of its own; its diagnostics are those of the CEL
documents of the tree, shown in the file.
-/
namespace Polyglot

/-- What is behind the last occurrence of a character. -/
def afterLast? (mark : Char) (text : Text) : Option Text :=
  match text.reverse.span (· != mark) with
  | (_, []) => none
  | (tail, _ :: _) => some tail.reverse

/-- The language of a file and the extension of its name: plain text if it has none. -/
def languageOfPath (path : Text) : String × String :=
  match afterLast? '.' path with
  | some ext =>
    if ext.isEmpty || ext.contains '/' then ("plaintext", "txt")
    else (String.ofList (ext.map Char.toLower), String.ofList ext)
  | none => ("plaintext", "txt")

def hostLanguage (uri : Url) : String × String := languageOfPath uri.path.toList

/-- An open file. `editor` is the file itself, by its address. -/
structure OpenFile where
  editor : String
  session : Session
  shown : Aggregator MarkerStore
  version : Int

namespace OpenFile

def create (uri : Url) (config : ServerConfig) (next : Nat) : OpenFile :=
  let (language, extension) := hostLanguage uri
  { editor := uri.href
    session :=
      { context := config.context
        policy := config.policy
        root := Document.root config.context.config language uri extension next }
    shown := { drawing := {} }
    version := 0 }

/-- Drops what is shown for documents that were closed. -/
def forgetClosed (f : OpenFile) : OpenFile :=
  let (session, feed) := f.session.drain
  let shown := feed.pending.foldl (fun shown notice =>
    match notice with
    | .document ⟨.closed, _, _, uri⟩ => shown.forget MarkerStore.renderer uri.href
    | _ => shown) f.shown
  { f with session := session, shown := shown }

/-- Gives a file a new text. Its version is noted even if the rebuild fails. -/
def update (text : Text) (version : Int) (next : Nat) (f : OpenFile) :
    OpenFile × Nat × Except UpdateError Unit :=
  let (session, next, result) := f.session.update [⟨text, f.editor⟩] next
  ({ f with version := version, session := session }.forgetClosed, next, result)

/-- Takes in diagnostics of one document. -/
def handle (target : Url) (diagnostics : List (Diagnostic .buffer)) (f : OpenFile) :
    OpenFile × Except UpdateError BatchOutcome :=
  match f.session.withLock fun s => f.shown.handle MarkerStore.renderer s.root target diagnostics with
  | .error e => (f, .error e)
  | .ok (shown, outcome) => ({ f with shown := shown }, .ok outcome)

def handleAll : List (Url × List (Diagnostic .buffer)) → OpenFile → OpenFile × Except UpdateError Unit
  | [], f => (f, .ok ())
  | (target, diagnostics) :: rest, f =>
    match f.handle target diagnostics with
    | (f, .error e) => (f, .error e)
    | (f, .ok _) => handleAll rest f

/-- Analyses the tree again. The answer is what is shown in the file then. -/
def refresh (check : Cel.Checker) (f : OpenFile) :
    OpenFile × Except UpdateError (List (Diagnostic .editor)) :=
  match f.session.withLock fun s => f.shown.prune MarkerStore.renderer s.root with
  | .error e => (f, .error e)
  | .ok shown =>
    let f := { f with shown := shown }
    match f.session.withLock fun s => Cel.analyzeTree check s.root with
    | .error e => (f, .error e)
    | .ok batches =>
      let (f, result) := handleAll batches f
      (f, result.map fun _ => f.shown.drawing.published f.editor)

end OpenFile

/-- Open files by their addresses. -/
structure Store where
  files : List (String × OpenFile) := []

namespace Store

def get? (store : Store) (uri : Url) : Option OpenFile := Aggregator.lookup uri.href store.files

def put (store : Store) (uri : Url) (file : OpenFile) : Store :=
  ⟨Aggregator.insert uri.href file store.files⟩

def close (store : Store) (uri : Url) : Store := ⟨Aggregator.erase uri.href store.files⟩

def size (store : Store) : Nat := store.files.length

/-- The file at an address, created if it is not open; a new one takes the next number. -/
def openFile (store : Store) (uri : Url) (config : ServerConfig) (next : Nat) :
    Store × OpenFile × Nat :=
  match store.get? uri with
  | some file => (store, file, next)
  | none =>
    let file := OpenFile.create uri config next
    (store.put uri file, file, next + 1)

end Store

end Polyglot
