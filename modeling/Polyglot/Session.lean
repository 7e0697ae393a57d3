import Polyglot.Document.Compose
import Polyglot.Document.Lifecycle

/-!
A session rebuilds the documents of one tree, one rebuild at a time, and tells a subscriber what
happens. The subscriber's backlog is bounded: when it is full, the oldest notices are lost, and
how many is remembered.
-/
namespace Polyglot

/-- How often a busy tree is tried, and how long is waited in between. -/
structure RetryPolicy where
  maxAttempts : Nat := 10
  backoffMs : Nat := 5
deriving DecidableEq

inductive Notice where
  | began
  | blockAdded (index : Nat) (editor : String)
  | finished
  | updated
  | document (event : Event)
deriving DecidableEq

inductive UpdateError where
  | busy (attempts : Nat)
  | document (cause : DocumentError)
deriving DecidableEq

def UpdateError.message : UpdateError → String
  | busy attempts => s!"document tree still busy after {attempts} attempts"
  | document cause => "rebuild failed: " ++ cause.message

/-- Notices not yet read, and the number of those lost before them. -/
structure Feed where
  lost : Nat := 0
  pending : List Notice := []

namespace Feed

def capacity : Nat := 256

def send (feed : Feed) (notice : Notice) : Feed :=
  if feed.pending.length < capacity then { feed with pending := feed.pending ++ [notice] }
  else ⟨feed.lost + 1, feed.pending.drop 1 ++ [notice]⟩

def sendAll (feed : Feed) (notices : List Notice) : Feed := notices.foldl send feed

end Feed

/-- A raw block of an editor. -/
structure Cell where
  text : Text
  editor : String
deriving DecidableEq

/-- Appends cells in turn until one fails. -/
def appendCells (context : Context) (levels : Nat) : Nat → List Cell → Nat → Document →
    List Notice × Document.Outcome Unit
  | _, [], next, d => ([], ⟨d, next, .ok ()⟩)
  | index, cell :: rest, next, d =>
    let notice := Notice.blockAdded index cell.editor
    match d.append context cell.text cell.editor Pos.origin none next levels with
    | ⟨d, next, .error e⟩ => ([notice], ⟨d, next, .error e⟩)
    | ⟨d, next, .ok ()⟩ =>
      let (notices, outcome) := appendCells context levels (index + 1) rest next d
      (notice :: notices, outcome)

/-- Rebuilds a tree from cells. A rebuild that fails is left as it is: nothing expires, and nobody
is told that it finished. -/
def rebuild (context : Context) (levels : Nat) (cells : List Cell) (next : Nat) (d : Document) :
    List Notice × Document.Outcome Unit :=
  match appendCells context levels 0 cells next d.clear with
  | (notices, ⟨d, next, .error e⟩) => (notices, ⟨d, next, .error e⟩)
  | (notices, ⟨d, next, .ok ()⟩) =>
    (notices ++ [.finished, .updated], ⟨d.closeExpired.emitChanged, next, .ok ()⟩)

/-- One tree under its guards: `rebuilding` while it is rebuilt, `locked` while somebody looks at
it. Cells are taken apart down to a number of levels. -/
structure Session where
  context : Context
  policy : RetryPolicy
  root : Document
  levels : Nat := Document.usualLevels
  rebuilding : Bool := false
  locked : Bool := false
  feed : Feed := {}

namespace Session

/-- A guard is given only to a tree that is at rest, and only if it is tried at all. -/
def acquire (s : Session) : Except UpdateError Unit :=
  if s.policy.maxAttempts = 0 || s.rebuilding || s.locked then .error (.busy s.policy.maxAttempts)
  else .ok ()

/-- Rebuilds the tree from cells. -/
def update (cells : List Cell) (next : Nat) (s : Session) :
    Session × Nat × Except UpdateError Unit :=
  match s.acquire with
  | .error e => (s, next, .error e)
  | .ok () =>
    let (notices, outcome) := rebuild s.context s.levels cells next s.root
    let events := outcome.document.outbox.map Notice.document
    ({ s with
       root := outcome.document.drained
       feed := s.feed.sendAll (.began :: notices ++ events) },
     outcome.next, outcome.result.mapError .document)

/-- Lets somebody look at the tree while it is locked; the session given along is what others see
meanwhile. -/
def withLock {α : Type} (look : Session → α) (s : Session) : Except UpdateError α :=
  s.acquire.map fun _ => look { s with locked := true }

/-- Takes what the subscriber has not read. -/
def drain (s : Session) : Session × Feed := ({ s with feed := {} }, s.feed)

end Session

end Polyglot
