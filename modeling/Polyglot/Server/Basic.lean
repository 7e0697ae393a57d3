import Polyglot.Server.Message
import Polyglot.Server.Request
import Polyglot.Server.Store
import Polyglot.Settings.Discovery

/-!
The language server. It is initialised once, takes the settings of the first workspace folder, and
then answers every change of a file with the diagnostics that are shown in it.
-/
namespace Polyglot

inductive Phase where
  | uninitialized
  | initialized
  | shutDown
  | exited
deriving DecidableEq

/-- `next` is the number of the next document. -/
structure Server where
  phase : Phase := .uninitialized
  config : Option ServerConfig := none
  store : Store := {}
  next : Nat := 0

namespace Server

/-- What surrounds a server: the checker of CEL sources and the files. -/
structure World where
  check : Cel.Environment → Cel.Checker
  tree : FileTree

structure Reply where
  response : Option Response := none
  sent : List Sent := []

/-- The settings in force; without a workspace the usual ones. -/
def configOf (s : Server) : ServerConfig := s.config.getD (ServerConfig.ofSettings {})

/-- The directory of a workspace: its first folder, or else its root. -/
def workspaceOf (p : InitializeParams) : Option Path :=
  ((p.folders.bind (·.head?)).bind Url.filePath?).orElse fun _ => p.root.bind Url.filePath?

/-- The settings of a workspace are taken once. -/
def start (world : World) (p : InitializeParams) (s : Server) : Server :=
  match workspaceOf p with
  | some dir =>
    let config := ServerConfig.ofSettings (Settings.discover world.tree dir).1
    { s with phase := .initialized, config := some (s.config.getD config) }
  | none => { s with phase := .initialized }

/-- Takes in the text of a file and publishes what is shown in it, unless its tree cannot be
rebuilt. -/
def change (world : World) (f : FileText) (s : Server) : Server × List Sent :=
  let config := s.configOf
  let (store, file, next) := s.store.openFile f.uri config s.next
  let (file, next, result) := file.update f.text f.version next
  let s := { s with config := some config, next := next }
  match result with
  | .error _ => ({ s with store := store.put f.uri file }, [])
  | .ok () =>
    let (file, shown) := file.refresh (world.check config.environment)
    let s := { s with store := store.put f.uri file }
    match shown with
    | .error _ => (s, [])
    | .ok diagnostics => (s, [publish f.uri diagnostics (some f.version)])

def close (uri : Url) (s : Server) : Server × List Sent :=
  ({ s with store := s.store.close uri }, [publish uri [] none])

def refuse (code : Int) (m : Message) : Reply :=
  { response := if m.isRequest then some (.error code) else none }

/-- What a server that is not ready says to requests. -/
def notReady (s : Server) (m : Message) : Reply :=
  refuse (if s.phase = .uninitialized then notInitialized else invalidRequest) m

def handleInitialize (world : World) (m : Message) (s : Server) : Server × Reply :=
  if s.phase ≠ .uninitialized then (s, refuse invalidRequest m)
  else if !m.isRequest then (s, {})
  else
    match m.params.bind readInitialize with
    | some p => (s.start world p, { response := some (.result capabilities) })
    | none => (s, refuse invalidParams m)

def handleShutdown (m : Message) (s : Server) : Server × Reply :=
  if s.phase ≠ .initialized then (s, s.notReady m)
  else
    let s := { s with phase := .shutDown }
    if !m.isRequest then (s, {})
    else if m.params.isSome then (s, refuse invalidParams m)
    else (s, { response := some (.result .null) })

/-- Notifications are passed over if the server is not ready or cannot read them, and refused as
requests. -/
def notified {α : Type} (read : Value → Option α) (act : α → Server → Server × List Sent)
    (m : Message) (s : Server) : Server × Reply :=
  if s.phase ≠ .initialized then (s, s.notReady m)
  else if m.isRequest then (s, refuse invalidRequest m)
  else
    match m.params.bind read with
    | none => (s, {})
    | some a =>
      let (s, sent) := act a s
      (s, { sent := sent })

/-- A request that is not served is refused, for its parameters first. -/
def unserved (shape : Shape) (m : Message) (s : Server) : Reply :=
  if s.phase ≠ .initialized then s.notReady m
  else if m.params.any shape.accepts then refuse methodNotFound m
  else refuse invalidParams m

/-- Handles one message. -/
def handle (world : World) (m : Message) (s : Server) : Server × Reply :=
  if s.phase = .exited then (s, {})
  else
    match m.method with
    | "initialize" => handleInitialize world m s
    | "shutdown" => handleShutdown m s
    | "exit" => ({ s with phase := .exited }, {})
    | "initialized" => notified (fun v => v.record? true []) (fun _ s => (s, [greeting])) m s
    | "textDocument/didOpen" => notified readDidOpen (change world) m s
    | "textDocument/didChange" =>
      notified readDidChange (fun f s => match f with
        | some f => change world f s
        | none => (s, [])) m s
    | "textDocument/didClose" => notified readDidClose close m s
    | "$/cancelRequest" => (s, refuse invalidRequest m)
    | method =>
      if Request.ignoredNotifications.contains method then
        notified some (fun _ s => (s, [])) m s
      else
        match Request.unserved.lookup method with
        | some shape => (s, s.unserved shape m)
        | none => (s, refuse methodNotFound m)

end Server

end Polyglot
