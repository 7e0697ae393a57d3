import Polyglot.Diagnostic.Basic
import Polyglot.Server.ClientCapabilities

/-!
The messages of the language server protocol that the server understands, and those it sends.
-/
namespace Polyglot.Server

/-- A message as it arrives; requests await a response. -/
structure Message where
  method : String
  params : Option Value
  isRequest : Bool

/-- A message that the server sends of its own accord. -/
structure Sent where
  method : String
  params : Value

inductive Response where
  | result (v : Value)
  | error (code : Int)

/-! Error codes. -/

def invalidRequest : Int := -32600

def methodNotFound : Int := -32601

def invalidParams : Int := -32602

def notInitialized : Int := -32002

/-! Parameters. -/

def url? (v : Value) : Option Url := v.string?.bind fun s => (Url.parse s).toOption

def int32? (v : Value) : Option Int := v.intIn? (-2147483648) 2147483648

/-- Where a workspace lies, if the client says so. -/
structure InitializeParams where
  folders : Option (List Url)
  root : Option Url

def readFolder (v : Value) : Option Url := do
  let r ← v.record? true ["uri", "name"]
  let uri ← r.required "uri" url?
  let _ ← r.required "name" Value.string?
  return uri

/-- Data that must be of a shape and is not used. -/
def shaped? (shape : Shape) (v : Value) : Option Unit := if shape.accepts v then some () else none

def clientInfo : Shape := .record [need "name" .string, may "version" .string]

def readInitialize (v : Value) : Option InitializeParams := do
  let r ← v.record? true
    ["processId", "rootPath", "rootUri", "initializationOptions", "capabilities", "trace",
      "workspaceFolders", "clientInfo", "locale"]
  let _ ← r.optional "processId" (Value.nat? 32)
  let _ ← r.optional "rootPath" Value.string?
  let root ← r.optional "rootUri" url?
  let _ ← r.required "capabilities" (shaped? ClientCapabilities.shape)
  let _ ← r.optional "trace" (shaped? (.word ["off", "messages", "verbose"]))
  let folders ← r.optional "workspaceFolders" (Value.list? readFolder)
  let _ ← r.optional "clientInfo" (shaped? clientInfo)
  let _ ← r.optional "locale" Value.string?
  return ⟨folders, root⟩

/-- A file with its whole text. -/
structure FileText where
  uri : Url
  version : Int
  text : Text

def readDidOpen (v : Value) : Option FileText := do
  let r ← v.record? true ["textDocument"]
  r.required "textDocument" fun v => do
    let r ← v.record? true ["uri", "languageId", "version", "text"]
    let uri ← r.required "uri" url?
    let _ ← r.required "languageId" Value.string?
    let version ← r.required "version" int32?
    let text ← r.required "text" Value.string?
    return ⟨uri, version, text.toList⟩

def readPosition (v : Value) : Option Unit := do
  let r ← v.record? true ["line", "character"]
  let _ ← r.required "line" (Value.nat? 32)
  let _ ← r.required "character" (Value.nat? 32)

def readRange (v : Value) : Option Unit := do
  let r ← v.record? true ["start", "end"]
  let _ ← r.required "start" readPosition
  let _ ← r.required "end" readPosition

def readChange (v : Value) : Option Text := do
  let r ← v.record? true ["range", "rangeLength", "text"]
  let _ ← r.optional "range" readRange
  let _ ← r.optional "rangeLength" (Value.nat? 32)
  let text ← r.required "text" Value.string?
  return text.toList

/-- The file after its changes, each of which brings the whole text; nothing if there are none. -/
def readDidChange (v : Value) : Option (Option FileText) := do
  let r ← v.record? true ["textDocument", "contentChanges"]
  let (uri, version) ← r.required "textDocument" fun v => do
    let r ← v.record? true ["uri", "version"]
    let uri ← r.required "uri" url?
    let version ← r.required "version" int32?
    return (uri, version)
  let changes ← r.required "contentChanges" (Value.list? readChange)
  return changes.getLast?.map fun text => ⟨uri, version, text⟩

def readDidClose (v : Value) : Option Url := do
  let r ← v.record? true ["textDocument"]
  r.required "textDocument" fun v => do
    let r ← v.record? true ["uri"]
    r.required "uri" url?

/-! Messages of the server. -/

def ofNat (n : Nat) : Value := .int n

def ofPosition (p : Pos .editor) : Value :=
  .table [("line", ofNat p.line), ("character", ofNat p.column)]

def ofDiagnostic (d : Diagnostic .editor) : Value :=
  .table (
    [("range", .table [("start", ofPosition d.range.start), ("end", ofPosition d.range.stop)]),
      ("message", .string d.message)] ++
    (match d.severity with | some s => [("severity", .int s)] | none => []) ++
    (match d.code with
      | some (.text s) => [("code", .string s)]
      | some (.number n) => [("code", .int n)]
      | none => []) ++
    (match d.source with | some s => [("source", .string s)] | none => []))

/-- What is shown in a file, with the version of the file if it has one. -/
def publish (uri : Url) (diagnostics : List (Diagnostic .editor)) (version : Option Int) : Sent where
  method := "textDocument/publishDiagnostics"
  params := .table (
    [("uri", .string uri.href), ("diagnostics", .array (diagnostics.map ofDiagnostic))] ++
    (match version with | some v => [("version", .int v)] | none => []))

def greeting : Sent where
  method := "window/logMessage"
  params := .table [("type", .int 3), ("message", .string "polydoc language server initialized")]

/-- The answer to `initialize`: the server takes whole texts. -/
def capabilities : Value :=
  .table [
    ("capabilities", .table [("textDocumentSync", .int 1)]),
    ("serverInfo", .table [("name", .string "polydoc"), ("version", .string "0.1.0")])]

end Polyglot.Server
