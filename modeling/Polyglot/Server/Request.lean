import Polyglot.Server.Shape

/-!
The requests of the protocol that the server knows of and does not serve, with the shapes of their
parameters. A request whose parameters are ill formed is refused as such.
-/
namespace Polyglot.Server.Request

open Shape

/-! Places. -/

def position : Shape := record [need "line" nat32, need "character" nat32]

def range : Shape := record [need "start" position, need "end" position]

def location : Shape := record [need "uri" address, need "range" range]

def document : Shape := record [need "uri" address]

/-! What many parameters have in common. -/

def token : Shape := either [int32, string]

def inDocument : List Field := [need "textDocument" document]

def atPosition : List Field := [need "textDocument" document, need "position" position]

def progress : List Field := [may "workDoneToken" token]

def partialResults : List Field := [may "workDoneToken" token, may "partialResultToken" token]

/-- Parameters of which some are shared go by their names. -/
def params (fields : List Field) : Shape := named fields any

/-! Contents. -/

def markup : Shape := record [need "kind" (word ["plaintext", "markdown"]), need "value" string]

def documentation : Shape := either [string, markup]

def command : Shape :=
  record [need "title" string, need "command" string, may "arguments" (list any)]

def textEdit : Shape := record [need "range" range, need "newText" string]

def diagnostic : Shape :=
  record [
    need "range" range,
    may "severity" int32,
    may "code" token,
    may "codeDescription" (record [need "href" address]),
    may "source" string,
    need "message" string,
    may "relatedInformation"
      (list (record [need "location" location, need "message" string])),
    may "tags" (list int32),
    may "data" any]

/-! Edits. -/

def documentEdit : Shape :=
  record [
    need "textDocument" (record [need "uri" address, may "version" int32]),
    need "edits" (list textEdit)]

def createFile : Shape :=
  record [
    need "kind" (word ["create"]),
    need "uri" address,
    may "options" (record (flags ["overwrite", "ignoreIfExists"])),
    may "annotationId" string]

def renameFile : Shape :=
  record [
    need "kind" (word ["rename"]),
    need "oldUri" address,
    need "newUri" address,
    may "options" (record (flags ["overwrite", "ignoreIfExists"])),
    may "annotationId" string]

def deleteFile : Shape :=
  record [
    need "kind" (word ["delete"]),
    need "uri" address,
    may "options" (record [may "recursive" bool, may "ignoreIfNotExists" bool,
      may "annotationId" string])]

def workspaceEdit : Shape :=
  record [
    mayLack "changes" (map address (list textEdit)),
    may "documentChanges" (list (either [createFile, renameFile, deleteFile, documentEdit])),
    may "changeAnnotations" (map string (record [
      need "label" string, may "needsConfirmation" bool, may "description" string]))]

/-! Items that are completed by a second request. -/

def hierarchyItem (tags : Shape) : Shape :=
  record [
    need "name" string,
    need "kind" int32,
    may "tags" tags,
    may "detail" string,
    need "uri" address,
    need "range" range,
    need "selectionRange" range,
    may "data" any]

def documentLink : Shape :=
  record [need "range" range, may "target" address, may "tooltip" string, may "data" any]

def codeLens : Shape := record [need "range" range, may "command" command, may "data" any]

def hintPart : Shape :=
  record [
    need "value" string,
    may "tooltip" documentation,
    may "location" location,
    may "command" command]

def inlayHint : Shape :=
  record [
    need "position" position,
    need "label" (either [string, list hintPart]),
    may "kind" int32,
    may "textEdits" (list textEdit),
    may "tooltip" documentation,
    may "paddingLeft" bool,
    may "paddingRight" bool,
    may "data" any]

def completionEdit : Shape :=
  either [textEdit,
    record [need "newText" string, need "insert" range, need "replace" range]]

def completionItem : Shape :=
  record [
    need "label" string,
    may "labelDetails" (record [may "detail" string, may "description" string]),
    may "kind" int32,
    may "detail" string,
    may "documentation" documentation,
    may "deprecated" bool,
    may "preselect" bool,
    may "sortText" string,
    may "filterText" string,
    may "insertText" string,
    may "insertTextFormat" int32,
    may "insertTextMode" int32,
    may "textEdit" completionEdit,
    may "additionalTextEdits" (list textEdit),
    may "command" command,
    may "commitCharacters" (list string),
    may "data" any,
    may "tags" (list int32)]

def codeAction : Shape :=
  record [
    need "title" string,
    may "kind" string,
    may "diagnostics" (list diagnostic),
    may "edit" workspaceEdit,
    may "command" command,
    may "isPreferred" bool,
    may "disabled" (record [need "reason" string]),
    may "data" any]

def workspaceSymbol : Shape :=
  record [
    need "name" string,
    need "kind" int32,
    may "tags" (list int32),
    may "containerName" string,
    need "location" (either [location, document]),
    may "data" any]

/-! Options. -/

/-- Options of formatting; those without a meaning of their own are flags, numbers or texts. -/
def formatting : Shape :=
  named [
    need "tabSize" nat32,
    need "insertSpaces" bool,
    may "trimTrailingWhitespace" bool,
    may "insertFinalNewline" bool,
    may "trimFinalNewlines" bool] (either [bool, int32, string])

def signature : Shape :=
  record [
    need "label" string,
    may "documentation" documentation,
    may "parameters" (list (record [
      need "label" (either [string, tuple [nat32, nat32]]),
      may "documentation" documentation])),
    may "activeParameter" nat32]

def signatureContext : Shape :=
  record [
    need "triggerKind" int32,
    may "triggerCharacter" string,
    need "isRetrigger" bool,
    may "activeSignatureHelp" (record [
      need "signatures" (list signature),
      may "activeSignature" nat32,
      may "activeParameter" nat32])]

def codeActionContext : Shape :=
  record [
    need "diagnostics" (list diagnostic),
    may "only" (list string),
    may "triggerKind" int32]

def color : Shape :=
  record [need "red" number, need "green" number, need "blue" number, need "alpha" number]

def files (fields : List String) : Shape :=
  record [need "files" (list (record (fields.map (need · string))))]

/-- The requests that are not served. -/
def unserved : List (String × Shape) :=
  [ ("textDocument/willSaveWaitUntil", record (inDocument ++ [need "reason" int32])),
    ("textDocument/declaration", params (atPosition ++ partialResults)),
    ("textDocument/definition", params (atPosition ++ partialResults)),
    ("textDocument/typeDefinition", params (atPosition ++ partialResults)),
    ("textDocument/implementation", params (atPosition ++ partialResults)),
    ("textDocument/references", params (atPosition ++ partialResults ++
      [need "context" (record [need "includeDeclaration" bool])])),
    ("textDocument/prepareCallHierarchy", params (atPosition ++ progress)),
    ("callHierarchy/incomingCalls",
      params (need "item" (hierarchyItem (list int32)) :: partialResults)),
    ("callHierarchy/outgoingCalls",
      params (need "item" (hierarchyItem (list int32)) :: partialResults)),
    ("textDocument/prepareTypeHierarchy", params (atPosition ++ progress)),
    ("typeHierarchy/supertypes", params (need "item" (hierarchyItem int32) :: partialResults)),
    ("typeHierarchy/subtypes", params (need "item" (hierarchyItem int32) :: partialResults)),
    ("textDocument/documentHighlight", params (atPosition ++ partialResults)),
    ("textDocument/documentLink", params (inDocument ++ partialResults)),
    ("documentLink/resolve", documentLink),
    ("textDocument/hover", params (atPosition ++ progress)),
    ("textDocument/codeLens", params (inDocument ++ partialResults)),
    ("codeLens/resolve", codeLens),
    ("textDocument/foldingRange", params (inDocument ++ partialResults)),
    ("textDocument/selectionRange",
      params (inDocument ++ [need "positions" (list position)] ++ partialResults)),
    ("textDocument/documentSymbol", params (inDocument ++ partialResults)),
    ("textDocument/semanticTokens/full", params (inDocument ++ partialResults)),
    ("textDocument/semanticTokens/full/delta",
      params (inDocument ++ [need "previousResultId" string] ++ partialResults)),
    ("textDocument/semanticTokens/range",
      params (inDocument ++ [need "range" range] ++ partialResults)),
    ("textDocument/inlineValue", params (inDocument ++ [
      need "range" range,
      need "context" (record [need "frameId" int32, need "stoppedLocation" range])] ++ progress)),
    ("textDocument/inlayHint", params (inDocument ++ [need "range" range] ++ progress)),
    ("inlayHint/resolve", inlayHint),
    ("textDocument/moniker", params (atPosition ++ partialResults)),
    ("textDocument/completion", params (atPosition ++ partialResults ++
      [may "context" (record [need "triggerKind" int32, may "triggerCharacter" string])])),
    ("completionItem/resolve", completionItem),
    ("textDocument/diagnostic", params (inDocument ++
      [may "identifier" string, may "previousResultId" string] ++ partialResults)),
    ("workspace/diagnostic", params ([
      may "identifier" string,
      need "previousResultIds" (list (record [need "uri" address, need "value" string]))] ++
        partialResults)),
    ("textDocument/signatureHelp",
      params (atPosition ++ [may "context" signatureContext] ++ progress)),
    ("textDocument/codeAction", params (inDocument ++
      [need "range" range, need "context" codeActionContext] ++ partialResults)),
    ("codeAction/resolve", codeAction),
    ("textDocument/documentColor", params (inDocument ++ partialResults)),
    ("textDocument/colorPresentation", params (inDocument ++
      [need "color" color, need "range" range] ++ partialResults)),
    ("textDocument/formatting", params (inDocument ++ [need "options" formatting] ++ progress)),
    ("textDocument/rangeFormatting", params (inDocument ++
      [need "range" range, need "options" formatting] ++ progress)),
    ("textDocument/onTypeFormatting", params (atPosition ++
      [need "ch" string, need "options" formatting])),
    ("textDocument/rename", params (atPosition ++ [need "newName" string] ++ progress)),
    ("textDocument/prepareRename", record atPosition),
    ("textDocument/linkedEditingRange", params (atPosition ++ progress)),
    ("workspace/symbol", params (need "query" string :: partialResults)),
    ("workspaceSymbol/resolve", workspaceSymbol),
    ("workspace/willCreateFiles", files ["uri"]),
    ("workspace/willRenameFiles", files ["oldUri", "newUri"]),
    ("workspace/willDeleteFiles", files ["uri"]),
    ("workspace/executeCommand",
      params ([need "command" string, usually "arguments" (list any)] ++ progress)) ]

/-- Notifications that are passed over. -/
def ignoredNotifications : List String :=
  [ "textDocument/willSave", "textDocument/didSave", "workspace/didChangeConfiguration",
    "workspace/didChangeWorkspaceFolders", "workspace/didChangeWatchedFiles",
    "workspace/didCreateFiles", "workspace/didRenameFiles", "workspace/didDeleteFiles" ]

end Polyglot.Server.Request
