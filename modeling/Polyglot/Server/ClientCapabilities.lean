import Polyglot.Server.Shape

/-!
What a client says it can do, by the areas of the protocol. Nothing in it matters to the server, but
it must be well formed.
-/
namespace Polyglot.Server.ClientCapabilities

open Shape

def dynamic : Shape := record (flags ["dynamicRegistration"])

def refreshing : Shape := record (flags ["refreshSupport"])

def linking : Shape := record (flags ["dynamicRegistration", "linkSupport"])

def properties : Shape := record [need "properties" (list string)]

def symbolKinds : Shape := record [may "valueSet" (list int32)]

/-- Support for tags is a list of them, or a flag, which is passed over. -/
def tags : Shape := either [bool, record [need "valueSet" (list int32)]]

def markups : Shape := list (word ["plaintext", "markdown"])

/-! The workspace. -/

def workspaceEdit : Shape :=
  record [
    may "documentChanges" bool,
    may "resourceOperations" (list (word ["create", "rename", "delete"])),
    may "failureHandling" (word ["abort", "transactional", "textOnlyTransactional", "undo"]),
    may "normalizesLineEndings" bool,
    may "changeAnnotationSupport" (record (flags ["groupsOnLabel"]))]

def workspaceSymbol : Shape :=
  record [
    may "dynamicRegistration" bool,
    may "symbolKind" symbolKinds,
    mayLack "tagSupport" tags,
    may "resolveSupport" properties]

def fileOperations : Shape :=
  record (flags ["dynamicRegistration", "didCreate", "willCreate", "didRename", "willRename",
    "didDelete", "willDelete"])

def workspace : Shape :=
  record [
    may "applyEdit" bool,
    may "workspaceEdit" workspaceEdit,
    may "didChangeConfiguration" dynamic,
    may "didChangeWatchedFiles" (record (flags ["dynamicRegistration", "relativePatternSupport"])),
    may "symbol" workspaceSymbol,
    may "executeCommand" dynamic,
    may "workspaceFolders" bool,
    may "configuration" bool,
    may "semanticTokens" refreshing,
    may "codeLens" refreshing,
    may "fileOperations" fileOperations,
    may "inlineValue" refreshing,
    may "inlayHint" refreshing,
    may "diagnostic" refreshing]

/-! Text documents. -/

def synchronization : Shape :=
  record (flags ["dynamicRegistration", "willSave", "willSaveWaitUntil", "didSave"])

def completionItem : Shape :=
  record [
    may "snippetSupport" bool,
    may "commitCharactersSupport" bool,
    may "documentationFormat" markups,
    may "deprecatedSupport" bool,
    may "preselectSupport" bool,
    mayLack "tagSupport" tags,
    may "insertReplaceSupport" bool,
    may "resolveSupport" properties,
    may "insertTextModeSupport" (record [need "valueSet" (list int32)]),
    may "labelDetailsSupport" bool]

def completion : Shape :=
  record [
    may "dynamicRegistration" bool,
    may "completionItem" completionItem,
    may "completionItemKind" (record [may "valueSet" (list int32)]),
    may "contextSupport" bool,
    may "insertTextMode" int32,
    may "completionList" (record [may "itemDefaults" (list string)])]

def hover : Shape := record [may "dynamicRegistration" bool, may "contentFormat" markups]

def signatureInformation : Shape :=
  record [
    may "documentationFormat" markups,
    may "parameterInformation" (record (flags ["labelOffsetSupport"])),
    may "activeParameterSupport" bool]

def signatureHelp : Shape :=
  record [
    may "dynamicRegistration" bool,
    may "signatureInformation" signatureInformation,
    may "contextSupport" bool]

def documentSymbol : Shape :=
  record [
    may "dynamicRegistration" bool,
    may "symbolKind" symbolKinds,
    may "hierarchicalDocumentSymbolSupport" bool,
    mayLack "tagSupport" tags]

def codeAction : Shape :=
  record [
    may "dynamicRegistration" bool,
    may "codeActionLiteralSupport"
      (record [need "codeActionKind" (record [need "valueSet" (list string)])]),
    may "isPreferredSupport" bool,
    may "disabledSupport" bool,
    may "dataSupport" bool,
    may "resolveSupport" properties,
    may "honorsChangeAnnotations" bool]

def rename : Shape :=
  record [
    may "dynamicRegistration" bool,
    may "prepareSupport" bool,
    may "prepareSupportDefaultBehavior" int32,
    may "honorsChangeAnnotations" bool]

def publishDiagnostics : Shape :=
  record [
    may "relatedInformation" bool,
    mayLack "tagSupport" tags,
    may "versionSupport" bool,
    may "codeDescriptionSupport" bool,
    may "dataSupport" bool]

def foldingRange : Shape :=
  record [
    may "dynamicRegistration" bool,
    may "rangeLimit" nat32,
    may "lineFoldingOnly" bool,
    may "foldingRangeKind"
      (record [may "valueSet" (list (word ["comment", "imports", "region"]))]),
    may "foldingRange" (record (flags ["collapsedText"]))]

def semanticTokens : Shape :=
  record [
    may "dynamicRegistration" bool,
    need "requests" (record [
      may "range" bool,
      may "full" (either [bool, named (flags ["delta"]) any])]),
    need "tokenTypes" (list string),
    need "tokenModifiers" (list string),
    need "formats" (list string),
    may "overlappingTokenSupport" bool,
    may "multilineTokenSupport" bool,
    may "serverCancelSupport" bool,
    may "augmentsSyntaxTokens" bool]

def textDocument : Shape :=
  record [
    may "synchronization" synchronization,
    may "completion" completion,
    may "hover" hover,
    may "signatureHelp" signatureHelp,
    may "references" dynamic,
    may "documentHighlight" dynamic,
    may "documentSymbol" documentSymbol,
    may "formatting" dynamic,
    may "rangeFormatting" dynamic,
    may "onTypeFormatting" dynamic,
    may "declaration" linking,
    may "definition" linking,
    may "typeDefinition" linking,
    may "implementation" linking,
    may "codeAction" codeAction,
    may "codeLens" dynamic,
    may "documentLink" (record (flags ["dynamicRegistration", "tooltipSupport"])),
    may "colorProvider" dynamic,
    may "rename" rename,
    may "publishDiagnostics" publishDiagnostics,
    may "foldingRange" foldingRange,
    may "selectionRange" dynamic,
    may "linkedEditingRange" dynamic,
    may "callHierarchy" dynamic,
    may "semanticTokens" semanticTokens,
    may "moniker" dynamic,
    may "typeHierarchy" dynamic,
    may "inlineValue" dynamic,
    may "inlayHint" (record [may "dynamicRegistration" bool, may "resolveSupport" properties]),
    may "diagnostic" (record (flags ["dynamicRegistration", "relatedDocumentSupport"]))]

/-! The window and the rest. -/

def window : Shape :=
  record [
    may "workDoneProgress" bool,
    may "showMessage"
      (record [may "messageActionItem" (record (flags ["additionalPropertiesSupport"]))]),
    may "showDocument" (record [need "support" bool])]

def general : Shape :=
  record [
    may "regularExpressions" (record [need "engine" string, may "version" string]),
    may "markdown"
      (record [need "parser" string, may "version" string, may "allowedTags" (list string)]),
    may "staleRequestSupport"
      (record [need "cancel" bool, need "retryOnContentModified" (list string)]),
    may "positionEncodings" (list string)]

/-- All that a client may say. -/
def shape : Shape :=
  record [
    may "workspace" workspace,
    may "textDocument" textDocument,
    may "window" window,
    may "general" general,
    may "experimental" any]

end Polyglot.Server.ClientCapabilities
