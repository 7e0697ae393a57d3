import Polyglot.Extraction.Extractor
import Polyglot.Rules

/-!
A block is one piece of raw text after its way into a document: the lines it became, which raw
line each of them stands for, and where its foreign code went. The two line tables of a document
are read off its blocks: one row for every line of the buffer, one row for every raw line.
-/
namespace Polyglot

/-- One line of the buffer, whether a rule made it, and the raw line of its block that it stands
for. -/
structure Line where
  text : Text
  replaced : Bool
  origin : Option Nat
deriving DecidableEq

/-- Where a foreign range of a block went: the document that took it, how much that document
held before, and where the range starts inside the code that the document was given. -/
structure ForeignBlock where
  bufferLine : Nat
  sourceLine : Nat
  document : String
  editor : String
  shift : Pos .source
deriving DecidableEq

/-- The source position, in the document that took the code, of a place that is given as seen
from the start of the range. Only the first line of the code carries the column shift. -/
def ForeignBlock.position (b : ForeignBlock) (relative : Pos .text) : Pos .source :=
  let line := relative.line + b.shift.line
  ⟨b.sourceLine + line, if line = 0 then relative.column + b.shift.column else relative.column⟩

/-- A row of the table of buffer lines. Separators and lines that a rule added stand for no
source line; on silenced lines the document's own diagnostics are not shown. -/
structure BufferLine where
  source : Option Nat
  editor : String
  silenced : Bool
deriving DecidableEq

/-- A row of the table of source lines: the line of its block, where the block starts in its
editor, the foreign ranges of the block, and the buffer line it became. -/
structure SourceLine where
  editorLine : Nat
  shift : Pos .editor
  editor : String
  foreign : List (Range .text × ForeignBlock)
  bufferLine : Nat
deriving DecidableEq

/-- `origin` is where the block starts in its editor, `height` the number of its raw lines. -/
structure Block where
  editor : String
  origin : Pos .editor
  height : Nat
  lines : List Line
  foreign : List (Range .text × ForeignBlock)
deriving DecidableEq

namespace Block

/-- The text of a block ends with a line feed. -/
def text (b : Block) : Text := Text.unlines (b.lines.map (·.text)) ++ ['\n']

/-- The raw line that a line stands for, if the block has that line. -/
def originOf (b : Block) (line : Line) : Option Nat := line.origin.filter (· < b.height)

/-- The first line that stands for a raw line. -/
def firstOutput (b : Block) (raw : Nat) : Option Nat :=
  b.lines.findIdx? fun line => b.originOf line = some raw

/-- The line that a raw line became; one that was swallowed counts as the line before it. -/
def output (b : Block) : Nat → Nat
  | 0 => (b.firstOutput 0).getD 0
  | raw + 1 => (b.firstOutput (raw + 1)).getD (b.output raw)

/-- The rows of the buffer lines: the lines of the block and the blank lines that separate it from
the next, `firstSource` being the number of source lines before it. -/
def bufferLines (b : Block) (spacing firstSource : Nat) : List BufferLine :=
  b.lines.map (fun line => ⟨(b.originOf line).map (firstSource + ·), b.editor, line.replaced⟩) ++
    List.replicate spacing ⟨none, b.editor, true⟩

/-- The rows of the raw lines, `firstBuffer` being the number of buffer lines before the block. -/
def sourceLines (b : Block) (firstBuffer : Nat) : List SourceLine :=
  (List.range b.height).map fun raw =>
    { editorLine := raw
      shift := ⟨b.origin.line, if raw = 0 then b.origin.column else 0⟩
      editor := b.editor
      foreign := b.foreign
      bufferLine := firstBuffer + b.output raw }

/-- The number of buffer lines with the separator. -/
def depth (b : Block) (spacing : Nat) : Nat := b.lines.length + spacing

end Block

/-- The table of buffer lines of blocks that stand behind `firstSource` source lines. -/
def bufferTable (spacing : Nat) : Nat → List Block → List BufferLine
  | _, [] => []
  | firstSource, b :: rest =>
    b.bufferLines spacing firstSource ++ bufferTable spacing (firstSource + b.height) rest

/-- The table of source lines of blocks that stand behind `firstBuffer` buffer lines. -/
def sourceTable (spacing : Nat) : Nat → List Block → List SourceLine
  | _, [] => []
  | firstBuffer, b :: rest =>
    b.sourceLines firstBuffer ++ sourceTable spacing (firstBuffer + b.depth spacing) rest

/-- The blocks with blank lines between them. -/
def bufferText (spacing : Nat) (blocks : List Block) : Text :=
  List.intercalate (List.replicate spacing '\n') (blocks.map Block.text)

/-- The lines that host code becomes: replaced as a whole, or else line by line. Where one line
becomes several, the first stands for it. -/
def prepareLines (block line : RuleBook) (code : Text) : List Line :=
  match block.substitute? code with
  | some made => made.lines.mapIdx fun i text => ⟨text, true, some i⟩
  | none =>
    ((line.substituteLines code.lines).mapIdx fun i (text, replaced) =>
      text.lines.mapIdx fun piece text => (⟨text, replaced, if piece = 0 then some i else none⟩ : Line)
    ).flatten

end Polyglot
