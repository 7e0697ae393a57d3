import Polyglot.Document.Basic

/-!
From one space to another. The source of a document is the sequence of the raw lines of its
blocks; a position in it belongs to an editor, to the buffer of the document, or, inside a foreign
range, to a child.
-/
namespace Polyglot.Document

abbrev Mapped (α : Type) := Except DocumentError α

def sourceLine (d : Document) (line : Nat) : Mapped SourceLine :=
  match d.sourceLines[line]? with
  | some row => .ok row
  | none => .error (.unmappedSourceLine line d.idPath)

/-- The first foreign range around a place whose document is a child, and the place in the source
of that child. -/
def descent? (children : List Document) (row : SourceLine) (column : Nat) :
    Option (String × Pos .source) :=
  let place : Pos .text := ⟨row.editorLine, column⟩
  (row.foreign.find? fun (range, block) =>
    range.contains place && children.any (·.key = block.document)).map fun (range, block) =>
      (block.document, block.position (range.relative place))

mutual

/-- The innermost document whose foreign range is around a source position. -/
def documentAt (p : Pos .source) : Document → Document
  | node info children parked =>
    match (sourceTable info.config.spacing 0 info.blocks)[p.line]? with
    | none => node info children parked
    | some row =>
      match descent? children row p.column with
      | none => node info children parked
      | some (key, q) => (documentAtKey key q children).getD (node info children parked)

def documentAtKey (key : String) (p : Pos .source) : List Document → Option Document
  | [] => none
  | d :: rest => if d.key = key then some (documentAt p d) else documentAtKey key p rest

end

mutual

/-- The buffer position of a source position, in the innermost document around it. -/
def bufferPositionAt (p : Pos .source) : Document → Mapped (Document × Pos .buffer)
  | node info children parked =>
    match (sourceTable info.config.spacing 0 info.blocks)[p.line]? with
    | none => .error (.unmappedSourceLine p.line info.id.idPath)
    | some row =>
      match descent? children row p.column with
      | none => .ok (node info children parked, ⟨row.bufferLine, p.column⟩)
      | some (key, q) =>
        (bufferPositionAtKey key q children).getD
          (.ok (node info children parked, ⟨row.bufferLine, p.column⟩))

def bufferPositionAtKey (key : String) (p : Pos .source) :
    List Document → Option (Mapped (Document × Pos .buffer))
  | [] => none
  | d :: rest =>
    if d.key = key then some (bufferPositionAt p d) else bufferPositionAtKey key p rest

end

/-- The columns that a source line is moved by in its editor. -/
def columnShift (row : SourceLine) : Nat := if row.editorLine = 0 then row.shift.column else 0

/-- The place of a source position in its editor. The sums are exact; where they do not fit into 32
bits, the place comes around to zero when it is told. -/
def sourceToEditor (d : Document) (p : Pos .source) : Mapped (Pos .editor) :=
  (d.sourceLine p.line).map fun row =>
    ⟨row.editorLine + row.shift.line, p.column + columnShift row⟩

def bufferToSource (d : Document) (p : Pos .buffer) : Mapped (Pos .source) :=
  match d.bufferLines[p.line]? with
  | none => .error (.unmappedBufferLine p.line d.idPath)
  | some row =>
    match row.source with
    | none => .error (.syntheticLine p.line d.idPath)
    | some line => .ok ⟨line, p.column⟩

def bufferToEditor (d : Document) (p : Pos .buffer) : Mapped (Pos .editor) :=
  (d.bufferToSource p).bind d.sourceToEditor

/-- The source position of a place in an editor, by the first source line that lies there. -/
def editorToSource (d : Document) (editor : String) (p : Pos .editor) : Mapped (Pos .source) :=
  let lies := fun (row : SourceLine) =>
    row.editor = editor && row.editorLine + row.shift.line = p.line
  match d.sourceLines.findIdx? lies, d.sourceLines.find? lies with
  | some line, some row => .ok ⟨line, p.column - columnShift row⟩
  | _, _ => .error (.noEditorAtPosition editor p.line)

/-- The editor of a buffer line; the line behind the last counts as the last. -/
def editorOfBufferLine (d : Document) (line : Nat) : Mapped String :=
  let rows := d.bufferLines
  match rows[if line = rows.length then line - 1 else line]? with
  | some row => .ok row.editor
  | none => .error (.unmappedBufferLine line d.idPath)

def editorOfSourceLine (d : Document) (line : Nat) : Mapped String :=
  (d.sourceLine line).map (·.editor)

end Polyglot.Document
