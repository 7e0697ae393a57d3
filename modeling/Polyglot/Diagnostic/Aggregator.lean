import Polyglot.Diagnostic.Basic
import Polyglot.Document.Mapping

/-!
Showing the diagnostics of documents in editors. Those that share a range become one marker. A
batch for a document replaces the batch before it, and only the differences are drawn: a marker
that says the same at the same place stays.
-/
namespace Polyglot

/-- What makes two markers the same: what they say, and where. -/
structure MarkerKey where
  members : List Member
  range : Range .editor
  editor : String
deriving DecidableEq

/-- A diagnostic in the place where it is shown. -/
structure Placed where
  diagnostic : Diagnostic .buffer
  editor : String
  range : Range .editor
deriving DecidableEq

/-- Why a diagnostic is not shown: it is behind the end of its buffer, a nested document owns its
place, its line was replaced, or its place is not to be found. -/
inductive Discard where
  | stale (line lastLine : Nat)
  | covered (owner : Url)
  | silenced
  | unplaceable (cause : DocumentError)

/-- The editor and the range in it of a range in the buffer of a document. A range that ends
nowhere is one column wide. -/
def anchor (root document : Document) (range : Range .buffer) :
    Except Discard (String × Range .editor) := do
  let lastLine := document.bufferLines.length - document.info.config.spacing
  if range.start.line > lastLine then throw (.stale range.start.line lastLine)
  let editor ← (document.editorOfBufferLine range.start.line).mapError .unplaceable
  let start ← (document.bufferToEditor range.start).mapError .unplaceable
  let source ← (root.editorToSource editor start).mapError .unplaceable
  let owner := Document.documentAt source root
  if owner.idPath ≠ document.idPath then throw (.covered owner.uri)
  if document.silences range.start.line document.idPath then throw .silenced
  let stop :=
    match document.bufferToEditor range.stop with
    | .ok stop => stop
    | .error _ => ⟨start.line, start.column + 1⟩
  return (editor, ⟨start, stop⟩)

/-- What came of a batch: how many diagnostics are shown, how many are not, and whether it was for
a document that is not in the tree. -/
structure BatchOutcome where
  accepted : Nat := 0
  discarded : Nat := 0
  rejected : Bool := false
deriving DecidableEq

/-- The markers and the placed diagnostics of every document, by its address, and the state of
the renderer. -/
structure Aggregator (σ : Type) (κ : Type := MarkerKey) where
  drawing : σ
  markers : List (String × List (κ × Nat)) := []
  table : List (String × List Placed) := []

namespace Aggregator

variable {σ κ : Type}

/-! Maps as lists of pairs. -/

def lookup {α β : Type} [DecidableEq α] (key : α) (entries : List (α × β)) : Option β :=
  (entries.find? (·.1 = key)).map (·.2)

def erase {α β : Type} [DecidableEq α] (key : α) (entries : List (α × β)) : List (α × β) :=
  entries.filter (·.1 ≠ key)

def insert {α β : Type} [DecidableEq α] (key : α) (value : β) (entries : List (α × β)) :
    List (α × β) :=
  erase key entries ++ [(key, value)]

theorem lookup_insert_self {α β : Type} [DecidableEq α] (key : α) (value : β)
    (entries : List (α × β)) : lookup key (insert key value entries) = some value := by
  have absent : (erase key entries).find? (·.1 = key) = none := by
    simp [erase]
  simp [lookup, insert, List.find?_append, absent]

/-! Groups. -/

/-- The diagnostics of each range, in the order of the ranges. -/
def groups (diagnostics : List (Diagnostic .buffer)) : List (List (Diagnostic .buffer)) :=
  let ranges := (diagnostics.map (·.range)).eraseDups.mergeSort Range.before
  ranges.map fun r => diagnostics.filter (·.range = r)

def membersOf (group : List (Diagnostic .buffer)) : List Member :=
  (group.map Member.ofDiagnostic).mergeSort Member.le

/-- The marker for what a key says; its severity is that of the weightiest member. -/
def markerOf (key : MarkerKey) : Marker where
  editor := key.editor
  range := key.range
  title := "\n".intercalate (key.members.map Member.title)
  severity := ((key.members.head?.map (·.rank)).getD 1 : Nat)

/-- The work on a batch so far. -/
structure Pass (σ : Type) (κ : Type := MarkerKey) where
  drawing : σ
  kept : List (κ × Nat) := []
  placed : List Placed := []
  accepted : Nat := 0
  discarded : Nat := 0

/-- Shows one group: by a marker that is there already, or by a new one. -/
def showGroup (renderer : Renderer σ) (root document : Document)
    (previous : List (MarkerKey × Nat)) (pass : Pass σ) (group : List (Diagnostic .buffer)) :
    Pass σ :=
  match group with
  | [] => pass
  | first :: _ =>
    match anchor root document first.range with
    | .error _ => { pass with discarded := pass.discarded + group.length }
    | .ok (editor, range) =>
      let key : MarkerKey := ⟨membersOf group, range, editor⟩
      let shown := fun (drawing : σ) (id : Nat) =>
        { pass with
          drawing := drawing
          kept := insert key id pass.kept
          placed := pass.placed ++ group.map (⟨·, editor, range⟩)
          accepted := pass.accepted + group.length }
      match lookup key previous with
      | some id => shown pass.drawing id
      | none =>
        match renderer.attach pass.drawing (markerOf key) with
        | (drawing, .ok id) => shown drawing id
        | (drawing, .error _) =>
          { pass with drawing := drawing, discarded := pass.discarded + group.length }

/-- Takes markers away; a refusal is passed over. -/
def detachAll (renderer : Renderer σ) (drawing : σ) (markers : List (κ × Nat)) : σ :=
  markers.foldl (fun drawing m => (renderer.detach drawing m.2).1) drawing

/-- Takes in a batch of diagnostics for the document at an address. -/
def handle (renderer : Renderer σ) (root : Document) (target : Url)
    (diagnostics : List (Diagnostic .buffer)) (a : Aggregator σ) : Aggregator σ × BatchOutcome :=
  match root.find? target with
  | none => (a, { rejected := true })
  | some document =>
    let previous := (lookup target.href a.markers).getD []
    let pass := (groups diagnostics).foldl (showGroup renderer root document previous)
      { drawing := a.drawing }
    let gone := previous.filter fun m => (lookup m.1 pass.kept).isNone
    ({ drawing := detachAll renderer pass.drawing gone
       markers := insert target.href pass.kept a.markers
       table := insert target.href pass.placed a.table },
     { accepted := pass.accepted, discarded := pass.discarded })

/-- Drops all that is shown for a document. -/
def forget (renderer : Renderer σ) (target : String) (a : Aggregator σ κ) : Aggregator σ κ where
  drawing := detachAll renderer a.drawing ((lookup target a.markers).getD [])
  markers := erase target a.markers
  table := erase target a.table

/-- Drops all that is shown for documents that have left the tree. -/
def prune (renderer : Renderer σ) (root : Document) (a : Aggregator σ κ) : Aggregator σ κ :=
  let gone := (a.markers.map (·.1)).filter fun uri => !root.walk.any (·.uri.href = uri)
  gone.foldl (fun a uri => a.forget renderer uri) a

def markerCount (a : Aggregator σ) (target : Url) : Nat :=
  ((lookup target.href a.markers).getD []).length

/-- What is shown for a document. -/
def placedOf (a : Aggregator σ) (target : Url) : Option (List Placed) :=
  lookup target.href a.table

/-- What is shown in an editor, in the order of the ranges. -/
def placedIn (a : Aggregator σ) (editor : String) : List Placed :=
  ((a.table.flatMap (·.2)).filter (·.editor = editor)).mergeSort fun p q => p.range.before q.range

end Aggregator

end Polyglot
