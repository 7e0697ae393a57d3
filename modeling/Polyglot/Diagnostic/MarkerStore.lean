import Polyglot.Diagnostic.Basic

/-!
A renderer that keeps the markers it is given, so that they can be published as diagnostics of
their editor.
-/
namespace Polyglot

/-- The markers by their numbers, the latest last; `last` is the last number given. -/
structure MarkerStore where
  last : Nat := 0
  entries : List (Nat × Marker) := []

namespace MarkerStore

def attach (store : MarkerStore) (marker : Marker) : MarkerStore × Nat :=
  (⟨store.last + 1, store.entries ++ [(store.last + 1, marker)]⟩, store.last + 1)

def detach (store : MarkerStore) (id : Nat) : MarkerStore × Except MarkerError Unit :=
  if store.entries.any (·.1 = id) then
    ({ store with entries := store.entries.filter (·.1 ≠ id) }, .ok ())
  else (store, .error (.rejected s!"unknown marker {id}"))

def size (store : MarkerStore) : Nat := store.entries.length

/-- The markers of an editor as the table gives them. Nothing fixes their order; here it is that of
the severities. -/
def held (store : MarkerStore) (editor : String) : List Marker :=
  ((store.entries.map (·.2)).filter (·.editor = editor)).mergeSort (·.severity ≤ ·.severity)

/-- By range and title. -/
def before (a b : Marker) : Bool :=
  if a.range ≠ b.range then a.range.before b.range else a.title ≤ b.title

def markersOf (store : MarkerStore) (editor : String) : List Marker :=
  (store.held editor).mergeSort before

/-- The markers of an editor as it is told about them. -/
def published (store : MarkerStore) (editor : String) : List (Diagnostic .editor) :=
  (store.markersOf editor).map fun m =>
    { range := m.range, message := m.title, severity := some m.severity }

def renderer : Renderer MarkerStore where
  attach := fun store marker =>
    let (store, id) := store.attach marker
    (store, .ok id)
  detach := detach

end MarkerStore

end Polyglot
