import Polyglot.Proofs.Composition

/-!
What a document shows depends on the notes of its blocks only where it repeats them: the buffer and
the table of its lines do not show the notes, and the table of source lines shows those of each
block in the rows of the block. So documents whose blocks differ in their notes alone show the same
lines in the same places.
-/
namespace Polyglot

/-- The notes of a block: which range went where. -/
abbrev Notes := List (Range .text × ForeignBlock)

namespace Block

def mapNotes (f : Notes → Notes) (b : Block) : Block := { b with foreign := f b.foreign }

/-- A block apart from what it notes of other documents. -/
def bare (b : Block) : Block := { b with foreign := [] }

end Block

namespace SourceLine

def mapNotes (f : Notes → Notes) (row : SourceLine) : SourceLine :=
  { row with foreign := f row.foreign }

def bare (row : SourceLine) : SourceLine := { row with foreign := [] }

end SourceLine

section

variable (f : Notes → Notes)

theorem Block.output_mapNotes (b : Block) (raw : Nat) : (b.mapNotes f).output raw = b.output raw := by
  induction raw with
  | zero => rfl
  | succ raw ih =>
    rw [output, output, ih]
    rfl

theorem Block.sourceLines_mapNotes (b : Block) (first : Nat) :
    (b.mapNotes f).sourceLines first = (b.sourceLines first).map (SourceLine.mapNotes f) := by
  simp only [sourceLines, List.map_map, b.output_mapNotes f]
  rfl

theorem bufferTable_mapNotes (spacing first : Nat) (blocks : List Block) :
    bufferTable spacing first (blocks.map (Block.mapNotes f)) = bufferTable spacing first blocks := by
  induction blocks generalizing first with
  | nil => rfl
  | cons b rest ih =>
    rw [List.map_cons, bufferTable, bufferTable, ih]
    rfl

theorem sourceTable_mapNotes (spacing first : Nat) (blocks : List Block) :
    sourceTable spacing first (blocks.map (Block.mapNotes f)) =
      (sourceTable spacing first blocks).map (SourceLine.mapNotes f) := by
  induction blocks generalizing first with
  | nil => rfl
  | cons b rest ih =>
    rw [List.map_cons, sourceTable, sourceTable, b.sourceLines_mapNotes f, ih, List.map_append]
    rfl

theorem bufferText_mapNotes (spacing : Nat) (blocks : List Block) :
    bufferText spacing (blocks.map (Block.mapNotes f)) = bufferText spacing blocks := by
  rw [bufferText, bufferText, List.map_map]
  rfl

end

namespace Document

/-- Documents with the same lines in the same places. -/
structure Alike (d d' : Document) : Prop where
  config_eq : d.info.config = d'.info.config
  blocks_eq : d.info.blocks.map Block.bare = d'.info.blocks.map Block.bare

section

variable {d d' : Document}

theorem Alike.value_eq (h : d.Alike d') : d.value = d'.value := by
  have hbare := bufferText_mapNotes (fun _ => [])
  calc
    d.value = bufferText d.info.config.spacing (d.info.blocks.map Block.bare) := (hbare _ _).symm
    _ = bufferText d'.info.config.spacing (d'.info.blocks.map Block.bare) := by
      rw [h.config_eq, h.blocks_eq]
    _ = d'.value := hbare _ _

theorem Alike.bufferLines_eq (h : d.Alike d') : d.bufferLines = d'.bufferLines := by
  have hbare := bufferTable_mapNotes (fun _ => [])
  calc
    d.bufferLines = bufferTable d.info.config.spacing 0 (d.info.blocks.map Block.bare) :=
      (hbare _ _ _).symm
    _ = bufferTable d'.info.config.spacing 0 (d'.info.blocks.map Block.bare) := by
      rw [h.config_eq, h.blocks_eq]
    _ = d'.bufferLines := hbare _ _ _

theorem Alike.sourceLines_eq (h : d.Alike d') :
    d.sourceLines.map SourceLine.bare = d'.sourceLines.map SourceLine.bare := by
  have hbare := sourceTable_mapNotes (fun _ => [])
  calc
    d.sourceLines.map SourceLine.bare =
        sourceTable d.info.config.spacing 0 (d.info.blocks.map Block.bare) := (hbare _ _ _).symm
    _ = sourceTable d'.info.config.spacing 0 (d'.info.blocks.map Block.bare) := by
      rw [h.config_eq, h.blocks_eq]
    _ = d'.sourceLines.map SourceLine.bare := hbare _ _ _

end

end Document

end Polyglot
