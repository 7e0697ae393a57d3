import Polyglot.Proofs.Links
import Polyglot.Document.Mapping

/-!
Descending from a source position into the innermost document around it. Every step leads into a
block that starts where its range starts, so that all documents on the way agree on the place in
the editor.
-/
namespace Polyglot

/-- A place of a foreign range, seen from the start of the range and moved to where the range starts
in the editor, is the place that its host has there. -/
theorem relative_in_editor {range : Range .text} {place : Pos .text} (origin : Pos .editor)
    (h : range.contains place = true) :
    (range.relative place).line + (Document.foreignOrigin origin range).line =
        place.line + origin.line ∧
      (range.relative place).column +
          (if (range.relative place).line = 0 then (Document.foreignOrigin origin range).column
            else 0) =
        place.column + (if place.line = 0 then origin.column else 0) ∧
      (range.relative place).line ≤ range.stop.line - range.start.line := by
  have hinside : range.start.line ≤ place.line ∧ place.line ≤ range.stop.line ∧
      (place.line = range.start.line → range.start.column ≤ place.column) := by
    unfold Range.contains at h
    split at h
    · simp only [Bool.and_eq_true, beq_iff_eq, decide_eq_true_eq] at h
      omega
    · simp only [Pos.before, Bool.and_eq_true, Bool.or_eq_true, beq_iff_eq, decide_eq_true_eq] at h
      omega
  obtain ⟨hstart, hstop, hcolumn⟩ := hinside
  simp only [Range.relative, Document.foreignOrigin]
  refine ⟨by omega, ?_, by omega⟩
  by_cases hfirst : place.line = range.start.line
  · have := hcolumn hfirst
    simp only [hfirst, Nat.sub_self, if_true]
    split <;> omega
  · have hlater : place.line - range.start.line ≠ 0 := by omega
    have hpositive : place.line ≠ 0 := by omega
    simp only [hlater, hpositive, if_false]

namespace Document

/-- The place in the editor of a place in a raw line of a block. -/
def editorPlace (b : Block) (raw column : Nat) : Pos .editor :=
  ⟨raw + b.origin.line, column + if raw = 0 then b.origin.column else 0⟩

theorem sourceToEditor_at {d : Document} {pre post : List Block} {b : Block} {raw : Nat}
    (hblocks : d.info.blocks = pre ++ b :: post) (hraw : raw < b.height) (column : Nat) :
    d.sourceToEditor ⟨heightOf pre + raw, column⟩ = .ok (editorPlace b raw column) := by
  have hrow := sourceTable_at d.info.config.spacing pre b post hraw
  rw [← hblocks] at hrow
  simp only [sourceToEditor, sourceLine, sourceLines, hrow]
  simp only [Except.map, columnShift, editorPlace]
  split <;> rfl

/-- Notes lead to blocks that answer them, wherever the child is still there. -/
def Leads (d : Document) : Prop :=
  ∀ b ∈ d.info.blocks, ∀ note ∈ b.foreign, ∀ c ∈ d.children, c.key = note.2.document →
    Answers b.editor b.origin note c.info.blocks

theorem Linked.leads {d : Document} (h : d.Linked) (hsorted : Sorted d.children) : d.Leads := by
  intro b hb note hnote c hc hkey
  obtain ⟨c', hc', hkey', hanswers⟩ := h b hb note hnote
  rwa [hsorted.eq_of_key_eq hc hc' (hkey.trans hkey'.symm)]

theorem blocks_modify (d : Document) (f : Info → Info) (hf : (f d.info).blocks = d.info.blocks) :
    (d.modify f).info.blocks = d.info.blocks := by
  cases d
  exact hf

theorem blocks_closeExpired (d : Document) : d.closeExpired.info.blocks = d.info.blocks :=
  congrArg Prod.snd (core_closeExpired d)

theorem blocks_emitChanged (d : Document) : d.emitChanged.info.blocks = d.info.blocks :=
  congrArg Prod.snd (core_emitChanged d)

theorem lasting_leads : Lasting Leads := by
  intro d e h hcore hchildren _ b hb note hnote c hc hkey
  obtain ⟨x, hx, hsame⟩ := List.mem_map.mp (hchildren.subset (List.mem_map_of_mem hc))
  have hblocks : e.info.blocks = d.info.blocks := congrArg Prod.snd hcore
  have hbelow : x.info.blocks = c.info.blocks := congrArg Prod.snd hsame
  have hkeys : x.key = c.key := congrArg Identity.key (id_eq_of_core_eq hsame)
  rw [hblocks] at hb
  rw [← hbelow]
  exact h b hb note hnote x hx (hkeys.trans hkey)

/-! The way down. -/

/-- From a source position of a document, the first foreign range around it that has a child leads
into the source of that child, until no range is around it. -/
inductive Descends : Document → Pos .source → Document → Pos .source → Prop
  | stays {d : Document} {p : Pos .source} {row : SourceLine} :
      d.sourceLines[p.line]? = some row → descent? d.children row p.column = none →
      Descends d p d p
  | enters {d c e : Document} {p q r : Pos .source} {row : SourceLine} {key : String} :
      d.sourceLines[p.line]? = some row → descent? d.children row p.column = some (key, q) →
      d.child? key = some c → Descends c q e r → Descends d p e r

theorem documentAt_leaf {d : Document} (h : d.children = []) (p : Pos .source) :
    documentAt p d = d := by
  obtain ⟨info, children, parked⟩ := d
  obtain rfl : children = [] := h
  rw [documentAt]
  split
  · rfl
  · split
    · rfl
    · rfl

theorem documentAtKey_eq (key : String) (p : Pos .source) (ds : List Document) :
    documentAtKey key p ds = (ds.find? (·.key = key)).map (documentAt p) := by
  induction ds with
  | nil => rfl
  | cons d rest ih =>
    rw [documentAtKey, ih, List.find?_cons]
    by_cases hkey : d.key = key <;> simp [hkey]

theorem documentAt_enters {d c : Document} {p q : Pos .source} {row : SourceLine} {key : String}
    (hrow : d.sourceLines[p.line]? = some row)
    (hdescent : descent? d.children row p.column = some (key, q))
    (hchild : d.child? key = some c) : documentAt p d = documentAt q c := by
  obtain ⟨info, children, parked⟩ := d
  simp only [sourceLines, child?, info_node, children_node] at hrow hdescent hchild
  simp only [documentAt, hrow, hdescent, documentAtKey_eq, hchild, Option.map_some,
    Option.getD_some]

theorem owns_documentAt (p : Pos .source) (d : Document) : d.Owns (documentAt p d) := by
  induction d using tree_induction generalizing p with
  | step info children parked ihc _ =>
    rw [documentAt]
    split
    · exact Owns.self _
    · split
      · exact Owns.self _
      next key q _ =>
        rw [documentAtKey_eq]
        cases hfind : children.find? (·.key = key) with
        | none => exact Owns.self _
        | some c =>
          have hc := List.mem_of_find?_eq_some hfind
          exact Owns.child hc (ihc c hc q)

theorem bufferPositionAtKey_eq (key : String) (p : Pos .source) (ds : List Document) :
    bufferPositionAtKey key p ds = (ds.find? (·.key = key)).map (bufferPositionAt p) := by
  induction ds with
  | nil => rfl
  | cons d rest ih =>
    rw [bufferPositionAtKey, ih, List.find?_cons]
    by_cases hkey : d.key = key <;> simp [hkey]

/-- The buffer position is that of the source line where the way down ends. -/
theorem Descends.bufferPositionAt_eq {d e : Document} {p r : Pos .source} (h : Descends d p e r) :
    ∃ row, e.sourceLines[r.line]? = some row ∧
      bufferPositionAt p d = .ok (e, ⟨row.bufferLine, r.column⟩) := by
  induction h with
  | @stays d p row hrow hnone =>
    obtain ⟨info, children, parked⟩ := d
    refine ⟨row, hrow, ?_⟩
    simp only [sourceLines, info_node, children_node] at hrow hnone
    simp only [bufferPositionAt, hrow, hnone]
  | @enters d c e p q r row key hrow hsome hchild _ ih =>
    obtain ⟨last, hlast, hbelow⟩ := ih
    obtain ⟨info, children, parked⟩ := d
    refine ⟨last, hlast, ?_⟩
    simp only [sourceLines, child?, info_node, children_node] at hrow hsome hchild
    simp only [bufferPositionAt, hrow, hsome, bufferPositionAtKey_eq, hchild, Option.map_some,
      Option.getD_some, hbelow]

/-- In a document of one source line the way down ends on that line. -/
theorem Descends.eq_of_single {d e : Document} {p r : Pos .source} {v : Pos .buffer}
    (h : Descends d p e r) (hbuffer : bufferPositionAt p d = .ok (e, v))
    (hone : e.sourceLines.length = 1) : r = ⟨0, v.column⟩ := by
  obtain ⟨row, hrow, hend⟩ := h.bufferPositionAt_eq
  have hlt := (List.getElem?_eq_some_iff.mp hrow).1
  have hline : r.line = 0 := by omega
  have hcolumn : r.column = v.column := by
    have hv := (Prod.mk.inj (Except.ok.inj (hend.symm.trans hbuffer))).2
    exact congrArg Pos.column hv
  exact Pos.ext hline hcolumn

theorem descent?_eq_some {children : List Document} {row : SourceLine} {column : Nat} {key : String}
    {q : Pos .source} (h : descent? children row column = some (key, q)) :
    ∃ note ∈ row.foreign, note.1.contains ⟨row.editorLine, column⟩ = true ∧
      key = note.2.document ∧ q = note.2.position (note.1.relative ⟨row.editorLine, column⟩) ∧
      ∃ c, children.find? (·.key = key) = some c := by
  unfold descent? at h
  obtain ⟨note, hfind, heq⟩ := Option.map_eq_some_iff.mp h
  cases heq
  have hinside := List.find?_some hfind
  simp only [Bool.and_eq_true] at hinside
  refine ⟨note, List.mem_of_find?_eq_some hfind, hinside.1, rfl, rfl, ?_⟩
  obtain ⟨c, hc, hkey⟩ := List.any_eq_true.mp hinside.2
  cases hchild : children.find? (·.key = note.2.document) with
  | some c => exact ⟨c, rfl⟩
  | none => exact absurd hkey (List.find?_eq_none.mp hchild c hc)

theorem descent?_of_find? {children : List Document} {row : SourceLine} {place : Pos .text}
    {note : Range .text × ForeignBlock} (hline : row.editorLine = place.line)
    (h : (row.foreign.find? fun note => note.1.contains place &&
      children.any (·.key = note.2.document)) = some note) :
    descent? children row place.column =
      some (note.2.document, note.2.position (note.1.relative place)) := by
  obtain ⟨line, column⟩ := place
  obtain rfl : row.editorLine = line := hline
  exact congrArg (Option.map _) h

/-- The block that answers a note has every place of the note's range where the host has it. -/
theorem Answers.editor_place {b : Block} {note : Range .text × ForeignBlock} {raw column : Nat}
    {c : Document} (h : Answers b.editor b.origin note c.info.blocks)
    (hinside : note.1.contains ⟨raw, column⟩ = true) :
    ∃ row, c.sourceLines[(note.2.position (note.1.relative ⟨raw, column⟩)).line]? = some row ∧
      row.editor = b.editor ∧
      c.sourceToEditor (note.2.position (note.1.relative ⟨raw, column⟩)) =
        .ok (editorPlace b raw column) := by
  obtain ⟨hshift, pre, b', post, hblocks, hsource, heditor, horigin, hheight⟩ := h
  obtain ⟨hlines, hcolumns, hrange⟩ := relative_in_editor b.origin hinside
  rw [← horigin] at hlines hcolumns
  simp only at hlines hcolumns
  have hposition : note.2.position (note.1.relative ⟨raw, column⟩) =
      ⟨heightOf pre + (note.1.relative ⟨raw, column⟩).line,
        (note.1.relative ⟨raw, column⟩).column⟩ := by
    simp [ForeignBlock.position, hshift, Pos.origin, hsource]
  have hin : (note.1.relative ⟨raw, column⟩).line < b'.height := by omega
  have hrow := sourceTable_at c.info.config.spacing pre b' post hin
  rw [← hblocks] at hrow
  rw [hposition]
  refine ⟨_, hrow, heditor, ?_⟩
  rw [sourceToEditor_at hblocks hin]
  simp only [editorPlace, hlines, hcolumns]

/-- Every way down ends, and the document where it ends has the position at the same place of the
same editor. -/
theorem exists_descends {d : Document} (h : d.Throughout Leads) {p : Pos .source} {row : SourceLine}
    (hrow : d.sourceLines[p.line]? = some row) :
    ∃ e r last, Descends d p e r ∧ d.Owns e ∧ e.sourceLines[r.line]? = some last ∧
      last.editor = row.editor ∧ e.sourceToEditor r = d.sourceToEditor p := by
  induction d using tree_induction generalizing p row with
  | step info children parked ihc _ =>
    cases hdescent : descent? children row p.column with
    | none => exact ⟨_, p, row, Descends.stays hrow hdescent, Owns.self _, hrow, rfl, rfl⟩
    | some found =>
      obtain ⟨key, q⟩ := found
      rw [throughout_node] at h
      obtain ⟨note, hnote, hinside, rfl, rfl, c, hchild⟩ := descent?_eq_some hdescent
      have hc := List.mem_of_find?_eq_some hchild
      have hkey : c.key = note.2.document := by simpa using List.find?_some hchild
      obtain ⟨pre, b, post, raw, hblocks, hline, hraw, rfl⟩ := exists_raw_of_source hrow
      obtain ⟨row', hrow', heditor, hplace⟩ :=
        (h.1 b (by rw [hblocks]; simp) note hnote c hc hkey).editor_place hinside
      obtain ⟨e, r, last, hdescends, howns, hlast, hsame, hend⟩ := ihc c hc (h.2.1 c hc) hrow'
      refine ⟨e, r, last, Descends.enters hrow hdescent hchild hdescends, Owns.child hc howns,
        hlast, hsame.trans heditor, hend.trans (hplace.trans ?_)⟩
      have hp : p = ⟨heightOf pre + raw, p.column⟩ := by rw [← hline]
      rw [hp]
      exact (sourceToEditor_at hblocks hraw p.column).symm

end Document

end Polyglot
