import Polyglot.Diagnostic.MarkerStore
import Polyglot.Proofs.Anchors
import Polyglot.Proofs.RoundTrip

/-!
Ranges of a buffer in an editor. Both ends of a range are moved on their own, each by the block that
its line belongs to. Within one block this keeps their order, and an end without a place becomes one
column; but a range that stops on a line of a later block stops where that block lies, which may be
another editor, or the same one before the start. Main statement: these are the only ranges that are
not placed well, as long as the numbers of their places fit into 32 bits.
-/
namespace Polyglot

theorem Pos.before_eq_true {s : Space} {p q : Pos s} :
    p.before q = true ↔ p.line < q.line ∨ p.line = q.line ∧ p.column ≤ q.column := by
  simp [before]

/-- A position as it is told, in numbers of 32 bits. Sums that do not fit come around to zero. -/
def Pos.told {s : Space} (p : Pos s) : Pos s := ⟨p.line % 2 ^ 32, p.column % 2 ^ 32⟩

/-- A position whose numbers fit. -/
def Pos.Bounded {s : Space} (p : Pos s) : Prop := p.line < 2 ^ 32 ∧ p.column < 2 ^ 32

theorem Pos.told_of_bounded {s : Space} {p : Pos s} (h : p.Bounded) : p.told = p :=
  Pos.ext (Nat.mod_eq_of_lt h.1) (Nat.mod_eq_of_lt h.2)

/-- A placed diagnostic as it is told. -/
def Placed.told (p : Placed) : Placed :=
  { p with range := ⟨p.range.start.told, p.range.stop.told⟩ }

theorem Placed.told_of_bounded {p : Placed} (hstart : p.range.start.Bounded)
    (hstop : p.range.stop.Bounded) : p.told = p := by
  rw [told, Pos.told_of_bounded hstart, Pos.told_of_bounded hstop]

namespace Document

/-- A buffer position on a line that stands for the raw line `raw` of the block behind `pre`. -/
structure Lies (d : Document) (p : Pos .buffer) (pre : List Block) (b : Block) (raw : Nat) :
    Prop where
  block : ∃ post, d.info.blocks = pre ++ b :: post
  line : ∃ i l, b.lines[i]? = some l ∧ l.origin = some raw ∧
    p.line = depthOf d.info.config.spacing pre + i
  height : raw < b.height

variable {d : Document} {p q : Pos .buffer} {pre pre' : List Block} {b b' : Block} {raw raw' : Nat}

theorem Lies.row (h : d.Lies p pre b raw) :
    ∃ silenced, d.bufferLines[p.line]? = some ⟨some (heightOf pre + raw), b.editor, silenced⟩ := by
  obtain ⟨⟨post, hblocks⟩, ⟨i, l, hl, horigin, hline⟩, hraw⟩ := h
  have hrow := bufferTable_at d.info.config.spacing pre b post hl
  rw [← hblocks, ← hline, (Block.originOf_eq_some l raw).mpr ⟨horigin, hraw⟩] at hrow
  exact ⟨_, hrow⟩

theorem Lies.bufferToSource_eq (h : d.Lies p pre b raw) :
    d.bufferToSource p = .ok ⟨heightOf pre + raw, p.column⟩ := by
  obtain ⟨silenced, hrow⟩ := h.row
  simp only [bufferToSource, hrow]

theorem Lies.bufferToEditor_eq (h : d.Lies p pre b raw) :
    d.bufferToEditor p = .ok (editorPlace b raw p.column) := by
  obtain ⟨post, hblocks⟩ := h.block
  rw [bufferToEditor, h.bufferToSource_eq]
  exact sourceToEditor_at hblocks h.height p.column

theorem Lies.editorOfBufferLine_eq (h : d.Lies p pre b raw) :
    d.editorOfBufferLine p.line = .ok b.editor := by
  obtain ⟨silenced, hrow⟩ := h.row
  have hlt := (List.getElem?_eq_some_iff.mp hrow).1
  simp only [editorOfBufferLine, if_neg (Nat.ne_of_lt hlt), hrow]

theorem exists_lies_of_row {row : BufferLine} {source : Nat}
    (hrow : d.bufferLines[p.line]? = some row) (hsource : row.source = some source) :
    ∃ pre b raw, d.Lies p pre b raw := by
  obtain ⟨pre, b, post, i, hblocks, hline, hbuffer⟩ := (getElem?_bufferTable _ _ _ _ _).mp hrow
  obtain ⟨l, raw, hl, horigin, hraw, -, -⟩ := b.exists_line_of_source hbuffer hsource
  exact ⟨pre, b, raw, ⟨post, hblocks⟩, ⟨i, l, hl, horigin, hline⟩, hraw⟩

/-- What has a place in an editor lies on such a line. -/
theorem exists_lies_of_bufferToEditor {place : Pos .editor} (h : d.bufferToEditor p = .ok place) :
    ∃ pre b raw, d.Lies p pre b raw := by
  unfold bufferToEditor bufferToSource at h
  split at h
  · cases h
  next row hrow =>
    split at h
    · cases h
    next source hsource => exact exists_lies_of_row hrow hsource

theorem depthOf_append (spacing : Nat) (pre post : List Block) :
    depthOf spacing (pre ++ post) = depthOf spacing pre + depthOf spacing post := by
  induction pre with
  | nil => rw [List.nil_append, depthOf, Nat.zero_add]
  | cons b rest ih => rw [List.cons_append, depthOf, depthOf, ih, Nat.add_assoc]

/-- Later positions lie in the same block or in later ones. -/
theorem Lies.same_or_later (h : d.Lies p pre b raw) (h' : d.Lies q pre' b' raw')
    (hle : p.line ≤ q.line) : (pre = pre' ∧ b = b') ∨ pre.length < pre'.length := by
  obtain ⟨⟨post, hblocks⟩, ⟨i, l, hl, -, hline⟩, -⟩ := h
  obtain ⟨⟨post', hblocks'⟩, ⟨i', l', hl', -, hline'⟩, -⟩ := h'
  have hi' := (List.getElem?_eq_some_iff.mp hl').1
  rw [hblocks] at hblocks'
  rcases List.append_eq_append_iff.mp hblocks' with ⟨more, rfl, hmore⟩ | ⟨more, rfl, hmore⟩
  · cases more with
    | nil =>
      obtain ⟨rfl, -⟩ := List.cons.inj hmore
      exact Or.inl ⟨(List.append_nil pre).symm, rfl⟩
    | cons x more =>
      refine Or.inr ?_
      rw [List.length_append, List.length_cons]
      omega
  · cases more with
    | nil =>
      obtain ⟨rfl, -⟩ := List.cons.inj hmore
      exact Or.inl ⟨List.append_nil pre', rfl⟩
    | cons x more =>
      -- the later position would lie in front of the block of the earlier one
      obtain ⟨rfl, -⟩ := List.cons.inj hmore
      rw [depthOf_append, depthOf, Block.depth] at hline
      omega

theorem Lies.unique (h : d.Lies p pre b raw) (h' : d.Lies p pre' b' raw') :
    pre = pre' ∧ b = b' ∧ raw = raw' := by
  have hsame : pre = pre' ∧ b = b' := by
    rcases h.same_or_later h' (Nat.le_refl _) with hsame | hlt
    · exact hsame
    · rcases h'.same_or_later h (Nat.le_refl _) with ⟨hpre, hb⟩ | hgt
      · exact ⟨hpre.symm, hb.symm⟩
      · omega
  obtain ⟨rfl, rfl⟩ := hsame
  obtain ⟨-, ⟨i, l, hl, horigin, hline⟩, -⟩ := h
  obtain ⟨-, ⟨i', l', hl', horigin', hline'⟩, -⟩ := h'
  obtain rfl : i = i' := by omega
  rw [hl] at hl'
  obtain rfl := Option.some.inj hl'
  rw [horigin] at horigin'
  exact ⟨rfl, rfl, Option.some.inj horigin'⟩

/-- Within a block, positions keep their order in the editor. -/
theorem Lies.before_editorPlace {made : Nat} (hb : b.InOrder made) (h : d.Lies p pre b raw)
    (h' : d.Lies q pre b raw') (hle : p.before q = true) :
    (editorPlace b raw p.column).before (editorPlace b raw' q.column) = true := by
  obtain ⟨-, ⟨i, l, hl, horigin, hline⟩, -⟩ := h
  obtain ⟨-, ⟨i', l', hl', horigin', hline'⟩, -⟩ := h'
  rw [Pos.before_eq_true] at hle ⊢
  simp only [editorPlace]
  by_cases hlt : i < i'
  · have := hb.increasing hlt hl hl' horigin horigin'
    omega
  · obtain rfl : i = i' := by omega
    rw [hl] at hl'
    obtain rfl := Option.some.inj hl'
    rw [horigin] at horigin'
    obtain rfl := Option.some.inj horigin'
    omega

/-- A range that stops on a line of a later block, which lies in another editor, or in the same one
before the start. -/
def Strays (d : Document) (range : Range .buffer) : Prop :=
  ∃ pre b raw pre' b' raw', d.Lies range.start pre b raw ∧ d.Lies range.stop pre' b' raw' ∧
    pre.length < pre'.length ∧ (b'.editor ≠ b.editor ∨
      (editorPlace b raw range.start.column).before (editorPlace b' raw' range.stop.column) = false)

/-- A range that stops on a line of a later block. -/
def Crosses (d : Document) (range : Range .buffer) : Prop :=
  ∃ pre b raw pre' b' raw', d.Lies range.start pre b raw ∧ d.Lies range.stop pre' b' raw' ∧
    pre.length < pre'.length

end Document

open Document

/-- A placed diagnostic of a document stops behind its start, and either on a line that belongs to
the editor of its start, or, if its end has no place, one column behind the start. -/
structure Placed.WellFormed (d : Document) (p : Placed) : Prop where
  ordered : p.range.start.before p.range.stop = true
  stop : (d.bufferToEditor p.diagnostic.range.stop = .ok p.range.stop ∧
      d.editorOfBufferLine p.diagnostic.range.stop.line = .ok p.editor) ∨
    ((∃ e, d.bufferToEditor p.diagnostic.range.stop = .error e) ∧
      p.range.stop = ⟨p.range.start.line, p.range.start.column + 1⟩)

section

variable {context : Context} {next : Nat} {root d : Document} {p : Placed}

theorem wellFormed_of_error {e : DocumentError}
    (hstop : p.range.stop = d.stopOf p.range.start p.diagnostic.range.stop)
    (herror : d.bufferToEditor p.diagnostic.range.stop = .error e) : p.WellFormed d := by
  have hcolumn : p.range.stop = ⟨p.range.start.line, p.range.start.column + 1⟩ := by
    rw [hstop, stopOf, herror]
  refine ⟨?_, Or.inr ⟨⟨e, herror⟩, hcolumn⟩⟩
  rw [hcolumn]
  simp [Pos.before]

/-- Where both ends have places. -/
theorem wellFormed_iff_of_lies {pre' : List Block} {b b' : Block} {raw raw' : Nat}
    (hstop : d.Lies p.diagnostic.range.stop pre' b' raw') (heditor : p.editor = b.editor)
    (hrange : p.range = ⟨editorPlace b raw p.diagnostic.range.start.column,
      editorPlace b' raw' p.diagnostic.range.stop.column⟩) :
    p.WellFormed d ↔ b'.editor = b.editor ∧
      (editorPlace b raw p.diagnostic.range.start.column).before
        (editorPlace b' raw' p.diagnostic.range.stop.column) = true := by
  constructor
  · rintro ⟨hordered, ⟨-, hsame⟩ | ⟨⟨e, herror⟩, -⟩⟩
    · rw [hstop.editorOfBufferLine_eq, heditor] at hsame
      rw [hrange] at hordered
      exact ⟨Except.ok.inj hsame, hordered⟩
    · rw [hstop.bufferToEditor_eq] at herror
      cases herror
  · rintro ⟨hsame, hordered⟩
    refine ⟨hrange ▸ hordered, Or.inl ⟨?_, ?_⟩⟩
    · rw [hstop.bufferToEditor_eq, hrange]
    · rw [hstop.editorOfBufferLine_eq, heditor, hsame]

/-- A range that is anchored is placed well if and only if it does not stray. -/
theorem wellFormed_iff_of_anchor (hreach : Reachable context next root) (howns : root.Owns d)
    (hanchor : anchor root d p.diagnostic.range = .ok (p.editor, p.range))
    (hle : p.diagnostic.range.start.before p.diagnostic.range.stop = true) :
    p.WellFormed d ↔ ¬ d.Strays p.diagnostic.range := by
  obtain ⟨source, hground, -, -, hstop⟩ := anchor_eq_ok_iff.mp hanchor
  obtain ⟨pre, b, raw, hlies⟩ := exists_lies_of_bufferToEditor hground.start_eq
  cases hend : d.bufferToEditor p.diagnostic.range.stop with
  | error e =>
    refine iff_of_true (wellFormed_of_error hstop hend) ?_
    rintro ⟨-, -, -, pre', b', raw', -, hlies', -⟩
    rw [hlies'.bufferToEditor_eq] at hend
    cases hend
  | ok place =>
    obtain ⟨pre', b', raw', hlies'⟩ := exists_lies_of_bufferToEditor hend
    have heditor : p.editor = b.editor :=
      Except.ok.inj (hground.editor_eq.symm.trans hlies.editorOfBufferLine_eq)
    have hrange : p.range = ⟨editorPlace b raw p.diagnostic.range.start.column,
        editorPlace b' raw' p.diagnostic.range.stop.column⟩ := by
      refine Range.ext ?_ ?_
      · exact Except.ok.inj (hground.start_eq.symm.trans hlies.bufferToEditor_eq)
      · rw [hstop, stopOf, hlies'.bufferToEditor_eq]
    rw [wellFormed_iff_of_lies hlies' heditor hrange]
    have hline : p.diagnostic.range.start.line ≤ p.diagnostic.range.stop.line := by
      rw [Pos.before_eq_true] at hle
      omega
    rcases hlies.same_or_later hlies' hline with ⟨rfl, rfl⟩ | hlt
    · -- within the block the order is kept
      obtain ⟨post, hblocks⟩ := hlies.block
      obtain ⟨made, hb⟩ := blocks_inOrder_of_reachable hreach howns b (by rw [hblocks]; simp)
      refine iff_of_true ⟨rfl, hlies.before_editorPlace hb hlies' hle⟩ ?_
      rintro ⟨pre₁, b₁, raw₁, pre₂, b₂, raw₂, h₁, h₂, hlt, -⟩
      rw [(h₁.unique hlies).1, (h₂.unique hlies').1] at hlt
      omega
    · constructor
      · rintro ⟨hsame, hordered⟩ ⟨pre₁, b₁, raw₁, pre₂, b₂, raw₂, h₁, h₂, -, hbad⟩
        obtain ⟨rfl, rfl, rfl⟩ := h₁.unique hlies
        obtain ⟨rfl, rfl, rfl⟩ := h₂.unique hlies'
        rcases hbad with hother | hbehind
        · exact hother hsame
        · rw [hordered] at hbehind
          cases hbehind
      · intro hnot
        constructor
        · by_contra hother
          exact hnot ⟨pre, b, raw, pre', b', raw', hlies, hlies', hlt, Or.inl hother⟩
        · by_contra hbehind
          exact hnot ⟨pre, b, raw, pre', b', raw', hlies, hlies', hlt,
            Or.inr (Bool.eq_false_iff.mpr hbehind)⟩

/-- Where all blocks come from different editors, a range strays as soon as it stops in a later
block. -/
theorem strays_iff_crosses (hdistinct : (d.info.blocks.map (·.editor)).Nodup)
    (range : Range .buffer) : d.Strays range ↔ d.Crosses range := by
  constructor
  · rintro ⟨pre, b, raw, pre', b', raw', hstart, hstop, hlt, -⟩
    exact ⟨pre, b, raw, pre', b', raw', hstart, hstop, hlt⟩
  · rintro ⟨pre, b, raw, pre', b', raw', hstart, hstop, hlt⟩
    refine ⟨pre, b, raw, pre', b', raw', hstart, hstop, hlt, Or.inl fun hsame => ?_⟩
    obtain ⟨post, hblocks⟩ := hstart.block
    obtain ⟨post', hblocks'⟩ := hstop.block
    rw [hblocks] at hdistinct hblocks'
    have hpre := (split_unique (·.editor) hdistinct hblocks' hsame.symm).1
    rw [hpre] at hlt
    omega

end

/-- After a rebuild from cells of different editors, whatever is placed for a range of the tree
whose ends are in order is told well formed if and only if the range does not stray, where the
numbers of its place fit; a range of the root strays as soon as it stops on a line of another cell,
and one of a document of a single block never does. -/
theorem placed_wellFormed_iff {s s' : Session} {cells : List Cell} {next next' : Nat}
    (hreach : Reachable s.context next s.root) (hdistinct : (cells.map (·.editor)).Nodup)
    (hupdate : s.update cells next = (s', next', .ok ())) {target : Url} {d : Document}
    (hfind : s'.root.find? target = some d) {σ : Type} (renderer : Renderer σ)
    (diagnostics : List (Diagnostic .buffer)) (a : Aggregator σ) :
    ∃ placed, (a.handle renderer s'.root target diagnostics).1.placedOf target = some placed ∧
      ∀ p ∈ placed, p.diagnostic ∈ diagnostics ∧
        (p.range.start.Bounded → p.range.stop.Bounded →
          p.diagnostic.range.start.before p.diagnostic.range.stop = true →
          (p.told.WellFormed d ↔ ¬ d.Strays p.diagnostic.range)) ∧
        (d = s'.root → (d.Strays p.diagnostic.range ↔ d.Crosses p.diagnostic.range)) ∧
        (d.info.blocks.length = 1 → ¬ d.Strays p.diagnostic.range) := by
  have hreach' : Reachable s.context next' s'.root := by
    have hupdated := reachable_update hreach cells
    rwa [hupdate] at hupdated
  have howns : s'.root.Owns d := owns_of_mem_walk (List.mem_of_find?_eq_some hfind)
  obtain ⟨placed, hplaced, hfrom, -⟩ :=
    Aggregator.placedOf_handle renderer hfind diagnostics a
  refine ⟨placed, hplaced, ?_⟩
  intro p hp
  obtain ⟨hold, hanchor⟩ := hfrom p hp
  refine ⟨hold, ?_, ?_, ?_⟩
  · intro hstart hstop hle
    rw [Placed.told_of_bounded hstart hstop]
    exact wellFormed_iff_of_anchor hreach' howns hanchor hle
  · rintro rfl
    refine strays_iff_crosses ?_ _
    rw [(becomes_all (becomes_of_update hupdate)).1]
    exact hdistinct
  · rintro hone ⟨pre, b, raw, pre', b', raw', -, hstop, hlt, -⟩
    obtain ⟨post', hblocks'⟩ := hstop.block
    rw [hblocks', List.length_append, List.length_cons] at hone
    omega

/-- A file in which two letters are code of one document. -/
def pairSession : Session where
  context :=
    { extractors := ⟨[("python", letterExtractor 'y' ⟨"word", "txt", false⟩),
        ("python", letterExtractor 'z' ⟨"word", "txt", false⟩)]⟩ }
  policy := {}
  root := tailRoot

def pairCells : List Cell := [⟨"yz".toList, "first"⟩, ⟨"ay".toList, "second"⟩]

def pairAfter : Session := (pairSession.update pairCells 1).1

def pairUrl : Url := { scheme := "file", host := some "", path := "/a.py.python-word.txt" }

/-- A report on the two letters of the first cell, each of which is a block. -/
def pairReport : Diagnostic .buffer := { range := ⟨⟨0, 0⟩, ⟨3, 1⟩⟩, message := "m" }

/-- The range stops in a later block of the same cell, behind its start, and is placed well. -/
theorem placed_wellFormed_iff_pair : ∃ d p, pairAfter.root.find? pairUrl = some d ∧
    (({ drawing := {} } : Aggregator MarkerStore).handle MarkerStore.renderer pairAfter.root pairUrl
      [pairReport]).1.placedOf pairUrl = some [p] ∧
    p.editor = "first" ∧ p.range = ⟨⟨0, 0⟩, ⟨0, 2⟩⟩ ∧ p.told.WellFormed d ∧
    d.Crosses pairReport.range ∧ ¬ d.Strays pairReport.range := by
  have hok : (pairSession.update pairCells 1).2.2 = .ok () := by decide +kernel
  have hupdate : pairSession.update pairCells 1 =
      (pairAfter, (pairSession.update pairCells 1).2.1, .ok ()) := by rw [pairAfter, ← hok]
  have htable : (({ drawing := {} } : Aggregator MarkerStore).handle MarkerStore.renderer pairAfter.root
      pairUrl [pairReport]).1.placedOf pairUrl =
        some [⟨pairReport, "first", ⟨⟨0, 0⟩, ⟨0, 2⟩⟩⟩] := by
    simp only [Aggregator.handle, Aggregator.groups_singleton]
    decide +kernel
  have hface : (pairAfter.root.find? pairUrl).map (fun d => (d.info.blocks.map (·.lines.length),
      d.bufferToEditor ⟨0, 0⟩, d.bufferToEditor ⟨3, 1⟩, d.editorOfBufferLine 3)) =
        some ([1, 1, 1], .ok ⟨0, 0⟩, .ok ⟨0, 2⟩, .ok "first") := by decide +kernel
  obtain ⟨d, hfind, hface⟩ := Option.map_eq_some_iff.mp hface
  obtain ⟨hlengths, hface⟩ := Prod.mk.inj hface
  obtain ⟨hstart, hface⟩ := Prod.mk.inj hface
  obtain ⟨hstop, heditor⟩ := Prod.mk.inj hface
  have hwell : (⟨pairReport, "first", ⟨⟨0, 0⟩, ⟨0, 2⟩⟩⟩ : Placed).told.WellFormed d :=
    ⟨by decide, Or.inl ⟨hstop, heditor⟩⟩
  obtain ⟨placed, hplaced, hall⟩ := placed_wellFormed_iff (s := pairSession)
    (Reachable.root "python" _ "py" 0) (by decide) hupdate hfind
    MarkerStore.renderer [pairReport] { drawing := {} }
  obtain rfl := Option.some.inj (htable.symm.trans hplaced)
  obtain ⟨-, hiff, -⟩ := hall _ (List.mem_singleton_self _)
  have hstays := (hiff ⟨by decide, by decide⟩ ⟨by decide, by decide⟩ (by decide)).mp hwell
  refine ⟨d, _, hfind, htable, rfl, rfl, hwell, ?_, hstays⟩
  -- both ends have places, and no block has more than one line
  obtain ⟨pre, b, raw, hlies⟩ := exists_lies_of_bufferToEditor hstart
  obtain ⟨pre', b', raw', hlies'⟩ := exists_lies_of_bufferToEditor hstop
  refine ⟨pre, b, raw, pre', b', raw', hlies, hlies', ?_⟩
  rcases hlies.same_or_later hlies' (by decide) with ⟨rfl, rfl⟩ | hlt
  · obtain ⟨⟨post, hblocks⟩, ⟨i, l, hl, -, hline⟩, -⟩ := hlies
    obtain ⟨-, ⟨i', l', hl', -, hline'⟩, -⟩ := hlies'
    have hone : b.lines.length = 1 := by
      have hmem : b.lines.length ∈ d.info.blocks.map (·.lines.length) :=
        List.mem_map_of_mem (by rw [hblocks]; simp)
      rw [hlengths] at hmem
      simpa using hmem
    have hi := (List.getElem?_eq_some_iff.mp hl).1
    have hi' := (List.getElem?_eq_some_iff.mp hl').1
    simp only at hline hline'
    omega
  · exact hlt

/-- A file of two cells of one letter each. -/
def cellsSession : Session where
  context := {}
  policy := {}
  root := root {} "python" tailRoot.uri "py" 0

def cellsRoot : Document :=
  (cellsSession.update [⟨"x".toList, "first"⟩, ⟨"y".toList, "second"⟩] 1).1.root

/-- A range from the end of one cell to the start of the next is placed in the first cell, and stops
there before it starts. -/
theorem range_across_cells_ends_before_start :
    (cellsSession.update [⟨"x".toList, "first"⟩, ⟨"y".toList, "second"⟩] 1).2.2 = .ok () ∧
    (({ drawing := {} } : Aggregator MarkerStore).handle MarkerStore.renderer cellsRoot tailRoot.uri
      [{ range := ⟨⟨0, 1⟩, ⟨3, 0⟩⟩, message := "m" }]).1.placedOf tailRoot.uri =
        some [⟨{ range := ⟨⟨0, 1⟩, ⟨3, 0⟩⟩, message := "m" }, "first", ⟨⟨0, 1⟩, ⟨0, 0⟩⟩⟩] ∧
    (⟨0, 1⟩ : Pos .buffer).before ⟨3, 0⟩ = true ∧ (⟨0, 1⟩ : Pos .editor).before ⟨0, 0⟩ = false ∧
    cellsRoot.editorOfBufferLine 3 = .ok "second" := by
  refine ⟨by decide +kernel, ?_, by decide, by decide, by decide +kernel⟩
  simp only [Aggregator.handle, Aggregator.groups_singleton]
  decide +kernel

end Polyglot
