import Polyglot.Document.Basic
import Mathlib.Data.List.Basic

/-!
The two line tables of a sequence of blocks. Where the lines of every block stand for its raw lines
in order, the tables are inverse to each other: a buffer line that stands for a source line is the
one that the source line became, and source lines become buffer lines in order.
-/
namespace Polyglot

/-- The number of source lines of blocks. -/
def heightOf : List Block → Nat
  | [] => 0
  | b :: rest => b.height + heightOf rest

/-- The number of buffer lines of blocks, separators included. -/
def depthOf (spacing : Nat) : List Block → Nat
  | [] => 0
  | b :: rest => b.depth spacing + depthOf spacing rest

namespace Block

/-- The lines of a block stand for its first `made` raw lines, each for one and in order. -/
structure InOrder (b : Block) (made : Nat) : Prop where
  origins : b.lines.filterMap (·.origin) = List.range made
  made_pos : 0 < made
  height_pos : 0 < b.height

variable {b : Block} {made : Nat}

theorem InOrder.origin_iff (h : b.InOrder made) (raw : Nat) :
    (∃ (i : Nat) (line : Line), b.lines[i]? = some line ∧ line.origin = some raw) ↔ raw < made := by
  rw [← List.mem_range, ← h.origins, List.mem_filterMap]
  constructor
  · rintro ⟨i, line, hline, horigin⟩
    exact ⟨line, List.mem_of_getElem? hline, horigin⟩
  · rintro ⟨line, hmem, horigin⟩
    obtain ⟨i, hline⟩ := List.getElem?_of_mem hmem
    exact ⟨i, line, hline, horigin⟩

/-- Of two lines that stand for raw lines the later stands for the later one. -/
theorem InOrder.increasing (h : b.InOrder made) {i j raw raw' : Nat} {line line' : Line}
    (hij : i < j) (hi : b.lines[i]? = some line) (hj : b.lines[j]? = some line')
    (hraw : line.origin = some raw) (hraw' : line'.origin = some raw') : raw < raw' := by
  have hsorted : (b.lines.filterMap (·.origin)).Pairwise (· < ·) := by
    rw [h.origins]
    exact List.pairwise_lt_range
  rw [List.pairwise_filterMap] at hsorted
  obtain ⟨hi', rfl⟩ := List.getElem?_eq_some_iff.mp hi
  obtain ⟨hj', rfl⟩ := List.getElem?_eq_some_iff.mp hj
  exact List.pairwise_iff_getElem.mp hsorted i j hi' hj' hij raw hraw raw' hraw'

theorem InOrder.unique (h : b.InOrder made) {i j raw : Nat} {line line' : Line}
    (hi : b.lines[i]? = some line) (hj : b.lines[j]? = some line')
    (hraw : line.origin = some raw) (hraw' : line'.origin = some raw) : i = j := by
  rcases Nat.lt_trichotomy i j with hlt | heq | hgt
  · have := h.increasing hlt hi hj hraw hraw'
    omega
  · exact heq
  · have := h.increasing hgt hj hi hraw' hraw
    omega

theorem originOf_eq_some (line : Line) (raw : Nat) :
    b.originOf line = some raw ↔ line.origin = some raw ∧ raw < b.height := by
  simp [originOf, Option.filter_eq_some_iff]

theorem InOrder.firstOutput_eq (h : b.InOrder made) {i raw : Nat} {line : Line}
    (hraw : raw < b.height) (hline : b.lines[i]? = some line) (horigin : line.origin = some raw) :
    b.firstOutput raw = some i := by
  obtain ⟨hi, rfl⟩ := List.getElem?_eq_some_iff.mp hline
  rw [firstOutput, List.findIdx?_eq_some_iff_getElem]
  refine ⟨hi, by simp [originOf_eq_some, horigin, hraw], ?_⟩
  intro j hji
  have hj : j < b.lines.length := by omega
  by_contra hcon
  have hother : b.originOf b.lines[j] = some raw := by simpa using hcon
  have := h.unique (List.getElem?_eq_getElem hj) (List.getElem?_eq_getElem hi)
    ((originOf_eq_some _ _).mp hother).1 horigin
  omega

theorem InOrder.firstOutput_eq_none (h : b.InOrder made) {raw : Nat} (hraw : made ≤ raw) :
    b.firstOutput raw = none := by
  rw [firstOutput, List.findIdx?_eq_none_iff]
  intro line hmem
  by_contra hcon
  have hother : b.originOf line = some raw := by simpa using hcon
  obtain ⟨i, hline⟩ := List.getElem?_of_mem hmem
  have := (h.origin_iff raw).mp ⟨i, line, hline, ((originOf_eq_some _ _).mp hother).1⟩
  omega

/-- A raw line becomes the line that stands for it, or for the last raw line that has one. -/
theorem InOrder.output_spec (h : b.InOrder made) {raw : Nat} (hraw : raw < b.height) :
    ∃ line, b.lines[b.output raw]? = some line ∧ line.origin = some (min raw (made - 1)) := by
  have hpos := h.made_pos
  induction raw with
  | zero =>
    obtain ⟨i, line, hline, horigin⟩ := (h.origin_iff 0).mpr hpos
    refine ⟨line, ?_, by simpa using horigin⟩
    rw [output, h.firstOutput_eq hraw hline horigin]
    exact hline
  | succ raw ih =>
    by_cases hmade : raw + 1 < made
    · obtain ⟨i, line, hline, horigin⟩ := (h.origin_iff (raw + 1)).mpr hmade
      refine ⟨line, ?_, ?_⟩
      · rw [output, h.firstOutput_eq hraw hline horigin]
        exact hline
      · rw [horigin, show min (raw + 1) (made - 1) = raw + 1 by omega]
    · obtain ⟨line, hline, horigin⟩ := ih (by omega)
      refine ⟨line, ?_, ?_⟩
      · rw [output, h.firstOutput_eq_none (by omega)]
        exact hline
      · rw [horigin, show min (raw + 1) (made - 1) = min raw (made - 1) by omega]

theorem InOrder.output_lt (h : b.InOrder made) {raw : Nat} (hraw : raw < b.height) :
    b.output raw < b.lines.length := by
  obtain ⟨line, hline, _⟩ := h.output_spec hraw
  exact (List.getElem?_eq_some_iff.mp hline).1

theorem InOrder.output_mono (h : b.InOrder made) {raw raw' : Nat} (hle : raw ≤ raw')
    (hraw : raw' < b.height) : b.output raw ≤ b.output raw' := by
  obtain ⟨line, hline, horigin⟩ := h.output_spec (show raw < b.height by omega)
  obtain ⟨line', hline', horigin'⟩ := h.output_spec hraw
  by_contra hcon
  have := h.increasing (by omega) hline' hline horigin' horigin
  omega

theorem length_bufferLines (b : Block) (spacing first : Nat) :
    (b.bufferLines spacing first).length = b.depth spacing := by
  simp [bufferLines, depth]

theorem length_sourceLines (b : Block) (first : Nat) : (b.sourceLines first).length = b.height := by
  simp [sourceLines]

theorem getElem?_sourceLines (b : Block) (first raw : Nat) (hraw : raw < b.height) :
    (b.sourceLines first)[raw]? = some
      { editorLine := raw
        shift := ⟨b.origin.line, if raw = 0 then b.origin.column else 0⟩
        editor := b.editor
        foreign := b.foreign
        bufferLine := first + b.output raw } := by
  simp [sourceLines, hraw]

theorem getElem?_bufferLines (b : Block) (spacing first i : Nat) {line : Line}
    (hline : b.lines[i]? = some line) :
    (b.bufferLines spacing first)[i]? =
      some ⟨(b.originOf line).map (first + ·), b.editor, line.replaced⟩ := by
  have hi := (List.getElem?_eq_some_iff.mp hline).1
  rw [bufferLines, List.getElem?_append_left (by simpa using hi)]
  simp [hline]

/-- A buffer line of a block that stands for a source line comes from a line of the block. -/
theorem exists_line_of_source (b : Block) {spacing first i s : Nat} {row : BufferLine}
    (hrow : (b.bufferLines spacing first)[i]? = some row) (hs : row.source = some s) :
    ∃ line raw, b.lines[i]? = some line ∧ line.origin = some raw ∧ raw < b.height ∧
      s = first + raw ∧ row.editor = b.editor := by
  by_cases hi : i < b.lines.length
  · rw [getElem?_bufferLines b spacing first i (List.getElem?_eq_getElem hi)] at hrow
    cases hrow
    obtain ⟨raw, horigin, rfl⟩ := Option.map_eq_some_iff.mp hs
    obtain ⟨horigin, hraw⟩ := (originOf_eq_some _ _).mp horigin
    exact ⟨_, raw, List.getElem?_eq_getElem hi, horigin, hraw, rfl, rfl⟩
  · rw [bufferLines, List.getElem?_append_right (by simpa using hi)] at hrow
    have := (List.mem_replicate.mp (List.mem_of_getElem? hrow)).2
    subst row
    contradiction

end Block

/-! Tables. -/

/-- Rows of a table are rows of the blocks. Both tables put the rows of the blocks one behind the
other, and hand a count of the blocks before to each; `T` is any table of this form. -/
theorem getElem?_table {α : Type} (T : Nat → List Block → List α) (rows : Nat → Block → List α)
    (step size : Block → Nat) (steps sizes : List Block → Nat)
    (hnil : ∀ n, T n [] = [])
    (hcons : ∀ n b rest, T n (b :: rest) = rows n b ++ T (n + step b) rest)
    (hsize : ∀ n b, (rows n b).length = size b)
    (hsteps : steps [] = 0 ∧ ∀ b rest, steps (b :: rest) = step b + steps rest)
    (hsizes : sizes [] = 0 ∧ ∀ b rest, sizes (b :: rest) = size b + sizes rest)
    (first : Nat) (blocks : List Block) (k : Nat) (x : α) :
    (T first blocks)[k]? = some x ↔ ∃ pre b post i, blocks = pre ++ b :: post ∧
      k = sizes pre + i ∧ (rows (first + steps pre) b)[i]? = some x := by
  induction blocks generalizing first k with
  | nil => simp [hnil]
  | cons c rest ih =>
    rw [hcons]
    constructor
    · intro h
      by_cases hk : k < (rows first c).length
      · rw [List.getElem?_append_left hk] at h
        exact ⟨[], c, rest, k, rfl, by simp [hsizes.1], by simpa [hsteps.1] using h⟩
      · rw [List.getElem?_append_right (by omega)] at h
        obtain ⟨pre, b, post, i, rfl, hki, hrow⟩ := (ih _ _).mp h
        rw [hsize] at hk hki
        refine ⟨c :: pre, b, post, i, rfl, by rw [hsizes.2]; omega, ?_⟩
        rwa [hsteps.2, ← Nat.add_assoc]
    · rintro ⟨pre, b, post, i, heq, rfl, hrow⟩
      cases pre with
      | nil =>
        obtain ⟨rfl, rfl⟩ := List.cons.inj heq
        have hi := (List.getElem?_eq_some_iff.mp hrow).1
        rw [hsteps.1, Nat.add_zero] at hrow hi
        rw [hsizes.1, Nat.zero_add, List.getElem?_append_left hi]
        exact hrow
      | cons d pre =>
        obtain ⟨rfl, rfl⟩ := List.cons.inj heq
        rw [List.getElem?_append_right (by rw [hsize, hsizes.2]; omega)]
        refine (ih _ _).mpr ⟨pre, b, post, i, rfl, ?_, ?_⟩
        · rw [hsize, hsizes.2]
          omega
        · rwa [hsteps.2, ← Nat.add_assoc] at hrow

theorem getElem?_bufferTable (spacing first : Nat) (blocks : List Block) (v : Nat)
    (row : BufferLine) :
    (bufferTable spacing first blocks)[v]? = some row ↔ ∃ pre b post i, blocks = pre ++ b :: post ∧
      v = depthOf spacing pre + i ∧
      (b.bufferLines spacing (first + heightOf pre))[i]? = some row :=
  getElem?_table (bufferTable spacing) (fun n b => b.bufferLines spacing n) Block.height
    (Block.depth · spacing) heightOf (depthOf spacing) (fun _ => rfl) (fun _ _ _ => rfl)
    (fun n b => b.length_bufferLines spacing n) ⟨rfl, fun _ _ => rfl⟩ ⟨rfl, fun _ _ => rfl⟩
    first blocks v row

theorem getElem?_sourceTable (spacing first : Nat) (blocks : List Block) (s : Nat)
    (row : SourceLine) :
    (sourceTable spacing first blocks)[s]? = some row ↔ ∃ pre b post raw,
      blocks = pre ++ b :: post ∧ s = heightOf pre + raw ∧
      (b.sourceLines (first + depthOf spacing pre))[raw]? = some row :=
  getElem?_table (sourceTable spacing) (fun n b => b.sourceLines n) (Block.depth · spacing)
    Block.height (depthOf spacing) heightOf (fun _ => rfl) (fun _ _ _ => rfl)
    (fun n b => b.length_sourceLines n) ⟨rfl, fun _ _ => rfl⟩ ⟨rfl, fun _ _ => rfl⟩
    first blocks s row

/-- A source line is a raw line of one of the blocks. -/
theorem exists_raw_of_source {spacing s : Nat} {blocks : List Block} {row : SourceLine}
    (h : (sourceTable spacing 0 blocks)[s]? = some row) :
    ∃ pre b post raw, blocks = pre ++ b :: post ∧ s = heightOf pre + raw ∧ raw < b.height ∧
      row = { editorLine := raw
              shift := ⟨b.origin.line, if raw = 0 then b.origin.column else 0⟩
              editor := b.editor
              foreign := b.foreign
              bufferLine := depthOf spacing pre + b.output raw } := by
  obtain ⟨pre, b, post, raw, hblocks, hs, hrow⟩ := (getElem?_sourceTable _ _ _ _ _).mp h
  have hraw : raw < b.height := by
    simpa only [b.length_sourceLines] using (List.getElem?_eq_some_iff.mp hrow).1
  rw [Nat.zero_add, b.getElem?_sourceLines _ _ hraw] at hrow
  exact ⟨pre, b, post, raw, hblocks, hs, hraw, (Option.some.inj hrow).symm⟩

theorem sourceTable_at (spacing : Nat) (pre : List Block) (b : Block) (post : List Block)
    {raw : Nat} (hraw : raw < b.height) :
    (sourceTable spacing 0 (pre ++ b :: post))[heightOf pre + raw]? = some
      { editorLine := raw
        shift := ⟨b.origin.line, if raw = 0 then b.origin.column else 0⟩
        editor := b.editor
        foreign := b.foreign
        bufferLine := depthOf spacing pre + b.output raw } := by
  rw [getElem?_sourceTable]
  refine ⟨pre, b, post, raw, rfl, rfl, ?_⟩
  rw [Nat.zero_add, b.getElem?_sourceLines _ _ hraw]

theorem bufferTable_at (spacing : Nat) (pre : List Block) (b : Block) (post : List Block)
    {i : Nat} {line : Line} (hline : b.lines[i]? = some line) :
    (bufferTable spacing 0 (pre ++ b :: post))[depthOf spacing pre + i]? =
      some ⟨(b.originOf line).map (heightOf pre + ·), b.editor, line.replaced⟩ := by
  rw [getElem?_bufferTable]
  refine ⟨pre, b, post, i, rfl, rfl, ?_⟩
  rw [Nat.zero_add, b.getElem?_bufferLines spacing _ i hline]

section Inverse

variable {spacing : Nat} {blocks : List Block}

/-- A buffer line that stands for a source line is the one that the source line became. -/
theorem sourceTable_of_bufferTable (h : ∀ b ∈ blocks, ∃ made, b.InOrder made) {v s : Nat}
    {row : BufferLine} (hrow : (bufferTable spacing 0 blocks)[v]? = some row)
    (hs : row.source = some s) :
    ∃ line, (sourceTable spacing 0 blocks)[s]? = some line ∧ line.bufferLine = v ∧
      line.editor = row.editor := by
  obtain ⟨pre, b, post, i, rfl, rfl, hline⟩ := (getElem?_bufferTable _ _ _ _ _).mp hrow
  rw [Nat.zero_add] at hline
  obtain ⟨line, raw, hline, horigin, hraw, rfl, heditor⟩ := b.exists_line_of_source hline hs
  obtain ⟨made, hb⟩ := h b (by simp)
  have hmade : raw < made := (hb.origin_iff raw).mp ⟨i, line, hline, horigin⟩
  obtain ⟨line', hline', horigin'⟩ := hb.output_spec hraw
  rw [show min raw (made - 1) = raw by omega] at horigin'
  refine ⟨_, sourceTable_at spacing pre b post hraw, ?_, heditor.symm⟩
  rw [hb.unique hline' hline horigin' horigin]

/-- A source line became a buffer line that stands for it, or for the last raw line before it in
its block that has a line of its own. -/
theorem bufferTable_of_sourceTable (spacing : Nat) (pre post : List Block) {b : Block}
    {raw made : Nat} (hb : b.InOrder made) (hraw : raw < b.height) :
    ∃ row, (bufferTable spacing 0 (pre ++ b :: post))[depthOf spacing pre + b.output raw]? =
        some row ∧
      row.source = some (heightOf pre + min raw (made - 1)) ∧ row.editor = b.editor := by
  obtain ⟨line, hline, horigin⟩ := hb.output_spec hraw
  refine ⟨_, bufferTable_at spacing pre b post hline, ?_, rfl⟩
  have hkept : b.originOf line = some (min raw (made - 1)) :=
    (Block.originOf_eq_some _ _).mpr ⟨horigin, by omega⟩
  simp [hkept]

theorem sourceTable_first_le (first : Nat) (row : SourceLine)
    (hmem : row ∈ sourceTable spacing first blocks) : first ≤ row.bufferLine := by
  obtain ⟨s, hs⟩ := List.getElem?_of_mem hmem
  obtain ⟨pre, b, post, raw, _, _, hrow⟩ := (getElem?_sourceTable _ _ _ _ _).mp hs
  have hraw : raw < b.height := by
    simpa only [b.length_sourceLines] using (List.getElem?_eq_some_iff.mp hrow).1
  rw [b.getElem?_sourceLines _ _ hraw] at hrow
  cases hrow
  simp only
  omega

/-- Source lines become buffer lines in order. -/
theorem sourceTable_pairwise (h : ∀ b ∈ blocks, ∃ made, b.InOrder made) (first : Nat) :
    (sourceTable spacing first blocks).Pairwise (·.bufferLine ≤ ·.bufferLine) := by
  induction blocks generalizing first with
  | nil => exact List.Pairwise.nil
  | cons b rest ih =>
    obtain ⟨made, hb⟩ := h b List.mem_cons_self
    rw [sourceTable, List.pairwise_append]
    refine ⟨?_, ih (fun c hc => h c (List.mem_cons_of_mem b hc)) _, ?_⟩
    · rw [Block.sourceLines, List.pairwise_map]
      refine List.pairwise_lt_range.imp_of_mem ?_
      intro raw raw' hmem hmem' hlt
      have := hb.output_mono (Nat.le_of_lt hlt) (List.mem_range.mp hmem')
      simp only
      omega
    · intro row hrow row' hrow'
      have hfirst := sourceTable_first_le _ row' hrow'
      simp only [Block.sourceLines, List.mem_map, List.mem_range] at hrow
      obtain ⟨raw, hraw, rfl⟩ := hrow
      have hlt := hb.output_lt hraw
      simp only [Block.depth] at hfirst ⊢
      omega

theorem sourceTable_monotone (h : ∀ b ∈ blocks, ∃ made, b.InOrder made) {s s' : Nat}
    {line line' : SourceLine} (hle : s ≤ s') (hs : (sourceTable spacing 0 blocks)[s]? = some line)
    (hs' : (sourceTable spacing 0 blocks)[s']? = some line') :
    line.bufferLine ≤ line'.bufferLine := by
  rcases Nat.lt_or_eq_of_le hle with hlt | rfl
  · obtain ⟨hi, rfl⟩ := List.getElem?_eq_some_iff.mp hs
    obtain ⟨hj, rfl⟩ := List.getElem?_eq_some_iff.mp hs'
    exact List.pairwise_iff_getElem.mp (sourceTable_pairwise h 0) s s' hi hj hlt
  · rw [hs] at hs'
    exact Nat.le_of_eq (congrArg SourceLine.bufferLine (Option.some.inj hs'))

end Inverse

end Polyglot
