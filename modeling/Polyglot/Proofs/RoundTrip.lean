import Polyglot.Proofs.Descent
import Polyglot.Proofs.TableInvariant
import Polyglot.Session
import Mathlib.Data.List.Forall2

/-!
Positions of editors make the round trip through a rebuilt tree: from the editor to the source of
the root, down into the innermost document around them, to its buffer, and back to the editor.
-/
namespace Polyglot

open Document

/-- The block that a cell becomes in a root. -/
structure Cell.Becomes (cell : Cell) (b : Block) : Prop where
  editor_eq : b.editor = cell.editor
  origin_eq : b.origin = Pos.origin
  height_eq : b.height = cell.text.lines.length

section

variable {context : Context} {levels next next' : Nat} {cells : List Cell} {d d' : Document}
  {notices : List Notice}

theorem appendCells_cons_ok {index : Nat} {cell : Cell} {rest : List Cell}
    (h : appendCells context levels index (cell :: rest) next d = (notices, ⟨d', next', .ok ()⟩)) :
    ∃ d₁ n₁ later,
      d.append context cell.text cell.editor Pos.origin none next levels = ⟨d₁, n₁, .ok ()⟩ ∧
      appendCells context levels (index + 1) rest n₁ d₁ = (later, ⟨d', next', .ok ()⟩) := by
  rw [appendCells] at h
  cases happend : d.append context cell.text cell.editor Pos.origin none next levels with
  | mk d₁ n₁ result =>
    rw [happend] at h
    cases result with
    | error e => cases h
    | ok u =>
      obtain ⟨_, hrest⟩ := Prod.mk.inj h
      exact ⟨d₁, n₁, _, rfl, Prod.ext rfl hrest⟩

/-- Cells that are appended become blocks in turn. -/
theorem appendCells_ok {index : Nat}
    (h : appendCells context levels index cells next d = (notices, ⟨d', next', .ok ()⟩)) :
    ∃ blocks, d'.info.blocks = d.info.blocks ++ blocks ∧
      List.Forall₂ Cell.Becomes cells blocks := by
  induction cells generalizing index next d notices with
  | nil =>
    cases h
    exact ⟨[], by simp, List.Forall₂.nil⟩
  | cons cell rest ih =>
    obtain ⟨d₁, n₁, later, happend, hrest⟩ := appendCells_cons_ok h
    obtain ⟨_, _, foreign, kept, _, _, _, _, _, hblock⟩ := appendText_ok happend
    obtain ⟨blocks, hblocks, hall⟩ := ih hrest
    refine ⟨
      blockOf context.rules d.language cell.editor Pos.origin none cell.text kept foreign :: blocks,
      ?_, List.Forall₂.cons ⟨rfl, rfl, rfl⟩ hall⟩
    rw [hblocks, hblock, List.append_assoc, List.singleton_append]

/-- What appending the text of each cell keeps is kept by appending the cells. -/
theorem appendCells_keeps (context : Context) (levels : Nat) {cells : List Cell}
    {I : Nat → Document → Prop} (hstep : ∀ cell ∈ cells, ∀ next d, I next d →
      I (appendText context cell.editor levels Pos.origin none cell.text next d).next
        (appendText context cell.editor levels Pos.origin none cell.text next
          d).document)
    (index : Nat) (h : I next d) :
    I (appendCells context levels index cells next d).2.next
      (appendCells context levels index cells next d).2.document := by
  induction cells generalizing index next d with
  | nil => exact h
  | cons cell rest ih =>
    have hone := hstep cell List.mem_cons_self next d h
    rw [appendCells, append]
    revert hone
    generalize
      appendText context cell.editor levels Pos.origin none cell.text next d = o
    obtain ⟨d₁, n₁, result⟩ := o
    intro hone
    cases result with
    | error e => exact hone
    | ok u => exact ih (fun c hc => hstep c (List.mem_cons_of_mem cell hc)) (index + 1) hone

theorem update_ok {s s' : Session} (h : s.update cells next = (s', next', .ok ())) :
    ∃ notices d₁, appendCells s.context s.levels 0 cells next s.root.clear =
        (notices, ⟨d₁, next', .ok ()⟩) ∧
      s'.root = d₁.closeExpired.emitChanged.drained := by
  unfold Session.update rebuild at h
  split at h
  · cases h
  · cases happend : appendCells s.context s.levels 0 cells next s.root.clear with
    | mk notices outcome =>
      obtain ⟨d₁, n₁, result⟩ := outcome
      rw [happend] at h
      cases result with
      | error e => cases h
      | ok u =>
        cases h
        exact ⟨notices, d₁, rfl, rfl⟩

theorem reachable_appendCells (levels : Nat) (cells : List Cell) (h : Reachable context next d)
    (index : Nat) :
    Reachable context (appendCells context levels index cells next d).2.next
      (appendCells context levels index cells next d).2.document :=
  appendCells_keeps context levels (I := Reachable context)
    (fun cell _ _ _ he => he.append levels cell.text cell.editor Pos.origin none) index h

/-- Whether a rebuild succeeds or not, it leaves a tree that can arise. -/
theorem reachable_update {s : Session} (h : Reachable s.context next s.root) (cells : List Cell) :
    Reachable s.context (s.update cells next).2.1 (s.update cells next).1.root := by
  have hcells := reachable_appendCells s.levels cells h.clear 0
  unfold Session.update rebuild
  split
  · exact h
  · revert hcells
    generalize appendCells s.context s.levels 0 cells next s.root.clear = o
    obtain ⟨notices, d, n, result⟩ := o
    intro hcells
    cases result with
    | error e => exact hcells.drained
    | ok u => exact hcells.closeExpired.emitChanged.drained

/-- The cells are the blocks of a rebuilt root. -/
theorem becomes_of_update {s s' : Session} (h : s.update cells next = (s', next', .ok ())) :
    List.Forall₂ Cell.Becomes cells s'.root.info.blocks := by
  obtain ⟨notices, d₁, happend, hroot⟩ := update_ok h
  obtain ⟨blocks, hblocks, hbecomes⟩ := appendCells_ok happend
  have hempty : s.root.clear.info.blocks = [] := by
    cases s.root
    rfl
  have hsame : s'.root.info.blocks = blocks := by
    rw [hroot, drained, blocks_modify _ _ rfl, blocks_emitChanged, blocks_closeExpired, hblocks,
      hempty, List.nil_append]
  rw [hsame]
  exact hbecomes

/-- The tree that a rebuild leaves behind. -/
theorem leads_of_update {s s' : Session} (hreach : Reachable s.context next s.root)
    (hapart : s.context.SiblingsApart) (hfaithful : s.context.Faithful)
    (h : s.update cells next = (s', next', .ok ())) :
    Reachable s.context next' s'.root ∧ s'.root.Throughout Leads ∧
      List.Forall₂ Cell.Becomes cells s'.root.info.blocks := by
  obtain ⟨notices, d₁, happend, hroot⟩ := update_ok h
  have hkept := appendCells_keeps s.context s.levels
    (I := fun n e => Reachable s.context n e ∧ e.Throughout Linked)
    (fun cell (_ : cell ∈ cells) n e he =>
      ⟨Reachable.append s.levels cell.text cell.editor Pos.origin none he.1,
      linked_appendText hapart hfaithful cell.editor _ Pos.origin cell.text
        (steady_of_reachable hapart he.1) he.2⟩) 0
    ⟨hreach.clear, linked_of_blank (steady_of_reachable hapart hreach).blank_clear⟩
  rw [happend] at hkept
  obtain ⟨hreach₁, hlinked⟩ := hkept
  have hleads : d₁.Throughout Leads := fun e he =>
    (hlinked e he).leads (steady_of_reachable hapart hreach₁ e he).sorted
  refine ⟨?_, ?_, becomes_of_update h⟩
  · rw [hroot]
    exact hreach₁.closeExpired.emitChanged.drained
  · rw [hroot]
    exact lasting_leads.modify (lasting_leads.emitChanged (lasting_leads.closeExpired hleads))
      (core_drained _)

/-- An element is found in one place of a list only, if all have different names. -/
theorem split_unique {α β : Type} (name : α → β) {pre pre' post post' : List α} {a a' : α}
    (hnames : ((pre ++ a :: post).map name).Nodup)
    (heq : pre ++ a :: post = pre' ++ a' :: post') (hname : name a = name a') :
    pre = pre' ∧ a = a' := by
  induction pre generalizing pre' with
  | nil =>
    cases pre' with
    | nil => exact ⟨rfl, (List.cons.inj heq).1⟩
    | cons x rest =>
      obtain ⟨rfl, rfl⟩ := List.cons.inj heq
      simp [hname] at hnames
  | cons x rest ih =>
    cases pre' with
    | nil =>
      obtain ⟨rfl, rfl⟩ := List.cons.inj heq
      simp [hname] at hnames
    | cons x' rest' =>
      obtain ⟨rfl, htail⟩ := List.cons.inj heq
      rw [List.cons_append, List.map_cons, List.nodup_cons] at hnames
      obtain ⟨rfl, ha⟩ := ih hnames.2 htail
      exact ⟨rfl, ha⟩

/-- Whatever stands on the right has a partner on the left. -/
theorem exists_mem_of_forall₂ {α β : Type} {R : α → β → Prop} {l : List α} {l' : List β} {b : β}
    (h : List.Forall₂ R l l') (hb : b ∈ l') : ∃ a ∈ l, R a b := by
  induction h with
  | nil => cases hb
  | cons hone _ ih =>
    rcases List.mem_cons.mp hb with rfl | hb
    · exact ⟨_, List.mem_cons_self, hone⟩
    · obtain ⟨a, ha, hab⟩ := ih hb
      exact ⟨a, List.mem_cons_of_mem _ ha, hab⟩

theorem becomes_all {blocks : List Block} (h : List.Forall₂ Cell.Becomes cells blocks) :
    blocks.map (·.editor) = cells.map (·.editor) ∧ (∀ b ∈ blocks, b.origin = Pos.origin) ∧
      ∀ cell ∈ cells, ∃ b ∈ blocks, cell.Becomes b := by
  refine ⟨?_, ?_, fun cell hcell => exists_mem_of_forall₂ h.flip hcell⟩
  · induction h with
    | nil => rfl
    | cons hone _ ih => simp [hone.editor_eq, ih]
  · intro b hb
    obtain ⟨cell, _, hbecomes⟩ := exists_mem_of_forall₂ h hb
    exact hbecomes.origin_eq

/-- A place in a cell is the source place in the block of the cell. -/
theorem editorToSource_of_becomes (hall : List.Forall₂ Cell.Becomes cells d.info.blocks)
    (hdistinct : (cells.map (·.editor)).Nodup) {cell : Cell} (hcell : cell ∈ cells)
    {p : Pos .editor} (hp : p.line < cell.text.lines.length) :
    ∃ pre b post, d.info.blocks = pre ++ b :: post ∧ cell.Becomes b ∧
      d.editorToSource cell.editor p = .ok ⟨heightOf pre + p.line, p.column⟩ := by
  obtain ⟨heditors, horigins, hcells⟩ := becomes_all hall
  obtain ⟨b, hb, hbecomes⟩ := hcells cell hcell
  obtain ⟨pre, post, hblocks⟩ := List.append_of_mem hb
  refine ⟨pre, b, post, hblocks, hbecomes, ?_⟩
  rw [← hbecomes.height_eq] at hp
  have hrow := sourceTable_at d.info.config.spacing pre b post hp
  rw [← hblocks] at hrow
  obtain ⟨hlt, hget⟩ := List.getElem?_eq_some_iff.mp hrow
  have hindex : d.sourceLines.findIdx? (fun row => row.editor = cell.editor &&
      row.editorLine + row.shift.line = p.line) = some (heightOf pre + p.line) := by
    rw [List.findIdx?_eq_some_iff_getElem]
    refine ⟨hlt, ?_, ?_⟩
    · simp only [sourceLines, hget, hbecomes.editor_eq, hbecomes.origin_eq, Pos.origin]
      simp
    · -- a row before it belongs to another block, or lies before it in the same block
      intro j hj hfound
      obtain ⟨pre', b', post', raw, hblocks', rfl, hraw, hrow'⟩ :=
        exists_raw_of_source (List.getElem?_eq_getElem (Nat.lt_trans hj hlt))
      simp only [sourceLines, hrow', Bool.and_eq_true, decide_eq_true_eq] at hfound
      have hb' : b' ∈ d.info.blocks := by
        rw [hblocks']
        simp
      rw [horigins b' hb'] at hfound
      have hnames : ((pre ++ b :: post).map (·.editor)).Nodup := by
        rwa [← hblocks, heditors]
      obtain ⟨rfl, rfl⟩ := split_unique (·.editor) hnames (hblocks.symm.trans hblocks')
        (hbecomes.editor_eq.trans hfound.1.symm)
      have hline : raw = p.line := by simpa [Pos.origin] using hfound.2
      omega
  have hfind := @List.find?_eq_bind_findIdx?_getElem? _ d.sourceLines
    fun row => row.editor = cell.editor && row.editorLine + row.shift.line = p.line
  rw [hindex, Option.bind_some] at hfind
  simp only [editorToSource, hindex, hfind.trans hrow]
  simp only [columnShift, hbecomes.origin_eq, Pos.origin, ite_self, Nat.sub_zero]

/-- A buffer line that stands for a source line belongs to the editor of that source line. -/
theorem editorOfBufferLine_of_bufferToSource {tree : Document}
    (hreach : Reachable context next tree)
    (howns : tree.Owns d) {v : Pos .buffer} {r : Pos .source} {row : SourceLine}
    (hback : d.bufferToSource v = .ok r) (hrow : d.sourceLines[r.line]? = some row) :
    d.editorOfBufferLine v.line = .ok row.editor := by
  unfold bufferToSource at hback
  split at hback
  · cases hback
  next line hline =>
    split at hback
    · cases hback
    next source hsource =>
      cases hback
      obtain ⟨row', hrow', _, heditor⟩ :=
        sourceTable_of_bufferTable (blocks_inOrder_of_reachable hreach howns) hline hsource
      have hsame : row = row' := Option.some.inj (hrow.symm.trans hrow')
      have hlt := (List.getElem?_eq_some_iff.mp hline).1
      simp only [editorOfBufferLine, if_neg (Nat.ne_of_lt hlt), hline, hsame, heditor]

/-- The round trip. A place on a line of a cell has a source place in the rebuilt root and a buffer
place in the innermost document around it; and if the source line where the way down ends was not
swallowed, the buffer place goes back to the same place of the same editor. -/
theorem editor_roundTrip {s s' : Session} (hreach : Reachable s.context next s.root)
    (hapart : s.context.SiblingsApart) (hfaithful : s.context.Faithful)
    (hdistinct : (cells.map (·.editor)).Nodup)
    (hupdate : s.update cells next = (s', next', .ok ())) {cell : Cell} (hcell : cell ∈ cells)
    {p : Pos .editor} (hp : p.line < cell.text.lines.length) :
    ∃ q d r v, s'.root.editorToSource cell.editor p = .ok q ∧
      s'.root.bufferPositionAt q = .ok (d, v) ∧ s'.root.Descends q d r ∧
      (d.bufferToSource v = .ok r →
        d.bufferToEditor v = .ok p ∧ d.editorOfBufferLine v.line = .ok cell.editor) := by
  obtain ⟨hreach', hleads, hbecomes⟩ := leads_of_update hreach hapart hfaithful hupdate
  obtain ⟨pre, b, post, hblocks, hb, hsource⟩ :=
    editorToSource_of_becomes hbecomes hdistinct hcell hp
  rw [← hb.height_eq] at hp
  have hrow := sourceTable_at s'.root.info.config.spacing pre b post hp
  rw [← hblocks] at hrow
  obtain ⟨d, r, last, hdescends, howns, hlast, heditor, hplace⟩ := exists_descends hleads
    (show s'.root.sourceLines[(⟨heightOf pre + p.line, p.column⟩ : Pos .source).line]? = _ from
      hrow)
  obtain ⟨row, hrow', hbuffer⟩ := hdescends.bufferPositionAt_eq
  refine ⟨_, d, r, _, hsource, hbuffer, hdescends, ?_⟩
  intro hback
  constructor
  · rw [bufferToEditor, hback]
    refine hplace.trans ((sourceToEditor_at hblocks hp p.column).trans ?_)
    simp only [editorPlace, hb.origin_eq, Pos.origin, Nat.add_zero, ite_self]
  · rw [editorOfBufferLine_of_bufferToSource hreach' howns hback hlast, heditor, hb.editor_eq]

end

/-! Two trees: one with documents inside documents, and one whose keys are not apart. -/

/-- Takes the first occurrence of a character, and leaves the host its text. -/
def letterExtractor (c : Char) (kind : Kind) : Extractor where
  kind := kind
  exclusive := false
  detects := fun text => text.contains c
  extract := fun text =>
    let before := text.takeWhile (· != c)
    .ok [{ range := some ⟨Pos.behind before, Pos.behind (before ++ [c])⟩
           foreign := some [c]
           host := some text }]

theorem letterExtractor_faithful (c : Char) (kind : Kind) : (letterExtractor c kind).Faithful := by
  intro text pieces hpieces p hp
  cases hpieces
  obtain rfl := List.mem_singleton.mp hp
  refine ⟨rfl, ?_⟩
  intro code range hcode hrange
  cases hcode
  cases hrange
  simp only [Pos.line_behind, List.count_append, Text.length_lines]
  omega

theorem tailExtractor_faithful : tailExtractor.Faithful := by
  intro text pieces hpieces p hp
  simp only [tailExtractor, List.span_eq_takeWhile_dropWhile] at hpieces
  cases hpieces
  obtain rfl := List.mem_singleton.mp hp
  refine ⟨rfl, ?_⟩
  intro code range hcode hrange
  cases hcode
  cases hrange
  rw [Pos.line_behind, Text.length_lines]
  have hfirst : (text.takeWhile (· != '\n')).count '\n' = 0 := by
    rw [List.count_eq_zero]
    intro hmem
    have := List.mem_takeWhile_imp hmem
    simp at this
  have hsplit := congrArg (List.count '\n')
    (List.takeWhile_append_dropWhile (p := (· != '\n')) (l := text))
  rw [List.count_append, hfirst, Nat.zero_add] at hsplit
  rw [← hsplit]
  cases text.dropWhile (· != '\n') with
  | nil => simp
  | cons c rest =>
    have := List.count_le_count_cons (a := '\n') (b := c) (l := rest)
    rw [List.count_cons]
    simp only [List.drop_one, List.tail_cons]
    split <;> omega

/-- Keys are apart if no language of shared documents ends like a key. -/
theorem Context.siblingsApart_of_last {context : Context}
    (h : ∀ kind, context.Registers kind → kind.standalone = false →
      kind.language.toList.getLast? ≠ some ')') : context.SiblingsApart := by
  intro host shared alone hfinds _ hkind halone number heq
  refine h shared hfinds.registers hkind ?_
  rw [heq, Identity.keyOf, if_pos halone, String.toList_append,
    show ")".toList = [')'] from rfl, List.getLast?_append]
  rfl

/-- A file whose lines behind the first are one piece of code, in which one letter is code again. -/
def nestedSession : Session where
  context :=
    { extractors := ⟨[("python", tailExtractor),
        ("cel", letterExtractor 'z' ⟨"word", "txt", false⟩)]⟩ }
  policy := {}
  root := tailRoot

theorem siblingsApart_nestedSession : nestedSession.context.SiblingsApart := by
  refine Context.siblingsApart_of_last ?_
  rintro kind ⟨entry, hentry, rfl⟩ hshared
  rcases List.mem_cons.mp hentry with rfl | hentry
  · cases hshared
  · obtain rfl := List.mem_singleton.mp hentry
    decide +kernel

def nestedCells : List Cell := [⟨"x\ny\nz".toList, "cell"⟩]

/-- The last letter of the file is found two documents below the root, and back. -/
theorem editor_roundTrip_nested : ∃ q d v,
    (nestedSession.update nestedCells 1).1.root.editorToSource "cell" ⟨2, 0⟩ = .ok q ∧
    (nestedSession.update nestedCells 1).1.root.bufferPositionAt q = .ok (d, v) ∧
    d.idPath = "python-1(cel)-word" ∧ d.bufferToEditor v = .ok ⟨2, 0⟩ ∧
    d.editorOfBufferLine v.line = .ok "cell" := by
  have hfaithful : nestedSession.context.Faithful := by
    intro entry hentry
    rcases List.mem_cons.mp hentry with rfl | hentry
    · exact tailExtractor_faithful
    · obtain rfl := List.mem_singleton.mp hentry
      exact letterExtractor_faithful _ _
  have hupdate : (nestedSession.update nestedCells 1).2.2 = .ok () := by decide +kernel
  have hsource : (nestedSession.update nestedCells 1).1.root.editorToSource "cell" ⟨2, 0⟩ =
      .ok ⟨2, 0⟩ := by decide +kernel
  have hbuffer : ((nestedSession.update nestedCells 1).1.root.bufferPositionAt ⟨2, 0⟩).map
      (fun x => (x.1.idPath, x.1.sourceLines.length, x.2, x.1.bufferToSource x.2)) =
        .ok ("python-1(cel)-word", 1, ⟨0, 0⟩, .ok ⟨0, 0⟩) := by decide +kernel
  obtain ⟨q, d, r, v, hq, hd, hdescends, hback⟩ := editor_roundTrip (s := nestedSession)
    (Reachable.root "python" _ "py" 0) siblingsApart_nestedSession hfaithful (by decide)
    (Prod.ext rfl (Prod.ext rfl hupdate))
    (show (⟨"x\ny\nz".toList, "cell"⟩ : Cell) ∈ nestedCells from List.mem_cons_self)
    (p := ⟨2, 0⟩) (by decide)
  obtain rfl : q = ⟨2, 0⟩ := Except.ok.inj (hq.symm.trans hsource)
  rw [hd] at hbuffer
  obtain ⟨hpath, hparts⟩ := Prod.mk.inj (Except.ok.inj hbuffer)
  obtain ⟨hlength, hparts⟩ := Prod.mk.inj hparts
  obtain ⟨rfl, hsame⟩ := Prod.mk.inj hparts
  -- the document at the end has a single source line
  obtain ⟨row, hrow, hend⟩ := hdescends.bufferPositionAt_eq
  have hcolumn : r.column = 0 := by
    have hv := (Prod.mk.inj (Except.ok.inj (hend.symm.trans hd))).2
    exact congrArg Pos.column hv
  have hline : r.line = 0 := by
    have hlt := (List.getElem?_eq_some_iff.mp hrow).1
    rw [show d.sourceLines.length = 1 from hlength] at hlt
    omega
  have hr : r = ⟨0, 0⟩ := Pos.ext hline hcolumn
  obtain ⟨heditor, hname⟩ := hback (hr ▸ hsame)
  exact ⟨_, d, _, hsource, hd, hpath, heditor, hname⟩

/-- A shared language that reads like the key of the second document of the tree. -/
def crossedSession : Session where
  context :=
    { extractors := ⟨[("python", letterExtractor 'a' ⟨"2(cel)", "txt", false⟩),
        ("python", letterExtractor 'b' ⟨"cel", "cel", true⟩)]⟩ }
  policy := {}
  root := tailRoot

def crossedCells : List Cell := [⟨"ab".toList, "cell"⟩]

/-- Where keys are not apart, the second document takes the place of the first, and the note of the
first letter leads to the second. -/
theorem crossed_keys_break_roundTrip :
    Reachable crossedSession.context 1 crossedSession.root ∧ crossedSession.context.Faithful ∧
    (crossedCells.map (·.editor)).Nodup ∧
    (crossedSession.update crossedCells 1).2.2 = .ok () ∧
    ∃ q d r v,
      (crossedSession.update crossedCells 1).1.root.editorToSource "cell" ⟨0, 0⟩ = .ok q ∧
      (crossedSession.update crossedCells 1).1.root.bufferPositionAt q = .ok (d, v) ∧
      (crossedSession.update crossedCells 1).1.root.Descends q d r ∧
      d.bufferToSource v = .ok r ∧ d.bufferToEditor v = .ok ⟨0, 1⟩ := by
  refine ⟨Reachable.root "python" _ "py" 0, ?_, by decide, by decide +kernel, ?_⟩
  · intro entry hentry
    rcases List.mem_cons.mp hentry with rfl | hentry
    · exact letterExtractor_faithful _ _
    · obtain rfl := List.mem_singleton.mp hentry
      exact letterExtractor_faithful _ _
  · have hroot : ((crossedSession.update crossedCells 1).1.root.sourceLines[0]?.bind fun row =>
        descent? (crossedSession.update crossedCells 1).1.root.children row 0) =
          some ("2(cel)", ⟨0, 0⟩) := by decide +kernel
    have hchild : (((crossedSession.update crossedCells 1).1.root.child? "2(cel)").bind fun c =>
        c.sourceLines[0]?.map fun row => (row.bufferLine, descent? c.children row 0,
          c.bufferToSource ⟨0, 0⟩, c.bufferToEditor ⟨0, 0⟩)) =
          some (0, none, .ok ⟨0, 0⟩, .ok ⟨0, 1⟩) := by decide +kernel
    obtain ⟨row, hrow, hdescent⟩ := Option.bind_eq_some_iff.mp hroot
    obtain ⟨c, hc, hfound⟩ := Option.bind_eq_some_iff.mp hchild
    obtain ⟨row', hrow', hparts⟩ := Option.map_eq_some_iff.mp hfound
    obtain ⟨hline, hparts⟩ := Prod.mk.inj hparts
    obtain ⟨hnone, hparts⟩ := Prod.mk.inj hparts
    obtain ⟨hsource, heditor⟩ := Prod.mk.inj hparts
    have hdescends : (crossedSession.update crossedCells 1).1.root.Descends ⟨0, 0⟩ c ⟨0, 0⟩ :=
      Descends.enters hrow hdescent hc (Descends.stays hrow' hnone)
    obtain ⟨last, hlast, hbuffer⟩ := hdescends.bufferPositionAt_eq
    obtain rfl : row' = last := Option.some.inj (hrow'.symm.trans hlast)
    rw [hline] at hbuffer
    exact ⟨⟨0, 0⟩, c, ⟨0, 0⟩, ⟨0, 0⟩, by decide +kernel, hbuffer, hdescends, hsource, heditor⟩

end Polyglot
