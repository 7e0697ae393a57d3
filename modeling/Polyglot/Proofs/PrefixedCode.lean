import Polyglot.Proofs.Provenance

/-!
Code with room in front of it. An extractor may hand out a stretch of its host's text behind some
text of its own, and say where the stretch starts in the code. Positions of the stretch are then
mapped back by moving the block of the code, and only as long as the block can be moved enough:
main statement is that they are mapped back exactly if and only if the code was given at the true
place of the stretch and the room in front of it fits there, at any depth of the tree.
-/
namespace Polyglot

/-- A piece of code is a stretch of a text behind some room, and its shift says where the stretch
starts in the code. -/
structure Fragment.Fills (f : Fragment) (front inside room : Text) : Prop where
  range_eq : f.range = ⟨Pos.behind front, Pos.behind (front ++ inside)⟩
  text_eq : f.text = room ++ inside
  shift_eq : f.shift.getD Pos.origin = ⟨(Pos.behind room).line, (Pos.behind room).column⟩

/-- Room of several lines ends where a line starts. -/
def Text.Straight (room : Text) : Prop :=
  (Pos.behind room).line ≠ 0 → (Pos.behind room).column = 0

namespace Document

/-- An excerpt of a cell in a document of its tree: behind the blocks `pre` the document holds a
text of some room and the excerpt, which was given as starting at `given`; the cell has the excerpt
behind `before`. -/
structure Excerpt where
  document : Document
  pre : List Block
  given : Pos .editor
  room : Text
  before : Text
  inside : Text

namespace Excerpt

def text (x : Excerpt) : Text := x.room ++ x.inside

/-- The source position of the document behind some text of the excerpt. -/
def place (x : Excerpt) (u : Text) : Pos .source :=
  ⟨heightOf x.pre + (Pos.behind (x.room ++ u)).line, (Pos.behind (x.room ++ u)).column⟩

/-- The same place in the cell. -/
def cellPlace (x : Excerpt) (u : Text) : Pos .editor :=
  ⟨(Pos.behind (x.before ++ u)).line, (Pos.behind (x.before ++ u)).column⟩

/-- The text was given on the line where the excerpt starts in the cell, and the cell has as many
lines in front of it as the room. On the first line of the excerpt columns matter, too: room of one
line is at most as long as the line of the cell in front of the excerpt, and the last line of more
room exactly as long. -/
structure Fits (x : Excerpt) (u : Text) : Prop where
  line_eq : x.given.line = (Pos.behind x.before).line
  lines : (Pos.behind x.room).line ≤ (Pos.behind x.before).line
  columns : (Pos.behind u).line = 0 → if (Pos.behind x.room).line = 0 then
      x.given.column = (Pos.behind x.before).column ∧
        (Pos.behind x.room).column ≤ (Pos.behind x.before).column
    else (Pos.behind x.room).column = (Pos.behind x.before).column

/-- A note of the block of an excerpt leads to the document of another. -/
structure Points (x : Excerpt) (note : Range .text × ForeignBlock) (y : Excerpt) : Prop where
  noted : ∃ b post, x.document.info.blocks = x.pre ++ b :: post ∧ note ∈ b.foreign
  child : y.document ∈ x.document.children
  key_eq : y.document.key = note.2.document

end Excerpt

/-- The excerpts of a cell that the documents of a tree hold, with what was known of them when they
were given. -/
inductive Traced (context : Context) (root : Document) (cell : Cell) : Nat → Excerpt → Prop
  | whole {levels : Nat} {pre : List Block} :
      Given context cell.editor levels root pre Pos.origin none cell.text →
      Traced context root cell levels ⟨root, pre, Pos.origin, [], [], cell.text⟩
  | piece {levels : Nat} {x : Excerpt} {f : Fragment} {c : Document} {pre : List Block}
      {skip inside rest room : Text} : Traced context root cell (levels + 1) x →
      f ∈ (Fragment.peel (context.extractors.forHost x.document.language) x.text).1 →
      c ∈ x.document.children → x.inside = skip ++ inside ++ rest →
      f.Fills (x.room ++ skip) inside room →
      Given context cell.editor levels c pre (foreignOrigin x.given f.range) f.shift f.text →
      Traced context root cell levels
        ⟨c, pre, foreignOrigin x.given f.range, room, x.before ++ skip, inside⟩

section

variable {context : Context} {root : Document} {cell : Cell} {levels : Nat} {x : Excerpt}

/-- The block of an excerpt, and who took the code that was found in it. -/
theorem Traced.exists_block (h : Traced context root cell levels x) :
    ∃ below shift kept notes post, levels = below + 1 ∧
      shift.getD Pos.origin = ⟨(Pos.behind x.room).line, (Pos.behind x.room).column⟩ ∧
      x.document.info.blocks = x.pre ++ blockOf context.rules x.document.language cell.editor
        x.given shift x.text kept notes :: post ∧
      List.Forall₂ (Takes (Given context cell.editor below) x.document x.given)
        (Fragment.peel (context.extractors.forHost x.document.language) x.text).1 notes := by
  have hgiven : ∃ shift : Option (Pos .source),
      shift.getD Pos.origin = ⟨(Pos.behind x.room).line, (Pos.behind x.room).column⟩ ∧
        Given context cell.editor levels x.document x.pre x.given shift x.text := by
    cases h with
    | whole h => exact ⟨none, rfl, h⟩
    | piece _ _ _ _ hfills h =>
      rw [hfills.text_eq] at h
      exact ⟨_, hfills.shift_eq, h⟩
  obtain ⟨shift, hshift, hgiven⟩ := hgiven
  obtain ⟨below, kept, notes, post, hlevels, _, hblocks, hnotes⟩ := hgiven.parts
  exact ⟨below, shift, kept, notes, post, hlevels, hshift, hblocks, hnotes⟩

/-- An excerpt is an excerpt of the cell. -/
theorem Traced.cell_text (h : Traced context root cell levels x) :
    ∃ after, cell.text = x.before ++ x.inside ++ after := by
  induction h with
  | whole => exact ⟨[], by simp⟩
  | @piece _ x _ _ _ skip inside rest _ _ _ _ hinside _ _ ih =>
    obtain ⟨after, hcell⟩ := ih
    refine ⟨rest ++ after, ?_⟩
    rw [hcell, hinside]
    simp only [List.append_assoc]

/-- Codes are given at or behind their true places, never before. -/
theorem Traced.before_given (h : Traced context root cell levels x) :
    (Pos.behind x.before).line ≤ x.given.line ∧
      ((Pos.behind x.before).line = x.given.line →
        (Pos.behind x.before).column ≤ x.given.column) := by
  induction h with
  | whole => exact ⟨Nat.le_refl _, fun _ => Nat.le_refl _⟩
  | @piece _ x f _ _ skip _ _ _ _ _ _ _ hfills _ ih =>
    obtain ⟨hline, hcolumn⟩ := ih
    simp only [foreignOrigin, hfills.range_eq, Pos.behind_append]
    constructor
    · omega
    · intro hsame
      split <;> split <;> omega

theorem Excerpt.line_lt {u v : Text} (hinside : x.inside = u ++ v) :
    (Pos.behind (x.room ++ u)).line < x.text.lines.length := by
  rw [Text.length_lines, Pos.line_behind, Excerpt.text, hinside, List.count_append,
    List.count_append, List.count_append]
  omega

/-- Where the document has a place of the excerpt. -/
theorem Traced.sourceToEditor_place (h : Traced context root cell levels x) {u v : Text}
    (hinside : x.inside = u ++ v) :
    x.document.sourceToEditor (x.place u) = .ok
      ⟨(Pos.behind (x.room ++ u)).line + (x.given.line - (Pos.behind x.room).line),
        (Pos.behind (x.room ++ u)).column + if (Pos.behind (x.room ++ u)).line = 0 then
          x.given.column - (Pos.behind x.room).column else 0⟩ := by
  obtain ⟨_, shift, _, _, _, _, hshift, hblocks, _⟩ := h.exists_block
  have hplace := sourceToEditor_at hblocks (Excerpt.line_lt hinside)
    (Pos.behind (x.room ++ u)).column
  simp only [editorPlace, blockOf, hshift] at hplace
  exact hplace

/-- A place of an excerpt is mapped back if and only if the excerpt fits there. -/
theorem Traced.maps_back_iff (h : Traced context root cell levels x) {u v : Text}
    (hinside : x.inside = u ++ v) :
    x.document.sourceToEditor (x.place u) = .ok (x.cellPlace u) ↔ x.Fits u := by
  obtain ⟨hbefore, hbefore'⟩ := h.before_given
  rw [h.sourceToEditor_place hinside, Excerpt.cellPlace]
  simp only [Pos.behind_append, Except.ok.injEq, Pos.mk.injEq]
  constructor
  · rintro ⟨hline, hcolumn⟩
    have hsame : x.given.line = (Pos.behind x.before).line := by omega
    have hlower := hbefore' hsame.symm
    refine ⟨hsame, by omega, ?_⟩
    intro hu
    rw [if_pos hu, if_pos hu, hu, Nat.add_zero] at hcolumn
    by_cases hroom : (Pos.behind x.room).line = 0
    · rw [if_pos hroom] at hcolumn ⊢
      omega
    · rw [if_neg hroom] at hcolumn ⊢
      omega
  · rintro ⟨hline, hlines, hcolumns⟩
    refine ⟨by omega, ?_⟩
    by_cases hu : (Pos.behind u).line = 0
    · have hfirst := hcolumns hu
      rw [if_pos hu, if_pos hu, hu, Nat.add_zero]
      by_cases hroom : (Pos.behind x.room).line = 0
      · rw [if_pos hroom] at hfirst ⊢
        omega
      · rw [if_neg hroom] at hfirst ⊢
        omega
    · rw [if_neg hu, if_neg hu, if_neg (by omega)]
      omega

/-- A piece of code found in an excerpt is an excerpt of a child, where the note of the piece
says. -/
theorem Traced.exists_piece {levels : Nat} (h : Traced context root cell (levels + 1) x)
    {f : Fragment} {note : Range .text × ForeignBlock} {skip inside rest room : Text}
    (hf : f ∈ (Fragment.peel (context.extractors.forHost x.document.language) x.text).1)
    (hinside : x.inside = skip ++ inside ++ rest) (hfills : f.Fills (x.room ++ skip) inside room)
    (htakes : Takes (Given context cell.editor levels) x.document x.given f note) :
    ∃ y : Excerpt, Traced context root cell levels y ∧ y.document ∈ x.document.children ∧
      y.document.key = note.2.document ∧ heightOf y.pre = note.2.sourceLine ∧
      y.given = foreignOrigin x.given f.range ∧ y.room = room ∧ y.before = x.before ++ skip ∧
      y.inside = inside := by
  obtain ⟨_, _, c, hc, hkey, pre, hpre, hgiven⟩ := htakes
  exact ⟨⟨c, pre, foreignOrigin x.given f.range, room, x.before ++ skip, inside⟩,
    Traced.piece h hf hc hinside hfills hgiven, hc, hkey, hpre, rfl, rfl, rfl, rfl⟩

/-- A note leads from a place of its range to the same place of the code, where room of several
lines does not move it by columns. -/
theorem position_eq_place_iff {f : Fragment} {note : Range .text × ForeignBlock}
    {front inside : Text} {y : Excerpt} (hfills : f.Fills front inside y.room)
    (hrange : note.1 = f.range) (hshift : note.2.shift = f.shift.getD Pos.origin)
    (hpre : heightOf y.pre = note.2.sourceLine) (u : Text) :
    note.2.position (note.1.relative (Pos.behind (front ++ u))) = y.place u ↔
      ((Pos.behind u).line = 0 → y.room.Straight) := by
  rw [hrange, hfills.range_eq, Range.relative_behind, ForeignBlock.position, hshift,
    hfills.shift_eq, Excerpt.place, hpre]
  simp only [Pos.behind_append, Pos.mk.injEq]
  constructor
  · rintro ⟨_, hcolumn⟩ hu hroom
    rw [if_neg (by omega), if_pos hu] at hcolumn
    omega
  · intro hstraight
    refine ⟨by omega, ?_⟩
    by_cases hu : (Pos.behind u).line = 0
    · have hroom := hstraight hu
      rw [Text.Straight] at hroom
      rw [if_pos hu]
      split <;> omega
    · rw [if_neg (by omega), if_neg hu]
      omega

/-- A piece of code that is found in an excerpt is an excerpt of a child; where its places lead to,
and when they lead back. -/
theorem Traced.piece_maps_iff (h : Traced context root cell levels x) {f : Fragment}
    {skip inside rest room : Text}
    (hf : f ∈ (Fragment.peel (context.extractors.forHost x.document.language) x.text).1)
    (hinside : x.inside = skip ++ inside ++ rest) (hfills : f.Fills (x.room ++ skip) inside room) :
    ∃ below note y, Traced context root cell below y ∧ x.Points note y ∧ note.1 = f.range ∧
      y.given = foreignOrigin x.given f.range ∧ y.room = room ∧ y.before = x.before ++ skip ∧
      y.inside = inside ∧ (∃ after, cell.text = y.before ++ y.inside ++ after) ∧
      ∀ u v, inside = u ++ v →
        (note.2.position (note.1.relative (Pos.behind (x.room ++ skip ++ u))) = y.place u ↔
          ((Pos.behind u).line = 0 → room.Straight)) ∧
        (y.document.sourceToEditor (y.place u) = .ok (y.cellPlace u) ↔ y.Fits u) := by
  obtain ⟨below, _, _, _, _, rfl, _, hblocks, hnotes⟩ := h.exists_block
  obtain ⟨note, hnote, htakes⟩ := exists_mem_of_forall₂ hnotes.flip hf
  obtain ⟨y, hy, hmem, hkey, hpre, hgiven, rfl, hbefore, hstretch⟩ :=
    h.exists_piece hf hinside hfills htakes
  refine ⟨below, note, y, hy, ⟨⟨_, _, hblocks, hnote⟩, hmem, hkey⟩, htakes.range_eq, hgiven, rfl,
    hbefore, hstretch, hy.cell_text, ?_⟩
  intro u v huv
  exact ⟨position_eq_place_iff hfills htakes.range_eq htakes.shift_eq hpre u,
    hy.maps_back_iff (hstretch.trans huv)⟩

end

/-- All code that is found in excerpts of a cell is stretches of them behind straight room. -/
def Prefixed (context : Context) (root : Document) (cell : Cell) : Prop :=
  ∀ levels x f, Traced context root cell levels x →
    f ∈ (Fragment.peel (context.extractors.forHost x.document.language) x.text).1 →
    ∃ skip inside rest room, x.inside = skip ++ inside ++ rest ∧
      f.Fills (x.room ++ skip) inside room ∧ room.Straight

/-- A place of a text that lies in a stretch of it. -/
theorem exists_inside_of_contains {room inside skip stretch rest u v : Text}
    (hinside : inside = skip ++ stretch ++ rest) (hu : inside = u ++ v)
    (h : (⟨Pos.behind (room ++ skip), Pos.behind (room ++ skip ++ stretch)⟩ :
      Range .text).contains (Pos.behind (room ++ u)) = true) :
    ∃ w w', u = skip ++ w ∧ stretch = w ++ w' := by
  obtain ⟨hstart, hstop⟩ := Range.contains_iff.mp h
  have hwhole : room ++ u <+: room ++ inside := ⟨v, by rw [hu, List.append_assoc]⟩
  have hskip : room ++ skip <+: room ++ inside :=
    ⟨stretch ++ rest, by simp only [hinside, List.append_assoc]⟩
  have hstretch : room ++ skip ++ stretch <+: room ++ inside :=
    ⟨rest, by simp only [hinside, List.append_assoc]⟩
  have hfront := Pos.isPrefix_of_before hskip hwhole hstart
  have hback := Pos.isPrefix_of_before hwhole hstretch hstop
  rw [List.prefix_append_right_inj] at hfront
  obtain ⟨w, rfl⟩ := hfront
  rw [← List.append_assoc, List.prefix_append_right_inj] at hback
  obtain ⟨w', hw⟩ := hback
  exact ⟨w, w', rfl, hw.symm⟩

/-- The way down from a place of an excerpt leads to the same place of the cell. -/
theorem Traced.exists_descends {context : Context} {root : Document} {cell : Cell} {next : Nat}
    (hprefixed : Prefixed context root cell) {levels : Nat} {x : Excerpt} {u v : Text}
    (h : Traced context root cell levels x) (hsteady : x.document.Steady context next)
    (hinside : x.inside = u ++ v) :
    ∃ below y w w', Traced context root cell below y ∧
      x.document.Descends (x.place u) y.document (y.place w) ∧ x.before ++ u = y.before ++ w ∧
      y.inside = w ++ w' := by
  induction levels generalizing x u v with
  | zero =>
    obtain ⟨_, _, _, _, _, hlevels, _⟩ := h.exists_block
    cases hlevels
  | succ levels ih =>
    obtain ⟨_, shift, kept, notes, post, hlevels, _, hblocks, hnotes⟩ := h.exists_block
    cases hlevels
    have hrow := sourceTable_at x.document.info.config.spacing x.pre
      (blockOf context.rules x.document.language cell.editor x.given shift x.text kept notes) post
      (Excerpt.line_lt hinside)
    rw [← hblocks] at hrow
    cases hdescent : descent? x.document.children _ (x.place u).column with
    | none => exact ⟨_, x, u, v, h, Descends.stays hrow hdescent, rfl, hinside⟩
    | some found =>
      obtain ⟨key, q⟩ := found
      obtain ⟨note, hnote, hcontains, hkey, hq, c, hchild⟩ := descent?_eq_some hdescent
      obtain ⟨f, hf, htakes⟩ := exists_mem_of_forall₂ hnotes hnote
      obtain ⟨skip, stretch, rest, room, hstretch, hfills, hstraight⟩ := hprefixed _ x f h hf
      obtain ⟨y, hy, hmem, hkey', hpre, _, hroom, hbefore, hyinside⟩ :=
        h.exists_piece hf hstretch hfills htakes
      rw [htakes.range_eq, hfills.range_eq] at hcontains
      obtain ⟨w, w', rfl, hw⟩ := exists_inside_of_contains hstretch hinside hcontains
      -- the child under the key of the note is the one that took the piece
      have hsame : c = y.document := by
        have hck : c.key = key := by simpa using List.find?_some hchild
        exact hsteady.self.sorted.eq_of_key_eq (List.mem_of_find?_eq_some hchild) hmem
          (hck.trans (hkey.trans hkey'.symm))
      have hplace : q = y.place w := by
        rw [← hroom] at hfills hstraight
        have hposition := (position_eq_place_iff hfills htakes.range_eq htakes.shift_eq hpre w).mpr
          fun _ => hstraight
        rw [List.append_assoc] at hposition
        exact hq.trans hposition
      obtain ⟨below, z, t, t', hz, hdescends, hcell, hzinside⟩ := ih hy
        (fun e he => hsteady e (Owns.child hmem he)) (hyinside.trans hw)
      rw [hsame] at hchild
      rw [← hplace] at hdescends
      refine ⟨below, z, t, t', hz, Descends.enters hrow hdescent hchild hdescends, ?_, hzinside⟩
      rw [← hcell, hbefore, List.append_assoc]

end Document

open Document

section

variable {s s' : Session} {cells : List Cell} {next next' : Nat}

/-- A place in a cell is a place in the block that the cell became. -/
theorem editorToSource_of_block (hdistinct : (cells.map (·.editor)).Nodup)
    (hupdate : s.update cells next = (s', next', .ok ())) {cell : Cell} (hcell : cell ∈ cells)
    {pre post : List Block} {b : Block} (hblocks : s'.root.info.blocks = pre ++ b :: post)
    (hb : b.editor = cell.editor) {u v : Text} (huv : cell.text = u ++ v) :
    s'.root.editorToSource cell.editor ⟨(Pos.behind u).line, (Pos.behind u).column⟩ =
      .ok ⟨heightOf pre + (Pos.behind u).line, (Pos.behind u).column⟩ := by
  have hbecomes := becomes_of_update hupdate
  obtain ⟨pre', b', post', hblocks', hb', hsource⟩ := editorToSource_of_becomes hbecomes hdistinct
    hcell (p := ⟨(Pos.behind u).line, (Pos.behind u).column⟩) (by
      rw [Text.length_lines, Pos.line_behind, huv, List.count_append]
      omega)
  have hnames : ((pre' ++ b' :: post').map (·.editor)).Nodup := by
    rwa [← hblocks', (becomes_all hbecomes).1]
  obtain ⟨rfl, _⟩ := split_unique (·.editor) hnames (hblocks'.symm.trans hblocks)
    (hb'.editor_eq.trans hb.symm)
  exact hsource

/-- A place in a cell is the source place in the excerpt that is the whole cell. -/
theorem exists_traced_of_update (hreach : Reachable s.context next s.root)
    (hapart : s.context.SiblingsApart) (hdistinct : (cells.map (·.editor)).Nodup)
    (hupdate : s.update cells next = (s', next', .ok ())) {cell : Cell} (hcell : cell ∈ cells) :
    ∃ x : Excerpt, Traced s.context s'.root cell s.levels x ∧ x.document = s'.root ∧
      x.given = Pos.origin ∧ x.room = [] ∧ x.before = [] ∧ x.inside = cell.text ∧
      ∀ u v, cell.text = u ++ v →
        s'.root.editorToSource cell.editor (x.cellPlace u) = .ok (x.place u) := by
  obtain ⟨pre, hgiven⟩ := given_of_update hapart hreach hupdate hcell
  refine ⟨_, Traced.whole hgiven, rfl, rfl, rfl, rfl, rfl, ?_⟩
  intro u v huv
  obtain ⟨b, post, hblocks, heditor⟩ := hgiven.exists_block
  exact editorToSource_of_block hdistinct hupdate hcell hblocks heditor huv

/-- Where code is handed out behind some room, places of the stretch lead to the same places in the
code, but for the first line behind several lines of room, and lead back exactly where the code
fits. Where all room is straight, places of a cell are found in the innermost code around them, and
are found back from there exactly where it fits. -/
theorem prefixed_maps_back_iff_fits (hreach : Reachable s.context next s.root)
    (hapart : s.context.SiblingsApart) (hdistinct : (cells.map (·.editor)).Nodup)
    (hupdate : s.update cells next = (s', next', .ok ())) {cell : Cell} (hcell : cell ∈ cells) :
    (∃ x : Excerpt, Traced s.context s'.root cell s.levels x ∧ x.document = s'.root ∧
      x.given = Pos.origin ∧ x.room = [] ∧ x.before = [] ∧ x.inside = cell.text) ∧
    (∀ levels x f skip inside rest room, Traced s.context s'.root cell levels x →
      f ∈ (Fragment.peel (s.context.extractors.forHost x.document.language) x.text).1 →
      x.inside = skip ++ inside ++ rest → f.Fills (x.room ++ skip) inside room →
      ∃ below note y, Traced s.context s'.root cell below y ∧ x.Points note y ∧ note.1 = f.range ∧
        y.given = foreignOrigin x.given f.range ∧ y.room = room ∧ y.before = x.before ++ skip ∧
        y.inside = inside ∧ (∃ after, cell.text = y.before ++ y.inside ++ after) ∧
        ∀ u v, inside = u ++ v →
          (note.2.position (note.1.relative (Pos.behind (x.room ++ skip ++ u))) = y.place u ↔
            ((Pos.behind u).line = 0 → room.Straight)) ∧
          (y.document.sourceToEditor (y.place u) = .ok (y.cellPlace u) ↔ y.Fits u)) ∧
    (Prefixed s.context s'.root cell → ∀ front back, cell.text = front ++ back →
      ∃ q d v levels x u rest,
        s'.root.editorToSource cell.editor ⟨(Pos.behind front).line, (Pos.behind front).column⟩ =
          .ok q ∧
        s'.root.bufferPositionAt q = .ok (d, v) ∧ s'.root.Descends q d (x.place u) ∧
        Traced s.context s'.root cell levels x ∧ x.document = d ∧ front = x.before ++ u ∧
        x.inside = u ++ rest ∧
        (d.bufferToSource v = .ok (x.place u) →
          (d.bufferToEditor v = .ok ⟨(Pos.behind front).line, (Pos.behind front).column⟩ ↔
            x.Fits u))) := by
  obtain ⟨x₀, hx₀, hroot, hgiven, hroom, hbefore, hinside, hsource⟩ :=
    exists_traced_of_update hreach hapart hdistinct hupdate hcell
  refine ⟨⟨x₀, hx₀, hroot, hgiven, hroom, hbefore, hinside⟩, ?_, ?_⟩
  · intro levels x f skip inside rest room hx hf hstretch hfills
    exact hx.piece_maps_iff hf hstretch hfills
  · intro hprefixed front back hfront
    have hsteady : x₀.document.Steady s.context next' := by
      have hupdated := reachable_update hreach cells
      rw [hupdate] at hupdated
      rw [hroot]
      exact steady_of_reachable hapart hupdated
    obtain ⟨below, y, w, w', hy, hdescends, hplace, hstretch⟩ :=
      hx₀.exists_descends hprefixed hsteady (hinside.trans hfront)
    have hstart := hsource front back hfront
    rw [hroot] at hdescends
    rw [Excerpt.cellPlace] at hstart
    rw [hbefore, List.nil_append] at hplace hstart
    obtain ⟨row, _, hbuffer⟩ := hdescends.bufferPositionAt_eq
    refine ⟨_, _, _, below, y, w, w', hstart, hbuffer, hdescends, hy, rfl, hplace, hstretch, ?_⟩
    intro hback
    rw [bufferToEditor, hback, hplace]
    exact hy.maps_back_iff hstretch

end

/-! Sessions whose code is handed out behind room. -/

/-- Hands out all from the first occurrence of a character on, behind some room, and leaves the host
its text. -/
def roomExtractor (c : Char) (room : Text) (kind : Kind) : Extractor where
  kind := kind
  exclusive := false
  detects := fun text => text.contains c
  extract := fun text =>
    .ok [{ range := some ⟨Pos.behind (text.takeWhile (· != c)), Pos.behind text⟩
           foreign := some (room ++ text.dropWhile (· != c))
           host := some text
           shift := some ⟨(Pos.behind room).line, (Pos.behind room).column⟩ }]

theorem roomExtractor_fills {c : Char} {room text : Text} {kind : Kind} {f : Fragment}
    (hf : f ∈ (Fragment.peel [roomExtractor c room kind] text).1) :
    f.Fills (text.takeWhile (· != c)) (text.dropWhile (· != c)) room := by
  rw [Fragment.peel] at hf
  split at hf
  · obtain rfl := List.mem_singleton.mp hf
    refine ⟨?_, rfl, rfl⟩
    rw [List.takeWhile_append_dropWhile]
  · simp [Fragment.peel] at hf

def roomSession (entries : List (String × Extractor)) : Session where
  context := { extractors := ⟨entries⟩ }
  policy := {}
  root := tailRoot

/-- Where a place of a cell is found, and where it is found back from there. -/
def thereAndBack (entries : List (String × Extractor)) (text : String) (p : Pos .editor) :
    Mapped (String × Pos .buffer × Mapped (Pos .editor)) :=
  let root := ((roomSession entries).update [⟨text.toList, "cell"⟩] 1).1.root
  ((root.editorToSource "cell" p).bind fun q => root.bufferPositionAt q).map fun (d, v) =>
    (d.idPath, v, d.bufferToEditor v)

/-- Places are not found again for room that is longer than the line in front of the code, for room
of two lines, and for code without room in a host with some. -/
theorem room_not_mapped_back :
    (∀ c room kind text f, f ∈ (Fragment.peel [roomExtractor c room kind] text).1 →
      f.Fills (text.takeWhile (· != c)) (text.dropWhile (· != c)) room) ∧
    thereAndBack [("python", roomExtractor 'x' "(".toList ⟨"cel", "cel", false⟩)] "x" ⟨0, 0⟩ =
      .ok ("python-cel", ⟨0, 1⟩, .ok ⟨0, 1⟩) ∧
    thereAndBack [("python", roomExtractor 'x' "a\nb(".toList ⟨"cel", "cel", false⟩)] "\n\n  x"
      ⟨2, 2⟩ = .ok ("python-cel", ⟨1, 0⟩, .ok ⟨2, 0⟩) ∧
    thereAndBack [("python", roomExtractor 'x' "(".toList ⟨"cel", "cel", false⟩),
        ("cel", roomExtractor 'x' [] ⟨"word", "txt", false⟩)] " x" ⟨0, 1⟩ =
      .ok ("python-cel-word", ⟨0, 0⟩, .ok ⟨0, 2⟩) := by
  refine ⟨?_, by decide +kernel, by decide +kernel, by decide +kernel⟩
  intro c room kind text f hf
  exact roomExtractor_fills hf

/-- A rule in the second line of a file, behind room that is shorter than what is in front of it. -/
def ruleSession : Session :=
  roomSession [("python", roomExtractor 's' "eval(".toList ⟨"cel", "cel", false⟩)]

def ruleCell : Cell := ⟨"if\n  rule: size".toList, "cell"⟩

def ruleRoot : Document := (ruleSession.update [ruleCell] 1).1.root

theorem fills_rule {f : Fragment} (hf : f ∈ (Fragment.peel
      (ruleSession.context.extractors.forHost ruleRoot.language) ruleCell.text).1) :
    f.Fills (ruleCell.text.takeWhile (· != 's')) (ruleCell.text.dropWhile (· != 's'))
      "eval(".toList := by
  have hhost : ruleSession.context.extractors.forHost ruleRoot.language =
      [roomExtractor 's' "eval(".toList ⟨"cel", "cel", false⟩] := by
    rw [show ruleRoot.language = "python" by decide +kernel]
    rfl
  rw [hhost] at hf
  exact roomExtractor_fills hf

theorem no_code_in_cel {f : Fragment} {text : Text} :
    f ∉ (Fragment.peel (ruleSession.context.extractors.forHost "cel") text).1 := by
  rw [show ruleSession.context.extractors.forHost "cel" = [] by rfl, Fragment.peel]
  exact List.not_mem_nil

theorem language_children_rule : ∀ c ∈ ruleRoot.children, c.language = "cel" := by decide +kernel

/-- There are the whole cell in the root and the rule in the child, and they fit. -/
theorem traced_rule {levels : Nat} {x : Excerpt}
    (h : Traced ruleSession.context ruleRoot ruleCell levels x) :
    (x.document = ruleRoot ∧ x.given = Pos.origin ∧ x.room = [] ∧ x.before = [] ∧
      x.inside = ruleCell.text ∨ x.document.language = "cel") ∧ ∀ u, x.Fits u := by
  induction h with
  | whole h =>
    refine ⟨Or.inl ⟨by dsimp only, rfl, rfl, rfl, rfl⟩, ?_⟩
    intro u
    constructor <;> simp [Pos.origin, Pos.behind]
  | @piece _ x f c _ skip _ _ room _ hf hc _ hfills _ ih =>
    rcases ih.1 with ⟨hdocument, hgiven, hnone, hbefore, hinside⟩ | hlanguage
    · rw [hdocument, Excerpt.text, hnone, hinside, List.nil_append] at hf
      have hrule := fills_rule hf
      have hrange := hfills.range_eq
      have hstart : Pos.behind (x.room ++ skip) = ⟨1, 8⟩ := by
        rw [hrule.range_eq, Range.mk.injEq] at hrange
        rw [← hrange.1]
        decide +kernel
      have hroom : (Pos.behind room).line = 0 ∧ (Pos.behind room).column = 5 := by
        have hshift := hrule.shift_eq
        rw [hfills.shift_eq, Pos.mk.injEq] at hshift
        rw [hshift.1, hshift.2]
        decide +kernel
      rw [hdocument] at hc
      refine ⟨Or.inr (language_children_rule c hc), ?_⟩
      intro u
      rw [hnone, List.nil_append] at hstart hrange
      rw [hgiven, hbefore, hrange]
      constructor <;> simp [foreignOrigin, hstart, hroom, Pos.origin]
    · exact absurd (hlanguage ▸ hf) no_code_in_cel

theorem prefixed_rule : Prefixed ruleSession.context ruleRoot ruleCell := by
  intro levels x f hx hf
  rcases (traced_rule hx).1 with ⟨hdocument, _, hroom, _, hinside⟩ | hlanguage
  · rw [hdocument, Excerpt.text, hroom, hinside, List.nil_append] at hf
    refine ⟨ruleCell.text.takeWhile (· != 's'), ruleCell.text.dropWhile (· != 's'), [],
      "eval(".toList, ?_, ?_, ?_⟩
    · rw [hinside, List.append_nil, List.takeWhile_append_dropWhile]
    · rw [hroom, List.nil_append]
      exact fills_rule hf
    · intro hline
      exact absurd (by decide +kernel) hline
  · exact absurd (hlanguage ▸ hf) no_code_in_cel

/-- A place of the rule is found in the child behind the room, and back. -/
theorem prefixed_maps_back_iff_fits_rule : ∃ q d,
    ruleRoot.editorToSource "cell" ⟨1, 10⟩ = .ok q ∧
    ruleRoot.bufferPositionAt q = .ok (d, ⟨0, 7⟩) ∧ d.idPath = "python-cel" ∧
    d.bufferToEditor ⟨0, 7⟩ = .ok ⟨1, 10⟩ := by
  have hapart : ruleSession.context.SiblingsApart := by
    refine Context.siblingsApart_of_last ?_
    rintro kind ⟨entry, hentry, rfl⟩ _
    obtain rfl := List.mem_singleton.mp hentry
    decide +kernel
  have hupdate : ∀ o : Session × Nat × Except UpdateError Unit, o.2.2 = .ok () →
      o = (o.1, o.2.1, .ok ()) := by
    rintro ⟨s, n, result⟩ rfl
    rfl
  have hfront : ruleCell.text = "if\n  rule: si".toList ++ "ze".toList := by decide +kernel
  have hp : Pos.behind "if\n  rule: si".toList = ⟨1, 10⟩ := by decide +kernel
  have hsource : ruleRoot.editorToSource "cell" ⟨1, 10⟩ = .ok ⟨1, 10⟩ := by decide +kernel
  have hbuffer : (ruleRoot.bufferPositionAt ⟨1, 10⟩).map
      (fun a => (a.1.idPath, a.1.sourceLines.length, a.2, a.1.bufferToSource a.2)) =
        .ok ("python-cel", 1, ⟨0, 7⟩, .ok ⟨0, 7⟩) := by decide +kernel
  have hall := prefixed_maps_back_iff_fits (s := ruleSession) (Reachable.root "python" _ "py" 0)
    hapart (by decide) (hupdate (ruleSession.update [ruleCell] 1) (by decide +kernel))
    (List.mem_singleton_self ruleCell)
  rw [← ruleRoot] at hall
  obtain ⟨q, d, v, levels, x, u, rest, hq, hd, hdescends, hx, _, _, _, hback⟩ :=
    hall.2.2 prefixed_rule _ _ hfront
  rw [hp] at hq hback
  obtain rfl : q = ⟨1, 10⟩ := Except.ok.inj (hq.symm.trans hsource)
  rw [hd] at hbuffer
  obtain ⟨hpath, hparts⟩ := Prod.mk.inj (Except.ok.inj hbuffer)
  obtain ⟨hlength, hparts⟩ := Prod.mk.inj hparts
  obtain ⟨rfl, hsame⟩ := Prod.mk.inj hparts
  have hplace : x.place u = ⟨0, 7⟩ := hdescends.eq_of_single hd hlength
  rw [hplace] at hback
  exact ⟨_, d, hsource, hd, hpath, (hback hsame).mpr ((traced_rule hx).2 u)⟩

end Polyglot
