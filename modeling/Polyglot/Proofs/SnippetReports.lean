import Polyglot.Proofs.BufferCharacters
import Polyglot.Proofs.Excerpts
import Polyglot.Proofs.Lineage
import Polyglot.Proofs.StandaloneCode

/-!
Reports on the characters of snippets. A report is shown where its first character stands in a cell,
if the document that owns this place is the one that reports. Both ends of a range belong to it, and
the first range around a place wins: where one snippet starts right behind another, the place of its
first character belongs to the other one. Main statement: this is the only way in which a document
without children can lose a report on one of its characters.
-/
namespace Polyglot

namespace Document

/-! Characters of documents without children. -/

section

variable {context : Context} {root d : Document} {cells : List Cell}

/-- A document without children holds its snippets as they are. -/
theorem Stems.exists_plain (hone : context.OnePattern) (hrules : context.rules = {})
    (h : Stems context root cells d) (hagrees : d.Agrees []) (hleaf : d.children = [])
    {pre post : List Block} {b : Block} (hblocks : d.info.blocks = pre ++ b :: post) :
    ∃ cell ∈ cells, ∃ levels x, Snipped context root cell levels x ∧ x.document = d ∧
      x.pre = pre ∧ b.editor = cell.editor ∧ b.Plain x.inside := by
  obtain ⟨cell, hcell, levels, x, hx, rfl, rfl⟩ := h pre b post hblocks
  refine ⟨cell, hcell, levels, x, hx, rfl, rfl, ?_⟩
  cases levels with
  | zero => exact hx.given_inside.elim
  | succ levels =>
    obtain ⟨kept, notes, post', hkept, hown, hnotes⟩ := hx.given_inside
    obtain rfl := (List.cons.inj (List.append_cancel_left (hblocks.symm.trans hown))).1
    have hnone : notes = [] := by
      rw [List.eq_nil_iff_forall_not_mem]
      intro note hnote
      have hmem : note.2 ∈ x.document.notes := by
        rw [Document.notes, hblocks]
        exact List.mem_flatMap.mpr ⟨blockOf context.rules x.document.language cell.editor x.given
          none x.inside kept notes, by simp, List.mem_map_of_mem hnote⟩
      obtain ⟨c, hc, _⟩ := hagrees.named note.2 (List.mem_append_left _ hmem)
      rw [hleaf] at hc
      cases hc
    obtain ⟨kind, spans, hspans, _, hkeeps⟩ := hone.exists_spans x.document.language x.inside
    have hempty : spans = [] := by
      rw [hnone, hspans, List.forall₂_nil_right_iff, List.map_eq_nil_iff] at hnotes
      exact hnotes
    obtain rfl := Except.ok.inj (hkept.symm.trans (hkeeps hempty))
    refine ⟨rfl, ?_, rfl⟩
    simp only [blockOf, hrules]
    exact prepareLines_nil x.inside

/-- Every character of the buffer but line feeds is a character of a snippet. -/
theorem Stems.exists_snippet (hone : context.OnePattern) (hrules : context.rules = {})
    (h : Stems context root cells d) (hagrees : d.Agrees []) (hleaf : d.children = [])
    {u v : Text} {c : Char} (hvalue : d.value = u ++ c :: v) (hc : c ≠ '\n') :
    ∃ cell ∈ cells, ∃ levels x n b post, Snipped context root cell levels x ∧ x.document = d ∧
      x.inside[n]? = some c ∧ d.info.blocks = x.pre ++ b :: post ∧ b.editor = cell.editor ∧
      b.Plain x.inside ∧ Pos.behind u = ⟨depthOf d.info.config.spacing x.pre +
        (Pos.behind (x.inside.take n)).line, (Pos.behind (x.inside.take n)).column⟩ := by
  have hlined : ∀ b ∈ d.info.blocks, b.Lined := by
    intro b hb
    obtain ⟨pre, post, hblocks⟩ := List.append_of_mem hb
    obtain ⟨_, _, _, _, _, _, _, _, hplain⟩ := h.exists_plain hone hrules hagrees hleaf hblocks
    exact hplain.lined
  obtain ⟨pre, b, post, w, w', hblocks, hb, hplace⟩ := exists_block_of_bufferText hlined hvalue hc
  obtain ⟨cell, hcell, levels, x, hx, hdocument, rfl, heditor, hplain⟩ :=
    h.exists_plain hone hrules hagrees hleaf hblocks
  rw [hplain.text_eq] at hb
  rcases Text.append_eq_append_cons hb with ⟨t, ht⟩ | ⟨t, -, ht⟩
  · refine ⟨cell, hcell, levels, x, w.length, b, post, hx, hdocument, ?_, hblocks, heditor,
      hplain, ?_⟩
    · rw [ht]
      simp
    · rw [ht, List.take_left]
      exact hplace
  · have hmem : c ∈ ['\n'] := by simp [ht]
    exact absurd (List.mem_singleton.mp hmem) hc

/-- A range that starts with such a character starts at the same character of the cell. -/
theorem Snipped.grounded {cell : Cell} {levels n : Nat} {x : Excerpt}
    (h : Snipped context root cell levels x) {post : List Block} {b : Block}
    (hblocks : x.document.info.blocks = x.pre ++ b :: post) (heditor : b.editor = cell.editor)
    (hplain : b.Plain x.inside) {range : Range .buffer}
    (hline : range.start.line = depthOf x.document.info.config.spacing x.pre +
      (Pos.behind (x.inside.take n)).line)
    (hcolumn : range.start.column = (Pos.behind (x.inside.take n)).column) {source : Pos .source}
    (hsource : root.editorToSource cell.editor (x.cellPlace (x.inside.take n)) = .ok source) :
    Grounded root x.document range cell.editor (x.cellPlace (x.inside.take n)) source ∧
      x.document.silences range.start.line x.document.idPath = false := by
  obtain ⟨hlies, hsilent, hfresh⟩ := lies_of_plain hblocks hplain
    (Pos.line_behind_take_lt x.inside n) range.start.column
  rw [← hline] at hlies hsilent hfresh
  refine ⟨⟨hfresh, heditor ▸ hlies.editorOfBufferLine_eq, ?_, hsource⟩, hsilent⟩
  have hback := h.sourceToEditor_place (List.take_append_drop n x.inside).symm
  rw [Excerpt.place, h.room_eq, List.nil_append, ← hcolumn] at hback
  rw [bufferToEditor, hlies.bufferToSource_eq]
  exact hback

end

/-! The way to a character. -/

/-- The way to a character of a cell, through the first pieces around it, as long as they go on
behind it; at its end stands how far the character is from the start of the snippet. -/
inductive Follows (context : Context) (root : Document) (cell : Cell) (k : Nat) :
    Nat → Excerpt → Nat → Prop
  | whole {levels : Nat} {pre : List Block} :
      Given context cell.editor levels root pre Pos.origin none cell.text →
      Follows context root cell k levels ⟨root, pre, Pos.origin, [], [], cell.text⟩ k
  | piece {levels n i : Nat} {x : Excerpt} {s : Pattern.Span} {c : Document} {pre : List Block} :
      Follows context root cell k (levels + 1) x n →
      x.Hands context cell.editor levels i s c pre → x.snippetAt context n = some i → n < s.stop →
      Follows context root cell k levels (x.snippet s c pre) (n - s.start)

/-- The way to a character of a document meets a piece that stops at the character, before the piece
that starts with it and leads to the document. -/
inductive Diverts (context : Context) (root : Document) (cell : Cell) (k : Nat) (d : Document) :
    Excerpt → Prop
  | meets {levels n i j : Nat} {x : Excerpt} {s t : Pattern.Span} {c c' : Document}
      {pre pre' : List Block} : Follows context root cell k (levels + 1) x n →
      x.snippetAt context n = some i → i < j → x.Hands context cell.editor levels i s c pre →
      s.stop = n → x.Hands context cell.editor levels j t c' pre' → t.start = n → n < t.stop →
      c'.Owns d → Diverts context root cell k d (x.snippet s c pre)

/-- The document that the place right behind an excerpt belongs to. -/
def Excerpt.owner (x : Excerpt) : Document := documentAt (x.place x.inside) x.document

section

variable {context : Context} {root d : Document} {cell : Cell} {levels k n i : Nat}
  {x z : Excerpt}

theorem Snipped.owns (h : Snipped context root cell levels x) : root.Owns x.document := by
  induction h with
  | whole => exact Owns.self root
  | piece _ hands ih => exact ih.trans (Owns.child hands.child (Owns.self _))

theorem Excerpt.Hands.length_inside {s : Pattern.Span} {c : Document} {pre : List Block}
    (h : x.Hands context cell.editor levels i s c pre) :
    (x.snippet s c pre).inside.length = s.stop - s.start := by
  have hbounds := h.bounds
  rw [snippet, Text.slice, List.length_take, List.length_drop]
  omega

theorem Excerpt.Hands.stop_le_start (hone : context.OnePattern) {j : Nat} {s t : Pattern.Span}
    {c c' : Document} {pre pre' : List Block} (h : x.Hands context cell.editor levels i s c pre)
    (h' : x.Hands context cell.editor levels j t c' pre') (hij : i < j) : s.stop ≤ t.start := by
  obtain ⟨kind, hfound⟩ := h.found
  obtain ⟨kind', hfound'⟩ := h'.found
  exact hone.stop_le_start hfound hfound' hij h.bounds.2

theorem Excerpt.exists_piece_of_snippetAt (hfirst : x.snippetAt context n = some i) :
    ∃ f, (x.pieces context)[i]? = some f := by
  obtain ⟨hi, _⟩ := List.findIdx?_eq_some_iff_getElem.mp hfirst
  exact ⟨_, List.getElem?_eq_getElem hi⟩

/-- The first piece around a place of a piece is that piece, or one before it. -/
theorem Excerpt.Hands.exists_snippetAt {s : Pattern.Span} {c : Document} {pre : List Block}
    (h : x.Hands context cell.editor levels i s c pre) (hbounds : s.start ≤ n ∧ n ≤ s.stop)
    (hn : n < x.inside.length) : ∃ first, x.snippetAt context n = some first ∧ first ≤ i := by
  obtain ⟨kind, hfound⟩ := h.found
  obtain ⟨hi, hpiece⟩ := List.getElem?_eq_some_iff.mp hfound
  have hcontains : (x.pieces context)[i].range.contains (Pos.behind (x.inside.take n)) = true := by
    rw [hpiece]
    exact (Fragment.contains_ofSpan_iff hn).mpr hbounds
  refine ⟨_, List.findIdx?_eq_some_of_exists ⟨_, List.getElem_mem hi, hcontains⟩, ?_⟩
  by_contra hlt
  have hnot := List.not_of_lt_findIdx (Nat.lt_of_not_le hlt)
  rw [hcontains] at hnot
  cases hnot

theorem Follows.snipped (h : Follows context root cell k levels x n) :
    Snipped context root cell levels x := by
  induction h with
  | whole hgiven => exact Snipped.whole hgiven
  | piece _ hands _ _ ih => exact Snipped.piece ih hands

theorem Follows.lt (hk : k < cell.text.length) (h : Follows context root cell k levels x n) :
    n < x.inside.length := by
  induction h with
  | whole => exact hk
  | piece _ hands hfirst hlt ih =>
    have hbounds := hands.snippet_bounds ih hfirst
    rw [hands.length_inside]
    omega

/-- All along the way the place of the character belongs to the same document. -/
theorem Follows.documentAt_eq {next : Nat} (hroot : root.Steady context next)
    (hk : k < cell.text.length) (h : Follows context root cell k levels x n) :
    ∃ pre b post, root.info.blocks = pre ++ b :: post ∧ b.editor = cell.editor ∧
      documentAt ⟨heightOf pre + (Pos.behind (cell.text.take k)).line,
          (Pos.behind (cell.text.take k)).column⟩ root =
        documentAt (x.place (x.inside.take n)) x.document := by
  induction h with
  | whole hgiven =>
    obtain ⟨b, post, hblocks, heditor⟩ := hgiven.exists_block
    exact ⟨_, b, post, hblocks, heditor, rfl⟩
  | piece hx hands hfirst _ ih =>
    obtain ⟨pre, b, post, hblocks, heditor, hsame⟩ := ih
    refine ⟨pre, b, post, hblocks, heditor, hsame.trans ?_⟩
    exact hx.snipped.documentAt_snippet (fun e he => hroot e (hx.snipped.owns.trans he)) hands
      (hx.lt hk) hfirst

/-- A way that is diverted ends behind the piece in its way. -/
theorem Diverts.documentAt_eq {next : Nat} (hroot : root.Steady context next)
    (hk : k < cell.text.length) (h : Diverts context root cell k d z) :
    ∃ pre b post, root.info.blocks = pre ++ b :: post ∧ b.editor = cell.editor ∧
      documentAt ⟨heightOf pre + (Pos.behind (cell.text.take k)).line,
        (Pos.behind (cell.text.take k)).column⟩ root = z.owner := by
  obtain ⟨hx, hfirst, _, hands, rfl, _, _, _, _⟩ := h
  obtain ⟨pre, b, post, hblocks, heditor, hsame⟩ := hx.documentAt_eq hroot hk
  refine ⟨pre, b, post, hblocks, heditor, hsame.trans ?_⟩
  have hnext := hx.snipped.documentAt_snippet (fun e he => hroot e (hx.snipped.owns.trans he))
    hands (hx.lt hk) hfirst
  rwa [← hands.length_inside, List.take_length] at hnext

/-- The way to a character of a snippet ends in the snippet, unless it is diverted. -/
theorem Snipped.follows_or_diverts (hone : context.OnePattern)
    (h : Snipped context root cell levels x) (hn : n < x.inside.length) :
    Follows context root cell (x.before.length + n) levels x n ∨
      ∃ z, Diverts context root cell (x.before.length + n) x.document z := by
  induction h generalizing n with
  | whole hgiven =>
    rw [List.length_nil, Nat.zero_add]
    exact Or.inl (Follows.whole hgiven)
  | @piece levels x i s c pre hx hands ih =>
    have hbounds := hands.bounds
    rw [hands.length_inside] at hn
    have hk : (x.snippet s c pre).before.length + n = x.before.length + (s.start + n) := by
      rw [Excerpt.snippet, List.length_append, List.length_take]
      omega
    rw [hk]
    rcases ih (show s.start + n < x.inside.length by omega) with hfollows | ⟨z, hdiverts⟩
    · obtain ⟨first, hfirst, hle⟩ := hands.exists_snippetAt (n := s.start + n) (by omega) (by omega)
      rcases Nat.eq_or_lt_of_le hle with rfl | hlt
      · refine Or.inl ?_
        have hnext := Follows.piece hfollows hands hfirst (by omega)
        rwa [Nat.add_sub_cancel_left] at hnext
      · -- the piece before stops at the character, so that this one starts with it
        obtain ⟨f, hf⟩ := Excerpt.exists_piece_of_snippetAt hfirst
        obtain ⟨t, c', pre', hands'⟩ := hx.exists_hands hone hf
        have hbounds' := hands'.snippet_bounds (by omega) hfirst
        have hapart := hands'.stop_le_start hone hands hlt
        exact Or.inr ⟨_, Diverts.meets hfollows hfirst hlt hands' (by omega) hands (by omega)
          (by omega) (Owns.self c)⟩
    · obtain ⟨hfollows, hfirst, hlt, hands₁, hstop, hands₂, hstart, hbehind, howns⟩ := hdiverts
      exact Or.inr ⟨_, Diverts.meets hfollows hfirst hlt hands₁ hstop hands₂ hstart hbehind
        (howns.trans (Owns.child hands.child (Owns.self c)))⟩

/-- Two pieces of an excerpt never go to one standalone document. -/
theorem Excerpt.Hands.ne_of_standalone {j : Nat} {s t : Pattern.Span} {c c' : Document}
    {pre pre' : List Block} (hagrees : x.document.Agrees []) (hsingle : x.document.Single)
    (h : x.Hands context cell.editor levels i s c pre)
    (h' : x.Hands context cell.editor levels j t c' pre') (hij : i < j)
    (halone : c.id.kind.standalone = true) : c ≠ c' := by
  rintro rfl
  obtain ⟨b, post, note, hblocks, hnote, hkey, _⟩ := h.noted
  obtain ⟨b', post', note', hblocks', hnote', hkey', _⟩ := h'.noted
  obtain rfl := (List.cons.inj (List.append_cancel_left (hblocks.symm.trans hblocks'))).1
  have htwo := hagrees.two_le_blocks h.child hblocks hnote hnote' hij hkey hkey'
  have hmost := hsingle c h.child halone
  omega

/-- A standalone document never owns what belongs to a later piece. -/
theorem Diverts.owner_ne {next : Nat} (hone : context.OnePattern)
    (hroot : Unbroken context next root) (h : Diverts context root cell k d z)
    (halone : z.document.id.kind.standalone = true) : z.owner.idPath ≠ d.idPath := by
  obtain @⟨_, _, _, _, x, _, _, c, c', _, _, hx, _, hlt, hands, _, hands', _, _, howns⟩ := h
  have hown := hx.snipped.owns
  have hsteady : x.document.Steady context next := fun e he =>
    steady_of_reachable hone.siblingsApart hroot.reachable e (hown.trans he)
  have hne := hands.ne_of_standalone (hroot.agrees hone.siblingsApart _ hown)
    (hroot.single hone.siblingsApart _ hown) hands' hlt halone
  have hmem : c ∈ x.document.offspring := List.mem_append_left _ hands.child
  have hmem' : c' ∈ x.document.offspring := List.mem_append_left _ hands'.child
  have hderives := hsteady.self.derives hmem
  have hderives' := hsteady.self.derives hmem'
  have halone' : c'.id.kind.standalone = true := by
    rw [← hone.kind_eq hderives.finds hderives'.finds]
    exact halone
  intro hpath
  have hwithin : Within c.idPath d.idPath := by
    rw [← hpath]
    exact (hsteady.of_mem_offspring hmem).within_of_owns (owns_documentAt _ c)
  have hwithin' := (hsteady.of_mem_offspring hmem').within_of_owns howns
  exact hne (hsteady.self.number_injective hmem hmem'
    (hderives.number_eq hderives' halone halone' hwithin hwithin'))

end

end Document

open Document

section

variable {s s' : Session} {cells : List Cell} {next next' : Nat}

/-- The place of a character of a snippet has a source position in the root, which belongs to the
document of the snippet, or to the one that the way is diverted to. -/
theorem exists_owner_of_snipped (hone : s.context.OnePattern)
    (hdistinct : (cells.map (·.editor)).Nodup)
    (hupdate : s.update cells next = (s', next', .ok ()))
    (hroot : s'.root.Steady s.context next') {cell : Cell} (hcell : cell ∈ cells) {levels n : Nat}
    {x : Excerpt} (hx : Snipped s.context s'.root cell levels x) (hleaf : x.document.children = [])
    (hn : n < x.inside.length) :
    ∃ source,
      s'.root.editorToSource cell.editor (x.cellPlace (x.inside.take n)) = .ok source ∧
      (documentAt source s'.root = x.document ∨
        ∃ z, Diverts s.context s'.root cell (x.before.length + n) x.document z) ∧
      ∀ z, Diverts s.context s'.root cell (x.before.length + n) x.document z →
        documentAt source s'.root = z.owner := by
  have hk : x.before.length + n < cell.text.length := by
    have hchar := hx.getElem?_cell_text hn
    rw [List.getElem?_eq_getElem hn] at hchar
    exact (List.getElem?_eq_some_iff.mp hchar).1
  have hsource : ∀ {pre post : List Block} {b : Block}, s'.root.info.blocks = pre ++ b :: post →
      b.editor = cell.editor → s'.root.editorToSource cell.editor (x.cellPlace (x.inside.take n)) =
        .ok ⟨heightOf pre + (Pos.behind (cell.text.take (x.before.length + n))).line,
          (Pos.behind (cell.text.take (x.before.length + n))).column⟩ := by
    intro pre post b hblocks hb
    rw [Excerpt.cellPlace, ← hx.take_cell_text (Nat.le_of_lt hn)]
    exact editorToSource_of_block hdistinct hupdate hcell hblocks hb
      (List.take_append_drop _ _).symm
  have howner : ∀ {source}, s'.root.editorToSource cell.editor (x.cellPlace (x.inside.take n)) =
      .ok source → ∀ z, Diverts s.context s'.root cell (x.before.length + n) x.document z →
        documentAt source s'.root = z.owner := by
    intro source hok z hdiverts
    obtain ⟨pre, b, post, hblocks, hb, hsame⟩ := hdiverts.documentAt_eq hroot hk
    rw [← hsame, Except.ok.inj (hok.symm.trans (hsource hblocks hb))]
  rcases hx.follows_or_diverts hone hn with hfollows | ⟨z, hdiverts⟩
  · obtain ⟨pre, b, post, hblocks, hb, hsame⟩ := hfollows.documentAt_eq hroot hk
    have hok := hsource hblocks hb
    exact ⟨_, hok, Or.inl (hsame.trans (documentAt_leaf hleaf _)), howner hok⟩
  · obtain ⟨pre, b, post, hblocks, hb, _⟩ := hdiverts.documentAt_eq hroot hk
    have hok := hsource hblocks hb
    exact ⟨_, hok, Or.inr ⟨z, hdiverts⟩, howner hok⟩

/-- A range that starts with a character of a document without children is shown where the character
stands in its cell, unless the way to the character is diverted to another document. -/
theorem exists_anchor_of_char (hreach : Reachable s.context next s.root)
    (hrules : s.context.rules = {}) (hone : s.context.OnePattern)
    (hdistinct : (cells.map (·.editor)).Nodup)
    (hupdate : s.update cells next = (s', next', .ok ())) {d : Document} (hd : d ∈ s'.root.walk)
    (hleaf : d.children = []) {u v : Text} {c : Char} (hvalue : d.value = u ++ c :: v)
    (hc : c ≠ '\n') {range : Range .buffer}
    (hstart : range.start = ⟨(Pos.behind u).line, (Pos.behind u).column⟩) :
    ∃ cell ∈ cells, ∃ k place, cell.text[k]? = some c ∧
      place = ⟨(Pos.behind (cell.text.take k)).line, (Pos.behind (cell.text.take k)).column⟩ ∧
      d.bufferToEditor range.start = .ok place ∧
      ((∀ z, Diverts s.context s'.root cell k d z → z.owner.idPath = d.idPath) →
        anchor s'.root d range = .ok (cell.editor, ⟨place, d.stopOf place range.stop⟩)) ∧
      ∀ z, Diverts s.context s'.root cell k d z → z.owner.idPath ≠ d.idPath →
        anchor s'.root d range = .error (.covered z.owner.uri) := by
  have hunbroken := unbroken_of_update hreach hupdate
  have hroot := steady_of_reachable hone.siblingsApart hunbroken.reachable
  obtain ⟨cell, hcell, levels, y, n, b, post, hy, rfl, hn, hblocks, heditor, hplain, hplace⟩ :=
    (stems_of_update hreach hone hdistinct hupdate hd).exists_snippet hone hrules
      (hunbroken.agrees hone.siblingsApart d (owns_of_mem_walk hd)) hleaf hvalue hc
  obtain ⟨hlt, _⟩ := List.getElem?_eq_some_iff.mp hn
  obtain ⟨source, hsource, hself, howner⟩ :=
    exists_owner_of_snipped hone hdistinct hupdate hroot hcell hy hleaf hlt
  obtain ⟨hground, hsilent⟩ : Grounded s'.root y.document range cell.editor
      (y.cellPlace (y.inside.take n)) source ∧
        y.document.silences range.start.line y.document.idPath = false := by
    refine hy.grounded hblocks heditor hplain ?_ ?_ hsource
    · rw [hstart, hplace]
    · rw [hstart, hplace]
  refine ⟨cell, hcell, _, _, (hy.getElem?_cell_text hlt).trans hn, ?_, hground.start_eq, ?_, ?_⟩
  · rw [hy.take_cell_text (Nat.le_of_lt hlt)]
    rfl
  · intro hall
    have hpath : (documentAt source s'.root).idPath = y.document.idPath := by
      rcases hself with hself | ⟨z, hdiverts⟩
      · rw [hself]
      · rw [howner z hdiverts]
        exact hall z hdiverts
    rw [hground.anchor_eq, if_neg (Decidable.not_not.mpr hpath), hsilent]
    rfl
  · intro z hdiverts hne
    rw [← howner z hdiverts] at hne ⊢
    rw [hground.anchor_eq, if_pos hne]

/-- After a rebuild from cells of different editors, without rules and with one pattern for each
language, a report that starts with a character of a document without children is shown at this
character of the cell if and only if the way to the character is not diverted to another document.
It is shown where the way is diverted to the document itself, and never where it is diverted to a
standalone document. -/
theorem character_report_shown_iff (hreach : Reachable s.context next s.root)
    (hrules : s.context.rules = {}) (hone : s.context.OnePattern)
    (hdistinct : (cells.map (·.editor)).Nodup)
    (hupdate : s.update cells next = (s', next', .ok ())) {target : Url} {d : Document}
    (hfind : s'.root.find? target = some d) (hleaf : d.children = []) {u v : Text} {c : Char}
    (hvalue : d.value = u ++ c :: v) (hc : c ≠ '\n') {σ : Type} {renderer : Renderer σ}
    (haccepts : renderer.Accepts) {diagnostics : List (Diagnostic .buffer)}
    {x : Diagnostic .buffer} (hx : x ∈ diagnostics)
    (hstart : x.range.start = ⟨(Pos.behind u).line, (Pos.behind u).column⟩) (a : Aggregator σ) :
    ∃ cell ∈ cells, ∃ k place placed, cell.text[k]? = some c ∧
      place = ⟨(Pos.behind (cell.text.take k)).line, (Pos.behind (cell.text.take k)).column⟩ ∧
      d.bufferToEditor x.range.start = .ok place ∧
      (a.handle renderer s'.root target diagnostics).1.placedOf target = some placed ∧
      ((∃ p ∈ placed, p.diagnostic = x ∧ p.editor = cell.editor ∧ p.range.start = place) ↔
        ∀ z, Diverts s.context s'.root cell k d z → z.owner.idPath = d.idPath) ∧
      ∀ z, Diverts s.context s'.root cell k d z →
        (z.document = d → z.owner = d) ∧
        (z.document.id.kind.standalone = true → z.owner.idPath ≠ d.idPath) ∧
        (z.owner.idPath ≠ d.idPath → anchor s'.root d x.range = .error (.covered z.owner.uri) ∧
          ∀ p ∈ placed, p.diagnostic ≠ x) := by
  obtain ⟨placed, hplaced, hfrom, hall⟩ := Aggregator.placedOf_handle renderer hfind diagnostics a
  obtain ⟨cell, hcell, k, place, hchar, hplace, hback, hshown, hcovered⟩ :=
    exists_anchor_of_char hreach hrules hone hdistinct hupdate (List.mem_of_find?_eq_some hfind)
      hleaf hvalue hc hstart
  have hlost : ∀ {e}, anchor s'.root d x.range = .error e → ∀ p ∈ placed, p.diagnostic ≠ x := by
    rintro e herror p hp rfl
    rw [(hfrom p hp).2] at herror
    cases herror
  refine ⟨cell, hcell, k, place, placed, hchar, hplace, hback, hplaced, ⟨?_, ?_⟩, ?_⟩
  · rintro ⟨p, hp, hsame, -, -⟩ z hdiverts
    by_contra hne
    exact hlost (hcovered z hdiverts hne) p hp hsame
  · intro hnone
    exact ⟨⟨x, cell.editor, place, d.stopOf place x.range.stop⟩,
      hall haccepts _ hx (hshown hnone), rfl, rfl, rfl⟩
  · intro z hdiverts
    refine ⟨?_, hdiverts.owner_ne hone (unbroken_of_update hreach hupdate), ?_⟩
    · rintro rfl
      exact documentAt_leaf hleaf _
    · intro hne
      exact ⟨hcovered z hdiverts hne, hlost (hcovered z hdiverts hne)⟩

end

/-! A report on the letter that a pattern matched. -/

theorem Context.onePattern_singleton {options : Extraction.PatternOptions} {e : Extractor}
    (h : Extraction.byPattern options = .ok e) (host : String) :
    ({ extractors := ⟨[(host, e)]⟩ } : Context).OnePattern := by
  intro other
  by_cases hhost : host = other
  · refine Or.inr ⟨options, e, h, ?_⟩
    simp [Registry.forHost, hhost]
  · refine Or.inl ?_
    simp [Registry.forHost, hhost]

theorem MarkerStore.accepts_renderer : MarkerStore.renderer.Accepts := by
  intro drawing marker
  exact ⟨_, _, rfl⟩

def matchAfter : Session := (matchSession.update [⟨"xb".toList, "cell"⟩] 1).1

def matchUrl : Url := { scheme := "file", host := some "", path := "/a.py.python-cel.cel" }

def letterReport : Diagnostic .buffer := { range := ⟨⟨0, 0⟩, ⟨0, 1⟩⟩, message := "m" }

/-- The report is shown on the letter, so that the way to it is not diverted to another document. -/
theorem character_report_shown_iff_match :
    ∃ d, matchAfter.root.find? matchUrl = some d ∧ d.value = "b\n".toList ∧
      (({ drawing := {} } : Aggregator MarkerStore).handle MarkerStore.renderer matchAfter.root
        matchUrl [letterReport]).1.placedOf matchUrl =
          some [⟨letterReport, "cell", ⟨⟨0, 1⟩, ⟨0, 2⟩⟩⟩] ∧
      ∀ z, Diverts matchSession.context matchAfter.root ⟨"xb".toList, "cell"⟩ 1 d z →
        z.owner.idPath = d.idPath := by
  have hok : (matchSession.update [⟨"xb".toList, "cell"⟩] 1).2.2 = .ok () := by
    simp only [Session.update, rebuild, appendCells, append_matchSession]
    decide +kernel
  have hupdate : matchSession.update [⟨"xb".toList, "cell"⟩] 1 =
      (matchAfter, (matchSession.update [⟨"xb".toList, "cell"⟩] 1).2.1, .ok ()) := by
    rw [matchAfter, ← hok]
  have htable : (({ drawing := {} } : Aggregator MarkerStore).handle MarkerStore.renderer
      matchAfter.root matchUrl [letterReport]).1.placedOf matchUrl =
        some [⟨letterReport, "cell", ⟨⟨0, 1⟩, ⟨0, 2⟩⟩⟩] := by
    simp only [Aggregator.handle, Aggregator.groups_singleton, matchAfter, Session.update, rebuild,
      appendCells, append_matchSession]
    decide +kernel
  have hface : (matchAfter.root.find? matchUrl).map (fun d => (d.value, d.children.length)) =
      some ("b\n".toList, 0) := by
    simp only [matchAfter, Session.update, rebuild, appendCells, append_matchSession]
    decide +kernel
  obtain ⟨d, hfind, hface⟩ := Option.map_eq_some_iff.mp hface
  obtain ⟨hvalue, hleaf⟩ := Prod.mk.inj hface
  obtain ⟨cell, hcell, k, place, placed, hchar, hplace, hback, hplaced, hiff, -⟩ :=
    character_report_shown_iff (Reachable.root "python" _ "py" 0) rfl
      (Context.onePattern_singleton byPattern_matchOptions "python") (by simp) hupdate hfind
      (List.length_eq_zero_iff.mp hleaf) (u := []) hvalue (by decide) MarkerStore.accepts_renderer
      (List.mem_singleton_self letterReport) rfl { drawing := {} }
  obtain rfl := List.mem_singleton.mp hcell
  obtain rfl := Option.some.inj (htable.symm.trans hplaced)
  have hk : k = 1 := by
    have hlt := (List.getElem?_eq_some_iff.mp hchar).1
    rcases k with _ | _ | k
    · exact absurd hchar (by decide)
    · rfl
    · exact absurd hlt (by simp)
  subst hk
  refine ⟨d, hfind, hvalue, htable, hiff.mp ⟨_, List.mem_singleton_self _, rfl, rfl, ?_⟩⟩
  rw [hplace]
  rfl

/-! Two letters that a pattern matched, one right behind the other. -/

/-- The pattern of before, with a document for each letter. -/
def touchOptions : Extraction.PatternOptions :=
  { matchOptions with kind := ⟨"cel", "cel", true⟩ }

def touchExtractor : Extractor := { matchExtractor with kind := ⟨"cel", "cel", true⟩ }

def touchSession : Session where
  context := { extractors := ⟨[("python", touchExtractor)]⟩ }
  policy := {}
  root := tailRoot
  levels := 2

theorem byPattern_touchOptions : Extraction.byPattern touchOptions = .ok touchExtractor := rfl

theorem peel_touchExtractor : Fragment.peel [touchExtractor] "bb".toList =
    ([⟨⟨"cel", "cel", true⟩, ⟨⟨0, 0⟩, ⟨0, 1⟩⟩, none, ['b']⟩,
      ⟨⟨"cel", "cel", true⟩, ⟨⟨0, 1⟩, ⟨0, 2⟩⟩, none, ['b']⟩], .ok "bb".toList) := by
  have hfirst : Pattern.search #[.char 'b', .accept] #['b', 'b'] 0 = some ⟨0, 1, []⟩ := by
    simp [Pattern.search, Pattern.searchFrom, Pattern.explore, Pattern.successors]
  have hnext : Pattern.search #[.char 'b', .accept] #['b', 'b'] 1 = some ⟨1, 2, []⟩ := by
    simp [Pattern.search, Pattern.searchFrom, Pattern.explore, Pattern.successors]
  have hlast : Pattern.search #[.char 'b', .accept] #['b', 'b'] 2 = none := by
    simp [Pattern.search, Pattern.searchFrom, Pattern.explore, Pattern.successors]
  have hdetects : touchExtractor.detects "bb".toList = true := by
    simp [touchExtractor, matchExtractor, Pattern.isMatch, Pattern.find?, hfirst]
  have hfound : (⟨#[.char 'b', .accept], []⟩ : Pattern).findAll "bb".toList =
      [⟨0, 1, []⟩, ⟨1, 2, []⟩] := by
    simp [Pattern.findAll, Pattern.searchAll, hfirst, hnext, hlast]
  have hextract : touchExtractor.extract "bb".toList = .ok
      [{ range := some ⟨⟨0, 0⟩, ⟨0, 1⟩⟩, foreign := some ['b'], host := some ['b'] },
        { range := some ⟨⟨0, 1⟩, ⟨0, 2⟩⟩, foreign := some ['b'], host := some ['b'] }] := by
    simp only [touchExtractor, matchExtractor, hfound]
    rfl
  rw [Fragment.peel, if_pos hdetects, hextract]
  rfl

theorem append_touchSession :
    append touchSession.context "bb".toList "cell" Pos.origin none 1 touchSession.root.clear
        touchSession.levels =
      (appendForeign (appendText touchSession.context "cell" 1) "cell" Pos.origin
        [⟨⟨"cel", "cel", true⟩, ⟨⟨0, 0⟩, ⟨0, 1⟩⟩, none, ['b']⟩,
          ⟨⟨"cel", "cel", true⟩, ⟨⟨0, 1⟩, ⟨0, 2⟩⟩, none, ['b']⟩] 1 tailRoot.clear).bind
          fun foreign next e => ⟨e.push (blockOf touchSession.context.rules e.language "cell"
            Pos.origin none "bb".toList "bb".toList foreign), next, .ok ()⟩ := by
  rw [append]
  exact appendText_succ rfl peel_touchExtractor

def touchRoot : Document := (touchSession.update [⟨"bb".toList, "cell"⟩] 1).1.root

def touchUrl : Url := { scheme := "file", host := some "", path := "/a.py.python-2(cel).cel" }

/-- The place of the second letter belongs to the document of the first one, and what the document
of the second letter says of it is lost. -/
theorem report_on_touching_snippet_lost : touchSession.context.OnePattern ∧
    (touchSession.update [⟨"bb".toList, "cell"⟩] 1).2.2 = .ok () ∧
    (touchRoot.find? touchUrl).map (fun d => (d.value, d.children.length, d.idPath,
      d.bufferToEditor letterReport.range.start)) =
        some ("b\n".toList, 0, "python-2(cel)", .ok ⟨0, 1⟩) ∧
    (documentAt ⟨0, 1⟩ touchRoot).idPath = "python-1(cel)" ∧
    (({ drawing := {} } : Aggregator MarkerStore).handle MarkerStore.renderer touchRoot touchUrl
      [letterReport]).1.placedOf touchUrl = some [] ∧
    (({ drawing := {} } : Aggregator MarkerStore).handle MarkerStore.renderer touchRoot touchUrl
      [letterReport]).2 = { discarded := 1 } := by
  refine ⟨Context.onePattern_singleton byPattern_touchOptions "python", ?_⟩
  simp only [Aggregator.handle, Aggregator.groups_singleton, touchRoot, Session.update, rebuild,
    appendCells, append_touchSession]
  decide +kernel

end Polyglot
