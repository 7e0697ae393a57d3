import Polyglot.Proofs.Ledger
import Polyglot.Proofs.Snippets

/-!
The lineage of blocks where code is found by one pattern for each language. Every block of a rebuilt
tree is a snippet of a snippet of a cell, down from the root by the notes of its hosts; and a place
of a host belongs to the document that the first note around it leads to.
-/
namespace Polyglot

theorem exists_getElem?_of_forall₂ {α β : Type} {R : α → β → Prop} {l : List α} {l' : List β}
    (h : List.Forall₂ R l l') {i : Nat} {a : α} (ha : l[i]? = some a) :
    ∃ b, l'[i]? = some b ∧ R a b := by
  obtain ⟨hi, rfl⟩ := List.getElem?_eq_some_iff.mp ha
  have hi' : i < l'.length := h.length_eq ▸ hi
  exact ⟨l'[i], List.getElem?_eq_getElem hi', h.get hi hi'⟩

/-- In two lists that go together, the first hits do. -/
theorem find?_of_forall₂ {α β : Type} {R : α → β → Prop} {l : List α} {l' : List β}
    (h : List.Forall₂ R l l') {p : α → Bool} {q : β → Bool} (hpq : ∀ a b, R a b → p a = q b) :
    l'.find? q = (l.findIdx? p).bind (l'[·]?) := by
  induction h with
  | nil => rfl
  | @cons a b l l' hab _ ih =>
    rw [List.find?_cons, List.findIdx?_cons, ← hpq a b hab]
    cases p a with
    | true => rfl
    | false =>
      rw [ih]
      cases l.findIdx? p <;> rfl

namespace Document

theorem heightOf_append (pre post : List Block) :
    heightOf (pre ++ post) = heightOf pre + heightOf post := by
  induction pre with
  | nil => rw [List.nil_append, heightOf, Nat.zero_add]
  | cons b rest ih => rw [List.cons_append, heightOf, heightOf, ih, Nat.add_assoc]

/-- Blocks have lines, so that their number can be told from their height. -/
theorem eq_of_heightOf_eq {blocks pre pre' : List Block} (hheights : ∀ b ∈ blocks, 0 < b.height)
    (hpre : pre <+: blocks) (hpre' : pre' <+: blocks) (h : heightOf pre = heightOf pre') :
    pre = pre' := by
  have hnone : ∀ {p more : List Block}, p ++ more <+: blocks → heightOf p = heightOf (p ++ more) →
      more = [] := by
    intro p more hmore hsame
    cases more with
    | nil => rfl
    | cons b more =>
      have hb := hheights b (hmore.subset (by simp))
      rw [heightOf_append, heightOf] at hsame
      omega
  rcases List.prefix_or_prefix_of_prefix hpre hpre' with ⟨more, rfl⟩ | ⟨more, rfl⟩
  · rw [hnone hpre' h, List.append_nil]
  · rw [hnone hpre h.symm, List.append_nil]

namespace Excerpt

/-- The code that is found in the text of an excerpt. -/
def pieces (context : Context) (x : Excerpt) : List Fragment :=
  (Fragment.peel (context.extractors.forHost x.document.language) x.inside).1

/-- The snippet of an excerpt between two places, behind some blocks of another document. -/
def snippet (x : Excerpt) (s : Pattern.Span) (c : Document) (pre : List Block) : Excerpt where
  document := c
  pre := pre
  given := foreignOrigin x.given
    ⟨Pos.behind (x.inside.take s.start), Pos.behind (x.inside.take s.stop)⟩
  room := []
  before := x.before ++ x.inside.take s.start
  inside := x.inside.slice s.start s.stop

/-- A piece of code of an excerpt is the snippet between two places, and its note leads to a child
that holds it. -/
structure Hands (context : Context) (editor : String) (levels : Nat) (x : Excerpt) (i : Nat)
    (s : Pattern.Span) (c : Document) (pre : List Block) : Prop where
  found : ∃ kind, (x.pieces context)[i]? = some (Fragment.ofSpan kind x.inside s)
  bounds : s.start ≤ s.stop ∧ s.stop ≤ x.inside.length
  child : c ∈ x.document.children
  noted : ∃ b post note, x.document.info.blocks = x.pre ++ b :: post ∧ b.foreign[i]? = some note ∧
    c.key = note.2.document ∧ heightOf pre = note.2.sourceLine
  held : Given context editor levels c pre (x.snippet s c pre).given none (x.snippet s c pre).inside

end Excerpt

/-- The snippets of snippets of a cell, as the notes of a tree tell them. -/
inductive Snipped (context : Context) (root : Document) (cell : Cell) : Nat → Excerpt → Prop
  | whole {levels : Nat} {pre : List Block} :
      Given context cell.editor levels root pre Pos.origin none cell.text →
      Snipped context root cell levels ⟨root, pre, Pos.origin, [], [], cell.text⟩
  | piece {levels : Nat} {x : Excerpt} {i : Nat} {s : Pattern.Span} {c : Document}
      {pre : List Block} : Snipped context root cell (levels + 1) x →
      x.Hands context cell.editor levels i s c pre →
      Snipped context root cell levels (x.snippet s c pre)

section

variable {context : Context} {root : Document} {cell : Cell} {levels : Nat} {x : Excerpt}

theorem Snipped.room_eq (h : Snipped context root cell levels x) : x.room = [] := by
  cases h <;> rfl

theorem Snipped.given_inside (h : Snipped context root cell levels x) :
    Given context cell.editor levels x.document x.pre x.given none x.inside := by
  cases h with
  | whole hgiven => exact hgiven
  | piece _ hands => exact hands.held

/-- Snippets are excerpts, and behind nothing else. -/
theorem Snipped.traced (h : Snipped context root cell levels x) :
    Traced context root cell levels x := by
  induction h with
  | whole hgiven => exact Traced.whole hgiven
  | @piece levels x i s c pre hx hands ih =>
    obtain ⟨kind, hfound⟩ := hands.found
    have hmem : Fragment.ofSpan kind x.inside s ∈
        (Fragment.peel (context.extractors.forHost x.document.language) x.text).1 := by
      rw [Excerpt.text, hx.room_eq, List.nil_append]
      exact List.mem_of_getElem? hfound
    have hsplit : x.inside = x.inside.take s.start ++ x.inside.slice s.start s.stop ++
        x.inside.drop s.stop := by
      rw [Text.take_append_slice _ hands.bounds.1, List.take_append_drop]
    have hfills : (Fragment.ofSpan kind x.inside s).Fills (x.room ++ x.inside.take s.start)
        (x.inside.slice s.start s.stop) [] := by
      rw [hx.room_eq, List.nil_append]
      exact Fragment.ofSpan_fills kind x.inside hands.bounds.1
    exact Traced.piece ih hmem hands.child hsplit hfills hands.held

theorem Snipped.take_cell_text (h : Snipped context root cell levels x) {n : Nat}
    (hn : n ≤ x.inside.length) :
    cell.text.take (x.before.length + n) = x.before ++ x.inside.take n := by
  obtain ⟨after, htext⟩ := h.traced.cell_text
  rw [htext, List.append_assoc, List.take_length_add_append, List.take_append_of_le_length hn]

theorem Snipped.getElem?_cell_text (h : Snipped context root cell levels x) {n : Nat}
    (hn : n < x.inside.length) : cell.text[x.before.length + n]? = x.inside[n]? := by
  obtain ⟨after, htext⟩ := h.traced.cell_text
  rw [htext, List.append_assoc, List.getElem?_append_right (Nat.le_add_right _ _),
    Nat.add_sub_cancel_left, List.getElem?_append_left hn]

/-- Snippets were given at their true places. -/
theorem Snipped.given_eq (h : Snipped context root cell levels x) :
    x.given = ⟨(Pos.behind x.before).line, (Pos.behind x.before).column⟩ := by
  induction h with
  | whole => rfl
  | @piece levels x i s c pre hx hands ih =>
    simp only [Excerpt.snippet, foreignOrigin, ih, Pos.behind_append, Nat.add_comm]

/-- Every place of a snippet is the same place of the cell. -/
theorem Snipped.sourceToEditor_place (h : Snipped context root cell levels x) {u v : Text}
    (hinside : x.inside = u ++ v) :
    x.document.sourceToEditor (x.place u) = .ok (x.cellPlace u) := by
  rw [h.traced.maps_back_iff hinside]
  refine ⟨?_, ?_, ?_⟩
  · rw [h.given_eq]
  · rw [h.room_eq]
    exact Nat.zero_le _
  · intro _
    have hroom : Pos.behind x.room = ⟨0, 0⟩ := by
      rw [h.room_eq]
      rfl
    rw [hroom, if_pos rfl, h.given_eq]
    exact ⟨rfl, Nat.zero_le _⟩

/-- Every piece of code that is found in a snippet is held by a child. -/
theorem Snipped.exists_hands (hone : context.OnePattern) {levels : Nat}
    (h : Snipped context root cell (levels + 1) x) {i : Nat} {f : Fragment}
    (hf : (x.pieces context)[i]? = some f) :
    ∃ s c pre, x.Hands context cell.editor levels i s c pre := by
  obtain ⟨kind, spans, hspans, hlined, _⟩ := hone.exists_spans x.document.language x.inside
  obtain ⟨kept, notes, post, _, hblocks, hnotes⟩ := h.given_inside
  obtain ⟨note, hnote, _, _, c, hc, hkey, pre, hpre, hgiven⟩ :=
    exists_getElem?_of_forall₂ hnotes hf
  have hfound := hf
  rw [Excerpt.pieces, hspans, List.getElem?_map, Option.map_eq_some_iff] at hfound
  obtain ⟨s, hs, rfl⟩ := hfound
  exact ⟨s, c, pre, ⟨kind, hf⟩, hlined.bounds s (List.mem_of_getElem? hs), hc,
    ⟨_, post, note, hblocks, hnote, hkey, hpre⟩, hgiven⟩

end

/-! Where blocks come from. -/

/-- All blocks of a document are snippets of cells. -/
def Stems (context : Context) (root : Document) (cells : List Cell) (d : Document) : Prop :=
  ∀ pre b post, d.info.blocks = pre ++ b :: post → ∃ cell ∈ cells, ∃ levels x,
    Snipped context root cell levels x ∧ x.document = d ∧ x.pre = pre

/-- The notes of a document tell where the blocks of its children come from. -/
theorem Stems.child {context : Context} {next : Nat} {root d c : Document} {cells : List Cell}
    (hone : context.OnePattern) (h : Stems context root cells d) (hd : d.Steady context next)
    (hagrees : d.Agrees []) (hc : c ∈ d.children) (hheights : ∀ b ∈ c.info.blocks, 0 < b.height) :
    Stems context root cells c := by
  intro pre b post hblocks
  -- some note of the parent tells the block
  obtain ⟨depth, hstart⟩ : ∃ depth, (heightOf pre, depth, b.editor) ∈ c.starts := by
    refine ⟨(bufferTable c.info.config.spacing 0 pre).length, ?_⟩
    rw [starts, hblocks, List.mem_mapIdx]
    refine ⟨pre.length, by simp, ?_⟩
    rw [List.take_left, length_sourceTable]
    simp
  rw [← hagrees.placed c hc, List.append_nil] at hstart
  obtain ⟨note, hnote, hplace⟩ := List.mem_map.mp hstart
  obtain ⟨hnote, hname⟩ := List.mem_filter.mp hnote
  obtain ⟨host, hhost, hnote⟩ := List.mem_flatMap.mp hnote
  obtain ⟨⟨range, _⟩, hforeign, rfl⟩ := List.mem_map.mp hnote
  obtain ⟨i, hi⟩ := List.mem_iff_getElem?.mp hforeign
  obtain ⟨before, after, hsplit⟩ := List.append_of_mem hhost
  obtain ⟨cell, hcell, levels, x, hx, rfl, rfl⟩ := h before host after hsplit
  refine ⟨cell, hcell, ?_⟩
  cases levels with
  | zero => exact hx.given_inside.elim
  | succ levels =>
    -- it is the note of a piece that was found in the block of the parent
    obtain ⟨kept, notes, post', _, hown, hnotes⟩ := hx.given_inside
    have hsame := (List.cons.inj (List.append_cancel_left (hsplit.symm.trans hown))).1
    rw [hsame] at hi
    obtain ⟨f, hf, _⟩ := exists_getElem?_of_forall₂ hnotes.flip hi
    obtain ⟨s, c', pre', hands⟩ := hx.exists_hands hone hf
    obtain ⟨host', after', note', hblocks', hnote', hkey', hpre'⟩ := hands.noted
    obtain rfl := (List.cons.inj (List.append_cancel_left (hown.symm.trans hblocks'))).1
    obtain rfl := Option.some.inj (hi.symm.trans hnote')
    obtain rfl : c' = c := by
      refine hd.self.sorted.eq_of_key_eq hands.child hc ?_
      rw [hkey']
      simpa using hname
    obtain rfl : pre' = pre := by
      obtain ⟨b', more, hheld, _⟩ := hands.held.exists_block
      refine eq_of_heightOf_eq hheights ⟨b' :: more, hheld.symm⟩ ⟨b :: post, hblocks.symm⟩ ?_
      rw [hpre']
      exact congrArg Prod.fst hplace
    exact ⟨levels, _, Snipped.piece hx hands, rfl, rfl⟩

/-- What holds of the root, and of the children of all that it holds of, holds of the whole tree. -/
theorem stems_of_mem_walk {context : Context} {next : Nat} {root : Document} {cells : List Cell}
    (hone : context.OnePattern) (hroot : root.Steady context next)
    (hagrees : root.Throughout (Agrees []))
    (hheights : ∀ e, root.Owns e → ∀ b ∈ e.info.blocks, 0 < b.height) {d e : Document}
    (hd : root.Owns d) (h : Stems context root cells d) (he : e ∈ d.walk) :
    Stems context root cells e := by
  induction d using tree_induction generalizing e with
  | step info children parked ihc _ =>
    rw [walk, walkAll_eq] at he
    rcases List.mem_cons.mp he with rfl | he
    · exact h
    · obtain ⟨c, hc, he⟩ := List.mem_flatMap.mp he
      have howns : root.Owns c := hd.trans (Owns.child hc (Owns.self c))
      have hsteady : (node info children parked).Steady context next :=
        fun e he => hroot e (hd.trans he)
      exact ihc c hc howns (h.child hone hsteady (hagrees _ hd) hc (hheights c howns)) he

theorem unbroken_appendCells {context : Context} {cells : List Cell} {levels index next n : Nat}
    {notices : List Notice} {d e : Document} (h : Unbroken context next d)
    (hok : appendCells context levels index cells next d = (notices, ⟨e, n, .ok ()⟩)) :
    Unbroken context n e := by
  induction cells generalizing index next d notices with
  | nil =>
    cases hok
    exact h
  | cons cell rest ih =>
    obtain ⟨d₁, n₁, later, happend, hrest⟩ := appendCells_cons_ok hok
    rw [append] at happend
    have hd₁ := h.append levels cell.text cell.editor Pos.origin none (by rw [happend])
    rw [happend] at hd₁
    exact ih hd₁ hrest

end Document

open Document

section

variable {s s' : Session} {cells : List Cell} {next next' : Nat}

theorem unbroken_of_update (hreach : Reachable s.context next s.root)
    (hupdate : s.update cells next = (s', next', .ok ())) : Unbroken s.context next' s'.root := by
  obtain ⟨notices, d₁, happend, hroot⟩ := update_ok hupdate
  rw [hroot]
  exact (unbroken_appendCells (Unbroken.clear hreach) happend).closeExpired.emitChanged.drained

/-- All blocks of a rebuilt tree are snippets of the cells. -/
theorem stems_of_update (hreach : Reachable s.context next s.root) (hone : s.context.OnePattern)
    (hdistinct : (cells.map (·.editor)).Nodup)
    (hupdate : s.update cells next = (s', next', .ok ())) {d : Document}
    (hd : d ∈ s'.root.walk) : Stems s.context s'.root cells d := by
  have hunbroken := unbroken_of_update hreach hupdate
  refine stems_of_mem_walk hone (steady_of_reachable hone.siblingsApart hunbroken.reachable)
    (hunbroken.agrees hone.siblingsApart) ((height_law s.context).reachable hunbroken.reachable)
    (Owns.self _) ?_ hd
  intro pre b post hblocks
  have heditors := (becomes_all (becomes_of_update hupdate)).1
  have hmem : b.editor ∈ cells.map (·.editor) := by
    rw [← heditors, hblocks]
    simp
  obtain ⟨cell, hcell, heditor⟩ := List.mem_map.mp hmem
  obtain ⟨pre', hgiven⟩ := given_of_update hone.siblingsApart hreach hupdate hcell
  obtain ⟨b', post', hblocks', heditor'⟩ := hgiven.exists_block
  have hnames : ((pre ++ b :: post).map (·.editor)).Nodup := by
    rwa [← hblocks, heditors]
  obtain ⟨rfl, _⟩ := split_unique (·.editor) hnames (hblocks.symm.trans hblocks')
    (heditor.symm.trans heditor'.symm)
  exact ⟨cell, hcell, _, _, Snipped.whole hgiven, rfl, rfl⟩

end

namespace Document

/-! The way down. -/

/-- The first piece of code around a place of an excerpt. -/
def Excerpt.snippetAt (context : Context) (x : Excerpt) (n : Nat) : Option Nat :=
  (x.pieces context).findIdx? (·.range.contains (Pos.behind (x.inside.take n)))

section

variable {context : Context} {root : Document} {cell : Cell} {levels n i : Nat} {x : Excerpt}
  {s : Pattern.Span} {c : Document} {pre : List Block}

theorem Excerpt.Hands.snippet_bounds (h : x.Hands context cell.editor levels i s c pre)
    (hn : n < x.inside.length) (hfirst : x.snippetAt context n = some i) :
    s.start ≤ n ∧ n ≤ s.stop := by
  obtain ⟨kind, hfound⟩ := h.found
  rw [snippetAt, List.findIdx?_eq_some_iff_getElem] at hfirst
  obtain ⟨hi, hcontains, _⟩ := hfirst
  rw [(List.getElem?_eq_some_iff.mp hfound).2, Fragment.contains_ofSpan_iff hn] at hcontains
  exact hcontains

/-- The first note around a place of an excerpt is that of the first piece around it. -/
theorem Snipped.exists_note (h : Snipped context root cell (levels + 1) x)
    (hands : x.Hands context cell.editor levels i s c pre)
    (hfirst : x.snippetAt context n = some i) :
    ∃ row note, x.document.sourceLines[heightOf x.pre + (Pos.behind (x.inside.take n)).line]? =
        some row ∧ row.editorLine = (Pos.behind (x.inside.take n)).line ∧
      (row.foreign.find? fun note => note.1.contains (Pos.behind (x.inside.take n)) &&
        x.document.children.any (·.key = note.2.document)) = some note ∧
      note.1 = ⟨Pos.behind (x.inside.take s.start), Pos.behind (x.inside.take s.stop)⟩ ∧
      note.2.shift = Pos.origin ∧ c.key = note.2.document ∧ heightOf pre = note.2.sourceLine := by
  obtain ⟨kind, hfound⟩ := hands.found
  obtain ⟨b, post, note, hblocks, hnote, hkey, hpre⟩ := hands.noted
  obtain ⟨kept, notes, post', _, hown, hnotes⟩ := h.given_inside
  obtain rfl := (List.cons.inj (List.append_cancel_left (hown.symm.trans hblocks))).1
  obtain ⟨note', hsame, htakes⟩ := exists_getElem?_of_forall₂ hnotes hfound
  obtain rfl := Option.some.inj (hnote.symm.trans hsame)
  have hrow := sourceTable_at x.document.info.config.spacing x.pre (blockOf context.rules
    x.document.language cell.editor x.given none x.inside kept notes) post'
    (Pos.line_behind_take_lt x.inside n)
  rw [← hown] at hrow
  refine ⟨_, note, hrow, rfl, ?_, htakes.range_eq, htakes.shift_eq, hkey, hpre⟩
  -- every note has a child, so that only the ranges matter
  have hknown : ∀ f note, Takes (Given context cell.editor levels) x.document x.given f note →
      f.range.contains (Pos.behind (x.inside.take n)) =
        (note.1.contains (Pos.behind (x.inside.take n)) &&
          x.document.children.any (·.key = note.2.document)) := by
    intro f note htakes
    obtain ⟨c, hc, hkey, _⟩ := htakes.child
    rw [htakes.range_eq, List.any_eq_true.mpr ⟨c, hc, by simpa using hkey⟩, Bool.and_true]
  have hnext := find?_of_forall₂ hnotes hknown
  rw [Excerpt.snippetAt, Excerpt.pieces] at hfirst
  rwa [hfirst, Option.bind_some, hsame] at hnext

/-- A place of an excerpt belongs to the document that the same place of the first piece around it
belongs to. -/
theorem Snipped.documentAt_snippet {next : Nat} (h : Snipped context root cell (levels + 1) x)
    (hsteady : x.document.Steady context next)
    (hands : x.Hands context cell.editor levels i s c pre) (hn : n < x.inside.length)
    (hfirst : x.snippetAt context n = some i) :
    documentAt (x.place (x.inside.take n)) x.document =
      documentAt ((x.snippet s c pre).place ((x.snippet s c pre).inside.take (n - s.start))) c := by
  obtain ⟨hstart, hstop⟩ := hands.snippet_bounds hn hfirst
  obtain ⟨row, note, hrow, hline, hfind, hrange, hshift, hkey, hpre⟩ := h.exists_note hands hfirst
  have hchild : x.document.child? note.2.document = some c := by
    rw [child?, ← hkey]
    exact hsteady.self.sorted.find?_eq_some hands.child
  have hposition : note.2.position (note.1.relative (Pos.behind (x.inside.take n))) =
      (x.snippet s c pre).place ((x.snippet s c pre).inside.take (n - s.start)) := by
    obtain ⟨kind, _⟩ := hands.found
    have hfills := Fragment.ofSpan_fills kind x.inside hands.bounds.1
    have hsame := (position_eq_place_iff (y := x.snippet s c pre) hfills hrange hshift hpre
      ((x.inside.slice s.start s.stop).take (n - s.start))).mpr fun _ hroom => absurd rfl hroom
    rwa [Text.take_append_take_slice _ hstart hstop] at hsame
  rw [Excerpt.place, h.room_eq, List.nil_append, ← hposition]
  exact documentAt_enters hrow (descent?_of_find? hline hfind) hchild

end

end Document

end Polyglot
