import Polyglot.Proofs.Extraction
import Polyglot.Proofs.TableInvariant
import Mathlib.Data.List.Forall2

/-!
The buffer of a document and its table of buffer lines, row by row. A document is composed of the
texts that were appended to it. What the rules make of each text, with a separator behind it, are
the rows of the buffer; the table has one entry for every row, the buffer one line for every row but
the last separator, and lines that no rule made are raw lines of the texts.
-/
namespace Polyglot

/-- How a line of a buffer came to be: it separates two blocks, a rule made it, or the host kept it
as it was. -/
inductive Making where
  | separator
  | rule
  | plain
deriving DecidableEq

structure Row where
  text : Text
  making : Making
deriving DecidableEq

/-- What rules make of a code: a rule for blocks all of it, or else rules for lines some lines. -/
def overridden (block line : RuleBook) (code : Text) : List Row :=
  match block.substitute? code with
  | some made => made.lines.map (⟨·, .rule⟩)
  | none => code.lines.flatMap fun raw =>
    match line.substitute? raw with
    | some made => made.lines.map (⟨·, .rule⟩)
    | none => [⟨raw, .plain⟩]

/-- What a text becomes in the buffer of a document of some language. -/
def rowsOfText (context : Context) (language : String) (text : Text) : List Row :=
  match (Fragment.peel (context.extractors.forHost language) text).2 with
  | .ok kept =>
    overridden (context.rules.book language .block) (context.rules.book language .line) kept
  | .error _ => []

/-- What texts become, each with a separator behind it. -/
def rowsOf (context : Context) (language : String) (spacing : Nat) (texts : List Text) : List Row :=
  texts.flatMap fun text =>
    rowsOfText context language text ++ List.replicate spacing ⟨[], .separator⟩

theorem rowsOf_append (context : Context) (language : String) (spacing : Nat)
    (pre post : List Text) : rowsOf context language spacing (pre ++ post) =
      rowsOf context language spacing pre ++ rowsOf context language spacing post :=
  List.flatMap_append

def Line.row (l : Line) : Row := ⟨l.text, if l.replaced then .rule else .plain⟩

theorem map_row_mapIdx (made : List Text) (replaced : Bool) (origin : Nat → Option Nat) :
    (made.mapIdx fun i text => (⟨text, replaced, origin i⟩ : Line)).map Line.row =
      made.map (⟨·, if replaced then .rule else .plain⟩) := by
  induction made generalizing origin with
  | nil => rfl
  | cons text rest ih =>
    rw [List.mapIdx_cons, List.map_cons, List.map_cons, ih fun i => origin (i + 1)]
    rfl

theorem map_flatten_mapIdx {α β γ : Type} (f : Nat → α → List β) (g : β → γ) (h : α → List γ)
    (hf : ∀ i a, (f i a).map g = h a) (l : List α) :
    (l.mapIdx f).flatten.map g = l.flatMap h := by
  induction l generalizing f with
  | nil => rfl
  | cons a rest ih =>
    rw [List.mapIdx_cons, List.flatten_cons, List.map_append, hf, ih _ fun i => hf (i + 1),
      List.flatMap_cons]

/-- Prepared lines are the rows that rules make. -/
theorem prepareLines_rows (block line : RuleBook) (code : Text) :
    (prepareLines block line code).map Line.row = overridden block line code := by
  unfold prepareLines overridden
  cases block.substitute? code with
  | some made => exact map_row_mapIdx made.lines true some
  | none =>
    have hrows := map_flatten_mapIdx (fun i (changed : Text × Bool) =>
        changed.1.lines.mapIdx fun piece text =>
          (⟨text, changed.2, if piece = 0 then some i else none⟩ : Line)) Line.row
      (fun changed => changed.1.lines.map (⟨·, if changed.2 then .rule else .plain⟩))
      (fun i changed => map_row_mapIdx _ _ fun piece => if piece = 0 then some i else none)
      (line.substituteLines code.lines)
    refine hrows.trans ?_
    rw [RuleBook.substituteLines, List.flatMap_map]
    refine List.flatMap_congr fun raw hraw => ?_
    cases hrule : line.substitute? raw with
    | some made => rfl
    | none => simp [Text.lines_eq_singleton (Text.not_mem_of_mem_lines hraw)]

theorem overridden_texts (block line : RuleBook) (code : Text) :
    overridden block line code ≠ [] ∧ ∀ row ∈ overridden block line code, '\n' ∉ row.text := by
  have hmade : ∀ (made : Text), ∀ row ∈ made.lines.map (Row.mk · .rule), '\n' ∉ row.text := by
    intro made row hrow
    obtain ⟨l, hl, rfl⟩ := List.mem_map.mp hrow
    exact Text.not_mem_of_mem_lines hl
  unfold overridden
  cases block.substitute? code with
  | some made => exact ⟨by simpa using Text.lines_ne_nil made, hmade made⟩
  | none =>
    constructor
    · obtain ⟨first, more, hlines⟩ := List.exists_cons_of_ne_nil (Text.lines_ne_nil code)
      rw [hlines, List.flatMap_cons]
      cases line.substitute? first with
      | some made => simp [Text.lines_ne_nil made]
      | none => simp
    · intro row hrow
      obtain ⟨raw, hraw, hrow⟩ := List.mem_flatMap.mp hrow
      cases hrule : line.substitute? raw with
      | some made =>
        rw [hrule] at hrow
        exact hmade made row hrow
      | none =>
        rw [hrule, List.mem_singleton] at hrow
        subst hrow
        exact Text.not_mem_of_mem_lines hraw

/-! The buffer and its table. -/

namespace Block

/-- The rows of a block and of the separator behind it. -/
def rows (spacing : Nat) (b : Block) : List Row :=
  b.lines.map Line.row ++ List.replicate spacing ⟨[], .separator⟩

/-- A block has lines, and they are single lines. -/
structure Lined (b : Block) : Prop where
  ne_nil : b.lines ≠ []
  single : ∀ l ∈ b.lines, '\n' ∉ l.text

theorem length_rows (spacing : Nat) (b : Block) : (b.rows spacing).length = b.depth spacing := by
  simp [rows, depth]

theorem getElem?_rows_line {b : Block} (spacing : Nat) {i : Nat} {l : Line}
    (h : b.lines[i]? = some l) : (b.rows spacing)[i]? = some l.row := by
  have hi := (List.getElem?_eq_some_iff.mp h).1
  rw [rows, List.getElem?_append_left (by simpa), List.getElem?_map, h, Option.map_some]

theorem getElem?_rows_separator {b : Block} {spacing i : Nat} (hlow : b.lines.length ≤ i)
    (hhigh : i < b.depth spacing) : (b.rows spacing)[i]? = some ⟨[], .separator⟩ := by
  rw [depth] at hhigh
  rw [rows, List.getElem?_append_right (by simpa), List.length_map, List.getElem?_replicate,
    if_pos (by omega)]

theorem Lined.lines_text_append {b : Block} (h : b.Lined) (rest : Text) :
    Text.lines (b.text ++ rest) = b.lines.map (·.text) ++ rest.lines := by
  have hlines : Text.lines (Text.unlines (b.lines.map (·.text))) = b.lines.map (·.text) := by
    refine Text.lines_unlines (by simpa using h.ne_nil) ?_
    intro t ht
    obtain ⟨l, hl, rfl⟩ := List.mem_map.mp ht
    exact h.single l hl
  rw [text, List.append_assoc, List.singleton_append, Text.lines_append_newline, hlines]

theorem map_text_rows (spacing : Nat) (b : Block) :
    (b.rows spacing).map (·.text) = b.lines.map (·.text) ++ List.replicate spacing [] := by
  rw [rows, List.map_append, List.map_map, List.map_replicate]
  rfl

theorem map_silenced_bufferLines (spacing first : Nat) (b : Block) :
    (b.bufferLines spacing first).map (·.silenced) =
      (b.rows spacing).map fun row => decide (row.making ≠ .plain) := by
  have hline : (fun row : Row => decide (row.making ≠ .plain)) ∘ Line.row = (·.replaced) := by
    funext l
    cases hl : l.replaced <;> simp [Line.row, hl]
  rw [bufferLines, rows, List.map_append, List.map_append, List.map_map, List.map_map,
    List.map_replicate, List.map_replicate, hline]
  rfl

end Block

theorem length_bufferTable (spacing first : Nat) (blocks : List Block) :
    (bufferTable spacing first blocks).length = depthOf spacing blocks := by
  induction blocks generalizing first with
  | nil => rfl
  | cons b rest ih => rw [bufferTable, List.length_append, b.length_bufferLines, ih, depthOf]

theorem length_flatMap_rows (spacing : Nat) (blocks : List Block) :
    (blocks.flatMap (Block.rows spacing)).length = depthOf spacing blocks := by
  induction blocks with
  | nil => rfl
  | cons b rest ih => rw [List.flatMap_cons, List.length_append, b.length_rows, ih, depthOf]

theorem getElem?_flatMap_rows (spacing : Nat) (before : List Block) (b : Block)
    (after : List Block) {i : Nat} (hi : i < b.depth spacing) :
    ((before ++ b :: after).flatMap (Block.rows spacing))[depthOf spacing before + i]? =
      (b.rows spacing)[i]? := by
  rw [← b.length_rows] at hi
  rw [List.flatMap_append, ← length_flatMap_rows, List.getElem?_append_right (by omega),
    Nat.add_sub_cancel_left, List.flatMap_cons, List.getElem?_append_left hi]

theorem map_silenced_bufferTable (spacing first : Nat) (blocks : List Block) :
    (bufferTable spacing first blocks).map (·.silenced) =
      (blocks.flatMap (Block.rows spacing)).map fun row => decide (row.making ≠ .plain) := by
  induction blocks generalizing first with
  | nil => rfl
  | cons b rest ih =>
    rw [bufferTable, List.map_append, b.map_silenced_bufferLines, ih, List.flatMap_cons,
      List.map_append]

theorem spacing_le_depthOf (spacing : Nat) (b : Block) (rest : List Block) :
    spacing ≤ depthOf spacing (b :: rest) := by
  simp only [depthOf, Block.depth]
  omega

/-- The buffer has a line for every row but those of the last separator, and an empty line. -/
theorem lines_bufferText (spacing : Nat) {blocks : List Block} (h : ∀ b ∈ blocks, b.Lined) :
    (bufferText spacing blocks).lines =
      ((blocks.flatMap (Block.rows spacing)).take (depthOf spacing blocks - spacing)).map
        (·.text) ++ [[]] := by
  induction blocks with
  | nil => simp [bufferText, Text.lines]
  | cons b rest ih =>
    have hb := h b List.mem_cons_self
    cases rest with
    | nil =>
      have htext : bufferText spacing [b] = b.text ++ [] := by simp [bufferText]
      have hcount : depthOf spacing [b] - spacing = (b.lines.map Line.row).length := by
        simp only [depthOf, Block.depth, List.length_map]
        omega
      rw [htext, hb.lines_text_append, hcount, List.flatMap_cons, Block.rows, List.append_assoc,
        List.take_left, List.map_map]
      rfl
    | cons c rest =>
      have hrest := ih fun x hx => h x (List.mem_cons_of_mem b hx)
      have htext : bufferText spacing (b :: c :: rest) =
          b.text ++ (List.replicate spacing '\n' ++ bufferText spacing (c :: rest)) := by
        simp only [bufferText, List.map_cons, List.intercalate_cons_cons, List.append_assoc]
      have hcount : depthOf spacing (b :: c :: rest) - spacing =
          (b.rows spacing).length + (depthOf spacing (c :: rest) - spacing) := by
        have hle := spacing_le_depthOf spacing c rest
        rw [depthOf, b.length_rows]
        omega
      rw [htext, hb.lines_text_append, Text.lines_replicate_append, hcount, List.flatMap_cons,
        List.take_length_add_append, List.map_append, b.map_text_rows, hrest, List.append_assoc,
        List.append_assoc]

/-! Blocks and the texts they come from. -/

namespace Block

variable {context : Context} {language : String} {text kept : Text} {b : Block}

theorem MadeFrom.map_row (h : b.MadeFrom context language text kept) :
    b.lines.map Line.row = rowsOfText context language text := by
  rw [h.lines_eq, prepareLines_rows, rowsOfText, h.kept_eq]

theorem MadeFrom.lined (h : b.MadeFrom context language text kept) : b.Lined := by
  obtain ⟨hne, hsingle⟩ := overridden_texts (context.rules.book language .block)
    (context.rules.book language .line) kept
  rw [← prepareLines_rows, ← h.lines_eq] at hne hsingle
  refine ⟨by simpa using hne, ?_⟩
  intro l hl
  exact hsingle l.row (List.mem_map_of_mem hl)

end Block

/-- A line that no rule made is a raw line, and stands for it. -/
theorem prepareLines_plain {block line : RuleBook} {code : Text} {l : Line}
    (h : l ∈ prepareLines block line code) (hplain : l.replaced = false) :
    ∃ raw, l.origin = some raw ∧ code.lines[raw]? = some l.text := by
  unfold prepareLines at h
  split at h
  · obtain ⟨i, _, rfl⟩ := List.mem_mapIdx.mp h
    cases hplain
  · obtain ⟨part, hpart, hl⟩ := List.mem_flatten.mp h
    obtain ⟨i, hi, rfl⟩ := List.mem_mapIdx.mp hpart
    generalize hchanged : (line.substituteLines code.lines)[i] = changed at hl
    have hfrom := List.getElem?_eq_some_iff.mpr ⟨hi, hchanged⟩
    rw [RuleBook.substituteLines, List.getElem?_map] at hfrom
    obtain ⟨raw, hraw, rfl⟩ := Option.map_eq_some_iff.mp hfrom
    cases hrule : line.substitute? raw with
    | some made =>
      rw [hrule] at hl
      obtain ⟨piece, _, rfl⟩ := List.mem_mapIdx.mp hl
      cases hplain
    | none =>
      have hsingle := Text.lines_eq_singleton
        (Text.not_mem_of_mem_lines (List.mem_of_getElem? hraw))
      rw [hrule] at hl
      simp only [hsingle, List.mapIdx_cons, List.mapIdx_nil, List.mem_singleton] at hl
      subst hl
      exact ⟨i, rfl, hraw⟩

namespace Context

/-- No extractor of a language finds foreign code in a text: it sees none there, or all that it
gives back is the text itself. -/
def LeavesAlone (context : Context) (language : String) (text : Text) : Prop :=
  ∀ e ∈ context.extractors.forHost language, e.detects text = false ∨
    ∃ pieces, e.extract text = .ok pieces ∧ (∀ p ∈ pieces, p.foreign = none) ∧
      Fragment.hostCode pieces = text

end Context

theorem Fragment.peel_eq_self {es : List Extractor} {text : Text}
    (h : ∀ e ∈ es, e.detects text = false ∨ ∃ pieces, e.extract text = .ok pieces ∧
      (∀ p ∈ pieces, p.foreign = none) ∧ hostCode pieces = text) :
    peel es text = ([], .ok text) := by
  induction es with
  | nil => rfl
  | cons e rest ih =>
    have hrest := ih fun x hx => h x (List.mem_cons_of_mem e hx)
    rw [peel]
    split
    next hdetects =>
      rcases h e List.mem_cons_self with hnot | ⟨pieces, hextract, hforeign, hhost⟩
      · rw [hnot] at hdetects
        cases hdetects
      · have hnone : pieces.filterMap (ofPiece? e.kind) = [] := by
          rw [List.filterMap_eq_nil_iff]
          intro p hp
          simp only [ofPiece?, hforeign p hp]
        simp only [hextract, hhost, hrest, hnone, List.nil_append]
    next => exact hrest

namespace Document

/-- A document holds the blocks that texts became, in turn. -/
def ComposedOf (context : Context) (texts : List Text) (d : Document) : Prop :=
  List.Forall₂ (fun text b => ∃ kept, b.MadeFrom context d.language text kept) texts d.info.blocks

section

variable {context : Context} {texts : List Text} {d d' : Document}

theorem composedOf_clear (context : Context) (d : Document) : d.clear.ComposedOf context [] := by
  cases d
  exact List.Forall₂.nil

/-- A text that is appended is added, and one that cannot be appended leaves no trace. -/
theorem ComposedOf.append (h : d.ComposedOf context texts) (editor : String) (levels : Nat)
    (origin : Pos .editor) (shift : Option (Pos .source)) (text : Text) (next : Nat) :
    (appendText context editor levels origin shift text next d).document.ComposedOf context
      (if (appendText context editor levels origin shift text next d).result.isOk
        then texts ++ [text] else texts) := by
  have hnature := (appendText_frame context editor levels origin shift text next d).1
  have hlanguage := congrArg (·.kind.language) (id_eq_of_nature_eq hnature)
  rcases appendText_cases context editor levels origin shift text next d with
    ⟨e, heq⟩ | ⟨below, d₁, n₁, given, e, _, _, hforeign, heq⟩ |
    ⟨below, d₁, n₁, foreign, kept, _, _, hforeign, hkept, heq⟩
  · rw [heq]
    exact h
  · have hhost := sameHost_of_appendForeign hforeign
    rw [heq]
    show d₁.ComposedOf context texts
    rw [ComposedOf, hhost.blocks_eq, hhost.language_eq]
    exact h
  · have hhost := sameHost_of_appendForeign hforeign
    have hpushed : ∀ b, (d₁.push b).info.blocks = d.info.blocks ++ [b] := by
      intro b
      rw [← hhost.blocks_eq]
      cases d₁
      rfl
    rw [heq] at hlanguage ⊢
    show (d₁.push _).ComposedOf context (texts ++ [text])
    rw [ComposedOf, hpushed]
    refine List.rel_append ?_ (List.Forall₂.cons ⟨kept, ?_⟩ List.Forall₂.nil)
    · rw [show (d₁.push _).language = d.language from hlanguage]
      exact h
    · rw [show (d₁.push _).language = d.language from hlanguage]
      exact ⟨hkept, rfl, rfl⟩

/-- Blocks that come from texts, each from some text, come from a list of texts. -/
theorem exists_composedOf_iff :
    (∃ texts, d.ComposedOf context texts) ↔ BlocksMade context d.id d.info.blocks := by
  unfold ComposedOf BlocksMade
  induction d.info.blocks with
  | nil => simp
  | cons b rest ih =>
    rw [List.forall_mem_cons, ← ih]
    constructor
    · rintro ⟨_, h⟩
      obtain ⟨text, texts, hb, hrest, -⟩ := List.forall₂_cons_right_iff.mp h
      exact ⟨⟨text, hb⟩, texts, hrest⟩
    · rintro ⟨⟨text, hb⟩, texts, hrest⟩
      exact ⟨text :: texts, List.Forall₂.cons hb hrest⟩

theorem ComposedOf.flatMap_rows (h : d.ComposedOf context texts) (spacing : Nat) :
    d.info.blocks.flatMap (Block.rows spacing) = rowsOf context d.language spacing texts := by
  unfold ComposedOf at h
  generalize d.info.blocks = blocks at h
  induction h with
  | nil => rfl
  | cons hone _ ih =>
    obtain ⟨kept, hmade⟩ := hone
    rw [rowsOf, List.flatMap_cons, List.flatMap_cons, Block.rows, hmade.map_row, ih]
    rfl

theorem ComposedOf.length_rowsOf (h : d.ComposedOf context texts) :
    (rowsOf context d.language d.info.config.spacing texts).length = d.bufferLines.length := by
  rw [← h.flatMap_rows, length_flatMap_rows, bufferLines, length_bufferTable]

theorem ComposedOf.lines_value (h : d.ComposedOf context texts) :
    d.value.lines = ((rowsOf context d.language d.info.config.spacing texts).take
      (d.bufferLines.length - d.info.config.spacing)).map (·.text) ++ [[]] := by
  have hlined : ∀ b ∈ d.info.blocks, b.Lined := by
    intro b hb
    obtain ⟨text, kept, hmade⟩ := exists_composedOf_iff.mp ⟨texts, h⟩ b hb
    exact hmade.lined
  rw [value, lines_bufferText _ hlined, h.flatMap_rows, bufferLines, length_bufferTable]

theorem ComposedOf.getElem?_value (h : d.ComposedOf context texts) {v : Nat}
    (hv : v + d.info.config.spacing < d.bufferLines.length) : d.value.lines[v]? =
      (rowsOf context d.language d.info.config.spacing texts)[v]?.map (·.text) := by
  have hrows := h.length_rowsOf
  rw [h.lines_value, List.getElem?_append_left, List.getElem?_map,
    List.getElem?_take_of_lt (by omega)]
  rw [List.length_map, List.length_take]
  omega

/-- A line of a block is a line of the buffer. -/
theorem ComposedOf.value_at (h : d.ComposedOf context texts) {before after : List Block}
    {b : Block} (hblocks : d.info.blocks = before ++ b :: after) {i : Nat} {l : Line}
    (hline : b.lines[i]? = some l) :
    d.value.lines[depthOf d.info.config.spacing before + i]? = some l.text := by
  have hi := (List.getElem?_eq_some_iff.mp hline).1
  have hdeep : i < b.depth d.info.config.spacing := Nat.lt_add_right _ hi
  rw [h.getElem?_value, ← h.flatMap_rows, hblocks, getElem?_flatMap_rows _ _ _ _ hdeep,
    Block.getElem?_rows_line _ hline, Option.map_some]
  · rfl
  · rw [← h.length_rowsOf, ← h.flatMap_rows, hblocks, List.flatMap_append, List.flatMap_cons,
      List.length_append, List.length_append, length_flatMap_rows, b.length_rows, Block.depth]
    omega

/-- Silenced are the lines that separate, and those that rules made. -/
theorem ComposedOf.silences_iff (h : d.ComposedOf context texts) {v : Nat} {row : Row}
    (hrow : (rowsOf context d.language d.info.config.spacing texts)[v]? = some row) :
    d.silences v d.idPath = true ↔ row.making = .separator ∨ row.making = .rule := by
  have htable := congrArg (·[v]?) (map_silenced_bufferTable d.info.config.spacing 0 d.info.blocks)
  simp only [h.flatMap_rows, List.getElem?_map, hrow, Option.map_some] at htable
  obtain ⟨entry, hentry, hsilenced⟩ := Option.map_eq_some_iff.mp htable
  have hvalue : d.silences v d.idPath = entry.silenced := by
    simp only [silences, bufferLines, hentry, beq_self_eq_true, Bool.and_true]
  rw [hvalue, hsilenced]
  cases row.making <;> decide

theorem length_flatMap_lines {language : String} {texts : List Text} {blocks : List Block}
    (h : List.Forall₂ (fun text b => ∃ kept, b.MadeFrom context language text kept) texts blocks) :
    (texts.flatMap Text.lines).length = heightOf blocks := by
  induction h with
  | nil => rfl
  | cons hone _ ih =>
    obtain ⟨kept, hmade⟩ := hone
    rw [List.flatMap_cons, List.length_append, ih, ← hmade.height_eq, heightOf]

/-- The block of one of the texts. -/
theorem ComposedOf.exists_block {pre post : List Text} {text : Text}
    (h : d.ComposedOf context (pre ++ text :: post)) :
    ∃ before b after kept, d.info.blocks = before ++ b :: after ∧
      b.MadeFrom context d.language text kept ∧
      (pre.flatMap Text.lines).length = heightOf before ∧
      (∀ spacing, (rowsOf context d.language spacing pre).length = depthOf spacing before) := by
  have hlength := h.length_eq
  have hpre := List.forall₂_take_append _ _ _ h.flip
  have hpost := List.forall₂_drop_append _ _ _ h.flip
  obtain ⟨b, after, ⟨kept, hmade⟩, _, hdrop⟩ := List.forall₂_cons_right_iff.mp hpost
  refine ⟨_, b, after, kept, ?_, hmade, length_flatMap_lines hpre.flip, ?_⟩
  · rw [← hdrop, List.take_append_drop]
  · intro spacing
    have hsame : ComposedOf context pre
        (node { d.info with blocks := d.info.blocks.take pre.length } [] []) := hpre.flip
    rw [← length_flatMap_rows]
    exact congrArg List.length (hsame.flatMap_rows spacing).symm

/-- Of a text in which no foreign code is found, the lines that no rule made stay as they are. -/
theorem ComposedOf.verbatim {pre post : List Text} {text : Text}
    (h : d.ComposedOf context (pre ++ text :: post)) (halone : context.LeavesAlone d.language text)
    {v : Nat} (hlow : (rowsOf context d.language d.info.config.spacing pre).length ≤ v)
    (hhigh : v < (rowsOf context d.language d.info.config.spacing (pre ++ [text])).length)
    (hplain : d.silences v d.idPath = false) :
    ∃ row s line, d.bufferLines[v]? = some row ∧ row.source = some s ∧
      d.value.lines[v]? = some line ∧
      ((pre ++ text :: post).flatMap Text.lines)[s]? = some line := by
  obtain ⟨before, b, after, kept, hblocks, hmade, hheight, hdepth⟩ := h.exists_block
  have hkept : kept = text := by
    have hpeel := hmade.kept_eq
    rw [Fragment.peel_eq_self halone] at hpeel
    cases hpeel
    rfl
  obtain ⟨i, rfl⟩ := Nat.exists_eq_add_of_le hlow
  have hdeep : i < b.depth d.info.config.spacing := by
    rw [rowsOf_append, List.length_append, Nat.add_lt_add_iff_left, rowsOf,
      List.flatMap_singleton, ← hmade.map_row] at hhigh
    rwa [← b.length_rows]
  rw [hdepth] at hplain ⊢
  by_cases hi : i < b.lines.length
  · -- A line of the text itself.
    have hline := List.getElem?_eq_getElem hi
    have htable := bufferTable_at d.info.config.spacing before b after hline
    rw [← hblocks] at htable
    have hreplaced : b.lines[i].replaced = false := by
      simpa [silences, bufferLines, htable] using hplain
    have hmem : b.lines[i] ∈ prepareLines (context.rules.book d.language .block)
        (context.rules.book d.language .line) kept := by
      rw [← hmade.lines_eq]
      exact List.getElem_mem hi
    obtain ⟨raw, horigin, hraw⟩ := prepareLines_plain hmem hreplaced
    rw [hkept] at hraw
    have hlt := (List.getElem?_eq_some_iff.mp hraw).1
    have hsource := (b.originOf_eq_some b.lines[i] raw).mpr ⟨horigin, by rwa [hmade.height_eq]⟩
    refine ⟨_, heightOf before + raw, b.lines[i].text, htable, by rw [hsource]; rfl,
      h.value_at hblocks hline, ?_⟩
    rw [List.flatMap_append, ← hheight, List.getElem?_append_right (by omega),
      Nat.add_sub_cancel_left, List.flatMap_cons, List.getElem?_append_left hlt, hraw]
  · -- A separator is silenced.
    have hrow := getElem?_flatMap_rows d.info.config.spacing before b after hdeep
    rw [← hblocks, h.flatMap_rows, Block.getElem?_rows_separator (by omega) hdeep] at hrow
    rw [(h.silences_iff hrow).mpr (Or.inl rfl)] at hplain
    cases hplain

/--
The buffer of every document of a tree, and its table, agree line by line: they have the rows of the
texts that the document was composed of, in order. All rows are lines of the buffer but those of the
last separator, in whose place an empty line stands; silenced are the separators and what rules
made, and all other lines of a text in which no foreign code was found are raw lines of it.
-/
theorem bufferLines_aligned {next : Nat} {tree : Document} (h : Reachable context next tree)
    (hd : tree.Owns d) :
    d.value.lines.length = d.bufferLines.length - d.info.config.spacing + 1 ∧
    (∃ texts, d.ComposedOf context texts) ∧
    ∀ texts, d.ComposedOf context texts →
      (rowsOf context d.language d.info.config.spacing texts).length = d.bufferLines.length ∧
      d.value.lines = ((rowsOf context d.language d.info.config.spacing texts).take
        (d.bufferLines.length - d.info.config.spacing)).map (·.text) ++ [[]] ∧
      (∀ v row, (rowsOf context d.language d.info.config.spacing texts)[v]? = some row →
        (d.silences v d.idPath = true ↔ row.making = .separator ∨ row.making = .rule)) ∧
      (∀ pre text post, texts = pre ++ text :: post → context.LeavesAlone d.language text →
        ∀ v, (rowsOf context d.language d.info.config.spacing pre).length ≤ v →
          v < (rowsOf context d.language d.info.config.spacing (pre ++ [text])).length →
          d.silences v d.idPath = false →
          ∃ row s line, d.bufferLines[v]? = some row ∧ row.source = some s ∧
            d.value.lines[v]? = some line ∧ (texts.flatMap Text.lines)[s]? = some line) ∧
      d.clear.ComposedOf context [] ∧
      ∀ editor levels origin shift text next,
        (appendText context editor levels origin shift text next d).document.ComposedOf context
          (if (appendText context editor levels origin shift text next d).result.isOk
            then texts ++ [text] else texts) := by
  have hcomposed := exists_composedOf_iff.mpr (blocksMade_of_reachable h hd)
  refine ⟨?_, hcomposed, ?_⟩
  · obtain ⟨texts, htexts⟩ := hcomposed
    rw [htexts.lines_value, List.length_append, List.length_map, List.length_take,
      htexts.length_rowsOf, Nat.min_eq_left (Nat.sub_le _ _), List.length_singleton]
  · intro texts htexts
    refine ⟨htexts.length_rowsOf, htexts.lines_value, fun v row hrow => htexts.silences_iff hrow,
      ?_, composedOf_clear context d, htexts.append⟩
    rintro pre text post rfl halone v hlow hhigh hplain
    exact htexts.verbatim halone hlow hhigh hplain

end

/-- Lines with a percent sign become two. -/
def magicContext : Context :=
  let magic : Rule := ⟨⟨⟨#[.char '%', .accept], []⟩, .template "begin\nend".toList⟩, none⟩
  { rules := ⟨[(("python", .line), magic)]⟩ }

def magicRoot : Document :=
  root magicContext.config "python" { scheme := "file", path := "/a.py" } "py" 0

def magicTree : Document :=
  let first := appendText magicContext "cell" 1 Pos.origin none "x\n%\ny".toList 1 magicRoot
  (appendText magicContext "cell" 1 Pos.origin none "z".toList first.next first.document).document

theorem rowsOfText_magicContext : rowsOfText magicContext "python" "x\n%\ny".toList =
      [⟨['x'], .plain⟩, ⟨"begin".toList, .rule⟩, ⟨"end".toList, .rule⟩, ⟨['y'], .plain⟩] ∧
    rowsOfText magicContext "python" "z".toList = [⟨['z'], .plain⟩] := by
  have hfound : Pattern.search #[.char '%', .accept] #['%'] 0 = some ⟨0, 1, []⟩ := by
    simp [Pattern.search, Pattern.searchFrom, Pattern.explore, Pattern.successors]
  have hnone : ∀ c : Char, c ≠ '%' → Pattern.search #[.char '%', .accept] #[c] 0 = none := by
    intro c hc
    simp [Pattern.search, Pattern.searchFrom, Pattern.explore, Pattern.successors, hc]
  simp [rowsOfText, overridden, magicContext, Fragment.peel, Registry.forHost, RuleShelf.book,
    RuleBook.substitute?, Substitution.run?, Pattern.replaceFirst?, Pattern.find?, Text.lines,
    Text.consLine, Replacement.apply, Pattern.expand, hfound, hnone]

/-- The third row is made by a rule, and the fourth is a line of the first text. -/
theorem bufferLines_aligned_magicTree : magicTree.value.lines.length = 8 ∧
    magicTree.silences 2 magicTree.idPath = true ∧
    ∃ row s line, magicTree.bufferLines[3]? = some row ∧ row.source = some s ∧
      magicTree.value.lines[3]? = some line ∧
      (["x\n%\ny".toList, "z".toList].flatMap Text.lines)[s]? = some line := by
  have hfirst : Reachable magicContext _ _ :=
    (Reachable.root "python" { scheme := "file", path := "/a.py" } "py" 0).append 1
      "x\n%\ny".toList "cell" Pos.origin none
  have hmagic : Reachable magicContext _ magicTree :=
    hfirst.append 1 "z".toList "cell" Pos.origin none
  obtain ⟨hlines, -, haligned⟩ := bufferLines_aligned hmagic (Owns.self _)
  have hone := (composedOf_clear magicContext magicRoot).append "cell" 1 Pos.origin none
    "x\n%\ny".toList 1
  have htwo : magicTree.ComposedOf magicContext ["x\n%\ny".toList, "z".toList] :=
    hone.append "cell" 1 Pos.origin none "z".toList
      (appendText magicContext "cell" 1 Pos.origin none "x\n%\ny".toList 1 magicRoot).next
  obtain ⟨hlength, -, hsilenced, hverbatim, -⟩ := haligned _ htwo
  obtain ⟨hx, hz⟩ := rowsOfText_magicContext
  have hmade : ∀ texts, rowsOf magicContext magicTree.language magicTree.info.config.spacing
      texts = rowsOf magicContext "python" 2 texts := fun _ => rfl
  have hrows : rowsOf magicContext "python" 2 ["x\n%\ny".toList, "z".toList] =
      [⟨['x'], .plain⟩, ⟨"begin".toList, .rule⟩, ⟨"end".toList, .rule⟩, ⟨['y'], .plain⟩,
        ⟨[], .separator⟩, ⟨[], .separator⟩, ⟨['z'], .plain⟩,
        ⟨[], .separator⟩, ⟨[], .separator⟩] := by
    rw [rowsOf, List.flatMap_cons, List.flatMap_singleton, hx, hz]
    rfl
  rw [hmade, hrows] at hlength hsilenced
  simp only [hmade] at hverbatim
  refine ⟨?_, (hsilenced 2 ⟨"end".toList, .rule⟩ rfl).mpr (Or.inr rfl),
    hverbatim [] _ _ rfl ?_ 3 (Nat.zero_le 3) ?_ ?_⟩
  · rw [hlines, ← hlength]
    rfl
  · intro e he
    cases he
  · rw [List.nil_append, rowsOf, List.flatMap_singleton, hx]
    decide
  · simpa using hsilenced 3 ⟨['y'], .plain⟩ rfl

end Document

end Polyglot
