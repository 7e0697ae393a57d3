import Polyglot.Proofs.LineTables
import Polyglot.Proofs.Ownership
import Mathlib.Data.List.Induction

/-!
The line tables of every document of every tree that can arise are inverse to each other. The lines
that a text becomes stand for its raw lines in order, as far as there are lines: a rule for whole
blocks, or an extraction, may leave fewer lines than the text had, and the raw lines behind the last
of them are swallowed.
-/
namespace Polyglot

/-- The number of lines that a rule for whole blocks makes of a code, or else the code's own. -/
def madeLines (block : RuleBook) (code : Text) : Nat :=
  ((block.substitute? code).getD code).lines.length

theorem madeLines_pos (block : RuleBook) (code : Text) : 0 < madeLines block code :=
  List.length_pos_of_ne_nil (Text.lines_ne_nil _)

theorem filterMap_flatten_mapIdx {α β : Type} (f : Nat → α → List β) (g : β → Option Nat)
    (h : ∀ i a, (f i a).filterMap g = [i]) (l : List α) :
    (l.mapIdx f).flatten.filterMap g = List.range l.length := by
  induction l using List.reverseRecOn with
  | nil => rfl
  | append_singleton l a ih =>
    rw [List.mapIdx_concat, List.flatten_append, List.filterMap_append, ih, List.length_append,
      List.length_singleton, List.range_succ]
    simp [h]

/-- The pieces of one line: the first stands for it. -/
theorem filterMap_pieces (pieces : List Text) (hne : pieces ≠ []) (replaced : Bool) (i : Nat) :
    (pieces.mapIdx fun piece text =>
      (⟨text, replaced, if piece = 0 then some i else none⟩ : Line)).filterMap
        (·.origin) = [i] := by
  obtain ⟨first, rest, rfl⟩ := List.exists_cons_of_ne_nil hne
  have hnone : (rest.mapIdx fun piece text =>
      (⟨text, replaced, if piece + 1 = 0 then some i else none⟩ : Line)).filterMap
        (·.origin) = [] := by
    rw [List.filterMap_eq_nil_iff]
    intro line hline
    obtain ⟨piece, _, rfl⟩ := List.mem_mapIdx.mp hline
    simp
  rw [List.mapIdx_cons, List.filterMap_cons, if_pos rfl]
  simp only [hnone]

theorem prepareLines_origins (block line : RuleBook) (code : Text) :
    (prepareLines block line code).filterMap (·.origin) = List.range (madeLines block code) := by
  unfold prepareLines madeLines
  cases block.substitute? code with
  | some made =>
    have h := filterMap_flatten_mapIdx (fun i text => [(⟨text, true, some i⟩ : Line)]) (·.origin)
      (fun _ _ => rfl) made.lines
    have hflat : (made.lines.mapIdx fun i text => [(⟨text, true, some i⟩ : Line)]).flatten =
        made.lines.mapIdx fun i text => ⟨text, true, some i⟩ := by
      simp only [List.mapIdx_eq_zipIdx_map, ← List.flatMap_def]
      exact List.map_eq_flatMap.symm
    rw [hflat] at h
    exact h
  | none =>
    have h := filterMap_flatten_mapIdx (fun i (changed : Text × Bool) =>
        changed.1.lines.mapIdx fun piece text =>
          (⟨text, changed.2, if piece = 0 then some i else none⟩ : Line)) (·.origin)
      (fun i changed => filterMap_pieces _ (Text.lines_ne_nil _) changed.2 i)
      (line.substituteLines code.lines)
    rw [h]
    simp [RuleBook.substituteLines]

theorem inOrder_blockOf (rules : RuleShelf) (language editor : String) (origin : Pos .editor)
    (shift : Option (Pos .source)) (text kept : Text)
    (foreign : List (Range .text × ForeignBlock)) :
    (Document.blockOf rules language editor origin shift text kept foreign).InOrder
      (madeLines (rules.book language .block) kept) where
  origins := prepareLines_origins _ _ kept
  made_pos := madeLines_pos _ kept
  height_pos := List.length_pos_of_ne_nil (Text.lines_ne_nil text)

/-- A block is what became of a text in a document of some language, whose extractors left `kept` of
it to the host. -/
structure Block.MadeFrom (context : Context) (language : String) (text kept : Text) (b : Block) :
    Prop where
  kept_eq : (Fragment.peel (context.extractors.forHost language) text).2 = .ok kept
  height_eq : b.height = text.lines.length
  lines_eq : b.lines = prepareLines (context.rules.book language .block)
    (context.rules.book language .line) kept

theorem Block.MadeFrom.inOrder {context : Context} {language : String} {text kept : Text}
    {b : Block} (h : b.MadeFrom context language text kept) :
    b.InOrder (madeLines (context.rules.book language .block) kept) where
  origins := by
    rw [h.lines_eq]
    exact prepareLines_origins _ _ kept
  made_pos := madeLines_pos _ kept
  height_pos := by
    rw [h.height_eq]
    exact List.length_pos_of_ne_nil (Text.lines_ne_nil text)

/-- How a raw line of a text is left without a line of its own: a rule for whole blocks makes too
few lines, or, where no such rule applies, too few are left by the extractors, which removed some.
-/
inductive Swallowed (context : Context) (language : String) (text : Text) (raw : Nat) : Prop
  | byRule {kept made : Text}
      (hkept : (Fragment.peel (context.extractors.forHost language) text).2 = .ok kept)
      (hmade : (context.rules.book language .block).substitute? kept = some made)
      (hfew : made.lines.length ≤ raw) : Swallowed context language text raw
  | byExtraction {kept : Text}
      (hkept : (Fragment.peel (context.extractors.forHost language) text).2 = .ok kept)
      (hnone : (context.rules.book language .block).substitute? kept = none)
      (hremoved : kept.lines.length < text.lines.length)
      (hfew : kept.lines.length ≤ raw) : Swallowed context language text raw

theorem swallowed_iff {context : Context} {language : String} {text kept : Text} (raw : Nat)
    (hkept : (Fragment.peel (context.extractors.forHost language) text).2 = .ok kept)
    (hraw : raw < text.lines.length) :
    Swallowed context language text raw ↔
      madeLines (context.rules.book language .block) kept ≤ raw := by
  unfold madeLines
  constructor
  · intro h
    cases h with
    | byRule hkept' hmade hfew =>
      rw [hkept] at hkept'
      cases hkept'
      simpa [hmade] using hfew
    | byExtraction hkept' hnone _ hfew =>
      rw [hkept] at hkept'
      cases hkept'
      simpa [hnone] using hfew
  · intro hfew
    cases hrule : (context.rules.book language .block).substitute? kept with
    | some made =>
      rw [hrule] at hfew
      exact Swallowed.byRule hkept hrule hfew
    | none =>
      rw [hrule] at hfew
      exact Swallowed.byExtraction hkept hrule (Nat.lt_of_le_of_lt hfew hraw) hfew

namespace Document

/-- A source line of a document is a raw line of a text that was appended to it. -/
def IsRawLine (context : Context) (d : Document) (s : Nat) (text : Text) (raw : Nat) : Prop :=
  ∃ pre b post kept, d.info.blocks = pre ++ b :: post ∧
    b.MadeFrom context d.language text kept ∧ s = heightOf pre + raw ∧ raw < text.lines.length

/-- All blocks of a document come from texts. -/
def BlocksMade (context : Context) (id : Identity) (blocks : List Block) : Prop :=
  ∀ b ∈ blocks, ∃ text kept, b.MadeFrom context id.kind.language text kept

theorem blocksMade_law (context : Context) : BlockLaw context (BlocksMade context) where
  empty _ b hb := by simp at hb
  push := by
    intro id blocks text kept h hkept editor origin shift foreign b hb
    rcases List.mem_append.mp hb with hold | hnew
    · exact h b hold
    · obtain rfl := List.mem_singleton.mp hnew
      exact ⟨text, kept, hkept, rfl, rfl⟩

variable {context : Context} {next : Nat} {tree d : Document}

theorem blocksMade_of_reachable (h : Reachable context next tree) (hd : tree.Owns d) :
    BlocksMade context d.id d.info.blocks := (blocksMade_law context).reachable h d hd

theorem blocks_inOrder_of_reachable (h : Reachable context next tree) (hd : tree.Owns d) :
    ∀ b ∈ d.info.blocks, ∃ made, b.InOrder made := by
  intro b hb
  obtain ⟨text, kept, hmade⟩ := blocksMade_of_reachable h hd b hb
  exact ⟨_, hmade.inOrder⟩

/-- The tables of every document of every tree that can arise: a buffer line that stands for a
source line is the one that it became; a source line became a buffer line that stands for it, or,
exactly if it was swallowed, for one before it; and source lines become buffer lines in order. -/
theorem lineTables_inverse (h : Reachable context next tree) (hd : tree.Owns d) :
    (∀ v row s, d.bufferLines[v]? = some row → row.source = some s →
      s < d.sourceLines.length ∧
      ∃ line, d.sourceLines[s]? = some line ∧ line.bufferLine = v ∧ line.editor = row.editor) ∧
    (∀ s line, d.sourceLines[s]? = some line →
      line.bufferLine < d.bufferLines.length ∧
      ∃ text row s', d.IsRawLine context s text line.editorLine ∧
        d.bufferLines[line.bufferLine]? = some row ∧ row.source = some s' ∧ s' ≤ s ∧
        row.editor = line.editor ∧
        (s' ≠ s ↔ Swallowed context d.language text line.editorLine)) ∧
    (∀ (s s' : Nat) (line line' : SourceLine), s ≤ s' → d.sourceLines[s]? = some line →
      d.sourceLines[s']? = some line' → line.bufferLine ≤ line'.bufferLine) := by
  have hinOrder := blocks_inOrder_of_reachable h hd
  refine ⟨?_, ?_, ?_⟩
  · intro v row s hrow hs
    obtain ⟨line, hline, hv, heditor⟩ := sourceTable_of_bufferTable hinOrder hrow hs
    exact ⟨(List.getElem?_eq_some_iff.mp hline).1, line, hline, hv, heditor⟩
  · intro s line hline
    obtain ⟨pre, b, post, raw, hblocks, hs, hraw, rfl⟩ := exists_raw_of_source hline
    obtain ⟨text, kept, hmade⟩ := blocksMade_of_reachable h hd b (by rw [hblocks]; simp)
    obtain ⟨row, hrow, hsource, heditor⟩ :=
      bufferTable_of_sourceTable d.info.config.spacing pre post
      hmade.inOrder hraw
    rw [← hblocks] at hrow
    have hpos := hmade.inOrder.made_pos
    rw [hmade.height_eq] at hraw
    refine ⟨(List.getElem?_eq_some_iff.mp hrow).1, text, row, _,
      ⟨pre, b, post, kept, hblocks, hmade, hs, hraw⟩, hrow, hsource, by omega, heditor, ?_⟩
    have hswallowed := swallowed_iff raw hmade.kept_eq hraw
    simp only [language] at hswallowed ⊢
    rw [hswallowed]
    omega
  · intro s s' line line' hle hline hline'
    exact sourceTable_monotone hinOrder hle hline hline'

/-- Takes all lines but the first out of a text. -/
def tailExtractor : Extractor where
  kind := ⟨"cel", "cel", true⟩
  exclusive := false
  detects := fun text => text.contains '\n'
  extract := fun text =>
    let (first, rest) := text.span (· != '\n')
    .ok [{ range := some ⟨⟨1, 0⟩, Pos.behind text⟩
           foreign := some (rest.drop 1)
           host := some first }]

def tailContext : Context := { extractors := ⟨[("python", tailExtractor)]⟩ }

def tailRoot : Document :=
  root tailContext.config "python" { scheme := "file", host := some "", path := "/a.py" } "py" 0

/-- A text of three lines, of which a child takes two. -/
def tailTree : Document :=
  (appendText tailContext "cell" 2 Pos.origin none "x\ny\nz".toList 1 tailRoot).document

theorem lineTables_inverse_tailTree : ∃ text line, tailTree.sourceLines[2]? = some line ∧
    tailTree.IsRawLine tailContext 2 text line.editorLine ∧
    Swallowed tailContext tailTree.language text line.editorLine := by
  have htree : Reachable tailContext _ tailTree :=
    Reachable.append 2 "x\ny\nz".toList "cell" Pos.origin none (Reachable.root _ _ _ 0)
  have hsources : tailTree.sourceLines[2]?.map (·.bufferLine) = some 0 := by decide +kernel
  have hbuffers : tailTree.bufferLines[0]?.map (·.source) = some (some 0) := by decide +kernel
  obtain ⟨line, hline, hzero⟩ := Option.map_eq_some_iff.mp hsources
  obtain ⟨_, text, row, s', hraw, hrow, hsource, _, _, hiff⟩ :=
    (lineTables_inverse htree (Owns.self tailTree)).2.1 2 line hline
  rw [hzero] at hrow
  rw [hrow, Option.map_some, hsource] at hbuffers
  cases hbuffers
  exact ⟨text, line, hline, hraw, hiff.mp (by decide)⟩

end Document

end Polyglot
