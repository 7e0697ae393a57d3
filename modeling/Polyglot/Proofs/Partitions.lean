import Polyglot.Proofs.Alike
import Polyglot.Proofs.Excerpts
import Polyglot.Proofs.Snippets

/-!
How a pattern parts a text. The matches in which its group took part are in order, none reaching
into the next. What they hold is the foreign code; the host keeps the whole text, or all that is
outside of them, and no other match takes anything away. So a document whose extractors keep its
texts shows the same lines in the same places as one without extractors.
-/
namespace Polyglot

namespace Pattern

/-- A pattern has a group with this number; the whole match has the number 0. -/
def HasGroup (p : Pattern) (index : Nat) : Prop :=
  index = 0 ∨ ∃ opening, Instr.mark index opening ∈ p.program

section

variable {program : Array Instr} {input : Array Char}

/-- The marks of a match are those that the machine sets. -/
theorem mark_mem_of_search {start : Nat} {m : Match} (h : search program input start = some m)
    {k : Mark} (hk : k ∈ m.marks) : Instr.mark k.group k.opening ∈ program := by
  obtain ⟨-, -, fuel, tried, tried', t, hexplore, -, hmarks⟩ := exists_thread_of_search h
  have hall : ∀ k ∈ t.marks, Instr.mark k.group k.opening ∈ program := by
    apply explore_keeps (P := fun x => ∀ k ∈ x.marks, Instr.mark k.group k.opening ∈ program) ?_
      hexplore
    · simp
    · intro x x' next hx hnext hx'
      rcases (successors_cases hnext hx').2.2 with heq | ⟨group, opening, hset, heq⟩
      · rw [heq]
        exact hx
      · rw [heq, List.forall_mem_cons]
        exact ⟨hset, hx⟩
  rw [hmarks] at hk
  exact hall k hk

theorem exists_search_of_mem {fuel start : Nat} {last : Option Nat} {m : Match}
    (h : m ∈ searchAll program input fuel start last) :
    ∃ start, search program input start = some m := by
  induction fuel generalizing start last with
  | zero => simp [searchAll] at h
  | succ fuel ih =>
    rw [searchAll] at h
    split at h
    · simp at h
    next found hnext =>
      rcases List.mem_cons.mp h with rfl | hlater
      · split at hnext
        · split at hnext
          · exact ⟨_, hnext⟩
          next hfirst _ =>
            obtain rfl := Option.some.inj hnext
            exact ⟨_, hfirst⟩
        · cases hnext
      · exact ih hlater

end

/-- A group takes part only if the pattern has it. -/
theorem hasGroup_of_group? {p : Pattern} {text : Text} {m : Match} (hm : m ∈ p.findAll text)
    {index : Nat} {s : Span} (h : m.group? index = some s) : p.HasGroup index := by
  by_cases hzero : index = 0
  · exact Or.inl hzero
  · rw [Match.group?, if_neg hzero, Match.lastRound] at h
    split at h
    · cases h
    next finish earlier hdrop =>
      obtain ⟨k, hk, -⟩ := Option.map_eq_some_iff.mp h
      have hmem : k ∈ m.marks := by
        apply (hdrop ▸ List.dropWhile_suffix _ : finish :: earlier <:+ m.marks).subset
        exact List.mem_cons_of_mem finish (List.mem_of_find?_eq_some hk)
      have hgroup : k.group = index := by
        have hfound := List.find?_some hk
        simp only [Bool.and_eq_true, beq_iff_eq] at hfound
        exact hfound.1
      obtain ⟨start, hsearch⟩ := exists_search_of_mem hm
      exact Or.inr ⟨k.opening, hgroup ▸ mark_mem_of_search hsearch hmem⟩

/-- The matches in which a group took part. -/
def taking (group : Nat) (found : List Match) : List Match :=
  found.filter fun m => (m.group? group).isSome

def Span.holds (s : Span) (place : Nat) : Bool := s.start ≤ place && place < s.stop

theorem Span.holds_eq_false {s : Span} {place : Nat} (h : place < s.start ∨ s.stop ≤ place) :
    s.holds place = false := by
  simp only [holds, Bool.and_eq_false_iff, decide_eq_false_iff_not]
  omega

end Pattern

namespace Text

/-- The characters of a text that stand in none of the spans, the first having the index `first`. -/
def outside (spans : List Pattern.Span) (first : Nat) (text : Text) : Text :=
  ((text.zipIdx first).filter fun x => !spans.any (·.holds x.2)).map Prod.fst

variable {spans : List Pattern.Span} {first : Nat}

theorem outside_append (s t : Text) :
    outside spans first (s ++ t) = outside spans first s ++ outside spans (first + s.length) t := by
  simp only [outside, List.zipIdx_append, List.filter_append, List.map_append]

theorem outside_eq_self {text : Text}
    (h : ∀ s ∈ spans, ∀ i, first ≤ i → i < first + text.length → s.holds i = false) :
    outside spans first text = text := by
  rw [outside, List.filter_eq_self.mpr, List.zipIdx_map_fst]
  intro x hx
  obtain ⟨hle, hlt, -⟩ := List.mem_zipIdx hx
  rw [Bool.not_eq_true', List.any_eq_false]
  intro s hs
  simp [h s hs x.2 hle hlt]

theorem outside_eq_nil {text : Text} {s : Pattern.Span} (hs : s ∈ spans)
    (h : ∀ i, first ≤ i → i < first + text.length → s.holds i = true) :
    outside spans first text = [] := by
  rw [outside, List.filter_eq_nil_iff.mpr, List.map_nil]
  intro x hx
  obtain ⟨hle, hlt, -⟩ := List.mem_zipIdx hx
  have hany : spans.any (·.holds x.2) = true := List.any_eq_true.mpr ⟨s, hs, h x.2 hle hlt⟩
  simp [hany]

/-- A span that ends before a text takes nothing away from it. -/
theorem outside_cons {s : Pattern.Span} (h : s.stop ≤ first) (text : Text) :
    outside (s :: spans) first text = outside spans first text := by
  rw [outside, outside]
  congr 1
  apply List.filter_congr
  intro x hx
  obtain ⟨hle, -, -⟩ := List.mem_zipIdx hx
  have hnot : s.holds x.2 = false := Pattern.Span.holds_eq_false (Or.inr (h.trans hle))
  simp [hnot]

theorem length_slice (text : Text) (start : Nat) {stop : Nat} (h : stop ≤ text.length) :
    (text.slice start stop).length = stop - start := by
  rw [slice, List.length_take, List.length_drop]
  omega

/-- What is outside of a span and those behind it: all that stands before it, and what is outside
of the others behind it. -/
theorem outside_drop {text : Text} {s : Pattern.Span} (hstart : first ≤ s.start)
    (hbounds : s.start ≤ s.stop ∧ s.stop ≤ text.length) (hlater : ∀ s' ∈ spans, s.stop ≤ s'.start) :
    outside (s :: spans) first (text.drop first) =
      text.slice first s.start ++ outside spans s.stop (text.drop s.stop) := by
  have hfront := length_slice text first (hbounds.1.trans hbounds.2)
  have hmiddle := length_slice text s.start hbounds.2
  have hleft : outside (s :: spans) first (text.slice first s.start) =
      text.slice first s.start := by
    apply outside_eq_self
    intro s' hs' i _ hi
    have hbehind : s.start ≤ s'.start := by
      rcases List.mem_cons.mp hs' with rfl | hs'
      · exact Nat.le_refl _
      · exact Nat.le_trans hbounds.1 (hlater s' hs')
    apply Pattern.Span.holds_eq_false
    omega
  have htaken : outside (s :: spans) s.start (text.slice s.start s.stop) = [] := by
    apply outside_eq_nil List.mem_cons_self
    intro i hi hlt
    simp only [Pattern.Span.holds, Bool.and_eq_true, decide_eq_true_eq]
    omega
  rw [← text.slice_append_drop hstart, ← text.slice_append_drop hbounds.1, outside_append,
    outside_append, hfront, hmiddle, hleft, Nat.add_sub_cancel' hstart, htaken, List.nil_append,
    Nat.add_sub_cancel' hbounds.1, outside_cons (Nat.le_refl _)]

end Text

/-- The text that some pieces leave to the host. -/
def hostText (pieces : List Piece) : Text := (pieces.filterMap (·.host)).flatten

/-- The pieces of foreign code with their ranges. -/
def foreignCodes (pieces : List Piece) : List (Text × Option (Range .text)) :=
  pieces.filterMap fun x => x.foreign.map fun code => (code, x.range)

namespace Extraction

open Pattern (Match Span Lined taking)

/-- What a span of a text holds, and where it stands. -/
def codeIn (text : Text) (s : Span) : Text × Option (Range .text) :=
  (text.slice s.start s.stop, some ⟨Pos.behind (text.take s.start), Pos.behind (text.take s.stop)⟩)

/-- How a text falls into pieces by the matches in which a group took part. -/
structure Partition (keepInHost : Bool) (group : Nat) (text : Text) (found : List Match)
    (pieces : List Piece) : Prop where
  lined : Lined text.length (found.map (·.span))
  groups : ∀ m ∈ found, ∃ s, m.group? group = some s ∧ m.start ≤ s.start ∧ s.start ≤ s.stop ∧
    s.stop ≤ m.stop
  codes : foreignCodes pieces = (found.filterMap (·.group? group)).map (codeIn text)
  kept : keepInHost = true → hostText pieces = text
  cut : keepInHost = false → hostText pieces = text.outside (found.map (·.span)) 0
  lossless : (∀ m ∈ found, m.start = m.stop) → hostText pieces = text

variable {keepInHost : Bool} {group done : Nat} {text : Text} {found : List Match}

theorem filterMap_taking (group : Nat) (found : List Match) :
    (taking group found).filterMap (·.group? group) = found.filterMap (·.group? group) := by
  rw [taking, List.filterMap_filter]
  apply List.filterMap_congr
  intro m _
  cases m.group? group <;> rfl

theorem foreignCodes_piecesFrom :
    foreignCodes (piecesFrom keepInHost group text done found) =
      (found.filterMap (·.group? group)).map (codeIn text) := by
  induction found generalizing done with
  | nil =>
    rw [piecesFrom, remainder]
    split <;> rfl
  | cons m rest ih =>
    rw [piecesFrom, List.filterMap_cons]
    cases m.group? group with
    | none => exact ih
    | some code =>
      rw [List.map_cons, ← ih]
      rfl

theorem hostText_piecesFrom :
    hostText (piecesFrom keepInHost group text done found) =
      Fragment.hostCode (piecesFrom keepInHost group text done found) := by
  have hnone : ∀ x ∈ piecesFrom keepInHost group text done found, (!Fragment.isLost x) = true := by
    intro x hx
    rcases (shape_of_mem_piecesFrom hx).2 with hforeign | ⟨code, -, hrange⟩
    · simp [Fragment.isLost, hforeign]
    · simp [Fragment.isLost, hrange]
  rw [Fragment.hostCode, List.filter_eq_self.mpr hnone, hostText]

theorem hostText_foreignPiece_cons (m : Match) (code : Span) (pieces : List Piece) :
    hostText (foreignPiece keepInHost text done m.span code :: pieces) =
      (hostBefore keepInHost text done m.span).getD [] ++ hostText pieces := by
  cases hhost : hostBefore keepInHost text done m.span <;>
    simp [hostText, foreignPiece, hhost]

theorem getD_hostBefore_false (text : Text) (done : Nat) (s : Span) :
    (hostBefore false text done s).getD [] = text.slice done s.start := by
  rw [hostBefore, if_neg Bool.false_ne_true]
  split
  · rfl
  · rw [Text.slice, Nat.sub_eq_zero_of_le (by omega)]
    rfl

/-- Pieces that do not keep their matches hold what is outside of those in which the group took
part. -/
theorem hostText_cut (hbehind : ∀ m ∈ found, done ≤ m.start)
    (hbounds : ∀ m ∈ found, m.start ≤ m.stop ∧ m.stop ≤ text.length)
    (horder : found.Pairwise (·.stop ≤ ·.start)) :
    hostText (piecesFrom false group text done found) =
      Text.outside ((taking group found).map (·.span)) done (text.drop done) := by
  induction found generalizing done with
  | nil =>
    rw [hostText_piecesFrom, piecesFrom, hostCode_remainder, Text.outside_eq_self]
    simp [taking]
  | cons m rest ih =>
    rw [List.pairwise_cons] at horder
    have hbounds' := fun m' hm' => hbounds m' (List.mem_cons_of_mem m hm')
    cases hgroup : m.group? group with
    | none =>
      rw [piecesFrom, hgroup, taking, List.filter_cons_of_neg (by simp [hgroup])]
      exact ih (fun m' hm' => hbehind m' (List.mem_cons_of_mem m hm')) hbounds' horder.2
    | some code =>
      have hlater : ∀ s ∈ (taking group rest).map (·.span), m.stop ≤ s.start := by
        intro s hs
        obtain ⟨m', hm', rfl⟩ := List.mem_map.mp hs
        exact horder.1 m' (List.mem_filter.mp hm').1
      have htaken : taking group (m :: rest) = m :: taking group rest :=
        List.filter_cons_of_pos (by simp [hgroup])
      rw [piecesFrom, hgroup, hostText_foreignPiece_cons, ih horder.1 hbounds' horder.2,
        getD_hostBefore_false, htaken, List.map_cons]
      exact (Text.outside_drop (hbehind m List.mem_cons_self) (hbounds m List.mem_cons_self)
        hlater).symm

/-- The matches of a pattern in which a group took part part a text. -/
theorem partition_findAll (keepInHost : Bool) (p : Pattern) (group : Nat) (text : Text) :
    Partition keepInHost group text (taking group (p.findAll text))
      (piecesFrom keepInHost group text 0 (p.findAll text)) := by
  obtain ⟨hpassed, hapart⟩ :=
    @Pattern.searchAll_inOrder p.program text.toArray (text.length + 2) 0 none
  have hbounds : ∀ m ∈ p.findAll text, m.start ≤ m.stop ∧ m.stop ≤ text.length := by
    intro m hm
    have hwithin := (hpassed m hm).2.within
    rw [List.size_toArray] at hwithin
    exact ⟨(hpassed m hm).2.le, hwithin⟩
  have hkept : keepInHost = true →
      hostText (piecesFrom keepInHost group text 0 (p.findAll text)) = text := by
    rintro rfl
    rw [hostText_piecesFrom]
    apply hostCode_piecesFrom group text (fun m _ => Nat.zero_le _)
    refine hapart.imp_of_mem ?_
    intro m m' _ hm' hle
    exact Nat.le_trans hle (hbounds m' hm').1
  have hcut : keepInHost = false →
      hostText (piecesFrom keepInHost group text 0 (p.findAll text)) =
        text.outside ((taking group (p.findAll text)).map (·.span)) 0 := by
    rintro rfl
    exact hostText_cut (fun m _ => Nat.zero_le _) hbounds hapart
  refine ⟨⟨?_, ?_⟩, ?_, ?_, hkept, hcut, ?_⟩
  · intro s hs
    obtain ⟨m, hm, rfl⟩ := List.mem_map.mp hs
    exact hbounds m (List.mem_filter.mp hm).1
  · rw [List.pairwise_map]
    exact hapart.filter _
  · intro m hm
    obtain ⟨hm, htook⟩ := List.mem_filter.mp hm
    obtain ⟨s, hs⟩ := Option.isSome_iff_exists.mp htook
    exact ⟨s, hs, (hpassed m hm).2.group?_bounds hs⟩
  · rw [foreignCodes_piecesFrom, filterMap_taking]
  · intro hempty
    cases hkeep : keepInHost with
    | true => exact hkeep ▸ hkept hkeep
    | false =>
      rw [hkeep] at hcut
      rw [hcut rfl]
      apply Text.outside_eq_self
      intro s hs i _ _
      obtain ⟨m, hm, rfl⟩ := List.mem_map.mp hs
      have hsame : m.span.start = m.span.stop := hempty m hm
      apply Span.holds_eq_false
      omega

theorem taking_eq_nil {p : Pattern} (h : ¬p.HasGroup group) (text : Text) :
    taking group (p.findAll text) = [] := by
  apply List.filter_eq_nil_iff.mpr
  intro m hm htook
  obtain ⟨s, hs⟩ := Option.isSome_iff_exists.mp htook
  exact h (Pattern.hasGroup_of_group? hm hs)

end Extraction

/-- Extractors that leave texts as they are do so in turn. -/
theorem Fragment.peel_keeps {es : List Extractor} (hkeep : ∀ e ∈ es, e.Keeps) {text kept : Text}
    (h : (peel es text).2 = .ok kept) : kept = text := by
  induction es with
  | nil => exact (Except.ok.inj h).symm
  | cons e rest ih =>
    have hrest := ih fun e' he' => hkeep e' (List.mem_cons_of_mem e he')
    rw [peel] at h
    split at h
    · cases hextract : e.extract text with
      | error fault =>
        rw [hextract] at h
        cases h
      | ok pieces =>
        rw [hextract] at h
        simp only [hkeep e List.mem_cons_self text pieces hextract] at h
        exact hrest h
    · exact hrest h

/-- A context in which no code is foreign. -/
def Context.plain (context : Context) : Context := { context with extractors := {} }

namespace Document

/-- Documents that are the same, with blocks that differ in their notes alone. -/
structure BareEq (d e : Document) : Prop where
  nature_eq : d.nature = e.nature
  blocks_eq : d.info.blocks.map Block.bare = e.info.blocks.map Block.bare

/-- Documents that show the same, apart from foreign blocks. -/
structure ShowSame (d e : Document) : Prop where
  value_eq : d.value = e.value
  bufferLines_eq : d.bufferLines = e.bufferLines
  sourceLines_eq : d.sourceLines.map SourceLine.bare = e.sourceLines.map SourceLine.bare

variable {context : Context} {d e : Document}

theorem BareEq.alike (h : BareEq d e) : d.Alike e :=
  ⟨(nature_eq_iff.mp h.nature_eq).2.1, h.blocks_eq⟩

theorem BareEq.showSame (h : BareEq d e) : ShowSame d e :=
  ⟨h.alike.value_eq, h.alike.bufferLines_eq, h.alike.sourceLines_eq⟩

theorem BareEq.isDisposed_eq (h : BareEq d e) : d.isDisposed = e.isDisposed :=
  (nature_eq_iff.mp h.nature_eq).2.2

theorem BareEq.language_eq (h : BareEq d e) : d.language = e.language := by
  rw [language, id_eq_of_nature_eq h.nature_eq]
  rfl

theorem BareEq.of_sameHost (h : BareEq d e) {d₁ : Document} (hhost : SameHost d d₁) : BareEq d₁ e :=
  ⟨hhost.nature_eq.trans h.nature_eq, hhost.blocks_eq ▸ h.blocks_eq⟩

theorem BareEq.push (h : BareEq d e) {b b' : Block} (hbare : b.bare = b'.bare) :
    BareEq (d.push b) (e.push b') := by
  obtain ⟨info, children, parked⟩ := d
  obtain ⟨info', children', parked'⟩ := e
  refine ⟨h.nature_eq, ?_⟩
  have hblocks : info.blocks.map Block.bare = info'.blocks.map Block.bare := h.blocks_eq
  simp only [Document.push, modify, Document.info, List.map_append, hblocks, List.map_cons, hbare]

/-- One more block, with extractors that keep the text and without any. -/
theorem BareEq.append (h : BareEq d e) (hlive : d.isDisposed = false)
    (hkeep : ∀ x ∈ context.extractors.forHost d.language, x.Keeps) (text : Text) (editor : String)
    (origin : Pos .editor) (shift : Option (Pos .source)) (next next' : Nat) {levels : Nat}
    (hlevels : 0 < levels) :
    ∃ e', e.append context.plain text editor origin shift next' levels = ⟨e', next', .ok ()⟩ ∧
      (((d.append context text editor origin shift next levels).result = .ok () ∧
          BareEq (d.append context text editor origin shift next levels).document e') ∨
        ((d.append context text editor origin shift next levels).result ≠ .ok () ∧
          BareEq (d.append context text editor origin shift next levels).document e)) := by
  refine ⟨e.push (blockOf context.rules e.language editor origin shift text text []), ?_, ?_⟩
  · have hpeel :
        Fragment.peel (context.plain.extractors.forHost e.language) text = ([], .ok text) := rfl
    obtain ⟨below, rfl⟩ := Nat.exists_eq_add_of_le' hlevels
    rw [Document.append]
    exact appendText_succ (h.isDisposed_eq.symm.trans hlive) hpeel
  · rw [Document.append]
    rcases appendText_cases context editor levels origin shift text next d with
      ⟨fault, heq⟩ | ⟨below, d₁, n₁, given, fault, _, _, hforeign, heq⟩ |
      ⟨below, d₁, n₁, foreign, kept, _, _, hforeign, hkept, heq⟩
    · rw [heq]
      exact Or.inr ⟨by simp, h⟩
    · have hhost := sameHost_of_appendForeign hforeign
      rw [heq]
      exact Or.inr ⟨by simp, h.of_sameHost hhost⟩
    · have hhost := sameHost_of_appendForeign hforeign
      obtain rfl := Fragment.peel_keeps hkeep hkept
      rw [heq]
      refine Or.inl ⟨rfl, (h.of_sameHost hhost).push ?_⟩
      rw [h.language_eq]
      rfl

/-- Cells in turn, with extractors that keep their texts and without any. Where the extractors
fail, the cells before that count. -/
theorem BareEq.appendCells (h : BareEq d e) (hlive : d.isDisposed = false)
    (hkeep : ∀ x ∈ context.extractors.forHost d.language, x.Keeps) {levels : Nat}
    (hlevels : 0 < levels) (index : Nat) (cells : List Cell) (next next' : Nat) :
    ∃ k ≤ cells.length, ∃ e',
      (appendCells context.plain levels index (cells.take k) next' e).2 = ⟨e', next', .ok ()⟩ ∧
      ((appendCells context levels index cells next d).2.result = .ok () ↔ k = cells.length) ∧
      BareEq (appendCells context levels index cells next d).2.document e' := by
  induction cells generalizing index next d e with
  | nil => exact ⟨0, Nat.le_refl 0, e, rfl, by simp [Polyglot.appendCells], h⟩
  | cons cell rest ih =>
    obtain ⟨e', hplain, hstep⟩ :=
      h.append hlive hkeep cell.text cell.editor Pos.origin none next next' hlevels
    have hnature := (appendText_frame context cell.editor levels Pos.origin none cell.text next
      d).1
    rw [← Document.append] at hnature
    obtain ⟨d₁, n₁, result, happend⟩ : ∃ d₁ n₁ result,
        d.append context cell.text cell.editor Pos.origin none next levels = ⟨d₁, n₁, result⟩ :=
      ⟨_, _, _, rfl⟩
    rw [happend] at hstep hnature
    rw [Polyglot.appendCells, happend]
    cases result with
    | error fault =>
      obtain ⟨hok, _⟩ | ⟨_, hbare⟩ := hstep
      · cases hok
      · exact ⟨0, Nat.zero_le _, e, rfl, by simp, hbare⟩
    | ok =>
      obtain ⟨_, hbare⟩ | ⟨hnot, _⟩ := hstep
      · have hlive₁ : d₁.isDisposed = false := (nature_eq_iff.mp hnature).2.2.trans hlive
        have hlanguage : d₁.language = d.language := by
          rw [language, id_eq_of_nature_eq hnature]
          rfl
        obtain ⟨k, hk, e'', hrest, hiff, hlast⟩ :=
          ih hbare hlive₁ (hlanguage.symm ▸ hkeep) (index + 1) n₁
        refine ⟨k + 1, Nat.succ_le_succ hk, e'', ?_, ?_, hlast⟩
        · rw [List.take_succ_cons, Polyglot.appendCells, hplain]
          exact hrest
        · rw [List.length_cons, Nat.succ_inj]
          exact hiff
      · exact absurd rfl hnot

end Document

open Document (ShowSame BareEq)
open Pattern (taking)

/-- A pattern parts every text by the matches in which its group took part. A document whose
extractors all keep its texts shows what it would show without extractors, block by block and over
a run of cells: where a child fails, the cells before that count. -/
theorem pattern_partitions_text :
    (∀ options x, Extraction.byPattern options = .ok x →
      ∃ p, Pattern.ofString? options.pattern = some p ∧ (options.keepInHost = true → x.Keeps) ∧
        ∀ text, ∃ pieces, x.extract text = .ok pieces ∧
          Extraction.Partition options.keepInHost options.group text
            (taking options.group (p.findAll text)) pieces ∧
          (¬p.HasGroup options.group → taking options.group (p.findAll text) = [])) ∧
    ∀ (context : Context) (levels : Nat) (d : Document), 0 < levels → d.isDisposed = false →
      (∀ x ∈ context.extractors.forHost d.language, x.Keeps) →
      (∀ text editor origin shift next, ∃ plain,
        d.append context.plain text editor origin shift next levels = ⟨plain, next, .ok ()⟩ ∧
        ((d.append context text editor origin shift next levels).result = .ok () →
          ShowSame (d.append context text editor origin shift next levels).document plain)) ∧
      ∀ cells next, ∃ k ≤ cells.length, ∃ plain,
        (appendCells context.plain levels 0 (cells.take k) next d).2 = ⟨plain, next, .ok ()⟩ ∧
        ((appendCells context levels 0 cells next d).2.result = .ok () ↔ k = cells.length) ∧
        ShowSame (appendCells context levels 0 cells next d).2.document plain := by
  refine ⟨?_, ?_⟩
  · intro options x hx
    have hkeeps := Extraction.byPattern_keeps hx
    unfold Extraction.byPattern at hx
    split at hx
    · cases hx
    next p hp =>
      cases hx
      exact ⟨p, hp, hkeeps, fun text => ⟨_, rfl,
        Extraction.partition_findAll options.keepInHost p options.group text,
        fun hnone => Extraction.taking_eq_nil hnone text⟩⟩
  · intro context levels d hlevels hlive hkeep
    have hself : BareEq d d := ⟨rfl, rfl⟩
    refine ⟨?_, ?_⟩
    · intro text editor origin shift next
      obtain ⟨plain, hplain, hstep⟩ :=
        hself.append hlive hkeep text editor origin shift next next hlevels
      refine ⟨plain, hplain, ?_⟩
      intro hok
      rcases hstep with ⟨_, hbare⟩ | ⟨hnot, _⟩
      · exact hbare.showSame
      · exact absurd hok hnot
    · intro cells next
      obtain ⟨k, hk, plain, hplain, hiff, hbare⟩ :=
        hself.appendCells hlive hkeep hlevels 0 cells next next
      exact ⟨k, hk, plain, hplain, hiff, hbare.showSame⟩

/-! A pattern whose group can stay out of a match. -/

def optionalPattern : Pattern :=
  ⟨#[.char 'a', .split 2 5, .mark 1 true, .char 'b', .mark 1 false, .accept], []⟩

def optionalOptions : Extraction.PatternOptions := ⟨⟨"cel", "cel", false⟩, false, "a(b)?", 1, false⟩

theorem taking_optionalPattern : taking 1 (optionalPattern.findAll "aab".toList) =
    [⟨1, 3, [⟨1, false, 3⟩, ⟨1, true, 2⟩]⟩] := by
  have hfirst : Pattern.search optionalPattern.program #['a', 'a', 'b'] 0 = some ⟨0, 1, []⟩ := by
    simp [optionalPattern, Pattern.search, Pattern.searchFrom, Pattern.explore, Pattern.successors]
  have hnext : Pattern.search optionalPattern.program #['a', 'a', 'b'] 1 =
      some ⟨1, 3, [⟨1, false, 3⟩, ⟨1, true, 2⟩]⟩ := by
    simp [optionalPattern, Pattern.search, Pattern.searchFrom, Pattern.explore, Pattern.successors]
  have hlast : Pattern.search optionalPattern.program #['a', 'a', 'b'] 3 = none := by
    simp [optionalPattern, Pattern.search, Pattern.searchFrom, Pattern.explore, Pattern.successors]
  have hfound : optionalPattern.findAll "aab".toList =
      [⟨0, 1, []⟩, ⟨1, 3, [⟨1, false, 3⟩, ⟨1, true, 2⟩]⟩] := by
    simp [Pattern.findAll, Pattern.searchAll, hfirst, hnext, hlast]
  rw [hfound]
  rfl

/-- The first letter matches without the group, and stays with the host; the match in which the
group took part is gone as a whole. -/
theorem pattern_partitions_text_optional :
    (∃ x pieces, Extraction.byPattern optionalOptions = .ok x ∧
      x.extract "aab".toList = .ok pieces ∧ hostText pieces = ['a'] ∧
      foreignCodes pieces = [(['b'], some ⟨⟨0, 2⟩, ⟨0, 3⟩⟩)]) ∧
    ∃ plain, (appendCells matchSession.context.plain matchSession.levels 0
        [⟨"xb".toList, "cell"⟩] 1 matchSession.root.clear).2 = ⟨plain, 1, .ok ()⟩ ∧
      ShowSame (appendCells matchSession.context matchSession.levels 0 [⟨"xb".toList, "cell"⟩] 1
        matchSession.root.clear).2.document plain := by
  obtain ⟨hparts, hhost⟩ := pattern_partitions_text
  refine ⟨?_, ?_⟩
  · have hread : Pattern.ofString? optionalOptions.pattern = some optionalPattern := rfl
    obtain ⟨p, hp, -, hparts⟩ := hparts optionalOptions _ rfl
    obtain rfl : optionalPattern = p := Option.some.inj (hread.symm.trans hp)
    obtain ⟨pieces, hextract, hpartition, -⟩ := hparts "aab".toList
    have hcodes := hpartition.codes
    have hcut := hpartition.cut rfl
    simp only [optionalOptions, taking_optionalPattern] at hcodes hcut
    exact ⟨_, pieces, rfl, hextract, hcut, hcodes⟩
  · have hkeep : ∀ x ∈ matchSession.context.extractors.forHost matchSession.root.clear.language,
        x.Keeps := by
      intro x hx
      obtain rfl := List.mem_singleton.mp (hx : x ∈ [matchExtractor])
      exact Extraction.byPattern_keeps byPattern_matchOptions rfl
    have hok : (appendCells matchSession.context matchSession.levels 0 [⟨"xb".toList, "cell"⟩] 1
        matchSession.root.clear).2.result = .ok () := by
      simp only [appendCells, append_matchSession]
      decide +kernel
    obtain ⟨k, -, plain, hplain, hiff, hsame⟩ :=
      (hhost matchSession.context matchSession.levels matchSession.root.clear (by decide) rfl
        hkeep).2 [⟨"xb".toList, "cell"⟩] 1
    obtain rfl := hiff.mp hok
    exact ⟨plain, hplain, hsame⟩

end Polyglot
