import Polyglot.Proofs.BufferRows
import Polyglot.Proofs.Matches
import Polyglot.Proofs.RoundTrip

/-!
Where extractors go by patterns and leave the text to those after them, all code that documents are
given is an excerpt of a cell and starts where its document says. Positions in the buffer of a
document that keeps its code as it is then lead to the same text in the cell.
-/
namespace Polyglot

namespace Context

/-- All extractors go by patterns, and those of a language leave texts as they are, but for the last
one. -/
def GoesByPatterns (context : Context) : Prop :=
  ∀ host, ∃ options, List.Forall₂ (fun o e => Extraction.byPattern o = .ok e) options
      (context.extractors.forHost host) ∧
    ∀ o ∈ options.dropLast, o.keepInHost = true

theorem GoesByPatterns.cuts {context : Context} (h : context.GoesByPatterns) {host : String}
    {text : Text} {f : Fragment}
    (hf : f ∈ (Fragment.peel (context.extractors.forHost host) text).1) :
    f.shift = none ∧ f.range.Cuts text f.text := by
  obtain ⟨options, hall, hkeep⟩ := h host
  refine Fragment.cuts_of_mem_peel ?_ ?_ hf
  · intro e he
    obtain ⟨i, hi, rfl⟩ := List.getElem_of_mem he
    exact Extraction.byPattern_cuts (hall.get (by rw [hall.length_eq]; exact hi) hi)
  · intro e he
    have hfront := List.forall₂_take (options.length - 1) hall
    rw [hall.length_eq, ← List.dropLast_eq_take, ← hall.length_eq, ← List.dropLast_eq_take] at hfront
    obtain ⟨i, hi, rfl⟩ := List.getElem_of_mem he
    have hi' : i < options.dropLast.length := by rwa [hfront.length_eq]
    exact Extraction.byPattern_keeps (hfront.get hi' hi) (hkeep _ (List.getElem_mem hi'))

end Context

namespace Document

variable {context : Context} {cells : List Cell}

/-- A text is an excerpt of a cell, starts where it is said to, and has nothing in front of it. -/
def CutFrom (cell : Cell) (origin : Pos .editor) (shift : Option (Pos .source)) (text : Text) :
    Prop :=
  shift = none ∧ ∃ before after, cell.text = before ++ text ++ after ∧
    origin = ⟨(Pos.behind before).line, (Pos.behind before).column⟩

/-- All blocks come from excerpts of cells. -/
def BlocksCut (context : Context) (cells : List Cell) (id : Identity) (blocks : List Block) : Prop :=
  ∀ b ∈ blocks, ∃ cell ∈ cells, ∃ text kept, b.editor = cell.editor ∧
    CutFrom cell b.origin none text ∧ b.MadeFrom context id.kind.language text kept

theorem blocksCut_law (h : context.GoesByPatterns) {cell : Cell} (hcell : cell ∈ cells) :
    GivenLaw context cell.editor (CutFrom cell) (BlocksCut context cells) where
  empty := by simp [BlocksCut]
  pass := by
    rintro origin shift text ⟨-, before, after, htext, rfl⟩ host f hf
    obtain ⟨hshift, front, back, hcode, hstart⟩ := h.cuts hf
    refine ⟨hshift, before ++ front, back ++ after, ?_, ?_⟩
    · rw [htext, hcode]
      simp only [List.append_assoc]
    · rw [foreignOrigin, hstart, Pos.behind_append, Nat.add_comm (Pos.behind front).column]
  push := by
    rintro id blocks origin shift text kept hblocks ⟨rfl, hcut⟩ hkept foreign b hb
    rcases List.mem_append.mp hb with hold | hnew
    · exact hblocks b hold
    · obtain rfl := List.mem_singleton.mp hnew
      exact ⟨cell, hcell, text, kept, rfl, ⟨rfl, hcut⟩, hkept, rfl, rfl⟩

/-- After a rebuild all blocks of all documents come from excerpts of the cells. -/
theorem blocksCut_of_update {s s' : Session} {next next' : Nat}
    (hreach : Reachable s.context next s.root) (h : s.context.GoesByPatterns)
    (hupdate : s.update cells next = (s', next', .ok ())) :
    s'.root.Everywhere (BlocksCut s.context cells) := by
  obtain ⟨notices, d₁, happend, hroot⟩ := update_ok hupdate
  have hblank : s.root.clear.Everywhere (BlocksCut s.context cells) := by
    intro e he
    rw [blank_clear (emptied_of_reachable hreach) e he]
    simp [BlocksCut]
  have hkept : (appendCells s.context s.levels 0 cells next s.root.clear).2.document.Everywhere
      (BlocksCut s.context cells) := by
    refine appendCells_keeps s.context s.levels (I := fun _ e => e.Everywhere _) ?_ 0 hblank
    intro cell hcell n e he
    exact (blocksCut_law h hcell).appendText _ ⟨rfl, [], [], by simp, rfl⟩ n he
  rw [happend] at hkept
  rw [hroot]
  exact Everywhere.drained (everywhere_lasting.emitChanged (everywhere_lasting.closeExpired hkept))

end Document

theorem overridden_nil (code : Text) : overridden [] [] code = code.lines.map (⟨·, .plain⟩) := by
  simp only [overridden, RuleBook.substitute?, List.findSome?_nil]
  exact List.flatMap_pure_eq_map _ _

/-- Where there are no extractors and no rules, a line that stands for a raw line is that line. -/
theorem Block.MadeFrom.raw_line {context : Context} {language : String} {text kept : Text}
    {b : Block} (h : b.MadeFrom context language text kept)
    (hextractors : context.extractors.forHost language = [])
    (hrules : ∀ scope, context.rules.book language scope = []) {i raw : Nat} {l : Line}
    (hl : b.lines[i]? = some l) (horigin : l.origin = some raw) :
    text.lines[raw]? = some l.text := by
  have hkept : kept = text := by
    have hpeel := h.kept_eq
    rw [hextractors] at hpeel
    cases hpeel
    rfl
  have hmem : l ∈ prepareLines [] [] text := by
    have hline := List.mem_of_getElem? hl
    rwa [h.lines_eq, hrules .block, hrules .line, hkept] at hline
  have hplain : l.replaced = false := by
    have hrow : l.row ∈ overridden [] [] text := by
      rw [← prepareLines_rows]
      exact List.mem_map_of_mem hmem
    rw [overridden_nil] at hrow
    obtain ⟨line, _, hsame⟩ := List.mem_map.mp hrow
    have hmaking := congrArg Row.making hsame
    cases hreplaced : l.replaced with
    | false => rfl
    | true => simp [Line.row, hreplaced] at hmaking
  obtain ⟨raw', horigin', hraw⟩ := prepareLines_plain hmem hplain
  rw [horigin] at horigin'
  cases horigin'
  exact hraw

open Document

/-- A position in the buffer of a document that keeps its code, on a line that stands for a source
line, leads to a position of a cell from which on the cell has the same text. -/
theorem bufferToEditor_same_text {s s' : Session} {next next' : Nat} {cells : List Cell}
    (hreach : Reachable s.context next s.root) (hpatterns : s.context.GoesByPatterns)
    (hdistinct : (cells.map (·.editor)).Nodup)
    (hupdate : s.update cells next = (s', next', .ok ())) {d : Document} (hd : s'.root.Owns d)
    (hextractors : s.context.extractors.forHost d.language = [])
    (hrules : ∀ scope, s.context.rules.book d.language scope = []) {v source : Nat}
    {row : BufferLine} (hrow : d.bufferLines[v]? = some row) (hsource : row.source = some source) :
    ∃ cell ∈ cells, d.editorOfBufferLine v = .ok cell.editor ∧
      (∀ other ∈ cells, other.editor = cell.editor → other = cell) ∧
      ∃ text, d.value.lines[v]? = some text ∧
        ∀ front rest, text = front ++ rest → ∃ l k line before,
          d.bufferToEditor ⟨v, Pos.width front⟩ = .ok ⟨l, k⟩ ∧
          cell.text.lines[l]? = some line ∧ Pos.width before = k ∧ before ++ rest <+: line := by
  have hcut := blocksCut_of_update hreach hpatterns hupdate d hd
  obtain ⟨pre, b, post, i, hblocks, rfl, hline⟩ := (getElem?_bufferTable _ _ _ _ _).mp hrow
  obtain ⟨l, raw, hl, horigin, hraw, rfl, heditor⟩ := b.exists_line_of_source hline hsource
  obtain ⟨cell, hcell, text, kept, hcellEditor, ⟨-, before, after, htext, hstart⟩, hmade⟩ :=
    hcut b (by rw [hblocks]; simp)
  have hraws := hmade.raw_line hextractors hrules hl horigin
  obtain ⟨texts, htexts⟩ : ∃ texts, d.ComposedOf s.context texts := by
    refine exists_composedOf_iff.mpr ?_
    intro b hb
    obtain ⟨_, _, text, kept, _, _, hmade⟩ := hcut b hb
    exact ⟨text, kept, hmade⟩
  refine ⟨cell, hcell, ?_, ?_, l.text, htexts.value_at hblocks hl, ?_⟩
  · have hlt := (List.getElem?_eq_some_iff.mp hrow).1
    simp only [editorOfBufferLine, if_neg (Nat.ne_of_lt hlt), hrow, heditor, hcellEditor]
  · intro other hother hname
    exact List.inj_on_of_nodup_map hdistinct hother hcell hname
  · intro front rest hsplit
    obtain ⟨front', back, hfound, hwidth⟩ := Text.line_of_excerpt before after hraws
    have hbuffer : d.bufferToSource ⟨depthOf d.info.config.spacing pre + i, Pos.width front⟩ =
        .ok ⟨heightOf pre + raw, Pos.width front⟩ := by
      simp only [bufferToSource, hrow, hsource, Nat.zero_add]
    refine ⟨raw + b.origin.line, Pos.width front + if raw = 0 then b.origin.column else 0,
      front' ++ l.text ++ back, front' ++ front, ?_, ?_, ?_, back, ?_⟩
    · rw [bufferToEditor, hbuffer]
      exact sourceToEditor_at hblocks hraw (Pos.width front)
    · rw [htext, hstart, Nat.add_comm raw]
      exact hfound
    · rw [Pos.width_append, hwidth, hstart, Nat.add_comm]
    · rw [hsplit]
      simp only [List.append_assoc]

/-! A text in which a pattern matches once. -/

def matchOptions : Extraction.PatternOptions := ⟨⟨"cel", "cel", false⟩, false, "b", 0, true⟩

/-- The extractor of a pattern that is a single letter. -/
def matchExtractor : Extractor where
  kind := matchOptions.kind
  exclusive := matchOptions.exclusive
  detects := (⟨#[.char 'b', .accept], []⟩ : Pattern).isMatch
  extract := fun text => .ok (Extraction.piecesFrom matchOptions.keepInHost matchOptions.group text 0
    ((⟨#[.char 'b', .accept], []⟩ : Pattern).findAll text))

def matchSession : Session where
  context := { extractors := ⟨[("python", matchExtractor)]⟩ }
  policy := {}
  root := tailRoot
  levels := 2

theorem byPattern_matchOptions : Extraction.byPattern matchOptions = .ok matchExtractor := rfl

theorem goesByPatterns_matchSession : matchSession.context.GoesByPatterns := by
  intro host
  by_cases hhost : "python" = host
  · refine ⟨[matchOptions], ?_, by simp⟩
    simp [matchSession, Registry.forHost, hhost, byPattern_matchOptions]
  · refine ⟨[], ?_, by simp⟩
    simp [matchSession, Registry.forHost, hhost]

theorem peel_matchExtractor : Fragment.peel [matchExtractor] "xb".toList =
    ([⟨⟨"cel", "cel", false⟩, ⟨⟨0, 1⟩, ⟨0, 2⟩⟩, none, ['b']⟩], .ok "xb".toList) := by
  have hfirst : Pattern.search #[.char 'b', .accept] #['x', 'b'] 0 = some ⟨1, 2, []⟩ := by
    simp [Pattern.search, Pattern.searchFrom, Pattern.explore, Pattern.successors]
  have hlast : Pattern.search #[.char 'b', .accept] #['x', 'b'] 2 = none := by
    simp [Pattern.search, Pattern.searchFrom, Pattern.explore, Pattern.successors]
  have hdetects : matchExtractor.detects "xb".toList = true := by
    simp [matchExtractor, Pattern.isMatch, Pattern.find?, hfirst]
  have hfound : (⟨#[.char 'b', .accept], []⟩ : Pattern).findAll "xb".toList = [⟨1, 2, []⟩] := by
    simp [Pattern.findAll, Pattern.searchAll, hfirst, hlast]
  have hextract : matchExtractor.extract "xb".toList = .ok
      [{ range := some ⟨⟨0, 1⟩, ⟨0, 2⟩⟩, foreign := some ['b'], host := some "xb".toList }] := by
    simp only [matchExtractor, hfound]
    rfl
  rw [Fragment.peel, if_pos hdetects, hextract]
  rfl

theorem append_matchSession :
    append matchSession.context "xb".toList "cell" Pos.origin none 1 matchSession.root.clear
        matchSession.levels =
      (appendForeign (appendText matchSession.context "cell" 1) "cell" Pos.origin
        [⟨⟨"cel", "cel", false⟩, ⟨⟨0, 1⟩, ⟨0, 2⟩⟩, none, ['b']⟩] 1 tailRoot.clear).bind
          fun foreign next e => ⟨e.push (blockOf matchSession.context.rules e.language "cell"
            Pos.origin none "xb".toList "xb".toList foreign), next, .ok ()⟩ := by
  rw [append]
  exact appendText_succ rfl peel_matchExtractor

/-- The letter that the pattern matched is one column to the right in the cell. -/
theorem bufferToEditor_same_text_match :
    ∃ d, (matchSession.update [⟨"xb".toList, "cell"⟩] 1).1.root.child? "cel" = some d ∧
      d.value.lines[0]? = some ['b'] ∧ d.bufferToEditor ⟨0, 0⟩ = .ok ⟨0, 1⟩ ∧
      ∃ line before, (Text.lines "xb".toList)[0]? = some line ∧ Pos.width before = 1 ∧
        before ++ ['b'] <+: line := by
  have hok : (matchSession.update [⟨"xb".toList, "cell"⟩] 1).2.2 = .ok () := by
    simp only [Session.update, rebuild, appendCells, append_matchSession]
    decide +kernel
  have hchild : ((matchSession.update [⟨"xb".toList, "cell"⟩] 1).1.root.child? "cel").map
      (fun c => (c.language, c.bufferLines[0]?.map (·.source), c.bufferToEditor ⟨0, 0⟩)) =
        some ("cel", some (some 0), .ok ⟨0, 1⟩) := by
    simp only [Session.update, rebuild, appendCells, append_matchSession]
    decide +kernel
  have hlines : ((matchSession.update [⟨"xb".toList, "cell"⟩] 1).1.root.child? "cel").map
      (fun c => c.value.lines) = some [['b'], []] := by
    simp only [Session.update, rebuild, appendCells, append_matchSession]
    decide +kernel
  obtain ⟨d, hd, hparts⟩ := Option.map_eq_some_iff.mp hchild
  obtain ⟨hlanguage, hparts⟩ := Prod.mk.inj hparts
  obtain ⟨hsource, hplace⟩ := Prod.mk.inj hparts
  have hvalue : d.value.lines[0]? = some ['b'] := by
    rw [hd, Option.map_some] at hlines
    rw [Option.some.inj hlines]
    rfl
  obtain ⟨row, hrow, hsource⟩ := Option.map_eq_some_iff.mp hsource
  have hrules : ∀ scope, matchSession.context.rules.book d.language scope = [] := fun _ => rfl
  have hextractors : matchSession.context.extractors.forHost d.language = [] := by
    rw [hlanguage]
    rfl
  obtain ⟨cell, hcell, _, _, text, htext, hsame⟩ := bufferToEditor_same_text
    (Reachable.root "python" _ "py" 0) goesByPatterns_matchSession (by simp)
    (Prod.ext rfl (Prod.ext rfl hok)) (Owns.child (List.mem_of_find?_eq_some hd) (Owns.self d))
    hextractors hrules hrow hsource
  obtain rfl := List.mem_singleton.mp hcell
  obtain rfl : ['b'] = text := Option.some.inj (hvalue.symm.trans htext)
  obtain ⟨l, k, line, before, hback, hline, hwidth, hbegins⟩ := hsame [] ['b'] rfl
  obtain ⟨rfl, rfl⟩ : 0 = l ∧ 1 = k := Pos.mk.inj (Except.ok.inj (hplace.symm.trans hback))
  exact ⟨d, hd, hvalue, hplace, line, before, hline, hwidth, hbegins⟩

end Polyglot
