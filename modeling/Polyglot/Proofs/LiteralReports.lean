import Polyglot.Proofs.Addresses
import Polyglot.Proofs.LiteralTrees
import Polyglot.Proofs.SnippetReports

/-!
Reports on literals. What the document of a literal reports of its first line is shown in the
literal, as many columns behind its first character. Escapes only take columns away, so that the
place is still in the literal. Both ends of a range belong to it, and the first range around a place
wins: where a literal starts right where another one stops, the place in front of its first
character belongs to the other one. Main statement: this is the only way in which such a report is
lost.
-/
namespace Polyglot

open Extraction.Protovalidate (literals Literal Spells)

/-! Places in literals. -/

namespace Extraction.Protovalidate

theorem units_decodeEscape_le (e : Char) : Pos.units (decodeEscape e) ≤ Pos.units e := by
  unfold decodeEscape
  split
  · decide
  · decide
  · decide
  · decide
  · exact Nat.le_refl _

/-- The first line of what a literal says is no longer than its own first line. -/
theorem Spells.width_le {quote : Char} {raw decoded : Text} (h : Spells quote raw decoded) :
    Pos.width (decoded.takeWhile (· ≠ '\n')) ≤ Pos.width (raw.takeWhile (· ≠ '\n')) := by
  induction h with
  | nil => exact Nat.le_refl _
  | @escape e raw decoded _ ih =>
    by_cases hline : e = '\n'
    · subst hline
      exact Nat.zero_le _
    · have hunits := units_decodeEscape_le e
      have hraw : ('\\' :: e :: raw).takeWhile (· ≠ '\n') =
          '\\' :: e :: raw.takeWhile (· ≠ '\n') := by
        rw [List.takeWhile_cons_of_pos (by decide), List.takeWhile_cons_of_pos (by simp [hline])]
      rw [hraw, List.takeWhile_cons]
      split
      · simp only [Pos.width]
        omega
      · exact Nat.zero_le _
  | @plain c raw decoded _ hline _ _ ih =>
    rw [List.takeWhile_cons_of_pos (by simp [hline]), List.takeWhile_cons_of_pos (by simp [hline])]
    simp only [Pos.width]
    omega

namespace Literal

/-- The place some columns behind the start of a literal. -/
def place (text : Text) (l : Literal) (column : Nat) : Pos .text :=
  ⟨(Pos.behind (text.take l.contents.start)).line,
    (Pos.behind (text.take l.contents.start)).column + column⟩

/-- A place on the first line of a literal. -/
def OnFirstLine (l : Literal) (column : Nat) : Prop :=
  column ≤ Pos.width (l.decoded.takeWhile (· ≠ '\n'))

variable {text : Text} {l l' : Literal} {column : Nat}

theorem range_eq (text : Text) (l : Literal) : (l.fragment text).range =
    ⟨Pos.behind (text.take l.contents.start), Pos.behind (text.take l.contents.stop)⟩ := rfl

theorem start_before_place (text : Text) (l : Literal) (column : Nat) :
    (Pos.behind (text.take l.contents.start)).before (l.place text column) = true := by
  simp [Pos.before, place]

/-- A place on the first line lies in the literal. -/
theorem contains_place (hl : l ∈ literals text) (hcolumn : l.OnFirstLine column) :
    (l.fragment text).range.contains (l.place text column) = true := by
  obtain ⟨pre, key, quote, raw, post, hstands⟩ := stands_of_mem_literals hl
  have hwidth := Nat.le_trans hcolumn hstands.spells.width_le
  have hstop : text.take l.contents.stop = text.take l.contents.start ++ raw := by
    rw [← hstands.slice_eq, Text.take_append_slice _ (by rw [hstands.stop_eq]; omega)]
  rw [Range.contains_iff, range_eq]
  refine ⟨start_before_place text l column, ?_⟩
  rw [hstop, Pos.behind_append]
  by_cases hline : '\n' ∈ raw
  · -- the literal goes on in the next line
    have hcount : 0 < (Pos.behind raw).line := by
      rw [Pos.line_behind]
      exact List.count_pos_iff.mpr hline
    rw [Pos.before_eq_true]
    simp only [place]
    omega
  · have hwhole : raw.takeWhile (· ≠ '\n') = raw := by
      rw [List.takeWhile_eq_self_iff]
      intro c hc
      simp only [ne_eq, decide_not, Bool.not_eq_true', decide_eq_false_iff_not]
      rintro rfl
      exact hline hc
    have hraw : Pos.behind raw = ⟨0, Pos.width raw⟩ :=
      @Pos.behind_eq raw raw [] (Text.lines_eq_singleton hline)
    rw [hwhole] at hwidth
    rw [Pos.before_eq_true]
    simp only [place, hraw, if_true]
    omega

/-- Of an earlier literal only the stop can be a place of a later one, and then it is the place in
front of its first character. -/
theorem contains_place_iff (hl : l ∈ literals text) (hl' : l' ∈ literals text)
    (hapart : l'.contents.stop ≤ l.contents.start) :
    (l'.fragment text).range.contains (l.place text column) = true ↔
      column = 0 ∧ l'.contents.stop = l.contents.start := by
  obtain ⟨_, _, _, _, _, hstands⟩ := stands_of_mem_literals hl
  obtain ⟨_, _, _, _, _, hstands'⟩ := stands_of_mem_literals hl'
  have hlt := hstands.stop_lt
  have hstop := hstands.stop_eq
  have hstop' := hstands'.stop_eq
  rw [Range.contains_iff]
  simp only [range_eq]
  constructor
  · rintro ⟨-, hbefore⟩
    have hstart : (Pos.behind (text.take l.contents.start)).before
        (Pos.behind (text.take l'.contents.stop)) = true := by
      have hplace := start_before_place text l column
      rw [Pos.before_eq_true] at hbefore hplace ⊢
      omega
    rw [Pos.before_take_iff] at hstart
    have hsame : l'.contents.stop = l.contents.start := by omega
    refine ⟨?_, hsame⟩
    rw [hsame, Pos.before_eq_true] at hbefore
    simp only [place] at hbefore
    omega
  · rintro ⟨rfl, hsame⟩
    have hplace : l.place text 0 = Pos.behind (text.take l.contents.start) := rfl
    rw [hplace, Pos.before_take_iff, Pos.before_take_iff]
    omega

/-- No other literal stops where this one starts, or the place is not in front of it. -/
def Clear (text : Text) (l : Literal) (column : Nat) : Prop :=
  column = 0 → ∀ l' ∈ literals text, l'.contents.stop = l.contents.start → l' = l

section

variable (hapart : (literals text).Pairwise (·.contents.stop ≤ ·.contents.start)) {i j : Nat}
  (hi : (literals text)[i]? = some l)

include hapart hi

/-- The first literal around a clear place is the literal itself. -/
theorem findIdx?_of_clear (hcolumn : l.OnFirstLine column) (hclear : l.Clear text column) :
    (literals text).findIdx? (fun l' => (l'.fragment text).range.contains (l.place text column)) =
      some i := by
  obtain ⟨hlt, rfl⟩ := List.getElem?_eq_some_iff.mp hi
  have hl := List.getElem_mem hlt
  rw [List.findIdx?_eq_some_iff_getElem]
  refine ⟨hlt, contains_place hl hcolumn, ?_⟩
  intro k hk hcontains
  have hlt' : k < (literals text).length := by omega
  have hstop := List.pairwise_iff_getElem.mp hapart k i hlt' hlt hk
  have hstart := List.pairwise_iff_getElem.mp (pairwise_literals text) k i hlt' hlt hk
  obtain ⟨hzero, hmeet⟩ := (contains_place_iff hl (List.getElem_mem hlt') hstop).mp hcontains
  have hsame := hclear hzero _ (List.getElem_mem hlt') hmeet
  rw [hsame] at hstart
  omega

/-- The place in front of a literal belongs to the literal that stops there. -/
theorem findIdx?_of_meets (hj : (literals text)[j]? = some l')
    (hmeet : l'.contents.stop = l.contents.start) (hne : l' ≠ l) :
    (literals text).findIdx? (fun l' => (l'.fragment text).range.contains (l.place text 0)) =
      some j := by
  obtain ⟨hlt, rfl⟩ := List.getElem?_eq_some_iff.mp hi
  obtain ⟨hlt', rfl⟩ := List.getElem?_eq_some_iff.mp hj
  have hl := List.getElem_mem hlt
  have hl' := List.getElem_mem hlt'
  have hstarts := List.pairwise_iff_getElem.mp (pairwise_literals text)
  have hstops := List.pairwise_iff_getElem.mp hapart
  have hji : j < i := by
    rcases Nat.lt_trichotomy i j with hlater | rfl | hearlier
    · obtain ⟨_, _, _, _, _, hstands⟩ := stands_of_mem_literals hl
      obtain ⟨_, _, _, _, _, hstands'⟩ := stands_of_mem_literals hl'
      have hbetween := hstarts i j hlt hlt' hlater
      have hbehind := hstands'.stop_eq
      omega
    · exact absurd rfl hne
    · exact hearlier
  have hbefore := hstarts j i hlt' hlt hji
  rw [List.findIdx?_eq_some_iff_getElem]
  refine ⟨hlt', ?_, ?_⟩
  · exact (contains_place_iff hl hl' (hstops j i hlt' hlt hji)).mpr ⟨rfl, hmeet⟩
  · intro k hk hcontains
    have hltk : k < (literals text).length := by omega
    have hki := hstops k i hltk hlt (by omega)
    have hkj := hstops k j hltk hlt' hk
    obtain ⟨-, hsame⟩ := (contains_place_iff hl (List.getElem_mem hltk) hki).mp hcontains
    omega

end

end Literal

end Extraction.Protovalidate

namespace Document

/-! The owner of a place. -/

section

variable {context : Context} {next : Nat} {editor : String} {text : Text} {root : Document}
  {pre post : List Block} {notes : List (Range .text × ForeignBlock)} {cs : List Document}

/-- A place in a cell belongs to the document of the first literal around it. -/
theorem Seats.documentAt_eq (h : Seats editor text root pre post notes cs)
    (hroot : root.Steady context next) {place : Pos .text} (hline : place.line < text.lines.length)
    {j : Nat} {c : Document} (hc : cs[j]? = some c)
    (hfirst : (literals text).findIdx? (fun l => (l.fragment text).range.contains place) =
      some j) :
    documentAt ⟨heightOf pre + place.line, place.column⟩ root = c := by
  have hrow := sourceTable_at root.info.config.spacing pre
    (blockOf {} "proto" editor Pos.origin none text text notes) post hline
  rw [← h.blocks] at hrow
  -- every note has a child, so that only the ranges matter
  have hknown : ∀ (l : Literal) (note : Range .text × ForeignBlock),
      (note.1 = (Literal.fragment text l).range ∧
        ∃ c ∈ root.children, c.key = note.2.document) →
      (l.fragment text).range.contains place =
        (note.1.contains place && root.children.any (·.key = note.2.document)) := by
    intro l note hnote
    obtain ⟨hrange, c, hc, hkey⟩ := hnote
    rw [hrange, List.any_eq_true.mpr ⟨c, hc, by simpa using hkey⟩, Bool.and_true]
  have hfind := find?_of_forall₂ h.noted hknown
  rw [hfirst, Option.bind_some] at hfind
  obtain ⟨note, hnote, hmem, hkey⟩ := exists_getElem?_of_forall₂ h.children.flip hc
  rw [hnote] at hfind
  have hchild : root.child? note.2.document = some c := by
    rw [child?, ← hkey]
    exact hroot.self.sorted.find?_eq_some hmem
  obtain ⟨l, _, hhouses⟩ := exists_getElem?_of_forall₂ h.houses.flip hc
  have henters := documentAt_enters (p := ⟨heightOf pre + place.line, place.column⟩) hrow
    (descent?_of_find? rfl hfind) hchild
  exact henters.trans (documentAt_leaf hhouses.leaf _)

/-! The buffer of a literal. -/

theorem Houses.plain {f : Fragment} {c : Document} (h : Houses editor f c) :
    ∃ b, c.info.blocks = [b] ∧ b.Plain f.text ∧ b.editor = editor ∧
      b.origin = foreignOrigin Pos.origin f.range := by
  refine ⟨_, h.blocks, ⟨?_, rfl⟩, rfl, ?_⟩
  · exact prepareLines_nil f.text
  · rfl

theorem Houses.value_eq {f : Fragment} {c : Document} (h : Houses editor f c) :
    c.value = f.text ++ ['\n'] := by
  obtain ⟨b, hblocks, hplain, _, _⟩ := h.plain
  rw [← hplain.text_eq, value, hblocks]
  simp [bufferText]

/-- A report on the first line of a literal starts in the literal. -/
theorem Houses.grounded {l : Literal} {c : Document} (h : Houses editor (l.fragment text) c)
    {range : Range .buffer} {column : Nat} (hstart : range.start = ⟨0, column⟩)
    {source : Pos .source}
    (hsource : root.editorToSource editor ⟨(l.place text column).line,
      (l.place text column).column⟩ = .ok source) :
    Grounded root c range editor ⟨(l.place text column).line, (l.place text column).column⟩ source ∧
      c.silences range.start.line c.idPath = false := by
  obtain ⟨b, hblocks, hplain, heditor, horigin⟩ := h.plain
  obtain ⟨hlies, hsilent, hfresh⟩ := @lies_of_plain c [] [] b _ hblocks hplain 0
    (List.length_pos_of_ne_nil (Text.lines_ne_nil _)) column
  rw [depthOf, Nat.add_zero] at hlies hsilent hfresh
  have hplace : editorPlace b 0 column =
      ⟨(l.place text column).line, (l.place text column).column⟩ := by
    simp only [editorPlace, horigin, foreignOrigin, Pos.origin, ite_self, if_true, Nat.zero_add]
    rw [Literal.range_eq, Nat.add_comm]
    rfl
  rw [← hstart] at hlies
  refine ⟨⟨?_, ?_, ?_, hsource⟩, ?_⟩
  · rw [hstart]
    exact hfresh
  · rw [← heditor]
    exact hlies.editorOfBufferLine_eq
  · rw [hlies.bufferToEditor_eq, ← hplace, hstart]
  · rw [hstart]
    exact hsilent

end

end Document

open Document

section

variable {s : Session} {next : Nat} {text : Text}

/-- Where a report on the first line of a literal is anchored, and which document covers it if it is
not. -/
theorem anchor_of_seats (honly : s.context.LiteralsOnly) (hreach : Reachable s.context next s.root)
    {editor : String} (hapart : (literals text).Pairwise (·.contents.stop ≤ ·.contents.start))
    {s' : Session} {next' : Nat} (hupdate : s.update [⟨text, editor⟩] next = (s', next', .ok ()))
    {pre post : List Block} {notes : List (Range .text × ForeignBlock)} {cs : List Document}
    (hseats : Seats editor text s'.root pre post notes cs) (hpaths : (cs.map (·.idPath)).Nodup)
    {i : Nat} {l : Literal} {c : Document} (hl : (literals text)[i]? = some l)
    (hc : cs[i]? = some c) {range : Range .buffer} {column : Nat}
    (hstart : range.start = ⟨0, column⟩) (hcolumn : l.OnFirstLine column) :
    (l.Clear text column → ∃ stop, anchor s'.root c range =
      .ok (editor, ⟨⟨(l.place text column).line, (l.place text column).column⟩, stop⟩)) ∧
    ∀ (j : Nat) (l' : Literal) (c' : Document), (literals text)[j]? = some l' →
      cs[j]? = some c' → column = 0 → l'.contents.stop = l.contents.start → l' ≠ l →
        anchor s'.root c range = .error (.covered c'.uri) := by
  have hroot := steady_of_reachable honly.siblingsApart
    (unbroken_of_update hreach hupdate).reachable
  have hline : (l.place text column).line < text.lines.length :=
    Pos.line_behind_take_lt text l.contents.start
  obtain ⟨pre', b, post', hblocks, hb, hsource⟩ := editorToSource_of_becomes
    (becomes_of_update hupdate) (by simp) (List.mem_singleton_self _)
    (p := ⟨(l.place text column).line, (l.place text column).column⟩) hline
  have hpre : pre' = pre := by
    have hlength := (becomes_of_update hupdate).length_eq
    have hone := congrArg List.length hseats.blocks
    have hone' := congrArg List.length hblocks
    simp only [List.length_append, List.length_cons, List.length_nil] at hlength hone hone'
    rw [List.length_eq_zero_iff.mp (show pre.length = 0 by omega),
      List.length_eq_zero_iff.mp (show pre'.length = 0 by omega)]
  rw [hpre] at hsource
  obtain ⟨l₀, hl₀, hhouses⟩ := exists_getElem?_of_forall₂ hseats.houses.flip hc
  obtain rfl := Option.some.inj (hl.symm.trans hl₀)
  obtain ⟨hground, hsilent⟩ := hhouses.grounded hstart hsource
  refine ⟨?_, ?_⟩
  · intro hclear
    have howner := hseats.documentAt_eq hroot hline hc
      (Literal.findIdx?_of_clear hapart hl hcolumn hclear)
    rw [hground.anchor_eq, howner, if_neg (not_not.mpr rfl), hsilent]
    exact ⟨_, rfl⟩
  · rintro j l' c' hl' hc' rfl hmeet hne
    have howner := hseats.documentAt_eq hroot hline hc'
      (Literal.findIdx?_of_meets hapart hl hl' hmeet hne)
    have hpath : c'.idPath ≠ c.idPath := by
      intro hsame
      have hlt : j < (cs.map (·.idPath)).length := by
        rw [List.length_map]
        exact (List.getElem?_eq_some_iff.mp hc').1
      obtain rfl : j = i := by
        refine (List.getElem?_inj hlt hpaths).mp ?_
        rw [List.getElem?_map, List.getElem?_map, hc, hc', Option.map_some, Option.map_some, hsame]
      exact hne (Option.some.inj (hl'.symm.trans hl))
    rw [hground.anchor_eq, howner, if_pos hpath]

/-- Under a protobuf file whose literals do not overlap, a rebuild succeeds wherever its children
can have addresses. Every rebuild that succeeds gives each literal a child of its own, which holds
what the literal says. What the child reports on its first line is shown in the literal, as many
columns behind its start, if and only if this is not the start of the literal, or no other literal
stops there; otherwise the document of that literal covers it. -/
theorem literal_report_shown_iff (honly : s.context.LiteralsOnly)
    (hreach : Reachable s.context next s.root) (hproto : s.root.language = "proto")
    (editor : String)
    (hapart : (literals text).Pairwise (·.contents.stop ≤ ·.contents.start)) :
    (s.root.isDisposed = false → s.root.Addressable → s.acquire = .ok () → 2 ≤ s.levels →
      ∃ s' next', s.update [⟨text, editor⟩] next = (s', next', .ok ())) ∧
    ∀ s' next', s.update [⟨text, editor⟩] next = (s', next', .ok ()) →
    ∃ cs, (cs.map (·.idPath)).Nodup ∧ (∀ c ∈ cs, c ∈ s'.root.children) ∧
      List.Forall₂ (fun l c => c.value = l.decoded ++ ['\n']) (literals text) cs ∧
      ∀ (i : Nat) (l : Literal) (c : Document), (literals text)[i]? = some l → cs[i]? = some c →
        ∀ {σ : Type} {renderer : Renderer σ}, renderer.Accepts →
        ∀ {target : Url}, s'.root.find? target = some c →
        ∀ {diagnostics : List (Diagnostic .buffer)} {x : Diagnostic .buffer}, x ∈ diagnostics →
        ∀ {column : Nat}, x.range.start = ⟨0, column⟩ → l.OnFirstLine column →
        ∀ a : Aggregator σ, ∃ placed,
          (a.handle renderer s'.root target diagnostics).1.placedOf target = some placed ∧
          ((∃ p ∈ placed, p.diagnostic = x ∧ p.editor = editor ∧
            p.range.start = ⟨(l.place text column).line, (l.place text column).column⟩) ↔
              l.Clear text column) ∧
          ∀ (j : Nat) (l' : Literal) (c' : Document), (literals text)[j]? = some l' →
            cs[j]? = some c' → column = 0 → l'.contents.stop = l.contents.start → l' ≠ l →
              anchor s'.root c x.range = .error (.covered c'.uri) ∧
                ∀ p ∈ placed, p.diagnostic ≠ x := by
  have hstops : (literals text).Pairwise (·.contents.stop ≤ ·.contents.stop) := by
    refine hapart.imp_of_mem ?_
    intro l l' _ hl' hle
    obtain ⟨_, _, _, _, _, hstands⟩ :=
      Extraction.Protovalidate.stands_of_mem_literals hl'
    have hstop := hstands.stop_eq
    omega
  constructor
  · intro hlive haddress hfree hlevels
    exact update_ok_of_addressable honly hreach hproto hlive haddress hfree hlevels editor hstops
  intro s' next' hupdate
  obtain ⟨pre, post, notes, cs, hseats, hpaths⟩ := exists_seats_of_update honly hreach hproto hstops
    hupdate
  refine ⟨cs, hpaths, ?_, ?_, ?_⟩
  · intro c hc
    obtain ⟨i, hi⟩ := List.mem_iff_getElem?.mp hc
    obtain ⟨note, _, hchild, _⟩ := exists_getElem?_of_forall₂ hseats.children.flip hi
    exact hchild
  · exact hseats.houses.imp fun l c hhouses => hhouses.value_eq
  · intro i l c hl hc σ renderer haccepts target hfind diagnostics x hx column hstart hcolumn a
    obtain ⟨placed, hplaced, hfrom, hall⟩ :=
      Aggregator.placedOf_handle renderer hfind diagnostics a
    obtain ⟨hshown, hcovered⟩ := anchor_of_seats honly hreach hapart hupdate hseats hpaths hl hc
      hstart hcolumn
    have hlost : ∀ {e}, anchor s'.root c x.range = .error e → ∀ p ∈ placed, p.diagnostic ≠ x := by
      rintro e herror p hp rfl
      rw [(hfrom p hp).2] at herror
      cases herror
    refine ⟨placed, hplaced, ⟨?_, ?_⟩, ?_⟩
    · rintro ⟨p, hp, hsame, -, -⟩ hzero l' hl' hmeet
      by_contra hne
      obtain ⟨j, hj⟩ := List.mem_iff_getElem?.mp hl'
      obtain ⟨c', hc', _⟩ := exists_getElem?_of_forall₂ hseats.houses hj
      exact hlost (hcovered j l' c' hj hc' hzero hmeet hne) p hp hsame
    · intro hclear
      obtain ⟨stop, hanchor⟩ := hshown hclear
      exact ⟨⟨x, editor, _⟩, hall haccepts _ hx hanchor, rfl, rfl, rfl⟩
    · intro j l' c' hl' hc' hzero hmeet hne
      have herror := hcovered j l' c' hl' hc' hzero hmeet hne
      exact ⟨herror, hlost herror⟩

end

/-! Options in a file. -/

def optionUrl : Url := { scheme := "file", host := some "", path := "/a.proto" }

def optionSession : Session where
  context := { extractors := ⟨[("proto", Extraction.Protovalidate.extractor)]⟩ }
  policy := {}
  root := Document.root {} "proto" optionUrl "proto" 0
  levels := 2

theorem addressable_optionSession : optionSession.root.Addressable := by
  have hsettled : optionUrl.Settled :=
    @Url.settled_of_parse "file:///a.proto" optionUrl (by decide +kernel)
  intro number
  have huri := childUri_celPath_eq optionUrl number
  rcases parse_celEnding hsettled (by decide +kernel) with ⟨e, hnone⟩ | ⟨front, hsome⟩
  · have hfirst : (Url.parse (optionUrl.href ++ String.ofList (celEnding 1))).isOk = true := by
      decide +kernel
    rw [hnone 1] at hfirst
    cases hfirst
  · obtain ⟨uri, hparse, -⟩ := hsome number
    exact ⟨uri, huri.trans hparse⟩

/-- The root gets the literals as its foreign code. -/
theorem append_optionSession {text : Text} {ls : List Literal} (hls : literals text = ls)
    (hstops : ls.Pairwise (·.contents.stop ≤ ·.contents.stop)) :
    append optionSession.context text "cell" Pos.origin none 1 optionSession.root.clear
        optionSession.levels =
      (appendForeign (appendText optionSession.context "cell" 1) "cell" Pos.origin
        (ls.map (Literal.fragment text)) 1 optionSession.root.clear).bind
          fun foreign next e => ⟨e.push (blockOf optionSession.context.rules e.language "cell"
            Pos.origin none text text foreign), next, .ok ()⟩ := by
  subst hls
  rw [append]
  exact appendText_succ rfl (Extraction.Protovalidate.peel_eq hstops)

def letterOption : Text := "(buf.validate.field).cel=\x7bexpression:\"a\"\x7d".toList

theorem literals_letterOption : literals letterOption = [⟨⟨38, 39⟩, ['a']⟩] := by
  refine Extraction.Protovalidate.literals_eq_of_pairwise ?_ (List.pairwise_singleton _ _)
  decide +kernel

theorem literal_report_shown_iff_letter :
    ∃ s next c, optionSession.update [⟨letterOption, "cell"⟩] 1 = (s, next, .ok ()) ∧
      c ∈ s.root.children ∧ c.value = "a\n".toList ∧
      ∃ placed, (({ drawing := {} } : Aggregator MarkerStore).handle MarkerStore.renderer s.root
        c.uri [letterReport]).1.placedOf c.uri = some placed ∧
        ∃ p ∈ placed, p.diagnostic = letterReport ∧ p.editor = "cell" ∧
          p.range.start = ⟨0, 38⟩ := by
  have hapart : (literals letterOption).Pairwise (·.contents.stop ≤ ·.contents.start) := by
    rw [literals_letterOption]
    exact List.pairwise_singleton _ _
  obtain ⟨hrebuilds, hshown⟩ := literal_report_shown_iff (s := optionSession) ⟨rfl, rfl⟩
    (Reachable.root "proto" optionUrl "proto" 0) rfl "cell" hapart
  obtain ⟨s, next, hupdate⟩ := hrebuilds rfl addressable_optionSession rfl (Nat.le_refl 2)
  obtain ⟨cs, -, hchildren, hvalues, hreports⟩ := hshown s next hupdate
  rw [literals_letterOption, List.forall₂_cons_left_iff] at hvalues
  obtain ⟨c, _, hvalue, -, rfl⟩ := hvalues
  have hchild := hchildren c List.mem_cons_self
  have hroot : s.root = (optionSession.update [⟨letterOption, "cell"⟩] 1).1.root := by rw [hupdate]
  have hwalk : s.root.walk.map (·.uri.href) =
      ["file:///a.proto", "file:///a.proto.proto-1(cel).cel"] := by
    simp only [hroot, Session.update, rebuild, appendCells,
      append_optionSession literals_letterOption (List.pairwise_singleton _ _)]
    decide +kernel
  have hapartUris : (s.root.walk.map (·.uri.href)).Nodup := by
    rw [hwalk]
    decide
  have hmem : c ∈ s.root.walk := by
    cases hnode : s.root with
    | node info children parked =>
      rw [hnode] at hchild
      rw [walk, walkAll_eq]
      exact List.mem_cons_of_mem _ (List.mem_flatMap.mpr ⟨c, hchild, by cases c; simp [walk]⟩)
  have hfind : s.root.find? c.uri = some c := by
    refine find?_eq_some_of_href hmem ?_
    intro x hx hhref
    exact List.inj_on_of_nodup_map hapartUris hx hmem hhref
  obtain ⟨placed, hplaced, hiff, -⟩ := hreports 0 _ c (by rw [literals_letterOption]; rfl) rfl
    MarkerStore.accepts_renderer hfind (List.mem_singleton_self letterReport) rfl (Nat.zero_le _)
    { drawing := {} }
  refine ⟨s, next, c, hupdate, hchild, hvalue, placed, hplaced, hiff.mpr ?_⟩
  intro _ l' hl' _
  rw [literals_letterOption] at hl'
  exact List.mem_singleton.mp hl'

/-- The first literal stops at the quote with which the second one starts. -/
def touchingOptions : Text :=
  "(buf.validate.field).cel=\x7bexpression:\"".toList ++
    "(buf.validate.field).cel=\x7bexpression:'\"\x7d'\x7d".toList

theorem literals_touchingOptions : literals touchingOptions =
    [⟨⟨38, 76⟩, "(buf.validate.field).cel=\x7bexpression:'".toList⟩,
      ⟨⟨76, 78⟩, "\"\x7d".toList⟩] := by
  refine Extraction.Protovalidate.literals_eq_of_pairwise ?_ ?_
  · decide +kernel
  · rw [List.pairwise_pair]
    decide

def touchingRoot : Document := (optionSession.update [⟨touchingOptions, "cell"⟩] 1).1.root

def touchingUrl : Url := { scheme := "file", host := some "", path := "/a.proto.proto-2(cel).cel" }

/-- The literals do not overlap, but the place in front of the second one belongs to the document of
the first one, and what the document of the second literal says of it is lost. -/
theorem report_on_touching_literal_lost :
    (literals touchingOptions).Pairwise (·.contents.stop ≤ ·.contents.start) ∧
    (optionSession.update [⟨touchingOptions, "cell"⟩] 1).2.2 = .ok () ∧
    (touchingRoot.find? touchingUrl).map (fun d => (d.value, d.idPath,
      d.bufferToEditor letterReport.range.start)) =
        some ("\"\x7d\n".toList, "proto-2(cel)", .ok ⟨0, 76⟩) ∧
    (documentAt ⟨0, 76⟩ touchingRoot).idPath = "proto-1(cel)" ∧
    (({ drawing := {} } : Aggregator MarkerStore).handle MarkerStore.renderer touchingRoot
      touchingUrl [letterReport]).1.placedOf touchingUrl = some [] ∧
    (({ drawing := {} } : Aggregator MarkerStore).handle MarkerStore.renderer touchingRoot
      touchingUrl [letterReport]).2 = { discarded := 1 } := by
  refine ⟨?_, ?_⟩
  · rw [literals_touchingOptions, List.pairwise_pair]
  · have happend := append_optionSession literals_touchingOptions
      (List.pairwise_pair.mpr (by decide))
    simp only [Aggregator.handle, Aggregator.groups_singleton, touchingRoot, Session.update,
      rebuild, appendCells, happend]
    decide +kernel

end Polyglot
