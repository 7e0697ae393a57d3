import Polyglot.Cel.Analysis
import Polyglot.Diagnostic.MarkerStore
import Polyglot.Proofs.Addresses
import Polyglot.Proofs.Anchors
import Polyglot.Proofs.BufferRows
import Polyglot.Proofs.OffsetPlaces

/-!
Where analysis reports. An index finds the place of every byte offset in its text, also of offsets
inside a character or past the end; so what a checker reports of a buffer stays within the lines of
the buffer. The table of buffer lines has one row for each of them but the last, the separator at
its end apart, and what is reported is never behind the last line.
-/
namespace Polyglot

namespace Text

/-- A position on a line of a text, or at its end. -/
def Holds {s : Space} (text : Text) (p : Pos s) : Prop :=
  ∃ line, text.lines[p.line]? = some line ∧ p.column ≤ Pos.width line

/-- The place behind a beginning of a text is in the text. -/
theorem holds_behind {text before : Text} (h : before <+: text) : text.Holds (Pos.behind before) := by
  obtain ⟨after, rfl⟩ := h
  obtain ⟨init, last, hbefore⟩ := before.exists_lines_eq
  obtain ⟨first, rest, hafter⟩ := List.exists_cons_of_ne_nil (lines_ne_nil after)
  refine ⟨last ++ first, ?_, ?_⟩
  · rw [lines_append hbefore hafter, Pos.behind_eq hbefore]
    simp
  · rw [Pos.behind_eq hbefore, Pos.width_append]
    exact Nat.le_add_right _ _

end Text

namespace LineIndex

/-- What an index finds is in its text. -/
theorem holds_position {s : Space} (text : Text) (offset : Nat) :
    text.Holds ((ofText text).position (s := s) offset) := by
  rw [position_eq_behind]
  exact Text.holds_behind (Text.upTo_isPrefix offset text)

end LineIndex

/-! What is reported of a buffer. -/

namespace Cel

/-- Diagnostics of a source start and stop in it, whatever the checker says. -/
theorem holds_of_mem_analyzeSource {check : Checker} {source : Text} {x : Diagnostic .buffer}
    (h : x ∈ analyzeSource check source) :
    source.Holds x.range.start ∧ source.Holds x.range.stop := by
  unfold analyzeSource at h
  split at h
  · cases h
  · obtain ⟨f, -, rfl⟩ := List.mem_map.mp h
    exact ⟨LineIndex.holds_position source f.start, LineIndex.holds_position source f.stop⟩

end Cel

namespace Document

variable {context : Context} {next : Nat} {tree d : Document}

/-- A place in a buffer is not behind its table, the last separator apart. -/
theorem line_le_of_holds (hreach : Reachable context next tree) (howns : tree.Owns d)
    {p : Pos .buffer} (h : d.value.Holds p) :
    p.line ≤ d.bufferLines.length - d.info.config.spacing := by
  obtain ⟨texts, hcomposed⟩ :=
    exists_composedOf_iff.mpr (blocksMade_of_reachable hreach howns)
  obtain ⟨line, hline, -⟩ := h
  have hlt := (List.getElem?_eq_some_iff.mp hline).1
  rw [hcomposed.lines_value, List.length_append, List.length_map, List.length_take,
    List.length_singleton] at hlt
  omega

end Document

namespace Cel

/-- Analysis of a tree whose documents have different addresses reports, for every CEL document, in
the lines of its buffer; the address leads to the document, so that the batch is not rejected, and
nothing of it is stale. -/
theorem analysis_is_current {context : Context} {next : Nat} {tree : Document}
    (hreach : Document.Reachable context next tree)
    (hnodup : (tree.walk.map (·.uri.href)).Nodup) (check : Checker) {uri : Url}
    {diagnostics : List (Diagnostic .buffer)} (h : (uri, diagnostics) ∈ analyzeTree check tree) :
    ∃ d ∈ tree.walk, d.language = language ∧ tree.find? uri = some d ∧
      diagnostics = analyzeSource check d.value ∧
      (∀ x ∈ diagnostics, ∀ p ∈ [x.range.start, x.range.stop],
        p.line ≤ d.bufferLines.length - d.info.config.spacing ∧ d.value.Holds p) ∧
      (∀ {σ : Type} (renderer : Renderer σ) (a : Aggregator σ),
        (a.handle renderer tree uri diagnostics).2.rejected = false) ∧
      ∀ group ∈ Aggregator.groups diagnostics, ∀ first ∈ group, ∀ line last,
        anchor tree d first.range ≠ .error (.stale line last) := by
  obtain ⟨d, hd, heq⟩ := List.mem_map.mp h
  obtain ⟨hwalk, hlanguage⟩ := List.mem_filter.mp hd
  obtain ⟨rfl, rfl⟩ := Prod.mk.inj heq
  have hfind : tree.find? d.uri = some d := Document.find?_eq_some_of_href hwalk
    fun x hx hhref => List.inj_on_of_nodup_map hnodup hx hwalk hhref
  have hplace : ∀ x ∈ analyzeSource check d.value, ∀ p ∈ [x.range.start, x.range.stop],
      p.line ≤ d.bufferLines.length - d.info.config.spacing ∧ d.value.Holds p := by
    intro x hx p hp
    have hholds : d.value.Holds p := by
      obtain ⟨hstart, hstop⟩ := holds_of_mem_analyzeSource hx
      rcases List.mem_cons.mp hp with rfl | hp
      · exact hstart
      · exact List.mem_singleton.mp hp ▸ hstop
    exact ⟨Document.line_le_of_holds hreach (Document.owns_of_mem_walk hwalk) hholds, hholds⟩
  refine ⟨d, hwalk, by simpa using hlanguage, hfind, rfl, hplace, ?_, ?_⟩
  · intro σ renderer a
    simp only [Aggregator.handle, hfind]
  · intro group hgroup first hfirst
    have hmem := (Aggregator.mem_groups hgroup hfirst).1
    exact anchor_ne_stale (hplace first hmem first.range.start List.mem_cons_self).1

/-- A checker that finds fault with every source, from inside its first character to far behind its
end. -/
def strayCheck : Checker := fun _ => { syntactic := [⟨1, 100, "unexpected", none⟩] }

/-- The tree of a text whose second line is a document of one character of two bytes. -/
def accentTree : Document :=
  (Document.appendText Document.tailContext "cell" 2 Pos.origin none "x\né".toList 1
    Document.tailRoot).document

/-- The fault starts at the character and stops on the empty line behind it, which is the last that
is not stale. -/
theorem analysis_is_current_accent : ∃ uri diagnostics d,
    (uri, diagnostics) ∈ analyzeTree strayCheck accentTree ∧
      diagnostics.map (·.range) = [⟨⟨0, 0⟩, ⟨1, 0⟩⟩] ∧
      accentTree.find? uri = some d ∧ d.idPath = "python-1(cel)" ∧
      d.bufferLines.length - d.info.config.spacing = 1 ∧
      (({ drawing := {} } : Aggregator MarkerStore).handle MarkerStore.renderer accentTree uri
        diagnostics).2.rejected = false ∧
      ∀ group ∈ Aggregator.groups diagnostics, ∀ first ∈ group, ∀ line last,
        anchor accentTree d first.range ≠ .error (.stale line last) := by
  have hreach : Document.Reachable Document.tailContext _ accentTree :=
    Document.Reachable.append 2 "x\né".toList "cell" Pos.origin none
      (Document.Reachable.root _ _ _ 0)
  have hreport : (analyzeTree strayCheck accentTree).map (fun entry => entry.2.map (·.range)) =
      [[⟨⟨0, 0⟩, ⟨1, 0⟩⟩]] := by decide +kernel
  have hfaces : accentTree.walk.map (fun d =>
      (d.language, d.idPath, d.bufferLines.length - d.info.config.spacing)) =
        [("python", "python", 1), ("cel", "python-1(cel)", 1)] := by decide +kernel
  obtain ⟨⟨uri, diagnostics⟩, hentry, hrange⟩ := List.map_eq_singleton_iff.mp hreport
  have hmem : (uri, diagnostics) ∈ analyzeTree strayCheck accentTree := by
    rw [hentry]
    exact List.mem_singleton_self _
  obtain ⟨d, hd, hcel, hfind, -, -, hrejected, hfresh⟩ :=
    analysis_is_current hreach (by decide +kernel) strayCheck hmem
  have hface := List.mem_map_of_mem (f := fun d : Document =>
    (d.language, d.idPath, d.bufferLines.length - d.info.config.spacing)) hd
  rw [hfaces, hcel] at hface
  have hlast : d.idPath = "python-1(cel)" ∧ d.bufferLines.length - d.info.config.spacing = 1 := by
    simpa [language] using hface
  exact ⟨uri, diagnostics, d, hmem, hrange, hfind, hlast.1, hlast.2, hrejected _ _, hfresh⟩

end Cel

end Polyglot
