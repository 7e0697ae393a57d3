import Polyglot.Proofs.EscapedLiterals
import Polyglot.Proofs.LiteralReports
import Polyglot.Proofs.Slots

/-!
Trees of options that were written down. A protobuf file keeps no child from one rebuild to the
next: its children are those of the literals that the text has now, one for each. So a text that was
made from some strings leaves one child for each of them, which holds the string and nothing else,
whatever the string is made of.
-/
namespace Polyglot

open Document
open Extraction.Protovalidate

section

variable {s s' : Session} {next next' : Nat} {text : Text} {editor : String}

/-- A child that is in the tree after a rebuild was chosen for a piece of code. -/
theorem id_mem_takers_of_update (honly : s.context.LiteralsOnly)
    (hreach : Reachable s.context next s.root)
    (hupdate : s.update [⟨text, editor⟩] next = (s', next', .ok ())) {x : Document}
    (hx : x ∈ s'.root.children) :
    x.id ∈ (cellTakers s.context s.levels [⟨text, editor⟩] next s.root.clear).map (·.2) := by
  obtain ⟨notices, d, happend, hroot⟩ := update_ok hupdate
  have hroster := roster_appendCells honly.siblingsApart hreach s.levels [⟨text, editor⟩]
  rw [happend] at hroster
  rw [hroot] at hx
  obtain ⟨c, hc, -, rfl⟩ := mem_children_rebuilt.mp hx
  rw [id_stayed]
  have hsteady := hroster.tended.steady
  have hmem : c ∈ d.offspring := List.mem_append_left _ hc
  by_contra huntaken
  rcases hroster.left c hmem huntaken with ⟨hparked, _⟩ | ⟨_, _, hshared⟩
  · exact hsteady.self.not_mem_parked hc hparked
  · -- nothing but standalone code is looked for, and its documents are parked in between
    have halone := standalone_of_mem_clear hshared
    rw [(kind_of_offspring honly hsteady hmem).2] at halone
    cases halone

theorem length_takers_of_update (honly : s.context.LiteralsOnly)
    (hproto : s.root.language = "proto")
    (hstops : (literals text).Pairwise (·.contents.stop ≤ ·.contents.stop))
    (hupdate : s.update [⟨text, editor⟩] next = (s', next', .ok ())) :
    (cellTakers s.context s.levels [⟨text, editor⟩] next s.root.clear).length =
      (literals text).length := by
  obtain ⟨notices, d, happend, -⟩ := update_ok hupdate
  have hkinds := congrArg List.length (cellTakers_ok happend).1
  have hlanguage : s.root.clear.language = "proto" := by
    rw [language, id_eq_of_nature_eq (nature_clear s.root)]
    exact hproto
  rw [hlanguage, honly.forHost_proto, List.length_map, List.flatMap_singleton, List.length_map,
    peel_eq hstops, List.length_map] at hkinds
  exact hkinds

theorem length_children_of_update (honly : s.context.LiteralsOnly)
    (hreach : Reachable s.context next s.root) (hproto : s.root.language = "proto")
    (hstops : (literals text).Pairwise (·.contents.stop ≤ ·.contents.stop))
    (hupdate : s.update [⟨text, editor⟩] next = (s', next', .ok ())) :
    s'.root.children.length ≤ (literals text).length := by
  have hsteady := steady_of_reachable honly.siblingsApart
    (unbroken_of_update hreach hupdate).reachable
  have hnodup : (s'.root.children.map Document.id).Nodup := by
    apply List.Nodup.of_map Identity.key
    rw [List.map_map, List.Nodup, List.pairwise_map]
    exact hsteady.self.sorted.imp fun hlt => ne_of_lt hlt
  have hsubset : s'.root.children.map Document.id ⊆
      (cellTakers s.context s.levels [⟨text, editor⟩] next s.root.clear).map (·.2) := by
    intro id hid
    obtain ⟨x, hx, rfl⟩ := List.mem_map.mp hid
    exact id_mem_takers_of_update honly hreach hupdate hx
  have hle := (List.subperm_of_subset hnodup hsubset).length_le
  rw [List.length_map, List.length_map, length_takers_of_update honly hproto hstops hupdate] at hle
  exact hle

/-- After a rebuild the children of a protobuf file are those of its literals, one for each. -/
theorem children_perm_of_update (honly : s.context.LiteralsOnly)
    (hreach : Reachable s.context next s.root) (hproto : s.root.language = "proto")
    (hstops : (literals text).Pairwise (·.contents.stop ≤ ·.contents.stop))
    (hupdate : s.update [⟨text, editor⟩] next = (s', next', .ok ())) :
    ∃ cs, s'.root.children.Perm cs ∧
      List.Forall₂ (fun l c => Houses editor (Literal.fragment text l) c) (literals text) cs := by
  obtain ⟨_, _, notes, cs, hseats, hpaths⟩ :=
    exists_seats_of_update honly hreach hproto hstops hupdate
  have hsubset : cs ⊆ s'.root.children := by
    intro c hc
    obtain ⟨i, hi, rfl⟩ := List.getElem_of_mem hc
    have hlength := hseats.children.length_eq
    exact (hseats.children.get (by omega) hi).1
  have hle := length_children_of_update honly hreach hproto hstops hupdate
  rw [hseats.houses.length_eq] at hle
  have hperm := (List.subperm_of_subset (List.Nodup.of_map _ hpaths) hsubset).perm_of_length_le hle
  exact ⟨cs, hperm.symm, hseats.houses⟩

theorem values_of_houses {ls : List Literal} {cs : List Document}
    (h : List.Forall₂ (fun l c => Houses editor (Literal.fragment text l) c) ls cs) :
    cs.map (·.value) = ls.map (·.decoded ++ ['\n']) := by
  induction h with
  | nil => rfl
  | cons hhouses _ ih =>
    rw [List.map_cons, List.map_cons, ih, hhouses.value_eq]
    rfl

end

/-- Options that were written down are read back: their literals say the texts, in order, and stand
where the escaped texts stand. A rebuild of the file succeeds wherever its children can have
addresses, and every rebuild that succeeds gives each text a child of its own. -/
theorem written_options_read_back {texts : List Text}
    (h : ∀ text ∈ texts, heads (escaped text) = []) :
    (literals (texts.flatMap written)).length = texts.length ∧
    (∀ before text behind, texts = before ++ text :: behind →
      ((literals (texts.flatMap written))[before.length]?).map
          (Literal.inBytes (texts.flatMap written)) =
        some ⟨⟨Text.bytes (before.flatMap written ++ opening),
          Text.bytes (before.flatMap written ++ opening) + Text.bytes (escaped text)⟩, text⟩) ∧
    ∀ (s : Session) (next : Nat) (editor : String), s.context.LiteralsOnly →
      Reachable s.context next s.root → s.root.language = "proto" →
      (s.root.isDisposed = false → s.root.Addressable → s.acquire = .ok () → 2 ≤ s.levels →
        ∃ s' next', s.update [⟨texts.flatMap written, editor⟩] next = (s', next', .ok ())) ∧
      ∀ s' next', s.update [⟨texts.flatMap written, editor⟩] next = (s', next', .ok ()) →
        ∃ cs, s'.root.children.Perm cs ∧ cs.map (·.value) = texts.map (· ++ ['\n']) := by
  have hliterals := literals_written h
  refine ⟨?_, ?_, ?_⟩
  · have hlength := congrArg List.length (decoded_literalsBehind [] texts)
    rw [List.length_map] at hlength
    rw [hliterals, hlength]
  · intro before text behind hsplit
    rw [hliterals, hsplit]
    exact inBytes_literalsBehind before text behind
  · intro s next editor honly hreach hproto
    have hstops : (literals (texts.flatMap written)).Pairwise
        (·.contents.stop ≤ ·.contents.stop) := by
      rw [hliterals]
      refine (pairwise_literalsBehind [] texts).imp_of_mem ?_
      intro l l' _ hl' hlt
      exact Nat.le_trans (Nat.le_of_lt hlt) (bounds_of_mem_literalsBehind hl').2
    constructor
    · intro hlive haddress hfree hlevels
      exact update_ok_of_addressable honly hreach hproto hlive haddress hfree hlevels editor hstops
    intro s' next' hupdate
    obtain ⟨cs, hperm, hhouses⟩ := children_perm_of_update honly hreach hproto hstops hupdate
    refine ⟨cs, hperm, ?_⟩
    have hvalues := values_of_houses hhouses
    rw [hliterals] at hvalues
    have hdecoded := congrArg (List.map (· ++ ['\n'])) (decoded_literalsBehind [] texts)
    rw [List.map_map] at hdecoded
    exact hvalues.trans hdecoded

/-! Texts with marks that a reader could stumble over. -/

def thornyTexts : List Text := ["\"\x7d' // é\\".toList, "\x7b\n/* '".toList, []]

theorem written_options_read_back_thorny :
    (literals (thornyTexts.flatMap written)).length = 3 ∧
    ((literals (thornyTexts.flatMap written))[1]?).map
        (Literal.inBytes (thornyTexts.flatMap written)) =
      some ⟨⟨100, 107⟩, "\x7b\n/* '".toList⟩ ∧
    ∃ s next cs, optionSession.update [⟨thornyTexts.flatMap written, "cell"⟩] 1 =
        (s, next, .ok ()) ∧ s.root.children.Perm cs ∧
      cs.map (·.value) =
        ["\"\x7d' // é\\\n".toList, "\x7b\n/* '\n".toList, "\n".toList] := by
  have hheads : ∀ text ∈ thornyTexts, heads (escaped text) = [] := by
    have hall : thornyTexts.all (fun text => (heads (escaped text)).isEmpty) = true := by
      decide +kernel
    intro text htext
    exact List.isEmpty_iff.mp (List.all_eq_true.mp hall text htext)
  obtain ⟨hlength, hplaces, htree⟩ := written_options_read_back hheads
  refine ⟨hlength, ?_, ?_⟩
  · refine (hplaces ["\"\x7d' // é\\".toList] "\x7b\n/* '".toList [[]] rfl).trans ?_
    decide +kernel
  · obtain ⟨hrebuilds, hchildren⟩ := htree optionSession 1 "cell" ⟨rfl, rfl⟩
      (Reachable.root "proto" optionUrl "proto" 0) rfl
    obtain ⟨s, next, hupdate⟩ := hrebuilds rfl addressable_optionSession rfl (Nat.le_refl 2)
    obtain ⟨cs, hperm, hvalues⟩ := hchildren s next hupdate
    exact ⟨s, next, cs, hupdate, hperm, hvalues⟩

end Polyglot
