import Polyglot.Proofs.BufferRows
import Polyglot.Proofs.PlacedRanges

/-!
The characters of a buffer. All that is put between blocks is line feeds, so that every other
character of a buffer is one of a block; and in a block that no rule touched it is a character of
the text that the block holds, on the line that stands for its line there.
-/
namespace Polyglot

namespace Text

theorem unlines_lines (text : Text) : unlines text.lines = text := by
  rw [lines_eq_splitOn]
  exact List.intercalate_splitOn '\n'

/-- A character of two texts is a character of one of them. -/
theorem append_eq_append_cons {s t u v : Text} {c : Char} (h : s ++ t = u ++ c :: v) :
    (∃ w, s = u ++ c :: w) ∨ ∃ w, u = s ++ w ∧ t = w ++ c :: v := by
  rcases List.append_eq_append_iff.mp h with ⟨w, hu, ht⟩ | ⟨w, hs, hv⟩
  · exact Or.inr ⟨w, hu, ht⟩
  · cases w with
    | nil => exact Or.inr ⟨[], by simpa using hs.symm, by simpa using hv.symm⟩
    | cons x w =>
      obtain ⟨rfl, -⟩ := List.cons.inj hv
      exact Or.inl ⟨w, hs⟩

end Text

theorem flatten_mapIdx_map {α β γ : Type} {l : List α} {e : α → β} {f : Nat → β → List γ}
    {g : Nat → α → γ} (h : ∀ i, ∀ a ∈ l, f i (e a) = [g i a]) :
    ((l.map e).mapIdx f).flatten = l.mapIdx g := by
  induction l generalizing f g with
  | nil => rfl
  | cons a rest ih =>
    rw [List.map_cons, List.mapIdx_cons, List.mapIdx_cons, List.flatten_cons,
      h 0 a List.mem_cons_self, ih fun i x hx => h (i + 1) x (List.mem_cons_of_mem a hx)]
    rfl

/-- Without rules every line stands for itself. -/
theorem prepareLines_nil (code : Text) :
    prepareLines [] [] code = code.lines.mapIdx fun i line => ⟨line, false, some i⟩ := by
  have hlines : RuleBook.substituteLines [] code.lines = code.lines.map (·, false) := rfl
  rw [prepareLines, show RuleBook.substitute? [] code = none from rfl, hlines]
  refine flatten_mapIdx_map ?_
  intro i line hline
  simp only [Text.lines_eq_singleton (Text.not_mem_of_mem_lines hline)]
  rfl

namespace Block

/-- A block that holds a text as it is. -/
structure Plain (b : Block) (text : Text) : Prop where
  lines_eq : b.lines = text.lines.mapIdx fun i line => ⟨line, false, some i⟩
  height_eq : b.height = text.lines.length

variable {b : Block} {text : Text}

theorem Plain.text_eq (h : b.Plain text) : b.text = text ++ ['\n'] := by
  have hlines : b.lines.map (·.text) = text.lines := by
    rw [h.lines_eq]
    apply List.ext_getElem?
    intro i
    rw [List.getElem?_map, List.getElem?_mapIdx, Option.map_map]
    exact Option.map_id'
  rw [Block.text, hlines, Text.unlines_lines]

theorem Plain.lined (h : b.Plain text) : b.Lined := by
  constructor
  · rw [h.lines_eq]
    simpa using text.lines_ne_nil
  · rw [h.lines_eq]
    intro l hl
    obtain ⟨i, hi, rfl⟩ := List.mem_mapIdx.mp hl
    exact Text.not_mem_of_mem_lines (List.getElem_mem hi)

theorem Lined.behind_text (h : b.Lined) (spacing : Nat) :
    Pos.behind (b.text ++ List.replicate spacing '\n') = ⟨b.depth spacing, 0⟩ := by
  have hlines : Text.lines (b.text ++ List.replicate spacing '\n') =
      (b.lines.map (·.text) ++ List.replicate spacing []) ++ [[]] := by
    have hempty := Text.lines_replicate_append spacing []
    rw [List.append_nil] at hempty
    rw [h.lines_text_append, hempty, List.append_assoc]
    rfl
  rw [Pos.behind_eq hlines]
  simp [depth, Pos.width]

end Block

namespace Document

/-- A character of the buffer that is no line feed belongs to a block. -/
theorem exists_block_of_bufferText {spacing : Nat} {blocks : List Block}
    (hlined : ∀ b ∈ blocks, b.Lined) {u v : Text} {c : Char}
    (h : bufferText spacing blocks = u ++ c :: v) (hc : c ≠ '\n') :
    ∃ pre b post w w', blocks = pre ++ b :: post ∧ b.text = w ++ c :: w' ∧
      Pos.behind u = ⟨depthOf spacing pre + (Pos.behind w).line, (Pos.behind w).column⟩ := by
  induction blocks generalizing u with
  | nil => simp [bufferText] at h
  | cons b rest ih =>
    have hhere : ∀ w', b.text = u ++ c :: w' → ∃ pre b' post w w', b :: rest = pre ++ b' :: post ∧
        b'.text = w ++ c :: w' ∧
        Pos.behind u = ⟨depthOf spacing pre + (Pos.behind w).line, (Pos.behind w).column⟩ := by
      intro w' htext
      exact ⟨[], b, rest, u, w', rfl, htext, by rw [depthOf, Nat.zero_add]⟩
    cases rest with
    | nil =>
      refine hhere v ?_
      rw [← h]
      simp [bufferText]
    | cons b' rest =>
      have htext : bufferText spacing (b :: b' :: rest) =
          (b.text ++ List.replicate spacing '\n') ++ bufferText spacing (b' :: rest) := by
        simp only [bufferText, List.map_cons, List.intercalate_cons_cons, List.append_assoc]
      rw [htext] at h
      rcases Text.append_eq_append_cons h with ⟨w, hw⟩ | ⟨w, rfl, hw⟩
      · rcases Text.append_eq_append_cons hw with ⟨w', hw'⟩ | ⟨w', -, hw'⟩
        · exact hhere w' hw'
        · have hmem : c ∈ List.replicate spacing '\n' := by simp [hw']
          exact absurd (List.eq_of_mem_replicate hmem) hc
      · obtain ⟨pre, b'', post, t, t', hblocks, hb'', hplace⟩ :=
          ih (fun x hx => hlined x (List.mem_cons_of_mem b hx)) hw
        refine ⟨b :: pre, b'', post, t, t', by rw [hblocks, List.cons_append], hb'', ?_⟩
        rw [Pos.behind_append, (hlined b List.mem_cons_self).behind_text, hplace, depthOf]
        simp [Nat.add_assoc]

variable {d : Document} {pre post : List Block} {b : Block} {text : Text}

/-- Where the lines of a plain block lie. -/
theorem lies_of_plain (hblocks : d.info.blocks = pre ++ b :: post) (hplain : b.Plain text)
    {raw : Nat} (hraw : raw < text.lines.length) (column : Nat) :
    d.Lies ⟨depthOf d.info.config.spacing pre + raw, column⟩ pre b raw ∧
      d.silences (depthOf d.info.config.spacing pre + raw) d.idPath = false ∧
      depthOf d.info.config.spacing pre + raw ≤
        d.bufferLines.length - d.info.config.spacing := by
  have hline : b.lines[raw]? = some ⟨text.lines[raw], false, some raw⟩ := by
    rw [hplain.lines_eq, List.getElem?_mapIdx, List.getElem?_eq_getElem hraw]
    rfl
  refine ⟨⟨⟨post, hblocks⟩, ⟨raw, _, hline, rfl, rfl⟩, hplain.height_eq ▸ hraw⟩, ?_, ?_⟩
  · have hrow := bufferTable_at d.info.config.spacing pre b post hline
    rw [← hblocks] at hrow
    rw [silences, bufferLines, hrow]
    rfl
  · have hi := (List.getElem?_eq_some_iff.mp hline).1
    rw [bufferLines, length_bufferTable, hblocks, depthOf_append, depthOf, Block.depth]
    omega

end Document

end Polyglot
