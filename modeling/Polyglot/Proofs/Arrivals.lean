import Polyglot.Proofs.Descent
import Polyglot.Proofs.TableInvariant

/-!
The two ways down agree. The document around a source position and the buffer position of it are
found by two searches; both go the same way, which always ends. Main statement: the buffer position
lies in the document around the position, and it is missing only if that document has no source line
where the way ends.
-/
namespace Polyglot

namespace Document

/-- A foreign range is around a place of a source line, and the document that took its code is a
child. -/
def Opens (d : Document) (place : Pos .text) (note : Range .text × ForeignBlock) (c : Document) :
    Prop :=
  note.1.contains place = true ∧ d.child? note.2.document = some c

/-- The way down from a source position. It ends where there is no source line, or where no foreign
range around the place has a child; otherwise it goes on in the child of the first that does. -/
inductive Arrives : Document → Pos .source → Document → Pos .source → Prop
  | beyond {d : Document} {p : Pos .source} : d.sourceLines[p.line]? = none → Arrives d p d p
  | innermost {d : Document} {p : Pos .source} {row : SourceLine} :
      d.sourceLines[p.line]? = some row →
      (∀ note ∈ row.foreign, ∀ c, ¬ d.Opens ⟨row.editorLine, p.column⟩ note c) → Arrives d p d p
  | enters {d c e : Document} {p r : Pos .source} {row : SourceLine}
      {earlier later : List (Range .text × ForeignBlock)} {note : Range .text × ForeignBlock} :
      d.sourceLines[p.line]? = some row → row.foreign = earlier ++ note :: later →
      (∀ other ∈ earlier, ∀ x, ¬ d.Opens ⟨row.editorLine, p.column⟩ other x) →
      d.Opens ⟨row.editorLine, p.column⟩ note c →
      Arrives c (note.2.position (note.1.relative ⟨row.editorLine, p.column⟩)) e r → Arrives d p e r

section

variable {d e c : Document} {p r : Pos .source} {row : SourceLine} {column : Nat}

/-- A range that is passed over opens no child. -/
theorem not_opens_iff {place : Pos .text} {note : Range .text × ForeignBlock} :
    (∀ c, ¬ d.Opens place note c) ↔
      (note.1.contains place && d.children.any (·.key = note.2.document)) = false := by
  have hchild : (∀ c, d.child? note.2.document ≠ some c) ↔
      d.children.any (·.key = note.2.document) = false := by
    rw [← Option.eq_none_iff_forall_ne_some, child?, List.find?_eq_none, List.any_eq_false]
  rw [Bool.and_eq_false_iff, ← hchild, ← Bool.not_eq_true]
  constructor
  · intro h
    by_cases hinside : note.1.contains place = true
    · exact Or.inr fun c hc => h c ⟨hinside, hc⟩
    · exact Or.inl hinside
  · rintro (houtside | hnone) c ⟨hinside, hc⟩
    · exact houtside hinside
    · exact hnone c hc

theorem descent?_eq_none_iff : descent? d.children row column = none ↔
    ∀ note ∈ row.foreign, ∀ c, ¬ d.Opens ⟨row.editorLine, column⟩ note c := by
  unfold descent?
  rw [Option.map_eq_none_iff, List.find?_eq_none]
  refine forall₂_congr ?_
  intro note _
  rw [not_opens_iff, Bool.not_eq_true]

/-- The first range that opens a child is the one that is followed. -/
theorem descent?_of_opens {earlier later : List (Range .text × ForeignBlock)}
    {note : Range .text × ForeignBlock} (hsplit : row.foreign = earlier ++ note :: later)
    (hearlier : ∀ other ∈ earlier, ∀ x, ¬ d.Opens ⟨row.editorLine, column⟩ other x)
    (hopens : d.Opens ⟨row.editorLine, column⟩ note c) :
    descent? d.children row column =
      some (note.2.document, note.2.position (note.1.relative ⟨row.editorLine, column⟩)) := by
  refine @descent?_of_find? d.children row ⟨row.editorLine, column⟩ note rfl ?_
  rw [List.find?_eq_some_iff_append]
  refine ⟨?_, earlier, later, hsplit, ?_⟩
  · by_contra hclosed
    exact not_opens_iff.mpr (Bool.not_eq_true _ ▸ hclosed) c hopens
  · intro other hother
    rw [not_opens_iff.mp (hearlier other hother)]
    rfl

theorem exists_opens_of_descent? {key : String} {q : Pos .source}
    (h : descent? d.children row column = some (key, q)) :
    ∃ earlier note later c, row.foreign = earlier ++ note :: later ∧
      (∀ other ∈ earlier, ∀ x, ¬ d.Opens ⟨row.editorLine, column⟩ other x) ∧
      d.Opens ⟨row.editorLine, column⟩ note c ∧
      q = note.2.position (note.1.relative ⟨row.editorLine, column⟩) := by
  unfold descent? at h
  obtain ⟨note, hfind, heq⟩ := Option.map_eq_some_iff.mp h
  obtain ⟨hopen, earlier, later, hsplit, hearlier⟩ := List.find?_eq_some_iff_append.mp hfind
  have hsome : ¬ ∀ c, ¬ d.Opens ⟨row.editorLine, column⟩ note c := by
    rw [not_opens_iff, Bool.not_eq_false]
    exact hopen
  obtain ⟨c, hc⟩ := not_forall_not.mp hsome
  refine ⟨earlier, note, later, c, hsplit, ?_, hc, (Prod.mk.inj heq).2.symm⟩
  intro other hother
  exact not_opens_iff.mpr ((Bool.not_eq_true' _).mp (hearlier other hother))

/-- Every way down ends. -/
theorem exists_arrives (d : Document) (p : Pos .source) : ∃ e r, d.Arrives p e r := by
  induction d using tree_induction generalizing p with
  | step info children parked ihc _ =>
    cases hrow : (node info children parked).sourceLines[p.line]? with
    | none => exact ⟨_, p, Arrives.beyond hrow⟩
    | some row =>
      cases hdescent : descent? children row p.column with
      | none => exact ⟨_, p, Arrives.innermost hrow (descent?_eq_none_iff.mp hdescent)⟩
      | some found =>
        obtain ⟨earlier, note, later, c, hsplit, hearlier, hopens, _⟩ :=
          exists_opens_of_descent? (d := node info children parked) hdescent
        obtain ⟨e, r, hbelow⟩ := ihc c (List.mem_of_find?_eq_some hopens.2)
          (note.2.position (note.1.relative ⟨row.editorLine, p.column⟩))
        exact ⟨e, r, Arrives.enters hrow hsplit hearlier hopens hbelow⟩

/-- The document around a position is where the way ends. -/
theorem Arrives.documentAt_eq (h : d.Arrives p e r) : documentAt p d = e := by
  induction h with
  | @beyond d p hnone =>
    obtain ⟨info, children, parked⟩ := d
    simp only [sourceLines, info_node] at hnone
    simp only [documentAt, hnone]
  | @innermost d p row hrow hclosed =>
    have hdescent := descent?_eq_none_iff.mpr hclosed
    obtain ⟨info, children, parked⟩ := d
    simp only [sourceLines, info_node, children_node] at hrow hdescent
    simp only [documentAt, hrow, hdescent]
  | enters hrow hsplit hearlier hopens _ ih =>
    rw [documentAt_enters hrow (descent?_of_opens hsplit hearlier hopens) hopens.2, ih]

/-- The buffer position is read off the source line where the way ends. -/
theorem Arrives.bufferPositionAt_eq (h : d.Arrives p e r) :
    bufferPositionAt p d =
      (e.sourceLine r.line).map fun row => (e, ⟨row.bufferLine, r.column⟩) := by
  induction h with
  | @beyond d p hnone =>
    rw [sourceLine, hnone]
    obtain ⟨info, children, parked⟩ := d
    simp only [sourceLines, info_node] at hnone
    simp only [bufferPositionAt, hnone]
    rfl
  | @innermost d p row hrow hclosed =>
    have hdescent := descent?_eq_none_iff.mpr hclosed
    rw [sourceLine, hrow]
    obtain ⟨info, children, parked⟩ := d
    simp only [sourceLines, info_node, children_node] at hrow hdescent
    simp only [bufferPositionAt, hrow, hdescent]
    rfl
  | @enters d c e p r row earlier later note hrow hsplit hearlier hopens _ ih =>
    have hdescent := descent?_of_opens hsplit hearlier hopens
    have hchild := hopens.2
    rw [← ih]
    obtain ⟨info, children, parked⟩ := d
    simp only [sourceLines, child?, info_node, children_node] at hrow hdescent hchild
    simp only [bufferPositionAt, hrow, hdescent, bufferPositionAtKey_eq, hchild, Option.map_some,
      Option.getD_some]

/-- There is one way down only. -/
theorem Arrives.unique {e' : Document} {r' : Pos .source} (h : d.Arrives p e r)
    (h' : d.Arrives p e' r') : e' = e ∧ r' = r := by
  induction h generalizing e' r' with
  | beyond hnone =>
    cases h' with
    | beyond _ => exact ⟨rfl, rfl⟩
    | innermost hrow _ => exact absurd (hnone.symm.trans hrow) (Option.some_ne_none _).symm
    | enters hrow _ _ _ _ => exact absurd (hnone.symm.trans hrow) (Option.some_ne_none _).symm
  | innermost hrow hclosed =>
    cases h' with
    | beyond hnone => exact absurd (hnone.symm.trans hrow) (Option.some_ne_none _).symm
    | innermost _ _ => exact ⟨rfl, rfl⟩
    | enters hrow' hsplit _ hopens _ =>
      obtain rfl := Option.some.inj (hrow.symm.trans hrow')
      exact absurd hopens (hclosed _ (by simp [hsplit]) _)
  | enters hrow hsplit hearlier hopens _ ih =>
    cases h' with
    | beyond hnone => exact absurd (hnone.symm.trans hrow) (Option.some_ne_none _).symm
    | innermost hrow' hclosed =>
      obtain rfl := Option.some.inj (hrow.symm.trans hrow')
      exact absurd hopens (hclosed _ (by simp [hsplit]) _)
    | enters hrow' hsplit' hearlier' hopens' hbelow' =>
      obtain rfl := Option.some.inj (hrow.symm.trans hrow')
      have hsame := (descent?_of_opens hsplit hearlier hopens).symm.trans
        (descent?_of_opens hsplit' hearlier' hopens')
      obtain ⟨hkey, hplace⟩ := Prod.mk.inj (Option.some.inj hsame)
      obtain rfl := Option.some.inj (hopens.2.symm.trans (hkey ▸ hopens'.2))
      exact ih (hplace ▸ hbelow')

end

section

variable {context : Context} {next : Nat} {tree d : Document}

/-- A source line becomes a line of the buffer. -/
theorem bufferLine_lt_of_sourceLine (hreach : Reachable context next tree) (howns : tree.Owns d)
    {line : Nat} {row : SourceLine} (hrow : d.sourceLines[line]? = some row) :
    row.bufferLine < d.bufferLines.length := by
  obtain ⟨pre, b, post, raw, hblocks, _, hraw, rfl⟩ := exists_raw_of_source hrow
  obtain ⟨made, hmade⟩ := blocks_inOrder_of_reachable hreach howns b (by simp [hblocks])
  obtain ⟨buffer, hbuffer, _⟩ :=
    bufferTable_of_sourceTable d.info.config.spacing pre post hmade hraw
  rw [← hblocks] at hbuffer
  exact (List.getElem?_eq_some_iff.mp hbuffer).1

/-- The two ways down agree. One way leads down from a source position, and it ends in the document
around the position. The buffer position lies on a line of that document; and it is missing exactly
if the document has no source line where the way ends, which the error tells. -/
theorem bufferPositionAt_agrees_with_documentAt (hreach : Reachable context next tree)
    (howns : tree.Owns d) (p : Pos .source) :
    ∃ r, d.Arrives p (documentAt p d) r ∧
      (∀ e r', d.Arrives p e r' → e = documentAt p d ∧ r' = r) ∧
      (∀ e v, d.bufferPositionAt p = .ok (e, v) →
        e = documentAt p d ∧ v.line < e.bufferLines.length) ∧
      ∀ error, d.bufferPositionAt p = .error error ↔
        (documentAt p d).sourceLines[r.line]? = none ∧
          error = .unmappedSourceLine r.line (documentAt p d).idPath := by
  obtain ⟨e, r, harrives⟩ := exists_arrives d p
  have hbuffer := harrives.bufferPositionAt_eq
  obtain rfl := harrives.documentAt_eq
  have hend : tree.Owns (documentAt p d) := howns.trans (owns_documentAt p d)
  refine ⟨r, harrives, fun _ _ => harrives.unique, ?_, ?_⟩
  · intro e v hok
    rw [hbuffer, sourceLine] at hok
    cases hrow : (documentAt p d).sourceLines[r.line]? with
    | none =>
      rw [hrow] at hok
      cases hok
    | some row =>
      rw [hrow] at hok
      cases hok
      exact ⟨rfl, bufferLine_lt_of_sourceLine hreach hend hrow⟩
  · intro error
    rw [hbuffer, sourceLine]
    cases hrow : (documentAt p d).sourceLines[r.line]? with
    | none =>
      refine ⟨fun herror => ⟨rfl, (Except.error.inj herror).symm⟩, ?_⟩
      rintro ⟨_, rfl⟩
      rfl
    | some row =>
      constructor
      · intro herror
        cases herror
      · rintro ⟨hnone, _⟩
        cases hnone

end

/-- Takes a whole text, and tells that a line was put in front of it, which is not so. -/
def aheadExtractor : Extractor where
  kind := ⟨"cel", "cel", true⟩
  exclusive := false
  detects := fun text => text.contains 'z'
  extract := fun text =>
    .ok [{ range := some ⟨Pos.origin, Pos.behind text⟩
           foreign := some text
           shift := some ⟨1, 0⟩
           host := some text }]

def aheadContext : Context := { extractors := ⟨[("python", aheadExtractor)]⟩ }

def aheadTree : Document :=
  (appendText aheadContext "cell" 2 Pos.origin none "z".toList 1 tailRoot).document

/-- The way down leads behind the last line of the child. -/
theorem bufferPositionAt_agrees_with_documentAt_ahead :
    (documentAt ⟨0, 0⟩ aheadTree).idPath = "python-1(cel)" ∧
      ∃ r, aheadTree.Arrives ⟨0, 0⟩ (documentAt ⟨0, 0⟩ aheadTree) r ∧ r.line = 1 ∧
        (documentAt ⟨0, 0⟩ aheadTree).sourceLines[r.line]? = none := by
  have htree : Reachable aheadContext _ aheadTree :=
    Reachable.append 2 "z".toList "cell" Pos.origin none (Reachable.root _ _ _ 0)
  obtain ⟨r, harrives, _, _, herror⟩ :=
    bufferPositionAt_agrees_with_documentAt htree (Owns.self aheadTree) ⟨0, 0⟩
  have hfails : (aheadTree.bufferPositionAt ⟨0, 0⟩).map (·.2) =
      .error (.unmappedSourceLine 1 "python-1(cel)") := by decide +kernel
  cases hbuffer : aheadTree.bufferPositionAt ⟨0, 0⟩ with
  | ok found =>
    rw [hbuffer] at hfails
    cases hfails
  | error error =>
    rw [hbuffer] at hfails
    obtain ⟨hnone, hnamed⟩ := (herror error).mp hbuffer
    rw [hnamed] at hfails
    obtain ⟨hline, hpath⟩ := DocumentError.unmappedSourceLine.inj (Except.error.inj hfails)
    exact ⟨hpath, r, harrives, hline, hnone⟩

end Document

end Polyglot
