import Polyglot.Proofs.Alike
import Polyglot.Proofs.FileTree
import Polyglot.Proofs.MarkerRecords
import Mathlib.Data.Option.Basic

/-!
Two trees that show the same text. Their documents have different numbers, keys and addresses, but
they correspond: the roots to each other, and so do the documents of each piece. Counterparts have
the same lines in the same places, and a place in the text belongs to counterparts, so a range of
a buffer has the same place in the editor by both trees.
-/
namespace Polyglot

namespace Document

section

variable {d d' : Document}

theorem Alike.silences_eq (h : d.Alike d') (line : Nat) :
    d.silences line d.idPath = d'.silences line d'.idPath := by
  simp only [silences, h.bufferLines_eq, beq_self_eq_true, Bool.and_true]

theorem Alike.editorOfBufferLine_eq (h : d.Alike d') (line : Nat) :
    (d.editorOfBufferLine line).toOption = (d'.editorOfBufferLine line).toOption := by
  simp only [editorOfBufferLine, h.bufferLines_eq]
  cases d'.bufferLines[if line = d'.bufferLines.length then line - 1 else line]? <;> rfl

/-- The place of a source line, if there is such a line. -/
theorem toOption_sourceToEditor (d : Document) (p : Pos .source) :
    (d.sourceToEditor p).toOption = (d.sourceLines.map SourceLine.bare)[p.line]?.map fun row =>
      ⟨row.editorLine + row.shift.line, p.column + columnShift row⟩ := by
  rw [sourceToEditor, sourceLine, List.getElem?_map]
  cases d.sourceLines[p.line]? <;> rfl

theorem toOption_bufferToEditor (d : Document) (p : Pos .buffer) :
    (d.bufferToEditor p).toOption = (d.bufferLines[p.line]?.bind (·.source)).bind fun line =>
      (d.sourceToEditor ⟨line, p.column⟩).toOption := by
  rw [bufferToEditor, bufferToSource]
  cases d.bufferLines[p.line]? with
  | none => rfl
  | some row =>
    obtain ⟨source, editor, silenced⟩ := row
    cases source <;> rfl

theorem Alike.bufferToEditor_eq (h : d.Alike d') (p : Pos .buffer) :
    (d.bufferToEditor p).toOption = (d'.bufferToEditor p).toOption := by
  simp only [toOption_bufferToEditor, toOption_sourceToEditor, h.bufferLines_eq, h.sourceLines_eq]

/-- Whether a source line is a line of an editor. -/
def LiesAt (editor : String) (line : Nat) (row : SourceLine) : Bool :=
  row.editor = editor && row.editorLine + row.shift.line = line

theorem toOption_editorToSource (d : Document) (editor : String) (p : Pos .editor) :
    (d.editorToSource editor p).toOption =
      ((d.sourceLines.map SourceLine.bare).findIdx? (LiesAt editor p.line)).bind fun line =>
        ((d.sourceLines.map SourceLine.bare).find? (LiesAt editor p.line)).map fun row =>
          ⟨line, p.column - columnShift row⟩ := by
  have hbare : LiesAt editor p.line ∘ SourceLine.bare = LiesAt editor p.line := rfl
  have hlies : (fun row : SourceLine => decide (row.editor = editor) &&
      decide (row.editorLine + row.shift.line = p.line)) = LiesAt editor p.line := rfl
  rw [List.findIdx?_map, List.find?_map, hbare]
  simp only [editorToSource, hlies]
  cases d.sourceLines.findIdx? (LiesAt editor p.line) <;>
    cases d.sourceLines.find? (LiesAt editor p.line) <;> rfl

theorem Alike.editorToSource_eq (h : d.Alike d') (editor : String) (p : Pos .editor) :
    (d.editorToSource editor p).toOption = (d'.editorToSource editor p).toOption := by
  rw [toOption_editorToSource, toOption_editorToSource, h.sourceLines_eq]

end

/-! The documents of one tree. -/

theorem walkAll_eq_self {ds : List Document} (h : ∀ d ∈ ds, d.children = []) : walkAll ds = ds := by
  induction ds with
  | nil => rfl
  | cons d rest ih =>
    obtain ⟨info, children, parked⟩ := d
    obtain rfl : children = [] := h _ List.mem_cons_self
    rw [walkAll, ih fun d hd => h d (List.mem_cons_of_mem _ hd)]
    rfl

/-- The first note around a place is that of the first piece around it. -/
theorem find?_notes {editor : String} {pieces : List Fragment} {cs : List Document}
    (hall : List.Forall₂ (Houses editor) pieces cs) (place : Pos .text) (known : String → Bool)
    (hknown : ∀ c ∈ cs, known c.key = true) :
    ((List.zipWith (noteOf editor) pieces cs).find? fun note =>
        note.1.contains place && known note.2.document).map (·.2.document) =
      ((pieces.findIdx? (·.range.contains place)).bind (cs[·]?)).map key := by
  induction hall with
  | nil => rfl
  | @cons f c pieces cs _ _ ih =>
    have hrest := ih fun c hc => hknown c (List.mem_cons_of_mem _ hc)
    rw [List.zipWith_cons_cons, List.find?_cons, List.findIdx?_cons]
    simp only [noteOf, hknown c List.mem_cons_self, Bool.and_true]
    cases f.range.contains place with
    | true => rfl
    | false =>
      rw [hrest]
      cases pieces.findIdx? (·.range.contains place) <;> rfl

/-- Which document a place of a text belongs to: the host, or that of a piece. -/
def ownerIndex (pieces : List Fragment) (height : Nat) (p : Pos .source) : Nat :=
  if p.line < height then
    (pieces.findIdx? (·.range.contains ⟨p.line, p.column⟩)).elim 0 (· + 1)
  else 0

section

variable {href language editor : String} {next : Nat} {text : Text} {root : Document}
  {cs : List Document}

theorem Shows.walk_perm (hshows : Shows editor language text root cs)
    (hroot : IsRoot href language next root) : root.walk.Perm (root :: cs) := by
  have hperm := hshows.children
  have hsteady := hroot.steady
  obtain ⟨info, children, parked⟩ := root
  rw [walk, walkAll_eq_self]
  · exact hperm.cons _
  · intro c hc
    exact (hsteady.leaf_of_owned (List.mem_append_left _ hc)).1

theorem Shows.documentAt_eq (hshows : Shows editor language text root cs)
    (hroot : IsRoot href language next root) (p : Pos .source) :
    (root :: cs)[ownerIndex (piecesOf language text) text.lines.length p]? =
      some (documentAt p root) := by
  obtain ⟨kept, _, hblocks⟩ := hshows.blocks
  have hsorted := hroot.steady.self.sorted
  have hmem : ∀ c ∈ cs, c ∈ root.children := fun c hc => hshows.children.mem_iff.mpr hc
  have hleaf : ∀ c ∈ cs, c.children = [] := fun c hc =>
    (hroot.steady.leaf_of_owned (List.mem_append_left _ (hmem c hc))).1
  obtain ⟨info, children, parked⟩ := root
  rw [info_node] at hblocks
  rw [children_node] at hsorted hmem
  rw [documentAt, hblocks, ownerIndex]
  by_cases hline : p.line < text.lines.length
  · have hnotes := find?_notes hshows.houses ⟨p.line, p.column⟩
      (fun key => children.any (·.key = key))
      (fun c hc => List.any_eq_true.mpr ⟨c, hmem c hc, by simp⟩)
    have hrow := sourceTable_at info.config.spacing []
      (blockOf {} language editor Pos.origin none text
      kept (List.zipWith (noteOf editor) (piecesOf language text) cs)) [] hline
    rw [heightOf, Nat.zero_add, List.nil_append] at hrow
    rw [if_pos hline, hrow]
    simp only
    generalize hdescent : descent? children _ p.column = descent
    have hfirst : descent.map (·.1) = (((piecesOf language text).findIdx?
        (·.range.contains ⟨p.line, p.column⟩)).bind (cs[·]?)).map key := by
      rw [← hnotes, ← hdescent, descent?, Option.map_map]
      rfl
    cases hindex : (piecesOf language text).findIdx? (·.range.contains ⟨p.line, p.column⟩) with
    | none =>
      rw [hindex] at hfirst
      obtain rfl := Option.map_eq_none_iff.mp hfirst
      rfl
    | some i =>
      obtain ⟨hi, _⟩ := List.findIdx?_eq_some_iff_getElem.mp hindex
      rw [hshows.houses.length_eq] at hi
      have hc : cs[i]? = some cs[i] := List.getElem?_eq_getElem hi
      rw [hindex, Option.bind_some, hc, Option.map_some] at hfirst
      obtain ⟨⟨key, q⟩, rfl, hkey⟩ := Option.map_eq_some_iff.mp hfirst
      obtain rfl : key = cs[i].key := hkey
      simp only [documentAtKey_eq, hsorted.find?_eq_some (hmem _ (List.getElem_mem hi)),
        documentAt_leaf (hleaf _ (List.getElem_mem hi)), Option.map_some, Option.getD_some]
      exact hc
  · have hrow : (sourceTable info.config.spacing 0
      [blockOf {} language editor Pos.origin none text kept
      (List.zipWith (noteOf editor) (piecesOf language text) cs)])[p.line]? = none := by
      rw [List.getElem?_eq_none_iff, length_sourceTable]
      exact Nat.not_lt.mp hline
    rw [if_neg hline, hrow]
    rfl

theorem Shows.numbers_nodup (hshows : Shows editor language text root cs)
    (hroot : IsRoot href language next root) : (cs.map (·.id.number)).Nodup := by
  have hdistinct := hroot.steady.self.family.distinct
  rw [List.map_append, List.map_map] at hdistinct
  exact ((hshows.children.map _).nodup_iff).mp (List.nodup_append.mp hdistinct).1

/-- What is told by the numbers of the documents of pieces, and differs from the root's, differs
between all documents. -/
theorem Shows.nodup_map {α : Type} (hshows : Shows editor language text root cs)
    (hroot : IsRoot href language next root) {f : Document → α} {g : Nat → α}
    (hg : Function.Injective g) (hf : ∀ c ∈ cs, f c = g c.id.number ∧ f c ≠ f root) :
    ((root :: cs).map f).Nodup := by
  rw [List.map_cons, List.nodup_cons]
  constructor
  · intro hmem
    obtain ⟨c, hc, hsame⟩ := List.mem_map.mp hmem
    exact (hf c hc).2 hsame
  · have hmap : cs.map f = (cs.map (·.id.number)).map g := by
      rw [List.map_map]
      exact List.map_congr_left fun c hc => (hf c hc).1
    rw [hmap]
    exact (hshows.numbers_nodup hroot).map hg

/-- The documents of pieces are owned by a protobuf file. -/
theorem Shows.owned (hshows : Shows editor language text root cs)
    (hroot : IsRoot href language next root) {c : Document} (hc : c ∈ cs) :
    c ∈ root.children ++ root.parked ∧ language = "proto" := by
  have howned : c ∈ root.children ++ root.parked :=
    List.mem_append_left _ (hshows.children.mem_iff.mpr hc)
  exact ⟨howned, hroot.language_eq ▸ (hroot.steady.self.kind_of_owned howned).1⟩

theorem Shows.language_of_piece (hshows : Shows editor language text root cs)
    (hroot : IsRoot href language next root) {c : Document} (hc : c ∈ cs) : c.language = "cel" := by
  rw [Document.language, (hroot.steady.self.kind_of_owned (hshows.owned hroot hc).1).2]
  rfl

theorem Shows.idPaths_nodup (hshows : Shows editor language text root cs)
    (hroot : IsRoot href language next root) : ((root :: cs).map idPath).Nodup := by
  refine hshows.nodup_map hroot celPath_injective fun c hc => ?_
  obtain ⟨howned, rfl⟩ := hshows.owned hroot hc
  have hpath := (hroot.uri_of_owned howned).1
  refine ⟨hpath, ?_⟩
  rw [hpath, hroot.idPath_eq]
  exact celPath_ne_proto c.id.number

theorem Shows.hrefs_nodup (hshows : Shows editor language text root cs)
    (hroot : IsRoot href language next root) (hbuildable : Buildable href language text) :
    ((root :: cs).map (·.uri.href)).Nodup := by
  rcases hbuildable.2 with hnone | ⟨front, hread⟩
  · have hcs := hshows.houses
    rw [hnone, List.forall₂_nil_left_iff] at hcs
    rw [hcs]
    exact List.nodup_singleton _
  · have hinj : Function.Injective fun number => String.ofList (front ++ celEnding number) := by
      intro m n h
      exact celEnding_injective (List.append_cancel_left (String.ofList_injective h))
    refine hshows.nodup_map hroot hinj fun c hc => ?_
    obtain ⟨howned, rfl⟩ := hshows.owned hroot hc
    obtain ⟨w, hw, hhref, hne⟩ := hread c.id.number
    rw [(hroot.uri_of_owned howned).2] at hw
    cases hw
    refine ⟨?_, ?_⟩
    · rw [← hhref, String.ofList_toList]
    · rw [hroot.uri_href]
      exact hne

theorem Shows.config_eq (hshows : Shows editor language text root cs)
    (hroot : IsRoot href language next root) {d : Document} (hd : d ∈ root :: cs) :
    d.info.config = usualContext.config := by
  rcases List.mem_cons.mp hd with rfl | hc
  · exact hroot.steady.self.config
  · have hmem := hshows.children.mem_iff.mpr hc
    have hsteady := hroot.steady
    obtain ⟨info, children, parked⟩ := root
    exact (((steady_node _ _ _).mp hsteady).2.1 d hmem).self.config

end

/-! Counterparts. -/

section

variable {href href' language editor : String} {next next' : Nat} {text : Text}
  {root root' : Document} {cs cs' : List Document}

theorem Shows.alike (hshows : Shows editor language text root cs)
    (hroot : IsRoot href language next root) (hshows' : Shows editor language text root' cs')
    (hroot' : IsRoot href' language next' root') {i : Nat} {d d' : Document}
    (hd : (root :: cs)[i]? = some d) (hd' : (root' :: cs')[i]? = some d') : d.Alike d' := by
  refine ⟨?_, ?_⟩
  · rw [hshows.config_eq hroot (List.mem_of_getElem? hd),
      hshows'.config_eq hroot' (List.mem_of_getElem? hd')]
  · cases i with
    | zero =>
      obtain rfl : root = d := by simpa using hd
      obtain rfl : root' = d' := by simpa using hd'
      obtain ⟨kept, hkept, hblocks⟩ := hshows.blocks
      obtain ⟨kept', hkept', hblocks'⟩ := hshows'.blocks
      rw [hkept] at hkept'
      cases hkept'
      rw [hblocks, hblocks']
      rfl
    | succ j =>
      rw [List.getElem?_cons_succ] at hd hd'
      obtain ⟨hj, rfl⟩ := List.getElem?_eq_some_iff.mp hd
      obtain ⟨hj', rfl⟩ := List.getElem?_eq_some_iff.mp hd'
      have hpiece : j < (piecesOf language text).length := by rwa [hshows.houses.length_eq]
      have h := hshows.houses.get hpiece hj
      have h' := hshows'.houses.get hpiece hj'
      exact congrArg _ (h.blocks.trans h'.blocks.symm)

/-- A place belongs to a document if it belongs to the counterpart. -/
theorem Shows.owner_iff (hshows : Shows editor language text root cs)
    (hroot : IsRoot href language next root) {i : Nat} {d : Document}
    (hd : (root :: cs)[i]? = some d) (p : Pos .source) :
    (documentAt p root).idPath = d.idPath ↔
      ownerIndex (piecesOf language text) text.lines.length p = i := by
  have howner := hshows.documentAt_eq hroot p
  constructor
  · intro hsame
    have hlt := (List.getElem?_eq_some_iff.mp howner).1
    refine (List.getElem?_inj (by simpa using hlt) (hshows.idPaths_nodup hroot)).mp ?_
    rw [List.getElem?_map, List.getElem?_map, howner, hd, Option.map_some, Option.map_some, hsame]
  · rintro rfl
    rw [howner] at hd
    rw [Option.some.inj hd]

end

/-- Where a range of a buffer is shown, if it is. -/
def shownAt (root document : Document) (range : Range .buffer) :
    Option (String × Range .editor) := do
  guard (range.start.line ≤ document.bufferLines.length - document.info.config.spacing)
  let editor ← (document.editorOfBufferLine range.start.line).toOption
  let start ← (document.bufferToEditor range.start).toOption
  let source ← (root.editorToSource editor start).toOption
  guard ((documentAt source root).idPath = document.idPath)
  guard (document.silences range.start.line document.idPath = false)
  let stop := (document.bufferToEditor range.stop).toOption.getD ⟨start.line, start.column + 1⟩
  return (editor, ⟨start, stop⟩)

theorem toOption_anchor (root document : Document) (range : Range .buffer) :
    (anchor root document range).toOption = shownAt root document range := by
  unfold anchor shownAt
  by_cases hline : range.start.line ≤ document.bufferLines.length - document.info.config.spacing
  · rw [if_neg (Nat.not_lt.mpr hline)]
    simp only [guard, if_pos hline]
    cases document.editorOfBufferLine range.start.line with
    | error e => rfl
    | ok editor =>
      cases document.bufferToEditor range.start with
      | error e => rfl
      | ok start =>
        have hgo : ∀ {α : Type} (f : String → Pos .editor → Option α),
            ((pure () : Option Unit) >>= fun _ => (Except.ok editor : Mapped String).toOption >>=
              fun e => (Except.ok start : Mapped (Pos .editor)).toOption >>= fun s => f e s) =
              f editor start := fun _ => rfl
        rw [hgo]
        cases hsource : root.editorToSource editor start with
        | error e =>
          simp only [Except.mapError, bind, Except.bind, hsource]
          rfl
        | ok source =>
          have hsome : (Except.ok source : Mapped (Pos .source)).toOption = some source := rfl
          simp only [Except.mapError, bind, Except.bind, hsource, hsome, Option.bind_some]
          by_cases howner : (documentAt source root).idPath = document.idPath
          · rw [if_neg (not_not.mpr howner), if_pos howner]
            cases document.silences range.start.line document.idPath with
            | true => rfl
            | false => cases document.bufferToEditor range.stop <;> rfl
          · rw [if_pos howner, if_neg howner]
            rfl
  · rw [if_pos (Nat.not_le.mp hline)]
    simp only [guard, if_neg hline]
    rfl

section

variable {href href' language editor : String} {next next' : Nat} {text : Text}
  {root root' : Document} {cs cs' : List Document}

/-- By both trees a range is shown in the same place. -/
theorem Shows.shownAt_eq (hshows : Shows editor language text root cs)
    (hroot : IsRoot href language next root) (hshows' : Shows editor language text root' cs')
    (hroot' : IsRoot href' language next' root') {i : Nat} {d d' : Document}
    (hd : (root :: cs)[i]? = some d) (hd' : (root' :: cs')[i]? = some d') (range : Range .buffer) :
    shownAt root d range = shownAt root' d' range := by
  have halike := hshows.alike hroot hshows' hroot' hd hd'
  have hroots : root.Alike root' := hshows.alike hroot hshows' hroot' (i := 0) rfl rfl
  have howner : ∀ p, ((documentAt p root).idPath = d.idPath) =
      ((documentAt p root').idPath = d'.idPath) := fun p =>
    propext ((hshows.owner_iff hroot hd p).trans (hshows'.owner_iff hroot' hd' p).symm)
  simp only [shownAt, halike.bufferLines_eq, halike.config_eq, halike.editorOfBufferLine_eq,
    halike.bufferToEditor_eq, halike.silences_eq, hroots.editorToSource_eq, howner]

theorem groupKey_eq (root document : Document) (group : List (Diagnostic .buffer)) :
    Aggregator.groupKey root document group = group.head?.bind fun first =>
      (shownAt root document first.range).map fun place =>
        ⟨Aggregator.membersOf group, place.2, place.1⟩ := by
  cases group with
  | nil => rfl
  | cons first rest =>
    rw [List.head?_cons, Option.bind_some, ← toOption_anchor, Aggregator.groupKey]
    cases anchor root document first.range <;> rfl

theorem Shows.batchKeys_eq (hshows : Shows editor language text root cs)
    (hroot : IsRoot href language next root) (hshows' : Shows editor language text root' cs')
    (hroot' : IsRoot href' language next' root') {i : Nat} {d d' : Document}
    (hd : (root :: cs)[i]? = some d) (hd' : (root' :: cs')[i]? = some d')
    (diagnostics : List (Diagnostic .buffer)) :
    Aggregator.batchKeys root d diagnostics = Aggregator.batchKeys root' d' diagnostics := by
  refine List.filterMap_congr fun group _ => ?_
  simp only [groupKey_eq, hshows.shownAt_eq hroot hshows' hroot' hd hd']

end

end Document

end Polyglot
