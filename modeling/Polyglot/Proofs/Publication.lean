import Polyglot.Proofs.Counterparts
import Polyglot.Proofs.TableInvariant
import Mathlib.Data.List.Pairwise
import Mathlib.Data.List.Sort

/-!
What is published for a text. After a tree was analysed, the markers that are drawn are those of
the batches of its CEL documents, whatever was drawn before. They are published in an order that
is total on what is published, so trees that show the same text lead to the same list.
-/
namespace Polyglot

/-! The order of markers. -/

def Range.weight {s : Space} (r : Range s) : (ℕ ×ₗ ℕ) ×ₗ (ℕ ×ₗ ℕ) :=
  toLex (r.start.weight, r.stop.weight)

theorem Range.weight_injective {s : Space} : Function.Injective (weight (s := s)) := by
  intro r t h
  obtain ⟨hstart, hstop⟩ := Prod.mk.inj (toLex_inj.mp h)
  exact Range.ext (Pos.weight_injective hstart) (Pos.weight_injective hstop)

theorem Range.before_iff {s : Space} (r t : Range s) : r.before t = true ↔ r.weight ≤ t.weight := by
  rw [before, weight, weight, Prod.Lex.toLex_le_toLex]
  by_cases hstart : r.start = t.start
  · simp [hstart, Pos.before_iff]
  · have hne : r.start.weight ≠ t.start.weight := fun h => hstart (Pos.weight_injective h)
    simp [hstart, hne, Pos.before_iff, le_iff_lt_or_eq]

/-- Sorting by weights that tell the elements of a list apart forgets the order of before. -/
theorem mergeSort_eq_of_perm {α β : Type} [LinearOrder β] {le : α → α → Bool} {weight : α → β}
    {l l' : List α} (hweight : Set.InjOn weight {a | a ∈ l})
    (hle : ∀ a b, le a b = true ↔ weight a ≤ weight b) (h : l.Perm l') :
    l.mergeSort le = l'.mergeSort le := by
  have htrans : ∀ a b c, le a b = true → le b c = true → le a c = true := by
    intro a b c hab hbc
    rw [hle] at hab hbc ⊢
    exact hab.trans hbc
  have htotal : ∀ a b, (le a b || le b a) = true := by
    intro a b
    rw [Bool.or_eq_true, hle, hle]
    exact le_total (weight a) (weight b)
  have hperm : (l.mergeSort le).Perm (l'.mergeSort le) :=
    (List.mergeSort_perm l le).trans (h.trans (List.mergeSort_perm l' le).symm)
  refine hperm.eq_of_pairwise ?_ (List.pairwise_mergeSort htrans htotal l)
    (List.pairwise_mergeSort htrans htotal l')
  intro a b ha hb hab hba
  refine hweight (List.mem_mergeSort.mp ha) (h.mem_iff.mpr (List.mem_mergeSort.mp hb)) ?_
  exact le_antisymm ((hle a b).mp hab) ((hle b a).mp hba)

def Marker.weight (m : Marker) : ((ℕ ×ₗ ℕ) ×ₗ (ℕ ×ₗ ℕ)) ×ₗ String :=
  toLex (m.range.weight, m.title)

namespace MarkerStore

theorem before_iff (a b : Marker) : before a b = true ↔ a.weight ≤ b.weight := by
  rw [before, Marker.weight, Marker.weight, Prod.Lex.toLex_le_toLex]
  by_cases hrange : a.range = b.range
  · simp [hrange]
  · have hne : a.range.weight ≠ b.range.weight := fun h => hrange (Range.weight_injective h)
    simp [hrange, hne, Range.before_iff, le_iff_lt_or_eq]

theorem mem_held {store : MarkerStore} {editor : String} {m : Marker} :
    m ∈ store.held editor ↔ m ∈ store.entries.map (·.2) ∧ m.editor = editor := by
  rw [held, List.mem_mergeSort, List.mem_filter, decide_eq_true_eq]

/-- Where all markers have one severity, what is published does not depend on their numbers, nor on
the order in which the table gives them. -/
theorem published_eq_of_perm {store store' : MarkerStore} {severity : Int}
    (hone : ∀ m ∈ store.entries.map (·.2), m.severity = severity)
    (h : (store.entries.map (·.2)).Perm (store'.entries.map (·.2))) (editor : String) :
    store.published editor = store'.published editor := by
  have hperm : (store.held editor).Perm (store'.held editor) :=
    (List.mergeSort_perm _ _).trans ((h.filter _).trans (List.mergeSort_perm _ _).symm)
  have hweight : Set.InjOn Marker.weight {m | m ∈ store.held editor} := by
    intro a ha b hb hab
    obtain ⟨ha, heditor⟩ := mem_held.mp ha
    obtain ⟨hb, heditor'⟩ := mem_held.mp hb
    obtain ⟨hrange, htitle⟩ := Prod.mk.inj (toLex_inj.mp hab)
    have hseverity := (hone a ha).trans (hone b hb).symm
    cases a
    cases b
    simp only [Marker.mk.injEq]
    exact ⟨heditor.trans heditor'.symm, Range.weight_injective hrange, htitle, hseverity⟩
  rw [published, published, markersOf, markersOf, mergeSort_eq_of_perm hweight before_iff hperm]

end MarkerStore

/-! The keys of a batch. -/

namespace Document

/-- In a document of one block no two places of the buffer are one place of the editor. -/
theorem bufferToEditor_injective {d : Document} {b : Block} {made : Nat}
    (hblocks : d.info.blocks = [b]) (hb : b.InOrder made) {p p' : Pos .buffer} {q : Pos .editor}
    (h : (d.bufferToEditor p).toOption = some q) (h' : (d.bufferToEditor p').toOption = some q) :
    p = p' := by
  have hplace : ∀ {p : Pos .buffer}, (d.bufferToEditor p).toOption = some q →
      ∃ s line, d.sourceLines[s]? = some line ∧ line.bufferLine = p.line ∧
        editorPlace b s p.column = q := by
    intro p h
    rw [toOption_bufferToEditor, Option.bind_eq_some_iff] at h
    obtain ⟨s, hs, hq⟩ := h
    obtain ⟨row, hrow, hsource⟩ := Option.bind_eq_some_iff.mp hs
    have hinOrder : ∀ c ∈ d.info.blocks, ∃ made, c.InOrder made := by
      rw [hblocks]
      intro c hc
      obtain rfl := List.mem_singleton.mp hc
      exact ⟨made, hb⟩
    obtain ⟨line, hline, hback, _⟩ := sourceTable_of_bufferTable hinOrder hrow hsource
    have hlt := (List.getElem?_eq_some_iff.mp hline).1
    rw [length_sourceTable, hblocks] at hlt
    have hat := sourceToEditor_at (show d.info.blocks = [] ++ b :: [] from hblocks) hlt p.column
    rw [heightOf, Nat.zero_add] at hat
    rw [hat] at hq
    exact ⟨s, line, hline, hback, Option.some.inj hq⟩
  obtain ⟨s, line, hline, hback, hq⟩ := hplace h
  obtain ⟨s', line', hline', hback', hq'⟩ := hplace h'
  have hsame := hq.trans hq'.symm
  simp only [editorPlace, Pos.mk.injEq] at hsame
  obtain rfl : s = s' := by omega
  rw [hline] at hline'
  cases hline'
  exact Pos.ext (hback.symm.trans hback') (by omega)

theorem start_of_shownAt {root d : Document} {range : Range .buffer}
    {place : String × Range .editor} (h : shownAt root d range = some place) :
    (d.bufferToEditor range.start).toOption = some place.2.start := by
  simp only [shownAt, bind, Option.bind_eq_some_iff] at h
  obtain ⟨_, _, editor, _, start, hstart, source, _, _, _, _, _, hplace⟩ := h
  cases hplace
  exact hstart

end Document

namespace Aggregator

/-- No two diagnostics say the same at the same place. -/
def Distinct (diagnostics : List (Diagnostic .buffer)) : Prop :=
  diagnostics.Pairwise fun x y => ¬(x.range.start = y.range.start ∧ x.message = y.message)

theorem Distinct.eq_of_same {diagnostics : List (Diagnostic .buffer)} (h : Distinct diagnostics)
    {x y : Diagnostic .buffer} (hx : x ∈ diagnostics) (hy : y ∈ diagnostics)
    (hstart : x.range.start = y.range.start) (hmessage : x.message = y.message) : x = y := by
  have hsymm : Std.Symm fun x y : Diagnostic .buffer =>
      ¬(x.range.start = y.range.start ∧ x.message = y.message) :=
    ⟨fun _ _ hnot hsame => hnot ⟨hsame.1.symm, hsame.2.symm⟩⟩
  by_contra hne
  exact List.Pairwise.forall h hx hy hne ⟨hstart, hmessage⟩

theorem nodup_eraseDups {α : Type} [DecidableEq α] (l : List α) : l.eraseDups.Nodup := by
  induction hn : l.length using Nat.strongRecOn generalizing l with
  | ind n ih =>
    cases l with
    | nil => exact List.nodup_nil
    | cons a rest =>
      have hshorter : (rest.filter fun b => !b == a).length < n := by
        have := List.length_filter_le (fun b => !b == a) rest
        rw [← hn, List.length_cons]
        omega
      rw [List.eraseDups_cons, List.nodup_cons, List.mem_eraseDups]
      exact ⟨by simp, ih _ hshorter _ rfl⟩

theorem mem_membersOf {m : Member} {group : List (Diagnostic .buffer)} :
    m ∈ membersOf group ↔ ∃ x ∈ group, Member.ofDiagnostic x = m := by
  rw [membersOf, (List.mergeSort_perm _ _).mem_iff, List.mem_map]

/-- A key is made of the diagnostics of a range. -/
theorem groupKey_filter_eq_some {root d : Document} {diagnostics : List (Diagnostic .buffer)}
    {r : Range .buffer} {key : MarkerKey}
    (h : groupKey root d (diagnostics.filter (·.range = r)) = some key) :
    key.members = membersOf (diagnostics.filter (·.range = r)) ∧
      (d.bufferToEditor r.start).toOption = some key.range.start ∧
      ∃ x ∈ diagnostics, x.range = r := by
  rw [Document.groupKey_eq] at h
  obtain ⟨x, hx, h⟩ := Option.bind_eq_some_iff.mp h
  obtain ⟨place, hplace, rfl⟩ := Option.map_eq_some_iff.mp h
  obtain ⟨hmem, hrange⟩ := List.mem_filter.mp (List.mem_of_mem_head? hx)
  obtain rfl : x.range = r := by simpa using hrange
  exact ⟨rfl, Document.start_of_shownAt hplace, x, hmem, rfl⟩

/-- Diagnostics that say different things are shown under different keys. -/
theorem nodup_batchKeys {root d : Document} {b : Block} {made : Nat}
    (hblocks : d.info.blocks = [b]) (hb : b.InOrder made) {diagnostics : List (Diagnostic .buffer)}
    (hdistinct : Distinct diagnostics) : (batchKeys root d diagnostics).Nodup := by
  have hranges : ((diagnostics.map (·.range)).eraseDups.mergeSort Range.before).Nodup :=
    (List.mergeSort_perm _ _).nodup_iff.mpr (nodup_eraseDups _)
  rw [batchKeys, groups, List.Nodup, List.pairwise_filterMap, List.pairwise_map]
  refine hranges.imp_of_mem ?_
  rintro r r' _ _ hne key hkey _ hkey' rfl
  obtain ⟨hmembers, hstart, x, hx, hxr⟩ := groupKey_filter_eq_some hkey
  obtain ⟨hmembers', hstart', _⟩ := groupKey_filter_eq_some hkey'
  have hstarts := Document.bufferToEditor_injective hblocks hb hstart hstart'
  -- what is said at the one range is also said at the other
  have hm : Member.ofDiagnostic x ∈ membersOf (diagnostics.filter (·.range = r)) :=
    mem_membersOf.mpr ⟨x, List.mem_filter.mpr ⟨hx, by simpa using hxr⟩, rfl⟩
  rw [← hmembers, hmembers'] at hm
  obtain ⟨y, hfiltered, hsame⟩ := mem_membersOf.mp hm
  obtain ⟨hy, hyr⟩ := List.mem_filter.mp hfiltered
  obtain rfl : y.range = r' := by simpa using hyr
  have hxy : x = y := hdistinct.eq_of_same hx hy (by rw [hxr, hstarts])
    (congrArg Member.message hsame).symm
  exact hne (hxr.symm.trans (congrArg Diagnostic.range hxy))

/-! What is drawn after an analysis. -/

/-- The markers that are drawn, document by document. -/
theorem drawnAll_perm_flatMap {targets : List String} (hdistinct : targets.Nodup)
    {markers : List (String × List (MarkerKey × Nat))} (hnodup : (markers.map (·.1)).Nodup)
    (hall : ∀ entry ∈ markers, entry.1 ∈ targets) :
    (drawnAll markers).Perm
      (targets.flatMap fun target => drawnOf ((lookup target markers).getD [])) := by
  induction targets generalizing markers with
  | nil =>
    obtain rfl : markers = [] := List.eq_nil_iff_forall_not_mem.mpr fun entry h => by
      simpa using hall entry h
    exact List.Perm.refl _
  | cons target rest ih =>
    obtain ⟨hfresh, hrest⟩ := List.nodup_cons.mp hdistinct
    have hothers : ∀ entry ∈ erase target markers, entry.1 ∈ rest := by
      intro entry hentry
      obtain ⟨hmem, hne⟩ := List.mem_filter.mp hentry
      exact (List.mem_cons.mp (hall entry hmem)).resolve_left (by simpa using hne)
    have hsame : (rest.flatMap fun t => drawnOf ((lookup t (erase target markers)).getD [])) =
        rest.flatMap fun t => drawnOf ((lookup t markers).getD []) := by
      refine List.flatMap_congr fun t ht => ?_
      rw [lookup_erase_of_ne]
      rintro rfl
      exact hfresh ht
    rw [List.flatMap_cons, ← hsame]
    exact (drawnAll_perm hnodup target).trans
      (List.Perm.append_left _ (ih hrest (nodup_erase hnodup target) hothers))

theorem map_snd_drawnOf (records : List (MarkerKey × Nat)) :
    (drawnOf records).map (·.2) = (records.map (·.1)).map markerOf := by
  rw [drawnOf, List.map_map, List.map_map]
  rfl

section

variable {a : Aggregator MarkerStore} {root d : Document} {diagnostics : List (Diagnostic .buffer)}

/-- A batch whose keys are different is all that is remembered of its document. -/
theorem Aligned.handle_records (h : a.Aligned) (hfind : root.find? d.uri = some d)
    (hkeys : (batchKeys root d diagnostics).Nodup) :
    (a.handle MarkerStore.renderer root d.uri diagnostics).1.Aligned ∧
      ∃ records, (a.handle MarkerStore.renderer root d.uri diagnostics).1.markers =
          insert d.uri.href records a.markers ∧
        (records.map (·.1)).Perm (batchKeys root d diagnostics) := by
  refine ⟨h.handle hfind (hkeys.sublist List.filter_sublist), ?_⟩
  obtain ⟨state, new, hshown, _, hmarkers⟩ := handle_spec (a := a) hfind diagnostics
  exact ⟨state.2, hmarkers, (List.perm_ext_iff_of_nodup hshown.kept_keys hkeys).mpr hshown.mem_keys⟩

theorem mem_foldl_forget {gone : List String} {entry : String × List (MarkerKey × Nat)}
    (h : entry ∈ (gone.foldl (fun a uri => a.forget MarkerStore.renderer uri) a).markers) :
    entry ∈ a.markers ∧ entry.1 ∉ gone := by
  induction gone generalizing a with
  | nil => exact ⟨h, List.not_mem_nil⟩
  | cons uri rest ih =>
    obtain ⟨hmem, hrest⟩ := ih h
    obtain ⟨hold, hne⟩ := List.mem_filter.mp hmem
    refine ⟨hold, ?_⟩
    rw [List.mem_cons, not_or]
    exact ⟨by simpa using hne, hrest⟩

/-- What is left after documents that are not in the tree were dropped. -/
theorem mem_markers_prune {entry : String × List (MarkerKey × Nat)}
    (h : entry ∈ (a.prune MarkerStore.renderer root).markers) :
    entry ∈ a.markers ∧ entry.1 ∈ root.walk.map (·.uri.href) := by
  obtain ⟨hold, hstays⟩ := mem_foldl_forget h
  refine ⟨hold, ?_⟩
  by_contra hgone
  refine hstays (List.mem_filter.mpr ⟨List.mem_map_of_mem hold, ?_⟩)
  simpa using hgone

end

end Aggregator

theorem Cel.severity_of_mem_analyzeSource {check : Cel.Checker} {source : Text}
    {x : Diagnostic .buffer} (h : x ∈ Cel.analyzeSource check source) : x.severity = some 1 := by
  unfold Cel.analyzeSource at h
  split at h
  · cases h
  · obtain ⟨f, _, rfl⟩ := List.mem_map.mp h
    rfl

namespace OpenFile

open Aggregator

/-- What is shown after the batches of some documents were taken in: what they say, and for other
documents what was shown before. -/
structure Took (root : Document) (batch : Document → List (Diagnostic .buffer)) (ds : List Document)
    (before after : Aggregator MarkerStore) : Prop where
  aligned : after.Aligned
  records : ∀ d ∈ ds, ((after.recordsOf d.uri.href).map (·.1)).Perm (batchKeys root d (batch d))
  others : ∀ target ∉ ds.map (·.uri.href), after.recordsOf target = before.recordsOf target
  targets : ∀ target ∈ after.markers.map (·.1),
    target ∈ before.markers.map (·.1) ∨ target ∈ ds.map (·.uri.href)

theorem handleAll_ok {root : Document} (batch : Document → List (Diagnostic .buffer))
    {ds : List Document} (hrefs : (ds.map (·.uri.href)).Nodup)
    (hfind : ∀ d ∈ ds, root.find? d.uri = some d)
    (hkeys : ∀ d ∈ ds, (batchKeys root d (batch d)).Nodup) {f : OpenFile}
    (hfree : f.session.acquire = .ok ()) (hroot : f.session.root = root)
    (haligned : f.shown.Aligned) :
    ∃ shown, handleAll (ds.map fun d => (d.uri, batch d)) f = ({ f with shown := shown }, .ok ()) ∧
      Took root batch ds f.shown shown := by
  induction ds generalizing f with
  | nil => exact ⟨f.shown, rfl, haligned, by simp, fun _ _ => rfl, fun _ h => Or.inl h⟩
  | cons d rest ih =>
    obtain ⟨hfresh, hrest⟩ := List.nodup_cons.mp hrefs
    obtain ⟨hnext, records, hmarkers, hperm⟩ := haligned.handle_records
      (hfind d List.mem_cons_self) (hkeys d List.mem_cons_self)
    obtain ⟨shown, heq, htook⟩ := ih hrest (fun e he => hfind e (List.mem_cons_of_mem d he))
      (fun e he => hkeys e (List.mem_cons_of_mem d he))
      (f := { f with shown := (f.shown.handle MarkerStore.renderer root d.uri (batch d)).1 })
      hfree hroot hnext
    have hat : ∀ target, recordsOf
        (f.shown.handle MarkerStore.renderer root d.uri (batch d)).1 target =
          if target = d.uri.href then records else f.shown.recordsOf target := by
      intro target
      rw [recordsOf, hmarkers]
      split
      · rename_i h
        rw [h, lookup_insert_self]
        rfl
      · rename_i h
        rw [lookup_insert_of_ne h]
        rfl
    refine ⟨shown, ?_, htook.aligned, ?_, ?_, ?_⟩
    · rw [List.map_cons, handleAll, OpenFile.handle, Session.withLock, hfree]
      simp only [Except.map, hroot]
      exact heq
    · intro e he
      rcases List.mem_cons.mp he with rfl | he
      · rw [htook.others _ hfresh, hat, if_pos rfl]
        exact hperm
      · exact htook.records e he
    · intro target htarget
      rw [List.map_cons, List.mem_cons, not_or] at htarget
      rw [htook.others target htarget.2, hat, if_neg htarget.1]
    · intro target htarget
      rw [List.map_cons, List.mem_cons]
      rcases htook.targets target htarget with hold | hnew
      · rw [hmarkers, mem_keys_insert] at hold
        tauto
      · exact Or.inr (Or.inr hnew)

/-- The markers of the CEL documents among some documents of a tree. -/
def markersFor (check : Cel.Checker) (root : Document) (ds : List Document) : List Marker :=
  (ds.filter (·.language = Cel.language)).flatMap fun d =>
    (batchKeys root d (Cel.analyzeSource check d.value)).map markerOf

/-- Whatever an analysis finds is an error. -/
theorem severity_of_mem_markersFor {check : Cel.Checker} {root : Document} {ds : List Document}
    {m : Marker} (h : m ∈ markersFor check root ds) : m.severity = 1 := by
  obtain ⟨d, _, hm⟩ := List.mem_flatMap.mp h
  obtain ⟨key, hkey, rfl⟩ := List.mem_map.mp hm
  obtain ⟨group, hgroup, hkey⟩ := List.mem_filterMap.mp hkey
  obtain ⟨r, _, rfl⟩ := List.mem_map.mp hgroup
  have hrank : ∀ member ∈ key.members, member.rank = 1 := by
    intro member hmember
    rw [(groupKey_filter_eq_some hkey).1] at hmember
    obtain ⟨x, hx, rfl⟩ := mem_membersOf.mp hmember
    show Diagnostic.rank x.severity = 1
    rw [Cel.severity_of_mem_analyzeSource (List.mem_filter.mp hx).1]
    rfl
  rw [markerOf]
  cases hhead : key.members.head? with
  | none => rfl
  | some first =>
    rw [Option.map_some, Option.getD_some, hrank first (List.mem_of_mem_head? hhead)]
    rfl

/-- An open file between two messages. What is shown for the file itself, and not for a document
below it, is shown only if the file is CEL. -/
structure Kept (href language : String) (next : Nat) (f : OpenFile) : Prop where
  editor_eq : f.editor = href
  session : f.session.AtRest href language next
  aligned : f.shown.Aligned
  targets : ∀ target ∈ f.shown.markers.map (·.1), language = Cel.language ∨ target ≠ href

section

variable {href language editor : String} {next : Nat} {text : Text} {root : Document}
  {cs : List Document}

theorem oneBlock_of_shows (hshows : Document.Shows editor language text root cs) {d : Document}
    (hd : d ∈ root :: cs) : ∃ b made, d.info.blocks = [b] ∧ b.InOrder made := by
  rcases List.mem_cons.mp hd with rfl | hc
  · obtain ⟨kept, _, hblocks⟩ := hshows.blocks
    exact ⟨_, _, hblocks, inOrder_blockOf _ _ _ _ _ _ _ _⟩
  · obtain ⟨i, hi, rfl⟩ := List.getElem_of_mem hc
    have hpiece : i < (piecesOf language text).length := by rwa [hshows.houses.length_eq]
    exact ⟨_, _, (hshows.houses.get hpiece hi).blocks, inOrder_blockOf _ _ _ _ _ _ _ _⟩

theorem find?_of_nodup {ds : List Document} (h : (ds.map (·.uri.href)).Nodup) {d : Document}
    (hd : d ∈ ds) : ds.find? (·.uri.href = d.uri.href) = some d := by
  cases hfind : ds.find? (·.uri.href = d.uri.href) with
  | none =>
    have := List.find?_eq_none.mp hfind d hd
    simp at this
  | some e =>
    have hsame : e.uri.href = d.uri.href := by simpa using List.find?_some hfind
    rw [List.inj_on_of_nodup_map h (List.mem_of_find?_eq_some hfind) hd hsame]

/-- Trees that show the same text have the same markers. -/
theorem markersFor_eq {href' : String} {next' : Nat} {root' : Document} {cs' : List Document}
    (hshows : Document.Shows editor language text root cs) (hroot : root.IsRoot href language next)
    (hshows' : Document.Shows editor language text root' cs')
    (hroot' : root'.IsRoot href' language next') (check : Cel.Checker) :
    markersFor check root (root :: cs) = markersFor check root' (root' :: cs') := by
  have hlength : (root :: cs).length = (root' :: cs').length := by
    rw [List.length_cons, List.length_cons, ← hshows.houses.length_eq, hshows'.houses.length_eq]
  have hall : List.Forall₂ (fun d d' => d.language = d'.language ∧
      batchKeys root d (Cel.analyzeSource check d.value) =
        batchKeys root' d' (Cel.analyzeSource check d'.value)) (root :: cs) (root' :: cs') := by
    refine List.forall₂_iff_get.mpr ⟨hlength, fun i hi hi' => ?_⟩
    have hd := List.getElem?_eq_getElem hi
    have hd' := List.getElem?_eq_getElem hi'
    refine ⟨?_, ?_⟩
    · cases i with
      | zero => exact hroot.language_eq.trans hroot'.language_eq.symm
      | succ j =>
        have hc := hshows.language_of_piece hroot (List.getElem_mem (Nat.lt_of_succ_lt_succ hi))
        have hc' := hshows'.language_of_piece hroot' (List.getElem_mem (Nat.lt_of_succ_lt_succ hi'))
        exact hc.trans hc'.symm
    · rw [List.get_eq_getElem, List.get_eq_getElem,
        (hshows.alike hroot hshows' hroot' hd hd').value_eq]
      exact hshows.batchKeys_eq hroot hshows' hroot' hd hd' _
  unfold markersFor
  generalize root :: cs = ds at hall
  generalize root' :: cs' = ds' at hall
  induction hall with
  | nil => rfl
  | cons hsame _ ih =>
    rw [List.filter_cons, List.filter_cons, hsame.1]
    split
    · rw [List.flatMap_cons, List.flatMap_cons, hsame.2, ih]
    · exact ih

/-- After an analysis the markers of the CEL documents of the tree are drawn, and no others. -/
theorem Kept.refresh {f : OpenFile} (h : f.Kept href language next)
    (hbuildable : Document.Buildable href language text)
    (hshows : Document.Shows f.editor language text f.session.root cs) {check : Cel.Checker}
    (hdistinct : ∀ source, Distinct (Cel.analyzeSource check source)) :
    ∃ shown : Aggregator MarkerStore, f.refresh check =
        ({ f with shown := shown }, .ok (shown.drawing.published f.editor)) ∧
      Kept href language next { f with shown := shown } ∧
      (shown.drawing.entries.map (·.2)).Perm
        (markersFor check f.session.root (f.session.root :: cs)) := by
  have hroot := h.session.root
  have hwalk := hshows.walk_perm hroot
  have hrefs := ((hwalk.map (·.uri.href)).nodup_iff).mpr (hshows.hrefs_nodup hroot hbuildable)
  have hsub : ∀ d ∈ f.session.root.walk.filter (·.language = Cel.language),
      d ∈ f.session.root.walk :=
    fun d hd => (List.mem_filter.mp hd).1
  have hpruned := h.aligned.prune f.session.root
  obtain ⟨shown, heq, htook⟩ := handleAll_ok (fun d => Cel.analyzeSource check d.value)
    (hrefs.sublist (List.filter_sublist.map _)) (fun d hd => find?_of_nodup hrefs (hsub d hd))
    (fun d hd => by
      obtain ⟨b, made, hblocks, hb⟩ := oneBlock_of_shows hshows (hwalk.mem_iff.mp (hsub d hd))
      exact nodup_batchKeys hblocks hb (hdistinct d.value))
    (f := { f with shown := f.shown.prune MarkerStore.renderer f.session.root })
    h.session.acquire_eq rfl hpruned
  have htargets : ∀ target ∈ shown.markers.map (·.1), target ∈
      (f.session.root.walk.filter (·.language = Cel.language)).map (·.uri.href) := by
    intro target htarget
    rcases htook.targets target htarget with hold | hnew
    · obtain ⟨entry, hentry, rfl⟩ := List.mem_map.mp hold
      obtain ⟨hbefore, hinside⟩ := mem_markers_prune hentry
      obtain ⟨d, hd, hhref⟩ := List.mem_map.mp hinside
      refine List.mem_map.mpr ⟨d, List.mem_filter.mpr ⟨hd, ?_⟩, hhref⟩
      rcases List.mem_cons.mp (hwalk.mem_iff.mp hd) with rfl | hc
      · have hcel := (h.targets entry.1 (List.mem_map_of_mem hbefore)).resolve_right
          (not_not.mpr (hhref.symm.trans hroot.uri_href))
        simpa [hroot.language_eq] using hcel
      · exact decide_eq_true (hshows.language_of_piece hroot hc)
    · exact hnew
  refine ⟨shown, ?_, ⟨h.editor_eq, h.session, htook.aligned, ?_⟩, ?_⟩
  · simp only [OpenFile.refresh, Session.withLock, h.session.acquire_eq, Except.map,
      Cel.analyzeTree, heq]
  · intro target htarget
    obtain ⟨d, hd, rfl⟩ := List.mem_map.mp (htargets target htarget)
    obtain ⟨hd, hcel⟩ := List.mem_filter.mp hd
    rcases List.mem_cons.mp (hwalk.mem_iff.mp hd) with rfl | hc
    · refine Or.inl ?_
      simpa [hroot.language_eq] using hcel
    · refine Or.inr ?_
      rw [← hroot.uri_href]
      intro hsame
      have hfresh := (List.nodup_cons.mp (hshows.hrefs_nodup hroot hbuildable)).1
      exact hfresh (List.mem_map.mpr ⟨d, hc, hsame⟩)
  · have hdrawn := htook.aligned.drawn.trans (drawnAll_perm_flatMap
      (hrefs.sublist (List.filter_sublist.map _)) htook.aligned.targets
      (fun entry hentry => htargets _ (List.mem_map_of_mem hentry)))
    refine (hdrawn.map _).trans ?_
    rw [List.map_flatMap, List.flatMap_map]
    refine List.Perm.trans ?_ ((hwalk.filter _).flatMap_right _)
    refine List.Perm.flatMap_left _ fun d hd => ?_
    rw [map_snd_drawnOf]
    exact (htook.records d hd).map _

end

end OpenFile

end Polyglot
