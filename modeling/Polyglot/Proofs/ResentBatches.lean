import Polyglot.Proofs.Orphans
import Polyglot.Proofs.RendererRequests

/-!
Sending a batch again. Main statement: right after a batch for which no marker was refused, the same
diagnostics in any order ask the renderer for nothing and leave all that is remembered as it is.
-/
namespace Polyglot.Aggregator

open Renderer (Request)

variable {σ : Type}

/-- What a batch comes to when no marker is refused. -/
def outcomeOf (root document : Document) (diagnostics : List (Diagnostic .buffer)) :
    BatchOutcome where
  accepted := ((groups diagnostics).flatMap (placedGroup root document)).length
  discarded := (groups diagnostics).flatten.length -
    ((groups diagnostics).flatMap (placedGroup root document)).length

/-- The same state, with new records and diagnostics for one document. -/
def settled (root document : Document) (target : Url) (diagnostics : List (Diagnostic .buffer))
    (records : List (MarkerKey × Nat)) (drawing : σ) (a : Aggregator σ) : Aggregator σ where
  drawing := drawing
  markers := insert target.href (insertAll records []) a.markers
  table := insert target.href ((groups diagnostics).flatMap (placedGroup root document)) a.table

section

variable {renderer : Renderer σ} {root document : Document} {target : Url}
  (hfind : root.find? target = some document)

include hfind

theorem handle_of_completes {diagnostics : List (Diagnostic .buffer)}
    {records : List (MarkerKey × Nat)} {a : Aggregator σ} {result : Pass σ}
    (hresult : (groups diagnostics).foldl
      (showGroup renderer root document ((lookup target.href a.markers).getD []))
        { drawing := a.drawing } = result)
    (h : Completes root document (groups diagnostics) records { drawing := a.drawing } result) :
    a.handle renderer root target diagnostics =
      (a.settled root document target diagnostics records
        (detachAll renderer result.drawing (((lookup target.href a.markers).getD []).filter
          fun m => (lookup m.1 (insertAll records [])).isNone)),
        outcomeOf root document diagnostics) := by
  have hkept := h.kept
  have hplaced := h.placed
  have haccepted := h.accepted
  have htotal := h.total
  simp only [List.nil_append, Nat.zero_add] at hplaced haccepted htotal
  rw [handle, hfind]
  simp only [hresult, settled, outcomeOf, hkept, hplaced, haccepted]
  congr 2
  omega

/-- A batch for which no marker is refused. -/
theorem handle_of_drawn {diagnostics : List (Diagnostic .buffer)} {a : Aggregator σ}
    (h : ∀ request ∈ a.requests renderer root target diagnostics, request.refused = false) :
    ∃ records drawing, records.map (·.1) = batchKeys root document diagnostics ∧
      a.handle renderer root target diagnostics =
        (a.settled root document target diagnostics records drawing,
          outcomeOf root document diagnostics) := by
  have hnotes : ∀ request ∈ ((groups diagnostics).foldl (showGroup renderer.noting root document
      ((lookup target.href a.markers).getD [])) { drawing := (a.drawing, []) }).drawing.2,
      request.refused = false := by
    intro request hrequest
    refine h request ?_
    rw [requests, handle, hfind]
    exact (notes_prefix_detachAll renderer _ _).subset hrequest
  obtain ⟨records, hcompletes⟩ := completes_of_drawn renderer root document _ _ hnotes
  have hunnoted := unnoted_foldl renderer root document ((lookup target.href a.markers).getD [])
    (groups diagnostics) { drawing := (a.drawing, []) }
  exact ⟨records, _, hcompletes.keys,
    handle_of_completes hfind hunnoted.symm hcompletes.unnoted⟩

/-- A batch all of whose keys, and no others, are there already. -/
theorem handle_of_known {diagnostics : List (Diagnostic .buffer)} {a : Aggregator σ}
    {records : List (MarkerKey × Nat)}
    (hmarkers : lookup target.href a.markers = some (insertAll records []))
    (hkeys : records.map (·.1) = batchKeys root document diagnostics) :
    a.handle renderer root target diagnostics =
      (a.settled root document target diagnostics records a.drawing,
        outcomeOf root document diagnostics) := by
  have hknown : ∀ key ∈ (groups diagnostics).filterMap (groupKey root document),
      lookup key (insertAll records []) ≠ none := by
    intro key hkey hnone
    refine lookup_eq_none_iff.mp hnone (mem_keys_insertAll.mpr (Or.inl ?_))
    rw [hkeys]
    exact hkey
  obtain ⟨records', hcompletes, hdrawing, hrecords⟩ :=
    completes_of_known renderer root document _ hknown { drawing := a.drawing }
  have hsame : insertAll records' [] = insertAll records [] :=
    insertAll_eq_of_lookup (hcompletes.keys.trans hkeys.symm) hrecords
  have hgone : (insertAll records []).filter
      (fun m => (lookup m.1 (insertAll records' [])).isNone) = [] := by
    rw [List.filter_eq_nil_iff, hsame]
    intro m hm hnone
    exact lookup_eq_none_iff.mp (Option.isNone_iff_eq_none.mp hnone) (List.mem_map_of_mem hm)
  rw [handle_of_completes hfind (by rw [hmarkers]; rfl) hcompletes, hmarkers, Option.getD_some,
    hgone, hdrawing, settled, hsame]
  rfl

end

/-- A batch that is sent again in any order, right after it was shown without a refusal, asks the
renderer for nothing and comes to the same outcome. All that is remembered stays, but for the order
of diagnostics of one range, and both times other documents are left alone. -/
theorem resent_batch_is_silent (renderer : Renderer σ) (root : Document) (target : Url)
    {batch again : List (Diagnostic .buffer)} (hperm : again.Perm batch) (a : Aggregator σ)
    (hdrawn : ∀ request ∈ a.requests renderer root target batch, request.refused = false) :
    ∃ first outcome second, a.handle renderer root target batch = (first, outcome) ∧
      first.handle renderer root target again = (second, outcome) ∧
      first.requests renderer root target again = [] ∧
      second.drawing = first.drawing ∧ second.markers = first.markers ∧
      (root.find? target = none → first = a ∧ second = a) ∧
      (∀ document, root.find? target = some document → ∃ placed placed',
        first.placedOf target = some placed ∧ second.placedOf target = some placed' ∧
          Reordered placed' placed) ∧
      ∀ other ≠ target.href,
        lookup other first.markers = lookup other a.markers ∧
        lookup other second.markers = lookup other a.markers ∧
        lookup other first.table = lookup other a.table ∧
        lookup other second.table = lookup other a.table := by
  cases hfind : root.find? target with
  | none =>
    have hreject : ∀ {τ : Type} (renderer : Renderer τ) (b : Aggregator τ) diagnostics,
        b.handle renderer root target diagnostics = (b, { rejected := true }) := by
      intro τ renderer b diagnostics
      rw [handle, hfind]
    refine ⟨a, { rejected := true }, a, hreject _ _ _, hreject _ _ _, ?_, rfl, rfl,
      fun _ => ⟨rfl, rfl⟩, ?_, fun _ _ => ⟨rfl, rfl, rfl, rfl⟩⟩
    · rw [requests, hreject]
      rfl
    · intro document hsome
      cases hsome
  | some document =>
    have hgroups := forall₂_groups hperm
    obtain ⟨records, drawing, hkeys, hfirst⟩ := handle_of_drawn hfind hdrawn
    have hkeys' : records.map (·.1) = batchKeys root document again :=
      hkeys.trans (filterMap_groupKey_eq hgroups root document).symm
    have hplaced := reordered_flatMap hgroups root document
    have houtcome : outcomeOf root document again = outcomeOf root document batch := by
      rw [outcomeOf, outcomeOf, length_flatten_eq hgroups, hplaced.1.length_eq]
    generalize hstate : a.settled root document target batch records drawing = first at hfirst
    have hmarkers : lookup target.href first.markers = some (insertAll records []) := by
      rw [← hstate]
      exact lookup_insert_self _ _ _
    have hsecond : first.handle renderer root target again = _ :=
      handle_of_known hfind hmarkers hkeys'
    have hnoted : first.noted.handle renderer.noting root target again = _ :=
      handle_of_known hfind hmarkers hkeys'
    rw [houtcome] at hsecond
    refine ⟨first, _, _, hfirst, hsecond, ?_, rfl, ?_, ?_, ?_, ?_⟩
    · rw [requests, hnoted]
      rfl
    · rw [← hstate]
      exact insert_insert_self _ _ _ _
    · intro hnone
      cases hnone
    · intro _ _
      refine ⟨_, _, ?_, lookup_insert_self _ _ _, hplaced⟩
      rw [← hstate]
      exact lookup_insert_self _ _ _
    · intro other hother
      have hone : lookup other first.markers = lookup other a.markers ∧
          lookup other first.table = lookup other a.table := by
        rw [← hstate]
        exact ⟨lookup_insert_of_ne hother _ _, lookup_insert_of_ne hother _ _⟩
      exact ⟨hone.1, (lookup_insert_of_ne hother _ _).trans hone.1, hone.2,
        (lookup_insert_of_ne hother _ _).trans hone.2⟩

/-- A report on the character of a file of one line, and one on the place behind it. -/
def onText : Diagnostic .buffer := { range := ⟨⟨0, 0⟩, ⟨0, 1⟩⟩, message := "m" }

def behindText : Diagnostic .buffer := { range := ⟨⟨0, 1⟩, ⟨0, 1⟩⟩, message := "n" }

/-- Two markers are drawn for the two reports, and the same reports the other way round ask for
nothing. -/
theorem resent_batch_is_silent_swapped :
    (requests MarkerStore.renderer oneLineRoot oneLineUrl [onText, behindText]
        { drawing := {} }).map Request.refused = [false, false] ∧
      (handle MarkerStore.renderer oneLineRoot oneLineUrl [onText, behindText]
        { drawing := {} }).1.requests MarkerStore.renderer oneLineRoot oneLineUrl
          [behindText, onText] = [] := by
  have hrequests : (requests MarkerStore.renderer oneLineRoot oneLineUrl [onText, behindText]
      { drawing := {} }).map Request.refused = [false, false] := by
    simp (disch := decide) only [requests, handle, groups_pair]
    decide +kernel
  refine ⟨hrequests, ?_⟩
  have hdrawn : ∀ request ∈ requests MarkerStore.renderer oneLineRoot oneLineUrl
      [onText, behindText] { drawing := {} }, request.refused = false := by
    intro request hrequest
    have hmem : request.refused ∈ [false, false] := hrequests ▸ List.mem_map_of_mem hrequest
    simpa using hmem
  obtain ⟨first, outcome, second, hfirst, -, hsilent, -⟩ := resent_batch_is_silent
    MarkerStore.renderer oneLineRoot oneLineUrl (List.Perm.swap onText behindText []) _ hdrawn
  rw [hfirst]
  exact hsilent

end Polyglot.Aggregator
