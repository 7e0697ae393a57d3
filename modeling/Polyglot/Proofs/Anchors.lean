import Polyglot.Diagnostic.Aggregator

/-!
Where diagnostics are placed. A range is shown where its start lies in an editor, if the document
that owns this place is the one that reports it and no rule made the line. The table entry of a
document has the diagnostics of the last batch that could be shown, each in the place of its range.
-/
namespace Polyglot

open Document

/-- Where a range that stops somewhere in a buffer stops in the editor, from its start there. -/
def Document.stopOf (d : Document) (start : Pos .editor) (stop : Pos .buffer) : Pos .editor :=
  match d.bufferToEditor stop with
  | .ok stop => stop
  | .error _ => ⟨start.line, start.column + 1⟩

/-- The start of a range in a buffer has a place in an editor, and that one in the source of the
root. -/
structure Grounded (root document : Document) (range : Range .buffer) (editor : String)
    (start : Pos .editor) (source : Pos .source) : Prop where
  fresh : range.start.line ≤ document.bufferLines.length - document.info.config.spacing
  editor_eq : document.editorOfBufferLine range.start.line = .ok editor
  start_eq : document.bufferToEditor range.start = .ok start
  source_eq : root.editorToSource editor start = .ok source

theorem mapError_ok_bind {ε ε' α β : Type} (f : ε → ε') (a : α) (k : α → Except ε' β) :
    ((Except.ok a).mapError f >>= k) = k a := rfl

section

variable {root document : Document} {range : Range .buffer} {editor : String}
  {start : Pos .editor} {source : Pos .source}

theorem Grounded.anchor_eq (h : Grounded root document range editor start source) :
    anchor root document range =
      if (documentAt source root).idPath ≠ document.idPath then
        .error (.covered (documentAt source root).uri)
      else if document.silences range.start.line document.idPath then .error .silenced
      else .ok (editor, ⟨start, document.stopOf start range.stop⟩) := by
  unfold anchor
  rw [if_neg (Nat.not_lt.mpr h.fresh), h.editor_eq, mapError_ok_bind, h.start_eq, mapError_ok_bind,
    h.source_eq, mapError_ok_bind]
  by_cases howner : (documentAt source root).idPath = document.idPath
  · rw [if_neg (Decidable.not_not.mpr howner), if_neg (Decidable.not_not.mpr howner)]
    cases document.silences range.start.line document.idPath
    · rfl
    · rfl
  · rw [if_pos howner, if_pos howner]
    rfl

/-- A range is anchored, or it is stale, or a place is missing. -/
theorem anchor_cases (root document : Document) (range : Range .buffer) :
    (document.bufferLines.length - document.info.config.spacing < range.start.line ∧
      anchor root document range = .error (.stale range.start.line
        (document.bufferLines.length - document.info.config.spacing))) ∨
    (∃ cause, anchor root document range = .error (.unplaceable cause)) ∨
    ∃ editor start source, Grounded root document range editor start source := by
  by_cases hfresh : range.start.line ≤ document.bufferLines.length - document.info.config.spacing
  · refine Or.inr ?_
    unfold anchor
    rw [if_neg (Nat.not_lt.mpr hfresh)]
    cases heditor : document.editorOfBufferLine range.start.line with
    | error cause => exact Or.inl ⟨cause, rfl⟩
    | ok editor =>
      cases hstart : document.bufferToEditor range.start with
      | error cause => exact Or.inl ⟨cause, rfl⟩
      | ok start =>
        cases hsource : root.editorToSource editor start with
        | error cause =>
          refine Or.inl ⟨cause, ?_⟩
          rw [mapError_ok_bind, mapError_ok_bind, hsource]
          rfl
        | ok source => exact Or.inr ⟨editor, start, source, hfresh, heditor, hstart, hsource⟩
  · refine Or.inl ⟨Nat.lt_of_not_le hfresh, ?_⟩
    unfold anchor
    rw [if_pos (Nat.lt_of_not_le hfresh)]
    rfl

theorem anchor_eq_ok_iff {placed : Range .editor} :
    anchor root document range = .ok (editor, placed) ↔
      ∃ source, Grounded root document range editor placed.start source ∧
        (documentAt source root).idPath = document.idPath ∧
        document.silences range.start.line document.idPath = false ∧
        placed.stop = document.stopOf placed.start range.stop := by
  constructor
  · intro h
    rcases anchor_cases root document range with ⟨-, heq⟩ | ⟨cause, heq⟩ | ⟨e, p, source, hground⟩
    · rw [heq] at h
      cases h
    · rw [heq] at h
      cases h
    · rw [hground.anchor_eq] at h
      split at h
      · cases h
      next howner =>
        split at h
        · cases h
        next hsilent =>
          cases h
          exact ⟨source, hground, Decidable.not_not.mp howner, by simpa using hsilent, rfl⟩
  · rintro ⟨source, hground, howner, hsilent, hstop⟩
    rw [hground.anchor_eq, if_neg (Decidable.not_not.mpr howner), hsilent, ← hstop]
    rfl

/-- What starts at or before the last line of its buffer is not stale. -/
theorem anchor_ne_stale
    (h : range.start.line ≤ document.bufferLines.length - document.info.config.spacing)
    (line last : Nat) : anchor root document range ≠ .error (.stale line last) := by
  rcases anchor_cases root document range with ⟨hlt, -⟩ | ⟨cause, heq⟩ | ⟨e, p, source, hground⟩
  · omega
  · rw [heq]
    exact nofun
  · rw [hground.anchor_eq]
    split
    · exact nofun
    · split <;> exact nofun

end

/-- A renderer that draws every marker. -/
def Renderer.Accepts {σ : Type} (renderer : Renderer σ) : Prop :=
  ∀ drawing marker, ∃ drawing' id, renderer.attach drawing marker = (drawing', .ok id)

namespace Aggregator

variable {σ : Type} {renderer : Renderer σ} {root document : Document}

theorem mem_groups {diagnostics group : List (Diagnostic .buffer)} {x : Diagnostic .buffer}
    (hgroup : group ∈ groups diagnostics) (hx : x ∈ group) :
    x ∈ diagnostics ∧ ∀ y ∈ group, y.range = x.range := by
  obtain ⟨range, -, rfl⟩ := List.mem_map.mp hgroup
  have hrange : ∀ y ∈ diagnostics.filter (·.range = range), y.range = range := by
    intro y hy
    simpa using (List.mem_filter.mp hy).2
  exact ⟨(List.mem_filter.mp hx).1, fun y hy => (hrange y hy).trans (hrange x hx).symm⟩

theorem groups_singleton (x : Diagnostic .buffer) : groups [x] = [[x]] := by
  simp [groups, List.eraseDups_cons]

theorem exists_mem_groups {diagnostics : List (Diagnostic .buffer)} {x : Diagnostic .buffer}
    (h : x ∈ diagnostics) : ∃ group ∈ groups diagnostics, x ∈ group := by
  refine ⟨diagnostics.filter (·.range = x.range), List.mem_map.mpr ⟨x.range, ?_, rfl⟩,
    List.mem_filter.mpr ⟨h, by simp⟩⟩
  rw [List.mem_mergeSort, List.mem_eraseDups]
  exact List.mem_map_of_mem h

/-- A diagnostic of a group is placed where the range of the group is anchored. -/
def PlacedFrom (root document : Document) (group : List (Diagnostic .buffer)) (p : Placed) : Prop :=
  p.diagnostic ∈ group ∧ ∃ first ∈ group.head?,
    anchor root document first.range = .ok (p.editor, p.range)

/-- Showing a group places its diagnostics or nothing; an obliging renderer has them placed. -/
theorem placed_showGroup (renderer : Renderer σ) (root document : Document)
    (previous : List (MarkerKey × Nat)) (pass : Pass σ) (group : List (Diagnostic .buffer)) :
    ∃ new, (showGroup renderer root document previous pass group).placed = pass.placed ++ new ∧
      (∀ p ∈ new, PlacedFrom root document group p) ∧
      (renderer.Accepts → ∀ p, PlacedFrom root document group p → p ∈ new) := by
  have hnone : ∀ pass' : Pass σ, pass'.placed = pass.placed →
      (renderer.Accepts → ∀ p, ¬ PlacedFrom root document group p) →
      ∃ new, pass'.placed = pass.placed ++ new ∧ (∀ p ∈ new, PlacedFrom root document group p) ∧
        (renderer.Accepts → ∀ p, PlacedFrom root document group p → p ∈ new) := by
    intro pass' heq hno
    exact ⟨[], by rw [heq, List.append_nil], by simp, fun hacc p hp => (hno hacc p hp).elim⟩
  cases group with
  | nil =>
    refine hnone pass rfl ?_
    rintro - p ⟨hp, -⟩
    cases hp
  | cons first rest =>
    cases hanchor : anchor root document first.range with
    | error discard =>
      simp only [showGroup, hanchor]
      refine hnone _ rfl ?_
      rintro - p ⟨-, x, hx, hok⟩
      cases hx
      rw [hanchor] at hok
      cases hok
    | ok place =>
      obtain ⟨editor, range⟩ := place
      have hall : ∀ p ∈ (first :: rest).map (⟨·, editor, range⟩ : Diagnostic .buffer → Placed),
          PlacedFrom root document (first :: rest) p := by
        intro p hp
        obtain ⟨x, hx, rfl⟩ := List.mem_map.mp hp
        exact ⟨hx, first, rfl, hanchor⟩
      have hmem : ∀ p, PlacedFrom root document (first :: rest) p →
          p ∈ (first :: rest).map (⟨·, editor, range⟩ : Diagnostic .buffer → Placed) := by
        rintro ⟨x, e, r⟩ ⟨hx, y, hy, hok⟩
        cases hy
        rw [hanchor] at hok
        cases hok
        exact List.mem_map_of_mem hx
      cases hold : lookup ⟨membersOf (first :: rest), range, editor⟩ previous with
      | some id =>
        simp only [showGroup, hanchor, hold]
        exact ⟨_, rfl, hall, fun _ => hmem⟩
      | none =>
        simp only [showGroup, hanchor, hold]
        cases hattach : renderer.attach pass.drawing
            (markerOf ⟨membersOf (first :: rest), range, editor⟩) with
        | mk drawing result =>
          cases result with
          | ok id => exact ⟨_, rfl, hall, fun _ => hmem⟩
          | error e =>
            refine hnone _ rfl ?_
            intro hacc
            obtain ⟨drawing', id, hok⟩ := hacc pass.drawing
              (markerOf ⟨membersOf (first :: rest), range, editor⟩)
            rw [hattach] at hok
            cases hok

theorem placed_foldl_showGroup (renderer : Renderer σ) (root document : Document)
    (previous : List (MarkerKey × Nat)) (gs : List (List (Diagnostic .buffer))) (pass : Pass σ) :
    ∃ new, (gs.foldl (showGroup renderer root document previous) pass).placed =
        pass.placed ++ new ∧
      (∀ p ∈ new, ∃ g ∈ gs, PlacedFrom root document g p) ∧
      (renderer.Accepts → ∀ p, ∀ g ∈ gs, PlacedFrom root document g p → p ∈ new) := by
  induction gs generalizing pass with
  | nil => exact ⟨[], by simp, by simp, by simp⟩
  | cons g rest ih =>
    obtain ⟨new, heq, hfrom, hacc⟩ := placed_showGroup renderer root document previous pass g
    obtain ⟨more, heq', hfrom', hacc'⟩ := ih (showGroup renderer root document previous pass g)
    refine ⟨new ++ more, by rw [List.foldl_cons, heq', heq, List.append_assoc], ?_, ?_⟩
    · intro p hp
      rcases List.mem_append.mp hp with hp | hp
      · exact ⟨g, List.mem_cons_self, hfrom p hp⟩
      · obtain ⟨g', hg', hp'⟩ := hfrom' p hp
        exact ⟨g', List.mem_cons_of_mem g hg', hp'⟩
    · intro hrenderer p g' hg' hp
      rcases List.mem_cons.mp hg' with rfl | hg'
      · exact List.mem_append_left more (hacc hrenderer p hp)
      · exact List.mem_append_right new (hacc' hrenderer p g' hg' hp)

/-- After a batch, the entry of its document has diagnostics of the batch where their ranges are
anchored, and all of these if no marker is refused. -/
theorem placedOf_handle (renderer : Renderer σ) {target : Url}
    (hfind : root.find? target = some document) (diagnostics : List (Diagnostic .buffer))
    (a : Aggregator σ) :
    ∃ placed, (a.handle renderer root target diagnostics).1.placedOf target = some placed ∧
      (∀ p ∈ placed, p.diagnostic ∈ diagnostics ∧
        anchor root document p.diagnostic.range = .ok (p.editor, p.range)) ∧
      (renderer.Accepts → ∀ p : Placed, p.diagnostic ∈ diagnostics →
        anchor root document p.diagnostic.range = .ok (p.editor, p.range) → p ∈ placed) := by
  obtain ⟨new, heq, hfrom, hacc⟩ := placed_foldl_showGroup renderer root document
    ((lookup target.href a.markers).getD []) (groups diagnostics) { drawing := a.drawing }
  refine ⟨new, ?_, ?_, ?_⟩
  · unfold handle placedOf
    simp only [hfind, lookup_insert_self]
    exact congrArg some (heq.trans (List.nil_append new))
  · intro p hp
    obtain ⟨g, hg, hmem, first, hfirst, hanchor⟩ := hfrom p hp
    obtain ⟨hold, hrange⟩ := mem_groups hg hmem
    rw [hrange first (List.mem_of_mem_head? hfirst)] at hanchor
    exact ⟨hold, hanchor⟩
  · intro hrenderer p hp hanchor
    obtain ⟨g, hg, hmem⟩ := exists_mem_groups hp
    refine hacc hrenderer p g hg ⟨hmem, ?_⟩
    cases g with
    | nil => cases hmem
    | cons first rest =>
      refine ⟨first, rfl, ?_⟩
      rw [(mem_groups hg hmem).2 first List.mem_cons_self]
      exact hanchor

end Aggregator

end Polyglot
