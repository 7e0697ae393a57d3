import Polyglot.Proofs.Publication

/-!
The order of a batch. Ranges, and what is said at each of them, are sorted before anything is shown,
so that a batch in another order has the same keys, and what is placed for it differs in the order
of diagnostics of one range only.
-/
namespace Polyglot

namespace Member

def weight (m : Member) : ℕ ×ₗ (String ×ₗ (String ×ₗ String)) :=
  toLex (m.rank, toLex (m.message, toLex (m.code, m.source)))

theorem weight_injective : Function.Injective weight := by
  intro a b h
  obtain ⟨hrank, h⟩ := Prod.mk.inj (toLex_inj.mp h)
  obtain ⟨hmessage, h⟩ := Prod.mk.inj (toLex_inj.mp h)
  obtain ⟨hcode, hsource⟩ := Prod.mk.inj (toLex_inj.mp h)
  cases a
  cases b
  simp only [Member.mk.injEq]
  exact ⟨hrank, hmessage, hcode, hsource⟩

theorem le_iff (a b : Member) : le a b = true ↔ a.weight ≤ b.weight := by
  rw [le, weight, weight, Prod.Lex.toLex_le_toLex, Prod.Lex.toLex_le_toLex,
    Prod.Lex.toLex_le_toLex]
  by_cases hrank : a.rank = b.rank
  · by_cases hmessage : a.message = b.message
    · by_cases hcode : a.code = b.code <;> simp [hrank, hmessage, hcode]
    · simp [hrank, hmessage]
  · simp [hrank]

end Member

namespace Aggregator

theorem membersOf_eq_of_perm {group group' : List (Diagnostic .buffer)} (h : group.Perm group') :
    membersOf group = membersOf group' :=
  mergeSort_eq_of_perm Member.weight_injective.injOn Member.le_iff (h.map Member.ofDiagnostic)

/-- The ranges of a batch, in order. -/
def rangesOf (diagnostics : List (Diagnostic .buffer)) : List (Range .buffer) :=
  (diagnostics.map (·.range)).eraseDups.mergeSort Range.before

theorem rangesOf_eq_of_perm {batch again : List (Diagnostic .buffer)} (h : again.Perm batch) :
    rangesOf again = rangesOf batch := by
  refine mergeSort_eq_of_perm Range.weight_injective.injOn Range.before_iff ?_
  refine (List.perm_ext_iff_of_nodup (nodup_eraseDups _) (nodup_eraseDups _)).mpr ?_
  intro r
  rw [List.mem_eraseDups, List.mem_eraseDups, (h.map (·.range)).mem_iff]

/-- What is placed for a group that no marker is refused for. -/
def placedGroup (root document : Document) (group : List (Diagnostic .buffer)) : List Placed :=
  (groupKey root document group).elim [] fun key => group.map (⟨·, key.editor, key.range⟩)

/-- The same diagnostics, in the order of their ranges. -/
def Reordered (placed placed' : List Placed) : Prop :=
  placed.Perm placed' ∧ placed.map (·.diagnostic.range) = placed'.map (·.diagnostic.range)

theorem Reordered.refl (placed : List Placed) : Reordered placed placed :=
  ⟨List.Perm.refl placed, rfl⟩

theorem Reordered.append {p p' q q' : List Placed} (h : Reordered p p') (h' : Reordered q q') :
    Reordered (p ++ q) (p' ++ q') := by
  refine ⟨h.1.append h'.1, ?_⟩
  rw [List.map_append, List.map_append, h.2, h'.2]

/-- The same diagnostics, all of one range. -/
def Regrouped (group' group : List (Diagnostic .buffer)) : Prop :=
  group'.Perm group ∧ ∃ r, ∀ x ∈ group, x.range = r

section

variable {root document : Document} {group group' : List (Diagnostic .buffer)}
  (h : Regrouped group' group)

include h

theorem groupKey_eq_of_regrouped :
    groupKey root document group' = groupKey root document group := by
  obtain ⟨hperm, r, hrange⟩ := h
  cases group with
  | nil => rw [hperm.eq_nil]
  | cons x rest =>
    cases group' with
    | nil => exact absurd hperm.symm.eq_nil (List.cons_ne_nil x rest)
    | cons y rest' =>
      have hsame : y.range = x.range :=
        (hrange y (hperm.subset List.mem_cons_self)).trans (hrange x List.mem_cons_self).symm
      rw [groupKey, groupKey, hsame, membersOf_eq_of_perm hperm]

theorem reordered_placedGroup :
    Reordered (placedGroup root document group') (placedGroup root document group) := by
  rw [placedGroup, placedGroup, groupKey_eq_of_regrouped h]
  obtain ⟨hperm, r, hrange⟩ := h
  cases groupKey root document group with
  | none => exact Reordered.refl []
  | some key =>
    refine ⟨hperm.map _, ?_⟩
    -- all diagnostics of a group have its range, so that only their number counts
    have hall : ∀ g : List (Diagnostic .buffer), (∀ x ∈ g, x.range = r) →
        (g.map (⟨·, key.editor, key.range⟩ : Diagnostic .buffer → Placed)).map
          (·.diagnostic.range) = List.replicate g.length r := by
      intro g hg
      rw [List.map_map, List.eq_replicate_iff, List.length_map]
      refine ⟨rfl, ?_⟩
      intro range hmem
      obtain ⟨x, hx, rfl⟩ := List.mem_map.mp hmem
      exact hg x hx
    rw [Option.elim_some, Option.elim_some, hall group hrange,
      hall group' fun x hx => hrange x (hperm.subset hx), hperm.length_eq]

end

theorem forall₂_groups {batch again : List (Diagnostic .buffer)} (h : again.Perm batch) :
    List.Forall₂ Regrouped (groups again) (groups batch) := by
  have hranges : ∀ diagnostics : List (Diagnostic .buffer), groups diagnostics =
      (rangesOf diagnostics).map fun r => diagnostics.filter (·.range = r) := fun _ => rfl
  rw [hranges, hranges, rangesOf_eq_of_perm h, List.forall₂_map_left_iff,
    List.forall₂_map_right_iff, List.forall₂_same]
  intro r _
  refine ⟨h.filter _, r, ?_⟩
  intro x hx
  simpa using (List.mem_filter.mp hx).2

section

variable {gs gs' : List (List (Diagnostic .buffer))} (h : List.Forall₂ Regrouped gs' gs)

include h

theorem filterMap_groupKey_eq (root document : Document) :
    gs'.filterMap (groupKey root document) = gs.filterMap (groupKey root document) := by
  induction h with
  | nil => rfl
  | cons hfirst _ ih =>
    rw [List.filterMap_cons, List.filterMap_cons, groupKey_eq_of_regrouped hfirst, ih]

theorem reordered_flatMap (root document : Document) :
    Reordered (gs'.flatMap (placedGroup root document))
      (gs.flatMap (placedGroup root document)) := by
  induction h with
  | nil => exact Reordered.refl []
  | cons hfirst _ ih =>
    rw [List.flatMap_cons, List.flatMap_cons]
    exact Reordered.append (reordered_placedGroup hfirst) ih

theorem length_flatten_eq : gs'.flatten.length = gs.flatten.length := by
  induction h with
  | nil => rfl
  | cons hfirst _ ih =>
    rw [List.flatten_cons, List.flatten_cons, List.length_append, List.length_append,
      hfirst.1.length_eq, ih]

end

end Aggregator

end Polyglot
