import Polyglot.Proofs.BatchOrder

/-!
What the renderer is asked for while a batch is shown. A renderer that writes down its requests
answers like the one it stands for. Where no marker is refused, all groups that have a place are
shown, and where all keys were shown before, nothing is asked for at all.
-/
namespace Polyglot

/-- What a renderer was asked for, with its answer. -/
inductive Renderer.Request where
  | attach (marker : Marker) (answer : Except MarkerError Nat)
  | detach (id : Nat) (answer : Except MarkerError Unit)

/-- A marker was not drawn. -/
def Renderer.Request.refused : Request → Bool
  | attach _ (.error _) => true
  | _ => false

/-- The same renderer, which writes down all that it is asked for. -/
def Renderer.noting {σ : Type} (renderer : Renderer σ) : Renderer (σ × List Request) where
  attach s marker :=
    (((renderer.attach s.1 marker).1, s.2 ++ [.attach marker (renderer.attach s.1 marker).2]),
      (renderer.attach s.1 marker).2)
  detach s id :=
    (((renderer.detach s.1 id).1, s.2 ++ [.detach id (renderer.detach s.1 id).2]),
      (renderer.detach s.1 id).2)

namespace Aggregator

open Renderer (Request)

variable {σ : Type}

/-- With nothing written down yet. -/
def noted (a : Aggregator σ) : Aggregator (σ × List Request) where
  drawing := (a.drawing, [])
  markers := a.markers
  table := a.table

/-- What a batch asks the renderer for. -/
def requests (renderer : Renderer σ) (root : Document) (target : Url)
    (diagnostics : List (Diagnostic .buffer)) (a : Aggregator σ) : List Request :=
  (a.noted.handle renderer.noting root target diagnostics).1.drawing.2

/-! One group. -/

namespace Pass

/-- A group is shown under a key. -/
def take (pass : Pass σ) (drawing : σ) (key : MarkerKey) (id : Nat)
    (group : List (Diagnostic .buffer)) : Pass σ where
  drawing := drawing
  kept := insert key id pass.kept
  placed := pass.placed ++ group.map (⟨·, key.editor, key.range⟩)
  accepted := pass.accepted + group.length
  discarded := pass.discarded

/-- A group is not shown. -/
def discard (pass : Pass σ) (drawing : σ) (group : List (Diagnostic .buffer)) : Pass σ :=
  { pass with drawing := drawing, discarded := pass.discarded + group.length }

/-- The same work, without what was written down. -/
def unnoted (pass : Pass (σ × List Request)) : Pass σ :=
  ⟨pass.drawing.1, pass.kept, pass.placed, pass.accepted, pass.discarded⟩

end Pass

/-- What can come of a group: it has no place, its key was shown before, or a marker is asked for,
and is drawn or refused. -/
theorem showGroup_cases (renderer : Renderer σ) (root document : Document)
    (previous : List (MarkerKey × Nat)) (pass : Pass σ) (group : List (Diagnostic .buffer)) :
    (groupKey root document group = none ∧
      showGroup renderer root document previous pass group = pass.discard pass.drawing group) ∨
    ∃ key, groupKey root document group = some key ∧
      ((∃ id, lookup key previous = some id ∧
        showGroup renderer root document previous pass group =
          pass.take pass.drawing key id group) ∨
      lookup key previous = none ∧
        ((∃ drawing id, renderer.attach pass.drawing (markerOf key) = (drawing, .ok id) ∧
          showGroup renderer root document previous pass group = pass.take drawing key id group) ∨
        ∃ drawing e, renderer.attach pass.drawing (markerOf key) = (drawing, .error e) ∧
          showGroup renderer root document previous pass group = pass.discard drawing group)) := by
  cases group with
  | nil => exact Or.inl ⟨rfl, rfl⟩
  | cons x rest =>
    rw [groupKey, showGroup]
    cases anchor root document x.range with
    | error e => exact Or.inl ⟨rfl, rfl⟩
    | ok place =>
      obtain ⟨editor, range⟩ := place
      refine Or.inr ⟨_, rfl, ?_⟩
      simp only
      cases hold : lookup ⟨membersOf (x :: rest), range, editor⟩ previous with
      | some id => exact Or.inl ⟨id, rfl, rfl⟩
      | none =>
        refine Or.inr ⟨rfl, ?_⟩
        cases hattach : renderer.attach pass.drawing
            (markerOf ⟨membersOf (x :: rest), range, editor⟩) with
        | mk drawing answer =>
          cases answer with
          | ok id => exact Or.inl ⟨drawing, id, rfl, rfl⟩
          | error e => exact Or.inr ⟨drawing, e, rfl, rfl⟩

/-! All groups of a batch. -/

theorem insert_insert_self {α β : Type} [DecidableEq α] (key : α) (value value' : β)
    (entries : List (α × β)) :
    insert key value (insert key value' entries) = insert key value entries := by
  simp [insert, erase]

theorem map_fst_insert {α β : Type} [DecidableEq α] (key : α) (value : β)
    (entries : List (α × β)) :
    (insert key value entries).map (·.1) = (entries.map (·.1)).filter (· ≠ key) ++ [key] := by
  rw [insert, List.map_append, erase, List.filter_map]
  rfl

/-- Keys that are set one after another. -/
def insertAll (records kept : List (MarkerKey × Nat)) : List (MarkerKey × Nat) :=
  records.foldl (fun kept m => insert m.1 m.2 kept) kept

section

variable {records records' kept kept' : List (MarkerKey × Nat)}

theorem map_fst_insertAll (hkept : kept'.map (·.1) = kept.map (·.1))
    (h : records'.map (·.1) = records.map (·.1)) :
    (insertAll records' kept').map (·.1) = (insertAll records kept).map (·.1) := by
  induction records generalizing records' kept kept' with
  | nil =>
    rw [List.map_eq_nil_iff.mp h]
    exact hkept
  | cons m rest ih =>
    obtain ⟨m', rest', rfl, hkey, hrest⟩ := List.map_eq_cons_iff.mp h
    rw [insertAll, insertAll, List.foldl_cons, List.foldl_cons]
    refine @ih rest' (insert m.1 m.2 kept) (insert m'.1 m'.2 kept') ?_ hrest
    rw [map_fst_insert, map_fst_insert, hkept, hkey]

theorem nodup_insertAll (h : (kept.map (·.1)).Nodup) :
    ((insertAll records kept).map (·.1)).Nodup := by
  induction records generalizing kept with
  | nil => exact h
  | cons m rest ih => exact ih (nodup_insert h m.1 m.2)

theorem mem_keys_insertAll {key : MarkerKey} :
    key ∈ (insertAll records kept).map (·.1) ↔ key ∈ records.map (·.1) ∨ key ∈ kept.map (·.1) := by
  induction records generalizing kept with
  | nil => simp [insertAll]
  | cons m rest ih =>
    rw [insertAll, List.foldl_cons]
    refine ih.trans ?_
    rw [mem_keys_insert, List.map_cons, List.mem_cons]
    exact or_left_comm.trans or_assoc.symm

theorem mem_of_mem_insertAll {m : MarkerKey × Nat} (h : m ∈ insertAll records kept) :
    m ∈ records ∨ m ∈ kept := by
  induction records generalizing kept with
  | nil => exact Or.inr h
  | cons n rest ih =>
    rcases ih h with hrest | hinsert
    · exact Or.inl (List.mem_cons_of_mem n hrest)
    · rcases mem_insert hinsert with rfl | hkept
      · exact Or.inl List.mem_cons_self
      · exact Or.inr hkept

/-- Entries with the same keys in the same order, each with the value that is found for its key. -/
theorem eq_of_lookup {entries entries' : List (MarkerKey × Nat)} (hkeys : (entries.map (·.1)).Nodup)
    (hsame : entries'.map (·.1) = entries.map (·.1))
    (h : ∀ m ∈ entries', lookup m.1 entries = some m.2) : entries' = entries := by
  have hlength : entries'.length = entries.length := by
    rw [← List.length_map (·.1), hsame, List.length_map]
  refine List.ext_getElem hlength ?_
  intro i hi hi'
  have hkey : entries'[i].1 = entries[i].1 := by
    have := List.getElem_of_eq hsame (i := i) (by rwa [List.length_map])
    rwa [List.getElem_map, List.getElem_map] at this
  have hfound : lookup entries[i].1 entries = some entries[i].2 :=
    lookup_of_mem hkeys (List.getElem_mem hi')
  have hvalue := h _ (List.getElem_mem hi)
  rw [hkey, hfound] at hvalue
  exact Prod.ext hkey (Option.some.inj hvalue).symm

/-- Setting each key to the value it has already changes nothing. -/
theorem insertAll_eq_of_lookup (hkeys : records'.map (·.1) = records.map (·.1))
    (h : ∀ m ∈ records', lookup m.1 (insertAll records []) = some m.2) :
    insertAll records' [] = insertAll records [] := by
  refine eq_of_lookup (nodup_insertAll List.nodup_nil) (map_fst_insertAll rfl hkeys) ?_
  intro m hm
  rcases mem_of_mem_insertAll hm with hrecord | hnil
  · exact h m hrecord
  · cases hnil

end

/-- The work on some groups when no marker is refused: all that have a place are shown. -/
structure Completes (root document : Document) (gs : List (List (Diagnostic .buffer)))
    (records : List (MarkerKey × Nat)) (pass result : Pass σ) : Prop where
  keys : records.map (·.1) = gs.filterMap (groupKey root document)
  kept : result.kept = insertAll records pass.kept
  placed : result.placed = pass.placed ++ gs.flatMap (placedGroup root document)
  accepted : result.accepted =
    pass.accepted + (gs.flatMap (placedGroup root document)).length
  total : result.accepted + result.discarded =
    pass.accepted + pass.discarded + gs.flatten.length

namespace Completes

variable {root document : Document} {gs : List (List (Diagnostic .buffer))}
  {group : List (Diagnostic .buffer)} {records : List (MarkerKey × Nat)}
  {pass mid result : Pass σ}

theorem refl (pass : Pass σ) : Completes root document [] [] pass pass where
  keys := rfl
  kept := rfl
  placed := (List.append_nil _).symm
  accepted := rfl
  total := rfl

theorem discard {drawing : σ} (hkey : groupKey root document group = none)
    (h : Completes root document gs records (pass.discard drawing group) result) :
    Completes root document (group :: gs) records pass result where
  keys := by rw [h.keys, List.filterMap_cons, hkey]
  kept := h.kept
  placed := by
    rw [h.placed, List.flatMap_cons, placedGroup, hkey]
    rfl
  accepted := by
    rw [h.accepted, List.flatMap_cons, placedGroup, hkey]
    rfl
  total := by
    rw [h.total, List.flatten_cons, List.length_append]
    simp only [Pass.discard]
    omega

theorem take {drawing : σ} {key : MarkerKey} {id : Nat}
    (hkey : groupKey root document group = some key)
    (h : Completes root document gs records (pass.take drawing key id group) result) :
    Completes root document (group :: gs) ((key, id) :: records) pass result where
  keys := by rw [List.map_cons, h.keys, List.filterMap_cons, hkey]
  kept := h.kept
  placed := by
    rw [h.placed, List.flatMap_cons, placedGroup, hkey, Pass.take, List.append_assoc]
    rfl
  accepted := by
    rw [h.accepted, List.flatMap_cons, List.length_append, placedGroup, hkey, Option.elim_some,
      List.length_map]
    simp only [Pass.take]
    omega
  total := by
    rw [h.total, List.flatten_cons, List.length_append]
    simp only [Pass.take]
    omega

theorem unnoted {pass result : Pass (σ × List Request)}
    (h : Completes root document gs records pass result) :
    Completes root document gs records pass.unnoted result.unnoted :=
  ⟨h.keys, h.kept, h.placed, h.accepted, h.total⟩

end Completes

section

variable (renderer : Renderer σ) (root document : Document) (previous : List (MarkerKey × Nat))

/-- Groups whose keys were all shown before ask for nothing. -/
theorem completes_of_known {gs : List (List (Diagnostic .buffer))}
    (h : ∀ key ∈ gs.filterMap (groupKey root document), lookup key previous ≠ none)
    (pass : Pass σ) :
    ∃ records, Completes root document gs records pass
        (gs.foldl (showGroup renderer root document previous) pass) ∧
      (gs.foldl (showGroup renderer root document previous) pass).drawing = pass.drawing ∧
      ∀ m ∈ records, lookup m.1 previous = some m.2 := by
  induction gs generalizing pass with
  | nil => exact ⟨[], Completes.refl pass, rfl, by simp⟩
  | cons group rest ih =>
    rw [List.foldl_cons]
    rcases showGroup_cases renderer root document previous pass group with
      ⟨hkey, hpass⟩ | ⟨key, hkey, hshown⟩
    · rw [List.filterMap_cons, hkey] at h
      obtain ⟨records, hcompletes, hdrawing, hrecords⟩ := ih h (pass.discard pass.drawing group)
      rw [hpass]
      exact ⟨records, hcompletes.discard hkey, hdrawing, hrecords⟩
    · rw [List.filterMap_cons, hkey] at h
      rcases hshown with ⟨id, hold, hpass⟩ | ⟨hnone, -⟩
      · obtain ⟨records, hcompletes, hdrawing, hrecords⟩ :=
          ih (fun k hk => h k (List.mem_cons_of_mem key hk)) (pass.take pass.drawing key id group)
        rw [hpass]
        refine ⟨(key, id) :: records, hcompletes.take hkey, hdrawing, ?_⟩
        intro m hm
        rcases List.mem_cons.mp hm with rfl | hm
        · exact hold
        · exact hrecords m hm
      · exact absurd hnone (h key List.mem_cons_self)

/-- What was written down stays. -/
theorem notes_prefix_foldl (gs : List (List (Diagnostic .buffer)))
    (pass : Pass (σ × List Request)) :
    pass.drawing.2 <+:
      (gs.foldl (showGroup renderer.noting root document previous) pass).drawing.2 := by
  induction gs generalizing pass with
  | nil => exact List.prefix_refl _
  | cons group rest ih =>
    refine List.IsPrefix.trans ?_ (ih _)
    rcases showGroup_cases renderer.noting root document previous pass group with
      ⟨-, hpass⟩ | ⟨key, -, ⟨id, -, hpass⟩ | ⟨-, ⟨drawing, id, hattach, hpass⟩ |
        ⟨drawing, e, hattach, hpass⟩⟩⟩
    · rw [hpass]
      exact List.prefix_refl _
    · rw [hpass]
      exact List.prefix_refl _
    · rw [hpass]
      obtain ⟨rfl, -⟩ := Prod.mk.inj hattach
      exact List.prefix_append _ _
    · rw [hpass]
      obtain ⟨rfl, -⟩ := Prod.mk.inj hattach
      exact List.prefix_append _ _

theorem notes_prefix_detachAll (drawing : σ × List Request) (gone : List (MarkerKey × Nat)) :
    drawing.2 <+: (detachAll renderer.noting drawing gone).2 := by
  induction gone generalizing drawing with
  | nil => exact List.prefix_refl _
  | cons m rest ih =>
    exact (List.prefix_append _ _).trans (ih (renderer.noting.detach drawing m.2).1)

/-- Groups for which no marker was refused. -/
theorem completes_of_drawn {gs : List (List (Diagnostic .buffer))}
    (pass : Pass (σ × List Request))
    (h : ∀ request ∈ (gs.foldl (showGroup renderer.noting root document previous) pass).drawing.2,
      request.refused = false) :
    ∃ records, Completes root document gs records pass
      (gs.foldl (showGroup renderer.noting root document previous) pass) := by
  induction gs generalizing pass with
  | nil => exact ⟨[], Completes.refl pass⟩
  | cons group rest ih =>
    rw [List.foldl_cons] at h ⊢
    obtain ⟨records, hcompletes⟩ := ih _ h
    rcases showGroup_cases renderer.noting root document previous pass group with
      ⟨hkey, hpass⟩ | ⟨key, hkey, ⟨id, -, hpass⟩ | ⟨-, ⟨drawing, id, -, hpass⟩ |
        ⟨drawing, e, hattach, hpass⟩⟩⟩
    · rw [hpass] at hcompletes ⊢
      exact ⟨records, hcompletes.discard hkey⟩
    · rw [hpass] at hcompletes ⊢
      exact ⟨(key, id) :: records, hcompletes.take hkey⟩
    · rw [hpass] at hcompletes ⊢
      exact ⟨(key, id) :: records, hcompletes.take hkey⟩
    · -- the refusal would have been written down
      obtain ⟨rfl, hanswer⟩ := Prod.mk.inj hattach
      have hnoted := notes_prefix_foldl renderer root document previous rest
        (showGroup renderer.noting root document previous pass group)
      rw [hpass] at hnoted h
      have hrefused := h _ (hnoted.subset (List.mem_append_right _ (List.mem_singleton_self _)))
      rw [hanswer] at hrefused
      cases hrefused

/-- Writing down changes nothing else. -/
theorem unnoted_foldl (gs : List (List (Diagnostic .buffer))) (pass : Pass (σ × List Request)) :
    (gs.foldl (showGroup renderer.noting root document previous) pass).unnoted =
      gs.foldl (showGroup renderer root document previous) pass.unnoted := by
  induction gs generalizing pass with
  | nil => rfl
  | cons group rest ih =>
    rw [List.foldl_cons, List.foldl_cons, ih]
    congr 1
    cases group with
    | nil => rfl
    | cons x xs =>
      rw [showGroup, showGroup]
      cases anchor root document x.range with
      | error e => rfl
      | ok place =>
        obtain ⟨editor, range⟩ := place
        simp only [Pass.unnoted, Renderer.noting]
        cases lookup ⟨membersOf (x :: xs), range, editor⟩ previous with
        | some id => rfl
        | none =>
          cases renderer.attach pass.drawing.1
              (markerOf ⟨membersOf (x :: xs), range, editor⟩) with
          | mk drawing answer =>
            cases answer with
            | ok id => rfl
            | error e => rfl

end

end Aggregator

end Polyglot
