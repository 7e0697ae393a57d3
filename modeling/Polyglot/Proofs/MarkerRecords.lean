import Polyglot.Diagnostic.MarkerStore
import Polyglot.Proofs.Entries
import Mathlib.Data.List.Induction
import Mathlib.Data.List.Range

/-!
What an aggregator has drawn, and what it remembers of it. Showing a batch attaches a marker for
every group whose key was not shown before, so where two such groups have one key, the number of
the first marker is overwritten, and the marker stays. Otherwise all markers that are drawn are
remembered, each under one document and one key.
-/
namespace Polyglot.Aggregator

/-! A batch, key by key. -/

/-- The key under which a group of diagnostics is shown, if it has a place. -/
def groupKey (root document : Document) : List (Diagnostic .buffer) → Option MarkerKey
  | [] => none
  | first :: rest =>
    match anchor root document first.range with
    | .error _ => none
    | .ok (editor, range) => some ⟨membersOf (first :: rest), range, editor⟩

def batchKeys (root document : Document) (diagnostics : List (Diagnostic .buffer)) :
    List MarkerKey :=
  (groups diagnostics).filterMap (groupKey root document)

/-- What showing one key does to the store and to what is kept. -/
def showKey (previous : List (MarkerKey × Nat)) (state : MarkerStore × List (MarkerKey × Nat))
    (key : MarkerKey) : MarkerStore × List (MarkerKey × Nat) :=
  match lookup key previous with
  | some id => (state.1, insert key id state.2)
  | none =>
    ((state.1.attach (markerOf key)).1, insert key (state.1.attach (markerOf key)).2 state.2)

theorem showGroup_eq (root document : Document) (previous : List (MarkerKey × Nat))
    (pass : Pass MarkerStore) (group : List (Diagnostic .buffer)) :
    ((showGroup MarkerStore.renderer root document previous pass group).drawing,
      (showGroup MarkerStore.renderer root document previous pass group).kept) =
      (groupKey root document group).elim (pass.drawing, pass.kept)
        (showKey previous (pass.drawing, pass.kept)) := by
  cases group with
  | nil => rfl
  | cons first rest =>
    rw [showGroup, groupKey]
    cases anchor root document first.range with
    | error e => rfl
    | ok placed =>
      obtain ⟨editor, range⟩ := placed
      simp only [Option.elim_some, showKey]
      cases lookup ⟨membersOf (first :: rest), range, editor⟩ previous <;> rfl

theorem foldl_showGroup_eq (root document : Document) (previous : List (MarkerKey × Nat))
    (gs : List (List (Diagnostic .buffer))) (pass : Pass MarkerStore) :
    ((gs.foldl (showGroup MarkerStore.renderer root document previous) pass).drawing,
      (gs.foldl (showGroup MarkerStore.renderer root document previous) pass).kept) =
      (gs.filterMap (groupKey root document)).foldl (showKey previous)
      (pass.drawing, pass.kept) := by
  induction gs generalizing pass with
  | nil => rfl
  | cons g rest ih =>
    rw [List.foldl_cons, ih, showGroup_eq, List.filterMap_cons]
    cases groupKey root document g with
    | none => rfl
    | some key => rfl

/-- The markers that a list of records stands for. -/
def drawnOf (records : List (MarkerKey × Nat)) : List (Nat × Marker) :=
  records.map fun m => (m.2, markerOf m.1)

/-- What comes of showing keys, one after another: the markers that were attached, with consecutive
numbers, and what is kept for each key. -/
structure Shown (previous : List (MarkerKey × Nat)) (store : MarkerStore) (keys : List MarkerKey)
    (result : MarkerStore × List (MarkerKey × Nat)) (new : List (MarkerKey × Nat)) : Prop where
  entries_eq : result.1.entries = store.entries ++ drawnOf new
  last_eq : result.1.last = store.last + new.length
  new_keys : new.map (·.1) = keys.filter fun key => (lookup key previous).isNone
  new_ids : new.map (·.2) = List.range' (store.last + 1) new.length
  kept_keys : (result.2.map (·.1)).Nodup
  mem_keys : ∀ key, key ∈ result.2.map (·.1) ↔ key ∈ keys
  mem_kept : ∀ m ∈ result.2, m ∈ previous ∨ m ∈ new

theorem mem_insert {key : MarkerKey} {id : Nat} {kept : List (MarkerKey × Nat)}
    {m : MarkerKey × Nat} (h : m ∈ insert key id kept) : m = (key, id) ∨ m ∈ kept := by
  rcases List.mem_append.mp h with hold | hnew
  · exact Or.inr (List.mem_filter.mp hold).1
  · exact Or.inl (List.mem_singleton.mp hnew)

theorem exists_shown (previous : List (MarkerKey × Nat)) (store : MarkerStore)
    (keys : List MarkerKey) :
    ∃ new, Shown previous store keys (keys.foldl (showKey previous) (store, [])) new := by
  induction keys using List.reverseRecOn with
  | nil => exact ⟨[], by simp [drawnOf], by simp, rfl, rfl, by simp, by simp, by simp⟩
  | append_singleton keys key ih =>
    obtain ⟨new, h⟩ := ih
    rw [List.foldl_append, List.foldl_cons, List.foldl_nil]
    generalize keys.foldl (showKey previous) (store, []) = state at h ⊢
    have hmem : ∀ (id : Nat) (k : MarkerKey), k ∈ (insert key id state.2).map (·.1) ↔
        k ∈ keys ++ [key] := by
      intro id k
      rw [mem_keys_insert, h.mem_keys, List.mem_append, List.mem_singleton, or_comm]
    cases hold : lookup key previous with
    | some id =>
      simp only [showKey, hold]
      refine ⟨new, h.entries_eq, h.last_eq, ?_, h.new_ids, nodup_insert h.kept_keys key id, hmem id,
        ?_⟩
      · rw [List.filter_append, h.new_keys]
        simp [hold]
      · intro m hm
        rcases mem_insert hm with rfl | hm
        · exact Or.inl (mem_of_lookup hold)
        · exact h.mem_kept m hm
    | none =>
      simp only [showKey, hold, MarkerStore.attach]
      refine ⟨new ++ [(key, store.last + new.length + 1)], ?_, ?_, ?_, ?_,
        nodup_insert h.kept_keys key _, hmem _, ?_⟩
      · simp only [h.entries_eq, h.last_eq, drawnOf, List.map_append, List.map_singleton,
          List.append_assoc]
      · simp only [h.last_eq, List.length_append, List.length_singleton]
        omega
      · rw [List.filter_append, List.map_append, h.new_keys]
        simp [hold]
      · rw [List.map_append, h.new_ids, List.length_append, List.length_singleton,
          List.range'_1_concat]
        simp only [List.map_singleton]
        congr 2
        omega
      · intro m hm
        rw [h.last_eq] at hm
        rcases mem_insert hm with rfl | hm
        · exact Or.inr (by simp)
        · rcases h.mem_kept m hm with hprev | hnew
          · exact Or.inl hprev
          · exact Or.inr (List.mem_append_left _ hnew)

/-- No key is shown under two new markers. -/
def Apart (previous : List (MarkerKey × Nat)) (keys : List MarkerKey) : Prop :=
  (keys.filter fun key => (lookup key previous).isNone).Nodup

/-- Where all new keys are different, what is kept is what was there before and is still shown, and
what is new. -/
theorem Shown.perm_kept {previous new : List (MarkerKey × Nat)} {store : MarkerStore}
    {keys : List MarkerKey} {result : MarkerStore × List (MarkerKey × Nat)}
    (h : Shown previous store keys result new) (hprevious : (previous.map (·.1)).Nodup)
    (hapart : Apart previous keys) :
    result.2.Perm (previous.filter (fun m => m.1 ∈ keys) ++ new) := by
  have hnew : ∀ m ∈ new, m.1 ∈ keys ∧ lookup m.1 previous = none := by
    intro m hm
    have hkey : m.1 ∈ new.map (·.1) := List.mem_map_of_mem hm
    rw [h.new_keys] at hkey
    simpa using hkey
  have hall : ((previous.filter (fun m => m.1 ∈ keys) ++ new).map (·.1)).Nodup := by
    rw [List.map_append, List.nodup_append]
    refine ⟨hprevious.sublist (List.filter_sublist.map _), h.new_keys ▸ hapart, ?_⟩
    intro x hx y hy heq
    obtain ⟨m, hm, rfl⟩ := List.mem_map.mp hx
    obtain ⟨m', hm', rfl⟩ := List.mem_map.mp hy
    refine lookup_eq_none_iff.mp (hnew m' hm').2 ?_
    rw [← heq]
    exact List.mem_map_of_mem (List.mem_filter.mp hm).1
  have hsub : ∀ m ∈ result.2, m ∈ previous.filter (fun m => m.1 ∈ keys) ++ new := by
    intro m hm
    have hkey := (h.mem_keys m.1).mp (List.mem_map_of_mem hm)
    rcases h.mem_kept m hm with hold | hnew
    · exact List.mem_append_left _ (List.mem_filter.mpr ⟨hold, by simpa using hkey⟩)
    · exact List.mem_append_right _ hnew
  refine (List.perm_ext_iff_of_nodup h.kept_keys.of_map hall.of_map).mpr ?_
  intro m
  refine ⟨hsub m, ?_⟩
  intro hm
  have hkey : m.1 ∈ keys := by
    rcases List.mem_append.mp hm with hold | hm
    · simpa using (List.mem_filter.mp hold).2
    · exact (hnew m hm).1
  obtain ⟨m', hm', hsame⟩ := List.mem_map.mp ((h.mem_keys m.1).mpr hkey)
  have heq : m' = m := List.inj_on_of_nodup_map hall (hsub m' hm') hm hsame
  exact heq ▸ hm'

/-! Taking markers away. -/

theorem detach_entries (store : MarkerStore) (id : Nat) :
    (store.detach id).1.entries = store.entries.filter (·.1 ≠ id) ∧
      (store.detach id).1.last = store.last := by
  unfold MarkerStore.detach
  split
  · exact ⟨rfl, rfl⟩
  next hnone =>
    refine ⟨?_, rfl⟩
    rw [eq_comm, List.filter_eq_self]
    intro entry hentry
    rw [List.any_eq_true, not_exists] at hnone
    have := hnone entry
    simpa [hentry] using this

theorem detachAll_entries (store : MarkerStore) (records : List (MarkerKey × Nat)) :
    (detachAll MarkerStore.renderer store records).entries =
        store.entries.filter (fun entry => entry.1 ∉ records.map (·.2)) ∧
      (detachAll MarkerStore.renderer store records).last = store.last := by
  induction records generalizing store with
  | nil =>
    refine ⟨?_, rfl⟩
    simp [detachAll]
  | cons m rest ih =>
    obtain ⟨hentries, hlast⟩ := detach_entries store m.2
    have hstep : detachAll MarkerStore.renderer store (m :: rest) =
        detachAll MarkerStore.renderer (store.detach m.2).1 rest := rfl
    rw [hstep, (ih _).1, (ih _).2, hentries, hlast, List.filter_filter]
    refine ⟨?_, rfl⟩
    refine List.filter_congr ?_
    intro entry _
    simp only [List.map_cons, List.mem_cons, not_or]
    rw [← Bool.decide_and]
    exact decide_eq_decide.mpr And.comm

theorem map_drawnOf (records : List (MarkerKey × Nat)) :
    (drawnOf records).map (·.1) = records.map (·.2) := by
  rw [drawnOf, List.map_map]
  rfl

/-! What is drawn is what is remembered. -/

/-- The records of a document. -/
def recordsOf (a : Aggregator MarkerStore) (target : String) : List (MarkerKey × Nat) :=
  (lookup target a.markers).getD []

/-- The markers that all records stand for. -/
def drawnAll (markers : List (String × List (MarkerKey × Nat))) : List (Nat × Marker) :=
  markers.flatMap fun entry => drawnOf entry.2

/-- The markers that are drawn are those that the records stand for, each with a number of its
own. -/
structure Aligned (a : Aggregator MarkerStore) : Prop where
  ids : (a.drawing.entries.map (·.1)).Nodup
  numbered : ∀ entry ∈ a.drawing.entries, entry.1 ≤ a.drawing.last
  targets : (a.markers.map (·.1)).Nodup
  keys : ∀ entry ∈ a.markers, (entry.2.map (·.1)).Nodup
  drawn : a.drawing.entries.Perm (drawnAll a.markers)

theorem aligned_empty : Aligned { drawing := {} } where
  ids := List.nodup_nil
  numbered _ h := by simp at h
  targets := List.nodup_nil
  keys _ h := by simp at h
  drawn := List.Perm.refl _

section

variable {a : Aggregator MarkerStore}

/-- The records of one document, and those of all others. -/
theorem drawnAll_perm {markers : List (String × List (MarkerKey × Nat))}
    (h : (markers.map (·.1)).Nodup) (target : String) :
    (drawnAll markers).Perm
      (drawnOf ((lookup target markers).getD []) ++ drawnAll (erase target markers)) := by
  cases hlookup : lookup target markers with
  | none =>
    rw [erase_eq_self hlookup]
    exact List.Perm.refl _
  | some records => exact (perm_of_lookup h hlookup).flatMap_right _

theorem Aligned.perm_at (h : a.Aligned) (target : String) :
    a.drawing.entries.Perm (drawnOf (a.recordsOf target) ++ drawnAll (erase target a.markers)) :=
  h.drawn.trans (drawnAll_perm h.targets target)

theorem Aligned.keys_at (h : a.Aligned) (target : String) :
    ((a.recordsOf target).map (·.1)).Nodup := by
  unfold recordsOf
  cases hlookup : lookup target a.markers with
  | none => exact List.nodup_nil
  | some records => exact h.keys _ (mem_of_lookup hlookup)

/-- The numbers of one document, and those of all others, are different. -/
theorem Aligned.ids_at (h : a.Aligned) (target : String) :
    ((a.recordsOf target).map (·.2)).Nodup ∧
      ∀ entry ∈ drawnAll (erase target a.markers), entry.1 ∉ (a.recordsOf target).map (·.2) := by
  have hids := ((h.perm_at target).map (·.1)).nodup_iff.mp h.ids
  rw [List.map_append, map_drawnOf, List.nodup_append] at hids
  refine ⟨hids.1, ?_⟩
  intro entry hentry hmem
  exact hids.2.2 _ hmem _ (List.mem_map_of_mem hentry) rfl

theorem Aligned.forget (h : a.Aligned) (target : String) :
    (a.forget MarkerStore.renderer target).Aligned := by
  obtain ⟨hentries, hlast⟩ := detachAll_entries a.drawing (a.recordsOf target)
  obtain ⟨_, hothers⟩ := h.ids_at target
  have hdrawing : (a.forget MarkerStore.renderer target).drawing =
      detachAll MarkerStore.renderer a.drawing (a.recordsOf target) := rfl
  refine ⟨?_, ?_, nodup_erase h.targets target, ?_, ?_⟩
  · rw [hdrawing, hentries]
    exact h.ids.sublist (List.filter_sublist.map _)
  · intro entry hentry
    rw [hdrawing, hentries] at hentry
    rw [hdrawing, hlast]
    exact h.numbered entry (List.mem_filter.mp hentry).1
  · intro entry hentry
    exact h.keys entry (List.mem_filter.mp hentry).1
  · rw [hdrawing, hentries]
    refine ((h.perm_at target).filter _).trans ?_
    rw [List.filter_append]
    have hgone : (drawnOf (a.recordsOf target)).filter
        (fun entry => entry.1 ∉ (a.recordsOf target).map (·.2)) = [] := by
      rw [List.filter_eq_nil_iff]
      intro entry hentry
      have := List.mem_map_of_mem (f := (·.1)) hentry
      rw [map_drawnOf] at this
      simpa using this
    have hstay : (drawnAll (erase target a.markers)).filter
        (fun entry => entry.1 ∉ (a.recordsOf target).map (·.2)) =
        drawnAll (erase target a.markers) := by
      rw [List.filter_eq_self]
      intro entry hentry
      simpa using hothers entry hentry
    rw [hgone, hstay]
    exact List.Perm.refl _

theorem Aligned.prune (h : a.Aligned) (root : Document) :
    (a.prune MarkerStore.renderer root).Aligned := by
  unfold Aggregator.prune
  generalize (a.markers.map (·.1)).filter _ = gone
  induction gone generalizing a with
  | nil => exact h
  | cons uri rest ih => exact ih (h.forget uri)

/-- What a batch leaves behind: the records of its document are what was kept of it. -/
theorem handle_spec {root document : Document} {target : Url}
    (hfind : root.find? target = some document) (diagnostics : List (Diagnostic .buffer)) :
    ∃ state new, Shown (a.recordsOf target.href) a.drawing (batchKeys root document diagnostics)
        state new ∧
      (a.handle MarkerStore.renderer root target diagnostics).1.drawing =
        detachAll MarkerStore.renderer state.1
          ((a.recordsOf target.href).filter fun m => (lookup m.1 state.2).isNone) ∧
      (a.handle MarkerStore.renderer root target diagnostics).1.markers =
        insert target.href state.2 a.markers := by
  obtain ⟨new, hshown⟩ := exists_shown (a.recordsOf target.href) a.drawing
    (batchKeys root document diagnostics)
  refine ⟨_, new, hshown, ?_⟩
  have hfold := foldl_showGroup_eq root document (a.recordsOf target.href) (groups diagnostics)
    { drawing := a.drawing }
  unfold handle
  rw [hfind]
  simp only [batchKeys]
  rw [← hfold]
  exact ⟨rfl, rfl⟩

/-- The markers that are drawn after a batch. -/
theorem handle_entries {previous new : List (MarkerKey × Nat)} {keys : List MarkerKey}
    {state : MarkerStore × List (MarkerKey × Nat)}
    (hshown : Shown previous a.drawing keys state new) :
    (detachAll MarkerStore.renderer state.1
        (previous.filter fun m => (lookup m.1 state.2).isNone)).entries =
      (a.drawing.entries ++ drawnOf new).filter fun entry =>
        entry.1 ∉ (previous.filter fun m => m.1 ∉ keys).map (·.2) := by
  have hgone : (previous.filter fun m => (lookup m.1 state.2).isNone) =
      previous.filter fun m => m.1 ∉ keys := by
    refine List.filter_congr ?_
    intro m _
    rw [Bool.eq_iff_iff, Option.isNone_iff_eq_none, lookup_eq_none_iff, hshown.mem_keys]
    simp
  rw [hgone, (detachAll_entries _ _).1, hshown.entries_eq]

/-- The records that stay are told by their keys as well as by their numbers. -/
theorem filter_drawnOf {records : List (MarkerKey × Nat)} (hids : (records.map (·.2)).Nodup)
    {keys : List MarkerKey} :
    (drawnOf records).filter
      (fun entry => entry.1 ∉ (records.filter fun m => m.1 ∉ keys).map (·.2)) =
      drawnOf (records.filter fun m => m.1 ∈ keys) := by
  rw [drawnOf, List.filter_map, drawnOf]
  congr 1
  refine List.filter_congr ?_
  intro m hm
  rw [Bool.eq_iff_iff]
  simp only [Function.comp_apply, decide_eq_true_eq]
  constructor
  · intro hstays
    by_contra hkey
    exact hstays (List.mem_map_of_mem (List.mem_filter.mpr ⟨hm, by simpa using hkey⟩))
  · intro hkey hgone
    obtain ⟨m', hm', hsame⟩ := List.mem_map.mp hgone
    obtain ⟨hmem, hnot⟩ := List.mem_filter.mp hm'
    have heq : m' = m := List.inj_on_of_nodup_map hids hmem hm hsame
    rw [heq] at hnot
    simp [hkey] at hnot

/-- What is drawn after the records of one document that are not among the keys were taken away, and
new ones were added. -/
theorem perm_drawn {records new kept : List (MarkerKey × Nat)}
    {others entries : List (Nat × Marker)}
    {keys : List MarkerKey} (hids : (records.map (·.2)).Nodup)
    (hothers : ∀ entry ∈ others, entry.1 ∉ records.map (·.2))
    (hnew : ∀ entry ∈ drawnOf new, entry.1 ∉ records.map (·.2))
    (hentries : entries.Perm (drawnOf records ++ others))
    (hkept : kept.Perm (records.filter (·.1 ∈ keys) ++ new)) :
    ((entries ++ drawnOf new).filter fun entry =>
      entry.1 ∉ (records.filter fun m => m.1 ∉ keys).map (·.2)).Perm (others ++ drawnOf kept) := by
  have hstay : ∀ entries : List (Nat × Marker), (∀ entry ∈ entries, entry.1 ∉ records.map (·.2)) →
      entries.filter (fun entry => entry.1 ∉ (records.filter fun m => m.1 ∉ keys).map (·.2)) =
        entries := by
    intro entries hfree
    rw [List.filter_eq_self]
    intro entry hentry
    simp only [decide_eq_true_eq]
    intro hmem
    exact hfree entry hentry ((List.filter_sublist.map _).subset hmem)
  refine ((hentries.append_right _).filter _).trans ?_
  rw [List.filter_append, List.filter_append, filter_drawnOf hids, hstay _ hothers, hstay _ hnew,
    List.append_assoc]
  refine (List.perm_append_comm_assoc _ _ _).trans (List.Perm.append_left _ ?_)
  have hdrawn := (hkept.map fun m => (m.2, markerOf m.1)).symm
  rw [List.map_append] at hdrawn
  exact hdrawn

theorem Aligned.handle (h : a.Aligned) {root document : Document} {target : Url}
    (hfind : root.find? target = some document) {diagnostics : List (Diagnostic .buffer)}
    (hapart : Apart (a.recordsOf target.href) (batchKeys root document diagnostics)) :
    (a.handle MarkerStore.renderer root target diagnostics).1.Aligned := by
  obtain ⟨state, new, hshown, hdrawing, hmarkers⟩ := handle_spec (a := a) hfind diagnostics
  obtain ⟨hown, hothers⟩ := h.ids_at target.href
  have hkept := hshown.perm_kept (h.keys_at target.href) hapart
  have hentries := handle_entries hshown
  rw [← hdrawing] at hentries
  have hlast : (a.handle MarkerStore.renderer root target diagnostics).1.drawing.last =
      a.drawing.last + new.length := by
    rw [hdrawing, (detachAll_entries _ _).2, hshown.last_eq]
  have hnew : ∀ entry ∈ drawnOf new, a.drawing.last < entry.1 ∧
      entry.1 ≤ a.drawing.last + new.length := by
    intro entry hentry
    have hid := List.mem_map_of_mem (f := (·.1)) hentry
    rw [map_drawnOf, hshown.new_ids, List.mem_range'_1] at hid
    omega
  have hids : ((a.drawing.entries ++ drawnOf new).map (·.1)).Nodup := by
    rw [List.map_append, List.nodup_append, map_drawnOf, hshown.new_ids]
    refine ⟨h.ids, List.nodup_range', ?_⟩
    intro x hx y hy heq
    obtain ⟨entry, hentry, rfl⟩ := List.mem_map.mp hx
    have := h.numbered entry hentry
    rw [List.mem_range'_1] at hy
    omega
  refine ⟨?_, ?_, ?_, ?_, ?_⟩
  · rw [hentries]
    exact hids.sublist (List.filter_sublist.map _)
  · intro entry hentry
    rw [hentries] at hentry
    rw [hlast]
    rcases List.mem_append.mp (List.mem_filter.mp hentry).1 with hold | hadded
    · have := h.numbered entry hold
      omega
    · exact (hnew entry hadded).2
  · rw [hmarkers]
    exact nodup_insert h.targets _ _
  · intro entry hentry
    rw [hmarkers] at hentry
    rcases List.mem_append.mp hentry with hold | hadded
    · exact h.keys entry (List.mem_filter.mp hold).1
    · obtain rfl := List.mem_singleton.mp hadded
      exact hshown.kept_keys
  · have hfresh : ∀ entry ∈ drawnOf new, entry.1 ∉ (a.recordsOf target.href).map (·.2) := by
      intro entry hentry hmem
      rw [← map_drawnOf] at hmem
      obtain ⟨old, hold, hsame⟩ := List.mem_map.mp hmem
      have hle := h.numbered old ((h.perm_at target.href).symm.subset (List.mem_append_left _ hold))
      have hlt := (hnew entry hentry).1
      omega
    rw [hentries, hmarkers, insert, drawnAll, List.flatMap_append, List.flatMap_singleton]
    exact perm_drawn hown hothers hfresh (h.perm_at target.href) hkept

end

end Polyglot.Aggregator
