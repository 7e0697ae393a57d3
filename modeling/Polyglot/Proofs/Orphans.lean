import Polyglot.Proofs.MarkerRecords
import Polyglot.Document.Compose

/-!
Markers that nobody remembers. In every run of an aggregator that draws into a fresh store, the
numbers of the drawn markers are after every call exactly those that are recorded, each under one
document and one key, if and only if no batch of the run shows two groups under one key that was
not shown before.
-/
namespace Polyglot.Aggregator

/-- A number is recorded for a document, under a key. -/
def Recorded (a : Aggregator MarkerStore) (target : String) (key : MarkerKey) (id : Nat) : Prop :=
  ∃ records, lookup target a.markers = some records ∧ lookup key records = some id

/-- The drawn markers are those that are recorded, and none is recorded twice. -/
structure NoOrphans (a : Aggregator MarkerStore) : Prop where
  drawn_iff : ∀ id, id ∈ a.drawing.entries.map (·.1) ↔ ∃ target key, a.Recorded target key id
  once : ∀ id target target' key key', a.Recorded target key id → a.Recorded target' key' id →
    target = target' ∧ key = key'

section

variable {a : Aggregator MarkerStore} {target : String} {key : MarkerKey} {id : Nat}

theorem Recorded.mem_recordsOf (h : a.Recorded target key id) : (key, id) ∈ a.recordsOf target := by
  obtain ⟨records, hrecords, hkey⟩ := h
  rw [recordsOf, hrecords]
  exact mem_of_lookup hkey

theorem Aligned.recorded_of_mem (h : a.Aligned) {records : List (MarkerKey × Nat)}
    (htarget : (target, records) ∈ a.markers) (hkey : (key, id) ∈ records) :
    a.Recorded target key id :=
  ⟨records, lookup_of_mem h.targets htarget, lookup_of_mem (h.keys _ htarget) hkey⟩

theorem Aligned.mem_entries_of_recorded (h : a.Aligned) (hrecorded : a.Recorded target key id) :
    (id, markerOf key) ∈ a.drawing.entries := by
  refine (h.perm_at target).symm.subset (List.mem_append_left _ ?_)
  exact List.mem_map.mpr ⟨(key, id), hrecorded.mem_recordsOf, rfl⟩

theorem Aligned.noOrphans (h : a.Aligned) : a.NoOrphans := by
  constructor
  · intro id
    constructor
    · intro hid
      obtain ⟨entry, hentry, rfl⟩ := List.mem_map.mp hid
      obtain ⟨⟨target, records⟩, htarget, hdrawn⟩ := List.mem_flatMap.mp (h.drawn.subset hentry)
      obtain ⟨⟨key, id⟩, hkey, rfl⟩ := List.mem_map.mp hdrawn
      exact ⟨target, key, h.recorded_of_mem htarget hkey⟩
    · rintro ⟨target, key, hrecorded⟩
      exact List.mem_map_of_mem (f := (·.1)) (h.mem_entries_of_recorded hrecorded)
  · intro id target target' key key' hrecorded hrecorded'
    obtain ⟨hown, hothers⟩ := h.ids_at target
    by_cases htarget : target' = target
    · subst htarget
      have heq := List.inj_on_of_nodup_map hown hrecorded.mem_recordsOf hrecorded'.mem_recordsOf rfl
      exact ⟨rfl, (Prod.mk.inj heq).1⟩
    · obtain ⟨records, hrecords, hkey⟩ := hrecorded'
      rw [← lookup_erase_of_ne htarget a.markers] at hrecords
      have hmem : (id, markerOf key') ∈ drawnAll (erase target a.markers) :=
        List.mem_flatMap.mpr ⟨_, mem_of_lookup hrecords,
          List.mem_map.mpr ⟨(key', id), mem_of_lookup hkey, rfl⟩⟩
      exact absurd (List.mem_map_of_mem (f := (·.2)) hrecorded.mem_recordsOf) (hothers _ hmem)

/-- Two new markers under one key: only one of their numbers is kept, and the other marker is not
taken away. -/
theorem Aligned.orphan_of_not_apart (h : a.Aligned) {root document : Document} {uri : Url}
    (hfind : root.find? uri = some document) {diagnostics : List (Diagnostic .buffer)}
    (hmeet : ¬ Apart (a.recordsOf uri.href) (batchKeys root document diagnostics)) :
    ¬ (a.handle MarkerStore.renderer root uri diagnostics).1.NoOrphans := by
  obtain ⟨state, new, hshown, hdrawing, hmarkers⟩ := handle_spec (a := a) hfind diagnostics
  have hentries := handle_entries hshown
  rw [← hdrawing] at hentries
  have hids : (new.map (·.2)).Nodup := by
    rw [hshown.new_ids]
    exact List.nodup_range'
  have hlast : ∀ m ∈ new, a.drawing.last < m.2 := by
    intro m hm
    have hid := List.mem_map_of_mem (f := (·.2)) hm
    rw [hshown.new_ids, List.mem_range'_1] at hid
    omega
  -- a new marker that is not kept
  obtain ⟨m, hm, hlost⟩ : ∃ m ∈ new, m ∉ state.2 := by
    by_contra hall
    push Not at hall
    refine hmeet ?_
    rw [Apart, ← hshown.new_keys]
    refine (List.nodup_map_iff_inj_on hids.of_map).mpr ?_
    intro m hm m' hm' hkey
    exact List.inj_on_of_nodup_map hshown.kept_keys (hall m hm) (hall m' hm') hkey
  intro hno
  have hdrawn : m.2 ∈ (a.handle MarkerStore.renderer root uri diagnostics).1.drawing.entries.map
      (·.1) := by
    refine List.mem_map.mpr ⟨(m.2, markerOf m.1), ?_, rfl⟩
    rw [hentries]
    refine List.mem_filter.mpr ⟨List.mem_append_right _ (List.mem_map.mpr ⟨m, hm, rfl⟩), ?_⟩
    simp only [decide_eq_true_eq]
    intro hgone
    obtain ⟨old, hold, hsame⟩ := List.mem_map.mp hgone
    have hmem := (h.perm_at uri.href).symm.subset
      (List.mem_append_left _ (List.mem_map.mpr ⟨old, (List.mem_filter.mp hold).1, rfl⟩))
    have hle := h.numbered _ hmem
    have hlt := hlast m hm
    omega
  obtain ⟨target, key, records, hrecords, hkey⟩ := (hno.drawn_iff m.2).mp hdrawn
  rw [hmarkers] at hrecords
  by_cases htarget : target = uri.href
  · rw [htarget, lookup_insert_self] at hrecords
    cases hrecords
    have hkept := mem_of_lookup hkey
    rcases hshown.mem_kept _ hkept with hprevious | hnew
    · have hmem := (h.perm_at uri.href).symm.subset
        (List.mem_append_left _ (List.mem_map.mpr ⟨_, hprevious, rfl⟩))
      have hle := h.numbered _ hmem
      have hlt := hlast m hm
      omega
    · have heq := List.inj_on_of_nodup_map hids hnew hm rfl
      exact hlost (heq ▸ hkept)
  · rw [lookup_insert_of_ne htarget] at hrecords
    have hle := h.numbered _ (h.mem_entries_of_recorded ⟨records, hrecords, hkey⟩)
    have hlt := hlast m hm
    omega

end

/-! Runs. -/

inductive Call where
  | handle (root : Document) (uri : Url) (diagnostics : List (Diagnostic .buffer))
  | forget (target : String)
  | prune (root : Document)

def Call.act : Call → Aggregator MarkerStore → Aggregator MarkerStore
  | handle root uri diagnostics, a => (a.handle MarkerStore.renderer root uri diagnostics).1
  | forget target, a => a.forget MarkerStore.renderer target
  | prune root, a => a.prune MarkerStore.renderer root

/-- Two groups of a batch are shown under one key that was not shown for their document before. -/
def Call.Collides (a : Aggregator MarkerStore) : Call → Prop
  | handle root uri diagnostics => ∃ document, root.find? uri = some document ∧
      ¬ Apart (a.recordsOf uri.href) (batchKeys root document diagnostics)
  | _ => False

/-- The aggregator after some calls, with a fresh store at the start. -/
def after (calls : List Call) : Aggregator MarkerStore :=
  calls.foldl (fun a call => call.act a) { drawing := {} }

theorem after_append_singleton (calls : List Call) (call : Call) :
    after (calls ++ [call]) = call.act (after calls) := by
  rw [after, List.foldl_append]
  rfl

theorem Aligned.act {a : Aggregator MarkerStore} (h : a.Aligned) {call : Call}
    (hcall : ¬ call.Collides a) : (call.act a).Aligned := by
  cases call with
  | handle root uri diagnostics =>
    cases hfind : root.find? uri with
    | none =>
      simp only [Call.act, Aggregator.handle, hfind]
      exact h
    | some document =>
      refine h.handle hfind ?_
      by_contra hmeet
      exact hcall ⟨document, hfind, hmeet⟩
  | forget target => exact h.forget target
  | prune root => exact h.prune root

theorem Aligned.not_noOrphans_of_collides {a : Aggregator MarkerStore} (h : a.Aligned) {call : Call}
    (hcall : call.Collides a) : ¬ (call.act a).NoOrphans := by
  cases call with
  | handle root uri diagnostics =>
    obtain ⟨document, hfind, hmeet⟩ := hcall
    exact h.orphan_of_not_apart hfind hmeet
  | forget target => exact hcall.elim
  | prune root => exact hcall.elim

/-- After calls of which none collides, what is drawn is what is remembered. -/
theorem aligned_after {calls : List Call}
    (h : ∀ pre call, pre ++ [call] <+: calls → ¬ call.Collides (after pre)) :
    (after calls).Aligned := by
  induction calls using List.reverseRecOn with
  | nil => exact aligned_empty
  | append_singleton calls call ih =>
    rw [after_append_singleton]
    refine Aligned.act (ih ?_) (h calls call (List.prefix_refl _))
    intro pre c hpre
    exact h pre c (hpre.trans (List.prefix_append _ _))

/-- A call that collides would leave an orphan, so there is none where nothing is orphaned. -/
theorem aligned_of_noOrphans {calls : List Call}
    (h : ∀ pre, pre <+: calls → (after pre).NoOrphans) : (after calls).Aligned := by
  induction calls using List.reverseRecOn with
  | nil => exact aligned_empty
  | append_singleton calls call ih =>
    have haligned := ih fun pre hpre => h pre (hpre.trans (List.prefix_append _ _))
    have hlast := h _ (List.prefix_refl _)
    rw [after_append_singleton] at hlast ⊢
    exact haligned.act fun hcollides => haligned.not_noOrphans_of_collides hcollides hlast

/-- In a run from a fresh store nothing is orphaned after any call, if and only if no call of the
run collides. -/
theorem noOrphans_iff_no_collision (calls : List Call) :
    (∀ pre, pre <+: calls → (after pre).NoOrphans) ↔
      ∀ pre call, pre ++ [call] <+: calls → ¬ call.Collides (after pre) := by
  constructor
  · intro h pre call hpre hcollides
    have haligned : (after pre).Aligned := aligned_of_noOrphans fun pre' hpre' =>
      h pre' (hpre'.trans ((List.prefix_append _ _).trans hpre))
    have hlast := h _ hpre
    rw [after_append_singleton] at hlast
    exact haligned.not_noOrphans_of_collides hcollides hlast
  · intro h pre hpre
    refine (aligned_after ?_).noOrphans
    intro pre' call hpre'
    exact h pre' call (hpre'.trans hpre)

/-- Reports on different ranges are shown apart, in the order of the ranges. -/
theorem groups_pair {x y : Diagnostic .buffer} (hbefore : x.range.before y.range = true)
    (hne : x.range ≠ y.range) : groups [x, y] = [[x], [y]] := by
  have hranges : [x.range, y.range].eraseDups = [x.range, y.range] := by
    simp [List.eraseDups_cons, hne.symm]
  have hsorted : [x.range, y.range].mergeSort Range.before = [x.range, y.range] :=
    List.mergeSort_of_pairwise (by simp [hbefore])
  simp [groups, hranges, hsorted, hne, hne.symm]

def oneLineUrl : Url := { scheme := "file", host := some "", path := "/a.cel" }

/-- A file of one line. -/
def oneLineRoot : Document :=
  (Document.appendText {} oneLineUrl.href 1 Pos.origin none "x".toList 1
    (Document.root {} "cel" oneLineUrl "cel" 0)).document

/-- Two reports of one error that start together and end behind the file, in different places; then
the file is forgotten. -/
def twinCalls : List Call :=
  [.handle oneLineRoot oneLineUrl
    [{ range := ⟨⟨0, 0⟩, ⟨50, 0⟩⟩, message := "m" },
      { range := ⟨⟨0, 0⟩, ⟨51, 0⟩⟩, message := "m" }],
   .forget oneLineUrl.href]

/-- Both ends count as one column behind the start, so the two reports have one key, and the first
marker stays when nothing is recorded any more. -/
theorem twin_reports_leave_orphan :
    (after twinCalls).markers = [] ∧ (after twinCalls).drawing.entries.map (·.1) = [1] ∧
      ¬ (after twinCalls).NoOrphans := by
  have hrun : (after twinCalls).markers = [] ∧
      (after twinCalls).drawing.entries.map (·.1) = [1] := by
    simp (disch := decide) only [after, twinCalls, List.foldl_cons, List.foldl_nil, Call.act,
      Aggregator.handle, groups_pair]
    decide +kernel
  obtain ⟨hmarkers, hdrawn⟩ := hrun
  refine ⟨hmarkers, hdrawn, ?_⟩
  intro hno
  have hone : 1 ∈ (after twinCalls).drawing.entries.map (·.1) := by
    rw [hdrawn]
    exact List.mem_singleton_self 1
  obtain ⟨target, key, records, hrecords, _⟩ := (hno.drawn_iff 1).mp hone
  rw [hmarkers] at hrecords
  cases hrecords

end Polyglot.Aggregator
