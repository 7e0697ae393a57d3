import Polyglot.Proofs.Verdicts
import Polyglot.Proofs.ResentBatches

/-!
The accounts of a batch. Main statement: the counts, the diagnostics that are kept and the markers
that are drawn are those of the ranges that are shown, each judged by itself; and a batch without a
range that is not shown comes to the same.
-/
namespace Polyglot

/-- A renderer that is left as it was by a marker that it refuses. -/
def Renderer.Steadfast {σ : Type} (renderer : Renderer σ) : Prop :=
  ∀ drawing marker cause, (renderer.attach drawing marker).2 = .error cause →
    (renderer.attach drawing marker).1 = drawing

namespace Aggregator

open Renderer (Request)

theorem rangesOf_filter_ne (batch : List (Diagnostic .buffer)) (r : Range .buffer) :
    rangesOf (batch.filter (·.range ≠ r)) = (rangesOf batch).filter (· ≠ r) := by
  have hsorted : ((rangesOf batch).filter (· ≠ r)).mergeSort Range.before =
      (rangesOf batch).filter (· ≠ r) := by
    refine List.mergeSort_of_pairwise (List.Pairwise.filter _ (List.pairwise_mergeSort ?_ ?_ _))
    · intro a b c hab hbc
      rw [Range.before_iff] at hab hbc ⊢
      exact hab.trans hbc
    · intro a b
      rw [Bool.or_eq_true, Range.before_iff, Range.before_iff]
      exact le_total _ _
  rw [← hsorted]
  refine mergeSort_eq_of_perm Range.weight_injective.injOn Range.before_iff ?_
  refine (List.perm_ext_iff_of_nodup (nodup_eraseDups _) ((nodup_rangesOf batch).filter _)).mpr ?_
  intro r'
  rw [List.mem_eraseDups, List.mem_filter, mem_rangesOf, List.mem_map]
  constructor
  · rintro ⟨x, hx, rfl⟩
    obtain ⟨hx, hne⟩ := List.mem_filter.mp hx
    exact ⟨⟨x, hx, rfl⟩, hne⟩
  · rintro ⟨⟨x, hx, rfl⟩, hne⟩
    exact ⟨x, List.mem_filter.mpr ⟨hx, hne⟩, rfl⟩

theorem groups_eq (batch : List (Diagnostic .buffer)) :
    groups batch = (rangesOf batch).map (sharing batch) := rfl

/-- The groups of a batch, around the group of one range. -/
theorem groups_split {batch : List (Diagnostic .buffer)} {r : Range .buffer}
    (h : ∃ x ∈ batch, x.range = r) :
    ∃ pre post, groups batch = pre ++ sharing batch r :: post ∧
      groups (batch.filter (·.range ≠ r)) = pre ++ post := by
  obtain ⟨pre, post, hsplit⟩ := List.append_of_mem (mem_rangesOf.mpr h)
  have hnodup := nodup_rangesOf batch
  rw [hsplit, List.nodup_middle, List.nodup_cons, List.mem_append, not_or] at hnodup
  obtain ⟨⟨hpre, hpost⟩, -⟩ := hnodup
  have hothers : ∀ r' ≠ r, sharing (batch.filter (·.range ≠ r)) r' = sharing batch r' := by
    intro r' hne
    rw [sharing, List.filter_filter]
    refine List.filter_congr ?_
    intro x _
    by_cases hx : x.range = r' <;> simp [hx, hne]
  have hranges : rangesOf (batch.filter (·.range ≠ r)) = pre ++ post := by
    rw [rangesOf_filter_ne, hsplit, List.filter_append, List.filter_cons_of_neg (by simp),
      List.filter_eq_self.mpr, List.filter_eq_self.mpr]
    · intro r' hr'
      exact decide_eq_true fun heq => hpost (heq ▸ hr')
    · intro r' hr'
      exact decide_eq_true fun heq => hpre (heq ▸ hr')
  refine ⟨pre.map (sharing batch), post.map (sharing batch), ?_, ?_⟩
  · rw [groups_eq, hsplit, List.map_append, List.map_cons]
  · rw [groups_eq, hranges, List.map_append,
      List.map_congr_left fun r' hr' => hothers r' fun heq => hpre (heq ▸ hr'),
      List.map_congr_left fun r' hr' => hothers r' fun heq => hpost (heq ▸ hr')]

section

variable {σ : Type} {renderer : Renderer σ} {root document : Document}
  {previous : List (MarkerKey × Nat)}

/-- More that was not shown does not change what is shown. -/
theorem showGroup_discard (pass : Pass σ) (group more : List (Diagnostic .buffer)) :
    showGroup renderer root document previous (pass.discard pass.drawing more) group =
      (showGroup renderer root document previous pass group).discard
        (showGroup renderer root document previous pass group).drawing more := by
  cases group with
  | nil => rfl
  | cons x rest =>
    rw [showGroup, showGroup]
    cases anchor root document x.range with
    | error reason => simp only [Pass.discard, Nat.add_right_comm]
    | ok place =>
      obtain ⟨editor, range⟩ := place
      simp only [Pass.discard]
      cases lookup ⟨membersOf (x :: rest), range, editor⟩ previous with
      | some id => rfl
      | none =>
        simp only
        cases renderer.attach pass.drawing (markerOf ⟨membersOf (x :: rest), range, editor⟩) with
        | mk drawing answer =>
          cases answer with
          | ok id => rfl
          | error e => simp only [Nat.add_right_comm]

theorem foldl_showGroup_discard (gs : List (List (Diagnostic .buffer))) (pass : Pass σ)
    (more : List (Diagnostic .buffer)) :
    gs.foldl (showGroup renderer root document previous) (pass.discard pass.drawing more) =
      (gs.foldl (showGroup renderer root document previous) pass).discard
        (gs.foldl (showGroup renderer root document previous) pass).drawing more := by
  induction gs generalizing pass with
  | nil => rfl
  | cons group rest ih => rw [List.foldl_cons, List.foldl_cons, showGroup_discard, ih]

/-- What was placed stays. -/
theorem placed_subset_foldl (gs : List (List (Diagnostic .buffer))) (pass : Pass σ) :
    pass.placed ⊆ (gs.foldl (showGroup renderer root document previous) pass).placed := by
  induction gs generalizing pass with
  | nil => exact List.Subset.refl _
  | cons group rest ih =>
    refine List.Subset.trans ?_ (ih _)
    rcases showGroup_cases renderer root document previous pass group with
      ⟨-, hpass⟩ | ⟨key, -, ⟨id, -, hpass⟩ | ⟨-, ⟨drawing, id, -, hpass⟩ | ⟨drawing, e, -, hpass⟩⟩⟩
    · rw [hpass]
      exact List.Subset.refl _
    · rw [hpass]
      exact List.subset_append_left _ _
    · rw [hpass]
      exact List.subset_append_left _ _
    · rw [hpass]
      exact List.Subset.refl _

/-- A group of which nothing is placed is passed over. -/
theorem showGroup_unplaced {r : Range .buffer} {group : List (Diagnostic .buffer)}
    (hne : group ≠ []) (hrange : ∀ x ∈ group, x.range = r) {pass : Pass σ}
    (hunplaced : ∀ p ∈ (showGroup renderer root document previous pass group).placed,
      p.diagnostic.range ≠ r)
    (hcause : (∃ reason, anchor root document r = .error reason) ∨ renderer.Steadfast) :
    showGroup renderer root document previous pass group = pass.discard pass.drawing group := by
  have htaken : ∀ (drawing : σ) key id, showGroup renderer root document previous pass group ≠
      pass.take drawing key id group := by
    intro drawing key id hpass
    obtain ⟨x, hx⟩ := List.exists_mem_of_ne_nil group hne
    rw [hpass] at hunplaced
    exact hunplaced _ (List.mem_append_right _ (List.mem_map_of_mem hx)) (hrange x hx)
  rcases showGroup_cases renderer root document previous pass group with
    ⟨-, hpass⟩ | ⟨key, hkey, ⟨id, -, hpass⟩ |
      ⟨-, ⟨drawing, id, -, hpass⟩ | ⟨drawing, e, hattach, hpass⟩⟩⟩
  · exact hpass
  · exact absurd hpass (htaken _ _ _)
  · exact absurd hpass (htaken _ _ _)
  · rcases hcause with ⟨reason, hreason⟩ | hsteadfast
    · rcases groupKey_of_range root document hne hrange with
        ⟨_, -, hnone⟩ | ⟨editor, range, hok, -⟩
      · exact absurd (hnone.symm.trans hkey) (Option.some_ne_none key).symm
      · rw [hreason] at hok
        cases hok
    · have hsame := hsteadfast pass.drawing (markerOf key) e (by rw [hattach])
      rw [hattach] at hsame
      obtain rfl : drawing = pass.drawing := hsame
      exact hpass

/-- A batch without a range that is not shown comes to the same. -/
theorem handle_filter_ne {target : Url} (hfind : root.find? target = some document)
    {batch : List (Diagnostic .buffer)} {a : Aggregator σ} {placed : List Placed} {r : Range .buffer}
    (hplaced : (a.handle renderer root target batch).1.placedOf target = some placed)
    (hunplaced : ∀ p ∈ placed, p.diagnostic.range ≠ r)
    (hcause : (∃ reason, anchor root document r = .error reason) ∨ renderer.Steadfast) :
    (a.handle renderer root target (batch.filter (·.range ≠ r))).1 =
        (a.handle renderer root target batch).1 ∧
      (a.handle renderer root target (batch.filter (·.range ≠ r))).2.accepted =
        (a.handle renderer root target batch).2.accepted ∧
      (a.handle renderer root target (batch.filter (·.range ≠ r))).2.discarded +
          (sharing batch r).length =
        (a.handle renderer root target batch).2.discarded := by
  by_cases hmem : ∃ x ∈ batch, x.range = r
  · obtain ⟨pre, post, hgroups, hfiltered⟩ := groups_split hmem
    obtain ⟨x, hx, hxr⟩ := hmem
    have hne : sharing batch r ≠ [] := List.ne_nil_of_mem (mem_sharing.mpr ⟨hx, hxr⟩)
    simp only [handle, hfind, placedOf, lookup_insert_self, hgroups, List.foldl_append,
      List.foldl_cons, Option.some.injEq] at hplaced
    generalize hpass : pre.foldl (showGroup renderer root document
      ((lookup target.href a.markers).getD [])) { drawing := a.drawing } = pass at hplaced
    have hpassed : showGroup renderer root document ((lookup target.href a.markers).getD []) pass
        (sharing batch r) = pass.discard pass.drawing (sharing batch r) :=
      showGroup_unplaced hne (fun y hy => (mem_sharing.mp hy).2)
        (fun p hp => hunplaced p (hplaced ▸ placed_subset_foldl post _ hp)) hcause
    simp only [handle, hfind, hgroups, hfiltered, List.foldl_append, List.foldl_cons, hpass, hpassed,
      foldl_showGroup_discard]
    exact ⟨rfl, rfl, rfl⟩
  · have hall : batch.filter (·.range ≠ r) = batch := by
      rw [List.filter_eq_self]
      intro x hx
      exact decide_eq_true fun hxr => hmem ⟨x, hx, hxr⟩
    have hnone : sharing batch r = [] := by
      rw [List.filter_eq_nil_iff]
      intro x hx hxr
      exact hmem ⟨x, hx, of_decide_eq_true hxr⟩
    rw [hall, hnone]
    exact ⟨rfl, rfl, rfl⟩

/-- The accounts of a batch. Each of its ranges gets one verdict, by which all its diagnostics are
shown in one place, or none of them is. Those that are shown are counted, and kept in the table of
the document, each once; the others are counted too. The renderer is asked for one marker for each
range with a place but without a marker of before, and then only to take markers away. Without a
range that is not shown, all the rest is the same. -/
theorem batch_accounts (renderer : Renderer σ) {target : Url}
    (hfind : root.find? target = some document) (batch : List (Diagnostic .buffer))
    (a : Aggregator σ) :
    ∃ (verdict : Range .buffer → Verdict) (ranges : List (Range .buffer)) (placed : List Placed)
      (taken : List Request),
      (ranges.Nodup ∧ ∀ r, r ∈ ranges ↔ ∃ x ∈ batch, x.range = r) ∧
      (∀ r ∈ ranges, Judged root document ((lookup target.href a.markers).getD []) r
        (batch.filter (·.range = r)) (verdict r)) ∧
      (a.handle renderer root target batch).2 =
        { accepted := batch.countP fun x => (verdict x.range).place.isSome
          discarded := batch.countP fun x => (verdict x.range).place.isNone } ∧
      (a.handle renderer root target batch).2.accepted +
        (a.handle renderer root target batch).2.discarded = batch.length ∧
      (a.handle renderer root target batch).1.placedOf target = some placed ∧
      placed.Perm (batch.filterMap fun x => (verdict x.range).placing x) ∧
      a.requests renderer root target batch =
        ranges.filterMap (fun r => (verdict r).request) ++ taken ∧
      (∀ request ∈ taken, ∃ id answer, request = .detach id answer) ∧
      ∀ r, (∀ p ∈ placed, p.diagnostic.range ≠ r) →
        (∃ reason, anchor root document r = .error reason) ∨ renderer.Steadfast →
        (a.handle renderer root target (batch.filter (·.range ≠ r))).1 =
            (a.handle renderer root target batch).1 ∧
          (a.handle renderer root target (batch.filter (·.range ≠ r))).2.accepted =
            (a.handle renderer root target batch).2.accepted ∧
          (a.handle renderer root target (batch.filter (·.range ≠ r))).2.discarded +
              (batch.filter (·.range = r)).length =
            (a.handle renderer root target batch).2.discarded := by
  obtain ⟨verdict, hverdict, hsettles⟩ := exists_verdicts renderer root document
    ((lookup target.href a.markers).getD []) (nodup_rangesOf batch)
    (fun r hr => mem_rangesOf.mp hr) { drawing := (a.drawing, []) }
  rw [← groups_eq] at hsettles
  have hunnoted := unnoted_foldl renderer root document ((lookup target.href a.markers).getD [])
    (groups batch) { drawing := (a.drawing, []) }
  generalize hpass : (groups batch).foldl (showGroup renderer.noting root document
    ((lookup target.href a.markers).getD [])) { drawing := (a.drawing, []) } = pass
    at hsettles hunnoted
  have hperm := perm_flatMap_rangesOf batch
  -- the pass that is written down has the counts and the places of the pass that is not
  have houtcome : (a.handle renderer root target batch).2 =
      { accepted := batch.countP fun x => (verdict x.range).place.isSome
        discarded := batch.countP fun x => (verdict x.range).place.isNone } := by
    have haccepted := congrArg Pass.accepted hunnoted
    have hdiscarded := congrArg Pass.discarded hunnoted
    simp only [Pass.unnoted, hsettles.accepted, hsettles.discarded, Nat.zero_add]
      at haccepted hdiscarded
    rw [hperm.countP_eq] at haccepted hdiscarded
    simp only [handle, hfind, haccepted, hdiscarded]
  have hplaced : (a.handle renderer root target batch).1.placedOf target = some pass.placed := by
    have hsame := congrArg Pass.placed hunnoted
    simp only [Pass.unnoted] at hsame
    simp only [handle, hfind, placedOf, lookup_insert_self, hsame]
  obtain ⟨taken, htaken, hdetached⟩ := notes_detachAll renderer pass.drawing
    (((lookup target.href a.markers).getD []).filter fun m => (lookup m.1 pass.kept).isNone)
  refine ⟨verdict, rangesOf batch, pass.placed, taken, ⟨nodup_rangesOf batch, fun r => mem_rangesOf⟩,
    hverdict, houtcome, ?_, hplaced, ?_, ?_, hdetached, ?_⟩
  · rw [houtcome]
    have hnot : ∀ v : Verdict, v.place.isNone = decide ¬ v.place.isSome = true := by
      intro v
      cases v.place <;> rfl
    simp only [hnot]
    exact (List.length_eq_countP_add_countP _).symm
  · have hall := hsettles.placed
    rw [List.nil_append] at hall
    rw [hall]
    exact hperm.filterMap _
  · rw [requests, handle, hfind]
    simp only [noted, hpass]
    rw [htaken, hsettles.notes, List.nil_append]
  · intro r hunplaced hcause
    exact handle_filter_ne hfind hplaced hunplaced hcause

end

/-- Numbers its markers, and refuses those that say one thing. -/
def pickyRenderer : Renderer Nat where
  attach next marker :=
    if marker.title = "n" then (next, .error (.rejected "n")) else (next + 1, .ok next)
  detach next _ := (next, .ok ())

theorem pickyRenderer_steadfast : pickyRenderer.Steadfast := by
  intro drawing marker cause h
  by_cases hrefused : marker.title = "n"
  · simp only [pickyRenderer, hrefused, if_true]
  · simp only [pickyRenderer, hrefused, if_false] at h
    cases h

/-- One of two reports is refused, and the other is shown as if it came alone. -/
theorem batch_accounts_refused :
    (handle pickyRenderer oneLineRoot oneLineUrl [onText, behindText] { drawing := 0 }).2 =
        { accepted := 1, discarded := 1 } ∧
      (handle pickyRenderer oneLineRoot oneLineUrl [onText] { drawing := 0 }).1 =
        (handle pickyRenderer oneLineRoot oneLineUrl [onText, behindText] { drawing := 0 }).1 := by
  obtain ⟨document, hfind⟩ : ∃ document, oneLineRoot.find? oneLineUrl = some document :=
    Option.isSome_iff_exists.mp (by decide +kernel)
  obtain ⟨verdict, ranges, placed, taken, -, -, -, -, hplaced, -, -, -, hwithout⟩ :=
    batch_accounts pickyRenderer hfind [onText, behindText] { drawing := 0 }
  have hrun : (handle pickyRenderer oneLineRoot oneLineUrl [onText, behindText]
        { drawing := 0 }).2 = { accepted := 1, discarded := 1 } ∧
      ((handle pickyRenderer oneLineRoot oneLineUrl [onText, behindText]
        { drawing := 0 }).1.placedOf oneLineUrl).map (·.map (·.diagnostic)) = some [onText] := by
    simp (disch := decide) only [handle, groups_pair]
    decide +kernel
  refine ⟨hrun.1, (hwithout behindText.range ?_ (Or.inr pickyRenderer_steadfast)).1⟩
  intro p hp
  rw [hplaced] at hrun
  have hmem : p.diagnostic ∈ [onText] := Option.some.inj hrun.2 ▸ List.mem_map_of_mem hp
  rw [List.mem_singleton.mp hmem]
  decide

end Aggregator

end Polyglot
