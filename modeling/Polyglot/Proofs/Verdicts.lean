import Polyglot.Proofs.RendererRequests

/-!
The verdicts on the ranges of a batch. Every range is judged by itself: by its place, by what stands
there already, and by what the renderer answers to the one marker that is asked for, which says what
all diagnostics of the range say. The work on a batch is the sum of its verdicts.
-/
namespace Polyglot

namespace Diagnostic

variable {s : Space}

/-- The severity that a diagnostic counts as. One that is missing or unknown is an error. -/
def gravity (x : Diagnostic s) : Int :=
  x.severity.elim 1 fun n => if 1 ≤ n ∧ n ≤ 4 then n else 1

/-- What a marker says for a diagnostic. -/
def line (x : Diagnostic s) : String :=
  x.source.elim x.message fun source =>
    if source = "" then x.message else x.message ++ " (" ++ source ++ ")"

/-- Severity, message, code and source, in this order. -/
def weight (x : Diagnostic s) : ℕ ×ₗ (String ×ₗ (String ×ₗ String)) :=
  (Member.ofDiagnostic x).weight

theorem rank_eq_gravity (x : Diagnostic s) : (rank x.severity : Int) = x.gravity := by
  rw [gravity]
  cases x.severity with
  | none => rfl
  | some n =>
    rw [Option.elim_some]
    by_cases hknown : n = 2 ∨ n = 3 ∨ n = 4
    · rcases hknown with rfl | rfl | rfl <;> rfl
    · have hrank : rank (some n) = 1 := by
        unfold rank
        split
        case h_1 heq => exact absurd (Or.inl (Option.some.inj heq)) hknown
        case h_2 heq => exact absurd (Or.inr (Or.inl (Option.some.inj heq))) hknown
        case h_3 heq => exact absurd (Or.inr (Or.inr (Option.some.inj heq))) hknown
        case h_4 => rfl
      rw [hrank]
      split <;> omega

theorem title_ofDiagnostic (x : Diagnostic s) : (Member.ofDiagnostic x).title = x.line := by
  rw [Member.title, line, Member.ofDiagnostic]
  cases x.source with
  | none => rfl
  | some source => simp [String.isEmpty_iff]

theorem gravity_le_of_weight_le {x y : Diagnostic s} (h : x.weight ≤ y.weight) :
    x.gravity ≤ y.gravity := by
  have hrank : rank x.severity ≤ rank y.severity := Prod.Lex.monotone_fst _ _ h
  rw [← rank_eq_gravity, ← rank_eq_gravity]
  omega

end Diagnostic

namespace Aggregator

open Renderer (Request)

variable {σ : Type}

/-- A marker says at a place what some diagnostics say: it is as grave as the gravest of them, and
has a line for each of them, in order. -/
structure Merges (group : List (Diagnostic .buffer)) (place : String × Range .editor)
    (marker : Marker) : Prop where
  place_eq : (marker.editor, marker.range) = place
  gravest : ∃ x ∈ group, marker.severity = x.gravity ∧ ∀ y ∈ group, x.gravity ≤ y.gravity
  lines : ∃ ordered : List (Diagnostic .buffer), ordered.Perm group ∧
    ordered.Pairwise (·.weight ≤ ·.weight) ∧
    marker.title = "\n".intercalate (ordered.map (·.line))

/-- The members of a group are its diagnostics in order. -/
theorem exists_ordered (group : List (Diagnostic .buffer)) :
    ∃ ordered : List (Diagnostic .buffer), ordered.Perm group ∧
      ordered.Pairwise (·.weight ≤ ·.weight) ∧
      membersOf group = ordered.map Member.ofDiagnostic := by
  let le : Diagnostic .buffer → Diagnostic .buffer → Bool :=
    fun x y => Member.le (Member.ofDiagnostic x) (Member.ofDiagnostic y)
  have hle : ∀ x y, le x y = true ↔ x.weight ≤ y.weight := fun x y => Member.le_iff _ _
  refine ⟨group.mergeSort le, List.mergeSort_perm group le, ?_, ?_⟩
  · refine List.Pairwise.imp (fun h => (hle _ _).mp h) (List.pairwise_mergeSort ?_ ?_ group)
    · intro x y z hxy hyz
      rw [hle] at hxy hyz ⊢
      exact hxy.trans hyz
    · intro x y
      rw [Bool.or_eq_true, hle, hle]
      exact le_total _ _
  · exact (List.map_mergeSort (r := le) (f := Member.ofDiagnostic) fun _ _ _ _ => rfl).symm

theorem merges_markerOf {group : List (Diagnostic .buffer)} (hne : group ≠ []) (editor : String)
    (range : Range .editor) :
    Merges group (editor, range) (markerOf ⟨membersOf group, range, editor⟩) := by
  obtain ⟨ordered, hperm, hordered, hmembers⟩ := exists_ordered group
  refine ⟨rfl, ?_, ordered, hperm, hordered, ?_⟩
  · cases ordered with
    | nil => exact absurd hperm.symm.eq_nil hne
    | cons x rest =>
      refine ⟨x, hperm.subset List.mem_cons_self, ?_, ?_⟩
      · rw [← Diagnostic.rank_eq_gravity, markerOf, hmembers]
        rfl
      · intro y hy
        rcases List.mem_cons.mp (hperm.symm.subset hy) with rfl | hrest
        · exact le_refl _
        · exact Diagnostic.gravity_le_of_weight_le (List.rel_of_pairwise_cons hordered hrest)
  · have htitles : ordered.map (Member.title ∘ Member.ofDiagnostic) = ordered.map (·.line) :=
      List.map_congr_left fun x _ => Diagnostic.title_ofDiagnostic x
    rw [markerOf, hmembers, List.map_map, htitles]

/-! Ranges. -/

theorem nodup_rangesOf (batch : List (Diagnostic .buffer)) : (rangesOf batch).Nodup :=
  (List.mergeSort_perm _ _).nodup_iff.mpr (nodup_eraseDups _)

theorem mem_rangesOf {batch : List (Diagnostic .buffer)} {r : Range .buffer} :
    r ∈ rangesOf batch ↔ ∃ x ∈ batch, x.range = r := by
  rw [rangesOf, List.mem_mergeSort, List.mem_eraseDups, List.mem_map]

/-- The diagnostics of one range. -/
abbrev sharing (batch : List (Diagnostic .buffer)) (r : Range .buffer) :
    List (Diagnostic .buffer) :=
  batch.filter (·.range = r)

theorem mem_sharing {batch : List (Diagnostic .buffer)} {r : Range .buffer}
    {x : Diagnostic .buffer} : x ∈ sharing batch r ↔ x ∈ batch ∧ x.range = r := by
  rw [List.mem_filter, decide_eq_true_iff]

/-- The diagnostics of some ranges, range by range. -/
theorem perm_flatMap_sharing (batch : List (Diagnostic .buffer)) {rs : List (Range .buffer)}
    (hrs : rs.Nodup) :
    (rs.flatMap (sharing batch)).Perm (batch.filter (·.range ∈ rs)) := by
  induction rs with
  | nil => simp
  | cons r rest ih =>
    obtain ⟨hr, hrest⟩ := List.nodup_cons.mp hrs
    -- those of the first range, and those of the others
    have hfirst : (batch.filter (·.range ∈ r :: rest)).filter (·.range = r) = sharing batch r := by
      rw [List.filter_filter]
      refine List.filter_congr ?_
      intro x _
      by_cases hx : x.range = r <;> simp [hx]
    have hothers : (batch.filter (·.range ∈ r :: rest)).filter (fun x => !decide (x.range = r)) =
        batch.filter (·.range ∈ rest) := by
      rw [List.filter_filter]
      refine List.filter_congr ?_
      intro x _
      by_cases hx : x.range = r
      · simp [hx, hr]
      · simp [hx]
    rw [List.flatMap_cons]
    refine ((ih hrest).append_left _).trans ?_
    rw [← hfirst, ← hothers]
    exact List.filter_append_perm _ _

theorem perm_flatMap_rangesOf (batch : List (Diagnostic .buffer)) :
    ((rangesOf batch).flatMap (sharing batch)).Perm batch := by
  have hall : batch.filter (·.range ∈ rangesOf batch) = batch := by
    rw [List.filter_eq_self]
    intro x hx
    rw [decide_eq_true_iff]
    exact mem_rangesOf.mpr ⟨x, hx, rfl⟩
  have hperm := perm_flatMap_sharing batch (nodup_rangesOf batch)
  rwa [hall] at hperm

/-! One range. -/

/-- What becomes of the diagnostics of one range: they have no place, they are shown by a marker
that is there already, or a marker is asked for, with an answer. -/
inductive Verdict where
  | placeless
  | standing (place : String × Range .editor)
  | asked (place : String × Range .editor) (marker : Marker) (answer : Except MarkerError Nat)

namespace Verdict

/-- Where the diagnostics are shown. -/
def place : Verdict → Option (String × Range .editor)
  | placeless => none
  | standing place => some place
  | asked place _ (.ok _) => some place
  | asked _ _ (.error _) => none

/-- What the renderer is asked for. -/
def request : Verdict → Option Request
  | asked _ marker answer => some (.attach marker answer)
  | _ => none

/-- The diagnostics, where they are shown. -/
def placing (v : Verdict) (x : Diagnostic .buffer) : Option Placed :=
  v.place.map fun place => ⟨x, place.1, place.2⟩

end Verdict

/-- A range is judged by its place, by the markers of before, and by what its diagnostics say. -/
inductive Judged (root document : Document) (previous : List (MarkerKey × Nat)) (r : Range .buffer)
    (group : List (Diagnostic .buffer)) : Verdict → Prop
  | placeless {reason : Discard} : anchor root document r = .error reason →
      Judged root document previous r group .placeless
  | standing {editor : String} {range : Range .editor} {id : Nat} :
      anchor root document r = .ok (editor, range) →
      lookup ⟨membersOf group, range, editor⟩ previous = some id →
      Judged root document previous r group (.standing (editor, range))
  | asked {editor : String} {range : Range .editor} {marker : Marker}
      {answer : Except MarkerError Nat} :
      anchor root document r = .ok (editor, range) →
      lookup ⟨membersOf group, range, editor⟩ previous = none →
      Merges group (editor, range) marker →
      Judged root document previous r group (.asked (editor, range) marker answer)

/-- What the verdicts on some ranges, with their diagnostics, add to the work on a batch. -/
structure Settles (verdict : Range .buffer → Verdict) (rs : List (Range .buffer))
    (shared : List (Diagnostic .buffer)) (pass result : Pass (σ × List Request)) : Prop where
  notes : result.drawing.2 = pass.drawing.2 ++ rs.filterMap fun r => (verdict r).request
  placed : result.placed = pass.placed ++ shared.filterMap fun x => (verdict x.range).placing x
  accepted : result.accepted =
    pass.accepted + shared.countP fun x => (verdict x.range).place.isSome
  discarded : result.discarded =
    pass.discarded + shared.countP fun x => (verdict x.range).place.isNone

namespace Settles

variable {verdict verdict' : Range .buffer → Verdict} {rs rs' : List (Range .buffer)}
  {shared shared' : List (Diagnostic .buffer)} {pass mid result : Pass (σ × List Request)}

theorem nil (pass : Pass (σ × List Request)) : Settles verdict [] [] pass pass :=
  ⟨(List.append_nil _).symm, (List.append_nil _).symm, rfl, rfl⟩

theorem append (h : Settles verdict rs shared pass mid)
    (h' : Settles verdict rs' shared' mid result) :
    Settles verdict (rs ++ rs') (shared ++ shared') pass result where
  notes := by rw [h'.notes, h.notes, List.filterMap_append, List.append_assoc]
  placed := by rw [h'.placed, h.placed, List.filterMap_append, List.append_assoc]
  accepted := by rw [h'.accepted, h.accepted, List.countP_append, Nat.add_assoc]
  discarded := by rw [h'.discarded, h.discarded, List.countP_append, Nat.add_assoc]

theorem congr (h : Settles verdict rs shared pass result) (hrs : ∀ r ∈ rs, verdict' r = verdict r)
    (hshared : ∀ x ∈ shared, verdict' x.range = verdict x.range) :
    Settles verdict' rs shared pass result where
  notes := h.notes.trans
    (congrArg _ (List.filterMap_congr fun r hr => by rw [hrs r hr]))
  placed := h.placed.trans
    (congrArg _ (List.filterMap_congr fun x hx => by rw [hshared x hx]))
  accepted := h.accepted.trans
    (congrArg _ (List.countP_congr fun x hx => by rw [hshared x hx]))
  discarded := h.discarded.trans
    (congrArg _ (List.countP_congr fun x hx => by rw [hshared x hx]))

end Settles

section

variable {v : Verdict} {r : Range .buffer} {group : List (Diagnostic .buffer)}
  {pass : Pass (σ × List Request)} {drawing : σ × List Request}

theorem settles_take {key : MarkerKey} {id : Nat}
    (hnotes : drawing.2 = pass.drawing.2 ++ [r].filterMap fun _ => v.request)
    (hplace : v.place = some (key.editor, key.range)) :
    Settles (fun _ => v) [r] group pass (pass.take drawing key id group) := by
  refine ⟨hnotes, ?_, ?_, ?_⟩
  · have hall : group.filterMap v.placing = group.map (⟨·, key.editor, key.range⟩) := by
      rw [← List.filterMap_eq_map]
      refine List.filterMap_congr ?_
      intro x _
      rw [Verdict.placing, hplace]
      rfl
    rw [hall]
    rfl
  · simp [hplace, Pass.take]
  · simp [hplace, Pass.take]

theorem settles_discard
    (hnotes : drawing.2 = pass.drawing.2 ++ [r].filterMap fun _ => v.request)
    (hplace : v.place = none) :
    Settles (fun _ => v) [r] group pass (pass.discard drawing group) := by
  refine ⟨hnotes, ?_, ?_, ?_⟩
  · have hnone : group.filterMap v.placing = [] := by
      rw [List.filterMap_eq_nil_iff]
      intro x _
      rw [Verdict.placing, hplace]
      rfl
    rw [hnone, List.append_nil]
    rfl
  · simp [hplace, Pass.discard]
  · simp [hplace, Pass.discard]

end

/-- The key of the diagnostics of one range. -/
theorem groupKey_of_range (root document : Document) {r : Range .buffer}
    {group : List (Diagnostic .buffer)} (hne : group ≠ []) (hrange : ∀ x ∈ group, x.range = r) :
    (∃ reason, anchor root document r = .error reason ∧ groupKey root document group = none) ∨
      ∃ editor range, anchor root document r = .ok (editor, range) ∧
        groupKey root document group = some ⟨membersOf group, range, editor⟩ := by
  cases group with
  | nil => exact absurd rfl hne
  | cons x rest =>
    rw [groupKey, hrange x List.mem_cons_self]
    cases anchor root document r with
    | error reason => exact Or.inl ⟨reason, rfl, rfl⟩
    | ok place => exact Or.inr ⟨place.1, place.2, rfl, rfl⟩

section

variable (renderer : Renderer σ) (root document : Document) (previous : List (MarkerKey × Nat))

/-- The diagnostics of one range get one verdict. -/
theorem exists_verdict {r : Range .buffer} {group : List (Diagnostic .buffer)} (hne : group ≠ [])
    (hrange : ∀ x ∈ group, x.range = r) (pass : Pass (σ × List Request)) :
    ∃ v, Judged root document previous r group v ∧
      Settles (fun _ => v) [r] group pass
        (showGroup renderer.noting root document previous pass group) := by
  rcases groupKey_of_range root document hne hrange with
    ⟨reason, hanchor, hnone⟩ | ⟨editor, range, hanchor, hsome⟩
  · rcases showGroup_cases renderer.noting root document previous pass group with
      ⟨-, hpass⟩ | ⟨key, hkey, -⟩
    · refine ⟨.placeless, .placeless hanchor, ?_⟩
      rw [hpass]
      exact settles_discard (List.append_nil _).symm rfl
    · exact absurd (hnone.symm.trans hkey) (Option.some_ne_none key).symm
  · rcases showGroup_cases renderer.noting root document previous pass group with
      ⟨hnone, -⟩ | ⟨key, hkey, hshown⟩
    · exact absurd (hnone.symm.trans hsome) (Option.some_ne_none _).symm
    · obtain rfl := Option.some.inj (hsome.symm.trans hkey)
      rcases hshown with ⟨id, hold, hpass⟩ |
        ⟨hnew, ⟨drawing, id, hattach, hpass⟩ | ⟨drawing, e, hattach, hpass⟩⟩
      · refine ⟨.standing (editor, range), .standing hanchor hold, ?_⟩
        rw [hpass]
        exact settles_take (List.append_nil _).symm rfl
      · obtain ⟨rfl, hanswer⟩ := Prod.mk.inj hattach
        refine ⟨.asked _ _ (.ok id), .asked hanchor hnew (merges_markerOf hne editor range), ?_⟩
        rw [hpass]
        refine settles_take ?_ rfl
        rw [hanswer]
        rfl
      · obtain ⟨rfl, hanswer⟩ := Prod.mk.inj hattach
        refine ⟨.asked _ _ (.error e), .asked hanchor hnew (merges_markerOf hne editor range), ?_⟩
        rw [hpass]
        refine settles_discard ?_ rfl
        rw [hanswer]
        rfl

/-- The ranges of a batch, one after another, get a verdict each. -/
theorem exists_verdicts {batch : List (Diagnostic .buffer)} {rs : List (Range .buffer)}
    (hrs : rs.Nodup) (hmem : ∀ r ∈ rs, ∃ x ∈ batch, x.range = r) (pass : Pass (σ × List Request)) :
    ∃ verdict : Range .buffer → Verdict,
      (∀ r ∈ rs, Judged root document previous r (sharing batch r) (verdict r)) ∧
      Settles verdict rs (rs.flatMap (sharing batch)) pass ((rs.map (sharing batch)).foldl
        (showGroup renderer.noting root document previous) pass) := by
  induction rs generalizing pass with
  | nil => exact ⟨fun _ => .placeless, by simp, Settles.nil pass⟩
  | cons r rest ih =>
    obtain ⟨hr, hrest⟩ := List.nodup_cons.mp hrs
    obtain ⟨x, hx, hxr⟩ := hmem r List.mem_cons_self
    have hne : sharing batch r ≠ [] := List.ne_nil_of_mem (mem_sharing.mpr ⟨hx, hxr⟩)
    obtain ⟨v, hjudged, hfirst⟩ := exists_verdict renderer root document previous hne
      (fun y hy => (mem_sharing.mp hy).2) pass
    obtain ⟨verdict, hverdict, hothers⟩ :=
      ih hrest (fun r' hr' => hmem r' (List.mem_cons_of_mem r hr'))
        (showGroup renderer.noting root document previous pass (sharing batch r))
    -- the verdict on the first range joins those on the others
    have hother : ∀ r' ∈ rest, Function.update verdict r v r' = verdict r' := by
      intro r' hr'
      rw [Function.update_of_ne]
      rintro rfl
      exact hr hr'
    refine ⟨Function.update verdict r v, ?_, ?_⟩
    · intro r' hr'
      rcases List.mem_cons.mp hr' with rfl | hr'
      · rw [Function.update_self]
        exact hjudged
      · rw [hother r' hr']
        exact hverdict r' hr'
    · rw [List.flatMap_cons, List.map_cons, List.foldl_cons, ← List.singleton_append]
      refine Settles.append (hfirst.congr ?_ ?_) (hothers.congr hother ?_)
      · intro r' hr'
        rw [List.mem_singleton.mp hr', Function.update_self]
      · intro y hy
        rw [(mem_sharing.mp hy).2, Function.update_self]
      · intro y hy
        obtain ⟨r', hr', hy⟩ := List.mem_flatMap.mp hy
        rw [(mem_sharing.mp hy).2, hother r' hr']

/-- Taking markers away asks for nothing else. -/
theorem notes_detachAll (drawing : σ × List Request) (gone : List (MarkerKey × Nat)) :
    ∃ taken, (detachAll renderer.noting drawing gone).2 = drawing.2 ++ taken ∧
      ∀ request ∈ taken, ∃ id answer, request = .detach id answer := by
  induction gone generalizing drawing with
  | nil => exact ⟨[], (List.append_nil _).symm, by simp⟩
  | cons m rest ih =>
    obtain ⟨taken, htaken, hall⟩ := ih (renderer.noting.detach drawing m.2).1
    refine ⟨.detach m.2 (renderer.detach drawing.1 m.2).2 :: taken, ?_, ?_⟩
    · refine htaken.trans ?_
      rw [Renderer.noting, List.append_assoc, List.singleton_append]
    · intro request hrequest
      rcases List.mem_cons.mp hrequest with rfl | hrequest
      · exact ⟨_, _, rfl⟩
      · exact hall request hrequest

end

end Aggregator

end Polyglot
