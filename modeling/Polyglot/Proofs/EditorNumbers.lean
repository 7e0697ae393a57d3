import Polyglot.Proofs.Orphans
import Polyglot.Proofs.RendererRequests

/-!
Numbers of editors. A key may name its editor by a number, which the editor gets when it is first
asked for and keeps from then on. Main statement: an aggregator that keeps its markers under such
keys does on every call, and so along every run, what one does that keeps the names.
-/
namespace Polyglot

/-! Other keys for the same markers. -/

namespace Aggregator

variable {σ κ κ' : Type}

def renamed (f : κ → κ') (records : List (κ × Nat)) : List (κ' × Nat) :=
  records.map fun m => (f m.1, m.2)

def rename (f : κ → κ') (a : Aggregator σ κ) : Aggregator σ κ' where
  drawing := a.drawing
  markers := a.markers.map fun entry => (entry.1, renamed f entry.2)
  table := a.table

def Pass.rename (f : κ → κ') (pass : Pass σ κ) : Pass σ κ' :=
  { pass with kept := renamed f pass.kept }

/-- What is taken away does not depend on the keys. -/
theorem detachAll_renamed (renderer : Renderer σ) (drawing : σ) (f : κ → κ')
    (records : List (κ × Nat)) :
    detachAll renderer drawing (renamed f records) = detachAll renderer drawing records := by
  rw [detachAll, renamed, List.foldl_map, detachAll]

theorem recordsOf_rename (f : κ → κ') (a : Aggregator σ κ) (target : String) :
    (lookup target (a.rename f).markers).getD [] =
      renamed f ((lookup target a.markers).getD []) := by
  rw [rename, lookup_map_snd]
  cases lookup target a.markers <;> rfl

theorem forget_rename (renderer : Renderer σ) (target : String) (f : κ → κ')
    (a : Aggregator σ κ) :
    (a.rename f).forget renderer target = (a.forget renderer target).rename f := by
  rw [forget, forget, recordsOf_rename, detachAll_renamed, rename, erase_map_snd, rename]

theorem prune_rename (renderer : Renderer σ) (root : Document) (f : κ → κ')
    (a : Aggregator σ κ) :
    (a.rename f).prune renderer root = (a.prune renderer root).rename f := by
  have htargets : (a.rename f).markers.map (·.1) = a.markers.map (·.1) := by
    rw [rename, List.map_map]
    rfl
  rw [prune, prune, htargets]
  generalize (a.markers.map (·.1)).filter (fun uri => !root.walk.any (·.uri.href = uri)) = gone
  clear htargets
  induction gone generalizing a with
  | nil => rfl
  | cons uri rest ih => rw [List.foldl_cons, List.foldl_cons, forget_rename, ih]

section

variable [DecidableEq κ] [DecidableEq κ'] {f : κ → κ'} {key : κ} {records : List (κ × Nat)}
  (h : ∀ m ∈ records, f m.1 = f key ↔ m.1 = key)

include h

theorem lookup_renamed : lookup (f key) (renamed f records) = lookup key records := by
  induction records with
  | nil => rfl
  | cons m rest ih =>
    have hrest := ih fun m hm => h m (List.mem_cons_of_mem _ hm)
    simp only [lookup, renamed, List.map_cons, List.find?_cons, h m List.mem_cons_self] at hrest ⊢
    by_cases hkey : m.1 = key
    · simp only [hkey, decide_true, Option.map_some]
    · simp only [hkey, decide_false]
      exact hrest

theorem insert_renamed (id : Nat) :
    insert (f key) id (renamed f records) = renamed f (insert key id records) := by
  have herase : erase (f key) (renamed f records) = renamed f (erase key records) := by
    rw [erase, erase, renamed, List.filter_map, renamed]
    refine congrArg _ (List.filter_congr fun m hm => ?_)
    simp [h m hm]
  rw [insert, insert, herase, renamed, renamed, List.map_append]
  rfl

end

end Aggregator

/-! Keys with numbers. -/

/-- What a marker says, and where, with a number for its editor. -/
structure NumberedKey where
  members : List Member
  range : Range .editor
  number : Nat
deriving DecidableEq

/-- The same key with the number of its editor, which is the place of the editor in a list. -/
def MarkerKey.numbered (editors : List String) (key : MarkerKey) : NumberedKey :=
  ⟨key.members, key.range, editors.idxOf key.editor⟩

namespace Aggregator

/-- The editors with numbers after one was asked for. -/
def enlist (editors : List String) (editor : String) : List String :=
  if editor ∈ editors then editors else editors ++ [editor]

theorem prefix_enlist (editors : List String) (editor : String) :
    editors <+: enlist editors editor := by
  unfold enlist
  split
  · exact List.prefix_refl editors
  · exact List.prefix_append editors [editor]

theorem mem_enlist (editors : List String) (editor : String) :
    editor ∈ enlist editors editor := by
  unfold enlist
  split
  · assumption
  · exact List.mem_append_right editors (List.mem_singleton_self editor)

/-- All editors of the records have numbers. -/
def Listed (editors : List String) (records : List (MarkerKey × Nat)) : Prop :=
  ∀ m ∈ records, m.1.editor ∈ editors

namespace Listed

variable {editors more : List String} {records : List (MarkerKey × Nat)}

theorem mono (h : Listed editors records) (hmore : editors <+: more) : Listed more records :=
  fun m hm => hmore.subset (h m hm)

theorem insert (h : Listed editors records) {key : MarkerKey} (hkey : key.editor ∈ editors)
    (id : Nat) : Listed editors (insert key id records) := by
  intro m hm
  rcases List.mem_append.mp hm with hold | hnew
  · exact h m (List.mem_filter.mp hold).1
  · rw [List.mem_singleton.mp hnew]
    exact hkey

/-- Numbers tell the same keys apart as names. -/
theorem numbered_inj (h : Listed editors records) (key : MarkerKey) :
    ∀ m ∈ records, m.1.numbered editors = key.numbered editors ↔ m.1 = key := by
  intro m hm
  have heditor := h m hm
  cases key
  cases hkey : m.1
  rw [hkey] at heditor
  simp only [MarkerKey.numbered, NumberedKey.mk.injEq, MarkerKey.mk.injEq, List.idxOf_inj heditor]

/-- Numbers stay when more editors come. -/
theorem renamed_stays (h : Listed editors records) (hmore : editors <+: more) :
    renamed (·.numbered more) records = renamed (·.numbered editors) records := by
  obtain ⟨later, rfl⟩ := hmore
  refine List.map_congr_left fun m hm => ?_
  simp only [MarkerKey.numbered, List.idxOf_append_of_mem (h m hm)]

end Listed

end Aggregator

/-! Markers under keys with numbers. -/

open Aggregator (enlist renamed Listed lookup insert)

/-- An aggregator that keeps its markers under keys with numbers, and the editors in the order in
which they got theirs. -/
structure NumberedAggregator (σ : Type) extends Aggregator σ NumberedKey where
  editors : List String := []

/-- The work on a batch so far. -/
structure NumberedPass (σ : Type) extends Aggregator.Pass σ NumberedKey where
  editors : List String

variable {σ : Type}

namespace NumberedAggregator

/-- Shows one group; its editor gets a number if it has none. -/
def showGroup (renderer : Renderer σ) (root document : Document)
    (previous : List (NumberedKey × Nat)) (pass : NumberedPass σ)
    (group : List (Diagnostic .buffer)) : NumberedPass σ :=
  match Aggregator.groupKey root document group with
  | none => { pass with discarded := pass.discarded + group.length }
  | some key =>
    let editors := enlist pass.editors key.editor
    let shown := fun (drawing : σ) (id : Nat) =>
      { pass with
        drawing := drawing
        kept := insert (key.numbered editors) id pass.kept
        placed := pass.placed ++ group.map (⟨·, key.editor, key.range⟩)
        accepted := pass.accepted + group.length
        editors := editors }
    match lookup (key.numbered editors) previous with
    | some id => shown pass.drawing id
    | none =>
      match renderer.attach pass.drawing (Aggregator.markerOf key) with
      | (drawing, .ok id) => shown drawing id
      | (drawing, .error _) =>
        { pass with
          drawing := drawing
          discarded := pass.discarded + group.length
          editors := editors }

def handle (renderer : Renderer σ) (root : Document) (target : Url)
    (diagnostics : List (Diagnostic .buffer)) (n : NumberedAggregator σ) :
    NumberedAggregator σ × BatchOutcome :=
  match root.find? target with
  | none => (n, { rejected := true })
  | some document =>
    let previous := (lookup target.href n.markers).getD []
    let pass := (Aggregator.groups diagnostics).foldl (showGroup renderer root document previous)
      { drawing := n.drawing, editors := n.editors }
    let gone := previous.filter fun m => (lookup m.1 pass.kept).isNone
    ({ drawing := Aggregator.detachAll renderer pass.drawing gone
       markers := insert target.href pass.kept n.markers
       table := insert target.href pass.placed n.table
       editors := pass.editors },
     { accepted := pass.accepted, discarded := pass.discarded })

/-- The other calls do not ask for numbers. -/
def act : Aggregator.Call → NumberedAggregator MarkerStore → NumberedAggregator MarkerStore
  | .handle root uri diagnostics, n => (n.handle MarkerStore.renderer root uri diagnostics).1
  | .forget target, n => { n with toAggregator := n.forget MarkerStore.renderer target }
  | .prune root, n => { n with toAggregator := n.prune MarkerStore.renderer root }

/-- The aggregator after some calls, with a fresh store and without numbers at the start. -/
def after (calls : List Aggregator.Call) : NumberedAggregator MarkerStore :=
  calls.foldl (fun n call => act call n) { drawing := {} }

end NumberedAggregator

namespace Aggregator

/-- The same work, with numbers. -/
def Pass.numbered (editors : List String) (pass : Pass σ) : NumberedPass σ :=
  { pass.rename (·.numbered editors) with editors := editors }

/-- The same state, with numbers. -/
def numbered (editors : List String) (a : Aggregator σ) : NumberedAggregator σ :=
  { a.rename (·.numbered editors) with editors := editors }

/-! One group of a batch, and all of them. -/

section

variable {first editors : List String} {previous : List (MarkerKey × Nat)} {pass : Pass σ}

theorem showGroup_numbered (hprevious : Listed first previous) (hfirst : first <+: editors)
    (hkept : Listed editors pass.kept) (renderer : Renderer σ) (root document : Document)
    (group : List (Diagnostic .buffer)) :
    ∃ more, editors <+: more ∧
      Listed more (showGroup renderer root document previous pass group).kept ∧
      NumberedAggregator.showGroup renderer root document (renamed (·.numbered first) previous)
          (pass.numbered editors) group =
        (showGroup renderer root document previous pass group).numbered more := by
  rcases showGroup_cases renderer root document previous pass group with
    ⟨hkey, hnamed⟩ | ⟨key, hkey, hcases⟩
  · refine ⟨editors, List.prefix_refl editors, ?_⟩
    rw [hnamed, NumberedAggregator.showGroup, hkey]
    exact ⟨hkept, rfl⟩
  · have hmore := prefix_enlist editors key.editor
    have hlisted := hkept.mono hmore
    -- a key that was shown before has the number under which it was recorded
    have hlookup : lookup (key.numbered (enlist editors key.editor))
        (renamed (·.numbered first) previous) = lookup key previous := by
      have hthen := hfirst.trans hmore
      rw [← hprevious.renamed_stays hthen]
      exact lookup_renamed ((hprevious.mono hthen).numbered_inj key)
    have hinsert : ∀ id, insert (key.numbered (enlist editors key.editor)) id
          (renamed (·.numbered editors) pass.kept) =
        renamed (·.numbered (enlist editors key.editor)) (insert key id pass.kept) := by
      intro id
      rw [← hkept.renamed_stays hmore]
      exact insert_renamed (hlisted.numbered_inj key) id
    have htake := hlisted.insert (mem_enlist editors key.editor)
    refine ⟨enlist editors key.editor, hmore, ?_⟩
    simp only [NumberedAggregator.showGroup, hkey, Pass.numbered, Pass.rename, hlookup, hinsert]
    rcases hcases with ⟨id, hold, hnamed⟩ | ⟨hnew, ⟨drawing, id, hattach, hnamed⟩ |
      ⟨drawing, e, hattach, hnamed⟩⟩
    · rw [hnamed, hold]
      exact ⟨htake id, rfl⟩
    · rw [hnamed, hnew, hattach]
      exact ⟨htake id, rfl⟩
    · rw [hnamed, hnew, hattach]
      refine ⟨hlisted, ?_⟩
      rw [Pass.discard, ← hkept.renamed_stays hmore]

theorem showAll_numbered (hprevious : Listed first previous) (hfirst : first <+: editors)
    (hkept : Listed editors pass.kept) (renderer : Renderer σ) (root document : Document)
    (groups : List (List (Diagnostic .buffer))) :
    ∃ more, editors <+: more ∧
      Listed more (groups.foldl (showGroup renderer root document previous) pass).kept ∧
      groups.foldl (NumberedAggregator.showGroup renderer root document
          (renamed (·.numbered first) previous)) (pass.numbered editors) =
        (groups.foldl (showGroup renderer root document previous) pass).numbered more := by
  induction groups generalizing pass editors with
  | nil => exact ⟨editors, List.prefix_refl editors, hkept, rfl⟩
  | cons group rest ih =>
    obtain ⟨grown, hgrown, hlisted, hstep⟩ :=
      showGroup_numbered hprevious hfirst hkept renderer root document group
    obtain ⟨more, hmore, hall, hrest⟩ := ih (hfirst.trans hgrown) hlisted
    refine ⟨more, hgrown.trans hmore, hall, ?_⟩
    rw [List.foldl_cons, hstep, hrest, List.foldl_cons]

end

/-! Calls and runs. -/

/-- All editors of the markers have numbers. -/
def Numbers (editors : List String) (a : Aggregator σ) : Prop :=
  ∀ entry ∈ a.markers, Listed editors entry.2

variable {editors : List String} {a : Aggregator σ}

theorem Numbers.listed (h : a.Numbers editors) (target : String) :
    Listed editors ((lookup target a.markers).getD []) := by
  cases hrecords : lookup target a.markers with
  | none => exact fun m hm => absurd hm List.not_mem_nil
  | some records => exact h _ (mem_of_lookup hrecords)

/-- A batch does the same with numbers, and has the same outcome. -/
theorem handle_numbered (h : a.Numbers editors) (renderer : Renderer σ) (root : Document)
    (target : Url) (diagnostics : List (Diagnostic .buffer)) :
    ∃ more, (a.handle renderer root target diagnostics).1.Numbers more ∧
      (a.numbered editors).handle renderer root target diagnostics =
        ((a.handle renderer root target diagnostics).1.numbered more,
          (a.handle renderer root target diagnostics).2) := by
  rw [NumberedAggregator.handle, handle]
  cases root.find? target with
  | none => exact ⟨editors, h, rfl⟩
  | some document =>
    have hprevious := h.listed target.href
    have hrecords : (lookup target.href (a.numbered editors).markers).getD [] =
        renamed (·.numbered editors) ((lookup target.href a.markers).getD []) :=
      recordsOf_rename _ a target.href
    obtain ⟨more, hmore, hkept, hpass⟩ := showAll_numbered hprevious (List.prefix_refl editors)
      (show Listed editors ({ drawing := a.drawing } : Pass σ).kept from
        fun m hm => absurd hm List.not_mem_nil) renderer root document (groups diagnostics)
    have hmarkers : (a.numbered editors).markers =
        a.markers.map fun entry => (entry.1, renamed (·.numbered more) entry.2) := by
      refine List.map_congr_left fun entry hentry => ?_
      rw [(h entry hentry).renamed_stays hmore]
    refine ⟨more, ?_, ?_⟩
    · intro entry hentry
      rcases List.mem_append.mp hentry with hold | hnew
      · exact (h entry (List.mem_filter.mp hold).1).mono hmore
      · rw [List.mem_singleton.mp hnew]
        exact hkept
    · simp only [hrecords]
      generalize (lookup target.href a.markers).getD [] = previous at hprevious hkept hpass ⊢
      generalize (groups diagnostics).foldl (showGroup renderer root document previous)
        { drawing := a.drawing } = pass at hkept hpass ⊢
      have hgone : (renamed (·.numbered editors) previous).filter
            (fun m => (lookup m.1 (renamed (·.numbered more) pass.kept)).isNone) =
          renamed (·.numbered more) (previous.filter fun m => (lookup m.1 pass.kept).isNone) := by
        rw [← hprevious.renamed_stays hmore]
        refine List.filter_map.trans (congrArg _ (List.filter_congr fun m _ => ?_))
        rw [Function.comp_apply, lookup_renamed (hkept.numbered_inj m.1)]
      have hstart : (NumberedPass.mk { drawing := (a.numbered editors).drawing }
          (a.numbered editors).editors) = Pass.numbered editors { drawing := a.drawing } := rfl
      rw [hstart, hpass, hmarkers]
      simp only [Pass.numbered, Pass.rename, numbered, rename, hgone, detachAll_renamed,
        insert_map_snd]

theorem Numbers.forget (h : a.Numbers editors) (renderer : Renderer σ) (target : String) :
    (a.forget renderer target).Numbers editors :=
  fun entry hentry => h entry (List.mem_filter.mp hentry).1

theorem Numbers.prune (h : a.Numbers editors) (renderer : Renderer σ) (root : Document) :
    (a.prune renderer root).Numbers editors :=
  List.foldlRecOn _ _ h fun _ hlater uri _ => hlater.forget renderer uri

theorem act_numbered {a : Aggregator MarkerStore} (h : a.Numbers editors) (call : Call) :
    ∃ more, (call.act a).Numbers more ∧
      NumberedAggregator.act call (a.numbered editors) = (call.act a).numbered more := by
  cases call with
  | handle root uri diagnostics =>
    obtain ⟨more, hmore, hhandle⟩ := handle_numbered h MarkerStore.renderer root uri diagnostics
    exact ⟨more, hmore, congrArg Prod.fst hhandle⟩
  | forget target =>
    refine ⟨editors, h.forget MarkerStore.renderer target, ?_⟩
    exact congrArg (NumberedAggregator.mk · editors) (forget_rename _ target _ a)
  | prune root =>
    refine ⟨editors, h.prune MarkerStore.renderer root, ?_⟩
    exact congrArg (NumberedAggregator.mk · editors) (prune_rename _ root _ a)

/-- After every run the aggregator with numbers is the one with names, each name replaced by the
number of its editor. -/
theorem after_numbered (calls : List Call) :
    ∃ editors, (after calls).Numbers editors ∧
      NumberedAggregator.after calls = (after calls).numbered editors := by
  induction calls using List.reverseRecOn with
  | nil => exact ⟨[], fun entry hentry => absurd hentry List.not_mem_nil, rfl⟩
  | append_singleton calls call ih =>
    obtain ⟨editors, hnumbers, hafter⟩ := ih
    obtain ⟨more, hmore, hact⟩ := act_numbered hnumbers call
    refine ⟨more, by rwa [after_append_singleton], ?_⟩
    rw [after_append_singleton, ← hact, ← hafter, NumberedAggregator.after, List.foldl_append]
    rfl

/-- After every run both have drawn and listed the same, and remember the same marker for the same
document under a key, with the name or with the number of the editor. -/
theorem numbers_tell_as_names (calls : List Call) :
    (NumberedAggregator.after calls).drawing = (after calls).drawing ∧
      (NumberedAggregator.after calls).table = (after calls).table ∧
      ∀ target key id, (after calls).Recorded target key id ↔
        ∃ records, lookup target (NumberedAggregator.after calls).markers = some records ∧
          lookup (key.numbered (NumberedAggregator.after calls).editors) records = some id := by
  obtain ⟨editors, hnumbers, hafter⟩ := after_numbered calls
  rw [hafter]
  refine ⟨rfl, rfl, fun target key id => ?_⟩
  rw [Recorded, numbered, rename, lookup_map_snd]
  cases hrecords : lookup target (after calls).markers with
  | none => simp
  | some records =>
    have hlisted := hnumbers _ (mem_of_lookup hrecords)
    simp [lookup_renamed (hlisted.numbered_inj key)]

end Aggregator

end Polyglot
