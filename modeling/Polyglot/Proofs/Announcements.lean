import Polyglot.Proofs.RoundTrip
import Polyglot.Proofs.Sweeps
import Mathlib.Data.List.Chain

/-!
What a rebuild tells. Who hears of all that happens at a path hears a life in which the document
there is opened and closed in turn, and a client that copies buffers when they change has the copy
that the standing of the path says. The events that a rebuild lets out of the root tell all of this,
whether the rebuild succeeds or not.
-/
namespace Polyglot

open Document Standing

/-! The lives of documents. -/

/-- What happens to the document at a path, changes of its buffer apart. -/
def lifeOf (p : String) (events : List Event) : List EventKind :=
  (events.filter fun e => e.idPath = p && e.kind ≠ .changed).map (·.kind)

/-- Opened first, and then closed and opened in turn. -/
def InTurn (life : List EventKind) : Prop := life.IsChain (· ≠ ·) ∧ life.head? ≠ some .closed

/-- A life in turn, at the end of which the document is known if it is open. -/
structure Lives (life : List EventKind) (s : Standing) : Prop where
  inTurn : InTurn life
  open_iff : life.getLast? = some .opened ↔ s ≠ unknown

theorem lifeOf_append (p : String) (es es' : List Event) :
    lifeOf p (es ++ es') = lifeOf p es ++ lifeOf p es' := by
  rw [lifeOf, List.filter_append, List.map_append]
  rfl

theorem Lives.opened {life : List EventKind} (h : Lives life unknown) (copy : Option Text) :
    Lives (life ++ [.opened]) (known copy) := by
  have hlast : life.getLast? ≠ some .opened := fun hlast => h.open_iff.mp hlast rfl
  refine ⟨⟨List.isChain_append.mpr ⟨h.inTurn.1, List.IsChain.singleton _, ?_⟩, ?_⟩, by simp⟩
  · rintro x hx y ⟨⟩ rfl
    exact hlast hx
  · rw [List.head?_append]
    cases hhead : life.head? with
    | none => simp
    | some first => exact fun heq => h.inTurn.2 (hhead.trans heq)

theorem Lives.closed {life : List EventKind} {copy : Option Text} (h : Lives life (known copy)) :
    Lives (life ++ [.closed]) unknown := by
  have hlast : life.getLast? = some .opened := h.open_iff.mpr (by simp)
  refine ⟨⟨List.isChain_append.mpr ⟨h.inTurn.1, List.IsChain.singleton _, ?_⟩, ?_⟩, by simp⟩
  · rintro x hx y ⟨⟩ rfl
    rw [hlast] at hx
    cases hx
  · rw [List.head?_append]
    cases hhead : life.head? with
    | none =>
      rw [List.head?_eq_none_iff.mp hhead] at hlast
      cases hlast
    | some first => exact fun heq => h.inTurn.2 (hhead.trans heq)

theorem Lives.changed {life : List EventKind} {copy : Option Text} (h : Lives life (known copy))
    (copy' : Option Text) : Lives life (known copy') :=
  ⟨h.inTurn, h.open_iff.trans (by simp)⟩

theorem Lives.hear {v : Text} {s s' : Standing} {life : List EventKind} {e : Event}
    (h : Lives life s) (hheard : s.hear v e.kind = some s') :
    Lives (life ++ lifeOf e.idPath [e]) s' := by
  cases s with
  | unknown =>
    cases hkind : e.kind with
    | opened =>
      rw [hkind] at hheard
      cases hheard
      simpa [lifeOf, hkind] using h.opened none
    | closed => simp [Standing.hear, hkind] at hheard
    | changed => simp [Standing.hear, hkind] at hheard
  | known copy =>
    cases hkind : e.kind with
    | opened => simp [Standing.hear, hkind] at hheard
    | closed =>
      rw [hkind] at hheard
      cases hheard
      simpa [lifeOf, hkind] using h.closed
    | changed =>
      rw [hkind, Standing.hear] at hheard
      split at hheard
      · cases hheard
      · cases hheard
        simpa [lifeOf, hkind] using h.changed (some v)

/-- Who hears of all that happens at a path hears a life in turn. -/
theorem Lives.hearAll {p : String} {v : Text} {s s' : Standing} {life : List EventKind}
    {es : List Event} (h : Lives life s) (hheard : hearAll p v s es = some s') :
    Lives (life ++ lifeOf p es) s' := by
  induction es generalizing s life with
  | nil =>
    cases hheard
    rw [show lifeOf p [] = [] from rfl, List.append_nil]
    exact h
  | cons e rest ih =>
    rw [show lifeOf p (e :: rest) = lifeOf p [e] ++ lifeOf p rest from lifeOf_append p [e] rest]
    rw [Standing.hearAll] at hheard
    by_cases hp : e.idPath = p
    · rw [if_pos hp] at hheard
      obtain ⟨t, hstep, hrest⟩ := Option.bind_eq_some_iff.mp hheard
      rw [← List.append_assoc]
      exact ih (hp ▸ h.hear hstep) hrest
    · rw [if_neg hp] at hheard
      have hsilent : lifeOf p [e] = [] := by simp [lifeOf, hp]
      rw [hsilent, List.nil_append]
      exact ih h hheard

theorem lifeOf_eq_nil {p : String} {es : List Event}
    (h : ∀ e ∈ es, e.idPath = p → e.kind = .changed) : lifeOf p es = [] := by
  rw [lifeOf, List.map_eq_nil_iff, List.filter_eq_nil_iff]
  intro e he
  by_cases hp : e.idPath = p
  · simp [h e he hp]
  · simp [hp]

/-! Copies. -/

/-- The copy that a client has of a document that it knows. -/
def Standing.copy : Standing → Option Text
  | unknown => none
  | known copy => copy

/-- A client drops its copies of documents that are closed. -/
def dropped (events : List Event) (copies : String → Option Text) (p : String) : Option Text :=
  if ∃ e ∈ events, e.kind = .closed ∧ e.idPath = p then none else copies p

/-- A client copies the buffers of documents that have changed from a tree. -/
def taken (events : List Event) (root : Document) (copies : String → Option Text) (p : String) :
    Option Text :=
  if ∃ e ∈ events, e.kind = .changed ∧ e.idPath = p then
    (root.walk.find? (·.idPath = p)).map value
  else copies p

section

variable {p : String} {v : Text} {s s' : Standing} {es : List Event} {copies : String → Option Text}

/-- What is known of a path that does not change is what the client has of it. -/
theorem copy_hearAll (h : hearAll p v s es = some s')
    (hcalm : ∀ e ∈ es, e.kind = .changed → e.idPath ≠ p) (hcopy : copies p = s.copy) :
    s'.copy = dropped es copies p := by
  rw [dropped, hcopy]
  clear hcopy
  induction es generalizing s with
  | nil =>
    cases h
    simp
  | cons e rest ih =>
    have hrest := fun {t} (h : hearAll p v t rest = some s') =>
      ih h fun e he => hcalm e (List.mem_cons_of_mem _ he)
    rw [hearAll] at h
    by_cases hp : e.idPath = p
    · rw [if_pos hp] at h
      obtain ⟨t, hstep, h⟩ := Option.bind_eq_some_iff.mp h
      rw [hrest h]
      cases s with
      | unknown =>
        cases hkind : e.kind with
        | opened =>
          rw [hkind] at hstep
          cases hstep
          simp [copy]
        | closed => simp [hear, hkind] at hstep
        | changed => exact absurd hp (hcalm e List.mem_cons_self hkind)
      | known copy =>
        cases hkind : e.kind with
        | opened => simp [hear, hkind] at hstep
        | closed =>
          rw [hkind] at hstep
          cases hstep
          simp [Standing.copy, hkind, hp]
        | changed => exact absurd hp (hcalm e List.mem_cons_self hkind)
    · rw [if_neg hp] at h
      simpa [hp] using hrest h

end

/-! What a rebuild tells. -/

/-- The events that a rebuild lets out of the root. -/
def Session.told (cells : List Cell) (next : Nat) (s : Session) : List Event :=
  match s.acquire with
  | .error _ => []
  | .ok () => (rebuild s.context s.levels cells next s.root).2.document.outbox

/-- All that can come of a rebuild: the tree is busy, a cell cannot be appended, or all goes well. -/
theorem update_cases (cells : List Cell) (next : Nat) (s : Session) :
    (∃ e, s.update cells next = (s, next, .error e) ∧ s.told cells next = []) ∨
    (∃ notices d n e feed,
      appendCells s.context s.levels 0 cells next s.root.clear = (notices, ⟨d, n, .error e⟩) ∧
      s.update cells next = ({ s with root := d.drained, feed := feed }, n, .error (.document e)) ∧
      s.told cells next = d.outbox) ∨
    ∃ notices d n feed,
      appendCells s.context s.levels 0 cells next s.root.clear = (notices, ⟨d, n, .ok ()⟩) ∧
      s.update cells next =
        ({ s with root := d.closeExpired.emitChanged.drained, feed := feed }, n, .ok ()) ∧
      s.told cells next = d.closeExpired.emitChanged.outbox := by
  unfold Session.update Session.told rebuild
  cases s.acquire with
  | error e => exact Or.inl ⟨e, rfl, rfl⟩
  | ok u =>
    refine Or.inr ?_
    cases happend : appendCells s.context s.levels 0 cells next s.root.clear with
    | mk notices outcome =>
      obtain ⟨d, n, result⟩ := outcome
      cases result with
      | error e => exact Or.inl ⟨notices, d, n, e, _, rfl, rfl, rfl⟩
      | ok u => exact Or.inr ⟨notices, d, n, _, rfl, rfl, rfl⟩

theorem context_update (cells : List Cell) (next : Nat) (s : Session) :
    (s.update cells next).1.context = s.context := by
  rcases update_cases cells next s with
    ⟨_, h, _⟩ | ⟨_, _, _, _, _, _, h, _⟩ | ⟨_, _, _, _, _, h, _⟩ <;> rw [h]

theorem levels_update (cells : List Cell) (next : Nat) (s : Session) :
    (s.update cells next).1.levels = s.levels := by
  rcases update_cases cells next s with
    ⟨_, h, _⟩ | ⟨_, _, _, _, _, _, h, _⟩ | ⟨_, _, _, _, _, h, _⟩ <;> rw [h]

/-- What events tell of a tree that becomes another one: all that is to be known of each path, and of
the root itself nothing but changes. Who copies a buffer after a change copies it from the tree. -/
structure Reports (d : Document) (events : List Event) (d' : Document) : Prop where
  idPath_eq : d'.idPath = d.idPath
  heard : ∀ p s, (∀ v, Told p v s d) → ∃ s' v, hearAll p v s events = some s' ∧
    (∀ v, Told p v s' d') ∧
    ∀ e ∈ events, e.kind = .changed → e.idPath = p → ∃ x ∈ d'.walk, x.idPath = p ∧ x.value = v
  root : ∀ e ∈ events, e.idPath = d.idPath → e.kind = .changed

/-- The root of a tree between two rebuilds. -/
structure Rests (context : Context) (next : Nat) (d : Document) : Prop where
  reach : Reachable context next d
  orderly : d.Throughout Orderly
  live : d.isDisposed = false
  isRoot : d.id.isRoot = true
  outbox : d.outbox = []

section

variable {context : Context} {levels next n : Nat} {cells : List Cell} {d e : Document}
  {notices : List Notice} {result : Except DocumentError Unit}

/-- Emptying a tree and appending cells keeps it told of. -/
theorem Rests.appended (hplain : context.PlainNames) (h : Rests context next d)
    (happend : appendCells context levels 0 cells next d.clear = (notices, ⟨e, n, result⟩)) :
    Reachable context n e ∧ e.Throughout Orderly ∧ e.nature = d.nature ∧
      ∀ p v s, Told p v s d → Told p v s e := by
  have hapart := hplain.siblingsApart
  have hd := steady_of_reachable hapart h.reach
  have hkept := appendCells_keeps context levels
    (I := fun n e => Reachable context n e ∧ e.Throughout Orderly ∧ e.nature = d.nature ∧
      ∀ p v s, Told p v s d → Told p v s e) (fun cell (_ : cell ∈ cells) n e he => ?_) 0
    ⟨h.reach.clear, orderly_clear hd h.orderly, nature_clear d,
      fun p v s hs => hs.clear hplain hd h.orderly⟩
  · rw [happend] at hkept
    exact hkept
  · obtain ⟨hreach, horderly, hnature, htold⟩ := he
    have hsteady := steady_of_reachable hapart hreach
    exact ⟨hreach.append _ _ _ _ _, orderly_appendText hapart _ _ _ _ _ hsteady horderly,
      ((appendText_frame context _ _ _ _ _ _ e).1).trans hnature,
      fun p v s hs => (htold p v s hs).appendText hplain _ _ _ _ _ hsteady horderly⟩

/-- A rebuild that fails tells all that it did, and nothing of changes. -/
theorem Rests.report_error (hplain : context.PlainNames) (h : Rests context next d)
    {cause : DocumentError}
    (happend : appendCells context levels 0 cells next d.clear = (notices, ⟨e, n, .error cause⟩)) :
    Rests context n e.drained ∧ Reports d e.outbox e.drained ∧ ∀ ev ∈ e.outbox, ev.kind ≠ .changed := by
  obtain ⟨hreach, horderly, hnature, htold⟩ := h.appended hplain happend
  obtain ⟨hid, _, hdisposed⟩ := nature_eq_iff.mp ((nature_drained e).trans hnature)
  have hcalm : ∀ ev ∈ e.outbox, ev.kind ≠ .changed := fun ev hev => (horderly.self.below ev hev).2
  refine ⟨⟨hreach.drained, orderly_drained horderly, hdisposed.trans h.live, hid ▸ h.isRoot,
    outbox_drained e⟩, ⟨congrArg Identity.idPath hid, ?_, ?_⟩, hcalm⟩
  · intro p s hs
    obtain ⟨s', hheard, hs'⟩ := (htold p [] s (hs [])).drained
    exact ⟨s', [], hheard, fun v => hs'.recopy (orderly_drained horderly) v,
      fun ev hev hchanged => absurd hchanged (hcalm ev hev)⟩
  · intro ev hev heq
    have hbelow := (horderly.self.below ev hev).1
    rw [heq, idPath, id_eq_of_nature_eq hnature] at hbelow
    exact absurd hbelow (not_below_self _)

/-- Whoever is changed is met in a walk, and has noted its buffer. -/
theorem exists_mem_walk_of_changed (horderly : d.Throughout Orderly) {ev : Event}
    (hev : ev ∈ d.emitChanged.outbox) (hchanged : ev.kind = .changed) :
    ∃ x ∈ d.walk, x.idPath = ev.idPath := by
  rcases mem_outbox_emitChanged hev with ⟨x, hx, hev⟩ | ⟨x, hx, rfl⟩
  · exact absurd hchanged ((horderly x hx).below ev hev).2
  · exact ⟨x, hx, rfl⟩

theorem exists_mem_walk_emitChanged_drained {x : Document} (hx : x ∈ d.walk) :
    ∃ y ∈ d.emitChanged.drained.walk, y.core = x.core := by
  have hmem : x.core ∈ d.emitChanged.walk.map core := by
    rw [walk_emitChanged]
    exact List.mem_map_of_mem hx
  obtain ⟨y, hy, hcore⟩ := List.mem_map.mp hmem
  revert hy
  generalize d.emitChanged = e
  intro hy
  obtain ⟨info, children, parked⟩ := e
  rw [walk, List.mem_cons] at hy
  rw [drained, modify_node, walk]
  rcases hy with rfl | hy
  · exact ⟨_, List.mem_cons_self, hcore⟩
  · exact ⟨y, List.mem_cons_of_mem _ hy, hcore⟩

theorem quiet_appendCells {index : Nat}
    (happend : appendCells context levels index cells next d = (notices, ⟨e, n, .ok ()⟩))
    (h : d.drained.Quiet) : e.drained.Quiet := by
  induction cells generalizing index next d notices with
  | nil =>
    cases happend
    exact h
  | cons cell rest ih =>
    obtain ⟨d₁, n₁, later, hone, hrest⟩ := appendCells_cons_ok happend
    exact ih hrest (quiet_appendText hone h)

/-- A tree has one document at a path, and a walk finds it. -/
theorem find?_walk (hplain : context.PlainNames) (hd : d.Steady context next) {x : Document}
    (hx : x ∈ d.walk) : d.walk.find? (·.idPath = x.idPath) = some x := by
  cases hfind : d.walk.find? (·.idPath = x.idPath) with
  | none => exact absurd (List.find?_eq_none.mp hfind x hx) (by simp)
  | some y =>
    have hpath : y.idPath = x.idPath := by simpa using List.find?_some hfind
    have hy := List.mem_of_find?_eq_some hfind
    rw [hd.eq_of_idPath_eq hplain (owns_of_mem_walk hy) (owns_of_mem_walk hx) hpath]

/-- A tree of which no path is there twice has one buffer at a path. -/
theorem exists_value (hplain : context.PlainNames) (hd : d.Steady context next) (p : String) :
    ∃ v, ∀ x ∈ d.walk, x.idPath = p → x.value = v := by
  by_cases hfound : ∃ x ∈ d.walk, x.idPath = p
  · obtain ⟨x, hx, hp⟩ := hfound
    refine ⟨x.value, fun y hy hy' => ?_⟩
    rw [hd.eq_of_idPath_eq hplain (owns_of_mem_walk hy) (owns_of_mem_walk hx) (hy'.trans hp.symm)]
  · exact ⟨[], fun x hx hp => absurd ⟨x, hx, hp⟩ hfound⟩

/-- A rebuild that succeeds tells all that it did, and leaves nothing waiting. -/
theorem Rests.report_ok (hplain : context.PlainNames) (h : Rests context next d)
    (happend : appendCells context levels 0 cells next d.clear = (notices, ⟨e, n, .ok ()⟩)) :
    Rests context n e.closeExpired.emitChanged.drained ∧
      Reports d e.closeExpired.emitChanged.outbox e.closeExpired.emitChanged.drained ∧
      e.closeExpired.emitChanged.drained.Quiet ∧
      ∀ x ∈ e.closeExpired.emitChanged.drained.walk, x.info.lastValue = some x.value := by
  obtain ⟨hreach, horderly, hnature, htold⟩ := h.appended hplain happend
  have hsteady := steady_of_reachable hplain.siblingsApart hreach
  have hswept := hsteady.closeExpired
  have hcalm := orderly_closeExpired hsteady horderly
  have hsame : e.closeExpired.nature = d.nature := (nature_closeExpired e).trans hnature
  obtain ⟨hid, _, hdisposed⟩ := nature_eq_iff.mp
    ((nature_drained _).trans ((nature_emitChanged _).trans hsame))
  refine ⟨⟨hreach.closeExpired.emitChanged.drained, orderly_emitChanged hcalm,
    hdisposed.trans h.live, hid ▸ h.isRoot, outbox_drained _⟩,
    ⟨congrArg Identity.idPath hid, ?_, ?_⟩, ?_, ?_⟩
  · intro p s hs
    obtain ⟨v, hv⟩ := exists_value hplain hswept p
    have hchanged := ((htold p v s (hs v)).closeExpired hplain hsteady horderly).emitChanged hplain
      hswept hcalm hv
    obtain ⟨s', hheard, hs'⟩ := hchanged.drained
    refine ⟨s', v, hheard, fun v => hs'.recopy (orderly_emitChanged hcalm) v, ?_⟩
    intro ev hev hkind hp
    obtain ⟨x, hx, hpath⟩ := exists_mem_walk_of_changed hcalm hev hkind
    obtain ⟨y, hy, hcore⟩ := exists_mem_walk_emitChanged_drained hx
    refine ⟨y, hy, ?_, (value_eq_of_core_eq hcore).trans (hv x hx (hpath.trans hp))⟩
    exact (congrArg Identity.idPath (id_eq_of_core_eq hcore)).trans (hpath.trans hp)
  · intro ev hev heq
    rcases mem_outbox_emitChanged hev with ⟨x, hx, hev⟩ | ⟨x, _, rfl⟩
    · -- what waits below the root tells of documents below the root
      have hbelow := ((hcalm x hx).below ev hev).1
      rw [heq, ← show e.closeExpired.idPath = d.idPath from
        congrArg Identity.idPath (id_eq_of_nature_eq hsame)] at hbelow
      rcases hswept.within_of_owns hx with hself | hunder
      · exact absurd (hself ▸ hbelow) (not_below_self _)
      · exact absurd (hunder.trans hbelow) (not_below_self _)
    · rfl
  · exact Quiet.emitChanged (Quiet.closeExpired (quiet_appendCells happend (quiet_clear h.orderly)))
  · refine forall_mem_walk_modify ?_ (lastValue_of_mem_walk_emitChanged e.closeExpired)
    intro hnoted
    cases hchanged : e.closeExpired.emitChanged
    rw [hchanged] at hnoted
    exact hnoted

/-- What is told when a session is rebuilt. -/
theorem Rests.report_update {s : Session} (hplain : s.context.PlainNames)
    (h : Rests s.context next s.root) (cells : List Cell) :
    Rests s.context (s.update cells next).2.1 (s.update cells next).1.root ∧
      Reports s.root (s.told cells next) (s.update cells next).1.root ∧
      ((s.update cells next).2.2 = .ok () → (s.update cells next).1.root.Quiet ∧
        ∀ x ∈ (s.update cells next).1.root.walk, x.info.lastValue = some x.value) ∧
      ((s.update cells next).2.2 ≠ .ok () → ∀ e ∈ s.told cells next, e.kind ≠ .changed) := by
  rcases update_cases cells next s with
    ⟨e, hupdate, htold⟩ | ⟨notices, d, n, e, feed, happend, hupdate, htold⟩ |
    ⟨notices, d, n, feed, happend, hupdate, htold⟩
  · rw [hupdate, htold]
    refine ⟨h, ⟨rfl, fun p t ht => ⟨t, [], rfl, ht, by simp⟩, by simp⟩, ?_, by simp⟩
    exact fun hok => by cases hok
  · obtain ⟨hrests, hreports, hcalm⟩ := h.report_error hplain happend
    rw [hupdate, htold]
    exact ⟨hrests, hreports, fun hok => (by cases hok), fun _ => hcalm⟩
  · obtain ⟨hrests, hreports, hquiet⟩ := h.report_ok hplain happend
    rw [hupdate, htold]
    exact ⟨hrests, hreports, fun _ => hquiet, fun hfail => absurd rfl hfail⟩

end

end Polyglot
