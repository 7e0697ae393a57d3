import Polyglot.Proofs.Announcements
import Polyglot.Proofs.Rebuilds
import Polyglot.Proofs.Renewals

/-!
The same rebuild twice. The second one empties the whole tree and fills it again, and yet each piece
of code comes back to the document that had it: nothing is opened, nothing has changed, and what is
closed held nothing before. What a client sees of the documents with blocks is the same.
-/
namespace Polyglot.Document

/-! Cells. -/

section

variable {context : Context} {cells : List Cell} {levels index next n m : Nat}
  {notices : List Notice} {d e whole d' : Document}

/-- What holds of taking a text holds of taking cells, where no cell fails. -/
theorem appendCells_ok_relates {R : Nat → Document → Nat → Document → Prop}
    (hrefl : ∀ n d, R n d n d)
    (htrans : ∀ {n₀ d₀ n₁ d₁ n₂ d₂}, R n₀ d₀ n₁ d₁ → R n₁ d₁ n₂ d₂ → R n₀ d₀ n₂ d₂)
    (hstep : ∀ {cell : Cell} {next n : Nat} {d e : Document},
      appendText context cell.editor levels Pos.origin none cell.text next d =
        ⟨e, n, .ok ()⟩ → R next d n e)
    (hok : appendCells context levels index cells next d = (notices, ⟨e, n, .ok ()⟩)) :
    R next d n e := by
  induction cells generalizing index next d notices with
  | nil =>
    cases hok
    exact hrefl _ _
  | cons cell rest ih =>
    obtain ⟨d₁, n₁, later, happend, hrest⟩ := appendCells_cons_ok hok
    exact htrans (hstep happend) (ih hrest)

theorem unrolls_appendCells (hapart : context.SiblingsApart)
    (hok : appendCells context levels index cells next d = (notices, ⟨e, n, .ok ()⟩)) :
    Unrolls context next d n e :=
  appendCells_ok_relates (R := Unrolls context) Unrolls.refl Unrolls.trans
    (fun hok => unrolls_appendText hapart hok) hok

theorem spares_appendCells (hapart : context.SiblingsApart)
    (hok : appendCells context levels index cells next d = (notices, ⟨e, n, .ok ()⟩)) :
    Spares context next d n e :=
  appendCells_ok_relates (R := Spares context) Spares.refl Spares.trans
    (fun hok => spares_appendText hapart hok) hok

/-- Cells that were taken are taken again, and no number is used up. -/
theorem Rehearses.appendCells (hapart : context.SiblingsApart) (h : Rehearses d whole d')
    (hd : d.Kept context next) (hd' : d'.Kept context m) (hunfolds : Unfolds e whole)
    (hok : Polyglot.appendCells context levels index cells next d = (notices, ⟨e, n, .ok ()⟩)) :
    ∃ notices' e',
      Polyglot.appendCells context levels index cells m d' = (notices', ⟨e', m, .ok ()⟩) ∧
      Rehearses e whole e' := by
  induction cells generalizing index next d notices d' with
  | nil =>
    cases hok
    exact ⟨[], d', rfl, h⟩
  | cons cell rest ih =>
    obtain ⟨d₁, n₁, later, happend, hrest⟩ := appendCells_cons_ok hok
    have hd₁ := (unrolls_appendText hapart happend hd).1
    -- what the first cell leaves becomes the whole when the rest is taken
    have hlater := (unrolls_appendCells hapart hrest hd₁).2.trans hunfolds
    obtain ⟨d₁', happend', h₁⟩ := h.appendText hapart hd hd' hlater happend
    have hd₁' := (unrolls_appendText hapart happend' hd').1
    obtain ⟨notices', e', hrest', hagain⟩ := ih h₁ hd₁ hd₁' hrest
    refine ⟨Notice.blockAdded index cell.editor :: notices', e', ?_, hagain⟩
    rw [Polyglot.appendCells, append, happend']
    simp only [hrest']

end

/-! One tree, rebuilt twice. -/

section

variable {context : Context} {cells : List Cell} {levels next n m : Nat} {notices : List Notice}
  {d e : Document}

theorem reachable_of_appendCells (hreach : Reachable context next d)
    (hok : appendCells context levels 0 cells next d.clear = (notices, ⟨e, n, .ok ()⟩)) :
    Reachable context n e := by
  have hcells := reachable_appendCells levels cells hreach.clear 0
  rwa [hok] at hcells

theorem kept_of_appendCells (hapart : context.SiblingsApart) (hreach : Reachable context next d)
    (hok : appendCells context levels 0 cells next d.clear = (notices, ⟨e, n, .ok ()⟩)) :
    e.Kept context n ∧ e.nature = d.nature := by
  have hd := kept_clear (steady_of_reachable hapart hreach) (pool_of_reachable hapart hreach)
  obtain ⟨he, hunfolds⟩ := unrolls_appendCells hapart hok hd
  exact ⟨he, hunfolds.nature_eq.trans (nature_clear d)⟩

/-- What a filled tree holds, it holds at the end of the rebuild. -/
theorem holdings_of_appendCells (hapart : context.SiblingsApart) (hreach : Reachable context next d)
    (hok : appendCells context levels 0 cells next d.clear = (notices, ⟨e, n, .ok ()⟩)) :
    e.closeExpired.emitChanged.drained.holdings = e.holdings := by
  have hidles := idles_of_reachable hapart (reachable_of_appendCells hreach hok)
  rw [drained, holdings_modify (core_drained _), holdings_emitChanged,
    holdings_closeExpired (kept_of_appendCells hapart hreach hok).1 hidles]

/-- A tree after a rebuild, emptied, takes the cells of that rebuild once more. -/
theorem exists_appendCells_again (hapart : context.SiblingsApart)
    (hreach : Reachable context next d)
    (hok : appendCells context levels 0 cells next d.clear = (notices, ⟨e, n, .ok ()⟩))
    (hle : n ≤ m) :
    ∃ notices' e', appendCells context levels 0 cells m e.closeExpired.emitChanged.drained.clear =
        (notices', ⟨e', m, .ok ()⟩) ∧ e'.Noted ∧ e'.holdings = e.holdings := by
  have hd := kept_clear (steady_of_reachable hapart hreach) (pool_of_reachable hapart hreach)
  obtain ⟨he, hnature⟩ := kept_of_appendCells hapart hreach hok
  have hreache := reachable_of_appendCells hreach hok
  have hreach' : Reachable context m e.closeExpired.emitChanged.drained :=
    hreache.closeExpired.emitChanged.drained.wait hle
  have hd' := kept_clear (steady_of_reachable hapart hreach') (pool_of_reachable hapart hreach')
  have hrenewed := rehearses_renewed he (idles_of_reachable hapart hreache)
    (steady_of_reachable hapart hreach).blank_clear ((nature_clear d).trans hnature.symm)
  have hsame : e.closeExpired.emitChanged.drained.clear.drained = e.renewed := clear_drained _
  rw [← hsame] at hrenewed
  have hstart : Rehearses d.clear e e.closeExpired.emitChanged.drained.clear :=
    hrenewed.follow_right (core_drained _).symm (lastValue_drained _).symm
      (children_drained _).symm (parked_drained _).symm
  obtain ⟨notices', e', hok', hagain⟩ := hstart.appendCells hapart hd hd' (Unfolds.refl e) hok
  have hsteady' := (kept_of_appendCells hapart hreach' hok').1.steady
  exact ⟨notices', e', hok', hagain.restored rfl he.settled hsteady'⟩

/-- What a tree owns after it was emptied, it owned before. -/
theorem exists_owns_of_clear {x : Document} (hx : d.clear.Owns x) : ∃ y, d.Owns y ∧ y.id = x.id := by
  induction d using tree_induction generalizing x with
  | step info children parked ihc _ =>
    rcases owns_iff.mp hx with rfl | ⟨c, hc, hx⟩
    · exact ⟨_, Owns.self _, (id_eq_of_nature_eq (nature_clear _)).symm⟩
    · rcases mem_offspring_clear.mp hc with ⟨z, hz, rfl⟩ | hc
      · obtain ⟨w, hw, hid⟩ := exists_owns_of_modify rfl hx
        obtain ⟨y, hy, hid'⟩ := ihc z hz hw
        exact ⟨y, Owns.child hz hy, hid'.trans hid⟩
      · exact ⟨x, Owns.parked hc hx, rfl⟩

theorem outbox_clear_of_quiet (h : d.Quiet) : d.clear.outbox = [] := by
  induction d using tree_induction with
  | step info children parked ihc _ =>
    obtain ⟨hself, hchildren, _⟩ := (throughout_node _ _ _ _).mp h
    have hout : info.outbox = [] := hself
    rw [outbox_clear, hout, List.nil_append, outboxes, List.flatMap_map, List.flatMap_eq_nil_iff]
    exact fun c hc => ihc c hc (hchildren c hc)

theorem quiet_clear_of_reachable (hapart : context.SiblingsApart) (h : Reachable context next d) :
    d.clear.drained.Quiet := fun x hx => (fallow_clear (pool_of_reachable hapart h) x hx).silent

/-- Where no number was used up, nothing is told, and all that a tree owns it owned before it was
emptied. -/
theorem reuses_of_appendCells (hapart : context.SiblingsApart) (hreach : Reachable context m d)
    (hquiet : d.Quiet)
    (hok : appendCells context levels 0 cells m d.clear = (notices, ⟨e, m, .ok ()⟩)) :
    Reuses d e := by
  have hsteady := (steady_of_reachable hapart hreach).clear
  have hreuses := (spares_appendCells hapart hok
    ⟨hsteady, quiet_clear_of_reachable hapart hreach⟩).2.2 rfl
  refine ⟨?_, ?_⟩
  · rw [hreuses.outbox_eq, outbox_clear_of_quiet hquiet, hquiet.self]
  · intro x hx
    obtain ⟨y, hy, hid⟩ := hreuses.owns x hx
    obtain ⟨z, hz, hid'⟩ := exists_owns_of_clear hy
    exact ⟨z, hz, hid'.trans hid⟩

/-- Of two trees that hold the same, a document that holds nothing in one holds nothing in the
other. -/
theorem blank_of_holdings_eq {x y : Document} (hd : d.Throughout Emptied)
    (hnumbers : e.numbers.Nodup) (hsame : e.holdings = d.holdings) (hx : e.Owns x)
    (hblank : x.info.blocks = []) (hy : d.Owns y) (hid : y.id = x.id) : y.info.blocks = [] := by
  by_contra hheld
  have hmem : y.core ∈ e.holdings := by
    rw [hsame]
    exact mem_holdings.mpr ⟨y, mem_walk_of_held hd hy hheld, rfl, hheld⟩
  obtain ⟨z, hz, hcore, hheldz⟩ := mem_holdings.mp hmem
  have hnumber : z.id.number = x.id.number :=
    congrArg Identity.number ((id_eq_of_core_eq hcore).trans hid)
  rw [eq_of_number_eq hnumbers (owns_of_mem_walk hz) hx hnumber] at hheldz
  exact hheldz hblank

/-- A tree that was filled with what it held before tells only of the end of documents that held
nothing. -/
theorem closed_of_mem_outbox_again (hapart : context.SiblingsApart) (hreach : Reachable context m d)
    (hquiet : d.Quiet)
    (hok : appendCells context levels 0 cells m d.clear = (notices, ⟨e, m, .ok ()⟩))
    (hnoted : e.Noted) (hsame : e.holdings = d.holdings) {event : Event}
    (hevent : event ∈ e.closeExpired.emitChanged.outbox) :
    ∃ x, d.Owns x ∧ x.info.blocks = [] ∧ event = x.id.event .closed := by
  have hreache := reachable_of_appendCells hreach hok
  have hsilent : e.drained.Quiet := quiet_appendCells hok (quiet_clear_of_reachable hapart hreach)
  have hreuses := reuses_of_appendCells hapart hreach hquiet hok
  rw [outbox_emitChanged_of_noted (noted_closeExpired hnoted) hsilent.closeExpired] at hevent
  rcases closed_of_mem_outbox_closeExpired (kept_of_appendCells hapart hreach hok).1
    (idles_of_reachable hapart hreache) hsilent hevent with hevent | ⟨x, hx, hblank, rfl⟩
  · rw [hreuses.outbox_eq, hquiet.self] at hevent
    cases hevent
  · obtain ⟨y, hy, hid⟩ := hreuses.owns x hx
    refine ⟨y, hy, ?_, by rw [hid]⟩
    have hemptied : d.Throughout Emptied :=
      (steady_of_reachable hapart hreach).imp fun _ hsound => hsound.blank
    exact blank_of_holdings_eq hemptied (numbered_of_reachable hapart hreache).nodup hsame hx hblank
      hy hid

/-- What a rebuild leaves of a tree was there before. -/
theorem Reuses.rebuilt (h : Reuses d e) {x : Document}
    (hx : e.closeExpired.emitChanged.drained.Owns x) : ∃ y, d.Owns y ∧ y.id = x.id := by
  have hall : e.Everywhere fun id _ => ∃ y, d.Owns y ∧ y.id = id := h.owns
  have hlasting : Lasting fun c => ∃ y, d.Owns y ∧ y.id = c.id :=
    everywhere_lasting (Q := fun id _ => ∃ y, d.Owns y ∧ y.id = id)
  exact hlasting.modify (hlasting.emitChanged (hlasting.closeExpired hall)) (core_drained _) x hx

end

/-! Sessions. -/

section

variable {cells : List Cell} {next n m : Nat} {notices : List Notice} {s t : Session} {d : Document}

theorem acquire_of_update (h : s.update cells next = (t, n, .ok ())) : s.acquire = .ok () := by
  unfold Session.update at h
  cases hacquire : s.acquire with
  | error e =>
    rw [hacquire] at h
    cases h
  | ok u => rfl

/-- Cells that can be appended rebuild a tree that is at rest. -/
theorem update_of_appendCells (hacquire : s.acquire = .ok ())
    (hok : appendCells s.context s.levels 0 cells next s.root.clear = (notices, ⟨d, n, .ok ()⟩)) :
    ∃ feed, s.update cells next =
        ({ s with root := d.closeExpired.emitChanged.drained, feed := feed }, n, .ok ()) ∧
      s.told cells next = d.closeExpired.emitChanged.outbox := by
  unfold Session.update Session.told rebuild
  rw [hacquire, hok]
  exact ⟨_, rfl, rfl⟩

theorem acquire_update (cells : List Cell) (next : Nat) (s : Session) :
    (s.update cells next).1.acquire = s.acquire := by
  rcases update_cases cells next s with
    ⟨_, h, _⟩ | ⟨_, _, _, _, _, _, h, _⟩ | ⟨_, _, _, _, _, h, _⟩ <;> rw [h] <;> rfl

/-- What depends on the core alone is the same where the cores are. -/
theorem map_eq_of_map_core_eq {α : Type} {f : Document → α}
    (hf : ∀ {x y : Document}, x.core = y.core → f x = f y) {ds es : List Document}
    (h : ds.map core = es.map core) : ds.map f = es.map f := by
  induction ds generalizing es with
  | nil =>
    rw [List.map_nil, eq_comm, List.map_eq_nil_iff] at h
    rw [h]
  | cons x ds ih =>
    cases es with
    | nil => cases h
    | cons y es =>
      obtain ⟨hcore, hrest⟩ := List.cons.inj h
      rw [List.map_cons, List.map_cons, hf hcore, ih hrest]

theorem filter_walk_map_core (d : Document) :
    (d.walk.filter fun x => x.info.blocks ≠ []).map core = d.holdings := by
  rw [holdings, List.filter_map]
  rfl

/-- The same rebuild once more succeeds and opens no document. All that it tells is that documents
are closed which held nothing, and the documents with blocks show what they showed. -/
theorem repeated_update_is_silent (hapart : s.context.SiblingsApart)
    (hreach : Reachable s.context next s.root) (hok : s.update cells next = (t, n, .ok ()))
    (hle : n ≤ m) :
    ∃ u, t.update cells m = (u, m, .ok ()) ∧
      (∀ x, u.root.Owns x → ∃ y, t.root.Owns y ∧ y.id = x.id) ∧
      (∀ event ∈ t.told cells m, ∃ y, t.root.Owns y ∧ y.info.blocks = [] ∧
        event = y.id.event .closed) ∧
      (u.root.walk.filter fun x => x.info.blocks ≠ []).map
          (fun x => (x.id, x.value, x.bufferLines, x.sourceLines)) =
        (t.root.walk.filter fun x => x.info.blocks ≠ []).map
          fun x => (x.id, x.value, x.bufferLines, x.sourceLines) := by
  obtain ⟨notices, e, happend, hroot⟩ := update_ok hok
  have hcontext := context_update cells next s
  have hlevels := levels_update cells next s
  have hacquire := acquire_update cells next s
  have hreacht := reachable_update hreach cells
  rw [hok] at hcontext hlevels hacquire hreacht
  have hreacht : Reachable s.context m t.root := hreacht.wait hle
  have hquiet : t.root.Quiet := by
    rw [hroot]
    exact (quiet_appendCells happend (quiet_clear_of_reachable hapart hreach)).closeExpired.emitChanged
  obtain ⟨notices', e', hagain, hnoted, hsame⟩ :=
    exists_appendCells_again hapart hreach happend hle
  rw [← holdings_of_appendCells hapart hreach happend, ← hroot] at hsame
  rw [← hroot] at hagain
  obtain ⟨feed, hupdate, htold⟩ := update_of_appendCells
    (hacquire.trans (acquire_of_update hok)) (hcontext ▸ hlevels ▸ hagain)
  refine ⟨_, hupdate, ?_, ?_, ?_⟩
  · exact fun x hx => (reuses_of_appendCells hapart hreacht hquiet hagain).rebuilt hx
  · rw [htold]
    exact fun event hevent =>
      closed_of_mem_outbox_again hapart hreacht hquiet hagain hnoted hsame hevent
  · refine map_eq_of_map_core_eq ?_ ?_
    · intro x y hcore
      obtain ⟨hid, hconfig, _⟩ := nature_eq_iff.mp (congrArg Prod.fst hcore)
      have hblocks : x.info.blocks = y.info.blocks := congrArg Prod.snd hcore
      rw [hid, value_eq_of_core_eq hcore, bufferLines, bufferLines, sourceLines, sourceLines, hconfig,
        hblocks]
    · rw [filter_walk_map_core, filter_walk_map_core,
        holdings_of_appendCells hapart hreacht hagain, hsame]

end

/-- The tree with documents inside documents, which expire soon. -/
def briefSession : Session :=
  { nestedSession with
    context := { nestedSession.context with config := { lifetime := 2 } }
    root := root { lifetime := 2 } "python" tailRoot.uri "py" 0 }

def shortCells : List Cell := [⟨"x\ny".toList, "cell"⟩]

/-- The letter of the innermost document is gone, and that document waits. -/
def waitingSession : Session := ((briefSession.update nestedCells 1).1.update shortCells 3).1

/-- The second time, the document that waits is closed, and the one around it is taken from the pool
again. -/
theorem repeated_update_is_silent_waiting :
    ∃ u, waitingSession.update shortCells 3 = (u, 3, .ok ()) ∧
      (waitingSession.told shortCells 3).map (fun event => (event.kind, event.idPath)) =
        [(.closed, "python-1(cel)-word")] ∧
      (∀ event ∈ waitingSession.told shortCells 3, ∃ y, waitingSession.root.Owns y ∧
        y.info.blocks = [] ∧ event = y.id.event .closed) ∧
      (u.root.walk.filter fun x => x.info.blocks ≠ []).map (fun x => (x.idPath, x.value)) =
        [("python", "x\n".toList), ("python-1(cel)", "y\n".toList)] := by
  have hnext : (briefSession.update nestedCells 1).2.1 = 3 := by decide +kernel
  have hreach : Reachable briefSession.context 3 (briefSession.update nestedCells 1).1.root := by
    have hupdated := reachable_update (s := briefSession) (Reachable.root "python" _ "py" 0)
      nestedCells
    rwa [hnext] at hupdated
  have hlater : ((briefSession.update nestedCells 1).1.update shortCells 3).2 = (3, .ok ()) := by
    decide +kernel
  obtain ⟨u, hupdate, _, hclosed, hfaces⟩ := repeated_update_is_silent
    (s := (briefSession.update nestedCells 1).1)
    (show briefSession.context.SiblingsApart from siblingsApart_nestedSession) hreach
    (Prod.ext rfl hlater) (Nat.le_refl 3)
  have htold : (waitingSession.told shortCells 3).map (fun event => (event.kind, event.idPath)) =
      [(.closed, "python-1(cel)-word")] := by decide +kernel
  have hshown : (waitingSession.root.walk.filter fun x => x.info.blocks ≠ []).map
      (fun x => (x.idPath, x.value)) =
        [("python", "x\n".toList), ("python-1(cel)", "y\n".toList)] := by decide +kernel
  refine ⟨u, hupdate, htold, hclosed, ?_⟩
  have hpaths := congrArg (List.map fun face => (face.1.idPath, face.2.1)) hfaces
  rw [List.map_map, List.map_map] at hpaths
  exact hpaths.trans hshown

end Polyglot.Document
