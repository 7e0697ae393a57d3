import Polyglot.Proofs.Standings

/-!
Trees that are emptied, torn down, swept or asked for changes stay told of. What expires tells that
it is gone, and after a tree is torn down nothing of it is known any more. Where nothing waits any
longer, what is known is what the tree holds.
-/
namespace Polyglot.Document

open Standing

section

variable {context : Context} {next : Nat} {p : String} {v : Text} {s : Standing} {d e : Document}

theorem idPath_clear (d : Document) : d.clear.idPath = d.idPath :=
  congrArg Identity.idPath (id_eq_of_nature_eq (nature_clear d))

theorem map_idPath_map {f : Document → Document} (hf : ∀ c, (f c).idPath = c.idPath)
    (ds : List Document) : (ds.map f).map idPath = ds.map idPath := by
  rw [List.map_map]
  exact List.map_congr_left fun c _ => hf c

theorem Told.clear (hplain : context.PlainNames) (hd : d.Steady context next)
    (horderly : d.Throughout Orderly) (h : Told p v s d) : Told p v s d.clear := by
  induction d using tree_induction generalizing s with
  | step info children parked ihc _ =>
    have hown : ∀ {x}, x ∈ children → x ∈ (node info children parked).offspring :=
      fun hx => List.mem_append_left _ hx
    have hsub := (throughout_iff.mp horderly).2
    have hapart : PathsApart ((children.map Document.clear).map idPath) := by
      rw [map_idPath_map idPath_clear]
      exact pathsApart_of_subperm (hd.self.apart hplain)
        (List.sublist_append_left children parked).subperm
    have hdiscreet : Discreet (children.map Document.clear) := by
      intro y hy e he
      obtain ⟨x, hx, rfl⟩ := List.mem_map.mp hy
      exact Or.inr ((orderly_clear (hd.of_mem_offspring (hown hx)) (hsub x (hown hx))).self.below e
        he).1
    refine h.pass hplain hd.self hd.clear.self rfl rfl outbox_clear hdiscreet ?_ ?_ ?_
    · intro y hy
      obtain ⟨x, hx, rfl⟩ := List.mem_map.mp hy
      exact ⟨x, hown hx, (idPath_clear x).symm⟩
    · intro c hc
      rcases mem_offspring_clear.mp hc with ⟨x, hx, rfl⟩ | hc
      · exact ⟨x, hown hx, ((idPath_drained _).trans (idPath_clear x)).symm⟩
      · exact ⟨c, List.mem_append_right _ hc, rfl⟩
    · intro c hc hwithin
      rcases List.mem_append.mp hc with hc | hc
      · exact fate_of_speaker hdiscreet hapart (List.mem_map_of_mem hc) (idPath_clear c) hwithin
          (fun t ht => ihc c hc (hd.of_mem_offspring (hown hc)) (hsub c (hown hc)) ht)
          (mem_offspring_clear.mpr (Or.inl ⟨c, hc, rfl⟩))
      · refine fate_of_silent hdiscreet ?_ (mem_offspring_clear.mpr (Or.inr hc)) rfl fun _ ht => ht
        intro y hy hwithin'
        obtain ⟨x, hx, rfl⟩ := List.mem_map.mp hy
        rw [idPath_clear] at hwithin'
        exact hd.self.not_within_both hplain hx hc hwithin' hwithin

theorem idPath_dispose (d : Document) : d.dispose.idPath = d.idPath := by
  obtain ⟨info, children, parked⟩ := d
  rw [dispose]
  split <;> rfl

theorem discreet_dispose (hd : d.Steady context next) (horderly : d.Throughout Orderly)
    {ds : List Document} (hds : ∀ x ∈ ds, x ∈ d.offspring) : Discreet (ds.map dispose) := by
  intro y hy e he
  obtain ⟨x, hx, rfl⟩ := List.mem_map.mp hy
  rw [idPath_dispose]
  exact (within_of_mem_outbox_dispose (hd.of_mem_offspring (hds x hx))
    ((throughout_iff.mp horderly).2 x (hds x hx)) he).1

/-- After a document is torn down, no document that it owned is known any more. -/
theorem Told.dispose (hplain : context.PlainNames) (hd : d.Steady context next)
    (horderly : d.Throughout Orderly) (hlive : d.isDisposed = false) (h : Told p v s d)
    (hp : Below d.idPath p ∨ p = d.idPath ∧ d.id.isRoot = false) :
    hearAll p v s d.dispose.outbox = some unknown := by
  induction d using offspring_induction generalizing s with
  | step d ih =>
    obtain ⟨info, children, parked⟩ := d
    obtain ⟨hown, hsub⟩ := throughout_iff.mp horderly
    have hapart : PathsApart (((children ++ parked).map Document.dispose).map idPath) := by
      rw [map_idPath_map idPath_dispose]
      exact hd.self.apart hplain
    have hdiscreet := discreet_dispose hd horderly fun x (hx : x ∈ children ++ parked) => hx
    obtain ⟨s', hheard, htells⟩ := told_iff.mp h
    rw [outbox_dispose (show info.disposed = false from hlive), List.append_assoc, hearAll_append]
    rw [outbox, info_node] at hheard
    rw [hheard, Option.bind_some, hearAll_append]
    rcases hp with hbelow | ⟨rfl, hroot⟩
    · have hne : info.id.idPath ≠ p := fun heq => not_below_self p (heq ▸ hbelow)
      have hinner : hearAll p v s' (outboxes ((children ++ parked).map Document.dispose)) =
          some unknown := by
        by_cases hkin : ∃ c ∈ children ++ parked, Within c.idPath p
        · obtain ⟨c, hc, hwithin⟩ := hkin
          rw [hearAll_outboxes hapart hdiscreet (List.mem_map_of_mem hc) ((idPath_dispose c).symm ▸
            hwithin)]
          refine ih c hc (hd.of_mem_offspring hc) (hsub c hc) (hd.self.live c hc)
            (htells.kin c hc hwithin) ?_
          rcases hwithin with heq | hbelow
          · exact Or.inr ⟨heq, hown.kin c hc⟩
          · exact Or.inl hbelow
        · rw [htells.absent hne fun c hc hwithin => hkin ⟨c, hc, hwithin⟩]
          refine hearAll_outboxes_silent hdiscreet ?_ unknown
          intro y hy hwithin
          obtain ⟨c, hc, rfl⟩ := List.mem_map.mp hy
          rw [idPath_dispose] at hwithin
          exact hkin ⟨c, hc, hwithin⟩
      rw [hinner, Option.bind_some]
      refine hearAll_silent unknown ?_
      intro e he
      split at he
      · simp at he
      · rw [List.mem_singleton.mp he]
        exact hne
    · rw [htells.self rfl, hearAll_outboxes_silent hdiscreet, Option.bind_some,
        show info.id.isRoot = false from hroot, if_neg Bool.false_ne_true]
      · exact if_pos rfl
      · intro y hy hwithin
        obtain ⟨c, hc, rfl⟩ := List.mem_map.mp hy
        rw [idPath_dispose] at hwithin
        exact not_below_self _ ((hd.below_of_mem hc).within hwithin)

theorem idPath_swept (idle : List String) (c : Document) : (swept idle c).idPath = c.idPath :=
  congrArg Identity.idPath (id_eq_of_core_eq (core_swept idle c))

theorem idPath_aged (c : Document) : c.aged.idPath = c.idPath :=
  congrArg Identity.idPath (id_eq_of_nature_eq (nature_withLifetime c _))

/-- A sweep disposes of some documents that are owned, and goes through others. -/
theorem subperm_swept (info : Info) (children parked : List Document) :
    (expired info children parked ++ children.filter (isStaying info.idle)).Subperm
      (children ++ parked) := by
  have hparts : (children.filter (fun c => info.idle.contains c.key && c.isExpiring) ++
      children.filter (isStaying info.idle)).Perm children := List.filter_append_perm _ children
  have hswap : (expired info children parked ++ children.filter (isStaying info.idle)).Perm
      (children.filter (fun c => info.idle.contains c.key && c.isExpiring) ++
        children.filter (isStaying info.idle) ++ parked.filter isExpiring) := by
    rw [expired, List.append_assoc, List.append_assoc]
    exact List.perm_append_comm.append_left _
  exact (hswap.trans (hparts.append_right _)).subperm.trans
    (List.filter_sublist.append_left children).subperm

section

variable {info : Info} {children parked : List Document}

theorem Sound.pathsApart_sweptAll (hplain : context.PlainNames)
    (h : (node info children parked).Sound context next) :
    PathsApart ((sweptAll info children parked).map idPath) := by
  rw [sweptAll, List.map_append, map_idPath_map idPath_dispose,
    map_idPath_map (idPath_swept info.idle), ← List.map_append]
  exact pathsApart_of_subperm (h.apart hplain) (subperm_swept info children parked)

theorem Steady.discreet_sweptAll (hd : (node info children parked).Steady context next)
    (horderly : (node info children parked).Throughout Orderly) :
    Discreet (sweptAll info children parked) := by
  intro y hy e he
  rcases List.mem_append.mp hy with hy | hy
  · exact discreet_dispose hd horderly (fun x => mem_offspring_of_mem_expired) y hy e he
  · obtain ⟨x, hx, rfl⟩ := List.mem_map.mp hy
    have hown : x ∈ (node info children parked).offspring :=
      List.mem_append_left _ (List.mem_filter.mp hx).1
    have horderly := orderly_closeExpired (hd.of_mem_offspring hown)
      ((throughout_iff.mp horderly).2 x hown)
    exact Or.inr ((orderly_swept horderly).self.below e he).1

/-- Where a document expires, none stays. -/
theorem Sound.not_within_expired (hplain : context.PlainNames)
    (h : (node info children parked).Sound context next) {c x : Document}
    (hc : c ∈ expired info children parked)
    (hx : x ∈ children.filter (isStaying info.idle) ∨ x ∈ parked.filter (!isExpiring ·))
    (hp : Within c.idPath p) : ¬ Within x.idPath p := by
  intro hp'
  rw [expired, List.mem_append, List.mem_filter, List.mem_filter] at hc
  rw [List.mem_filter, List.mem_filter] at hx
  rcases hc with ⟨hc, hidle⟩ | ⟨hc, hidle⟩
  · rcases hx with ⟨hx, hstays⟩ | ⟨hx, _⟩
    · obtain rfl := h.eq_of_within hplain (List.mem_append_left _ hc) (List.mem_append_left _ hx) hp hp'
      rw [isStaying, hidle] at hstays
      exact Bool.false_ne_true hstays
    · exact h.not_within_both hplain hc hx hp hp'
  · rcases hx with ⟨hx, _⟩ | ⟨hx, hstays⟩
    · exact h.not_within_both hplain hx hc hp' hp
    · obtain rfl := h.eq_of_within hplain (List.mem_append_right _ hc) (List.mem_append_right _ hx) hp
        hp'
      rw [hidle] at hstays
      exact Bool.false_ne_true hstays

theorem exists_of_mem_offspring_closeExpired {c' : Document}
    (hc' : c' ∈ (node info children parked).closeExpired.offspring) :
    ∃ c, c.idPath = c'.idPath ∧ (c ∈ children.filter (isStaying info.idle) ∨
      c ∈ parked.filter (!isExpiring ·)) := by
  rw [offspring_closeExpired] at hc'
  rcases List.mem_append.mp hc' with hc' | hc'
  · obtain ⟨x, hx, rfl⟩ := List.mem_map.mp hc'
    exact ⟨x, ((idPath_drained _).trans (idPath_swept info.idle x)).symm, Or.inl hx⟩
  · obtain ⟨x, hx, rfl⟩ := List.mem_map.mp hc'
    exact ⟨x, (idPath_aged x).symm, Or.inr hx⟩

/-- What expires tells that it is gone. -/
theorem fate_of_expired (hplain : context.PlainNames)
    (hd : (node info children parked).Steady context next)
    (horderly : (node info children parked).Throughout Orderly) {c : Document}
    (hc : c ∈ expired info children parked) (hwithin : Within c.idPath p) :
    Fate p v (outboxes (sweptAll info children parked)) (node info children parked).closeExpired
      c := by
  have hown := mem_offspring_of_mem_expired hc
  refine fate_of_gone (hd.discreet_sweptAll horderly) (hd.self.pathsApart_sweptAll hplain)
    (List.mem_append_left _ (List.mem_map_of_mem hc)) (idPath_dispose c) hwithin ?_ ?_
  · intro t ht
    refine ht.dispose hplain (hd.of_mem_offspring hown) ((throughout_iff.mp horderly).2 c hown)
      (hd.self.live c hown) ?_
    rcases hwithin with heq | hbelow
    · exact Or.inr ⟨heq, horderly.self.kin c hown⟩
    · exact Or.inl hbelow
  · intro c' hc' hpath
    obtain ⟨x, hx, hx'⟩ := exists_of_mem_offspring_closeExpired hc'
    exact hd.self.not_within_expired hplain hc hx' hwithin ((hx.trans hpath).symm ▸ hwithin)

end

theorem Told.closeExpired (hplain : context.PlainNames) (hd : d.Steady context next)
    (horderly : d.Throughout Orderly) (h : Told p v s d) : Told p v s d.closeExpired := by
  induction d using tree_induction generalizing s with
  | step info children parked ihc _ =>
    have hsub := (throughout_iff.mp horderly).2
    have hdiscreet := hd.discreet_sweptAll horderly
    have hstaying : ∀ {x}, x ∈ children.filter (isStaying info.idle) →
        x ∈ (node info children parked).offspring :=
      fun hx => List.mem_append_left _ (List.mem_filter.mp hx).1
    refine h.pass hplain hd.self hd.closeExpired.self rfl rfl outbox_closeExpired hdiscreet ?_ ?_ ?_
    · intro y hy
      rcases List.mem_append.mp hy with hy | hy
      · obtain ⟨x, hx, rfl⟩ := List.mem_map.mp hy
        exact ⟨x, mem_offspring_of_mem_expired hx, (idPath_dispose x).symm⟩
      · obtain ⟨x, hx, rfl⟩ := List.mem_map.mp hy
        exact ⟨x, hstaying hx, (idPath_swept info.idle x).symm⟩
    · intro c' hc'
      obtain ⟨c, hpath, hc | hc⟩ := exists_of_mem_offspring_closeExpired hc'
      · exact ⟨c, hstaying hc, hpath⟩
      · exact ⟨c, List.mem_append_right _ (List.mem_filter.mp hc).1, hpath⟩
    · intro c hc hwithin
      rcases List.mem_append.mp hc with hc | hc
      · rw [children_node] at hc
        by_cases hstays : isStaying info.idle c = true
        · have hmem : c ∈ children.filter (isStaying info.idle) := List.mem_filter.mpr ⟨hc, hstays⟩
          refine fate_of_speaker hdiscreet (hd.self.pathsApart_sweptAll hplain)
            (List.mem_append_right _ (List.mem_map_of_mem hmem)) (idPath_swept info.idle c) hwithin ?_
            ?_
          · intro t ht
            have hswept := ihc c hc (hd.of_mem_offspring (hstaying hmem)) (hsub c (hstaying hmem)) ht
            unfold swept
            split
            · exact hswept.withLifetime _
            · exact hswept
          · rw [offspring_closeExpired]
            exact List.mem_append_left _ (List.mem_map.mpr ⟨c, hmem, rfl⟩)
        · refine fate_of_expired hplain hd horderly (List.mem_append_left _ ?_) hwithin
          refine List.mem_filter.mpr ⟨hc, ?_⟩
          simpa only [isStaying, Bool.not_eq_true', Bool.not_eq_false] using hstays
      · rw [parked_node] at hc
        cases hexpiring : c.isExpiring with
        | true =>
          exact fate_of_expired hplain hd horderly
            (List.mem_append_right _ (List.mem_filter.mpr ⟨hc, hexpiring⟩)) hwithin
        | false =>
          have hmem : c ∈ parked.filter (!isExpiring ·) :=
            List.mem_filter.mpr ⟨hc, by rw [hexpiring]; rfl⟩
          refine fate_of_silent hdiscreet ?_ ?_ (idPath_aged c) ?_
          · intro y hy hwithin'
            rcases List.mem_append.mp hy with hy | hy
            · obtain ⟨x, hx, rfl⟩ := List.mem_map.mp hy
              rw [idPath_dispose] at hwithin'
              exact hd.self.not_within_expired hplain hx (Or.inr hmem) hwithin' hwithin
            · obtain ⟨x, hx, rfl⟩ := List.mem_map.mp hy
              rw [idPath_swept] at hwithin'
              exact hd.self.not_within_both hplain (List.mem_filter.mp hx).1 hc hwithin' hwithin
          · rw [offspring_closeExpired]
            exact List.mem_append_right _ (List.mem_map_of_mem hmem)
          · exact fun t ht => ht.withLifetime _

/-! Telling of changes. -/

/-- What a tree tells when it is asked for changes: what waited in it, and the changes of documents
that a walk meets. -/
theorem mem_outbox_emitChanged {ev : Event} (h : ev ∈ d.emitChanged.outbox) :
    (∃ x, d.Owns x ∧ ev ∈ x.outbox) ∨ ∃ x ∈ d.walk, ev = x.id.event .changed := by
  induction d using tree_induction with
  | step info children parked ihc _ =>
    rw [outbox_emitChanged, List.mem_append] at h
    rw [walk, walkAll_eq]
    rcases h with h | h
    · unfold noteChange at h
      simp only at h
      split at h
      · exact Or.inl ⟨_, Owns.self _, h⟩
      · rcases List.mem_append.mp h with h | h
        · exact Or.inl ⟨_, Owns.self _, h⟩
        · exact Or.inr ⟨_, List.mem_cons_self, List.mem_singleton.mp h⟩
    · obtain ⟨y, hy, h⟩ := mem_outboxes.mp h
      obtain ⟨c, hc, rfl⟩ := List.mem_map.mp hy
      rcases ihc c hc h with ⟨x, hx, h⟩ | ⟨x, hx, h⟩
      · exact Or.inl ⟨x, Owns.child hc hx, h⟩
      · exact Or.inr ⟨x, List.mem_cons_of_mem _ (List.mem_flatMap.mpr ⟨c, hc, hx⟩), h⟩

theorem idPath_emitChanged (d : Document) : d.emitChanged.idPath = d.idPath :=
  congrArg Identity.idPath (id_eq_of_core_eq (core_emitChanged d))

theorem within_of_mem_outbox_emitChanged (hd : d.Steady context next)
    (horderly : d.Throughout Orderly) {ev : Event} (h : ev ∈ d.emitChanged.outbox) :
    Within d.idPath ev.idPath := by
  rcases mem_outbox_emitChanged h with ⟨x, hx, h⟩ | ⟨x, hx, rfl⟩
  · have hbelow : Within x.idPath ev.idPath := Or.inr ((horderly x hx).below ev h).1
    rcases hd.within_of_owns hx with heq | hunder
    · exact heq ▸ hbelow
    · exact Or.inr (hunder.within hbelow)
  · exact hd.within_of_owns (owns_of_mem_walk hx)

theorem nature_noteChange (info : Info) (children parked : List Document) :
    (node (noteChange info) children parked).nature = (node info children parked).nature := by
  obtain ⟨_, _, hnote⟩ := noteChange_eq info
  rw [hnote]
  rfl

/-- A document that has changed tells so, and its value is copied. -/
theorem Told.noteChange (hd : d.Steady context next) (h : Told p v s d)
    (hvalue : d.idPath = p → d.value = v) : Told p v s (d.modify noteChange) := by
  obtain ⟨info, children, parked⟩ := d
  rw [modify_node]
  unfold Document.noteChange
  simp only
  split
  · exact h
  · rename_i hdiffers
    refine h.change (show _ = info.outbox ++ [info.id.event .changed] from rfl) ?_
    intro t htells
    by_cases hp : info.id.idPath = p
    · have hv : bufferText info.config.spacing info.blocks = v := hvalue hp
      rw [hv] at hdiffers ⊢
      obtain rfl := htells.self hp
      refine ⟨known (some v), ?_, fun _ => rfl, fun hne => absurd hp hne, ?_⟩
      · show (if info.id.idPath = p then
          (if info.lastValue = some v then none else some (known (some v))).bind some
          else some (known info.lastValue)) = _
        rw [if_pos hp, if_neg hdiffers]
        rfl
      · intro c hc hwithin
        have hbelow := (hd.below_of_mem hc).within hwithin
        exact absurd (show Below p p from hp ▸ hbelow) (not_below_self p)
    · exact ⟨t, if_neg hp, fun heq => absurd heq hp, htells.absent, htells.kin⟩

theorem Told.emitChanged (hplain : context.PlainNames) (hd : d.Steady context next)
    (horderly : d.Throughout Orderly) (h : Told p v s d)
    (hvalue : ∀ x ∈ d.walk, x.idPath = p → x.value = v) : Told p v s d.emitChanged := by
  induction d using tree_induction generalizing s with
  | step info children parked ihc _ =>
    have hnoted := h.noteChange hd (hvalue _ (by rw [walk]; exact List.mem_cons_self))
    have hsteady : (node (Document.noteChange info) children parked).Steady context next :=
      hd.modify (f := Document.noteChange) (nature_noteChange info children parked)
    have hown : ∀ {x}, x ∈ children → x ∈ (node info children parked).offspring :=
      fun hx => List.mem_append_left _ hx
    have hsub := (throughout_iff.mp horderly).2
    have hapart : PathsApart ((children.map Document.emitChanged).map idPath) := by
      rw [map_idPath_map idPath_emitChanged]
      exact pathsApart_of_subperm (hd.self.apart hplain)
        (List.sublist_append_left children parked).subperm
    have hdiscreet : Discreet (children.map Document.emitChanged) := by
      intro y hy ev hev
      obtain ⟨x, hx, rfl⟩ := List.mem_map.mp hy
      rw [idPath_emitChanged]
      exact within_of_mem_outbox_emitChanged (hd.of_mem_offspring (hown hx)) (hsub x (hown hx)) hev
    refine hnoted.pass hplain hsteady.self hd.emitChanged.self ?_ ?_ outbox_emitChanged hdiscreet ?_ ?_
      ?_
    · rw [idPath_emitChanged]
      exact congrArg Identity.idPath
        (id_eq_of_nature_eq (nature_noteChange info children parked)).symm
    · rw [Document.emitChanged]
      rfl
    · intro y hy
      obtain ⟨x, hx, rfl⟩ := List.mem_map.mp hy
      exact ⟨x, hown hx, (idPath_emitChanged x).symm⟩
    · intro c hc
      rw [offspring_emitChanged] at hc
      rcases List.mem_append.mp hc with hc | hc
      · obtain ⟨x, hx, rfl⟩ := List.mem_map.mp hc
        exact ⟨x, hown hx, ((idPath_drained _).trans (idPath_emitChanged x)).symm⟩
      · exact ⟨c, List.mem_append_right _ hc, rfl⟩
    · intro c hc hwithin
      rcases List.mem_append.mp hc with hc | hc
      · refine fate_of_speaker hdiscreet hapart (List.mem_map_of_mem hc) (idPath_emitChanged c) hwithin
          ?_ ?_
        · intro t ht
          refine ihc c hc (hd.of_mem_offspring (hown hc)) (hsub c (hown hc)) ht ?_
          intro x hx
          refine hvalue x ?_
          rw [walk, walkAll_eq]
          exact List.mem_cons_of_mem _ (List.mem_flatMap.mpr ⟨c, hc, hx⟩)
        · rw [offspring_emitChanged]
          exact List.mem_append_left _ (List.mem_map.mpr ⟨c, hc, rfl⟩)
      · have hstays : c ∈ (node info children parked).emitChanged.offspring := by
          rw [offspring_emitChanged]
          exact List.mem_append_right _ hc
        refine fate_of_silent hdiscreet ?_ hstays rfl fun _ ht => ht
        intro y hy hwithin'
        obtain ⟨x, hx, rfl⟩ := List.mem_map.mp hy
        rw [idPath_emitChanged] at hwithin'
        exact hd.self.not_within_both hplain hx hc hwithin' hwithin

/-- Telling of changes keeps what a walk meets. -/
theorem walk_emitChanged (d : Document) : d.emitChanged.walk.map core = d.walk.map core := by
  have hdrained : ∀ x : Document, x.drained.walk.map core = x.walk.map core := by
    rintro ⟨info, children, parked⟩
    rw [Document.drained, modify_node, walk, walk, List.map_cons, List.map_cons]
    rfl
  induction d using tree_induction with
  | step info children parked ihc _ =>
    have hcore := core_emitChanged (node info children parked)
    have hchildren : (children.map fun c => c.emitChanged.drained).flatMap (fun c => c.walk.map core) =
        children.flatMap fun c => c.walk.map core := by
      rw [List.flatMap_map]
      refine List.flatMap_congr fun c hc => ?_
      rw [hdrained, ihc c hc]
    rw [Document.emitChanged, emitChangedAll_eq, List.map_map] at hcore ⊢
    rw [walk, walk, walkAll_eq, walkAll_eq, List.map_cons, List.map_cons, hcore, List.map_flatMap,
      List.map_flatMap]
    exact congrArg (List.cons _) hchildren

theorem lastValue_noteChange (info : Info) :
    (noteChange info).lastValue = some (bufferText info.config.spacing info.blocks) := by
  unfold noteChange
  simp only
  split
  · assumption
  · rfl

theorem value_eq_of_core_eq {d e : Document} (h : d.core = e.core) : d.value = e.value := by
  have hconfig : d.info.config = e.info.config := (nature_eq_iff.mp (congrArg Prod.fst h)).2.1
  have hblocks : d.info.blocks = e.info.blocks := congrArg Prod.snd h
  rw [value, value, hconfig, hblocks]

theorem forall_mem_walk_modify {P : Document → Prop} {d : Document} {f : Info → Info}
    (hself : P d → P (d.modify f)) (h : ∀ x ∈ d.walk, P x) : ∀ x ∈ (d.modify f).walk, P x := by
  obtain ⟨info, children, parked⟩ := d
  rw [walk, List.forall_mem_cons] at h
  rw [modify_node, walk, List.forall_mem_cons]
  exact ⟨hself h.1, h.2⟩

/-- After a tree was asked for changes, every document has noted its buffer. -/
theorem lastValue_of_mem_walk_emitChanged (d : Document) :
    ∀ x ∈ d.emitChanged.walk, x.info.lastValue = some x.value := by
  induction d using tree_induction with
  | step info children parked ihc _ =>
    have hself : (noteChange info).lastValue = some (node info children parked).emitChanged.value := by
      rw [lastValue_noteChange, value_eq_of_core_eq (core_emitChanged _)]
      rfl
    rw [Document.emitChanged, emitChangedAll_eq, List.map_map] at hself ⊢
    rw [walk, walkAll_eq, List.forall_mem_cons]
    refine ⟨hself, ?_⟩
    intro x hx
    obtain ⟨y, hy, hx⟩ := List.mem_flatMap.mp hx
    obtain ⟨c, hc, rfl⟩ := List.mem_map.mp hy
    refine forall_mem_walk_modify ?_ (ihc c hc) x hx
    intro hnoted
    cases hchild : c.emitChanged
    rw [hchild] at hnoted
    exact hnoted

/-! What is known of a quiet tree. -/

theorem Told.eq_known (hd : d.Steady context next) (hquiet : d.Quiet) (h : Told p v s d)
    {x : Document} (hx : d.Owns x) (hp : x.idPath = p) : s = known x.info.lastValue := by
  induction d using offspring_induction generalizing s with
  | step d ih =>
    obtain ⟨s', hheard, htells⟩ := told_iff.mp h
    rw [hquiet.self] at hheard
    cases hheard
    rcases owns_iff.mp hx with rfl | ⟨c, hc, hx⟩
    · exact htells.self hp
    · have hwithin : Within c.idPath p := hp ▸ (hd.of_mem_offspring hc).within_of_owns hx
      exact ih c hc (hd.of_mem_offspring hc) ((throughout_iff.mp hquiet).2 c hc)
        (htells.kin c hc hwithin) hx

end

end Polyglot.Document
