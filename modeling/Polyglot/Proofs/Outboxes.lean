import Polyglot.Proofs.IdPaths

/-!
Outboxes. What waits in the outbox of a document tells of documents below it, and nothing waits in
what is parked. When all goes well a document passes on what its children tell, so that nothing
waits anywhere below it.
-/
namespace Polyglot.Document

/-! What the operations do to outboxes and to what a document owns. -/

theorem disposeAll_eq (ds : List Document) : disposeAll ds = ds.map dispose := by
  induction ds with
  | nil => rfl
  | cons d rest ih => rw [disposeAll, ih, List.map_cons]

theorem outboxes_append (ds es : List Document) : outboxes (ds ++ es) = outboxes ds ++ outboxes es :=
  List.flatMap_append

theorem mem_outboxes {ds : List Document} {e : Event} : e ∈ outboxes ds ↔ ∃ d ∈ ds, e ∈ d.outbox :=
  List.mem_flatMap

section

variable {info : Info} {children parked : List Document}

theorem outbox_clear : (node info children parked).clear.outbox =
    info.outbox ++ outboxes (children.map clear) := by
  rw [clear, clearAll_eq]
  rfl

theorem mem_offspring_clear {c : Document} :
    c ∈ (node info children parked).clear.offspring ↔
      (∃ x ∈ children, x.clear.drained = c) ∨ c ∈ parked := by
  rw [offspring, List.mem_append]
  constructor
  · rintro (hc | hc)
    · exact Or.inl (mem_children_clear hc)
    · exact (mem_parked_clear hc).symm
  · rw [clear, clearAll_eq]
    simp only [List.partition_eq_filter_filter, children_node, parked_node, List.map_map, sortParked,
      List.mem_mergeSort, List.mem_append, List.mem_filter, List.mem_map, Function.comp_apply]
    rintro (hc | hc)
    · cases halone : c.id.kind.standalone with
      | true => exact Or.inr (Or.inr ⟨hc, rfl⟩)
      | false => exact Or.inl ⟨hc, rfl⟩
    · exact Or.inr (Or.inl hc)

/-- The documents that a sweep disposes of. -/
def expired (info : Info) (children parked : List Document) : List Document :=
  children.filter (fun c => info.idle.contains c.key && c.isExpiring) ++ parked.filter isExpiring

/-- The documents that tell what a sweep does to them, in turn. -/
def sweptAll (info : Info) (children parked : List Document) : List Document :=
  (expired info children parked).map dispose ++
    (children.filter (isStaying info.idle)).map (swept info.idle)

theorem outbox_closeExpired : (node info children parked).closeExpired.outbox =
    info.outbox ++ outboxes (sweptAll info children parked) := by
  rw [closeExpired, closeStaying_eq, sweptAll, expired, List.map_append, outboxes_append,
    outboxes_append, ← List.append_assoc, ← List.append_assoc]
  rfl

theorem offspring_closeExpired : (node info children parked).closeExpired.offspring =
    (children.filter (isStaying info.idle)).map (fun c => (swept info.idle c).drained) ++
      (parked.filter (!isExpiring ·)).map aged := by
  rw [closeExpired, closeStaying_eq, List.map_map]
  rfl

theorem outbox_dispose (hlive : info.disposed = false) : (node info children parked).dispose.outbox =
    info.outbox ++ outboxes ((children ++ parked).map dispose) ++
      (if info.id.isRoot then [] else [info.id.event .closed]) := by
  rw [dispose, disposeAll_eq, disposeAll_eq, hlive, if_neg Bool.false_ne_true, List.map_append]
  rfl

theorem outbox_emitChanged : (node info children parked).emitChanged.outbox =
    (noteChange info).outbox ++ outboxes (children.map emitChanged) := by
  rw [emitChanged, emitChangedAll_eq]
  rfl

theorem offspring_emitChanged : (node info children parked).emitChanged.offspring =
    children.map (fun c => c.emitChanged.drained) ++ parked := by
  rw [emitChanged, emitChangedAll_eq, List.map_map]
  rfl

end

theorem offspring_modify (d : Document) (f : Info → Info) : (d.modify f).offspring = d.offspring := by
  cases d
  rfl

theorem throughout_modify {P : Document → Prop} {d : Document} {f : Info → Info}
    (h : d.Throughout P) (hself : P (d.modify f)) : (d.modify f).Throughout P := by
  rw [throughout_iff, offspring_modify]
  exact ⟨hself, (throughout_iff.mp h).2⟩

/-! Quiet trees. -/

/-- Nothing waits anywhere in the tree. -/
def Quiet (d : Document) : Prop := d.Throughout fun e => e.outbox = []

theorem outbox_drained (d : Document) : d.drained.outbox = [] := by
  cases d
  rfl

theorem quiet_drained_iff {d : Document} : d.drained.Quiet ↔ ∀ c ∈ d.offspring, c.Quiet := by
  rw [Quiet, throughout_iff, drained, offspring_modify]
  exact and_iff_right (outbox_drained d)

theorem Quiet.drained {d : Document} (h : d.Quiet) : d.drained.Quiet :=
  throughout_modify h (outbox_drained d)

theorem Quiet.withLifetime {d : Document} (h : d.Quiet) (lifetime : Nat) :
    (d.withLifetime lifetime).Quiet := by
  refine throughout_modify h ?_
  cases d
  exact h.self

theorem quiet_leaf {info : Info} (h : info.outbox = []) : (node info [] []).Quiet := by
  rw [Quiet, throughout_node]
  exact ⟨h, by simp, by simp⟩

/-! Orderly outboxes. -/

/-- What waits in the outbox tells of documents below and not of changes, nothing waits in what is
parked, and no document that is owned is a root. -/
structure Orderly (d : Document) : Prop where
  below : ∀ e ∈ d.outbox, Below d.idPath e.idPath ∧ e.kind ≠ .changed
  hushed : ∀ c ∈ d.parked, c.Quiet
  kin : ∀ c ∈ d.offspring, c.id.isRoot = false

theorem orderly_leaf {info : Info} (h : info.outbox = []) :
    (node info [] []).Throughout Orderly := by
  rw [throughout_node]
  refine ⟨⟨?_, by simp, by simp [offspring]⟩, by simp, by simp⟩
  rw [outbox, info_node, h]
  simp

theorem orderly_modify {d : Document} {f : Info → Info} (h : d.Throughout Orderly)
    (hid : (f d.info).id = d.info.id)
    (hbelow : ∀ e ∈ (f d.info).outbox, Below d.idPath e.idPath ∧ e.kind ≠ .changed) :
    (d.modify f).Throughout Orderly := by
  refine throughout_modify h ⟨?_, ?_, ?_⟩
  · obtain ⟨info, children, parked⟩ := d
    rw [idPath, Document.id, modify_node, info_node, show (f info).id = info.id from hid]
    exact hbelow
  · cases d
    exact h.self.hushed
  · rw [offspring_modify]
    exact h.self.kin

theorem orderly_withLifetime {d : Document} (h : d.Throughout Orderly) (lifetime : Nat) :
    (d.withLifetime lifetime).Throughout Orderly := orderly_modify h rfl h.self.below

theorem orderly_drained {d : Document} (h : d.Throughout Orderly) : d.drained.Throughout Orderly :=
  orderly_modify h rfl (by simp)

theorem orderly_emit {d : Document} {events : List Event} (h : d.Throughout Orderly)
    (hbelow : ∀ e ∈ events, Below d.idPath e.idPath ∧ e.kind ≠ .changed) :
    (d.emit events).Throughout Orderly :=
  orderly_modify h rfl (List.forall_mem_append.mpr ⟨h.self.below, hbelow⟩)

theorem orderly_putChild {d c : Document} (h : d.Throughout Orderly) (hc : c.Throughout Orderly)
    (hroot : c.id.isRoot = false) : (d.putChild c).Throughout Orderly := by
  obtain ⟨info, children, parked⟩ := d
  rw [throughout_node] at h
  rw [putChild, throughout_node]
  refine ⟨⟨h.1.below, h.1.hushed, ?_⟩, ?_, h.2.2⟩
  · intro x hx
    rcases List.mem_append.mp hx with hx | hx
    · rcases mem_insertByKey hx with rfl | hold
      · exact hroot
      · exact h.1.kin x (List.mem_append_left _ hold)
    · exact h.1.kin x (List.mem_append_right _ hx)
  · intro x hx
    rcases mem_insertByKey hx with rfl | hold
    · exact hc
    · exact h.2.1 x hold

section

variable {context : Context} {next : Nat}

theorem orderly_chooseChild (hapart : context.SiblingsApart) {kind : Kind} {d d₁ child : Document}
    {n₁ : Nat} (hkind : context.Finds d.language kind) (hsteady : d.Steady context next)
    (h : d.Throughout Orderly) (hc : chooseChild kind next d = ⟨d₁, n₁, .ok child⟩) :
    d₁.Throughout Orderly ∧ child.Throughout Orderly ∧ child.id.isRoot = false := by
  obtain ⟨info, children, parked⟩ := d
  have hold : ∀ c ∈ (node info children parked).offspring,
      (c.withLifetime info.config.lifetime).Throughout Orderly ∧
        (c.withLifetime info.config.lifetime).id.isRoot = false := by
    intro c hc
    refine ⟨orderly_withLifetime ((throughout_iff.mp h).2 c hc) info.config.lifetime, ?_⟩
    rw [id_eq_of_nature_eq (nature_withLifetime c _)]
    exact h.self.kin c hc
  cases hsteady.chosen hapart hkind hc with
  | @shared c _ hmem _ =>
    obtain ⟨hchild, hroot⟩ := hold c (List.mem_append_left _ hmem)
    refine ⟨orderly_putChild (d := node { info with idle := info.idle.erase kind.language } children
      parked) ?_ hchild hroot, hchild, hroot⟩
    exact orderly_modify (f := fun i => { i with idle := info.idle.erase kind.language }) h rfl
      h.self.below
  | @parked c earlier later _ hsplit _ _ =>
    subst hsplit
    obtain ⟨hchild, hroot⟩ := hold c (by simp [offspring])
    refine ⟨orderly_putChild (d := node info children (earlier ++ later)) ?_ hchild hroot, hchild,
      hroot⟩
    have hrest : ∀ x ∈ earlier ++ later, x ∈ earlier ++ c :: later := by
      intro x hx
      rcases List.mem_append.mp hx with hx | hx <;> simp [hx]
    rw [throughout_node] at h ⊢
    refine ⟨⟨h.1.below, fun x hx => h.1.hushed x (hrest x hx), ?_⟩, h.2.1,
      fun x hx => h.2.2 x (hrest x hx)⟩
    intro x hx
    refine h.1.kin x ?_
    rcases List.mem_append.mp hx with hx | hx
    · exact List.mem_append_left _ hx
    · exact List.mem_append_right _ (hrest x hx)
  | @new uri _ _ =>
    have hchild : (newChild info kind next uri).Throughout Orderly := orderly_leaf rfl
    refine ⟨orderly_putChild (d := (node info children parked).emit
      [(newChild info kind next uri).id.event .opened]) ?_ hchild rfl, hchild, rfl⟩
    refine orderly_emit h ?_
    intro e he
    rw [List.mem_singleton.mp he]
    exact ⟨below_join _ _, by simp [Identity.event]⟩

theorem orderly_giveFragment (hapart : context.SiblingsApart) {editor : String} {below : Nat}
    (hgive : ∀ origin shift text next d, d.Steady context next ∧ d.Throughout Orderly →
      (appendText context editor below origin shift text next d).document.Throughout Orderly)
    {f : Fragment} (origin : Pos .editor) {d : Document} (hkind : context.Finds d.language f.kind)
    (hsteady : d.Steady context next) (h : d.Throughout Orderly) :
    (giveFragment (appendText context editor below) editor origin f next d).document.Throughout
      Orderly := by
  have hgrowth : ∀ {d₁ child grown : Document} {n₁ n₂ : Nat} {result : Except DocumentError Unit},
      chooseChild f.kind next d = ⟨d₁, n₁, .ok child⟩ →
      appendText context editor below (foreignOrigin origin f.range) f.shift f.text n₁ child =
        ⟨grown, n₂, result⟩ →
      d₁.Throughout Orderly ∧ grown.Throughout Orderly ∧ grown.id.isRoot = false ∧
        Below d₁.idPath grown.idPath := by
    intro d₁ child grown n₁ n₂ result hc hg
    obtain ⟨hd₁, hchild, hroot⟩ := orderly_chooseChild hapart hkind hsteady h hc
    obtain ⟨hsteady₁, hmem, hnature, hgrown⟩ :=
      hsteady.keeps_grown hapart hgive hkind hc hg hchild
    have hid := id_eq_of_nature_eq hnature
    refine ⟨hd₁, hgrown, hid ▸ hroot, ?_⟩
    rw [idPath, idPath, hid]
    exact hsteady₁.below_of_mem (List.mem_append_left _ hmem)
  rcases giveFragment_cases (appendText context editor below) editor origin f next d with
    ⟨d₁, n₁, e, hc, heq⟩ | ⟨d₁, n₁, child, grown, n₂, e, hc, hg, heq⟩ |
    ⟨d₁, n₁, child, grown, n₂, hc, hg, heq⟩
  · rw [heq, (chooseChild_error hc).1]
    exact h
  · obtain ⟨hd₁, hgrown, hroot, _⟩ := hgrowth hc hg
    rw [heq]
    exact orderly_putChild hd₁ hgrown hroot
  · obtain ⟨hd₁, hgrown, hroot, hbelow⟩ := hgrowth hc hg
    rw [heq]
    refine orderly_emit (orderly_putChild hd₁ (orderly_drained hgrown) ?_) ?_
    · rw [id_eq_of_nature_eq (nature_drained grown)]
      exact hroot
    · intro e he
      obtain ⟨hunder, hkind⟩ := hgrown.self.below e he
      rw [idPath, (sameHost_putChild d₁ grown.drained).id_eq]
      exact ⟨hbelow.trans hunder, hkind⟩

theorem orderly_appendText (hapart : context.SiblingsApart) (editor : String) (levels : Nat)
    (origin : Pos .editor) (shift : Option (Pos .source)) (text : Text) {d : Document}
    (hsteady : d.Steady context next) (h : d.Throughout Orderly) :
    (appendText context editor levels origin shift text next d).document.Throughout Orderly := by
  refine hsteady.keeps_appendText hapart editor ?_ ?_ levels origin shift text h
  · intro below hbelow n e f origin hkind hsteady he
    exact orderly_giveFragment hapart hbelow origin hkind hsteady he
  · exact fun e b he => orderly_modify he rfl he.self.below

/-! Clearing, sweeping and telling. -/

/-- Below an emptied document nothing waits. -/
theorem quiet_clear {d : Document} (h : d.Throughout Orderly) : d.clear.drained.Quiet := by
  induction d using tree_induction with
  | step info children parked ihc _ =>
    rw [throughout_node] at h
    rw [quiet_drained_iff]
    intro c hc
    rcases mem_offspring_clear.mp hc with ⟨x, hx, rfl⟩ | hc
    · exact ihc x hx (h.2.1 x hx)
    · exact h.1.hushed c hc

theorem orderly_clear {d : Document} (hsteady : d.Steady context next) (h : d.Throughout Orderly) :
    d.clear.Throughout Orderly := by
  induction d using tree_induction with
  | step info children parked ihc _ =>
    have hquiet := quiet_drained_iff.mp (quiet_clear h)
    have hcleared : ∀ x ∈ children, x.clear.Throughout Orderly := by
      intro x hx
      have hmem : x ∈ (node info children parked).offspring := List.mem_append_left _ hx
      exact ihc x hx (hsteady.of_mem_offspring hmem) ((throughout_iff.mp h).2 x hmem)
    have hself := h.self
    have hbelow : ∀ e ∈ (node info children parked).clear.outbox,
        Below info.id.idPath e.idPath ∧ e.kind ≠ .changed := by
      rw [outbox_clear, List.forall_mem_append]
      refine ⟨hself.below, ?_⟩
      intro e he
      obtain ⟨y, hy, he⟩ := mem_outboxes.mp he
      obtain ⟨x, hx, rfl⟩ := List.mem_map.mp hy
      obtain ⟨hunder, hkind⟩ := (hcleared x hx).self.below e he
      rw [idPath, id_eq_of_nature_eq (nature_clear x)] at hunder
      exact ⟨(hsteady.below_of_mem (List.mem_append_left _ hx)).trans hunder, hkind⟩
    refine throughout_clear ⟨hbelow, ?_, ?_⟩ (fun x hx => orderly_drained (hcleared x hx))
      ((throughout_node _ _ _ _).mp h).2.2
    · exact fun c hc => hquiet c (List.mem_append_right _ hc)
    · intro c hc
      rcases mem_offspring_clear.mp hc with ⟨x, hx, rfl⟩ | hc
      · rw [id_eq_of_nature_eq ((nature_drained _).trans (nature_clear x))]
        exact hself.kin x (List.mem_append_left _ hx)
      · exact hself.kin c (List.mem_append_right _ hc)

/-- What is disposed of tells of itself and of documents below it. -/
theorem within_of_mem_outbox_dispose {d : Document} (hsteady : d.Steady context next)
    (h : d.Throughout Orderly) {e : Event} (he : e ∈ d.dispose.outbox) :
    Within d.idPath e.idPath ∧ e.kind ≠ .changed := by
  induction d using offspring_induction with
  | step d ih =>
    have hown : ∀ e ∈ d.outbox, Within d.idPath e.idPath ∧ e.kind ≠ .changed :=
      fun e he => (h.self.below e he).imp_left Or.inr
    obtain ⟨info, children, parked⟩ := d
    cases hlive : info.disposed with
    | true =>
      rw [dispose, hlive, if_pos rfl] at he
      exact hown e he
    | false =>
      rw [outbox_dispose hlive, List.mem_append, List.mem_append] at he
      rcases he with (he | he) | he
      · exact hown e he
      · obtain ⟨y, hy, he⟩ := mem_outboxes.mp he
        obtain ⟨c, hc, rfl⟩ := List.mem_map.mp hy
        obtain ⟨hunder, hkind⟩ := ih c hc (hsteady.of_mem_offspring hc)
          ((throughout_iff.mp h).2 c hc) he
        exact ⟨Or.inr ((hsteady.below_of_mem hc).within hunder), hkind⟩
      · split at he
        · simp at he
        · rw [List.mem_singleton.mp he]
          exact ⟨Or.inl rfl, by simp [Identity.event]⟩

theorem mem_offspring_of_mem_expired {info : Info} {children parked : List Document} {c : Document}
    (hc : c ∈ expired info children parked) : c ∈ (node info children parked).offspring :=
  (List.filter_sublist.append List.filter_sublist).subset hc

theorem outbox_swept (idle : List String) (c : Document) :
    (swept idle c).outbox = c.closeExpired.outbox := by
  unfold swept
  split
  · cases c
    rfl
  · rfl

theorem orderly_swept {idle : List String} {c : Document} (h : c.closeExpired.Throughout Orderly) :
    (swept idle c).Throughout Orderly := by
  unfold swept
  split
  · exact orderly_withLifetime h _
  · exact h

theorem orderly_closeExpired {d : Document} (hsteady : d.Steady context next)
    (h : d.Throughout Orderly) : d.closeExpired.Throughout Orderly := by
  induction d using tree_induction with
  | step info children parked ihc _ =>
    obtain ⟨hself, howned⟩ := throughout_iff.mp h
    have hchild : ∀ {x : Document}, x ∈ children.filter (isStaying info.idle) →
        x ∈ (node info children parked).offspring ∧ x.closeExpired.Throughout Orderly := by
      intro x hx
      have hmem := (List.mem_filter.mp hx).1
      have hkin : x ∈ (node info children parked).offspring := List.mem_append_left _ hmem
      exact ⟨hkin, ihc x hmem (hsteady.of_mem_offspring hkin) (howned x hkin)⟩
    have hbelow : ∀ e ∈ (node info children parked).closeExpired.outbox,
        Below info.id.idPath e.idPath ∧ e.kind ≠ .changed := by
      rw [outbox_closeExpired, List.forall_mem_append]
      refine ⟨hself.below, ?_⟩
      intro e he
      obtain ⟨y, hy, he⟩ := mem_outboxes.mp he
      rcases List.mem_append.mp hy with hy | hy
      · obtain ⟨x, hx, rfl⟩ := List.mem_map.mp hy
        have hmem := mem_offspring_of_mem_expired hx
        obtain ⟨hunder, hkind⟩ := within_of_mem_outbox_dispose (hsteady.of_mem_offspring hmem)
          (howned x hmem) he
        exact ⟨(hsteady.below_of_mem hmem).within hunder, hkind⟩
      · obtain ⟨x, hx, rfl⟩ := List.mem_map.mp hy
        obtain ⟨hmem, hx⟩ := hchild hx
        rw [outbox_swept] at he
        obtain ⟨hunder, hkind⟩ := hx.self.below e he
        rw [idPath, id_eq_of_core_eq (core_closeExpired x)] at hunder
        exact ⟨(hsteady.below_of_mem hmem).trans hunder, hkind⟩
    have hparked : ∀ {c : Document}, c ∈ (parked.filter (!isExpiring ·)).map aged →
        ∃ x ∈ parked, x.aged = c := by
      intro c hc
      obtain ⟨x, hx, rfl⟩ := List.mem_map.mp hc
      exact ⟨x, (List.mem_filter.mp hx).1, rfl⟩
    rw [throughout_iff, offspring_closeExpired]
    refine ⟨⟨hbelow, ?_, ?_⟩, ?_⟩
    · intro c hc
      rw [closeExpired] at hc
      obtain ⟨x, hx, rfl⟩ := hparked hc
      exact (hself.hushed x hx).withLifetime _
    · rw [offspring_closeExpired]
      intro c hc
      rcases List.mem_append.mp hc with hc | hc
      · obtain ⟨x, hx, rfl⟩ := List.mem_map.mp hc
        rw [id_eq_of_core_eq ((core_drained _).trans (core_swept info.idle x))]
        exact hself.kin x (hchild hx).1
      · obtain ⟨x, hx, rfl⟩ := hparked hc
        rw [aged, id_eq_of_nature_eq (nature_withLifetime x _)]
        exact hself.kin x (List.mem_append_right _ hx)
    · intro c hc
      rcases List.mem_append.mp hc with hc | hc
      · obtain ⟨x, hx, rfl⟩ := List.mem_map.mp hc
        exact orderly_drained (orderly_swept (hchild hx).2)
      · obtain ⟨x, hx, rfl⟩ := hparked hc
        exact orderly_withLifetime (howned x (List.mem_append_right _ hx)) _

theorem orderly_emitChanged {d : Document} (h : d.Throughout Orderly) :
    d.emitChanged.drained.Throughout Orderly := by
  induction d using tree_induction with
  | step info children parked ihc _ =>
    obtain ⟨hself, howned⟩ := throughout_iff.mp h
    rw [throughout_iff, drained, offspring_modify, offspring_emitChanged]
    refine ⟨⟨?_, ?_, ?_⟩, ?_⟩
    · rw [← drained, outbox_drained]
      simp
    · rw [emitChanged]
      exact hself.hushed
    · rw [offspring_modify, offspring_emitChanged]
      intro c hc
      rcases List.mem_append.mp hc with hc | hc
      · obtain ⟨x, hx, rfl⟩ := List.mem_map.mp hc
        rw [id_eq_of_core_eq ((core_drained _).trans (core_emitChanged x))]
        exact hself.kin x (List.mem_append_left _ hx)
      · exact hself.kin c (List.mem_append_right _ hc)
    · intro c hc
      rcases List.mem_append.mp hc with hc | hc
      · obtain ⟨x, hx, rfl⟩ := List.mem_map.mp hc
        exact ihc x hx (howned x (List.mem_append_left _ hx))
      · exact howned c (List.mem_append_right _ hc)

end

/-! When nothing fails. -/

theorem quiet_giveFragment {context : Context} {editor : String} {below : Nat}
    (hgive : ∀ {origin shift text next d e n},
      appendText context editor below origin shift text next d = ⟨e, n, .ok ()⟩ → d.drained.Quiet →
      e.drained.Quiet)
    {f : Fragment} {origin : Pos .editor} {next n : Nat} {d e : Document}
    {note : Range .text × ForeignBlock}
    (h : giveFragment (appendText context editor below) editor origin f next d = ⟨e, n, .ok note⟩)
    (hd : d.drained.Quiet) : e.drained.Quiet := by
  obtain ⟨d₁, n₁, child, grown, hc, hg, rfl, rfl⟩ := giveFragment_ok h
  obtain ⟨hchildren, hparked, hfrom⟩ := chooseChild_ok hc
  rw [quiet_drained_iff] at hd
  have hchild : child.drained.Quiet := by
    rcases hfrom with ⟨c, lifetime, hmem, rfl⟩ | ⟨new, rfl, _⟩
    · exact ((hd c (List.mem_append.mpr hmem)).withLifetime lifetime).drained
    · exact quiet_leaf rfl
  have hgrown := hgive hg hchild
  have hkey : grown.drained.key = child.key := by
    have hnature := (appendText_frame context editor below (foreignOrigin origin f.range) f.shift
      f.text n₁ child).1
    rw [hg] at hnature
    exact congrArg Identity.key (id_eq_of_nature_eq ((nature_drained grown).trans hnature))
  rw [quiet_drained_iff, emit, offspring_modify]
  obtain ⟨info₁, children₁, parked₁⟩ := d₁
  obtain rfl : children₁ = insertByKey child d.children := hchildren
  rw [putChild, insertByKey_insertByKey hkey]
  intro x hx
  rcases List.mem_append.mp hx with hx | hx
  · rcases mem_insertByKey hx with rfl | hold
    · exact hgrown
    · exact hd x (List.mem_append_left _ hold)
  · exact hd x (List.mem_append_right _ (hparked hx))

theorem quiet_appendForeign {context : Context} {editor : String} {below : Nat}
    (hgive : ∀ {origin shift text next d e n},
      appendText context editor below origin shift text next d = ⟨e, n, .ok ()⟩ → d.drained.Quiet →
      e.drained.Quiet)
    {fragments : List Fragment} {origin : Pos .editor} {next n : Nat} {d e : Document}
    {notes : List (Range .text × ForeignBlock)}
    (h : appendForeign (appendText context editor below) editor origin fragments next d =
      ⟨e, n, .ok notes⟩) (hd : d.drained.Quiet) : e.drained.Quiet := by
  induction fragments generalizing next d notes with
  | nil =>
    cases h
    exact hd
  | cons f rest ih =>
    obtain ⟨d₁, n₁, note, later, hone, hrest, _⟩ := appendForeign_cons_ok h
    exact ih hrest (quiet_giveFragment hgive hone hd)

/-- A text that is appended leaves nothing waiting below. -/
theorem quiet_appendText {context : Context} {editor : String} {levels : Nat} {origin : Pos .editor}
    {shift : Option (Pos .source)} {text : Text} {next n : Nat} {d e : Document}
    (h : appendText context editor levels origin shift text next d = ⟨e, n, .ok ()⟩)
    (hd : d.drained.Quiet) : e.drained.Quiet := by
  induction levels generalizing origin shift text next n d e with
  | zero =>
    obtain ⟨below, _, _, _, hlevels, _⟩ := appendText_ok h
    cases hlevels
  | succ levels ih =>
    obtain ⟨below, d₁, foreign, kept, hlevels, hforeign, _, _, rfl, _⟩ := appendText_ok h
    cases hlevels
    have hgiven := quiet_appendForeign ih hforeign hd
    rw [quiet_drained_iff] at hgiven ⊢
    rw [push, offspring_modify]
    exact hgiven

theorem Quiet.closeExpired {d : Document} (h : d.drained.Quiet) : d.closeExpired.drained.Quiet := by
  induction d using tree_induction with
  | step info children parked ihc _ =>
    rw [quiet_drained_iff] at h
    rw [quiet_drained_iff, offspring_closeExpired]
    intro c hc
    rcases List.mem_append.mp hc with hc | hc
    · obtain ⟨x, hx, rfl⟩ := List.mem_map.mp hc
      have hmem := (List.mem_filter.mp hx).1
      have hswept := ihc x hmem (h x (List.mem_append_left _ hmem)).drained
      unfold swept
      split
      · rw [quiet_drained_iff] at hswept ⊢
        rw [aged, Document.withLifetime, offspring_modify]
        exact hswept
      · exact hswept
    · obtain ⟨x, hx, rfl⟩ := List.mem_map.mp hc
      exact (h x (List.mem_append_right _ (List.mem_filter.mp hx).1)).withLifetime _

theorem Quiet.emitChanged {d : Document} (h : d.drained.Quiet) : d.emitChanged.drained.Quiet := by
  induction d using tree_induction with
  | step info children parked ihc _ =>
    rw [quiet_drained_iff] at h
    rw [quiet_drained_iff, offspring_emitChanged]
    intro c hc
    rcases List.mem_append.mp hc with hc | hc
    · obtain ⟨x, hx, rfl⟩ := List.mem_map.mp hc
      exact ihc x hx (h x (List.mem_append_left _ hx)).drained
    · exact h c (List.mem_append_right _ hc)

end Polyglot.Document
