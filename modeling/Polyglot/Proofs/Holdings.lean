import Polyglot.Proofs.Numbers
import Polyglot.Proofs.Rehearsals
import Mathlib.Data.List.Pairwise

/-!
What a tree holds: its documents with blocks, in the order of a walk. Aging and telling of changes
do not touch it, since whoever has blocks is not idle. What is closed on the way held nothing. And a
document that was filled again holds what it held before.
-/
namespace Polyglot.Document

/-- What the documents with blocks are, and their blocks. -/
def holdings (d : Document) : List ((Identity × Config × Bool) × List Block) :=
  (d.walk.map core).filter fun c => c.2 ≠ []

section

variable {d : Document}

theorem holdings_node (info : Info) (children parked : List Document) :
    (node info children parked).holdings =
      [(node info children parked).core].filter (fun c => c.2 ≠ []) ++
        children.flatMap holdings := by
  have hall : (children.flatMap walk).map core = children.flatMap fun c => c.walk.map core :=
    List.map_flatMap
  rw [holdings, walk, walkAll_eq, List.map_cons, hall, ← List.singleton_append, List.filter_append,
    List.filter_flatMap]
  rfl

theorem holdings_modify {f : Info → Info} (hcore : (d.modify f).core = d.core) :
    (d.modify f).holdings = d.holdings := by
  obtain ⟨info, children, parked⟩ := d
  rw [modify_node] at hcore ⊢
  rw [holdings_node, holdings_node, hcore]

theorem holdings_emitChanged (d : Document) : d.emitChanged.holdings = d.holdings := by
  rw [holdings, walk_emitChanged, holdings]

theorem mem_holdings {c : (Identity × Config × Bool) × List Block} :
    c ∈ d.holdings ↔ ∃ x ∈ d.walk, x.core = c ∧ x.info.blocks ≠ [] := by
  rw [holdings, List.mem_filter, List.mem_map]
  constructor
  · rintro ⟨⟨x, hx, rfl⟩, hheld⟩
    exact ⟨x, hx, rfl, of_decide_eq_true hheld⟩
  · rintro ⟨x, hx, rfl, hheld⟩
    exact ⟨⟨x, hx, rfl⟩, decide_eq_true hheld⟩

theorem holdings_of_blank (h : d.Blank) : d.holdings = [] := by
  rw [List.eq_nil_iff_forall_not_mem]
  intro c hc
  obtain ⟨x, hx, _, hheld⟩ := mem_holdings.mp hc
  exact hheld (h x (owns_of_mem_walk hx))

/-- Leaving blank documents out loses nothing. -/
theorem flatMap_holdings_filter {p : Document → Bool} {ds : List Document}
    (h : ∀ c ∈ ds, p c = false → c.Blank) :
    (ds.filter p).flatMap holdings = ds.flatMap holdings := by
  induction ds with
  | nil => rfl
  | cons c ds ih =>
    have hrest := ih fun b hb => h b (List.mem_cons_of_mem c hb)
    cases hp : p c with
    | true => rw [List.filter_cons_of_pos hp, List.flatMap_cons, List.flatMap_cons, hrest]
    | false =>
      rw [List.filter_cons_of_neg (Bool.eq_false_iff.mp hp), List.flatMap_cons, hrest,
        holdings_of_blank (h c List.mem_cons_self hp), List.nil_append]

/-- Who holds blocks is met in a walk. -/
theorem mem_walk_of_held {x : Document} (h : d.Throughout Emptied) (hx : d.Owns x)
    (hheld : x.info.blocks ≠ []) : x ∈ d.walk := by
  induction hx with
  | self d =>
    cases d
    rw [walk]
    exact List.mem_cons_self
  | @child d c x hc hx ih =>
    have hmem := ih (fun y hy => h y (Owns.child hc hy)) hheld
    obtain ⟨info, children, parked⟩ := d
    rw [walk, walkAll_eq]
    exact List.mem_cons_of_mem _ (List.mem_flatMap.mpr ⟨c, hc, hmem⟩)
  | @parked d c x hc hx _ => exact absurd (h d (Owns.self d) c hc x hx) hheld

end

/-! Sweeping and telling. -/

section

variable {context : Context} {next : Nat} {d : Document}

/-- A child that does not stay is blank. -/
theorem blank_of_not_staying {c : Document} (hd : d.Sound context next) (hidles : d.Idles)
    (hsettled : d.Settled) (hc : c ∈ d.children) (hgone : isStaying d.info.idle c = false) :
    c.Blank := by
  rcases hsettled c hc with hheld | ⟨hblank, _⟩
  · rw [(hidles.stays hd.sorted hc hheld).1] at hgone
    cases hgone
  · exact hblank

theorem holdings_swept {c : Document} (idle : List String)
    (h : c.closeExpired.holdings = c.holdings) :
    (swept idle c).drained.holdings = c.holdings := by
  rw [drained, holdings_modify (core_drained _)]
  unfold swept
  split
  · rw [aged, withLifetime, holdings_modify (core_withLifetime _ _), h]
  · exact h

theorem holdings_closeExpired (hd : d.Kept context next) (hidles : d.Throughout Idles) :
    d.closeExpired.holdings = d.holdings := by
  induction d using tree_induction with
  | step info children parked ihc _ =>
    have hcore := core_closeExpired (node info children parked)
    obtain ⟨hsound, hsteady, _⟩ := (steady_node _ _ _).mp hd.steady
    obtain ⟨hidle, hbelow, _⟩ := (throughout_node _ _ _ _).mp hidles
    obtain ⟨_, hpool, _⟩ := (throughout_node _ _ _ _).mp hd.pool
    obtain ⟨hsettled, hsettles, _⟩ := (throughout_node _ _ _ _).mp hd.settled
    have hkept : ∀ c ∈ children, (swept info.idle c).drained.holdings = c.holdings := fun c hc =>
      holdings_swept info.idle (ihc c hc ⟨hsteady c hc, hpool c hc, hsettles c hc⟩ (hbelow c hc))
    have hchildren : ((children.filter (isStaying info.idle)).map
        fun c => (swept info.idle c).drained).flatMap holdings = children.flatMap holdings := by
      rw [List.flatMap_map, List.flatMap_congr fun c hc => hkept c (List.mem_filter.mp hc).1]
      refine flatMap_holdings_filter ?_
      exact fun c hc hgone => blank_of_not_staying hsound hidle hsettled hc hgone
    rw [closeExpired, closeStaying_eq, List.map_map] at hcore ⊢
    rw [holdings_node, holdings_node, hcore]
    exact congrArg _ hchildren

/-- What is disposed of tells of nothing but the end of documents. -/
theorem closed_of_mem_outbox_dispose (h : d.Quiet) {ev : Event} (hev : ev ∈ d.dispose.outbox) :
    ∃ x, d.Owns x ∧ ev = x.id.event .closed := by
  induction d using offspring_induction with
  | step d ih =>
    obtain ⟨hself, howned⟩ := throughout_iff.mp h
    obtain ⟨info, children, parked⟩ := d
    have hout : info.outbox = [] := hself
    cases hlive : info.disposed with
    | true =>
      rw [dispose, hlive, if_pos rfl, outbox, info_node, hout] at hev
      cases hev
    | false =>
      rw [outbox_dispose hlive, hout, List.nil_append, List.mem_append] at hev
      rcases hev with hev | hev
      · obtain ⟨y, hy, hev⟩ := mem_outboxes.mp hev
        obtain ⟨c, hc, rfl⟩ := List.mem_map.mp hy
        obtain ⟨x, hx, rfl⟩ := ih c hc (howned c hc) hev
        exact ⟨x, owns_iff.mpr (Or.inr ⟨c, hc, hx⟩), rfl⟩
      · split at hev
        · cases hev
        · exact ⟨_, Owns.self _, List.mem_singleton.mp hev⟩

/-- A sweep closes documents that hold nothing. -/
theorem closed_of_mem_outbox_closeExpired (hd : d.Kept context next) (hidles : d.Throughout Idles)
    (hquiet : d.drained.Quiet) {ev : Event} (hev : ev ∈ d.closeExpired.outbox) :
    ev ∈ d.outbox ∨ ∃ x, d.Owns x ∧ x.info.blocks = [] ∧ ev = x.id.event .closed := by
  induction d using tree_induction with
  | step info children parked ihc _ =>
    obtain ⟨hsound, hsteady, _⟩ := (steady_node _ _ _).mp hd.steady
    obtain ⟨hidle, hbelow, _⟩ := (throughout_node _ _ _ _).mp hidles
    obtain ⟨_, hpool, _⟩ := (throughout_node _ _ _ _).mp hd.pool
    obtain ⟨hsettled, hsettles, _⟩ := (throughout_node _ _ _ _).mp hd.settled
    have hall := quiet_drained_iff.mp hquiet
    have hown : ∀ {c : Document}, c ∈ children → c ∈ (node info children parked).offspring :=
      fun hc => List.mem_append_left _ hc
    rw [outbox_closeExpired, List.mem_append] at hev
    refine hev.imp_right fun hev => ?_
    obtain ⟨y, hy, hev⟩ := mem_outboxes.mp hev
    rcases List.mem_append.mp hy with hy | hy
    · obtain ⟨c, hc, rfl⟩ := List.mem_map.mp hy
      have hmem := mem_offspring_of_mem_expired hc
      have hblank : c.Blank := by
        rw [expired, List.mem_append, List.mem_filter, List.mem_filter] at hc
        rcases hc with ⟨hc, hgone⟩ | ⟨hc, _⟩
        · refine blank_of_not_staying hsound hidle hsettled hc ?_
          rw [isStaying]
          simpa using hgone
        · exact hsound.blank c hc
      obtain ⟨x, hx, rfl⟩ := closed_of_mem_outbox_dispose (hall c hmem) hev
      exact ⟨x, owns_iff.mpr (Or.inr ⟨c, hmem, hx⟩), hblank x hx, rfl⟩
    · obtain ⟨c, hc, rfl⟩ := List.mem_map.mp hy
      have hc := (List.mem_filter.mp hc).1
      rw [outbox_swept] at hev
      have hquietc := hall c (hown hc)
      rcases ihc c hc ⟨hsteady c hc, hpool c hc, hsettles c hc⟩ (hbelow c hc) hquietc.drained hev with
        hev | ⟨x, hx, hblank, rfl⟩
      · rw [hquietc.self] at hev
        cases hev
      · exact ⟨x, Owns.child hc hx, hblank, rfl⟩

theorem noted_modify {f : Info → Info} (h : d.Noted) (hcore : (d.modify f).core = d.core)
    (hlast : (f d.info).lastValue = d.info.lastValue) : (d.modify f).Noted := by
  refine forall_mem_walk_modify ?_ h
  intro hself
  rw [value_eq_of_core_eq hcore, ← hself, ← hlast]
  cases d
  rfl

theorem noted_node (info : Info) (children parked : List Document) :
    (node info children parked).Noted ↔
      info.lastValue = some (node info children parked).value ∧ ∀ c ∈ children, c.Noted := by
  rw [Noted, walk, walkAll_eq, List.forall_mem_cons]
  refine and_congr_right fun _ => ?_
  constructor
  · exact fun h c hc x hx => h x (List.mem_flatMap.mpr ⟨c, hc, hx⟩)
  · intro h x hx
    obtain ⟨c, hc, hx⟩ := List.mem_flatMap.mp hx
    exact h c hc x hx

theorem noted_closeExpired (h : d.Noted) : d.closeExpired.Noted := by
  induction d using tree_induction with
  | step info children parked ihc _ =>
    obtain ⟨hself, hchildren⟩ := (noted_node _ _ _).mp h
    rw [closeExpired, closeStaying_eq, List.map_map, noted_node]
    refine ⟨hself, ?_⟩
    intro c hc
    obtain ⟨x, hx, rfl⟩ := List.mem_map.mp hc
    have hmem := (List.mem_filter.mp hx).1
    have hnoted := ihc x hmem (hchildren x hmem)
    have hswept : (swept info.idle x).Noted := by
      unfold swept
      split
      · exact noted_modify hnoted (core_withLifetime _ _) rfl
      · exact hnoted
    exact noted_modify hswept (core_drained _) rfl

/-- Whoever has noted its buffer has no change to tell. -/
theorem outbox_emitChanged_of_noted (h : d.Noted) (hquiet : d.drained.Quiet) :
    d.emitChanged.outbox = d.outbox := by
  induction d using tree_induction with
  | step info children parked ihc _ =>
    obtain ⟨hself, hchildren⟩ := (noted_node _ _ _).mp h
    have hall := quiet_drained_iff.mp hquiet
    have hnote : noteChange info = info := by
      unfold noteChange
      exact if_pos hself
    have hnone : outboxes (children.map emitChanged) = [] := by
      rw [outboxes, List.flatMap_map, List.flatMap_eq_nil_iff]
      intro c hc
      have hquietc := hall c (List.mem_append_left _ hc)
      rw [ihc c hc (hchildren c hc) hquietc.drained]
      exact hquietc.self
    rw [outbox_emitChanged, hnote, hnone, List.append_nil]
    rfl

end

/-! Filled again. -/

/-- Lists in the order of keys are the same to whoever finds in each key the same. -/
theorem map_eq_of_sorted {α : Type} {f : Document → α} {ds es : List Document} (hds : Sorted ds)
    (hes : Sorted es) (hto : ∀ d ∈ ds, ∃ e ∈ es, e.key = d.key ∧ f e = f d)
    (hfrom : ∀ e ∈ es, ∃ d ∈ ds, d.key = e.key) : ds.map f = es.map f := by
  have hpairs : ∀ {l : List Document}, Sorted l →
      (l.map fun d => (d.key, f d)).Pairwise (·.1 < ·.1) := by
    intro l hl
    rw [List.pairwise_map]
    exact hl
  have hnodup : ∀ {l : List Document}, Sorted l → (l.map fun d => (d.key, f d)).Nodup := by
    intro l hl
    refine (hpairs hl).imp ?_
    intro p q hlt heq
    rw [heq] at hlt
    exact String.lt_irrefl _ hlt
  have hmem : ∀ p, p ∈ ds.map (fun d => (d.key, f d)) ↔ p ∈ es.map (fun d => (d.key, f d)) := by
    intro p
    constructor
    · intro hp
      obtain ⟨d, hd, rfl⟩ := List.mem_map.mp hp
      obtain ⟨e, he, hkey, hf⟩ := hto d hd
      exact List.mem_map.mpr ⟨e, he, by rw [hkey, hf]⟩
    · intro hp
      obtain ⟨e, he, rfl⟩ := List.mem_map.mp hp
      obtain ⟨d, hd, hkey⟩ := hfrom e he
      obtain ⟨e', he', hkey', hf⟩ := hto d hd
      obtain rfl := hes.eq_of_key_eq he he' (hkey.symm.trans hkey'.symm)
      exact List.mem_map.mpr ⟨d, hd, by rw [hkey, hf]⟩
  have hperm := (List.perm_ext_iff_of_nodup (hnodup hds) (hnodup hes)).mpr hmem
  have hsame := hperm.eq_of_pairwise (fun p q _ _ hlt hgt => absurd hgt (String.lt_asymm hlt))
    (hpairs hds) (hpairs hes)
  have := congrArg (List.map Prod.snd) hsame
  rwa [List.map_map, List.map_map] at this

section

variable {context : Context} {next : Nat} {d whole d' : Document}

/-- A document that was filled again has noted its buffer, and holds what it held. -/
theorem Rehearses.restored (h : Rehearses d whole d') (hwhole : d = whole)
    (hsettled : d.Throughout Settled) (hd' : d'.Steady context next) :
    d'.Noted ∧ d'.holdings = d.holdings := by
  have hcore := h.core_eq
  induction h with
  | @intro d whole d' P hreh hbelow ih =>
    subst hwhole
    -- all was put to use, so that each document corresponds to itself
    have hsame : ∀ {c x x'}, P c x x' → c = x ∧ x' ∈ d'.children := by
      intro c x x' hP
      obtain ⟨hx, hheld⟩ := hreh.part c x x' hP
      rcases hreh.place c x x' hP with ⟨hc, _, hx'⟩ | ⟨_, hnone, _⟩
      · refine ⟨hreh.sorted.eq_of_key_eq hc hx ?_, hx'⟩
        exact congrArg Identity.key (id_eq_of_nature_eq (hbelow c x x' hP).natures.1)
      · exact absurd rfl (hnone x hx hheld)
    have hagain : ∀ {c x x'}, P c x x' → x'.core = x.core ∧ x'.Noted ∧ x'.holdings = x.holdings := by
      intro c x x' hP
      obtain ⟨rfl, hx'⟩ := hsame hP
      have hcore' := (hbelow c c x' hP).core_eq
      exact ⟨hcore', ih c c x' hP rfl (fun y hy => hsettled y (Owns.child (hreh.part c c x' hP).1 hy))
        (fun y hy => hd' y (Owns.child hx' hy)) hcore'⟩
    have hblank : ∀ c ∈ d.children, decide (c.info.blocks ≠ []) = false → c.Blank := by
      intro c hc hnil
      have hnil := not_not.mp (of_decide_eq_false hnil)
      rcases hsettled.self c hc with hheld | ⟨hblank, _⟩
      · exact absurd hnil hheld
      · exact hblank
    have hblank' : ∀ y ∈ d'.children, decide (y.info.blocks ≠ []) = false → y.Blank := by
      intro y hy hnil
      have hnil := not_not.mp (of_decide_eq_false hnil)
      rcases hreh.rest y hy with ⟨c, x, hP⟩ | ⟨hblank, _⟩
      · have hblocks : y.info.blocks = x.info.blocks := congrArg Prod.snd (hagain hP).1
        exact absurd (hblocks.symm.trans hnil) (hreh.part c x y hP).2
      · exact hblank
    have hkey : ∀ {x x' : Document}, x'.core = x.core → x'.key = x.key := fun hcore =>
      congrArg Identity.key (id_eq_of_core_eq hcore)
    have hlists : (d'.children.filter fun c => c.info.blocks ≠ []).map holdings =
        (d.children.filter fun c => c.info.blocks ≠ []).map holdings := by
      refine map_eq_of_sorted (hd'.self.sorted.sublist List.filter_sublist)
        (hreh.sorted.sublist List.filter_sublist) ?_ ?_
      · intro y hy
        obtain ⟨hy, hheld⟩ := List.mem_filter.mp hy
        rcases hreh.rest y hy with ⟨c, x, hP⟩ | ⟨hblank, _⟩
        · obtain ⟨hx, hheldx⟩ := hreh.part c x y hP
          obtain ⟨hcorex, _, hholdings⟩ := hagain hP
          exact ⟨x, List.mem_filter.mpr ⟨hx, decide_eq_true hheldx⟩, (hkey hcorex).symm,
            hholdings.symm⟩
        · exact absurd hblank.self (of_decide_eq_true hheld)
      · intro x hx
        obtain ⟨hx, hheld⟩ := List.mem_filter.mp hx
        obtain ⟨c, x', hP⟩ := hreh.all x hx (of_decide_eq_true hheld)
        have hcorex := (hagain hP).1
        have hblocks : x'.info.blocks = x.info.blocks := congrArg Prod.snd hcorex
        refine ⟨x', List.mem_filter.mpr ⟨(hsame hP).2, ?_⟩, hkey hcorex⟩
        rw [hblocks]
        exact hheld
    have hchildren : d'.children.flatMap holdings = d.children.flatMap holdings := by
      rw [← flatMap_holdings_filter hblank', ← flatMap_holdings_filter hblank, List.flatMap_def,
        hlists, ← List.flatMap_def]
    have hvalue := value_eq_of_core_eq hcore
    have hnoted := hreh.noted
    have hrest := hreh.rest
    obtain ⟨info, children, parked⟩ := d
    obtain ⟨info', children', parked'⟩ := d'
    refine ⟨(noted_node _ _ _).mpr ⟨hnoted.trans (congrArg some hvalue.symm), ?_⟩, ?_⟩
    · intro y hy
      rcases hrest y hy with ⟨c, x, hP⟩ | ⟨_, hnotedy⟩
      · exact (hagain hP).2.1
      · exact hnotedy
    · rw [holdings_node, holdings_node, hcore]
      exact congrArg _ hchildren

/-- A number belongs to one document of a tree. -/
theorem eq_of_number_eq (h : d.numbers.Nodup) {x y : Document} (hx : d.Owns x) (hy : d.Owns y)
    (hnumber : x.id.number = y.id.number) : x = y := by
  have hmem : ∀ {c z : Document}, c.Owns z → z.id.number ∈ c.numbers := by
    intro c z hz
    induction hz with
    | self c =>
      cases c
      rw [numbers_node]
      exact List.mem_cons_self
    | @child c b z hb _ ih =>
      obtain ⟨info, children, parked⟩ := c
      rw [numbers_node]
      exact List.mem_cons_of_mem _ (List.mem_flatMap.mpr ⟨b, List.mem_append_left _ hb, ih⟩)
    | @parked c b z hb _ ih =>
      obtain ⟨info, children, parked⟩ := c
      rw [numbers_node]
      exact List.mem_cons_of_mem _ (List.mem_flatMap.mpr ⟨b, List.mem_append_right _ hb, ih⟩)
  induction d using offspring_induction with
  | step d ih =>
    have hsplit : d.numbers = d.id.number :: d.offspring.flatMap numbers := by
      cases d
      exact numbers_node _ _ _
    rw [hsplit, List.nodup_cons, List.nodup_flatMap] at h
    obtain ⟨hself, hnodups, hdisjoint⟩ := h
    have hin : ∀ {c z : Document}, c ∈ d.offspring → c.Owns z →
        z.id.number ∈ d.offspring.flatMap numbers := fun hc hz =>
      List.mem_flatMap.mpr ⟨_, hc, hmem hz⟩
    rcases owns_iff.mp hx with rfl | ⟨c, hc, hcx⟩
    · rcases owns_iff.mp hy with rfl | ⟨c', hc', hcy⟩
      · rfl
      · exact absurd (hnumber ▸ hin hc' hcy) hself
    · rcases owns_iff.mp hy with rfl | ⟨c', hc', hcy⟩
      · exact absurd (hnumber ▸ hin hc hcx) hself
      · by_cases hcc : c = c'
        · subst hcc
          exact ih c hc (hnodups c hc) hcx hcy
        · have : Std.Symm (Function.onFun List.Disjoint numbers) :=
            ⟨fun _ _ h _ hx hy => h hy hx⟩
          have hdis := hdisjoint.forall hc hc' hcc
          exact absurd (hnumber ▸ hmem hcy) (hdis (hmem hcx))

end

end Polyglot.Document
