import Polyglot.Proofs.Idle
import Polyglot.Proofs.Outboxes

/-!
Parked documents are a pool. They wait in the order of their numbers, the lowest last, and so the
lowest of a language is taken first: whoever of the language is in use has a lower number than those
who still wait. Nothing happens to them while they wait, and they own no standalone child.
-/
namespace Polyglot.Document

/-- Standalone documents that can take the same code. -/
def Rivals (d e : Document) : Prop :=
  d.id.kind.standalone = true ∧ e.id.kind.standalone = true ∧ d.language = e.language

/-- A document in which nothing waits, and that has no standalone child. -/
structure Fallow (d : Document) : Prop where
  silent : d.outbox = []
  shared : ∀ c ∈ d.children, c.id.kind.standalone = false

structure Pool (d : Document) : Prop where
  sorted : d.parked.Pairwise fun p q => q.id.number < p.id.number
  beyond : ∀ p ∈ d.parked, ∀ c ∈ d.children, c.Rivals p → c.id.number < p.id.number
  fallow : ∀ p ∈ d.parked, p.Throughout Fallow

theorem rivals_congr {c c' d d' : Document} (hc : c.id = c'.id) (hd : d.id = d'.id) :
    c.Rivals d ↔ c'.Rivals d' := by
  rw [Rivals, Rivals, language, language, language, language, hc, hd]

theorem fallow_withLifetime {d : Document} (h : d.Throughout Fallow) (lifetime : Nat) :
    (d.withLifetime lifetime).Throughout Fallow := by
  refine throughout_modify h ?_
  cases d
  exact ⟨h.self.silent, h.self.shared⟩

theorem pool_leaf (info : Info) : (node info [] []).Throughout Pool := by
  rw [throughout_node]
  refine ⟨⟨List.Pairwise.nil, ?_, ?_⟩, ?_, ?_⟩ <;> simp

/-- The identities of children may be those of fewer children. -/
theorem Pool.follow {d e : Document} (h : d.Pool) (hparked : e.parked = d.parked)
    (hchildren : ∀ c ∈ e.children, ∃ x ∈ d.children, x.id = c.id) : e.Pool where
  sorted := hparked ▸ h.sorted
  beyond p hp c hc hrivals := by
    obtain ⟨x, hx, hid⟩ := hchildren c hc
    rw [← hid]
    exact h.beyond p (hparked ▸ hp) x hx ((rivals_congr hid rfl).mpr hrivals)
  fallow p hp := h.fallow p (hparked ▸ hp)

theorem lasting_pool : Lasting Pool := by
  intro d e h _ hchildren hparked
  have hchild : ∀ c ∈ e.children, ∃ x ∈ d.children, x.id = c.id := by
    intro c hc
    obtain ⟨x, hx, hcore⟩ := List.mem_map.mp (hchildren.subset (List.mem_map_of_mem hc))
    exact ⟨x, hx, id_eq_of_core_eq hcore⟩
  have hid : ∀ p : Document, p.aged.id = p.id := fun p =>
    id_eq_of_nature_eq (nature_withLifetime p _)
  rcases hparked with hsub | hsub
  · refine ⟨h.sorted.sublist hsub, ?_, fun p hp => h.fallow p (hsub.subset hp)⟩
    intro p hp c hc hrivals
    obtain ⟨x, hx, hsame⟩ := hchild c hc
    rw [← hsame]
    exact h.beyond p (hsub.subset hp) x hx ((rivals_congr hsame rfl).mpr hrivals)
  · refine ⟨List.Pairwise.sublist hsub ?_, ?_, ?_⟩
    · rw [List.pairwise_map]
      refine h.sorted.imp ?_
      intro p q hlt
      rw [hid, hid]
      exact hlt
    · intro p hp c hc hrivals
      obtain ⟨q, hq, rfl⟩ := List.mem_map.mp (hsub.subset hp)
      obtain ⟨x, hx, hsame⟩ := hchild c hc
      rw [← hsame, hid]
      exact h.beyond q hq x hx ((rivals_congr hsame (hid q).symm).mpr hrivals)
    · intro p hp
      obtain ⟨q, hq, rfl⟩ := List.mem_map.mp (hsub.subset hp)
      exact fallow_withLifetime (h.fallow q hq) _

/-! Taking from the pool. -/

theorem takeParked_eq_none {language : String} {parked : List Document}
    (h : takeParked language parked = none) : ∀ p ∈ parked, p.language ≠ language := by
  unfold takeParked at h
  simp only [List.span_eq_takeWhile_dropWhile] at h
  split at h
  · rename_i hdrop
    rw [List.dropWhile_eq_nil_iff] at hdrop
    intro p hp
    simpa using hdrop p (List.mem_reverse.mpr hp)
  · cases h

/-- Of the documents of a language, the one with the lowest number is taken. -/
theorem Pool.takeParked_le {d p : Document} {language : String} {rest : List Document} (h : d.Pool)
    (htake : takeParked language d.parked = some (p, rest)) :
    p ∈ d.parked ∧ p.language = language ∧
      ∀ q ∈ d.parked, q.language = language → q = p ∨ q ∈ rest ∧ p.id.number < q.id.number := by
  obtain ⟨earlier, later, hparked, rfl, hlanguage, hlater⟩ := takeParked_eq_some htake
  have hsorted := h.sorted
  rw [hparked] at hsorted ⊢
  refine ⟨by simp, hlanguage, ?_⟩
  intro q hq hsame
  rcases List.mem_append.mp hq with hq | hq
  · refine Or.inr ⟨List.mem_append_left _ hq, ?_⟩
    exact (List.pairwise_append.mp hsorted).2.2 q hq p List.mem_cons_self
  · rcases List.mem_cons.mp hq with rfl | hq
    · exact Or.inl rfl
    · exact absurd hsame (hlater q hq)

section

variable {context : Context} {next : Nat}

theorem pool_chooseChild (hapart : context.SiblingsApart) {kind : Kind} {d d₁ child : Document}
    {n₁ : Nat} (hkind : context.Finds d.language kind) (hsteady : d.Steady context next)
    (h : d.Pool) (hc : chooseChild kind next d = ⟨d₁, n₁, .ok child⟩) : d₁.Pool := by
  obtain ⟨hlanguage, hstandalone⟩ := hsteady.kind_of_chooseChild hapart hkind hc
  obtain ⟨hchildren, hsub, _⟩ := chooseChild_ok hc
  obtain ⟨info, children, parked⟩ := d
  -- only the chosen child is new among those in use
  have hbeyond : (∀ p ∈ d₁.parked, child.Rivals p → child.id.number < p.id.number) →
      ∀ p ∈ d₁.parked, ∀ c ∈ d₁.children, c.Rivals p → c.id.number < p.id.number := by
    intro hchosen p hp c hc hrivals
    rw [hchildren] at hc
    rcases mem_insertByKey hc with rfl | hold
    · exact hchosen p hp hrivals
    · exact h.beyond p (hsub hp) c hold hrivals
  rcases chooseChild_cases kind next info children parked with
    ⟨c, hshared, _, heq⟩ | ⟨c, rest, halone, htake, heq⟩ | ⟨_, e, _, heq⟩ | ⟨hneeded, c, _, heq⟩
  · rw [heq] at hc
    cases hc
    refine ⟨h.sorted, hbeyond ?_, h.fallow⟩
    rintro p _ ⟨halone, _⟩
    rw [hstandalone, hshared] at halone
    cases halone
  · rw [heq] at hc
    cases hc
    obtain ⟨_, _, hlowest⟩ := h.takeParked_le htake
    obtain ⟨earlier, later, rfl, rfl, _, hlater⟩ := takeParked_eq_some htake
    have hsublist : (earlier ++ later).Sublist (earlier ++ c :: later) :=
      (List.Sublist.refl earlier).append (List.sublist_cons_self c later)
    refine ⟨h.sorted.sublist hsublist, hbeyond ?_, fun p hp => h.fallow p (hsublist.subset hp)⟩
    rintro p hp ⟨_, _, hsame⟩
    have hlower : c.id.number < p.id.number := by
      rcases List.mem_append.mp hp with hp | hp
      · exact (List.pairwise_append.mp h.sorted).2.2 p hp c List.mem_cons_self
      · exact absurd (hsame.symm.trans hlanguage) (hlater p hp)
    rwa [id_eq_of_nature_eq (nature_withLifetime c _)]
  · rw [heq] at hc
    cases hc
  · rw [heq] at hc
    cases hc
    refine ⟨h.sorted, hbeyond ?_, h.fallow⟩
    rintro p hp ⟨halone, _, hsame⟩
    -- a new document is needed only if nobody of the language waits
    rcases hneeded with ⟨_, hnone⟩ | ⟨hshared, _⟩
    · exact absurd (hsame.symm.trans hlanguage) (takeParked_eq_none hnone p hp)
    · rw [hstandalone, hshared] at halone
      cases halone

theorem pool_chosen (hapart : context.SiblingsApart) {kind : Kind} {d d₁ child : Document}
    {n₁ : Nat} (hkind : context.Finds d.language kind) (hsteady : d.Steady context next)
    (howned : ∀ c ∈ d.offspring, c.Throughout Pool)
    (hc : chooseChild kind next d = ⟨d₁, n₁, .ok child⟩) : child.Throughout Pool :=
  hsteady.throughout_chosen hapart hkind hc howned
    (fun c lifetime h => lasting_pool.modify h (core_withLifetime c lifetime)) fun _ => pool_leaf _

theorem pool_giveFragment (hapart : context.SiblingsApart) {editor : String} {below : Nat}
    (hgive : ∀ origin shift text next d, d.Steady context next ∧ d.Throughout Pool →
      (appendText context editor below origin shift text next d).document.Throughout Pool)
    {f : Fragment} (origin : Pos .editor) {d : Document} (hkind : context.Finds d.language f.kind)
    (hsteady : d.Steady context next) (h : d.Throughout Pool) :
    (giveFragment (appendText context editor below) editor origin f next d).document.Throughout
      Pool := by
  obtain ⟨hself, howned⟩ := throughout_iff.mp h
  have hput : ∀ {d₁ child grown : Document} {n₁ n₂ : Nat} {result : Except DocumentError Unit},
      chooseChild f.kind next d = ⟨d₁, n₁, .ok child⟩ →
      appendText context editor below (foreignOrigin origin f.range) f.shift f.text n₁ child =
        ⟨grown, n₂, result⟩ →
      grown.Throughout Pool ∧
        ∀ g : Document, g.nature = grown.nature → g.Throughout Pool →
          (d₁.putChild g).Throughout Pool := by
    intro d₁ child grown n₁ n₂ result hc hg
    have hchild := pool_chosen hapart hkind hsteady howned hc
    obtain ⟨hsteady₁, hmem, hnature, hgrown⟩ :=
      hsteady.keeps_grown hapart hgive hkind hc hg hchild
    refine ⟨hgrown, ?_⟩
    intro g hsame hpool
    have hid := id_eq_of_nature_eq (hsame.trans hnature)
    rw [throughout_iff]
    constructor
    · refine (pool_chooseChild hapart hkind hsteady hself hc).follow ?_ ?_
      · cases d₁
        rfl
      · intro c hc
        have hc : c ∈ insertByKey g d₁.children := by
          cases d₁
          exact hc
        rcases mem_insertByKey hc with rfl | hold
        · exact ⟨child, hmem, hid.symm⟩
        · exact ⟨c, hold, rfl⟩
    · intro x hx
      rcases (hsteady₁.self.mem_offspring_putChild hapart hmem
        (congrArg Identity.key hid)).mp hx with rfl | ⟨hx, _⟩
      · exact hpool
      · rcases (hsteady.mem_offspring_chooseChild hapart hkind hc).mp hx with rfl | ⟨hx, _⟩
        · exact hchild
        · exact howned x hx
  rcases giveFragment_cases (appendText context editor below) editor origin f next d with
    ⟨d₁, n₁, e, hc, heq⟩ | ⟨d₁, n₁, child, grown, n₂, e, hc, hg, heq⟩ |
    ⟨d₁, n₁, child, grown, n₂, hc, hg, heq⟩
  · rw [heq, (chooseChild_error hc).1]
    exact h
  · obtain ⟨hgrown, hback⟩ := hput hc hg
    rw [heq]
    exact hback grown rfl hgrown
  · obtain ⟨hgrown, hback⟩ := hput hc hg
    rw [heq]
    refine lasting_pool.modify (hback grown.drained (nature_drained grown) ?_) ?_
    · exact lasting_pool.modify hgrown (core_drained grown)
    · cases d₁
      rfl

theorem pool_appendText (hapart : context.SiblingsApart) (editor : String) (levels : Nat)
    (origin : Pos .editor) (shift : Option (Pos .source)) (text : Text) {d : Document}
    (hsteady : d.Steady context next) (h : d.Throughout Pool) :
    (appendText context editor levels origin shift text next d).document.Throughout Pool := by
  refine hsteady.keeps_appendText hapart editor ?_ ?_ levels origin shift text h
  · intro below hbelow n e f origin hkind hsteady he
    exact pool_giveFragment hapart hbelow origin hkind hsteady he
  · intro e b he
    refine throughout_modify he ?_
    obtain ⟨info, children, parked⟩ := e
    exact he.self.follow rfl fun c hc => ⟨c, hc, rfl⟩

/-! Filling the pool. -/

theorem mem_children_clear_iff {info : Info} {children parked : List Document} {c : Document} :
    c ∈ (node info children parked).clear.children ↔
      ∃ x ∈ children, x.id.kind.standalone = false ∧ x.clear.drained = c := by
  have hid : ∀ x : Document, x.clear.drained.id = x.id := fun x =>
    id_eq_of_nature_eq ((nature_drained _).trans (nature_clear x))
  rw [clear, clearAll_eq]
  simp only [List.partition_eq_filter_filter, children_node, List.map_map, List.mem_filter,
    List.mem_map, Function.comp_apply, Bool.not_eq_true']
  constructor
  · rintro ⟨⟨x, hx, rfl⟩, hshared⟩
    exact ⟨x, hx, hid x ▸ hshared, rfl⟩
  · rintro ⟨x, hx, hshared, rfl⟩
    exact ⟨⟨x, hx, rfl⟩, (hid x).symm ▸ hshared⟩

theorem mem_parked_clear_iff {info : Info} {children parked : List Document} {c : Document} :
    c ∈ (node info children parked).clear.parked ↔
      c ∈ parked ∨ ∃ x ∈ children, x.id.kind.standalone = true ∧ x.clear.drained = c := by
  have hid : ∀ x : Document, x.clear.drained.id = x.id := fun x =>
    id_eq_of_nature_eq ((nature_drained _).trans (nature_clear x))
  rw [clear, clearAll_eq]
  simp only [List.partition_eq_filter_filter, parked_node, List.map_map, sortParked,
    List.mem_mergeSort, List.mem_append, List.mem_filter, List.mem_map, Function.comp_apply]
  refine or_congr_right ⟨?_, ?_⟩
  · rintro ⟨⟨x, hx, rfl⟩, halone⟩
    exact ⟨x, hx, hid x ▸ halone, rfl⟩
  · rintro ⟨x, hx, halone, rfl⟩
    exact ⟨⟨x, hx, rfl⟩, (hid x).symm ▸ halone⟩

theorem children_drained (d : Document) : d.drained.children = d.children := by
  cases d
  rfl

theorem parked_drained (d : Document) : d.drained.parked = d.parked := by
  cases d
  rfl

theorem lastValue_drained (d : Document) : d.drained.info.lastValue = d.info.lastValue := by
  cases d
  rfl

/-- Nothing waits in an emptied tree, and its standalone documents are parked. -/
theorem fallow_clear {d : Document} (h : d.Throughout Pool) :
    d.clear.drained.Throughout Fallow := by
  induction d using tree_induction with
  | step info children parked ihc _ =>
    obtain ⟨hself, howned, _⟩ := (throughout_node _ _ _ _).mp h
    rw [throughout_iff, drained, offspring_modify, ← drained]
    refine ⟨⟨outbox_drained _, ?_⟩, ?_⟩
    · intro c hc
      rw [children_drained] at hc
      obtain ⟨x, _, hshared, rfl⟩ := mem_children_clear_iff.mp hc
      rwa [id_eq_of_nature_eq ((nature_drained _).trans (nature_clear x))]
    · intro c hc
      rcases mem_offspring_clear.mp hc with ⟨x, hx, rfl⟩ | hc
      · exact ihc x hx (howned x hx)
      · exact hself.fallow c hc

theorem pairwise_sortParked (ds : List Document) :
    (sortParked ds).Pairwise fun p q => q.id.number ≤ p.id.number := by
  have hsorted := @List.pairwise_mergeSort Document (fun p q => decide (q.id.number ≤ p.id.number))
    (fun p q r hpq hqr => by simp only [decide_eq_true_eq] at hpq hqr ⊢; omega)
    (fun p q => by simp only [Bool.or_eq_true, decide_eq_true_eq]; omega) ds
  exact hsorted.imp fun hle => of_decide_eq_true hle

theorem pool_clear {d : Document} (hsteady : d.Steady context next) (h : d.Throughout Pool) :
    d.clear.Throughout Pool := by
  induction d using tree_induction with
  | step info children parked ihc _ =>
    have hfallow := fallow_clear h
    have hcleared := hsteady.clear.self
    obtain ⟨hself, howned, hparked⟩ := (throughout_node _ _ _ _).mp h
    obtain ⟨_, hsteadies, _⟩ := (steady_node _ _ _).mp hsteady
    refine throughout_clear ⟨?_, ?_, ?_⟩
      (fun x hx => lasting_pool.modify (ihc x hx (hsteadies x hx) (howned x hx)) (core_drained _))
      hparked
    · have hdistinct := hcleared.family.distinct
      rw [List.map_append, List.nodup_append, List.map_map, List.map_map] at hdistinct
      have hnodup := hdistinct.2.1
      rw [List.Nodup, List.pairwise_map] at hnodup
      have hsorted : (node info children parked).clear.parked.Pairwise
          fun p q => q.id.number ≤ p.id.number := by
        rw [clear]
        exact pairwise_sortParked _
      refine hsorted.imp₂ ?_ hnodup
      intro p q hle hne
      exact Nat.lt_of_le_of_ne hle fun heq => hne heq.symm
    · rintro p _ c hc ⟨halone, _⟩
      obtain ⟨x, _, hshared, rfl⟩ := mem_children_clear_iff.mp hc
      rw [id_eq_of_nature_eq ((nature_drained _).trans (nature_clear x)), hshared] at halone
      cases halone
    · intro p hp
      refine (throughout_iff.mp hfallow).2 p ?_
      rw [drained, offspring_modify]
      exact List.mem_append_right _ hp

/-- In every tree that can arise, what is parked is a pool. -/
theorem pool_of_reachable (hapart : context.SiblingsApart) {d : Document}
    (h : Reachable context next d) : d.Throughout Pool := by
  induction h with
  | root language path extension number => exact pool_leaf _
  | wait _ _ ih => exact ih
  | append levels text editor origin shift hd ih =>
    exact pool_appendText hapart editor levels origin shift text (steady_of_reachable hapart hd) ih
  | clear hd ih => exact pool_clear (steady_of_reachable hapart hd) ih
  | closeExpired _ ih => exact lasting_pool.closeExpired ih
  | emitChanged _ ih => exact lasting_pool.emitChanged ih
  | @dispose _ d _ ih =>
    obtain ⟨info, children, parked⟩ := d
    rw [dispose]
    split
    · exact ih
    · exact pool_leaf _
  | drained _ ih => exact lasting_pool.modify ih (core_drained _)

end

end Polyglot.Document
