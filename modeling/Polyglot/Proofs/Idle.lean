import Polyglot.Proofs.Families

/-!
Idle children. Emptying a document notes all children that it keeps as idle, and whoever takes code
is no longer idle; so a child that is idle has no blocks, in every tree that can arise. When a tree
ages, documents with blocks therefore stay.
-/
namespace Polyglot.Document

/-- What is noted as idle is the key of a child without blocks, and is noted once. -/
structure Idles (d : Document) : Prop where
  nodup : d.info.idle.Nodup
  blank : ∀ key ∈ d.info.idle, ∃ c ∈ d.children, c.key = key ∧ c.info.blocks = []

/-- A child with blocks is not idle. -/
theorem Idles.not_mem {d c : Document} (h : d.Idles) (hsorted : Sorted d.children)
    (hc : c ∈ d.children) (hblocks : c.info.blocks ≠ []) : c.key ∉ d.info.idle := by
  intro hmem
  obtain ⟨x, hx, hkey, hblank⟩ := h.blank c.key hmem
  rw [hsorted.eq_of_key_eq hx hc hkey] at hblank
  exact hblocks hblank

/-- When a document ages, a child with blocks stays and is not aged. -/
theorem Idles.stays {d c : Document} (h : d.Idles) (hsorted : Sorted d.children)
    (hc : c ∈ d.children) (hblocks : c.info.blocks ≠ []) :
    isStaying d.info.idle c = true ∧ swept d.info.idle c = c.closeExpired := by
  have hbusy : d.info.idle.contains c.key = false := by
    have := h.not_mem hsorted hc hblocks
    simpa using this
  constructor
  · simp only [isStaying, hbusy, Bool.false_and, Bool.not_false]
  · rw [swept, hbusy]
    rfl

theorem idles_of_nil {d : Document} (h : d.info.idle = []) : d.Idles where
  nodup := by simp [h]
  blank := by simp [h]

theorem idles_modify {d : Document} {f : Info → Info} (h : d.Throughout Idles)
    (hf : (f d.info).idle = d.info.idle) : (d.modify f).Throughout Idles := by
  obtain ⟨info, children, parked⟩ := d
  rw [throughout_node] at h
  rw [info_node] at hf
  rw [modify_node, throughout_node]
  refine ⟨⟨?_, ?_⟩, h.2⟩
  · rw [info_node, hf]
    exact h.1.nodup
  · rw [info_node, hf]
    exact h.1.blank

theorem idles_leaf {info : Info} (h : info.idle = []) : (node info [] []).Throughout Idles := by
  rw [throughout_node]
  exact ⟨idles_of_nil h, by simp, by simp⟩

section

variable {context : Context} {next : Nat}

/-- Who is idle beside a chosen child was idle before. -/
theorem idles_chooseChild (hapart : context.SiblingsApart) {kind : Kind} {d d₁ child : Document}
    {n₁ : Nat} (hkind : context.Finds d.language kind) (hsteady : d.Steady context next)
    (h : d.Throughout Idles) (hc : chooseChild kind next d = ⟨d₁, n₁, .ok child⟩) :
    child.Throughout Idles ∧ d₁.info.idle.Nodup ∧
      ∀ key ∈ d₁.info.idle, key ∈ d.info.idle ∧ key ≠ child.key := by
  obtain ⟨info, children, parked⟩ := d
  obtain ⟨hself, hchildren, hparked⟩ := (throughout_node _ _ _ _).mp h
  have hfree : (∀ c ∈ children, c.key ≠ child.key) → ∀ key ∈ info.idle, key ≠ child.key := by
    intro hfresh key hkey heq
    obtain ⟨c, hmem, hc, _⟩ := hself.blank key hkey
    exact hfresh c hmem (hc.trans heq)
  cases hsteady.chosen hapart hkind hc with
  | @shared c _ hmem hkey =>
    refine ⟨idles_modify (hchildren c hmem) rfl, hself.nodup.erase _, ?_⟩
    intro key hidle
    rw [key_withLifetime, hkey]
    exact ((hself.nodup.mem_erase_iff).mp hidle).symm
  | @parked c earlier later _ hsplit _ hfresh =>
    subst hsplit
    exact ⟨idles_modify (hparked c (by simp)) rfl, hself.nodup,
      fun key hkey => ⟨hkey, hfree hfresh key hkey⟩⟩
  | new _ hfresh =>
    exact ⟨idles_leaf rfl, hself.nodup, fun key hkey => ⟨hkey, hfree hfresh key hkey⟩⟩

theorem idles_giveFragment (hapart : context.SiblingsApart) {editor : String} {below : Nat}
    (hgive : ∀ origin shift text next d, d.Steady context next ∧ d.Throughout Idles →
      (appendText context editor below origin shift text next d).document.Throughout Idles)
    {f : Fragment} (origin : Pos .editor) {d : Document} (hkind : context.Finds d.language f.kind)
    (hsteady : d.Steady context next) (h : d.Throughout Idles) :
    (giveFragment (appendText context editor below) editor origin f next d).document.Throughout
      Idles := by
  have hput : ∀ {d₁ child grown : Document} {n₁ : Nat},
      chooseChild f.kind next d = ⟨d₁, n₁, .ok child⟩ → grown.key = child.key →
      grown.Throughout Idles → (d₁.putChild grown).Throughout Idles := by
    intro d₁ child grown n₁ hc hkey hgrown
    obtain ⟨hchild, hnodup, hidle⟩ := idles_chooseChild hapart hkind hsteady h hc
    obtain ⟨hchildren, hparked, _⟩ := chooseChild_ok hc
    obtain ⟨info₁, children₁, parked₁⟩ := d₁
    obtain rfl : children₁ = insertByKey child d.children := hchildren
    rw [putChild, insertByKey_insertByKey hkey, throughout_node]
    obtain ⟨info, children, parked⟩ := d
    rw [throughout_node] at h
    refine ⟨⟨hnodup, ?_⟩, ?_, fun x hx => h.2.2 x (hparked hx)⟩
    · intro key hmem
      obtain ⟨hbefore, hne⟩ := hidle key hmem
      obtain ⟨c, hc, rfl, hblank⟩ := h.1.blank key hbefore
      exact ⟨c, mem_insertByKey_of_ne hc (hkey ▸ hne), rfl, hblank⟩
    · intro x hx
      rcases mem_insertByKey hx with rfl | hold
      · exact hgrown
      · exact h.2.1 x hold
  rcases giveFragment_cases (appendText context editor below) editor origin f next d with
    ⟨d₁, n₁, e, hc, heq⟩ | ⟨d₁, n₁, child, grown, n₂, e, hc, hg, heq⟩ |
    ⟨d₁, n₁, child, grown, n₂, hc, hg, heq⟩
  · rw [heq, (chooseChild_error hc).1]
    exact h
  · obtain ⟨_, _, hnature, hgrown⟩ := hsteady.keeps_grown hapart hgive hkind hc hg
      (idles_chooseChild hapart hkind hsteady h hc).1
    rw [heq]
    exact hput hc (congrArg Identity.key (id_eq_of_nature_eq hnature)) hgrown
  · obtain ⟨_, _, hnature, hgrown⟩ := hsteady.keeps_grown hapart hgive hkind hc hg
      (idles_chooseChild hapart hkind hsteady h hc).1
    rw [heq]
    refine idles_modify (hput hc ?_ (idles_modify hgrown rfl)) rfl
    exact congrArg Identity.key (id_eq_of_nature_eq ((nature_drained grown).trans hnature))

theorem idles_appendText (hapart : context.SiblingsApart) (editor : String) (levels : Nat)
    (origin : Pos .editor) (shift : Option (Pos .source)) (text : Text) {d : Document}
    (hsteady : d.Steady context next) (h : d.Throughout Idles) :
    (appendText context editor levels origin shift text next d).document.Throughout Idles := by
  refine hsteady.keeps_appendText hapart editor ?_ ?_ levels origin shift text h
  · intro below hbelow n e f origin hkind hsteady he
    exact idles_giveFragment hapart hbelow origin hkind hsteady he
  · exact fun e b he => idles_modify he rfl

theorem idles_clear {d : Document} (hsteady : d.Steady context next) (h : d.Throughout Idles) :
    d.clear.Throughout Idles := by
  induction d using tree_induction with
  | step info children parked ihc _ =>
    have hcleared := hsteady.clear.self.sorted
    have hblank := hsteady.blank_clear
    obtain ⟨_, hchildren, hparked⟩ := (throughout_node _ _ _ _).mp h
    obtain ⟨_, hsteadies, _⟩ := (steady_node _ _ _).mp hsteady
    have hidle : (node info children parked).clear.info.idle =
        (node info children parked).clear.children.map key := by
      rw [clear]
      rfl
    refine throughout_clear ⟨?_, ?_⟩
      (fun x hx => idles_modify (ihc x hx (hsteadies x hx) (hchildren x hx)) rfl) hparked
    · rw [hidle, List.Nodup, List.pairwise_map]
      exact hcleared.imp fun hlt => ne_of_lt hlt
    · intro key hkey
      rw [hidle] at hkey
      obtain ⟨c, hc, rfl⟩ := List.mem_map.mp hkey
      exact ⟨c, hc, rfl, hblank c (Owns.child hc (Owns.self c))⟩

theorem idles_closeExpired {d : Document} (h : d.Throughout Idles) :
    d.closeExpired.Throughout Idles := by
  induction d using tree_induction with
  | step info children parked ihc _ =>
    obtain ⟨_, hchildren, hparked⟩ := (throughout_node _ _ _ _).mp h
    rw [closeExpired, throughout_node, closeStaying_eq, List.map_map]
    refine ⟨idles_of_nil rfl, ?_, ?_⟩
    · intro c hc
      obtain ⟨x, hx, rfl⟩ := List.mem_map.mp hc
      have hmem := (List.mem_filter.mp hx).1
      have hswept : (swept info.idle x).Throughout Idles := by
        unfold swept
        split
        · exact idles_modify (ihc x hmem (hchildren x hmem)) rfl
        · exact ihc x hmem (hchildren x hmem)
      exact idles_modify hswept rfl
    · intro c hc
      obtain ⟨x, hx, rfl⟩ := List.mem_map.mp hc
      exact idles_modify (hparked x (List.mem_filter.mp hx).1) rfl

theorem idles_emitChanged {d : Document} (h : d.Throughout Idles) :
    d.emitChanged.Throughout Idles := by
  induction d using tree_induction with
  | step info children parked ihc _ =>
    obtain ⟨hself, hchildren, hparked⟩ := (throughout_node _ _ _ _).mp h
    obtain ⟨lastValue, outbox, hnote⟩ := noteChange_eq info
    rw [emitChanged, throughout_node, emitChangedAll_eq, List.map_map]
    refine ⟨⟨?_, ?_⟩, ?_, hparked⟩
    · simp only [info_node, hnote]
      exact hself.nodup
    · simp only [info_node, hnote]
      intro key hkey
      obtain ⟨c, hc, rfl, hblank⟩ := hself.blank key hkey
      have hcore : c.emitChanged.drained.core = c.core :=
        (core_drained _).trans (core_emitChanged c)
      exact ⟨c.emitChanged.drained, List.mem_map_of_mem hc,
        congrArg Identity.key (id_eq_of_core_eq hcore), (congrArg Prod.snd hcore).trans hblank⟩
    · intro c hc
      obtain ⟨x, hx, rfl⟩ := List.mem_map.mp hc
      exact idles_modify (ihc x hx (hchildren x hx)) rfl

/-- In every tree that can arise, idle children have no blocks. -/
theorem idles_of_reachable (hapart : context.SiblingsApart) {d : Document}
    (h : Reachable context next d) : d.Throughout Idles := by
  induction h with
  | root language path extension number => exact idles_leaf rfl
  | wait _ _ ih => exact ih
  | append levels text editor origin shift hd ih =>
    exact idles_appendText hapart editor levels origin shift text (steady_of_reachable hapart hd) ih
  | clear hd ih => exact idles_clear (steady_of_reachable hapart hd) ih
  | closeExpired _ ih => exact idles_closeExpired ih
  | emitChanged _ ih => exact idles_emitChanged ih
  | @dispose _ d _ ih =>
    obtain ⟨info, children, parked⟩ := d
    rw [dispose]
    split
    · exact ih
    · exact idles_leaf rfl
  | drained _ ih => exact idles_modify ih rfl

end

end Polyglot.Document
