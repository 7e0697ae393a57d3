import Polyglot.Proofs.Holdings

/-!
A tree that was filled, swept, asked for its changes and emptied has all at hand that it held: its
shared children are still there, and its standalone ones wait in the pool, in front of all that were
parked already. So it is ready to be filled with the same texts.
-/
namespace Polyglot.Document

/-- A document after a rebuild, emptied for the next one. -/
def renewed (d : Document) : Document := d.closeExpired.emitChanged.clear.drained

theorem clear_drained (d : Document) : d.drained.clear.drained = d.clear.drained := by
  obtain ⟨info, children, parked⟩ := d
  have hself : (node info children parked).drained = node { info with outbox := [] } children parked :=
    rfl
  rw [hself, clear, clear]
  rfl

theorem emitChanged_drained (d : Document) : d.drained.emitChanged.drained = d.emitChanged.drained := by
  obtain ⟨info, children, parked⟩ := d
  have hself : (node info children parked).drained = node { info with outbox := [] } children parked :=
    rfl
  rw [hself, emitChanged, emitChanged, noteChange, noteChange]
  simp only
  split <;> rfl

theorem nature_renewed (d : Document) : d.renewed.nature = d.nature := by
  rw [renewed, nature_drained, nature_clear, nature_emitChanged, nature_closeExpired]

theorem blocks_renewed (d : Document) : d.renewed.info.blocks = [] := by
  rw [renewed]
  cases d.closeExpired.emitChanged
  rfl

theorem lastValue_renewed (d : Document) : d.renewed.info.lastValue = some d.value := by
  have hvalue := value_eq_of_core_eq ((core_emitChanged _).trans (core_closeExpired d))
  have hself := lastValue_of_mem_walk_emitChanged d.closeExpired d.closeExpired.emitChanged
  rw [renewed]
  revert hvalue hself
  obtain ⟨info, children, parked⟩ := d.closeExpired.emitChanged
  intro hvalue hself
  rw [← hvalue]
  exact hself (by rw [walk]; exact List.mem_cons_self)

section

variable {info : Info} {children parked : List Document} {y : Document}

/-- What a rebuild leaves of a filled document. -/
theorem exists_emitChanged_closeExpired : ∃ info',
    (node info children parked).closeExpired.emitChanged = node info'
      ((children.filter (isStaying info.idle)).map
        fun c => (swept info.idle c).drained.emitChanged.drained)
      ((parked.filter (!isExpiring ·)).map aged) := by
  rw [closeExpired, closeStaying_eq, emitChanged, emitChangedAll_eq, List.map_map, List.map_map,
    List.map_map]
  exact ⟨_, rfl⟩

/-- The children that stay, emptied, of one sort. -/
theorem exists_clear_swept_iff {alone : Bool} :
    (∃ x ∈ (children.filter (isStaying info.idle)).map
        fun c => (swept info.idle c).drained.emitChanged.drained,
      x.id.kind.standalone = alone ∧ x.clear.drained = y) ↔
    ∃ c ∈ children, isStaying info.idle c = true ∧ c.id.kind.standalone = alone ∧
      (swept info.idle c).emitChanged.clear.drained = y := by
  have hid : ∀ c : Document, (swept info.idle c).drained.emitChanged.drained.id = c.id := by
    intro c
    refine id_eq_of_core_eq ?_
    rw [core_drained, core_emitChanged, core_drained, core_swept]
  have hclear : ∀ c : Document, (swept info.idle c).drained.emitChanged.drained.clear.drained =
      (swept info.idle c).emitChanged.clear.drained := by
    intro c
    rw [emitChanged_drained, clear_drained]
  constructor
  · rintro ⟨x, hx, halone, rfl⟩
    obtain ⟨c, hc, rfl⟩ := List.mem_map.mp hx
    obtain ⟨hc, hstays⟩ := List.mem_filter.mp hc
    rw [hid] at halone
    exact ⟨c, hc, hstays, halone, (hclear c).symm⟩
  · rintro ⟨c, hc, hstays, halone, rfl⟩
    refine ⟨_, List.mem_map.mpr ⟨c, List.mem_filter.mpr ⟨hc, hstays⟩, rfl⟩, ?_, hclear c⟩
    rw [hid, halone]

theorem mem_children_renewed : y ∈ (node info children parked).renewed.children ↔
    ∃ c ∈ children, isStaying info.idle c = true ∧ c.id.kind.standalone = false ∧
      (swept info.idle c).emitChanged.clear.drained = y := by
  obtain ⟨info', htold⟩ := @exists_emitChanged_closeExpired info children parked
  rw [renewed, children_drained, htold, mem_children_clear_iff, exists_clear_swept_iff]

theorem mem_parked_renewed : y ∈ (node info children parked).renewed.parked ↔
    (∃ p ∈ parked, p.isExpiring = false ∧ p.aged = y) ∨
    ∃ c ∈ children, isStaying info.idle c = true ∧ c.id.kind.standalone = true ∧
      (swept info.idle c).emitChanged.clear.drained = y := by
  obtain ⟨info', htold⟩ := @exists_emitChanged_closeExpired info children parked
  rw [renewed, parked_drained, htold, mem_parked_clear_iff, exists_clear_swept_iff]
  simp only [List.mem_map, List.mem_filter, and_assoc, Bool.not_eq_eq_eq_not, Bool.not_true]

end

theorem noted_clear {d : Document} (hblank : d.Blank) (h : d.Noted) : d.clear.Noted := by
  induction d using tree_induction with
  | step info children parked ihc _ =>
    obtain ⟨hself, hchildren⟩ := (noted_node _ _ _).mp h
    have hblocks : info.blocks = [] := hblank.self
    have hbelow : ∀ c ∈ (node info children parked).clear.children, c.Noted := by
      intro c hc
      obtain ⟨x, hx, _, rfl⟩ := mem_children_clear_iff.mp hc
      have hnoted := ihc x hx (fun y hy => hblank y (Owns.child hx hy)) (hchildren x hx)
      exact noted_modify hnoted (core_drained _) rfl
    rw [clear] at hbelow ⊢
    refine (noted_node _ _ _).mpr ⟨?_, hbelow⟩
    rw [hself, value, value, info_node, info_node, hblocks]

section

variable {context : Context} {next : Nat} {c d : Document}

theorem lasting_blank : Lasting fun e => e.info.blocks = [] :=
  everywhere_lasting (Q := fun _ blocks => blocks = [])

theorem blank_swept (h : d.Blank) (idle : List String) : (swept idle d).Blank := by
  unfold swept
  split
  · exact lasting_blank.modify (lasting_blank.closeExpired h) (core_withLifetime _ _)
  · exact lasting_blank.closeExpired h

theorem blank_clear_of_blank (h : d.Blank) : d.clear.drained.Blank :=
  Everywhere.drained (Q := fun _ blocks => blocks = []) <|
    Document.blank_clear fun _ hx _ hp y hy => h y (hx.trans (Owns.parked hp hy))

/-- What was emptied, swept and asked for its changes goes through the same texts again. -/
theorem rehearses_renewed (hd : d.Kept context next) (hidles : d.Throughout Idles) (hc : c.Blank)
    (hnature : c.nature = d.nature) : Rehearses c d d.renewed := by
  induction d using tree_induction generalizing c with
  | step info children parked ihc _ =>
    obtain ⟨hsound, hsteady, _⟩ := (steady_node _ _ _).mp hd.steady
    obtain ⟨hidle, hbelow, _⟩ := (throughout_node _ _ _ _).mp hidles
    obtain ⟨hpool, hpools, _⟩ := (throughout_node _ _ _ _).mp hd.pool
    obtain ⟨hsettled, hsettles, _⟩ := (throughout_node _ _ _ _).mp hd.settled
    have hstays : ∀ {x : Document}, x ∈ children → x.info.blocks ≠ [] →
        isStaying info.idle x = true ∧ (swept info.idle x).emitChanged.clear.drained = x.renewed := by
      intro x hx hheld
      obtain ⟨hstays, hswept⟩ := hidle.stays hsound.sorted hx hheld
      exact ⟨hstays, congrArg (fun y => y.emitChanged.clear.drained) hswept⟩
    refine Rehearses.intro
      (fun b x x' => x ∈ children ∧ x.info.blocks ≠ [] ∧ b = x.clear ∧ x' = x.renewed) ?_ ?_
    · refine ⟨hnature, nature_renewed _, ?_, lastValue_renewed _, hsound.sorted, ?_, ?_, ?_, ?_, ?_⟩
      · rw [blocks_renewed, hc.self]
      · rintro _ x _ ⟨hx, hheld, _, _⟩
        exact ⟨hx, hheld⟩
      · rintro _ x _ ⟨hx, hheld, rfl, rfl⟩
        obtain ⟨hstay, hrenewed⟩ := hstays hx hheld
        refine Or.inr ⟨(hsteady x hx).blank_clear, ?_, ?_⟩
        · exact fun b hb hheldb => absurd (hc b (Owns.child hb (Owns.self b))) hheldb
        · cases halone : x.id.kind.standalone with
          | false => exact Or.inl ⟨rfl, mem_children_renewed.mpr ⟨x, hx, hstay, halone, hrenewed⟩⟩
          | true => exact Or.inr ⟨rfl, mem_parked_renewed.mpr (Or.inr ⟨x, hx, hstay, halone, hrenewed⟩)⟩
      · exact fun x hx hheld => ⟨x.clear, x.renewed, hx, hheld, rfl, rfl⟩
      · intro y hy
        obtain ⟨x, hx, _, _, rfl⟩ := mem_children_renewed.mp hy
        rcases hsettled x hx with hheld | ⟨hblank, _⟩
        · exact Or.inl ⟨x.clear, x, hx, hheld, rfl, (hstays hx hheld).2⟩
        · have htold := lasting_blank.emitChanged (blank_swept hblank info.idle)
          refine Or.inr ⟨blank_clear_of_blank htold, ?_⟩
          exact noted_modify (noted_clear htold (lastValue_of_mem_walk_emitChanged _))
            (core_drained _) rfl
      · intro y hy
        rcases mem_parked_renewed.mp hy with ⟨p, hp, _, rfl⟩ | ⟨x, hx, _, halone, rfl⟩
        · have hid : p.aged.id = p.id := id_eq_of_nature_eq (nature_withLifetime p _)
          refine Or.inr fun x hx _ hrivals => ?_
          rw [hid]
          exact hpool.beyond p hp x hx ((rivals_congr rfl hid).mp hrivals)
        · rcases hsettled x hx with hheld | ⟨_, hshared⟩
          · exact Or.inl ⟨x.clear, x, hx, hheld, rfl, (hstays hx hheld).2⟩
          · rw [halone] at hshared
            cases hshared
    · rintro _ x _ ⟨hx, _, rfl, rfl⟩
      exact ihc x hx ⟨hsteady x hx, hpools x hx, hsettles x hx⟩ (hbelow x hx)
        (hsteady x hx).blank_clear (nature_clear x)

end

end Polyglot.Document
