import Polyglot.Proofs.Sweeps
import Polyglot.Proofs.TakenTexts

/-!
Rehearsals. A tree that was filled once has all that it needs to be filled with the same texts once
more: each piece of code finds the document that took it before. Three documents are compared for
this: the one that is filled for the first time, what it will have become in the end, and the one
that is filled again. Of the last, what was not yet put to use must be at hand, a shared child among
the children, and a standalone one in the pool, where nobody else of its language waits in front.
-/
namespace Polyglot.Document

/-- Every document of the tree has noted its buffer. -/
def Noted (d : Document) : Prop := ∀ x ∈ d.walk, x.info.lastValue = some x.value

/-- A document that is filled, what it becomes, and one that is filled again. `P` relates the
children with blocks of the second to those of the first that became them, or will become them, and
to those of the third that are to follow. -/
structure Rehearsal (P : Document → Document → Document → Prop) (d whole d' : Document) : Prop where
  nature_eq : d.nature = whole.nature
  nature_eq' : d'.nature = whole.nature
  blocks_eq : d'.info.blocks = d.info.blocks
  noted : d'.info.lastValue = some whole.value
  sorted : Sorted whole.children
  part : ∀ c x x', P c x x' → x ∈ whole.children ∧ x.info.blocks ≠ []
  place : ∀ c x x', P c x x' →
    (c ∈ d.children ∧ c.info.blocks ≠ [] ∧ x' ∈ d'.children) ∨
    (c.Blank ∧ (∀ b ∈ d.children, b.info.blocks ≠ [] → b.key ≠ x.key) ∧
      (x.id.kind.standalone = false ∧ x' ∈ d'.children ∨
        x.id.kind.standalone = true ∧ x' ∈ d'.parked))
  all : ∀ x ∈ whole.children, x.info.blocks ≠ [] → ∃ c x', P c x x'
  rest : ∀ y ∈ d'.children, (∃ c x, P c x y) ∨ y.Blank ∧ y.Noted
  pool : ∀ y ∈ d'.parked, (∃ c x, P c x y) ∨
    ∀ x ∈ whole.children, x.info.blocks ≠ [] → x.Rivals y → x.id.number < y.id.number

inductive Rehearses : Document → Document → Document → Prop
  | intro {d whole d' : Document} (P : Document → Document → Document → Prop) :
      Rehearsal P d whole d' → (∀ c x x', P c x x' → Rehearses c x x') → Rehearses d whole d'

section

variable {P : Document → Document → Document → Prop} {d whole d' : Document}

theorem Rehearses.natures (h : Rehearses d whole d') :
    d.nature = whole.nature ∧ d'.nature = whole.nature := by
  obtain ⟨P, hreh, _⟩ := h
  exact ⟨hreh.nature_eq, hreh.nature_eq'⟩

theorem Rehearses.ids (h : Rehearses d whole d') : d.id = whole.id ∧ d'.id = whole.id :=
  ⟨id_eq_of_nature_eq h.natures.1, id_eq_of_nature_eq h.natures.2⟩

theorem Rehearses.follow (h : Rehearses d whole d') {e : Document} (hcore : e.core = d.core)
    (hchildren : e.children = d.children) : Rehearses e whole d' := by
  obtain ⟨P, hreh, hbelow⟩ := h
  refine Rehearses.intro P { hreh with nature_eq := ?_, blocks_eq := ?_, place := ?_ } hbelow
  · exact (congrArg Prod.fst hcore).trans hreh.nature_eq
  · exact hreh.blocks_eq.trans (congrArg Prod.snd hcore).symm
  · rw [hchildren]
    exact hreh.place

theorem Rehearses.follow_right (h : Rehearses d whole d') {e' : Document} (hcore : e'.core = d'.core)
    (hlast : e'.info.lastValue = d'.info.lastValue) (hchildren : e'.children = d'.children)
    (hparked : e'.parked = d'.parked) : Rehearses d whole e' := by
  obtain ⟨P, hreh, hbelow⟩ := h
  refine Rehearses.intro P { hreh with
    nature_eq' := ?_, blocks_eq := ?_, noted := ?_, place := ?_, rest := ?_, pool := ?_ } hbelow
  · exact (congrArg Prod.fst hcore).trans hreh.nature_eq'
  · exact (congrArg Prod.snd hcore).trans hreh.blocks_eq
  · exact hlast.trans hreh.noted
  · rw [hchildren, hparked]
    exact hreh.place
  · rw [hchildren]
    exact hreh.rest
  · rw [hparked]
    exact hreh.pool

/-- Of a document without blocks it does not matter which other documents without blocks it owns. -/
theorem Rehearses.of_blank (h : Rehearses d whole d') (hd : d.Blank) {e : Document} (he : e.Blank)
    (hnature : e.nature = d.nature) : Rehearses e whole d' := by
  obtain ⟨P, hreh, hbelow⟩ := h
  have hnone : ∀ {x b : Document}, x.Blank → b ∈ x.children → b.info.blocks = [] :=
    fun hx hb => hx _ (Owns.child hb (Owns.self _))
  refine Rehearses.intro P { hreh with nature_eq := ?_, blocks_eq := ?_, place := ?_ } hbelow
  · exact hnature.trans hreh.nature_eq
  · rw [hreh.blocks_eq, hd.self, he.self]
  · intro c x x' hP
    rcases hreh.place c x x' hP with ⟨hc, hheld, _⟩ | ⟨hblank, _, hat⟩
    · exact absurd (hnone hd hc) hheld
    · exact Or.inr ⟨hblank, fun b hb hheld => absurd (hnone he hb) hheld, hat⟩

/-- Both get the same block. -/
theorem Rehearsal.finds (h : Rehearsal P d whole d') {context : Context} {kind : Kind}
    (hkind : context.Finds d.language kind) : context.Finds d'.language kind := by
  rw [language, id_eq_of_nature_eq (h.nature_eq'.trans h.nature_eq.symm)]
  exact hkind

theorem Rehearsal.push (h : Rehearsal P d whole d') (block : Block) :
    Rehearsal P (d.push block) whole (d'.push block) := by
  have hblocks := h.blocks_eq
  obtain ⟨info, children, parked⟩ := d
  obtain ⟨info', children', parked'⟩ := d'
  refine { h with blocks_eq := ?_ }
  exact congrArg (· ++ [block]) hblocks

end

/-! Choosing a child again. -/

section

variable {context : Context} {next m : Nat} {P : Document → Document → Document → Prop}
  {d whole d' : Document}

/-- Shared code goes to the child of its language again. -/
theorem chooseChild_shared {kind : Kind} {x' : Document} (hd' : d'.Steady context m)
    (hshared : kind.standalone = false) (hx' : x' ∈ d'.children) (hkey : x'.key = kind.language) :
    ∃ d₁' lifetime, chooseChild kind m d' = ⟨d₁', m, .ok (x'.withLifetime lifetime)⟩ := by
  have hsorted := hd'.self.sorted
  obtain ⟨info, children, parked⟩ := d'
  have hfind : children.find? (·.key = kind.language) = some x' := by
    rw [← hkey]
    exact hsorted.find?_eq_some hx'
  rcases chooseChild_cases kind m info children parked with
    ⟨c, _, hfind', heq⟩ | ⟨_, _, halone, _, _⟩ | ⟨hneeded, _⟩ | ⟨hneeded, _⟩
  · obtain rfl : c = x' := Option.some.inj (hfind'.symm.trans hfind)
    exact ⟨_, _, heq⟩
  · rw [hshared] at halone
    cases halone
  all_goals
    rcases hneeded with ⟨halone, _⟩ | ⟨_, hnone⟩
    · rw [hshared] at halone
      cases halone
    · rw [hfind] at hnone
      cases hnone

/-- Standalone code goes to the parked document of its language with the lowest number. -/
theorem chooseChild_alone {kind : Kind} {x' : Document} (hpool : d'.Pool)
    (halone : kind.standalone = true) (hx' : x' ∈ d'.parked) (hlanguage : x'.language = kind.language)
    (hlowest : ∀ y ∈ d'.parked, y.language = kind.language → ¬ y.id.number < x'.id.number) :
    ∃ d₁' lifetime, chooseChild kind m d' = ⟨d₁', m, .ok (x'.withLifetime lifetime)⟩ := by
  obtain ⟨info, children, parked⟩ := d'
  rcases chooseChild_cases kind m info children parked with
    ⟨_, hshared, _, _⟩ | ⟨c, rest, _, htake, heq⟩ | ⟨hneeded, _⟩ | ⟨hneeded, _⟩
  · rw [halone] at hshared
    cases hshared
  · obtain ⟨hmem, hsame, hall⟩ := hpool.takeParked_le htake
    rcases hall x' hx' hlanguage with rfl | ⟨_, hlt⟩
    · exact ⟨_, _, heq⟩
    · exact absurd hlt (hlowest c hmem hsame)
  all_goals
    rcases hneeded with ⟨_, hnone⟩ | ⟨hshared, _⟩
    · exact absurd hlanguage (takeParked_eq_none hnone x' hx')
    · rw [halone] at hshared
      cases hshared

/-- The child that is chosen for code goes on to what it will become. -/
theorem Rehearsal.chosen (hapart : context.SiblingsApart) {kind : Kind} {d₁ child c x x' : Document}
    {n₁ : Nat} (hkind : context.Finds d.language kind) (h : Rehearsal P d whole d')
    (hbelow : ∀ c x x', P c x x' → Rehearses c x x') (hd : d.Kept context next)
    (hc : Document.chooseChild kind next d = ⟨d₁, n₁, .ok child⟩) (hP : P c x x')
    (hnature : x.nature = child.nature) :
    Rehearses child x x' ∧ (kind.standalone = true → x.id.kind.standalone = true →
      x' ∈ d'.parked) := by
  have hid : x.id = child.id := id_eq_of_nature_eq hnature
  have hidc : c.id = child.id := (hbelow c x x' hP).ids.1.trans hid
  rcases hd.held_or_free hapart hkind hc with ⟨hshared, b, hb, hheldb, lifetime, rfl⟩ | ⟨hblank, hfree⟩
  · -- a child in use takes more code
    rw [id_eq_of_nature_eq (nature_withLifetime b lifetime)] at hid hidc
    refine ⟨?_, fun halone => by rw [halone] at hshared; cases hshared⟩
    rcases h.place c x x' hP with ⟨hmem, _, _⟩ | ⟨_, hnone, _⟩
    · obtain rfl := hd.steady.self.sorted.eq_of_key_eq hmem hb (congrArg Identity.key hidc)
      refine (hbelow c x x' hP).follow (core_withLifetime c lifetime) ?_
      cases c
      rfl
    · exact absurd (congrArg Identity.key hid.symm) (hnone b hb hheldb)
  · -- a blank one is put to use
    rcases h.place c x x' hP with ⟨hmem, hheldc, _⟩ | ⟨hblankc, _, hat⟩
    · exact absurd (congrArg Identity.key hidc) (hfree c hmem hheldc)
    · refine ⟨(hbelow c x x' hP).of_blank hblankc hblank
        (hnature.symm.trans (hbelow c x x' hP).natures.1.symm), ?_⟩
      intro _ halone
      rcases hat with ⟨hshared, _⟩ | ⟨_, hmem⟩
      · rw [halone] at hshared
        cases hshared
      · exact hmem

/-- Whoever waits in front of the one that is to follow would have been put to use before. -/
theorem Rehearsal.not_lt_of_parked {child x y : Document} (h : Rehearsal P d whole d')
    (hbelow : ∀ c x x', P c x x' → Rehearses c x x') (hd' : d'.Kept context m)
    (hx : x ∈ whole.children) (hheld : x.info.blocks ≠ []) (hid : x.id = child.id)
    (horder : ∀ z ∈ whole.children, z.info.blocks ≠ [] → z.Rivals child →
      z.id.number < child.id.number → ∃ b ∈ d.children, b.info.blocks ≠ [] ∧ b.key = z.key)
    (hy : y ∈ d'.parked) (hrivals : y.Rivals child) : ¬ y.id.number < child.id.number := by
  intro hlt
  rcases h.pool y hy with ⟨b, z, hP⟩ | hbehind
  · obtain ⟨hz, hheldz⟩ := h.part b z y hP
    have hidz : y.id = z.id := (hbelow b z y hP).ids.2
    obtain ⟨a, ha, hhelda, hkeya⟩ :=
      horder z hz hheldz ((rivals_congr hidz rfl).mp hrivals) (hidz ▸ hlt)
    rcases h.place b z y hP with ⟨_, _, hmemy⟩ | ⟨_, hnone, _⟩
    · exact hd'.steady.self.not_mem_parked hmemy hy
    · exact hnone a ha hhelda hkeya
  · obtain ⟨hone, htwo, hsame⟩ := hrivals
    have hgt := hbehind x hx hheld ((rivals_congr hid rfl).mpr ⟨htwo, hone, hsame.symm⟩)
    rw [hid] at hgt
    omega

/-- The child that is chosen for code will be a child with blocks, and none of its language with a
lower number is put to use after it. Then the document that is filled again chooses the one that is
to follow. -/
theorem Rehearsal.chooseChild (hapart : context.SiblingsApart) {kind : Kind} {d₁ child x : Document}
    {n₁ : Nat} (hkind : context.Finds d.language kind) (h : Rehearsal P d whole d')
    (hbelow : ∀ c x x', P c x x' → Rehearses c x x') (hd : d.Kept context next)
    (hd' : d'.Kept context m) (hc : Document.chooseChild kind next d = ⟨d₁, n₁, .ok child⟩)
    (hx : x ∈ whole.children) (hheld : x.info.blocks ≠ []) (hnature : x.nature = child.nature)
    (horder : ∀ z ∈ whole.children, z.info.blocks ≠ [] → z.Rivals child →
      z.id.number < child.id.number → ∃ b ∈ d.children, b.info.blocks ≠ [] ∧ b.key = z.key) :
    ∃ d₁' child', Document.chooseChild kind m d' = ⟨d₁', m, .ok child'⟩ ∧
      Rehearses child x child' := by
  obtain ⟨hlanguage, hstandalone⟩ := hd.steady.kind_of_chooseChild hapart hkind hc
  obtain ⟨c, x', hP⟩ := h.all x hx hheld
  obtain ⟨hrehearses, hwaits⟩ := h.chosen hapart hkind hbelow hd hc hP hnature
  have hid : x.id = child.id := id_eq_of_nature_eq hnature
  have hid' : x'.id = child.id := (hbelow c x x' hP).ids.2.trans hid
  have hchosen : ∃ d₁' lifetime,
      Document.chooseChild kind m d' = ⟨d₁', m, .ok (x'.withLifetime lifetime)⟩ := by
    cases hkind' : kind.standalone with
    | false =>
      have hmem : x' ∈ d'.children := by
        rcases h.place c x x' hP with ⟨_, _, hmem⟩ | ⟨_, _, ⟨_, hmem⟩ | ⟨halone, _⟩⟩
        · exact hmem
        · exact hmem
        · rw [hid, hstandalone, hkind'] at halone
          cases halone
      refine chooseChild_shared hd'.steady hkind' hmem ?_
      rw [key, hid', Identity.key, Identity.keyOf, hstandalone, hkind']
      exact hlanguage
    | true =>
      have halone : x.id.kind.standalone = true := by rw [hid, hstandalone, hkind']
      have hlang' : x'.language = kind.language := by
        rw [language, hid']
        exact hlanguage
      refine chooseChild_alone hd'.pool.self hkind' (hwaits hkind' halone) hlang' ?_
      intro y hy hlangy
      have hrivals : y.Rivals child :=
        ⟨hd'.steady.self.family.alone y.id (List.mem_map_of_mem hy), hstandalone.trans hkind',
          hlangy.trans hlanguage.symm⟩
      rw [hid']
      exact h.not_lt_of_parked hbelow hd' hx hheld hid horder hy hrivals
  obtain ⟨d₁', lifetime, hc'⟩ := hchosen
  refine ⟨d₁', x'.withLifetime lifetime, hc',
    hrehearses.follow_right (core_withLifetime x' lifetime) ?_ ?_ ?_⟩ <;>
  · cases x'
    rfl

end

/-! Taking a text again. -/

section

variable {context : Context} {editor : String} {next n m : Nat}
  {P : Document → Document → Document → Prop} {d whole d' e : Document}

theorem entryFor_eq {c c' : Document} (hcore : c'.core = c.core) (editor : String)
    (shift : Option (Pos .source)) : entryFor c' editor shift = entryFor c editor shift := by
  obtain ⟨hid, hconfig, _⟩ := nature_eq_iff.mp (congrArg Prod.fst hcore)
  have hblocks : c'.info.blocks = c.info.blocks := congrArg Prod.snd hcore
  rw [entryFor, entryFor, bufferLines, bufferLines, sourceLines, sourceLines, hconfig, hblocks, key,
    key, hid]

theorem Rehearses.core_eq (h : Rehearses d whole d') : d'.core = d.core := by
  obtain ⟨P, hreh, _⟩ := h
  exact Prod.ext (hreh.nature_eq'.trans hreh.nature_eq.symm) hreh.blocks_eq

/-- The children that took the same code again take their old places. -/
theorem Rehearsal.handover {below m₁ : Nat} {origin : Pos .editor} {f : Fragment}
    {e' d₁ d₁' child child' grown grown' x : Document} {n₁ : Nat} (h : Rehearsal P d whole d')
    (hbelow : ∀ c x x', P c x x' → Rehearses c x x') (hd : d.Kept context next)
    (hd' : d'.Kept context m)
    (hand : Handover context editor below origin f next d n e d₁ n₁ child grown)
    (hand' : Handover context editor below origin f m d' m₁ e' d₁' m₁ child' grown')
    (hx : x ∈ whole.children) (hheld : x.info.blocks ≠ [])
    (hgrown : Rehearses grown.drained x grown'.drained) :
    ∃ P', Rehearsal P' e whole e' ∧ ∀ c x x', P' c x x' → Rehearses c x x' := by
  obtain ⟨hid, hid'⟩ := hgrown.ids
  have hkey : child.key = x.key := congrArg Identity.key (hand.id_eq.symm.trans hid)
  have hkey' : child'.key = x.key := congrArg Identity.key (hand'.id_eq.symm.trans hid')
  -- what corresponded before has one key in all three documents
  have hkeys : ∀ {c z z'}, P c z z' → c.key = z.key ∧ z'.key = z.key := by
    intro c z z' hP
    obtain ⟨hone, htwo⟩ := (hbelow c z z' hP).ids
    exact ⟨congrArg Identity.key hone, congrArg Identity.key htwo⟩
  have hmem : ∀ {y}, y ∈ e.children ↔ y = grown.drained ∨ y ∈ d.children ∧ y.key ≠ x.key := by
    intro y
    rw [hand.mem_children hd.steady, hkey]
  have hmem' : ∀ {y}, y ∈ e'.children ↔ y = grown'.drained ∨ y ∈ d'.children ∧ y.key ≠ x.key := by
    intro y
    rw [hand'.mem_children hd'.steady, hkey']
  have hwaits : ∀ {y}, y ∈ e'.parked ↔ y ∈ d'.parked ∧ y.key ≠ x.key := by
    intro y
    rw [hand'.mem_parked hd'.steady, hkey']
  have hlast : e'.info.lastValue = d'.info.lastValue := by
    obtain ⟨_, _, hinfo⟩ := hand'.host
    rw [hinfo]
  refine ⟨fun c z z' => c = grown.drained ∧ z = x ∧ z' = grown'.drained ∨ P c z z' ∧ z.key ≠ x.key,
    ⟨hand.host.nature_eq.trans h.nature_eq, hand'.host.nature_eq.trans h.nature_eq', ?_,
      hlast.trans h.noted, h.sorted, ?_, ?_, ?_, ?_, ?_⟩, ?_⟩
  · rw [hand.host.blocks_eq, hand'.host.blocks_eq, h.blocks_eq]
  · rintro c z z' (⟨rfl, rfl, rfl⟩ | ⟨hP, _⟩)
    · exact ⟨hx, hheld⟩
    · exact h.part c z z' hP
  · rintro c z z' (⟨rfl, rfl, rfl⟩ | ⟨hP, hne⟩)
    · exact Or.inl ⟨hmem.mpr (Or.inl rfl), hand.held_drained, hmem'.mpr (Or.inl rfl)⟩
    · obtain ⟨hkeyc, hkeyz⟩ := hkeys hP
      have hchild : z' ∈ d'.children → z' ∈ e'.children := fun hz =>
        hmem'.mpr (Or.inr ⟨hz, hkeyz ▸ hne⟩)
      rcases h.place c z z' hP with ⟨hc, hheldc, hz⟩ | ⟨hblank, hnone, hat⟩
      · exact Or.inl ⟨hmem.mpr (Or.inr ⟨hc, hkeyc ▸ hne⟩), hheldc, hchild hz⟩
      · refine Or.inr ⟨hblank, ?_, ?_⟩
        · intro b hb hheldb
          rcases hmem.mp hb with rfl | ⟨hb, _⟩
          · exact fun heq => hne (heq.symm.trans (congrArg Identity.key hid))
          · exact hnone b hb hheldb
        · rcases hat with ⟨hshared, hz⟩ | ⟨halone, hz⟩
          · exact Or.inl ⟨hshared, hchild hz⟩
          · exact Or.inr ⟨halone, hwaits.mpr ⟨hz, hkeyz ▸ hne⟩⟩
  · intro z hz hheldz
    by_cases hsame : z.key = x.key
    · obtain rfl := h.sorted.eq_of_key_eq hz hx hsame
      exact ⟨_, _, Or.inl ⟨rfl, rfl, rfl⟩⟩
    · obtain ⟨c, z', hP⟩ := h.all z hz hheldz
      exact ⟨c, z', Or.inr ⟨hP, hsame⟩⟩
  · intro y hy
    rcases hmem'.mp hy with rfl | ⟨hy, hne⟩
    · exact Or.inl ⟨grown.drained, x, Or.inl ⟨rfl, rfl, rfl⟩⟩
    · rcases h.rest y hy with ⟨c, z, hP⟩ | hblank
      · exact Or.inl ⟨c, z, Or.inr ⟨hP, (hkeys hP).2 ▸ hne⟩⟩
      · exact Or.inr hblank
  · intro y hy
    obtain ⟨hold, hne⟩ := hwaits.mp hy
    rcases h.pool y hold with ⟨c, z, hP⟩ | hbehind
    · exact Or.inl ⟨c, z, Or.inr ⟨hP, (hkeys hP).2 ▸ hne⟩⟩
    · exact Or.inr hbehind
  · rintro c z z' (⟨rfl, rfl, rfl⟩ | ⟨hP, _⟩)
    · exact hgrown
    · exact hbelow c z z' hP

/-- A child that took code before takes it again. -/
theorem Rehearsal.giveFragment (hapart : context.SiblingsApart) {below : Nat}
    (hgive : ∀ {origin shift text n n₁ m c x c' g}, c.Kept context n → c'.Kept context m →
      Rehearses c x c' → Unfolds g x →
      appendText context editor below origin shift text n c = ⟨g, n₁, .ok ()⟩ →
      ∃ g', appendText context editor below origin shift text m c' = ⟨g', m, .ok ()⟩ ∧
        Rehearses g x g')
    {origin : Pos .editor} {f : Fragment} {note : Range .text × ForeignBlock}
    (hkind : context.Finds d.language f.kind) (h : Rehearsal P d whole d')
    (hbelow : ∀ c x x', P c x x' → Rehearses c x x') (hd : d.Kept context next)
    (hd' : d'.Kept context m) (hunfolds : Unfolds e whole)
    (hok : Document.giveFragment (appendText context editor below) editor origin f next d =
      ⟨e, n, .ok note⟩) :
    ∃ P' e', Document.giveFragment (appendText context editor below) editor origin f m d' =
        ⟨e', m, .ok note⟩ ∧
      Rehearsal P' e whole e' ∧ ∀ c x x', P' c x x' → Rehearses c x x' := by
  obtain ⟨d₁, n₁, child, grown, hand, rfl⟩ := hd.steady.handover hapart hkind hok
  obtain ⟨become, _, hstays, horder, hunfolded⟩ := hunfolds
  have hgrown : grown.drained ∈ e.children := (hand.mem_children hd.steady).mpr (Or.inl rfl)
  obtain ⟨hx, hheld⟩ := hstays _ hgrown hand.held_drained
  have hunfold := hunfolded _ hgrown hand.held_drained
  have hnature : (become grown.drained).nature = child.nature :=
    hunfold.nature_eq.trans ((nature_drained grown).trans hand.nature_eq)
  obtain ⟨d₁', child', hc', hchild⟩ := h.chooseChild hapart hkind hbelow hd hd' hand.chosen hx hheld
    hnature (by
      intro z hz hheldz hrivals hlt
      rw [← hand.id_eq] at hlt
      obtain ⟨b, hb, hheldb, hid⟩ := horder _ hgrown hand.held_drained z hz hheldz
        ((rivals_congr rfl hand.id_eq.symm).mp hrivals) hlt
      rcases (hand.mem_children hd.steady).mp hb with rfl | ⟨hb, _⟩
      · rw [hid] at hlt
        omega
      · exact ⟨b, hb, hheldb, congrArg Identity.key hid⟩)
  have hkind' := h.finds hkind
  obtain ⟨grown', hg', hagain⟩ := hgive (hd.chosen hapart hkind hand.chosen)
    (hd'.chosen hapart hkind' hc') hchild
    ((Unfolds.modify grown (nature_drained grown)).trans hunfold) hand.taken
  have hok' : Document.giveFragment (appendText context editor below) editor origin f m d' =
      ⟨(d₁'.putChild grown'.drained).emit grown'.outbox, m,
        .ok (f.range, entryFor child editor f.shift)⟩ := by
    rw [Document.giveFragment, hc', ← entryFor_eq hchild.core_eq editor f.shift]
    simp only [Outcome.bind, hg']
  obtain ⟨_, _, _, _, hand', _⟩ := hd'.steady.handover hapart hkind' hok'
  cases hand'.chosen.symm.trans hc'
  cases hand'.taken.symm.trans hg'
  have hdrained : Rehearses grown.drained (become grown.drained) grown'.drained :=
    (hagain.follow (core_drained grown) (children_drained grown)).follow_right (core_drained grown')
      (lastValue_drained grown') (children_drained grown') (parked_drained grown')
  obtain ⟨P', hreh, hbelow'⟩ := h.handover hbelow hd hd' hand hand' hx hheld hdrained
  exact ⟨P', _, hok', hreh, hbelow'⟩

theorem Rehearsal.appendForeign (hapart : context.SiblingsApart) {below : Nat}
    (hgive : ∀ {origin shift text n n₁ m c x c' g}, c.Kept context n → c'.Kept context m →
      Rehearses c x c' → Unfolds g x →
      appendText context editor below origin shift text n c = ⟨g, n₁, .ok ()⟩ →
      ∃ g', appendText context editor below origin shift text m c' = ⟨g', m, .ok ()⟩ ∧
        Rehearses g x g')
    {origin : Pos .editor} {fragments : List Fragment} {notes : Notes}
    (hkinds : ∀ f ∈ fragments, context.Finds d.language f.kind) (h : Rehearsal P d whole d')
    (hbelow : ∀ c x x', P c x x' → Rehearses c x x') (hd : d.Kept context next)
    (hd' : d'.Kept context m) (hunfolds : Unfolds e whole)
    (hok : Document.appendForeign (appendText context editor below) editor origin fragments next d =
      ⟨e, n, .ok notes⟩) :
    ∃ P' e', Document.appendForeign (appendText context editor below) editor origin fragments m d' =
        ⟨e', m, .ok notes⟩ ∧
      Rehearsal P' e whole e' ∧ ∀ c x x', P' c x x' → Rehearses c x x' := by
  induction fragments generalizing P next d d' notes with
  | nil =>
    cases hok
    exact ⟨P, d', rfl, h, hbelow⟩
  | cons f rest ih =>
    obtain ⟨d₁, n₁, note, later, hone, hrest, rfl⟩ := appendForeign_cons_ok hok
    have hkind := hkinds f List.mem_cons_self
    have hhost := sameHost_giveFragment (appendText context editor below) editor origin f next d
    rw [hone] at hhost
    have hkinds₁ : ∀ g ∈ rest, context.Finds d₁.language g.kind := fun g hg =>
      hhost.language_eq ▸ hkinds g (List.mem_cons_of_mem f hg)
    have hd₁ := hd.giveFragment hapart hkind hone
    have hunfolds₁ := (unrolls_appendForeign hapart hkinds₁ hrest hd₁).2.trans hunfolds
    obtain ⟨P₁, d₁', hone', hreh₁, hbelow₁⟩ :=
      h.giveFragment hapart hgive hkind hbelow hd hd' hunfolds₁ hone
    obtain ⟨P₂, e', hrest', hreh₂, hbelow₂⟩ :=
      ih hkinds₁ hreh₁ hbelow₁ hd₁ (hd'.giveFragment hapart (h.finds hkind) hone') hrest
    refine ⟨P₂, e', ?_, hreh₂, hbelow₂⟩
    rw [Document.appendForeign, hone']
    simp only [Outcome.bind, hrest']

/-- A text that was taken is taken again, and no number is used up. -/
theorem Rehearses.appendText (hapart : context.SiblingsApart) {levels : Nat} {origin : Pos .editor}
    {shift : Option (Pos .source)} {text : Text} (h : Rehearses d whole d')
    (hd : d.Kept context next) (hd' : d'.Kept context m) (hunfolds : Unfolds e whole)
    (hok : Document.appendText context editor levels origin shift text next d = ⟨e, n, .ok ()⟩) :
    ∃ e', Document.appendText context editor levels origin shift text m d' = ⟨e', m, .ok ()⟩ ∧
      Rehearses e whole e' := by
  induction levels generalizing origin shift text next n m d whole d' e with
  | zero =>
    obtain ⟨_, _, _, _, hlevels, _⟩ := appendText_ok hok
    cases hlevels
  | succ below ih =>
    rcases appendText_cases context editor (below + 1) origin shift text next d with
      ⟨_, heq⟩ | ⟨_, _, _, _, _, _, _, _, heq⟩ |
      ⟨_, d₁, n₁, notes, kept, hlevels, hlive, hforeign, hkept, heq⟩
    · rw [heq] at hok
      cases hok
    · rw [heq] at hok
      cases hok
    · cases hlevels
      rw [heq] at hok
      cases hok
      obtain ⟨hid, _, hdisposed⟩ := nature_eq_iff.mp (congrArg Prod.fst h.core_eq)
      have hlanguage : d'.language = d.language := by
        rw [language, hid]
        rfl
      obtain ⟨P, hreh, hbelow⟩ := h
      have hunfolds₁ : Unfolds d₁ whole :=
        (Unfolds.modify d₁ (nature_modify d₁ rfl rfl rfl)).trans hunfolds
      obtain ⟨P₁, d₁', hforeign', hreh₁, hbelow₁⟩ := hreh.appendForeign hapart
        (fun hc hc' hcc hg htaken => ih hcc hc hc' hg htaken)
        (fun f hf => Fragment.finds_of_mem_peel hf) hbelow hd hd' hunfolds₁ hforeign
      have hhost := sameHost_of_appendForeign hforeign'
      have hpeel : Fragment.peel (context.extractors.forHost d'.language) text =
          ((Fragment.peel (context.extractors.forHost d.language) text).1, .ok kept) := by
        rw [hlanguage, ← hkept]
      refine ⟨_, ?_, Rehearses.intro P₁ (hreh₁.push _) hbelow₁⟩
      rw [appendText_succ (hdisposed.trans hlive) hpeel, hforeign']
      simp only [Outcome.bind, hhost.language_eq, hlanguage]

end

end Polyglot.Document
