import Polyglot.Proofs.Handovers
import Polyglot.Proofs.Pools

/-!
What taking texts does to a tree, where nothing fails. Each child has blocks then, or is blank and
shared. Where no number was used up, nothing was opened, and nothing was told. And the standalone
documents of a language are put to use in the order of their numbers.
-/
namespace Polyglot.Document

/-! Children with blocks. -/

/-- Each child has blocks, unless it is shared and blank. -/
def Settled (d : Document) : Prop :=
  ∀ c ∈ d.children, c.info.blocks ≠ [] ∨ c.Blank ∧ c.id.kind.standalone = false

section

variable {context : Context} {editor : String} {next n : Nat} {d e : Document}

theorem settled_law (context : Context) : HandoverLaw context Settled where
  leaf info := by simp [Settled]
  modify {d} f h := by
    cases d
    exact h
  hand hd _ hand h x hx := by
    rcases (hand.mem_children hd).mp hx with rfl | ⟨hx, _⟩
    · exact Or.inl hand.held_drained
    · exact h x hx

/-- Emptied trees have no standalone children, and all of them are blank. -/
theorem settled_clear (hd : d.Steady context next) (h : d.Throughout Pool) :
    d.clear.Throughout Settled := by
  have hblank := hd.blank_clear
  have hfallow := fallow_clear h
  have hsettled : d.clear.drained.Throughout Settled := by
    intro x hx c hc
    refine Or.inr ⟨?_, (hfallow x hx).shared c hc⟩
    have hall : d.clear.drained.Blank :=
      Everywhere.drained (Q := fun _ blocks => blocks = []) hblank
    exact fun y hy => hall y (hx.trans (Owns.child hc hy))
  rw [throughout_iff, drained, offspring_modify] at hsettled
  refine throughout_iff.mpr ⟨?_, hsettled.2⟩
  revert hsettled
  cases d.clear
  exact fun hsettled => hsettled.1

/-! Nothing is opened. -/

/-- All that a document owns was there before, and nothing was told. -/
structure Reuses (d e : Document) : Prop where
  outbox_eq : e.outbox = d.outbox
  owns : ∀ x, e.Owns x → ∃ y, d.Owns y ∧ y.id = x.id

theorem Reuses.refl (d : Document) : Reuses d d := ⟨rfl, fun x hx => ⟨x, hx, rfl⟩⟩

theorem Reuses.trans {c d e : Document} (h : Reuses c d) (h' : Reuses d e) : Reuses c e where
  outbox_eq := h'.outbox_eq.trans h.outbox_eq
  owns x hx := by
    obtain ⟨y, hy, hid⟩ := h'.owns x hx
    obtain ⟨z, hz, hid'⟩ := h.owns y hy
    exact ⟨z, hz, hid'.trans hid⟩

theorem exists_owns_of_modify {f : Info → Info} (hid : (f d.info).id = d.info.id) {x : Document}
    (hx : (d.modify f).Owns x) : ∃ y, d.Owns y ∧ y.id = x.id := by
  rcases owns_iff.mp hx with rfl | ⟨c, hc, hx⟩
  · refine ⟨d, Owns.self d, ?_⟩
    cases d
    exact hid.symm
  · rw [offspring_modify] at hc
    exact ⟨x, owns_iff.mpr (Or.inr ⟨c, hc, hx⟩), rfl⟩

/-- What taking code or a text does to a tree in which nothing waits: numbers are used up where
something is opened. -/
def Spares (context : Context) (next : Nat) (d : Document) (n : Nat) (e : Document) : Prop :=
  d.Steady context next ∧ d.drained.Quiet →
    (e.Steady context n ∧ e.drained.Quiet) ∧ next ≤ n ∧ (n = next → Reuses d e)

theorem Spares.refl (next : Nat) (d : Document) : Spares context next d next d :=
  fun h => ⟨h, Nat.le_refl next, fun _ => Reuses.refl d⟩

theorem Spares.trans {n₀ n₁ n₂ : Nat} {d₀ d₁ d₂ : Document} (h : Spares context n₀ d₀ n₁ d₁)
    (h' : Spares context n₁ d₁ n₂ d₂) : Spares context n₀ d₀ n₂ d₂ := by
  intro hd
  obtain ⟨hd₁, hle₁, hreuses₁⟩ := h hd
  obtain ⟨hd₂, hle₂, hreuses₂⟩ := h' hd₁
  refine ⟨hd₂, by omega, fun hsame => ?_⟩
  exact (hreuses₁ (by omega)).trans (hreuses₂ (by omega))

theorem spares_giveFragment (hapart : context.SiblingsApart) {below : Nat}
    (hgive : ∀ {origin shift text next d e n},
      appendText context editor below origin shift text next d = ⟨e, n, .ok ()⟩ →
      Spares context next d n e)
    {origin : Pos .editor} {f : Fragment} {note : Range .text × ForeignBlock}
    (hkind : context.Finds d.language f.kind)
    (hok : giveFragment (appendText context editor below) editor origin f next d =
      ⟨e, n, .ok note⟩) : Spares context next d n e := by
  intro ⟨hd, hquiet⟩
  obtain ⟨d₁, n₁, child, grown, hand, _⟩ := hd.handover hapart hkind hok
  obtain ⟨hle₁, hle₂⟩ := hand.le
  have hall := quiet_drained_iff.mp hquiet
  have hquiets : ∀ {origin shift text next d e n},
      appendText context editor below origin shift text next d = ⟨e, n, .ok ()⟩ →
      d.drained.Quiet → e.drained.Quiet := fun hok h => quiet_appendText hok h
  refine ⟨⟨hand.steady, quiet_giveFragment hquiets hok hquiet⟩, hle₁.trans hle₂, ?_⟩
  intro hsame
  rcases hd.chooseChild_cases hapart hkind hand.chosen with
    ⟨c, hold, lifetime, rfl, hn₁, hout⟩ | ⟨_, _, hn₁, _⟩
  · have hchild := (hall c hold).withLifetime lifetime
    have hgrown := (hgive hand.taken ⟨hand.child_steady, hchild.drained⟩).2.2 (by omega)
    refine ⟨?_, ?_⟩
    · rw [hand.outbox_eq, hout, hgrown.outbox_eq, hchild.self, List.append_nil]
    · intro x hx
      rcases owns_iff.mp hx with rfl | ⟨y, hy, hx⟩
      · exact ⟨d, Owns.self d, hand.host.id_eq.symm⟩
      · rcases hand.offspring.mp hy with rfl | ⟨hy, _⟩
        · obtain ⟨z, hz, hid⟩ := exists_owns_of_modify rfl hx
          obtain ⟨w, hw, hid'⟩ := hgrown.owns z hz
          obtain ⟨v, hv, hid''⟩ := exists_owns_of_modify rfl hw
          exact ⟨v, owns_iff.mpr (Or.inr ⟨c, hold, hv⟩), hid''.trans (hid'.trans hid)⟩
        · exact ⟨x, owns_iff.mpr (Or.inr ⟨y, hy, hx⟩), rfl⟩
  · omega

theorem spares_appendText (hapart : context.SiblingsApart) {levels : Nat} {origin : Pos .editor}
    {shift : Option (Pos .source)} {text : Text}
    (hok : appendText context editor levels origin shift text next d = ⟨e, n, .ok ()⟩) :
    Spares context next d n e := by
  refine appendText_ok_relates (R := Spares context) Spares.refl Spares.trans ?_ ?_ hok
  · intro below hbelow origin f next d e n note hkind hok
    exact spares_giveFragment hapart hbelow hkind hok
  · intro next d block h
    have hsteady := h.1.modify (nature_modify (d := d) (f := fun info =>
      { info with blocks := info.blocks ++ [block], lifetime := info.config.lifetime }) rfl rfl rfl)
    refine ⟨⟨hsteady, ?_⟩, Nat.le_refl next, fun _ => ⟨?_, ?_⟩⟩
    · rw [quiet_drained_iff, push, offspring_modify]
      exact quiet_drained_iff.mp h.2
    · cases d
      rfl
    · exact fun x hx => exists_owns_of_modify rfl hx

end

/-! Kept trees. -/

/-- A tree that is emptied and filled without a failure. -/
structure Kept (context : Context) (next : Nat) (d : Document) : Prop where
  steady : d.Steady context next
  pool : d.Throughout Pool
  settled : d.Throughout Settled

section

variable {context : Context} {editor : String} {next n : Nat} {d e : Document}

theorem kept_clear (hd : d.Steady context next) (h : d.Throughout Pool) :
    d.clear.Kept context next := ⟨hd.clear, pool_clear hd h, settled_clear hd h⟩

/-- Who is chosen for code has blocks already, or nobody with blocks has its key. -/
theorem Kept.held_or_free (hapart : context.SiblingsApart) {kind : Kind} {d₁ child : Document}
    {n₁ : Nat} (h : d.Kept context next) (hkind : context.Finds d.language kind)
    (hc : Document.chooseChild kind next d = ⟨d₁, n₁, .ok child⟩) :
    (kind.standalone = false ∧ ∃ c ∈ d.children, c.info.blocks ≠ [] ∧
      ∃ lifetime, child = c.withLifetime lifetime) ∨
    (child.Blank ∧ ∀ c ∈ d.children, c.info.blocks ≠ [] → c.key ≠ child.key) := by
  refine Steady.held_or_free hapart hkind h.steady ?_ hc
  intro b hb
  rcases h.settled.self b hb with hheld | ⟨hblank, _⟩
  · exact Or.inr hheld
  · exact Or.inl hblank

theorem Kept.push (h : d.Kept context next) (block : Block) : (d.push block).Kept context next := by
  refine ⟨h.steady.modify (nature_modify d rfl rfl rfl), throughout_modify h.pool ?_,
    (settled_law context).throughout_modify h.settled⟩
  obtain ⟨info, children, parked⟩ := d
  exact h.pool.self.follow rfl fun c hc => ⟨c, hc, rfl⟩

theorem Kept.giveFragment (hapart : context.SiblingsApart) {below : Nat} {origin : Pos .editor}
    {f : Fragment} {note : Range .text × ForeignBlock} (h : d.Kept context next)
    (hkind : context.Finds d.language f.kind)
    (hok : Document.giveFragment (Document.appendText context editor below) editor origin f next d =
      ⟨e, n, .ok note⟩) : e.Kept context n := by
  have hsteady := h.steady.giveFragment hapart editor below
    (fun o s t n c hc => hc.appendText hapart editor below o s t) origin hkind
  have hpool := pool_giveFragment hapart
    (fun o s t n c hc => pool_appendText hapart editor below o s t hc.1 hc.2) origin hkind h.steady
    h.pool
  rw [hok] at hsteady hpool
  have law := settled_law context
  exact ⟨hsteady, hpool,
    law.giveFragment hapart (law.appendText hapart) hkind h.steady h.settled hok⟩

theorem Kept.chosen (hapart : context.SiblingsApart) {kind : Kind} {d₁ child : Document} {n₁ : Nat}
    (h : d.Kept context next) (hkind : context.Finds d.language kind)
    (hc : Document.chooseChild kind next d = ⟨d₁, n₁, .ok child⟩) : child.Kept context n₁ :=
  ⟨(h.steady.chooseChild hapart hkind hc).2.1,
    pool_chosen hapart hkind h.steady (throughout_iff.mp h.pool).2 hc,
    (settled_law context).chosen hapart hkind h.steady (throughout_iff.mp h.settled).2 hc⟩

end

/-! The order of use. -/

/-- What a document is beside what it becomes: its children with blocks stay, and no standalone one
is put to use later that has a lower number than one of its language that is in use. -/
inductive Unfolds : Document → Document → Prop
  | intro {d e : Document} (f : Document → Document) : e.nature = d.nature →
      (∀ c ∈ d.children, c.info.blocks ≠ [] → f c ∈ e.children ∧ (f c).info.blocks ≠ []) →
      (∀ c ∈ d.children, c.info.blocks ≠ [] → ∀ x ∈ e.children, x.info.blocks ≠ [] → x.Rivals c →
        x.id.number < c.id.number → ∃ b ∈ d.children, b.info.blocks ≠ [] ∧ b.id = x.id) →
      (∀ c ∈ d.children, c.info.blocks ≠ [] → Unfolds c (f c)) → Unfolds d e

namespace Unfolds

theorem nature_eq {d e : Document} (h : Unfolds d e) : e.nature = d.nature := by
  obtain ⟨_, hnature, _, _, _⟩ := h
  exact hnature

theorem refl (d : Document) : Unfolds d d := by
  induction d using tree_induction with
  | step info children parked ihc _ =>
    exact intro (fun c => c) rfl (fun c hc hheld => ⟨hc, hheld⟩)
      (fun _ _ _ x hx hheld _ _ => ⟨x, hx, hheld, rfl⟩) fun c hc _ => ihc c hc

theorem trans {c d e : Document} (h : Unfolds c d) (h' : Unfolds d e) : Unfolds c e := by
  induction h generalizing e with
  | @intro c d f hnature hstays horder hunfolds ih =>
    obtain ⟨g, hnature', hstays', horder', hunfolds'⟩ := h'
    refine intro (g ∘ f) (hnature'.trans hnature) ?_ ?_ ?_
    · intro x hx hheld
      obtain ⟨hmem, hheld⟩ := hstays x hx hheld
      exact hstays' (f x) hmem hheld
    · intro x hx hheld y hy hheld' hrivals hlt
      obtain ⟨hmem, hheldf⟩ := hstays x hx hheld
      have hid := id_eq_of_nature_eq (hunfolds x hx hheld).nature_eq
      obtain ⟨b, hb, hheldb, hsame⟩ := horder' (f x) hmem hheldf y hy hheld'
        ((rivals_congr rfl hid.symm).mp hrivals) (hid ▸ hlt)
      rw [← hsame] at hlt ⊢
      exact horder x hx hheld b hb hheldb ((rivals_congr hsame rfl).mpr hrivals) hlt
    · intro x hx hheld
      obtain ⟨hmem, hheldf⟩ := hstays x hx hheld
      exact ih x hx hheld (hunfolds' (f x) hmem hheldf)

theorem modify (d : Document) {f : Info → Info} (hnature : (d.modify f).nature = d.nature) :
    Unfolds d (d.modify f) := by
  obtain ⟨info, children, parked⟩ := d
  exact intro (fun c => c) hnature (fun c hc hheld => ⟨hc, hheld⟩)
    (fun _ _ _ x hx hheld _ _ => ⟨x, hx, hheld, rfl⟩) fun c _ _ => refl c

end Unfolds

section

variable {context : Context} {editor : String} {next n : Nat} {d e : Document}

/-- A standalone child that is chosen has a higher number than all of its language in use. -/
theorem lt_of_rivals_chosen (hapart : context.SiblingsApart) {kind : Kind} {d₁ child : Document}
    {n₁ : Nat} (hkind : context.Finds d.language kind) (hd : d.Steady context next) (hpool : d.Pool)
    (hc : chooseChild kind next d = ⟨d₁, n₁, .ok child⟩) {x : Document} (hx : x ∈ d.children)
    (hrivals : child.Rivals x) : x.id.number < child.id.number := by
  obtain ⟨_, hstandalone⟩ := hd.kind_of_chooseChild hapart hkind hc
  have hid : ∀ (c : Document) (lifetime : Nat), (c.withLifetime lifetime).id = c.id :=
    fun c lifetime => id_eq_of_nature_eq (nature_withLifetime c lifetime)
  have hnumber := hd.self.family.numbered x.id
  obtain ⟨info, children, parked⟩ := d
  obtain ⟨halone, halone', hlanguage⟩ := hrivals
  cases hd.chosen hapart hkind hc with
  | shared hshared =>
    rw [hstandalone, hshared] at halone
    cases halone
  | @parked c earlier later _ hsplit _ _ =>
    rw [hid]
    rw [language, hid] at hlanguage
    rw [hid] at halone
    exact hpool.beyond c (by rw [parked_node, hsplit]; simp) x hx ⟨halone', halone, hlanguage.symm⟩
  | new _ _ => exact hnumber (List.mem_append_left _ (List.mem_map_of_mem hx))

theorem unfolds_giveFragment (hapart : context.SiblingsApart) {below : Nat}
    (hgive : ∀ {origin shift text next d e n}, d.Kept context next →
      appendText context editor below origin shift text next d = ⟨e, n, .ok ()⟩ → Unfolds d e)
    {origin : Pos .editor} {f : Fragment} {note : Range .text × ForeignBlock}
    (hkind : context.Finds d.language f.kind) (h : d.Kept context next)
    (hok : giveFragment (appendText context editor below) editor origin f next d =
      ⟨e, n, .ok note⟩) : Unfolds d e := by
  have hd := h.steady
  obtain ⟨d₁, n₁, child, grown, hand, _⟩ := hd.handover hapart hkind hok
  obtain ⟨_, _, _, hseat⟩ := hd.chooseChild hapart hkind hand.chosen
  have hgrown := (hgive (h.chosen hapart hkind hand.chosen) hand.taken).trans
    (Unfolds.modify grown (nature_drained grown))
  refine Unfolds.intro (fun c => if c.key = child.key then grown.drained else c)
    hand.host.nature_eq ?_ ?_ ?_
  · intro c hc hheld
    by_cases hsame : c.key = child.key
    · rw [if_pos hsame, hand.mem_children hd]
      exact ⟨Or.inl rfl, hand.held_drained⟩
    · rw [if_neg hsame, hand.mem_children hd]
      exact ⟨Or.inr ⟨hc, hsame⟩, hheld⟩
  · intro c hc hheld x hx hheldx hrivals hlt
    rcases (hand.mem_children hd).mp hx with rfl | ⟨hx, _⟩
    · -- the chosen child comes behind all that are in use
      have hbehind := lt_of_rivals_chosen hapart hkind hd h.pool.self hand.chosen hc
        ((rivals_congr hand.id_eq rfl).mp hrivals)
      rw [hand.id_eq] at hlt
      omega
    · exact ⟨x, hx, hheldx, rfl⟩
  · intro c hc hheld
    by_cases hsame : c.key = child.key
    · rw [if_pos hsame]
      rcases hseat with ⟨_, x, hx, _, lifetime, rfl⟩ | ⟨hfresh, _⟩
      · rw [key_withLifetime] at hsame
        obtain rfl := hd.self.sorted.eq_of_key_eq hc hx hsame
        exact (Unfolds.modify c (nature_withLifetime c lifetime)).trans hgrown
      · exact absurd hsame (hfresh c hc)
    · rw [if_neg hsame]
      exact Unfolds.refl c

/-- What taking code or a text does to a kept tree. -/
def Unrolls (context : Context) (next : Nat) (d : Document) (n : Nat) (e : Document) : Prop :=
  d.Kept context next → e.Kept context n ∧ Unfolds d e

theorem Unrolls.refl (next : Nat) (d : Document) : Unrolls context next d next d :=
  fun h => ⟨h, Unfolds.refl d⟩

theorem Unrolls.trans {n₀ n₁ n₂ : Nat} {d₀ d₁ d₂ : Document} (h : Unrolls context n₀ d₀ n₁ d₁)
    (h' : Unrolls context n₁ d₁ n₂ d₂) : Unrolls context n₀ d₀ n₂ d₂ := by
  intro hd
  obtain ⟨hd₁, hunfolds⟩ := h hd
  obtain ⟨hd₂, hunfolds'⟩ := h' hd₁
  exact ⟨hd₂, hunfolds.trans hunfolds'⟩

theorem unrolls_appendText (hapart : context.SiblingsApart) {levels : Nat} {origin : Pos .editor}
    {shift : Option (Pos .source)} {text : Text}
    (hok : appendText context editor levels origin shift text next d = ⟨e, n, .ok ()⟩) :
    Unrolls context next d n e := by
  refine appendText_ok_relates (R := Unrolls context) Unrolls.refl Unrolls.trans ?_ ?_ hok
  · intro below hbelow origin f next d e n note hkind hok h
    refine ⟨h.giveFragment hapart hkind hok, unfolds_giveFragment hapart ?_ hkind h hok⟩
    exact fun h hok => (hbelow hok h).2
  · exact fun next d block h => ⟨h.push block, Unfolds.modify d (nature_modify d rfl rfl rfl)⟩

theorem unrolls_appendForeign (hapart : context.SiblingsApart) {below : Nat} {origin : Pos .editor}
    {fragments : List Fragment} {notes : List (Range .text × ForeignBlock)}
    (hkinds : ∀ f ∈ fragments, context.Finds d.language f.kind)
    (hok : appendForeign (appendText context editor below) editor origin fragments next d =
      ⟨e, n, .ok notes⟩) : Unrolls context next d n e := by
  refine appendForeign_ok_relates (R := Unrolls context) Unrolls.refl Unrolls.trans ?_ hok
  intro f hf next n c c' note hlanguage hok h
  have hkind : context.Finds c.language f.kind := hlanguage ▸ hkinds f hf
  refine ⟨h.giveFragment hapart hkind hok, unfolds_giveFragment hapart ?_ hkind h hok⟩
  exact fun h hok => (unrolls_appendText hapart hok h).2

end

end Polyglot.Document
