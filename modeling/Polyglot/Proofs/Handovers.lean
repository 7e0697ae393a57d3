import Polyglot.Proofs.Outboxes
import Polyglot.Proofs.Twins

/-!
What comes of texts that are taken, where nothing fails: whatever giving a piece of code away and
adding a block do to a document, taking a text does. A piece of code is handed over to a child,
which takes it and goes back to its place.
-/
namespace Polyglot.Document

section

variable {context : Context} {editor : String}

/-! How a document is related to what it becomes. -/

theorem appendForeign_ok_relates {give : Appender} {origin : Pos .editor}
    {R : Nat → Document → Nat → Document → Prop} (hrefl : ∀ next d, R next d next d)
    (htrans : ∀ {n₀ d₀ n₁ d₁ n₂ d₂}, R n₀ d₀ n₁ d₁ → R n₁ d₁ n₂ d₂ → R n₀ d₀ n₂ d₂)
    {fragments : List Fragment} {next n : Nat} {d e : Document}
    {notes : List (Range .text × ForeignBlock)}
    (hstep : ∀ f ∈ fragments, ∀ {next n c c' note}, c.language = d.language →
      giveFragment give editor origin f next c = ⟨c', n, .ok note⟩ → R next c n c')
    (hok : appendForeign give editor origin fragments next d = ⟨e, n, .ok notes⟩) :
    R next d n e := by
  induction fragments generalizing next d notes with
  | nil =>
    cases hok
    exact hrefl _ _
  | cons f rest ih =>
    obtain ⟨d₁, n₁, note, later, hone, hrest, rfl⟩ := appendForeign_cons_ok hok
    have hhost := sameHost_giveFragment give editor origin f next d
    rw [hone] at hhost
    refine htrans (hstep f List.mem_cons_self rfl hone) (ih ?_ hrest)
    intro g hg next n c c' note hlanguage
    exact hstep g (List.mem_cons_of_mem f hg) (hlanguage.trans hhost.language_eq)

/-- What relates a document to what it becomes when it gives a piece of code away, as long as it
relates the child to what it becomes, and when it gets a block, relates it to what it becomes when
it takes a text. -/
theorem appendText_ok_relates {R : Nat → Document → Nat → Document → Prop}
    (hrefl : ∀ next d, R next d next d)
    (htrans : ∀ {n₀ d₀ n₁ d₁ n₂ d₂}, R n₀ d₀ n₁ d₁ → R n₁ d₁ n₂ d₂ → R n₀ d₀ n₂ d₂)
    (hgive : ∀ below,
      (∀ {origin shift text next d e n},
        appendText context editor below origin shift text next d = ⟨e, n, .ok ()⟩ → R next d n e) →
      ∀ {origin f next d e n note}, context.Finds d.language f.kind →
        giveFragment (appendText context editor below) editor origin f next d = ⟨e, n, .ok note⟩ →
          R next d n e)
    (hpush : ∀ next d block, R next d next (d.push block))
    {levels : Nat} {origin : Pos .editor} {shift : Option (Pos .source)} {text : Text}
    {next n : Nat} {d e : Document}
    (hok : appendText context editor levels origin shift text next d = ⟨e, n, .ok ()⟩) :
    R next d n e := by
  induction levels generalizing origin shift text next n d e with
  | zero =>
    obtain ⟨_, _, _, _, hlevels, _⟩ := appendText_ok hok
    cases hlevels
  | succ below ih =>
    obtain ⟨_, d₁, foreign, kept, hlevels, hforeign, _, _, rfl, _⟩ := appendText_ok hok
    cases hlevels
    refine htrans (appendForeign_ok_relates hrefl htrans ?_ hforeign) (hpush n d₁ _)
    intro f hf next n c c' note hlanguage
    exact hgive below ih (hlanguage ▸ Fragment.finds_of_mem_peel hf)

end

/-! Handing code over. -/

theorem Sound.not_mem_parked {context : Context} {next : Nat} {d c : Document}
    (h : d.Sound context next) (hc : c ∈ d.children) : c ∉ d.parked := by
  intro hparked
  have hdistinct := h.family.distinct
  rw [List.map_append, List.nodup_append] at hdistinct
  exact hdistinct.2.2 c.id.number (by simp only [List.map_map]; exact List.mem_map_of_mem hc)
    c.id.number (by simp only [List.map_map]; exact List.mem_map_of_mem hparked) rfl

/-- A piece of code goes to a child, which has blocks then, and takes its old place. -/
structure Handover (context : Context) (editor : String) (below : Nat) (origin : Pos .editor)
    (f : Fragment) (next : Nat) (d : Document) (n : Nat) (e d₁ : Document) (n₁ : Nat)
    (child grown : Document) : Prop where
  chosen : chooseChild f.kind next d = ⟨d₁, n₁, .ok child⟩
  taken : appendText context editor below (foreignOrigin origin f.range) f.shift f.text n₁ child =
    ⟨grown, n, .ok ()⟩
  child_steady : child.Steady context n₁
  nature_eq : grown.nature = child.nature
  held : grown.info.blocks ≠ []
  host : SameHost d e
  children_eq : e.children = insertByKey grown.drained d.children
  parked_eq : e.parked = d₁.parked
  outbox_eq : e.outbox = d₁.outbox ++ grown.outbox
  offspring : ∀ {x}, x ∈ e.offspring ↔ x = grown.drained ∨ x ∈ d.offspring ∧ x.key ≠ child.key
  steady : e.Steady context n

section

variable {context : Context} {editor : String} {below next n n₁ : Nat} {origin : Pos .editor}
  {f : Fragment} {d e d₁ child grown : Document}

theorem Steady.handover (hapart : context.SiblingsApart) {note : Range .text × ForeignBlock}
    (hd : d.Steady context next) (hkind : context.Finds d.language f.kind)
    (hok : Document.giveFragment (Document.appendText context editor below) editor origin f next d =
      ⟨e, n, .ok note⟩) :
    ∃ d₁ n₁ child grown, Handover context editor below origin f next d n e d₁ n₁ child grown ∧
      note = (f.range, entryFor child editor f.shift) := by
  have hhost := sameHost_giveFragment (Document.appendText context editor below) editor origin f
    next d
  have hsteady := hd.giveFragment hapart editor below
    (fun o s t n c hc => hc.appendText hapart editor below o s t) origin hkind
  rw [hok] at hhost hsteady
  obtain ⟨d₁, n₁, child, grown, hc, hg, rfl, rfl⟩ := giveFragment_ok hok
  obtain ⟨_, hchild, hchildren, _⟩ := hd.chooseChild hapart hkind hc
  obtain ⟨hd₁, _, hmem, hnature⟩ := hd.grown hapart
    (fun o s t n c hc => hc.appendText hapart editor below o s t) hkind hc hg
  have hkey : grown.drained.key = child.key :=
    congrArg Identity.key (id_eq_of_nature_eq ((nature_drained grown).trans hnature))
  refine ⟨d₁, n₁, child, grown, ?_, rfl⟩
  exact {
    chosen := hc
    taken := hg
    child_steady := hchild
    nature_eq := hnature
    held := by
      obtain ⟨_, _, _, _, _, _, _, _, _, hblocks⟩ := appendText_ok hg
      rw [hblocks]
      simp
    host := hhost
    children_eq := children_emit_putChild hchildren hkey
    parked_eq := by
      cases d₁
      rfl
    outbox_eq := by
      cases d₁
      rfl
    offspring := by
      intro x
      rw [emit, offspring_modify, hd₁.self.mem_offspring_putChild hapart hmem hkey,
        hd.mem_offspring_chooseChild hapart hkind hc, hkey]
      constructor
      · rintro (rfl | ⟨rfl | ⟨hx, hne⟩, hne'⟩)
        · exact Or.inl rfl
        · exact absurd rfl hne'
        · exact Or.inr ⟨hx, hne⟩
      · rintro (rfl | ⟨hx, hne⟩)
        · exact Or.inl rfl
        · exact Or.inr ⟨Or.inr ⟨hx, hne⟩, hne⟩
    steady := hsteady }

variable (h : Handover context editor below origin f next d n e d₁ n₁ child grown)

include h

theorem Handover.id_eq : grown.drained.id = child.id :=
  id_eq_of_nature_eq ((nature_drained grown).trans h.nature_eq)

theorem Handover.exists_block :
    ∃ b, grown.drained.info.blocks = child.info.blocks ++ [b] := by
  obtain ⟨_, _, _, _, _, _, _, _, _, hblocks⟩ := appendText_ok h.taken
  have hdrained : grown.drained.info.blocks = grown.info.blocks :=
    congrArg Prod.snd (core_drained grown)
  exact ⟨_, hdrained.trans hblocks⟩

theorem Handover.held_drained : grown.drained.info.blocks ≠ [] := by
  obtain ⟨b, hblocks⟩ := h.exists_block
  rw [hblocks]
  simp

theorem Handover.le : next ≤ n₁ ∧ n₁ ≤ n := by
  have hchoose := le_next_chooseChild f.kind next d
  have hgive := le_next_appendText context editor below (foreignOrigin origin f.range) f.shift f.text
    n₁ child
  rw [h.chosen] at hchoose
  rw [h.taken] at hgive
  exact ⟨hchoose, hgive⟩

/-- A child after the code was handed over is the one that took it, or was a child before. -/
theorem Handover.mem_children (hd : d.Steady context next) {x : Document} :
    x ∈ e.children ↔ x = grown.drained ∨ x ∈ d.children ∧ x.key ≠ child.key := by
  rw [h.children_eq, hd.self.sorted.mem_insertByKey_iff,
    show grown.drained.key = child.key from congrArg Identity.key h.id_eq]

/-- Who waits after the code was handed over waited before, and did not take it. -/
theorem Handover.mem_parked (hd : d.Steady context next) {x : Document} :
    x ∈ e.parked ↔ x ∈ d.parked ∧ x.key ≠ child.key := by
  constructor
  · intro hx
    refine ⟨(chooseChild_ok h.chosen).2.1 (h.parked_eq ▸ hx), ?_⟩
    rcases h.offspring.mp (List.mem_append_right _ hx) with rfl | ⟨_, hne⟩
    · have hback : grown.drained ∈ e.children := (h.mem_children hd).mpr (Or.inl rfl)
      exact absurd hx (h.steady.self.not_mem_parked hback)
    · exact hne
  · rintro ⟨hx, hne⟩
    have hown := h.offspring.mpr (Or.inr ⟨List.mem_append_right _ hx, hne⟩)
    refine (List.mem_append.mp hown).resolve_left fun hchild => ?_
    rcases (h.mem_children hd).mp hchild with rfl | ⟨hchild, _⟩
    · exact hne (congrArg Identity.key h.id_eq)
    · exact hd.self.not_mem_parked hchild hx

theorem Handover.throughout_offspring {P : Document → Prop} (hgrown : grown.drained.Throughout P)
    (howned : ∀ c ∈ d.offspring, c.Throughout P) : ∀ c ∈ e.offspring, c.Throughout P := by
  intro c hc
  rcases h.offspring.mp hc with rfl | ⟨hc, _⟩
  · exact hgrown
  · exact howned c hc

end

/-! Laws on children. -/

/-- A law that a document obeys by its children alone, and hence whenever it has none, and goes on
obeying when it hands code over to a child. -/
structure HandoverLaw (context : Context) (P : Document → Prop) : Prop where
  leaf : ∀ info, P (node info [] [])
  modify : ∀ {d : Document} (f : Info → Info), P d → P (d.modify f)
  hand : ∀ {editor : String} {below next n n₁ : Nat} {origin : Pos .editor} {f : Fragment}
    {d e d₁ child grown : Document}, d.Steady context next → context.Finds d.language f.kind →
    Handover context editor below origin f next d n e d₁ n₁ child grown → P d → P e

namespace HandoverLaw

variable {context : Context} {editor : String} {P : Document → Prop} {next n : Nat}
  {d e : Document} (law : HandoverLaw context P)

include law

theorem throughout_modify {f : Info → Info} (h : d.Throughout P) : (d.modify f).Throughout P :=
  Document.throughout_modify h (law.modify f h.self)

theorem throughout_leaf (info : Info) : (node info [] []).Throughout P := by
  rw [throughout_node]
  exact ⟨law.leaf info, by simp, by simp⟩

theorem chosen (hapart : context.SiblingsApart) {kind : Kind} {d₁ child : Document} {n₁ : Nat}
    (hkind : context.Finds d.language kind) (hd : d.Steady context next)
    (howned : ∀ c ∈ d.offspring, c.Throughout P)
    (hc : chooseChild kind next d = ⟨d₁, n₁, .ok child⟩) : child.Throughout P :=
  hd.throughout_chosen hapart hkind hc howned (fun _ _ h => law.throughout_modify h)
    fun _ => law.throughout_leaf _

theorem giveFragment (hapart : context.SiblingsApart) {below : Nat}
    (hgive : ∀ {origin shift text next d e n}, d.Steady context next → d.Throughout P →
      appendText context editor below origin shift text next d = ⟨e, n, .ok ()⟩ → e.Throughout P)
    {origin : Pos .editor} {f : Fragment} {note : Range .text × ForeignBlock}
    (hkind : context.Finds d.language f.kind) (hd : d.Steady context next) (h : d.Throughout P)
    (hok : Document.giveFragment (Document.appendText context editor below) editor origin f next d =
      ⟨e, n, .ok note⟩) : e.Throughout P := by
  obtain ⟨d₁, n₁, child, grown, hand, _⟩ := hd.handover hapart hkind hok
  obtain ⟨hself, howned⟩ := throughout_iff.mp h
  have hgrown := hgive hand.child_steady (law.chosen hapart hkind hd howned hand.chosen) hand.taken
  exact throughout_iff.mpr ⟨law.hand hd hkind hand hself,
    hand.throughout_offspring (law.throughout_modify hgrown) howned⟩

theorem appendText (hapart : context.SiblingsApart) {levels : Nat} {origin : Pos .editor}
    {shift : Option (Pos .source)} {text : Text} (hd : d.Steady context next)
    (h : d.Throughout P)
    (hok : Document.appendText context editor levels origin shift text next d = ⟨e, n, .ok ()⟩) :
    e.Throughout P := by
  refine (appendText_ok_relates (R := fun n d n' e => d.Steady context n ∧ d.Throughout P →
    e.Steady context n' ∧ e.Throughout P) ?_ ?_ ?_ ?_ hok ⟨hd, h⟩).2
  · exact fun _ _ h => h
  · exact fun hone htwo h => htwo (hone h)
  · intro below hbelow origin f next d e n note hkind hok ⟨hd, h⟩
    obtain ⟨_, _, _, _, hand, _⟩ := hd.handover hapart hkind hok
    refine ⟨hand.steady, law.giveFragment hapart ?_ hkind hd h hok⟩
    exact fun hd h hok => (hbelow hok ⟨hd, h⟩).2
  · intro next d block h
    exact ⟨h.1.modify (nature_modify d rfl rfl rfl), law.throughout_modify h.2⟩

end HandoverLaw

end Polyglot.Document
