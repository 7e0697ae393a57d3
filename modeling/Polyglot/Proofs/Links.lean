import Polyglot.Proofs.Families
import Polyglot.Proofs.LineTables

/-!
Foreign code is found where its host noted that it went. When a document gives a piece of code to
a child, it notes how high the child was; the code becomes the child's next block, and later
blocks only follow it. So as long as the tree is not emptied, every note leads to a block of its
child that starts where the range of the note starts, and that is at least as high as the range.
-/
namespace Polyglot

theorem length_sourceTable (spacing first : Nat) (blocks : List Block) :
    (sourceTable spacing first blocks).length = heightOf blocks := by
  induction blocks generalizing first with
  | nil => rfl
  | cons b rest ih => rw [sourceTable, List.length_append, b.length_sourceLines, ih, heightOf]

namespace Document

/-- The code of a range, in a block that starts at `origin` of an editor, is the block that stands
where the note of the range says. -/
def Answers (editor : String) (origin : Pos .editor) (note : Range .text × ForeignBlock)
    (blocks : List Block) : Prop :=
  note.2.shift = Pos.origin ∧ ∃ pre b post, blocks = pre ++ b :: post ∧
    heightOf pre = note.2.sourceLine ∧ b.editor = editor ∧ b.origin = foreignOrigin origin note.1 ∧
    note.1.stop.line - note.1.start.line < b.height

theorem Answers.mono {editor : String} {origin : Pos .editor} {note : Range .text × ForeignBlock}
    {blocks blocks' : List Block} (h : Answers editor origin note blocks)
    (hbegins : blocks <+: blocks') : Answers editor origin note blocks' := by
  obtain ⟨hshift, pre, b, post, rfl, hb⟩ := h
  obtain ⟨more, rfl⟩ := hbegins
  exact ⟨hshift, pre, b, post ++ more, by simp, hb⟩

/-- A child answers a note. -/
def Serves (editor : String) (origin : Pos .editor) (note : Range .text × ForeignBlock)
    (d : Document) : Prop :=
  ∃ c ∈ d.children, c.key = note.2.document ∧ Answers editor origin note c.info.blocks

/-- All notes of a document are answered. -/
def Linked (d : Document) : Prop :=
  ∀ b ∈ d.info.blocks, ∀ note ∈ b.foreign, d.Serves b.editor b.origin note

/-- All children are still there, and have grown at most. -/
def Extends (d e : Document) : Prop :=
  ∀ c ∈ d.children, ∃ c' ∈ e.children, c'.key = c.key ∧ c.info.blocks <+: c'.info.blocks

theorem Serves.mono {editor : String} {origin : Pos .editor} {note : Range .text × ForeignBlock}
    {d e : Document} (h : d.Serves editor origin note) (hext : Extends d e) :
    e.Serves editor origin note := by
  obtain ⟨c, hc, hkey, hanswers⟩ := h
  obtain ⟨c', hc', hkey', hbegins⟩ := hext c hc
  exact ⟨c', hc', hkey'.trans hkey, hanswers.mono hbegins⟩

theorem Linked.mono {d e : Document} (h : d.Linked) (hblocks : e.info.blocks = d.info.blocks)
    (hext : Extends d e) : e.Linked := by
  intro b hb note hnote
  rw [hblocks] at hb
  exact (h b hb note hnote).mono hext

theorem Extends.refl (d : Document) : Extends d d := fun c hc => ⟨c, hc, rfl, List.prefix_refl _⟩

theorem Extends.trans {c d e : Document} (h : Extends c d) (h' : Extends d e) : Extends c e := by
  intro x hx
  obtain ⟨y, hy, hkey, hbegins⟩ := h x hx
  obtain ⟨z, hz, hkey', hbegins'⟩ := h' y hy
  exact ⟨z, hz, hkey'.trans hkey, hbegins.trans hbegins'⟩

theorem Extends.modify {d e : Document} (h : Extends d e) (f : Info → Info) :
    Extends d (e.modify f) := by
  cases e
  exact h

theorem linked_leaf {info : Info} (h : info.blocks = []) : (node info [] []).Throughout Linked := by
  rw [throughout_node]
  refine ⟨?_, by simp, by simp⟩
  intro b hb
  rw [info_node, h] at hb
  simp at hb

theorem linked_modify {d : Document} {f : Info → Info} (h : d.Throughout Linked)
    (hblocks : (f d.info).blocks = d.info.blocks) : (d.modify f).Throughout Linked := by
  obtain ⟨info, children, parked⟩ := d
  rw [throughout_node] at h
  rw [modify_node, throughout_node]
  exact ⟨h.1.mono hblocks ((Extends.refl _).modify f), h.2⟩

theorem linked_of_blank {d : Document} (h : d.Blank) : d.Throughout Linked := by
  intro e he b hb
  rw [h e he] at hb
  simp at hb

section

variable {context : Context} {next : Nat}

/-- The parent of a chosen child, after the child has grown and was put back. -/
theorem extends_putChild {kind : Kind} {d d₁ child grown : Document} (hsorted : Sorted d.children)
    (hchildren : d₁.children = insertByKey child d.children) (hseat : Seat kind d.children child)
    (hkey : grown.key = child.key) (hbegins : child.info.blocks <+: grown.info.blocks) :
    Extends d (d₁.putChild grown) := by
  obtain ⟨info, children₁, parked⟩ := d₁
  obtain rfl : children₁ = insertByKey child d.children := hchildren
  intro c hc
  by_cases hsame : c.key = child.key
  · rcases hseat with ⟨_, c₀, hc₀, _, lifetime, rfl⟩ | ⟨hfree, _⟩
    · have heq : c = c₀ := hsorted.eq_of_key_eq hc hc₀ (hsame.trans (key_withLifetime c₀ lifetime))
      subst heq
      have hblocks : (c.withLifetime lifetime).info.blocks = c.info.blocks := by
        cases c
        rfl
      exact ⟨grown, mem_insertByKey_self grown _, hkey.trans hsame.symm, hblocks ▸ hbegins⟩
    · exact absurd hsame (hfree c hc)
  · refine ⟨c, ?_, rfl, List.prefix_refl _⟩
    exact mem_insertByKey_of_ne (mem_insertByKey_of_ne hc hsame) (hkey ▸ hsame)

theorem linked_chooseChild {kind : Kind} {n₁ : Nat} {d d₁ child : Document}
    (h : d.Throughout Linked) (hc : chooseChild kind next d = ⟨d₁, n₁, .ok child⟩) :
    child.Throughout Linked := by
  obtain ⟨_, _, hfrom⟩ := chooseChild_ok hc
  obtain ⟨info, children, parked⟩ := d
  rw [throughout_node] at h
  rcases hfrom with ⟨c, lifetime, hmem, rfl⟩ | ⟨new, rfl, hblocks⟩
  · exact linked_modify (hmem.elim (h.2.1 c) (h.2.2 c)) rfl
  · exact linked_leaf hblocks

theorem linked_putChild {kind : Kind} {n₁ : Nat} {d d₁ child grown : Document}
    (h : d.Throughout Linked) (hc : chooseChild kind next d = ⟨d₁, n₁, .ok child⟩)
    (hext : Extends d (d₁.putChild grown)) (hgrown : grown.Throughout Linked) :
    (d₁.putChild grown).Throughout Linked := by
  have hchild := linked_chooseChild h hc
  obtain ⟨hchildren, hparked, _⟩ := chooseChild_ok hc
  have hchosen := sameHost_chooseChild kind next d
  rw [hc] at hchosen
  have hhost := hchosen.trans (sameHost_putChild d₁ grown)
  obtain ⟨info₁, children₁, parked₁⟩ := d₁
  obtain rfl : children₁ = insertByKey child d.children := hchildren
  obtain ⟨info, children, parked⟩ := d
  have hself := h.self
  rw [throughout_node] at h
  rw [putChild] at hext hhost ⊢
  rw [throughout_node]
  refine ⟨hself.mono hhost.blocks_eq hext, ?_, fun x hx => h.2.2 x (hparked hx)⟩
  intro x hx
  rcases mem_insertByKey hx with rfl | hx
  · exact hgrown
  · rcases mem_insertByKey hx with rfl | hx
    · exact hchild
    · exact h.2.1 x hx

variable (hapart : context.SiblingsApart)

include hapart

/-- A piece of code is given to a child: the notes of before are still answered, and so is the new
one. -/
theorem linked_giveFragment {editor : String} {below : Nat}
    (hgive : ∀ origin text next d, d.Steady context next → d.Throughout Linked →
      (appendText context editor below origin none text next d).document.Throughout Linked)
    {f : Fragment} (hshift : f.shift = none)
    (hlines : f.range.stop.line - f.range.start.line < f.text.lines.length) (origin : Pos .editor)
    {d : Document} (hkind : context.Finds d.language f.kind) (hsteady : d.Steady context next)
    (h : d.Throughout Linked) {o : Outcome (Range .text × ForeignBlock)}
    (ho : giveFragment (appendText context editor below) editor origin f next d = o) :
    o.document.Throughout Linked ∧ Extends d o.document ∧
      ∀ note, o.result = .ok note → o.document.Serves editor origin note := by
  rcases giveFragment_cases (appendText context editor below) editor origin f next d with
    ⟨d₁, n₁, e, hc, heq⟩ | ⟨d₁, n₁, child, grown, n₂, e, hc, hg, heq⟩ |
    ⟨d₁, n₁, child, grown, n₂, hc, hg, heq⟩
  · obtain ⟨rfl, rfl⟩ := chooseChild_error hc
    rw [← ho, heq]
    exact ⟨h, Extends.refl _, fun note hnote => by cases hnote⟩
  · obtain ⟨_, hchild, hchildren, hseat⟩ := hsteady.chooseChild hapart hkind hc
    have hgrown := hgive (foreignOrigin origin f.range) f.text n₁ child hchild
      (linked_chooseChild h hc)
    have hframe := appendText_frame context editor below (foreignOrigin origin f.range) none f.text
      n₁ child
    rw [hshift] at hg
    rw [hg] at hgrown hframe
    have hext := extends_putChild hsteady.self.sorted hchildren hseat
      (congrArg Identity.key (id_eq_of_nature_eq hframe.1)) hframe.2
    rw [← ho, heq]
    exact ⟨linked_putChild h hc hext hgrown, hext, fun note hnote => by cases hnote⟩
  · obtain ⟨_, hchild, hchildren, hseat⟩ := hsteady.chooseChild hapart hkind hc
    have hgrown := hgive (foreignOrigin origin f.range) f.text n₁ child hchild
      (linked_chooseChild h hc)
    rw [hshift] at hg
    obtain ⟨_, _, foreign, kept, _, _, _, _, _, hblocks⟩ := appendText_ok hg
    have hnature := (appendText_frame context editor below
      (foreignOrigin origin f.range) none f.text
      n₁ child).1
    rw [hg] at hgrown hnature
    have hkey : grown.drained.key = child.key :=
      congrArg Identity.key (id_eq_of_nature_eq ((nature_drained grown).trans hnature))
    have hdrained : grown.drained.info.blocks = grown.info.blocks := by
      cases grown
      rfl
    have hext := extends_putChild hsteady.self.sorted hchildren hseat hkey
      (hdrained ▸ hblocks ▸ List.prefix_append _ _)
    rw [← ho, heq]
    refine ⟨linked_modify (linked_putChild h hc hext (linked_modify hgrown rfl)) rfl,
      hext.modify _, ?_⟩
    intro note hnote
    cases hnote
    have hmem : grown.drained ∈ ((d₁.putChild grown.drained).emit grown.outbox).children := by
      cases d₁
      exact mem_insertByKey_self _ _
    refine ⟨grown.drained, hmem, hkey, ?_, child.info.blocks, _, [], hdrained.trans hblocks, ?_,
      rfl, ?_, hlines⟩
    · simp [entryFor, hshift]
    · exact (length_sourceTable _ 0 _).symm
    · simp [blockOf, Pos.origin]

theorem linked_appendForeign {editor : String} {below : Nat}
    (hgive : ∀ origin text next d, d.Steady context next → d.Throughout Linked →
      (appendText context editor below origin none text next d).document.Throughout Linked)
    (fragments : List Fragment) (hfaithful : ∀ f ∈ fragments, f.shift = none ∧
      f.range.stop.line - f.range.start.line < f.text.lines.length)
    (origin : Pos .editor) {d : Document}
    (hkinds : ∀ f ∈ fragments, context.Finds d.language f.kind) (hsteady : d.Steady context next)
    (h : d.Throughout Linked) {o : Outcome (List (Range .text × ForeignBlock))}
    (ho : appendForeign (appendText context editor below) editor origin fragments next d = o) :
    o.document.Throughout Linked ∧ Extends d o.document ∧
      ∀ notes, o.result = .ok notes → ∀ note ∈ notes, o.document.Serves editor origin note := by
  induction fragments generalizing next d o with
  | nil =>
    rw [appendForeign] at ho
    subst ho
    refine ⟨h, Extends.refl d, ?_⟩
    intro notes hnotes
    cases hnotes
    simp
  | cons f rest ih =>
    obtain ⟨hshift, hlines⟩ := hfaithful f List.mem_cons_self
    have hkind := hkinds f List.mem_cons_self
    rw [appendForeign] at ho
    have hsteady₁ := hsteady.giveFragment hapart editor below
      (fun o s t n c hc => hc.appendText hapart editor below o s t) origin hkind
    have hhost := sameHost_giveFragment (appendText context editor below) editor origin f next d
    cases hone : giveFragment (appendText context editor below) editor origin f next d with
    | mk d₁ n₁ result =>
      obtain ⟨hlinked₁, hext₁, hserves₁⟩ :=
        linked_giveFragment hapart hgive hshift hlines origin hkind hsteady h hone
      rw [hone] at ho hsteady₁ hhost
      cases result with
      | error e =>
        subst ho
        exact ⟨hlinked₁, hext₁, fun notes hnotes => by cases hnotes⟩
      | ok note =>
        simp only [Outcome.bind] at ho
        cases hrest : appendForeign (appendText context editor below) editor origin rest n₁ d₁ with
        | mk d₂ n₂ result =>
          obtain ⟨hlinked₂, hext₂, hserves₂⟩ := ih
            (fun g hg => hfaithful g (List.mem_cons_of_mem f hg))
            (fun g hg => hhost.language_eq ▸ hkinds g (List.mem_cons_of_mem f hg)) hsteady₁ hlinked₁
            hrest
          rw [hrest] at ho
          cases result with
          | error e =>
            subst ho
            exact ⟨hlinked₂, hext₁.trans hext₂, fun notes hnotes => by cases hnotes⟩
          | ok notes =>
            subst ho
            refine ⟨hlinked₂, hext₁.trans hext₂, ?_⟩
            intro all hall
            cases hall
            intro x hx
            rcases List.mem_cons.mp hx with rfl | hx
            · exact (hserves₁ _ rfl).mono hext₂
            · exact hserves₂ notes rfl x hx

/-- Appending keeps all notes answered, also where it fails. -/
theorem linked_appendText (hfaithful : context.Faithful) (editor : String) (levels : Nat)
    (origin : Pos .editor) (text : Text) {d : Document} (hsteady : d.Steady context next)
    (h : d.Throughout Linked) :
    (appendText context editor levels origin none text next d).document.Throughout Linked := by
  induction levels generalizing origin text next d with
  | zero =>
    rcases appendText_cases context editor 0 origin none text next d with
      ⟨e, heq⟩ | ⟨below, _, _, _, _, hlevels, _⟩ | ⟨below, _, _, _, _, hlevels, _⟩
    · rw [heq]
      exact h
    · cases hlevels
    · cases hlevels
  | succ levels ih =>
    have hforeign := linked_appendForeign hapart (fun o t n c hc hl => ih o t hc hl)
      (Fragment.peel (context.extractors.forHost d.language) text).1
      (fun f hf => Fragment.faithful_of_mem_peel hfaithful hf) origin
      (fun f hf => Fragment.finds_of_mem_peel hf) hsteady h rfl
    rcases appendText_cases context editor (levels + 1) origin none text next d with
      ⟨e, heq⟩ | ⟨below, d₁, n₁, given, e, hlevels, _, hgiven, heq⟩ |
      ⟨below, d₁, n₁, foreign, kept, hlevels, _, hgiven, _, heq⟩
    · rw [heq]
      exact h
    · cases hlevels
      rw [hgiven] at hforeign
      rw [heq]
      exact hforeign.1
    · cases hlevels
      rw [hgiven] at hforeign
      obtain ⟨hlinked, _, hserves⟩ := hforeign
      rw [heq]
      obtain ⟨info, children, parked⟩ := d₁
      rw [throughout_node] at hlinked
      rw [push, modify_node, throughout_node]
      refine ⟨?_, hlinked.2⟩
      intro b hb note hnote
      rcases List.mem_append.mp hb with hold | hnew
      · exact hlinked.1 b hold note hnote
      · obtain rfl := List.mem_singleton.mp hnew
        exact hserves foreign rfl note hnote

end

end Document

end Polyglot
