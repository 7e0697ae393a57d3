import Polyglot.Proofs.Idle
import Polyglot.Proofs.RoundTrip

/-!
Where the blocks of a tree come from. A document that takes a text gets a block of it, and each
piece of code found in the text becomes a block of some child, where the note of the piece says,
and so on below. As long as a tree is not emptied it only grows: documents that hold blocks stay
and keep them. So the whole way of a text into the tree can be read off the tree at the end.
-/
namespace Polyglot

namespace Document

/-- Documents that hold blocks stay, and keep their blocks in front of all later ones. -/
inductive Grows : Document → Document → Prop
  | intro {d e : Document} (f : Document → Document) : e.id = d.id →
      d.info.blocks <+: e.info.blocks →
      (∀ c ∈ d.children, c.info.blocks ≠ [] → f c ∈ e.children) →
      (∀ c ∈ d.children, c.info.blocks ≠ [] → Grows c (f c)) → Grows d e

namespace Grows

theorem refl (d : Document) : Grows d d := by
  induction d using tree_induction with
  | step info children parked ihc _ =>
    exact intro (fun c => c) rfl (List.prefix_refl _) (fun _ hc _ => hc) fun c hc _ => ihc c hc

theorem blocks {d e : Document} (h : Grows d e) : d.info.blocks <+: e.info.blocks := by
  obtain ⟨_, _, hblocks, _, _⟩ := h
  exact hblocks

theorem id_eq {d e : Document} (h : Grows d e) : e.id = d.id := by
  obtain ⟨_, hid, _, _, _⟩ := h
  exact hid

theorem held {d e : Document} (h : Grows d e) (hd : d.info.blocks ≠ []) : e.info.blocks ≠ [] := by
  intro hnil
  have hblocks := h.blocks
  rw [hnil, List.prefix_nil] at hblocks
  exact hd hblocks

theorem trans {c d e : Document} (h : Grows c d) (h' : Grows d e) : Grows c e := by
  induction h generalizing e with
  | @intro c d f hid hblocks hstays hgrows ih =>
    obtain ⟨g, hid', hblocks', hstays', hgrows'⟩ := h'
    refine intro (g ∘ f) (hid'.trans hid) (hblocks.trans hblocks') ?_ ?_
    · intro x hx hheld
      exact hstays' (f x) (hstays x hx hheld) ((hgrows x hx hheld).held hheld)
    · intro x hx hheld
      exact ih x hx hheld (hgrows' (f x) (hstays x hx hheld) ((hgrows x hx hheld).held hheld))

theorem modify (d : Document) {f : Info → Info} (hid : (f d.info).id = d.info.id)
    (hblocks : d.info.blocks <+: (f d.info).blocks) : Grows d (d.modify f) := by
  obtain ⟨info, children, parked⟩ := d
  exact intro (fun c => c) hid hblocks (fun _ hc _ => hc) fun c _ _ => refl c

theorem drained (d : Document) : Grows d d.drained := modify d rfl (List.prefix_refl _)

/-- A child that has grown is put back in its place. -/
theorem putChild {kind : Kind} {d d₁ child g : Document} (hsorted : Sorted d.children)
    (hsame : SameHost d d₁) (hchildren : d₁.children = insertByKey child d.children)
    (hseat : Seat kind d.children child) (h : Grows child g) : Grows d (d₁.putChild g) := by
  have hkey : g.key = child.key := congrArg Identity.key h.id_eq
  have hput := hsame.trans (sameHost_putChild d₁ g)
  have hall : (d₁.putChild g).children = insertByKey g d.children := by
    obtain ⟨info, children, parked⟩ := d₁
    obtain rfl : children = insertByKey child d.children := hchildren
    exact insertByKey_insertByKey hkey d.children
  refine intro (fun c => if c.key = g.key then g else c) hput.id_eq
    (hput.blocks_eq ▸ List.prefix_refl _) ?_ ?_
  · intro c hc _
    rw [hall]
    by_cases hsame : c.key = g.key
    · rw [if_pos hsame]
      exact mem_insertByKey_self g _
    · rw [if_neg hsame]
      exact mem_insertByKey_of_ne hc hsame
  · intro c hc _
    by_cases hsame : c.key = g.key
    · rw [if_pos hsame]
      rcases hseat with ⟨_, c₀, hc₀, _, lifetime, rfl⟩ | ⟨hfresh, _⟩
      · have hself : c = c₀ := hsorted.eq_of_key_eq hc hc₀
          (hsame.trans (hkey.trans (key_withLifetime c₀ lifetime)))
        subst hself
        exact (modify c rfl (List.prefix_refl _)).trans h
      · exact absurd (hsame.trans hkey) (hfresh c hc)
    · rw [if_neg hsame]
      exact refl c

end Grows

section

variable {context : Context} {next : Nat} (hapart : context.SiblingsApart)

include hapart

theorem grows_giveFragment {editor : String} {below : Nat}
    (hgive : ∀ origin shift text next d, d.Steady context next →
      Grows d (appendText context editor below origin shift text next d).document)
    {f : Fragment} (origin : Pos .editor) {d : Document} (hkind : context.Finds d.language f.kind)
    (h : d.Steady context next) :
    Grows d (giveFragment (appendText context editor below) editor origin f next d).document := by
  have hput : ∀ {d₁ child grown grown' : Document} {n₁ n₂ : Nat}
      {result : Except DocumentError Unit}, chooseChild f.kind next d = ⟨d₁, n₁, .ok child⟩ →
      appendText context editor below (foreignOrigin origin f.range) f.shift f.text n₁ child =
        ⟨grown, n₂, result⟩ → Grows grown grown' → Grows d (d₁.putChild grown') := by
    intro d₁ child grown grown' n₁ n₂ result hc hg hlater
    obtain ⟨_, hchild, hchildren, hseat⟩ := h.chooseChild hapart hkind hc
    have hgrown := hgive (foreignOrigin origin f.range) f.shift f.text n₁ child hchild
    have hsame := sameHost_chooseChild f.kind next d
    rw [hg] at hgrown
    rw [hc] at hsame
    exact Grows.putChild h.self.sorted hsame hchildren hseat (hgrown.trans hlater)
  rcases giveFragment_cases (appendText context editor below) editor origin f next d with
    ⟨d₁, n₁, e, hc, heq⟩ | ⟨d₁, n₁, child, grown, n₂, e, hc, hg, heq⟩ |
    ⟨d₁, n₁, child, grown, n₂, hc, hg, heq⟩
  · rw [heq, (chooseChild_error hc).1]
    exact Grows.refl d
  · rw [heq]
    exact hput hc hg (Grows.refl grown)
  · rw [heq]
    exact (hput hc hg (Grows.drained grown)).trans (Grows.modify _ rfl (List.prefix_refl _))

theorem grows_appendText (editor : String) (levels : Nat) (origin : Pos .editor)
    (shift : Option (Pos .source)) (text : Text) {d : Document} (h : d.Steady context next) :
    Grows d (appendText context editor levels origin shift text next d).document := by
  refine (appendText_relates (R := fun n d n' d' => d.Steady context n →
    d'.Steady context n' ∧ Grows d d') (G := fun _ _ _ => True) ?_ ?_ ?_ ?_ levels trivial
    next d h).2
  · exact fun n d hd => ⟨hd, Grows.refl d⟩
  · intro _ _ _ _ _ _ hone htwo hd
    obtain ⟨hd₁, hgrows⟩ := hone hd
    obtain ⟨hd₂, hgrows'⟩ := htwo hd₁
    exact ⟨hd₂, hgrows.trans hgrows'⟩
  · intro below hbelow n d origin _ text _ f hf hd
    have hkind := Fragment.finds_of_mem_peel hf
    exact ⟨hd.giveFragment hapart editor below
        (fun o s t n c hc => (hbelow o s t trivial n c hc).1) origin hkind,
      grows_giveFragment hapart (fun o s t n c hc => (hbelow o s t trivial n c hc).2) origin hkind
        hd⟩
  · intro n d origin shift text kept _ _ foreign hd
    exact ⟨hd.modify (nature_modify d rfl rfl rfl), Grows.modify d rfl (List.prefix_append _ _)⟩

omit hapart in
/-- Nobody who holds blocks is idle, so they stay when the tree ages. -/
theorem grows_closeExpired {d : Document} (hsteady : d.Steady context next)
    (hidles : d.Throughout Idles) : Grows d d.closeExpired := by
  induction d using tree_induction with
  | step info children parked ihc _ =>
    obtain ⟨hsound, hsteadies, _⟩ := (steady_node _ _ _).mp hsteady
    obtain ⟨hidle, hbelow, _⟩ := (throughout_node _ _ _ _).mp hidles
    rw [closeExpired, closeStaying_eq, List.map_map]
    refine Grows.intro (drained ∘ swept info.idle) rfl (List.prefix_refl _) ?_ ?_
    · intro c hc hheld
      have hstays := (hidle.stays hsound.sorted hc hheld).1
      exact List.mem_map_of_mem (List.mem_filter.mpr ⟨hc, hstays⟩)
    · intro c hc hheld
      have hswept : swept info.idle c = c.closeExpired := (hidle.stays hsound.sorted hc hheld).2
      rw [Function.comp_apply, hswept]
      exact (ihc c hc (hsteadies c hc) (hbelow c hc)).trans (Grows.drained _)

omit hapart in
theorem grows_emitChanged (d : Document) : Grows d d.emitChanged := by
  induction d using tree_induction with
  | step info children parked ihc _ =>
    have hcore := core_emitChanged (node info children parked)
    rw [emitChanged, emitChangedAll_eq, List.map_map] at hcore ⊢
    refine Grows.intro (drained ∘ emitChanged) (id_eq_of_core_eq hcore) ?_ ?_ ?_
    · rw [show (node info children parked).info.blocks = _ from (congrArg Prod.snd hcore).symm]
      exact List.prefix_refl _
    · exact fun c hc _ => List.mem_map_of_mem hc
    · exact fun c hc _ => (ihc c hc).trans (Grows.drained _)

end

/-! The way of a text into a tree. -/

/-- How a document holds a text behind some blocks, given where the text starts in its editor and
the room in front of it. -/
abbrev Holding := Document → List Block → Pos .editor → Option (Pos .source) → Text → Prop

/-- A child holds a piece of code where the note says. -/
structure Takes (holds : Holding) (d : Document) (origin : Pos .editor) (f : Fragment)
    (note : Range .text × ForeignBlock) : Prop where
  range_eq : note.1 = f.range
  shift_eq : note.2.shift = f.shift.getD Pos.origin
  child : ∃ c ∈ d.children, c.key = note.2.document ∧ ∃ pre, heightOf pre = note.2.sourceLine ∧
    holds c pre (foreignOrigin origin f.range) f.shift f.text

/-- A document holds the block of a text, and its children all pieces of code that were found in the
text. -/
def Given (context : Context) (editor : String) : Nat → Holding
  | 0, _, _, _, _, _ => False
  | levels + 1, d, pre, origin, shift, text =>
    ∃ kept notes post, (Fragment.peel (context.extractors.forHost d.language) text).2 = .ok kept ∧
      d.info.blocks =
        pre ++ blockOf context.rules d.language editor origin shift text kept notes :: post ∧
      List.Forall₂ (Takes (Given context editor levels) d origin)
        (Fragment.peel (context.extractors.forHost d.language) text).1 notes

section

variable {context : Context} {editor : String} {next : Nat}

/-- A text is given with a level at least, and its pieces with those that are left. -/
theorem Given.parts {levels : Nat} {d : Document} {pre : List Block} {origin : Pos .editor}
    {shift : Option (Pos .source)} {text : Text}
    (h : Given context editor levels d pre origin shift text) :
    ∃ below kept notes post, levels = below + 1 ∧
      (Fragment.peel (context.extractors.forHost d.language) text).2 = .ok kept ∧
      d.info.blocks =
        pre ++ blockOf context.rules d.language editor origin shift text kept notes :: post ∧
      List.Forall₂ (Takes (Given context editor below) d origin)
        (Fragment.peel (context.extractors.forHost d.language) text).1 notes := by
  cases levels with
  | zero => exact h.elim
  | succ below =>
    obtain ⟨kept, notes, post, hparts⟩ := h
    exact ⟨below, kept, notes, post, rfl, hparts⟩

theorem Given.exists_block {levels : Nat} {d : Document} {pre : List Block} {origin : Pos .editor}
    {shift : Option (Pos .source)} {text : Text}
    (h : Given context editor levels d pre origin shift text) :
    ∃ b post, d.info.blocks = pre ++ b :: post ∧ b.editor = editor := by
  obtain ⟨_, _, _, post, _, _, hblocks, _⟩ := h.parts
  exact ⟨_, post, hblocks, rfl⟩

theorem Given.held {levels : Nat} {d : Document} {pre : List Block} {origin : Pos .editor}
    {shift : Option (Pos .source)} {text : Text}
    (h : Given context editor levels d pre origin shift text) : d.info.blocks ≠ [] := by
  obtain ⟨b, post, hblocks, _⟩ := h.exists_block
  rw [hblocks]
  simp

theorem Takes.mono {holds : Holding} {d e : Document} {origin : Pos .editor} {f : Fragment}
    {note : Range .text × ForeignBlock} (h : Takes holds d origin f note) (hgrows : Grows d e)
    (hheld : ∀ c pre origin shift text, holds c pre origin shift text → c.info.blocks ≠ [])
    (hholds : ∀ c c' pre origin shift text, Grows c c' → holds c pre origin shift text →
      holds c' pre origin shift text) : Takes holds e origin f note := by
  obtain ⟨hrange, hshift, c, hc, hkey, pre, hpre, hcode⟩ := h
  obtain ⟨g, _, _, hstays, hbelow⟩ := hgrows
  have hblocks := hheld _ _ _ _ _ hcode
  have hgrown := hbelow c hc hblocks
  refine ⟨hrange, hshift, g c, hstays c hc hblocks, ?_, pre, hpre, hholds _ _ _ _ _ _ hgrown hcode⟩
  exact (congrArg Identity.key hgrown.id_eq).trans hkey

theorem Given.mono {levels : Nat} {d e : Document} {pre : List Block} {origin : Pos .editor}
    {shift : Option (Pos .source)} {text : Text} (hgrows : Grows d e)
    (h : Given context editor levels d pre origin shift text) :
    Given context editor levels e pre origin shift text := by
  induction levels generalizing d e pre origin shift text with
  | zero => exact h.elim
  | succ levels ih =>
    obtain ⟨kept, notes, post, hkept, hblocks, hnotes⟩ := h
    have hlanguage : e.language = d.language := by rw [language, hgrows.id_eq, language]
    obtain ⟨more, hmore⟩ := hgrows.blocks
    rw [Given, hlanguage]
    refine ⟨kept, notes, post ++ more, hkept, ?_, hnotes.imp fun f note htakes => ?_⟩
    · rw [← hmore, hblocks, List.append_assoc]
      rfl
    · exact htakes.mono hgrows (fun _ _ _ _ _ hc => hc.held) fun _ _ _ _ _ _ hg hc => ih hg hc

variable (hapart : context.SiblingsApart)

include hapart

theorem given_appendForeign {below : Nat}
    (hgive : ∀ {origin shift text n c g m}, c.Steady context n →
      appendText context editor below origin shift text n c = ⟨g, m, .ok ()⟩ →
      Given context editor below g c.info.blocks origin shift text)
    {origin : Pos .editor} {fragments : List Fragment} {d e : Document} {n : Nat}
    {notes : List (Range .text × ForeignBlock)}
    (hkind : ∀ f ∈ fragments, context.Finds d.language f.kind) (hd : d.Steady context next)
    (hok : appendForeign (appendText context editor below) editor origin fragments next d =
      ⟨e, n, .ok notes⟩) :
    Grows d e ∧ List.Forall₂ (Takes (Given context editor below) e origin) fragments notes := by
  induction fragments generalizing next d notes with
  | nil =>
    cases hok
    exact ⟨Grows.refl _, List.Forall₂.nil⟩
  | cons f rest ih =>
    have hfirst := hkind f List.mem_cons_self
    obtain ⟨d₁, n₁, note, later, hf, hrest, rfl⟩ := appendForeign_cons_ok hok
    have hsteady := hd.giveFragment hapart editor below (fun o s t n c hc => hc.appendText hapart
      editor below o s t) origin hfirst
    have hgrows := grows_giveFragment hapart (fun o s t n c hc => grows_appendText hapart editor
      below o s t hc) origin hfirst hd
    have hhost := sameHost_giveFragment (appendText context editor below) editor origin f next d
    rw [hf] at hsteady hgrows hhost
    obtain ⟨hgrows', hnotes⟩ := ih (fun g hg => hhost.language_eq ▸ hkind g
      (List.mem_cons_of_mem f hg)) hsteady hrest
    refine ⟨hgrows.trans hgrows', List.Forall₂.cons ?_ hnotes⟩
    obtain ⟨d₂, n₂, child, grown, hc, hg, rfl, rfl⟩ := giveFragment_ok hf
    obtain ⟨_, hchild, _, _⟩ := hd.chooseChild hapart hfirst hc
    have hgiven := (hgive hchild hg).mono (Grows.drained grown)
    have hnature := (appendText_frame context editor below (foreignOrigin origin f.range) f.shift
      f.text n₂ child).1
    rw [hg] at hnature
    have hmem : grown.drained ∈ ((d₂.putChild grown.drained).emit grown.outbox).children := by
      cases d₂
      exact mem_insertByKey_self _ _
    have htakes : Takes (Given context editor below)
        ((d₂.putChild grown.drained).emit grown.outbox) origin f
        (f.range, entryFor child editor f.shift) := by
      refine ⟨rfl, rfl, grown.drained, hmem, ?_, child.info.blocks, ?_, hgiven⟩
      · exact congrArg Identity.key (id_eq_of_nature_eq ((nature_drained grown).trans hnature))
      · exact (length_sourceTable _ 0 _).symm
    exact htakes.mono hgrows' (fun _ _ _ _ _ hc => hc.held) fun _ _ _ _ _ _ hg hc => hc.mono hg

/-- A document that takes a text holds it, behind the blocks that it had. -/
theorem given_appendText {levels : Nat} {origin : Pos .editor} {shift : Option (Pos .source)}
    {text : Text} {d e : Document} {n : Nat} (hd : d.Steady context next)
    (hok : appendText context editor levels origin shift text next d = ⟨e, n, .ok ()⟩) :
    Given context editor levels e d.info.blocks origin shift text := by
  induction levels generalizing origin shift text next d e n with
  | zero =>
    obtain ⟨_, _, _, _, hlevels, _⟩ := appendText_ok hok
    cases hlevels
  | succ below ih =>
    obtain ⟨_, d₁, notes, kept, hlevels, hforeign, hkept, hsame, rfl, hblocks⟩ := appendText_ok hok
    cases hlevels
    obtain ⟨_, hnotes⟩ := given_appendForeign hapart (fun hc hg => ih hc hg)
      (fun f hf => Fragment.finds_of_mem_peel hf) hd hforeign
    have hlanguage : (d₁.push (blockOf context.rules d.language editor origin shift text kept
        notes)).language = d.language := by
      cases d₁
      exact hsame.language_eq
    rw [Given, hlanguage]
    refine ⟨kept, notes, [], hkept, hblocks, hnotes.imp fun f note htakes => ?_⟩
    exact htakes.mono (Grows.modify d₁ rfl (List.prefix_append _ _)) (fun _ _ _ _ _ hc => hc.held)
      fun _ _ _ _ _ _ hg hc => hc.mono hg

theorem given_appendCells {cells : List Cell} {levels index n : Nat} {notices : List Notice}
    {d e : Document} (hd : d.Steady context next)
    (hok : appendCells context levels index cells next d = (notices, ⟨e, n, .ok ()⟩)) :
    ∀ cell ∈ cells, ∃ pre, Given context cell.editor levels e pre Pos.origin none cell.text := by
  induction cells generalizing index next d notices with
  | nil => simp
  | cons first rest ih =>
    obtain ⟨d₁, n₁, later, happend, hrest⟩ := appendCells_cons_ok hok
    have hd₁ := hd.appendText hapart first.editor levels Pos.origin none first.text
    rw [append] at happend
    rw [happend] at hd₁
    intro cell hcell
    rcases List.mem_cons.mp hcell with rfl | hcell
    · have hkept := appendCells_keeps context levels
        (I := fun n e => e.Steady context n ∧ Grows d₁ e)
        (fun cell (_ : cell ∈ rest) n e he =>
          ⟨he.1.appendText hapart cell.editor _ Pos.origin none cell.text,
            he.2.trans (grows_appendText hapart cell.editor _ Pos.origin none cell.text he.1)⟩)
        (index + 1) ⟨hd₁, Grows.refl d₁⟩
      rw [hrest] at hkept
      exact ⟨d.info.blocks, (given_appendText hapart hd happend).mono hkept.2⟩
    · exact ih hd₁ hrest cell hcell

end

end Document

open Document

/-- The way of each cell into a rebuilt tree. -/
theorem given_of_update {s s' : Session} {cells : List Cell} {next next' : Nat}
    (hapart : s.context.SiblingsApart) (hreach : Reachable s.context next s.root)
    (h : s.update cells next = (s', next', .ok ())) {cell : Cell} (hcell : cell ∈ cells) :
    ∃ pre, Given s.context cell.editor s.levels s'.root pre Pos.origin none cell.text := by
  obtain ⟨notices, d₁, happend, hroot⟩ := update_ok h
  obtain ⟨pre, hgiven⟩ := given_appendCells hapart (steady_of_reachable hapart hreach.clear) happend
    cell hcell
  have hreach₁ := reachable_appendCells s.levels cells hreach.clear 0
  rw [happend] at hreach₁
  have hgrows := grows_closeExpired (steady_of_reachable hapart hreach₁)
    (idles_of_reachable hapart hreach₁)
  rw [hroot]
  exact ⟨pre, hgiven.mono ((hgrows.trans (grows_emitChanged _)).trans (Grows.drained _))⟩

end Polyglot
