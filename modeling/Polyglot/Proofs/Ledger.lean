import Polyglot.Proofs.Handovers
import Polyglot.Proofs.Rebuilds

/-!
The ledger of a document: the notes of where its foreign code went. As long as every text was taken
since the tree was last emptied, the notes that name a child tell its blocks, one by one and in
order: where each starts, and which editor it came from.
-/
namespace Polyglot

/-- Where a note says that a block starts in the source and in the buffer of a child, and whose it
is. -/
def ForeignBlock.place (note : ForeignBlock) : Nat × Nat × String :=
  (note.sourceLine, note.bufferLine, note.editor)

namespace Document

/-- How many source lines and buffer lines stand before each block, and whose it is. -/
def starts (d : Document) : List (Nat × Nat × String) :=
  d.info.blocks.mapIdx fun j b =>
    ((sourceTable d.info.config.spacing 0 (d.info.blocks.take j)).length,
      (bufferTable d.info.config.spacing 0 (d.info.blocks.take j)).length, b.editor)

/-- The notes of a document, those of each block taken once. -/
def ledger (d : Document) : List ForeignBlock :=
  ((d.sourceLines.filter (·.editorLine = 0)).flatMap (·.foreign)).map Prod.snd

/-- The notes of all blocks. -/
def notes (d : Document) : List ForeignBlock :=
  d.info.blocks.flatMap fun b => b.foreign.map Prod.snd

/-! Reading the notes off the source lines. -/

/-- The first line of a block has its notes. -/
theorem foreign_firstLine {b : Block} (h : 0 < b.height) (first : Nat) :
    ((b.sourceLines first).filter (·.editorLine = 0)).flatMap (·.foreign) = b.foreign := by
  obtain ⟨n, hn⟩ : ∃ n, b.height = n + 1 := ⟨b.height - 1, by omega⟩
  rw [Block.sourceLines, hn, List.range_succ_eq_map, List.map_cons, List.filter_cons_of_pos (by simp),
    List.flatMap_cons, List.filter_eq_nil_iff.mpr, List.flatMap_nil, List.append_nil]
  intro row hrow
  obtain ⟨raw, hraw, rfl⟩ := List.mem_map.mp hrow
  obtain ⟨m, _, rfl⟩ := List.mem_map.mp hraw
  simp

theorem foreign_firstLines {blocks : List Block} (h : ∀ b ∈ blocks, 0 < b.height)
    (spacing first : Nat) :
    ((sourceTable spacing first blocks).filter (·.editorLine = 0)).flatMap (·.foreign) =
      blocks.flatMap (·.foreign) := by
  induction blocks generalizing first with
  | nil => rfl
  | cons b rest ih =>
    rw [sourceTable, List.filter_append, List.flatMap_append,
      foreign_firstLine (h b List.mem_cons_self), ih fun b hb => h b (List.mem_cons_of_mem _ hb),
      List.flatMap_cons]

theorem ledger_eq_notes {d : Document} (h : ∀ b ∈ d.info.blocks, 0 < b.height) :
    d.ledger = d.notes := by
  rw [ledger, sourceLines, foreign_firstLines h, notes, List.map_flatMap]

theorem exists_block_of_row {spacing first : Nat} {blocks : List Block} {row : SourceLine}
    (h : row ∈ sourceTable spacing first blocks) : ∃ b ∈ blocks, row.foreign = b.foreign := by
  induction blocks generalizing first with
  | nil => simp [sourceTable] at h
  | cons b rest ih =>
    rw [sourceTable, List.mem_append] at h
    rcases h with h | h
    · obtain ⟨raw, _, rfl⟩ := List.mem_map.mp h
      exact ⟨b, List.mem_cons_self, rfl⟩
    · obtain ⟨b', hb', hrow⟩ := ih h
      exact ⟨b', List.mem_cons_of_mem _ hb', hrow⟩

/-- Every block has lines. -/
theorem height_law (context : Context) :
    BlockLaw context fun _ blocks => ∀ b ∈ blocks, 0 < b.height where
  empty := by simp
  push hblocks _ editor origin shift foreign := by
    rw [List.forall_mem_append]
    refine ⟨hblocks, ?_⟩
    intro b hb
    obtain rfl := List.mem_singleton.mp hb
    exact List.length_pos_of_ne_nil (Text.lines_ne_nil _)

/-! Where blocks start. -/

theorem starts_eq_of_core_eq {d e : Document} (h : d.core = e.core) : d.starts = e.starts := by
  have hconfig : d.info.config = e.info.config := (nature_eq_iff.mp (congrArg Prod.fst h)).2.1
  have hblocks : d.info.blocks = e.info.blocks := congrArg Prod.snd h
  rw [starts, starts, hconfig, hblocks]

theorem starts_eq_nil_iff {d : Document} : d.starts = [] ↔ d.info.blocks = [] := by
  rw [starts, List.mapIdx_eq_nil_iff]

/-- One more block starts where the others end. -/
theorem starts_snoc {d e : Document} {b : Block} (hconfig : e.info.config = d.info.config)
    (hblocks : e.info.blocks = d.info.blocks ++ [b]) :
    e.starts = d.starts ++ [(d.sourceLines.length, d.bufferLines.length, b.editor)] := by
  rw [starts, starts, hconfig, hblocks, List.mapIdx_append]
  congr 1
  · rw [List.mapIdx_eq_mapIdx_iff]
    intro i hi
    rw [List.take_append_of_le_length (Nat.le_of_lt hi)]
  · simp [sourceLines, bufferLines]

/-! Notes that agree with the children. -/

/-- All notes, and the pending ones of a text that is being taken, name children, and those that name
a child tell its blocks. -/
structure Agrees (pending : List ForeignBlock) (d : Document) : Prop where
  named : ∀ n ∈ d.notes ++ pending, ∃ c ∈ d.children, c.key = n.document
  placed : ∀ c ∈ d.children,
    ((d.notes ++ pending).filter (·.document = c.key)).map ForeignBlock.place = c.starts

theorem notes_eq_of_blocks_eq {d e : Document} (h : d.info.blocks = e.info.blocks) :
    d.notes = e.notes := by
  rw [notes, notes, h]

theorem agrees_of_blank {d : Document} (h : d.Blank) : d.Throughout (Agrees []) := by
  intro e he
  have hnotes : e.notes = [] := by
    rw [notes, h e he]
    rfl
  refine ⟨?_, ?_⟩
  · rw [hnotes]
    simp
  · intro c hc
    rw [hnotes, starts_eq_nil_iff.mpr (h c (he.trans (Owns.child hc (Owns.self c))))]
    rfl

/-- Children without blocks may leave. -/
theorem Agrees.follow {d e : Document} (h : d.Agrees []) (hcore : e.core = d.core)
    (hfrom : ∀ c' ∈ e.children, ∃ c ∈ d.children, c'.core = c.core)
    (hstay : ∀ c ∈ d.children, c.info.blocks ≠ [] → ∃ c' ∈ e.children, c'.core = c.core) :
    e.Agrees [] := by
  have hnotes : e.notes = d.notes := notes_eq_of_blocks_eq (congrArg Prod.snd hcore)
  refine ⟨?_, ?_⟩
  · rw [hnotes]
    intro n hn
    obtain ⟨c, hc, hkey⟩ := h.named n hn
    have hblocks : c.info.blocks ≠ [] := by
      intro hblank
      have hnone := h.placed c hc
      rw [starts_eq_nil_iff.mpr hblank, List.map_eq_nil_iff, List.filter_eq_nil_iff] at hnone
      exact hnone n hn (by simp [hkey])
    obtain ⟨c', hc', hsame⟩ := hstay c hc hblocks
    exact ⟨c', hc', (congrArg Identity.key (id_eq_of_core_eq hsame)).trans hkey⟩
  · intro c' hc'
    obtain ⟨c, hc, hsame⟩ := hfrom c' hc'
    rw [hnotes, starts_eq_of_core_eq hsame,
      show c'.key = c.key from congrArg Identity.key (id_eq_of_core_eq hsame)]
    exact h.placed c hc

theorem agrees_modify {d : Document} {f : Info → Info} (h : d.Throughout (Agrees []))
    (hcore : (d.modify f).core = d.core) : (d.modify f).Throughout (Agrees []) := by
  refine throughout_modify h (h.self.follow hcore ?_ ?_)
  · obtain ⟨info, children, parked⟩ := d
    exact fun c hc => ⟨c, hc, rfl⟩
  · obtain ⟨info, children, parked⟩ := d
    exact fun c hc _ => ⟨c, hc, rfl⟩

section

variable {context : Context} {next : Nat}

/-- The notes of before tell the blocks of the child that is chosen. -/
theorem Agrees.placed_chooseChild (hapart : context.SiblingsApart) {pending : List ForeignBlock}
    {kind : Kind} {d d₁ child : Document} {n₁ : Nat} (hkind : context.Finds d.language kind)
    (hd : d.Steady context next) (h : d.Agrees pending)
    (hc : chooseChild kind next d = ⟨d₁, n₁, .ok child⟩) :
    ((d.notes ++ pending).filter (·.document = child.key)).map ForeignBlock.place =
      child.starts := by
  obtain ⟨_, _, _, hseat⟩ := hd.chooseChild hapart hkind hc
  rcases hseat with ⟨_, c, hmem, _, lifetime, rfl⟩ | ⟨hfree, hblank⟩
  · rw [key_withLifetime, starts_eq_of_core_eq (core_withLifetime c lifetime)]
    exact h.placed c hmem
  · rw [starts_eq_nil_iff.mpr hblank.self, List.map_eq_nil_iff, List.filter_eq_nil_iff]
    intro n hn hname
    obtain ⟨c, hmem, hkey⟩ := h.named n hn
    exact hfree c hmem (hkey.trans (by simpa using hname))

/-- A piece of code is given away, and its note is pending. -/
theorem Agrees.giveFragment (hapart : context.SiblingsApart) {pending : List ForeignBlock}
    {editor : String} {below : Nat} {f : Fragment} {origin : Pos .editor} {d e : Document} {n : Nat}
    {note : Range .text × ForeignBlock} (hkind : context.Finds d.language f.kind)
    (hd : d.Steady context next) (h : d.Agrees pending)
    (hok : giveFragment (appendText context editor below) editor origin f next d =
      ⟨e, n, .ok note⟩) : e.Agrees (pending ++ [note.2]) := by
  obtain ⟨d₁, n₁, child, grown, hand, rfl⟩ := hd.handover hapart hkind hok
  have hplaced := h.placed_chooseChild hapart hkind hd hand.chosen
  obtain ⟨_, _, foreign, kept, _, _, _, _, _, hblocks⟩ := appendText_ok hand.taken
  have hkey : grown.drained.key = child.key := congrArg Identity.key hand.id_eq
  have hstarts : grown.drained.starts = child.starts ++ [(entryFor child editor f.shift).place] := by
    rw [starts_eq_of_core_eq (core_drained grown),
      starts_snoc (nature_eq_iff.mp hand.nature_eq).2.1 hblocks]
    rfl
  have hnotes := notes_eq_of_blocks_eq hand.host.blocks_eq
  refine ⟨?_, ?_⟩
  · rw [hnotes, ← List.append_assoc, List.forall_mem_append]
    constructor
    · intro n hn
      obtain ⟨c, hc, hname⟩ := h.named n hn
      by_cases hsame : c.key = child.key
      · exact ⟨grown.drained, (hand.mem_children hd).mpr (Or.inl rfl),
          hkey.trans (hsame.symm.trans hname)⟩
      · exact ⟨c, (hand.mem_children hd).mpr (Or.inr ⟨hc, hsame⟩), hname⟩
    · intro n hn
      rw [List.mem_singleton.mp hn]
      exact ⟨grown.drained, (hand.mem_children hd).mpr (Or.inl rfl), hkey⟩
  · intro x hx
    rw [hnotes, ← List.append_assoc, List.filter_append, List.map_append]
    rcases (hand.mem_children hd).mp hx with rfl | ⟨hx, hne⟩
    · rw [hstarts, hkey, hplaced, List.filter_cons_of_pos (by simp [entryFor])]
      rfl
    · have hother : ¬ child.key = x.key := fun heq => hne heq.symm
      rw [h.placed x hx, List.filter_cons_of_neg (by simp [entryFor, hother])]
      simp

/-- What a document owns keeps its own ledger while code is given away. -/
theorem agrees_offspring_giveFragment (hapart : context.SiblingsApart) {editor : String}
    {below : Nat}
    (hgive : ∀ {origin shift text next d e n}, d.Steady context next → d.Throughout (Agrees []) →
      appendText context editor below origin shift text next d = ⟨e, n, .ok ()⟩ →
      e.Throughout (Agrees []))
    {f : Fragment} {origin : Pos .editor} {d e : Document} {n : Nat}
    {note : Range .text × ForeignBlock} (hkind : context.Finds d.language f.kind)
    (hd : d.Steady context next) (h : ∀ c ∈ d.offspring, c.Throughout (Agrees []))
    (hok : giveFragment (appendText context editor below) editor origin f next d =
      ⟨e, n, .ok note⟩) : ∀ c ∈ e.offspring, c.Throughout (Agrees []) := by
  obtain ⟨d₁, n₁, child, grown, hand, _⟩ := hd.handover hapart hkind hok
  have hchild : child.Throughout (Agrees []) := by
    refine hd.throughout_chosen hapart hkind hand.chosen h
      (fun c lifetime h => agrees_modify h (core_withLifetime c lifetime)) ?_
    intro uri
    exact agrees_of_blank ((everywhere_node (Q := fun _ blocks => blocks = []) _ _ _).mpr
      ⟨rfl, by simp, by simp⟩)
  have hgrown := hgive hand.child_steady hchild hand.taken
  exact hand.throughout_offspring (agrees_modify hgrown (core_drained grown)) h

theorem agrees_appendForeign (hapart : context.SiblingsApart) {editor : String} {below : Nat}
    (hgive : ∀ {origin shift text next d e n}, d.Steady context next → d.Throughout (Agrees []) →
      appendText context editor below origin shift text next d = ⟨e, n, .ok ()⟩ →
      e.Throughout (Agrees []))
    {fragments : List Fragment} {origin : Pos .editor} {d e : Document} {n : Nat}
    {pending : List ForeignBlock} {notes : List (Range .text × ForeignBlock)}
    (hkinds : ∀ f ∈ fragments, context.Finds d.language f.kind) (hd : d.Steady context next)
    (h : d.Agrees pending) (howned : ∀ c ∈ d.offspring, c.Throughout (Agrees []))
    (hok : appendForeign (appendText context editor below) editor origin fragments next d =
      ⟨e, n, .ok notes⟩) :
    e.Agrees (pending ++ notes.map Prod.snd) ∧ ∀ c ∈ e.offspring, c.Throughout (Agrees []) := by
  induction fragments generalizing next d pending notes with
  | nil =>
    cases hok
    rw [List.map_nil, List.append_nil]
    exact ⟨h, howned⟩
  | cons f rest ih =>
    obtain ⟨d₁, n₁, note, later, hone, hrest, rfl⟩ := appendForeign_cons_ok hok
    have hkind := hkinds f List.mem_cons_self
    obtain ⟨_, _, _, _, hand, _⟩ := hd.handover hapart hkind hone
    have hstep := ih (fun g hg => hand.host.language_eq ▸ hkinds g (List.mem_cons_of_mem f hg))
      hand.steady (h.giveFragment hapart hkind hd hone)
      (agrees_offspring_giveFragment hapart hgive hkind hd howned hone) hrest
    rw [List.append_assoc] at hstep
    exact hstep

/-- A text that is taken is noted. -/
theorem agrees_appendText (hapart : context.SiblingsApart) {editor : String} {levels : Nat}
    {origin : Pos .editor} {shift : Option (Pos .source)} {text : Text} {d e : Document} {n : Nat}
    (hd : d.Steady context next) (h : d.Throughout (Agrees []))
    (hok : appendText context editor levels origin shift text next d = ⟨e, n, .ok ()⟩) :
    e.Throughout (Agrees []) := by
  induction levels generalizing origin shift text next n d e with
  | zero =>
    obtain ⟨below, _, _, _, hlevels, _⟩ := appendText_ok hok
    cases hlevels
  | succ levels ih =>
    obtain ⟨below, d₁, foreign, kept, hlevels, hforeign, _, hhost, rfl, hblocks⟩ := appendText_ok hok
    cases hlevels
    obtain ⟨hself, howned⟩ := throughout_iff.mp h
    obtain ⟨hgiven, howned₁⟩ := agrees_appendForeign hapart ih
      (fun f hf => Fragment.finds_of_mem_peel hf) hd hself howned hforeign
    -- the pending notes are written down with the block of the text
    have hnotes : (d₁.push (blockOf context.rules d.language editor origin shift text kept
        foreign)).notes = d₁.notes ++ foreign.map Prod.snd := by
      rw [notes, hblocks, List.flatMap_append, notes, hhost.blocks_eq, List.flatMap_singleton]
      rfl
    rw [throughout_iff, push, offspring_modify, ← push]
    refine ⟨⟨?_, ?_⟩, howned₁⟩
    · rw [hnotes, List.append_nil]
      cases d₁
      exact hgiven.named
    · rw [hnotes, List.append_nil]
      cases d₁
      exact hgiven.placed

/-! Sweeping and telling. -/

theorem agrees_closeExpired {d : Document} (hd : d.Steady context next) (hidle : d.Throughout Idles)
    (h : d.Throughout (Agrees [])) : d.closeExpired.Throughout (Agrees []) := by
  induction d using tree_induction with
  | step info children parked ihc _ =>
    obtain ⟨hself, howned⟩ := throughout_iff.mp h
    have hown : ∀ {x}, x ∈ children → x ∈ (node info children parked).offspring :=
      fun hx => List.mem_append_left _ hx
    have hchildren : (node info children parked).closeExpired.children =
        (children.filter (isStaying info.idle)).map fun c => (swept info.idle c).drained := by
      rw [closeExpired, closeStaying_eq, List.map_map]
      rfl
    have hcore : ∀ c, (swept info.idle c).drained.core = c.core :=
      fun c => (core_drained _).trans (core_swept info.idle c)
    rw [throughout_iff]
    refine ⟨hself.follow (core_closeExpired _) ?_ ?_, ?_⟩
    · rw [hchildren]
      intro c' hc'
      obtain ⟨c, hc, rfl⟩ := List.mem_map.mp hc'
      exact ⟨c, (List.mem_filter.mp hc).1, hcore c⟩
    · rw [hchildren]
      intro c hc hblocks
      have hstays := (hidle.self.stays hd.self.sorted hc hblocks).1
      exact ⟨_, List.mem_map.mpr ⟨c, List.mem_filter.mpr ⟨hc, hstays⟩, rfl⟩, hcore c⟩
    · rw [offspring_closeExpired]
      intro c hc
      rcases List.mem_append.mp hc with hc | hc
      · obtain ⟨x, hx, rfl⟩ := List.mem_map.mp hc
        have hmem := (List.mem_filter.mp hx).1
        have hswept := ihc x hmem (hd.of_mem_offspring (hown hmem))
          ((throughout_iff.mp hidle).2 x (hown hmem)) (howned x (hown hmem))
        refine agrees_modify ?_ (core_drained _)
        unfold swept
        split
        · exact agrees_modify hswept (core_withLifetime _ _)
        · exact hswept
      · obtain ⟨x, hx, rfl⟩ := List.mem_map.mp hc
        exact agrees_modify (howned x (List.mem_append_right _ (List.mem_filter.mp hx).1))
          (core_withLifetime _ _)

theorem agrees_emitChanged {d : Document} (h : d.Throughout (Agrees [])) :
    d.emitChanged.Throughout (Agrees []) := by
  induction d using tree_induction with
  | step info children parked ihc _ =>
    obtain ⟨hself, howned⟩ := throughout_iff.mp h
    have hchildren : (node info children parked).emitChanged.children =
        children.map fun c => c.emitChanged.drained := by
      rw [emitChanged, emitChangedAll_eq, List.map_map]
      rfl
    have hcore : ∀ c : Document, c.emitChanged.drained.core = c.core :=
      fun c => (core_drained _).trans (core_emitChanged c)
    rw [throughout_iff]
    refine ⟨hself.follow (core_emitChanged _) ?_ ?_, ?_⟩
    · rw [hchildren]
      intro c' hc'
      obtain ⟨c, hc, rfl⟩ := List.mem_map.mp hc'
      exact ⟨c, hc, hcore c⟩
    · rw [hchildren]
      exact fun c hc _ => ⟨_, List.mem_map.mpr ⟨c, hc, rfl⟩, hcore c⟩
    · rw [offspring_emitChanged]
      intro c hc
      rcases List.mem_append.mp hc with hc | hc
      · obtain ⟨x, hx, rfl⟩ := List.mem_map.mp hc
        exact agrees_modify (ihc x hx (howned x (List.mem_append_left _ hx))) (core_drained _)
      · exact howned c (List.mem_append_right _ hc)

/-! Trees in which every text was taken. -/

/-- The trees that can arise, and in which every text was taken since they were last emptied. -/
inductive Unbroken (context : Context) : Nat → Document → Prop
  | root (language : String) (path : Url) (extension : String) (number : Nat) :
      Unbroken context (number + 1) (root context.config language path extension number)
  | clear {next : Nat} {d : Document} : Reachable context next d → Unbroken context next d.clear
  | append {next : Nat} {d : Document} (levels : Nat) (text : Text) (editor : String)
      (origin : Pos .editor) (shift : Option (Pos .source)) : Unbroken context next d →
      (appendText context editor levels origin shift text next d).result = .ok () →
      Unbroken context (appendText context editor levels origin shift text next d).next
        (appendText context editor levels origin shift text next d).document
  | wait {next later : Nat} {d : Document} :
      Unbroken context next d → next ≤ later → Unbroken context later d
  | closeExpired {next : Nat} {d : Document} :
      Unbroken context next d → Unbroken context next d.closeExpired
  | emitChanged {next : Nat} {d : Document} :
      Unbroken context next d → Unbroken context next d.emitChanged
  | dispose {next : Nat} {d : Document} : Unbroken context next d → Unbroken context next d.dispose
  | drained {next : Nat} {d : Document} : Unbroken context next d → Unbroken context next d.drained

theorem Unbroken.reachable {d : Document} (h : Unbroken context next d) :
    Reachable context next d := by
  induction h with
  | root language path extension number => exact Reachable.root language path extension number
  | clear h => exact h.clear
  | append levels text editor origin shift _ _ ih => exact ih.append levels text editor origin shift
  | wait _ hle ih => exact ih.wait hle
  | closeExpired _ ih => exact ih.closeExpired
  | emitChanged _ ih => exact ih.emitChanged
  | dispose _ ih => exact ih.dispose
  | drained _ ih => exact ih.drained

theorem Unbroken.agrees (hapart : context.SiblingsApart) {d : Document}
    (h : Unbroken context next d) : d.Throughout (Agrees []) := by
  have hleaf : ∀ {info : Info}, info.blocks = [] → (node info [] []).Throughout (Agrees []) :=
    fun hblocks => agrees_of_blank ((everywhere_node (Q := fun _ blocks => blocks = []) _ _ _).mpr
      ⟨hblocks, by simp, by simp⟩)
  induction h with
  | root language path extension number => exact hleaf rfl
  | clear hd => exact agrees_of_blank (blank_clear (emptied_of_reachable hd))
  | @append next d levels text editor origin shift hd hok ih =>
    have htaken : appendText context editor levels origin shift text next d =
        ⟨(appendText context editor levels origin shift text next d).document,
          (appendText context editor levels origin shift text next d).next, .ok ()⟩ := by
      rw [← hok]
    exact agrees_appendText hapart (steady_of_reachable hapart hd.reachable) ih htaken
  | wait _ _ ih => exact ih
  | closeExpired hd ih =>
    exact agrees_closeExpired (steady_of_reachable hapart hd.reachable)
      (idles_of_reachable hapart hd.reachable) ih
  | emitChanged _ ih => exact agrees_emitChanged ih
  | @dispose _ d _ ih =>
    obtain ⟨info, children, parked⟩ := d
    rw [Document.dispose]
    split
    · exact ih
    · exact hleaf rfl
  | drained _ ih => exact agrees_modify ih (core_drained _)

/-- The ledger. In a tree in which every text was taken since it was last emptied, every note of a
document names a child, and the notes that name a child tell its blocks one by one and in order:
how many source lines and buffer lines the blocks before have, and the editor. -/
theorem ledger_tells_blocks (hapart : context.SiblingsApart) {tree d : Document}
    (h : Unbroken context next tree) (howns : tree.Owns d) :
    (∀ row ∈ d.sourceLines, ∀ note ∈ row.foreign, ∃ c ∈ d.children, c.key = note.2.document) ∧
    ∀ c ∈ d.children,
      (d.ledger.filter (·.document = c.key)).map ForeignBlock.place = c.starts := by
  have hagrees := h.agrees hapart d howns
  have hheights : ∀ b ∈ d.info.blocks, 0 < b.height :=
    (height_law context).reachable h.reachable d howns
  constructor
  · intro row hrow note hnote
    obtain ⟨b, hb, hforeign⟩ := exists_block_of_row hrow
    refine hagrees.named note.2 (List.mem_append_left _ (List.mem_flatMap.mpr ⟨b, hb, ?_⟩))
    exact List.mem_map_of_mem (hforeign ▸ hnote)
  · intro c hc
    rw [ledger_eq_notes hheights]
    have hplaced := hagrees.placed c hc
    rwa [List.append_nil] at hplaced

end

theorem mem_children_of_child? {d c : Document} {key : String} (h : d.child? key = some c) :
    c ∈ d.children ∧ c.key = key := by
  rw [child?] at h
  exact ⟨List.mem_of_find?_eq_some h, by simpa using List.find?_some h⟩

/-- A document that was given one text, and found a letter in it. -/
def onceNoted : Outcome Unit :=
  appendText nestedSession.context "c0" 2 Pos.origin none "z".toList 1
    (root nestedSession.context.config "cel" tailRoot.uri "cel" 0)

/-- The same document with another text, and another letter. -/
def twiceNoted : Outcome Unit :=
  appendText nestedSession.context "c1" 2 Pos.origin none "az".toList onceNoted.next
    onceNoted.document

theorem unbroken_twiceNoted :
    Unbroken nestedSession.context twiceNoted.next twiceNoted.document := by
  have hroot : Unbroken nestedSession.context 1
      (root nestedSession.context.config "cel" tailRoot.uri "cel" 0) :=
    Unbroken.root "cel" tailRoot.uri "cel" 0
  have honce := hroot.append 2 "z".toList "c0" Pos.origin none (by decide +kernel)
  exact honce.append 2 "az".toList "c1" Pos.origin none (by decide +kernel)

/-- The second letter is noted behind the line of the first and two blank lines. -/
theorem ledger_tells_blocks_twiceNoted :
    Unbroken nestedSession.context twiceNoted.next twiceNoted.document ∧
    (twiceNoted.document.ledger.filter (·.document = "word")).map ForeignBlock.place =
      [(0, 0, "c0"), (1, 3, "c1")] := by
  have hchild : (twiceNoted.document.child? "word").map starts =
      some [(0, 0, "c0"), (1, 3, "c1")] := by decide +kernel
  obtain ⟨c, hc, hstarts⟩ := Option.map_eq_some_iff.mp hchild
  obtain ⟨hmem, hkey⟩ := mem_children_of_child? hc
  have htells := (ledger_tells_blocks siblingsApart_nestedSession unbroken_twiceNoted
    (Owns.self _)).2 c hmem
  rw [hkey, hstarts] at htells
  exact ⟨unbroken_twiceNoted, htells⟩

/-- A document whose two letters go to children of one key. -/
def twiceNamed : Outcome Unit :=
  appendText crossedSession.context "cell" 2 Pos.origin none "ab".toList 1
    (root crossedSession.context.config "python" tailRoot.uri "py" 0)

/-- Where keys are not apart, the second document takes the place of the first: two notes name one
child, and it has one block. -/
theorem crossed_keys_break_ledger :
    Unbroken crossedSession.context twiceNamed.next twiceNamed.document ∧
    ∃ c ∈ twiceNamed.document.children,
      (twiceNamed.document.ledger.filter (·.document = c.key)).map ForeignBlock.place =
        [(0, 0, "cell"), (0, 0, "cell")] ∧
      c.starts = [(0, 0, "cell")] := by
  have hroot : Unbroken crossedSession.context 1
      (root crossedSession.context.config "python" tailRoot.uri "py" 0) :=
    Unbroken.root "python" tailRoot.uri "py" 0
  have htree := hroot.append 2 "ab".toList "cell" Pos.origin none (by decide +kernel)
  have hledger : (twiceNamed.document.ledger.filter (·.document = "2(cel)")).map
      ForeignBlock.place = [(0, 0, "cell"), (0, 0, "cell")] := by decide +kernel
  have hchild : (twiceNamed.document.child? "2(cel)").map starts = some [(0, 0, "cell")] := by
    decide +kernel
  obtain ⟨c, hc, hstarts⟩ := Option.map_eq_some_iff.mp hchild
  obtain ⟨hmem, hkey⟩ := mem_children_of_child? hc
  refine ⟨htree, c, hmem, ?_, hstarts⟩
  rw [hkey]
  exact hledger

end Document

end Polyglot
