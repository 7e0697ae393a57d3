import Polyglot.Proofs.Alike
import Polyglot.Proofs.Idle
import Mathlib.Data.List.Forall2

/-!
Twins are documents that hold the same blocks, their children that hold blocks being twins in turn.
They may differ in their numbers, in children and parked documents that hold nothing, and in all
that does not depend on blocks. Two blank documents of a language are twins, and twins that take
the same text are twins again: code goes to a child that holds blocks in both trees or in none.
-/
namespace Polyglot

/-- A note apart from the key of the document that took the code. -/
def ForeignBlock.unnamed (note : ForeignBlock) : ForeignBlock := { note with document := "" }

/-- Notes of one piece of code, taken by documents whose keys correspond. -/
structure Notes.Twin (K : String → String → Prop) (note note' : Range .text × ForeignBlock) :
    Prop where
  range_eq : note.1 = note'.1
  unnamed_eq : note.2.unnamed = note'.2.unnamed
  key : K note.2.document note'.2.document

/-- Blocks of one text. -/
structure Block.Twin (K : String → String → Prop) (b b' : Block) : Prop where
  bare_eq : b.bare = b'.bare
  notes : List.Forall₂ (Notes.Twin K) b.foreign b'.foreign

section

variable {K K' : String → String → Prop}

theorem Notes.Twin.mono (hK : ∀ k k', K k k' → K' k k') {note note' : Range .text × ForeignBlock}
    (h : Notes.Twin K note note') : Notes.Twin K' note note' := { h with key := hK _ _ h.key }

theorem Block.Twin.mono (hK : ∀ k k', K k k' → K' k k') {b b' : Block} (h : Block.Twin K b b') :
    Block.Twin K' b b' := ⟨h.bare_eq, h.notes.imp fun _ _ => Notes.Twin.mono hK⟩

theorem Notes.Twin.symm {note note' : Range .text × ForeignBlock} (h : Notes.Twin K note note') :
    Notes.Twin (fun k' k => K k k') note' note := ⟨h.range_eq.symm, h.unnamed_eq.symm, h.key⟩

theorem Block.Twin.symm {b b' : Block} (h : Block.Twin K b b') :
    Block.Twin (fun k' k => K k k') b' b :=
  ⟨h.bare_eq.symm, (h.notes.imp fun _ _ hnote => hnote.symm).flip⟩

end

namespace Document

/-- The keys of documents that correspond. -/
def KeysOf (P : Document → Document → Prop) (k k' : String) : Prop :=
  ∃ c c', P c c' ∧ c.key = k ∧ c'.key = k'

/-- Documents with the same blocks, where `P` relates each child that holds blocks to one of the
other document. -/
structure Matches (P : Document → Document → Prop) (d d' : Document) : Prop where
  language_eq : d.language = d'.language
  standalone_eq : d.id.kind.standalone = d'.id.kind.standalone
  config_eq : d.info.config = d'.info.config
  blocks : List.Forall₂ (Block.Twin (KeysOf P)) d.info.blocks d'.info.blocks
  mem : ∀ c c', P c c' → c ∈ d.children ∧ c' ∈ d'.children
  held : ∀ c c', P c c' → c.info.blocks ≠ [] ∧ c'.info.blocks ≠ []
  keys : ∀ c c' e e', P c c' → P e e' → (c.key = e.key ↔ c'.key = e'.key)
  left : ∀ c ∈ d.children, c.Blank ∨ ∃ c', P c c'
  right : ∀ c' ∈ d'.children, c'.Blank ∨ ∃ c, P c c'

inductive Twin : Document → Document → Prop
  | intro {d d' : Document} (P : Document → Document → Prop) :
      Matches P d d' → (∀ c c', P c c' → Twin c c') → Twin d d'

section

variable {P : Document → Document → Prop} {d d' : Document}

theorem Matches.symm (h : Matches P d d') : Matches (fun c' c => P c c') d' d where
  language_eq := h.language_eq.symm
  standalone_eq := h.standalone_eq.symm
  config_eq := h.config_eq.symm
  blocks := by
    refine (h.blocks.imp fun b b' hb => hb.symm.mono ?_).flip
    rintro k' k ⟨c, c', hP, rfl, rfl⟩
    exact ⟨c', c, hP, rfl, rfl⟩
  mem c' c hP := (h.mem c c' hP).symm
  held c' c hP := (h.held c c' hP).symm
  keys c' c e' e hP hP' := (h.keys c c' e e' hP hP').symm
  left := h.right
  right := h.left

theorem Twin.symm (h : Twin d d') : Twin d' d := by
  induction h with
  | intro P hmatch _ ih => exact Twin.intro _ hmatch.symm fun c' c hP => ih c c' hP

theorem Matches.alike (h : Matches P d d') : d.Alike d' where
  config_eq := h.config_eq
  blocks_eq := by
    have hblocks := h.blocks
    revert hblocks
    generalize d.info.blocks = blocks
    generalize d'.info.blocks = blocks'
    intro hblocks
    induction hblocks with
    | nil => rfl
    | cons hb _ ih => rw [List.map_cons, List.map_cons, hb.bare_eq, ih]

theorem Twin.alike (h : Twin d d') : d.Alike d' := by
  obtain ⟨P, hmatch, _⟩ := h
  exact hmatch.alike

theorem Twin.kind_eq (h : Twin d d') :
    d.language = d'.language ∧ d.id.kind.standalone = d'.id.kind.standalone := by
  obtain ⟨P, hmatch, _⟩ := h
  exact ⟨hmatch.language_eq, hmatch.standalone_eq⟩

/-- Shared twins have the same key. -/
theorem Twin.key_eq (h : Twin d d') (hshared : d.id.kind.standalone = false) : d.key = d'.key := by
  obtain ⟨hlanguage, hstandalone⟩ := h.kind_eq
  have hshared' := hstandalone.symm.trans hshared
  rw [key, Identity.key, Identity.keyOf, hshared, key, Identity.key, Identity.keyOf, hshared']
  exact hlanguage

theorem twin_of_blank (hd : d.Blank) (hd' : d'.Blank) (hlanguage : d.language = d'.language)
    (hstandalone : d.id.kind.standalone = d'.id.kind.standalone)
    (hconfig : d.info.config = d'.info.config) : Twin d d' := by
  refine Twin.intro (fun _ _ => False) ⟨hlanguage, hstandalone, hconfig, ?_, by simp, by simp,
    by simp, ?_, ?_⟩ (by simp)
  · have hblocks : d.info.blocks = [] := hd.self
    have hblocks' : d'.info.blocks = [] := hd'.self
    rw [hblocks, hblocks']
    exact List.Forall₂.nil
  · exact fun c hc => Or.inl fun e he => hd e (Owns.child hc he)
  · exact fun c hc => Or.inl fun e he => hd' e (Owns.child hc he)

/-- A document stays a twin as long as it keeps its core, when children that hold blocks stay and
are twins, and those that hold none leave it or hold none. -/
theorem Matches.follow (h : Matches P d d') {e : Document} (hcore : e.core = d.core)
    (f : Document → Document) (hkeys : ∀ c ∈ d.children, (f c).core = c.core)
    (hchildren : ∀ x ∈ e.children, ∃ c ∈ d.children, f c = x)
    (hstays : ∀ c c', P c c' → f c ∈ e.children)
    (hblank : ∀ c ∈ d.children, c.Blank → (f c).Blank)
    (htwin : ∀ c c', P c c' → Twin (f c) c') : Twin e d' := by
  obtain ⟨hid, hconfig, _⟩ := nature_eq_iff.mp (congrArg Prod.fst hcore)
  have hblocks : e.info.blocks = d.info.blocks := congrArg Prod.snd hcore
  have hkey : ∀ c ∈ d.children, (f c).key = c.key := fun c hc =>
    congrArg Identity.key (id_eq_of_core_eq (hkeys c hc))
  refine Twin.intro (fun x c' => ∃ c, P c c' ∧ f c = x)
    ⟨?_, ?_, hconfig.trans h.config_eq, ?_, ?_, ?_, ?_, ?_, ?_⟩ ?_
  · rw [language, hid]
    exact h.language_eq
  · rw [hid]
    exact h.standalone_eq
  · rw [hblocks]
    refine h.blocks.imp fun b b' hb => hb.mono ?_
    rintro k k' ⟨c, c', hP, rfl, rfl⟩
    exact ⟨f c, c', ⟨c, hP, rfl⟩, hkey c (h.mem c c' hP).1, rfl⟩
  · rintro x c' ⟨c, hP, rfl⟩
    exact ⟨hstays c c' hP, (h.mem c c' hP).2⟩
  · rintro x c' ⟨c, hP, rfl⟩
    have hsame : (f c).info.blocks = c.info.blocks :=
      congrArg Prod.snd (hkeys c (h.mem c c' hP).1)
    rw [hsame]
    exact h.held c c' hP
  · rintro x c' y e' ⟨c, hP, rfl⟩ ⟨e, hP', rfl⟩
    rw [hkey c (h.mem c c' hP).1, hkey e (h.mem e e' hP').1]
    exact h.keys c c' e e' hP hP'
  · intro x hx
    obtain ⟨c, hc, rfl⟩ := hchildren x hx
    rcases h.left c hc with hnone | ⟨c', hP⟩
    · exact Or.inl (hblank c hc hnone)
    · exact Or.inr ⟨c', c, hP, rfl⟩
  · intro c' hc'
    rcases h.right c' hc' with hnone | ⟨c, hP⟩
    · exact Or.inl hnone
    · exact Or.inr ⟨f c, c, hP, rfl⟩
  · rintro x c' ⟨c, hP, rfl⟩
    exact htwin c c' hP

theorem Twin.modify (h : Twin d d') {f : Info → Info} (hcore : (d.modify f).core = d.core) :
    Twin (d.modify f) d' := by
  obtain ⟨P, hmatch, htwin⟩ := h
  have hchildren : (d.modify f).children = d.children := by
    cases d
    rfl
  refine hmatch.follow hcore (fun c => c) (fun _ _ => rfl) ?_ ?_ (fun _ _ hc => hc) htwin
  · exact fun x hx => ⟨x, hchildren ▸ hx, rfl⟩
  · exact fun c c' hP => hchildren ▸ (hmatch.mem c c' hP).1

theorem Twin.modify_right (h : Twin d d') {f : Info → Info} (hcore : (d'.modify f).core = d'.core) :
    Twin d (d'.modify f) := (h.symm.modify hcore).symm

/-! Aging and telling. -/

/-- Nobody who holds blocks is idle, so they stay when the tree ages. -/
theorem Twin.closeExpired {context : Context} {next : Nat} (h : Twin d d')
    (hsteady : d.Steady context next) (hidles : d.Throughout Idles) : Twin d.closeExpired d' := by
  induction h with
  | @intro d d' P hmatch _ ih =>
    have hcore := core_closeExpired d
    obtain ⟨info, children, parked⟩ := d
    obtain ⟨hsound, hsteadies, _⟩ := (steady_node _ _ _).mp hsteady
    obtain ⟨hidle, hbelow, _⟩ := (throughout_node _ _ _ _).mp hidles
    rw [Document.closeExpired, closeStaying_eq, List.map_map] at hcore ⊢
    have hcores : ∀ c : Document, (drained (swept info.idle c)).core = c.core := fun c =>
      (core_drained _).trans (core_swept info.idle c)
    have hstays : ∀ c c', P c c' → isStaying info.idle c = true ∧
        swept info.idle c = c.closeExpired := fun c c' hP =>
      hidle.stays hsound.sorted (hmatch.mem c c' hP).1 (hmatch.held c c' hP).1
    refine hmatch.follow hcore (drained ∘ swept info.idle) (fun c _ => hcores c) ?_ ?_ ?_ ?_
    · intro x hx
      obtain ⟨c, hc, rfl⟩ := List.mem_map.mp hx
      exact ⟨c, (List.mem_filter.mp hc).1, rfl⟩
    · intro c c' hP
      exact List.mem_map_of_mem (List.mem_filter.mpr ⟨(hmatch.mem c c' hP).1, (hstays c c' hP).1⟩)
    · intro c _ hblank
      have hclosed : c.closeExpired.Blank :=
        Lasting.closeExpired (everywhere_lasting (Q := fun _ blocks => blocks = [])) hblank
      have hswept : (swept info.idle c).Blank := by
        unfold swept
        split
        · exact Everywhere.withLifetime (Q := fun _ blocks => blocks = []) hclosed _
        · exact hclosed
      exact Everywhere.drained (Q := fun _ blocks => blocks = []) hswept
    · intro c c' hP
      have hmem := (hmatch.mem c c' hP).1
      rw [Function.comp_apply, (hstays c c' hP).2]
      exact (ih c c' hP (hsteadies c hmem) (hbelow c hmem)).modify (core_drained _)

theorem Twin.emitChanged (h : Twin d d') : Twin d.emitChanged d' := by
  induction h with
  | @intro d d' P hmatch _ ih =>
    have hcore := core_emitChanged d
    obtain ⟨info, children, parked⟩ := d
    rw [Document.emitChanged, emitChangedAll_eq, List.map_map] at hcore ⊢
    refine hmatch.follow hcore (drained ∘ Document.emitChanged)
      (fun c _ => (core_drained _).trans (core_emitChanged c)) ?_ ?_ ?_ ?_
    · intro x hx
      obtain ⟨c, hc, rfl⟩ := List.mem_map.mp hx
      exact ⟨c, hc, rfl⟩
    · exact fun c c' hP => List.mem_map_of_mem (hmatch.mem c c' hP).1
    · intro c _ hblank
      exact Everywhere.drained (Q := fun _ blocks => blocks = [])
        (Lasting.emitChanged (everywhere_lasting (Q := fun _ blocks => blocks = [])) hblank)
    · exact fun c c' hP => (ih c c' hP).modify (core_drained _)

end

/-! Taking a text. -/

section

variable {context : Context} {next next' : Nat} {P : Document → Document → Prop}
  {d d' : Document}

/-- The child that is chosen for code holds blocks already, or else nothing that holds blocks has
its key. -/
theorem Steady.held_or_free (hapart : context.SiblingsApart) {kind : Kind} {d₁ child : Document}
    {n₁ : Nat} (hkind : context.Finds d.language kind) (h : d.Steady context next)
    (hblank : ∀ c ∈ d.children, c.Blank ∨ c.info.blocks ≠ [])
    (hc : Document.chooseChild kind next d = ⟨d₁, n₁, .ok child⟩) :
    (kind.standalone = false ∧ ∃ c ∈ d.children, c.info.blocks ≠ [] ∧
      ∃ lifetime, child = c.withLifetime lifetime) ∨
    (child.Blank ∧ ∀ c ∈ d.children, c.info.blocks ≠ [] → c.key ≠ child.key) := by
  obtain ⟨_, _, _, hseat⟩ := h.chooseChild hapart hkind hc
  rcases hseat with ⟨hshared, c, hmem, hkey, lifetime, rfl⟩ | ⟨hfresh, hnone⟩
  · rcases hblank c hmem with hnone | hheld
    · refine Or.inr ⟨Everywhere.withLifetime (Q := fun _ blocks => blocks = []) hnone lifetime, ?_⟩
      intro x hx hheld hsame
      rw [key_withLifetime] at hsame
      rw [h.self.sorted.eq_of_key_eq hx hmem hsame] at hheld
      exact hheld hnone.self
    · exact Or.inl ⟨hshared, c, hmem, hheld, lifetime, rfl⟩
  · exact Or.inr ⟨hnone, fun c hc _ => hfresh c hc⟩

/-- The children that two matching documents choose are twins, and stand at corresponding places. -/
theorem Matches.chooseChild (hapart : context.SiblingsApart) {kind : Kind}
    {d₁ d₁' child child' : Document} {n₁ n₁' : Nat} (hkind : context.Finds d.language kind)
    (h : Matches P d d') (htwin : ∀ c c', P c c' → Twin c c') (hd : d.Steady context next)
    (hd' : d'.Steady context next') (hc : Document.chooseChild kind next d = ⟨d₁, n₁, .ok child⟩)
    (hc' : Document.chooseChild kind next' d' = ⟨d₁', n₁', .ok child'⟩) :
    Twin child child' ∧ ∀ c c', P c c' → (c.key = child.key ↔ c'.key = child'.key) := by
  have hkind' : context.Finds d'.language kind := h.language_eq ▸ hkind
  obtain ⟨hlanguage, hstandalone⟩ := hd.kind_of_chooseChild hapart hkind hc
  obtain ⟨hlanguage', hstandalone'⟩ := hd'.kind_of_chooseChild hapart hkind' hc'
  obtain ⟨_, hsteady, _, _⟩ := hd.chooseChild hapart hkind hc
  obtain ⟨_, hsteady', _, _⟩ := hd'.chooseChild hapart hkind' hc'
  -- shared children of one language have one key
  have hkeys : kind.standalone = false → child.key = child'.key := by
    intro hshared
    rw [key, Identity.key, Identity.keyOf, hstandalone, key, Identity.key, Identity.keyOf,
      hstandalone', hshared]
    exact hlanguage.trans hlanguage'.symm
  have hleft : ∀ c ∈ d.children, c.Blank ∨ c.info.blocks ≠ [] := by
    intro c hmem
    rcases h.left c hmem with hblank | ⟨c', hP⟩
    · exact Or.inl hblank
    · exact Or.inr (h.held c c' hP).1
  have hright : ∀ c' ∈ d'.children, c'.Blank ∨ c'.info.blocks ≠ [] := by
    intro c' hmem
    rcases h.right c' hmem with hblank | ⟨c, hP⟩
    · exact Or.inl hblank
    · exact Or.inr (h.held c c' hP).2
  rcases hd.held_or_free hapart hkind hleft hc with
    ⟨hshared, c, hmem, hheld, lifetime, rfl⟩ | ⟨hblank, hfree⟩
  · -- the child has a partner, which is chosen on the other side
    rw [key_withLifetime] at hkeys
    obtain ⟨c', hP⟩ := (h.left c hmem).resolve_left fun hblank => hheld hblank.self
    have hkey : c.key = c'.key := by
      refine (htwin c c' hP).key_eq ?_
      rw [← id_eq_of_nature_eq (nature_withLifetime c lifetime), hstandalone, hshared]
    have hkey' : c'.key = child'.key := hkey.symm.trans (hkeys hshared)
    refine ⟨?_, ?_⟩
    · rcases hd'.held_or_free hapart hkind' hright hc' with
        ⟨_, x', hx', _, lifetime', rfl⟩ | ⟨_, hfree⟩
      · rw [key_withLifetime] at hkey'
        rw [← hd'.self.sorted.eq_of_key_eq (h.mem c c' hP).2 hx' hkey']
        exact ((htwin c c' hP).modify (core_withLifetime c _)).modify_right
          (core_withLifetime c' _)
      · exact absurd hkey' (hfree c' (h.mem c c' hP).2 (h.held c c' hP).2)
    · intro e e' hP'
      rw [key_withLifetime, ← hkey']
      exact h.keys e e' c c' hP' hP
  · rcases hd'.held_or_free hapart hkind' hright hc' with
      ⟨hshared, x', hx', hheld, lifetime', rfl⟩ | ⟨hblank', hfree'⟩
    · -- a partner of the child on the other side would have been chosen here
      rw [key_withLifetime] at hkeys
      obtain ⟨x, hP⟩ := (h.right x' hx').resolve_left fun hblank => hheld hblank.self
      have hkey : x.key = x'.key := by
        refine (htwin x x' hP).key_eq ?_
        rw [(htwin x x' hP).kind_eq.2,
          ← id_eq_of_nature_eq (nature_withLifetime x' lifetime'), hstandalone', hshared]
      exact absurd (hkey.trans (hkeys hshared).symm)
        (hfree x (h.mem x x' hP).1 (h.held x x' hP).1)
    · refine ⟨twin_of_blank hblank hblank' (hlanguage.trans hlanguage'.symm)
        (hstandalone.trans hstandalone'.symm)
        (hsteady.self.config.trans hsteady'.self.config.symm), ?_⟩
      intro c c' hP
      constructor
      · exact fun hkey => absurd hkey (hfree c (h.mem c c' hP).1 (h.held c c' hP).1)
      · exact fun hkey => absurd hkey (hfree' c' (h.mem c c' hP).2 (h.held c c' hP).2)

/-- A child of each of two matching documents takes the place of the one with its key; they are
twins that hold blocks, and correspond. -/
theorem Matches.putChild {e e' g g' : Document} (h : Matches P d d')
    (htwin : ∀ c c', P c c' → Twin c c') (hsame : SameHost d e) (hsame' : SameHost d' e')
    (hchildren : e.children = insertByKey g d.children)
    (hchildren' : e'.children = insertByKey g' d'.children) (hsorted : Sorted d.children)
    (hsorted' : Sorted d'.children) (hgrown : Twin g g') (hheld : g.info.blocks ≠ [])
    (hkeys : ∀ c c', P c c' → (c.key = g.key ↔ c'.key = g'.key)) :
    ∃ P', Matches P' e e' ∧ (∀ c c', P' c c' → Twin c c') ∧ KeysOf P' g.key g'.key ∧
      ∀ k k', KeysOf P k k' → KeysOf P' k k' := by
  have hmono : ∀ k k', KeysOf P k k' →
      KeysOf (fun c c' => c = g ∧ c' = g' ∨ P c c' ∧ c.key ≠ g.key) k k' := by
    rintro k k' ⟨c, c', hP, rfl, rfl⟩
    by_cases hkey : c.key = g.key
    · exact ⟨g, g', Or.inl ⟨rfl, rfl⟩, hkey.symm, ((hkeys c c' hP).mp hkey).symm⟩
    · exact ⟨c, c', Or.inr ⟨hP, hkey⟩, rfl, rfl⟩
  have hheld' : g'.info.blocks ≠ [] := by
    intro hnil
    have hblocks := hgrown.alike.blocks_eq
    rw [hnil, List.map_nil, List.map_eq_nil_iff] at hblocks
    exact hheld hblocks
  refine ⟨fun c c' => c = g ∧ c' = g' ∨ P c c' ∧ c.key ≠ g.key,
    ⟨?_, ?_, ?_, ?_, ?_, ?_, ?_, ?_, ?_⟩, ?_, ⟨g, g', Or.inl ⟨rfl, rfl⟩, rfl, rfl⟩, hmono⟩
  · rw [hsame.language_eq, hsame'.language_eq, h.language_eq]
  · rw [hsame.id_eq, hsame'.id_eq, h.standalone_eq]
  · rw [(nature_eq_iff.mp hsame.nature_eq).2.1, (nature_eq_iff.mp hsame'.nature_eq).2.1, h.config_eq]
  · rw [hsame.blocks_eq, hsame'.blocks_eq]
    exact h.blocks.imp fun b b' hb => hb.mono hmono
  · rw [hchildren, hchildren']
    rintro c c' (⟨rfl, rfl⟩ | ⟨hP, hkey⟩)
    · exact ⟨mem_insertByKey_self _ _, mem_insertByKey_self _ _⟩
    · obtain ⟨hmem, hmem'⟩ := h.mem c c' hP
      exact ⟨mem_insertByKey_of_ne hmem hkey,
        mem_insertByKey_of_ne hmem' fun hkey' => hkey ((hkeys c c' hP).mpr hkey')⟩
  · rintro c c' (⟨rfl, rfl⟩ | ⟨hP, _⟩)
    · exact ⟨hheld, hheld'⟩
    · exact h.held c c' hP
  · rintro c c' x x' (⟨rfl, rfl⟩ | ⟨hP, hkey⟩) (⟨rfl, rfl⟩ | ⟨hP', hkey'⟩)
    · exact ⟨fun _ => rfl, fun _ => rfl⟩
    · rw [eq_comm, hkeys x x' hP', eq_comm]
    · exact hkeys c c' hP
    · exact h.keys c c' x x' hP hP'
  · rw [hchildren]
    intro c hc
    rcases hsorted.mem_insertByKey_iff.mp hc with rfl | ⟨hold, hkey⟩
    · exact Or.inr ⟨g', Or.inl ⟨rfl, rfl⟩⟩
    · exact (h.left c hold).imp_right fun ⟨c', hP⟩ => ⟨c', Or.inr ⟨hP, hkey⟩⟩
  · rw [hchildren']
    intro c' hc'
    rcases hsorted'.mem_insertByKey_iff.mp hc' with rfl | ⟨hold, hkey⟩
    · exact Or.inr ⟨g, Or.inl ⟨rfl, rfl⟩⟩
    · refine (h.right c' hold).imp_right ?_
      rintro ⟨c, hP⟩
      exact ⟨c, Or.inr ⟨hP, fun hsame => hkey ((hkeys c c' hP).mp hsame)⟩⟩
  · rintro c c' (⟨rfl, rfl⟩ | ⟨hP, _⟩)
    · exact hgrown
    · exact htwin c c' hP

/-- Matching documents get blocks of one text. -/
theorem Matches.push (h : Matches P d d') (htwin : ∀ c c', P c c' → Twin c c') (b b' : Block)
    (hb : Block.Twin (KeysOf P) b b') : Twin (d.push b) (d'.push b') := by
  obtain ⟨info, children, parked⟩ := d
  obtain ⟨info', children', parked'⟩ := d'
  exact Twin.intro P { h with blocks := List.rel_append h.blocks (List.Forall₂.cons hb .nil) } htwin

theorem children_emit_putChild {d₁ child g : Document} {events : List Event}
    (hchildren : d₁.children = insertByKey child d.children) (hkey : g.key = child.key) :
    ((d₁.putChild g).emit events).children = insertByKey g d.children := by
  obtain ⟨info, children, parked⟩ := d₁
  obtain rfl : children = insertByKey child d.children := hchildren
  exact insertByKey_insertByKey hkey d.children

/-- The notes of code that twins are about to take. -/
theorem Twin.entryFor {child child' : Document} (h : Twin child child')
    (range : Range .text) (editor : String) (shift : Option (Pos .source))
    {K : String → String → Prop} (hkey : K child.key child'.key) :
    Notes.Twin K (range, Document.entryFor child editor shift)
      (range, Document.entryFor child' editor shift) := by
  refine ⟨rfl, ?_, hkey⟩
  have hsource : child.sourceLines.length = child'.sourceLines.length := by
    have := congrArg List.length h.alike.sourceLines_eq
    rwa [List.length_map, List.length_map] at this
  simp only [Document.entryFor, ForeignBlock.unnamed, h.alike.bufferLines_eq, hsource]

variable (hapart : context.SiblingsApart)

include hapart

theorem Matches.giveFragment {editor : String} {below : Nat}
    (hgive : ∀ {origin shift text n n' c c' g g' m m'}, c.Steady context n → c'.Steady context n' →
      Twin c c' → appendText context editor below origin shift text n c = ⟨g, m, .ok ()⟩ →
      appendText context editor below origin shift text n' c' = ⟨g', m', .ok ()⟩ → Twin g g')
    {origin : Pos .editor} {f : Fragment} {e e' : Document} {n n' : Nat}
    {note note' : Range .text × ForeignBlock} (hkind : context.Finds d.language f.kind)
    (h : Matches P d d') (htwin : ∀ c c', P c c' → Twin c c') (hd : d.Steady context next)
    (hd' : d'.Steady context next')
    (hok : giveFragment (appendText context editor below) editor origin f next d = ⟨e, n, .ok note⟩)
    (hok' : Document.giveFragment (appendText context editor below) editor origin f next' d' =
      ⟨e', n', .ok note'⟩) :
    ∃ P', Matches P' e e' ∧ (∀ c c', P' c c' → Twin c c') ∧ Notes.Twin (KeysOf P') note note' ∧
      ∀ k k', KeysOf P k k' → KeysOf P' k k' := by
  have hsame := sameHost_giveFragment (appendText context editor below) editor origin f next d
  have hsame' := sameHost_giveFragment (appendText context editor below) editor origin f next' d'
  rw [hok] at hsame
  rw [hok'] at hsame'
  obtain ⟨d₁, n₁, child, grown, hc, hg, rfl, rfl⟩ := giveFragment_ok hok
  obtain ⟨d₁', n₁', child', grown', hc', hg', rfl, rfl⟩ := giveFragment_ok hok'
  obtain ⟨hchoose, hkeys⟩ := h.chooseChild hapart hkind htwin hd hd' hc hc'
  obtain ⟨_, hchild, hchildren, _⟩ := hd.chooseChild hapart hkind hc
  obtain ⟨_, hchild', hchildren', _⟩ := hd'.chooseChild hapart (h.language_eq ▸ hkind) hc'
  have hkey : grown.drained.key = child.key := by
    have := (appendText_frame context editor below (foreignOrigin origin f.range) f.shift f.text n₁
      child).1
    rw [hg] at this
    exact congrArg Identity.key (id_eq_of_nature_eq ((nature_drained grown).trans this))
  have hkey' : grown'.drained.key = child'.key := by
    have := (appendText_frame context editor below (foreignOrigin origin f.range) f.shift f.text n₁'
      child').1
    rw [hg'] at this
    exact congrArg Identity.key (id_eq_of_nature_eq ((nature_drained grown').trans this))
  have hgrown : Twin grown.drained grown'.drained :=
    ((hgive hchild hchild' hchoose hg hg').modify (core_drained _)).modify_right (core_drained _)
  have hheld : grown.drained.info.blocks ≠ [] := by
    obtain ⟨_, _, _, _, _, _, _, _, _, hblocks⟩ := appendText_ok hg
    have hcore : grown.drained.info.blocks = grown.info.blocks :=
      congrArg Prod.snd (core_drained grown)
    rw [hcore, hblocks]
    simp
  obtain ⟨P', hmatch, htwin', hboth, hmono⟩ := h.putChild htwin hsame hsame'
    (children_emit_putChild hchildren hkey) (children_emit_putChild hchildren' hkey')
    hd.self.sorted hd'.self.sorted hgrown hheld (by rw [hkey, hkey']; exact hkeys)
  rw [hkey, hkey'] at hboth
  exact ⟨P', hmatch, htwin', hchoose.entryFor f.range editor f.shift hboth, hmono⟩

theorem Matches.appendForeign {editor : String} {below : Nat}
    (hgive : ∀ {origin shift text n n' c c' g g' m m'}, c.Steady context n → c'.Steady context n' →
      Twin c c' → appendText context editor below origin shift text n c = ⟨g, m, .ok ()⟩ →
      appendText context editor below origin shift text n' c' = ⟨g', m', .ok ()⟩ → Twin g g')
    {origin : Pos .editor} {fragments : List Fragment} {e e' : Document} {n n' : Nat}
    {notes notes' : Notes} (hkind : ∀ f ∈ fragments, context.Finds d.language f.kind)
    (h : Matches P d d') (htwin : ∀ c c', P c c' → Twin c c') (hd : d.Steady context next)
    (hd' : d'.Steady context next')
    (hok : appendForeign (appendText context editor below) editor origin fragments next d =
      ⟨e, n, .ok notes⟩)
    (hok' : Document.appendForeign (appendText context editor below) editor origin fragments next'
      d' = ⟨e', n', .ok notes'⟩) :
    ∃ P', Matches P' e e' ∧ (∀ c c', P' c c' → Twin c c') ∧
      List.Forall₂ (Notes.Twin (KeysOf P')) notes notes' ∧ ∀ k k', KeysOf P k k' → KeysOf P' k k' := by
  induction fragments generalizing P next next' d d' notes notes' with
  | nil =>
    cases hok
    cases hok'
    exact ⟨P, h, htwin, List.Forall₂.nil, fun _ _ hK => hK⟩
  | cons f rest ih =>
    obtain ⟨d₁, n₁, note, later, hf, hrest, rfl⟩ := appendForeign_cons_ok hok
    obtain ⟨d₁', n₁', note', later', hf', hrest', rfl⟩ := appendForeign_cons_ok hok'
    have hsteady : d₁.Steady context n₁ := by
      have := hd.giveFragment hapart editor below (fun o s t n c hc => hc.appendText hapart editor
        below o s t) origin (hkind f List.mem_cons_self)
      rwa [hf] at this
    have hsteady' : d₁'.Steady context n₁' := by
      have := hd'.giveFragment hapart editor below (fun o s t n c hc => hc.appendText hapart editor
        below o s t) origin (h.language_eq ▸ hkind f List.mem_cons_self)
      rwa [hf'] at this
    have hlanguage : d₁.language = d.language := by
      have := sameHost_giveFragment (appendText context editor below) editor origin f next d
      rw [hf] at this
      exact this.language_eq
    obtain ⟨P₁, hmatch₁, htwin₁, hnote, hmono₁⟩ :=
      h.giveFragment hapart hgive (hkind f List.mem_cons_self) htwin hd hd' hf hf'
    obtain ⟨P₂, hmatch₂, htwin₂, hnotes, hmono₂⟩ := ih
      (fun g hg => hlanguage ▸ hkind g (List.mem_cons_of_mem f hg)) hmatch₁ htwin₁ hsteady hsteady'
      hrest hrest'
    exact ⟨P₂, hmatch₂, htwin₂, List.Forall₂.cons (hnote.mono hmono₂) hnotes,
      fun k k' hK => hmono₂ k k' (hmono₁ k k' hK)⟩

/-- Twins that take the same text are twins again. -/
theorem Twin.appendText {editor : String} {levels : Nat} {origin : Pos .editor}
    {shift : Option (Pos .source)} {text : Text} {e e' : Document} {n n' : Nat} (h : Twin d d')
    (hd : d.Steady context next) (hd' : d'.Steady context next')
    (hok : appendText context editor levels origin shift text next d = ⟨e, n, .ok ()⟩)
    (hok' : Document.appendText context editor levels origin shift text next' d' =
      ⟨e', n', .ok ()⟩) : Twin e e' := by
  induction levels generalizing origin shift text next next' d d' e e' n n' with
  | zero =>
    obtain ⟨_, _, _, _, hlevels, _⟩ := appendText_ok hok
    cases hlevels
  | succ below ih =>
    obtain ⟨P, hmatch, htwin⟩ := h
    have hlanguage := hmatch.language_eq
    obtain ⟨_, d₁, notes, kept, hlevels, hforeign, hkept, _, rfl, _⟩ := appendText_ok hok
    cases hlevels
    obtain ⟨_, d₁', notes', kept', hlevels, hforeign', hkept', _, rfl, _⟩ := appendText_ok hok'
    cases hlevels
    rw [← hlanguage] at hforeign' hkept'
    obtain rfl : kept = kept' := Except.ok.inj (hkept.symm.trans hkept')
    obtain ⟨P₁, hmatch₁, htwin₁, hnotes, _⟩ := hmatch.appendForeign hapart
      (fun hc hc' hcc hg hg' => ih hcc hc hc' hg hg') (fun f hf => Fragment.finds_of_mem_peel hf)
      htwin hd hd' hforeign hforeign'
    rw [← hlanguage]
    exact hmatch₁.push htwin₁ _ _ ⟨rfl, hnotes⟩

end

end Document

end Polyglot
