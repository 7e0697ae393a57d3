import Polyglot.Proofs.Levels
import Polyglot.Proofs.Numbers
import Polyglot.Proofs.RoundTrip
import Polyglot.Proofs.Twins
import Mathlib.Data.List.Perm.Subperm
import Mathlib.Data.Set.Function
import Mathlib.Logic.Equiv.Basic

/-!
A rebuilt tree shows its cells, and nothing of what came before: whatever two trees of a language
have gone through, after a rebuild from the same cells one mirrors the other. Some permutation of
the numbers of documents carries the documents that hold blocks to each other, with their buffers
and both tables, where the notes name the documents that took the code under their new numbers. All
other documents hold no block, and own none that does.
-/
namespace Polyglot

open Document

namespace Document

/-- The children that hold blocks. -/
def held (d : Document) : Set Document := {c | c ∈ d.children ∧ c.info.blocks ≠ []}

/-- The key of a child under other numbers. -/
def renamedKey (ρ : Equiv.Perm Nat) (d : Document) (key : String) : String :=
  match d.child? key with
  | some c => Identity.keyOf c.id.kind (ρ c.id.number)
  | none => key

/-- The notes of a document under other numbers. -/
def renamedNotes (ρ : Equiv.Perm Nat) (d : Document) (notes : Notes) : Notes :=
  notes.map fun note => (note.1, { note.2 with document := d.renamedKey ρ note.2.document })

/-- A document that shows what another one shows, the numbers being others, where `partner` tells
which children correspond. -/
structure Reflects (ρ : Equiv.Perm Nat) (partner : Document → Document) (d d' : Document) :
    Prop where
  language_eq : d'.language = d.language
  standalone_eq : d'.id.kind.standalone = d.id.kind.standalone
  number_eq : d'.id.number = ρ d.id.number
  value_eq : d'.value = d.value
  bufferLines_eq : d'.bufferLines = d.bufferLines
  sourceLines_eq : d'.sourceLines = d.sourceLines.map (SourceLine.mapNotes (d.renamedNotes ρ))
  partners : Set.BijOn partner d.held d'.held
  blank : ∀ c ∈ d.children ++ d.parked, c ∈ d.held ∨ c.Blank
  blank' : ∀ c ∈ d'.children ++ d'.parked, c ∈ d'.held ∨ c.Blank

/-- Trees that are the same but for numbers and for documents that hold nothing. -/
inductive Mirrors (ρ : Equiv.Perm Nat) : Document → Document → Prop
  | intro {d d' : Document} (partner : Document → Document) :
      Reflects ρ partner d d' → (∀ c ∈ d.held, Mirrors ρ c (partner c)) → Mirrors ρ d d'

theorem Mirrors.number_eq {ρ : Equiv.Perm Nat} {d d' : Document} (h : Mirrors ρ d d') :
    d'.id.number = ρ d.id.number := by
  obtain ⟨partner, hreflects, _⟩ := h
  exact hreflects.number_eq

/-! Numbers of twins. -/

theorem exists_perm_of_pairs (pairs : List (Nat × Nat)) (hleft : (pairs.map Prod.fst).Nodup)
    (hright : (pairs.map Prod.snd).Nodup) :
    ∃ ρ : Equiv.Perm Nat, ∀ p ∈ pairs, ρ p.1 = p.2 := by
  induction pairs with
  | nil => exact ⟨Equiv.refl Nat, by simp⟩
  | cons p rest ih =>
    rw [List.map_cons, List.nodup_cons] at hleft hright
    obtain ⟨ρ, hρ⟩ := ih hleft.2 hright.2
    refine ⟨ρ.trans (Equiv.swap (ρ p.1) p.2), ?_⟩
    intro q hq
    rcases List.mem_cons.mp hq with rfl | hq
    · rw [Equiv.trans_apply, Equiv.swap_apply_left]
    · -- the swap leaves the others where they are
      rw [Equiv.trans_apply, Equiv.swap_apply_of_ne_of_ne, hρ q hq]
      · intro heq
        exact hleft.1 (ρ.injective heq ▸ List.mem_map_of_mem hq)
      · rw [hρ q hq]
        intro heq
        exact hright.1 (heq ▸ List.mem_map_of_mem hq)

theorem subperm_flatMap {α β : Type} {f g : α → List β} (l : List α)
    (h : ∀ a ∈ l, (f a).Subperm (g a)) : (l.flatMap f).Subperm (l.flatMap g) := by
  induction l with
  | nil => exact List.Subperm.refl _
  | cons a rest ih =>
    rw [List.flatMap_cons, List.flatMap_cons]
    exact (h a List.mem_cons_self).append (ih fun b hb => h b (List.mem_cons_of_mem a hb))

theorem subperm_numbers {d : Document} {cs : List Document} {l : List Nat}
    (hcs : cs.Subperm d.children) (hl : l.Subperm (cs.flatMap numbers)) :
    (d.id.number :: l).Subperm d.numbers := by
  obtain ⟨info, children, parked⟩ := d
  obtain ⟨cs', hperm, hsub⟩ := hcs
  have hall : (cs.flatMap numbers).Subperm ((children ++ parked).flatMap numbers) :=
    ⟨cs'.flatMap numbers, hperm.flatMap_right numbers,
      (hsub.trans (List.sublist_append_left children parked)).flatMap numbers⟩
  rw [numbers_node]
  exact (List.subperm_cons _).mpr (hl.trans hall)

section

variable {context : Context} {next next' : Nat} {P : Document → Document → Prop}
  {d d' : Document}

theorem Matches.exists_partner (h : Matches P d d') :
    ∃ partner : Document → Document, ∀ c ∈ d.held, P c (partner c) := by
  have hall : ∀ c, ∃ c', c ∈ d.held → P c c' := by
    intro c
    by_cases hc : c ∈ d.held
    · rcases h.left c hc.1 with hblank | ⟨c', hP⟩
      · exact absurd hblank.self hc.2
      · exact ⟨c', fun _ => hP⟩
    · exact ⟨c, fun hheld => absurd hheld hc⟩
  exact Classical.axiomOfChoice hall

theorem Matches.bijOn_partner (h : Matches P d d') (hsorted : Sorted d.children)
    (hsorted' : Sorted d'.children) {partner : Document → Document}
    (hpartner : ∀ c ∈ d.held, P c (partner c)) : Set.BijOn partner d.held d'.held := by
  refine ⟨?_, ?_, ?_⟩
  · intro c hc
    have hP := hpartner c hc
    exact ⟨(h.mem _ _ hP).2, (h.held _ _ hP).2⟩
  · intro c hc e he heq
    exact hsorted.eq_of_key_eq hc.1 he.1 ((h.keys _ _ _ _ (hpartner c hc) (hpartner e he)).mpr
      (congrArg key heq))
  · intro c' hc'
    rcases h.right c' hc'.1 with hblank | ⟨c, hP⟩
    · exact absurd hblank.self hc'.2
    · have hc : c ∈ d.held := ⟨(h.mem _ _ hP).1, (h.held _ _ hP).1⟩
      refine ⟨c, hc, ?_⟩
      exact hsorted'.eq_of_key_eq (h.mem _ _ (hpartner c hc)).2 hc'.1
        ((h.keys _ _ _ _ (hpartner c hc) hP).mp rfl)

/-- The notes of twins differ in the keys alone, and a renaming that fits their children carries one
to the other. -/
theorem Matches.blocks_eq_map (h : Matches P d d') (hsorted : Sorted d.children)
    (htwin : ∀ c c', P c c' → Twin c c') {ρ : Equiv.Perm Nat}
    (hρ : ∀ c c', P c c' → c'.id.number = ρ c.id.number) :
    d'.info.blocks = d.info.blocks.map (Block.mapNotes (d.renamedNotes ρ)) := by
  have hkey : ∀ k k', KeysOf P k k' → k' = d.renamedKey ρ k := by
    rintro k k' ⟨c, c', hP, rfl, rfl⟩
    obtain ⟨hlanguage, hstandalone⟩ := (htwin c c' hP).kind_eq
    have hfind : d.child? c.key = some c := hsorted.find?_eq_some (h.mem c c' hP).1
    have hrenamed : d.renamedKey ρ c.key = Identity.keyOf c.id.kind (ρ c.id.number) := by
      rw [renamedKey, hfind]
    rw [hrenamed, key, Identity.key, Identity.keyOf, Identity.keyOf, ← hstandalone, hρ c c' hP,
      show c'.id.kind.language = c.id.kind.language from hlanguage.symm]
  have hnotes : ∀ {notes notes' : Notes}, List.Forall₂ (Notes.Twin (KeysOf P)) notes notes' →
      notes' = d.renamedNotes ρ notes := by
    intro notes notes' hall
    induction hall with
    | nil => rfl
    | @cons note note' _ _ hnote _ ih =>
      rw [ih, renamedNotes, renamedNotes, List.map_cons, ← hkey _ _ hnote.key, hnote.range_eq]
      obtain ⟨range, entry⟩ := note
      obtain ⟨range', entry'⟩ := note'
      obtain ⟨_, _, _, _, _⟩ := entry
      obtain ⟨_, _, _, _, _⟩ := entry'
      have hentry := hnote.unnamed_eq
      simp only [ForeignBlock.unnamed, ForeignBlock.mk.injEq, true_and] at hentry
      obtain ⟨rfl, rfl, rfl, rfl⟩ := hentry
      rfl
  have hblocks := h.blocks
  revert hblocks
  generalize d.info.blocks = blocks
  generalize d'.info.blocks = blocks'
  intro hblocks
  induction hblocks with
  | nil => rfl
  | @cons b b' _ _ hb _ ih =>
    rw [List.map_cons, ← ih, Block.mapNotes, ← hnotes hb.notes]
    obtain ⟨_, _, _, _, _⟩ := b
    obtain ⟨_, _, _, _, _⟩ := b'
    have hbare := hb.bare_eq
    simp only [Block.bare, Block.mk.injEq, and_true] at hbare
    obtain ⟨rfl, rfl, rfl, rfl⟩ := hbare
    rfl

theorem Matches.reflects (h : Matches P d d') (hd : d.Sound context next)
    (hd' : d'.Sound context next') (htwin : ∀ c c', P c c' → Twin c c') {ρ : Equiv.Perm Nat}
    (hρ : ∀ c c', P c c' → c'.id.number = ρ c.id.number) (hnumber : d'.id.number = ρ d.id.number)
    {partner : Document → Document} (hbij : Set.BijOn partner d.held d'.held) :
    Reflects ρ partner d d' where
  language_eq := h.language_eq.symm
  standalone_eq := h.standalone_eq.symm
  number_eq := hnumber
  value_eq := h.alike.value_eq.symm
  bufferLines_eq := h.alike.bufferLines_eq.symm
  sourceLines_eq := by
    rw [sourceLines, h.blocks_eq_map hd.sorted htwin hρ, ← h.config_eq]
    exact sourceTable_mapNotes (d.renamedNotes ρ) _ _ _
  partners := hbij
  blank c hc := by
    rcases List.mem_append.mp hc with hc | hc
    · rcases h.left c hc with hblank | ⟨c', hP⟩
      · exact Or.inr hblank
      · exact Or.inl ⟨hc, (h.held c c' hP).1⟩
    · exact Or.inr (hd.blank c hc)
  blank' c' hc := by
    rcases List.mem_append.mp hc with hc | hc
    · rcases h.right c' hc with hblank | ⟨c, hP⟩
      · exact Or.inr hblank
      · exact Or.inl ⟨hc, (h.held c c' hP).2⟩
    · exact Or.inr (hd'.blank c' hc)

/-- Twins mirror each other under each renaming that fits certain pairs of numbers; the pairs take
no number of either tree twice, unless the tree has it twice. -/
theorem Twin.exists_pairs (h : Twin d d') (hd : d.Steady context next)
    (hd' : d'.Steady context next') :
    ∃ pairs : List (Nat × Nat), (pairs.map Prod.fst).Subperm d.numbers ∧
      (pairs.map Prod.snd).Subperm d'.numbers ∧
      ∀ ρ : Equiv.Perm Nat, (∀ p ∈ pairs, ρ p.1 = p.2) → Mirrors ρ d d' := by
  induction h with
  | @intro d d' P hmatch htwin ih =>
    obtain ⟨partner, hpartner⟩ := hmatch.exists_partner
    have hbij := hmatch.bijOn_partner hd.self.sorted hd'.self.sorted hpartner
    have hsteady : ∀ c ∈ d.children, c.Steady context next := fun c hc e he =>
      hd e (Owns.child hc he)
    have hsteady' : ∀ c ∈ d'.children, c.Steady context next' := fun c hc e he =>
      hd' e (Owns.child hc he)
    have hbelow : ∀ c, ∃ pairs : List (Nat × Nat), c ∈ d.held →
        (pairs.map Prod.fst).Subperm c.numbers ∧
        (pairs.map Prod.snd).Subperm (partner c).numbers ∧
        ∀ ρ : Equiv.Perm Nat, (∀ p ∈ pairs, ρ p.1 = p.2) → Mirrors ρ c (partner c) := by
      intro c
      by_cases hc : c ∈ d.held
      · obtain ⟨pairs, hpairs⟩ := ih c (partner c) (hpartner c hc) (hsteady c hc.1)
          (hsteady' _ (hbij.mapsTo hc).1)
        exact ⟨pairs, fun _ => hpairs⟩
      · exact ⟨[], fun hheld => absurd hheld hc⟩
    choose pairs hpairs using hbelow
    have hmem : ∀ c, c ∈ d.children.filter (fun c => c.info.blocks ≠ []) ↔ c ∈ d.held := by
      intro c
      rw [List.mem_filter, decide_eq_true_iff]
      rfl
    refine ⟨(d.id.number, d'.id.number) ::
      (d.children.filter (fun c => c.info.blocks ≠ [])).flatMap pairs, ?_, ?_, ?_⟩
    · rw [List.map_cons, List.map_flatMap]
      refine subperm_numbers List.filter_sublist.subperm (subperm_flatMap _ ?_)
      exact fun c hc => (hpairs c ((hmem c).mp hc)).1
    · have hnodup : (d.children.filter (fun c => c.info.blocks ≠ [])).Nodup :=
        hd.self.sorted.nodup.filter _
      have hpartners : ((d.children.filter (fun c => c.info.blocks ≠ [])).map partner).Subperm
          d'.children := by
        refine List.subperm_of_subset (hnodup.map_on ?_) ?_
        · exact fun c hc e he heq => hbij.injOn ((hmem c).mp hc) ((hmem e).mp he) heq
        · intro x hx
          obtain ⟨c, hc, rfl⟩ := List.mem_map.mp hx
          exact (hbij.mapsTo ((hmem c).mp hc)).1
      rw [List.map_cons, List.map_flatMap]
      refine subperm_numbers hpartners ?_
      rw [List.flatMap_map]
      exact subperm_flatMap _ fun c hc => (hpairs c ((hmem c).mp hc)).2.1
    · intro ρ hρ
      have hmirrors : ∀ c ∈ d.held, Mirrors ρ c (partner c) := by
        intro c hc
        refine (hpairs c hc).2.2 ρ fun p hp => hρ p (List.mem_cons_of_mem _ ?_)
        exact List.mem_flatMap.mpr ⟨c, (hmem c).mpr hc, hp⟩
      have hnumber : d'.id.number = ρ d.id.number :=
        (hρ (d.id.number, d'.id.number) List.mem_cons_self).symm
      have hnumbers : ∀ c c', P c c' → c'.id.number = ρ c.id.number := by
        intro c c' hP
        have hc : c ∈ d.held := ⟨(hmatch.mem c c' hP).1, (hmatch.held c c' hP).1⟩
        have hsame : partner c = c' := hd'.self.sorted.eq_of_key_eq
          (hmatch.mem _ _ (hpartner c hc)).2 (hmatch.mem c c' hP).2
          ((hmatch.keys _ _ _ _ (hpartner c hc) hP).mp rfl)
        rw [← hsame]
        exact (hmirrors c hc).number_eq
      exact Mirrors.intro partner (hmatch.reflects hd.self hd'.self htwin hnumbers hnumber hbij)
        hmirrors

end

theorem Twin.exists_mirrors {context : Context} {next next' : Nat} (hapart : context.SiblingsApart)
    {d d' : Document} (h : Twin d d') (hd : Reachable context next d)
    (hd' : Reachable context next' d') : ∃ ρ, Mirrors ρ d d' := by
  obtain ⟨pairs, hleft, hright, hmirrors⟩ :=
    h.exists_pairs (steady_of_reachable hapart hd) (steady_of_reachable hapart hd')
  have hnodup : ∀ {l : List Nat} {n : Nat} {e : Document}, Reachable context n e →
      l.Subperm e.numbers → l.Nodup := by
    rintro l n e he ⟨l', hperm, hsub⟩
    exact hperm.nodup_iff.mp ((numbered_of_reachable hapart he).nodup.sublist hsub)
  obtain ⟨ρ, hρ⟩ := exists_perm_of_pairs pairs (hnodup hd hleft) (hnodup hd' hright)
  exact ⟨ρ, hmirrors ρ hρ⟩

/-- Roots are never standalone. -/
theorem standalone_of_reachable {context : Context} {next : Nat} {d : Document}
    (h : Reachable context next d) : d.id.kind.standalone = false := by
  have hnature : ∀ {e f : Document}, e.nature = f.nature → f.id.kind.standalone = false →
      e.id.kind.standalone = false := fun hsame hf => id_eq_of_nature_eq hsame ▸ hf
  induction h with
  | root language path extension number => rfl
  | wait _ _ ih => exact ih
  | append levels text editor origin shift _ ih =>
    exact hnature (appendText_frame context editor levels origin shift text _ _).1 ih
  | clear _ ih => exact hnature (nature_clear _) ih
  | closeExpired _ ih => exact hnature (nature_closeExpired _) ih
  | emitChanged _ ih => exact hnature (nature_emitChanged _) ih
  | @dispose _ d _ ih =>
    obtain ⟨info, children, parked⟩ := d
    rw [dispose]
    split
    · exact ih
    · exact ih
  | drained _ ih => exact hnature (nature_drained _) ih

end Document

/-! Rebuilding. -/

section

variable {context : Context} {cells : List Cell} {levels next next' later later' : Nat}

theorem Document.Twin.appendCells (hapart : context.SiblingsApart) {d d' e e' : Document}
    {index : Nat} {notices notices' : List Notice} (h : Twin d d') (hd : d.Steady context next)
    (hd' : d'.Steady context next')
    (hok : appendCells context levels index cells next d = (notices, ⟨e, later, .ok ()⟩))
    (hok' : Polyglot.appendCells context levels index cells next' d' =
      (notices', ⟨e', later', .ok ()⟩)) :
    Twin e e' := by
  induction cells generalizing index next next' d d' notices notices' with
  | nil =>
    cases hok
    cases hok'
    exact h
  | cons cell rest ih =>
    obtain ⟨d₁, n₁, _, hone, hrest⟩ := appendCells_cons_ok hok
    obtain ⟨d₁', n₁', _, hone', hrest'⟩ := appendCells_cons_ok hok'
    have hd₁ := hd.appendText hapart cell.editor levels Pos.origin none cell.text
    have hd₁' := hd'.appendText hapart cell.editor levels Pos.origin none cell.text
    rw [append] at hone hone'
    rw [hone] at hd₁
    rw [hone'] at hd₁'
    exact ih (h.appendText hapart hd hd' hone hone') hd₁ hd₁' hrest hrest'

/-- Rebuilt from the same cells, two trees of a language mirror each other, whatever they have gone
through before. -/
theorem update_mirrors {s s' t t' : Session} (hapart : s.context.SiblingsApart)
    (hcontext : s'.context = s.context) (hreach : Reachable s.context next s.root)
    (hreach' : Reachable s'.context next' s'.root) (hlanguage : s.root.language = s'.root.language)
    (hok : s.update cells next = (t, later, .ok ()))
    (hok' : s'.update cells next' = (t', later', .ok ())) : ∃ ρ, Mirrors ρ t.root t'.root := by
  rw [hcontext] at hreach'
  obtain ⟨notices, d, happend, hroot⟩ := update_ok hok
  obtain ⟨notices', d', happend', hroot'⟩ := update_ok hok'
  rw [hcontext] at happend'
  -- with the levels of the deeper of the two, both are as they were
  have hup := appendCells_eq_of_le (le_max_left s.levels s'.levels) (by rw [happend]; simp)
  have hup' := appendCells_eq_of_le (le_max_right s.levels s'.levels) (by rw [happend']; simp)
  rw [happend] at hup
  rw [happend'] at hup'
  have hclear := steady_of_reachable hapart hreach.clear
  have hclear' := steady_of_reachable hapart hreach'.clear
  -- before the first cell both trees are blank
  have hstart : Twin s.root.clear s'.root.clear := by
    refine twin_of_blank (blank_clear (emptied_of_reachable hreach))
      (blank_clear (emptied_of_reachable hreach')) ?_ ?_
      (hclear.self.config.trans hclear'.self.config.symm)
    · rw [language, id_eq_of_nature_eq (nature_clear s.root), language,
        id_eq_of_nature_eq (nature_clear s'.root)]
      exact hlanguage
    · rw [standalone_of_reachable hreach.clear, standalone_of_reachable hreach'.clear]
  have hfilled := hstart.appendCells hapart hclear hclear' hup hup'
  have hd : Reachable s.context later d := by
    have := reachable_appendCells s.levels cells hreach.clear 0
    rwa [happend] at this
  have hd' : Reachable s.context later' d' := by
    have := reachable_appendCells s'.levels cells hreach'.clear 0
    rwa [happend'] at this
  have haged := (hfilled.closeExpired (steady_of_reachable hapart hd)
    (idles_of_reachable hapart hd)).emitChanged.modify (core_drained _)
  have haged' := (haged.symm.closeExpired (steady_of_reachable hapart hd')
    (idles_of_reachable hapart hd')).emitChanged.modify (core_drained _)
  rw [hroot, hroot']
  exact haged'.symm.exists_mirrors hapart hd.closeExpired.emitChanged.drained
    hd'.closeExpired.emitChanged.drained

end

/-! A tree that has been used before, and a fresh one. -/

def earlierCells : List Cell := [⟨"x\nxz\nz".toList, "other"⟩]

/-- Its documents below the root wait to be used again. -/
def usedSession : Session := (nestedSession.update earlierCells 1).1

def freshSession : Session :=
  { nestedSession with root := root nestedSession.context.config "python" tailRoot.uri "py" 8 }

theorem update_mirrors_used :
    (∃ ρ, Mirrors ρ (usedSession.update nestedCells 3).1.root
      (freshSession.update nestedCells 9).1.root) ∧
    (usedSession.update nestedCells 3).1.root.children.map key = ["1(cel)"] ∧
    (freshSession.update nestedCells 9).1.root.children.map key = ["9(cel)"] := by
  have hnext : (nestedSession.update earlierCells 1).2.1 = 3 := by decide +kernel
  have hused : Reachable nestedSession.context 3 usedSession.root := by
    have := reachable_update (s := nestedSession) (Reachable.root "python" _ "py" 0) earlierCells
    rwa [hnext] at this
  have hok : (usedSession.update nestedCells 3).2.2 = .ok () := by decide +kernel
  have hok' : (freshSession.update nestedCells 9).2.2 = .ok () := by decide +kernel
  have hapart : usedSession.context.SiblingsApart := siblingsApart_nestedSession
  refine ⟨update_mirrors hapart ?_ hused (Reachable.root "python" _ "py" 8) ?_
    (Prod.ext rfl (Prod.ext rfl hok)) (Prod.ext rfl (Prod.ext rfl hok')), ?_, ?_⟩
  · rfl
  · decide +kernel
  · decide +kernel
  · decide +kernel

end Polyglot
