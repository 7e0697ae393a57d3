import Polyglot.Proofs.Ledger

/-!
Standalone documents. Where every text was taken, a standalone document holds one text at most, so
that no two notes name it. And no path lies within those of two standalone siblings, whatever their
language is called: the number that a key starts with tells them apart.
-/
namespace Polyglot

/-! Paths of standalone siblings. -/

namespace Identity

variable {context : Context} {parent id id' : Identity}

theorem Derives.takeWhile_within (h : parent.Derives context id)
    (halone : id.kind.standalone = true) {q : String} (hq : Within id.idPath q) :
    (q.toList.drop (parent.idPath.toList.length + 1)).takeWhile Char.isDigit =
      Nat.toDigits 10 id.number := by
  have hrest : ∃ rest, q.toList = id.idPath.toList ++ rest := by
    rcases hq with rfl | ⟨rest, hrest⟩
    · exact ⟨[], (List.append_nil _).symm⟩
    · exact ⟨'-' :: rest, by rw [← hrest, List.append_assoc, List.singleton_append]⟩
  obtain ⟨rest, hrest⟩ := hrest
  rw [hrest, h.idPath, toList_join, ← List.drop_drop, List.append_assoc, List.drop_left,
    List.cons_append, List.drop_one, List.tail_cons]
  exact takeWhile_keyOf halone id.number rest

theorem Derives.number_eq (h : parent.Derives context id) (h' : parent.Derives context id')
    (halone : id.kind.standalone = true) (halone' : id'.kind.standalone = true) {q : String}
    (hq : Within id.idPath q) (hq' : Within id'.idPath q) : id.number = id'.number :=
  toDigits_injective ((h.takeWhile_within halone hq).symm.trans (h'.takeWhile_within halone' hq'))

end Identity

namespace Document

/-! Texts of standalone documents. -/

/-- Standalone children hold one block at most. -/
def Single (d : Document) : Prop :=
  ∀ c ∈ d.children, c.id.kind.standalone = true → c.info.blocks.length ≤ 1

theorem lasting_single : Lasting Single := by
  intro d e h _ hchildren _ c hc halone
  obtain ⟨x, hx, hcore⟩ := List.mem_map.mp (hchildren.subset (List.mem_map_of_mem hc))
  have hblocks : x.info.blocks = c.info.blocks := congrArg Prod.snd hcore
  rw [← id_eq_of_core_eq hcore] at halone
  rw [← hblocks]
  exact h x hx halone

theorem single_of_blank {d : Document} (h : d.Blank) : d.Throughout Single := by
  intro e he c hc _
  rw [show c.info.blocks = [] from h c (he.trans (Owns.child hc (Owns.self c)))]
  exact Nat.zero_le 1

section

variable {context : Context} {next : Nat} {d : Document}

theorem single_law (hapart : context.SiblingsApart) : HandoverLaw context Single where
  leaf info := by simp [Single]
  modify {d} f h := by
    cases d
    exact h
  hand hd hkind hand h x hx halone := by
    rcases (hand.mem_children hd).mp hx with rfl | ⟨hx, _⟩
    · -- a standalone child that is chosen is blank, so that it has this block only
      obtain ⟨_, _, _, hseat⟩ := hd.chooseChild hapart hkind hand.chosen
      obtain ⟨_, hsame⟩ := hd.kind_of_chooseChild hapart hkind hand.chosen
      obtain ⟨b, hblocks⟩ := hand.exists_block
      rw [hand.id_eq, hsame] at halone
      rcases hseat with ⟨hshared, _⟩ | ⟨_, hblank⟩
      · rw [halone] at hshared
        cases hshared
      · rw [hblocks, List.length_append, List.length_eq_zero_iff.mpr hblank.self]
        exact Nat.le_refl 1
    · exact h x hx halone

theorem Unbroken.single (hapart : context.SiblingsApart) (h : Unbroken context next d) :
    d.Throughout Single := by
  induction h with
  | root language path extension number => exact (single_law hapart).throughout_leaf _
  | clear hd => exact single_of_blank (blank_clear (emptied_of_reachable hd))
  | @append next d levels text editor origin shift hd hok ih =>
    have htaken : appendText context editor levels origin shift text next d =
        ⟨(appendText context editor levels origin shift text next d).document,
          (appendText context editor levels origin shift text next d).next, .ok ()⟩ := by
      rw [← hok]
    exact (single_law hapart).appendText hapart (steady_of_reachable hapart hd.reachable) ih htaken
  | wait _ _ ih => exact ih
  | closeExpired _ ih => exact lasting_single.closeExpired ih
  | emitChanged _ ih => exact lasting_single.emitChanged ih
  | @dispose _ d _ ih =>
    obtain ⟨info, children, parked⟩ := d
    rw [Document.dispose]
    split
    · exact ih
    · exact (single_law hapart).throughout_leaf _
  | drained _ ih => exact (single_law hapart).throughout_modify ih

/-- Two notes of a block that name one child tell two of its blocks. -/
theorem Agrees.two_le_blocks {c : Document} (h : d.Agrees []) (hc : c ∈ d.children)
    {pre post : List Block} {b : Block} (hblocks : d.info.blocks = pre ++ b :: post) {i j : Nat}
    {note note' : Range .text × ForeignBlock} (hi : b.foreign[i]? = some note)
    (hj : b.foreign[j]? = some note') (hij : i < j) (hkey : c.key = note.2.document)
    (hkey' : c.key = note'.2.document) : 2 ≤ c.info.blocks.length := by
  have hstarts := congrArg List.length (h.placed c hc)
  rw [List.length_map, starts, List.length_mapIdx, List.append_nil, notes, hblocks,
    List.flatMap_append, List.flatMap_cons, List.filter_append, List.filter_append,
    List.length_append, List.length_append, ← List.take_append_drop j b.foreign, List.map_append,
    List.filter_append, List.length_append] at hstarts
  have hcount : ∀ {part : List (Range .text × ForeignBlock)} {x}, x ∈ part →
      c.key = x.2.document → 0 < ((part.map Prod.snd).filter (·.document = c.key)).length := by
    intro part x hx hname
    exact List.length_pos_of_mem
      (List.mem_filter.mpr ⟨List.mem_map_of_mem hx, decide_eq_true hname.symm⟩)
  have htaken : note ∈ b.foreign.take j :=
    List.mem_of_getElem? (i := i) (by rw [List.getElem?_take, if_pos hij, hi])
  have hdropped : note' ∈ b.foreign.drop j :=
    List.mem_of_getElem? (i := 0) (by rw [List.getElem?_drop, Nat.add_zero, hj])
  have hone := hcount htaken hkey
  have htwo := hcount hdropped hkey'
  omega

end

end Document

end Polyglot
