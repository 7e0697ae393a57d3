import Polyglot.Proofs.Families
import Mathlib.Data.List.Infix

/-!
Paths of keys. The path of a child is that of its parent, a dash and the key of the child. Where no
language has a dash or a parenthesis in its name, no key has a dash; so no path lies in the trees of
two siblings, and no tree has a path twice.
-/
namespace Polyglot

namespace Context

/-- No language that some extractor finds has a dash or a parenthesis in its name. -/
def PlainNames (context : Context) : Prop :=
  ∀ kind, context.Registers kind → ∀ c ∈ kind.language.toList, c ≠ '-' ∧ c ≠ '(' ∧ c ≠ ')'

theorem PlainNames.siblingsApart {context : Context} (h : context.PlainNames) :
    context.SiblingsApart := by
  intro host shared alone hfinds _ _ halone number heq
  have hmem : '(' ∈ shared.language.toList := by
    rw [heq, Identity.keyOf, if_pos halone]
    simp
  exact (h shared hfinds.registers '(' hmem).2.1 rfl

end Context

/-! Paths. -/

/-- The second path goes on below the first. -/
def Below (p q : String) : Prop := p.toList ++ ['-'] <+: q.toList

/-- The second path is the first, or goes on below it. -/
def Within (p q : String) : Prop := q = p ∨ Below p q

theorem Below.trans {p q r : String} (h : Below p q) (h' : Below q r) : Below p r :=
  List.IsPrefix.trans h (List.IsPrefix.trans (List.prefix_append q.toList ['-']) h')

theorem Below.within {p q r : String} (h : Below p q) (h' : Within q r) : Below p r := by
  rcases h' with rfl | h'
  · exact h
  · exact h.trans h'

theorem not_below_self (p : String) : ¬ Below p p := by
  intro h
  have := h.length_le
  rw [List.length_append, List.length_singleton] at this
  omega

theorem toList_join (p key : String) : (p ++ "-" ++ key).toList = p.toList ++ '-' :: key.toList := by
  rw [String.toList_append, String.toList_append, show "-".toList = ['-'] from rfl,
    List.append_assoc, List.singleton_append]

theorem below_join (p key : String) : Below p (p ++ "-" ++ key) := by
  rw [Below, toList_join]
  exact ⟨key.toList, by simp⟩

/-- The key of a child can be read off every path within the child's. -/
theorem key_of_within {p key q : String} (hkey : '-' ∉ key.toList)
    (h : Within (p ++ "-" ++ key) q) :
    (q.toList.drop (p.toList.length + 1)).takeWhile (· != '-') = key.toList := by
  have hdashless : ∀ c ∈ key.toList, (c != '-') = true := by
    intro c hc
    rw [bne_iff_ne]
    exact fun heq => hkey (heq ▸ hc)
  have hdrop : ∀ rest : List Char,
      (p.toList ++ '-' :: key.toList ++ rest).drop (p.toList.length + 1) = key.toList ++ rest := by
    intro rest
    rw [← List.drop_drop, List.append_assoc, List.drop_left, List.cons_append, List.drop_one,
      List.tail_cons]
  rcases h with rfl | ⟨rest, hrest⟩
  · have hself := hdrop []
    rw [List.append_nil, List.append_nil] at hself
    rw [toList_join, hself, List.takeWhile_eq_self_iff]
    exact hdashless
  · rw [toList_join, List.append_assoc] at hrest
    rw [← hrest, hdrop, List.takeWhile_append_of_pos hdashless]
    simp

/-- No path lies within two of the paths of a list. -/
def PathsApart (paths : List String) : Prop :=
  paths.Pairwise fun p p' => ∀ q, ¬ (Within p q ∧ Within p' q)

namespace Identity

variable {context : Context} {parent id id' : Identity}

theorem Derives.below (h : parent.Derives context id) : Below parent.idPath id.idPath := by
  rw [h.idPath]
  exact below_join parent.idPath id.key

/-- Digits and parentheses are no dashes. -/
theorem dash_not_mem_keyOf {kind : Kind} (hplain : '-' ∉ kind.language.toList) (number : Nat) :
    '-' ∉ (keyOf kind number).toList := by
  unfold keyOf
  split
  · have hdigits : '-' ∉ Nat.toDigits 10 number := by
      intro hmem
      have := Nat.isDigit_of_mem_toDigits (by decide) (by decide) hmem
      exact absurd this (by decide)
    simp only [String.toList_append, Nat.toString_eq_repr, Nat.toList_repr, List.mem_append, not_or]
    exact ⟨⟨⟨hdigits, by decide⟩, hplain⟩, by decide⟩
  · exact hplain

theorem Derives.dash_not_mem_key (hplain : context.PlainNames) (h : parent.Derives context id) :
    '-' ∉ id.key.toList :=
  dash_not_mem_keyOf (fun hmem => (hplain id.kind h.finds.registers '-' hmem).1 rfl) id.number

/-- A path lies within one sibling only. -/
theorem Derives.key_eq (hplain : context.PlainNames) (h : parent.Derives context id)
    (h' : parent.Derives context id') {q : String} (hq : Within id.idPath q)
    (hq' : Within id'.idPath q) : id.key = id'.key := by
  rw [h.idPath] at hq
  rw [h'.idPath] at hq'
  have hkey := key_of_within (h.dash_not_mem_key hplain) hq
  have hkey' := key_of_within (h'.dash_not_mem_key hplain) hq'
  exact String.toList_inj.mp (hkey.symm.trans hkey')

end Identity

namespace Document

/-- The children and the parked documents. -/
def offspring (d : Document) : List Document := d.children ++ d.parked

theorem owns_iff {d e : Document} : d.Owns e ↔ e = d ∨ ∃ c ∈ d.offspring, c.Owns e := by
  constructor
  · intro h
    cases h with
    | self => exact Or.inl rfl
    | child hc he => exact Or.inr ⟨_, List.mem_append_left _ hc, he⟩
    | parked hc he => exact Or.inr ⟨_, List.mem_append_right _ hc, he⟩
  · rintro (rfl | ⟨c, hc, he⟩)
    · exact Owns.self e
    · exact (List.mem_append.mp hc).elim (fun hc => Owns.child hc he) fun hc => Owns.parked hc he

theorem throughout_iff {P : Document → Prop} {d : Document} :
    d.Throughout P ↔ P d ∧ ∀ c ∈ d.offspring, c.Throughout P := by
  obtain ⟨info, children, parked⟩ := d
  rw [throughout_node, offspring, children_node, parked_node, List.forall_mem_append]

theorem pathsApart_of_subperm {ds es : List Document} (h : PathsApart (es.map idPath))
    (hsub : ds.Subperm es) : PathsApart (ds.map idPath) := by
  obtain ⟨l, hperm, hsub⟩ := hsub
  refine ((hperm.map idPath).pairwise_iff ?_).mp (List.Pairwise.sublist (hsub.map idPath) h)
  exact fun h q hq => h q hq.symm

/-- Induction over all that a document owns. -/
theorem offspring_induction {motive : Document → Prop}
    (step : ∀ d, (∀ c ∈ d.offspring, motive c) → motive d) (d : Document) : motive d := by
  induction d using tree_induction with
  | step info children parked ihc ihp =>
    exact step _ (List.forall_mem_append.mpr ⟨ihc, ihp⟩)

section

variable {context : Context} {next : Nat} {d c c' e e' : Document}

theorem Sound.derives (h : d.Sound context next) (hc : c ∈ d.offspring) :
    d.id.Derives context c.id := by
  refine h.family.derives c.id ?_
  rw [← List.map_append]
  exact List.mem_map_of_mem hc

theorem Sound.number_injective (h : d.Sound context next) (hc : c ∈ d.offspring)
    (hc' : c' ∈ d.offspring) (hnumber : c.id.number = c'.id.number) : c = c' := by
  have hdistinct := h.family.distinct
  rw [← List.map_append, List.map_map] at hdistinct
  exact List.inj_on_of_nodup_map hdistinct hc hc' hnumber

/-- A key belongs to one document of a family. -/
theorem Sound.key_injective (hapart : context.SiblingsApart) (h : d.Sound context next)
    (hc : c ∈ d.offspring) (hc' : c' ∈ d.offspring) (hkey : c.key = c'.key) : c = c' := by
  -- the key of a shared document is its language, and never that of a standalone one
  have hmixed : ∀ {x y : Document}, x ∈ d.offspring → y ∈ d.offspring → x.key = y.key →
      x.id.kind.standalone = false → y.id.kind.standalone = true → False := by
    intro x y hx hy hsame hshared halone
    refine hapart _ x.id.kind y.id.kind (h.derives hx).finds (h.derives hy).finds hshared halone
      y.id.number ?_
    rw [key, Identity.key, Identity.keyOf, hshared, if_neg Bool.false_ne_true] at hsame
    exact hsame
  have hchild : ∀ {x : Document}, x ∈ d.offspring → x.id.kind.standalone = false →
      x ∈ d.children := by
    intro x hx hshared
    refine (List.mem_append.mp hx).resolve_right fun hparked => ?_
    rw [h.family.alone x.id (List.mem_map_of_mem hparked)] at hshared
    cases hshared
  cases halone : c.id.kind.standalone with
  | true =>
    cases halone' : c'.id.kind.standalone with
    | true => exact h.number_injective hc hc' (Identity.number_eq_of_keyOf_eq halone halone' hkey)
    | false => exact (hmixed hc' hc hkey.symm halone' halone).elim
  | false =>
    cases halone' : c'.id.kind.standalone with
    | true => exact (hmixed hc hc' hkey halone halone').elim
    | false => exact h.sorted.eq_of_key_eq (hchild hc halone) (hchild hc' halone') hkey

theorem Sound.eq_of_within (hplain : context.PlainNames) (h : d.Sound context next)
    (hc : c ∈ d.offspring) (hc' : c' ∈ d.offspring) {q : String} (hq : Within c.idPath q)
    (hq' : Within c'.idPath q) : c = c' :=
  h.key_injective hplain.siblingsApart hc hc' ((h.derives hc).key_eq hplain (h.derives hc') hq hq')

theorem Sound.apart (hplain : context.PlainNames) (h : d.Sound context next) :
    PathsApart (d.offspring.map idPath) := by
  have hnodup : d.offspring.Nodup := by
    have hdistinct := h.family.distinct
    rw [← List.map_append, List.map_map] at hdistinct
    exact hdistinct.of_map _
  rw [PathsApart, List.pairwise_map]
  refine hnodup.pairwise_of_forall_ne ?_
  intro x hx y hy hne q hq
  exact hne (h.eq_of_within hplain hx hy hq.1 hq.2)

/-- A chosen child joins the others, or takes the place that it had. -/
theorem Steady.mem_offspring_chooseChild (hapart : context.SiblingsApart) {kind : Kind}
    {d₁ child x : Document} {n₁ : Nat} (hkind : context.Finds d.language kind)
    (h : d.Steady context next) (hc : Document.chooseChild kind next d = ⟨d₁, n₁, .ok child⟩) :
    x ∈ d₁.offspring ↔ x = child ∨ x ∈ d.offspring ∧ x.key ≠ child.key := by
  obtain ⟨hd₁, _, hchildren, _⟩ := h.chooseChild hapart hkind hc
  have hparked := (chooseChild_ok hc).2.1
  have hmem : child ∈ d₁.offspring := by
    rw [offspring, hchildren]
    exact List.mem_append_left _ (mem_insertByKey_self child d.children)
  constructor
  · intro hx
    by_cases hkey : x.key = child.key
    · exact Or.inl (hd₁.self.key_injective hapart hx hmem hkey)
    · refine Or.inr ⟨?_, hkey⟩
      rcases List.mem_append.mp hx with hx | hx
      · rw [hchildren] at hx
        exact List.mem_append_left _
          ((mem_insertByKey hx).resolve_left fun heq => hkey (heq ▸ rfl))
      · exact List.mem_append_right _ (hparked hx)
  · rintro (rfl | ⟨hx, hkey⟩)
    · exact hmem
    · rcases List.mem_append.mp hx with hx | hx
      · rw [offspring, hchildren]
        exact List.mem_append_left _ (mem_insertByKey_of_ne hx hkey)
      · refine List.mem_append_right _ ?_
        obtain ⟨info, children, parked⟩ := d
        cases h.chosen hapart hkind hc with
        | shared _ _ _ => exact hx
        | @parked c earlier later _ hsplit _ _ =>
          rw [parked_node, hsplit] at hx
          rcases List.mem_append.mp hx with hx | hx
          · exact List.mem_append_left _ hx
          · refine List.mem_append_right _ ((List.mem_cons.mp hx).resolve_left ?_)
            rintro rfl
            exact hkey (key_withLifetime x _).symm
        | new _ _ => exact hx

theorem Sound.mem_offspring_putChild (hapart : context.SiblingsApart) {g x : Document}
    (h : d.Sound context next) (hc : c ∈ d.children) (hkey : g.key = c.key) :
    x ∈ (d.putChild g).offspring ↔ x = g ∨ x ∈ d.offspring ∧ x.key ≠ g.key := by
  have hsorted := h.sorted
  have hparked : ∀ {y}, y ∈ d.parked → y.key ≠ g.key := by
    intro y hy hsame
    have hboth := h.key_injective hapart (List.mem_append_right _ hy) (List.mem_append_left _ hc)
      (hsame.trans hkey)
    have hdistinct := h.family.distinct
    rw [List.map_append, List.nodup_append] at hdistinct
    subst hboth
    exact hdistinct.2.2 _ (List.mem_map_of_mem (List.mem_map_of_mem hc)) _
      (List.mem_map_of_mem (List.mem_map_of_mem hy)) rfl
  obtain ⟨info, children, parked⟩ := d
  rw [children_node] at hsorted
  rw [putChild, offspring, offspring, List.mem_append, List.mem_append, children_node, parked_node,
    hsorted.mem_insertByKey_iff]
  constructor
  · rintro ((rfl | ⟨hx, hne⟩) | hx)
    · exact Or.inl rfl
    · exact Or.inr ⟨Or.inl hx, hne⟩
    · exact Or.inr ⟨Or.inr hx, hparked hx⟩
  · rintro (rfl | ⟨hx | hx, hne⟩)
    · exact Or.inl (Or.inl rfl)
    · exact Or.inl (Or.inr ⟨hx, hne⟩)
    · exact Or.inr hx

/-- A chosen child was owned before, but for its lifetime, or else it is new, which is told. -/
theorem Steady.chooseChild_cases (hapart : context.SiblingsApart) {kind : Kind}
    {d₁ child : Document} {n₁ : Nat} (hkind : context.Finds d.language kind) (h : d.Steady context next)
    (hc : Document.chooseChild kind next d = ⟨d₁, n₁, .ok child⟩) :
    (∃ c ∈ d.offspring, ∃ lifetime, child = c.withLifetime lifetime ∧ n₁ = next ∧
        d₁.outbox = d.outbox) ∨
      ((∃ uri, child = newChild d.info kind next uri) ∧ (∀ x ∈ d.offspring, x.key ≠ child.key) ∧
        n₁ = next + 1 ∧ d₁.outbox = d.outbox ++ [child.id.event .opened]) := by
  have hd₁ := (h.chooseChild hapart hkind hc).1
  have hmem : child ∈ d₁.offspring :=
    (h.mem_offspring_chooseChild hapart hkind hc).mpr (Or.inl rfl)
  obtain ⟨info, children, parked⟩ := d
  cases h.chosen hapart hkind hc with
  | @shared c _ hold _ => exact Or.inl ⟨c, List.mem_append_left _ hold, _, rfl, rfl, rfl⟩
  | @parked c earlier later _ hsplit _ _ =>
    refine Or.inl ⟨c, ?_, _, rfl, rfl, rfl⟩
    simp [offspring, hsplit]
  | @new uri _ hfresh =>
    refine Or.inr ⟨⟨uri, rfl⟩, ?_, rfl, rfl⟩
    intro x hx
    rcases List.mem_append.mp hx with hx | hx
    · exact hfresh x hx
    · intro hkey
      have hlt := h.self.family.numbered x.id (List.mem_append_right _ (List.mem_map_of_mem hx))
      rw [hd₁.self.key_injective hapart (List.mem_append_right _ hx) hmem hkey] at hlt
      exact absurd hlt (Nat.lt_irrefl next)

/-- What all that a document owns has, whatever its lifetime, and new documents have, the chosen
child has. -/
theorem Steady.throughout_chosen (hapart : context.SiblingsApart) {kind : Kind}
    {d₁ child : Document} {n₁ : Nat} (hkind : context.Finds d.language kind) (h : d.Steady context next)
    (hc : Document.chooseChild kind next d = ⟨d₁, n₁, .ok child⟩) {P : Document → Prop}
    (howned : ∀ c ∈ d.offspring, c.Throughout P)
    (hlifetime : ∀ (c : Document) lifetime, c.Throughout P → (c.withLifetime lifetime).Throughout P)
    (hnew : ∀ uri, (newChild d.info kind next uri).Throughout P) : child.Throughout P := by
  rcases h.chooseChild_cases hapart hkind hc with ⟨c, hold, lifetime, rfl, _⟩ | ⟨⟨uri, rfl⟩, _⟩
  · exact hlifetime c lifetime (howned c hold)
  · exact hnew uri

theorem Steady.below_of_mem (h : d.Steady context next) (hc : c ∈ d.offspring) :
    Below d.idPath c.idPath := (h.self.derives hc).below

theorem Steady.of_mem_offspring (h : d.Steady context next) (hc : c ∈ d.offspring) :
    c.Steady context next := fun x hx => h x (owns_iff.mpr (Or.inr ⟨c, hc, hx⟩))

theorem Steady.within_of_owns (h : d.Steady context next) (he : d.Owns e) :
    Within d.idPath e.idPath := by
  induction d using offspring_induction with
  | step d ih =>
    rcases owns_iff.mp he with rfl | ⟨c, hc, he⟩
    · exact Or.inl rfl
    · exact Or.inr ((h.below_of_mem hc).within (ih c hc (h.of_mem_offspring hc) he))

/-- A tree has no path twice. -/
theorem Steady.eq_of_idPath_eq (hplain : context.PlainNames) (h : d.Steady context next)
    (he : d.Owns e) (he' : d.Owns e') (hpath : e.idPath = e'.idPath) : e = e' := by
  induction d using offspring_induction with
  | step d ih =>
    have hbelow : ∀ {c x : Document}, c ∈ d.offspring → c.Owns x → Below d.idPath x.idPath :=
      fun hc hx => (h.below_of_mem hc).within ((h.of_mem_offspring hc).within_of_owns hx)
    rcases owns_iff.mp he with rfl | ⟨c, hc, hce⟩
    · rcases owns_iff.mp he' with rfl | ⟨c', hc', hce'⟩
      · rfl
      · exact absurd (hpath ▸ hbelow hc' hce') (not_below_self _)
    · rcases owns_iff.mp he' with rfl | ⟨c', hc', hce'⟩
      · exact absurd (hpath ▸ hbelow hc hce) (not_below_self _)
      · have hwithin := (h.of_mem_offspring hc).within_of_owns hce
        have hwithin' := (h.of_mem_offspring hc').within_of_owns hce'
        rw [← hpath] at hwithin'
        obtain rfl := h.self.eq_of_within hplain hc hc' hwithin hwithin'
        exact ih c hc (h.of_mem_offspring hc) hce hce'

end

end Document

end Polyglot
