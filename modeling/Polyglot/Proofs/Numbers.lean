import Polyglot.Proofs.Families
import Mathlib.Data.List.Flatten

/-!
Numbers of documents. Whoever is opened gets the number of the counter, which then advances; all
other operations move documents, or let them go. So in every tree that can arise no two documents
have the same number, children and parked ones alike.
-/
namespace Polyglot.Document

mutual

/-- The numbers of a document and of all that it owns. -/
def numbers : Document → List Nat
  | node info children parked => info.id.number :: (numbersAll children ++ numbersAll parked)

def numbersAll : List Document → List Nat
  | [] => []
  | d :: rest => d.numbers ++ numbersAll rest

end

theorem numbersAll_eq (ds : List Document) : numbersAll ds = ds.flatMap numbers := by
  induction ds with
  | nil => rfl
  | cons d rest ih => rw [numbersAll, ih, List.flatMap_cons]

theorem numbers_node (info : Info) (children parked : List Document) :
    (node info children parked).numbers =
      info.id.number :: (children ++ parked).flatMap numbers := by
  rw [numbers, numbersAll_eq, numbersAll_eq, List.flatMap_append]

theorem numbers_modify (d : Document) {f : Info → Info} (hf : (f d.info).id = d.info.id) :
    (d.modify f).numbers = d.numbers := by
  obtain ⟨info, children, parked⟩ := d
  rw [info_node] at hf
  rw [modify_node, numbers_node, numbers_node, hf]

theorem numbers_withLifetime (d : Document) (lifetime : Nat) :
    (d.withLifetime lifetime).numbers = d.numbers := numbers_modify d rfl

theorem numbers_drained (d : Document) : d.drained.numbers = d.numbers := numbers_modify d rfl

/-- The numbers of a tree are all different, and not yet to come. -/
structure Numbered (next : Nat) (d : Document) : Prop where
  nodup : d.numbers.Nodup
  lt : ∀ n ∈ d.numbers, n < next

theorem Numbered.subperm {next : Nat} {d e : Document} (h : d.Numbered next)
    (hsub : e.numbers.Subperm d.numbers) : e.Numbered next where
  nodup := by
    obtain ⟨l, hperm, hl⟩ := hsub
    exact hperm.nodup_iff.mp (h.nodup.sublist hl)
  lt n hn := h.lt n (hsub.subset hn)

/-- A tree gets documents with numbers of the counter, each number once, and loses none. -/
structure Enrolls (next : Nat) (d : Document) (later : Nat) (e : Document) : Prop where
  le : next ≤ later
  numbers : ∃ new, e.numbers.Perm (new ++ d.numbers) ∧ new.Nodup ∧
    ∀ n ∈ new, next ≤ n ∧ n < later

namespace Enrolls

variable {next later last : Nat} {d e f : Document}

theorem of_perm (h : e.numbers.Perm d.numbers) (hle : next ≤ later) : Enrolls next d later e where
  le := hle
  numbers := ⟨[], h, List.nodup_nil, by simp⟩

theorem trans (h : Enrolls next d later e) (h' : Enrolls later e last f) :
    Enrolls next d last f := by
  obtain ⟨new, hperm, hnodup, hnew⟩ := h.numbers
  obtain ⟨new', hperm', hnodup', hnew'⟩ := h'.numbers
  refine ⟨h.le.trans h'.le, new' ++ new, ?_, ?_, ?_⟩
  · rw [List.append_assoc]
    exact hperm'.trans (hperm.append_left new')
  · -- the counter has passed the earlier numbers before the later ones are given
    refine List.nodup_append.mpr ⟨hnodup', hnodup, ?_⟩
    intro m hm n hn
    have := hnew' m hm
    have := hnew n hn
    omega
  · intro n hn
    have hle := h.le
    have hle' := h'.le
    rcases List.mem_append.mp hn with hn | hn
    · have := hnew' n hn
      omega
    · have := hnew n hn
      omega

theorem numbered (h : Enrolls next d later e) (hd : d.Numbered next) : e.Numbered later := by
  obtain ⟨new, hperm, hnodup, hnew⟩ := h.numbers
  have hle := h.le
  constructor
  · rw [hperm.nodup_iff, List.nodup_append]
    refine ⟨hnodup, hd.nodup, ?_⟩
    intro m hm n hn
    have := hnew m hm
    have := hd.lt n hn
    omega
  · intro n hn
    rcases List.mem_append.mp (hperm.subset hn) with hn | hn
    · exact (hnew n hn).2
    · have := hd.lt n hn
      omega

/-- What a child enrolls, its parent enrolls. -/
theorem putChild {c c' : Document} (h : Enrolls next c later c') (hsorted : Sorted d.children)
    (hc : c ∈ d.children) (hkey : c'.key = c.key) : Enrolls next d later (d.putChild c') := by
  obtain ⟨info, children, parked⟩ := d
  obtain ⟨pre, post, hsplit, hinsert⟩ := Document.Sorted.exists_split hsorted hc hkey
  rw [children_node] at hsplit hinsert
  obtain ⟨new, hperm, hnodup, hnew⟩ := h.numbers
  refine ⟨h.le, new, ?_, hnodup, hnew⟩
  have hmiddle : ∀ x : Document, (node info (pre ++ x :: post) parked).numbers.Perm
      (x.numbers ++ (node info (pre ++ post) parked).numbers) := by
    intro x
    have hx : (pre ++ x :: post ++ parked).Perm (x :: (pre ++ post ++ parked)) :=
      (List.perm_middle).append_right parked
    rw [numbers_node, numbers_node]
    refine ((hx.flatMap_right Document.numbers).cons _).trans ?_
    rw [List.flatMap_cons]
    exact List.perm_middle.symm
  rw [Document.putChild, hinsert, hsplit]
  refine (hmiddle c').trans ((hperm.append_right _).trans ?_)
  rw [List.append_assoc]
  exact (hmiddle c).symm.append_left new

end Enrolls

/-! Appending. -/

section

variable {context : Context} {next : Nat} (hapart : context.SiblingsApart)

include hapart

theorem enrolls_chooseChild {kind : Kind} {d d₁ child : Document} {n₁ : Nat}
    (hkind : context.Finds d.language kind) (h : d.Steady context next)
    (hc : chooseChild kind next d = ⟨d₁, n₁, .ok child⟩) : Enrolls next d n₁ d₁ := by
  obtain ⟨info, children, parked⟩ := d
  cases h.chosen hapart hkind hc with
  | @shared c _ hmem _ =>
    have hsame := h.self.sorted.map_insertByKey numbers hmem (key_withLifetime c _)
      (numbers_withLifetime c info.config.lifetime)
    rw [children_node] at hsame
    refine Enrolls.of_perm ?_ (Nat.le_refl next)
    rw [numbers_node, numbers_node, List.flatMap_append, List.flatMap_append, List.flatMap_def,
      hsame, ← List.flatMap_def]
  | @parked c earlier later _ hsplit _ hfresh =>
    subst hsplit
    have hperm : (insertByKey (c.withLifetime info.config.lifetime) children ++
        (earlier ++ later)).Perm
        (c.withLifetime info.config.lifetime :: (children ++ (earlier ++ later))) :=
      (perm_insertByKey hfresh).append_right _
    have hmiddle : (children ++ (earlier ++ c :: later)).Perm
        (c :: (children ++ (earlier ++ later))) := by
      rw [← List.append_assoc, ← List.append_assoc]
      exact List.perm_middle
    refine Enrolls.of_perm ?_ (Nat.le_refl next)
    rw [numbers_node, numbers_node]
    refine List.Perm.cons _ ((hperm.flatMap_right numbers).trans ?_)
    rw [List.flatMap_cons, numbers_withLifetime, ← List.flatMap_cons]
    exact (hmiddle.flatMap_right numbers).symm
  | @new uri _ hfresh =>
    have hperm := ((perm_insertByKey hfresh).append_right parked).flatMap_right numbers
    have hnumbers : (newChild info kind next uri).numbers = [next] := rfl
    rw [List.cons_append, List.flatMap_cons, hnumbers] at hperm
    refine ⟨Nat.le_succ next, [next], ?_, List.nodup_singleton next, by simp⟩
    rw [numbers_node, numbers_node]
    exact (hperm.cons _).trans (List.Perm.swap _ _ _)

theorem enrolls_giveFragment {editor : String} {below : Nat}
    (hgive : ∀ origin shift text next d, d.Steady context next →
      Enrolls next d (appendText context editor below origin shift text next d).next
        (appendText context editor below origin shift text next d).document)
    {f : Fragment} (origin : Pos .editor) {d : Document} (hkind : context.Finds d.language f.kind)
    (h : d.Steady context next) :
    Enrolls next d (giveFragment (appendText context editor below) editor origin f next d).next
      (giveFragment (appendText context editor below) editor origin f next d).document := by
  have hput : ∀ {d₁ child grown : Document} {n₁ n₂ : Nat} {result : Except DocumentError Unit},
      chooseChild f.kind next d = ⟨d₁, n₁, .ok child⟩ →
      appendText context editor below (foreignOrigin origin f.range) f.shift f.text n₁ child =
        ⟨grown, n₂, result⟩ →
      ∀ {grown' : Document}, grown'.numbers = grown.numbers → grown'.key = grown.key →
        Enrolls next d n₂ (d₁.putChild grown') := by
    intro d₁ child grown n₁ n₂ result hc hg grown' hnumbers hkey
    obtain ⟨hd₁, hchild, hchildren, _⟩ := h.chooseChild hapart hkind hc
    have hgrown := hgive (foreignOrigin origin f.range) f.shift f.text n₁ child hchild
    have hnature := (appendText_frame context editor below (foreignOrigin origin f.range) f.shift
      f.text n₁ child).1
    rw [hg] at hgrown hnature
    refine (enrolls_chooseChild hapart hkind h hc).trans (Enrolls.putChild ?_
      hd₁.self.sorted ?_ (hkey.trans (congrArg Identity.key (id_eq_of_nature_eq hnature))))
    · exact ⟨hgrown.le, hnumbers ▸ hgrown.numbers⟩
    · rw [hchildren]
      exact mem_insertByKey_self child d.children
  rcases giveFragment_cases (appendText context editor below) editor origin f next d with
    ⟨d₁, n₁, e, hc, heq⟩ | ⟨d₁, n₁, child, grown, n₂, e, hc, hg, heq⟩ |
    ⟨d₁, n₁, child, grown, n₂, hc, hg, heq⟩
  · obtain ⟨rfl, rfl⟩ := chooseChild_error hc
    rw [heq]
    exact Enrolls.of_perm (List.Perm.refl _) (Nat.le_succ next)
  · rw [heq]
    exact hput hc hg rfl rfl
  · have hall := hput hc hg (numbers_drained grown)
      (congrArg Identity.key (id_eq_of_nature_eq (nature_drained grown)))
    rw [heq]
    exact hall.trans (Enrolls.of_perm (by rw [emit, numbers_modify _ rfl]) (Nat.le_refl n₂))

theorem enrolls_appendText (editor : String) (levels : Nat) (origin : Pos .editor)
    (shift : Option (Pos .source)) (text : Text) {d : Document} (h : d.Steady context next) :
    Enrolls next d (appendText context editor levels origin shift text next d).next
      (appendText context editor levels origin shift text next d).document := by
  refine (appendText_relates (R := fun n d n' d' => d.Steady context n →
    d'.Steady context n' ∧ Enrolls n d n' d') (G := fun _ _ _ => True) ?_ ?_ ?_ ?_ levels trivial
    next d h).2
  · exact fun n d hd => ⟨hd, Enrolls.of_perm (List.Perm.refl _) (Nat.le_refl n)⟩
  · intro _ _ _ _ _ _ hone htwo hd
    obtain ⟨hd₁, hnew⟩ := hone hd
    obtain ⟨hd₂, hnew'⟩ := htwo hd₁
    exact ⟨hd₂, hnew.trans hnew'⟩
  · intro below hbelow n d origin _ text _ f hf hd
    have hkind := Fragment.finds_of_mem_peel hf
    exact ⟨hd.giveFragment hapart editor below
        (fun o s t n c hc => (hbelow o s t trivial n c hc).1) origin hkind,
      enrolls_giveFragment hapart (fun o s t n c hc => (hbelow o s t trivial n c hc).2) origin hkind
        hd⟩
  · intro n d origin shift text kept _ _ foreign hd
    exact ⟨hd.modify (nature_modify d rfl rfl rfl),
      Enrolls.of_perm (by rw [push, numbers_modify d rfl]) (Nat.le_refl n)⟩

end

/-! The other operations. -/

theorem numbers_clear (d : Document) : d.clear.numbers.Perm d.numbers := by
  induction d using tree_induction with
  | step info children parked ihc _ =>
    have hcleared : ((clearAll children).map drained).flatMap numbers =
        children.flatMap fun c => c.clear.numbers := by
      rw [clearAll_eq, List.map_map, List.flatMap_map]
      refine congrArg (children.flatMap ·) (funext fun c => ?_)
      exact numbers_drained c.clear
    have hchildren : (children.flatMap fun c => c.clear.numbers).Perm (children.flatMap numbers) :=
      List.Perm.flatMap_left children ihc
    rw [clear]
    simp only [List.partition_eq_filter_filter]
    revert hcleared
    generalize (clearAll children).map drained = cleared
    intro hcleared
    rw [numbers_node, numbers_node]
    refine List.Perm.cons _ (((perm_parted cleared parked).flatMap_right numbers).trans ?_)
    rw [List.flatMap_append, List.flatMap_append, hcleared]
    exact hchildren.append_right _

theorem numbers_closeExpired (d : Document) : d.closeExpired.numbers.Sublist d.numbers := by
  induction d using tree_induction with
  | step info children parked ihc _ =>
    have hswept : ∀ c ∈ children.filter (isStaying info.idle),
        (numbers (drained (swept info.idle c))).Sublist c.numbers := by
      intro c hc
      rw [numbers_drained]
      unfold swept
      split
      · rw [aged, numbers_withLifetime]
        exact ihc c (List.mem_filter.mp hc).1
      · exact ihc c (List.mem_filter.mp hc).1
    rw [closeExpired, numbers_node, numbers_node, closeStaying_eq, List.map_map,
      List.flatMap_append, List.flatMap_append, List.flatMap_map, List.flatMap_map]
    refine List.Sublist.cons_cons _ (List.Sublist.append ?_ ?_)
    · exact (List.Sublist.flatMap_right _ hswept).trans (List.filter_sublist.flatMap numbers)
    · refine (List.Sublist.flatMap_right _ ?_).trans (List.filter_sublist.flatMap numbers)
      intro c _
      rw [aged, numbers_withLifetime]

theorem numbers_emitChanged (d : Document) : d.emitChanged.numbers = d.numbers := by
  induction d using tree_induction with
  | step info children parked ihc _ =>
    obtain ⟨lastValue, outbox, hnote⟩ := noteChange_eq info
    have htold : ∀ c ∈ children, numbers (drained (emitChanged c)) = c.numbers := by
      intro c hc
      rw [numbers_drained, ihc c hc]
    rw [emitChanged, numbers_node, numbers_node, emitChangedAll_eq, List.map_map,
      List.flatMap_append, List.flatMap_append, List.flatMap_map, hnote]
    exact congrArg (fun ns => info.id.number :: (ns ++ parked.flatMap numbers))
      (List.flatMap_congr htold)

theorem numbers_dispose (d : Document) : d.dispose.numbers.Sublist d.numbers := by
  obtain ⟨info, children, parked⟩ := d
  rw [dispose]
  split
  · exact List.Sublist.refl _
  · rw [numbers_node, numbers_node]
    exact List.Sublist.cons_cons _ (List.nil_sublist _)

/-- In every tree that can arise, no two documents have the same number. -/
theorem numbered_of_reachable {context : Context} {next : Nat} (hapart : context.SiblingsApart)
    {d : Document} (h : Reachable context next d) : d.Numbered next := by
  induction h with
  | root language path extension number =>
    have hnumbers : (root context.config language path extension number).numbers = [number] := rfl
    constructor
    · rw [hnumbers]
      exact List.nodup_singleton number
    · rw [hnumbers]
      simp
  | wait _ hle ih => exact ⟨ih.nodup, fun n hn => Nat.lt_of_lt_of_le (ih.lt n hn) hle⟩
  | append levels text editor origin shift hd ih =>
    exact (enrolls_appendText hapart editor levels origin shift text
      (steady_of_reachable hapart hd)).numbered ih
  | clear _ ih => exact ih.subperm (numbers_clear _).subperm
  | closeExpired _ ih => exact ih.subperm (numbers_closeExpired _).subperm
  | @emitChanged _ d _ ih => exact ih.subperm (numbers_emitChanged d ▸ List.Subperm.refl _)
  | dispose _ ih => exact ih.subperm (numbers_dispose _).subperm
  | @drained _ d _ ih => exact ih.subperm (numbers_drained d ▸ List.Subperm.refl _)

end Polyglot.Document
