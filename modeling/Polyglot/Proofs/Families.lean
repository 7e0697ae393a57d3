import Polyglot.Proofs.Children
import Polyglot.Proofs.Extraction
import Polyglot.Proofs.Ownership
import Mathlib.Data.List.Nodup

/-!
What the documents that one document owns have in common, in every tree that can arise: the
children stand in the order of their keys, no two documents of a family share a number, all are of
a kind that some extractor asks for, and what is parked is standalone and blank. For this the keys
of shared documents, which are plain languages, must never read like keys of standalone ones.
-/
namespace Polyglot

namespace Context

/-- No language of shared documents is the key of a standalone document of the same host. -/
def SiblingsApart (context : Context) : Prop :=
  ∀ host shared alone, context.Finds host shared → context.Finds host alone →
    shared.standalone = false → alone.standalone = true →
    ∀ number, shared.language ≠ Identity.keyOf alone number

end Context

/-- How a document is made for another one, in whose texts some extractor finds code of its kind. -/
structure Identity.Derives (context : Context) (parent id : Identity) : Prop where
  finds : context.Finds parent.kind.language id.kind
  path : id.path = parent.path
  idPath : id.idPath = parent.idPath ++ "-" ++ id.key
  uri : Document.childUri parent.path id.idPath id.kind.extension = .ok id.uri

/-- The identities of the children and of the parked documents of one document, `next` being the
number that is free. -/
structure Family (context : Context) (next : Nat) (parent : Identity)
    (children parked : List Identity) : Prop where
  sorted : children.Pairwise (·.key < ·.key)
  numbered : ∀ id ∈ children ++ parked, id.number < next
  distinct : ((children ++ parked).map (·.number)).Nodup
  derives : ∀ id ∈ children ++ parked, parent.Derives context id
  alone : ∀ id ∈ parked, id.kind.standalone = true

namespace Family

variable {context : Context} {next : Nat} {parent : Identity} {children parked : List Identity}

theorem empty (context : Context) (next : Nat) (parent : Identity) :
    Family context next parent [] [] where
  sorted := List.Pairwise.nil
  numbered _ h := by simp at h
  distinct := List.nodup_nil
  derives _ h := by simp at h
  alone _ h := by simp at h

theorem mono (h : Family context next parent children parked) {later : Nat} (hle : next ≤ later) :
    Family context later parent children parked :=
  { h with numbered := fun id hid => Nat.lt_of_lt_of_le (h.numbered id hid) hle }

/-- Documents may leave a family, or change between children and parked ones. -/
theorem rearrange (h : Family context next parent children parked)
    {children' parked' : List Identity} (hsorted : children'.Pairwise (·.key < ·.key))
    (hall : (children' ++ parked').Subperm (children ++ parked))
    (halone : ∀ id ∈ parked', id.kind.standalone = true) :
    Family context next parent children' parked' where
  sorted := hsorted
  numbered id hid := h.numbered id (hall.subset hid)
  distinct := by
    obtain ⟨l, hperm, hsub⟩ := hall
    exact ((hperm.map _).nodup_iff).mp (h.distinct.sublist (hsub.map _))
  derives id hid := h.derives id (hall.subset hid)
  alone := halone

theorem sublist (h : Family context next parent children parked) {children' parked' : List Identity}
    (hchildren : children'.Sublist children) (hparked : parked'.Sublist parked) :
    Family context next parent children' parked' :=
  h.rearrange (h.sorted.sublist hchildren) (hchildren.append hparked).subperm
    (fun id hid => h.alone id (hparked.subset hid))

/-- The key of a standalone document is free if its number is. -/
theorem key_ne (h : Family context next parent children parked) (hapart : context.SiblingsApart)
    {kind : Kind} {number : Nat} (hkind : context.Finds parent.kind.language kind)
    (halone : kind.standalone = true) (hnumber : ∀ id ∈ children, id.number ≠ number) :
    ∀ id ∈ children, id.key ≠ Identity.keyOf kind number := by
  intro id hid hkey
  have hfinds := (h.derives id (List.mem_append_left parked hid)).finds
  cases hshared : id.kind.standalone with
  | true => exact hnumber id hid (Identity.number_eq_of_keyOf_eq hshared halone hkey)
  | false =>
    refine hapart _ id.kind kind hfinds hkind hshared halone number ?_
    rw [← hkey, Identity.key, Identity.keyOf, hshared]
    simp

/-- A new document joins the family. -/
theorem join (h : Family context next parent children parked) {children' : List Identity}
    {id : Identity}
    (hsorted : children'.Pairwise (·.key < ·.key)) (hperm : children'.Perm (id :: children))
    (hnumber : id.number = next) (hderives : parent.Derives context id) :
    Family context (next + 1) parent children' parked := by
  have hall : (children' ++ parked).Perm (id :: (children ++ parked)) := hperm.append_right parked
  refine ⟨hsorted, ?_, ?_, ?_, h.alone⟩
  · intro x hx
    rcases List.mem_cons.mp (hall.subset hx) with rfl | hx
    · omega
    · have := h.numbered x hx
      omega
  · rw [(hall.map _).nodup_iff, List.map_cons, List.nodup_cons]
    refine ⟨?_, h.distinct⟩
    intro hmem
    obtain ⟨x, hx, hsame⟩ := List.mem_map.mp hmem
    have := h.numbered x hx
    omega
  · intro x hx
    rcases List.mem_cons.mp (hall.subset hx) with rfl | hx
    · exact hderives
    · exact h.derives x hx

end Family

namespace Document

/-- No document of the tree has blocks. -/
def Blank (d : Document) : Prop := d.Throughout fun e => e.info.blocks = []

/-- What is parked is blank. -/
def Emptied (d : Document) : Prop := ∀ c ∈ d.parked, c.Blank

theorem emptied_node (info : Info) (children parked : List Document) :
    (node info children parked).Throughout Emptied ↔
      (∀ c ∈ parked, c.Blank) ∧ (∀ c ∈ children, c.Throughout Emptied) ∧
        ∀ c ∈ parked, c.Throughout Emptied := throughout_node _ info children parked

theorem emptied_modify {d : Document} (h : d.Throughout Emptied) (f : Info → Info) :
    (d.modify f).Throughout Emptied := by
  obtain ⟨info, children, parked⟩ := d
  rw [emptied_node] at h
  rw [modify_node, emptied_node]
  exact h

theorem emptied_putChild {d c : Document} (h : d.Throughout Emptied) (hc : c.Throughout Emptied) :
    (d.putChild c).Throughout Emptied := by
  obtain ⟨info, children, parked⟩ := d
  rw [emptied_node] at h
  rw [putChild, emptied_node]
  refine ⟨h.1, ?_, h.2.2⟩
  intro x hx
  rcases mem_insertByKey hx with rfl | hold
  · exact hc
  · exact h.2.1 x hold

theorem emptied_chooseChild {kind : Kind} {next n₁ : Nat} {d d₁ child : Document}
    (h : d.Throughout Emptied) (hc : chooseChild kind next d = ⟨d₁, n₁, .ok child⟩) :
    d₁.Throughout Emptied ∧ child.Throughout Emptied := by
  obtain ⟨hchildren, hparked, hfrom⟩ := chooseChild_ok hc
  obtain ⟨info, children, parked⟩ := d
  rw [emptied_node] at h
  have hchild : child.Throughout Emptied := by
    rcases hfrom with ⟨c, lifetime, hmem, rfl⟩ | ⟨new, rfl, _⟩
    · exact emptied_modify (hmem.elim (h.2.1 c) (h.2.2 c)) _
    · rw [emptied_node]
      simp
  refine ⟨?_, hchild⟩
  obtain ⟨info₁, children₁, parked₁⟩ := d₁
  obtain rfl : children₁ = insertByKey child children := hchildren
  rw [emptied_node]
  refine ⟨fun x hx => h.1 x (hparked hx), ?_, fun x hx => h.2.2 x (hparked hx)⟩
  intro x hx
  rcases mem_insertByKey hx with rfl | hold
  · exact hchild
  · exact h.2.1 x hold

theorem emptied_appendText {context : Context} (editor : String) (levels : Nat)
    (origin : Pos .editor) (shift : Option (Pos .source)) (text : Text) (next : Nat) {d : Document}
    (h : d.Throughout Emptied) :
    (appendText context editor levels origin shift text next d).document.Throughout Emptied := by
  refine appendText_keeps (I := fun _ e => e.Throughout Emptied) ?_ ?_ levels origin shift text next
    h
  · intro below hbelow n e he _ f _ origin
    rcases giveFragment_cases (appendText context editor below) editor origin f n e with
      ⟨d₁, n₁, _, hc, heq⟩ | ⟨d₁, n₁, child, grown, n₂, _, hc, hg, heq⟩ |
      ⟨d₁, n₁, child, grown, n₂, hc, hg, heq⟩
    · rw [heq, (chooseChild_error hc).1]
      exact he
    · obtain ⟨hd₁, hchild⟩ := emptied_chooseChild he hc
      have hgrown := hbelow (foreignOrigin origin f.range) f.shift f.text n₁ child hchild
      rw [hg] at hgrown
      rw [heq]
      exact emptied_putChild hd₁ hgrown
    · obtain ⟨hd₁, hchild⟩ := emptied_chooseChild he hc
      have hgrown := hbelow (foreignOrigin origin f.range) f.shift f.text n₁ child hchild
      rw [hg] at hgrown
      rw [heq]
      exact emptied_modify (emptied_putChild hd₁ (emptied_modify hgrown _)) _
  · intro _ e _ _ he _ _ _ _
    exact emptied_modify he _

/-- Emptying leaves no block anywhere, if what was parked had none. -/
theorem blank_clear {d : Document} (h : d.Throughout Emptied) : d.clear.Blank := by
  induction d using tree_induction with
  | step info children parked ihc _ =>
    rw [emptied_node] at h
    exact throughout_clear rfl
      (fun x hx => Everywhere.drained (Q := fun _ blocks => blocks = []) (ihc x hx (h.2.1 x hx)))
      h.1

theorem emptied_of_blank {d : Document} (h : d.Blank) : d.Throughout Emptied := by
  intro e he c hc x hx
  exact h x (he.trans (Owns.parked hc hx))

theorem lasting_emptied : Lasting Emptied := by
  intro d e h _ _ hparked c hc
  rcases hparked with hsub | hsub
  · exact h c (hsub.subset hc)
  · obtain ⟨x, hx, rfl⟩ := List.mem_map.mp (hsub.subset hc)
    exact Everywhere.withLifetime (Q := fun _ blocks => blocks = []) (h x hx) _

/-- What is parked anywhere in a tree that can arise is blank. -/
theorem emptied_of_reachable {context : Context} {next : Nat} {d : Document}
    (h : Reachable context next d) : d.Throughout Emptied := by
  induction h with
  | root language path extension number =>
    rw [Document.root, emptied_node]
    simp
  | wait _ _ ih => exact ih
  | append levels text editor origin shift _ ih =>
    exact emptied_appendText editor levels origin shift text _ ih
  | clear _ ih => exact emptied_of_blank (blank_clear ih)
  | closeExpired _ ih => exact lasting_emptied.closeExpired ih
  | emitChanged _ ih => exact lasting_emptied.emitChanged ih
  | @dispose _ d _ ih =>
    obtain ⟨info, children, parked⟩ := d
    rw [dispose]
    split
    · exact ih
    · rw [emptied_node]
      simp
  | drained _ ih => exact emptied_modify ih _

structure Sound (context : Context) (next : Nat) (d : Document) : Prop where
  family : Family context next d.id (d.children.map Document.id) (d.parked.map Document.id)
  blank : ∀ c ∈ d.parked, c.Blank
  config : d.info.config = context.config
  live : ∀ c ∈ d.children ++ d.parked, c.isDisposed = false

/-- All families of a tree are sound. -/
def Steady (context : Context) (next : Nat) (d : Document) : Prop :=
  d.Throughout (Sound context next)

section

variable {context : Context} {next : Nat}

theorem Sound.sorted {d : Document} (h : d.Sound context next) : Sorted d.children := by
  have := h.family.sorted
  rwa [List.pairwise_map] at this

theorem Sound.mono {d : Document} (h : d.Sound context next) {later : Nat} (hle : next ≤ later) :
    d.Sound context later := { h with family := h.family.mono hle }

theorem Steady.mono {d : Document} (h : d.Steady context next) {later : Nat} (hle : next ≤ later) :
    d.Steady context later := h.imp fun _ he => he.mono hle

theorem steady_node (info : Info) (children parked : List Document) :
    (node info children parked).Steady context next ↔
      (node info children parked).Sound context next ∧
      (∀ c ∈ children, c.Steady context next) ∧ ∀ c ∈ parked, c.Steady context next :=
  throughout_node _ info children parked

theorem steady_leaf {info : Info} (hconfig : info.config = context.config) :
    (node info [] []).Steady context next :=
  (steady_node info [] []).mpr
    ⟨⟨Family.empty context next info.id, by simp, hconfig, by simp⟩, by simp, by simp⟩

/-- The documents of a family may leave it, change their places, and change otherwise, as long as
they stay what they are. -/
theorem Steady.rearrange {info info' : Info} {children parked children' parked' : List Document}
    (h : (node info children parked).Steady context next) (hid : info'.id = info.id)
    (hconfig : info'.config = info.config) (hsorted : Sorted children')
    (hall : ((children' ++ parked').map nature).Subperm ((children ++ parked).map nature))
    (halone : ∀ c ∈ parked', c.id.kind.standalone = true) (hblank : ∀ c ∈ parked', c.Blank)
    (hsteady : ∀ c ∈ children' ++ parked', c.Steady context next) :
    (node info' children' parked').Steady context next := by
  rw [steady_node] at h ⊢
  have hsound := h.1
  refine ⟨⟨?_, hblank, hconfig.trans hsound.config, ?_⟩,
    fun c hc => hsteady c (List.mem_append_left parked' hc),
    fun c hc => hsteady c (List.mem_append_right children' hc)⟩
  · have hfamily := hsound.family
    simp only [Document.id, info_node, children_node, parked_node] at hfamily ⊢
    rw [hid]
    refine hfamily.rearrange ?_ ?_ ?_
    · rw [List.pairwise_map]
      exact hsorted
    · obtain ⟨l, hperm, hsub⟩ := hall
      refine ⟨l.map Prod.fst, ?_, ?_⟩
      · have := hperm.map Prod.fst
        rw [List.map_map, List.map_append] at this
        exact this
      · have := hsub.map Prod.fst
        rw [List.map_map, List.map_append] at this
        exact this
    · intro id hid
      obtain ⟨x, hx, rfl⟩ := List.mem_map.mp hid
      exact halone x hx
  · intro c hc
    obtain ⟨x, hx, hsame⟩ := List.mem_map.mp (hall.subset (List.mem_map_of_mem hc))
    rw [isDisposed, ← (nature_eq_iff.mp hsame).2.2]
    exact hsound.live x hx

theorem Steady.modify {d : Document} (h : d.Steady context next) {f : Info → Info}
    (hf : (d.modify f).nature = d.nature) : (d.modify f).Steady context next := by
  obtain ⟨info, children, parked⟩ := d
  obtain ⟨hid, hconfig, _⟩ := nature_eq_iff.mp hf
  obtain ⟨hsound, hchildren, hparked⟩ := (steady_node _ _ _).mp h
  refine h.rearrange hid hconfig hsound.sorted (List.Subperm.refl _) ?_ hsound.blank ?_
  · exact fun c hc => hsound.family.alone c.id (List.mem_map_of_mem hc)
  · intro c hc
    rcases List.mem_append.mp hc with hc | hc
    · exact hchildren c hc
    · exact hparked c hc

/-- A child takes the place of what it was before. -/
theorem Steady.putChild {d c c' : Document} (h : d.Steady context next) (hc : c ∈ d.children)
    (hsame : c'.nature = c.nature) (hc' : c'.Steady context next) :
    (d.putChild c').Steady context next := by
  obtain ⟨info, children, parked⟩ := d
  obtain ⟨hsound, hchildren, hparked⟩ := (steady_node _ _ _).mp h
  have hkey : c'.key = c.key := congrArg Identity.key (id_eq_of_nature_eq hsame)
  have hnatures := hsound.sorted.map_insertByKey nature hc hkey hsame
  rw [children_node] at hnatures
  refine h.rearrange rfl rfl (hsound.sorted.insertByKey c') ?_ ?_ hsound.blank ?_
  · rw [List.map_append, hnatures, ← List.map_append]
  · exact fun x hx => hsound.family.alone x.id (List.mem_map_of_mem hx)
  · intro x hx
    rcases List.mem_append.mp hx with hx | hx
    · rcases mem_insertByKey hx with rfl | hold
      · exact hc'
      · exact hchildren x hold
    · exact hparked x hx

/-! Choosing a child. -/

/-- How a chosen child stands among the children: shared code goes to the one of its language, with
a new lifetime, and otherwise the key of the child was free and the child is blank. -/
def Seat (kind : Kind) (children : List Document) (child : Document) : Prop :=
  (kind.standalone = false ∧ ∃ c ∈ children, c.key = kind.language ∧
      ∃ lifetime, child = c.withLifetime lifetime) ∨
    (∀ c ∈ children, c.key ≠ child.key) ∧ child.Blank

/-- A document that is opened for code of a kind. -/
def newChild (info : Info) (kind : Kind) (number : Nat) (uri : Url) : Document :=
  node
    { id := ⟨kind, info.id.path, number, some info.id.idPath,
        info.id.idPath ++ "-" ++ Identity.keyOf kind number, uri⟩
      config := info.config
      lifetime := info.config.lifetime } [] []

/-- The child that is chosen for code of a kind, and what becomes of its parent: the shared child of
the language, or else a parked document or a new one, whose key was free. -/
inductive Chosen (kind : Kind) (next : Nat) (info : Info) (children parked : List Document) :
    Document → Nat → Document → Prop
  | shared {c : Document} : kind.standalone = false → c ∈ children → c.key = kind.language →
      Chosen kind next info children parked
        (node { info with idle := info.idle.erase kind.language }
          (insertByKey (c.withLifetime info.config.lifetime) children) parked) next
        (c.withLifetime info.config.lifetime)
  | parked {c : Document} {earlier later : List Document} : kind.standalone = true →
      parked = earlier ++ c :: later → c.language = kind.language →
      (∀ x ∈ children, x.key ≠ (c.withLifetime info.config.lifetime).key) →
      Chosen kind next info children parked
        (node info (insertByKey (c.withLifetime info.config.lifetime) children) (earlier ++ later))
        next (c.withLifetime info.config.lifetime)
  | new {uri : Url} :
      childUri info.id.path (info.id.idPath ++ "-" ++ Identity.keyOf kind next) kind.extension =
        .ok uri →
      (∀ x ∈ children, x.key ≠ (newChild info kind next uri).key) →
      Chosen kind next info children parked
        (node { info with outbox := info.outbox ++ [(newChild info kind next uri).id.event .opened] }
          (insertByKey (newChild info kind next uri) children) parked) (next + 1)
        (newChild info kind next uri)

theorem nature_withLifetime (d : Document) (lifetime : Nat) :
    (d.withLifetime lifetime).nature = d.nature := by
  cases d
  rfl

theorem key_withLifetime (d : Document) (lifetime : Nat) : (d.withLifetime lifetime).key = d.key :=
  congrArg Identity.key (id_eq_of_nature_eq (nature_withLifetime d lifetime))

variable (hapart : context.SiblingsApart)

include hapart

/-- A parked document becomes a child. -/
theorem Steady.unpark {info : Info} {children earlier later : List Document} {c : Document}
    (h : (node info children (earlier ++ c :: later)).Steady context next) (lifetime : Nat) :
    (∀ x ∈ children, x.key ≠ (c.withLifetime lifetime).key) ∧
      (node info (insertByKey (c.withLifetime lifetime) children) (earlier ++ later)).Steady
        context next := by
  obtain ⟨hsound, hchildren, hparked⟩ := (steady_node _ _ _).mp h
  have hfamily := hsound.family
  simp only [children_node, parked_node] at hfamily
  have hmem : c ∈ earlier ++ c :: later := by simp
  have hnature := nature_withLifetime c lifetime
  have hrest : ∀ x ∈ earlier ++ later, x ∈ earlier ++ c :: later := by
    intro x hx
    rcases List.mem_append.mp hx with hx | hx <;> simp [hx]
  have hfresh : ∀ x ∈ children, x.key ≠ (c.withLifetime lifetime).key := by
    intro x hx
    rw [key_withLifetime]
    have hdistinct := hfamily.distinct
    rw [List.map_append, List.nodup_append] at hdistinct
    refine hfamily.key_ne hapart (hfamily.derives c.id ?_).finds
      (hfamily.alone c.id ?_) ?_ x.id (List.mem_map_of_mem hx)
    · exact List.mem_append_right _ (List.mem_map_of_mem hmem)
    · exact List.mem_map_of_mem hmem
    · intro id hid
      exact hdistinct.2.2 _ (List.mem_map_of_mem hid) _
        (List.mem_map_of_mem (List.mem_map_of_mem hmem))
  refine ⟨hfresh, h.rearrange rfl rfl (hsound.sorted.insertByKey _) ?_ ?_
    (fun x hx => hsound.blank x (hrest x hx)) ?_⟩
  · have hperm := ((perm_insertByKey hfresh).map nature).append_right
      ((earlier ++ later).map nature)
    have hmiddle : (children.map nature ++ earlier.map nature ++
        c.nature :: later.map nature).Perm (c.nature :: (children.map nature ++
        earlier.map nature ++ later.map nature)) := List.perm_middle
    rw [List.append_assoc, List.append_assoc] at hmiddle
    rw [List.map_cons, hnature, List.map_append, List.cons_append] at hperm
    rw [List.map_append, List.map_append, List.map_append, List.map_append, List.map_cons]
    exact (hperm.trans hmiddle.symm).subperm
  · exact fun x hx => hfamily.alone x.id (List.mem_map_of_mem (hrest x hx))
  · intro x hx
    rcases List.mem_append.mp hx with hx | hx
    · rcases mem_insertByKey hx with rfl | hold
      · exact (hparked c hmem).modify hnature
      · exact hchildren x hold
    · exact hparked x (hrest x hx)

omit hapart in
/-- A new document becomes a child. -/
theorem Steady.join {info info' : Info} {children parked : List Document} {child : Document}
    (h : (node info children parked).Steady context next) (hid : info'.id = info.id)
    (hconfig : info'.config = info.config) (hfresh : ∀ x ∈ children, x.key ≠ child.key)
    (hchild : child.Steady context next) (hlive : child.isDisposed = false)
    (hnumber : child.id.number = next) (hderives : info.id.Derives context child.id) :
    (node info' (insertByKey child children) parked).Steady context (next + 1) := by
  obtain ⟨hsound, hchildren, hparked⟩ := (steady_node _ _ _).mp h
  rw [steady_node]
  refine ⟨⟨?_, hsound.blank, hconfig.trans hsound.config, ?_⟩, ?_,
    fun x hx => (hparked x hx).mono (Nat.le_succ next)⟩
  · rw [Document.id, info_node, hid]
    refine hsound.family.join ?_ ((perm_insertByKey hfresh).map Document.id) hnumber hderives
    rw [children_node, List.pairwise_map]
    exact hsound.sorted.insertByKey _
  · intro x hx
    rcases List.mem_append.mp hx with hx | hx
    · rcases mem_insertByKey hx with rfl | hold
      · exact hlive
      · exact hsound.live x (List.mem_append_left _ hold)
    · exact hsound.live x (List.mem_append_right _ hx)
  · intro x hx
    rcases mem_insertByKey hx with rfl | hold
    · exact hchild.mono (Nat.le_succ next)
    · exact (hchildren x hold).mono (Nat.le_succ next)

theorem Steady.chosen {kind : Kind} {info : Info} {children parked : List Document}
    {d₁ child : Document} {n₁ : Nat}
    (hkind : context.Finds (node info children parked).language kind)
    (h : (node info children parked).Steady context next)
    (hc : Document.chooseChild kind next (node info children parked) = ⟨d₁, n₁, .ok child⟩) :
    Chosen kind next info children parked d₁ n₁ child := by
  have hsound := h.self
  rcases chooseChild_cases kind next info children parked with
    ⟨c, hshared, hfind, heq⟩ | ⟨c, rest, halone, htake, heq⟩ | ⟨_, e, _, heq⟩ |
    ⟨hneeded, c, hopen, heq⟩ <;> rw [heq] at hc <;> cases hc
  · have hkey : c.key = kind.language := by simpa using List.find?_some hfind
    exact Chosen.shared hshared (List.mem_of_find?_eq_some hfind) hkey
  · obtain ⟨earlier, later, rfl, rfl, hlanguage, _⟩ := takeParked_eq_some htake
    obtain ⟨hfresh, _⟩ := h.unpark hapart info.config.lifetime
    exact Chosen.parked halone rfl hlanguage hfresh
  · obtain ⟨uri, huri, rfl⟩ := openChild_eq_ok hopen
    refine Chosen.new huri ?_
    show ∀ x ∈ children, x.key ≠ Identity.keyOf kind next
    intro x hx
    rcases hneeded with ⟨halone, _⟩ | ⟨hshared, hfind⟩
    · refine hsound.family.key_ne hapart hkind halone ?_ x.id (List.mem_map_of_mem hx)
      intro id hid
      exact Nat.ne_of_lt (hsound.family.numbered id (List.mem_append_left _ hid))
    · have hne := List.find?_eq_none.mp hfind x hx
      rw [Identity.keyOf, hshared]
      simpa using hne

theorem Steady.chooseChild {kind : Kind} {d d₁ child : Document} {n₁ : Nat}
    (hkind : context.Finds d.language kind) (h : d.Steady context next)
    (hc : chooseChild kind next d = ⟨d₁, n₁, .ok child⟩) :
    d₁.Steady context n₁ ∧ child.Steady context n₁ ∧
      d₁.children = insertByKey child d.children ∧ Seat kind d.children child := by
  obtain ⟨info, children, parked⟩ := d
  obtain ⟨hsound, hchildren, hparked⟩ := (steady_node _ _ _).mp h
  cases h.chosen hapart hkind hc with
  | @shared c hshared hmem hkey =>
    have hnature := nature_withLifetime c info.config.lifetime
    have hsteady := (hchildren c hmem).modify hnature
    have hidle := h.modify (f := fun i => { i with idle := info.idle.erase kind.language }) rfl
    exact ⟨hidle.putChild hmem hnature hsteady, hsteady, rfl,
      Or.inl ⟨hshared, c, hmem, hkey, _, rfl⟩⟩
  | @parked c earlier later _ hsplit _ hfresh =>
    subst hsplit
    have hmem : c ∈ earlier ++ c :: later := by simp
    have hblank : (c.withLifetime info.config.lifetime).Blank :=
      Everywhere.withLifetime (Q := fun _ blocks => blocks = []) (hsound.blank c hmem) _
    exact ⟨(h.unpark hapart info.config.lifetime).2,
      (hparked c hmem).modify (nature_withLifetime _ _), rfl, Or.inr ⟨hfresh, hblank⟩⟩
  | new huri hfresh =>
    refine ⟨h.join rfl rfl hfresh (steady_leaf hsound.config) rfl rfl ⟨hkind, rfl, rfl, huri⟩,
      steady_leaf hsound.config, rfl, Or.inr ⟨hfresh, ?_⟩⟩
    exact (everywhere_node (Q := fun _ blocks => blocks = []) _ _ _).mpr ⟨rfl, by simp, by simp⟩

/-- A child that is chosen for code of a kind has its language, and stands alone like it. -/
theorem Steady.kind_of_chooseChild {kind : Kind} {d d₁ child : Document} {n₁ : Nat}
    (hkind : context.Finds d.language kind) (h : d.Steady context next)
    (hc : Document.chooseChild kind next d = ⟨d₁, n₁, .ok child⟩) :
    child.language = kind.language ∧ child.id.kind.standalone = kind.standalone := by
  obtain ⟨info, children, parked⟩ := d
  have hfamily := h.self.family
  simp only [children_node, parked_node] at hfamily
  cases h.chosen hapart hkind hc with
  | @shared c hshared hmem hkey =>
    -- the key of a shared child is its language
    have hfinds :=
      (hfamily.derives c.id (List.mem_append_left _ (List.mem_map_of_mem hmem))).finds
    have hid := id_eq_of_nature_eq (nature_withLifetime c info.config.lifetime)
    rw [language, hid, hshared]
    cases hown : c.id.kind.standalone with
    | true => exact absurd hkey.symm (hapart _ kind c.id.kind hkind hfinds hshared hown _)
    | false =>
      refine ⟨?_, rfl⟩
      rw [← hkey, key, Identity.key, Identity.keyOf, hown]
      simp
  | @parked c earlier later halone hsplit hlanguage _ =>
    subst hsplit
    have hid := id_eq_of_nature_eq (nature_withLifetime c info.config.lifetime)
    rw [language, hid, halone]
    exact ⟨hlanguage, hfamily.alone c.id (List.mem_map_of_mem (by simp))⟩
  | new _ _ => exact ⟨rfl, rfl⟩

/-- The chosen child after it was given a text, and its parent before it takes the child back. -/
theorem Steady.grown {editor : String} {below : Nat}
    (hgive : ∀ origin shift text next d, d.Steady context next →
      (appendText context editor below origin shift text next d).document.Steady context
        (appendText context editor below origin shift text next d).next)
    {kind : Kind} {d d₁ child grown : Document} {n₁ n₂ : Nat}
    (hkind : context.Finds d.language kind) {origin : Pos .editor} {shift : Option (Pos .source)}
    {text : Text} {result : Except DocumentError Unit} (h : d.Steady context next)
    (hc : Document.chooseChild kind next d = ⟨d₁, n₁, .ok child⟩)
    (hg : appendText context editor below origin shift text n₁ child = ⟨grown, n₂, result⟩) :
    d₁.Steady context n₂ ∧ grown.Steady context n₂ ∧ child ∈ d₁.children ∧
      grown.nature = child.nature := by
  obtain ⟨hd₁, hchild, hchildren, _⟩ := h.chooseChild hapart hkind hc
  have hgrown := hgive origin shift text n₁ child hchild
  have hle := le_next_appendText context editor below origin shift text n₁ child
  have hnature := (appendText_frame context editor below origin shift text n₁ child).1
  rw [hg] at hgrown hle hnature
  refine ⟨hd₁.mono hle, hgrown, ?_, hnature⟩
  rw [hchildren]
  exact mem_insertByKey_self child d.children

omit hapart in
theorem nature_modify (d : Document) {f : Info → Info} (hid : (f d.info).id = d.info.id)
    (hconfig : (f d.info).config = d.info.config)
    (hdisposed : (f d.info).disposed = d.info.disposed) :
    (d.modify f).nature = d.nature := by
  cases d
  exact nature_eq_iff.mpr ⟨hid, hconfig, hdisposed⟩

omit hapart in
theorem nature_drained (d : Document) : d.drained.nature = d.nature := nature_modify d rfl rfl rfl

theorem Steady.giveFragment (editor : String) (below : Nat)
    (hgive : ∀ origin shift text next d, d.Steady context next →
      (appendText context editor below origin shift text next d).document.Steady context
        (appendText context editor below origin shift text next d).next)
    {f : Fragment} (origin : Pos .editor) {d : Document} (hkind : context.Finds d.language f.kind)
    (h : d.Steady context next) :
    (giveFragment (appendText context editor below) editor origin f next d).document.Steady context
      (Document.giveFragment (appendText context editor below) editor origin f next d).next := by
  rcases giveFragment_cases (appendText context editor below) editor origin f next d with
    ⟨d₁, n₁, e, hc, heq⟩ | ⟨d₁, n₁, child, grown, n₂, e, hc, hg, heq⟩ |
    ⟨d₁, n₁, child, grown, n₂, hc, hg, heq⟩
  · obtain ⟨rfl, rfl⟩ := chooseChild_error hc
    rw [heq]
    exact h.mono (Nat.le_succ next)
  · obtain ⟨hd₁, hgrown, hmem, hnature⟩ := h.grown hapart hgive hkind hc hg
    rw [heq]
    exact hd₁.putChild hmem hnature hgrown
  · obtain ⟨hd₁, hgrown, hmem, hnature⟩ := h.grown hapart hgive hkind hc hg
    have hdrained := nature_drained grown
    rw [heq]
    exact (hd₁.putChild hmem (hdrained.trans hnature) (hgrown.modify hdrained)).modify
      (nature_modify _ rfl rfl rfl)

theorem Steady.appendText (editor : String) (levels : Nat) (origin : Pos .editor)
    (shift : Option (Pos .source)) (text : Text) {d : Document} (h : d.Steady context next) :
    (appendText context editor levels origin shift text next d).document.Steady context
      (Document.appendText context editor levels origin shift text next d).next := by
  refine appendText_keeps (I := fun n e => e.Steady context n) ?_ ?_ levels origin shift text next h
  · intro below hbelow n e he text f hf origin
    exact he.giveFragment hapart editor below hbelow origin (Fragment.finds_of_mem_peel hf)
  · intro n e text kept he _ origin shift foreign
    exact he.modify (nature_modify e rfl rfl rfl)

/-- What is kept beside the invariant: by giving code to a child, as long as the child keeps it, and
by adding a block. -/
theorem Steady.keeps_appendText {Q : Document → Prop} (editor : String)
    (hgive : ∀ below, (∀ origin shift text next d, d.Steady context next ∧ Q d →
        Q (Document.appendText context editor below origin shift text next d).document) →
      ∀ next d f origin, context.Finds d.language f.kind → d.Steady context next → Q d →
        Q (Document.giveFragment (Document.appendText context editor below) editor origin f next
          d).document)
    (hpush : ∀ d b, Q d → Q (d.push b)) (levels : Nat) (origin : Pos .editor)
    (shift : Option (Pos .source)) (text : Text) {d : Document} (h : d.Steady context next)
    (hQ : Q d) :
    Q (Document.appendText context editor levels origin shift text next d).document := by
  refine (appendText_keeps (I := fun n e => e.Steady context n ∧ Q e) ?_ ?_ levels origin shift text
    next ⟨h, hQ⟩).2
  · rintro below hbelow n e ⟨he, hQe⟩ text f hf origin
    have hkind := Fragment.finds_of_mem_peel hf
    exact ⟨he.giveFragment hapart editor below
        (fun o s t n c hc => hc.appendText hapart editor below o s t) origin hkind,
      hgive below (fun o s t n c hc => (hbelow o s t n c hc).2) n e f origin hkind he hQe⟩
  · rintro n e text kept ⟨he, hQe⟩ _ origin shift foreign
    exact ⟨he.modify (nature_modify e rfl rfl rfl), hpush e _ hQe⟩

/-- The same of the chosen child that was given a text. -/
theorem Steady.keeps_grown {Q : Document → Prop} {editor : String} {below : Nat}
    (hgive : ∀ origin shift text next d, d.Steady context next ∧ Q d →
      Q (Document.appendText context editor below origin shift text next d).document)
    {kind : Kind} {d d₁ child grown : Document} {n₁ n₂ : Nat}
    (hkind : context.Finds d.language kind) {origin : Pos .editor} {shift : Option (Pos .source)}
    {text : Text} {result : Except DocumentError Unit} (h : d.Steady context next)
    (hc : Document.chooseChild kind next d = ⟨d₁, n₁, .ok child⟩)
    (hg : Document.appendText context editor below origin shift text n₁ child = ⟨grown, n₂, result⟩)
    (hQ : Q child) :
    d₁.Steady context n₂ ∧ child ∈ d₁.children ∧ grown.nature = child.nature ∧ Q grown := by
  obtain ⟨hd₁, _, hmem, hnature⟩ := h.grown hapart
    (fun o s t n c hc => hc.appendText hapart editor below o s t) hkind hc hg
  have hgrown := hgive origin shift text n₁ child ⟨(h.chooseChild hapart hkind hc).2.1, hQ⟩
  rw [hg] at hgrown
  exact ⟨hd₁, hmem, hnature, hgrown⟩

/-! The other operations. -/

omit hapart

theorem id_eq_of_core_eq {d e : Document} (h : d.core = e.core) : d.id = e.id :=
  id_eq_of_nature_eq (congrArg Prod.fst h)

theorem map_id_eq_map_core (ds : List Document) :
    ds.map Document.id = (ds.map core).map (·.1.1) := by
  rw [List.map_map]
  rfl

theorem lasting_sound : Lasting (Sound context next) := by
  intro d e h hcore hchildren hparked
  obtain ⟨hid, hconfig, _⟩ := nature_eq_iff.mp (congrArg Prod.fst hcore)
  have hids : (e.children.map Document.id).Sublist (d.children.map Document.id) := by
    rw [map_id_eq_map_core, map_id_eq_map_core]
    exact hchildren.map _
  have haged : (d.parked.map aged).map core = d.parked.map core := by
    rw [List.map_map]
    exact List.map_congr_left fun c _ => core_withLifetime c _
  have hcores : (e.parked.map core).Sublist (d.parked.map core) := by
    rcases hparked with hsub | hsub
    · exact hsub.map _
    · exact haged ▸ hsub.map core
  refine ⟨?_, ?_, hconfig.trans h.config, ?_⟩
  · rw [hid]
    refine h.family.sublist hids ?_
    rw [map_id_eq_map_core, map_id_eq_map_core]
    exact hcores.map _
  · intro c hc
    exact lasting_emptied h.blank hcore hchildren hparked c hc
  · intro c hc
    have hmem : c.core ∈ (d.children ++ d.parked).map core := by
      rw [List.map_append]
      refine (hchildren.append hcores).subset ?_
      rw [← List.map_append]
      exact List.mem_map_of_mem hc
    obtain ⟨x, hx, hsame⟩ := List.mem_map.mp hmem
    exact (nature_eq_iff.mp (congrArg Prod.fst hsame)).2.2.symm.trans (h.live x hx)

theorem nature_clear (d : Document) : d.clear.nature = d.nature := by
  cases d
  rfl

theorem nature_closeExpired (d : Document) : d.closeExpired.nature = d.nature :=
  congrArg Prod.fst (core_closeExpired d)

theorem nature_emitChanged (d : Document) : d.emitChanged.nature = d.nature :=
  congrArg Prod.fst (core_emitChanged d)

theorem Steady.blank_clear {d : Document} (h : d.Steady context next) : d.clear.Blank :=
  Document.blank_clear (h.imp fun _ he => he.blank)

theorem map_nature_clearAll (ds : List Document) :
    ((clearAll ds).map Document.drained).map nature = ds.map nature := by
  rw [clearAll_eq, List.map_map, List.map_map]
  refine List.map_congr_left ?_
  intro d _
  exact (nature_drained d.clear).trans (nature_clear d)

/-- The standalone documents only change from one list to the other. -/
theorem perm_parted (cleared parked : List Document) :
    (cleared.filter (!·.id.kind.standalone) ++
      sortParked (parked ++ cleared.filter (·.id.kind.standalone))).Perm (cleared ++ parked) := by
  have hparts : (cleared.filter (!·.id.kind.standalone) ++
      cleared.filter (·.id.kind.standalone)).Perm cleared :=
    List.perm_append_comm.trans (List.filter_append_perm _ cleared)
  have hsort : (sortParked (parked ++ cleared.filter (·.id.kind.standalone))).Perm
      (cleared.filter (·.id.kind.standalone) ++ parked) :=
    (List.mergeSort_perm _ _).trans List.perm_append_comm
  have hall := hsort.append_left (cleared.filter (!·.id.kind.standalone))
  rw [← List.append_assoc] at hall
  exact hall.trans (hparts.append_right parked)

theorem Steady.clear {d : Document} (h : d.Steady context next) : d.clear.Steady context next := by
  induction d using tree_induction with
  | step info children parked ihc _ =>
    have hblank := h.blank_clear
    have hfull := h
    rw [steady_node] at h
    obtain ⟨hsound, hchildren, hparked⟩ := h
    have hcleared : ∀ c ∈ (clearAll children).map Document.drained, c.Steady context next := by
      intro c hc
      rw [clearAll_eq, List.map_map] at hc
      obtain ⟨x, hx, rfl⟩ := List.mem_map.mp hc
      exact (ihc x hx (hchildren x hx)).modify (nature_drained _)
    have hnatures := map_nature_clearAll children
    rw [Document.clear] at hblank ⊢
    simp only [List.partition_eq_filter_filter] at hblank ⊢
    have howned := ((everywhere_node (Q := fun _ blocks => blocks = []) _ _ _).mp hblank).2.2
    revert hcleared hnatures howned
    generalize (clearAll children).map Document.drained = cleared
    intro hcleared hnatures howned
    have hsorted : Sorted cleared := by
      have hids := congrArg (List.map Prod.fst) hnatures
      rw [List.map_map, List.map_map] at hids
      have := hsound.family.sorted
      rw [children_node, show children.map Document.id = cleared.map Document.id from hids.symm,
        List.pairwise_map] at this
      exact this
    refine hfull.rearrange rfl rfl (hsorted.sublist List.filter_sublist) ?_ ?_ howned ?_
    · have hmapped := (perm_parted cleared parked).map nature
      have hsame : (cleared ++ parked).map nature = (children ++ parked).map nature := by
        rw [List.map_append, List.map_append, hnatures]
      exact (hsame ▸ hmapped).subperm
    · intro c hc
      rw [sortParked, List.mem_mergeSort, List.mem_append] at hc
      rcases hc with hc | hc
      · exact hsound.family.alone c.id (List.mem_map_of_mem hc)
      · exact (List.mem_filter.mp hc).2
    · intro c hc
      rw [sortParked, List.mem_append, List.mem_mergeSort, List.mem_append] at hc
      rcases hc with hc | hc | hc
      · exact hcleared c (List.mem_filter.mp hc).1
      · exact hparked c hc
      · exact hcleared c (List.mem_filter.mp hc).1

theorem Steady.closeExpired {d : Document} (h : d.Steady context next) :
    d.closeExpired.Steady context next := lasting_sound.closeExpired h

theorem Steady.emitChanged {d : Document} (h : d.Steady context next) :
    d.emitChanged.Steady context next := lasting_sound.emitChanged h

theorem Steady.dispose {d : Document} (h : d.Steady context next) :
    d.dispose.Steady context next := by
  obtain ⟨info, children, parked⟩ := d
  rw [Document.dispose]
  split
  · exact h
  · exact steady_leaf h.self.config

/-- All families of every tree that can arise are sound. -/
theorem steady_of_reachable (hapart : context.SiblingsApart) {d : Document}
    (h : Reachable context next d) : d.Steady context next := by
  induction h with
  | root language path extension number => exact steady_leaf rfl
  | wait _ hle ih => exact ih.mono hle
  | append levels text editor origin shift _ ih =>
    exact ih.appendText hapart editor levels origin shift text
  | clear _ ih => exact ih.clear
  | closeExpired _ ih => exact ih.closeExpired
  | emitChanged _ ih => exact ih.emitChanged
  | dispose _ ih => exact ih.dispose
  | drained _ ih => exact ih.modify (nature_drained _)

end

end Document

end Polyglot
