import Polyglot.Proofs.Readers
import Polyglot.Proofs.Takers

/-!
The roster of a rebuild. Whoever of the children was chosen for some code since the tree was emptied
is in use, with a full lifetime; all others are as they were left, parked or idle. Among standalone
children of one language those with lower numbers are chosen first.
-/
namespace Polyglot

open Document

namespace Document

/-- What all trees that can arise have in common, as far as choosing children goes. -/
structure Tended (context : Context) (next : Nat) (d : Document) : Prop where
  steady : d.Steady context next
  pool : d.Throughout Pool
  idles : d.Throughout Idles

section

variable {context : Context} {next n₁ : Nat} {d d₁ child : Document} {kind : Kind}

theorem tended_of_reachable (hapart : context.SiblingsApart) (h : Reachable context next d) :
    d.Tended context next :=
  ⟨steady_of_reachable hapart h, pool_of_reachable hapart h, idles_of_reachable hapart h⟩

theorem Tended.mono (h : d.Tended context next) {later : Nat} (hle : next ≤ later) :
    d.Tended context later :=
  ⟨h.steady.mono hle, h.pool, h.idles⟩

theorem Tended.giveFragment (hapart : context.SiblingsApart) (h : d.Tended context next)
    (editor : String) (below : Nat) (origin : Pos .editor) {f : Fragment}
    (hkind : context.Finds d.language f.kind) :
    (giveFragment (appendText context editor below) editor origin f next d).document.Tended context
      (Document.giveFragment (appendText context editor below) editor origin f next d).next where
  steady := h.steady.giveFragment hapart editor below
    (fun o s t _ _ hc => hc.appendText hapart editor below o s t) origin hkind
  pool := pool_giveFragment hapart
    (fun o s t _ _ hc => pool_appendText hapart editor below o s t hc.1 hc.2) origin hkind h.steady
    h.pool
  idles := idles_giveFragment hapart
    (fun o s t _ _ hc => idles_appendText hapart editor below o s t hc.1 hc.2) origin hkind h.steady
    h.idles

theorem Tended.push (h : d.Tended context next) (block : Block) :
    (d.push block).Tended context next where
  steady := h.steady.modify (nature_modify d rfl rfl rfl)
  pool := by
    refine throughout_modify h.pool ?_
    obtain ⟨info, children, parked⟩ := d
    exact h.pool.self.follow rfl fun c hc => ⟨c, hc, rfl⟩
  idles := idles_modify h.idles rfl

/-! Choosing a child. -/

section

variable (hapart : context.SiblingsApart) (hkind : context.Finds d.language kind)
  (hc : Document.chooseChild kind next d = ⟨d₁, n₁, .ok child⟩)

include hapart hkind hc

/-- Who has the key of the chosen child is the chosen child. -/
theorem Steady.id_eq_of_key_eq (h : d.Steady context next) {c : Document} (hmem : c ∈ d.offspring)
    (hkey : c.key = child.key) : c.id = child.id := by
  rcases h.chooseChild_cases hapart hkind hc with ⟨x, hx, lifetime, rfl, _⟩ | ⟨_, hfresh, _⟩
  · rw [key_withLifetime] at hkey
    rw [h.self.key_injective hapart hmem hx hkey]
    exact (id_eq_of_nature_eq (nature_withLifetime x lifetime)).symm
  · exact absurd hkey (hfresh c hmem)

theorem Steady.mem_parked_chooseChild (h : d.Steady context next) {x : Document} :
    x ∈ d₁.parked ↔ x ∈ d.parked ∧ x.key ≠ child.key := by
  obtain ⟨hd₁, _, hchildren, _⟩ := h.chooseChild hapart hkind hc
  have hown := h.mem_offspring_chooseChild hapart hkind hc (x := x)
  constructor
  · intro hx
    refine ⟨(chooseChild_ok hc).2.1 hx, ?_⟩
    rcases hown.mp (List.mem_append_right _ hx) with rfl | ⟨_, hne⟩
    · have hback : x ∈ d₁.children := hchildren ▸ mem_insertByKey_self x d.children
      exact absurd hx (hd₁.self.not_mem_parked hback)
    · exact hne
  · rintro ⟨hx, hne⟩
    have hstays := hown.mpr (Or.inr ⟨List.mem_append_right _ hx, hne⟩)
    refine (List.mem_append.mp hstays).resolve_left fun hchild => ?_
    rw [hchildren] at hchild
    rcases mem_insertByKey hchild with rfl | hold
    · exact hne rfl
    · exact h.self.not_mem_parked hold hx

theorem Tended.mem_idle_chooseChild (h : d.Tended context next) {key : String} :
    key ∈ d₁.info.idle ↔ key ∈ d.info.idle ∧ key ≠ child.key := by
  refine ⟨(idles_chooseChild hapart hkind h.steady h.idles hc).2.2 key, ?_⟩
  rintro ⟨hidle, hne⟩
  obtain ⟨info, children, parked⟩ := d
  cases h.steady.chosen hapart hkind hc with
  | @shared c _ _ hkey =>
    rw [key_withLifetime, hkey] at hne
    exact (List.mem_erase_of_ne hne).mpr hidle
  | parked _ _ _ _ => exact hidle
  | new _ _ => exact hidle

theorem Steady.lifetime_chooseChild (h : d.Steady context next) :
    child.info.lifetime = context.config.lifetime := by
  have hconfig := h.self.config
  obtain ⟨info, children, parked⟩ := d
  rw [info_node] at hconfig
  rw [← hconfig]
  cases h.chosen hapart hkind hc with
  | @shared c _ _ _ =>
    cases c
    rfl
  | @parked c _ _ _ _ _ _ =>
    cases c
    rfl
  | new _ _ => rfl

/-- The next standalone child of a language has a higher number than those in use. -/
theorem Tended.number_lt_chosen (h : d.Tended context next) (halone : kind.standalone = true)
    {c : Document} (hmem : c ∈ d.children) (hstands : c.id.kind.standalone = true)
    (hlanguage : c.language = kind.language) : c.id.number < child.id.number := by
  have hfamily := h.steady.self.family
  have hpool := h.pool.self
  obtain ⟨info, children, parked⟩ := d
  cases h.steady.chosen hapart hkind hc with
  | shared hshared _ _ =>
    rw [halone] at hshared
    cases hshared
  | @parked p earlier later _ hsplit hsame _ =>
    subst hsplit
    rw [id_eq_of_nature_eq (nature_withLifetime p _)]
    have hp : p ∈ earlier ++ p :: later := by simp
    exact hpool.beyond p hp c hmem
      ⟨hstands, hfamily.alone p.id (List.mem_map_of_mem hp), hlanguage.trans hsame.symm⟩
  | new _ _ => exact hfamily.numbered c.id (List.mem_append_left _ (List.mem_map_of_mem hmem))

end

end

/-! All children. -/

/-- The identities of all children of a document, in the tree or parked. -/
def brood (d : Document) : List Identity := d.offspring.map Document.id

theorem mem_brood {d : Document} {id : Identity} : id ∈ d.brood ↔ ∃ c ∈ d.offspring, c.id = id :=
  List.mem_map

theorem mem_brood_of_mem {d c : Document} (h : c ∈ d.offspring) : c.id ∈ d.brood :=
  List.mem_map_of_mem h

theorem brood_drained (d : Document) : d.drained.brood = d.brood := by
  rw [brood, drained, offspring_modify, brood]

/-- A document owns a child, in the tree or parked, that has so much lifetime left. -/
def Allots (d : Document) (id : Identity) (lifetime : Nat) : Prop :=
  ∃ c ∈ d.offspring, c.id = id ∧ c.info.lifetime = lifetime

section

variable {d : Document} {id : Identity} {m : Nat}

theorem mem_brood_iff_allots : id ∈ d.brood ↔ ∃ m, d.Allots id m := by
  rw [mem_brood]
  constructor
  · rintro ⟨c, hc, rfl⟩
    exact ⟨_, c, hc, rfl, rfl⟩
  · rintro ⟨_, c, hc, rfl, _⟩
    exact ⟨c, hc, rfl⟩

theorem allots_drained : d.drained.Allots id m ↔ d.Allots id m := by
  rw [Allots, drained, offspring_modify]
  rfl

theorem allots_clear : d.clear.Allots id m ↔ d.Allots id m := by
  have hid : ∀ x : Document, x.clear.drained.id = x.id := fun x =>
    id_eq_of_nature_eq ((nature_drained _).trans (nature_clear x))
  have hlifetime : ∀ x : Document, x.clear.drained.info.lifetime = x.info.lifetime := by
    rintro ⟨info, children, parked⟩
    rw [clear]
    rfl
  obtain ⟨info, children, parked⟩ := d
  constructor
  · rintro ⟨c, hc, rfl, rfl⟩
    rcases mem_offspring_clear.mp hc with ⟨x, hx, rfl⟩ | hc
    · exact ⟨x, List.mem_append_left _ hx, (hid x).symm, (hlifetime x).symm⟩
    · exact ⟨c, List.mem_append_right _ hc, rfl, rfl⟩
  · rintro ⟨c, hc, rfl, rfl⟩
    rcases List.mem_append.mp hc with hc | hc
    · exact ⟨c.clear.drained, mem_offspring_clear.mpr (Or.inl ⟨c, hc, rfl⟩), hid c, hlifetime c⟩
    · exact ⟨c, mem_offspring_clear.mpr (Or.inr hc), rfl, rfl⟩

theorem mem_brood_clear : id ∈ d.clear.brood ↔ id ∈ d.brood := by
  simp only [mem_brood_iff_allots, allots_clear]

end

/-! Giving code to the chosen child. -/

theorem lifetime_appendText (context : Context) (editor : String) (levels : Nat)
    (origin : Pos .editor) (shift : Option (Pos .source)) (text : Text) (next : Nat) {d : Document}
    (h : d.info.lifetime = d.info.config.lifetime) :
    (appendText context editor levels origin shift text next d).document.info.lifetime =
      d.info.config.lifetime := by
  rcases appendText_cases context editor levels origin shift text next d with
    ⟨e, heq⟩ | ⟨below, d₁, n₁, given, e, _, _, hforeign, heq⟩ |
    ⟨below, d₁, n₁, foreign, kept, _, _, hforeign, _, heq⟩
  · rw [heq]
    exact h
  · have hhost := sameHost_of_appendForeign hforeign
    obtain ⟨_, _, hinfo⟩ := hhost
    rw [heq]
    exact (congrArg Info.lifetime hinfo).trans h
  · have hhost := sameHost_of_appendForeign hforeign
    obtain ⟨_, _, hinfo⟩ := hhost
    rw [heq]
    cases d₁
    exact congrArg (fun info => info.config.lifetime) hinfo

/-- What becomes of a document that gives code to a child, whether the child can take all of it or
not: the child comes back to its place with a full lifetime, and is not idle. -/
structure TakesBack (context : Context) (d child e grown : Document) : Prop where
  id_eq : grown.id = child.id
  lifetime_eq : grown.info.lifetime = context.config.lifetime
  mem_children : ∀ {x}, x ∈ e.children ↔ x = grown ∨ x ∈ d.children ∧ x.key ≠ child.key
  mem_parked : ∀ {x}, x ∈ e.parked ↔ x ∈ d.parked ∧ x.key ≠ child.key
  mem_idle : ∀ {key}, key ∈ e.info.idle ↔ key ∈ d.info.idle ∧ key ≠ child.key

/-- A child is in the tree for some code, not idle and with a full lifetime. -/
def Uses (context : Context) (d : Document) (id : Identity) : Prop :=
  ∃ c ∈ d.children, c.id = id ∧ c.key ∉ d.info.idle ∧ c.info.lifetime = context.config.lifetime

theorem Uses.mem_brood {context : Context} {d : Document} {id : Identity} (h : d.Uses context id) :
    id ∈ d.brood := by
  obtain ⟨c, hc, rfl, _⟩ := h
  exact mem_brood_of_mem (List.mem_append_left _ hc)

namespace TakesBack

variable {context : Context} {d child e grown : Document} (h : TakesBack context d child e grown)

include h

theorem mem_offspring {x : Document} :
    x ∈ e.offspring ↔ x = grown ∨ x ∈ d.offspring ∧ x.key ≠ child.key := by
  rw [offspring, offspring, List.mem_append, List.mem_append, h.mem_children, h.mem_parked,
    or_assoc, ← or_and_right]

theorem uses : e.Uses context child.id := by
  refine ⟨grown, h.mem_children.mpr (Or.inl rfl), h.id_eq, ?_, h.lifetime_eq⟩
  intro hidle
  exact (h.mem_idle.mp hidle).2 (congrArg Identity.key h.id_eq)

theorem uses_of_uses {id : Identity} (hown : ∀ c ∈ d.children, c.key = child.key → c.id = child.id)
    (huses : d.Uses context id) : e.Uses context id := by
  obtain ⟨c, hc, rfl, hidle, hlifetime⟩ := huses
  by_cases hkey : c.key = child.key
  · -- the same child once more
    rw [hown c hc hkey]
    exact h.uses
  · exact ⟨c, h.mem_children.mpr (Or.inr ⟨hc, hkey⟩), rfl,
      fun hback => hidle (h.mem_idle.mp hback).1, hlifetime⟩

end TakesBack

theorem le_next_giveFragment (context : Context) (editor : String) (below : Nat)
    (origin : Pos .editor) (f : Fragment) (next : Nat) (d : Document) :
    next ≤ (giveFragment (appendText context editor below) editor origin f next d).next := by
  have hchoose := le_next_chooseChild f.kind next d
  rcases giveFragment_cases (appendText context editor below) editor origin f next d with
    ⟨d₁, n₁, _, hc, heq⟩ | ⟨d₁, n₁, child, grown, n₂, _, hc, hg, heq⟩ |
    ⟨d₁, n₁, child, grown, n₂, hc, hg, heq⟩
  · rw [hc] at hchoose
    rw [heq]
    exact hchoose
  all_goals
    have hgrown := le_next_appendText context editor below (foreignOrigin origin f.range) f.shift
      f.text n₁ child
    rw [hc] at hchoose
    rw [hg] at hgrown
    rw [heq]
    exact hchoose.trans hgrown

section

variable {context : Context} {next n₁ : Nat} {d d₁ child : Document}

theorem Tended.takesBack (hapart : context.SiblingsApart) (h : d.Tended context next)
    (editor : String) (below : Nat) (origin : Pos .editor) {f : Fragment}
    (hkind : context.Finds d.language f.kind)
    (hc : chooseChild f.kind next d = ⟨d₁, n₁, .ok child⟩) :
    ∃ grown, TakesBack context d child
      (Document.giveFragment (appendText context editor below) editor origin f next d).document
      grown := by
  obtain ⟨_, hchild, hchildren, _⟩ := h.steady.chooseChild hapart hkind hc
  have hlifetime := h.steady.lifetime_chooseChild hapart hkind hc
  -- the parent takes the child back, whatever else it notes
  have hback : ∀ {e g : Document}, g.id = child.id → g.info.lifetime = context.config.lifetime →
      e.children = insertByKey g d₁.children → e.parked = d₁.parked →
      e.info.idle = d₁.info.idle → TakesBack context d child e g := by
    intro e g hid hlife hput hparked hidle
    have hkey : g.key = child.key := congrArg Identity.key hid
    refine ⟨hid, hlife, ?_, ?_, ?_⟩
    · intro x
      rw [hput, hchildren, insertByKey_insertByKey hkey, h.steady.self.sorted.mem_insertByKey_iff,
        hkey]
    · intro x
      rw [hparked]
      exact h.steady.mem_parked_chooseChild hapart hkind hc
    · intro key
      rw [hidle]
      exact h.mem_idle_chooseChild hapart hkind hc
  have hgrown : ∀ {grown : Document} {n₂ : Nat} {result : Except DocumentError Unit},
      appendText context editor below (foreignOrigin origin f.range) f.shift f.text n₁ child =
        ⟨grown, n₂, result⟩ →
      grown.id = child.id ∧ grown.info.lifetime = context.config.lifetime := by
    intro grown n₂ result hg
    have hnature := (appendText_frame context editor below (foreignOrigin origin f.range) f.shift
      f.text n₁ child).1
    have hlife := lifetime_appendText context editor below (foreignOrigin origin f.range) f.shift
      f.text n₁ (hlifetime.trans (congrArg Config.lifetime hchild.self.config).symm)
    rw [hg] at hnature hlife
    exact ⟨id_eq_of_nature_eq hnature, hlife.trans (congrArg Config.lifetime hchild.self.config)⟩
  rcases giveFragment_cases (appendText context editor below) editor origin f next d with
    ⟨_, _, e, hc', heq⟩ | ⟨d₁', _, child', grown, n₂, e, hc', hg, heq⟩ |
    ⟨d₁', _, child', grown, n₂, hc', hg, heq⟩
  · rw [hc] at hc'
    cases hc'
  · rw [hc] at hc'
    cases hc'
    obtain ⟨hid, hlife⟩ := hgrown hg
    refine ⟨grown, hback hid hlife ?_ ?_ ?_⟩ <;> rw [heq] <;> cases d₁ <;> rfl
  · rw [hc] at hc'
    cases hc'
    obtain ⟨hid, hlife⟩ := hgrown hg
    refine ⟨grown.drained, hback ?_ ?_ ?_ ?_ ?_⟩
    · exact (id_eq_of_nature_eq (nature_drained grown)).trans hid
    · cases grown
      exact hlife
    all_goals
      rw [heq]
      cases d₁
      rfl

end

/-! The roster. -/

/-- Where all code that was given away since a tree was emptied has left its children. `empty` is
the emptied tree, and `first` the number that was free then. -/
structure Roster (context : Context) (first : Nat) (empty : Document) (t : List (Kind × Identity))
    (next : Nat) (d : Document) : Prop where
  tended : d.Tended context next
  le : first ≤ next
  kinds : ∀ p ∈ t, p.2.kind.language = p.1.language ∧ p.2.kind.standalone = p.1.standalone
  taken : ∀ id ∈ t.map (·.2), d.Uses context id
  fresh : ∀ id ∈ d.brood, id ∈ empty.brood ∨ first ≤ id.number
  left : ∀ c ∈ d.offspring, c.id ∉ t.map (·.2) →
    c ∈ d.parked ∧ c ∈ empty.parked ∨ c ∈ d.children ∧ c.key ∈ d.info.idle ∧ c ∈ empty.children
  stays : ∀ c ∈ empty.offspring, c.id ∉ t.map (·.2) → c ∈ d.offspring
  rising : t.Pairwise fun p q => p.1.standalone = true → q.1.standalone = true →
    p.1.language = q.1.language → p.2.number < q.2.number

section

variable {context : Context} {first next n₁ : Nat} {empty d d₁ child : Document}
  {t : List (Kind × Identity)}

theorem Roster.lose (h : Roster context first empty t next d) :
    Roster context first empty t (next + 1) d :=
  { h with
    tended := h.tended.mono (Nat.le_succ next)
    le := h.le.trans (Nat.le_succ next) }

theorem Roster.push (h : Roster context first empty t next d) (block : Block) :
    Roster context first empty t next (d.push block) := by
  have htended := h.tended.push block
  cases d
  exact { h with tended := htended }

/-- Code is given to one more child, which may have been chosen before. -/
theorem Roster.give (hapart : context.SiblingsApart) (h : Roster context first empty t next d)
    (editor : String) (below : Nat) (origin : Pos .editor) {f : Fragment}
    (hkind : context.Finds d.language f.kind)
    (hc : chooseChild f.kind next d = ⟨d₁, n₁, .ok child⟩) :
    Roster context first empty (t ++ [(f.kind, child.id)])
      (giveFragment (appendText context editor below) editor origin f next d).next
      (giveFragment (appendText context editor below) editor origin f next d).document := by
  have htended := h.tended.giveFragment hapart editor below origin hkind
  have hle := le_next_giveFragment context editor below origin f next d
  obtain ⟨grown, htakes⟩ := h.tended.takesBack hapart editor below origin hkind hc
  have hsteady := h.tended.steady
  have hown : ∀ c ∈ d.offspring, c.key = child.key → c.id = child.id :=
    fun c hmem hkey => hsteady.id_eq_of_key_eq hapart hkind hc hmem hkey
  have huntaken : ∀ {id}, id ∉ (t ++ [(f.kind, child.id)]).map (·.2) ↔
      id ∉ t.map (·.2) ∧ id ≠ child.id := by
    intro id
    rw [List.map_append, List.mem_append, not_or, List.map_singleton, List.mem_singleton]
  refine ⟨htended, h.le.trans hle, ?_, ?_, ?_, ?_, ?_, ?_⟩
  · rw [List.forall_mem_append, List.forall_mem_singleton]
    exact ⟨h.kinds, hsteady.kind_of_chooseChild hapart hkind hc⟩
  · rw [List.map_append, List.forall_mem_append, List.map_singleton, List.forall_mem_singleton]
    refine ⟨fun id hid => htakes.uses_of_uses ?_ (h.taken id hid), htakes.uses⟩
    exact fun c hmem => hown c (List.mem_append_left _ hmem)
  · intro id hid
    obtain ⟨x, hx, rfl⟩ := mem_brood.mp hid
    rcases htakes.mem_offspring.mp hx with rfl | ⟨hold, _⟩
    · rw [htakes.id_eq]
      rcases hsteady.chooseChild_cases hapart hkind hc with
        ⟨y, hy, lifetime, rfl, _⟩ | ⟨⟨uri, rfl⟩, _⟩
      · rw [id_eq_of_nature_eq (nature_withLifetime y lifetime)]
        exact h.fresh y.id (mem_brood_of_mem hy)
      · exact Or.inr h.le
    · exact h.fresh x.id (mem_brood_of_mem hold)
  · intro c hmem hfree
    rw [huntaken] at hfree
    rcases htakes.mem_offspring.mp hmem with rfl | ⟨hold, hkey⟩
    · exact absurd htakes.id_eq hfree.2
    · rcases h.left c hold hfree.1 with ⟨hparked, hbefore⟩ | ⟨hchild, hidle, hbefore⟩
      · exact Or.inl ⟨htakes.mem_parked.mpr ⟨hparked, hkey⟩, hbefore⟩
      · exact Or.inr ⟨htakes.mem_children.mpr (Or.inr ⟨hchild, hkey⟩),
          htakes.mem_idle.mpr ⟨hidle, hkey⟩, hbefore⟩
  · intro c hmem hfree
    rw [huntaken] at hfree
    have hold := h.stays c hmem hfree.1
    exact htakes.mem_offspring.mpr (Or.inr ⟨hold, fun hkey => hfree.2 (hown c hold hkey)⟩)
  · rw [List.pairwise_append]
    refine ⟨h.rising, List.pairwise_singleton _ _, ?_⟩
    intro p hp
    rw [List.forall_mem_singleton]
    intro hstands halone hlanguage
    obtain ⟨c, hmem, hid, _⟩ := h.taken p.2 (List.mem_map_of_mem hp)
    obtain ⟨hlang, hstand⟩ := h.kinds p hp
    rw [← hid] at hlang hstand ⊢
    exact h.tended.number_lt_chosen hapart hkind hc halone hmem (hstand.trans hstands)
      (hlang.trans hlanguage)

theorem takersLaw_roster (hapart : context.SiblingsApart) (first : Nat) (empty : Document) :
    TakersLaw context (Roster context first empty) where
  lose h := h.lose
  give editor below origin _ _ _ _ _ _ _ hkind hc h := h.give hapart editor below origin hkind hc
  push block h := h.push block

theorem idle_clear (d : Document) : d.clear.info.idle = d.clear.children.map key := by
  cases d
  rw [clear]
  rfl

/-- Nobody is chosen yet when a tree was just emptied. -/
theorem roster_clear (hapart : context.SiblingsApart) (h : Reachable context first d) :
    Roster context first d.clear [] first d.clear where
  tended := tended_of_reachable hapart h.clear
  le := Nat.le_refl first
  kinds _ hp := (List.not_mem_nil hp).elim
  taken _ hp := (List.not_mem_nil hp).elim
  fresh _ hid := Or.inl hid
  left c hc _ := by
    rcases List.mem_append.mp hc with hc | hc
    · refine Or.inr ⟨hc, ?_, hc⟩
      rw [idle_clear]
      exact List.mem_map_of_mem hc
    · exact Or.inl ⟨hc, hc⟩
  stays _ hc _ := hc
  rising := List.Pairwise.nil

/-- All cells that are appended to an emptied tree, up to one that fails. -/
theorem roster_appendCells (hapart : context.SiblingsApart) (h : Reachable context first d)
    (levels : Nat) (cells : List Cell) :
    Roster context first d.clear (cellTakers context levels cells first d.clear)
      (appendCells context levels 0 cells first d.clear).2.next
      (appendCells context levels 0 cells first d.clear).2.document :=
  (takersLaw_roster hapart first d.clear).appendCells levels 0 (roster_clear hapart h)

/-- The chosen children and no others are in use. -/
theorem Roster.uses_iff (h : Roster context first empty t next d) {c : Document}
    (hc : c ∈ d.offspring) :
    c ∈ d.children ∧ c.key ∉ d.info.idle ↔ c.id ∈ t.map (·.2) := by
  constructor
  · rintro ⟨hchild, hidle⟩
    by_contra huntaken
    rcases h.left c hc huntaken with ⟨hparked, _⟩ | ⟨_, hback, _⟩
    · exact h.tended.steady.self.not_mem_parked hchild hparked
    · exact hidle hback
  · intro htaken
    obtain ⟨x, hx, hid, hidle, _⟩ := h.taken c.id htaken
    rw [← h.tended.steady.self.number_injective (List.mem_append_left _ hx) hc
      (congrArg Identity.number hid)]
    exact ⟨hx, hidle⟩

end

/-! Sweeping. -/

theorem lifetime_emitChanged (d : Document) : d.emitChanged.info.lifetime = d.info.lifetime := by
  obtain ⟨info, children, parked⟩ := d
  obtain ⟨_, _, hnote⟩ := noteChange_eq info
  rw [emitChanged, hnote]
  rfl

theorem lifetime_closeExpired (d : Document) : d.closeExpired.info.lifetime = d.info.lifetime := by
  cases d
  rw [closeExpired]
  rfl

theorem lifetime_aged (d : Document) : d.aged.info.lifetime = d.info.lifetime - 1 := by
  cases d
  rfl

/-- What the end of a rebuild makes of a child that stays. -/
def stayed (idle : List String) (c : Document) : Document :=
  (swept idle c).drained.emitChanged.drained

theorem id_stayed (idle : List String) (c : Document) : (stayed idle c).id = c.id :=
  id_eq_of_core_eq ((core_drained _).trans ((core_emitChanged _).trans
    ((core_drained _).trans (core_swept idle c))))

theorem lifetime_stayed (idle : List String) (c : Document) :
    (stayed idle c).info.lifetime =
      if c.key ∈ idle then c.info.lifetime - 1 else c.info.lifetime := by
  have hdrained : ∀ x : Document, x.drained.info.lifetime = x.info.lifetime := by
    rintro ⟨info, children, parked⟩
    rfl
  rw [stayed, hdrained, lifetime_emitChanged, hdrained, swept]
  by_cases hidle : c.key ∈ idle
  · rw [if_pos hidle, if_pos (List.contains_iff_mem.mpr hidle), lifetime_aged,
      lifetime_closeExpired]
  · rw [if_neg hidle, if_neg fun hmem => hidle (List.contains_iff_mem.mp hmem),
      lifetime_closeExpired]

theorem isExpiring_eq_false {c : Document} : c.isExpiring = false ↔ 1 < c.info.lifetime := by
  rw [isExpiring, decide_eq_false_iff_not, Nat.not_le]

/-- Whoever is in use stays, and so does who is idle and has more than one left. -/
theorem isStaying_iff {idle : List String} {c : Document} :
    isStaying idle c = true ↔ (c.key ∈ idle → 1 < c.info.lifetime) := by
  rw [isStaying, Bool.not_eq_true', Bool.and_eq_false_iff, isExpiring_eq_false,
    ← Bool.not_eq_true, List.contains_iff_mem, imp_iff_not_or]

theorem mem_children_rebuilt {d x : Document} :
    x ∈ d.closeExpired.emitChanged.drained.children ↔
      ∃ c ∈ d.children, isStaying d.info.idle c = true ∧ stayed d.info.idle c = x := by
  obtain ⟨info, children, parked⟩ := d
  rw [children_drained, closeExpired, emitChanged, emitChangedAll_eq, closeStaying_eq]
  simp only [children_node, info_node, List.map_map, List.mem_map, List.mem_filter, and_assoc]
  rfl

theorem mem_parked_rebuilt {d x : Document} :
    x ∈ d.closeExpired.emitChanged.drained.parked ↔
      ∃ p ∈ d.parked, p.isExpiring = false ∧ p.aged = x := by
  obtain ⟨info, children, parked⟩ := d
  rw [parked_drained, closeExpired, emitChanged]
  simp only [parked_node, List.mem_map, List.mem_filter, and_assoc, Bool.not_eq_true']

theorem brood_closeExpired_subset (d : Document) : d.closeExpired.brood ⊆ d.brood := by
  intro id hid
  obtain ⟨c, hc, rfl⟩ := mem_brood.mp hid
  obtain ⟨info, children, parked⟩ := d
  rw [offspring_closeExpired, List.mem_append, List.mem_map, List.mem_map] at hc
  rcases hc with ⟨x, hx, rfl⟩ | ⟨x, hx, rfl⟩
  · rw [id_eq_of_core_eq ((core_drained _).trans (core_swept info.idle x))]
    exact mem_brood_of_mem (List.mem_append_left _ (List.mem_filter.mp hx).1)
  · rw [aged, id_eq_of_nature_eq (nature_withLifetime x _)]
    exact mem_brood_of_mem (List.mem_append_right _ (List.mem_filter.mp hx).1)

theorem brood_emitChanged (d : Document) : d.emitChanged.brood = d.brood := by
  obtain ⟨info, children, parked⟩ := d
  have hid : ∀ x : Document, x.emitChanged.drained.id = x.id := fun x =>
    id_eq_of_core_eq ((core_drained _).trans (core_emitChanged x))
  rw [brood, brood, offspring_emitChanged, offspring, List.map_append, List.map_append,
    List.map_map]
  congr 1
  exact List.map_congr_left fun c _ => hid c

end Document

/-! Calls. -/

/-- A rebuild that is asked for, possibly while somebody looks at the tree. -/
structure Call extends Turn where
  held : Bool := false

namespace Session

/-- The session that a call meets. -/
def met (call : Call) (s : Session) : Session := { s with locked := call.held }

def answer (call : Call) (next : Nat) (s : Session) : Session × Nat × Except UpdateError Unit :=
  (s.met call).update call.cells (next + call.pause)

/-- The children that a call claims for some code, in turn. -/
def claims (call : Call) (next : Nat) (s : Session) : List (Kind × Identity) :=
  (s.met call).takers call.cells (next + call.pause)

section

variable {s u : Session} {call : Call} {next n : Nat}

theorem context_answer (call : Call) (next : Nat) (s : Session) :
    (s.answer call next).1.context = s.context :=
  context_update call.cells (next + call.pause) (s.met call)

theorem reachable_answer (hreach : Reachable s.context next s.root) (call : Call) :
    Reachable s.context (s.answer call next).2.1 (s.answer call next).1.root :=
  reachable_update (s := s.met call) (hreach.wait (Nat.le_add_right next call.pause)) call.cells

theorem claims_eq (h : (s.met call).acquire = .ok ()) (next : Nat) :
    s.claims call next =
      cellTakers s.context s.levels call.cells (next + call.pause) s.root.clear := by
  rw [claims, takers, h]
  rfl

/-- A call that fails leaves what a roster says, or nothing happens at all. -/
theorem roster_of_answer_error (hapart : s.context.SiblingsApart)
    (hreach : Reachable s.context next s.root) {e : UpdateError}
    (h : s.answer call next = (u, n, .error e)) :
    u.root = s.root ∧ n = next + call.pause ∧ s.claims call next = [] ∨
    ∃ d, u.root = d.drained ∧
      Roster s.context (next + call.pause) s.root.clear (s.claims call next) n d := by
  rw [answer, update] at h
  cases hacquire : (s.met call).acquire with
  | error e =>
    rw [hacquire] at h
    cases h
    refine Or.inl ⟨rfl, rfl, ?_⟩
    rw [claims, takers, hacquire]
  | ok _ =>
    have hroster := roster_appendCells hapart (hreach.wait (Nat.le_add_right next call.pause))
      s.levels call.cells
    rw [← claims_eq hacquire] at hroster
    rw [hacquire] at h
    simp only [rebuild] at h
    cases happend : appendCells (s.met call).context (s.met call).levels 0 call.cells
        (next + call.pause) (s.met call).root.clear with
    | mk notices outcome =>
      obtain ⟨d, m, result⟩ := outcome
      rw [happend] at h
      rw [show appendCells s.context s.levels 0 call.cells (next + call.pause) s.root.clear = _ from
        happend] at hroster
      cases result with
      | error _ =>
        cases h
        exact Or.inr ⟨d, rfl, hroster⟩
      | ok _ => cases h

/-- After a call that succeeds, what a roster says is swept. -/
theorem roster_of_answer_ok (hapart : s.context.SiblingsApart)
    (hreach : Reachable s.context next s.root) (h : s.answer call next = (u, n, .ok ())) :
    ∃ notices d, u.root = d.closeExpired.emitChanged.drained ∧
      Roster s.context (next + call.pause) s.root.clear (s.claims call next) n d ∧
      appendCells s.context s.levels 0 call.cells (next + call.pause) s.root.clear =
        (notices, ⟨d, n, .ok ()⟩) ∧
      (s.met call).told call.cells (next + call.pause) = d.closeExpired.emitChanged.outbox := by
  have hacquire := acquire_of_update h
  obtain ⟨notices, d, happend, hroot⟩ := update_ok h
  obtain ⟨_, _, htold⟩ := update_of_appendCells hacquire happend
  have hroster := roster_appendCells hapart (hreach.wait (Nat.le_add_right next call.pause))
    s.levels call.cells
  rw [← claims_eq hacquire,
    show appendCells s.context s.levels 0 call.cells (next + call.pause) s.root.clear = _ from
      happend] at hroster
  exact ⟨notices, d, hroot, hroster, happend, htold⟩

end

end Session

end Polyglot
