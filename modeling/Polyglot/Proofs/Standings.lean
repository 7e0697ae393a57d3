import Polyglot.Proofs.Outboxes

/-!
What a reader of events knows of one path: nothing, or that a document is open there, and the buffer
that was copied when it last changed. A document is told of if whoever reads its outbox, and then
the outboxes on the way down to the path, comes to know what holds of the path. Whatever a tree
goes through, it stays told of: no event is lost, doubled or out of order.
-/
namespace Polyglot

/-- What is known of a path. -/
inductive Standing where
  | unknown
  | known (copy : Option Text)
deriving DecidableEq

namespace Standing

/-- What is known after an event, `value` being the buffer that is copied after a change. What opens
must not be open, what closes or changes must be, and a buffer that has changed must differ from
the copy. -/
def hear (value : Text) : Standing → EventKind → Option Standing
  | unknown, .opened => some (known none)
  | known _, .closed => some unknown
  | known copy, .changed => if copy = some value then none else some (known (some value))
  | _, _ => none

/-- What is known of the path `p` after events. -/
def hearAll (p : String) (value : Text) : Standing → List Event → Option Standing
  | s, [] => some s
  | s, e :: rest =>
    if e.idPath = p then (s.hear value e.kind).bind fun s' => hearAll p value s' rest
    else hearAll p value s rest

variable {p : String} {v : Text}

theorem hearAll_append (s : Standing) (es es' : List Event) :
    hearAll p v s (es ++ es') = (hearAll p v s es).bind fun s' => hearAll p v s' es' := by
  induction es generalizing s with
  | nil => rfl
  | cons e rest ih =>
    rw [List.cons_append, hearAll, hearAll]
    split
    · cases s.hear v e.kind with
      | none => rfl
      | some s' => exact ih s'
    · exact ih s

theorem hearAll_silent (s : Standing) {es : List Event} (h : ∀ e ∈ es, e.idPath ≠ p) :
    hearAll p v s es = some s := by
  induction es with
  | nil => rfl
  | cons e rest ih =>
    rw [hearAll, if_neg (h e List.mem_cons_self)]
    exact ih fun e he => h e (List.mem_cons_of_mem _ he)

/-- The copy does not matter as long as nothing changes. -/
theorem hearAll_calm (v' : Text) (s : Standing) {es : List Event} (h : ∀ e ∈ es, e.kind ≠ .changed) :
    hearAll p v' s es = hearAll p v s es := by
  induction es generalizing s with
  | nil => rfl
  | cons e rest ih =>
    have hrest := fun s => ih s fun e he => h e (List.mem_cons_of_mem _ he)
    have hsame : s.hear v' e.kind = s.hear v e.kind := by
      have hkind := h e List.mem_cons_self
      cases s <;> cases hk : e.kind <;> first | rfl | exact absurd hk hkind
    rw [hearAll, hearAll, hsame]
    simp only [hrest]

end Standing

open Standing

namespace Document

/-! Several outboxes. -/

section

variable {p : String} {v : Text} {ds : List Document}

/-- No document tells of what lies outside its own path. -/
def Discreet (ds : List Document) : Prop := ∀ d ∈ ds, ∀ e ∈ d.outbox, Within d.idPath e.idPath

theorem hearAll_outboxes_silent (hdiscreet : Discreet ds) (hnone : ∀ d ∈ ds, ¬ Within d.idPath p)
    (s : Standing) : hearAll p v s (outboxes ds) = some s := by
  refine hearAll_silent s ?_
  intro e he heq
  obtain ⟨d, hd, he⟩ := mem_outboxes.mp he
  exact hnone d hd (heq ▸ hdiscreet d hd e he)

/-- Of documents with paths apart, only the one around a path tells of it. -/
theorem hearAll_outboxes (hapart : PathsApart (ds.map idPath)) (hdiscreet : Discreet ds)
    {d : Document} (hd : d ∈ ds) (hp : Within d.idPath p) (s : Standing) :
    hearAll p v s (outboxes ds) = hearAll p v s d.outbox := by
  obtain ⟨pre, post, rfl⟩ := List.append_of_mem hd
  rw [PathsApart, List.map_append, List.map_cons, List.pairwise_append, List.pairwise_cons] at hapart
  obtain ⟨_, ⟨hpost, _⟩, hpre⟩ := hapart
  have hbefore := hearAll_outboxes_silent (p := p) (v := v)
    (fun x (hx : x ∈ pre) => hdiscreet x (List.mem_append_left _ hx))
    (fun x hx hwithin => hpre _ (List.mem_map_of_mem hx) _ List.mem_cons_self p ⟨hwithin, hp⟩) s
  have hafter := hearAll_outboxes_silent (p := p) (v := v)
    (fun x (hx : x ∈ post) => hdiscreet x (List.mem_append_right _ (List.mem_cons_of_mem _ hx)))
    (fun x hx hwithin => hpost _ (List.mem_map_of_mem hx) p ⟨hp, hwithin⟩)
  have hsplit : outboxes (pre ++ d :: post) = outboxes pre ++ (d.outbox ++ outboxes post) := by
    simp only [outboxes, List.flatMap_append, List.flatMap_cons]
  rw [hsplit, hearAll_append, hbefore, Option.bind_some, hearAll_append]
  simp only [hafter]
  exact Option.bind_fun_some _

end

/-! Documents that are told of. -/

/-- Who hears the outbox, and the outboxes of the documents on the way down to the path `p`, comes to
know what holds of the path: a document there is known with its last value, and without one the
path is unknown. -/
inductive Told (p : String) (v : Text) : Standing → Document → Prop
  | intro {s s' : Standing} {d : Document} : hearAll p v s d.outbox = some s' →
      (d.idPath = p → s' = known d.info.lastValue) →
      (d.idPath ≠ p → (∀ c ∈ d.offspring, ¬ Within c.idPath p) → s' = unknown) →
      (∀ c ∈ d.offspring, Within c.idPath p → Told p v s' c) → Told p v s d

/-- The same once the outbox was heard. -/
structure Tells (p : String) (v : Text) (s : Standing) (d : Document) : Prop where
  self : d.idPath = p → s = known d.info.lastValue
  absent : d.idPath ≠ p → (∀ c ∈ d.offspring, ¬ Within c.idPath p) → s = unknown
  kin : ∀ c ∈ d.offspring, Within c.idPath p → Told p v s c

section

variable {p : String} {v : Text} {s : Standing} {d e : Document}

theorem told_iff : Told p v s d ↔ ∃ s', hearAll p v s d.outbox = some s' ∧ Tells p v s' d := by
  constructor
  · intro h
    cases h with
    | intro hout hself habsent hkin => exact ⟨_, hout, hself, habsent, hkin⟩
  · rintro ⟨s', hout, h⟩
    exact Told.intro hout h.self h.absent h.kin

theorem Told.change {news : List Event} (h : Told p v s d) (hout : e.outbox = d.outbox ++ news)
    (hstep : ∀ s, Tells p v s d → ∃ s', hearAll p v s news = some s' ∧ Tells p v s' e) :
    Told p v s e := by
  obtain ⟨t, hheard, htells⟩ := told_iff.mp h
  obtain ⟨t', hnews, htells'⟩ := hstep t htells
  refine told_iff.mpr ⟨t', ?_, htells'⟩
  rw [hout, hearAll_append, hheard]
  exact hnews

/-- A document stays told of if all that it owns does. -/
theorem Told.map (h : Told p v s d) (hid : e.idPath = d.idPath) (hout : e.outbox = d.outbox)
    (hlast : e.info.lastValue = d.info.lastValue)
    (hto : ∀ c' ∈ e.offspring, Within c'.idPath p →
      ∃ c ∈ d.offspring, c.idPath = c'.idPath ∧ ∀ t, Told p v t c → Told p v t c')
    (hfrom : ∀ c ∈ d.offspring, ∃ c' ∈ e.offspring, c'.idPath = c.idPath) : Told p v s e := by
  refine h.change (by rw [hout, List.append_nil]) ?_
  intro t htells
  refine ⟨t, rfl, ?_, ?_, ?_⟩
  · rw [hid, hlast]
    exact htells.self
  · intro hne hnone
    rw [hid] at hne
    refine htells.absent hne ?_
    intro c hc hwithin
    obtain ⟨c', hc', hpath⟩ := hfrom c hc
    exact hnone c' hc' (hpath ▸ hwithin)
  · intro c' hc' hwithin
    obtain ⟨c, hc, hpath, htold⟩ := hto c' hc' hwithin
    exact htold t (htells.kin c hc (hpath ▸ hwithin))

theorem Told.modify (h : Told p v s d) {f : Info → Info} (hid : (f d.info).id = d.info.id)
    (hout : (f d.info).outbox = d.info.outbox)
    (hlast : (f d.info).lastValue = d.info.lastValue) : Told p v s (d.modify f) := by
  obtain ⟨info, children, parked⟩ := d
  exact h.map (congrArg Identity.idPath hid) hout hlast
    (fun c hc _ => ⟨c, hc, rfl, fun _ ht => ht⟩) (fun c hc => ⟨c, hc, rfl⟩)

theorem Told.withLifetime (h : Told p v s d) (lifetime : Nat) :
    Told p v s (d.withLifetime lifetime) := h.modify rfl rfl rfl

theorem idPath_drained (d : Document) : d.drained.idPath = d.idPath :=
  congrArg Identity.idPath (id_eq_of_nature_eq (nature_drained d))

theorem told_drained_iff : Told p v s d.drained ↔ Tells p v s d := by
  have hsame : Tells p v s d.drained ↔ Tells p v s d := by
    cases d
    exact ⟨fun h => ⟨h.self, h.absent, h.kin⟩, fun h => ⟨h.self, h.absent, h.kin⟩⟩
  rw [told_iff, outbox_drained]
  constructor
  · rintro ⟨s', hheard, htells⟩
    cases hheard
    exact hsame.mp htells
  · exact fun h => ⟨s, rfl, hsame.mpr h⟩

theorem Told.drained (h : Told p v s d) :
    ∃ s', hearAll p v s d.outbox = some s' ∧ Told p v s' d.drained := by
  obtain ⟨s', hheard, htells⟩ := told_iff.mp h
  exact ⟨s', hheard, told_drained_iff.mpr htells⟩

/-- A document that was just opened, with nothing below it. -/
theorem told_leaf {info : Info} (hout : info.outbox = []) (hlast : info.lastValue = none) :
    Told p v (if info.id.idPath = p then known none else unknown) (node info [] []) := by
  have hheard : ∀ s, hearAll p v s (node info [] []).outbox = some s := by
    intro s
    rw [outbox, info_node, hout]
    rfl
  refine Told.intro (hheard _) ?_ ?_ ?_
  · intro hp
    rw [if_pos (show info.id.idPath = p from hp), info_node, hlast]
  · intro hp _
    rw [if_neg (show ¬ info.id.idPath = p from hp)]
  · intro c hc
    simp [offspring] at hc

/-- Nothing is said of the copy as long as no change waits. -/
theorem Told.recopy (h : Told p v s d) (horderly : d.Throughout Orderly) (v' : Text) :
    Told p v' s d := by
  induction h with
  | @intro s s' d hheard hself habsent _ ih =>
    obtain ⟨hown, hkin⟩ := throughout_iff.mp horderly
    refine Told.intro ?_ hself habsent (fun c hc hwithin => ih c hc hwithin (hkin c hc))
    rw [hearAll_calm v' s fun e he => (hown.below e he).2]
    exact hheard

end

/-! What the operations do. -/

section

variable {context : Context} {next : Nat} {p : String} {v : Text} {s : Standing} {d e : Document}

theorem Sound.not_within_both (hplain : context.PlainNames) (h : d.Sound context next)
    {c y : Document} (hc : c ∈ d.children) (hy : y ∈ d.parked) (hp : Within c.idPath p) :
    ¬ Within y.idPath p := by
  have hapart := h.apart hplain
  rw [PathsApart, offspring, List.map_append, List.pairwise_append] at hapart
  exact fun hp' => hapart.2.2 _ (List.mem_map_of_mem hc) _ (List.mem_map_of_mem hy) p ⟨hp, hp'⟩

/-- What becomes of the document at or around a path, when others tell the news: it stays, or it is
gone and nobody takes its path. -/
def Fate (p : String) (v : Text) (news : List Event) (e c : Document) : Prop :=
  ∀ t, Told p v t c → ∃ t', hearAll p v t news = some t' ∧
    ((∃ c' ∈ e.offspring, c'.idPath = c.idPath ∧ Told p v t' c') ∨
      t' = unknown ∧ ∀ c' ∈ e.offspring, c'.idPath ≠ c.idPath)

/-- A document that passes on what all that it owns tells stays told of, if each of these meets its
fate. -/
theorem Told.pass (hplain : context.PlainNames) (hd : d.Sound context next)
    (he : e.Sound context next) (h : Told p v s d) {ds : List Document} (hid : e.idPath = d.idPath)
    (hlast : e.info.lastValue = d.info.lastValue) (hout : e.outbox = d.outbox ++ outboxes ds)
    (hdiscreet : Discreet ds) (hspeakers : ∀ x ∈ ds, ∃ c ∈ d.offspring, c.idPath = x.idPath)
    (hfrom : ∀ c' ∈ e.offspring, ∃ c ∈ d.offspring, c.idPath = c'.idPath)
    (hfate : ∀ c ∈ d.offspring, Within c.idPath p → Fate p v (outboxes ds) e c) : Told p v s e := by
  refine h.change hout ?_
  intro t htells
  by_cases hkin : ∃ c ∈ d.offspring, Within c.idPath p
  · obtain ⟨c, hc, hwithin⟩ := hkin
    have hbelow := (hd.derives hc).below.within hwithin
    have hne : d.idPath ≠ p := fun heq => not_below_self p (heq ▸ hbelow)
    obtain ⟨t', hheard, hfate⟩ := hfate c hc hwithin t (htells.kin c hc hwithin)
    have hsame : ∀ c' ∈ e.offspring, Within c'.idPath p → c'.idPath = c.idPath := by
      intro c' hc' hwithin'
      obtain ⟨x, hx, hpath⟩ := hfrom c' hc'
      rw [← hd.eq_of_within hplain hx hc (hpath ▸ hwithin') hwithin]
      exact hpath.symm
    refine ⟨t', hheard, fun heq => absurd (hid ▸ heq) hne, fun _ hnone => ?_, ?_⟩
    · rcases hfate with ⟨c', hc', hpath, _⟩ | ⟨hunknown, _⟩
      · exact absurd (hpath ▸ hwithin) (hnone c' hc')
      · exact hunknown
    · intro c' hc' hwithin'
      have hpath := hsame c' hc' hwithin'
      rcases hfate with ⟨c'', hc'', hpath', htold⟩ | ⟨_, hgone⟩
      · rw [he.eq_of_within hplain hc' hc'' hwithin' (hpath' ▸ hwithin)]
        exact htold
      · exact absurd hpath (hgone c' hc')
  · have hnone : ∀ c' ∈ e.offspring, ¬ Within c'.idPath p := by
      intro c' hc' hwithin
      obtain ⟨c, hc, hpath⟩ := hfrom c' hc'
      exact hkin ⟨c, hc, hpath ▸ hwithin⟩
    have hsilent : hearAll p v t (outboxes ds) = some t := by
      refine hearAll_outboxes_silent hdiscreet ?_ t
      intro x hx hwithin
      obtain ⟨c, hc, hpath⟩ := hspeakers x hx
      exact hkin ⟨c, hc, hpath ▸ hwithin⟩
    refine ⟨t, hsilent, ?_, ?_, fun c' hc' hwithin => absurd hwithin (hnone c' hc')⟩
    · rw [hid, hlast]
      exact htells.self
    · intro hne _
      rw [hid] at hne
      exact htells.absent hne fun c hc hwithin => hkin ⟨c, hc, hwithin⟩

section

variable {ds : List Document} {c c' x : Document} (hdiscreet : Discreet ds)

include hdiscreet

/-- A document that tells of itself and stays. -/
theorem fate_of_speaker (hapart : PathsApart (ds.map idPath)) (hx : x ∈ ds)
    (hpath : x.idPath = c.idPath) (hp : Within c.idPath p)
    (htold : ∀ t, Told p v t c → Told p v t x) (hmem : x.drained ∈ e.offspring) :
    Fate p v (outboxes ds) e c := by
  intro t ht
  obtain ⟨t', hheard, ht'⟩ := (htold t ht).drained
  refine ⟨t', ?_, Or.inl ⟨_, hmem, (idPath_drained x).trans hpath, ht'⟩⟩
  rw [hearAll_outboxes hapart hdiscreet hx (hpath ▸ hp)]
  exact hheard

/-- A document of which nothing is told, and that stays. -/
theorem fate_of_silent (hnone : ∀ x ∈ ds, ¬ Within x.idPath p) (hmem : c' ∈ e.offspring)
    (hpath : c'.idPath = c.idPath) (htold : ∀ t, Told p v t c → Told p v t c') :
    Fate p v (outboxes ds) e c := fun t ht =>
  ⟨t, hearAll_outboxes_silent hdiscreet hnone t, Or.inl ⟨c', hmem, hpath, htold t ht⟩⟩

/-- A document that tells that it is gone. -/
theorem fate_of_gone (hapart : PathsApart (ds.map idPath)) (hx : x ∈ ds)
    (hpath : x.idPath = c.idPath) (hp : Within c.idPath p)
    (htold : ∀ t, Told p v t c → hearAll p v t x.outbox = some unknown)
    (hgone : ∀ c' ∈ e.offspring, c'.idPath ≠ c.idPath) : Fate p v (outboxes ds) e c := by
  intro t ht
  refine ⟨unknown, ?_, Or.inr ⟨rfl, hgone⟩⟩
  rw [hearAll_outboxes hapart hdiscreet hx (hpath ▸ hp)]
  exact htold t ht

end

/-! Appending. -/

/-- A document that is opened is told of. -/
theorem Told.chooseChild (hplain : context.PlainNames) {kind : Kind} {d₁ child : Document} {n₁ : Nat}
    (hkind : context.Finds d.language kind) (hd : d.Steady context next)
    (hc : chooseChild kind next d = ⟨d₁, n₁, .ok child⟩) (h : Told p v s d) : Told p v s d₁ := by
  have hapart := hplain.siblingsApart
  have hsound := (hd.chooseChild hapart hkind hc).1.self
  have hhost := sameHost_chooseChild kind next d
  rw [hc] at hhost
  have hid : d₁.idPath = d.idPath := congrArg Identity.idPath hhost.id_eq
  have hlast : d₁.info.lastValue = d.info.lastValue := by
    obtain ⟨_, _, heq⟩ := hhost
    rw [heq]
  have hmem : ∀ {x}, x ∈ d₁.offspring ↔ x = child ∨ x ∈ d.offspring ∧ x.key ≠ child.key :=
    hd.mem_offspring_chooseChild hapart hkind hc
  rcases hd.chooseChild_cases hapart hkind hc with
    ⟨c, hold, lifetime, rfl, _, hout⟩ | ⟨⟨uri, rfl⟩, hfresh, _, hout⟩
  · have hpath : (c.withLifetime lifetime).idPath = c.idPath :=
      congrArg Identity.idPath (id_eq_of_nature_eq (nature_withLifetime c _))
    refine h.map hid hout hlast ?_ ?_
    · intro c' hc' _
      rcases hmem.mp hc' with rfl | ⟨hc', _⟩
      · exact ⟨c, hold, hpath.symm, fun _ ht => ht.withLifetime _⟩
      · exact ⟨c', hc', rfl, fun _ ht => ht⟩
    · intro x hx
      by_cases hkey : x.key = (c.withLifetime lifetime).key
      · rw [key_withLifetime] at hkey
        rw [hd.self.key_injective hapart hx hold hkey]
        exact ⟨_, hmem.mpr (Or.inl rfl), hpath⟩
      · exact ⟨x, hmem.mpr (Or.inr ⟨hx, hkey⟩), rfl⟩
  · have hown : newChild d.info kind next uri ∈ d₁.offspring := hmem.mpr (Or.inl rfl)
    refine h.change hout ?_
    intro t htells
    by_cases hwithin : Within (newChild d.info kind next uri).idPath p
    · -- the path of the new document was free
      have hnone : ∀ x ∈ d.offspring, ¬ Within x.idPath p := by
        intro x hx hp
        have hx₁ := hmem.mpr (Or.inr ⟨hx, hfresh x hx⟩)
        exact hfresh x hx (congrArg key (hsound.eq_of_within hplain hx₁ hown hp hwithin))
      have hne : d.idPath ≠ p := by
        intro heq
        have hbelow := (hsound.derives hown).below.within hwithin
        rw [hhost.id_eq] at hbelow
        exact not_below_self p (heq ▸ hbelow)
      obtain rfl := htells.absent hne hnone
      refine ⟨if (newChild d.info kind next uri).idPath = p then known none else unknown, ?_,
        fun heq => absurd (hid ▸ heq) hne, ?_, ?_⟩
      · show (if (newChild d.info kind next uri).idPath = p then some (known none) else some unknown) =
          _
        split <;> rfl
      · exact fun _ hfree => absurd hwithin (hfree _ hown)
      · intro c hc hp
        rcases hmem.mp hc with rfl | ⟨hc, _⟩
        · exact told_leaf rfl rfl
        · exact absurd hp (hnone c hc)
    · have hsilent : (newChild d.info kind next uri).idPath ≠ p :=
        fun heq => hwithin (Or.inl heq.symm)
      refine ⟨t, if_neg hsilent, ?_, ?_, ?_⟩
      · rw [hid, hlast]
        exact htells.self
      · intro hne hnone
        rw [hid] at hne
        exact htells.absent hne fun x hx => hnone x (hmem.mpr (Or.inr ⟨hx, hfresh x hx⟩))
      · intro c hc hp
        rcases hmem.mp hc with rfl | ⟨hc, _⟩
        · exact absurd hp hwithin
        · exact htells.kin c hc hp

theorem Told.giveFragment (hplain : context.PlainNames) {editor : String} {below : Nat}
    (hgive : ∀ origin shift text next c, c.Steady context next → c.Throughout Orderly →
      ∀ t, Told p v t c →
        Told p v t (appendText context editor below origin shift text next c).document)
    {f : Fragment} (origin : Pos .editor) (hkind : context.Finds d.language f.kind)
    (hd : d.Steady context next) (horderly : d.Throughout Orderly) (h : Told p v s d) :
    Told p v s
      (giveFragment (appendText context editor below) editor origin f next d).document := by
  have hapart := hplain.siblingsApart
  have hgrowth : ∀ {d₁ child grown : Document} {n₁ n₂ : Nat} {result : Except DocumentError Unit},
      Document.chooseChild f.kind next d = ⟨d₁, n₁, .ok child⟩ →
      appendText context editor below (foreignOrigin origin f.range) f.shift f.text n₁ child =
        ⟨grown, n₂, result⟩ →
      d₁.Steady context n₂ ∧ grown.Steady context n₂ ∧ child ∈ d₁.children ∧
        grown.nature = child.nature ∧ grown.Throughout Orderly ∧
        ∀ t, Told p v t child → Told p v t grown := by
    intro d₁ child grown n₁ n₂ result hc hg
    obtain ⟨hd₁, hgrown, hmem, hnature⟩ := hd.grown hapart
      (fun o s t n c hc => hc.appendText hapart editor below o s t) hkind hc hg
    have hchild := (hd.chooseChild hapart hkind hc).2.1
    have hcalm := (orderly_chooseChild hapart hkind hd horderly hc).2.1
    have hkept := orderly_appendText hapart editor below (foreignOrigin origin f.range) f.shift f.text
      hchild hcalm
    have htold := hgive (foreignOrigin origin f.range) f.shift f.text n₁ child hchild hcalm
    rw [hg] at hkept htold
    exact ⟨hd₁, hgrown, hmem, hnature, hkept, htold⟩
  rcases giveFragment_cases (appendText context editor below) editor origin f next d with
    ⟨d₁, n₁, e, hc, heq⟩ | ⟨d₁, n₁, child, grown, n₂, e, hc, hg, heq⟩ |
    ⟨d₁, n₁, child, grown, n₂, hc, hg, heq⟩
  · rw [heq, (chooseChild_error hc).1]
    exact h
  · obtain ⟨hd₁, _, hmem, hnature, _, htold⟩ := hgrowth hc hg
    have hid := id_eq_of_nature_eq hnature
    have hpath : grown.idPath = child.idPath := congrArg Identity.idPath hid
    have hkey : grown.key = child.key := congrArg Identity.key hid
    have hput : ∀ {x}, x ∈ (d₁.putChild grown).offspring ↔
        x = grown ∨ x ∈ d₁.offspring ∧ x.key ≠ grown.key :=
      hd₁.self.mem_offspring_putChild hapart hmem hkey
    have hown : child ∈ d₁.offspring := List.mem_append_left _ hmem
    have hhost := sameHost_putChild d₁ grown
    rw [heq]
    refine (h.chooseChild hplain hkind hd hc).map (congrArg Identity.idPath hhost.id_eq) ?_ ?_ ?_ ?_
    · cases d₁
      rfl
    · cases d₁
      rfl
    · intro x hx _
      rcases hput.mp hx with rfl | ⟨hx, _⟩
      · exact ⟨child, hown, hpath.symm, htold⟩
      · exact ⟨x, hx, rfl, fun _ ht => ht⟩
    · intro x hx
      by_cases hsame : x.key = grown.key
      · rw [hd₁.self.key_injective hapart hx hown (hsame.trans hkey)]
        exact ⟨grown, hput.mpr (Or.inl rfl), hpath⟩
      · exact ⟨x, hput.mpr (Or.inr ⟨hx, hsame⟩), rfl⟩
  · obtain ⟨hd₁, hgrown, hmem, hnature, hkept, htold⟩ := hgrowth hc hg
    have hdrained := (nature_drained grown).trans hnature
    have hpath : grown.idPath = child.idPath := congrArg Identity.idPath (id_eq_of_nature_eq hnature)
    have hkey : grown.drained.key = child.key := congrArg Identity.key (id_eq_of_nature_eq hdrained)
    have hown : child ∈ d₁.offspring := List.mem_append_left _ hmem
    have hput : ∀ {x}, x ∈ ((d₁.putChild grown.drained).emit grown.outbox).offspring ↔
        x = grown.drained ∨ x ∈ d₁.offspring ∧ x.key ≠ grown.drained.key := by
      rw [emit, offspring_modify]
      exact hd₁.self.mem_offspring_putChild hapart hmem hkey
    have hsound := ((hd₁.putChild hmem hdrained (hgrown.modify (nature_drained grown))).modify
      (f := fun i => { i with outbox := i.outbox ++ grown.outbox }) (nature_modify _ rfl rfl rfl)).self
    have hnews : outboxes [grown] = grown.outbox := List.flatMap_singleton _ _
    have hdiscreet : Discreet [grown] := by
      intro x hx e he
      obtain rfl := List.mem_singleton.mp hx
      exact Or.inr (hkept.self.below e he).1
    rw [heq]
    refine (h.chooseChild hplain hkind hd hc).pass hplain hd₁.self hsound ?_ ?_ ?_
      hdiscreet ?_ ?_ ?_
    · cases d₁
      rfl
    · cases d₁
      rfl
    · rw [hnews]
      cases d₁
      rfl
    · intro x hx
      obtain rfl := List.mem_singleton.mp hx
      exact ⟨child, hown, hpath.symm⟩
    · intro x hx
      rcases hput.mp hx with rfl | ⟨hx, _⟩
      · exact ⟨child, hown, hpath.symm.trans (idPath_drained grown).symm⟩
      · exact ⟨x, hx, rfl⟩
    · intro c hc hwithin
      by_cases hsame : c.key = child.key
      · obtain rfl := hd₁.self.key_injective hapart hc hown hsame
        exact fate_of_speaker hdiscreet (List.pairwise_singleton _ _) List.mem_cons_self hpath hwithin
          htold (hput.mpr (Or.inl rfl))
      · refine fate_of_silent hdiscreet ?_ (hput.mpr (Or.inr ⟨hc, hkey ▸ hsame⟩)) rfl fun _ ht => ht
        intro x hx hwithin'
        obtain rfl := List.mem_singleton.mp hx
        rw [hpath] at hwithin'
        exact hsame (congrArg key (hd₁.self.eq_of_within hplain hc hown hwithin hwithin'))

theorem Told.appendText (hplain : context.PlainNames) (editor : String) (levels : Nat)
    (origin : Pos .editor) (shift : Option (Pos .source)) (text : Text) (hd : d.Steady context next)
    (horderly : d.Throughout Orderly) (h : Told p v s d) :
    Told p v s (appendText context editor levels origin shift text next d).document := by
  have hapart := hplain.siblingsApart
  refine (appendText_relates (G := fun _ _ _ => True) (R := fun n d n' d' => d.Steady context n →
    d.Throughout Orderly → d'.Steady context n' ∧ d'.Throughout Orderly ∧
      ∀ s, Told p v s d → Told p v s d') ?_ ?_ ?_ ?_ levels trivial next d hd horderly).2.2 s h
  · exact fun _ _ hd horderly => ⟨hd, horderly, fun _ ht => ht⟩
  · intro n₀ d₀ n₁ d₁ n₂ d₂ hone htwo hd horderly
    obtain ⟨hd₁, horderly₁, htold₁⟩ := hone hd horderly
    obtain ⟨hd₂, horderly₂, htold₂⟩ := htwo hd₁ horderly₁
    exact ⟨hd₂, horderly₂, fun s hs => htold₂ s (htold₁ s hs)⟩
  · intro below hbelow n e origin shift text _ f hf hd horderly
    have hkind := Fragment.finds_of_mem_peel hf
    refine ⟨hd.giveFragment hapart editor below
      (fun o s t n c hc => hc.appendText hapart editor below o s t) origin hkind,
      orderly_giveFragment hapart (fun o s t n c hc =>
        orderly_appendText hapart editor below o s t hc.1 hc.2) origin hkind hd horderly, ?_⟩
    intro s hs
    exact hs.giveFragment hplain
      (fun o s t n c hc hcalm => (hbelow o s t trivial n c hc hcalm).2.2) origin hkind hd horderly
  · intro n e origin shift text kept _ _ foreign hd horderly
    exact ⟨hd.modify (nature_modify e rfl rfl rfl), orderly_modify horderly rfl horderly.self.below,
      fun s hs => hs.modify rfl rfl rfl⟩

end

end Document

end Polyglot
