import Polyglot.Proofs.Composition

/-!
A document owns its children and its parked documents, and all that these own. Every operation
keeps the identity of the documents that stay, and empties blocks, keeps them, or adds one block
that a text becomes. A law that speaks of identity and blocks only, and that such a step keeps,
therefore holds of all documents of every reachable tree. Aging and telling of changes keep still
more, and let nothing in, so that they need no look of their own in the proof of an invariant.
-/
namespace Polyglot.Document

inductive Owns : Document → Document → Prop
  | self (d : Document) : Owns d d
  | child {d c e : Document} : c ∈ d.children → Owns c e → Owns d e
  | parked {d c e : Document} : c ∈ d.parked → Owns c e → Owns d e

theorem Owns.trans {d e f : Document} (h : d.Owns e) (h' : e.Owns f) : d.Owns f := by
  induction h with
  | self => exact h'
  | child hc _ ih => exact Owns.child hc (ih h')
  | parked hc _ ih => exact Owns.parked hc (ih h')

def Throughout (P : Document → Prop) (d : Document) : Prop := ∀ e, d.Owns e → P e

theorem throughout_node (P : Document → Prop) (info : Info) (children parked : List Document) :
    (node info children parked).Throughout P ↔ P (node info children parked) ∧
      (∀ c ∈ children, c.Throughout P) ∧ ∀ c ∈ parked, c.Throughout P := by
  constructor
  · intro h
    refine ⟨h _ (Owns.self _), ?_, ?_⟩
    · intro c hc e he
      exact h e (Owns.child hc he)
    · intro c hc e he
      exact h e (Owns.parked hc he)
  · rintro ⟨hself, hchildren, hparked⟩ e he
    cases he with
    | self => exact hself
    | child hc he => exact hchildren _ hc e he
    | parked hc he => exact hparked _ hc e he

theorem Throughout.imp {P P' : Document → Prop} {d : Document} (h : d.Throughout P)
    (himp : ∀ e, P e → P' e) : d.Throughout P' := fun e he => himp e (h e he)

theorem Throughout.self {P : Document → Prop} {d : Document} (h : d.Throughout P) : P d :=
  h d (Owns.self d)

/-- The documents that a walk meets are owned. -/
theorem owns_of_mem_walk {d e : Document} (h : e ∈ d.walk) : d.Owns e := by
  induction d using tree_induction with
  | step info children parked ihc ihp =>
    rw [walk, walkAll_eq, List.mem_cons, List.mem_flatMap] at h
    rcases h with rfl | ⟨c, hc, he⟩
    · exact Owns.self _
    · exact Owns.child hc (ihc c hc he)

/-! Trees that can arise. -/

/-- The trees that can arise from a root with some settings, and the counter of documents then.
Other trees may take numbers in between, and an append may fail at any point. -/
inductive Reachable (context : Context) : Nat → Document → Prop
  | root (language : String) (path : Url) (extension : String) (number : Nat) :
      Reachable context (number + 1) (root context.config language path extension number)
  | wait {next later : Nat} {d : Document} :
      Reachable context next d → next ≤ later → Reachable context later d
  | append {next : Nat} {d : Document} (levels : Nat) (text : Text) (editor : String)
      (origin : Pos .editor) (shift : Option (Pos .source)) : Reachable context next d →
      Reachable context (appendText context editor levels origin shift text next d).next
        (appendText context editor levels origin shift text next d).document
  | clear {next : Nat} {d : Document} : Reachable context next d → Reachable context next d.clear
  | closeExpired {next : Nat} {d : Document} :
      Reachable context next d → Reachable context next d.closeExpired
  | emitChanged {next : Nat} {d : Document} :
      Reachable context next d → Reachable context next d.emitChanged
  | dispose {next : Nat} {d : Document} :
      Reachable context next d → Reachable context next d.dispose
  | drained {next : Nat} {d : Document} :
      Reachable context next d → Reachable context next d.drained

/-! Aging and telling. -/

/-- What a document keeps when it ages, expires or tells of changes. -/
def core (d : Document) : (Identity × Config × Bool) × List Block := (d.nature, d.info.blocks)

theorem core_drained (d : Document) : d.drained.core = d.core := by
  cases d
  rfl

theorem core_withLifetime (d : Document) (lifetime : Nat) :
    (d.withLifetime lifetime).core = d.core := by
  cases d
  rfl

theorem core_closeExpired (d : Document) : d.closeExpired.core = d.core := by
  cases d
  rfl

theorem core_swept (idle : List String) (d : Document) : (swept idle d).core = d.core := by
  unfold swept
  split
  · rw [aged, core_withLifetime, core_closeExpired]
  · exact core_closeExpired d

theorem noteChange_eq (info : Info) :
    ∃ lastValue outbox,
      noteChange info = { info with lastValue := lastValue, outbox := outbox } := by
  unfold noteChange
  simp only
  split
  · exact ⟨_, _, rfl⟩
  · exact ⟨_, _, rfl⟩

theorem core_emitChanged (d : Document) : d.emitChanged.core = d.core := by
  obtain ⟨info, children, parked⟩ := d
  obtain ⟨lastValue, outbox, hnote⟩ := noteChange_eq info
  rw [emitChanged]
  simp only [hnote]
  rfl

/-- A property that a document keeps as long as it keeps its core, when its children leave it or
keep theirs, and when what it has parked leaves it or ages. -/
def Lasting (P : Document → Prop) : Prop :=
  ∀ {d e : Document}, P d → e.core = d.core →
    (e.children.map core).Sublist (d.children.map core) →
    (e.parked.Sublist d.parked ∨ e.parked.Sublist (d.parked.map aged)) → P e

section

variable {P : Document → Prop}

theorem Lasting.modify (h : Lasting P) {d : Document} {f : Info → Info} (hd : d.Throughout P)
    (hcore : (d.modify f).core = d.core) : (d.modify f).Throughout P := by
  obtain ⟨info, children, parked⟩ := d
  rw [throughout_node] at hd
  rw [modify_node, throughout_node]
  exact ⟨h hd.1 hcore (List.Sublist.refl _) (Or.inl (List.Sublist.refl _)), hd.2⟩

theorem Lasting.closeExpired (h : Lasting P) {d : Document} (hd : d.Throughout P) :
    d.closeExpired.Throughout P := by
  induction d using tree_induction with
  | step info children parked ihc _ =>
    have hcore := core_closeExpired (node info children parked)
    rw [throughout_node] at hd
    obtain ⟨hself, hchildren, hparked⟩ := hd
    rw [Document.closeExpired, closeStaying_eq, List.map_map] at hcore ⊢
    rw [throughout_node]
    refine ⟨h hself hcore ?_ ?_, ?_, ?_⟩
    · have hcores : ∀ c ∈ children.filter (isStaying info.idle),
          (core ∘ Document.drained ∘ swept info.idle) c = c.core := by
        intro c _
        exact (core_drained _).trans (core_swept info.idle c)
      rw [children_node, children_node, List.map_map, List.map_congr_left hcores]
      exact List.filter_sublist.map _
    · exact Or.inr (List.filter_sublist.map _)
    · intro c hc
      obtain ⟨x, hx, rfl⟩ := List.mem_map.mp hc
      have hmem := (List.mem_filter.mp hx).1
      have hx' := ihc x hmem (hchildren x hmem)
      have hswept : (swept info.idle x).Throughout P := by
        unfold swept
        split
        · exact h.modify hx' (core_withLifetime _ _)
        · exact hx'
      exact h.modify hswept (core_drained _)
    · intro c hc
      obtain ⟨x, hx, rfl⟩ := List.mem_map.mp hc
      exact h.modify (hparked x (List.mem_filter.mp hx).1) (core_withLifetime _ _)

theorem Lasting.emitChanged (h : Lasting P) {d : Document} (hd : d.Throughout P) :
    d.emitChanged.Throughout P := by
  induction d using tree_induction with
  | step info children parked ihc _ =>
    have hcore := core_emitChanged (node info children parked)
    rw [throughout_node] at hd
    obtain ⟨hself, hchildren, hparked⟩ := hd
    rw [Document.emitChanged, emitChangedAll_eq, List.map_map] at hcore ⊢
    rw [throughout_node]
    refine ⟨h hself hcore ?_ (Or.inl (List.Sublist.refl _)), ?_, hparked⟩
    · have hcores : ∀ c ∈ children,
          (core ∘ Document.drained ∘ Document.emitChanged) c = c.core := by
        intro c _
        exact (core_drained _).trans (core_emitChanged c)
      simpa only [children_node, List.map_map, List.map_congr_left hcores] using
        List.Sublist.refl (children.map core)
    · intro c hc
      obtain ⟨x, hx, rfl⟩ := List.mem_map.mp hc
      exact h.modify (ihc x hx (hchildren x hx)) (core_drained _)

end

/-! Laws on blocks. -/

def Everywhere (Q : Identity → List Block → Prop) (d : Document) : Prop :=
  d.Throughout fun e => Q e.id e.info.blocks

/-- A law that documents without blocks obey, and that a document goes on obeying when it gets the
block of a text. -/
structure BlockLaw (context : Context) (Q : Identity → List Block → Prop) : Prop where
  empty : ∀ id, Q id []
  push : ∀ {id : Identity} {blocks : List Block} {text kept : Text}, Q id blocks →
    (Fragment.peel (context.extractors.forHost id.kind.language) text).2 = .ok kept →
    ∀ editor origin shift foreign, Q id (blocks ++
      [blockOf context.rules id.kind.language editor origin shift text kept foreign])

section

variable {context : Context} {Q : Identity → List Block → Prop}

theorem everywhere_node (info : Info) (children parked : List Document) :
    (node info children parked).Everywhere Q ↔ Q info.id info.blocks ∧
      (∀ c ∈ children, c.Everywhere Q) ∧ ∀ c ∈ parked, c.Everywhere Q :=
  throughout_node _ info children parked

theorem Everywhere.modify {d : Document} {f : Info → Info} (h : d.Everywhere Q)
    (hid : (f d.info).id = d.info.id) (hblocks : (f d.info).blocks = d.info.blocks) :
    (d.modify f).Everywhere Q := by
  obtain ⟨info, children, parked⟩ := d
  rw [modify_node, everywhere_node]
  rw [everywhere_node] at h
  simp only [info_node] at hid hblocks
  rw [hid, hblocks]
  exact h

theorem Everywhere.withLifetime {d : Document} (h : d.Everywhere Q) (lifetime : Nat) :
    (d.withLifetime lifetime).Everywhere Q := h.modify rfl rfl

theorem Everywhere.drained {d : Document} (h : d.Everywhere Q) : d.drained.Everywhere Q :=
  h.modify rfl rfl

theorem Everywhere.emit {d : Document} (h : d.Everywhere Q) (events : List Event) :
    (d.emit events).Everywhere Q := h.modify rfl rfl

theorem Everywhere.putChild {d c : Document} (h : d.Everywhere Q) (hc : c.Everywhere Q) :
    (d.putChild c).Everywhere Q := by
  obtain ⟨info, children, parked⟩ := d
  rw [everywhere_node] at h
  rw [Document.putChild, everywhere_node]
  refine ⟨h.1, ?_, h.2.2⟩
  intro e he
  rcases mem_insertByKey he with rfl | hold
  · exact hc
  · exact h.2.1 e hold

/-! What appending keeps. -/

theorem Everywhere.chooseChild (hempty : ∀ id, Q id []) {kind : Kind} {next n₁ : Nat}
    {d d₁ child : Document} (h : d.Everywhere Q)
    (hc : chooseChild kind next d = ⟨d₁, n₁, .ok child⟩) :
    d₁.Everywhere Q ∧ child.Everywhere Q := by
  obtain ⟨hchildren, hparked, hfrom⟩ := chooseChild_ok hc
  have hhost := sameHost_chooseChild kind next d
  rw [hc] at hhost
  obtain ⟨info, children, parked⟩ := d
  rw [everywhere_node] at h
  have hchild : child.Everywhere Q := by
    rcases hfrom with ⟨c, lifetime, hmem, rfl⟩ | ⟨new, rfl, hblocks⟩
    · exact (hmem.elim (h.2.1 c) (h.2.2 c)).withLifetime lifetime
    · rw [everywhere_node, hblocks]
      exact ⟨hempty _, by simp, by simp⟩
  refine ⟨?_, hchild⟩
  obtain ⟨info₁, children₁, parked₁⟩ := d₁
  obtain ⟨idle, outbox, rfl : info₁ = _⟩ := hhost
  obtain rfl : children₁ = insertByKey child children := hchildren
  rw [everywhere_node]
  exact ⟨h.1, fun x hx => (mem_insertByKey hx).elim (fun heq => heq ▸ hchild) (h.2.1 x),
    fun x hx => h.2.2 x (hparked hx)⟩

theorem Everywhere.giveFragment (hempty : ∀ id, Q id []) {give : Appender} {origin : Pos .editor}
    {f : Fragment}
    (hgive : ∀ next c, c.Everywhere Q →
      (give (foreignOrigin origin f.range) f.shift f.text next c).document.Everywhere Q)
    (editor : String) (next : Nat) {d : Document} (h : d.Everywhere Q) :
    (giveFragment give editor origin f next d).document.Everywhere Q := by
  rcases giveFragment_cases give editor origin f next d with
    ⟨d₁, n₁, e, hc, heq⟩ | ⟨d₁, n₁, child, grown, n₂, e, hc, hg, heq⟩ |
    ⟨d₁, n₁, child, grown, n₂, hc, hg, heq⟩
  · rw [heq, (chooseChild_error hc).1]
    exact h
  · obtain ⟨hd₁, hchild⟩ := h.chooseChild hempty hc
    have hgrown := hgive n₁ child hchild
    rw [hg] at hgrown
    rw [heq]
    exact hd₁.putChild hgrown
  · obtain ⟨hd₁, hchild⟩ := h.chooseChild hempty hc
    have hgrown := hgive n₁ child hchild
    rw [hg] at hgrown
    rw [heq]
    exact (hd₁.putChild hgrown.drained).emit _

/-- A law that documents without blocks obey, and that a document goes on obeying when it gets the
block of a text of an editor of which `G` holds. `G` then holds of all code that is found in the
text. -/
structure GivenLaw (context : Context) (editor : String)
    (G : Pos .editor → Option (Pos .source) → Text → Prop) (Q : Identity → List Block → Prop) :
    Prop where
  empty : ∀ id, Q id []
  pass : ∀ {origin : Pos .editor} {shift : Option (Pos .source)} {text : Text},
    G origin shift text → ∀ host, ∀ f ∈ (Fragment.peel (context.extractors.forHost host) text).1,
      G (foreignOrigin origin f.range) f.shift f.text
  push : ∀ {id : Identity} {blocks : List Block} {origin : Pos .editor}
    {shift : Option (Pos .source)} {text kept : Text}, Q id blocks → G origin shift text →
    (Fragment.peel (context.extractors.forHost id.kind.language) text).2 = .ok kept →
    ∀ foreign, Q id (blocks ++
      [blockOf context.rules id.kind.language editor origin shift text kept foreign])

theorem GivenLaw.appendText {editor : String}
    {G : Pos .editor → Option (Pos .source) → Text → Prop} (law : GivenLaw context editor G Q)
    (levels : Nat) {origin : Pos .editor} {shift : Option (Pos .source)} {text : Text}
    (hg : G origin shift text) (next : Nat) {d : Document} (h : d.Everywhere Q) :
    (appendText context editor levels origin shift text next d).document.Everywhere Q := by
  refine appendText_keeps_given (I := fun _ e => e.Everywhere Q) ?_ ?_ levels hg next h
  · intro below hbelow n e he origin _ text hg f hf
    exact he.giveFragment law.empty (hbelow _ _ _ (law.pass hg _ f hf)) editor n
  · intro _ e he origin shift text kept hg hkept foreign
    obtain ⟨info, children, parked⟩ := e
    rw [everywhere_node] at he
    rw [Document.push, modify_node, everywhere_node]
    exact ⟨law.push he.1 hg hkept foreign, he.2⟩

theorem BlockLaw.appendText (law : BlockLaw context Q) (editor : String) (levels : Nat)
    (origin : Pos .editor) (shift : Option (Pos .source)) (text : Text) (next : Nat) {d : Document}
    (h : d.Everywhere Q) :
    (appendText context editor levels origin shift text next d).document.Everywhere Q := by
  have hlaw : GivenLaw context editor (fun _ _ _ => True) Q :=
    ⟨law.empty, fun _ _ _ _ => trivial, fun hq _ hkept => law.push hq hkept editor _ _⟩
  exact hlaw.appendText levels trivial next h

/-! What the other operations keep. -/

theorem mem_children_clear {info : Info} {children parked : List Document} {c : Document}
    (hc : c ∈ (node info children parked).clear.children) :
    ∃ x ∈ children, x.clear.drained = c := by
  rw [Document.clear, clearAll_eq] at hc
  simp only [List.partition_eq_filter_filter, children_node, List.map_map] at hc
  exact List.mem_map.mp (List.mem_filter.mp hc).1

theorem mem_parked_clear {info : Info} {children parked : List Document} {c : Document}
    (hc : c ∈ (node info children parked).clear.parked) :
    c ∈ parked ∨ ∃ x ∈ children, x.clear.drained = c := by
  rw [Document.clear, clearAll_eq] at hc
  simp only [List.partition_eq_filter_filter, parked_node, List.map_map, sortParked,
    List.mem_mergeSort, List.mem_append] at hc
  exact hc.imp_right fun hc => List.mem_map.mp (List.mem_filter.mp hc).1

/-- A property that emptied documents have, and that what is parked has, is had by all of an emptied
tree. -/
theorem throughout_clear {P : Document → Prop} {info : Info} {children parked : List Document}
    (hself : P (node info children parked).clear)
    (hchildren : ∀ x ∈ children, x.clear.drained.Throughout P)
    (hparked : ∀ x ∈ parked, x.Throughout P) : (node info children parked).clear.Throughout P := by
  intro e he
  cases he with
  | self => exact hself
  | child hc he =>
    obtain ⟨x, hx, rfl⟩ := mem_children_clear hc
    exact hchildren x hx e he
  | parked hc he =>
    rcases mem_parked_clear hc with hold | ⟨x, hx, rfl⟩
    · exact hparked _ hold e he
    · exact hchildren x hx e he

theorem BlockLaw.clear (law : BlockLaw context Q) {d : Document} (h : d.Everywhere Q) :
    d.clear.Everywhere Q := by
  induction d using tree_induction with
  | step info children parked ihc _ =>
    obtain ⟨_, hchildren, hparked⟩ := (everywhere_node _ _ _).mp h
    exact throughout_clear (law.empty _) (fun x hx => (ihc x hx (hchildren x hx)).drained) hparked

theorem BlockLaw.dispose (law : BlockLaw context Q) {d : Document} (h : d.Everywhere Q) :
    d.dispose.Everywhere Q := by
  obtain ⟨info, children, parked⟩ := d
  rw [Document.dispose]
  split
  · exact h
  · rw [everywhere_node]
    exact ⟨law.empty _, by simp, by simp⟩

theorem everywhere_lasting : Lasting fun e => Q e.id e.info.blocks := by
  intro d e h hcore _ _
  have hid : e.id = d.id := id_eq_of_nature_eq (congrArg Prod.fst hcore)
  have hblocks : e.info.blocks = d.info.blocks := congrArg Prod.snd hcore
  rw [hid, hblocks]
  exact h

/-- A law on blocks holds of every document of every tree that can arise. -/
theorem BlockLaw.reachable (law : BlockLaw context Q) {next : Nat} {d : Document}
    (h : Reachable context next d) : d.Everywhere Q := by
  induction h with
  | root language path extension number =>
    rw [Document.root, everywhere_node]
    exact ⟨law.empty _, by simp, by simp⟩
  | wait _ _ ih => exact ih
  | append levels text editor origin shift _ ih =>
    exact law.appendText editor levels origin shift text _ ih
  | clear _ ih => exact law.clear ih
  | closeExpired _ ih => exact everywhere_lasting.closeExpired ih
  | emitChanged _ ih => exact everywhere_lasting.emitChanged ih
  | dispose _ ih => exact law.dispose ih
  | drained _ ih => exact ih.drained

end

end Polyglot.Document
