import Polyglot.Document.Compose
import Polyglot.Document.Lifecycle
import Mathlib.Data.List.TakeDrop
import Mathlib.Data.List.TakeWhile

/-!
What the operations on a tree can do, said once: how the operations on lists of documents work on
each of them, which child is chosen for a piece of code, what comes of giving the code away, and
what comes of appending a text.
-/
namespace Polyglot.Document

@[simp] theorem info_node (info : Info) (children parked : List Document) :
    (node info children parked).info = info := rfl

@[simp] theorem children_node (info : Info) (children parked : List Document) :
    (node info children parked).children = children := rfl

@[simp] theorem parked_node (info : Info) (children parked : List Document) :
    (node info children parked).parked = parked := rfl

@[simp] theorem modify_node (f : Info → Info) (info : Info) (children parked : List Document) :
    (node info children parked).modify f = node (f info) children parked := rfl

/-- Induction over a tree, with the claim for all that a document owns directly. -/
@[elab_as_elim]
theorem tree_induction {motive : Document → Prop}
    (step : ∀ info children parked, (∀ c ∈ children, motive c) → (∀ c ∈ parked, motive c) →
      motive (node info children parked)) : ∀ d, motive d
  | node info children parked =>
    step info children parked (fun c _ => tree_induction step c) (fun c _ => tree_induction step c)
termination_by d => sizeOf d
decreasing_by
  all_goals
    have := List.sizeOf_lt_of_mem ‹c ∈ _›
    simp only [node.sizeOf_spec]
    omega

/-! The operations on lists of documents. -/

theorem walkAll_eq (ds : List Document) : walkAll ds = ds.flatMap walk := by
  induction ds with
  | nil => rfl
  | cons d rest ih => rw [walkAll, ih, List.flatMap_cons]

theorem clearAll_eq (ds : List Document) : clearAll ds = ds.map clear := by
  induction ds with
  | nil => rfl
  | cons d rest ih => rw [clearAll, ih, List.map_cons]

theorem emitChangedAll_eq (ds : List Document) : emitChangedAll ds = ds.map emitChanged := by
  induction ds with
  | nil => rfl
  | cons d rest ih => rw [emitChangedAll, ih, List.map_cons]

/-- A child that the sweep of its parent lets stay. -/
def swept (idle : List String) (c : Document) : Document :=
  if idle.contains c.key then c.closeExpired.aged else c.closeExpired

def isStaying (idle : List String) (c : Document) : Bool := !(idle.contains c.key && c.isExpiring)

theorem closeStaying_eq (idle : List String) (ds : List Document) :
    closeStaying idle ds = (ds.filter (isStaying idle)).map (swept idle) := by
  induction ds with
  | nil => rfl
  | cons c rest ih =>
    rw [closeStaying, ih]
    by_cases hidle : idle.contains c.key = true
    · rw [if_pos hidle]
      by_cases hexpiring : c.isExpiring = true
      · have hgone : ¬ isStaying idle c = true := by simp only [isStaying, hidle, hexpiring]; decide
        rw [if_pos hexpiring, List.filter_cons_of_neg hgone]
      · have hstays : isStaying idle c = true := by
          simp only [isStaying, hidle, Bool.not_eq_true _ ▸ hexpiring]
          decide
        rw [if_neg hexpiring, List.filter_cons_of_pos hstays, List.map_cons, swept, if_pos hidle]
    · have hstays : isStaying idle c = true := by
        rw [Bool.not_eq_true] at hidle
        simp only [isStaying, hidle, Bool.false_and, Bool.not_false]
      rw [if_neg hidle, List.filter_cons_of_pos hstays, List.map_cons, swept, if_neg hidle]

/-! Children by their keys. -/

theorem mem_insertByKey {d c : Document} {ds : List Document} (h : c ∈ insertByKey d ds) :
    c = d ∨ c ∈ ds := by
  induction ds with
  | nil => simpa [insertByKey] using h
  | cons other rest ih =>
    rw [insertByKey] at h
    split at h
    · exact List.mem_cons.mp h
    · split at h
      · rcases List.mem_cons.mp h with heq | hrest
        · exact Or.inl heq
        · exact Or.inr (List.mem_cons_of_mem other hrest)
      · rcases List.mem_cons.mp h with heq | hrest
        · exact Or.inr (heq ▸ List.mem_cons_self)
        · rcases ih hrest with heq | hold
          · exact Or.inl heq
          · exact Or.inr (List.mem_cons_of_mem other hold)

theorem takeParked_eq_some {language : String} {parked rest : List Document} {d : Document}
    (h : takeParked language parked = some (d, rest)) :
    ∃ earlier later, parked = earlier ++ d :: later ∧ rest = earlier ++ later ∧
      d.language = language ∧ ∀ c ∈ later, c.language ≠ language := by
  unfold takeParked at h
  simp only [List.span_eq_takeWhile_dropWhile] at h
  have hsplit := List.takeWhile_append_dropWhile
    (p := fun c : Document => decide (c.language ≠ language))
    (l := parked.reverse)
  split at h
  · cases h
  · rename_i c earlier hdrop
    cases h
    rw [hdrop] at hsplit
    refine ⟨earlier.reverse,
      (parked.reverse.takeWhile fun c => decide (c.language ≠ language)).reverse,
      ?_, rfl, ?_, ?_⟩
    · have := congrArg List.reverse hsplit
      simpa using this.symm
    · have := List.head?_dropWhile_not
        (fun c : Document => decide (c.language ≠ language)) parked.reverse
      rw [hdrop] at this
      simpa using this
    · intro x hx
      have := List.mem_takeWhile_imp (List.mem_reverse.mp hx)
      simpa using this

/-! Opening and choosing children. -/

theorem openChild_eq_ok {info : Info} {kind : Kind} {number : Nat} {c : Document}
    (h : openChild info kind number = .ok c) :
    ∃ uri, childUri info.id.path (info.id.idPath ++ "-" ++ Identity.keyOf kind number)
        kind.extension = .ok uri ∧
      c = node
        { id := ⟨kind, info.id.path, number, some info.id.idPath,
            info.id.idPath ++ "-" ++ Identity.keyOf kind number, uri⟩
          config := info.config
          lifetime := info.config.lifetime } [] [] := by
  unfold openChild at h
  simp only at h
  split at h
  · cases h
  · rename_i uri huri
    exact ⟨uri, huri, (Except.ok.inj h).symm⟩

/-- No child and no parked document can take code of a kind, so that a new one is needed. -/
def IsNeeded (kind : Kind) (children parked : List Document) : Prop :=
  (kind.standalone = true ∧ takeParked kind.language parked = none) ∨
  (kind.standalone = false ∧ children.find? (·.key = kind.language) = none)

/-- All that can come of choosing a child: one of the children, a parked document, a new one, or
the failure to open a new one. -/
theorem chooseChild_cases (kind : Kind) (next : Nat) (info : Info)
    (children parked : List Document) :
    (∃ c, kind.standalone = false ∧ children.find? (·.key = kind.language) = some c ∧
      chooseChild kind next (node info children parked) =
        ⟨node { info with idle := info.idle.erase kind.language }
          (insertByKey (c.withLifetime info.config.lifetime) children) parked, next,
          .ok (c.withLifetime info.config.lifetime)⟩) ∨
    (∃ c rest, kind.standalone = true ∧ takeParked kind.language parked = some (c, rest) ∧
      chooseChild kind next (node info children parked) =
        ⟨node info (insertByKey (c.withLifetime info.config.lifetime) children) rest, next,
          .ok (c.withLifetime info.config.lifetime)⟩) ∨
    (IsNeeded kind children parked ∧ ∃ e, openChild info kind next = .error e ∧
      chooseChild kind next (node info children parked) =
        ⟨node info children parked, next + 1, .error e⟩) ∨
    (IsNeeded kind children parked ∧ ∃ c, openChild info kind next = .ok c ∧
      chooseChild kind next (node info children parked) =
        ⟨node { info with outbox := info.outbox ++ [c.id.event .opened] }
          (insertByKey (c.withLifetime info.config.lifetime) children) parked, next + 1,
          .ok (c.withLifetime info.config.lifetime)⟩) := by
  cases hkind : kind.standalone with
  | false =>
    cases hfind : children.find? (·.key = kind.language) with
    | some c =>
      refine Or.inl ⟨c, rfl, rfl, ?_⟩
      simp [chooseChild, hkind, hfind, adopt]
    | none =>
      have hneeded : IsNeeded kind children parked := Or.inr ⟨hkind, hfind⟩
      cases hopen : openChild info kind next with
      | error e =>
        refine Or.inr (Or.inr (Or.inl ⟨hneeded, e, rfl, ?_⟩))
        simp [chooseChild, hkind, hfind, hopen]
      | ok c =>
        refine Or.inr (Or.inr (Or.inr ⟨hneeded, c, rfl, ?_⟩))
        simp [chooseChild, hkind, hfind, hopen, adopt]
  | true =>
    cases htake : takeParked kind.language parked with
    | some found =>
      obtain ⟨c, rest⟩ := found
      refine Or.inr (Or.inl ⟨c, rest, rfl, rfl, ?_⟩)
      simp [chooseChild, hkind, htake, adopt]
    | none =>
      have hneeded : IsNeeded kind children parked := Or.inl ⟨hkind, htake⟩
      cases hopen : openChild info kind next with
      | error e =>
        refine Or.inr (Or.inr (Or.inl ⟨hneeded, e, rfl, ?_⟩))
        simp [chooseChild, hkind, htake, hopen]
      | ok c =>
        refine Or.inr (Or.inr (Or.inr ⟨hneeded, c, rfl, ?_⟩))
        simp [chooseChild, hkind, htake, hopen, adopt]

/-- What giving code away does to the document that gives it: idle children and waiting events
change, and nothing else of its own. -/
def SameHost (d e : Document) : Prop :=
  ∃ idle outbox, e.info = { d.info with idle := idle, outbox := outbox }

theorem SameHost.refl (d : Document) : SameHost d d := ⟨_, _, rfl⟩

theorem SameHost.trans {c d e : Document} (h : SameHost c d) (h' : SameHost d e) :
    SameHost c e := by
  obtain ⟨idle, outbox, hd⟩ := h
  obtain ⟨idle', outbox', he⟩ := h'
  exact ⟨idle', outbox', by rw [he, hd]⟩

/-- What a document is: this changes only when it is disposed of. -/
def nature (d : Document) : Identity × Config × Bool := (d.id, d.info.config, d.info.disposed)

theorem nature_eq_iff {d e : Document} : d.nature = e.nature ↔
    d.id = e.id ∧ d.info.config = e.info.config ∧ d.info.disposed = e.info.disposed := by
  simp only [nature, Prod.mk.injEq]

theorem id_eq_of_nature_eq {d e : Document} (h : d.nature = e.nature) : d.id = e.id :=
  (nature_eq_iff.mp h).1

theorem SameHost.nature_eq {d e : Document} (h : SameHost d e) : e.nature = d.nature := by
  obtain ⟨_, _, he⟩ := h
  simp only [nature, Document.id, he]

theorem SameHost.id_eq {d e : Document} (h : SameHost d e) : e.id = d.id :=
  id_eq_of_nature_eq h.nature_eq

theorem SameHost.language_eq {d e : Document} (h : SameHost d e) : e.language = d.language := by
  rw [language, h.id_eq]
  rfl

theorem SameHost.blocks_eq {d e : Document} (h : SameHost d e) : e.info.blocks = d.info.blocks := by
  obtain ⟨_, _, he⟩ := h
  rw [he]

theorem sameHost_chooseChild (kind : Kind) (next : Nat) (d : Document) :
    SameHost d (chooseChild kind next d).document := by
  obtain ⟨info, children, parked⟩ := d
  rcases chooseChild_cases kind next info children parked with
    ⟨c, _, _, h⟩ | ⟨c, rest, _, _, h⟩ | ⟨_, e, _, h⟩ | ⟨_, c, _, h⟩ <;> rw [h] <;>
    exact ⟨_, _, rfl⟩

/-- A chosen child was a child or parked before, but for its lifetime, or else it is new. -/
theorem chooseChild_ok {kind : Kind} {next n₁ : Nat} {d d₁ child : Document}
    (h : chooseChild kind next d = ⟨d₁, n₁, .ok child⟩) :
    d₁.children = insertByKey child d.children ∧ d₁.parked ⊆ d.parked ∧
      ((∃ c lifetime, (c ∈ d.children ∨ c ∈ d.parked) ∧ child = c.withLifetime lifetime) ∨
        ∃ info, child = node info [] [] ∧ info.blocks = []) := by
  obtain ⟨info, children, parked⟩ := d
  rcases chooseChild_cases kind next info children parked with
    ⟨c, _, hfind, heq⟩ | ⟨c, rest, _, htake, heq⟩ | ⟨_, e, _, heq⟩ | ⟨_, c, hopen, heq⟩
  · rw [heq] at h
    cases h
    exact ⟨rfl, List.Subset.refl _, Or.inl ⟨c, _, Or.inl (List.mem_of_find?_eq_some hfind), rfl⟩⟩
  · rw [heq] at h
    cases h
    obtain ⟨earlier, later, rfl, rfl, _, _⟩ := takeParked_eq_some htake
    refine ⟨rfl, ?_, Or.inl ⟨c, _, Or.inr (by simp), rfl⟩⟩
    intro x hx
    rcases List.mem_append.mp hx with hx | hx <;> simp [hx]
  · rw [heq] at h
    cases h
  · rw [heq] at h
    cases h
    obtain ⟨uri, _, rfl⟩ := openChild_eq_ok hopen
    exact ⟨rfl, List.Subset.refl _, Or.inr ⟨_, rfl, rfl⟩⟩

theorem chooseChild_error {kind : Kind} {next n₁ : Nat} {d d₁ : Document} {e : DocumentError}
    (h : chooseChild kind next d = ⟨d₁, n₁, .error e⟩) : d₁ = d ∧ n₁ = next + 1 := by
  obtain ⟨info, children, parked⟩ := d
  rcases chooseChild_cases kind next info children parked with
    ⟨c, _, _, heq⟩ | ⟨c, rest, _, _, heq⟩ | ⟨_, e, _, heq⟩ | ⟨_, c, _, heq⟩ <;>
    rw [heq] at h <;> cases h
  exact ⟨rfl, rfl⟩

theorem sameHost_putChild (d c : Document) : SameHost d (d.putChild c) := by
  cases d
  exact ⟨_, _, rfl⟩

theorem sameHost_emit (d : Document) (events : List Event) : SameHost d (d.emit events) := by
  cases d
  exact ⟨_, _, rfl⟩

/-- All that can come of giving a piece of code to a child. -/
theorem giveFragment_cases (give : Appender) (editor : String) (origin : Pos .editor) (f : Fragment)
    (next : Nat) (d : Document) :
    (∃ d₁ n₁ e, chooseChild f.kind next d = ⟨d₁, n₁, .error e⟩ ∧
      giveFragment give editor origin f next d = ⟨d₁, n₁, .error e⟩) ∨
    (∃ d₁ n₁ child grown n₂ e, chooseChild f.kind next d = ⟨d₁, n₁, .ok child⟩ ∧
      give (foreignOrigin origin f.range) f.shift f.text n₁ child = ⟨grown, n₂, .error e⟩ ∧
      giveFragment give editor origin f next d = ⟨d₁.putChild grown, n₂, .error e⟩) ∨
    (∃ d₁ n₁ child grown n₂, chooseChild f.kind next d = ⟨d₁, n₁, .ok child⟩ ∧
      give (foreignOrigin origin f.range) f.shift f.text n₁ child = ⟨grown, n₂, .ok ()⟩ ∧
      giveFragment give editor origin f next d =
        ⟨(d₁.putChild grown.drained).emit grown.outbox, n₂,
          .ok (f.range, entryFor child editor f.shift)⟩) := by
  unfold giveFragment
  generalize chooseChild f.kind next d = o
  obtain ⟨d₁, n₁, result⟩ := o
  cases result with
  | error e => exact Or.inl ⟨d₁, n₁, e, rfl, rfl⟩
  | ok child =>
    simp only [Outcome.bind]
    cases hgive : give (foreignOrigin origin f.range) f.shift f.text n₁ child with
    | mk grown n₂ result =>
      cases result with
      | error e => exact Or.inr (Or.inl ⟨d₁, n₁, child, grown, n₂, e, rfl, hgive, rfl⟩)
      | ok u => exact Or.inr (Or.inr ⟨d₁, n₁, child, grown, n₂, rfl, hgive, rfl⟩)

/-- What giving a piece of code away leads to, if it succeeds. -/
theorem giveFragment_ok {give : Appender} {editor : String} {origin : Pos .editor} {f : Fragment}
    {next n : Nat} {d e : Document} {note : Range .text × ForeignBlock}
    (h : giveFragment give editor origin f next d = ⟨e, n, .ok note⟩) :
    ∃ d₁ n₁ child grown, chooseChild f.kind next d = ⟨d₁, n₁, .ok child⟩ ∧
      give (foreignOrigin origin f.range) f.shift f.text n₁ child = ⟨grown, n, .ok ()⟩ ∧
      e = (d₁.putChild grown.drained).emit grown.outbox ∧
      note = (f.range, entryFor child editor f.shift) := by
  rcases giveFragment_cases give editor origin f next d with
    ⟨d₁, n₁, e, hc, heq⟩ | ⟨d₁, n₁, child, grown, n₂, e, hc, hg, heq⟩ |
    ⟨d₁, n₁, child, grown, n₂, hc, hg, heq⟩
  · rw [heq] at h
    cases h
  · rw [heq] at h
    cases h
  · rw [heq] at h
    cases h
    exact ⟨d₁, n₁, child, grown, hc, hg, rfl, rfl⟩

theorem sameHost_giveFragment (give : Appender) (editor : String) (origin : Pos .editor)
    (f : Fragment) (next : Nat) (d : Document) :
    SameHost d (giveFragment give editor origin f next d).document := by
  have hchoose := sameHost_chooseChild f.kind next d
  rcases giveFragment_cases give editor origin f next d with
    ⟨d₁, n₁, e, hc, h⟩ | ⟨d₁, n₁, child, grown, n₂, e, hc, _, h⟩ |
    ⟨d₁, n₁, child, grown, n₂, hc, _, h⟩
  · rw [h]
    rwa [hc] at hchoose
  · rw [h]
    rw [hc] at hchoose
    exact hchoose.trans (sameHost_putChild d₁ grown)
  · rw [h]
    rw [hc] at hchoose
    exact hchoose.trans ((sameHost_putChild d₁ _).trans (sameHost_emit _ _))

/-- What holds of a document and its counter, and is kept by giving away each piece of code, holds
when all pieces are given away, and also where a failure stops this. -/
theorem appendForeign_keeps {give : Appender} {editor : String} {origin : Pos .editor}
    {I : Nat → Document → Prop} (fragments : List Fragment)
    (hstep : ∀ f ∈ fragments, ∀ next d, I next d → I (giveFragment give editor origin f next d).next
      (giveFragment give editor origin f next d).document) (next : Nat) {d : Document}
    (h : I next d) :
    I (appendForeign give editor origin fragments next d).next
      (appendForeign give editor origin fragments next d).document := by
  induction fragments generalizing next d with
  | nil => exact h
  | cons f rest ih =>
    have hone := hstep f List.mem_cons_self next d h
    rw [appendForeign]
    revert hone
    generalize giveFragment give editor origin f next d = o
    obtain ⟨d₁, n₁, result⟩ := o
    intro hone
    cases result with
    | error e => exact hone
    | ok entry =>
      have hrest := ih (fun g hg => hstep g (List.mem_cons_of_mem f hg)) n₁ hone
      simp only [Outcome.bind]
      revert hrest
      generalize appendForeign give editor origin rest n₁ d₁ = p
      obtain ⟨d₂, n₂, result⟩ := p
      intro hrest
      cases result <;> exact hrest

theorem sameHost_of_appendForeign {give : Appender} {editor : String} {origin : Pos .editor}
    {fragments : List Fragment} {next n : Nat} {d e : Document}
    {given : Except DocumentError (List (Range .text × ForeignBlock))}
    (h : appendForeign give editor origin fragments next d = ⟨e, n, given⟩) : SameHost d e := by
  have hsame : SameHost d (appendForeign give editor origin fragments next d).document := by
    refine appendForeign_keeps (I := fun _ e => SameHost d e) fragments ?_ next (SameHost.refl d)
    intro f _ n e he
    exact he.trans (sameHost_giveFragment give editor origin f n e)
  rwa [h] at hsame

theorem appendForeign_cons_ok {give : Appender} {editor : String} {origin : Pos .editor}
    {f : Fragment} {rest : List Fragment} {next n : Nat} {d e : Document}
    {notes : List (Range .text × ForeignBlock)}
    (h : appendForeign give editor origin (f :: rest) next d = ⟨e, n, .ok notes⟩) :
    ∃ d₁ n₁ note later, giveFragment give editor origin f next d = ⟨d₁, n₁, .ok note⟩ ∧
      appendForeign give editor origin rest n₁ d₁ = ⟨e, n, .ok later⟩ ∧ notes = note :: later := by
  rw [appendForeign] at h
  cases hone : giveFragment give editor origin f next d with
  | mk d₁ n₁ result =>
    rw [hone] at h
    cases result with
    | error e => cases h
    | ok note =>
      simp only [Outcome.bind] at h
      cases hrest : appendForeign give editor origin rest n₁ d₁ with
      | mk d₂ n₂ result =>
        rw [hrest] at h
        cases result with
        | error e => cases h
        | ok later =>
          cases h
          exact ⟨d₁, n₁, note, later, rfl, hrest, rfl⟩

/-- All that can come of appending a text. A block is added only at the end. -/
theorem appendText_cases (context : Context) (editor : String) (levels : Nat) (origin : Pos .editor)
    (shift : Option (Pos .source)) (text : Text) (next : Nat) (d : Document) :
    (∃ e, appendText context editor levels origin shift text next d = ⟨d, next, .error e⟩) ∨
    (∃ below d₁ n₁ given e, levels = below + 1 ∧ d.isDisposed = false ∧
      appendForeign (appendText context editor below) editor origin
        (Fragment.peel (context.extractors.forHost d.language) text).1 next d = ⟨d₁, n₁, given⟩ ∧
      appendText context editor levels origin shift text next d = ⟨d₁, n₁, .error e⟩) ∨
    (∃ below d₁ n₁ foreign kept, levels = below + 1 ∧ d.isDisposed = false ∧
      appendForeign (appendText context editor below) editor origin
        (Fragment.peel (context.extractors.forHost d.language) text).1 next d =
          ⟨d₁, n₁, .ok foreign⟩ ∧
      (Fragment.peel (context.extractors.forHost d.language) text).2 = .ok kept ∧
      appendText context editor levels origin shift text next d =
        ⟨d₁.push (blockOf context.rules d.language editor origin shift text kept foreign), n₁,
          .ok ()⟩) := by
  rw [appendText.eq_def]
  simp only
  by_cases hdisposed : d.isDisposed = true
  · rw [if_pos hdisposed]
    exact Or.inl ⟨_, rfl⟩
  · rw [if_neg hdisposed]
    rw [Bool.not_eq_true] at hdisposed
    cases levels with
    | zero => exact Or.inl ⟨_, rfl⟩
    | succ below =>
      refine Or.inr ?_
      simp only
      cases hgiven : appendForeign (appendText context editor below) editor origin
        (Fragment.peel (context.extractors.forHost d.language) text).1 next d with
      | mk d₁ n₁ result =>
        have hhost := sameHost_of_appendForeign hgiven
        have hlanguage := hhost.language_eq
        cases result with
        | error e => exact Or.inl ⟨below, d₁, n₁, _, e, rfl, hdisposed, hgiven, rfl⟩
        | ok foreign =>
          cases hkept : (Fragment.peel (context.extractors.forHost d.language) text).2 with
          | error fault =>
            refine Or.inl ⟨below, d₁, n₁, _, .unreadable fault, rfl, hdisposed, hgiven, ?_⟩
            simp only [Outcome.bind]
          | ok kept =>
            refine Or.inr ⟨below, d₁, n₁, foreign, kept, rfl, hdisposed, hgiven, rfl, ?_⟩
            simp only [Outcome.bind, hlanguage]

/-- Appending a text whose pieces are known. -/
theorem appendText_succ {context : Context} {editor : String} {levels : Nat} {origin : Pos .editor}
    {shift : Option (Pos .source)} {text kept : Text} {next : Nat} {d : Document}
    {fragments : List Fragment} (hlive : d.isDisposed = false)
    (hpeel : Fragment.peel (context.extractors.forHost d.language) text = (fragments, .ok kept)) :
    appendText context editor (levels + 1) origin shift text next d =
      (appendForeign (appendText context editor levels) editor origin fragments next d).bind
        fun foreign next e =>
          ⟨e.push (blockOf context.rules e.language editor origin shift text kept foreign), next,
            .ok ()⟩ := by
  rw [appendText.eq_def]
  simp only [hlive, hpeel, Bool.false_eq_true, if_false]

/-- Appending keeps what a document is, and only adds blocks. -/
theorem appendText_frame (context : Context) (editor : String) (levels : Nat) (origin : Pos .editor)
    (shift : Option (Pos .source)) (text : Text) (next : Nat) (d : Document) :
    (appendText context editor levels origin shift text next d).document.nature = d.nature ∧
      d.info.blocks <+:
        (appendText context editor levels origin shift text next d).document.info.blocks := by
  rcases appendText_cases context editor levels origin shift text next d with
    ⟨e, heq⟩ | ⟨below, d₁, n₁, given, e, _, _, hforeign, heq⟩ |
    ⟨below, d₁, n₁, foreign, kept, _, _, hforeign, _, heq⟩
  · rw [heq]
    exact ⟨rfl, List.prefix_refl _⟩
  · have hhost := sameHost_of_appendForeign hforeign
    rw [heq]
    exact ⟨hhost.nature_eq, hhost.blocks_eq ▸ List.prefix_refl _⟩
  · have hhost := sameHost_of_appendForeign hforeign
    rw [heq]
    obtain ⟨info, children, parked⟩ := d₁
    refine ⟨hhost.nature_eq, ?_⟩
    rw [← hhost.blocks_eq]
    exact List.prefix_append _ _

/-- A text that is appended becomes one more block, as high as the text. -/
theorem appendText_ok {context : Context} {editor : String} {levels : Nat} {origin : Pos .editor}
    {shift : Option (Pos .source)} {text : Text} {next next' : Nat} {d d' : Document}
    (h : appendText context editor levels origin shift text next d = ⟨d', next', .ok ()⟩) :
    ∃ below d₁ foreign kept, levels = below + 1 ∧
      appendForeign (appendText context editor below) editor origin
        (Fragment.peel (context.extractors.forHost d.language) text).1 next d =
          ⟨d₁, next', .ok foreign⟩ ∧
      (Fragment.peel (context.extractors.forHost d.language) text).2 = .ok kept ∧
      SameHost d d₁ ∧
      d' = d₁.push (blockOf context.rules d.language editor origin shift text kept foreign) ∧
      d'.info.blocks =
        d.info.blocks ++
          [blockOf context.rules d.language editor origin shift text kept foreign] := by
  rcases appendText_cases context editor levels origin shift text next d with
    ⟨e, heq⟩ | ⟨below, d₁, n₁, given, e, _, _, _, heq⟩ |
    ⟨below, d₁, n₁, foreign, kept, hlevels, _, hforeign, hkept, heq⟩
  · rw [heq] at h
    cases h
  · rw [heq] at h
    cases h
  · have hhost := sameHost_of_appendForeign hforeign
    rw [heq] at h
    cases h
    refine ⟨below, d₁, foreign, kept, hlevels, hforeign, hkept, hhost, rfl, ?_⟩
    obtain ⟨info, children, parked⟩ := d₁
    rw [← hhost.blocks_eq]
    rfl

theorem le_next_chooseChild (kind : Kind) (next : Nat) (d : Document) :
    next ≤ (chooseChild kind next d).next := by
  obtain ⟨info, children, parked⟩ := d
  rcases chooseChild_cases kind next info children parked with
    ⟨c, _, _, h⟩ | ⟨c, rest, _, _, h⟩ | ⟨_, e, _, h⟩ | ⟨_, c, _, h⟩ <;> rw [h] <;> simp

/-- How a document and its counter are related to what they become when code is given to a child, as
long as so is the child to what it becomes, and when the block of a text is added: so they are
when a text is appended. `G` is what is known of a text that is given, of where it starts, and of
the room in front of it. -/
theorem appendText_relates {context : Context} {editor : String}
    {R : Nat → Document → Nat → Document → Prop}
    {G : Pos .editor → Option (Pos .source) → Text → Prop}
    (hrefl : ∀ next d, R next d next d)
    (htrans : ∀ {n₀ d₀ n₁ d₁ n₂ d₂}, R n₀ d₀ n₁ d₁ → R n₁ d₁ n₂ d₂ → R n₀ d₀ n₂ d₂)
    (hgive : ∀ below,
      (∀ origin shift text, G origin shift text → ∀ next d,
        R next d (appendText context editor below origin shift text next d).next
          (appendText context editor below origin shift text next d).document) →
      ∀ next d origin shift text, G origin shift text →
        ∀ f ∈ (Fragment.peel (context.extractors.forHost d.language) text).1,
          R next d (giveFragment (appendText context editor below) editor origin f next d).next
            (giveFragment (appendText context editor below) editor origin f next d).document)
    (hpush : ∀ next d origin shift text kept, G origin shift text →
      (Fragment.peel (context.extractors.forHost d.language) text).2 = .ok kept →
      ∀ foreign, R next d next
        (d.push (blockOf context.rules d.language editor origin shift text kept foreign)))
    (levels : Nat) {origin : Pos .editor} {shift : Option (Pos .source)} {text : Text}
    (hg : G origin shift text) (next : Nat) (d : Document) :
    R next d (appendText context editor levels origin shift text next d).next
      (appendText context editor levels origin shift text next d).document := by
  induction levels generalizing origin shift text next d with
  | zero =>
    rcases appendText_cases context editor 0 origin shift text next d with
      ⟨e, heq⟩ | ⟨below, _, _, _, _, hlevels, _⟩ | ⟨below, _, _, _, _, hlevels, _⟩
    · rw [heq]
      exact hrefl next d
    · cases hlevels
    · cases hlevels
  | succ levels ih =>
    have hgiven : R next d
        (appendForeign (appendText context editor levels) editor origin
          (Fragment.peel (context.extractors.forHost d.language) text).1 next d).next
        (appendForeign (appendText context editor levels) editor origin
          (Fragment.peel (context.extractors.forHost d.language) text).1 next d).document ∧
        SameHost d (appendForeign (appendText context editor levels) editor origin
          (Fragment.peel (context.extractors.forHost d.language) text).1 next d).document := by
      refine appendForeign_keeps (I := fun n e => R next d n e ∧ SameHost d e) _ ?_ next
        ⟨hrefl next d, SameHost.refl d⟩
      intro f hf n e he
      refine ⟨htrans he.1 ?_, he.2.trans (sameHost_giveFragment _ editor origin f n e)⟩
      rw [← he.2.language_eq] at hf
      exact hgive levels (fun _ _ _ hg n c => ih hg n c) n e origin shift text hg f hf
    rcases appendText_cases context editor (levels + 1) origin shift text next d with
      ⟨e, heq⟩ | ⟨below, d₁, n₁, given, e, hlevels, _, hforeign, heq⟩ |
      ⟨below, d₁, n₁, foreign, kept, hlevels, _, hforeign, hkept, heq⟩
    · rw [heq]
      exact hrefl next d
    · cases hlevels
      rw [hforeign] at hgiven
      rw [heq]
      exact hgiven.1
    · cases hlevels
      rw [hforeign] at hgiven
      rw [heq]
      have hlanguage := hgiven.2.language_eq
      rw [← hlanguage] at hkept ⊢
      exact htrans hgiven.1 (hpush n₁ d₁ origin shift text kept hg hkept foreign)

/-- What giving a piece of code to a child keeps, as long as appending the code to the child keeps
it, and what adding the block of a text keeps, is kept by appending a text. -/
theorem appendText_keeps_given {context : Context} {editor : String} {I : Nat → Document → Prop}
    {G : Pos .editor → Option (Pos .source) → Text → Prop}
    (hgive : ∀ below,
      (∀ origin shift text, G origin shift text → ∀ next d, I next d →
        I (appendText context editor below origin shift text next d).next
          (appendText context editor below origin shift text next d).document) →
      ∀ next d, I next d → ∀ origin shift text, G origin shift text →
        ∀ f ∈ (Fragment.peel (context.extractors.forHost d.language) text).1,
          I (giveFragment (appendText context editor below) editor origin f next d).next
            (giveFragment (appendText context editor below) editor origin f next d).document)
    (hpush : ∀ next d, I next d → ∀ origin shift text kept, G origin shift text →
      (Fragment.peel (context.extractors.forHost d.language) text).2 = .ok kept →
      ∀ foreign,
        I next (d.push (blockOf context.rules d.language editor origin shift text kept foreign)))
    (levels : Nat) {origin : Pos .editor} {shift : Option (Pos .source)} {text : Text}
    (hg : G origin shift text) (next : Nat) {d : Document} (h : I next d) :
    I (appendText context editor levels origin shift text next d).next
      (appendText context editor levels origin shift text next d).document := by
  refine appendText_relates (R := fun n d n' d' => I n d → I n' d') (G := G) ?_ ?_ ?_ ?_ levels hg
    next d h
  · exact fun _ _ hd => hd
  · exact fun hone htwo hd => htwo (hone hd)
  · intro below hbelow n e origin shift text hg f hf he
    exact hgive below hbelow n e he origin shift text hg f hf
  · intro n e origin shift text kept hg hkept foreign he
    exact hpush n e he origin shift text kept hg hkept foreign

/-- The same where any text may be given. -/
theorem appendText_keeps {context : Context} {editor : String} {I : Nat → Document → Prop}
    (hgive : ∀ below,
      (∀ origin shift text next d, I next d →
        I (appendText context editor below origin shift text next d).next
          (appendText context editor below origin shift text next d).document) →
      ∀ next d, I next d →
        ∀ text, ∀ f ∈ (Fragment.peel (context.extractors.forHost d.language) text).1, ∀ origin,
          I (giveFragment (appendText context editor below) editor origin f next d).next
            (giveFragment (appendText context editor below) editor origin f next d).document)
    (hpush : ∀ next d text kept, I next d →
      (Fragment.peel (context.extractors.forHost d.language) text).2 = .ok kept →
      ∀ origin shift foreign,
        I next (d.push (blockOf context.rules d.language editor origin shift text kept foreign)))
    (levels : Nat) (origin : Pos .editor) (shift : Option (Pos .source)) (text : Text) (next : Nat)
    {d : Document} (h : I next d) :
    I (appendText context editor levels origin shift text next d).next
      (appendText context editor levels origin shift text next d).document := by
  refine appendText_keeps_given (G := fun _ _ _ => True) ?_ ?_ levels trivial next h
  · intro below hbelow n e he origin _ text _ f hf
    exact hgive below (fun o s t => hbelow o s t trivial) n e he text f hf origin
  · intro n e he origin shift text kept _ hkept foreign
    exact hpush n e text kept he hkept origin shift foreign

/-- The counter only advances. -/
theorem le_next_appendText (context : Context) (editor : String) (levels : Nat)
    (origin : Pos .editor) (shift : Option (Pos .source)) (text : Text) (next : Nat)
    (d : Document) :
    next ≤ (appendText context editor levels origin shift text next d).next := by
  refine appendText_keeps (I := fun n _ => next ≤ n) ?_ (fun n e _ _ hn _ _ _ _ => hn) levels origin
    shift text next (d := d) (Nat.le_refl next)
  intro below hbelow n e hn text f _ origin
  have hchoose := hn.trans (le_next_chooseChild f.kind n e)
  rcases giveFragment_cases (appendText context editor below) editor origin f n e with
    ⟨d₁, n₁, _, hc, heq⟩ | ⟨d₁, n₁, child, grown, n₂, _, hc, hg, heq⟩ |
    ⟨d₁, n₁, child, grown, n₂, hc, hg, heq⟩
  · rw [hc] at hchoose
    rw [heq]
    exact hchoose
  · rw [hc] at hchoose
    have hgrown := hbelow (foreignOrigin origin f.range) f.shift f.text n₁ child hchoose
    rw [hg] at hgrown
    rw [heq]
    exact hgrown
  · rw [hc] at hchoose
    have hgrown := hbelow (foreignOrigin origin f.range) f.shift f.text n₁ child hchoose
    rw [hg] at hgrown
    rw [heq]
    exact hgrown

end Polyglot.Document
