import Polyglot.Proofs.Repeats
import Polyglot.Proofs.Ledger

/-!
Who takes the code of a rebuild. Of every piece of foreign code that the root gives away, in turn
and up to a failure, it is written down of which kind it is and which child was chosen for it. A
rebuild that succeeds has given away all that was found, and the notes of its blocks name the same
children.
-/
namespace Polyglot

namespace Document

/-- The kinds of pieces of code that are given away in turn, each with the child that is chosen for
it, whether or not the child can take it. -/
def takers (give : Appender) (editor : String) (origin : Pos .editor) :
    List Fragment → Nat → Document → List (Kind × Identity)
  | [], _, _ => []
  | f :: rest, next, d =>
    match (chooseChild f.kind next d).result with
    | .error _ => []
    | .ok child =>
      let given := giveFragment give editor origin f next d
      (f.kind, child.id) ::
        match given.result with
        | .error _ => []
        | .ok _ => takers give editor origin rest given.next given.document

/-- The same for the code in a text, which is taken apart down to a number of levels. -/
def textTakers (context : Context) (editor : String) (levels : Nat) (origin : Pos .editor)
    (text : Text) (next : Nat) (d : Document) : List (Kind × Identity) :=
  if d.isDisposed then []
  else
    match levels with
    | 0 => []
    | below + 1 =>
      takers (appendText context editor below) editor origin
        (Fragment.peel (context.extractors.forHost d.language) text).1 next d

/-- The same for cells, until one fails. -/
def cellTakers (context : Context) (levels : Nat) :
    List Cell → Nat → Document → List (Kind × Identity)
  | [], _, _ => []
  | cell :: rest, next, d =>
    let appended := d.append context cell.text cell.editor Pos.origin none next levels
    textTakers context cell.editor levels Pos.origin cell.text next d ++
      match appended.result with
      | .error _ => []
      | .ok () => cellTakers context levels rest appended.next appended.document

/-- What holds of all that was given away so far, of the counter and of the document, is kept when a
number is lost, when code is given to a child, and when a block is added. -/
structure TakersLaw (context : Context)
    (I : List (Kind × Identity) → Nat → Document → Prop) : Prop where
  lose : ∀ {t next d}, I t next d → I t (next + 1) d
  give : ∀ (editor : String) (below : Nat) (origin : Pos .editor) {f : Fragment}
    {t next d d₁ n₁ child}, context.Finds d.language f.kind →
    chooseChild f.kind next d = ⟨d₁, n₁, .ok child⟩ → I t next d →
    I (t ++ [(f.kind, child.id)])
      (giveFragment (appendText context editor below) editor origin f next d).next
      (giveFragment (appendText context editor below) editor origin f next d).document
  push : ∀ {t next d} (block : Block), I t next d → I t next (d.push block)

namespace TakersLaw

variable {context : Context} {I : List (Kind × Identity) → Nat → Document → Prop}
  (law : TakersLaw context I) (editor : String) {t : List (Kind × Identity)} {next : Nat}
  {d : Document}

include law

theorem appendForeign (below : Nat) (origin : Pos .editor) {fragments : List Fragment}
    (hfinds : ∀ f ∈ fragments, context.Finds d.language f.kind) (h : I t next d) :
    I (t ++ takers (appendText context editor below) editor origin fragments next d)
      (Document.appendForeign (appendText context editor below) editor origin fragments next d).next
      (Document.appendForeign (appendText context editor below) editor origin fragments next
        d).document := by
  induction fragments generalizing t next d with
  | nil =>
    rw [takers, List.append_nil]
    exact h
  | cons f rest ih =>
    have hkind := hfinds f List.mem_cons_self
    rcases giveFragment_cases (appendText context editor below) editor origin f next d with
      ⟨d₁, n₁, e, hc, heq⟩ | ⟨d₁, n₁, child, grown, n₂, e, hc, hg, heq⟩ |
      ⟨d₁, n₁, child, grown, n₂, hc, hg, heq⟩
    · obtain ⟨rfl, rfl⟩ := chooseChild_error hc
      rw [takers, Document.appendForeign, hc, heq, List.append_nil]
      exact law.lose h
    · have hgiven := law.give editor below origin hkind hc h
      rw [heq] at hgiven
      rw [takers, Document.appendForeign, hc, heq]
      exact hgiven
    · have hgiven := law.give editor below origin hkind hc h
      have hhost := sameHost_giveFragment (appendText context editor below) editor origin f next d
      rw [heq] at hgiven hhost
      rw [takers, Document.appendForeign, hc, heq]
      simp only [Outcome.bind]
      have hrest := ih (fun g hg => hhost.language_eq ▸ hfinds g (List.mem_cons_of_mem f hg)) hgiven
      rw [List.append_assoc, List.singleton_append] at hrest
      revert hrest
      generalize Document.appendForeign (appendText context editor below) editor origin rest n₂
        ((d₁.putChild grown.drained).emit grown.outbox) = o
      obtain ⟨d₂, n₃, result⟩ := o
      intro hrest
      cases result <;> exact hrest

theorem appendText (levels : Nat) (origin : Pos .editor) (shift : Option (Pos .source))
    (text : Text) (h : I t next d) :
    I (t ++ textTakers context editor levels origin text next d)
      (Document.appendText context editor levels origin shift text next d).next
      (Document.appendText context editor levels origin shift text next d).document := by
  unfold textTakers
  rw [Document.appendText.eq_def]
  simp only
  by_cases hdisposed : d.isDisposed = true
  · rw [if_pos hdisposed, if_pos hdisposed, List.append_nil]
    exact h
  · rw [if_neg hdisposed, if_neg hdisposed]
    cases levels with
    | zero =>
      simp only [List.append_nil]
      exact h
    | succ below =>
      have hgiven := law.appendForeign editor below origin
        (fun f (hf : f ∈ (Fragment.peel (context.extractors.forHost d.language) text).1) =>
          Fragment.finds_of_mem_peel hf) h
      simp only
      revert hgiven
      generalize Document.appendForeign (Document.appendText context editor below) editor origin
        (Fragment.peel (context.extractors.forHost d.language) text).1 next d = o
      obtain ⟨d₁, n₁, result⟩ := o
      intro hgiven
      cases result with
      | error e => exact hgiven
      | ok foreign =>
        simp only [Outcome.bind]
        cases (Fragment.peel (context.extractors.forHost d.language) text).2 with
        | error fault => exact hgiven
        | ok kept => exact law.push _ hgiven

theorem appendCells (levels : Nat) {cells : List Cell} (index : Nat) (h : I t next d) :
    I (t ++ cellTakers context levels cells next d)
      (Polyglot.appendCells context levels index cells next d).2.next
      (Polyglot.appendCells context levels index cells next d).2.document := by
  induction cells generalizing index t next d with
  | nil =>
    rw [cellTakers, List.append_nil]
    exact h
  | cons cell rest ih =>
    have hone := law.appendText cell.editor levels Pos.origin none cell.text h
    rw [cellTakers, Polyglot.appendCells, append]
    revert hone
    generalize Document.appendText context cell.editor levels Pos.origin none cell.text
      next d = o
    obtain ⟨d₁, n₁, result⟩ := o
    intro hone
    cases result with
    | error e =>
      simp only [List.append_nil]
      exact hone
    | ok u =>
      rw [← List.append_assoc]
      exact ih (index + 1) hone

end TakersLaw

/-! Where nothing fails. -/

theorem takers_ok {give : Appender} {editor : String} {origin : Pos .editor}
    {fragments : List Fragment} {next n : Nat} {d e : Document}
    {notes : List (Range .text × ForeignBlock)}
    (h : appendForeign give editor origin fragments next d = ⟨e, n, .ok notes⟩) :
    (takers give editor origin fragments next d).map (·.1) = fragments.map (·.kind) ∧
      (takers give editor origin fragments next d).map (·.2.key) =
        notes.map (·.2.document) := by
  induction fragments generalizing next d notes with
  | nil =>
    cases h
    exact ⟨rfl, rfl⟩
  | cons f rest ih =>
    obtain ⟨d₁, n₁, note, later, hone, hrest, rfl⟩ := appendForeign_cons_ok h
    obtain ⟨_, _, child, _, hc, _, _, rfl⟩ := giveFragment_ok hone
    obtain ⟨hkinds, hkeys⟩ := ih hrest
    have htakers : takers give editor origin (f :: rest) next d =
        (f.kind, child.id) :: takers give editor origin rest n₁ d₁ := by rw [takers, hc, hone]
    rw [htakers, List.map_cons, List.map_cons, List.map_cons, List.map_cons, hkinds, hkeys]
    exact ⟨rfl, rfl⟩

theorem textTakers_ok {context : Context} {editor : String} {levels : Nat} {origin : Pos .editor}
    {shift : Option (Pos .source)} {text : Text} {next n : Nat} {d e : Document}
    (h : appendText context editor levels origin shift text next d = ⟨e, n, .ok ()⟩) :
    (textTakers context editor levels origin text next d).map (·.1) =
        (Fragment.peel (context.extractors.forHost d.language) text).1.map (·.kind) ∧
      e.notes.map (·.document) =
        d.notes.map (·.document) ++
          (textTakers context editor levels origin text next d).map (·.2.key) := by
  rcases appendText_cases context editor levels origin shift text next d with
    ⟨_, heq⟩ | ⟨_, _, _, _, _, _, _, _, heq⟩ |
    ⟨below, d₁, n₁, foreign, kept, rfl, hlive, hforeign, _, _⟩
  · rw [heq] at h
    cases h
  · rw [heq] at h
    cases h
  · obtain ⟨_, _, _, _, hlevels, hforeign', _, _, _, hblocks⟩ := appendText_ok h
    cases hlevels
    rw [hforeign] at hforeign'
    cases hforeign'
    obtain ⟨hkinds, hkeys⟩ := takers_ok hforeign
    have htakers : textTakers context editor (below + 1) origin text next d =
        takers (appendText context editor below) editor origin
          (Fragment.peel (context.extractors.forHost d.language) text).1 next d := by
      unfold textTakers
      rw [hlive]
      rfl
    rw [htakers, hkeys, notes, notes, hblocks, List.flatMap_append, List.map_append]
    refine ⟨hkinds, congrArg _ ?_⟩
    simp [blockOf]

theorem cellTakers_ok {context : Context} {cells : List Cell} {levels index next n : Nat}
    {notices : List Notice} {d e : Document}
    (h : appendCells context levels index cells next d = (notices, ⟨e, n, .ok ()⟩)) :
    (cellTakers context levels cells next d).map (·.1) =
        cells.flatMap (fun cell =>
          (Fragment.peel (context.extractors.forHost d.language) cell.text).1.map (·.kind)) ∧
      e.notes.map (·.document) =
        d.notes.map (·.document) ++ (cellTakers context levels cells next d).map (·.2.key) := by
  induction cells generalizing index next d notices with
  | nil =>
    cases h
    exact ⟨rfl, (List.append_nil _).symm⟩
  | cons cell rest ih =>
    obtain ⟨d₁, n₁, later, happend, hrest⟩ := appendCells_cons_ok h
    obtain ⟨hkinds, hkeys⟩ := textTakers_ok happend
    obtain ⟨hkinds', hkeys'⟩ := ih hrest
    have hlanguage : d₁.language = d.language := by
      have hnature := (appendText_frame context cell.editor levels Pos.origin none
        cell.text next d).1
      rw [append] at happend
      rw [happend] at hnature
      rw [language, language, id_eq_of_nature_eq hnature]
    have htakers : cellTakers context levels (cell :: rest) next d =
        textTakers context cell.editor levels Pos.origin cell.text next d ++
          cellTakers context levels rest n₁ d₁ := by rw [cellTakers, happend]
    rw [htakers, List.map_append, List.map_append, List.flatMap_cons]
    refine ⟨?_, ?_⟩
    · rw [hkinds, hkinds', hlanguage]
    · rw [hkeys', hkeys, List.append_assoc]

end Document

/-- The kinds of the pieces of code that a rebuild gives away from the root, each with the child
that is chosen for it. -/
def Session.takers (cells : List Cell) (next : Nat) (s : Session) : List (Kind × Identity) :=
  match s.acquire with
  | .error _ => []
  | .ok () => Document.cellTakers s.context s.levels cells next s.root.clear

end Polyglot
