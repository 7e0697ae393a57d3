import Polyglot.Proofs.Composition
import Polyglot.Session

/-!
How deep texts are taken apart. The number of levels shows only where it is used up: a rebuild that
does not end for want of levels ends the same way under every higher number of levels.
-/
namespace Polyglot

namespace Document

/-- The second appender does what the first one does, where this does not end for want of levels. -/
def Appender.ExtendedBy (give give' : Appender) : Prop :=
  ∀ origin shift text next d, (give origin shift text next d).result ≠ .error (.unreadable .depth) →
    give' origin shift text next d = give origin shift text next d

section

variable {give give' : Appender} (h : give.ExtendedBy give') {editor : String}
  {origin : Pos .editor} {next : Nat} {d : Document}

include h

theorem giveFragment_eq_of_extended {f : Fragment}
    (hresult : (giveFragment give editor origin f next d).result ≠ .error (.unreadable .depth)) :
    giveFragment give' editor origin f next d = giveFragment give editor origin f next d := by
  unfold giveFragment at hresult ⊢
  generalize chooseChild f.kind next d = o at hresult ⊢
  obtain ⟨d₁, n₁, chosen⟩ := o
  cases chosen with
  | error e => rfl
  | ok child =>
    simp only [Outcome.bind] at hresult ⊢
    rw [h]
    intro hdeep
    generalize give (foreignOrigin origin f.range) f.shift f.text n₁ child = o at hresult hdeep
    obtain ⟨grown, n₂, given⟩ := o
    cases hdeep
    exact hresult rfl

theorem appendForeign_eq_of_extended {fragments : List Fragment}
    (hresult : (appendForeign give editor origin fragments next d).result ≠
      .error (.unreadable .depth)) :
    appendForeign give' editor origin fragments next d =
      appendForeign give editor origin fragments next d := by
  induction fragments generalizing next d with
  | nil => rfl
  | cons f rest ih =>
    have hone : (giveFragment give editor origin f next d).result ≠
        .error (.unreadable .depth) := by
      intro hdeep
      refine hresult ?_
      rw [appendForeign]
      generalize giveFragment give editor origin f next d = o at hdeep
      obtain ⟨d₁, n₁, given⟩ := o
      cases hdeep
      rfl
    rw [appendForeign] at hresult
    rw [appendForeign, appendForeign, giveFragment_eq_of_extended h hone]
    generalize giveFragment give editor origin f next d = o at hresult
    obtain ⟨d₁, n₁, given⟩ := o
    cases given with
    | error e => rfl
    | ok note =>
      simp only [Outcome.bind] at hresult ⊢
      rw [ih]
      intro hdeep
      generalize appendForeign give editor origin rest n₁ d₁ = o at hresult hdeep
      obtain ⟨d₂, n₂, later⟩ := o
      cases hdeep
      exact hresult rfl

end

/-- More levels change nothing where the levels are enough. -/
theorem appendText_extended (context : Context) (editor : String) {levels more : Nat}
    (hle : levels ≤ more) :
    (appendText context editor levels : Appender).ExtendedBy (appendText context editor more) := by
  induction levels generalizing more with
  | zero =>
    intro origin shift text next d hresult
    rw [appendText.eq_def] at hresult
    rw [appendText.eq_def, appendText.eq_def context editor 0]
    by_cases hdisposed : d.isDisposed = true
    · simp only [hdisposed, if_true]
    · simp only [hdisposed] at hresult
      exact absurd rfl hresult
  | succ below ih =>
    obtain ⟨above, rfl⟩ := Nat.exists_eq_add_of_le' (Nat.le_of_add_left_le hle)
    intro origin shift text next d hresult
    rw [appendText.eq_def] at hresult
    rw [appendText.eq_def, appendText.eq_def context editor (below + 1)]
    by_cases hdisposed : d.isDisposed = true
    · simp only [hdisposed, if_true]
    · simp only [hdisposed] at hresult ⊢
      rw [appendForeign_eq_of_extended (ih (Nat.le_of_succ_le_succ hle))]
      intro hdeep
      generalize appendForeign (appendText context editor below) editor origin
        (Fragment.peel (context.extractors.forHost d.language) text).1 next d = o at hresult hdeep
      obtain ⟨d₁, n₁, given⟩ := o
      cases hdeep
      exact hresult rfl

end Document

section

variable {context : Context} {levels more : Nat} (hle : levels ≤ more)

include hle

theorem appendCells_eq_of_le {cells : List Cell} {index next : Nat} {d : Document}
    (hresult : (appendCells context levels index cells next d).2.result ≠
      .error (.unreadable .depth)) :
    appendCells context more index cells next d =
      appendCells context levels index cells next d := by
  induction cells generalizing index next d with
  | nil => rfl
  | cons cell rest ih =>
    have hone :=
      Document.appendText_extended context cell.editor hle Pos.origin none cell.text next d
    rw [appendCells, Document.append] at hresult
    rw [appendCells, appendCells, Document.append, Document.append]
    generalize Document.appendText context cell.editor levels Pos.origin none cell.text next d = o
      at hresult hone ⊢
    obtain ⟨d₁, n₁, result⟩ := o
    cases result with
    | error e =>
      have herror : e ≠ .unreadable .depth := fun h => hresult (congrArg Except.error h)
      rw [hone fun h => herror (Except.error.inj h)]
    | ok u =>
      rw [hone (by simp)]
      simp only [ih hresult]

end

/-- A rebuild that does not end for want of levels is the same with more levels. -/
theorem update_eq_of_levels_le {s : Session} {more : Nat} (hle : s.levels ≤ more)
    {cells : List Cell} {next : Nat}
    (hresult : (s.update cells next).2.2 ≠ .error (.document (.unreadable .depth))) :
    { s with levels := more }.update cells next =
      ({ (s.update cells next).1 with levels := more }, (s.update cells next).2) := by
  unfold Session.update rebuild at hresult ⊢
  rw [show Session.acquire { s with levels := more } = s.acquire from rfl]
  generalize s.acquire = free at hresult ⊢
  cases free with
  | error e => rfl
  | ok u =>
    simp only at hresult ⊢
    have hcells : (appendCells s.context s.levels 0 cells next s.root.clear).2.result ≠
        .error (.unreadable .depth) → appendCells s.context more 0 cells next s.root.clear =
          appendCells s.context s.levels 0 cells next s.root.clear := appendCells_eq_of_le hle
    generalize appendCells s.context s.levels 0 cells next s.root.clear = o at hresult hcells ⊢
    obtain ⟨notices, d, n, result⟩ := o
    cases result with
    | error e =>
      have herror : e ≠ .unreadable .depth := by
        rintro rfl
        exact hresult rfl
      rw [hcells fun h => herror (Except.error.inj h)]
    | ok u => rw [hcells (by simp)]

end Polyglot
