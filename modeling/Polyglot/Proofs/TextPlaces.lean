import Polyglot.Position
import Mathlib.Data.List.Count
import Mathlib.Data.Prod.Lex

/-!
Lines and places of texts that are put together. The lines end at line feeds and nowhere else; where
two texts meet, the last line of the one and the first line of the other become one line, and only
there a place of the second is moved by columns. Places are read line by line, so beginnings of a
text are in the order of the places behind them.
-/
namespace Polyglot

namespace Text

theorem lines_eq_splitOn (text : Text) : text.lines = text.splitOn '\n' := by
  induction text with
  | nil => rw [lines, List.splitOn_nil]
  | cons c rest ih =>
    rw [lines, List.splitOn_cons_eq_if_modifyHead, ← ih]
    obtain ⟨line, more, hlines⟩ := List.exists_cons_of_ne_nil (lines_ne_nil rest)
    by_cases hc : c = '\n'
    · rw [if_pos hc, if_pos (by simpa using hc)]
    · rw [if_neg hc, if_neg (by simpa using hc), hlines]
      rfl

/-- Lines end at a line feed. -/
theorem lines_append_newline (s t : Text) : (s ++ '\n' :: t).lines = s.lines ++ t.lines := by
  simp only [lines_eq_splitOn]
  exact List.splitOnP_append_cons s t (by simp)

theorem lines_unlines {ls : List Text} (hne : ls ≠ []) (h : ∀ l ∈ ls, '\n' ∉ l) :
    (unlines ls).lines = ls := by
  rw [lines_eq_splitOn]
  exact List.splitOn_intercalate '\n' h hne

theorem lines_eq_singleton {text : Text} (h : '\n' ∉ text) : text.lines = [text] := by
  have hone := lines_unlines (List.cons_ne_nil text []) (by simpa using h)
  rwa [unlines, List.intercalate_singleton] at hone

theorem not_mem_of_mem_lines {text line : Text} (h : line ∈ text.lines) : '\n' ∉ line := by
  induction text generalizing line with
  | nil =>
    obtain rfl := List.mem_singleton.mp h
    simp
  | cons c rest ih =>
    rw [lines] at h
    split at h
    next =>
      rcases List.mem_cons.mp h with rfl | h
      · simp
      · exact ih h
    next hc =>
      obtain ⟨first, more, hlines⟩ := List.exists_cons_of_ne_nil (lines_ne_nil rest)
      rw [hlines] at h ih
      rcases List.mem_cons.mp h with rfl | h
      · have := ih List.mem_cons_self
        simpa [Ne.symm hc] using this
      · exact ih (List.mem_cons_of_mem first h)

theorem lines_replicate_append (n : Nat) (t : Text) :
    lines (List.replicate n '\n' ++ t) = List.replicate n [] ++ t.lines := by
  induction n with
  | zero => rfl
  | succ n ih =>
    have hfirst := lines_append_newline [] (List.replicate n '\n' ++ t)
    rw [List.nil_append] at hfirst
    rw [List.replicate_succ, List.cons_append, hfirst, ih]
    rfl

/-- Lines are counted by line feeds. -/
theorem length_lines (text : Text) : text.lines.length = text.count '\n' + 1 := by
  induction text with
  | nil => rfl
  | cons c rest ih =>
    rw [lines]
    split
    next h => rw [h, List.length_cons, ih, List.count_cons_self]
    next h =>
      obtain ⟨line, more, hlines⟩ := List.exists_cons_of_ne_nil (lines_ne_nil rest)
      rw [hlines, List.length_cons] at ih
      rw [hlines, consLine, List.length_cons, ih, List.count_cons_of_ne h]

theorem upTo_bytes_append (s t : Text) : (s ++ t).upTo s.bytes = s := by
  induction s with
  | nil =>
    cases t with
    | nil => rfl
    | cons c rest =>
      have := c.utf8Size_pos
      rw [List.nil_append, bytes, upTo, if_neg (by omega)]
  | cons c rest ih =>
    rw [List.cons_append, bytes, upTo, if_pos (by omega), Nat.add_sub_cancel_left, ih]

theorem exists_lines_eq (text : Text) : ∃ init last, text.lines = init ++ [last] :=
  ⟨_, _, (List.dropLast_concat_getLast (lines_ne_nil text)).symm⟩

/-- Where two texts meet, two lines become one. -/
theorem lines_append {s t : Text} {init rest : List Text} {last first : Text}
    (hs : s.lines = init ++ [last]) (ht : t.lines = first :: rest) :
    lines (s ++ t) = init ++ (last ++ first) :: rest := by
  induction s generalizing init last with
  | nil =>
    cases init with
    | nil =>
      cases hs
      exact ht
    | cons x init => simp [lines] at hs
  | cons c s ih =>
    rw [List.cons_append, lines]
    rw [lines] at hs
    by_cases hc : c = '\n'
    · rw [if_pos hc] at hs ⊢
      cases init with
      | nil => exact absurd (List.cons.inj hs).2 (lines_ne_nil s)
      | cons x init =>
        obtain ⟨rfl, htail⟩ := List.cons.inj hs
        rw [ih htail]
        rfl
    · rw [if_neg hc] at hs ⊢
      obtain ⟨line, more, hlines⟩ := List.exists_cons_of_ne_nil (lines_ne_nil s)
      rw [hlines, consLine] at hs
      cases init with
      | nil =>
        obtain ⟨rfl, rfl⟩ := List.cons.inj hs
        rw [ih (show lines s = [] ++ [line] from hlines)]
        rfl
      | cons x init =>
        obtain ⟨rfl, rfl⟩ := List.cons.inj hs
        rw [ih (show lines s = (line :: init) ++ [last] from hlines)]
        rfl

end Text

namespace Pos

theorem foldl_advance {text last : Text} {init : List Text} {s : Space} (p : Pos s)
    (h : text.lines = init ++ [last]) : text.foldl advance p =
      ⟨p.line + init.length, (if init = [] then p.column else 0) + width last⟩ := by
  induction text generalizing p init last with
  | nil =>
    cases init with
    | nil =>
      cases h
      rfl
    | cons x init => simp [Text.lines] at h
  | cons c text ih =>
    rw [Text.lines] at h
    rw [List.foldl_cons, advance]
    by_cases hc : c = '\n'
    · rw [if_pos hc] at h ⊢
      cases init with
      | nil => exact absurd (List.cons.inj h).2 (Text.lines_ne_nil text)
      | cons x init =>
        obtain ⟨rfl, htail⟩ := List.cons.inj h
        rw [ih _ htail]
        simp only [List.length_cons, ite_self, reduceCtorEq, if_false, Pos.mk.injEq, and_true]
        omega
    · rw [if_neg hc] at h ⊢
      obtain ⟨line, more, hlines⟩ := List.exists_cons_of_ne_nil (Text.lines_ne_nil text)
      rw [hlines, Text.consLine] at h
      cases init with
      | nil =>
        obtain ⟨rfl, rfl⟩ := List.cons.inj h
        rw [ih _ (show Text.lines text = [] ++ [line] from hlines)]
        simp only [if_true, width, Nat.add_assoc]
      | cons x init =>
        obtain ⟨rfl, rfl⟩ := List.cons.inj h
        rw [ih _ (show Text.lines text = (line :: init) ++ [last] from hlines)]
        simp

/-- The place behind a text is the end of its last line. -/
theorem behind_eq {text last : Text} {init : List Text} (h : text.lines = init ++ [last]) :
    behind text = ⟨init.length, width last⟩ := by
  rw [behind, foldl_advance _ h]
  simp [origin]

theorem line_behind (text : Text) : (behind text).line = text.count '\n' := by
  have hfold : ∀ p : Pos .text, (text.foldl advance p).line = p.line + text.count '\n' := by
    induction text with
    | nil => simp
    | cons c rest ih =>
      intro p
      rw [List.foldl_cons, ih, advance]
      split
      next h =>
        rw [h, List.count_cons_self, Nat.add_right_comm]
        rfl
      next h => rw [List.count_cons_of_ne h]
  rw [behind, hfold, origin, Nat.zero_add]

theorem behind_concat (text : Text) (c : Char) : behind (text ++ [c]) = (behind text).advance c := by
  rw [behind, List.foldl_append]
  rfl

/-- A place in a text, as seen from where a text before it starts. -/
theorem behind_append (s t : Text) : behind (s ++ t) =
    ⟨(behind s).line + (behind t).line,
      (if (behind t).line = 0 then (behind s).column else 0) + (behind t).column⟩ := by
  obtain ⟨init, last, ht⟩ := t.exists_lines_eq
  rw [behind_eq ht, behind, List.foldl_append, ← behind, foldl_advance _ ht]
  simp

/-- Every character moves the place behind it. -/
theorem behind_ne_origin {text : Text} (h : text ≠ []) :
    0 < (behind text).line ∨ 0 < (behind text).column := by
  cases text with
  | nil => exact absurd rfl h
  | cons c rest =>
    have hsplit := behind_append [c] rest
    rw [List.singleton_append] at hsplit
    rw [hsplit]
    by_cases hc : c = '\n'
    · have hline : (behind [c]).line = 1 := by rw [hc]; rfl
      exact Or.inl (by simp only [hline]; omega)
    · have hone : behind [c] = ⟨0, units c⟩ := by
        rw [behind, List.foldl_cons, List.foldl_nil, advance, if_neg hc, origin, Nat.zero_add]
      have hunits : 0 < units c := by
        unfold units
        split <;> omega
      by_cases hline : (behind rest).line = 0
      · exact Or.inr (by simp only [hone, hline, if_true]; omega)
      · exact Or.inl (by simp only [hone]; omega)

/-- Of two beginnings of a text, the one that ends first is a beginning of the other. -/
theorem isPrefix_of_before {s t text : Text} (hs : s <+: text) (ht : t <+: text)
    (h : (behind s).before (behind t) = true) : s <+: t := by
  rcases List.prefix_or_prefix_of_prefix hs ht with hst | ⟨more, rfl⟩
  · exact hst
  · by_cases hmore : more = []
    · simp [hmore]
    · have hmoved := behind_ne_origin hmore
      rw [behind_append] at h
      simp only [before, Bool.or_eq_true, Bool.and_eq_true, decide_eq_true_eq, beq_iff_eq] at h
      split at h <;> omega

theorem before_of_isPrefix {s t : Text} (h : s <+: t) : (behind s).before (behind t) = true := by
  obtain ⟨more, rfl⟩ := h
  rw [behind_append]
  simp only [before, Bool.or_eq_true, Bool.and_eq_true, decide_eq_true_eq, beq_iff_eq]
  split <;> omega

/-! Reading order as an order of pairs. -/

def weight {s : Space} (p : Pos s) : ℕ ×ₗ ℕ := toLex (p.line, p.column)

theorem weight_injective {s : Space} : Function.Injective (weight (s := s)) := by
  intro p q h
  obtain ⟨hline, hcolumn⟩ := Prod.mk.inj (toLex_inj.mp h)
  exact Pos.ext hline hcolumn

theorem before_iff {s : Space} (p q : Pos s) : p.before q = true ↔ p.weight ≤ q.weight := by
  simp [before, weight, Prod.Lex.toLex_le_toLex]

end Pos

namespace Range

/-- A range holds what comes neither before its start nor after its stop. -/
theorem contains_iff {s : Space} {r : Range s} {p : Pos s} :
    r.contains p = true ↔ r.start.before p = true ∧ p.before r.stop = true := by
  unfold contains
  split
  next hline =>
    simp only [Pos.before, Bool.or_eq_true, Bool.and_eq_true, decide_eq_true_eq, beq_iff_eq]
    omega
  · exact Bool.and_eq_true_iff

/-- A place behind the start of a range, as seen from there. -/
theorem relative_behind (s t : Text) (stop : Pos .text) :
    (⟨Pos.behind s, stop⟩ : Range .text).relative (Pos.behind (s ++ t)) = Pos.behind t := by
  rw [Pos.behind_append, relative]
  by_cases hline : (Pos.behind t).line = 0
  · simp [hline, Pos.ext_iff]
  · simp [hline]

end Range

/-- A line of an excerpt of a text, in the text. Only the first line of the excerpt has something of
the text in front of it. -/
theorem Text.line_of_excerpt (before : Text) {text line : Text} (after : Text) {raw : Nat}
    (h : text.lines[raw]? = some line) :
    ∃ front back, (lines (before ++ text ++ after))[(Pos.behind before).line + raw]? =
        some (front ++ line ++ back) ∧
      Pos.width front = if raw = 0 then (Pos.behind before).column else 0 := by
  obtain ⟨init, last, hbefore⟩ := before.exists_lines_eq
  obtain ⟨init', last', htext⟩ := text.exists_lines_eq
  obtain ⟨first, rest, hafter⟩ := List.exists_cons_of_ne_nil (lines_ne_nil after)
  have hback : ∃ back, (lines (text ++ after))[raw]? = some (line ++ back) := by
    rw [lines_append htext hafter]
    rw [htext] at h
    by_cases hraw : raw < init'.length
    · rw [List.getElem?_append_left hraw] at h ⊢
      exact ⟨[], by rw [h, List.append_nil]⟩
    · rw [List.getElem?_append_right (by omega)] at h ⊢
      obtain ⟨hzero, hline⟩ := List.getElem?_eq_some_iff.mp h
      rw [List.length_singleton] at hzero
      have hlast : raw - init'.length = 0 := by omega
      simp only [hlast, List.getElem_cons_zero] at hline
      subst hline
      exact ⟨first, by rw [hlast]; rfl⟩
  obtain ⟨back, hback⟩ := hback
  obtain ⟨first', rest', hlines⟩ := List.exists_cons_of_ne_nil (lines_ne_nil (text ++ after))
  rw [hlines] at hback
  rw [List.append_assoc, lines_append hbefore hlines, Pos.behind_eq hbefore,
    List.getElem?_append_right (by simp), Nat.add_sub_cancel_left]
  cases raw with
  | zero =>
    obtain rfl := Option.some.inj hback
    exact ⟨last, back, by simp, by simp⟩
  | succ raw => exact ⟨[], back, by simpa using hback, by simp [Pos.width]⟩

end Polyglot
