import Polyglot.Proofs.OptionLiterals
import Mathlib.Data.List.Sort

/-!
All literals of a text, and what the text falls into. Literals are found in order. If one ends
before an earlier one does, the text cannot be taken apart. A text of whose literals none has a key
and a quote in it is always taken apart: its literals do not meet, and the host keeps all of it.
-/
namespace Polyglot.Extraction.Protovalidate

/-- The heads of options that are not in a comment. -/
def liveHeads (text : Text) : List Pattern.Span :=
  (heads text).filter fun h =>
    !(comments text).any fun c => c.start ≤ h.start && h.start < c.stop

theorem pairwise_dropRepeats {ls : List Literal}
    (h : ls.Pairwise (·.contents.start ≤ ·.contents.start)) :
    (dropRepeats ls).Pairwise (·.contents.start < ·.contents.start) := by
  fun_induction dropRepeats ls with
  | case1 a b rest _ ih =>
    rw [List.pairwise_cons, List.pairwise_cons] at h
    refine ih (List.pairwise_cons.mpr ⟨?_, h.2.2⟩)
    intro l hl
    exact h.1 l (List.mem_cons_of_mem b hl)
  | case2 a b rest hne ih =>
    rw [List.pairwise_cons] at h
    refine List.pairwise_cons.mpr ⟨?_, ih h.2⟩
    intro l hl
    have hab := h.1 b List.mem_cons_self
    have hbl : b.contents.start ≤ l.contents.start := by
      rcases List.mem_cons.mp (mem_of_mem_dropRepeats hl) with rfl | hl
      · exact Nat.le_refl _
      · exact (List.pairwise_cons.mp h.2).1 l hl
    omega
  | case3 ls hshort =>
    cases ls with
    | nil => exact List.Pairwise.nil
    | cons a rest =>
      cases rest with
      | nil => exact List.pairwise_singleton _ a
      | cons b rest => exact (hshort a b rest rfl).elim

theorem dropRepeats_eq_self {ls : List Literal}
    (h : ls.Pairwise (·.contents.start < ·.contents.start)) : dropRepeats ls = ls := by
  fun_induction dropRepeats ls with
  | case1 a b rest heq _ =>
    have hlt := (List.pairwise_cons.mp h).1 b List.mem_cons_self
    omega
  | case2 a b rest _ ih => rw [ih (List.pairwise_cons.mp h).2]
  | case3 => rfl

/-- Literals are found in the order in which they start. -/
theorem pairwise_literals (text : Text) :
    (literals text).Pairwise (·.contents.start < ·.contents.start) := by
  refine pairwise_dropRepeats ?_
  have htrans : ∀ a b c : Literal, decide (a.contents.start ≤ b.contents.start) = true →
      decide (b.contents.start ≤ c.contents.start) = true →
      decide (a.contents.start ≤ c.contents.start) = true := by
    intro a b c hab hbc
    rw [decide_eq_true_eq] at hab hbc ⊢
    exact Nat.le_trans hab hbc
  have htotal : ∀ a b : Literal, (decide (a.contents.start ≤ b.contents.start) ||
      decide (b.contents.start ≤ a.contents.start)) = true := by
    intro a b
    rw [Bool.or_eq_true, decide_eq_true_eq, decide_eq_true_eq]
    exact Nat.le_total _ _
  exact (List.pairwise_mergeSort htrans htotal _).imp fun h => of_decide_eq_true h

theorem literals_eq_of_pairwise {text : Text} {ls : List Literal}
    (h : (liveHeads text).filterMap (literalOf? text) = ls)
    (hsorted : ls.Pairwise (·.contents.start < ·.contents.start)) : literals text = ls := by
  have hall : literals text = dropRepeats (((liveHeads text).filterMap (literalOf? text)).mergeSort
      fun a b => a.contents.start ≤ b.contents.start) := rfl
  rw [hall, h, List.mergeSort_of_pairwise, dropRepeats_eq_self hsorted]
  exact hsorted.imp fun hlt => decide_eq_true (Nat.le_of_lt hlt)

theorem stands_of_mem_literals {text : Text} {l : Literal} (h : l ∈ literals text) :
    ∃ pre key quote raw post, l.Stands text pre key quote raw post := by
  obtain ⟨head, hhead⟩ := exists_head_of_mem_literals h
  exact stands_of_literalOf? hhead

/-- The contents of a literal have a key and a quote in them. -/
def Literal.HoldsKey (text : Text) (l : Literal) : Prop :=
  ∃ front key quote back, text.slice l.contents.start l.contents.stop =
    front ++ (key ++ quote :: back) ∧ IsKey key ∧ isQuote quote = true

theorem apart_or_holdsKey {text : Text} {l l' : Literal} (hl : l ∈ literals text)
    (hl' : l' ∈ literals text) (hlt : l.contents.start < l'.contents.start) :
    l.contents.stop < l'.contents.start ∨ l.HoldsKey text := by
  obtain ⟨pre, key, quote, raw, post, hstands⟩ := stands_of_mem_literals hl
  obtain ⟨pre', key', quote', raw', post', hstands'⟩ := stands_of_mem_literals hl'
  rcases hstands.apart_or_within hstands' hlt with hapart | ⟨_, front, back, hraw, _⟩
  · exact Or.inl hapart
  · exact Or.inr ⟨front, key', quote', back, hstands.slice_eq.trans hraw, hstands'.isKey,
      hstands'.isQuote⟩

/-! Pieces. -/

/-- The piece of foreign code that a literal is. -/
def Literal.fragment (text : Text) (l : Literal) : Fragment where
  kind := extractor.kind
  range := ⟨Pos.behind (text.take l.contents.start), Pos.behind (text.take l.contents.stop)⟩
  shift := none
  text := l.decoded

section

variable {text : Text} {ls : List Literal} {done : Nat}

/-- A text can be taken apart from some place on if the literals end behind it, in order. -/
theorem piecesFrom_ok_iff :
    (∃ pieces, piecesFrom text done ls = .ok pieces) ↔
      (∀ l ∈ ls, done ≤ l.contents.stop) ∧ ls.Pairwise (·.contents.stop ≤ ·.contents.stop) := by
  induction ls generalizing done with
  | nil => simp [piecesFrom]
  | cons l rest ih =>
    rw [piecesFrom, List.pairwise_cons]
    by_cases hstop : l.contents.stop < done
    · rw [if_pos hstop]
      constructor
      · rintro ⟨pieces, hpieces⟩
        cases hpieces
      · rintro ⟨hdone, -⟩
        have := hdone l List.mem_cons_self
        omega
    · rw [if_neg hstop]
      constructor
      · rintro ⟨pieces, hpieces⟩
        cases hrest : piecesFrom text l.contents.stop rest with
        | error fault =>
          rw [hrest] at hpieces
          cases hpieces
        | ok more =>
          obtain ⟨hbehind, horder⟩ := ih.mp ⟨more, hrest⟩
          refine ⟨?_, hbehind, horder⟩
          intro l' hl'
          rcases List.mem_cons.mp hl' with rfl | hl'
          · omega
          · have := hbehind l' hl'
            omega
      · rintro ⟨-, hbehind, horder⟩
        obtain ⟨more, hmore⟩ := ih.mpr ⟨hbehind, horder⟩
        rw [hmore]
        exact ⟨_, rfl⟩

theorem host_of_piecesFrom {pieces : List Piece} (h : piecesFrom text done ls = .ok pieces) :
    (pieces.filterMap (·.host)).flatten = text.drop done := by
  induction ls generalizing done pieces with
  | nil =>
    cases h
    split
    · simp
    · rw [List.drop_eq_nil_of_le (by omega)]
      rfl
  | cons l rest ih =>
    rw [piecesFrom] at h
    split at h
    · cases h
    next hstop =>
      cases hrest : piecesFrom text l.contents.stop rest with
      | error fault =>
        rw [hrest] at h
        cases h
      | ok more =>
        rw [hrest] at h
        cases h
        simp only [List.filterMap_cons, List.flatten_cons, ih hrest]
        have hboth := List.take_append_drop (l.contents.stop - done) (text.drop done)
        rwa [List.drop_drop, Nat.add_sub_cancel' (by omega)] at hboth

theorem fragments_of_piecesFrom {pieces : List Piece} (h : piecesFrom text done ls = .ok pieces) :
    pieces.filterMap (Fragment.ofPiece? extractor.kind) = ls.map (Literal.fragment text) := by
  induction ls generalizing done pieces with
  | nil =>
    cases h
    split
    · rfl
    · rfl
  | cons l rest ih =>
    rw [piecesFrom] at h
    split at h
    · cases h
    next =>
      cases hrest : piecesFrom text l.contents.stop rest with
      | error fault =>
        rw [hrest] at h
        cases h
      | ok more =>
        rw [hrest] at h
        cases h
        rw [List.map_cons, ← ih hrest]
        rfl

end

/-- What becomes of a text. Its literals stand in it in the order in which they start, and each ends
before the next one starts or has a key and a quote in it. The text can be taken apart if and only
if no literal ends before an earlier one does; the host then keeps all of it, and the foreign code
is what the literals say, where they stand. All this is so if no literal has a key and a quote in
it, and literals do not meet then. -/
theorem extract_completes_iff (text : Text) :
    (∀ l ∈ literals text, l.contents.start ≤ l.contents.stop ∧ l.contents.stop < text.length) ∧
    ((literals text).Pairwise fun l l' => l.contents.start < l'.contents.start ∧
      (l.contents.stop < l'.contents.start ∨ l.HoldsKey text)) ∧
    ((∃ pieces, extractor.extract text = .ok pieces) ↔
      (literals text).Pairwise (·.contents.stop ≤ ·.contents.stop)) ∧
    (∀ pieces, extractor.extract text = .ok pieces →
      (pieces.filterMap (·.host)).flatten = text ∧
        pieces.filterMap (Fragment.ofPiece? extractor.kind) =
          (literals text).map (Literal.fragment text)) ∧
    ((∀ l ∈ literals text, ¬ l.HoldsKey text) →
      (∃ pieces, extractor.extract text = .ok pieces) ∧
        (literals text).Pairwise fun l l' => l.contents.stop < l'.contents.start) := by
  have hbounds : ∀ l ∈ literals text, l.contents.start ≤ l.contents.stop ∧
      l.contents.stop < text.length := by
    intro l hl
    obtain ⟨pre, key, quote, raw, post, hstands⟩ := stands_of_mem_literals hl
    refine ⟨?_, hstands.stop_lt⟩
    rw [hstands.stop_eq]
    exact Nat.le_add_right _ _
  have hpairs : (literals text).Pairwise fun l l' => l.contents.start < l'.contents.start ∧
      (l.contents.stop < l'.contents.start ∨ l.HoldsKey text) := by
    refine (pairwise_literals text).imp_of_mem ?_
    intro l l' hl hl' hlt
    exact ⟨hlt, apart_or_holdsKey hl hl' hlt⟩
  have hcompletes : (∃ pieces, extractor.extract text = .ok pieces) ↔
      (literals text).Pairwise (·.contents.stop ≤ ·.contents.stop) := by
    refine piecesFrom_ok_iff.trans (and_iff_right ?_)
    exact fun l _ => Nat.zero_le _
  refine ⟨hbounds, hpairs, hcompletes, ?_, ?_⟩
  · intro pieces hpieces
    exact ⟨host_of_piecesFrom hpieces, fragments_of_piecesFrom hpieces⟩
  · intro hno
    have hapart : (literals text).Pairwise fun l l' => l.contents.stop < l'.contents.start := by
      refine hpairs.imp_of_mem ?_
      intro l l' hl _ h
      exact h.2.resolve_right (hno l hl)
    refine ⟨hcompletes.mpr (hapart.imp_of_mem ?_), hapart⟩
    intro l l' _ hl' hlt
    have := (hbounds l' hl').1
    omega

/-- An option in the literal of an option. -/
def quotedOption : Text :=
  "(buf.validate.field).cel = \x7b expression: \"".toList ++
    "(buf.validate.field).cel = \x7b expression: 'x' \x7d\" \x7d".toList

def outerLiteral : Literal :=
  ⟨⟨42, 88⟩, "(buf.validate.field).cel = \x7b expression: 'x' \x7d".toList⟩

def innerLiteral : Literal := ⟨⟨84, 85⟩, ['x']⟩

/-- The inner literal ends before the outer one does, and the text cannot be taken apart. -/
theorem quoted_option_not_extracted :
    literals quotedOption = [outerLiteral, innerLiteral] ∧
      extractor.extract quotedOption = .error .overlap := by
  have hfound : (liveHeads quotedOption).filterMap (literalOf? quotedOption) =
      [outerLiteral, innerLiteral] := by
    decide +kernel
  have hliterals : literals quotedOption = [outerLiteral, innerLiteral] := by
    refine literals_eq_of_pairwise hfound ?_
    rw [List.pairwise_pair]
    decide
  refine ⟨hliterals, ?_⟩
  have hextract : extractor.extract quotedOption =
      piecesFrom quotedOption 0 (literals quotedOption) := rfl
  rw [hextract, hliterals]
  rfl

end Polyglot.Extraction.Protovalidate
