import Polyglot.LineIndex
import Polyglot.Proofs.ByteOffsets
import Mathlib.Data.List.DropRight
import Mathlib.Data.List.Induction
import Mathlib.Data.Set.Function
import Mathlib.Order.Bounds.Basic

/-!
Places of byte offsets, found in two ways. An index looks an offset up among the starts of lines and
measures from there; without one, line feeds are counted from the beginning of the text. Both find
the same place for every offset between two characters, and an index rounds any other offset down
to such a one. Offsets further on have places further on, so a span never becomes a range that stops
before it starts.
-/
namespace Polyglot

namespace Text

/-- No beginning of a text that takes at most `limit` bytes goes further than the longest one. -/
theorem isPrefix_upTo {before text : Text} {limit : Nat} (h : before <+: text)
    (hle : before.bytes ≤ limit) : before <+: text.upTo limit := by
  induction before generalizing text limit with
  | nil => exact List.nil_prefix
  | cons c before ih =>
    obtain ⟨after, rfl⟩ := h
    rw [bytes] at hle
    rw [List.cons_append, upTo, if_pos (by omega)]
    apply List.cons_prefix_cons.mpr
    exact ⟨rfl, ih (List.prefix_append before after) (by omega)⟩

/-- An offset is rounded down to the last boundary that is not behind it, nor behind the end. -/
theorem isGreatest_bytes_upTo (text : Text) (offset : Nat) :
    IsGreatest {boundary | text.IsBoundary boundary ∧ boundary ≤ min offset text.bytes}
      (text.upTo offset).bytes := by
  have hupTo := upTo_isPrefix offset text
  constructor
  · have hend := (isPrefix_iff_bytes_le hupTo (List.prefix_refl text)).mp hupTo
    exact ⟨⟨_, hupTo, rfl⟩, le_min (bytes_upTo_le offset text) hend⟩
  · rintro _ ⟨⟨before, hbefore, rfl⟩, hle⟩
    have hoffset : before.bytes ≤ offset := hle.trans (min_le_left offset text.bytes)
    exact (isPrefix_iff_bytes_le hbefore hupTo).mp (isPrefix_upTo hbefore hoffset)

end Text

namespace Pos

/-- Columns count from behind the last line feed. -/
theorem column_behind (text : Text) :
    (behind text).column = width (text.rtakeWhile (· ≠ '\n')) := by
  induction text using List.reverseRecOn with
  | nil => rfl
  | append_singleton text c ih =>
    rw [behind_concat, advance]
    by_cases hc : c = '\n'
    · rw [if_pos hc, List.rtakeWhile_concat_neg _ _ _ (by simpa using hc)]
      rfl
    · rw [if_neg hc, List.rtakeWhile_concat_pos _ _ _ (by simpa using hc), width_append, ← ih]
      rfl

/-- Places behind two beginnings of a text come in the order of the offsets where these end. -/
theorem behind_before_iff {s t text : Text} (hs : s <+: text) (ht : t <+: text) :
    (behind s).before (behind t) = true ↔ s.bytes ≤ t.bytes := by
  rw [← Text.isPrefix_iff_bytes_le hs ht]
  exact ⟨isPrefix_of_before hs ht, before_of_isPrefix⟩

end Pos

namespace LineIndex

theorem startsFrom_append (offset : Nat) (s t : Text) :
    startsFrom offset (s ++ t) = startsFrom offset s ++ startsFrom (offset + s.bytes) t := by
  induction s generalizing offset with
  | nil => rfl
  | cons c rest ih =>
    rw [List.cons_append, startsFrom, startsFrom, Text.bytes, ← Nat.add_assoc]
    split <;> simp [ih]

/-- Lines start behind line feeds: after the beginning of a text, and not after its end. -/
theorem mem_startsFrom {offset start : Nat} {text : Text} (h : start ∈ startsFrom offset text) :
    offset < start ∧ start ≤ offset + text.bytes := by
  induction text generalizing offset with
  | nil => cases h
  | cons c rest ih =>
    have hpos := c.utf8Size_pos
    have hrest : start ∈ startsFrom (offset + c.utf8Size) rest →
        offset < start ∧ start ≤ offset + Text.bytes (c :: rest) := by
      intro hmem
      have := ih hmem
      rw [Text.bytes]
      omega
    rw [startsFrom] at h
    split at h
    · rcases List.mem_cons.mp h with rfl | h
      · rw [Text.bytes]
        omega
      · exact hrest h
    · exact hrest h

/-- Up to the end of a beginning of a text, lines start where they start in that beginning. -/
theorem takeWhile_startsFrom (s t : Text) :
    (startsFrom 0 (s ++ t)).takeWhile (· ≤ s.bytes) = startsFrom 0 s := by
  have hinside : ∀ start ∈ startsFrom 0 s, decide (start ≤ s.bytes) = true := by
    intro start hstart
    have := mem_startsFrom hstart
    exact decide_eq_true (by omega)
  have hbehind : (startsFrom (0 + s.bytes) t).takeWhile (· ≤ s.bytes) = [] := by
    cases hstarts : startsFrom (0 + s.bytes) t with
    | nil => rfl
    | cons start rest =>
      have := mem_startsFrom (hstarts ▸ List.mem_cons_self : start ∈ startsFrom (0 + s.bytes) t)
      rw [List.takeWhile_cons, if_neg]
      simp only [decide_eq_true_eq]
      omega
  rw [startsFrom_append, List.takeWhile_append_of_pos hinside, hbehind, List.append_nil]

/-- The last line of a text: where it starts, its number and its width. -/
theorem exists_last_line (text : Text) : ∃ front last, text = front ++ last ∧
    (0 :: startsFrom 0 text)[(Pos.behind text).line]? = some (Text.bytes front) ∧
    (startsFrom 0 text).length = (Pos.behind text).line ∧
    Pos.width last = (Pos.behind text).column := by
  -- one more character is on the last line, or ends it
  induction text using List.reverseRecOn with
  | nil => exact ⟨[], [], rfl, rfl, rfl, rfl⟩
  | append_singleton text c ih =>
    obtain ⟨front, last, htext, hstart, hlength, hwidth⟩ := ih
    rw [Pos.behind_concat, Pos.advance, startsFrom_append, Nat.zero_add]
    by_cases hc : c = '\n'
    · refine ⟨text ++ [c], [], by simp, ?_⟩
      simp only [startsFrom, hc, if_true, List.length_append, hlength, List.length_singleton,
        Text.bytes_append, Text.bytes, Pos.width, Nat.add_zero]
      rw [← List.cons_append, List.getElem?_append_right (by simp [hlength])]
      simp [hlength]
    · refine ⟨front, last ++ [c], by rw [htext, List.append_assoc], ?_⟩
      simp only [startsFrom, hc, if_false, List.append_nil, Pos.width_append, hwidth, Pos.width,
        Nat.add_zero]
      exact ⟨hstart, hlength, trivial⟩

/-- An index finds the place behind the characters that end at or before the offset. -/
theorem position_eq_behind {s : Space} (text : Text) (offset : Nat) :
    (ofText text).position (s := s) offset =
      ⟨(Pos.behind (text.upTo offset)).line, (Pos.behind (text.upTo offset)).column⟩ := by
  obtain ⟨front, last, hsplit, hstart, hlength, hwidth⟩ := exists_last_line (text.upTo offset)
  have htext := Text.upTo_append_drop offset text
  have hfloor : (ofText text).floor offset = (text.upTo offset).bytes := rfl
  revert htext hfloor hsplit hstart hlength hwidth
  generalize text.drop (text.upTo offset).length = after
  generalize text.upTo offset = before
  rintro rfl hstart hlength hwidth rfl hfloor
  have hline : (((ofText (front ++ last ++ after)).starts.takeWhile
      (· ≤ Text.bytes (front ++ last))).length - 1) = (Pos.behind (front ++ last)).line := by
    rw [ofText, List.takeWhile_cons, if_pos (by simp), takeWhile_startsFrom, List.length_cons,
      hlength, Nat.add_sub_cancel]
  have hfirst : (ofText (front ++ last ++ after)).starts.getD (Pos.behind (front ++ last)).line 0 =
      Text.bytes front := by
    rw [ofText, startsFrom_append, ← List.cons_append, List.getD_eq_getElem?_getD,
      List.getElem?_append_left (by simp [hlength]), hstart, Option.getD_some]
  have hlast : (ofText (front ++ last ++ after)).between (Text.bytes front)
      (Text.bytes (front ++ last)) = last := Text.excerpt_bytes front last after
  simp only [position, hfloor, hline, hfirst, hlast, hwidth]

/-- What an index finds comes in the order of the boundaries that the offsets are rounded to. -/
theorem position_before_iff {s : Space} (text : Text) (a b : Nat) :
    ((ofText text).position (s := s) a).before ((ofText text).position b) = true ↔
      (ofText text).floor a ≤ (ofText text).floor b := by
  rw [position_eq_behind, position_eq_behind]
  exact Pos.behind_before_iff (Text.upTo_isPrefix a text) (Text.upTo_isPrefix b text)

theorem floor_mono (text : Text) : Monotone (ofText text).floor := by
  intro a b hab
  obtain ⟨hboundary, hle⟩ := (text.isGreatest_bytes_upTo a).1
  apply (text.isGreatest_bytes_upTo b).2
  exact ⟨hboundary, hle.trans (by omega)⟩

theorem floor_eq_self {text : Text} {offset : Nat} (h : text.IsBoundary offset) :
    (ofText text).floor offset = offset :=
  Text.isBoundary_iff.mp h

/-- From one boundary to the next the place moves on, also where a line ends. -/
theorem strictMonoOn_weight_position {s : Space} (text : Text) :
    StrictMonoOn (fun offset => ((ofText text).position (s := s) offset).weight)
      {offset | text.IsBoundary offset} := by
  intro a ha b hb hab
  apply lt_of_not_ge
  intro hback
  have hle := (position_before_iff text b a).mp ((Pos.before_iff _ _).mpr hback)
  rw [floor_eq_self ha, floor_eq_self hb] at hle
  omega

/-- An index finds for every byte offset the place that is counted at the last boundary which is
neither behind the offset nor behind the end of the text: its line feeds, and the units behind the
last of them. Over the boundaries places strictly rise, so no two boundaries share one; and a span
that stops at or behind its start becomes a range that does. -/
theorem position_agrees_with_counting {s : Space} (text : Text) :
    (∀ offset, ∃ before : Text, before <+: text ∧
      IsGreatest {boundary | text.IsBoundary boundary ∧ boundary ≤ min offset text.bytes}
        before.bytes ∧
      ∃ p, Pos.atByte? text before.bytes = some p ∧
        (ofText text).position (s := s) offset = ⟨p.line, p.column⟩ ∧
        p.line = before.count '\n' ∧ p.column = Pos.width (before.rtakeWhile (· ≠ '\n'))) ∧
    StrictMonoOn (fun offset => ((ofText text).position (s := s) offset).weight)
      {offset | text.IsBoundary offset} ∧
    Set.InjOn (fun offset => (ofText text).position (s := s) offset)
      {offset | text.IsBoundary offset} ∧
    ∀ start stop, start ≤ stop →
      ((ofText text).range (s := s) start stop).start.before
        ((ofText text).range start stop).stop = true := by
  have hrises := strictMonoOn_weight_position (s := s) text
  refine ⟨?_, hrises, ?_, ?_⟩
  · intro offset
    have hbefore := Text.upTo_isPrefix offset text
    exact ⟨text.upTo offset, hbefore, text.isGreatest_bytes_upTo offset, _,
      Pos.atByte?_bytes hbefore, position_eq_behind text offset, Pos.line_behind _,
      Pos.column_behind _⟩
  · intro a ha b hb hab
    exact hrises.injOn ha hb (congrArg Pos.weight hab)
  · intro start stop hle
    exact (position_before_iff text start stop).mpr (floor_mono text hle)

/-- A character of four bytes and two units, an empty line, and a line without an end. -/
def raggedLines : Text := "a😀\n\né".toList

/-- The third offset is inside the second character; the empty line has a place of its own. -/
theorem position_agrees_with_counting_ragged :
    Pos.atByte? raggedLines 1 = some ⟨0, 1⟩ ∧
      (ofText raggedLines).position (s := .buffer) 3 = ⟨0, 1⟩ ∧
      (Text.IsBoundary raggedLines 5 ∧ Text.IsBoundary raggedLines 6 ∧
        Text.IsBoundary raggedLines 7) ∧
      ((ofText raggedLines).position (s := .buffer) 5).weight <
        ((ofText raggedLines).position (s := .buffer) 6).weight ∧
      (ofText raggedLines).position (s := .buffer) 6 ≠ (ofText raggedLines).position 7 ∧
      (ofText raggedLines).range (s := .buffer) 3 99 = ⟨⟨0, 1⟩, ⟨2, 1⟩⟩ ∧
      (⟨0, 1⟩ : Pos .buffer).before ⟨2, 1⟩ = true := by
  obtain ⟨hagrees, hrises, hinjective, hordered⟩ :=
    position_agrees_with_counting (s := .buffer) raggedLines
  have hplace : Pos.atByte? raggedLines 1 = some ⟨0, 1⟩ := by decide +kernel
  have hfive : Text.IsBoundary raggedLines 5 := by decide +kernel
  have hsix : Text.IsBoundary raggedLines 6 := by decide +kernel
  have hseven : Text.IsBoundary raggedLines 7 := by decide +kernel
  have hrange : (ofText raggedLines).range (s := .buffer) 3 99 = ⟨⟨0, 1⟩, ⟨2, 1⟩⟩ := by
    decide +kernel
  refine ⟨hplace, ?_, ⟨hfive, hsix, hseven⟩, hrises hfive hsix (by decide), ?_, hrange, ?_⟩
  · obtain ⟨before, -, hlast, p, hcounted, hindexed, -, -⟩ := hagrees 3
    have hone : (Text.upTo 3 raggedLines).bytes = 1 := by decide +kernel
    have hbytes := hlast.unique (Text.isGreatest_bytes_upTo raggedLines 3)
    rw [hbytes, hone, hplace] at hcounted
    obtain rfl := Option.some.inj hcounted
    exact hindexed
  · intro hsame
    exact absurd (hinjective hsix hseven hsame) (by decide)
  · have hstart := hordered 3 99 (by decide)
    rw [hrange] at hstart
    exact hstart

end LineIndex

end Polyglot
