import Polyglot.Proofs.TextPlaces

/-!
Byte offsets between the characters of a text. Such an offset is the number of bytes of a beginning
of the text, and offsets are ordered as the beginnings are. So the range between two of them holds
the places of just the offsets in between, and a place in it, as seen from the start of the range,
is the place of that offset in the excerpt.
-/
namespace Polyglot

namespace Text

/-- A byte offset between two characters of a text, or at one of its ends. -/
def IsBoundary (text : Text) (offset : Nat) : Prop :=
  ∃ before : Text, before <+: text ∧ before.bytes = offset

/-- The characters between two byte offsets. -/
def excerpt (text : Text) (start stop : Nat) : Text :=
  (text.upTo stop).drop (text.upTo start).length

theorem bytes_pos {text : Text} (h : text ≠ []) : 0 < text.bytes := by
  cases text with
  | nil => exact absurd rfl h
  | cons c rest =>
    have hsize := c.utf8Size_pos
    rw [bytes]
    omega

theorem upTo_isPrefix (limit : Nat) (text : Text) : text.upTo limit <+: text :=
  ⟨_, upTo_append_drop limit text⟩

theorem isBoundary_iff {text : Text} {offset : Nat} :
    text.IsBoundary offset ↔ (text.upTo offset).bytes = offset := by
  constructor
  · rintro ⟨before, ⟨after, rfl⟩, rfl⟩
    rw [upTo_bytes_append]
  · intro h
    exact ⟨text.upTo offset, upTo_isPrefix offset text, h⟩

instance (text : Text) (offset : Nat) : Decidable (text.IsBoundary offset) :=
  decidable_of_iff _ isBoundary_iff.symm

/-- Beginnings of a text are ordered as the offsets at which they end. -/
theorem isPrefix_iff_bytes_le {s t text : Text} (hs : s <+: text) (ht : t <+: text) :
    s <+: t ↔ s.bytes ≤ t.bytes := by
  constructor
  · rintro ⟨more, rfl⟩
    rw [bytes_append]
    omega
  · intro hle
    rcases List.prefix_or_prefix_of_prefix hs ht with hst | ⟨more, rfl⟩
    · exact hst
    · by_cases hmore : more = []
      · simp [hmore]
      · have hpos := bytes_pos hmore
        rw [bytes_append] at hle
        omega

theorem excerpt_bytes (front middle back : Text) :
    (front ++ middle ++ back).excerpt front.bytes (front ++ middle).bytes = middle := by
  have hfront := upTo_bytes_append front (middle ++ back)
  rw [← List.append_assoc] at hfront
  rw [excerpt, upTo_bytes_append, hfront, List.drop_left]

/-- Two offsets cut a text into three. -/
theorem exists_excerpt {text : Text} {start stop : Nat} (hstart : text.IsBoundary start)
    (hstop : text.IsBoundary stop) (hle : start ≤ stop) :
    ∃ front middle back : Text, text = front ++ middle ++ back ∧ front.bytes = start ∧
      bytes (front ++ middle) = stop ∧ text.excerpt start stop = middle := by
  obtain ⟨front, hfront, rfl⟩ := hstart
  obtain ⟨before, hbefore, rfl⟩ := hstop
  obtain ⟨middle, rfl⟩ := (isPrefix_iff_bytes_le hfront hbefore).mpr hle
  obtain ⟨back, rfl⟩ := hbefore
  exact ⟨front, middle, back, rfl, rfl, rfl, excerpt_bytes front middle back⟩

end Text

theorem Pos.atByte?_bytes {before text : Text} (h : before <+: text) :
    atByte? text before.bytes = some (behind before) := by
  obtain ⟨after, rfl⟩ := h
  have hle : before.bytes ≤ (before ++ after).bytes := by
    rw [Text.bytes_append]
    omega
  simp only [atByte?, Text.upTo_bytes_append, Nat.min_eq_left hle, if_true]

/-- The range between two beginnings of a text holds the places behind those that lie in between. -/
theorem Range.contains_behind_iff {front before stop text : Text} (hfront : front <+: text)
    (hbefore : before <+: text) (hstop : stop <+: text) :
    (⟨Pos.behind front, Pos.behind stop⟩ : Range .text).contains (Pos.behind before) = true ↔
      front <+: before ∧ before <+: stop := by
  rw [contains_iff]
  constructor
  · rintro ⟨hstart, hend⟩
    exact ⟨Pos.isPrefix_of_before hfront hbefore hstart, Pos.isPrefix_of_before hbefore hstop hend⟩
  · rintro ⟨hstart, hend⟩
    exact ⟨Pos.before_of_isPrefix hstart, Pos.before_of_isPrefix hend⟩

/-- Between two offsets of a text lies a range that holds the place of an offset if and only if the
offset is not outside. As seen from the start of the range, it then has the place that it has in the
excerpt between the two. -/
theorem Range.relative_eq_place_in_excerpt {text : Text} {start stop : Nat}
    (hstart : text.IsBoundary start) (hstop : text.IsBoundary stop) (hle : start ≤ stop) :
    ∃ range : Range .text, Pos.atByte? text start = some range.start ∧
      Pos.atByte? text stop = some range.stop ∧
      ∀ offset, text.IsBoundary offset → ∃ p, Pos.atByte? text offset = some p ∧
        (range.contains p = true ↔ start ≤ offset ∧ offset ≤ stop) ∧
        (start ≤ offset → offset ≤ stop →
          Pos.atByte? (text.excerpt start stop) (offset - start) = some (range.relative p)) := by
  obtain ⟨front, middle, back, rfl, rfl, rfl, hexcerpt⟩ := Text.exists_excerpt hstart hstop hle
  have hfront : front <+: front ++ middle ++ back := by
    rw [List.append_assoc]
    exact List.prefix_append _ _
  have hmiddle : front ++ middle <+: front ++ middle ++ back := List.prefix_append _ _
  refine ⟨⟨Pos.behind front, Pos.behind (front ++ middle)⟩, Pos.atByte?_bytes hfront,
    Pos.atByte?_bytes hmiddle, ?_⟩
  rintro _ ⟨before, hbefore, rfl⟩
  refine ⟨Pos.behind before, Pos.atByte?_bytes hbefore, ?_, ?_⟩
  · rw [contains_behind_iff hfront hbefore hmiddle, Text.isPrefix_iff_bytes_le hfront hbefore,
      Text.isPrefix_iff_bytes_le hbefore hmiddle]
  · intro hbehind hinside
    obtain ⟨part, rfl⟩ := (Text.isPrefix_iff_bytes_le hfront hbefore).mpr hbehind
    have hpart : part <+: middle := by
      obtain ⟨rest, hrest⟩ := (Text.isPrefix_iff_bytes_le hbefore hmiddle).mpr hinside
      rw [List.append_assoc, List.append_cancel_left_eq] at hrest
      exact ⟨rest, hrest⟩
    rw [hexcerpt, Text.bytes_append, Nat.add_sub_cancel_left, Pos.atByte?_bytes hpart,
      relative_behind]

/-- Three lines, the first with characters of one, four and two bytes. -/
def accentedLines : Text := "a😀é\né\nb".toList

/-- The excerpt starts behind a character of two columns. -/
theorem Range.relative_eq_place_in_excerpt_accents :
    Text.excerpt accentedLines 5 12 = "é\né\nb".toList ∧
      ∃ range : Range .text, range = ⟨⟨0, 3⟩, ⟨2, 1⟩⟩ ∧
        range.contains ⟨0, 4⟩ = true ∧ range.contains ⟨0, 1⟩ ≠ true ∧
        Pos.atByte? (Text.excerpt accentedLines 5 12) (7 - 5) = some (range.relative ⟨0, 4⟩) := by
  have hfive : Text.IsBoundary accentedLines 5 := by decide +kernel
  have htwelve : Text.IsBoundary accentedLines 12 := by decide +kernel
  obtain ⟨range, hstart, hstop, hall⟩ := relative_eq_place_in_excerpt hfive htwelve (by decide)
  have hrange : range = ⟨⟨0, 3⟩, ⟨2, 1⟩⟩ := by
    have hfirst : Pos.atByte? accentedLines 5 = some ⟨0, 3⟩ := by decide +kernel
    have hlast : Pos.atByte? accentedLines 12 = some ⟨2, 1⟩ := by decide +kernel
    rw [hfirst] at hstart
    rw [hlast] at hstop
    exact Range.ext (Option.some.inj hstart).symm (Option.some.inj hstop).symm
  have hplace : Pos.atByte? accentedLines 7 = some ⟨0, 4⟩ := by decide +kernel
  have houtside : Pos.atByte? accentedLines 1 = some ⟨0, 1⟩ := by decide +kernel
  obtain ⟨p, hp, hcontains, hrelative⟩ := hall 7 (by decide +kernel)
  obtain ⟨q, hq, hholds, -⟩ := hall 1 (by decide +kernel)
  obtain rfl := Option.some.inj (hplace.symm.trans hp)
  obtain rfl := Option.some.inj (houtside.symm.trans hq)
  refine ⟨by decide +kernel, range, hrange, hcontains.mpr (by decide), ?_, ?_⟩
  · intro h
    exact absurd (hholds.mp h) (by decide)
  · exact hrelative (by decide) (by decide)

end Polyglot
