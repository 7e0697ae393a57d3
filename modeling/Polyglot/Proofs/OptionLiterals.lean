import Polyglot.Proofs.Matches
import Mathlib.Data.List.Basic
import Mathlib.Data.List.Induction
import Mathlib.Data.List.TakeWhile

/-!
How a literal stands in a text: behind a key and a quote, up to the next quote of that kind that is
not escaped. A literal that starts before an earlier one has ended stands in it together with its
key, behind a quote of the other kind.
-/
namespace Polyglot.Extraction.Protovalidate

open Unicode

/-! Words and keys. -/

theorem after?_eq_some_iff {word : String} {text rest : Text} :
    after? word text = some rest ↔ text = word.toList ++ rest := by
  rw [after?]
  constructor
  · intro h
    split at h
    next hprefix =>
      obtain ⟨more, rfl⟩ := List.isPrefixOf_iff_prefix.mp hprefix
      rw [← String.length_toList, List.drop_left] at h
      rw [Option.some.inj h]
    next => cases h
  · rintro rfl
    rw [if_pos (List.isPrefixOf_iff_prefix.mpr (List.prefix_append _ _)), ← String.length_toList,
      List.drop_left]

theorem exists_blanks (text : Text) :
    ∃ blanks, (∀ c ∈ blanks, isBlank c = true) ∧ text = blanks ++ skipBlank text := by
  refine ⟨text.takeWhile isBlank, ?_, List.takeWhile_append_dropWhile.symm⟩
  intro c hc
  exact List.mem_takeWhile_imp hc

/-- Marks, and the letter that some names start with, are not blank. -/
theorem isBlank_eq_false {c : Char} (h : c ∈ "()/.=:b\x7b\x7d\"'\\".toList) :
    isBlank c = false := by
  have hall : "()/.=:b\x7b\x7d\"'\\".toList.all (fun d => !isBlank d) = true := by decide +kernel
  simpa using List.all_eq_true.mp hall c h

/-- The key in front of a literal, up to the opening quote. -/
def IsKey (key : Text) : Prop :=
  ∃ blanks blanks', (∀ c ∈ blanks ++ blanks', isBlank c = true) ∧
    key = "expression".toList ++ (blanks ++ ':' :: blanks')

theorem isKey_of_afterKey? {text rest : Text} (h : afterKey? text = some rest) :
    ∃ pre key, text = pre ++ (key ++ rest) ∧ IsKey key := by
  induction text with
  | nil => cases h
  | cons c text ih =>
    rw [afterKey?] at h
    split at h
    next r hr =>
      obtain ⟨behind, hword, hcolon⟩ := Option.bind_eq_some_iff.mp hr
      rw [after?_eq_some_iff] at hword hcolon
      obtain ⟨blanks, hblanks, hbehind⟩ := exists_blanks behind
      obtain ⟨blanks', hblanks', hr⟩ := exists_blanks r
      cases h
      refine ⟨[], _, ?_, blanks, blanks', ?_, rfl⟩
      · rw [hword, hbehind, hcolon]
        nth_rewrite 1 [hr]
        simp
      · intro d hd
        rcases List.mem_append.mp hd with hd | hd
        · exact hblanks d hd
        · exact hblanks' d hd
    next =>
      obtain ⟨pre, key, rfl, hkey⟩ := ih h
      exact ⟨c :: pre, key, rfl, hkey⟩

theorem isQuote_iff {c : Char} : isQuote c = true ↔ c = '"' ∨ c = '\'' := by
  simp [isQuote]

theorem not_blank_of_isQuote {c : Char} (h : isQuote c = true) : isBlank c = false := by
  rcases isQuote_iff.mp h with rfl | rfl <;> exact isBlank_eq_false (by decide)

/-- No quote stands in a key. -/
theorem IsKey.not_quote {key : Text} (h : IsKey key) {c : Char} (hc : c ∈ key) :
    isQuote c = false := by
  obtain ⟨blanks, blanks', hblanks, rfl⟩ := h
  rw [Bool.eq_false_iff]
  intro hquote
  have hblank := not_blank_of_isQuote hquote
  rcases List.mem_append.mp hc with hword | hc
  · have hall : "expression".toList.all (fun d => !isQuote d) = true := by decide +kernel
    have := List.all_eq_true.mp hall c hword
    simp [hquote] at this
  · rcases List.mem_append.mp hc with hc | hc
    · have := hblanks c (List.mem_append_left _ hc)
      rw [hblank] at this
      cases this
    · rcases List.mem_cons.mp hc with rfl | hc
      · simp [isQuote] at hquote
      · have := hblanks c (List.mem_append_right _ hc)
        rw [hblank] at this
        cases this

/-- A key ends with its colon or a blank, and not with a backslash. -/
theorem IsKey.getLast?_append {key : Text} (h : IsKey key) (front : Text) :
    (front ++ key).getLast? ≠ some '\\' := by
  obtain ⟨blanks, blanks', hblanks, rfl⟩ := h
  rw [← List.append_assoc, ← List.append_assoc, List.getLast?_append_of_ne_nil _ (by simp)]
  cases blanks' using List.reverseRecOn with
  | nil => simp
  | append_singleton bs b =>
    rw [← List.cons_append, List.getLast?_concat]
    intro hlast
    have hblank := hblanks b (by simp)
    rw [Option.some.inj hlast, isBlank_eq_false (by decide)] at hblank
    cases hblank

/-! Literals. -/

/-- The characters between two quotes, and what they say. -/
inductive Spells (quote : Char) : Text → Text → Prop where
  | nil : Spells quote [] []
  | escape (e : Char) {raw decoded : Text} : Spells quote raw decoded →
      Spells quote ('\\' :: e :: raw) (decodeEscape e :: decoded)
  | plain {c : Char} {raw decoded : Text} : c ≠ quote → c ≠ '\n' → c ≠ '\\' →
      Spells quote raw decoded → Spells quote (c :: raw) (c :: decoded)

theorem spells_of_readLiteral? {quote : Char} {text decoded : Text} {n : Nat}
    (h : readLiteral? quote text = some (n, decoded)) :
    ∃ raw rest, text = raw ++ quote :: rest ∧ raw.length = n ∧ Spells quote raw decoded := by
  fun_induction readLiteral? quote text generalizing n decoded with
  | case1 => cases h
  | case2 rest =>
    cases h
    exact ⟨[], rest, rfl, rfl, .nil⟩
  | case3 => cases h
  | case4 => cases h
  | case5 e rest _ _ ih =>
    obtain ⟨⟨m, cs⟩, hrest, heq⟩ := Option.map_eq_some_iff.mp h
    cases heq
    obtain ⟨raw, rest, rfl, rfl, hspells⟩ := ih hrest
    exact ⟨'\\' :: e :: raw, rest, rfl, rfl, hspells.escape e⟩
  | case6 c rest hquote hline hescape ih =>
    obtain ⟨⟨m, cs⟩, hrest, heq⟩ := Option.map_eq_some_iff.mp h
    cases heq
    obtain ⟨raw, rest, rfl, rfl, hspells⟩ := ih hrest
    exact ⟨c :: raw, rest, rfl, rfl, hspells.plain hquote hline hescape⟩

/-- The quote of a literal stands in it behind a backslash only. -/
theorem Spells.escaped {quote : Char} {raw decoded pre post : Text} (h : Spells quote raw decoded)
    (hquote : quote ≠ '\\') (hraw : raw = pre ++ quote :: post) :
    ∃ front, pre = front ++ ['\\'] := by
  induction h generalizing pre with
  | nil => simp at hraw
  | @escape e raw decoded _ ih =>
    cases pre with
    | nil => exact absurd (List.cons.inj hraw).1.symm hquote
    | cons c more =>
      obtain ⟨hc, hmore⟩ := List.cons.inj hraw
      cases more with
      | nil => exact ⟨[], by rw [← hc]; rfl⟩
      | cons d rest =>
        obtain ⟨front, hfront⟩ := ih (List.cons.inj hmore).2
        exact ⟨c :: d :: front, by rw [hfront]; rfl⟩
  | @plain c raw decoded hne _ _ _ ih =>
    cases pre with
    | nil => exact absurd (List.cons.inj hraw).1 hne
    | cons d more =>
      obtain ⟨front, hfront⟩ := ih (List.cons.inj hraw).2
      exact ⟨d :: front, by rw [hfront]; rfl⟩

/-- A body ends in front of a brace. -/
theorem exists_of_bodyLength? {depth n : Nat} {quote : Option Char} {text : Text}
    (h : bodyLength? depth quote text = some n) :
    ∃ inner rest, text = inner ++ '\x7d' :: rest ∧ inner.length = n := by
  fun_induction bodyLength? depth quote text generalizing n with
  | case1 => cases h
  | case2 depth q e rest ih =>
    obtain ⟨m, hm, rfl⟩ := Option.map_eq_some_iff.mp h
    obtain ⟨inner, rest, rfl, rfl⟩ := ih hm
    exact ⟨'\\' :: e :: inner, rest, rfl, rfl⟩
  | case4 depth rest =>
    cases h
    exact ⟨[], rest, rfl, rfl⟩
  | case3 depth _ c rest _ ih | case5 depth rest _ ih | case6 depth rest _ ih
  | case7 depth c rest _ _ ih =>
    obtain ⟨m, hm, rfl⟩ := Option.map_eq_some_iff.mp h
    obtain ⟨inner, rest, rfl, rfl⟩ := ih hm
    exact ⟨_ :: inner, rest, rfl, rfl⟩

theorem lt_of_bodyLength? {depth n : Nat} {quote : Option Char} {text : Text}
    (h : bodyLength? depth quote text = some n) : n < text.length := by
  obtain ⟨inner, rest, rfl, rfl⟩ := exists_of_bodyLength? h
  rw [List.length_append, List.length_cons]
  omega

/-- How a literal stands in a text: behind a key, in quotes. -/
structure Literal.Stands (text : Text) (l : Literal) (pre key : Text) (quote : Char)
    (raw post : Text) : Prop where
  text_eq : text = (pre ++ key) ++ quote :: (raw ++ quote :: post)
  isKey : IsKey key
  isQuote : isQuote quote = true
  spells : Spells quote raw l.decoded
  start_eq : l.contents.start = (pre ++ key).length + 1
  stop_eq : l.contents.stop = l.contents.start + raw.length

theorem stands_of_literalOf? {text : Text} {head : Pattern.Span} {l : Literal}
    (h : literalOf? text head = some l) :
    ∃ pre key quote raw post, l.Stands text pre key quote raw post := by
  unfold literalOf? at h
  simp only [Option.bind_eq_bind, Option.bind_eq_some_iff] at h
  obtain ⟨length, hlength, behind, hbehind, h⟩ := h
  split at h
  next q rest hdrop =>
    split at h
    next hquote =>
      obtain ⟨⟨n, decoded⟩, hread, heq⟩ := Option.bind_eq_some_iff.mp h
      cases heq
      obtain ⟨raw, post, rfl, rfl, hspells⟩ := spells_of_readLiteral? hread
      obtain ⟨inner, key, hbody, hkey⟩ := isKey_of_afterKey? hbehind
      have hlt := lt_of_bodyLength? hlength
      have hlen : inner.length + (key.length + behind.length) = length := by
        rw [← List.length_append, ← List.length_append, ← hbody, List.length_take]
        omega
      rw [List.length_drop] at hlt
      -- the literal opens behind the head, what the body has in front of the key, and the key
      have hfront : text.take (head.stop + (length - behind.length)) =
          text.take head.stop ++ inner ++ key := by
        rw [List.take_add, show length - behind.length = (inner ++ key).length by simp; omega,
          List.append_assoc]
        congr 1
        have htake := congrArg (List.take (inner ++ key).length) hbody
        rw [List.take_take, ← List.append_assoc, List.take_left,
          Nat.min_eq_left (by simp; omega)] at htake
        exact htake
      have hsplit := List.take_append_drop (head.stop + (length - behind.length)) text
      rw [hfront, hdrop] at hsplit
      refine ⟨text.take head.stop ++ inner, key, q, raw, post, hsplit.symm, hkey, hquote, hspells,
        ?_, rfl⟩
      simp only [List.length_append, List.length_take]
      omega
    next => cases h
  next => cases h

namespace Literal.Stands

variable {text pre key pre' key' raw post raw' post' : Text} {l l' : Literal} {quote quote' : Char}

theorem slice_eq (h : l.Stands text pre key quote raw post) :
    text.slice l.contents.start l.contents.stop = raw := by
  rw [Text.slice, h.stop_eq, Nat.add_sub_cancel_left, h.start_eq, h.text_eq, ← List.drop_drop,
    List.drop_left, List.drop_one, List.tail_cons, List.take_left]

theorem stop_lt (h : l.Stands text pre key quote raw post) : l.contents.stop < text.length := by
  rw [h.stop_eq, h.start_eq, h.text_eq]
  simp only [List.length_append, List.length_cons]
  omega

/-- A literal that starts before an earlier one has ended stands in it with its key, behind a quote
of the other kind. -/
theorem apart_or_within (h : l.Stands text pre key quote raw post)
    (h' : l'.Stands text pre' key' quote' raw' post')
    (hlt : l.contents.start < l'.contents.start) :
    l.contents.stop < l'.contents.start ∨ quote' ≠ quote ∧ ∃ front back,
      raw = front ++ (key' ++ quote' :: back) ∧
        l'.contents.start = l.contents.start + (front ++ key').length + 1 := by
  have hstart := h.start_eq
  have hstart' := h'.start_eq
  have hstop := h.stop_eq
  have hquote : quote ≠ '\\' := by
    rintro rfl
    exact absurd h.isQuote (by decide)
  -- the earlier opening quote stands in front of the later one, and not in its key
  obtain ⟨front, hpre', hrest⟩ : ∃ front, pre' = (pre ++ key) ++ quote :: front ∧
      raw ++ quote :: post = (front ++ key') ++ quote' :: (raw' ++ quote' :: post') := by
    rcases List.append_eq_append_iff.mp (h.text_eq.symm.trans h'.text_eq) with
      ⟨gap, hgap, hafter⟩ | ⟨gap, hgap, _⟩
    · cases gap with
      | nil =>
        have := congrArg List.length hgap
        rw [List.append_nil] at this
        omega
      | cons c gap =>
        obtain ⟨rfl, hcut⟩ := List.cons.inj hafter
        rcases List.append_eq_append_iff.mp hgap with ⟨more, _, hkey⟩ | ⟨more, hpre, hkey⟩
        · have hnot := h'.isKey.not_quote (c := quote) (by rw [hkey]; simp)
          rw [h.isQuote] at hnot
          cases hnot
        · cases more with
          | nil =>
            rw [List.nil_append] at hkey
            have hnot := h'.isKey.not_quote (c := quote) (by rw [← hkey]; simp)
            rw [h.isQuote] at hnot
            cases hnot
          | cons d front =>
            obtain ⟨rfl, hinner⟩ := List.cons.inj hkey
            rw [hinner] at hcut
            exact ⟨front, hpre, hcut⟩
    · have := congrArg List.length hgap
      simp only [List.length_append] at this hstart hstart'
      omega
  have hlength := congrArg List.length hpre'
  simp only [List.length_append, List.length_cons] at hstart hstart' hlength
  rcases List.append_eq_append_iff.mp hrest with ⟨gap, hgap, _⟩ | ⟨gap, hgap, hback⟩
  · have hle := congrArg List.length hgap
    simp only [List.length_append] at hle
    omega
  · cases gap with
    | nil =>
      have hle := congrArg List.length hgap
      simp only [List.length_append, List.length_nil] at hle
      omega
    | cons c back =>
      obtain ⟨rfl, _⟩ := List.cons.inj hback
      refine Or.inr ⟨?_, front, back, by rw [hgap, List.append_assoc], ?_⟩
      · rintro rfl
        obtain ⟨esc, hesc⟩ := h.spells.escaped hquote hgap
        refine h'.isKey.getLast?_append front ?_
        rw [hesc, List.getLast?_concat]
      · simp only [List.length_append]
        omega

end Literal.Stands

end Polyglot.Extraction.Protovalidate
