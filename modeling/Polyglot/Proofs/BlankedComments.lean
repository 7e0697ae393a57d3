import Polyglot.Proofs.LiteralPieces
import Mathlib.Data.List.Chain

/-!
Texts in which the comments gave way to blanks. Each character of a comment but the line feeds is
replaced by as many blanks as it has bytes, so that what stands behind it stays at its byte. In a
text like this there are no comments left.
-/
namespace Polyglot.Extraction.Protovalidate

open Pattern (Span)

/-! Marked texts. -/

/-- Characters, each with whether it stands in a comment. -/
abbrev Marked := List (Char × Bool)

def plain (m : Marked) : Text := m.map Prod.fst

/-- What a character gives way to. -/
def veil (x : Char × Bool) : Text :=
  if x.2 = true ∧ x.1 ≠ '\n' then List.replicate x.1.utf8Size ' ' else [x.1]

def veiled (m : Marked) : Text := m.flatMap veil

/-- No character stands in a comment. -/
def Unmarked (m : Marked) : Prop := ∀ x ∈ m, x.2 = false

def covers (spans : List Span) (i : Nat) : Bool := spans.any fun s => s.start ≤ i && i < s.stop

/-- A text whose first character has the index `i`, with the characters in the given spans
marked. -/
def markedFrom (spans : List Span) : Nat → Text → Marked
  | _, [] => []
  | i, c :: rest => (c, covers spans i) :: markedFrom spans (i + 1) rest

def marked (text : Text) : Marked := markedFrom (comments text) 0 text

/-- A text whose comments gave way to blanks. -/
def blanked (text : Text) : Text := veiled (marked text)

section

variable {m m' : Marked} {c : Char}

@[simp] theorem plain_cons (x : Char × Bool) (m : Marked) : plain (x :: m) = x.1 :: plain m := rfl

@[simp] theorem plain_append (m m' : Marked) : plain (m ++ m') = plain m ++ plain m' :=
  List.map_append

@[simp] theorem veiled_append (m m' : Marked) : veiled (m ++ m') = veiled m ++ veiled m' :=
  List.flatMap_append

@[simp] theorem veiled_cons (x : Char × Bool) (m : Marked) : veiled (x :: m) = veil x ++ veiled m :=
  List.flatMap_cons

theorem veiled_singleton (x : Char × Bool) : veiled [x] = veil x := List.append_nil _

@[simp] theorem veil_false (c : Char) : veil (c, false) = [c] := by simp [veil]

/-- In a comment a character gives way to blanks, of which there is at least one. -/
theorem veil_true (c : Char) : veil (c, true) = ['\n'] ∨
    ∃ k, k + 1 = c.utf8Size ∧ veil (c, true) = List.replicate (k + 1) ' ' := by
  by_cases hc : c = '\n'
  · simp [veil, hc]
  · refine Or.inr ⟨c.utf8Size - 1, ?_, ?_⟩
    · have := Char.utf8Size_pos c
      omega
    · have := Char.utf8Size_pos c
      rw [veil, if_pos ⟨rfl, hc⟩, Nat.sub_add_cancel this]

theorem mem_veil_true {c d : Char} (h : d ∈ veil (c, true)) : d = ' ' ∨ d = '\n' := by
  rcases veil_true c with hc | ⟨k, _, hc⟩
  · rw [hc] at h
    exact Or.inr (List.mem_singleton.mp h)
  · rw [hc] at h
    exact Or.inl (List.eq_of_mem_replicate h)

theorem veil_ne_nil (x : Char × Bool) : veil x ≠ [] := by
  obtain ⟨c, hidden⟩ := x
  cases hidden with
  | false => simp
  | true =>
    rcases veil_true c with h | ⟨k, _, h⟩
    · simp [h]
    · simp [h]

theorem bytes_replicate (k : Nat) : Text.bytes (List.replicate k ' ') = k := by
  induction k with
  | zero => rfl
  | succ k ih =>
    rw [List.replicate_succ, Text.bytes, ih]
    exact Nat.add_comm 1 k

/-- Each character gives way to as many bytes as it has. -/
theorem bytes_veiled (m : Marked) : (veiled m).bytes = (plain m).bytes := by
  induction m with
  | nil => rfl
  | cons x m ih =>
    rw [veiled_cons, Text.bytes_append, ih]
    change _ = x.1.utf8Size + (plain m).bytes
    congr 1
    unfold veil
    split
    · exact bytes_replicate _
    · rfl

theorem Unmarked.veiled_eq (h : Unmarked m) : veiled m = plain m := by
  induction m with
  | nil => rfl
  | cons x m ih =>
    obtain ⟨c, hidden⟩ := x
    have hx : hidden = false := h (c, hidden) List.mem_cons_self
    rw [veiled_cons, ih fun x hx => h x (List.mem_cons_of_mem _ hx), hx, veil_false]
    rfl

/-- What is not blank stands outside of comments. -/
theorem exists_of_veiled_cons {rest : Text} (h : veiled m = c :: rest) (hblank : c ≠ ' ')
    (hline : c ≠ '\n') : ∃ m', m = (c, false) :: m' ∧ veiled m' = rest := by
  cases m with
  | nil => cases h
  | cons x m' =>
    obtain ⟨d, hidden⟩ := x
    rw [veiled_cons] at h
    cases hidden with
    | false =>
      rw [veil_false] at h
      obtain ⟨rfl, hrest⟩ := List.cons.inj h
      exact ⟨m', rfl, hrest⟩
    | true =>
      rcases veil_true d with hd | ⟨k, _, hd⟩
      · rw [hd] at h
        exact absurd (List.cons.inj h).1.symm hline
      · rw [hd, List.replicate_succ] at h
        exact absurd (List.cons.inj h).1.symm hblank

theorem exists_of_veiled_append {word rest : Text} (h : veiled m = word ++ rest)
    (hblank : ' ' ∉ word) (hline : '\n' ∉ word) :
    ∃ front back, m = front ++ back ∧ Unmarked front ∧ plain front = word ∧
      veiled back = rest := by
  induction word generalizing m with
  | nil => exact ⟨[], m, rfl, by simp [Unmarked], rfl, h⟩
  | cons c word ih =>
    rw [List.mem_cons, not_or] at hblank hline
    obtain ⟨m', rfl, hm'⟩ := exists_of_veiled_cons h (Ne.symm hblank.1) (Ne.symm hline.1)
    obtain ⟨front, back, rfl, hfront, hword, hback⟩ := ih hm' hblank.2 hline.2
    refine ⟨(c, false) :: front, back, rfl, ?_, ?_, hback⟩
    · intro x hx
      rcases List.mem_cons.mp hx with rfl | hx
      · rfl
      · exact hfront x hx
    · rw [← hword]
      rfl

end

theorem plain_markedFrom (spans : List Span) (i : Nat) (text : Text) :
    plain (markedFrom spans i text) = text := by
  induction text generalizing i with
  | nil => rfl
  | cons c rest ih =>
    rw [markedFrom]
    exact congrArg (c :: ·) (ih (i + 1))

theorem plain_marked (text : Text) : plain (marked text) = text := plain_markedFrom _ 0 text

theorem covers_cons {s : Span} {spans : List Span} {i : Nat} :
    covers (s :: spans) i = true ↔ (s.start ≤ i ∧ i < s.stop) ∨ covers spans i = true := by
  simp [covers]

/-- A span in front of a text marks nothing in it. -/
theorem markedFrom_cons {s : Span} {spans : List Span} {i : Nat} (h : s.stop ≤ i) (text : Text) :
    markedFrom (s :: spans) i text = markedFrom spans i text := by
  induction text generalizing i with
  | nil => rfl
  | cons c rest ih =>
    have hcovers : covers (s :: spans) i = covers spans i := by
      rw [Bool.eq_iff_iff, covers_cons, or_iff_right]
      omega
    rw [markedFrom, markedFrom, hcovers, ih (Nat.le_succ_of_le h)]

/-! Which marks the scanner of comments sets. -/

/-- Where a scanner is that has set the marks of a text. -/
inductive Place where
  | code
  | quoted (quote : Char)
  | comment

/-- Marks as a scanner sets them from the given place on: comments open with a slash and outside of
strings, and no comment opens with characters that are not marked. -/
inductive Scanned : Place → Marked → Prop where
  | nil (place : Place) : Scanned place []
  | opens {m : Marked} : Scanned .comment m → Scanned .code (('/', true) :: m)
  | within (c : Char) {m : Marked} : Scanned .comment m → Scanned .comment ((c, true) :: m)
  | closes {m : Marked} : Scanned .code m → Scanned .comment m
  | code {c : Char} {m : Marked} : isQuote c = false →
      (c = '/' → ∀ d rest, m = (d, false) :: rest → d ≠ '/' ∧ d ≠ '*') → Scanned .code m →
      Scanned .code ((c, false) :: m)
  | quote {c : Char} {m : Marked} : isQuote c = true → Scanned (.quoted c) m →
      Scanned .code ((c, false) :: m)
  | escape {q : Char} (c : Char) {m : Marked} : Scanned (.quoted q) m →
      Scanned (.quoted q) (('\\', false) :: (c, false) :: m)
  | inside {q c : Char} {m : Marked} : (c = '\\' → m = []) → c ≠ q → Scanned (.quoted q) m →
      Scanned (.quoted q) ((c, false) :: m)
  | unquote {q : Char} {m : Marked} : (q = '\\' → m = []) → Scanned .code m →
      Scanned (.quoted q) ((q, false) :: m)

def Mode.place : Mode → Place
  | .code => .code
  | .quoted q => .quoted q
  | .lineComment _ | .blockComment _ => .comment

/-- Where the comment started that the scanner is in, or where the next one can start. -/
def Mode.bound (i : Nat) : Mode → Nat
  | .code | .quoted _ => i
  | .lineComment start | .blockComment start => start

@[simp] theorem bound_ite_quoted (i : Nat) (P : Prop) [Decidable P] (q : Char) :
    (if P then Mode.quoted q else .code).bound i = i := by
  split <;> rfl

@[simp] theorem bound_ite_code (i : Nat) (P : Prop) [Decidable P] (q : Char) :
    (if P then Mode.code else .quoted q).bound i = i := by
  split <;> rfl

/-- Of what the scanner has read already, it covers the comment that it is in. -/
theorem covers_commentsFrom {i k : Nat} {mode : Mode} {text : Text} (hmode : mode.bound i ≤ i)
    (hk : k < i) : covers (commentsFrom i mode text) k = true ↔ mode.bound i ≤ k := by
  fun_induction commentsFrom i mode text with
  | case1 i | case2 i q => simp [covers, Mode.bound, hk]
  | case3 i start | case4 i start => simp [covers, Mode.bound, hk]
  | case5 i rest ih | case6 i rest ih => exact ih (Nat.le_add_right i 2) (by omega)
  | case7 i c rest _ _ ih =>
    rw [ih (by simp) (by omega), bound_ite_quoted, Mode.bound]
    omega
  | case8 i q e rest ih =>
    rw [ih (Nat.le_refl _) (by omega), Mode.bound, Mode.bound]
    omega
  | case9 i q c rest _ ih =>
    rw [ih (by simp) (by omega), bound_ite_code, Mode.bound]
    omega
  | case10 i start rest ih =>
    rw [covers_cons, ih (Nat.le_refl _) (by omega)]
    simp only [Mode.bound]
    omega
  | case11 i start c rest _ ih => exact ih (Nat.le_succ_of_le hmode) (by omega)
  | case12 i start rest ih =>
    rw [covers_cons, ih (Nat.le_refl _) (by omega)]
    simp only [Mode.bound]
    omega
  | case13 i start c rest _ ih => exact ih (Nat.le_succ_of_le hmode) (by omega)

theorem covers_of_bound_le {i k : Nat} {mode : Mode} (text : Text) (hmode : mode.bound i ≤ k)
    (hk : k < i) : covers (commentsFrom i mode text) k = true :=
  (covers_commentsFrom (Nat.le_trans hmode (Nat.le_of_lt hk)) hk).mpr hmode

theorem covers_of_lt_bound {i k : Nat} {mode : Mode} (text : Text) (hmode : mode.bound i = i)
    (hk : k < i) : covers (commentsFrom i mode text) k = false := by
  rw [Bool.eq_false_iff, ne_eq, covers_commentsFrom (Nat.le_of_eq hmode) hk, hmode]
  exact Nat.not_le.mpr hk

/-- The comments that a scanner finds are marked as it goes. -/
theorem scanned_markedFrom {i : Nat} {mode : Mode} {text : Text} (hmode : mode.bound i ≤ i) :
    Scanned mode.place (markedFrom (commentsFrom i mode text) i text) := by
  fun_induction commentsFrom i mode text with
  | case1 | case2 | case3 | case4 => exact .nil _
  | case5 i rest ih | case6 i rest ih =>
    rw [markedFrom, markedFrom, covers_of_bound_le rest (Nat.le_refl i) (by omega),
      covers_of_bound_le rest (Nat.le_succ i) (by omega)]
    exact .opens (.within _ (ih (Nat.le_add_right i 2)))
  | case7 i c rest hline hblock ih =>
    rw [markedFrom, covers_of_lt_bound rest (by simp) (Nat.lt_succ_self i)]
    have hrest := ih (by simp)
    by_cases hquote : isQuote c = true
    · simp only [if_pos hquote] at hrest ⊢
      exact .quote hquote hrest
    · simp only [if_neg hquote] at hrest ⊢
      refine .code (Bool.eq_false_iff.mpr hquote) ?_ hrest
      intro hc d more hmore
      have hplain : rest = d :: plain more := by
        rw [← plain_markedFrom (commentsFrom (i + 1) .code rest) (i + 1) rest, hmore]
        rfl
      refine ⟨?_, ?_⟩
      · rintro rfl
        exact hline _ hc hplain
      · rintro rfl
        exact hblock _ hc hplain
  | case8 i q e rest ih =>
    rw [markedFrom, markedFrom, covers_of_lt_bound rest rfl (by omega),
      covers_of_lt_bound rest rfl (by omega)]
    exact .escape e (ih (Nat.le_refl _))
  | case9 i q c rest hescape ih =>
    rw [markedFrom, covers_of_lt_bound rest (by simp) (Nat.lt_succ_self i)]
    have hrest := ih (by simp)
    have hlast : ∀ spans, c = '\\' → markedFrom spans (i + 1) rest = [] := by
      intro spans hc
      cases rest with
      | nil => rfl
      | cons e more => exact (hescape e more hc rfl).elim
    by_cases hquote : c = q
    · subst hquote
      simp only [if_pos] at hrest ⊢
      exact .unquote (hlast _) hrest
    · simp only [if_neg hquote] at hrest ⊢
      exact .inside (hlast _) hquote hrest
  | case10 i start rest ih =>
    have hhere : covers (⟨start, i⟩ :: commentsFrom (i + 1) .code rest) i = false := by
      have hlater := @covers_of_lt_bound (i + 1) i .code rest rfl (Nat.lt_succ_self i)
      rw [Bool.eq_false_iff, ne_eq, covers_cons, hlater]
      simp
    rw [markedFrom, hhere, markedFrom_cons (Nat.le_succ i)]
    exact .closes (.code (by decide) (by simp) (ih (Nat.le_refl _)))
  | case12 i start rest ih =>
    rw [Mode.bound] at hmode
    have hboth : ∀ k, i ≤ k → k < i + 2 →
        covers (⟨start, i + 2⟩ :: commentsFrom (i + 2) .code rest) k = true := by
      intro k hle hlt
      exact covers_cons.mpr (Or.inl ⟨Nat.le_trans hmode hle, hlt⟩)
    rw [markedFrom, markedFrom, hboth i (by omega) (by omega), hboth (i + 1) (by omega) (by omega),
      markedFrom_cons (Nat.le_refl _)]
    exact .within _ (.within _ (.closes (ih (Nat.le_refl _))))
  | case11 i start c rest _ ih | case13 i start c rest _ ih =>
    rw [Mode.bound] at hmode
    rw [markedFrom, covers_of_bound_le rest (by rwa [Mode.bound]) (Nat.lt_succ_self i)]
    exact .within c (ih (Nat.le_succ_of_le hmode))

/-! No comment is left. -/

theorem commentsFrom_code_cons (i : Nat) {c : Char} {rest : Text}
    (h : c = '/' → ∀ d more, rest = d :: more → d ≠ '/' ∧ d ≠ '*') :
    commentsFrom i .code (c :: rest) =
      commentsFrom (i + 1) (if isQuote c then .quoted c else .code) rest := by
  rw [commentsFrom]
  · rintro more hc rfl
    exact (h hc '/' more rfl).1 rfl
  · rintro more hc rfl
    exact (h hc '*' more rfl).2 rfl

theorem commentsFrom_quoted_cons (i : Nat) {q c : Char} {rest : Text} (h : c = '\\' → rest = []) :
    commentsFrom i (.quoted q) (c :: rest) =
      commentsFrom (i + 1) (if c = q then .code else .quoted q) rest := by
  rw [commentsFrom]
  rintro e more hc rfl
  cases h hc

theorem commentsFrom_blanks (i k : Nat) (rest : Text) :
    commentsFrom i .code (List.replicate k ' ' ++ rest) = commentsFrom (i + k) .code rest := by
  induction k generalizing i with
  | zero => rfl
  | succ k ih =>
    rw [List.replicate_succ, List.cons_append, commentsFrom_code_cons i (by simp),
      if_neg (by decide), ih, Nat.add_assoc, Nat.add_comm 1 k]

def Place.mode : Place → Mode
  | .code | .comment => .code
  | .quoted q => .quoted q

/-- What takes the place of comments is code, and has no comment in it. -/
theorem Scanned.commentsFrom_veiled {place : Place} {m : Marked} (h : Scanned place m) (i : Nat) :
    commentsFrom i place.mode (veiled m) = [] := by
  induction h generalizing i with
  | nil place => cases place <;> rfl
  | @opens m _ ih => exact (commentsFrom_blanks i 1 (veiled m)).trans (ih (i + 1))
  | @within c m _ ih =>
    rw [veiled_cons]
    rcases veil_true c with hc | ⟨k, _, hc⟩
    · rw [hc]
      exact (commentsFrom_code_cons i (by simp)).trans (ih (i + 1))
    · rw [hc]
      exact (commentsFrom_blanks i (k + 1) (veiled m)).trans (ih (i + (k + 1)))
  | closes _ ih => exact ih i
  | @code c m hquote hopen _ ih =>
    rw [veiled_cons, veil_false, List.singleton_append]
    refine (commentsFrom_code_cons i ?_).trans ?_
    · intro hc d more hmore
      by_contra hslash
      rw [← or_iff_not_and_not] at hslash
      obtain ⟨rest, rfl, -⟩ := exists_of_veiled_cons hmore (by rintro rfl; simp at hslash)
        (by rintro rfl; simp at hslash)
      have := hopen hc d rest rfl
      tauto
    · rw [hquote, if_neg Bool.false_ne_true]
      exact ih (i + 1)
  | @quote c m hquote _ ih =>
    rw [veiled_cons, veil_false, List.singleton_append]
    refine (commentsFrom_code_cons i ?_).trans ?_
    · rintro rfl
      cases hquote
    · rw [if_pos hquote]
      exact ih (i + 1)
  | @escape q c m _ ih =>
    rw [veiled_cons, veiled_cons, veil_false, veil_false]
    exact ih (i + 2)
  | @inside q c m hescape hne _ ih =>
    rw [veiled_cons, veil_false, List.singleton_append]
    refine (commentsFrom_quoted_cons i fun hc => by rw [hescape hc]; rfl).trans ?_
    rw [if_neg hne]
    exact ih (i + 1)
  | @unquote q m hescape _ ih =>
    rw [veiled_cons, veil_false, List.singleton_append]
    refine (commentsFrom_quoted_cons i fun hc => by rw [hescape hc]; rfl).trans ?_
    rw [if_pos rfl]
    exact ih (i + 1)

theorem scanned_marked (text : Text) : Scanned .code (marked text) :=
  @scanned_markedFrom 0 .code text (Nat.le_refl 0)

theorem comments_blanked (text : Text) : comments (blanked text) = [] :=
  (scanned_marked text).commentsFrom_veiled 0

/-! Comments open with a slash. -/

/-- What follows on a character outside of comments is outside of comments, or a slash. -/
def Opens (x y : Char × Bool) : Prop := x.2 = false → y.2 = true → y.1 = '/'

theorem Scanned.opens_cons {place : Place} {m : Marked} (h : Scanned place m)
    (hplace : place ≠ .comment) (x : Char × Bool) : ∀ y ∈ m.head?, Opens x y := by
  intro y hy _ hhidden
  cases h with
  | nil => cases hy
  | opens => exact (Option.some.inj hy) ▸ rfl
  | within | closes => exact absurd rfl hplace
  | code | quote | escape | inside | unquote =>
    rw [← Option.some.inj hy] at hhidden
    cases hhidden

theorem Scanned.isChain_opens {place : Place} {m : Marked} (h : Scanned place m) :
    m.IsChain Opens := by
  induction h with
  | nil => exact .nil
  | opens _ ih | within c _ ih =>
    refine List.isChain_cons.mpr ⟨?_, ih⟩
    intro y _ hshown
    cases hshown
  | closes _ ih => exact ih
  | code _ _ h ih | quote _ h ih | inside _ _ h ih | unquote _ h ih =>
    exact List.isChain_cons.mpr ⟨h.opens_cons (by simp) _, ih⟩
  | escape c h ih =>
    refine List.isChain_cons_cons.mpr ⟨?_, List.isChain_cons.mpr ⟨h.opens_cons (by simp) _, ih⟩⟩
    intro _ hhidden
    cases hhidden

/-- A stretch without slashes that starts outside of comments is outside of comments. -/
theorem exists_of_plain_append {m : Marked} {word rest : Text} (h : m.IsChain Opens)
    (hfirst : ∀ x ∈ m.head?, x.2 = true → x.1 ∉ word) (hm : plain m = word ++ rest)
    (hslash : '/' ∉ word) :
    ∃ front back, m = front ++ back ∧ Unmarked front ∧ plain front = word ∧ plain back = rest := by
  induction word generalizing m with
  | nil => exact ⟨[], m, rfl, by simp [Unmarked], rfl, hm⟩
  | cons c word ih =>
    cases m with
    | nil => cases hm
    | cons x m' =>
      obtain ⟨d, hidden⟩ := x
      obtain ⟨rfl, hm'⟩ := List.cons.inj hm
      have hshown : hidden = false := by
        rw [Bool.eq_false_iff]
        intro hhidden
        exact hfirst _ rfl hhidden List.mem_cons_self
      subst hshown
      obtain ⟨hnext, hchain⟩ := List.isChain_cons.mp h
      rw [List.mem_cons, not_or] at hslash
      have hfirst' : ∀ y ∈ m'.head?, y.2 = true → y.1 ∉ word := by
        intro y hy hhidden
        rw [hnext y hy rfl hhidden]
        exact hslash.2
      obtain ⟨front, back, rfl, hfront, hword, hback⟩ := ih hchain hfirst' hm' hslash.2
      refine ⟨(d, false) :: front, back, rfl, ?_, congrArg (d :: ·) hword, hback⟩
      intro x hx
      rcases List.mem_cons.mp hx with rfl | hx
      · rfl
      · exact hfront x hx

end Polyglot.Extraction.Protovalidate
