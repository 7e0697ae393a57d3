import Polyglot.Proofs.CommentedOptions

/-!
Literals of texts with comments. Main statement: if comments are not in the way of options, the
literals of a text stand outside of comments, and the same literals are found when the comments give
way to blanks.
-/
namespace Polyglot.Extraction.Protovalidate

open Pattern (Span)

/-! Heads outside of comments. -/

/-- Wherever an option starts if comments give way to blanks, no comment stands in its head, and
comments are not in the way of its body. -/
def Unobtrusive (m : Marked) : Prop :=
  ∀ a b text, m = a ++ b → afterHead? (veiled b) = some text →
    ∃ head body, b = head ++ body ∧ Unmarked head ∧ veiled body = text ∧ Undisturbed body

/-- A head without a comment in it is a head in the text itself. -/
theorem afterHead?_plain {head body : Marked} (hhead : Unmarked head)
    (h : afterHead? (veiled (head ++ body)) = some (veiled body)) :
    afterHead? (plain (head ++ body)) = some (plain body) := by
  obtain ⟨tail, htext, -, hlocal⟩ := exists_head h
  rw [veiled_append, hhead.veiled_eq, ← List.cons_append, List.append_cancel_right_eq] at htext
  rw [plain_append, htext]
  exact hlocal (plain body)

/-- A head that starts outside of comments is outside of comments. -/
theorem afterHead?_veiled {m : Marked} (hchain : m.IsChain Opens)
    (hshown : ∀ x ∈ m.head?, x.2 = false) {text : Text} (h : afterHead? (plain m) = some text) :
    ∃ head body, m = head ++ body ∧ Unmarked head ∧ plain body = text ∧
      afterHead? (veiled m) = some (veiled body) := by
  obtain ⟨tail, htext, htest, hlocal⟩ := exists_head h
  have hslash : '/' ∉ '(' :: tail := by
    rw [List.mem_cons, not_or]
    exact ⟨by decide, fun hmem => absurd (htest _ hmem) (by decide)⟩
  have hfirst : ∀ x ∈ m.head?, x.2 = true → x.1 ∉ '(' :: tail := by
    intro x hx hhidden
    rw [hshown x hx] at hhidden
    cases hhidden
  obtain ⟨head, body, rfl, hhead, hplain, hbody⟩ :=
    exists_of_plain_append hchain hfirst htext hslash
  refine ⟨head, body, rfl, hhead, hbody, ?_⟩
  rw [veiled_append, hhead.veiled_eq, hplain]
  exact hlocal (veiled body)

/-- The heads that start outside of comments are the same when comments give way to blanks. -/
theorem Unobtrusive.head_cases {m a b : Marked} (h : Unobtrusive m) (hchain : m.IsChain Opens)
    (hm : m = a ++ b) (hshown : ∀ x ∈ b.head?, x.2 = false) :
    (afterHead? (plain b) = none ∧ afterHead? (veiled b) = none) ∨
      ∃ head body, b = head ++ body ∧ afterHead? (plain b) = some (plain body) ∧
        afterHead? (veiled b) = some (veiled body) ∧ Undisturbed body := by
  have hchain' : b.IsChain Opens := (hm ▸ hchain).right_of_append
  cases hveiled : afterHead? (veiled b) with
  | none =>
    refine Or.inl ⟨?_, rfl⟩
    rw [Option.eq_none_iff_forall_ne_some]
    intro text htext
    obtain ⟨_, _, _, _, _, hsome⟩ := afterHead?_veiled hchain' hshown htext
    rw [hveiled] at hsome
    cases hsome
  | some text =>
    obtain ⟨head, body, rfl, hhead, rfl, hbody⟩ := h a b text hm hveiled
    exact Or.inr ⟨head, body, rfl, afterHead?_plain hhead hveiled, rfl, hbody⟩

theorem covers_of_markedFrom {spans : List Span} {i k : Nat} {text : Text} {x : Char × Bool}
    (h : (markedFrom spans i text)[k]? = some x) : covers spans (i + k) = x.2 := by
  induction text generalizing i k with
  | nil => cases h
  | cons c rest ih =>
    cases k with
    | zero => rw [← Option.some.inj h, Nat.add_zero]
    | succ k =>
      rw [Nat.add_comm k, ← Nat.add_assoc]
      exact ih h

theorem covers_of_marked {text : Text} {i : Nat} {x : Char × Bool}
    (h : (marked text)[i]? = some x) : covers (comments text) i = x.2 := by
  have hcovers := covers_of_markedFrom h
  rwa [Nat.zero_add] at hcovers

/-! All options of a text. -/

/-- What is found behind a head, in the text and when comments give way to blanks. -/
theorem literalOf?_split (a body : Marked) (i : Nat) :
    literalOf? (plain (a ++ body)) ⟨i, a.length⟩ =
        (bodyLiteral? (plain body)).map (Literal.shift a.length) ∧
      literalOf? (veiled (a ++ body)) ⟨i, (veiled a).length⟩ =
        (bodyLiteral? (veiled body)).map (Literal.shift (veiled a).length) := by
  rw [literalOf?_eq, literalOf?_eq, plain_append, veiled_append, List.drop_left]
  refine ⟨?_, rfl⟩
  dsimp only
  rw [← length_plain a, List.drop_left]

/-- An option that is not disturbed has the same literal when comments give way to blanks. -/
theorem literalOf?_blanked {text : Text} {a body : Marked} (hm : marked text = a ++ body)
    (hbody : Undisturbed body) (i j : Nat) :
    literalOf? (blanked text) ⟨j, (veiled a).length⟩ =
        (literalOf? text ⟨i, a.length⟩).map (Literal.moved (marked text)) ∧
      ∀ l, literalOf? text ⟨i, a.length⟩ = some l →
        Unmarked (((marked text).take l.contents.stop).drop l.contents.start) := by
  obtain ⟨hread, hclear⟩ := hbody.bodyLiteral?_veiled
  have hof := (literalOf?_split a body i).1
  have hof' := (literalOf?_split a body j).2
  rw [← hm, plain_marked] at hof
  rw [← hm] at hof'
  rw [blanked, hof, hof', hread, Option.map_map, Option.map_map, hm]
  refine ⟨?_, ?_⟩
  · congr 1
    funext l
    exact (moved_shift a body l).symm
  · intro l hl
    obtain ⟨l, hliteral, rfl⟩ := Option.map_eq_some_iff.mp hl
    rw [Literal.shift]
    dsimp only
    rw [List.take_length_add_append, ← List.drop_drop, List.drop_left]
    exact hclear l hliteral

theorem paren_not_mem_veil (c : Char) : '(' ∉ veil (c, true) := by
  intro hmem
  rcases mem_veil_true hmem with heq | heq <;> cases heq

/-- Whatever is read from a part of a text on: the literals of options that are not in a comment are
the same when comments give way to blanks, and stand outside of comments. -/
theorem literals_from {text : Text} (h : Unobtrusive (marked text)) {a b : Marked}
    (hm : marked text = a ++ b) :
    (headsFrom (veiled a).length 0 (veiled b)).filterMap (literalOf? (blanked text)) =
        (((headsFrom a.length 0 (plain b)).filter fun s =>
          !covers (comments text) s.start).filterMap (literalOf? text)).map
            (Literal.moved (marked text)) ∧
      ∀ l ∈ ((headsFrom a.length 0 (plain b)).filter fun s =>
          !covers (comments text) s.start).filterMap (literalOf? text),
        Unmarked (((marked text).take l.contents.stop).drop l.contents.start) := by
  have hchain := (scanned_marked text).isChain_opens
  induction b generalizing a with
  | nil => exact ⟨rfl, by simp [headsFrom, plain]⟩
  | cons x b ih =>
    obtain ⟨c, hidden⟩ := x
    have hcovers : covers (comments text) a.length = hidden :=
      covers_of_marked (x := (c, hidden)) (by rw [hm]; simp)
    obtain ⟨hsame, hunmarked⟩ := @ih (a ++ [(c, hidden)]) (by rw [hm, List.append_assoc]; rfl)
    rw [List.length_append, List.length_singleton] at hsame hunmarked
    rw [veiled_append, veiled_singleton, List.length_append] at hsame
    rw [plain_cons, headsFrom_cons, List.filter_append, List.filterMap_append]
    cases hidden with
    | true =>
      -- a head that starts in a comment does not count
      have hnone : ((afterHead? (c :: plain b)).toList.map fun body => (⟨a.length, a.length +
          ((plain b).length + 1 - body.length)⟩ : Span)).filter
            (fun s => !covers (comments text) s.start) = [] := by
        rw [List.filter_eq_nil_iff]
        intro s hs
        obtain ⟨body, _, rfl⟩ := List.mem_map.mp hs
        simp [hcovers]
      rw [hnone, List.filterMap_nil, List.nil_append, veiled_cons,
        headsFrom_append (paren_not_mem_veil c)]
      exact ⟨hsame, hunmarked⟩
    | false =>
      rw [veil_false, List.length_singleton] at hsame
      have hcases := h.head_cases hchain hm (by rintro _ ⟨⟩; rfl)
      rw [plain_cons, veiled_cons, veil_false, List.singleton_append] at hcases
      rw [veiled_cons, veil_false, List.singleton_append, headsFrom_cons, List.filterMap_append,
        hsame, List.map_append]
      rcases hcases with ⟨hplain, hveiled⟩ | ⟨head, body, hb, hplain, hveiled, hbody⟩
      · rw [hplain, hveiled]
        exact ⟨rfl, hunmarked⟩
      · have hsplit : marked text = (a ++ head) ++ body := by rw [hm, hb, List.append_assoc]
        have hspan : a.length + ((plain b).length + 1 - (plain body).length) =
            (a ++ head).length := by
          have hlength := congrArg List.length hb
          simp only [List.length_cons, List.length_append, length_plain] at hlength ⊢
          omega
        have hspan' : (veiled a).length + ((veiled b).length + 1 - (veiled body).length) =
            (veiled (a ++ head)).length := by
          have hlength := congrArg (fun m => (veiled m).length) hb
          simp only [veiled_cons, veil_false, veiled_append, List.length_append,
            List.length_singleton] at hlength ⊢
          omega
        obtain ⟨hread, hclear⟩ := literalOf?_blanked hsplit hbody a.length (veiled a).length
        rw [hplain, hveiled]
        simp only [Option.toList_some, List.map_cons, List.map_nil, hspan, hspan',
          List.filter_cons, hcovers, Bool.not_false, if_true, List.filter_nil,
          List.filterMap_cons, List.filterMap_nil, hread]
        cases hliteral : literalOf? text ⟨a.length, (a ++ head).length⟩ with
        | none => exact ⟨rfl, hunmarked⟩
        | some l =>
          refine ⟨rfl, ?_⟩
          intro l' hl'
          rcases List.mem_cons.mp hl' with rfl | hl'
          · exact hclear _ hliteral
          · exact hunmarked l' hl'

theorem dropRepeats_map {f : Literal → Literal} {ls : List Literal}
    (h : ∀ a ∈ ls, ∀ b ∈ ls,
      ((f a).contents.start = (f b).contents.start ↔ a.contents.start = b.contents.start)) :
    dropRepeats (ls.map f) = (dropRepeats ls).map f := by
  fun_induction dropRepeats ls with
  | case1 a b rest heq ih =>
    rw [List.map_cons, List.map_cons, dropRepeats, if_pos ((h a (by simp) b (by simp)).mpr heq)]
    refine ih ?_
    intro x hx y hy
    refine h x ?_ y ?_
    · rcases List.mem_cons.mp hx with rfl | hx <;> simp [*]
    · rcases List.mem_cons.mp hy with rfl | hy <;> simp [*]
  | case2 a b rest hne ih =>
    rw [List.map_cons, List.map_cons, dropRepeats,
      if_neg fun heq => hne ((h a (by simp) b (by simp)).mp heq), List.map_cons]
    refine congrArg (f a :: ·) (ih ?_)
    intro x hx y hy
    exact h x (List.mem_cons_of_mem a hx) y (List.mem_cons_of_mem a hy)
  | case3 ls hshort =>
    cases ls with
    | nil => exact dropRepeats_eq_self List.Pairwise.nil
    | cons a rest =>
      cases rest with
      | nil => exact dropRepeats_eq_self (List.pairwise_singleton _ _)
      | cons b rest => exact (hshort a b rest rfl).elim

/-- A literal with its place counted in bytes. -/
def Literal.inBytes (text : Text) (l : Literal) : Literal :=
  ⟨⟨Text.bytes (text.take l.contents.start), Text.bytes (text.take l.contents.stop)⟩, l.decoded⟩

theorem inBytes_moved (m : Marked) (l : Literal) :
    (l.moved m).inBytes (veiled m) = l.inBytes (plain m) := by
  have hbytes : ∀ n,
      Text.bytes ((veiled m).take (movedTo m n)) = Text.bytes ((plain m).take n) := by
    intro n
    have htake : (veiled m).take (movedTo m n) = veiled (m.take n) := by
      have hsplit := congrArg veiled (List.take_append_drop n m)
      rw [veiled_append] at hsplit
      rw [← hsplit, movedTo, List.take_left]
    rw [htake, bytes_veiled, plain, plain, List.map_take]
  simp only [Literal.inBytes, Literal.moved, hbytes]

/-- The literals of options that are not in a comment, in the order of their heads. -/
def foundLiterals (text : Text) : List Literal := (liveHeads text).filterMap (literalOf? text)

theorem literals_eq (text : Text) : literals text =
    dropRepeats ((foundLiterals text).mergeSort fun a b => a.contents.start ≤ b.contents.start) :=
  rfl

theorem start_le_of_mem_foundLiterals {text : Text} {l : Literal} (h : l ∈ foundLiterals text) :
    l.contents.start ≤ (marked text).length := by
  obtain ⟨head, _, hread⟩ := List.mem_filterMap.mp h
  obtain ⟨_, _, _, _, _, hstands⟩ := stands_of_literalOf? hread
  have hstop := hstands.stop_eq
  have hlt := hstands.stop_lt
  rw [← length_plain, plain_marked]
  omega

theorem foundLiterals_blanked {text : Text} (h : Unobtrusive (marked text)) :
    foundLiterals (blanked text) = (foundLiterals text).map (Literal.moved (marked text)) := by
  have hall := (@literals_from text h [] (marked text) rfl).1
  rw [plain_marked] at hall
  have hlive : liveHeads (blanked text) = heads (blanked text) := by
    rw [liveHeads, comments_blanked]
    exact List.filter_eq_self.mpr fun s _ => rfl
  rw [foundLiterals, hlive]
  exact hall

/-- Order and repetitions are the same when comments give way to blanks. -/
theorem literals_blanked {text : Text} (h : Unobtrusive (marked text)) :
    literals (blanked text) = (literals text).map (Literal.moved (marked text)) := by
  have horder : ∀ a ∈ foundLiterals text, ∀ b : Literal,
      ((a.moved (marked text)).contents.start ≤ (b.moved (marked text)).contents.start ↔
        a.contents.start ≤ b.contents.start) := by
    intro a ha b
    exact movedTo_le_iff (start_le_of_mem_foundLiterals ha)
  rw [literals_eq, literals_eq, foundLiterals_blanked h, ← List.map_mergeSort, dropRepeats_map]
  · intro a ha b hb
    rw [List.mem_mergeSort] at ha hb
    have hab := horder a ha b
    have hba := horder b hb a
    omega
  · intro a ha b _
    exact decide_eq_decide.mpr (horder a ha b).symm

/-- If comments are not in the way of options, the same literals are found at the same bytes when
comments give way to blanks, and no literal has a character in a comment. -/
theorem comments_transparent {text : Text} (h : Unobtrusive (marked text)) :
    (literals (blanked text)).map (Literal.inBytes (blanked text)) =
        (literals text).map (Literal.inBytes text) ∧
      ∀ l ∈ literals text, ∀ i, l.contents.start ≤ i → i < l.contents.stop →
        covers (comments text) i = false := by
  refine ⟨?_, ?_⟩
  · rw [literals_blanked h, List.map_map]
    refine List.map_congr_left fun l _ => ?_
    rw [Function.comp_apply, blanked, inBytes_moved, plain_marked]
  · intro l hl i hstart hstop
    have hfound : l ∈ foundLiterals text := by
      rw [literals_eq] at hl
      exact List.mem_mergeSort.mp (mem_of_mem_dropRepeats hl)
    have hall := (@literals_from text h [] (marked text) rfl).2
    rw [plain_marked] at hall
    have hclear := hall l hfound
    obtain ⟨_, _, _, _, _, hstands⟩ := stands_of_mem_literals hl
    have hlt : i < (marked text).length := by
      have := hstands.stop_lt
      rw [← length_plain, plain_marked]
      omega
    have hx := List.getElem?_eq_getElem hlt
    rw [covers_of_marked hx]
    refine hclear _ (List.mem_of_getElem? (i := i - l.contents.start) ?_)
    rw [List.getElem?_drop, Nat.add_sub_cancel' hstart, List.getElem?_take_of_lt hstop, hx]

/-! Comments around an option and in it. -/

/-- An option with a comment in its body, and a quote in a comment behind it. -/
def commentedText : Text :=
  "(buf.validate.field).cel=\x7b/*expression*/expression:\"c\"\x7d//'".toList

/-- The body of the option, with what stands behind it. -/
def commentedBody : Marked := (marked commentedText).drop 26

/-- The only places where a test is passed. -/
theorem mem_of_all_range {test : Nat → Bool} {bound n : Nat} {places : List Nat}
    (h : (List.range bound).all (fun n => !test n || places.contains n) = true) (hn : n < bound)
    (htest : test n = true) : n ∈ places := by
  have hplace := List.all_eq_true.mp h n (List.mem_range.mpr hn)
  simpa [htest] using hplace

/-- The word in the comment is not part of a key, and the word behind it is. -/
theorem keyClear_commentedBody {n : Nat} (h : n ∈ [2, 14]) : KeyClear (commentedBody.drop n) := by
  intro _
  rcases List.mem_pair.mp h with rfl | rfl
  · exact Or.inl ⟨by decide +kernel, 'e', commentedBody.drop 3, by decide +kernel⟩
  · refine Or.inr ⟨(commentedBody.drop 14).take 14, (commentedBody.drop 14).drop 14,
      (List.take_append_drop ..).symm, ?_, ?_⟩
    · have hall : ((commentedBody.drop 14).take 14).all (fun x => !x.2) = true := by
        decide +kernel
      intro x hx
      simpa using List.all_eq_true.mp hall x hx
    · exact Or.inr (@settles_readKey? _ 11 (1, ['c']) (by decide +kernel))

theorem undisturbed_commentedBody : Undisturbed commentedBody := by
  refine ⟨commentedBody.take 29, commentedBody.drop 29, (List.take_append_drop ..).symm,
    Or.inr (@settles_bodyLiteral? _ ⟨⟨26, 27⟩, ['c']⟩ (by decide +kernel)), ?_, ?_⟩
  · have hall : (commentedBody.take 29).all (fun x => !x.2 || decide (Inert x.1)) = true := by
      decide +kernel
    intro x hx hhidden
    simpa [hhidden] using List.all_eq_true.mp hall x hx
  · intro a b hfront hb _
    have hdrop : b ++ commentedBody.drop 29 = commentedBody.drop a.length := by
      conv_rhs => rw [← List.take_append_drop 29 commentedBody, hfront, List.append_assoc]
      rw [List.drop_left]
    rw [hdrop]
    intro hword
    have hlength : a.length < 29 := by
      have hle := congrArg List.length hfront
      have hpos := List.length_pos_iff.mpr hb
      rw [List.length_take, List.length_append] at hle
      omega
    have hplaces := @mem_of_all_range
      (fun n => (after? "expression" (plain (commentedBody.drop n))).isSome) 29 a.length [2, 14]
      (by decide +kernel) hlength hword
    exact keyClear_commentedBody hplaces hword

theorem unobtrusive_commentedText : Unobtrusive (marked commentedText) := by
  intro a b text hm hhead
  have hb : b = (marked commentedText).drop a.length := by rw [hm, List.drop_left]
  have hlength : a.length < (marked commentedText).length + 1 := by
    rw [hm, List.length_append]
    omega
  have hplaces := @mem_of_all_range
    (fun n => (afterHead? (veiled ((marked commentedText).drop n))).isSome) _ a.length [0]
    (by decide +kernel) hlength (by rw [← hb, hhead]; rfl)
  rw [hb, List.mem_singleton.mp hplaces, List.drop_zero] at hhead ⊢
  have hread : afterHead? (veiled (marked commentedText)) = some (veiled commentedBody) := by
    decide +kernel
  have hall : ((marked commentedText).take 26).all (fun x => !x.2) = true := by decide +kernel
  refine ⟨(marked commentedText).take 26, commentedBody, (List.take_append_drop ..).symm, ?_,
    Option.some.inj (hread.symm.trans hhead), undisturbed_commentedBody⟩
  intro x hx
  simpa using List.all_eq_true.mp hall x hx

/-- The literal of the option is found, with and without comments. -/
theorem comments_transparent_around_option :
    literals commentedText = [⟨⟨52, 53⟩, ['c']⟩] ∧
      (literals (blanked commentedText)).map (Literal.inBytes (blanked commentedText)) =
        (literals commentedText).map (Literal.inBytes commentedText) := by
  refine ⟨?_, (comments_transparent unobtrusive_commentedText).1⟩
  refine literals_eq_of_pairwise ?_ (List.pairwise_singleton _ _)
  decide +kernel

/-- A comment behind the head of an option, with a key and a literal in it. -/
def commentedKey : Text :=
  "(buf.validate.field).cel=\x7b//expression:\"a\"\nexpression:\"b\"\x7d".toList

/-- The literal in the comment is found, and the one behind it is not. -/
theorem commented_key_extracted :
    literals commentedKey = [⟨⟨40, 41⟩, ['a']⟩] ∧ covers (comments commentedKey) 40 = true ∧
      literals (blanked commentedKey) = [⟨⟨55, 56⟩, ['b']⟩] := by
  refine ⟨?_, ?_, ?_⟩
  · refine literals_eq_of_pairwise ?_ (List.pairwise_singleton _ _)
    decide +kernel
  · decide +kernel
  · refine literals_eq_of_pairwise ?_ (List.pairwise_singleton _ _)
    decide +kernel

end Polyglot.Extraction.Protovalidate
