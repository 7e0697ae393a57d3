import Polyglot.Proofs.TransparentComments

/-!
Options that are written down. In front of each backslash and each double quote of a text a
backslash is put, and a line feed is written with a letter. Three readers go through a literal, each
with rules of its own for backslashes: one decodes it, one looks for the brace that closes the
option, and one looks for comments. All of them leave it at the same quote. So every option in a row
of options is found, and it says what was written down.
-/
namespace Polyglot.Extraction.Protovalidate

open Unicode
open Pattern (Span)

/-! The readers leave a literal together. -/

section

variable {quote : Char} {raw decoded : Text}

theorem Spells.readLiteral?_eq (h : Spells quote raw decoded) (hquote : quote ≠ '\\')
    (rest : Text) :
    readLiteral? quote (raw ++ quote :: rest) = some (raw.length, decoded) := by
  induction h with
  | nil =>
    unfold readLiteral?
    exact if_pos rfl
  | escape e _ ih =>
    rw [List.cons_append, List.cons_append, readLiteral?, if_neg (Ne.symm hquote),
      if_neg (by decide), if_pos rfl]
    dsimp only
    rw [ih, Option.map_some]
    rfl
  | plain hne hline hescape _ ih =>
    unfold readLiteral?
    simp only [List.cons_append]
    rw [if_neg hne, if_neg hline, if_neg hescape, ih, Option.map_some]
    rfl

theorem Spells.bodyLength?_eq (h : Spells quote raw decoded) (hquote : quote ≠ '\\') (depth : Nat)
    (rest : Text) : bodyLength? depth (some quote) (raw ++ quote :: rest) =
      (bodyLength? depth none rest).map (· + (raw.length + 1)) := by
  induction h with
  | nil =>
    rw [List.nil_append, bodyLength?, if_pos rfl]
    · rfl
    · intro e more hc
      exact absurd hc hquote
  | escape e _ ih =>
    rw [List.cons_append, List.cons_append, bodyLength?, ih, Option.map_map]
    congr 1
  | plain hne _ hescape _ ih =>
    rw [List.cons_append, bodyLength?, if_neg hne, ih, Option.map_map]
    · congr 1
    · intro e more hc
      exact absurd hc hescape

theorem Spells.commentsFrom_eq (h : Spells quote raw decoded) (hquote : quote ≠ '\\') (i : Nat)
    (rest : Text) : commentsFrom i (.quoted quote) (raw ++ quote :: rest) =
      commentsFrom (i + (raw.length + 1)) .code rest := by
  induction h generalizing i with
  | nil =>
    rw [List.nil_append, commentsFrom_quoted_cons i fun hc => absurd hc hquote, if_pos rfl]
    rfl
  | escape e _ ih =>
    rw [List.cons_append, List.cons_append, commentsFrom, ih, List.length_cons, List.length_cons]
    congr 1
    omega
  | plain hne _ hescape _ ih =>
    rw [List.cons_append, commentsFrom_quoted_cons i fun hc => absurd hc hescape, if_neg hne, ih,
      List.length_cons]
    congr 1
    omega

end

/-! Escapes. -/

def escapeChar (c : Char) : Text :=
  if c = '\\' ∨ c = '"' then ['\\', c] else if c = '\n' then ['\\', 'n'] else [c]

/-- A text as it stands in a literal in double quotes. -/
def escaped (text : Text) : Text := text.flatMap escapeChar

theorem spells_escaped (text : Text) : Spells '"' (escaped text) text := by
  induction text with
  | nil => exact .nil
  | cons c text ih =>
    rw [escaped, List.flatMap_cons, escapeChar]
    split
    next hmark =>
      have hdecode : decodeEscape c = c := by
        rcases hmark with rfl | rfl <;> rfl
      have hstep := ih.escape c
      rwa [hdecode] at hstep
    next hplain =>
      rw [not_or] at hplain
      split
      next hline => exact hline ▸ ih.escape 'n'
      next hline => exact ih.plain hplain.2 hline hplain.1

/-! One option. -/

/-- An option up to the contents of its literal. -/
def opening : Text := "(buf.validate.field).cel = \x7b expression: \"".toList

def closing : Text := ['"', ' ', '\x7d', '\n']

/-- An option that says a text. -/
def written (text : Text) : Text := opening ++ (escaped text ++ closing)

theorem written_append (text rest : Text) :
    written text ++ rest = opening ++ (escaped text ++ '"' :: (closing.tail ++ rest)) := by
  rw [written, List.append_assoc, List.append_assoc]
  rfl

theorem length_written (text : Text) :
    (written text).length = opening.length + ((escaped text).length + closing.length) := by
  rw [written, List.length_append, List.length_append]

/-- What stands between the head of an option and its literal. -/
def keyText : Text := " expression: \"".toList

theorem bodyLength?_written (text rest : Text) :
    bodyLength? 1 none (keyText ++ (escaped text ++ (closing ++ rest))) =
      some (keyText ++ (escaped text ++ ['"', ' '])).length := by
  have hkey : ∀ c ∈ " expression: ".toList, Inert c := by
    have hall : " expression: ".toList.all (Inert ·) = true := by decide
    simpa using List.all_eq_true.mp hall
  have hblank : ∀ c ∈ [' '], Inert c := List.forall_mem_singleton.mpr (by decide)
  have hopen : bodyLength? 1 none ('"' :: (escaped text ++ (closing ++ rest))) =
      (bodyLength? 1 (some '"') (escaped text ++ (closing ++ rest))).map (· + 1) := rfl
  have hclose : bodyLength? 1 none ([' '] ++ ('\x7d' :: '\n' :: rest)) = some 1 :=
    bodyLength?_of_inert 1 (by simp) hblank _
  have hliteral : bodyLength? 1 (some '"') (escaped text ++ (closing ++ rest)) = _ :=
    (spells_escaped text).bodyLength?_eq (by decide) 1 ([' '] ++ ('\x7d' :: '\n' :: rest))
  calc
    _ = (bodyLength? 1 none ('"' :: (escaped text ++ (closing ++ rest)))).map
        (· + " expression: ".toList.length) := bodyLength?_of_inert 1 (by simp) hkey _
    _ = some (1 + ((escaped text).length + 1) + 1 + " expression: ".toList.length) := by
      rw [hopen, hliteral, hclose]
      rfl
    _ = some (keyText ++ (escaped text ++ ['"', ' '])).length := by
      rw [List.length_append, List.length_append, show keyText.length = 14 from rfl,
        show " expression: ".toList.length = 13 from rfl, show ['"', ' '].length = 2 from rfl]
      congr 1
      omega

theorem readKey?_written (text rest : Text) :
    readKey? ("expression: \"".toList ++ (escaped text ++ '"' :: rest)) =
      some (12, some ((escaped text).length, text)) := by
  have hcolon : afterColon? ("expression: \"".toList ++ (escaped text ++ '"' :: rest)) =
      some (' ' :: '"' :: (escaped text ++ '"' :: rest)) := by
    have hword : after? "expression" ("expression: \"".toList ++ (escaped text ++ '"' :: rest)) =
        some (':' :: ' ' :: '"' :: (escaped text ++ '"' :: rest)) := after?_eq_some_iff.mpr rfl
    rw [afterColon?, hword, Option.bind_some, skipBlank,
      List.dropWhile_cons_of_neg (by simp [@isBlank_eq_false ':' (by decide)])]
    exact after?_eq_some_iff.mpr rfl
  have hskip : skipBlank (' ' :: '"' :: (escaped text ++ '"' :: rest)) =
      '"' :: (escaped text ++ '"' :: rest) := by
    rw [skipBlank, List.dropWhile_cons_of_pos (by decide +kernel),
      List.dropWhile_cons_of_neg (by simp [@isBlank_eq_false '"' (by decide)])]
  rw [readKey?, hcolon, Option.map_some, hskip, readQuoted?, if_pos (by decide),
    (spells_escaped text).readLiteral?_eq (by decide)]
  congr 2
  simp

/-- A key in front is the first one. -/
theorem firstKey?_of_readKey? {text tail : Text} {found : Nat × Option (Nat × Text)}
    (hne : text ≠ []) (h : readKey? (text ++ tail) = some found) :
    firstKey? tail text = some found := by
  cases text with
  | nil => exact absurd rfl hne
  | cons c text => rw [firstKey?, h, Option.some_or]

theorem bodyLiteral?_written (text rest : Text) :
    bodyLiteral? (keyText ++ (escaped text ++ (closing ++ rest))) =
      some ⟨⟨keyText.length, keyText.length + (escaped text).length⟩, text⟩ := by
  have hbody := bodyLength?_written text rest
  have hsplit : keyText ++ (escaped text ++ (closing ++ rest)) =
      (keyText ++ (escaped text ++ ['"', ' '])) ++ '\x7d' :: '\n' :: rest := by
    simp [closing]
  rw [hsplit] at hbody ⊢
  have hkey : firstKey? ('\x7d' :: '\n' :: rest)
      ("expression: \"".toList ++ (escaped text ++ ['"', ' '])) =
        some (12, some ((escaped text).length, text)) := by
    have hread := readKey?_written text (' ' :: '\x7d' :: '\n' :: rest)
    have hwhole : "expression: \"".toList ++ (escaped text ++ ['"', ' ']) ++
        '\x7d' :: '\n' :: rest =
          "expression: \"".toList ++ (escaped text ++ '"' :: ' ' :: '\x7d' :: '\n' :: rest) := by
      rw [List.append_assoc, List.append_assoc]
      rfl
    rw [← hwhole] at hread
    exact firstKey?_of_readKey? (List.append_ne_nil_of_left_ne_nil (by decide) _) hread
  have hfirst : firstKey? ('\x7d' :: '\n' :: rest) (keyText ++ (escaped text ++ ['"', ' '])) =
      some (13, some ((escaped text).length, text)) := by
    have hblank := @firstKey?_append [' '] (by decide) ('\x7d' :: '\n' :: rest)
      ("expression: \"".toList ++ (escaped text ++ ['"', ' ']))
    rw [hkey] at hblank
    exact hblank
  rw [bodyLiteral?_eq hbody, hfirst]
  rfl

/-! Heads and comments. -/

theorem afterHead?_opening (rest : Text) :
    afterHead? (opening ++ rest) = some (keyText ++ rest) := by
  have hhead : afterHead? "(buf.validate.field).cel = \x7b".toList = some [] := by decide +kernel
  obtain ⟨tail, htext, -, hall⟩ := exists_head hhead
  rw [List.append_nil] at htext
  have hsplit : opening ++ rest = '(' :: (tail ++ (keyText ++ rest)) := by
    rw [← List.cons_append, ← htext, ← List.append_assoc]
    rfl
  rw [hsplit, hall]

/-- No head goes on behind a double quote. -/
theorem afterHead?_append_quote {text : Text} (h : afterHead? text = none) (rest : Text) :
    afterHead? (text ++ '"' :: rest) = none := by
  rw [Option.eq_none_iff_forall_ne_some]
  intro body hbody
  obtain ⟨tail, htext, htest, hall⟩ := exists_head hbody
  have hnot : ∀ gap, text ≠ '(' :: (tail ++ gap) := by
    rintro gap rfl
    rw [hall gap] at h
    cases h
  rw [← List.cons_append] at htext
  rcases List.append_eq_append_iff.mp htext with ⟨gap, hhead, hgap⟩ | ⟨gap, hfront, -⟩
  · cases gap with
    | nil =>
      rw [List.append_nil] at hhead
      apply hnot []
      rw [List.append_nil, hhead]
    | cons c gap =>
      obtain ⟨rfl, -⟩ := List.cons.inj hgap
      have hmem : '"' ∈ '(' :: tail := by
        rw [hhead]
        simp
      rcases List.mem_cons.mp hmem with hparen | htail
      · exact absurd hparen (by decide)
      · exact absurd (htest _ htail) (by decide)
  · exact hnot gap hfront

theorem headsFrom_append_quote {text : Text} {j : Nat} (h : headsFrom j 0 text = []) (i : Nat)
    (rest : Text) :
    headsFrom i 0 (text ++ '"' :: rest) = headsFrom (i + (text.length + 1)) 0 rest := by
  induction text generalizing i j with
  | nil => exact @headsFrom_append ['"'] (by decide) i rest
  | cons c text ih =>
    rw [headsFrom_cons, List.append_eq_nil_iff, List.map_eq_nil_iff, Option.toList_eq_nil_iff] at h
    have hnone := afterHead?_append_quote h.1 rest
    rw [List.cons_append] at hnone
    rw [List.cons_append, headsFrom_cons, hnone, ih h.2, List.length_cons]
    simp only [Option.toList_none, List.map_nil, List.nil_append]
    congr 1
    omega

/-- The head of an option is found, and no other one before its end. -/
theorem headsFrom_written {text : Text} (h : heads (escaped text) = []) (i : Nat) (rest : Text) :
    headsFrom i 0 (written text ++ rest) =
      ⟨i, i + (opening.length - keyText.length)⟩ ::
        headsFrom (i + (written text).length) 0 rest := by
  have hbehind : '(' ∉ opening.tail := by decide
  have hend : '(' ∉ closing.tail := by decide
  have hsplit : written text ++ rest =
      '(' :: (opening.tail ++ (escaped text ++ '"' :: (closing.tail ++ rest))) :=
    written_append text rest
  have hhead :
      afterHead? ('(' :: (opening.tail ++ (escaped text ++ '"' :: (closing.tail ++ rest)))) =
      some (keyText ++ (escaped text ++ '"' :: (closing.tail ++ rest))) :=
    afterHead?_opening (escaped text ++ '"' :: (closing.tail ++ rest))
  have hopening : opening.tail.length + 1 = opening.length := rfl
  have hkey : keyText.length ≤ opening.length := by decide
  have hclosing : closing.tail.length + 1 = closing.length := rfl
  have hstop : (opening.tail ++ (escaped text ++ '"' :: (closing.tail ++ rest))).length + 1 -
      (keyText ++ (escaped text ++ '"' :: (closing.tail ++ rest))).length =
        opening.length - keyText.length := by
    simp only [List.length_append]
    omega
  have hnext : i + 1 + opening.tail.length + ((escaped text).length + 1) + closing.tail.length =
      i + (written text).length := by
    rw [length_written]
    omega
  rw [hsplit, headsFrom_cons, hhead, headsFrom_append hbehind, headsFrom_append_quote h,
    headsFrom_append hend, hnext, Option.toList_some, List.map_singleton, hstop]
  exact List.singleton_append

/-- A character of code that opens no comment and no string. -/
def opensNothing (c : Char) : Bool := c ≠ '/' && !isQuote c

theorem commentsFrom_code_append {front : Text} (h : front.all opensNothing = true) (i : Nat)
    (rest : Text) :
    commentsFrom i .code (front ++ rest) = commentsFrom (i + front.length) .code rest := by
  induction front generalizing i with
  | nil => rfl
  | cons c front ih =>
    obtain ⟨hc, hfront⟩ := (Bool.and_eq_true _ _).mp (List.all_cons ▸ h)
    obtain ⟨hslash, hquote⟩ := (Bool.and_eq_true _ _).mp hc
    rw [List.cons_append, commentsFrom_code_cons i fun h => absurd h (of_decide_eq_true hslash),
      if_neg (by simpa using hquote), ih hfront, List.length_cons]
    congr 1
    omega

theorem commentsFrom_written (text : Text) (i : Nat) (rest : Text) :
    commentsFrom i .code (written text ++ rest) =
      commentsFrom (i + (written text).length) .code rest := by
  have hopening : opening.dropLast.all opensNothing = true := by decide
  have hclosing : closing.tail.all opensNothing = true := by decide
  have hsplit : written text ++ rest =
      opening.dropLast ++ ('"' :: (escaped text ++ '"' :: (closing.tail ++ rest))) :=
    written_append text rest
  have hnext : i + opening.dropLast.length + 1 + ((escaped text).length + 1) + closing.tail.length =
      i + (written text).length := by
    have hlength : opening.dropLast.length + 1 = opening.length := rfl
    have hlength' : closing.tail.length + 1 = closing.length := rfl
    rw [length_written]
    omega
  rw [hsplit, commentsFrom_code_append hopening, commentsFrom_code_cons _ (by simp),
    if_pos (by decide), (spells_escaped text).commentsFrom_eq (by decide),
    commentsFrom_code_append hclosing, hnext]

/-! Options in a row. -/

/-- The literals of some options behind a text. -/
def literalsBehind : Text → List Text → List Literal
  | _, [] => []
  | front, text :: texts =>
    ⟨⟨(front ++ opening).length, (front ++ opening ++ escaped text).length⟩, text⟩ ::
      literalsBehind (front ++ written text) texts

theorem comments_written (texts : List Text) : comments (texts.flatMap written) = [] := by
  have hall : ∀ i, commentsFrom i .code (texts.flatMap written) = [] := by
    induction texts with
    | nil => exact fun _ => rfl
    | cons text texts ih =>
      intro i
      rw [List.flatMap_cons, commentsFrom_written, ih]
  exact hall 0

theorem literalOf?_written (front text rest : Text) (i : Nat) :
    literalOf? (front ++ (written text ++ rest))
        ⟨i, front.length + (opening.length - keyText.length)⟩ =
      some ⟨⟨(front ++ opening).length, (front ++ opening ++ escaped text).length⟩, text⟩ := by
  have hopening : opening.take (opening.length - keyText.length) ++ keyText = opening := rfl
  have hdrop : (front ++ (written text ++ rest)).drop
      (front.length + (opening.length - keyText.length)) =
        keyText ++ (escaped text ++ (closing ++ rest)) := by
    rw [← List.drop_drop, List.drop_left, written, List.append_assoc, List.append_assoc,
      ← hopening, List.append_assoc]
    exact List.drop_left' rfl
  have hstart : front.length + (opening.length - keyText.length) + keyText.length =
      (front ++ opening).length := by
    have hlength := congrArg List.length hopening
    rw [List.length_append] at hlength ⊢
    omega
  rw [literalOf?_eq, hdrop, bodyLiteral?_written, Option.map_some, Literal.shift]
  dsimp only
  rw [← Nat.add_assoc, hstart, ← List.length_append]

theorem filterMap_headsFrom_written {texts : List Text}
    (h : ∀ text ∈ texts, heads (escaped text) = []) (front : Text) :
    (headsFrom front.length 0 (texts.flatMap written)).filterMap
        (literalOf? (front ++ texts.flatMap written)) = literalsBehind front texts := by
  induction texts generalizing front with
  | nil => rfl
  | cons text texts ih =>
    have hrest := ih (fun t ht => h t (List.mem_cons_of_mem text ht)) (front ++ written text)
    rw [List.length_append, List.append_assoc] at hrest
    rw [List.flatMap_cons, headsFrom_written (h text List.mem_cons_self), List.filterMap_cons,
      literalOf?_written, literalsBehind, hrest]

theorem bounds_of_mem_literalsBehind {front : Text} {texts : List Text} {l : Literal}
    (h : l ∈ literalsBehind front texts) :
    front.length < l.contents.start ∧ l.contents.start ≤ l.contents.stop := by
  induction texts generalizing front with
  | nil => cases h
  | cons text texts ih =>
    rcases List.mem_cons.mp h with rfl | hlater
    · have hopening : 0 < opening.length := by decide
      simp only [List.length_append]
      omega
    · have hbounds := ih hlater
      rw [List.length_append] at hbounds
      omega

/-- Each literal ends before the next one starts. -/
theorem pairwise_literalsBehind (front : Text) (texts : List Text) :
    (literalsBehind front texts).Pairwise (·.contents.stop < ·.contents.start) := by
  induction texts generalizing front with
  | nil => exact List.Pairwise.nil
  | cons text texts ih =>
    apply List.Pairwise.cons _ (ih (front ++ written text))
    intro l hl
    have hstart := (bounds_of_mem_literalsBehind hl).1
    rw [List.length_append, length_written] at hstart
    simp only [List.length_append]
    omega

/-- The literals of options in a row are those that were written down. -/
theorem literals_written {texts : List Text} (h : ∀ text ∈ texts, heads (escaped text) = []) :
    literals (texts.flatMap written) = literalsBehind [] texts := by
  have hlive : liveHeads (texts.flatMap written) = heads (texts.flatMap written) := by
    rw [liveHeads, comments_written]
    exact List.filter_eq_self.mpr fun s _ => rfl
  apply literals_eq_of_pairwise
  · rw [hlive]
    exact filterMap_headsFrom_written h []
  · refine (pairwise_literalsBehind [] texts).imp_of_mem ?_
    intro l l' hl _ hlt
    exact Nat.lt_of_le_of_lt (bounds_of_mem_literalsBehind hl).2 hlt

theorem decoded_literalsBehind (front : Text) (texts : List Text) :
    (literalsBehind front texts).map (·.decoded) = texts := by
  induction texts generalizing front with
  | nil => rfl
  | cons text texts ih => rw [literalsBehind, List.map_cons, ih]

theorem literalsBehind_append (front : Text) (texts texts' : List Text) :
    literalsBehind front (texts ++ texts') =
      literalsBehind front texts ++ literalsBehind (front ++ texts.flatMap written) texts' := by
  induction texts generalizing front with
  | nil => rw [List.flatMap_nil, List.append_nil, List.nil_append]; rfl
  | cons text texts ih =>
    rw [List.cons_append, literalsBehind, ih, literalsBehind, List.flatMap_cons, List.cons_append,
      List.append_assoc front (written text)]

/-- In bytes too, the contents of a literal are what was escaped. -/
theorem inBytes_literalsBehind (texts : List Text) (text : Text) (texts' : List Text) :
    ((literalsBehind [] (texts ++ text :: texts'))[texts.length]?).map
        (Literal.inBytes ((texts ++ text :: texts').flatMap written)) =
      some ⟨⟨Text.bytes (texts.flatMap written ++ opening),
        Text.bytes (texts.flatMap written ++ opening) + Text.bytes (escaped text)⟩, text⟩ := by
  have hlength : (literalsBehind [] texts).length = texts.length := by
    have hall := congrArg List.length (decoded_literalsBehind [] texts)
    rwa [List.length_map] at hall
  have hsplit : (texts ++ text :: texts').flatMap written =
      texts.flatMap written ++ opening ++ escaped text ++ (closing ++ texts'.flatMap written) := by
    rw [List.flatMap_append, List.flatMap_cons, written]
    simp only [List.append_assoc]
  rw [literalsBehind_append, ← hlength, List.getElem?_append_right (Nat.le_refl _), Nat.sub_self,
    literalsBehind, List.getElem?_cons_zero, Option.map_some, hsplit, List.nil_append]
  generalize texts.flatMap written ++ opening = front
  rw [Literal.inBytes, List.take_left, List.append_assoc, List.take_left, Text.bytes_append]

end Polyglot.Extraction.Protovalidate
