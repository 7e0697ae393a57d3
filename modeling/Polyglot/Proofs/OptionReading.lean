import Polyglot.Proofs.LiteralPieces

/-!
What reading an option depends on. The head is taken away without a look at what is behind it, and
no head starts in another one. The body ends where its braces are closed, which most characters have
no part in. Its first key is the first place where a key can be read, and the literal is what is
read there.
-/
namespace Polyglot.Extraction.Protovalidate

open Unicode
open Pattern (Span)

/-! Heads. -/

/-- A reader takes a front away whose characters pass a test, and does not look behind it. -/
def TakesFront (test : Char → Bool) (read : Text → Option Text) : Prop :=
  ∀ text rest, read text = some rest → ∃ front, text = front ++ rest ∧
    (∀ c ∈ front, test c = true) ∧ ∀ rest', read (front ++ rest') = some rest'

section

variable {test : Char → Bool} {read next : Text → Option Text}

theorem TakesFront.bind (h : TakesFront test read) (hnext : TakesFront test next) :
    TakesFront test fun text => (read text).bind next := by
  intro text rest hboth
  obtain ⟨between, hread, hrest⟩ := Option.bind_eq_some_iff.mp hboth
  obtain ⟨front, rfl, htest, hfront⟩ := h text between hread
  obtain ⟨front', rfl, htest', hfront'⟩ := hnext between rest hrest
  refine ⟨front ++ front', (List.append_assoc ..).symm, ?_, ?_⟩
  · intro c hc
    rcases List.mem_append.mp hc with hc | hc
    · exact htest c hc
    · exact htest' c hc
  · intro rest'
    dsimp only
    rw [List.append_assoc, hfront, Option.bind_some, hfront']

theorem skipBlank_append {c : Char} (hc : isBlank c = false) (text rest : Text) :
    skipBlank (text ++ c :: rest) = skipBlank text ++ c :: rest := by
  induction text with
  | nil => exact List.dropWhile_cons_of_neg (by simp [hc])
  | cons d text ih =>
    by_cases hd : isBlank d = true
    · rw [skipBlank, List.cons_append, List.dropWhile_cons_of_pos hd]
      rw [skipBlank] at ih
      rw [ih, skipBlank, skipBlank, List.dropWhile_cons_of_pos hd]
    · rw [skipBlank, skipBlank, List.cons_append, List.dropWhile_cons_of_neg hd,
        List.dropWhile_cons_of_neg hd, List.cons_append]

theorem skipBlank_eq_nil {blanks : Text} (h : ∀ c ∈ blanks, isBlank c = true) :
    skipBlank blanks = [] :=
  List.dropWhile_eq_nil_iff.mpr h

/-- A word is taken away together with the blanks in front of it. -/
theorem takesFront_word (hblank : ∀ c, isBlank c = true → test c = true) {word : String} {c : Char}
    {cs : Text} (hword : word.toList = c :: cs) (hc : isBlank c = false)
    (htest : (c :: cs).all test = true) :
    TakesFront test fun text => after? word (skipBlank text) := by
  intro text rest h
  dsimp only at h
  rw [after?_eq_some_iff, hword] at h
  obtain ⟨blanks, hblanks, htext⟩ := exists_blanks text
  rw [h] at htext
  refine ⟨blanks ++ c :: cs, by rw [htext, List.append_assoc], ?_, ?_⟩
  · intro d hd
    rcases List.mem_append.mp hd with hd | hd
    · exact hblank d (hblanks d hd)
    · exact List.all_eq_true.mp htest d hd
  · intro rest'
    dsimp only
    rw [List.append_assoc, List.cons_append, skipBlank_append hc, skipBlank_eq_nil hblanks,
      List.nil_append, after?_eq_some_iff, hword]
    rfl

end

/-- The characters of a head behind its first one. -/
def inHead (c : Char) : Bool := c ≠ '(' && c ≠ '/' && c ≠ '"'

theorem inHead_of_isBlank (c : Char) (h : isBlank c = true) : inHead c = true := by
  have hne : ∀ d ∈ ['(', '/', '"'], c ≠ d := by
    rintro d hd rfl
    rw [isBlank_eq_false (by revert hd; simp; tauto)] at h
    cases h
  simp [inHead, hne '(' (by simp), hne '/' (by simp), hne '"' (by simp)]

theorem takesFront_target : TakesFront inHead fun text =>
    after? "field" text <|> after? "message" text <|> after? "predefined" text := by
  intro text rest h
  simp only [Option.orElse_eq_orElse, Option.orElse_eq_or, Option.or_eq_some_iff,
    after?_eq_some_iff] at h
  have hall : ∀ {word : String}, word.toList.all inHead = true →
      ∀ c ∈ word.toList, inHead c = true := List.all_eq_true.mp
  rcases h with h | ⟨-, h | ⟨-, h⟩⟩
  · exact ⟨_, h, hall (by decide), fun rest' => rfl⟩
  · exact ⟨_, h, hall (by decide), fun rest' => rfl⟩
  · exact ⟨_, h, hall (by decide), fun rest' => rfl⟩

/-- A head starts with its only parenthesis that opens, and has no slash and no double quote in it.
What stands behind it does not matter. -/
theorem exists_head {text body : Text} (h : afterHead? text = some body) :
    ∃ tail, text = '(' :: (tail ++ body) ∧ (∀ c ∈ tail, inHead c = true) ∧
      ∀ rest, afterHead? ('(' :: (tail ++ rest)) = some rest := by
  have htail : TakesFront inHead fun text =>
      (after? "buf.validate." (skipBlank text)).bind fun text =>
        (after? "field" text <|> after? "message" text <|> after? "predefined" text).bind
          fun text => (after? ")" (skipBlank text)).bind fun text =>
            (after? ".cel" (skipBlank text)).bind fun text =>
              (after? "=" (skipBlank text)).bind fun text => after? "\x7b" (skipBlank text) := by
    have hword := @takesFront_word inHead inHead_of_isBlank
    refine (hword rfl (isBlank_eq_false (by decide)) (by decide)).bind (takesFront_target.bind ?_)
    refine (hword rfl (isBlank_eq_false (by decide)) (by decide)).bind ?_
    refine (hword rfl (isBlank_eq_false (by decide)) (by decide)).bind ?_
    refine (hword rfl (isBlank_eq_false (by decide)) (by decide)).bind ?_
    exact hword rfl (isBlank_eq_false (by decide)) (by decide)
  obtain ⟨behind, hparen, hbehind⟩ := Option.bind_eq_some_iff.mp h
  obtain ⟨tail, rfl, htest, htail⟩ := htail behind body hbehind
  exact ⟨tail, after?_eq_some_iff.mp hparen, htest, htail⟩

theorem afterHead?_cons_of_ne {c : Char} (h : c ≠ '(') (rest : Text) :
    afterHead? (c :: rest) = none := by
  rw [Option.eq_none_iff_forall_ne_some]
  intro body hbody
  obtain ⟨_, htext, -⟩ := exists_head hbody
  exact h (List.cons.inj htext).1

theorem headsFrom_append {front : Text} (h : '(' ∉ front) (i : Nat) (rest : Text) :
    headsFrom i 0 (front ++ rest) = headsFrom (i + front.length) 0 rest := by
  induction front generalizing i with
  | nil => rfl
  | cons c front ih =>
    rw [List.mem_cons, not_or] at h
    rw [List.cons_append, headsFrom, afterHead?_cons_of_ne (Ne.symm h.1)]
    dsimp only
    rw [ih h.2, List.length_cons, Nat.add_assoc, Nat.add_comm 1]

theorem headsFrom_skip (front : Text) (i : Nat) (rest : Text) :
    headsFrom i front.length (front ++ rest) = headsFrom (i + front.length) 0 rest := by
  induction front generalizing i with
  | nil => rfl
  | cons c front ih =>
    rw [List.cons_append, List.length_cons, headsFrom, ih, Nat.add_assoc, Nat.add_comm 1]

/-- No head is passed over for starting in another one. -/
theorem headsFrom_cons (i : Nat) (c : Char) (rest : Text) :
    headsFrom i 0 (c :: rest) = (afterHead? (c :: rest)).toList.map
      (fun body => ⟨i, i + (rest.length + 1 - body.length)⟩) ++ headsFrom (i + 1) 0 rest := by
  rw [headsFrom]
  cases hhead : afterHead? (c :: rest) with
  | none => rfl
  | some body =>
    obtain ⟨tail, htext, htest, -⟩ := exists_head hhead
    obtain ⟨-, rfl⟩ := List.cons.inj htext
    have hparen : '(' ∉ tail := by
      intro hmem
      exact absurd (htest _ hmem) (by decide)
    have hlength : (tail ++ body).length + 1 - body.length - 1 = tail.length := by
      rw [List.length_append]
      omega
    dsimp only
    rw [hlength, headsFrom_skip, headsFrom_append hparen]
    rfl

/-! Bodies. -/

/-- A character that opens and closes nothing. -/
def Inert (c : Char) : Prop := isQuote c = false ∧ c ≠ '\x7b' ∧ c ≠ '\x7d' ∧ c ≠ '\\'

instance (c : Char) : Decidable (Inert c) := inferInstanceAs (Decidable (_ ∧ _))

section

variable (depth : Nat) {quote : Option Char} (hquote : ∀ q ∈ quote, isQuote q = true)

include hquote

/-- What a character opens or closes does not depend on what stands behind it. -/
theorem bodyLength?_cons {c : Char} (hescape : c = '\\' → quote = none) :
    (∀ rest, bodyLength? depth quote (c :: rest) = some 0) ∨
      ∃ depth' quote', (∀ q ∈ quote', isQuote q = true) ∧
        ∀ rest, bodyLength? depth quote (c :: rest) =
          (bodyLength? depth' quote' rest).map (· + 1) := by
  cases quote with
  | some q =>
    refine Or.inr ⟨depth, if c = q then none else some q, ?_, ?_⟩
    · split
      · simp
      · exact hquote
    · intro rest
      rw [bodyLength?]
      intro e more hc
      cases hescape hc
  | none =>
    by_cases hclose : c = '\x7d'
    · by_cases hdepth : depth ≤ 1
      · refine Or.inl fun rest => ?_
        rw [bodyLength?, if_pos hclose, if_pos hdepth]
      · refine Or.inr ⟨depth - 1, none, hquote, fun rest => ?_⟩
        rw [bodyLength?, if_pos hclose, if_neg hdepth]
    · by_cases hopen : c = '\x7b'
      · refine Or.inr ⟨depth + 1, none, hquote, fun rest => ?_⟩
        rw [bodyLength?, if_neg hclose, if_pos hopen]
      · refine Or.inr ⟨depth, if isQuote c then some c else none, ?_, fun rest => ?_⟩
        · intro q hq
          split at hq
          next hc =>
            obtain rfl := Option.some.inj hq
            exact hc
          next => cases hq
        · rw [bodyLength?, if_neg hclose, if_neg hopen]

theorem bodyLength?_of_inert {cs : Text} (hcs : ∀ c ∈ cs, Inert c) (rest : Text) :
    bodyLength? depth quote (cs ++ rest) = (bodyLength? depth quote rest).map (· + cs.length) := by
  induction cs with
  | nil => simp
  | cons c cs ih =>
    obtain ⟨hplain, hopen, hclose, hescape⟩ := hcs c List.mem_cons_self
    have hrest := ih fun d hd => hcs d (List.mem_cons_of_mem c hd)
    have hstep : bodyLength? depth quote (c :: (cs ++ rest)) =
        (bodyLength? depth quote (cs ++ rest)).map (· + 1) := by
      cases quote with
      | none => rw [bodyLength?, if_neg hclose, if_neg hopen, hplain, if_neg Bool.false_ne_true]
      | some q =>
        have hne : c ≠ q := by
          rintro rfl
          rw [hquote c rfl] at hplain
          cases hplain
        rw [bodyLength?, if_neg hne]
        intro e more hc
        exact absurd hc hescape
    rw [List.cons_append, hstep, hrest, Option.map_map]
    congr 1

end

/-! Keys. -/

/-- The text behind a key in front, with the blanks behind its colon. -/
def afterColon? (text : Text) : Option Text :=
  (after? "expression" text).bind fun rest => after? ":" (skipBlank rest)

/-- The length of a literal in front, without its quotes, and what it says. -/
def readQuoted? : Text → Option (Nat × Text)
  | [] => none
  | q :: rest => if isQuote q then readLiteral? q rest else none

/-- The length of a key in front, and the literal behind it if there is one. -/
def readKey? (text : Text) : Option (Nat × Option (Nat × Text)) :=
  (afterColon? text).map fun rest =>
    (text.length - (skipBlank rest).length, readQuoted? (skipBlank rest))

/-- The length of a text up to and with the first key that starts in it, and the literal behind the
key if there is one. The text goes on with `tail`. -/
def firstKey? (tail : Text) : Text → Option (Nat × Option (Nat × Text))
  | [] => none
  | c :: rest =>
    (readKey? (c :: rest ++ tail)).or
      ((firstKey? tail rest).map fun found => (found.1 + 1, found.2))

theorem after?_append {word : String} {c : Char} (hc : c ∉ word.toList) (text rest : Text) :
    after? word (text ++ c :: rest) = (after? word text).map (· ++ c :: rest) := by
  ext behind
  rw [Option.map_eq_some_iff, after?_eq_some_iff]
  constructor
  · intro h
    rcases List.append_eq_append_iff.mp h with ⟨gap, hword, hgap⟩ | ⟨gap, htext, hbehind⟩
    · cases gap with
      | nil =>
        refine ⟨[], ?_, hgap⟩
        rw [after?_eq_some_iff, hword]
        simp
      | cons d gap =>
        obtain ⟨rfl, _⟩ := List.cons.inj hgap
        exact absurd (by rw [hword]; simp) hc
    · exact ⟨gap, after?_eq_some_iff.mpr htext, hbehind.symm⟩
  · rintro ⟨gap, hgap, rfl⟩
    rw [after?_eq_some_iff.mp hgap, List.append_assoc]

/-- No key goes on behind the brace that closes a body. -/
theorem afterColon?_append (text rest : Text) :
    afterColon? (text ++ '\x7d' :: rest) = (afterColon? text).map (· ++ '\x7d' :: rest) := by
  rw [afterColon?, afterColon?, after?_append (by decide)]
  cases after? "expression" text with
  | none => rfl
  | some behind =>
    simp only [Option.map_some, Option.bind_some]
    rw [skipBlank_append (isBlank_eq_false (by decide)), after?_append (by decide)]

theorem afterKey?_cons (c : Char) (rest : Text) : afterKey? (c :: rest) =
    ((afterColon? (c :: rest)).map skipBlank).or (afterKey? rest) := by
  rw [afterKey?, ← afterColon?]
  cases afterColon? (c :: rest) <;> rfl

theorem firstKey?_eq (inner rest : Text) : firstKey? ('\x7d' :: rest) inner =
    (afterKey? inner).map fun behind =>
      (inner.length - behind.length, readQuoted? (behind ++ '\x7d' :: rest)) := by
  induction inner with
  | nil => rfl
  | cons c inner ih =>
    rw [firstKey?, readKey?, afterColon?_append, afterKey?_cons]
    cases afterColon? (c :: inner) with
    | some r =>
      simp only [Option.map_some, Option.some_or, List.length_append,
        skipBlank_append (@isBlank_eq_false '\x7d' (by decide))]
      congr 2
      omega
    | none =>
      simp only [Option.map_none, Option.none_or]
      rw [ih, Option.map_map]
      cases hkey : afterKey? inner with
      | none => rfl
      | some behind =>
        obtain ⟨pre, key, rfl, _⟩ := isKey_of_afterKey? hkey
        simp only [Option.map_some, Function.comp_apply, List.length_cons, List.length_append]
        congr 2
        omega

/-! Options. -/

/-- The literal of an option whose head stands in front of the given text. -/
def bodyLiteral? (body : Text) : Option Literal := literalOf? body ⟨0, 0⟩

def Literal.shift (n : Nat) (l : Literal) : Literal :=
  ⟨⟨n + l.contents.start, n + l.contents.stop⟩, l.decoded⟩

theorem bodyLiteral?_eq_none {body : Text} (h : bodyLength? 1 none body = none) :
    bodyLiteral? body = none := by
  rw [bodyLiteral?, literalOf?, List.drop_zero, h]
  rfl

/-- The literal of an option is the one behind the first key in its body. -/
theorem bodyLiteral?_eq {inner rest : Text}
    (h : bodyLength? 1 none (inner ++ '\x7d' :: rest) = some inner.length) :
    bodyLiteral? (inner ++ '\x7d' :: rest) = (firstKey? ('\x7d' :: rest) inner).bind fun found =>
      found.2.map fun read => ⟨⟨found.1 + 1, found.1 + 1 + read.1⟩, read.2⟩ := by
  rw [bodyLiteral?, literalOf?, List.drop_zero, h, firstKey?_eq]
  simp only [Option.bind_eq_bind, Option.bind_some, List.take_left, Option.bind_map]
  cases hkey : afterKey? inner with
  | none => rfl
  | some behind =>
    obtain ⟨pre, key, rfl, _⟩ := isKey_of_afterKey? hkey
    have hlength : (pre ++ (key ++ behind)).length - behind.length = (pre ++ key).length := by
      simp only [List.length_append]
      omega
    have hdrop : (pre ++ (key ++ behind) ++ '\x7d' :: rest).drop (pre ++ key).length =
        behind ++ '\x7d' :: rest := by
      rw [← List.append_assoc pre, List.append_assoc (pre ++ key), List.drop_left]
    simp only [Option.bind_some, Function.comp_apply, hlength, Nat.zero_add, hdrop]
    cases hbehind : behind ++ '\x7d' :: rest with
    | nil => simp at hbehind
    | cons q text =>
      dsimp only
      rw [readQuoted?]
      split
      · cases readLiteral? q text <;> rfl
      · rfl

theorem literalOf?_eq (text : Text) (head : Span) :
    literalOf? text head = (bodyLiteral? (text.drop head.stop)).map (Literal.shift head.stop) := by
  rw [bodyLiteral?, literalOf?, literalOf?, List.drop_zero]
  cases bodyLength? 1 none (text.drop head.stop) with
  | none => rfl
  | some length =>
    simp only [Option.bind_eq_bind, Option.bind_some, Nat.zero_add, List.drop_drop]
    cases afterKey? ((text.drop head.stop).take length) with
    | none => rfl
    | some behind =>
      simp only [Option.bind_some]
      cases text.drop (head.stop + (length - behind.length)) with
      | nil => rfl
      | cons q rest =>
        dsimp only
        split
        · cases readLiteral? q rest with
          | none => rfl
          | some read =>
            simp only [Option.bind_some, Option.map_some, Literal.shift, Nat.add_assoc]
        · rfl

/-! What is finished does not depend on what stands behind it. -/

/-- What is read from a text does not depend on what stands behind it. -/
def Settles {α : Type} (read : Text → α) (text : Text) : Prop :=
  ∀ rest rest', read (text ++ rest) = read (text ++ rest')

theorem bodyLength?_append {depth n : Nat} {quote : Option Char} {text : Text}
    (h : bodyLength? depth quote text = some n) (rest : Text) :
    bodyLength? depth quote (text ++ rest) = some n := by
  fun_induction bodyLength? depth quote text generalizing n with
  | case1 => cases h
  | case2 depth q e text ih =>
    obtain ⟨m, hm, rfl⟩ := Option.map_eq_some_iff.mp h
    rw [List.cons_append, List.cons_append, bodyLength?, ih hm, Option.map_some]
  | case3 depth q c text hescape ih =>
    obtain ⟨m, hm, rfl⟩ := Option.map_eq_some_iff.mp h
    rw [List.cons_append, bodyLength?, ih hm, Option.map_some]
    -- a backslash at the end takes nothing along, but then the body has no end either
    intro e more hc _
    cases text with
    | nil => cases hm
    | cons d text => exact hescape d text hc rfl
  | case4 depth text hdepth =>
    rw [List.cons_append, bodyLength?, if_pos rfl, if_pos hdepth]
    exact h
  | case5 depth text hdepth ih =>
    obtain ⟨m, hm, rfl⟩ := Option.map_eq_some_iff.mp h
    rw [List.cons_append, bodyLength?, if_pos rfl, if_neg hdepth, ih hm, Option.map_some]
  | case6 depth text hclose ih =>
    obtain ⟨m, hm, rfl⟩ := Option.map_eq_some_iff.mp h
    rw [List.cons_append, bodyLength?, if_neg hclose, if_pos rfl, ih hm, Option.map_some]
  | case7 depth c text hclose hopen ih =>
    obtain ⟨m, hm, rfl⟩ := Option.map_eq_some_iff.mp h
    rw [List.cons_append, bodyLength?, if_neg hclose, if_neg hopen, ih hm, Option.map_some]

theorem readLiteral?_append {quote : Char} {text : Text} {read : Nat × Text}
    (h : readLiteral? quote text = some read) (rest : Text) :
    readLiteral? quote (text ++ rest) = some read := by
  fun_induction readLiteral? quote text generalizing read with
  | case1 => cases h
  | case2 text =>
    unfold readLiteral?
    exact (if_pos rfl).trans h
  | case3 | case4 => cases h
  | case5 e text hquote hline ih =>
    obtain ⟨later, hlater, rfl⟩ := Option.map_eq_some_iff.mp h
    rw [List.cons_append, List.cons_append, readLiteral?, if_neg hquote, if_neg hline, if_pos rfl]
    dsimp only
    rw [ih hlater, Option.map_some]
  | case6 c text hquote hline hescape ih =>
    obtain ⟨later, hlater, rfl⟩ := Option.map_eq_some_iff.mp h
    unfold readLiteral?
    simp only [List.cons_append]
    rw [if_neg hquote, if_neg hline, if_neg hescape, ih hlater, Option.map_some]

theorem readQuoted?_append {text : Text} {read : Nat × Text} (h : readQuoted? text = some read)
    (rest : Text) : readQuoted? (text ++ rest) = some read := by
  cases text with
  | nil => cases h
  | cons q text =>
    rw [readQuoted?] at h
    rw [List.cons_append, readQuoted?]
    split at h
    next hq => rw [if_pos hq, readLiteral?_append h rest]
    next => cases h

theorem skipBlank_append_of_ne_nil {text : Text} (h : skipBlank text ≠ []) (rest : Text) :
    skipBlank (text ++ rest) = skipBlank text ++ rest := by
  rw [skipBlank, List.dropWhile_append, if_neg]
  · rfl
  · rw [List.isEmpty_iff]
    exact h

theorem settles_readKey? {text : Text} {k : Nat} {read : Nat × Text}
    (h : readKey? text = some (k, some read)) : Settles readKey? text := by
  have hall : ∀ rest, readKey? (text ++ rest) = some (k, some read) := by
    intro rest
    obtain ⟨behind, hcolon, heq⟩ := Option.map_eq_some_iff.mp h
    obtain ⟨rfl, hread⟩ := Prod.mk.inj heq
    obtain ⟨later, hword, hcolon⟩ := Option.bind_eq_some_iff.mp hcolon
    rw [after?_eq_some_iff] at hword hcolon
    have hquoted : skipBlank behind ≠ [] := by
      intro hnil
      rw [hnil] at hread
      cases hread
    have hcolon' : afterColon? (text ++ rest) = some (behind ++ rest) := by
      rw [afterColon?, hword, List.append_assoc, after?_eq_some_iff.mpr rfl, Option.bind_some,
        skipBlank_append_of_ne_nil (by rw [hcolon]; simp), hcolon, List.append_assoc,
        after?_eq_some_iff.mpr rfl]
    rw [readKey?, hcolon', Option.map_some, skipBlank_append_of_ne_nil hquoted,
      readQuoted?_append hread rest, List.length_append, List.length_append,
      Nat.add_sub_add_right]
  intro rest rest'
  rw [hall, hall]

theorem settles_bodyLiteral? {text : Text} {l : Literal} (h : bodyLiteral? text = some l) :
    Settles bodyLiteral? text := by
  have hall : ∀ rest, bodyLiteral? (text ++ rest) = some l := by
    intro rest
    cases hbody : bodyLength? 1 none text with
    | none =>
      rw [bodyLiteral?_eq_none hbody] at h
      cases h
    | some n =>
      obtain ⟨inner, later, rfl, rfl⟩ := exists_of_bodyLength? hbody
      have hbody' := bodyLength?_append hbody rest
      rw [List.append_assoc, List.cons_append] at hbody' ⊢
      rw [bodyLiteral?_eq hbody, firstKey?_eq] at h
      rw [bodyLiteral?_eq hbody', firstKey?_eq]
      cases hkey : afterKey? inner with
      | none =>
        rw [hkey] at h
        cases h
      | some behind =>
        rw [hkey] at h
        obtain ⟨read, hread, rfl⟩ := Option.map_eq_some_iff.mp h
        have hread' := readQuoted?_append hread rest
        rw [List.append_assoc, List.cons_append] at hread'
        rw [Option.map_some, Option.bind_some]
        dsimp only
        rw [hread', Option.map_some]
  intro rest rest'
  rw [hall, hall]

end Polyglot.Extraction.Protovalidate
