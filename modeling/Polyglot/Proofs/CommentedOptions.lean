import Polyglot.Proofs.BlankedComments
import Polyglot.Proofs.OptionReading

/-!
Comments and options. Commented options do not count, and what a comment says does not matter as
long as it stands outside of options. A comment in the body of an option does not matter either, if
it opens and closes nothing and stands apart from the key and its literal; but its quotes and braces
count, and so does a key in it. Main statement: if comments do not get in the way of options like
this, the same literals are found in a text and in the text whose comments gave way to blanks.
-/
namespace Polyglot.Extraction.Protovalidate

open Pattern (Span)

/-! Where places are moved to. -/

/-- Where a place is once comments gave way to blanks. -/
def movedTo (m : Marked) (n : Nat) : Nat := (veiled (m.take n)).length

def Literal.moved (m : Marked) (l : Literal) : Literal :=
  ⟨⟨movedTo m l.contents.start, movedTo m l.contents.stop⟩, l.decoded⟩

section

variable {m a b : Marked} {n k : Nat}

@[simp] theorem length_plain (m : Marked) : (plain m).length = m.length := List.length_map _

theorem movedTo_zero (m : Marked) : movedTo m 0 = 0 := rfl

theorem movedTo_cons (x : Char × Bool) (m : Marked) (n : Nat) :
    movedTo (x :: m) (n + 1) = (veil x).length + movedTo m n := by
  rw [movedTo, List.take_succ_cons, veiled_cons, List.length_append, movedTo]

theorem movedTo_append (a b : Marked) (n : Nat) :
    movedTo (a ++ b) (a.length + n) = (veiled a).length + movedTo b n := by
  rw [movedTo, List.take_length_add_append, veiled_append, List.length_append, movedTo]

theorem movedTo_of_le (h : n ≤ a.length) (b : Marked) : movedTo (a ++ b) n = movedTo a n := by
  rw [movedTo, List.take_append_of_le_length h, movedTo]

theorem length_le_veiled (m : Marked) : m.length ≤ (veiled m).length := by
  induction m with
  | nil => exact Nat.le_refl 0
  | cons x m ih =>
    have := List.length_pos_iff.mpr (veil_ne_nil x)
    rw [veiled_cons, List.length_append, List.length_cons]
    omega

/-- A stretch outside of comments keeps its length. -/
theorem movedTo_add (hn : n + k ≤ m.length) (h : Unmarked ((m.drop n).take k)) :
    movedTo m (n + k) = movedTo m n + k := by
  rw [movedTo, List.take_add, veiled_append, List.length_append, h.veiled_eq, length_plain,
    List.length_take, List.length_drop, movedTo]
  omega

theorem movedTo_le (h : n ≤ k) : movedTo m n ≤ movedTo m k := by
  obtain ⟨j, rfl⟩ := Nat.exists_eq_add_of_le h
  rw [movedTo, movedTo, List.take_add, veiled_append, List.length_append]
  exact Nat.le_add_right _ _

theorem movedTo_lt (h : n < k) (hk : k ≤ m.length) : movedTo m n < movedTo m k := by
  obtain ⟨j, rfl⟩ := Nat.exists_eq_add_of_lt h
  have hlength := length_le_veiled ((m.drop n).take (j + 1))
  rw [List.length_take, List.length_drop] at hlength
  rw [Nat.add_assoc, movedTo, movedTo, List.take_add, veiled_append, List.length_append]
  omega

theorem movedTo_le_iff (hn : n ≤ m.length) : movedTo m n ≤ movedTo m k ↔ n ≤ k := by
  refine ⟨?_, movedTo_le⟩
  intro h
  by_contra hlt
  have := movedTo_lt (Nat.lt_of_not_le hlt) hn
  omega

theorem moved_shift (a b : Marked) (l : Literal) :
    (l.shift a.length).moved (a ++ b) = (l.moved b).shift (veiled a).length := by
  simp only [Literal.moved, Literal.shift, movedTo_append]

end

/-! Bodies. -/

/-- Comments in a text open and close nothing. -/
def InertMarks (m : Marked) : Prop := ∀ x ∈ m, x.2 = true → Inert x.1

theorem inert_of_mem_veil {c d : Char} (h : d ∈ veil (c, true)) : Inert d := by
  rcases mem_veil_true h with rfl | rfl <;> decide

theorem exists_veil_eq_cons (x : Char × Bool) : ∃ c cs, veil x = c :: cs ∧ ∀ d ∈ cs, Inert d := by
  obtain ⟨c, hidden⟩ := x
  cases hidden with
  | false => exact ⟨c, [], veil_false c, by simp⟩
  | true =>
    obtain ⟨d, ds, hveil⟩ := List.exists_cons_of_ne_nil (veil_ne_nil (c, true))
    refine ⟨d, ds, hveil, ?_⟩
    intro e he
    exact @inert_of_mem_veil c e (by rw [hveil]; exact List.mem_cons_of_mem d he)

/-- Inert comments have no part in where a body ends. -/
theorem bodyLength?_veiled {m : Marked} (hinert : InertMarks m) {depth : Nat}
    {quote : Option Char} (hquote : ∀ q ∈ quote, isQuote q = true) :
    bodyLength? depth quote (veiled m) = (bodyLength? depth quote (plain m)).map (movedTo m) := by
  -- a backslash in a string takes the next character along, so the induction is on the length
  obtain ⟨n, hn⟩ : ∃ n, m.length ≤ n := ⟨_, Nat.le_refl _⟩
  induction n generalizing m depth quote with
  | zero =>
    obtain rfl := List.length_eq_zero_iff.mp (Nat.le_zero.mp hn)
    rfl
  | succ n ih =>
    cases m with
    | nil => rfl
    | cons x m =>
      obtain ⟨c, hidden⟩ := x
      rw [List.length_cons] at hn
      have hinert' : InertMarks m := fun x hx => hinert x (List.mem_cons_of_mem _ hx)
      cases hidden with
      | true =>
        have hc : ∀ d ∈ [c], Inert d := by
          intro d hd
          rw [List.mem_singleton.mp hd]
          exact hinert (c, true) List.mem_cons_self rfl
        have hplain : bodyLength? depth quote (c :: plain m) =
            (bodyLength? depth quote (plain m)).map (· + 1) :=
          bodyLength?_of_inert depth hquote hc (plain m)
        rw [plain_cons, hplain, veiled_cons,
          bodyLength?_of_inert depth hquote fun d hd => inert_of_mem_veil hd,
          ih hinert' hquote (by omega), Option.map_map, Option.map_map]
        congr 1
        funext k
        simp only [Function.comp_apply, movedTo_cons]
        omega
      | false =>
        rw [veiled_cons, veil_false, plain_cons, List.singleton_append]
        by_cases hescape : c = '\\' → quote = none
        · rcases bodyLength?_cons depth hquote hescape with hends | ⟨depth', quote', hquote', hstep⟩
          · rw [hends, hends]
            rfl
          · rw [hstep, hstep, ih hinert' hquote' (by omega), Option.map_map, Option.map_map]
            congr 1
        · rw [Classical.not_imp] at hescape
          obtain ⟨rfl, hsome⟩ := hescape
          obtain ⟨q, rfl⟩ := Option.ne_none_iff_exists'.mp hsome
          cases m with
          | nil => simp [bodyLength?, veiled, plain]
          | cons y m =>
            obtain ⟨d, ds, hveil, hds⟩ := exists_veil_eq_cons y
            rw [List.length_cons] at hn
            rw [veiled_cons, hveil, plain_cons, List.cons_append, bodyLength?, bodyLength?,
              bodyLength?_of_inert depth hquote hds,
              ih (fun x hx => hinert' x (List.mem_cons_of_mem _ hx)) hquote (by omega),
              Option.map_map, Option.map_map, Option.map_map]
            congr 1
            funext k
            simp only [Function.comp_apply, movedTo_cons, veil_false, hveil, List.length_cons,
              List.length_nil]
            omega

/-! Keys. -/

/-- The word of a key in front does not start a key if it stands in a comment; otherwise, who reads
the key and the literal behind it does not come upon a comment. -/
def KeyClear (m : Marked) : Prop :=
  (after? "expression" (plain m)).isSome = true →
    (readKey? (plain m) = none ∧ ∃ c rest, m = (c, true) :: rest) ∨
      ∃ front back, m = front ++ back ∧ Unmarked front ∧
        (back = [] ∨ Settles readKey? (plain front))

theorem keyClear_of_unmarked {m : Marked} (h : Unmarked m) : KeyClear m := by
  intro _
  exact Or.inr ⟨m, [], (List.append_nil m).symm, h, Or.inl rfl⟩

theorem readKey?_eq_none {text : Text} (h : after? "expression" text = none) :
    readKey? text = none := by
  rw [readKey?, afterColon?, h]
  rfl

theorem readKey?_cons_of_ne {c : Char} (h : c ≠ 'e') (rest : Text) :
    readKey? (c :: rest) = none := by
  refine readKey?_eq_none ?_
  rw [Option.eq_none_iff_forall_ne_some]
  intro behind hbehind
  rw [after?_eq_some_iff] at hbehind
  exact h (List.cons.inj hbehind).1

/-- How far a key and its literal reach. -/
theorem bounds_of_readKey? {text : Text} {k : Nat} {read : Option (Nat × Text)}
    (h : readKey? text = some (k, read)) : 0 < k ∧ k ≤ text.length ∧
      ∀ n decoded, read = some (n, decoded) → k + (1 + n) ≤ text.length := by
  obtain ⟨rest, hrest, heq⟩ := Option.map_eq_some_iff.mp h
  obtain ⟨rfl, rfl⟩ := Prod.mk.inj heq
  obtain ⟨behind, hword, hcolon⟩ := Option.bind_eq_some_iff.mp hrest
  rw [after?_eq_some_iff] at hword hcolon
  have hblank : (skipBlank rest).length ≤ rest.length := List.length_dropWhile_le _ _
  have hblank' : (skipBlank behind).length ≤ behind.length := List.length_dropWhile_le _ _
  have hlength := congrArg List.length hword
  have hlength' := congrArg List.length hcolon
  rw [List.length_append, show "expression".toList.length = 10 from rfl] at hlength
  rw [List.length_append, show ":".toList.length = 1 from rfl] at hlength'
  refine ⟨by omega, by omega, ?_⟩
  intro n decoded hread
  cases hquoted : skipBlank rest with
  | nil =>
    rw [hquoted] at hread
    cases hread
  | cons q more =>
    rw [hquoted, readQuoted?] at hread
    split at hread
    · obtain ⟨raw, post, rfl, rfl, -⟩ := spells_of_readLiteral? hread
      rw [hquoted] at hblank
      simp only [List.length_cons, List.length_append] at hblank ⊢
      omega
    · cases hread

/-- A clear key is read in the same way when comments give way to blanks. -/
theorem KeyClear.readKey?_eq {m : Marked} (h : KeyClear m) :
    readKey? (veiled m) = readKey? (plain m) ∧
      ∀ k read, readKey? (plain m) = some (k, read) → ∃ front back, m = front ++ back ∧
        Unmarked front ∧ readKey? (plain front) = some (k, read) := by
  by_cases hword : (after? "expression" (plain m)).isSome = true
  · rcases h hword with ⟨hnone, c, rest, rfl⟩ | ⟨front, back, rfl, hfront, hends⟩
    · -- what takes the place of a comment is blank and starts no word
      obtain ⟨d, ds, hveil⟩ := List.exists_cons_of_ne_nil (veil_ne_nil (c, true))
      have hd : d ≠ 'e' := by
        rintro rfl
        rcases @mem_veil_true c 'e' (by rw [hveil]; exact List.mem_cons_self) with heq | heq
        · cases heq
        · cases heq
      rw [hnone, veiled_cons, hveil, List.cons_append, readKey?_cons_of_ne hd]
      refine ⟨rfl, ?_⟩
      intro k read hkey
      cases hkey
    have hread : ∀ rest, (back = [] → rest = []) →
        readKey? (plain front ++ rest) = readKey? (plain front) := by
      intro rest hrest
      rcases hends with rfl | hsettles
      · rw [hrest rfl, List.append_nil]
      · rw [hsettles rest [], List.append_nil]
    have hplain : readKey? (plain (front ++ back)) = readKey? (plain front) := by
      rw [plain_append]
      exact hread _ fun hback => by rw [hback]; rfl
    have hveiled : readKey? (veiled (front ++ back)) = readKey? (plain front) := by
      rw [veiled_append, hfront.veiled_eq]
      exact hread _ fun hback => by rw [hback]; rfl
    refine ⟨hveiled.trans hplain.symm, ?_⟩
    intro k read hkey
    exact ⟨front, back, rfl, hfront, hplain.symm.trans hkey⟩
  · rw [Option.not_isSome_iff_eq_none] at hword
    have hnone : after? "expression" (veiled m) = none := by
      rw [Option.eq_none_iff_forall_ne_some]
      intro rest hrest
      rw [after?_eq_some_iff] at hrest
      obtain ⟨front, back, rfl, -, hfront, -⟩ :=
        exists_of_veiled_append hrest (by decide) (by decide)
      rw [plain_append, hfront, after?_eq_some_iff.mpr rfl] at hword
      cases hword
    rw [readKey?_eq_none hword, readKey?_eq_none hnone]
    refine ⟨rfl, ?_⟩
    intro k read hkey
    cases hkey

theorem firstKey?_append {front : Text} (h : 'e' ∉ front) (tail rest : Text) :
    firstKey? tail (front ++ rest) =
      (firstKey? tail rest).map fun found => (found.1 + front.length, found.2) := by
  induction front with
  | nil => simp
  | cons c front ih =>
    rw [List.mem_cons, not_or] at h
    rw [List.cons_append, firstKey?, List.cons_append, readKey?_cons_of_ne (Ne.symm h.1),
      Option.none_or, ih h.2, Option.map_map]
    congr 1

theorem Unmarked.take {m : Marked} (h : Unmarked m) (n : Nat) : Unmarked (m.take n) :=
  fun x hx => h x (List.mem_of_mem_take hx)

theorem Unmarked.drop {m : Marked} (h : Unmarked m) (n : Nat) : Unmarked (m.drop n) :=
  fun x hx => h x (List.mem_of_mem_drop hx)

/-- The literal behind a key stands outside of comments, together with its opening quote. -/
def ReadClear (m : Marked) (found : Nat × Option (Nat × Text)) : Prop :=
  ∀ n decoded, found.2 = some (n, decoded) →
    found.1 + (1 + n) ≤ m.length ∧ Unmarked ((m.drop found.1).take (1 + n))

theorem ReadClear.cons {m : Marked} {found : Nat × Option (Nat × Text)} (h : ReadClear m found)
    (x : Char × Bool) : ReadClear (x :: m) (found.1 + 1, found.2) := by
  intro n decoded hread
  obtain ⟨hle, hclear⟩ := h n decoded hread
  refine ⟨?_, hclear⟩
  rw [List.length_cons]
  omega

/-- A key that is read outside of comments keeps its length, and its literal is clear. -/
theorem readClear_of_unmarked {front : Marked} (hfront : Unmarked front) (back : Marked) {k : Nat}
    {read : Option (Nat × Text)} (h : readKey? (plain front) = some (k, read)) :
    movedTo (front ++ back) k = k ∧ ReadClear (front ++ back) (k, read) := by
  obtain ⟨-, hle, hliteral⟩ := bounds_of_readKey? h
  rw [length_plain] at hle hliteral
  refine ⟨?_, ?_⟩
  · rw [movedTo_of_le hle]
    have hmoved := @movedTo_add front 0 k (by rwa [Nat.zero_add]) (hfront.take k)
    rwa [Nat.zero_add, movedTo_zero, Nat.zero_add] at hmoved
  · intro n decoded hn
    have hreach := hliteral n decoded hn
    dsimp only
    refine ⟨?_, ?_⟩
    · rw [List.length_append]
      exact Nat.le_trans hreach (Nat.le_add_right _ _)
    · rw [List.drop_append_of_le_length hle, List.take_append_of_le_length]
      · exact (hfront.drop k).take (1 + n)
      · rw [List.length_drop]
        omega

theorem firstKey?_plain_cons {x : Char × Bool} {m rest : Marked}
    (h : readKey? (plain (x :: m ++ rest)) = none) :
    firstKey? (plain rest) (plain (x :: m)) =
      (firstKey? (plain rest) (plain m)).map fun found => (found.1 + 1, found.2) := by
  rw [plain_append, plain_cons] at h
  rw [plain_cons, firstKey?, h, Option.none_or]

theorem firstKey?_veiled_cons {x : Char × Bool} {m rest : Marked}
    (h : readKey? (veiled (x :: m ++ rest)) = none) :
    firstKey? (veiled rest) (veiled (x :: m)) = (firstKey? (veiled rest) (veiled m)).map
      fun found => (found.1 + (veil x).length, found.2) := by
  obtain ⟨c, hidden⟩ := x
  rw [veiled_cons]
  cases hidden with
  | true =>
    refine firstKey?_append (fun hmem => ?_) _ _
    rcases mem_veil_true hmem with heq | heq <;> cases heq
  | false =>
    rw [veiled_append, veiled_cons, veil_false, List.singleton_append] at h
    rw [veil_false, List.singleton_append, firstKey?, h, Option.none_or]
    rfl

/-- If all is clear up to the first key, it is the same when comments give way to blanks. -/
theorem firstKey?_veiled {m rest : Marked} (hclear : ∀ a b, m = a ++ b → b ≠ [] →
      firstKey? (plain (b ++ rest)) (plain a) = none → KeyClear (b ++ rest)) :
    firstKey? (veiled rest) (veiled m) = (firstKey? (plain rest) (plain m)).map
        (fun found => (movedTo (m ++ rest) found.1, found.2)) ∧
      ∀ found, firstKey? (plain rest) (plain m) = some found → ReadClear (m ++ rest) found := by
  induction m with
  | nil => exact ⟨rfl, fun found h => by cases h⟩
  | cons x m ih =>
    obtain ⟨hkey, hreach⟩ := (hclear [] (x :: m) rfl (by simp) rfl).readKey?_eq
    cases hread : readKey? (plain (x :: m ++ rest)) with
    | none =>
      rw [hread] at hkey
      obtain ⟨hsame, hreads⟩ := ih (by
        intro a b hm hb hnone
        refine hclear (x :: a) b (by rw [hm]; rfl) hb ?_
        rw [firstKey?_plain_cons (by rw [← hread, hm]; simp), hnone, Option.map_none])
      rw [firstKey?_plain_cons hread, firstKey?_veiled_cons hkey, hsame, Option.map_map,
        Option.map_map]
      refine ⟨?_, ?_⟩
      · congr 1
        funext found
        simp only [Function.comp_apply, List.cons_append, movedTo_cons, Nat.add_comm]
      · intro found hfound
        obtain ⟨later, hlater, rfl⟩ := Option.map_eq_some_iff.mp hfound
        exact (hreads later hlater).cons x
    | some found =>
      obtain ⟨k, read⟩ := found
      rw [hread] at hkey
      obtain ⟨front, back, hm, hfront, hkeyed⟩ := hreach k read hread
      obtain ⟨hpos, hle, -⟩ := bounds_of_readKey? hkeyed
      rw [length_plain] at hle
      obtain ⟨y, front', rfl⟩ := List.exists_cons_of_ne_nil
        (List.length_pos_iff.mp (Nat.lt_of_lt_of_le hpos hle))
      obtain ⟨rfl, -⟩ := List.cons.inj hm
      obtain ⟨c, hidden⟩ := x
      obtain rfl : hidden = false := hfront (c, hidden) List.mem_cons_self
      have hplain : firstKey? (plain rest) (plain ((c, false) :: m)) = some (k, read) := by
        rw [plain_append, plain_cons] at hread
        rw [plain_cons, firstKey?, hread, Option.some_or]
      have hveiled : firstKey? (veiled rest) (veiled ((c, false) :: m)) = some (k, read) := by
        rw [veiled_append, veiled_cons, veil_false, List.singleton_append] at hkey
        rw [veiled_cons, veil_false, List.singleton_append, firstKey?, hkey, Option.some_or]
      obtain ⟨hmoved, hliteral⟩ := readClear_of_unmarked hfront back hkeyed
      rw [hplain, hveiled, hm, Option.map_some, hmoved]
      refine ⟨rfl, ?_⟩
      rintro _ ⟨⟩
      exact hliteral

/-! Options. -/

/-- If comments are inert and keys are clear, the literal of an option is the same when comments
give way to blanks, and stands outside of comments. -/
theorem bodyLiteral?_veiled {m : Marked} (hinert : InertMarks m)
    (hclear : ∀ a b, m = a ++ b → b ≠ [] → firstKey? (plain b) (plain a) = none → KeyClear b) :
    bodyLiteral? (veiled m) = (bodyLiteral? (plain m)).map (Literal.moved m) ∧
      ∀ l, bodyLiteral? (plain m) = some l →
        Unmarked ((m.take l.contents.stop).drop l.contents.start) := by
  have hlength := @bodyLength?_veiled m hinert 1 none (by simp)
  cases hbody : bodyLength? 1 none (plain m) with
  | none =>
    rw [hbody] at hlength
    rw [bodyLiteral?_eq_none hbody, bodyLiteral?_eq_none hlength]
    exact ⟨rfl, fun l h => by cases h⟩
  | some n =>
    obtain ⟨inner, rest, hplain, rfl⟩ := exists_of_bodyLength? hbody
    obtain ⟨front, back, rfl, hfront, hback⟩ := List.map_eq_append_iff.mp hplain
    obtain ⟨⟨brace, hidden⟩, tail, rfl, hbrace, hrest⟩ := List.map_eq_cons_iff.mp hback
    obtain rfl : brace = '\x7d' := hbrace
    obtain rfl : hidden = false := by
      rw [Bool.eq_false_iff]
      intro hhidden
      have hbrace : Inert '\x7d' := hinert ('\x7d', hidden) (by simp) hhidden
      exact absurd hbrace (by decide)
    have hinner : front.length = inner.length := by rw [← hfront, List.length_map]
    have hend : movedTo (front ++ ('\x7d', false) :: tail) inner.length =
        (veiled front).length := by
      rw [← hinner]
      exact movedTo_append front _ 0
    obtain ⟨hsame, hreads⟩ := @firstKey?_veiled front (('\x7d', false) :: tail) (by
      intro a b hab hb hnone
      exact hclear a (b ++ ('\x7d', false) :: tail) (by rw [hab, List.append_assoc]) (by simp)
        hnone)
    rw [hbody, Option.map_some, hend] at hlength
    rw [plain_append, plain_cons] at hbody ⊢
    rw [veiled_append, veiled_cons, veil_false, List.singleton_append] at hlength ⊢
    rw [veiled_cons, veil_false, List.singleton_append, plain_cons] at hsame
    rw [plain_cons] at hreads
    rw [← hinner, ← length_plain front] at hbody
    rw [bodyLiteral?_eq hlength, bodyLiteral?_eq hbody, hsame]
    cases hfound : firstKey? ('\x7d' :: plain tail) (plain front) with
    | none => exact ⟨rfl, fun l h => by cases h⟩
    | some found =>
      obtain ⟨k, read⟩ := found
      cases read with
      | none => exact ⟨rfl, fun l h => by cases h⟩
      | some read =>
        obtain ⟨n, decoded⟩ := read
        obtain ⟨hle, hunmarked⟩ := hreads (k, some (n, decoded)) hfound n decoded rfl
        dsimp only at hle hunmarked
        have hquote := hunmarked.take 1
        rw [List.take_take, Nat.min_eq_left (Nat.le_add_right 1 n)] at hquote
        simp only [Option.map_some, Option.bind_some]
        refine ⟨?_, ?_⟩
        · simp only [Literal.moved, Nat.add_assoc]
          rw [movedTo_add hle hunmarked, movedTo_add (by omega) hquote]
        · rintro l ⟨⟩
          have hinside := hunmarked.drop 1
          rw [List.drop_take, List.drop_drop, Nat.add_sub_cancel_left] at hinside
          rw [List.drop_take, Nat.add_sub_cancel_left]
          exact hinside

def unmark (m : Marked) : Marked := m.map fun x => (x.1, false)

@[simp] theorem plain_unmark (m : Marked) : plain (unmark m) = plain m := by
  simp [plain, unmark]

theorem unmarked_unmark (m : Marked) : Unmarked (unmark m) := by
  intro x hx
  obtain ⟨y, _, rfl⟩ := List.mem_map.mp hx
  rfl

theorem Unmarked.append {m m' : Marked} (h : Unmarked m) (h' : Unmarked m') :
    Unmarked (m ++ m') := by
  intro x hx
  rcases List.mem_append.mp hx with hx | hx
  · exact h x hx
  · exact h' x hx

theorem KeyClear.unmark {a b : Marked} (h : KeyClear (a ++ b)) (ha : a ≠ []) :
    KeyClear (a ++ unmark b) := by
  intro hword
  rw [plain_append, plain_unmark, ← plain_append] at hword ⊢
  rcases h hword with ⟨hnone, c, rest, hhidden⟩ | ⟨front, back, hsplit, hfront, hends⟩
  · obtain ⟨x, a, rfl⟩ := List.exists_cons_of_ne_nil ha
    obtain ⟨rfl, -⟩ := List.cons.inj hhidden
    exact Or.inl ⟨hnone, c, a ++ Protovalidate.unmark b, rfl⟩
  rcases List.append_eq_append_iff.mp hsplit with ⟨gap, rfl, rfl⟩ | ⟨gap, rfl, rfl⟩
  · refine Or.inr ⟨a ++ Protovalidate.unmark gap, Protovalidate.unmark back, ?_, ?_, ?_⟩
    · rw [List.append_assoc]
      exact congrArg (a ++ ·) List.map_append
    · exact Unmarked.append (fun x hx => hfront x (List.mem_append_left _ hx)) (unmarked_unmark gap)
    · rw [plain_append, plain_unmark, ← plain_append]
      exact hends.imp_left fun hback => by rw [hback]; rfl
  · refine Or.inr ⟨front, gap ++ Protovalidate.unmark b, List.append_assoc .., hfront,
      hends.imp_left ?_⟩
    intro hback
    obtain ⟨rfl, rfl⟩ := List.append_eq_nil_iff.mp hback
    rfl

/-- The comments in the body of an option are not in the way: as far as the option is read, they are
inert, and all is clear up to its first key. -/
def Undisturbed (body : Marked) : Prop :=
  ∃ front back, body = front ++ back ∧ (back = [] ∨ Settles bodyLiteral? (veiled front)) ∧
    InertMarks front ∧ ∀ a b, front = a ++ b → b ≠ [] →
      firstKey? (plain (b ++ back)) (plain a) = none → KeyClear (b ++ back)

theorem Undisturbed.bodyLiteral?_veiled {m : Marked} (h : Undisturbed m) :
    bodyLiteral? (veiled m) = (bodyLiteral? (plain m)).map (Literal.moved m) ∧
      ∀ l, bodyLiteral? (plain m) = some l →
        Unmarked ((m.take l.contents.stop).drop l.contents.start) := by
  obtain ⟨front, back, rfl, hends, hinert, hclear⟩ := h
  -- what stands behind does not matter, so its marks can go
  have hinert' : InertMarks (front ++ unmark back) := by
    intro x hx hhidden
    rcases List.mem_append.mp hx with hx | hx
    · exact hinert x hx hhidden
    · rw [unmarked_unmark back x hx] at hhidden
      cases hhidden
  have hclear' : ∀ a b, front ++ unmark back = a ++ b → b ≠ [] →
      firstKey? (plain b) (plain a) = none → KeyClear b := by
    intro a b hab _ hnone
    rcases List.append_eq_append_iff.mp hab with ⟨gap, rfl, hgap⟩ | ⟨gap, rfl, rfl⟩
    · refine keyClear_of_unmarked fun x hx => unmarked_unmark back x ?_
      rw [hgap]
      exact List.mem_append_right _ hx
    · cases gap with
      | nil => exact keyClear_of_unmarked (unmarked_unmark back)
      | cons x gap =>
        rw [plain_append, plain_unmark, ← plain_append] at hnone
        exact (hclear a (x :: gap) rfl (by simp) hnone).unmark (by simp)
  obtain ⟨hsame, hunmarked⟩ := Protovalidate.bodyLiteral?_veiled hinert' hclear'
  rw [plain_append, plain_unmark, ← plain_append] at hsame hunmarked
  rcases hends with rfl | hsettles
  · simpa [unmark] using And.intro hsame hunmarked
  rw [veiled_append] at hsame ⊢
  rw [hsettles _ (veiled back)] at hsame
  cases hread : bodyLiteral? (plain (front ++ back)) with
  | none =>
    rw [hread] at hsame
    exact ⟨hsame, fun l h => by cases h⟩
  | some l =>
    rw [hread, Option.map_some] at hsame
    -- the literal is read without a look behind, so it ends in the front part
    have hstop : l.contents.stop ≤ front.length := by
      have halone : bodyLiteral? (veiled front) = some (l.moved (front ++ unmark back)) := by
        rw [← hsame, hsettles (veiled back) [], List.append_nil]
      obtain ⟨_, _, _, _, _, hstands⟩ := stands_of_literalOf? halone
      have hlt : movedTo (front ++ unmark back) l.contents.stop < (veiled front).length :=
        hstands.stop_lt
      have hend : movedTo (front ++ unmark back) front.length = (veiled front).length :=
        movedTo_append front (unmark back) 0
      by_contra hbeyond
      have hle := @movedTo_le (front ++ unmark back) _ _ (Nat.le_of_not_le hbeyond)
      omega
    have hstart : l.contents.start ≤ front.length := by
      obtain ⟨_, _, _, _, _, hstands⟩ := stands_of_literalOf? hread
      have hlength := hstands.stop_eq
      omega
    refine ⟨?_, ?_⟩
    · rw [hsame, Option.map_some, Literal.moved, Literal.moved, movedTo_of_le hstart,
        movedTo_of_le hstop, movedTo_of_le hstart, movedTo_of_le hstop]
    · rintro _ ⟨⟩
      have hinside := hunmarked l hread
      rw [List.take_append_of_le_length hstop] at hinside ⊢
      exact hinside

end Polyglot.Extraction.Protovalidate
