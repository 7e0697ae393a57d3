import Mathlib.Data.List.TakeDrop
import Polyglot.Url.Parser

/-!
Which characters the parts of an address are made of. What was read has no tabs and line breaks
left, its scheme, credentials and host have no slashes, and up to the end of its path nothing looks
like the start of a query or of a fragment.
-/
namespace Polyglot.Url

/-- Characters that may stand in a path. -/
def inPath (c : Char) : Bool := !isTail c && !isIgnored c

/-- Characters that may stand in front of a path. -/
def inPlace (c : Char) : Bool := inPath c && c != '/' && c != '\\'

theorem inPath_eq_true {c : Char} : inPath c = true ↔ isTail c = false ∧ isIgnored c = false := by
  simp [inPath]

theorem inPlace_eq_true {c : Char} :
    inPlace c = true ↔ inPath c = true ∧ c ≠ '/' ∧ c ≠ '\\' := by
  simp [inPlace, and_assoc]

theorem inPath_of_inPlace {c : Char} (h : inPlace c = true) : inPath c = true :=
  (inPlace_eq_true.mp h).1

/-- The characters in question are few, so a property that none of them has is enough. -/
theorem inPlace_of_property {p : Char → Bool} {c : Char} (h : p c = true)
    (hout : "?#\t\n\r/\\".toList.all (!p ·) = true) : inPlace c = true := by
  have hne : ∀ x ∈ "?#\t\n\r/\\".toList, c ≠ x := by
    rintro x hx rfl
    have := List.all_eq_true.mp hout c hx
    simp [h] at this
  simp only [inPlace, inPath, isTail, isIgnored, Bool.and_eq_true, Bool.not_eq_true',
    Bool.or_eq_false_iff, beq_eq_false_iff_ne, bne_iff_ne]
  exact ⟨⟨⟨⟨hne _ (by decide), hne _ (by decide)⟩, ⟨hne _ (by decide), hne _ (by decide)⟩,
    hne _ (by decide)⟩, hne _ (by decide)⟩, hne _ (by decide)⟩

theorem inPlace_of_isAlphanum {c : Char} (h : c.isAlphanum = true) : inPlace c = true :=
  inPlace_of_property h (by decide)

theorem inPlace_of_isSchemeChar {c : Char} (h : isSchemeChar c = true) : inPlace c = true :=
  inPlace_of_property h (by decide)

theorem isIgnored_eq_false_of_not_isControl {c : Char} (h : isControl c = false) :
    isIgnored c = false := by
  by_contra hignored
  simp only [isIgnored, Bool.not_eq_false, Bool.or_eq_true, beq_iff_eq] at hignored
  rcases hignored with (rfl | rfl) | rfl <;> exact absurd h (by decide)

/-! Encoded text. -/

theorem isAlphanum_hexDigit (n : Nat) (h : n < 16) : (hexDigit n).isAlphanum = true := by
  have : ∀ m : Fin 16, (hexDigit m.val).isAlphanum = true := by decide
  exact this ⟨n, h⟩

/-- What encoding leaves is what does not have to be encoded, and the signs it writes. -/
theorem mem_encode {set : Char → Bool} {text : Text} {c : Char} (h : c ∈ encode set text) :
    (c ∈ text ∧ set c = false) ∨ c = '%' ∨ c.isAlphanum = true := by
  obtain ⟨x, hx, hc⟩ := List.mem_flatMap.mp h
  split at hc
  · obtain ⟨b, -, hc⟩ := List.mem_flatMap.mp hc
    have hb := b.toNat_lt
    simp only [encodeByte, List.mem_cons, List.not_mem_nil, or_false] at hc
    rcases hc with rfl | rfl | rfl
    · exact Or.inr (Or.inl rfl)
    · exact Or.inr (Or.inr (isAlphanum_hexDigit _ (by omega)))
    · exact Or.inr (Or.inr (isAlphanum_hexDigit _ (by omega)))
  · rename_i hset
    obtain rfl := List.mem_singleton.mp hc
    exact Or.inl ⟨hx, by simpa using hset⟩

theorem forall_mem_encode {set p : Char → Bool} {text : Text}
    (h : ∀ c ∈ text, set c = false → p c = true) (hsign : p '%' = true)
    (hdigit : ∀ c : Char, c.isAlphanum = true → p c = true) :
    ∀ c ∈ encode set text, p c = true := by
  intro c hc
  rcases mem_encode hc with ⟨hmem, hset⟩ | rfl | halnum
  · exact h c hmem hset
  · exact hsign
  · exact hdigit c halnum

theorem encode_append (set : Char → Bool) (s t : Text) :
    encode set (s ++ t) = encode set s ++ encode set t := List.flatMap_append

theorem encode_eq_self {set : Char → Bool} {text : Text} (h : ∀ c ∈ text, set c = false) :
    encode set text = text := by
  induction text with
  | nil => rfl
  | cons c rest ih =>
    have hc := h c (List.mem_cons_self ..)
    have hrest := ih fun x hx => h x (List.mem_cons_of_mem c hx)
    rw [encode] at hrest
    simp [encode, hc, hrest]

theorem encode_inPath (text : Text) : ∀ c ∈ encode inPathSet text, inPath c = true := by
  refine forall_mem_encode ?_ (by decide) (fun c h => inPath_of_inPlace (inPlace_of_isAlphanum h))
  intro c _ hset
  simp only [inPathSet, inFragmentSet, Bool.or_eq_false_iff] at hset
  refine inPath_eq_true.mpr ⟨?_, isIgnored_eq_false_of_not_isControl hset.1.1⟩
  by_contra htail
  simp only [isTail, Bool.not_eq_false, Bool.or_eq_true, beq_iff_eq] at htail
  rcases htail with rfl | rfl <;> exact absurd hset.2 (by decide)

theorem encode_inPlace_of_inUserSet (text : Text) :
    ∀ c ∈ encode inUserSet text, inPlace c = true := by
  refine forall_mem_encode ?_ (by decide) (fun c h => inPlace_of_isAlphanum h)
  intro c _ hset
  exact inPlace_of_property (p := fun c => !inUserSet c) (by simp [hset]) (by decide)

/-! Hosts. -/

theorem mem_joinWith {separator c : Char} {parts : List Text}
    (h : c ∈ Text.joinWith separator parts) : c = separator ∨ ∃ part ∈ parts, c ∈ part := by
  unfold Text.joinWith at h
  induction parts with
  | nil => simp [List.intercalate] at h
  | cons part rest ih =>
    cases rest with
    | nil =>
      rw [List.intercalate_singleton] at h
      exact Or.inr ⟨part, List.mem_cons_self .., h⟩
    | cons next rest =>
      rw [List.intercalate_cons_cons, List.append_assoc, List.mem_append, List.mem_append,
        List.mem_singleton] at h
      rcases h with hc | rfl | hc
      · exact Or.inr ⟨part, List.mem_cons_self .., hc⟩
      · exact Or.inl rfl
      · rcases ih hc with rfl | ⟨q, hq, hmem⟩
        · exact Or.inl rfl
        · exact Or.inr ⟨q, List.mem_cons_of_mem part hq, hmem⟩

theorem isAlphanum_of_mem_hexPiece {n : Nat} {c : Char} (h : c ∈ hexPiece n) :
    c.isAlphanum = true := by
  have hdigit : ∀ m : Fin 16, (Nat.digitChar m.val).isAlphanum = true := by decide
  unfold hexPiece at h
  induction n using Nat.strongRecOn with
  | ind n ih =>
    by_cases hn : n < 16
    · rw [Nat.toDigits_of_lt_base hn, List.mem_singleton] at h
      exact h ▸ hdigit ⟨n, hn⟩
    · rw [Nat.toDigits_of_base_le (by omega) (by omega), List.mem_append, List.mem_singleton] at h
      rcases h with h | rfl
      · exact ih (n / 16) (by omega) h
      · exact hdigit ⟨n % 16, by omega⟩

theorem renderIpv4_inPlace (n : Nat) : ∀ c ∈ renderIpv4 n, inPlace c = true := by
  intro c hc
  rcases mem_joinWith hc with rfl | ⟨part, hpart, hmem⟩
  · decide
  · obtain ⟨b, -, rfl⟩ := List.mem_map.mp hpart
    rw [Nat.toString_eq_repr, Nat.toList_repr] at hmem
    have hdigit := Nat.isDigit_of_mem_toDigits (by omega) (by omega) hmem
    exact inPlace_of_property hdigit (by decide)

theorem renderIpv6_inPlace (pieces : List Nat) : ∀ c ∈ renderIpv6 pieces, inPlace c = true := by
  have hjoined : ∀ ns : List Nat, ∀ c ∈ Text.joinWith ':' (ns.map hexPiece), inPlace c = true := by
    intro ns c hc
    rcases mem_joinWith hc with rfl | ⟨part, hpart, hmem⟩
    · decide
    · obtain ⟨n, -, rfl⟩ := List.mem_map.mp hpart
      exact inPlace_of_isAlphanum (isAlphanum_of_mem_hexPiece hmem)
  intro c hc
  unfold renderIpv6 at hc
  dsimp only at hc
  split at hc
  · exact hjoined _ c hc
  · rw [List.mem_append, List.mem_append] at hc
    rcases hc with (hc | hc) | hc
    · exact hjoined _ c hc
    · simp only [List.mem_cons, List.not_mem_nil, or_false, or_self] at hc
      exact hc ▸ (by decide)
    · exact hjoined _ c hc

theorem readBracketed_inPlace {host out : Text} (h : readBracketed host = .ok out) :
    out ≠ [] ∧ ∀ c ∈ out, inPlace c = true := by
  unfold readBracketed at h
  split at h
  · split at h
    · rename_i pieces _
      obtain rfl := Except.ok.inj h
      refine ⟨by simp, ?_⟩
      intro c hc
      rw [List.cons_append, List.mem_cons, List.mem_append, List.mem_singleton] at hc
      rcases hc with rfl | hc | rfl
      · decide
      · exact renderIpv6_inPlace pieces c hc
      · decide
    · cases h
  · cases h

/-! Labels written in ASCII. -/

namespace Punycode

theorem isAlphanum_digitChar (d : Nat) (h : d < 36) : (digitChar d).isAlphanum = true := by
  have : ∀ m : Fin 36, (digitChar m.val).isAlphanum = true := by decide
  exact this ⟨d, h⟩

theorem threshold_le (place bias : Nat) : threshold place bias ≤ 26 := by
  unfold threshold
  split
  · omega
  · split <;> omega

theorem isAlphanum_of_mem_writeNumber (bias place n : Nat) :
    ∀ c ∈ writeNumber bias place n, c.isAlphanum = true := by
  fun_induction writeNumber bias place n with
  | case1 place n t hlast =>
    have hle : t ≤ 26 := threshold_le place bias
    intro c hc
    rw [List.mem_singleton.mp hc]
    exact isAlphanum_digitChar n (by omega)
  | case2 place n t hmore ih =>
    have hle : t ≤ 26 := threshold_le place bias
    have hmod : (n - t) % (36 - t) < 36 - t := Nat.mod_lt _ (by omega)
    intro c hc
    rcases List.mem_cons.mp hc with rfl | hc
    · exact isAlphanum_digitChar _ (by omega)
    · exact ih c hc

theorem pass_inPlace {w : Writer} (h : ∀ c ∈ w.text, inPlace c = true) (ascii n : Nat) (x : Char) :
    ∀ c ∈ (w.pass ascii n x).text, inPlace c = true := by
  unfold Writer.pass
  split
  · exact h
  · split
    · intro c hc
      rcases List.mem_append.mp hc with hc | hc
      · exact h c hc
      · exact inPlace_of_isAlphanum (isAlphanum_of_mem_writeNumber _ _ _ c hc)
    · exact h

theorem place_inPlace (name : Text) (ascii : Nat) {w : Writer} (h : ∀ c ∈ w.text, inPlace c = true)
    (n : Nat) (points : List Nat) :
    ∀ c ∈ (w.place name ascii n points).text, inPlace c = true := by
  induction points generalizing w n with
  | nil => exact h
  | cons m rest ih =>
    have hpassed : ∀ v : Writer, (∀ c ∈ v.text, inPlace c = true) →
        ∀ c ∈ (name.foldl (Writer.pass ascii m) v).text, inPlace c = true := fun v hv =>
      List.foldlRecOn name (Writer.pass ascii m) (motive := fun v => ∀ c ∈ v.text, inPlace c = true)
        hv (fun v hv x _ => pass_inPlace hv ascii m x)
    unfold Writer.place
    refine ih ?_ (m + 1)
    exact hpassed { w with delta := w.delta + (m - n) * (w.placed + 1) } h

theorem encode_inPlace {name : Text} (h : ∀ c ∈ name, inPlace c = true) :
    ∀ c ∈ encode name, inPlace c = true := by
  refine place_inPlace name _ ?_ 0x80 _
  have hascii : ∀ c ∈ name.filter (·.toNat < 0x80), inPlace c = true :=
    fun c hc => h c (List.mem_filter.mp hc).1
  intro c hc
  dsimp only at hc
  split at hc
  · simp at hc
  · rcases List.mem_append.mp hc with hc | hc
    · exact hascii c hc
    · rw [List.mem_singleton.mp hc]
      decide

theorem isAlphanum_of_digitValue? {c : Char} {d : Nat} (h : digitValue? c = some d) :
    c.isAlphanum = true := by
  unfold digitValue? at h
  have hkinds : c.isAlphanum = (c.isUpper || c.isLower || c.isDigit) := rfl
  rw [hkinds, Bool.or_eq_true, Bool.or_eq_true]
  split at h
  · rename_i hlower
    exact Or.inl (Or.inr hlower)
  · split at h
    · rename_i hupper
      exact Or.inl (Or.inl hupper)
    · split at h
      · rename_i hdigit
        exact Or.inr hdigit
      · cases h

theorem readNumber?_eq_some {bias place weight n j : Nat} {digits rest : Text}
    (h : readNumber? bias place weight n digits = some (j, rest)) :
    ∃ read, digits = read ++ rest ∧ ∀ c ∈ read, c.isAlphanum = true := by
  induction digits generalizing place weight n with
  | nil => cases h
  | cons c more ih =>
    obtain ⟨d, hd, h⟩ := Option.bind_eq_some_iff.mp h
    have hc := isAlphanum_of_digitValue? hd
    dsimp only at h
    split at h
    · obtain ⟨-, rfl⟩ := Prod.mk.inj (Option.some.inj h)
      exact ⟨[c], rfl, by simpa using hc⟩
    · split at h
      · obtain ⟨read, rfl, hread⟩ := ih h
        refine ⟨c :: read, rfl, ?_⟩
        intro x hx
        rcases List.mem_cons.mp hx with rfl | hx
        · exact hc
        · exact hread x hx
      · cases h

theorem insertAll?_eq_some {fuel bias n i : Nat} {name digits out : Text}
    (h : insertAll? fuel bias n i name digits = some out) :
    (∀ c ∈ name, c ∈ out) ∧ ∀ c ∈ digits, c.isAlphanum = true := by
  fun_induction insertAll? fuel bias n i name digits with
  | case1 => exact ⟨fun c hc => Option.some.inj h ▸ hc, by simp⟩
  | case2 => cases h
  | case3 fuel bias n i name digits hne ih =>
    obtain ⟨⟨j, rest⟩, hread, hmore⟩ := Option.bind_eq_some_iff.mp h
    obtain ⟨read, rfl, hdigits⟩ := readNumber?_eq_some hread
    dsimp only at hmore
    split at hmore
    · obtain ⟨hname, hrest⟩ := ih _ _ hmore
      refine ⟨?_, ?_⟩
      · intro c hc
        refine hname c ?_
        rw [← List.take_append_drop (j % (name.length + 1)) name] at hc
        simp only [List.mem_append] at hc ⊢
        tauto
      · intro c hc
        rcases List.mem_append.mp hc with hc | hc
        · exact hdigits c hc
        · exact hrest c hc
    · cases hmore

/-- What a written label is made of: characters of the name, digits, and hyphens. -/
theorem mem_of_decode?_eq_some {text name : Text} (h : decode? text = some name) :
    ∀ c ∈ text, c ∈ name ∨ c = '-' ∨ c.isAlphanum = true := by
  intro c hc
  unfold decode? at h
  split at h
  · rename_i digits hyphen first more hspan
    obtain ⟨hname, hdigits⟩ := insertAll?_eq_some h
    rw [List.span_eq_takeWhile_dropWhile, Prod.mk.injEq] at hspan
    have hhyphen : hyphen = '-' := by
      have := List.head?_dropWhile_not (· != '-') text.reverse
      rw [hspan.2] at this
      simpa using this
    have htext : text.reverse = digits ++ hyphen :: first :: more := by
      rw [← hspan.1, ← hspan.2, List.takeWhile_append_dropWhile]
    have hmem : c ∈ digits ++ hyphen :: first :: more := htext ▸ List.mem_reverse.mpr hc
    rcases List.mem_append.mp hmem with hmem | hmem
    · exact Or.inr (Or.inr (hdigits c (List.mem_reverse.mpr hmem)))
    · rcases List.mem_cons.mp hmem with rfl | hmem
      · exact Or.inr (Or.inl hhyphen)
      · exact Or.inl (hname c (List.mem_reverse.mpr hmem))
  · exact Or.inr (Or.inr ((insertAll?_eq_some h).2 c hc))

end Punycode

namespace DomainName

theorem inPlace_of_not_isBarred {c : Char} (h : isBarred c = false) : inPlace c = true :=
  inPlace_of_property (p := fun c => !isBarred c) (by simp [h]) (by decide)

theorem written_inPlace {text : Text} {label : Label} (h : readLabel? text = some label)
    (hname : ∀ c ∈ label.name, inPlace c = true) : ∀ c ∈ label.written, inPlace c = true := by
  have hmark : ∀ c ∈ mark, inPlace c = true := List.all_eq_true.mp (by decide)
  unfold readLabel? at h
  split at h
  · rename_i hopens
    dsimp only at h
    split at h
    · cases h
    · split at h
      · rename_i name hdecode
        split at h
        · obtain rfl := Option.some.inj h
          obtain ⟨digits, rfl⟩ := List.isPrefixOf_iff_prefix.mp hopens
          rw [List.drop_left] at hdecode
          intro c hc
          rcases List.mem_append.mp hc with hc | hc
          · exact hmark c hc
          · rcases Punycode.mem_of_decode?_eq_some hdecode c hc with hmem | rfl | halnum
            · exact hname c hmem
            · decide
            · exact inPlace_of_isAlphanum halnum
        · cases h
      · cases h
  · split at h
    · obtain rfl := Option.some.inj h
      exact hname
    · split at h
      · obtain rfl := Option.some.inj h
        intro c hc
        rcases List.mem_append.mp hc with hc | hc
        · exact hmark c hc
        · exact Punycode.encode_inPlace hname c hc
      · cases h

theorem exists_of_mem_mapM {α β : Type} {f : α → Option β} {l : List α} {out : List β}
    (h : l.mapM f = some out) {b : β} (hb : b ∈ out) : ∃ a ∈ l, f a = some b := by
  induction l generalizing out with
  | nil =>
    obtain rfl := Option.some.inj h
    cases hb
  | cons a rest ih =>
    rw [List.mapM_cons] at h
    obtain ⟨first, hfirst, h⟩ := Option.bind_eq_some_iff.mp h
    obtain ⟨others, hothers, h⟩ := Option.bind_eq_some_iff.mp h
    obtain rfl := Option.some.inj h
    rcases List.mem_cons.mp hb with rfl | hb
    · exact ⟨a, List.mem_cons_self .., hfirst⟩
    · obtain ⟨x, hx, hfound⟩ := ih hothers hb
      exact ⟨x, List.mem_cons_of_mem a hx, hfound⟩

theorem toAscii?_inPlace {name out : Text} (h : toAscii? name = some out) :
    ∀ c ∈ out, inPlace c = true := by
  obtain ⟨mapped, -, h⟩ := Option.bind_eq_some_iff.mp h
  obtain ⟨found, hfound, h⟩ := Option.bind_eq_some_iff.mp h
  split at h
  · cases h
  · rename_i hbarred
    split at h
    · cases h
    · obtain rfl := Option.some.inj h
      intro c hc
      rcases mem_joinWith hc with rfl | ⟨part, hpart, hmem⟩
      · decide
      · obtain ⟨label, hlabel, rfl⟩ := List.mem_map.mp hpart
        obtain ⟨text, -, hread⟩ := exists_of_mem_mapM hfound hlabel
        refine written_inPlace hread ?_ c hmem
        intro x hx
        refine inPlace_of_not_isBarred ?_
        by_contra hx'
        exact hbarred (List.any_eq_true.mpr ⟨label, hlabel,
          List.any_eq_true.mpr ⟨x, hx, by simpa using hx'⟩⟩)

end DomainName

theorem readDomain_inPlace {host out : Text} (h : readDomain host = .ok out) :
    out ≠ [] ∧ ∀ c ∈ out, inPlace c = true := by
  unfold readDomain at h
  split at h
  · exact readBracketed_inPlace h
  · split at h
    · cases h
    · rename_i name hname
      obtain ⟨decoded, -, hascii⟩ := Option.bind_eq_some_iff.mp hname
      split at h
      · cases h
      · rename_i hne
        split at h
        · split at h
          · obtain rfl := Except.ok.inj h
            refine ⟨?_, renderIpv4_inPlace _⟩
            simp [renderIpv4, Text.joinWith, List.intercalate]
          · cases h
        · obtain rfl := Except.ok.inj h
          exact ⟨by simpa using hne, DomainName.toAscii?_inPlace hascii⟩

theorem readPlainHost_inPlace {host out : Text} (h : readPlainHost host = .ok out) :
    ∀ c ∈ out, inPlace c = true := by
  unfold readPlainHost at h
  split at h
  · exact (readBracketed_inPlace h).2
  · split at h
    · cases h
    · rename_i hallowed
      obtain rfl := Except.ok.inj h
      refine forall_mem_encode ?_ (by decide) (fun c hc => inPlace_of_isAlphanum hc)
      intro c hc _
      refine inPlace_of_property (p := fun c => !forbiddenInHost c) ?_ (by decide)
      by_contra hforbidden
      exact hallowed (List.any_eq_true.mpr ⟨c, hc, by simpa using hforbidden⟩)

end Polyglot.Url
