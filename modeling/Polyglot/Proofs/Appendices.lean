import Polyglot.Proofs.WrittenForm

/-!
Reading a path, a query or a fragment with a plain text behind it. Whatever is in front of it, the
text stays as it is, at the end: it completes no dot segment, no drive letter and no escape, and
none of its characters is encoded.
-/
namespace Polyglot.Url

/-- Characters that have no meaning of their own in a path. -/
def isPlain (c : Char) : Bool := isSchemeChar c || c == '(' || c == ')'

/-- A text that is an extension of whatever is in front of it. -/
structure Appendix (x : Text) : Prop where
  plain : ∀ c ∈ x, isPlain c = true
  head : x.head? = some '.'
  letter : 'p' ∈ x
  long : 2 < x.length

namespace Appendix

variable {x : Text}

theorem ne_nil (hx : Appendix x) : x ≠ [] := by
  rintro rfl
  cases hx.letter

theorem inPlace (hx : Appendix x) : ∀ c ∈ x, inPlace c = true := fun c hc =>
  inPlace_of_property (hx.plain c hc) (by decide)

theorem isIgnored (hx : Appendix x) : ∀ c ∈ x, isIgnored c = false := fun c hc =>
  (inPath_eq_true.mp (inPath_of_inPlace (hx.inPlace c hc))).2

theorem isTail (hx : Appendix x) : ∀ c ∈ x, isTail c = false := fun c hc =>
  (inPath_eq_true.mp (inPath_of_inPlace (hx.inPlace c hc))).1

theorem isSlash (hx : Appendix x) (kind : SchemeKind) : ∀ c ∈ x, isSlash kind c = false := by
  intro c hc
  obtain ⟨-, hslash, hback⟩ := inPlace_eq_true.mp (hx.inPlace c hc)
  simp [Url.isSlash, hslash, hback]

/-- Plain characters are never encoded. -/
theorem not_mem_set {c : Char} (hc : isPlain c = true) :
    isControl c = false ∧ inFragmentSet c = false ∧ inPathSet c = false ∧
      ∀ special, inQuerySet special c = false := by
  have hascii : c.toNat < 128 := by
    simp only [isPlain, Bool.or_eq_true, beq_iff_eq] at hc
    rcases hc with (hscheme | rfl) | rfl
    · exact toNat_lt_of_isSchemeChar hscheme
    · decide
    · decide
  have hall := forall_ascii (p := fun c => isPlain c = true → isControl c = false ∧
    inFragmentSet c = false ∧ inPathSet c = false ∧ ∀ special, inQuerySet special c = false)
    (by decide +kernel)
  exact hall c hascii hc

theorem encode_append_of_not_mem {set : Char → Bool} (hset : ∀ c, isPlain c = true → set c = false)
    (hx : Appendix x) (text : Text) : encode set (text ++ x) = encode set text ++ x := by
  rw [encode_append, encode_eq_self fun c hc => hset c (hx.plain c hc)]

end Appendix

/-! Paths. -/

theorem exists_splitSegments_append (kind : SchemeKind) (text : Text) :
    ∃ init last, (∀ c ∈ last, c ∈ text) ∧
      ∀ x, Appendix x → splitSegments kind (text ++ x) = init ++ [last ++ x] := by
  have hplain : ∀ x : Text, (∀ c ∈ x, isSlash kind c = false) → splitSegments kind x = [x] := by
    intro x hx
    induction x with
    | nil => rfl
    | cons c rest ih =>
      rw [splitSegments, hx c (List.mem_cons_self ..),
        ih fun y hy => hx y (List.mem_cons_of_mem c hy)]
      rfl
  induction text with
  | nil => exact ⟨[], [], by simp, fun x hx => hplain x (hx.isSlash kind)⟩
  | cons c rest ih =>
    obtain ⟨init, last, hlast, hsplit⟩ := ih
    have hmem : ∀ y ∈ last, y ∈ c :: rest := fun y hy => List.mem_cons_of_mem c (hlast y hy)
    cases hslash : isSlash kind c with
    | true =>
      refine ⟨[] :: init, last, hmem, fun x hx => ?_⟩
      simp [splitSegments, hslash, hsplit x hx]
    | false =>
      cases init with
      | nil =>
        refine ⟨[], c :: last, ?_, fun x hx => ?_⟩
        · intro y hy
          rcases List.mem_cons.mp hy with rfl | hy
          · exact List.mem_cons_self ..
          · exact hmem y hy
        · simp [splitSegments, hslash, hsplit x hx, Text.consLine]
      | cons first init =>
        refine ⟨(c :: first) :: init, last, hmem, fun x hx => ?_⟩
        simp [splitSegments, hslash, hsplit x hx, Text.consLine]

theorem exists_addSegments_append (kind : SchemeKind) (path : Text) (opening : Bool)
    (init : List Text) : ∃ path' opening', ∀ segment,
      addSegments kind path opening (init ++ [segment]) =
        addSegment kind path' opening' false segment := by
  induction init generalizing path opening with
  | nil => exact ⟨path, opening, fun segment => rfl⟩
  | cons first rest ih =>
    obtain ⟨path', opening', h⟩ := ih (addSegment kind path opening true first) false
    refine ⟨path', opening', fun segment => ?_⟩
    rw [← h segment]
    cases rest <;> rfl

theorem mem_dotForms {c : Char} (hc : c ∉ ['%', '2', 'e', 'E']) {text : Text} (h : c ∈ text) :
    c ∈ dotForms text := by
  fun_induction dotForms text with
  | case1 d rest hd ih =>
    simp only [List.mem_cons, List.not_mem_nil, or_false, not_or] at hc h ⊢
    rcases h with rfl | rfl | rfl | h
    · exact absurd rfl hc.1
    · exact absurd rfl hc.2.1
    · rcases hd with rfl | rfl
      · exact absurd rfl hc.2.2.1
      · exact absurd rfl hc.2.2.2
    · exact Or.inr (ih h)
  | case2 d rest hd ih =>
    rcases List.mem_cons.mp h with rfl | h
    · exact List.mem_cons_self ..
    · exact List.mem_cons_of_mem _ (ih h)
  | case3 d rest _ ih =>
    rcases List.mem_cons.mp h with rfl | h
    · exact List.mem_cons_self ..
    · exact List.mem_cons_of_mem _ (ih h)
  | case4 => cases h

theorem dividesDrive_eq_false {text : Text} (h : ∀ c ∈ text, isIgnored c = false) :
    dividesDrive text = false := by
  unfold dividesDrive
  split
  · rename_i next _ _ hdrop
    have hmem : next ∈ text.dropWhile (· != ':') := by
      rw [hdrop]
      simp
    simp [h next ((List.dropWhile_sublist _).subset hmem)]
  · rfl

/-- A last segment with an appendix is neither a dot segment nor a drive letter. -/
theorem addSegment_append (kind : SchemeKind) (path : Text) (opening : Bool) {segment x : Text}
    (hsegment : ∀ c ∈ segment, isIgnored c = false) (hx : Appendix x) :
    addSegment kind path opening false (segment ++ x) = path ++ encode inPathSet segment ++ x := by
  have hclean : ∀ c ∈ segment ++ x, isIgnored c = false := by
    intro c hc
    rcases List.mem_append.mp hc with hc | hc
    · exact hsegment c hc
    · exact hx.isIgnored c hc
  have hfilter : (segment ++ x).filter (!isIgnored ·) = segment ++ x :=
    List.filter_eq_self.mpr fun c hc => by simp [hclean c hc]
  have hletter : 'p' ∈ dotForms (segment ++ x) :=
    mem_dotForms (by decide) (List.mem_append_right segment hx.letter)
  have hdouble : isDoubleDot (segment ++ x) = false := by
    rw [isDoubleDot, beq_eq_false_iff_ne]
    intro hdots
    exact absurd (hdots ▸ hletter) (by decide)
  have hsingle : isSingleDot (segment ++ x) = false := by
    rw [isSingleDot, beq_eq_false_iff_ne]
    intro hdots
    exact absurd (hdots ▸ hletter) (by decide)
  have hdrive : isDriveLetter (segment ++ x) = false := by
    unfold isDriveLetter
    split
    · rename_i heq
      have := congrArg List.length heq
      have := hx.long
      simp at *
      omega
    · rfl
  unfold addSegment
  dsimp only
  rw [hfilter, dividesDrive_eq_false hclean, hdouble, hsingle, hdrive,
    hx.encode_append_of_not_mem fun c hc => (Appendix.not_mem_set hc).2.2.1]
  simp

theorem exists_readPath_append (kind : SchemeKind) (opening : Bool) {text : Text}
    (htext : ∀ c ∈ text, isIgnored c = false) :
    ∃ front, ∀ x, Appendix x → readPath kind opening (text ++ x) = front ++ x := by
  obtain ⟨init, last, hlast, hsplit⟩ := exists_splitSegments_append kind text
  obtain ⟨path, opening', hadd⟩ := exists_addSegments_append kind ['/'] opening init
  have hpath : ∀ x, Appendix x → addSegments kind ['/'] opening (splitSegments kind (text ++ x)) =
      path ++ encode inPathSet last ++ x := by
    intro x hx
    rw [hsplit x hx, hadd,
      addSegment_append kind path opening' (fun c hc => htext c (hlast c hc)) hx]
  unfold readPath
  dsimp only
  by_cases hfile : kind = .file
  · refine ⟨'/' :: (path ++ encode inPathSet last).dropWhile (· == '/'), fun x hx => ?_⟩
    rw [if_pos (by simpa using hfile), hpath x hx, List.dropWhile_append]
    split
    · rename_i hempty
      obtain ⟨rest, rfl⟩ := List.head?_eq_some_iff.mp hx.head
      rw [List.isEmpty_iff.mp hempty]
      rfl
    · rfl
  · refine ⟨path ++ encode inPathSet last, fun x hx => ?_⟩
    rw [if_neg (by simpa using hfile), hpath x hx]

/-! Queries and fragments. -/

theorem length_le_encode (set : Char → Bool) (text : Text) :
    text.length ≤ (encode set text).length := by
  induction text with
  | nil => exact Nat.le_refl 0
  | cons c rest ih =>
    have hone : 1 ≤
        (if set c then (String.utf8EncodeChar c).flatMap encodeByte else [c]).length := by
      split
      · rcases hbytes : String.utf8EncodeChar c with _ | ⟨b, more⟩
        · have := String.length_utf8EncodeChar c
          rw [hbytes] at this
          exact absurd this.symm (Char.utf8Size_pos c).ne'
        · simp [encodeByte]
      · simp
    rw [encode, List.flatMap_cons, List.length_append, List.length_cons]
    rw [encode] at ih
    omega

/-- A tail grows at its end, and everything else of the address stays. -/
theorem exists_withTail_append (kind : SchemeKind) (u : Url) (hquery : u.query = none)
    (hfragment : u.fragment = none) {c : Char} (hc : isTail c = true) (rest : Text) :
    ∃ front, rest.length < front.length ∧ ∀ x, Appendix x →
      ∃ query fragment, withTail kind u (c :: rest ++ x) =
        { u with query := query, fragment := fragment } ∧ tailOf query fragment = front ++ x := by
  have hquerySet : ∀ c, isPlain c = true → inQuerySet kind.isSpecial c = false :=
    fun c hc => (Appendix.not_mem_set hc).2.2.2 _
  have hfragmentSet : ∀ c, isPlain c = true → inFragmentSet c = false :=
    fun c hc => (Appendix.not_mem_set hc).2.1
  simp only [isTail, Bool.or_eq_true, beq_iff_eq] at hc
  rcases hc with rfl | rfl
  · by_cases hsharp : '#' ∈ rest
    · obtain ⟨a, b, rfl, ha⟩ := List.eq_append_cons_of_mem hsharp
      have hspan : ∀ x, (a ++ '#' :: b ++ x).span (· != '#') = (a, '#' :: (b ++ x)) := by
        intro x
        have hpos : ∀ c ∈ a, (c != '#') = true := fun c hc =>
          bne_iff_ne.mpr (by rintro rfl; exact ha hc)
        rw [List.span_eq_takeWhile_dropWhile, List.append_assoc, List.takeWhile_append_of_pos hpos,
          List.dropWhile_append_of_pos hpos]
        simp
      refine ⟨'?' :: encode (inQuerySet kind.isSpecial) a ++ '#' :: encode inFragmentSet b, ?_,
        fun x hx => ?_⟩
      · have := length_le_encode (inQuerySet kind.isSpecial) a
        have := length_le_encode inFragmentSet b
        simp only [List.length_append, List.length_cons]
        omega
      · refine ⟨some (String.ofList (encode (inQuerySet kind.isSpecial) a)),
          some (String.ofList (encode inFragmentSet (b ++ x))), ?_, ?_⟩
        · simp only [List.cons_append, withTail, hspan x]
        · rw [hx.encode_append_of_not_mem hfragmentSet]
          simp [tailOf]
    · have hspan : ∀ x, Appendix x → (rest ++ x).span (· != '#') = (rest ++ x, []) := by
        intro x hx
        have hpos : ∀ c ∈ rest ++ x, (c != '#') = true := by
          intro c hc
          rw [bne_iff_ne]
          rintro rfl
          rcases List.mem_append.mp hc with hc | hc
          · exact hsharp hc
          · exact absurd (hx.isTail _ hc) (by decide)
        rw [List.span_eq_takeWhile_dropWhile, List.takeWhile_eq_self_iff.mpr hpos,
          List.dropWhile_eq_nil_iff.mpr hpos]
      refine ⟨'?' :: encode (inQuerySet kind.isSpecial) rest, ?_, fun x hx => ?_⟩
      · have := length_le_encode (inQuerySet kind.isSpecial) rest
        rw [List.length_cons]
        omega
      · refine ⟨some (String.ofList (encode (inQuerySet kind.isSpecial) (rest ++ x))), none, ?_, ?_⟩
        · rw [← hfragment]
          simp only [List.cons_append, withTail, hspan x hx]
        · rw [hx.encode_append_of_not_mem hquerySet]
          simp [tailOf]
  · refine ⟨'#' :: encode inFragmentSet rest, ?_, fun x hx => ?_⟩
    · have := length_le_encode inFragmentSet rest
      rw [List.length_cons]
      omega
    · refine ⟨none, some (String.ofList (encode inFragmentSet (rest ++ x))), ?_, ?_⟩
      · rw [← hquery]
        rfl
      · rw [hx.encode_append_of_not_mem hfragmentSet]
        simp [tailOf]

end Polyglot.Url
