import Polyglot.Proofs.AddressShape
import Polyglot.Server.Store

/-!
The written form of an address that was read can be taken apart again. So files with the same
written form are of the same language.
-/
namespace Polyglot

namespace Url

/-- What is written in front of the query and the fragment, behind the colon of the scheme. -/
def middle (u : Url) : Text := u.authority.toList ++ u.path.toList

theorem toList_href (u : Url) :
    u.href.toList = u.scheme.toList ++ ':' :: (u.middle ++ tailOf u.query u.fragment) := by
  unfold href middle tailOf
  cases u.query <;> cases u.fragment <;> simp

theorem tailOf_shape (query fragment : Option String) :
    tailOf query fragment = [] ∨ ∃ c rest, tailOf query fragment = c :: rest ∧ isTail c = true := by
  unfold tailOf
  cases query with
  | some q => exact Or.inr ⟨'?', _, rfl, rfl⟩
  | none =>
    cases fragment with
    | some f => exact Or.inr ⟨'#', _, rfl, rfl⟩
    | none => exact Or.inl rfl

/-- The place of an address as it is written. -/
def placeText (u : Url) : Text :=
  u.credentials.toList ++ (u.host.getD "").toList ++
    (match u.portNumber with | some p => ':' :: (toString p).toList | none => [])

theorem authority_of_some {u : Url} {host : String} (h : u.host = some host) :
    u.authority.toList = '/' :: '/' :: u.placeText := by
  unfold authority placeText
  rw [h]
  cases u.portNumber <;> simp

theorem authority_of_none {u : Url} (h : u.host = none) :
    u.authority.toList =
      if u.flat = false ∧ ['/', '/'] <+: u.path.toList then ['/', '.'] else [] := by
  have hstart : (u.path.startsWith "//" = true) ↔ ['/', '/'] <+: u.path.toList :=
    String.startsWith_string_iff
  unfold authority
  rw [h]
  simp only [Bool.and_eq_true, Bool.not_eq_true', hstart]
  split <;> rfl

namespace Settled

variable {u : Url}

theorem placeText_inPlace (h : Settled u) : ∀ c ∈ u.placeText, inPlace c = true := by
  intro c hc
  rcases List.mem_append.mp hc with hc | hc
  · exact h.place c hc
  · split at hc
    · rename_i p _
      rcases List.mem_cons.mp hc with rfl | hc
      · decide
      · rw [Nat.toString_eq_repr, Nat.toList_repr] at hc
        exact inPlace_of_property (Nat.isDigit_of_mem_toDigits (by omega) (by omega) hc) (by decide)
    · cases hc

theorem middle_inPath (h : Settled u) : ∀ c ∈ u.middle, inPath c = true := by
  intro c hc
  rcases List.mem_append.mp hc with hc | hc
  · rcases hhost : u.host with _ | host
    · rw [authority_of_none hhost] at hc
      split at hc
      · have hdot : ∀ c ∈ ['/', '.'], inPath c = true := List.all_eq_true.mp (by decide)
        exact hdot c hc
      · cases hc
    · rw [authority_of_some hhost] at hc
      rcases List.mem_cons.mp hc with rfl | hc
      · decide
      · rcases List.mem_cons.mp hc with rfl | hc
        · decide
        · exact inPath_of_inPlace (h.placeText_inPlace c hc)
  · exact h.path c hc

/-- The written form up to the query and the fragment. -/
theorem takeWhile_href (h : Settled u) :
    u.href.toList.takeWhile (!isTail ·) = u.scheme.toList ++ ':' :: u.middle := by
  have hfront : ∀ c ∈ u.scheme.toList ++ ':' :: u.middle, (!isTail c) = true := by
    intro c hc
    have hin : inPath c = true := by
      rcases List.mem_append.mp hc with hc | hc
      · exact inPath_of_inPlace (inPlace_of_isSchemeChar (h.scheme.chars c hc))
      · rcases List.mem_cons.mp hc with rfl | hc
        · decide
        · exact h.middle_inPath c hc
    simpa using (inPath_eq_true.mp hin).1
  rw [toList_href, ← List.cons_append, ← List.append_assoc, List.takeWhile_append_of_pos hfront]
  rcases tailOf_shape u.query u.fragment with hnil | ⟨c, rest, hcons, hc⟩
  · rw [hnil, List.takeWhile_nil, List.append_nil]
  · rw [hcons, List.takeWhile_cons, hc]
    simp

/-- The query and the fragment in the written form. -/
theorem dropWhile_href (h : Settled u) :
    u.href.toList.dropWhile (!isTail ·) = tailOf u.query u.fragment := by
  have hall := List.takeWhile_append_dropWhile (p := (!isTail ·)) (l := u.href.toList)
  rw [h.takeWhile_href] at hall
  have hhref := toList_href u
  rw [← List.cons_append, ← List.append_assoc, ← hall] at hhref
  exact List.append_cancel_left hhref

theorem dropWhile_scheme (h : Settled u) (rest : Text) :
    (u.scheme.toList ++ ':' :: rest).dropWhile (· != ':') = ':' :: rest := by
  rw [List.dropWhile_append_of_pos, List.dropWhile_cons]
  · simp
  · intro c hc
    have := h.scheme.chars c hc
    rw [bne_iff_ne]
    rintro rfl
    exact absurd this (by decide)

end Settled

/-- The path in what is written behind a scheme. A path that could be taken for an authority keeps
the dot that is written in front of it. -/
def pathIn : Text → Text
  | '/' :: '/' :: rest => rest.dropWhile (· != '/')
  | text => text

theorem pathIn_eq_self {text : Text} (h : ¬['/', '/'] <+: text) : pathIn text = text := by
  unfold pathIn
  split
  · rename_i rest
    exact absurd ⟨rest, rfl⟩ h
  · rfl

end Url

theorem afterLast?_append {mark : Char} (front : Text) {ext : Text} (h : mark ∉ ext) :
    afterLast? mark (front ++ mark :: ext) = some ext := by
  have hext : ∀ c ∈ ext.reverse, (c != mark) = true := by
    intro c hc
    rw [bne_iff_ne]
    rintro rfl
    exact h (List.mem_reverse.mp hc)
  have hreverse : (front ++ mark :: ext).reverse = ext.reverse ++ mark :: front.reverse := by simp
  unfold afterLast?
  rw [hreverse, List.span_eq_takeWhile_dropWhile, List.takeWhile_append_of_pos hext,
    List.dropWhile_append_of_pos hext, List.takeWhile_cons, List.dropWhile_cons]
  simp

theorem afterLast?_eq_none {mark : Char} {text : Text} (h : mark ∉ text) :
    afterLast? mark text = none := by
  have hall : ∀ c ∈ text.reverse, (c != mark) = true := by
    intro c hc
    rw [bne_iff_ne]
    rintro rfl
    exact h (List.mem_reverse.mp hc)
  unfold afterLast?
  rw [List.span_eq_takeWhile_dropWhile, List.dropWhile_eq_nil_iff.mpr hall]

/-- A dot in front of a path with a slash does not open an extension. -/
theorem languageOfPath_dot (path : Text) (h : '/' ∈ path) :
    languageOfPath ('/' :: '.' :: path) = languageOfPath path := by
  by_cases hdot : '.' ∈ path
  · obtain ⟨ext, front, hsplit, hext⟩ := List.eq_append_cons_of_mem (List.mem_reverse.mpr hdot)
    have hpath : path = front.reverse ++ '.' :: ext.reverse := by
      rw [← List.reverse_reverse path, hsplit]
      simp
    have hext : '.' ∉ ext.reverse := by simpa using hext
    have hlong : '/' :: '.' :: path = ('/' :: '.' :: front.reverse) ++ '.' :: ext.reverse := by
      rw [hpath]
      rfl
    rw [languageOfPath, languageOfPath, hlong, afterLast?_append _ hext, hpath,
      afterLast?_append _ hext]
  · have hlong : '/' :: '.' :: path = ['/'] ++ '.' :: path := rfl
    rw [languageOfPath, languageOfPath, hlong, afterLast?_append _ hdot, afterLast?_eq_none hdot]
    simp [h]

theorem languageOfPath_pathIn {u : Url} (h : u.Settled) :
    languageOfPath (Url.pathIn u.middle) = hostLanguage u := by
  unfold Url.middle hostLanguage
  rcases hhost : u.host with _ | host
  · rw [Url.authority_of_none hhost]
    split
    · rename_i hdouble
      obtain ⟨more, hmore⟩ := hdouble.2
      rw [Url.pathIn_eq_self]
      · exact languageOfPath_dot _ (by rw [← hmore]; simp)
      · rintro ⟨rest, hrest⟩
        simp at hrest
    · rename_i hsingle
      rw [List.nil_append, Url.pathIn_eq_self]
      intro hdouble
      obtain ⟨more, hmore⟩ := hdouble
      refine hsingle ⟨(h.opens hhost).mp ?_, ⟨more, hmore⟩⟩
      rw [← hmore]
      rfl
  · have hplace : ∀ c ∈ u.placeText, (c != '/') = true := fun c hc =>
      bne_iff_ne.mpr (Url.inPlace_eq_true.mp (h.placeText_inPlace c hc)).2.1
    rw [Url.authority_of_some hhost, List.cons_append, List.cons_append, Url.pathIn,
      List.dropWhile_append_of_pos hplace]
    rcases h.follows (by simp [hhost]) with hnil | hhead
    · rw [hnil]
      rfl
    · obtain ⟨rest, hrest⟩ := List.head?_eq_some_iff.mp hhead
      rw [hrest]
      simp

/-- The language of a file can be told from its written form. -/
theorem hostLanguage_eq_of_href_eq {u v : Url} (hu : u.Settled) (hv : v.Settled)
    (h : u.href = v.href) : hostLanguage u = hostLanguage v := by
  have hfront := hu.takeWhile_href
  rw [h, hv.takeWhile_href] at hfront
  have hmiddle := congrArg (List.dropWhile (· != ':')) hfront
  rw [hu.dropWhile_scheme, hv.dropWhile_scheme] at hmiddle
  rw [← languageOfPath_pathIn hu, ← languageOfPath_pathIn hv, (List.cons.inj hmiddle).2]

end Polyglot
