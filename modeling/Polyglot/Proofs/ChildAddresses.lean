import Polyglot.Proofs.Appendices
import Polyglot.Proofs.Children

/-!
The addresses of children. Reading the written form of an address with a plain text behind it
leaves the text as it is, at the end, whatever it is; so the addresses of the children of a file
differ as their keys do, and all of them can be read or none.
-/
namespace Polyglot

namespace Url

/-! Addresses. -/

/-- Either no appendix gives an address, or each of them stands at the end of the written form. A
tail that was there before becomes longer. -/
def Carries (read : Text → Except UrlError Url) (tail : Text) : Prop :=
  (∃ e, ∀ x, Appendix x → read x = .error e) ∨
    ∃ front, ∀ x, Appendix x → ∃ w, read x = .ok w ∧ w.href.toList = front ++ x ∧
      (tail ≠ [] → tail.length < (tailOf w.query w.fragment).length)

theorem Carries.congr {read read' : Text → Except UrlError Url} {tail : Text}
    (h : Carries read tail) (heq : ∀ x, Appendix x → read' x = read x) : Carries read' tail := by
  rcases h with ⟨e, he⟩ | ⟨front, hfront⟩
  · exact Or.inl ⟨e, fun x hx => (heq x hx).trans (he x hx)⟩
  · refine Or.inr ⟨front, fun x hx => ?_⟩
    obtain ⟨w, hw, hrest⟩ := hfront x hx
    exact ⟨w, (heq x hx).trans hw, hrest⟩

/-- A tail is empty or starts with a sign of its own. -/
def IsTailText (tail : Text) : Prop := tail = [] ∨ ∃ c rest, tail = c :: rest ∧ isTail c = true

theorem splitTail_append {text tail : Text} (htext : ∀ c ∈ text, isTail c = false)
    (htail : IsTailText tail) : splitTail (text ++ tail) = (text, tail) := by
  have hpos : ∀ c ∈ text, (!isTail c) = true := fun c hc => by simp [htext c hc]
  rw [splitTail_eq, List.takeWhile_append_of_pos hpos, List.dropWhile_append_of_pos hpos]
  rcases htail with rfl | ⟨c, rest, rfl, hc⟩
  · simp
  · simp [hc]

/-- An appendix belongs to the path if there is no tail. -/
theorem splitTail_append_nil {text x : Text} (htext : ∀ c ∈ text, isTail c = false)
    (hx : Appendix x) : splitTail (text ++ [] ++ x) = (text ++ x, []) := by
  have hclean : ∀ c ∈ text ++ x, isTail c = false := by
    intro c hc
    rcases List.mem_append.mp hc with hc | hc
    · exact htext c hc
    · exact hx.isTail c hc
  have := splitTail_append hclean (Or.inl rfl)
  rwa [List.append_nil] at this ⊢

theorem splitTail_append_cons {text : Text} (htext : ∀ c ∈ text, isTail c = false) {c : Char}
    (hc : isTail c = true) (rest x : Text) :
    splitTail (text ++ c :: rest ++ x) = (text, c :: rest ++ x) := by
  rw [List.append_assoc]
  exact splitTail_append htext (Or.inr ⟨c, rest ++ x, rfl, hc⟩)

/-- An address with another path. -/
def withPath (u : Url) (path : Text) : Url := { u with path := String.ofList path }

/-- What is written in front of a path does not depend on an appendix of the path. -/
theorem exists_authority_append (u : Url) (front : Text) :
    ∃ authority, ∀ x, Appendix x →
      (u.withPath (front ++ x)).authority.toList = authority := by
  rcases hhost : u.host with _ | host
  · refine ⟨if u.flat = false ∧ ['/', '/'] <+: front then ['/', '.'] else [], fun x hx => ?_⟩
    obtain ⟨rest, rfl⟩ := List.head?_eq_some_iff.mp hx.head
    have hstart : ['/', '/'] <+: front ++ '.' :: rest ↔ ['/', '/'] <+: front := by
      refine ⟨?_, fun h => h.trans (List.prefix_append ..)⟩
      match front with
      | [] => simp
      | [c] => simp
      | a :: b :: more => simp [List.cons_prefix_cons]
    rw [authority_of_none (u := u.withPath (front ++ '.' :: rest)) hhost]
    simp only [withPath, String.toList_ofList, hstart]
  · exact ⟨'/' :: '/' :: u.placeText, fun x _ =>
      authority_of_some (u := u.withPath (front ++ x)) hhost⟩

/-- The step that all kinds of addresses have in common. -/
theorem carries_withTail (kind : SchemeKind) {u : Url} (hquery : u.query = none)
    (hfragment : u.fragment = none) (read : Text → Text) {text tail : Text}
    (htext : ∀ c ∈ text, isTail c = false) (htail : IsTailText tail)
    (hread : ∃ front, ∀ x, Appendix x → read (text ++ x) = front ++ x) :
    Carries (fun x =>
      .ok (withTail kind (u.withPath (read (splitTail (text ++ tail ++ x)).1))
        (splitTail (text ++ tail ++ x)).2)) tail := by
  rcases htail with rfl | ⟨c, rest, rfl, hc⟩
  · obtain ⟨front, hfront⟩ := hread
    obtain ⟨authority, hauthority⟩ := exists_authority_append u front
    refine Or.inr ⟨u.scheme.toList ++ ':' :: (authority ++ front), fun x hx => ?_⟩
    refine ⟨u.withPath (front ++ x), ?_, ?_, fun h => absurd rfl h⟩
    · dsimp only
      rw [splitTail_append_nil htext hx, hfront x hx]
      rfl
    · rw [toList_href, middle, hauthority x hx]
      simp [withPath, hquery, hfragment, tailOf]
  · obtain ⟨front, hlength, hfront⟩ := exists_withTail_append kind (u.withPath (read text)) hquery
      hfragment hc rest
    refine Or.inr ⟨u.scheme.toList ++ ':' :: ((u.withPath (read text)).middle ++ front),
      fun x hx => ?_⟩
    obtain ⟨query, fragment, hwith, htailOf⟩ := hfront x hx
    refine ⟨{ u.withPath (read text) with query := query, fragment := fragment }, ?_, ?_,
      fun _ => ?_⟩
    · dsimp only
      rw [splitTail_append_cons htext hc, hwith]
    · rw [toList_href]
      simp only [htailOf]
      simp [middle, authority, withPath]
    · have := hx.long
      simp only [htailOf, List.length_append, List.length_cons]
      omega

theorem mem_of_mem_splitNumber {inside : Bool} {text digits : Text}
    (h : (splitNumber inside text).2 = some digits) : ∀ c ∈ digits, c ∈ text := by
  fun_induction splitNumber inside text with
  | case1 => cases h
  | case2 inside c rest _ =>
    intro x hx
    obtain rfl := Option.some.inj h
    exact List.mem_cons_of_mem c hx
  | case3 inside c rest _ host number hsplit ih =>
    intro x hx
    refine List.mem_cons_of_mem c (ih ?_ x hx)
    rw [hsplit]
    exact h

theorem mem_of_mem_splitCredentials {text : Text} {c : Char} (h : c ∈ (splitCredentials text).2) :
    c ∈ text := by
  unfold splitCredentials at h
  split at h
  · exact h
  · rename_i host _ user hspan
    rw [List.span_eq_takeWhile_dropWhile, Prod.mk.injEq] at hspan
    have hmem : c ∈ text.reverse.takeWhile (· != '@') := hspan.1 ▸ List.mem_reverse.mp h
    exact List.mem_reverse.mp ((List.takeWhile_sublist _).subset hmem)

theorem mem_of_mem_stray {kind : SchemeKind} {authority : Text} {bare : Bool} {p : Place}
    (h : readPlace kind authority bare = .ok p) : ∀ c ∈ p.stray, c ∈ authority := by
  obtain ⟨-, -, hstray⟩ := readPlace_eq_ok h
  intro c hc
  rw [hstray, splitStray, List.span_eq_takeWhile_dropWhile] at hc
  have hdigits := (List.dropWhile_sublist _).subset hc
  rcases hnumber : (splitNumber false (splitCredentials authority).2).2 with _ | digits
  · rw [hnumber] at hdigits
    cases hdigits
  · rw [hnumber] at hdigits
    exact mem_of_mem_splitCredentials (mem_of_mem_splitNumber hnumber c hdigits)

/-- An authority ends where the path starts. -/
theorem span_place (kind : SchemeKind) {place : Text} (hplace : ∀ c ∈ place, inPlace c = true)
    (rest : Text) : (place ++ '/' :: rest).span (fun c => !(isSlash kind c || isTail c)) =
      (place, '/' :: rest) := by
  have hpos : ∀ c ∈ place, (!(isSlash kind c || isTail c)) = true := by
    intro c hc
    obtain ⟨hin, hslash, hback⟩ := inPlace_eq_true.mp (hplace c hc)
    simp [isSlash, hslash, hback, (inPath_eq_true.mp hin).1]
  rw [List.span_eq_takeWhile_dropWhile, List.takeWhile_append_of_pos hpos,
    List.dropWhile_append_of_pos hpos]
  simp [isSlash]

theorem carries_readAuthority (kind : SchemeKind) (scheme : String) {place path tail : Text}
    (hplace : ∀ c ∈ place, inPlace c = true) (hpath : Rooted path) (htail : IsTailText tail) :
    Carries (fun x => readAuthority kind scheme (place ++ (path ++ tail ++ x))) tail := by
  obtain ⟨rest, rfl⟩ := List.head?_eq_some_iff.mp hpath.1
  have hread : ∀ x, readAuthority kind scheme (place ++ ('/' :: rest ++ tail ++ x)) =
      (readPlace kind place false).map (Place.address kind scheme ('/' :: rest ++ tail ++ x)) := by
    intro x
    simp only [readAuthority, List.cons_append, span_place kind hplace]
    rfl
  rcases hp : readPlace kind place false with e | p
  · refine Or.inl ⟨e, fun x _ => ?_⟩
    dsimp only
    rw [hread x, hp]
    rfl
  · have hclean : ∀ c ∈ p.stray ++ '/' :: rest, inPath c = true := by
      intro c hc
      rcases List.mem_append.mp hc with hc | hc
      · exact inPath_of_inPlace (hplace c (mem_of_mem_stray hp c hc))
      · exact hpath.2 c hc
    have hbehind : ∃ front, ∀ x, Appendix x →
        readPathBehind kind ((p.stray ++ '/' :: rest) ++ x) = front ++ x := by
      cases hstray : p.stray ++ '/' :: rest with
      | nil => simp at hstray
      | cons c more =>
        rw [hstray] at hclean
        have hignored : ∀ y ∈ (if isSlash kind c then more else c :: more),
            isIgnored y = false := by
          intro y hy
          refine (inPath_eq_true.mp (hclean y ?_)).2
          split at hy
          · exact List.mem_cons_of_mem c hy
          · exact hy
        obtain ⟨front, hfront⟩ := exists_readPath_append kind false hignored
        refine ⟨front, fun x hx => ?_⟩
        rw [← hfront x hx, List.cons_append, readPathBehind]
        split <;> rfl
    have := carries_withTail kind
      (u := { scheme := scheme, credentials := String.ofList p.credentials,
              host := some (String.ofList p.host), portNumber := p.number, path := "" })
      rfl rfl _ (fun c hc => (inPath_eq_true.mp (hclean c hc)).1) htail hbehind
    refine this.congr fun x _ => ?_
    rw [hread x, hp, List.append_assoc p.stray, List.append_assoc p.stray]
    rfl

theorem head_splitSegments_append (kind : SchemeKind) (text : Text) :
    ∃ flag, ∀ x, Appendix x →
      isDriveLetter (((splitSegments kind (text ++ x)).headD []).filter (!isIgnored ·)) = flag := by
  obtain ⟨init, last, -, hsplit⟩ := exists_splitSegments_append kind text
  cases init with
  | nil =>
    refine ⟨false, fun x hx => ?_⟩
    have hlong : 2 < ((last ++ x).filter (!isIgnored ·)).length := by
      have hkept : x.filter (!isIgnored ·) = x :=
        List.filter_eq_self.mpr fun c hc => by simp [hx.isIgnored c hc]
      have := hx.long
      rw [List.filter_append, List.length_append, hkept]
      omega
    rw [hsplit x hx, List.nil_append, List.headD_cons]
    unfold isDriveLetter
    split
    · rename_i heq
      rw [heq] at hlong
      simp at hlong
    · rfl
  | cons first rest =>
    exact ⟨isDriveLetter (first.filter (!isIgnored ·)), fun x hx => by rw [hsplit x hx]; rfl⟩

/-- Which part of a path text is read, and where the host goes, does not depend on an appendix. -/
theorem carries_fileAddress (opening : Bool) (host : Text) {path tail : Text}
    (hne : path ≠ []) (hpath : ∀ c ∈ path, inPath c = true) (htail : IsTailText tail)
    (htailClean : ∀ c ∈ tail, isIgnored c = false) :
    Carries (fun x => .ok (fileAddress (path ++ tail ++ x) opening host)) tail := by
  have hfront : ∀ x, (if opening then path ++ x else (path ++ x).drop 1) =
      (if opening then path else path.drop 1) ++ x := by
    intro x
    cases opening
    · obtain ⟨c, more, rfl⟩ := List.exists_cons_of_ne_nil hne
      rfl
    · rfl
  have hignored : ∀ c ∈ (if opening then path else path.drop 1), isIgnored c = false := by
    intro c hc
    refine (inPath_eq_true.mp (hpath c ?_)).2
    cases opening
    · exact List.mem_of_mem_drop hc
    · exact hc
  obtain ⟨front, hread⟩ := exists_readPath_append .file (opening || !host.isEmpty) hignored
  have htext : ∀ c ∈ path, isTail c = false := fun c hc => (inPath_eq_true.mp (hpath c hc)).1
  -- with a tail the first segment is the one of the path, without it the appendix may belong to it
  obtain ⟨flag, hflag⟩ : ∃ flag, ∀ x, Appendix x → isDriveLetter (((splitSegments .file
      (if opening then (splitTail (path ++ tail ++ x)).1
        else (splitTail (path ++ tail ++ x)).1.drop 1)).headD []).filter (!isIgnored ·)) =
        flag := by
    rcases htail with rfl | ⟨c, rest, rfl, hc⟩
    · obtain ⟨flag, hflag⟩ :=
        head_splitSegments_append .file (if opening then path else path.drop 1)
      refine ⟨flag, fun x hx => ?_⟩
      rw [splitTail_append_nil htext hx, hfront x, hflag x hx]
    · refine ⟨isDriveLetter (((splitSegments .file
        (if opening then path else path.drop 1)).headD []).filter (!isIgnored ·)), fun x _ => ?_⟩
      rw [splitTail_append_cons htext hc]
  have hkept : ∀ x, Appendix x → (splitTail (path ++ tail ++ x)).2.filter (!isIgnored ·) =
      (splitTail (path ++ tail ++ x)).2 := by
    intro x hx
    rw [List.filter_eq_self]
    intro c hc
    have hmem : c ∈ tail ++ x := by
      rcases htail with rfl | ⟨c, rest, rfl, hsign⟩
      · rw [splitTail_append_nil htext hx] at hc
        cases hc
      · rwa [splitTail_append_cons htext hsign] at hc
    rcases List.mem_append.mp hmem with hc | hc
    · simp [htailClean c hc]
    · simp [hx.isIgnored c hc]
  have := carries_withTail .file
    (u := { scheme := "file", path := "",
            host := some (String.ofList
              (if (opening || !host.isEmpty) && flag then [] else host)) })
    rfl rfl (fun p => readPath .file (opening || !host.isEmpty) (if opening then p else p.drop 1))
    htext htail ⟨front, fun x hx => by rw [hfront x, hread x hx]⟩
  refine this.congr fun x hx => ?_
  dsimp only [fileAddress]
  rw [hflag x hx, hkept x hx]
  rfl

theorem carries_readFile {place path tail : Text} (hplace : ∀ c ∈ place, inPlace c = true)
    (hpath : Rooted path) (htail : IsTailText tail) (htailClean : ∀ c ∈ tail, isIgnored c = false) :
    Carries (fun x => readFile ('/' :: '/' :: (place ++ (path ++ tail ++ x)))) tail := by
  have hne : path ≠ [] := by
    rintro rfl
    cases hpath.1
  obtain ⟨rest, rfl⟩ := List.head?_eq_some_iff.mp hpath.1
  have hfilter : place.filter (!isIgnored ·) = place := List.filter_eq_self.mpr fun c hc => by
    simp [(inPath_eq_true.mp (inPath_of_inPlace (hplace c hc))).2]
  have hsplit : ∀ x, splitFile ('/' :: '/' :: (place ++ ('/' :: rest ++ tail ++ x))) =
      if isDriveLetter place then ([], place ++ ('/' :: rest ++ tail ++ x), true)
      else (place, '/' :: rest ++ tail ++ x, false) := by
    intro x
    unfold splitFile
    simp only [List.dropWhile_cons, show isIgnored '/' = false from rfl, Bool.false_eq_true,
      if_false,
      show isSlash .file '/' = true from rfl, if_true, List.cons_append, span_place .file hplace,
      hfilter]
  by_cases hdrive : isDriveLetter place = true
  · simp only [hdrive, if_true] at hsplit
    have hclean : ∀ c ∈ place ++ '/' :: rest, inPath c = true := by
      intro c hc
      rcases List.mem_append.mp hc with hc | hc
      · exact inPath_of_inPlace (hplace c hc)
      · exact hpath.2 c hc
    refine (carries_fileAddress true [] (by simp) hclean htail htailClean).congr fun x _ => ?_
    rw [readFile, hsplit x, List.append_assoc place, List.append_assoc place]
    rfl
  · rw [Bool.not_eq_true] at hdrive
    simp only [hdrive, Bool.false_eq_true, if_false] at hsplit
    rcases hhost : readFileHost place with e | host
    · refine Or.inl ⟨e, fun x _ => ?_⟩
      simp only [readFile, hsplit x, hhost]
      rfl
    · refine (carries_fileAddress false host hne hpath.2 htail htailClean).congr fun x _ => ?_
      simp only [readFile, hsplit x, hhost]
      rfl

theorem head?_append_ne {path tail : Text} (hslash : path.head? ≠ some '/')
    (htail : IsTailText tail) {x : Text} (hx : Appendix x) :
    (path ++ tail ++ x).head? ≠ some '/' := by
  cases path with
  | cons c rest => simpa using hslash
  | nil =>
    rcases htail with rfl | ⟨c, rest, rfl, hc⟩
    · simp [hx.head]
    · rw [List.nil_append, List.cons_append, List.head?_cons]
      rintro ⟨rfl⟩
      exact absurd hc (by decide)

theorem carries_readOther_rooted (scheme : String) {path tail : Text}
    (hslash : path.head? ≠ some '/') (hpath : ∀ c ∈ path, inPath c = true)
    (htail : IsTailText tail) :
    Carries (fun x => readOther scheme ('/' :: (path ++ tail ++ x))) tail := by
  have := carries_withTail .other (u := { scheme := scheme, path := "" }) rfl rfl
    (readPath .other false) (fun c hc => (inPath_eq_true.mp (hpath c hc)).1) htail
    (exists_readPath_append .other false fun c hc => (inPath_eq_true.mp (hpath c hc)).2)
  refine this.congr fun x hx => ?_
  have hhead := head?_append_ne hslash htail hx
  unfold readOther
  split
  · rename_i rest heq
    rw [(List.cons.inj heq).2] at hhead
    exact absurd rfl hhead
  · rename_i rest _ heq
    rw [← (List.cons.inj heq).2]
    rfl
  · rename_i hrooted
    exact absurd rfl (hrooted _)

theorem carries_readOther_flat (scheme : String) {path tail : Text}
    (hslash : path.head? ≠ some '/') (hpath : ∀ c ∈ path, inPath c = true)
    (htail : IsTailText tail) :
    Carries (fun x => readOther scheme (path ++ tail ++ x)) tail := by
  have := carries_withTail .other (u := { scheme := scheme, flat := true, path := "" }) rfl rfl
    (encode isControl) (fun c hc => (inPath_eq_true.mp (hpath c hc)).1) htail
    ⟨encode isControl path, fun x hx =>
      hx.encode_append_of_not_mem (fun c hc => (Appendix.not_mem_set hc).1) path⟩
  refine this.congr fun x hx => ?_
  have hhead := head?_append_ne hslash htail hx
  unfold readOther
  split
  · rename_i rest heq
    rw [heq] at hhead
    exact absurd rfl hhead
  · rename_i rest _ heq
    rw [heq] at hhead
    exact absurd rfl hhead
  · rfl

/-! The whole address. -/

theorem lt_toNat_of_isPlain {c : Char} (h : isPlain c = true) : 0x20 < c.toNat := by
  by_cases hascii : c.toNat < 128
  · exact forall_ascii (p := fun c => isPlain c = true → 0x20 < c.toNat)
      (by decide +kernel) c hascii h
  · omega

theorem trim_eq_self {text : Text} (hhead : ∀ c, text.head? = some c → 0x20 < c.toNat)
    (hlast : ∀ c, text.getLast? = some c → 0x20 < c.toNat) : trim text = text := by
  have hdrop : ∀ t : Text, (∀ c, t.head? = some c → 0x20 < c.toNat) →
      t.dropWhile (fun c => decide (c.toNat ≤ 0x20)) = t := by
    intro t ht
    cases t with
    | nil => rfl
    | cons c rest =>
      have := ht c rfl
      rw [List.dropWhile_cons, if_neg (by simpa using this)]
  unfold trim
  dsimp only
  rw [hdrop text hhead, hdrop, List.reverse_reverse]
  intro c hc
  exact hlast c (by rwa [List.head?_reverse] at hc)

theorem readScheme?_append {scheme : Text} (h : IsScheme scheme) (rest : Text) :
    readScheme? (scheme ++ ':' :: rest) = some (String.ofList scheme, rest) := by
  obtain ⟨first, more, rfl, halpha⟩ := h.letter
  have hspan : (first :: more ++ ':' :: rest).span isSchemeChar = (first :: more, ':' :: rest) := by
    rw [List.span_eq_takeWhile_dropWhile, List.takeWhile_append_of_pos h.chars,
      List.dropWhile_append_of_pos h.chars]
    simp [isSchemeChar]
  unfold readScheme?
  rw [hspan]
  simp only [halpha, if_true, h.lower]

/-- What is read behind a scheme. -/
def readBehind (scheme : String) (rest : Text) : Except UrlError Url :=
  match SchemeKind.ofScheme scheme with
  | .file => readFile rest
  | .web usual => readAuthority (.web usual) scheme (rest.dropWhile (isSlash .file))
  | .other => readOther scheme rest

theorem Settled.isIgnored_tailOf {u : Url} (h : Settled u) :
    ∀ c ∈ tailOf u.query u.fragment, isIgnored c = false := by
  intro c hc
  rcases List.mem_append.mp hc with hc | hc
  · split at hc
    · rename_i q hq
      rcases List.mem_cons.mp hc with rfl | hc
      · decide
      · exact h.query q hq c hc
    · cases hc
  · split at hc
    · rename_i f hf
      rcases List.mem_cons.mp hc with rfl | hc
      · decide
      · exact h.fragment f hf c hc
    · cases hc

/-- The written form has nothing that reading passes over. -/
theorem Settled.parse_append {u : Url} (h : Settled u) {x : Text} (hx : Appendix x) :
    parse (u.href ++ String.ofList x) =
      readBehind u.scheme (u.middle ++ tailOf u.query u.fragment ++ x) := by
  have htext : (u.href ++ String.ofList x).toList =
      u.scheme.toList ++ ':' :: (u.middle ++ tailOf u.query u.fragment ++ x) := by
    rw [String.toList_append, String.toList_ofList, toList_href]
    simp
  have hclean : ∀ c ∈ (u.href ++ String.ofList x).toList, isIgnored c = false := by
    intro c hc
    simp only [htext, List.mem_append, List.mem_cons] at hc
    rcases hc with hc | rfl | (hc | hc) | hc
    · exact (inPath_eq_true.mp
        (inPath_of_inPlace (inPlace_of_isSchemeChar (h.scheme.chars c hc)))).2
    · decide
    · exact (inPath_eq_true.mp (h.middle_inPath c hc)).2
    · exact h.isIgnored_tailOf c hc
    · exact hx.isIgnored c hc
  have htrim : trim (u.href ++ String.ofList x).toList = (u.href ++ String.ofList x).toList := by
    refine trim_eq_self ?_ ?_
    · intro c hc
      obtain ⟨first, more, hscheme, halpha⟩ := h.scheme.letter
      have hfirst := h.scheme.chars first (by rw [hscheme]; exact List.mem_cons_self ..)
      rw [htext, hscheme] at hc
      obtain rfl : first = c := by simpa using hc
      exact lt_toNat_of_isPlain (by simp [isPlain, hfirst])
    · intro c hc
      rw [String.toList_append, String.toList_ofList, List.getLast?_append,
        List.getLast?_eq_some_getLast hx.ne_nil, Option.some_or] at hc
      obtain rfl := Option.some.inj hc
      exact lt_toNat_of_isPlain (hx.plain _ (List.getLast_mem hx.ne_nil))
  have hfilter : (u.href ++ String.ofList x).toList.filter (!isIgnored ·) =
      (u.href ++ String.ofList x).toList :=
    List.filter_eq_self.mpr fun c hc => by simp [hclean c hc]
  have hcolon : ((u.href ++ String.ofList x).toList.dropWhile (· != ':')).drop 1 =
      u.middle ++ tailOf u.query u.fragment ++ x := by
    rw [htext, h.dropWhile_scheme]
    rfl
  have hread : readScheme? (u.href ++ String.ofList x).toList =
      some (u.scheme, u.middle ++ tailOf u.query u.fragment ++ x) := by
    rw [htext, readScheme?_append h.scheme, String.ofList_toList]
  cases hkind : SchemeKind.ofScheme u.scheme <;>
    simp only [parse, readBehind, htrim, hfilter, hread, hcolon, hkind]

/-- Reading what is behind the scheme of an address without a host, with an appendix. -/
theorem Settled.carries_of_no_host {u : Url} (h : Settled u) (hhost : u.host = none) :
    Carries (fun x => readBehind u.scheme (u.middle ++ tailOf u.query u.fragment ++ x))
      (tailOf u.query u.fragment) := by
  have htail : IsTailText (tailOf u.query u.fragment) := tailOf_shape ..
  have hkind : SchemeKind.ofScheme u.scheme = .other := by
    have hspecial := h.special
    cases hkind : SchemeKind.ofScheme u.scheme with
    | other => rfl
    | file => exact absurd hhost (hspecial (by rw [hkind]; rfl)).1
    | web usual => exact absurd hhost (hspecial (by rw [hkind]; rfl)).1
  simp only [readBehind, hkind]
  cases hflat : u.flat with
  | true =>
    have hslash : u.path.toList.head? ≠ some '/' := by
      rw [Ne, h.opens hhost, hflat]
      decide
    have hmiddle : u.middle = u.path.toList := by
      rw [middle, authority_of_none hhost, hflat]
      rfl
    rw [hmiddle]
    exact carries_readOther_flat u.scheme hslash h.path htail
  | false =>
    obtain ⟨rest, hrest⟩ := List.head?_eq_some_iff.mp ((h.opens hhost).mpr hflat)
    have hclean := h.middle_inPath
    have hmiddle : ∃ more, u.middle = '/' :: more ∧ more.head? ≠ some '/' := by
      rw [middle, authority_of_none hhost]
      split
      · exact ⟨'.' :: u.path.toList, rfl, by simp⟩
      · rename_i hsingle
        refine ⟨rest, by rw [List.nil_append, hrest], ?_⟩
        intro hhead
        obtain ⟨more, rfl⟩ := List.head?_eq_some_iff.mp hhead
        exact hsingle ⟨hflat, more, hrest.symm⟩
    obtain ⟨more, hmore, hslash⟩ := hmiddle
    rw [hmore] at hclean ⊢
    exact carries_readOther_rooted u.scheme hslash
      (fun c hc => hclean c (List.mem_cons_of_mem _ hc)) htail

/-- The slashes in front of a host that is not empty are all that is passed over. -/
theorem Settled.dropWhile_isSlash {u : Url} (h : Settled u) {host : String}
    (hhost : u.host = some host)
    {usual : Nat} (hkind : SchemeKind.ofScheme u.scheme = .web usual) (rest : Text) :
    ('/' :: '/' :: (u.placeText ++ rest)).dropWhile (isSlash .file) = u.placeText ++ rest := by
  have hne : u.placeText ≠ [] := by
    intro hnil
    have hempty : host = "" := by
      simp only [placeText, hhost, List.append_eq_nil_iff] at hnil
      exact String.toList_eq_nil_iff.mp hnil.1.2
    have hfile := (h.special (by rw [hkind]; rfl)).2 (by rw [hhost, hempty])
    rw [hkind] at hfile
    cases hfile
  obtain ⟨c, more, hcons⟩ := List.exists_cons_of_ne_nil hne
  have hc : isSlash .file c = false := by
    obtain ⟨-, hslash, hback⟩ := inPlace_eq_true.mp (h.placeText_inPlace c (by rw [hcons]; simp))
    simp [isSlash, hslash, hback]
  simp only [hcons, List.cons_append, List.dropWhile_cons, hc, if_true, Bool.false_eq_true,
    if_false, show isSlash .file '/' = true from rfl]

theorem Settled.carries_of_host {u : Url} (h : Settled u) (hpath : u.path.toList ≠ [])
    {host : String} (hhost : u.host = some host) :
    Carries (fun x => readBehind u.scheme (u.middle ++ tailOf u.query u.fragment ++ x))
      (tailOf u.query u.fragment) := by
  have htail : IsTailText (tailOf u.query u.fragment) := tailOf_shape ..
  have hplace := h.placeText_inPlace
  have hrooted : Rooted u.path.toList := by
    rcases h.follows (by simp [hhost]) with hnil | hhead
    · exact absurd hnil hpath
    · exact ⟨hhead, h.path⟩
  have hmiddle : ∀ x, u.middle ++ tailOf u.query u.fragment ++ x = '/' :: '/' ::
      (u.placeText ++ (u.path.toList ++ tailOf u.query u.fragment ++ x)) := by
    intro x
    rw [middle, authority_of_some hhost]
    simp
  simp only [hmiddle]
  cases hkind : SchemeKind.ofScheme u.scheme with
  | other =>
    simp only [readBehind, hkind]
    exact carries_readAuthority .other u.scheme hplace hrooted htail
  | file =>
    simp only [readBehind, hkind]
    exact carries_readFile hplace hrooted htail h.isIgnored_tailOf
  | web usual =>
    simp only [readBehind, hkind, h.dropWhile_isSlash hhost hkind]
    exact carries_readAuthority (.web usual) u.scheme hplace hrooted htail

/-- Reading the written form of an address with an appendix. -/
theorem Settled.carries {u : Url} (h : Settled u) (hpath : u.path.toList ≠ []) :
    Carries (fun x => parse (u.href ++ String.ofList x)) (tailOf u.query u.fragment) := by
  suffices hbehind : Carries (fun x =>
      readBehind u.scheme (u.middle ++ tailOf u.query u.fragment ++ x))
      (tailOf u.query u.fragment) from
    hbehind.congr fun x hx => h.parse_append hx
  rcases hhost : u.host with _ | host
  · exact h.carries_of_no_host hhost
  · exact h.carries_of_host hpath hhost

end Url

theorem afterLast?_eq_some {mark : Char} {text ext : Text} (h : afterLast? mark text = some ext) :
    ∃ front, text = front ++ mark :: ext := by
  unfold afterLast? at h
  split at h
  · cases h
  · rename_i tail first rest hspan
    obtain rfl := Option.some.inj h
    rw [List.span_eq_takeWhile_dropWhile, Prod.mk.injEq] at hspan
    have hfirst : first = mark := by
      have := List.head?_dropWhile_not (· != mark) text.reverse
      rw [hspan.2] at this
      simpa using this
    refine ⟨rest.reverse, ?_⟩
    rw [← List.reverse_reverse text,
      ← List.takeWhile_append_dropWhile (p := (· != mark)) (l := text.reverse),
      hspan.1, hspan.2, hfirst]
    simp

/-- The last character of a path says where its language ends. -/
theorem exists_last_of_languageOfPath {path : Text} {language : String}
    (h : (languageOfPath path).1 = language) (hplain : language ≠ "plaintext") :
    ∃ front c, path = front ++ [c] ∧ language.toList.getLast? = some c.toLower := by
  unfold languageOfPath at h
  split at h
  · rename_i ext hext
    split at h
    · exact absurd h.symm hplain
    · rename_i hne
      obtain ⟨front, rfl⟩ := afterLast?_eq_some hext
      have hext : ext ≠ [] := by
        rintro rfl
        simp at hne
      refine ⟨front ++ '.' :: ext.dropLast, ext.getLast hext, ?_, ?_⟩
      · rw [List.append_assoc, List.cons_append, List.dropLast_concat_getLast]
      · rw [← h, String.toList_ofList, List.getLast?_map, List.getLast?_eq_some_getLast hext]
        rfl
  · exact absurd h.symm hplain

/-- The path of keys of a CEL document in a protobuf file. -/
def celPath (number : Nat) : String := "proto" ++ "-" ++ Identity.keyOf ⟨"cel", "cel", true⟩ number

/-- What such a document adds to the address of the file. -/
def celEnding (number : Nat) : Text := ("." ++ celPath number ++ "." ++ "cel").toList

theorem celEnding_eq (number : Nat) :
    celEnding number = ".proto-".toList ++ Nat.toDigits 10 number ++ "(cel).cel".toList := by
  simp [celEnding, celPath, Identity.keyOf, Nat.toString_eq_repr, Nat.toList_repr]

theorem celPath_injective : Function.Injective celPath := by
  intro m n h
  have hkey := congrArg String.toList h
  simp only [celPath, String.toList_append, List.append_cancel_left_eq] at hkey
  exact Identity.number_eq_of_keyOf_eq rfl rfl (String.toList_injective hkey)

theorem celPath_ne_proto (number : Nat) : celPath number ≠ "proto" := by
  intro h
  have hlength := congrArg String.length h
  rw [celPath, String.length_append, String.length_append] at hlength
  have hmore : "proto".length + "-".length = "proto".length + 1 := rfl
  omega

theorem celEnding_injective : Function.Injective celEnding := by
  intro m n h
  simp only [celEnding, String.toList_append, List.append_cancel_right_eq,
    List.append_cancel_left_eq] at h
  exact celPath_injective (String.toList_injective h)

theorem appendix_celEnding (number : Nat) : Url.Appendix (celEnding number) := by
  rw [celEnding_eq]
  refine ⟨?_, rfl, by simp, ?_⟩
  · intro c hc
    simp only [List.mem_append] at hc
    rcases hc with (hc | hc) | hc
    · have hfront : ∀ c ∈ ".proto-".toList, Url.isPlain c = true := List.all_eq_true.mp (by decide)
      exact hfront c hc
    · have hdigit := Nat.isDigit_of_mem_toDigits (by omega) (by omega) hc
      simp [Url.isPlain, Url.isSchemeChar, Char.isAlphanum, hdigit]
    · have hback : ∀ c ∈ "(cel).cel".toList, Url.isPlain c = true := List.all_eq_true.mp (by decide)
      exact hback c hc
  · simp only [List.length_append, show ".proto-".toList.length = 7 from rfl]
    omega

theorem childUri_celPath_eq (u : Url) (number : Nat) : Document.childUri u (celPath number) "cel" =
    Url.parse (u.href ++ String.ofList (celEnding number)) := by
  simp only [Document.childUri, celEnding, String.ofList_toList, String.append_assoc]

/-- The addresses of the CEL documents of a protobuf file: none of them can be read, or they differ
only in their endings, and none is the address of the file. -/
theorem parse_celEnding {u : Url} (h : u.Settled) (hproto : (hostLanguage u).1 = "proto") :
    (∃ e, ∀ number, Url.parse (u.href ++ String.ofList (celEnding number)) = .error e) ∨
      ∃ front : Text, ∀ number, ∃ w,
        Url.parse (u.href ++ String.ofList (celEnding number)) = .ok w ∧
        w.href.toList = front ++ celEnding number ∧ w.href ≠ u.href := by
  obtain ⟨rest, last, hpath, hlast⟩ := exists_last_of_languageOfPath hproto (by decide)
  rcases h.carries (by rw [hpath]; simp) with ⟨e, he⟩ | ⟨front, hfront⟩
  · exact Or.inl ⟨e, fun number => he _ (appendix_celEnding number)⟩
  · refine Or.inr ⟨front, fun number => ?_⟩
    obtain ⟨w, hw, hhref, hlonger⟩ := hfront _ (appendix_celEnding number)
    refine ⟨w, hw, hhref, ?_⟩
    intro hsame
    by_cases htail : Url.tailOf u.query u.fragment = []
    · -- without a tail the addresses end differently
      have hend := hhref
      rw [hsame, Url.toList_href, htail, Url.middle, hpath, celEnding_eq] at hend
      obtain rfl : last = 'l' := by
        have hends := congrArg List.getLast? hend
        simpa [List.getLast?_append, List.getLast?_cons] using hends
      exact absurd hlast (by decide)
    · have hdrop := (Url.settled_of_parse hw).dropWhile_href
      rw [hsame, h.dropWhile_href] at hdrop
      have := hlonger htail
      rw [hdrop] at this
      omega

end Polyglot
