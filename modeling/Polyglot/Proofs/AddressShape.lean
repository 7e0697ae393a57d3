import Mathlib.Data.List.TakeWhile
import Polyglot.Proofs.AddressText

/-!
The shape of an address that was read: which of its parts are there, how its path begins, and which
characters they have. So its written form tells the parts from each other.
-/
namespace Polyglot.Url

/-! Paths. -/

/-- A path that starts with a slash. -/
def Rooted (path : Text) : Prop := path.head? = some '/' ∧ ∀ c ∈ path, inPath c = true

theorem Rooted.append {path more : Text} (h : Rooted path) (hmore : ∀ c ∈ more, inPath c = true) :
    Rooted (path ++ more) := by
  refine ⟨?_, ?_⟩
  · rw [List.head?_append, h.1, Option.some_or]
  · intro c hc
    rcases List.mem_append.mp hc with hc | hc
    · exact h.2 c hc
    · exact hmore c hc

theorem Rooted.of_isPrefix {path above : Text} (h : Rooted path) (hfront : above <+: path)
    (hne : above ≠ []) : Rooted above := by
  refine ⟨?_, fun c hc => h.2 c (hfront.subset hc)⟩
  obtain ⟨rest, rfl⟩ := hfront
  cases above with
  | nil => exact absurd rfl hne
  | cons c more => simpa using h.1

theorem splitLast_append (path : Text) : (splitLast path).1 ++ (splitLast path).2 = path := by
  rw [splitLast, List.span_eq_takeWhile_dropWhile, ← List.reverse_append,
    List.takeWhile_append_dropWhile, List.reverse_reverse]

theorem Rooted.parent {path : Text} (h : Rooted path) : Rooted (parent path) := by
  unfold Url.parent
  dsimp only
  split
  · exact h
  · rename_i habove
    have hne : (splitLast path.dropLast).1 ≠ [] := by
      intro hnil
      simp [hnil] at habove
    refine h.of_isPrefix (List.IsPrefix.trans ⟨_, splitLast_append path.dropLast⟩ ?_) hne
    exact List.dropLast_prefix path

theorem take_inPath_of_isDriveLetter {segment : Text} (h : isDriveLetter segment = true) :
    ∀ c ∈ segment.take 1, inPath c = true := by
  unfold isDriveLetter at h
  split at h
  · rename_i c mark
    intro x hx
    simp only [List.take_succ_cons, List.take_zero, List.mem_singleton] at hx
    rw [Bool.and_eq_true] at h
    exact hx ▸ inPath_of_inPlace (inPlace_of_property h.1 (by decide))
  · cases h

theorem take_inPath_of_dividesDrive {raw : Text} (h : dividesDrive raw = true) :
    ∀ c ∈ (raw.filter (!isIgnored ·)).take 2, inPath c = true := by
  unfold dividesDrive at h
  split at h
  · rename_i c _ _ _ _ _ hfilter _
    rw [hfilter]
    rw [Bool.and_eq_true] at h
    intro x hx
    simp only [List.take_succ_cons, List.take_zero, List.mem_cons, List.not_mem_nil, or_false] at hx
    rcases hx with rfl | rfl
    · exact inPath_of_inPlace (inPlace_of_property h.1 (by decide))
    · decide
  · cases h

theorem rooted_slash : Rooted ['/'] := ⟨rfl, List.all_eq_true.mp (by decide)⟩

theorem Rooted.addSegment {path : Text} (h : Rooted path) (kind : SchemeKind)
    (opening closed : Bool) (raw : Text) : Rooted (addSegment kind path opening closed raw) := by
  have hslash : ∀ c ∈ ['/'], inPath c = true := List.all_eq_true.mp (by decide)
  have hclose : ∀ c ∈ (if closed then ['/'] else []), inPath c = true := by
    cases closed
    · simp
    · exact hslash
  unfold Url.addSegment
  dsimp only
  split
  · rename_i hdivides
    simp only [Bool.and_eq_true] at hdivides
    exact ((((h.append (take_inPath_of_dividesDrive hdivides.2)).append hslash).append
      (encode_inPath _)).append hclose)
  · split
    · exact h.parent
    · split
      · exact h
      · split
        · rename_i hdrive
          simp only [Bool.and_eq_true] at hdrive
          have hcolon : ∀ c ∈ [':'], inPath c = true := List.all_eq_true.mp (by decide)
          exact ((h.append (take_inPath_of_isDriveLetter hdrive.2)).append hcolon).append hclose
        · exact (h.append (encode_inPath _)).append hclose

theorem Rooted.addSegments {path : Text} (h : Rooted path) (kind : SchemeKind) (opening : Bool)
    (segments : List Text) : Rooted (addSegments kind path opening segments) := by
  fun_induction Url.addSegments kind path opening segments with
  | case1 => exact h
  | case2 path opening segment => exact h.addSegment kind opening false segment
  | case3 path opening segment rest _ ih => exact ih (h.addSegment kind opening true segment)

theorem rooted_readPath (kind : SchemeKind) (opening : Bool) (text : Text) :
    Rooted (readPath kind opening text) := by
  have hpath : Rooted (addSegments kind ['/'] opening (splitSegments kind text)) :=
    Rooted.addSegments rooted_slash kind opening _
  unfold readPath
  dsimp only
  split
  · refine ⟨rfl, ?_⟩
    intro c hc
    rcases List.mem_cons.mp hc with rfl | hc
    · decide
    · exact hpath.2 c (List.dropWhile_sublist _ |>.subset hc)
  · exact hpath

/-! Schemes. -/

theorem toNat_lt_of_isSchemeChar {c : Char} (h : isSchemeChar c = true) : c.toNat < 128 := by
  have hkinds : isSchemeChar c =
      (c.isUpper || c.isLower || c.isDigit || c == '+' || c == '-' || c == '.') := rfl
  have hbound : ∀ last : Char, c.val ≤ last.val → last.toNat < 128 → c.toNat < 128 :=
    fun _ hle hlast => Nat.lt_of_le_of_lt (UInt32.le_iff_toNat_le.mp hle) hlast
  simp only [hkinds, Bool.or_eq_true, beq_iff_eq] at h
  rcases h with ((((h | h) | h) | rfl) | rfl) | rfl
  · exact hbound 'Z' (of_decide_eq_true h).2 (by decide)
  · exact hbound 'z' (of_decide_eq_true (Bool.and_eq_true_iff.mp h).2) (by decide)
  · exact hbound '9' (of_decide_eq_true (Bool.and_eq_true_iff.mp h).2) (by decide)
  · decide
  · decide
  · decide

/-- The characters of ASCII can be tried one by one. -/
theorem forall_ascii {p : Char → Prop} (h : ∀ n : Fin 128, p (Char.ofNat n.val)) :
    ∀ c : Char, c.toNat < 128 → p c := by
  intro c hc
  have := h ⟨c.toNat, hc⟩
  rwa [Char.ofNat_toNat] at this

theorem isSchemeChar_toLower {c : Char} (h : isSchemeChar c = true) :
    isSchemeChar c.toLower = true ∧ c.toLower.toLower = c.toLower ∧
      (c.isAlpha = true → c.toLower.isAlpha = true) := by
  have hall := forall_ascii (p := fun c => isSchemeChar c = true →
    isSchemeChar c.toLower = true ∧ c.toLower.toLower = c.toLower ∧
      (c.isAlpha = true → c.toLower.isAlpha = true)) (by decide +kernel)
  exact hall c (toNat_lt_of_isSchemeChar h) h

/-- A scheme starts with a letter and is in lower case. -/
structure IsScheme (scheme : Text) : Prop where
  letter : ∃ first more, scheme = first :: more ∧ first.isAlpha = true
  chars : ∀ c ∈ scheme, isSchemeChar c = true
  lower : scheme.map Char.toLower = scheme

theorem isScheme_of_readScheme? {text rest : Text} {scheme : String}
    (h : readScheme? text = some (scheme, rest)) : IsScheme scheme.toList := by
  unfold readScheme? at h
  split at h
  · rename_i first more _ hspan
    split at h
    · rename_i halpha
      obtain ⟨rfl, -⟩ := Prod.mk.inj (Option.some.inj h)
      have hchars : ∀ c ∈ first :: more, isSchemeChar c = true := by
        rw [List.span_eq_takeWhile_dropWhile, Prod.mk.injEq] at hspan
        exact fun c hc => List.mem_takeWhile_imp (hspan.1 ▸ hc)
      rw [String.toList_ofList]
      refine ⟨⟨first.toLower, more.map Char.toLower, rfl, ?_⟩, ?_, ?_⟩
      · exact (isSchemeChar_toLower (hchars first (List.mem_cons_self ..))).2.2 halpha
      · intro c hc
        obtain ⟨x, hx, rfl⟩ := List.mem_map.mp hc
        exact (isSchemeChar_toLower (hchars x hx)).1
      · rw [List.map_map]
        exact List.map_congr_left fun x hx => (isSchemeChar_toLower (hchars x hx)).2.1
    · cases h
  · cases h

theorem isScheme_file : IsScheme "file".toList :=
  ⟨⟨'f', "ile".toList, by decide, by decide⟩, List.all_eq_true.mp (by decide), by decide⟩

/-! Addresses. -/

/-- The written form of a query and a fragment. -/
def tailOf (query fragment : Option String) : Text :=
  (match query with | some q => '?' :: q.toList | none => []) ++
    (match fragment with | some f => '#' :: f.toList | none => [])

/-- What the parts of an address look like. -/
structure Settled (u : Url) : Prop where
  scheme : IsScheme u.scheme.toList
  place : ∀ c ∈ u.credentials.toList ++ (u.host.getD "").toList, inPlace c = true
  path : ∀ c ∈ u.path.toList, inPath c = true
  opens : u.host = none → (u.path.toList.head? = some '/' ↔ u.flat = false)
  follows : u.host ≠ none → u.path.toList = [] ∨ u.path.toList.head? = some '/'
  special : (SchemeKind.ofScheme u.scheme).isSpecial = true →
    u.host ≠ none ∧ (u.host = some "" → SchemeKind.ofScheme u.scheme = .file)
  query : ∀ q, u.query = some q → ∀ c ∈ q.toList, isIgnored c = false
  fragment : ∀ f, u.fragment = some f → ∀ c ∈ f.toList, isIgnored c = false

theorem isIgnored_encode {set : Char → Bool} (hset : ∀ c, set c = false → isControl c = false)
    (text : Text) : ∀ c ∈ encode set text, isIgnored c = false := by
  have := @forall_mem_encode set (fun c => !isIgnored c) text
    (fun c _ hc => by simp [isIgnored_eq_false_of_not_isControl (hset c hc)]) (by decide)
    (fun c hc => by
      have := inPath_eq_true.mp (inPath_of_inPlace (inPlace_of_isAlphanum hc))
      simp [this.2])
  simpa using this

theorem Settled.withTail {u : Url} (h : Settled u) (kind : SchemeKind) (tail : Text) :
    Settled (withTail kind u tail) := by
  have hquery : ∀ text, ∀ c ∈ encode (inQuerySet kind.isSpecial) text, isIgnored c = false :=
    isIgnored_encode (by simp +contextual [inQuerySet])
  have hfragment : ∀ text, ∀ c ∈ encode inFragmentSet text, isIgnored c = false :=
    isIgnored_encode (by simp +contextual [inFragmentSet])
  have hsome : ∀ (text : Text) (s : String), some (String.ofList text) = some s →
      (∀ c ∈ text, isIgnored c = false) → ∀ c ∈ s.toList, isIgnored c = false := by
    rintro text s heq htext c hc
    rw [← Option.some.inj heq, String.toList_ofList] at hc
    exact htext c hc
  unfold Url.withTail
  dsimp only
  split
  · split
    · exact { h with query := fun q hq => hsome _ q hq (hquery _) }
    · exact { h with
        query := fun q hq => hsome _ q hq (hquery _)
        fragment := fun f hf => hsome _ f hf (hfragment _) }
  · exact { h with fragment := fun f hf => hsome _ f hf (hfragment _) }
  · exact h

theorem renderCredentials_inPlace (user : Text) :
    ∀ c ∈ renderCredentials user, inPlace c = true := by
  have huser := encode_inPlace_of_inUserSet
  intro c hc
  unfold renderCredentials at hc
  split at hc
  · split at hc
    · cases hc
    · simp only [List.mem_append, List.mem_singleton] at hc
      rcases hc with hc | rfl
      · exact huser _ c hc
      · decide
  · split at hc
    · split at hc
      · cases hc
      · simp only [List.mem_append, List.mem_singleton] at hc
        rcases hc with hc | rfl
        · exact huser _ c hc
        · decide
    · simp only [List.mem_append, List.mem_singleton] at hc
      rcases hc with ((hc | rfl) | hc) | rfl
      · exact huser _ c hc
      · decide
      · exact huser _ c hc
      · decide

theorem readHost_inPlace {kind : SchemeKind} {text host : Text}
    (h : readHost kind text = .ok host) :
    (∀ c ∈ host, inPlace c = true) ∧ (kind.isSpecial = true → host ≠ []) := by
  unfold readHost at h
  split at h
  · exact ⟨(readDomain_inPlace h).2, fun _ => (readDomain_inPlace h).1⟩
  · rename_i hplain
    exact ⟨readPlainHost_inPlace h, fun hspecial => absurd hspecial hplain⟩

/-- Where the parts of a place come from. -/
theorem readPlace_eq_ok {kind : SchemeKind} {authority : Text} {bare : Bool} {p : Place}
    (h : readPlace kind authority bare = .ok p) :
    p.credentials = renderCredentials ((splitCredentials authority).1.getD []) ∧
      readHost kind (splitNumber false (splitCredentials authority).2).1 = .ok p.host ∧
      p.stray = (splitStray ((splitNumber false (splitCredentials authority).2).2.getD [])).2 := by
  simp only [readPlace] at h
  split at h
  · cases h
  · rcases hhost : readHost kind _ with e | host
    · rw [hhost] at h
      cases h
    · rw [hhost] at h
      simp only [bind, Except.bind] at h
      split at h
      · cases h
      · obtain rfl := Except.ok.inj h
        exact ⟨rfl, rfl, rfl⟩

theorem readPlace_inPlace {kind : SchemeKind} {authority : Text} {bare : Bool} {p : Place}
    (h : readPlace kind authority bare = .ok p) :
    (∀ c ∈ p.credentials ++ p.host, inPlace c = true) ∧ (kind.isSpecial = true → p.host ≠ []) := by
  obtain ⟨hcredentials, hread, -⟩ := readPlace_eq_ok h
  obtain ⟨hhost, hne⟩ := readHost_inPlace hread
  refine ⟨?_, hne⟩
  intro c hc
  rcases List.mem_append.mp hc with hc | hc
  · exact renderCredentials_inPlace _ c (hcredentials ▸ hc)
  · exact hhost c hc

theorem readPathBehind_shape (kind : SchemeKind) (text : Text) :
    readPathBehind kind text = [] ∨ Rooted (readPathBehind kind text) := by
  cases text with
  | nil =>
    cases kind with
    | other => exact Or.inl rfl
    | file => exact Or.inr rooted_slash
    | web usual => exact Or.inr rooted_slash
  | cons c more => exact Or.inr (rooted_readPath kind false _)

theorem settled_address {scheme : String} (hscheme : IsScheme scheme.toList) {authority : Text}
    {bare : Bool} {p : Place}
    (h : readPlace (SchemeKind.ofScheme scheme) authority bare = .ok p) (rest : Text) :
    Settled (p.address (SchemeKind.ofScheme scheme) scheme rest) := by
  obtain ⟨hplace, hhost⟩ := readPlace_inPlace h
  unfold Place.address
  generalize splitTail (p.stray ++ rest) = split
  have hpath := readPathBehind_shape (SchemeKind.ofScheme scheme) split.1
  refine Settled.withTail ?_ _ _
  refine ⟨hscheme, ?_, ?_, ?_, ?_, ?_, ?_, ?_⟩
  · simpa only [Option.getD_some, String.toList_ofList] using hplace
  · intro c hc
    rw [String.toList_ofList] at hc
    rcases hpath with hnil | hrooted
    · rw [hnil] at hc
      cases hc
    · exact hrooted.2 c hc
  · intro hnone
    cases hnone
  · intro _
    rw [String.toList_ofList]
    exact hpath.imp id And.left
  · intro hspecial
    refine ⟨by simp, ?_⟩
    intro hempty
    have : p.host = [] := by simpa using congrArg (Option.map String.toList) hempty
    exact absurd this (hhost hspecial)
  · intro q hq
    cases hq
  · intro f hf
    cases hf

theorem readFileHost_inPlace {text host : Text} (h : readFileHost text = .ok host) :
    ∀ c ∈ host, inPlace c = true := by
  unfold readFileHost at h
  split at h
  · obtain rfl := Except.ok.inj h
    simp
  · rcases hdomain : readDomain text with e | name
    · rw [hdomain] at h
      cases h
    · rw [hdomain] at h
      obtain rfl := Except.ok.inj h
      dsimp only
      split
      · simp
      · exact (readDomain_inPlace hdomain).2

theorem settled_fileAddress {host : Text} (h : ∀ c ∈ host, inPlace c = true) (rest : Text)
    (opening : Bool) : Settled (fileAddress rest opening host) := by
  have hkept : ∀ b : Bool, ∀ c ∈ (if b then [] else host), inPlace c = true := by
    intro b
    cases b
    · exact h
    · simp
  unfold fileAddress
  generalize splitTail rest = split
  dsimp only
  have hpath := rooted_readPath .file
  refine Settled.withTail ⟨isScheme_file, ?_, ?_, ?_, ?_, ?_, ?_, ?_⟩ _ _
  · intro c hc
    rw [Option.getD_some, String.toList_ofList, String.toList_ofList, List.nil_append] at hc
    exact hkept _ c hc
  · intro c hc
    rw [String.toList_ofList] at hc
    exact (hpath _ _).2 c hc
  · intro hnone
    cases hnone
  · intro _
    rw [String.toList_ofList]
    exact Or.inr (hpath _ _).1
  · exact fun _ => ⟨by simp, fun _ => rfl⟩
  · intro q hq
    cases hq
  · intro f hf
    cases hf

theorem splitTail_eq (text : Text) :
    splitTail text = (text.takeWhile (!isTail ·), text.dropWhile (!isTail ·)) :=
  List.span_eq_takeWhile_dropWhile ..

/-- The path of a flat address. -/
theorem encode_takeWhile_inPath (text : Text) :
    ∀ c ∈ encode isControl (text.takeWhile (!isTail ·)), inPath c = true := by
  refine forall_mem_encode ?_ (by decide) (fun c hc => inPath_of_inPlace (inPlace_of_isAlphanum hc))
  intro c hc hcontrol
  have htail : (!isTail c) = true := List.mem_takeWhile_imp (p := fun c => !isTail c) hc
  exact inPath_eq_true.mpr ⟨by simpa using htail, isIgnored_eq_false_of_not_isControl hcontrol⟩

theorem head?_encode_takeWhile_ne {text : Text} (h : text.head? ≠ some '/') :
    (encode isControl (text.takeWhile (!isTail ·))).head? ≠ some '/' := by
  cases text with
  | nil => simp [encode]
  | cons c rest =>
    have hc : c ≠ '/' := by simpa using h
    rw [List.takeWhile_cons]
    split
    · cases hcontrol : isControl c with
      | false => simpa [encode, hcontrol] using hc
      | true =>
        rcases hbytes : String.utf8EncodeChar c with _ | ⟨b, more⟩
        · have := String.length_utf8EncodeChar c
          rw [hbytes] at this
          exact absurd this.symm (Char.utf8Size_pos c).ne'
        · simp [encode, hcontrol, hbytes, encodeByte]
    · simp [encode]

theorem settled_readOther {scheme : String} (hscheme : IsScheme scheme.toList)
    (hkind : SchemeKind.ofScheme scheme = .other) {text : Text} {u : Url}
    (h : readOther scheme text = .ok u) : Settled u := by
  have hspecial : (SchemeKind.ofScheme scheme).isSpecial ≠ true := by
    rw [hkind]
    decide
  unfold readOther at h
  split at h
  · rename_i rest
    unfold readAuthority at h
    dsimp only at h
    rcases hplace : readPlace .other _ _ with e | p
    · rw [hplace] at h
      cases h
    · rw [hplace] at h
      obtain rfl := Except.ok.inj h
      rw [← hkind] at hplace ⊢
      exact settled_address hscheme hplace _
  · rename_i rest _
    obtain rfl := Except.ok.inj h
    have hpath := rooted_readPath .other false (splitTail rest).1
    refine Settled.withTail
      ⟨hscheme, by simp, ?_, ?_, by simp, fun h => absurd h hspecial, by simp, by simp⟩ _ _
    · intro c hc
      rw [String.toList_ofList] at hc
      exact hpath.2 c hc
    · intro _
      rw [String.toList_ofList]
      exact iff_of_true hpath.1 rfl
  · rename_i hslash
    rw [splitTail_eq] at h
    obtain rfl := Except.ok.inj h
    refine Settled.withTail
      ⟨hscheme, by simp, ?_, ?_, by simp, fun h => absurd h hspecial, by simp, by simp⟩ _ _
    · rw [String.toList_ofList]
      exact encode_takeWhile_inPath text
    · intro _
      rw [String.toList_ofList]
      refine iff_of_false (head?_encode_takeWhile_ne ?_) (by simp)
      intro hhead
      obtain ⟨rest, rfl⟩ := List.head?_eq_some_iff.mp hhead
      exact hslash rest rfl

/-- What was read is settled. -/
theorem settled_of_parse {text : String} {u : Url} (h : parse text = .ok u) : Settled u := by
  unfold parse at h
  dsimp only at h
  split at h
  · cases h
  · rename_i scheme rest hscheme
    have hscheme := isScheme_of_readScheme? hscheme
    split at h
    · unfold readFile at h
      dsimp only at h
      rcases hhost : readFileHost _ with e | host
      · rw [hhost] at h
        cases h
      · rw [hhost] at h
        obtain rfl := Except.ok.inj h
        exact settled_fileAddress (readFileHost_inPlace hhost) _ _
    · rename_i usual hkind
      unfold readAuthority at h
      dsimp only at h
      rcases hplace : readPlace (.web usual) _ _ with e | p
      · rw [hplace] at h
        cases h
      · rw [hplace] at h
        obtain rfl := Except.ok.inj h
        rw [← hkind] at hplace ⊢
        exact settled_address hscheme hplace _
    · rename_i hkind
      exact settled_readOther hscheme hkind h

end Polyglot.Url
