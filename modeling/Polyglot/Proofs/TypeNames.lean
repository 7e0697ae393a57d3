import Polyglot.Cel.Types
import Mathlib.Data.List.TakeDrop
import Mathlib.Data.List.TakeWhile

/-!
The texts that name a type. Blanks do not count around names, parentheses and commas, and the
parameters of a type are parted by the commas outside parentheses. How deep a place of a text lies
does not depend on its blanks; so whether a text is read as a type depends on the type alone, and
the text that is written for a type is read as that type whenever some text is.
-/
namespace Polyglot.Cel

open Unicode

/-! Blanks. -/

/-- A text of blanks. -/
def IsBlankText (text : Text) : Prop := ∀ c ∈ text, isBlank c = true

theorem isBlankText_nil : IsBlankText [] := by
  intro c hc
  cases hc

/-- A text without its blanks. -/
def squeeze (text : Text) : Text := text.filter fun c => !isBlank c

theorem squeeze_append (s t : Text) : squeeze (s ++ t) = squeeze s ++ squeeze t :=
  List.filter_append ..

theorem squeeze_cons (c : Char) (text : Text) : squeeze (c :: text) = squeeze [c] ++ squeeze text :=
  squeeze_append [c] text

theorem squeeze_of_blank {text : Text} (h : IsBlankText text) : squeeze text = [] := by
  rw [squeeze, List.filter_eq_nil_iff]
  intro c hc
  simp [h c hc]

theorem trimStart_of_blank {blanks : Text} (h : IsBlankText blanks) (text : Text) :
    trimStart (blanks ++ text) = trimStart text := by
  rw [trimStart, List.dropWhile_append_of_pos h]
  rfl

theorem trimEnd_of_blank {blanks : Text} (h : IsBlankText blanks) (text : Text) :
    trimEnd (text ++ blanks) = trimEnd text := by
  rw [trimEnd, List.reverse_append, trimStart_of_blank]
  · rfl
  · intro c hc
    exact h c (List.mem_reverse.mp hc)

theorem trim_of_blank {front back : Text} (hfront : IsBlankText front) (hback : IsBlankText back)
    (text : Text) : trim (front ++ text ++ back) = trim text := by
  rw [trim, List.append_assoc, trimStart_of_blank hfront]
  by_cases hnone : trimStart text = []
  · have hback' : trimStart (text ++ back) = [] := by
      rw [trimStart, List.dropWhile_append, if_pos (by rw [List.isEmpty_iff]; exact hnone)]
      exact List.dropWhile_eq_nil_iff.mpr hback
    rw [hback', trim, hnone]
  · have hback' : trimStart (text ++ back) = trimStart text ++ back := by
      rw [trimStart, List.dropWhile_append, if_neg (by rw [List.isEmpty_iff]; exact hnone)]
      rfl
    rw [hback', trimEnd_of_blank hback, trim]

/-- A text is trimmed by taking blanks away at both ends. -/
theorem exists_trim (text : Text) :
    ∃ front back, IsBlankText front ∧ IsBlankText back ∧ text = front ++ trim text ++ back := by
  have hsplit : ∀ s : Text, s = s.takeWhile isBlank ++ trimStart s :=
    fun s => List.takeWhile_append_dropWhile.symm
  have hend : trimStart text =
      trim text ++ ((trimStart text).reverse.takeWhile isBlank).reverse := by
    have hrev := congrArg List.reverse (hsplit (trimStart text).reverse)
    rwa [List.reverse_reverse, List.reverse_append] at hrev
  refine ⟨text.takeWhile isBlank, ((trimStart text).reverse.takeWhile isBlank).reverse, ?_, ?_, ?_⟩
  · exact fun c hc => List.mem_takeWhile_imp hc
  · exact fun c hc => List.mem_takeWhile_imp (List.mem_reverse.mp hc)
  · rw [List.append_assoc, ← hend]
    exact hsplit text

theorem trim_trim (text : Text) : trim (trim text) = trim text := by
  obtain ⟨front, back, hfront, hback, htext⟩ := exists_trim text
  have htrim := trim_of_blank hfront hback (trim text)
  rw [← htext] at htrim
  exact htrim.symm

theorem trim_eq_self {first last : Char} {text : Text} (hfirst : isBlank first = false)
    (hlast : isBlank last = false) (hhead : text.head? = some first)
    (hend : text.getLast? = some last) : trim text = text := by
  have hstart : trimStart text = text := by
    cases text with
    | nil => rfl
    | cons c rest =>
      obtain rfl := Option.some.inj hhead
      exact List.dropWhile_cons_of_neg (by simp [hfirst])
  have hback : trimStart text.reverse = text.reverse := by
    rw [← List.head?_reverse] at hend
    cases hrev : text.reverse with
    | nil => rfl
    | cons c rest =>
      rw [hrev] at hend
      obtain rfl := Option.some.inj hend
      exact List.dropWhile_cons_of_neg (by simp [hlast])
  rw [trim, hstart, trimEnd, hback, List.reverse_reverse]

theorem trim_of_no_blank {text : Text} (h : ∀ c ∈ text, isBlank c = false) : trim text = text := by
  cases text with
  | nil => rfl
  | cons c rest =>
    exact trim_eq_self (h c List.mem_cons_self)
      (h _ (List.getLast_mem (List.cons_ne_nil c rest))) rfl
      (List.getLast?_eq_some_getLast (List.cons_ne_nil c rest))

/-! Parameters. -/

/-- How deep it goes on behind a character. -/
def deeper (depth : Int) (c : Char) : Int :=
  if c = '(' then depth + 1 else if c = ')' then depth - 1 else depth

/-- How deep it goes on behind a text. -/
def depthBehind (depth : Int) (text : Text) : Int := text.foldl deeper depth

/-- No comma of a text parts parameters. -/
def Whole : Int → Text → Prop
  | _, [] => True
  | depth, c :: rest => ¬ (c = ',' ∧ depth = 0) ∧ Whole (deeper depth c) rest

theorem whole_append {depth : Int} {s t : Text} :
    Whole depth (s ++ t) ↔ Whole depth s ∧ Whole (depthBehind depth s) t := by
  induction s generalizing depth with
  | nil => simp [Whole, depthBehind]
  | cons c s ih =>
    rw [List.cons_append, Whole, Whole, ih, and_assoc]
    rfl

theorem depthBehind_append (depth : Int) (s t : Text) :
    depthBehind depth (s ++ t) = depthBehind (depthBehind depth s) t :=
  List.foldl_append ..

theorem ne_of_isBlank {c mark : Char} (h : isBlank c = true) (hmark : mark ∈ ['(', ')', ',']) :
    c ≠ mark := by
  rintro rfl
  have hall : ['(', ')', ','].all (fun d => !isBlank d) = true := by decide +kernel
  have hnot := List.all_eq_true.mp hall c hmark
  simp [h] at hnot

theorem deeper_of_isBlank {c : Char} (h : isBlank c = true) (depth : Int) :
    deeper depth c = depth := by
  rw [deeper, if_neg (ne_of_isBlank h (by decide)), if_neg (ne_of_isBlank h (by decide))]

/-- Blanks neither part parameters nor change how deep it goes on. -/
theorem whole_squeeze {depth : Int} {text : Text} :
    Whole depth (squeeze text) ↔ Whole depth text := by
  induction text generalizing depth with
  | nil => exact Iff.rfl
  | cons c rest ih =>
    by_cases hblank : isBlank c = true
    · have hcomma : ¬ (c = ',' ∧ depth = 0) := fun h => ne_of_isBlank hblank (by decide) h.1
      rw [Whole, deeper_of_isBlank hblank, squeeze, List.filter_cons_of_neg (by simp [hblank])]
      exact ih.trans (and_iff_right hcomma).symm
    · rw [squeeze, List.filter_cons_of_pos (by simpa using hblank), Whole, Whole]
      exact and_congr_right fun _ => ih

theorem depthBehind_squeeze (depth : Int) (text : Text) :
    depthBehind depth (squeeze text) = depthBehind depth text := by
  induction text generalizing depth with
  | nil => rfl
  | cons c rest ih =>
    by_cases hblank : isBlank c = true
    · have hrest := ih (deeper depth c)
      rw [deeper_of_isBlank hblank] at hrest
      rw [squeeze, List.filter_cons_of_neg (by simp [hblank]), depthBehind, depthBehind,
        List.foldl_cons, deeper_of_isBlank hblank]
      exact hrest
    · rw [squeeze, List.filter_cons_of_pos (by simpa using hblank)]
      exact ih (deeper depth c)

/-- One parameter, or a first one, which ends where it started, and the others. -/
theorem splitParameters_cases (depth : Int) (text : Text) :
    (Whole depth text ∧ splitParameters depth text = [text]) ∨
      ∃ first rest, text = first ++ ',' :: rest ∧ Whole depth first ∧ depthBehind depth first = 0 ∧
        splitParameters depth text = first :: splitParameters 0 rest := by
  induction text generalizing depth with
  | nil => exact Or.inl ⟨trivial, rfl⟩
  | cons c text ih =>
    by_cases hcomma : c = ',' ∧ depth = 0
    · refine Or.inr ⟨[], text, by rw [hcomma.1]; rfl, trivial, hcomma.2, ?_⟩
      rw [splitParameters, if_pos hcomma]
    · have hsplit : splitParameters depth (c :: text) =
          Text.consLine c (splitParameters (deeper depth c) text) := by
        rw [splitParameters, if_neg hcomma]
        rfl
      rcases ih (deeper depth c) with ⟨hwhole, heq⟩ | ⟨first, rest, rfl, hwhole, hdepth, heq⟩
      · exact Or.inl ⟨⟨hcomma, hwhole⟩, by rw [hsplit, heq]; rfl⟩
      · exact Or.inr ⟨c :: first, rest, rfl, ⟨hcomma, hwhole⟩, hdepth, by rw [hsplit, heq]; rfl⟩

theorem splitParameters_of_whole {depth : Int} {text : Text} (h : Whole depth text) :
    splitParameters depth text = [text] := by
  rcases splitParameters_cases depth text with ⟨_, heq⟩ | ⟨first, rest, rfl, _, hdepth, _⟩
  · exact heq
  · exact absurd ⟨rfl, hdepth⟩ (whole_append.mp h).2.1

theorem splitParameters_append {depth : Int} {first : Text} (h : Whole depth first)
    (hdepth : depthBehind depth first = 0) (rest : Text) :
    splitParameters depth (first ++ ',' :: rest) = first :: splitParameters 0 rest := by
  induction first generalizing depth with
  | nil =>
    obtain rfl : depth = 0 := hdepth
    rw [List.nil_append, splitParameters, if_pos ⟨rfl, rfl⟩]
  | cons c first ih =>
    rw [List.cons_append, splitParameters, if_neg h.1]
    exact congrArg (Text.consLine c) (ih h.2 hdepth)

theorem splitParameters_eq_singleton {text p : Text} (h : splitParameters 0 text = [p]) :
    p = text ∧ Whole 0 text := by
  rcases splitParameters_cases 0 text with ⟨hwhole, heq⟩ | ⟨first, rest, _, _, _, heq⟩
  · rw [heq] at h
    exact ⟨(List.cons.inj h).1.symm, hwhole⟩
  · rw [heq] at h
    rcases splitParameters_cases 0 rest with ⟨_, hrest⟩ | ⟨_, _, _, _, _, hrest⟩
    · rw [hrest] at h
      cases h
    · rw [hrest] at h
      cases h

theorem splitParameters_eq_pair {text p q : Text} (h : splitParameters 0 text = [p, q]) :
    text = p ++ ',' :: q ∧ Whole 0 p ∧ depthBehind 0 p = 0 ∧ Whole 0 q := by
  rcases splitParameters_cases 0 text with ⟨_, heq⟩ | ⟨first, rest, rfl, hwhole, hdepth, heq⟩
  · rw [heq] at h
    cases h
  · rw [heq] at h
    obtain ⟨rfl, hrest⟩ := List.cons.inj h
    obtain ⟨rfl, hlast⟩ := splitParameters_eq_singleton hrest
    exact ⟨rfl, hwhole, hdepth, hlast⟩

namespace CelType

/-! Types and texts. -/

/-- The names of the types without parameters. -/
def keywords : List Text :=
  ["bool", "int", "uint", "double", "string", "bytes", "null", "dyn", "timestamp",
    "duration"].map String.toList

/-- The names of the types with parameters. -/
def constructors : List Text := ["list", "map", "optional"].map String.toList

/-- A character that neither is blank nor parts anything. -/
def IsLetter (c : Char) : Prop := isBlank c = false ∧ c ≠ '(' ∧ c ≠ ')' ∧ c ≠ ','

instance (c : Char) : Decidable (IsLetter c) := inferInstanceAs (Decidable (_ ∧ _))

theorem isLetter_of_mem {word : Text} (hword : word ∈ keywords ++ constructors) {c : Char}
    (hc : c ∈ word) : IsLetter c := by
  have hall :
      (keywords ++ constructors).all (fun w => w.all fun d => decide (IsLetter d)) = true := by
    decide +kernel
  simpa using List.all_eq_true.mp (List.all_eq_true.mp hall word hword) c hc

theorem trim_of_mem {word : Text} (hword : word ∈ keywords ++ constructors) : trim word = word :=
  trim_of_no_blank fun _ hc => (isLetter_of_mem hword hc).1

/-- A type without parameters. -/
def IsPlain : CelType → Prop
  | list _ | map _ _ | optional _ => False
  | _ => True

/-- A name with something in parentheses behind it. -/
def applied (word : String) (blanks inner : Text) : Text :=
  word.toList ++ blanks ++ '(' :: (inner ++ [')'])

/-- A text names a type: the names in it are those of the type, and there may be blanks around
names, parentheses and commas. -/
inductive Spaced : CelType → Text → Prop where
  | plain {t : CelType} : t.IsPlain → Spaced t t.render
  | list {item : CelType} {s blanks : Text} : Spaced item s → IsBlankText blanks →
      Spaced (list item) (applied "list" blanks s)
  | map {key value : CelType} {k v blanks : Text} : Spaced key k → Spaced value v →
      IsBlankText blanks → Spaced (map key value) (applied "map" blanks (k ++ ',' :: v))
  | optional {item : CelType} {s blanks : Text} : Spaced item s → IsBlankText blanks →
      Spaced (optional item) (applied "optional" blanks s)
  | around {t : CelType} {s front back : Text} : Spaced t s → IsBlankText front →
      IsBlankText back → Spaced t (front ++ s ++ back)

theorem applied_nil (word : String) (inner : Text) :
    applied word [] inner = word.toList ++ ['('] ++ inner ++ [')'] := by
  simp [applied]

theorem render_list (item : CelType) : (list item).render = applied "list" [] item.render :=
  (applied_nil "list" item.render).symm

theorem render_map (key value : CelType) :
    (map key value).render = applied "map" [] (key.render ++ ',' :: ([' '] ++ value.render)) := by
  rw [applied_nil]
  change "map(".toList ++ key.render ++ ", ".toList ++ value.render ++ [')'] = _
  simp

theorem render_optional (item : CelType) :
    (optional item).render = applied "optional" [] item.render :=
  (applied_nil "optional" item.render).symm

theorem isBlankText_space : IsBlankText [' '] := by
  intro c hc
  obtain rfl := List.mem_singleton.mp hc
  decide +kernel

/-- What is written for a type names it. -/
theorem spaced_render (t : CelType) : Spaced t t.render := by
  induction t with
  | list item ih =>
    rw [render_list]
    exact Spaced.list ih isBlankText_nil
  | optional item ih =>
    rw [render_optional]
    exact Spaced.optional ih isBlankText_nil
  | map key value ihk ihv =>
    have hvalue := ihv.around isBlankText_space isBlankText_nil
    rw [List.append_nil] at hvalue
    rw [render_map]
    exact Spaced.map ihk hvalue isBlankText_nil
  | _ => exact Spaced.plain trivial

theorem squeeze_applied (word : String) {blanks : Text} (h : IsBlankText blanks) (inner : Text) :
    squeeze (applied word blanks inner) =
      squeeze word.toList ++ (squeeze ['('] ++ (squeeze inner ++ squeeze [')'])) := by
  rw [applied, squeeze_append, squeeze_append, squeeze_of_blank h, List.append_nil, squeeze_cons,
    squeeze_append]

/-- All texts that name a type are the same up to blanks. -/
theorem Spaced.squeeze_eq {t : CelType} {s : Text} (h : Spaced t s) :
    squeeze s = squeeze t.render := by
  induction h with
  | plain => rfl
  | list _ hblanks ih =>
    rw [render_list, squeeze_applied _ hblanks, squeeze_applied _ isBlankText_nil, ih]
  | map _ _ hblanks ihk ihv =>
    have hcomma : ∀ k v : Text,
        squeeze (k ++ ',' :: v) = squeeze k ++ (squeeze [','] ++ squeeze v) :=
      fun k v => by rw [squeeze_append, squeeze_cons]
    rw [render_map, squeeze_applied _ hblanks, squeeze_applied _ isBlankText_nil, hcomma, hcomma,
      squeeze_append [' '], squeeze_of_blank isBlankText_space, List.nil_append, ihk, ihv]
  | optional _ hblanks ih =>
    rw [render_optional, squeeze_applied _ hblanks, squeeze_applied _ isBlankText_nil, ih]
  | around _ hfront hback ih =>
    rw [squeeze_append, squeeze_append, squeeze_of_blank hfront, squeeze_of_blank hback, ih,
      List.nil_append, List.append_nil]

/-! Reading. -/

theorem exists_of_map_eq_ok {f : CelType → CelType} {r : Except TypeError CelType} {t : CelType}
    (h : r.map f = .ok t) : ∃ s, r = .ok s ∧ t = f s := by
  cases r with
  | error e => cases h
  | ok s => exact ⟨s, rfl, (Except.ok.inj h).symm⟩

/-- All that a text can be that is read: a name, or a name with parameters. -/
theorem parseWithin_ok_cases {levels : Nat} {text : Text} {t : CelType}
    (h : parseWithin (levels + 1) text = .ok t) :
    (trim text ≠ [] ∧ '(' ∉ trim text ∧ t = ofName (trim text)) ∨
      ∃ name inner, trim text = name ++ '(' :: (inner ++ [')']) ∧
        ((∃ p item, trim name = "list".toList ∧ splitParameters 0 inner = [p] ∧
            parseWithin levels (trim p) = .ok item ∧ t = list item) ∨
          (∃ p q key value, trim name = "map".toList ∧ splitParameters 0 inner = [p, q] ∧
            parseWithin levels (trim p) = .ok key ∧ parseWithin levels (trim q) = .ok value ∧
            t = map key value) ∨
          ∃ p item, trim name = "optional".toList ∧ splitParameters 0 inner = [p] ∧
            parseWithin levels (trim p) = .ok item ∧ t = optional item) := by
  unfold parseWithin at h
  simp only [List.span_eq_takeWhile_dropWhile] at h
  have hsplit := List.takeWhile_append_dropWhile (p := (· != '(')) (l := trim text)
  split at h
  · cases h
  next hempty =>
    split at h
    next name hspan =>
      obtain ⟨-, hnone⟩ := Prod.mk.inj hspan
      refine Or.inl ⟨by simpa using hempty, ?_, (Except.ok.inj h).symm⟩
      intro hparen
      simpa using List.dropWhile_eq_nil_iff.mp hnone '(' hparen
    next name c rest hspan =>
      obtain ⟨hname, hrest⟩ := Prod.mk.inj hspan
      rw [hname, hrest] at hsplit
      have hparen : c = '(' := by
        have hhead := List.head?_dropWhile_not (· != '(') (trim text)
        rw [hrest] at hhead
        simpa using hhead
      split at h
      next hlast =>
        have hinner : rest = rest.dropLast ++ [')'] := by
          obtain ⟨init, rfl⟩ := List.getLast?_eq_some_iff.mp hlast
          rw [List.dropLast_concat]
        refine Or.inr ⟨name, rest.dropLast, ?_, ?_⟩
        · rw [← hinner, ← hparen]
          exact hsplit.symm
        · have hword : ∀ {word : String}, String.ofList (trim name) = word →
              trim name = word.toList := by
            rintro _ rfl
            exact String.toList_ofList.symm
          split at h
          next item hname hitem =>
            obtain ⟨p, hp, rfl⟩ := List.map_eq_singleton_iff.mp hitem
            obtain ⟨read, hread, rfl⟩ := exists_of_map_eq_ok h
            exact Or.inl ⟨p, read, hword hname, hp, hread, rfl⟩
          next key value hname hpair =>
            obtain ⟨p, more, hp, rfl, hmore⟩ := List.map_eq_cons_iff.mp hpair
            obtain ⟨q, rfl, rfl⟩ := List.map_eq_singleton_iff.mp hmore
            cases hkey : parseWithin levels (trim p) with
            | error e =>
              rw [hkey] at h
              cases h
            | ok k =>
              cases hvalue : parseWithin levels (trim q) with
              | error e =>
                rw [hkey, hvalue] at h
                cases h
              | ok v =>
                rw [hkey, hvalue] at h
                cases h
                exact Or.inr (Or.inl ⟨p, q, k, v, hword hname, hp, hkey, hvalue, rfl⟩)
          next item hname hitem =>
            obtain ⟨p, hp, rfl⟩ := List.map_eq_singleton_iff.mp hitem
            obtain ⟨read, hread, rfl⟩ := exists_of_map_eq_ok h
            exact Or.inr (Or.inr ⟨p, read, hword hname, hp, hread, rfl⟩)
          · cases h
      · cases h

theorem Spaced.whole_iff {t : CelType} {s : Text} (h : Spaced t s) {depth : Int} :
    Whole depth s ↔ Whole depth t.render := by
  rw [← whole_squeeze, h.squeeze_eq, whole_squeeze]

theorem Spaced.depthBehind_eq {t : CelType} {s : Text} (h : Spaced t s) (depth : Int) :
    depthBehind depth s = depthBehind depth t.render := by
  rw [← depthBehind_squeeze, h.squeeze_eq, depthBehind_squeeze]

theorem Spaced.of_trim {t : CelType} {s : Text} (h : Spaced t (trim s)) : Spaced t s := by
  obtain ⟨front, back, hfront, hback, hs⟩ := exists_trim s
  rw [hs]
  exact h.around hfront hback

/-- The types that some text names: their names are read as they are, and their parameters are
parted where they should be. -/
def Readable : CelType → Prop
  | message name => name ≠ [] ∧ trim name = name ∧ '(' ∉ name ∧ name ∉ keywords
  | list item => item.Readable ∧ Whole 0 item.render
  | map key value => key.Readable ∧ value.Readable ∧ Whole 0 key.render ∧
      depthBehind 0 key.render = 0 ∧ Whole 0 value.render
  | optional item => item.Readable ∧ Whole 0 item.render
  | _ => True

theorem ofName_of_not_mem {name : Text} (h : name ∉ keywords) : ofName name = message name := by
  have hword : ∀ {word : String}, String.ofList name = word → word.toList ∉ keywords := by
    rintro _ rfl
    rwa [String.toList_ofList]
  unfold ofName
  split
  case h_11 => rfl
  all_goals
    next heq => exact absurd (by decide) (hword heq)

/-- A name is read as the type that is written so. -/
theorem ofName_spec {name : Text} (hne : name ≠ []) (htrim : trim name = name)
    (hparen : '(' ∉ name) :
    (ofName name).IsPlain ∧ (ofName name).Readable ∧ (ofName name).render = name := by
  by_cases hkeyword : name ∈ keywords
  · have hall : ∀ word ∈ keywords,
        (ofName word).IsPlain ∧ (ofName word).Readable ∧ (ofName word).render = word := by
      simp only [keywords, List.map_cons, List.map_nil, List.forall_mem_cons]
      refine ⟨?_, ?_, ?_, ?_, ?_, ?_, ?_, ?_, ?_, ?_, ?_⟩
      case refine_11 =>
        intro word hword
        cases hword
      all_goals exact ⟨trivial, trivial, rfl⟩
    exact hall name hkeyword
  · rw [ofName_of_not_mem hkeyword]
    exact ⟨trivial, ⟨hne, htrim, hparen, hkeyword⟩, rfl⟩

theorem IsPlain.render_mem {t : CelType} (h : t.IsPlain) :
    t.render ∈ keywords ∧ ofName t.render = t ∨ ∃ name, t = message name := by
  cases t with
  | list item => exact h.elim
  | map key value => exact h.elim
  | optional item => exact h.elim
  | message name => exact Or.inr ⟨name, rfl⟩
  | _ => exact Or.inl ⟨by decide, rfl⟩

/-- What is written for a type without parameters is read as its name. -/
theorem IsPlain.render_spec {t : CelType} (h : t.IsPlain) (hread : t.Readable) :
    t.render ≠ [] ∧ trim t.render = t.render ∧ '(' ∉ t.render ∧ ofName t.render = t := by
  rcases h.render_mem with ⟨hmem, hname⟩ | ⟨name, rfl⟩
  · have hword := List.mem_append_left constructors hmem
    refine ⟨?_, trim_of_mem hword, fun hc => (isLetter_of_mem hword hc).2.1 rfl, hname⟩
    intro hnil
    rw [hnil] at hmem
    exact absurd hmem (by decide)
  · exact ⟨hread.1, hread.2.1, hread.2.2.1, ofName_of_not_mem hread.2.2.2⟩

theorem exists_applied {name : Text} {word : String} (h : trim name = word.toList) (inner : Text) :
    ∃ front blanks, IsBlankText front ∧ IsBlankText blanks ∧
      name ++ '(' :: (inner ++ [')']) = front ++ applied word blanks inner ++ [] := by
  obtain ⟨front, back, hfront, hback, hname⟩ := exists_trim name
  rw [h] at hname
  refine ⟨front, back, hfront, hback, ?_⟩
  rw [hname]
  simp [applied]

/-- A text that is read names the type that it is read as. -/
theorem spaced_of_parseWithin {levels : Nat} {text : Text} {t : CelType}
    (h : parseWithin levels text = .ok t) : Spaced t text ∧ t.Readable := by
  induction levels generalizing text t with
  | zero => cases h
  | succ levels ih =>
    suffices htrim : Spaced t (trim text) ∧ t.Readable from ⟨htrim.1.of_trim, htrim.2⟩
    rcases parseWithin_ok_cases h with ⟨hne, hparen, rfl⟩ | ⟨name, inner, htrim, hread⟩
    · obtain ⟨hplain, hreadable, hrender⟩ := ofName_spec hne (trim_trim text) hparen
      have hspaced := Spaced.plain hplain
      rw [hrender] at hspaced
      exact ⟨hspaced, hreadable⟩
    · rw [htrim]
      rcases hread with ⟨p, item, hname, hp, hitem, rfl⟩ |
        ⟨p, q, key, value, hname, hpq, hkey, hvalue, rfl⟩ | ⟨p, item, hname, hp, hitem, rfl⟩
      · obtain ⟨front, blanks, hfront, hblanks, heq⟩ := exists_applied hname inner
        obtain ⟨rfl, hwhole⟩ := splitParameters_eq_singleton hp
        obtain ⟨hspaced, hreadable⟩ := ih hitem
        rw [heq]
        exact ⟨(hspaced.of_trim.list hblanks).around hfront isBlankText_nil, hreadable,
          hspaced.of_trim.whole_iff.mp hwhole⟩
      · obtain ⟨front, blanks, hfront, hblanks, heq⟩ := exists_applied hname inner
        obtain ⟨rfl, hwhole, hdepth, hwhole'⟩ := splitParameters_eq_pair hpq
        obtain ⟨hspaced, hreadable⟩ := ih hkey
        obtain ⟨hspaced', hreadable'⟩ := ih hvalue
        rw [heq]
        refine ⟨(hspaced.of_trim.map hspaced'.of_trim hblanks).around hfront isBlankText_nil,
          hreadable, hreadable', hspaced.of_trim.whole_iff.mp hwhole, ?_,
          hspaced'.of_trim.whole_iff.mp hwhole'⟩
        rw [← hspaced.of_trim.depthBehind_eq, hdepth]
      · obtain ⟨front, blanks, hfront, hblanks, heq⟩ := exists_applied hname inner
        obtain ⟨rfl, hwhole⟩ := splitParameters_eq_singleton hp
        obtain ⟨hspaced, hreadable⟩ := ih hitem
        rw [heq]
        exact ⟨(hspaced.of_trim.optional hblanks).around hfront isBlankText_nil, hreadable,
          hspaced.of_trim.whole_iff.mp hwhole⟩

theorem parseWithin_congr {levels : Nat} {s t : Text} (h : trim s = trim t) :
    parseWithin (levels + 1) s = parseWithin (levels + 1) t := by
  simp only [parseWithin, h]

theorem parseWithin_plain {levels : Nat} {text : Text} (hne : text ≠ []) (htrim : trim text = text)
    (hparen : '(' ∉ text) : parseWithin (levels + 1) text = .ok (ofName text) := by
  have hspan : text.span (· != '(') = (text, []) := by
    rw [List.span_eq_takeWhile_dropWhile, List.takeWhile_eq_self_iff.mpr,
      List.dropWhile_eq_nil_iff.mpr]
    all_goals
      intro c hc
      rw [bne_iff_ne]
      rintro rfl
      exact hparen hc
  simp only [parseWithin, htrim, hspan]
  rw [if_neg]
  rwa [List.isEmpty_iff]

section

variable {word : String} (hword : word.toList ∈ constructors)

include hword

theorem trim_constructor {blanks : Text} (hblanks : IsBlankText blanks) :
    trim (word.toList ++ blanks) = word.toList := by
  have hblank := trim_of_blank isBlankText_nil hblanks word.toList
  rw [List.nil_append] at hblank
  rw [hblank, trim_of_mem (List.mem_append_right keywords hword)]

theorem trim_applied (blanks inner : Text) :
    trim (applied word blanks inner) = applied word blanks inner := by
  have hletter : ∀ c ∈ word.toList, IsLetter c := fun c =>
    isLetter_of_mem (List.mem_append_right keywords hword)
  have hne : word.toList ≠ [] := by
    intro hnil
    rw [hnil] at hword
    exact absurd hword (by decide)
  have hhead : (applied word blanks inner).head? = some (word.toList.head hne) := by
    rw [applied, List.append_assoc, List.head?_append, List.head?_eq_some_head hne]
    rfl
  have hlast : (applied word blanks inner).getLast? = some ')' := by
    rw [applied, ← List.cons_append, ← List.append_assoc, List.getLast?_concat]
  exact trim_eq_self (hletter _ (List.head_mem hne)).1 (by decide +kernel) hhead hlast

theorem span_applied {blanks : Text} (hblanks : IsBlankText blanks) (inner : Text) :
    (applied word blanks inner).span (· != '(') =
      (word.toList ++ blanks, '(' :: (inner ++ [')'])) := by
  have hfront : ∀ c ∈ word.toList ++ blanks, (c != '(') = true := by
    intro c hc
    rw [bne_iff_ne]
    rcases List.mem_append.mp hc with hc | hc
    · exact (isLetter_of_mem (List.mem_append_right keywords hword) hc).2.1
    · exact ne_of_isBlank (hblanks c hc) (by decide)
  rw [List.span_eq_takeWhile_dropWhile, applied, List.takeWhile_append_of_pos hfront,
    List.dropWhile_append_of_pos hfront]
  simp

end

theorem isEmpty_applied (word : String) (blanks inner : Text) :
    (applied word blanks inner).isEmpty = false := by
  simp [applied]

theorem length_applied (word : String) (blanks inner : Text) :
    inner.length + 2 ≤ (applied word blanks inner).length := by
  simp only [applied, List.length_append, List.length_cons, List.length_nil]
  omega

section

variable {levels : Nat} {blanks s : Text} (hblanks : IsBlankText blanks) (hwhole : Whole 0 s)

include hblanks hwhole

theorem parseWithin_list : parseWithin (levels + 1) (applied "list" blanks s) =
    (parseWithin levels (trim s)).map list := by
  have hword : "list".toList ∈ constructors := by decide
  simp only [parseWithin, trim_applied hword, span_applied hword hblanks, isEmpty_applied,
    trim_constructor hword hblanks, List.getLast?_concat, List.dropLast_concat, if_true,
    splitParameters_of_whole hwhole, List.map_cons, List.map_nil, String.ofList_toList,
    Bool.false_eq_true, if_false]

theorem parseWithin_optional : parseWithin (levels + 1) (applied "optional" blanks s) =
    (parseWithin levels (trim s)).map optional := by
  have hword : "optional".toList ∈ constructors := by decide
  simp only [parseWithin, trim_applied hword, span_applied hword hblanks, isEmpty_applied,
    trim_constructor hword hblanks, List.getLast?_concat, List.dropLast_concat, if_true,
    splitParameters_of_whole hwhole, List.map_cons, List.map_nil, String.ofList_toList,
    Bool.false_eq_true, if_false]

theorem parseWithin_map {k : Text} (hk : Whole 0 k) (hdepth : depthBehind 0 k = 0)
    {key value : CelType} (hkey : parseWithin levels (trim k) = .ok key)
    (hvalue : parseWithin levels (trim s) = .ok value) :
    parseWithin (levels + 1) (applied "map" blanks (k ++ ',' :: s)) = .ok (map key value) := by
  have hword : "map".toList ∈ constructors := by decide
  simp only [parseWithin, trim_applied hword, span_applied hword hblanks, isEmpty_applied,
    trim_constructor hword hblanks, List.getLast?_concat, List.dropLast_concat, if_true,
    splitParameters_append hk hdepth, splitParameters_of_whole hwhole, List.map_cons, List.map_nil,
    String.ofList_toList, Bool.false_eq_true, if_false, hkey, hvalue]
  rfl

end

/-- A text that names a type is read as the type, unless no text is. -/
theorem parseWithin_of_spaced {t : CelType} {text : Text} (h : Spaced t text) (hread : t.Readable)
    {levels : Nat} (hlevels : text.length < levels) : parseWithin levels text = .ok t := by
  have htrim : ∀ {s : Text} {n : Nat} {t : CelType}, parseWithin (n + 1) s = .ok t →
      parseWithin (n + 1) (trim s) = .ok t := by
    intro s n t hs
    rw [parseWithin_congr (trim_trim s), hs]
  induction h generalizing levels with
  | @plain t hplain =>
    obtain ⟨n, rfl⟩ := Nat.exists_eq_add_of_lt hlevels
    obtain ⟨hne, htrim, hparen, hname⟩ := hplain.render_spec hread
    rw [parseWithin_plain hne htrim hparen, hname]
  | @list item s blanks hs hblanks ih =>
    have hlength := length_applied "list" blanks s
    obtain ⟨n, rfl⟩ : ∃ n, levels = n + 2 := ⟨levels - 2, by omega⟩
    rw [parseWithin_list hblanks (hs.whole_iff.mpr hread.2), htrim (ih hread.1 (by omega))]
    rfl
  | @map key value k v blanks hk hv hblanks ihk ihv =>
    have hlength := length_applied "map" blanks (k ++ ',' :: v)
    rw [List.length_append, List.length_cons] at hlength
    obtain ⟨n, rfl⟩ : ∃ n, levels = n + 2 := ⟨levels - 2, by omega⟩
    obtain ⟨hkey, hvalue, hwhole, hdepth, hwhole'⟩ := hread
    refine parseWithin_map hblanks (hv.whole_iff.mpr hwhole') (hk.whole_iff.mpr hwhole) ?_
      (htrim (ihk hkey (by omega))) (htrim (ihv hvalue (by omega)))
    rw [hk.depthBehind_eq, hdepth]
  | @optional item s blanks hs hblanks ih =>
    have hlength := length_applied "optional" blanks s
    obtain ⟨n, rfl⟩ : ∃ n, levels = n + 2 := ⟨levels - 2, by omega⟩
    rw [parseWithin_optional hblanks (hs.whole_iff.mpr hread.2), htrim (ih hread.1 (by omega))]
    rfl
  | @around t s front back _ hfront hback ih =>
    obtain ⟨n, rfl⟩ := Nat.exists_eq_add_of_lt hlevels
    rw [parseWithin_congr (trim_of_blank hfront hback s)]
    refine ih hread ?_
    simp only [List.length_append]
    omega

/-- The texts that are read as a type are those that name it, if there are any. -/
theorem parse_eq_ok_iff {text : Text} {t : CelType} :
    parse text = .ok t ↔ Spaced t text ∧ t.Readable := by
  constructor
  · exact spaced_of_parseWithin
  · rintro ⟨hspaced, hread⟩
    exact parseWithin_of_spaced hspaced hread (Nat.lt_succ_self _)

/-! Plain names. -/

/-- The message names of a type are names that nothing else is read for, without parentheses and
commas. -/
def PlainNames : CelType → Prop
  | message name => name ≠ [] ∧ trim name = name ∧ name ∉ keywords ∧
      '(' ∉ name ∧ ')' ∉ name ∧ ',' ∉ name
  | list item => item.PlainNames
  | map key value => key.PlainNames ∧ value.PlainNames
  | optional item => item.PlainNames
  | _ => True

theorem whole_of_free {text : Text} (h : ∀ c ∈ text, c ≠ '(' ∧ c ≠ ')' ∧ c ≠ ',') (depth : Int) :
    Whole depth text ∧ depthBehind depth text = depth := by
  induction text with
  | nil => exact ⟨trivial, rfl⟩
  | cons c rest ih =>
    obtain ⟨hopen, hclose, hcomma⟩ := h c List.mem_cons_self
    have hdeeper : deeper depth c = depth := by rw [deeper, if_neg hopen, if_neg hclose]
    obtain ⟨hwhole, hdepth⟩ := ih fun d hd => h d (List.mem_cons_of_mem c hd)
    rw [Whole, depthBehind, List.foldl_cons, hdeeper]
    exact ⟨⟨fun hc => hcomma hc.1, hwhole⟩, hdepth⟩

theorem whole_applied {word : String} (hword : word.toList ∈ constructors) {inner : Text}
    {depth : Int} (hwhole : Whole (depth + 1) inner)
    (hdepth : depthBehind (depth + 1) inner = depth + 1) :
    Whole depth (applied word [] inner) ∧ depthBehind depth (applied word [] inner) = depth := by
  obtain ⟨hname, hbehind⟩ := whole_of_free
    (fun c hc => (isLetter_of_mem (List.mem_append_right keywords hword) hc).2) depth
  have hopen : deeper depth '(' = depth + 1 := if_pos rfl
  have hclose : deeper (depth + 1) ')' = depth := by
    change depth + 1 - 1 = depth
    omega
  constructor
  · rw [applied, List.append_nil, whole_append, hbehind, Whole, hopen, whole_append, hdepth]
    exact ⟨hname, by simp, hwhole, by simp, trivial⟩
  · rw [applied, List.append_nil, depthBehind_append, hbehind, depthBehind, List.foldl_cons, hopen,
      ← depthBehind, depthBehind_append, hdepth, depthBehind, List.foldl_cons, hclose]
    rfl

theorem PlainNames.free {t : CelType} (h : t.PlainNames) (hplain : t.IsPlain) :
    ∀ c ∈ t.render, c ≠ '(' ∧ c ≠ ')' ∧ c ≠ ',' := by
  intro c hc
  rcases hplain.render_mem with ⟨hmem, -⟩ | ⟨name, rfl⟩
  · exact (isLetter_of_mem (List.mem_append_left constructors hmem) hc).2
  · obtain ⟨-, -, -, hopen, hclose, hcomma⟩ := h
    refine ⟨?_, ?_, ?_⟩
    all_goals
      rintro rfl
      contradiction

/-- Parentheses close what they open, and commas stand inside of them. -/
theorem PlainNames.whole {t : CelType} (h : t.PlainNames) {depth : Int} (hdepth : 0 ≤ depth) :
    Whole depth t.render ∧ depthBehind depth t.render = depth := by
  induction t generalizing depth with
  | list item ih =>
    obtain ⟨hwhole, hbehind⟩ := @ih h (depth + 1) (by omega)
    rw [render_list]
    exact whole_applied (by decide) hwhole hbehind
  | optional item ih =>
    obtain ⟨hwhole, hbehind⟩ := @ih h (depth + 1) (by omega)
    rw [render_optional]
    exact whole_applied (by decide) hwhole hbehind
  | map key value ihk ihv =>
    obtain ⟨hwhole, hbehind⟩ := @ihk h.1 (depth + 1) (by omega)
    obtain ⟨hwhole', hbehind'⟩ := @ihv h.2 (depth + 1) (by omega)
    have hcomma : deeper (depth + 1) ',' = depth + 1 := rfl
    have hspace : deeper (depth + 1) ' ' = depth + 1 := rfl
    rw [render_map]
    refine whole_applied (by decide) ?_ ?_
    · rw [whole_append, hbehind, Whole, hcomma, List.singleton_append, Whole, hspace]
      exact ⟨hwhole, fun hzero => absurd hzero.2 (by omega), by simp, hwhole'⟩
    · rw [depthBehind_append, hbehind, depthBehind, List.foldl_cons, hcomma, List.singleton_append,
        List.foldl_cons, hspace]
      exact hbehind'
  | _ => exact whole_of_free (h.free trivial) depth

theorem PlainNames.readable {t : CelType} (h : t.PlainNames) : t.Readable := by
  have hzero : ∀ {u : CelType}, u.PlainNames → Whole 0 u.render := fun hu =>
    (hu.whole (Int.le_refl 0)).1
  induction t with
  | list item ih => exact ⟨ih h, @hzero item h⟩
  | optional item ih => exact ⟨ih h, @hzero item h⟩
  | map key value ihk ihv =>
    exact ⟨ihk h.1, ihv h.2, hzero h.1, (h.1.whole (Int.le_refl 0)).2, hzero h.2⟩
  | message name => exact ⟨h.1, h.2.1, h.2.2.2.1, h.2.2.1⟩
  | _ => trivial

/-- What is written for a type with plain names is read as the type, also with blanks around names,
parentheses and commas. And whatever text is read as a type, what is written for the type is read as
the type again. -/
theorem type_names_read_back :
    (∀ t : CelType, t.PlainNames →
      parse t.render = .ok t ∧ ∀ text, Spaced t text → parse text = .ok t) ∧
      ∀ (text : Text) (t : CelType), parse text = .ok t → parse t.render = .ok t := by
  refine ⟨?_, ?_⟩
  · intro t hplain
    have hread := hplain.readable
    exact ⟨parse_eq_ok_iff.mpr ⟨spaced_render t, hread⟩,
      fun text hspaced => parse_eq_ok_iff.mpr ⟨hspaced, hread⟩⟩
  · intro text t h
    exact parse_eq_ok_iff.mpr ⟨spaced_render t, (parse_eq_ok_iff.mp h).2⟩

/-- Two blanks around a name; and a parenthesis that closes nothing, behind which a comma parts
nothing. -/
theorem type_names_read_back_stray :
    parse "list( a )".toList = .ok (list (message ['a'])) ∧
      parse " list( a),b )".toList = .ok (list (message "a),b".toList)) ∧
      parse (list (message "a),b".toList)).render = .ok (list (message "a),b".toList)) := by
  have hplain : (list (message ['a'])).PlainNames :=
    ⟨by simp, by decide +kernel, by decide, by decide, by decide, by decide⟩
  have hname : Spaced (message ['a']) ['a'] := Spaced.plain trivial
  have hspaced : Spaced (list (message ['a'])) "list( a )".toList :=
    (hname.around isBlankText_space isBlankText_space).list isBlankText_nil
  have hstray : parse " list( a),b )".toList = .ok (list (message "a),b".toList)) := by
    decide +kernel
  obtain ⟨hnames, hagain⟩ := type_names_read_back
  exact ⟨(hnames _ hplain).2 _ hspaced, hstray, hagain _ _ hstray⟩

end CelType

end Polyglot.Cel
