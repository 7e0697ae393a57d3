import Polyglot.Proofs.Extraction

/-!
The matches of a pattern and what extraction by a pattern makes of them. A way through a machine
never goes back in the text, so that a match ends behind its start and holds what its groups
matched, and every match ends behind the one before it. A host that keeps its matches therefore
keeps its text; and what is taken from it is an excerpt of it that starts where the range says.
-/
namespace Polyglot

namespace Pattern

variable {program : Array Instr} {input : Array Char}

/-- What one step of a thread does: it may go on in the text, or note where it is. -/
theorem successors_cases {t t' : Thread} {next : List Thread}
    (h : successors program input t = some next) (ht' : t' ∈ next) :
    t.place ≤ t'.place ∧ (t.place ≤ input.size → t'.place ≤ input.size) ∧
      (t'.marks = t.marks ∨ ∃ group opening, Instr.mark group opening ∈ program ∧
        t'.marks = ⟨group, opening, t.place⟩ :: t.marks) := by
  have hbehind : ∀ {c : Char}, input[t.place]? = some c → t.place + 1 ≤ input.size :=
    fun hc => (Array.getElem?_eq_some_iff.mp hc).1
  unfold successors at h
  split at h
  · cases h
    simp at ht'
  · cases h
  · cases h
    split at ht'
    next hc =>
      obtain rfl := List.mem_singleton.mp ht'
      exact ⟨Nat.le_succ _, fun _ => hbehind hc, Or.inl rfl⟩
    next => simp at ht'
  · split at h
    · cases h
      simp at ht'
    next x hx =>
      cases h
      split at ht'
      · obtain rfl := List.mem_singleton.mp ht'
        exact ⟨Nat.le_succ _, fun _ => hbehind hx, Or.inl rfl⟩
      · simp at ht'
  · cases h
    split at ht'
    · obtain rfl := List.mem_singleton.mp ht'
      exact ⟨Nat.le_refl _, id, Or.inl rfl⟩
    · simp at ht'
  · cases h
    rcases List.mem_cons.mp ht' with rfl | ht'
    · exact ⟨Nat.le_refl _, id, Or.inl rfl⟩
    · obtain rfl := List.mem_singleton.mp ht'
      exact ⟨Nat.le_refl _, id, Or.inl rfl⟩
  · cases h
    obtain rfl := List.mem_singleton.mp ht'
    exact ⟨Nat.le_refl _, id, Or.inl rfl⟩
  next hmark =>
    cases h
    obtain rfl := List.mem_singleton.mp ht'
    exact ⟨Nat.le_refl _, id, Or.inr ⟨_, _, Array.mem_of_getElem? hmark, rfl⟩⟩

/-- A way from one place of a text to another, and the marks that were passed on it, latest
first. -/
structure Passed (input : Array Char) (start place : Nat) (marks : List Mark) : Prop where
  le : start ≤ place
  within : place ≤ input.size
  between : ∀ k ∈ marks, start ≤ k.place ∧ k.place ≤ place
  falling : marks.Pairwise fun later earlier => earlier.place ≤ later.place

theorem Passed.step {start : Nat} {t t' : Thread} {next : List Thread}
    (h : Passed input start t.place t.marks) (hnext : successors program input t = some next)
    (ht' : t' ∈ next) : Passed input start t'.place t'.marks := by
  obtain ⟨hle, hwithin, hmarks⟩ := successors_cases hnext ht'
  have hbetween : ∀ k ∈ t.marks, start ≤ k.place ∧ k.place ≤ t'.place := by
    intro k hk
    exact ⟨(h.between k hk).1, Nat.le_trans (h.between k hk).2 hle⟩
  refine ⟨Nat.le_trans h.le hle, hwithin h.within, ?_, ?_⟩
  · rcases hmarks with heq | ⟨group, opening, -, heq⟩
    · rw [heq]
      exact hbetween
    · rw [heq, List.forall_mem_cons]
      exact ⟨⟨h.le, hle⟩, hbetween⟩
  · rcases hmarks with heq | ⟨group, opening, -, heq⟩
    · rw [heq]
      exact h.falling
    · rw [heq, List.pairwise_cons]
      exact ⟨fun k hk => (h.between k hk).2, h.falling⟩

/-- What every step of a thread keeps holds of the thread that is through, if it holds of all that
are tried. -/
theorem explore_keeps {P : Thread → Prop}
    (hstep : ∀ {t t' : Thread} {next : List Thread}, P t → successors program input t = some next →
      t' ∈ next → P t')
    {fuel : Nat} {threads : List Thread} {tried tried' : Tried} {t : Thread}
    (h : explore program input fuel threads tried = (tried', some t))
    (hthreads : ∀ x ∈ threads, P x) : P t := by
  induction fuel generalizing threads tried with
  | zero => cases h
  | succ fuel ih =>
    cases threads with
    | nil => cases h
    | cons x rest =>
      rw [explore] at h
      have hrest : ∀ y ∈ rest, P y := fun y hy => hthreads y (List.mem_cons_of_mem x hy)
      split at h
      · exact ih h hrest
      · split at h
        · obtain ⟨-, hthrough⟩ := Prod.mk.inj h
          obtain rfl := Option.some.inj hthrough
          exact hthreads _ List.mem_cons_self
        next next hnext =>
          refine ih h ?_
          intro y hy
          rcases List.mem_append.mp hy with hy | hy
          · exact hstep (hthreads x List.mem_cons_self) hnext hy
          · exact hrest y hy

/-- A match is a thread that started at one of the places and is through. -/
theorem exists_thread_of_searchFrom {fuel count start : Nat} {tried : Tried} {m : Match}
    (h : searchFrom program input fuel count start tried = some m) :
    start ≤ m.start ∧ m.start < start + count ∧ ∃ tried tried' t,
      explore program input fuel [⟨0, m.start, []⟩] tried = (tried', some t) ∧
        m.stop = t.place ∧ m.marks = t.marks := by
  induction count generalizing start tried with
  | zero => cases h
  | succ count ih =>
    rw [searchFrom] at h
    split at h
    next tried' t hexplore =>
      cases h
      exact ⟨Nat.le_refl _, Nat.lt_add_of_pos_right (Nat.succ_pos count), tried, tried', t,
        hexplore, rfl, rfl⟩
    next tried' hexplore =>
      obtain ⟨hstart, hstop, hthread⟩ := ih h
      exact ⟨by omega, by omega, hthread⟩

theorem exists_thread_of_search {start : Nat} {m : Match}
    (h : search program input start = some m) :
    start ≤ m.start ∧ m.start ≤ input.size ∧ ∃ fuel tried tried' t,
      explore program input fuel [⟨0, m.start, []⟩] tried = (tried', some t) ∧
        m.stop = t.place ∧ m.marks = t.marks := by
  unfold search at h
  obtain ⟨hstart, hstop, hthread⟩ := exists_thread_of_searchFrom h
  exact ⟨hstart, by omega, _, hthread⟩

/-- A match starts no earlier than where the search starts, and goes on from there. -/
theorem passed_of_search {start : Nat} {m : Match} (h : search program input start = some m) :
    start ≤ m.start ∧ Passed input m.start m.stop m.marks := by
  obtain ⟨hstart, hsize, fuel, tried, tried', t, hexplore, hstop, hmarks⟩ :=
    exists_thread_of_search h
  refine ⟨hstart, ?_⟩
  rw [hstop, hmarks]
  apply explore_keeps (P := fun x => Passed input m.start x.place x.marks) Passed.step hexplore
  intro x hx
  obtain rfl := List.mem_singleton.mp hx
  exact ⟨Nat.le_refl _, hsize, by simp, List.Pairwise.nil⟩

/-- What a group matched lies within the match. -/
theorem Passed.group?_bounds {m : Match} (h : Passed input m.start m.stop m.marks) {index : Nat}
    {code : Span} (hcode : m.group? index = some code) :
    m.start ≤ code.start ∧ code.start ≤ code.stop ∧ code.stop ≤ m.stop := by
  unfold Match.group? at hcode
  split at hcode
  · cases hcode
    exact ⟨Nat.le_refl _, h.le, Nat.le_refl _⟩
  · unfold Match.lastRound at hcode
    split at hcode
    · cases hcode
    next finish earlier hdrop =>
      obtain ⟨k, hk, rfl⟩ := Option.map_eq_some_iff.mp hcode
      have hsuffix : finish :: earlier <:+ m.marks := hdrop ▸ List.dropWhile_suffix _
      have hmem := List.mem_of_find?_eq_some hk
      have hfalling := List.pairwise_cons.mp (h.falling.sublist hsuffix.sublist)
      have hfinish := h.between finish (hsuffix.subset List.mem_cons_self)
      have hopening := h.between k (hsuffix.subset (List.mem_cons_of_mem finish hmem))
      exact ⟨hopening.1, hfalling.1 k hmem, hfinish.2⟩

/-- Every match starts behind the end of the one before it. -/
theorem searchAll_inOrder (fuel start : Nat) (last : Option Nat) :
    (∀ m ∈ searchAll program input fuel start last,
        start ≤ m.start ∧ Passed input m.start m.stop m.marks) ∧
      (searchAll program input fuel start last).Pairwise (·.stop ≤ ·.start) := by
  induction fuel generalizing start last with
  | zero => exact ⟨by simp [searchAll], List.Pairwise.nil⟩
  | succ fuel ih =>
    rw [searchAll]
    split
    next => exact ⟨by simp, List.Pairwise.nil⟩
    next m hnext =>
      have hbounds : start ≤ m.start ∧ Passed input m.start m.stop m.marks := by
        split at hnext
        · split at hnext
          · obtain ⟨hstart, hpassed⟩ := passed_of_search hnext
            exact ⟨Nat.le_of_succ_le hstart, hpassed⟩
          next m' hfirst _ =>
            obtain rfl := Option.some.inj hnext
            exact passed_of_search hfirst
        · cases hnext
      obtain ⟨hlater, hpairs⟩ := ih m.stop (some m.stop)
      refine ⟨?_, List.Pairwise.cons (fun m' hm' => (hlater m' hm').1) hpairs⟩
      intro m' hm'
      rcases List.mem_cons.mp hm' with rfl | hm'
      · exact hbounds
      · obtain ⟨hstart, hpassed⟩ := hlater m' hm'
        exact ⟨Nat.le_trans hbounds.1 (Nat.le_trans hbounds.2.le hstart), hpassed⟩

end Pattern

/-! Excerpts. -/

/-- A code is an excerpt of a text and starts where a range starts. -/
def Range.Cuts (range : Range .text) (text code : Text) : Prop :=
  ∃ before after, text = before ++ code ++ after ∧ range.start = Pos.behind before

namespace Extractor

/-- An extractor takes excerpts, and puts nothing in front of them. -/
def Cuts (e : Extractor) : Prop :=
  ∀ text pieces, e.extract text = .ok pieces → ∀ p ∈ pieces, p.shift = none ∧
    ∀ code range, p.foreign = some code → p.range = some range → range.Cuts text code

/-- An extractor leaves texts as they are. -/
def Keeps (e : Extractor) : Prop :=
  ∀ text pieces, e.extract text = .ok pieces → Fragment.hostCode pieces = text

end Extractor

/-- What is taken from a text is an excerpt of it, if all extractors but the last one leave the text
as it is. -/
theorem Fragment.cuts_of_mem_peel {es : List Extractor} (hcuts : ∀ e ∈ es, e.Cuts)
    (hkeeps : ∀ e ∈ es.dropLast, e.Keeps) {text : Text} {f : Fragment}
    (h : f ∈ (peel es text).1) : f.shift = none ∧ f.range.Cuts text f.text := by
  induction es with
  | nil => simp [peel] at h
  | cons e rest ih =>
    have hlater : rest ≠ [] → e.Keeps ∧ ∀ e' ∈ rest.dropLast, e'.Keeps := by
      intro hne
      rw [List.dropLast_cons_of_ne_nil hne] at hkeeps
      exact ⟨hkeeps e List.mem_cons_self, fun e' he' => hkeeps e' (List.mem_cons_of_mem e he')⟩
    have hrest : f ∈ (peel rest text).1 → f.shift = none ∧ f.range.Cuts text f.text := by
      intro hf
      cases rest with
      | nil => simp [peel] at hf
      | cons e' rest =>
        exact ih (fun x hx => hcuts x (List.mem_cons_of_mem e hx))
          (hlater (List.cons_ne_nil e' rest)).2 hf
    rw [peel] at h
    split at h
    · cases hextract : e.extract text with
      | error fault =>
        rw [hextract] at h
        simp at h
      | ok pieces =>
        rw [hextract] at h
        simp only at h
        rcases List.mem_append.mp h with hfound | hothers
        · obtain ⟨p, hp, hf⟩ := List.mem_filterMap.mp hfound
          obtain ⟨_, hshift, hforeign, hrange⟩ := ofPiece?_eq_some hf
          obtain ⟨hnone, hcut⟩ := hcuts e List.mem_cons_self text pieces hextract p hp
          exact ⟨hshift.trans hnone, hcut f.text f.range hforeign hrange⟩
        · cases rest with
          | nil => simp [peel] at hothers
          | cons e' rest =>
            rw [(hlater (List.cons_ne_nil e' rest)).1 text pieces hextract] at hothers
            exact hrest hothers
    · exact hrest h

/-- A text is what stands before a place, and what stands behind it. -/
theorem Text.slice_append_drop (text : Text) {start stop : Nat} (h : start ≤ stop) :
    text.slice start stop ++ text.drop stop = text.drop start := by
  have hboth := List.take_append_drop (stop - start) (text.drop start)
  rwa [List.drop_drop, Nat.add_sub_cancel' h] at hboth

namespace Extraction

theorem slice_cuts (text : Text) (start stop : Nat) :
    Range.Cuts ⟨Pos.behind (text.take start), Pos.behind (text.take stop)⟩ text
      (text.slice start stop) := by
  refine ⟨text.take start, (text.drop start).drop (stop - start), ?_, rfl⟩
  rw [Text.slice, List.append_assoc, List.take_append_drop, List.take_append_drop]

theorem byPattern_cuts {options : PatternOptions} {e : Extractor}
    (h : byPattern options = .ok e) : e.Cuts := by
  intro text pieces hpieces p hp
  obtain ⟨hshift, hshape⟩ := shape_of_byPattern h hpieces hp
  refine ⟨hshift, fun code range hcode hrange => ?_⟩
  obtain ⟨start, stop, rfl, rfl⟩ := hshape code range hcode hrange
  exact slice_cuts text start stop

theorem hostCode_remainder (text : Text) (done : Nat) :
    Fragment.hostCode (remainder text done) = text.drop done := by
  rw [remainder]
  split
  · simp [Fragment.hostCode, Fragment.isLost]
  · rw [List.drop_eq_nil_of_le (by omega)]
    rfl

/-- Pieces that keep their matches hold all of the text, from where the match before them
stopped. -/
theorem hostCode_piecesFrom (group : Nat) (text : Text) {done : Nat} {found : List Pattern.Match}
    (hbehind : ∀ m ∈ found, done ≤ m.stop) (horder : found.Pairwise (·.stop ≤ ·.stop)) :
    Fragment.hostCode (piecesFrom true group text done found) = text.drop done := by
  induction found generalizing done with
  | nil => exact hostCode_remainder text done
  | cons m rest ih =>
    rw [List.pairwise_cons] at horder
    rw [piecesFrom]
    split
    · exact ih (fun m' hm' => hbehind m' (List.mem_cons_of_mem m hm')) horder.2
    next code _ =>
      rw [← text.slice_append_drop (hbehind m List.mem_cons_self), ← ih horder.1 horder.2]
      rfl

theorem byPattern_keeps {options : PatternOptions} {e : Extractor}
    (h : byPattern options = .ok e) (hkeep : options.keepInHost = true) : e.Keeps := by
  unfold byPattern at h
  split at h
  · cases h
  next p _ =>
    cases h
    intro text pieces hpieces
    have horder : (p.findAll text).Pairwise (·.stop ≤ ·.stop) := by
      obtain ⟨hbounds, hpairs⟩ :=
        @Pattern.searchAll_inOrder p.program text.toArray (text.length + 2) 0 none
      refine hpairs.imp_of_mem ?_
      intro m m' _ hm' hle
      exact Nat.le_trans hle (hbounds m' hm').2.le
    rw [← Except.ok.inj hpieces, hkeep]
    exact hostCode_piecesFrom options.group text (fun m _ => Nat.zero_le _) horder

end Extraction

end Polyglot
