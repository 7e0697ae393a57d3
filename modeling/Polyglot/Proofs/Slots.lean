import Polyglot.Proofs.Rosters

/-!
The slots of standalone documents. A rebuild gives the pieces of standalone code of a language to
documents with rising numbers, the lowest that there are. Main statement: of two rebuilds that
succeed one after the other, with none but failures in between, the second gives the code in each
slot to the document that the first gave it to, as far as both have code for it.
-/
namespace Polyglot

open Document

/-- Two lists with rising numbers agree as far as both reach, if each has all of the other that is
below one of its own. -/
theorem getElem?_eq_of_rising {α : Type} {number : α → Nat} {l l' : List α}
    (hl : l.Pairwise fun a b => number a < number b)
    (hl' : l'.Pairwise fun a b => number a < number b)
    (hsame : ∀ a ∈ l, ∀ b ∈ l', number a = number b → a = b)
    (hbelow : ∀ a ∈ l, ∀ b ∈ l', number b < number a → b ∈ l)
    (habove : ∀ a ∈ l, ∀ b ∈ l', number a < number b → a ∈ l') {i : Nat}
    (hi : i < min l.length l'.length) : l[i]? = l'[i]? := by
  induction l generalizing l' i with
  | nil => simp at hi
  | cons a rest ih =>
    cases l' with
    | nil => simp at hi
    | cons b rest' =>
      rw [List.pairwise_cons] at hl hl'
      have hhead : number a = number b := by
        rcases Nat.lt_trichotomy (number a) (number b) with hlt | heq | hgt
        · rcases List.mem_cons.mp (habove a List.mem_cons_self b List.mem_cons_self hlt) with
            rfl | hmem
          · omega
          · have := hl'.1 a hmem
            omega
        · exact heq
        · rcases List.mem_cons.mp (hbelow a List.mem_cons_self b List.mem_cons_self hgt) with
            rfl | hmem
          · omega
          · have := hl.1 b hmem
            omega
      obtain rfl := hsame a List.mem_cons_self b List.mem_cons_self hhead
      cases i with
      | zero => rfl
      | succ i =>
        rw [List.getElem?_cons_succ, List.getElem?_cons_succ]
        refine ih hl.2 hl'.2 ?_ ?_ ?_ ?_
        · intro x hx y hy
          exact hsame x (List.mem_cons_of_mem a hx) y (List.mem_cons_of_mem a hy)
        · intro x hx y hy hlt
          have hmem := hbelow x (List.mem_cons_of_mem a hx) y (List.mem_cons_of_mem a hy) hlt
          refine (List.mem_cons.mp hmem).resolve_left ?_
          rintro rfl
          exact Nat.lt_irrefl _ (hl'.1 y hy)
        · intro x hx y hy hlt
          have hmem := habove x (List.mem_cons_of_mem a hx) y (List.mem_cons_of_mem a hy) hlt
          refine (List.mem_cons.mp hmem).resolve_left ?_
          rintro rfl
          exact Nat.lt_irrefl _ (hl.1 x hx)
        · rw [List.length_cons, List.length_cons] at hi
          omega

namespace Document

/-- Whether an identity is that of a standalone document of a language. -/
def Stands (language : String) (id : Identity) : Prop :=
  id.kind.standalone = true ∧ id.kind.language = language

/-- The documents that standalone code of a language is given to, in turn. -/
def slotsOf (language : String) (t : List (Kind × Identity)) : List Identity :=
  (t.filter fun p => p.1.standalone && p.1.language == language).map (·.2)

section

variable {context : Context} {first next : Nat} {empty d : Document} {language : String}
  {id : Identity} {t : List (Kind × Identity)}

theorem Roster.mem_slotsOf (h : Roster context first empty t next d) :
    id ∈ slotsOf language t ↔ id ∈ t.map (·.2) ∧ Stands language id := by
  rw [slotsOf, List.mem_map, List.mem_map]
  constructor
  · rintro ⟨p, hp, rfl⟩
    obtain ⟨hp, hkind⟩ := List.mem_filter.mp hp
    rw [Bool.and_eq_true, beq_iff_eq] at hkind
    obtain ⟨hlanguage, hstandalone⟩ := h.kinds p hp
    exact ⟨⟨p, hp, rfl⟩, hstandalone.trans hkind.1, hlanguage.trans hkind.2⟩
  · rintro ⟨⟨p, hp, rfl⟩, hstandalone, hlanguage⟩
    obtain ⟨hlanguage', hstandalone'⟩ := h.kinds p hp
    refine ⟨p, List.mem_filter.mpr ⟨hp, ?_⟩, rfl⟩
    rw [Bool.and_eq_true, beq_iff_eq]
    exact ⟨hstandalone'.symm.trans hstandalone, hlanguage'.symm.trans hlanguage⟩

theorem Roster.rising_slotsOf (h : Roster context first empty t next d) (language : String) :
    (slotsOf language t).Pairwise fun a b => a.number < b.number := by
  rw [slotsOf, List.pairwise_map]
  refine List.Pairwise.imp_of_mem ?_ (h.rising.filter _)
  intro p q hp hq hrising
  have hp := (List.mem_filter.mp hp).2
  have hq := (List.mem_filter.mp hq).2
  rw [Bool.and_eq_true, beq_iff_eq] at hp hq
  exact hrising hp.1 hq.1 (hp.2.trans hq.2.symm)

theorem standalone_of_mem_clear {c : Document} (hc : c ∈ d.clear.children) :
    c.id.kind.standalone = false := by
  obtain ⟨info, children, parked⟩ := d
  obtain ⟨x, _, hshared, rfl⟩ := mem_children_clear_iff.mp hc
  rw [id_eq_of_nature_eq ((nature_drained _).trans (nature_clear x))]
  exact hshared

section

variable {start : Document} (h : Roster context first start.clear t next d)

include h

/-- A child in the tree that can stand in a slot stands in one. -/
theorem Roster.mem_slotsOf_of_mem {c : Document} (hc : c ∈ d.children)
    (hstands : Stands language c.id) : c.id ∈ slotsOf language t := by
  refine h.mem_slotsOf.mpr ⟨?_, hstands⟩
  by_contra huntaken
  rcases h.left c (List.mem_append_left _ hc) huntaken with ⟨hparked, _⟩ | ⟨_, _, hshared⟩
  · exact h.tended.steady.self.not_mem_parked hc hparked
  · rw [Stands, standalone_of_mem_clear hshared] at hstands
    exact Bool.false_ne_true hstands.1

/-- Whoever could stand in a slot and does not has a higher number than those who do. -/
theorem Roster.number_lt_of_not_mem (hid : id ∈ slotsOf language t) {other : Identity}
    (hother : other ∈ d.brood) (hstands : Stands language other)
    (hfree : other ∉ slotsOf language t) : id.number < other.number := by
  obtain ⟨htaken, hid⟩ := h.mem_slotsOf.mp hid
  obtain ⟨x, hx, hsame, _⟩ := h.taken id htaken
  obtain ⟨c, hc, rfl⟩ := mem_brood.mp hother
  have hparked : c ∈ d.parked := by
    refine (List.mem_append.mp hc).resolve_left fun hchild => ?_
    exact hfree (h.mem_slotsOf_of_mem hchild hstands)
  rw [← hsame] at hid ⊢
  exact h.tended.pool.self.beyond c hparked x hx
    ⟨hid.1, hstands.1, hid.2.trans hstands.2.symm⟩

/-- After the rebuild, the documents in the tree are those in the slots. -/
theorem Roster.mem_slotsOf_iff_mem_children : id ∈ slotsOf language t ↔ Stands language id ∧
    id ∈ d.closeExpired.emitChanged.drained.children.map Document.id := by
  rw [List.mem_map]
  constructor
  · intro hid
    obtain ⟨htaken, hstands⟩ := h.mem_slotsOf.mp hid
    obtain ⟨c, hc, hsame, hused, _⟩ := h.taken id htaken
    have hstays := isStaying_iff.mpr fun hidle => absurd hidle hused
    exact ⟨hstands, stayed d.info.idle c, mem_children_rebuilt.mpr ⟨c, hc, hstays, rfl⟩,
      (id_stayed _ c).trans hsame⟩
  · rintro ⟨hstands, x, hx, rfl⟩
    obtain ⟨c, hc, _, rfl⟩ := mem_children_rebuilt.mp hx
    rw [id_stayed] at hstands ⊢
    exact h.mem_slotsOf_of_mem hc hstands

end

end

/-! Children of before, and new ones. -/

/-- All children are still there, and others have numbers that were not in use. -/
structure Outgrows (first : Nat) (d e : Document) : Prop where
  keeps : d.brood ⊆ e.brood
  fresh : ∀ id ∈ e.brood, id ∈ d.brood ∨ first ≤ id.number

theorem Outgrows.refl (first : Nat) (d : Document) : Outgrows first d d :=
  ⟨fun _ hid => hid, fun _ hid => Or.inl hid⟩

theorem Outgrows.trans {first later : Nat} {d e f : Document} (h : Outgrows first d e)
    (h' : Outgrows later e f) (hle : first ≤ later) : Outgrows first d f := by
  refine ⟨fun id hid => h'.keeps (h.keeps hid), ?_⟩
  intro id hid
  rcases h'.fresh id hid with hold | hnew
  · exact h.fresh id hold
  · exact Or.inr (hle.trans hnew)

theorem Roster.outgrows {context : Context} {first next : Nat} {start d : Document}
    {t : List (Kind × Identity)} (h : Roster context first start.clear t next d) :
    Outgrows first start d := by
  constructor
  · intro id hid
    obtain ⟨c, hc, rfl⟩ := mem_brood.mp (mem_brood_clear.mpr hid)
    by_cases htaken : c.id ∈ t.map (·.2)
    · exact (h.taken c.id htaken).mem_brood
    · exact mem_brood_of_mem (h.stays c hc htaken)
  · intro id hid
    rw [← mem_brood_clear]
    exact h.fresh id hid

end Document

namespace Session

/-- The documents that a call gives standalone code of a language to, in turn. -/
def slots (language : String) (call : Call) (next : Nat) (s : Session) : List Identity :=
  slotsOf language (s.claims call next)

/-- What a call that succeeds does with standalone code of a language. `claims` and `notes` say that
all pieces of code in the cells are given away in turn, and that the notes of the blocks name the
documents that they were given to. -/
structure Seats (s : Session) (language : String) (call : Call) (next : Nat) (u : Session) :
    Prop where
  claims : (s.claims call next).map (·.1) = call.cells.flatMap fun cell =>
    (Fragment.peel (s.context.extractors.forHost s.root.language) cell.text).1.map (·.kind)
  notes : u.root.notes.map (·.document) = (s.claims call next).map (·.2.key)
  rising : (s.slots language call next).Pairwise fun a b => a.number < b.number
  seated : ∀ id, id ∈ s.slots language call next ↔
    Stands language id ∧ id ∈ u.root.children.map Document.id
  lowest : ∀ id ∈ s.slots language call next, ∀ other ∈ u.root.brood, Stands language other →
    other ∉ s.slots language call next → id.number < other.number

section

variable {s t u : Session} {call : Call} {next n m : Nat}

theorem seats_of_answer_ok (hapart : s.context.SiblingsApart)
    (hreach : Reachable s.context next s.root) (h : s.answer call next = (u, n, .ok ()))
    (language : String) : s.Seats language call next u := by
  have hclaims := claims_eq (acquire_of_update h) next
  obtain ⟨_, d, hroot, hroster, happend, _⟩ := roster_of_answer_ok hapart hreach h
  obtain ⟨hkinds, hnotes⟩ := cellTakers_ok happend
  have hlanguage : s.root.clear.language = s.root.language :=
    congrArg (fun id => id.kind.language) (id_eq_of_nature_eq (nature_clear s.root))
  have hempty : s.root.clear.notes = [] := by
    cases s.root
    rw [clear]
    rfl
  have hblocks : d.closeExpired.emitChanged.drained.info.blocks = d.info.blocks :=
    congrArg Prod.snd ((core_drained _).trans ((core_emitChanged _).trans (core_closeExpired d)))
  refine ⟨?_, ?_, hroster.rising_slotsOf language, ?_, ?_⟩
  · rw [hclaims, hkinds, hlanguage]
  · rw [hclaims, hroot, Document.notes, hblocks, ← Document.notes, hnotes, hempty]
    rfl
  · intro id
    rw [hroot]
    exact hroster.mem_slotsOf_iff_mem_children
  · intro id hid other hother
    rw [hroot, brood_drained, brood_emitChanged] at hother
    exact hroster.number_lt_of_not_mem hid (brood_closeExpired_subset d hother)

/-- Calls that fail, one after the other. -/
inductive Stalls (s : Session) (next : Nat) : Session → Nat → Prop
  | here : Stalls s next s next
  | fail {t u : Session} {n m : Nat} {e : UpdateError} (call : Call) : Stalls s next t n →
      t.answer call n = (u, m, .error e) → Stalls s next u m

/-- Failures may add children, and take none away. -/
theorem Stalls.outgrows (hapart : s.context.SiblingsApart)
    (hreach : Reachable s.context next s.root) (h : Stalls s next t n) :
    t.context = s.context ∧ Reachable s.context n t.root ∧ next ≤ n ∧
      Outgrows next s.root t.root := by
  induction h with
  | here => exact ⟨rfl, hreach, Nat.le_refl next, Outgrows.refl next s.root⟩
  | @fail t u n m e call _ hfailed ih =>
    obtain ⟨hcontext, hreacht, hle, hgrown⟩ := ih
    have hsame := context_answer call n t
    rw [← hcontext] at hapart hreacht ⊢
    have hreachu := reachable_answer hreacht call
    rw [hfailed] at hsame hreachu
    rcases roster_of_answer_error hapart hreacht hfailed with ⟨hroot, rfl, _⟩ | ⟨d, hroot, hroster⟩
    · rw [hroot]
      exact ⟨hsame, hroot ▸ hreachu, hle.trans (Nat.le_add_right _ _), hgrown⟩
    · obtain ⟨hkeeps, hfresh⟩ := hroster.outgrows
      rw [← brood_drained d, ← hroot] at hkeeps hfresh
      exact ⟨hsame, hreachu, hle.trans ((Nat.le_add_right _ _).trans hroster.le),
        hgrown.trans ⟨hkeeps, hfresh⟩ (hle.trans (Nat.le_add_right _ _))⟩

/-- Two rebuilds agree on all slots that both use, if the second one has all children that the first
one left, and has given new numbers to others. -/
theorem Seats.getElem?_eq {context context' : Context} {language : String} {first second : Call}
    {start n' : Nat} {d : Document} (h : s.Seats language first next u)
    (hsteady : u.root.Steady context n)
    (hroster : Roster context' start t.root.clear (t.claims second m) n' d)
    (hgrown : Outgrows n u.root d) {i : Nat}
    (hi : i < min (s.slots language first next).length (t.slots language second m).length) :
    (s.slots language first next)[i]? = (t.slots language second m)[i]? := by
  have hleft : ∀ {id}, id ∈ s.slots language first next → id ∈ u.root.brood := by
    intro id hid
    obtain ⟨c, hc, rfl⟩ := List.mem_map.mp ((h.seated id).mp hid).2
    exact mem_brood_of_mem (List.mem_append_left _ hc)
  have hnumber : ∀ {id}, id ∈ u.root.brood → id.number < n := by
    intro id hid
    rw [brood, offspring, List.map_append] at hid
    exact hsteady.self.family.numbered id hid
  -- a document that stands lower than one of before is one of before
  have hold : ∀ {a b}, a ∈ s.slots language first next → b ∈ t.slots language second m →
      b.number ≤ a.number → b ∈ u.root.brood := by
    intro a b ha hb hle
    have hmem := (hroster.taken b (hroster.mem_slotsOf.mp hb).1).mem_brood
    refine (hgrown.fresh b hmem).resolve_right ?_
    have := hnumber (hleft ha)
    omega
  refine getElem?_eq_of_rising h.rising (hroster.rising_slotsOf language) ?_ ?_ ?_ hi
  · intro a ha b hb heq
    obtain ⟨x, hx, rfl⟩ := mem_brood.mp (hleft ha)
    obtain ⟨y, hy, rfl⟩ := mem_brood.mp (hold ha hb (Nat.le_of_eq heq.symm))
    rw [hsteady.self.number_injective hx hy heq]
  · intro a ha b hb hlt
    by_contra hfree
    have := h.lowest a ha b (hold ha hb (Nat.le_of_lt hlt)) (hroster.mem_slotsOf.mp hb).2 hfree
    omega
  · intro a ha b hb hlt
    by_contra hfree
    have := hroster.number_lt_of_not_mem hb (hgrown.keeps (hleft ha)) ((h.seated a).mp ha).1 hfree
    omega

end

end Session

/-- Two rebuilds that succeed, with no call in between that does, give the standalone code of a
language to documents in slots. Whatever the cells are, the two agree on all slots that both use:
the documents there are the same, with their numbers, paths and addresses. The documents in the
slots of a rebuild are those in the tree after it, and no other standalone document of the language
that the root owns has a lower number. -/
theorem standalone_documents_keep_slots {s s' t t' : Session} {next n m n' : Nat}
    (hapart : s.context.SiblingsApart) (hreach : Reachable s.context next s.root)
    {first second : Call} (hfirst : s.answer first next = (s', n, .ok ()))
    (hstalls : s'.Stalls n t m) (hsecond : t.answer second m = (t', n', .ok ()))
    (language : String) :
    s.Seats language first next s' ∧ t.Seats language second m t' ∧
      ∀ i < min (s.slots language first next).length (t.slots language second m).length,
        (s.slots language first next)[i]? = (t.slots language second m)[i]? := by
  have hcontext := s.context_answer first next
  have hreach' := Session.reachable_answer hreach first
  rw [hfirst] at hcontext hreach'
  have hsteady := steady_of_reachable hapart hreach'
  have hsiblings := hapart
  rw [← hcontext] at hreach' hsiblings
  obtain ⟨hsame, hreacht, hle, hgrown⟩ := hstalls.outgrows hsiblings hreach'
  rw [← hsame] at hreacht hsiblings
  have hseats := Session.seats_of_answer_ok hapart hreach hfirst language
  have hseats' := Session.seats_of_answer_ok hsiblings hreacht hsecond language
  obtain ⟨_, d, _, hroster, _⟩ := Session.roster_of_answer_ok hsiblings hreacht hsecond
  have hwhole : Outgrows n s'.root d :=
    hgrown.trans hroster.outgrows (hle.trans (Nat.le_add_right _ _))
  exact ⟨hseats, hseats', fun i hi => hseats.getElem?_eq hsteady hroster hwhole hi⟩

/-- A rebuild with some pieces of standalone code, before which other trees take some numbers. -/
def pieces (pause count : Nat) : Call where
  pause := pause
  cells := List.replicate count ⟨"x\ny".toList, "cell"⟩

/-- The tree after one piece, and after a call while somebody looked at it. -/
def soloSession : Session := (nestedSession.answer (pieces 0 1) 1).1

def lookedSession : Session := (soloSession.answer { pieces 0 1 with held := true } 2).1

/-- Of two pieces, the first one is given to the document that had the one of before, and the second
one to a new document. -/
theorem standalone_documents_keep_slots_pieces :
    (nestedSession.slots "cel" (pieces 0 1) 1).map (·.number) = [1] ∧
      (lookedSession.slots "cel" (pieces 4 2) 2).map (·.number) = [1, 6] ∧
      (nestedSession.slots "cel" (pieces 0 1) 1)[0]? =
        (lookedSession.slots "cel" (pieces 4 2) 2)[0]? := by
  have hfirst : (nestedSession.answer (pieces 0 1) 1).2 = (2, .ok ()) := by decide +kernel
  have hbusy : (soloSession.answer { pieces 0 1 with held := true } 2).2 =
      (2, .error (.busy 10)) := by decide +kernel
  have hsecond : (lookedSession.answer (pieces 4 2) 2).2 = (7, .ok ()) := by decide +kernel
  have hone : (nestedSession.slots "cel" (pieces 0 1) 1).map (·.number) = [1] := by decide +kernel
  have htwo : (lookedSession.slots "cel" (pieces 4 2) 2).map (·.number) = [1, 6] := by
    decide +kernel
  have hstalls : soloSession.Stalls 2 lookedSession 2 :=
    Session.Stalls.fail { pieces 0 1 with held := true } Session.Stalls.here (Prod.ext rfl hbusy)
  obtain ⟨_, _, hsame⟩ := standalone_documents_keep_slots siblingsApart_nestedSession
    (Reachable.root "python" _ "py" 0) (Prod.ext rfl hfirst) hstalls (Prod.ext rfl hsecond) "cel"
  refine ⟨hone, htwo, hsame 0 ?_⟩
  have hlength := congrArg List.length hone
  have hlength' := congrArg List.length htwo
  rw [List.length_map] at hlength hlength'
  rw [hlength, hlength']
  decide

end Polyglot
