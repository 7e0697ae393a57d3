import Polyglot.Proofs.Matches
import Polyglot.Proofs.PrefixedCode
import Mathlib.Data.List.Infix

/-!
The snippets that one pattern finds in a text. They are stretches of the text, and each starts where
the one before it stopped or later, so that a place belongs to at most one of them but for where two
of them meet. A text without snippets is left as it is.
-/
namespace Polyglot

theorem Text.take_append_slice (text : Text) {start stop : Nat} (h : start ≤ stop) :
    text.take start ++ text.slice start stop = text.take stop := by
  rw [slice, ← List.take_add, Nat.add_sub_cancel' h]

theorem Text.take_append_take_slice (text : Text) {start n stop : Nat} (hstart : start ≤ n)
    (hstop : n ≤ stop) :
    text.take start ++ (text.slice start stop).take (n - start) = text.take n := by
  rw [slice, List.take_take, Nat.min_eq_left (by omega), ← List.take_add,
    Nat.add_sub_cancel' hstart]

theorem Pos.before_take_iff {text : Text} {i j : Nat} :
    (behind (text.take i)).before (behind (text.take j)) = true ↔ i ≤ j ∨ text.length ≤ j := by
  rw [← List.take_isPrefix_take]
  exact ⟨isPrefix_of_before (List.take_prefix i text) (List.take_prefix j text),
    before_of_isPrefix⟩

theorem Pos.line_behind_take_lt (text : Text) (n : Nat) :
    (behind (text.take n)).line < text.lines.length := by
  rw [Text.length_lines, line_behind]
  exact Nat.lt_succ_of_le ((List.take_sublist n text).count_le '\n')

namespace Fragment

/-- The snippet of a text between two places. -/
def ofSpan (kind : Kind) (text : Text) (s : Pattern.Span) : Fragment where
  kind := kind
  range := ⟨Pos.behind (text.take s.start), Pos.behind (text.take s.stop)⟩
  shift := none
  text := text.slice s.start s.stop

theorem ofSpan_fills (kind : Kind) (text : Text) {s : Pattern.Span} (h : s.start ≤ s.stop) :
    (ofSpan kind text s).Fills (text.take s.start) (text.slice s.start s.stop) [] := by
  refine ⟨?_, rfl, rfl⟩
  rw [text.take_append_slice h]
  rfl

/-- The places of a snippet go from its start to its stop, both included. -/
theorem contains_ofSpan_iff {kind : Kind} {text : Text} {s : Pattern.Span} {n : Nat}
    (hn : n < text.length) :
    (ofSpan kind text s).range.contains (Pos.behind (text.take n)) = true ↔
      s.start ≤ n ∧ n ≤ s.stop := by
  rw [Range.contains_iff, ofSpan, Pos.before_take_iff, Pos.before_take_iff]
  omega

end Fragment

/-- Spans of a text of some length that are in order, none reaching into the next. -/
structure Pattern.Lined (length : Nat) (spans : List Span) : Prop where
  bounds : ∀ s ∈ spans, s.start ≤ s.stop ∧ s.stop ≤ length
  apart : spans.Pairwise (·.stop ≤ ·.start)

namespace Extraction

variable {keepInHost : Bool} {group : Nat} {text : Text} {found : List Pattern.Match}

theorem snippets_piecesFrom (kind : Kind) (done : Nat) :
    (piecesFrom keepInHost group text done found).filterMap (Fragment.ofPiece? kind) =
      (found.filterMap (·.group? group)).map (Fragment.ofSpan kind text) := by
  induction found generalizing done with
  | nil =>
    rw [piecesFrom, remainder]
    split <;> rfl
  | cons m rest ih =>
    rw [piecesFrom, List.filterMap_cons]
    cases m.group? group with
    | none => exact ih done
    | some code =>
      rw [List.filterMap_cons, ih]
      rfl

theorem piecesFrom_eq_remainder {done : Nat} (h : ∀ m ∈ found, m.group? group = none) :
    piecesFrom keepInHost group text done found = remainder text done := by
  induction found generalizing done with
  | nil => rfl
  | cons m rest ih =>
    rw [piecesFrom, h m List.mem_cons_self]
    exact ih fun m' hm' => h m' (List.mem_cons_of_mem m hm')

/-- What the groups of all matches hold is in order, like the matches. -/
theorem lined_groups (p : Pattern) (text : Text) (group : Nat) :
    Pattern.Lined text.length ((p.findAll text).filterMap (·.group? group)) := by
  obtain ⟨hpassed, hpairs⟩ :=
    @Pattern.searchAll_inOrder p.program text.toArray (text.length + 2) 0 none
  have hbounds : ∀ m ∈ p.findAll text, ∀ code, m.group? group = some code →
      m.start ≤ code.start ∧ code.start ≤ code.stop ∧ code.stop ≤ m.stop := by
    intro m hm code hcode
    exact (hpassed m hm).2.group?_bounds hcode
  constructor
  · intro s hs
    obtain ⟨m, hm, hcode⟩ := List.mem_filterMap.mp hs
    have hwithin := (hpassed m hm).2.within
    have hcode := hbounds m hm s hcode
    rw [List.size_toArray] at hwithin
    omega
  · rw [List.pairwise_filterMap]
    refine hpairs.imp_of_mem ?_
    intro m m' hm hm' hle s hs s' hs'
    have hstop := (hbounds m hm s hs).2.2
    have hstart := (hbounds m' hm' s' hs').1
    omega

/-- A pattern finds snippets that are in order, and leaves a text without snippets as it is. -/
theorem exists_spans_of_byPattern {options : PatternOptions} {e : Extractor}
    (h : byPattern options = .ok e) (text : Text) :
    ∃ spans, (Fragment.peel [e] text).1 = spans.map (Fragment.ofSpan e.kind text) ∧
      Pattern.Lined text.length spans ∧ (spans = [] → (Fragment.peel [e] text).2 = .ok text) := by
  unfold byPattern at h
  split at h
  · cases h
  next p _ =>
    cases h
    by_cases hdetects : p.isMatch text = true
    · refine ⟨(p.findAll text).filterMap (·.group? options.group), ?_,
        lined_groups p text options.group, ?_⟩
      · rw [Fragment.peel, if_pos hdetects]
        simp only [Fragment.peel, List.append_nil]
        exact snippets_piecesFrom options.kind 0
      · intro hnone
        rw [List.filterMap_eq_nil_iff] at hnone
        rw [Fragment.peel, if_pos hdetects]
        simp only [Fragment.peel]
        rw [piecesFrom_eq_remainder hnone, hostCode_remainder, List.drop_zero]
    · refine ⟨[], ?_, ⟨by simp, List.Pairwise.nil⟩, ?_⟩
      · rw [Fragment.peel, if_neg hdetects]
        rfl
      · intro _
        rw [Fragment.peel, if_neg hdetects]
        rfl

end Extraction

namespace Context

/-- In texts of each language at most one pattern is looked for. -/
def OnePattern (context : Context) : Prop :=
  ∀ host, context.extractors.forHost host = [] ∨ ∃ options e,
    Extraction.byPattern options = .ok e ∧ context.extractors.forHost host = [e]

variable {context : Context}

/-- All children of a document are of one kind. -/
theorem OnePattern.kind_eq (h : context.OnePattern) {host : String} {kind kind' : Kind}
    (hkind : context.Finds host kind) (hkind' : context.Finds host kind') : kind = kind' := by
  obtain ⟨e, he, rfl⟩ := hkind
  obtain ⟨e', he', rfl⟩ := hkind'
  rcases h host with hnone | ⟨_, _, _, hall⟩
  · rw [hnone] at he
    cases he
  · rw [hall, List.mem_singleton] at he he'
    rw [he, he']

theorem OnePattern.siblingsApart (h : context.OnePattern) : context.SiblingsApart := by
  intro host shared alone hfinds hfinds' hshared halone
  obtain rfl := h.kind_eq hfinds hfinds'
  rw [hshared] at halone
  cases halone

theorem OnePattern.exists_spans (h : context.OnePattern) (host : String) (text : Text) :
    ∃ kind spans, (Fragment.peel (context.extractors.forHost host) text).1 =
        spans.map (Fragment.ofSpan kind text) ∧ Pattern.Lined text.length spans ∧
      (spans = [] → (Fragment.peel (context.extractors.forHost host) text).2 = .ok text) := by
  rcases h host with hnone | ⟨options, e, hpattern, hone⟩
  · rw [hnone]
    exact ⟨⟨host, host, false⟩, [], rfl, ⟨by simp, List.Pairwise.nil⟩, fun _ => rfl⟩
  · rw [hone]
    exact ⟨e.kind, Extraction.exists_spans_of_byPattern hpattern text⟩

/-- Of two snippets of a text, the later one starts where the other one stops, or behind it. -/
theorem OnePattern.stop_le_start (h : context.OnePattern) {host : String} {text : Text} {i j : Nat}
    {kind kind' : Kind} {s t : Pattern.Span}
    (hi : (Fragment.peel (context.extractors.forHost host) text).1[i]? =
      some (Fragment.ofSpan kind text s))
    (hj : (Fragment.peel (context.extractors.forHost host) text).1[j]? =
      some (Fragment.ofSpan kind' text t))
    (hij : i < j) (hs : s.stop ≤ text.length) : s.stop ≤ t.start := by
  obtain ⟨_, spans, hspans, hlined, _⟩ := h.exists_spans host text
  rw [hspans, List.getElem?_map, Option.map_eq_some_iff] at hi hj
  obtain ⟨s', hs', heq⟩ := hi
  obtain ⟨t', ht', heq'⟩ := hj
  obtain ⟨hi, rfl⟩ := List.getElem?_eq_some_iff.mp hs'
  obtain ⟨hj, rfl⟩ := List.getElem?_eq_some_iff.mp ht'
  have hapart := List.pairwise_iff_getElem.mp hlined.apart i j hi hj hij
  have hstop := congrArg (·.range.stop) heq
  have hstart := congrArg (·.range.start) heq'
  simp only [Fragment.ofSpan] at hstop hstart
  have hbefore :
      (Pos.behind (text.take s.stop)).before (Pos.behind (text.take t.start)) = true := by
    rw [← hstop, ← hstart, Pos.before_take_iff]
    exact Or.inl hapart
  rw [Pos.before_take_iff] at hbefore
  omega

end Context

end Polyglot
