import Polyglot.Document.Fragment
import Polyglot.Extraction.ByPattern
import Polyglot.Extraction.Protovalidate
import Polyglot.Proofs.TextPlaces

/-!
What extractors give away. All pieces of foreign code come from some extractor; and an extractor
is faithful if it puts nothing in front of the code it finds, and if the code has a line for every
line of its range. Extraction by a pattern is faithful, and so is that of expressions from
protobuf files.
-/
namespace Polyglot

namespace Context

/-- Some extractor finds code of a kind. -/
def Registers (context : Context) (kind : Kind) : Prop :=
  ∃ entry ∈ context.extractors.entries, entry.2.kind = kind

/-- Some extractor finds code of a kind in texts of a language. -/
def Finds (context : Context) (host : String) (kind : Kind) : Prop :=
  ∃ e ∈ context.extractors.forHost host, e.kind = kind

theorem Finds.registers {context : Context} {host : String} {kind : Kind}
    (h : context.Finds host kind) : context.Registers kind := by
  obtain ⟨e, he, rfl⟩ := h
  obtain ⟨entry, hentry, rfl⟩ := List.mem_map.mp he
  exact ⟨entry, (List.mem_filter.mp hentry).1, rfl⟩

end Context

/-- All pieces of foreign code come from an extractor. -/
theorem Fragment.exists_piece_of_mem_peel {es : List Extractor} {code : Text} {f : Fragment}
    (h : f ∈ (peel es code).1) :
    ∃ e ∈ es, ∃ text pieces p, e.extract text = .ok pieces ∧ p ∈ pieces ∧
      ofPiece? e.kind p = some f := by
  induction es generalizing code with
  | nil => simp [peel] at h
  | cons e rest ih =>
    rw [peel] at h
    split at h
    · split at h
      · simp at h
      next pieces hpieces =>
        rcases List.mem_append.mp h with hfound | hlater
        · obtain ⟨p, hp, hf⟩ := List.mem_filterMap.mp hfound
          exact ⟨e, List.mem_cons_self, code, pieces, p, hpieces, hp, hf⟩
        · obtain ⟨e', he', hrest⟩ := ih hlater
          exact ⟨e', List.mem_cons_of_mem e he', hrest⟩
    · obtain ⟨e', he', hrest⟩ := ih h
      exact ⟨e', List.mem_cons_of_mem e he', hrest⟩

theorem Fragment.ofPiece?_eq_some {kind : Kind} {p : Piece} {f : Fragment}
    (h : ofPiece? kind p = some f) : f.kind = kind ∧ f.shift = p.shift ∧
      p.foreign = some f.text ∧ p.range = some f.range := by
  unfold ofPiece? at h
  split at h
  next code range hcode hrange =>
    cases h
    exact ⟨rfl, rfl, hcode, hrange⟩
  · cases h

theorem Fragment.finds_of_mem_peel {context : Context} {host : String} {code : Text}
    {f : Fragment} (h : f ∈ (peel (context.extractors.forHost host) code).1) :
    context.Finds host f.kind := by
  obtain ⟨e, he, _, _, p, _, _, hf⟩ := exists_piece_of_mem_peel h
  exact ⟨e, he, (ofPiece?_eq_some hf).1.symm⟩

/-- An extractor puts nothing in front of the code it finds, and the code has a line for every line
of its range. -/
def Extractor.Faithful (e : Extractor) : Prop :=
  ∀ text pieces, e.extract text = .ok pieces → ∀ p ∈ pieces, p.shift = none ∧
    ∀ code range, p.foreign = some code → p.range = some range →
      range.stop.line - range.start.line < code.lines.length

def Context.Faithful (context : Context) : Prop :=
  ∀ entry ∈ context.extractors.entries, entry.2.Faithful

theorem Fragment.faithful_of_mem_peel {context : Context} (hfaithful : context.Faithful)
    {host : String} {code : Text} {f : Fragment}
    (h : f ∈ (peel (context.extractors.forHost host) code).1) :
    f.shift = none ∧ f.range.stop.line - f.range.start.line < f.text.lines.length := by
  obtain ⟨e, he, text, pieces, p, hextract, hp, hf⟩ := exists_piece_of_mem_peel h
  obtain ⟨entry, hentry, rfl⟩ := List.mem_map.mp he
  obtain ⟨_, hshift, hforeign, hrange⟩ := ofPiece?_eq_some hf
  obtain ⟨hnone, hlines⟩ := hfaithful entry (List.mem_filter.mp hentry).1 text pieces hextract p hp
  exact ⟨hshift.trans hnone, hlines f.text f.range hforeign hrange⟩

/-- A stretch of a text has as many line feeds as the lines that it spans. -/
theorem line_behind_take (text : Text) (start stop : Nat) :
    (Pos.behind (text.take stop)).line - (Pos.behind (text.take start)).line ≤
      (text.slice start stop).count '\n' := by
  rw [Pos.line_behind, Pos.line_behind, Text.slice]
  by_cases hle : start ≤ stop
  · have hsplit : text.take stop = text.take start ++ (text.drop start).take (stop - start) := by
      rw [← List.take_add, Nat.add_sub_cancel' hle]
    rw [hsplit, List.count_append]
    omega
  · have hbegins : text.take stop <+: text.take start := List.take_prefix_take_left (by omega)
    have := hbegins.sublist.count_le '\n'
    omega

namespace Extraction

theorem shape_of_mem_piecesFrom {keepInHost : Bool} {group done : Nat} {text : Text}
    {found : List Pattern.Match} {p : Piece} (h : p ∈ piecesFrom keepInHost group text done found) :
    p.shift = none ∧ (p.foreign = none ∨ ∃ code : Pattern.Span,
      p.foreign = some (text.slice code.start code.stop) ∧
      p.range = some ⟨Pos.behind (text.take code.start), Pos.behind (text.take code.stop)⟩) := by
  induction found generalizing done with
  | nil =>
    rw [piecesFrom, remainder] at h
    split at h
    · obtain rfl := List.mem_singleton.mp h
      exact ⟨rfl, Or.inl rfl⟩
    · simp at h
  | cons m rest ih =>
    rw [piecesFrom] at h
    split at h
    · exact ih h
    next code _ =>
      rcases List.mem_cons.mp h with rfl | h
      · exact ⟨rfl, Or.inr ⟨code, rfl, rfl⟩⟩
      · exact ih h

/-- Extraction by a pattern puts nothing in front of its code, which is a stretch of the text. -/
theorem shape_of_byPattern {options : PatternOptions} {e : Extractor}
    (h : byPattern options = .ok e) {text : Text} {pieces : List Piece}
    (hpieces : e.extract text = .ok pieces) {p : Piece} (hp : p ∈ pieces) :
    p.shift = none ∧ ∀ code range, p.foreign = some code → p.range = some range →
      ∃ start stop, code = text.slice start stop ∧
        range = ⟨Pos.behind (text.take start), Pos.behind (text.take stop)⟩ := by
  unfold byPattern at h
  split at h
  · cases h
  · cases h
    cases hpieces
    obtain ⟨hshift, hshape⟩ := shape_of_mem_piecesFrom hp
    refine ⟨hshift, fun code range hcode hrange => ?_⟩
    rcases hshape with hnone | ⟨span, hforeign, hspan⟩
    · rw [hnone] at hcode
      cases hcode
    · rw [hforeign] at hcode
      rw [hspan] at hrange
      exact ⟨span.start, span.stop, (Option.some.inj hcode).symm, (Option.some.inj hrange).symm⟩

theorem byPattern_faithful {options : PatternOptions} {e : Extractor}
    (h : byPattern options = .ok e) : e.Faithful := by
  intro text pieces hpieces p hp
  obtain ⟨hshift, hshape⟩ := shape_of_byPattern h hpieces hp
  refine ⟨hshift, fun code range hcode hrange => ?_⟩
  obtain ⟨start, stop, rfl, rfl⟩ := hshape code range hcode hrange
  have := line_behind_take text start stop
  rw [Text.length_lines]
  exact Nat.lt_succ_of_le this

namespace Protovalidate

/-- A line feed stands in a literal only behind a backslash, and is then decoded as itself. -/
theorem readLiteral?_count {quote : Char} {text decoded : Text} {n : Nat}
    (h : readLiteral? quote text = some (n, decoded)) :
    (text.take n).count '\n' ≤ decoded.count '\n' := by
  fun_induction readLiteral? quote text generalizing n decoded with
  | case1 => cases h
  | case2 =>
    cases h
    simp
  | case3 => cases h
  | case4 => cases h
  | case5 e rest _ _ ih =>
    obtain ⟨⟨m, cs⟩, hrest, heq⟩ := Option.map_eq_some_iff.mp h
    cases heq
    have hcount := ih hrest
    rw [List.take_succ_cons, List.take_succ_cons, List.count_cons_of_ne (by decide)]
    by_cases he : e = '\n'
    · subst he
      rw [List.count_cons_self, show decodeEscape '\n' = '\n' from rfl, List.count_cons_self]
      omega
    · rw [List.count_cons_of_ne he]
      exact Nat.le_trans hcount List.count_le_count_cons
  | case6 c rest hquote hline hescape ih =>
    obtain ⟨⟨m, cs⟩, hrest, heq⟩ := Option.map_eq_some_iff.mp h
    cases heq
    rw [List.take_succ_cons, List.count_cons_of_ne hline, List.count_cons_of_ne hline]
    exact ih hrest

theorem literalOf?_count {text : Text} {head : Pattern.Span} {l : Literal}
    (h : literalOf? text head = some l) :
    (text.slice l.contents.start l.contents.stop).count '\n' ≤ l.decoded.count '\n' := by
  unfold literalOf? at h
  simp only [Option.bind_eq_bind, Option.bind_eq_some_iff] at h
  obtain ⟨length, _, behind, _, h⟩ := h
  split at h
  next q rest hdrop =>
    split at h
    · obtain ⟨⟨n, decoded⟩, hread, heq⟩ := Option.bind_eq_some_iff.mp h
      cases heq
      have hrest : text.drop (head.stop + (length - behind.length) + 1) = rest := by
        rw [← List.drop_drop, hdrop]
        rfl
      simp only [Text.slice, hrest, Nat.add_sub_cancel_left]
      exact readLiteral?_count hread
    · cases h
  · cases h

theorem mem_of_mem_dropRepeats {l : Literal} {ls : List Literal} (h : l ∈ dropRepeats ls) :
    l ∈ ls := by
  fun_induction dropRepeats ls with
  | case1 a b rest _ ih =>
    rcases List.mem_cons.mp (ih h) with rfl | hrest
    · exact List.mem_cons_self
    · exact List.mem_cons_of_mem a (List.mem_cons_of_mem b hrest)
  | case2 a b rest _ ih =>
    rcases List.mem_cons.mp h with rfl | hrest
    · exact List.mem_cons_self
    · exact List.mem_cons_of_mem a (ih hrest)
  | case3 => exact h

theorem exists_head_of_mem_literals {text : Text} {l : Literal} (h : l ∈ literals text) :
    ∃ head, literalOf? text head = some l := by
  have hsorted := mem_of_mem_dropRepeats h
  rw [List.mem_mergeSort] at hsorted
  obtain ⟨head, _, hhead⟩ := List.mem_filterMap.mp hsorted
  exact ⟨head, hhead⟩

theorem shape_of_mem_piecesFrom {text : Text} {done : Nat} {ls : List Literal} {pieces : List Piece}
    (h : piecesFrom text done ls = .ok pieces) {p : Piece} (hp : p ∈ pieces) :
    p.shift = none ∧ (p.foreign = none ∨ ∃ l ∈ ls, p.foreign = some l.decoded ∧
      p.range = some ⟨Pos.behind (text.take l.contents.start),
        Pos.behind (text.take l.contents.stop)⟩) := by
  induction ls generalizing done pieces with
  | nil =>
    cases h
    split at hp
    · obtain rfl := List.mem_singleton.mp hp
      exact ⟨rfl, Or.inl rfl⟩
    · simp at hp
  | cons l rest ih =>
    rw [piecesFrom] at h
    split at h
    · cases h
    · cases hrest : piecesFrom text l.contents.stop rest with
      | error fault =>
        rw [hrest] at h
        cases h
      | ok more =>
        rw [hrest] at h
        cases h
        rcases List.mem_cons.mp hp with rfl | hp
        · exact ⟨rfl, Or.inr ⟨l, List.mem_cons_self, rfl, rfl⟩⟩
        · obtain ⟨hshift, hnone | ⟨l', hl', hshape⟩⟩ := ih hrest hp
          · exact ⟨hshift, Or.inl hnone⟩
          · exact ⟨hshift, Or.inr ⟨l', List.mem_cons_of_mem l hl', hshape⟩⟩

theorem extractor_faithful : extractor.Faithful := by
  intro text pieces hpieces p hp
  obtain ⟨hshift, hshape⟩ := shape_of_mem_piecesFrom hpieces hp
  refine ⟨hshift, ?_⟩
  intro code range hcode hrange
  rcases hshape with hnone | ⟨l, hl, hforeign, hspan⟩
  · rw [hnone] at hcode
    cases hcode
  · rw [hforeign] at hcode
    rw [hspan] at hrange
    cases hcode
    cases hrange
    obtain ⟨head, hhead⟩ := exists_head_of_mem_literals hl
    have hspans := line_behind_take text l.contents.start l.contents.stop
    have hcount := literalOf?_count hhead
    rw [Text.length_lines]
    exact Nat.lt_succ_of_le (Nat.le_trans hspans hcount)

end Protovalidate

end Extraction

end Polyglot
