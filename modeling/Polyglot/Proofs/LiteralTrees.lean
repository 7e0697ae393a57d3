import Polyglot.Proofs.FileTree
import Polyglot.Proofs.LiteralPieces
import Polyglot.Proofs.StandaloneCode
import Polyglot.Proofs.BufferCharacters
import Polyglot.Proofs.Lineage

/-!
Trees of protobuf files where nothing but the literals of options is looked for. If no literal ends
before an earlier one does, and documents below the file can have addresses, every rebuild from one
cell succeeds. Each literal then has a child of its own, which holds what the literal says and
nothing else.
-/
namespace Polyglot

open Extraction.Protovalidate (literals Literal)

/-- Only the literals of options in protobuf files are looked for, and no rule rewrites anything. -/
structure Context.LiteralsOnly (context : Context) : Prop where
  entries : context.extractors.entries = [("proto", Extraction.Protovalidate.extractor)]
  rules : context.rules = {}

namespace Context.LiteralsOnly

variable {context : Context} (h : context.LiteralsOnly)

include h

theorem forHost_proto :
    context.extractors.forHost "proto" = [Extraction.Protovalidate.extractor] := by
  rw [Registry.forHost, h.entries]
  rfl

theorem forHost_eq_nil {language : String} (hne : language ≠ "proto") :
    context.extractors.forHost language = [] := by
  rw [Registry.forHost, h.entries]
  simp [Ne.symm hne]

theorem eq_of_finds {language : String} {kind : Kind} (hfinds : context.Finds language kind) :
    language = "proto" ∧ kind = celKind := by
  obtain ⟨e, he, rfl⟩ := hfinds
  by_cases hlanguage : language = "proto"
  · subst hlanguage
    rw [h.forHost_proto, List.mem_singleton] at he
    exact ⟨rfl, he ▸ rfl⟩
  · rw [h.forHost_eq_nil hlanguage] at he
    cases he

theorem siblingsApart : context.SiblingsApart := by
  intro host shared alone hshared _ hstandalone
  rw [(h.eq_of_finds hshared).2] at hstandalone
  cases hstandalone

end Context.LiteralsOnly

/-! What the text of a file falls into. -/

namespace Extraction.Protovalidate

theorem hostCode_of_piecesFrom {text : Text} {ls : List Literal} {done : Nat} {pieces : List Piece}
    (h : piecesFrom text done ls = .ok pieces) : Fragment.hostCode pieces = text.drop done := by
  have hnone : pieces.filter (!Fragment.isLost ·) = pieces := by
    rw [List.filter_eq_self]
    intro p hp
    obtain ⟨_, hnone | ⟨l, _, _, hrange⟩⟩ := shape_of_mem_piecesFrom h hp
    · simp [Fragment.isLost, hnone]
    · simp [Fragment.isLost, hrange]
  rw [Fragment.hostCode, hnone, host_of_piecesFrom h]

/-- The file keeps its text, and all literals are taken from it. -/
theorem peel_eq {text : Text}
    (h : (literals text).Pairwise (·.contents.stop ≤ ·.contents.stop)) :
    Fragment.peel [extractor] text = ((literals text).map (Literal.fragment text), .ok text) := by
  obtain ⟨pieces, hpieces⟩ := piecesFrom_ok_iff.mpr ⟨fun l _ => Nat.zero_le l.contents.stop, h⟩
  by_cases hdetects : extractor.detects text = true
  · have hextract : extractor.extract text = .ok pieces := hpieces
    rw [Fragment.peel, if_pos hdetects, hextract]
    simp only [Fragment.peel, List.append_nil, fragments_of_piecesFrom hpieces,
      hostCode_of_piecesFrom hpieces, List.drop_zero]
  · have hnone : literals text = [] := by simpa [extractor] using hdetects
    rw [Fragment.peel, if_neg hdetects, hnone]
    rfl

end Extraction.Protovalidate

namespace Document

/-! Rebuilds succeed. -/

/-- Documents of literals below a file can have addresses. -/
def Addressable (d : Document) : Prop :=
  ∀ number, ∃ uri, childUri d.id.path (d.idPath ++ "-" ++ Identity.keyOf celKind number)
    celKind.extension = .ok uri

theorem Addressable.of_nature {d e : Document} (h : d.Addressable) (hnature : e.nature = d.nature) :
    e.Addressable := by
  have hid := id_eq_of_nature_eq hnature
  rw [Addressable, idPath, hid]
  exact h

theorem Addressable.chooseChild_ok {d : Document} (haddress : d.Addressable) (next : Nat) :
    ∃ e n child, chooseChild celKind next d = ⟨e, n, .ok child⟩ := by
  obtain ⟨info, children, parked⟩ := d
  rcases chooseChild_cases celKind next info children parked with
    ⟨c, _, _, heq⟩ | ⟨c, rest, _, _, heq⟩ | ⟨_, e, hopen, heq⟩ | ⟨_, c, _, heq⟩
  · exact ⟨_, _, _, heq⟩
  · exact ⟨_, _, _, heq⟩
  · obtain ⟨uri, huri⟩ := haddress next
    have hparse : childUri info.id.path (info.id.idPath ++ "-" ++ Identity.keyOf celKind next)
        celKind.extension = .ok uri := huri
    simp only [openChild, hparse] at hopen
    cases hopen
  · exact ⟨_, _, _, heq⟩

section

variable {context : Context} (honly : context.LiteralsOnly) {next : Nat} {d : Document}

include honly

theorem kind_of_offspring (hd : d.Steady context next) {c : Document} (hc : c ∈ d.offspring) :
    d.language = "proto" ∧ c.id.kind = celKind :=
  honly.eq_of_finds (hd.self.derives hc).finds

theorem eq_of_idPath_eq (hd : d.Steady context next) {c c' : Document} (hc : c ∈ d.children)
    (hc' : c' ∈ d.children) (h : c.idPath = c'.idPath) : c = c' := by
  have hmem : c ∈ d.offspring := List.mem_append_left _ hc
  have hmem' : c' ∈ d.offspring := List.mem_append_left _ hc'
  refine hd.self.number_injective hmem hmem' ?_
  refine (hd.self.derives hmem).number_eq (hd.self.derives hmem') ?_ ?_ (Or.inl rfl)
    (Or.inl h)
  · rw [(kind_of_offspring honly hd hmem).2]
    rfl
  · rw [(kind_of_offspring honly hd hmem').2]
    rfl

/-- Documents of other languages have no children. -/
theorem leaf_of_language (hd : d.Steady context next) (hlanguage : d.language ≠ "proto") :
    d.children = [] := by
  rw [List.eq_nil_iff_forall_not_mem]
  intro c hc
  exact hlanguage (kind_of_offspring honly hd (List.mem_append_left _ hc)).1

theorem peel_of_ne_proto {language : String} (hne : language ≠ "proto") (text : Text) :
    Fragment.peel (context.extractors.forHost language) text = ([], .ok text) := by
  rw [honly.forHost_eq_nil hne]
  rfl

/-- A document that is no protobuf file takes every text. -/
theorem appendText_ok_of_ne_proto (hlanguage : d.language ≠ "proto") (hlive : d.isDisposed = false)
    (editor : String) (levels : Nat) (origin : Pos .editor) (shift : Option (Pos .source))
    (text : Text) (next : Nat) :
    ∃ e, appendText context editor (levels + 1) origin shift text next d = ⟨e, next, .ok ()⟩ := by
  rw [appendText_succ hlive (peel_of_ne_proto honly hlanguage text)]
  exact ⟨_, rfl⟩

theorem giveFragment_ok_of_addressable (hd : d.Steady context next) (hproto : d.language = "proto")
    (haddress : d.Addressable) (editor : String) (levels : Nat) (origin : Pos .editor)
    {f : Fragment} (hkind : f.kind = celKind) :
    ∃ e n note, giveFragment (appendText context editor (levels + 1)) editor origin f next d =
        ⟨e, n, .ok note⟩ ∧ e.Steady context n ∧ e.nature = d.nature := by
  have hfinds : context.Finds d.language f.kind := by
    rw [hproto, hkind]
    exact ⟨_, by rw [honly.forHost_proto]; exact List.mem_singleton_self _, rfl⟩
  have hsteady := hd.giveFragment honly.siblingsApart editor (levels + 1)
    (fun o s t n c hc => hc.appendText honly.siblingsApart editor (levels + 1) o s t) origin hfinds
  have hsame := sameHost_giveFragment (appendText context editor (levels + 1)) editor origin f next
    d
  obtain ⟨d₁, n₁, child, hchoose⟩ := haddress.chooseChild_ok next
  rw [← hkind] at hchoose
  -- the child that is chosen is no protobuf file and is open, so that it takes the piece
  obtain ⟨hd₁, _, hchildren, _⟩ := hd.chooseChild honly.siblingsApart hfinds hchoose
  have hmem : child ∈ d₁.offspring := by
    rw [offspring, hchildren]
    exact List.mem_append_left _ (mem_insertByKey_self child d.children)
  have hlanguage : child.language ≠ "proto" := by
    rw [language, (kind_of_offspring honly hd₁ hmem).2]
    decide
  obtain ⟨grown, hgive⟩ := appendText_ok_of_ne_proto honly hlanguage
    (hd₁.self.live child hmem) editor levels (foreignOrigin origin f.range) f.shift f.text n₁
  have hresult : giveFragment (appendText context editor (levels + 1)) editor origin f next d =
      ⟨(d₁.putChild grown.drained).emit grown.outbox, n₁,
        .ok (f.range, entryFor child editor f.shift)⟩ := by
    rw [giveFragment, hchoose]
    simp only [Outcome.bind, hgive]
  rw [hresult] at hsteady hsame
  exact ⟨_, n₁, _, hresult, hsteady, hsame.nature_eq⟩

theorem appendForeign_ok_of_addressable (hd : d.Steady context next) (hproto : d.language = "proto")
    (haddress : d.Addressable) (editor : String) (levels : Nat) (origin : Pos .editor)
    {fragments : List Fragment} (hkinds : ∀ f ∈ fragments, f.kind = celKind) :
    ∃ e n notes, appendForeign (appendText context editor (levels + 1)) editor origin fragments
      next d = ⟨e, n, .ok notes⟩ := by
  induction fragments generalizing next d with
  | nil => exact ⟨d, next, [], rfl⟩
  | cons f rest ih =>
    obtain ⟨d₁, n₁, note, hone, hd₁, hnature⟩ := giveFragment_ok_of_addressable honly hd hproto
      haddress editor levels origin (hkinds f List.mem_cons_self)
    have hproto₁ : d₁.language = "proto" := by
      rw [language, id_eq_of_nature_eq hnature]
      exact hproto
    obtain ⟨e, n, notes, hrest⟩ := ih hd₁ hproto₁ (haddress.of_nature hnature)
      fun g hg => hkinds g (List.mem_cons_of_mem f hg)
    refine ⟨e, n, note :: notes, ?_⟩
    rw [appendForeign, hone]
    simp only [Outcome.bind, hrest]

end

/-! Children of literals. -/

/-- The literals of a text in a tree: the root has the text behind some blocks, with a note for each
literal, and each note leads to a document that holds the literal. -/
structure Seats (editor : String) (text : Text) (root : Document) (pre post : List Block)
    (notes : List (Range .text × ForeignBlock)) (cs : List Document) : Prop where
  blocks : root.info.blocks =
    pre ++ blockOf {} "proto" editor Pos.origin none text text notes :: post
  noted : List.Forall₂ (fun l note => note.1 = (Literal.fragment text l).range ∧
    ∃ c ∈ root.children, c.key = note.2.document) (literals text) notes
  children : List.Forall₂ (fun note c => c ∈ root.children ∧ c.key = note.2.document) notes cs
  houses : List.Forall₂ (fun l c => Houses editor (Literal.fragment text l) c) (literals text) cs

/-- The children that some notes lead to. -/
theorem exists_children_of_takes {holds : Holding} {d : Document} {origin : Pos .editor}
    {fragments : List Fragment} {notes : List (Range .text × ForeignBlock)}
    (h : List.Forall₂ (Takes holds d origin) fragments notes) :
    ∃ cs, List.Forall₂ (fun note c => c ∈ d.children ∧ c.key = note.2.document) notes cs ∧
      List.Forall₂ (fun f c => c ∈ d.children ∧
        ∃ pre, holds c pre (foreignOrigin origin f.range) f.shift f.text) fragments cs := by
  induction h with
  | nil => exact ⟨[], .nil, .nil⟩
  | cons htakes _ ih =>
    obtain ⟨c, hc, hkey, pre, _, hholds⟩ := htakes.child
    obtain ⟨cs, hnotes, hfragments⟩ := ih
    exact ⟨c :: cs, .cons ⟨hc, hkey⟩ hnotes, .cons ⟨hc, pre, hholds⟩ hfragments⟩

section

variable {context : Context} (honly : context.LiteralsOnly) {next : Nat} {root : Document}

include honly

/-- A child that was given a piece of code holds nothing else. -/
theorem houses_of_given (hroot : Unbroken context next root) {c : Document} (hc : c ∈ root.children)
    {editor : String} {levels : Nat} {pre : List Block} {f : Fragment} (hshift : f.shift = none)
    (hgiven : Given context editor levels c pre (foreignOrigin Pos.origin f.range) f.shift f.text) :
    Houses editor f c := by
  have hsteady := steady_of_reachable honly.siblingsApart hroot.reachable
  have hmem : c ∈ root.offspring := List.mem_append_left _ hc
  have hkind := (kind_of_offspring honly hsteady hmem).2
  have hlanguage : c.language = "cel" := by
    rw [language, hkind]
    rfl
  have hne : c.language ≠ "proto" := by
    rw [hlanguage]
    decide
  refine ⟨hkind, leaf_of_language honly (hsteady.of_mem_offspring hmem) hne, ?_⟩
  have hone : c.info.blocks.length ≤ 1 :=
    hroot.single honly.siblingsApart root (Owns.self root) c hc (by rw [hkind]; rfl)
  obtain ⟨_, kept, notes, post, _, hkept, hblocks, hnotes⟩ := hgiven.parts
  rw [peel_of_ne_proto honly hne] at hkept hnotes
  obtain rfl := Except.ok.inj hkept
  obtain rfl := List.forall₂_nil_left_iff.mp hnotes
  rw [hblocks, List.length_append, List.length_cons] at hone
  obtain rfl : pre = [] := List.length_eq_zero_iff.mp (by omega)
  obtain rfl : post = [] := List.length_eq_zero_iff.mp (by omega)
  rw [hblocks, honly.rules, hlanguage, hshift]
  rfl

end

end Document

open Document

section

variable {s : Session} {next : Nat} {text : Text}

/-- A rebuild from one cell succeeds if no literal ends before an earlier one does. -/
theorem update_ok_of_addressable (honly : s.context.LiteralsOnly)
    (hreach : Reachable s.context next s.root) (hproto : s.root.language = "proto")
    (hlive : s.root.isDisposed = false) (haddress : s.root.Addressable)
    (hfree : s.acquire = .ok ()) (hlevels : 2 ≤ s.levels) (editor : String)
    (hstops : (literals text).Pairwise (·.contents.stop ≤ ·.contents.stop)) :
    ∃ s' next', s.update [⟨text, editor⟩] next = (s', next', .ok ()) := by
  obtain ⟨below, hbelow⟩ := Nat.exists_eq_add_of_le' hlevels
  have hnature := nature_clear s.root
  obtain ⟨hid, -, hdisposed⟩ := nature_eq_iff.mp hnature
  have hproto' : s.root.clear.language = "proto" := by
    rw [language, hid]
    exact hproto
  have hpeel : Fragment.peel (s.context.extractors.forHost s.root.clear.language) text =
      ((literals text).map (Literal.fragment text), .ok text) := by
    rw [hproto', honly.forHost_proto]
    exact Extraction.Protovalidate.peel_eq hstops
  have hkinds : ∀ f ∈ (literals text).map (Literal.fragment text), f.kind = celKind := by
    intro f hf
    obtain ⟨l, _, rfl⟩ := List.mem_map.mp hf
    rfl
  obtain ⟨d, n, notes, hforeign⟩ := appendForeign_ok_of_addressable honly
    (steady_of_reachable honly.siblingsApart hreach.clear) hproto' (haddress.of_nature hnature)
    editor below Pos.origin hkinds
  have happend : appendText s.context editor (below + 2) Pos.origin none text next
      s.root.clear = _ := appendText_succ (hdisposed.trans hlive) hpeel
  rw [hforeign] at happend
  unfold Session.update
  rw [hfree]
  simp only [rebuild, appendCells, Document.append, hbelow, happend, Outcome.bind]
  exact ⟨_, _, rfl⟩

theorem nature_of_update {s' : Session} {cells : List Cell} {next' : Nat}
    (hupdate : s.update cells next = (s', next', .ok ())) : s'.root.nature = s.root.nature := by
  obtain ⟨notices, d₁, happend, hroot⟩ := update_ok hupdate
  have hkept : (appendCells s.context s.levels 0 cells next s.root.clear).2.document.nature =
      s.root.nature := by
    refine appendCells_keeps s.context s.levels (I := fun _ e => e.nature = s.root.nature) ?_ 0
      (nature_clear s.root)
    intro cell _ n e he
    exact (appendText_frame s.context cell.editor _ Pos.origin none cell.text n e).1.trans he
  rw [happend] at hkept
  rw [hroot, nature_drained, nature_emitChanged, nature_closeExpired]
  exact hkept

/-- After a rebuild each literal has a document, and no two have the same. -/
theorem exists_seats_of_update (honly : s.context.LiteralsOnly)
    (hreach : Reachable s.context next s.root) (hproto : s.root.language = "proto")
    {editor : String} (hstops : (literals text).Pairwise (·.contents.stop ≤ ·.contents.stop))
    {s' : Session} {next' : Nat} (hupdate : s.update [⟨text, editor⟩] next = (s', next', .ok ())) :
    ∃ pre post notes cs, Seats editor text s'.root pre post notes cs ∧
      (cs.map (·.idPath)).Nodup := by
  have hunbroken := unbroken_of_update hreach hupdate
  have hlanguage : s'.root.language = "proto" := by
    rw [language, id_eq_of_nature_eq (nature_of_update hupdate)]
    exact hproto
  obtain ⟨pre, hgiven⟩ := given_of_update honly.siblingsApart hreach hupdate
    (List.mem_singleton_self _)
  obtain ⟨_, kept, notes, post, _, hkept, hblocks, hnotes⟩ := hgiven.parts
  rw [hlanguage, honly.forHost_proto, Extraction.Protovalidate.peel_eq hstops] at hkept hnotes
  obtain rfl := Except.ok.inj hkept
  rw [hlanguage, honly.rules] at hblocks
  obtain ⟨cs, hchildren, hholds⟩ := exists_children_of_takes hnotes
  rw [List.forall₂_map_left_iff] at hnotes hholds
  refine ⟨pre, post, notes, cs, ⟨hblocks, ?_, hchildren, ?_⟩, ?_⟩
  · refine hnotes.imp ?_
    intro l note htakes
    obtain ⟨c, hc, hkey, _⟩ := htakes.child
    exact ⟨htakes.range_eq, c, hc, hkey⟩
  · refine hholds.imp ?_
    intro l c hheld
    obtain ⟨hc, _, hgiven⟩ := hheld
    exact houses_of_given honly hunbroken hc rfl hgiven
  · rw [List.Nodup, List.pairwise_map, List.pairwise_iff_getElem]
    intro i j hi hj hij hpath
    have hlength := hchildren.length_eq
    have hiNote : i < notes.length := by omega
    have hjNote : j < notes.length := by omega
    obtain ⟨hc, hkey⟩ := hchildren.get hiNote hi
    obtain ⟨hc', hkey'⟩ := hchildren.get hjNote hj
    simp only [List.get_eq_getElem] at hc hkey hc' hkey'
    have hsame := eq_of_idPath_eq honly
      (steady_of_reachable honly.siblingsApart hunbroken.reachable) hc hc' hpath
    rw [← hsame] at hkey'
    -- the two notes would tell two blocks of one document
    have htwo := (hunbroken.agrees honly.siblingsApart _ (Owns.self _)).two_le_blocks hc hblocks
      (List.getElem?_eq_getElem hiNote) (List.getElem?_eq_getElem hjNote) hij hkey hkey'
    have hone := hunbroken.single honly.siblingsApart _ (Owns.self _) _ hc (by
      rw [(kind_of_offspring honly (steady_of_reachable honly.siblingsApart hunbroken.reachable)
        (List.mem_append_left _ hc)).2]
      rfl)
    omega

end

end Polyglot
