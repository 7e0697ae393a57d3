import Polyglot.Proofs.ChildAddresses
import Polyglot.Proofs.Descent

/-!
The tree of one file under the usual settings, where only protobuf files have foreign code, and
each piece of it becomes a document of its own. Whatever the tree was before, a rebuild leaves one
child for each piece that the text has now, with this piece as its only block; which documents
these are, and under which keys, is all that is left of the past.
-/
namespace Polyglot

/-- What the documents of a server without a workspace share. -/
def usualContext : Context := (ServerConfig.ofSettings {}).context

def celKind : Kind := ⟨"cel", "cel", true⟩

theorem forHost_proto :
    usualContext.extractors.forHost "proto" = [Extraction.Protovalidate.extractor] := rfl

theorem forHost_eq_nil {language : String} (h : language ≠ "proto") :
    usualContext.extractors.forHost language = [] := by
  have hentries : usualContext.extractors.entries =
    [("proto", Extraction.Protovalidate.extractor)] :=
    rfl
  rw [Registry.forHost, hentries]
  simp [Ne.symm h]

theorem eq_of_finds {language : String} {kind : Kind} (h : usualContext.Finds language kind) :
    language = "proto" ∧ kind = celKind := by
  obtain ⟨e, he, rfl⟩ := h
  by_cases hlanguage : language = "proto"
  · subst hlanguage
    rw [forHost_proto, List.mem_singleton] at he
    exact ⟨rfl, he ▸ rfl⟩
  · rw [forHost_eq_nil hlanguage] at he
    cases he

theorem usualContext_siblingsApart : usualContext.SiblingsApart := by
  intro host shared alone hfinds _ hshared
  obtain ⟨_, rfl⟩ := eq_of_finds hfinds
  cases hshared

/-- A text without extractors stays as it is. -/
theorem Fragment.peel_of_ne {language : String} (h : language ≠ "proto") (text : Text) :
    peel (usualContext.extractors.forHost language) text = ([], .ok text) := by
  rw [forHost_eq_nil h]
  rfl

/-- The pieces of foreign code of a text. -/
abbrev piecesOf (language : String) (text : Text) : List Fragment :=
  (Fragment.peel (usualContext.extractors.forHost language) text).1

/-- What of a text its file keeps. -/
abbrev keptOf (language : String) (text : Text) : Except Fault Text :=
  (Fragment.peel (usualContext.extractors.forHost language) text).2

namespace Document

section

variable {next : Nat} {d : Document}

theorem Sound.kind_of_owned (h : d.Sound usualContext next) {c : Document}
    (hc : c ∈ d.children ++ d.parked) : d.language = "proto" ∧ c.id.kind = celKind := by
  refine eq_of_finds (h.family.derives c.id ?_).finds
  rw [← List.map_append]
  exact List.mem_map_of_mem hc

/-- Only protobuf files own documents. -/
theorem Sound.leaf (h : d.Sound usualContext next) (hlanguage : d.language ≠ "proto") :
    d.children = [] ∧ d.parked = [] := by
  have hnone : d.children ++ d.parked = [] := by
    rw [List.eq_nil_iff_forall_not_mem]
    intro c hc
    exact hlanguage (h.kind_of_owned hc).1
  exact List.append_eq_nil_iff.mp hnone

theorem Steady.leaf_of_owned (h : d.Steady usualContext next) {c : Document}
    (hc : c ∈ d.children ++ d.parked) : c.children = [] ∧ c.parked = [] := by
  obtain ⟨info, children, parked⟩ := d
  obtain ⟨hsound, hchildren, hparked⟩ := (steady_node _ _ _).mp h
  have hkind := (hsound.kind_of_owned hc).2
  have hsteady : c.Steady usualContext next := by
    rcases List.mem_append.mp hc with hc | hc
    · exact hchildren c hc
    · exact hparked c hc
  refine hsteady.self.leaf ?_
  rw [language, hkind]
  decide

/-- A tree that was emptied has all its documents parked. -/
theorem Steady.children_clear (h : d.Steady usualContext next) :
    d.clear.children = [] ∧ d.clear.info.blocks = [] ∧ d.clear.info.idle = [] := by
  obtain ⟨info, children, parked⟩ := d
  have hnatures := map_nature_clearAll children
  have hkept : ((clearAll children).map drained).filter (!·.id.kind.standalone) = [] := by
    rw [List.filter_eq_nil_iff]
    intro c hc
    have hmem := hnatures ▸ List.mem_map_of_mem (f := nature) hc
    obtain ⟨x, hx, hsame⟩ := List.mem_map.mp hmem
    rw [← id_eq_of_nature_eq hsame, (h.self.kind_of_owned (List.mem_append_left _ hx)).2]
    decide
  rw [Document.clear]
  simp only [List.partition_eq_filter_filter, children_node, info_node, true_and]
  refine ⟨hkept, ?_⟩
  have hnot : (Bool.not ∘ fun c : Document => c.id.kind.standalone) =
      fun c => !c.id.kind.standalone := rfl
  rw [hnot, hkept]
  rfl

end

/-- The root of the tree of a file, by the address and the language of the file. -/
structure IsRoot (href language : String) (next : Nat) (root : Document) : Prop where
  steady : root.Steady usualContext next
  language_eq : root.language = language
  idPath_eq : root.idPath = language
  path_href : root.id.path.href = href
  uri_href : root.uri.href = href
  live : root.isDisposed = false

theorem IsRoot.of_nature {href language : String} {next later : Nat} {root root' : Document}
    (h : IsRoot href language next root) (hsteady : root'.Steady usualContext later)
    (hnature : root'.nature = root.nature) : IsRoot href language later root' := by
  obtain ⟨hid, -, hdisposed⟩ := nature_eq_iff.mp hnature
  refine ⟨hsteady, ?_, ?_, ?_, ?_, hdisposed.trans h.live⟩
  · rw [Document.language, hid]
    exact h.language_eq
  · rw [idPath, hid]
    exact h.idPath_eq
  · rw [hid]
    exact h.path_href
  · rw [uri, hid]
    exact h.uri_href

/-! Giving away the pieces of a text. -/

/-- A document whose only block is a piece of foreign code. -/
structure Houses (editor : String) (f : Fragment) (c : Document) : Prop where
  kind : c.id.kind = celKind
  leaf : c.children = []
  blocks : c.info.blocks =
    [blockOf {} "cel" editor (foreignOrigin Pos.origin f.range) none f.text f.text []]

/-- What the parent of such a document notes of it. -/
def noteOf (editor : String) (f : Fragment) (c : Document) : Range .text × ForeignBlock :=
  (f.range, ⟨0, 0, c.key, editor, Pos.origin⟩)

/-- The CEL documents of the file at an address can have addresses, each of its own. -/
def Readable (href : String) : Prop :=
  ∃ front : Text, ∀ number, ∃ w, Url.parse (href ++ String.ofList (celEnding number)) = .ok w ∧
    w.href.toList = front ++ celEnding number ∧ w.href ≠ href

def Unreadable (href : String) : Prop :=
  ∀ number, ∃ e, Url.parse (href ++ String.ofList (celEnding number)) = .error e

section

variable {href : String} {next : Nat} {d : Document}

theorem IsRoot.childUri_eq (h : IsRoot href "proto" next d) (number : Nat) :
    childUri d.id.path (d.idPath ++ "-" ++ Identity.keyOf celKind number) celKind.extension =
      Url.parse (href ++ String.ofList (celEnding number)) := by
  rw [h.idPath_eq, ← h.path_href]
  exact childUri_celPath_eq d.id.path number

/-- The addresses of the documents of a file. -/
theorem IsRoot.uri_of_owned (h : IsRoot href "proto" next d) {c : Document}
    (hc : c ∈ d.children ++ d.parked) :
    c.idPath = celPath c.id.number ∧
      Url.parse (href ++ String.ofList (celEnding c.id.number)) = .ok c.uri := by
  have hkind := (h.steady.self.kind_of_owned hc).2
  have hkey : c.id.key = Identity.keyOf celKind c.id.number := by rw [Identity.key, hkind]
  have hderives := h.steady.self.family.derives c.id (by
    rw [← List.map_append]
    exact List.mem_map_of_mem hc)
  have hidPath : c.idPath = d.idPath ++ "-" ++ Identity.keyOf celKind c.id.number :=
    hkey ▸ hderives.idPath
  refine ⟨by rw [hidPath, h.idPath_eq]; rfl, ?_⟩
  rw [← h.childUri_eq, ← hidPath, ← hkind]
  exact hderives.uri

theorem IsRoot.chooseChild_ok (h : IsRoot href "proto" next d) (hread : Readable href) :
    ∃ d₁ n₁ child, chooseChild celKind next d = ⟨d₁, n₁, .ok child⟩ := by
  have huri := h.childUri_eq
  obtain ⟨info, children, parked⟩ := d
  rcases chooseChild_cases celKind next info children parked with
    ⟨c, _, _, heq⟩ | ⟨c, rest, _, _, heq⟩ | ⟨_, e, hopen, heq⟩ | ⟨_, c, _, heq⟩
  · exact ⟨_, _, _, heq⟩
  · exact ⟨_, _, _, heq⟩
  · obtain ⟨front, hread⟩ := hread
    obtain ⟨w, hw, _⟩ := hread next
    rw [← huri next] at hw
    simp only [openChild] at hopen
    rw [show childUri info.id.path (info.id.idPath ++ "-" ++ Identity.keyOf celKind next)
      celKind.extension = .ok w from hw] at hopen
    cases hopen
  · exact ⟨_, _, _, heq⟩

theorem IsRoot.chooseChild_error (h : IsRoot href "proto" next d) (hunread : Unreadable href) :
    ∃ d₁ n₁ e, chooseChild celKind next d = ⟨d₁, n₁, .error e⟩ := by
  have huri := h.childUri_eq
  have howned : ∀ c ∈ d.children ++ d.parked, False := by
    intro c hc
    obtain ⟨e, he⟩ := hunread c.id.number
    rw [(h.uri_of_owned hc).2] at he
    cases he
  obtain ⟨info, children, parked⟩ := d
  rcases chooseChild_cases celKind next info children parked with
    ⟨c, hshared, _, _⟩ | ⟨c, rest, _, htake, _⟩ | ⟨_, e, _, heq⟩ | ⟨_, c, hopen, _⟩
  · cases hshared
  · obtain ⟨earlier, later, rfl, _⟩ := takeParked_eq_some htake
    exact (howned c (by simp)).elim
  · exact ⟨_, _, _, heq⟩
  · obtain ⟨uri, hok, _⟩ := openChild_eq_ok hopen
    obtain ⟨e, he⟩ := hunread next
    rw [← huri next] at he
    exact absurd (hok.symm.trans he) (by simp)

theorem appendText_leaf {c : Document} (hlanguage : c.language ≠ "proto")
    (hlive : c.isDisposed = false) (editor : String) (below : Nat) (origin : Pos .editor)
    (text : Text) (n : Nat) :
    appendText usualContext editor (below + 1) origin none text n c =
      ⟨c.push (blockOf {} c.language editor origin none text text []), n, .ok ()⟩ := by
  rw [appendText.eq_def]
  simp only [hlive, Bool.false_eq_true, if_false, Fragment.peel_of_ne hlanguage, appendForeign,
    Outcome.bind]
  rfl

/-- The child that is chosen for a piece of code is empty, and was not among the children before. -/
structure Vacant (d d₁ child : Document) : Prop where
  children : d₁.children = insertByKey child d.children
  free : ∀ c ∈ d.children, c.key ≠ child.key
  blank : child.info.blocks = []
  kind : child.id.kind = celKind
  leaf : child.children = []
  live : child.isDisposed = false

theorem IsRoot.finds (h : IsRoot href "proto" next d) : usualContext.Finds d.language celKind := by
  rw [h.language_eq]
  exact ⟨_, List.mem_singleton_self _, rfl⟩

theorem IsRoot.vacant (h : IsRoot href "proto" next d) {d₁ child : Document} {n₁ : Nat}
    (hchoose : chooseChild celKind next d = ⟨d₁, n₁, .ok child⟩) : Vacant d d₁ child := by
  obtain ⟨hd₁, _, hchildren, hseat⟩ :=
    h.steady.chooseChild usualContext_siblingsApart h.finds hchoose
  obtain ⟨hfree, hblank⟩ : (∀ c ∈ d.children, c.key ≠ child.key) ∧ child.Blank := by
    rcases hseat with ⟨hshared, _⟩ | hseat
    · cases hshared
    · exact hseat
  have hmem : child ∈ d₁.children ++ d₁.parked := by
    rw [hchildren]
    exact List.mem_append_left _ (mem_insertByKey_self child d.children)
  exact ⟨hchildren, hfree, hblank.self, (hd₁.self.kind_of_owned hmem).2, (hd₁.leaf_of_owned hmem).1,
    hd₁.self.live child hmem⟩

/-- One piece of code: the child that takes it has nothing but this piece. -/
theorem IsRoot.giveFragment_ok (h : IsRoot href "proto" next d) (hread : Readable href)
    (editor : String) (below : Nat) {f : Fragment} (hkind : f.kind = celKind)
    (hshift : f.shift = none) :
    ∃ d' n' c,
      giveFragment (appendText usualContext editor (below + 1)) editor Pos.origin f next d =
        ⟨d', n', .ok (noteOf editor f c)⟩ ∧
      IsRoot href "proto" n' d' ∧ Houses editor f c ∧ d'.children.Perm (c :: d.children) := by
  obtain ⟨d₁, n₁, child, hchoose⟩ := h.chooseChild_ok hread
  have hvacant := h.vacant hchoose
  have hblank := hvacant.blank
  have hsame := sameHost_giveFragment
    (appendText usualContext editor (below + 1)) editor Pos.origin f
    next d
  have hsteady := h.steady.giveFragment usualContext_siblingsApart editor (below + 1)
    (fun o s t n c hc => hc.appendText usualContext_siblingsApart editor (below + 1) o s t)
    Pos.origin (hkind.symm ▸ h.finds)
  have hlanguage : child.language = "cel" := by rw [language, hvacant.kind]; rfl
  have hgive := appendText_leaf (c := child) (by rw [hlanguage]; decide) hvacant.live
    editor below (foreignOrigin Pos.origin f.range) f.text n₁
  generalize hgrown : child.push _ = grown at hgive
  have hresult :
      giveFragment (appendText usualContext editor (below + 1)) editor Pos.origin f next d =
      ⟨(d₁.putChild grown.drained).emit grown.outbox, n₁,
        .ok (f.range, entryFor child editor f.shift)⟩ := by
    rw [giveFragment, hkind, hchoose, hshift]
    simp only [Outcome.bind, hgive]
  have hnature : grown.drained.nature = child.nature := by
    rw [nature_drained, ← hgrown]
    exact nature_modify child rfl rfl rfl
  have hkey : grown.drained.key = child.key := congrArg Identity.key (id_eq_of_nature_eq hnature)
  refine ⟨(d₁.putChild grown.drained).emit grown.outbox, n₁, grown.drained, ?_, ?_, ?_, ?_⟩
  · rw [hresult]
    simp [noteOf, entryFor, hkey, hshift, bufferLines, sourceLines, hblank, bufferTable,
      sourceTable]
  · rw [hresult] at hsteady hsame
    exact h.of_nature hsteady hsame.nature_eq
  · refine ⟨by rw [id_eq_of_nature_eq hnature]; exact hvacant.kind, ?_, ?_⟩
    · have hleaf := hvacant.leaf
      rw [← hgrown]
      cases child
      exact hleaf
    · rw [← hgrown, hlanguage]
      cases child
      simp only [info_node] at hblank
      simp [drained, push, hblank]
  · obtain ⟨info, children₁, parked⟩ := d₁
    obtain rfl : children₁ = insertByKey child d.children := hvacant.children
    have hchildren' : (((node info (insertByKey child d.children) parked).putChild
        grown.drained).emit grown.outbox).children = insertByKey grown.drained d.children :=
      insertByKey_insertByKey hkey d.children
    rw [hchildren']
    exact perm_insertByKey (hkey ▸ hvacant.free)

theorem IsRoot.appendForeign_ok (hread : Readable href) (editor : String) (below : Nat)
    (fragments : List Fragment) (hfragments : ∀ f ∈ fragments, f.kind = celKind ∧ f.shift = none)
    (h : IsRoot href "proto" next d) :
    ∃ d' n' cs,
      appendForeign (appendText usualContext editor (below + 1)) editor Pos.origin fragments
        next d = ⟨d', n', .ok (List.zipWith (noteOf editor) fragments cs)⟩ ∧
      List.Forall₂ (Houses editor) fragments cs ∧ d'.children.Perm (cs ++ d.children) := by
  induction fragments generalizing next d with
  | nil => exact ⟨d, next, [], rfl, List.Forall₂.nil, List.Perm.refl _⟩
  | cons f rest ih =>
    obtain ⟨hkind, hshift⟩ := hfragments f List.mem_cons_self
    obtain ⟨d₁, n₁, c, hone, hroot₁, hhouses, hperm₁⟩ :=
      h.giveFragment_ok hread editor below hkind hshift
    obtain ⟨d₂, n₂, cs, hrest, hall, hperm₂⟩ :=
      ih (fun g hg => hfragments g (List.mem_cons_of_mem f hg)) hroot₁
    refine ⟨d₂, n₂, c :: cs, ?_, List.Forall₂.cons hhouses hall, ?_⟩
    · rw [appendForeign, hone]
      simp only [Outcome.bind, hrest, List.zipWith_cons_cons]
    · exact (hperm₂.trans (hperm₁.append_left cs)).trans List.perm_middle

theorem IsRoot.appendForeign_error (h : IsRoot href "proto" next d) (hunread : Unreadable href)
    (give : Appender) (editor : String) (f : Fragment) (rest : List Fragment)
    (hkind : f.kind = celKind) :
    ∃ d' n' e, appendForeign give editor Pos.origin (f :: rest) next d = ⟨d', n', .error e⟩ := by
  obtain ⟨d₁, n₁, e, hchoose⟩ := h.chooseChild_error hunread
  refine ⟨d₁, n₁, e, ?_⟩
  rw [appendForeign, giveFragment, hkind, hchoose]
  rfl

end

theorem usualContext_faithful : usualContext.Faithful := by
  intro entry hentry
  obtain rfl := List.mem_singleton.mp hentry
  exact Extraction.Protovalidate.extractor_faithful

theorem kind_of_mem_peel {language : String} {text : Text} {f : Fragment}
    (h : f ∈ piecesOf language text) :
    language = "proto" ∧ f.kind = celKind ∧ f.shift = none := by
  obtain ⟨hlanguage, hkind⟩ := eq_of_finds (Fragment.finds_of_mem_peel h)
  exact ⟨hlanguage, hkind, (Fragment.faithful_of_mem_peel usualContext_faithful h).1⟩

/-- A text that can be taken apart, in a file that can have documents for its pieces. -/
def Buildable (href language : String) (text : Text) : Prop :=
  (∃ kept, keptOf language text = .ok kept) ∧
    (piecesOf language text = [] ∨ Readable href)

/-- A tree that shows a text and nothing else. The documents of its pieces are in the order of the
pieces. -/
structure Shows (editor language : String) (text : Text) (root : Document) (cs : List Document) :
    Prop where
  children : root.children.Perm cs
  houses : List.Forall₂ (Houses editor) (piecesOf language text) cs
  blocks : ∃ kept, keptOf language text = .ok kept ∧
    root.info.blocks = [blockOf {} language editor Pos.origin none text kept
      (List.zipWith (noteOf editor) (piecesOf language text) cs)]

section

variable {href language : String} {next : Nat} {d : Document}

/-- Appending a text to an emptied tree. -/
theorem IsRoot.append_ok (h : IsRoot href language next d) (hchildren : d.children = [])
    (hblocks : d.info.blocks = []) (editor : String) {text : Text} {levels : Nat}
    (hlevels : 2 ≤ levels) (hbuildable : Buildable href language text) :
    ∃ d' n' cs, d.append usualContext text editor Pos.origin none next levels = ⟨d', n', .ok ()⟩ ∧
      Shows editor language text d' cs := by
  obtain ⟨below, rfl⟩ := Nat.exists_eq_add_of_le' hlevels
  obtain ⟨⟨kept, hkept⟩, hpieces⟩ := hbuildable
  have hforeign : ∃ d₁ n₁ cs, appendForeign (appendText usualContext editor (below + 1)) editor
        Pos.origin (piecesOf language text) next d =
          ⟨d₁, n₁, .ok (List.zipWith (noteOf editor) (piecesOf language text) cs)⟩ ∧
      List.Forall₂ (Houses editor) (piecesOf language text) cs ∧ d₁.children.Perm cs := by
    by_cases hnone : piecesOf language text = []
    · rw [hnone]
      exact ⟨d, next, [], rfl, List.Forall₂.nil, hchildren ▸ List.Perm.refl _⟩
    · obtain ⟨f, hf⟩ := List.exists_mem_of_ne_nil _ hnone
      obtain rfl := (kind_of_mem_peel hf).1
      obtain ⟨d₁, n₁, cs, heq, hall, hperm⟩ := IsRoot.appendForeign_ok (hpieces.resolve_left hnone)
        editor below _ (fun f hf => (kind_of_mem_peel hf).2) h
      rw [hchildren, List.append_nil] at hperm
      exact ⟨d₁, n₁, cs, heq, hall, hperm⟩
  obtain ⟨d₁, n₁, cs, hgiven, hall, hperm⟩ := hforeign
  have hsame := sameHost_of_appendForeign hgiven
  have hlanguage : d₁.language = language := hsame.language_eq.trans h.language_eq
  refine ⟨d₁.push (blockOf usualContext.rules language editor Pos.origin none text kept
    (List.zipWith (noteOf editor) (piecesOf language text) cs)), n₁, cs, ?_, ?_⟩
  · rw [append, appendText.eq_def]
    simp only [h.live, Bool.false_eq_true, if_false, h.language_eq, hgiven, Outcome.bind, hkept,
      hlanguage]
  · have hblocks₁ := hsame.blocks_eq.trans hblocks
    obtain ⟨info, children, parked⟩ := d₁
    refine ⟨hperm, hall, kept, hkept, ?_⟩
    rw [info_node] at hblocks₁
    rw [push, modify_node, info_node, hblocks₁]
    rfl

theorem IsRoot.append_error (h : IsRoot href language next d)
    (hread : language = "proto" → Readable href ∨ Unreadable href) (editor : String) {text : Text}
    (levels : Nat) (hbuildable : ¬Buildable href language text) :
    ∃ d' n' e,
      d.append usualContext text editor Pos.origin none next levels = ⟨d', n', .error e⟩ := by
  rcases appendText_cases usualContext editor levels Pos.origin none text next d with
    ⟨e, heq⟩ | ⟨below, d₁, n₁, given, e, _, _, _, heq⟩ |
    ⟨below, d₁, n₁, foreign, kept, _, _, hgiven, hkept, heq⟩
  · exact ⟨d, next, e, heq⟩
  · exact ⟨d₁, n₁, e, heq⟩
  · -- all pieces were given away, so there were none, or their documents had addresses
    rw [h.language_eq] at hgiven hkept
    refine absurd ⟨⟨kept, hkept⟩, ?_⟩ hbuildable
    cases hpieces : piecesOf language text with
    | nil => exact Or.inl rfl
    | cons f rest =>
      refine Or.inr ?_
      have hf : f ∈ piecesOf language text := by
        rw [hpieces]
        exact List.mem_cons_self
      obtain ⟨rfl, hkind, _⟩ := kind_of_mem_peel hf
      rcases hread rfl with hread | hunread
      · exact hread
      · obtain ⟨d', n', e, herror⟩ := h.appendForeign_error hunread _ editor f rest hkind
        rw [show (Fragment.peel (usualContext.extractors.forHost "proto") text).1 = f :: rest from
          hpieces, herror] at hgiven
        cases hgiven

end

/-! The end of a rebuild. -/

/-- Nothing becomes idle by appending. -/
theorem idle_appendText (context : Context) (editor : String) (levels : Nat) (origin : Pos .editor)
    (shift : Option (Pos .source)) (text : Text) (next : Nat) {d : Document}
    (h : d.info.idle = []) :
    (appendText context editor levels origin shift text next d).document.info.idle = [] := by
  refine appendText_keeps (I := fun _ e => e.info.idle = []) ?_ ?_ levels origin shift text next h
  · intro below _ n e he text f _ origin
    have hchoose : (chooseChild f.kind n e).document.info.idle = [] := by
      obtain ⟨info, children, parked⟩ := e
      rcases chooseChild_cases f.kind n info children parked with
        ⟨c, _, _, heq⟩ | ⟨c, rest, _, _, heq⟩ | ⟨_, e, _, heq⟩ | ⟨_, c, _, heq⟩ <;> rw [heq]
      · rw [info_node] at he ⊢
        simp [he]
      · exact he
      · exact he
      · exact he
    rcases giveFragment_cases (appendText context editor below) editor origin f n e with
      ⟨d₁, n₁, _, hc, heq⟩ | ⟨d₁, n₁, child, grown, n₂, _, hc, _, heq⟩ |
      ⟨d₁, n₁, child, grown, n₂, hc, _, heq⟩ <;> rw [hc] at hchoose <;> rw [heq] <;> cases d₁ <;>
      exact hchoose
  · intro _ e _ _ he _ _ _ _
    cases e
    exact he

/-- What the end of a rebuild does to the documents of pieces. -/
structure Settles (post : Document → Document) : Prop where
  nature_eq : ∀ c, (post c).nature = c.nature
  blocks_eq : ∀ c, (post c).info.blocks = c.info.blocks
  leaf : ∀ c, c.children = [] → (post c).children = []

theorem Shows.settles {editor language : String} {text : Text} {root root' : Document}
    {cs : List Document} (h : Shows editor language text root cs) {post : Document → Document}
    (hpost : Settles post) (hblocks : root'.info.blocks = root.info.blocks)
    (hchildren : root'.children = root.children.map post) :
    Shows editor language text root' (cs.map post) := by
  have hid : ∀ c, (post c).id = c.id := fun c => id_eq_of_nature_eq (hpost.nature_eq c)
  have hnotes : ∀ (fs : List Fragment) (cs : List Document),
      List.zipWith (noteOf editor) fs (cs.map post) = List.zipWith (noteOf editor) fs cs := by
    intro fs cs
    have hnote : (fun f c => noteOf editor f (post c)) = noteOf editor := by
      funext f c
      simp only [noteOf, key, hid]
    rw [List.zipWith_map_right, hnote]
  refine ⟨hchildren ▸ h.children.map post, ?_, ?_⟩
  · rw [List.forall₂_map_right_iff]
    refine h.houses.imp fun f c hc => ⟨?_, hpost.leaf c hc.leaf, ?_⟩
    · rw [hid]
      exact hc.kind
    · rw [hpost.blocks_eq]
      exact hc.blocks
  · obtain ⟨kept, hkept, hroot⟩ := h.blocks
    exact ⟨kept, hkept, by rw [hblocks, hnotes, hroot]⟩

theorem settles_closeExpired : Settles fun c => c.closeExpired.drained where
  nature_eq c := (nature_drained _).trans (nature_closeExpired c)
  blocks_eq c := (blocks_modify _ _ rfl).trans (blocks_closeExpired c)
  leaf c hc := by
    obtain ⟨info, children, parked⟩ := c
    obtain rfl : children = [] := hc
    rfl

theorem settles_emitChanged : Settles fun c => c.emitChanged.drained where
  nature_eq c := (nature_drained _).trans (nature_emitChanged c)
  blocks_eq c := (blocks_modify _ _ rfl).trans (blocks_emitChanged c)
  leaf c hc := by
    obtain ⟨info, children, parked⟩ := c
    obtain rfl : children = [] := hc
    rfl

theorem children_closeExpired {d : Document} (h : d.info.idle = []) :
    d.closeExpired.children = d.children.map fun c => c.closeExpired.drained := by
  obtain ⟨info, children, parked⟩ := d
  rw [info_node] at h
  have hstays : children.filter (isStaying []) = children :=
    List.filter_eq_self.mpr fun c _ => rfl
  rw [closeExpired, children_node, children_node, closeStaying_eq, h, hstays, List.map_map]
  rfl

theorem children_emitChanged (d : Document) :
    d.emitChanged.children = d.children.map fun c => c.emitChanged.drained := by
  obtain ⟨info, children, parked⟩ := d
  rw [emitChanged, children_node, children_node, emitChangedAll_eq, List.map_map]
  rfl

/-- What is left of a tree that shows a text at the end of a rebuild. -/
theorem Shows.finish {editor language : String} {text : Text} {root : Document} {cs : List Document}
    (h : Shows editor language text root cs) (hidle : root.info.idle = []) :
    ∃ cs', Shows editor language text root.closeExpired.emitChanged.drained cs' := by
  have hclosed := h.settles settles_closeExpired (blocks_closeExpired root)
    (children_closeExpired hidle)
  have htold := hclosed.settles settles_emitChanged (blocks_emitChanged root.closeExpired)
    (children_emitChanged root.closeExpired)
  have hkeeps : Settles fun c => c := ⟨fun _ => rfl, fun _ => rfl, fun _ hc => hc⟩
  refine ⟨_, htold.settles hkeeps (blocks_modify _ _ rfl) ?_⟩
  rw [List.map_id']
  cases root.closeExpired.emitChanged
  rfl

end Document

/-! Sessions. -/

/-- A session with the tree of a file that nobody works on. -/
structure Session.AtRest (href language : String) (next : Nat) (s : Session) : Prop where
  context_eq : s.context = usualContext
  attempts : s.policy.maxAttempts ≠ 0
  rebuilding : s.rebuilding = false
  locked : s.locked = false
  levels : 2 ≤ s.levels
  root : s.root.IsRoot href language next

theorem Session.AtRest.acquire_eq {href language : String} {next : Nat} {s : Session}
    (h : s.AtRest href language next) : s.acquire = .ok () := by
  simp [Session.acquire, h.attempts, h.rebuilding, h.locked]

/-- An update succeeds if the text can be taken apart and its pieces can have documents, and then
the tree shows the text. -/
theorem Session.AtRest.update {href language : String} {next : Nat} {s : Session}
    (h : s.AtRest href language next)
    (hread : language = "proto" → Document.Readable href ∨ Document.Unreadable href)
    (editor : String) (text : Text) :
    ∃ s' n' result, s.update [⟨text, editor⟩] next = (s', n', result) ∧
      s'.AtRest href language n' ∧ next ≤ n' ∧
      ((Document.Buildable href language text ∧ result = .ok () ∧
          ∃ cs, Document.Shows editor language text s'.root cs) ∨
        (¬Document.Buildable href language text ∧ ∃ e, result = .error e)) := by
  have hcleared : s.root.clear.IsRoot href language next :=
    h.root.of_nature h.root.steady.clear (Document.nature_clear s.root)
  obtain ⟨hchildren, hblocks, hidle⟩ := h.root.steady.children_clear
  have happended := hcleared.of_nature
    (hcleared.steady.appendText usualContext_siblingsApart editor s.levels Pos.origin none text)
    (Document.appendText_frame usualContext editor s.levels Pos.origin none text next
      s.root.clear).1
  have hle := Document.le_next_appendText usualContext editor s.levels Pos.origin none text next
    s.root.clear
  have hstill := Document.idle_appendText usualContext editor s.levels Pos.origin none text next
    hidle
  unfold Session.update
  rw [h.acquire_eq]
  simp only [h.context_eq, rebuild, appendCells]
  by_cases hbuildable : Document.Buildable href language text
  · obtain ⟨d', n', cs, heq, hshows⟩ :=
      hcleared.append_ok hchildren hblocks editor h.levels hbuildable
    rw [Document.append] at heq
    rw [heq] at happended hle hstill
    simp only [Document.append, heq]
    have hdone := happended.of_nature
      (happended.steady.closeExpired.emitChanged.modify (Document.nature_drained _))
      ((Document.nature_drained _).trans ((Document.nature_emitChanged _).trans
        (Document.nature_closeExpired d')))
    exact ⟨_, n', _, rfl, ⟨rfl, h.attempts, h.rebuilding, h.locked, h.levels, hdone⟩, hle,
      Or.inl ⟨hbuildable, rfl, hshows.finish hstill⟩⟩
  · obtain ⟨d', n', e, heq⟩ := hcleared.append_error hread editor s.levels hbuildable
    rw [Document.append] at heq
    rw [heq] at happended hle
    simp only [Document.append, heq]
    have hleft := happended.of_nature
      (happended.steady.modify (Document.nature_drained d')) (Document.nature_drained d')
    exact ⟨_, n', _, rfl, ⟨rfl, h.attempts, h.rebuilding, h.locked, h.levels, hleft⟩, hle,
      Or.inr ⟨hbuildable, _, rfl⟩⟩

end Polyglot
