import Polyglot.Proofs.IdPaths
import Polyglot.Proofs.Numbers
import Polyglot.Proofs.RoundTrip

/-!
Addresses of documents. A document below the root has the address of the file, its path of keys and
its extension as its own address. Where languages and extensions are plain words, no path is there
twice in a tree, parked documents included, and the texts of all addresses differ; so a document is
found by its address whenever reading keeps these texts apart.
-/
namespace Polyglot

/-- Letters, digits and the underscore. -/
def isWordChar (c : Char) : Bool := c.isAlphanum || c == '_'

/-- All languages and extensions that some extractor finds are words. -/
def Context.WordNames (context : Context) : Prop :=
  ∀ kind, context.Registers kind →
    kind.language.toList.all isWordChar = true ∧ kind.extension.toList.all isWordChar = true

theorem ne_of_isWordChar {c mark : Char} (h : isWordChar c = true)
    (hmark : isWordChar mark = false) : c ≠ mark := by
  rintro rfl
  rw [h] at hmark
  cases hmark

namespace Context.WordNames

variable {context : Context} {kind : Kind}

theorem plainNames (h : context.WordNames) : context.PlainNames := by
  intro kind hkind c hc
  have hword := List.all_eq_true.mp (h kind hkind).1 c hc
  exact ⟨ne_of_isWordChar hword (by decide), ne_of_isWordChar hword (by decide),
    ne_of_isWordChar hword (by decide)⟩

theorem dot_not_mem_extension (h : context.WordNames) (hkind : context.Registers kind) :
    '.' ∉ kind.extension.toList := by
  intro hmem
  exact ne_of_isWordChar (List.all_eq_true.mp (h kind hkind).2 '.' hmem) (by decide) rfl

end Context.WordNames

/-- A text is cut in one way in front of its last mark. -/
theorem eq_of_append_mark_eq {α : Type} {mark : α} {front front' rest rest' : List α}
    (hrest : mark ∉ rest) (hrest' : mark ∉ rest')
    (h : front ++ mark :: rest = front' ++ mark :: rest') : front = front' := by
  rcases List.append_eq_append_iff.mp h with ⟨more, rfl, hmore⟩ | ⟨more, rfl, hmore⟩
  · cases more with
    | nil => simp
    | cons c more =>
      obtain ⟨-, rfl⟩ := List.cons.inj hmore
      simp at hrest
  · cases more with
    | nil => simp
    | cons c more =>
      obtain ⟨-, rfl⟩ := List.cons.inj hmore
      simp at hrest'

namespace Document

/-! All documents of a tree. -/

mutual

/-- The document and all that it owns, parked documents included. -/
def owned : Document → List Document
  | node info children parked => node info children parked :: (ownedAll children ++ ownedAll parked)

def ownedAll : List Document → List Document
  | [] => []
  | d :: rest => d.owned ++ ownedAll rest

end

theorem ownedAll_eq (ds : List Document) : ownedAll ds = ds.flatMap owned := by
  induction ds with
  | nil => rfl
  | cons d rest ih => rw [ownedAll, ih, List.flatMap_cons]

theorem owned_eq (d : Document) : d.owned = d :: d.offspring.flatMap owned := by
  obtain ⟨info, children, parked⟩ := d
  rw [owned, ownedAll_eq, ownedAll_eq, ← List.flatMap_append]
  rfl

theorem mem_owned {d e : Document} : e ∈ d.owned ↔ d.Owns e := by
  induction d using offspring_induction with
  | step d ih =>
    rw [owned_eq, owns_iff, List.mem_cons, List.mem_flatMap]
    exact or_congr_right (exists_congr fun c => and_congr_right fun hc => ih c hc)

theorem numbers_eq_map_owned (d : Document) : d.numbers = d.owned.map (·.id.number) := by
  induction d using offspring_induction with
  | step d ih =>
    have hbelow : d.offspring.flatMap numbers =
        (d.offspring.flatMap owned).map (·.id.number) := by
      rw [List.map_flatMap]
      exact List.flatMap_congr ih
    obtain ⟨info, children, parked⟩ := d
    rw [numbers_node, owned_eq, List.map_cons, ← hbelow]
    rfl

theorem mem_walk_cases {d e : Document} (h : e ∈ d.walk) : e = d ∨ e ∈ walkAll d.children := by
  obtain ⟨info, children, parked⟩ := d
  exact List.mem_cons.mp h

section

variable {context : Context} {next : Nat} {d e e' : Document}

theorem Numbered.nodup_owned (h : d.Numbered next) : d.owned.Nodup := by
  have hnodup := h.nodup
  rw [numbers_eq_map_owned] at hnodup
  exact hnodup.of_map _

theorem Steady.nodup_idPaths (hplain : context.PlainNames) (h : d.Steady context next)
    (hnodup : d.owned.Nodup) : (d.owned.map idPath).Nodup :=
  hnodup.map_on fun _ hx _ hy =>
    h.eq_of_idPath_eq hplain (mem_owned.mp hx) (mem_owned.mp hy)

/-- A key leads to the child that has it. -/
theorem Sound.child?_eq_some_iff (h : d.Sound context next) {key : String} {c : Document} :
    d.child? key = some c ↔ c ∈ d.children ∧ c.key = key := by
  constructor
  · intro hfind
    exact ⟨List.mem_of_find?_eq_some hfind, by simpa using List.find?_some hfind⟩
  · rintro ⟨hc, rfl⟩
    exact h.sorted.find?_eq_some hc

/-! Texts of addresses. -/

/-- The text that is read as the address of a document below the root. -/
def addressText (d : Document) : String :=
  d.id.path.href ++ "." ++ d.idPath ++ "." ++ d.id.kind.extension

/-- Reading gives different texts of a tree different addresses, none of them the root's. -/
structure ReadsApart (tree : Document) : Prop where
  distinct : ∀ d ∈ walkAll tree.children, ∀ e ∈ walkAll tree.children,
    d.addressText ≠ e.addressText → ∀ u v, Url.parse d.addressText = .ok u →
      Url.parse e.addressText = .ok v → u.href ≠ v.href
  fresh : ∀ d ∈ walkAll tree.children, ∀ u, Url.parse d.addressText = .ok u →
    u.href ≠ tree.uri.href

theorem Steady.path_of_owns (h : d.Steady context next) (he : d.Owns e) :
    e.id.path = d.id.path := by
  induction d using offspring_induction with
  | step d ih =>
    rcases owns_iff.mp he with rfl | ⟨c, hc, he⟩
    · rfl
    · exact (ih c hc (h.of_mem_offspring hc) he).trans (h.self.derives hc).path

/-- Whoever stands below another document is derived from an owner of its own. -/
theorem exists_owner (he : d.Owns e) (hne : e ≠ d) : ∃ p, d.Owns p ∧ e ∈ p.offspring := by
  induction d using offspring_induction with
  | step d ih =>
    obtain ⟨c, hc, hce⟩ := (owns_iff.mp he).resolve_left hne
    by_cases hsame : e = c
    · exact ⟨d, Owns.self d, hsame ▸ hc⟩
    · obtain ⟨p, hp, hep⟩ := ih c hc hce hsame
      exact ⟨p, owns_iff.mpr (Or.inr ⟨c, hc, hp⟩), hep⟩

/-- Below the root a document has the address that its text is read as. -/
theorem Steady.parse_addressText (h : d.Steady context next) (he : d.Owns e) (hne : e ≠ d) :
    context.Registers e.id.kind ∧ Url.parse e.addressText = .ok e.uri := by
  obtain ⟨p, hp, hep⟩ := exists_owner he hne
  have hderives := (h p hp).derives hep
  refine ⟨hderives.finds.registers, ?_⟩
  have huri := hderives.uri
  rw [← hderives.path] at huri
  exact huri

/-- The text of an address tells the path of its document. -/
theorem idPath_eq_of_addressText_eq (hpath : e.id.path = e'.id.path)
    (hdot : '.' ∉ e.id.kind.extension.toList) (hdot' : '.' ∉ e'.id.kind.extension.toList)
    (h : e.addressText = e'.addressText) : e.idPath = e'.idPath := by
  have hlist := congrArg String.toList h
  simp only [addressText, hpath, String.toList_append, show ".".toList = ['.'] from rfl,
    List.append_assoc, List.append_cancel_left_eq, List.cons_append, List.cons.injEq, true_and]
    at hlist
  exact String.toList_inj.mp (eq_of_append_mark_eq hdot hdot' hlist)

/-- Where reading keeps texts apart, the documents of a tree have different addresses. -/
theorem Steady.eq_of_href_eq (hwords : context.WordNames) (h : d.Steady context next)
    (hread : d.ReadsApart) (he : e ∈ d.walk) (he' : e' ∈ d.walk)
    (hhref : e.uri.href = e'.uri.href) : e = e' := by
  by_cases hroot : e = d
  · by_cases hroot' : e' = d
    · rw [hroot, hroot']
    · have hbelow' := (mem_walk_cases he').resolve_left hroot'
      have hparse' := (h.parse_addressText (owns_of_mem_walk he') hroot').2
      exact absurd (hroot ▸ hhref.symm) (hread.fresh e' hbelow' _ hparse')
  · have hbelow := (mem_walk_cases he).resolve_left hroot
    obtain ⟨hkind, hparse⟩ := h.parse_addressText (owns_of_mem_walk he) hroot
    by_cases hroot' : e' = d
    · exact absurd (hroot' ▸ hhref) (hread.fresh e hbelow _ hparse)
    · have hbelow' := (mem_walk_cases he').resolve_left hroot'
      obtain ⟨hkind', hparse'⟩ := h.parse_addressText (owns_of_mem_walk he') hroot'
      have htext : e.addressText = e'.addressText := by
        by_contra hne
        exact hread.distinct e hbelow e' hbelow' hne _ _ hparse hparse' hhref
      have hpath : e.id.path = e'.id.path :=
        (h.path_of_owns (owns_of_mem_walk he)).trans (h.path_of_owns (owns_of_mem_walk he')).symm
      exact h.eq_of_idPath_eq hwords.plainNames (owns_of_mem_walk he) (owns_of_mem_walk he')
        (idPath_eq_of_addressText_eq hpath (hwords.dot_not_mem_extension hkind)
          (hwords.dot_not_mem_extension hkind') htext)

theorem find?_eq_some_of_href (hd : e ∈ d.walk)
    (hunique : ∀ x ∈ d.walk, x.uri.href = e.uri.href → x = e) : d.find? e.uri = some e := by
  unfold find?
  cases hfind : d.walk.find? (·.uri.href = e.uri.href) with
  | none => exact absurd (List.find?_eq_none.mp hfind e hd) (by simp)
  | some x =>
    have hhref : x.uri.href = e.uri.href := by simpa using List.find?_some hfind
    rw [hunique x (List.mem_of_find?_eq_some hfind) hhref]

end

/-- In every tree that can arise with words for names, no two documents have the same path, parked
ones included; a key leads to the child that has it, whose path ends with the key; and the address
of a document of the tree leads to this document, if reading keeps the texts of addresses apart. -/
theorem addresses_unique {context : Context} {next : Nat} {tree : Document}
    (hwords : context.WordNames) (h : Reachable context next tree) :
    (tree.owned.map idPath).Nodup ∧
      (∀ p ∈ tree.owned,
        (∀ key c, p.child? key = some c ↔ c ∈ p.children ∧ c.key = key) ∧
        ∀ c ∈ p.offspring, c.idPath = p.idPath ++ "-" ++ c.key) ∧
      (tree.ReadsApart → ∀ d ∈ tree.walk, tree.find? d.uri = some d) := by
  have hapart := hwords.plainNames.siblingsApart
  have hsteady := steady_of_reachable hapart h
  refine ⟨hsteady.nodup_idPaths hwords.plainNames (numbered_of_reachable hapart h).nodup_owned,
    ?_, ?_⟩
  · intro p hp
    have hsound := hsteady p (mem_owned.mp hp)
    exact ⟨fun key c => hsound.child?_eq_some_iff, fun c hc => (hsound.derives hc).idPath⟩
  · intro hread d hd
    exact find?_eq_some_of_href hd fun x hx hhref =>
      hsteady.eq_of_href_eq hwords hread hx hd hhref

/-- Different addresses are all that is asked of reading. -/
theorem Steady.readsApart_of_nodup {context : Context} {next : Nat} {tree : Document}
    (h : tree.Steady context next) (hnodup : (tree.walk.map (·.uri.href)).Nodup) :
    tree.ReadsApart := by
  have hwalk : tree.walk = tree :: walkAll tree.children := by
    obtain ⟨info, children, parked⟩ := tree
    rfl
  rw [hwalk, List.map_cons, List.nodup_cons] at hnodup
  have huri : ∀ d ∈ walkAll tree.children, ∀ u, Url.parse d.addressText = .ok u →
      u = d.uri ∧ d.uri.href ≠ tree.uri.href := by
    intro d hd u hu
    have hne : d.uri.href ≠ tree.uri.href := fun heq =>
      hnodup.1 (heq ▸ List.mem_map_of_mem hd)
    have howns : tree.Owns d := owns_of_mem_walk (hwalk ▸ List.mem_cons_of_mem tree hd)
    have hparse := (h.parse_addressText howns fun heq => hne (heq ▸ rfl)).2
    exact ⟨Except.ok.inj (hu.symm.trans hparse), hne⟩
  constructor
  · intro d hd e he hne u v hu hv hhref
    rw [(huri d hd u hu).1, (huri e he v hv).1] at hhref
    exact hne (congrArg addressText (List.inj_on_of_nodup_map hnodup.2 hd he hhref))
  · intro d hd u hu
    rw [(huri d hd u hu).1]
    exact (huri d hd u hu).2

/-- A file whose lines behind the first are one piece of code, as is one letter. -/
def pooledSession : Session where
  context :=
    { extractors := ⟨[("python", tailExtractor),
        ("python", letterExtractor 'z' ⟨"word", "txt", true⟩)]⟩ }
  policy := {}
  root := tailRoot

/-- The same file with a letter in the place of the lines, whose document is parked. -/
def pooledTree : Document :=
  ((pooledSession.update [⟨"x\ny".toList, "cell"⟩] 1).1.update [⟨"z".toList, "cell"⟩] 2).1.root

/-- A parked document keeps its path, and those in use are found by their addresses. -/
theorem addresses_unique_pooled :
    pooledTree.owned.map idPath = ["python", "python-2(word)", "python-1(cel)"] ∧
      (pooledTree.owned.map idPath).Nodup ∧
      ∀ d ∈ pooledTree.walk, pooledTree.find? d.uri = some d := by
  have hwords : pooledSession.context.WordNames := by
    rintro kind ⟨entry, hentry, rfl⟩
    rcases List.mem_cons.mp hentry with rfl | hentry
    · decide +kernel
    · obtain rfl := List.mem_singleton.mp hentry
      decide +kernel
  have hbefore : Reachable pooledSession.context 2
      (pooledSession.update [⟨"x\ny".toList, "cell"⟩] 1).1.root :=
    (reachable_update (s := pooledSession) (Reachable.root "python" _ "py" 0) _).wait
      (show (pooledSession.update [⟨"x\ny".toList, "cell"⟩] 1).2.1 ≤ 2 by decide +kernel)
  have hreach : Reachable pooledSession.context _ pooledTree :=
    reachable_update (s := (pooledSession.update [⟨"x\ny".toList, "cell"⟩] 1).1) hbefore _
  have hread : pooledTree.ReadsApart :=
    (steady_of_reachable hwords.plainNames.siblingsApart hreach).readsApart_of_nodup
      (by decide +kernel)
  obtain ⟨hpaths, -, hfind⟩ := addresses_unique hwords hreach
  exact ⟨by decide +kernel, hpaths, hfind hread⟩

end Document

end Polyglot
