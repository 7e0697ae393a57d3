import Polyglot.Proofs.Composition
import Mathlib.Data.String.Basic
import Mathlib.Data.List.Perm.Basic

/-!
Children in the order of their keys. Putting a document among the others keeps the order; the
document is then found under its key, and all others are found as before. The keys of standalone
documents tell their numbers.
-/
namespace Polyglot

namespace Document

def Sorted (ds : List Document) : Prop := ds.Pairwise (·.key < ·.key)

theorem Sorted.insertByKey {ds : List Document} (h : Sorted ds) (d : Document) :
    Sorted (insertByKey d ds) := by
  induction ds with
  | nil => exact List.pairwise_singleton _ _
  | cons other rest ih =>
    obtain ⟨hother, hrest⟩ := List.pairwise_cons.mp h
    rw [Document.insertByKey]
    split
    next hlt =>
      refine List.pairwise_cons.mpr ⟨?_, h⟩
      intro x hx
      rcases List.mem_cons.mp hx with rfl | hx
      · exact hlt
      · exact lt_trans hlt (hother x hx)
    next hlt =>
      split
      next heq =>
        refine List.pairwise_cons.mpr ⟨?_, hrest⟩
        intro x hx
        rw [heq]
        exact hother x hx
      next hne =>
        refine List.pairwise_cons.mpr ⟨?_, ih hrest⟩
        intro x hx
        rcases mem_insertByKey hx with rfl | hx
        · exact lt_of_le_of_ne (not_lt.mp hlt) (Ne.symm hne)
        · exact hother x hx

theorem find?_insertByKey (d : Document) (ds : List Document) (key : String) :
    (insertByKey d ds).find? (·.key = key) =
      if d.key = key then some d else ds.find? (·.key = key) := by
  induction ds with
  | nil =>
    by_cases hkey : d.key = key <;> simp [insertByKey, hkey]
  | cons other rest ih =>
    rw [insertByKey]
    split
    · by_cases hkey : d.key = key <;> simp [hkey]
    · split
      next heq =>
        by_cases hkey : d.key = key
        · simp [hkey]
        · have hother : ¬ other.key = key := heq ▸ hkey
          simp [hkey, hother]
      next hne =>
        by_cases hother : other.key = key
        · have hkey : ¬ d.key = key := fun h => hne (h.trans hother.symm)
          simp [hother, hkey]
        · simp [hother, ih]

theorem Sorted.eq_of_key_eq {ds : List Document} (h : Sorted ds) {c d : Document} (hc : c ∈ ds)
    (hd : d ∈ ds) (hkey : c.key = d.key) : c = d := by
  induction ds with
  | nil => simp at hc
  | cons other rest ih =>
    obtain ⟨hother, hrest⟩ := List.pairwise_cons.mp h
    rcases List.mem_cons.mp hc with rfl | hc
    · rcases List.mem_cons.mp hd with rfl | hd
      · rfl
      · exact absurd hkey (ne_of_lt (hother d hd))
    · rcases List.mem_cons.mp hd with heq | hd
      · rw [heq] at hkey
        exact absurd hkey.symm (ne_of_lt (hother c hc))
      · exact ih hrest hc hd

theorem Sorted.find?_eq_some {ds : List Document} (h : Sorted ds) {c : Document} (hc : c ∈ ds) :
    ds.find? (·.key = c.key) = some c := by
  cases hfind : ds.find? (·.key = c.key) with
  | none =>
    have := List.find?_eq_none.mp hfind c hc
    simp at this
  | some d =>
    have hkey : d.key = c.key := by simpa using List.find?_some hfind
    rw [h.eq_of_key_eq (List.mem_of_find?_eq_some hfind) hc hkey]

theorem Sorted.exists_split {ds : List Document} (h : Sorted ds) {c d : Document} (hc : c ∈ ds)
    (hkey : d.key = c.key) :
    ∃ pre post, ds = pre ++ c :: post ∧ Document.insertByKey d ds = pre ++ d :: post := by
  induction ds with
  | nil => simp at hc
  | cons other rest ih =>
    obtain ⟨hother, hrest⟩ := List.pairwise_cons.mp h
    rw [Document.insertByKey]
    rcases List.mem_cons.mp hc with rfl | hc
    · rw [if_neg (by rw [hkey]; exact lt_irrefl _), if_pos hkey]
      exact ⟨[], rest, rfl, rfl⟩
    · have hlt := hother c hc
      rw [if_neg (by rw [hkey]; exact not_lt_of_gt hlt), if_neg (by rw [hkey]; exact ne_of_gt hlt)]
      obtain ⟨pre, post, rfl, hinsert⟩ := ih hrest hc
      exact ⟨other :: pre, post, rfl, by rw [hinsert]; rfl⟩

/-- A document that takes the place of one with its key. -/
theorem Sorted.map_insertByKey {α : Type} (f : Document → α) {ds : List Document} (h : Sorted ds)
    {c d : Document} (hc : c ∈ ds) (hkey : d.key = c.key) (hf : f d = f c) :
    (Document.insertByKey d ds).map f = ds.map f := by
  obtain ⟨pre, post, rfl, hinsert⟩ := h.exists_split hc hkey
  rw [hinsert, List.map_append, List.map_append, List.map_cons, List.map_cons, hf]

/-- Of two documents with one key the later stays. -/
theorem insertByKey_insertByKey {d d' : Document} (h : d'.key = d.key) (ds : List Document) :
    insertByKey d' (insertByKey d ds) = insertByKey d' ds := by
  induction ds with
  | nil => simp [insertByKey, h]
  | cons other rest ih =>
    rw [insertByKey, insertByKey, h]
    split
    · simp [insertByKey, h]
    · split
      · simp [insertByKey, h]
      · rename_i hlt hne
        rw [insertByKey, h, if_neg hlt, if_neg hne, ih]

theorem perm_insertByKey {d : Document} {ds : List Document} (h : ∀ c ∈ ds, c.key ≠ d.key) :
    (insertByKey d ds).Perm (d :: ds) := by
  induction ds with
  | nil => exact List.Perm.refl _
  | cons other rest ih =>
    rw [insertByKey]
    split
    · exact List.Perm.refl _
    · rw [if_neg (Ne.symm (h other List.mem_cons_self))]
      have hrest := ih (fun c hc => h c (List.mem_cons_of_mem other hc))
      exact (hrest.cons other).trans (List.Perm.swap d other rest)

theorem mem_insertByKey_self (d : Document) (ds : List Document) : d ∈ insertByKey d ds := by
  have h := find?_insertByKey d ds d.key
  rw [if_pos rfl] at h
  exact List.mem_of_find?_eq_some h

theorem mem_insertByKey_of_ne {c d : Document} {ds : List Document} (hc : c ∈ ds)
    (hkey : c.key ≠ d.key) : c ∈ insertByKey d ds := by
  induction ds with
  | nil => simp at hc
  | cons other rest ih =>
    rw [insertByKey]
    split
    · exact List.mem_cons_of_mem d hc
    · split
      next heq =>
        rcases List.mem_cons.mp hc with rfl | hc
        · exact absurd heq.symm hkey
        · exact List.mem_cons_of_mem d hc
      next hne =>
        rcases List.mem_cons.mp hc with rfl | hc
        · exact List.mem_cons_self
        · exact List.mem_cons_of_mem other (ih hc)

theorem Sorted.mem_insertByKey_iff {c d : Document} {ds : List Document} (h : Sorted ds) :
    c ∈ Document.insertByKey d ds ↔ c = d ∨ c ∈ ds ∧ c.key ≠ d.key := by
  constructor
  · intro hc
    rcases mem_insertByKey hc with rfl | hold
    · exact Or.inl rfl
    · by_cases hkey : c.key = d.key
      · exact Or.inl ((h.insertByKey d).eq_of_key_eq hc (mem_insertByKey_self d ds) hkey)
      · exact Or.inr ⟨hold, hkey⟩
  · rintro (rfl | ⟨hold, hkey⟩)
    · exact mem_insertByKey_self c ds
    · exact mem_insertByKey_of_ne hold hkey

end Document

/-! Keys. -/

namespace Identity

/-- The number of a standalone document can be read off its key, whatever follows. -/
theorem takeWhile_keyOf {kind : Kind} (hkind : kind.standalone = true) (number : Nat)
    (rest : List Char) :
    ((keyOf kind number).toList ++ rest).takeWhile Char.isDigit = Nat.toDigits 10 number := by
  have hkey : (keyOf kind number).toList ++ rest =
      Nat.toDigits 10 number ++ '(' :: (kind.language.toList ++ ")".toList ++ rest) := by
    simp only [keyOf, hkind, if_true, String.toList_append, Nat.toString_eq_repr, Nat.toList_repr,
      List.append_assoc]
    rfl
  rw [hkey, List.takeWhile_append_of_pos]
  · simp
  · intro c hc
    exact Nat.isDigit_of_mem_toDigits (by decide) (by decide) hc

theorem toDigits_injective {m n : Nat} (h : Nat.toDigits 10 m = Nat.toDigits 10 n) : m = n := by
  rw [← Nat.ofDigitChars_toDigits (by decide : 1 < 10) (by decide) (n := m), h,
    Nat.ofDigitChars_toDigits (by decide) (by decide)]

theorem number_eq_of_keyOf_eq {kind kind' : Kind} {m n : Nat} (hkind : kind.standalone = true)
    (hkind' : kind'.standalone = true) (h : keyOf kind m = keyOf kind' n) : m = n := by
  refine toDigits_injective ?_
  rw [← takeWhile_keyOf hkind m [], ← takeWhile_keyOf hkind' n [], h]

end Identity

end Polyglot
