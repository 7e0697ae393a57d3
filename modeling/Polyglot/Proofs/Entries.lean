import Polyglot.Diagnostic.Aggregator
import Mathlib.Data.List.Nodup
import Mathlib.Data.List.Perm.Basic

/-!
Maps as lists of pairs. An entry that is set is found, all others are found as before, and as long
as keys are set and erased in this way only, no key stands twice.
-/
namespace Polyglot.Aggregator

variable {α β : Type} [DecidableEq α] {key other : α} {value : β} {entries : List (α × β)}

theorem lookup_erase_of_ne (h : other ≠ key) (entries : List (α × β)) :
    lookup other (erase key entries) = lookup other entries := by
  have hpred : (fun a : α × β => decide (decide (a.1 ≠ key) = true ∧ decide (a.1 = other) = true)) =
      fun a => decide (a.1 = other) := by
    funext entry
    by_cases hkey : entry.1 = other
    · simp [hkey, h]
    · simp [hkey]
  rw [lookup, erase, List.find?_filter, hpred, lookup]

theorem lookup_insert_of_ne (h : other ≠ key) (value : β) (entries : List (α × β)) :
    lookup other (insert key value entries) = lookup other entries := by
  rw [← lookup_erase_of_ne h entries, insert, lookup, List.find?_append]
  have habsent : [(key, value)].find? (·.1 = other) = none := by simp [Ne.symm h]
  rw [habsent, Option.or_none, lookup]

theorem mem_of_lookup (h : lookup key entries = some value) : (key, value) ∈ entries := by
  obtain ⟨entry, hfind, rfl⟩ := Option.map_eq_some_iff.mp h
  have hkey : entry.1 = key := by simpa using List.find?_some hfind
  rw [← hkey]
  exact List.mem_of_find?_eq_some hfind

theorem lookup_eq_none_iff : lookup key entries = none ↔ key ∉ entries.map (·.1) := by
  rw [lookup, Option.map_eq_none_iff, List.find?_eq_none]
  constructor
  · intro h hmem
    obtain ⟨entry, hentry, hkey⟩ := List.mem_map.mp hmem
    exact h entry hentry (by simpa using hkey)
  · intro h entry hentry hkey
    exact h (List.mem_map.mpr ⟨entry, hentry, by simpa using hkey⟩)

theorem lookup_of_mem (hkeys : (entries.map (·.1)).Nodup) (h : (key, value) ∈ entries) :
    lookup key entries = some value := by
  induction entries with
  | nil => simp at h
  | cons entry rest ih =>
    rw [List.map_cons, List.nodup_cons] at hkeys
    rw [lookup, List.find?_cons]
    rcases List.mem_cons.mp h with rfl | hrest
    · simp
    · have hne : entry.1 ≠ key := by
        intro heq
        rw [heq] at hkeys
        exact hkeys.1 (List.mem_map_of_mem hrest)
      simp only [hne, decide_false]
      exact ih hkeys.2 hrest

theorem nodup_erase (h : (entries.map (·.1)).Nodup) (key : α) :
    ((erase key entries).map (·.1)).Nodup :=
  h.sublist (List.filter_sublist.map _)

theorem nodup_insert (h : (entries.map (·.1)).Nodup) (key : α) (value : β) :
    ((insert key value entries).map (·.1)).Nodup := by
  rw [insert, List.map_append, List.nodup_append]
  refine ⟨nodup_erase h key, List.nodup_singleton _, ?_⟩
  intro a ha b hb
  rw [List.map_singleton, List.mem_singleton] at hb
  obtain ⟨entry, hentry, rfl⟩ := List.mem_map.mp ha
  rw [hb]
  simpa using (List.mem_filter.mp hentry).2

theorem mem_keys_insert {a : α} :
    a ∈ (insert key value entries).map (·.1) ↔ a = key ∨ a ∈ entries.map (·.1) := by
  rw [← not_iff_not, not_or, ← lookup_eq_none_iff, ← lookup_eq_none_iff]
  by_cases h : a = key
  · simp [h, lookup_insert_self]
  · simp [h, lookup_insert_of_ne h]

theorem erase_eq_self (h : lookup key entries = none) : erase key entries = entries := by
  rw [erase, List.filter_eq_self]
  intro entry hentry
  have hne : entry.1 ≠ key := fun heq =>
    lookup_eq_none_iff.mp h (heq ▸ List.mem_map_of_mem hentry)
  simpa using hne

theorem perm_of_lookup (hkeys : (entries.map (·.1)).Nodup) (h : lookup key entries = some value) :
    entries.Perm ((key, value) :: erase key entries) := by
  induction entries with
  | nil => cases h
  | cons entry rest ih =>
    rw [List.map_cons, List.nodup_cons] at hkeys
    by_cases heq : entry.1 = key
    · have hentry : entry = (key, value) := by
        rcases List.mem_cons.mp (mem_of_lookup h) with hsame | hrest
        · exact hsame.symm
        · rw [heq] at hkeys
          exact absurd (List.mem_map_of_mem hrest) hkeys.1
      have hrest : erase key rest = rest := erase_eq_self (lookup_eq_none_iff.mpr (heq ▸ hkeys.1))
      have herase : erase key (entry :: rest) = rest := by
        rw [erase, List.filter_cons_of_neg (by simp [heq])]
        exact hrest
      rw [herase, hentry]
    · have hlookup : lookup key rest = some value := by
        rw [lookup, List.find?_cons] at h
        simp only [heq, decide_false] at h
        exact h
      have herase : erase key (entry :: rest) = entry :: erase key rest := by
        rw [erase, List.filter_cons_of_pos (by simp [heq])]
        rfl
      rw [herase]
      exact ((ih hkeys.2 hlookup).cons entry).trans (List.Perm.swap _ _ _)

/-! Other values under the same keys. -/

section

variable {γ : Type} (f : β → γ)

theorem lookup_map_snd (key : α) (entries : List (α × β)) :
    lookup key (entries.map fun entry => (entry.1, f entry.2)) = (lookup key entries).map f := by
  rw [lookup, lookup, List.find?_map, Option.map_map, Option.map_map]
  rfl

theorem erase_map_snd (key : α) (entries : List (α × β)) :
    erase key (entries.map fun entry => (entry.1, f entry.2)) =
      (erase key entries).map fun entry => (entry.1, f entry.2) := by
  rw [erase, erase, List.filter_map]
  rfl

theorem insert_map_snd (key : α) (value : β) (entries : List (α × β)) :
    insert key (f value) (entries.map fun entry => (entry.1, f entry.2)) =
      (insert key value entries).map fun entry => (entry.1, f entry.2) := by
  rw [insert, insert, erase_map_snd, List.map_append]
  rfl

end

end Polyglot.Aggregator
