import Mathlib.Data.List.Nodup
import Mathlib.Data.List.Sort
/-!
# Entries under keys

Entries are kept in lists and looked up from the front, so the first entry of a key is the one that counts. A key is
among those of the entries just where it is found.
-/

namespace Coinage

variable {β : Type} {key : String}

theorem lookup_cons_eq_ite (key k : String) (v : β) (entries : List (String × β)) :
    ((k, v) :: entries).lookup key = if key = k then some v else entries.lookup key := by
  by_cases h : key = k
  · rw [if_pos h, h, List.lookup_cons_self]
  · rw [if_neg h, List.lookup_cons, beq_false_of_ne h]

theorem mem_keys_iff {entries : List (String × β)} :
    key ∈ entries.map Prod.fst ↔ ∃ v, entries.lookup key = some v := by
  rw [← Option.isSome_iff_exists, List.lookup_isSome_iff, List.mem_map]
  simp only [beq_iff_eq, eq_comm (b := key)]

theorem mem_of_lookup {entries : List (String × β)} {v : β} (h : entries.lookup key = some v) : (key, v) ∈ entries := by
  obtain ⟨before, after, hsplit, -⟩ := List.lookup_eq_some_iff.1 h
  rw [hsplit]
  exact List.mem_append_right _ List.mem_cons_self

/-- Words that differ ascend strictly once they are sorted. -/
theorem pairwise_lt_mergeSort {words : List String} (h : words.Nodup) :
    (words.mergeSort fun a b => decide (a ≤ b)).Pairwise (· < ·) := by
  have hsorted : (words.mergeSort fun a b => decide (a ≤ b)).Pairwise fun a b => decide (a ≤ b) = true :=
    List.pairwise_mergeSort (by simpa using fun a b c => String.le_trans) (by simpa using String.le_total) words
  have hnodup := (List.mergeSort_perm words fun a b => decide (a ≤ b)).nodup_iff.2 h
  refine (hsorted.and hnodup).imp fun ⟨hle, hne⟩ => ?_
  exact Std.lt_of_le_of_ne (of_decide_eq_true hle) hne

end Coinage
