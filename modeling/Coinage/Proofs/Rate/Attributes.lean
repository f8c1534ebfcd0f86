import Coinage.Proofs.Text.Keys
import Coinage.Rate.Context
/-!
# Attributes by key

What a collection of attributes holds is seen through `Attributes.get?`: what an entry more and what a second
collection change is said for each key (`get?_insert`, `get?_merge`), and collections that hold the same are equal
(`ext_get?`), since their entries stand in one order.
-/

namespace Coinage

theorem lookup_insertEntry (key value other : String) (entries : List (String × String)) :
    (insertEntry key value entries).lookup other = if other = key then some value else entries.lookup other := by
  induction entries with
  | nil => exact lookup_cons_eq_ite other key value []
  | cons e rest ih =>
    obtain ⟨k, v⟩ := e
    rw [insertEntry]
    by_cases hlt : key < k
    · rw [if_pos hlt, lookup_cons_eq_ite]
    · rw [if_neg hlt]
      by_cases heq : key = k
      · rw [if_pos heq, lookup_cons_eq_ite, lookup_cons_eq_ite, heq]
        split_ifs <;> rfl
      · rw [if_neg heq, lookup_cons_eq_ite, lookup_cons_eq_ite, ih]
        split_ifs with hk hkey
        · exact absurd (hkey.symm.trans hk) heq
        all_goals rfl

theorem Ascending.lookup_eq_some_iff {entries : List (String × String)} (h : Ascending entries) {key value : String} :
    entries.lookup key = some value ↔ (key, value) ∈ entries := by
  induction entries with
  | nil => simp
  | cons e rest ih =>
    obtain ⟨k, v⟩ := e
    obtain ⟨hfirst, hrest⟩ := List.pairwise_cons.1 h
    rw [lookup_cons_eq_ite]
    split_ifs with hkey
    · subst hkey
      have hbehind : (key, value) ∉ rest := fun hmem => String.lt_irrefl key (hfirst _ hmem)
      simp [hbehind, eq_comm]
    · rw [ih hrest]
      simp [hkey]

namespace Attributes

variable {a b : Attributes} {key value : String}

instance : Membership String Attributes :=
  ⟨fun a key => key ∈ a.entries.map Prod.fst⟩

theorem get?_eq_some_iff : a.get? key = some value ↔ (key, value) ∈ a.entries :=
  a.ascending.lookup_eq_some_iff

theorem mem_iff_exists : key ∈ a ↔ ∃ value, a.get? key = some value := by
  show key ∈ a.entries.map Prod.fst ↔ _
  simp [get?_eq_some_iff]

theorem get?_eq_none_iff : a.get? key = none ↔ key ∉ a := by
  rw [mem_iff_exists, ← Option.isSome_iff_exists, Option.not_isSome_iff_eq_none]

/-- Collections that hold the same for every key are equal. -/
theorem ext_get? (h : ∀ key, a.get? key = b.get? key) : a = b := by
  have hmem : ∀ e, e ∈ a.entries ↔ e ∈ b.entries := by
    intro ⟨key, value⟩
    rw [← get?_eq_some_iff, ← get?_eq_some_iff, h]
  have hirrefl : Std.Irrefl fun e e' : String × String => e.1 < e'.1 := ⟨fun e => String.lt_irrefl e.1⟩
  have hantisymm : Std.Antisymm fun e e' : String × String => e.1 < e'.1 :=
    ⟨fun _ _ hlt hgt => absurd hgt (String.lt_asymm hlt)⟩
  have hentries : a.entries = b.entries := List.Pairwise.eq_of_mem_iff a.ascending b.ascending hmem
  obtain ⟨entries, hascending⟩ := a
  cases hentries
  rfl

@[simp]
theorem get?_empty (key : String) : empty.get? key = none := rfl

@[simp]
theorem get?_insert (a : Attributes) (key value other : String) :
    (a.insert key value).get? other = if other = key then some value else a.get? other :=
  lookup_insertEntry key value other a.entries

theorem get?_foldl_insert {entries : List (String × String)} (h : Ascending entries) (a : Attributes) (key : String) :
    (entries.foldl (fun a e => a.insert e.1 e.2) a).get? key = (entries.lookup key).or (a.get? key) := by
  induction entries generalizing a with
  | nil => rfl
  | cons e rest ih =>
    obtain ⟨k, v⟩ := e
    obtain ⟨hfirst, hrest⟩ := List.pairwise_cons.1 h
    rw [List.foldl_cons, ih hrest, get?_insert, lookup_cons_eq_ite]
    split_ifs with hkey
    · subst hkey
      have hbehind : rest.lookup key = none := by
        apply List.lookup_eq_none_iff.2
        intro e he
        have hlt : key < e.1 := hfirst e he
        exact bne_iff_ne.2 fun heq => String.lt_irrefl key (heq ▸ hlt)
      rw [hbehind, Option.none_or, Option.some_or]
    · rfl

/-- The second of two collections counts more. -/
@[simp]
theorem get?_merge (a b : Attributes) (key : String) : (a.merge b).get? key = (b.get? key).or (a.get? key) :=
  get?_foldl_insert b.ascending a key

theorem mem_merge : key ∈ a.merge b ↔ key ∈ b ∨ key ∈ a := by
  simp only [mem_iff_exists, ← Option.isSome_iff_exists, get?_merge, Option.isSome_or, Bool.or_eq_true]

/-- What was merged into a collection once is merged into it once more to no effect. -/
theorem merge_merge (a b : Attributes) : a.merge (a.merge b) = a.merge b := by
  apply ext_get?
  intro key
  rw [get?_merge, get?_merge, Option.or_assoc, Option.or_self]

end Attributes

end Coinage
