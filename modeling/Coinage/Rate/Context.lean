import Coinage.Instant.Written
/-!
# Where a rate comes from

The provider of a rate, its kind, the instant it was valid at and free attributes. The attributes are
kept in ascending order of their keys, each key once, so two collections with the same entries are
equal.
-/

namespace Coinage

/-- How a rate was obtained. -/
inductive RateType where
  | any
  | deferred
  | historic
  | realtime
  | other
deriving DecidableEq, Repr

namespace RateType

def all : List RateType := [any, deferred, historic, realtime, other]

def name : RateType → String
  | any => "ANY"
  | deferred => "DEFERRED"
  | historic => "HISTORIC"
  | realtime => "REALTIME"
  | other => "OTHER"

def ofName? (s : String) : Option RateType :=
  all.find? fun t => t.name == s

instance : ToString RateType := ⟨name⟩

end RateType

/-! ### Attributes -/

/-- Puts an entry where its key belongs, in place of another one of that key. -/
def insertEntry (key value : String) : List (String × String) → List (String × String)
  | [] => [(key, value)]
  | (k, v) :: rest =>
    if key < k then (key, value) :: (k, v) :: rest
    else if key = k then (key, value) :: rest
    else (k, v) :: insertEntry key value rest

/-- Keys in strictly ascending order. -/
def Ascending (entries : List (String × String)) : Prop :=
  entries.Pairwise fun a b => a.1 < b.1

theorem mem_insertEntry {key value : String} {entries : List (String × String)} {e : String × String}
    (h : e ∈ insertEntry key value entries) : e.1 = key ∨ e ∈ entries := by
  induction entries with
  | nil =>
    simp only [insertEntry, List.mem_singleton] at h
    exact .inl (by rw [h])
  | cons other rest ih =>
    obtain ⟨k, v⟩ := other
    unfold insertEntry at h
    split at h
    · rcases List.mem_cons.1 h with h | h
      · exact .inl (by rw [h])
      · exact .inr h
    · split at h
      · rcases List.mem_cons.1 h with h | h
        · exact .inl (by rw [h])
        · exact .inr (List.mem_cons_of_mem _ h)
      · rcases List.mem_cons.1 h with h | h
        · exact .inr (by rw [h]; exact List.mem_cons_self)
        · exact (ih h).imp_right (List.mem_cons_of_mem _)

theorem ascending_insertEntry (key value : String) {entries : List (String × String)} (h : Ascending entries) :
    Ascending (insertEntry key value entries) := by
  induction entries with
  | nil => exact List.pairwise_singleton _ _
  | cons other rest ih =>
    obtain ⟨k, v⟩ := other
    have hrest := List.pairwise_cons.1 h
    unfold insertEntry
    split
    · rename_i hlt
      refine List.pairwise_cons.2 ⟨fun e he => ?_, h⟩
      rcases List.mem_cons.1 he with he | he
      · rw [he]; exact hlt
      · exact String.lt_trans hlt (hrest.1 e he)
    · rename_i hnlt
      split
      · rename_i heq
        refine List.pairwise_cons.2 ⟨fun e he => ?_, hrest.2⟩
        rw [heq]
        exact hrest.1 e he
      · rename_i hne
        refine List.pairwise_cons.2 ⟨fun e he => ?_, ih hrest.2⟩
        rcases mem_insertEntry he with he | he
        · rw [he]
          exact Std.lt_of_le_of_ne (String.not_lt.1 hnlt) (fun heq => hne heq.symm)
        · exact hrest.1 e he

/-- Entries in ascending order of their keys, each key once. -/
structure Attributes where
  entries : List (String × String)
  ascending : Ascending entries

namespace Attributes

def empty : Attributes :=
  ⟨[], List.Pairwise.nil⟩

instance : DecidableEq Attributes := fun a b =>
  match decEq a.entries b.entries with
  | isTrue h => isTrue (by cases a; cases b; simp_all)
  | isFalse h => isFalse (fun heq => h (by rw [heq]))

/-- The attributes with one more entry, in place of another one of its key. -/
def insert (a : Attributes) (key value : String) : Attributes :=
  ⟨insertEntry key value a.entries, ascending_insertEntry key value a.ascending⟩

/-- The attributes of some entries; of those with one key the last counts. -/
def ofList (entries : List (String × String)) : Attributes :=
  entries.foldl (fun a e => a.insert e.1 e.2) empty

/-- The entries of both; of those with one key the second counts. -/
def merge (a b : Attributes) : Attributes :=
  b.entries.foldl (fun a e => a.insert e.1 e.2) a

def get? (a : Attributes) (key : String) : Option String :=
  a.entries.lookup key

/-- Whether there is no entry. -/
def isEmpty (a : Attributes) : Bool :=
  a.entries.isEmpty

end Attributes

/-- Where a rate comes from. -/
structure ConversionContext where
  provider : String
  rateType : RateType
  timestamp : Option Instant := none
  attributes : Attributes := .empty
deriving DecidableEq

namespace ConversionContext

/-- The provider and the kind. -/
instance : ToString ConversionContext where
  toString c := s!"{c.provider}/{c.rateType}"

end ConversionContext

end Coinage
