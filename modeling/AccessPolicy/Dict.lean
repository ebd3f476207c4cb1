/-!
# Dictionaries in insertion order

A `Dict α` binds names to values. Each name is bound once (`distinct`), and the entries keep the
order in which their names first came: storing under a bound name replaces its value where it
stands, storing under a new name appends.

The view of a dictionary is its look-up `find?`, and `find?_insert` says what storing does to it:
the new value under its own name, no change under any other.
-/

namespace AccessPolicy

/-- The value of the first entry under `name`. -/
def findEntry (name : String) : List (String × α) → Option α
  | [] => none
  | (n, v) :: rest => if n = name then some v else findEntry name rest

/-- Binds `name` to `value`: in its place when it is bound already, at the end otherwise. -/
def insertEntry (name : String) (value : α) : List (String × α) → List (String × α)
  | [] => [(name, value)]
  | (n, v) :: rest => if n = name then (n, value) :: rest else (n, v) :: insertEntry name value rest

theorem mem_keys_insertEntry {name : String} {value : α} {entries : List (String × α)} {n : String} :
    n ∈ (insertEntry name value entries).map Prod.fst ↔ n = name ∨ n ∈ entries.map Prod.fst := by
  induction entries with
  | nil => simp [insertEntry]
  | cons e rest ih =>
    obtain ⟨m, v⟩ := e
    by_cases h : m = name <;> grind [insertEntry]

theorem nodup_keys_insertEntry {name : String} {value : α} {entries : List (String × α)}
    (h : (entries.map Prod.fst).Nodup) : ((insertEntry name value entries).map Prod.fst).Nodup := by
  induction entries with
  | nil => simp [insertEntry]
  | cons e rest ih =>
    obtain ⟨m, v⟩ := e
    rw [List.map_cons, List.nodup_cons] at h
    by_cases hm : m = name
    · rw [insertEntry, if_pos hm, List.map_cons, List.nodup_cons]
      exact h
    · rw [insertEntry, if_neg hm, List.map_cons, List.nodup_cons]
      refine ⟨fun hmem => ?_, ih h.2⟩
      rcases mem_keys_insertEntry.mp hmem with rfl | hmem
      · exact hm rfl
      · exact h.1 hmem

theorem findEntry_insertEntry (name n : String) (value : α) (entries : List (String × α)) :
    findEntry n (insertEntry name value entries)
      = if n = name then some value else findEntry n entries := by
  induction entries with
  | nil => by_cases h : n = name <;> grind [insertEntry, findEntry]
  | cons e rest ih =>
    obtain ⟨m, v⟩ := e
    by_cases h : m = name <;> grind [insertEntry, findEntry]

theorem findEntry_eq_some_iff {name : String} {value : α} {entries : List (String × α)}
    (h : (entries.map Prod.fst).Nodup) :
    findEntry name entries = some value ↔ (name, value) ∈ entries := by
  induction entries with
  | nil => simp [findEntry]
  | cons e rest ih =>
    obtain ⟨m, v⟩ := e
    rw [List.map_cons, List.nodup_cons] at h
    have hrest := ih h.2
    by_cases hm : m = name
    · subst hm
      have hunbound : (m, value) ∉ rest := fun hmem =>
        h.1 (List.mem_map.mpr ⟨(m, value), hmem, rfl⟩)
      grind [findEntry]
    · grind [findEntry]

/-- Names bound to values, each name once, in the order in which the names first came. -/
structure Dict (α : Type u) where
  /-- The bindings in order. -/
  entries : List (String × α)
  /-- No name is bound twice. -/
  distinct : (entries.map Prod.fst).Nodup

namespace Dict

/-- The dictionary that binds no name. -/
def empty : Dict α := ⟨[], by simp⟩

instance : EmptyCollection (Dict α) := ⟨empty⟩
instance : Inhabited (Dict α) := ⟨empty⟩

/-- The value bound to a name. -/
def find? (d : Dict α) (name : String) : Option α := findEntry name d.entries

/-- Whether a name is bound. -/
def contains (d : Dict α) (name : String) : Bool := (d.find? name).isSome

/-- Binds a name, in place of what it was bound to. -/
def insert (d : Dict α) (name : String) (value : α) : Dict α :=
  ⟨insertEntry name value d.entries, nodup_keys_insertEntry d.distinct⟩

/-- Binds the pairs one after the other: a repeated name keeps its first place and its last
value. -/
def ofList (pairs : List (String × α)) : Dict α :=
  pairs.foldl (fun d (name, value) => d.insert name value) empty

/-- The number of bound names. -/
def size (d : Dict α) : Nat := d.entries.length

/-- The bound names in order. -/
def keys (d : Dict α) : List String := d.entries.map Prod.fst

/-- The bound names sorted by code point. -/
def sortedKeys (d : Dict α) : List String := d.keys.mergeSort fun a b => a ≤ b

@[simp] theorem find?_empty (name : String) : (empty : Dict α).find? name = none := rfl

/-- Storing binds the name to the value and no other name to anything new. -/
@[simp] theorem find?_insert (d : Dict α) (name n : String) (value : α) :
    (d.insert name value).find? n = if n = name then some value else d.find? n :=
  findEntry_insertEntry name n value d.entries

/-- The look-up finds what the entries say. -/
theorem find?_eq_some_iff {d : Dict α} {name : String} {value : α} :
    d.find? name = some value ↔ (name, value) ∈ d.entries :=
  findEntry_eq_some_iff d.distinct

theorem find?_isSome_iff {d : Dict α} {name : String} : (d.find? name).isSome ↔ name ∈ d.keys := by
  simp [Option.isSome_iff_exists, find?_eq_some_iff, keys]

theorem mem_sortedKeys {d : Dict α} {name : String} : name ∈ d.sortedKeys ↔ name ∈ d.keys :=
  List.mem_mergeSort

/-- The sorted names increase strictly: no name is there twice. -/
theorem sortedKeys_pairwise (d : Dict α) : d.sortedKeys.Pairwise (· < ·) := by
  have hsorted : d.sortedKeys.Pairwise fun a b => decide (a ≤ b) = true := by
    refine List.pairwise_mergeSort (fun a b c hab hbc => ?_) (fun a b => ?_) d.keys
    · exact decide_eq_true (String.le_trans (of_decide_eq_true hab) (of_decide_eq_true hbc))
    · rw [Bool.or_eq_true, decide_eq_true_iff, decide_eq_true_iff]
      exact String.le_total a b
  have hdistinct : d.sortedKeys.Nodup := (List.mergeSort_perm _ _).nodup_iff.mpr d.distinct
  refine (hsorted.and hdistinct).imp fun {a b} h => ?_
  by_cases hlt : a < b
  · exact hlt
  · exact absurd (String.le_antisymm (of_decide_eq_true h.1) hlt) h.2

/-- What is to hold for everything that can be found is checked entry by entry. -/
instance decidableForall {P : String → α → Prop} [∀ name value, Decidable (P name value)]
    (d : Dict α) : Decidable (∀ name value, d.find? name = some value → P name value) :=
  decidable_of_iff (∀ entry ∈ d.entries, P entry.1 entry.2) <| by
    constructor
    · exact fun h name value hfind => h (name, value) (find?_eq_some_iff.mp hfind)
    · exact fun h entry hmem => h entry.1 entry.2 (find?_eq_some_iff.mpr hmem)

end Dict
end AccessPolicy
