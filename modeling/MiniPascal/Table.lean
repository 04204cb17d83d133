/-!
# Tables

A table maps names to values.  It keeps the order in which names came in; putting a value under a
name that is already there replaces the old value in its place.
-/

namespace MiniPascal

/-- A finite map from names. -/
structure Table (α : Type) where
  entries : List (String × α)

namespace Table

def empty : Table α where
  entries := []

instance : EmptyCollection (Table α) := ⟨empty⟩

instance : Inhabited (Table α) := ⟨empty⟩

/-- The value under a name. -/
def find? (table : Table α) (name : String) : Option α :=
  table.entries.lookup name

def contains (table : Table α) (name : String) : Bool :=
  (table.find? name).isSome

/-- Puts a value under a name in a list of entries. -/
def put (name : String) (value : α) : List (String × α) → List (String × α)
  | [] => [(name, value)]
  | (key, old) :: rest =>
      if key = name then (key, value) :: rest else (key, old) :: put name value rest

def insert (table : Table α) (name : String) (value : α) : Table α where
  entries := put name value table.entries

def size (table : Table α) : Nat :=
  table.entries.length

/-- A table of given entries; of two with one name the later counts. -/
def ofList (entries : List (String × α)) : Table α :=
  entries.foldl (fun table entry => table.insert entry.1 entry.2) empty

@[simp] theorem find?_empty (name : String) : (empty : Table α).find? name = none := rfl

theorem lookup_put (name key : String) (value : α) (entries : List (String × α)) :
    (put name value entries).lookup key =
      if key = name then some value else entries.lookup key := by
  induction entries with
  | nil =>
      by_cases h : key = name
      · simp [put, h]
      · simp [put, List.lookup_cons, h, beq_eq_false_iff_ne.mpr h]
  | cons entry rest ih =>
      obtain ⟨k, old⟩ := entry
      by_cases hk : k = name
      · by_cases h : key = name
        · simp [put, hk, h]
        · simp [put, hk, h, List.lookup_cons, beq_eq_false_iff_ne.mpr h]
      · by_cases h : key = k
        · subst h
          simp [put, hk]
        · simp [put, hk, List.lookup_cons, beq_eq_false_iff_ne.mpr h, ih]

@[simp] theorem find?_insert (table : Table α) (name key : String) (value : α) :
    (table.insert name value).find? key = if key = name then some value else table.find? key :=
  lookup_put name key value table.entries

theorem contains_insert (table : Table α) (name key : String) (value : α) :
    (table.insert name value).contains key = (decide (key = name) || table.contains key) := by
  by_cases h : key = name <;> simp [contains, h]

end Table

end MiniPascal
