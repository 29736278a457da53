/-!
Contract: finite tables that remember the order in which keys first came in.

Owns look-up, insertion that replaces a value at its old place, removal, and
the bulk forms of these.

Does not own: sorting.  Every listing of a table is in insertion order.
-/

set_option autoImplicit false

namespace ContractCalls

/-- Values by key, in the order of the first insertion of each key. -/
structure Table (κ α : Type) where
  entries : List (κ × α) := []
  deriving Repr, DecidableEq

namespace Table

variable {κ α : Type}

/-- The table without keys. -/
def empty : Table κ α := {}

instance : Inhabited (Table κ α) := ⟨empty⟩

def keys (table : Table κ α) : List κ := table.entries.map Prod.fst

def values (table : Table κ α) : List α := table.entries.map Prod.snd

def size (table : Table κ α) : Nat := table.entries.length

def isEmpty (table : Table κ α) : Bool := table.entries.isEmpty

variable [DecidableEq κ]

/-- The value of a key among entries. -/
def lookup (key : κ) : List (κ × α) → Option α
  | [] => none
  | (other, value) :: rest => if other = key then some value else lookup key rest

/-- Entries with a key set: at its old place, or at the end. -/
def assign (key : κ) (value : α) : List (κ × α) → List (κ × α)
  | [] => [(key, value)]
  | (other, old) :: rest =>
    if other = key then (other, value) :: rest else (other, old) :: assign key value rest

def find? (table : Table κ α) (key : κ) : Option α := lookup key table.entries

def contains (table : Table κ α) (key : κ) : Bool := (table.find? key).isSome

def insert (table : Table κ α) (key : κ) (value : α) : Table κ α :=
  ⟨assign key value table.entries⟩

def erase (table : Table κ α) (key : κ) : Table κ α :=
  ⟨table.entries.filter fun entry => entry.1 ≠ key⟩

/-- Set every key of the second table, in its order. -/
def merge (table other : Table κ α) : Table κ α :=
  other.entries.foldl (fun merged entry => merged.insert entry.1 entry.2) table

/-- The table that pairs describe; of pairs with one key the last value counts. -/
def ofPairs (pairs : List (κ × α)) : Table κ α := merge empty ⟨pairs⟩

/-! ## Insertion and removal seen through look-up -/

theorem lookup_assign (key other : κ) (value : α) (entries : List (κ × α)) :
    lookup other (assign key value entries) =
      if key = other then some value else lookup other entries := by
  induction entries with
  | nil => simp [assign, lookup]
  | cons entry rest inductionHypothesis =>
    obtain ⟨present, old⟩ := entry
    by_cases same : present = key
    · subst same
      by_cases asked : present = other <;> simp [assign, lookup, asked]
    · by_cases asked : present = other
      · subst asked
        have different : ¬key = present := fun equal => same equal.symm
        simp [assign, lookup, same, different]
      · simp [assign, lookup, same, asked, inductionHypothesis]

@[simp]
theorem find?_empty (key : κ) : (empty : Table κ α).find? key = none := rfl

theorem find?_insert (table : Table κ α) (key other : κ) (value : α) :
    (table.insert key value).find? other =
      if key = other then some value else table.find? other :=
  lookup_assign key other value table.entries

@[simp]
theorem find?_insert_self (table : Table κ α) (key : κ) (value : α) :
    (table.insert key value).find? key = some value := by
  simp [find?_insert]

theorem lookup_filter_ne (key other : κ) (entries : List (κ × α)) :
    lookup other (entries.filter fun entry => entry.1 ≠ key) =
      if key = other then none else lookup other entries := by
  induction entries with
  | nil => simp [lookup]
  | cons entry rest inductionHypothesis =>
    obtain ⟨present, old⟩ := entry
    by_cases same : present = key
    · subst same
      by_cases asked : present = other
      · simpa [asked] using inductionHypothesis
      · simpa [lookup, asked] using inductionHypothesis
    · by_cases asked : present = other
      · subst asked
        have different : ¬key = present := fun equal => same equal.symm
        simp [lookup, same, different]
      · simpa [lookup, same, asked] using inductionHypothesis

theorem find?_erase (table : Table κ α) (key other : κ) :
    (table.erase key).find? other = if key = other then none else table.find? other :=
  lookup_filter_ne key other table.entries

theorem mem_of_lookup {key : κ} {value : α} {entries : List (κ × α)}
    (found : lookup key entries = some value) : (key, value) ∈ entries := by
  induction entries with
  | nil => contradiction
  | cons entry rest inductionHypothesis =>
      obtain ⟨present, old⟩ := entry
      rw [lookup] at found
      split at found
      next same =>
        rw [← same, ← Option.some.inj found]
        exact List.mem_cons_self
      next => exact List.mem_cons_of_mem _ (inductionHypothesis found)

theorem lookup_eq_none_iff (key : κ) (entries : List (κ × α)) :
    lookup key entries = none ↔ key ∉ entries.map Prod.fst := by
  induction entries with
  | nil => simp [lookup]
  | cons entry rest inductionHypothesis =>
    obtain ⟨present, old⟩ := entry
    by_cases same : present = key
    · simp [lookup, same]
    · have different : key ≠ present := fun equal => same equal.symm
      simp only [lookup, same, if_false, List.map_cons, List.mem_cons, different, false_or]
      exact inductionHypothesis

/-- A key has a value exactly if it is listed. -/
theorem contains_iff_mem_keys (table : Table κ α) (key : κ) :
    table.contains key = true ↔ key ∈ table.keys := by
  have absent := lookup_eq_none_iff key table.entries
  cases found : lookup key table.entries with
  | none =>
    simp only [found, true_iff] at absent
    simp [contains, find?, found, keys, absent]
  | some value =>
    simp only [found, reduceCtorEq, false_iff, Decidable.not_not] at absent
    simpa [contains, find?, found, keys] using absent

/-! ## Insertion and the order of keys -/

theorem map_fst_assign (key : κ) (value : α) (entries : List (κ × α)) :
    (assign key value entries).map Prod.fst =
      if key ∈ entries.map Prod.fst then entries.map Prod.fst
      else entries.map Prod.fst ++ [key] := by
  induction entries with
  | nil => simp [assign]
  | cons entry rest inductionHypothesis =>
    obtain ⟨present, old⟩ := entry
    by_cases same : present = key
    · simp [assign, same]
    · have different : key ≠ present := fun equal => same equal.symm
      simp only [assign, same, if_false, List.map_cons, inductionHypothesis, List.mem_cons,
        different, false_or]
      split <;> simp

/-- A new key is listed last; an old one stays where it is. -/
theorem keys_insert (table : Table κ α) (key : κ) (value : α) :
    (table.insert key value).keys =
      if key ∈ table.keys then table.keys else table.keys ++ [key] :=
  map_fst_assign key value table.entries

/-- Insertion never lists a key twice. -/
theorem nodup_keys_insert (table : Table κ α) (key : κ) (value : α)
    (distinct : table.keys.Nodup) : (table.insert key value).keys.Nodup := by
  rw [keys_insert]
  split
  next => exact distinct
  next absent =>
    exact List.nodup_append.mpr
      ⟨distinct, by simp, by
        intro left leftMember right rightMember equal
        simp only [List.mem_singleton] at rightMember
        exact absent (rightMember ▸ equal ▸ leftMember)⟩

end Table

end ContractCalls
