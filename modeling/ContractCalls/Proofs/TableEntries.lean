import ContractCalls.Table
import Mathlib.Data.List.Nodup

/-!
Contract: tables as lists of entries.

Owns:
- insertion that leaves present keys alone, `addNew`;
- the first entry of each key in a list of entries, also of a filtered one;
- the law that ties them: a run of `addNew` appends the first entry of each key
  that was not there before;
- merges, which change nothing the second time;
- tables that agree on every look-up, as permutations of each other.
-/

set_option autoImplicit false

namespace ContractCalls.Table

variable {κ α : Type} [DecidableEq κ]

/-! ### Insertion of present and of absent keys -/

theorem contains_insert (table : Table κ α) (key other : κ) (value : α) :
    (table.insert key value).contains other = (decide (key = other) || table.contains other) := by
  rw [contains, find?_insert]
  by_cases same : key = other
  · simp [same]
  · simp [same, contains]

theorem assign_of_not_mem {key : κ} {entries : List (κ × α)} (absent : key ∉ entries.map Prod.fst)
    (value : α) : assign key value entries = entries ++ [(key, value)] := by
  induction entries with
  | nil => rfl
  | cons entry rest inductionHypothesis =>
      obtain ⟨present, old⟩ := entry
      simp only [List.map_cons, List.mem_cons, not_or] at absent
      have different : present ≠ key := fun equal => absent.1 equal.symm
      rw [assign, if_neg different, inductionHypothesis absent.2]
      rfl

theorem entries_insert_of_absent {table : Table κ α} {key : κ}
    (absent : table.contains key = false) (value : α) :
    (table.insert key value).entries = table.entries ++ [(key, value)] := by
  apply assign_of_not_mem
  intro member
  rw [← keys, ← contains_iff_mem_keys, absent] at member
  contradiction

theorem assign_of_lookup {key : κ} {value : α} {entries : List (κ × α)}
    (found : lookup key entries = some value) : assign key value entries = entries := by
  induction entries with
  | nil => contradiction
  | cons entry rest inductionHypothesis =>
      obtain ⟨present, old⟩ := entry
      by_cases same : present = key
      · rw [lookup, if_pos same] at found
        rw [assign, if_pos same, Option.some.inj found]
      · rw [lookup, if_neg same] at found
        rw [assign, if_neg same, inductionHypothesis found]

theorem insert_of_find? {table : Table κ α} {key : κ} {value : α}
    (found : table.find? key = some value) : table.insert key value = table := by
  rw [insert, assign_of_lookup found]

/-! ### First entries -/

/-- Store an entry unless its key is present. -/
def addNew (table : Table κ α) (entry : κ × α) : Table κ α :=
  if table.contains entry.1 then table else table.insert entry.1 entry.2

/-- The first entry of each key, in order. -/
def firstEntries (entries : List (κ × α)) : List (κ × α) :=
  entries.eraseDupsBy fun later earlier => decide (later.1 = earlier.1)

/-- The first entry of each key that a table does not have. -/
def newEntries (table : Table κ α) (entries : List (κ × α)) : List (κ × α) :=
  firstEntries (entries.filter fun entry => !table.contains entry.1)

theorem firstEntries_cons (entry : κ × α) (rest : List (κ × α)) :
    firstEntries (entry :: rest) =
      entry :: firstEntries (rest.filter fun later => decide (later.1 ≠ entry.1)) := by
  rw [firstEntries, List.eraseDupsBy_cons, firstEntries]
  congr 3
  funext later
  simp

theorem newEntries_cons_of_present {table : Table κ α} {entry : κ × α}
    (present : table.contains entry.1 = true) (rest : List (κ × α)) :
    newEntries table (entry :: rest) = newEntries table rest := by
  rw [newEntries, List.filter_cons_of_neg (by simp [present])]
  rfl

theorem newEntries_cons_of_absent {table : Table κ α} {entry : κ × α}
    (absent : table.contains entry.1 = false) (rest : List (κ × α)) :
    newEntries table (entry :: rest) =
      entry :: newEntries (table.insert entry.1 entry.2) rest := by
  rw [newEntries, List.filter_cons_of_pos (by simp [absent]), firstEntries_cons, newEntries,
    List.filter_filter]
  -- The later entries of the new key go together with those of the old ones.
  congr 3
  funext later
  rw [contains_insert]
  by_cases same : later.1 = entry.1
  · simp [same]
  · have different : entry.1 ≠ later.1 := fun equal => same equal.symm
    simp [same, different]

theorem addNew_of_present {table : Table κ α} {entry : κ × α}
    (present : table.contains entry.1 = true) : table.addNew entry = table := by
  rw [addNew, if_pos present]

theorem addNew_of_absent {table : Table κ α} {entry : κ × α}
    (absent : table.contains entry.1 = false) :
    table.addNew entry = table.insert entry.1 entry.2 := by
  rw [addNew, if_neg (by simp [absent])]

/-- A run of `addNew` appends the new entries. -/
theorem entries_foldl_addNew (table : Table κ α) (entries : List (κ × α)) :
    (entries.foldl addNew table).entries = table.entries ++ newEntries table entries := by
  induction entries generalizing table with
  | nil => simp [newEntries, firstEntries]
  | cons entry rest inductionHypothesis =>
      rw [List.foldl_cons, inductionHypothesis]
      cases present : table.contains entry.1 with
      | true => rw [addNew_of_present present, newEntries_cons_of_present present]
      | false =>
          rw [addNew_of_absent present, newEntries_cons_of_absent present,
            entries_insert_of_absent present, List.append_assoc]
          rfl

theorem newEntries_empty (entries : List (κ × α)) :
    newEntries ({} : Table κ α) entries = firstEntries entries := by
  rw [newEntries]
  congr 1
  apply List.filter_eq_self.mpr
  intro entry _
  rfl

theorem firstEntries_map (value : κ → α) :
    ∀ keys : List κ, firstEntries (keys.map fun key => (key, value key)) =
      keys.eraseDups.map fun key => (key, value key)
  | [] => rfl
  | key :: rest => by
      rw [List.map_cons, firstEntries_cons, List.eraseDups_cons, List.map_cons, List.filter_map]
      have shorter : (rest.filter fun other => !other == key).length < (key :: rest).length :=
        Nat.lt_succ_of_le (List.length_filter_le _ rest)
      rw [← firstEntries_map value (rest.filter fun other => !other == key)]
      congr 4
      funext other
      by_cases same : other = key <;> simp [same]
termination_by keys => keys.length
decreasing_by exact shorter

theorem newEntries_map (table : Table κ α) (value : κ → α) (keys : List κ) :
    newEntries table (keys.map fun key => (key, value key)) =
      (keys.filter fun key => !table.contains key).eraseDups.map fun key => (key, value key) := by
  rw [newEntries, List.filter_map, firstEntries_map]
  rfl

/-! ### Look-ups in composed entries -/

theorem lookup_append (key : κ) (left right : List (κ × α)) :
    lookup key (left ++ right) = (lookup key left).or (lookup key right) := by
  induction left with
  | nil => rfl
  | cons entry rest inductionHypothesis =>
      obtain ⟨present, value⟩ := entry
      rw [List.cons_append, lookup, lookup, inductionHypothesis]
      split <;> rfl

theorem lookup_map {β : Type} (key : κ) (change : α → β) (entries : List (κ × α)) :
    lookup key (entries.map fun entry => (entry.1, change entry.2)) =
      (lookup key entries).map change := by
  induction entries with
  | nil => rfl
  | cons entry rest inductionHypothesis =>
      obtain ⟨present, value⟩ := entry
      rw [List.map_cons, lookup, lookup, inductionHypothesis]
      split <;> rfl

/-- After a merge the last entry of a key counts, and the old one only if there
is none. -/
theorem find?_merge (table other : Table κ α) (key : κ) :
    (table.merge other).find? key = (lookup key other.entries.reverse).or (table.find? key) := by
  unfold merge
  induction other.entries generalizing table with
  | nil => rfl
  | cons entry rest inductionHypothesis =>
      obtain ⟨present, value⟩ := entry
      rw [List.foldl_cons, inductionHypothesis, List.reverse_cons, lookup_append, Option.or_assoc,
        find?_insert, lookup]
      split <;> rfl

/-! ### Entries that are set again -/

theorem insert_insert_self (table : Table κ α) (key : κ) (first second : α) :
    (table.insert key first).insert key second = table.insert key second := by
  have entries : ∀ entries : List (κ × α),
      assign key second (assign key first entries) = assign key second entries := by
    intro entries
    induction entries with
    | nil => simp [assign]
    | cons entry rest inductionHypothesis =>
        by_cases same : entry.1 = key
        · simp [assign, same]
        · simp [assign, same, inductionHypothesis]
  exact congrArg Table.mk (entries table.entries)

/-- Of two keys that are set the order matters only if both are new. -/
theorem insert_comm_of_present {table : Table κ α} {key other : κ}
    (present : table.contains key = true) (different : key ≠ other) (value otherValue : α) :
    (table.insert key value).insert other otherValue =
      (table.insert other otherValue).insert key value := by
  have entries : ∀ entries : List (κ × α), key ∈ entries.map Prod.fst →
      assign other otherValue (assign key value entries) =
        assign key value (assign other otherValue entries) := by
    intro entries member
    induction entries with
    | nil => contradiction
    | cons entry rest inductionHypothesis =>
        by_cases isKey : entry.1 = key
        · simp [assign, isKey, different]
        · have later : key ∈ rest.map Prod.fst := by
            simpa [Ne.symm isKey] using member
          by_cases isOther : entry.1 = other
          · simp [assign, isOther, different.symm]
          · simp [assign, isKey, isOther, inductionHypothesis later]
  exact congrArg Table.mk (entries table.entries ((contains_iff_mem_keys table key).mp present))

/-- What is set for a present key is lost if the key is set once more. -/
theorem merge_insert_of_overwritten {table : Table κ α} {key : κ}
    (present : table.contains key = true) (value : α) {entries : List (κ × α)}
    (overwritten : key ∈ entries.map Prod.fst) :
    (table.insert key value).merge ⟨entries⟩ = table.merge ⟨entries⟩ := by
  induction entries generalizing table with
  | nil => contradiction
  | cons entry rest inductionHypothesis =>
      show ((table.insert key value).insert entry.1 entry.2).merge ⟨rest⟩ =
        (table.insert entry.1 entry.2).merge ⟨rest⟩
      by_cases same : key = entry.1
      · rw [← same, insert_insert_self]
      · have later : key ∈ rest.map Prod.fst := by
          simpa [same] using overwritten
        have stillPresent : (table.insert entry.1 entry.2).contains key = true := by
          rw [contains_insert, present, Bool.or_true]
        rw [insert_comm_of_present present same, inductionHypothesis stillPresent later]

/-- Setting the same entries again changes nothing, also if they set a key
several times. -/
theorem merge_merge_self (table other : Table κ α) :
    (table.merge other).merge other = table.merge other := by
  obtain ⟨entries⟩ := other
  induction entries generalizing table with
  | nil => rfl
  | cons entry rest inductionHypothesis =>
      have settled := inductionHypothesis (table.insert entry.1 entry.2)
      have found := find?_merge (table.insert entry.1 entry.2) ⟨rest⟩ entry.1
      rw [find?_insert_self] at found
      show (((table.insert entry.1 entry.2).merge ⟨rest⟩).insert entry.1 entry.2).merge ⟨rest⟩ =
        (table.insert entry.1 entry.2).merge ⟨rest⟩
      by_cases overwritten : entry.1 ∈ rest.map Prod.fst
      · have present : ((table.insert entry.1 entry.2).merge ⟨rest⟩).contains entry.1 = true := by
          rw [contains, found, Option.isSome_or, Option.isSome_some, Bool.or_true]
        rw [merge_insert_of_overwritten present entry.2 overwritten, settled]
      · have unset : lookup entry.1 rest.reverse = none := by
          rw [lookup_eq_none_iff, List.map_reverse, List.mem_reverse]
          exact overwritten
        rw [unset, Option.none_or] at found
        rw [insert_of_find? found, settled]

/-! ### Look-ups and first entries -/

theorem find?_addNew (table : Table κ α) (entry : κ × α) (key : κ) :
    (table.addNew entry).find? key =
      (table.find? key).or (if entry.1 = key then some entry.2 else none) := by
  cases present : table.contains entry.1 with
  | true =>
      rw [addNew_of_present present]
      by_cases same : entry.1 = key
      · rw [← same]
        obtain ⟨value, found⟩ := Option.isSome_iff_exists.mp present
        rw [found]
        rfl
      · rw [if_neg same, Option.or_none]
  | false =>
      rw [addNew_of_absent present, find?_insert]
      by_cases same : entry.1 = key
      · have missing : table.find? key = none := by
          rw [← same]
          exact Option.not_isSome_iff_eq_none.mp (Bool.not_eq_true _ ▸ present)
        rw [if_pos same, if_pos same, missing]
        rfl
      · rw [if_neg same, if_neg same, Option.or_none]

theorem contains_addNew (table : Table κ α) (entry : κ × α) (key : κ) :
    (table.addNew entry).contains key = (table.contains key || decide (entry.1 = key)) := by
  rw [contains, find?_addNew, Option.isSome_or]
  by_cases same : entry.1 = key
  · simp [same, contains]
  · simp [same, contains]

/-- In a run of `addNew`, what the table had before comes first, and then the
first entry of the run. -/
theorem find?_foldl_addNew (table : Table κ α) (entries : List (κ × α)) (key : κ) :
    (entries.foldl addNew table).find? key = (table.find? key).or (lookup key entries) := by
  induction entries generalizing table with
  | nil => exact (Option.or_none).symm
  | cons entry rest inductionHypothesis =>
      rw [List.foldl_cons, inductionHypothesis, find?_addNew, Option.or_assoc, lookup]
      by_cases same : entry.1 = key
      · rw [if_pos same, if_pos same]
        rfl
      · rw [if_neg same, if_neg same]
        rfl

theorem nodup_keys_addNew {table : Table κ α} (distinct : table.keys.Nodup) (entry : κ × α) :
    (table.addNew entry).keys.Nodup := by
  unfold addNew
  split
  · exact distinct
  · exact nodup_keys_insert table entry.1 entry.2 distinct

theorem nodup_keys_foldl_addNew {table : Table κ α} (distinct : table.keys.Nodup)
    (entries : List (κ × α)) : (entries.foldl addNew table).keys.Nodup := by
  induction entries generalizing table with
  | nil => exact distinct
  | cons entry rest inductionHypothesis => exact inductionHypothesis (nodup_keys_addNew distinct entry)

theorem firstEntries_eq_foldl (entries : List (κ × α)) :
    firstEntries entries = (entries.foldl addNew ({} : Table κ α)).entries := by
  rw [entries_foldl_addNew, newEntries_empty]
  rfl

theorem lookup_firstEntries (key : κ) (entries : List (κ × α)) :
    lookup key (firstEntries entries) = lookup key entries := by
  rw [firstEntries_eq_foldl]
  exact find?_foldl_addNew {} entries key

theorem nodup_keys_firstEntries (entries : List (κ × α)) :
    ((firstEntries entries).map Prod.fst).Nodup := by
  have noKeys : ({} : Table κ α).keys.Nodup := List.nodup_nil
  rw [firstEntries_eq_foldl]
  exact nodup_keys_foldl_addNew noKeys entries

/-! ### First entries of filtered lists -/

theorem firstEntries_filter (keep : κ → Bool) :
    ∀ entries : List (κ × α),
      (firstEntries entries).filter (fun entry => keep entry.1) =
        firstEntries (entries.filter fun entry => keep entry.1)
  | [] => rfl
  | entry :: rest => by
      have shorter : (rest.filter fun later => decide (later.1 ≠ entry.1)).length <
          (entry :: rest).length := Nat.lt_succ_of_le (List.length_filter_le _ rest)
      have ofRest := firstEntries_filter keep (rest.filter fun later => decide (later.1 ≠ entry.1))
      rw [firstEntries_cons, List.filter_cons, ofRest, List.filter_cons, List.filter_filter]
      cases kept : keep entry.1 with
      | true =>
          rw [if_pos rfl, if_pos rfl, firstEntries_cons, List.filter_filter]
          simp only [Bool.and_comm]
      | false =>
          -- What is kept has another key, so the key of the entry need not be removed.
          rw [if_neg (by simp), if_neg (by simp)]
          congr 1
          apply List.filter_congr
          intro later _
          by_cases same : later.1 = entry.1
          · simp [same, kept]
          · simp [same]
termination_by entries => entries.length
decreasing_by exact shorter

theorem lookup_filter_of_kept {keep : κ × α → Bool} {entries : List (κ × α)} {key : κ} {value : α}
    (found : lookup key entries = some value) (kept : keep (key, value) = true) :
    lookup key (entries.filter keep) = some value := by
  induction entries with
  | nil => contradiction
  | cons entry rest inductionHypothesis =>
      obtain ⟨present, stored⟩ := entry
      rw [lookup] at found
      split at found
      next same =>
        subst same
        obtain rfl := Option.some.inj found
        rw [List.filter_cons_of_pos kept, lookup, if_pos rfl]
      next different =>
        have later := inductionHypothesis found
        rw [List.filter_cons]
        split
        · rw [lookup, if_neg different, later]
        · exact later

/-! ### Tables that agree on every look-up -/

theorem lookup_eq_some_iff_mem {entries : List (κ × α)} (distinct : (entries.map Prod.fst).Nodup)
    (key : κ) (value : α) : lookup key entries = some value ↔ (key, value) ∈ entries := by
  refine ⟨mem_of_lookup, ?_⟩
  induction entries with
  | nil => simp
  | cons entry rest inductionHypothesis =>
      obtain ⟨present, old⟩ := entry
      obtain ⟨fresh, restDistinct⟩ := List.nodup_cons.mp distinct
      intro member
      rcases List.mem_cons.mp member with here | later
      · obtain ⟨rfl, rfl⟩ := Prod.mk.inj here
        rw [lookup, if_pos rfl]
      · have different : present ≠ key := by
          intro same
          apply fresh
          rw [same]
          exact List.mem_map.mpr ⟨(key, value), later, rfl⟩
        rw [lookup, if_neg different]
        exact inductionHypothesis restDistinct later

theorem mem_of_mem_firstEntries {entry : κ × α} {entries : List (κ × α)}
    (member : entry ∈ firstEntries entries) : entry ∈ entries := by
  have distinct := nodup_keys_firstEntries entries
  have found := (lookup_eq_some_iff_mem distinct entry.1 entry.2).mpr member
  rw [lookup_firstEntries] at found
  exact mem_of_lookup found

theorem lookup_perm {left right : List (κ × α)} (permutation : left.Perm right)
    (distinct : (left.map Prod.fst).Nodup) (key : κ) : lookup key left = lookup key right := by
  apply Option.ext
  intro value
  rw [lookup_eq_some_iff_mem distinct,
    lookup_eq_some_iff_mem ((permutation.map Prod.fst).nodup distinct), permutation.mem_iff]

theorem find?_merge_of_nodup (table : Table κ α) {other : Table κ α} (distinct : other.keys.Nodup)
    (key : κ) : (table.merge other).find? key = (other.find? key).or (table.find? key) := by
  have sameEntries := lookup_perm (List.reverse_perm other.entries).symm distinct key
  rw [find?_merge, ← sameEntries]
  rfl

theorem perm_of_lookup {left right : List (κ × α)} (leftDistinct : (left.map Prod.fst).Nodup)
    (rightDistinct : (right.map Prod.fst).Nodup)
    (agree : ∀ key, lookup key left = lookup key right) : left.Perm right := by
  have distinct : ∀ {entries : List (κ × α)}, (entries.map Prod.fst).Nodup → entries.Nodup :=
    fun keysDistinct => keysDistinct.of_map Prod.fst
  apply (List.perm_ext_iff_of_nodup (distinct leftDistinct) (distinct rightDistinct)).mpr
  rintro ⟨key, value⟩
  rw [← lookup_eq_some_iff_mem leftDistinct, ← lookup_eq_some_iff_mem rightDistinct, agree]

theorem nodup_eraseDups (keys : List κ) : keys.eraseDups.Nodup := by
  have distinct := nodup_keys_firstEntries (keys.map fun key => (key, ()))
  rw [firstEntries_map (fun _ => ()), List.map_map] at distinct
  exact distinct.of_map _

theorem eraseDups_perm {left right : List κ} (permutation : left.Perm right) :
    left.eraseDups.Perm right.eraseDups := by
  apply (List.perm_ext_iff_of_nodup (nodup_eraseDups left) (nodup_eraseDups right)).mpr
  intro key
  rw [List.mem_eraseDups, List.mem_eraseDups, permutation.mem_iff]

theorem eraseDups_of_nodup {keys : List κ} (distinct : keys.Nodup) : keys.eraseDups = keys := by
  induction keys with
  | nil => rfl
  | cons key rest inductionHypothesis =>
      obtain ⟨notAgain, restDistinct⟩ := List.nodup_cons.mp distinct
      have kept : (rest.filter fun other => !other == key) = rest := by
        rw [List.filter_eq_self]
        intro other member
        have different : other ≠ key := fun same => notAgain (same ▸ member)
        simp [different]
      rw [List.eraseDups_cons, kept, inductionHypothesis restDistinct]

end ContractCalls.Table
