import ContextSets.Table
import Mathlib.Data.List.Nodup

/-!
# Look-ups in tables

What each operation on a table does to its look-ups. A table is its look-ups: two tables that agree
on every key are equal, so later proofs speak of `get?` and never of the entries.
-/

namespace ContextSets.Table

variable {α β : Type}

/-! ### Entries and look-ups -/

/-- Ascending entries hold each key once. -/
theorem keys_nodup (table : Table α) : table.keys.Nodup := by
  refine List.pairwise_map.mpr (table.ascending.imp ?_)
  intro a b hlt heq
  exact String.lt_irrefl _ (heq ▸ hlt)

theorem mem_of_find {key : String} {value : α} {entries : List (String × α)}
    (h : find key entries = some value) : (key, value) ∈ entries := by
  induction entries with
  | nil => simp [find] at h
  | cons head rest ih =>
    obtain ⟨k, v⟩ := head
    by_cases hk : k = key
    · simp only [find, if_pos hk, Option.some.injEq] at h
      simp [hk, h]
    · simp only [find, if_neg hk] at h
      exact List.mem_cons_of_mem _ (ih h)

theorem find_of_mem {key : String} {value : α} {entries : List (String × α)}
    (hnodup : (entries.map Prod.fst).Nodup) (h : (key, value) ∈ entries) :
    find key entries = some value := by
  induction entries with
  | nil => simp at h
  | cons head rest ih =>
    obtain ⟨k, v⟩ := head
    simp only [List.map_cons, List.nodup_cons] at hnodup
    rcases List.mem_cons.mp h with heq | hrest
    · cases heq
      simp [find]
    -- the key of the head does not come again in the rest
    · have hk : k ≠ key := by
        rintro rfl
        exact hnodup.1 (List.mem_map.mpr ⟨(k, value), hrest, rfl⟩)
      simp only [find, if_neg hk]
      exact ih hnodup.2 hrest

theorem get?_eq_some_iff {table : Table α} {key : String} {value : α} :
    table.get? key = some value ↔ (key, value) ∈ table.entries :=
  ⟨mem_of_find, find_of_mem table.keys_nodup⟩

/-- A table is determined by its look-ups. -/
theorem ext_get? {table other : Table α} (h : ∀ key, table.get? key = other.get? key) :
    table = other := by
  have hmem : ∀ entry, entry ∈ table.entries ↔ entry ∈ other.entries := by
    intro ⟨key, value⟩
    rw [← get?_eq_some_iff, ← get?_eq_some_iff, h]
  -- the same entries can be listed in ascending order in one way only
  have hperm : table.entries.Perm other.entries :=
    (List.perm_ext_iff_of_nodup (.of_map _ table.keys_nodup) (.of_map _ other.keys_nodup)).mpr hmem
  have heq : table.entries = other.entries :=
    hperm.eq_of_pairwise (fun a b _ _ hab hba => absurd hba (String.lt_asymm hab))
      table.ascending other.ascending
  cases table
  cases other
  cases heq
  rfl

theorem ext_some {table other : Table α}
    (h : ∀ key value, table.get? key = some value ↔ other.get? key = some value) :
    table = other :=
  ext_get? fun key => Option.ext (h key)

/-- The same entries in any order make the same table. -/
theorem entries_perm_iff {table other : Table α} :
    table.entries.Perm other.entries ↔ table = other := by
  constructor
  · intro h
    apply ext_some
    intro key value
    rw [get?_eq_some_iff, get?_eq_some_iff, h.mem_iff]
  · intro h
    rw [h]

theorem contains_iff {table : Table α} {key : String} :
    table.contains key = true ↔ ∃ value, table.get? key = some value :=
  Option.isSome_iff_exists

theorem contains_eq_false_iff {table : Table α} {key : String} :
    table.contains key = false ↔ table.get? key = none := by
  simp [contains]

/-- What is said of the entries of a table differs if the keys alone tell it apart. -/
theorem nodup_map_entries (table : Table α) (f : String × α → β) :
    (table.entries.map f).Nodup ↔
      ∀ key value other value', table.get? key = some value → table.get? other = some value' →
        f (key, value) = f (other, value') → key = other := by
  have hnodup : table.entries.Nodup := .of_map _ table.keys_nodup
  simp only [List.nodup_map_iff_inj_on hnodup, get?_eq_some_iff]
  constructor
  · intro h key value other value' hmem hmem' heq
    exact congrArg Prod.fst (h (key, value) hmem (other, value') hmem' heq)
  · rintro h ⟨key, value⟩ hmem ⟨other, value'⟩ hmem' heq
    obtain rfl := h key value other value' hmem hmem' heq
    rw [← get?_eq_some_iff] at hmem hmem'
    rw [Option.some.inj (hmem.symm.trans hmem')]

theorem mem_keys {table : Table α} {key : String} :
    key ∈ table.keys ↔ table.contains key = true := by
  simp only [contains_iff, get?_eq_some_iff, keys, List.mem_map, Prod.exists, exists_and_right,
    exists_eq_right]

theorem mem_values {table : Table α} {value : α} :
    value ∈ table.values ↔ ∃ key, table.get? key = some value := by
  simp only [get?_eq_some_iff, values, List.mem_map, Prod.exists, exists_eq_right]

theorem size_eq_length_keys (table : Table α) : table.size = table.keys.length := by
  simp [size, keys]

/-! ### What the operations do to look-ups -/

@[simp] theorem get?_empty (key : String) : (∅ : Table α).get? key = none := rfl

theorem find_insertEntry (key other : String) (value : α) (entries : List (String × α)) :
    find other (insertEntry key value entries) =
      if key = other then some value else find other entries := by
  induction entries with
  | nil => simp [insertEntry, find]
  | cons head rest ih =>
    obtain ⟨k, v⟩ := head
    simp only [insertEntry]
    split
    · rfl
    · split
      · rename_i heq
        subst heq
        by_cases hk : key = other <;> simp [find, hk]
      · rename_i hne
        by_cases hk : k = other
        · simp [find, hk, show key ≠ other from hk ▸ hne]
        · simp [find, hk, ih]

@[simp] theorem get?_insert (table : Table α) (key other : String) (value : α) :
    (table.insert key value).get? other = if key = other then some value else table.get? other :=
  find_insertEntry key other value table.entries

theorem contains_insert {table : Table α} {key other : String} {value : α}
    (h : table.contains key = true) : (table.insert other value).contains key = true := by
  obtain ⟨old, hold⟩ := contains_iff.mp h
  rw [contains_iff, get?_insert]
  split
  · exact ⟨value, rfl⟩
  · exact ⟨old, hold⟩

/-- Storing what is there already changes nothing. -/
theorem insert_of_get? {table : Table α} {key : String} {value : α}
    (h : table.get? key = some value) : table.insert key value = table := by
  refine ext_get? fun other => ?_
  by_cases hk : key = other
  · subst hk
    simp [h]
  · simp [hk]

/-- What is stored last under a key counts. -/
theorem insert_insert (table : Table α) (key : String) (value other : α) :
    (table.insert key other).insert key value = table.insert key value := by
  refine ext_get? fun name => ?_
  by_cases hk : key = name <;> simp [hk]

@[simp] theorem get?_filter (table : Table α) (test : String → α → Bool) (key : String) :
    (table.filter test).get? key = (table.get? key).filter (test key) := by
  ext value
  simp only [get?_eq_some_iff, Option.filter_eq_some_iff, filter, List.mem_filter]

@[simp] theorem get?_erase (table : Table α) (key other : String) :
    (table.erase key).get? other = if key = other then none else table.get? other := by
  by_cases hk : key = other
  · simp [erase, hk]
  · have hne : (other != key) = true := by simpa using Ne.symm hk
    simp only [erase, get?_filter, hne, if_neg hk]
    cases table.get? other <;> rfl

@[simp] theorem get?_map (table : Table α) (change : α → β) (key : String) :
    (table.map change).get? key = (table.get? key).map change := by
  ext value
  simp only [get?_eq_some_iff, Option.map_eq_some_iff, map, List.mem_map, Prod.mk.injEq,
    Prod.exists]
  constructor
  · intro hgiven
    obtain ⟨_, old, hmem, rfl, rfl⟩ := hgiven
    exact ⟨old, hmem, rfl⟩
  · intro hgiven
    obtain ⟨old, hmem, rfl⟩ := hgiven
    exact ⟨_, old, hmem, rfl, rfl⟩

/-! ### Storing many entries -/

/-- The table with entries stored one after another. -/
def insertAll (table : Table α) (entries : List (String × α)) : Table α :=
  entries.foldl (fun table entry => table.insert entry.1 entry.2) table

/-- The keys of entries are distinct and new to a table. -/
def New (table : Table α) (entries : List (String × α)) : Prop :=
  (entries.map Prod.fst).Nodup ∧ ∀ entry ∈ entries, table.get? entry.1 = none

theorem new_nil (table : Table α) : New table [] :=
  ⟨List.nodup_nil, by simp⟩

theorem new_empty {entries : List (String × α)} :
    New ∅ entries ↔ (entries.map Prod.fst).Nodup :=
  ⟨And.left, fun h => ⟨h, fun _ _ => rfl⟩⟩

/-- Being new can be checked entry by entry, with the entries before it stored. -/
theorem new_cons {table : Table α} {key : String} {value : α} {rest : List (String × α)} :
    New table ((key, value) :: rest) ↔
      table.get? key = none ∧ New (table.insert key value) rest := by
  have hinsert : ∀ other, (table.insert key value).get? other = none ↔
      key ≠ other ∧ table.get? other = none := by
    intro other
    rw [get?_insert]
    by_cases hk : key = other <;> simp [hk]
  simp only [New, List.map_cons, List.nodup_cons, List.forall_mem_cons, hinsert]
  constructor
  · intro hgiven
    obtain ⟨⟨hkey, hnodup⟩, hnew, hrest⟩ := hgiven
    refine ⟨hnew, hnodup, fun entry hentry => ⟨?_, hrest entry hentry⟩⟩
    rintro rfl
    exact hkey (List.mem_map.mpr ⟨entry, hentry, rfl⟩)
  · intro hgiven
    obtain ⟨hnew, hnodup, hrest⟩ := hgiven
    refine ⟨⟨fun hkey => ?_, hnodup⟩, hnew, fun entry hentry => (hrest entry hentry).2⟩
    obtain ⟨entry, hentry, heq⟩ := List.mem_map.mp hkey
    exact (hrest entry hentry).1 heq.symm

/-- Storing new entries keeps what the table had. -/
theorem get?_insertAll {table : Table α} {entries : List (String × α)} (h : New table entries)
    {key : String} {value : α} :
    (table.insertAll entries).get? key = some value ↔
      table.get? key = some value ∨ (key, value) ∈ entries := by
  induction entries generalizing table with
  | nil => simp [insertAll]
  | cons head rest ih =>
    obtain ⟨k, v⟩ := head
    obtain ⟨hk, hrest⟩ := new_cons.mp h
    -- the head is new to the table, so it takes the place of nothing
    rw [insertAll, List.foldl_cons, ← insertAll, ih hrest]
    by_cases hkey : k = key
    · subst hkey
      simp [hk, eq_comm]
    · simp [hkey, Ne.symm hkey]

/-- A list with distinct keys is the list of entries of its table. -/
theorem get?_ofList {entries : List (String × α)} (hnodup : (entries.map Prod.fst).Nodup)
    {key : String} {value : α} :
    (ofList entries).get? key = some value ↔ (key, value) ∈ entries := by
  have hnew : New ∅ entries := ⟨hnodup, fun _ _ => rfl⟩
  have hall : ofList entries = insertAll ∅ entries := rfl
  rw [hall, get?_insertAll hnew]
  simp

/-- Entries with distinct keys make the same table in any order. -/
theorem ofList_perm {entries other : List (String × α)} (hperm : entries.Perm other)
    (hnodup : (entries.map Prod.fst).Nodup) : ofList entries = ofList other := by
  have hnodup' : (other.map Prod.fst).Nodup := (hperm.map Prod.fst).nodup_iff.mp hnodup
  refine ext_some fun key value => ?_
  rw [get?_ofList hnodup, get?_ofList hnodup', hperm.mem_iff]

/-- A table is the table of its entries. -/
theorem ofList_entries (table : Table α) : ofList table.entries = table := by
  refine ext_some fun key value => ?_
  rw [get?_ofList table.keys_nodup, get?_eq_some_iff]

end ContextSets.Table
