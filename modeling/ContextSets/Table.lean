/-!
# Tables keyed by text

A table holds one value per key, in ascending order of the keys by code point, which is also the
order of their UTF-8 bytes. The order is part of the type, so two tables with the same look-ups are
equal.
-/

namespace ContextSets

/-- Values under text keys, ascending by key. -/
structure Table (α : Type) where
  entries : List (String × α)
  ascending : entries.Pairwise (fun a b => a.1 < b.1)
deriving DecidableEq, Repr

namespace Table

variable {α β : Type}

/-- The table without entries. -/
def empty : Table α := ⟨[], .nil⟩

instance : EmptyCollection (Table α) := ⟨empty⟩

instance : Inhabited (Table α) := ⟨empty⟩

/-- The entry with the given key in a list of entries. -/
def find (key : String) : List (String × α) → Option α
  | [] => none
  | (k, v) :: rest => if k = key then some v else find key rest

/-- Puts an entry in its place, over one with the same key. -/
def insertEntry (key : String) (value : α) : List (String × α) → List (String × α)
  | [] => [(key, value)]
  | (k, v) :: rest =>
    if key < k then (key, value) :: (k, v) :: rest
    else if key = k then (key, value) :: rest
    else (k, v) :: insertEntry key value rest

theorem mem_insertEntry {key : String} {value : α} {entry : String × α}
    {entries : List (String × α)} (h : entry ∈ insertEntry key value entries) :
    entry = (key, value) ∨ entry ∈ entries := by
  induction entries with
  | nil => simpa [insertEntry] using h
  | cons head rest ih =>
    simp only [insertEntry] at h
    split at h
    · simpa using h
    · split at h
      · rcases List.mem_cons.mp h with h | h
        · exact .inl h
        · exact .inr (List.mem_cons_of_mem _ h)
      · rcases List.mem_cons.mp h with h | h
        · exact .inr (h ▸ List.mem_cons_self)
        · exact (ih h).imp_right (List.mem_cons_of_mem _)

theorem ascending_insertEntry {key : String} {value : α} {entries : List (String × α)}
    (h : entries.Pairwise (fun a b => a.1 < b.1)) :
    (insertEntry key value entries).Pairwise (fun a b => a.1 < b.1) := by
  induction entries with
  | nil => simp [insertEntry]
  | cons head rest ih =>
    obtain ⟨hhead, hrest⟩ := List.pairwise_cons.mp h
    simp only [insertEntry]
    split
    · rename_i hlt
      refine List.pairwise_cons.mpr ⟨fun entry hentry => ?_, h⟩
      rcases List.mem_cons.mp hentry with rfl | hentry
      · exact hlt
      · exact String.lt_trans hlt (hhead entry hentry)
    · rename_i hge
      split
      · rename_i heq
        exact List.pairwise_cons.mpr ⟨fun entry hentry => heq ▸ hhead entry hentry, hrest⟩
      · rename_i hne
        refine List.pairwise_cons.mpr ⟨fun entry hentry => ?_, ih hrest⟩
        rcases mem_insertEntry hentry with rfl | hentry
        · exact Std.lt_of_le_of_ne (Std.not_lt.mp hge) (Ne.symm hne)
        · exact hhead entry hentry

/-- The value under a key. -/
def get? (table : Table α) (key : String) : Option α :=
  find key table.entries

/-- Whether a key has a value. -/
def contains (table : Table α) (key : String) : Bool :=
  (table.get? key).isSome

/-- Gives a key a value, in place of any it had. -/
def insert (table : Table α) (key : String) (value : α) : Table α :=
  ⟨insertEntry key value table.entries, ascending_insertEntry table.ascending⟩

/-- Keeps the entries that pass a test. -/
def filter (test : String → α → Bool) (table : Table α) : Table α :=
  ⟨table.entries.filter (fun entry => test entry.1 entry.2), table.ascending.filter _⟩

/-- Takes a key and its value out. -/
def erase (table : Table α) (key : String) : Table α :=
  table.filter (fun k _ => k != key)

/-- Changes every value, keeping the keys. -/
def map (change : α → β) (table : Table α) : Table β :=
  ⟨table.entries.map (fun entry => (entry.1, change entry.2)),
    List.pairwise_map.mpr table.ascending⟩

/-- The keys, ascending. -/
def keys (table : Table α) : List String :=
  table.entries.map Prod.fst

/-- The values, in the order of their keys. -/
def values (table : Table α) : List α :=
  table.entries.map Prod.snd

/-- How many keys have a value. -/
def size (table : Table α) : Nat :=
  table.entries.length

/-- Whether no key has a value. -/
def isEmpty (table : Table α) : Bool :=
  table.entries.isEmpty

/-- The table of a list of entries; of several with one key the last counts. -/
def ofList (entries : List (String × α)) : Table α :=
  entries.foldl (fun table entry => table.insert entry.1 entry.2) empty

end Table

end ContextSets
