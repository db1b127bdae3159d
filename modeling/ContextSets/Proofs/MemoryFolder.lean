import ContextSets.Proofs.StoredCache
import ContextSets.Proofs.Table
import ContextSets.Text.Occurrence

/-!
# Folders in memory

A table of files serves as a folder without faults. Programs on caches run on it, with entries that
are written as lines.
-/

namespace ContextSets

/-- A folder that is nothing but its files. -/
def Table.folder (path : String) : Folder (StateM (Table ByteArray)) where
  path := path
  prepare := return .ok ()
  names := do
    return .ok ((← get).keys.filter fun name => decide (Path.IsPlain name))
  read name := do
    match (← get).get? name with
    | some bytes => return .ok bytes
    | none => return .error .notFound
  write name bytes := do
    modify (·.insert name bytes)
    return .ok ()
  rename source target := do
    match (← get).get? source with
    | some bytes =>
      modify fun files => (files.erase source).insert target bytes
      return .ok ()
    | none => return .error .notFound
  remove name := do
    match (← get).get? name with
    | some _ =>
      modify (·.erase name)
      return .ok ()
    | none => return .error .notFound

namespace Table

theorem get?_insert_eq_update (files : Table ByteArray) (name : String) (bytes : ByteArray) :
    (files.insert name bytes).get? = Function.update files.get? name (some bytes) := by
  ext other : 1
  rw [get?_insert, Function.update_apply]
  simp only [eq_comm]

theorem get?_erase_eq_update (files : Table ByteArray) (name : String) :
    (files.erase name).get? = Function.update files.get? name none := by
  ext other : 1
  rw [get?_erase, Function.update_apply]
  simp only [eq_comm]

theorem folder_serves (path : String) : (folder path).Serves get? fun _ => False where
  prepare := fun _ => .run_pure ⟨rfl, .inl rfl⟩
  names := by
    intro files
    refine Ensures.get_bind (.run_pure ⟨rfl, .inl ⟨_, rfl, ?_, ?_⟩⟩)
    · intro name hname
      exact of_decide_eq_true (List.mem_filter.mp hname).2
    · intro name hplain hfile
      obtain ⟨bytes, hbytes⟩ := Option.ne_none_iff_exists'.mp hfile
      have hkey := mem_keys.mpr (contains_iff.mpr ⟨bytes, hbytes⟩)
      exact List.mem_filter.mpr ⟨hkey, decide_eq_true hplain⟩
  read := by
    intro files name _
    show Ensures (StateT.run (get >>= _) files) _
    apply Ensures.get_bind
    cases hfile : files.get? name with
    | some bytes => exact .run_pure ⟨rfl, .inl ⟨bytes, rfl, rfl⟩⟩
    | none => exact .run_pure ⟨rfl, .inr ⟨⟨_, rfl⟩, .inl rfl⟩⟩
  write := by
    intro files name bytes _
    exact .run_pure (.inl ⟨rfl, get?_insert_eq_update files name bytes⟩)
  rename := by
    intro files source target bytes _ _ hsource
    show Ensures (StateT.run (get >>= _) files) _
    apply Ensures.get_bind
    simp only [hsource]
    refine .run_pure (.inl ⟨rfl, ?_⟩)
    rw [get?_insert_eq_update, get?_erase_eq_update]
  remove := by
    intro files name _
    show Ensures (StateT.run (get >>= _) files) _
    apply Ensures.get_bind
    cases hfile : files.get? name with
    | some bytes => exact .run_pure (.inl ⟨.inl rfl, get?_erase_eq_update files name⟩)
    | none =>
      refine .run_pure (.inl ⟨.inr rfl, ?_⟩)
      rw [← hfile, Function.update_eq_self]

end Table

/-- Entries as four lines, with texts in the place of vectors. -/
def EntryFormat.lines : EntryFormat String where
  encode entry :=
    ("\n".intercalate
      [entry.key.fingerprint, entry.key.model, entry.createdAt, entry.vector]).toUTF8
  decode? bytes := do
    let text ← String.fromUTF8? bytes
    match (Text.splitBy (· == '\n') text.toList).map String.ofList with
    | [fingerprint, model, createdAt, vector] => some ⟨⟨fingerprint, model⟩, vector, createdAt⟩
    | _ => none

/-- A folder in memory for entries in lines, at a standing clock. -/
def lineShelf : Shelf (StateM (Table ByteArray)) String where
  folder := Table.folder "cache"
  format := .lines
  now := return "now"

theorem lineShelf_stamps {P : CacheEntry String → Prop} {key : CacheKey} {vector : String}
    (h : P ⟨key, vector, "now"⟩) : lineShelf.Stamps Table.get? P key vector :=
  fun _ => .run_pure ⟨rfl, h⟩

end ContextSets
