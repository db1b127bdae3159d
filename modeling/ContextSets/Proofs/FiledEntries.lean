import ContextSets.Proofs.CacheProvenance

/-!
# Entries in files of their own keys

An entry is written to the file that is named after its key and to no other. So a folder has at most
one entry of a key, and what a cache answers that is opened from it can be told from that one file.
-/

namespace ContextSets

variable {n : Type → Type} {σ V : Type} {files : σ → Contents} {mayFail : Option String → Prop}
  {format : EntryFormat V} {contents before : Contents} {name : String} {key : CacheKey}
  {keys : Set CacheKey} {entry : CacheEntry V}

namespace EntryFormat

/-- The entry of a key in the file that is named after it. -/
def kept? (format : EntryFormat V) (contents : Contents) (key : CacheKey) : Option (CacheEntry V) :=
  ((contents key.fileName).bind format.decode?).filter (·.key == key)

theorem kept?_eq_some_iff :
    format.kept? contents key = some entry ↔
      format.Holds contents key.fileName entry ∧ entry.key = key := by
  simp [kept?, Holds, Option.filter_eq_some_iff, Option.bind_eq_some_iff]

theorem kept?_of_none (h : contents key.fileName = none) : format.kept? contents key = none := by
  rw [kept?, h]
  rfl

/-- Only the file that is named after the key counts. -/
theorem kept?_congr (h : contents key.fileName = before key.fileName) :
    format.kept? contents key = format.kept? before key := by
  rw [kept?, kept?, h]

/-- The entries that are read are for given keys, and in files named after their keys. -/
def Filed (format : EntryFormat V) (keys : Set CacheKey) (contents : Contents) : Prop :=
  ∀ name entry, IsEntryFile name → format.Holds contents name entry →
    entry.key ∈ keys ∧ entry.key.fileName = name

/-- What is read from filed entries about a key is what the file named after it holds. -/
theorem Filed.published?_ofEntries (h : format.Filed keys contents) (hfits : key.FitsName)
    (hsafe : ¬ mayFail (some key.fileName)) {names : List String} {entries : List (CacheEntry V)}
    (hread : ReadFrom format mayFail contents names entries)
    (hall : ∀ name, Path.IsPlain name → contents name ≠ none → name ∈ names) :
    (Cache.ofEntries entries).published? key = format.kept? contents key := by
  have hkept : ∀ entry, (Cache.ofEntries entries).published? key = some entry →
      format.kept? contents key = some entry := by
    intro entry hentry
    obtain ⟨hmem, rfl⟩ := Cache.mem_of_published?_ofEntries hentry
    obtain ⟨name, hname, hheld⟩ := hread.held entry hmem
    obtain ⟨-, rfl⟩ := h name entry hname hheld
    exact kept?_eq_some_iff.mpr ⟨hheld, rfl⟩
  ext entry
  refine ⟨hkept entry, fun hentry => ?_⟩
  obtain ⟨hheld, rfl⟩ := kept?_eq_some_iff.mp hentry
  have hname : entry.key.fileName ∈ names := hall _ hfits.isPlain_fileName hheld.ne_none
  have hmem := hread.all _ hname hfits.isEntryFile hsafe entry hheld
  obtain ⟨found, hfound⟩ := Cache.exists_published?_ofEntries hmem
  rw [hfound, ← hkept found hfound, hentry]

end EntryFormat

variable {cache after : Cache V} {log : List (CacheKey × V)}

/-- After an operation a file holds what it has held before, or it is the file of a key whose entry
has just been made. -/
theorem CacheOperation.Outcome.holds {shelf : Shelf (StateT σ n) V}
    {op : CacheOperation (StateT σ n) V} {answer : Option V}
    (houtcome : op.Outcome (some shelf) mayFail EntryFormat.Safe keys cache before answer after
      contents)
    (hfits : ∀ key ∈ keys, key.FitsName) (hname : IsEntryFile name)
    (h : shelf.format.Holds contents name entry) :
    shelf.format.Holds before name entry ∨
      entry.key ∈ keys ∧ entry.key.fileName = name ∧
        after.published? entry.key = some entry := by
  cases houtcome with
  | asked hkey hrecorded =>
    have htemporary := (hfits _ hkey).ne_temporaryName hname
    cases hrecorded with
    | found _ => exact .inl h
    | @made made _ _ hmade hsafe _ _ hentries =>
      subst hmade
      by_cases hfile : name = made.key.fileName
      · subst hfile
        obtain rfl := (hsafe shelf rfl).eq_of_written h
        exact .inr ⟨hkey, rfl, by rw [hentries, Function.update_self]⟩
      · exact .inl (Cache.holds_of_update (Cache.holds_of_update h hfile) htemporary)
    | nothing _ _ _ _ _ => exact .inl h
    | unwritten _ _ _ _ _ => exact .inl (Cache.holds_of_update h htemporary)
  | removed _ hcleared => exact .inl ((hcleared shelf rfl).holds h)
  | cleared => exact .inl h
  | unopened _ => exact .inl h
  | opened _ _ _ => exact .inl h

namespace EntryFormat.Filed

variable {shelf : Shelf (StateT σ n) V}

theorem step (h : shelf.format.Filed keys before) (hfits : ∀ key ∈ keys, key.FitsName)
    {op : CacheOperation (StateT σ n) V} {answer : Option V}
    (houtcome : op.Outcome (some shelf) mayFail EntryFormat.Safe keys cache before answer after
      contents) : shelf.format.Filed keys contents := by
  intro name entry hname hheld
  rcases houtcome.holds hfits hname hheld with hold | ⟨hkey, hfile, -⟩
  · exact h name entry hname hold
  · exact ⟨hkey, hfile⟩

variable [Monad n] [LawfulMonad n] {answers : CacheKey → V → Prop}

/-- A cache that is opened from filed entries answers what the file named after the key holds. -/
theorem reopen_answers (hserves : shelf.folder.Serves files mayFail) (hfolder : ¬ mayFail none)
    {s : σ} (h : shelf.format.Filed keys (files s)) (hfits : key.FitsName)
    (hsafe : ¬ mayFail (some key.fileName)) :
    Ensures ((Cache.reopen shelf).run s) fun r =>
      ∃ opened, r.1 = .ok opened ∧
        opened.get? key = (shelf.format.kept? (files s) key).map (·.vector) := by
  refine (Cache.reopen_reads hserves s).mono ?_
  rintro ⟨result, s'⟩ ⟨-, ⟨-, hfail⟩ | ⟨names, entries, rfl, hread, hall⟩⟩
  · exact absurd hfail hfolder
  · refine ⟨_, rfl, ?_⟩
    rw [Cache.get?_eq_map, h.published?_ofEntries hfits hsafe hread hall]

end EntryFormat.Filed

section History

variable [Monad n] [LawfulMonad n] {shelf : Shelf (StateT σ n) V} {answers : CacheKey → V → Prop}
  {s : σ}

/-- What an operation comes to at the end of a history. -/
theorem Cache.Sourced.outcome (hserves : shelf.folder.Serves files mayFail)
    (hfits : ∀ key ∈ keys, key.FitsName)
    (hsafe : ∀ key vector, answers key vector →
      shelf.Stamps files shelf.format.Safe key vector)
    (h : Cache.Sourced (some shelf) keys log cache (files s)) {op : CacheOperation (StateT σ n) V}
    (huses : op.Uses files keys answers) {answer : Option V} {s' : σ}
    (hends : Yields (((op.run (some shelf)).run cache).run s) ((answer, after), s')) :
    op.Outcome (some shelf) mayFail EntryFormat.Safe keys cache (files s) answer after
      (files s') := by
  have hshelf : ∀ kept ∈ some shelf, kept.folder.Serves files mayFail := by
    rintro _ ⟨⟩
    exact hserves
  have hstamps : ∀ kept ∈ some shelf, ∀ key ∈ keys, ∀ vector,
      answers key vector → kept.Stamps files (EntryFormat.Safe kept.format) key vector := by
    rintro _ ⟨⟩ key -
    exact hsafe key
  exact hends _ (CacheOperation.run_outcome hshelf hfits hstamps h.wellFormed h.within huses s)

/-- Whatever has been done with a cache, its folder has filed entries only. -/
theorem Cache.History.filed (hserves : shelf.folder.Serves files mayFail)
    (hfits : ∀ key ∈ keys, key.FitsName)
    (hsafe : ∀ key vector, answers key vector →
      shelf.Stamps files shelf.format.Safe key vector)
    (h : Cache.History (some shelf) files keys answers log cache s) :
    Cache.Sourced (some shelf) keys log cache (files s) ∧ shelf.format.Filed keys (files s) := by
  induction h with
  | start hnone =>
    refine ⟨.start hnone, fun name entry hname hheld => ?_⟩
    exact absurd hheld (hnone shelf rfl name entry hname)
  | step _ huses hends ih =>
    have houtcome := ih.1.outcome hserves hfits hsafe huses hends
    exact ⟨ih.1.step hfits houtcome, ih.2.step hfits houtcome⟩

end History

/-- A cache over an empty folder has no history yet. -/
theorem history_lineShelf {answers : CacheKey → String → Prop} :
    Cache.History (some lineShelf) Table.get? keys answers [] ∅ ∅ := by
  refine .start fun kept _ name entry _ hheld => ?_
  obtain ⟨bytes, hbytes, -⟩ := hheld
  cases hbytes

/-- The vector of a key in the cache that is opened once operations have been done on a cache over an
empty folder. -/
def keptAfter (ops : List (CacheOperation (StateM (Table ByteArray)) String)) (key : CacheKey) :
    Option String :=
  let run : StateT (Cache String) (StateM (Table ByteArray)) Unit :=
    ops.forM fun op => do let _ ← op.run (some lineShelf)
  let files := ((run.run ∅).run ∅).run.2
  match ((Cache.reopen lineShelf).run files).run.1 with
  | .ok opened => opened.get? key
  | .error _ => none

end ContextSets
