import ContextSets.Files.Tree
import ContextSets.Proofs.MemoryFolder
import Mathlib.Data.Set.Function

/-!
# Memory and disk

Entries are written before they are published, and removed from memory before their files are. As
long as no two keys have one file name and no file fails, the two agree whenever an operation is
over: the files hold the published entries and nothing else, so that the folder can be opened again
at any time without losing anything.
-/

namespace ContextSets

variable {n : Type → Type} {σ V : Type} {files : σ → Contents} {mayFail : Option String → Prop}
  {keys : Set CacheKey} {cache after : Cache V} {before contents : Contents}

namespace Cache

/-- The files hold the published entries and nothing else. -/
structure Mirrored (format : EntryFormat V) (keys : Set CacheKey) (cache : Cache V)
    (contents : Contents) : Prop where
  wellFormed : cache.WellFormed
  within : cache.Within keys
  lossless : ∀ key entry, cache.published? key = some entry → format.Lossless entry
  written : ∀ key entry, cache.published? key = some entry →
    contents key.fileName = some (format.encode entry)
  nothing_else : ∀ name bytes, contents name = some bytes →
    ∃ key entry, cache.published? key = some entry ∧ key.fileName = name

theorem Within.of_published? {key : CacheKey} {entry : CacheEntry V} (h : cache.Within keys)
    (hentry : cache.published? key = some entry) : key ∈ keys := by
  obtain ⟨slot, hslot, -⟩ := Option.bind_eq_some_iff.mp hentry
  exact h key slot (mem_of_slot? hslot)

namespace Mirrored

variable {format : EntryFormat V} {shelf : Shelf (StateT σ n) V} {key : CacheKey} {name : String}
  {entry : CacheEntry V}

theorem empty (hempty : ∀ name, contents name = none) : Mirrored format keys ∅ contents where
  wellFormed := WellFormed.empty
  within := Within.empty
  lossless := fun _ _ h => nomatch h
  written := fun _ _ h => nomatch h
  nothing_else := fun name bytes h => by
    rw [hempty] at h
    cases h

/-- Only published entries are seen. -/
theorem congr (h : Mirrored format keys cache contents) (hwf : after.WellFormed)
    (hwithin : after.Within keys) (hsame : after.published? = cache.published?) :
    Mirrored format keys after contents :=
  ⟨hwf, hwithin, hsame ▸ h.lossless, hsame ▸ h.written, hsame ▸ h.nothing_else⟩

theorem holds_iff (h : Mirrored format keys cache contents) :
    format.Holds contents name entry ↔
      cache.published? entry.key = some entry ∧ entry.key.fileName = name := by
  constructor
  · rintro ⟨bytes, hbytes, hdecode⟩
    obtain ⟨key, found, hfound, rfl⟩ := h.nothing_else name bytes hbytes
    rw [h.written key found hfound] at hbytes
    have hsame : found = entry := by
      rw [← Option.some.inj hbytes, h.lossless key found hfound] at hdecode
      exact Option.some.inj hdecode
    subst hsame
    rw [h.wellFormed.key_of_published? hfound]
    exact ⟨hfound, rfl⟩
  · rintro ⟨hentry, rfl⟩
    exact ⟨_, h.written _ _ hentry, h.lossless _ _ hentry⟩

theorem temporaryName (h : Mirrored format keys cache contents) (key : CacheKey) :
    contents key.temporaryName = none := by
  by_contra hne
  obtain ⟨bytes, hbytes⟩ := Option.ne_none_iff_exists'.mp hne
  obtain ⟨other, -, -, hname⟩ := h.nothing_else _ bytes hbytes
  exact CacheKey.temporaryName_ne_fileName key other hname.symm

/-- A new entry gets a file of its own. -/
theorem made (hinj : keys.InjOn CacheKey.fileName) (h : Mirrored shelf.format keys cache before)
    (hkey : entry.key ∈ keys) (hnone : cache.published? entry.key = none)
    (hlossless : shelf.format.Lossless entry) (hafter : after.WellFormed)
    (hwithin : after.Within keys)
    (hentries : after.published? = Function.update cache.published? entry.key (some entry)) :
    Mirrored shelf.format keys after (Shelf.written (some shelf) entry before) := by
  have hold : ∀ other found, cache.published? other = some found → other ≠ entry.key := by
    rintro _ found hfound rfl
    rw [hnone] at hfound
    cases hfound
  refine ⟨hafter, hwithin, ?_, ?_, ?_⟩
  · intro other found hfound
    rw [hentries] at hfound
    by_cases hother : other = entry.key
    · rw [hother, Function.update_self] at hfound
      exact Option.some.inj hfound ▸ hlossless
    · rw [Function.update_of_ne hother] at hfound
      exact h.lossless other found hfound
  · intro other found hfound
    have hmem := hwithin.of_published? hfound
    rw [hentries] at hfound
    by_cases hother : other = entry.key
    · rw [hother, Function.update_self] at hfound
      rw [hother, Shelf.written_fileName, Option.some.inj hfound]
    · rw [Function.update_of_ne hother] at hfound
      -- the other entries have files of their own, and none of them is a temporary one
      have hname : other.fileName ≠ entry.key.fileName := fun heq => hother (hinj hmem hkey heq)
      have htemporary := (CacheKey.temporaryName_ne_fileName entry.key other).symm
      rw [Shelf.written_of_ne hname htemporary]
      exact h.written other found hfound
  · intro name bytes hbytes
    rw [hentries]
    by_cases hname : name = entry.key.fileName
    · exact ⟨entry.key, entry, Function.update_self .., hname.symm⟩
    · rw [Shelf.written, Function.update_of_ne hname] at hbytes
      by_cases htemporary : name = entry.key.temporaryName
      · rw [htemporary, Function.update_self] at hbytes
        cases hbytes
      · rw [Function.update_of_ne htemporary] at hbytes
        obtain ⟨other, found, hfound, hother⟩ := h.nothing_else name bytes hbytes
        refine ⟨other, found, ?_, hother⟩
        rw [Function.update_of_ne (hold other found hfound), hfound]

/-- The files of the removed entries go, and no others. -/
theorem removed (hinj : keys.InjOn CacheKey.fileName)
    (hsafe : ∀ key ∈ keys, ¬ mayFail (some key.fileName))
    (h : Mirrored format keys cache before) {test : CacheKey → Slot V → Bool}
    (hcleared : Cleared (cache.doomed test) mayFail before contents) :
    Mirrored format keys (cache.drop (cache.doomed test).contains) contents := by
  have hkept : ∀ key entry, (cache.drop (cache.doomed test).contains).published? key = some entry →
      key ∉ cache.doomed test ∧ cache.published? key = some entry := by
    intro key entry hentry
    rw [h.wellFormed.distinct.published?_drop] at hentry
    split at hentry
    · cases hentry
    · rename_i hkey
      exact ⟨fun hmem => hkey (List.contains_iff_mem.mpr hmem), hentry⟩
  refine ⟨h.wellFormed.drop _, h.within.drop _, ?_, ?_, ?_⟩
  · intro key entry hentry
    exact h.lossless key entry (hkept key entry hentry).2
  · intro key entry hentry
    obtain ⟨hnot, hold⟩ := hkept key entry hentry
    -- no removed key has the file of one that stays
    rw [hcleared.same, h.written key entry hold]
    intro other hother hname
    have hkey := hinj (h.within.of_mem_doomed hother) (h.within.of_published? hold) hname
    exact hnot (hkey ▸ hother)
  · intro name bytes hbytes
    obtain ⟨key, entry, hentry, rfl⟩ := h.nothing_else name bytes (hcleared.eq_some hbytes)
    refine ⟨key, entry, ?_, rfl⟩
    rw [h.wellFormed.distinct.published?_drop, if_neg, hentry]
    rw [List.contains_iff_mem]
    intro hmem
    rw [h.within.gone_of_mem_doomed hsafe hcleared hmem] at hbytes
    cases hbytes

/-- What is read from the files are the published entries. -/
theorem published?_ofEntries (hfits : ∀ key ∈ keys, key.FitsName)
    (hsafe : ∀ key ∈ keys, ¬ mayFail (some key.fileName))
    (h : Mirrored format keys cache contents) {names : List String} {entries : List (CacheEntry V)}
    (hread : ReadFrom format mayFail contents names entries)
    (hall : ∀ name, Path.IsPlain name → contents name ≠ none → name ∈ names) :
    (ofEntries entries).published? = cache.published? := by
  have hsub : ∀ key entry, (ofEntries entries).published? key = some entry →
      cache.published? key = some entry := by
    intro key entry hentry
    obtain ⟨hmem, rfl⟩ := mem_of_published?_ofEntries hentry
    obtain ⟨name, -, hheld⟩ := hread.held entry hmem
    exact (h.holds_iff.mp hheld).1
  ext key entry
  refine ⟨hsub key entry, fun hentry => ?_⟩
  have hkey := h.within.of_published? hentry
  have hfile := (hfits key hkey).isEntryFile
  have hwritten := h.written key entry hentry
  have hname : key.fileName ∈ names :=
    hall key.fileName hfile.1 (by rw [hwritten]; exact Option.some_ne_none _)
  have hmem := hread.all _ hname hfile (hsafe key hkey) entry
    ⟨_, hwritten, h.lossless key entry hentry⟩
  obtain ⟨found, hfound⟩ := exists_published?_ofEntries hmem
  rw [h.wellFormed.key_of_published? hentry] at hfound
  have hsame := hsub key found hfound
  rw [hentry] at hsame
  rw [hfound, hsame]

theorem opened (hfits : ∀ key ∈ keys, key.FitsName)
    (hsafe : ∀ key ∈ keys, ¬ mayFail (some key.fileName))
    (h : Mirrored format keys cache contents) {names : List String} {entries : List (CacheEntry V)}
    (hread : ReadFrom format mayFail contents names entries)
    (hall : ∀ name, Path.IsPlain name → contents name ≠ none → name ∈ names) :
    Mirrored format keys (ofEntries entries) contents := by
  apply h.congr (wellFormed_ofEntries entries)
  · apply within_ofEntries
    intro entry hentry
    obtain ⟨name, -, hheld⟩ := hread.held entry hentry
    exact h.within.of_published? (h.holds_iff.mp hheld).1
  · exact h.published?_ofEntries hfits hsafe hread hall

theorem step (hfits : ∀ key ∈ keys, key.FitsName) (hinj : keys.InjOn CacheKey.fileName)
    (hfolder : ¬ mayFail none)
    (hsafe : ∀ key ∈ keys, ¬ mayFail (some key.temporaryName) ∧ ¬ mayFail (some key.fileName))
    (h : Mirrored shelf.format keys cache before) {op : CacheOperation (StateT σ n) V}
    {answer : Option V} (hkept : op ≠ .clear)
    (houtcome : op.Outcome (some shelf) mayFail EntryFormat.Lossless keys cache before answer after
      contents) : Mirrored shelf.format keys after contents := by
  cases houtcome with
  | asked hkey hrecorded =>
    cases hrecorded with
    | found _ => exact h
    | made hnone heq hlossless hafter hwithin hentries =>
      subst heq
      exact h.made hinj hkey hnone (hlossless shelf rfl) hafter hwithin hentries
    | nothing _ _ hafter hwithin hentries => exact h.congr hafter hwithin hentries
    | unwritten _ hfail _ _ _ =>
      rcases hfail with htemporary | hfile
      · exact absurd htemporary (hsafe _ hkey).1
      · exact absurd hfile (hsafe _ hkey).2
  | removed _ hcleared =>
    exact h.removed hinj (fun key hkey => (hsafe key hkey).2) (hcleared shelf rfl)
  | cleared => exact absurd rfl hkept
  | unopened hfail => exact absurd (hfail shelf rfl) hfolder
  | opened hshelf hread hall =>
    cases hshelf
    exact h.opened hfits (fun key hkey => (hsafe key hkey).2) hread hall

end Mirrored

/-- What operations may come to on a cache that is opened over an empty folder and never cleared.
They ask for given keys. -/
inductive Stored [Monad n] (shelf : Shelf (StateT σ n) V) (files : σ → Contents)
    (keys : Set CacheKey) (answers : CacheKey → V → Prop) : Cache V → σ → Prop
  | opened {cache : Cache V} {s s' : σ} (hempty : ∀ name, files s name = none)
      (hends : Yields ((reopen shelf).run s) (.ok cache, s')) :
      Stored shelf files keys answers cache s'
  | step {cache after : Cache V} {s s' : σ} {op : CacheOperation (StateT σ n) V}
      {answer : Option V} (h : Stored shelf files keys answers cache s)
      (huses : op.Uses files keys answers) (hkept : op ≠ .clear)
      (hends : Yields (((op.run (some shelf)).run cache).run s) ((answer, after), s')) :
      Stored shelf files keys answers after s'

variable {shelf : Shelf (StateT σ n) V} {answers : CacheKey → V → Prop} [Monad n] [LawfulMonad n]

theorem Mirrored.reopen_same (hserves : shelf.folder.Serves files mayFail)
    (hfits : ∀ key ∈ keys, key.FitsName) (hfolder : ¬ mayFail none)
    (hsafe : ∀ key ∈ keys, ¬ mayFail (some key.fileName)) {s : σ}
    (h : Mirrored shelf.format keys cache (files s)) :
    Ensures ((reopen shelf).run s) fun r => files r.2 = files s ∧
      ∃ opened, r.1 = .ok opened ∧ opened.published? = cache.published? ∧
        Mirrored shelf.format keys opened (files r.2) := by
  refine (reopen_reads hserves s).mono ?_
  rintro ⟨result, s'⟩ ⟨hsame, ⟨-, hfail⟩ | ⟨names, entries, rfl, hread, hall⟩⟩
  · exact absurd hfail hfolder
  · refine ⟨hsame, _, rfl, h.published?_ofEntries hfits hsafe hread hall, ?_⟩
    rw [hsame]
    exact h.opened hfits hsafe hread hall

theorem Stored.mirrored (hserves : shelf.folder.Serves files mayFail)
    (hfits : ∀ key ∈ keys, key.FitsName) (hinj : keys.InjOn CacheKey.fileName)
    (hfolder : ¬ mayFail none)
    (hsafe : ∀ key ∈ keys, ¬ mayFail (some key.temporaryName) ∧ ¬ mayFail (some key.fileName))
    (hlossless : ∀ key ∈ keys, ∀ vector, answers key vector →
      shelf.Stamps files shelf.format.Lossless key vector)
    {s : σ} (h : Stored shelf files keys answers cache s) :
    Mirrored shelf.format keys cache (files s) := by
  induction h with
  | opened hempty hends =>
    have hstart : Mirrored shelf.format keys ∅ (files _) := Mirrored.empty hempty
    have hopened := hstart.reopen_same hserves hfits hfolder fun key hkey => (hsafe key hkey).2
    obtain ⟨-, _, heq, -, hmirrored⟩ := hends _ hopened
    cases heq
    exact hmirrored
  | @step _ _ s _ _ _ _ huses hkept hends ih =>
    have hshelf : ∀ kept ∈ some shelf, kept.folder.Serves files mayFail := by
      rintro _ ⟨⟩
      exact hserves
    have hstamps : ∀ kept ∈ some shelf, ∀ key ∈ keys, ∀ vector, answers key vector →
        kept.Stamps files kept.format.Lossless key vector := by
      rintro _ ⟨⟩
      exact hlossless
    have houtcome := CacheOperation.run_outcome hshelf hfits hstamps ih.wellFormed ih.within huses s
    exact ih.step hfits hinj hfolder hsafe hkept (hends _ houtcome)

end Cache

/-- Whenever an operation is over, the files hold the published entries, no other file is there,
least of all a temporary one, and the cache that is opened from them gives every key the same
answer. -/
theorem files_hold_published_entries {n : Type → Type} [Monad n] [LawfulMonad n] {σ V : Type}
    (shelf : Shelf (StateT σ n) V) (files : σ → Contents) (mayFail : Option String → Prop)
    (keys : Set CacheKey) (answers : CacheKey → V → Prop)
    (hserves : shelf.folder.Serves files mayFail)
    (hfits : ∀ key ∈ keys, key.FitsName) (hinj : keys.InjOn CacheKey.fileName)
    (hfolder : ¬ mayFail none)
    (hsafe : ∀ key ∈ keys, ¬ mayFail (some key.temporaryName) ∧ ¬ mayFail (some key.fileName))
    (hlossless : ∀ key ∈ keys, ∀ vector, answers key vector →
      shelf.Stamps files shelf.format.Lossless key vector)
    (cache : Cache V) (s : σ) (h : Cache.Stored shelf files keys answers cache s) :
    (∀ name entry, shelf.format.Holds (files s) name entry ↔
      cache.published? entry.key = some entry ∧ entry.key.fileName = name) ∧
    (∀ name, files s name ≠ none → ∃ entry, shelf.format.Holds (files s) name entry) ∧
    (∀ key, files s (CacheKey.temporaryName key) = none) ∧
    Ensures ((Cache.reopen shelf).run s) fun r => files r.2 = files s ∧
      ∃ opened, r.1 = .ok opened ∧ ∀ key, opened.get? key = cache.get? key := by
  have hmirrored := h.mirrored hserves hfits hinj hfolder hsafe hlossless
  refine ⟨fun _ _ => hmirrored.holds_iff, ?_, hmirrored.temporaryName, ?_⟩
  · intro name hname
    obtain ⟨bytes, hbytes⟩ := Option.ne_none_iff_exists'.mp hname
    obtain ⟨key, entry, hentry, rfl⟩ := hmirrored.nothing_else name bytes hbytes
    exact ⟨entry, _, hmirrored.written key entry hentry, hmirrored.lossless key entry hentry⟩
  · refine (hmirrored.reopen_same hserves hfits hfolder fun key hkey => (hsafe key hkey).2).mono ?_
    rintro ⟨_, s'⟩ ⟨hsame, opened, rfl, hpublished, -⟩
    refine ⟨hsame, opened, rfl, fun key => ?_⟩
    rw [Cache.get?_eq_map, Cache.get?_eq_map, hpublished]

/-! ### An example -/

/-- A step of a program that has no effects but on files. -/
theorem Cache.Stored.next {shelf : Shelf (StateM σ) V} {answers : CacheKey → V → Prop} {s : σ}
    (h : Stored shelf files keys answers cache s) (op : CacheOperation (StateM σ) V)
    (huses : op.Uses files keys answers) (hkept : op ≠ .clear) :
    Stored shelf files keys answers (((op.run (some shelf)).run cache).run s).run.1.2
      (((op.run (some shelf)).run cache).run s).run.2 :=
  h.step huses hkept (Yields.run (((op.run (some shelf)).run cache).run s))

/-- The vectors of two keys. -/
def pairVectors : List (CacheKey × String) := [(⟨"x", "m"⟩, "one"), (⟨"y", "m"⟩, "two")]

theorem pair_reads_back : ∀ pair ∈ pairVectors,
    EntryFormat.lines.Lossless ⟨pair.1, pair.2, "now"⟩ := by
  decide +kernel

theorem files_hold_published_entries_pair :
    ∃ cache s, Cache.Stored lineShelf Table.get? {key | key ∈ pairVectors.map Prod.fst}
        (fun key vector => (key, vector) ∈ pairVectors) cache s ∧
      EntryFormat.lines.Holds s.get? "y-m.json" ⟨⟨"y", "m"⟩, "two", "now"⟩ ∧
      s.get? "x-m.json" = none := by
  have hopened : Cache.Stored lineShelf Table.get? {key | key ∈ pairVectors.map Prod.fst}
      (fun key vector => (key, vector) ∈ pairVectors) ∅ ∅ :=
    .opened (fun _ => rfl) (Yields.run ((Cache.reopen lineShelf).run ∅))
  have hone := hopened.next (.getOrCompute ⟨"x", "m"⟩ (pure (.ok "one")))
    ⟨by decide, quiet_ok (by decide)⟩ nofun
  have hfailed := hone.next (.getOrCompute ⟨"y", "m"⟩ (pure (.error (.rateLimited 60))))
    ⟨by decide, quiet_error _⟩ nofun
  have htwo := hfailed.next (.getOrCompute ⟨"y", "m"⟩ (pure (.ok "two")))
    ⟨by decide, quiet_ok (by decide)⟩ nofun
  have hrun := htwo.next (.invalidate "x") trivial nofun
  have hinj : ∀ key ∈ pairVectors.map Prod.fst, ∀ other ∈ pairVectors.map Prod.fst,
      key.fileName = other.fileName → key = other := by
    decide +kernel
  have hfits : ∀ key ∈ pairVectors.map Prod.fst, key.FitsName := by decide
  have hlossless : ∀ key vector, (key, vector) ∈ pairVectors →
      lineShelf.Stamps Table.get? lineShelf.format.Lossless key vector :=
    fun key vector hvector => lineShelf_stamps (pair_reads_back (key, vector) hvector)
  have hsame := files_hold_published_entries lineShelf Table.get? (fun _ => False) _ _
    (Table.folder_serves "cache") hfits (fun key hkey other hother => hinj key hkey other hother)
    id (fun _ _ => ⟨id, id⟩) (fun key _ => hlossless key) _ _ hrun
  refine ⟨_, _, hrun, (hsame.1 _ _).mpr ⟨?_, ?_⟩, ?_⟩
  · decide +kernel
  · decide +kernel
  · decide +kernel

/-! ### Names that lead to one file -/

/-- A directory of a file tree for entries in lines. -/
def treeShelf : Shelf (StateM Tree) String where
  folder := (Tree.fileSystem "" "now").folder "cache"
  format := .lines
  now := return "now"

/-- Two fingerprints of which one leads to the same file as the other by way of a dot. -/
def dottedKeys : CacheKey × CacheKey := (⟨"x", "m"⟩, ⟨"./x", "m"⟩)

/-- Opens a cache, gives it vectors for the two keys, and opens it again. -/
def dottedRun : StateM Tree (Option (Cache String × Cache String)) := do
  match ← Cache.reopen treeShelf with
  | .error _ => return none
  | .ok cache =>
    let (_, cache) ← (CacheOperation.run (some treeShelf)
      (.getOrCompute dottedKeys.1 (pure (.ok "one")))).run cache
    let (_, cache) ← (CacheOperation.run (some treeShelf)
      (.getOrCompute dottedKeys.2 (pure (.ok "two")))).run cache
    match ← Cache.reopen treeShelf with
    | .error _ => return none
    | .ok opened => return some (cache, opened)

/-- With a slash in a fingerprint, different names do not make different files: nothing fails, and
still an entry is lost when the directory is opened again. -/
theorem dotted_fingerprint_replaces_entry :
    dottedKeys.1.fileName ≠ dottedKeys.2.fileName ∧
    (dottedRun.run ∅).1.map (fun caches =>
        (caches.1.get? dottedKeys.1, caches.1.get? dottedKeys.2)) = some (some "one", some "two") ∧
    (dottedRun.run ∅).1.map (fun caches =>
        (caches.2.get? dottedKeys.1, caches.2.get? dottedKeys.2)) = some (none, some "two") := by
  decide +kernel

end ContextSets
