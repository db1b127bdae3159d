import ContextSets.Proofs.CacheAnswers
import ContextSets.Proofs.EntryNames
import Mathlib.Data.Set.Basic

/-!
# The cache and its files

What the operations on a cache that is kept on disk do to the files of its folder. All that is asked
of the folder is that an access either does what it is for or reports a fault, where faults may be
had.
-/

namespace ContextSets

/-- What the files of a folder hold, by name. -/
abbrev Contents := String → Option ByteArray

variable {n : Type → Type} [Monad n] {σ V : Type} {files : σ → Contents}
  {mayFail : Option String → Prop}

/-! ### Folders -/

/-- A folder whose files can be told from the state of the computation. An access does what it is
for, or else it reports a fault, if a file that it touches may fail, or the folder as a whole
(`none`). Of a file that could not be written anything may be left; otherwise a fault changes
nothing. Nothing is asked about names that lead out of the folder. -/
structure Folder.Serves (folder : Folder (StateT σ n)) (files : σ → Contents)
    (mayFail : Option String → Prop) : Prop where
  prepare : ∀ s, Ensures (folder.prepare.run s) fun r =>
    files r.2 = files s ∧ (r.1 = .ok () ∨ mayFail none)
  names : ∀ s, Ensures (folder.names.run s) fun r =>
    files r.2 = files s ∧
      ((∃ names, r.1 = .ok names ∧ (∀ name ∈ names, Path.IsPlain name) ∧
          ∀ name, Path.IsPlain name → files s name ≠ none → name ∈ names) ∨
        (∃ fault, r.1 = .error fault) ∧ mayFail none)
  read : ∀ s name, Path.IsPlain name → Ensures ((folder.read name).run s) fun r =>
    files r.2 = files s ∧
      ((∃ bytes, r.1 = .ok bytes ∧ files s name = some bytes) ∨
        (∃ fault, r.1 = .error fault) ∧ (files s name = none ∨ mayFail (some name)))
  write : ∀ s name bytes, Path.IsPlain name → Ensures ((folder.write name bytes).run s) fun r =>
    (r.1 = .ok () ∧ files r.2 = Function.update (files s) name (some bytes)) ∨
      (∃ fault, r.1 = .error fault) ∧ mayFail (some name) ∧
        ∃ left, files r.2 = Function.update (files s) name left
  rename : ∀ s source target bytes, Path.IsPlain source → Path.IsPlain target →
    files s source = some bytes → Ensures ((folder.rename source target).run s) fun r =>
      (r.1 = .ok () ∧ files r.2 =
          Function.update (Function.update (files s) source none) target (some bytes)) ∨
        (∃ fault, r.1 = .error fault) ∧ (mayFail (some source) ∨ mayFail (some target)) ∧
          files r.2 = files s
  remove : ∀ s name, Path.IsPlain name → Ensures ((folder.remove name).run s) fun r =>
    ((r.1 = .ok () ∨ r.1 = .error .notFound) ∧ files r.2 = Function.update (files s) name none) ∨
      (∃ fault, r.1 = .error fault) ∧ mayFail (some name) ∧ files r.2 = files s

/-! ### Entries in files -/

/-- A file holds an entry. -/
def EntryFormat.Holds (format : EntryFormat V) (contents : Contents) (name : String)
    (entry : CacheEntry V) : Prop :=
  ∃ bytes, contents name = some bytes ∧ format.decode? bytes = some entry

theorem EntryFormat.Holds.ne_none {format : EntryFormat V} {contents : Contents} {name : String}
    {entry : CacheEntry V} (h : format.Holds contents name entry) : contents name ≠ none := by
  obtain ⟨bytes, hbytes, -⟩ := h
  rw [hbytes]
  exact Option.some_ne_none bytes

/-- A written entry is read back. -/
def EntryFormat.Lossless (format : EntryFormat V) (entry : CacheEntry V) : Prop :=
  format.decode? (format.encode entry) = some entry

deriving instance DecidableEq for CacheEntry

instance [DecidableEq V] (format : EntryFormat V) : DecidablePred format.Lossless := fun entry =>
  inferInstanceAs (Decidable (format.decode? (format.encode entry) = some entry))

/-- No other entry is read back than the one that was written. -/
def EntryFormat.Safe (format : EntryFormat V) (entry : CacheEntry V) : Prop :=
  ∀ other, format.decode? (format.encode entry) = some other → other = entry

theorem EntryFormat.Lossless.safe {format : EntryFormat V} {entry : CacheEntry V}
    (h : format.Lossless entry) : format.Safe entry := by
  intro other hother
  rw [h] at hother
  exact (Option.some.inj hother).symm

/-- The names of the files that are read when a cache is opened. -/
def IsEntryFile (name : String) : Prop :=
  Path.IsPlain name ∧ Path.extension? name = some "json"

theorem CacheKey.FitsName.isEntryFile {key : CacheKey} (h : key.FitsName) :
    IsEntryFile key.fileName :=
  ⟨h.isPlain_fileName, h.extension?_fileName⟩

theorem CacheKey.FitsName.ne_temporaryName {key : CacheKey} {name : String} (h : key.FitsName)
    (hname : IsEntryFile name) : name ≠ key.temporaryName := by
  rintro rfl
  have hextension := hname.2
  rw [h.extension?_temporaryName] at hextension
  exact absurd (Option.some.inj hextension) (by decide)

/-- What the files hold once an entry has been written. -/
def Shelf.written {m : Type → Type} (shelf : Option (Shelf m V)) (entry : CacheEntry V)
    (contents : Contents) : Contents :=
  match shelf with
  | none => contents
  | some shelf => Function.update (Function.update contents entry.key.temporaryName none)
      entry.key.fileName (some (shelf.format.encode entry))

section Written

variable {m : Type → Type} {shelf : Shelf m V} {entry found : CacheEntry V} {contents : Contents}
  {name : String}

theorem Shelf.written_fileName :
    Shelf.written (some shelf) entry contents entry.key.fileName =
      some (shelf.format.encode entry) :=
  Function.update_self ..

theorem Shelf.written_of_ne (hfile : name ≠ entry.key.fileName)
    (htemporary : name ≠ entry.key.temporaryName) :
    Shelf.written (some shelf) entry contents name = contents name := by
  rw [written, Function.update_of_ne hfile, Function.update_of_ne htemporary]

/-- The file of an entry that has been written holds no other. -/
theorem EntryFormat.Safe.eq_of_written (hsafe : shelf.format.Safe entry)
    (h : shelf.format.Holds (Shelf.written (some shelf) entry contents) entry.key.fileName found) :
    found = entry := by
  obtain ⟨bytes, hbytes, hdecode⟩ := h
  rw [Shelf.written_fileName] at hbytes
  rw [← Option.some.inj hbytes] at hdecode
  exact hsafe found hdecode

end Written

/-- What the files hold once those of some keys have been removed, as far as there are no faults. -/
structure Cleared (removed : List CacheKey) (mayFail : Option String → Prop)
    (before after : Contents) : Prop where
  rest : ∀ name, after name = before name ∨
    after name = none ∧ ∃ key ∈ removed, key.fileName = name
  gone : (∀ key ∈ removed, ¬ mayFail (some key.fileName)) →
    ∀ key ∈ removed, after key.fileName = none

namespace Cleared

variable {removed : List CacheKey} {before after : Contents} {name : String}

/-- A file that belongs to none of the removed keys stays as it is. -/
theorem same (h : Cleared removed mayFail before after)
    (hname : ∀ key ∈ removed, key.fileName ≠ name) : after name = before name := by
  rcases h.rest name with hsame | ⟨-, key, hkey, hfile⟩
  · exact hsame
  · exact absurd hfile (hname key hkey)

/-- What is there once files have been removed was there before. -/
theorem eq_some {bytes : ByteArray} (h : Cleared removed mayFail before after)
    (hbytes : after name = some bytes) : before name = some bytes := by
  rcases h.rest name with hsame | ⟨hnone, -⟩
  · rw [← hsame, hbytes]
  · rw [hnone] at hbytes
    cases hbytes

theorem holds {format : EntryFormat V} {entry : CacheEntry V}
    (h : Cleared removed mayFail before after) (hheld : format.Holds after name entry) :
    format.Holds before name entry := by
  obtain ⟨bytes, hbytes, hdecode⟩ := hheld
  exact ⟨bytes, h.eq_some hbytes, hdecode⟩

end Cleared

theorem Cleared.cons {removed : List CacheKey} {key : CacheKey} {before mid after : Contents}
    (h : Cleared removed mayFail mid after)
    (hmid : mid = Function.update before key.fileName none ∨
      mayFail (some key.fileName) ∧ mid = before) :
    Cleared (key :: removed) mayFail before after := by
  refine ⟨fun name => ?_, fun hsafe => List.forall_mem_cons.mpr ⟨?_, ?_⟩⟩
  · rcases h.rest name with hsame | ⟨hnone, other, hother, hname⟩
    · rcases hmid with rfl | ⟨-, rfl⟩
      · by_cases hkey : name = key.fileName
        · exact .inr ⟨by rw [hsame, hkey, Function.update_self], key, List.mem_cons_self, hkey.symm⟩
        · exact .inl (by rw [hsame, Function.update_of_ne hkey])
      · exact .inl hsame
    · exact .inr ⟨hnone, other, List.mem_cons_of_mem _ hother, hname⟩
  · rcases hmid with rfl | ⟨hfail, -⟩
    · rcases h.rest key.fileName with hsame | ⟨hnone, -⟩
      · rw [hsame, Function.update_self]
      · exact hnone
    · exact absurd hfail (hsafe key List.mem_cons_self)
  · exact h.gone fun other hother => hsafe other (List.mem_cons_of_mem _ hother)

/-- Entries that have been read: each is held by a file, and none is missed that is held by one of
some files, unless reading it may fail. -/
structure ReadFrom (format : EntryFormat V) (mayFail : Option String → Prop) (contents : Contents)
    (names : List String) (entries : List (CacheEntry V)) : Prop where
  held : ∀ entry ∈ entries, ∃ name, IsEntryFile name ∧ format.Holds contents name entry
  all : ∀ name ∈ names, IsEntryFile name → ¬ mayFail (some name) →
    ∀ entry, format.Holds contents name entry → entry ∈ entries

section ReadFrom

variable {format : EntryFormat V} {contents : Contents} {names : List String}
  {entries : List (CacheEntry V)} {name : String}

theorem ReadFrom.nil : ReadFrom format mayFail contents [] [] :=
  ⟨fun _ h => (nomatch h), fun _ h => (nomatch h)⟩

theorem ReadFrom.skip (h : ReadFrom format mayFail contents names entries)
    (hname : IsEntryFile name → ¬ mayFail (some name) →
      ∀ entry, ¬ format.Holds contents name entry) :
    ReadFrom format mayFail contents (names ++ [name]) entries := by
  refine ⟨h.held, fun other hother hfile hsafe entry hentry => ?_⟩
  rcases List.mem_append.mp hother with hold | hnew
  · exact h.all other hold hfile hsafe entry hentry
  · rw [List.mem_singleton.mp hnew] at hfile hsafe hentry
    exact absurd hentry (hname hfile hsafe entry)

theorem ReadFrom.take {entry : CacheEntry V} (h : ReadFrom format mayFail contents names entries)
    (hfile : IsEntryFile name) (hentry : format.Holds contents name entry) :
    ReadFrom format mayFail contents (names ++ [name]) (entries ++ [entry]) := by
  refine ⟨fun found hfound => ?_, fun other hother hother' hsafe found hfound => ?_⟩
  · rcases List.mem_append.mp hfound with hold | hnew
    · exact h.held found hold
    · rw [List.mem_singleton.mp hnew]
      exact ⟨name, hfile, hentry⟩
  · apply List.mem_append.mpr
    rcases List.mem_append.mp hother with hold | hnew
    · exact .inl (h.all other hold hother' hsafe found hfound)
    · rw [List.mem_singleton.mp hnew] at hfound
      obtain ⟨bytes, hbytes, hdecode⟩ := hentry
      obtain ⟨bytes', hbytes', hdecode'⟩ := hfound
      rw [hbytes] at hbytes'
      rw [← Option.some.inj hbytes', hdecode] at hdecode'
      exact .inr (List.mem_singleton.mpr (Option.some.inj hdecode').symm)

end ReadFrom

namespace Cache

variable [LawfulMonad n] {cache : Cache V} {key : CacheKey}

section Files

variable {shelf : Shelf (StateT σ n) V} (hserves : shelf.folder.Serves files mayFail)

include hserves

theorem persist_writes {entry : CacheEntry V} (hfits : entry.key.FitsName) (s : σ) :
    Ensures ((persist (some shelf) entry).run s) fun r =>
      (r.1 = .ok () ∧ files r.2 = Shelf.written (some shelf) entry (files s)) ∨
      (∃ fault, r.1 = .error fault) ∧
        (mayFail (some entry.key.temporaryName) ∨ mayFail (some entry.key.fileName)) ∧
        ∃ left, files r.2 = Function.update (files s) entry.key.temporaryName left := by
  unfold persist
  refine Ensures.run_bind (hserves.write s _ _ hfits.isPlain_temporaryName) ?_
  rintro written s' (⟨rfl, hwritten⟩ | ⟨⟨fault, rfl⟩, hfail, hleft⟩)
  · have hsource : files s' entry.key.temporaryName = some (shelf.format.encode entry) := by
      rw [hwritten, Function.update_self]
    have hplain := hfits.isPlain_temporaryName
    refine (hserves.rename s' _ _ _ hplain hfits.isPlain_fileName hsource).mono ?_
    rintro ⟨renamed, s''⟩ (⟨rfl, hrenamed⟩ | ⟨hfault, hfail, hsame⟩)
    · left
      refine ⟨rfl, ?_⟩
      rw [hrenamed, hwritten, Function.update_idem]
      rfl
    · right
      exact ⟨hfault, hfail, _, hsame.trans hwritten⟩
  · apply Ensures.run_pure
    right
    exact ⟨⟨fault, rfl⟩, .inl hfail, hleft⟩

theorem removeFiles_clears (removed : List CacheKey) (hfits : ∀ key ∈ removed, key.FitsName)
    (s : σ) :
    Ensures ((removeFiles (some shelf) removed).run s) fun r =>
      Cleared removed mayFail (files s) (files r.2) := by
  induction removed generalizing s with
  | nil => exact .run_pure ⟨fun _ => .inl rfl, fun _ _ h => nomatch h⟩
  | cons key rest ih =>
    obtain ⟨hkey, hrest⟩ := List.forall_mem_cons.mp hfits
    have hcontinue : ∀ s', (files s' = Function.update (files s) key.fileName none ∨
          mayFail (some key.fileName) ∧ files s' = files s) →
        Ensures ((removeFiles (some shelf) rest).run s') fun r =>
          Cleared (key :: rest) mayFail (files s) (files r.2) :=
      fun s' hmid => (ih hrest s').mono fun _ hcleared => hcleared.cons hmid
    unfold removeFiles
    refine Ensures.run_bind (hserves.remove s key.fileName hkey.isPlain_fileName) ?_
    rintro removal s' (⟨rfl | rfl, hgone⟩ | ⟨⟨fault, rfl⟩, hfail, hsame⟩)
    · exact hcontinue s' (.inl hgone)
    · exact hcontinue s' (.inl hgone)
    · split
      · exact hcontinue s' (.inr ⟨hfail, hsame⟩)
      · exact hcontinue s' (.inr ⟨hfail, hsame⟩)
      · apply Ensures.run_pure
        rw [hsame]
        exact ⟨fun _ => .inl rfl, fun hsafe => absurd hfail (hsafe key List.mem_cons_self)⟩

theorem load_reads (names : List String) (hplain : ∀ name ∈ names, Path.IsPlain name)
    {done : List String} {entries : List (CacheEntry V)} (s : σ)
    (hread : ReadFrom shelf.format mayFail (files s) done entries) :
    Ensures ((load shelf names (ofEntries entries)).run s) fun r => files r.2 = files s ∧
      ∃ more, r.1 = ofEntries more ∧
        ReadFrom shelf.format mayFail (files s) (done ++ names) more := by
  induction names generalizing done entries s with
  | nil =>
    rw [List.append_nil]
    exact .run_pure ⟨rfl, entries, rfl, hread⟩
  | cons name rest ih =>
    obtain ⟨hname, hrest⟩ := List.forall_mem_cons.mp hplain
    have hcontinue : ∀ s' more, files s' = files s →
        ReadFrom shelf.format mayFail (files s) (done ++ [name]) more →
        Ensures ((load shelf rest (ofEntries more)).run s') fun r => files r.2 = files s ∧
          ∃ more, r.1 = ofEntries more ∧
            ReadFrom shelf.format mayFail (files s) (done ++ name :: rest) more := by
      intro s' more hsame hmore
      have hload := ih hrest s' (hsame ▸ hmore)
      rw [hsame, List.append_assoc, List.singleton_append] at hload
      exact hload
    unfold load
    split
    · rename_i hextension
      have hfile : IsEntryFile name := ⟨hname, eq_of_beq hextension⟩
      refine Ensures.run_bind (hserves.read s name hname) ?_
      rintro bytes s' ⟨hsame, ⟨bytes, rfl, hbytes⟩ | ⟨⟨fault, rfl⟩, hmissing⟩⟩
      · cases hdecode : shelf.format.decode? bytes with
        | none =>
          simp only [hdecode]
          refine hcontinue s' entries hsame (hread.skip fun _ _ entry hentry => ?_)
          obtain ⟨bytes', hbytes', hdecode'⟩ := hentry
          rw [hbytes] at hbytes'
          rw [← Option.some.inj hbytes', hdecode] at hdecode'
          cases hdecode'
        | some entry =>
          simp only [hdecode]
          rw [← ofEntries_concat]
          exact hcontinue s' _ hsame (hread.take hfile ⟨bytes, hbytes, hdecode⟩)
      · refine hcontinue s' entries hsame (hread.skip fun _ hsafe entry hentry => ?_)
        obtain ⟨bytes, hbytes, -⟩ := hentry
        rcases hmissing with hnone | hfail
        · rw [hnone] at hbytes
          cases hbytes
        · exact hsafe hfail
    · rename_i hextension
      refine hcontinue s entries rfl (hread.skip fun hfile _ _ _ => hextension ?_)
      rw [hfile.2]
      rfl

/-- A cache that is opened holds what is held by the files. -/
theorem reopen_reads (s : σ) :
    Ensures ((reopen shelf).run s) fun r => files r.2 = files s ∧
      ((∃ e, r.1 = .error e) ∧ mayFail none ∨
        ∃ names entries, r.1 = .ok (ofEntries entries) ∧
          ReadFrom shelf.format mayFail (files s) names entries ∧
          ∀ name, Path.IsPlain name → files s name ≠ none → name ∈ names) := by
  unfold reopen
  refine Ensures.run_bind (hserves.prepare s) ?_
  rintro prepared s₁ ⟨hprepared, hresult⟩
  cases prepared with
  | error fault =>
    apply Ensures.run_pure
    refine ⟨hprepared, .inl ⟨⟨_, rfl⟩, ?_⟩⟩
    rcases hresult with hok | hfail
    · cases hok
    · exact hfail
  | ok =>
    refine Ensures.run_bind (hserves.names s₁) ?_
    rintro listed s₂ ⟨hlisted, ⟨names, rfl, hplain, hall⟩ | ⟨⟨fault, rfl⟩, hfail⟩⟩
    · refine Ensures.run_bind (load_reads hserves names hplain s₂ ReadFrom.nil) ?_
      rintro cache s₃ ⟨hloaded, entries, rfl, hread⟩
      apply Ensures.run_pure
      have hsame : files s₂ = files s := hlisted.trans hprepared
      rw [hsame] at hread
      rw [hprepared] at hall
      exact ⟨hloaded.trans hsame, .inr ⟨names, entries, rfl, hread, hall⟩⟩
    · apply Ensures.run_pure
      exact ⟨hlisted.trans hprepared, .inl ⟨⟨_, rfl⟩, hfail⟩⟩

end Files

end Cache

end ContextSets
