import ContextSets.Proofs.FiledEntries

/-!
# Keys with files of their own

What is done for one key shows in the file that is named after it and in no other. A key whose file
has another name is not touched. Two keys with one file name share the file, and it is lost to one of
them as soon as something is done for the other.
-/

namespace ContextSets

variable {n : Type → Type} {σ V : Type} {files : σ → Contents} {mayFail : Option String → Prop}
  {cache after : Cache V} {before contents : Contents} {key other : CacheKey} {answer : Option V}

namespace CacheOperation

/-- An operation asks for the vector of one key, or removes no other slot than its. -/
def Concerns (cache : Cache V) (key : CacheKey) (op : CacheOperation (StateT σ n) V) : Prop :=
  (∃ compute, op = .getOrCompute key compute) ∨
    ∃ test, op.removal? = some test ∧ ∀ other ∈ cache.doomed test, other = key

/-- An operation has made the entry of a key, or removes its slot. -/
def Touches (cache : Cache V) (key : CacheKey) (answer : Option V)
    (op : CacheOperation (StateT σ n) V) : Prop :=
  op.computed cache answer ≠ [] ∨ ∃ test, op.removal? = some test ∧ key ∈ cache.doomed test

variable {op : CacheOperation (StateT σ n) V} {shelf : Shelf (StateT σ n) V}
  {P : EntryFormat V → CacheEntry V → Prop} {keys : Set CacheKey}

/-- The file of another key stays as it is, unless it has the same name and the key is touched. -/
theorem Outcome.file_same (hconcerns : op.Concerns cache key)
    (houtcome : op.Outcome (some shelf) mayFail P keys cache before answer after contents)
    (hapart : ¬ (key.fileName = other.fileName ∧ op.Touches cache key answer)) :
    contents other.fileName = before other.fileName := by
  have htemporary := (CacheKey.temporaryName_ne_fileName key other).symm
  rcases hconcerns with ⟨compute, rfl⟩ | ⟨test, htest, hdoomed⟩
  · cases houtcome with
    | asked _ hrecorded =>
      cases hrecorded with
      | found _ => rfl
      | @made entry _ hnone hkey _ _ _ _ =>
        subst hkey
        have hmade : (CacheOperation.getOrCompute entry.key compute).Touches cache entry.key
            (Reply.ok entry.vector).value? := by
          left
          rw [computed, if_neg]
          · exact List.cons_ne_nil _ _
          · rw [Cache.contains_iff_published?, hnone]
            rintro ⟨_, ⟨⟩⟩
        have hfile : other.fileName ≠ entry.key.fileName := fun heq => hapart ⟨heq.symm, hmade⟩
        exact Shelf.written_of_ne hfile htemporary
      | nothing _ _ _ _ _ => rfl
      | unwritten _ _ _ _ _ => rw [Function.update_of_ne htemporary]
    | removed hremoval _ => cases hremoval
  · cases houtcome with
    | asked _ _ => cases htest
    | cleared => rfl
    | unopened _ => rfl
    | opened _ _ _ => rfl
    | removed hremoval hcleared =>
      obtain rfl := Option.some.inj (htest.symm.trans hremoval)
      refine (hcleared shelf rfl).same fun gone hgone hname => ?_
      obtain rfl := hdoomed gone hgone
      exact hapart ⟨hname, .inr ⟨test, htest, hgone⟩⟩

/-- A key that shares its file with one that is touched has no entry any more. -/
theorem Outcome.kept?_shared (hne : other ≠ key) (hconcerns : op.Concerns cache key)
    (houtcome : op.Outcome (some shelf) mayFail EntryFormat.Safe keys cache before answer after
      contents)
    (hname : key.fileName = other.fileName) (htouches : op.Touches cache key answer)
    (hsafe : ¬ mayFail (some other.fileName)) :
    shelf.format.kept? contents other = none := by
  rcases hconcerns with ⟨compute, rfl⟩ | ⟨test, htest, hdoomed⟩
  · have hcomputed : (CacheOperation.getOrCompute key compute).computed cache answer ≠ [] := by
      rcases htouches with hcomputed | ⟨_, hremoval, -⟩
      · exact hcomputed
      · cases hremoval
    cases houtcome with
    | asked _ hrecorded =>
      cases hrecorded with
      | found hentry =>
        refine absurd ?_ hcomputed
        rw [computed, if_pos (Cache.contains_iff_published?.mpr ⟨_, hentry⟩)]
      | @made entry _ _ hkey hentry _ _ _ =>
        subst hkey
        refine Option.eq_none_iff_forall_ne_some.mpr fun found hfound => ?_
        obtain ⟨hheld, hother⟩ := EntryFormat.kept?_eq_some_iff.mp hfound
        rw [← hname] at hheld
        rw [(hentry shelf rfl).eq_of_written hheld] at hother
        exact hne hother.symm
      | nothing _ hreply _ _ _ =>
        rw [hreply, computed_none] at hcomputed
        exact absurd rfl hcomputed
      | unwritten _ _ _ _ _ => exact absurd (computed_none _ cache) hcomputed
    | removed hremoval _ => cases hremoval
  · cases houtcome with
    | asked _ _ => cases htest
    | cleared => cases htest
    | unopened _ => cases htest
    | opened _ _ _ => cases htest
    | removed hremoval hcleared =>
      obtain rfl := Option.some.inj (htest.symm.trans hremoval)
      have hmem : key ∈ cache.doomed test := by
        rcases htouches with hcomputed | ⟨other, hother, hmem⟩
        · exact absurd (computed_none op cache) hcomputed
        · obtain rfl := Option.some.inj (htest.symm.trans hother)
          exact hmem
      have hgone : ∀ gone ∈ cache.doomed test, ¬ mayFail (some gone.fileName) := by
        intro gone hgone
        rw [hdoomed gone hgone, hname]
        exact hsafe
      have hnone := (hcleared shelf rfl).gone hgone key hmem
      exact EntryFormat.kept?_of_none (hname ▸ hnone)

end CacheOperation

/-- Computing or dropping the entry of one key does not change what a cache answers for another key
when it is opened again, if their files have different names, also if the files of the first key
fail. If their files have one name, then the other key has no answer any more as soon as the entry of
the first is made or dropped. -/
theorem separate_files_keep_keys_apart {n : Type → Type} [Monad n] [LawfulMonad n] {σ V : Type}
    (shelf : Shelf (StateT σ n) V) (files : σ → Contents) (mayFail : Option String → Prop)
    (answers : CacheKey → V → Prop) (hserves : shelf.folder.Serves files mayFail)
    (hsafe : ∀ key vector, answers key vector →
      shelf.Stamps files shelf.format.Safe key vector)
    (log : List (CacheKey × V)) (cache : Cache V) (s : σ)
    (h : Cache.History (some shelf) files {key | key.FitsName} answers log cache s)
    (key other : CacheKey) (hne : other ≠ key) (hfits : other.FitsName)
    (hfolder : ¬ mayFail none) (hfile : ¬ mayFail (some other.fileName))
    (op : CacheOperation (StateT σ n) V) (huses : op.Uses files {key | key.FitsName} answers)
    (hconcerns : op.Concerns cache key) (answer : Option V) (after : Cache V) (s' : σ)
    (hends : Yields (((op.run (some shelf)).run cache).run s) ((answer, after), s')) :
    ∃ before : Option V,
      (Ensures ((Cache.reopen shelf).run s) fun r =>
        ∃ opened, r.1 = .ok opened ∧ opened.get? other = before) ∧
      (¬ (key.fileName = other.fileName ∧ op.Touches cache key answer) →
        Ensures ((Cache.reopen shelf).run s') fun r =>
          ∃ opened, r.1 = .ok opened ∧ opened.get? other = before) ∧
      (key.fileName = other.fileName ∧ op.Touches cache key answer →
        Ensures ((Cache.reopen shelf).run s') fun r =>
          ∃ opened, r.1 = .ok opened ∧ opened.get? other = none) := by
  obtain ⟨hsourced, hfiled⟩ := h.filed hserves (fun _ => id) hsafe
  have houtcome := hsourced.outcome hserves (fun _ => id) hsafe huses hends
  have hreopened := (hfiled.step (fun _ => id) houtcome).reopen_answers hserves hfolder hfits hfile
  refine ⟨_, hfiled.reopen_answers hserves hfolder hfits hfile, fun hapart => ?_, ?_⟩
  · rw [EntryFormat.kept?_congr (houtcome.file_same hconcerns hapart)] at hreopened
    exact hreopened
  · rintro ⟨hname, htouches⟩
    rw [houtcome.kept?_shared hne hconcerns hname htouches hfile] at hreopened
    exact hreopened

/-! ### Examples -/

/-- Two keys with one file name, as the dash may belong to either part of it. -/
def dashedKeys : CacheKey × CacheKey := (⟨"x", "y-z"⟩, ⟨"x-y", "z"⟩)

/-- A key that has its file for itself. -/
def plainKey : CacheKey := ⟨"w", "m"⟩

/-- The vectors of the keys. -/
def dashedVectors : List (CacheKey × String) :=
  [(dashedKeys.1, "one"), (dashedKeys.2, "two"), (plainKey, "three")]

theorem dashed_read_back : ∀ pair ∈ dashedVectors,
    EntryFormat.lines.Lossless ⟨pair.1, pair.2, "now"⟩ := by
  decide +kernel

theorem separate_files_keep_keys_apart_dashed :
    ∃ log cache s, Cache.History (some lineShelf) Table.get? {key | key.FitsName}
        (fun key vector => (key, vector) ∈ dashedVectors) log cache s ∧
      plainKey.fileName ≠ dashedKeys.1.fileName ∧ cache.get? plainKey = some "three" ∧
      cache.get? dashedKeys.1 = some "one" ∧
      let s' := ((((CacheOperation.invalidate "x").run (some lineShelf)).run cache).run s).run.2
      ∃ before : Option String,
        (Ensures ((Cache.reopen lineShelf).run s) fun r =>
          ∃ opened, r.1 = .ok opened ∧ opened.get? plainKey = before) ∧
        Ensures ((Cache.reopen lineShelf).run s') fun r =>
          ∃ opened, r.1 = .ok opened ∧ opened.get? plainKey = before := by
  have hstart : Cache.History (some lineShelf) Table.get? {key | key.FitsName}
      (fun key vector => (key, vector) ∈ dashedVectors) [] ∅ ∅ := history_lineShelf
  have hfirst : dashedKeys.1.FitsName ∧ (dashedKeys.1, "one") ∈ dashedVectors := by decide
  have hplain : plainKey.FitsName ∧ (plainKey, "three") ∈ dashedVectors := by decide
  have hone := hstart.next (.getOrCompute dashedKeys.1 (pure (.ok "one")))
    ⟨hfirst.1, quiet_ok hfirst.2⟩
  have hrun := hone.next (.getOrCompute plainKey (pure (.ok "three")))
    ⟨hplain.1, quiet_ok hplain.2⟩
  have hname : plainKey.fileName ≠ dashedKeys.1.fileName := by decide +kernel
  refine ⟨_, _, _, hrun, hname, by decide +kernel, by decide +kernel, ?_⟩
  obtain ⟨before, hbefore, hsame, -⟩ := separate_files_keep_keys_apart lineShelf Table.get?
    (fun _ => False) _ (Table.folder_serves "cache")
    (fun key vector hvector => lineShelf_stamps (dashed_read_back (key, vector) hvector).safe)
    _ _ _ hrun dashedKeys.1 plainKey (by decide) hplain.1 id id (.invalidate "x") trivial
    (.inr ⟨_, rfl, by decide +kernel⟩) _ _ _ (Yields.run _)
  exact ⟨before, hbefore, hsame fun hshared => hname hshared.1.symm⟩

/-- Making the entry of one key, and dropping it, each take away what would be read back for another
key with the same file name. -/
theorem dashed_keys_interfere :
    dashedKeys.1 ≠ dashedKeys.2 ∧
    keptAfter [.getOrCompute dashedKeys.2 (pure (.ok "two"))] dashedKeys.2 = some "two" ∧
    keptAfter [.getOrCompute dashedKeys.2 (pure (.ok "two")),
      .getOrCompute dashedKeys.1 (pure (.ok "one"))] dashedKeys.2 = none ∧
    keptAfter [.getOrCompute dashedKeys.1 (pure (.ok "one")),
      .getOrCompute dashedKeys.2 (pure (.ok "two"))] dashedKeys.2 = some "two" ∧
    keptAfter [.getOrCompute dashedKeys.1 (pure (.ok "one")),
      .getOrCompute dashedKeys.2 (pure (.ok "two")),
      .invalidate dashedKeys.1.fingerprint] dashedKeys.2 = none := by
  decide +kernel

end ContextSets
