import ContextSets.Proofs.FiledEntries

/-!
# Invalidation that lasts

Which files are removed is decided from the slots in memory. So invalidation reaches every file of a
fingerprint as long as each entry on disk is also published, which holds from the opening of a folder
on until the memory is cleared. What is answered for the fingerprint afterwards, whatever is done with
the cache and also once the folder is opened again, has been computed after the invalidation.
-/

namespace ContextSets

variable {n : Type → Type} {σ V : Type} {files : σ → Contents} {mayFail : Option String → Prop}
  {shelf : Shelf (StateT σ n) V} {keys : Set CacheKey} {cache after : Cache V}
  {before contents : Contents} {log : List (CacheKey × V)} {answers : CacheKey → V → Prop}

namespace Cache

/-- What operations may come to that are allowed, from a given cache and given files on, with the
vectors that they have computed, the last one first. -/
inductive Course [Monad n] (shelf : Shelf (StateT σ n) V)
    (allowed : CacheOperation (StateT σ n) V → Prop) (cache : Cache V) (s : σ) :
    List (CacheKey × V) → Cache V → σ → Prop
  | start : Course shelf allowed cache s [] cache s
  | step {log : List (CacheKey × V)} {mid after : Cache V} {s₁ s₂ : σ}
      {op : CacheOperation (StateT σ n) V} {answer : Option V}
      (h : Course shelf allowed cache s log mid s₁) (hop : allowed op)
      (hends : Yields (((op.run (some shelf)).run mid).run s₁) ((answer, after), s₂)) :
      Course shelf allowed cache s (op.computed mid answer ++ log) after s₂

/-- The entries that files hold are published too. -/
def Tracks (format : EntryFormat V) (cache : Cache V) (contents : Contents) : Prop :=
  ∀ name entry, IsEntryFile name → format.Holds contents name entry →
    ∃ found, cache.published? entry.key = some found

/-- A cache that has just been opened knows all that its files hold. -/
theorem Tracks.opened (hfiled : shelf.format.Filed keys contents)
    (hsafe : ∀ key ∈ keys, ¬ mayFail (some key.fileName)) {names : List String}
    {entries : List (CacheEntry V)} (hread : ReadFrom shelf.format mayFail contents names entries)
    (hall : ∀ name, Path.IsPlain name → contents name ≠ none → name ∈ names) :
    Tracks shelf.format (ofEntries entries) contents := by
  intro name entry hname hheld
  obtain ⟨hkey, rfl⟩ := hfiled name entry hname hheld
  have hmem : entry.key.fileName ∈ names := hall _ hname.1 hheld.ne_none
  exact exists_published?_ofEntries (hread.all _ hmem hname (hsafe _ hkey) entry hheld)

theorem Tracks.step (hfits : ∀ key ∈ keys, key.FitsName)
    (hsafe : ∀ key ∈ keys, ¬ mayFail (some key.fileName))
    (hsourced : Sourced (some shelf) keys log cache before) (hfiled : shelf.format.Filed keys before)
    (h : Tracks shelf.format cache before) {op : CacheOperation (StateT σ n) V}
    {answer : Option V} (hkept : op ≠ .clear)
    (houtcome : op.Outcome (some shelf) mayFail EntryFormat.Safe keys cache before answer after
      contents) : Tracks shelf.format after contents := by
  intro name entry hname hheld
  rcases houtcome.holds hfits hname hheld with hold | ⟨-, -, hmade⟩
  · obtain ⟨found, hfound⟩ := h name entry hname hold
    cases houtcome with
    | asked _ hrecorded =>
      cases hrecorded with
      | found _ => exact ⟨found, hfound⟩
      | @made made _ _ hkey _ _ _ hentries =>
        rw [hentries]
        by_cases heq : entry.key = made.key
        · exact ⟨made, by rw [heq, ← hkey, Function.update_self]⟩
        · exact ⟨found, by rw [Function.update_of_ne (hkey ▸ heq), hfound]⟩
      | nothing _ _ _ _ hentries => exact ⟨found, by rw [hentries, hfound]⟩
      | unwritten _ _ _ _ hentries => exact ⟨found, by rw [hentries, hfound]⟩
    | @removed _ test _ _ hcleared =>
      refine ⟨found, ?_⟩
      rw [hsourced.wellFormed.distinct.published?_drop, if_neg, hfound]
      -- the file of a removed slot would be gone
      rw [List.contains_iff_mem]
      intro hdoomed
      have hgone := hsourced.within.gone_of_mem_doomed hsafe (hcleared shelf rfl) hdoomed
      obtain ⟨-, hfile⟩ := hfiled name entry hname hold
      exact hheld.ne_none (hfile ▸ hgone)
    | cleared => exact absurd rfl hkept
    | unopened _ => exact ⟨found, hfound⟩
    | opened hshelf hread hall =>
      cases hshelf
      exact Tracks.opened hfiled hsafe hread hall name entry hname hheld
  · exact ⟨entry, hmade⟩

/-- What has been computed for other fingerprints. -/
def besides (fingerprint : String) (log : List (CacheKey × V)) : List (CacheKey × V) :=
  log.filter (·.1.fingerprint != fingerprint)

theorem mem_besides {fingerprint : String} {key : CacheKey} {vector : V} :
    (key, vector) ∈ besides fingerprint log ↔
      (key, vector) ∈ log ∧ key.fingerprint ≠ fingerprint := by
  simp [besides]

theorem WellFormed.mem_doomed_of_published? {fingerprint : String} {key : CacheKey}
    {entry : CacheEntry V} (h : cache.WellFormed) (hentry : cache.published? key = some entry)
    (hfingerprint : key.fingerprint = fingerprint) :
    key ∈ cache.doomed fun key _ => key.fingerprint == fingerprint := by
  obtain ⟨slot, hslot, -⟩ := h.distinct.published?_eq_some_iff.mp hentry
  exact mem_doomed.mpr ⟨slot, hslot, beq_iff_eq.mpr hfingerprint⟩

/-- Once a fingerprint has been invalidated, all that is held in memory and on disk has been computed
for others. -/
theorem Sourced.invalidated (hsafe : ∀ key ∈ keys, ¬ mayFail (some key.fileName))
    {fingerprint : String} (h : Sourced (some shelf) keys log cache before)
    (hfiled : shelf.format.Filed keys before) (htracks : Tracks shelf.format cache before)
    (hcleared : ∀ kept ∈ some shelf,
      Cleared (cache.doomed fun key _ => key.fingerprint == fingerprint) mayFail before contents) :
    Sourced (some shelf) keys (besides fingerprint log)
      (cache.drop (cache.doomed fun key _ => key.fingerprint == fingerprint).contains)
      contents := by
  have hremoved := h.removed hcleared
  refine { hremoved with asked := ?_, memory := ?_, disk := ?_ }
  · intro key vector hmem
    exact h.asked key vector (mem_besides.mp hmem).1
  · intro key entry hentry
    refine mem_besides.mpr ⟨hremoved.memory key entry hentry, fun hfingerprint => ?_⟩
    rw [h.wellFormed.distinct.published?_drop] at hentry
    split at hentry
    · cases hentry
    · rename_i hkept
      exact hkept (List.contains_iff_mem.mpr
        (h.wellFormed.mem_doomed_of_published? hentry hfingerprint))
  · rintro _ ⟨⟩ name entry hname hheld
    refine mem_besides.mpr ⟨hremoved.disk shelf rfl name entry hname hheld, fun hfingerprint => ?_⟩
    -- the entry was held before, so it had a slot, which has been removed with its file
    have hold := (hcleared shelf rfl).holds hheld
    obtain ⟨-, hfile⟩ := hfiled name entry hname hold
    obtain ⟨found, hfound⟩ := htracks name entry hname hold
    have hgone := h.within.gone_of_mem_doomed hsafe (hcleared shelf rfl)
      (h.wellFormed.mem_doomed_of_published? hfound hfingerprint)
    exact hheld.ne_none (hfile ▸ hgone)

/-- What is read from the files has been computed. -/
theorem Sourced.reopen_answers [Monad n] [LawfulMonad n]
    (hserves : shelf.folder.Serves files mayFail) {s : σ}
    (h : Sourced (some shelf) keys log cache (files s)) :
    Ensures ((reopen shelf).run s) fun r => ∀ opened, r.1 = .ok opened →
      ∀ key vector, opened.get? key = some vector → (key, vector) ∈ log := by
  refine (reopen_reads hserves s).mono ?_
  rintro ⟨_, s'⟩ ⟨-, ⟨⟨e, rfl⟩, -⟩ | ⟨names, entries, rfl, hread, -⟩⟩
  · exact fun _ hopened => nomatch hopened
  · rintro _ ⟨⟩ key vector hget
    obtain ⟨entry, hentry, rfl⟩ := get?_eq_some_iff.mp hget
    exact (h.opened rfl hread).memory key entry hentry

section Course

variable [Monad n] [LawfulMonad n] {s s' : σ} {mid : Cache V} {since : List (CacheKey × V)}

theorem Course.sourced (hserves : shelf.folder.Serves files mayFail)
    (hfits : ∀ key ∈ keys, key.FitsName)
    (hsafe : ∀ key vector, answers key vector →
      shelf.Stamps files shelf.format.Safe key vector)
    {allowed : CacheOperation (StateT σ n) V → Prop}
    (hallowed : ∀ op, allowed op → op.Uses files keys answers)
    (hstart : Sourced (some shelf) keys log cache (files s))
    (h : Course shelf allowed cache s since mid s') :
    Sourced (some shelf) keys (since ++ log) mid (files s') := by
  induction h with
  | start => exact hstart
  | @step _ _ _ _ _ op answer _ hop hends ih =>
    rw [List.append_assoc]
    exact ih.step hfits (ih.outcome hserves hfits hsafe (hallowed op hop) hends)

/-- As long as the memory is not cleared, every entry on disk is also published. -/
theorem Course.tracks (hserves : shelf.folder.Serves files mayFail)
    (hfits : ∀ key ∈ keys, key.FitsName)
    (hsafe : ∀ key vector, answers key vector →
      shelf.Stamps files shelf.format.Safe key vector)
    (hwhole : ∀ key ∈ keys, ¬ mayFail (some key.fileName))
    (hstart : Sourced (some shelf) keys log cache (files s))
    (hfiled : shelf.format.Filed keys (files s)) (htracks : Tracks shelf.format cache (files s))
    (h : Course shelf (fun op => op.Uses files keys answers ∧ op ≠ .clear) cache s since mid s') :
    shelf.format.Filed keys (files s') ∧ Tracks shelf.format mid (files s') := by
  induction h with
  | start => exact ⟨hfiled, htracks⟩
  | step h hop hends ih =>
    have hsourced := Course.sourced hserves hfits hsafe (fun _ => And.left) hstart h
    have houtcome := hsourced.outcome hserves hfits hsafe hop.1 hends
    exact ⟨ih.1.step hfits houtcome, ih.2.step hfits hwhole hsourced ih.1 hop.2 houtcome⟩

end Course

end Cache

/-- Whatever has been done with a cache before, for keys whose files never fail: from the opening of its
folder on, until the memory is cleared, an invalidation that succeeds lasts. What is published
afterwards for the fingerprint, whatever is done then, and what a cache has that is opened from the
folder at any later time, has been computed since. -/
theorem invalidation_lasts {n : Type → Type} [Monad n] [LawfulMonad n] {σ V : Type}
    (shelf : Shelf (StateT σ n) V) (files : σ → Contents) (mayFail : Option String → Prop)
    (keys : Set CacheKey) (answers : CacheKey → V → Prop)
    (hserves : shelf.folder.Serves files mayFail) (hfits : ∀ key ∈ keys, key.FitsName)
    (hsafe : ∀ key vector, answers key vector →
      shelf.Stamps files shelf.format.Safe key vector)
    (hwhole : ∀ key ∈ keys, ¬ mayFail (some key.fileName))
    (log : List (CacheKey × V)) (old : Cache V) (s : σ)
    (hbefore : Cache.History (some shelf) files keys answers log old s)
    (opened : Cache V) (s₁ : σ) (hopened : Yields ((Cache.reopen shelf).run s) (.ok opened, s₁))
    (log₁ : List (CacheKey × V)) (cache : Cache V) (s₂ : σ)
    (hcourse : Cache.Course shelf (fun op => op.Uses files keys answers ∧ op ≠ .clear) opened s₁ log₁
      cache s₂)
    (fingerprint : String) (removed : Nat) (cleared : Cache V) (s₃ : σ)
    (hinvalidated : Yields (((Cache.invalidate (some shelf) fingerprint).run cache).run s₂)
      ((.ok removed, cleared), s₃))
    (log₂ : List (CacheKey × V)) (after : Cache V) (s₄ : σ)
    (hafter : Cache.Course shelf (fun op => op.Uses files keys answers) cleared s₃ log₂ after s₄)
    (model : String) :
    (∀ vector, after.get? ⟨fingerprint, model⟩ = some vector →
      (⟨fingerprint, model⟩, vector) ∈ log₂) ∧
    Ensures ((Cache.reopen shelf).run s₄) fun r => ∀ opened, r.1 = .ok opened →
      ∀ vector, opened.get? ⟨fingerprint, model⟩ = some vector →
        (⟨fingerprint, model⟩, vector) ∈ log₂ := by
  obtain ⟨hsourced, hfiled⟩ := hbefore.filed hserves hfits hsafe
  -- the folder is opened
  have hopening : files s₁ = files s ∧ Cache.Sourced (some shelf) keys log opened (files s₁) ∧
      Cache.Tracks shelf.format opened (files s₁) := by
    obtain ⟨hsame, ⟨⟨e, he⟩, -⟩ | ⟨names, entries, heq, hread, hall⟩⟩ :=
      hopened _ (Cache.reopen_reads hserves s)
    · cases he
    · cases heq
      rw [hsame]
      exact ⟨rfl, hsourced.opened rfl hread, .opened hfiled hwhole hread hall⟩
  obtain ⟨hsame, hsourced₁, htracks₁⟩ := hopening
  rw [← hsame] at hfiled
  -- the memory follows the files until the invalidation
  have hsourced₂ := Cache.Course.sourced hserves hfits hsafe (fun _ => And.left) hsourced₁ hcourse
  obtain ⟨hfiled₂, htracks₂⟩ :=
    Cache.Course.tracks hserves hfits hsafe hwhole hsourced₁ hfiled htracks₁ hcourse
  have hshelf : ∀ kept ∈ some shelf, kept.folder.Serves files mayFail := by
    rintro _ ⟨⟩
    exact hserves
  obtain ⟨rfl, hcleared⟩ := hinvalidated _
    (Cache.removeWhere_clears hshelf hsourced₂.within hfits _ s₂)
  have hsourced₃ := hsourced₂.invalidated hwhole hfiled₂ htracks₂ hcleared
  -- nothing comes back
  have hsourced₄ := Cache.Course.sourced hserves hfits hsafe (fun _ => id) hsourced₃ hafter
  have hsince : ∀ vector, (⟨fingerprint, model⟩, vector) ∈
      log₂ ++ Cache.besides fingerprint (log₁ ++ log) → (⟨fingerprint, model⟩, vector) ∈ log₂ := by
    intro vector hmem
    refine (List.mem_append.mp hmem).resolve_right fun hold => ?_
    exact (Cache.mem_besides.mp hold).2 rfl
  constructor
  · intro vector hget
    obtain ⟨entry, hentry, rfl⟩ := Cache.get?_eq_some_iff.mp hget
    exact hsince _ (hsourced₄.memory _ entry hentry)
  · refine (hsourced₄.reopen_answers hserves).mono ?_
    exact fun r hread opened hopened vector hget =>
      hsince vector (hread opened hopened _ vector hget)

/-! ### Examples -/

/-- Does operations one after another on a cache whose programs have no effects but on files. Keeps
the vectors that they compute. -/
def Cache.course (shelf : Shelf (StateM σ) V) (start : List (CacheKey × V) × Cache V × σ)
    (ops : List (CacheOperation (StateM σ) V)) : List (CacheKey × V) × Cache V × σ :=
  ops.foldl (fun (log, cache, s) op =>
    let result := (((op.run (some shelf)).run cache).run s).run
    (op.computed cache result.1.1 ++ log, result.1.2, result.2)) start

theorem Cache.Course.append {shelf : Shelf (StateM σ) V}
    {allowed : CacheOperation (StateM σ) V → Prop} {s s' : σ} {mid : Cache V}
    (ops : List (CacheOperation (StateM σ) V)) (hops : ∀ op ∈ ops, allowed op)
    (h : Course shelf allowed cache s log mid s') :
    let result := Cache.course shelf (log, mid, s') ops
    Course shelf allowed cache s result.1 result.2.1 result.2.2 := by
  induction ops generalizing log mid s' with
  | nil => exact h
  | cons op ops ih =>
    obtain ⟨hop, hrest⟩ := List.forall_mem_cons.mp hops
    exact ih hrest (h.step hop (Yields.run (((op.run (some shelf)).run mid).run s')))

/-- A key whose vector is computed, invalidated and computed again. -/
def renewedKey : CacheKey := ⟨"x", "m"⟩

/-- A key that is left alone. -/
def untouchedKey : CacheKey := ⟨"y", "m"⟩

/-- All that is asked for. -/
def renewedKeys : List CacheKey := [renewedKey, untouchedKey]

/-- The vectors of the keys. -/
def renewedVectors : List (CacheKey × String) :=
  [(renewedKey, "one"), (renewedKey, "two"), (untouchedKey, "three")]

theorem renewed_read_back : ∀ pair ∈ renewedVectors,
    EntryFormat.lines.Lossless ⟨pair.1, pair.2, "now"⟩ := by
  decide +kernel

/-- What there is before the invalidation, -/
def renewedBefore : List (CacheKey × String) × Cache String × Table ByteArray :=
  Cache.course lineShelf ([], ∅, ∅)
    [.getOrCompute renewedKey (pure (.ok "one")), .getOrCompute untouchedKey (pure (.ok "three"))]

/-- what comes of it, -/
def renewedDropped : (Except EmbeddingError Nat × Cache String) × Table ByteArray :=
  ((Cache.invalidate (some lineShelf) renewedKey.fingerprint).run renewedBefore.2.1).run
    renewedBefore.2.2 |>.run

/-- and what there is once more has been done. -/
def renewedAfter : List (CacheKey × String) × Cache String × Table ByteArray :=
  Cache.course lineShelf ([], renewedDropped.1.2, renewedDropped.2)
    [.getOrCompute renewedKey (pure (.ok "two")), .clear, .reopen]

theorem invalidation_lasts_renewed :
    renewedBefore.2.1.get? renewedKey = some "one" ∧
    renewedDropped.1.2.get? renewedKey = none ∧
    renewedAfter.2.1.get? renewedKey = some "two" ∧
    (renewedKey, "two") ∈ renewedAfter.1 := by
  have hsafe : ∀ key vector, (key, vector) ∈ renewedVectors →
      lineShelf.Stamps Table.get? lineShelf.format.Safe key vector :=
    fun key vector hvector => lineShelf_stamps (renewed_read_back (key, vector) hvector).safe
  have hfits : ∀ key ∈ renewedKeys, key.FitsName := by decide
  have hrenewed : renewedKey ∈ renewedKeys ∧ (renewedKey, "one") ∈ renewedVectors ∧
      (renewedKey, "two") ∈ renewedVectors := by decide
  have huntouched : untouchedKey ∈ renewedKeys ∧ (untouchedKey, "three") ∈ renewedVectors := by decide
  have hbefore : Cache.Course lineShelf (fun op => op.Uses Table.get? {key | key ∈ renewedKeys}
      (fun key vector => (key, vector) ∈ renewedVectors) ∧ op ≠ .clear) ∅ ∅ renewedBefore.1
      renewedBefore.2.1 renewedBefore.2.2 := by
    refine Cache.Course.start.append _ ?_
    simp only [List.forall_mem_cons]
    exact ⟨⟨⟨hrenewed.1, quiet_ok hrenewed.2.1⟩, nofun⟩,
      ⟨⟨huntouched.1, quiet_ok huntouched.2⟩, nofun⟩, nofun⟩
  have hafter : Cache.Course lineShelf (fun op => op.Uses Table.get? {key | key ∈ renewedKeys}
      (fun key vector => (key, vector) ∈ renewedVectors)) renewedDropped.1.2 renewedDropped.2
      renewedAfter.1 renewedAfter.2.1 renewedAfter.2.2 := by
    refine Cache.Course.start.append _ ?_
    simp only [List.forall_mem_cons]
    exact ⟨⟨hrenewed.1, quiet_ok hrenewed.2.2⟩, trivial, trivial, nofun⟩
  have hdropped : renewedDropped = ((.ok 1, renewedDropped.1.2), renewedDropped.2) :=
    Prod.ext (Prod.ext (by decide +kernel) rfl) rfl
  have hlast : renewedAfter.2.1.get? renewedKey = some "two" := by decide +kernel
  have hlasts := invalidation_lasts lineShelf Table.get? (fun _ => False) _ _
    (Table.folder_serves "cache") hfits hsafe (fun _ _ => id) [] ∅ ∅ history_lineShelf ∅ ∅
    (Yields.run ((Cache.reopen lineShelf).run ∅)) renewedBefore.1 renewedBefore.2.1
    renewedBefore.2.2 hbefore renewedKey.fingerprint 1 renewedDropped.1.2 renewedDropped.2
    (hdropped ▸ Yields.run _) renewedAfter.1 renewedAfter.2.1 renewedAfter.2.2 hafter
    renewedKey.model
  exact ⟨by decide +kernel, by decide +kernel, hlast, hlasts.1 "two" hlast⟩

/-- A clearing takes the slots away that tell which files to remove: the invalidation succeeds, but
the files stay, and what they hold is answered again once the folder is opened. -/
theorem clear_hides_files_from_invalidation :
    let start := Cache.course lineShelf ([], ∅, ∅)
      [.getOrCompute renewedKey (pure (.ok "one")), .clear]
    let dropped := ((Cache.invalidate (some lineShelf) renewedKey.fingerprint).run
      start.2.1).run start.2.2 |>.run
    dropped.1.1 = .ok 0 ∧
    (Cache.course lineShelf ([], dropped.1.2, dropped.2) [.reopen]).1 = [] ∧
    (Cache.course lineShelf ([], dropped.1.2, dropped.2) [.reopen]).2.1.get? renewedKey =
      some "one" := by
  decide +kernel

end ContextSets
