import ContextSets.Proofs.MemoryFolder

/-!
# Where cached vectors come from

Files are named after keys, but several keys may have one file name, and then an entry may be
replaced or removed on disk by what is done for another key. Still no key is ever answered with a
vector that has not been computed for it: what a file holds says itself which key it is for.
-/

namespace ContextSets

variable {n : Type → Type} {σ V : Type} {files : σ → Contents} {mayFail : Option String → Prop}
  {shelf : Option (Shelf (StateT σ n) V)} {keys : Set CacheKey} {cache after : Cache V}
  {before contents : Contents} {log : List (CacheKey × V)}

/-- The vectors that an operation has computed, given its answer: one that is asked for is computed
if it is not published. -/
def CacheOperation.computed {m : Type → Type} (op : CacheOperation m V) (cache : Cache V)
    (answer : Option V) : List (CacheKey × V) :=
  match op with
  | getOrCompute key _ =>
    if cache.contains key then [] else (answer.map fun vector => (key, vector)).toList
  | invalidate _ | retain _ | clear | reopen => []

theorem CacheOperation.computed_none {m : Type → Type} (op : CacheOperation m V) (cache : Cache V) :
    op.computed cache none = [] := by
  cases op with
  | getOrCompute key compute => exact ite_self _
  | invalidate _ => rfl
  | retain _ => rfl
  | clear => rfl
  | reopen => rfl

namespace Cache

/-- What any operations may come to on a cache that starts empty, over a folder in which there is no
entry, with the vectors that have been computed, the last one first. They ask for given keys only. -/
inductive History [Monad n] (shelf : Option (Shelf (StateT σ n) V)) (files : σ → Contents)
    (keys : Set CacheKey) (answers : CacheKey → V → Prop) :
    List (CacheKey × V) → Cache V → σ → Prop
  | start {s : σ} (hnone : ∀ kept ∈ shelf, ∀ name entry, IsEntryFile name →
      ¬ kept.format.Holds (files s) name entry) : History shelf files keys answers [] ∅ s
  | step {log : List (CacheKey × V)} {cache after : Cache V} {s s' : σ}
      {op : CacheOperation (StateT σ n) V} {answer : Option V}
      (h : History shelf files keys answers log cache s) (huses : op.Uses files keys answers)
      (hends : Yields (((op.run shelf).run cache).run s) ((answer, after), s')) :
      History shelf files keys answers (op.computed cache answer ++ log) after s'

/-- All that is held in memory and on disk has been computed for the key it is held for. -/
structure Sourced (shelf : Option (Shelf (StateT σ n) V)) (keys : Set CacheKey)
    (log : List (CacheKey × V)) (cache : Cache V) (contents : Contents) : Prop where
  wellFormed : cache.WellFormed
  within : cache.Within keys
  asked : ∀ key vector, (key, vector) ∈ log → key ∈ keys
  memory : ∀ key entry, cache.published? key = some entry → (key, entry.vector) ∈ log
  disk : ∀ kept ∈ shelf, ∀ name entry, IsEntryFile name → kept.format.Holds contents name entry →
    (entry.key, entry.vector) ∈ log

theorem Sourced.start (hnone : ∀ kept ∈ shelf, ∀ name entry, IsEntryFile name →
    ¬ kept.format.Holds contents name entry) : Sourced shelf keys [] ∅ contents where
  wellFormed := WellFormed.empty
  within := Within.empty
  asked := fun _ _ h => nomatch h
  memory := fun _ _ h => nomatch h
  disk := fun kept hkept name entry hname h => absurd h (hnone kept hkept name entry hname)

/-- What holds no more than before is still computed. -/
theorem Sourced.sub (h : Sourced shelf keys log cache before) (hwf : after.WellFormed)
    (hwithin : after.Within keys)
    (hmemory : ∀ key entry, after.published? key = some entry → cache.published? key = some entry)
    (hdisk : ∀ kept ∈ shelf, ∀ name entry, IsEntryFile name →
      kept.format.Holds contents name entry → kept.format.Holds before name entry) :
    Sourced shelf keys log after contents where
  wellFormed := hwf
  within := hwithin
  asked := h.asked
  memory := fun key entry hentry => h.memory key entry (hmemory key entry hentry)
  disk := fun kept hkept name entry hname hentry =>
    h.disk kept hkept name entry hname (hdisk kept hkept name entry hname hentry)

/-- A file that has not been written holds what it held. -/
theorem holds_of_update {format : EntryFormat V} {written name : String} {left : Option ByteArray}
    {entry : CacheEntry V} (h : format.Holds (Function.update before written left) name entry)
    (hne : name ≠ written) : format.Holds before name entry := by
  obtain ⟨bytes, hbytes, hdecode⟩ := h
  rw [Function.update_of_ne hne] at hbytes
  exact ⟨bytes, hbytes, hdecode⟩

/-- A file that holds an entry after one has been written has held it before, or it is the one that
has been written. -/
theorem holds_of_written {kept : Shelf (StateT σ n) V} {name : String} {entry found : CacheEntry V}
    (hsafe : kept.format.Safe entry) (hname : name ≠ entry.key.temporaryName)
    (h : kept.format.Holds (Shelf.written (some kept) entry before) name found) :
    found = entry ∨ kept.format.Holds before name found := by
  by_cases hfile : name = entry.key.fileName
  · subst hfile
    exact .inl (hsafe.eq_of_written h)
  · exact .inr (holds_of_update (holds_of_update h hfile) hname)

theorem Sourced.recorded {key : CacheKey} {reply : Reply V} {compute : StateT σ n (Reply V)}
    (h : Sourced shelf keys log cache before) (hkeys : key ∈ keys) (hfits : key.FitsName)
    (hrecorded : Recorded shelf mayFail EntryFormat.Safe keys key cache before reply after contents) :
    Sourced shelf keys ((CacheOperation.getOrCompute key compute).computed cache reply.value? ++ log)
      after contents := by
  cases hrecorded with
  | found hentry =>
    have hcomputed := contains_iff_published?.mpr ⟨_, hentry⟩
    rw [CacheOperation.computed, if_pos hcomputed]
    exact h
  | @made entry _ hnone hkey hsafe hafter hwithin hentries =>
    subst hkey
    have hcomputed : ¬ cache.contains entry.key = true := by
      rw [contains_iff_published?, hnone]
      rintro ⟨_, ⟨⟩⟩
    rw [CacheOperation.computed, if_neg hcomputed]
    refine ⟨hafter, hwithin, ?_, ?_, ?_⟩
    · intro other vector hmem
      rcases List.mem_cons.mp hmem with hnew | hold
      · rw [(Prod.mk.inj hnew).1]
        exact hkeys
      · exact h.asked other vector hold
    · intro other found hfound
      rw [hentries] at hfound
      by_cases hother : other = entry.key
      · rw [hother, Function.update_self] at hfound
        rw [hother, ← Option.some.inj hfound]
        exact List.mem_cons_self
      · rw [Function.update_of_ne hother] at hfound
        exact List.mem_cons_of_mem _ (h.memory other found hfound)
    · -- the temporary file is not read, and the file of the key holds the new entry, whatever it held
      rintro kept hkept name found hname hfound
      obtain rfl := Option.mem_def.mp hkept
      rcases holds_of_written (hsafe kept rfl) (hfits.ne_temporaryName hname) hfound with rfl | hold
      · exact List.mem_cons_self
      · exact List.mem_cons_of_mem _ (h.disk kept rfl name found hname hold)
  | nothing hnone hreply hafter hwithin hentries =>
    rw [hreply, CacheOperation.computed_none]
    exact h.sub hafter hwithin (fun _ _ hfound => hentries ▸ hfound) fun _ _ _ _ _ hfound => hfound
  | unwritten hnone _ hafter hwithin hentries =>
    show Sourced shelf keys (CacheOperation.computed (.getOrCompute key compute) cache none ++ log) _ _
    rw [CacheOperation.computed_none]
    refine h.sub hafter hwithin (fun _ _ hfound => hentries ▸ hfound) ?_
    intro kept hkept name found hname hfound
    exact holds_of_update hfound (hfits.ne_temporaryName hname)

/-- Removing only takes away. -/
theorem Sourced.removed {test : CacheKey → Slot V → Bool} (h : Sourced shelf keys log cache before)
    (hcleared : ∀ kept ∈ shelf, Cleared (cache.doomed test) mayFail before contents) :
    Sourced shelf keys log (cache.drop (cache.doomed test).contains) contents := by
  refine h.sub (h.wellFormed.drop _) (h.within.drop _) ?_ ?_
  · intro key entry hentry
    rw [h.wellFormed.distinct.published?_drop] at hentry
    split at hentry
    · cases hentry
    · exact hentry
  · exact fun kept hkept name entry _ => (hcleared kept hkept).holds

/-- What is read from the files has been computed, since all that they hold has been. -/
theorem Sourced.opened {kept : Shelf (StateT σ n) V} {names : List String}
    {entries : List (CacheEntry V)} (h : Sourced shelf keys log cache before) (hkept : kept ∈ shelf)
    (hread : ReadFrom kept.format mayFail before names entries) :
    Sourced shelf keys log (ofEntries entries) before := by
  have hlog : ∀ entry ∈ entries, (entry.key, entry.vector) ∈ log := by
    intro entry hentry
    obtain ⟨name, hname, hheld⟩ := hread.held entry hentry
    exact h.disk kept hkept name entry hname hheld
  refine ⟨wellFormed_ofEntries entries, ?_, h.asked, ?_, h.disk⟩
  · exact within_ofEntries fun entry hentry => h.asked _ _ (hlog entry hentry)
  · intro key entry hentry
    obtain ⟨hmem, rfl⟩ := mem_of_published?_ofEntries hentry
    exact hlog entry hmem

theorem Sourced.step {op : CacheOperation (StateT σ n) V} {answer : Option V}
    (h : Sourced shelf keys log cache before) (hfits : ∀ key ∈ keys, key.FitsName)
    (houtcome : op.Outcome shelf mayFail EntryFormat.Safe keys cache before answer after contents) :
    Sourced shelf keys (op.computed cache answer ++ log) after contents := by
  cases houtcome with
  | asked hkey hrecorded => exact h.recorded hkey (hfits _ hkey) hrecorded
  | removed _ hcleared =>
    rw [CacheOperation.computed_none]
    exact h.removed hcleared
  | cleared =>
    have hwf := CacheOperation.wellFormed_clear h.wellFormed
    refine h.sub hwf (fun _ _ hslot => nomatch hslot) ?_ ?_
    · intro key entry hentry
      cases hentry
    · exact fun _ _ _ _ _ hentry => hentry
  | unopened _ => exact h
  | opened hkept hread _ => exact h.opened hkept hread

variable {answers : CacheKey → V → Prop} [Monad n] [LawfulMonad n]

theorem History.sourced (hserves : ∀ kept ∈ shelf, kept.folder.Serves files mayFail)
    (hfits : ∀ key ∈ keys, key.FitsName)
    (hsafe : ∀ kept ∈ shelf, ∀ key vector, answers key vector →
      kept.Stamps files kept.format.Safe key vector)
    {s : σ} (h : History shelf files keys answers log cache s) :
    Sourced shelf keys log cache (files s) := by
  induction h with
  | start hnone => exact .start hnone
  | @step _ _ _ s _ _ _ _ huses hends ih =>
    have houtcome := CacheOperation.run_outcome hserves hfits
      (fun kept hkept key _ vector => hsafe kept hkept key vector) ih.wellFormed ih.within huses s
    exact ih.step hfits (hends _ houtcome)

end Cache

/-- Whatever is done with a cache, also if files cannot be accessed and if several keys have one
file name: a vector that is published has been computed for exactly the key that it is published
for. It is the answer whenever it is asked for, without a computation; what is answered otherwise is
the outcome of the computation that was given. -/
theorem hits_have_been_computed {n : Type → Type} [Monad n] [LawfulMonad n] {σ V : Type}
    (shelf : Option (Shelf (StateT σ n) V)) (files : σ → Contents) (mayFail : Option String → Prop)
    (answers : CacheKey → V → Prop)
    (hserves : ∀ kept ∈ shelf, kept.folder.Serves files mayFail)
    (hsafe : ∀ kept ∈ shelf, ∀ key vector, answers key vector →
      kept.Stamps files kept.format.Safe key vector)
    (log : List (CacheKey × V)) (cache : Cache V) (s : σ)
    (h : Cache.History shelf files {key | key.FitsName} answers log cache s) (key : CacheKey) :
    (∀ vector, cache.get? key = some vector → (key, vector) ∈ log ∧
      ∀ compute, (Cache.getOrCompute shelf key compute).run cache = pure (.ok vector, cache)) ∧
    (cache.get? key = none → ∀ compute, ∃ conclude,
      (Cache.getOrCompute shelf key (StateT.lift compute)).run cache = compute >>= conclude ∧
        ∀ reply, Ensures (conclude reply) fun r =>
          ∀ vector, r.1 = .ok vector → reply = .ok vector) := by
  have hsourced := h.sourced hserves (fun _ => id) hsafe
  constructor
  · intro vector hget
    obtain ⟨entry, hentry, rfl⟩ := Cache.get?_eq_some_iff.mp hget
    exact ⟨hsourced.memory key entry hentry, Cache.getOrCompute_run_of_published hentry⟩
  · intro hget compute
    have hnone := Cache.get?_eq_none_iff.mp hget
    exact ⟨_, Cache.getOrCompute_run hsourced.wellFormed hnone compute, Cache.conclude_answers _⟩

/-! ### An example -/

/-- A step of a program that has no effects but on files. -/
theorem Cache.History.next {shelf : Option (Shelf (StateM σ) V)} {answers : CacheKey → V → Prop}
    {s : σ} (h : History shelf files keys answers log cache s) (op : CacheOperation (StateM σ) V)
    (huses : op.Uses files keys answers) :
    History shelf files keys answers
      (op.computed cache ((((op.run shelf).run cache).run s).run.1.1) ++ log)
      (((op.run shelf).run cache).run s).run.1.2 (((op.run shelf).run cache).run s).run.2 :=
  h.step huses (Yields.run (((op.run shelf).run cache).run s))

/-- Two keys with one file name. -/
def twins : CacheKey × CacheKey := (⟨"x", "m/1"⟩, ⟨"x", "m:1"⟩)

/-- The vectors of the two keys. -/
def twinVectors : List (CacheKey × String) := [(twins.1, "one"), (twins.2, "two")]

theorem twins_read_back : ∀ pair ∈ twinVectors,
    EntryFormat.lines.Lossless ⟨pair.1, pair.2, "now"⟩ := by
  decide +kernel

theorem hits_have_been_computed_twins :
    ∃ log cache s, Cache.History (some lineShelf) Table.get? {key | key.FitsName}
        (fun key vector => (key, vector) ∈ twinVectors) log cache s ∧
      twins.1.fileName = twins.2.fileName ∧ cache.get? twins.1 = none ∧
      cache.get? twins.2 = some "two" ∧ (twins.2, "two") ∈ log := by
  have hstart : Cache.History (some lineShelf) Table.get? {key | key.FitsName}
      (fun key vector => (key, vector) ∈ twinVectors) [] ∅ ∅ := by
    refine .start fun kept _ name entry _ hheld => ?_
    obtain ⟨bytes, hbytes, -⟩ := hheld
    cases hbytes
  have hfirst : twins.1.FitsName ∧ (twins.1, "one") ∈ twinVectors := by decide
  have hsecond : twins.2.FitsName ∧ (twins.2, "two") ∈ twinVectors := by decide
  have hone := hstart.next (.getOrCompute twins.1 (pure (.ok "one")))
    ⟨hfirst.1, quiet_ok hfirst.2⟩
  have htwo := hone.next (.getOrCompute twins.2 (pure (.ok "two")))
    ⟨hsecond.1, quiet_ok hsecond.2⟩
  have hrun := (htwo.next .clear trivial).next .reopen trivial
  refine ⟨_, _, _, hrun, ?_, ?_, ?_, ?_⟩
  · decide +kernel
  · decide +kernel
  · decide +kernel
  · refine ((hits_have_been_computed _ _ (fun _ => False) _ ?_ ?_ _ _ _ hrun twins.2).1 "two" ?_).1
    · rintro _ ⟨⟩
      exact Table.folder_serves "cache"
    · rintro _ ⟨⟩ key vector hvector
      exact lineShelf_stamps (twins_read_back (key, vector) hvector).safe
    · decide +kernel

end ContextSets
