import ContextSets.Proofs.BatchPrograms
import ContextSets.Proofs.FailedUpdate

/-!
# Cancelled batches

A batch may be cancelled before its first item, between two items, or while several are in flight.
Whatever has been started by then is carried through, and nothing else touches the index or its cache.
As every file is updated at most once, and the text of a file is not released as long as another file
has it, what an item has put into the index stays there until the batch has ended.
-/

namespace ContextSets

/-! ### Files that are not updated -/

namespace EmbeddingIndex

variable {index after : EmbeddingIndex} {path other text model : String} {reply : Reply Embedding}
  {P : Reply Embedding → Prop}

/-- The vector of the text of a file, if it has one, is in the cache. -/
def HasVector (index : EmbeddingIndex) (model path : String) : Prop :=
  ∀ entry, index.entries.get? path = some entry →
    index.cache.contains ⟨entry.fingerprint, model⟩ = true

/-- What is published and not released stays published. -/
theorem Updated.contains_of_keeps (h : Updated P model path text index reply after)
    (hwf : index.cache.WellFormed) {key : CacheKey} (hkeeps : ¬ index.Releases path key)
    (hkey : index.cache.contains key = true) : after.cache.contains key = true := by
  obtain ⟨entry, hentry⟩ := Cache.contains_iff_published?.mp hkey
  have hreleased : (index.released path).cache.published? key = some entry := by
    rw [published?_released_of_keeps hwf hkeeps]
    exact hentry
  cases h with
  | known _ _ => exact hkey
  | taken _ hanswered => exact Cache.contains_iff_published?.mpr ⟨entry, hanswered.keeps hreleased⟩
  | refused _ _ hanswered =>
    exact Cache.contains_iff_published?.mpr ⟨entry, hanswered.keeps hreleased⟩
  | unreleased _ _ => exact Cache.contains_iff_published?.mpr ⟨entry, hreleased⟩

theorem Updated.hasVector_of_ne (h : Updated P model path text index reply after)
    (hwf : index.cache.WellFormed) (hne : other ≠ path) (hvector : index.HasVector model other) :
    after.HasVector model other := by
  intro entry hentry
  rw [h.get?_of_ne hne] at hentry
  exact h.contains_of_keeps hwf (not_releases_of_other hentry hne model) (hvector entry hentry)

/-! ### Files that are updated -/

/-- A file is indexed with a text and its vector. If the text is new to the file, or its vector was in
the cache already, then it is there now. -/
structure Indexed (index : EmbeddingIndex) (model path text : String) (vector : Embedding)
    (after : EmbeddingIndex) : Prop where
  entry : after.entries.get? path = some ⟨Fingerprint.ofText text, vector⟩
  cached : index.IsNew path text ∨ index.HasVector model path →
    after.cache.contains ⟨Fingerprint.ofText text, model⟩ = true

theorem Updated.indexed {vector : Embedding}
    (h : Updated P model path text index (.ok vector) after) :
    Indexed index model path text vector after := by
  generalize hreply : (Reply.ok vector) = reply at h
  cases h with
  | @known entry hentry hsame =>
    cases hreply
    refine ⟨?_, ?_⟩
    · rw [hentry, ← hsame]
    · rintro (hnew | hvector)
      · exact absurd hsame (hnew entry hentry)
      · rw [← hsame]
        exact hvector entry hentry
  | taken _ hanswered =>
    cases hreply
    refine ⟨?_, fun _ => ?_⟩
    · rw [Table.get?_insert, if_pos rfl]
    · rw [Cache.contains, hanswered.get?_of_ok]
      rfl
  | refused _ hnone _ => exact absurd hreply.symm (hnone vector)
  | unreleased e _ => cases hreply

end EmbeddingIndex

namespace Batch

open EmbeddingIndex

variable {m : Type → Type} [Monad m] [LawfulMonad m] {embedder : Embedder m}

/-! ### Updates one after another -/

theorem updated_of_updatingBy {item : BatchItem} {before after : EmbeddingIndex}
    {result : Except EmbeddingError Embedding} (hwf : before.cache.WellFormed)
    (h : updatingBy embedder item before result after) :
    Updated (fun _ => True) embedder.provider.model item.path item.text before (.done result)
      after :=
  h _ (update_updates hwf (Ensures.trivial _) item.path)

namespace InFlight

/-- What updates of distinct files have made of an index: the other files are as they were, and the
files that were updated are indexed with their texts. -/
structure Brought (model : String) (index : EmbeddingIndex) (updated : List Outcome)
    (last : EmbeddingIndex) : Prop where
  wellFormed : last.cache.WellFormed
  others : ∀ path, path ∉ updated.map (·.item.path) →
    last.entries.get? path = index.entries.get? path ∧
      (index.HasVector model path → last.HasVector model path)
  indexed : ∀ outcome ∈ updated, ∀ vector, outcome.result = .ok vector →
    Indexed index model outcome.item.path outcome.item.text vector last

variable {index before after last : EmbeddingIndex} {updated : List Outcome} {outcome : Outcome}
  {model : String}

theorem Brought.nil (hwf : index.cache.WellFormed) : Brought model index [] index where
  wellFormed := hwf
  others := fun _ _ => ⟨rfl, id⟩
  indexed := fun _ h => nomatch h

theorem Brought.snoc {P : Reply Embedding → Prop} (h : Brought model index updated before)
    (hnew : outcome.item.path ∉ updated.map (·.item.path))
    (hupdated : Updated P model outcome.item.path outcome.item.text before (.done outcome.result)
      after) : Brought model index (updated ++ [outcome]) after where
  wellFormed := hupdated.wellFormed h.wellFormed
  others := by
    intro path hpath
    rw [List.map_append, List.mem_append, not_or] at hpath
    obtain ⟨hold, hlast⟩ := hpath
    have hne : path ≠ outcome.item.path := fun heq => hlast (List.mem_singleton.mpr heq)
    obtain ⟨hentry, hvector⟩ := h.others path hold
    exact ⟨(hupdated.get?_of_ne hne).trans hentry,
      fun hindex => hupdated.hasVector_of_ne h.wellFormed hne (hvector hindex)⟩
  indexed := by
    intro other hother vector hresult
    rcases List.mem_append.mp hother with hold | hlast
    · have hne : other.item.path ≠ outcome.item.path := by
        intro heq
        exact hnew (heq ▸ List.mem_map_of_mem hold)
      obtain ⟨hentry, hcached⟩ := h.indexed other hold vector hresult
      refine ⟨(hupdated.get?_of_ne hne).trans hentry, fun hbefore => ?_⟩
      exact hupdated.contains_of_keeps h.wellFormed
        (not_releases_of_other hentry hne model) (hcached hbefore)
    · obtain rfl := List.mem_singleton.mp hlast
      obtain ⟨hentry, hvector⟩ := h.others other.item.path hnew
      rw [hresult] at hupdated
      have hindexed : Indexed before model other.item.path other.item.text vector after :=
        hupdated.indexed
      refine ⟨hindexed.entry, fun hbefore => hindexed.cached ?_⟩
      refine hbefore.imp (fun hisNew => ?_) hvector
      unfold IsNew
      rw [hentry]
      exact hisNew

theorem Updates.brought (h : Updates (updatingBy embedder) index updated last)
    (hwf : index.cache.WellFormed) (hdistinct : (updated.map (·.item.path)).Nodup) :
    Brought embedder.provider.model index updated last := by
  induction h with
  | none => exact .nil hwf
  | snoc _ hupdate ih =>
    rw [List.map_append, List.nodup_append] at hdistinct
    obtain ⟨hold, -, hapart⟩ := hdistinct
    have hbrought := ih hold
    apply hbrought.snoc
    · intro hmem
      exact hapart _ hmem _ (List.mem_singleton_self _) rfl
    · exact updated_of_updatingBy hbrought.wellFormed hupdate

/-! ### At the end of a batch -/

/-- What has become of a batch that has ended. -/
structure CarriedThrough (embedder : Embedder m) (items : List BatchItem) (index : EmbeddingIndex)
    (state : InFlight) (result : Except EmbeddingError BatchReport) : Prop where
  /-- It ends as cancelled if it has been cancelled when there are no more outcomes. -/
  cancelled : result = .error .cancelled ↔ state.isCancelled = true
  accounted : state.started ++ state.skipped = items
  skipped : state.isCancelled = false → state.skipped = []
  /-- The items that have been started have been carried through, each once. -/
  updated : (state.updated.map (·.item)).Perm state.started
  indexed : ∀ outcome ∈ state.updated, ∀ vector, outcome.result = .ok vector →
    Indexed index embedder.provider.model outcome.item.path outcome.item.text vector state.index
  reports : state.reports = (List.range (state.started.length + 1)).map (⟨·, items.length⟩)

variable {items : List BatchItem} {state : InFlight} {result : Except EmbeddingError BatchReport}
  {updating : Updating}

theorem Sound.started_of_updated (h : Sound updating items index state)
    (hmem : outcome ∈ state.updated) : outcome.item ∈ state.started := by
  apply h.started.mem_iff.mpr
  exact List.mem_append_right _ (List.mem_map_of_mem hmem)

theorem Sound.carriedThrough (h : Sound (updatingBy embedder) items index state)
    (hwf : index.cache.WellFormed) (hdistinct : (items.map (·.path)).Nodup)
    (hresult : state.result = some result) :
    CarriedThrough embedder items index state result := by
  obtain ⟨-, hupdated⟩ := h.taken_perm hresult
  have haccounted := h.started_skipped hresult
  have hpaths : (state.updated.map (·.item.path)).Nodup := by
    have hperm := hupdated.map (·.path)
    rw [List.map_map] at hperm
    rw [← haccounted, List.map_append] at hdistinct
    exact hperm.nodup_iff.mpr (List.nodup_append.mp hdistinct).1
  refine ⟨?_, haccounted, h.skipped, hupdated, (h.updates.brought hwf hpaths).indexed, ?_⟩
  · obtain ⟨-, -, hreport⟩ := h.result result hresult
    rw [hreport]
    cases state.isCancelled with
    | true => exact ⟨fun _ => rfl, fun _ => rfl⟩
    | false => exact ⟨nofun, nofun⟩
  · rw [h.reports, h.length_taken hresult]

end InFlight

end Batch

open Batch in
/-- A batch of items with distinct paths, which may be cancelled at any moment, and with updates that
are one step each: if updates end, so does the batch, and it ends as cancelled if and only if it has
been cancelled by then. At any time, the index and its cache are what the updates of started items
have made of them, and once the batch has been cancelled, no more items are started. At the end, every
started item has been updated. If that succeeded, its path is indexed with its text, and the vector of
a text that is new to the file is in the cache; that of a text that the file had already is there if it
was so before. Reported is every number of items up to those that have not been skipped. The program
that embeds all items goes one of these ways. -/
theorem cancelled_batches_carry_through {m : Type → Type} [Monad m] [LawfulMonad m]
    (embedder : Embedder m) (index : EmbeddingIndex) (hwf : index.cache.WellFormed)
    (items : List BatchItem) (hdistinct : (items.map (·.path)).Nodup) (workers : Nat) :
    ((∀ item index, ∃ result last, updatingBy embedder item index result last) →
      Inevitable (InFlight.Step (updatingBy embedder) workers)
        (fun state => ∃ result, state.result = some result) (.fresh items index)) ∧
    (∀ state, InFlight.Runs (updatingBy embedder) workers (.fresh items index) state →
      (InFlight.Updates (updatingBy embedder) index state.updated state.index ∧
        ∀ outcome ∈ state.updated, outcome.item ∈ state.started) ∧
      (state.isCancelled = true → ∀ later,
        InFlight.Runs (updatingBy embedder) workers state later →
        later.isCancelled = true ∧ later.started = state.started) ∧
      ∀ result, state.result = some result →
        InFlight.CarriedThrough embedder items index state result) ∧
    ∀ (W : Type) (embedder : Embedder (StateM W)) (monitor : Monitor (StateM W))
      (cancelled : W → Bool) (reports : W → List BatchProgress),
      Watched embedder monitor cancelled reports → ∀ w,
      Ends (Batch.run embedder monitor workers items) index w fun reply after w' =>
        ∃ state, InFlight.Runs (updatingBy embedder) workers (.fresh items index) state ∧
          EndsAs cancelled reports state w reply after w' := by
  have hfresh : InFlight.Sound (updatingBy embedder) items index (.fresh items index) :=
    InFlight.Sound.fresh items index
  refine ⟨hfresh.inevitable, ?_, ?_⟩
  · intro state hruns
    have hsound := hfresh.runs hruns
    refine ⟨⟨hsound.updates, fun _ => hsound.started_of_updated⟩, ?_, ?_⟩
    · intro hstopped later hlater
      exact hlater.frozen hstopped
    · intro result hresult
      exact hsound.carriedThrough hwf hdistinct hresult
  · intro W embedder monitor cancelled reports hwatched w
    exact hwatched.run_follows workers items index w

/-! ### An example -/

/-- Three items; the batch is cancelled when two of them have ended, one of which has failed. -/
def threeItems : List BatchItem := [⟨"b", "x"⟩, ⟨"a", "y"⟩, ⟨"c", "z"⟩]

/-- What comes of the three items in a program. -/
def threeWorked : (Reply BatchReport × EmbeddingIndex) × Batch.Watch :=
  (((Batch.run Batch.Watch.embedder (Batch.Watch.monitor 2) 1 threeItems).run ∅).run
    ⟨false, []⟩).run

open Batch in
theorem cancelled_batches_carry_through_three :
    threeWorked.1.1 = .error .cancelled ∧
    threeWorked.1.2.cache.contains ⟨Fingerprint.ofText "x", "picky"⟩ = true ∧
    threeWorked.1.2.cache.contains ⟨Fingerprint.ofText "z", "picky"⟩ = false ∧
    ∃ state, InFlight.Runs (updatingBy Watch.embedder) 1 (.fresh threeItems ∅) state ∧
      state.index = threeWorked.1.2 ∧ state.started.length = 2 ∧ state.skipped.length = 1 ∧
      ∀ outcome ∈ state.updated, ∀ vector, outcome.result = .ok vector →
        threeWorked.1.2.cache.contains ⟨Fingerprint.ofText outcome.item.text, "picky"⟩ = true := by
  have hwf : (∅ : EmbeddingIndex).cache.WellFormed := Cache.WellFormed.empty
  obtain ⟨-, hruns, hprogram⟩ := cancelled_batches_carry_through Watch.embedder ∅ hwf threeItems
    (by decide) 1
  obtain ⟨state, hstate, ⟨result, hresult, hreply⟩, hindex, hflag, hheard⟩ :=
    (hprogram Watch Watch.embedder (Watch.monitor 2) Watch.isCancelled Watch.heard (Watch.watched 2)
      ⟨false, []⟩).of_id
  have hcarried := (hruns state hstate).2.2 result hresult
  have hstopped : threeWorked.2.isCancelled = true := by decide +kernel
  have hthree : threeWorked.2.heard.length = 3 := by decide +kernel
  have hstarted : state.started.length = 2 := by
    have hlength := congrArg List.length (hheard.trans (congrArg _ hcarried.reports))
    rw [List.length_append, List.length_map, List.length_range] at hlength
    exact Nat.succ.inj ((Nat.zero_add _).symm.trans (hlength.symm.trans hthree))
  have hskipped : state.skipped.length = 1 := by
    have hlength := congrArg List.length hcarried.accounted
    rw [List.length_append, hstarted] at hlength
    exact Nat.add_left_cancel hlength
  refine ⟨?_, by decide +kernel, by decide +kernel, state, hstate, hindex, hstarted, hskipped, ?_⟩
  · rw [hcarried.cancelled.mpr (hflag.trans hstopped)] at hreply
    exact hreply
  · intro outcome houtcome vector hok
    have hcached := (hcarried.indexed outcome houtcome vector hok).cached (.inl nofun)
    rw [hindex] at hcached
    exact hcached

/-- The index with one file after an update of that file that has failed. -/
def releasedIndex : EmbeddingIndex :=
  ((EmbeddingIndex.update pickyEmbedder "a" "y").run oneFileIndex).run.2

/-- What comes of updating the file with the text that it has had all along. -/
def unchangedUpdate : Reply Embedding × EmbeddingIndex :=
  ((EmbeddingIndex.update pickyEmbedder "a" "x").run releasedIndex).run

open Batch in
/-- The failed update has left the entry of the file but has released its vector. An item with the text
that the file has had all along succeeds, and its vector is not cached again. -/
theorem unchanged_text_stays_released :
    releasedIndex.Attained pickyEmbedder ∧
    ∃ state vector, InFlight.Runs (updatingBy pickyEmbedder) 1 (.fresh [⟨"a", "x"⟩] releasedIndex)
        state ∧
      state.result = some (.error .cancelled) ∧ state.started = [⟨"a", "x"⟩] ∧
      state.updated = [⟨⟨"a", "x"⟩, .ok vector⟩] ∧
      state.index.cache.contains ⟨Fingerprint.ofText "x", "picky"⟩ = false := by
  have hattained : releasedIndex.Attained pickyEmbedder := by
    have hends := Yields.run ((EmbeddingIndex.update pickyEmbedder "a" "y").run oneFileIndex)
    exact oneFileIndex_attained.update hends
  have hok : unchangedUpdate.1.value?.isSome = true := by decide +kernel
  obtain ⟨vector, hvector⟩ := Option.isSome_iff_exists.mp hok
  have hupdate : updatingBy pickyEmbedder ⟨"a", "x"⟩ releasedIndex (.ok vector) unchangedUpdate.2 := by
    have hends : Yields ((EmbeddingIndex.update pickyEmbedder "a" "x").run releasedIndex)
        unchangedUpdate := Yields.run _
    rw [← Prod.eta unchangedUpdate, Reply.value?_eq_some_iff.mp hvector] at hends
    exact hends
  have hidle : (InFlight.fresh [⟨"a", "x"⟩] releasedIndex).Idle := ⟨rfl, rfl, rfl, rfl⟩
  have hended : ((InFlight.fresh [⟨"a", "x"⟩] releasedIndex).through ⟨"a", "x"⟩ (.ok vector)
      unchangedUpdate.2).Idle := hidle.through rfl
  have hitem := InFlight.runs_through 1 hidle rfl rfl hupdate
  have hrun := (hitem.tail (.cancel rfl rfl)).tail (.conclude rfl hended.running rfl)
  refine ⟨hattained, _, vector, hrun, rfl, rfl, rfl, ?_⟩
  show unchangedUpdate.2.cache.contains ⟨Fingerprint.ofText "x", "picky"⟩ = false
  decide +kernel

end ContextSets
