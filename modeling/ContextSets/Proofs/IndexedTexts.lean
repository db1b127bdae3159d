import ContextSets.Proofs.IndexUpdates

/-!
# The cache holds what the index needs

An index is run over a cache of loaded entries: texts of files are recorded, queries are embedded,
and the cache is pruned, in any order. Files may share texts, swap them and take them back; still
the vector of every present text is cached, and a cached vector is that of a present text unless it
has been queried or loaded since the last pruning.
-/

namespace ContextSets

/-- What has been done with an index. -/
inductive IndexEvent where
  | updated (path text : String)
  | queried (text : String)
  | pruned
deriving DecidableEq, Repr

namespace IndexEvent

/-- The last text of a file, given what has been done, the latest first. -/
def lastText? (path : String) : List IndexEvent → Option String
  | [] => none
  | .updated other text :: rest => if other = path then some text else lastText? path rest
  | .queried _ :: rest | .pruned :: rest => lastText? path rest

/-- The queries since the last pruning. -/
def queries : List IndexEvent → List String
  | [] | .pruned :: _ => []
  | .queried text :: rest => text :: queries rest
  | .updated .. :: rest => queries rest

/-- A key is that of the last text of a file. -/
def Present (model : String) (history : List IndexEvent) (key : CacheKey) : Prop :=
  ∃ path text, lastText? path history = some text ∧ key = ⟨Fingerprint.ofText text, model⟩

/-- A key is that of a query, or of an entry loaded at the start, since the last pruning. -/
def Spare (model : String) (loaded : List (CacheEntry Embedding)) (history : List IndexEvent)
    (key : CacheKey) : Prop :=
  (∃ text ∈ queries history, key = ⟨Fingerprint.ofText text, model⟩) ∨
    .pruned ∉ history ∧ ∃ entry ∈ loaded, entry.key = key

variable {model : String} {loaded : List (CacheEntry Embedding)} {history : List IndexEvent}
  {key : CacheKey} {path text : String}

theorem spare_updated :
    Spare model loaded (.updated path text :: history) key ↔ Spare model loaded history key := by
  simp [Spare, queries]

theorem spare_queried :
    Spare model loaded (.queried text :: history) key ↔
      key = ⟨Fingerprint.ofText text, model⟩ ∨ Spare model loaded history key := by
  simp [Spare, queries, or_assoc]

theorem not_spare_pruned : ¬ Spare model loaded (.pruned :: history) key := by
  simp [Spare, queries]

end IndexEvent

namespace EmbeddingIndex

open IndexEvent

variable {m : Type → Type} [Monad m] [LawfulMonad m] {embedder : Embedder m}
  {loaded : List (CacheEntry Embedding)} {model : String} {history : List IndexEvent}
  {index after : EmbeddingIndex} {path text : String}

/-- The runs of an index over loaded entries in which no update fails, with what has been done, the
latest first. A query may fail, and so may removing files when the cache is pruned. -/
inductive Run (embedder : Embedder m) (loaded : List (CacheEntry Embedding)) :
    List IndexEvent → EmbeddingIndex → Prop
  | start : Run embedder loaded [] (.ofCache (.ofEntries loaded))
  | update {history : List IndexEvent} {index after : EmbeddingIndex} {path text : String}
      {vector : Embedding} (h : Run embedder loaded history index)
      (hends : Yields ((update embedder path text).run index) (.ok vector, after)) :
      Run embedder loaded (.updated path text :: history) after
  | query {history : List IndexEvent} {index after : EmbeddingIndex} {text : String}
      {vector : Embedding} (h : Run embedder loaded history index)
      (hends : Yields ((embedCached embedder text).run index) (.ok vector, after)) :
      Run embedder loaded (.queried text :: history) after
  | failedQuery {history : List IndexEvent} {index after : EmbeddingIndex} {text : String}
      {reply : Reply Embedding} (h : Run embedder loaded history index)
      (hends : Yields ((embedCached embedder text).run index) (reply, after))
      (hfailed : ∀ vector, reply ≠ .ok vector) :
      Run embedder loaded history after
  | prune {history : List IndexEvent} {index after : EmbeddingIndex}
      {result : Except EmbeddingError Nat} (h : Run embedder loaded history index)
      (hends : Yields ((pruneCache embedder).run index) (result, after)) :
      Run embedder loaded (.pruned :: history) after

/-- The index knows the last text of every file, the vectors that it has are cached, and what is
cached is needed or spare. -/
structure Agrees (model : String) (loaded : List (CacheEntry Embedding)) (history : List IndexEvent)
    (index : EmbeddingIndex) : Prop where
  wellFormed : index.cache.WellFormed
  indexed : ∀ path, (index.entries.get? path).map (·.fingerprint) =
    (lastText? path history).map Fingerprint.ofText
  cached : ∀ path entry, index.entries.get? path = some entry →
    index.cache.get? ⟨entry.fingerprint, model⟩ = some entry.embedding
  needed : ∀ key entry, index.cache.published? key = some entry →
    Present model history key ∨ Spare model loaded history key

namespace Agrees

theorem start (model : String) (loaded : List (CacheEntry Embedding)) :
    Agrees model loaded [] (.ofCache (.ofEntries loaded)) where
  wellFormed := Cache.wellFormed_ofEntries loaded
  indexed := fun _ => rfl
  cached := fun _ _ h => nomatch h
  needed := fun key entry h => by
    obtain ⟨hmem, hkey⟩ := Cache.mem_of_published?_ofEntries h
    exact .inr (.inr ⟨List.not_mem_nil, entry, hmem, hkey⟩)

/-- A file in the index has a last text, with the fingerprint that is kept. -/
theorem exists_text (h : Agrees model loaded history index) {entry : IndexEntry}
    (hentry : index.entries.get? path = some entry) :
    ∃ text, lastText? path history = some text ∧ Fingerprint.ofText text = entry.fingerprint := by
  have hindexed := h.indexed path
  rw [hentry, Option.map_some, eq_comm, Option.map_eq_some_iff] at hindexed
  exact hindexed

/-- A file with a last text is in the index. -/
theorem exists_entry (h : Agrees model loaded history index)
    (htext : lastText? path history = some text) :
    ∃ entry, index.entries.get? path = some entry ∧
      entry.fingerprint = Fingerprint.ofText text := by
  have hindexed := h.indexed path
  rw [htext, Option.map_some, Option.map_eq_some_iff] at hindexed
  exact hindexed

/-- The keys of present texts are those of the files in the index. -/
theorem present_iff (h : Agrees model loaded history index) {key : CacheKey} :
    Present model history key ↔
      ∃ path entry, index.entries.get? path = some entry ∧ key = ⟨entry.fingerprint, model⟩ := by
  constructor
  · rintro ⟨path, text, htext, rfl⟩
    obtain ⟨entry, hentry, hfingerprint⟩ := h.exists_entry htext
    exact ⟨path, entry, hentry, by rw [hfingerprint]⟩
  · rintro ⟨path, entry, hentry, rfl⟩
    obtain ⟨text, htext, hfingerprint⟩ := h.exists_text hentry
    exact ⟨path, text, htext, by rw [hfingerprint]⟩

/-- What an index has of a file is found in its cache. -/
theorem contains_of_present (h : Agrees model loaded history index) {key : CacheKey}
    (hkey : Present model history key) : index.cache.contains key = true := by
  obtain ⟨path, entry, hentry, rfl⟩ := h.present_iff.mp hkey
  rw [Cache.contains, h.cached path entry hentry]
  rfl

/-! ### Updating -/

/-- Releasing the old text of a file does not concern the others: theirs are shared. -/
theorem cached_released (h : Agrees model loaded history index) {other : String}
    {entry : IndexEntry}
    (hentry : index.entries.get? other = some entry) (hother : other ≠ path) :
    (index.released path).cache.get? ⟨entry.fingerprint, model⟩ = some entry.embedding := by
  have hkeeps := not_releases_of_other hentry hother model
  rw [Cache.get?_eq_map, published?_released_of_keeps h.wellFormed hkeeps]
  exact h.cached other entry hentry

/-- What stays in the cache without the old text of a file is needed by another file, or spare. -/
theorem needed_released (h : Agrees model loaded history index) {key : CacheKey}
    {entry : CacheEntry Embedding}
    (hentry : (index.released path).cache.published? key = some entry) :
    (∃ other found, index.entries.get? other = some found ∧ other ≠ path ∧
      key = ⟨found.fingerprint, model⟩) ∨ Spare model loaded history key := by
  obtain ⟨hkeeps, hold⟩ := not_releases_of_published?_released h.wellFormed hentry
  rcases h.needed key entry hold with hpresent | hspare
  · left
    obtain ⟨other, found, hfound, rfl⟩ := h.present_iff.mp hpresent
    by_cases hother : other = path
    · subst hother
      -- the text would have been released if no other file had it
      have hshared : index.isShared other found.fingerprint = true := by
        by_contra hshared
        exact hkeeps ⟨found, hfound, rfl, Bool.eq_false_iff.mpr hshared⟩
      obtain ⟨holder, held, hheld, hne, hsame⟩ := isShared_iff.mp hshared
      exact ⟨holder, held, hheld, hne, by rw [hsame]⟩
    · exact ⟨other, found, hfound, hother, rfl⟩
  · exact .inr hspare

theorem indexed_updated (h : Agrees model loaded history index) (text : String) (vector : Embedding)
    (other : String) :
    ((index.entries.insert path ⟨Fingerprint.ofText text, vector⟩).get? other).map (·.fingerprint) =
      (lastText? other (.updated path text :: history)).map Fingerprint.ofText := by
  rw [Table.get?_insert, lastText?]
  split
  · rfl
  · exact h.indexed other

/-- A text that a file has already is recorded without a change. -/
theorem updateKnown (h : Agrees model loaded history index) {entry : IndexEntry}
    (hentry : index.entries.get? path = some entry)
    (hsame : entry.fingerprint = Fingerprint.ofText text) :
    Agrees model loaded (.updated path text :: history) index := by
  have hindexed : ∀ other, (index.entries.get? other).map (·.fingerprint) =
      (lastText? other (.updated path text :: history)).map Fingerprint.ofText := by
    intro other
    rw [lastText?]
    split
    · rename_i heq
      rw [← heq, hentry]
      exact congrArg some hsame
    · exact h.indexed other
  refine ⟨h.wellFormed, hindexed, h.cached, fun key found hfound => ?_⟩
  rw [spare_updated]
  refine (h.needed key found hfound).imp_left fun hpresent => ?_
  obtain ⟨other, old, hold, rfl⟩ := h.present_iff.mp hpresent
  have htext := hindexed other
  rw [hold, Option.map_some, eq_comm, Option.map_eq_some_iff] at htext
  obtain ⟨last, hlast, hfingerprint⟩ := htext
  exact ⟨other, last, hlast, by rw [hfingerprint]⟩

/-- A new text of a file takes the place of the old one. -/
theorem updateNew (h : Agrees model loaded history index) {P : Reply Embedding → Prop}
    {vector : Embedding} {cache : Cache Embedding}
    (hanswered : Cache.Answered P ⟨Fingerprint.ofText text, model⟩ (index.released path).cache
      (.ok vector) cache) :
    Agrees model loaded (.updated path text :: history)
      ⟨cache, index.entries.insert path ⟨Fingerprint.ofText text, vector⟩⟩ := by
  refine ⟨hanswered.wellFormed (wellFormed_released h.wellFormed path),
    h.indexed_updated text vector, ?_, ?_⟩
  · intro other entry hentry
    rw [Table.get?_insert] at hentry
    split at hentry
    · cases hentry
      exact hanswered.get?_of_ok
    · rename_i hne
      have hreleased := h.cached_released hentry (Ne.symm hne)
      obtain ⟨found, hfound, hvector⟩ := Cache.get?_eq_some_iff.mp hreleased
      exact Cache.get?_eq_some_iff.mpr ⟨found, hanswered.keeps hfound, hvector⟩
  · intro key entry hentry
    rw [spare_updated]
    rcases hanswered.old_or_answer hentry with hold | ⟨rfl, -⟩
    · refine (h.needed_released hold).imp_left ?_
      rintro ⟨other, found, hfound, hne, rfl⟩
      obtain ⟨last, hlast, hfingerprint⟩ := h.exists_text hfound
      refine ⟨other, last, ?_, by rw [hfingerprint]⟩
      rw [lastText?, if_neg (Ne.symm hne), hlast]
    · exact .inl ⟨path, text, by rw [lastText?, if_pos rfl], rfl⟩

theorem update (h : Agrees model loaded history index) {P : Reply Embedding → Prop}
    {vector : Embedding} (hupdated : Updated P model path text index (.ok vector) after) :
    Agrees model loaded (.updated path text :: history) after := by
  generalize hreply : (Reply.ok vector) = reply at hupdated
  cases hupdated with
  | known hentry hsame => exact h.updateKnown hentry hsame
  | taken _ hanswered =>
    cases hreply
    exact h.updateNew hanswered
  | refused _ hrefused _ => exact absurd hreply.symm (hrefused vector)
  | unreleased e _ => cases hreply

/-! ### Queries and pruning -/

theorem query (h : Agrees model loaded history index) {P : Reply Embedding → Prop}
    {reply : Reply Embedding} (hentries : after.entries = index.entries)
    (hanswered : Cache.Answered P ⟨Fingerprint.ofText text, model⟩ index.cache reply after.cache) :
    Agrees model loaded (.queried text :: history) after := by
  refine ⟨hanswered.wellFormed h.wellFormed, fun path => ?_, ?_, ?_⟩
  · rw [hentries, lastText?]
    exact h.indexed path
  · intro path entry hentry
    rw [hentries] at hentry
    obtain ⟨found, hfound, hvector⟩ := Cache.get?_eq_some_iff.mp (h.cached path entry hentry)
    exact Cache.get?_eq_some_iff.mpr ⟨found, hanswered.keeps hfound, hvector⟩
  · intro key entry hentry
    rw [spare_queried]
    rcases hanswered.old_or_answer hentry with hold | ⟨rfl, -⟩
    · exact (h.needed key entry hold).imp_right .inr
    · exact .inr (.inl rfl)

/-- A query without an answer leaves nothing behind. -/
theorem failedQuery (h : Agrees model loaded history index) {P : Reply Embedding → Prop}
    {reply : Reply Embedding} (hfailed : ∀ vector, reply ≠ .ok vector)
    (hentries : after.entries = index.entries)
    (hanswered : Cache.Answered P ⟨Fingerprint.ofText text, model⟩ index.cache reply after.cache) :
    Agrees model loaded history after := by
  obtain ⟨hwellFormed, -, hcached, -⟩ := h.query hentries hanswered
  refine ⟨hwellFormed, fun path => by rw [hentries]; exact h.indexed path, hcached, ?_⟩
  intro key entry hentry
  rcases hanswered.old_or_answer hentry with hold | ⟨-, hreply⟩
  · exact h.needed key entry hold
  · exact absurd hreply (hfailed _)

theorem prune (h : Agrees model loaded history index) (hentries : after.entries = index.entries)
    (hwellFormed : after.cache.WellFormed)
    (hkept : ∀ key, after.cache.published? key =
      if key.model == model && (index.entries.values.map (·.fingerprint)).contains key.fingerprint
      then index.cache.published? key else none) :
    Agrees model loaded (.pruned :: history) after := by
  have hlive : ∀ fingerprint,
      (index.entries.values.map (·.fingerprint)).contains fingerprint = true ↔
      ∃ path entry, index.entries.get? path = some entry ∧ entry.fingerprint = fingerprint := by
    intro fingerprint
    simp only [List.contains_iff_mem, List.mem_map, Table.mem_values]
    constructor
    · rintro ⟨entry, ⟨path, hentry⟩, hfingerprint⟩
      exact ⟨path, entry, hentry, hfingerprint⟩
    · rintro ⟨path, entry, hentry, hfingerprint⟩
      exact ⟨entry, ⟨path, hentry⟩, hfingerprint⟩
  refine ⟨hwellFormed, fun path => ?_, ?_, ?_⟩
  · rw [hentries, lastText?]
    exact h.indexed path
  · intro path entry hentry
    rw [hentries] at hentry
    have hkeep := (hlive entry.fingerprint).mpr ⟨path, entry, hentry, rfl⟩
    rw [Cache.get?_eq_map, hkept, if_pos (by simpa using hkeep)]
    exact h.cached path entry hentry
  · intro key entry hentry
    rw [hkept] at hentry
    split at hentry
    · rename_i hkeep
      obtain ⟨hmodel, hfingerprint⟩ := Bool.and_eq_true_iff.mp hkeep
      obtain ⟨path, found, hfound, hsame⟩ := (hlive key.fingerprint).mp hfingerprint
      obtain ⟨text, htext, htextual⟩ := h.exists_text hfound
      refine .inl ⟨path, text, by rw [lastText?, htext], ?_⟩
      rw [htextual, hsame, ← beq_iff_eq.mp hmodel]
    · cases hentry

end Agrees

/-- One step after another, the index agrees with what has been done. -/
theorem Run.agrees (h : Run embedder loaded history index) :
    Agrees embedder.provider.model loaded history index := by
  induction h with
  | start => exact .start _ loaded
  | @update _ index _ path text _ _ hends ih =>
    have hupdated := update_updates ih.wellFormed (Ensures.trivial (embed embedder text)) path
    exact ih.update (hends _ hupdated)
  | @query _ index _ text _ _ hends ih =>
    obtain ⟨hentries, hanswered⟩ := hends _ (getOrEmbed_answers ih.wellFormed
      (Ensures.trivial (embed embedder text)) (Fingerprint.ofText text))
    exact ih.query hentries hanswered
  | @failedQuery _ index _ text _ _ hends hfailed ih =>
    obtain ⟨hentries, hanswered⟩ := hends _ (getOrEmbed_answers ih.wellFormed
      (Ensures.trivial (embed embedder text)) (Fingerprint.ofText text))
    exact ih.failedQuery hfailed hentries hanswered
  | prune _ hends ih =>
    obtain ⟨hentries, hwellFormed, hkept⟩ := hends _ (pruneCache_keeps ih.wellFormed)
    exact ih.prune hentries hwellFormed hkept

end EmbeddingIndex

/-- However updates, queries and prunings follow on each other, the files of the index are those
with a text, the vector that the index has of the last text of a file is cached under the present
model, and whatever is cached is the vector of the last text of some file, or was queried or loaded
since the last pruning. So right after a pruning the cache holds the last texts of the files and
nothing else. -/
theorem cache_holds_last_texts {m : Type → Type} [Monad m] [LawfulMonad m] (embedder : Embedder m)
    (loaded : List (CacheEntry Embedding)) (history : List IndexEvent) (index : EmbeddingIndex)
    (h : EmbeddingIndex.Run embedder loaded history index) :
    (∀ path, index.entries.get? path = none ↔ IndexEvent.lastText? path history = none) ∧
    (∀ path text, IndexEvent.lastText? path history = some text →
      ∃ vector, index.entries.get? path = some ⟨Fingerprint.ofText text, vector⟩ ∧
        index.cache.get? ⟨Fingerprint.ofText text, embedder.provider.model⟩ = some vector) ∧
    (∀ key, index.cache.contains key = true →
      IndexEvent.Present embedder.provider.model history key ∨
        IndexEvent.Spare embedder.provider.model loaded history key) ∧
    (history.head? = some .pruned → ∀ key, index.cache.contains key = true ↔
      IndexEvent.Present embedder.provider.model history key) := by
  have hagrees := h.agrees
  have hneeded : ∀ key, index.cache.contains key = true →
      IndexEvent.Present embedder.provider.model history key ∨
        IndexEvent.Spare embedder.provider.model loaded history key := by
    intro key hkey
    obtain ⟨entry, hentry⟩ := Cache.contains_iff_published?.mp hkey
    exact hagrees.needed key entry hentry
  refine ⟨fun path => ?_, fun path text htext => ?_, hneeded, fun hhead key => ?_⟩
  · rw [← Option.map_eq_none_iff, hagrees.indexed path, Option.map_eq_none_iff]
  · obtain ⟨entry, hentry, hfingerprint⟩ := hagrees.exists_entry htext
    refine ⟨entry.embedding, ?_, ?_⟩
    · rw [← hfingerprint]
      exact hentry
    · rw [← hfingerprint]
      exact hagrees.cached path entry hentry
  · refine ⟨fun hkey => ?_, hagrees.contains_of_present⟩
    obtain ⟨rest, rfl⟩ := List.head?_eq_some_iff.mp hhead
    exact (hneeded key hkey).resolve_right IndexEvent.not_spare_pruned

/-! ### An example -/

/-- A provider without effects that gives the length of a text, with nothing kept on disk. -/
def lengthEmbedder : Embedder Id where
  provider := {
    name := "length"
    model := "length"
    dimension := 1
    isAvailable := true
    embed request := pure (.ok
      { embedding := [Float32.ofNat request.text.length], model := "length", dimension := 1,
        tokensUsed := none }) }
  shelf := none

/-- An update without effects that ends with a vector is a step of a run. -/
theorem EmbeddingIndex.Run.update_run {embedder : Embedder Id}
    {loaded : List (CacheEntry Embedding)} {history : List IndexEvent} {index : EmbeddingIndex}
    (h : Run embedder loaded history index) (path text : String)
    (hok : ((EmbeddingIndex.update embedder path text).run index).run.1.value?.isSome = true) :
    Run embedder loaded (.updated path text :: history)
      ((EmbeddingIndex.update embedder path text).run index).run.2 := by
  obtain ⟨vector, hvector⟩ := Option.isSome_iff_exists.mp hok
  have hends := Yields.run ((EmbeddingIndex.update embedder path text).run index)
  rw [← Prod.eta (Id.run _), Reply.value?_eq_some_iff.mp hvector] at hends
  exact h.update hends

/-- One of two files that share a text gets another one, and the cache is pruned of what an earlier
run has left. -/
theorem cache_holds_last_texts_shared : ∃ index,
    EmbeddingIndex.Run lengthEmbedder [⟨⟨"old", "length"⟩, [], ""⟩]
      [.pruned, .updated "a" "y", .updated "b" "x", .updated "a" "x"] index ∧
    ∀ key, index.cache.contains key = true ↔
      IndexEvent.Present "length"
        [.pruned, .updated "a" "y", .updated "b" "x", .updated "a" "x"] key := by
  have hstart : EmbeddingIndex.Run lengthEmbedder [⟨⟨"old", "length"⟩, [], ""⟩] [] _ := .start
  have hfirst := hstart.update_run "a" "x" (by decide +kernel)
  have hshared := hfirst.update_run "b" "x" (by decide +kernel)
  have hchanged := hshared.update_run "a" "y" (by decide +kernel)
  have hpruned := hchanged.prune (Yields.run _)
  obtain ⟨-, -, -, hkept⟩ := cache_holds_last_texts lengthEmbedder _ _ _ hpruned
  exact ⟨_, hpruned, hkept rfl⟩

end ContextSets
