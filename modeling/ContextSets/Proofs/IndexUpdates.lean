import ContextSets.Embedding.Index
import ContextSets.Proofs.CacheAnswers
import ContextSets.Proofs.Table

/-!
# What updates do to the index

An update goes through two stores, the entries of the index and its cache, and can end early in
several places. Here each way to end is said once, as a relation between the index before and after.
-/

namespace ContextSets

namespace EmbeddingIndex

variable {m : Type → Type} [Monad m] [LawfulMonad m] {embedder : Embedder m}
  {index : EmbeddingIndex} {path text : String}

/-! ### Releasing the old text -/

theorem isShared_iff {fingerprint : String} :
    index.isShared path fingerprint = true ↔
      ∃ other entry, index.entries.get? other = some entry ∧ other ≠ path ∧
        entry.fingerprint = fingerprint := by
  simp [isShared, List.any_eq_true, Table.get?_eq_some_iff]

/-- Whether a new text of a file releases the vector of a key: it is one of the text that the file
had before, and no other file has that text. -/
def Releases (index : EmbeddingIndex) (path : String) (key : CacheKey) : Prop :=
  ∃ entry, index.entries.get? path = some entry ∧ key.fingerprint = entry.fingerprint ∧
    index.isShared path entry.fingerprint = false

/-- The text of another file is not released. -/
theorem not_releases_of_other {other : String} {entry : IndexEntry}
    (hentry : index.entries.get? other = some entry) (hne : other ≠ path) (model : String) :
    ¬ index.Releases path ⟨entry.fingerprint, model⟩ := by
  rintro ⟨old, -, hsame, hshared⟩
  have hfound : index.isShared path old.fingerprint = true :=
    isShared_iff.mpr ⟨other, entry, hentry, hne, hsame⟩
  rw [hshared] at hfound
  cases hfound

/-- The index after the old text of a file has been released. -/
def released (index : EmbeddingIndex) (path : String) : EmbeddingIndex :=
  match index.entries.get? path with
  | none => index
  | some entry =>
    if index.isShared path entry.fingerprint then index
    else { index with cache := index.cache.drop (·.fingerprint == entry.fingerprint) }

@[simp] theorem entries_released (index : EmbeddingIndex) (path : String) :
    (index.released path).entries = index.entries := by
  unfold released
  split
  · rfl
  · split
    · rfl
    · rfl

theorem wellFormed_released (h : index.cache.WellFormed) (path : String) :
    (index.released path).cache.WellFormed := by
  unfold released
  split
  · exact h
  · rename_i entry _
    split
    · exact h
    · exact h.drop (·.fingerprint == entry.fingerprint)

theorem published?_released_of_releases (h : index.cache.WellFormed) {key : CacheKey}
    (hreleases : index.Releases path key) : (index.released path).cache.published? key = none := by
  obtain ⟨entry, hentry, hkey, hshared⟩ := hreleases
  simp only [released, hentry, hshared, Bool.false_eq_true, if_false]
  rw [h.distinct.published?_drop, if_pos (beq_iff_eq.mpr hkey)]

theorem published?_released_of_keeps (h : index.cache.WellFormed) {key : CacheKey}
    (hkeeps : ¬ index.Releases path key) :
    (index.released path).cache.published? key = index.cache.published? key := by
  unfold released
  split
  · rfl
  · rename_i entry hentry
    split
    · rfl
    · rename_i hshared
      rw [h.distinct.published?_drop, if_neg]
      intro hkey
      exact hkeeps ⟨entry, hentry, beq_iff_eq.mp hkey, Bool.eq_false_iff.mpr hshared⟩

/-- What is published after the release was so before, and was not released. -/
theorem not_releases_of_published?_released (h : index.cache.WellFormed) {key : CacheKey}
    {entry : CacheEntry Embedding}
    (hentry : (index.released path).cache.published? key = some entry) :
    ¬ index.Releases path key ∧ index.cache.published? key = some entry := by
  have hkeeps : ¬ index.Releases path key := by
    intro hreleases
    rw [published?_released_of_releases h hreleases] at hentry
    cases hentry
  exact ⟨hkeeps, (published?_released_of_keeps h hkeeps).symm.trans hentry⟩

/-! ### Updating -/

/-- A text is not the one that a file is indexed with. -/
def IsNew (index : EmbeddingIndex) (path text : String) : Prop :=
  ∀ entry, index.entries.get? path = some entry → entry.fingerprint ≠ Fingerprint.ofText text

/-- What an update may come to, given what the provider may answer: the text is that of the file
already; or the old text is released and the vector of the new one is taken in, or is not to be had,
or is not even asked for. -/
inductive Updated (P : Reply Embedding → Prop) (model path text : String) (index : EmbeddingIndex) :
    Reply Embedding → EmbeddingIndex → Prop
  | known {entry : IndexEntry} (h : index.entries.get? path = some entry)
      (hsame : entry.fingerprint = Fingerprint.ofText text) :
      Updated P model path text index (.ok entry.embedding) index
  | taken {vector : Embedding} {cache : Cache Embedding} (hnew : index.IsNew path text)
      (h : Cache.Answered P ⟨Fingerprint.ofText text, model⟩ (index.released path).cache
        (.ok vector) cache) :
      Updated P model path text index (.ok vector)
        ⟨cache, index.entries.insert path ⟨Fingerprint.ofText text, vector⟩⟩
  | refused {reply : Reply Embedding} {cache : Cache Embedding} (hnew : index.IsNew path text)
      (hreply : ∀ vector, reply ≠ .ok vector)
      (h : Cache.Answered P ⟨Fingerprint.ofText text, model⟩ (index.released path).cache
        reply cache) :
      Updated P model path text index reply ⟨cache, index.entries⟩
  | unreleased (e : EmbeddingError) (hnew : index.IsNew path text) :
      Updated P model path text index (.error e) (index.released path)

theorem onCache_ensures {α : Type} {run : StateT (Cache Embedding) m α}
    {P : α × Cache Embedding → Prop} (h : Ensures (run.run index.cache) P) :
    Ensures ((onCache run).run index) fun r =>
      r.2.entries = index.entries ∧ P (r.1, r.2.cache) := by
  unfold onCache
  refine Ensures.get_bind (Ensures.lift_bind h fun r hr => ?_)
  exact Ensures.set_bind (Ensures.run_pure ⟨rfl, hr⟩)

theorem embed_ensures {P : Reply Embedding → Prop}
    (h : Ensures (embedder.provider.embed { text := text }) fun reply =>
      P (reply.map (·.embedding))) :
    Ensures (embed embedder text) P :=
  h.bind fun _ hreply => .pure hreply

theorem getOrEmbed_answers (hwf : index.cache.WellFormed) {P : Reply Embedding → Prop}
    (h : Ensures (embed embedder text) P) (fingerprint : String) :
    Ensures ((getOrEmbed embedder fingerprint text).run index) fun r =>
      r.2.entries = index.entries ∧
        Cache.Answered P ⟨fingerprint, embedder.provider.model⟩ index.cache r.1 r.2.cache :=
  onCache_ensures (Cache.getOrCompute_answers hwf h)

theorem release_releases {entry : IndexEntry} (h : index.entries.get? path = some entry) :
    Ensures ((release embedder path entry.fingerprint).run index) fun r =>
      r.2 = index.released path := by
  unfold release released
  refine Ensures.get_bind ?_
  simp only [h]
  by_cases hshared : index.isShared path entry.fingerprint = true
  · rw [if_pos hshared, if_pos hshared]
    exact Ensures.run_pure rfl
  · rw [if_neg hshared, if_neg hshared]
    refine Ensures.run_bind (onCache_ensures (Cache.invalidate_drops entry.fingerprint)) ?_
    rintro _ ⟨cache, entries⟩ ⟨rfl, rfl⟩
    exact Ensures.run_pure rfl

theorem takeIn_updates (hwf : index.cache.WellFormed) {P : Reply Embedding → Prop}
    (h : Ensures (embed embedder text) P) (hnew : index.IsNew path text) :
    Ensures ((takeIn embedder path (Fingerprint.ofText text) text).run (index.released path))
      fun r => Updated P embedder.provider.model path text index r.1 r.2 := by
  unfold takeIn
  refine Ensures.run_bind (getOrEmbed_answers (wellFormed_released hwf path) h _) ?_
  rintro reply ⟨cache, entries⟩ ⟨hentries, hanswered⟩
  rw [entries_released] at hentries
  cases hentries
  have hrefused : (∀ vector, reply ≠ .ok vector) →
      Updated P embedder.provider.model path text index reply ⟨cache, index.entries⟩ :=
    fun hreply => .refused hnew hreply hanswered
  cases reply with
  | pending => exact Ensures.run_pure (hrefused fun _ => nofun)
  | done result =>
    cases result with
    | error e => exact Ensures.run_pure (hrefused fun _ => nofun)
    | ok vector => exact Ensures.modify_bind (Ensures.run_pure (.taken hnew hanswered))

theorem update_updates (hwf : index.cache.WellFormed) {P : Reply Embedding → Prop}
    (h : Ensures (embed embedder text) P) (path : String) :
    Ensures ((update embedder path text).run index) fun r =>
      Updated P embedder.provider.model path text index r.1 r.2 := by
  unfold update
  refine Ensures.get_bind ?_
  cases hentry : index.entries.get? path with
  | none =>
    have hnew : index.IsNew path text := fun entry hfound => by
      rw [hentry] at hfound
      cases hfound
    have hsame : index.released path = index := by rw [released, hentry]
    have htaken := takeIn_updates hwf h hnew
    rw [hsame] at htaken
    exact htaken
  | some entry =>
    by_cases hfingerprint : entry.fingerprint = Fingerprint.ofText text
    · simp only [hfingerprint, if_true]
      exact Ensures.run_pure (.known hentry hfingerprint)
    · have hnew : index.IsNew path text := fun found hfound => by
        rw [hentry] at hfound
        cases hfound
        exact hfingerprint
      simp only [hfingerprint, if_false]
      refine Ensures.run_bind (release_releases hentry) ?_
      rintro result _ rfl
      cases result with
      | error e => exact Ensures.run_pure (.unreleased e hnew)
      | ok => exact takeIn_updates hwf h hnew

section Updated

variable {P : Reply Embedding → Prop} {model other : String} {reply : Reply Embedding}
  {after : EmbeddingIndex}

theorem Updated.wellFormed (h : Updated P model path text index reply after)
    (hwf : index.cache.WellFormed) : after.cache.WellFormed := by
  cases h with
  | known _ _ => exact hwf
  | taken _ hanswered => exact hanswered.wellFormed (wellFormed_released hwf path)
  | refused _ _ hanswered => exact hanswered.wellFormed (wellFormed_released hwf path)
  | unreleased _ _ => exact wellFormed_released hwf path

theorem Updated.get?_of_ne (h : Updated P model path text index reply after) (hne : other ≠ path) :
    after.entries.get? other = index.entries.get? other := by
  cases h with
  | known _ _ => rfl
  | taken _ _ => rw [Table.get?_insert, if_neg (Ne.symm hne)]
  | refused _ _ _ => rfl
  | unreleased _ _ => rw [entries_released]

end Updated

/-! ### Pruning -/

theorem pruneCache_keeps (hwf : index.cache.WellFormed) :
    Ensures ((pruneCache embedder).run index) fun r =>
      r.2.entries = index.entries ∧ r.2.cache.WellFormed ∧ ∀ key, r.2.cache.published? key =
        if key.model == embedder.provider.model &&
          (index.entries.values.map (·.fingerprint)).contains key.fingerprint
        then index.cache.published? key else none := by
  unfold pruneCache
  refine Ensures.get_bind ?_
  exact onCache_ensures (Cache.retain_keeps hwf _)

end EmbeddingIndex

end ContextSets
