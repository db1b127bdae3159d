import ContextSets.Proofs.CacheOperation
import ContextSets.Proofs.IndexUpdates

/-!
# Updates that fail

An update whose text the provider cannot embed fails, and the index keeps what it had of the file.
But the old text has been released by then: unless another file has it, its cached vectors are gone.
That is all that a failed update changes.
-/

namespace ContextSets

namespace EmbeddingIndex

variable {m : Type → Type} [Monad m] [LawfulMonad m] {embedder : Embedder m}
  {index : EmbeddingIndex}

/-- The indexes that come of any operations on index and cache, whatever they end with, starting
with nothing. -/
inductive Attained (embedder : Embedder m) : EmbeddingIndex → Prop
  | empty : Attained embedder ∅
  | update {index after : EmbeddingIndex} {path text : String} {reply : Reply Embedding}
      (h : Attained embedder index)
      (hends : Yields ((update embedder path text).run index) (reply, after)) :
      Attained embedder after
  | embed {index after : EmbeddingIndex} {fingerprint text : String} {reply : Reply Embedding}
      (h : Attained embedder index)
      (hends : Yields ((getOrEmbed embedder fingerprint text).run index) (reply, after)) :
      Attained embedder after
  | prune {index after : EmbeddingIndex} {result : Except EmbeddingError Nat}
      (h : Attained embedder index)
      (hends : Yields ((pruneCache embedder).run index) (result, after)) : Attained embedder after
  | remove {index after : EmbeddingIndex} {path : String} {entry : Option IndexEntry}
      (h : Attained embedder index)
      (hends : Yields ((remove path).run index : m _) (entry, after)) : Attained embedder after
  | onCache {index after : EmbeddingIndex} {op : CacheOperation m Embedding}
      {vector : Option Embedding} (h : Attained embedder index)
      (hends : Yields ((onCache (op.run embedder.shelf)).run index) (vector, after)) :
      Attained embedder after

theorem Attained.wellFormed (h : index.Attained embedder) : index.cache.WellFormed := by
  induction h with
  | empty => exact Cache.WellFormed.empty
  | @update _ _ path text _ _ hends ih =>
    exact (hends _ (update_updates ih (Ensures.trivial _) path)).wellFormed ih
  | @embed _ _ fingerprint text _ _ hends ih =>
    have hanswers := getOrEmbed_answers ih (Ensures.trivial (EmbeddingIndex.embed embedder text))
      fingerprint
    exact (hends _ hanswers).2.wellFormed ih
  | prune _ hends ih => exact (hends _ (pruneCache_keeps ih)).2.1
  | @remove index _ path _ _ hends ih =>
    refine hends (fun r => r.2.cache.WellFormed) ?_
    unfold EmbeddingIndex.remove
    rw [StateT.run_modifyGet]
    exact .pure ih
  | @onCache _ _ op _ _ hends ih =>
    exact (hends _ (onCache_ensures (CacheOperation.run_wellFormed ih op))).2

/-- What a failed update leaves of the published entries is what is left by the release. -/
theorem Updated.of_failing {P : Reply Embedding → Prop} {model path text : String}
    {reply : Reply Embedding} {after : EmbeddingIndex}
    (h : Updated P model path text index reply after)
    (hfails : ∀ reply, P reply → ∃ e, reply = .error e) (hnew : index.IsNew path text)
    (hmissing : (index.released path).cache.published? ⟨Fingerprint.ofText text, model⟩ = none) :
    (∃ e, reply = .error e) ∧ after.entries = index.entries ∧
      after.cache.published? = (index.released path).cache.published? := by
  cases h with
  | known hentry hsame => exact absurd hsame (hnew _ hentry)
  | taken _ hanswered =>
    obtain ⟨⟨e, herror⟩, -⟩ := hanswered.of_failing hmissing hfails
    cases herror
  | refused _ _ hanswered =>
    obtain ⟨herror, hsame⟩ := hanswered.of_failing hmissing hfails
    exact ⟨herror, rfl, hsame⟩
  | unreleased e _ => exact ⟨⟨e, rfl⟩, entries_released index path, rfl⟩

end EmbeddingIndex

/-- Whatever has been done before, if the vector of a new text of a file is not to be had from the
cache, and the provider fails, so does the update. It leaves the entries of the index and all
published entries as they were, except for those of the text that the file had before when no other
file has it: these are gone. -/
theorem failed_update_releases_old_text {m : Type → Type} [Monad m] [LawfulMonad m]
    (embedder : Embedder m) (index : EmbeddingIndex) (path text : String)
    (hattained : index.Attained embedder)
    (hfails : Ensures (embedder.provider.embed { text := text }) fun reply =>
      ∃ e, reply = .error e)
    (hnew : index.IsNew path text)
    (hmissing : index.cache.contains ⟨Fingerprint.ofText text, embedder.provider.model⟩ = false) :
    Ensures ((EmbeddingIndex.update embedder path text).run index) fun r =>
      (∃ e, r.1 = .error e) ∧ r.2.entries = index.entries ∧
        (∀ key, index.Releases path key → r.2.cache.published? key = none) ∧
        ∀ key, ¬ index.Releases path key →
          r.2.cache.published? key = index.cache.published? key := by
  have hwf := hattained.wellFormed
  have hembed : Ensures (EmbeddingIndex.embed embedder text) fun reply =>
      ∃ e, reply = .error e := by
    refine EmbeddingIndex.embed_ensures (hfails.mono ?_)
    rintro _ ⟨e, rfl⟩
    exact ⟨e, rfl⟩
  have hnone : (index.released path).cache.published?
      ⟨Fingerprint.ofText text, embedder.provider.model⟩ = none := by
    by_contra hfound
    obtain ⟨entry, hentry⟩ := Option.ne_none_iff_exists'.mp hfound
    obtain ⟨-, hold⟩ := EmbeddingIndex.not_releases_of_published?_released hwf hentry
    rw [Cache.contains_iff_published?.mpr ⟨entry, hold⟩] at hmissing
    cases hmissing
  refine (EmbeddingIndex.update_updates hwf hembed path).mono ?_
  rintro ⟨reply, after⟩ hupdated
  obtain ⟨herror, hentries, hsame⟩ := hupdated.of_failing (fun _ => id) hnew hnone
  refine ⟨herror, hentries, fun key hkey => ?_, fun key hkey => ?_⟩
  · rw [hsame, EmbeddingIndex.published?_released_of_releases hwf hkey]
  · rw [hsame, EmbeddingIndex.published?_released_of_keeps hwf hkey]

/-! ### An example -/

/-- A provider that cannot embed one text, in a program without effects. -/
def pickyEmbedder : Embedder Id where
  provider := {
    name := "picky"
    model := "picky"
    dimension := 0
    isAvailable := true
    embed request := pure <|
      if request.text = "y" then .error (.rateLimited 60)
      else .ok { embedding := [], model := "picky", dimension := 0, tokensUsed := none } }
  shelf := none

/-- An index with one file. -/
def oneFileIndex : EmbeddingIndex :=
  ((EmbeddingIndex.update pickyEmbedder "a" "x").run ∅).run.2

theorem oneFileIndex_attained : oneFileIndex.Attained pickyEmbedder := by
  have hends := Yields.run ((EmbeddingIndex.update pickyEmbedder "a" "x").run ∅)
  exact EmbeddingIndex.Attained.empty.update hends

theorem failed_update_releases_old_text_picky :
    (∀ entry, oneFileIndex.entries.get? "a" = some entry →
      entry.fingerprint ≠ Fingerprint.ofText "y") ∧
    oneFileIndex.cache.contains ⟨Fingerprint.ofText "y", "picky"⟩ = false ∧
    ((EmbeddingIndex.update pickyEmbedder "a" "y").run oneFileIndex).run.2.entries =
      oneFileIndex.entries := by
  have hindexed : (oneFileIndex.entries.get? "a").map (·.fingerprint) =
      some (Fingerprint.ofText "x") := by decide +kernel
  have hother : Fingerprint.ofText "x" ≠ Fingerprint.ofText "y" := by decide +kernel
  have hnew : oneFileIndex.IsNew "a" "y" := by
    intro entry hentry
    rw [hentry, Option.map_some, Option.some_inj] at hindexed
    rw [hindexed]
    exact hother
  have hmissing : oneFileIndex.cache.contains ⟨Fingerprint.ofText "y", "picky"⟩ = false := by
    decide +kernel
  have hfailed := (failed_update_releases_old_text pickyEmbedder oneFileIndex "a" "y"
    oneFileIndex_attained (.pure ⟨_, rfl⟩) hnew hmissing).of_id
  exact ⟨hnew, hmissing, hfailed.2.1⟩

/-- The file keeps its entry, but the vector of the entry is no longer cached. -/
theorem failed_update_loses_vector :
    oneFileIndex.cache.contains ⟨Fingerprint.ofText "x", "picky"⟩ = true ∧
    ((EmbeddingIndex.update pickyEmbedder "a" "y").run oneFileIndex).run.1.value?.isNone = true ∧
    (((EmbeddingIndex.update pickyEmbedder "a" "y").run oneFileIndex).run.2.entries.get? "a").map
      (·.fingerprint) = some (Fingerprint.ofText "x") ∧
    ((EmbeddingIndex.update pickyEmbedder "a" "y").run oneFileIndex).run.2.cache.contains
      ⟨Fingerprint.ofText "x", "picky"⟩ = false := by
  decide +kernel

end ContextSets
