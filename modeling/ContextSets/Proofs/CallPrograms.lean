import ContextSets.Proofs.Calls
import ContextSets.Proofs.StoredCache

/-!
# Programs as calls

The programs that update the index and embed texts do what a call does that runs on its own. So they
end with the answer of the provider, and what they leave behind may arise from calls.
-/

namespace ContextSets

open Cache

variable {m : Type → Type} [Monad m] [LawfulMonad m] {embedder : Embedder m}
  {provider : TextProvider} {texts : Set String} {keys : Set CacheKey}

/-- An embedder asks a provider that depends on nothing but the text, and the files of some keys do not
fail. -/
structure Embedder.Follows (embedder : Embedder m) (provider : TextProvider) (keys : Set CacheKey) :
    Prop where
  model : embedder.provider.model = provider.model
  embeds : ∀ text, Ensures (embedder.provider.embed { text := text }) fun reply =>
    reply.map (·.embedding) = .done (provider.answer text)
  faultless : Faultless embedder.shelf keys

theorem Embedder.Follows.embed (h : embedder.Follows provider keys) (text : String) :
    Ensures (EmbeddingIndex.embed embedder text) (· = .done (provider.answer text)) :=
  (h.embeds text).bind fun _ hreply => .pure hreply

theorem ensures_entryNow (shelf : Option (Shelf m Embedding)) (key : CacheKey)
    (vector : Embedding) :
    Ensures (entryNow shelf key vector) fun entry => ∃ now, entry = ⟨key, vector, now⟩ := by
  cases shelf with
  | none => exact .pure ⟨"", rfl⟩
  | some shelf => exact (Ensures.trivial shelf.now).bind fun now _ => .pure ⟨now, rfl⟩

/-! ### A call on its own -/

/-- An index that may arise from calls, with none in flight. -/
def EmbeddingIndex.Reached (provider : TextProvider) (texts : Set String)
    (index : EmbeddingIndex) : Prop :=
  ∃ computed, Traffic.Reached provider texts ⟨⟨index, computed⟩, []⟩

/-- An index that may arise from calls, with none in flight, and has slots for given keys only. -/
structure EmbeddingIndex.AtRest (provider : TextProvider) (texts : Set String)
    (keys : Set CacheKey) (index : EmbeddingIndex) : Prop where
  reached : index.Reached provider texts
  within : index.cache.Within keys

theorem EmbeddingIndex.AtRest.empty : (∅ : EmbeddingIndex).AtRest provider texts keys :=
  ⟨⟨fun _ => none, .refl⟩, Within.empty⟩

/-- An index that may arise from calls, with one call in flight. -/
def Alone (provider : TextProvider) (texts : Set String) (call : Call) (index : EmbeddingIndex) :
    Prop :=
  ∃ computed, Traffic.Reached provider texts ⟨⟨index, computed⟩, [call]⟩

/-- The step of a call on its own. -/
theorem Traffic.Step.alone {shared shared' : Shared} {call : Call} {phase : Phase} {now : String}
    (h : call.advance provider (isBusy [call]) now shared = some (phase, shared')) :
    Step provider texts ⟨shared, [call]⟩ ⟨shared', [{ call with phase := phase }]⟩ := by
  show Step provider texts ⟨shared, [] ++ call :: []⟩ ⟨shared', [] ++ _ :: []⟩
  exact .advance h

namespace Alone

variable {path : Option String} {text : String} {phase next : Phase} {index : EmbeddingIndex}
  {cache : Cache Embedding} {entries : Table IndexEntry}

theorem advance {index' : EmbeddingIndex} (h : Alone provider texts ⟨path, text, phase⟩ index)
    (hadvance : ∀ computed, ∃ now computed', Call.advance provider
      (isBusy [⟨path, text, phase⟩]) now ⟨path, text, phase⟩ ⟨index, computed⟩ =
        some (next, ⟨index', computed'⟩)) :
    Alone provider texts ⟨path, text, next⟩ index' := by
  obtain ⟨computed, hreached⟩ := h
  obtain ⟨now, computed', heq⟩ := hadvance computed
  exact ⟨computed', hreached.tail (.alone heq)⟩

/-- A slot that is in the cache and empty is one for which nothing has been computed. -/
theorem compute {slot : Slot Embedding} (hdistinct : Set.InjOn Fingerprint.ofText texts)
    (h : Alone provider texts ⟨path, text, .wait slot.ticket⟩ index) {key : CacheKey}
    (hslot : (key, slot) ∈ index.cache.slots) (hempty : slot.entry = none) :
    Alone provider texts ⟨path, text, .compute slot.ticket⟩ index := by
  obtain ⟨computed, hreached⟩ := h
  obtain ⟨owner, hsound, -⟩ := hreached.sound hdistinct
  have hnone : computed slot.ticket = none := hsound.unpublished key slot hslot hempty
  have hadvance : Call.advance provider (isBusy [⟨path, text, .wait slot.ticket⟩]) ""
      ⟨path, text, .wait slot.ticket⟩ ⟨index, computed⟩ =
        some (.compute slot.ticket, ⟨index, computed⟩) := by
    simp [Call.advance, hnone, isBusy, Phase.computes]
  exact ⟨computed, hreached.tail (.alone hadvance)⟩

/-- What the cache has for a call that asks. -/
theorem reserve (hdistinct : Set.InjOn Fingerprint.ofText texts)
    (h : Alone provider texts ⟨path, text, .ask⟩ ⟨cache, entries⟩) :
    Alone provider texts
      ⟨path, text,
        match (cache.reserve (provider.key text)).1.entry with
        | some entry => .record entry.vector
        | none => .compute (cache.reserve (provider.key text)).1.ticket⟩
      ⟨(cache.reserve (provider.key text)).2, entries⟩ := by
  cases hslot : cache.slot? (provider.key text) with
  | some slot =>
    have hreserve : cache.reserve (provider.key text) = (slot, cache) := by
      rw [Cache.reserve, hslot]
    rw [hreserve]
    cases hentry : slot.entry with
    | some entry =>
      refine h.advance fun computed => ⟨"", computed, ?_⟩
      simp [Call.advance, hreserve, hentry, Shared.onCache]
    | none =>
      refine compute hdistinct (h.advance fun computed => ⟨"", computed, ?_⟩)
        (mem_of_slot? hslot) hentry
      simp [Call.advance, hreserve, hentry, Shared.onCache]
  | none =>
    have hreserve : cache.reserve (provider.key text) =
        (⟨cache.tickets, none⟩, cache.place (provider.key text) none) := by
      rw [Cache.reserve, hslot]
    rw [hreserve]
    refine compute hdistinct (h.advance fun computed => ⟨"", computed, ?_⟩)
      (mem_place.mpr (.inr ⟨rfl, rfl⟩)) rfl
    simp [Call.advance, hreserve, Shared.onCache]

theorem begin (path : Option String) (htext : text ∈ texts) (h : index.Reached provider texts) :
    Alone provider texts ⟨path, text, .look⟩ index := by
  obtain ⟨computed, hreached⟩ := h
  exact ⟨computed, hreached.tail (.begin _ [] path htext)⟩

/-- A vector that a call is about to record is the answer of the provider. -/
theorem recorded {vector : Embedding} (hdistinct : Set.InjOn Fingerprint.ofText texts)
    (h : Alone provider texts ⟨path, text, .record vector⟩ index) :
    provider.answer text = .ok vector := by
  obtain ⟨computed, hreached⟩ := h
  obtain ⟨owner, -, hcalls⟩ := hreached.sound hdistinct
  exact (hcalls _ (List.mem_singleton_self _)).2

/-- A call that has ended leaves, with the answer of the provider. -/
theorem leave {call : Call} (hdistinct : Set.InjOn Fingerprint.ofText texts)
    (h : Alone provider texts call index) {result : Except EmbeddingError Embedding}
    (hdone : call.phase = .done result) :
    provider.answer call.text = result ∧ index.Reached provider texts := by
  obtain ⟨computed, hreached⟩ := h
  exact ⟨hreached.answer_eq hdistinct (List.mem_singleton_self call) hdone,
    computed, hreached.tail (.leave _ [] [] call)⟩

end Alone

/-! ### Asking the cache -/

/-- What a call does once it knows the answer. -/
def Phase.afterAnswer : Except EmbeddingError Embedding → Phase
  | .ok vector => .record vector
  | .error e => .done (.error e)

section Asking

variable {path : Option String} {text : String} {cache : Cache Embedding}
  {entries : Table IndexEntry}

/-- The program has replied with the answer to a text, its call has come as far, and the cache has slots
for given keys only. -/
structure Asked (provider : TextProvider) (texts : Set String) (keys : Set CacheKey)
    (path : Option String) (text : String) (entries : Table IndexEntry)
    (r : Reply Embedding × Cache Embedding) : Prop where
  reply : r.1 = .done (provider.answer text)
  call : Alone provider texts ⟨path, text, .afterAnswer (provider.answer text)⟩ ⟨r.2, entries⟩
  within : r.2.Within keys

theorem ensures_invalidate (h : embedder.Follows provider keys) (hwithin : cache.Within keys)
    (fingerprint : String) :
    Ensures ((invalidate embedder.shelf fingerprint).run cache) fun r =>
      (∃ count, r.1 = .ok count) ∧ r.2 = cache.drop (·.fingerprint == fingerprint) := by
  have hremoved : ∀ key ∈ cache.doomed fun key _ => key.fingerprint == fingerprint, key ∈ keys :=
    fun _ => hwithin.of_mem_doomed
  unfold invalidate removeWhere
  refine Ensures.get_bind (Ensures.set_bind (Ensures.lift_bind
    (h.faultless.removeFiles hremoved) ?_))
  rintro _ rfl
  exact Ensures.run_pure ⟨⟨_, rfl⟩, drop_contains cache (·.fingerprint == fingerprint)⟩

variable (h : embedder.Follows provider keys) (hkey : provider.key text ∈ keys)
  (hwithin : cache.Within keys)

include h hkey hwithin

theorem ensures_settle {ticket : Nat} {vector : Embedding}
    (hanswer : provider.answer text = .ok vector)
    (halone : Alone provider texts ⟨path, text, .compute ticket⟩ ⟨cache, entries⟩) :
    Ensures ((settle embedder.shelf (provider.key text) ticket vector).run cache)
      (Asked provider texts keys path text entries) := by
  unfold settle
  refine Ensures.get_bind ?_
  by_cases hholds : cache.holds (provider.key text) ticket = true
  · rw [if_pos hholds]
    refine Ensures.lift_bind (ensures_entryNow embedder.shelf (provider.key text) vector) ?_
    rintro _ ⟨now, rfl⟩
    refine Ensures.lift_bind (h.faultless.persists _ hkey) ?_
    rintro _ rfl
    refine Ensures.modify_bind
      (Ensures.run_pure ⟨by rw [hanswer]; rfl, ?_, hwithin.publish ticket _⟩)
    rw [hanswer]
    refine halone.advance fun computed =>
      ⟨now, Function.update computed ticket (some vector), ?_⟩
    simp only [Call.advance, hanswer, Shared.settle, Shared.onCache, hholds, if_true]
    rfl
  · rw [if_neg hholds]
    refine Ensures.run_pure ⟨by rw [hanswer]; rfl, ?_, hwithin⟩
    rw [hanswer]
    refine halone.advance fun computed =>
      ⟨"", Function.update computed ticket (some vector), ?_⟩
    simp only [Call.advance, hanswer, Shared.settle, Shared.onCache, hholds]
    rfl

theorem ensures_computeInto {ticket : Nat}
    (halone : Alone provider texts ⟨path, text, .compute ticket⟩ ⟨cache, entries⟩) :
    Ensures ((computeInto embedder.shelf (provider.key text) ticket
        (StateT.lift (EmbeddingIndex.embed embedder text))).run cache)
      (Asked provider texts keys path text entries) := by
  unfold computeInto
  refine Ensures.lift_bind (h.embed text) ?_
  rintro _ rfl
  cases hanswer : provider.answer text with
  | ok vector => exact ensures_settle h hkey hwithin hanswer halone
  | error e =>
    refine Ensures.modify_bind (Ensures.run_pure ⟨by rw [hanswer]; rfl, ?_, hwithin.discard ticket⟩)
    rw [hanswer]
    have hfailed : Alone provider texts ⟨path, text, .giveUp ticket e⟩ ⟨cache, entries⟩ := by
      refine halone.advance fun computed => ⟨"", computed, ?_⟩
      simp only [Call.advance, hanswer]
    exact hfailed.advance fun computed => ⟨"", computed, rfl⟩

theorem ensures_getOrCompute
    (hdistinct : Set.InjOn Fingerprint.ofText texts)
    (halone : Alone provider texts ⟨path, text, .ask⟩ ⟨cache, entries⟩) :
    Ensures ((getOrCompute embedder.shelf (provider.key text)
        (StateT.lift (EmbeddingIndex.embed embedder text))).run cache)
      (Asked provider texts keys path text entries) := by
  unfold getOrCompute
  refine Ensures.modifyGet_bind ?_
  have hreserved := halone.reserve hdistinct
  have hplaced := hwithin.reserve hkey
  cases hentry : (cache.reserve (provider.key text)).1.entry with
  | some entry =>
    simp only [hentry] at hreserved
    have hanswer := hreserved.recorded hdistinct
    refine Ensures.run_pure ⟨by rw [hanswer]; rfl, ?_, hplaced⟩
    rw [hanswer]
    exact hreserved
  | none =>
    simp only [hentry] at hreserved
    exact ensures_computeInto h hkey hplaced hreserved

end Asking

/-! ### Updating the index -/

namespace EmbeddingIndex

variable {index : EmbeddingIndex} {path text : String}

theorem ensures_onCache {α : Type} {run : StateT (Cache Embedding) m α}
    {P : α × EmbeddingIndex → Prop}
    (h : Ensures (run.run index.cache) fun r => P (r.1, { index with cache := r.2 })) :
    Ensures ((onCache run).run index) P := by
  unfold onCache
  refine Ensures.get_bind (Ensures.lift_bind h fun r hr => ?_)
  exact Ensures.set_bind (Ensures.run_pure hr)

theorem ensures_release (h : embedder.Follows provider keys) {old : String}
    (halone : Alone provider texts ⟨some path, text, .release old⟩ index)
    (hwithin : index.cache.Within keys) :
    Ensures ((release embedder path old).run index) fun r =>
      r.1 = .ok () ∧ Alone provider texts ⟨some path, text, .ask⟩ r.2 ∧ r.2.cache.Within keys := by
  unfold release
  refine Ensures.get_bind ?_
  by_cases hshared : index.isShared path old = true
  · rw [if_pos hshared]
    refine Ensures.run_pure ⟨rfl, halone.advance fun computed => ⟨"", computed, ?_⟩, hwithin⟩
    simp [Call.advance, hshared]
  · rw [if_neg hshared]
    have hinvalid : Alone provider texts ⟨some path, text, .invalidate old⟩ index := by
      refine halone.advance fun computed => ⟨"", computed, ?_⟩
      simp [Call.advance, hshared]
    have hask : Alone provider texts ⟨some path, text, .ask⟩
        { index with cache := index.cache.drop (·.fingerprint == old) } :=
      hinvalid.advance fun computed => ⟨"", computed, rfl⟩
    refine Ensures.run_bind (P := fun r => (∃ count, r.1 = .ok count) ∧
        Alone provider texts ⟨some path, text, .ask⟩ r.2 ∧ r.2.cache.Within keys) ?_ ?_
    · refine ensures_onCache ((ensures_invalidate h hwithin old).mono ?_)
      rintro ⟨_, _⟩ ⟨hcount, rfl⟩
      exact ⟨hcount, hask, hwithin.drop (·.fingerprint == old)⟩
    · rintro _ index' ⟨⟨count, rfl⟩, hreleased⟩
      exact Ensures.run_pure ⟨rfl, hreleased⟩

variable (h : embedder.Follows provider keys) (hkey : provider.key text ∈ keys)
  (hdistinct : Set.InjOn Fingerprint.ofText texts)

include h hkey hdistinct

theorem ensures_getOrEmbed {path : Option String}
    (halone : Alone provider texts ⟨path, text, .ask⟩ index) (hwithin : index.cache.Within keys) :
    Ensures ((getOrEmbed embedder (Fingerprint.ofText text) text).run index) fun r =>
      r.1 = .done (provider.answer text) ∧
        Alone provider texts ⟨path, text, .afterAnswer (provider.answer text)⟩ r.2 ∧
          r.2.cache.Within keys := by
  unfold getOrEmbed
  rw [h.model]
  exact ensures_onCache ((ensures_getOrCompute h hkey hwithin hdistinct halone).mono
    fun _ hasked => ⟨hasked.reply, hasked.call, hasked.within⟩)

theorem ensures_takeIn (halone : Alone provider texts ⟨some path, text, .ask⟩ index)
    (hwithin : index.cache.Within keys) :
    Ensures ((takeIn embedder path (Fingerprint.ofText text) text).run index) fun r =>
      r.1 = .done (provider.answer text) ∧ r.2.AtRest provider texts keys := by
  unfold takeIn
  refine Ensures.run_bind (ensures_getOrEmbed h hkey hdistinct halone hwithin) ?_
  rintro _ index' ⟨rfl, hasked, hstill⟩
  cases hanswer : provider.answer text with
  | error e =>
    rw [hanswer] at hasked
    exact Ensures.run_pure ⟨rfl, (hasked.leave hdistinct rfl).2, hstill⟩
  | ok vector =>
    rw [hanswer] at hasked
    refine Ensures.modify_bind (Ensures.run_pure ⟨rfl, ?_, hstill⟩)
    have hdone : Alone provider texts ⟨some path, text, .done (.ok vector)⟩
        { index' with entries :=
            index'.entries.insert path ⟨Fingerprint.ofText text, vector⟩ } :=
      hasked.advance fun computed => ⟨"", computed, rfl⟩
    exact (hdone.leave hdistinct rfl).2

theorem ensures_update (htext : text ∈ texts) (hindex : index.AtRest provider texts keys) :
    Ensures ((update embedder path text).run index) fun r =>
      r.1 = .done (provider.answer text) ∧ r.2.AtRest provider texts keys := by
  have halone := Alone.begin (some path) htext hindex.reached
  have hwithin := hindex.within
  unfold update
  refine Ensures.get_bind ?_
  cases hentry : index.entries.get? path with
  | none =>
    have hask : Alone provider texts ⟨some path, text, .ask⟩ index := by
      refine halone.advance fun computed => ⟨"", computed, ?_⟩
      simp [Call.advance, hentry]
    exact ensures_takeIn h hkey hdistinct hask hwithin
  | some entry =>
    by_cases hsame : entry.fingerprint = Fingerprint.ofText text
    · simp only [hsame, if_true]
      have hdone : Alone provider texts ⟨some path, text, .done (.ok entry.embedding)⟩ index := by
        refine halone.advance fun computed => ⟨"", computed, ?_⟩
        simp [Call.advance, hentry, hsame]
      obtain ⟨hanswer, hreached⟩ := hdone.leave hdistinct rfl
      exact Ensures.run_pure ⟨congrArg Reply.done hanswer.symm, hreached, hwithin⟩
    · simp only [hsame, if_false]
      have hrelease : Alone provider texts ⟨some path, text, .release entry.fingerprint⟩ index := by
        refine halone.advance fun computed => ⟨"", computed, ?_⟩
        simp [Call.advance, hentry, hsame]
      refine Ensures.run_bind (ensures_release h hrelease hwithin) ?_
      rintro _ index' ⟨rfl, hask, hkept⟩
      exact ensures_takeIn h hkey hdistinct hask hkept

theorem ensures_embedCached (htext : text ∈ texts) (hindex : index.AtRest provider texts keys) :
    Ensures ((embedCached embedder text).run index) fun r =>
      r.1 = .done (provider.answer text) ∧ r.2.AtRest provider texts keys := by
  have hask : Alone provider texts ⟨none, text, .ask⟩ index :=
    (Alone.begin none htext hindex.reached).advance fun computed => ⟨"", computed, rfl⟩
  refine (ensures_getOrEmbed h hkey hdistinct hask hindex.within).mono fun r hr => ?_
  obtain ⟨hreply, hasked, hwithin⟩ := hr
  refine ⟨hreply, ?_, hwithin⟩
  cases hanswer : provider.answer text with
  | error e =>
    rw [hanswer] at hasked
    exact (hasked.leave hdistinct rfl).2
  | ok vector =>
    rw [hanswer] at hasked
    have hdone : Alone provider texts ⟨none, text, .done (.ok vector)⟩ r.2 :=
      hasked.advance fun computed => ⟨"", computed, rfl⟩
    exact (hdone.leave hdistinct rfl).2

end EmbeddingIndex

end ContextSets
