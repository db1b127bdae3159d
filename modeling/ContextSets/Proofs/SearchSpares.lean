import ContextSets.Proofs.ResultOrder
import ContextSets.Proofs.StoredCache

/-!
# What a search leaves alone

A search keeps vectors on disk, so it writes and removes files. Written are those named after the keys
of the texts that it embeds; removed are those named after the keys of its slots, which are the keys of
such texts or of entries that were found in the directory.
-/

namespace ContextSets

variable {n : Type → Type} [Monad n] {σ τ α β γ V : Type} {view : σ → γ} {I : τ → Prop}

/-! ### Programs that leave a part of the state alone -/

/-- A program leaves what is seen of the state as it is. -/
def Spares (view : σ → γ) (x : StateT σ n α) : Prop :=
  ∀ s, Ensures (x.run s) fun r => view r.2 = view s

/-- A program with a state of its own keeps an invariant of that state, when run from a given one, and
leaves what is seen of the other state as it is. -/
def Keeps (view : σ → γ) (I : τ → Prop) (x : StateT τ (StateT σ n) α) (t : τ) : Prop :=
  ∀ s, Ensures ((x.run t).run s) fun r => I r.1.2 ∧ view r.2 = view s

variable [LawfulMonad n]

theorem spares_pure (a : α) : Spares view (pure a : StateT σ n α) :=
  fun _ => .run_pure rfl

theorem Spares.bind {x : StateT σ n α} {f : α → StateT σ n β} (hx : Spares view x)
    (hf : ∀ a, Spares view (f a)) : Spares view (x >>= f) :=
  fun s => Ensures.run_bind (hx s) fun a s' hsame => (hf a s').mono fun _ h => h.trans hsame

namespace Keeps

variable {t : τ} {f : α → StateT τ (StateT σ n) β}

theorem pure (a : α) (h : I t) : Keeps view I (Pure.pure a : StateT τ (StateT σ n) α) t :=
  fun _ => .run_pure ⟨h, rfl⟩

theorem bind {x : StateT τ (StateT σ n) α} (hx : Keeps view I x t)
    (hf : ∀ a t', I t' → Keeps view I (f a) t') : Keeps view I (x >>= f) t := by
  intro s
  rw [StateT.run_bind]
  refine Ensures.run_bind (hx s) ?_
  rintro ⟨a, t'⟩ s' ⟨hkept, hsame⟩
  exact (hf a t' hkept s').mono fun _ h => ⟨h.1, h.2.trans hsame⟩

theorem lift_bind {x : StateT σ n α} {Q : α → Prop}
    (hx : ∀ s, Ensures (x.run s) fun r => view r.2 = view s ∧ Q r.1)
    (hf : ∀ a, Q a → Keeps view I (f a) t) : Keeps view I (StateT.lift x >>= f) t := by
  intro s
  rw [StateT.run_bind, StateT.run_lift, bind_assoc]
  refine Ensures.run_bind (hx s) fun a s' ha => ?_
  rw [pure_bind]
  exact (hf a ha.2 s').mono fun _ h => ⟨h.1, h.2.trans ha.1⟩

theorem lift {x : StateT σ n α} (hx : Spares view x) (h : I t) :
    Keeps view I (StateT.lift x) t := by
  intro s
  rw [StateT.run_lift]
  exact Ensures.run_bind (hx s) fun _ _ hsame => .run_pure ⟨h, hsame⟩

theorem get_bind {f : τ → StateT τ (StateT σ n) β} (h : Keeps view I (f t) t) :
    Keeps view I (get >>= f) t := by
  intro s
  rw [StateT.run_bind, StateT.run_get, pure_bind]
  exact h s

theorem set_bind {t' : τ} {f : PUnit → StateT τ (StateT σ n) β} (h : Keeps view I (f ⟨⟩) t') :
    Keeps view I (set t' >>= f) t := by
  intro s
  rw [StateT.run_bind, StateT.run_set, pure_bind]
  exact h s

theorem modify_bind {change : τ → τ} {f : PUnit → StateT τ (StateT σ n) β}
    (h : Keeps view I (f ⟨⟩) (change t)) : Keeps view I (modify change >>= f) t := by
  intro s
  rw [StateT.run_bind, StateT.run_modify, pure_bind]
  exact h s

theorem modifyGet_bind {change : τ → α × τ}
    (h : Keeps view I (f (change t).1) (change t).2) : Keeps view I (modifyGet change >>= f) t := by
  intro s
  rw [StateT.run_bind, StateT.run_modifyGet, pure_bind]
  exact h s

end Keeps

/-! ### The cache -/

/-- Some names spare a part of the state: what is done through a shelf to the files with these names
leaves it alone. -/
structure Shelf.Spares (shelf : Shelf (StateT σ n) V) (view : σ → γ) (names : Set String) :
    Prop where
  write : ∀ name ∈ names, ∀ bytes, ContextSets.Spares view (shelf.folder.write name bytes)
  rename : ∀ source ∈ names, ∀ target ∈ names,
    ContextSets.Spares view (shelf.folder.rename source target)
  remove : ∀ name ∈ names, ContextSets.Spares view (shelf.folder.remove name)
  now : ContextSets.Spares view shelf.now

/-- The files that are written for a key have given names. -/
structure CacheKey.WrittenAs (key : CacheKey) (names : Set String) : Prop where
  file : key.fileName ∈ names
  temporary : key.temporaryName ∈ names

/-- The files of all slots have given names. -/
def Cache.Filed (names : Set String) (cache : Cache V) : Prop :=
  cache.Within {key | key.fileName ∈ names}

namespace Cache

variable {shelf : Option (Shelf (StateT σ n) V)} {names : Set String}
  (hshelf : ∀ kept ∈ shelf, kept.Spares view names)

include hshelf

theorem persist_spares {entry : CacheEntry V} (hkey : entry.key.WrittenAs names) :
    Spares view (persist shelf entry) := by
  unfold persist
  cases shelf with
  | none => exact spares_pure _
  | some shelf =>
    refine ((hshelf shelf rfl).write _ hkey.temporary _).bind fun written => ?_
    cases written with
    | error fault => exact spares_pure _
    | ok => exact (hshelf shelf rfl).rename _ hkey.temporary _ hkey.file

theorem entryNow_ensures (key : CacheKey) (vector : V) (s : σ) :
    Ensures ((entryNow shelf key vector).run s) fun r => view r.2 = view s ∧ r.1.key = key := by
  unfold entryNow
  cases shelf with
  | none => exact .run_pure ⟨rfl, rfl⟩
  | some shelf =>
    exact Ensures.run_bind ((hshelf shelf rfl).now s) fun _ _ hsame => .run_pure ⟨hsame, rfl⟩

theorem settle_keeps {key : CacheKey} (hkey : key.WrittenAs names) (ticket : Nat) (vector : V)
    {cache : Cache V} (h : cache.Filed names) :
    Keeps view (Filed names) (settle shelf key ticket vector) cache := by
  unfold settle
  refine Keeps.get_bind ?_
  split
  · refine Keeps.lift_bind (Q := fun entry => entry.key = key)
      (entryNow_ensures hshelf key vector) ?_
    rintro entry rfl
    refine Keeps.lift_bind (Q := fun _ => True)
      (fun s => (persist_spares hshelf hkey s).mono fun _ hsame => ⟨hsame, trivial⟩) ?_
    intro written _
    cases written with
    | ok => exact Keeps.modify_bind (.pure _ (h.publish ticket entry))
    | error fault => exact Keeps.modify_bind (.pure _ (h.discard ticket))
  · exact .pure _ h

theorem computeInto_keeps {key : CacheKey} (hkey : key.WrittenAs names) (ticket : Nat)
    {compute : StateT σ n (Reply V)} (hcompute : Spares view compute) {cache : Cache V}
    (h : cache.Filed names) :
    Keeps view (Filed names) (computeInto shelf key ticket (StateT.lift compute)) cache := by
  unfold computeInto
  refine (Keeps.lift hcompute h).bind fun reply cache h => ?_
  cases reply with
  | pending => exact .pure _ h
  | done result =>
    cases result with
    | error e => exact Keeps.modify_bind (.pure _ (h.discard ticket))
    | ok vector => exact settle_keeps hshelf hkey ticket vector h

theorem getOrCompute_keeps {key : CacheKey} (hkey : key.WrittenAs names)
    {compute : StateT σ n (Reply V)} (hcompute : Spares view compute) {cache : Cache V}
    (h : cache.Filed names) :
    Keeps view (Filed names) (getOrCompute shelf key (StateT.lift compute)) cache := by
  have hreserved : (cache.reserve key).2.Filed names := Within.reserve h hkey.file
  unfold getOrCompute
  refine Keeps.modifyGet_bind ?_
  split
  · exact .pure _ hreserved
  · exact computeInto_keeps hshelf hkey _ hcompute hreserved

theorem removeFiles_spares (removed : List CacheKey)
    (hremoved : ∀ key ∈ removed, key.fileName ∈ names) :
    Spares view (removeFiles shelf removed) := by
  induction removed with
  | nil => exact spares_pure _
  | cons key rest ih =>
    obtain ⟨hkey, hrest⟩ := List.forall_mem_cons.mp hremoved
    unfold removeFiles
    cases shelf with
    | none => exact spares_pure _
    | some shelf =>
      refine ((hshelf shelf rfl).remove _ hkey).bind fun removal => ?_
      split
      · exact ih hrest
      · exact ih hrest
      · exact spares_pure _

theorem removeWhere_keeps (test : CacheKey → Slot V → Bool) {cache : Cache V}
    (h : cache.Filed names) : Keeps view (Filed names) (removeWhere shelf test) cache := by
  unfold removeWhere
  refine Keeps.get_bind (Keeps.set_bind ?_)
  have hdoomed : ∀ key ∈ cache.doomed test, key.fileName ∈ names := by
    intro key hkey
    obtain ⟨slot, hslot, -⟩ := mem_doomed.mp hkey
    exact h key slot hslot
  refine (Keeps.lift (removeFiles_spares hshelf _ hdoomed) (h.drop _)).bind fun removal cache h => ?_
  split
  · exact .pure _ h
  · exact .pure _ h

end Cache

/-! ### The index -/

/-- An embedder leaves a part of the state alone, as long as only files with given names are touched. -/
structure Embedder.Spares (embedder : Embedder (StateT σ n)) (view : σ → γ) (names : Set String) :
    Prop where
  provider : ∀ request, ContextSets.Spares view (embedder.provider.embed request)
  shelf : ∀ kept ∈ embedder.shelf, kept.Spares view names

/-- The key of a text for an embedder. -/
def Embedder.keyOf {m : Type → Type} (embedder : Embedder m) (text : String) : CacheKey :=
  ⟨Fingerprint.ofText text, embedder.provider.model⟩

namespace EmbeddingIndex

/-- The files of all slots have given names. -/
def Filed (names : Set String) (index : EmbeddingIndex) : Prop :=
  index.cache.Filed names

variable {embedder : Embedder (StateT σ n)} {names : Set String} {index : EmbeddingIndex}

theorem onCache_keeps {run : StateT (Cache Embedding) (StateT σ n) α}
    (hrun : ∀ cache : Cache Embedding, cache.Filed names → Keeps view (Cache.Filed names) run cache)
    (h : index.Filed names) : Keeps view (Filed names) (onCache run) index := by
  unfold onCache
  refine Keeps.get_bind (Keeps.lift_bind (Q := fun r => r.2.Filed names) ?_ ?_)
  · exact fun s => (hrun index.cache h s).mono fun _ h => ⟨h.2, h.1⟩
  · exact fun _ hcache => Keeps.set_bind (.pure _ hcache)

variable (hembedder : embedder.Spares view names)

include hembedder

theorem embed_spares (text : String) : Spares view (embed embedder text) :=
  (hembedder.provider _).bind fun _ => spares_pure _

theorem getOrEmbed_keeps {text : String} (htext : (embedder.keyOf text).WrittenAs names)
    (h : index.Filed names) :
    Keeps view (Filed names) (getOrEmbed embedder (Fingerprint.ofText text) text) index :=
  onCache_keeps (fun _ => Cache.getOrCompute_keeps hembedder.shelf htext
    (embed_spares hembedder text)) h

theorem release_keeps (path fingerprint : String) (h : index.Filed names) :
    Keeps view (Filed names) (release embedder path fingerprint) index := by
  unfold release
  refine Keeps.get_bind ?_
  split
  · exact .pure _ h
  · exact (onCache_keeps (fun _ => Cache.removeWhere_keeps hembedder.shelf _) h).bind
      fun _ _ h => .pure _ h

theorem takeIn_keeps (path : String) {text : String}
    (htext : (embedder.keyOf text).WrittenAs names) (h : index.Filed names) :
    Keeps view (Filed names) (takeIn embedder path (Fingerprint.ofText text) text) index := by
  unfold takeIn
  refine (getOrEmbed_keeps hembedder htext h).bind fun reply index h => ?_
  split
  · exact Keeps.modify_bind (.pure _ h)
  · exact .pure _ h

theorem update_keeps (path : String) {text : String}
    (htext : (embedder.keyOf text).WrittenAs names) (h : index.Filed names) :
    Keeps view (Filed names) (update embedder path text) index := by
  unfold update
  refine Keeps.get_bind ?_
  split
  · exact takeIn_keeps hembedder path htext h
  · split
    · exact .pure _ h
    · refine (release_keeps hembedder path _ h).bind fun released index h => ?_
      split
      · exact .pure _ h
      · exact takeIn_keeps hembedder path htext h

theorem pruneCache_keeps_filed (h : index.Filed names) :
    Keeps view (Filed names) (pruneCache embedder) index := by
  unfold pruneCache
  exact Keeps.get_bind (onCache_keeps (fun _ => Cache.removeWhere_keeps hembedder.shelf _) h)

end EmbeddingIndex

/-! ### The ranker -/

namespace Ranker

variable {embedder : Embedder (StateT σ n)} {names : Set String} {index : EmbeddingIndex}
  (hembedder : embedder.Spares view names)

include hembedder

theorem similarity_keeps (query : Embedding) {file : SourceFile}
    (hfile : (embedder.keyOf file.content).WrittenAs names) (h : index.Filed names) :
    Keeps view (EmbeddingIndex.Filed names) (similarity embedder query file) index := by
  unfold similarity
  refine (EmbeddingIndex.update_keeps hembedder _ hfile h).bind fun reply index h => ?_
  split
  · exact .pure _ h
  · exact .pure _ h
  · split
    · exact .pure _ h
    · exact .pure _ h

theorem score_keeps (config : RankerConfig) (terms : List String) (query : Option Embedding)
    {file : SourceFile} (hfile : (embedder.keyOf file.content).WrittenAs names)
    (h : index.Filed names) :
    Keeps view (EmbeddingIndex.Filed names) (score embedder config terms query file) index := by
  unfold score
  cases query with
  | none => exact (Keeps.pure _ h).bind fun _ _ h => .pure _ h
  | some query => exact (similarity_keeps hembedder query hfile h).bind fun _ _ h => .pure _ h

theorem scoreAll_keeps (config : RankerConfig) (terms : List String) (query : Option Embedding)
    (workers : Nat) {files : List SourceFile}
    (hfiles : ∀ file ∈ files, (embedder.keyOf file.content).WrittenAs names)
    (h : index.Filed names) :
    Keeps view (EmbeddingIndex.Filed names) (scoreAll embedder config terms query workers files)
      index := by
  induction files generalizing workers index with
  | nil =>
    unfold scoreAll
    exact .pure _ h
  | cons file rest ih =>
    obtain ⟨hfile, hrest⟩ := List.forall_mem_cons.mp hfiles
    cases workers with
    | zero => exact .pure _ h
    | succ workers =>
      unfold scoreAll
      refine (score_keeps hembedder config terms query hfile h).bind fun scores index h => ?_
      cases scores with
      | none => exact (ih workers hrest h).bind fun _ _ h => .pure _ h
      | some scores => exact (ih (workers + 1) hrest h).bind fun _ _ h => .pure _ h

theorem rank_keeps (config : RankerConfig) (isCancelled : Bool) {query : String}
    {files : List SourceFile} (hquery : (embedder.keyOf query).WrittenAs names)
    (hfiles : ∀ file ∈ files, (embedder.keyOf file.content).WrittenAs names)
    (h : index.Filed names) :
    Keeps view (EmbeddingIndex.Filed names) (rank embedder config isCancelled query files)
      index := by
  have hdistinct : ∀ file ∈ distinct files, (embedder.keyOf file.content).WrittenAs names :=
    fun file hfile => hfiles file (mem_of_mem_distinct hfile)
  unfold rank
  split
  · exact .pure _ h
  · refine (EmbeddingIndex.getOrEmbed_keeps hembedder hquery h).bind fun reply index h => ?_
    split
    · exact .pure _ h
    -- with the vector of the query, or without
    all_goals
      refine (Keeps.pure _ h).bind fun vector index h => ?_
      refine (scoreAll_keeps hembedder config _ vector _ hdistinct h).bind fun scored _ h => ?_
      cases scored with
      | none => exact .pure _ h
      | some scored => exact .pure _ h

end Ranker

end ContextSets
