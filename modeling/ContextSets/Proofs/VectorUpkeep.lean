import ContextSets.Proofs.KeptVectors
import Mathlib.Data.List.Perm.Subperm

/-!
# Looking after vectors

A run over sources opens the kept vectors, makes an index of the sources, and prunes in the end. Here
the invariant of such a run is stated, what each change of the index does to it, and what pruning
leaves.
-/

namespace ContextSets

variable {n : Type → Type} {σ : Type}

/-- The index has the present text of a source. -/
def EmbeddingIndex.Has (index : EmbeddingIndex) (source : SourceFile) : Prop :=
  ∃ entry, index.entries.get? source.path = some entry ∧
    entry.fingerprint = Fingerprint.ofText source.content

/-- The keys under which a provider has the vectors of texts. -/
def Provider.keysOf {m : Type → Type} (provider : Provider m) (texts : List String) : Set CacheKey :=
  {key | ∃ text ∈ texts, ⟨Fingerprint.ofText text, provider.model⟩ = key}

/-- What a run over sources works with: the provider and the shelf for its vectors, the files and
which of them may fail, the keys that come up, the sources, and what the files held at the start. If
storage is faultless, no file of these keys fails and what is written is read back. -/
structure Upkeep (n : Type → Type) (σ : Type) where
  provider : Provider (StateT σ n)
  shelf : Shelf (StateT σ n) Embedding
  files : σ → Contents
  mayFail : Option String → Prop
  keys : Set CacheKey
  sources : List SourceFile
  before : Contents
  faultless : Prop

namespace Upkeep

/-- The provider with its shelf. -/
def embedder (upkeep : Upkeep n σ) : Embedder (StateT σ n) :=
  ⟨upkeep.provider, some upkeep.shelf⟩

/-- The key of the text of a source. -/
def keyOf (upkeep : Upkeep n σ) (source : SourceFile) : CacheKey :=
  upkeep.embedder.keyOf source.content

/-- The keys of the texts of the sources. -/
def sourceKeys (upkeep : Upkeep n σ) : Set CacheKey :=
  upkeep.provider.keysOf (upkeep.sources.map (·.content))

/-- All that a run may rely on. The provider and the clock leave the files alone. -/
structure Sound [Monad n] (upkeep : Upkeep n σ) : Prop where
  serves : upkeep.shelf.folder.Serves upkeep.files upkeep.mayFail
  fits : ∀ key ∈ upkeep.keys, key.FitsName
  apart : upkeep.keys.InjOn CacheKey.fileName
  sub : upkeep.sourceKeys ⊆ upkeep.keys
  distinct : (upkeep.sources.map (·.path)).Nodup
  whole : upkeep.faultless → ∀ key ∈ upkeep.keys,
    ¬ upkeep.mayFail (some key.temporaryName) ∧ ¬ upkeep.mayFail (some key.fileName)
  answers : ∀ text, Quiet upkeep.files
    (upkeep.shelf.Stamps upkeep.files
      (fun entry => upkeep.faultless → upkeep.shelf.format.Lossless entry)
      (upkeep.embedder.keyOf text))
    (EmbeddingIndex.embed upkeep.embedder text)

/-- What holds all along: what could be read at the start is published and, unless another key has the
file, still there; what is published is what the files hold, as far as storage is faultless; and the
indexed files are sources whose vectors are published. -/
structure Tended (upkeep : Upkeep n σ) (index : EmbeddingIndex) (contents : Contents) : Prop where
  wellFormed : index.cache.WellFormed
  within : index.cache.Within upkeep.keys
  keeps : ∀ name entry, IsEntryFile name → ¬ upkeep.mayFail (some name) →
    upkeep.shelf.format.Holds upkeep.before name entry →
      (∃ found, index.cache.published? entry.key = some found) ∧
        (entry.key.Undisputed upkeep.keys name → contents name = upkeep.before name)
  reflects : upkeep.faultless → index.cache.Reflects upkeep.shelf.format upkeep.keys contents
  indexed : ∀ path entry, index.entries.get? path = some entry →
    ∃ source ∈ upkeep.sources, source.path = path ∧ index.Has source
  published : ∀ source ∈ upkeep.sources, index.Has source →
    ∃ entry, index.cache.published? (upkeep.keyOf source) = some entry

/-- All sources have been indexed. -/
def Complete (upkeep : Upkeep n σ) (index : EmbeddingIndex) : Prop :=
  ∀ source ∈ upkeep.sources, index.Has source

/-- The vectors of the texts of the sources are as they were, as far as they could be read and no other
key has their files. -/
def Kept (upkeep : Upkeep n σ) (contents : Contents) : Prop :=
  upkeep.shelf.format.Retains upkeep.mayFail upkeep.keys upkeep.sourceKeys upkeep.before contents

variable {upkeep : Upkeep n σ} {index after : EmbeddingIndex} {contents : Contents}
  {source : SourceFile}

theorem kept_of_same (h : contents = upkeep.before) : upkeep.Kept contents := by
  intro name entry _ _ _ _ _
  rw [h]

theorem mem_sourceKeys {key : CacheKey} :
    key ∈ upkeep.sourceKeys ↔ ∃ source ∈ upkeep.sources, upkeep.keyOf source = key := by
  constructor
  · rintro ⟨_, htext, rfl⟩
    obtain ⟨source, hsource, rfl⟩ := List.mem_map.mp htext
    exact ⟨source, hsource, rfl⟩
  · rintro ⟨source, hsource, rfl⟩
    exact ⟨source.content, List.mem_map_of_mem hsource, rfl⟩

/-! ### Taking in the text of a source -/

/-- What taking in the text of a source comes to: its vector is in the index, or there is none and the
index has the files that it had. -/
def Took (index : EmbeddingIndex) (source : SourceFile) (reply : Reply Embedding)
    (after : EmbeddingIndex) : Prop :=
  (∃ vector, reply = .ok vector ∧ after.entries =
      index.entries.insert source.path ⟨Fingerprint.ofText source.content, vector⟩) ∨
    reply.value? = none ∧ after.entries = index.entries

section Took

variable {reply : Reply Embedding} {path : String}

theorem Took.get?_of_ne (h : Took index source reply after) (hne : source.path ≠ path) :
    after.entries.get? path = index.entries.get? path := by
  obtain ⟨vector, -, hentries⟩ | ⟨-, hentries⟩ := h
  · rw [hentries, Table.get?_insert, if_neg hne]
  · rw [hentries]

/-- A source that was not indexed is so afterwards if and only if there is a vector. -/
theorem Took.has_iff (h : Took index source reply after)
    (hnew : index.entries.get? source.path = none) :
    after.Has source ↔ ∃ vector, reply = .ok vector := by
  obtain ⟨vector, rfl, hentries⟩ | ⟨hreply, hentries⟩ := h
  · refine iff_of_true ⟨⟨Fingerprint.ofText source.content, vector⟩, ?_, rfl⟩ ⟨vector, rfl⟩
    rw [hentries, Table.get?_insert, if_pos rfl]
  · refine iff_of_false ?_ ?_
    · rintro ⟨entry, hentry, -⟩
      rw [hentries, hnew] at hentry
      cases hentry
    · rintro ⟨vector, rfl⟩
      cases hreply

end Took

/-! ### The invariant, step by step -/

section Steps

variable [Monad n] (hsound : upkeep.Sound)

include hsound

theorem Sound.covers {source : SourceFile} (hsource : source ∈ upkeep.sources) :
    upkeep.keyOf source ∈ upkeep.keys :=
  hsound.sub (mem_sourceKeys.mpr ⟨source, hsource, rfl⟩)

theorem Sound.serves_some :
    ∀ kept ∈ some upkeep.shelf, kept.folder.Serves upkeep.files upkeep.mayFail := by
  rintro _ ⟨⟩
  exact hsound.serves

/-- The index over a cache that has been opened. -/
theorem Tended.opened
    (hfiled : upkeep.faultless → upkeep.shelf.format.Filed upkeep.keys upkeep.before)
    (hheld : upkeep.shelf.format.heldKeys upkeep.before ⊆ upkeep.keys)
    {names : List String} {entries : List (CacheEntry Embedding)}
    (hread : ReadFrom upkeep.shelf.format upkeep.mayFail upkeep.before names entries)
    (hall : ∀ name, Path.IsPlain name → upkeep.before name ≠ none → name ∈ names) :
    upkeep.Tended (.ofCache (Cache.ofEntries entries)) upkeep.before where
  wellFormed := Cache.wellFormed_ofEntries entries
  within := Cache.within_ofEntries fun entry hentry => by
    obtain ⟨name, hname, hentry⟩ := hread.held entry hentry
    exact hheld (EntryFormat.mem_heldKeys hname hentry)
  keeps := by
    intro name entry hname hsafe hentry
    have hlisted : name ∈ names := hall _ hname.1 hentry.ne_none
    have hmem := hread.all _ hlisted hname hsafe entry hentry
    exact ⟨Cache.exists_published?_ofEntries hmem, fun _ => rfl⟩
  reflects hfaultless := ⟨hfiled hfaultless, fun key hkey =>
    (hfiled hfaultless).published?_ofEntries (hsound.fits key hkey)
      (hsound.whole hfaultless key hkey).2 hread hall⟩
  indexed _ _ h := nomatch h
  published := by
    rintro source - ⟨entry, hentry, -⟩
    cases hentry

/-- A source is indexed whose vector is published. -/
theorem Tended.insert (h : upkeep.Tended index contents) (hsource : source ∈ upkeep.sources)
    (vector : Embedding)
    (hpublished : ∃ entry, index.cache.published? (upkeep.keyOf source) = some entry) :
    upkeep.Tended { index with
      entries := index.entries.insert source.path ⟨Fingerprint.ofText source.content, vector⟩ }
      contents := by
  refine ⟨h.wellFormed, h.within, h.keeps, h.reflects, fun path entry hentry => ?_, ?_⟩
  · rw [Table.get?_insert] at hentry
    split at hentry
    · exact ⟨source, hsource, ‹_›, _, by rw [Table.get?_insert, if_pos rfl], rfl⟩
    · obtain ⟨other, hother, rfl, found, hfound, hsame⟩ := h.indexed path entry hentry
      exact ⟨other, hother, rfl, found, by rw [Table.get?_insert, if_neg ‹_›, hfound], hsame⟩
  · rintro other hother ⟨entry, hentry, hsame⟩
    by_cases hpath : source.path = other.path
    · rwa [← List.inj_on_of_nodup_map hsound.distinct hsource hother hpath]
    · rw [Table.get?_insert, if_neg hpath] at hentry
      exact h.published other hother ⟨entry, hentry, hsame⟩

/-- Asking for the vector of a text loses nothing. -/
theorem Tended.recorded {before : Contents} (h : upkeep.Tended index before) {key : CacheKey}
    (hkey : key ∈ upkeep.keys) {reply : Reply Embedding} {cache : Cache Embedding}
    (hrecorded : Cache.Recorded (some upkeep.shelf) upkeep.mayFail
      (fun format entry => upkeep.faultless → format.Lossless entry) upkeep.keys key index.cache
      before reply cache contents) :
    upkeep.Tended { index with cache := cache } contents := by
  obtain ⟨hwf, hwithin⟩ := hrecorded.ordered h.wellFormed h.within
  refine ⟨hwf, hwithin, fun name entry hname hsafe hentry => ?_, fun hfaultless => ?_, h.indexed, ?_⟩
  · obtain ⟨⟨found, hfound⟩, hfile⟩ := h.keeps name entry hname hsafe hentry
    refine ⟨⟨found, hrecorded.published?_of_some hfound⟩, fun hundisputed => ?_⟩
    rw [hrecorded.file_same hkey (hsound.fits key hkey) hname hundisputed hfound, hfile hundisputed]
  · exact hrecorded.reflects hsound.apart (hsound.fits key hkey) hkey
      (hsound.whole hfaultless key hkey) (fun entry hentry => hentry hfaultless)
      (h.reflects hfaultless)
  · intro source hsource hhas
    obtain ⟨entry, hentry⟩ := h.published source hsource hhas
    exact ⟨entry, hrecorded.published?_of_some hentry⟩

/-- There are as many indexed files as sources if and only if all sources have been indexed. -/
theorem Tended.size_eq_iff (h : upkeep.Tended index contents) :
    index.entries.size = upkeep.sources.length ↔ upkeep.Complete index := by
  have hpaths : index.entries.keys ⊆ upkeep.sources.map (·.path) := by
    intro path hpath
    obtain ⟨entry, hentry⟩ := Table.contains_iff.mp (Table.mem_keys.mp hpath)
    obtain ⟨source, hsource, rfl, -⟩ := h.indexed path entry hentry
    exact List.mem_map_of_mem hsource
  have hnodup := index.entries.keys_nodup
  have hlength : (upkeep.sources.map (·.path)).length = upkeep.sources.length := List.length_map _
  rw [Table.size_eq_length_keys, ← hlength]
  constructor
  · intro hsize source hsource
    have hperm := (hnodup.subperm hpaths).perm_of_length_le hsize.ge
    have hpath := hperm.mem_iff.mpr (List.mem_map_of_mem hsource)
    obtain ⟨entry, hentry⟩ := Table.contains_iff.mp (Table.mem_keys.mp hpath)
    obtain ⟨indexed, hindexed, hsame, hhas⟩ := h.indexed source.path entry hentry
    rwa [List.inj_on_of_nodup_map hsound.distinct hindexed hsource hsame] at hhas
  · intro hcomplete
    refine ((List.perm_ext_iff_of_nodup hnodup hsound.distinct).mpr fun path => ?_).length_eq
    refine ⟨fun hpath => hpaths hpath, fun hpath => ?_⟩
    obtain ⟨source, hsource, rfl⟩ := List.mem_map.mp hpath
    obtain ⟨entry, hentry, -⟩ := hcomplete source hsource
    exact Table.mem_keys.mpr (Table.contains_iff.mpr ⟨entry, hentry⟩)

end Steps

/-! ### Removing all but the sources -/

/-- Once all sources are indexed, the keys that are spared are those of their texts. -/
theorem Tended.spares_iff (h : upkeep.Tended index contents)
    (hcomplete : upkeep.Complete index) (key : CacheKey) :
    (key.model == upkeep.embedder.provider.model &&
        (index.entries.values.map (·.fingerprint)).contains key.fingerprint) = true ↔
      key ∈ upkeep.sourceKeys := by
  rw [Bool.and_eq_true, beq_iff_eq, List.contains_iff_mem, List.mem_map, mem_sourceKeys]
  constructor
  · rintro ⟨hmodel, entry, hentry, hfingerprint⟩
    obtain ⟨path, hpath⟩ := Table.mem_values.mp hentry
    obtain ⟨source, hsource, rfl, found, hfound, hsame⟩ := h.indexed path entry hpath
    rw [hpath] at hfound
    cases hfound
    refine ⟨source, hsource, ?_⟩
    unfold keyOf Embedder.keyOf
    rw [← hsame, hfingerprint, ← hmodel]
  · rintro ⟨source, hsource, rfl⟩
    obtain ⟨entry, hentry, hfingerprint⟩ := hcomplete source hsource
    exact ⟨rfl, entry, Table.mem_values.mpr ⟨_, hentry⟩, hfingerprint⟩

/-- As long as nothing has been pruned, nothing that could be read is lost. -/
theorem Tended.kept (h : upkeep.Tended index contents) : upkeep.Kept contents := by
  intro name entry hname hentry _ hsafe hundisputed
  exact (h.keeps name entry hname hsafe hentry).2 hundisputed

section Retain

variable {s : σ} {keep : CacheKey → Bool} (h : upkeep.Tended index (upkeep.files s))
  (hkeep : ∀ key, keep key = true ↔ key ∈ upkeep.sourceKeys)
  (hcleared : Cleared (index.cache.doomed fun key slot => !keep key && slot.entry.isSome)
    upkeep.mayFail (upkeep.files s) contents)

include h hkeep hcleared

/-- If the keys of sources are spared, their files stay. -/
theorem Tended.kept_of_cleared : upkeep.Kept contents := by
  intro name entry hname hentry hkey hsafe hundisputed
  rw [← (h.keeps name entry hname hsafe hentry).2 hundisputed]
  refine Cache.file_of_not_removed hcleared (fun _ => h.within.of_mem_doomed) hundisputed ?_
  intro hdoomed
  obtain ⟨slot, -, hremoved⟩ := Cache.mem_doomed.mp hdoomed
  rw [(hkeep entry.key).mpr hkey] at hremoved
  cases hremoved

variable [Monad n] (hsound : upkeep.Sound) (hcomplete : upkeep.Complete index)

include hsound hcomplete

/-- If only the keys of sources are spared, no other entries stay. -/
theorem Tended.holdsExactly_of_cleared (hfaultless : upkeep.faultless) :
    upkeep.shelf.format.HoldsExactly contents upkeep.sourceKeys := by
  have hreflects := (h.reflects hfaultless).removed h.wellFormed h.within hsound.apart
    (fun key hkey => (hsound.whole hfaultless key hkey).2) hcleared
  have hpublished := h.wellFormed.published?_drop_doomed keep
  refine ⟨?_, fun name entry hname hheld => ?_⟩
  · intro key hkey
    obtain ⟨source, hsource, rfl⟩ := mem_sourceKeys.mp hkey
    obtain ⟨entry, hentry⟩ := h.published source hsource (hcomplete source hsource)
    refine ⟨entry, ?_⟩
    rw [← hreflects.agrees _ (hsound.sub hkey), hpublished,
      if_pos ((hkeep _).mpr hkey), hentry]
  · obtain ⟨hfile, hfound⟩ := hreflects.published? hname hheld
    refine ⟨?_, hfile⟩
    rw [hpublished] at hfound
    split at hfound
    · exact (hkeep _).mp ‹_›
    · cases hfound

end Retain

/-! ### Programs on the index -/

section Programs

variable [Monad n] [LawfulMonad n] {s : σ}

theorem onCache_ends {α : Type} {run : StateT (Cache Embedding) (StateT σ n) α}
    {R : α → EmbeddingIndex → σ → Prop}
    (h : Ends run index.cache s fun a cache s' => R a { index with cache := cache } s') :
    Ends (EmbeddingIndex.onCache run) index s R := by
  unfold EmbeddingIndex.onCache
  refine Ends.get_bind (Ends.lift_bind h fun r s' hr => ?_)
  exact Ends.set_bind (.pure hr)

theorem getOrEmbed_tends (hsound : upkeep.Sound) (h : upkeep.Tended index (upkeep.files s))
    {text : String} (hkey : upkeep.embedder.keyOf text ∈ upkeep.keys) :
    Ends (EmbeddingIndex.getOrEmbed upkeep.embedder (Fingerprint.ofText text) text) index s
      fun reply after s' => upkeep.Tended after (upkeep.files s') ∧ after.entries = index.entries ∧
        ∀ vector, reply = .ok vector →
          ∃ entry, after.cache.published? (upkeep.embedder.keyOf text) = some entry := by
  have hstamps : ∀ vector,
      upkeep.shelf.Stamps upkeep.files
        (fun entry => upkeep.faultless → upkeep.shelf.format.Lossless entry)
        (upkeep.embedder.keyOf text) vector →
      ∀ kept ∈ some upkeep.shelf, kept.Stamps upkeep.files
        (fun entry => upkeep.faultless → kept.format.Lossless entry)
        (upkeep.embedder.keyOf text) vector := by
    rintro vector hvector _ ⟨⟩
    exact hvector
  refine onCache_ends ((Cache.getOrCompute_records
    (P := fun format entry => upkeep.faultless → format.Lossless entry) hsound.serves_some
    h.wellFormed h.within hkey (hsound.fits _ hkey) (hsound.answers text) hstamps s).mono ?_)
  rintro ⟨⟨reply, cache⟩, s'⟩ hrecorded
  exact ⟨h.recorded hsound hkey hrecorded, rfl, fun vector => hrecorded.of_ok⟩

/-- The text of a source whose path is not in the index is taken in. -/
theorem update_tends (hsound : upkeep.Sound) (h : upkeep.Tended index (upkeep.files s))
    (hsource : source ∈ upkeep.sources) (hnew : index.entries.get? source.path = none) :
    Ends (EmbeddingIndex.update upkeep.embedder source.path source.content) index s
      fun reply after s' => upkeep.Tended after (upkeep.files s') ∧ Took index source reply after := by
  unfold EmbeddingIndex.update
  refine Ends.get_bind ?_
  simp only [hnew]
  unfold EmbeddingIndex.takeIn
  refine (getOrEmbed_tends hsound h (hsound.covers hsource)).bind ?_
  rintro reply mid s' ⟨hmid, hentries, hpublished⟩
  cases reply with
  | pending => exact .pure ⟨hmid, .inr ⟨rfl, hentries⟩⟩
  | done result =>
    cases result with
    | error e => exact .pure ⟨hmid, .inr ⟨rfl, hentries⟩⟩
    | ok vector =>
      refine .modify_bind (.pure ⟨hmid.insert hsound hsource vector (hpublished vector rfl), ?_⟩)
      exact .inl ⟨vector, rfl, by rw [hentries]⟩

/-- Pruning an index of all sources leaves the vectors of their texts and, as far as storage is
faultless, no others. -/
theorem pruneCache_releases (hsound : upkeep.Sound) (h : upkeep.Tended index (upkeep.files s))
    (hcomplete : upkeep.Complete index) :
    Ends (EmbeddingIndex.pruneCache upkeep.embedder) index s fun _ _ s' =>
      upkeep.Kept (upkeep.files s') ∧ (upkeep.faultless →
        upkeep.shelf.format.HoldsExactly (upkeep.files s') upkeep.sourceKeys) := by
  have hspares := h.spares_iff hcomplete
  unfold EmbeddingIndex.pruneCache
  refine Ends.get_bind (onCache_ends
    ((Cache.removeWhere_clears hsound.serves_some h.within hsound.fits _ s).mono ?_))
  rintro ⟨⟨_, cache⟩, s'⟩ ⟨-, hcleared⟩
  have hcleared := hcleared upkeep.shelf rfl
  exact ⟨h.kept_of_cleared hspares hcleared,
    h.holdsExactly_of_cleared hspares hcleared hsound hcomplete⟩

end Programs

end Upkeep

end ContextSets
