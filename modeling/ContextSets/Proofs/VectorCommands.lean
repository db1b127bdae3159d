import ContextSets.Proofs.ProviderCommands
import ContextSets.Proofs.SearchFiles
import ContextSets.Proofs.VectorRuns

/-!
# Commands that look after vectors

A search and an embedding of the sources open the kept vectors, make an index, and release vectors in
the end. Here the upkeep of the vectors of a project is followed through both.
-/

namespace ContextSets

variable {n : Type → Type} [Monad n] {σ : Type} {files : σ → Contents}
  {mayFail : Option String → Prop}

/-- The files of a project, as far as a command has to do with them: a folder for the vectors, sources
with distinct paths, and a working copy elsewhere. -/
structure Project.Hosts (project : Project) (world : World (StateT σ n))
    (settings : EmbeddingSettings) (files : σ → Contents) (mayFail : Option String → Prop)
    (sources : List SourceFile) (s : σ) : Prop where
  serves : (project.shelf world.files settings).folder.Serves files mayFail
  now : Spares files world.files.now
  reads : Ensures ((project.sources world.files settings).run s) fun r =>
    r.1 = sources ∧ files r.2 = files s
  distinct : (sources.map (·.path)).Nodup
  load : Spares files (project.load world.files).run
  save : ∀ repo, Spares files (project.save world.files repo).run

/-- The keys that come up in a command: those of the entries that are there, and those of the query and
of the sources. -/
def Provider.keysAtHand (provider : Provider (StateT σ n)) (contents : Contents) (query : String)
    (sources : List SourceFile) : Set CacheKey :=
  EntryFormat.json.heldKeys contents ∪ provider.keysOf (query :: sources.map (·.content))

namespace Upkeep

/-- The upkeep of the vectors of a project. -/
def ofProject (project : Project) (world : World (StateT σ n)) (settings : EmbeddingSettings)
    (provider : Provider (StateT σ n)) (files : σ → Contents) (mayFail : Option String → Prop)
    (query : String) (sources : List SourceFile) (before : Contents) (faultless : Prop) :
    Upkeep n σ where
  provider := provider
  shelf := project.shelf world.files settings
  files := files
  mayFail := mayFail
  keys := provider.keysAtHand before query sources
  sources := sources
  before := before
  faultless := faultless

/-- What comes of a run: the vectors of the sources are there as before. If all sources have been
embedded and the run was not cancelled, no others are left. -/
structure Ended (upkeep : Upkeep n σ) (result : Except Failure String × Option EmbeddingIndex)
    (contents : Contents) : Prop where
  kept : upkeep.Kept contents
  released : ∀ index, result.2 = some index → upkeep.Complete index →
    result.1 ≠ .error (.embedding .cancelled) → upkeep.faultless →
      upkeep.shelf.format.HoldsExactly contents upkeep.sourceKeys

/-- A command of a project whose vectors are looked after. -/
structure Runs (upkeep : Upkeep n σ) (project : Project) (world : World (StateT σ n))
    (settings : EmbeddingSettings) (query : String) (s : σ) : Prop where
  sound : upkeep.Sound
  host : project.Hosts world settings upkeep.files upkeep.mayFail upkeep.sources s
  shelf : upkeep.shelf = project.shelf world.files settings
  start : upkeep.files s = upkeep.before
  filed : upkeep.faultless → upkeep.shelf.format.Filed upkeep.keys upkeep.before
  held : upkeep.shelf.format.heldKeys upkeep.before ⊆ upkeep.keys
  query : upkeep.embedder.keyOf query ∈ upkeep.keys

section OfProject

variable {project : Project} {world : World (StateT σ n)} {settings : EmbeddingSettings}
  {provider : Provider (StateT σ n)} {query : String} {sources : List SourceFile} {s : σ}
  {faultless : Prop}

/-- What a command of a project may rely on. -/
theorem runs_ofProject (hhost : project.Hosts world settings files mayFail sources s)
    (hfits : ∀ key ∈ EntryFormat.json.heldKeys (files s), key.FitsName)
    (hapart : (provider.keysAtHand (files s) query sources).InjOn CacheKey.fileName)
    (hfiled : faultless →
      EntryFormat.json.Filed (provider.keysAtHand (files s) query sources) (files s))
    (hwhole : faultless → ∀ key ∈ provider.keysAtHand (files s) query sources,
      ¬ mayFail (some key.temporaryName) ∧ ¬ mayFail (some key.fileName))
    (hanswers : ∀ text, Quiet files
      ((project.shelf world.files settings).Stamps files
        (fun entry => faultless → EntryFormat.json.Lossless entry)
        ⟨Fingerprint.ofText text, provider.model⟩)
      (EmbeddingIndex.embed ⟨provider, none⟩ text)) :
    (ofProject project world settings provider files mayFail query sources (files s)
      faultless).Runs project world settings query s where
  sound :=
    { serves := hhost.serves
      fits := by
        rintro key (hheld | ⟨text, -, rfl⟩)
        · exact hfits key hheld
        · exact CacheKey.fitsName_ofText text provider.model
      apart := hapart
      sub := by
        rintro _ ⟨text, htext, rfl⟩
        exact .inr ⟨text, List.mem_cons_of_mem _ htext, rfl⟩
      distinct := hhost.distinct
      whole := hwhole
      answers := hanswers }
  host := hhost
  shelf := rfl
  start := rfl
  filed := hfiled
  held := Set.subset_union_left
  query := .inr ⟨query, List.mem_cons_self, rfl⟩

end OfProject

section Commands

variable [LawfulMonad n] {upkeep : Upkeep n σ} {project : Project} {world : World (StateT σ n)}
  {settings : EmbeddingSettings} {config : Config} {query : String} {s : σ}

/-- A new index has none of the sources. -/
theorem openWith_ends (h : upkeep.Runs project world settings query s) {t : σ}
    (hsame : upkeep.files t = upkeep.before) :
    Ensures ((project.openWith world settings upkeep.provider).run.run t) fun r =>
      upkeep.files r.2 = upkeep.before ∧ ∀ embedder index, r.1 = .ok (embedder, index) →
        embedder = upkeep.embedder ∧ upkeep.Tended index upkeep.before ∧
          Unseen index upkeep.sources := by
  unfold Project.openWith
  rw [← h.shelf]
  refine Ensures.except_bind (P := fun r => upkeep.files r.2 = upkeep.before ∧
    ∀ cache, r.1 = .ok cache → upkeep.Tended (.ofCache cache) upkeep.before) ?_ ?_ ?_
  · refine Ensures.except_mapError ((Cache.reopen_reads h.sound.serves t).mono ?_)
    rintro ⟨result, t'⟩ ⟨hstill, hopened⟩
    refine ⟨hstill.trans hsame, fun cache hcache => ?_⟩
    have hcache := WorkingCopy.mapError_eq_ok_iff.mp hcache
    obtain ⟨⟨e, he⟩, -⟩ | ⟨names, entries, hentries, hread, hall⟩ := hopened
    · cases hcache.symm.trans he
    · cases hcache.symm.trans hentries
      rw [hsame] at hread hall
      exact .opened h.sound h.filed h.held hread hall
  · rintro cache t' ⟨hstill, htended⟩
    refine Ensures.except_pure ⟨hstill, ?_⟩
    rintro _ _ ⟨⟩
    exact ⟨rfl, htended cache rfl, h.sound.distinct, fun _ _ => rfl⟩
  · exact fun failure t' hstill => ⟨hstill.1, nofun⟩

theorem pruneVectors_releases (hsound : upkeep.Sound) {index : EmbeddingIndex} {t : σ}
    (h : upkeep.Tended index (upkeep.files t)) (hcomplete : upkeep.Complete index) :
    Ensures ((Project.pruneVectors upkeep.embedder index).run t) fun r =>
      upkeep.Kept (upkeep.files r.2) ∧ (upkeep.faultless →
        upkeep.shelf.format.HoldsExactly (upkeep.files r.2) upkeep.sourceKeys) :=
  Ensures.run_bind (pruneCache_releases hsound h hcomplete) fun _ _ hreleased =>
    .run_pure hreleased

theorem rankedWith_ends (h : upkeep.Runs project world config.embedding query s)
    (limit : Option Nat) :
    Ensures ((project.rankedWith world upkeep.provider config query limit).run.run s) fun r =>
      upkeep.Kept (upkeep.files r.2) ∧ ∀ results index, r.1 = .ok (results, index) →
        upkeep.Complete index → upkeep.faultless →
          upkeep.shelf.format.HoldsExactly (upkeep.files r.2) upkeep.sourceKeys := by
  unfold Project.rankedWith
  refine Ensures.except_bind (P := fun r => r.1 = .ok upkeep.sources ∧
    upkeep.files r.2 = upkeep.before) ?_ ?_ fun _ _ h => nomatch h.1
  · refine Ensures.except_lift (h.host.reads.mono ?_)
    rintro ⟨_, t⟩ ⟨rfl, hsame⟩
    exact ⟨rfl, hsame.trans h.start⟩
  rintro _ t ⟨⟨⟩, hsame⟩
  refine Ensures.except_bind (openWith_ends h hsame) ?_ fun _ _ h => ⟨kept_of_same h.1, nofun⟩
  rintro ⟨embedder, index⟩ t ⟨hsame, hopened⟩
  obtain ⟨rfl, htended, hunseen⟩ := hopened embedder index rfl
  dsimp only
  split
  · refine Ensures.except_mk_bind nofun ?_
    rintro _ ⟨⟩
    exact ⟨kept_of_same hsame, nofun⟩
  refine Ensures.except_bind (P := fun r => ∃ outcome index, r.1 = .ok (outcome, index) ∧
    upkeep.Tended index (upkeep.files r.2)) ?_ ?_ ?_
  · rw [← hsame] at htended
    exact Ensures.except_lift (Ensures.mono (rank_tends h.sound htended _ false h.query hunseen)
      fun r hr => ⟨_, _, rfl, hr⟩)
  · rintro _ t ⟨outcome, index, ⟨⟩, htended⟩
    have hsize := htended.size_eq_iff h.sound
    dsimp only
    refine Ensures.except_mk_bind (fun results _ => ?_) fun _ _ => ⟨htended.kept, nofun⟩
    split
    · rename_i hall
      refine Ensures.except_bind (P := fun r => upkeep.Kept (upkeep.files r.2) ∧
        (upkeep.faultless →
          upkeep.shelf.format.HoldsExactly (upkeep.files r.2) upkeep.sourceKeys))
        (Ensures.except_lift (pruneVectors_releases h.sound htended (hsize.mp hall))) ?_ ?_
      · rintro _ t ⟨hkept, hexact⟩
        refine Ensures.except_pure ⟨hkept, ?_⟩
        rintro _ _ ⟨⟩ -
        exact hexact
      · exact fun _ _ h => ⟨h.1, nofun⟩
    · rename_i hmissing
      refine Ensures.except_pure ⟨htended.kept, ?_⟩
      rintro _ _ ⟨⟩ hcomplete
      exact absurd (hsize.mpr hcomplete) hmissing
  · rintro _ _ ⟨_, _, ⟨⟩, -⟩

/-! ### Adding results -/

/-- An edit of the repository touches no files. -/
theorem ofEdit_spares {α : Type} (edit : Edit α) (repo : Repository) :
    Spares files ((Change.ofEdit edit : Change (StateT σ n) α).run repo).run := by
  intro t
  unfold Change.ofEdit StateT.run
  dsimp only
  cases edit.run repo with
  | ok value repo => exact Ensures.run_pure rfl
  | error error repo => exact Ensures.run_pure rfl

theorem addResults_spares (name : String) (results : List RankedFile) (repo : Repository) :
    Spares files ((Change.addResults name results : Change (StateT σ n) Nat).run repo).run := by
  induction results generalizing repo with
  | nil => exact spares_pure _
  | cons file rest ih =>
    unfold Change.addResults
    intro t
    rw [StateT.run_bind]
    refine Ensures.except_bind (ofEdit_spares _ repo t) (fun added t₁ hsame => ?_) fun _ _ => id
    dsimp only
    rw [StateT.run_bind]
    exact Ensures.except_bind ((ih added.2 t₁).mono fun _ hr => Eq.trans hr hsame)
      (fun _ _ hsame => Ensures.except_pure hsame) fun _ _ => id

theorem change_spares {α : Type} {change : Change (StateT σ n) α}
    (h : upkeep.Runs project world settings query s)
    (hchange : ∀ repo, Spares upkeep.files (change.run repo).run) :
    Spares upkeep.files (project.change world.files change).run := by
  unfold Project.change
  intro t
  refine Ensures.except_bind (h.host.load t) (fun repo t₁ hsame => ?_) fun _ _ => id
  refine Ensures.except_bind ((hchange repo t₁).mono fun _ hr => Eq.trans hr hsame)
    (fun r t₂ hsame => ?_) fun _ _ => id
  refine Ensures.except_bind ((h.host.save r.2 t₂).mono fun _ hr => Eq.trans hr hsame)
    (fun _ t₃ hsame => Ensures.except_pure hsame) fun _ _ => id

/-- What is done with the results of a search leaves the vectors alone. -/
theorem answer_spares (h : upkeep.Runs project world settings query s) (options : SearchOptions)
    (results : List RankedFile) :
    Spares upkeep.files (project.answer world.files options results).run := by
  unfold Project.answer
  intro t
  dsimp only
  split
  · exact Ensures.except_pure rfl
  · rename_i name _
    exact Ensures.except_bind (change_spares h (addResults_spares name _) t)
      (fun _ _ hsame => Ensures.except_pure hsame) fun _ _ => id

/-! ### The commands -/

theorem searchWith_ends (h : upkeep.Runs project world config.embedding query s)
    (options : SearchOptions) :
    Ensures ((project.searchWith world upkeep.provider config query options).run s) fun r =>
      upkeep.Ended r.1 (upkeep.files r.2) := by
  unfold Project.searchWith
  refine Ensures.run_bind (rankedWith_ends h options.limit) ?_
  rintro (failure | ⟨results, index⟩) t ⟨hkept, hreleased⟩
  · exact .run_pure ⟨hkept, nofun⟩
  · dsimp only
    refine Ensures.run_bind (answer_spares h options results t) fun outcome t' hsame => ?_
    have hsame : upkeep.files t' = upkeep.files t := hsame
    refine .run_pure ⟨hsame ▸ hkept, ?_⟩
    rintro _ ⟨⟩ hcomplete - hfaultless
    exact hsame ▸ hreleased results index rfl hcomplete hfaultless

theorem embedWith_ends (h : upkeep.Runs project world settings query s)
    {monitor : Batch.Monitor (StateT σ n)} {cancelled : σ → Prop}
    (hmonitor : Batch.Heeds monitor upkeep.files cancelled) :
    Ensures ((project.embedWith world upkeep.provider monitor settings).run s) fun r =>
      upkeep.Ended r.1 (upkeep.files r.2) := by
  unfold Project.embedWith
  refine Ensures.run_bind h.host.reads ?_
  rintro _ t ⟨rfl, hsame⟩
  refine Ensures.run_bind (openWith_ends h (hsame.trans h.start)) ?_
  rintro (failure | ⟨embedder, index⟩) t ⟨hsame, hopened⟩
  · exact .run_pure ⟨kept_of_same hsame, nofun⟩
  obtain ⟨rfl, htended, hunseen⟩ := hopened embedder index rfl
  dsimp only
  rw [← hsame] at htended
  refine Ensures.run_bind (run_ends h.sound hmonitor htended settings.concurrency hunseen) ?_
  rintro ⟨reply, index⟩ t ⟨htended, hcancelled, hreport⟩
  have hkept := htended.kept
  cases reply with
  | pending => exact .run_pure ⟨hkept, fun _ _ _ hok => absurd rfl hok⟩
  | done result =>
    cases result with
    | error e =>
      obtain rfl := hcancelled e rfl
      exact .run_pure ⟨hkept, fun _ _ _ hok => absurd rfl hok⟩
    | ok report =>
      have hcomplete := hreport report rfl
      dsimp only
      split
      · rename_i hfailed
        rw [List.isEmpty_iff, hcomplete] at hfailed
        refine Ensures.run_bind (pruneVectors_releases h.sound htended hfailed) ?_
        rintro _ t' ⟨hkept, hexact⟩
        exact .run_pure ⟨hkept, fun _ _ _ _ => hexact⟩
      · rename_i hfailed
        rw [List.isEmpty_iff, hcomplete] at hfailed
        refine .run_pure ⟨hkept, ?_⟩
        rintro _ ⟨⟩ hall
        exact absurd hall hfailed

end Commands

end Upkeep

end ContextSets
