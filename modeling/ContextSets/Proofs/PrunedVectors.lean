import ContextSets.Proofs.EntryText
import ContextSets.Proofs.VectorCommands

/-!
# What is left of the kept vectors

A search and an embedding of the sources release kept vectors in the end. Whatever texts could be
embedded, those of the present texts of the sources stay; and once all sources have been embedded, no
others are left.
-/

namespace ContextSets

variable {n : Type → Type} [Monad n] {σ : Type} {files : σ → Contents}
  {mayFail : Option String → Prop}

/-! ### File names -/

/-- The file names tell the keys of one model apart. -/
theorem CacheKey.injOn_fileName (model : String) :
    {key : CacheKey | key.model = model}.InjOn CacheKey.fileName := by
  rintro ⟨fingerprint, _⟩ rfl ⟨fingerprint', _⟩ rfl h
  have hlist := congrArg String.toList h
  simp only [fileName, String.toList_append, List.append_cancel_right_eq] at hlist
  rw [String.toList_inj.mp hlist]

omit [Monad n] in
/-- So they tell the keys at hand apart if all entries are for the model of the provider. -/
theorem Provider.injOn_keysAtHand {provider : Provider (StateT σ n)} {contents : Contents}
    (h : ∀ key ∈ EntryFormat.json.heldKeys contents, key.model = provider.model) (query : String)
    (sources : List SourceFile) :
    (provider.keysAtHand contents query sources).InjOn CacheKey.fileName := by
  refine (CacheKey.injOn_fileName provider.model).mono ?_
  rintro key (hkey | ⟨text, -, rfl⟩)
  · exact h key hkey
  · rfl

/-! ### What a command leaves -/

section Main

variable {project : Project} {world : World (StateT σ n)} {settings : EmbeddingSettings}
  {provider : Provider (StateT σ n)} {s : σ}

/-- Storage without faults, as far as some keys go: their files do not fail, every entry is in the file
of its key, the clock tells instants, and the numbers of all vectors are read back. -/
structure Faultless (world : World (StateT σ n)) (provider : Provider (StateT σ n))
    (files : σ → Contents) (mayFail : Option String → Prop) (keys : Set CacheKey) (s : σ) : Prop where
  whole : ∀ key ∈ keys, ¬ mayFail (some key.temporaryName) ∧ ¬ mayFail (some key.fileName)
  filed : EntryFormat.json.Filed keys (files s)
  clock : ∀ t, Ensures (world.files.now.run t) fun r =>
    files r.2 = files t ∧ Text.isInstant r.1 = true
  numbers : ∀ request t, Ensures ((provider.embed request).run t) fun r => files r.2 = files t ∧
    ∀ response, r.1 = .ok response → ∀ x ∈ response.embedding, Single.ReadBack x

variable [LawfulMonad n]

/-- The entries that are made have a property if it follows from those of vectors and of instants. -/
theorem quiet_embed {P : CacheEntry Embedding → Prop} {Q : String → Prop} {R : Embedding → Prop}
    (h : ∀ key vector createdAt, Q createdAt → R vector → P ⟨key, vector, createdAt⟩)
    (hnow : ∀ t, Ensures (world.files.now.run t) fun r => files r.2 = files t ∧ Q r.1)
    (hprovider : ∀ request t, Ensures ((provider.embed request).run t) fun r =>
      files r.2 = files t ∧ ∀ response, r.1 = .ok response → R response.embedding)
    (text : String) :
    Quiet files ((project.shelf world.files settings).Stamps files P
      ⟨Fingerprint.ofText text, provider.model⟩)
      (EmbeddingIndex.embed ⟨provider, none⟩ text) := by
  intro s
  unfold EmbeddingIndex.embed
  refine Ensures.run_bind (hprovider { text := text } s) ?_
  rintro reply s' ⟨hsame, hvector⟩
  refine .run_pure ⟨hsame, fun vector hreply t => ?_⟩
  have hmade : R vector := by
    cases reply with
    | pending => cases hreply
    | done result =>
      cases result with
      | error e => cases hreply
      | ok response =>
        cases hreply
        exact hvector response rfl
  exact (hnow t).mono fun _ hstill => ⟨hstill.1, h _ _ _ hstill.2 hmade⟩

/-- The kept vectors of the present texts of the sources under the present model outlast every search
and every embedding of the sources, whichever texts can be embedded and whether or not the run is
cancelled, as long as no two keys share a file name, except for those in files that are named after
other keys. If moreover storage is faultless, so that each entry is in its own file, and all sources
have been embedded in a run that was not cancelled, what is left is one entry for each of their texts
and nothing else. The provider may answer, fail or hang as it likes; that of the settings gives the
commands themselves. A run that could not open the cache has no index. -/
theorem pruning_keeps_live_vectors {config : Config} {monitor : Batch.Monitor (StateT σ n)}
    {cancelled : σ → Prop} {sources : List SourceFile} (query : String) (options : SearchOptions)
    (hhost : project.Hosts world config.embedding files mayFail sources s)
    (hprovider : ∀ request, Spares files (provider.embed request))
    (hmonitor : Batch.Heeds monitor files cancelled)
    (hfits : ∀ key ∈ EntryFormat.json.heldKeys (files s), key.FitsName)
    (hapart : (provider.keysAtHand (files s) query sources).InjOn CacheKey.fileName) :
    let keys := provider.keysAtHand (files s) query sources
    let live := provider.keysOf (sources.map (·.content))
    (world.provider config.embedding = .ok provider →
      (project.search world config query options).run =
          Prod.fst <$> project.searchWith world provider config query options ∧
        (project.embed world monitor config.embedding).run =
          Prod.fst <$> project.embedWith world provider monitor config.embedding) ∧
    ∀ run ∈ [project.searchWith world provider config query options,
        project.embedWith world provider monitor config.embedding],
      (Ensures (run.run s) fun r =>
        EntryFormat.json.Retains mayFail keys live (files s) (files r.2)) ∧
      (Faultless world provider files mayFail keys s →
        Ensures (run.run s) fun r => ∀ index, r.1.2 = some index →
          (∀ source ∈ sources, index.Has source) → r.1.1 ≠ .error (.embedding .cancelled) →
            EntryFormat.json.HoldsExactly (files r.2) live) := by
  intro keys live
  refine ⟨fun hbuilt => ⟨Project.search_eq hbuilt query options, Project.embed_eq hbuilt monitor⟩, ?_⟩
  -- both commands end in the same way, once for any storage and once for one without faults
  have hends : ∀ {faultless : Prop}, (Upkeep.ofProject project world config.embedding provider files
      mayFail query sources (files s) faultless).Runs project world config.embedding query s →
      ∀ run ∈ [project.searchWith world provider config query options,
        project.embedWith world provider monitor config.embedding],
      Ensures (run.run s) fun r => (Upkeep.ofProject project world config.embedding provider files
        mayFail query sources (files s) faultless).Ended r.1 (files r.2) := by
    intro faultless hruns run hrun
    obtain rfl | rfl : run = _ ∨ run = _ := by simpa using hrun
    · exact Upkeep.searchWith_ends hruns options
    · exact Upkeep.embedWith_ends hruns hmonitor
  intro run hrun
  constructor
  · have hruns : (Upkeep.ofProject project world config.embedding provider files mayFail query
        sources (files s) False).Runs project world config.embedding query s := by
      refine Upkeep.runs_ofProject hhost hfits hapart nofun nofun ?_
      refine quiet_embed (Q := fun _ => True) (R := fun _ => True) (fun _ _ _ _ _ => nofun) ?_ ?_
      · exact fun t => (hhost.now t).mono fun _ hsame => ⟨hsame, trivial⟩
      · exact fun request t => (hprovider request t).mono fun _ hsame => ⟨hsame, fun _ _ => trivial⟩
    exact (hends hruns run hrun).mono fun _ hended => hended.kept
  · intro hfaultless
    have hruns : (Upkeep.ofProject project world config.embedding provider files mayFail query
        sources (files s) True).Runs project world config.embedding query s := by
      refine Upkeep.runs_ofProject hhost hfits hapart (fun _ => hfaultless.filed)
        (fun _ => hfaultless.whole) ?_
      refine quiet_embed (Q := fun createdAt => Text.isInstant createdAt = true)
        (R := fun vector => ∀ x ∈ vector, Single.ReadBack x) ?_ hfaultless.clock hfaultless.numbers
      exact fun _ _ _ hinstant hnumbers _ => EntryFormat.json_lossless hinstant hnumbers
    refine (hends hruns run hrun).mono ?_
    intro r hended index hindex hcomplete hcancelled
    exact hended.released index hindex hcomplete hcancelled trivial

end Main

/-! ### Vectors in memory beside a source -/

/-- A folder "v" of vectors in memory, beside a file "/a" that holds "b". -/
def besideVectors : FileSystem (StateM (Table ByteArray)) :=
  let folder := Table.folder "v"
  let name (path : String) := String.ofList (path.toList.drop 2)
  { kind := fun _ => return .error .notFound
    read := fun path =>
      if path = "/a" then return .ok "b".toUTF8 else folder.read (name path)
    write := fun path bytes =>
      if Path.isAbsolute path then return .error .permissionDenied
      else folder.write (name path) bytes
    makeDirectories := fun _ => folder.prepare
    rename := fun source target => folder.rename (name source) (name target)
    remove := fun path => folder.remove (name path)
    list := fun _ => folder.names
    walk := fun _ _ => return [⟨["a"], 1⟩]
    now := return "2024-01-01T00:00:00Z" }

def besideWorld : World (StateM (Table ByteArray)) := ⟨besideVectors, "/", none, none⟩

def besideProject : Project := ⟨"/", {}⟩

def besideConfig : Config := { embedding := { cacheDirectory := some "v" } }

/-- Only the text "b" can be embedded. -/
def besideProvider : Provider (StateM (Table ByteArray)) where
  name := "one text"
  model := "m"
  dimension := 0
  isAvailable := true
  embed request :=
    if request.text = "b" then return .ok ⟨[], "m", 0, none⟩ else return .error (.rateLimited 60)

def neverCancelled : Batch.Monitor (StateM (Table ByteArray)) :=
  ⟨return false, fun _ => return ()⟩

/-- An entry whose text is gone. -/
def goneEntry : CacheEntry Embedding := ⟨⟨"gone", "m"⟩, [], "2024-01-01T00:00:00Z"⟩

def goneFiles : Table ByteArray :=
  (∅ : Table ByteArray).insert goneEntry.key.fileName (EntryFormat.json.encode goneEntry)

theorem isInstant_beside : Text.isInstant "2024-01-01T00:00:00Z" = true := by
  cbv

theorem goneEntry_lossless : EntryFormat.json.Lossless goneEntry :=
  EntryFormat.json_lossless isInstant_beside nofun

theorem eq_of_holds_goneFiles {name : String} {entry : CacheEntry Embedding}
    (h : EntryFormat.json.Holds goneFiles.get? name entry) :
    entry = goneEntry ∧ goneEntry.key.fileName = name := by
  obtain ⟨bytes, hbytes, hdecode⟩ := h
  rw [goneFiles, Table.get?_insert] at hbytes
  split at hbytes
  · cases hbytes
    exact ⟨goneEntry_lossless.safe entry hdecode, ‹_›⟩
  · cases hbytes

theorem serves_beside :
    (besideProject.shelf besideWorld.files besideConfig.embedding).folder.Serves Table.get?
      fun _ => False := by
  have hserves := Table.folder_serves "v"
  have hjoin : ∀ {name : String}, Path.IsPlain name → (Path.join "v" name).toList =
      'v' :: '/' :: name.toList := by
    intro name hplain
    have hrelative : Path.isAbsolute name = false := by
      unfold Path.isAbsolute
      rw [beq_eq_false_iff_ne]
      intro hroot
      exact (Path.isPlain_iff.mp hplain).1 (List.mem_of_head? hroot)
    have hempty : "v".isEmpty = false := by decide
    simp [Path.join, hrelative, hempty]
  have hname : ∀ {name : String}, Path.IsPlain name →
      String.ofList ((Path.join "v" name).toList.drop 2) = name := by
    intro name hplain
    rw [hjoin hplain]
    exact String.ofList_toList
  have hread : ∀ {name : String}, Path.IsPlain name →
      (besideProject.shelf besideWorld.files besideConfig.embedding).folder.read name =
        (Table.folder "v").read name := by
    intro name hplain
    have hother : Path.join "v" name ≠ "/a" := fun heq => by
      have hchars := hjoin hplain
      simp [heq] at hchars
    exact (if_neg hother).trans (congrArg (Table.folder "v").read (hname hplain))
  have hwrite : ∀ {name : String} (bytes : ByteArray), Path.IsPlain name →
      (besideProject.shelf besideWorld.files besideConfig.embedding).folder.write name bytes =
        (Table.folder "v").write name bytes := by
    intro name bytes hplain
    have hrelative : ¬ Path.isAbsolute (Path.join "v" name) = true := by
      simp [Path.isAbsolute, hjoin hplain]
    exact (if_neg hrelative).trans
      (congrArg (fun name => (Table.folder "v").write name bytes) (hname hplain))
  refine ⟨hserves.prepare, hserves.names, fun s name hplain => ?_, fun s name bytes hplain => ?_,
    fun s source target bytes hsource htarget => ?_, fun s name hplain => ?_⟩
  · rw [hread hplain]
    exact hserves.read s name hplain
  · rw [hwrite bytes hplain]
    exact hserves.write s name bytes hplain
  · have hrename : (besideProject.shelf besideWorld.files besideConfig.embedding).folder.rename
        source target = (Table.folder "v").rename source target :=
      congrArg₂ (Table.folder "v").rename (hname hsource) (hname htarget)
    rw [hrename]
    exact hserves.rename s source target bytes hsource htarget
  · have hremove : (besideProject.shelf besideWorld.files besideConfig.embedding).folder.remove
        name = (Table.folder "v").remove name :=
      congrArg (Table.folder "v").remove (hname hplain)
    rw [hremove]
    exact hserves.remove s name hplain

theorem sources_beside : besideProject.sources besideWorld.files besideConfig.embedding =
    pure [⟨"a", "b"⟩] := by
  have hfound : (([⟨["a"], 1⟩] : List FoundFile).filter besideProject.isSource).map
      (fun file => "/".intercalate file.names) = ["a"] := by decide +kernel
  have hcached : ["a"].filter (!besideProject.isCached besideConfig.embedding ·) = ["a"] := by
    decide +kernel
  have hread : besideWorld.files.readText (besideProject.place "a") = pure (.ok "b") := rfl
  have hscan : besideProject.scan besideWorld.files = pure ["a"] := by
    unfold Project.scan
    show (pure [(⟨["a"], 1⟩ : FoundFile)] >>= _) = _
    rw [pure_bind, hfound]
    exact congrArg pure (List.mergeSort_singleton ..)
  unfold Project.sources
  rw [hscan, pure_bind, hcached]
  unfold Project.readSources
  rw [hread]
  rfl

theorem hosts_beside (files : Table ByteArray) :
    besideProject.Hosts besideWorld besideConfig.embedding Table.get? (fun _ => False) [⟨"a", "b"⟩]
      files where
  serves := serves_beside
  now := fun _ => .run_pure rfl
  reads := by
    rw [sources_beside]
    exact .run_pure ⟨rfl, rfl⟩
  distinct := List.nodup_singleton _
  load := fun files =>
    Ensures.pure (a := (besideProject.load besideWorld.files).run.run files) rfl
  save := by
    intro repo files
    have habsolute : Path.isAbsolute (WorkingCopy.temporary besideProject.workingCopy) = true := by
      decide +kernel
    have hwrite : ∀ text, besideWorld.files.writeText
        (WorkingCopy.temporary besideProject.workingCopy) text =
          pure (.error .permissionDenied) := by
      simp [FileSystem.writeText, besideWorld, besideVectors, habsolute]
    have hsave : WorkingCopy.save besideWorld.files besideProject.workingCopy repo =
        throw (.storage .permissionDenied) := by
      unfold WorkingCopy.save WorkingCopy.writeText
      rw [WorkingCopy.stored, hwrite]
      rfl
    unfold Project.save
    rw [hsave]
    exact .run_pure rfl

theorem faultless_beside : Faultless besideWorld besideProvider Table.get? (fun _ => False)
    (besideProvider.keysAtHand goneFiles.get? "q" [⟨"a", "b"⟩]) goneFiles where
  whole := fun _ _ => ⟨id, id⟩
  filed := by
    intro name entry hname h
    refine ⟨.inl (EntryFormat.mem_heldKeys hname h), ?_⟩
    obtain ⟨rfl, hfile⟩ := eq_of_holds_goneFiles h
    exact hfile
  clock := fun _ => .run_pure ⟨rfl, isInstant_beside⟩
  numbers := by
    intro request t
    unfold besideProvider
    dsimp only
    split
    · refine .run_pure ⟨rfl, ?_⟩
      rintro _ ⟨⟩
      nofun
    · exact .run_pure ⟨rfl, nofun⟩

/-- A file in the folder that holds an entry. -/
structure HeldBeside (files : Table ByteArray) (name : String) (entry : CacheEntry Embedding) :
    Prop where
  extension : (Path.extension? name == some "json") = true
  read : ((besideProject.shelf besideWorld.files besideConfig.embedding).folder.read name).run files =
    pure (.ok (EntryFormat.json.encode entry), files)
  lossless : EntryFormat.json.Lossless entry

theorem load_beside {files : Table ByteArray} {names : List String}
    {entries : List (CacheEntry Embedding)} (h : List.Forall₂ (HeldBeside files) names entries)
    (cache : Cache Embedding) :
    (Cache.load (besideProject.shelf besideWorld.files besideConfig.embedding) names cache).run
        files =
      pure (entries.foldl (fun cache entry => cache.place entry.key (some entry)) cache, files) := by
  induction h generalizing cache with
  | nil => rfl
  | @cons name entry names entries hheld _ ih =>
    have hdecode : (besideProject.shelf besideWorld.files besideConfig.embedding).format.decode?
        (EntryFormat.json.encode entry) = some entry := hheld.lossless
    unfold Cache.load
    rw [if_pos hheld.extension, StateT.run_bind, hheld.read, pure_bind]
    dsimp only
    rw [hdecode]
    exact ih _

theorem openWith_beside {files : Table ByteArray} {names : List String}
    {entries : List (CacheEntry Embedding)}
    (hlisted : (files.keys.filter fun name => decide (Path.IsPlain name)) = names)
    (h : List.Forall₂ (HeldBeside files) names entries) :
    (besideProject.openWith besideWorld besideConfig.embedding besideProvider).run.run files =
      pure (.ok (⟨besideProvider,
        some (besideProject.shelf besideWorld.files besideConfig.embedding)⟩,
        .ofCache (Cache.ofEntries entries)), files) := by
  have hload := load_beside h ∅
  generalize hshelf : besideProject.shelf besideWorld.files besideConfig.embedding = shelf at hload ⊢
  have hnames : shelf.folder.names.run files = pure (.ok names, files) := by
    rw [← hshelf, ← hlisted]
    rfl
  have hprepare : shelf.folder.prepare.run files = pure (.ok (), files) := by
    rw [← hshelf]
    rfl
  have hreopen : (Cache.reopen shelf).run files = pure (.ok (Cache.ofEntries entries), files) := by
    unfold Cache.reopen
    rw [StateT.run_bind, hprepare, pure_bind]
    dsimp only
    rw [StateT.run_bind, hnames, pure_bind]
    dsimp only
    rw [StateT.run_bind, show Cache.empty = (∅ : Cache Embedding) from rfl, hload]
    rfl
  unfold Project.openWith Task.ofAction
  dsimp only
  rw [ExceptT.run_bind, StateT.run_bind, ExceptT.run_mk, StateT.run_bind, hshelf, hreopen]
  rfl

/-- The source is embedded. -/
theorem embedWith_beside :
    let r := (besideProject.embedWith besideWorld besideProvider neverCancelled
      besideConfig.embedding).run goneFiles
    r.1.1.toOption.isSome = true ∧
      (r.1.2.bind fun index => (index.entries.get? "a").map (·.fingerprint)) =
        some (Fingerprint.ofText "b") := by
  have hheld : List.Forall₂ (HeldBeside goneFiles) ["gone-m.json"] [goneEntry] :=
    .cons ⟨by decide +kernel, rfl, goneEntry_lossless⟩ .nil
  have hopened := openWith_beside (by decide +kernel) hheld
  unfold Project.embedWith
  rw [sources_beside, pure_bind, StateT.run_bind, hopened, pure_bind]
  dsimp only
  decide +kernel

theorem pruning_keeps_live_vectors_beside :
    let keys := besideProvider.keysAtHand goneFiles.get? "q" [⟨"a", "b"⟩]
    let live := besideProvider.keysOf ["b"]
    let search := (besideProject.searchWith besideWorld besideProvider besideConfig "q" {}).run
      goneFiles
    let embed := (besideProject.embedWith besideWorld besideProvider neverCancelled
      besideConfig.embedding).run goneFiles
    EntryFormat.json.Retains (fun _ => False) keys live goneFiles.get? search.2.get? ∧
      EntryFormat.json.Retains (fun _ => False) keys live goneFiles.get? embed.2.get? ∧
      EntryFormat.json.HoldsExactly embed.2.get? live := by
  intro keys live search embed
  have hheld : ∀ key ∈ EntryFormat.json.heldKeys goneFiles.get?, key = goneEntry.key := by
    rintro _ ⟨name, entry, -, h, rfl⟩
    rw [(eq_of_holds_goneFiles h).1]
  have hprovider : ∀ request, Spares Table.get? (besideProvider.embed request) :=
    fun request t => (faultless_beside.numbers request t).mono fun _ h => h.1
  have hmonitor : Batch.Heeds neverCancelled Table.get? fun _ => False :=
    ⟨fun _ => .run_pure ⟨rfl, nofun, nofun⟩, fun _ _ => .run_pure rfl⟩
  have hfits : ∀ key ∈ EntryFormat.json.heldKeys goneFiles.get?, key.FitsName := by
    intro key hkey
    rw [hheld key hkey]
    decide
  have hapart : keys.InjOn CacheKey.fileName :=
    Provider.injOn_keysAtHand (fun key hkey => congrArg CacheKey.model (hheld key hkey)) _ _
  obtain ⟨-, hmain⟩ := pruning_keeps_live_vectors "q" {} (hosts_beside goneFiles) hprovider
    hmonitor hfits hapart
  refine ⟨(hmain _ List.mem_cons_self).1.of_id, ?_, ?_⟩
  · exact (hmain _ (List.mem_cons_of_mem _ List.mem_cons_self)).1.of_id
  · have hexact := ((hmain _ (List.mem_cons_of_mem _ List.mem_cons_self)).2 faultless_beside).of_id
    obtain ⟨hok, hindexed⟩ := embedWith_beside
    obtain ⟨index, hindex, hentry⟩ := Option.bind_eq_some_iff.mp hindexed
    obtain ⟨entry, hentry, hfingerprint⟩ := Option.map_eq_some_iff.mp hentry
    refine hexact index hindex ?_ ?_
    · exact List.forall_mem_singleton.mpr ⟨entry, hentry, hfingerprint⟩
    · intro hcancelled
      have hfailed := hok.symm.trans (congrArg (·.toOption.isSome) hcancelled)
      cases hfailed

/-! ### Entries in files of other keys -/

/-- An entry whose text is that of the source. -/
def liveEntry : CacheEntry Embedding :=
  ⟨⟨Fingerprint.ofText "b", "m"⟩, [], "2024-01-01T00:00:00Z"⟩

/-- A folder in which the live entry is in the file of the one whose text is gone, and that one in a
file that is named after no key. -/
def strayFiles : Table ByteArray :=
  ((∅ : Table ByteArray).insert goneEntry.key.fileName (EntryFormat.json.encode liveEntry)).insert
    "copy.json" (EntryFormat.json.encode goneEntry)

/-- What comes of embedding the source. -/
def strayRun : (Except Failure String × Option EmbeddingIndex) × Table ByteArray :=
  (besideProject.embedWith besideWorld besideProvider neverCancelled besideConfig.embedding).run
    strayFiles

theorem liveEntry_lossless : EntryFormat.json.Lossless liveEntry :=
  EntryFormat.json_lossless isInstant_beside nofun

theorem strayFiles_get? (name : String) : strayFiles.get? name =
    if "copy.json" = name then some (EntryFormat.json.encode goneEntry)
    else if "gone-m.json" = name then some (EntryFormat.json.encode liveEntry) else none := by
  have hfile : goneEntry.key.fileName = "gone-m.json" := by decide +kernel
  rw [strayFiles, Table.get?_insert, Table.get?_insert, hfile]
  rfl

theorem holds_strayFiles_iff {name : String} {entry : CacheEntry Embedding} :
    EntryFormat.json.Holds strayFiles.get? name entry ↔
      name = "copy.json" ∧ entry = goneEntry ∨ name = "gone-m.json" ∧ entry = liveEntry := by
  unfold EntryFormat.Holds
  rw [strayFiles_get?]
  constructor
  · rintro ⟨bytes, hbytes, hdecode⟩
    split_ifs at hbytes with hcopy hgone
    · cases hbytes
      exact .inl ⟨hcopy.symm, goneEntry_lossless.safe entry hdecode⟩
    · cases hbytes
      exact .inr ⟨hgone.symm, liveEntry_lossless.safe entry hdecode⟩
  · rintro (⟨rfl, rfl⟩ | ⟨rfl, rfl⟩)
    · exact ⟨_, rfl, goneEntry_lossless⟩
    · exact ⟨_, rfl, liveEntry_lossless⟩

/-- The run removes the file that is named after the key of the entry whose text is gone. -/
theorem strayRun_left : strayRun.1.1.toOption.isSome = true ∧
    strayRun.2 = strayFiles.erase "gone-m.json" := by
  have hheld : List.Forall₂ (HeldBeside strayFiles) ["copy.json", "gone-m.json"]
      [goneEntry, liveEntry] :=
    .cons ⟨by decide +kernel, rfl, goneEntry_lossless⟩
      (.cons ⟨by decide +kernel, rfl, liveEntry_lossless⟩ .nil)
  have hopened := openWith_beside (by decide +kernel) hheld
  unfold strayRun Project.embedWith
  rw [sources_beside, pure_bind, StateT.run_bind, hopened, pure_bind]
  dsimp only
  decide +kernel

/-- Which file is removed with an entry is told from its key, not from the file that it was read from.
So the live entry is lost, although no two keys share a file name, and the other one outlasts the run
in its copy. -/
theorem stray_entries_mislead_pruning :
    let live := besideProvider.keysOf ["b"]
    (besideProvider.keysAtHand strayFiles.get? "q" [⟨"a", "b"⟩]).InjOn CacheKey.fileName ∧
    EntryFormat.json.Holds strayFiles.get? "gone-m.json" liveEntry ∧ liveEntry.key ∈ live ∧
    strayRun.1.1.toOption.isSome = true ∧
    (∀ name entry, EntryFormat.json.Holds strayRun.2.get? name entry → entry.key ∉ live) ∧
    EntryFormat.json.Holds strayRun.2.get? "copy.json" goneEntry := by
  intro live
  have hgone : goneEntry.key ∉ live := by
    rintro ⟨text, htext, hkey⟩
    obtain rfl := List.mem_singleton.mp htext
    have hne : Fingerprint.ofText "b" ≠ "gone" := by decide +kernel
    exact hne (congrArg CacheKey.fingerprint hkey)
  obtain ⟨hok, hleft⟩ := strayRun_left
  have hget : ∀ name, strayRun.2.get? name =
      if "gone-m.json" = name then none else strayFiles.get? name := by
    intro name
    rw [hleft, Table.get?_erase]
  refine ⟨?_, holds_strayFiles_iff.mpr (.inr ⟨rfl, rfl⟩), ⟨"b", List.mem_cons_self, rfl⟩, hok, ?_, ?_⟩
  · refine Provider.injOn_keysAtHand ?_ _ _
    rintro key ⟨name, entry, -, hheld, rfl⟩
    obtain ⟨-, rfl⟩ | ⟨-, rfl⟩ := holds_strayFiles_iff.mp hheld
    · rfl
    · rfl
  · rintro name entry ⟨bytes, hbytes, hdecode⟩
    rw [hget] at hbytes
    split at hbytes
    · cases hbytes
    · obtain ⟨-, rfl⟩ | ⟨rfl, -⟩ := holds_strayFiles_iff.mp ⟨bytes, hbytes, hdecode⟩
      · exact hgone
      · contradiction
  · obtain ⟨bytes, hbytes, hdecode⟩ := holds_strayFiles_iff.mpr (.inl ⟨rfl, rfl⟩)
    refine ⟨bytes, ?_, hdecode⟩
    rw [hget, if_neg (by decide), hbytes]

end ContextSets
