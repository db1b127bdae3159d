import ContextSets.Command.Search
import ContextSets.Proofs.SearchSpares
import ContextSets.Proofs.SourcePlaces
import ContextSets.Proofs.StoredText

/-!
# The files of a search

On a tree a search leaves the working copy alone as long as no name under which it writes or removes a
vector leads there. That is so in particular if all kept entries have names of their own in the
directory for vectors and the working copy is not one of the files in that directory.
-/

namespace ContextSets

theorem Digest.slash_not_mem_sha256Hex (text : String) : '/' ∉ (sha256Hex text).toList := by
  have hdigit : ∀ n < 16, '/' ≠ Nat.digitChar n := by decide
  intro h
  obtain ⟨n, hn, heq⟩ := exists_digit_of_mem_sha256Hex h
  exact hdigit n hn heq

/-- The fingerprint of a text can be part of the name of a file. -/
theorem CacheKey.fitsName_ofText (text model : String) :
    FitsName ⟨Fingerprint.ofText text, model⟩ :=
  Digest.slash_not_mem_sha256Hex text

namespace Project

variable {tree : Tree} {current now : String}

/-- The names which lead from the directory for vectors to another file than the working copy. -/
def otherNames (project : Project) (settings : EmbeddingSettings) (current : String) : Set String :=
  {name | Tree.placeOf current (Path.join (project.cacheDirectory settings) name) ≠
    Tree.placeOf current project.workingCopy}

/-- What a tree holds at the working copy. -/
def stored? (project : Project) (current : String) (tree : Tree) : Option ByteArray :=
  tree.fileAt? (Tree.placeOf current project.workingCopy)

theorem change_spares {γ : Type} {view : Tree → γ} {run : Tree → Except FileFault Tree}
    (h : ∀ tree later, run tree = .ok later → view later = view tree) :
    Spares view (Tree.change run) := by
  intro tree
  rw [Tree.run_change]
  cases hrun : run tree with
  | ok later => exact .pure (h tree later hrun)
  | error fault => exact .pure rfl

theorem shelf_spares (project : Project) (settings : EmbeddingSettings) (current now : String) :
    (project.shelf (Tree.fileSystem current now) settings).Spares (project.stored? current)
      (project.otherNames settings current) where
  write name hname bytes := by
    refine change_spares fun tree later hwrite => ?_
    unfold stored? Tree.fileAt?
    rw [Tree.write_eq hwrite, Function.update_of_ne (Ne.symm hname)]
  rename source hsource target htarget := by
    refine change_spares fun tree later hrename => ?_
    obtain ⟨bytes, -, hlater⟩ := Tree.rename_eq hrename
    unfold stored? Tree.fileAt?
    rw [hlater, Function.update_of_ne (Ne.symm htarget), Function.update_of_ne (Ne.symm hsource)]
  remove name hname := by
    refine change_spares fun tree later hremove => ?_
    obtain ⟨-, -, hlater⟩ := Tree.remove_eq hremove
    unfold stored? Tree.fileAt?
    rw [hlater, Function.update_of_ne (Ne.symm hname)]
  now := spares_pure _

/-- The provider of the settings computes its answers, or has them from the client. -/
theorem provider_spares {γ : Type} {view : Tree → γ} {world : World (StateM Tree)}
    (hclient : ∀ message, Spares view (world.client.send message)) {settings : EmbeddingSettings}
    {provider : Provider (StateM Tree)} (h : world.provider settings = .ok provider)
    (request : EmbeddingRequest) : Spares view (provider.embed request) := by
  unfold World.provider EmbeddingSettings.buildProvider at h
  split at h
  · cases h
    exact spares_pure _
  · dsimp only at h
    split at h
    · cases h
      unfold RemoteService.provider
      dsimp only
      split
      · exact spares_pure _
      · refine (hclient _).bind fun answer => ?_
        split
        all_goals exact spares_pure _
    · cases h

/-! ### Opening the cache -/

/-- What the directory for vectors holds. -/
def kept (project : Project) (settings : EmbeddingSettings) (current : String) (tree : Tree) :
    Contents :=
  fun name => tree.fileAt? (Tree.placeOf current (Path.join (project.cacheDirectory settings) name))

/-- The entry that is read under a name in the directory for vectors, if there is one. -/
def entryAt? (project : Project) (settings : EmbeddingSettings) (current : String) (tree : Tree)
    (name : String) : Option (CacheEntry Embedding) :=
  if Path.extension? name == some "json" then
    match tree.openFile current (Path.join (project.cacheDirectory settings) name) with
    | .ok (_, bytes) => EntryFormat.json.decode? bytes
    | .error _ => none
  else none

theorem run_readKept (project : Project) (settings : EmbeddingSettings) (current now : String)
    (tree : Tree) (name : String) :
    ((project.shelf (Tree.fileSystem current now) settings).folder.read name).run tree =
      pure ((tree.openFile current (Path.join (project.cacheDirectory settings) name)).map Prod.snd,
        tree) :=
  rfl

theorem run_load_cons (project : Project) (settings : EmbeddingSettings) (current now : String)
    (tree : Tree) (name : String) (rest : List String) (cache : Cache Embedding) :
    let shelf := project.shelf (Tree.fileSystem current now) settings
    (Cache.load shelf (name :: rest) cache).run tree =
      (Cache.load shelf rest (((project.entryAt? settings current tree name).map fun entry =>
        cache.place entry.key (some entry)).getD cache)).run tree := by
  intro shelf
  nth_rewrite 1 [Cache.load]
  unfold entryAt?
  split
  · rw [StateT.run_bind, run_readKept, pure_bind]
    cases tree.openFile current (Path.join (project.cacheDirectory settings) name) with
    | error fault => rfl
    | ok found =>
      obtain ⟨place, bytes⟩ := found
      cases hdecode : EntryFormat.json.decode? bytes with
      | none =>
        have hformat : shelf.format.decode? bytes = none := hdecode
        simp only [Except.map, hformat, hdecode]
        rfl
      | some entry =>
        have hformat : shelf.format.decode? bytes = some entry := hdecode
        simp only [Except.map, hformat, hdecode]
        rfl
  · rfl

theorem run_load (project : Project) (settings : EmbeddingSettings) (current now : String)
    (tree : Tree) (names : List String) (entries : List (CacheEntry Embedding)) :
    (Cache.load (project.shelf (Tree.fileSystem current now) settings) names
        (Cache.ofEntries entries)).run tree =
      (Cache.ofEntries (entries ++ names.filterMap (project.entryAt? settings current tree)),
        tree) := by
  induction names generalizing entries with
  | nil =>
    rw [List.filterMap_nil, List.append_nil]
    rfl
  | cons name rest ih =>
    rw [run_load_cons, List.filterMap_cons]
    cases project.entryAt? settings current tree name with
    | none => exact ih entries
    | some entry =>
      rw [Option.map_some, Option.getD_some, ← Cache.ofEntries_concat, ih, List.append_assoc,
        List.singleton_append]

/-- Opening the cache makes the directory, lists it, and takes in the entries that are found there. -/
theorem run_reopen (project : Project) (settings : EmbeddingSettings) (current now : String)
    (tree : Tree) :
    (Cache.reopen (project.shelf (Tree.fileSystem current now) settings)).run tree =
      match tree.makeDirectories current (project.cacheDirectory settings) with
      | (made, .error fault) =>
        pure (.error (.unusableCache (project.cacheDirectory settings) fault), made)
      | (made, .ok ()) =>
        match made.list current (project.cacheDirectory settings) with
        | .error fault => pure (.error (.storage fault), made)
        | .ok names =>
          pure (.ok (Cache.ofEntries (names.filterMap (project.entryAt? settings current made))),
            made) := by
  unfold Cache.reopen
  have hprepare : ((project.shelf (Tree.fileSystem current now) settings).folder.prepare).run tree =
      pure ((tree.makeDirectories current (project.cacheDirectory settings)).2,
        (tree.makeDirectories current (project.cacheDirectory settings)).1) := rfl
  rw [StateT.run_bind, hprepare, pure_bind]
  obtain ⟨made, result⟩ := tree.makeDirectories current (project.cacheDirectory settings)
  cases result with
  | error fault => rfl
  | ok =>
    have hnames : ((project.shelf (Tree.fileSystem current now) settings).folder.names).run made =
        pure (made.list current (project.cacheDirectory settings), made) := rfl
    dsimp only
    rw [StateT.run_bind, hnames, pure_bind]
    cases made.list current (project.cacheDirectory settings) with
    | error fault => rfl
    | ok names =>
      dsimp only
      rw [StateT.run_bind]
      have hload := project.run_load settings current now made names []
      rw [List.nil_append] at hload
      exact congrArg (· >>= _) hload

theorem exists_mem_namesOf_of_mem_list {path name : String} {names : List String}
    (hlist : tree.list current path = .ok names) (hname : name ∈ names) :
    ∃ place, name ∈ Tree.namesOf place := by
  obtain ⟨_, -, hlist⟩ := except_bind_ok.mp hlist
  obtain ⟨-, -, hlist⟩ := except_bind_ok.mp hlist
  cases hlist
  obtain ⟨key, -, hkey⟩ := List.mem_filterMap.mp hname
  exact ⟨key, List.mem_of_getLast? hkey⟩

/-- An entry that is taken in is held by a file of the directory. -/
theorem holds_of_entryAt? {settings : EmbeddingSettings} {project : Project} {name : String}
    {entry : CacheEntry Embedding} (hslash : '/' ∉ name.toList ∧ name.toList ≠ [])
    (h : project.entryAt? settings current tree name = some entry) :
    IsEntryFile name ∧ EntryFormat.json.Holds (project.kept settings current tree) name entry := by
  unfold entryAt? at h
  split at h
  · rename_i hextension
    have hjson := eq_of_beq hextension
    constructor
    · -- a dot alone, or two, would not have the extension
      refine ⟨Path.isPlain_of_no_slash hslash.1 hslash.2 ?_ ?_, hjson⟩
      · intro hhere
        rw [← String.ofList_toList (s := name), hhere] at hjson
        exact absurd hjson (by decide)
      · intro hup
        rw [← String.ofList_toList (s := name), hup] at hjson
        exact absurd hjson (by decide)
    · split at h
      · rename_i place bytes hopen
        obtain ⟨rfl, hitem⟩ := Tree.openFile_eq hopen
        exact ⟨bytes, Tree.fileAt?_eq_some_iff.mpr hitem, h⟩
      · cases h
  · cases h

/-! ### Searches that keep apart -/

/-- A search has other files for its vectors than the working copy: those for the vectors of the query
and of the sources, and those that it may remove because the directory holds an entry for them. -/
structure KeepsApart (project : Project) (settings : EmbeddingSettings) (model query : String)
    (current now : String) (tree : Tree) : Prop where
  query : CacheKey.WrittenAs ⟨Fingerprint.ofText query, model⟩ (project.otherNames settings current)
  sources : ∀ source ∈
      ((project.sources (Tree.fileSystem current now) settings).run tree).1,
    CacheKey.WrittenAs ⟨Fingerprint.ofText source.content, model⟩
      (project.otherNames settings current)
  kept : ∀ name entry, IsEntryFile name →
    EntryFormat.json.Holds (project.kept settings current tree) name entry →
      entry.key.fileName ∈ project.otherNames settings current

variable {project : Project} {settings : EmbeddingSettings} {model query : String}

theorem reopen_ensures (h : ∀ name entry, IsEntryFile name →
      EntryFormat.json.Holds (project.kept settings current tree) name entry →
        entry.key.fileName ∈ project.otherNames settings current) :
    Ensures ((Cache.reopen (project.shelf (Tree.fileSystem current now) settings)).run tree)
      fun r => project.stored? current r.2 = project.stored? current tree ∧
        ∀ cache, r.1 = .ok cache → cache.Filed (project.otherNames settings current) := by
  have hfiles : ∀ place, (tree.makeDirectories current (project.cacheDirectory settings)).1.fileAt?
      place = tree.fileAt? place := tree.fileAt?_makeDirectories current _
  rw [run_reopen]
  generalize tree.makeDirectories current (project.cacheDirectory settings) = prepared at hfiles ⊢
  obtain ⟨made, result⟩ := prepared
  cases result with
  | error fault => exact .pure ⟨hfiles _, nofun⟩
  | ok =>
    dsimp only
    cases hlist : made.list current (project.cacheDirectory settings) with
    | error fault => exact .pure ⟨hfiles _, nofun⟩
    | ok names =>
      refine .pure ⟨hfiles _, ?_⟩
      rintro _ ⟨⟩
      refine Cache.within_ofEntries fun entry hentry => ?_
      obtain ⟨name, hname, hread⟩ := List.mem_filterMap.mp hentry
      obtain ⟨place, hplace⟩ := exists_mem_namesOf_of_mem_list hlist hname
      obtain ⟨hfile, hholds⟩ :=
        holds_of_entryAt? (Tree.slash_not_mem_of_mem_namesOf hplace) hread
      have hkept : project.kept settings current made = project.kept settings current tree :=
        funext fun _ => hfiles _
      exact h name entry hfile (hkept ▸ hholds)

theorem plain_mem_otherNames {name : String} (hname : Path.IsPlain name)
    (helsewhere : (Tree.namesOf (Tree.placeOf current project.workingCopy)).dropLast ≠
      Tree.namesOf (Tree.placeOf current (project.cacheDirectory settings))) :
    name ∈ project.otherNames settings current := by
  intro hplace
  rw [Tree.placeOf_join _ _ hname] at hplace
  rw [← hplace, Tree.namesOf_child _ hname, List.dropLast_concat] at helsewhere
  exact helsewhere rfl

/-- A search keeps apart if the working copy does not lie in the directory for vectors and the kept
entries have names of their own there. -/
theorem keepsApart_of_elsewhere
    (helsewhere : (Tree.namesOf (Tree.placeOf current project.workingCopy)).dropLast ≠
      Tree.namesOf (Tree.placeOf current (project.cacheDirectory settings)))
    (hkept : ∀ name entry, IsEntryFile name →
      EntryFormat.json.Holds (project.kept settings current tree) name entry →
        entry.key.FitsName) :
    project.KeepsApart settings model query current now tree := by
  have hwritten : ∀ text, CacheKey.WrittenAs ⟨Fingerprint.ofText text, model⟩
      (project.otherNames settings current) := fun text =>
    ⟨plain_mem_otherNames (CacheKey.fitsName_ofText text model).isPlain_fileName helsewhere,
      plain_mem_otherNames (CacheKey.fitsName_ofText text model).isPlain_temporaryName helsewhere⟩
  exact ⟨hwritten query, fun source _ => hwritten source.content, fun name entry hname hentry =>
    plain_mem_otherNames (hkept name entry hname hentry).isPlain_fileName helsewhere⟩

theorem kept_eq_none {name : String} (hname : Path.IsPlain name)
    (h : ∀ place ∈ tree.items.keys,
      ¬ Tree.Holds (Tree.placeOf current (project.cacheDirectory settings)) place) :
    project.kept settings current tree name = none := by
  unfold kept
  rw [Tree.placeOf_join _ _ hname, Option.eq_none_iff_forall_ne_some]
  intro bytes hbytes
  have hitem := Tree.fileAt?_eq_some_iff.mp hbytes
  unfold Tree.item? at hitem
  split at hitem
  · cases hitem
  · have hkey := Table.mem_keys.mpr (Table.contains_iff.mpr ⟨_, hitem⟩)
    exact h _ hkey (Tree.holds_child _ hname)

section Ranked

variable {world : World (StateM Tree)} (hfiles : world.files = Tree.fileSystem current now)
  (hclient : ∀ message, Spares (project.stored? current) (world.client.send message))
  (hapart : ∀ provider : Provider (StateM Tree), world.provider settings = .ok provider →
    project.KeepsApart settings provider.model query current now tree)

include hfiles hclient hapart

/-- Opening the index leaves the working copy alone, and there are slots for kept entries only. -/
theorem openIndex_ensures :
    Ensures ((project.openIndex world settings).run.run tree) fun r =>
      project.stored? current r.2 = project.stored? current tree ∧
      ∀ embedder index, r.1 = .ok (embedder, index) →
        world.provider settings = .ok embedder.provider ∧
        embedder.Spares (project.stored? current) (project.otherNames settings current) ∧
        index.Filed (project.otherNames settings current) := by
  unfold openIndex
  refine Ensures.except_mk_bind (fun provider hbuilt => ?_) fun failure _ => ⟨rfl, nofun⟩
  have hprovider := WorkingCopy.mapError_eq_ok_iff.mp hbuilt
  refine Ensures.except_bind (P := fun r =>
    project.stored? current r.2 = project.stored? current tree ∧
      ∀ cache, r.1 = .ok cache → cache.Filed (project.otherNames settings current)) ?_ ?_ ?_
  · rw [hfiles]
    refine Ensures.except_mapError ((reopen_ensures (hapart provider hprovider).kept).mono ?_)
    rintro ⟨result, later⟩ ⟨hsame, hfiled⟩
    exact ⟨hsame, fun cache hcache => hfiled cache (WorkingCopy.mapError_eq_ok_iff.mp hcache)⟩
  · rintro cache later ⟨hsame, hfiled⟩
    refine Ensures.except_pure ⟨hsame, ?_⟩
    rintro _ _ ⟨⟩
    refine ⟨hprovider, ⟨provider_spares hclient hprovider, ?_⟩, hfiled cache rfl⟩
    rintro _ ⟨⟩
    rw [hfiles]
    exact project.shelf_spares settings current now
  · exact fun failure later h => ⟨h.1, nofun⟩

/-- Ranking leaves the working copy alone. -/
theorem ranked_ensures {config : Config} (hsettings : config.embedding = settings)
    (limit : Option Nat) :
    Ensures ((project.ranked world config query limit).run.run tree) fun r =>
      project.stored? current r.2 = project.stored? current tree := by
  obtain ⟨sources, hsources, -⟩ := project.mem_sources tree current now settings
  unfold ranked
  rw [hsettings]
  refine Ensures.except_bind (P := fun r => r = (.ok sources, tree)) ?_ ?_ nofun
  · refine Ensures.except_lift ?_
    rw [hfiles, hsources]
    exact .pure rfl
  rintro _ _ ⟨⟩
  refine Ensures.except_bind (openIndex_ensures hfiles hclient hapart) ?_ fun _ _ h => h.1
  rintro ⟨embedder, index⟩ opened ⟨hopened, hembedder⟩
  obtain ⟨hprovider, hspares, hfiled⟩ := hembedder embedder index rfl
  have hapart := hapart _ hprovider
  dsimp only
  split
  · exact .pure hopened
  refine Ensures.except_bind (P := fun r =>
    project.stored? current r.2 = project.stored? current tree ∧
      ∀ outcome ranked, r.1 = .ok (outcome, ranked) →
        ranked.Filed (project.otherNames settings current)) ?_ ?_ fun _ _ h => h.1
  · have hranked := Ranker.rank_keeps hspares
      { config.ranker with maxResults := limit.getD config.ranker.maxResults } false hapart.query
      (fun source (hsource : source ∈ sources) => hapart.sources source (by rwa [hsources])) hfiled
    refine Ensures.except_lift ((hranked opened).mono ?_)
    rintro ⟨⟨outcome, ranked⟩, later⟩ ⟨hranked, hsame⟩
    refine ⟨hsame.trans hopened, ?_⟩
    rintro _ _ ⟨⟩
    exact hranked
  rintro ⟨outcome, ranked⟩ searched ⟨hsearched, hranked⟩
  have hpruned := EmbeddingIndex.pruneCache_keeps_filed hspares (hranked outcome ranked rfl)
  dsimp only
  refine Ensures.except_mk_bind (fun results _ => ?_) fun _ _ => hsearched
  split
  · refine Ensures.except_bind
      (P := fun r => project.stored? current r.2 = project.stored? current tree) ?_
      (fun _ _ hlater => Ensures.except_pure hlater) fun _ _ h => h
    exact Ensures.except_lift (Ensures.run_bind (hpruned searched) fun _ _ h =>
      .run_pure (h.2.trans hsearched))
  · exact Ensures.except_pure hsearched

end Ranked

end Project

end ContextSets
