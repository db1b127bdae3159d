import ContextSets.Proofs.Import

/-!
# Documents that are accepted

A document is accepted exactly if its paths and names are in order, all that it mentions is there and
its uses have no cycle. In which order its parts are taken in makes no difference, neither for this
nor for the repository that comes out.
-/

namespace ContextSets

open Relation

namespace Document

/-- A name uses another in some set of a document, both bare. -/
def Uses (document : Document) (source target : String) : Prop :=
  ∃ name set, document.sets.get? name = some set ∧ SetName.bare name = source ∧
    ∃ used ∈ set.uses, SetName.bare used = target

/-- What a document has to be like: no two files of one path, valid names of which no two are the
same without prefixes, all files and sets that are mentioned, and no set that uses itself, also not
by way of others. -/
structure Acceptable (document : Document) : Prop where
  paths_distinct : ∀ id entry other entry', document.files.get? id = some entry →
    document.files.get? other = some entry' →
    Manifest.normalize entry.path = Manifest.normalize entry'.path → id = other
  names_valid : ∀ name set, document.sets.get? name = some set →
    SetName.fault? (SetName.bare name) = none
  names_distinct : ∀ name set other set', document.sets.get? name = some set →
    document.sets.get? other = some set' → SetName.bare name = SetName.bare other → name = other
  files_known : ∀ name set, document.sets.get? name = some set →
    ∀ id ∈ set.mentioned, document.files.contains id = true
  uses_known : ∀ name set, document.sets.get? name = some set → ∀ used ∈ set.uses,
    ∃ other set', document.sets.get? other = some set' ∧ SetName.bare other = SetName.bare used
  no_cycle : ∀ name, ¬ TransGen document.Uses name name

/-- A set of a document as it is stored: its bare name and the bare names it uses, each once in the
order of first mention, and else what it holds. -/
def stored (name : String) (set : SetContent) : ContextSet :=
  { set with name := SetName.bare name, uses := (set.uses.map SetName.bare).eraseDups }

/-- A repository has the files and sets of a document and no others. -/
structure Describes (document : Document) (repo : Repository) : Prop where
  files : ∀ id file, repo.manifest.files.get? id = some file ↔
    ∃ entry, document.files.get? id = some entry ∧ file = entry.normalized
  ids : ∀ path id, repo.manifest.ids.get? path = some id ↔
    ∃ entry, document.files.get? id = some entry ∧ Manifest.normalize entry.path = path
  sets : ∀ key set, repo.sets.get? key = some set ↔
    ∃ name content, document.sets.get? name = some content ∧ SetName.bare name = key ∧
      set = stored name content

end Document

/-- A document describes no two repositories. -/
theorem Document.Describes.unique {document : Document} {repo other : Repository}
    (h : document.Describes repo) (hother : document.Describes other) : repo = other := by
  have hfiles : repo.manifest.files = other.manifest.files :=
    Table.ext_some fun id file => (h.files id file).trans (hother.files id file).symm
  have hids : repo.manifest.ids = other.manifest.ids :=
    Table.ext_some fun path id => (h.ids path id).trans (hother.ids path id).symm
  have hsets : repo.sets = other.sets :=
    Table.ext_some fun key set => (h.sets key set).trans (hother.sets key set).symm
  obtain ⟨⟨_, _⟩, _⟩ := repo
  obtain ⟨⟨_, _⟩, _⟩ := other
  cases hfiles
  cases hids
  cases hsets
  rfl

/-- The two tables of a manifest that comes from a document tell the same. -/
theorem Document.Describes.inverse {document : Document} {repo : Repository}
    (h : document.Describes repo) : repo.manifest.Inverse := by
  intro path id
  rw [h.ids]
  constructor
  · intro hgiven
    obtain ⟨entry, hentry, rfl⟩ := hgiven
    exact ⟨entry.normalized, (h.files id _).mpr ⟨entry, hentry, rfl⟩, rfl⟩
  · intro hgiven
    obtain ⟨file, hfile, rfl⟩ := hgiven
    obtain ⟨entry, hentry, rfl⟩ := (h.files id file).mp hfile
    exact ⟨entry, hentry, rfl⟩

namespace Repository

variable {repo : Repository} {document : Document} {manifest : Manifest}

/-! ### Files -/

theorem new_byId (document : Document) :
    (∅ : Table FileEntry).New (document.files.entries.map byId) := by
  have hkeys : (document.files.entries.map byId).map Prod.fst = document.files.keys := by
    rw [List.map_map]
    rfl
  exact Table.new_empty.mpr (hkeys ▸ document.files.keys_nodup)

theorem registerAll_document_eq_ok :
    registerAll document.files.entries ∅ = .ok manifest ↔
      (∅ : Table String).New (document.files.entries.map byPath) ∧
        manifest = ⟨Table.insertAll ∅ (document.files.entries.map byId),
          Table.insertAll ∅ (document.files.entries.map byPath)⟩ :=
  registerAll_eq_ok.trans (and_iff_right (new_byId document))

theorem registerAll_ok_iff :
    (∃ manifest, registerAll document.files.entries ∅ = .ok manifest) ↔
      ∀ id entry other entry', document.files.get? id = some entry →
        document.files.get? other = some entry' →
        Manifest.normalize entry.path = Manifest.normalize entry'.path → id = other := by
  simp only [registerAll_document_eq_ok, exists_and_left, exists_eq, and_true, Table.new_empty,
    List.map_map, Table.nodup_map_entries]
  rfl

theorem registerAll_files (h : registerAll document.files.entries ∅ = .ok manifest) (id : String)
    (file : FileEntry) :
    manifest.files.get? id = some file ↔
      ∃ entry, document.files.get? id = some entry ∧ file = entry.normalized := by
  obtain ⟨-, rfl⟩ := registerAll_document_eq_ok.mp h
  refine (Table.get?_insertAll (new_byId document)).trans ?_
  simp only [Table.get?_eq_some_iff, List.mem_map, byId, Prod.exists, Prod.mk.injEq]
  constructor
  · rintro (hnone | ⟨_, entry, hentry, rfl, rfl⟩)
    · cases hnone
    · exact ⟨entry, hentry, rfl⟩
  · intro hgiven
    obtain ⟨entry, hentry, rfl⟩ := hgiven
    exact .inr ⟨id, entry, hentry, rfl, rfl⟩

theorem registerAll_ids (h : registerAll document.files.entries ∅ = .ok manifest)
    (path id : String) :
    manifest.ids.get? path = some id ↔
      ∃ entry, document.files.get? id = some entry ∧ Manifest.normalize entry.path = path := by
  obtain ⟨hnew, rfl⟩ := registerAll_document_eq_ok.mp h
  refine (Table.get?_insertAll hnew).trans ?_
  simp only [Table.get?_eq_some_iff, List.mem_map, byPath, Prod.exists, Prod.mk.injEq]
  constructor
  · rintro (hnone | ⟨_, entry, hentry, rfl, rfl⟩)
    · cases hnone
    · exact ⟨entry, hentry, rfl⟩
  · intro hgiven
    obtain ⟨entry, hentry, rfl⟩ := hgiven
    exact .inr ⟨id, entry, hentry, rfl, rfl⟩

theorem registerAll_contains (h : registerAll document.files.entries ∅ = .ok manifest)
    (id : String) : manifest.contains id = document.files.contains id := by
  rw [Bool.eq_iff_iff, Manifest.contains, Table.contains_iff, Table.contains_iff]
  constructor
  · intro hfile
    obtain ⟨file, hfile⟩ := hfile
    obtain ⟨entry, hentry, -⟩ := (registerAll_files h id file).mp hfile
    exact ⟨entry, hentry⟩
  · intro hentry
    obtain ⟨entry, hentry⟩ := hentry
    exact ⟨entry.normalized, (registerAll_files h id _).mpr ⟨entry, hentry, rfl⟩⟩

/-! ### Sets -/

theorem enrollAll_document_eq_ok :
    enrollAll document.sets.entries ⟨manifest, ∅⟩ = .ok repo ↔
      (∀ name set, document.sets.get? name = some set →
        SetName.fault? (SetName.bare name) = none) ∧
      (∀ name set other set', document.sets.get? name = some set →
        document.sets.get? other = some set' → SetName.bare name = SetName.bare other →
        name = other) ∧
      (∀ name set, document.sets.get? name = some set →
        ∀ id ∈ set.mentioned, manifest.contains id = true) ∧
      repo = ⟨manifest, Table.insertAll ∅ (document.sets.entries.map enrolled)⟩ := by
  have hnew : (∅ : Table ContextSet).New (document.sets.entries.map enrolled) ↔
      ∀ name set other set', document.sets.get? name = some set →
        document.sets.get? other = some set' → SetName.bare name = SetName.bare other →
        name = other := by
    rw [Table.new_empty, List.map_map]
    exact Table.nodup_map_entries document.sets (Prod.fst ∘ enrolled)
  rw [← hnew]
  simp only [enrollAll_eq_ok, Table.get?_eq_some_iff, Prod.forall]

theorem enrollAll_sets (h : enrollAll document.sets.entries ⟨manifest, ∅⟩ = .ok repo) (key : String)
    (set : ContextSet) :
    repo.sets.get? key = some set ↔
      ∃ name content, document.sets.get? name = some content ∧ SetName.bare name = key ∧
        set = { content with name := key, uses := [] } := by
  obtain ⟨-, hnew, -, rfl⟩ := enrollAll_eq_ok.mp h
  refine (Table.get?_insertAll hnew).trans ?_
  simp only [Table.get?_eq_some_iff, List.mem_map, enrolled, Prod.exists, Prod.mk.injEq]
  constructor
  · rintro (hnone | ⟨name, content, hcontent, rfl, rfl⟩)
    · cases hnone
    · exact ⟨name, content, hcontent, rfl, rfl⟩
  · intro hgiven
    obtain ⟨name, content, hcontent, rfl, rfl⟩ := hgiven
    exact .inr ⟨name, content, hcontent, rfl, rfl⟩

/-! ### Uses -/

theorem mem_usesIn {use : String × String} :
    use ∈ usesIn document.sets.entries ↔
      ∃ set, document.sets.get? use.1 = some set ∧ use.2 ∈ set.uses := by
  obtain ⟨name, used⟩ := use
  simp only [usesIn, List.mem_flatMap, List.mem_map, Prod.exists, Prod.mk.injEq,
    Table.get?_eq_some_iff]
  constructor
  · intro hgiven
    obtain ⟨_, set, hset, _, hused, rfl, rfl⟩ := hgiven
    exact ⟨set, hset, hused⟩
  · intro hgiven
    obtain ⟨set, hset, hused⟩ := hgiven
    exact ⟨name, set, hset, used, hused, rfl, rfl⟩

/-- Before any use is added, the uses to come are all there are. -/
theorem joint_usesIn (h : enrollAll document.sets.entries ⟨manifest, ∅⟩ = .ok repo)
    {source target : String} :
    Joint repo (usesIn document.sets.entries) source target ↔ document.Uses source target := by
  -- all sets have been taken in without uses
  have hnone : ¬ Leads repo.usesOf source target := by
    intro hedge
    obtain ⟨set, hset, hused⟩ := mem_usesOf.mp hedge
    obtain ⟨name, content, -, -, rfl⟩ := (enrollAll_sets h source set).mp hset
    exact List.not_mem_nil hused
  simp only [Joint, hnone, false_or, Prod.exists, mem_usesIn, Document.Uses]
  constructor
  · intro hgiven
    obtain ⟨name, used, ⟨set, hset, hused⟩, hsource, htarget⟩ := hgiven
    exact ⟨name, set, hset, hsource, used, hused, htarget⟩
  · intro hgiven
    obtain ⟨name, set, hset, hsource, used, hused, htarget⟩ := hgiven
    exact ⟨name, used, ⟨set, hset, hused⟩, hsource, htarget⟩

theorem contains_enrolled (h : enrollAll document.sets.entries ⟨manifest, ∅⟩ = .ok repo)
    {name : String} :
    repo.contains name = true ↔ ∃ other set, document.sets.get? other = some set ∧
      SetName.bare other = SetName.bare name := by
  rw [contains, Option.isSome_iff_exists, Repository.get?]
  simp only [enrollAll_sets h]
  constructor
  · intro hgiven
    obtain ⟨_, other, set, hset, hname, -⟩ := hgiven
    exact ⟨other, set, hset, hname⟩
  · intro hgiven
    obtain ⟨other, set, hset, hname⟩ := hgiven
    exact ⟨_, other, set, hset, hname, rfl⟩

/-- Names appended one after another are those that are new, each once. -/
theorem foldl_appendNew (names start : List String) :
    names.foldl appendNew start = start ++ (names.filter (!start.contains ·)).eraseDups := by
  induction names generalizing start with
  | nil => simp
  | cons name rest ih =>
    rw [List.foldl_cons, ih]
    unfold appendNew
    cases hknown : start.contains name with
    | true => rw [if_pos rfl, List.filter_cons_of_neg (by simpa using hknown)]
    | false =>
      have hmore : rest.filter (!(start ++ [name]).contains ·) =
          (rest.filter (!start.contains ·)).filter fun other => !other == name := by
        rw [List.filter_filter]
        refine List.filter_congr fun other _ => ?_
        simp [Bool.and_comm, beq_eq_decide]
      rw [if_neg Bool.false_ne_true, hmore, List.filter_cons_of_pos (by simpa using hknown),
        List.eraseDups_cons, List.append_assoc, List.singleton_append]

theorem targetsOf_usesIn (sets : List (String × SetContent)) (key : String) :
    targetsOf (usesIn sets) key =
      (sets.filter (SetName.bare ·.1 == key)).flatMap (·.2.uses.map SetName.bare) := by
  induction sets with
  | nil => rfl
  | cons entry rest ih =>
    have hcons : targetsOf (usesIn (entry :: rest)) key =
        targetsOf (entry.2.uses.map fun used => (entry.1, used)) key ++
          targetsOf (usesIn rest) key := by
      simp only [targetsOf, usesIn, List.flatMap_cons, List.filter_append, List.map_append]
    rw [hcons, ih]
    cases hkey : SetName.bare entry.1 == key with
    | true => simp [targetsOf, List.filter_map, Function.comp_def, hkey]
    | false => simp [targetsOf, List.filter_map, Function.comp_def, hkey]

/-- The uses that are added to a set are its own, as no other set has its bare name. -/
theorem targetsOf_document
    (hdistinct : ∀ name set other set', document.sets.get? name = some set →
      document.sets.get? other = some set' → SetName.bare name = SetName.bare other → name = other)
    {name : String} {set : SetContent} (hset : document.sets.get? name = some set) :
    targetsOf (usesIn document.sets.entries) (SetName.bare name) = set.uses.map SetName.bare := by
  -- the set is the only one of its bare name
  have hperm : (document.sets.entries.filter (SetName.bare ·.1 == SetName.bare name)).Perm
      [(name, set)] := by
    refine (List.perm_ext_iff_of_nodup ?_ (List.nodup_singleton _)).mpr fun ⟨other, set'⟩ => ?_
    · exact List.Nodup.filter _ (.of_map _ document.sets.keys_nodup)
    · simp only [List.mem_filter, beq_iff_eq, ← Table.get?_eq_some_iff, List.mem_singleton,
        Prod.mk.injEq]
      constructor
      · intro hgiven
        obtain ⟨hother, hbare⟩ := hgiven
        obtain rfl := hdistinct other set' name set hother hset hbare
        exact ⟨rfl, Option.some.inj (hother.symm.trans hset)⟩
      · intro hgiven
        obtain ⟨rfl, rfl⟩ := hgiven
        exact ⟨hset, rfl⟩
  rw [targetsOf_usesIn, List.perm_singleton.mp hperm, List.flatMap_singleton]

/-! ### Whole documents -/

theorem ofDocument_ok_iff :
    (∃ repo, ofDocument document = .ok repo) ↔ document.Acceptable := by
  constructor
  · intro hgiven
    obtain ⟨repo, hrun⟩ := hgiven
    -- each stage gives the conditions that it checks
    obtain ⟨manifest, enrolled, hfiles, hsets, huses⟩ := ofDocument_eq_ok.mp hrun
    obtain ⟨hvalid, hdistinct, hregistered, -⟩ := enrollAll_document_eq_ok.mp hsets
    obtain ⟨hknown, hacyclic⟩ := (addUses_ok_iff (consistent_enrolled hsets)).mp ⟨repo, huses⟩
    exact {
      paths_distinct := registerAll_ok_iff.mp ⟨manifest, hfiles⟩
      names_valid := hvalid
      names_distinct := hdistinct
      files_known := fun name set hset id hid =>
        registerAll_contains hfiles id ▸ hregistered name set hset id hid
      uses_known := fun name set hset used hused =>
        (contains_enrolled hsets).mp (hknown (name, used) (mem_usesIn.mpr ⟨set, hset, hused⟩)).2
      no_cycle := fun name hname =>
        hacyclic name (TransGen.mono (fun _ _ => (joint_usesIn hsets).mpr) name name hname) }
  · intro h
    -- one stage after the other, each on what the one before has built
    obtain ⟨manifest, hfiles⟩ := registerAll_ok_iff.mpr h.paths_distinct
    have hregistered : ∀ name set, document.sets.get? name = some set →
        ∀ id ∈ set.mentioned, manifest.contains id = true := by
      intro name set hset id hid
      rw [registerAll_contains hfiles]
      exact h.files_known name set hset id hid
    obtain ⟨mid, hsets⟩ : ∃ mid, enrollAll document.sets.entries ⟨manifest, ∅⟩ = .ok mid :=
      ⟨_, enrollAll_document_eq_ok.mpr ⟨h.names_valid, h.names_distinct, hregistered, rfl⟩⟩
    have hknown : ∀ use ∈ usesIn document.sets.entries,
        mid.contains use.1 = true ∧ mid.contains use.2 = true := by
      intro use huse
      obtain ⟨set, hset, hused⟩ := mem_usesIn.mp huse
      exact ⟨(contains_enrolled hsets).mpr ⟨use.1, set, hset, rfl⟩,
        (contains_enrolled hsets).mpr (h.uses_known use.1 set hset use.2 hused)⟩
    obtain ⟨repo, huses⟩ := (addUses_ok_iff (consistent_enrolled hsets)).mpr
      ⟨hknown, fun name hname =>
        h.no_cycle name (TransGen.mono (fun _ _ => (joint_usesIn hsets).mp) name name hname)⟩
    exact ⟨repo, ofDocument_eq_ok.mpr ⟨manifest, mid, hfiles, hsets, huses⟩⟩

theorem describes_ofDocument (h : ofDocument document = .ok repo) : document.Describes repo := by
  obtain ⟨manifest, enrolled, hfiles, hsets, huses⟩ := ofDocument_eq_ok.mp h
  obtain ⟨-, hdistinct, -, hrepo⟩ := enrollAll_document_eq_ok.mp hsets
  obtain ⟨hmanifest, hget⟩ := addUses_effect huses
  have hsame : repo.manifest = manifest := by rw [hmanifest, hrepo]
  have hlisted : ∀ name content, document.sets.get? name = some content →
      (targetsOf (usesIn document.sets.entries) (SetName.bare name)).foldl appendNew [] =
        (content.uses.map SetName.bare).eraseDups := by
    intro name content hcontent
    rw [targetsOf_document hdistinct hcontent, foldl_appendNew]
    simp
  refine ⟨?_, ?_, fun key set => ?_⟩
  · rw [hsame]
    exact registerAll_files hfiles
  · rw [hsame]
    exact registerAll_ids hfiles
  · rw [hget, Option.map_eq_some_iff]
    simp only [enrollAll_sets hsets]
    constructor
    · intro hgiven
      obtain ⟨_, ⟨name, content, hcontent, rfl, rfl⟩, rfl⟩ := hgiven
      refine ⟨name, content, hcontent, rfl, ?_⟩
      rw [Document.stored, hlisted name content hcontent]
    · intro hgiven
      obtain ⟨name, content, hcontent, rfl, rfl⟩ := hgiven
      refine ⟨_, ⟨name, content, hcontent, rfl, rfl⟩, ?_⟩
      rw [Document.stored, hlisted name content hcontent]

theorem ofDocument_eq_ok_iff :
    ofDocument document = .ok repo ↔ document.Acceptable ∧ document.Describes repo := by
  constructor
  · intro h
    exact ⟨ofDocument_ok_iff.mp ⟨repo, h⟩, describes_ofDocument h⟩
  · intro hgiven
    obtain ⟨haccept, hdescribes⟩ := hgiven
    obtain ⟨other, hother⟩ := ofDocument_ok_iff.mpr haccept
    rw [hdescribes.unique (describes_ofDocument hother)]
    exact hother

end Repository

/-- A document is accepted exactly if it is acceptable, and then the repository that comes out has
exactly its files and sets, with bare uses listed once each and normalized paths. -/
theorem ofDocument_ok_iff_acceptable (document : Document) :
    ((∃ repo, Repository.ofDocument document = .ok repo) ↔ document.Acceptable) ∧
      ∀ repo, Repository.ofDocument document = .ok repo →
        document.Describes repo ∧ ∀ other, document.Describes other → other = repo :=
  ⟨Repository.ofDocument_ok_iff, fun _ h => ⟨Repository.describes_ofDocument h,
    fun _ hother => hother.unique (Repository.describes_ofDocument h)⟩⟩

end ContextSets
