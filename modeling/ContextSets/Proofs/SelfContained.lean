import ContextSets.Proofs.ClosureFiles
import ContextSets.Proofs.RoundTrip

/-!
# Documents of single sets

The document of a set is the document of a part of the repository: the sets that it uses, with the
files that they mention. The part is consistent as the whole is, so it is read back from its document,
and what is seen of the set is the same in the part and in the whole.
-/

namespace ContextSets

open Relation

namespace Repository

variable {repo : Repository} {names : List String} {key name : String} {set root : ContextSet}

/-! ### Parts of a repository -/

/-- Keys of sets, each once, with the keys of all that these sets use. -/
structure Selects (repo : Repository) (names : List String) : Prop where
  nodup : names.Nodup
  known : ∀ key ∈ names, ∃ set, repo.sets.get? key = some set
  closed : ∀ key ∈ names, ∀ used ∈ repo.usesOf key, used ∈ names

/-- The sets of some names, in their order. -/
def setsOf (repo : Repository) (names : List String) : List ContextSet :=
  names.filterMap repo.get?

/-- The part of a repository that has the sets of some names and the files that they mention. -/
def part (repo : Repository) (names : List String) : Repository :=
  let mentioned := (repo.setsOf names).flatMap (·.mentioned)
  { manifest :=
      { files := repo.manifest.files.filter fun id _ => mentioned.contains id
        ids := repo.manifest.ids.filter fun _ id => mentioned.contains id }
    sets := repo.sets.filter fun key _ => names.contains key }

/-- A set and all that it uses are selected by their names. -/
theorem Consistent.selects (h : repo.Consistent) (hroot : repo.get? name = some root)
    (horder : DepthFirst repo.usesOf [] [SetName.bare name] names) : repo.Selects names where
  nodup := horder.nodup.1
  known := fun _ hkey => h.exists_of_reaches hroot (horder.mem_iff.mp hkey)
  closed := fun key hkey used hused =>
    (horder.closed.2 key hkey used hused).resolve_right List.not_mem_nil

theorem Consistent.get?_of_selects (h : repo.Consistent) (hselects : repo.Selects names)
    (hkey : key ∈ names) : repo.get? key = repo.sets.get? key := by
  obtain ⟨set, hset⟩ := hselects.known key hkey
  rw [Repository.get?, (h.stored key set hset).bare_eq]

theorem get?_part {names : List String} :
    (repo.part names).sets.get? key = some set ↔ key ∈ names ∧ repo.sets.get? key = some set := by
  rw [part, Table.get?_filter, Option.filter_eq_some_iff]
  simp [and_comm]

theorem Consistent.mem_setsOf (h : repo.Consistent) (hselects : repo.Selects names) :
    set ∈ repo.setsOf names ↔ ∃ key, (repo.part names).sets.get? key = some set := by
  simp only [setsOf, List.mem_filterMap, get?_part]
  refine exists_congr fun key => and_congr_right fun hkey => ?_
  rw [h.get?_of_selects hselects hkey]

theorem get?_manifest_part {id : String} {entry : FileEntry} :
    (repo.part names).manifest.get? id = some entry ↔
      repo.manifest.get? id = some entry ∧ id ∈ (repo.setsOf names).flatMap (·.mentioned) := by
  rw [part, Manifest.get?, Manifest.get?, Table.get?_filter, Option.filter_eq_some_iff]
  simp

/-- Files that the sets of a part mention are the same in the part. -/
theorem Consistent.get?_manifest_part_eq (h : repo.Consistent) (hselects : repo.Selects names)
    (hset : (repo.part names).sets.get? key = some set) {id : String} (hid : id ∈ set.mentioned) :
    (repo.part names).manifest.get? id = repo.manifest.get? id := by
  obtain ⟨entry, hentry⟩ := Manifest.contains_iff.mp
    ((h.stored key set (get?_part.mp hset).2).registered id hid)
  rw [hentry]
  refine get?_manifest_part.mpr ⟨hentry, List.mem_flatMap.mpr ⟨set, ?_, hid⟩⟩
  exact (h.mem_setsOf hselects).mpr ⟨key, hset⟩

theorem get?_part_eq (hkey : key ∈ names) :
    (repo.part names).sets.get? key = repo.sets.get? key :=
  Option.ext fun _ => get?_part.trans (and_iff_right hkey)

theorem usesOf_part (hkey : key ∈ names) : (repo.part names).usesOf key = repo.usesOf key := by
  rw [usesOf, get?_part_eq hkey, usesOf]

theorem Consistent.part (h : repo.Consistent) (hselects : repo.Selects names) :
    (repo.part names).Consistent where
  stored := by
    intro key set hset
    obtain ⟨hkey, hold⟩ := get?_part.mp hset
    have hstored := h.stored key set hold
    refine { hstored with uses_known := fun used hused => ?_, registered := fun id hid => ?_ }
    · have hmem := hselects.closed key hkey used (usesOf_of_get? hold ▸ hused)
      obtain ⟨other, hother⟩ := hselects.known used hmem
      exact Table.contains_iff.mpr ⟨other, get?_part.mpr ⟨hmem, hother⟩⟩
    · rw [Manifest.contains_iff, h.get?_manifest_part_eq hselects hset hid, ← Manifest.contains_iff]
      exact hstored.registered id hid
  noCycle := by
    refine h.noCycle.mono fun source target hedge => ?_
    obtain ⟨set, hset, hused⟩ := mem_usesOf.mp hedge
    exact mem_usesOf.mpr ⟨set, (get?_part.mp hset).2, hused⟩

theorem inverse_part (h : repo.manifest.Inverse) : (repo.part names).manifest.Inverse := by
  intro path id
  rw [part, Table.get?_filter, Option.filter_eq_some_iff, h path id, ← exists_and_right]
  refine exists_congr fun entry => ?_
  rw [Table.get?_filter, Option.filter_eq_some_iff]
  exact and_right_comm

theorem normalized_part (h : repo.manifest.Normalized) :
    (repo.part names).manifest.Normalized :=
  fun id entry hentry => h id entry (get?_manifest_part.mp hentry).1

/-! ### The document of a part -/

theorem Consistent.setsOf_perm (h : repo.Consistent) (hselects : repo.Selects names) :
    (repo.setsOf names).Perm (repo.part names).sets.values := by
  have hnames : ((repo.setsOf names).map (·.name)).Nodup := by
    rw [setsOf, h.names_filterMap_get? fun key hkey =>
      Table.contains_iff.mpr (hselects.known key hkey)]
    exact hselects.nodup
  have hvalues : (repo.part names).sets.values.Nodup :=
    .of_map _ (.of_map _ (h.part hselects).nodup_prefixed)
  refine (List.perm_ext_iff_of_nodup (.of_map _ hnames) hvalues).mpr fun set => ?_
  rw [h.mem_setsOf hselects, Table.mem_values]

/-- The document of a set is that of the part which the set selects. -/
theorem Consistent.documentOf_eq (h : repo.Consistent) (hselects : repo.Selects names)
    (hwalk : repo.transitiveUses name = .ok names) :
    repo.documentOf name = .ok (repo.part names).document := by
  have hsets : Document.ofSets (repo.setsOf names) (repo.part names).manifest.files =
      (repo.part names).document := by
    have hperm := (h.setsOf_perm hselects).map fun set =>
      (SetName.prefixed set.name, Document.exported set.toSetContent)
    rw [document, Document.ofSets, Document.ofSets,
      Table.ofList_perm hperm.symm (h.part hselects).nodup_prefixed]
  rw [documentOf, hwalk]
  exact congrArg Except.ok hsets

/-- The files of the document of a part are those that its sets mention. -/
theorem Consistent.contains_document_part (h : repo.Consistent) (hselects : repo.Selects names)
    {id : String} :
    (repo.part names).document.files.contains id = true ↔
      ∃ key content, (repo.part names).document.sets.get? key = some content ∧
        id ∈ content.mentioned := by
  have hpart := h.part hselects
  constructor
  · intro hid
    obtain ⟨entry, hentry⟩ := Table.contains_iff.mp hid
    obtain ⟨-, hmentioned⟩ := get?_manifest_part.mp hentry
    obtain ⟨set, hset, hid⟩ := List.mem_flatMap.mp hmentioned
    obtain ⟨key, hkey⟩ := (h.mem_setsOf hselects).mp hset
    exact ⟨SetName.prefixed key, _, hpart.get?_document.mpr ⟨key, set, hkey, rfl, rfl⟩, hid⟩
  · intro hgiven
    obtain ⟨_, _, hcontent, hid⟩ := hgiven
    obtain ⟨key, set, hset, -, rfl⟩ := hpart.get?_document.mp hcontent
    exact (hpart.stored key set hset).registered id hid

/-! ### What is seen of a set -/

theorem collect_congr {manifest other : Manifest} {references : List FileReference}
    {files : List ResolvedFile}
    (hsame : ∀ reference ∈ references, other.get? reference.id = manifest.get? reference.id) :
    Closure.collect other references files = Closure.collect manifest references files := by
  induction references generalizing files with
  | nil => rfl
  | cons reference rest ih =>
    obtain ⟨hreference, hrest⟩ := List.forall_mem_cons.mp hsame
    simp only [Closure.collect, hreference, ih hrest]

theorem get?_part_root (hroot : repo.get? name = some root)
    (horder : DepthFirst repo.usesOf [] [SetName.bare name] names) :
    (repo.part names).get? name = some root :=
  get?_part.mpr ⟨horder.mem_iff.mpr .refl, hroot⟩

/-- A set has the same closure in the part that it selects. -/
theorem Consistent.closure_part (h : repo.Consistent) (hroot : repo.get? name = some root)
    (horder : DepthFirst repo.usesOf [] [SetName.bare name] names) :
    (repo.part names).closure name = repo.closure name := by
  have hselects := h.selects hroot horder
  have hname : root.name = SetName.bare name := (h.stored _ root hroot).name_eq
  obtain ⟨closure, hclosure, -⟩ := h.closure hroot
  obtain ⟨walked, hwalk, hsets, hhead, hcollect⟩ := closure_eq_ok_iff.mp hclosure
  obtain rfl : walked = names :=
    ((transitiveUses_eq_ok_iff hroot).mp hwalk).unique (hname.symm ▸ horder)
  rw [hclosure]
  refine closure_eq_ok_iff.mpr ⟨walked, ?_, ?_, hhead, ?_⟩
  -- the walk goes by the same uses
  · refine (transitiveUses_eq_ok_iff (get?_part_root hroot horder)).mpr ?_
    exact hname.symm ▸ horder.congr fun key hkey => usesOf_part hkey
  · rw [← hsets]
    refine List.filterMap_congr fun key hkey => ?_
    obtain ⟨set, hset⟩ := hselects.known key hkey
    rw [Repository.get?, Repository.get?, (h.stored key set hset).bare_eq, get?_part_eq hkey]
  -- the references are to files that the part has
  · rw [collect_congr fun reference href => ?_]
    · exact hcollect
    · obtain ⟨set, hset, href⟩ := List.mem_flatMap.mp href
      rw [← hsets] at hset
      obtain ⟨key, hkey⟩ := (h.mem_setsOf hselects).mp hset
      exact h.get?_manifest_part_eq hselects hkey (mem_mentioned.mpr (.inl ⟨reference, href, rfl⟩))

/-- A set has the same text in the part that it selects. -/
theorem Consistent.markdown_part (h : repo.Consistent) (hroot : repo.get? name = some root)
    (horder : DepthFirst repo.usesOf [] [SetName.bare name] names) :
    (repo.part names).markdown name = repo.markdown name := by
  obtain ⟨closure, hclosure, rfl, -⟩ := h.closure hroot
  have hlines : Markdown.lines (repo.part names).manifest closure =
      Markdown.lines repo.manifest closure := by
    refine Markdown.lines_congr fun id hid => ?_
    rw [Markdown.pathOf, Markdown.pathOf, h.get?_manifest_part_eq (h.selects hroot horder)
      (get?_part_root hroot horder) (Markdown.mem_mentioned_of_located hid)]
  rw [markdown, markdown, h.closure_part hroot horder, hclosure]
  simp only [bind, Except.bind, hlines]

end Repository

open Repository

/-- The document of a set has just the files that its sets mention, and it is accepted. The repository
that comes out has just the set and all that it uses, as they were, and shows the same closure and the
same text of it. -/
theorem documentOf_self_contained (repo : Repository) (h : repo.Consistent)
    (hinverse : repo.manifest.Inverse) (hnormalized : repo.manifest.Normalized) (name : String)
    (hname : repo.contains name = true) :
    ∃ document other names, repo.documentOf name = .ok document ∧
      (∀ id, document.files.contains id = true ↔
        ∃ key content, document.sets.get? key = some content ∧ id ∈ content.mentioned) ∧
      Repository.ofDocument document = .ok other ∧
      repo.transitiveUses name = .ok names ∧
      (∀ key set, other.sets.get? key = some set ↔
        key ∈ names ∧ repo.sets.get? key = some set) ∧
      other.closure name = repo.closure name ∧
      other.markdown name = repo.markdown name := by
  obtain ⟨root, hroot⟩ := Option.isSome_iff_exists.mp hname
  obtain ⟨closure, -, -, hwalk, -⟩ := h.closure hroot
  have horder := (transitiveUses_eq_ok_iff hroot).mp hwalk
  rw [(h.stored _ root hroot).name_eq] at horder
  have hselects := h.selects hroot horder
  have hpart := h.part hselects
  have hinverse' : (repo.part (closure.sets.map (·.name))).manifest.Inverse :=
    inverse_part hinverse
  have hnormalized' : (repo.part (closure.sets.map (·.name))).manifest.Normalized :=
    normalized_part hnormalized
  refine ⟨_, _, _, h.documentOf_eq hselects hwalk, fun id => h.contains_document_part hselects, ?_,
    hwalk, fun key set => get?_part, h.closure_part hroot horder, h.markdown_part hroot horder⟩
  exact ofDocument_eq_ok_iff.mpr
    ⟨hpart.acceptable_document hinverse' hnormalized',
      hpart.describes_document hinverse' hnormalized'⟩

theorem documentOf_self_contained_shared :
    let repo := Operation.afterAll [.replaceBy sharedDocument] ∅
    repo.Consistent ∧ repo.manifest.Inverse ∧ repo.manifest.Normalized ∧
      repo.contains "context:cli" = true ∧
      ∃ document other, repo.documentOf "context:cli" = .ok document ∧
        document.sets.keys = ["context:cli", "context:core"] ∧
        document.files.keys = ["f1", "f2", "f3", "f4"] ∧
        Repository.ofDocument document = .ok other ∧
        other.closure "context:cli" = repo.closure "context:cli" := by
  intro repo
  have hconsistent : repo.Consistent := (Reachable.empty.afterAll _).consistent
  have hbuilt : Repository.ofDocument sharedDocument = .ok repo := by decide
  have hinverse : repo.manifest.Inverse := (describes_ofDocument hbuilt).inverse
  have hpaths : ∀ entry ∈ repo.manifest.files.entries,
      Manifest.normalize entry.2.path = entry.2.path := by decide
  have hnormalized : repo.manifest.Normalized := fun id entry hentry =>
    hpaths (id, entry) (Table.get?_eq_some_iff.mp hentry)
  have hname : repo.contains "context:cli" = true := by decide
  have hkeys : (repo.documentOf "context:cli").map (fun document =>
      (document.sets.keys, document.files.keys)) =
    .ok (["context:cli", "context:core"], ["f1", "f2", "f3", "f4"]) := by decide
  obtain ⟨document, other, _, hdocument, -, hother, -, -, hclosure, -⟩ :=
    documentOf_self_contained repo hconsistent hinverse hnormalized "context:cli" hname
  rw [hdocument] at hkeys
  obtain ⟨hsets, hfiles⟩ := Prod.mk.inj (Except.ok.inj hkeys)
  exact ⟨hconsistent, hinverse, hnormalized, hname, document, other, hdocument, hsets, hfiles,
    hother, hclosure⟩

end ContextSets
