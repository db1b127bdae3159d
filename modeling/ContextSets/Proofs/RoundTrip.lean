import ContextSets.Proofs.Acceptance
import ContextSets.Proofs.FirstOccurrences

/-!
# Documents of repositories

The document of a consistent repository is accepted, and the repository that comes out of it is the
one that it was made of.
-/

namespace ContextSets

open Relation

namespace Repository

variable {repo : Repository} {name key : String} {set : ContextSet}

/-! ### Look-ups in the document -/

/-- Prefixed names are told apart as the keys are. -/
theorem Consistent.nodup_prefixed (h : repo.Consistent) :
    ((repo.sets.values.map fun set =>
      (SetName.prefixed set.name, Document.exported set.toSetContent)).map Prod.fst).Nodup := by
  rw [Table.values, List.map_map, List.map_map, Table.nodup_map_entries]
  intro key set other set' hset hset' heq
  have hstored := h.stored key set hset
  have hstored' := h.stored other set' hset'
  simp only [Function.comp_apply, hstored.name_eq, hstored'.name_eq] at heq
  exact SetName.prefixed_inj hstored.bare_eq hstored'.bare_eq heq

/-- The document has the sets of the repository under their prefixed names. -/
theorem Consistent.get?_document (h : repo.Consistent) {content : SetContent} :
    repo.document.sets.get? name = some content ↔
      ∃ key set, repo.sets.get? key = some set ∧ SetName.prefixed key = name ∧
        Document.exported set.toSetContent = content := by
  refine (Table.get?_ofList h.nodup_prefixed).trans ?_
  simp only [List.mem_map, Table.mem_values, Prod.mk.injEq]
  constructor
  · intro hgiven
    obtain ⟨set, ⟨key, hset⟩, hname, hcontent⟩ := hgiven
    exact ⟨key, set, hset, (h.stored key set hset).name_eq ▸ hname, hcontent⟩
  · intro hgiven
    obtain ⟨key, set, hset, hname, hcontent⟩ := hgiven
    exact ⟨set, ⟨key, hset⟩, (h.stored key set hset).name_eq.symm ▸ hname, hcontent⟩

/-- Names of sets that are used are bare, as they are keys. -/
theorem Consistent.bare_used (h : repo.Consistent) (hset : repo.sets.get? key = some set)
    {used : String} (hused : used ∈ set.uses) : SetName.bare used = used := by
  obtain ⟨other, hother⟩ := Table.contains_iff.mp ((h.stored key set hset).uses_known used hused)
  exact (h.stored used other hother).bare_eq

/-- What a set becomes in a document and back is the set. -/
theorem Consistent.stored_exported (h : repo.Consistent) (hset : repo.sets.get? key = some set) :
    Document.stored (SetName.prefixed key) (Document.exported set.toSetContent) = set := by
  have hstored := h.stored key set hset
  have hname : SetName.bare (SetName.prefixed key) = set.name := by
    rw [SetName.bare_prefixed, hstored.bare_eq, hstored.name_eq]
  have huses : ((set.uses.map SetName.prefixed).map SetName.bare).eraseDups = set.uses := by
    have hsame : (set.uses.map SetName.prefixed).map SetName.bare = set.uses := by
      rw [List.map_map]
      refine (List.map_congr_left fun used hused => ?_).trans (List.map_id _)
      exact (SetName.bare_prefixed used).trans (h.bare_used hset hused)
    rw [hsame]
    exact eraseDups_of_nodup hstored.uses_nodup
  simp only [Document.stored, Document.exported, hname, huses]

/-- The uses in the document are those of the repository. -/
theorem Consistent.leads_of_uses (h : repo.Consistent) {source target : String}
    (hedge : repo.document.Uses source target) : Leads repo.usesOf source target := by
  obtain ⟨name, content, hcontent, rfl, used, hused, rfl⟩ := hedge
  obtain ⟨key, set, hset, rfl, rfl⟩ := h.get?_document.mp hcontent
  obtain ⟨original, hmem, rfl⟩ := List.mem_map.mp hused
  rw [SetName.bare_prefixed, SetName.bare_prefixed, (h.stored key set hset).bare_eq,
    h.bare_used hset hmem]
  exact mem_usesOf.mpr ⟨set, hset, hmem⟩

/-! ### The round trip -/

theorem Consistent.acceptable_of_found (h : repo.Consistent) (hfound : repo.manifest.Found)
    (hnormalized : repo.manifest.Normalized) : repo.document.Acceptable where
  paths_distinct := by
    intro id entry other entry' hentry hentry' hpath
    -- two files of one spelling have one path, and a path has one id
    rw [hnormalized id entry hentry, hnormalized other entry' hentry'] at hpath
    have hid := hfound id entry hentry
    have hother := hfound other entry' hentry'
    exact Option.some.inj (hid.symm.trans (hpath ▸ hother))
  names_valid := by
    intro name content hcontent
    obtain ⟨key, set, hset, rfl, -⟩ := h.get?_document.mp hcontent
    rw [SetName.bare_prefixed, (h.stored key set hset).bare_eq]
    exact (h.stored key set hset).valid
  names_distinct := by
    intro name content other content' hcontent hcontent' hbare
    obtain ⟨key, set, hset, rfl, -⟩ := h.get?_document.mp hcontent
    obtain ⟨key', set', hset', rfl, -⟩ := h.get?_document.mp hcontent'
    rw [SetName.bare_prefixed, SetName.bare_prefixed] at hbare
    rw [SetName.prefixed, hbare]
    rfl
  files_known := by
    intro name content hcontent id hid
    obtain ⟨key, set, hset, -, rfl⟩ := h.get?_document.mp hcontent
    exact (h.stored key set hset).registered id hid
  uses_known := by
    intro name content hcontent used hused
    obtain ⟨key, set, hset, -, rfl⟩ := h.get?_document.mp hcontent
    obtain ⟨original, hmem, rfl⟩ := List.mem_map.mp hused
    obtain ⟨other, hother⟩ :=
      Table.contains_iff.mp ((h.stored key set hset).uses_known original hmem)
    exact ⟨SetName.prefixed original, _,
      h.get?_document.mpr ⟨original, other, hother, rfl, rfl⟩, rfl⟩
  no_cycle := fun name hname =>
    h.noCycle name (TransGen.mono (fun _ _ => h.leads_of_uses) name name hname)

theorem Consistent.acceptable_document (h : repo.Consistent) (hinverse : repo.manifest.Inverse)
    (hnormalized : repo.manifest.Normalized) : repo.document.Acceptable :=
  h.acceptable_of_found hinverse.found hnormalized

/-- The sets of the document are those of the repository. -/
theorem Consistent.sets_document (h : repo.Consistent) (key : String) (set : ContextSet) :
    repo.sets.get? key = some set ↔
      ∃ name content, repo.document.sets.get? name = some content ∧ SetName.bare name = key ∧
        set = Document.stored name content := by
  constructor
  · intro hset
    refine ⟨SetName.prefixed key, _, h.get?_document.mpr ⟨key, set, hset, rfl, rfl⟩, ?_, ?_⟩
    · rw [SetName.bare_prefixed, (h.stored key set hset).bare_eq]
    · exact (h.stored_exported hset).symm
  · intro hgiven
    obtain ⟨name, content, hcontent, rfl, rfl⟩ := hgiven
    obtain ⟨key, set, hset, rfl, rfl⟩ := h.get?_document.mp hcontent
    rw [h.stored_exported hset, SetName.bare_prefixed, (h.stored key set hset).bare_eq]
    exact hset

theorem Consistent.describes_document (h : repo.Consistent) (hinverse : repo.manifest.Inverse)
    (hnormalized : repo.manifest.Normalized) : repo.document.Describes repo where
  files := by
    intro id file
    constructor
    · intro hfile
      exact ⟨file, hfile, (hnormalized.normalized_eq hfile).symm⟩
    · intro hgiven
      obtain ⟨entry, hentry, rfl⟩ := hgiven
      rw [hnormalized.normalized_eq hentry]
      exact hentry
  ids := by
    intro path id
    refine (hinverse path id).trans (exists_congr fun entry => and_congr_right fun hentry => ?_)
    rw [hnormalized id entry hentry]
  sets := h.sets_document

end Repository

/-- A consistent repository whose manifest is in order is read back from its document as it was. -/
theorem ofDocument_document (repo : Repository) (h : repo.Consistent)
    (hinverse : repo.manifest.Inverse) (hnormalized : repo.manifest.Normalized) :
    Repository.ofDocument repo.document = .ok repo :=
  Repository.ofDocument_eq_ok_iff.mpr
    ⟨h.acceptable_document hinverse hnormalized, h.describes_document hinverse hnormalized⟩

/-- A set with a file, a step and an entry point, and a set that uses it. -/
def loginDocument : Document where
  sets := ⟨[
    ("context:api", {
      description := some "public interface"
      uses := ["context:login"] }),
    ("context:login", {
      files := [.part "f1" { name := "signIn" } [] (some "checks the password")]
      workflow := [{ description := "read the form", file := some "f1" }]
      entryPoints := [{ file := "f1", function := "signIn", protocol := .http, method := "POST" }]
      mode := some .synchronous })], by decide⟩
  files := ⟨[("f1", { path := "src/login.ts", comment := some "form" })], by decide⟩

/-- The repository of that document. -/
def loginRepository : Repository where
  manifest := {
    files := ⟨[("f1", { path := "src/login.ts", comment := some "form" })], by decide⟩
    ids := ⟨[("src/login.ts", "f1")], by decide⟩ }
  sets := ⟨[
    ("api", {
      name := "api"
      description := some "public interface"
      uses := ["login"] }),
    ("login", {
      name := "login"
      files := [.part "f1" { name := "signIn" } [] (some "checks the password")]
      workflow := [{ description := "read the form", file := some "f1" }]
      entryPoints := [{ file := "f1", function := "signIn", protocol := .http, method := "POST" }]
      mode := some .synchronous })], by decide⟩

theorem ofDocument_document_login :
    loginRepository.Consistent ∧ loginRepository.manifest.Inverse ∧
      loginRepository.manifest.Normalized ∧
      Repository.ofDocument loginRepository.document = .ok loginRepository := by
  have hbuilt : Repository.ofDocument loginDocument = .ok loginRepository := by decide
  have hconsistent := Repository.consistent_ofDocument hbuilt
  have hinverse := (Repository.describes_ofDocument hbuilt).inverse
  have hnormalized : loginRepository.manifest.Normalized := by
    intro id entry hentry
    obtain ⟨-, rfl⟩ := Prod.mk.inj (List.mem_singleton.mp (Table.get?_eq_some_iff.mp hentry))
    decide
  exact ⟨hconsistent, hinverse, hnormalized,
    ofDocument_document loginRepository hconsistent hinverse hnormalized⟩

end ContextSets
