import ContextSets.Markdown
import ContextSets.Proofs.ClosureFiles
import ContextSets.Proofs.SelfContained
import ContextSets.Proofs.StoredPaths

/-!
# Pruning files

Pruning takes the files out of the manifest that no set mentions, be it in its files, its workflow
or its entry points. What is seen of a set rests on the files that sets mention, so it stays the
same, and pruning again finds nothing.
-/

namespace ContextSets

/-! ### Files taken out of a manifest -/

namespace Manifest

variable {manifest : Manifest} {keep : String → Bool} {id path : String} {entry : FileEntry}

theorem mem_pruned :
    (id, entry) ∈ (manifest.prune keep).1 ↔ manifest.get? id = some entry ∧ keep id = false := by
  rw [prune, List.mem_filter, get?, Table.get?_eq_some_iff, Bool.not_eq_true']

/-- The files come out in the order of their ids. -/
theorem pruned_ascending : (manifest.prune keep).1.Pairwise (fun a b => a.1 < b.1) :=
  manifest.files.ascending.filter _

theorem get?_prune_of_keep (h : keep id = true) :
    (manifest.prune keep).2.get? id = manifest.get? id :=
  Option.ext fun _ => files_prune.trans (and_iff_left h)

/-- A path is unknown afterwards if it was that of a file taken out, and leads where it did if not. -/
theorem ids_prune_of_mem :
    (manifest.prune keep).2.ids.get? path = some id ↔
      manifest.ids.get? path = some id ∧ ∀ file ∈ (manifest.prune keep).1, file.2.path ≠ path := by
  refine ids_prune.trans (and_congr_right fun _ => ?_)
  constructor
  · rintro hkeep ⟨other, entry⟩ hfile hpath
    obtain ⟨hentry, hdrop⟩ := mem_pruned.mp hfile
    rw [hkeep other entry hentry hpath] at hdrop
    cases hdrop
  · intro hfree other entry hentry hpath
    by_contra hdrop
    exact hfree (other, entry) (mem_pruned.mpr ⟨hentry, Bool.eq_false_iff.mpr hdrop⟩) hpath

/-- Nothing is taken out if every file is to be kept. -/
theorem prune_of_keeps (h : ∀ id, manifest.contains id = true → keep id = true) :
    manifest.prune keep = ([], manifest) := by
  have hnone : (manifest.prune keep).1 = [] := by
    refine List.eq_nil_iff_forall_not_mem.mpr ?_
    rintro ⟨id, entry⟩ hfile
    obtain ⟨hentry, hdrop⟩ := mem_pruned.mp hfile
    rw [h id (contains_iff.mpr ⟨entry, hentry⟩)] at hdrop
    cases hdrop
  have hfiles : (manifest.prune keep).2.files = manifest.files :=
    Table.ext_some fun id entry => files_prune.trans <|
      and_iff_left_of_imp fun hentry => h id (contains_iff.mpr ⟨entry, hentry⟩)
  have hids : (manifest.prune keep).2.ids = manifest.ids :=
    Table.ext_some fun path id => ids_prune_of_mem.trans <|
      and_iff_left_of_imp fun _ file hfile => by
        rw [hnone] at hfile
        cases hfile
  exact Prod.ext hnone (congrArg₂ Manifest.mk hfiles hids)

/-- What is kept once is kept again. -/
theorem prune_prune (manifest : Manifest) (keep : String → Bool) :
    (manifest.prune keep).2.prune keep = ([], (manifest.prune keep).2) :=
  prune_of_keeps fun _ hid => (contains_prune.mp hid).2

end Manifest

/-! ### What a set shows -/

namespace Repository

variable {repo : Repository} {manifest : Manifest} {id : String}

/-- Some set mentions a file: in its files, in a step of its workflow or as an entry point. -/
def Mentions (repo : Repository) (id : String) : Prop :=
  ∃ key set, repo.sets.get? key = some set ∧
    ((∃ reference ∈ set.files, reference.id = id) ∨
      (∃ step ∈ set.workflow, step.file = some id) ∨
        ∃ entry ∈ set.entryPoints, entry.file = id)

theorem contains_mentioned : repo.mentioned.contains id = true ↔ repo.Mentions id := by
  rw [List.contains_iff_mem, mentioned, List.mem_flatMap]
  constructor
  · intro hgiven
    obtain ⟨set, hset, hid⟩ := hgiven
    obtain ⟨key, hkey⟩ := Table.mem_values.mp hset
    exact ⟨key, set, hkey, mem_mentioned.mp hid⟩
  · intro hgiven
    obtain ⟨key, set, hkey, hid⟩ := hgiven
    exact ⟨set, Table.mem_values.mpr ⟨key, hkey⟩, mem_mentioned.mpr hid⟩

theorem contains_mentioned_eq_false : repo.mentioned.contains id = false ↔ ¬ repo.Mentions id := by
  rw [← contains_mentioned, Bool.not_eq_true]

/-- A manifest has the same of all files that sets mention. -/
def SameMentioned (repo : Repository) (manifest : Manifest) : Prop :=
  ∀ id, repo.Mentions id → manifest.get? id = repo.manifest.get? id

theorem SameMentioned.get?_eq (h : repo.SameMentioned manifest) {names : List String}
    {set : ContextSet} (hset : set ∈ names.filterMap repo.get?) (hid : id ∈ set.mentioned) :
    manifest.get? id = repo.manifest.get? id := by
  obtain ⟨name, -, hget⟩ := List.mem_filterMap.mp hset
  exact h id ⟨_, set, hget, mem_mentioned.mp hid⟩

theorem get?_withManifest (repo : Repository) (manifest : Manifest) :
    (repo.withManifest manifest).get? = repo.get? := rfl

/-- The walk goes by the uses of the sets alone. -/
theorem transitiveUses_withManifest (repo : Repository) (manifest : Manifest) (name : String) :
    (repo.withManifest manifest).transitiveUses name = repo.transitiveUses name := rfl

theorem SameMentioned.documentOf_eq (h : repo.SameMentioned manifest) (name : String) :
    (repo.withManifest manifest).documentOf name = repo.documentOf name := by
  have hfiles : ∀ names : List String,
      let mentioned := (names.filterMap repo.get?).flatMap (·.mentioned)
      manifest.files.filter (fun id _ => mentioned.contains id) =
        repo.manifest.files.filter fun id _ => mentioned.contains id := by
    intro names mentioned
    refine Table.ext_get? fun id => ?_
    rw [Table.get?_filter, Table.get?_filter]
    cases hid : mentioned.contains id with
    | false => simp
    | true =>
      obtain ⟨set, hset, hmem⟩ := List.mem_flatMap.mp (List.contains_iff_mem.mp hid)
      have hsame : manifest.files.get? id = repo.manifest.files.get? id := h.get?_eq hset hmem
      rw [hsame]
  rw [documentOf, documentOf, transitiveUses_withManifest]
  refine bind_congr fun names => ?_
  exact congrArg (fun files => Except.ok (Document.ofSets _ files)) (hfiles names)

theorem SameMentioned.closure_eq (h : repo.SameMentioned manifest) (name : String) :
    (repo.withManifest manifest).closure name = repo.closure name := by
  have hcollect : ∀ names : List String, ∀ sets, names.filterMap repo.get? = sets →
      Closure.collect manifest (sets.flatMap (·.files)) [] =
        Closure.collect repo.manifest (sets.flatMap (·.files)) [] := by
    rintro names _ rfl
    refine collect_congr fun reference hreference => ?_
    obtain ⟨set, hset, hmem⟩ := List.mem_flatMap.mp hreference
    exact h.get?_eq hset (mem_mentioned.mpr (.inl ⟨reference, hmem, rfl⟩))
  rw [closure, closure, transitiveUses_withManifest]
  refine bind_congr fun names => ?_
  rw [get?_withManifest]
  cases hsets : names.filterMap repo.get? with
  | nil => rfl
  | cons root used => simp only [withManifest_manifest, hcollect names _ hsets]

theorem SameMentioned.markdown_eq (h : repo.SameMentioned manifest) (name : String) :
    (repo.withManifest manifest).markdown name = repo.markdown name := by
  rw [markdown, markdown, h.closure_eq]
  cases hclosure : repo.closure name with
  | error _ => simp only [bind, Except.bind]
  | ok closure =>
    obtain ⟨names, -, hsets, hhead, -⟩ := closure_eq_ok_iff.mp hclosure
    have hroot : closure.root ∈ names.filterMap repo.get? :=
      hsets ▸ List.mem_of_mem_head? hhead
    have hlines : Markdown.lines manifest closure = Markdown.lines repo.manifest closure :=
      Markdown.lines_congr fun id hid => by
        rw [Markdown.pathOf, Markdown.pathOf,
          h.get?_eq hroot (Markdown.mem_mentioned_of_located hid)]
    simp only [bind, Except.bind, withManifest_manifest, hlines]

theorem sameMentioned_prune (repo : Repository) :
    repo.SameMentioned (repo.manifest.prune repo.mentioned.contains).2 :=
  fun _ hid => Manifest.get?_prune_of_keep (contains_mentioned.mpr hid)

end Repository

open Repository

/-- Pruning always succeeds. It returns just the files that no set mentions, in the order of their
ids, and takes them and their paths out of the manifest. All other files stay as they are, with their
notes and under their paths, and so do the sets. Pruning again returns nothing and changes nothing.
The document, the closure and the text of every set are the same as before. -/
theorem pruning_removes_the_unmentioned (repo : Repository) (h : repo.Reachable) :
    ∃ removed after, prune.run repo = .ok removed after ∧
      (∀ id entry, (id, entry) ∈ removed ↔
        repo.manifest.get? id = some entry ∧ ¬ repo.Mentions id) ∧
      removed.Pairwise (fun a b => a.1 < b.1) ∧
      (∀ id entry, after.manifest.get? id = some entry ↔
        repo.manifest.get? id = some entry ∧ repo.Mentions id) ∧
      (∀ path id, after.manifest.ids.get? path = some id ↔
        repo.manifest.ids.get? path = some id ∧ ∀ file ∈ removed, file.2.path ≠ path) ∧
      (∀ id entry, after.manifest.get? id = some entry →
        after.manifest.ids.get? entry.path = some id) ∧
      after.sets = repo.sets ∧
      prune.run after = .ok [] after ∧
      ∀ name, after.documentOf name = repo.documentOf name ∧
        after.closure name = repo.closure name ∧ after.markdown name = repo.markdown name := by
  have hsame := sameMentioned_prune repo
  refine ⟨_, _, prune_ok.mpr ⟨rfl, rfl⟩, ?_, Manifest.pruned_ascending, ?_, ?_, ?_, rfl, ?_, ?_⟩
  · intro id entry
    rw [Manifest.mem_pruned, contains_mentioned_eq_false]
  · intro id entry
    exact Manifest.files_prune.trans (and_congr_right fun _ => contains_mentioned)
  · exact fun path id => Manifest.ids_prune_of_mem
  · exact fun id entry => h.found.change (.prune _ : Manifest.Change [] _ _) id entry
  -- the sets are the same, so they mention the same files
  · have hagain := Manifest.prune_prune repo.manifest repo.mentioned.contains
    exact prune_ok.mpr ⟨congrArg Prod.fst hagain.symm,
      congrArg (fun pruned => repo.withManifest pruned.2) hagain.symm⟩
  · exact fun name => ⟨hsame.documentOf_eq name, hsame.closure_eq name, hsame.markdown_eq name⟩

theorem pruning_removes_the_unmentioned_shared :
    let repo := Operation.afterAll [.replaceBy sharedDocument] ∅
    repo.Reachable ∧ ¬ repo.Mentions "f5" ∧
      ∃ after, prune.run repo = .ok [("f5", { path := "rest.rs" })] after ∧
        after.manifest.get? "f4" = some { path := "all.rs", comment := some "in order" } ∧
        after.manifest.ids.keys = ["all.rs", "lib.rs", "load.rs", "run.rs"] ∧
        prune.run after = .ok [] after ∧
        after.documentOf "context:app" = repo.documentOf "context:app" := by
  intro repo
  have hreachable : repo.Reachable := Reachable.empty.afterAll _
  have hanswer : (repo.manifest.prune repo.mentioned.contains).1 =
      [("f5", { path := "rest.rs" })] := by decide
  have hpaths : (repo.manifest.prune repo.mentioned.contains).2.ids.keys =
      ["all.rs", "lib.rs", "load.rs", "run.rs"] := by decide
  have hmentioned : repo.Mentions "f4" := contains_mentioned.mp (by decide)
  have hentry : repo.manifest.get? "f4" =
      some { path := "all.rs", comment := some "in order" } := by decide
  obtain ⟨removed, after, hrun, hremoved, -, hkept, -, -, -, hagain, hshown⟩ :=
    pruning_removes_the_unmentioned repo hreachable
  obtain ⟨rfl, hafter⟩ := prune_ok.mp hrun
  rw [hanswer] at hrun hremoved
  refine ⟨hreachable, ((hremoved "f5" _).mp List.mem_cons_self).2, after, hrun,
    (hkept "f4" _).mpr ⟨hentry, hmentioned⟩, ?_, hagain, (hshown "context:app").1⟩
  rw [hafter]
  exact hpaths

end ContextSets
