import ContextSets.Proofs.EditingCommands
import ContextSets.Proofs.FreshId
import ContextSets.Proofs.StoredPaths

/-!
# Storing again

Where a repository has been stored, it is loaded again and another one can be stored: the directory is
there, and no directory stands where a file is to be. So after a command that has changed the
repository, the next one succeeds if its change does.
-/

namespace ContextSets

namespace Tree

variable {tree later other : Tree} {current path place : String}

/-! ### Directories that are there -/

theorem hasDirectory_iff : tree.hasDirectory current path = true ↔
    ∃ place, tree.locate current path = .ok place ∧ tree.item? place = some .directory := by
  unfold hasDirectory open?
  cases hlocate : tree.locate current path with
  | error fault => exact iff_of_false nofun nofun
  | ok place =>
    simp only [bind, Except.bind, Except.ok.injEq, exists_eq_left']
    cases hitem : tree.item? place with
    | none => exact iff_of_false nofun nofun
    | some item =>
      cases item with
      | directory => exact iff_of_true rfl rfl
      | file bytes => exact iff_of_false nofun nofun

theorem hasDirectory_mono (hdirectories : ∀ place, tree.item? place = some .directory →
    other.item? place = some .directory) (h : tree.hasDirectory current path = true) :
    other.hasDirectory current path = true := by
  obtain ⟨place, hlocate, hitem⟩ := hasDirectory_iff.mp h
  exact hasDirectory_iff.mpr ⟨place, locate_mono hdirectories hlocate, hdirectories place hitem⟩

/-- A directory that has been made is there. -/
theorem hasDirectory_of_makeDirectory (h : tree.makeDirectory current path = .ok later) :
    later.hasDirectory current path = true := by
  obtain ⟨hfree, hlater⟩ := makeDirectory_eq h
  have hkept : ∀ place, tree.item? place = some .directory →
      later.item? place = some .directory :=
    fun _ => directory_of_update (by rw [hfree]; nofun) hlater
  have hmade : later.item? (placeOf current path) = some .directory := by
    rw [hlater, Function.update_self]
  obtain ⟨⟨directory, last?⟩, hentrance, h⟩ := except_bind_ok.mp h
  cases last? with
  | none => cases h
  | some last =>
    dsimp only at h
    split at h
    · cases h
    · obtain ⟨next, hnext, -⟩ := except_bind_ok.mp h
      have hplace : next = placeOf current path := by
        rw [(entrance_eq hentrance).2, follow_eq hnext]
        rfl
      subst hplace
      exact hasDirectory_iff.mpr ⟨_, locate_of_entrance (entrance_mono hkept hentrance)
        (follow_mono hkept hnext) (.inl hmade), hmade⟩

/-- A directory that is there is not made again. -/
theorem makeDirectory_of_hasDirectory (h : tree.hasDirectory current path = true) :
    tree.makeDirectory current path = .error .exists := by
  obtain ⟨place, hlocate, hitem⟩ := hasDirectory_iff.mp h
  obtain ⟨directory, last?, hentrance, hnext⟩ := entrance_of_locate hlocate
  unfold makeDirectory
  rw [hentrance]
  cases last? with
  | none => rfl
  | some last =>
    simp only [bind, Except.bind, hnext last rfl, hitem]
    split
    · rfl
    · rfl

theorem makeDirectories_of_hasDirectory (h : tree.hasDirectory current path = true) :
    tree.makeDirectories current path = (tree, .ok ()) := by
  unfold makeDirectories makeFirst
  rw [makeDirectory_of_hasDirectory h]
  split
  · rfl
  · simp only [h, if_true]

/-- Directories that could be made are there, except for an empty path. -/
theorem hasDirectory_of_makeFirst {holders : List String} (hpath : path.isEmpty = false)
    (h : (makeFirst current tree (path :: holders)).2 = .ok ()) :
    (makeFirst current tree (path :: holders)).1.hasDirectory current path = true := by
  unfold makeFirst at h ⊢
  rw [if_neg (Bool.eq_false_iff.mp hpath)] at h ⊢
  -- if making it fails, it has to be there
  have hsettled : ∀ (tree : Tree) (fault : FileFault),
      (if tree.hasDirectory current path = true then .ok () else .error fault :
        Except FileFault Unit) = .ok () → tree.hasDirectory current path = true := by
    intro tree fault hsettle
    split at hsettle
    · assumption
    · cases hsettle
  dsimp only at h ⊢
  split at h
  · rename_i made hmade
    exact hasDirectory_of_makeDirectory hmade
  · split at h
    · cases h
    · split at h
      · rename_i made hmade
        exact hasDirectory_of_makeDirectory hmade
      · exact hsettled _ _ h
  · exact hsettled _ _ h

end Tree

namespace Repository

variable {repo : Repository}

/-- What makes a repository come back from its stored text as it was. -/
structure Lasting (repo : Repository) : Prop where
  consistent : repo.Consistent
  inverse : repo.manifest.Inverse
  normalized : repo.manifest.Normalized

theorem lasting_ofDocument {document : Document} (h : ofDocument document = .ok repo)
    (hnormalized : repo.manifest.Normalized) : repo.Lasting :=
  ⟨consistent_ofDocument h, (describes_ofDocument h).inverse, hnormalized⟩

/-- An operation keeps that, if its new paths find free ids and do not come to start with a blank. -/
theorem Lasting.step (h : repo.Lasting) (op : Operation)
    (hroom : ∀ path ∈ op.paths, repo.manifest.idOf? path = none → repo.manifest.HasRoom path)
    (hstart : ∀ path ∈ op.paths, Manifest.startsBlank (Manifest.normalize path) = false) :
    (op.after repo).Lasting where
  consistent := h.consistent.step op
  inverse := h.inverse.change hroom (change_after op repo)
  normalized := by
    have hpaths : repo.manifest.Paths fun path => Manifest.normalize path = path := h.normalized
    exact hpaths.change
      (fun path hpath => (Manifest.normalize_normalize_iff path).mpr (hstart path hpath))
      (change_after op repo)

/-- An operation without paths keeps it anyway. -/
theorem Lasting.after_of_ok (h : repo.Lasting) (op : Operation) {after : Repository}
    {answer : op.Answer} (hpaths : op.paths = []) (hrun : op.edit.run repo = .ok answer after) :
    after.Lasting := by
  rw [← Operation.after_of_ok hrun]
  refine h.step op ?_ ?_
  · rw [hpaths]
    nofun
  · rw [hpaths]
    nofun

end Repository

namespace WorkingCopy

open ContextSets.Tree

variable {tree made later : Tree} {current now path text : String}

/-- The way is open to store a working copy: the directory is there, and a file can be made under the
temporary name and under its own. -/
structure Ready (tree : Tree) (current path : String) : Prop where
  directory : ∀ directory, Path.parent? path = some directory → directory.isEmpty = false →
    tree.hasDirectory current directory = true
  temporary : ∃ place, tree.target current (temporary path) = .ok place
  place : ∃ place, tree.target current path = .ok place

/-- Where bytes have been written under the temporary name and moved to their place, the way is open to
do so again. -/
theorem ready_of_moved {written : Tree} {bytes : ByteArray}
    (hdirectory : ∀ directory, Path.parent? path = some directory → directory.isEmpty = false →
      made.hasDirectory current directory = true)
    (hwrite : made.write current (temporary path) bytes = .ok written)
    (hrename : written.rename current (temporary path) path = .ok later) :
    Ready later current path := by
  have hwritten := write_eq hwrite
  obtain ⟨first, htemporary, -⟩ := except_bind_ok.mp hwrite
  obtain ⟨rfl, hfree⟩ := target_eq htemporary
  obtain ⟨⟨place, found⟩, hopen, hmove⟩ := except_bind_ok.mp hrename
  obtain ⟨rfl, hfound⟩ := openFile_eq hopen
  dsimp only at hmove
  split at hmove
  · cases hmove
  have hlater := write_eq hmove
  obtain ⟨second, htarget, -⟩ := except_bind_ok.mp hmove
  obtain ⟨rfl, hfree'⟩ := target_eq htarget
  have herased := item?_erase written (ne_root_of_file hfound)
  -- all directories stay in both steps
  have hkept : ∀ place,
      (⟨written.items.erase (placeOf current (temporary path))⟩ : Tree).item? place =
        some .directory → later.item? place = some .directory :=
    fun _ => directory_of_update hfree' hlater
  have hall : ∀ place, made.item? place = some .directory → later.item? place = some .directory :=
    fun place h => hkept place (directory_of_update (by rw [hfound]; nofun) herased
      (directory_of_update hfree hwritten h))
  refine ⟨fun directory hparent hempty => hasDirectory_mono hall (hdirectory directory hparent hempty),
    ⟨_, target_mono hall htemporary ?_⟩, ⟨_, target_mono hkept htarget ?_⟩⟩
  · rw [hlater, Function.update_apply]
    split
    · nofun
    · rw [herased, Function.update_self]
      nofun
  · rw [hlater, Function.update_self]
    nofun

/-- Where a text has been stored, the way is open to store another. -/
theorem writeText_ready (tree : Tree) (current now path text : String) :
    Ensures ((writeText (fileSystem current now) path text).run.run tree) fun r =>
      r.1 = .ok () → Ready r.2 current path := by
  -- what is left to do once the directory is there
  have hmove : ∀ made : Tree, (∀ directory, Path.parent? path = some directory →
      directory.isEmpty = false → made.hasDirectory current directory = true) →
      Ensures ((do
        stored ((fileSystem current now).writeText (temporary path) text)
        stored ((fileSystem current now).rename (temporary path) path) :
          ExceptT SetError (StateM Tree) Unit).run.run made) fun r =>
        r.1 = .ok () → Ready r.2 current path := by
    intro made hdirectory
    refine Ensures.except_bind (P := fun r => r.1 = .ok () →
      made.write current (temporary path) text.toUTF8 = .ok r.2) ?_ ?_ fun _ _ _ => nofun
    · refine Ensures.except_mapError ((change_ensures _ made).mono ?_)
      rintro ⟨_, written⟩ (⟨-, hwrite⟩ | ⟨⟨fault, rfl, -⟩, -⟩)
      · exact fun _ => hwrite
      · nofun
    · intro _ written hwrite
      refine Ensures.except_mapError ((change_ensures _ written).mono ?_)
      rintro ⟨_, later⟩ (⟨-, hrename⟩ | ⟨⟨fault, rfl, -⟩, -⟩)
      · exact fun _ => ready_of_moved hdirectory (hwrite rfl) hrename
      · nofun
  unfold writeText
  split
  · rename_i hparent
    refine hmove tree fun directory h => ?_
    rw [hparent] at h
    cases h
  · rename_i directory hparent
    split
    · rename_i hempty
      refine Ensures.except_bind (P := fun r => r.1 = .ok () →
        r.2.hasDirectory current directory = true) ?_ ?_ fun _ _ _ => nofun
      · refine Ensures.except_mapError (Ensures.get_bind (Ensures.set_bind (Ensures.run_pure ?_)))
        intro hmade
        exact hasDirectory_of_makeFirst (by simpa using hempty) (mapError_eq_ok_iff.mp hmade)
      · intro _ made hmade
        refine hmove made fun other hother _ => ?_
        cases hparent.symm.trans hother
        exact hmade rfl
    · rename_i hempty
      refine hmove tree fun other hother hne => ?_
      cases hparent.symm.trans hother
      exact absurd (by rw [hne]; rfl) hempty

/-- Where the way is open, every text can be stored. -/
theorem writeText_of_ready (h : Ready tree current path) (now text : String) :
    ∃ later, (writeText (fileSystem current now) path text).run.run tree = pure (.ok (), later) := by
  obtain ⟨first, htemporary⟩ := h.temporary
  obtain ⟨second, hplace⟩ := h.place
  obtain ⟨written, hwrite⟩ : ∃ written,
      tree.write current (temporary path) text.toUTF8 = .ok written :=
    ⟨_, except_bind_ok.mpr ⟨first, htemporary, rfl⟩⟩
  obtain ⟨later, hrename⟩ := rename_of_write hwrite hplace
  have hstored : (stored ((fileSystem current now).writeText (temporary path) text)).run.run tree =
      pure (.ok (), written) := by
    refine run_mapError_of_ok ((run_change _ tree).trans ?_)
    rw [hwrite]
    rfl
  have hmoved : (stored ((fileSystem current now).rename (temporary path) path)).run.run written =
      pure (.ok (), later) := by
    refine run_mapError_of_ok ((run_change _ written).trans ?_)
    rw [hrename]
    rfl
  have hmove := (run_bind_of_ok (f := fun _ => stored ((fileSystem current now).rename (temporary path)
    path)) hstored).trans hmoved
  refine ⟨later, ?_⟩
  unfold writeText
  split
  · exact hmove
  · rename_i directory hparent
    split
    · rename_i hempty
      have hthere := h.directory directory hparent (by simpa using hempty)
      have hmade : ((fileSystem current now).makeDirectories directory).run tree =
          pure ((tree.makeDirectories current directory).2,
            (tree.makeDirectories current directory).1) := rfl
      rw [makeDirectories_of_hasDirectory hthere] at hmade
      exact (run_bind_of_ok (run_mapError_of_ok hmade)).trans hmove
    · exact hmove

/-! ### Loading what has been stored -/

theorem repositoryOf?_document {repo : Repository} (h : repo.Lasting) :
    repositoryOf? repo.document.text.toUTF8 = some repo := by
  refine repositoryOf?_eq_some_iff.mpr ⟨repo.document.text, repo.document, ?_, ?_,
    Repository.ofDocument_eq_ok_iff.mpr
      ⟨h.consistent.acceptable_document h.inverse h.normalized,
        h.consistent.describes_document h.inverse h.normalized⟩⟩
  · have hvalid : repo.document.text.toUTF8.IsValidUTF8 := repo.document.text.isValidUTF8
    rw [FileSystem.decode, String.fromUTF8?, dif_pos hvalid]
    rfl
  · rw [Document.ofText, Document.text, (Document.faithful.legible _).read?_pretty,
      Option.bind_some, Document.faithful.read_write]

theorem load_of_ready {bytes : ByteArray} {repo : Repository} (h : Ready tree current path)
    (hbytes : tree.fileAt? (placeOf current path) = some bytes)
    (hrepo : repositoryOf? bytes = some repo) (now : String) :
    (load (fileSystem current now) path).run.run tree = pure (.ok (some repo), tree) := by
  obtain ⟨place, htarget⟩ := h.place
  obtain ⟨rfl, -⟩ := target_eq htarget
  have hopen := openFile_of_locate (locate_of_target htarget) (fileAt?_eq_some_iff.mp hbytes)
  obtain ⟨text, document, hdecode, hdocument, hrepo⟩ := repositoryOf?_eq_some_iff.mp hrepo
  have hexists : ((fileSystem current now).exists? path).run tree = pure (.ok true, tree) := by
    obtain ⟨found, hfound, -⟩ := except_bind_ok.mp hopen
    unfold FileSystem.exists?
    simp only [fileSystem, StateT.run_bind, StateT.run_get, StateT.run_pure, pure_bind, hfound]
    rfl
  have hread : ((fileSystem current now).readText path).run tree = pure (.ok text, tree) := by
    rw [run_readText, textAt_eq_ok_iff.mpr ⟨bytes, hopen, hdecode⟩]
  refine (run_bind_of_ok (run_mapError_of_ok hexists)).trans ?_
  refine (run_bind_of_ok (run_mapError_of_ok hread)).trans ?_
  rw [hdocument]
  refine (run_bind_of_ok (x := pure document) rfl).trans ?_
  rw [hrepo]
  rfl

end WorkingCopy

namespace Project

open WorkingCopy

variable {α : Type} {project : Project} {tree later : Tree} {current now : String}
  {repo final : Repository} {answer : α}

theorem repository?_of_stored
    (hstored : project.stored? current tree = some repo.document.text.toUTF8)
    (h : repo.Lasting) : project.repository? current tree = some repo := by
  unfold repository?
  rw [hstored, Option.bind_some, repositoryOf?_document h]

theorem lasting_of_repository? (h : project.repository? current tree = some repo)
    (hnormalized : repo.manifest.Normalized) : repo.Lasting := by
  obtain ⟨bytes, -, hbytes⟩ := Option.bind_eq_some_iff.mp h
  obtain ⟨text, document, -, -, hrepo⟩ := repositoryOf?_eq_some_iff.mp hbytes
  exact Repository.lasting_ofDocument hrepo hnormalized

theorem load_run (hready : Ready tree current project.workingCopy)
    (hrepo : project.repository? current tree = some repo) :
    (project.load (Tree.fileSystem current now)).run.run tree = pure (.ok repo, tree) := by
  obtain ⟨bytes, hbytes, hrepo⟩ := Option.bind_eq_some_iff.mp hrepo
  have hload : (Task.ofAction .set (WorkingCopy.load (Tree.fileSystem current now)
      project.workingCopy).run).run.run tree = pure (.ok (some repo), tree) :=
    run_mapError_of_ok (load_of_ready hready hbytes hrepo now)
  unfold load
  rw [run_bind_of_ok hload]
  rfl

/-- Where a repository has been stored, another change is stored if it succeeds. -/
theorem change_run {change : Change (StateM Tree) α}
    (hready : Ready tree current project.workingCopy)
    (hrepo : project.repository? current tree = some repo)
    (hchange : (change.run repo).run.run tree = pure (.ok (answer, final), tree))
    (hfinal : final.Lasting) (now : String) :
    ∃ later, (project.change (Tree.fileSystem current now) change).run.run tree =
        pure (.ok answer, later) ∧
      project.repository? current later = some final := by
  obtain ⟨later, hsave⟩ := writeText_of_ready hready now final.document.text
  refine ⟨later, ?_, ?_⟩
  · have hsaved : (project.save (Tree.fileSystem current now) final).run.run tree =
        pure (.ok (), later) := run_mapError_of_ok hsave
    refine (run_bind_of_ok (load_run hready hrepo)).trans ((run_bind_of_ok hchange).trans ?_)
    exact run_bind_of_ok hsaved
  · have hreplaced := (writeText_replaces tree current now project.workingCopy
      final.document.text).of_id
    rw [hsave] at hreplaced
    rcases hreplaced with ⟨-, hstored⟩ | ⟨⟨e, herror⟩, -⟩
    · exact repository?_of_stored hstored hfinal
    · cases herror

/-- A change that fails on the stored repository leaves the tree as it is. -/
theorem change_run_of_error {change : Change (StateM Tree) α} {failure : Failure}
    (hready : Ready tree current project.workingCopy)
    (hrepo : project.repository? current tree = some repo)
    (hchange : (change.run repo).run.run tree = pure (.error failure, tree)) :
    (project.change (Tree.fileSystem current now) change).run.run tree =
      pure (.error failure, tree) := by
  refine (run_bind_of_ok (load_run hready hrepo)).trans ?_
  rw [ExceptT.run_bind, StateT.run_bind, hchange, pure_bind]
  rfl

/-- After a change that has been stored, the way is open for the next one. -/
theorem change_ready (change : Change (StateM Tree) α) (current now : String) (tree : Tree) :
    Ensures ((project.change (Tree.fileSystem current now) change).run.run tree) fun r =>
      ∀ answer, r.1 = .ok answer → Ready r.2 current project.workingCopy := by
  unfold Project.change
  refine Ensures.except_bind (Ensures.trivial _) (fun repo loaded _ => ?_) fun _ _ _ => nofun
  refine Ensures.except_bind (Ensures.trivial _) (fun changed later _ => ?_) fun _ _ _ => nofun
  refine Ensures.except_bind (P := fun r => r.1 = .ok () →
    Ready r.2 current project.workingCopy) ?_ ?_ fun _ _ _ => nofun
  · refine Ensures.except_mapError ((writeText_ready later current now project.workingCopy _).mono ?_)
    exact fun r hready hok => hready (mapError_eq_ok_iff.mp hok)
  · exact fun _ stored hready => .pure fun _ _ => hready rfl

end Project

end ContextSets
