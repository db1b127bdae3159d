import ContextSets.Command.Search
import ContextSets.Proofs.AcceptedPaths
import ContextSets.Proofs.Operation
import ContextSets.Proofs.Effect
import ContextSets.Proofs.StoredText

/-!
# The operations of commands

Each editing command stands for some operations on the repository, which are told from its arguments,
the files of the project and the repository. A command that succeeds has done exactly these, one after
another, and every one of them has succeeded; if something was to be removed, it was there.
-/

namespace ContextSets

namespace Operation

/-- The answer of a removal tells that something was there to be removed. -/
def Removes : (op : Operation) → op.Answer → Prop
  | removeFile .., answer => answer = true
  | removeUse .., answer => answer = true
  | _, _ => True

/-- What operations lead to that succeed one after another, none of them a removal in vain. -/
inductive Runs : List Operation → Repository → Repository → Prop
  | nil (repo : Repository) : Runs [] repo repo
  | cons (op : Operation) {ops : List Operation} {repo mid final : Repository} {answer : op.Answer}
      (h : op.edit.run repo = .ok answer mid) (hremoves : op.Removes answer)
      (hrest : Runs ops mid final) : Runs (op :: ops) repo final

theorem Runs.single (op : Operation) {repo final : Repository} {answer : op.Answer}
    (h : op.edit.run repo = .ok answer final) (hremoves : op.Removes answer) :
    Runs [op] repo final :=
  .cons op h hremoves (.nil final)

end Operation

/-- The path of a file of the project relative to its root, if there is such a file. -/
def Project.relativeIn? (project : Project) (tree : Tree) (current path : String) : Option String :=
  match tree.openFile current (project.place path) with
  | .ok _ => (project.relativeTo path (project.place path)).toOption
  | .error _ => none

/-- The operations that an editing command stands for. Results are those of its search. -/
def Command.operations? (project : Project) (tree : Tree) (current : String)
    (results : List RankedFile) (repo : Repository) : Command → Option (List Operation)
  | .create name description =>
    some (.create name ::
      if description.isSome then [.describe (SetName.bare name) description] else [])
  | .describe name description => some [.describe name description]
  | .delete name => some [.delete name]
  | .rename name newName => some [.rename name newName]
  | .addFiles name paths =>
    (paths.mapM (project.relativeIn? tree current)).map fun found => found.map (.addPath name)
  | .removeFile name path =>
    (repo.manifest.idOf? (Manifest.normalize path)).map fun id => [.removeFile name id]
  | .refs name path names note => do
    let relative ← project.relativeIn? tree current path
    let text ← (tree.textAt current (project.place relative)).toOption
    let analysis := Analysis.ofText Analysis.defaultLimit relative text
    let id := (repo.manifest.resolve relative).1
    some (.resolvePath relative :: .setRefs name id (names.map (Change.functionRef analysis)) ::
      if note.isSome then [.setReferenceComment name id note] else [])
  | .comment path note =>
    (repo.manifest.idOf? (Manifest.normalize path)).map fun id => [.setFileComment id note]
  | .addUse source target => some [.addUse source target]
  | .removeUse source target => some [.removeUse source target]
  | .prune => some [.prune]
  | .search _ options => options.addTo.map fun name =>
    (RankedFile.topRelated options.top results).map fun file => .addPath name file.path
  | .init | .list | .display _ | .handOn .. | .tokens _ | .embed => none

namespace Change

open Operation

variable {α β : Type} {tree : Tree} {current now : String} {repo : Repository}

/-- A change leaves the files alone; if it succeeds, its answer and the repository that it leaves have
a property. -/
def Ends (change : Change (StateM Tree) α) (tree : Tree) (repo : Repository)
    (P : α → Repository → Prop) : Prop :=
  Ensures ((change.run repo).run.run tree) fun r =>
    r.2 = tree ∧ ∀ answer after, r.1 = .ok (answer, after) → P answer after

variable {P : α → Repository → Prop} {Q : β → Repository → Prop}

theorem Ends.imp {change : Change (StateM Tree) α} {R R' : Repository → Prop}
    (h : change.Ends tree repo fun _ final => R final) (himp : ∀ final, R final → R' final) :
    change.Ends tree repo fun _ final => R' final :=
  h.mono fun _ hends => ⟨hends.1, fun answer final heq => himp final (hends.2 answer final heq)⟩

theorem ends_pure {answer : α} (h : P answer repo) :
    (pure answer : Change (StateM Tree) α).Ends tree repo P := by
  refine Ensures.except_pure ⟨rfl, ?_⟩
  rintro _ _ ⟨⟩
  exact h

theorem ends_throw (failure : Failure) :
    (throw failure : Change (StateM Tree) α).Ends tree repo P :=
  .pure ⟨rfl, nofun⟩

theorem Ends.bind {change : Change (StateM Tree) α} {next : α → Change (StateM Tree) β}
    (h : change.Ends tree repo P) (hnext : ∀ answer mid, P answer mid →
      (next answer).Ends tree mid Q) :
    (change >>= next).Ends tree repo Q := by
  unfold Ends
  rw [StateT.run_bind]
  refine Ensures.except_bind h ?_ ?_
  · rintro ⟨answer, mid⟩ later ⟨hsame, hanswer⟩
    obtain rfl := hsame.symm
    exact hnext answer mid (hanswer answer mid rfl)
  · rintro failure later ⟨hsame, -⟩
    exact ⟨hsame, nofun⟩

theorem ends_ofEdit (edit : Edit α) : (ofEdit edit : Change (StateM Tree) α).Ends tree repo
    fun answer after => edit.run repo = .ok answer after := by
  show Ensures ((ofEdit edit repo : Task (StateM Tree) _).run.run tree) _
  unfold ofEdit
  cases hrun : edit.run repo with
  | ok value after =>
    refine Ensures.except_pure ⟨rfl, ?_⟩
    rintro _ _ ⟨⟩
    rfl
  | error e _ => exact .pure ⟨rfl, nofun⟩

/-- The files are read before the repository is changed. -/
theorem ends_lift {task : Task (StateM Tree) α} {R : α → Prop}
    (h : Ensures (task.run.run tree) fun r => r.2 = tree ∧ ∀ answer, r.1 = .ok answer → R answer) :
    Ends (StateT.lift task) tree repo fun answer after => R answer ∧ after = repo := by
  unfold Ends
  rw [StateT.run_lift]
  refine Ensures.except_bind h ?_ ?_
  · rintro answer later ⟨hsame, hanswer⟩
    refine Ensures.except_pure ⟨hsame, ?_⟩
    rintro _ _ ⟨⟩
    exact ⟨hanswer answer rfl, rfl⟩
  · rintro failure later ⟨hsame, -⟩
    exact ⟨hsame, nofun⟩

/-- A change by one operation that removes nothing. -/
theorem ends_operation (op : Operation) (hremoves : ∀ answer, op.Removes answer)
    (text : op.Answer → String) :
    (do return text (← ofEdit op.edit) : Change (StateM Tree) String).Ends tree repo
      fun _ final => Runs [op] repo final :=
  (ends_ofEdit op.edit).bind fun answer _ h => ends_pure (.single op h (hremoves answer))

theorem create_ends (name : String) (description : Option String) :
    (create name description : Change (StateM Tree) String).Ends tree repo fun _ final =>
      Runs (.create name ::
        if description.isSome then [.describe (SetName.bare name) description] else []) repo
        final := by
  unfold create
  refine (ends_ofEdit _).bind fun created mid hcreated => ?_
  obtain ⟨hname, -⟩ := Repository.create_ok.mp hcreated
  split
  · refine (ends_ofEdit _).bind fun _ final hdescribed => ends_pure ?_
    rw [hname] at hdescribed
    exact .cons (.create name) hcreated trivial
      (.single (.describe (SetName.bare name) description) hdescribed trivial)
  · exact ends_pure (.single (.create name) hcreated trivial)

theorem relativePath_ensures (project : Project) (tree : Tree) (current now path : String) :
    Ensures ((project.relativePath (Tree.fileSystem current now) path).run.run tree) fun r =>
      r.2 = tree ∧ ∀ relative, r.1 = .ok relative →
        project.relativeIn? tree current path = some relative := by
  have hrun : (project.relativePath (Tree.fileSystem current now) path).run.run tree =
      pure _ := project.relativePath_run_tree tree current now path
  rw [hrun]
  refine .pure ⟨rfl, fun relative hrelative => ?_⟩
  unfold Project.relativeIn?
  cases hopen : tree.openFile current (project.place path) with
  | error fault =>
    rw [hopen] at hrelative
    cases hrelative
  | ok file =>
    rw [hopen] at hrelative
    exact congrArg Except.toOption hrelative

/-- Adding files is one operation for each path of the list. -/
theorem addEach_ends (project : Project) (name : String) (paths : List String)
    (repo : Repository) :
    (addEach project (Tree.fileSystem current now) name paths).Ends tree repo fun _ final =>
      ∃ found, paths.mapM (project.relativeIn? tree current) = some found ∧
        Runs (found.map (.addPath name)) repo final := by
  induction paths generalizing repo with
  | nil => exact ends_pure ⟨[], rfl, .nil repo⟩
  | cons path rest ih =>
    unfold addEach
    refine (ends_lift (relativePath_ensures project tree current now path)).bind ?_
    rintro relative _ ⟨hrelative, rfl⟩
    refine (ends_ofEdit _).bind ?_
    rintro ⟨id, added⟩ mid hadded
    refine (ih mid).bind ?_
    rintro lines final ⟨found, hfound, hruns⟩
    refine ends_pure ⟨relative :: found, ?_, .cons (.addPath name relative) hadded trivial hruns⟩
    rw [List.mapM_cons, hrelative, hfound]
    rfl

theorem addFiles_ends (project : Project) (name : String) (paths : List String) :
    (addFiles project (Tree.fileSystem current now) name paths).Ends tree repo fun _ final =>
      ∃ found, paths.mapM (project.relativeIn? tree current) = some found ∧
        Runs (found.map (.addPath name)) repo final :=
  (addEach_ends project name paths repo).bind fun _ _ h => ends_pure h

theorem knownFile_ends (path : String) :
    (knownFile path : Change (StateM Tree) String).Ends tree repo fun id after =>
      repo.manifest.idOf? (Manifest.normalize path) = some id ∧ after = repo := by
  unfold knownFile Ends
  rw [StateT.run_bind, StateT.run_get, pure_bind]
  cases repo.manifest.idOf? (Manifest.normalize path) with
  | some id => exact ends_pure ⟨rfl, rfl⟩
  | none => exact ends_throw _

/-- Taking a file out of a set fails if the set does not have it. -/
theorem removeFile_ends (name path : String) :
    (removeFile name path : Change (StateM Tree) String).Ends tree repo fun _ final =>
      ∃ id, repo.manifest.idOf? (Manifest.normalize path) = some id ∧
        Runs [.removeFile name id] repo final := by
  unfold removeFile
  refine (knownFile_ends path).bind ?_
  rintro id _ ⟨hid, rfl⟩
  refine (ends_ofEdit _).bind fun removed final hremoved => ?_
  split
  · rename_i htrue
    exact ends_pure ⟨id, hid, .single (.removeFile name id) hremoved htrue⟩
  · exact ends_throw _

theorem comment_ends (path : String) (note : Option String) :
    (comment path note : Change (StateM Tree) String).Ends tree repo fun _ final =>
      ∃ id, repo.manifest.idOf? (Manifest.normalize path) = some id ∧
        Runs [.setFileComment id note] repo final := by
  unfold comment
  refine (knownFile_ends path).bind ?_
  rintro id _ ⟨hid, rfl⟩
  exact (ends_ofEdit _).bind fun _ final hcommented =>
    ends_pure ⟨id, hid, .single (.setFileComment id note) hcommented trivial⟩

/-- Taking a use away fails if there is none. -/
theorem removeUse_ends (source target : String) :
    (removeUse source target : Change (StateM Tree) String).Ends tree repo fun _ final =>
      Runs [.removeUse source target] repo final := by
  unfold removeUse
  refine (ends_ofEdit _).bind fun removed final hremoved => ?_
  split
  · rename_i htrue
    exact ends_pure (.single (.removeUse source target) hremoved htrue)
  · exact ends_throw _

theorem refs_ends (project : Project) (name path : String) (names : List String)
    (note : Option String) :
    (refs project (Tree.fileSystem current now) name path names note).Ends tree repo fun _ final =>
      ∃ relative text, project.relativeIn? tree current path = some relative ∧
        tree.textAt current (project.place relative) = .ok text ∧
        Runs (.resolvePath relative :: .setRefs name (repo.manifest.resolve relative).1
            (names.map (functionRef (Analysis.ofText Analysis.defaultLimit relative text))) ::
          if note.isSome then
            [.setReferenceComment name (repo.manifest.resolve relative).1 note] else [])
          repo final := by
  unfold refs
  refine (ends_lift (relativePath_ensures project tree current now path)).bind ?_
  rintro relative mid ⟨hrelative, hmid⟩
  obtain rfl := hmid.symm
  refine (ends_lift (R := fun text => tree.textAt current (project.place relative) = .ok text)
    ?_).bind ?_
  · refine Ensures.except_mapError ((WorkingCopy.readText_ensures tree current now _).mono ?_)
    rintro ⟨result, _⟩ ⟨hsame, hresult⟩
    exact ⟨hsame, fun _ htext => hresult ▸ WorkingCopy.mapError_eq_ok_iff.mp htext⟩
  rintro text mid ⟨htext, hmid⟩
  obtain rfl := hmid.symm
  refine (ends_ofEdit _).bind fun id resolved hresolved => ?_
  obtain ⟨rfl, -⟩ := Repository.resolvePath_ok.mp hresolved
  refine (ends_ofEdit _).bind fun _ referred hreferred => ?_
  have hruns : ∀ rest final, Runs rest referred final → Runs (.resolvePath relative ::
      .setRefs name (repo.manifest.resolve relative).1
        (names.map (functionRef (Analysis.ofText Analysis.defaultLimit relative text))) :: rest)
      repo final := fun rest final hrest =>
    .cons (.resolvePath relative) hresolved trivial
      (.cons (.setRefs _ _ _) hreferred trivial hrest)
  by_cases hnote : note.isSome = true
  · simp only [if_pos hnote]
    refine (ends_ofEdit _).bind fun commented final hcommented => ?_
    have hall := hruns _ final (.single (.setReferenceComment _ _ _) hcommented trivial)
    split
    · exact ends_pure ⟨relative, text, hrelative, htext, hall⟩
    · exact ends_pure ⟨relative, text, hrelative, htext, hall⟩
  · simp only [if_neg hnote]
    have hall := hruns [] referred (.nil referred)
    split
    · exact ends_pure ⟨relative, text, hrelative, htext, hall⟩
    · exact ends_pure ⟨relative, text, hrelative, htext, hall⟩

/-- Adding results is one operation for each of them. -/
theorem addResults_ends (name : String) (results : List RankedFile) (repo : Repository) :
    (addResults name results : Change (StateM Tree) Nat).Ends tree repo fun _ final =>
      Runs (results.map fun file => .addPath name file.path) repo final := by
  induction results generalizing repo with
  | nil => exact ends_pure (.nil repo)
  | cons file rest ih =>
    unfold addResults
    refine (ends_ofEdit _).bind ?_
    rintro ⟨id, added⟩ mid hadded
    refine (ih mid).bind fun others final hruns => ?_
    exact ends_pure (.cons (.addPath name file.path) hadded trivial hruns)

end Change

end ContextSets
