import ContextSets.Project.WorkingCopy
import ContextSets.Proofs.Ensures
import ContextSets.Proofs.TreeFiles

/-!
# The stored text

What becomes of the file of a working copy when its text is replaced: it holds the new text, or the
replacement fails and it holds what it held before. The text is written under another name first, so
that a failure can only come before the file is touched. If the path has no name that could be
replaced by another, the file is written directly, but then moving it to where it is cannot fail.
-/

namespace ContextSets

/-! ### Programs that may fail -/

namespace Ensures

variable {n : Type → Type} [Monad n] [LawfulMonad n] {ε α β σ : Type} {s : σ}
  {R : Except ε β × σ → Prop}

theorem except_pure {b : β} (h : R (.ok b, s)) :
    Ensures ((Pure.pure b : ExceptT ε (StateT σ n) β).run.run s) R :=
  pure h

theorem except_bind {x : ExceptT ε (StateT σ n) α} {f : α → ExceptT ε (StateT σ n) β}
    {P : Except ε α × σ → Prop} (hx : Ensures (x.run.run s) P)
    (hok : ∀ a s', P (.ok a, s') → Ensures ((f a).run.run s') R)
    (herror : ∀ e s', P (.error e, s') → R (.error e, s')) :
    Ensures ((x >>= f).run.run s) R := by
  rw [ExceptT.run_bind]
  refine run_bind hx fun result s' h => ?_
  cases result with
  | ok a => exact hok a s' h
  | error e => exact pure (herror e s' h)

theorem except_mk_bind {x : Except ε α} {f : α → ExceptT ε (StateT σ n) β}
    (hok : ∀ a, x = .ok a → Ensures ((f a).run.run s) R)
    (herror : ∀ e, x = .error e → R (.error e, s)) :
    Ensures ((ExceptT.mk (Pure.pure x : StateT σ n _) >>= f).run.run s) R := by
  refine except_bind (P := fun r => r = (x, s)) (pure rfl) ?_ ?_
  · rintro a _ heq
    cases heq
    exact hok a rfl
  · rintro e _ heq
    cases heq
    exact herror e rfl

theorem except_lift {x : StateT σ n β} (h : Ensures (x.run s) fun r => R (.ok r.1, r.2)) :
    Ensures ((ExceptT.lift x).run.run s) R := by
  rw [ExceptT.run_lift, StateT.run_map]
  obtain ⟨y, hy⟩ := h
  refine ⟨(fun r => ⟨(.ok r.1.1, r.1.2), r.2⟩) <$> y, ?_⟩
  rw [← hy, ← comp_map, ← comp_map]
  rfl

/-- An action whose errors are reported as others. -/
theorem except_mapError {ε' : Type} {f : ε' → ε} {action : StateT σ n (Except ε' β)}
    (h : Ensures (action.run s) fun r => R (r.1.mapError f, r.2)) :
    Ensures ((ExceptT.mk do return (← action).mapError f : ExceptT ε (StateT σ n) β).run.run s) R :=
  run_bind h fun _ _ hr => run_pure hr

end Ensures

section Runs

variable {n : Type → Type} [Monad n] [LawfulMonad n] {ε ε' α β σ : Type} {a : α} {s s' : σ}

/-- A program goes on where its first part has ended well. -/
theorem run_bind_of_ok {x : ExceptT ε (StateT σ n) α} {f : α → ExceptT ε (StateT σ n) β}
    (h : x.run.run s = pure (.ok a, s')) : (x >>= f).run.run s = (f a).run.run s' := by
  rw [ExceptT.run_bind, StateT.run_bind, h, pure_bind]

theorem run_mapError_of_ok {f : ε' → ε} {action : StateT σ n (Except ε' α)}
    (h : action.run s = pure (.ok a, s')) :
    (ExceptT.mk do return (← action).mapError f : ExceptT ε (StateT σ n) α).run.run s =
      pure (.ok a, s') := by
  rw [ExceptT.run_mk, StateT.run_bind, h, pure_bind]
  rfl

end Runs

/-! ### The temporary name -/

namespace Path

theorem fileName?_eq_some_iff {path name : String} :
    fileName? path = some name ↔ (parts path).getLast? = some (.name name) := by
  unfold fileName?
  split
  · rename_i text htext
    rw [htext, Option.some.injEq, Option.some.injEq, PathPart.name.injEq]
  · rename_i hnone
    exact iff_of_false nofun fun h => hnone _ h

theorem isPlain_of_fileName? {path name : String} (h : fileName? path = some name) :
    IsPlain name :=
  isPlain_of_mem_parts (List.mem_of_getLast? (fileName?_eq_some_iff.mp h))

/-- The part of a name before its last dot. -/
theorem toList_splitName_fst (name : String) :
    (splitName name).1.toList <+: name.toList ∧
      (name.toList ≠ [] → (splitName name).1.toList ≠ []) := by
  unfold splitName
  dsimp only
  split
  · exact ⟨List.prefix_refl _, id⟩
  · rename_i hbefore
    rw [String.toList_ofList]
    exact ⟨List.take_prefix _ _, fun _ => by simpa using hbefore⟩

/-- A name with another extension is a name. -/
theorem isPlain_extended {name extension : String} (hname : IsPlain name)
    (hslash : '/' ∉ extension.toList) (hextension : extension.toList ≠ []) :
    IsPlain ((splitName name).1 ++ "." ++ extension) := by
  obtain ⟨hstart, hstem⟩ := toList_splitName_fst name
  obtain ⟨hnoslash, hempty, -, -⟩ := isPlain_iff.mp hname
  have hlist : ((splitName name).1 ++ "." ++ extension).toList =
      (splitName name).1.toList ++ '.' :: extension.toList := by
    simp [String.toList_append]
  refine isPlain_of_dotted hlist (hstem hempty) ?_ hextension
  rw [hlist, List.mem_append, List.mem_cons]
  rintro (h | h | h)
  · exact hnoslash (hstart.subset h)
  · cases h
  · exact hslash h

/-- A name that is put behind texts without separators is the last part of the path. -/
theorem getLast?_parts_intercalate {front : List (List Char)} {name : String}
    (hfront : ∀ text ∈ front, '/' ∉ text) (hname : IsPlain name) :
    (parts ("/".intercalate (front.map String.ofList ++ [name]))).getLast? = some (.name name) := by
  obtain ⟨hnoslash, hempty, hhere, hup⟩ := isPlain_iff.mp hname
  have htexts : (front.map String.ofList ++ [name]).map String.toList = front ++ [name.toList] := by
    rw [List.map_append, List.map_map, List.map_singleton]
    congr 1
    exact List.map_id'' (fun _ => String.toList_ofList) front
  have hsplit : ("/".intercalate (front.map String.ofList ++ [name])).toList.splitOnP (· == '/') =
      front ++ [name.toList] := by
    rw [String.toList_intercalate, htexts]
    refine List.splitOn_intercalate '/' (List.forall_mem_append.mpr ⟨hfront, ?_⟩) (by simp)
    exact List.forall_mem_singleton.mpr hnoslash
  rw [parts_eq, partsBetween, hsplit, List.filterMap_append, List.filterMap_cons,
    partOf?_eq_name hempty hhere hup, String.ofList_toList, ← List.append_assoc]
  exact List.getLast?_concat

/-- With another extension, the last part of a path is the name with that extension. -/
theorem fileName?_withExtension {path name extension : String} (hname : fileName? path = some name)
    (hslash : '/' ∉ extension.toList) (hextension : extension.toList ≠ []) :
    fileName? (withExtension path extension) = some ((splitName name).1 ++ "." ++ extension) := by
  rw [fileName?_eq_some_iff]
  unfold withExtension
  rw [hname]
  refine getLast?_parts_intercalate (fun text htext hmem => ?_)
    (isPlain_extended (isPlain_of_fileName? hname) hslash hextension)
  have hbetween : text ∈ Text.splitBy (· == '/') path.toList :=
    List.mem_reverse.mp ((List.dropWhile_suffix _).subset
      (List.mem_of_mem_tail (List.mem_reverse.mp htext)))
  cases Text.test_of_mem_splitFrom (List.forall_mem_nil _) hbetween hmem

/-- A file is not written under its own name first. -/
theorem fileName?_temporary_ne {path name : String} (hname : fileName? path = some name) :
    ∃ other, fileName? (WorkingCopy.temporary path) = some other ∧ other ≠ name := by
  refine ⟨_, fileName?_withExtension hname (by decide) (by decide), fun heq => ?_⟩
  -- then the part before the last dot would be longer than itself
  have hlist : name.toList = ((splitName name).1.toList ++ ".json".toList) ++ '.' :: "tmp".toList := by
    conv_lhs => rw [← heq]
    simp [String.toList_append]
  have hsplit := splitName_of_dotted hlist (by simp) (by decide)
  have hlength := congrArg (fun pair => pair.1.toList.length) hsplit
  simp at hlength

end Path

namespace Tree

variable {tree : Tree} {current path place : String}

/-- A path that ends in a name leads to a place with that name. -/
theorem getLast?_namesOf_placeOf {name : String} (h : Path.fileName? path = some name) :
    (namesOf (placeOf current path)).getLast? = some name := by
  have hparts := List.dropLast_append_getLast? _ (Path.fileName?_eq_some_iff.mp h)
  unfold placeOf
  rw [← hparts, List.foldl_append]
  show (namesOf (child _ name)).getLast? = _
  rw [namesOf_child _ (Path.isPlain_of_fileName? h)]
  exact List.getLast?_concat

/-- A file is written at another place first. -/
theorem placeOf_temporary_ne {name : String} (h : Path.fileName? path = some name) :
    placeOf current (WorkingCopy.temporary path) ≠ placeOf current path := by
  obtain ⟨other, hother, hne⟩ := Path.fileName?_temporary_ne h
  intro heq
  have hlast : (namesOf (placeOf current (WorkingCopy.temporary path))).getLast? = some other :=
    getLast?_namesOf_placeOf hother
  rw [heq, getLast?_namesOf_placeOf h] at hlast
  exact hne (Option.some.inj hlast).symm

/-! ### Replacing the text -/

theorem change_ensures (run : Tree → Except FileFault Tree) (tree : Tree) :
    Ensures ((change run).run tree) fun r =>
      r.1 = .ok () ∧ run tree = .ok r.2 ∨
      (∃ fault, r.1 = .error fault ∧ run tree = .error fault) ∧ r.2 = tree := by
  rw [run_change]
  cases run tree with
  | ok later => exact .pure (.inl ⟨rfl, rfl⟩)
  | error fault => exact .pure (.inr ⟨⟨fault, rfl, rfl⟩, rfl⟩)

end Tree

namespace WorkingCopy

open ContextSets.Tree

variable {tree : Tree} {current now path : String}

/-- What may come of replacing the text of a file: it works, or fails and leaves the file as it
was. -/
def Replaced (current path text : String) (tree : Tree) (r : Except SetError Unit × Tree) : Prop :=
  r.1 = .ok () ∧ r.2.fileAt? (placeOf current path) = some text.toUTF8 ∨
  (∃ e, r.1 = .error e) ∧ r.2.fileAt? (placeOf current path) = tree.fileAt? (placeOf current path)

/-- If what has been written cannot be moved, the file is as it was. -/
theorem fileAt?_of_not_moved {written : Tree} {bytes : ByteArray} {fault : FileFault}
    (hwrite : tree.write current (temporary path) bytes = .ok written)
    (hrename : written.rename current (temporary path) path = .error fault) :
    written.fileAt? (placeOf current path) = tree.fileAt? (placeOf current path) := by
  cases hname : Path.fileName? path with
  | some name =>
    unfold fileAt?
    rw [write_eq hwrite, Function.update_of_ne (placeOf_temporary_ne hname).symm]
  | none =>
    -- the file has been written directly, so the move would have worked
    have hdirect : temporary path = path := by
      unfold temporary Path.withExtension
      rw [hname]
    rw [hdirect] at hwrite hrename
    obtain ⟨place, htarget, -⟩ := except_bind_ok.mp hwrite
    obtain ⟨after, hafter⟩ := rename_of_write hwrite htarget
    rw [hafter] at hrename
    cases hrename

/-- Writing under the temporary name and moving the file to its place. -/
theorem move_replaces (tree : Tree) (current now path text : String) :
    Ensures ((do
      stored ((fileSystem current now).writeText (temporary path) text)
      stored ((fileSystem current now).rename (temporary path) path) :
        ExceptT SetError (StateM Tree) Unit).run.run tree) (Replaced current path text tree) := by
  refine Ensures.except_bind (P := fun r =>
    r.1 = .ok () ∧ tree.write current (temporary path) text.toUTF8 = .ok r.2 ∨
      (∃ e, r.1 = .error e) ∧ r.2 = tree) ?_ ?_ ?_
  · refine Ensures.except_mapError ((change_ensures _ tree).mono ?_)
    rintro ⟨result, later⟩ (⟨rfl, hwrite⟩ | ⟨⟨fault, rfl, -⟩, hsame⟩)
    · exact .inl ⟨rfl, hwrite⟩
    · exact .inr ⟨⟨_, rfl⟩, hsame⟩
  · rintro ⟨⟩ written (⟨-, hwrite⟩ | ⟨⟨_, h⟩, -⟩)
    · refine Ensures.except_mapError ((change_ensures _ written).mono ?_)
      rintro ⟨result, later⟩ (⟨rfl, hrename⟩ | ⟨⟨fault, rfl, hrename⟩, rfl⟩)
      · obtain ⟨bytes, hbytes, hlater⟩ := rename_eq hrename
        rw [write_eq hwrite, Function.update_self] at hbytes
        cases hbytes
        refine .inl ⟨rfl, fileAt?_eq_some_iff.mpr ?_⟩
        rw [hlater, Function.update_self]
      · exact .inr ⟨⟨_, rfl⟩, fileAt?_of_not_moved hwrite hrename⟩
    · cases h
  · rintro e _ (⟨h, -⟩ | ⟨-, rfl⟩)
    · cases h
    · exact .inr ⟨⟨e, rfl⟩, rfl⟩

theorem writeText_replaces (tree : Tree) (current now path text : String) :
    Ensures ((writeText (fileSystem current now) path text).run.run tree)
      (Replaced current path text tree) := by
  unfold writeText
  split
  · exact move_replaces tree current now path text
  · rename_i directory _
    split
    · -- the directory is made first, which makes no files
      refine Ensures.except_bind (P := fun r =>
        r.2.fileAt? (placeOf current path) = tree.fileAt? (placeOf current path)) ?_ ?_ ?_
      · refine Ensures.except_mapError (Ensures.get_bind (Ensures.set_bind (Ensures.run_pure ?_)))
        exact fileAt?_makeDirectories tree current directory _
      · intro _ made hmade
        refine (move_replaces made current now path text).mono fun r hreplaced => ?_
        unfold Replaced at hreplaced ⊢
        rwa [hmade] at hreplaced
      · exact fun e _ hsame => .inr ⟨⟨e, rfl⟩, hsame⟩
    · exact move_replaces tree current now path text

/-! ### Reading the repository -/

/-- The repository that bytes hold. -/
def repositoryOf? (bytes : ByteArray) : Option Repository := do
  let text ← (FileSystem.decode bytes).toOption
  let document ← (Document.ofText text).toOption
  (Repository.ofDocument document).toOption

theorem repositoryOf?_eq_some_iff {bytes : ByteArray} {repo : Repository} :
    repositoryOf? bytes = some repo ↔ ∃ text document, FileSystem.decode bytes = .ok text ∧
      Document.ofText text = .ok document ∧ Repository.ofDocument document = .ok repo := by
  unfold repositoryOf?
  constructor
  · intro h
    cases hdecode : FileSystem.decode bytes with
    | error fault =>
      rw [hdecode] at h
      cases h
    | ok text =>
      rw [hdecode] at h
      cases hdocument : Document.ofText text with
      | error e => simp [Except.toOption, hdocument] at h
      | ok document =>
        cases hrepo : Repository.ofDocument document with
        | error e => simp [Except.toOption, hdocument, hrepo] at h
        | ok other =>
          simp only [Except.toOption, hdocument, hrepo, Option.bind_eq_bind, Option.bind_some,
            Option.some.injEq] at h
          exact ⟨text, document, rfl, hdocument, h ▸ hrepo⟩
  · rintro ⟨text, document, hdecode, hdocument, hrepo⟩
    simp [hdecode, hdocument, hrepo, Except.toOption]

/-- What may come of loading: nothing is there, or a repository is read from the file, or it
fails. -/
inductive Loaded (tree : Tree) (current path : String) :
    Except SetError (Option Repository) → Prop
  | missing (h : tree.open? current path = .error .notFound) : Loaded tree current path (.ok none)
  | found {bytes : ByteArray} {repo : Repository}
      (hbytes : tree.openFile current path = .ok (placeOf current path, bytes))
      (hrepo : repositoryOf? bytes = some repo) : Loaded tree current path (.ok (some repo))
  | failed (e : SetError) : Loaded tree current path (.error e)

theorem exists?_ensures (tree : Tree) (current now path : String) :
    Ensures (((fileSystem current now).exists? path).run tree) fun r =>
      r.2 = tree ∧ (r.1 = .ok false → tree.open? current path = .error .notFound) := by
  unfold FileSystem.exists?
  refine Ensures.run_bind (P := fun r => r.2 = tree ∧ ∀ fault, r.1 = .error fault →
    tree.open? current path = .error fault) ?_ ?_
  · refine Ensures.get_bind (Ensures.run_pure ⟨rfl, fun fault hfault => ?_⟩)
    cases hopen : tree.open? current path with
    | ok found =>
      rw [hopen] at hfault
      cases hfault
    | error other =>
      rw [hopen] at hfault
      exact congrArg Except.error (Except.error.inj hfault)
  · rintro result _ ⟨rfl, hfault⟩
    split
    · exact Ensures.run_pure ⟨rfl, nofun⟩
    · exact Ensures.run_pure ⟨rfl, fun _ => hfault _ rfl⟩
    · exact Ensures.run_pure ⟨rfl, nofun⟩

theorem readText_ensures (tree : Tree) (current now path : String) :
    Ensures (((fileSystem current now).readText path).run tree) fun r =>
      r.2 = tree ∧ r.1 = tree.textAt current path := by
  rw [run_readText]
  exact .pure ⟨rfl, rfl⟩

theorem mapError_eq_ok_iff {ε ε' α : Type} {f : ε → ε'} {x : Except ε α} {a : α} :
    x.mapError f = .ok a ↔ x = .ok a := by
  cases x <;> simp [Except.mapError]

theorem load_ensures (tree : Tree) (current now path : String) :
    Ensures ((load (fileSystem current now) path).run.run tree) fun r =>
      r.2 = tree ∧ Loaded tree current path r.1 := by
  unfold load
  refine Ensures.except_bind (P := fun r => r.2 = tree ∧
    (r.1 = .ok false → tree.open? current path = .error .notFound)) ?_ ?_ ?_
  · refine Ensures.except_mapError ((exists?_ensures tree current now path).mono ?_)
    rintro ⟨result, _⟩ ⟨rfl, hmissing⟩
    exact ⟨rfl, fun hfalse => hmissing (mapError_eq_ok_iff.mp hfalse)⟩
  · rintro found later ⟨hsame, hmissing⟩
    obtain rfl := hsame.symm
    cases found with
    | false => exact Ensures.except_pure ⟨rfl, .missing (hmissing rfl)⟩
    | true =>
      rw [if_pos rfl]
      refine Ensures.except_bind (P := fun r => r.2 = tree ∧
        ∀ text, r.1 = .ok text → tree.textAt current path = .ok text) ?_ ?_ ?_
      · refine Ensures.except_mapError ((readText_ensures tree current now path).mono ?_)
        rintro ⟨result, _⟩ ⟨hsame, hresult⟩
        exact ⟨hsame, fun text htext => hresult ▸ mapError_eq_ok_iff.mp htext⟩
      · rintro text later ⟨hsame, htext⟩
        obtain rfl := hsame.symm
        obtain ⟨bytes, hbytes, hdecode⟩ := textAt_eq_ok_iff.mp (htext text rfl)
        refine Ensures.except_mk_bind (fun document hdocument => ?_) fun e _ => ⟨rfl, .failed e⟩
        refine Ensures.except_mk_bind (fun repo hrepo => ?_) fun e _ => ⟨rfl, .failed e⟩
        exact Ensures.except_pure ⟨rfl, .found hbytes
          (repositoryOf?_eq_some_iff.mpr ⟨text, document, hdecode, hdocument, hrepo⟩)⟩
      · rintro e _ ⟨rfl, -⟩
        exact ⟨rfl, .failed e⟩
  · rintro e _ ⟨rfl, -⟩
    exact ⟨rfl, .failed e⟩

end WorkingCopy

end ContextSets
