import ContextSets.Proofs.ClosureFiles
import ContextSets.Proofs.FileLists

/-!
# Functions of a file set and set back

A set lists a file as a whole or by some of its functions. Setting the functions goes from one form to
the other in the place where the file is listed. The note on a reference is kept from functions to
functions and lost on the way over the whole file.
-/

namespace ContextSets

/-! ### References -/

namespace FileReference

variable {reference : FileReference} {refs : List FunctionRef}

@[simp] theorem id_withRefs (reference : FileReference) (refs : List FunctionRef) :
    (reference.withRefs refs).id = reference.id :=
  Repository.id_ofRefs _ _ _

@[simp] theorem refs_withRefs (reference : FileReference) (refs : List FunctionRef) :
    (reference.withRefs refs).refs = refs := by
  cases refs <;> rfl

theorem isWhole_iff : reference.isWhole = true ↔ reference.refs = [] := by
  cases reference <;> simp [isWhole, refs]

/-- The note stays as long as functions are named. -/
theorem comment_withRefs {note : String} :
    (reference.withRefs refs).comment = some note ↔
      refs ≠ [] ∧ reference.isWhole = false ∧ reference.comment = some note := by
  cases reference <;> cases refs <;> simp [withRefs, ofRefs, comment, isWhole]

/-- The old functions give back the old reference, unless the note was lost on the way. -/
theorem withRefs_withRefs (h : reference.refs = [] ∨ refs ≠ []) :
    (reference.withRefs refs).withRefs reference.refs = reference := by
  cases refs with
  | cons first others => cases reference <;> rfl
  | nil =>
    cases reference with
    | whole id => rfl
    | part id first others comment => simp [FileReference.refs] at h

end FileReference

/-! ### The place of a file in a list -/

namespace Repository

variable {α : Type} {repo after : Repository} {name id : String} {set : ContextSet}
  {front back : List FileReference} {reference : FileReference} {refs : List FunctionRef} {u : Unit}

theorem changeFirst_append_cons {test : α → Bool} {change : α → α} {front back : List α} {x : α}
    (hfront : ∀ y ∈ front, test y = false) (hx : test x = true) :
    changeFirst test change (front ++ x :: back) = front ++ change x :: back := by
  induction front with
  | nil => rw [List.nil_append, List.nil_append, changeFirst, if_pos hx]
  | cons y rest ih =>
    obtain ⟨hy, hrest⟩ := List.forall_mem_cons.mp hfront
    rw [List.cons_append, changeFirst, if_neg (by simp [hy]), ih hrest]
    rfl

/-- What a set lists in front of a file and behind it, where it is not listed again. A file that is not
listed at all has its place at the end. -/
structure ListedAt (set : SetContent) (id : String) (front back : List FileReference) : Prop where
  files_eq : set.files = front ++ (set.file? id).toList ++ back
  last : set.file? id = none → back = []
  others : ∀ other ∈ front ++ back, other.id ≠ id

/-- A file that is listed at most once has a place. -/
theorem exists_listedAt {set : SetContent} (h : (set.files.map (·.id)).count id ≤ 1) :
    ∃ front back, ListedAt set id front back := by
  cases hfile : set.file? id with
  | none =>
    refine ⟨set.files, [], by simp [hfile], fun _ => rfl, ?_⟩
    simpa [SetContent.file?] using hfile
  | some reference =>
    obtain ⟨hid, front, back, hfiles, hfront⟩ := List.find?_eq_some_iff_append.mp hfile
    refine ⟨front, back, by simpa [hfile] using hfiles, by simp [hfile], ?_⟩
    -- the one reference that is found leaves none for the rest of the list
    have hback : (back.map (·.id)).count id = 0 := by
      simp only [beq_iff_eq] at hid
      rw [hfiles, List.map_append, List.map_cons, hid, List.count_append, List.count_cons_self] at h
      omega
    intro other hother
    rcases List.mem_append.mp hother with hother | hother
    · simpa using hfront other hother
    · rintro rfl
      exact List.count_eq_zero.mp hback (List.mem_map_of_mem hother)

/-- A reference has the place at which it is put. -/
theorem file?_put (hid : reference.id = id) (hfiles : set.files = front ++ reference :: back)
    (hothers : ∀ other ∈ front ++ back, other.id ≠ id) :
    set.file? id = some reference ∧ ListedAt set.toSetContent id front back := by
  have hfile : set.file? id = some reference := by
    refine List.find?_eq_some_iff_append.mpr ⟨by simpa using hid, front, back, hfiles, ?_⟩
    exact fun other hother => by simpa using hothers other (List.mem_append_left _ hother)
  exact ⟨hfile, by simpa [hfile] using hfiles, by simp [hfile], hothers⟩

/-! ### Setting functions -/

/-- The functions are set where the file is listed. If it is not, they are set as on the whole file at
the end. -/
theorem setRefs_ok_of_listedAt (hset : repo.get? name = some set)
    (hlisted : ListedAt set.toSetContent id front back) :
    (setRefs name id refs).run repo = .ok u after ↔
      repo.manifest.contains id = true ∧
        after = repo.withSet (SetName.bare name)
          { set with
            files := front ++ ((set.file? id).getD (.whole id)).withRefs refs :: back } := by
  have hlist : (if set.hasFile id then changeFirst (·.id == id) (·.withRefs refs) set.files
      else set.files ++ [.ofRefs id refs none]) =
        front ++ ((set.file? id).getD (.whole id)).withRefs refs :: back := by
    have hfiles := hlisted.files_eq
    cases hfile : set.file? id with
    | none =>
      obtain rfl := hlisted.last hfile
      rw [SetContent.hasFile, hfile, hfiles, hfile]
      simp [FileReference.withRefs, FileReference.id, FileReference.comment]
    | some old =>
      rw [hfile, Option.toList_some, List.append_assoc, List.singleton_append] at hfiles
      rw [SetContent.hasFile, hfile, hfiles]
      refine changeFirst_append_cons (fun other hother => ?_) (by simpa using file?_id hfile)
      simpa using hlisted.others other (List.mem_append_left _ hother)
  simp only [setRefs_ok, hset, Option.some.injEq, exists_eq_left', hlist]

/-- A file that a set lists is registered, so its functions can be set, and the old functions set
back. -/
theorem setRefs_back (h : repo.Consistent) (hset : repo.get? name = some set)
    (hlisted : ListedAt set.toSetContent id front back) (hfile : set.file? id = some reference)
    {old : List FunctionRef} (hold : reference.refs = old) (hback : old = [] ∨ refs ≠ []) :
    (do setRefs name id refs; setRefs name id old).run repo = .ok () repo := by
  subst hold
  have hid : reference.id = id := file?_id hfile
  have hregistered : repo.manifest.contains id = true :=
    (h.stored _ set hset).registered id
      (mem_mentioned.mpr (.inl ⟨reference, List.mem_of_find?_eq_some hfile, hid⟩))
  -- the set in between lists the file at the same place
  let between : ContextSet := { set with files := front ++ reference.withRefs refs :: back }
  obtain ⟨hput, hsame⟩ : between.file? id = some (reference.withRefs refs) ∧
      ListedAt between.toSetContent id front back :=
    file?_put ((FileReference.id_withRefs _ _).trans hid) rfl hlisted.others
  have hfirst : (setRefs name id refs).run repo =
      .ok () (repo.withSet (SetName.bare name) between) :=
    (setRefs_ok_of_listedAt hset hlisted).mpr ⟨hregistered, by rw [hfile]; rfl⟩
  refine Edit.bind_ok.mpr ⟨(), _, hfirst,
    (setRefs_ok_of_listedAt (get?_withSet_self _ _ _) hsame).mpr ⟨hregistered, ?_⟩⟩
  have hfiles : front ++ reference :: back = set.files := by
    simp [hlisted.files_eq, hfile]
  rw [hput, Option.getD_some, FileReference.withRefs_withRefs hback, hfiles, withSet_withSet,
    withSet_self hset]

theorem setRefs_succeeds_iff :
    (∃ after, (setRefs name id refs).run repo = .ok () after) ↔
      repo.manifest.contains id = true ∧ repo.contains name = true := by
  simp only [setRefs_ok, contains, Option.isSome_iff_exists]
  constructor
  · rintro ⟨_, hid, set, hset, -⟩
    exact ⟨hid, set, hset⟩
  · rintro ⟨hid, set, hset⟩
    exact ⟨_, hid, set, hset, rfl⟩

end Repository

open Repository

/-- The functions of a file can be set in a set exactly if the file is registered and the set exists.
A set that lists the file at most once then lists it once, where it did or else at the end, by just
these functions, and as a whole if there are none; the note is that of the old reference if that named
functions and the new one does. Nothing else changes. From the whole file to any functions and back to
none, and from functions to others and back to the old ones, the repository is as it was. -/
theorem function_refs_are_set_and_set_back (repo : Repository) (h : repo.Reachable)
    (name id : String) (refs : List FunctionRef) :
    ((∃ after, (setRefs name id refs).run repo = .ok () after) ↔
      repo.manifest.contains id = true ∧ repo.contains name = true) ∧
    ∀ set, repo.get? name = some set → (set.files.map (·.id)).count id ≤ 1 →
      (∀ after, (setRefs name id refs).run repo = .ok () after →
        ∃ front reference back, ListedAt set.toSetContent id front back ∧
          after.get? name = some { set with files := front ++ reference :: back } ∧
          reference.id = id ∧ reference.refs = refs ∧ (reference.isWhole = true ↔ refs = []) ∧
          (∀ note, reference.comment = some note ↔ refs ≠ [] ∧
            ∃ old, set.file? id = some old ∧ old.isWhole = false ∧ old.comment = some note) ∧
          (∀ key, key ≠ SetName.bare name → after.sets.get? key = repo.sets.get? key) ∧
          after.manifest = repo.manifest) ∧
      (set.file? id = some (.whole id) →
        (do setRefs name id refs; setRefs name id []).run repo = .ok () repo) ∧
      ∀ first others comment, set.file? id = some (.part id first others comment) → refs ≠ [] →
        (do setRefs name id refs; setRefs name id (first :: others)).run repo = .ok () repo := by
  refine ⟨setRefs_succeeds_iff, fun set hset hcount => ?_⟩
  obtain ⟨front, back, hlisted⟩ := exists_listedAt hcount
  refine ⟨fun after hrun => ?_, fun hwhole => ?_, fun first others comment hpart hrefs => ?_⟩
  · obtain ⟨-, rfl⟩ := (setRefs_ok_of_listedAt hset hlisted).mp hrun
    refine ⟨front, ((set.file? id).getD (.whole id)).withRefs refs, back, hlisted,
      get?_withSet_self _ _ _, ?_, FileReference.refs_withRefs _ _, ?_, fun note => ?_,
      fun key hkey => ?_, rfl⟩
    · rw [FileReference.id_withRefs]
      cases hfile : set.file? id with
      | none => rfl
      | some old => exact file?_id hfile
    · rw [FileReference.isWhole_iff, FileReference.refs_withRefs]
    · rw [FileReference.comment_withRefs]
      cases set.file? id with
      | none => simp [FileReference.isWhole]
      | some old => simp
    · rw [withSet_sets, Table.get?_insert, if_neg hkey.symm]
  · exact setRefs_back h.consistent hset hlisted hwhole rfl (.inl rfl)
  · exact setRefs_back h.consistent hset hlisted hpart rfl (.inr hrefs)

theorem function_refs_are_set_and_set_back_shared :
    let repo := Operation.afterAll [.replaceBy sharedDocument] ∅
    repo.Reachable ∧ ∃ set after front reference back, repo.get? "context:app" = some set ∧
      (set.files.map (·.id)).count "f1" ≤ 1 ∧
      set.file? "f1" = some (.part "f1" { name := "parse", line := some 3 } [] (some "entry")) ∧
      (setRefs "context:app" "f1" [{ name := "main" }]).run repo = .ok () after ∧
      after.get? "context:app" = some { set with files := front ++ reference :: back } ∧
      reference.comment = some "entry" ∧
      (do setRefs "context:app" "f1" [{ name := "main" }]
          setRefs "context:app" "f1" [{ name := "parse", line := some 3 }]).run repo =
        .ok () repo := by
  intro repo
  have hreachable : repo.Reachable := Reachable.empty.afterAll _
  have hknown : repo.manifest.contains "f1" = true ∧ repo.contains "context:app" = true := by decide
  obtain ⟨set, hset⟩ := Option.isSome_iff_exists.mp hknown.2
  have hfiles : (repo.get? "context:app").map (·.files) =
      some [.part "f1" { name := "parse", line := some 3 } [] (some "entry")] := by decide
  rw [hset, Option.map_some, Option.some.injEq] at hfiles
  have hcount : (set.files.map (·.id)).count "f1" ≤ 1 := by
    rw [hfiles]
    decide
  have hfile : set.file? "f1" =
      some (.part "f1" { name := "parse", line := some 3 } [] (some "entry")) := by
    rw [SetContent.file?, hfiles]
    rfl
  obtain ⟨hsucceeds, hall⟩ :=
    function_refs_are_set_and_set_back repo hreachable "context:app" "f1" [{ name := "main" }]
  obtain ⟨after, hrun⟩ := hsucceeds.mpr hknown
  obtain ⟨heffect, -, hback⟩ := hall set hset hcount
  obtain ⟨front, reference, back, -, hafter, -, -, -, hnote, -, -⟩ := heffect after hrun
  have hkept : reference.comment = some "entry" :=
    (hnote "entry").mpr ⟨by simp, _, hfile, rfl, rfl⟩
  exact ⟨hreachable, set, after, front, reference, back, hset, hcount, hfile, hrun, hafter, hkept,
    hback _ _ _ hfile (by simp)⟩

end ContextSets
