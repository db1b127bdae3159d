import ContextSets.Proofs.ClosureFiles

/-!
# Notes on the files of a closure

A file of a closure has the note of the reference by which it came in. A reference to the whole file
carries no note, so this is the note of the first reference to some functions of the file, unless a
reference to the whole file comes before that one. What comes later does not change it.
-/

namespace ContextSets

open Repository

namespace FileReference

variable {reference : FileReference} {references : List FileReference}

/-- The note on the first reference to some functions. -/
def firstNote (references : List FileReference) : Option String :=
  (references.find? (!·.isWhole)).bind (·.comment)

theorem comment_of_isWhole (h : reference.isWhole = true) : reference.comment = none := by
  cases reference with
  | whole id => rfl
  | part id first others comment => cases h

theorem firstNote_cons_of_part (h : reference.isWhole = false) :
    firstNote (reference :: references) = reference.comment := by
  simp [firstNote, h]

/-- The note of the first reference is the first note, unless it is a reference to the whole file and a
note comes later. -/
theorem comment_eq_firstNote_iff :
    reference.comment = firstNote (reference :: references) ↔
      (reference.isWhole = true → firstNote (reference :: references) = none) := by
  cases hwhole : reference.isWhole with
  | true => simp [comment_of_isWhole hwhole, eq_comm]
  | false => simp [firstNote_cons_of_part hwhole]

end FileReference

/-- A file of a closure has the note of the first reference to it. -/
theorem Closure.Collects.exists_first {manifest : Manifest} {references : List FileReference}
    {files : List ResolvedFile} {file : ResolvedFile} (h : Collects manifest references files)
    (hfile : file ∈ files) :
    ∃ first rest, references.filter (·.id == file.id) = first :: rest ∧
      file.comment = first.comment := by
  obtain ⟨first, hfound, hcomment⟩ := Option.map_eq_some_iff.mp (h.comment file hfile)
  rw [← List.head?_filter] at hfound
  obtain ⟨rest, hrest⟩ := List.head?_eq_some_iff.mp hfound
  exact ⟨first, rest, hrest, hcomment.symm⟩

/-- In the closure of a set of a reachable repository, each file has the note of the first reference to
it over the sets in depth-first pre-order. That is the note of the first reference to some functions of
the file, except where a reference to the whole file comes before one with a note: then the file has
none. -/
theorem closure_notes_come_first (repo : Repository) (h : repo.Reachable) (name : String)
    (hname : repo.contains name = true) :
    ∃ closure, repo.closure name = .ok closure ∧
      DepthFirst repo.usesOf [] [SetName.bare name] (closure.sets.map (·.name)) ∧
      (∀ set ∈ closure.sets, repo.sets.get? set.name = some set) ∧
      ∀ file ∈ closure.files,
        let own := (closure.sets.flatMap (·.files)).filter (·.id == file.id)
        ∃ first rest, own = first :: rest ∧ file.comment = first.comment ∧
          (file.comment = FileReference.firstNote own ↔
            (first.isWhole = true → FileReference.firstNote own = none)) := by
  obtain ⟨root, hroot⟩ := Option.isSome_iff_exists.mp hname
  obtain ⟨closure, hclosure, horder, hstored, hcollects⟩ := h.consistent.closure_collects hroot
  refine ⟨closure, hclosure, horder, hstored, fun file hfile => ?_⟩
  obtain ⟨first, rest, hown, hcomment⟩ := hcollects.exists_first hfile
  refine ⟨first, rest, hown, hcomment, ?_⟩
  rw [hown, hcomment]
  exact FileReference.comment_eq_firstNote_iff

/-- Sets that refer to a file by a function first, and to another as a whole first. -/
def notedDocument : Document where
  sets := ⟨[
    ("context:app", {
      files := [.part "f1" { name := "parse" } [] (some "entry")]
      uses := ["context:core", "context:cli"] }),
    ("context:cli", { files := [.part "f2" { name := "run" } [] (some "late")] }),
    ("context:core", { files := [.whole "f1", .whole "f2"] })], by decide⟩
  files := ⟨[("f1", { path := "lib.rs" }), ("f2", { path := "run.rs" })], by decide⟩

/-- The repository with these sets. -/
def notedRepository : Repository :=
  Operation.afterAll [.replaceBy notedDocument] ∅

theorem closure_notes_come_first_entry :
    notedRepository.contains "context:app" = true ∧
      ∃ closure, notedRepository.closure "context:app" = .ok closure ∧
        closure.sets.map (·.name) = ["app", "core", "cli"] ∧
        closure.files.map (fun file => (file.id, file.inclusion, file.comment)) =
          [("f1", .whole, some "entry"), ("f2", .whole, none)] ∧
        ∀ file ∈ closure.files, ∃ first rest,
          (closure.sets.flatMap (·.files)).filter (·.id == file.id) = first :: rest ∧
            file.comment = first.comment := by
  have hname : notedRepository.contains "context:app" = true := by decide
  have hfound : (notedRepository.closure "context:app").map (fun closure =>
      (closure.sets.map (·.name),
        closure.files.map fun file => (file.id, file.inclusion, file.comment))) =
    .ok (["app", "core", "cli"], [("f1", .whole, some "entry"), ("f2", .whole, none)]) := by decide
  obtain ⟨closure, hclosure, -, -, hnotes⟩ := closure_notes_come_first notedRepository
    (Reachable.empty.afterAll [.replaceBy notedDocument]) "context:app" hname
  rw [hclosure] at hfound
  obtain ⟨hsets, hfiles⟩ := Prod.mk.inj (Except.ok.inj hfound)
  refine ⟨hname, closure, hclosure, hsets, hfiles, fun file hfile => ?_⟩
  obtain ⟨first, rest, hown, hcomment, -⟩ := hnotes file hfile
  exact ⟨first, rest, hown, hcomment⟩

/-- A file that comes in as a whole has no note, although a later reference to a function of it has
one. -/
theorem whole_reference_hides_note :
    (notedRepository.closure "context:app").map (fun closure => closure.files.map fun file =>
        (file.id, file.comment, FileReference.firstNote
          ((closure.sets.flatMap (·.files)).filter (·.id == file.id)))) =
      .ok [("f1", some "entry", some "entry"), ("f2", none, some "late")] := by
  decide

end ContextSets
