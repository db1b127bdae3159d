import ContextSets.Proofs.ClosureFiles
import ContextSets.Tokens
import Mathlib

/-!
# Closures of used sets

What a set uses it includes: whatever the used set reaches, its user reaches, so that the user has
all references of the used set and perhaps more. More references come to more files, and to more of
each file. An estimate counts each file of a closure once, so that of the user is never the smaller
one.
-/

namespace ContextSets

open Relation Repository

/-! ### More references -/

namespace Inclusion

/-- What one inclusion has, another has as well: all of the file, or functions of all the names. -/
def Within : Inclusion → Inclusion → Prop
  | _, .whole => True
  | .whole, .functions _ => False
  | .functions refs, .functions others => refs.map (·.name) ⊆ others.map (·.name)

theorem mem_names_union {refs : List FunctionRef} {name : String} :
    name ∈ (union [] refs).map (·.name) ↔ name ∈ refs.map (·.name) := by
  rw [map_name_union, foldl_appendNew]
  simp

/-- More references to a file include more of it. -/
theorem ofAll_within {references others : List FileReference} (h : references ⊆ others) :
    (ofAll references).Within (ofAll others) := by
  by_cases hwhole : ∃ reference ∈ others, reference.isWhole = true
  · rw [ofAll_eq_whole_iff.mpr hwhole]
    trivial
  · have hothers : ∀ reference ∈ others, reference.isWhole = false := by simpa using hwhole
    rw [ofAll_of_parts hothers, ofAll_of_parts fun reference href => hothers reference (h href)]
    intro name hname
    rw [mem_names_union, List.mem_map] at hname ⊢
    obtain ⟨ref, href, rfl⟩ := hname
    obtain ⟨reference, hreference, hmem⟩ := List.mem_flatMap.mp href
    exact ⟨ref, List.mem_flatMap.mpr ⟨reference, h hreference, hmem⟩, rfl⟩

end Inclusion

namespace Closure

variable {manifest : Manifest} {references others : List FileReference}
  {files more : List ResolvedFile}

/-- More references come to the same files and others, with more of each. -/
theorem Collects.within (h : Collects manifest references files)
    (hmore : Collects manifest others more) (hsub : references ⊆ others) {file : ResolvedFile}
    (hfile : file ∈ files) :
    ∃ other ∈ more, other.id = file.id ∧ other.entry = file.entry ∧
      file.inclusion.Within other.inclusion := by
  obtain ⟨reference, href, hid⟩ := h.mem_ids.mp (List.mem_map_of_mem hfile)
  obtain ⟨other, hother, hsame⟩ := List.mem_map.mp (hmore.mem_ids.mpr ⟨reference, hsub href, hid⟩)
  refine ⟨other, hother, hsame, ?_, ?_⟩
  · have hentry := hmore.entries other hother
    rw [hsame, h.entries file hfile] at hentry
    exact (Option.some.inj hentry).symm
  · rw [h.inclusion file hfile, hmore.inclusion other hother, hsame]
    exact Inclusion.ofAll_within (List.filter_subset _ hsub)

/-- The paths of the files are among those of the files that more references come to, also counting
how often they occur. -/
theorem Collects.paths_subperm (h : Collects manifest references files)
    (hmore : Collects manifest others more) (hsub : references ⊆ others) :
    (files.map (·.entry.path)).Subperm (more.map (·.entry.path)) := by
  -- each file has an id of its own, so none is counted for two
  have hnodup : (files.map fun file => (file.id, file.entry)).Nodup := by
    refine .of_map Prod.fst ?_
    rw [List.map_map]
    exact h.nodup
  have hsubset : (files.map fun file => (file.id, file.entry)) ⊆
      more.map fun file => (file.id, file.entry) := by
    intro pair hpair
    obtain ⟨file, hfile, rfl⟩ := List.mem_map.mp hpair
    obtain ⟨other, hother, hid, hentry, -⟩ := h.within hmore hsub hfile
    exact List.mem_map.mpr ⟨other, hother, by rw [hid, hentry]⟩
  obtain ⟨part, hperm, hpart⟩ := hnodup.subperm hsubset
  have hperm' := hperm.map (·.2.path)
  have hpart' := hpart.map (·.2.path)
  rw [List.map_map] at hperm' hpart'
  exact ⟨_, hperm', hpart'⟩

end Closure

/-! ### Estimates -/

namespace TokenEstimate

/-- The estimate for files given by their paths: a token for four characters of each text, begun or
full. -/
def ofReads (read : String → Option String) (paths : List String) : TokenEstimate where
  tokens := ((paths.filterMap read).map fun text => text.length ⌈/⌉ 4).sum
  filesRead := (paths.filterMap read).length
  unreadable := paths.filter fun path => (read path).isNone

theorem estimateTokens_eq (text : String) : estimateTokens text = text.length ⌈/⌉ 4 := by
  rw [estimateTokens, Nat.ceilDiv_eq_add_pred_div]
  rfl

theorem foldl_add (read : String → Option String) (paths : List String) (start : TokenEstimate) :
    paths.foldl (fun estimate path => estimate.add path (read path)) start =
      ⟨start.tokens + (ofReads read paths).tokens,
        start.filesRead + (ofReads read paths).filesRead,
        start.unreadable ++ (ofReads read paths).unreadable⟩ := by
  induction paths generalizing start with
  | nil => simp [ofReads]
  | cons path rest ih =>
    rw [List.foldl_cons, ih]
    cases hread : read path with
    | none => simp [ofReads, add, hread]
    | some text =>
      simp only [ofReads, add, hread, List.filterMap_cons_some hread, List.map_cons, List.sum_cons,
        List.length_cons, estimateTokens_eq, Option.isNone_some, List.filter_cons,
        Bool.false_eq_true, if_false, mk.injEq, and_true]
      omega

/-- Files that are read one after another are counted one by one. -/
theorem run_ofPaths (read : String → Option String) (paths : List String) :
    Id.run (ofPaths (m := Id) (fun path => pure (read path)) paths) = ofReads read paths := by
  have hfold := foldl_add read paths zero
  simpa [ofPaths, zero] using hfold

/-- More files come to more tokens, whether they can be read or not. -/
theorem ofReads_mono (read : String → Option String) {paths others : List String}
    (h : paths.Subperm others) :
    (ofReads read paths).tokens ≤ (ofReads read others).tokens ∧
      (ofReads read paths).filesRead ≤ (ofReads read others).filesRead ∧
      (ofReads read paths).unreadable.Subperm (ofReads read others).unreadable := by
  obtain ⟨part, hperm, hpart⟩ := h
  have hperm' := (hperm.filterMap read).symm
  have hpart' := hpart.filterMap read
  refine ⟨?_, ?_, List.Subperm.filter _ ⟨part, hperm, hpart⟩⟩
  · calc (ofReads read paths).tokens = (ofReads read part).tokens := (hperm'.map _).sum_eq
      _ ≤ (ofReads read others).tokens := (hpart'.map _).sum_le_sum fun _ _ => Nat.zero_le _
  · calc (ofReads read paths).filesRead = (ofReads read part).filesRead := hperm'.length_eq
      _ ≤ (ofReads read others).filesRead := hpart'.length_le

/-- An estimate counts each file once that a set of a closure refers to. -/
structure Counts (read : String → Option String) (closure : Closure) (estimate : TokenEstimate) :
    Prop where
  once : (closure.files.map (·.id)).Nodup
  all : ∀ id, id ∈ closure.files.map (·.id) ↔
    ∃ set ∈ closure.sets, ∃ reference ∈ set.files, reference.id = id
  sums : estimate = ofReads read closure.paths

end TokenEstimate

namespace Repository

variable {repo : Repository} {name : String} {order : List String} {closure : Closure}

/-- Only an existing set is walked from. -/
theorem contains_of_transitiveUses (hrun : repo.transitiveUses name = .ok order) :
    repo.contains name = true := by
  rw [contains]
  cases hroot : repo.get? name with
  | some root => rfl
  | none =>
    rw [transitiveUses, find, hroot] at hrun
    cases hrun

theorem tokens_of_closure (hclosure : repo.closure name = .ok closure)
    (read : String → Option String) :
    repo.tokens name read = .ok (TokenEstimate.ofReads read closure.paths) := by
  rw [tokens, hclosure, ← TokenEstimate.run_ofPaths]
  rfl

/-- The files that an estimate counts are those to which the sets of the closure refer. -/
theorem counts_ofReads
    (hcollects : Closure.Collects repo.manifest (closure.sets.flatMap (·.files)) closure.files)
    (read : String → Option String) :
    TokenEstimate.Counts read closure (TokenEstimate.ofReads read closure.paths) where
  once := hcollects.nodup
  all := fun id => by
    rw [hcollects.mem_ids]
    simp only [List.mem_flatMap]
    constructor
    · rintro ⟨reference, ⟨set, hset, href⟩, hid⟩
      exact ⟨set, hset, reference, href, hid⟩
    · rintro ⟨set, hset, reference, href, hid⟩
      exact ⟨reference, ⟨set, hset, href⟩, hid⟩
  sums := rfl

end Repository

/-- A set of a reachable repository that uses another, directly or through others, has in its
closure all sets of the other's closure, and all its files, each with no less of it. An estimate
counts each file to which a set of a closure refers once, so that of the user has at least as many
tokens, files that were read and paths that could not be read. -/
theorem using_includes_closure (repo : Repository) (h : repo.Reachable) (user used : String)
    (order : List String) (horder : repo.transitiveUses user = .ok order)
    (hused : SetName.bare used ∈ order) :
    ∃ small large, repo.closure used = .ok small ∧ repo.closure user = .ok large ∧
      small.sets ⊆ large.sets ∧
      (∀ file ∈ small.files, ∃ other ∈ large.files, other.id = file.id ∧
        other.entry = file.entry ∧ file.inclusion.Within other.inclusion) ∧
      ∀ read, ∃ less more, repo.tokens used read = .ok less ∧ repo.tokens user read = .ok more ∧
        TokenEstimate.Counts read small less ∧ TokenEstimate.Counts read large more ∧
        less.tokens ≤ more.tokens ∧ less.filesRead ≤ more.filesRead ∧
        less.unreadable.length ≤ more.unreadable.length := by
  have hconsistent := h.consistent
  have huser := contains_of_transitiveUses horder
  obtain ⟨walked, hrun, hwalked⟩ := hconsistent.exists_walk huser
  obtain rfl := Except.ok.inj (horder.symm.trans hrun)
  have hreach := hwalked.mem_iff.mp hused
  obtain ⟨top, htop⟩ := Option.isSome_iff_exists.mp huser
  obtain ⟨root, hroot⟩ := hconsistent.exists_of_reaches htop hreach
  obtain ⟨small, hsmall, hsmallOrder, hsmallStored, hsmallFiles⟩ :=
    hconsistent.closure_collects hroot
  obtain ⟨large, hlarge, hlargeOrder, hlargeStored, hlargeFiles⟩ :=
    hconsistent.closure_collects htop
  -- what the used set reaches, its user reaches as well
  have hsets : small.sets ⊆ large.sets := by
    intro set hset
    obtain ⟨key, hdown, hkey⟩ := (mem_sets_iff hsmallOrder hsmallStored).mp hset
    exact (mem_sets_iff hlargeOrder hlargeStored).mpr ⟨key, hreach.trans hdown, hkey⟩
  have hreferences : small.sets.flatMap (·.files) ⊆ large.sets.flatMap (·.files) := by
    intro reference href
    obtain ⟨set, hset, href⟩ := List.mem_flatMap.mp href
    exact List.mem_flatMap.mpr ⟨set, hsets hset, href⟩
  refine ⟨small, large, hsmall, hlarge, hsets,
    fun file hfile => hsmallFiles.within hlargeFiles hreferences hfile, fun read => ?_⟩
  obtain ⟨htokens, hread, hunreadable⟩ :=
    TokenEstimate.ofReads_mono read (hsmallFiles.paths_subperm hlargeFiles hreferences)
  exact ⟨_, _, tokens_of_closure hsmall read, tokens_of_closure hlarge read,
    counts_ofReads hsmallFiles read, counts_ofReads hlargeFiles read, htokens, hread,
    hunreadable.length_le⟩

/-- Two of the files of the sets that "app" uses, with five characters and with three. -/
def sharedTexts (path : String) : Option String :=
  if path = "lib.rs" then some "parse" else if path = "load.rs" then some "let" else none

theorem using_includes_closure_shared :
    let repo := Operation.afterAll [.replaceBy sharedDocument] ∅
    repo.transitiveUses "app" = .ok ["app", "web", "core", "cli"] ∧
      SetName.bare "context:core" ∈ ["app", "web", "core", "cli"] ∧
      ∃ small large, repo.closure "context:core" = .ok small ∧ repo.closure "app" = .ok large ∧
        small.sets ⊆ large.sets ∧
        TokenEstimate.Counts sharedTexts small ⟨1, 1, []⟩ ∧
        TokenEstimate.Counts sharedTexts large ⟨3, 2, ["run.rs"]⟩ := by
  intro repo
  have horder : repo.transitiveUses "app" = .ok ["app", "web", "core", "cli"] := by decide
  have hused : SetName.bare "context:core" ∈ ["app", "web", "core", "cli"] := by decide
  obtain ⟨small, large, hsmall, hlarge, hsets, -, htokens⟩ := using_includes_closure repo
    (Reachable.empty.afterAll [.replaceBy sharedDocument]) "app" "context:core" _ horder hused
  obtain ⟨less, more, hless, hmore, hcounts, hcountsMore, -⟩ := htokens sharedTexts
  have hknown : repo.tokens "context:core" sharedTexts = .ok ⟨1, 1, []⟩ := by decide
  have hknownMore : repo.tokens "app" sharedTexts = .ok ⟨3, 2, ["run.rs"]⟩ := by decide
  obtain rfl := Except.ok.inj (hless.symm.trans hknown)
  obtain rfl := Except.ok.inj (hmore.symm.trans hknownMore)
  exact ⟨horder, hused, small, large, hsmall, hlarge, hsets, hcounts, hcountsMore⟩

end ContextSets
