import ContextSets.Proofs.ClosureFiles

/-!
# What a change of uses changes

A new use lets the sets that reach its source reach what its target reaches, and nothing else: a
path that takes it runs up to the source and on from the target. When a set is deleted, the others
reach what they have reached by paths without it. Apart from the uses concerned everything stays as
it was, so that taking a new use away again gives the repository that was there.
-/

namespace ContextSets

namespace Repository

open Relation

variable {repo after : Repository} {key name source target : String} {set : ContextSet}

/-! ### One more use -/

/-- One more edge joins what reaches its source with what its target reaches. -/
theorem reaches_of_addEdge {next other : String → List String} {a b : String}
    (hedge : ∀ a b, Leads other a b ↔ Leads next a b ∨ (source = a ∧ target = b)) :
    ReflTransGen (Leads other) a b ↔
      ReflTransGen (Leads next) a b ∨
        (ReflTransGen (Leads next) a source ∧ ReflTransGen (Leads next) target b) := by
  have hmono : ∀ a b, ReflTransGen (Leads next) a b → ReflTransGen (Leads other) a b :=
    ReflTransGen.mono fun a b h => (hedge a b).mpr (.inl h)
  constructor
  · intro hreach
    rcases reflTransGen_iff_eq_or_transGen.mp hreach with rfl | hpath
    · exact .inl .refl
    · have hsplit : ∀ a b, Leads other a b → Leads next a b ∨ (a = source ∧ b = target) := by
        intro a b hab
        rcases (hedge a b).mp hab with hold | ⟨rfl, rfl⟩
        · exact .inl hold
        · exact .inr ⟨rfl, rfl⟩
      exact (transGen_of_addEdge hsplit hpath).imp_left TransGen.to_reflTransGen
  · intro hreach
    rcases hreach with hold | ⟨hup, hon⟩
    · exact hmono a b hold
    · have hnew : Leads other source target := (hedge source target).mpr (.inr ⟨rfl, rfl⟩)
      exact ((hmono a source hup).tail hnew).trans (hmono target b hon)

/-- Taking out a name that was appended leaves the list as it was. -/
theorem filter_appendNew {names : List String} (hnew : name ∉ names) :
    (appendNew names name).filter (· != name) = names := by
  have hkept : names.filter (· != name) = names :=
    List.filter_eq_self.mpr fun other hother => by simpa using ne_of_mem_of_not_mem hother hnew
  rw [appendNew, if_neg (by simpa using hnew), List.filter_append, hkept]
  simp

/-- A use that was added can be taken away again. -/
theorem removeUse_withSet (hset : repo.get? source = some set)
    (hnew : SetName.bare target ∉ set.uses) :
    (removeUse source target).run (repo.withSet (SetName.bare source)
        { set with uses := appendNew set.uses (SetName.bare target) }) = .ok true repo := by
  have huses := filter_appendNew hnew
  refine removeUse_ok.mpr
    ⟨{ set with uses := appendNew set.uses (SetName.bare target) }, get?_withSet_self _ _ _, ?_, ?_⟩
  · rw [huses, appendNew, if_neg (by simpa using hnew), List.length_append]
    simp
  · simp only [huses]
    exact ((withSet_withSet repo _ set _).trans (withSet_self hset)).symm

/-! ### One set less -/

/-- After a deletion there are the edges that neither start nor end at the set that is gone. -/
theorem leads_without {a b : String} :
    Leads (repo.without key).usesOf a b ↔ Leads repo.usesOf a b ∧ a ≠ key ∧ b ≠ key := by
  simp only [Leads, mem_usesOf, get?_without]
  by_cases ha : key = a
  · simp [ha]
  · simp only [if_neg ha, Option.map_eq_some_iff]
    constructor
    · rintro ⟨_, ⟨set, hset, rfl⟩, hused⟩
      obtain ⟨hmem, hkept⟩ := List.mem_filter.mp hused
      exact ⟨⟨set, hset, hmem⟩, Ne.symm ha, by simpa using hkept⟩
    · rintro ⟨⟨set, hset, hmem⟩, -, hb⟩
      exact ⟨_, ⟨set, hset, rfl⟩, List.mem_filter.mpr ⟨hmem, by simpa using hb⟩⟩

/-- Without a set the others reach what they have reached by paths that avoid it. -/
theorem reaches_without {a b : String} (ha : a ≠ key) :
    ReflTransGen (Leads (repo.without key).usesOf) a b ↔
      ∃ path, IsPath repo.usesOf a b path ∧ key ∉ path := by
  constructor
  · intro hreach
    induction hreach using ReflTransGen.head_induction_on with
    | refl => exact ⟨[b], .single b, by simpa using ha.symm⟩
    | head hedge _ ih =>
      obtain ⟨hleads, hsource, htarget⟩ := leads_without.mp hedge
      obtain ⟨path, hpath, havoids⟩ := ih htarget
      exact ⟨_, hpath.cons hleads, by simp [havoids, hsource.symm]⟩
  · rintro ⟨path, hpath, havoids⟩
    have hkept : IsPath (repo.without key).usesOf a b path :=
      { hpath with
        chain := hpath.chain.imp_of_mem_imp fun a b ha hb hleads =>
          leads_without.mpr ⟨hleads, ne_of_mem_of_not_mem ha havoids,
            ne_of_mem_of_not_mem hb havoids⟩ }
    exact hkept.reaches

end Repository

open Relation Repository

/-- When a use is added to a reachable repository, from every set the walk meets what it met before,
and if that includes the source of the use, also what it meets from the target. Nothing changes but
the uses of the source, which the target joins at the end unless it is there, and if it is new,
taking the use away gives back the repository. When a set is deleted, from every other set the walk
meets the ends of the paths that avoid it, and nothing changes but that the set and its name among
the uses of the others are gone. -/
theorem use_changes_are_exact (repo : Repository) (h : repo.Reachable) :
    (∀ source target after, (addUse source target).run repo = .ok () after →
      (∀ name, repo.contains name = true → ∃ before below now,
        repo.transitiveUses name = .ok before ∧ repo.transitiveUses target = .ok below ∧
        after.transitiveUses name = .ok now ∧
        ∀ key, key ∈ now ↔ key ∈ before ∨ (SetName.bare source ∈ before ∧ key ∈ below)) ∧
      after.manifest = repo.manifest ∧
      (∀ key, key ≠ SetName.bare source → after.sets.get? key = repo.sets.get? key) ∧
      (∃ set, repo.get? source = some set ∧ after.get? source =
        some { set with uses := appendNew set.uses (SetName.bare target) }) ∧
      (SetName.bare target ∈ repo.usesOf (SetName.bare source) → after = repo) ∧
      (SetName.bare target ∉ repo.usesOf (SetName.bare source) →
        (removeUse source target).run after = .ok true repo)) ∧
    ∀ name, repo.contains name = true → ∃ set after, (delete name).run repo = .ok set after ∧
      after.manifest = repo.manifest ∧
      (∀ key, after.sets.get? key =
        if key = SetName.bare name then none
        else (repo.sets.get? key).map fun other =>
          { other with uses := other.uses.filter (· != SetName.bare name) }) ∧
      ∀ other, after.contains other = true → ∃ now, after.transitiveUses other = .ok now ∧
        ∀ key, key ∈ now ↔ ∃ path, IsPath repo.usesOf (SetName.bare other) key path ∧
          SetName.bare name ∉ path := by
  have hconsistent := h.consistent
  refine ⟨fun source target after hrun => ?_, fun name hname => ?_⟩
  · obtain ⟨set, hset, htarget, hcycle, rfl⟩ := addUse_ok.mp hrun
    have hafter := hconsistent.addUse hset htarget hcycle
    have huses : repo.usesOf (SetName.bare source) = set.uses := usesOf_of_get? hset
    refine ⟨fun name hname => ?_, rfl, fun key hkey => ?_, ⟨set, hset, ?_⟩, fun hold => ?_,
      fun hnew => removeUse_withSet hset (huses ▸ hnew)⟩
    · obtain ⟨before, hbefore, hwalked⟩ := hconsistent.exists_walk hname
      obtain ⟨below, hbelow, hwalkedBelow⟩ := hconsistent.exists_walk htarget
      obtain ⟨now, hnow, hwalkedNow⟩ := hafter.exists_walk ((contains_withSet_iff hset).trans hname)
      refine ⟨before, below, now, hbefore, hbelow, hnow, fun key => ?_⟩
      rw [hwalkedNow.mem_iff, hwalked.mem_iff, hwalked.mem_iff, hwalkedBelow.mem_iff]
      exact reaches_of_addEdge fun a b => leads_withSet_appendNew hset
    · rw [withSet_sets, Table.get?_insert, if_neg hkey.symm]
    · rw [Repository.get?, withSet_sets, Table.get?_insert, if_pos rfl]
    · have hknown : appendNew set.uses (SetName.bare target) = set.uses :=
        if_pos (List.contains_iff_mem.mpr (huses ▸ hold))
      rw [hknown]
      exact withSet_self hset
  · obtain ⟨set, hset⟩ := Option.isSome_iff_exists.mp hname
    refine ⟨set, _, delete_ok.mpr ⟨hset, rfl⟩, rfl, fun key => ?_, fun other hother => ?_⟩
    · rw [get?_without]
      simp only [eq_comm]
    · obtain ⟨now, hnow, hwalked⟩ := (hconsistent.without (SetName.bare name)).exists_walk hother
      have hne : SetName.bare other ≠ SetName.bare name := by
        intro heq
        rw [Repository.contains, Repository.get?, get?_without, if_pos heq.symm] at hother
        cases hother
      exact ⟨now, hnow, fun key => hwalked.mem_iff.trans (reaches_without hne)⟩

/-- A use of a new set by "core" is met from "app" too, and taken away again. Without "web" there is
still the path by "cli" from "app" to "core". -/
theorem use_changes_are_exact_shared :
    let repo := Operation.afterAll [.replaceBy sharedDocument, .create "log"] ∅
    repo.Reachable ∧
      (∃ after now, (addUse "core" "context:log").run repo = .ok () after ∧
        after.transitiveUses "app" = .ok now ∧ "log" ∈ now ∧
        (removeUse "core" "context:log").run after = .ok true repo) ∧
      ∃ set after now, (delete "web").run repo = .ok set after ∧
        after.transitiveUses "app" = .ok now ∧ "core" ∈ now := by
  intro repo
  have hreachable : repo.Reachable := Reachable.empty.afterAll _
  obtain ⟨hadds, hdeletes⟩ := use_changes_are_exact repo hreachable
  refine ⟨hreachable, ?_, ?_⟩
  · have hrun : ∃ after, (addUse "core" "context:log").run repo = .ok () after := ⟨_, rfl⟩
    obtain ⟨after, hrun⟩ := hrun
    obtain ⟨hwalks, -, -, -, -, hback⟩ := hadds "core" "context:log" after hrun
    obtain ⟨before, below, now, hbefore, hbelow, hnow, hmem⟩ := hwalks "app" (by decide)
    have hwalked : repo.transitiveUses "app" = .ok ["app", "web", "core", "cli"] := by decide
    have hwalkedBelow : repo.transitiveUses "context:log" = .ok ["log"] := by decide
    obtain rfl := Except.ok.inj (hbefore.symm.trans hwalked)
    obtain rfl := Except.ok.inj (hbelow.symm.trans hwalkedBelow)
    exact ⟨after, now, hrun, hnow, (hmem "log").mpr (.inr (by decide)), hback (by decide)⟩
  · obtain ⟨set, after, hrun, -, hsets, hwalks⟩ := hdeletes "web" (by decide)
    have happ : after.contains "app" = true := by
      rw [Repository.contains, Repository.get?, hsets]
      decide
    obtain ⟨now, hnow, hmem⟩ := hwalks "app" happ
    have hcli : "core" ∈ repo.usesOf "cli" := by decide
    have happUses : "cli" ∈ repo.usesOf "app" := by decide
    have hpath : IsPath repo.usesOf "app" "core" ["app", "cli", "core"] :=
      ((IsPath.single "core").cons hcli).cons happUses
    exact ⟨set, after, now, hrun, hnow, (hmem "core").mpr ⟨_, hpath, by decide⟩⟩

end ContextSets
