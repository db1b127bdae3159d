import ContextSets.Proofs.Consistent
import ContextSets.Proofs.Manifest

/-!
# How documents are taken in

A document is taken in piece by piece: files in the order of their ids, sets in the order of their
keys, and then one use after another. For each piece, when it is accepted and what it does. Every
repository that comes out is consistent.
-/

namespace ContextSets

namespace Repository

open Edit Relation

variable {repo after : Repository}

/-! ### Files -/

/-- A file by its id, as it is registered. -/
def byId (entry : String × FileEntry) : String × FileEntry :=
  (entry.1, entry.2.normalized)

/-- The id of a file by its normalized path. -/
def byPath (entry : String × FileEntry) : String × String :=
  (Manifest.normalize entry.2.path, entry.1)

/-- Files are registered if their ids and their normalized paths are new, also to each other. -/
theorem registerAll_eq_ok {entries : List (String × FileEntry)} {manifest after : Manifest} :
    registerAll entries manifest = .ok after ↔
      manifest.files.New (entries.map byId) ∧
        manifest.ids.New (entries.map byPath) ∧
        after = ⟨manifest.files.insertAll (entries.map byId),
          manifest.ids.insertAll (entries.map byPath)⟩ := by
  induction entries generalizing manifest with
  | nil => simp [registerAll, Table.new_nil, Table.insertAll, eq_comm]
  | cons entry rest ih =>
    obtain ⟨id, file⟩ := entry
    -- either way the head is checked against the tables, and the rest against them with the head
    simp only [registerAll, except_bind_ok, Manifest.insert_eq_ok, List.map_cons, byId, byPath,
      Table.new_cons]
    constructor
    · intro hgiven
      obtain ⟨_, ⟨hid, hpath, rfl⟩, hrest⟩ := hgiven
      obtain ⟨hids, hpaths, rfl⟩ := ih.mp hrest
      exact ⟨⟨hid, hids⟩, ⟨hpath, hpaths⟩, rfl⟩
    · intro hgiven
      obtain ⟨⟨hid, hids⟩, ⟨hpath, hpaths⟩, rfl⟩ := hgiven
      exact ⟨_, ⟨hid, hpath, rfl⟩, ih.mpr ⟨hids, hpaths, rfl⟩⟩

/-! ### Sets -/

theorem enroll_eq_ok {name : String} {set : SetContent} :
    repo.enroll name set = .ok after ↔
      SetName.fault? (SetName.bare name) = none ∧ repo.sets.get? (SetName.bare name) = none ∧
        (∀ id ∈ set.mentioned, repo.manifest.contains id = true) ∧
        after = repo.withSet (SetName.bare name)
          { set with name := SetName.bare name, uses := [] } := by
  simp only [enroll, except_bind_ok, SetError.checkName_eq_ok, exists_const]
  refine and_congr_right fun _ => ?_
  by_cases hfree : repo.sets.get? (SetName.bare name) = none
  · rw [Table.contains_eq_false_iff.mpr hfree, if_neg Bool.false_ne_true]
    simp only [hfree, true_and]
    cases hmissing : set.mentioned.find? (!repo.manifest.contains ·) with
    | some id =>
      have hid : repo.manifest.contains id = false := by simpa using List.find?_some hmissing
      constructor
      · intro h
        cases h
      · intro hgiven
        obtain ⟨hall, -⟩ := hgiven
        rw [hall id (List.mem_of_find?_eq_some hmissing)] at hid
        exact absurd hid.symm Bool.false_ne_true
    | none =>
      have hall : ∀ id ∈ set.mentioned, repo.manifest.contains id = true := by
        simpa using hmissing
      constructor
      · intro h
        cases h
        exact ⟨hall, rfl⟩
      · intro hgiven
        obtain ⟨-, rfl⟩ := hgiven
        rfl
  · have hknown : repo.sets.contains (SetName.bare name) = true :=
      Option.isSome_iff_ne_none.mpr hfree
    rw [if_pos hknown]
    constructor
    · intro h
      cases h
    · intro hgiven
      obtain ⟨h, -⟩ := hgiven
      exact absurd h hfree

/-- A set of a document as it is taken in, under its bare name and without its uses. -/
def enrolled (entry : String × SetContent) : String × ContextSet :=
  (SetName.bare entry.1, { entry.2 with name := SetName.bare entry.1, uses := [] })

/-- Sets are taken in if their bare names are valid and new, also to each other, and their files are
registered. -/
theorem enrollAll_eq_ok {entries : List (String × SetContent)} :
    enrollAll entries repo = .ok after ↔
      (∀ entry ∈ entries, SetName.fault? (SetName.bare entry.1) = none) ∧
        repo.sets.New (entries.map enrolled) ∧
        (∀ entry ∈ entries, ∀ id ∈ entry.2.mentioned, repo.manifest.contains id = true) ∧
        after = { repo with sets := repo.sets.insertAll (entries.map enrolled) } := by
  induction entries generalizing repo with
  | nil =>
    have hrun : enrollAll [] repo = .ok after ↔ after = repo := by
      rw [enrollAll, Except.ok.injEq]
      exact eq_comm
    simp [hrun, Table.new_nil, Table.insertAll]
  | cons entry rest ih =>
    obtain ⟨name, set⟩ := entry
    simp only [enrollAll, except_bind_ok, enroll_eq_ok, List.map_cons, enrolled, Table.new_cons,
      List.forall_mem_cons]
    constructor
    · intro hgiven
      obtain ⟨_, ⟨hvalid, hfree, hfiles, rfl⟩, hrest⟩ := hgiven
      obtain ⟨hvalids, hnew, hregistered, rfl⟩ := ih.mp hrest
      exact ⟨⟨hvalid, hvalids⟩, ⟨hfree, hnew⟩, ⟨hfiles, hregistered⟩, rfl⟩
    · intro hgiven
      obtain ⟨⟨hvalid, hvalids⟩, ⟨hfree, hnew⟩, ⟨hfiles, hregistered⟩, rfl⟩ := hgiven
      exact ⟨_, ⟨hvalid, hfree, hfiles, rfl⟩, ih.mpr ⟨hvalids, hnew, hregistered, rfl⟩⟩

/-! ### Uses -/

/-- The bare names used by a name in a list of uses. -/
def targetsOf (uses : List (String × String)) (key : String) : List String :=
  (uses.filter (SetName.bare ·.1 == key)).map (SetName.bare ·.2)

/-- An edge of a repository or of a list of uses. -/
def Joint (repo : Repository) (uses : List (String × String)) (source target : String) : Prop :=
  Leads repo.usesOf source target ∨
    ∃ use ∈ uses, SetName.bare use.1 = source ∧ SetName.bare use.2 = target

theorem addUses_cons_ok {source target : String} {rest : List (String × String)} {u : Unit} :
    (addUses ((source, target) :: rest)).run repo = .ok u after ↔
      ∃ mid, (addUse source target).run repo = .ok () mid ∧
        (addUses rest).run mid = .ok u after := by
  rw [addUses, bind_ok]
  exact ⟨fun ⟨(), mid, h⟩ => ⟨mid, h⟩, fun ⟨mid, h⟩ => ⟨(), mid, h⟩⟩

/-- Adding uses changes nothing but uses, to which it appends those that are new in order. -/
theorem addUses_effect {uses : List (String × String)} {u : Unit}
    (hrun : (addUses uses).run repo = .ok u after) :
    after.manifest = repo.manifest ∧
      ∀ key, after.sets.get? key = (repo.sets.get? key).map fun set =>
        { set with uses := (targetsOf uses key).foldl appendNew set.uses } := by
  induction uses generalizing repo with
  | nil =>
    cases hrun
    exact ⟨rfl, fun key => (Option.map_id_apply).symm⟩
  | cons use rest ih =>
    obtain ⟨source, target⟩ := use
    obtain ⟨mid, hmid, hrest⟩ := addUses_cons_ok.mp hrun
    obtain ⟨set, hset, -, -, rfl⟩ := addUse_ok.mp hmid
    obtain ⟨hmanifest, hsets⟩ := ih hrest
    refine ⟨hmanifest, fun key => ?_⟩
    have hget : repo.sets.get? (SetName.bare source) = some set := hset
    -- only the source of the first use has changed before the rest is added
    rw [hsets, withSet_sets, Table.get?_insert]
    by_cases hkey : SetName.bare source = key
    · subst hkey
      simp [targetsOf, hget]
    · simp [targetsOf, hkey]

/-- Adding a use adds one edge. -/
theorem leads_withSet_appendNew {source target : String} {set : ContextSet}
    (hset : repo.get? source = some set) {a b : String} :
    Leads (repo.withSet (SetName.bare source)
        { set with uses := appendNew set.uses (SetName.bare target) }).usesOf a b ↔
      Leads repo.usesOf a b ∨ (SetName.bare source = a ∧ SetName.bare target = b) := by
  unfold Leads
  rw [usesOf_withSet]
  by_cases hkey : SetName.bare source = a
  · subst hkey
    rw [if_pos rfl, mem_appendNew, usesOf_of_get? hset]
    simp [eq_comm]
  · simp [hkey]

/-- A use that is added moves from the list to the repository. -/
theorem joint_withSet {source target : String} {rest : List (String × String)} {set : ContextSet}
    (hset : repo.get? source = some set) {a b : String} :
    Joint (repo.withSet (SetName.bare source)
        { set with uses := appendNew set.uses (SetName.bare target) }) rest a b ↔
      Joint repo ((source, target) :: rest) a b := by
  simp only [Joint, leads_withSet_appendNew hset, List.exists_mem_cons_iff, or_assoc]

theorem contains_withSet_iff {source name : String} {old set : ContextSet}
    (hold : repo.get? source = some old) :
    (repo.withSet (SetName.bare source) set).contains name = repo.contains name := by
  have hget : repo.sets.get? (SetName.bare source) = some old := hold
  unfold contains Repository.get?
  rw [withSet_sets, Table.get?_insert]
  split
  · rename_i heq
    rw [← heq, hget]
    rfl
  · rfl

/-- Uses can be added one after another exactly if all their sets exist and the uses old and new
together have no cycle, whatever the order. -/
theorem addUses_ok_iff {uses : List (String × String)} (h : repo.Consistent) :
    (∃ after, (addUses uses).run repo = .ok () after) ↔
      (∀ use ∈ uses, repo.contains use.1 = true ∧ repo.contains use.2 = true) ∧
        ∀ name, ¬ TransGen (Joint repo uses) name name := by
  induction uses generalizing repo with
  | nil =>
    have hjoint : ∀ a b, Joint repo [] a b → Leads repo.usesOf a b :=
      fun a b hab => hab.elim id (by simp)
    refine ⟨fun _ => ⟨by simp, fun name hcycle => ?_⟩, fun _ => ⟨repo, rfl⟩⟩
    exact h.noCycle name (TransGen.mono hjoint name name hcycle)
  | cons use rest ih =>
    obtain ⟨source, target⟩ := use
    constructor
    -- old and new uses together stay the same when one of them is added
    · intro hgiven
      obtain ⟨after, hrun⟩ := hgiven
      obtain ⟨mid, hmid, hrest⟩ := addUses_cons_ok.mp hrun
      obtain ⟨set, hset, htarget, hcycle, rfl⟩ := addUse_ok.mp hmid
      obtain ⟨hknown, hacyclic⟩ := (ih (h.addUse hset htarget hcycle)).mp ⟨after, hrest⟩
      simp only [contains_withSet_iff hset] at hknown
      refine ⟨List.forall_mem_cons.mpr ⟨⟨?_, htarget⟩, hknown⟩, fun name hname => ?_⟩
      · exact Option.isSome_iff_exists.mpr ⟨set, hset⟩
      · exact hacyclic name (TransGen.mono (fun a b => (joint_withSet hset).mpr) name name hname)
    · intro hgiven
      obtain ⟨hknown, hacyclic⟩ := hgiven
      obtain ⟨⟨hsource, htarget⟩, hrest⟩ := List.forall_mem_cons.mp hknown
      obtain ⟨set, hset⟩ := Option.isSome_iff_exists.mp hsource
      have hcycle : repo.cycleIfUsed source target = none := by
        rw [cycleIfUsed_eq_none_iff h.noCycle]
        intro hback
        -- the new edge would close the way back to a cycle
        have hedge : Joint repo ((source, target) :: rest) (SetName.bare source)
            (SetName.bare target) := .inr ⟨_, List.mem_cons_self, rfl, rfl⟩
        exact hacyclic _ (TransGen.head' hedge (ReflTransGen.mono (fun a b => .inl) _ _ hback))
      obtain ⟨after, hafter⟩ := (ih (h.addUse hset htarget hcycle)).mpr (by
        simp only [contains_withSet_iff hset]
        exact ⟨hrest, fun name hname =>
          hacyclic name (TransGen.mono (fun a b => (joint_withSet hset).mp) name name hname)⟩)
      exact ⟨after, addUses_cons_ok.mpr
        ⟨_, addUse_ok.mpr ⟨set, hset, htarget, hcycle, rfl⟩, hafter⟩⟩

/-! ### Whole documents -/

theorem ofDocument_eq_ok {document : Document} :
    ofDocument document = .ok repo ↔
      ∃ manifest enrolled, registerAll document.files.entries ∅ = .ok manifest ∧
        enrollAll document.sets.entries ⟨manifest, ∅⟩ = .ok enrolled ∧
        (addUses (usesIn document.sets.entries)).run enrolled = .ok () repo := by
  simp only [ofDocument, except_bind_ok]
  refine exists_congr fun manifest => ?_
  rw [← exists_and_left]
  refine exists_congr fun enrolled => and_congr_right fun _ => and_congr_right fun _ => ?_
  cases (addUses (usesIn document.sets.entries)).run enrolled with
  | error error after =>
    constructor
    · intro h
      cases h
    · intro h
      cases h
  | ok u after =>
    constructor
    · intro h
      cases h
      rfl
    · intro h
      cases h
      rfl

/-! ### Consistency -/

theorem Consistent.enroll {name : String} {set : SetContent} (h : repo.Consistent)
    (hrun : repo.enroll name set = .ok after) : after.Consistent := by
  obtain ⟨hvalid, -, hfiles, rfl⟩ := enroll_eq_ok.mp hrun
  exact h.add (SetName.bare_bare name) hvalid rfl rfl hfiles

theorem Consistent.enrollAll {entries : List (String × SetContent)} (h : repo.Consistent)
    (hrun : enrollAll entries repo = .ok after) : after.Consistent := by
  induction entries generalizing repo with
  | nil =>
    cases hrun
    exact h
  | cons entry rest ih =>
    obtain ⟨mid, hmid, hrest⟩ := except_bind_ok.mp hrun
    exact ih (h.enroll hmid) hrest

theorem Consistent.addUses {uses : List (String × String)} {u : Unit} (h : repo.Consistent)
    (hrun : (addUses uses).run repo = .ok u after) : after.Consistent := by
  induction uses generalizing repo with
  | nil =>
    cases hrun
    exact h
  | cons use rest ih =>
    obtain ⟨mid, hmid, hrest⟩ := addUses_cons_ok.mp hrun
    obtain ⟨set, hset, htarget, hcycle, rfl⟩ := addUse_ok.mp hmid
    exact ih (h.addUse hset htarget hcycle) hrest

theorem consistent_enrolled {entries : List (String × SetContent)} {manifest : Manifest}
    (h : enrollAll entries ⟨manifest, ∅⟩ = .ok repo) : repo.Consistent := by
  have hstart : (⟨manifest, ∅⟩ : Repository).Consistent :=
    Consistent.empty.withManifest fun _ _ hset => nomatch hset
  exact hstart.enrollAll h

theorem consistent_ofDocument {document : Document} (h : ofDocument document = .ok repo) :
    repo.Consistent := by
  obtain ⟨_, enrolled, -, henrolled, huses⟩ := ofDocument_eq_ok.mp h
  exact (consistent_enrolled henrolled).addUses huses

end Repository

end ContextSets
