import ContextSets.Proofs.Table
import ContextSets.Repository.Basic

/-!
# Runs of edits

How the steps of an edit run, and when a refused edit leaves everything as it was. An edit that first
only asks and then changes something without fail is all or nothing.
-/

namespace ContextSets

theorem except_bind_ok {ε α β : Type} {x : Except ε α} {f : α → Except ε β} {value : β} :
    (x >>= f) = .ok value ↔ ∃ a, x = .ok a ∧ f a = .ok value := by
  cases x <;> simp [bind, Except.bind]

theorem SetError.checkName_eq_ok {name : String} {u : Unit} :
    SetError.checkName name = .ok u ↔ SetName.fault? name = none := by
  unfold SetError.checkName
  cases SetName.fault? name <;> simp

namespace Repository

/-- The repository with a set stored under a bare name. -/
def withSet (repo : Repository) (key : String) (set : ContextSet) : Repository :=
  { repo with sets := repo.sets.insert key set }

/-- The repository with another manifest. -/
def withManifest (repo : Repository) (manifest : Manifest) : Repository :=
  { repo with manifest := manifest }

@[simp] theorem withSet_sets (repo : Repository) (key : String) (set : ContextSet) :
    (repo.withSet key set).sets = repo.sets.insert key set := rfl

@[simp] theorem withSet_manifest (repo : Repository) (key : String) (set : ContextSet) :
    (repo.withSet key set).manifest = repo.manifest := rfl

@[simp] theorem withManifest_sets (repo : Repository) (manifest : Manifest) :
    (repo.withManifest manifest).sets = repo.sets := rfl

@[simp] theorem withManifest_manifest (repo : Repository) (manifest : Manifest) :
    (repo.withManifest manifest).manifest = manifest := rfl

/-- Storing a set as it is changes nothing. -/
theorem withSet_self {repo : Repository} {key : String} {set : ContextSet}
    (h : repo.sets.get? key = some set) : repo.withSet key set = repo := by
  rw [withSet, Table.insert_of_get? h]

theorem get?_withSet_self (repo : Repository) (name : String) (set : ContextSet) :
    (repo.withSet (SetName.bare name) set).get? name = some set := by
  rw [get?, withSet_sets, Table.get?_insert, if_pos rfl]

theorem withSet_withSet (repo : Repository) (key : String) (set other : ContextSet) :
    (repo.withSet key other).withSet key set = repo.withSet key set := by
  rw [withSet, withSet, withSet, Table.insert_insert]

end Repository

namespace Edit

variable {α β : Type} {repo after : Repository} {error : SetError}

/-! ### Successful runs -/

@[simp] theorem pure_ok {a value : α} :
    (pure a : Edit α).run repo = .ok value after ↔ value = a ∧ after = repo := by
  simp [eq_comm]

@[simp] theorem throw_ok {value : α} :
    ¬ (throw error : Edit α).run repo = .ok value after := by
  intro h
  cases h

@[simp] theorem bind_ok {x : Edit α} {f : α → Edit β} {value : β} :
    (x >>= f).run repo = .ok value after ↔
      ∃ a mid, x.run repo = .ok a mid ∧ (f a).run mid = .ok value after := by
  rw [EStateM.run_bind]
  cases x.run repo with
  | error error between => simp
  | ok a between => simp [and_assoc]

@[simp] theorem modify_ok {change : Repository → Repository} {u : PUnit} :
    (modify change : Edit PUnit).run repo = .ok u after ↔ after = change repo := by
  simp [eq_comm]

@[simp] theorem modifyGet_ok {change : Repository → α × Repository} {value : α} :
    (modifyGet change : Edit α).run repo = .ok value after ↔
      value = (change repo).1 ∧ after = (change repo).2 := by
  simp [eq_comm]

@[simp] theorem inquire_ok {answer : Repository → Except SetError α} {value : α} :
    (Repository.inquire answer).run repo = .ok value after ↔
      answer repo = .ok value ∧ after = repo := by
  simp only [Repository.inquire, EStateM.run_bind, EStateM.run_get]
  cases answer repo <;> simp [eq_comm]

@[simp] theorem requireSet_ok {name : String} {set : ContextSet} :
    (Repository.requireSet name).run repo = .ok set after ↔
      repo.get? name = some set ∧ after = repo := by
  simp only [Repository.requireSet, inquire_ok, Repository.find]
  cases repo.get? name <;> simp

@[simp] theorem store_ok {name : String} {set : ContextSet} {u : Unit} :
    (Repository.store name set).run repo = .ok u after ↔
      after = repo.withSet (SetName.bare name) set :=
  modify_ok

theorem inquire_bind_ok {answer : Repository → Except SetError α} {f : α → Edit β} {value : β} :
    (Repository.inquire answer >>= f).run repo = .ok value after ↔
      ∃ a, answer repo = .ok a ∧ (f a).run repo = .ok value after := by
  rw [bind_ok]
  constructor
  · intro hgiven
    obtain ⟨a, mid, hanswer, hrun⟩ := hgiven
    obtain ⟨ha, rfl⟩ := inquire_ok.mp hanswer
    exact ⟨a, ha, hrun⟩
  · intro hgiven
    obtain ⟨a, ha, hrun⟩ := hgiven
    exact ⟨a, repo, inquire_ok.mpr ⟨ha, rfl⟩, hrun⟩

theorem requireSet_bind_ok {name : String} {f : ContextSet → Edit β} {value : β} :
    (Repository.requireSet name >>= f).run repo = .ok value after ↔
      ∃ set, repo.get? name = some set ∧ (f set).run repo = .ok value after := by
  rw [bind_ok]
  constructor
  · intro hgiven
    obtain ⟨set, mid, hset, hrun⟩ := hgiven
    obtain ⟨hget, rfl⟩ := requireSet_ok.mp hset
    exact ⟨set, hget, hrun⟩
  · intro hgiven
    obtain ⟨set, hget, hrun⟩ := hgiven
    exact ⟨set, repo, requireSet_ok.mpr ⟨hget, rfl⟩, hrun⟩

theorem requireFile_bind_ok {id : String} {f : Unit → Edit β} {value : β} :
    (Repository.requireFile id >>= f).run repo = .ok value after ↔
      repo.manifest.contains id = true ∧ (f ()).run repo = .ok value after := by
  simp only [Repository.requireFile, inquire_bind_ok]
  cases repo.manifest.contains id with
  | false => simp
  | true => exact ⟨fun ⟨(), _, h⟩ => ⟨rfl, h⟩, fun ⟨_, h⟩ => ⟨(), rfl, h⟩⟩

theorem get_bind_ok {f : Repository → Edit β} {value : β} :
    ((get : Edit Repository) >>= f).run repo = .ok value after ↔
      (f repo).run repo = .ok value after :=
  Iff.rfl

theorem throw_bind_ok {f : α → Edit β} {value : β} :
    ¬ ((throw error : Edit α) >>= f).run repo = .ok value after := by
  intro h
  cases h

theorem modify_bind_ok {change : Repository → Repository} {f : PUnit → Edit β} {value : β} :
    ((modify change : Edit PUnit) >>= f).run repo = .ok value after ↔
      (f ()).run (change repo) = .ok value after := by
  simp

theorem store_bind_ok {name : String} {set : ContextSet} {f : Unit → Edit β} {value : β} :
    (Repository.store name set >>= f).run repo = .ok value after ↔
      (f ()).run (repo.withSet (SetName.bare name) set) = .ok value after :=
  modify_bind_ok

/-! ### Refused runs -/

/-- A refused edit leaves the repository alone. -/
def AllOrNothing (edit : Edit α) : Prop :=
  ∀ repo error after, edit.run repo = .error error after → after = repo

/-- An edit that changes nothing, whether it answers or is refused. -/
structure Asks (edit : Edit α) : Prop where
  refused : AllOrNothing edit
  answered : ∀ repo value after, edit.run repo = .ok value after → after = repo

/-- An edit that is never refused. -/
def Succeeds (edit : Edit α) : Prop :=
  ∀ repo error after, edit.run repo ≠ .error error after

theorem bind_error {x : Edit α} {f : α → Edit β} :
    (x >>= f).run repo = .error error after ↔
      x.run repo = .error error after ∨
        ∃ a mid, x.run repo = .ok a mid ∧ (f a).run mid = .error error after := by
  rw [EStateM.run_bind]
  cases x.run repo with
  | error error between => simp
  | ok a between => simp [and_assoc]

theorem Succeeds.allOrNothing {edit : Edit α} (h : Succeeds edit) : AllOrNothing edit :=
  fun repo error after hrun => absurd hrun (h repo error after)

theorem Succeeds.bind {x : Edit α} {f : α → Edit β} (hx : Succeeds x) (hf : ∀ a, Succeeds (f a)) :
    Succeeds (x >>= f) := by
  intro repo error after h
  rcases bind_error.mp h with h | ⟨a, mid, -, h⟩
  · exact hx repo error after h
  · exact hf a mid error after h

/-- Asking first does no harm. -/
theorem Asks.bind {x : Edit α} {f : α → Edit β} (hx : Asks x) (hf : ∀ a, AllOrNothing (f a)) :
    AllOrNothing (x >>= f) := by
  intro repo error after h
  rcases bind_error.mp h with h | ⟨a, mid, hmid, h⟩
  · exact hx.refused repo error after h
  · rw [← hx.answered repo a mid hmid]
    exact hf a mid error after h

theorem asks_pure (a : α) : Asks (pure a : Edit α) where
  refused := by
    intro repo error after h
    cases h
  answered := by
    intro repo value after h
    exact (pure_ok.mp h).2

theorem asks_throw (error : SetError) : Asks (throw error : Edit α) where
  refused := by
    intro repo other after h
    cases h
    rfl
  answered := by
    intro repo value after h
    cases h

/-- What would follow a refusal does not run. -/
theorem allOrNothing_throw_bind (error : SetError) (f : α → Edit β) :
    AllOrNothing ((throw error : Edit α) >>= f) := by
  intro repo other after h
  cases h
  rfl

theorem asks_get : Asks (get : Edit Repository) where
  refused := by
    intro repo error after h
    cases h
  answered := by
    intro repo value after h
    cases h
    rfl

theorem asks_inquire (answer : Repository → Except SetError α) :
    Asks (Repository.inquire answer) where
  refused := by
    intro repo error after h
    simp only [Repository.inquire, EStateM.run_bind, EStateM.run_get] at h
    cases hanswer : answer repo with
    | error _ =>
      rw [hanswer] at h
      cases h
      rfl
    | ok _ =>
      rw [hanswer] at h
      cases h
  answered := by
    intro repo value after h
    exact (inquire_ok.mp h).2

theorem asks_requireSet (name : String) : Asks (Repository.requireSet name) :=
  asks_inquire _

theorem asks_requireFile (id : String) : Asks (Repository.requireFile id) :=
  asks_inquire _

theorem succeeds_pure (a : α) : Succeeds (pure a : Edit α) := by
  intro repo error after h
  cases h

theorem succeeds_modify (change : Repository → Repository) :
    Succeeds (modify change : Edit PUnit) := by
  intro repo error after h
  cases h

theorem succeeds_modifyGet (change : Repository → α × Repository) :
    Succeeds (modifyGet change : Edit α) := by
  intro repo error after h
  cases h

theorem succeeds_store (name : String) (set : ContextSet) :
    Succeeds (Repository.store name set) :=
  succeeds_modify _

end Edit
end ContextSets
