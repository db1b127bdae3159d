import ContextSets.Embedding.Batch
import ContextSets.Proofs.SearchRuns

/-!
# Batches in flight

A batch starts its items in order, as many as may run together, and takes in their outcomes in
whatever order they come. It may be cancelled at any moment. What an update of the index with an item
may come to is left open here; an update is one step.
-/

namespace ContextSets.Batch

/-- What may come of updating the index with an item: an answer and the index after it. -/
abbrev Updating :=
  BatchItem → EmbeddingIndex → Except EmbeddingError Embedding → EmbeddingIndex → Prop

/-- An item and what its update has answered. -/
structure Outcome where
  item : BatchItem
  result : Except EmbeddingError Embedding

/-- The path of an item that has been embedded. -/
def Outcome.embedded? (outcome : Outcome) : Option String :=
  match outcome.result with
  | .ok _ => some outcome.item.path
  | .error _ => none

/-- The failure of an item that has not been embedded. -/
def Outcome.failure? (outcome : Outcome) : Option BatchFailure :=
  match outcome.result with
  | .ok _ => none
  | .error e => some ⟨outcome.item.path, e⟩

/-- A batch under way with the index, and all that has happened so far. Items are started or skipped.
The updates of started items are pending or have been made; the outcomes of these wait or have been
taken in. At the end there is a result. -/
structure InFlight where
  batch : Batch
  index : EmbeddingIndex
  isCancelled : Bool
  started : List BatchItem
  skipped : List BatchItem
  pending : List BatchItem
  updated : List Outcome
  answered : List Outcome
  taken : List Outcome
  reports : List BatchProgress
  result : Option (Except EmbeddingError BatchReport)

namespace InFlight

/-- A batch that has reported that nothing has ended yet. -/
def fresh (items : List BatchItem) (index : EmbeddingIndex) : InFlight where
  batch := ofItems items
  index := index
  isCancelled := false
  started := []
  skipped := []
  pending := []
  updated := []
  answered := []
  taken := []
  reports := [⟨0, items.length⟩]
  result := none

/-- What can happen next: if there is room, the first waiting item is started, or it is skipped if the
batch has been cancelled; a pending update is made; an outcome is taken in and reported; the batch is
cancelled; or there are no more outcomes, and the batch has a result. -/
inductive Step (updating : Updating) (workers : Nat) : InFlight → InFlight → Prop
  | start {state : InFlight} {item : BatchItem} {rest : List BatchItem}
      (hwaiting : state.batch.waiting = item :: rest)
      (hroom : state.batch.running.length < max 1 workers) (hgoes : state.isCancelled = false) :
      Step updating workers state
        { state with
          batch := state.batch.start
          started := state.started ++ [item]
          pending := state.pending ++ [item] }
  | skip {state : InFlight} {item : BatchItem} {rest : List BatchItem}
      (hwaiting : state.batch.waiting = item :: rest)
      (hroom : state.batch.running.length < max 1 workers) (hstopped : state.isCancelled = true) :
      Step updating workers state
        { state with
          batch := { state.batch with waiting := rest }
          skipped := state.skipped ++ [item] }
  | update {state : InFlight} {before after : List BatchItem} {item : BatchItem}
      {result : Except EmbeddingError Embedding} {index : EmbeddingIndex}
      (hpending : state.pending = before ++ item :: after)
      (hupdate : updating item state.index result index) :
      Step updating workers state
        { state with
          index := index
          pending := before ++ after
          updated := state.updated ++ [⟨item, result⟩]
          answered := state.answered ++ [⟨item, result⟩] }
  | finish {state : InFlight} {before after : List Outcome} {outcome : Outcome}
      (hanswered : state.answered = before ++ outcome :: after) :
      Step updating workers state
        { state with
          batch := state.batch.finish outcome.item outcome.result
          answered := before ++ after
          taken := state.taken ++ [outcome]
          reports := state.reports ++ [(state.batch.finish outcome.item outcome.result).progress] }
  | cancel {state : InFlight} (hgoes : state.isCancelled = false) (hopen : state.result = none) :
      Step updating workers state { state with isCancelled := true }
  | conclude {state : InFlight} (hwaiting : state.batch.waiting = [])
      (hrunning : state.batch.running = []) (hopen : state.result = none) :
      Step updating workers state
        { state with
          result := some (if state.isCancelled then .error .cancelled else .ok state.batch.report) }

/-- Any number of steps. -/
abbrev Runs (updating : Updating) (workers : Nat) : InFlight → InFlight → Prop :=
  Relation.ReflTransGen (Step updating workers)

/-- Updates one after another lead from one index to another. -/
inductive Updates (updating : Updating) (index : EmbeddingIndex) :
    List Outcome → EmbeddingIndex → Prop
  | none : Updates updating index [] index
  | snoc {updated : List Outcome} {outcome : Outcome} {before after : EmbeddingIndex}
      (h : Updates updating index updated before)
      (hupdate : updating outcome.item before outcome.result after) :
      Updates updating index (updated ++ [outcome]) after

end InFlight

/-! ### Parts of a batch -/

section

variable {batch : Batch} {outcome : Outcome}

@[simp] theorem embedded_finish :
    (batch.finish outcome.item outcome.result).embedded =
      batch.embedded ++ outcome.embedded?.toList := by
  unfold finish Outcome.embedded?
  cases outcome.result with
  | ok _ => rfl
  | error _ => exact (List.append_nil _).symm

@[simp] theorem failed_finish :
    (batch.finish outcome.item outcome.result).failed =
      batch.failed ++ outcome.failure?.toList := by
  unfold finish Outcome.failure?
  cases outcome.result with
  | ok _ => exact (List.append_nil _).symm
  | error _ => rfl

/-- If nothing runs, there is room for an item. -/
theorem room_of_idle (h : batch.running = []) (workers : Nat) :
    batch.running.length < max 1 workers := by
  rw [h, List.length_nil]
  omega

end

/-! ### Lists that are shared out -/

section

variable {α : Type} {list before after rest : List α} {x : α}

/-- What comes to the whole comes to the first part. -/
theorem perm_snoc (h : list.Perm (before ++ rest)) :
    (list ++ [x]).Perm (before ++ [x] ++ rest) := by
  rw [List.append_assoc]
  refine (h.append_right [x]).trans ?_
  rw [List.append_assoc]
  exact List.perm_append_comm.append_left before

/-- What leaves the first part comes to the second. -/
theorem perm_move (h : list.Perm (before ++ x :: after ++ rest)) :
    list.Perm (before ++ after ++ (rest ++ [x])) := by
  refine h.trans ?_
  have hlast : (after ++ (rest ++ [x])).Perm (x :: (after ++ rest)) := by
    rw [← List.append_assoc]
    exact List.perm_append_singleton x (after ++ rest)
  rw [List.append_assoc, List.append_assoc, List.cons_append]
  exact hlast.symm.append_left before

/-- What leaves the whole leaves the second part. -/
theorem perm_erase [BEq α] [LawfulBEq α] (h : list.Perm (rest ++ (before ++ x :: after))) :
    (list.erase x).Perm (rest ++ (before ++ after)) := by
  have hfirst : (rest ++ (before ++ x :: after)).Perm (x :: (rest ++ (before ++ after))) := by
    rw [← List.append_assoc, ← List.append_assoc]
    exact List.perm_middle
  have hrest := (h.trans hfirst).erase x
  rw [List.erase_cons_head] at hrest
  exact hrest

end

namespace InFlight

variable {updating : Updating} {workers : Nat} {items : List BatchItem} {index : EmbeddingIndex}
  {state next : InFlight}

/-! ### What holds on the way -/

/-- Every item is accounted for: it waits, or it has been skipped, or it has been started and then
counts once among the pending updates, the outcomes that wait and those that have been taken in. -/
structure Sound (updating : Updating) (items : List BatchItem) (index : EmbeddingIndex)
    (state : InFlight) : Prop where
  accounted : state.started ++ state.skipped ++ state.batch.waiting = items
  skipped : state.isCancelled = false → state.skipped = []
  started : state.started.Perm (state.pending ++ state.updated.map (·.item))
  updated : state.updated.Perm (state.answered ++ state.taken)
  running : state.batch.running.Perm (state.pending ++ state.answered.map (·.item))
  embedded : state.batch.embedded = state.taken.filterMap (·.embedded?)
  failed : state.batch.failed = state.taken.filterMap (·.failure?)
  progress : state.batch.progress = ⟨state.taken.length, items.length⟩
  reports : state.reports = (List.range (state.taken.length + 1)).map (⟨·, items.length⟩)
  updates : Updates updating index state.updated state.index
  result : ∀ result ∈ state.result, state.batch.waiting = [] ∧ state.batch.running = [] ∧
    result = if state.isCancelled then .error .cancelled else .ok state.batch.report

namespace Sound

theorem fresh (items : List BatchItem) (index : EmbeddingIndex) :
    Sound updating items index (fresh items index) where
  accounted := rfl
  skipped := fun _ => rfl
  started := .refl _
  updated := .refl _
  running := .refl _
  embedded := rfl
  failed := rfl
  progress := rfl
  reports := rfl
  updates := .none
  result := fun _ h => nomatch h

/-- A batch with a result has nothing left to do. -/
theorem open_of_busy (h : Sound updating items index state)
    (hbusy : state.batch.waiting ≠ [] ∨ state.batch.running ≠ []) : state.result = none := by
  cases hresult : state.result with
  | none => rfl
  | some result =>
    obtain ⟨hwaiting, hrunning, -⟩ := h.result result hresult
    exact absurd hbusy (not_or.mpr ⟨not_not.mpr hwaiting, not_not.mpr hrunning⟩)

/-- Nothing is claimed of the result of a batch that has none. -/
theorem result_of_open {P : Except EmbeddingError BatchReport → Prop}
    (hopen : state.result = none) : ∀ result ∈ state.result, P result := by
  rw [hopen]
  exact fun _ h => nomatch h

section Steps

variable {item : BatchItem} {rest : List BatchItem}

theorem start (h : Sound updating items index state) (hwaiting : state.batch.waiting = item :: rest)
    (hgoes : state.isCancelled = false) :
    Sound updating items index
      { state with
        batch := state.batch.start
        started := state.started ++ [item]
        pending := state.pending ++ [item] } := by
  have hskipped := h.skipped hgoes
  have hbusy : state.batch.waiting ≠ [] := by
    rw [hwaiting]
    exact List.cons_ne_nil item rest
  have haccounted := h.accounted
  rw [hwaiting, hskipped, List.append_nil] at haccounted
  rw [start_of_waiting hwaiting]
  refine ⟨?_, h.skipped, perm_snoc h.started, h.updated, perm_snoc h.running, h.embedded, h.failed,
    h.progress, h.reports, h.updates, result_of_open (h.open_of_busy (.inl hbusy))⟩
  show state.started ++ [item] ++ state.skipped ++ rest = items
  rw [hskipped, List.append_nil, List.append_assoc]
  exact haccounted

theorem skip (h : Sound updating items index state) (hwaiting : state.batch.waiting = item :: rest)
    (hstopped : state.isCancelled = true) :
    Sound updating items index
      { state with
        batch := { state.batch with waiting := rest }
        skipped := state.skipped ++ [item] } := by
  have hbusy : state.batch.waiting ≠ [] := by
    rw [hwaiting]
    exact List.cons_ne_nil item rest
  have haccounted := h.accounted
  rw [hwaiting] at haccounted
  refine ⟨?_, ?_, h.started, h.updated, h.running, h.embedded, h.failed, h.progress, h.reports,
    h.updates, result_of_open (h.open_of_busy (.inl hbusy))⟩
  · show state.started ++ (state.skipped ++ [item]) ++ rest = items
    rw [← haccounted, List.append_assoc, List.append_assoc, List.append_assoc]
    rfl
  · intro hgoes
    rw [show state.isCancelled = true from hstopped] at hgoes
    cases hgoes

theorem update {before after : List BatchItem} {result : Except EmbeddingError Embedding}
    {last : EmbeddingIndex} (h : Sound updating items index state)
    (hpending : state.pending = before ++ item :: after)
    (hupdate : updating item state.index result last) :
    Sound updating items index
      { state with
        index := last
        pending := before ++ after
        updated := state.updated ++ [⟨item, result⟩]
        answered := state.answered ++ [⟨item, result⟩] } := by
  have hstarted := h.started
  have hrunning := h.running
  rw [hpending] at hstarted hrunning
  have hbusy : state.batch.running ≠ [] := by
    have hmem : item ∈ state.batch.running := hrunning.mem_iff.mpr (by simp)
    exact List.ne_nil_of_mem hmem
  refine ⟨h.accounted, h.skipped, ?_, perm_snoc h.updated, ?_, h.embedded, h.failed, h.progress,
    h.reports, h.updates.snoc hupdate, result_of_open (h.open_of_busy (.inr hbusy))⟩
  · show state.started.Perm (before ++ after ++ (state.updated ++ [_]).map Outcome.item)
    rw [List.map_append]
    exact perm_move hstarted
  · show state.batch.running.Perm (before ++ after ++ (state.answered ++ [_]).map Outcome.item)
    rw [List.map_append]
    exact perm_move hrunning

theorem finish {before after : List Outcome} {outcome : Outcome}
    (h : Sound updating items index state)
    (hanswered : state.answered = before ++ outcome :: after) :
    Sound updating items index
      { state with
        batch := state.batch.finish outcome.item outcome.result
        answered := before ++ after
        taken := state.taken ++ [outcome]
        reports := state.reports ++
          [(state.batch.finish outcome.item outcome.result).progress] } := by
  have hupdated := h.updated
  have hrunning := h.running
  rw [hanswered] at hupdated hrunning
  rw [List.map_append, List.map_cons] at hrunning
  have hbusy : state.batch.running ≠ [] := by
    have hmem : outcome.item ∈ state.batch.running := hrunning.mem_iff.mpr (by simp)
    exact List.ne_nil_of_mem hmem
  have hprogress : (state.batch.finish outcome.item outcome.result).progress =
      ⟨state.taken.length + 1, items.length⟩ := by
    rw [progress_finish, h.progress]
  refine ⟨?_, h.skipped, h.started, perm_move hupdated, ?_, ?_, ?_, ?_, ?_, h.updates,
    result_of_open (h.open_of_busy (.inr hbusy))⟩
  · show _ ++ (state.batch.finish outcome.item outcome.result).waiting = items
    rw [waiting_finish]
    exact h.accounted
  · show (state.batch.finish outcome.item outcome.result).running.Perm _
    rw [running_finish, List.map_append]
    exact perm_erase hrunning
  · show (state.batch.finish outcome.item outcome.result).embedded = _
    rw [embedded_finish, h.embedded, List.filterMap_append]
    rfl
  · show (state.batch.finish outcome.item outcome.result).failed = _
    rw [failed_finish, h.failed, List.filterMap_append]
    rfl
  · show (state.batch.finish outcome.item outcome.result).progress = _
    rw [hprogress, List.length_append]
    rfl
  · have hrange : List.range (state.taken.length + 1 + 1) =
        List.range (state.taken.length + 1) ++ [state.taken.length + 1] := List.range_succ
    show state.reports ++ [_] = _
    rw [hprogress, h.reports, List.length_append, List.length_singleton, hrange, List.map_append]
    rfl

theorem cancel (h : Sound updating items index state) (hopen : state.result = none) :
    Sound updating items index { state with isCancelled := true } :=
  ⟨h.accounted, nofun, h.started, h.updated, h.running, h.embedded, h.failed,
    h.progress, h.reports, h.updates, result_of_open hopen⟩

theorem conclude (h : Sound updating items index state) (hwaiting : state.batch.waiting = [])
    (hrunning : state.batch.running = []) :
    Sound updating items index
      { state with
        result :=
          some (if state.isCancelled then .error .cancelled else .ok state.batch.report) } := by
  refine ⟨h.accounted, h.skipped, h.started, h.updated, h.running, h.embedded, h.failed,
    h.progress, h.reports, h.updates, ?_⟩
  intro result hresult
  cases hresult
  exact ⟨hwaiting, hrunning, rfl⟩

end Steps

theorem step (h : Sound updating items index state) (hstep : Step updating workers state next) :
    Sound updating items index next := by
  cases hstep with
  | start hwaiting _ hgoes => exact h.start hwaiting hgoes
  | skip hwaiting _ hstopped => exact h.skip hwaiting hstopped
  | update hpending hupdate => exact h.update hpending hupdate
  | finish hanswered => exact h.finish hanswered
  | cancel _ hopen => exact h.cancel hopen
  | conclude hwaiting hrunning _ => exact h.conclude hwaiting hrunning

theorem runs (h : Sound updating items index state) (hruns : Runs updating workers state next) :
    Sound updating items index next := by
  induction hruns with
  | refl => exact h
  | tail _ hstep ih => exact ih.step hstep

/-! ### At the end -/

section End

variable {result : Except EmbeddingError BatchReport}

/-- At the end, the items started are those whose outcomes have been taken in. -/
theorem taken_perm (h : Sound updating items index state) (hresult : state.result = some result) :
    state.updated.Perm state.taken ∧ (state.updated.map (·.item)).Perm state.started := by
  obtain ⟨-, hnone, -⟩ := h.result result hresult
  have hrunning := h.running
  rw [hnone] at hrunning
  obtain ⟨hpending, hanswered⟩ := List.append_eq_nil_iff.mp hrunning.nil_eq.symm
  have hupdated := h.updated
  have hstarted := h.started
  rw [List.map_eq_nil_iff.mp hanswered, List.nil_append] at hupdated
  rw [hpending, List.nil_append] at hstarted
  exact ⟨hupdated, hstarted.symm⟩

/-- At the end, every item has been started or skipped. -/
theorem started_skipped (h : Sound updating items index state)
    (hresult : state.result = some result) : state.started ++ state.skipped = items := by
  obtain ⟨hwaiting, -⟩ := h.result result hresult
  have haccounted := h.accounted
  rw [hwaiting, List.append_nil] at haccounted
  exact haccounted

theorem length_taken (h : Sound updating items index state)
    (hresult : state.result = some result) : state.taken.length = state.started.length := by
  obtain ⟨hupdated, hstarted⟩ := h.taken_perm hresult
  rw [← hupdated.length_eq, ← hstarted.length_eq, List.length_map]

end End

end Sound

/-! ### After the batch has been cancelled -/

/-- Nothing is started any more. -/
theorem Step.frozen (hstep : Step updating workers state next) (hstopped : state.isCancelled = true) :
    next.isCancelled = true ∧ next.started = state.started := by
  cases hstep with
  | start _ _ hgoes =>
    rw [hstopped] at hgoes
    cases hgoes
  | skip _ _ _ => exact ⟨hstopped, rfl⟩
  | update _ _ => exact ⟨hstopped, rfl⟩
  | finish _ => exact ⟨hstopped, rfl⟩
  | cancel _ _ => exact ⟨rfl, rfl⟩
  | conclude _ _ _ => exact ⟨hstopped, rfl⟩

theorem Runs.frozen (hruns : Runs updating workers state next)
    (hstopped : state.isCancelled = true) :
    next.isCancelled = true ∧ next.started = state.started := by
  induction hruns with
  | refl => exact ⟨hstopped, rfl⟩
  | tail _ hstep ih =>
    obtain ⟨hcancelled, hstarted⟩ := hstep.frozen ih.1
    exact ⟨hcancelled, hstarted.trans ih.2⟩

/-! ### Batches end -/

/-- A bound on the steps that are left. -/
def weight (state : InFlight) : Nat :=
  3 * state.batch.waiting.length + 2 * state.pending.length + state.answered.length +
    (if state.isCancelled then 0 else 1) + (if state.result.isSome then 0 else 1)

theorem weight_step (hstep : Step updating workers state next) : next.weight < state.weight := by
  cases hstep with
  | start hwaiting _ _ =>
    simp only [weight, start_of_waiting hwaiting, hwaiting, List.length_append, List.length_cons,
      List.length_nil]
    omega
  | skip hwaiting _ _ =>
    simp only [weight, hwaiting, List.length_cons]
    omega
  | update hpending _ =>
    simp only [weight, hpending, List.length_append, List.length_cons, List.length_nil]
    omega
  | finish hanswered =>
    simp only [weight, hanswered, waiting_finish, List.length_append, List.length_cons]
    omega
  | cancel hgoes _ =>
    simp only [weight, hgoes]
    simp
  | conclude _ _ hopen =>
    simp only [weight, hopen]
    simp

/-- A batch without a result can go on: somebody works, or there is room. -/
theorem Sound.exists_step (h : Sound updating items index state)
    (hends : ∀ item index, ∃ result last, updating item index result last)
    (hopen : state.result = none) : ∃ next, Step updating workers state next := by
  cases hpending : state.pending with
  | cons item rest =>
    obtain ⟨result, last, hupdate⟩ := hends item state.index
    have hfirst : state.pending = [] ++ item :: rest := hpending
    exact ⟨_, .update hfirst hupdate⟩
  | nil =>
    cases hanswered : state.answered with
    | cons outcome rest =>
      have hfirst : state.answered = [] ++ outcome :: rest := hanswered
      exact ⟨_, .finish hfirst⟩
    | nil =>
      have hrunning := h.running
      rw [hpending, hanswered] at hrunning
      have hidle : state.batch.running = [] := hrunning.eq_nil
      have hroom := room_of_idle hidle workers
      cases hwaiting : state.batch.waiting with
      | nil => exact ⟨_, .conclude hwaiting hidle hopen⟩
      | cons item rest =>
        cases hstopped : state.isCancelled with
        | false => exact ⟨_, .start hwaiting hroom hstopped⟩
        | true => exact ⟨_, .skip hwaiting hroom hstopped⟩

/-- If every update ends, so does the batch. -/
theorem Sound.inevitable (h : Sound updating items index state)
    (hends : ∀ item index, ∃ result last, updating item index result last) :
    Inevitable (Step updating workers) (fun state => ∃ result, state.result = some result)
      state := by
  refine Inevitable.of_invariant (I := Sound updating items index) weight
    (fun _ _ hsound hstep => hsound.step hstep) (fun _ _ hstep => weight_step hstep) ?_ h
  intro state hsound
  cases hresult : state.result with
  | some result => exact .inl ⟨result, rfl⟩
  | none => exact .inr (hsound.exists_step hends hresult)

end InFlight

end ContextSets.Batch
