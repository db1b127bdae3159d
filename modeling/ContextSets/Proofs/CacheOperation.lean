import ContextSets.Proofs.CacheAnswers

/-!
# Operations on the cache

All that can be done with a cache as one type, so that a run of operations can be spoken of.
Whatever is done, slots stay told apart and entries stay under their own keys.
-/

namespace ContextSets

/-- An operation on a cache with its arguments. Computations do not touch the cache. -/
inductive CacheOperation (m : Type → Type) (V : Type) where
  | getOrCompute (key : CacheKey) (compute : m (Reply V))
  | invalidate (fingerprint : String)
  | retain (keep : CacheKey → Bool)
  | clear
  | reopen

namespace CacheOperation

variable {m : Type → Type} [Monad m] {V : Type}

/-- Opens the cache again, if it is kept on disk. If that fails, the old one stays. -/
def reopened (shelf : Option (Shelf m V)) : StateT (Cache V) m Unit := do
  match shelf with
  | none => return ()
  | some shelf =>
    match ← StateT.lift (Cache.reopen shelf) with
    | .ok cache => set cache
    | .error _ => return ()

/-- Does an operation, and returns the vector that it answers with, if any. -/
def run (shelf : Option (Shelf m V)) : CacheOperation m V → StateT (Cache V) m (Option V)
  | getOrCompute key compute => do
    return (← Cache.getOrCompute shelf key (StateT.lift compute)).value?
  | invalidate fingerprint => do
    let _ ← Cache.invalidate shelf fingerprint
    return none
  | retain keep => do
    let _ ← Cache.retain shelf keep
    return none
  | clear => do
    Cache.clear
    return none
  | reopen => do
    reopened shelf
    return none

variable [LawfulMonad m] {shelf : Option (Shelf m V)} {cache : Cache V}

theorem wellFormed_clear (h : cache.WellFormed) :
    ({ cache with slots := [] } : Cache V).WellFormed :=
  h.sub List.nodup_nil (fun _ _ hslot => nomatch hslot) rfl

theorem reopened_wellFormed (hwf : cache.WellFormed) :
    Ensures ((reopened shelf).run cache) fun r => r.2.WellFormed := by
  unfold reopened
  cases shelf with
  | none => exact Ensures.run_pure hwf
  | some shelf =>
    refine Ensures.lift_bind (Cache.reopen_ofEntries shelf) fun result hresult => ?_
    cases result with
    | error e => exact Ensures.run_pure hwf
    | ok opened =>
      obtain ⟨read, rfl⟩ := hresult opened rfl
      exact Ensures.pure (Cache.wellFormed_ofEntries read)

theorem run_wellFormed (hwf : cache.WellFormed) (op : CacheOperation m V) :
    Ensures ((op.run shelf).run cache) fun r => r.2.WellFormed := by
  cases op with
  | getOrCompute key compute =>
    refine Ensures.run_bind (Cache.getOrCompute_answers hwf (Ensures.trivial compute)) ?_
    intro reply after hanswered
    exact Ensures.run_pure (hanswered.wellFormed hwf)
  | invalidate fingerprint =>
    refine Ensures.run_bind (Cache.invalidate_drops fingerprint) ?_
    rintro _ _ rfl
    exact Ensures.run_pure (hwf.drop (·.fingerprint == fingerprint))
  | retain keep =>
    refine Ensures.run_bind (Cache.retain_keeps hwf keep) ?_
    intro _ after hafter
    exact Ensures.run_pure hafter.1
  | clear => exact Ensures.modify_bind (Ensures.run_pure (wellFormed_clear hwf))
  | reopen =>
    refine Ensures.run_bind (reopened_wellFormed hwf) ?_
    intro _ after hafter
    exact Ensures.run_pure hafter

end CacheOperation

end ContextSets
