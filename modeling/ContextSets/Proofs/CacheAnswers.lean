import ContextSets.Proofs.Ensures
import ContextSets.Proofs.Published

/-!
# What the cache answers

The programs on the cache, run by one caller at a time, in terms of published entries: asking for a
vector finds it, or makes and publishes it, or leaves the published entries as they were; removing
clears the keys that it is for, whether or not their files can be removed.
-/

namespace ContextSets

/-- The answer of a reply, if there is one. -/
def Reply.value? {α : Type} : Reply α → Option α
  | .done (.ok value) => some value
  | .done (.error _) | .pending => none

theorem Reply.value?_eq_some_iff {α : Type} {reply : Reply α} {value : α} :
    reply.value? = some value ↔ reply = .ok value := by
  constructor
  · intro h
    cases reply with
    | pending => cases h
    | done result =>
      cases result with
      | error e => cases h
      | ok found =>
        cases h
        rfl
  · rintro rfl
    rfl

namespace Cache

/-! ### Files that do not fail -/

section Faultless

variable {m : Type → Type} [Monad m] {V : Type}

/-- Entries with given keys can be written, and their files can be removed if they are there. -/
structure Faultless (shelf : Option (Shelf m V)) (keys : Set CacheKey) : Prop where
  persists : ∀ entry, entry.key ∈ keys → Ensures (persist shelf entry) (· = .ok ())
  removes : ∀ kept ∈ shelf, ∀ key ∈ keys,
    Ensures (kept.folder.remove key.fileName) fun result =>
      result = .ok () ∨ result = .error .notFound

variable [LawfulMonad m] {shelf : Option (Shelf m V)} {keys : Set CacheKey}

theorem faultless_none : Faultless (none : Option (Shelf m V)) keys where
  persists := fun _ _ => .pure rfl
  removes := fun _ h => nomatch h

theorem Faultless.removeFiles (h : Faultless shelf keys) {doomed : List CacheKey}
    (hdoomed : ∀ key ∈ doomed, key ∈ keys) :
    Ensures (Cache.removeFiles shelf doomed) (· = .ok ()) := by
  induction doomed with
  | nil => exact .pure rfl
  | cons key rest ih =>
    have hrest := ih fun other hother => hdoomed other (List.mem_cons_of_mem _ hother)
    unfold Cache.removeFiles
    cases hshelf : shelf with
    | none => exact .pure rfl
    | some kept =>
      rw [hshelf] at hrest
      refine (h.removes kept hshelf key (hdoomed key List.mem_cons_self)).bind ?_
      intro result hresult
      rcases hresult with rfl | rfl
      · exact hrest
      · exact hrest

end Faultless

variable {m : Type → Type} [Monad m] [LawfulMonad m] {V : Type} {shelf : Option (Shelf m V)}
  {cache : Cache V} {key : CacheKey}

/-! ### Asking for a vector -/

/-- A published vector is answered without running the computation. -/
theorem getOrCompute_run_of_published {entry : CacheEntry V} (h : cache.published? key = some entry)
    (compute : StateT (Cache V) m (Reply V)) :
    (getOrCompute shelf key compute).run cache = pure (.ok entry.vector, cache) := by
  obtain ⟨slot, hreserve, hentry⟩ := reserve_of_published h
  unfold getOrCompute
  rw [StateT.run_bind, StateT.run_modifyGet, pure_bind, hreserve]
  simp only [hentry]
  rfl

/-- What is not published is computed into the slot that is reserved for it. -/
theorem getOrCompute_run_of_missing (hwf : cache.WellFormed) (h : cache.published? key = none)
    (compute : StateT (Cache V) m (Reply V)) :
    (getOrCompute shelf key compute).run cache =
      (computeInto shelf key (cache.reserve key).1.ticket compute).run (cache.reserve key).2 := by
  obtain ⟨-, -, -, hempty⟩ := hwf.reserve h
  unfold getOrCompute
  rw [StateT.run_bind, StateT.run_modifyGet, pure_bind]
  simp only [hempty]

/-- What becomes of a reply whose slot is still there. -/
def conclude (shelf : Option (Shelf m V)) (key : CacheKey) (ticket : Nat) (cache : Cache V) :
    Reply V → m (Reply V × Cache V)
  | .pending => return (.pending, cache)
  | .done (.error e) => return (.error e, cache.discard ticket)
  | .done (.ok vector) => do
    let entry ← entryNow shelf key vector
    match ← persist shelf entry with
    | .ok () => return (.ok vector, cache.publish ticket entry)
    | .error fault => return (.error (.storage fault), cache.discard ticket)

theorem computeInto_run {ticket : Nat} (h : cache.holds key ticket = true) (x : m (Reply V)) :
    (computeInto shelf key ticket (StateT.lift x)).run cache =
      x >>= conclude shelf key ticket cache := by
  unfold computeInto
  rw [StateT.run_bind, StateT.run_lift, bind_assoc]
  refine bind_congr fun reply => ?_
  rw [pure_bind]
  cases reply with
  | pending => rfl
  | done result =>
    cases result with
    | error e =>
      show (modify _ >>= fun _ => pure _ : StateT (Cache V) m (Reply V)).run cache = _
      rw [StateT.run_bind, StateT.run_modify, pure_bind]
      rfl
    | ok vector =>
      show (settle shelf key ticket vector).run cache = _
      unfold settle
      rw [StateT.run_bind, StateT.run_get, pure_bind]
      simp only [h, if_true]
      rw [StateT.run_bind, StateT.run_lift, bind_assoc]
      refine bind_congr fun entry => ?_
      rw [pure_bind, StateT.run_bind, StateT.run_lift, bind_assoc]
      refine bind_congr fun written => ?_
      rw [pure_bind]
      cases written with
      | ok =>
        show (modify _ >>= fun _ => pure _ : StateT (Cache V) m (Reply V)).run cache = _
        rw [StateT.run_bind, StateT.run_modify, pure_bind]
        rfl
      | error fault =>
        show (modify _ >>= fun _ => pure _ : StateT (Cache V) m (Reply V)).run cache = _
        rw [StateT.run_bind, StateT.run_modify, pure_bind]
        rfl

/-- The only vector that can be answered is the computed one. -/
theorem conclude_answers (ticket : Nat) (reply : Reply V) :
    Ensures (conclude shelf key ticket cache reply) fun r =>
      ∀ vector, r.1 = .ok vector → reply = .ok vector := by
  cases reply with
  | pending => exact .pure fun _ h => nomatch h
  | done result =>
    cases result with
    | error e => exact .pure fun _ h => nomatch h
    | ok vector =>
      refine (Ensures.trivial (entryNow shelf key vector)).bind fun entry _ => ?_
      refine (Ensures.trivial (persist shelf entry)).bind fun written _ => ?_
      cases written with
      | ok => exact .pure fun _ h => h
      | error fault => exact .pure fun _ h => nomatch h

/-- One caller on its own finds its slot again after the computation. -/
theorem getOrCompute_run (hwf : cache.WellFormed) (h : cache.published? key = none)
    (x : m (Reply V)) :
    (getOrCompute shelf key (StateT.lift x)).run cache =
      x >>= conclude shelf key (cache.reserve key).1.ticket (cache.reserve key).2 := by
  obtain ⟨hreserved, -, hslot, -⟩ := hwf.reserve h
  rw [getOrCompute_run_of_missing hwf h, computeInto_run (holds_of_mem hreserved.distinct hslot)]

/-- What asking for the vector of a key may come to, given what the computation may reply: the
vector is found, or it is made and published, or there is none. -/
inductive Answered (P : Reply V → Prop) (key : CacheKey) (cache : Cache V) :
    Reply V → Cache V → Prop
  | found {entry : CacheEntry V} (h : cache.published? key = some entry) :
      Answered P key cache (.ok entry.vector) cache
  | made {entry : CacheEntry V} {after : Cache V} (hnone : cache.published? key = none)
      (hreply : P (.ok entry.vector)) (hafter : after.WellFormed)
      (hentries : after.published? = Function.update cache.published? key (some entry)) :
      Answered P key cache (.ok entry.vector) after
  | nothing {reply : Reply V} {after : Cache V} (hnone : cache.published? key = none)
      (hreply : (∃ e, reply = .error e) ∨ reply = .pending ∧ P .pending) (hafter : after.WellFormed)
      (hentries : after.published? = cache.published?) : Answered P key cache reply after

theorem entryNow_entry (shelf : Option (Shelf m V)) (key : CacheKey) (vector : V) :
    Ensures (entryNow shelf key vector) fun entry => entry.key = key ∧ entry.vector = vector := by
  cases shelf with
  | none => exact .pure ⟨rfl, rfl⟩
  | some shelf => exact (Ensures.trivial shelf.now).bind fun _ _ => .pure ⟨rfl, rfl⟩

theorem getOrCompute_answers (hwf : cache.WellFormed) {x : m (Reply V)} {P : Reply V → Prop}
    (hx : Ensures x P) :
    Ensures ((getOrCompute shelf key (StateT.lift x)).run cache) fun r =>
      Answered P key cache r.1 r.2 := by
  cases hentry : cache.published? key with
  | some entry =>
    rw [getOrCompute_run_of_published hentry]
    exact .pure (.found hentry)
  | none =>
    obtain ⟨hreserved, hsame, hslot, -⟩ := hwf.reserve hentry
    have hdiscard := hreserved.distinct.published?_discard (cache.reserve key).1.ticket
    rw [hsame] at hdiscard
    rw [getOrCompute_run hwf hentry]
    refine hx.bind fun reply hreply => ?_
    cases reply with
    | pending => exact .pure (.nothing hentry (.inr ⟨rfl, hreply⟩) hreserved hsame)
    | done result =>
      cases result with
      | error e =>
        exact .pure (.nothing hentry (.inl ⟨e, rfl⟩) (hreserved.discard _) hdiscard)
      | ok vector =>
        refine (entryNow_entry shelf key vector).bind ?_
        rintro entry ⟨hkey, rfl⟩
        refine (Ensures.trivial (persist shelf entry)).bind fun written _ => ?_
        cases written with
        | error fault =>
          exact .pure (.nothing hentry (.inl ⟨_, rfl⟩) (hreserved.discard _) hdiscard)
        | ok =>
          refine .pure (.made hentry hreply (hreserved.publish hslot hkey) ?_)
          rw [hreserved.published?_publish hslot, hsame]

/-! ### What asking leaves behind -/

namespace Answered

variable {P : Reply V → Prop} {other : CacheKey} {after : Cache V} {reply : Reply V}
  {entry : CacheEntry V}

theorem wellFormed (h : Answered P key cache reply after) (hwf : cache.WellFormed) :
    after.WellFormed := by
  cases h with
  | found _ => exact hwf
  | made _ _ hafter _ => exact hafter
  | nothing _ _ hafter _ => exact hafter

/-- What is published stays. -/
theorem keeps (h : Answered P key cache reply after)
    (hentry : cache.published? other = some entry) :
    after.published? other = some entry := by
  cases h with
  | found _ => exact hentry
  | made hnone _ _ hentries =>
    have hne : other ≠ key := by
      rintro rfl
      rw [hnone] at hentry
      cases hentry
    rw [hentries, Function.update_of_ne hne, hentry]
  | nothing _ _ _ hentries => rw [hentries, hentry]

/-- Nothing is published but the vector that is answered. -/
theorem old_or_answer (h : Answered P key cache reply after)
    (hentry : after.published? other = some entry) :
    cache.published? other = some entry ∨ other = key ∧ reply = .ok entry.vector := by
  cases h with
  | found _ => exact .inl hentry
  | made _ _ _ hentries =>
    rw [hentries] at hentry
    by_cases hother : other = key
    · subst hother
      rw [Function.update_self] at hentry
      cases hentry
      exact .inr ⟨rfl, rfl⟩
    · rw [Function.update_of_ne hother] at hentry
      exact .inl hentry
  | nothing _ _ _ hentries => exact .inl (by rw [← hentries, hentry])

/-- A vector that is answered is published under its key. -/
theorem get?_of_ok {vector : V} (h : Answered P key cache (.ok vector) after) :
    after.get? key = some vector := by
  rw [get?_eq_some_iff]
  generalize hreply : (Reply.ok vector) = reply at h
  cases h with
  | found hentry =>
    cases hreply
    exact ⟨_, hentry, rfl⟩
  | made _ _ _ hentries =>
    cases hreply
    exact ⟨_, by rw [hentries, Function.update_self], rfl⟩
  | nothing _ hfailed _ _ =>
    rcases hfailed with ⟨e, rfl⟩ | ⟨rfl, -⟩
    · cases hreply
    · cases hreply

/-- A failing computation changes nothing that can be seen. -/
theorem of_failing (h : Answered P key cache reply after) (hnone : cache.published? key = none)
    (hfails : ∀ reply, P reply → ∃ e, reply = .error e) :
    (∃ e, reply = .error e) ∧ after.published? = cache.published? := by
  cases h with
  | found hentry =>
    rw [hnone] at hentry
    cases hentry
  | made _ hreply _ _ =>
    obtain ⟨e, he⟩ := hfails _ hreply
    cases he
  | nothing _ hfailed _ hentries =>
    rcases hfailed with herror | ⟨-, hpending⟩
    · exact ⟨herror, hentries⟩
    · obtain ⟨e, he⟩ := hfails _ hpending
      cases he

end Answered

/-! ### Removing -/

/-- The keys of the slots that pass a test. -/
def doomed (cache : Cache V) (test : CacheKey → Slot V → Bool) : List CacheKey :=
  (cache.slots.filter fun (key, slot) => test key slot).map Prod.fst

theorem mem_doomed {test : CacheKey → Slot V → Bool} :
    key ∈ cache.doomed test ↔ ∃ slot, (key, slot) ∈ cache.slots ∧ test key slot = true := by
  simp [doomed, List.mem_map, List.mem_filter]

/-- The slots are gone in any case. -/
theorem removeWhere_run (test : CacheKey → Slot V → Bool) :
    (removeWhere shelf test).run cache = do
      let removed ← removeFiles shelf (cache.doomed test)
      return (match removed with
        | .ok () => .ok (cache.doomed test).length
        | .error fault => .error (.storage fault), cache.drop (cache.doomed test).contains) := by
  unfold removeWhere
  rw [StateT.run_bind, StateT.run_get, pure_bind]
  show (set _ >>= fun _ => StateT.lift _ >>= _ :
    StateT (Cache V) m (Except EmbeddingError Nat)).run cache = _
  rw [StateT.run_bind, StateT.run_set, pure_bind, StateT.run_bind, StateT.run_lift, bind_assoc]
  refine bind_congr fun removed => ?_
  rw [pure_bind]
  cases removed with
  | ok => rfl
  | error fault => rfl

theorem invalidate_drops (fingerprint : String) :
    Ensures ((invalidate shelf fingerprint).run cache) fun r =>
      r.2 = cache.drop (·.fingerprint == fingerprint) := by
  unfold invalidate
  rw [removeWhere_run]
  refine (Ensures.trivial _).bind fun _ _ => .pure ?_
  exact drop_contains cache (·.fingerprint == fingerprint)

/-- Removing what is not to be kept leaves the published entries that are. -/
theorem WellFormed.published?_drop_doomed (h : cache.WellFormed) (keep : CacheKey → Bool)
    (key : CacheKey) :
    (cache.drop
        (cache.doomed fun key slot => !keep key && slot.entry.isSome).contains).published? key =
      if keep key then cache.published? key else none := by
  rw [h.distinct.published?_drop]
  by_cases hkeep : keep key = true
  · rw [if_neg, if_pos hkeep]
    simp [mem_doomed, hkeep]
  · rw [if_neg hkeep]
    cases hentry : cache.published? key with
    | none => simp
    | some entry =>
      obtain ⟨slot, hslot, hfound⟩ := h.distinct.published?_eq_some_iff.mp hentry
      apply if_pos
      rw [List.contains_iff_mem, mem_doomed]
      exact ⟨slot, hslot, by simp [hkeep, hfound]⟩

theorem retain_keeps (hwf : cache.WellFormed) (keep : CacheKey → Bool) :
    Ensures ((retain shelf keep).run cache) fun r =>
      r.2.WellFormed ∧
        ∀ key, r.2.published? key = if keep key then cache.published? key else none := by
  unfold retain
  rw [removeWhere_run]
  refine (Ensures.trivial _).bind fun _ _ => .pure ⟨hwf.drop _, ?_⟩
  exact hwf.published?_drop_doomed keep

/-! ### Reading entries -/

/-- A cache that is opened holds entries that have been read. -/
theorem load_ofEntries (shelf : Shelf m V) (names : List String) (read : List (CacheEntry V)) :
    Ensures (load shelf names (ofEntries read)) fun cache => ∃ read, cache = ofEntries read := by
  induction names generalizing read with
  | nil => exact .pure ⟨read, rfl⟩
  | cons name rest ih =>
    unfold load
    split
    · refine (Ensures.trivial (shelf.folder.read name)).bind fun bytes _ => ?_
      split
      · exact ih read
      · split
        · exact ih read
        · rw [← ofEntries_concat]
          exact ih _
    · exact ih read

theorem reopen_ofEntries (shelf : Shelf m V) :
    Ensures (reopen shelf) fun result =>
      ∀ cache, result = .ok cache → ∃ read, cache = ofEntries read := by
  unfold reopen
  refine (Ensures.trivial shelf.folder.prepare).bind fun prepared _ => ?_
  split
  · exact .pure fun _ h => nomatch h
  · refine (Ensures.trivial shelf.folder.names).bind fun names _ => ?_
    split
    · exact .pure fun _ h => nomatch h
    · refine (load_ofEntries shelf _ []).bind fun cache hcache => .pure ?_
      rintro _ ⟨⟩
      exact hcache

end Cache

end ContextSets
