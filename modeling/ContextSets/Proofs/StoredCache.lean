import ContextSets.Proofs.CacheOperation
import ContextSets.Proofs.EntryFiles

/-!
# Caches on disk

What asking for a vector and removing entries come to in memory and on disk, and what operations may
be given.
-/

namespace ContextSets

variable {n : Type → Type} {σ V : Type} {files : σ → Contents} {mayFail : Option String → Prop}

/-- The clock leaves the files alone, and the entries it is asked for have a property. -/
def Shelf.Stamps [Monad n] (shelf : Shelf (StateT σ n) V) (files : σ → Contents)
    (P : CacheEntry V → Prop) (key : CacheKey) (vector : V) : Prop :=
  ∀ s, Ensures (shelf.now.run s) fun r => files r.2 = files s ∧ P ⟨key, vector, r.1⟩

/-- A computation leaves the files alone, and the vectors it answers have a property. -/
def Quiet [Monad n] (files : σ → Contents) (Q : V → Prop) (x : StateT σ n (Reply V)) : Prop :=
  ∀ s, Ensures (x.run s) fun r => files r.2 = files s ∧ ∀ vector, r.1 = .ok vector → Q vector

theorem quiet_ok [Monad n] [LawfulMonad n] {Q : V → Prop} {vector : V} (h : Q vector) :
    Quiet files Q (pure (.ok vector) : StateT σ n (Reply V)) := by
  intro s
  refine .run_pure ⟨rfl, ?_⟩
  rintro _ ⟨⟩
  exact h

theorem quiet_error [Monad n] [LawfulMonad n] {Q : V → Prop} (e : EmbeddingError) :
    Quiet files Q (pure (.error e) : StateT σ n (Reply V)) :=
  fun _ => .run_pure ⟨rfl, fun _ h => nomatch h⟩

namespace Cache

variable {cache : Cache V} {key : CacheKey} {keys : Set CacheKey}

/-! ### Slots of given keys -/

/-- There are slots for given keys only. -/
def Within (keys : Set CacheKey) (cache : Cache V) : Prop :=
  ∀ key slot, (key, slot) ∈ cache.slots → key ∈ keys

theorem Within.empty : (∅ : Cache V).Within keys :=
  fun _ _ h => nomatch h

/-- Only given keys can be removed. -/
theorem Within.of_mem_doomed {test : CacheKey → Slot V → Bool} (h : cache.Within keys)
    (hkey : key ∈ cache.doomed test) : key ∈ keys := by
  obtain ⟨slot, hslot, -⟩ := mem_doomed.mp hkey
  exact h key slot hslot

/-- The file of a key whose slot is removed is removed too. -/
theorem Within.gone_of_mem_doomed {test : CacheKey → Slot V → Bool} {mayFail : Option String → Prop}
    {before contents : Contents} (h : cache.Within keys)
    (hsafe : ∀ key ∈ keys, ¬ mayFail (some key.fileName))
    (hcleared : Cleared (cache.doomed test) mayFail before contents)
    (hkey : key ∈ cache.doomed test) : contents key.fileName = none :=
  hcleared.gone (fun other hother => hsafe other (h.of_mem_doomed hother)) key hkey

theorem Within.drop (h : cache.Within keys) (test : CacheKey → Bool) :
    (cache.drop test).Within keys :=
  fun other slot hslot => h other slot (mem_drop.mp hslot).1

theorem Within.discard (h : cache.Within keys) (ticket : Nat) :
    (cache.discard ticket).Within keys :=
  fun other slot hslot => h other slot (mem_discard.mp hslot).1

theorem Within.publish (h : cache.Within keys) (ticket : Nat) (entry : CacheEntry V) :
    (cache.publish ticket entry).Within keys := by
  intro other slot hslot
  obtain ⟨old, hold, -⟩ := mem_publish.mp hslot
  exact h other old hold

theorem Within.place (h : cache.Within keys) (hkey : key ∈ keys) (entry : Option (CacheEntry V)) :
    (cache.place key entry).Within keys := by
  intro other slot hslot
  rcases mem_place.mp hslot with ⟨hold, -⟩ | ⟨rfl, -⟩
  · exact h other slot hold
  · exact hkey

theorem Within.reserve (h : cache.Within keys) (hkey : key ∈ keys) :
    (cache.reserve key).2.Within keys := by
  unfold Cache.reserve
  split
  · exact h
  · exact h.place hkey none

theorem within_ofEntries {entries : List (CacheEntry V)} (h : ∀ entry ∈ entries, entry.key ∈ keys) :
    (ofEntries entries).Within keys := by
  induction entries using List.reverseRecOn with
  | nil => exact Within.empty
  | append_singleton entries last ih =>
    rw [ofEntries_concat]
    have hold := ih fun entry hentry => h entry (List.mem_append_left _ hentry)
    exact hold.place (h last (List.mem_append_right _ (List.mem_singleton_self _))) _

/-! ### Asking for a vector -/

variable {shelf : Option (Shelf (StateT σ n) V)} {P : EntryFormat V → CacheEntry V → Prop}
  {Q : V → Prop}

/-- What asking for the vector of a key may come to: it is found, or it is made, written and
published, or there is none. If it could not be written, anything may be left under the temporary
name. -/
inductive Recorded (shelf : Option (Shelf (StateT σ n) V)) (mayFail : Option String → Prop)
    (P : EntryFormat V → CacheEntry V → Prop) (keys : Set CacheKey) (key : CacheKey)
    (cache : Cache V) (before : Contents) : Reply V → Cache V → Contents → Prop
  | found {entry : CacheEntry V} (h : cache.published? key = some entry) :
      Recorded shelf mayFail P keys key cache before (.ok entry.vector) cache before
  | made {entry : CacheEntry V} {after : Cache V} (hnone : cache.published? key = none)
      (hkey : entry.key = key) (hentry : ∀ kept ∈ shelf, P kept.format entry)
      (hafter : after.WellFormed) (hwithin : after.Within keys)
      (hentries : after.published? = Function.update cache.published? key (some entry)) :
      Recorded shelf mayFail P keys key cache before (.ok entry.vector) after
        (Shelf.written shelf entry before)
  | nothing {reply : Reply V} {after : Cache V} (hnone : cache.published? key = none)
      (hreply : reply.value? = none) (hafter : after.WellFormed) (hwithin : after.Within keys)
      (hentries : after.published? = cache.published?) :
      Recorded shelf mayFail P keys key cache before reply after before
  | unwritten {e : EmbeddingError} {after : Cache V} {left : Option ByteArray}
      (hnone : cache.published? key = none)
      (hfail : mayFail (some key.temporaryName) ∨ mayFail (some key.fileName))
      (hafter : after.WellFormed) (hwithin : after.Within keys)
      (hentries : after.published? = cache.published?) :
      Recorded shelf mayFail P keys key cache before (.error e) after
        (Function.update before key.temporaryName left)

variable [Monad n] [LawfulMonad n]

theorem entryNow_stamped {vector : V}
    (hnow : ∀ kept ∈ shelf, kept.Stamps files (P kept.format) key vector) (s : σ) :
    Ensures ((entryNow shelf key vector).run s) fun r =>
      files r.2 = files s ∧ r.1.key = key ∧ r.1.vector = vector ∧
        ∀ kept ∈ shelf, P kept.format r.1 := by
  cases shelf with
  | none => exact .run_pure ⟨rfl, rfl, rfl, fun _ h => nomatch h⟩
  | some shelf =>
    refine Ensures.run_bind (hnow shelf rfl s) fun now s' hstamped => .run_pure ?_
    refine ⟨hstamped.1, rfl, rfl, ?_⟩
    rintro _ ⟨⟩
    exact hstamped.2

section

variable (hserves : ∀ kept ∈ shelf, kept.folder.Serves files mayFail)

include hserves

theorem persist_ensures {entry : CacheEntry V} (hfits : entry.key.FitsName) (s : σ) :
    Ensures ((persist shelf entry).run s) fun r =>
      (r.1 = .ok () ∧ files r.2 = Shelf.written shelf entry (files s)) ∨
      (∃ fault, r.1 = .error fault) ∧
        (mayFail (some entry.key.temporaryName) ∨ mayFail (some entry.key.fileName)) ∧
        ∃ left, files r.2 = Function.update (files s) entry.key.temporaryName left := by
  cases shelf with
  | none => exact .run_pure (.inl ⟨rfl, rfl⟩)
  | some shelf => exact persist_writes (hserves shelf rfl) hfits s

theorem getOrCompute_records (hwf : cache.WellFormed) (hwithin : cache.Within keys)
    (hkey : key ∈ keys) (hfits : key.FitsName) {x : StateT σ n (Reply V)} (hx : Quiet files Q x)
    (hnow : ∀ vector, Q vector → ∀ kept ∈ shelf, kept.Stamps files (P kept.format) key vector)
    (s : σ) :
    Ensures (((getOrCompute shelf key (StateT.lift x)).run cache).run s) fun r =>
      Recorded shelf mayFail P keys key cache (files s) r.1.1 r.1.2 (files r.2) := by
  cases hentry : cache.published? key with
  | some entry =>
    rw [getOrCompute_run_of_published hentry]
    exact .run_pure (.found hentry)
  | none =>
    obtain ⟨hreserved, hsame, hslot, -⟩ := hwf.reserve hentry
    have hplaced := hwithin.reserve hkey
    have hdiscard := hreserved.distinct.published?_discard (cache.reserve key).1.ticket
    rw [hsame] at hdiscard
    rw [getOrCompute_run hwf hentry]
    refine Ensures.run_bind (hx s) fun reply s₁ hreply => ?_
    obtain ⟨hquiet, hvector⟩ := hreply
    rw [← hquiet]
    cases reply with
    | pending => exact .run_pure (.nothing hentry rfl hreserved hplaced hsame)
    | done result =>
      cases result with
      | error e =>
        exact .run_pure (.nothing hentry rfl (hreserved.discard _) (hplaced.discard _) hdiscard)
      | ok vector =>
        refine Ensures.run_bind (entryNow_stamped (hnow vector (hvector vector rfl)) s₁) ?_
        rintro entry s₂ ⟨hstill, rfl, rfl, hstamped⟩
        rw [← hstill]
        refine Ensures.run_bind (persist_ensures hserves hfits s₂) ?_
        rintro written s₃ (⟨rfl, hwritten⟩ | ⟨⟨fault, rfl⟩, hfail, left, hleft⟩)
        · apply Ensures.run_pure
          rw [hwritten]
          refine .made hentry rfl hstamped (hreserved.publish hslot rfl) (hplaced.publish _ _) ?_
          rw [hreserved.published?_publish hslot, hsame]
        · apply Ensures.run_pure
          rw [hleft]
          exact .unwritten hentry hfail (hreserved.discard _) (hplaced.discard _) hdiscard

/-! ### Removing -/

theorem removeWhere_clears (hwithin : cache.Within keys) (hfits : ∀ key ∈ keys, key.FitsName)
    (test : CacheKey → Slot V → Bool) (s : σ) :
    Ensures (((removeWhere shelf test).run cache).run s) fun r =>
      r.1.2 = cache.drop (cache.doomed test).contains ∧
        ∀ kept ∈ shelf, Cleared (cache.doomed test) mayFail (files s) (files r.2) := by
  rw [removeWhere_run]
  cases shelf with
  | none =>
    refine Ensures.run_bind (Ensures.trivial _) fun _ _ _ => .run_pure ⟨rfl, ?_⟩
    rintro _ ⟨⟩
  | some shelf =>
    have hdoomed : ∀ key ∈ cache.doomed test, key.FitsName :=
      fun key hkey => hfits key (hwithin.of_mem_doomed hkey)
    refine Ensures.run_bind (removeFiles_clears (hserves shelf rfl) _ hdoomed s) ?_
    intro removed s' hcleared
    exact .run_pure ⟨rfl, fun _ _ => hcleared⟩

end

end Cache

/-! ### Operations -/

namespace CacheOperation

variable {cache : Cache V} {keys : Set CacheKey} {answers : CacheKey → V → Prop}
  {shelf : Option (Shelf (StateT σ n) V)} {P : EntryFormat V → CacheEntry V → Prop}

/-- An operation asks for given keys only, with computations that leave the files alone and answer
with given vectors only. -/
def Uses [Monad n] (files : σ → Contents) (keys : Set CacheKey) (answers : CacheKey → V → Prop) :
    CacheOperation (StateT σ n) V → Prop
  | getOrCompute key compute => key ∈ keys ∧ Quiet files (answers key) compute
  | invalidate _ | retain _ | clear | reopen => True

/-- Which slots an operation removes together with their files. -/
def removal? : CacheOperation (StateT σ n) V → Option (CacheKey → Slot V → Bool)
  | invalidate fingerprint => some fun key _ => key.fingerprint == fingerprint
  | retain keep => some fun key slot => !keep key && slot.entry.isSome
  | getOrCompute _ _ | clear | reopen => none

/-- What an operation may come to in memory and on disk. -/
inductive Outcome (shelf : Option (Shelf (StateT σ n) V)) (mayFail : Option String → Prop)
    (P : EntryFormat V → CacheEntry V → Prop) (keys : Set CacheKey) (cache : Cache V)
    (before : Contents) :
    CacheOperation (StateT σ n) V → Option V → Cache V → Contents → Prop
  | asked {key : CacheKey} {compute : StateT σ n (Reply V)} {reply : Reply V} {after : Cache V}
      {contents : Contents} (hkey : key ∈ keys)
      (h : Cache.Recorded shelf mayFail P keys key cache before reply after contents) :
      Outcome shelf mayFail P keys cache before (.getOrCompute key compute) reply.value? after
        contents
  | removed {op : CacheOperation (StateT σ n) V} {test : CacheKey → Slot V → Bool}
      {contents : Contents} (htest : op.removal? = some test)
      (h : ∀ kept ∈ shelf, Cleared (cache.doomed test) mayFail before contents) :
      Outcome shelf mayFail P keys cache before op none (cache.drop (cache.doomed test).contains)
        contents
  | cleared :
      Outcome shelf mayFail P keys cache before .clear none { cache with slots := [] } before
  | unopened (h : ∀ kept ∈ shelf, mayFail none) :
      Outcome shelf mayFail P keys cache before .reopen none cache before
  | opened {kept : Shelf (StateT σ n) V} {names : List String} {entries : List (CacheEntry V)}
      (hkept : kept ∈ shelf) (hread : ReadFrom kept.format mayFail before names entries)
      (hall : ∀ name, Path.IsPlain name → before name ≠ none → name ∈ names) :
      Outcome shelf mayFail P keys cache before .reopen none (Cache.ofEntries entries) before

theorem Outcome.wellFormed {op : CacheOperation (StateT σ n) V} {answer : Option V}
    {after : Cache V} {before contents : Contents}
    (h : Outcome shelf mayFail P keys cache before op answer after contents)
    (hwf : cache.WellFormed) : after.WellFormed := by
  cases h with
  | asked _ h =>
    cases h with
    | found _ => exact hwf
    | made _ _ _ hafter _ _ => exact hafter
    | nothing _ _ hafter _ _ => exact hafter
    | unwritten _ _ hafter _ _ => exact hafter
  | removed _ _ => exact hwf.drop _
  | cleared => exact wellFormed_clear hwf
  | unopened _ => exact hwf
  | opened _ _ _ => exact Cache.wellFormed_ofEntries _

variable [Monad n] [LawfulMonad n] (hserves : ∀ kept ∈ shelf, kept.folder.Serves files mayFail)

include hserves

theorem reopened_outcome (s : σ) :
    Ensures (((reopened shelf).run cache).run s) fun r =>
      Outcome shelf mayFail P keys cache (files s) .reopen none r.1.2 (files r.2) := by
  unfold reopened
  cases shelf with
  | none => exact .run_pure (.unopened fun _ h => nomatch h)
  | some shelf =>
    simp only
    rw [StateT.run_bind, StateT.run_lift, bind_assoc]
    refine Ensures.run_bind (Cache.reopen_reads (hserves shelf rfl) s) ?_
    rintro result s' ⟨hsame, ⟨⟨e, rfl⟩, hfail⟩ | ⟨names, entries, rfl, hread, hall⟩⟩
    · rw [pure_bind]
      apply Ensures.run_pure
      rw [hsame]
      exact .unopened fun _ _ => hfail
    · rw [pure_bind]
      apply Ensures.run_pure
      rw [hsame]
      exact .opened rfl hread hall

theorem run_outcome (hfits : ∀ key ∈ keys, key.FitsName)
    (hnow : ∀ kept ∈ shelf, ∀ key ∈ keys, ∀ vector, answers key vector →
      kept.Stamps files (P kept.format) key vector)
    (hwf : cache.WellFormed) (hwithin : cache.Within keys) {op : CacheOperation (StateT σ n) V}
    (huses : op.Uses files keys answers) (s : σ) :
    Ensures (((op.run shelf).run cache).run s) fun r =>
      Outcome shelf mayFail P keys cache (files s) op r.1.1 r.1.2 (files r.2) := by
  cases op with
  | getOrCompute key compute =>
    obtain ⟨hkey, hquiet⟩ := huses
    have hrecords := Cache.getOrCompute_records hserves hwf hwithin hkey (hfits key hkey) hquiet
      (fun vector hvector kept hkept => hnow kept hkept key hkey vector hvector) s
    unfold run
    rw [StateT.run_bind]
    refine Ensures.run_bind hrecords ?_
    rintro ⟨reply, after⟩ s' hrecorded
    exact .run_pure (.asked hkey hrecorded)
  | invalidate fingerprint =>
    unfold run
    rw [StateT.run_bind]
    refine Ensures.run_bind (Cache.removeWhere_clears hserves hwithin hfits _ s) ?_
    rintro ⟨result, after⟩ s' ⟨rfl, hcleared⟩
    exact .run_pure (.removed rfl hcleared)
  | retain keep =>
    unfold run
    rw [StateT.run_bind]
    refine Ensures.run_bind (Cache.removeWhere_clears hserves hwithin hfits _ s) ?_
    rintro ⟨result, after⟩ s' ⟨rfl, hcleared⟩
    exact .run_pure (.removed rfl hcleared)
  | clear =>
    unfold run Cache.clear
    rw [StateT.run_bind, StateT.run_modify, pure_bind]
    exact .run_pure .cleared
  | reopen =>
    unfold run
    rw [StateT.run_bind]
    have hreopened : Ensures (((reopened shelf).run cache).run s) fun r =>
      Outcome shelf mayFail P keys cache (files s) .reopen none r.1.2 (files r.2) :=
      reopened_outcome hserves s
    refine Ensures.run_bind hreopened ?_
    rintro ⟨_, after⟩ s' houtcome
    exact .run_pure houtcome

end CacheOperation

end ContextSets
