import ContextSets.Proofs.MemoryFolder
import Mathlib.Data.Set.Card

/-!
# Stored vectors

To one caller after another, and as long as no file fails, the cache is a partial map from keys to
vectors. What it holds can be told from what has been done with it: for every key the first vector
that was answered since the key was last removed. Slots, which are reserved before there is a vector
for them, cannot be seen, and none is left empty.
-/

namespace ContextSets

/-! ### What has been done -/

/-- Something done with a cache: asking for the vector of a key, and what came of it, or removing the
vectors whose keys pass a test. -/
inductive CacheEvent (V : Type) where
  | asked (key : CacheKey) (result : Except EmbeddingError V)
  | removed (test : CacheKey → Bool)

namespace CacheEvent

variable {V : Type}

/-- Whether a key has been removed. -/
def removes (key : CacheKey) : CacheEvent V → Bool
  | asked _ _ => false
  | removed test => test key

/-- The vector that was answered for a key. -/
def vector? (key : CacheKey) : CacheEvent V → Option V
  | asked other result => if other = key then result.toOption else none
  | removed _ => none

/-- The first vector that was answered for a key since it was last removed. Of the events the latest
is the first in the list; before all of them there may have been vectors already. -/
def firstSince (start : CacheKey → Option V) (history : List (CacheEvent V)) (key : CacheKey) :
    Option V :=
  (if history.any (·.removes key) then none else start key).or
    ((history.takeWhile fun event => !event.removes key).reverse.findSome? (·.vector? key))

variable {start : CacheKey → Option V} {history : List (CacheEvent V)}

theorem firstSince_nil : firstSince start [] = start := by
  funext key
  exact Option.or_none

/-- What was answered before comes first. -/
theorem firstSince_asked (key : CacheKey) (result : Except EmbeddingError V) (other : CacheKey) :
    firstSince start (asked key result :: history) other =
      (firstSince start history other).or (if key = other then result.toOption else none) := by
  have hremoves : (asked key result).removes other = false := rfl
  have hlast : [asked key result].findSome? (·.vector? other) =
      if key = other then result.toOption else none := by
    rw [List.findSome?_singleton]
    rfl
  unfold firstSince
  rw [List.any_cons, hremoves, Bool.false_or, List.takeWhile_cons_of_pos (by rw [hremoves]; rfl),
    List.reverse_cons, List.findSome?_append, hlast, Option.or_assoc]

theorem firstSince_removed (test : CacheKey → Bool) (key : CacheKey) :
    firstSince start (removed test :: history) key =
      if test key then none else firstSince start history key := by
  have hremoves : (removed test : CacheEvent V).removes key = test key := rfl
  unfold firstSince
  rw [List.any_cons, hremoves]
  by_cases htest : test key = true
  · rw [List.takeWhile_cons_of_neg (by rw [hremoves, htest]; decide), htest]
    rfl
  · have hkept : test key = false := Bool.eq_false_of_not_eq_true htest
    have hlast : [(removed test : CacheEvent V)].findSome? (·.vector? key) = none := rfl
    rw [List.takeWhile_cons_of_pos (by rw [hremoves, hkept]; rfl), hkept, Bool.false_or,
      List.reverse_cons, List.findSome?_append, hlast, Option.or_none]
    rfl

end CacheEvent

namespace Cache

/-! ### Files that do not fail -/

/-- A folder that serves without faults does not fail. -/
theorem faultless_of_serves {n : Type → Type} [Monad n] [LawfulMonad n] {σ V : Type}
    {shelf : Shelf (StateT σ n) V} {files : σ → Contents} {keys : Set CacheKey}
    (hserves : shelf.folder.Serves files fun _ => False) (hfits : ∀ key ∈ keys, key.FitsName) :
    Faultless (some shelf) keys where
  persists := by
    intro entry hentry
    apply Ensures.of_run
    intro s
    refine (persist_writes hserves (hfits _ hentry) s).mono ?_
    intro r hr
    rcases hr with ⟨hok, -⟩ | ⟨-, hfail, -⟩
    · exact hok
    · exact absurd hfail (or_self_iff.not.mpr id)
  removes := by
    intro kept hkept key hkey
    cases hkept
    apply Ensures.of_run
    intro s
    refine (hserves.remove s _ (hfits key hkey).isPlain_fileName).mono ?_
    intro r hr
    rcases hr with ⟨hresult, -⟩ | ⟨-, hfail, -⟩
    · exact hresult
    · exact absurd hfail id

/-! ### Caches without empty slots -/

section Settled

variable {V : Type} {cache : Cache V} {key : CacheKey}

/-- Every slot has been published. -/
def Settled (cache : Cache V) : Prop :=
  ∀ key slot, (key, slot) ∈ cache.slots → slot.entry.isSome = true

theorem Settled.drop (h : cache.Settled) (test : CacheKey → Bool) : (cache.drop test).Settled :=
  fun key slot hslot => h key slot (mem_drop.mp hslot).1

theorem Settled.place (h : cache.Settled) (key : CacheKey) (entry : CacheEntry V) :
    (cache.place key (some entry)).Settled := by
  intro other slot hslot
  rcases mem_place.mp hslot with ⟨hold, -⟩ | ⟨-, rfl⟩
  · exact h other slot hold
  · rfl

theorem settled_ofEntries (entries : List (CacheEntry V)) : (ofEntries entries).Settled := by
  induction entries using List.reverseRecOn with
  | nil => exact fun _ _ h => nomatch h
  | append_singleton entries last ih =>
    rw [ofEntries_concat]
    exact ih.place last.key last

/-- What is not published has no slot at all. -/
theorem Settled.slot?_eq_none (h : cache.Settled) (hnone : cache.published? key = none) :
    cache.slot? key = none := by
  cases hslot : cache.slot? key with
  | none => rfl
  | some slot =>
    have hentry := h key slot (mem_of_slot? hslot)
    rw [published?, hslot, Option.bind_some] at hnone
    rw [hnone] at hentry
    cases hentry

theorem Settled.reserve_eq (h : cache.Settled) (hnone : cache.published? key = none) :
    cache.reserve key = (⟨cache.tickets, none⟩, cache.place key none) := by
  rw [reserve, h.slot?_eq_none hnone]

/-- A slot that is given up leaves no trace. -/
theorem Settled.slots_discard_place (h : cache.Settled) (hnone : cache.published? key = none) :
    ((cache.place key none).discard cache.tickets).slots = cache.slots := by
  have hkeys : ∀ entry ∈ cache.slots, (!(entry.1 == key)) = true := by
    intro entry hentry
    obtain ⟨other, slot⟩ := entry
    have hne : other ≠ key := by
      rintro rfl
      exact slot?_eq_none_iff.mp (h.slot?_eq_none hnone) slot hentry
    simpa using hne
  have hpublished : ∀ entry ∈ cache.slots,
      (entry.2.ticket != cache.tickets || entry.2.entry.isSome) = true := by
    intro entry hentry
    rw [h entry.1 entry.2 hentry, Bool.or_true]
  have hplaced : (cache.place key none).slots =
      cache.slots ++ [(key, ⟨cache.tickets, none⟩)] := by
    show cache.slots.filter _ ++ _ = _
    rw [List.filter_eq_self.mpr hkeys]
  show (cache.place key none).slots.filter _ = _
  rw [hplaced, List.filter_append, List.filter_eq_self.mpr hpublished]
  simp

theorem Settled.publish_place (h : cache.Settled) (entry : CacheEntry V) :
    ((cache.place key none).publish cache.tickets entry).Settled := by
  intro other slot hslot
  obtain ⟨old, hold, rfl⟩ := mem_publish.mp hslot
  rcases mem_place.mp hold with ⟨hmem, -⟩ | ⟨-, rfl⟩
  · split
    · rfl
    · exact h other old hmem
  · rw [if_pos rfl]
    rfl

/-- On a settled cache, a test of keys and slots may come down to a test of keys. -/
theorem doomed_eq {pick : CacheKey → Slot V → Bool} {test : CacheKey → Bool}
    (hpick : ∀ key slot, (key, slot) ∈ cache.slots → pick key slot = test key) :
    cache.doomed pick = cache.doomed fun key _ => test key := by
  unfold doomed
  congr 1
  exact List.filter_congr fun entry hentry => hpick entry.1 entry.2 hentry

end Settled

/-! ### Caches that stand for maps -/

/-- A cache stands for a partial map from given keys to vectors. -/
structure Represents {V : Type} (keys : Set CacheKey) (stored : CacheKey → Option V)
    (cache : Cache V) : Prop where
  wellFormed : cache.WellFormed
  settled : cache.Settled
  within : cache.Within keys
  get : cache.get? = stored

namespace Represents

section

variable {V : Type} {cache : Cache V} {key : CacheKey} {keys : Set CacheKey}
  {stored : CacheKey → Option V}

theorem ofEntries {entries : List (CacheEntry V)} (h : ∀ entry ∈ entries, entry.key ∈ keys) :
    Represents keys (Cache.ofEntries entries).get? (Cache.ofEntries entries) where
  wellFormed := wellFormed_ofEntries entries
  settled := settled_ofEntries entries
  within := within_ofEntries h
  get := rfl

theorem published?_eq_none (h : Represents keys stored cache) (hnone : stored key = none) :
    cache.published? key = none := by
  rw [← h.get] at hnone
  exact get?_eq_none_iff.mp hnone

theorem exists_published? {vector : V} (h : Represents keys stored cache)
    (hstored : stored key = some vector) :
    ∃ entry, cache.published? key = some entry ∧ entry.vector = vector := by
  rw [← h.get] at hstored
  exact get?_eq_some_iff.mp hstored

/-- There is a slot for every vector and for nothing else. -/
theorem slot_iff (h : Represents keys stored cache) :
    (∃ slot, (key, slot) ∈ cache.slots) ↔ (stored key).isSome = true := by
  constructor
  · intro hslot
    obtain ⟨slot, hslot⟩ := hslot
    obtain ⟨entry, hentry⟩ := Option.isSome_iff_exists.mp (h.settled key slot hslot)
    have hpublished := h.wellFormed.distinct.published?_eq_some_iff.mpr ⟨slot, hslot, hentry⟩
    rw [← h.get, get?_eq_map, hpublished]
    rfl
  · intro hsome
    obtain ⟨vector, hvector⟩ := Option.isSome_iff_exists.mp hsome
    obtain ⟨entry, hentry, -⟩ := h.exists_published? hvector
    obtain ⟨slot, hslot, -⟩ := h.wellFormed.distinct.published?_eq_some_iff.mp hentry
    exact ⟨slot, hslot⟩

theorem drop (h : Represents keys stored cache) (test : CacheKey → Bool) :
    Represents keys (fun key => if test key then none else stored key) (cache.drop test) where
  wellFormed := h.wellFormed.drop test
  settled := h.settled.drop test
  within := h.within.drop test
  get := by
    funext key
    rw [get?_eq_map, h.wellFormed.distinct.published?_drop, ← h.get, get?_eq_map]
    split
    · rfl
    · rfl

theorem publish {vector : V} {now : String} (h : Represents keys stored cache) (hkey : key ∈ keys)
    (hnone : stored key = none) :
    Represents keys (Function.update stored key (some vector))
      ((cache.place key none).publish cache.tickets ⟨key, vector, now⟩) := by
  have hempty := h.published?_eq_none hnone
  obtain ⟨hreserved, hsame, hslot, -⟩ := h.wellFormed.reserve hempty
  rw [h.settled.reserve_eq hempty] at hreserved hsame hslot
  refine ⟨hreserved.publish hslot rfl, h.settled.publish_place _,
    (h.within.place hkey none).publish _ _, ?_⟩
  have hentries : ((cache.place key none).publish cache.tickets ⟨key, vector, now⟩).published? =
      Function.update cache.published? key (some ⟨key, vector, now⟩) := by
    rw [hreserved.published?_publish hslot, hsame]
  funext other
  rw [get?_eq_map, hentries, ← h.get]
  by_cases hother : other = key
  · rw [hother, Function.update_self, Function.update_self]
    rfl
  · rw [Function.update_of_ne hother, Function.update_of_ne hother]
    rfl

theorem discard (h : Represents keys stored cache) (hkey : key ∈ keys)
    (hnone : stored key = none) :
    Represents keys stored ((cache.place key none).discard cache.tickets) := by
  have hempty := h.published?_eq_none hnone
  have hslots := h.settled.slots_discard_place hempty
  obtain ⟨hreserved, -⟩ := h.wellFormed.reserve hempty
  rw [h.settled.reserve_eq hempty] at hreserved
  refine ⟨hreserved.discard _, ?_, (h.within.place hkey none).discard _, ?_⟩
  · unfold Settled
    rw [hslots]
    exact h.settled
  · rw [← h.get]
    funext other
    unfold get? slot?
    rw [hslots]

end

variable {m : Type → Type} [Monad m] [LawfulMonad m] {V : Type} {shelf : Option (Shelf m V)}
  {cache : Cache V} {key : CacheKey} {keys : Set CacheKey} {stored : CacheKey → Option V}

/-! ### Asking for a vector -/

/-- What is stored is answered, and nothing is computed. -/
theorem hit {vector : V} (h : Represents keys stored cache) (hstored : stored key = some vector)
    (compute : StateT (Cache V) m (Reply V)) :
    (getOrCompute shelf key compute).run cache = pure (.ok vector, cache) := by
  obtain ⟨entry, hentry, rfl⟩ := h.exists_published? hstored
  exact getOrCompute_run_of_published hentry compute

/-- What is not stored is computed first. -/
theorem miss (h : Represents keys stored cache) (hnone : stored key = none)
    (compute : m (Reply V)) :
    (getOrCompute shelf key (StateT.lift compute)).run cache =
      compute >>= conclude shelf key cache.tickets (cache.place key none) := by
  have hempty := h.published?_eq_none hnone
  rw [getOrCompute_run h.wellFormed hempty, h.settled.reserve_eq hempty]

/-- A computed vector is stored and answered. -/
theorem made (hfaultless : Faultless shelf keys) (h : Represents keys stored cache)
    (hkey : key ∈ keys) (hnone : stored key = none) (vector : V) :
    Ensures (conclude shelf key cache.tickets (cache.place key none) (.ok vector)) fun r =>
      r.1 = .ok vector ∧ Represents keys (Function.update stored key (some vector)) r.2 := by
  refine (entryNow_entry shelf key vector).bind ?_
  intro entry hentry
  obtain ⟨_, _, now⟩ := entry
  obtain ⟨rfl, rfl⟩ := hentry
  refine (hfaultless.persists _ hkey).bind ?_
  rintro _ rfl
  exact .pure ⟨rfl, h.publish hkey hnone⟩

/-- Whatever comes of asking, a key keeps the vector that it has. -/
theorem ask (hfaultless : Faultless shelf keys) (h : Represents keys stored cache)
    (hkey : key ∈ keys) (compute : m (Reply V)) :
    Ensures ((getOrCompute shelf key (StateT.lift compute)).run cache) fun r =>
      ∀ result, r.1 = .done result → Represents keys
        (fun other => (stored other).or (if key = other then result.toOption else none)) r.2 := by
  cases hstored : stored key with
  | some vector =>
    rw [h.hit hstored]
    refine .pure ?_
    rintro _ ⟨⟩
    convert h using 2 with other
    by_cases hother : key = other
    · rw [← hother, hstored]
      rfl
    · rw [if_neg hother, Option.or_none]
  | none =>
    rw [h.miss hstored]
    refine (Ensures.trivial compute).bind fun reply _ => ?_
    cases reply with
    | pending => exact .pure fun _ hresult => nomatch hresult
    | done result =>
      cases result with
      | error e =>
        refine .pure ?_
        rintro _ ⟨⟩
        convert h.discard hkey hstored using 2 with other
        rw [Except.toOption, ite_self, Option.or_none]
      | ok vector =>
        refine (h.made hfaultless hkey hstored vector).mono ?_
        rintro ⟨reply, after⟩ ⟨rfl, hafter⟩ _ ⟨⟩
        convert hafter using 2 with other
        by_cases hother : key = other
        · rw [← hother, hstored, if_pos rfl, Function.update_self]
          rfl
        · rw [if_neg hother, Option.or_none, Function.update_of_ne (Ne.symm hother)]

/-! ### Removing -/

/-- As many slots are removed as there are vectors whose keys pass the test. -/
theorem encard_doomed (h : Represents keys stored cache) (test : CacheKey → Bool) :
    {key | test key = true ∧ (stored key).isSome = true}.encard =
      (cache.doomed fun key _ => test key).length := by
  have hset : {key | test key = true ∧ (stored key).isSome = true} =
      ((cache.doomed fun key _ => test key).toFinset : Set CacheKey) := by
    ext key
    rw [List.coe_toFinset, Set.mem_ofPred_eq, Set.mem_ofPred_eq, mem_doomed, ← h.slot_iff]
    constructor
    · rintro ⟨htest, slot, hslot⟩
      exact ⟨slot, hslot, htest⟩
    · rintro ⟨slot, hslot, htest⟩
      exact ⟨htest, slot, hslot⟩
  have hdistinct : (cache.doomed fun key _ => test key).Nodup :=
    h.wellFormed.distinct.sublist (List.filter_sublist.map _)
  rw [hset, Set.encard_coe_eq_coe_finsetCard, List.toFinset_card_of_nodup hdistinct]

/-- The vectors whose keys pass a test are removed and counted. -/
theorem remove (hfaultless : Faultless shelf keys) (h : Represents keys stored cache)
    (pick : CacheKey → Slot V → Bool) (test : CacheKey → Bool)
    (hpick : ∀ key slot, (key, slot) ∈ cache.slots → pick key slot = test key) :
    Ensures ((removeWhere shelf pick).run cache) fun r =>
      (∃ count : Nat, r.1 = .ok count ∧
        {key | test key = true ∧ (stored key).isSome = true}.encard = count) ∧
      Represents keys (fun key => if test key then none else stored key) r.2 := by
  rw [removeWhere_run, doomed_eq hpick]
  refine (hfaultless.removeFiles fun _ => h.within.of_mem_doomed).bind ?_
  rintro _ rfl
  refine .pure ⟨⟨_, rfl, h.encard_doomed test⟩, ?_⟩
  show Represents keys _ (cache.drop (cache.doomed fun key _ => test key).contains)
  rw [show cache.drop (cache.doomed fun key _ => test key).contains = cache.drop test from
    drop_contains cache test]
  exact h.drop test

end Represents

/-! ### A cache as a map -/

/-- What removing vectors by a test of their keys comes to: their number, and a cache without
them. -/
structure Removes {V : Type} (stored : CacheKey → Option V) (test : CacheKey → Bool)
    (result : Except EmbeddingError Nat) (after : Cache V) : Prop where
  number : ∃ count : Nat, result = .ok count ∧
    {key | test key = true ∧ (stored key).isSome = true}.encard = count
  rest : ∀ key, after.get? key = if test key then none else stored key

/-- A cache does as a partial map from keys to vectors does. -/
structure Implements {m : Type → Type} [Monad m] {V : Type} (shelf : Option (Shelf m V))
    (keys : Set CacheKey) (stored : CacheKey → Option V) (cache : Cache V) : Prop where
  /-- What is stored is found. -/
  get : ∀ key, cache.get? key = stored key
  contains : ∀ key, cache.contains key = (stored key).isSome
  /-- There is a slot for every vector and for nothing else. -/
  slots : ∀ key, (∃ slot, (key, slot) ∈ cache.slots) ↔ (stored key).isSome = true
  /-- What is stored is answered, without a computation. -/
  hit : ∀ key vector, stored key = some vector → ∀ compute : StateT (Cache V) m (Reply V),
    (getOrCompute shelf key compute).run cache = pure (.ok vector, cache)
  /-- What is not stored is computed. If that succeeds, the vector is answered and stored; if it
  fails, the error is answered, and there are the same slots as before. -/
  miss : ∀ key ∈ keys, stored key = none → ∃ conclude : Reply V → m (Reply V × Cache V),
    (∀ compute, (getOrCompute shelf key (StateT.lift compute)).run cache = compute >>= conclude) ∧
    (∀ vector, Ensures (conclude (.ok vector)) fun r =>
      r.1 = .ok vector ∧ r.2.get? = Function.update stored key (some vector)) ∧
    ∀ e, ∃ after, conclude (.error e) = pure (.error e, after) ∧ after.slots = cache.slots
  invalidate : ∀ fingerprint, Ensures ((invalidate shelf fingerprint).run cache) fun r =>
    Removes stored (·.fingerprint == fingerprint) r.1 r.2
  retain : ∀ keep : CacheKey → Bool, Ensures ((retain shelf keep).run cache) fun r =>
    Removes stored (!keep ·) r.1 r.2
  clear : ∃ after, (clear : StateT (Cache V) m Unit).run cache = pure ((), after) ∧
    ∀ key, after.get? key = none

/-- What operations one after another on a cache may come to, with what has been done, the latest
first. The keys asked for are given ones; computations succeed or fail. -/
inductive Run {m : Type → Type} [Monad m] {V : Type} (shelf : Option (Shelf m V))
    (keys : Set CacheKey) (start : Cache V) : List (CacheEvent V) → Cache V → Prop
  | start : Run shelf keys start [] start
  | asked {history : List (CacheEvent V)} {cache after : Cache V} {key : CacheKey}
      {compute : m (Reply V)} {result : Except EmbeddingError V}
      (h : Run shelf keys start history cache) (hkey : key ∈ keys)
      (hends : Yields ((getOrCompute shelf key (StateT.lift compute)).run cache)
        (.done result, after)) :
      Run shelf keys start (.asked key result :: history) after
  | invalidated {history : List (CacheEvent V)} {cache after : Cache V} {fingerprint : String}
      {result : Except EmbeddingError Nat} (h : Run shelf keys start history cache)
      (hends : Yields ((invalidate shelf fingerprint).run cache) (result, after)) :
      Run shelf keys start (.removed (·.fingerprint == fingerprint) :: history) after
  | retained {history : List (CacheEvent V)} {cache after : Cache V} {keep : CacheKey → Bool}
      {result : Except EmbeddingError Nat} (h : Run shelf keys start history cache)
      (hends : Yields ((retain shelf keep).run cache) (result, after)) :
      Run shelf keys start (.removed (!keep ·) :: history) after
  | cleared {history : List (CacheEvent V)} {cache after : Cache V}
      (h : Run shelf keys start history cache)
      (hends : Yields ((clear : StateT (Cache V) m Unit).run cache) ((), after)) :
      Run shelf keys start (.removed (fun _ => true) :: history) after

section

variable {m : Type → Type} [Monad m] [LawfulMonad m] {V : Type} {shelf : Option (Shelf m V)}
  {cache start : Cache V} {keys : Set CacheKey} {stored : CacheKey → Option V}

theorem Represents.invalidate (hfaultless : Faultless shelf keys)
    (h : Represents keys stored cache) (fingerprint : String) :
    Ensures ((Cache.invalidate shelf fingerprint).run cache) fun r =>
      Removes stored (·.fingerprint == fingerprint) r.1 r.2 ∧
      Represents keys
        (fun key => if key.fingerprint == fingerprint then none else stored key) r.2 := by
  have hremove := h.remove hfaultless (fun key _ => key.fingerprint == fingerprint)
    (fun key => key.fingerprint == fingerprint) fun _ _ _ => rfl
  refine hremove.mono ?_
  intro r hr
  exact ⟨⟨hr.1, fun key => congrFun hr.2.get key⟩, hr.2⟩

/-- As every slot has been published, none is spared. -/
theorem Represents.retain (hfaultless : Faultless shelf keys) (h : Represents keys stored cache)
    (keep : CacheKey → Bool) :
    Ensures ((Cache.retain shelf keep).run cache) fun r =>
      Removes stored (!keep ·) r.1 r.2 ∧
      Represents keys (fun key => if !keep key then none else stored key) r.2 := by
  have hpick : ∀ key slot, (key, slot) ∈ cache.slots →
      (!keep key && slot.entry.isSome) = !keep key := by
    intro key slot hslot
    rw [h.settled key slot hslot, Bool.and_true]
  have hremove := h.remove hfaultless (fun key slot => !keep key && slot.entry.isSome)
    (fun key => !keep key) hpick
  refine hremove.mono ?_
  intro r hr
  exact ⟨⟨hr.1, fun key => congrFun hr.2.get key⟩, hr.2⟩

theorem Represents.clear (h : Represents keys stored cache) :
    Represents keys (fun _ => none) ({ cache with slots := [] } : Cache V) where
  wellFormed := CacheOperation.wellFormed_clear h.wellFormed
  settled := fun _ _ hslot => nomatch hslot
  within := fun _ _ hslot => nomatch hslot
  get := rfl

theorem Represents.implements (hfaultless : Faultless shelf keys)
    (h : Represents keys stored cache) : Implements shelf keys stored cache where
  get := congrFun h.get
  contains := fun key => by rw [contains, h.get]
  slots := fun _ => h.slot_iff
  hit := fun _ _ hstored => h.hit hstored
  miss := by
    intro key hkey hnone
    refine ⟨_, h.miss hnone, ?_, ?_⟩
    · intro vector
      exact (h.made hfaultless hkey hnone vector).mono fun r hr => ⟨hr.1, hr.2.get⟩
    · intro e
      exact ⟨_, rfl, h.settled.slots_discard_place (h.published?_eq_none hnone)⟩
  invalidate := fun fingerprint => (h.invalidate hfaultless fingerprint).mono fun _ hr => hr.1
  retain := fun keep => (h.retain hfaultless keep).mono fun _ hr => hr.1
  clear := ⟨_, rfl, fun _ => rfl⟩

open CacheEvent in
/-- After any run, the cache stands for the map that the events make. -/
theorem Run.represents {history : List (CacheEvent V)} (hfaultless : Faultless shelf keys)
    (hstart : Represents keys start.get? start) (h : Run shelf keys start history cache) :
    Represents keys (firstSince start.get? history) cache := by
  induction h with
  | start =>
    rw [firstSince_nil]
    exact hstart
  | asked _ hkey hends ih =>
    convert hends _ (ih.ask hfaultless hkey _) _ rfl using 2 with other
    exact firstSince_asked _ _ other
  | invalidated _ hends ih =>
    convert (hends _ (ih.invalidate hfaultless _)).2 using 2 with key
    exact firstSince_removed _ key
  | retained _ hends ih =>
    convert (hends _ (ih.retain hfaultless _)).2 using 2 with key
    exact firstSince_removed _ key
  | cleared _ hends ih =>
    have hafter := hends (fun r => Represents keys (fun _ => none) r.2) (.pure ih.clear)
    convert hafter using 2 with key
    exact firstSince_removed _ key

end

/-- As long as no file fails, a cache that was opened with some entries, or with none, does after any
operations as a partial map does: a key has the first vector that was answered for it since it was
last removed, or, if it was not removed, the one it had at the start. -/
theorem cache_implements_partial_map {m : Type → Type} [Monad m] [LawfulMonad m] {V : Type}
    (shelf : Option (Shelf m V)) (keys : Set CacheKey) (hfaultless : Faultless shelf keys)
    (loaded : List (CacheEntry V)) (hloaded : ∀ entry ∈ loaded, entry.key ∈ keys)
    (history : List (CacheEvent V)) (cache : Cache V)
    (h : Run shelf keys (ofEntries loaded) history cache) :
    Implements shelf keys (CacheEvent.firstSince (ofEntries loaded).get? history) cache :=
  (h.represents hfaultless (.ofEntries hloaded)).implements hfaultless

/-! ### An example -/

/-- Asking in a program that has no effects but on a state, as of some state. -/
theorem Run.next {σ V : Type} {shelf : Option (Shelf (StateM σ) V)} {keys : Set CacheKey}
    {start cache : Cache V} {history : List (CacheEvent V)} {key : CacheKey}
    {result : Except EmbeddingError V} (h : Run shelf keys start history cache) (hkey : key ∈ keys)
    (compute : StateM σ (Reply V)) (s : σ)
    (hresult : (((getOrCompute shelf key (StateT.lift compute)).run cache).run s).run.1.1 =
      .done result) :
    Run shelf keys start (.asked key result :: history)
      (((getOrCompute shelf key (StateT.lift compute)).run cache).run s).run.1.2 := by
  have hends := Yields.run_state ((getOrCompute shelf key (StateT.lift compute)).run cache) s
  apply h.asked hkey
  rw [← hresult]
  exact hends

/-- An entry that is there before anything is done. -/
def storedEntry : CacheEntry String := ⟨⟨"x", "m"⟩, "zero", "then"⟩

/-- A key that is asked for. -/
def askedKey : CacheKey := ⟨"y", "m"⟩

theorem cache_implements_partial_map_lines :
    ∃ history cache, Run (some lineShelf) {key | key.FitsName} (ofEntries [storedEntry]) history
        cache ∧
      history.length = 4 ∧ cache.get? storedEntry.key = none ∧ cache.get? askedKey = some "one" := by
  have hasked : askedKey.FitsName := by decide
  have hstored : storedEntry.key.FitsName := by decide
  have hstart : Run (some lineShelf) {key | key.FitsName} (ofEntries [storedEntry]) [] _ := .start
  have hfailed := hstart.next hasked (pure (.error .notConfigured)) ∅ rfl
  have hmade := hfailed.next hasked (pure (.ok "one")) ∅ rfl
  have hfound := hmade.next hasked (pure (.ok "two")) ∅ rfl
  have hremoved : Run (some lineShelf) _ _ (.removed (·.fingerprint == "x") :: _) _ :=
    hfound.invalidated (Yields.run_state _ ∅)
  have himplements := cache_implements_partial_map _ _
    (faultless_of_serves (Table.folder_serves "cache") fun _ hkey => hkey) [storedEntry]
    (List.forall_mem_singleton.mpr hstored) _ _ hremoved
  refine ⟨_, _, hremoved, rfl, ?_, ?_⟩
  · rw [himplements.get]
    decide +kernel
  · rw [himplements.get]
    decide +kernel

end Cache

end ContextSets
