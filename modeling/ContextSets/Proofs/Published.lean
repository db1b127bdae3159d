import ContextSets.Proofs.Slots
import Mathlib.Data.List.Induction
import Mathlib.Logic.Function.Basic

/-!
# Published entries

Of the slots of a cache only the published entries can be seen. Here the cache is viewed as a
partial map from keys to published entries, and each operation on slots is said to do to this map
what it is for: reserving and giving up do nothing, publishing sets one key, and dropping clears
some.
-/

namespace ContextSets.Cache

variable {V : Type} {cache : Cache V} {key : CacheKey} {slot : Slot V} {entry : CacheEntry V}

/-- The published entry of a key. -/
def published? (cache : Cache V) (key : CacheKey) : Option (CacheEntry V) :=
  (cache.slot? key).bind (·.entry)

theorem get?_eq_map (cache : Cache V) (key : CacheKey) :
    cache.get? key = (cache.published? key).map (·.vector) := rfl

theorem get?_eq_some_iff {vector : V} :
    cache.get? key = some vector ↔
      ∃ entry, cache.published? key = some entry ∧ entry.vector = vector := by
  rw [get?_eq_map, Option.map_eq_some_iff]

theorem get?_eq_none_iff : cache.get? key = none ↔ cache.published? key = none := by
  rw [get?_eq_map, Option.map_eq_none_iff]

theorem contains_iff_published? :
    cache.contains key = true ↔ ∃ entry, cache.published? key = some entry := by
  rw [contains, get?_eq_map, Option.isSome_map, Option.isSome_iff_exists]

/-- Slots are told apart by their keys and by their tickets, entries are kept under their own keys,
and no slot has a ticket that is still to be given out. -/
structure WellFormed (cache : Cache V) : Prop where
  distinct : cache.KeysDistinct
  named : ∀ key slot entry, (key, slot) ∈ cache.slots → slot.entry = some entry → entry.key = key
  ticketed : ∀ key slot other slot', (key, slot) ∈ cache.slots → (other, slot') ∈ cache.slots →
    slot.ticket = slot'.ticket → key = other
  fresh : ∀ key slot, (key, slot) ∈ cache.slots → slot.ticket < cache.tickets

/-! ### Entries and slots -/

theorem KeysDistinct.published?_eq_some_iff (h : cache.KeysDistinct) :
    cache.published? key = some entry ↔
      ∃ slot, (key, slot) ∈ cache.slots ∧ slot.entry = some entry := by
  rw [published?, Option.bind_eq_some_iff]
  constructor
  · rintro ⟨slot, hslot, hentry⟩
    exact ⟨slot, mem_of_slot? hslot, hentry⟩
  · rintro ⟨slot, hslot, hentry⟩
    exact ⟨slot, slot?_of_mem h hslot, hentry⟩

theorem WellFormed.key_of_published? (h : cache.WellFormed)
    (hentry : cache.published? key = some entry) :
    entry.key = key := by
  obtain ⟨slot, hslot, hfound⟩ := h.distinct.published?_eq_some_iff.mp hentry
  exact h.named key slot entry hslot hfound

@[simp] theorem published?_empty (key : CacheKey) : (∅ : Cache V).published? key = none := rfl

theorem WellFormed.empty : (∅ : Cache V).WellFormed where
  distinct := KeysDistinct.empty
  named := fun _ _ _ h => nomatch h
  ticketed := fun _ _ _ _ h => nomatch h
  fresh := fun _ _ h => nomatch h

/-! ### Dropping -/

theorem KeysDistinct.published?_drop (h : cache.KeysDistinct) (test : CacheKey → Bool)
    (key : CacheKey) :
    (cache.drop test).published? key = if test key then none else cache.published? key := by
  ext entry
  rw [(h.drop test).published?_eq_some_iff]
  by_cases htest : test key = true
  · simp [mem_drop, htest]
  · simp [mem_drop, htest, h.published?_eq_some_iff]

/-- Slots that stay keep the cache in order. -/
theorem WellFormed.sub {after : Cache V} (h : cache.WellFormed) (hdistinct : after.KeysDistinct)
    (hsub : ∀ key slot, (key, slot) ∈ after.slots → (key, slot) ∈ cache.slots)
    (htickets : after.tickets = cache.tickets) : after.WellFormed where
  distinct := hdistinct
  named := fun key slot entry hslot => h.named key slot entry (hsub key slot hslot)
  ticketed := fun key slot other slot' hslot hother =>
    h.ticketed key slot other slot' (hsub key slot hslot) (hsub other slot' hother)
  fresh := fun key slot hslot => htickets ▸ h.fresh key slot (hsub key slot hslot)

theorem WellFormed.drop (h : cache.WellFormed) (test : CacheKey → Bool) :
    (cache.drop test).WellFormed :=
  h.sub (h.distinct.drop test) (fun _ _ hslot => (mem_drop.mp hslot).1) rfl

theorem WellFormed.discard (h : cache.WellFormed) (ticket : Nat) :
    (cache.discard ticket).WellFormed :=
  h.sub (h.distinct.discard ticket) (fun _ _ hslot => (mem_discard.mp hslot).1) rfl

/-- A slot that is given up has not been published. -/
theorem KeysDistinct.published?_discard (h : cache.KeysDistinct) (ticket : Nat) :
    (cache.discard ticket).published? = cache.published? := by
  ext key entry
  rw [(h.discard ticket).published?_eq_some_iff, h.published?_eq_some_iff]
  constructor
  · rintro ⟨slot, hslot, hentry⟩
    exact ⟨slot, (mem_discard.mp hslot).1, hentry⟩
  · rintro ⟨slot, hslot, hentry⟩
    exact ⟨slot, mem_discard.mpr ⟨hslot, .inr (by rw [hentry]; rfl)⟩, hentry⟩

/-! ### New slots -/

theorem KeysDistinct.published?_place (h : cache.KeysDistinct) (key : CacheKey)
    (entry : Option (CacheEntry V)) :
    (cache.place key entry).published? = Function.update cache.published? key entry := by
  ext other found
  rw [(h.place key entry).published?_eq_some_iff]
  by_cases hkey : other = key
  · subst hkey
    simp [mem_place]
  · simp [mem_place, hkey, h.published?_eq_some_iff]

theorem WellFormed.place (h : cache.WellFormed) (key : CacheKey) {entry : Option (CacheEntry V)}
    (hentry : ∀ found ∈ entry, found.key = key) : (cache.place key entry).WellFormed := by
  refine ⟨h.distinct.place key entry, ?_, ?_, ?_⟩
  · intro other slot found hslot hfound
    rcases mem_place.mp hslot with ⟨hold, -⟩ | ⟨rfl, rfl⟩
    · exact h.named other slot found hold hfound
    · exact hentry found hfound
  · intro other slot other' slot' hslot hslot' hticket
    rcases mem_place.mp hslot with ⟨hold, -⟩ | ⟨rfl, rfl⟩
    · rcases mem_place.mp hslot' with ⟨hold', -⟩ | ⟨rfl, rfl⟩
      · exact h.ticketed other slot other' slot' hold hold' hticket
      · exact absurd hticket (Nat.ne_of_lt (h.fresh other slot hold))
    · rcases mem_place.mp hslot' with ⟨hold', -⟩ | ⟨rfl, rfl⟩
      · exact absurd hticket.symm (Nat.ne_of_lt (h.fresh other' slot' hold'))
      · rfl
  · intro other slot hslot
    rcases mem_place.mp hslot with ⟨hold, -⟩ | ⟨rfl, rfl⟩
    · exact Nat.lt_succ_of_lt (h.fresh other slot hold)
    · exact Nat.lt_succ_self _

/-! ### Publishing -/

/-- A slot of its own ticket is the only one that publishing changes. -/
theorem WellFormed.publish (h : cache.WellFormed) (hslot : (key, slot) ∈ cache.slots)
    (hkey : entry.key = key) : (cache.publish slot.ticket entry).WellFormed := by
  have hticket : ∀ other new, (other, new) ∈ (cache.publish slot.ticket entry).slots →
      ∃ old, (other, old) ∈ cache.slots ∧ new.ticket = old.ticket := by
    intro other new hnew
    obtain ⟨old, hold, rfl⟩ := mem_publish.mp hnew
    refine ⟨old, hold, ?_⟩
    split
    · rfl
    · rfl
  refine ⟨h.distinct.publish _ _, ?_, ?_, ?_⟩
  · intro other new found hnew hfound
    obtain ⟨old, hold, rfl⟩ := mem_publish.mp hnew
    split at hfound
    · rename_i heq
      cases hfound
      rw [hkey]
      exact h.ticketed key slot other old hslot hold heq.symm
    · exact h.named other old found hold hfound
  · intro other new other' new' hnew hnew' heq
    obtain ⟨old, hold, hsame⟩ := hticket other new hnew
    obtain ⟨old', hold', hsame'⟩ := hticket other' new' hnew'
    exact h.ticketed other old other' old' hold hold' (hsame.symm.trans (heq.trans hsame'))
  · intro other new hnew
    obtain ⟨old, hold, hsame⟩ := hticket other new hnew
    exact hsame ▸ h.fresh other old hold

theorem WellFormed.published?_publish (h : cache.WellFormed) (hslot : (key, slot) ∈ cache.slots) :
    (cache.publish slot.ticket entry).published? =
      Function.update cache.published? key (some entry) := by
  ext other found
  rw [(h.distinct.publish _ _).published?_eq_some_iff]
  by_cases hother : other = key
  · subst hother
    rw [Function.update_self]
    constructor
    · rintro ⟨new, hnew, hfound⟩
      obtain ⟨old, hold, rfl⟩ := mem_publish.mp hnew
      have hsame : old = slot :=
        (Prod.mk.inj (List.inj_on_of_nodup_map h.distinct hold hslot rfl)).2
      rw [hsame, if_pos rfl] at hfound
      exact hfound
    · intro hfound
      exact ⟨_, mem_publish.mpr ⟨slot, hslot, rfl⟩, by rw [if_pos rfl]; exact hfound⟩
  · rw [Function.update_of_ne hother, h.distinct.published?_eq_some_iff]
    -- the slot of another key has another ticket
    have hne : ∀ old, (other, old) ∈ cache.slots → old.ticket ≠ slot.ticket :=
      fun old hold heq => hother (h.ticketed other old key slot hold hslot heq)
    constructor
    · rintro ⟨new, hnew, hfound⟩
      obtain ⟨old, hold, rfl⟩ := mem_publish.mp hnew
      rw [if_neg (hne old hold)] at hfound
      exact ⟨old, hold, hfound⟩
    · rintro ⟨old, hold, hfound⟩
      exact ⟨old, mem_publish.mpr ⟨old, hold, (if_neg (hne old hold)).symm⟩, hfound⟩

/-! ### Reserving -/

theorem reserve_of_published (h : cache.published? key = some entry) :
    ∃ slot, cache.reserve key = (slot, cache) ∧ slot.entry = some entry := by
  obtain ⟨slot, hslot, hentry⟩ := Option.bind_eq_some_iff.mp h
  exact ⟨slot, by rw [reserve, hslot], hentry⟩

/-- A key without a published entry gets an empty slot, which nobody sees. -/
theorem WellFormed.reserve (h : cache.WellFormed) (hnone : cache.published? key = none) :
    (cache.reserve key).2.WellFormed ∧ (cache.reserve key).2.published? = cache.published? ∧
      (key, (cache.reserve key).1) ∈ (cache.reserve key).2.slots ∧
      (cache.reserve key).1.entry = none := by
  cases hslot : cache.slot? key with
  | some slot =>
    have hreserve : cache.reserve key = (slot, cache) := by rw [Cache.reserve, hslot]
    rw [hreserve]
    have hentry : slot.entry = none := by rwa [published?, hslot, Option.bind_some] at hnone
    exact ⟨h, rfl, mem_of_slot? hslot, hentry⟩
  | none =>
    have hreserve : cache.reserve key = (⟨cache.tickets, none⟩, cache.place key none) := by
      rw [Cache.reserve, hslot]
    rw [hreserve]
    refine ⟨h.place key fun _ hfound => (nomatch hfound), ?_, mem_place.mpr (.inr ⟨rfl, rfl⟩), rfl⟩
    rw [h.distinct.published?_place, ← hnone, Function.update_eq_self]

/-! ### Read entries -/

/-- The cache of entries read one after another. -/
def ofEntries (entries : List (CacheEntry V)) : Cache V :=
  entries.foldl (fun cache entry => cache.place entry.key (some entry)) ∅

theorem ofEntries_concat (entries : List (CacheEntry V)) (entry : CacheEntry V) :
    ofEntries (entries ++ [entry]) = (ofEntries entries).place entry.key (some entry) := by
  rw [ofEntries, List.foldl_append]
  rfl

theorem wellFormed_ofEntries (entries : List (CacheEntry V)) : (ofEntries entries).WellFormed := by
  induction entries using List.reverseRecOn with
  | nil => exact WellFormed.empty
  | append_singleton entries entry ih =>
    rw [ofEntries_concat]
    refine ih.place entry.key fun found hfound => ?_
    cases hfound
    rfl

theorem published?_ofEntries_concat (entries : List (CacheEntry V)) (entry : CacheEntry V) :
    (ofEntries (entries ++ [entry])).published? =
      Function.update (ofEntries entries).published? entry.key (some entry) := by
  rw [ofEntries_concat, (wellFormed_ofEntries entries).distinct.published?_place]

/-- What is published was read, under its own key. -/
theorem mem_of_published?_ofEntries {entries : List (CacheEntry V)}
    (h : (ofEntries entries).published? key = some entry) : entry ∈ entries ∧ entry.key = key := by
  refine ⟨?_, (wellFormed_ofEntries entries).key_of_published? h⟩
  induction entries using List.reverseRecOn with
  | nil => cases h
  | append_singleton entries last ih =>
    rw [published?_ofEntries_concat] at h
    by_cases hkey : key = last.key
    · rw [hkey, Function.update_self] at h
      cases h
      exact List.mem_append_right _ (List.mem_singleton_self _)
    · rw [Function.update_of_ne hkey] at h
      exact List.mem_append_left _ (ih h)

/-- The key of every entry that was read is published. -/
theorem exists_published?_ofEntries {entries : List (CacheEntry V)} (h : entry ∈ entries) :
    ∃ found, (ofEntries entries).published? entry.key = some found := by
  induction entries using List.reverseRecOn with
  | nil => cases h
  | append_singleton entries last ih =>
    rw [published?_ofEntries_concat]
    by_cases hkey : entry.key = last.key
    · exact ⟨last, by rw [hkey, Function.update_self]⟩
    · rw [Function.update_of_ne hkey]
      rcases List.mem_append.mp h with hold | hlast
      · exact ih hold
      · exact absurd (congrArg CacheEntry.key (List.mem_singleton.mp hlast)) hkey

end ContextSets.Cache
