import ContextSets.Embedding.Cache
import Mathlib.Data.List.Nodup

/-!
# Slots of the cache

What each operation on the cache does to its slots. The operations keep each key in one place.
-/

namespace ContextSets.Cache

variable {V : Type} {cache : Cache V} {key other : CacheKey} {slot : Slot V} {ticket : Nat}
  {test : CacheKey → Bool}

/-- No key has two slots. -/
def KeysDistinct (cache : Cache V) : Prop :=
  (cache.slots.map Prod.fst).Nodup

/-! ### Slots of keys -/

theorem mem_of_slot? (h : cache.slot? key = some slot) : (key, slot) ∈ cache.slots := by
  obtain ⟨⟨found, other⟩, hfound, rfl⟩ := Option.map_eq_some_iff.mp h
  have hkey : found = key := by simpa using List.find?_some hfound
  exact hkey ▸ List.mem_of_find?_eq_some hfound

theorem slot?_eq_none_iff : cache.slot? key = none ↔ ∀ slot, (key, slot) ∉ cache.slots := by
  simp only [slot?, Option.map_eq_none_iff, List.find?_eq_none, beq_iff_eq, Prod.forall]
  constructor
  · intro h slot hmem
    exact h key slot hmem rfl
  · rintro h other slot hmem rfl
    exact h slot hmem

theorem slot?_of_mem (hdistinct : cache.KeysDistinct) (h : (key, slot) ∈ cache.slots) :
    cache.slot? key = some slot := by
  cases hfound : cache.slot? key with
  | none => exact absurd h (slot?_eq_none_iff.mp hfound slot)
  | some other =>
    have heq := List.inj_on_of_nodup_map hdistinct (mem_of_slot? hfound) h rfl
    rw [(Prod.mk.inj heq).2]

/-- A slot that is in the cache is still that of its key. -/
theorem holds_of_mem (hdistinct : cache.KeysDistinct) (h : (key, slot) ∈ cache.slots) :
    cache.holds key slot.ticket = true := by
  rw [holds, slot?_of_mem hdistinct h]
  exact beq_self_eq_true slot.ticket

/-! ### Slots after an operation -/

theorem mem_drop :
    (key, slot) ∈ (cache.drop test).slots ↔ (key, slot) ∈ cache.slots ∧ test key = false := by
  simp [drop, List.mem_filter]

theorem mem_place {entry : Option (CacheEntry V)} :
    (other, slot) ∈ (cache.place key entry).slots ↔
      ((other, slot) ∈ cache.slots ∧ other ≠ key) ∨
        (other = key ∧ slot = ⟨cache.tickets, entry⟩) := by
  simp [place, drop, List.mem_filter]

theorem mem_publish {entry : CacheEntry V} :
    (key, slot) ∈ (cache.publish ticket entry).slots ↔
      ∃ old, (key, old) ∈ cache.slots ∧
        slot = if old.ticket = ticket then { old with entry := some entry } else old := by
  simp only [publish, List.mem_map, Prod.mk.injEq, Prod.exists]
  constructor
  · intro hgiven
    obtain ⟨_, old, hmem, rfl, rfl⟩ := hgiven
    exact ⟨old, hmem, rfl⟩
  · intro hgiven
    obtain ⟨old, hmem, rfl⟩ := hgiven
    exact ⟨_, old, hmem, rfl, rfl⟩

theorem mem_discard :
    (key, slot) ∈ (cache.discard ticket).slots ↔
      (key, slot) ∈ cache.slots ∧ (slot.ticket ≠ ticket ∨ slot.entry.isSome = true) := by
  simp [discard, List.mem_filter]

theorem KeysDistinct.empty : (∅ : Cache V).KeysDistinct :=
  List.nodup_nil

theorem KeysDistinct.drop (h : cache.KeysDistinct) (test : CacheKey → Bool) :
    (cache.drop test).KeysDistinct :=
  h.sublist (List.filter_sublist.map _)

theorem KeysDistinct.place (h : cache.KeysDistinct) (key : CacheKey)
    (entry : Option (CacheEntry V)) : (cache.place key entry).KeysDistinct := by
  rw [KeysDistinct, Cache.place, List.map_append, List.map_singleton]
  refine List.nodup_append.mpr ⟨h.drop _, List.nodup_singleton _, ?_⟩
  intro other hother found hfound heq
  have hkey : other = key := heq.trans (List.mem_singleton.mp hfound)
  obtain ⟨⟨old, slot⟩, hslot, hold⟩ := List.mem_map.mp hother
  obtain ⟨-, hne⟩ := mem_drop.mp hslot
  exact beq_eq_false_iff_ne.mp hne (hold.trans hkey)

theorem KeysDistinct.publish (h : cache.KeysDistinct) (ticket : Nat) (entry : CacheEntry V) :
    (cache.publish ticket entry).KeysDistinct := by
  rw [KeysDistinct, Cache.publish, List.map_map]
  exact h

theorem KeysDistinct.discard (h : cache.KeysDistinct) (ticket : Nat) :
    (cache.discard ticket).KeysDistinct :=
  h.sublist (List.filter_sublist.map _)

/-! ### Dropping by a list of keys -/

/-- Dropping the keys of all slots that pass a test of their keys is dropping by the test. -/
theorem drop_contains (cache : Cache V) (test : CacheKey → Bool) :
    cache.drop ((cache.slots.filter fun (key, _) => test key).map Prod.fst).contains =
      cache.drop test := by
  unfold drop
  congr 1
  refine List.filter_congr fun entry hentry => ?_
  obtain ⟨key, slot⟩ := entry
  congr 1
  rw [Bool.eq_iff_iff, List.contains_iff_mem]
  simp only [List.mem_map, List.mem_filter, Prod.exists, exists_and_right, exists_eq_right]
  exact ⟨And.right, fun htest => ⟨⟨slot, hentry⟩, htest⟩⟩

end ContextSets.Cache
