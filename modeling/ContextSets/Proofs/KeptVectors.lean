import ContextSets.Proofs.CacheFiles
import ContextSets.Proofs.FiledEntries
import ContextSets.Proofs.IndexUpdates
import ContextSets.Proofs.SearchSpares

/-!
# Vectors that are kept

What becomes of the vectors in a folder while an index is made over them. An entry that was there when
the cache was opened stays published, and its file stays as it is, until entries are pruned; pruning
leaves the entries of all indexed texts under the present model. As long as nothing fails, what is
published is also what the files hold.
-/

namespace ContextSets

variable {n : Type → Type} {σ τ α β V : Type} {files : σ → Contents}
  {mayFail : Option String → Prop}

/-! ### Programs with a state of their own -/

section Ends

variable [Monad n]

/-- A program with a state of its own, run from a given one over another state, ends with nothing but
answers and states that are in a relation. -/
def Ends (x : StateT τ (StateT σ n) α) (t : τ) (s : σ) (R : α → τ → σ → Prop) : Prop :=
  Ensures ((x.run t).run s) fun r => R r.1.1 r.1.2 r.2

namespace Ends

variable [LawfulMonad n] {t : τ} {s : σ} {P : α → τ → σ → Prop} {R : β → τ → σ → Prop}

theorem pure {b : β} (h : R b t s) : Ends (Pure.pure b : StateT τ (StateT σ n) β) t s R :=
  Ensures.run_pure (b := (b, t)) h

theorem mono {x : StateT τ (StateT σ n) β} {R' : β → τ → σ → Prop} (h : Ends x t s R)
    (himp : ∀ b t s, R b t s → R' b t s) : Ends x t s R' :=
  Ensures.mono h fun _ hr => himp _ _ _ hr

theorem bind {x : StateT τ (StateT σ n) α} {f : α → StateT τ (StateT σ n) β} (hx : Ends x t s P)
    (hf : ∀ a t' s', P a t' s' → Ends (f a) t' s' R) : Ends (x >>= f) t s R := by
  unfold Ends
  rw [StateT.run_bind]
  exact Ensures.run_bind hx fun r s' h => hf r.1 r.2 s' h

theorem lift_bind {x : StateT σ n α} {f : α → StateT τ (StateT σ n) β} {Q : α × σ → Prop}
    (hx : Ensures (x.run s) Q) (hf : ∀ a s', Q (a, s') → Ends (f a) t s' R) :
    Ends (StateT.lift x >>= f) t s R := by
  unfold Ends
  rw [StateT.run_bind, StateT.run_lift, bind_assoc]
  refine Ensures.run_bind hx fun a s' h => ?_
  rw [pure_bind]
  exact hf a s' h

theorem get_bind {f : τ → StateT τ (StateT σ n) β} (h : Ends (f t) t s R) :
    Ends (get >>= f) t s R := by
  unfold Ends
  rw [StateT.run_bind, StateT.run_get, pure_bind]
  exact h

theorem set_bind {t' : τ} {f : PUnit → StateT τ (StateT σ n) β} (h : Ends (f ⟨⟩) t' s R) :
    Ends (set t' >>= f) t s R := by
  unfold Ends
  rw [StateT.run_bind, StateT.run_set, pure_bind]
  exact h

theorem modify_bind {change : τ → τ} {f : PUnit → StateT τ (StateT σ n) β}
    (h : Ends (f ⟨⟩) (change t) s R) : Ends (modify change >>= f) t s R := by
  unfold Ends
  rw [StateT.run_bind, StateT.run_modify, pure_bind]
  exact h

end Ends

end Ends

/-- The keys of the entries that are there. -/
def EntryFormat.heldKeys (format : EntryFormat V) (contents : Contents) : Set CacheKey :=
  {key | ∃ name entry, IsEntryFile name ∧ format.Holds contents name entry ∧ entry.key = key}

theorem EntryFormat.mem_heldKeys {format : EntryFormat V} {contents : Contents} {name : String}
    {entry : CacheEntry V} (hname : IsEntryFile name) (h : format.Holds contents name entry) :
    entry.key ∈ format.heldKeys contents :=
  ⟨name, entry, hname, h, rfl⟩

/-- A file is named after none of some keys, or only after the given one. -/
def CacheKey.Undisputed (keys : Set CacheKey) (key : CacheKey) (name : String) : Prop :=
  ∀ other ∈ keys, other.fileName = name → other = key

/-- Every file that holds an entry of a live key stays as it is, unless it may fail or is named after
another of the keys that come up. -/
def EntryFormat.Retains (format : EntryFormat V) (mayFail : Option String → Prop)
    (keys live : Set CacheKey) (before after : Contents) : Prop :=
  ∀ name entry, IsEntryFile name → format.Holds before name entry → entry.key ∈ live →
    ¬ mayFail (some name) → entry.key.Undisputed keys name → after name = before name

/-- The files hold one entry for each of some keys, in the file that is named after it, and no
other. -/
structure EntryFormat.HoldsExactly (format : EntryFormat V) (contents : Contents)
    (keys : Set CacheKey) : Prop where
  each : ∀ key ∈ keys, ∃ entry, format.kept? contents key = some entry
  nothing_else : ∀ name entry, IsEntryFile name → format.Holds contents name entry →
    entry.key ∈ keys ∧ entry.key.fileName = name

/-! ### The cache -/

namespace Cache

variable {format : EntryFormat V} {cache after : Cache V} {before contents : Contents}
  {key other : CacheKey} {keys : Set CacheKey} {entry : CacheEntry V}

/-- All entries are in files of their own keys, and of some keys just those are published that the
files hold. -/
structure Reflects (format : EntryFormat V) (keys : Set CacheKey) (cache : Cache V)
    (contents : Contents) : Prop where
  filed : format.Filed keys contents
  agrees : ∀ key ∈ keys, cache.published? key = format.kept? contents key

theorem Reflects.congr (h : cache.Reflects format keys contents)
    (hsame : after.published? = cache.published?) : after.Reflects format keys contents :=
  ⟨h.filed, fun key hkey => by rw [hsame, h.agrees key hkey]⟩

/-- An entry that a file holds is published. -/
theorem Reflects.published? {name : String} (h : cache.Reflects format keys contents)
    (hname : IsEntryFile name) (hheld : format.Holds contents name entry) :
    entry.key.fileName = name ∧ cache.published? entry.key = some entry := by
  obtain ⟨hkey, rfl⟩ := h.filed name entry hname hheld
  exact ⟨rfl, by rw [h.agrees _ hkey, EntryFormat.kept?_eq_some_iff]; exact ⟨hheld, rfl⟩⟩

/-- An entry is published and written. -/
theorem Reflects.written {shelf : Shelf (StateT σ n) V} {made : CacheEntry V}
    (h : cache.Reflects shelf.format keys before) (hinj : keys.InjOn CacheKey.fileName)
    (hfits : made.key.FitsName) (hkey : made.key ∈ keys) (hlossless : shelf.format.Lossless made)
    (hentries : after.published? = Function.update cache.published? made.key (some made)) :
    after.Reflects shelf.format keys (Shelf.written (some shelf) made before) := by
  refine ⟨fun name found hname hfound => ?_, fun other hother => ?_⟩
  · by_cases hfile : name = made.key.fileName
    · subst hfile
      obtain rfl := hlossless.safe.eq_of_written hfound
      exact ⟨hkey, rfl⟩
    · have hold := holds_of_update (holds_of_update hfound hfile) (hfits.ne_temporaryName hname)
      exact h.filed name found hname hold
  rw [hentries]
  by_cases hsame : other = made.key
  · rw [hsame, Function.update_self]
    exact (EntryFormat.kept?_eq_some_iff.mpr ⟨⟨_, Shelf.written_fileName, hlossless⟩, rfl⟩).symm
  · have hfile : other.fileName ≠ made.key.fileName := fun heq => hsame (hinj hother hkey heq)
    have htemporary := (CacheKey.temporaryName_ne_fileName made.key other).symm
    rw [Function.update_of_ne hsame, h.agrees other hother]
    exact (EntryFormat.kept?_congr (Shelf.written_of_ne hfile htemporary)).symm

/-- Slots are removed with their files. -/
theorem Reflects.removed (h : cache.Reflects format keys before) (hwf : cache.WellFormed)
    (hwithin : cache.Within keys) (hinj : keys.InjOn CacheKey.fileName)
    (hwhole : ∀ key ∈ keys, ¬ mayFail (some key.fileName)) {test : CacheKey → Slot V → Bool}
    (hcleared : Cleared (cache.doomed test) mayFail before contents) :
    (cache.drop (cache.doomed test).contains).Reflects format keys contents := by
  refine ⟨fun name found hname hfound => h.filed name found hname (hcleared.holds hfound),
    fun key hkey => ?_⟩
  rw [hwf.distinct.published?_drop]
  split
  · rename_i hgoes
    have hgone := hwithin.gone_of_mem_doomed hwhole hcleared (List.contains_iff_mem.mp hgoes)
    exact (EntryFormat.kept?_of_none hgone).symm
  · rename_i hstays
    rw [h.agrees key hkey, EntryFormat.kept?_congr (hcleared.same _)]
    intro other hother hfile
    have hsame := hinj (hwithin.of_mem_doomed hother) hkey hfile
    exact hstays (List.contains_iff_mem.mpr (hsame ▸ hother))

namespace Recorded

variable {shelf : Shelf (StateT σ n) V} {P : EntryFormat V → CacheEntry V → Prop}
  {reply : Reply V}

variable (h : Recorded (some shelf) mayFail P keys key cache before reply after contents)

include h

theorem ordered (hwf : cache.WellFormed) (hwithin : cache.Within keys) :
    after.WellFormed ∧ after.Within keys := by
  cases h with
  | found _ => exact ⟨hwf, hwithin⟩
  | made _ _ _ hafter hw _ => exact ⟨hafter, hw⟩
  | nothing _ _ hafter hw _ => exact ⟨hafter, hw⟩
  | unwritten _ _ hafter hw _ => exact ⟨hafter, hw⟩

/-- A vector that is answered is published. -/
theorem of_ok {vector : V} (hreply : reply = .ok vector) :
    ∃ entry, after.published? key = some entry := by
  cases h with
  | found hentry => exact ⟨_, hentry⟩
  | made _ _ _ _ _ hentries => exact ⟨_, by rw [hentries, Function.update_self]⟩
  | nothing _ hnone _ _ _ =>
    rw [hreply] at hnone
    cases hnone
  | unwritten _ _ _ _ _ => cases hreply

/-- What is published stays. -/
theorem published?_of_some (hentry : cache.published? other = some entry) :
    after.published? other = some entry := by
  cases h with
  | found _ => exact hentry
  | @made made _ hnone hmade _ _ _ hentries =>
    subst hmade
    have hne : other ≠ made.key := by
      rintro rfl
      rw [hnone] at hentry
      cases hentry
    rw [hentries, Function.update_of_ne hne, hentry]
  | nothing _ _ _ _ hentries => rw [hentries, hentry]
  | unwritten _ _ _ _ hentries => rw [hentries, hentry]

/-- A file with an entry of a published key stays, unless it is named after another key. -/
theorem file_same {name : String} (hkey : key ∈ keys) (hfits : key.FitsName)
    (hname : IsEntryFile name) (hundisputed : other.Undisputed keys name)
    (hentry : cache.published? other = some entry) : contents name = before name := by
  have htemporary := hfits.ne_temporaryName hname
  cases h with
  | found _ => rfl
  | @made made _ hnone hmade _ _ _ _ =>
    subst hmade
    have hfile : name ≠ made.key.fileName := by
      rintro rfl
      rw [hundisputed made.key hkey rfl, hentry] at hnone
      cases hnone
    exact Shelf.written_of_ne hfile htemporary
  | nothing _ _ _ _ _ => rfl
  | unwritten _ _ _ _ _ => exact Function.update_of_ne htemporary ..

/-- As long as nothing fails and what is written is read back, the files hold what is published. -/
theorem reflects (hinj : keys.InjOn CacheKey.fileName) (hfits : key.FitsName) (hkey : key ∈ keys)
    (hwhole : ¬ mayFail (some key.temporaryName) ∧ ¬ mayFail (some key.fileName))
    (hlossless : ∀ entry, P shelf.format entry → shelf.format.Lossless entry)
    (hbefore : cache.Reflects shelf.format keys before) :
    after.Reflects shelf.format keys contents := by
  cases h with
  | found _ => exact hbefore
  | nothing _ _ _ _ hentries => exact hbefore.congr hentries
  | unwritten _ hfail _ _ _ => exact (hfail.elim hwhole.1 hwhole.2).elim
  | made _ hmade hentry _ _ hentries =>
    subst hmade
    exact hbefore.written hinj hfits hkey (hlossless _ (hentry shelf rfl)) hentries

end Recorded

/-- A file that is not named after a removed key stays as it is. -/
theorem file_of_not_removed {removed : List CacheKey} {name : String}
    (hcleared : Cleared removed mayFail before contents) (hremoved : ∀ key ∈ removed, key ∈ keys)
    (hundisputed : key.Undisputed keys name) (hstays : key ∉ removed) :
    contents name = before name := by
  refine hcleared.same fun other hother hfile => hstays ?_
  exact hundisputed other (hremoved other hother) hfile ▸ hother

end Cache

end ContextSets
