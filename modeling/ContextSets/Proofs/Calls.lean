import ContextSets.Embedding.Index
import ContextSets.Proofs.Slots
import ContextSets.Proofs.Table
import Mathlib.Data.Set.Function
import Mathlib.Logic.Relation

/-!
# Calls in flight

Calls for the vectors of texts run side by side. Each goes from one access of the index, the cache
or the provider to the next, and in between any other may go on, begin, or be given up. Whatever
they do to each other, with a provider that depends on nothing but the text every vector that is
kept, and every vector that a call ends with, is the one that the provider gives for the text.
-/

namespace ContextSets

/-- A provider that gives a text the same vector or the same error whenever it is asked. -/
structure TextProvider where
  model : String
  answer : String → Except EmbeddingError Embedding

/-- What the vector of a text is kept under. -/
def TextProvider.key (provider : TextProvider) (text : String) : CacheKey :=
  ⟨Fingerprint.ofText text, provider.model⟩

/-! ### Calls -/

/-- What a call does next. -/
inductive Phase where
  /-- Looks up its path in the index. -/
  | look
  /-- Looks whether another file has the text that its file had before. -/
  | release (old : String)
  /-- Drops the vectors of that text. -/
  | invalidate (old : String)
  /-- Asks the cache. -/
  | ask
  /-- Waits at a slot. -/
  | wait (ticket : Nat)
  /-- Has asked the provider, for all that wait at a slot. -/
  | compute (ticket : Nat)
  /-- Gives the slot up after an error. -/
  | giveUp (ticket : Nat) (e : EmbeddingError)
  /-- Records its vector in the index. -/
  | record (vector : Embedding)
  /-- Nothing, as it has ended. -/
  | done (result : Except EmbeddingError Embedding)

/-- Whether a call computes the vector for a slot. -/
def Phase.computes (ticket : Nat) : Phase → Bool
  | .compute other => other == ticket
  | _ => false

/-- A call for the vector of a text, to be recorded under a path if there is one. -/
structure Call where
  path : Option String
  text : String
  phase : Phase := .look

/-- What calls share: the index with its cache, and the computed vectors by the tickets of their
slots. Who waits at a slot gets its vector even if the slot is no longer in the cache. -/
structure Shared where
  index : EmbeddingIndex
  computed : Nat → Option Embedding

namespace Shared

/-- Before any call. -/
def fresh : Shared := ⟨∅, fun _ => none⟩

/-- Changes the cache. -/
def onCache (change : Cache Embedding → Cache Embedding) (shared : Shared) : Shared :=
  { shared with index := { shared.index with cache := change shared.index.cache } }

/-- Keeps a computed vector for those who wait, and publishes it if its slot is still there. -/
def settle (shared : Shared) (entry : CacheEntry Embedding) (ticket : Nat) : Shared :=
  { shared with computed := Function.update shared.computed ticket (some entry.vector) }.onCache
    fun cache => if cache.holds entry.key ticket then cache.publish ticket entry else cache

/-- Records the vector of a file. -/
def record (shared : Shared) (path : String) (entry : IndexEntry) : Shared :=
  { shared with
    index := { shared.index with entries := shared.index.entries.insert path entry } }

/-- Forgets a file. -/
def remove (shared : Shared) (path : String) : Shared :=
  { shared with index := { shared.index with entries := shared.index.entries.erase path } }

end Shared

/-- What a call makes of what is shared, and what it does then. It cannot go on when it has ended,
or while it waits at a slot for which another call computes the vector. -/
def Call.advance (provider : TextProvider) (isBusy : Nat → Bool) (now : String) (call : Call)
    (shared : Shared) : Option (Phase × Shared) :=
  match call.phase with
  | .look =>
    match call.path.bind shared.index.entries.get? with
    | none => some (.ask, shared)
    | some entry =>
      if entry.fingerprint = Fingerprint.ofText call.text then
        some (.done (.ok entry.embedding), shared)
      else some (.release entry.fingerprint, shared)
  | .release old =>
    if call.path.any (shared.index.isShared · old) then some (.ask, shared)
    else some (.invalidate old, shared)
  | .invalidate old => some (.ask, shared.onCache (·.drop (·.fingerprint == old)))
  | .ask =>
    let (slot, cache) := shared.index.cache.reserve (provider.key call.text)
    match slot.entry with
    | some entry => some (.record entry.vector, shared.onCache fun _ => cache)
    | none => some (.wait slot.ticket, shared.onCache fun _ => cache)
  | .wait ticket =>
    match shared.computed ticket with
    | some vector => some (.record vector, shared)
    | none => if isBusy ticket then none else some (.compute ticket, shared)
  | .compute ticket =>
    match provider.answer call.text with
    | .ok vector =>
      some (.record vector, shared.settle ⟨provider.key call.text, vector, now⟩ ticket)
    | .error e => some (.giveUp ticket e, shared)
  | .giveUp ticket e => some (.done (.error e), shared.onCache (·.discard ticket))
  | .record vector =>
    match call.path with
    | none => some (.done (.ok vector), shared)
    | some path =>
      some (.done (.ok vector), shared.record path ⟨Fingerprint.ofText call.text, vector⟩)
  | .done _ => none

/-- Whether one of some calls computes the vector for a slot. -/
def isBusy (calls : List Call) (ticket : Nat) : Bool :=
  calls.any (·.phase.computes ticket)

variable {provider : TextProvider} {texts : Set String}

/-! ### Vectors that are kept -/

/-- A vector is that of every text with a key. -/
def TextProvider.Gives (provider : TextProvider) (texts : Set String) (key : CacheKey)
    (vector : Embedding) : Prop :=
  ∀ text ∈ texts, provider.key text = key → provider.answer text = .ok vector

/-- Everything that is kept is true: the published vectors, those that are computed for slots of
known owners, and those of files. -/
structure Shared.Sound (provider : TextProvider) (texts : Set String) (owner : Nat → CacheKey)
    (shared : Shared) : Prop where
  distinct : shared.index.cache.KeysDistinct
  owned : ∀ key slot, (key, slot) ∈ shared.index.cache.slots →
    owner slot.ticket = key ∧ slot.ticket < shared.index.cache.tickets
  published : ∀ key slot entry, (key, slot) ∈ shared.index.cache.slots → slot.entry = some entry →
    provider.Gives texts key entry.vector
  unpublished : ∀ key slot, (key, slot) ∈ shared.index.cache.slots → slot.entry = none →
    shared.computed slot.ticket = none
  computed : ∀ ticket vector, shared.computed ticket = some vector →
    provider.Gives texts (owner ticket) vector ∧ ticket < shared.index.cache.tickets
  indexed : ∀ path entry, shared.index.entries.get? path = some entry → ∀ text ∈ texts,
    Fingerprint.ofText text = entry.fingerprint → provider.answer text = .ok entry.embedding

/-- A call waits at slots of its own key, and what it has got is the answer to its text. -/
def Call.Sound (provider : TextProvider) (owner : Nat → CacheKey) (tickets : Nat) (call : Call) :
    Prop :=
  match call.phase with
  | .wait ticket | .compute ticket => owner ticket = provider.key call.text ∧ ticket < tickets
  | .giveUp _ e => provider.answer call.text = .error e
  | .record vector => provider.answer call.text = .ok vector
  | .done result => provider.answer call.text = result
  | _ => True

/-- Texts with different fingerprints do not share vectors. -/
theorem TextProvider.gives_of_answer (hdistinct : Set.InjOn Fingerprint.ofText texts)
    {text : String} (htext : text ∈ texts) {vector : Embedding}
    (h : provider.answer text = .ok vector) :
    provider.Gives texts (provider.key text) vector := by
  intro other hother hkey
  have hsame : other = text := hdistinct hother htext (congrArg CacheKey.fingerprint hkey)
  rw [hsame, h]

@[simp] theorem Shared.tickets_settle (shared : Shared) (entry : CacheEntry Embedding)
    (ticket : Nat) :
    (shared.settle entry ticket).index.cache.tickets = shared.index.cache.tickets := by
  simp only [Shared.settle, Shared.onCache]
  split
  · rfl
  · rfl

namespace Shared.Sound

variable {owner : Nat → CacheKey} {shared : Shared}

theorem fresh (owner : Nat → CacheKey) : Shared.fresh.Sound provider texts owner where
  distinct := Cache.KeysDistinct.empty
  owned := fun _ _ h => nomatch h
  published := fun _ _ _ h => nomatch h
  unpublished := fun _ _ h => nomatch h
  computed := fun _ _ h => nomatch h
  indexed := fun _ _ h => nomatch h

/-- What is dropped from the cache is not missed. -/
theorem onCache_sub {change : Cache Embedding → Cache Embedding}
    (h : shared.Sound provider texts owner)
    (hdistinct : (change shared.index.cache).KeysDistinct)
    (hsub : ∀ key slot, (key, slot) ∈ (change shared.index.cache).slots →
      (key, slot) ∈ shared.index.cache.slots)
    (htickets : (change shared.index.cache).tickets = shared.index.cache.tickets) :
    (shared.onCache change).Sound provider texts owner where
  distinct := hdistinct
  owned := fun key slot hmem => by
    obtain ⟨howner, hlt⟩ := h.owned key slot (hsub key slot hmem)
    exact ⟨howner, lt_of_lt_of_eq hlt htickets.symm⟩
  published := fun key slot entry hmem => h.published key slot entry (hsub key slot hmem)
  unpublished := fun key slot hmem => h.unpublished key slot (hsub key slot hmem)
  computed := fun ticket vector hcomputed => by
    obtain ⟨hgives, hlt⟩ := h.computed ticket vector hcomputed
    exact ⟨hgives, lt_of_lt_of_eq hlt htickets.symm⟩
  indexed := h.indexed

theorem drop (h : shared.Sound provider texts owner) (test : CacheKey → Bool) :
    (shared.onCache (·.drop test)).Sound provider texts owner :=
  h.onCache_sub (h.distinct.drop test) (fun _ _ hmem => (Cache.mem_drop.mp hmem).1) rfl

theorem discard (h : shared.Sound provider texts owner) (ticket : Nat) :
    (shared.onCache (·.discard ticket)).Sound provider texts owner :=
  h.onCache_sub (h.distinct.discard ticket) (fun _ _ hmem => (Cache.mem_discard.mp hmem).1) rfl

/-- A new slot gets a ticket that no slot and no call has. -/
theorem place (h : shared.Sound provider texts owner) (key : CacheKey)
    {entry : Option (CacheEntry Embedding)}
    (hentry : ∀ e ∈ entry, provider.Gives texts key e.vector) :
    (shared.onCache (·.place key entry)).Sound provider texts
      (Function.update owner shared.index.cache.tickets key) := by
  have hother : ∀ ticket, ticket < shared.index.cache.tickets →
      Function.update owner shared.index.cache.tickets key ticket = owner ticket :=
    fun ticket hlt => Function.update_of_ne hlt.ne _ _
  refine ⟨h.distinct.place key entry, ?_, ?_, ?_, ?_, h.indexed⟩
  · intro other slot hmem
    rcases Cache.mem_place.mp hmem with ⟨hold, -⟩ | ⟨rfl, rfl⟩
    · obtain ⟨howner, hlt⟩ := h.owned other slot hold
      exact ⟨(hother _ hlt).trans howner, Nat.lt_succ_of_lt hlt⟩
    · exact ⟨Function.update_self _ _ _, Nat.lt_succ_self _⟩
  · intro other slot e hmem he
    rcases Cache.mem_place.mp hmem with ⟨hold, -⟩ | ⟨rfl, rfl⟩
    · exact h.published other slot e hold he
    · exact hentry e he
  · intro other slot hmem hnone
    rcases Cache.mem_place.mp hmem with ⟨hold, -⟩ | ⟨-, rfl⟩
    · exact h.unpublished other slot hold hnone
    · refine Option.eq_none_iff_forall_ne_some.mpr fun vector hvector => ?_
      exact (h.computed _ vector hvector).2.ne rfl
  · intro ticket vector hcomputed
    obtain ⟨hgives, hlt⟩ := h.computed ticket vector hcomputed
    exact ⟨(hother ticket hlt).symm ▸ hgives, Nat.lt_succ_of_lt hlt⟩

/-- A computed vector goes to the slot of its ticket, which is a slot of its key, and to no other.
-/
theorem mem_settle (h : shared.Sound provider texts owner) {entry : CacheEntry Embedding}
    {ticket : Nat} (howner : owner ticket = entry.key) {key : CacheKey} {slot : Slot Embedding}
    (hmem : (key, slot) ∈ (shared.settle entry ticket).index.cache.slots) :
    ∃ old, (key, old) ∈ shared.index.cache.slots ∧ slot.ticket = old.ticket ∧
      (old.ticket ≠ ticket ∧ slot = old ∨ key = entry.key ∧ slot.entry = some entry) := by
  have hkey : ∀ old, (key, old) ∈ shared.index.cache.slots → old.ticket = ticket →
      key = entry.key := by
    rintro old hold rfl
    exact (h.owned key old hold).1.symm.trans howner
  simp only [Shared.settle, Shared.onCache] at hmem
  split at hmem
  · obtain ⟨old, hold, rfl⟩ := Cache.mem_publish.mp hmem
    refine ⟨old, hold, ?_⟩
    by_cases hticket : old.ticket = ticket
    · rw [if_pos hticket]
      exact ⟨rfl, .inr ⟨hkey old hold hticket, rfl⟩⟩
    · rw [if_neg hticket]
      exact ⟨rfl, .inl ⟨hticket, rfl⟩⟩
  · rename_i hgone
    refine ⟨slot, hmem, rfl, .inl ⟨fun hticket => ?_, rfl⟩⟩
    -- a slot with the ticket would be the slot of the key
    have hholds := Cache.holds_of_mem h.distinct hmem
    rw [hkey slot hmem hticket, hticket] at hholds
    exact hgone hholds

theorem settle (h : shared.Sound provider texts owner) {entry : CacheEntry Embedding} {ticket : Nat}
    (howner : owner ticket = entry.key) (hlt : ticket < shared.index.cache.tickets)
    (hgives : provider.Gives texts entry.key entry.vector) :
    (shared.settle entry ticket).Sound provider texts owner := by
  refine ⟨?_, ?_, ?_, ?_, ?_, h.indexed⟩
  · simp only [Shared.settle, Shared.onCache]
    split
    · exact h.distinct.publish ticket entry
    · exact h.distinct
  · intro key slot hmem
    obtain ⟨old, hold, hticket, -⟩ := h.mem_settle howner hmem
    rw [hticket, tickets_settle]
    exact h.owned key old hold
  · intro key slot e hmem he
    obtain ⟨old, hold, -, hslot⟩ := h.mem_settle howner hmem
    rcases hslot with ⟨-, rfl⟩ | ⟨rfl, hentry⟩
    · exact h.published key slot e hold he
    · obtain rfl := Option.some.inj (hentry.symm.trans he)
      exact hgives
  · intro key slot hmem hnone
    obtain ⟨old, hold, -, hslot⟩ := h.mem_settle howner hmem
    rcases hslot with ⟨hne, rfl⟩ | ⟨-, hentry⟩
    · exact (Function.update_of_ne hne _ _).trans (h.unpublished key slot hold hnone)
    · rw [hnone] at hentry
      cases hentry
  · intro other vector hcomputed
    rw [tickets_settle]
    by_cases hother : other = ticket
    · subst hother
      have hvector := Function.update_self other (some entry.vector) shared.computed
      obtain rfl := Option.some.inj (hvector.symm.trans hcomputed)
      exact ⟨howner.symm ▸ hgives, hlt⟩
    · have hold := Function.update_of_ne hother (some entry.vector) shared.computed
      exact h.computed other vector (hold.symm.trans hcomputed)

theorem record (h : shared.Sound provider texts owner)
    (hdistinct : Set.InjOn Fingerprint.ofText texts) {text : String} (htext : text ∈ texts)
    {vector : Embedding} (hanswer : provider.answer text = .ok vector) (path : String) :
    (shared.record path ⟨Fingerprint.ofText text, vector⟩).Sound provider texts owner := by
  refine { h with indexed := fun other entry hentry found hfound hfingerprint => ?_ }
  rw [Shared.record, Table.get?_insert] at hentry
  split at hentry
  · cases hentry
    rw [hdistinct hfound htext hfingerprint, hanswer]
  · exact h.indexed other entry hentry found hfound hfingerprint

theorem remove (h : shared.Sound provider texts owner) (path : String) :
    (shared.remove path).Sound provider texts owner := by
  refine { h with indexed := fun other entry hentry => ?_ }
  rw [Shared.remove, Table.get?_erase] at hentry
  split at hentry
  · cases hentry
  · exact h.indexed other entry hentry

end Shared.Sound

/-! ### One step of a call -/

/-- A call does not mind new tickets. -/
theorem Call.Sound.mono {owner owner' : Nat → CacheKey} {tickets tickets' : Nat} {call : Call}
    (h : call.Sound provider owner tickets)
    (howner : ∀ ticket < tickets, owner' ticket = owner ticket)
    (htickets : tickets ≤ tickets') : call.Sound provider owner' tickets' := by
  obtain ⟨path, text, phase⟩ := call
  cases phase with
  | wait ticket | compute ticket =>
    obtain ⟨hkey, hlt⟩ := h
    exact ⟨(howner ticket hlt).trans hkey, hlt.trans_le htickets⟩
  | _ => exact h

/-- What is kept is true after a step, and so is what the call has got. For the others, new tickets
are all that changes. -/
def Call.LeavesSound (provider : TextProvider) (texts : Set String) (owner : Nat → CacheKey)
    (tickets : Nat) (call : Call) (shared : Shared) : Prop :=
  ∃ owner', shared.Sound provider texts owner' ∧
    call.Sound provider owner' shared.index.cache.tickets ∧
    (∀ ticket < tickets, owner' ticket = owner ticket) ∧ tickets ≤ shared.index.cache.tickets

/-- A step without a new ticket. -/
theorem Call.LeavesSound.same {owner : Nat → CacheKey} {tickets : Nat} {call : Call}
    {shared : Shared} (h : shared.Sound provider texts owner)
    (hcall : call.Sound provider owner tickets)
    (htickets : shared.index.cache.tickets = tickets) :
    call.LeavesSound provider texts owner tickets shared :=
  ⟨owner, h, htickets.symm ▸ hcall, fun _ _ => rfl, htickets.ge⟩

namespace Shared.Sound

variable {owner : Nat → CacheKey} {shared shared' : Shared} {path : Option String} {text : String}
  {phase : Phase} {busy : Nat → Bool} {now : String}

theorem look (h : shared.Sound provider texts owner) (htext : text ∈ texts)
    (hadvance : Call.advance provider busy now ⟨path, text, .look⟩ shared = some (phase, shared')) :
    (Call.mk path text phase).LeavesSound provider texts owner shared.index.cache.tickets
      shared' := by
  simp only [Call.advance] at hadvance
  split at hadvance
  · cases hadvance
    exact .same h trivial rfl
  · rename_i entry hentry
    obtain ⟨found, -, hfound⟩ := Option.bind_eq_some_iff.mp hentry
    split at hadvance
    · rename_i hsame
      cases hadvance
      exact .same h (h.indexed found entry hfound text htext hsame.symm) rfl
    · cases hadvance
      exact .same h trivial rfl

theorem ask (h : shared.Sound provider texts owner) (htext : text ∈ texts)
    (hadvance : Call.advance provider busy now ⟨path, text, .ask⟩ shared = some (phase, shared')) :
    (Call.mk path text phase).LeavesSound provider texts owner shared.index.cache.tickets
      shared' := by
  cases hslot : shared.index.cache.slot? (provider.key text) with
  | some slot =>
    have hmem := Cache.mem_of_slot? hslot
    simp only [Call.advance, Cache.reserve, hslot] at hadvance
    split at hadvance
    · rename_i entry hentry
      cases hadvance
      exact .same h (h.published _ slot entry hmem hentry text htext rfl) rfl
    · cases hadvance
      exact .same h (h.owned _ slot hmem) rfl
  -- a new slot is empty, and the call waits at it
  | none =>
    simp only [Call.advance, Cache.reserve, hslot] at hadvance
    cases hadvance
    have hplace : (shared.onCache (·.place (provider.key text) none)).Sound provider texts _ :=
      h.place (provider.key text) fun _ he => nomatch he
    refine ⟨_, hplace, ⟨Function.update_self _ _ _, Nat.lt_succ_self _⟩, ?_, Nat.le_succ _⟩
    exact fun ticket hlt => Function.update_of_ne hlt.ne _ _

theorem wait {ticket : Nat} (h : shared.Sound provider texts owner) (htext : text ∈ texts)
    (hcall : owner ticket = provider.key text ∧ ticket < shared.index.cache.tickets)
    (hadvance : Call.advance provider busy now ⟨path, text, .wait ticket⟩ shared =
      some (phase, shared')) :
    (Call.mk path text phase).LeavesSound provider texts owner shared.index.cache.tickets
      shared' := by
  simp only [Call.advance] at hadvance
  split at hadvance
  · rename_i vector hvector
    cases hadvance
    obtain ⟨hgives, -⟩ := h.computed ticket vector hvector
    exact .same h (hgives text htext hcall.1.symm) rfl
  · split at hadvance
    · cases hadvance
    · cases hadvance
      exact .same h hcall rfl

theorem compute {ticket : Nat} (hdistinct : Set.InjOn Fingerprint.ofText texts)
    (h : shared.Sound provider texts owner) (htext : text ∈ texts)
    (hcall : owner ticket = provider.key text ∧ ticket < shared.index.cache.tickets)
    (hadvance : Call.advance provider busy now ⟨path, text, .compute ticket⟩ shared =
      some (phase, shared')) :
    (Call.mk path text phase).LeavesSound provider texts owner shared.index.cache.tickets
      shared' := by
  simp only [Call.advance] at hadvance
  split at hadvance
  · rename_i vector hanswer
    cases hadvance
    have hgives := TextProvider.gives_of_answer hdistinct htext hanswer
    exact .same (h.settle hcall.1 hcall.2 hgives) hanswer (tickets_settle ..)
  · rename_i e hanswer
    cases hadvance
    exact .same h hanswer rfl

/-- Whatever a call does next, what is kept stays true, and so does what the call has got. -/
theorem advance {call : Call} (hdistinct : Set.InjOn Fingerprint.ofText texts)
    (h : shared.Sound provider texts owner) (htext : call.text ∈ texts)
    (hcall : call.Sound provider owner shared.index.cache.tickets)
    (hadvance : call.advance provider busy now shared = some (phase, shared')) :
    ({ call with phase := phase } : Call).LeavesSound provider texts owner
      shared.index.cache.tickets shared' := by
  obtain ⟨path, text, before⟩ := call
  cases before with
  | look => exact h.look htext hadvance
  | release old =>
    simp only [Call.advance] at hadvance
    split at hadvance
    · cases hadvance
      exact .same h trivial rfl
    · cases hadvance
      exact .same h trivial rfl
  | invalidate old =>
    cases hadvance
    exact .same (h.drop _) trivial rfl
  | ask => exact h.ask htext hadvance
  | wait ticket => exact h.wait htext hcall hadvance
  | compute ticket => exact h.compute hdistinct htext hcall hadvance
  | giveUp ticket e =>
    cases hadvance
    exact .same (h.discard ticket) hcall rfl
  | record vector =>
    simp only [Call.advance] at hadvance
    split at hadvance
    · cases hadvance
      exact .same h hcall rfl
    · rename_i path
      cases hadvance
      exact .same (h.record hdistinct htext hcall path) hcall rfl
  | done result => cases hadvance

end Shared.Sound

/-! ### Calls end -/

/-- A bound on the steps of a call that are left. -/
def Phase.weight : Phase → Nat
  | .look => 8
  | .release _ => 7
  | .invalidate _ => 6
  | .ask => 5
  | .wait _ => 4
  | .compute _ => 3
  | .giveUp .. | .record _ => 1
  | .done _ => 0

theorem Phase.exists_of_computes {phase : Phase} {ticket : Nat}
    (h : phase.computes ticket = true) : ∃ other, phase = .compute other := by
  cases phase with
  | compute other => exact ⟨other, rfl⟩
  | _ => cases h

theorem Call.weight_advance {call : Call} {busy : Nat → Bool} {now : String}
    {shared shared' : Shared} {phase : Phase}
    (h : call.advance provider busy now shared = some (phase, shared')) :
    phase.weight < call.phase.weight := by
  obtain ⟨path, text, before⟩ := call
  cases before with
  | done result => cases h
  | invalidate | giveUp =>
    cases h
    simp [Phase.weight]
  | look =>
    simp only [Call.advance] at h
    split at h
    · cases h
      simp [Phase.weight]
    · split at h
      · cases h
        simp [Phase.weight]
      · cases h
        simp [Phase.weight]
  | wait =>
    simp only [Call.advance] at h
    split at h
    · cases h
      simp [Phase.weight]
    · split at h
      · cases h
      · cases h
        simp [Phase.weight]
  | release | ask | compute | record =>
    simp only [Call.advance] at h
    split at h
    · cases h
      simp [Phase.weight]
    · cases h
      simp [Phase.weight]

/-- A call can go on unless it has ended or another computes the vector for which it waits. -/
theorem Call.exists_advance (provider : TextProvider) {call : Call} {busy : Nat → Bool}
    (now : String) (shared : Shared)
    (hwait : ∀ ticket, call.phase = .wait ticket → busy ticket = false)
    (hdone : ∀ result, call.phase ≠ .done result) :
    ∃ phase shared', call.advance provider busy now shared = some (phase, shared') := by
  obtain ⟨path, text, before⟩ := call
  cases before with
  | done result => exact absurd rfl (hdone result)
  | wait ticket =>
    simp only [Call.advance, hwait ticket rfl, Bool.false_eq_true, if_false]
    split
    · exact ⟨_, _, rfl⟩
    · exact ⟨_, _, rfl⟩
  | invalidate | giveUp => exact ⟨_, _, rfl⟩
  | look =>
    simp only [Call.advance]
    split
    · exact ⟨_, _, rfl⟩
    · split
      · exact ⟨_, _, rfl⟩
      · exact ⟨_, _, rfl⟩
  | release | ask | compute | record =>
    simp only [Call.advance]
    split
    · exact ⟨_, _, rfl⟩
    · exact ⟨_, _, rfl⟩

/-! ### Runs of calls -/

/-- What calls share, and the calls in flight. -/
structure Traffic where
  shared : Shared
  calls : List Call

/-- What can happen next: a call begins, goes on, or ends or is given up; slots are dropped, files
are forgotten, or an entry is read from disk that holds what the provider gives. -/
inductive Traffic.Step (provider : TextProvider) (texts : Set String) : Traffic → Traffic → Prop
  | begin (shared : Shared) (calls : List Call) (path : Option String) {text : String}
      (htext : text ∈ texts) :
      Step provider texts ⟨shared, calls⟩ ⟨shared, calls ++ [{ path := path, text := text }]⟩
  | advance {shared shared' : Shared} {before after : List Call} {call : Call} {phase : Phase}
      {now : String}
      (h : call.advance provider (isBusy (before ++ call :: after)) now shared =
        some (phase, shared')) :
      Step provider texts ⟨shared, before ++ call :: after⟩
        ⟨shared', before ++ { call with phase := phase } :: after⟩
  | leave (shared : Shared) (before after : List Call) (call : Call) :
      Step provider texts ⟨shared, before ++ call :: after⟩ ⟨shared, before ++ after⟩
  | drop (shared : Shared) (calls : List Call) (test : CacheKey → Bool) :
      Step provider texts ⟨shared, calls⟩ ⟨shared.onCache (·.drop test), calls⟩
  | remove (shared : Shared) (calls : List Call) (path : String) :
      Step provider texts ⟨shared, calls⟩ ⟨shared.remove path, calls⟩
  | load (shared : Shared) (calls : List Call) {entry : CacheEntry Embedding}
      (hentry : provider.Gives texts entry.key entry.vector) :
      Step provider texts ⟨shared, calls⟩ ⟨shared.onCache (·.place entry.key (some entry)), calls⟩

/-- Traffic that may arise, starting with an empty index and cache. -/
def Traffic.Reached (provider : TextProvider) (texts : Set String) (traffic : Traffic) : Prop :=
  Relation.ReflTransGen (Traffic.Step provider texts) ⟨.fresh, []⟩ traffic

/-- What is shared is true, and so is what the calls have got. -/
def Traffic.Sound (provider : TextProvider) (texts : Set String) (traffic : Traffic) : Prop :=
  ∃ owner, traffic.shared.Sound provider texts owner ∧
    ∀ call ∈ traffic.calls, call.text ∈ texts ∧
      call.Sound provider owner traffic.shared.index.cache.tickets

namespace Traffic

variable {traffic traffic' : Traffic}

theorem Sound.step (hdistinct : Set.InjOn Fingerprint.ofText texts)
    (h : traffic.Sound provider texts) (hstep : Step provider texts traffic traffic') :
    traffic'.Sound provider texts := by
  obtain ⟨owner, hshared, hcalls⟩ := h
  cases hstep with
  | begin shared calls path htext =>
    exact ⟨owner, hshared,
      List.forall_mem_append.mpr ⟨hcalls, List.forall_mem_singleton.mpr ⟨htext, trivial⟩⟩⟩
  | @advance shared shared' before after call phase now hadvance =>
    simp only [List.forall_mem_append, List.forall_mem_cons] at hcalls
    obtain ⟨hbefore, ⟨htext, hcall⟩, hafter⟩ := hcalls
    obtain ⟨owner', hshared', hnext, howner, htickets⟩ :=
      hshared.advance hdistinct htext hcall hadvance
    have hothers : ∀ other : Call,
        other.text ∈ texts ∧ other.Sound provider owner shared.index.cache.tickets →
          other.text ∈ texts ∧ other.Sound provider owner' shared'.index.cache.tickets :=
      fun _ hother => ⟨hother.1, hother.2.mono howner htickets⟩
    exact ⟨owner', hshared', List.forall_mem_append.mpr
      ⟨fun other hother => hothers other (hbefore other hother), List.forall_mem_cons.mpr
        ⟨⟨htext, hnext⟩, fun other hother => hothers other (hafter other hother)⟩⟩⟩
  | leave shared before after call =>
    simp only [List.forall_mem_append, List.forall_mem_cons] at hcalls
    obtain ⟨hbefore, -, hafter⟩ := hcalls
    exact ⟨owner, hshared, List.forall_mem_append.mpr ⟨hbefore, hafter⟩⟩
  | drop shared calls test => exact ⟨owner, hshared.drop test, hcalls⟩
  | remove shared calls path => exact ⟨owner, hshared.remove path, hcalls⟩
  | load shared calls hentry =>
    refine ⟨_, hshared.place _ fun e he => ?_, fun call hcall => ?_⟩
    · obtain rfl := Option.some.inj he
      exact hentry
    · obtain ⟨htext, hsound⟩ := hcalls call hcall
      exact ⟨htext, hsound.mono (fun ticket hlt => Function.update_of_ne hlt.ne _ _)
        (Nat.le_succ _)⟩

theorem Reached.sound (hdistinct : Set.InjOn Fingerprint.ofText texts)
    (h : traffic.Reached provider texts) : traffic.Sound provider texts := by
  induction h with
  | refl => exact ⟨fun _ => provider.key "", .fresh _, fun _ hcall => nomatch hcall⟩
  | tail _ hstep ih => exact ih.step hdistinct hstep

/-- A call that has ended has the answer of the provider. -/
theorem Reached.answer_eq (hdistinct : Set.InjOn Fingerprint.ofText texts)
    (h : traffic.Reached provider texts) {call : Call} (hcall : call ∈ traffic.calls)
    {result : Except EmbeddingError Embedding} (hdone : call.phase = .done result) :
    provider.answer call.text = result := by
  obtain ⟨owner, -, hcalls⟩ := h.sound hdistinct
  have hsound := (hcalls call hcall).2
  rw [Call.Sound, hdone] at hsound
  exact hsound

end Traffic

end ContextSets
