import ContextSets.Embedding.Entry
import ContextSets.Embedding.Provider
import ContextSets.Files.Folder
import ContextSets.Table

/-!
# The embedding cache

The cache keeps one vector per fingerprint and model. A vector that is missing is computed into a slot
that is reserved for it; if the slot is still there when the computation ends, the vector is written to
disk and only then published. Who asks for a vector never sees one that is half written.

The vectors may be of any type.
-/

namespace ContextSets

/-- Where entries are kept on disk: a folder, a format for its files, and a clock. -/
structure Shelf (m : Type → Type) (V : Type) where
  folder : Folder m
  format : EntryFormat V
  now : m String

/-- A place for a vector, told from all others by its ticket. It is empty until the vector is
published. -/
structure Slot (V : Type) where
  ticket : Nat
  entry : Option (CacheEntry V)

/-- Slots by key, each key at most once, and the number of tickets given out. -/
structure Cache (V : Type) where
  slots : List (CacheKey × Slot V)
  tickets : Nat

namespace Cache

variable {m : Type → Type} [Monad m] {V : Type}

/-- The cache without slots. -/
def empty : Cache V := ⟨[], 0⟩

instance : EmptyCollection (Cache V) := ⟨empty⟩

instance : Inhabited (Cache V) := ⟨empty⟩

/-- The slot of a key. -/
def slot? (cache : Cache V) (key : CacheKey) : Option (Slot V) :=
  (cache.slots.find? (·.1 == key)).map Prod.snd

/-- The published entries. -/
def entries (cache : Cache V) : List (CacheEntry V) :=
  cache.slots.filterMap (·.2.entry)

/-- The published vector of a key. -/
def get? (cache : Cache V) (key : CacheKey) : Option V :=
  ((cache.slot? key).bind (·.entry)).map (·.vector)

/-- Whether the vector of a key is published. -/
def contains (cache : Cache V) (key : CacheKey) : Bool :=
  (cache.get? key).isSome

/-- Whether the slot with a ticket is still that of a key. -/
def holds (cache : Cache V) (key : CacheKey) (ticket : Nat) : Bool :=
  (cache.slot? key).any (·.ticket == ticket)

/-- Removes the slots whose keys pass a test. -/
def drop (cache : Cache V) (test : CacheKey → Bool) : Cache V :=
  { cache with slots := cache.slots.filter (!test ·.1) }

/-- Puts a new slot under a key, in place of any other. -/
def place (cache : Cache V) (key : CacheKey) (entry : Option (CacheEntry V)) : Cache V :=
  { slots := (cache.drop (· == key)).slots ++ [(key, ⟨cache.tickets, entry⟩)]
    tickets := cache.tickets + 1 }

/-- The slot of a key, which is reserved if there is none. -/
def reserve (cache : Cache V) (key : CacheKey) : Slot V × Cache V :=
  match cache.slot? key with
  | some slot => (slot, cache)
  | none => (⟨cache.tickets, none⟩, cache.place key none)

/-- Publishes an entry in the slot with a ticket. -/
def publish (cache : Cache V) (ticket : Nat) (entry : CacheEntry V) : Cache V :=
  { cache with
    slots := cache.slots.map fun (key, slot) =>
      (key, if slot.ticket = ticket then { slot with entry := some entry } else slot) }

/-- Gives up the slot with a ticket, unless it has been published. -/
def discard (cache : Cache V) (ticket : Nat) : Cache V :=
  { cache with
    slots := cache.slots.filter fun (_, slot) => slot.ticket != ticket || slot.entry.isSome }

/-- Writes an entry under a temporary name and then moves it to its place. Without a shelf nothing is
written. -/
def persist (shelf : Option (Shelf m V)) (entry : CacheEntry V) : m (Except FileFault Unit) := do
  match shelf with
  | none => return .ok ()
  | some shelf =>
    match ← shelf.folder.write entry.key.temporaryName (shelf.format.encode entry) with
    | .error fault => return .error fault
    | .ok () => shelf.folder.rename entry.key.temporaryName entry.key.fileName

/-- The entry of a vector that has just been computed. -/
def entryNow (shelf : Option (Shelf m V)) (key : CacheKey) (vector : V) : m (CacheEntry V) := do
  match shelf with
  | none => return ⟨key, vector, ""⟩
  | some shelf => return ⟨key, vector, ← shelf.now⟩

/-- Writes and publishes a computed vector if its slot is still there. If writing fails, the slot is
given up. -/
def settle (shelf : Option (Shelf m V)) (key : CacheKey) (ticket : Nat) (vector : V) :
    StateT (Cache V) m (Reply V) := do
  if (← get).holds key ticket then
    let entry ← StateT.lift (entryNow shelf key vector)
    match ← StateT.lift (persist shelf entry) with
    | .ok () =>
      modify (·.publish ticket entry)
      return .ok vector
    | .error fault =>
      modify (·.discard ticket)
      return .error (.storage fault)
  else return .ok vector

/-- Computes the vector of a key into the slot with a ticket. A computation that fails leaves no slot,
and one that does not end leaves its slot empty. -/
def computeInto (shelf : Option (Shelf m V)) (key : CacheKey) (ticket : Nat)
    (compute : StateT (Cache V) m (Reply V)) : StateT (Cache V) m (Reply V) := do
  match ← compute with
  | .pending => return .pending
  | .done (.error e) =>
    modify (·.discard ticket)
    return .error e
  | .done (.ok vector) => settle shelf key ticket vector

/-- The published vector of a key; if there is none, it is computed and published. -/
def getOrCompute (shelf : Option (Shelf m V)) (key : CacheKey)
    (compute : StateT (Cache V) m (Reply V)) : StateT (Cache V) m (Reply V) := do
  let slot ← modifyGet (·.reserve key)
  match slot.entry with
  | some entry => return .ok entry.vector
  | none => computeInto shelf key slot.ticket compute

/-- Serves callers who wait at the slot with a ticket, whose vector may be known. They take turns: the
first to succeed computes for all that follow, and behind one that does not end all wait. -/
def serve (shelf : Option (Shelf m V)) (key : CacheKey) (ticket : Nat) :
    Option V → List (StateT (Cache V) m (Reply V)) → StateT (Cache V) m (List (Reply V))
  | _, [] => return []
  | some vector, _ :: rest => return .ok vector :: (← serve shelf key ticket (some vector) rest)
  | none, compute :: rest => do
    let reply ← computeInto shelf key ticket compute
    match reply with
    | .done (.ok vector) => return reply :: (← serve shelf key ticket (some vector) rest)
    | .done (.error _) => return reply :: (← serve shelf key ticket none rest)
    | .pending => return reply :: rest.map fun _ => .pending

/-- Several callers ask for the vector of one key at the same time, each with a computation. They
share the slot of the key. -/
def getOrComputeShared (shelf : Option (Shelf m V)) (key : CacheKey)
    (computations : List (StateT (Cache V) m (Reply V))) :
    StateT (Cache V) m (List (Reply V)) := do
  let slot ← modifyGet (·.reserve key)
  serve shelf key slot.ticket (slot.entry.map (·.vector)) computations

/-- Removes the files of entries one after another, up to the first that cannot be removed. A file
that is not there counts as removed. -/
def removeFiles (shelf : Option (Shelf m V)) : List CacheKey → m (Except FileFault Unit)
  | [] => return .ok ()
  | key :: rest => do
    match shelf with
    | none => return .ok ()
    | some shelf =>
      match ← shelf.folder.remove key.fileName with
      | .ok () => removeFiles (some shelf) rest
      | .error .notFound => removeFiles (some shelf) rest
      | .error fault => return .error fault

/-- Removes the slots that pass a test, from memory and then from disk, and returns their number. -/
def removeWhere (shelf : Option (Shelf m V)) (test : CacheKey → Slot V → Bool) :
    StateT (Cache V) m (Except EmbeddingError Nat) := do
  let cache ← get
  let doomed := (cache.slots.filter fun (key, slot) => test key slot).map Prod.fst
  set (cache.drop doomed.contains)
  match ← StateT.lift (removeFiles shelf doomed) with
  | .ok () => return .ok doomed.length
  | .error fault => return .error (.storage fault)

/-- Removes all slots of a fingerprint, also empty ones, so that what is being computed for them is
not kept. -/
def invalidate (shelf : Option (Shelf m V)) (fingerprint : String) :
    StateT (Cache V) m (Except EmbeddingError Nat) :=
  removeWhere shelf fun key _ => key.fingerprint == fingerprint

/-- Removes the published entries whose keys are not to be kept. -/
def retain (shelf : Option (Shelf m V)) (keep : CacheKey → Bool) :
    StateT (Cache V) m (Except EmbeddingError Nat) :=
  removeWhere shelf fun key slot => !keep key && slot.entry.isSome

/-- Empties the memory. Files stay. -/
def clear : StateT (Cache V) m Unit :=
  modify fun cache => { cache with slots := [] }

/-- The models of the published entries, ascending, each once. -/
def models (cache : Cache V) : List String :=
  (Table.ofList (cache.entries.map fun entry => (entry.key.model, ()))).keys

/-- Reads the entries in some files and publishes them. Only files with the extension "json" count;
what cannot be read is passed over. -/
def load (shelf : Shelf m V) : List String → Cache V → m (Cache V)
  | [], cache => return cache
  | name :: rest, cache => do
    if Path.extension? name == some "json" then
      match ← shelf.folder.read name with
      | .error _ => load shelf rest cache
      | .ok bytes =>
        match shelf.format.decode? bytes with
        | none => load shelf rest cache
        | some entry => load shelf rest (cache.place entry.key (some entry))
    else load shelf rest cache

/-- Opens the cache kept in a folder, which is made if it is missing. -/
def reopen (shelf : Shelf m V) : m (Except EmbeddingError (Cache V)) := do
  match ← shelf.folder.prepare with
  | .error fault => return .error (.unusableCache shelf.folder.path fault)
  | .ok () =>
    match ← shelf.folder.names with
    | .error fault => return .error (.storage fault)
    | .ok names => return .ok (← load shelf names empty)

end Cache

end ContextSets
