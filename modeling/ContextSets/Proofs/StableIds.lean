import ContextSets.Proofs.FreshId
import Mathlib.Data.Set.Function

/-!
# Ids last until their files are pruned

In a manifest that has grown by calls alone, every id is made of the digest of the path that it
stands for. Ids of two paths are then equal only if they have the same number of digits and the
digests begin alike. So as long as the digests of the paths differ, a free id is always left, and no
file is overwritten. An id stays that of its path until its file is pruned; after that another path
whose digest begins alike may get it.
-/

namespace ContextSets

/-! ### Digits of a digest -/

namespace Digest

theorem length_bytesOf (n count : Nat) : (bytesOf n count).length = count := by
  induction count generalizing n with
  | zero => rfl
  | succ count ih => rw [bytesOf, List.length_append, ih, List.length_singleton]

/-- A digest in hexadecimal has 64 digits. -/
theorem length_sha256Hex (text : String) : (sha256Hex text).toList.length = 64 := by
  have hbyte : ∀ byte, (hexByte byte).length = 2 := fun _ => rfl
  simp [sha256Hex, sha256, State.words, List.length_flatMap, hbyte, length_bytesOf]

end Digest

namespace Manifest

variable {manifest : Manifest} {paths : Set String} {width digits : Nat} {path other id : String}

theorem toList_derivedId (path : String) (digits : Nat) :
    (derivedId path digits).toList = 'f' :: (Digest.sha256Hex path).toList.take digits := by
  simp [derivedId]

theorem le_of_mem_idWidths (h : digits ∈ idWidths) : digits ≤ 64 := by
  have hall : ∀ digits ∈ idWidths, digits ≤ 64 := by decide
  exact hall digits h

/-- An id tells how many digits it has, and these digits. -/
theorem derivedId_inj (hdigits : digits ≤ 64) (hwidth : width ≤ 64)
    (h : derivedId path digits = derivedId other width) :
    digits = width ∧ (Digest.sha256Hex path).toList.take digits =
      (Digest.sha256Hex other).toList.take digits := by
  have hlist := congrArg String.toList h
  rw [toList_derivedId, toList_derivedId, List.cons.injEq] at hlist
  have hlength := congrArg List.length hlist.2
  rw [List.length_take, List.length_take, Digest.length_sha256Hex, Digest.length_sha256Hex,
    Nat.min_eq_left hdigits, Nat.min_eq_left hwidth] at hlength
  subst hlength
  exact ⟨rfl, hlist.2⟩

/-- The digests of the paths already differ in their first digits. -/
def Apart (width : Nat) (paths : Set String) : Prop :=
  Set.InjOn (fun path => (Digest.sha256Hex path).toList.take width) paths

theorem apart_of_injOn (h : Set.InjOn Digest.sha256Hex paths) : Apart 64 paths := by
  intro path hpath other hother heq
  have hwhole : ∀ text, (Digest.sha256Hex text).toList.take 64 = (Digest.sha256Hex text).toList :=
    fun text => List.take_of_length_le (Digest.length_sha256Hex text).le
  simp only [hwhole, String.toList_inj] at heq
  exact h hpath hother heq

/-- An id is made of the digest of a path: an "f" and twelve or more of its first digits, in steps
of four. -/
def MadeOf (path id : String) : Prop :=
  ∃ k digits, id = "f" ++ String.ofList digits ∧ digits <+: (Digest.sha256Hex path).toList ∧
    digits.length = 12 + 4 * k

theorem madeOf_derivedId (path : String) (h : digits ∈ idWidths) :
    MadeOf path (derivedId path digits) := by
  obtain ⟨k, -, rfl⟩ := List.mem_map.mp h
  refine ⟨k, _, rfl, List.take_prefix _ _, ?_⟩
  rw [List.length_take, Digest.length_sha256Hex, Nat.min_eq_left (le_of_mem_idWidths h)]

/-! ### Ids made of digests -/

/-- Ids are found by paths exactly as paths by ids, only by the given paths, and every id is made of
the digest of its path, with so many digits at most. So many are enough to tell the paths apart. -/
structure Derived (width : Nat) (paths : Set String) (manifest : Manifest) : Prop where
  mem_widths : width ∈ idWidths
  apart : Apart width paths
  inverse : manifest.Inverse
  mem_paths : ∀ path id, manifest.ids.get? path = some id → path ∈ paths
  made : ∀ path id, manifest.ids.get? path = some id →
    ∃ digits ∈ idWidths, digits ≤ width ∧ id = derivedId path digits

theorem Derived.empty (hwidth : width ∈ idWidths) (hapart : Apart width paths) :
    (∅ : Manifest).Derived width paths where
  mem_widths := hwidth
  apart := hapart
  inverse := fun path id => by
    constructor
    · intro h
      cases h
    · rintro ⟨_, h, -⟩
      cases h
  mem_paths := fun _ _ h => nomatch h
  made := fun _ _ h => nomatch h

theorem Derived.madeOf (h : manifest.Derived width paths) (hid : manifest.ids.get? path = some id) :
    MadeOf path id := by
  obtain ⟨digits, hdigits, -, rfl⟩ := h.made path id hid
  exact madeOf_derivedId path hdigits

/-- If twelve digits are enough, every id has so many, as none has fewer. -/
theorem Derived.eq_derivedId (h : manifest.Derived 12 paths)
    (hid : manifest.ids.get? path = some id) : id = derivedId path 12 := by
  have hge : ∀ digits ∈ idWidths, 12 ≤ digits := by decide
  obtain ⟨digits, hdigits, hle, rfl⟩ := h.made path id hid
  rw [Nat.le_antisymm hle (hge digits hdigits)]

/-- Of a new path the id with so many digits is free: a file that had it would have the path. -/
theorem Derived.not_contains (h : manifest.Derived width paths) (hpath : normalize path ∈ paths)
    (hnew : manifest.idOf? path = none) :
    manifest.contains (derivedId (normalize path) width) = false := by
  refine Bool.eq_false_iff.mpr fun htaken => ?_
  obtain ⟨entry, hentry⟩ := contains_iff.mp htaken
  have hfound := h.inverse.found _ entry hentry
  obtain ⟨digits, hdigits, -, hid⟩ := h.made entry.path _ hfound
  obtain ⟨rfl, hprefix⟩ :=
    derivedId_inj (le_of_mem_idWidths h.mem_widths) (le_of_mem_idWidths hdigits) hid
  have hsame := h.apart hpath (h.mem_paths entry.path _ hfound) hprefix
  rw [idOf?, hsame, hfound] at hnew
  cases hnew

/-- A new path gets the shortest id that is free, so none with more digits than one that is free. -/
theorem exists_freshId (hwidth : width ∈ idWidths)
    (hfree : manifest.contains (derivedId path width) = false) :
    ∃ digits ∈ idWidths, digits ≤ width ∧ manifest.freshId path = derivedId path digits := by
  have hascending : idWidths.Pairwise (· < ·) := by decide
  cases hfind : idWidths.find? (fun digits => !manifest.files.contains (derivedId path digits)) with
  | none =>
    have htaken := List.find?_eq_none.mp hfind width hwidth
    rw [contains] at hfree
    simp [hfree] at htaken
  | some digits =>
    obtain ⟨-, shorter, longer, hsplit, htaken⟩ := List.find?_eq_some_iff_append.mp hfind
    refine ⟨digits, List.mem_of_find?_eq_some hfind, ?_, ?_⟩
    -- a width before it is taken, and all behind it are greater
    · rw [hsplit] at hwidth hascending
      rcases List.mem_append.mp hwidth with hshort | hrest
      · have hcontained := htaken width hshort
        rw [contains] at hfree
        simp [hfree] at hcontained
      · rcases List.mem_cons.mp hrest with rfl | hlong
        · exact le_rfl
        · exact (List.rel_of_pairwise_cons (List.pairwise_append.mp hascending).2.1 hlong).le
    · rw [freshId, List.find?_map]
      exact congrArg (fun found => (found.map (derivedId path)).getD (derivedId path 64)) hfind

/-! ### Calls -/

/-- The calls on a manifest that somebody may make. -/
inductive Call
  | resolve (path : String)
  | idOf (path : String)
  | setComment (id : String) (comment : Option String)
  | prune (keep : String → Bool)

namespace Call

/-- The manifest after a call. A note on a file that is not registered leaves it as it was. -/
def after : Call → Manifest → Manifest
  | resolve path, manifest => (manifest.resolve path).2
  | idOf _, manifest => manifest
  | setComment id comment, manifest =>
    match manifest.setComment id comment with
    | .ok changed => changed
    | .error _ => manifest
  | prune keep, manifest => (manifest.prune keep).2

/-- The manifest after calls one after another. -/
def afterAll (calls : List Call) (manifest : Manifest) : Manifest :=
  calls.foldl (fun manifest call => call.after manifest) manifest

/-- The call registers no other paths than these. -/
def Within (paths : Set String) : Call → Prop
  | resolve path => normalize path ∈ paths
  | _ => True

/-- The call does not prune the file with this id. -/
def Keeps (id : String) : Call → Prop
  | prune keep => keep id = true
  | _ => True

/-- The call answers that a path, in its normal spelling, has an id. -/
def Answers (manifest : Manifest) (path id : String) : Call → Prop
  | resolve spelling => normalize spelling = path ∧ (manifest.resolve spelling).1 = id
  | idOf spelling => normalize spelling = path ∧ manifest.idOf? spelling = some id
  | _ => False

end Call

variable {call : Call} {calls : List Call}

/-- Notes are kept apart from the ids. -/
theorem ids_setComment (manifest : Manifest) (id : String) (comment : Option String) :
    ((Call.setComment id comment).after manifest).ids = manifest.ids := by
  rw [Call.after]
  cases hrun : manifest.setComment id comment with
  | error error => rfl
  | ok changed =>
    obtain ⟨entry, -, rfl⟩ := setComment_eq_ok.mp hrun
    rfl

theorem Derived.resolve (h : manifest.Derived width paths) (hpath : normalize path ∈ paths) :
    (manifest.resolve path).2.Derived width paths := by
  cases hnew : manifest.idOf? path with
  | some id =>
    rw [resolve_of_known hnew]
    exact h
  | none =>
    have hfree := h.not_contains hpath hnew
    have hinverse := h.inverse.resolve fun _ => ⟨width, h.mem_widths, hfree⟩
    rw [resolve_of_new hnew] at hinverse ⊢
    refine ⟨h.mem_widths, h.apart, hinverse, fun other id hid => ?_, fun other id hid => ?_⟩
    · rw [put_ids, Table.get?_insert] at hid
      split_ifs at hid with hother
      · exact hother ▸ hpath
      · exact h.mem_paths other id hid
    · rw [put_ids, Table.get?_insert] at hid
      split_ifs at hid with hother
      · cases hid
        exact hother ▸ exists_freshId h.mem_widths hfree
      · exact h.made other id hid

/-- What a call within the paths leaves is made of digests again. -/
theorem Derived.after (h : manifest.Derived width paths) (hcall : call.Within paths) :
    (call.after manifest).Derived width paths := by
  cases call with
  | resolve path => exact h.resolve hcall
  | idOf path => exact h
  | setComment id comment =>
    refine ⟨h.mem_widths, h.apart, ?_, ?_, ?_⟩
    · rw [Call.after]
      cases hrun : manifest.setComment id comment with
      | error error => exact h.inverse
      | ok changed => exact h.inverse.setComment hrun
    · rw [ids_setComment]
      exact h.mem_paths
    · rw [ids_setComment]
      exact h.made
  | prune keep =>
    exact ⟨h.mem_widths, h.apart, h.inverse.prune keep,
      fun path id hid => h.mem_paths path id (ids_prune.mp hid).1,
      fun path id hid => h.made path id (ids_prune.mp hid).1⟩

theorem Derived.afterAll (h : manifest.Derived width paths)
    (hcalls : ∀ call ∈ calls, call.Within paths) :
    (Call.afterAll calls manifest).Derived width paths := by
  induction calls generalizing manifest with
  | nil => exact h
  | cons call rest ih =>
    obtain ⟨hcall, hrest⟩ := List.forall_mem_cons.mp hcalls
    exact ih (h.after hcall) hrest

/-! ### Ids that last -/

/-- A path keeps its id in a call that does not prune its file. -/
theorem Inverse.get?_after (h : manifest.Inverse) (hid : manifest.ids.get? path = some id)
    (hkeep : call.Keeps id) : (call.after manifest).ids.get? path = some id := by
  cases call with
  | resolve new => exact ids_resolve_of_known hid new
  | idOf _ => exact hid
  | setComment _ _ =>
    rw [ids_setComment]
    exact hid
  | prune keep =>
    refine ids_prune.mpr ⟨hid, fun other entry hentry hpath => ?_⟩
    obtain rfl := h.id_eq hid hentry hpath
    exact hkeep

theorem Derived.get?_afterAll (h : manifest.Derived width paths)
    (hid : manifest.ids.get? path = some id)
    (hcalls : ∀ call ∈ calls, call.Within paths ∧ call.Keeps id) :
    (Call.afterAll calls manifest).ids.get? path = some id := by
  induction calls generalizing manifest with
  | nil => exact hid
  | cons call rest ih =>
    obtain ⟨⟨hcall, hkeep⟩, hrest⟩ := List.forall_mem_cons.mp hcalls
    exact ih (h.after hcall) (h.inverse.get?_after hid hkeep) hrest

/-- What a call answers holds after it. -/
theorem Call.Answers.get?_after (h : call.Answers manifest path id) :
    (call.after manifest).ids.get? path = some id := by
  cases call with
  | resolve spelling =>
    obtain ⟨rfl, rfl⟩ := h
    exact idOf?_resolve manifest spelling
  | idOf spelling =>
    obtain ⟨rfl, hid⟩ := h
    exact hid
  | setComment _ _ => exact h.elim
  | prune _ => exact h.elim

theorem Call.Answers.keeps (h : call.Answers manifest path id) (key : String) : call.Keeps key := by
  cases call with
  | resolve _ => trivial
  | idOf _ => trivial
  | setComment _ _ => exact h.elim
  | prune _ => exact h.elim

/-- An id that is registered is not the answer for another path. -/
theorem Derived.ne_of_answers (h : manifest.Derived width paths)
    (hid : manifest.ids.get? path = some id) (hcall : call.Within paths) {otherId : String}
    (hanswer : call.Answers manifest other otherId) (hother : other ≠ path) : otherId ≠ id := by
  rintro rfl
  have hkept := h.inverse.get?_after hid (hanswer.keeps otherId)
  exact hother ((h.after hcall).inverse.path_eq hkept hanswer.get?_after)

/-- No file loses its entry to a path that is resolved. -/
theorem Derived.get?_resolve (h : manifest.Derived width paths) (hpath : normalize path ∈ paths)
    {entry : FileEntry} (hentry : manifest.get? id = some entry) :
    (manifest.resolve path).2.get? id = some entry := by
  cases hnew : manifest.idOf? path with
  | some known =>
    rw [resolve_of_known hnew]
    exact hentry
  | none =>
    have hfree := h.not_contains hpath hnew
    rw [resolve_of_new hnew]
    exact get?_put_of_free ((contains_freshId manifest _).mpr ⟨width, h.mem_widths, hfree⟩) hentry

end Manifest

/-- After any calls on the empty manifest, of which those that resolve give paths whose digests
differ, ids are found by paths exactly as paths by ids, no two paths have one id, every id is made
of the digest of its path, and no file loses its entry to a path that is resolved. The id that a
call then answers for a path is made of its digest, and if all digests differ in their first twelve
digits, it has these, whatever else was registered. As long as no call prunes its file, every
spelling of the path leads to that id, and no call answers it for another path. -/
theorem ids_last_until_pruned {paths : Set String} (hdigest : Set.InjOn Digest.sha256Hex paths)
    {calls : List Manifest.Call} (hcalls : ∀ call ∈ calls, call.Within paths) {manifest : Manifest}
    (hmanifest : Manifest.Call.afterAll calls ∅ = manifest) :
    manifest.Inverse ∧
      (∀ path other id, manifest.idOf? path = some id → manifest.idOf? other = some id →
        Manifest.normalize path = Manifest.normalize other) ∧
      (∀ id entry, manifest.get? id = some entry → Manifest.MadeOf entry.path id) ∧
      (∀ path, Manifest.normalize path ∈ paths → ∀ id entry, manifest.get? id = some entry →
        (manifest.resolve path).2.get? id = some entry) ∧
      ∀ call path id, Manifest.Call.Within paths call → call.Answers manifest path id →
        Manifest.MadeOf path id ∧
          (Manifest.Apart 12 paths → id = Manifest.derivedId path 12) ∧
          ∀ later, (∀ next ∈ later, Manifest.Call.Within paths next ∧ next.Keeps id) →
            ∀ last, Manifest.Call.afterAll later (call.after manifest) = last →
              (∀ spelling, Manifest.normalize spelling = path →
                last.idOf? spelling = some id ∧ (last.resolve spelling).1 = id) ∧
              ∀ next other otherId, Manifest.Call.Within paths next →
                next.Answers last other otherId → other ≠ path → otherId ≠ id := by
  subst hmanifest
  have hderived :=
    (Manifest.Derived.empty (by decide) (Manifest.apart_of_injOn hdigest)).afterAll hcalls
  refine ⟨hderived.inverse, fun path other id hpath hother => ?_, fun id entry hentry => ?_,
    fun path hpath id entry => hderived.get?_resolve hpath,
    fun call path id hcall hanswer => ?_⟩
  · exact hderived.inverse.path_eq hother hpath
  · exact hderived.madeOf (hderived.inverse.found id entry hentry)
  have hid := hanswer.get?_after
  have hafter := hderived.after hcall
  refine ⟨hafter.madeOf hid, fun hshort => ?_, fun later hlater last hlast => ?_⟩
  · have hshortest := (Manifest.Derived.empty (by decide) hshort).afterAll hcalls
    exact (hshortest.after hcall).eq_derivedId hid
  · have hkept := hafter.get?_afterAll hid hlater
    have hstill := hafter.afterAll fun next hnext => (hlater next hnext).1
    rw [hlast] at hkept hstill
    refine ⟨fun spelling hspelling => ?_, fun next other otherId hnext hanswer hother => ?_⟩
    · have hknown : last.idOf? spelling = some id := by rw [Manifest.idOf?, hspelling, hkept]
      exact ⟨hknown, by rw [Manifest.resolve_of_known hknown]⟩
    · exact hstill.ne_of_answers hkept hnext hanswer hother

/-- Two paths whose digests differ, but not in their first twelve digits. -/
def alikePaths : Set String :=
  {"src/8044581.rs", "src/14003438.rs"}

/-- The manifest that has registered the first of them. -/
def lone : Manifest where
  files := ⟨[("f093cdb284909", { path := "src/8044581.rs" })], by decide⟩
  ids := ⟨[("src/8044581.rs", "f093cdb284909")], by decide⟩

theorem injOn_alikePaths : Set.InjOn Digest.sha256Hex alikePaths := by
  have hne : Digest.sha256Hex "src/8044581.rs" ≠ Digest.sha256Hex "src/14003438.rs" := by
    decide +kernel
  exact Set.injOn_pair.mpr fun heq => absurd heq hne

theorem normalize_alikePaths {path : String} (h : path ∈ alikePaths) :
    Manifest.normalize path = path := by
  have hpaths : ∀ path ∈ ["src/8044581.rs", "src/14003438.rs"], Manifest.normalize path = path := by
    decide
  exact hpaths path (by simpa [alikePaths] using h)

theorem within_alikePaths {path : String} (h : path ∈ alikePaths) :
    (Manifest.Call.resolve path).Within alikePaths := by
  rw [Manifest.Call.Within, normalize_alikePaths h]
  exact h

/-- The second of two such paths gets a longer id, and keeps it when the file of the first is
pruned. Of paths without that trouble the second gets a short one. -/
theorem ids_last_until_pruned_alike :
    Set.InjOn Digest.sha256Hex alikePaths ∧
      (∀ call ∈ [Manifest.Call.resolve "src/8044581.rs"], call.Within alikePaths) ∧
      Manifest.Call.afterAll [.resolve "src/8044581.rs"] ∅ = lone ∧
      (Manifest.Call.resolve "src/14003438.rs").Answers lone "src/14003438.rs"
        "f093cdb284909056b" ∧
      (Manifest.Call.afterAll [.prune (· = "f093cdb284909056b")]
          (lone.resolve "src/14003438.rs").2).idOf? ".\\src\\14003438.rs" =
        some "f093cdb284909056b" ∧
      Manifest.Apart 12 {"a", "b"} ∧
      (Manifest.Call.resolve "a").Answers (Manifest.Call.afterAll [.resolve "b"] ∅) "a"
        (Manifest.derivedId "a" 12) := by
  have hfirst : ∀ call ∈ [Manifest.Call.resolve "src/8044581.rs"], call.Within alikePaths := by
    simpa using within_alikePaths (.inl rfl)
  have hlone : Manifest.Call.afterAll [.resolve "src/8044581.rs"] ∅ = lone := by decide +kernel
  have hanswer : (Manifest.Call.resolve "src/14003438.rs").Answers lone "src/14003438.rs"
      "f093cdb284909056b" := by
    constructor <;> decide +kernel
  have hspelling : Manifest.normalize ".\\src\\14003438.rs" = "src/14003438.rs" := by decide
  obtain ⟨-, -, -, -, hlasts⟩ := ids_last_until_pruned injOn_alikePaths hfirst hlone
  obtain ⟨-, -, hlast⟩ := hlasts _ _ _ (within_alikePaths (.inr rfl)) hanswer
  obtain ⟨hfound, -⟩ := hlast [.prune (· = "f093cdb284909056b")]
    (by simp [Manifest.Call.Within, Manifest.Call.Keeps]) _ rfl
  -- two paths whose digests differ from the start
  have hdigest : Set.InjOn Digest.sha256Hex {"a", "b"} :=
    Set.injOn_pair.mpr fun heq => absurd heq (by decide +kernel)
  have hapart : Manifest.Apart 12 {"a", "b"} :=
    Set.injOn_pair.mpr fun heq => absurd heq (by decide +kernel)
  have hpaths : ∀ path ∈ ["a", "b"], Manifest.normalize path = path := by decide
  have hfirst' : ∀ call ∈ [Manifest.Call.resolve "b"], call.Within {"a", "b"} := by
    simp [Manifest.Call.Within, hpaths]
  have hsecond : (Manifest.Call.resolve "a").Within {"a", "b"} := by
    simp [Manifest.Call.Within, hpaths]
  obtain ⟨-, -, -, -, hgiven⟩ := ids_last_until_pruned hdigest hfirst' rfl
  obtain ⟨-, hid, -⟩ := hgiven (.resolve "a") "a" _ hsecond ⟨by decide, rfl⟩
  exact ⟨injOn_alikePaths, hfirst, hlone, hanswer, (hfound _ hspelling).1, hapart, by decide,
    hid hapart⟩

/-- When the file of the first of the two paths is pruned before the second is resolved, the second
gets the id that the first had. -/
theorem pruned_id_given_again :
    Set.InjOn Digest.sha256Hex alikePaths ∧
      (∀ path ∈ alikePaths, Manifest.normalize path = path) ∧
      (Manifest.Call.resolve "src/8044581.rs").Answers ∅ "src/8044581.rs" "f093cdb284909" ∧
      (Manifest.Call.resolve "src/14003438.rs").Answers
        (Manifest.Call.afterAll [.resolve "src/8044581.rs", .prune fun _ => false] ∅)
        "src/14003438.rs" "f093cdb284909" := by
  refine ⟨injOn_alikePaths, fun _ => normalize_alikePaths, ?_, ?_⟩
  · constructor <;> decide +kernel
  · constructor <;> decide +kernel

end ContextSets
