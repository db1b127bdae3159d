import ContextSets.Proofs.FailedUpdate
import ContextSets.Proofs.IndexedTexts
import ContextSets.Proofs.Sorting
import Mathlib.Data.Set.Function
import Mathlib.Data.String.Basic

/-!
# Fingerprints of sets of files

The fingerprint of a set is taken over the records of its members, one behind the other. Each part of
a record is ended by a character that the part does not contain, so the records can be read back one
after another, even if a path contains the character that ends a record. The text therefore tells the
members, in whatever order they were given.
-/

namespace ContextSets

namespace Fingerprint

variable {member : String × String} {members others : List (String × String)}

/-- The parts of a member do not contain the characters that end them in its record. -/
def Delimited (member : String × String) : Prop :=
  '\x00' ∉ member.1.toList ∧ '\n' ∉ member.2.toList

instance : DecidablePred Delimited :=
  fun member => inferInstanceAs (Decidable ('\x00' ∉ member.1.toList ∧ '\n' ∉ member.2.toList))

/-! ### Reading records back -/

/-- What stands before the first delimiter and what stands behind it are determined. -/
theorem eq_of_append_cons {c : Char} {front other back rest : List Char} (hfront : c ∉ front)
    (hother : c ∉ other) (h : front ++ c :: back = other ++ c :: rest) :
    front = other ∧ back = rest := by
  induction front generalizing other with
  | nil =>
    cases other with
    | nil => simpa using h
    | cons d other =>
      obtain ⟨rfl, -⟩ := List.cons.inj h
      exact absurd List.mem_cons_self hother
  | cons b front ih =>
    cases other with
    | nil =>
      obtain ⟨rfl, -⟩ := List.cons.inj h
      exact absurd List.mem_cons_self hfront
    | cons d other =>
      simp only [List.mem_cons, not_or] at hfront hother
      obtain ⟨rfl, hrest⟩ := List.cons.inj h
      obtain ⟨rfl, rfl⟩ := ih hfront.2 hother.2 hrest
      exact ⟨rfl, rfl⟩

theorem toList_record (member : String × String) :
    (record member).toList = member.1.toList ++ '\x00' :: (member.2.toList ++ ['\n']) := by
  simp [record]

/-- Texts of records are records and the text of the others. -/
theorem toList_join_cons (member : String × String) (members : List (String × String)) :
    (String.join ((member :: members).map record)).toList =
      member.1.toList ++ '\x00' :: (member.2.toList ++
        '\n' :: (String.join (members.map record)).toList) := by
  simp [String.toList_join, toList_record]

/-- Records one behind the other can be read back. -/
theorem eq_of_join_eq (hmembers : ∀ member ∈ members, Delimited member)
    (hothers : ∀ member ∈ others, Delimited member)
    (h : String.join (members.map record) = String.join (others.map record)) :
    members = others := by
  induction members generalizing others with
  | nil =>
    cases others with
    | nil => rfl
    | cons other others =>
      have hlist := congrArg String.toList h
      rw [toList_join_cons] at hlist
      simp at hlist
  | cons member members ih =>
    cases others with
    | nil =>
      have hlist := congrArg String.toList h
      rw [toList_join_cons] at hlist
      simp at hlist
    | cons other others =>
      obtain ⟨⟨hpath, hfingerprint⟩, hrest⟩ := List.forall_mem_cons.mp hmembers
      obtain ⟨⟨hpath', hfingerprint'⟩, hrest'⟩ := List.forall_mem_cons.mp hothers
      have hlist := congrArg String.toList h
      rw [toList_join_cons, toList_join_cons] at hlist
      -- the first NUL ends the path, and the first line feed behind it ends the fingerprint
      obtain ⟨hsame, hbehind⟩ := eq_of_append_cons hpath hpath' hlist
      obtain ⟨hsame', hlater⟩ := eq_of_append_cons hfingerprint hfingerprint' hbehind
      rw [ih hrest hrest' (String.toList_inj.mp hlater),
        Prod.ext (String.toList_inj.mp hsame) (String.toList_inj.mp hsame')]

/-! ### The order of members -/

theorem memberPrecedes_iff {a b : String × String} :
    memberPrecedes a b = true ↔ a.1 < b.1 ∨ a.1 = b.1 ∧ a.2 ≤ b.2 := by
  simp [memberPrecedes]

theorem memberPrecedes_trans (a b c : String × String) (hab : memberPrecedes a b = true)
    (hbc : memberPrecedes b c = true) : memberPrecedes a c = true := by
  rw [memberPrecedes_iff] at hab hbc ⊢
  rcases hab with hab | ⟨hab, hle⟩
  · left
    rcases hbc with hbc | ⟨hbc, -⟩
    · exact lt_trans hab hbc
    · exact hbc ▸ hab
  · rcases hbc with hbc | ⟨hbc, hle'⟩
    · left
      exact hab ▸ hbc
    · right
      exact ⟨hab.trans hbc, le_trans hle hle'⟩

theorem memberPrecedes_total (a b : String × String) :
    (memberPrecedes a b || memberPrecedes b a) = true := by
  rw [Bool.or_eq_true, memberPrecedes_iff, memberPrecedes_iff]
  rcases lt_trichotomy a.1 b.1 with h | h | h
  · exact .inl (.inl h)
  · rcases le_total a.2 b.2 with hle | hle
    · exact .inl (.inr ⟨h, hle⟩)
    · exact .inr (.inr ⟨h.symm, hle⟩)
  · exact .inr (.inl h)

theorem memberPrecedes_antisymm {a b : String × String} (hab : memberPrecedes a b = true)
    (hba : memberPrecedes b a = true) : a = b := by
  rw [memberPrecedes_iff] at hab hba
  rcases hab with hab | ⟨hab, hle⟩
  · rcases hba with hba | ⟨hba, -⟩
    · exact absurd hba (lt_asymm hab)
    · exact absurd hba.symm hab.ne
  · rcases hba with hba | ⟨-, hle'⟩
    · exact absurd hab.symm hba.ne
    · exact Prod.ext hab (le_antisymm hle hle')

/-- The text over which the fingerprint of a set is taken tells its members up to their order. -/
theorem setText_eq_iff (hmembers : ∀ member ∈ members, Delimited member)
    (hothers : ∀ member ∈ others, Delimited member) :
    setText members = setText others ↔ members.Perm others := by
  constructor
  · intro h
    have hsorted := eq_of_join_eq (fun member hmember => hmembers member (List.mem_mergeSort.mp hmember))
      (fun member hmember => hothers member (List.mem_mergeSort.mp hmember)) h
    exact perm_of_mergeSort_eq hsorted
  · intro h
    have hsorted := mergeSort_congr memberPrecedes_trans memberPrecedes_total
      (fun a _ b _ => memberPrecedes_antisymm) h
    rw [setText, setText, hsorted]

end Fingerprint

/-! ### Indexed files -/

theorem Digest.newline_not_mem_sha256Hex (text : String) : '\n' ∉ (sha256Hex text).toList := by
  have hdigit : ∀ n < 16, '\n' ≠ Nat.digitChar n := by decide
  intro h
  obtain ⟨n, hn, heq⟩ := exists_digit_of_mem_sha256Hex h
  exact hdigit n hn heq

namespace EmbeddingIndex

variable {m : Type → Type} [Monad m] {embedder : Embedder m} {index other : EmbeddingIndex}

/-- The indexed files with the fingerprints of their texts. -/
def members (index : EmbeddingIndex) : List (String × String) :=
  index.entries.entries.map fun (path, entry) => (path, entry.fingerprint)

theorem setFingerprint_eq (index : EmbeddingIndex) :
    index.setFingerprint = Digest.sha256Hex (Fingerprint.setText index.members) := rfl

theorem mem_members {path fingerprint : String} :
    (path, fingerprint) ∈ index.members ↔
      ∃ entry, index.entries.get? path = some entry ∧ entry.fingerprint = fingerprint := by
  simp [members, Table.get?_eq_some_iff]

/-- Indexes have the same members if each path has the same text in both. -/
theorem members_perm_iff :
    index.members.Perm other.members ↔
      ∀ path, (index.entries.get? path).map (·.fingerprint) =
        (other.entries.get? path).map (·.fingerprint) := by
  have hmembers : ∀ index : EmbeddingIndex,
      index.members = (index.entries.map (·.fingerprint)).entries := fun _ => rfl
  rw [hmembers, hmembers, Table.entries_perm_iff]
  constructor
  · intro h path
    rw [← Table.get?_map, ← Table.get?_map, h]
  · intro h
    apply Table.ext_get?
    intro path
    rw [Table.get?_map, Table.get?_map, h]

/-- What an update leaves is of an earlier text, or of the text that it is given. -/
theorem Updated.old_or_new {P : Reply Embedding → Prop} {model path text file : String}
    {reply : Reply Embedding} {after : EmbeddingIndex} {entry : IndexEntry}
    (h : Updated P model path text index reply after)
    (hentry : after.entries.get? file = some entry) :
    index.entries.get? file = some entry ∨
      file = path ∧ entry.fingerprint = Fingerprint.ofText text := by
  cases h with
  | known _ _ => exact .inl hentry
  | taken _ _ =>
    rw [Table.get?_insert] at hentry
    split at hentry
    · rename_i hfile
      cases hentry
      exact .inr ⟨hfile.symm, rfl⟩
    · exact .inl hentry
  | refused _ _ _ => exact .inl hentry
  | unreleased _ _ =>
    rw [entries_released] at hentry
    exact .inl hentry

/-- Whatever has been done, files are indexed under fingerprints of texts. -/
theorem Attained.exists_text [LawfulMonad m] (h : index.Attained embedder) {path : String}
    {entry : IndexEntry} (hentry : index.entries.get? path = some entry) :
    ∃ text, entry.fingerprint = Fingerprint.ofText text := by
  induction h generalizing path entry with
  | empty => cases hentry
  | @update index _ file text _ h hends ih =>
    have hupdated := hends _ (update_updates h.wellFormed (Ensures.trivial _) file)
    rcases hupdated.old_or_new hentry with hold | ⟨-, hnew⟩
    · exact ih hold
    · exact ⟨text, hnew⟩
  | @embed _ _ fingerprint text _ h hends ih =>
    have hanswers := getOrEmbed_answers h.wellFormed
      (Ensures.trivial (EmbeddingIndex.embed embedder text)) fingerprint
    rw [(hends _ hanswers).1] at hentry
    exact ih hentry
  | prune h hends ih =>
    rw [(hends _ (pruneCache_keeps h.wellFormed)).1] at hentry
    exact ih hentry
  | @remove index _ file _ _ hends ih =>
    have herased : Ensures ((EmbeddingIndex.remove file).run index : m _) fun r =>
        r.2.entries = index.entries.erase file := by
      unfold EmbeddingIndex.remove
      rw [StateT.run_modifyGet]
      exact .pure rfl
    rw [hends _ herased, Table.get?_erase] at hentry
    split at hentry
    · cases hentry
    · exact ih hentry
  | @onCache _ _ op _ h hends ih =>
    rw [(hends _ (onCache_ensures (Ensures.trivial _))).1] at hentry
    exact ih hentry

/-- Members of an index whose paths contain no NUL can be read back from its text. -/
theorem Attained.delimited [LawfulMonad m] (h : index.Attained embedder)
    (hpaths : ∀ path, index.entries.contains path = true → '\x00' ∉ path.toList) :
    ∀ member ∈ index.members, Fingerprint.Delimited member := by
  intro ⟨path, fingerprint⟩ hmember
  obtain ⟨entry, hentry, rfl⟩ := mem_members.mp hmember
  obtain ⟨text, htext⟩ := h.exists_text hentry
  constructor
  · exact hpaths path (Table.contains_iff.mpr ⟨entry, hentry⟩)
  · rw [htext]
    exact Digest.newline_not_mem_sha256Hex text

end EmbeddingIndex

/-- The text over which the fingerprint of a set is taken is the same for two lists of members exactly
if they have the same members, provided that paths contain no NUL and fingerprints no line feed. So two
indexes, whatever has been done with them, have one fingerprint exactly if each path has the same
text in both, unless the digests of their texts collide. -/
theorem set_fingerprint_identifies_files :
    (∀ members others : List (String × String),
      (∀ member ∈ members, Fingerprint.Delimited member) →
      (∀ member ∈ others, Fingerprint.Delimited member) →
      ((Fingerprint.setText members).toUTF8 = (Fingerprint.setText others).toUTF8 ↔
        members.Perm others)) ∧
    ∀ (m m' : Type → Type) [Monad m] [LawfulMonad m] [Monad m'] [LawfulMonad m']
      (embedder : Embedder m) (embedder' : Embedder m') (index other : EmbeddingIndex),
      index.Attained embedder → other.Attained embedder' →
      (∀ path, index.entries.contains path = true → '\x00' ∉ path.toList) →
      (∀ path, other.entries.contains path = true → '\x00' ∉ path.toList) →
      Set.InjOn Digest.sha256Hex
        {Fingerprint.setText index.members, Fingerprint.setText other.members} →
      (index.setFingerprint = other.setFingerprint ↔
        ∀ path, (index.entries.get? path).map (·.fingerprint) =
          (other.entries.get? path).map (·.fingerprint)) := by
  constructor
  · intro members others hmembers hothers
    rw [← Fingerprint.setText_eq_iff hmembers hothers]
    exact String.toByteArray_inj
  · intro m m' _ _ _ _ embedder embedder' index other hindex hother hpaths hpaths' hdigest
    rw [← EmbeddingIndex.members_perm_iff,
      ← Fingerprint.setText_eq_iff (hindex.delimited hpaths) (hother.delimited hpaths'),
      EmbeddingIndex.setFingerprint_eq, EmbeddingIndex.setFingerprint_eq]
    constructor
    · intro h
      exact hdigest (Set.mem_insert _ _) (Set.mem_insert_of_mem _ (Set.mem_singleton _)) h
    · intro h
      rw [h]

/-! ### An example -/

/-- The index of some files, recorded one after another. -/
def indexOf (files : List (String × String)) : EmbeddingIndex :=
  files.foldl (fun index file =>
    ((EmbeddingIndex.update lengthEmbedder file.1 file.2).run index).run.2) ∅

theorem indexOf_attained (files : List (String × String)) :
    (indexOf files).Attained lengthEmbedder := by
  have hfold : ∀ index : EmbeddingIndex, index.Attained lengthEmbedder →
      (files.foldl (fun index file =>
        ((EmbeddingIndex.update lengthEmbedder file.1 file.2).run index).run.2) index).Attained
          lengthEmbedder := by
    induction files with
    | nil => exact fun _ h => h
    | cons file rest ih =>
      intro index h
      exact ih _ (h.update (Yields.run ((EmbeddingIndex.update lengthEmbedder file.1 file.2).run index)))
  exact hfold ∅ .empty

/-- Two files, one with a line feed in its path, and the same files with their texts swapped. -/
def lineFiles : List (String × String) := [("a\nb", "x"), ("a", "y")]

def swappedFiles : List (String × String) := [("a\nb", "y"), ("a", "x")]

theorem set_fingerprint_identifies_files_lines :
    (∀ files ∈ [lineFiles, lineFiles.reverse, swappedFiles], ∀ file ∈ files,
      Fingerprint.Delimited file) ∧
    (Fingerprint.setText lineFiles).toUTF8 = (Fingerprint.setText lineFiles.reverse).toUTF8 ∧
    (Fingerprint.setText lineFiles).toUTF8 ≠ (Fingerprint.setText swappedFiles).toUTF8 ∧
    (indexOf lineFiles).setFingerprint ≠ (indexOf swappedFiles).setFingerprint := by
  obtain ⟨hmembers, hindexes⟩ := set_fingerprint_identifies_files
  have hdelimited : ∀ files ∈ [lineFiles, lineFiles.reverse, swappedFiles], ∀ file ∈ files,
      Fingerprint.Delimited file := by decide +kernel
  have hpaths : ∀ files ∈ [lineFiles, swappedFiles], ∀ path,
      (indexOf files).entries.contains path = true → '\x00' ∉ path.toList := by
    have hkeys : ∀ files ∈ [lineFiles, swappedFiles], ∀ path ∈ (indexOf files).entries.keys,
        '\x00' ∉ path.toList := by decide +kernel
    exact fun files hfiles path hpath => hkeys files hfiles path (Table.mem_keys.mpr hpath)
  have hdigests : Set.InjOn Digest.sha256Hex
      {Fingerprint.setText (indexOf lineFiles).members,
        Fingerprint.setText (indexOf swappedFiles).members} := by
    have hsorted : ∀ files ∈ [lineFiles, swappedFiles], (indexOf files).members.Pairwise
        fun a b => Fingerprint.memberPrecedes a b = true := by decide +kernel
    have hother :
        Digest.sha256Hex (String.join ((indexOf lineFiles).members.map Fingerprint.record)) ≠
          Digest.sha256Hex (String.join ((indexOf swappedFiles).members.map Fingerprint.record)) := by
      decide +kernel
    rw [Set.injOn_pair, Fingerprint.setText, Fingerprint.setText,
      List.mergeSort_of_pairwise (hsorted _ (by simp)),
      List.mergeSort_of_pairwise (hsorted _ (by simp))]
    exact fun h => absurd h hother
  refine ⟨hdelimited, ?_, ?_, ?_⟩
  · have hperm : lineFiles.Perm lineFiles.reverse := (List.reverse_perm lineFiles).symm
    exact (hmembers _ _ (hdelimited _ (by simp)) (hdelimited _ (by simp))).mpr hperm
  · intro h
    have hperm := (hmembers _ _ (hdelimited _ (by simp)) (hdelimited _ (by simp))).mp h
    exact absurd hperm (by decide)
  · intro h
    have hsame := (hindexes Id Id lengthEmbedder lengthEmbedder _ _ (indexOf_attained lineFiles)
      (indexOf_attained swappedFiles) (hpaths _ (by simp)) (hpaths _ (by simp)) hdigests).mp h "a"
    have hother : ((indexOf lineFiles).entries.get? "a").map (·.fingerprint) ≠
        ((indexOf swappedFiles).entries.get? "a").map (·.fingerprint) := by decide +kernel
    exact hother hsame

end ContextSets
