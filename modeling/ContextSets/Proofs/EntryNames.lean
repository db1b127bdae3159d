import ContextSets.Embedding.Entry
import ContextSets.Files.Path
import ContextSets.Proofs.TextParts

/-!
# Names of entry files

An entry is kept in a file that is named after its key, and is written under a temporary name first.
If there is no slash in the fingerprint, both are names in the directory itself, told apart by their
extensions.
-/

namespace ContextSets

namespace Path

/-- A name that stands for something in the directory itself. -/
def IsPlain (name : String) : Prop :=
  parts name = [.name name]

instance : DecidablePred IsPlain :=
  fun name => inferInstanceAs (Decidable (parts name = [.name name]))

theorem partOf?_eq_name {text : List Char} (hempty : text ≠ []) (hhere : text ≠ ['.'])
    (hup : text ≠ ['.', '.']) : partOf? text = some (.name (String.ofList text)) := by
  unfold partOf?
  split
  · exact absurd rfl hempty
  · exact absurd rfl hhere
  · exact absurd rfl hup
  · rfl

theorem isPlain_of_no_slash {name : String} (hslash : '/' ∉ name.toList) (hempty : name.toList ≠ [])
    (hhere : name.toList ≠ ['.']) (hup : name.toList ≠ ['.', '.']) : IsPlain name := by
  have hsplit : Text.splitBy (· == '/') name.toList = [name.toList] := by
    apply Text.splitFrom_of_none
    intro c hc
    rw [beq_eq_false_iff_ne]
    rintro rfl
    exact hslash hc
  have hpart := partOf?_eq_name hempty hhere hup
  rw [String.ofList_toList] at hpart
  unfold IsPlain parts
  simp only [hsplit]
  split
  · rename_i hroot
    rw [hroot] at hslash
    exact absurd List.mem_cons_self hslash
  · rename_i hfirst _
    exact absurd (List.cons.inj hfirst).1 hhere
  · simp [hpart]

section

variable {name : String} {base extension : List Char}
  (hname : name.toList = base ++ '.' :: extension) (hbase : base ≠ [])

include hname hbase

/-- A name is split at its last dot. -/
theorem splitName_of_dotted (hdot : '.' ∉ extension) :
    splitName name = (String.ofList base, some (String.ofList extension)) := by
  have hbehind : (name.toList.reverse.takeWhile (· != '.')).reverse = extension := by
    have hall : ∀ c ∈ extension.reverse, (c != '.') = true := by
      intro c hc
      rw [bne_iff_ne]
      rintro rfl
      exact hdot (List.mem_reverse.mp hc)
    rw [hname, List.reverse_append, List.reverse_cons, List.append_assoc, List.singleton_append,
      List.takeWhile_append_of_pos hall]
    simp
  have hbefore : name.toList.take (name.length - extension.length - 1) = base := by
    have hlength : name.length - extension.length - 1 = base.length := by
      rw [← String.length_toList, hname, List.length_append, List.length_cons]
      omega
    rw [hlength, hname, List.take_left]
  unfold splitName
  simp only [hbehind, hbefore]
  rw [if_neg (by simpa using hbase)]

variable (hslash : '/' ∉ name.toList) (hextension : extension ≠ [])

include hslash hextension

theorem isPlain_of_dotted : IsPlain name := by
  obtain ⟨first, others, rfl⟩ := List.exists_cons_of_ne_nil hbase
  obtain ⟨second, more, rfl⟩ := List.exists_cons_of_ne_nil hextension
  apply isPlain_of_no_slash hslash
  · simp [hname]
  · simp [hname]
  · simp [hname, List.append_eq_cons_iff]

/-- The extension is what follows the last dot. -/
theorem extension?_of_dotted (hdot : '.' ∉ extension) :
    extension? name = some (String.ofList extension) := by
  have hplain := isPlain_of_dotted hname hbase hslash hextension
  have hfile : fileName? name = some name := by
    unfold fileName?
    rw [hplain]
    rfl
  unfold extension?
  rw [hfile, Option.bind_some, splitName_of_dotted hname hbase hdot]

end

end Path

namespace CacheKey

/-- The fingerprint can be part of the name of a file. -/
def FitsName (key : CacheKey) : Prop :=
  '/' ∉ key.fingerprint.toList

instance : DecidablePred FitsName :=
  fun key => inferInstanceAs (Decidable ('/' ∉ key.fingerprint.toList))

variable {key : CacheKey}

/-- What is kept of a model name has no slash either. -/
theorem toList_fileName (key : CacheKey) :
    ∃ model, '/' ∉ model ∧
      key.fileName.toList =
        (key.fingerprint.toList ++ '-' :: model) ++ '.' :: ['j', 's', 'o', 'n'] := by
  refine ⟨key.model.toList.map fun c => if c.isAlphanum || c == '-' then c else '_', ?_, ?_⟩
  · intro h
    obtain ⟨c, -, hc⟩ := List.mem_map.mp h
    split at hc
    · rename_i hplain
      rw [hc] at hplain
      exact absurd hplain (by decide)
    · exact absurd hc (by decide)
  · simp [fileName]

theorem toList_temporaryName (key : CacheKey) :
    key.temporaryName.toList = key.fileName.toList ++ '.' :: ['t', 'm', 'p'] := by
  simp [temporaryName]

theorem FitsName.slash_not_mem_fileName (h : key.FitsName) : '/' ∉ key.fileName.toList := by
  obtain ⟨model, hmodel, hname⟩ := toList_fileName key
  have hfingerprint : '/' ∉ key.fingerprint.toList := h
  simp [hname, hfingerprint, hmodel]

theorem FitsName.slash_not_mem_temporaryName (h : key.FitsName) :
    '/' ∉ key.temporaryName.toList := by
  simp [toList_temporaryName, h.slash_not_mem_fileName]

theorem fileName_ne_nil (key : CacheKey) : key.fileName.toList ≠ [] := by
  obtain ⟨model, -, hname⟩ := toList_fileName key
  simp [hname]

theorem FitsName.isPlain_fileName (h : key.FitsName) : Path.IsPlain key.fileName := by
  obtain ⟨model, -, hname⟩ := toList_fileName key
  exact Path.isPlain_of_dotted hname (by simp) h.slash_not_mem_fileName (by simp)

theorem FitsName.extension?_fileName (h : key.FitsName) :
    Path.extension? key.fileName = some "json" := by
  obtain ⟨model, -, hname⟩ := toList_fileName key
  exact Path.extension?_of_dotted hname (by simp) h.slash_not_mem_fileName (by simp) (by simp)

theorem FitsName.isPlain_temporaryName (h : key.FitsName) : Path.IsPlain key.temporaryName :=
  Path.isPlain_of_dotted (toList_temporaryName key) key.fileName_ne_nil
    h.slash_not_mem_temporaryName (by simp)

theorem FitsName.extension?_temporaryName (h : key.FitsName) :
    Path.extension? key.temporaryName = some "tmp" :=
  Path.extension?_of_dotted (toList_temporaryName key) key.fileName_ne_nil
    h.slash_not_mem_temporaryName (by simp) (by simp)

/-- No entry is kept under a temporary name. -/
theorem temporaryName_ne_fileName (key other : CacheKey) : key.temporaryName ≠ other.fileName := by
  intro h
  obtain ⟨model, -, hname⟩ := toList_fileName other
  have hends := congrArg List.reverse (toList_temporaryName key)
  rw [h, hname] at hends
  simp at hends

end CacheKey

end ContextSets
